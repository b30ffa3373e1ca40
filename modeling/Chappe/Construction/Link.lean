/-
This file embeds the link of `link.hpp` and two devices that a pair of links joins.
-/

import Chappe.Construction.Kv
import Mathlib.Data.Multiset.AddSub

namespace Chappe
open Foundation

/-- A write to the store that a link carries. -/
inductive Change where
  | set (key value : Bytes)
  | del (key : Bytes)
  deriving DecidableEq

def Change.key : Change → Bytes
  | .set key _ => key
  | .del key => key

/-- The frame that asks a link or a daemon for the change. -/
def Change.frame : Change → Frame
  | .set key value => Msg.kvSet.frame key value
  | .del key => Msg.kvDel.frame key []

/-- The change that a link asks its daemon or its peer for. -/
def Frame.command (frame : Frame) : Option Change :=
  match frame.msg with
  | some .kvSet => some (.set frame.name frame.payload)
  | some .kvDel => some (.del frame.name)
  | _ => none

/-- The change that a daemon reports to a link. A reply without a value reports none. -/
def Frame.pushed (frame : Frame) : Option Change :=
  match frame.msg with
  | some .kvReply =>
      if 5 ≤ frame.payload.length ∧ frame.payload.getD 4 0 ≠ 0 then
        some (.set frame.name (frame.payload.drop 5))
      else none
  | some .kvUpdate => some (.set frame.name frame.payload)
  | some .kvDel => some (.del frame.name)
  | _ => none

/-- The kind `MSG_LINK_HELLO` lies outside the kinds of the daemon. -/
def msgLinkHello : UInt8 := 200

structure LinkConfig where
  topics : List Bytes
  keys : List Bytes
  allowAbiMismatch : Bool
  version : Bytes
  abiFingerprint : UInt64

def LinkConfig.hello (config : LinkConfig) : Frame :=
  ⟨msgLinkHello, config.version, littleEndian 8 config.abiFingerprint.toNat⟩

def LinkConfig.forwardsTopic (config : LinkConfig) (topic : Bytes) : Bool :=
  config.topics.any fun pattern => topicMatches pattern topic

def LinkConfig.forwardsKey (config : LinkConfig) (key : Bytes) : Bool := config.keys.contains key

/-- Why a link stopped, with the version that the peer named. -/
inductive LinkError where
  | noHandshake
  | abiDiffers (version : Bytes)
  deriving DecidableEq

def LinkError.text : LinkError → Bytes
  | .noHandshake => "peer did not open with a handshake — is it a chappe_link?".toUTF8.data.toList
  | .abiDiffers version =>
      "peer ABI differs (peer runs chappe ".toUTF8.data.toList ++ version ++
      ("). Raw struct payloads would decode into garbage across this link: " ++
        "rebuild both ends for the same ABI, or pass --allow-abi-mismatch if " ++
        "everything forwarded is strings or bytes.").toUTF8.data.toList

/-- The handshake gives the error of a peer that is not accepted. -/
def LinkConfig.peerAccepted (config : LinkConfig) (frame : Frame) : Option LinkError :=
  if frame.kind ≠ msgLinkHello ∨ frame.payload.length ≠ 8 then some .noHandshake
  else if ofLittleEndian frame.payload = config.abiFingerprint.toNat then none
  else if config.allowAbiMismatch then none
  else some (.abiDiffers frame.name)

/-- The frames that the constructor writes to the daemon. -/
def LinkConfig.startup (config : LinkConfig) : List Frame :=
  config.topics.map (fun topic => Msg.subscribe.frame topic []) ++
    config.keys.zipIdx.map fun entry => Msg.kvGet.frame entry.1 (appendU32 [] entry.2)

/-- A link with its two threads. The maps `echo_set_` and `echo_del_` count the expected echoes of
each change. A pending frame is read and not yet written. The frames from the daemon are marked
when a command of this link caused them. The lists `sent` and `foreign` record what the link wrote
to its peer and what its daemon reported for other reasons. -/
structure Link where
  alive : Bool
  error : Option LinkError
  vetted : Bool
  fromDaemon : List (Bool × Frame)
  toPeer : List Frame
  echo : Multiset Change
  localPending : Option Frame
  peerPending : Option Frame
  sent : List Frame
  foreign : List Frame

/-- A link after its constructor. The hello is the first frame to the peer. -/
def Link.start (config : LinkConfig) : Link where
  alive := true
  error := none
  vetted := false
  fromDaemon := []
  toPeer := [config.hello]
  echo := 0
  localPending := none
  peerPending := none
  sent := []
  foreign := []

/-- The function `forward_kv` and its counterpart for a deletion. -/
def Link.forward (link : Link) (change : Change) : Link :=
  if change ∈ link.echo then { link with echo := link.echo.erase change }
  else { link with localPending := some change.frame }

/-- What `local_loop` does with a frame up to its write. -/
def Link.localFrame (config : LinkConfig) (link : Link) (frame : Frame) : Link :=
  if frame.msg = some .publish then
    if config.forwardsTopic frame.name then
      { link with localPending := some (Msg.publish.frame frame.name frame.payload) }
    else link
  else
    match frame.pushed with
    | some change => link.forward change
    | none => link

/-- The next read of `local_loop`. The reader refuses a frame that is out of bounds. It stays unread
and the link stops. -/
def Link.localRead (config : LinkConfig) (link : Link) : Link :=
  match link.fromDaemon, link.localPending, link.alive with
  | (_, frame) :: rest, none, true =>
      if frame.isBounded then { link with fromDaemon := rest }.localFrame config frame
      else { link with alive := false }
  | _, _, _ => link

/-- The write of `local_loop`. One that the thread still makes after the other thread has stopped
the link is taken as made before, since neither depends on the other. -/
def Link.localSend (link : Link) : Link :=
  match link.localPending, link.alive with
  | some frame, true =>
      { link with
        localPending := none
        toPeer := link.toPeer ++ [frame]
        sent := link.sent ++ [frame] }
  | _, _ => link

/-- One frame of `peer_loop` up to its write. The echo is expected before the write. -/
def Link.peerFrame (config : LinkConfig) (link : Link) (frame : Frame) : Link :=
  if link.vetted = false then
    match config.peerAccepted frame with
    | none => { link with vetted := true }
    | some why => { link with alive := false, error := some why }
  else if frame.msg = some .publish then
    if config.forwardsTopic frame.name then
      { link with peerPending := some (Msg.publish.frame frame.name frame.payload) }
    else link
  else
    match frame.command with
    | some change =>
        if config.forwardsKey change.key then
          { link with echo := change ::ₘ link.echo, peerPending := some change.frame }
        else link
    | none => link

/-- The frames of one step of the daemon arrive at the link. -/
def Link.receive (link : Link) (own : Bool) (frames : List Frame) : Link :=
  { link with
    fromDaemon := link.fromDaemon ++ frames.map fun frame => (own, frame)
    foreign := if own then link.foreign else link.foreign ++ frames }

/-- A device has a daemon, whose clients are its own ones and the links of all sessions. The
uplink has the frames that the link of each session wrote and the daemon has not read. The store
`owned` is the store without the writes of links. -/
structure Device (Client : Type) where
  store : Store (Nat ⊕ Client)
  owned : Store (Nat ⊕ Client)
  uplink : Nat → List Frame
  link : Link

inductive Side where
  | a
  | b
  deriving DecidableEq

def Side.other : Side → Side
  | .a => .b
  | .b => .a

/-- Two devices in the session of the given number. -/
structure Federation (Client : Type) where
  session : Nat
  device : Side → Device Client

inductive FederationAction (Client : Type) where
  | client (side : Side) (client : Client) (frame : Frame) (now later : Nat)
  | sweep (side : Side) (order : List Bytes) (now : Nat)
  | publish (side : Side) (name payload : Bytes)
  | serve (side : Side) (session now later : Nat)
  | localRead (side : Side)
  | localSend (side : Side)
  | peerRead (side : Side)
  | peerSend (side : Side)

/-- The frames of a link that change the store. -/
def Frame.isCommand (frame : Frame) : Bool := frame.command.isSome

variable {Client : Type}

/-- The writes of `peer_loop` go to the daemon of the current session. -/
def Device.peerSend (device : Device Client) (session : Nat) : Device Client :=
  match device.link.peerPending, device.link.alive with
  | some frame, true =>
      { device with
        uplink := Function.update device.uplink session (device.uplink session ++ [frame])
        link := { device.link with peerPending := none } }
  | _, _ => device

variable [DecidableEq Client]

/-- A step of the daemon, with its pushes to the link of the current session. -/
def Device.push (device : Device Client) (session : Nat) (own : Bool)
    (result : Store (Nat ⊕ Client) × Outbox (Nat ⊕ Client)) : Device Client :=
  { device with
    store := result.1
    link := device.link.receive own (result.2 (.inl session)) }

/-- The daemon handles a frame of one of its own clients. -/
def Device.client (device : Device Client) (session : Nat) (client : Client) (frame : Frame)
    (now later : Nat) : Device Client :=
  { device with owned := (device.owned.handleFrame now later (.inr client) frame).1 }.push session
    false (device.store.handleFrame now later (.inr client) frame)

def Device.sweep (device : Device Client) (session : Nat) (order : List Bytes) (now : Nat) :
    Device Client :=
  { device with owned := (device.owned.sweep now order).1 }.push session false
    (device.store.sweep now order)

/-- The daemon handles the next frame of the link of a session. -/
def Device.serve (device : Device Client) (session source now later : Nat) : Device Client :=
  match device.uplink source with
  | [] => device
  | frame :: rest =>
      Device.push
        { device with
          uplink := Function.update device.uplink source rest
          owned := if frame.isCommand then device.owned
            else (device.owned.handleFrame now later (.inl source) frame).1 }
        session (decide (source = session) && frame.isCommand)
        (device.store.handleFrame now later (.inl source) frame)

def Federation.update (federation : Federation Client) (side : Side) (device : Device Client) :
    Federation Client :=
  { federation with device := Function.update federation.device side device }

/-- The link of a side reads the next frame of its peer, within the bound of its reader. -/
def Federation.peerRead (config : Side → LinkConfig) (federation : Federation Client)
    (side : Side) : Federation Client :=
  let near := federation.device side
  let far := federation.device side.other
  match far.link.toPeer, near.link.peerPending, near.link.alive with
  | frame :: rest, none, true =>
      if frame.isBounded then
        (federation.update side.other
            { far with link := { far.link with toPeer := rest } }).update side
          { near with link := near.link.peerFrame (config side) frame }
      else federation.update side { near with link := { near.link with alive := false } }
  | _, _, _ => federation

/-- One step of a daemon or of a link thread. -/
def Federation.step (config : Side → LinkConfig) (federation : Federation Client) :
    FederationAction Client → Federation Client
  | .client side client frame now later =>
      federation.update side
        ((federation.device side).client federation.session client frame now later)
  | .sweep side order now =>
      federation.update side ((federation.device side).sweep federation.session order now)
  | .publish side name payload =>
      federation.update side
        ((federation.device side).push federation.session false
          ((federation.device side).store,
            .sendTo (.inl federation.session) (Msg.publish.frame name payload)))
  | .serve side session now later =>
      federation.update side
        ((federation.device side).serve federation.session session now later)
  | .localRead side =>
      federation.update side
        { federation.device side with
          link := (federation.device side).link.localRead (config side) }
  | .localSend side =>
      federation.update side
        { federation.device side with link := (federation.device side).link.localSend }
  | .peerRead side => federation.peerRead config side
  | .peerSend side =>
      federation.update side ((federation.device side).peerSend federation.session)

/-- The constructor of a link on a device. -/
def Device.startLink (device : Device Client) (config : LinkConfig) (session : Nat) :
    Device Client :=
  { device with
    uplink := Function.update device.uplink session config.startup
    link := .start config }

/-- Two devices that a pair of links has just joined. -/
def Federation.joined (config : Side → LinkConfig) (store : Side → Store (Nat ⊕ Client)) :
    Federation Client where
  session := 0
  device := fun side => Device.startLink
    ⟨store side, store side, fun _ => [], .start (config side)⟩ (config side) 0

/-- A link may stop at any time. The supervisor starts a new pair when both have stopped, and a
daemon removes the link of a session that has ended. -/
inductive FederationEvent (Client : Type) where
  | step (action : FederationAction Client)
  | stop (side : Side)
  | restart
  | removeClient (side : Side) (session : Nat)

def Device.removeClient (device : Device Client) (session : Nat) : Device Client :=
  { device with
    store := device.store.removeClient (.inl session)
    owned := device.owned.removeClient (.inl session)
    uplink := Function.update device.uplink session [] }

/-- The frames that a stopped link wrote to its peer and to its daemon can still be read. -/
def Federation.event (config : Side → LinkConfig) (federation : Federation Client) :
    FederationEvent Client → Federation Client
  | .step action => federation.step config action
  | .stop side =>
      federation.update side
        { federation.device side with
          link := { (federation.device side).link with alive := false } }
  | .restart =>
      if (federation.device .a).link.alive = false ∧ (federation.device .b).link.alive = false then
        { session := federation.session + 1
          device := fun side =>
            (federation.device side).startLink (config side) (federation.session + 1) }
      else federation
  | .removeClient side session =>
      if session < federation.session ∨ (federation.device side).link.alive = false then
        federation.update side ((federation.device side).removeClient session)
      else federation

end Chappe
