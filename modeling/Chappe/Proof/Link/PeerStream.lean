/-
This file proves that a link writes to its daemon exactly the configured part of what an accepted
peer sends.
-/

import Chappe.Construction.Relay
import Chappe.Proof.Link.LinkFrames
import Chappe.Proof.Transport.Framing

namespace Chappe
open Foundation

variable {Client : Type}

/-- What the link writes to its daemon for a frame of the peer. -/
def LinkConfig.admits (config : LinkConfig) (frame : Frame) : Option Frame :=
  match frame.msg with
  | some .publish =>
      if ∃ pattern ∈ config.topics, topicMatches pattern frame.name = true then some frame
      else none
  | some .kvSet => if frame.name ∈ config.keys then some frame else none
  | some .kvDel => if frame.name ∈ config.keys then some { frame with payload := [] } else none
  | _ => none

/-- The first frame of the peer is a hello that the link takes. -/
def LinkConfig.Accepts (config : LinkConfig) (hello : Frame) : Prop :=
  hello.kind = msgLinkHello ∧ hello.payload.length = 8 ∧
    (ofLittleEndian hello.payload = config.abiFingerprint.toNat ∨ config.allowAbiMismatch = true)

instance (config : LinkConfig) (hello : Frame) : Decidable (config.Accepts hello) :=
  inferInstanceAs (Decidable (_ ∧ _))

/-- What the link writes to its daemon for all frames of the peer. -/
def LinkConfig.admitted (config : LinkConfig) : List Frame → List Frame
  | [] => []
  | hello :: rest => if config.Accepts hello then rest.filterMap config.admits else []

theorem LinkConfig.peerAccepted_eq_none {config : LinkConfig} {frame : Frame} :
    config.peerAccepted frame = none ↔ config.Accepts frame := by
  unfold peerAccepted Accepts
  split
  · rename_i wrong
    simp only [reduceCtorEq, false_iff]
    tauto
  · rename_i right
    rw [not_or, not_not, not_not] at right
    split
    · simp_all
    · split <;> simp_all

theorem Msg.all_toByte : ∀ place < 16, (Msg.all[place]?).map (fun msg => msg.toByte.toNat) =
    some place := by decide

/-- A byte stands for one kind. -/
theorem Msg.ofByte_eq_some {byte : UInt8} {msg : Msg} (kind : Msg.ofByte byte = some msg) :
    byte = msg.toByte := by
  have within : byte.toNat < 16 := (List.getElem?_eq_some_iff.mp kind).1
  have place := Msg.all_toByte byte.toNat within
  rw [show Msg.all[byte.toNat]? = some msg from kind] at place
  exact UInt8.toNat_inj.mp (Option.some.inj place).symm

theorem frame_of_msg {frame : Frame} {msg : Msg} (kind : frame.msg = some msg) :
    msg.frame frame.name frame.payload = frame := by
  rw [Msg.frame, ← Msg.ofByte_eq_some kind]

theorem forwardsTopic_iff (config : LinkConfig) (topic : Bytes) :
    config.forwardsTopic topic = true ↔
      ∃ pattern ∈ config.topics, topicMatches pattern topic = true := by
  rw [LinkConfig.forwardsTopic, List.any_eq_true]

theorem forwardsKey_iff (config : LinkConfig) (key : Bytes) :
    config.forwardsKey key = true ↔ key ∈ config.keys := List.contains_iff_mem

/-- The first frame decides whether the peer is vetted, and writes nothing. -/
theorem peerFrame_first (config : LinkConfig) {link : Link} (unvetted : link.vetted = false)
    (frame : Frame) :
    ((link.peerFrame config frame).vetted = true ↔ config.Accepts frame) ∧
      (link.peerFrame config frame).peerPending = link.peerPending ∧
      ((link.peerFrame config frame).vetted = true →
        (link.peerFrame config frame).alive = link.alive) := by
  rw [← LinkConfig.peerAccepted_eq_none]
  simp only [Link.peerFrame, unvetted, if_true]
  cases config.peerAccepted frame with
  | none => simp
  | some why => simp

/-- A vetted link has a frame of its peer written to the daemon when the configuration admits
it. -/
theorem peerFrame_vetted (config : LinkConfig) {link : Link} (vetted : link.vetted = true)
    (idle : link.peerPending = none) (frame : Frame) :
    (link.peerFrame config frame).vetted = true ∧
      (link.peerFrame config frame).peerPending = config.admits frame ∧
      (link.peerFrame config frame).alive = link.alive := by
  unfold Link.peerFrame LinkConfig.admits
  rw [if_neg (by simp [vetted])]
  by_cases publish : frame.msg = some .publish
  · rw [if_pos publish]
    simp only [publish, forwardsTopic_iff]
    split
    · exact ⟨vetted, congrArg some (frame_of_msg publish), rfl⟩
    · exact ⟨vetted, idle, rfl⟩
  · rw [if_neg publish]
    simp only [Frame.command]
    split
    · rename_i change command
      split at command
      · rename_i kind
        cases command
        simp only [kind, Change.key, Change.frame, forwardsKey_iff]
        split
        · exact ⟨vetted, congrArg some (frame_of_msg kind), rfl⟩
        · exact ⟨vetted, idle, rfl⟩
      · rename_i kind
        cases command
        simp only [kind, Change.key, Change.frame, forwardsKey_iff]
        have byte : frame.kind = Msg.kvDel.toByte := Msg.ofByte_eq_some kind
        split
        · exact ⟨vetted, by rw [byte, Msg.frame], rfl⟩
        · exact ⟨vetted, idle, rfl⟩
      · cases command
    · rename_i command
      refine ⟨vetted, idle.trans ?_, rfl⟩
      split
      · rename_i kind
        exact absurd kind publish
      · rename_i kind
        rw [kind] at command
        cases command
      · rename_i kind
        rw [kind] at command
        cases command
      · rfl

/-- The link is up until `peer_loop` has read everything. -/
def Relay.Up (relay : Relay Client) : Prop :=
  relay.ended = true ∨ (relay.connected = true ∧ relay.link.alive = true)

/-- The peer still owes the link the given frames. -/
def Relay.Owes (config : LinkConfig) (frames : List Frame) (relay : Relay Client)
    (rest : List Frame) : Prop :=
  if relay.link.vetted = true then
    relay.written ++ relay.link.peerPending.toList ++ rest.filterMap config.admits =
      config.admitted frames
  else relay.written = [] ∧ relay.link.peerPending = none ∧ rest = frames

/-- What `peer_loop` has written is a prefix of what the configuration admits, and is the part of
it before the coming frames while the daemon is connected. -/
structure Relay.Streams (config : LinkConfig) (frames : List Frame) (relay : Relay Client) :
    Prop where
  before : relay.written <+: config.admitted frames
  ahead : relay.ended = false → ∃ rest, relay.reader.Reads rest ∧
    (relay.connected = true → relay.Owes config frames rest)

theorem FrameReader.Reads.of_none {reader : FrameReader} {rest : List Frame}
    (reads : reader.Reads rest) (ended : reader.next.1 = none) : rest = [] := by
  cases reads with
  | stop => rfl
  | frame _ other tail found _ =>
      rw [ended] at found
      cases found

theorem FrameReader.Reads.of_some {reader : FrameReader} {rest : List Frame} {frame : Frame}
    (reads : reader.Reads rest) (found : reader.next.1 = some frame) :
    ∃ tail, rest = frame :: tail ∧ reader.next.2.Reads tail := by
  cases reads with
  | stop _ ended =>
      rw [found] at ended
      cases ended
  | frame _ other tail head later =>
      rw [found] at head
      cases head
      exact ⟨tail, rfl, later⟩

variable {config : LinkConfig} {frames : List Frame} {relay : Relay Client}

theorem Relay.Streams.initial {socket : Socket} (parsed : (FrameReader.open socket).Reads frames) :
    (Relay.initial config socket : Relay Client).Streams config frames :=
  ⟨List.nil_prefix, fun _ => ⟨frames, parsed, fun _ => ⟨rfl, rfl, rfl⟩⟩⟩

/-- What is owed by a vetted peer that has nothing in progress. -/
theorem Relay.Owes.of_vetted {rest : List Frame} (owes : relay.Owes config frames rest)
    (vetted : relay.link.vetted = true) (idle : relay.link.peerPending = none) :
    relay.written ++ rest.filterMap config.admits = config.admitted frames := by
  rw [Relay.Owes, if_pos vetted, idle, Option.toList_none, List.append_nil] at owes
  exact owes

theorem Relay.Owes.of_unvetted {rest : List Frame} (owes : relay.Owes config frames rest)
    (unvetted : relay.link.vetted = false) : relay.written = [] ∧ rest = frames := by
  rw [Relay.Owes, if_neg (by simp [unvetted])] at owes
  exact ⟨owes.1, owes.2.2⟩

theorem Relay.Streams.finish (streams : relay.Streams config frames) :
    relay.finish.Streams config frames :=
  ⟨streams.before, nofun⟩

/-- A read keeps what is owed, and the last one leaves nothing owed. -/
theorem Relay.Streams.peerRead (streams : relay.Streams config frames)
    (running : relay.ended = false) (idle : relay.link.peerPending = none) :
    (relay.peerRead config).Streams config frames ∧
      (relay.connected = true → relay.link.alive = true → (relay.peerRead config).ended = true →
        (relay.peerRead config).written = config.admitted frames) := by
  obtain ⟨rest, reads, owes⟩ := streams.ahead running
  unfold Relay.peerRead
  split
  · rename_i stopped
    refine ⟨streams.finish, fun _ alive => ?_⟩
    simp [alive] at stopped
  · split
    · rename_i reader next
      refine ⟨⟨streams.before, nofun⟩, fun connected _ _ => ?_⟩
      have none : rest = [] := reads.of_none (by rw [next])
      subst rest
      cases vetted : relay.link.vetted with
      | true =>
          have all := (owes connected).of_vetted vetted idle
          rwa [List.filterMap_nil, List.append_nil] at all
      | false =>
          obtain ⟨written, rfl⟩ := (owes connected).of_unvetted vetted
          exact written
    · rename_i frame reader next
      obtain ⟨tail, rfl, later⟩ := reads.of_some (by rw [next])
      rw [next] at later
      dsimp only
      cases vetted : relay.link.vetted with
      | true =>
          obtain ⟨still, pending, _⟩ := peerFrame_vetted config vetted idle frame
          rw [if_pos still]
          refine ⟨⟨streams.before, fun _ => ⟨tail, later, fun connected => ?_⟩⟩,
            fun _ _ ended => ?_⟩
          · rw [Relay.Owes, if_pos still, ← (owes connected).of_vetted vetted idle, pending,
              List.append_assoc, List.filterMap_cons]
            cases config.admits frame <;> rfl
          · rw [running] at ended
            cases ended
      | false =>
          obtain ⟨accepts, pending, _⟩ := peerFrame_first config vetted frame
          split
          · rename_i now
            refine ⟨⟨streams.before, fun _ => ⟨tail, later, fun connected => ?_⟩⟩,
              fun _ _ ended => ?_⟩
            · obtain ⟨written, rfl⟩ := (owes connected).of_unvetted vetted
              rw [Relay.Owes, if_pos now, LinkConfig.admitted, if_pos (accepts.mp now), written,
                pending, idle]
              rfl
            · rw [running] at ended
              cases ended
          · rename_i rejected
            refine ⟨⟨streams.before, nofun⟩, fun connected _ _ => ?_⟩
            obtain ⟨written, rfl⟩ := (owes connected).of_unvetted vetted
            rw [LinkConfig.admitted, if_neg (fun taken => rejected (accepts.mpr taken))]
            exact written

/-- The stream depends on the sockets and on the part of the link that `peer_loop` uses. -/
theorem Relay.Streams.of_same (streams : relay.Streams config frames) {changed : Relay Client}
    (written : changed.written = relay.written) (reader : changed.reader = relay.reader)
    (ended : changed.ended = relay.ended)
    (connected : changed.connected = true → relay.connected = true)
    (vetted : changed.link.vetted = relay.link.vetted)
    (pending : changed.link.peerPending = relay.link.peerPending) :
    changed.Streams config frames := by
  constructor
  · rw [written]
    exact streams.before
  · intro running
    obtain ⟨rest, reads, owes⟩ := streams.ahead (ended ▸ running)
    refine ⟨rest, reader ▸ reads, fun still => ?_⟩
    have owed := owes (connected still)
    rw [Relay.Owes] at owed ⊢
    rwa [vetted, written, pending]

variable {me : Client}

theorem Relay.Streams.localLoop (streams : relay.Streams config frames) :
    (relay.localLoop config me).Streams config frames := by
  unfold Relay.localLoop
  split
  · obtain ⟨pending, -, -, vetted⟩ := localSend_kept relay.link
    exact streams.of_same rfl rfl rfl id vetted pending
  · exact streams
  · split
    · rename_i frame _ _ _
      obtain ⟨pending, -, -, -, vetted⟩ :=
        localRead_kept config { relay.link with fromDaemon := [(false, frame)] }
      exact streams.of_same rfl rfl rfl id vetted pending
    · exact streams.of_same rfl rfl rfl id rfl rfl

variable [DecidableEq Client]

theorem Relay.Streams.peerWrite (streams : relay.Streams config frames)
    (running : relay.ended = false) {frame : Frame}
    (pending : relay.link.peerPending = some frame) :
    (relay.peerWrite me frame).Streams config frames := by
  obtain ⟨rest, reads, owes⟩ := streams.ahead running
  unfold Relay.peerWrite
  split
  · rename_i connected
    have owed := owes connected
    rw [Relay.Owes] at owed
    split at owed
    · rename_i vetted
      rw [pending, Option.toList_some] at owed
      refine ⟨⟨_, owed⟩, fun _ => ⟨rest, reads, fun _ => ?_⟩⟩
      rw [Relay.Owes, if_pos vetted, ← owed, Option.toList_none, List.append_nil]
    · rw [pending] at owed
      cases owed.2.1
  · rename_i closed
    exact ⟨streams.before, fun _ => ⟨rest, reads, fun connected => absurd connected closed⟩⟩

theorem Relay.Streams.peerLoop (streams : relay.Streams config frames)
    (running : relay.ended = false) :
    (relay.peerLoop config me).Streams config frames ∧
      (relay.connected = true → relay.link.alive = true → (relay.peerLoop config me).ended = true →
        (relay.peerLoop config me).written = config.admitted frames) := by
  unfold Relay.peerLoop
  split
  · rename_i frame pending
    refine ⟨streams.peerWrite running pending, fun _ _ ended => ?_⟩
    rw [Relay.peerWrite] at ended
    split at ended
    · rw [running] at ended
      cases ended
    · rw [running] at ended
      cases ended
  · rename_i idle
    exact streams.peerRead running idle

theorem Relay.Streams.step (streams : relay.Streams config frames) (action : RelayAction Client) :
    (relay.step config me action).Streams config frames := by
  cases action with
  | daemon action =>
      simp only [Relay.step]
      split
      · exact streams
      · exact streams.of_same rfl rfl rfl id rfl rfl
  | start =>
      simp only [Relay.step, Relay.start]
      split
      · exact streams
      · exact streams.of_same rfl rfl rfl id rfl rfl
  | localLoop =>
      simp only [Relay.step]
      split
      · exact streams.localLoop
      · exact streams
  | peerLoop =>
      simp only [Relay.step]
      split
      · rename_i able
        exact (streams.peerLoop (by simpa using (Bool.and_eq_true_iff.mp able).2)).1
      · exact streams
  | stop => exact streams.of_same rfl rfl rfl id rfl rfl
  | disconnect => exact streams.of_same rfl rfl rfl (by simp [Relay.step]) rfl rfl

theorem Relay.Streams.reach (streams : relay.Streams config frames)
    (actions : List (RelayAction Client)) :
    (run (Relay.step config me) relay actions).Streams config frames := by
  have keep (relay : Relay Client) (action : RelayAction Client)
      (before : relay.Streams config frames) :
      (relay.step config me action).Streams config frames := before.step action
  exact run_invariant keep actions relay streams

/-- While the link is up, `peer_loop` ends only when nothing is owed. -/
structure Relay.Whole (config : LinkConfig) (frames : List Frame) (relay : Relay Client) :
    Prop where
  streams : relay.Streams config frames
  up : relay.Up
  complete : relay.ended = true → relay.written = config.admitted frames

theorem Relay.Whole.peerLoop (whole : relay.Whole config frames) (running : relay.ended = false) :
    (relay.peerLoop config me).ended = true →
      (relay.peerLoop config me).written = config.admitted frames := by
  rcases whole.up with ended | ⟨connected, alive⟩
  · rw [running] at ended
    cases ended
  · exact (whole.streams.peerLoop running).2 connected alive

theorem Relay.Whole.step (whole : relay.Whole config frames) (action : RelayAction Client)
    (up : (relay.step config me action).Up) :
    (relay.step config me action).Whole config frames := by
  refine ⟨whole.streams.step action, up, ?_⟩
  cases action with
  | daemon action =>
      simp only [Relay.step]
      split <;> exact whole.complete
  | start =>
      simp only [Relay.step, Relay.start]
      split <;> exact whole.complete
  | localLoop =>
      simp only [Relay.step, Relay.localLoop]
      split
      · split
        · exact whole.complete
        · exact whole.complete
        · split <;> exact whole.complete
      · exact whole.complete
  | peerLoop =>
      simp only [Relay.step]
      split
      · rename_i able
        exact whole.peerLoop (by simpa using (Bool.and_eq_true_iff.mp able).2)
      · exact whole.complete
  | stop => exact whole.complete
  | disconnect => exact whole.complete

theorem Relay.Whole.reach (whole : relay.Whole config frames) {actions : List (RelayAction Client)}
    (along : Along (Relay.step config me) Relay.Up relay actions) :
    (run (Relay.step config me) relay actions).Whole config frames := by
  have keep (relay : Relay Client) (action : RelayAction Client)
      (before : relay.Whole config frames) (up : (relay.step config me action).Up) :
      (relay.step config me action).Whole config frames := before.step action up
  exact run_invariant_of_meets keep actions relay whole along

/-- The steps that `peer_loop` has left at most. -/
def Relay.turns (relay : Relay Client) (rest : List Frame) : Nat :=
  2 * rest.length + relay.link.peerPending.toList.length

variable (config me) in
/-- Each step of `peer_loop` ends it or brings it closer to its end. -/
theorem Relay.peerLoop_progress {rest : List Frame} (reads : relay.reader.Reads rest)
    (running : relay.ended = false) (up : relay.Up) :
    (relay.peerLoop config me).started = relay.started ∧ (relay.peerLoop config me).Up ∧
      ((relay.peerLoop config me).ended = true ∨
        ∃ left, (relay.peerLoop config me).reader.Reads left ∧
          (relay.peerLoop config me).turns left < relay.turns rest) := by
  have ready : relay.connected = true ∧ relay.link.alive = true := by
    rcases up with ended | ready
    · rw [running] at ended
      cases ended
    · exact ready
  unfold Relay.peerLoop
  split
  · rename_i frame pending
    rw [Relay.peerWrite, if_pos ready.1]
    refine ⟨rfl, .inr ready, .inr ⟨rest, reads, ?_⟩⟩
    simp [Relay.turns, pending]
  · rename_i idle
    unfold Relay.peerRead
    rw [if_neg (by simp [ready.2])]
    split
    · exact ⟨rfl, .inl rfl, .inl rfl⟩
    · rename_i frame reader next
      obtain ⟨tail, rfl, later⟩ := reads.of_some (by rw [next])
      rw [next] at later
      have fewer (link : Link) (one : link.peerPending.toList.length ≤ 1) :
          ({ relay with reader := reader, link := link } : Relay Client).turns tail <
            relay.turns (frame :: tail) := by
        simp only [Relay.turns, List.length_cons]
        omega
      dsimp only
      split
      · rename_i vetted
        have alive : (relay.link.peerFrame config frame).alive = relay.link.alive := by
          cases before : relay.link.vetted with
          | true => exact (peerFrame_vetted config before idle frame).2.2
          | false => exact (peerFrame_first config before frame).2.2 vetted
        refine ⟨rfl, .inr ⟨ready.1, alive.trans ready.2⟩, .inr ⟨tail, later, fewer _ ?_⟩⟩
        cases (relay.link.peerFrame config frame).peerPending <;> simp
      · exact ⟨rfl, .inl rfl, .inl rfl⟩

/-- A link that stays up comes to the end of the frames of its peer. -/
theorem Relay.Whole.drains (bound : Nat) : ∀ {relay : Relay Client} {rest : List Frame},
    relay.Whole config frames → relay.started = true → relay.reader.Reads rest →
    relay.turns rest < bound →
    ∃ count, (run (Relay.step config me) relay (List.replicate count .peerLoop)).Whole config
        frames ∧
      (run (Relay.step config me) relay (List.replicate count .peerLoop)).ended = true := by
  induction bound with
  | zero =>
      intro relay rest _ _ _ few
      omega
  | succ bound ih =>
      intro relay rest whole started reads few
      cases running : relay.ended with
      | true => exact ⟨0, whole, running⟩
      | false =>
          have moves : relay.step config me .peerLoop = relay.peerLoop config me := by
            simp [Relay.step, started, running]
          obtain ⟨same, up, ended | ⟨left, later, fewer⟩⟩ :=
            Relay.peerLoop_progress config me reads running whole.up
          · refine ⟨1, ?_, ?_⟩
            · exact whole.step .peerLoop (moves ▸ up)
            · exact (congrArg Relay.ended moves).trans ended
          · obtain ⟨count, done⟩ := ih (whole.step .peerLoop (moves ▸ up))
              (by rw [moves, same, started]) (moves ▸ later) (by rw [moves]; omega)
            exact ⟨count + 1, done⟩

end Chappe
