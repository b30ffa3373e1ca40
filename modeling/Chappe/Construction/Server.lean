/-
This file embeds the threads of `server.hpp` with their mutexes and descriptors: the constructor has
returned, and the accept thread, the sweep thread, one reader for each client and the thread that
calls the destructor run until the daemon is gone.
-/

import Chappe.Construction.Daemon
import Chappe.Foundation.Locking

namespace Chappe.Server
open Foundation

/-- The mutexes of a `Server`, with the `send_mu` of each client. -/
inductive Mutex (Client : Type) where
  | sweep
  | clients
  | subs
  | retained
  | kv
  | send (client : Client)
  deriving DecidableEq

/-- The threads of the daemon. The owner is the thread that calls the destructor. -/
inductive Worker (Client : Type) where
  | owner
  | accept
  | sweep
  | reader (client : Client)
  deriving DecidableEq

/-- The critical sections, system calls and waits of the threads. -/
inductive Op (Client : Type) where
  | lock (mutex : Mutex Client) (mode : Mode)
  | unlock (mutex : Mutex Client)
  | finish (worker : Worker Client)
  -- `client_loop` and `handle_frame`
  | start (client : Client)
  | loop (client : Client) (number : Nat)
  | next (client : Client) (number : Nat)
  | subscribe (client : Client) (name : Bytes)
  | unsubscribe (client : Client) (name : Bytes)
  | replay (client : Client) (topic : Bytes)
  | snapshot (client : Client) (frame : Frame)
  | retain (frame : Frame)
  | request (client : Client) (frame : Frame)
  | inquire (client : Client) (report : Report) (inquiry : Inquiry)
  | write (client : Client) (frame : Frame)
  -- `remove_client`
  | leaveTopics (client : Client)
  | leaveKeys (client : Client)
  | closeFd (client : Client)
  | eraseClient (client : Client)
  -- `accept_loop`
  | acceptLoop
  | accept
  | reap
  | enlist (client : Client)
  -- `sweep_loop`
  | sweepLoop
  | doze
  | recheck
  | sweepKeys (read : Nat)
  -- the destructor
  | destroyed
  | stop
  | notify
  | join (worker : Worker Client)
  | shutListen
  | closeListen
  | shutClients
  | shutFd (client : Client)
  | clearReaders
  | unlink

/-- The constants of a daemon: its list of users and the user that it runs as. -/
structure Config where
  allowedUids : Finset Nat
  euid : Nat

/-- The listening socket. -/
inductive Listener where
  | open
  | shut
  | closed
  deriving DecidableEq

/-- The members of a `Server`, what the kernel keeps for it, and what has come and gone over each
connection. A connection in the backlog comes with the user that the kernel reports for it. The
frames that are written to a connection are kept with the client that they were meant for. -/
structure State (Client : Type) where
  running : Bool
  destroyed : Bool
  listener : Listener
  bound : Bool
  backlog : List (Client × Option Nat)
  dialed : List (Client × Option Nat)
  clients : List Client
  readers : List Client
  admitted : List Client
  finished : List (Worker Client)
  tables : Tables Client
  retained : Table Bytes Bytes
  store : Store Client
  named : Finset Bytes
  fd : Client → Option Nat
  sockets : Nat → Option Client
  inbox : Client → List Frame
  shut : Client → Bool
  sent : Client → List (Client × Frame)
  closes : Client → Nat
  faults : Nat

/-- What the threads do not decide themselves: the number of a new descriptor, the clock, the order
of a hash table and whether a system call fails. -/
structure Choice where
  number : Nat
  now : Nat
  later : Nat
  order : List Bytes
  failed : Bool

/-- The steps of the peers and of the owner of the daemon. -/
inductive Event (Client : Type) where
  | dial (client : Client) (uid : Option Nat)
  | arrive (client : Client) (frame : Frame)
  | hangUp (client : Client)
  | destroy

abbrev Code (Client : Type) := List (Op Client)

/-- The function `peer_allowed`. There is no user when `getsockopt` fails. -/
def Config.peerAllowed (config : Config) : Option Nat → Bool
  | none => false
  | some uid => if config.allowedUids = ∅ then uid = config.euid else uid ∈ config.allowedUids

section Scripts
variable {Client : Type}

/-- The calls of `send_to` for frames and the clients that they are for. -/
def sends (writes : List (Client × Frame)) : Code Client :=
  writes.flatMap fun write =>
    [.lock (.send write.1) .exclusive, .write write.1 write.2, .unlock (.send write.1)]

/-- The loop of the destructor over the clients. -/
def shutdowns (clients : List Client) : Code Client :=
  clients.flatMap fun client =>
    [.lock (.send client) .exclusive, .shutFd client, .unlock (.send client)]

/-- The destructors of the futures of the readers. -/
def joins (clients : List Client) : Code Client := clients.map fun client => .join (.reader client)

/-- The function `handle_frame`. A step that reads a table goes on with what it has read. -/
def handleFrame (client : Client) (frame : Frame) : Code Client :=
  match frame.msg with
  | some .subscribe =>
      [.lock .subs .exclusive, .subscribe client frame.name, .unlock .subs] ++
        if topicHasWildcard frame.name then []
        else [.lock .retained .exclusive, .replay client frame.name]
  | some .unsubscribe =>
      [.lock .subs .exclusive, .unsubscribe client frame.name, .unlock .subs]
  | some .publish => [.lock .subs .shared, .snapshot client frame]
  | some .publishRetain =>
      [.lock .subs .shared, .snapshot client frame, .lock .retained .exclusive, .retain frame,
        .unlock .retained]
  | some .ping => sends [(client, Msg.pong.frame frame.name frame.payload)]
  | some .info =>
      if frame.payload.length < 4 then []
      else [.lock .clients .exclusive,
        .inquire client { id := frame.payload.take 4 } .clients]
  | _ =>
      if (KvRequest.ofFrame frame).isSome then
        [.lock .kv .exclusive, .request client frame, .unlock .kv]
      else []

/-- The function `remove_client` and the end of the task. -/
def removeClient (client : Client) : Code Client :=
  [.lock .subs .exclusive, .leaveTopics client, .unlock .subs,
    .lock .kv .exclusive, .leaveKeys client, .unlock .kv,
    .lock (.send client) .exclusive, .closeFd client, .unlock (.send client),
    .lock .clients .exclusive, .eraseClient client, .unlock .clients,
    .finish (.reader client)]

/-- The end of `accept_loop` for a connection that is let in. -/
def admission (client : Client) : Code Client :=
  [.reap, .lock .clients .exclusive, .enlist client, .unlock .clients, .acceptLoop]

/-- The function `stop_threads` and the rest of the destructor. -/
def destructor : Code Client :=
  [.destroyed, .stop, .lock .sweep .exclusive, .notify, .unlock .sweep, .join .sweep, .shutListen,
    .join .accept, .closeListen, .lock .clients .exclusive, .shutClients, .unlock .clients,
    .clearReaders, .unlink, .finish .owner]

end Scripts

variable {Client : Type} [LinearOrder Client]

/-- The pushes to the watchers of a key. A `std::set` of clients lists them by their addresses. -/
def pushes (store : Store Client) (key : Bytes) (frame : Frame) : List (Client × Frame) :=
  (((store.watchers key).getD ∅).sort (· ≤ ·)).map (·, frame)

/-- The writes of `drop_if_expired`. -/
def dropWrites (store : Store Client) (key : Bytes) (now : Nat) : List (Client × Frame) :=
  if store.expired key now then pushes store key (Msg.kvDel.frame key []) else []

/-- The writes of a request after the lazy expiry, in the order of the code. -/
def answerWrites (store : Store Client) (client : Client) (key : Bytes) :
    KvRequest → List (Client × Frame)
  | .set value | .setex _ value => pushes store key (Msg.kvUpdate.frame key value)
  | .del => pushes store key (Msg.kvDel.frame key [])
  | .get id => [(client, kvReply key id (store.kv key))]
  | .incr id delta =>
      let bump (current : Nat) :=
        let value := littleEndian 8 (current + delta)
        pushes store key (Msg.kvUpdate.frame key value) ++ [(client, kvResult key id true value)]
      match store.kv key with
      | some value =>
          if value.length ≠ 8 then [(client, kvResult key id false [])]
          else bump (ofLittleEndian value)
      | none => bump 0
  | .setnx id _ value =>
      match store.kv key with
      | none =>
          pushes store key (Msg.kvUpdate.frame key value) ++ [(client, kvResult key id true [])]
      | some _ => [(client, kvResult key id false [])]

/-- The writes of a key and value request, all under `kv_mu_`. -/
def requestWrites (store : Store Client) (now : Nat) (client : Client) (frame : Frame) :
    List (Client × Frame) :=
  match KvRequest.ofFrame frame with
  | none => []
  | some request =>
      if request.checksDeadline then
        dropWrites store frame.name now ++
          answerWrites (store.dropIfExpired frame.name now).1 client frame.name request
      else answerWrites store client frame.name request

/-- The writes of a pass of the sweep. -/
def sweepWrites (store : Store Client) (now : Nat) : List Bytes → List (Client × Frame)
  | [] => []
  | key :: rest => dropWrites store key now ++ sweepWrites (store.dropIfExpired key now).1 now rest

/-- The mutex of each critical section of `build_info` and how it is locked. -/
def inquiryLock : Inquiry → Mutex Client × Mode
  | .topics => (.subs, .shared)
  | .retained => (.retained, .exclusive)
  | .keys => (.kv, .exclusive)
  | .clients | .reply => (.clients, .exclusive)

/-- The number of entries of a table. -/
def State.size {Value : Type} (state : State Client) (table : Table Bytes Value) : Nat :=
  (state.named.filter fun name => (table name).isSome = true).card

/-- One critical section of `build_info` with its report and the section after it. An order that
does not list the topics stands for that of their names. -/
def State.inquire (state : State Client) (order : List Bytes) (report : Report) :
    Inquiry → Report × Inquiry
  | .clients => ({ report with clients := state.clients.length }, .topics)
  | .topics =>
      let topics := if order.Nodup ∧ order.toFinset = state.tables.subs.keys then order
        else state.tables.subs.keys.sort (· ≥ ·)
      ({ report with
        topics := topics.map fun topic => (topic, (state.tables.subs.members topic).card)
        patterns := state.tables.patternSubs.keys.card }, .retained)
  | .retained => ({ report with retained := state.size state.retained }, .keys)
  | .keys =>
      ({ report with
        keys := state.size state.store.kv
        watched := state.size state.store.watchers
        expiring := state.size state.store.expires }, .reply)
  | .reply => (report, .reply)

/-- The code after a critical section of `build_info`. -/
def afterInquiry (client : Client) : Report × Inquiry → Code Client
  | (report, .reply) => sends [(client, Msg.info.frame [] (report.id ++ report.text))]
  | (report, inquiry) =>
      let lock : Mutex Client × Mode := inquiryLock inquiry
      [.lock lock.1 lock.2, .inquire client report inquiry]

/-- One call of `write_full` under `send_mu`. A call on a number that is not an open descriptor is a
fault, and a failed write shuts the connection down. -/
def State.write (state : State Client) (client : Client) (frame : Frame) (failed : Bool) :
    State Client :=
  match state.fd client with
  | none => state
  | some number =>
      match state.sockets number with
      | none => { state with faults := state.faults + 1 }
      | some peer =>
          if failed ∨ state.shut peer then
            { state with shut := Function.update state.shut peer true }
          else
            { state with
              sent := Function.update state.sent peer (state.sent peer ++ [(client, frame)]) }

/-- The call of `close` under `send_mu`. -/
def State.closeFd (state : State Client) (client : Client) : State Client :=
  match state.fd client with
  | none => state
  | some number =>
      match state.sockets number with
      | none =>
          { state with
            faults := state.faults + 1
            fd := Function.update state.fd client none }
      | some peer =>
          { state with
            sockets := Function.update state.sockets number none
            closes := Function.update state.closes peer (state.closes peer + 1)
            fd := Function.update state.fd client none }

/-- The call of `shutdown` for a client in the destructor. -/
def State.shutFd (state : State Client) (client : Client) : State Client :=
  match state.fd client with
  | none => state
  | some number =>
      match state.sockets number with
      | none => { state with faults := state.faults + 1 }
      | some peer => { state with shut := Function.update state.shut peer true }

/-- One call of `reader.next` on the descriptor that the reader was made with. It can fail at any
time, as when the peer closes its side, and it refuses a frame out of bounds. -/
def State.next (state : State Client) (client : Client) (number : Nat) (failed : Bool)
    (rest : Code Client) : Instr (Mutex Client) (State Client) (Code Client) :=
  match state.sockets number with
  | none => .act { state with faults := state.faults + 1 } (removeClient client ++ rest)
  | some peer =>
      match state.inbox peer with
      | [] =>
          if failed ∨ state.shut peer then .act state (removeClient client ++ rest) else .await
      | frame :: frames =>
          if failed ∨ frame.isBounded = false then .act state (removeClient client ++ rest)
          else
            .act { state with
              inbox := Function.update state.inbox peer frames
              named := insert frame.name state.named }
              (handleFrame client frame ++ .loop client number :: rest)

/-- One call of `unix_accept` and the check of the peer. A number that is in use stands for a call
that fails for want of descriptors. -/
def State.accept (config : Config) (state : State Client) (choice : Choice) (rest : Code Client) :
    Instr (Mutex Client) (State Client) (Code Client) :=
  match state.listener with
  | .closed => .act { state with faults := state.faults + 1 } (.acceptLoop :: rest)
  | .shut => .act state (.acceptLoop :: rest)
  | .open =>
      match state.backlog with
      | [] => .await
      | (client, uid) :: waiting =>
          if choice.failed ∨ state.sockets choice.number ≠ none then
            .act state (.acceptLoop :: rest)
          else if config.peerAllowed uid then
            .act { state with
              backlog := waiting
              fd := Function.update state.fd client (some choice.number)
              sockets := Function.update state.sockets choice.number (some client) }
              (admission client ++ rest)
          else .act { state with backlog := waiting } (.acceptLoop :: rest)

/-- What the first operation of the code of a thread does. -/
def decode (config : Config) (choice : Choice) (state : State Client) :
    Code Client → Instr (Mutex Client) (State Client) (Code Client)
  | [] => .halt
  | .lock mutex mode :: rest => .lock mutex mode rest
  | .unlock mutex :: rest => .unlock mutex rest
  | .finish worker :: rest => .act { state with finished := worker :: state.finished } rest
  | .start client :: rest =>
      if client ∈ state.admitted then
        .act state (.loop client ((state.fd client).getD 0) :: rest)
      else .await
  | .loop client number :: rest =>
      if state.running then .act state (.next client number :: rest)
      else .act state (removeClient client ++ rest)
  | .next client number :: rest => state.next client number choice.failed rest
  | .subscribe client name :: rest =>
      .act { state with tables := state.tables.subscribe client name } rest
  | .unsubscribe client name :: rest =>
      .act { state with tables := state.tables.unsubscribe client name } rest
  | .replay client topic :: rest =>
      .act state (.unlock .retained :: sends ((state.retained topic).toList.map fun value =>
        (client, Msg.publish.frame topic value)) ++ rest)
  | .snapshot client frame :: rest =>
      .act state (.unlock .subs :: sends ((((state.tables.targets frame.name).erase client).sort
        (· ≤ ·)).map (·, Msg.publish.frame frame.name frame.payload)) ++ rest)
  | .retain frame :: rest =>
      .act { state with
        retained := if frame.payload = [] then state.retained.erase frame.name
          else state.retained.insert frame.name frame.payload } rest
  | .request client frame :: rest =>
      .act { state with
        store := (state.store.handleFrame choice.now choice.later client frame).1 }
        (sends (requestWrites state.store choice.now client frame) ++ rest)
  | .inquire client report inquiry :: rest =>
      .act state (.unlock (inquiryLock inquiry).1 ::
        afterInquiry client (state.inquire choice.order report inquiry) ++ rest)
  | .write client frame :: rest => .act (state.write client frame choice.failed) rest
  | .leaveTopics client :: rest =>
      .act { state with tables := state.tables.removeClient client } rest
  | .leaveKeys client :: rest => .act { state with store := state.store.removeClient client } rest
  | .closeFd client :: rest => .act (state.closeFd client) rest
  | .eraseClient client :: rest => .act { state with clients := state.clients.erase client } rest
  | .acceptLoop :: rest =>
      .act state ((if state.running then .accept else .finish .accept) :: rest)
  | .accept :: rest => state.accept config choice rest
  | .reap :: rest =>
      .act { state with
        readers := state.readers.filter fun client => .reader client ∉ state.finished } rest
  | .enlist client :: rest =>
      .act { state with
        clients := state.clients ++ [client]
        readers := state.readers ++ [client]
        admitted := client :: state.admitted } rest
  | .sweepLoop :: rest =>
      .act state ((if state.running then
        [.unlock .sweep, .doze, .lock .sweep .exclusive, .recheck]
        else [.unlock .sweep, .finish .sweep]) ++ rest)
  | .doze :: rest => .act state rest
  | .recheck :: rest =>
      .act state ((if state.running then
        [.lock .kv .exclusive, .sweepKeys choice.now, .unlock .kv, .sweepLoop]
        else [.unlock .sweep, .finish .sweep]) ++ rest)
  | .sweepKeys read :: rest =>
      .act { state with store := (state.store.sweep read choice.order).1 }
        (sends (sweepWrites state.store read
          (choice.order.filter fun key => state.store.expired key read)) ++ rest)
  | .destroyed :: rest => if state.destroyed then .act state rest else .await
  | .stop :: rest => .act { state with running := false } rest
  | .notify :: rest => .act state rest
  | .join worker :: rest => if worker ∈ state.finished then .act state rest else .await
  | .shutListen :: rest => .act { state with listener := .shut } rest
  | .closeListen :: rest => .act { state with listener := .closed } rest
  | .shutClients :: rest => .act state (shutdowns state.clients ++ rest)
  | .shutFd client :: rest => .act (state.shutFd client) rest
  | .clearReaders :: rest => .act { state with readers := [] } (joins state.readers ++ rest)
  | .unlink :: rest => .act { state with bound := false } rest

/-- A connection that has not been made before waits in the backlog. A frame comes over a connection
that is not shut, and a peer may shut its connection at any time. -/
def outside (event : Event Client) (state : State Client) : State Client :=
  match event with
  | .dial client uid =>
      if client ∈ state.dialed.map Prod.fst then state
      else { state with
        backlog := state.backlog ++ [(client, uid)]
        dialed := (client, uid) :: state.dialed }
  | .arrive client frame =>
      if state.shut client then state
      else { state with
        inbox := Function.update state.inbox client (state.inbox client ++ [frame]) }
  | .hangUp client => { state with shut := Function.update state.shut client true }
  | .destroy => { state with destroyed := true }

def machine (config : Config) :
    Machine (Mutex Client) (State Client) (Code Client) Choice (Event Client) :=
  ⟨decode config, outside⟩

abbrev System (Client : Type) :=
  Threads (Worker Client) (Mutex Client) (State Client) (Code Client)

abbrev Action (Client : Type) := ThreadAction (Worker Client) Choice (Event Client)

def State.initial : State Client where
  running := true
  destroyed := false
  listener := .open
  bound := true
  backlog := []
  dialed := []
  clients := []
  readers := []
  admitted := []
  finished := []
  tables := .empty
  retained := .empty
  store := .empty
  named := ∅
  fd := fun _ => none
  sockets := fun _ => none
  inbox := fun _ => []
  shut := fun _ => false
  sent := fun _ => []
  closes := fun _ => 0
  faults := 0

/-- The code of a thread when the constructor returns. The reader of a client waits for its start by
`std::async`. -/
def initialCode : Worker Client → Code Client
  | .owner => destructor
  | .accept => [.acceptLoop]
  | .sweep => [.lock .sweep .exclusive, .sweepLoop]
  | .reader client => [.start client]

def System.initial : System Client where
  data := .initial
  holders := fun _ => []
  code := initialCode

def System.step (config : Config) (system : System Client) (action : Action Client) :
    System Client :=
  (machine config).step system action

end Chappe.Server
