/-
This file embeds the reader thread of `chappe/__init__.py`: the receive of a frame, the tables of a
Python node, the dispatch to its handlers and the end of a connection.
-/

import Chappe.Construction.Cache
import Chappe.Construction.Subscription

namespace Chappe
open Foundation

abbrev PythonString := List CodePoint

theorem char_toNat_lt (char : Char) : char.toNat < 0x110000 := by
  rcases char.valid with below | between
  · exact Nat.lt_trans below (by decide)
  · exact between.2

def CodePoint.ofChar (char : Char) : CodePoint := ⟨char.toNat, char_toNat_lt char⟩

/-- The code points of some characters. -/
def pointsOf (chars : List Char) : PythonString := chars.map .ofChar

/-- The bytes of some characters. -/
def encodeChars (chars : List Char) : Bytes := chars.flatMap String.utf8EncodeChar

/-- The method `bytes.decode` raises for bytes that are not UTF-8. -/
def decodeChars (bytes : Bytes) : Option (List Char) :=
  (ByteArray.utf8Decode? ⟨bytes.toArray⟩).map Array.toList

def decodeName (name : Bytes) : Option PythonString := (decodeChars name).map pointsOf

/-- The exceptions that reach the reader thread. A handler that exits raises an exception outside of
`Exception`, such as `SystemExit`. -/
inductive PythonError where
  | osError
  | unicodeDecodeError
  | systemExit
  deriving DecidableEq

/-- The method `recv` of Python repeats a call that a signal interrupted. No bytes mean that the
peer closed, and a failure raises. -/
def recvRetrying (rest : Bytes) (room : Nat) : List Recv → Option Bytes × Socket
  | .interrupted :: script => recvRetrying rest room script
  | .failed :: script => (none, ⟨rest, script⟩)
  | .ready count :: script =>
      (some (rest.take (min (max count 1) room)), ⟨rest.drop (min (max count 1) room), script⟩)
  | [] => (some (rest.take room), ⟨rest.drop room, []⟩)

/-- The outcome of a read. A closed connection has no value. -/
abbrev PythonRead (Value : Type) := Except PythonError (Option Value) × Socket

def Socket.recvExact (socket : Socket) (n : Nat) (buf : Bytes) : PythonRead Bytes :=
  if buf.length < n then
    match recvRetrying socket.rest (n - buf.length) socket.script with
    | (none, socket) => (.error .osError, socket)
    | (some [], socket) => (.ok none, socket)
    | (some (byte :: more), socket) => socket.recvExact n (buf ++ byte :: more)
  else (.ok (some buf), socket)
termination_by n - buf.length
decreasing_by
  simp only [List.length_append, List.length_cons]
  omega

/-- Sequencing of reads, where an exception or a closed connection ends the frame. -/
def PythonRead.andThen {First Second : Type} (read : PythonRead First)
    (next : First → Socket → PythonRead Second) : PythonRead Second :=
  match read with
  | (.ok (some value), socket) => next value socket
  | (.ok none, socket) => (.ok none, socket)
  | (.error error, socket) => (.error error, socket)

structure PythonFrame where
  kind : UInt8
  name : PythonString
  payload : Bytes

def PythonFrame.msg (frame : PythonFrame) : Option Msg := Msg.ofByte frame.kind

def Socket.readFrame (socket : Socket) : PythonRead PythonFrame :=
  PythonRead.andThen (socket.recvExact 1 []) fun hdr socket =>
  PythonRead.andThen (socket.recvExact 4 []) fun nlen socket =>
  PythonRead.andThen (socket.recvExact (ofLittleEndian nlen) []) fun name socket =>
  PythonRead.andThen (socket.recvExact 4 []) fun plen socket =>
  PythonRead.andThen (socket.recvExact (ofLittleEndian plen) []) fun payload socket =>
    match decodeName name with
    | some name => (.ok (some ⟨hdr.headD 0, name, payload⟩), socket)
    | none => (.error .unicodeDecodeError, socket)

/-- The frame that `_send` writes. The length fields raise for four gibibytes and more. -/
def pythonSend (kind : UInt8) (name payload : Bytes) : Option Bytes :=
  if name.length < 2 ^ 32 ∧ payload.length < 2 ^ 32 then
    some ([kind] ++ littleEndian 4 name.length ++ name ++ littleEndian 4 payload.length ++ payload)
  else none

/-- The tables `_cache`, `_watched` and `_pending`. -/
structure PythonKv where
  cache : Table PythonString Bytes
  watched : Finset PythonString
  pending : Finset Nat

def PythonKv.empty : PythonKv := ⟨.empty, ∅, ∅⟩

def PythonKv.fulfill (node : PythonKv) (id : Nat) (value : Option Bytes) :
    PythonKv × Fulfilled :=
  if id ∈ node.pending then
    ({ node with pending := node.pending.erase id }, some (id, value))
  else (node, none)

def PythonKv.onKvReply (node : PythonKv) (key : PythonString) (payload : Bytes) :
    PythonKv × Fulfilled :=
  if payload.length < 5 then (node, none)
  else
    let value := if payload.getD 4 0 ≠ 0 then some (payload.drop 5) else none
    let stored : PythonKv :=
      { node with
        watched := insert key node.watched
        cache := match value with
          | some value => node.cache.insert key value
          | none => node.cache.erase key }
    stored.fulfill (ofLittleEndian (payload.take 4)) value

/-- One frame of `_read_until_closed`, as far as it concerns these tables. -/
def PythonKv.readFrame (node : PythonKv) (frame : PythonFrame) : PythonKv × Fulfilled :=
  match frame.msg with
  | some .kvReply => node.onKvReply frame.name frame.payload
  | some .kvUpdate =>
      ({ node with
        watched := insert frame.name node.watched
        cache := node.cache.insert frame.name frame.payload }, none)
  | some .kvResult =>
      if 5 ≤ frame.payload.length then
        node.fulfill (ofLittleEndian (frame.payload.take 4))
          (if frame.payload.getD 4 0 ≠ 0 then some (frame.payload.drop 5) else none)
      else (node, none)
  | some .kvDel => ({ node with cache := node.cache.erase frame.name }, none)
  | some .pong =>
      if 4 ≤ frame.payload.length then
        node.fulfill (ofLittleEndian (frame.payload.take 4)) none
      else (node, none)
  | some .info =>
      if 4 ≤ frame.payload.length then
        node.fulfill (ofLittleEndian (frame.payload.take 4)) (some (frame.payload.drop 4))
      else (node, none)
  | _ => (node, none)

/-- The levels of a topic in Python. -/
def pythonLevels (topic : PythonString) : List PythonString := topic.splitOn 47

/-- The loop of `_topic_matches`. -/
def pythonLevelsMatch : List PythonString → List PythonString → Bool
  | [], topic => topic.isEmpty
  | level :: rest, topic =>
      if level = [42] then true
      else match topic with
        | [] => false
        | head :: tail => (level = [43] || level = head) && pythonLevelsMatch rest tail

def pythonTopicMatches (pattern topic : PythonString) : Bool :=
  pythonLevelsMatch (pythonLevels pattern) (pythonLevels topic)

/-- The tables `_subs` and `_pattern_subs`. The items of a dictionary have an order. -/
structure PythonTables (Handler : Type) where
  subs : Handlers PythonString Handler
  patternSubs : List (PythonString × List Handler)

/-- The handlers that `_dispatch` calls. Those of a pattern also get the topic. -/
def PythonTables.receivers {Handler : Type} (tables : PythonTables Handler)
    (topic : PythonString) : List (Handler × Option PythonString) :=
  ((tables.subs.lookup topic).getD []).map (·, none) ++
    (tables.patternSubs.filter fun item => pythonTopicMatches item.1 topic).flatMap
      fun item => item.2.map (·, some topic)

/-- What a handler gets: bytes, or what `json.loads` made of them. -/
inductive PythonValue (Json : Type) where
  | bytes (payload : Bytes)
  | json (value : Json)

/-- How a call of a handler ends. -/
inductive Behaviour where
  | returns
  | raises
  | exits
  deriving DecidableEq

/-- A node with its handlers. The function `loads` has no value where `json.loads` raises. -/
structure PythonConfig (Handler Json : Type) where
  decode : Bool
  pool : Bool
  loads : Bytes → Option Json
  behaviour : Handler → Option PythonString → PythonValue Json → Behaviour

/-- The prefix `_MAGIC` of a serialized value. -/
def magic : Bytes := [0xc7, 99, 104, 1]

/-- The function `_decode` hands back the bytes that it cannot load. -/
def PythonConfig.decodePayload {Handler Json : Type} (config : PythonConfig Handler Json)
    (payload : Bytes) : PythonValue Json :=
  if magic.isPrefixOf payload then
    match config.loads (payload.drop magic.length) with
    | some value => .json value
    | none => .bytes payload
  else .bytes payload

variable {Handler Json : Type}

/-- The loop over `_invoke`. It swallows an `Exception`, and a pool keeps whatever is raised. -/
def PythonConfig.invokeAll (config : PythonConfig Handler Json) (value : PythonValue Json) :
    List (Handler × Option PythonString) →
      List (Handler × Option PythonString) × Option PythonError
  | [] => ([], none)
  | call :: rest =>
      if config.pool = false ∧ config.behaviour call.1 call.2 value = .exits then
        ([call], some .systemExit)
      else (call :: (config.invokeAll value rest).1, (config.invokeAll value rest).2)

/-- What one frame has the handlers get. -/
structure PythonDelivery (Handler Json : Type) where
  calls : List (Handler × Option PythonString)
  value : PythonValue Json

/-- A node that does not decode hands on the bytes. -/
def PythonConfig.value (config : PythonConfig Handler Json) (payload : Bytes) : PythonValue Json :=
  if config.decode then config.decodePayload payload else .bytes payload

def PythonConfig.dispatch (config : PythonConfig Handler Json) (tables : PythonTables Handler)
    (topic : PythonString) (payload : Bytes) :
    PythonDelivery Handler Json × Option PythonError :=
  let outcome := config.invokeAll (config.value payload) (tables.receivers topic)
  (⟨outcome.1, config.value payload⟩, outcome.2)

/-- What the reader has done: its tables, the answers of the requests, the calls of the handlers
and the frames in their order. -/
structure PythonReader (Handler Json : Type) where
  kv : PythonKv
  answers : List (Nat × Option Bytes)
  deliveries : List (PythonDelivery Handler Json)
  processed : List PythonFrame

/-- The body of the loop for one frame. -/
def PythonReader.handle (config : PythonConfig Handler Json) (tables : PythonTables Handler)
    (reader : PythonReader Handler Json) (frame : PythonFrame) :
    PythonReader Handler Json × Option PythonError :=
  if frame.msg = some .publish then
    let outcome := config.dispatch tables frame.name frame.payload
    ({ reader with
      deliveries := reader.deliveries ++ [outcome.1]
      processed := reader.processed ++ [frame] }, outcome.2)
  else
    ({ reader with
      kv := (reader.kv.readFrame frame).1
      answers := reader.answers ++ (reader.kv.readFrame frame).2.toList
      processed := reader.processed ++ [frame] }, none)

/-- The bytes that a complete receive took are gone from the socket. -/
theorem recvRetrying_rest (rest : Bytes) (room : Nat) (script : List Recv) :
    ((recvRetrying rest room script).1.getD []) ++ (recvRetrying rest room script).2.rest =
      rest := by
  induction script with
  | nil => exact List.take_append_drop room rest
  | cons event script ih =>
      cases event with
      | failed => rfl
      | interrupted => exact ih
      | ready count => exact List.take_append_drop _ rest

theorem Socket.recvExact_rest (socket : Socket) (n : Nat) (buf : Bytes) {out : Bytes}
    (found : (socket.recvExact n buf).1 = .ok (some out)) :
    buf ++ socket.rest = out ++ (socket.recvExact n buf).2.rest ∧ n ≤ out.length := by
  fun_induction Socket.recvExact socket n buf with
  | case1 socket buf short next failed => cases found
  | case2 socket buf short next closed => cases found
  | case3 socket buf short byte more next received ih =>
      have split := recvRetrying_rest socket.rest (n - buf.length) socket.script
      rw [received, Option.getD_some] at split
      obtain ⟨taken, enough⟩ := ih found
      refine ⟨?_, enough⟩
      rw [← taken, ← split, List.append_assoc]
  | case4 socket buf long =>
      cases found
      exact ⟨rfl, Nat.not_lt.mp long⟩

/-- A read that takes at least the given number of bytes from the socket. -/
def PythonRead.Consumes {Value : Type} (socket : Socket) (count : Nat) (read : PythonRead Value) :
    Prop :=
  ∀ value, read.1 = .ok (some value) → read.2.rest.length + count ≤ socket.rest.length

theorem Socket.recvExact_consumes (socket : Socket) (n : Nat) :
    PythonRead.Consumes socket n (socket.recvExact n []) := by
  intro out found
  obtain ⟨taken, enough⟩ := socket.recvExact_rest n [] found
  have lengths := congrArg List.length taken
  simp only [List.nil_append, List.length_append] at lengths
  omega

theorem PythonRead.Consumes.andThen {First Second : Type} {socket : Socket} {count : Nat}
    {read : PythonRead First} {next : First → Socket → PythonRead Second}
    (first : PythonRead.Consumes socket count read)
    (second : ∀ value, PythonRead.Consumes read.2 0 (next value read.2)) :
    PythonRead.Consumes socket count (read.andThen next) := by
  intro value found
  rcases read with ⟨outcome, after⟩
  match outcome with
  | .ok (some front) =>
      have taken := first front rfl
      have more := second front value found
      dsimp only [PythonRead.andThen] at taken more ⊢
      omega
  | .ok none => cases found
  | .error error => cases found

theorem PythonRead.Consumes.any {Value : Type} {socket : Socket} {count : Nat}
    {read : PythonRead Value} (consumes : PythonRead.Consumes socket count read) :
    PythonRead.Consumes socket 0 read :=
  fun value found => Nat.le_of_add_right_le (consumes value found)

/-- A frame takes at least its first byte from the socket. -/
theorem Socket.readFrame_consumes (socket : Socket) {frame : PythonFrame}
    (found : socket.readFrame.1 = .ok (some frame)) :
    socket.readFrame.2.rest.length < socket.rest.length := by
  refine (socket.recvExact_consumes 1).andThen (fun hdr => ?_) frame found
  refine (Socket.recvExact_consumes _ 4).any.andThen fun nlen => ?_
  refine (Socket.recvExact_consumes _ (ofLittleEndian nlen)).any.andThen fun name => ?_
  refine (Socket.recvExact_consumes _ 4).any.andThen fun plen => ?_
  refine (Socket.recvExact_consumes _ (ofLittleEndian plen)).any.andThen fun payload => ?_
  intro value decoded
  split at decoded
  · exact Nat.le_refl _
  · cases decoded

/-- The loop of `_read_until_closed`. What it reads of the flag `_running` and of the handler tables
in a turn is up to the other threads. It swallows an `OSError` and no other exception. -/
def PythonReader.readUntilClosed (config : PythonConfig Handler Json) (running : Nat → Bool)
    (tables : Nat → PythonTables Handler) (reader : PythonReader Handler Json) (turn : Nat)
    (socket : Socket) : PythonReader Handler Json × Option PythonError :=
  if running turn then
    match _found : socket.readFrame.1 with
    | .error .osError => (reader, none)
    | .error error => (reader, some error)
    | .ok none => (reader, none)
    | .ok (some frame) =>
        match reader.handle config (tables turn) frame with
        | (reader, none) =>
            reader.readUntilClosed config running tables (turn + 1) socket.readFrame.2
        | (reader, some error) => (reader, some error)
  else (reader, none)
termination_by socket.rest.length
decreasing_by exact socket.readFrame_consumes (by assumption)

/-- A node as its application sees it: its socket is set, its reader thread lives, and the requests
that were failed. -/
structure PythonNode where
  connected : Bool
  alive : Bool
  kv : PythonKv
  failed : Finset Nat

/-- One connection in `_run`: the reads, and after them the teardown. An exception ends the
thread. -/
def PythonNode.serve (config : PythonConfig Handler Json) (running : Nat → Bool)
    (tables : Nat → PythonTables Handler) (node : PythonNode) (socket : Socket) : PythonNode :=
  match PythonReader.readUntilClosed config running tables ⟨node.kv, [], [], []⟩ 0 socket with
  | (reader, none) => ⟨false, node.alive, .empty, reader.kv.pending⟩
  | (reader, some _) => ⟨node.connected, false, reader.kv, node.failed⟩

end Chappe
