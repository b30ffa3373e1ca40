/-
This file embeds the frame kinds, the topic patterns and the framing of `transport.hpp`.
-/

import Chappe.Foundation.LittleEndian

namespace Chappe
open Foundation

/-- The client and daemon message kinds. -/
inductive Msg where
  | subscribe
  | unsubscribe
  | publish
  | kvSet
  | kvGet
  | kvReply
  | kvUpdate
  | ping
  | pong
  | publishRetain
  | info
  | kvDel
  | kvSetex
  | kvIncr
  | kvSetnx
  | kvResult
  deriving DecidableEq, Repr

/-- The byte that stands for a kind on the wire. -/
def Msg.toByte : Msg → UInt8
  | .subscribe => 0
  | .unsubscribe => 1
  | .publish => 2
  | .kvSet => 3
  | .kvGet => 4
  | .kvReply => 5
  | .kvUpdate => 6
  | .ping => 7
  | .pong => 8
  | .publishRetain => 9
  | .info => 10
  | .kvDel => 11
  | .kvSetex => 12
  | .kvIncr => 13
  | .kvSetnx => 14
  | .kvResult => 15

/-- Every kind in the order of its byte. -/
def Msg.all : List Msg :=
  [.subscribe, .unsubscribe, .publish, .kvSet, .kvGet, .kvReply, .kvUpdate, .ping, .pong,
    .publishRetain, .info, .kvDel, .kvSetex, .kvIncr, .kvSetnx, .kvResult]

/-- The kind of a byte. Any other byte takes the default branch of a switch. -/
def Msg.ofByte (byte : UInt8) : Option Msg := Msg.all[byte.toNat]?

@[simp] theorem Msg.ofByte_toByte (msg : Msg) : Msg.ofByte msg.toByte = some msg := by
  cases msg <;> rfl

structure Frame where
  kind : UInt8
  name : Bytes
  payload : Bytes
  deriving DecidableEq, Repr

/-- The kind that a switch on the frame sees. -/
def Frame.msg (frame : Frame) : Option Msg := Msg.ofByte frame.kind

/-- A frame of a known kind. -/
def Msg.frame (msg : Msg) (name payload : Bytes) : Frame := ⟨msg.toByte, name, payload⟩

@[simp] theorem Msg.frame_msg (msg : Msg) (name payload : Bytes) :
    (msg.frame name payload).msg = some msg := Msg.ofByte_toByte msg

@[simp] theorem Msg.frame_name (msg : Msg) (name payload : Bytes) :
    (msg.frame name payload).name = name := rfl

@[simp] theorem Msg.frame_payload (msg : Msg) (name payload : Bytes) :
    (msg.frame name payload).payload = payload := rfl

/-- The bound `MAX_FRAME_BYTES` on a name or a payload. -/
def maxFrameBytes : Nat := 64 * 1024 * 1024

/-- The frame is within the bound of a reader. -/
def Frame.isBounded (frame : Frame) : Bool :=
  frame.name.length ≤ maxFrameBytes && frame.payload.length ≤ maxFrameBytes

/-- The levels of a topic between its slashes. -/
def topicLevels (topic : Bytes) : List Bytes := topic.splitOn 47

/-- The loop of `topic_levels`, which searches the next slash from a start. -/
def levelsFrom (topic : Bytes) (start : Nat) : List Bytes :=
  match found : (topic.drop start).findIdx? (· == 47) with
  | none => [topic.drop start]
  | some size => (topic.drop start).take size :: levelsFrom topic (start + size + 1)
termination_by topic.length - start
decreasing_by
  have inside := (List.findIdx?_eq_some_iff_getElem.mp found).1
  rw [List.length_drop] at inside
  omega

/-- A name that contains `+` or `*` is a pattern. -/
def topicHasWildcard (name : Bytes) : Bool := name.contains 43 || name.contains 42

/-- The level loop of `topic_matches`. -/
def levelsMatch : List Bytes → List Bytes → Bool
  | [], topic => topic.isEmpty
  | level :: rest, topic =>
      if level = [42] then true
      else match topic with
        | [] => false
        | head :: tail => (level = [43] || level = head) && levelsMatch rest tail

def topicMatches (pattern topic : Bytes) : Bool :=
  levelsMatch (topicLevels pattern) (topicLevels topic)

def appendU32 (buf : Bytes) (value : Nat) : Bytes := buf ++ littleEndian 4 value

def buildFrame (kind : UInt8) (name payload : Bytes) : Bytes :=
  appendU32 (appendU32 [kind] name.length ++ name) payload.length ++ payload

/-- What one call of `recv` does. The count of a delivery is what the kernel has ready. -/
inductive Recv where
  | failed
  | interrupted
  | ready (count : Nat)

/-- What one call of `recv` returns. No bytes mean that the peer closed. -/
inductive Received where
  | failed
  | interrupted
  | bytes (chunk : Bytes)

/-- A socket has the bytes that are still to arrive and the behaviour of the coming calls.
After the script the kernel always has every remaining byte ready. -/
structure Socket where
  rest : Bytes
  script : List Recv

/-- A delivery has at least one byte while one remains, and never more than the room. -/
def Socket.recv (socket : Socket) (room : Nat) : Received × Socket :=
  match socket.script with
  | .failed :: script => (.failed, { socket with script := script })
  | .interrupted :: script => (.interrupted, { socket with script := script })
  | .ready count :: script =>
      (.bytes (socket.rest.take (min (max count 1) room)),
        ⟨socket.rest.drop (min (max count 1) room), script⟩)
  | [] => (.bytes (socket.rest.take room), ⟨socket.rest.drop room, []⟩)

/-- The buffer of one connection with its two cursors. -/
structure FrameReader where
  buf : Bytes
  pos : Nat
  endPos : Nat
  socket : Socket

def FrameReader.open (socket : Socket) : FrameReader := ⟨List.replicate 4096 0, 0, 0, socket⟩

/-- The `std::vector` operation keeps a prefix and pads with zeros. -/
def resize (buf : Bytes) (size : Nat) : Bytes :=
  buf.take size ++ List.replicate (size - buf.length) 0

/-- Compaction moves the unparsed bytes to the front of the buffer. -/
def FrameReader.compact (reader : FrameReader) : FrameReader :=
  if 0 < reader.pos then
    let rem := reader.endPos - reader.pos
    { reader with
      buf := (reader.buf.drop reader.pos).take rem ++ reader.buf.drop rem
      pos := 0
      endPos := rem }
  else reader

/-- Growth makes the buffer fit the need and leaves room for a receive. -/
def FrameReader.grow (reader : FrameReader) (need : Nat) : FrameReader :=
  let fitted := if reader.buf.length < need then resize reader.buf need else reader.buf
  { reader with
    buf := if fitted.length = reader.endPos then resize fitted (fitted.length * 2) else fitted }

/-- One `recv` into the free part of the buffer. -/
def FrameReader.receive (reader : FrameReader) : Bool × FrameReader :=
  match reader.socket.recv (reader.buf.length - reader.endPos) with
  | (.failed, socket) => (false, { reader with socket := socket })
  | (.interrupted, socket) => (true, { reader with socket := socket })
  | (.bytes chunk, socket) =>
      if chunk.length = 0 then (false, { reader with socket := socket })
      else
        (true,
          { reader with
            buf := reader.buf.take reader.endPos ++ chunk ++
              reader.buf.drop (reader.endPos + chunk.length)
            endPos := reader.endPos + chunk.length
            socket := socket })

def FrameReader.fill (reader : FrameReader) (need : Nat) : Bool × FrameReader :=
  (reader.compact.grow need).receive

/-- The calls and bytes that a socket still has. -/
def Socket.remaining (socket : Socket) : Nat := socket.rest.length + socket.script.length

@[simp] theorem FrameReader.compact_socket (reader : FrameReader) :
    reader.compact.socket = reader.socket := by
  unfold compact
  split <;> rfl

@[simp] theorem FrameReader.grow_socket (reader : FrameReader) (need : Nat) :
    (reader.grow need).socket = reader.socket := rfl

/-- A receive that asks to be repeated has used up a call or some bytes. -/
theorem FrameReader.receive_remaining (reader : FrameReader) (again : reader.receive.1 = true) :
    reader.receive.2.socket.remaining < reader.socket.remaining := by
  unfold receive Socket.recv at *
  rcases same : reader.socket with ⟨rest, script⟩
  rcases script with _ | ⟨event, script⟩
  · simp only [same, Socket.remaining] at *
    split at again
    · simp at again
    · rename_i some
      simp only [List.length_take] at some
      rw [if_neg (by simpa using some)]
      simp only [List.length_drop, List.length_nil]
      omega
  · cases event with
    | failed => simp [same] at again
    | interrupted => simp [Socket.remaining]
    | ready count =>
        simp only [same, Socket.remaining] at *
        split at again
        · simp at again
        · rename_i some
          simp only [List.length_take] at some
          rw [if_neg (by simpa using some)]
          simp only [List.length_drop, List.length_cons]
          omega

theorem FrameReader.fill_remaining (reader : FrameReader) (need : Nat)
    (again : (reader.fill need).1 = true) :
    (reader.fill need).2.socket.remaining < reader.socket.remaining := by
  have shrinks := receive_remaining (reader.compact.grow need) again
  rwa [grow_socket, compact_socket] at shrinks

/-- The loop of `require` refills until enough unparsed bytes are contiguous. -/
def FrameReader.require (reader : FrameReader) (n : Nat) : Bool × FrameReader :=
  if reader.endPos - reader.pos < n then
    if (reader.fill n).1 = true then (reader.fill n).2.require n else (false, (reader.fill n).2)
  else (true, reader)
termination_by reader.socket.remaining
decreasing_by
  exact FrameReader.fill_remaining reader n (by assumption)

/-- Sequencing of reads, where a failed read stops the frame. -/
def andThen {A B : Type} (outcome : Option A × FrameReader)
    (next : A → FrameReader → Option B × FrameReader) : Option B × FrameReader :=
  match outcome with
  | (some value, reader) => next value reader
  | (none, reader) => (none, reader)

/-- A read requires its bytes, copies them out and moves past them. -/
def FrameReader.readBytes (reader : FrameReader) (n : Nat) : Option Bytes × FrameReader :=
  match reader.require n with
  | (true, reader) =>
      (some ((reader.buf.drop reader.pos).take n), { reader with pos := reader.pos + n })
  | (false, reader) => (none, reader)

def FrameReader.readU32 (reader : FrameReader) : Option Nat × FrameReader :=
  andThen (reader.readBytes 4) fun word reader => (some (ofLittleEndian word), reader)

/-- A length over the bound drops the connection. -/
def FrameReader.readLength (reader : FrameReader) : Option Nat × FrameReader :=
  andThen reader.readU32 fun length reader =>
    if length > maxFrameBytes then (none, reader) else (some length, reader)

def FrameReader.next (reader : FrameReader) : Option Frame × FrameReader :=
  andThen (reader.readBytes 1) fun kind reader =>
  andThen reader.readLength fun nlen reader =>
  andThen (reader.readBytes nlen) fun name reader =>
  andThen reader.readLength fun plen reader =>
  andThen (reader.readBytes plen) fun payload reader =>
    (some ⟨kind.headD 0, name, payload⟩, reader)

/-- Successive calls of `next` return these frames and then false. -/
inductive FrameReader.Reads : FrameReader → List Frame → Prop where
  | stop (reader : FrameReader) (ended : reader.next.1 = none) : Reads reader []
  | frame (reader : FrameReader) (frame : Frame) (rest : List Frame)
      (found : reader.next.1 = some frame) (later : Reads reader.next.2 rest) :
      Reads reader (frame :: rest)

end Chappe
