/-
This file lists the points that a call of `FrameReader::next` passes through, in the order of the
statements of `transport.hpp`.
-/

import Chappe.Construction.Transport

namespace Chappe

/-- A point between two statements, a read of the buffer, a call of `recv` with the size that it is
given, or a call of `fill` from its begin to its end with what its `recv` returned. -/
inductive Moment where
  | point (reader : FrameReader)
  | read (reader : FrameReader) (start count : Nat)
  | recv (reader : FrameReader) (room : Nat) (received : Received)
  | filled (before after : FrameReader) (received : Received)

/-- The first of the two growth rules. -/
def FrameReader.fit (reader : FrameReader) (need : Nat) : FrameReader :=
  { reader with buf := if reader.buf.length < need then resize reader.buf need else reader.buf }

/-- The compaction reads the unparsed bytes. -/
def FrameReader.compactTrace (reader : FrameReader) : List Moment :=
  if 0 < reader.pos ∧ 0 < reader.endPos - reader.pos then
    [.read reader reader.pos (reader.endPos - reader.pos)]
  else []

def FrameReader.fillTrace (reader : FrameReader) (need : Nat) : List Moment :=
  let grown := reader.compact.grow need
  let room := grown.buf.length - grown.endPos
  let received := (grown.socket.recv room).1
  reader.compactTrace ++
    [.point reader.compact, .point (reader.compact.fit need), .point grown,
      .recv grown room received, .filled reader (reader.fill need).2 received,
      .point (reader.fill need).2]

def FrameReader.requireTrace (reader : FrameReader) (n : Nat) : List Moment :=
  if reader.endPos - reader.pos < n then
    if (reader.fill n).1 = true then
      reader.fillTrace n ++ (reader.fill n).2.requireTrace n
    else reader.fillTrace n
  else []
termination_by reader.socket.remaining
decreasing_by
  exact FrameReader.fill_remaining reader n (by assumption)

/-- What follows a read that succeeded. -/
def afterTrace {A : Type} (outcome : Option A × FrameReader)
    (next : A → FrameReader → List Moment) : List Moment :=
  match outcome with
  | (some value, reader) => next value reader
  | (none, _) => []

/-- The bytes are read from the first unparsed one, and the cursor moves past them. -/
def FrameReader.readBytesTrace (reader : FrameReader) (n : Nat) : List Moment :=
  reader.requireTrace n ++
    match reader.require n with
    | (true, reader) =>
        [.point reader, .read reader reader.pos n, .point { reader with pos := reader.pos + n }]
    | (false, _) => []

def FrameReader.nextTrace (reader : FrameReader) : List Moment :=
  reader.readBytesTrace 1 ++ afterTrace (reader.readBytes 1) fun _ reader =>
  reader.readBytesTrace 4 ++ afterTrace reader.readLength fun nlen reader =>
  reader.readBytesTrace nlen ++ afterTrace (reader.readBytes nlen) fun _ reader =>
  reader.readBytesTrace 4 ++ afterTrace reader.readLength fun plen reader =>
  reader.readBytesTrace plen

/-- The points of some calls of `next`, each from the state that the last one left. -/
def FrameReader.callsTrace : Nat → FrameReader → List Moment
  | 0, _ => []
  | calls + 1, reader => .point reader :: reader.nextTrace ++ callsTrace calls reader.next.2

/-- The moment is a call of `recv`. -/
def Moment.isRecv : Moment → Bool
  | .recv _ _ _ => true
  | .point _ | .read _ _ _ | .filled _ _ _ => false

end Chappe
