/-
This file proves the discipline of the buffer of `FrameReader` at every point of every call, for
every byte stream and every sequence of results of `recv`.
-/

import Chappe.Construction.BufferTrace
import Chappe.Proof.Transport.Framing

namespace Chappe
open Foundation

/-- The bound on the buffer. -/
def bufferBound : Nat := max 4096 maxFrameBytes

/-- The cursors are ordered inside a buffer that is not over the bound. -/
structure FrameReader.Held (reader : FrameReader) : Prop where
  ordered : reader.pos ≤ reader.endPos
  inside : reader.endPos ≤ reader.buf.length
  bounded : reader.buf.length ≤ bufferBound

/-- Reads stay below `end_`, a `recv` has room and finds no byte only at the end of the stream, and
a `fill` that delivers bytes has more of them unparsed. -/
def Moment.Sound : Moment → Prop
  | .point reader => reader.Held
  | .read reader start count => start + count ≤ reader.endPos
  | .recv reader room received =>
      (0 < room ∧ reader.endPos + room = reader.buf.length) ∧
        (received = .bytes [] → reader.socket.rest = [])
  | .filled before after received => ∀ chunk, received = .bytes chunk → chunk ≠ [] →
      before.endPos - before.pos < after.endPos - after.pos

/-- The buffer starts at the front after a compaction, and nothing is lost. -/
theorem FrameReader.compact_held {reader : FrameReader} (held : reader.Held) :
    reader.compact.Held ∧ reader.compact.pos = 0 ∧
      reader.compact.endPos = reader.endPos - reader.pos := by
  have ordered := held.ordered
  have inside := held.inside
  have bounded := held.bounded
  unfold compact
  split
  · refine ⟨⟨Nat.zero_le _, ?_, ?_⟩, rfl, rfl⟩
    · simp only [List.length_append, List.length_take, List.length_drop]
      omega
    · simp only [List.length_append, List.length_take, List.length_drop]
      omega
  · exact ⟨held, by omega, by omega⟩

/-- The growth to a need within the bound leaves room, so the buffer is never doubled. -/
theorem FrameReader.grow_held {reader : FrameReader} (held : reader.Held) {need : Nat}
    (short : reader.endPos < need) (small : need ≤ bufferBound) :
    reader.grow need = reader.fit need ∧ (reader.fit need).Held ∧
      reader.endPos < (reader.fit need).buf.length := by
  have ordered := held.ordered
  have inside := held.inside
  have bounded := held.bounded
  have length : (reader.fit need).buf.length = max reader.buf.length need := by
    simp only [fit]
    split
    · rw [resize_length]
      omega
    · omega
  refine ⟨?_, ⟨ordered, ?_, ?_⟩, ?_⟩
  · have single : (reader.fit need).buf.length ≠ reader.endPos := by omega
    simp only [fit] at single
    simp only [grow, fit, if_neg single]
  · change reader.endPos ≤ _
    omega
  · omega
  · omega

/-- The kernel delivers at most what the call has room for, and nothing only at the end. -/
theorem Socket.recv_bytes {socket : Socket} {room : Nat} {chunk : Bytes} (some : 0 < room)
    (received : (socket.recv room).1 = .bytes chunk) :
    chunk.length ≤ room ∧ (chunk = [] → socket.rest = []) := by
  have taken (count : Nat) (positive : 0 < count) (fits : count ≤ room)
      (same : chunk = socket.rest.take count) :
      chunk.length ≤ room ∧ (chunk = [] → socket.rest = []) := by
    refine ⟨?_, fun empty => ?_⟩
    · rw [same, List.length_take]
      omega
    · rw [empty] at same
      have none := congrArg List.length same
      rw [List.length_take, List.length_nil] at none
      exact List.eq_nil_of_length_eq_zero (by omega)
  unfold Socket.recv at received
  cases events : socket.script with
  | nil =>
      simp only [events, Received.bytes.injEq] at received
      exact taken room some le_rfl received.symm
  | cons event script =>
      cases event with
      | failed | interrupted => simp [events] at received
      | ready count =>
          simp only [events, Received.bytes.injEq] at received
          exact taken _ (by omega) (by omega) received.symm

/-- No call of `recv` brings back calls or bytes. -/
theorem Socket.recv_remaining (socket : Socket) (room : Nat) :
    (socket.recv room).2.remaining ≤ socket.remaining := by
  unfold Socket.recv Socket.remaining
  cases events : socket.script with
  | nil => simp
  | cons event script =>
      cases event with
      | failed | interrupted => simp
      | ready count =>
          simp only [List.length_drop, List.length_cons]
          omega

/-- What one `recv` into a buffer with room does to the cursors. -/
theorem FrameReader.receive_held {reader : FrameReader} (held : reader.Held)
    (room : reader.endPos < reader.buf.length) :
    reader.receive.2.Held ∧ reader.receive.2.pos = reader.pos ∧
      ∀ chunk, (reader.socket.recv (reader.buf.length - reader.endPos)).1 = .bytes chunk →
        reader.receive.2.endPos = reader.endPos + chunk.length := by
  have ordered := held.ordered
  have inside := held.inside
  have bounded := held.bounded
  have fits (chunk : Bytes)
      (received : (reader.socket.recv (reader.buf.length - reader.endPos)).1 = .bytes chunk) :=
    (Socket.recv_bytes (Nat.sub_pos_of_lt room) received).1
  unfold receive
  rcases outcome : reader.socket.recv (reader.buf.length - reader.endPos) with ⟨received, socket⟩
  rw [outcome] at fits
  cases received with
  | failed | interrupted => exact ⟨⟨ordered, inside, bounded⟩, rfl, by simp⟩
  | bytes chunk =>
      have small := fits chunk rfl
      dsimp only
      split
      · rename_i empty
        refine ⟨⟨ordered, inside, bounded⟩, rfl, ?_⟩
        rintro _ ⟨⟩
        change reader.endPos = reader.endPos + chunk.length
        omega
      · refine ⟨⟨?_, ?_, ?_⟩, rfl, ?_⟩
        · change reader.pos ≤ reader.endPos + chunk.length
          omega
        · simp only [List.length_append, List.length_take, List.length_drop]
          omega
        · simp only [List.length_append, List.length_take, List.length_drop]
          omega
        · rintro _ ⟨⟩
          rfl

/-- Every moment of a `fill` that is asked for more than there is, within the bound, is sound. -/
theorem FrameReader.fillTrace_sound {reader : FrameReader} (held : reader.Held) {need : Nat}
    (short : reader.endPos - reader.pos < need) (small : need ≤ bufferBound) :
    (∀ moment ∈ reader.fillTrace need, moment.Sound) ∧ (reader.fill need).2.Held := by
  obtain ⟨compacted, front, kept⟩ := compact_held held
  obtain ⟨same, grown, room⟩ := grow_held compacted (by omega) small
  rw [← same] at grown room
  have endGrown : (reader.compact.grow need).endPos = reader.compact.endPos := rfl
  obtain ⟨filled, start, delivered⟩ := receive_held grown room
  have positive : 0 < (reader.compact.grow need).buf.length -
      (reader.compact.grow need).endPos := Nat.sub_pos_of_lt room
  refine ⟨?_, filled⟩
  intro moment member
  rcases List.mem_append.mp member with read | later
  · unfold compactTrace at read
    split at read
    · rw [List.mem_singleton.mp read]
      have ordered := held.ordered
      show reader.pos + (reader.endPos - reader.pos) ≤ reader.endPos
      omega
    · cases read
  · simp only [List.mem_cons, List.not_mem_nil, or_false] at later
    rcases later with rfl | rfl | rfl | rfl | rfl | rfl
    · exact compacted
    · rw [← same]
      exact grown
    · exact grown
    · refine ⟨⟨positive, ?_⟩, ?_⟩
      · omega
      · exact fun empty => (Socket.recv_bytes positive empty).2 rfl
    · intro chunk received some
      have length := List.length_pos_iff.mpr some
      have after := delivered chunk received
      change reader.endPos - reader.pos <
        (reader.compact.grow need).receive.2.endPos - (reader.compact.grow need).receive.2.pos
      rw [after, start]
      change _ < reader.compact.endPos + chunk.length - reader.compact.pos
      omega
    · exact filled

theorem FrameReader.requireTrace_sound (reader : FrameReader) (n : Nat) (small : n ≤ bufferBound)
    (held : reader.Held) : (∀ moment ∈ reader.requireTrace n, moment.Sound) ∧
      (reader.require n).2.Held ∧ ((reader.require n).1 = true →
        n ≤ (reader.require n).2.endPos - (reader.require n).2.pos) := by
  induction reader using FrameReader.require.induct n with
  | case1 reader short again ih =>
      obtain ⟨sound, filled⟩ := fillTrace_sound held short small
      rw [requireTrace, require, if_pos short, if_pos again, if_pos short, if_pos again]
      obtain ⟨later, rest⟩ := ih filled
      refine ⟨?_, rest⟩
      intro moment member
      rcases List.mem_append.mp member with now | after
      · exact sound moment now
      · exact later moment after
  | case2 reader short stopped =>
      obtain ⟨sound, filled⟩ := fillTrace_sound held short small
      rw [requireTrace, require, if_pos short, if_neg stopped, if_pos short, if_neg stopped]
      exact ⟨sound, filled, by simp⟩
  | case3 reader enough =>
      rw [requireTrace, require, if_neg enough, if_neg enough]
      exact ⟨by simp, held, fun _ => Nat.le_of_not_lt enough⟩

/-- A read of some bytes keeps the discipline, whether it succeeds or not. -/
theorem FrameReader.readBytesTrace_sound {reader : FrameReader} (held : reader.Held) {n : Nat}
    (small : n ≤ bufferBound) :
    (∀ moment ∈ reader.readBytesTrace n, moment.Sound) ∧ (reader.readBytes n).2.Held := by
  obtain ⟨sound, later, enough⟩ := requireTrace_sound reader n small held
  unfold readBytesTrace readBytes
  rcases outcome : reader.require n with ⟨found, after⟩
  rw [outcome] at later enough
  cases found with
  | false =>
      refine ⟨?_, later⟩
      rw [List.append_nil]
      exact sound
  | true =>
      have ordered : after.pos ≤ after.endPos := later.ordered
      have enough : n ≤ after.endPos - after.pos := enough rfl
      have moved : FrameReader.Held { after with pos := after.pos + n } := by
        refine ⟨?_, later.inside, later.bounded⟩
        change after.pos + n ≤ after.endPos
        omega
      refine ⟨?_, moved⟩
      intro moment member
      rcases List.mem_append.mp member with before | read
      · exact sound moment before
      · simp only [List.mem_cons, List.not_mem_nil, or_false] at read
        rcases read with rfl | rfl | rfl
        · exact later
        · change after.pos + n ≤ after.endPos
          omega
        · exact moved

/-- A length that was read is within the bound. -/
theorem FrameReader.readLength_held {reader : FrameReader} (held : reader.Held) :
    reader.readLength.2.Held ∧ ∀ length, reader.readLength.1 = some length →
      length ≤ bufferBound := by
  have four : 4 ≤ bufferBound := by decide
  have read := (readBytesTrace_sound held four).2
  unfold readLength readU32
  rcases outcome : reader.readBytes 4 with ⟨found, after⟩
  rw [outcome] at read
  cases found with
  | none => exact ⟨read, by simp [andThen]⟩
  | some word =>
      simp only [andThen]
      split
      · exact ⟨read, by simp⟩
      · rename_i small
        refine ⟨read, ?_⟩
        rintro _ ⟨⟩
        exact (Nat.le_of_not_lt small).trans (Nat.le_max_right ..)

/-- The rest of a call keeps the discipline if it keeps it after each value that was read. -/
theorem afterTrace_sound {A B : Type} {outcome : Option A × FrameReader}
    {trace : A → FrameReader → List Moment} {next : A → FrameReader → Option B × FrameReader}
    (held : outcome.2.Held)
    (later : ∀ value reader, outcome.1 = some value → reader.Held →
      (∀ moment ∈ trace value reader, moment.Sound) ∧ (next value reader).2.Held) :
    (∀ moment ∈ afterTrace outcome trace, moment.Sound) ∧ (andThen outcome next).2.Held := by
  obtain ⟨found, reader⟩ := outcome
  cases found with
  | none => exact ⟨by simp [afterTrace], held⟩
  | some value => exact later value reader rfl held

/-- Two parts of a trace are sound. -/
theorem sound_append {first second : List Moment} (sound : ∀ moment ∈ first, moment.Sound)
    (later : ∀ moment ∈ second, moment.Sound) : ∀ moment ∈ first ++ second, moment.Sound := by
  intro moment member
  rcases List.mem_append.mp member with before | after
  · exact sound moment before
  · exact later moment after

/-- A call of `next` keeps the discipline. -/
theorem FrameReader.nextTrace_sound {reader : FrameReader} (held : reader.Held) :
    (∀ moment ∈ reader.nextTrace, moment.Sound) ∧ reader.next.2.Held := by
  have one : 1 ≤ bufferBound := by decide
  have four : 4 ≤ bufferBound := by decide
  obtain ⟨kind, kindHeld⟩ := readBytesTrace_sound held one
  refine (afterTrace_sound kindHeld ?_).imp_left (sound_append kind)
  intro _ reader _ held
  obtain ⟨lengthHeld, fits⟩ := readLength_held held
  refine (afterTrace_sound lengthHeld ?_).imp_left
    (sound_append (readBytesTrace_sound held four).1)
  intro nlen before found held
  obtain ⟨name, nameHeld⟩ := readBytesTrace_sound held (fits nlen found)
  refine (afterTrace_sound nameHeld ?_).imp_left (sound_append name)
  intro _ reader _ held
  obtain ⟨lengthHeld, fits⟩ := readLength_held held
  refine (afterTrace_sound lengthHeld ?_).imp_left
    (sound_append (readBytesTrace_sound held four).1)
  intro plen before found held
  obtain ⟨payload, payloadHeld⟩ := readBytesTrace_sound held (fits plen found)
  refine ⟨payload, ?_⟩
  rcases outcome : before.readBytes plen with ⟨result, after⟩
  rw [outcome] at payloadHeld
  cases result with
  | none => exact payloadHeld
  | some bytes => exact payloadHeld

/-- Every moment of the calls of `next` is sound. -/
theorem FrameReader.callsTrace_sound (calls : Nat) {reader : FrameReader} (held : reader.Held) :
    ∀ moment ∈ reader.callsTrace calls, moment.Sound := by
  induction calls generalizing reader with
  | zero => simp [callsTrace]
  | succ calls ih =>
      obtain ⟨sound, later⟩ := nextTrace_sound held
      rw [callsTrace]
      apply sound_append
      · exact List.forall_mem_cons.mpr ⟨held, sound⟩
      · exact ih later

/-- The calls of `recv` of a trace. -/
def recvs (trace : List Moment) : Nat := trace.countP Moment.isRecv

theorem recvs_append (first second : List Moment) :
    recvs (first ++ second) = recvs first + recvs second := List.countP_append

/-- Each call of `recv` but the last of a read that fails uses up a call or a byte. -/
def Pays {A : Type} (reader : FrameReader) (trace : List Moment)
    (outcome : Option A × FrameReader) : Prop :=
  recvs trace + outcome.2.socket.remaining ≤
    reader.socket.remaining + outcome.1.elim 1 fun _ => 0

theorem FrameReader.fillTrace_recvs (reader : FrameReader) (need : Nat) :
    recvs (reader.fillTrace need) = 1 := by
  have reads : recvs reader.compactTrace = 0 := by
    unfold compactTrace
    split <;> rfl
  rw [fillTrace, recvs_append, reads]
  rfl

theorem FrameReader.receive_socket (reader : FrameReader) :
    reader.receive.2.socket = (reader.socket.recv (reader.buf.length - reader.endPos)).2 := by
  unfold receive
  rcases reader.socket.recv (reader.buf.length - reader.endPos) with ⟨received, socket⟩
  cases received with
  | failed | interrupted => rfl
  | bytes chunk =>
      dsimp only
      split <;> rfl

theorem FrameReader.fill_remaining_le (reader : FrameReader) (need : Nat) :
    (reader.fill need).2.socket.remaining ≤ reader.socket.remaining := by
  rw [fill, receive_socket, grow_socket, compact_socket]
  exact Socket.recv_remaining _ _

theorem FrameReader.requireTrace_recvs (reader : FrameReader) (n : Nat) :
    recvs (reader.requireTrace n) + (reader.require n).2.socket.remaining ≤
      reader.socket.remaining + if (reader.require n).1 then 0 else 1 := by
  induction reader using FrameReader.require.induct n with
  | case1 reader short again ih =>
      rw [requireTrace, require, if_pos short, if_pos again, if_pos short, if_pos again,
        recvs_append, fillTrace_recvs]
      have spent := fill_remaining reader n again
      omega
  | case2 reader short stopped =>
      rw [requireTrace, require, if_pos short, if_neg stopped, if_pos short, if_neg stopped,
        fillTrace_recvs]
      have kept := fill_remaining_le reader n
      simp only [Bool.false_eq_true, if_false]
      omega
  | case3 reader enough =>
      rw [requireTrace, require, if_neg enough, if_neg enough]
      simp [recvs]

theorem FrameReader.readBytes_pays (reader : FrameReader) (n : Nat) :
    Pays reader (reader.readBytesTrace n) (reader.readBytes n) := by
  have paid := requireTrace_recvs reader n
  unfold Pays readBytesTrace readBytes
  rw [recvs_append]
  rcases outcome : reader.require n with ⟨found, after⟩
  rw [outcome] at paid
  cases found with
  | false => exact paid
  | true => exact paid

theorem FrameReader.readLength_pays (reader : FrameReader) :
    Pays reader (reader.readBytesTrace 4) reader.readLength := by
  have paid := readBytes_pays reader 4
  unfold Pays readLength readU32 at *
  rcases outcome : reader.readBytes 4 with ⟨found, after⟩
  rw [outcome] at paid
  cases found with
  | none => exact paid
  | some word =>
      simp only [andThen, Option.elim_some, Nat.add_zero] at *
      split
      · exact paid.trans (Nat.le_add_right _ _)
      · exact paid

/-- What follows a read pays from what the read left. -/
theorem Pays.andThen {A B : Type} {reader : FrameReader} {first : List Moment}
    {outcome : Option A × FrameReader} {trace : A → FrameReader → List Moment}
    {next : A → FrameReader → Option B × FrameReader} (paid : Pays reader first outcome)
    (later : ∀ value reader, Pays reader (trace value reader) (next value reader)) :
    Pays reader (first ++ afterTrace outcome trace) (Chappe.andThen outcome next) := by
  obtain ⟨found, after⟩ := outcome
  unfold Pays at *
  rw [recvs_append]
  cases found with
  | none => exact paid
  | some value =>
      have more := later value after
      simp only [afterTrace, Chappe.andThen, Option.elim_some] at *
      omega

theorem FrameReader.next_pays (reader : FrameReader) :
    Pays reader reader.nextTrace reader.next := by
  apply (readBytes_pays reader 1).andThen
  intro _ reader
  apply (readLength_pays reader).andThen
  intro nlen reader
  apply (readBytes_pays reader nlen).andThen
  intro _ reader
  apply (readLength_pays reader).andThen
  intro plen reader
  have paid := readBytes_pays reader plen
  unfold Pays at *
  rcases outcome : reader.readBytes plen with ⟨result, after⟩
  rw [outcome] at paid
  cases result with
  | none => exact paid
  | some bytes => exact paid

theorem FrameReader.callsTrace_recvs (calls : Nat) (reader : FrameReader) :
    recvs (reader.callsTrace calls) ≤ reader.socket.remaining + calls := by
  induction calls generalizing reader with
  | zero => simp [callsTrace, recvs]
  | succ calls ih =>
      have paid := next_pays reader
      have rest := ih reader.next.2
      have first : recvs (.point reader :: reader.nextTrace) = recvs reader.nextTrace :=
        List.countP_cons_of_neg (by simp [Moment.isRecv])
      rw [callsTrace, recvs_append, first]
      unfold Pays at paid
      cases found : reader.next.1 with
      | none | some _ =>
          simp only [found, Option.elim_none, Option.elim_some] at paid
          omega

theorem FrameReader.open_held (socket : Socket) : (FrameReader.open socket).Held := by
  refine ⟨le_rfl, Nat.zero_le _, ?_⟩
  rw [FrameReader.open, List.length_replicate]
  exact Nat.le_max_left ..

/-- At every point of every number of calls of `next`, the buffer keeps its discipline. The calls of
`recv` are bounded, so every loop of `require` ends. -/
theorem buffer_disciplined (stream : Bytes) (script : List Recv) (calls : Nat) :
    (∀ moment ∈ (FrameReader.open ⟨stream, script⟩).callsTrace calls, moment.Sound) ∧
      recvs ((FrameReader.open ⟨stream, script⟩).callsTrace calls) ≤
        stream.length + script.length + calls :=
  ⟨FrameReader.callsTrace_sound calls (FrameReader.open_held _),
    FrameReader.callsTrace_recvs calls (FrameReader.open ⟨stream, script⟩)⟩

end Chappe
