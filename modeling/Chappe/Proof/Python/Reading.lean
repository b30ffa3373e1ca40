/-
This file proves what the reader of a Python node gets from a stream of frames, however the socket
cuts it.
-/

import Chappe.Construction.PythonNode
import Chappe.Proof.Transport.Framing

namespace Chappe
open Foundation

/-- The read fails because the socket does, or it has the outcome and leaves the rest. -/
def PythonRead.Gives {Value : Type} (script : List Recv) (read : PythonRead Value)
    (outcome : Except PythonError (Option Value)) (rest : Bytes) : Prop :=
  (read.1 = .error .osError ∧ Recv.failed ∈ script) ∨
    (read.1 = outcome ∧ read.2.rest = rest ∧ read.2.script <:+ script)

theorem PythonRead.Gives.suffix {Value : Type} {script later : List Recv}
    {read : PythonRead Value} {outcome : Except PythonError (Option Value)} {rest : Bytes}
    (gives : PythonRead.Gives later read outcome rest) (suffix : later <:+ script) :
    PythonRead.Gives script read outcome rest := by
  rcases gives with ⟨failed, member⟩ | ⟨same, left, tail⟩
  · exact .inl ⟨failed, suffix.subset member⟩
  · exact .inr ⟨same, left, tail.trans suffix⟩

theorem PythonRead.Gives.andThen {First Second : Type} {script : List Recv}
    {read : PythonRead First} {front : First} {middle rest : Bytes}
    {next : First → Socket → PythonRead Second} {outcome : Except PythonError (Option Second)}
    (first : PythonRead.Gives script read (.ok (some front)) middle)
    (second : ∀ later, PythonRead.Gives later (next front ⟨middle, later⟩) outcome rest) :
    PythonRead.Gives script (read.andThen next) outcome rest := by
  rcases read with ⟨value, socket⟩
  rcases first with ⟨failed, member⟩ | ⟨same, left, tail⟩
  · have error : value = .error .osError := failed
    subst value
    exact .inl ⟨rfl, member⟩
  · have found : value = .ok (some front) := same
    have here : socket = ⟨middle, socket.script⟩ := by
      rw [← left]
    subst value
    rw [here]
    exact (second socket.script).suffix tail

/-- One receive gives some bytes of the stream while one is left. -/
theorem recvRetrying_cases (rest : Bytes) (room : Nat) (script : List Recv) :
    ((recvRetrying rest room script).1 = none ∧ Recv.failed ∈ script) ∨
    ∃ count, (recvRetrying rest room script).1 = some (rest.take count) ∧
      (recvRetrying rest room script).2.rest = rest.drop count ∧ count ≤ room ∧
      (0 < room → 0 < count) ∧ (recvRetrying rest room script).2.script <:+ script := by
  induction script with
  | nil => exact .inr ⟨room, rfl, rfl, Nat.le_refl room, id, List.suffix_refl _⟩
  | cons event script ih =>
      cases event with
      | failed => exact .inl ⟨rfl, List.mem_cons_self⟩
      | interrupted =>
          rcases ih with ⟨failed, member⟩ | ⟨count, taken, left, fits, some, tail⟩
          · exact .inl ⟨failed, List.mem_cons_of_mem _ member⟩
          · exact .inr ⟨count, taken, left, fits, some, tail.trans (List.suffix_cons ..)⟩
      | ready count =>
          refine .inr ⟨min (max count 1) room, rfl, rfl, Nat.min_le_right .., ?_,
            List.suffix_cons ..⟩
          intro positive
          omega

/-- A receive of bytes that are all still to come. -/
theorem recvExact_gives (socket : Socket) (n : Nat) (buf : Bytes) :
    ∀ front rest, socket.rest = front ++ rest → buf.length + front.length = n →
      PythonRead.Gives socket.script (socket.recvExact n buf) (.ok (some (buf ++ front))) rest := by
  fun_induction Socket.recvExact socket n buf with
  | case1 socket buf short next failed =>
      intro front rest stream count
      rcases recvRetrying_cases socket.rest (n - buf.length) socket.script with
        ⟨-, member⟩ | ⟨taken, chunk, -⟩
      · exact .inl ⟨rfl, member⟩
      · rw [failed] at chunk
        cases chunk
  | case2 socket buf short next closed =>
      intro front rest stream count
      rcases recvRetrying_cases socket.rest (n - buf.length) socket.script with
        ⟨none, -⟩ | ⟨taken, chunk, -, -, some, -⟩
      · rw [closed] at none
        cases none
      · rw [closed, stream] at chunk
        have empty := congrArg List.length (Option.some.inj chunk)
        rw [List.length_nil, List.length_take, List.length_append] at empty
        have positive := some (by omega)
        omega
  | case3 socket buf short byte more next received ih =>
      intro front rest stream count
      rcases recvRetrying_cases socket.rest (n - buf.length) socket.script with
        ⟨none, -⟩ | ⟨taken, chunk, left, fits, -, tail⟩
      · rw [received] at none
        cases none
      · rw [received] at chunk left tail
        have within : taken ≤ front.length := by omega
        have bytes : byte :: more = front.take taken := by
          rw [Option.some.inj chunk, stream, List.take_append_of_le_length within]
        have after : next.rest = front.drop taken ++ rest := by
          rw [show next.rest = _ from left, stream, List.drop_append_of_le_length within]
        have gives := ih (front.drop taken) rest after (by
          rw [bytes, List.length_append, List.length_take, List.length_drop]
          omega)
        rw [bytes, List.append_assoc, List.take_append_drop, ← bytes] at gives
        exact gives.suffix tail
  | case4 socket buf long =>
      intro front rest stream count
      have none : front = [] := List.length_eq_zero_iff.mp (by omega)
      subst front
      rw [List.append_nil]
      exact .inr ⟨rfl, stream, List.suffix_refl _⟩

/-- A receive at the end of the stream. -/
theorem recvExact_closed (script : List Recv) (n : Nat) (positive : 0 < n) :
    PythonRead.Gives script ((Socket.mk [] script).recvExact n []) (.ok none) [] := by
  have closed := recvRetrying_cases [] (n - ([] : Bytes).length) script
  simp only [List.take_nil, List.drop_nil] at closed
  rw [Socket.recvExact, if_pos (show ([] : Bytes).length < n from positive)]
  rcases outcome : recvRetrying [] (n - ([] : Bytes).length) script with ⟨received, next⟩
  rw [outcome] at closed
  rcases closed with ⟨failed, member⟩ | ⟨-, ended, left, -, -, tail⟩
  · have none : received = none := failed
    subst received
    exact .inl ⟨rfl, member⟩
  · have empty : received = some [] := ended
    subst received
    exact .inr ⟨rfl, left, tail⟩

theorem readFrame_closed (script : List Recv) :
    PythonRead.Gives script (Socket.mk [] script).readFrame (.ok none) [] := by
  unfold Socket.readFrame
  rcases header : (Socket.mk [] script).recvExact 1 [] with ⟨outcome, after⟩
  have gives := recvExact_closed script 1 Nat.one_pos
  rw [header] at gives
  rcases gives with ⟨failed, member⟩ | ⟨ended, left, tail⟩
  · have error : outcome = .error .osError := failed
    subst outcome
    exact .inl ⟨rfl, member⟩
  · have none : outcome = .ok none := ended
    subst outcome
    exact .inr ⟨rfl, left, tail⟩

/-- What the decoded name makes of a frame. -/
def Frame.decoded (frame : Frame) : Option PythonFrame :=
  (decodeName frame.name).map fun name => ⟨frame.kind, name, frame.payload⟩

/-- The lengths of a frame fit in their fields. -/
def Frame.Sized (frame : Frame) : Prop :=
  frame.name.length < 2 ^ 32 ∧ frame.payload.length < 2 ^ 32

/-- One field of a frame. -/
theorem field_gives (script : List Recv) (field rest : Bytes) (n : Nat)
    (count : field.length = n) :
    PythonRead.Gives script ((Socket.mk (field ++ rest) script).recvExact n [])
      (.ok (some field)) rest := by
  have gives := recvExact_gives ⟨field ++ rest, script⟩ n [] field rest rfl
    (by rw [List.length_nil, Nat.zero_add, count])
  exact gives

/-- A frame of the stream is read whole, and its name may raise. -/
theorem readFrame_gives {frame : Frame} (sized : frame.Sized) (script : List Recv)
    (rest : Bytes) :
    PythonRead.Gives script (Socket.mk (frame.bytes ++ rest) script).readFrame
      (match frame.decoded with
        | some decoded => .ok (some decoded)
        | none => .error .unicodeDecodeError) rest := by
  have word (value : Nat) (small : value < 2 ^ 32) :
      ofLittleEndian (littleEndian 4 value) = value := by
    rw [ofLittleEndian_littleEndian]
    exact Nat.mod_eq_of_lt small
  have layout : frame.bytes ++ rest = [frame.kind] ++ (littleEndian 4 frame.name.length ++
      (frame.name ++ (littleEndian 4 frame.payload.length ++ (frame.payload ++ rest)))) := by
    simp [Frame.bytes, buildFrame, appendU32]
  rw [layout]
  refine (field_gives script [frame.kind] _ 1 rfl).andThen fun script => ?_
  refine (field_gives script _ _ 4 (littleEndian_length 4 _)).andThen fun script => ?_
  rw [word _ sized.1]
  refine (field_gives script frame.name _ _ rfl).andThen fun script => ?_
  refine (field_gives script _ _ 4 (littleEndian_length 4 _)).andThen fun script => ?_
  rw [word _ sized.2]
  refine (field_gives script frame.payload rest _ rfl).andThen fun script => ?_
  unfold Frame.decoded
  cases decodeName frame.name with
  | none => exact .inr ⟨rfl, rfl, List.suffix_refl _⟩
  | some name => exact .inr ⟨rfl, rfl, List.suffix_refl _⟩

end Chappe
