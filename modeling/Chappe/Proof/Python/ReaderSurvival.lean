/-
This file proves which frames end the reader thread of a Python node.
-/

import Chappe.Proof.Python.Reading

namespace Chappe
open Foundation

variable {Handler Json : Type}

/-- The name of the frame is UTF-8, and none of the handlers that it is dispatched to exits on the
reader thread. -/
def PythonConfig.Harmless (config : PythonConfig Handler Json) (tables : PythonTables Handler)
    (frame : Frame) : Prop :=
  ∃ name, decodeName frame.name = some name ∧
    (config.pool = false → frame.msg = some .publish → ∀ call ∈ tables.receivers name,
      config.behaviour call.1 call.2 (config.value frame.payload) ≠ .exits)

/-- The reader of the stream returns at its end or at a socket error, however the stream is cut. It
has processed every frame unless the socket failed or the node was closed, and its thread goes
on to the teardown. -/
def PythonConfig.Survives (config : PythonConfig Handler Json)
    (tables : Nat → PythonTables Handler) (node : PythonNode) (frames : List Frame) : Prop :=
  ∀ running script,
    let socket : Socket := ⟨encodeAll frames, script⟩
    let result := PythonReader.readUntilClosed config running tables ⟨node.kv, [], [], []⟩ 0 socket
    result.2 = none ∧
      ((∀ turn, running turn = true) → Recv.failed ∉ script →
        result.1.processed.map some = frames.map Frame.decoded) ∧
      node.serve config running tables socket = ⟨false, node.alive, .empty, result.1.kv.pending⟩

theorem invokeAll_returns (config : PythonConfig Handler Json) (value : PythonValue Json)
    (calls : List (Handler × Option PythonString)) :
    (config.invokeAll value calls).2 = none ↔ (config.pool = false → ∀ call ∈ calls,
      config.behaviour call.1 call.2 value ≠ .exits) := by
  induction calls with
  | nil => simp [PythonConfig.invokeAll]
  | cons call rest ih =>
      unfold PythonConfig.invokeAll
      split
      · rename_i exits
        constructor
        · intro raised
          cases raised
        · intro harmless
          exact absurd exits.2 (harmless exits.1 call List.mem_cons_self)
      · rename_i stays
        rw [ih]
        constructor
        · intro later inline other member
          rcases List.mem_cons.mp member with rfl | member
          · intro exits
            exact stays ⟨inline, exits⟩
          · exact later inline other member
        · intro all inline other member
          exact all inline other (List.mem_cons_of_mem _ member)

/-- The body of the loop returns for a harmless frame, and it counts the frame. -/
theorem handle_returns (config : PythonConfig Handler Json) (tables : PythonTables Handler)
    (reader : PythonReader Handler Json) {frame : Frame} {name : PythonString}
    (decoded : decodeName frame.name = some name) :
    ((reader.handle config tables ⟨frame.kind, name, frame.payload⟩).2 = none ↔
      config.Harmless tables frame) ∧
    (reader.handle config tables ⟨frame.kind, name, frame.payload⟩).1.processed =
      reader.processed ++ [⟨frame.kind, name, frame.payload⟩] := by
  have harmless : config.Harmless tables frame ↔ (frame.msg = some .publish →
      (config.invokeAll (config.value frame.payload) (tables.receivers name)).2 = none) := by
    unfold PythonConfig.Harmless
    rw [decoded]
    constructor
    · rintro ⟨_, ⟨⟩, stays⟩ publish
      rw [invokeAll_returns]
      exact fun inline => stays inline publish
    · intro returns
      refine ⟨name, rfl, fun inline publish => ?_⟩
      exact (invokeAll_returns config _ _).mp (returns publish) inline
  rw [harmless]
  by_cases publish : frame.msg = some .publish
  · have here : (PythonFrame.mk frame.kind name frame.payload).msg = some .publish := publish
    rw [PythonReader.handle, if_pos here]
    exact ⟨⟨fun returns _ => returns, fun returns => returns publish⟩, rfl⟩
  · have here : (PythonFrame.mk frame.kind name frame.payload).msg ≠ some .publish := publish
    rw [PythonReader.handle, if_neg here]
    exact ⟨⟨fun _ other => absurd other publish, fun _ => rfl⟩, rfl⟩

/-- What a turn of the loop does. -/
theorem readUntilClosed_on (config : PythonConfig Handler Json) {running : Nat → Bool}
    (tables : Nat → PythonTables Handler) (reader : PythonReader Handler Json) {turn : Nat}
    (on : running turn = true) (socket : Socket) :
    reader.readUntilClosed config running tables turn socket =
      match socket.readFrame.1 with
      | .error .osError => (reader, none)
      | .error error => (reader, some error)
      | .ok none => (reader, none)
      | .ok (some frame) =>
          match reader.handle config (tables turn) frame with
          | (reader, none) =>
              reader.readUntilClosed config running tables (turn + 1) socket.readFrame.2
          | (reader, some error) => (reader, some error) := by
  rw [PythonReader.readUntilClosed, if_pos on]
  split
  · rename_i found
    rw [found]
  · rename_i error other found
    rw [found]
    cases error with
    | osError => exact absurd rfl (other ·)
    | unicodeDecodeError => rfl
    | systemExit => rfl
  · rename_i found
    rw [found]
  · rename_i frame found
    rcases handled : reader.handle config (tables turn) frame with ⟨next, _ | error⟩
    · simp only [found, handled]
    · simp only [found, handled]

/-- The loop at the end of the stream. -/
theorem readUntilClosed_nil (config : PythonConfig Handler Json) (running : Nat → Bool)
    (tables : Nat → PythonTables Handler) (reader : PythonReader Handler Json) (turn : Nat)
    (script : List Recv) :
    reader.readUntilClosed config running tables turn ⟨[], script⟩ = (reader, none) := by
  cases on : running turn with
  | false => rw [PythonReader.readUntilClosed, if_neg (by rw [on]; simp)]
  | true =>
      rw [readUntilClosed_on config tables reader on]
      rcases readFrame_closed script with ⟨failed, -⟩ | ⟨ended, -⟩
      · rw [failed]
      · rw [ended]

/-- What the reader has done after it handled these frames, the first of them in the given turn. -/
def PythonReader.handleAll (config : PythonConfig Handler Json)
    (tables : Nat → PythonTables Handler) (reader : PythonReader Handler Json) (turn : Nat) :
    List Frame → PythonReader Handler Json
  | [] => reader
  | frame :: rest =>
      match frame.decoded with
      | some decoded =>
          (reader.handle config (tables turn) decoded).1.handleAll config tables (turn + 1) rest
      | none => reader

/-- The loop returns from a stream of harmless frames, and it has handled them all unless the socket
failed or the node was closed. -/
theorem readUntilClosed_returns (config : PythonConfig Handler Json) (running : Nat → Bool)
    (tables : Nat → PythonTables Handler) (frames : List Frame) :
    ∀ (reader : PythonReader Handler Json) (turn : Nat) (script : List Recv),
      (∀ frame ∈ frames, frame.Sized) →
      (∀ place frame, frames[place]? = some frame →
        config.Harmless (tables (turn + place)) frame) →
      (reader.readUntilClosed config running tables turn ⟨encodeAll frames, script⟩).2 = none ∧
        ((∀ turn, running turn = true) → Recv.failed ∉ script →
          (reader.readUntilClosed config running tables turn ⟨encodeAll frames, script⟩).1 =
            reader.handleAll config tables turn frames) := by
  induction frames with
  | nil =>
      intro reader turn script sized harmless
      rw [show encodeAll [] = [] from rfl, readUntilClosed_nil]
      exact ⟨rfl, fun _ _ => rfl⟩
  | cons frame rest ih =>
      intro reader turn script sized harmless
      rw [show encodeAll (frame :: rest) = frame.bytes ++ encodeAll rest from rfl]
      cases on : running turn with
      | false =>
          rw [PythonReader.readUntilClosed, if_neg (by rw [on]; simp)]
          refine ⟨rfl, fun always => ?_⟩
          rw [always turn] at on
          cases on
      | true =>
          rw [readUntilClosed_on config tables reader on]
          rcases readFrame_gives (sized frame List.mem_cons_self) script (encodeAll rest) with
            ⟨failed, member⟩ | ⟨found, left, tail⟩
          · rw [failed]
            exact ⟨rfl, fun _ clean => absurd member clean⟩
          · have first := harmless 0 frame rfl
            obtain ⟨name, decoded, -⟩ := first
            have none := (handle_returns config (tables turn) reader decoded).1.mpr
              (harmless 0 frame rfl)
            have known : frame.decoded = some ⟨frame.kind, name, frame.payload⟩ := by
              rw [Frame.decoded, decoded]
              rfl
            rw [known] at found
            rw [found, PythonReader.handleAll, known]
            dsimp only
            rcases after : reader.handle config (tables turn)
              ⟨frame.kind, name, frame.payload⟩ with ⟨next, raised⟩
            rw [after] at none
            have quiet : raised = Option.none := none
            subst raised
            rcases remaining : (Socket.mk (frame.bytes ++ encodeAll rest) script).readFrame.2 with
              ⟨bytes, cut⟩
            rw [remaining] at left tail
            have stream : bytes = encodeAll rest := left
            subst bytes
            have later := ih next (turn + 1) cut
              (fun other member => sized other (List.mem_cons_of_mem _ member))
              (fun place other member => by
                have here := harmless (place + 1) other member
                rwa [show turn + (place + 1) = turn + 1 + place by omega] at here)
            exact ⟨later.1, fun always clean =>
              later.2 always (fun member => clean (tail.subset member))⟩

theorem handleAll_processed (config : PythonConfig Handler Json)
    (tables : Nat → PythonTables Handler) (frames : List Frame)
    (named : ∀ frame ∈ frames, decodeName frame.name ≠ none) :
    ∀ (reader : PythonReader Handler Json) (turn : Nat),
      (reader.handleAll config tables turn frames).processed.map some =
        reader.processed.map some ++ frames.map Frame.decoded := by
  induction frames with
  | nil =>
      intro reader turn
      exact (List.append_nil _).symm
  | cons frame rest ih =>
      intro reader turn
      obtain ⟨name, decoded⟩ := Option.ne_none_iff_exists'.mp (named frame List.mem_cons_self)
      have known : frame.decoded = some ⟨frame.kind, name, frame.payload⟩ := by
        rw [Frame.decoded, decoded]
        rfl
      rw [PythonReader.handleAll, known]
      dsimp only
      rw [ih (fun other member => named other (List.mem_cons_of_mem _ member)),
        (handle_returns config (tables turn) reader decoded).2, List.map_append,
        List.append_assoc, show (frame :: rest).map Frame.decoded = frame.decoded :: rest.map _
          from rfl, known]
      rfl

/-- The loop raises at the first frame that is not harmless. -/
theorem readUntilClosed_raises (config : PythonConfig Handler Json)
    (tables : Nat → PythonTables Handler) (frames : List Frame) :
    ∀ (reader : PythonReader Handler Json) (turn place : Nat) (frame : Frame),
      (∀ frame ∈ frames, frame.Sized) → frames[place]? = some frame →
      ¬ config.Harmless (tables (turn + place)) frame →
      (reader.readUntilClosed config (fun _ => true) tables turn
        ⟨encodeAll frames, []⟩).2 ≠ none := by
  induction frames with
  | nil =>
      intro reader turn place frame sized found
      cases found
  | cons first rest ih =>
      intro reader turn place frame sized found harmful
      rw [show encodeAll (first :: rest) = first.bytes ++ encodeAll rest from rfl,
        readUntilClosed_on config tables reader rfl]
      rcases readFrame_gives (sized first List.mem_cons_self) [] (encodeAll rest) with
        ⟨-, member⟩ | ⟨outcome, left, tail⟩
      · cases member
      · cases decoded : decodeName first.name with
        | none =>
            rw [Frame.decoded, decoded] at outcome
            rw [outcome]
            simp
        | some name =>
            rw [Frame.decoded, decoded] at outcome
            rw [outcome]
            obtain ⟨returns, -⟩ := handle_returns config (tables turn) reader decoded
            dsimp only [Option.map_some]
            rcases after : reader.handle config (tables turn)
              ⟨first.kind, name, first.payload⟩ with ⟨next, raised⟩
            cases raised with
            | some error => simp
            | none =>
                rw [after] at returns
                cases place with
                | zero =>
                    cases found
                    exact absurd (returns.mp rfl) harmful
                | succ place =>
                    rcases remaining :
                      (Socket.mk (first.bytes ++ encodeAll rest) []).readFrame.2 with ⟨bytes, cut⟩
                    rw [remaining] at left tail
                    have stream : bytes = encodeAll rest := left
                    have ended : cut = [] := List.suffix_nil.mp tail
                    subst bytes cut
                    refine ih next (turn + 1) place frame
                      (fun other member => sized other (List.mem_cons_of_mem _ member)) found ?_
                    rwa [show turn + 1 + place = turn + (place + 1) by omega]

/-- The reader of a Python node survives exactly the frames with UTF-8 names whose handlers do not
exit. -/
theorem reader_survives (config : PythonConfig Handler Json)
    (tables : Nat → PythonTables Handler) (node : PythonNode) (frames : List Frame)
    (sized : ∀ frame ∈ frames, frame.Sized) :
    config.Survives tables node frames ↔
      ∀ place frame, frames[place]? = some frame → config.Harmless (tables place) frame := by
  constructor
  · intro survives place frame found
    by_contra harmful
    refine readUntilClosed_raises config tables frames _ 0 place frame sized found ?_
      (survives (fun _ => true) []).1
    rwa [Nat.zero_add]
  · intro harmless running script
    have returns := readUntilClosed_returns config running tables frames ⟨node.kv, [], [], []⟩ 0
      script sized (fun place frame found => by
        rw [Nat.zero_add]
        exact harmless place frame found)
    have named (frame : Frame) (member : frame ∈ frames) : decodeName frame.name ≠ none := by
      obtain ⟨place, found⟩ := List.mem_iff_getElem?.mp member
      obtain ⟨name, decoded, -⟩ := harmless place frame found
      rw [decoded]
      simp
    refine ⟨returns.1, ?_, ?_⟩
    · intro always clean
      rw [returns.2 always clean, handleAll_processed config tables frames named]
      rfl
    · unfold PythonNode.serve
      rcases outcome : PythonReader.readUntilClosed config running tables ⟨node.kv, [], [], []⟩ 0
        ⟨encodeAll frames, script⟩ with ⟨reader, raised⟩
      rw [outcome] at returns
      have none : raised = Option.none := returns.1
      subst raised
      rfl

/-- A node with one handler for every topic. -/
def plainConfig : PythonConfig Unit Unit := ⟨true, false, fun _ => none, fun _ _ _ => .returns⟩

def everyTopic : PythonTables Unit := ⟨∅, [([42], [()])]⟩

def freshNode : PythonNode := ⟨true, true, .empty, ∅⟩

theorem decodeName_letter : decodeName [97] = some [97] := by
  decide +kernel

theorem decodeName_invalid : decodeName [255] = none := by
  decide +kernel

theorem reader_survives_small :
    plainConfig.Survives (fun _ => everyTopic) freshNode [Msg.publish.frame [97] [1]] := by
  refine (reader_survives plainConfig _ _ _ ?_).mpr ?_
  · simp [Frame.Sized]
  · intro place frame found
    rw [List.mem_singleton.mp (List.mem_of_getElem? found)]
    exact ⟨[97], decodeName_letter, fun _ _ _ _ => by simp [plainConfig]⟩

/-- A publish on a topic that is not UTF-8 ends the reader. -/
theorem reader_dies :
    ¬ plainConfig.Survives (fun _ => everyTopic) freshNode [Msg.publish.frame [255] [1]] := by
  intro survives
  have raises := readUntilClosed_raises plainConfig (fun _ => everyTopic)
    [Msg.publish.frame [255] [1]] ⟨freshNode.kv, [], [], []⟩ 0 0 _ (by simp [Frame.Sized]) rfl (by
      rintro ⟨name, decoded, -⟩
      rw [Msg.frame_name, decodeName_invalid] at decoded
      cases decoded)
  exact raises (survives (fun _ => true) []).1

end Chappe
