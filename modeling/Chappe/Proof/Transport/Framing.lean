/-
This file proves that the buffered reader returns the frames of the byte stream for every way in
which the stream arrives.
-/

import Chappe.Construction.Transport

namespace Chappe
open Foundation

/-- The received bytes that no read has consumed. -/
def FrameReader.unread (reader : FrameReader) : Bytes :=
  (reader.buf.drop reader.pos).take (reader.endPos - reader.pos)

/-- The bytes that the coming reads will see. -/
def FrameReader.stream (reader : FrameReader) : Bytes := reader.unread ++ reader.socket.rest

/-- The cursors are ordered inside a buffer that has room, and no call of `recv` will fail. -/
structure FrameReader.Good (reader : FrameReader) : Prop where
  ordered : reader.pos ≤ reader.endPos
  inside : reader.endPos ≤ reader.buf.length
  positive : 0 < reader.buf.length
  clean : Recv.failed ∉ reader.socket.script

theorem FrameReader.unread_length {reader : FrameReader} (good : reader.Good) :
    reader.unread.length = reader.endPos - reader.pos := by
  have inside := good.inside
  simp only [unread, List.length_take, List.length_drop]
  omega

/-- A resize that grows the vector only appends to it. -/
theorem resize_of_le (buf : Bytes) (size : Nat) (larger : buf.length ≤ size) :
    resize buf size = buf ++ List.replicate (size - buf.length) 0 := by
  rw [resize, List.take_of_length_le larger]

theorem resize_length (buf : Bytes) (size : Nat) : (resize buf size).length = size := by
  simp only [resize, List.length_append, List.length_take, List.length_replicate]
  omega

/-- Compaction keeps the unread bytes. -/
theorem FrameReader.compact_good {reader : FrameReader} (good : reader.Good) :
    reader.compact.Good ∧ reader.compact.unread = reader.unread ∧
      reader.compact.socket = reader.socket := by
  refine ⟨?_, ?_, compact_socket reader⟩
  · have ordered := good.ordered
    have inside := good.inside
    have positive := good.positive
    unfold compact
    split
    · refine ⟨Nat.zero_le _, ?_, ?_, good.clean⟩
      · simp only [List.length_append, List.length_take, List.length_drop]
        omega
      · simp only [List.length_append, List.length_take, List.length_drop]
        omega
    · exact good
  · unfold compact
    split
    · have inside := good.inside
      have kept : ((reader.buf.drop reader.pos).take (reader.endPos - reader.pos)).length =
          reader.endPos - reader.pos := unread_length good
      simp only [unread, List.drop_zero, Nat.sub_zero]
      rw [List.take_append_of_le_length (le_of_eq kept.symm), List.take_take, Nat.min_self]
    · rfl

/-- Bytes appended to the vector are not unread. -/
theorem take_drop_append (buf padding : Bytes) (pos endPos : Nat) (inside : endPos ≤ buf.length) :
    ((buf ++ padding).drop pos).take (endPos - pos) = (buf.drop pos).take (endPos - pos) := by
  by_cases before : pos ≤ buf.length
  · rw [List.drop_append_of_le_length before, List.take_append_of_le_length]
    rw [List.length_drop]
    omega
  · rw [show endPos - pos = 0 by omega]
    rfl

/-- Growth keeps the unread bytes, fits the need and leaves room for a receive. -/
theorem FrameReader.grow_good {reader : FrameReader} (good : reader.Good) (need : Nat) :
    (reader.grow need).Good ∧ (reader.grow need).unread = reader.unread ∧
      (reader.grow need).endPos < (reader.grow need).buf.length := by
  have inside := good.inside
  have positive := good.positive
  obtain ⟨padding, padded⟩ : ∃ padding, (reader.grow need).buf = reader.buf ++ padding := by
    simp only [grow]
    split <;> split
    · exact ⟨_, by rw [resize_of_le _ (_ * 2) (by omega), resize_of_le _ need (by omega),
        List.append_assoc]⟩
    · exact ⟨_, resize_of_le _ need (by omega)⟩
    · exact ⟨_, resize_of_le _ (_ * 2) (by omega)⟩
    · exact ⟨[], (List.append_nil _).symm⟩
  have room : (reader.grow need).endPos < (reader.grow need).buf.length := by
    simp only [grow]
    split <;> split <;> first | omega | (simp only [resize_length] at *; omega)
  refine ⟨⟨good.ordered, Nat.le_of_lt room, by omega, good.clean⟩, ?_, room⟩
  simp only [unread, padded]
  exact take_drop_append reader.buf padding reader.pos reader.endPos inside

/-- A delivered chunk moves from the socket to the end of the unread bytes. -/
theorem FrameReader.unread_append {reader : FrameReader} (good : reader.Good) (chunk : Bytes)
    (socket : Socket) :
    ({ reader with
        buf := reader.buf.take reader.endPos ++ chunk ++
          reader.buf.drop (reader.endPos + chunk.length)
        endPos := reader.endPos + chunk.length
        socket := socket } : FrameReader).unread = reader.unread ++ chunk := by
  have ordered := good.ordered
  have inside := good.inside
  have front : (reader.buf.take reader.endPos).length = reader.endPos := by
    rw [List.length_take]
    omega
  simp only [unread]
  rw [take_drop_append _ _ _ _ (by simp only [List.length_append, front]; omega),
    List.drop_append_of_le_length (by omega), List.take_of_length_le, List.drop_take]
  simp only [List.length_append, List.length_drop, front]
  omega

/-- A receive keeps the stream. It gives up only at the end of the stream. -/
theorem FrameReader.receive_good {reader : FrameReader} (good : reader.Good)
    (room : reader.endPos < reader.buf.length) :
    (reader.receive.1 = true → reader.receive.2.Good ∧
      reader.receive.2.stream = reader.stream) ∧
    (reader.receive.1 = false → reader.socket.rest = []) := by
  have ordered := good.ordered
  have delivered (count : Nat) (some : 0 < count) (fits : count ≤ reader.buf.length - reader.endPos)
      (script : List Recv) (clean : Recv.failed ∉ script) :
      let outcome :=
        if (reader.socket.rest.take count).length = 0 then
          (false, { reader with socket := ⟨reader.socket.rest.drop count, script⟩ })
        else
          (true, { reader with
            buf := reader.buf.take reader.endPos ++ reader.socket.rest.take count ++
              reader.buf.drop (reader.endPos + (reader.socket.rest.take count).length)
            endPos := reader.endPos + (reader.socket.rest.take count).length
            socket := ⟨reader.socket.rest.drop count, script⟩ })
      (outcome.1 = true → outcome.2.Good ∧ outcome.2.stream = reader.stream) ∧
        (outcome.1 = false → reader.socket.rest = []) := by
    intro outcome
    by_cases empty : (reader.socket.rest.take count).length = 0
    · simp only [outcome, if_pos empty]
      refine ⟨by simp, fun _ => ?_⟩
      rw [List.length_take] at empty
      exact List.eq_nil_of_length_eq_zero (by omega)
    · simp only [outcome, if_neg empty]
      refine ⟨fun _ => ⟨⟨?_, ?_, ?_, clean⟩, ?_⟩, by simp⟩
      · change reader.pos ≤ reader.endPos + _
        omega
      · simp only [List.length_append, List.length_take, List.length_drop]
        omega
      · simp only [List.length_append, List.length_take, List.length_drop]
        omega
      · rw [stream, unread_append good, List.append_assoc, List.take_append_drop]
        rfl
  unfold receive Socket.recv
  have clean := good.clean
  cases events : reader.socket.script with
  | nil =>
      exact delivered _ (by omega) (Nat.le_refl _) [] (by simp)
  | cons event script =>
      rw [events] at clean
      have later : Recv.failed ∉ script := fun member => clean (List.mem_cons_of_mem _ member)
      cases event with
      | failed => exact absurd List.mem_cons_self clean
      | interrupted =>
          refine ⟨fun _ => ⟨⟨ordered, good.inside, good.positive, later⟩, rfl⟩, by simp⟩
      | ready count => exact delivered _ (by omega) (by omega) script later

/-- A refill keeps the stream. It gives up only at the end of the stream. -/
theorem FrameReader.fill_good {reader : FrameReader} (good : reader.Good) (need : Nat) :
    ((reader.fill need).1 = true → (reader.fill need).2.Good ∧
      (reader.fill need).2.stream = reader.stream) ∧
    ((reader.fill need).1 = false → reader.socket.rest = []) := by
  obtain ⟨compacted, unreadCompacted, socketCompacted⟩ := compact_good good
  obtain ⟨grown, unreadGrown, room⟩ := grow_good compacted need
  have kept : (reader.compact.grow need).stream = reader.stream := by
    rw [stream, stream, unreadGrown, unreadCompacted, grow_socket, compact_socket]
  have received := receive_good grown room
  rw [kept, grow_socket, compact_socket] at received
  exact received

/-- The refill loop succeeds exactly when the stream has enough bytes, and keeps the stream. -/
theorem FrameReader.require_good (reader : FrameReader) (n : Nat) (good : reader.Good) :
    ((reader.require n).1 = true → (reader.require n).2.Good ∧
      (reader.require n).2.stream = reader.stream ∧ n ≤ (reader.require n).2.unread.length) ∧
    ((reader.require n).1 = false → reader.stream.length < n) := by
  induction reader using FrameReader.require.induct n with
  | case1 reader short again ih =>
      obtain ⟨refilled, kept⟩ := (fill_good good n).1 again
      rw [require, if_pos short, if_pos again, ← kept]
      exact ih refilled
  | case2 reader short stopped =>
      rw [require, if_pos short, if_neg stopped]
      refine ⟨by simp, fun _ => ?_⟩
      have ended := (fill_good good n).2 (by simpa using stopped)
      rw [stream, ended, List.append_nil, unread_length good]
      exact short
  | case3 reader enough =>
      rw [require, if_neg enough]
      refine ⟨fun _ => ⟨good, rfl, ?_⟩, by simp⟩
      rw [unread_length good]
      omega

/-- The reference parser takes bytes from the front of the whole stream. -/
def takeBytes (n : Nat) (stream : Bytes) : Option (Bytes × Bytes) :=
  if n ≤ stream.length then some (stream.take n, stream.drop n) else none

def parseLength (stream : Bytes) : Option (Nat × Bytes) :=
  (takeBytes 4 stream).bind fun (word, rest) =>
    if ofLittleEndian word ≤ maxFrameBytes then some (ofLittleEndian word, rest) else none

/-- The reference parser of `[u8 kind][u32 name_len][name][u32 payload_len][payload]`. -/
def parseFrame (stream : Bytes) : Option (Frame × Bytes) :=
  (takeBytes 1 stream).bind fun (kind, rest) =>
  (parseLength rest).bind fun (nlen, rest) =>
  (takeBytes nlen rest).bind fun (name, rest) =>
  (parseLength rest).bind fun (plen, rest) =>
  (takeBytes plen rest).bind fun (payload, rest) =>
    some (⟨kind.headD 0, name, payload⟩, rest)

/-- The outcome of a read agrees with the reference parser. -/
def Agrees {A : Type} (outcome : Option A × FrameReader) : Option (A × Bytes) → Prop
  | some (value, rest) => outcome.1 = some value ∧ outcome.2.Good ∧ outcome.2.stream = rest
  | none => outcome.1 = none

/-- Agreement is kept by sequencing. -/
theorem Agrees.andThen {A B : Type} {outcome : Option A × FrameReader}
    {spec : Option (A × Bytes)} (agrees : Agrees outcome spec)
    {next : A → FrameReader → Option B × FrameReader} {parse : A × Bytes → Option (B × Bytes)}
    (later : ∀ value (reader : FrameReader), reader.Good →
      Agrees (next value reader) (parse (value, reader.stream))) :
    Agrees (Chappe.andThen outcome next) (spec.bind parse) := by
  rcases outcome with ⟨result, reader⟩
  rcases spec with _ | ⟨value, rest⟩
  · have failed : result = none := agrees
    subst failed
    exact rfl
  · obtain ⟨found, good, same⟩ := agrees
    have succeeded : result = some value := found
    subst succeeded
    subst same
    exact later value reader good

theorem FrameReader.readBytes_agrees {reader : FrameReader} (good : reader.Good) (n : Nat) :
    Agrees (reader.readBytes n) (takeBytes n reader.stream) := by
  obtain ⟨success, failure⟩ := reader.require_good n good
  unfold readBytes takeBytes
  rcases outcome : reader.require n with ⟨found, later⟩
  rw [outcome] at success failure
  cases found with
  | false =>
      have short : reader.stream.length < n := failure rfl
      rw [if_neg (by omega)]
      exact rfl
  | true =>
      have goodLater : later.Good := (success rfl).1
      have kept : later.stream = reader.stream := (success rfl).2.1
      have enough : n ≤ later.unread.length := (success rfl).2.2
      have length := unread_length goodLater
      have ordered := goodLater.ordered
      have long : n ≤ reader.stream.length := by
        rw [← kept, stream, List.length_append]
        exact Nat.le_add_right_of_le enough
      rw [if_pos long, ← kept]
      refine ⟨?_, ⟨?_, goodLater.inside, goodLater.positive, goodLater.clean⟩, ?_⟩
      · change some _ = some _
        rw [stream, List.take_append_of_le_length enough, unread, List.take_take,
          Nat.min_eq_left (by omega)]
      · change later.pos + n ≤ later.endPos
        omega
      · rw [stream, stream, List.drop_append_of_le_length enough]
        congr 1
        rw [unread, unread, List.drop_take, List.drop_drop]
        congr 1
        exact Nat.sub_add_eq later.endPos later.pos n

theorem FrameReader.readLength_agrees {reader : FrameReader} (good : reader.Good) :
    Agrees reader.readLength (parseLength reader.stream) := by
  have word := readBytes_agrees good 4
  unfold readLength readU32 parseLength
  rcases outcome : reader.readBytes 4 with ⟨result, later⟩
  rw [outcome] at word
  cases taken : takeBytes 4 reader.stream with
  | none =>
      rw [taken] at word
      have failed : result = none := word
      subst failed
      exact rfl
  | some pair =>
      rw [taken] at word
      obtain ⟨found, goodLater, same⟩ := word
      have succeeded : result = some pair.1 := found
      subst succeeded
      simp only [Chappe.andThen, Option.bind_some]
      by_cases small : ofLittleEndian pair.1 ≤ maxFrameBytes
      · rw [if_pos small, if_neg (by omega)]
        exact ⟨rfl, goodLater, same⟩
      · rw [if_neg small, if_pos (by omega)]
        exact rfl

/-- One call of `next` agrees with the reference parser on the whole remaining stream. -/
theorem FrameReader.next_agrees {reader : FrameReader} (good : reader.Good) :
    Agrees reader.next (parseFrame reader.stream) := by
  apply (readBytes_agrees good 1).andThen
  intro kind reader good
  apply (readLength_agrees good).andThen
  intro nlen reader good
  apply (readBytes_agrees good nlen).andThen
  intro name reader good
  apply (readLength_agrees good).andThen
  intro plen reader good
  apply (readBytes_agrees good plen).andThen
  intro payload reader good
  exact ⟨rfl, good, rfl⟩

theorem takeBytes_eq_some (n : Nat) (stream front rest : Bytes) :
    takeBytes n stream = some (front, rest) ↔ front.length = n ∧ stream = front ++ rest := by
  unfold takeBytes
  constructor
  · intro taken
    split at taken
    · obtain ⟨rfl, rfl⟩ := Prod.mk.inj (Option.some.inj taken)
      exact ⟨by simpa, (List.take_append_drop n stream).symm⟩
    · cases taken
  · rintro ⟨rfl, rfl⟩
    simp

theorem parseLength_eq_some (stream : Bytes) (n : Nat) (rest : Bytes) :
    parseLength stream = some (n, rest) ↔
      n ≤ maxFrameBytes ∧ stream = littleEndian 4 n ++ rest := by
  simp only [parseLength, Option.bind_eq_some_iff, Prod.exists, takeBytes_eq_some]
  constructor
  · rintro ⟨word, later, ⟨width, rfl⟩, found⟩
    split at found
    · rename_i small
      obtain ⟨rfl, rfl⟩ := Prod.mk.inj (Option.some.inj found)
      have encoded := littleEndian_ofLittleEndian word
      rw [width] at encoded
      exact ⟨small, by rw [encoded]⟩
    · cases found
  · rintro ⟨small, rfl⟩
    refine ⟨_, _, ⟨littleEndian_length 4 n, rfl⟩, ?_⟩
    have value : ofLittleEndian (littleEndian 4 n) = n := by
      rw [ofLittleEndian_littleEndian]
      exact Nat.mod_eq_of_lt (Nat.lt_of_le_of_lt small (by decide))
    rw [value, if_pos small]

/-- A frame whose lengths the reader accepts. -/
def Frame.Fits (frame : Frame) : Prop :=
  frame.name.length ≤ maxFrameBytes ∧ frame.payload.length ≤ maxFrameBytes

/-- The bytes that `build_frame` puts on the wire for a frame. -/
def Frame.bytes (frame : Frame) : Bytes := buildFrame frame.kind frame.name frame.payload

/-- The reference parser accepts exactly the frames that `build_frame` can build. -/
theorem parseFrame_eq_some (stream : Bytes) (frame : Frame) (rest : Bytes) :
    parseFrame stream = some (frame, rest) ↔ frame.Fits ∧ stream = frame.bytes ++ rest := by
  simp only [parseFrame, Option.bind_eq_some_iff, Prod.exists, takeBytes_eq_some,
    parseLength_eq_some, Option.some.injEq, Prod.mk.injEq]
  constructor
  · rintro ⟨kind, _, ⟨single, rfl⟩, nlen, _, ⟨smallName, rfl⟩, name, _, ⟨rfl, rfl⟩, plen, _,
      ⟨smallPayload, rfl⟩, payload, _, ⟨rfl, rfl⟩, rfl, rfl⟩
    refine ⟨⟨smallName, smallPayload⟩, ?_⟩
    obtain ⟨byte, rfl⟩ := List.length_eq_one_iff.mp single
    simp [Frame.bytes, buildFrame, appendU32]
  · rintro ⟨⟨smallName, smallPayload⟩, rfl⟩
    refine ⟨[frame.kind], _, ⟨rfl, ?_⟩, frame.name.length, _, ⟨smallName, rfl⟩, frame.name, _,
      ⟨rfl, rfl⟩, frame.payload.length, _, ⟨smallPayload, rfl⟩, frame.payload, rest,
      ⟨rfl, rfl⟩, rfl, rfl⟩
    simp [Frame.bytes, buildFrame, appendU32]

theorem parseFrame_shrinks {stream : Bytes} {frame : Frame} {rest : Bytes}
    (found : parseFrame stream = some (frame, rest)) : rest.length < stream.length := by
  obtain ⟨_, rfl⟩ := (parseFrame_eq_some stream frame rest).mp found
  simp only [Frame.bytes, buildFrame, appendU32, List.length_append, List.length_cons,
    List.length_nil]
  omega

/-- The frames of a whole stream, up to its first truncated or oversized frame. -/
def parseAll (stream : Bytes) : List Frame :=
  match _found : parseFrame stream with
  | some (frame, rest) => frame :: parseAll rest
  | none => []
termination_by stream.length
decreasing_by exact parseFrame_shrinks _found

theorem parseAll_of_some {stream : Bytes} {frame : Frame} {rest : Bytes}
    (found : parseFrame stream = some (frame, rest)) :
    parseAll stream = frame :: parseAll rest := by
  rw [parseAll]
  split
  · rename_i equal
    rw [found] at equal
    obtain ⟨rfl, rfl⟩ := Prod.mk.inj (Option.some.inj equal)
    rfl
  · rename_i equal
    rw [found] at equal
    cases equal

theorem parseAll_of_none {stream : Bytes} (found : parseFrame stream = none) :
    parseAll stream = [] := by
  rw [parseAll]
  split
  · rename_i equal
    rw [found] at equal
    cases equal
  · rfl

/-- The wire bytes of a list of frames. -/
def encodeAll (frames : List Frame) : Bytes := frames.flatMap Frame.bytes

/-- The parsed frames cover a prefix of the stream. -/
theorem encodeAll_parseAll (stream : Bytes) : encodeAll (parseAll stream) <+: stream := by
  induction stream using parseAll.induct with
  | case1 stream frame rest found ih =>
      obtain ⟨_, rfl⟩ := (parseFrame_eq_some stream frame rest).mp found
      rw [parseAll_of_some found, encodeAll, List.flatMap_cons]
      exact (List.prefix_append_right_inj _).mpr ih
  | case2 stream found =>
      rw [parseAll_of_none found]
      exact List.nil_prefix

/-- Parsing returns the frames that were encoded. -/
theorem parseAll_encodeAll (frames : List Frame) (fit : ∀ frame ∈ frames, frame.Fits) :
    parseAll (encodeAll frames) = frames := by
  induction frames with
  | nil => exact parseAll_of_none (by rfl)
  | cons frame rest ih =>
      have found : parseFrame (encodeAll (frame :: rest)) = some (frame, encodeAll rest) :=
        (parseFrame_eq_some _ _ _).mpr ⟨fit frame (by simp), by simp [encodeAll]⟩
      rw [parseAll_of_some found, ih fun other member => fit other (by simp [member])]

/-- The reference parser rejects what begins with no frame that fits. -/
theorem parseFrame_eq_none (stream : Bytes) :
    parseFrame stream = none ↔ ∀ frame : Frame, frame.Fits → ¬ frame.bytes <+: stream := by
  constructor
  · rintro rejected frame fits ⟨rest, rfl⟩
    rw [(parseFrame_eq_some _ frame rest).mpr ⟨fits, rfl⟩] at rejected
    cases rejected
  · intro unmatched
    cases found : parseFrame stream with
    | none => rfl
    | some pair =>
        obtain ⟨fits, rfl⟩ := (parseFrame_eq_some stream pair.1 pair.2).mp found
        exact absurd (List.prefix_append _ _) (unmatched pair.1 fits)

/-- No frame that fits is a proper prefix of a frame whose lengths four bytes can hold. -/
theorem Frame.eq_of_prefix {frame other : Frame} (fits : other.Fits)
    (named : frame.name.length < 2 ^ 32) (loaded : frame.payload.length < 2 ^ 32)
    (begins : other.bytes <+: frame.bytes) : other.bytes.length = frame.bytes.length := by
  have bound : maxFrameBytes < 2 ^ 32 := by decide
  have width {first second : Nat} (below : first < 2 ^ 32) (above : second < 2 ^ 32)
      (same : littleEndian 4 first = littleEndian 4 second) : first = second := by
    have values := congrArg ofLittleEndian same
    rw [ofLittleEndian_littleEndian, ofLittleEndian_littleEndian] at values
    omega
  obtain ⟨rest, whole⟩ := begins
  simp only [bytes, buildFrame, appendU32, List.append_assoc, List.cons_append, List.nil_append,
    List.cons.injEq] at whole
  obtain ⟨nameWord, whole⟩ := List.append_inj whole.2 (by simp only [littleEndian_length])
  have names := width (fits.1.trans_lt bound) named nameWord
  obtain ⟨-, whole⟩ := List.append_inj whole names
  obtain ⟨payloadWord, -⟩ := List.append_inj whole (by simp only [littleEndian_length])
  have payloads := width (fits.2.trans_lt bound) loaded payloadWord
  simp only [bytes, buildFrame, appendU32, List.length_append, littleEndian_length, names, payloads,
    List.length_singleton]

/-- Parsing returns the frames at the front of a stream exactly when they fit and the parser rejects
the rest. -/
theorem parseAll_eq_iff (frames : List Frame) (rest : Bytes) :
    parseAll (encodeAll frames ++ rest) = frames ↔
      (∀ frame ∈ frames, frame.Fits) ∧ parseFrame rest = none := by
  induction frames with
  | nil =>
      change parseAll rest = [] ↔ _
      cases found : parseFrame rest with
      | none => simp [parseAll_of_none found]
      | some pair => simp [parseAll_of_some found]
  | cons frame frames ih =>
      have cut : encodeAll (frame :: frames) ++ rest =
          frame.bytes ++ (encodeAll frames ++ rest) := by
        simp [encodeAll]
      rw [cut, List.forall_mem_cons]
      constructor
      · intro parsed
        cases found : parseFrame (frame.bytes ++ (encodeAll frames ++ rest)) with
        | none =>
            rw [parseAll_of_none found] at parsed
            cases parsed
        | some pair =>
            rw [parseAll_of_some found] at parsed
            obtain ⟨head, tail⟩ := List.cons.inj parsed
            obtain ⟨fits, same⟩ := (parseFrame_eq_some _ pair.1 pair.2).mp found
            rw [head] at fits same
            rw [← List.append_cancel_left same, ih] at tail
            exact ⟨⟨fits, tail.1⟩, tail.2⟩
      · rintro ⟨⟨fits, all⟩, rejected⟩
        rw [parseAll_of_some ((parseFrame_eq_some _ frame _).mpr ⟨fits, rfl⟩),
          ih.mpr ⟨all, rejected⟩]

/-- The calls of `next` return exactly the frames of the reference parser. -/
theorem FrameReader.reads_iff (stream : Bytes) :
    ∀ (reader : FrameReader), reader.Good → reader.stream = stream → ∀ frames,
      reader.Reads frames ↔ frames = parseAll stream := by
  induction stream using parseAll.induct with
  | case1 stream frame rest found ih =>
      intro reader good same frames
      have agrees := next_agrees good
      rw [same, found] at agrees
      obtain ⟨head, goodLater, later⟩ := agrees
      rw [parseAll_of_some found]
      constructor
      · intro reads
        cases reads with
        | stop _ ended => rw [head] at ended; cases ended
        | frame _ other tail present remaining =>
            rw [head] at present
            cases present
            rw [(ih reader.next.2 goodLater later tail).mp remaining]
      · rintro rfl
        exact .frame reader frame _ head ((ih reader.next.2 goodLater later _).mpr rfl)
  | case2 stream found =>
      intro reader good same frames
      have agrees := next_agrees good
      rw [same, found] at agrees
      have ended : reader.next.1 = none := agrees
      rw [parseAll_of_none found]
      constructor
      · intro reads
        cases reads with
        | stop _ _ => rfl
        | frame _ other tail present _ => rw [ended] at present; cases present
      · rintro rfl
        exact .stop reader ended

theorem FrameReader.open_good (socket : Socket) (clean : Recv.failed ∉ socket.script) :
    (FrameReader.open socket).Good :=
  ⟨Nat.le_refl 0, Nat.zero_le _, by rw [FrameReader.open, List.length_replicate]; decide, clean⟩

theorem FrameReader.open_stream (socket : Socket) :
    (FrameReader.open socket).stream = socket.rest := by
  have empty : (FrameReader.open socket).unread = [] := List.take_zero
  rw [stream, empty, List.nil_append]
  rfl

/-- Framing is exact. For every stream and every delivery of it the reader returns the frames of
the reference parser. Their encoding is a prefix of the stream, and every encoded list of frames
that fit is returned as it was. -/
theorem framing_exact (stream : Bytes) (script : List Recv) (clean : Recv.failed ∉ script) :
    (∀ frames, (FrameReader.open ⟨stream, script⟩).Reads frames ↔ frames = parseAll stream) ∧
    encodeAll (parseAll stream) <+: stream ∧
    ∀ frames : List Frame, (∀ frame ∈ frames, frame.Fits) → ∀ result,
      (FrameReader.open ⟨encodeAll frames, script⟩).Reads result ↔ result = frames := by
  have exact_ (bytes : Bytes) (frames : List Frame) :
      (FrameReader.open ⟨bytes, script⟩).Reads frames ↔ frames = parseAll bytes :=
    FrameReader.reads_iff bytes _ (FrameReader.open_good _ clean) (FrameReader.open_stream _) frames
  refine ⟨exact_ stream, encodeAll_parseAll stream, ?_⟩
  intro frames fit result
  rw [exact_, parseAll_encodeAll frames fit]

/-- A frame, half of a frame, and an interrupted delivery of one byte at a time. -/
theorem framing_exact_small :
    (∀ frames, (FrameReader.open ⟨(Msg.ping.frame [] [1, 0, 0, 0]).bytes ++ [2, 3, 0],
      [.ready 1, .interrupted, .ready 7]⟩).Reads frames ↔
        frames = parseAll ((Msg.ping.frame [] [1, 0, 0, 0]).bytes ++ [2, 3, 0])) ∧
    encodeAll (parseAll ((Msg.ping.frame [] [1, 0, 0, 0]).bytes ++ [2, 3, 0])) <+:
      (Msg.ping.frame [] [1, 0, 0, 0]).bytes ++ [2, 3, 0] ∧
    ∀ frames : List Frame, (∀ frame ∈ frames, frame.Fits) → ∀ result,
      (FrameReader.open ⟨encodeAll frames, [.ready 1, .interrupted, .ready 7]⟩).Reads result ↔
        result = frames :=
  framing_exact _ _ (by simp)

end Chappe
