/-
This file proves that the stream of a client has whole frames and at most one cut frame after them,
for every order of the senders and every behaviour of the socket.
-/

import Chappe.Construction.ClientStream
import Chappe.Construction.Kv
import Chappe.Foundation.Run
import Chappe.Proof.Transport.Framing
import Mathlib.Tactic

namespace Chappe.ClientStream
open Foundation

/-- The thread holds `send_mu`. -/
def Place.Holds : Place → Prop
  | .locked _ | .writing _ _ _ | .failed | .unlocking => True
  | .idle | .waiting _ => False

/-- The call of `send_to` that has not put its frame on the wire. -/
def Place.call : Place → Option (Nat × Frame)
  | .waiting (.sendTo call frame) | .locked (.sendTo call frame) | .writing call frame _ =>
      some (call, frame)
  | _ => none

variable {Thread : Type}

/-- The wire holds whole frames and the begin of one that is being written or was cut. -/
structure Synced (line : Line Thread) : Prop where
  wire : line.wire = encodeAll (line.whole.map Prod.snd) ++ line.tail
  once : (line.whole.map Prod.fst).Nodup
  issued : ∀ entry ∈ line.whole, line.calls[entry.1]? = some entry.2
  locked : ∀ thread, (line.place thread).Holds → line.sendMu = some thread
  pending : ∀ thread call frame, (line.place thread).call = some (call, frame) →
    line.calls[call]? = some frame ∧ call ∉ line.whole.map Prod.fst
  distinct : ∀ first second call frame other, (line.place first).call = some (call, frame) →
    (line.place second).call = some (call, other) → first = second
  further : ∀ call frame count, line.further = some (call, frame, count) →
    count < (bufOf frame).length ∧ line.calls[call]? = some frame ∧
      call ∉ line.whole.map Prod.fst ∧
      (line.cut = false → ∃ thread, line.place thread = .writing call frame count)
  writing : ∀ thread call frame off, line.place thread = .writing call frame off →
    off < (bufOf frame).length ∧ line.opened = true ∧
      (line.cut = false → line.further = some (call, frame, off) ∨ line.further = none ∧ off = 0)
  marked : line.cut = true → line.further ≠ none
  ended : line.cut = true →
    line.down = true ∨ line.opened = false ∨ ∃ thread, line.place thread = .failed

theorem bufOf_pos (frame : Frame) : 0 < (bufOf frame).length := by
  simp only [bufOf, buildFrame, appendU32, List.length_append, List.length_singleton]
  omega

theorem Line.holds_writing {line : Line Thread} {thread : Thread} {call off : Nat} {frame : Frame}
    (here : line.place thread = .writing call frame off) : (line.place thread).Holds := by
  rw [here]
  exact True.intro

theorem Line.holds_failed {line : Line Thread} {thread : Thread}
    (here : line.place thread = .failed) : (line.place thread).Holds := by
  rw [here]
  exact True.intro

theorem Synced.initial : Synced (initial : Line Thread) := by
  constructor <;> simp [ClientStream.initial, Line.tail, encodeAll, Place.Holds, Place.call]

variable [DecidableEq Thread] {line : Line Thread}

/-- A thread that begins no call moves. -/
theorem update_call {place : Thread → Place} {thread other : Thread} {next : Place}
    {entry : Nat × Frame} (stays : next.call = none ∨ next.call = (place thread).call)
    (inside : (Function.update place thread next other).call = some entry) :
    (place other).call = some entry := by
  by_cases same : other = thread
  · rw [same, Function.update_self] at inside
    rcases stays with none | kept
    · rw [none] at inside
      cases inside
    · rw [same, ← kept]
      exact inside
  · rwa [Function.update_of_ne same] at inside

omit [DecidableEq Thread] in
/-- The lock has one holder. -/
theorem Synced.alone (synced : Synced line) {first second : Thread}
    (holds : (line.place first).Holds) (also : (line.place second).Holds) : first = second :=
  Option.some.inj ((synced.locked first holds).symm.trans (synced.locked second also))

/-- A thread that writes nothing moves. -/
theorem Synced.goto (synced : Synced line) {thread : Thread} {next : Place}
    {opened down : Bool} {sendMu : Option Thread}
    (stays : next.call = none ∨ next.call = (line.place thread).call)
    (holder : next.Holds → sendMu = some thread)
    (others : ∀ other, other ≠ thread → (line.place other).Holds → sendMu = some other)
    (before : ∀ call frame off, line.place thread = .writing call frame off → line.cut = true)
    (after : ∀ call frame off, next = .writing call frame off →
      off = 0 ∧ opened = true ∧ (line.cut = false → line.further = none))
    (keeps : ∀ other, other ≠ thread → (line.place other).Holds → opened = line.opened)
    (ended : line.cut = true → down = true ∨ opened = false ∨ next = .failed ∨
      ∃ other, other ≠ thread ∧ line.place other = .failed) :
    Synced { line with
      place := Function.update line.place thread next, opened := opened, down := down,
      sendMu := sendMu } := by
  have mine : Function.update line.place thread next thread = next := Function.update_self ..
  have theirs {other : Thread} (apart : other ≠ thread) :
      Function.update line.place thread next other = line.place other :=
    Function.update_of_ne apart ..
  refine ⟨synced.wire, synced.once, synced.issued, ?_, ?_, ?_, ?_, ?_, synced.marked, ?_⟩
  · intro other holds
    by_cases same : other = thread
    · subst other
      exact holder (mine ▸ holds)
    · exact others other same (theirs same ▸ holds)
  · exact fun other call frame inside => synced.pending other call frame (update_call stays inside)
  · exact fun first second call frame other inside also =>
      synced.distinct first second call frame other (update_call stays inside)
        (update_call stays also)
  · intro call frame count found
    obtain ⟨short, known, fresh, writer⟩ := synced.further call frame count found
    refine ⟨short, known, fresh, fun whole => ?_⟩
    obtain ⟨other, writes⟩ := writer whole
    have apart : other ≠ thread := by
      rintro rfl
      rw [before call frame count writes] at whole
      cases whole
    exact ⟨other, (theirs apart).trans writes⟩
  · intro other call frame off writes
    by_cases same : other = thread
    · subst other
      obtain ⟨rfl, ready, clear⟩ := after call frame off (mine ▸ writes)
      exact ⟨bufOf_pos frame, ready, fun whole => .inr ⟨clear whole, rfl⟩⟩
    · have writes := (theirs same).symm.trans writes
      obtain ⟨short, ready, placed⟩ := synced.writing other call frame off writes
      have holds := Line.holds_writing writes
      exact ⟨short, (keeps other same holds).trans ready, placed⟩
  · intro cut
    rcases ended cut with below | closed | failed | ⟨other, apart, failed⟩
    · exact .inl below
    · exact .inr (.inl closed)
    · exact .inr (.inr ⟨thread, mine.trans failed⟩)
    · exact .inr (.inr ⟨other, (theirs apart).trans failed⟩)

omit [DecidableEq Thread] in
/-- A write goes on where the wire ends, and no write has failed. -/
theorem Synced.writer (synced : Synced line) {thread : Thread} {call off : Nat} {frame : Frame}
    (here : line.place thread = .writing call frame off) (up : line.down = false) :
    line.cut = false ∧ line.tail = (bufOf frame).take off := by
  obtain ⟨-, opened, placed⟩ := synced.writing thread call frame off here
  have whole : line.cut = false := by
    by_contra cut
    rcases synced.ended (Bool.eq_true_of_not_eq_false cut) with down | closed | ⟨other, failed⟩
    · rw [up] at down
      cases down
    · rw [opened] at closed
      cases closed
    · have holds := Line.holds_writing here
      have also := Line.holds_failed failed
      rw [synced.alone holds also, failed] at here
      cases here
  refine ⟨whole, ?_⟩
  rcases placed whole with found | ⟨none, rfl⟩
  · simp only [Line.tail, found]
  · simp only [Line.tail, none, List.take_zero]

omit [DecidableEq Thread] in
/-- A thread that writes holds the lock, and it is the only one that does. -/
theorem Synced.sole (synced : Synced line) {thread other : Thread} {call off : Nat} {frame : Frame}
    (here : line.place thread = .writing call frame off) (holds : (line.place other).Holds) :
    other = thread := synced.alone holds (Line.holds_writing here)

/-- The writer moves and puts bytes on the wire. -/
theorem Synced.write (synced : Synced line) {thread : Thread} {call off : Nat} {frame : Frame}
    (here : line.place thread = .writing call frame off) {next : Place} {wire : Bytes}
    {further : Option (Nat × Frame × Nat)} {cut : Bool}
    (stays : next.call = none ∨ next.call = (line.place thread).call)
    (written : wire = encodeAll (line.whole.map Prod.snd) ++
      Line.tail { line with further := further })
    (begun : ∀ number entry count, further = some (number, entry, count) →
      count < (bufOf entry).length ∧ line.calls[number]? = some entry ∧
        number ∉ line.whole.map Prod.fst ∧
        (cut = false → next = .writing number entry count))
    (places : ∀ number entry count, next = .writing number entry count →
      count < (bufOf entry).length ∧ further = some (number, entry, count))
    (ended : cut = true → next = .failed ∧ further ≠ none) :
    Synced ({ line with wire := wire, further := further, cut := cut }.goto thread next) := by
  have mine : Function.update line.place thread next thread = next := Function.update_self ..
  have theirs {other : Thread} (apart : other ≠ thread) :
      Function.update line.place thread next other = line.place other :=
    Function.update_of_ne apart ..
  refine ⟨written, synced.once, synced.issued, ?_, ?_, ?_, ?_, ?_, fun failed => (ended failed).2,
    fun failed => .inr (.inr ⟨thread, mine.trans (ended failed).1⟩)⟩
  · intro other inside
    apply synced.locked other
    by_cases same : other = thread
    · exact same ▸ Line.holds_writing here
    · exact theirs same ▸ inside
  · exact fun other number entry inside =>
      synced.pending other number entry (update_call stays inside)
  · exact fun first second number entry other inside also =>
      synced.distinct first second number entry other (update_call stays inside)
        (update_call stays also)
  · intro number entry count found
    obtain ⟨short, known, fresh, writes⟩ := begun number entry count found
    exact ⟨short, known, fresh, fun whole => ⟨thread, mine.trans (writes whole)⟩⟩
  · intro other number entry count writes
    by_cases same : other = thread
    · subst other
      obtain ⟨short, found⟩ := places number entry count (mine.symm.trans writes)
      exact ⟨short, (synced.writing thread call frame off here).2.1, fun _ => .inl found⟩
    · have there := (theirs same).symm.trans writes
      exact absurd (synced.sole here (Line.holds_writing there)) same

/-- The socket accepts a part of what is left of the frame. -/
theorem Synced.accept (synced : Synced line) {thread : Thread} {call off count : Nat}
    {frame : Frame} (here : line.place thread = .writing call frame off) (up : line.down = false)
    (short : off + count < (bufOf frame).length) :
    Synced ({ line with
      wire := line.wire ++ ((bufOf frame).drop off).take count
      further := some (call, frame, off + count) }.goto thread
        (.writing call frame (off + count))) := by
  obtain ⟨whole, tail⟩ := synced.writer here up
  obtain ⟨known, fresh⟩ := synced.pending thread call frame (congrArg Place.call here)
  refine synced.write here (.inr (congrArg Place.call here).symm) ?_ ?_ ?_ ?_
  · rw [synced.wire, tail, List.append_assoc, ← List.take_add]
    rfl
  · rintro _ _ _ ⟨⟩
    exact ⟨short, known, fresh, fun _ => rfl⟩
  · rintro _ _ _ ⟨⟩
    exact ⟨short, rfl⟩
  · intro cut
    exact absurd (whole.symm.trans cut) Bool.false_ne_true

/-- The socket refuses what is left of the frame. -/
theorem Synced.refuse (synced : Synced line) {thread : Thread} {call off : Nat} {frame : Frame}
    (here : line.place thread = .writing call frame off) :
    Synced ({ line with
      cut := true
      further := some (line.further.getD (call, frame, off)) }.goto thread .failed) := by
  obtain ⟨short, -, placed⟩ := synced.writing thread call frame off here
  obtain ⟨known, fresh⟩ := synced.pending thread call frame (congrArg Place.call here)
  refine synced.write here (.inl rfl) ?_ ?_ (by simp) fun _ => ⟨rfl, by simp⟩
  · rw [synced.wire]
    congr 1
    cases found : line.further with
    | some entry => simp only [Line.tail, found, Option.getD_some]
    | none =>
        have whole : line.cut = false := by
          by_contra cut
          exact synced.marked (Bool.eq_true_of_not_eq_false cut) found
        rcases placed whole with other | ⟨-, rfl⟩
        · rw [found] at other
          cases other
        · simp [Line.tail, found]
  · intro number entry count begun
    cases found : line.further with
    | none =>
        rw [found] at begun
        cases begun
        exact ⟨short, known, fresh, by simp⟩
    | some other =>
        rw [found] at begun
        cases begun
        obtain ⟨below, issued, absent, -⟩ := synced.further _ _ _ found
        exact ⟨below, issued, absent, by simp⟩

/-- The socket accepts the rest of the frame. -/
theorem Synced.complete (synced : Synced line) {thread : Thread} {call off count : Nat}
    {frame : Frame} (here : line.place thread = .writing call frame off) (up : line.down = false)
    (rest : off + count = (bufOf frame).length) :
    Synced ({ line with
      wire := line.wire ++ ((bufOf frame).drop off).take count
      whole := line.whole ++ [(call, frame)]
      further := none }.goto thread .unlocking) := by
  obtain ⟨whole, tail⟩ := synced.writer here up
  have inside : (line.place thread).call = some (call, frame) := congrArg Place.call here
  obtain ⟨known, fresh⟩ := synced.pending thread call frame inside
  have mine : Function.update line.place thread .unlocking thread = .unlocking :=
    Function.update_self ..
  have theirs {other : Thread} (apart : other ≠ thread) :
      Function.update line.place thread .unlocking other = line.place other :=
    Function.update_of_ne apart ..
  refine ⟨?_, ?_, ?_, ?_, ?_, ?_, by simp [Line.goto], ?_, ?_, ?_⟩
  · show line.wire ++ _ = encodeAll ((line.whole ++ [(call, frame)]).map Prod.snd) ++ []
    rw [synced.wire, tail, List.append_assoc, ← List.take_add, rest, List.take_length]
    simp [encodeAll, Frame.bytes, bufOf]
  · show ((line.whole ++ [(call, frame)]).map Prod.fst).Nodup
    rw [List.map_append, List.nodup_append_comm]
    exact List.nodup_cons.mpr ⟨fresh, synced.once⟩
  · intro entry member
    rcases List.mem_append.mp member with before | last
    · exact synced.issued entry before
    · rw [List.mem_singleton.mp last]
      exact known
  · intro other holds
    apply synced.locked other
    by_cases same : other = thread
    · exact same ▸ Line.holds_writing here
    · exact theirs same ▸ holds
  · intro other number entry begun
    have apart : other ≠ thread := by
      rintro rfl
      have idle : Place.unlocking.call = some (number, entry) :=
        (congrArg Place.call mine).symm.trans begun
      cases idle
    have before := update_call (.inl rfl) begun
    obtain ⟨issued, absent⟩ := synced.pending other number entry before
    refine ⟨issued, ?_⟩
    show number ∉ (line.whole ++ [(call, frame)]).map Prod.fst
    rw [List.map_append, List.mem_append, not_or]
    refine ⟨absent, ?_⟩
    intro last
    have same : number = call := List.mem_singleton.mp last
    subst number
    exact apart (synced.distinct other thread call entry frame before inside)
  · exact fun first second number entry other begun also =>
      synced.distinct first second number entry other (update_call (.inl rfl) begun)
        (update_call (.inl rfl) also)
  · intro other number entry place writes
    have apart : other ≠ thread := by
      rintro rfl
      have left : Place.unlocking = .writing number entry place := mine.symm.trans writes
      cases left
    have there := (theirs apart).symm.trans writes
    exact absurd (synced.sole here (Line.holds_writing there)) apart
  · intro cut
    exact absurd (whole.symm.trans cut) Bool.false_ne_true
  · intro cut
    exact absurd (whole.symm.trans cut) Bool.false_ne_true

theorem Synced.writeStep (synced : Synced line) {thread : Thread} {call off : Nat} {frame : Frame}
    (here : line.place thread = .writing call frame off) (event : Send) :
    Synced (line.writeStep thread call frame off event) := by
  obtain ⟨below, -⟩ := synced.writing thread call frame off here
  unfold Line.writeStep
  by_cases down : line.down = true
  · rw [if_pos down]
    exact synced.refuse here
  · rw [if_neg down]
    have up : line.down = false := Bool.eq_false_of_not_eq_true down
    cases event with
    | interrupted => exact synced
    | failed => exact synced.refuse here
    | accepted count =>
        dsimp only
        split
        · rename_i short
          exact synced.accept here up short
        · rename_i long
          exact synced.complete here up (by omega)

/-- The thread that holds the lock writes nothing and moves. -/
theorem Synced.holder (synced : Synced line) {thread : Thread} {next : Place} {opened down : Bool}
    (here : (line.place thread).Holds) (holds : next.Holds) (stays : next.call = none)
    (quiet : ∀ call frame off, line.place thread ≠ .writing call frame off)
    (ended : line.cut = true → down = true ∨ opened = false ∨ next = .failed) :
    Synced ({ line with opened := opened, down := down }.goto thread next) := by
  have sole (other : Thread) (apart : other ≠ thread) : ¬ (line.place other).Holds :=
    fun also => apart (synced.alone also here)
  apply synced.goto (.inl stays) fun _ => synced.locked thread here
  · exact fun other apart also => absurd also (sole other apart)
  · exact fun call frame off writes => absurd writes (quiet call frame off)
  · rintro call frame off rfl
    cases stays
  · exact fun other apart also => absurd also (sole other apart)
  · exact fun cut => (ended cut).imp_right (Or.imp_right .inl)

omit [DecidableEq Thread] in
/-- After a failed write the socket is shut down or closed before the lock is free. -/
theorem Synced.shut (synced : Synced line) {thread : Thread} (holds : (line.place thread).Holds)
    (unfailed : line.place thread ≠ .failed) (cut : line.cut = true) :
    line.down = true ∨ line.opened = false := by
  rcases synced.ended cut with down | closed | ⟨other, failed⟩
  · exact .inl down
  · exact .inr closed
  · have also := Line.holds_failed failed
    rw [synced.alone also holds] at failed
    exact absurd failed unfailed

/-- A thread gets the free lock. -/
theorem Synced.lock (synced : Synced line) {thread : Thread} {job : Job}
    (here : line.place thread = .waiting job) (free : line.sendMu = none) :
    Synced ({ line with sendMu := some thread }.goto thread (.locked job)) := by
  have unheld (other : Thread) : ¬ (line.place other).Holds := by
    intro holds
    rw [synced.locked other holds] at free
    cases free
  apply synced.goto
  · rw [here]
    cases job with
    | sendTo call frame => exact .inr rfl
    | close | shutdown => exact .inl rfl
  · exact fun _ => rfl
  · exact fun other _ holds => absurd holds (unheld other)
  · intro call frame off writes
    rw [here] at writes
    cases writes
  · simp
  · exact fun other _ holds => absurd holds (unheld other)
  · intro cut
    rcases synced.ended cut with down | closed | ⟨other, failed⟩
    · exact .inl down
    · exact .inr (.inl closed)
    · exact absurd (Line.holds_failed failed) (unheld other)

/-- A sender under the lock begins its frame when the client is still open. -/
theorem Synced.begin (synced : Synced line) {thread : Thread} {call : Nat} {frame : Frame}
    (here : line.place thread = .locked (.sendTo call frame)) :
    Synced (line.goto thread (if line.opened then .writing call frame 0 else .unlocking)) := by
  have holds : (line.place thread).Holds := by
    rw [here]
    exact True.intro
  have sole (other : Thread) (apart : other ≠ thread) : ¬ (line.place other).Holds :=
    fun also => apart (synced.alone also holds)
  have clear (whole : line.cut = false) : line.further = none := by
    by_contra begun
    obtain ⟨⟨number, entry, count⟩, found⟩ := Option.ne_none_iff_exists'.mp begun
    obtain ⟨-, -, -, writer⟩ := synced.further number entry count found
    obtain ⟨other, writes⟩ := writer whole
    have also := Line.holds_writing writes
    rw [synced.alone also holds, here] at writes
    cases writes
  have shut := synced.shut holds (by simp [here])
  cases opened : line.opened with
  | false => exact synced.holder holds True.intro rfl (by simp [here]) fun _ => .inr (.inl opened)
  | true =>
      apply synced.goto
      · exact .inr (congrArg Place.call here).symm
      · exact fun _ => synced.locked thread holds
      · exact fun other apart also => absurd also (sole other apart)
      · intro number entry off writes
        rw [here] at writes
        cases writes
      · rintro _ _ _ ⟨⟩
        exact ⟨rfl, opened, clear⟩
      · exact fun _ _ _ => rfl
      · exact fun cut => (shut cut).imp_right .inl

/-- A holder that has nothing to write gives the lock back. -/
theorem Synced.unlock (synced : Synced line) {thread : Thread}
    (here : line.place thread = .unlocking) :
    Synced ({ line with sendMu := none }.goto thread .idle) := by
  have holds : (line.place thread).Holds := by
    rw [here]
    exact True.intro
  have sole (other : Thread) (apart : other ≠ thread) : ¬ (line.place other).Holds :=
    fun also => apart (synced.alone also holds)
  apply synced.goto (.inl rfl) False.elim
  · exact fun other apart also => absurd also (sole other apart)
  · simp [here]
  · simp
  · exact fun _ _ _ => rfl
  · exact fun cut => (synced.shut holds (by simp [here]) cut).imp_right .inl

theorem Synced.threadStep (synced : Synced line) (thread : Thread) (event : Send) :
    Synced (line.threadStep thread event) := by
  unfold Line.threadStep
  split
  case h_1 => exact synced
  case h_2 job here =>
    split
    · rename_i free
      exact synced.lock here free
    · exact synced
  case h_3 call frame here => exact synced.begin here
  case h_4 here =>
    exact synced.holder (by rw [here]; exact True.intro) True.intro rfl (by simp [here])
      fun _ => .inr (.inl rfl)
  case h_5 here =>
    have holds : (line.place thread).Holds := by
      rw [here]
      exact True.intro
    refine synced.holder holds True.intro rfl (by simp [here]) fun cut => ?_
    rcases synced.shut holds (by simp [here]) cut with down | closed
    · left
      rw [down]
      rfl
    · exact .inr (.inl closed)
  case h_6 call frame off here => exact synced.writeStep here event
  case h_7 here =>
    exact synced.holder (Line.holds_failed here) True.intro rfl (by simp [here])
      fun _ => .inl rfl
  case h_8 here => exact synced.unlock here

/-- A thread outside of the lock begins to wait for it. -/
theorem Synced.enter (synced : Synced line) {thread : Thread} {job : Job}
    (idle : line.place thread = .idle) (quiet : (Place.waiting job).call = none) :
    Synced (line.goto thread (.waiting job)) := by
  apply synced.goto (.inl quiet) False.elim
  · exact fun other _ also => synced.locked other also
  · simp [idle]
  · simp
  · exact fun _ _ _ => rfl
  · intro cut
    rcases synced.ended cut with down | closed | ⟨other, failed⟩
    · exact .inl down
    · exact .inr (.inl closed)
    · refine .inr (.inr (.inr ⟨other, ?_, failed⟩))
      rintro rfl
      rw [idle] at failed
      cases failed

/-- A call of `send_to` has its number. -/
theorem Synced.sendTo (synced : Synced line) {thread : Thread} (frame : Frame)
    (idle : line.place thread = .idle) :
    Synced ({ line with calls := line.calls ++ [frame] }.goto thread
      (.waiting (.sendTo line.calls.length frame))) := by
  have mine : Function.update line.place thread (.waiting (.sendTo line.calls.length frame))
      thread = .waiting (.sendTo line.calls.length frame) := Function.update_self ..
  have theirs {other : Thread} (apart : other ≠ thread) :
      Function.update line.place thread (.waiting (.sendTo line.calls.length frame)) other =
        line.place other := Function.update_of_ne apart ..
  have older {call : Nat} {entry : Frame} (known : line.calls[call]? = some entry) :
      call < line.calls.length ∧ (line.calls ++ [frame])[call]? = some entry := by
    obtain ⟨below, -⟩ := List.getElem?_eq_some_iff.mp known
    exact ⟨below, (List.getElem?_append_left below).trans known⟩
  refine ⟨synced.wire, synced.once, ?_, ?_, ?_, ?_, ?_, ?_, synced.marked, ?_⟩
  · exact fun entry member => (older (synced.issued entry member)).2
  · intro other holds
    by_cases same : other = thread
    · subst other
      have waits : (Place.waiting (.sendTo line.calls.length frame)).Holds := mine ▸ holds
      exact waits.elim
    · exact synced.locked other (theirs same ▸ holds)
  · intro other call entry begun
    by_cases same : other = thread
    · subst other
      have new : (Place.waiting (.sendTo line.calls.length frame)).call = some (call, entry) :=
        mine ▸ begun
      cases new
      refine ⟨by simp [Line.goto], fun member => ?_⟩
      obtain ⟨old, listed, number⟩ := List.mem_map.mp member
      have below := (older (synced.issued old listed)).1
      omega
    · have before : (line.place other).call = some (call, entry) := theirs same ▸ begun
      obtain ⟨known, fresh⟩ := synced.pending other call entry before
      exact ⟨(older known).2, fresh⟩
  · intro first second call entry other begun also
    by_cases same : first = thread
    · by_cases both : second = thread
      · exact same.trans both.symm
      · subst first
        have new : (Place.waiting (.sendTo line.calls.length frame)).call = some (call, entry) :=
          mine ▸ begun
        cases new
        have before : (line.place second).call = some (line.calls.length, other) :=
          theirs both ▸ also
        exact absurd (older (synced.pending second _ _ before).1).1 (Nat.lt_irrefl _)
    · have before : (line.place first).call = some (call, entry) := theirs same ▸ begun
      by_cases both : second = thread
      · subst second
        have new : (Place.waiting (.sendTo line.calls.length frame)).call = some (call, other) :=
          mine ▸ also
        cases new
        exact absurd (older (synced.pending first _ _ before).1).1 (Nat.lt_irrefl _)
      · exact synced.distinct first second call entry other before (theirs both ▸ also)
  · intro call entry count found
    obtain ⟨short, known, fresh, writer⟩ := synced.further call entry count found
    refine ⟨short, (older known).2, fresh, fun whole => ?_⟩
    obtain ⟨other, writes⟩ := writer whole
    have apart : other ≠ thread := by
      rintro rfl
      rw [idle] at writes
      cases writes
    exact ⟨other, (theirs apart).trans writes⟩
  · intro other call entry off writes
    by_cases same : other = thread
    · subst other
      have waits : Place.waiting (.sendTo line.calls.length frame) = .writing call entry off :=
        mine.symm.trans writes
      cases waits
    · exact synced.writing other call entry off ((theirs same).symm.trans writes)
  · intro cut
    rcases synced.ended cut with down | closed | ⟨other, failed⟩
    · exact .inl down
    · exact .inr (.inl closed)
    · have apart : other ≠ thread := by
        rintro rfl
        rw [idle] at failed
        cases failed
      exact .inr (.inr ⟨other, (theirs apart).trans failed⟩)

theorem Synced.step (synced : Synced line) (action : Action Thread) :
    Synced (step line action) := by
  cases action with
  | sendTo thread frame =>
      simp only [ClientStream.step]
      split
      · rename_i idle
        exact synced.sendTo frame idle
      · exact synced
  | removeClient thread | stop thread =>
      simp only [ClientStream.step]
      split
      · rename_i idle
        exact synced.enter idle rfl
      · exact synced
  | thread thread event => exact synced.threadStep thread event

theorem run_synced (actions : List (Action Thread)) :
    Synced (run step ClientStream.initial actions) :=
  run_invariant (fun _ action synced => synced.step action) actions _ .initial

/-- After a failed write no step puts a byte on the wire. -/
theorem Synced.silent (synced : Synced line) (cut : line.cut = true) (action : Action Thread) :
    (ClientStream.step line action).wire = line.wire ∧
      (ClientStream.step line action).cut = true := by
  cases action with
  | sendTo thread frame | removeClient thread | stop thread =>
      simp only [ClientStream.step]
      split <;> exact ⟨rfl, cut⟩
  | thread thread event =>
      simp only [ClientStream.step]
      unfold Line.threadStep
      split
      case h_2 => split <;> exact ⟨rfl, cut⟩
      case h_6 call frame off here =>
        have holds := Line.holds_writing here
        obtain ⟨-, opened, -⟩ := synced.writing thread call frame off here
        have down : line.down = true := by
          apply (synced.shut holds (by simp [here]) cut).resolve_right
          simp [opened]
        rw [Line.writeStep, if_pos down]
        exact ⟨rfl, rfl⟩
      all_goals exact ⟨rfl, cut⟩

theorem Synced.silent_run (later : List (Action Thread)) (synced : Synced line)
    (cut : line.cut = true) : (run ClientStream.step line later).wire = line.wire := by
  induction later generalizing line with
  | nil => rfl
  | cons action rest ih =>
      obtain ⟨same, still⟩ := synced.silent cut action
      exact (ih (synced.step action) still).trans same

omit [DecidableEq Thread] in
/-- What is on the wire of a frame that fits does not parse until it is whole. -/
theorem Synced.tail_unparsed (synced : Synced line) (fit : ∀ frame ∈ line.calls, frame.Fits)
    (frame : Frame) (fits : frame.Fits) : ¬ frame.bytes <+: line.tail := by
  intro begins
  have bound : maxFrameBytes < 2 ^ 32 := by decide
  cases found : line.further with
  | none =>
      rw [Line.tail, found, List.prefix_nil] at begins
      have some := bufOf_pos frame
      rw [show bufOf frame = [] from begins] at some
      exact absurd some (Nat.lt_irrefl 0)
  | some entry =>
      obtain ⟨call, whole, count⟩ := entry
      obtain ⟨short, known, -⟩ := synced.further call whole count found
      have sized := fit whole (List.mem_of_getElem? known)
      have tail : line.tail = (bufOf whole).take count := by
        simp only [Line.tail, found]
      rw [tail] at begins
      have same := Frame.eq_of_prefix fits (sized.1.trans_lt bound) (sized.2.trans_lt bound)
        (begins.trans (List.take_prefix count (bufOf whole)))
      have shorter := begins.length_le
      rw [List.length_take] at shorter
      change (bufOf frame).length = (bufOf whole).length at same
      change (bufOf frame).length ≤ _ at shorter
      omega

/-- A client's stream has whole frames of different calls and at most one cut frame after them, and
nothing follows a failed write. A reader returns exactly the whole frames if and only if they fit
and no frame that fits is at the begin of what is on the wire of the further frame, which holds when
every frame that is sent fits. -/
theorem stream_in_sync (actions : List (Action Thread)) (script : List Recv)
    (clean : Recv.failed ∉ script) :
    let line := run step ClientStream.initial actions
    (line.wire = encodeAll (line.whole.map Prod.snd) ++ line.tail ∧
      (line.whole.map Prod.fst).Nodup ∧
      (∀ entry ∈ line.whole, line.calls[entry.1]? = some entry.2) ∧
      (∀ call frame count, line.further = some (call, frame, count) →
        count < (bufOf frame).length ∧ line.calls[call]? = some frame ∧
          call ∉ line.whole.map Prod.fst) ∧
      (line.cut = true → ∀ later, (run step line later).wire = line.wire)) ∧
    ((∀ frames, (FrameReader.open ⟨line.wire, script⟩).Reads frames ↔
        frames = line.whole.map Prod.snd) ↔
      (∀ entry ∈ line.whole, entry.2.Fits) ∧
        ∀ frame : Frame, frame.Fits → ¬ frame.bytes <+: line.tail) ∧
    ((∀ frame ∈ line.calls, frame.Fits) → (∀ entry ∈ line.whole, entry.2.Fits) ∧
      ∀ frame : Frame, frame.Fits → ¬ frame.bytes <+: line.tail) := by
  intro line
  have synced : Synced line := run_synced actions
  refine ⟨⟨synced.wire, synced.once, synced.issued, ?_, ?_⟩, ?_, ?_⟩
  · intro call frame count found
    obtain ⟨short, known, fresh, -⟩ := synced.further call frame count found
    exact ⟨short, known, fresh⟩
  · exact fun cut later => synced.silent_run later cut
  · have parsed (frames : List Frame) := (framing_exact line.wire script clean).1 frames
    have all : (∀ entry ∈ line.whole, entry.2.Fits) ↔
        ∀ frame ∈ line.whole.map Prod.snd, frame.Fits := List.forall_mem_map.symm
    rw [all, ← parseFrame_eq_none, ← parseAll_eq_iff, ← synced.wire]
    constructor
    · intro reads
      exact ((parsed _).mp ((reads _).mpr rfl)).symm
    · intro same frames
      rw [parsed, same]
  · intro fit
    refine ⟨fun entry member => ?_, synced.tail_unparsed fit⟩
    exact fit entry.2 (List.mem_of_getElem? (synced.issued entry member))

/-- A ping is written whole, and a second frame is cut after three bytes. -/
def smallRun : List (Action Unit) :=
  [.sendTo () (Msg.ping.frame [] [1, 0, 0, 0]), .thread () .failed, .thread () .failed,
    .thread () (.accepted 4), .thread () .interrupted, .thread () (.accepted 9),
    .thread () .failed, .sendTo () (Msg.kvDel.frame [107] []), .thread () .failed,
    .thread () .failed, .thread () (.accepted 3), .thread () .failed, .thread () .failed]

theorem stream_in_sync_small :
    (run step initial smallRun).whole = [(0, Msg.ping.frame [] [1, 0, 0, 0])] ∧
      (run step initial smallRun).cut = true ∧
      ∀ frames, (FrameReader.open ⟨(run step initial smallRun).wire, [.ready 1]⟩).Reads frames ↔
        frames = (run step initial smallRun).whole.map Prod.snd := by
  have parts := stream_in_sync smallRun [.ready 1] (by simp)
  refine ⟨by decide +kernel, by decide +kernel, parts.2.1.mpr (parts.2.2 ?_)⟩
  have sent : (run step initial smallRun).calls =
      [Msg.ping.frame [] [1, 0, 0, 0], Msg.kvDel.frame [107] []] := by decide +kernel
  rw [sent]
  simp [Frame.Fits, Msg.frame, maxFrameBytes]

/-- One thread sends one frame, and the socket accepts all of it. -/
def sendWhole (frame : Frame) : List (Action Unit) :=
  [.sendTo () frame, .thread () .failed, .thread () .failed,
    .thread () (.accepted (bufOf frame).length)]

theorem sendWhole_whole (frame : Frame) :
    (run step initial (sendWhole frame)).whole = [(0, frame)] ∧
      (run step initial (sendWhole frame)).further = none := by
  simp [run, sendWhole, step, initial, Line.threadStep, Line.writeStep, Line.goto]

/-- A reader rejects the reply to a get of the longest value that a set can store, which the daemon
has written whole. -/
theorem stream_out_of_sync :
    let reply := Msg.kvReply.frame [107] (answerPayload 1 true (List.replicate maxFrameBytes 0))
    let line := run step initial (sendWhole reply)
    line.whole = [(0, reply)] ∧
      ¬ ∀ frames, (FrameReader.open ⟨line.wire, []⟩).Reads frames ↔
        frames = line.whole.map Prod.snd := by
  intro reply line
  obtain ⟨whole, further⟩ := sendWhole_whole reply
  have synced : Synced line := run_synced (sendWhole reply)
  have written : line.wire = encodeAll [reply] ++ [] := by
    rw [synced.wire, Line.tail, further, whole]
    rfl
  refine ⟨whole, fun reads => ?_⟩
  have parsed := ((framing_exact line.wire [] (by simp)).1 _).mp ((reads _).mpr rfl)
  rw [written, whole] at parsed
  have fits := ((parseAll_eq_iff [reply] []).mp parsed.symm).1 reply List.mem_cons_self
  have long := fits.2
  rw [show reply.payload = answerPayload 1 true (List.replicate maxFrameBytes 0) from rfl,
    answerPayload_length, List.length_replicate] at long
  omega

end Chappe.ClientStream
