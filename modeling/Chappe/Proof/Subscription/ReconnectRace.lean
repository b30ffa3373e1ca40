/-
This file proves when a reconnect that races the calls of a node keeps its subscriptions.
-/

import Chappe.Proof.Subscription.Connection
import Chappe.Foundation.Run

namespace Chappe
open Foundation

variable {Actor Handler : Type}

/-- A call changes the entry of a topic only when no thread has the opposite frame of that topic
still to send. -/
def Threads.Settled (threads : Threads Actor Handler) : ThreadsAction Actor Handler → Prop
  | .subscribe _ topic _ =>
      topic ∉ threads.subs →
        ∀ other, Msg.unsubscribe.frame topic [] ∉ (threads.place other).frames
  | .unsubscribe _ topic =>
      topic ∈ threads.subs →
        ∀ other, Msg.subscribe.frame topic [] ∉ (threads.place other).frames
  | _ => True

/-- Every call has returned, the keys are sent again, and the daemon has read them. -/
structure Threads.Quiet (threads : Threads Actor Handler) : Prop where
  idle : ∀ actor, threads.place actor = .sending []
  up : threads.link.up = true
  drained : threads.link.queue threads.link.epoch = []

/-- The frames on their way agree with the table. -/
structure Consistent (threads : Threads Actor Handler) : Prop where
  sound : threads.link.Sound
  handled : Handled threads.subs
  shape : ∀ actor, ∀ frame ∈ (threads.place actor).frames,
    ∃ topic, frame = Msg.subscribe.frame topic [] ∧ topic ∈ threads.subs ∨
      frame = Msg.unsubscribe.frame topic [] ∧ topic ∉ threads.subs
  reached : threads.link.up = true → ∀ topic ∈ threads.subs,
    topic ∈ threads.link.expected ∨
      ∃ actor, threads.place actor = .resubscribing ∨
        Msg.subscribe.frame topic [] ∈ (threads.place actor).frames
  kept : threads.link.up = true → ∀ topic ∈ threads.link.expected,
    topic ∈ threads.subs ∨
      ∃ actor, Msg.unsubscribe.frame topic [] ∈ (threads.place actor).frames

theorem Consistent.initial : Consistent (Threads.initial : Threads Actor Handler) where
  sound := .initial
  handled := fun name handlers found => by simp [Threads.initial] at found
  shape := fun _ frame member => absurd member List.not_mem_nil
  reached := fun up => by cases up
  kept := fun up => by cases up

theorem subscribe_ne_unsubscribe (first second : Bytes) :
    Msg.subscribe.frame first [] ≠ Msg.unsubscribe.frame second [] := by
  intro same
  have kinds := congrArg Frame.msg same
  simp at kinds

theorem unsubscribe_injective {first second : Bytes}
    (same : Msg.unsubscribe.frame first [] = Msg.unsubscribe.frame second []) : first = second :=
  congrArg Frame.name same

theorem isIdle_iff (threads : Threads Actor Handler) (actor : Actor) :
    threads.isIdle actor = true ↔ threads.place actor = .sending [] := by
  unfold Threads.isIdle
  split
  · rename_i idle
    simp [idle]
  · rename_i busy
    simp only [Bool.false_eq_true, false_iff]
    exact busy

variable [DecidableEq Actor] {threads : Threads Actor Handler} {actor : Actor}

/-- A fact about the frames of every thread after one thread has moved. -/
theorem forall_place_update {property : Frame → Prop} {place : Place}
    (others : ∀ other, ∀ frame ∈ (threads.place other).frames, property frame)
    (here : ∀ frame ∈ place.frames, property frame) :
    ∀ other, ∀ frame ∈ (Function.update threads.place actor place other).frames,
      property frame := by
  intro other frame member
  by_cases same : other = actor
  · subst other
    rw [Function.update_self] at member
    exact here frame member
  · rw [Function.update_of_ne same] at member
    exact others other frame member

/-- A thread that has a property is still there after one thread has moved. -/
theorem exists_place_update (property : Place → Prop) {place : Place}
    (found : ∃ other, property (threads.place other))
    (moved : property (threads.place actor) → property place) :
    ∃ other, property (Function.update threads.place actor place other) := by
  obtain ⟨other, holds⟩ := found
  by_cases same : other = actor
  · subst other
    exact ⟨actor, by rw [Function.update_self]; exact moved holds⟩
  · exact ⟨other, by rw [Function.update_of_ne same]; exact holds⟩

/-- A subscription of a topic that is already in the table adds a handler. -/
theorem Consistent.addHandler (consistent : Consistent threads) (topic : Bytes) (handler : Handler)
    (idle : threads.place actor = .sending []) (known : topic ∈ threads.subs) :
    Consistent (threads.step (.subscribe actor topic handler)) := by
  have notFirst : (threads.subs.register topic handler).2 = false := by
    by_contra first
    exact (consistent.handled.first_iff topic handler).mp (by simpa using first) known
  have same (other : Bytes) : other ∈ (threads.subs.register topic handler).1 ↔
      other ∈ threads.subs := by
    simp only [Handlers.register, Finmap.mem_insert]
    constructor
    · rintro (rfl | before)
      · exact known
      · exact before
    · exact .inr
  have still : Function.update threads.place actor (.sending []) = threads.place := by
    rw [← idle, Function.update_eq_self]
  simp only [Threads.step, (isIdle_iff threads actor).mpr idle, if_true, notFirst,
    Bool.false_eq_true, if_false, still]
  refine ⟨consistent.sound, consistent.handled.register topic handler, ?_, ?_, ?_⟩
  · simp only [same]
    exact consistent.shape
  · simp only [same]
    exact consistent.reached
  · simp only [same]
    exact consistent.kept

/-- A subscription of a new topic has its frame to send. -/
theorem Consistent.addTopic (consistent : Consistent threads) (topic : Bytes) (handler : Handler)
    (idle : threads.place actor = .sending []) (fresh : topic ∉ threads.subs)
    (settled : ∀ other, Msg.unsubscribe.frame topic [] ∉ (threads.place other).frames) :
    Consistent (threads.step (.subscribe actor topic handler)) := by
  have first := (consistent.handled.first_iff topic handler).mpr fresh
  have member (other : Bytes) : other ∈ (threads.subs.register topic handler).1 ↔
      other = topic ∨ other ∈ threads.subs := by
    simp only [Handlers.register, Finmap.mem_insert]
  simp only [Threads.step, (isIdle_iff threads actor).mpr idle, if_true, first]
  refine ⟨consistent.sound, consistent.handled.register topic handler, ?_, ?_, ?_⟩
  · refine forall_place_update ?_ ?_
    · intro other frame among
      obtain ⟨name, ⟨rfl, inside⟩ | ⟨rfl, outside⟩⟩ := consistent.shape other frame among
      · exact ⟨name, .inl ⟨rfl, (member name).mpr (.inr inside)⟩⟩
      · refine ⟨name, .inr ⟨rfl, fun inside => ?_⟩⟩
        rcases (member name).mp inside with rfl | before
        · exact settled other among
        · exact outside before
    · intro frame among
      rw [List.mem_singleton.mp among]
      exact ⟨topic, .inl ⟨rfl, (member topic).mpr (.inl rfl)⟩⟩
  · intro up name inside
    rcases (member name).mp inside with rfl | before
    · refine .inr ⟨actor, .inr ?_⟩
      simp only [Function.update_self]
      exact List.mem_singleton_self _
    · refine (consistent.reached up name before).imp_right fun found => ?_
      refine exists_place_update (fun place => place = .resubscribing ∨
        Msg.subscribe.frame name [] ∈ place.frames) found ?_
      rw [idle]
      rintro (absurd | absurd) <;> cases absurd
  · intro up name held
    rcases consistent.kept up name held with inside | found
    · exact .inl ((member name).mpr (.inr inside))
    · refine .inr (exists_place_update (fun place =>
        Msg.unsubscribe.frame name [] ∈ place.frames) found ?_)
      rw [idle]
      intro absurd
      cases absurd

/-- An unsubscription erases the topic and has its frame to send. -/
theorem Consistent.removeTopic (consistent : Consistent threads) (topic : Bytes)
    (idle : threads.place actor = .sending []) (known : topic ∈ threads.subs)
    (settled : ∀ other, Msg.subscribe.frame topic [] ∉ (threads.place other).frames) :
    Consistent (threads.step (.unsubscribe actor topic)) := by
  simp only [Threads.step, (isIdle_iff threads actor).mpr idle, known, and_self, if_true]
  refine ⟨consistent.sound, consistent.handled.erase topic, ?_, ?_, ?_⟩
  · refine forall_place_update ?_ ?_
    · intro other frame among
      obtain ⟨name, ⟨rfl, inside⟩ | ⟨rfl, outside⟩⟩ := consistent.shape other frame among
      · refine ⟨name, .inl ⟨rfl, Finmap.mem_erase.mpr ⟨?_, inside⟩⟩⟩
        rintro rfl
        exact settled other among
      · exact ⟨name, .inr ⟨rfl, fun inside => outside (Finmap.mem_erase.mp inside).2⟩⟩
    · intro frame among
      rw [List.mem_singleton.mp among]
      exact ⟨topic, .inr ⟨rfl, Finmap.notMem_erase_self⟩⟩
  · intro up name inside
    refine (consistent.reached up name (Finmap.mem_erase.mp inside).2).imp_right fun found => ?_
    refine exists_place_update (fun place => place = .resubscribing ∨
      Msg.subscribe.frame name [] ∈ place.frames) found ?_
    rw [idle]
    rintro (absurd | absurd) <;> cases absurd
  · intro up name held
    rcases consistent.kept up name held with inside | found
    · by_cases same : name = topic
      · subst name
        refine .inr ⟨actor, ?_⟩
        simp only [Function.update_self]
        exact List.mem_singleton_self _
      · exact .inl (Finmap.mem_erase.mpr ⟨same, inside⟩)
    · refine .inr (exists_place_update (fun place =>
        Msg.unsubscribe.frame name [] ∈ place.frames) found ?_)
      rw [idle]
      intro absurd
      cases absurd

/-- A frame that is sent, or dropped while there is no link, agrees with the table. -/
theorem Consistent.sendFrame (consistent : Consistent threads) {frame : Frame}
    {rest : List Frame} (place : threads.place actor = .sending (frame :: rest)) :
    Consistent { threads with
      link := threads.link.send frame
      place := Function.update threads.place actor (.sending rest) } := by
  have shape := consistent.shape actor frame (by rw [place]; exact List.mem_cons_self)
  have later {other : Frame} (different : other ≠ frame)
      (among : other ∈ (threads.place actor).frames) : other ∈ rest := by
    rw [place] at among
    exact (List.mem_cons.mp among).resolve_left different
  refine ⟨consistent.sound.send frame, consistent.handled, ?_, ?_, ?_⟩
  · refine forall_place_update consistent.shape ?_
    intro other among
    exact consistent.shape actor other (by rw [place]; exact List.mem_cons_of_mem _ among)
  · intro up topic inside
    rw [Connection.send_up] at up
    simp only [Connection.expected_send up]
    by_cases mine : Msg.subscribe.frame topic [] = frame
    · subst frame
      exact .inl (Finset.mem_insert_self _ _)
    · rcases consistent.reached up topic inside with held | found
      · left
        obtain ⟨name, ⟨rfl, -⟩ | ⟨rfl, outside⟩⟩ := shape
        · exact Finset.mem_insert_of_mem held
        · refine Finset.mem_erase.mpr ⟨?_, held⟩
          rintro rfl
          exact outside inside
      · right
        refine exists_place_update (fun place => place = .resubscribing ∨
          Msg.subscribe.frame topic [] ∈ place.frames) found ?_
        rintro (busy | among)
        · rw [place] at busy
          cases busy
        · exact .inr (later mine among)
  · intro up topic held
    rw [Connection.send_up] at up
    simp only [Connection.expected_send up] at held
    obtain ⟨name, ⟨rfl, inside⟩ | ⟨rfl, outside⟩⟩ := shape
    · rcases Finset.mem_insert.mp held with rfl | before
      · exact .inl inside
      · refine (consistent.kept up topic before).imp_right fun found => ?_
        refine exists_place_update (fun place =>
          Msg.unsubscribe.frame topic [] ∈ place.frames) found ?_
        exact later (subscribe_ne_unsubscribe _ _).symm
    · obtain ⟨different, before⟩ := Finset.mem_erase.mp held
      refine (consistent.kept up topic before).imp_right fun found => ?_
      refine exists_place_update (fun place =>
        Msg.unsubscribe.frame topic [] ∈ place.frames) found ?_
      exact later fun same => different (unsubscribe_injective same)

/-- A new connection owes every topic to the thread that copies the keys. -/
theorem Consistent.connect (consistent : Consistent threads) (actor : Actor) :
    Consistent { threads with
      link := threads.link.connect
      place := Function.update threads.place actor .resubscribing } := by
  obtain ⟨sound, none⟩ := consistent.sound.connect
  refine ⟨sound, consistent.handled, ?_, ?_, ?_⟩
  · exact forall_place_update consistent.shape fun _ among => absurd among List.not_mem_nil
  · intro _ topic _
    exact .inr ⟨actor, .inl (Function.update_self ..)⟩
  · intro _ topic held
    simp only [none] at held
    exact absurd held (Finset.notMem_empty _)

/-- The copy of the keys has every topic of the table. -/
theorem Consistent.snapshot (consistent : Consistent threads) {order : List Bytes}
    (place : threads.place actor = .resubscribing)
    (listed : (order : Multiset Bytes) = threads.subs.keys.val) :
    Consistent { threads with
      place := Function.update threads.place actor
        (.sending (order.map fun topic => Msg.subscribe.frame topic [])) } := by
  have member (topic : Bytes) : topic ∈ order ↔ topic ∈ threads.subs := by
    rw [← Multiset.mem_coe, listed, Finset.mem_val, Finmap.mem_keys]
  refine ⟨consistent.sound, consistent.handled, ?_, ?_, ?_⟩
  · refine forall_place_update consistent.shape ?_
    intro frame among
    obtain ⟨topic, inside, rfl⟩ := List.mem_map.mp among
    exact ⟨topic, .inl ⟨rfl, (member topic).mp inside⟩⟩
  · intro _ topic inside
    refine .inr ⟨actor, .inr ?_⟩
    simp only [Function.update_self]
    exact List.mem_map.mpr ⟨topic, (member topic).mpr inside, rfl⟩
  · intro up topic held
    refine (consistent.kept up topic held).imp_right fun found => ?_
    refine exists_place_update (fun place =>
      Msg.unsubscribe.frame topic [] ∈ place.frames) found ?_
    rw [place]
    intro absurd
    cases absurd

/-- Every settled step keeps the frames in agreement with the table. -/
theorem Consistent.step (threads : Threads Actor Handler) (action : ThreadsAction Actor Handler)
    (consistent : Consistent threads) (settled : threads.Settled action) :
    Consistent (threads.step action) := by
  cases action with
  | subscribe actor topic handler =>
      by_cases idle : threads.isIdle actor = true
      · rw [isIdle_iff] at idle
        by_cases known : topic ∈ threads.subs
        · exact consistent.addHandler topic handler idle known
        · exact consistent.addTopic topic handler idle known (settled known)
      · simp only [Threads.step, if_neg idle]
        exact consistent
  | unsubscribe actor topic =>
      by_cases ready : threads.isIdle actor = true ∧ topic ∈ threads.subs
      · exact consistent.removeTopic topic ((isIdle_iff _ _).mp ready.1) ready.2 (settled ready.2)
      · simp only [Threads.step, if_neg ready]
        exact consistent
  | send actor =>
      simp only [Threads.step]
      split
      · rename_i place
        exact consistent.sendFrame place
      · exact consistent
  | drop actor =>
      simp only [Threads.step]
      split
      · exact ⟨consistent.sound.drop, consistent.handled, consistent.shape,
          (fun up => by cases up), (fun up => by cases up)⟩
      · exact consistent
  | connect actor =>
      simp only [Threads.step]
      split
      · exact consistent.connect actor
      · exact consistent
  | snapshot actor order =>
      simp only [Threads.step]
      split
      · rename_i place
        split
        · rename_i listed
          exact consistent.snapshot place listed
        · exact consistent
      · exact consistent
  | handle client =>
      obtain ⟨sound, same⟩ := consistent.sound.handle client
      refine ⟨sound, consistent.handled, consistent.shape, ?_, ?_⟩
      · intro up
        simp only [Threads.step, same]
        exact consistent.reached (by rwa [Threads.step, Connection.handle_up] at up)
      · intro up
        simp only [Threads.step, same]
        exact consistent.kept (by rwa [Threads.step, Connection.handle_up] at up)

/-- In every run whose calls are settled, a quiet node and the daemon agree on the topics. -/
theorem reconnect_agrees (actions : List (ThreadsAction Actor Handler))
    (settled : Meets Threads.step Threads.Settled Threads.initial actions)
    (quiet : (run Threads.step Threads.initial actions).Quiet) :
    (run Threads.step Threads.initial actions).link.tables.names
        (run Threads.step Threads.initial actions).link.epoch =
      (run Threads.step Threads.initial actions).subs.keys := by
  have consistent := run_invariant_of_meets Consistent.step actions _ Consistent.initial settled
  generalize run Threads.step Threads.initial actions = threads at *
  rw [Connection.names_of_drained quiet.drained]
  ext topic
  rw [Finmap.mem_keys]
  constructor
  · intro held
    rcases consistent.kept quiet.up topic held with inside | ⟨actor, among⟩
    · exact inside
    · rw [quiet.idle actor] at among
      cases among
  · intro inside
    rcases consistent.reached quiet.up topic inside with held | ⟨actor, busy | among⟩
    · exact held
    · rw [quiet.idle actor] at busy
      cases busy
    · rw [quiet.idle actor] at among
      cases among

/-- A node with the reader `2` and a subscription of the topic `[97]` by the thread `0`. -/
def subscribed : List (ThreadsAction (Fin 3) Unit) :=
  [.connect 0, .snapshot 0 [], .subscribe 0 [97] (), .send 0]

/-- The reader copies the topic after a reconnect, the thread `0` unsubscribes it, and the reader
sends its copy last. -/
def resurrected : List (ThreadsAction (Fin 3) Unit) :=
  subscribed ++ [.drop 2, .connect 2, .snapshot 2 [[97]], .unsubscribe 0 [97], .send 0, .send 2,
    .handle 2, .handle 2]

/-- The frames of an unsubscription and of a later subscription change their order. -/
def overtaken : List (ThreadsAction (Fin 3) Unit) :=
  subscribed ++ [.unsubscribe 0 [97], .subscribe 1 [97] (), .send 1, .send 0, .handle 1, .handle 1,
    .handle 1]

theorem reconnect_disagrees :
    (run Threads.step Threads.initial resurrected).Quiet ∧
    (run Threads.step Threads.initial resurrected).link.tables.names
      (run Threads.step Threads.initial resurrected).link.epoch = {[97]} ∧
    (run Threads.step Threads.initial resurrected).subs.keys = ∅ ∧
    (run Threads.step Threads.initial overtaken).Quiet ∧
    (run Threads.step Threads.initial overtaken).link.tables.names
      (run Threads.step Threads.initial overtaken).link.epoch = ∅ ∧
    (run Threads.step Threads.initial overtaken).subs.keys = {[97]} := by
  refine ⟨⟨?_, by decide, by decide⟩, by decide, by decide, ⟨?_, by decide, by decide⟩, by decide,
    by decide⟩
  · intro actor
    fin_cases actor <;> rfl
  · intro actor
    fin_cases actor <;> rfl

/-- The topic is unsubscribed before the reader copies the keys. -/
def unsubscribedInTime : List (ThreadsAction (Fin 3) Unit) :=
  subscribed ++ [.subscribe 1 [98] (), .send 1, .drop 2, .unsubscribe 0 [97], .connect 2,
    .snapshot 2 [[98]], .send 0, .send 2, .handle 2, .handle 2]

theorem reconnect_agrees_small :
    (run Threads.step Threads.initial unsubscribedInTime).subs.keys = {[98]} ∧
    (run Threads.step Threads.initial unsubscribedInTime).link.tables.names
        (run Threads.step Threads.initial unsubscribedInTime).link.epoch =
      (run Threads.step Threads.initial unsubscribedInTime).subs.keys := by
  refine ⟨by decide, reconnect_agrees unsubscribedInTime ?_ ⟨?_, by decide, by decide⟩⟩
  · refine ⟨True.intro, True.intro, ?_, True.intro, ?_, True.intro, True.intro, ?_, True.intro,
      True.intro, True.intro, True.intro, True.intro, True.intro, True.intro⟩
    all_goals
      intro _ other
      fin_cases other <;> decide
  · intro actor
    fin_cases actor <;> rfl

end Chappe
