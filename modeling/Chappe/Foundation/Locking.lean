/-
This file defines threads that take locks in the order of a rank, and proves that a thread that
waits for a lock always waits for one that can move.
-/

import Chappe.Foundation.Run
import Mathlib.Logic.Function.Basic
import Mathlib.Logic.Relation

namespace Chappe.Foundation

/-- How a thread holds a lock, and how it touches what the lock guards. -/
inductive Mode where
  | shared
  | exclusive
  deriving DecidableEq

/-- What the code of a thread does next. A thread that awaits needs a step of someone else. -/
inductive Instr (Lock Data Code : Type*) where
  | halt
  | await
  | lock (lock : Lock) (mode : Mode) (next : Code)
  | unlock (lock : Lock) (next : Code)
  | act (data : Data) (next : Code)

/-- The data and the code after the step, if it can be taken. -/
def Instr.outcome {Lock Data Code : Type*} (data : Data) :
    Instr Lock Data Code → Option (Data × Code)
  | .halt | .await => none
  | .lock _ _ next | .unlock _ next => some (data, next)
  | .act after next => some (after, next)

/-- Threads that share data and locks. -/
structure Threads (Thread Lock Data Code : Type*) where
  data : Data
  holders : Lock → List (Thread × Mode)
  code : Thread → Code

/-- The meaning of code and of the events from outside the threads. -/
structure Machine (Lock Data Code Choice Event : Type*) where
  decode : Choice → Data → Code → Instr Lock Data Code
  outside : Event → Data → Data

inductive ThreadAction (Thread Choice Event : Type*) where
  | go (thread : Thread) (choice : Choice)
  | outside (event : Event)

variable {Thread Lock Data Code Choice Event : Type*}

/-- Two threads may hold a lock at once only when both share it. -/
def Mode.Compatible (first second : Mode) : Prop := first = .shared ∧ second = .shared

instance (first second : Mode) : Decidable (first.Compatible second) :=
  inferInstanceAs (Decidable (_ ∧ _))

def Threads.Grants (state : Threads Thread Lock Data Code) (lock : Lock) (mode : Mode) : Prop :=
  ∀ holder ∈ state.holders lock, mode.Compatible holder.2

instance (state : Threads Thread Lock Data Code) (lock : Lock) (mode : Mode) :
    Decidable (state.Grants lock mode) := inferInstanceAs (Decidable (∀ _ ∈ _, _))

/-- The thread can take its next step. -/
def Machine.Enabled (machine : Machine Lock Data Code Choice Event)
    (state : Threads Thread Lock Data Code) (thread : Thread) (choice : Choice) : Prop :=
  match machine.decode choice state.data (state.code thread) with
  | .halt | .await => False
  | .lock lock mode _ => state.Grants lock mode
  | .unlock _ _ | .act _ _ => True

/-- The next step of the thread takes a lock that the other thread holds. -/
def Machine.Blocks (machine : Machine Lock Data Code Choice Event)
    (choice : Thread → Choice) (state : Threads Thread Lock Data Code)
    (other thread : Thread) : Prop :=
  ∃ lock mode next, machine.decode (choice thread) state.data (state.code thread) =
      .lock lock mode next ∧
    ∃ held, (other, held) ∈ state.holders lock ∧ ¬ mode.Compatible held

variable [DecidableEq Thread] [DecidableEq Lock]

def Machine.step (machine : Machine Lock Data Code Choice Event)
    (state : Threads Thread Lock Data Code) :
    ThreadAction Thread Choice Event → Threads Thread Lock Data Code
  | .outside event => { state with data := machine.outside event state.data }
  | .go thread choice =>
      match machine.decode choice state.data (state.code thread) with
      | .halt | .await => state
      | .lock lock mode next =>
          if state.Grants lock mode then
            { state with
              holders := Function.update state.holders lock
                ((thread, mode) :: state.holders lock)
              code := Function.update state.code thread next }
          else state
      | .unlock lock next =>
          { state with
            holders := Function.update state.holders lock
              ((state.holders lock).filter fun holder => holder.1 ≠ thread)
            code := Function.update state.code thread next }
      | .act data next =>
          { state with data := data, code := Function.update state.code thread next }

/-- Code that holds the given locks, the last one first, follows the order of the ranks. It takes
a lock only above those it holds, releases the last one, and awaits and halts without locks. -/
structure Discipline (machine : Machine Lock Data Code Choice Event) (rank : Lock → Nat)
    (follows : Thread → List (Lock × Mode) → Code → Prop) : Prop where
  halt : ∀ {choice data code thread held}, machine.decode choice data code = .halt →
    follows thread held code → held = []
  await : ∀ {choice data code thread held}, machine.decode choice data code = .await →
    follows thread held code → held = []
  lock : ∀ {choice data code thread held lock mode next},
    machine.decode choice data code = .lock lock mode next → follows thread held code →
      (∀ other ∈ held, rank other.1 < rank lock) ∧ follows thread ((lock, mode) :: held) next
  unlock : ∀ {choice data code thread held lock next},
    machine.decode choice data code = .unlock lock next → follows thread held code →
      ∃ mode rest, held = (lock, mode) :: rest ∧ follows thread rest next
  act : ∀ {choice data code thread held after next},
    machine.decode choice data code = .act after next → follows thread held code →
      follows thread held next

/-- The locks that a thread holds by its own code are those that it is a holder of. -/
structure Stacked (rank : Lock → Nat) (follows : Thread → List (Lock × Mode) → Code → Prop)
    (state : Threads Thread Lock Data Code) (thread : Thread) (held : List (Lock × Mode)) :
    Prop where
  follows : follows thread held (state.code thread)
  holds : ∀ lock mode, (lock, mode) ∈ held ↔ (thread, mode) ∈ state.holders lock
  descends : held.Pairwise fun upper lower => rank lower.1 < rank upper.1

/-- Every thread follows the order, and a lock is held by one thread or shared. -/
structure Orderly (rank : Lock → Nat) (follows : Thread → List (Lock × Mode) → Code → Prop)
    (state : Threads Thread Lock Data Code) : Prop where
  stacked : ∀ thread, ∃ held, Stacked rank follows state thread held
  exclusive : ∀ lock, ∀ first ∈ state.holders lock, ∀ second ∈ state.holders lock,
    first.1 ≠ second.1 → first.2.Compatible second.2

variable {machine : Machine Lock Data Code Choice Event} {rank : Lock → Nat}
  {follows : Thread → List (Lock × Mode) → Code → Prop} {state : Threads Thread Lock Data Code}
  {thread : Thread}

theorem Mode.Compatible.symm {first second : Mode} (compatible : first.Compatible second) :
    second.Compatible first := ⟨compatible.2, compatible.1⟩

omit [DecidableEq Thread] [DecidableEq Lock] in
/-- A change that leaves the code and the locks of a thread leaves what it holds. -/
theorem Stacked.same {held : List (Lock × Mode)} {next : Threads Thread Lock Data Code}
    (stacked : Stacked rank follows state thread held)
    (code : next.code thread = state.code thread)
    (holders : ∀ lock mode, (thread, mode) ∈ next.holders lock ↔
      (thread, mode) ∈ state.holders lock) : Stacked rank follows next thread held where
  follows := by
    rw [code]
    exact stacked.follows
  holds := fun lock mode => (stacked.holds lock mode).trans (holders lock mode).symm
  descends := stacked.descends

/-- A granted lock is held from then on. -/
theorem Orderly.lock (orderly : Orderly rank follows state) {held : List (Lock × Mode)}
    (stacked : Stacked rank follows state thread held) {lock : Lock} {mode : Mode} {next : Code}
    (granted : state.Grants lock mode) (above : ∀ other ∈ held, rank other.1 < rank lock)
    (goesOn : follows thread ((lock, mode) :: held) next) :
    Orderly rank follows { state with
      holders := Function.update state.holders lock ((thread, mode) :: state.holders lock)
      code := Function.update state.code thread next } := by
  have holders (name : Lock) (holder : Thread × Mode) :
      holder ∈ Function.update state.holders lock ((thread, mode) :: state.holders lock) name ↔
        (name = lock ∧ holder = (thread, mode)) ∨ holder ∈ state.holders name := by
    by_cases here : name = lock
    · subst name
      rw [Function.update_self, List.mem_cons]
      simp
    · rw [Function.update_of_ne here]
      simp [here]
  refine ⟨?_, ?_⟩
  · intro other
    by_cases same : other = thread
    · subst other
      refine ⟨(lock, mode) :: held, ?_, ?_, List.pairwise_cons.mpr ⟨above, stacked.descends⟩⟩
      · change follows thread _ (Function.update state.code thread next thread)
        rwa [Function.update_self]
      · intro name kind
        rw [List.mem_cons, Prod.mk.injEq, stacked.holds]
        refine Iff.trans ?_ (holders name (thread, kind)).symm
        rw [Prod.mk.injEq, eq_self, true_and]
    · obtain ⟨others, stacked⟩ := orderly.stacked other
      refine ⟨others, stacked.same (Function.update_of_ne same ..) ?_⟩
      intro name kind
      refine (holders name (other, kind)).trans ?_
      simp [same]
  · intro name first before second after different
    rcases (holders name first).mp before with ⟨rfl, rfl⟩ | old
    · rcases (holders name second).mp after with ⟨-, rfl⟩ | old
      · exact absurd rfl different
      · exact granted second old
    · rcases (holders name second).mp after with ⟨rfl, rfl⟩ | older
      · exact (granted first old).symm
      · exact orderly.exclusive name first old second older different

/-- A released lock is the last one that the thread has taken. -/
theorem Orderly.unlock (orderly : Orderly rank follows state) {rest : List (Lock × Mode)}
    {lock : Lock} {mode : Mode} {next : Code}
    (stacked : Stacked rank follows state thread ((lock, mode) :: rest))
    (goesOn : follows thread rest next) :
    Orderly rank follows { state with
      holders := Function.update state.holders lock
        ((state.holders lock).filter fun holder => holder.1 ≠ thread)
      code := Function.update state.code thread next } := by
  have holders (name : Lock) (holder : Thread × Mode) :
      holder ∈ Function.update state.holders lock
          ((state.holders lock).filter fun holder => holder.1 ≠ thread) name ↔
        holder ∈ state.holders name ∧ ¬ (name = lock ∧ holder.1 = thread) := by
    by_cases here : name = lock
    · subst name
      rw [Function.update_self, List.mem_filter]
      simp
    · rw [Function.update_of_ne here]
      simp [here]
  obtain ⟨lower, descends⟩ := List.pairwise_cons.mp stacked.descends
  refine ⟨?_, ?_⟩
  · intro other
    by_cases same : other = thread
    · subst other
      refine ⟨rest, ?_, ?_, descends⟩
      · change follows thread _ (Function.update state.code thread next thread)
        rwa [Function.update_self]
      · intro name kind
        refine Iff.trans ?_ (holders name (thread, kind)).symm
        rw [← stacked.holds, List.mem_cons, Prod.mk.injEq]
        constructor
        · intro member
          have below : rank name < rank lock := lower (name, kind) member
          exact ⟨.inr member, fun here => by simp [here.1] at below⟩
        · rintro ⟨⟨rfl, rfl⟩ | member, apart⟩
          · exact absurd ⟨rfl, rfl⟩ apart
          · exact member
    · obtain ⟨others, stacked⟩ := orderly.stacked other
      refine ⟨others, stacked.same (Function.update_of_ne same ..) ?_⟩
      intro name kind
      refine (holders name (other, kind)).trans ?_
      simp [same]
  · intro name first before second after different
    exact orderly.exclusive name first ((holders name first).mp before).1 second
      ((holders name second).mp after).1 different

/-- Every step keeps the threads in order. -/
theorem Orderly.step (discipline : Discipline machine rank follows)
    (orderly : Orderly rank follows state) (action : ThreadAction Thread Choice Event) :
    Orderly rank follows (machine.step state action) := by
  cases action with
  | outside event =>
      refine ⟨fun thread => ?_, orderly.exclusive⟩
      obtain ⟨held, stacked⟩ := orderly.stacked thread
      exact ⟨held, stacked.same rfl fun _ _ => Iff.rfl⟩
  | go thread choice =>
      obtain ⟨held, stacked⟩ := orderly.stacked thread
      simp only [Machine.step]
      split
      · exact orderly
      · exact orderly
      · rename_i decoded
        split
        · rename_i granted
          obtain ⟨above, goesOn⟩ := discipline.lock decoded stacked.follows
          exact orderly.lock stacked granted above goesOn
        · exact orderly
      · rename_i decoded
        obtain ⟨mode, rest, rfl, goesOn⟩ := discipline.unlock decoded stacked.follows
        exact orderly.unlock stacked goesOn
      · rename_i decoded
        have goesOn := discipline.act decoded stacked.follows
        refine ⟨fun other => ?_, orderly.exclusive⟩
        by_cases same : other = thread
        · subst other
          refine ⟨held, ?_, stacked.holds, stacked.descends⟩
          change follows thread _ (Function.update state.code thread _ thread)
          rwa [Function.update_self]
        · obtain ⟨others, stacked⟩ := orderly.stacked other
          exact ⟨others, stacked.same (Function.update_of_ne same ..) fun _ _ => Iff.rfl⟩

/-- A step that can be taken has the outcome of its instruction. -/
theorem step_enabled {choice : Choice} (enabled : machine.Enabled state thread choice) :
    ∃ after next,
      (machine.decode choice state.data (state.code thread)).outcome state.data =
        some (after, next) ∧
      (machine.step state (.go thread choice)).data = after ∧
      (machine.step state (.go thread choice)).code = Function.update state.code thread next := by
  unfold Machine.Enabled at enabled
  simp only [Machine.step]
  split at enabled
  · exact enabled.elim
  · exact enabled.elim
  · rename_i decoded
    rw [decoded]
    exact ⟨_, _, rfl, by simp only [if_pos enabled], by simp only [if_pos enabled]⟩
  · rename_i decoded
    rw [decoded]
    exact ⟨_, _, rfl, rfl, rfl⟩
  · rename_i decoded
    rw [decoded]
    exact ⟨_, _, rfl, rfl, rfl⟩

theorem step_idle {choice : Choice} (idle : ¬ machine.Enabled state thread choice) :
    machine.step state (.go thread choice) = state := by
  unfold Machine.Enabled at idle
  simp only [Machine.step]
  split at idle
  · rfl
  · rfl
  · exact if_neg idle
  · exact (idle True.intro).elim
  · exact (idle True.intro).elim

/-- A step of a thread leaves the locks that the others hold. -/
theorem step_holders_other {choice : Choice} {other : Thread} (different : other ≠ thread)
    (lock : Lock) (mode : Mode) :
    (other, mode) ∈ (machine.step state (.go thread choice)).holders lock ↔
      (other, mode) ∈ state.holders lock := by
  simp only [Machine.step]
  split
  · rfl
  · rfl
  · rename_i name kind next _
    split
    · by_cases here : lock = name
      · subst lock
        simp [different]
      · simp only [Function.update_of_ne here]
    · rfl
  · rename_i name next _
    by_cases here : lock = name
    · subst lock
      simp [different]
    · simp only [Function.update_of_ne here]
  · rfl

/-- A thread holds its locks until it releases them. -/
theorem step_holders_kept {choice : Choice} {lock : Lock} {mode : Mode}
    (holds : (thread, mode) ∈ state.holders lock)
    (keeps : ∀ next, machine.decode choice state.data (state.code thread) ≠ .unlock lock next) :
    (thread, mode) ∈ (machine.step state (.go thread choice)).holders lock := by
  simp only [Machine.step]
  split
  · exact holds
  · exact holds
  · rename_i name kind next _
    split
    · by_cases here : lock = name
      · subst lock
        simp [holds]
      · simpa only [Function.update_of_ne here] using holds
    · exact holds
  · rename_i name next decoded
    have here : lock ≠ name := fun same => keeps next (same ▸ decoded)
    simpa only [Function.update_of_ne here] using holds
  · exact holds

omit [DecidableEq Thread] [DecidableEq Lock]

/-- The thread takes the lock next. -/
def Machine.Wants (machine : Machine Lock Data Code Choice Event) (choice : Thread → Choice)
    (state : Threads Thread Lock Data Code) (thread : Thread) (lock : Lock) : Prop :=
  ∃ mode next, machine.decode (choice thread) state.data (state.code thread) =
    .lock lock mode next

variable {choice : Thread → Choice} {other : Thread} {lower upper : Lock}

/-- A thread that waits for a lock does not hold one of the same rank or above. -/
theorem Orderly.climbs (discipline : Discipline machine rank follows)
    (orderly : Orderly rank follows state) (blocks : machine.Blocks choice state other thread)
    (below : machine.Wants choice state thread lower)
    (above : machine.Wants choice state other upper) : rank lower < rank upper := by
  obtain ⟨lock, mode, next, decoded, kind, holds, -⟩ := blocks
  obtain ⟨_, _, wanted⟩ := below
  rw [decoded] at wanted
  obtain ⟨rfl, -, -⟩ := Instr.lock.inj wanted
  obtain ⟨_, _, climbing⟩ := above
  obtain ⟨held, stacked⟩ := orderly.stacked other
  exact (discipline.lock climbing stacked.follows).1 _ ((stacked.holds lock kind).mpr holds)

theorem blocked_wants (blocked : Relation.TransGen (machine.Blocks choice state) other thread) :
    ∃ lock, machine.Wants choice state thread lock := by
  obtain ⟨_, -, lock, mode, next, decoded, -⟩ := Relation.TransGen.tail'_iff.mp blocked
  exact ⟨lock, mode, next, decoded⟩

/-- The ranks of the wanted locks grow along a chain of waiting threads. -/
theorem Orderly.chain_climbs (discipline : Discipline machine rank follows)
    (orderly : Orderly rank follows state)
    (blocked : Relation.TransGen (machine.Blocks choice state) other thread)
    (below : machine.Wants choice state thread lower)
    (above : machine.Wants choice state other upper) : rank lower < rank upper := by
  induction blocked generalizing lower with
  | single blocks => exact orderly.climbs discipline blocks below above
  | tail before blocks ih =>
      obtain ⟨middle, wanted⟩ := blocked_wants before
      exact Nat.lt_trans (orderly.climbs discipline blocks below wanted) (ih wanted)

/-- No thread waits for itself, over any number of other threads. -/
theorem Orderly.acyclic (discipline : Discipline machine rank follows)
    (orderly : Orderly rank follows state) :
    ¬ Relation.TransGen (machine.Blocks choice state) thread thread := by
  intro cycle
  obtain ⟨lock, wanted⟩ := blocked_wants cycle
  exact Nat.lt_irrefl _ (orderly.chain_climbs discipline cycle wanted wanted)

/-- A thread that holds a lock can move, or waits for another lock. -/
theorem Orderly.holder_moves (discipline : Discipline machine rank follows)
    (orderly : Orderly rank follows state) {lock : Lock} {mode : Mode}
    (holds : (thread, mode) ∈ state.holders lock) :
    machine.Enabled state thread (choice thread) ∨
      ∃ next, machine.Wants choice state thread next ∧ rank lock < rank next := by
  obtain ⟨held, stacked⟩ := orderly.stacked thread
  have member := (stacked.holds lock mode).mpr holds
  unfold Machine.Enabled
  split
  · rename_i decoded
    rw [discipline.halt decoded stacked.follows] at member
    cases member
  · rename_i decoded
    rw [discipline.await decoded stacked.follows] at member
    cases member
  · rename_i next kind rest decoded
    exact .inr ⟨next, ⟨kind, rest, decoded⟩, (discipline.lock decoded stacked.follows).1 _ member⟩
  · exact .inl True.intro
  · exact .inl True.intro

/-- A thread that waits for a lock waits, over some others, for a holder of a lock that can take
its next step. -/
theorem Orderly.waits_for_mover (discipline : Discipline machine rank follows)
    (orderly : Orderly rank follows state) {top : Nat} (bounded : ∀ lock, rank lock ≤ top) :
    ∀ {thread : Thread} {lock : Lock}, machine.Wants choice state thread lock →
      ¬ machine.Enabled state thread (choice thread) →
      ∃ other, Relation.TransGen (machine.Blocks choice state) other thread ∧
        machine.Enabled state other (choice other) ∧
        ∃ held mode, (other, mode) ∈ state.holders held ∧ rank lock ≤ rank held := by
  intro thread lock
  induction room : top - rank lock using Nat.strong_induction_on generalizing thread lock with
  | _ room ih =>
      rintro ⟨mode, next, decoded⟩ refused
      have busy : ¬ state.Grants lock mode := by
        simpa only [Machine.Enabled, decoded] using refused
      unfold Threads.Grants at busy
      push Not at busy
      obtain ⟨⟨other, kind⟩, holds, incompatible⟩ := busy
      have blocks : machine.Blocks choice state other thread :=
        ⟨lock, mode, next, decoded, kind, holds, incompatible⟩
      by_cases moves : machine.Enabled state other (choice other)
      · exact ⟨other, .single blocks, moves, lock, kind, holds, Nat.le_refl _⟩
      · obtain ⟨upper, wanted, above⟩ :=
          (orderly.holder_moves discipline holds).resolve_left moves
        have bound := bounded upper
        obtain ⟨last, chain, moves, held, kind, holds, higher⟩ :=
          ih (top - rank upper) (by omega) rfl wanted moves
        exact ⟨last, chain.tail blocks, moves, held, kind, holds, by omega⟩

/-- A thread that awaits a step of someone else holds no lock. -/
theorem Orderly.awaits_free (discipline : Discipline machine rank follows)
    (orderly : Orderly rank follows state) {made : Choice}
    (awaits : machine.decode made state.data (state.code thread) = .await) (lock : Lock)
    (mode : Mode) : (thread, mode) ∉ state.holders lock := by
  obtain ⟨held, stacked⟩ := orderly.stacked thread
  rw [← stacked.holds, discipline.await awaits stacked.follows]
  exact List.not_mem_nil

/-- When no thread can move, no lock is held, and every thread has ended or awaits something. -/
theorem Orderly.stuck (discipline : Discipline machine rank follows)
    (orderly : Orderly rank follows state) {top : Nat} (bounded : ∀ lock, rank lock ≤ top)
    (stuck : ∀ thread, ¬ machine.Enabled state thread (choice thread)) (thread : Thread) :
    (∀ lock mode, (thread, mode) ∉ state.holders lock) ∧
      (machine.decode (choice thread) state.data (state.code thread) = .halt ∨
        machine.decode (choice thread) state.data (state.code thread) = .await) := by
  have free {lock : Lock} (wanted : machine.Wants choice state thread lock) : False := by
    obtain ⟨other, -, moves, -⟩ :=
      orderly.waits_for_mover discipline bounded wanted (stuck thread)
    exact stuck other moves
  refine ⟨fun lock mode holds => ?_, ?_⟩
  · rcases orderly.holder_moves discipline holds with moves | ⟨next, wanted, -⟩
    · exact stuck thread moves
    · exact free wanted
  · have idle := stuck thread
    unfold Machine.Enabled at idle
    split at idle
    · rename_i decoded
      exact .inl decoded
    · rename_i decoded
      exact .inr decoded
    · rename_i lock mode next decoded
      exact (free ⟨mode, next, decoded⟩).elim
    · exact (idle True.intro).elim
    · exact (idle True.intro).elim

end Chappe.Foundation
