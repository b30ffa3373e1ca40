/-
This file proves which calls of `_request` leave their identifier in `_pending`.
-/

import Chappe.Foundation.Census
import Chappe.Proof.Python.Pending

namespace Chappe.PythonRequests
open Foundation

/-- The thread is in a call of `_request`. -/
def Caller.Busy (caller : Caller) : Prop := caller.call.isSome = true

instance : DecidablePred Caller.Busy := fun caller =>
  inferInstanceAs (Decidable (caller.call.isSome = true))

variable {Thread : Type} {node : Node Thread} [DecidableEq Thread]

/-- The step ends the call, by a return or by a raise. -/
def Ends (node : Node Thread) (action : Action Thread) (call : Nat) : Prop :=
  ∃ thread written timeout, action = .thread thread written timeout ∧
    (node.caller thread).call = some call ∧
    ((node.threadStep thread written timeout).caller thread).call = none

/-- A call that ends has left no entry under its identifier. -/
def Unregistered (node : Node Thread) (action : Action Thread) : Prop :=
  ∀ call, Ends node action call → (step node action).pending.lookup (wireId call) = none

/-- The step raises out of the call: the wait times out without a result, or `struct.pack` refuses
the length of a request that is registered. -/
inductive Raises (node : Node Thread) : Action Thread → Nat → Prop where
  | timeout (thread : Thread) (call : Nat) (written : Bool)
      (here : node.caller thread = .waiting call) (unset : node.result call = none) :
      Raises node (.thread thread written true) call
  | packing (thread : Thread) (request : Request) (call : Nat) (written timeout : Bool)
      (here : node.caller thread = .parked request call)
      (long : requestFrame request call = none) :
      Raises node (.thread thread written timeout) call

/-- When a call raises, an earlier step has settled its identifier after its registration. When it
ends, the same holds for every other call in progress that is registered under the identifier. -/
def Timely (earlier : List (Action Thread)) (action : Action Thread) : Prop :=
  let node := run step initial earlier
  ∀ call, Ends node action call →
    (Raises node action call → Settled earlier call) ∧
    ∀ thread other, (node.caller thread).call = some other → other ∈ node.registered →
      wireId other = wireId call → other ≠ call → Settled earlier other

theorem goto_call (node : Node Thread) (thread : Thread) (place : Caller) :
    ((node.goto thread place).caller thread).call = place.call := by
  simp only [Node.goto, Function.update_self]

/-- A call ends with an outcome, and the step does nothing else. It raises or its future is set. -/
theorem threadStep_ends {thread : Thread} {written timeout : Bool} {call : Nat}
    (mine : (node.caller thread).call = some call)
    (ended : ((node.threadStep thread written timeout).caller thread).call = none) :
    (∃ outcome, node.threadStep thread written timeout = node.finish thread call outcome) ∧
      (Raises node (.thread thread written timeout) call ∨
        ∃ value, node.result call = some value) := by
  unfold Node.threadStep at ended ⊢
  split at ended
  case h_1 here =>
    rw [here] at mine
    cases mine
  case h_2 request number here =>
    rw [goto_call] at ended
    cases ended
  case h_3 request number here =>
    rw [here] at mine
    cases mine
    split at ended
    · rename_i long
      exact ⟨⟨_, rfl⟩, .inl (.packing thread request call written timeout here long)⟩
    · rw [goto_call] at ended
      split at ended
      all_goals cases ended
  case h_4 number here =>
    split at ended
    all_goals
      rw [goto_call] at ended
      cases ended
  case h_5 taken number here =>
    rw [goto_call] at ended
    cases ended
  case h_6 number here =>
    rw [here] at mine
    cases mine
    split at ended
    · rename_i value found
      exact ⟨⟨_, rfl⟩, .inr ⟨value, found⟩⟩
    · rename_i unset
      split at ended
      · rename_i late
        refine ⟨⟨_, if_pos late⟩, .inl ?_⟩
        rw [late]
        exact .timeout thread call written here unset
      · rw [here] at ended
        cases ended

/-- The step that ends a call leaves the table alone. -/
theorem ends_pending {action : Action Thread} {call : Nat} (ends : Ends node action call) :
    (step node action).pending = node.pending := by
  obtain ⟨thread, written, timeout, rfl, mine, ended⟩ := ends
  obtain ⟨⟨outcome, same⟩, -⟩ := threadStep_ends mine ended
  rw [step, same]
  rfl

/-- A call that leaves no entry behind ends in time. -/
theorem timely_of_unregistered {earlier : List (Action Thread)} {action : Action Thread}
    (unregistered : Unregistered (run step initial earlier) action) : Timely earlier action := by
  obtain ⟨numbered, linked, -⟩ := run_linked earlier
  set node := run step initial earlier
  intro call ends
  have gone : node.pending.lookup (wireId call) = none :=
    (congrArg (fun table => Finmap.lookup _ table) (ends_pending ends)).symm.trans
      (unregistered call ends)
  refine ⟨fun raises => ?_, fun thread other _ listed same _ => ?_⟩
  · have listed : call ∈ node.registered := by
      cases raises with
      | timeout thread _ _ here _ =>
          exact numbered.listed thread call (by simp [Caller.Past, node, here])
            (congrArg Caller.call here)
      | packing thread request _ _ _ here _ =>
          exact numbered.listed thread call (by simp [Caller.Past, node, here])
            (congrArg Caller.call here)
    exact linked.cleared call listed gone
  · exact linked.cleared other listed (same.symm ▸ gone)

/-- Every entry of the table has its thread. -/
def Owned (node : Node Thread) : Prop :=
  ∀ id call, node.pending.lookup id = some call →
    wireId call = id ∧ ∃ thread, (node.caller thread).call = some call

omit [DecidableEq Thread] in
/-- The table has at most one entry for each thread in a call. -/
theorem Owned.bounded [Fintype Thread] (owned : Owned node) :
    node.pending.keys.card ≤ census Caller.Busy node.caller := by
  have covered : node.pending.keys ⊆
      (Finset.univ.filter fun thread => (node.caller thread).Busy).image
        fun thread => wireId ((node.caller thread).call.getD 0) := by
    intro id listed
    rw [Finmap.mem_keys, Finmap.mem_iff] at listed
    obtain ⟨call, found⟩ := listed
    obtain ⟨rfl, thread, mine⟩ := owned id call found
    rw [Finset.mem_image]
    have busy : (node.caller thread).Busy := by
      rw [Caller.Busy, mine]
      rfl
    exact ⟨thread, Finset.mem_filter.mpr ⟨Finset.mem_univ thread, busy⟩,
      congrArg (fun call => wireId (call.getD 0)) mine⟩
  exact (Finset.card_le_card covered).trans Finset.card_image_le

omit [DecidableEq Thread] in
theorem Owned.initial : Owned (initial : Node Thread) := by
  simp [Owned, PythonRequests.initial]

omit [DecidableEq Thread] in
/-- A step that adds no entry and takes no thread out of its call. -/
theorem Owned.kept (owned : Owned node) {next : Node Thread}
    (fewer : ∀ id call, next.pending.lookup id = some call → node.pending.lookup id = some call)
    (caller : ∀ thread call, (node.caller thread).call = some call →
      (next.caller thread).call = some call) : Owned next := by
  intro id call found
  obtain ⟨same, thread, mine⟩ := owned id call (fewer id call found)
  exact ⟨same, thread, caller thread call mine⟩

omit [DecidableEq Thread] in
theorem Owned.pop (owned : Owned node) (number : Nat) : Owned (node.pop number) :=
  owned.kept (fun _ _ => lookup_erase_some) fun _ _ => id

omit [DecidableEq Thread] in
theorem Owned.setResult (owned : Owned node) (call : Nat) (value : Option Bytes) :
    Owned (node.setResult call value) := by
  obtain ⟨result, same⟩ := setResult_eq node call value
  rw [same]
  exact owned

omit [DecidableEq Thread] in
theorem Owned.readerStep (owned : Owned node) (chosen : Nat) (dialed : Bool) :
    Owned (node.readerStep chosen dialed) := by
  unfold Node.readerStep
  split
  case h_1 | h_2 => exact owned
  case h_3 id value here =>
    split
    · rename_i taken found
      exact owned.pop id
    · exact owned
  case h_4 taken value here => exact owned.setResult taken value
  case h_5 | h_8 | h_9 | h_10 => exact owned
  case h_6 => exact owned.kept (by simp) fun _ _ => id
  case h_7 left here =>
    split
    · rename_i taken found
      exact owned.setResult taken none
    · split
      · exact owned
      · exact owned

/-- A step of a call that goes on. -/
theorem Owned.goto (owned : Owned node) {thread : Thread} {place : Caller}
    (call : place.call = (node.caller thread).call) : Owned (node.goto thread place) := by
  refine owned.kept (fun _ _ => id) ?_
  intro other number mine
  by_cases same : other = thread
  · rw [same, goto_call, call, ← same]
    exact mine
  · simpa only [Node.goto, Function.update_of_ne same] using mine

theorem Owned.register (owned : Owned node) {thread : Thread} {request : Request} {call : Nat}
    (here : node.caller thread = .numbered request call) :
    Owned ({ node with
      pending := node.pending.insert (wireId call) call
      registered := call :: node.registered }.goto thread (.parked request call)) := by
  have moved : Owned (node.goto thread (.parked request call)) :=
    owned.goto (congrArg Caller.call here).symm
  intro id other found
  by_cases same : id = wireId call
  · subst id
    have mine : other = call := by
      have stored : (node.pending.insert (wireId call) call).lookup (wireId call) = some other :=
        found
      rw [Finmap.lookup_insert] at stored
      exact (Option.some.inj stored).symm
    subst mine
    exact ⟨rfl, thread, goto_call node thread _⟩
  · refine moved id other ?_
    have stored : (node.pending.insert (wireId call) call).lookup id = some other := found
    rwa [Finmap.lookup_insert_of_ne _ same] at stored

/-- The end of a call takes its thread and leaves no entry behind. -/
theorem Owned.finish (owned : Owned node) {thread : Thread} {call : Nat}
    (mine : (node.caller thread).call = some call)
    (unregistered : node.pending.lookup (wireId call) = none)
    (outcome : Except Error (Option Bytes)) : Owned (node.finish thread call outcome) := by
  intro id other found
  obtain ⟨rfl, owner, theirs⟩ := owned id other found
  refine ⟨rfl, owner, ?_⟩
  have apart : owner ≠ thread := by
    rintro rfl
    rw [mine] at theirs
    cases theirs
    rw [show node.pending.lookup (wireId call) = some call from found] at unregistered
    cases unregistered
  simpa only [Node.finish, Node.goto, Function.update_of_ne apart] using theirs

theorem Owned.threadStep (owned : Owned node) (thread : Thread) (written timeout : Bool)
    (unregistered : Unregistered node (.thread thread written timeout)) :
    Owned (node.threadStep thread written timeout) := by
  cases mine : (node.caller thread).call with
  | none =>
      have idle : node.caller thread = .idle := by
        cases place : node.caller thread with
        | idle => rfl
        | numbered _ _ | parked _ _ | releasing _ | setting _ _ | waiting _ =>
            rw [place] at mine
            cases mine
      rw [Node.threadStep, idle]
      exact owned
  | some call =>
      by_cases ended : ((node.threadStep thread written timeout).caller thread).call = none
      · have ends : Ends node (.thread thread written timeout) call :=
          ⟨thread, written, timeout, rfl, mine, ended⟩
        have gone := unregistered call ends
        rw [ends_pending ends] at gone
        obtain ⟨⟨outcome, same⟩, -⟩ := threadStep_ends mine ended
        rw [same]
        exact owned.finish mine gone outcome
      · unfold Node.threadStep at ended ⊢
        split at ended
        case h_1 => exact owned
        case h_2 request number here => exact owned.register here
        case h_3 request number here =>
          split at ended
          · exact absurd (goto_call ..) ended
          · apply owned.goto
            rw [here]
            split <;> rfl
        case h_4 number here =>
          split at ended
          · rename_i taken found
            exact (owned.pop (wireId number)).goto (congrArg Caller.call here).symm
          · exact owned.goto (congrArg Caller.call here).symm
        case h_5 taken number here =>
          obtain ⟨result, same⟩ := setResult_eq node taken none
          have kept := owned.setResult taken none
          rw [same] at kept ⊢
          exact kept.goto (congrArg Caller.call here).symm
        case h_6 number here =>
          split at ended
          · exact absurd (goto_call ..) ended
          · split at ended
            · exact absurd (goto_call ..) ended
            · rename_i early
              rw [if_neg early]
              exact owned

theorem Owned.step (owned : Owned node) {action : Action Thread}
    (unregistered : Unregistered node action) : Owned (step node action) := by
  cases action with
  | call thread request =>
      simp only [PythonRequests.step]
      split
      · rename_i idle
        refine owned.kept (fun _ _ => id) ?_
        intro other call mine
        by_cases same : other = thread
        · rw [same, idle] at mine
          cases mine
        · simpa only [Node.goto, Function.update_of_ne same] using mine
      · exact owned
  | thread thread written timeout => exact owned.threadStep thread written timeout unregistered
  | receive frame | hangUp | crash | closed =>
      simp only [PythonRequests.step]
      split <;> exact owned
  | reader chosen dialed => exact owned.readerStep chosen dialed
  | close => exact owned

/-- A call that ends in time leaves no entry behind. -/
theorem unregistered_of_timely {earlier : List (Action Thread)} {action : Action Thread}
    (owned : Owned (run step PythonRequests.initial earlier)) (timely : Timely earlier action) :
    Unregistered (run step PythonRequests.initial earlier) action := by
  obtain ⟨-, linked, handed⟩ := run_linked earlier
  intro call ends
  obtain ⟨raising, others⟩ := timely call ends
  rw [ends_pending ends]
  cases parked : (run step PythonRequests.initial earlier).pending.lookup (wireId call) with
  | none => rfl
  | some other =>
      obtain ⟨alike, listed, unsettled⟩ := linked.entry _ other parked
      obtain ⟨-, owner, inCall⟩ := owned _ other parked
      by_cases same : other = call
      · subst other
        obtain ⟨thread, written, timeout, rfl, mine, ended⟩ := ends
        rcases (threadStep_ends mine ended).2 with raises | ⟨value, found⟩
        · exact absurd (raising raises) unsettled
        · exact absurd (handed.result call value found) unsettled
      · exact absurd (others owner other inCall listed alike same) unsettled

/-- Every call of a run leaves `_pending` before it ends, and the table never has more entries than
there are calls, if and only if no call raises before an answer, the end of the link or a refused
frame has settled its identifier, and none ends while another one under its identifier is open and
not settled. -/
theorem unregistered_run_iff [Fintype Thread] (actions : List (Action Thread)) :
    Meets step (fun node action => Unregistered node action ∧
        (step node action).pending.keys.card ≤ census Caller.Busy (step node action).caller)
      PythonRequests.initial actions ↔
      ∀ earlier action later, actions = earlier ++ action :: later → Timely earlier action := by
  rw [Meets.iff_forall]
  constructor
  · intro met earlier action later same
    exact timely_of_unregistered (met earlier action later same).1
  · intro timely
    have owned (earlier : List (Action Thread)) : ∀ later, actions = earlier ++ later →
        Owned (run step PythonRequests.initial earlier) := by
      induction earlier using List.reverseRecOn with
      | nil => exact fun _ _ => .initial
      | append_singleton earlier action ih =>
          intro later same
          rw [List.append_assoc] at same
          have before := ih _ same
          rw [run_append]
          exact before.step (unregistered_of_timely before (timely earlier action later same))
    intro earlier action later same
    have before := owned earlier _ same
    have after := owned (earlier ++ [action]) later (by simpa using same)
    rw [run_append] at after
    exact ⟨unregistered_of_timely before (timely earlier action later same), after.bounded⟩

/-- A request that the daemon does not answer. -/
def unanswered : List (Action Unit) :=
  [.call () ⟨.ping, [], []⟩, .thread () false false, .thread () true false, .thread () false true]

/-- The identifier of a request that timed out stays in the table, and no call is in progress. -/
theorem timeout_leaks :
    let node := run step PythonRequests.initial unanswered
    node.outcome 1 = some (.error .timeoutError) ∧ node.pending.lookup (wireId 1) = some 1 ∧
      census Caller.Busy node.caller < node.pending.keys.card :=
  ⟨rfl, by decide +kernel, by decide +kernel⟩

end Chappe.PythonRequests
