/-
This file proves what the table `_pending` holds: the newest registration of each identifier, until
an answer, the end of the link or a refused frame settles it.
-/

import Chappe.Construction.PythonRequests
import Chappe.Foundation.Run
import Mathlib.Tactic

namespace Chappe.PythonRequests
open Foundation

variable {Thread : Type} {node next : Node Thread} {settled later : Nat → Prop}

/-- The reader processes an answer with the identifier or the end of the link, or a sender gives up
a frame that the socket has refused. -/
inductive Settles (node : Node Thread) : Action Thread → Nat → Prop where
  | answer (id : Nat) (value : Option Bytes) (chosen : Nat) (dialed : Bool)
      (here : node.reader = .fulfilling id value) : Settles node (.reader chosen dialed) id
  | teardown (id chosen : Nat) (dialed : Bool) (here : node.reader = .clearing) :
      Settles node (.reader chosen dialed) id
  | refused (thread : Thread) (call : Nat) (written timeout : Bool)
      (here : node.caller thread = .releasing call) :
      Settles node (.thread thread written timeout) (wireId call)

/-- The table holds the calls that are registered and not settled, each under its identifier. -/
structure Linked (settled : Nat → Prop) (node : Node Thread) : Prop where
  entry : ∀ id call, node.pending.lookup id = some call →
    wireId call = id ∧ call ∈ node.registered ∧ ¬ settled call
  cleared : ∀ call ∈ node.registered, node.pending.lookup (wireId call) = none → settled call
  known : ∀ call, settled call → call ∈ node.registered

theorem Linked.initial : Linked (fun _ => False) (initial : Node Thread) where
  entry := by simp [PythonRequests.initial]
  cleared := by simp [PythonRequests.initial]
  known := by simp

/-- The table loses the identifiers that are settled, and no others. -/
structure Shrinks (node next : Node Thread) (settles : Nat → Prop) : Prop where
  registered : next.registered = node.registered
  gone : ∀ id, settles id → next.pending.lookup id = none
  kept : ∀ id, ¬ settles id → next.pending.lookup id = node.pending.lookup id

theorem Shrinks.still {settles : Nat → Prop} (registered : next.registered = node.registered)
    (pending : next.pending = node.pending) (never : ∀ id, ¬ settles id) :
    Shrinks node next settles :=
  ⟨registered, fun id now => absurd now (never id), fun _ _ => by rw [pending]⟩

/-- A settled identifier settles all calls that are registered under it. -/
theorem Linked.shrink {settles : Nat → Prop} (linked : Linked settled node)
    (shrinks : Shrinks node next settles) :
    Linked (fun call => settled call ∨ call ∈ node.registered ∧ settles (wireId call)) next where
  entry id call found := by
    have remains : ¬ settles id := by
      intro now
      rw [shrinks.gone id now] at found
      cases found
    rw [shrinks.kept id remains] at found
    obtain ⟨rfl, listed, unsettled⟩ := linked.entry id call found
    refine ⟨rfl, by rwa [shrinks.registered], ?_⟩
    rintro (before | ⟨-, now⟩)
    · exact unsettled before
    · exact remains now
  cleared call listed none := by
    rw [shrinks.registered] at listed
    by_cases now : settles (wireId call)
    · exact .inr ⟨listed, now⟩
    · rw [shrinks.kept _ now] at none
      exact .inl (linked.cleared call listed none)
  known call := by
    rw [shrinks.registered]
    rintro (before | ⟨listed, -⟩)
    · exact linked.known call before
    · exact listed

/-- The method `_register` parks a future under an identifier. -/
theorem Linked.register {call : Nat} (linked : Linked settled node)
    (fresh : call ∉ node.registered) (registered : next.registered = call :: node.registered)
    (pending : next.pending = node.pending.insert (wireId call) call) : Linked settled next where
  entry id other found := by
    rw [pending] at found
    rw [registered]
    by_cases same : id = wireId call
    · subst id
      rw [Finmap.lookup_insert] at found
      obtain rfl := Option.some.inj found
      exact ⟨rfl, List.mem_cons_self, fun before => fresh (linked.known _ before)⟩
    · rw [Finmap.lookup_insert_of_ne _ same] at found
      obtain ⟨here, listed, unsettled⟩ := linked.entry id other found
      exact ⟨here, List.mem_cons_of_mem _ listed, unsettled⟩
  cleared other listed none := by
    rw [pending] at none
    rw [registered] at listed
    by_cases same : wireId other = wireId call
    · rw [same, Finmap.lookup_insert] at none
      cases none
    · rw [Finmap.lookup_insert_of_ne _ same] at none
      rcases List.mem_cons.mp listed with rfl | before
      · exact absurd rfl same
      · exact linked.cleared other before none
  known other before := by
    rw [registered]
    exact List.mem_cons_of_mem _ (linked.known other before)

theorem lookup_erase_some {pending : Pending} {id other call : Nat}
    (found : (pending.erase id).lookup other = some call) : pending.lookup other = some call := by
  by_cases same : other = id
  · rw [same, Finmap.lookup_erase] at found
    cases found
  · rwa [Finmap.lookup_erase_ne same] at found

theorem setResult_eq (node : Node Thread) (call : Nat) (value : Option Bytes) :
    ∃ result, node.setResult call value = { node with result := result } := by
  unfold Node.setResult
  split
  · exact ⟨_, rfl⟩
  · exact ⟨node.result, rfl⟩

/-- The reader settles the identifier of an answer, and all of them when the link ends. -/
theorem readerStep_shrinks (node : Node Thread) (chosen : Nat) (dialed : Bool) :
    Shrinks node (node.readerStep chosen dialed) (Settles node (.reader chosen dialed)) := by
  have quiet (next : Node Thread) (registered : next.registered = node.registered)
      (pending : next.pending = node.pending)
      (answering : ∀ id value, node.reader ≠ .fulfilling id value)
      (tearing : node.reader ≠ .clearing) :
      Shrinks node next (Settles node (.reader chosen dialed)) := by
    refine .still registered pending fun id settles => ?_
    cases settles with
    | answer _ value _ _ here => exact answering id value here
    | teardown _ _ _ here => exact tearing here
  unfold Node.readerStep
  split
  case h_1 here | h_2 here => exact quiet node rfl rfl (by simp [here]) (by simp [here])
  case h_3 id value here =>
    have only (other : Nat) (settles : Settles node (.reader chosen dialed) other) :
        other = id := by
      cases settles with
      | answer _ value _ _ there =>
          rw [here] at there
          cases there
          rfl
      | teardown _ _ _ there =>
          rw [here] at there
          cases there
    have this := Settles.answer id value chosen dialed here
    split
    · refine ⟨rfl, fun other settles => ?_, fun other remains => ?_⟩
      · rw [only other settles]
        exact Finmap.lookup_erase id node.pending
      · exact Finmap.lookup_erase_ne fun same => remains (same ▸ this)
    · rename_i none
      exact ⟨rfl, fun other settles => only other settles ▸ none, fun _ _ => rfl⟩
  case h_4 taken value here =>
    obtain ⟨result, same⟩ := setResult_eq node taken value
    rw [same]
    exact quiet _ rfl rfl (by simp [here]) (by simp [here])
  case h_5 here | h_8 here | h_9 here | h_10 here =>
    exact quiet _ rfl rfl (by simp [here]) (by simp [here])
  case h_6 here =>
    refine ⟨rfl, fun _ _ => Finmap.lookup_empty _, fun id remains => ?_⟩
    exact absurd (.teardown id chosen dialed here) remains
  case h_7 left here =>
    split
    · rename_i taken _
      obtain ⟨result, same⟩ := setResult_eq node taken none
      rw [same]
      exact quiet _ rfl rfl (by simp [here]) (by simp [here])
    · split
      · exact quiet _ rfl rfl (by simp [here]) (by simp [here])
      · exact quiet _ rfl rfl (by simp [here]) (by simp [here])

variable [DecidableEq Thread]

/-- A sender settles its identifier when the socket has refused its frame. -/
theorem threadStep_shrinks {thread : Thread} {written timeout : Bool}
    (entered : ∀ request call, node.caller thread ≠ .numbered request call) :
    Shrinks node (node.threadStep thread written timeout)
      (Settles node (.thread thread written timeout)) := by
  have quiet (next : Node Thread) (registered : next.registered = node.registered)
      (pending : next.pending = node.pending)
      (sent : ∀ call, node.caller thread ≠ .releasing call) :
      Shrinks node next (Settles node (.thread thread written timeout)) := by
    refine .still registered pending fun id settles => ?_
    cases settles with
    | refused _ call _ _ here => exact sent call here
  unfold Node.threadStep
  split
  case h_1 here => exact quiet node rfl rfl (by simp [here])
  case h_2 request call here => exact absurd here (entered request call)
  case h_3 request call here =>
    split
    · exact quiet _ rfl rfl (by simp [here])
    · exact quiet _ rfl rfl (by simp [here])
  case h_4 call here =>
    have only (other : Nat) (settles : Settles node (.thread thread written timeout) other) :
        other = wireId call := by
      cases settles with
      | refused _ _ _ _ there =>
          rw [here] at there
          cases there
          rfl
    have this := Settles.refused thread call written timeout here
    split
    · refine ⟨rfl, fun other settles => ?_, fun other remains => ?_⟩
      · rw [only other settles]
        exact Finmap.lookup_erase (wireId call) node.pending
      · exact Finmap.lookup_erase_ne fun same => remains (same ▸ this)
    · rename_i none
      exact ⟨rfl, fun other settles => only other settles ▸ none, fun _ _ => rfl⟩
  case h_5 taken call here =>
    obtain ⟨result, same⟩ := setResult_eq node taken none
    rw [same]
    exact quiet _ rfl rfl (by simp [here])
  case h_6 call here =>
    split
    · exact quiet _ rfl rfl (by simp [here])
    · split
      · exact quiet _ rfl rfl (by simp [here])
      · exact quiet node rfl rfl (by simp [here])

/-- A step registers a call, or the table loses the identifiers that the step settles. -/
theorem step_shrinks (node : Node Thread) (action : Action Thread)
    (entered : ∀ thread written timeout request call,
      action = .thread thread written timeout → node.caller thread ≠ .numbered request call) :
    Shrinks node (step node action) (Settles node action) := by
  cases action with
  | call thread request =>
      simp only [step]
      split
      · exact .still rfl rfl fun _ settles => by cases settles
      · exact .still rfl rfl fun _ settles => by cases settles
  | thread thread written timeout =>
      exact threadStep_shrinks fun request call =>
        entered thread written timeout request call rfl
  | receive frame | hangUp | crash | closed =>
      simp only [step]
      split
      · exact .still rfl rfl fun _ settles => by cases settles
      · exact .still rfl rfl fun _ settles => by cases settles
  | reader chosen dialed => exact readerStep_shrinks node chosen dialed
  | close => exact .still rfl rfl fun _ settles => by cases settles

/-- The thread is not about to register its call. -/
def Caller.Past (caller : Caller) : Prop := ∀ request call, caller ≠ .numbered request call

/-- A thread stays, leaves its call or goes on in it after the registration. -/
def Caller.Onward (before after : Caller) : Prop :=
  after = before ∨ after = .idle ∨ (after.call = before.call ∧ before.Past ∧ after.Past)

/-- Each call has its own number, and it is registered once its thread is past the registration. -/
structure Numbered (node : Node Thread) : Prop where
  fresh : ∀ thread request call, node.caller thread = .numbered request call →
    call ∉ node.registered
  listed : ∀ thread call, (node.caller thread).Past → (node.caller thread).call = some call →
    call ∈ node.registered
  below : ∀ call ∈ node.registered, call < node.ids
  inside : ∀ thread call, (node.caller thread).call = some call → call < node.ids
  distinct : ∀ thread other call, (node.caller thread).call = some call →
    (node.caller other).call = some call → thread = other

omit [DecidableEq Thread] in
theorem Numbered.initial : Numbered (initial : Node Thread) := by
  constructor <;> simp [PythonRequests.initial, Caller.call]

omit [DecidableEq Thread] in
/-- A step that neither starts nor registers a call. -/
theorem Numbered.kept (numbered : Numbered node) (registered : next.registered = node.registered)
    (ids : next.ids = node.ids)
    (onward : ∀ thread, (node.caller thread).Onward (next.caller thread)) : Numbered next := by
  have called (thread : Thread) (call : Nat) (here : (next.caller thread).call = some call) :
      (node.caller thread).call = some call := by
    rcases onward thread with same | idle | ⟨same, -, -⟩
    · rwa [same] at here
    · rw [idle] at here
      cases here
    · rwa [same] at here
  refine ⟨?_, ?_, ?_, ?_, ?_⟩
  · intro thread request call here
    rw [registered]
    rcases onward thread with same | idle | ⟨-, -, past⟩
    · exact numbered.fresh thread request call (same ▸ here)
    · rw [idle] at here
      cases here
    · exact absurd here (past request call)
  · intro thread call past here
    rw [registered]
    refine numbered.listed thread call ?_ (called thread call here)
    rcases onward thread with same | idle | ⟨-, before, -⟩
    · rwa [same] at past
    · rw [idle] at here
      cases here
    · exact before
  · rw [registered, ids]
    exact numbered.below
  · intro thread call here
    rw [ids]
    exact numbered.inside thread call (called thread call here)
  · intro thread other call here there
    exact numbered.distinct thread other call (called thread call here) (called other call there)

theorem Numbered.goto (numbered : Numbered node) {thread : Thread} {place : Caller}
    (registered : next.registered = node.registered) (ids : next.ids = node.ids)
    (caller : next.caller = Function.update node.caller thread place)
    (onward : (node.caller thread).Onward place) : Numbered next := by
  refine numbered.kept registered ids fun other => ?_
  rw [caller]
  by_cases same : other = thread
  · subst other
    rwa [Function.update_self]
  · exact .inl (Function.update_of_ne same ..)

/-- A new call takes the next number. -/
theorem Numbered.call (numbered : Numbered node) (thread : Thread) (request : Request) :
    Numbered ({ node with ids := node.ids + 1 }.goto thread (.numbered request node.ids)) where
  fresh other later call here := by
    simp only [Node.goto] at here ⊢
    by_cases same : other = thread
    · rw [same, Function.update_self] at here
      cases here
      exact fun listed => Nat.lt_irrefl _ (numbered.below _ listed)
    · rw [Function.update_of_ne same] at here
      exact numbered.fresh other later call here
  listed other call past here := by
    simp only [Node.goto] at past here ⊢
    by_cases same : other = thread
    · rw [same, Function.update_self] at past
      exact absurd rfl (past request node.ids)
    · rw [Function.update_of_ne same] at past here
      exact numbered.listed other call past here
  below call listed := (numbered.below call listed).trans (Nat.lt_succ_self _)
  inside other call here := by
    simp only [Node.goto] at here ⊢
    by_cases same : other = thread
    · rw [same, Function.update_self] at here
      cases here
      exact Nat.lt_succ_self _
    · rw [Function.update_of_ne same] at here
      exact (numbered.inside other call here).trans (Nat.lt_succ_self _)
  distinct first second call here there := by
    simp only [Node.goto] at here there
    by_cases mine : first = thread
    · by_cases also : second = thread
      · exact mine.trans also.symm
      · rw [mine, Function.update_self] at here
        rw [Function.update_of_ne also] at there
        cases here
        exact absurd (numbered.inside second _ there) (Nat.lt_irrefl _)
    · by_cases also : second = thread
      · rw [also, Function.update_self] at there
        rw [Function.update_of_ne mine] at here
        cases there
        exact absurd (numbered.inside first _ here) (Nat.lt_irrefl _)
      · rw [Function.update_of_ne mine] at here
        rw [Function.update_of_ne also] at there
        exact numbered.distinct first second call here there

theorem Numbered.register (numbered : Numbered node) {thread : Thread} {request : Request}
    {call : Nat} (here : node.caller thread = .numbered request call) :
    Numbered ({ node with
      pending := node.pending.insert (wireId call) call
      registered := call :: node.registered }.goto thread (.parked request call)) := by
  have mine : (node.caller thread).call = some call := congrArg Caller.call here
  have moved (other : Thread) :
      (Function.update node.caller thread (.parked request call) other).call =
        (node.caller other).call := by
    by_cases same : other = thread
    · rw [same, Function.update_self, mine]
      rfl
    · rw [Function.update_of_ne same]
  refine ⟨?_, ?_, ?_, ?_, ?_⟩
  · intro other later number there listed
    simp only [Node.goto] at there listed
    by_cases same : other = thread
    · rw [same, Function.update_self] at there
      cases there
    · rw [Function.update_of_ne same] at there
      rcases List.mem_cons.mp listed with rfl | before
      · exact same (numbered.distinct other thread number (congrArg Caller.call there) mine)
      · exact numbered.fresh other later number there before
  · intro other number past there
    have same := (moved other).symm.trans there
    simp only [Node.goto] at past ⊢
    by_cases own : other = thread
    · rw [own, mine] at same
      exact Option.some.inj same ▸ List.mem_cons_self
    · rw [Function.update_of_ne own] at past
      exact List.mem_cons_of_mem _ (numbered.listed other number past same)
  · intro other listed
    rcases List.mem_cons.mp listed with rfl | before
    · exact numbered.inside thread other mine
    · exact numbered.below other before
  · intro other number there
    exact numbered.inside other number ((moved other).symm.trans there)
  · intro first second number there also
    exact numbered.distinct first second number ((moved first).symm.trans there)
      ((moved second).symm.trans also)

theorem Numbered.threadStep (numbered : Numbered node) (thread : Thread)
    (written timeout : Bool) : Numbered (node.threadStep thread written timeout) := by
  unfold Node.threadStep
  split
  case h_1 => exact numbered
  case h_2 request call here => exact numbered.register here
  case h_3 request call here =>
    split
    · exact numbered.goto rfl rfl rfl (.inr (.inl rfl))
    · refine numbered.goto rfl rfl rfl (.inr (.inr ⟨?_, by simp [Caller.Past, here], ?_⟩))
      · rw [here]
        split <;> rfl
      · split <;> simp [Caller.Past]
  case h_4 call here =>
    split
    · exact numbered.goto rfl rfl rfl
        (.inr (.inr ⟨by simp [here, Caller.call], by simp [Caller.Past, here],
          by simp [Caller.Past]⟩))
    · exact numbered.goto rfl rfl rfl
        (.inr (.inr ⟨by simp [here, Caller.call], by simp [Caller.Past, here],
          by simp [Caller.Past]⟩))
  case h_5 taken call here =>
    obtain ⟨result, same⟩ := setResult_eq node taken none
    rw [same]
    exact numbered.goto rfl rfl rfl
      (.inr (.inr ⟨by simp [here, Caller.call], by simp [Caller.Past, here],
        by simp [Caller.Past]⟩))
  case h_6 call here =>
    split
    · exact numbered.goto rfl rfl rfl (.inr (.inl rfl))
    · split
      · exact numbered.goto rfl rfl rfl (.inr (.inl rfl))
      · exact numbered

omit [DecidableEq Thread] in
theorem readerStep_caller (node : Node Thread) (chosen : Nat) (dialed : Bool) :
    (node.readerStep chosen dialed).registered = node.registered ∧
      (node.readerStep chosen dialed).ids = node.ids ∧
      (node.readerStep chosen dialed).caller = node.caller := by
  unfold Node.readerStep
  split
  case h_3 => split <;> exact ⟨rfl, rfl, rfl⟩
  case h_4 taken value here =>
    obtain ⟨result, same⟩ := setResult_eq node taken value
    rw [same]
    exact ⟨rfl, rfl, rfl⟩
  case h_7 left here =>
    split
    · rename_i taken _
      obtain ⟨result, same⟩ := setResult_eq node taken none
      rw [same]
      exact ⟨rfl, rfl, rfl⟩
    · split <;> exact ⟨rfl, rfl, rfl⟩
  all_goals exact ⟨rfl, rfl, rfl⟩

theorem Numbered.step (numbered : Numbered node) (action : Action Thread) :
    Numbered (step node action) := by
  cases action with
  | call thread request =>
      simp only [PythonRequests.step]
      split
      · exact numbered.call thread request
      · exact numbered
  | thread thread written timeout => exact numbered.threadStep thread written timeout
  | receive frame | hangUp | crash | closed =>
      simp only [PythonRequests.step]
      split
      · exact numbered.kept rfl rfl fun _ => .inl rfl
      · exact numbered
  | reader chosen dialed =>
      obtain ⟨registered, ids, caller⟩ := readerStep_caller node chosen dialed
      exact numbered.kept registered ids fun thread => .inl (congrFun caller thread)
  | close => exact numbered.kept rfl rfl fun _ => .inl rfl

/-- The calls that a step settles come to those that were settled before. -/
theorem Linked.step (linked : Linked settled node) (numbered : Numbered node)
    (action : Action Thread) :
    Linked (fun call => settled call ∨ call ∈ node.registered ∧
      Settles node action (wireId call)) (step node action) := by
  by_cases entering : ∃ thread written timeout request call,
      action = .thread thread written timeout ∧ node.caller thread = .numbered request call
  · obtain ⟨thread, written, timeout, request, call, rfl, here⟩ := entering
    have never (other : Nat) :
        ¬ Settles node (.thread thread written timeout) (wireId other) := by
      generalize wireId other = id
      rintro (_ | _ | ⟨_, _, _, _, there⟩)
      rw [here] at there
      cases there
    have same : (fun other => settled other ∨ other ∈ node.registered ∧
        Settles node (.thread thread written timeout) (wireId other)) = settled :=
      funext fun other => propext (or_iff_left fun now => never other now.2)
    rw [same]
    refine linked.register (numbered.fresh thread request call here) ?_ ?_
    · simp only [PythonRequests.step, Node.threadStep, here]
      rfl
    · simp only [PythonRequests.step, Node.threadStep, here]
      rfl
  · refine linked.shrink (step_shrinks node action ?_)
    intro thread written timeout request call same here
    exact entering ⟨thread, written, timeout, request, call, same, here⟩

/-- A future that has a result, or that a thread has in its hands, was settled. -/
structure Handed (settled : Nat → Prop) (node : Node Thread) : Prop where
  result : ∀ call value, node.result call = some value → settled call
  sender : ∀ thread taken call, node.caller thread = .setting taken call → settled taken
  reader : ∀ taken value, node.reader = .setting taken value → settled taken
  failing : ∀ left id taken, node.reader = .failing left → left.lookup id = some taken →
    settled taken

omit [DecidableEq Thread] in
theorem Handed.initial : Handed settled (initial : Node Thread) := by
  constructor <;> simp [PythonRequests.initial]

omit [DecidableEq Thread] in
theorem Handed.mono (handed : Handed settled node)
    (weaker : ∀ call, settled call → later call) : Handed later node where
  result call value found := weaker call (handed.result call value found)
  sender thread taken call here := weaker taken (handed.sender thread taken call here)
  reader taken value here := weaker taken (handed.reader taken value here)
  failing left id taken here found := weaker taken (handed.failing left id taken here found)

omit [DecidableEq Thread] in
theorem Handed.setResult (handed : Handed settled node) {call : Nat} (value : Option Bytes)
    (taken : settled call) : Handed settled (node.setResult call value) := by
  unfold Node.setResult
  split
  · refine ⟨?_, handed.sender, handed.reader, handed.failing⟩
    intro other found stored
    by_cases same : other = call
    · rw [same]
      exact taken
    · exact handed.result other found ((Table.insert_of_ne _ _ same).symm.trans stored)
  · exact handed

omit [DecidableEq Thread] in
/-- The reader thread moves to a place where it has only settled futures. -/
theorem Handed.moveReader (handed : Handed settled node) (result : next.result = node.result)
    (caller : next.caller = node.caller)
    (setting : ∀ taken value, next.reader = .setting taken value → settled taken)
    (failing : ∀ left id taken, next.reader = .failing left → left.lookup id = some taken →
      settled taken) : Handed settled next :=
  ⟨fun call value found => handed.result call value (result ▸ found),
    fun thread taken call here => handed.sender thread taken call (caller ▸ here), setting, failing⟩

omit [DecidableEq Thread] in
theorem Handed.readerStep (handed : Handed settled node) {chosen : Nat} {dialed : Bool}
    (settles : ∀ id taken, Settles node (.reader chosen dialed) id →
      node.pending.lookup id = some taken → settled taken) :
    Handed settled (node.readerStep chosen dialed) := by
  unfold Node.readerStep
  split
  case h_1 | h_2 => exact handed
  case h_3 number value here =>
    split
    · rename_i taken found
      refine handed.moveReader rfl rfl ?_ (by simp)
      rintro _ _ ⟨⟩
      exact settles number taken (.answer number value chosen dialed here) found
    · exact handed.moveReader rfl rfl (by simp) (by simp)
  case h_4 taken value here =>
    exact (handed.setResult value (handed.reader taken value here)).moveReader rfl rfl
      (by simp) (by simp)
  case h_5 | h_9 => exact handed.moveReader rfl rfl (by simp) (by simp)
  case h_6 here =>
    refine handed.moveReader rfl rfl (by simp) ?_
    rintro _ id taken ⟨⟩ found
    exact settles id taken (.teardown id chosen dialed here) found
  case h_7 left here =>
    split
    · rename_i taken found
      have set := handed.setResult none (handed.failing left chosen taken here found)
      refine set.moveReader rfl rfl (by simp) ?_
      rintro _ id other ⟨⟩ listed
      exact handed.failing left id other here (lookup_erase_some listed)
    · split
      · refine handed.moveReader rfl rfl ?_ ?_
        all_goals
          dsimp only
          split <;> simp
      · exact handed
  case h_8 =>
    refine handed.moveReader rfl rfl ?_ ?_
    all_goals
      dsimp only
      split
      · split <;> simp
      · simp
  case h_10 =>
    refine handed.moveReader rfl rfl ?_ ?_
    all_goals
      dsimp only
      split <;> simp

theorem Handed.goto (handed : Handed settled node) {thread : Thread} {place : Caller}
    (result : next.result = node.result) (reader : next.reader = node.reader)
    (caller : next.caller = Function.update node.caller thread place)
    (sender : ∀ taken call, place = .setting taken call → settled taken) :
    Handed settled next := by
  refine ⟨fun call value found => handed.result call value (result ▸ found), ?_,
    fun taken value here => handed.reader taken value (reader ▸ here),
    fun left id taken here => handed.failing left id taken (reader ▸ here)⟩
  intro other taken call here
  rw [caller] at here
  by_cases same : other = thread
  · rw [same, Function.update_self] at here
    exact sender taken call here
  · rw [Function.update_of_ne same] at here
    exact handed.sender other taken call here

theorem Handed.threadStep (handed : Handed settled node) {thread : Thread}
    {written timeout : Bool}
    (settles : ∀ id taken, Settles node (.thread thread written timeout) id →
      node.pending.lookup id = some taken → settled taken) :
    Handed settled (node.threadStep thread written timeout) := by
  unfold Node.threadStep
  split
  case h_1 => exact handed
  case h_2 => exact handed.goto rfl rfl rfl (by simp)
  case h_3 =>
    split
    · exact handed.goto rfl rfl rfl (by simp)
    · refine handed.goto rfl rfl rfl fun taken number => ?_
      split <;> simp
  case h_4 call here =>
    split
    · rename_i taken found
      refine handed.goto rfl rfl rfl ?_
      rintro _ _ ⟨⟩
      exact settles (wireId call) taken (.refused thread call written timeout here) found
    · exact handed.goto rfl rfl rfl (by simp)
  case h_5 taken call here =>
    exact (handed.setResult none (handed.sender thread taken call here)).goto rfl rfl rfl (by simp)
  case h_6 =>
    split
    · exact handed.goto rfl rfl rfl (by simp)
    · split
      · exact handed.goto rfl rfl rfl (by simp)
      · exact handed

theorem Handed.step (handed : Handed settled node) {action : Action Thread}
    (settles : ∀ id taken, Settles node action id → node.pending.lookup id = some taken →
      settled taken) : Handed settled (step node action) := by
  cases action with
  | call thread request =>
      simp only [PythonRequests.step]
      split
      · exact handed.goto rfl rfl rfl (by simp)
      · exact handed
  | thread thread written timeout => exact handed.threadStep settles
  | receive frame | hangUp | crash =>
      simp only [PythonRequests.step]
      split
      · exact handed.moveReader rfl rfl (by simp) (by simp)
      · exact handed
  | reader chosen dialed => exact handed.readerStep settles
  | close =>
      exact ⟨handed.result, handed.sender, handed.reader, handed.failing⟩
  | closed =>
      simp only [PythonRequests.step]
      split
      · exact ⟨handed.result, handed.sender, handed.reader, handed.failing⟩
      · exact handed

/-- Since the registration of the call, a step has settled its identifier. -/
def Settled (earlier : List (Action Thread)) (call : Nat) : Prop :=
  Occurs PythonRequests.step
    (fun node action => call ∈ node.registered ∧ Settles node action (wireId call))
    PythonRequests.initial earlier

/-- In every run, the table holds the calls that are registered and not settled, and a future is
set only after it was settled. -/
theorem run_linked (earlier : List (Action Thread)) :
    let node := run PythonRequests.step PythonRequests.initial earlier
    Numbered node ∧ Linked (Settled earlier) node ∧ Handed (Settled earlier) node := by
  induction earlier using List.reverseRecOn with
  | nil =>
      have never : (Settled ([] : List (Action Thread))) = fun _ => False :=
        funext fun _ => propext (iff_false_intro not_occurs_nil)
      rw [never]
      exact ⟨.initial, .initial, .initial⟩
  | append_singleton earlier action ih =>
      obtain ⟨numbered, linked, handed⟩ := ih
      simp only [run_append]
      have same : Settled (earlier ++ [action]) = fun call => Settled earlier call ∨
          call ∈ (run PythonRequests.step PythonRequests.initial earlier).registered ∧
          Settles (run PythonRequests.step PythonRequests.initial earlier) action
            (wireId call) :=
        funext fun call => propext (occurs_snoc earlier action)
      rw [same]
      have next := linked.step numbered action
      refine ⟨numbered.step action, next, ?_⟩
      refine (handed.mono fun call before => .inl before).step fun id taken settles found => ?_
      obtain ⟨rfl, listed, -⟩ := linked.entry id taken found
      exact .inr ⟨listed, settles⟩

end Chappe.PythonRequests
