/-
This file proves that every request of a node is settled at most once, by its own answer.
-/

import Chappe.Foundation.Run
import Chappe.Proof.Requests.Promises

namespace Chappe
open Foundation

variable {Thread Client : Type}

/-- A call that has returned is over, and its value was the answer to it. -/
structure Exchange.Concluded (exchange : Exchange Thread Client) : Prop where
  ended : ∀ call value, exchange.returned call = some value →
    call < exchange.nextReq ∧ ∀ thread, (exchange.caller thread).call ≠ some call
  proven : ∀ call value, exchange.returned call = some (some value) → exchange.Proven call value

variable {exchange next : Exchange Thread Client}

theorem Exchange.Concluded.initial (store : Store (Nat ⊕ Client)) :
    (Exchange.initial store : Exchange Thread Client).Concluded := ⟨nofun, nofun⟩

variable [DecidableEq Thread]

/-- A call returns to its thread. -/
theorem Exchange.Concluded.ret (concluded : exchange.Concluded) (numbered : exchange.Numbered)
    {thread : Thread} {call : Nat} (works : (exchange.caller thread).call = some call)
    {value : Option Bytes} (answer : ∀ found, value = some found → exchange.Proven call found) :
    (exchange.ret thread call value).Concluded := by
  have split {own : Nat} {result : Option Bytes}
      (known : exchange.returned.insert call value own = some result) :
      (own = call ∧ result = value) ∨ exchange.returned own = some result := by
    by_cases mine : own = call
    · rw [mine, Table.insert_self] at known
      exact .inl ⟨mine, (Option.some.inj known).symm⟩
    · exact .inr ((Table.insert_of_ne _ _ mine).symm.trans known)
  refine ⟨?_, ?_⟩
  · intro own result known
    rcases split known with ⟨rfl, _⟩ | before
    · refine ⟨numbered.issued thread own works, ?_⟩
      intro other mine
      by_cases same : other = thread
      · simp only [Exchange.ret, Exchange.goto, same, Function.update_self] at mine
        cases mine
      · simp only [Exchange.ret, Exchange.goto, Function.update_of_ne same] at mine
        exact same (numbered.unique other thread own mine works)
    · obtain ⟨issued, ended⟩ := concluded.ended own result before
      refine ⟨issued, ?_⟩
      intro other mine
      by_cases same : other = thread
      · simp only [Exchange.ret, Exchange.goto, same, Function.update_self] at mine
        cases mine
      · simp only [Exchange.ret, Exchange.goto, Function.update_of_ne same] at mine
        exact ended other mine
  · intro own found known
    rcases split known with ⟨rfl, same⟩ | before
    · exact answer found same.symm
    · exact concluded.proven own found before

variable [DecidableEq Client]

/-- A step that concludes no call. -/
theorem Exchange.Concluded.mono (concluded : exchange.Concluded)
    (move : exchange.Move next) (returned : next.returned = exchange.returned)
    (proven : ∀ call value, exchange.Proven call value → next.Proven call value) :
    next.Concluded := by
  refine ⟨?_, ?_⟩
  · intro call value known
    rw [returned] at known
    obtain ⟨issued, ended⟩ := concluded.ended call value known
    rcases move_calls move with ⟨thread, request, idle, rfl⟩ | ⟨count, same⟩
    · refine ⟨Nat.lt_succ_of_lt issued, ?_⟩
      intro other mine
      by_cases here : other = thread
      · simp only [Exchange.goto, here, Function.update_self, Caller.call,
          Option.some.injEq] at mine
        omega
      · simp only [Exchange.goto, Function.update_of_ne here] at mine
        exact ended other mine
    · rw [count]
      exact ⟨issued, fun other mine => ended other (same other call mine)⟩
  · intro call value known
    rw [returned] at known
    exact proven call value (concluded.proven call value known)

theorem Exchange.Concluded.move (concluded : exchange.Concluded) (numbered : exchange.Numbered)
    (wired : exchange.Wired) (promised : exchange.Promised) (move : exchange.Move next) :
    next.Concluded := by
  have proven (call : Nat) (value : Bytes) (known : exchange.Proven call value) :
      next.Proven call value := known.move wired move
  have kept := concluded.mono move
  cases move with
  | missed thread call gaveUp here absent =>
      unfold Exchange.fulfilled at kept proven ⊢
      split at kept
      · rw [if_pos ‹_›]
        exact concluded.ret numbered (by rw [here]; rfl) nofun
      · rw [if_neg ‹_›] at proven ⊢
        exact kept rfl proven
  | set thread taken call gaveUp here =>
      unfold Exchange.fulfilled at kept proven ⊢
      split at kept
      · rw [if_pos ‹_›]
        have before : (exchange.setValue taken none).Concluded :=
          ⟨concluded.ended, concluded.proven⟩
        have numbers : (exchange.setValue taken none).Numbered :=
          ⟨numbered.unique, numbered.issued⟩
        have works : ((exchange.setValue taken none).caller thread).call = some call := by
          simp only [Exchange.setValue, here, Caller.call]
        exact before.ret numbers works nofun
      · rw [if_neg ‹_›] at proven ⊢
        exact kept rfl proven
  | ready thread call value here known =>
      refine concluded.ret numbered (by rw [here]; rfl) ?_
      rintro found rfl
      exact promised.proven call found known
  | stay | call | register | send | refuse | take | timeout | post | read | skip | claim | ignore
  | settle | drop | close | clear | fail | dial | serve | push | remove => exact kept rfl proven

/-- All that is known of a node while its calls stay within their window. -/
structure Exchange.Sound (exchange : Exchange Thread Client) : Prop where
  numbered : exchange.Numbered
  wired : exchange.Wired
  linked : exchange.Linked
  recent : exchange.Recent
  promised : exchange.Promised
  concluded : exchange.Concluded

theorem Exchange.Sound.step (exchange : Exchange Thread Client)
    (action : ExchangeAction Thread Client) (sound : exchange.Sound)
    (windowed : exchange.Windowed action) : (exchange.step action).Sound := by
  have move : exchange.Move (exchange.step action) := step_move action
  exact
    { numbered := sound.numbered.move move
      wired := sound.wired.move sound.numbered move
      linked := sound.linked.move sound.wired move
      recent := sound.recent.move sound.wired sound.linked move windowed
      promised := sound.promised.move sound.numbered sound.wired sound.recent move
      concluded := sound.concluded.move sound.numbered sound.wired sound.promised move }

/-- In every run whose calls stay within their window no promise is set twice. A value that a
request returns is the one that the daemon wrote in answer to it, on the connection it was sent
on. A pending request that was sent is on the current connection or on one that the reader has yet
to fail. A request that has returned is not pending, and its identifier is so only for a request
that came `2 ^ 32` numbers later. -/
theorem requests_settled (store : Store (Nat ⊕ Client))
    (actions : List (ExchangeAction Thread Client))
    (windowed : Meets Exchange.step Exchange.Windowed (Exchange.initial store) actions) :
    let exchange := run Exchange.step (Exchange.initial store) actions
    (∀ call, (exchange.promise call).length ≤ 1) ∧
    (∀ call value, exchange.returned call = some (some value) → exchange.Proven call value) ∧
    (∀ id call connection, exchange.pending id = some call →
      exchange.sentOn call = some connection →
        exchange.fd = some connection ∨ exchange.reader = .clearing connection ∨
          exchange.reader = .failing connection) ∧
    (∀ call value later, exchange.returned call = some value →
      exchange.pending (wireId call) = some later → call + 2 ^ 32 ≤ later) := by
  intro exchange
  have start : (Exchange.initial store : Exchange Thread Client).Sound :=
    ⟨.initial store, .initial store, .initial store, .initial store, .initial store,
      .initial store⟩
  have sound : exchange.Sound := run_invariant_of_meets Exchange.Sound.step actions _ start windowed
  refine ⟨sound.promised.once, sound.concluded.proven, ?_, ?_⟩
  · intro id call connection waits sent
    have tracks := sound.linked.tracked id call connection waits sent
    rw [sound.linked.descriptor]
    cases here : exchange.reader with
    | clearing current =>
        rw [here] at tracks
        exact .inr (.inl (congrArg _ tracks))
    | failing current =>
        rw [here] at tracks
        exact .inr (.inr (congrArg _ tracks))
    | reading | answering | setting | closing | dialing =>
        rw [here] at tracks
        exact .inl tracks
  · intro call value later known waits
    obtain ⟨issued, ended⟩ := sound.concluded.ended call value known
    obtain ⟨same, _, thread, awaits⟩ := sound.promised.pending _ later waits
    have bounds := sound.recent later (sound.promised.live waits)
    have different : later ≠ call := by
      rintro rfl
      exact ended thread awaits.call
    unfold wireId at same
    omega

/-- A thread asks for the status, and the daemon answers it. -/
def statusCall : List (ExchangeAction Unit Unit) :=
  [.call () ⟨.info, [], []⟩, .thread () true false, .thread () true false, .serve 0 0 0 [111, 107],
    .reader, .reader, .reader, .thread () true false]

theorem requests_settled_small :
    (run Exchange.step (Exchange.initial .empty) statusCall).returned 0 = some (some [111, 107]) ∧
      (run Exchange.step (Exchange.initial .empty) statusCall).Proven 0 [111, 107] := by
  have answered : (run Exchange.step (Exchange.initial .empty) statusCall).returned 0 =
      some (some [111, 107]) := rfl
  refine ⟨answered, (requests_settled .empty statusCall ?_).2.1 0 [111, 107] answered⟩
  have same {exchange : Exchange Unit Unit} {action : ExchangeAction Unit Unit}
      (kept : (exchange.step action).nextReq = exchange.nextReq) : exchange.Windowed action :=
    fun changed => absurd kept changed
  refine ⟨?_, same rfl, same rfl, same rfl, same rfl, same rfl, same rfl, same rfl, True.intro⟩
  intro _ call live
  exact absurd (Exchange.Recent.initial .empty call live).1 (Nat.not_lt_zero call)

end Chappe
