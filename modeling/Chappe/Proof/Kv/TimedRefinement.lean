/-
This file proves that the store refines a timed table and that the sweep is invisible.
-/

import Chappe.Construction.Kv
import Chappe.Foundation.Run

namespace Chappe
open Foundation

variable {Client : Type}

/-- The reference holds a timed table and the time of its last event. -/
structure Reference where
  table : TimedTable Bytes Bytes
  clock : Nat

def Reference.empty : Reference := ⟨.empty, 0⟩

/-- A time to live of zero gives no deadline. -/
def deadlineAfter (now ttlMs : Nat) : Option Nat :=
  if ttlMs ≠ 0 then some (now + milliseconds ttlMs) else none

/-- The counter of the reference is a number modulo two to the power 64. -/
def counterSum (current delta : Nat) : Bytes := littleEndian 8 ((current + delta) % 2 ^ 64)

/-- What each request means for a timed table. -/
def Reference.answer (table : TimedTable Bytes Bytes) (now later : Nat) (key : Bytes) :
    KvRequest → TimedTable Bytes Bytes × Option Frame
  | .set value => (table.insert key (value, none), none)
  | .setex ttlMs value => (table.insert key (value, deadlineAfter later ttlMs), none)
  | .del => (table.erase key, none)
  | .get id => (table, some (kvReply key id ((table.at now key).map Prod.fst)))
  | .incr id delta =>
      match table.at now key with
      | some (value, limit) =>
          if value.length ≠ 8 then (table, some (kvResult key id false []))
          else
            (table.insert key (counterSum (ofLittleEndian value) delta, limit),
              some (kvResult key id true (counterSum (ofLittleEndian value) delta)))
      | none =>
          (table.insert key (counterSum 0 delta, none),
            some (kvResult key id true (counterSum 0 delta)))
  | .setnx id ttlMs value =>
      match table.at now key with
      | none =>
          (table.insert key (value, deadlineAfter later ttlMs), some (kvResult key id true []))
      | some _ => (table, some (kvResult key id false []))

/-- The clock never goes back, and a sweep uses a clock value that was read before it runs. -/
def Reference.Ordered (reference : Reference) : KvEvent Client → Prop
  | .frame _ _ now later => reference.clock ≤ now ∧ now ≤ later
  | .sweep _ read now => reference.clock ≤ now ∧ read ≤ now

/-- The frames that answer a request. -/
def Frame.isAnswer (frame : Frame) : Bool :=
  frame.msg = some .kvReply || frame.msg = some .kvResult

def Outbox.answers (outbox : Outbox Client) : Outbox Client :=
  fun client => (outbox client).filter Frame.isAnswer

/-- The store agrees with the timed table at the given time. -/
structure Refines (store : Store Client) (table : TimedTable Bytes Bytes) (clock : Nat) :
    Prop where
  stored : ∀ key value, store.kv key = some value → table key = some (value, store.expires key)
  absent : ∀ key, store.kv key = none → store.expires key = none ∧ table.at clock key = none

theorem Refines.mono {store : Store Client} {table : TimedTable Bytes Bytes} {clock later : Nat}
    (refines : Refines store table clock) (ordered : clock ≤ later) :
    Refines store table later where
  stored := refines.stored
  absent := fun key gone =>
    ⟨(refines.absent key gone).1, TimedTable.at_eq_none_mono ordered (refines.absent key gone).2⟩

/-- An entry that the store holds and that has not expired is present. -/
theorem present_of_not_expired {store : Store Client} {key : Bytes} {now : Nat} (value : Bytes)
    (live : store.expired key now = false) : present now (value, store.expires key) = true := by
  unfold Store.expired at live
  unfold present
  split at live
  · rename_i none
    simp [none]
  · rename_i deadline some
    simp only [some]
    simpa using live

/-- A write of one key to both sides keeps the agreement. -/
theorem Refines.insert {store : Store Client} {table : TimedTable Bytes Bytes} {clock : Nat}
    (refines : Refines store table clock) (key value : Bytes) (expires : Table Bytes Nat)
    (others : ∀ other, other ≠ key → expires other = store.expires other) :
    Refines { store with kv := store.kv.insert key value, expires := expires }
      (table.insert key (value, expires key)) clock where
  stored := by
    intro other found held
    by_cases same : other = key
    · subst other
      simp only [Table.insert_self, Option.some.injEq] at held ⊢
      rw [held]
    · simp only [Table.insert_of_ne _ _ same] at held ⊢
      rw [others other same]
      exact refines.stored other found held
  absent := by
    intro other gone
    by_cases same : other = key
    · subst other
      simp at gone
    · simp only [Table.insert_of_ne _ _ same] at gone
      obtain ⟨noDeadline, away⟩ := refines.absent other gone
      refine ⟨(others other same).trans noDeadline, ?_⟩
      rw [TimedTable.at, Table.insert_of_ne _ _ same]
      exact away

/-- An erasure of one key from both sides keeps the agreement. -/
theorem Refines.erase {store : Store Client} {table : TimedTable Bytes Bytes} {clock : Nat}
    (refines : Refines store table clock) (key : Bytes) :
    Refines { store with kv := store.kv.erase key, expires := store.expires.erase key }
      (table.erase key) clock where
  stored := by
    intro other found held
    by_cases same : other = key
    · subst other
      simp at held
    · simp only [Table.erase_of_ne _ same] at held ⊢
      exact refines.stored other found held
  absent := by
    intro other gone
    by_cases same : other = key
    · subst other
      exact ⟨Table.erase_self _ _, by simp [TimedTable.at]⟩
    · simp only [Table.erase_of_ne _ same] at gone ⊢
      rw [TimedTable.at, Table.erase_of_ne _ same]
      exact refines.absent other gone

@[simp] theorem then_answers (first second : Outbox Client) :
    (first.then second).answers = first.answers.then second.answers := by
  funext client
  simp [Outbox.answers, Outbox.then]

variable [DecidableEq Client]

/-- A sweep changes nothing in the reference except its clock. -/
def Reference.step (reference : Reference) : KvEvent Client → Reference × Outbox Client
  | .frame client frame now later =>
      match KvRequest.ofFrame frame with
      | none => (⟨reference.table, later⟩, .silent)
      | some request =>
          let answered := Reference.answer reference.table now later frame.name request
          (⟨answered.1, later⟩, fun other => if other = client then answered.2.toList else [])
  | .sweep _ _ now => (⟨reference.table, now⟩, .silent)

/-- A step of the store with the answers that it sends. -/
def Store.answerStep (store : Store Client) (event : KvEvent Client) :
    Store Client × Outbox Client :=
  ((store.step event).1, (store.step event).2.answers)

/-- A lazy drop removes only what the timed table no longer holds. -/
theorem Refines.dropIfExpired {store : Store Client} {table : TimedTable Bytes Bytes}
    {clock : Nat} (refines : Refines store table clock) (key : Bytes) (now : Nat)
    (passed : now ≤ clock) : Refines (store.dropIfExpired key now).1 table clock := by
  unfold Store.dropIfExpired
  split
  case isFalse => exact refines
  case isTrue expired =>
    refine ⟨?_, ?_⟩
    · intro other value found
      by_cases same : other = key
      · subst other
        simp [Store.dropKey] at found
      · simp only [Store.dropKey, Table.erase_of_ne _ same] at *
        exact refines.stored other value found
    · intro other gone
      by_cases same : other = key
      · subst other
        refine ⟨Table.erase_self _ _, ?_⟩
        cases held : store.kv key with
        | none => exact (refines.absent key held).2
        | some value =>
            rw [TimedTable.at_of_some (refines.stored key value held)]
            unfold Store.expired at expired
            unfold present
            split at expired
            · cases expired
            · rename_i deadline some
              simp only [some]
              rw [if_neg]
              simp only [decide_eq_true_eq] at *
              omega
      · simp only [Store.dropKey, Table.erase_of_ne _ same] at *
        exact refines.absent other gone

/-- After the lazy expiry the store and the timed table agree on what is present. -/
theorem Refines.lookup {store : Store Client} {table : TimedTable Bytes Bytes} {now : Nat}
    (refines : Refines store table now) (key : Bytes) :
    table.at now key = ((store.dropIfExpired key now).1.kv key).map
      fun value => (value, (store.dropIfExpired key now).1.expires key) := by
  have dropped := refines.dropIfExpired key now (Nat.le_refl now)
  cases held : (store.dropIfExpired key now).1.kv key with
  | none => exact (dropped.absent key held).2
  | some value =>
      have live : (store.dropIfExpired key now).1.expired key now = false := by
        unfold Store.dropIfExpired at *
        split at held
        · simp [Store.dropKey] at held
        · rename_i live
          rw [if_neg live]
          simpa using live
      rw [TimedTable.at_of_some (dropped.stored key value held),
        if_pos (present_of_not_expired value live)]
      rfl

/-- A store with a time to live writes the deadline of the reference. -/
theorem Refines.store {store : Store Client} {table : TimedTable Bytes Bytes} {clock : Nat}
    (refines : Refines store table clock) (key value : Bytes) (ttlMs now : Nat) :
    Refines (store.store key value ttlMs now).1
      (table.insert key (value, deadlineAfter now ttlMs)) clock := by
  have written := refines.insert key value
    (if ttlMs ≠ 0 then store.expires.insert key (now + milliseconds ttlMs)
      else store.expires.erase key) (by
      intro other different
      split
      · exact Table.insert_of_ne _ _ different
      · exact Table.erase_of_ne _ different)
  have deadline : (if ttlMs ≠ 0 then store.expires.insert key (now + milliseconds ttlMs)
      else store.expires.erase key) key = deadlineAfter now ttlMs := by
    unfold deadlineAfter
    split
    · exact Table.insert_self _ _ _
    · exact Table.erase_self _ _
  rwa [deadline] at written

/-- An increment keeps the deadline, and its sum wraps as the counter of the reference does. -/
theorem Refines.bump {store : Store Client} {table : TimedTable Bytes Bytes} {clock : Nat}
    (refines : Refines store table clock) (client : Client) (key : Bytes) (id current delta : Nat) :
    Refines (store.bump client key id current delta).1
      (table.insert key (counterSum current delta, store.expires key)) clock := by
  have sum : counterSum current delta = littleEndian 8 (current + delta) :=
    littleEndian_mod 8 (current + delta)
  rw [sum]
  exact refines.insert key _ store.expires fun _ _ => rfl

@[simp] theorem fanOut_answers (clients : Option (Finset Client)) (msg : Msg) (key value : Bytes)
    (push : msg ≠ .kvReply ∧ msg ≠ .kvResult) :
    (Outbox.fanOut clients (msg.frame key value)).answers = .silent := by
  funext client
  simp only [Outbox.answers, Outbox.fanOut, Outbox.silent]
  split <;> simp [Frame.isAnswer, push]

/-- An answer to a client is one frame of its outbox. -/
theorem sendTo_answers (client : Client) (frame : Frame) (answer : frame.isAnswer = true) :
    (Outbox.sendTo client frame).answers = fun other => if other = client then [frame] else [] := by
  funext other
  simp only [Outbox.answers, Outbox.sendTo]
  split <;> simp [answer]

theorem kvReply_isAnswer (key : Bytes) (id : Nat) (found : Option Bytes) :
    (kvReply key id found).isAnswer = true := by
  simp [kvReply, Frame.isAnswer]

theorem kvResult_isAnswer (key : Bytes) (id : Nat) (ok : Bool) (value : Bytes) :
    (kvResult key id ok value).isAnswer = true := by
  simp [kvResult, Frame.isAnswer]

theorem dropIfExpired_answers (store : Store Client) (key : Bytes) (now : Nat) :
    (store.dropIfExpired key now).2.answers = .silent := by
  unfold Store.dropIfExpired
  split
  · exact fanOut_answers _ .kvDel key [] (by simp)
  · rfl

theorem pushKvUpdate_answers (store : Store Client) (key value : Bytes) :
    (store.pushKvUpdate key value).answers = .silent :=
  fanOut_answers _ .kvUpdate key value (by simp)

/-- The only answer of an increment is its result with the new counter. -/
theorem bump_answers (store : Store Client) (client : Client) (key : Bytes)
    (id current delta : Nat) :
    (store.bump client key id current delta).2.answers =
      .sendTo client (kvResult key id true (counterSum current delta)) := by
  have sum : counterSum current delta = littleEndian 8 (current + delta) :=
    littleEndian_mod 8 (current + delta)
  rw [Store.bump, then_answers, pushKvUpdate_answers, silent_then, sum,
    sendTo_answers client _ (kvResult_isAnswer key id true _)]
  rfl

/-- The body of each request answers as the reference does and keeps the agreement. -/
theorem Refines.answer {store : Store Client} {table : TimedTable Bytes Bytes} {now : Nat}
    (refines : Refines store table now) (later : Nat) (client : Client) (key : Bytes)
    (request : KvRequest)
    (looked : request.checksDeadline = true →
      table.at now key = (store.kv key).map fun value => (value, store.expires key)) :
    (store.answer later client key request).2.answers =
        (fun other => if other = client then
          (Reference.answer table now later key request).2.toList else []) ∧
      Refines (store.answer later client key request).1
        (Reference.answer table now later key request).1 now := by
  cases request with
  | set value =>
      refine ⟨?_, refines.store key value 0 later⟩
      funext other
      simp [Store.answer, Store.store, Reference.answer, pushKvUpdate_answers, Outbox.silent]
  | setex ttlMs value =>
      refine ⟨?_, refines.store key value ttlMs later⟩
      funext other
      simp [Store.answer, Store.store, Reference.answer, pushKvUpdate_answers, Outbox.silent]
  | del =>
      refine ⟨?_, refines.erase key⟩
      funext other
      simp [Store.answer, Store.dropKey, Store.pushKvDel, Reference.answer, Outbox.silent]
  | get id =>
      have found : (table.at now key).map Prod.fst = store.kv key := by
        rw [looked rfl, Option.map_map]
        exact Option.map_id'
      refine ⟨?_, refines.stored, refines.absent⟩
      simp only [Store.answer, Reference.answer, found]
      exact sendTo_answers client _ (kvReply_isAnswer key id _)
  | incr id delta =>
      have same := looked rfl
      cases held : store.kv key with
      | none =>
          rw [held, Option.map_none] at same
          have noDeadline := (refines.absent key held).1
          have bumped := refines.bump client key id 0 delta
          rw [noDeadline] at bumped
          simp only [Store.answer, held, Reference.answer, same]
          refine ⟨?_, bumped⟩
          rw [bump_answers]
          rfl
      | some value =>
          rw [held, Option.map_some] at same
          simp only [Store.answer, held, Reference.answer, same]
          split
          · refine ⟨?_, refines⟩
            rw [sendTo_answers client _ (kvResult_isAnswer key id false [])]
            rfl
          · refine ⟨?_, refines.bump client key id _ delta⟩
            rw [bump_answers]
            rfl
  | setnx id ttlMs value =>
      have same := looked rfl
      cases held : store.kv key with
      | none =>
          rw [held, Option.map_none] at same
          simp only [Store.answer, held, Reference.answer, same]
          refine ⟨?_, refines.store key value ttlMs later⟩
          rw [then_answers, sendTo_answers client _ (kvResult_isAnswer key id true [])]
          simp only [Store.store, pushKvUpdate_answers, silent_then]
          rfl
      | some current =>
          rw [held, Option.map_some] at same
          simp only [Store.answer, held, Reference.answer, same]
          refine ⟨?_, refines⟩
          rw [sendTo_answers client _ (kvResult_isAnswer key id false [])]
          rfl

/-- A sweep answers nobody and removes only what the timed table no longer holds. -/
theorem Refines.sweepKeys {table : TimedTable Bytes Bytes} {clock now : Nat} (passed : now ≤ clock)
    (keys : List Bytes) :
    ∀ {store : Store Client}, Refines store table clock →
      (store.sweepKeys now keys).2.answers = .silent ∧
        Refines (store.sweepKeys now keys).1 table clock := by
  induction keys with
  | nil =>
      intro store refines
      exact ⟨rfl, refines⟩
  | cons key rest ih =>
      intro store refines
      obtain ⟨quiet, kept⟩ := ih (refines.dropIfExpired key now passed)
      refine ⟨?_, kept⟩
      rw [Store.sweepKeys, then_answers, dropIfExpired_answers, silent_then, quiet]

/-- Every event of the store agrees with the reference. -/
theorem answerStep_refines (store : Store Client) (reference : Reference) (event : KvEvent Client)
    (refines : Refines store reference.table reference.clock) (ordered : reference.Ordered event) :
    (store.answerStep event).2 = (reference.step event).2 ∧
      Refines (store.answerStep event).1 (reference.step event).1.table
        (reference.step event).1.clock := by
  cases event with
  | sweep order read now =>
      obtain ⟨forward, before⟩ := ordered
      exact (refines.mono forward).sweepKeys before _
  | frame client frame now later =>
      obtain ⟨forward, after⟩ := ordered
      have current := refines.mono forward
      simp only [Store.answerStep, Store.step, Store.handleFrame, Reference.step]
      cases KvRequest.ofFrame frame with
      | none => exact ⟨rfl, current.mono after⟩
      | some request =>
          by_cases checks : request.checksDeadline = true
          · have dropped := current.dropIfExpired frame.name now (Nat.le_refl now)
            obtain ⟨answers, kept⟩ :=
              dropped.answer later client frame.name request fun _ => current.lookup frame.name
            simp only [checks, ite_true, then_answers, dropIfExpired_answers, silent_then]
            exact ⟨answers, kept.mono after⟩
          · obtain ⟨answers, kept⟩ :=
              current.answer later client frame.name request fun check => absurd check checks
            simp only [if_neg checks]
            exact ⟨answers, kept.mono after⟩

/-- The store refines a timed table. Every answer is the answer of the reference, a deadline
belongs to the write that the store holds, and no drop removes a key that is present. -/
theorem store_refines (events : List (KvEvent Client))
    (ordered : Meets (fun reference event => (Reference.step reference event).1)
      Reference.Ordered .empty events) :
    trace Store.answerStep .empty events = trace Reference.step .empty events ∧
    (∀ key, (runWith Store.answerStep .empty events).expires key ≠ none →
      (runWith Store.answerStep .empty events).kv key ≠ none) ∧
    (∀ key value, (runWith Store.answerStep .empty events).kv key = some value →
      (runWith Reference.step .empty events).table key =
        some (value, (runWith Store.answerStep .empty events).expires key)) ∧
    ∀ key value limit,
      (runWith Reference.step .empty events).table.at
          (runWith Reference.step .empty events).clock key = some (value, limit) →
        (runWith Store.answerStep .empty events).kv key = some value := by
  have start : Refines (Store.empty : Store Client) Reference.empty.table Reference.empty.clock :=
    ⟨by simp [Store.empty], fun key _ => ⟨rfl, rfl⟩⟩
  obtain ⟨answers, refines⟩ := trace_eq_of_simulation
    (fun store (reference : Reference) => Refines store reference.table reference.clock)
    (fun store reference event => answerStep_refines store reference event)
    events .empty .empty start ordered
  refine ⟨answers, ?_, refines.stored, ?_⟩
  · intro key deadline gone
    exact deadline (refines.absent key gone).1
  · intro key value limit here
    cases held : (runWith Store.answerStep .empty events).kv key with
    | none =>
        rw [(refines.absent key held).2] at here
        cases here
    | some found =>
        have entry := refines.stored key found held
        rw [TimedTable.at_of_some entry] at here
        split at here
        · cases here
          rfl
        · cases here

/-- A key with a deadline, a sweep with an old clock value, and two reads around the deadline. -/
def expiringKey : List (KvEvent Unit) :=
  [.frame () (Msg.kvSetex.frame [7] [5, 0, 0, 0, 9]) 10 10, .sweep [[7]] 11 5000016,
    .frame () (Msg.kvIncr.frame [7] [1, 0, 0, 0, 1, 0, 0, 0, 0, 0, 0, 0]) 5000016 5000017,
    .frame () (Msg.kvGet.frame [7] [2, 0, 0, 0]) 5000017 5000017]

theorem store_refines_small :
    trace Store.answerStep .empty expiringKey = trace Reference.step .empty expiringKey ∧
    trace Store.answerStep .empty expiringKey ≠ expiringKey.map fun _ => Outbox.silent := by
  refine ⟨(store_refines expiringKey ⟨⟨by decide, by decide⟩, ⟨by decide, by decide⟩,
    ⟨by decide, by decide⟩, ⟨by decide, by decide⟩, True.intro⟩).1, ?_⟩
  intro quiet
  have first := congrArg (fun outboxes => outboxes.map fun outbox => outbox ()) quiet
  revert first
  decide

end Chappe
