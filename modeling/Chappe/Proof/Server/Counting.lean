/-
This file proves that a key which clients only increment and read counts every increment once, over
all the threads and connections of a daemon.
-/

import Chappe.Proof.Kv.Leases
import Chappe.Proof.Server.Atomicity

namespace Chappe
open Foundation

variable {Client : Type}

/-- The step at most reads or increments the key. -/
def Deed.counts (key : Bytes) (deed : Deed Client) : Bool :=
  match deed.about key with
  | none | some (_, .get _) | some (_, .incr _ _) => true
  | some (_, .set _) | some (_, .setex _ _) | some (_, .del) | some (_, .setnx _ _ _) => false

/-- The amount by which a step increments the key, with its client and its request. -/
def Deed.increment (key : Bytes) (deed : Deed Client) : Option (Client × Nat × Nat) :=
  match deed.about key with
  | some (client, .incr id delta) => some (client, id, delta)
  | _ => none

/-- The sum of the increments of a history. -/
def counted (key : Bytes) (deeds : List (Deed Client)) : Nat :=
  ((deeds.filterMap fun deed => deed.increment key).map fun increment => increment.2.2).sum

/-- The results of the increments of a history, with the running totals from a start on. -/
def totals (key : Bytes) : Nat → List (Client × Nat × Nat) → List (Client × Frame)
  | _, [] => []
  | total, (client, id, delta) :: rest =>
      (client, kvResult key id true (littleEndian 8 (total + delta))) ::
        totals key (total + delta) rest

/-- The results of the increments of a key in the order in which the store runs them. -/
def results (key : Bytes) (deeds : List (Deed Client)) : List (Client × Frame) :=
  totals key 0 (deeds.filterMap fun deed => deed.increment key)

/-- The frame is a result about the key. -/
def Frame.isResult (key : Bytes) (frame : Frame) : Bool :=
  frame.msg = some .kvResult && frame.name = key

theorem counted_append (key : Bytes) (first second : List (Deed Client)) :
    counted key (first ++ second) = counted key first + counted key second := by
  simp only [counted, List.filterMap_append, List.map_append, List.sum_append]

theorem totals_append (key : Bytes) (first second : List (Client × Nat × Nat)) (total : Nat) :
    totals key total (first ++ second) = totals key total first ++
      totals key (total + (first.map fun increment => increment.2.2).sum) second := by
  induction first generalizing total with
  | nil => rfl
  | cons increment rest ih =>
      obtain ⟨client, id, delta⟩ := increment
      simp only [List.cons_append, totals, ih, List.map_cons, List.sum_cons, Nat.add_assoc]

theorem results_append (key : Bytes) (first second : List (Deed Client)) :
    results key (first ++ second) = results key first ++
      totals key (counted key first) (second.filterMap fun deed => deed.increment key) := by
  simp only [results, List.filterMap_append, totals_append, Nat.zero_add]
  rfl

/-- The word of a sum does not depend on an overflow before. -/
theorem littleEndian_add (total delta : Nat) :
    littleEndian 8 (ofLittleEndian (littleEndian 8 total) + delta) =
      littleEndian 8 (total + delta) := by
  rw [ofLittleEndian_littleEndian, ← littleEndian_mod, Nat.mod_add_mod, littleEndian_mod]

variable [LinearOrder Client]

/-- The key of a store holds the total of its increments, and has no deadline. -/
structure Store.Counter (store : Store Client) (key : Bytes) (deeds : List (Deed Client)) :
    Prop where
  forever : store.expires key = none
  value : store.kv key = if (deeds.filterMap fun deed => deed.increment key) = [] then none
    else some (littleEndian 8 (counted key deeds))

omit [LinearOrder Client] in
theorem Pushed.not_result {store : Store Client} {name key : Bytes} {client : Client}
    {frame : Frame} (pushed : Pushed store name client frame) : frame.isResult key = false := by
  obtain ⟨-, ⟨value, rfl⟩ | rfl⟩ := pushed
  · simp [Frame.isResult]
  · simp [Frame.isResult]

theorem filter_none {key : Bytes} {frames : List Frame}
    (none : ∀ frame ∈ frames, frame.isResult key = false) :
    frames.filter (fun frame => frame.isResult key) = [] := by
  rw [List.filter_eq_nil_iff]
  intro frame member
  rw [none frame member]
  exact Bool.false_ne_true

variable {store : Store Client} {key : Bytes} {deeds : List (Deed Client)} {deed : Deed Client}

/-- A step that increments nothing leaves the counter and sends no result. -/
theorem Store.Counter.idle (counter : store.Counter key deeds) (none : deed.increment key = none)
    (same : AgreeAt key (store.deed deed).1 store) :
    (store.deed deed).1.Counter key (deeds ++ [deed]) := by
  have increments : (deeds ++ [deed]).filterMap (fun deed => deed.increment key) =
      deeds.filterMap fun deed => deed.increment key := by
    simp [none]
  refine ⟨same.expires.trans counter.forever, ?_⟩
  rw [same.kv, counter.value, increments, counted, counted, increments]

/-- A request about the key finds nothing to expire. -/
theorem Store.Counter.stays (counter : store.Counter key deeds) (now : Nat) :
    store.dropIfExpired key now = (store, .silent) := by
  simp [Store.dropIfExpired, Store.expired, counter.forever]

/-- The number that the store reads before an increment. -/
theorem Store.Counter.answer (counter : store.Counter key deeds) (later id delta : Nat)
    (client : Client) :
    ∃ current, store.answer later client key (.incr id delta) =
        store.bump client key id current delta ∧
      littleEndian 8 (current + delta) = littleEndian 8 (counted key deeds + delta) := by
  simp only [Store.answer, counter.value]
  by_cases fresh : (deeds.filterMap fun deed => deed.increment key) = []
  · refine ⟨0, by simp [fresh], ?_⟩
    simp [counted, fresh]
  · refine ⟨ofLittleEndian (littleEndian 8 (counted key deeds)), by simp [fresh], ?_⟩
    exact littleEndian_add (counted key deeds) delta

/-- An increment adds to the counter and answers with the new total. -/
theorem Store.Counter.bumped (counter : store.Counter key deeds) {source : Client} {frame : Frame}
    {now later id delta : Nat} (here : frame.name = key)
    (read : KvRequest.ofFrame frame = some (.incr id delta)) :
    (store.deed (.request source frame now later)).1.Counter key
        (deeds ++ [.request source frame now later]) ∧
      ∀ client, ((store.deed (.request source frame now later)).2 client).filter
          (fun frame => frame.isResult key) =
        Server.gather client [(source,
          kvResult key id true (littleEndian 8 (counted key deeds + delta)))] := by
  subst key
  have increment : Deed.increment frame.name (.request source frame now later) =
      some (source, id, delta) := by
    simp [Deed.increment, Deed.about, read]
  have total : counted frame.name (deeds ++ [.request source frame now later]) =
      counted frame.name deeds + delta := by
    rw [counted_append]
    simp [counted, increment]
  obtain ⟨current, answer, word⟩ := counter.answer later id delta source
  rw [deed_handleFrame read rfl, counter.stays now]
  dsimp only
  rw [answer]
  refine ⟨⟨counter.forever, ?_⟩, fun client => ?_⟩
  · rw [total, ← word]
    simp [Store.bump, increment]
  · have pushes : (store.pushKvUpdate frame.name (littleEndian 8 (current + delta)) client).filter
        (fun sent => sent.isResult frame.name) = [] :=
      filter_none fun sent member => (pushKvUpdate_pushed member).not_result
    rw [Server.gather_single, ← word]
    simp only [Store.bump, Outbox.then, Outbox.silent, List.nil_append, List.filter_append, pushes]
    unfold Outbox.sendTo
    split <;> simp [Frame.isResult, kvResult]

/-- A step that at most reads or increments the key keeps the count. -/
theorem Store.Counter.step (counter : store.Counter key deeds) (counts : deed.counts key = true) :
    (store.deed deed).1.Counter key (deeds ++ [deed]) ∧
      ∀ client, ((store.deed deed).2 client).filter (fun frame => frame.isResult key) =
        Server.gather client (totals key (counted key deeds) (deed.increment key).toList) := by
  cases deed with
  | take source frame => exact ⟨counter.idle rfl (.refl key store), fun _ => rfl⟩
  | forget source => exact ⟨counter.idle rfl ⟨rfl, rfl⟩, fun _ => rfl⟩
  | sweep order read =>
      have live : store.expired key read = false := by
        simp [Store.expired, counter.forever]
      have same := sweep_at key read order store
      simp only [live, Bool.false_eq_true, and_false, if_false] at same
      refine ⟨counter.idle rfl same, fun client => filter_none fun frame member => ?_⟩
      obtain ⟨name, pushed⟩ := sweep_frames member
      exact pushed.not_result
  | request source frame now later =>
      by_cases here : frame.name = key
      · subst key
        cases read : KvRequest.ofFrame frame with
        | none =>
            have none : Deed.increment frame.name (.request source frame now later) = none := by
              simp [Deed.increment, Deed.about, read]
            have still : store.deed (.request source frame now later) = (store, .silent) := by
              simp [Store.deed, Store.handleFrame, read]
            refine ⟨counter.idle none (still ▸ .refl frame.name store), fun client => ?_⟩
            rw [still, none]
            rfl
        | some request =>
            cases request with
            | set _ | setex _ _ | del | setnx _ _ _ =>
                simp [Deed.counts, Deed.about, read] at counts
            | get id =>
                have none : Deed.increment frame.name (.request source frame now later) =
                    none := by
                  simp [Deed.increment, Deed.about, read]
                have got : store.deed (.request source frame now later) =
                    (store.watch source frame.name,
                      .sendTo source (kvReply frame.name id (store.kv frame.name))) := by
                  rw [deed_handleFrame read rfl, counter.stays now]
                  rfl
                have agree : AgreeAt frame.name (store.watch source frame.name) store := ⟨rfl, rfl⟩
                refine ⟨counter.idle none (got ▸ agree), fun client => ?_⟩
                rw [got, none]
                refine filter_none fun sent member => ?_
                rw [(mem_sendTo member).1]
                simp [Frame.isResult, kvReply]
            | incr id delta =>
                have increment : Deed.increment frame.name (.request source frame now later) =
                    some (source, id, delta) := by
                  simp [Deed.increment, Deed.about, read]
                rw [increment]
                exact counter.bumped rfl read
      · have none : Deed.increment key (.request source frame now later) = none := by
          simp [Deed.increment, Deed.about, here]
        refine ⟨counter.idle none (handleFrame_other here now later source), fun client => ?_⟩
        rw [none]
        refine filter_none fun sent member => ?_
        have name := handleFrame_name member
        simp [Frame.isResult, name, here]

/-- A history that at most reads and increments a key counts it. -/
theorem counter_run (deeds : List (Deed Client)) (only : ∀ deed ∈ deeds, deed.counts key = true) :
    (runWith Store.deed .empty deeds).Counter key deeds ∧
      ∀ client, (outputs client deeds).filter (fun frame => frame.isResult key) =
        Server.gather client (results key deeds) := by
  induction deeds using List.reverseRecOn with
  | nil => exact ⟨⟨rfl, rfl⟩, fun client => rfl⟩
  | append_singleton deeds deed ih =>
      obtain ⟨counter, sent⟩ := ih fun earlier member => only earlier (by simp [member])
      have counts : deed.counts key = true := only deed (by simp)
      have last : runWith Store.deed .empty (deeds ++ [deed]) =
          ((runWith Store.deed .empty deeds).deed deed).1 :=
        run_append ..
      have single : [deed].filterMap (fun deed => deed.increment key) =
          (deed.increment key).toList := by
        cases increment : deed.increment key <;> simp [increment]
      refine ⟨?_, fun client => ?_⟩
      · rw [last]
        exact (counter.step counts).1
      · rw [outputs_step, List.filter_append, sent, (counter.step counts).2,
          results_append, Server.gather_append, single]

end Chappe

namespace Chappe.Server
open Foundation

variable {Client : Type} [LinearOrder Client]

/-- In every run in which the clients of a daemon at most increment and read a key, no increment is
lost: the store holds the sum of all that have been run, modulo two to the power 64. The results on
the connection of a client are those of its own increments, in their order and without a gap, and
each tells the sum of all increments of all clients up to it. A connection that is up has them all
when no thread holds `kv_mu_`. -/
theorem server_counts (config : Config) (actions : List (Action Client)) (key : Bytes)
    (only : ∀ deed ∈ collect (System.step config) System.deeds System.initial actions,
      deed.counts key = true) :
    let system := run (System.step config) System.initial actions
    let deeds := collect (System.step config) System.deeds System.initial actions
    let result := fun frame : Frame => frame.isResult key
    (system.data.store.kv key = if (deeds.filterMap fun deed => deed.increment key) = [] then none
      else some (littleEndian 8 (counted key deeds))) ∧
    (∀ client, (system.data.stored client).filter result <+: gather client (results key deeds)) ∧
    ((∀ worker mode, (worker, mode) ∉ system.holders .kv) → ∀ client,
      system.data.fd client ≠ none → system.data.shut client = false →
      (system.data.stored client).filter result = gather client (results key deeds)) := by
  intro system deeds result
  have atomic : Atomic system deeds := server_atomic config actions
  obtain ⟨counter, sent⟩ := counter_run deeds only
  refine ⟨?_, fun client => ?_, fun free client opened up => ?_⟩
  · rw [atomic.store]
    exact counter.value
  · rw [← sent client]
    exact (atomic.behind client).filter result
  · rw [← sent client, atomic.settled free opened up]

/-- Two clients increment a key, and the second one reads its result. -/
def twoIncrements : List (Action Nat) :=
  let go (worker : Worker Nat) : Action Nat := .go worker ⟨3, 0, 0, [], false⟩
  let accept (client number : Nat) : List (Action Nat) :=
    [.outside (.dial client (some 0)), go .accept, .go .accept ⟨number, 0, 0, [], false⟩,
      go .accept, go .accept, go .accept, go .accept, go (.reader client), go (.reader client)]
  let ask (client : Nat) (count : Int) : List (Action Nat) :=
    .outside (.arrive client ((incrRequest [1] count).frame client)) ::
      List.replicate 8 (go (.reader client))
  accept 7 3 ++ accept 8 4 ++ ask 7 5 ++ ask 8 (-2)

theorem server_counts_two :
    let system := run (System.step ⟨∅, 0⟩) System.initial twoIncrements
    let deeds := collect (System.step ⟨∅, 0⟩) System.deeds System.initial twoIncrements
    let result := fun frame : Frame => frame.isResult [1]
    (system.data.store.kv [1] = if (deeds.filterMap fun deed => deed.increment [1]) = [] then none
      else some (littleEndian 8 (counted [1] deeds))) ∧
    (∀ client, (system.data.stored client).filter result <+: gather client (results [1] deeds)) ∧
    ((∀ worker mode, (worker, mode) ∉ system.holders .kv) → ∀ client,
      system.data.fd client ≠ none → system.data.shut client = false →
      (system.data.stored client).filter result = gather client (results [1] deeds)) :=
  server_counts ⟨∅, 0⟩ twoIncrements [1] (by decide +kernel)

end Chappe.Server
