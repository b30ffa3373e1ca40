/-
This file proves that the store has what the performed changes leave, and that a watcher of a key is
told exactly the performed changes of the key.
-/

import Chappe.Construction.Performed
import Chappe.Proof.Kv.KeyLocality
import Chappe.Proof.Kv.Watching

namespace Chappe
open Foundation

variable {Client : Type} {key : Bytes}

/-- The changes of the key that frames of a daemon report. -/
def tells (key : Bytes) (frames : List Frame) : List Change :=
  about key (frames.filterMap Frame.pushed)

@[simp] theorem about_nil : about key [] = [] := rfl

@[simp] theorem about_append (first second : List Change) :
    about key (first ++ second) = about key first ++ about key second := List.filter_append ..

theorem about_single (change : Change) :
    about key [change] = if change.key = key then [change] else [] := by
  simp [about, List.filter_singleton]

theorem mem_about {change : Change} {changes : List Change} :
    change ∈ about key changes ↔ change ∈ changes ∧ change.key = key := by
  simp [about]

@[simp] theorem tells_nil : tells key [] = [] := rfl

@[simp] theorem tells_append (first second : List Frame) :
    tells key (first ++ second) = tells key first ++ tells key second := by
  simp [tells]

theorem tells_single {frame : Frame} {change : Change} (pushed : frame.pushed = some change) :
    tells key [frame] = about key [change] := by
  simp [tells, pushed]

theorem tells_single_none {frame : Frame} (pushed : frame.pushed = none) :
    tells key [frame] = [] := by
  simp [tells, pushed]

@[simp] theorem pushed_kvUpdate (name value : Bytes) :
    (Msg.kvUpdate.frame name value).pushed = some (.set name value) := by
  simp [Frame.pushed]

@[simp] theorem pushed_kvDel (name payload : Bytes) :
    (Msg.kvDel.frame name payload).pushed = some (.del name) := by
  simp [Frame.pushed]

@[simp] theorem pushed_kvResult (name : Bytes) (id : Nat) (ok : Bool) (value : Bytes) :
    (kvResult name id ok value).pushed = none := by
  simp [kvResult, Frame.pushed]

@[simp] theorem pushed_kvReply (name : Bytes) (id : Nat) (found : Option Bytes) :
    (kvReply name id found).pushed = found.map (.set name) := by
  cases found <;> simp [kvReply, Frame.pushed, answerPayload, appendU32, littleEndian]

theorem about_eq_self {changes : List Change} (all : ∀ change ∈ changes, change.key = key) :
    about key changes = changes := by
  rw [about, List.filter_eq_self]
  simpa using all

theorem about_eq_nil {changes : List Change} (none : ∀ change ∈ changes, change.key ≠ key) :
    about key changes = [] := by
  rw [about, List.filter_eq_nil_iff]
  simpa using none

theorem pushed_key {frame : Frame} {change : Change} (pushed : frame.pushed = some change) :
    change.key = frame.name := by
  unfold Frame.pushed at pushed
  split at pushed
  · split at pushed
    · cases pushed
      rfl
    · cases pushed
  · cases pushed
    rfl
  · cases pushed
    rfl
  · cases pushed

theorem KvRequest.performed_key {name : Bytes} {found : Option Bytes} {request : KvRequest}
    {change : Change} (member : change ∈ request.performed name found) : change.key = name := by
  have single {value : Bytes} (only : change ∈ [Change.set name value]) : change.key = name := by
    rw [List.mem_singleton.mp only]
    rfl
  cases request with
  | set value => exact single member
  | setex ttlMs value => exact single member
  | del =>
      rw [List.mem_singleton.mp member]
      rfl
  | get id => cases member
  | incr id delta =>
      simp only [KvRequest.performed] at member
      split at member
      · split at member
        · cases member
        · exact single member
      · exact single member
  | setnx id ttlMs value =>
      simp only [KvRequest.performed] at member
      split at member
      · exact single member
      · cases member

theorem lapsed_key {store : Store Client} {name : Bytes} {now : Nat} {change : Change}
    (member : change ∈ store.lapsed name now) : change.key = name := by
  unfold Store.lapsed at member
  split at member
  · rw [List.mem_singleton.mp member]
    rfl
  · cases member

variable [DecidableEq Client] {store : Store Client}

/-- The value that a get finds. -/
def KvRequest.answered (key : Bytes) (found : Option Bytes) : KvRequest → List Change
  | .get _ => found.toList.map (.set key)
  | _ => []

theorem SameWatches.ite_watches {first second : Store Client}
    (same : SameWatches first second) (client : Client) (changes : List Change) :
    (if first.Watches client key then changes else []) =
      if second.Watches client key then changes else [] :=
  if_congr (same.watches client key) rfl rfl

/-- A watcher is told a change of its key. -/
theorem tells_fanOut {frame : Frame} {change : Change} (pushed : frame.pushed = some change)
    (here : change.key = key) (client : Client) :
    tells key (Outbox.fanOut (store.watchers key) frame client) =
      if store.Watches client key then [change] else [] := by
  have told : tells key [frame] = [change] := by
    rw [tells_single pushed, about_single, if_pos here]
  by_cases watches : store.Watches client key
  · rw [if_pos watches, ← told]
    exact congrArg (tells key) (if_pos watches)
  · rw [if_neg watches]
    exact congrArg (tells key) (if_neg watches)

theorem tells_pushKvUpdate (value : Bytes) (client : Client) :
    tells key (store.pushKvUpdate key value client) =
      if store.Watches client key then [.set key value] else [] :=
  tells_fanOut (pushed_kvUpdate key value) rfl client

theorem tells_pushKvDel (client : Client) :
    tells key (store.pushKvDel key client) =
      if store.Watches client key then [.del key] else [] :=
  tells_fanOut (pushed_kvDel key []) rfl client

theorem tells_sendTo_none {frame : Frame} (silent : frame.pushed = none) (source client : Client) :
    tells key (Outbox.sendTo source frame client) = [] := by
  simp only [Outbox.sendTo]
  split
  · exact tells_single_none silent
  · rfl

theorem tells_dropIfExpired (now : Nat) (client : Client) :
    tells key ((store.dropIfExpired key now).2 client) =
      if store.Watches client key then store.lapsed key now else [] := by
  unfold Store.dropIfExpired Store.lapsed
  split
  · exact tells_pushKvDel client
  · simp [Outbox.silent]

/-- A watcher is told what a request performs, and the source of a get is told the value. -/
theorem answer_tells (later : Nat) (source client : Client) (request : KvRequest) :
    tells key ((store.answer later source key request).2 client) =
      (if store.Watches client key then request.performed key (store.kv key) else []) ++
        if client = source then request.answered key (store.kv key) else [] := by
  have result {outbox : Outbox Client} {id : Nat} {ok : Bool} {value : Bytes} :
      tells key ((outbox.then (.sendTo source (kvResult key id ok value))) client) =
        tells key (outbox client) := by
    rw [Outbox.then, tells_append, tells_sendTo_none (pushed_kvResult key id ok value),
      List.append_nil]
  cases request with
  | set value => simp [Store.answer, Store.store, tells_pushKvUpdate, KvRequest.performed,
      KvRequest.answered]
  | setex ttlMs value => simp [Store.answer, Store.store, tells_pushKvUpdate, KvRequest.performed,
      KvRequest.answered]
  | del => simp [Store.answer, Store.dropKey, tells_pushKvDel, KvRequest.performed,
      KvRequest.answered]
  | get id =>
      simp only [Store.answer, Outbox.sendTo, KvRequest.performed, KvRequest.answered, ite_self,
        List.nil_append]
      split
      · cases found : store.kv key with
        | none => exact tells_single_none (by simp)
        | some value =>
            have reply : (kvReply key id (some value)).pushed = some (.set key value) := by simp
            rw [tells_single reply, about_single]
            exact if_pos rfl
      · rfl
  | incr id delta =>
      simp only [Store.answer, KvRequest.performed, KvRequest.answered, ite_self, List.append_nil]
      cases store.kv key with
      | none =>
          dsimp only
          rw [Store.bump, result, tells_pushKvUpdate]
      | some value =>
          dsimp only
          split
          · rw [tells_sendTo_none (pushed_kvResult key id false []), ite_self]
          · rw [Store.bump, result, tells_pushKvUpdate]
  | setnx id ttlMs value =>
      simp only [Store.answer, KvRequest.performed, KvRequest.answered, ite_self, List.append_nil]
      cases store.kv key with
      | none =>
          dsimp only
          rw [result]
          exact tells_pushKvUpdate value client
      | some found =>
          dsimp only
          rw [tells_sendTo_none (pushed_kvResult key id false []), ite_self]

/-- A request leaves the value that its changes leave. -/
theorem answer_kv (later : Nat) (source : Client) (request : KvRequest) :
    (store.answer later source key request).1.kv key =
      (request.performed key (store.kv key)).foldl Change.apply (store.kv key) := by
  cases request with
  | set value => simp [Store.answer, Store.store, KvRequest.performed, Change.apply]
  | setex ttlMs value => simp [Store.answer, Store.store, KvRequest.performed, Change.apply]
  | del => simp [Store.answer, Store.dropKey, KvRequest.performed, Change.apply]
  | get id => rfl
  | incr id delta =>
      simp only [Store.answer, KvRequest.performed]
      cases found : store.kv key with
      | none => simp [Store.bump, Change.apply]
      | some value =>
          dsimp only
          split
          · exact found
          · simp [Store.bump, Change.apply]
  | setnx id ttlMs value =>
      simp only [Store.answer, KvRequest.performed]
      cases found : store.kv key with
      | none => simp [Store.store, Change.apply]
      | some value => exact found

theorem dropIfExpired_kv (now : Nat) :
    (store.dropIfExpired key now).1.kv key =
      (store.lapsed key now).foldl Change.apply (store.kv key) := by
  unfold Store.dropIfExpired Store.lapsed
  split
  · simp [Store.dropKey, Change.apply]
  · rfl

/-- A frame performs changes of its own name. -/
theorem performed_name {now : Nat} {frame : Frame} {change : Change}
    (member : change ∈ store.performed now frame) : change.key = frame.name := by
  unfold Store.performed at member
  split at member
  · cases member
  · split at member
    · rcases List.mem_append.mp member with lapsed | performed
      · exact lapsed_key lapsed
      · exact KvRequest.performed_key performed
    · exact KvRequest.performed_key member

/-- A watcher is told what a frame performs, and the source of a get is told the value. -/
theorem handleFrame_tells (now later : Nat) (source client : Client) (frame : Frame) :
    tells key ((store.handleFrame now later source frame).2 client) =
      (if store.Watches client key then about key (store.performed now frame) else []) ++
        if client = source then store.seed key now frame else [] := by
  by_cases here : frame.name = key
  · subst key
    rw [about_eq_self fun change => performed_name]
    unfold Store.handleFrame Store.performed Store.seed
    cases read : KvRequest.ofFrame frame with
    | none => simp [Outbox.silent]
    | some request =>
        have same := dropIfExpired_watching store frame.name now
        dsimp only
        split
        · simp only [Outbox.then, tells_append, tells_dropIfExpired, answer_tells,
            same.ite_watches client, ← List.append_assoc]
          congr 1
          · split <;> simp
          · cases request <;> simp [KvRequest.answered]
        · rename_i unchecked
          rw [answer_tells]
          congr 1
          cases request <;> first | rfl | exact absurd rfl unchecked
  · have none : tells key ((store.handleFrame now later source frame).2 client) = [] := by
      apply about_eq_nil
      intro change member about
      obtain ⟨sent, among, pushed⟩ := List.mem_filterMap.mp member
      exact here ((handleFrame_name among).symm.trans ((pushed_key pushed).symm.trans about))
    have nothing : about key (store.performed now frame) = [] :=
      about_eq_nil fun change member about => here ((performed_name member).symm.trans about)
    have seedless : store.seed key now frame = [] := by
      unfold Store.seed
      split
      · exact if_neg here
      · rfl
    simp [none, nothing, seedless]

/-- A frame leaves the value that its changes leave. -/
theorem handleFrame_kv (now later : Nat) (source : Client) (frame : Frame) :
    (store.handleFrame now later source frame).1.kv key =
      (about key (store.performed now frame)).foldl Change.apply (store.kv key) := by
  by_cases here : frame.name = key
  · subst key
    rw [about_eq_self fun change => performed_name]
    unfold Store.handleFrame Store.performed
    cases read : KvRequest.ofFrame frame with
    | none => rfl
    | some request =>
        dsimp only
        split
        · rw [answer_kv, List.foldl_append, ← dropIfExpired_kv]
        · exact answer_kv later source request
  · rw [(handleFrame_other here now later source).kv,
      about_eq_nil fun change member about => here ((performed_name member).symm.trans about)]
    rfl

/-- A watcher is told what a sweep drops. -/
theorem sweepKeys_tells (now : Nat) (client : Client) (keys : List Bytes) :
    ∀ store : Store Client, tells key ((store.sweepKeys now keys).2 client) =
      if store.Watches client key then about key (store.sweepPerformed now keys) else [] := by
  induction keys with
  | nil => simp [Store.sweepKeys, Store.sweepPerformed, Outbox.silent]
  | cons name rest ih =>
      intro store
      have dropped : tells key ((store.dropIfExpired name now).2 client) =
          if store.Watches client key then about key (store.lapsed name now) else [] := by
        by_cases here : name = key
        · subst name
          rw [tells_dropIfExpired, about_eq_self fun _ => lapsed_key]
        · rw [about_eq_nil fun _ member same => here ((lapsed_key member).symm.trans same),
            ite_self]
          apply about_eq_nil
          intro change member same
          obtain ⟨sent, among, pushed⟩ := List.mem_filterMap.mp member
          exact here ((dropIfExpired_name among).symm.trans ((pushed_key pushed).symm.trans same))
      simp only [Store.sweepKeys, Store.sweepPerformed, Outbox.then, tells_append, about_append,
        dropped, ih, (dropIfExpired_watching store name now).ite_watches client]
      split <;> simp

theorem sweepKeys_kv (now : Nat) (keys : List Bytes) :
    ∀ store : Store Client, (store.sweepKeys now keys).1.kv key =
      (about key (store.sweepPerformed now keys)).foldl Change.apply (store.kv key) := by
  induction keys with
  | nil => exact fun _ => rfl
  | cons name rest ih =>
      intro store
      have dropped : (store.dropIfExpired name now).1.kv key =
          (about key (store.lapsed name now)).foldl Change.apply (store.kv key) := by
        by_cases here : name = key
        · subst name
          rw [dropIfExpired_kv, about_eq_self fun _ => lapsed_key]
        · rw [(dropIfExpired_other (Ne.symm here) now).kv,
            about_eq_nil fun _ member same => here ((lapsed_key member).symm.trans same)]
          rfl
      simp only [Store.sweepKeys, Store.sweepPerformed, about_append, List.foldl_append, ih,
        dropped]

end Chappe
