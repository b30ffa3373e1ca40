/-
This file proves that the frames of a daemon take the cache of a node from one state of the store to
a later one.
-/

import Chappe.Construction.CacheHistory
import Chappe.Proof.Kv.CacheCoherence
import Chappe.Proof.Kv.Performed

namespace Chappe
open Foundation

variable {Client Node : Type} {kv : Table Bytes Bytes} {view : CacheView} {frame : Frame}

/-- The keys that a node watches after a frame. -/
def Frame.watchedAfter (frame : Frame) (watched : Finset Bytes) : Finset Bytes :=
  match frame.msg with
  | some .kvReply => if frame.payload.length < 5 then watched else insert frame.name watched
  | some .kvUpdate => insert frame.name watched
  | _ => watched

def CacheView.read (view : CacheView) (frame : Frame) : CacheView :=
  ⟨fun key => frame.applyTo key (view.cache key), frame.watchedAfter view.watched⟩

def CacheView.readAll (view : CacheView) (frames : List Frame) : CacheView :=
  frames.foldl CacheView.read view

/-- The reader of a node does to its tables what the frame says. -/
theorem readFrame_view (node : NodeKv) (frame : Frame) :
    (node.readFrame frame).1.view = node.view.read frame := by
  have cache : (node.readFrame frame).1.cache =
      fun key => frame.applyTo key (node.cache key) := by
    funext key
    exact readFrame_cache node frame key
  have watched : (node.readFrame frame).1.watched = frame.watchedAfter node.watched := by
    unfold NodeKv.readFrame Frame.watchedAfter
    cases kind : frame.msg with
    | none => rfl
    | some msg =>
        cases msg
        case kvReply =>
          dsimp only
          unfold NodeKv.handleKvReply
          split
          · rfl
          · exact (fulfill_tables _ _ _).2
        all_goals
          dsimp only
          try
            split
            · rfl
            · exact (fulfill_tables _ _ _).2
        all_goals rfl
  unfold NodeKv.view CacheView.read
  rw [cache, watched]

theorem readAll_cache (frames : List Frame) (view : CacheView) (key : Bytes) :
    (view.readAll frames).cache key = entryAfter key (view.cache key) frames := by
  induction frames generalizing view with
  | nil => rfl
  | cons frame rest ih => exact ih (view.read frame)

/-- Only a reply or an update makes a node watch a key. -/
theorem mem_watchedAfter {key : Bytes} {watched : Finset Bytes}
    (member : key ∈ frame.watchedAfter watched) : key ∈ watched ∨ frame.Marks key := by
  unfold Frame.watchedAfter at member
  split at member
  · rename_i kind
    split at member
    · exact .inl member
    · exact (Finset.mem_insert.mp member).symm.imp_right fun same => ⟨same.symm, .inl kind⟩
  · rename_i kind
    exact (Finset.mem_insert.mp member).symm.imp_right fun same => ⟨same.symm, .inr kind⟩
  · exact .inl member

theorem mem_readAll {key : Bytes} {frames : List Frame} :
    ∀ {view : CacheView}, key ∈ (view.readAll frames).watched →
      key ∈ view.watched ∨ ∃ frame ∈ frames, frame.Marks key := by
  induction frames with
  | nil => exact fun member => .inl member
  | cons frame rest ih =>
      intro view member
      rcases ih member with before | ⟨later, there, marks⟩
      · exact (mem_watchedAfter before).imp_right fun marks => ⟨frame, List.mem_cons_self, marks⟩
      · exact .inr ⟨later, List.mem_cons_of_mem _ there, marks⟩

theorem afterChanges_append (first second : List Change) (kv : Table Bytes Bytes) :
    afterChanges (first ++ second) kv = afterChanges second (afterChanges first kv) := by
  funext key
  rw [afterChanges, about_append, List.foldl_append]
  rfl

@[simp] theorem afterChanges_nil (kv : Table Bytes Bytes) : afterChanges [] kv = kv := rfl

/-- Each frame takes the node to a later state of the store. -/
inductive Cuts : Table Bytes Bytes → List Change → CacheView → List Frame → Prop where
  | done {kv : Table Bytes Bytes} {changes : List Change} {view : CacheView} :
      Cuts kv changes view []
  | next {kv : Table Bytes Bytes} (now : List Change) {later : List Change} {view : CacheView}
      {frame : Frame} {rest : List Frame}
      (shows : (view.read frame).Shows (afterChanges now kv))
      (goesOn : Cuts (afterChanges now kv) later (view.read frame) rest) :
      Cuts kv (now ++ later) view (frame :: rest)

/-- Changes that come before the frames come before the first of them. -/
theorem Cuts.after {changes : List Change} {frames : List Frame} (before : List Change)
    (cuts : Cuts (afterChanges before kv) changes view frames) :
    Cuts kv (before ++ changes) view frames := by
  cases cuts with
  | done => exact .done
  | next now shows goesOn =>
      rw [← afterChanges_append] at shows goesOn
      rw [← List.append_assoc]
      exact .next (before ++ now) shows goesOn

theorem Cuts.append {first second : List Frame} {changes later : List Change}
    (cuts : Cuts kv changes view first) :
    Cuts (afterChanges changes kv) later (view.readAll first) second →
      Cuts kv (changes ++ later) view (first ++ second) := by
  induction cuts with
  | done => exact fun cuts => cuts.after _
  | @next kv now rest view frame frames shows goesOn ih =>
      intro cuts
      rw [List.append_assoc]
      rw [afterChanges_append] at cuts
      exact .next now shows (ih cuts)

/-- The first frames take the node over the same states. -/
theorem Cuts.take {frames : List Frame} {changes : List Change}
    (cuts : Cuts kv changes view frames) (count : Nat) :
    Cuts kv changes view (frames.take count) := by
  induction cuts generalizing count with
  | done =>
      rw [List.take_nil]
      exact .done
  | next now shows goesOn ih =>
      cases count with
      | zero => exact .done
      | succ count => exact .next now shows (ih count)

theorem afterChanges_single (change : Change) (kv : Table Bytes Bytes) (key : Bytes) :
    afterChanges [change] kv key =
      if change.key = key then change.apply (kv key) else kv key := by
  rw [afterChanges, about_single]
  split
  · rfl
  · rfl

theorem afterChanges_set (key value : Bytes) (kv : Table Bytes Bytes) :
    afterChanges [.set key value] kv = kv.insert key value := by
  funext other
  rw [afterChanges_single]
  split
  · rename_i same
    rw [← same]
    exact (Table.insert_self ..).symm
  · rename_i different
    exact (Table.insert_of_ne _ _ (Ne.symm different)).symm

theorem afterChanges_del (key : Bytes) (kv : Table Bytes Bytes) :
    afterChanges [.del key] kv = kv.erase key := by
  funext other
  rw [afterChanges_single]
  split
  · rename_i same
    rw [← same]
    exact (Table.erase_self ..).symm
  · rename_i different
    exact (Table.erase_of_ne _ (Ne.symm different)).symm

/-- The node watches no other keys than the daemon, and has the value of each of these. -/
structure Store.Sees (store : Store Client) (client : Client) (view : CacheView) : Prop where
  watched : ∀ key ∈ view.watched, store.Watches client key
  cached : ∀ key, store.Watches client key → view.cache key = store.kv key

variable {store : Store Client} {client : Client} {result : Store Client × Outbox Client}
  {asks : Client → Prop}

theorem Store.Sees.shows (sees : store.Sees client view) : view.Shows store.kv :=
  fun key member => sees.cached key (sees.watched key member)

/-- A step of the store that tells its watchers leaves the node with the new values. -/
theorem Tells.sees (tells : Tells store result asks) (sees : store.Sees client view) :
    result.1.Sees client (view.readAll (result.2 client)) where
  watched := by
    intro key member
    rcases mem_readAll member with before | ⟨frame, there, marks⟩
    · exact tells.kept client key (sees.watched key before)
    · exact tells.marked client key frame there marks
  cached := by
    intro key watches
    rw [readAll_cache]
    exact tells.told client key _ watches (sees.cached key)

/-- A step of the store performs the changes, and its frames take every node over them in order. -/
structure Paces (store : Store Client) (result : Store Client × Outbox Client)
    (changes : List Change) : Prop where
  kv : result.1.kv = afterChanges changes store.kv
  cuts : ∀ client view, store.Sees client view → Cuts store.kv changes view (result.2 client)

theorem Paces.silent (store : Store Client) : Paces store (store, .silent) [] :=
  ⟨rfl, fun _ _ _ => .done⟩

/-- Two steps under one lock perform the changes of both. -/
theorem Paces.then {first second : Store Client × Outbox Client} {earlier later : List Change}
    (tells : Tells store first asks) (before : Paces store first earlier)
    (after : Paces first.1 second later) :
    Paces store (second.1, first.2.then second.2) (earlier ++ later) where
  kv := by rw [afterChanges_append, ← before.kv, ← after.kv]
  cuts := by
    intro client view sees
    refine (before.cuts client view sees).append ?_
    rw [← before.kv]
    exact after.cuts client _ (tells.sees sees)

/-- A client that is sent one frame at most sees all changes at once. -/
theorem Paces.single {changes : List Change} (tells : Tells store result asks)
    (kv : result.1.kv = afterChanges changes store.kv)
    (short : ∀ client, (result.2 client).length ≤ 1) : Paces store result changes where
  kv := kv
  cuts := by
    intro client view sees
    have told := tells.sees sees
    match frames : result.2 client with
    | [] => exact .done
    | [frame] =>
        rw [frames] at told
        have shows := told.shows
        rw [kv] at shows
        have all : Cuts store.kv (changes ++ []) view [frame] := .next changes shows .done
        rwa [List.append_nil] at all
    | _ :: _ :: _ =>
        have bound := short client
        rw [frames] at bound
        exact absurd bound (by simp)

variable [DecidableEq Client]

theorem sendTo_short (client : Client) (frame : Frame) (other : Client) :
    (Outbox.sendTo client frame other).length ≤ 1 := by
  simp only [Outbox.sendTo]
  split <;> simp

theorem fanOut_short (clients : Option (Finset Client)) (frame : Frame) (other : Client) :
    (Outbox.fanOut clients frame other).length ≤ 1 := by
  simp only [Outbox.fanOut]
  split <;> simp

theorem Paces.kvResult (store : Store Client) (client : Client) (key : Bytes) (id : Nat) (ok : Bool)
    (value : Bytes) : Paces store (store, .sendTo client (kvResult key id ok value)) [] :=
  .single (Tells.result store client key id ok value) rfl (sendTo_short client _)

theorem Paces.write (store : Store Client) (key value : Bytes) (ttlMs now : Nat) :
    Paces store (store.store key value ttlMs now) [.set key value] :=
  .single (Tells.store store key value ttlMs now fun _ => False)
    (afterChanges_set key value store.kv).symm (fanOut_short _ _)

theorem Paces.dropKey (store : Store Client) (key : Bytes) :
    Paces store (store.dropKey key) [.del key] :=
  .single (Tells.dropKey store key fun _ => False) (afterChanges_del key store.kv).symm
    (fanOut_short _ _)

theorem Paces.dropIfExpired (store : Store Client) (key : Bytes) (now : Nat) :
    Paces store (store.dropIfExpired key now) (store.lapsed key now) := by
  unfold Store.dropIfExpired Store.lapsed
  split
  · exact Paces.dropKey store key
  · exact Paces.silent store

/-- An increment pushes the new value before its result. -/
theorem Paces.bump (store : Store Client) (client : Client) (key : Bytes) (id current delta : Nat) :
    Paces store (store.bump client key id current delta)
      [.set key (littleEndian 8 (current + delta))] := by
  have told : Tells store ((store.bump client key id current delta).1,
      store.pushKvUpdate key (littleEndian 8 (current + delta))) (fun _ => False) := by
    refine Tells.fanOut store _ key (Msg.kvUpdate.frame key _) _ rfl rfl ?_ ?_
    · intro entry
      simp [Frame.applyTo, Store.bump]
    · intro other different
      exact Table.insert_of_ne _ _ different
  have pushed := Paces.single told (afterChanges_set key _ store.kv).symm (fanOut_short _ _)
  exact pushed.then told (Paces.kvResult _ client key id true _)

/-- A get replies with the value of the key. -/
theorem Paces.get (store : Store Client) (client : Client) (key : Bytes) (id : Nat) :
    Paces store (store.watch client key, .sendTo client (kvReply key id (store.kv key))) [] :=
  .single (Tells.get store client key id) rfl (sendTo_short client _)

/-- The body of every request performs its changes. -/
theorem Paces.answer (store : Store Client) (later : Nat) (client : Client) (key : Bytes)
    (request : KvRequest) :
    Paces store (store.answer later client key request)
      (request.performed key (store.kv key)) := by
  cases request with
  | set value => exact Paces.write store key value 0 later
  | setex ttlMs value => exact Paces.write store key value ttlMs later
  | del => exact Paces.dropKey store key
  | get id => exact Paces.get store client key id
  | incr id delta =>
      simp only [Store.answer, KvRequest.performed]
      cases store.kv key with
      | none => exact Paces.bump store client key id 0 delta
      | some value =>
          dsimp only
          split
          · exact Paces.kvResult store client key id false []
          · exact Paces.bump store client key id _ delta
  | setnx id ttlMs value =>
      simp only [Store.answer, KvRequest.performed]
      cases store.kv key with
      | none =>
          exact (Paces.write store key value ttlMs later).then
            (Tells.store store key value ttlMs later fun _ => False)
            (Paces.kvResult _ client key id true [])
      | some _ => exact Paces.kvResult store client key id false []

theorem Paces.handleFrame (store : Store Client) (now later : Nat) (client : Client)
    (frame : Frame) :
    Paces store (store.handleFrame now later client frame) (store.performed now frame) := by
  unfold Store.handleFrame Store.performed
  cases KvRequest.ofFrame frame with
  | none => exact Paces.silent store
  | some request =>
      dsimp only
      split
      · exact (Paces.dropIfExpired store frame.name now).then
          (Tells.dropIfExpired store frame.name now fun _ => False)
          (Paces.answer _ later client frame.name request)
      · exact Paces.answer store later client frame.name request

theorem Paces.sweepKeys (now : Nat) (keys : List Bytes) : ∀ store : Store Client,
    Paces store (store.sweepKeys now keys) (store.sweepPerformed now keys) := by
  induction keys with
  | nil => exact fun store => Paces.silent store
  | cons key rest ih =>
      intro store
      exact (Paces.dropIfExpired store key now).then
        (Tells.dropIfExpired store key now fun _ => False) (ih _)

end Chappe
