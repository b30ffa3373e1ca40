/-
This file proves that the cache of a node agrees with the store after the frames in transit.
-/

import Chappe.Construction.Cache
import Chappe.Foundation.Run
import Chappe.Proof.Kv.Watching

namespace Chappe
open Foundation

variable {Client Node : Type}

/-- What a frame of the daemon does to the cache entry of one key. -/
def Frame.applyTo (key : Bytes) (entry : Option Bytes) (frame : Frame) : Option Bytes :=
  if frame.name = key then
    match frame.msg with
    | some .kvReply => if frame.payload.length < 5 then entry else answerValue frame.payload
    | some .kvUpdate => some frame.payload
    | some .kvDel => none
    | _ => entry
  else entry

/-- The cache entry of a key after the frames in transit, in order. -/
def entryAfter (key : Bytes) (entry : Option Bytes) (frames : List Frame) : Option Bytes :=
  frames.foldl (Frame.applyTo key) entry

/-- The frames that make a node watch a key. -/
def Frame.Marks (frame : Frame) (key : Bytes) : Prop :=
  frame.name = key ∧ (frame.msg = some .kvReply ∨ frame.msg = some .kvUpdate)

theorem entryAfter_append (key : Bytes) (entry : Option Bytes) (first second : List Frame) :
    entryAfter key entry (first ++ second) = entryAfter key (entryAfter key entry first) second :=
  List.foldl_append

theorem Frame.applyTo_of_ne {key : Bytes} {frame : Frame} (other : frame.name ≠ key)
    (entry : Option Bytes) : frame.applyTo key entry = entry := if_neg other

theorem fulfill_tables (node : NodeKv) (id : Nat) (value : Option Bytes) :
    (node.fulfill id value).1.cache = node.cache ∧
      (node.fulfill id value).1.watched = node.watched := by
  unfold NodeKv.fulfill
  split <;> exact ⟨rfl, rfl⟩

/-- A reply changes the cache entry of its own key only. -/
theorem handleKvReply_cache (node : NodeKv) (frame : Frame) (key : Bytes) :
    (node.handleKvReply frame).1.cache key =
      if frame.name = key then
        if frame.payload.length < 5 then node.cache key else answerValue frame.payload
      else node.cache key := by
  unfold NodeKv.handleKvReply
  by_cases short : frame.payload.length < 5
  · simp only [if_pos short, ite_self]
  · simp only [if_neg short, (fulfill_tables _ _ _).1]
    by_cases same : frame.name = key
    · subst key
      rw [if_pos rfl]
      cases answerValue frame.payload with
      | none => exact Table.erase_self _ _
      | some value => exact Table.insert_self _ _ _
    · rw [if_neg same]
      cases answerValue frame.payload with
      | none => exact Table.erase_of_ne _ (Ne.symm same)
      | some value => exact Table.insert_of_ne _ _ (Ne.symm same)

/-- The reader changes each cache entry as the frame says. -/
theorem readFrame_cache (node : NodeKv) (frame : Frame) (key : Bytes) :
    (node.readFrame frame).1.cache key = frame.applyTo key (node.cache key) := by
  cases kind : frame.msg with
  | none => simp only [NodeKv.readFrame, Frame.applyTo, kind, ite_self]
  | some msg =>
      cases msg
      case kvReply =>
        simp only [NodeKv.readFrame, Frame.applyTo, kind]
        exact handleKvReply_cache node frame key
      case kvUpdate =>
        simp only [NodeKv.readFrame, Frame.applyTo, kind]
        split
        · subst key
          exact Table.insert_self _ _ _
        · exact Table.insert_of_ne _ _ (Ne.symm ‹_›)
      case kvDel =>
        simp only [NodeKv.readFrame, Frame.applyTo, kind]
        split
        · subst key
          exact Table.erase_self _ _
        · exact Table.erase_of_ne _ (Ne.symm ‹_›)
      all_goals
        simp only [NodeKv.readFrame, Frame.applyTo, kind, ite_self]
        try
          split
          · rfl
          · rw [(fulfill_tables _ _ _).1]

/-- Only a reply or an update makes a node watch a key. -/
theorem readFrame_watched {node : NodeKv} {frame : Frame} {key : Bytes}
    (watched : key ∈ (node.readFrame frame).1.watched) :
    key ∈ node.watched ∨ frame.Marks key := by
  unfold NodeKv.readFrame at watched
  split at watched
  case h_1 kind =>
    unfold NodeKv.handleKvReply at watched
    split at watched
    · exact .inl watched
    · rw [(fulfill_tables _ _ _).2] at watched
      rcases Finset.mem_insert.mp watched with same | before
      · exact .inr ⟨same.symm, .inl kind⟩
      · exact .inl before
  case h_2 kind =>
    rcases Finset.mem_insert.mp watched with same | before
    · exact .inr ⟨same.symm, .inr kind⟩
    · exact .inl before
  case h_4 => exact .inl watched
  case h_7 => exact .inl watched
  all_goals
    split at watched
    · exact .inl watched
    · rw [(fulfill_tables _ _ _).2] at watched
      exact .inl watched

/-- A result changes neither the cache nor the watched keys. -/
theorem readFrame_kvResult (node : NodeKv) {frame : Frame} (result : frame.msg = some .kvResult) :
    (node.readFrame frame).1.cache = node.cache ∧
      (node.readFrame frame).1.watched = node.watched := by
  simp only [NodeKv.readFrame, result]
  split
  · exact ⟨rfl, rfl⟩
  · exact fulfill_tables _ _ _

/-- A step of the store tells every watcher of a key the value that the key then has. Only an
asking client starts to watch a key. -/
structure Tells (store : Store Client) (result : Store Client × Outbox Client)
    (asks : Client → Prop) : Prop where
  kept : ∀ client key, store.Watches client key → result.1.Watches client key
  asked : ∀ client key, result.1.Watches client key → store.Watches client key ∨ asks client
  marked : ∀ client key, ∀ frame ∈ result.2 client, frame.Marks key → result.1.Watches client key
  addressed : ∀ client, (∀ key, ¬ store.Watches client key) → ¬ asks client → result.2 client = []
  told : ∀ client key entry, result.1.Watches client key →
    (store.Watches client key → entry = store.kv key) →
    entryAfter key entry (result.2 client) = result.1.kv key

theorem Tells.silent (store : Store Client) (asks : Client → Prop) :
    Tells store (store, .silent) asks where
  kept := fun _ _ watches => watches
  asked := fun _ _ watches => .inl watches
  marked := fun _ _ _ member => absurd member List.not_mem_nil
  addressed := fun _ _ _ => rfl
  told := fun _ _ _ watches agrees => agrees watches

/-- Two steps under one lock tell what each of them tells. -/
theorem Tells.then {store : Store Client} {first second : Store Client × Outbox Client}
    {asks : Client → Prop} (before : Tells store first asks) (after : Tells first.1 second asks) :
    Tells store (second.1, first.2.then second.2) asks where
  kept := fun client key watches => after.kept client key (before.kept client key watches)
  asked := fun client key watches => (after.asked client key watches).elim
    (before.asked client key) .inr
  marked := by
    intro client key frame member marks
    rcases List.mem_append.mp member with early | late
    · exact after.kept client key (before.marked client key frame early marks)
    · exact after.marked client key frame late marks
  addressed := by
    intro client blind quiet
    have still : ∀ key, ¬ first.1.Watches client key := fun key watches =>
      (before.asked client key watches).elim (blind key) quiet
    exact List.append_eq_nil_iff.mpr
      ⟨before.addressed client blind quiet, after.addressed client still quiet⟩
  told := by
    intro client key entry watches agrees
    change entryAfter key entry (first.2 client ++ second.2 client) = _
    rw [entryAfter_append]
    exact after.told client key _ watches fun mid => before.told client key entry mid agrees

variable [DecidableEq Client]

/-- A change of one key that is pushed to its watchers. -/
theorem Tells.fanOut (store changed : Store Client) (key : Bytes) (frame : Frame)
    (asks : Client → Prop) (name : frame.name = key) (watchers : changed.watchers = store.watchers)
    (here : ∀ entry, frame.applyTo key entry = changed.kv key)
    (elsewhere : ∀ other, other ≠ key → changed.kv other = store.kv other) :
    Tells store (changed, .fanOut (store.watchers key) frame) asks where
  kept := by
    intro client other watches
    rwa [Store.Watches, watchers]
  asked := by
    intro client other watches
    rw [Store.Watches, watchers] at watches
    exact .inl watches
  marked := by
    intro client other pushed member marks
    simp only [Outbox.fanOut] at member
    split at member
    · rename_i among
      rw [List.mem_singleton.mp member] at marks
      have same : key = other := name.symm.trans marks.1
      subst other
      rw [Store.Watches, watchers]
      exact among
    · cases member
  addressed := by
    intro client blind _
    exact if_neg (blind key)
  told := by
    intro client other entry watches agrees
    rw [Store.Watches, watchers] at watches
    by_cases same : other = key
    · subst other
      simp only [Outbox.fanOut]
      rw [if_pos watches]
      exact here entry
    · rw [elsewhere other same, ← agrees watches]
      simp only [Outbox.fanOut]
      split
      · exact Frame.applyTo_of_ne (fun eq => same (eq.symm.trans name)) entry
      · rfl

/-- A frame that no cache reads, sent to the asking client. -/
theorem Tells.neutral (store : Store Client) (client : Client) (frame : Frame)
    (unread : ∀ key entry, frame.applyTo key entry = entry) (unmarked : ∀ key, ¬ frame.Marks key) :
    Tells store (store, .sendTo client frame) (· = client) where
  kept := fun _ _ watches => watches
  asked := fun _ _ watches => .inl watches
  marked := by
    intro other key sent member marks
    simp only [Outbox.sendTo] at member
    split at member
    · rw [List.mem_singleton.mp member] at marks
      exact absurd marks (unmarked key)
    · cases member
  addressed := fun _ _ quiet => if_neg quiet
  told := by
    intro other key entry watches agrees
    rw [agrees watches]
    simp only [Outbox.sendTo]
    split
    · exact unread key _
    · rfl

theorem Tells.result (store : Store Client) (client : Client) (key : Bytes) (id : Nat) (ok : Bool)
    (value : Bytes) :
    Tells store (store, .sendTo client (kvResult key id ok value)) (· = client) :=
  Tells.neutral store client _ (by simp [Frame.applyTo, kvResult])
    (by simp [Frame.Marks, kvResult])

theorem Tells.foreign (store : Store Client) (client : Client) (msg : Msg) (name payload : Bytes)
    (foreign : msg.isForeign = true) :
    Tells store (store, .sendTo client (msg.frame name payload)) (· = client) := by
  apply Tells.neutral
  · intro key entry
    cases msg <;> simp [Msg.isForeign, Frame.applyTo] at foreign ⊢
  · intro key
    cases msg <;> simp [Msg.isForeign, Frame.Marks] at foreign ⊢

theorem Tells.store (store : Store Client) (key value : Bytes) (ttlMs now : Nat)
    (asks : Client → Prop) : Tells store (store.store key value ttlMs now) asks := by
  refine Tells.fanOut store (store.store key value ttlMs now).1 key (Msg.kvUpdate.frame key value)
    asks rfl rfl ?_ ?_
  · intro entry
    simp [Frame.applyTo, Store.store]
  · intro other different
    exact Table.insert_of_ne _ _ different

theorem Tells.dropKey (store : Store Client) (key : Bytes) (asks : Client → Prop) :
    Tells store (store.dropKey key) asks := by
  refine Tells.fanOut store (store.dropKey key).1 key (Msg.kvDel.frame key []) asks rfl rfl ?_ ?_
  · intro entry
    simp [Frame.applyTo, Store.dropKey]
  · intro other different
    exact Table.erase_of_ne _ different

theorem Tells.dropIfExpired (store : Store Client) (key : Bytes) (now : Nat)
    (asks : Client → Prop) : Tells store (store.dropIfExpired key now) asks := by
  unfold Store.dropIfExpired
  split
  · exact Tells.dropKey store key asks
  · exact Tells.silent store asks

theorem Tells.bump (store : Store Client) (client : Client) (key : Bytes) (id current delta : Nat) :
    Tells store (store.bump client key id current delta) (· = client) := by
  have pushed : Tells store ((store.bump client key id current delta).1,
      store.pushKvUpdate key (littleEndian 8 (current + delta))) (· = client) := by
    refine Tells.fanOut store _ key (Msg.kvUpdate.frame key _) _ rfl rfl ?_ ?_
    · intro entry
      simp [Frame.applyTo, Store.bump]
    · intro other different
      exact Table.insert_of_ne _ _ different
  exact pushed.then (Tells.result _ client key id true _)

/-- A get starts the watch and replies with the value under one lock. -/
theorem Tells.get (store : Store Client) (client : Client) (key : Bytes) (id : Nat) :
    Tells store (store.watch client key, .sendTo client (kvReply key id (store.kv key)))
      (· = client) := by
  have watches (other : Client) (name : Bytes) : (store.watch client key).Watches other name ↔
      store.Watches other name ∨ (other = client ∧ name = key) := by
    unfold Store.Watches
    by_cases same : name = key
    · subst name
      simp [Store.watch, or_comm]
    · simp [Store.watch, Table.insert_of_ne _ _ same, same]
  have value : answerValue (answerPayload id (store.kv key).isSome ((store.kv key).getD [])) =
      store.kv key := by
    cases store.kv key with
    | none => simp [answerValue, answerPayload, appendU32, littleEndian]
    | some value => simp [answerValue, answerPayload, appendU32, littleEndian]
  refine ⟨?_, ?_, ?_, ?_, ?_⟩
  · intro other name watching
    exact (watches other name).mpr (.inl watching)
  · intro other name watching
    exact ((watches other name).mp watching).imp_right And.left
  · intro other name frame member marks
    simp only [Outbox.sendTo] at member
    split at member
    · rename_i same
      rw [List.mem_singleton.mp member] at marks
      exact (watches other name).mpr (.inr ⟨same, marks.1.symm⟩)
    · cases member
  · intro other _ quiet
    exact if_neg quiet
  · intro other name entry watching agrees
    simp only [Outbox.sendTo]
    by_cases mine : other = client ∧ name = key
    · obtain ⟨rfl, rfl⟩ := mine
      rw [if_pos rfl]
      simp [entryAfter, Frame.applyTo, kvReply, answerPayload_length, value, Store.watch]
    · have before := ((watches other name).mp watching).resolve_right mine
      change _ = store.kv name
      rw [← agrees before]
      split
      · rename_i same
        have apart : key ≠ name := fun eq => mine ⟨same, eq.symm⟩
        exact Frame.applyTo_of_ne apart entry
      · rfl

/-- The body of every request tells the watchers of its key. -/
theorem Tells.answer (store : Store Client) (later : Nat) (client : Client) (key : Bytes)
    (request : KvRequest) :
    Tells store (store.answer later client key request) (· = client) := by
  cases request with
  | set value => exact Tells.store store key value 0 later _
  | setex ttlMs value => exact Tells.store store key value ttlMs later _
  | del => exact Tells.dropKey store key _
  | get id => exact Tells.get store client key id
  | incr id delta =>
      simp only [Store.answer]
      split
      · split
        · exact Tells.result store client key id false []
        · exact Tells.bump store client key id _ delta
      · exact Tells.bump store client key id 0 delta
  | setnx id ttlMs value =>
      simp only [Store.answer]
      split
      · exact (Tells.store store key value ttlMs later _).then
          (Tells.result _ client key id true [])
      · exact Tells.result store client key id false []

theorem Tells.handleFrame (store : Store Client) (now later : Nat) (client : Client)
    (frame : Frame) : Tells store (store.handleFrame now later client frame) (· = client) := by
  unfold Store.handleFrame
  split
  · exact Tells.silent store _
  · split
    · exact (Tells.dropIfExpired store frame.name now _).then (Tells.answer _ later client _ _)
    · exact Tells.answer store later client _ _

theorem Tells.sweepKeys (now : Nat) (keys : List Bytes) :
    ∀ store : Store Client, Tells store (store.sweepKeys now keys) fun _ => False := by
  induction keys with
  | nil => exact fun store => Tells.silent store _
  | cons key rest ih => exact fun store => (Tells.dropIfExpired store key now _).then (ih _)

/-- A node whose connection is open watches only what the daemon pushes to it, and its cache
agrees with the store after the frames in transit. -/
structure Coherent (bus : Bus Node) : Prop where
  fresh : ∀ client : Peer Node, bus.epoch client.1 < client.2 →
    bus.uplink client = [] ∧ bus.wire client = [] ∧ ∀ key, ¬ bus.store.Watches client key
  cleared : ∀ node, bus.phase node = .down → (bus.node node).watched = ∅
  marked : ∀ node, bus.phase node ≠ .down → bus.served (bus.current node) = .open → ∀ key,
    (key ∈ (bus.node node).watched ∨ ∃ frame ∈ bus.wire (bus.current node), frame.Marks key) →
      bus.store.Watches (bus.current node) key
  agreed : ∀ node, bus.phase node ≠ .down → bus.served (bus.current node) = .open → ∀ key,
    bus.store.Watches (bus.current node) key →
      entryAfter key ((bus.node node).cache key) (bus.wire (bus.current node)) = bus.store.kv key

theorem Coherent.initial : Coherent (Bus.initial : Bus Node) where
  fresh := fun _ _ => ⟨rfl, rfl, fun _ watches => absurd watches (Finset.notMem_empty _)⟩
  cleared := fun _ _ => rfl
  marked := fun _ up => absurd rfl up
  agreed := fun _ up => absurd rfl up

/-- The uplinks matter only for connections that do not exist yet. -/
theorem Coherent.uplink {bus : Bus Node} (coherent : Coherent bus)
    (uplink : Peer Node → List Frame)
    (fresh : ∀ client : Peer Node, bus.epoch client.1 < client.2 → uplink client = []) :
    Coherent { bus with uplink := uplink } where
  fresh := fun client new => ⟨fresh client new, (coherent.fresh client new).2⟩
  cleared := coherent.cleared
  marked := coherent.marked
  agreed := coherent.agreed

/-- A connection that is still open took every frame of the step. -/
theorem write_open {bus : Bus Node} {outbox : Outbox (Peer Node)} {room : Peer Node → Nat}
    {client : Peer Node} (opened : (bus.write outbox room).served client = .open) :
    bus.served client = .open ∧
      (bus.write outbox room).wire client = bus.wire client ++ outbox client := by
  simp only [Bus.write] at opened ⊢
  split at opened
  · cases opened
  · rename_i took
    have whole : (outbox client).length ≤ room client := by
      by_contra short
      exact took ⟨opened, by omega⟩
    exact ⟨opened, by rw [if_pos opened, List.take_of_length_le whole]⟩

/-- A step of the daemon that tells the watchers keeps every cache coherent. -/
theorem Coherent.serve {bus : Bus Node} (coherent : Coherent bus)
    {result : Store (Peer Node) × Outbox (Peer Node)} {asks : Peer Node → Prop}
    (tells : Tells bus.store result asks)
    (known : ∀ client, asks client → client.2 ≤ bus.epoch client.1) (room : Peer Node → Nat) :
    Coherent (bus.serve result room) where
  fresh := by
    intro client new
    obtain ⟨noUplink, noWire, blind⟩ := coherent.fresh client new
    have quiet : ¬ asks client := fun asking => by
      have := known client asking
      change bus.epoch client.1 < client.2 at new
      omega
    refine ⟨noUplink, ?_, ?_⟩
    · simp [Bus.serve, Bus.write, noWire, tells.addressed client blind quiet]
    · intro key watches
      exact (tells.asked client key watches).elim (blind key) quiet
  cleared := coherent.cleared
  marked := by
    intro node up opened key marks
    obtain ⟨before, wire⟩ := write_open opened
    change (bus.serve result room).wire (bus.current node) = _ at wire
    change _ ∨ ∃ frame ∈ (bus.serve result room).wire (bus.current node), _ at marks
    rw [wire] at marks
    rcases marks with watched | ⟨frame, member, marks⟩
    · exact tells.kept _ key (coherent.marked node up before key (.inl watched))
    · rcases List.mem_append.mp member with early | late
      · exact tells.kept _ key (coherent.marked node up before key (.inr ⟨frame, early, marks⟩))
      · exact tells.marked _ key frame late marks
  agreed := by
    intro node up opened key watches
    obtain ⟨before, wire⟩ := write_open opened
    change entryAfter key _ ((bus.serve result room).wire (bus.current node)) = _
    change (bus.serve result room).wire (bus.current node) = _ at wire
    rw [wire, entryAfter_append]
    exact tells.told _ key _ watches fun already => coherent.agreed node up before key already

variable [DecidableEq Node]

/-- A change of the pending requests leaves the cache. -/
theorem Coherent.pending {bus : Bus Node} (coherent : Coherent bus) (node : Node) (tables : NodeKv)
    (cache : tables.cache = (bus.node node).cache)
    (watched : tables.watched = (bus.node node).watched) :
    Coherent { bus with node := Function.update bus.node node tables } := by
  have same (other : Node) : (Function.update bus.node node tables other).cache =
      (bus.node other).cache ∧ (Function.update bus.node node tables other).watched =
      (bus.node other).watched := by
    by_cases eq : other = node
    · subst other
      rw [Function.update_self]
      exact ⟨cache, watched⟩
    · rw [Function.update_of_ne eq]
      exact ⟨rfl, rfl⟩
  refine ⟨coherent.fresh, ?_, ?_, ?_⟩
  · intro other down
    exact (same other).2.trans (coherent.cleared other down)
  · intro other up opened key
    simp only [(same other).2]
    exact coherent.marked other up opened key
  · intro other up opened key watches
    simp only [(same other).1]
    exact coherent.agreed other up opened key watches

theorem Coherent.removeClient {bus : Bus Node} (coherent : Coherent bus) (client : Peer Node) :
    Coherent (bus.step (.removeClient client)) := by
  have other (node : Node) (opened : (Function.update bus.served client .removed)
      (bus.current node) = .open) :
      bus.current node ≠ client ∧ bus.served (bus.current node) = .open := by
    by_cases same : bus.current node = client
    · rw [same, Function.update_self] at opened
      cases opened
    · rw [Function.update_of_ne same] at opened
      exact ⟨same, opened⟩
  refine ⟨?_, coherent.cleared, ?_, ?_⟩
  · intro peer new
    obtain ⟨noUplink, noWire, blind⟩ := coherent.fresh peer new
    exact ⟨noUplink, noWire,
      fun key watches => blind key ((removeClient_watches _ _ _ key).mp watches).1⟩
  · intro node up opened key marks
    obtain ⟨different, before⟩ := other node opened
    exact (removeClient_watches _ _ _ key).mpr
      ⟨coherent.marked node up before key marks, fun gone => different gone.2⟩
  · intro node up opened key watches
    obtain ⟨different, before⟩ := other node opened
    exact coherent.agreed node up before key ((removeClient_watches _ _ _ key).mp watches).1

/-- The reader moves a frame from the wire into the cache. -/
theorem Coherent.deliver {bus : Bus Node} (coherent : Coherent bus) (node : Node) {frame : Frame}
    {rest : List Frame} (wire : bus.wire (bus.current node) = frame :: rest)
    (linked : bus.phase node = .up) :
    Coherent { bus with
      wire := Function.update bus.wire (bus.current node) rest
      node := Function.update bus.node node ((bus.node node).readFrame frame).1 } := by
  have apart {other : Node} (different : other ≠ node) : bus.current other ≠ bus.current node :=
    fun same => different (congrArg Prod.fst same)
  refine ⟨?_, ?_, ?_, ?_⟩
  · intro client new
    obtain ⟨noUplink, noWire, blind⟩ := coherent.fresh client new
    refine ⟨noUplink, ?_, blind⟩
    have different : client ≠ bus.current node := by
      intro same
      rw [same, wire] at noWire
      cases noWire
    exact (Function.update_of_ne different _ _).trans noWire
  · intro other down
    have different : other ≠ node := by
      rintro rfl
      rw [linked] at down
      cases down
    change (Function.update bus.node node _ other).watched = ∅
    rw [Function.update_of_ne different]
    exact coherent.cleared other down
  · intro other up opened key marks
    by_cases same : other = node
    · subst other
      change bus.store.Watches (bus.current node) key
      change key ∈ (Function.update bus.node node _ node).watched ∨
        ∃ frame ∈ Function.update bus.wire (bus.current node) rest (bus.current node), _ at marks
      rw [Function.update_self, Function.update_self] at marks
      apply coherent.marked node up opened key
      rw [wire]
      rcases marks with watched | ⟨late, member, marks⟩
      · exact (readFrame_watched watched).imp_right fun marks =>
          ⟨frame, List.mem_cons_self, marks⟩
      · exact .inr ⟨late, List.mem_cons_of_mem _ member, marks⟩
    · change bus.store.Watches (bus.current other) key
      change key ∈ (Function.update bus.node node _ other).watched ∨
        ∃ frame ∈ Function.update bus.wire (bus.current node) rest (bus.current other), _ at marks
      rw [Function.update_of_ne same, Function.update_of_ne (apart same)] at marks
      exact coherent.marked other up opened key marks
  · intro other up opened key watches
    change entryAfter key ((Function.update bus.node node _ other).cache key)
      (Function.update bus.wire (bus.current node) rest (bus.current other)) = _
    by_cases same : other = node
    · subst other
      rw [Function.update_self, Function.update_self, readFrame_cache,
        ← coherent.agreed node up opened key watches, wire]
      rfl
    · rw [Function.update_of_ne same, Function.update_of_ne (apart same)]
      exact coherent.agreed other up opened key watches

/-- A dropped link clears the cache before it connects again. -/
theorem Coherent.clearCache {bus : Bus Node} (coherent : Coherent bus) (node : Node) :
    Coherent { bus with
      phase := Function.update bus.phase node .down
      node := Function.update bus.node node
        { bus.node node with cache := .empty, watched := ∅ } } := by
  have other {peer : Node} (up : Function.update bus.phase node .down peer ≠ .down) :
      peer ≠ node := by
    rintro rfl
    exact up (Function.update_self ..)
  refine ⟨coherent.fresh, ?_, ?_, ?_⟩
  · intro peer down
    change (Function.update bus.node node _ peer).watched = ∅
    change Function.update bus.phase node _ peer = _ at down
    by_cases same : peer = node
    · subst peer
      rw [Function.update_self]
    · rw [Function.update_of_ne same] at down ⊢
      exact coherent.cleared peer down
  · intro peer up opened key marks
    have different := other up
    change Function.update bus.phase node _ peer ≠ _ at up
    change key ∈ (Function.update bus.node node _ peer).watched ∨ _ at marks
    rw [Function.update_of_ne different] at up marks
    exact coherent.marked peer up opened key marks
  · intro peer up opened key watches
    have different := other up
    change Function.update bus.phase node _ peer ≠ _ at up
    change entryAfter key ((Function.update bus.node node _ peer).cache key) _ = _
    rw [Function.update_of_ne different] at up ⊢
    exact coherent.agreed peer up opened key watches

/-- A new connection starts without watches and without frames. -/
theorem Coherent.connect {bus : Bus Node} (coherent : Coherent bus) (node : Node)
    (down : bus.phase node = .down) :
    Coherent { bus with
      phase := Function.update bus.phase node .up
      epoch := Function.update bus.epoch node (bus.epoch node + 1) } := by
  have later (peer : Node) :
      bus.epoch peer ≤ Function.update bus.epoch node (bus.epoch node + 1) peer := by
    by_cases same : peer = node
    · subst peer
      rw [Function.update_self]
      omega
    · rw [Function.update_of_ne same]
  obtain ⟨-, noWire, blind⟩ := coherent.fresh (node, bus.epoch node + 1) (Nat.lt_succ_self _)
  refine ⟨?_, ?_, ?_, ?_⟩
  · intro client new
    exact coherent.fresh client (Nat.lt_of_le_of_lt (later client.1) new)
  · intro peer still
    change Function.update bus.phase node _ peer = _ at still
    by_cases same : peer = node
    · subst peer
      exact coherent.cleared node down
    · rw [Function.update_of_ne same] at still
      exact coherent.cleared peer still
  · intro peer up opened key marks
    change bus.served (peer, Function.update bus.epoch node _ peer) = _ at opened
    change _ ∨ ∃ frame ∈ bus.wire (peer, Function.update bus.epoch node _ peer), _ at marks
    change bus.store.Watches (peer, Function.update bus.epoch node _ peer) key
    change Function.update bus.phase node _ peer ≠ _ at up
    by_cases same : peer = node
    · subst peer
      rw [Function.update_self, noWire] at marks
      rcases marks with watched | ⟨frame, member, -⟩
      · rw [show (bus.node node).watched = ∅ from coherent.cleared node down] at watched
        cases watched
      · cases member
    · rw [Function.update_of_ne same] at opened marks up ⊢
      exact coherent.marked peer up opened key marks
  · intro peer up opened key watches
    change bus.served (peer, Function.update bus.epoch node _ peer) = _ at opened
    change bus.store.Watches (peer, Function.update bus.epoch node _ peer) key at watches
    change Function.update bus.phase node _ peer ≠ _ at up
    change entryAfter key _ (bus.wire (peer, Function.update bus.epoch node _ peer)) = _
    by_cases same : peer = node
    · subst peer
      rw [Function.update_self] at watches
      exact absurd watches (blind key)
    · rw [Function.update_of_ne same] at opened watches up ⊢
      exact coherent.agreed peer up opened key watches

/-- A closed descriptor stops the reader and nothing else. -/
theorem Coherent.closeFd {bus : Bus Node} (coherent : Coherent bus) (node : Node)
    (linked : bus.phase node = .up) :
    Coherent { bus with phase := Function.update bus.phase node .closing } := by
  have same (peer : Node) :
      Function.update bus.phase node .closing peer = .down ↔ bus.phase peer = .down := by
    by_cases eq : peer = node
    · subst peer
      simp [linked]
    · rw [Function.update_of_ne eq]
  refine ⟨coherent.fresh, ?_, ?_, ?_⟩
  · intro peer down
    exact coherent.cleared peer ((same peer).mp down)
  · intro peer up
    exact coherent.marked peer fun down => up ((same peer).mpr down)
  · intro peer up
    exact coherent.agreed peer fun down => up ((same peer).mpr down)

theorem Coherent.step {bus : Bus Node} (action : BusAction Node) (coherent : Coherent bus) :
    Coherent (bus.step action) := by
  cases action with
  | send node frame =>
      simp only [Bus.step]
      split
      · apply coherent.uplink
        intro client new
        have different : client ≠ bus.current node := by
          rintro rfl
          exact Nat.lt_irrefl _ new
        rw [Function.update_of_ne different]
        exact (coherent.fresh client new).1
      · exact coherent
  | register node id => exact coherent.pending node _ rfl rfl
  | giveUp node id =>
      exact coherent.pending node _ (fulfill_tables _ _ _).1 (fulfill_tables _ _ _).2
  | handle client now later room =>
      simp only [Bus.step]
      split
      · exact coherent
      · exact coherent
      · rename_i frame rest queued _
        have known : client.2 ≤ bus.epoch client.1 := by
          by_contra new
          have := (coherent.fresh client (by omega)).1
          rw [queued] at this
          cases this
        have taken : Coherent { bus with uplink := Function.update bus.uplink client rest } := by
          apply coherent.uplink
          intro peer new
          have different : peer ≠ client := by
            rintro rfl
            omega
          rw [Function.update_of_ne different]
          exact (coherent.fresh peer new).1
        refine taken.serve (Tells.handleFrame bus.store now later client frame) ?_ room
        rintro _ rfl
        exact known
  | sweep order now room =>
      exact coherent.serve (Tells.sweepKeys now _ bus.store) (fun _ never => never.elim) room
  | push client msg name payload room =>
      simp only [Bus.step]
      split
      · rename_i allowed
        refine coherent.serve (Tells.foreign bus.store client msg name payload allowed.1) ?_ room
        rintro _ rfl
        exact allowed.2
      · exact coherent
  | removeClient client => exact coherent.removeClient client
  | deliver node =>
      simp only [Bus.step]
      split
      · rename_i wire linked
        exact coherent.deliver node wire linked
      · exact coherent
  | closeFd node =>
      simp only [Bus.step]
      split
      · rename_i linked
        exact coherent.closeFd node linked
      · exact coherent
  | clearCache node =>
      simp only [Bus.step]
      split
      · exact coherent.clearCache node
      · exact coherent
  | failPending node => exact coherent.pending node _ rfl rfl
  | connect node =>
      simp only [Bus.step]
      split
      · rename_i down
        exact coherent.connect node down
      · exact coherent

/-- In every run, a node whose connection is open watches a key only while the daemon pushes it,
and the frames in transit turn its cache entry into the value of the store. A warm get on a
drained channel answers what the store holds, and a result is never cached. -/
theorem cache_coherent (actions : List (BusAction Node)) (node : Node) :
    let bus := run Bus.step .initial actions
    (bus.served (bus.current node) = .open → ∀ key ∈ (bus.node node).watched,
      bus.store.Watches (bus.current node) key ∧
      entryAfter key ((bus.node node).cache key) (bus.wire (bus.current node)) =
        bus.store.kv key ∧
      (bus.wire (bus.current node) = [] →
        (bus.node node).get key = some (bus.store.kv key))) ∧
    ∀ frame : Frame, frame.msg = some .kvResult →
      ((bus.node node).readFrame frame).1.cache = (bus.node node).cache ∧
        ((bus.node node).readFrame frame).1.watched = (bus.node node).watched := by
  intro bus
  have coherent : Coherent bus :=
    run_invariant (fun _ action kept => kept.step action) actions _ Coherent.initial
  refine ⟨?_, fun frame result => readFrame_kvResult _ result⟩
  intro opened key watched
  have up : bus.phase node ≠ .down := by
    intro down
    rw [coherent.cleared node down] at watched
    cases watched
  have watches := coherent.marked node up opened key (.inl watched)
  have agreed := coherent.agreed node up opened key watches
  refine ⟨watches, agreed, ?_⟩
  intro drained
  rw [drained] at agreed
  rw [NodeKv.get, if_pos watched, ← agreed]
  rfl

/-- A node reads a key that another write then changes. -/
def watchThenWrite : List (BusAction Unit) :=
  [.connect (), .send () (Msg.kvGet.frame [7] [1, 0, 0, 0]), .handle ((), 1) 0 0 fun _ => 9,
    .deliver (), .send () (Msg.kvSet.frame [7] [5]), .handle ((), 1) 0 0 fun _ => 9]

theorem cache_coherent_small :
    [7] ∈ ((run Bus.step .initial watchThenWrite).node ()).watched ∧
    ((run Bus.step .initial watchThenWrite).node ()).cache [7] = none ∧
    entryAfter [7] (((run Bus.step .initial watchThenWrite).node ()).cache [7])
      ((run Bus.step .initial watchThenWrite).wire ((), 1)) =
        (run Bus.step .initial watchThenWrite).store.kv [7] := by
  have watched : [7] ∈ ((run Bus.step .initial watchThenWrite).node ()).watched := by decide
  exact ⟨watched, by decide, ((cache_coherent watchThenWrite ()).1 (by decide) [7] watched).2.1⟩

end Chappe
