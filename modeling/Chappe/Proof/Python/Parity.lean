/-
This file proves that the Python and the C++ client are one state machine.
-/

import Chappe.Construction.NodeReader
import Chappe.Proof.Python.Names
import Chappe.Proof.Python.ReaderSurvival

namespace Chappe
open Foundation

variable {Client Handler Json : Type}

/-- The same names, as Python strings and as bytes. -/
structure SameNames (python : PythonString → Prop) (cpp : Bytes → Prop) : Prop where
  agree : ∀ key name, decodeName key = some name → (python name ↔ cpp key)
  named : ∀ key, cpp key → decodeName key ≠ none
  encoded : ∀ name, python name → ∃ key, decodeName key = some name

/-- The two entries of one name. -/
theorem SameNames.single {key : Bytes} {name : PythonString}
    (decoded : decodeName key = some name) : SameNames (· = name) (· = key) where
  agree := by
    intro other otherName found
    constructor
    · rintro rfl
      exact decodeName_injective found decoded
    · rintro rfl
      rw [found] at decoded
      exact Option.some.inj decoded
  named := by
    rintro _ rfl
    rw [decoded]
    simp
  encoded := by
    rintro _ rfl
    exact ⟨key, decoded⟩

theorem SameNames.or {python more : PythonString → Prop} {cpp added : Bytes → Prop}
    (first : SameNames python cpp) (second : SameNames more added) :
    SameNames (fun name => python name ∨ more name) (fun key => cpp key ∨ added key) where
  agree := fun key name decoded =>
    or_congr (first.agree key name decoded) (second.agree key name decoded)
  named := fun key member => member.elim (first.named key) (second.named key)
  encoded := fun name member => member.elim (first.encoded name) (second.encoded name)

theorem SameNames.congr {python other : PythonString → Prop} {cpp another : Bytes → Prop}
    (same : SameNames python cpp) (left : ∀ name, other name ↔ python name)
    (right : ∀ key, another key ↔ cpp key) : SameNames other another where
  agree := fun key name decoded =>
    (left name).trans ((same.agree key name decoded).trans (right key).symm)
  named := fun key member => same.named key ((right key).mp member)
  encoded := fun name member => same.encoded name ((left name).mp member)

/-- The same entries. -/
def SameTable {Value : Type} (python : PythonString → Option Value) (cpp : Bytes → Option Value) :
    Prop :=
  ∀ value, SameNames (python · = some value) (cpp · = some value)

theorem SameTable.lookup {Value : Type} {python : PythonString → Option Value}
    {cpp : Bytes → Option Value} (same : SameTable python cpp) {key : Bytes}
    {name : PythonString} (decoded : decodeName key = some name) : python name = cpp key := by
  ext value
  exact (same value).agree key name decoded

theorem decodeName_eq_iff {key other : Bytes} {name otherName : PythonString}
    (decoded : decodeName key = some name) (found : decodeName other = some otherName) :
    otherName = name ↔ other = key :=
  (SameNames.single decoded).agree other otherName found

/-- Both tables get the same entry for one name, or lose the one that they have. -/
theorem SameTable.update {Value : Type} {python : PythonString → Option Value}
    {cpp : Bytes → Option Value} (same : SameTable python cpp) {key : Bytes}
    {name : PythonString} (decoded : decodeName key = some name) (entry : Option Value) :
    SameTable (Function.update python name entry) (Function.update cpp key entry) := by
  intro value
  refine ⟨?_, ?_, ?_⟩
  · intro other otherName found
    by_cases here : other = key
    · have there := (decodeName_eq_iff decoded found).mpr here
      subst here there
      rw [Function.update_self, Function.update_self]
    · have there : otherName ≠ name := mt (decodeName_eq_iff decoded found).mp here
      rw [Function.update_of_ne here, Function.update_of_ne there]
      exact (same value).agree other otherName found
  · intro other entered
    by_cases here : other = key
    · rw [here, decoded]
      simp
    · rw [Function.update_of_ne here] at entered
      exact (same value).named other entered
  · intro otherName entered
    by_cases there : otherName = name
    · exact ⟨key, there ▸ decoded⟩
    · rw [Function.update_of_ne there] at entered
      exact (same value).encoded otherName entered

/-- The same cache, watched set and pending set. -/
structure SameKv (python : PythonKv) (cpp : NodeKv) : Prop where
  cache : SameTable python.cache cpp.cache
  watched : SameNames (· ∈ python.watched) (· ∈ cpp.watched)
  pending : python.pending = cpp.pending

theorem SameNames.insert {python : Finset PythonString} {cpp : Finset Bytes}
    (same : SameNames (· ∈ python) (· ∈ cpp)) {key : Bytes} {name : PythonString}
    (decoded : decodeName key = some name) :
    SameNames (· ∈ insert name python) (· ∈ insert key cpp) :=
  ((SameNames.single decoded).or same).congr (fun _ => Finset.mem_insert)
    (fun _ => Finset.mem_insert)

variable {python : PythonKv} {cpp : NodeKv}

/-- Both clients answer the same request. -/
theorem SameKv.fulfill (same : SameKv python cpp) (id : Nat) (value : Option Bytes) :
    SameKv (python.fulfill id value).1 (cpp.fulfill id value).1 ∧
      (python.fulfill id value).2 = (cpp.fulfill id value).2 := by
  unfold PythonKv.fulfill NodeKv.fulfill
  rw [same.pending]
  split
  · exact ⟨⟨same.cache, same.watched, rfl⟩, rfl⟩
  · exact ⟨same, rfl⟩

/-- Both clients change their caches and watch one key more. -/
theorem SameKv.store (same : SameKv python cpp) {pythonCache : PythonString → Option Bytes}
    {cppCache : Bytes → Option Bytes} (cache : SameTable pythonCache cppCache) {key : Bytes}
    {name : PythonString} (decoded : decodeName key = some name) :
    SameKv { python with watched := insert name python.watched, cache := pythonCache }
      { cpp with watched := insert key cpp.watched, cache := cppCache } :=
  ⟨cache, same.watched.insert decoded, same.pending⟩

/-- Both clients take the value of a reply into their caches. -/
theorem SameKv.reply (same : SameKv python cpp) {frame : Frame} {name : PythonString}
    (decoded : decodeName frame.name = some name) :
    SameKv (python.onKvReply name frame.payload).1 (cpp.handleKvReply frame).1 ∧
      (python.onKvReply name frame.payload).2 = (cpp.handleKvReply frame).2 := by
  unfold PythonKv.onKvReply NodeKv.handleKvReply
  split
  · exact ⟨same, rfl⟩
  · have read : (if frame.payload.getD 4 0 ≠ 0 then some (frame.payload.drop 5) else none) =
        answerValue frame.payload := rfl
    dsimp only
    rw [read]
    cases answerValue frame.payload with
    | some value =>
        exact (same.store (same.cache.update decoded (some value)) decoded).fulfill _ _
    | none =>
        exact (same.store (same.cache.update decoded none) decoded).fulfill _ _

/-- Both clients do the same with a frame that is no publish. -/
theorem SameKv.readFrame (same : SameKv python cpp) {frame : Frame} {name : PythonString}
    (decoded : decodeName frame.name = some name) :
    SameKv (python.readFrame ⟨frame.kind, name, frame.payload⟩).1 (cpp.readFrame frame).1 ∧
      (python.readFrame ⟨frame.kind, name, frame.payload⟩).2 = (cpp.readFrame frame).2 := by
  have kind : (PythonFrame.mk frame.kind name frame.payload).msg = frame.msg := rfl
  have guard (bound : Nat) (id : Nat) (value : Option Bytes) :
      SameKv (if bound ≤ frame.payload.length then python.fulfill id value else (python, none)).1
        (if frame.payload.length < bound then (cpp, none) else cpp.fulfill id value).1 ∧
      (if bound ≤ frame.payload.length then python.fulfill id value else (python, none)).2 =
        (if frame.payload.length < bound then (cpp, none) else cpp.fulfill id value).2 := by
    by_cases long : bound ≤ frame.payload.length
    · rw [if_pos long, if_neg (Nat.not_lt.mpr long)]
      exact same.fulfill id value
    · rw [if_neg long, if_pos (Nat.not_le.mp long)]
      exact ⟨same, rfl⟩
  unfold PythonKv.readFrame NodeKv.readFrame
  rw [kind]
  rcases frame.msg with _ | msg
  · exact ⟨same, rfl⟩
  · cases msg with
    | kvReply => exact same.reply decoded
    | kvUpdate =>
        exact ⟨⟨same.cache.update decoded (some frame.payload), same.watched.insert decoded,
          same.pending⟩, rfl⟩
    | kvResult => exact guard 5 _ _
    | kvDel => exact ⟨⟨same.cache.update decoded none, same.watched, same.pending⟩, rfl⟩
    | pong => exact guard 4 _ _
    | info => exact guard 4 _ _
    | _ => exact ⟨same, rfl⟩

/-- The same handlers for the same names. -/
structure SameHandlers (tables : PythonTables Handler) (node : Node Client Handler) : Prop where
  subs : SameTable (tables.subs.lookup ·) (node.subs.lookup ·)
  patternSubs : (tables.patternSubs : Multiset (PythonString × List Handler)).map some =
    node.patternSubs.keys.val.map fun key =>
      (decodeName key).map (·, (node.patternSubs.lookup key).getD [])

/-- A call as both clients make it: the handler, the topic that a handler of a pattern gets, and the
bytes. -/
abbrev Call (Handler Json : Type) := Option Handler × Option PythonString × PythonValue Json

def Node.call (node : Node Client Handler) (invocation : Invocation Client) :
    Call Handler Json :=
  (node.receiver invocation.handler,
    if invocation.handler.pattern then decodeName invocation.topic else none,
    .bytes invocation.payload)

def PythonDelivery.made (delivery : PythonDelivery Handler Json) : List (Call Handler Json) :=
  delivery.calls.map fun call => (some call.1, call.2, delivery.value)

theorem zipIdx_getElem {Item Output : Type*} (items : List Item) (output : Option Item → Output) :
    items.zipIdx.map (fun entry => output items[entry.2]?) = items.map fun item =>
      output (some item) := by
  have known (entry : Item × Nat) (member : entry ∈ items.zipIdx) :
      output items[entry.2]? = output (some entry.1) := by
    rw [List.mem_zipIdx_iff_getElem?.mp member]
  calc items.zipIdx.map (fun entry => output items[entry.2]?)
      = items.zipIdx.map (fun entry => output (some entry.1)) := List.map_congr_left known
    _ = (items.zipIdx.map Prod.fst).map fun item => output (some item) := by
      rw [List.map_map]
      rfl
    _ = items.map fun item => output (some item) := by rw [List.zipIdx_map_fst]

/-- The exact handlers of a topic. -/
theorem exactCalls_same {tables : PythonTables Handler} {node : Node Client Handler}
    (same : SameHandlers tables node) {topic : Bytes} {name : PythonString}
    (decoded : decodeName topic = some name) (payload : Bytes) :
    (node.exactCalls (fun _ _ => true) topic payload none).map node.call =
      ((tables.subs.lookup name).getD []).map fun handler =>
        ((some handler, none, .bytes payload) : Call Handler Json) := by
  rw [same.subs.lookup decoded, Node.exactCalls, List.filter_true, List.map_map]
  exact zipIdx_getElem ((node.subs.lookup topic).getD []) fun handler =>
    (handler, none, PythonValue.bytes payload)

/-- The handlers of one pattern. -/
theorem patternCalls_same (node : Node Client Handler) {topic pattern : Bytes}
    {name patternName : PythonString} (decoded : decodeName topic = some name)
    (named : decodeName pattern = some patternName) (payload : Bytes) :
    (node.patternCalls topic payload none pattern).map node.call =
      if pythonTopicMatches patternName name then
        ((node.patternSubs.lookup pattern).getD []).map fun handler =>
          ((some handler, some name, .bytes payload) : Call Handler Json)
      else [] := by
  rw [topicMatches_decoded named decoded, Node.patternCalls]
  split
  · rw [List.map_map, ← decoded]
    exact zipIdx_getElem ((node.patternSubs.lookup pattern).getD []) fun handler =>
      (handler, decodeName topic, PythonValue.bytes payload)
  · rfl

/-- The calls that an item of `_pattern_subs` gets. -/
def itemCalls (name : PythonString) (payload : Bytes) :
    Option (PythonString × List Handler) → List (Call Handler Json)
  | some item =>
      if pythonTopicMatches item.1 name then
        item.2.map fun handler => (some handler, some name, .bytes payload)
      else []
  | none => []

theorem receivers_items (items : List (PythonString × List Handler)) (name : PythonString)
    (payload : Bytes) :
    (((items.filter fun item => pythonTopicMatches item.1 name).flatMap
      fun item => item.2.map (·, some name)).map fun call =>
        ((some call.1, call.2, .bytes payload) : Call Handler Json)) =
      (items.map some).flatMap (itemCalls name payload) := by
  induction items with
  | nil => rfl
  | cons item rest ih =>
      rw [List.map_cons, List.flatMap_cons, ← ih, List.filter_cons, itemCalls]
      split
      · rw [List.flatMap_cons, List.map_append, List.map_map]
        rfl
      · rw [List.nil_append]

/-- Both clients call the same handlers for a publish. -/
theorem dispatch_same {tables : PythonTables Handler} {node : Node Client Handler}
    (same : SameHandlers tables node) {order : List Bytes}
    (ordered : (order : Multiset Bytes) = node.patternSubs.keys.val) {topic : Bytes}
    {name : PythonString} (decoded : decodeName topic = some name) (payload : Bytes) :
    ((tables.receivers name).map fun call =>
        ((some call.1, call.2, .bytes payload) : Call Handler Json)).Perm
      ((node.dispatch (fun _ _ => true) order topic payload none).map node.call) := by
  have items : (tables.patternSubs.map some).Perm (order.map fun key =>
      (decodeName key).map (·, (node.patternSubs.lookup key).getD [])) := by
    rw [← Multiset.coe_eq_coe, ← Multiset.map_coe, ← Multiset.map_coe, ordered]
    exact same.patternSubs
  have named (key : Bytes) (member : key ∈ order) : ∃ patternName,
      decodeName key = some patternName := by
    have entry := items.symm.subset (List.mem_map_of_mem member)
    obtain ⟨item, -, found⟩ := List.mem_map.mp entry
    obtain ⟨patternName, found, -⟩ := Option.map_eq_some_iff.mp found.symm
    exact ⟨patternName, found⟩
  have cpp : (order.flatMap (node.patternCalls topic payload none)).map node.call =
      (order.map fun key => (decodeName key).map
        (·, (node.patternSubs.lookup key).getD [])).flatMap
          (itemCalls name payload : _ → List (Call Handler Json)) := by
    rw [List.map_flatMap, List.flatMap_map]
    refine List.flatMap_congr fun key member => ?_
    obtain ⟨patternName, found⟩ := named key member
    rw [patternCalls_same node decoded found, found]
    rfl
  rw [PythonTables.receivers, List.map_append, receivers_items, List.map_map, Node.dispatch,
    List.map_append, exactCalls_same same decoded, cpp]
  exact (List.Perm.refl _).append (items.flatMap_right _)

/-- The same tables, the same answers and, publish by publish, the same calls up to their order. -/
structure SameReader (node : Node Client Handler) (python : PythonReader Handler Json)
    (cpp : NodeReader Client) : Prop where
  kv : SameKv python.kv cpp.kv
  answers : python.answers = cpp.answers
  deliveries : List.Forall₂ (fun delivery calls => delivery.made.Perm (calls.map node.call))
    python.deliveries cpp.deliveries

/-- The node hands on the bytes of a publish, it has no pool and its handlers do not raise. -/
structure PythonConfig.Plain (config : PythonConfig Handler Json) : Prop where
  decode : config.decode = false
  pool : config.pool = false
  returns : ∀ handler topic value, config.behaviour handler topic value = .returns

variable {config : PythonConfig Handler Json}

/-- Every receiver is called. -/
theorem PythonConfig.Plain.invokeAll (plain : config.Plain) (value : PythonValue Json)
    (calls : List (Handler × Option PythonString)) :
    (config.invokeAll value calls).1 = calls := by
  induction calls with
  | nil => rfl
  | cons call rest ih =>
      rw [PythonConfig.invokeAll, plain.returns, if_neg (by simp), ih]

/-- Both clients do the same with a frame. -/
theorem SameReader.handle (plain : config.Plain) {tables : PythonTables Handler}
    {node : Node Client Handler} (handlers : SameHandlers tables node)
    {python : PythonReader Handler Json} {cpp : NodeReader Client}
    (same : SameReader node python cpp) {order : List Bytes}
    (ordered : (order : Multiset Bytes) = node.patternSubs.keys.val) {frame : Frame}
    {name : PythonString} (decoded : decodeName frame.name = some name) :
    SameReader node (python.handle config tables ⟨frame.kind, name, frame.payload⟩).1
      (cpp.handle node order frame) := by
  have kind : (PythonFrame.mk frame.kind name frame.payload).msg = frame.msg := rfl
  rw [PythonReader.handle, NodeReader.handle, kind]
  split
  · refine ⟨same.kv, same.answers, ?_⟩
    refine List.rel_append same.deliveries (.cons ?_ .nil)
    have bytes : config.value frame.payload = .bytes frame.payload := by
      rw [PythonConfig.value, plain.decode]
      rfl
    rw [PythonDelivery.made, PythonConfig.dispatch]
    dsimp only
    rw [plain.invokeAll, bytes]
    exact dispatch_same handlers ordered decoded frame.payload
  · obtain ⟨kv, answer⟩ := same.kv.readFrame decoded
    refine ⟨kv, ?_, same.deliveries⟩
    dsimp only
    rw [same.answers, answer]

theorem SameReader.handleAll (plain : config.Plain) {tables : PythonTables Handler}
    {node : Node Client Handler} (handlers : SameHandlers tables node) {order : Nat → List Bytes}
    (ordered : ∀ turn, (order turn : Multiset Bytes) = node.patternSubs.keys.val)
    (frames : List Frame) (named : ∀ frame ∈ frames, decodeName frame.name ≠ none) :
    ∀ (python : PythonReader Handler Json) (cpp : NodeReader Client) (turn : Nat),
      SameReader node python cpp →
      SameReader node (python.handleAll config (fun _ => tables) turn frames)
        (cpp.handleAll node order turn frames) := by
  induction frames with
  | nil =>
      intro python cpp turn same
      exact same
  | cons frame rest ih =>
      intro python cpp turn same
      obtain ⟨name, decoded⟩ := Option.ne_none_iff_exists'.mp (named frame List.mem_cons_self)
      have known : frame.decoded = some ⟨frame.kind, name, frame.payload⟩ := by
        rw [Frame.decoded, decoded]
        rfl
      rw [PythonReader.handleAll, known]
      exact ih (fun other member => named other (List.mem_cons_of_mem _ member)) _ _ _
        (same.handle plain handlers (ordered turn) decoded)

theorem pythonSend_eq {frame : Frame} (sized : frame.Sized) :
    pythonSend frame.kind frame.name frame.payload = some frame.bytes := by
  unfold Frame.Sized at sized
  rw [pythonSend, if_pos sized]
  rfl

/-- The Python and the C++ client are one state machine. They do the same with every stream of
frames with UTF-8 names, they match topics alike, and they put the same bytes on the wire for names
and payloads whose lengths fit in their fields. -/
theorem clients_agree (Client Handler Json : Type) :
    (∀ config : PythonConfig Handler Json, config.Plain →
      ∀ (tables : PythonTables Handler) (node : Node Client Handler), SameHandlers tables node →
      ∀ python cpp, SameReader node python cpp →
      ∀ order : Nat → List Bytes,
        (∀ turn, (order turn : Multiset Bytes) = node.patternSubs.keys.val) →
      ∀ frames : List Frame, (∀ frame ∈ frames, frame.Fits ∧ decodeName frame.name ≠ none) →
      ∀ script other, Recv.failed ∉ script → Recv.failed ∉ other →
        let result := python.readUntilClosed config (fun _ => true) (fun _ => tables) 0
          ⟨encodeAll frames, script⟩
        result.2 = none ∧ (FrameReader.open ⟨encodeAll frames, other⟩).Reads frames ∧
          SameReader node result.1 (cpp.handleAll node order 0 frames)) ∧
    (∀ pattern topic patternName topicName, decodeName pattern = some patternName →
      decodeName topic = some topicName →
      pythonTopicMatches patternName topicName = topicMatches pattern topic) ∧
    ∀ kind name payload decoded, decodeName name = some decoded → name.length < 2 ^ 32 →
      payload.length < 2 ^ 32 →
      pythonSend kind name payload = some (buildFrame kind name payload) ∧
        ∀ rest script, Recv.failed ∉ script →
          let read := (Socket.mk (buildFrame kind name payload ++ rest) script).readFrame
          read.1 = .ok (some ⟨kind, decoded, payload⟩) ∧ read.2.rest = rest := by
  refine ⟨?_, fun _ _ _ _ => topicMatches_decoded, ?_⟩
  · intro config plain tables node handlers python cpp same order ordered frames good script other
      clean smooth
    have sized (frame : Frame) (member : frame ∈ frames) : frame.Sized := by
      obtain ⟨name, payload⟩ := (good frame member).1
      have small : maxFrameBytes < 2 ^ 32 := by decide
      exact ⟨Nat.lt_of_le_of_lt name small, Nat.lt_of_le_of_lt payload small⟩
    have named (frame : Frame) (member : frame ∈ frames) := (good frame member).2
    have harmless (place : Nat) (frame : Frame) (found : frames[place]? = some frame) :
        config.Harmless tables frame := by
      obtain ⟨name, decoded⟩ :=
        Option.ne_none_iff_exists'.mp (named frame (List.mem_of_getElem? found))
      refine ⟨name, decoded, fun _ _ call _ => ?_⟩
      rw [plain.returns]
      simp
    have returns := readUntilClosed_returns config (fun _ => true) (fun _ => tables) frames python
      0 script sized harmless
    refine ⟨returns.1, ?_, ?_⟩
    · rw [FrameReader.reads_iff _ _ (FrameReader.open_good _ smooth) (FrameReader.open_stream _)]
      exact (parseAll_encodeAll frames fun frame member => (good frame member).1).symm
    · rw [returns.2 (fun _ => rfl) clean]
      exact same.handleAll plain handlers ordered frames named python cpp 0
  · intro kind name payload decoded known small little
    have sized : (Frame.mk kind name payload).Sized := ⟨small, little⟩
    refine ⟨pythonSend_eq sized, fun rest script clean => ?_⟩
    rcases readFrame_gives sized script rest with ⟨-, failed⟩ | ⟨outcome, left, -⟩
    · exact absurd failed clean
    · rw [Frame.decoded, known] at outcome
      exact ⟨outcome, left⟩

/-- The C++ node with the handler of `everyTopic`. -/
def everyTopicNode : Node Unit Unit :=
  ⟨∅, (∅ : Handlers Bytes Unit).insert [42] [()], [], 0, []⟩

theorem everyTopic_same : SameHandlers everyTopic everyTopicNode where
  subs := fun value => ⟨by simp [everyTopic, everyTopicNode], by simp [everyTopicNode],
    by simp [everyTopic]⟩
  patternSubs := by decide +kernel

/-- A node without handlers that waits for one answer. -/
theorem waiting_same : SameReader everyTopicNode
    (⟨⟨.empty, ∅, {1}⟩, [], [], []⟩ : PythonReader Unit Unit) ⟨⟨.empty, ∅, {1}⟩, [], []⟩ where
  kv := ⟨fun value => ⟨by simp, by simp, by simp⟩, ⟨by simp, by simp, by simp⟩, rfl⟩
  answers := rfl
  deliveries := .nil

/-- A publish and the answer of the request. -/
def parityFrames : List Frame :=
  [Msg.publish.frame [97] [1], Msg.kvReply.frame [97] [1, 0, 0, 0, 1, 9]]

/-- What the Python client makes of them when they arrive in pieces. -/
def parityResult : PythonReader Unit Unit × Option PythonError :=
  PythonReader.readUntilClosed ⟨false, false, fun _ => none, fun _ _ _ => .returns⟩
    (fun _ => true) (fun _ => everyTopic) ⟨⟨.empty, ∅, {1}⟩, [], [], []⟩ 0
    ⟨encodeAll parityFrames, [.ready 1, .interrupted]⟩

theorem clients_agree_small :
    (parityResult.2 = none ∧
      (FrameReader.open ⟨encodeAll parityFrames, [.ready 2]⟩).Reads parityFrames ∧
      SameReader everyTopicNode parityResult.1
        (NodeReader.handleAll everyTopicNode (fun _ => [[42]]) ⟨⟨.empty, ∅, {1}⟩, [], []⟩ 0
          parityFrames)) ∧
    pythonTopicMatches [97] [97] = topicMatches [97] [97] ∧
    pythonSend 2 [97] [1] = some (buildFrame 2 [97] [1]) := by
  refine ⟨?_, ?_, ?_⟩
  · refine (clients_agree Unit Unit Unit).1 _ ⟨rfl, rfl, fun _ _ _ => rfl⟩ everyTopic
      everyTopicNode everyTopic_same _ _ waiting_same (fun _ => [[42]])
      (fun _ => by decide +kernel) parityFrames ?_ _ _ (by simp) (by simp)
    intro frame member
    have name : frame.name = [97] ∧ frame.payload.length ≤ 6 := by
      simp only [parityFrames, List.mem_cons, List.not_mem_nil, or_false] at member
      rcases member with rfl | rfl <;> simp
    refine ⟨⟨?_, ?_⟩, ?_⟩
    · rw [name.1]
      decide
    · exact name.2.trans (by decide)
    · rw [name.1, decodeName_letter]
      simp
  · exact (clients_agree Unit Unit Unit).2.1 _ _ _ _
      decodeName_letter decodeName_letter
  · exact ((clients_agree Unit Unit Unit).2.2 2 [97] [1] _
      decodeName_letter (by decide) (by decide)).1

/-- A length that does not fit in its field raises. -/
theorem pythonSend_long (kind : UInt8) (name payload : Bytes) (long : 2 ^ 32 ≤ payload.length) :
    pythonSend kind name payload = none := by
  rw [pythonSend, if_neg]
  rintro ⟨-, short⟩
  omega

/-- The length of such a payload wraps around in C++. -/
theorem encoders_disagree :
    pythonSend 2 [97] (List.replicate (2 ^ 32) 0) ≠
      some (buildFrame 2 [97] (List.replicate (2 ^ 32) 0)) := by
  have raises := pythonSend_long 2 [97] (List.replicate (2 ^ 32) 0) List.length_replicate.ge
  rw [raises]
  exact (Option.some_ne_none _).symm

end Chappe
