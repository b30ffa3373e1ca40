/-
This file proves that the whole cache of a node shows the store as it was at one point, and that
these points only go forward in a run.
-/

import Chappe.Proof.Kv.Cuts

namespace Chappe
open Foundation

variable {Node : Type}

/-- Later changes leave the states that the frames go over. -/
theorem Cuts.extend {kv : Table Bytes Bytes} {changes : List Change} {view : CacheView}
    {frames : List Frame} (cuts : Cuts kv changes view frames) (later : List Change) :
    Cuts kv (changes ++ later) view frames := by
  have longer : Cuts kv (changes ++ later) view (frames ++ []) := cuts.append .done
  rwa [List.append_nil] at longer

/-- The view shows the store after the first changes of the history, and the frames on the wire of
an open link take it over the states that come after them. -/
structure Stands (node : Node) (bus : Bus Node) (history : List Change) (point : Nat) :
    Prop where
  coherent : Coherent bus
  kv : bus.store.kv = afterChanges history .empty
  bound : point ≤ history.length
  shows : (bus.node node).view.Shows (afterChanges (history.take point) .empty)
  cuts : bus.phase node = .up → Cuts (afterChanges (history.take point) .empty)
    (history.drop point) (bus.node node).view (bus.wire (bus.current node))

variable {bus : Bus Node} {history : List Change} {node : Node} {point : Nat}

/-- The node of an open connection has the values of the store when it has read the wire. -/
theorem Coherent.sees (coherent : Coherent bus) (up : bus.phase node = .up)
    (opened : bus.served (bus.current node) = .open) :
    bus.store.Sees (bus.current node)
      ((bus.node node).view.readAll (bus.wire (bus.current node))) where
  watched := by
    intro key member
    exact coherent.marked node (by simp [up]) opened key (mem_readAll member)
  cached := by
    intro key watches
    rw [readAll_cache]
    exact coherent.agreed node (by simp [up]) opened key watches

theorem Stands.split (stands : Stands node bus history point) :
    afterChanges (history.drop point) (afterChanges (history.take point) .empty) =
      bus.store.kv := by
  rw [← afterChanges_append, List.take_append_drop, stands.kv]

/-- A step that leaves what the node has and what it is sent leaves its point. -/
theorem Stands.same (stands : Stands node bus history point) {next : Bus Node}
    (coherent : Coherent next) (kv : next.store.kv = bus.store.kv)
    (view : (next.node node).view = (bus.node node).view)
    (linked : next.phase node = .up → bus.phase node = .up ∧
      next.wire (next.current node) = bus.wire (bus.current node)) :
    Stands node next history point where
  coherent := coherent
  kv := kv.trans stands.kv
  bound := stands.bound
  shows := by
    rw [view]
    exact stands.shows
  cuts := by
    intro up
    obtain ⟨before, wire⟩ := linked up
    rw [view, wire]
    exact stands.cuts before

/-- The writes of a step of the daemon come after the changes that they report. -/
theorem Stands.serve (stands : Stands node bus history point)
    {result : Store (Peer Node) × Outbox (Peer Node)} {changes : List Change}
    (paces : Paces bus.store result changes) (room : Peer Node → Nat)
    (coherent : Coherent (bus.serve result room)) :
    Stands node (bus.serve result room) (history ++ changes) point where
  coherent := coherent
  kv := by
    rw [afterChanges_append, ← stands.kv]
    exact paces.kv
  bound := by
    rw [List.length_append]
    exact Nat.le_add_right_of_le stands.bound
  shows := by
    rw [List.take_append_of_le_length stands.bound]
    exact stands.shows
  cuts := by
    intro up
    rw [List.take_append_of_le_length stands.bound, List.drop_append_of_le_length stands.bound]
    have cuts := stands.cuts up
    change Cuts _ _ (bus.node node).view (if bus.served (bus.current node) = .open then
      bus.wire (bus.current node) ++ (result.2 (bus.current node)).take _
      else bus.wire (bus.current node))
    split
    · rename_i opened
      apply cuts.append
      rw [stands.split]
      exact (paces.cuts _ _ (stands.coherent.sees up opened)).take _
    · exact cuts.extend changes

variable [DecidableEq Node]

/-- A change of the tables of a node that leaves its cache leaves its point. -/
theorem Stands.pending (stands : Stands node bus history point) (other : Node) (tables : NodeKv)
    (same : tables.view = (bus.node other).view)
    (coherent : Coherent { bus with node := Function.update bus.node other tables }) :
    Stands node { bus with node := Function.update bus.node other tables } history point := by
  refine stands.same coherent rfl ?_ fun up => ⟨up, rfl⟩
  by_cases here : node = other
  · subst other
    exact (congrArg NodeKv.view (Function.update_self ..)).trans same
  · exact congrArg NodeKv.view (Function.update_of_ne here ..)

/-- The reader takes the node to the state that the frame reports. -/
theorem Stands.deliver (stands : Stands node bus history point) {other : Node} {frame : Frame}
    {rest : List Frame} (wire : bus.wire (bus.current other) = frame :: rest)
    (up : bus.phase other = .up) :
    ∃ later, point ≤ later ∧ Stands node { bus with
      wire := Function.update bus.wire (bus.current other) rest
      node := Function.update bus.node other ((bus.node other).readFrame frame).1 }
      history later := by
  have coherent := stands.coherent.deliver other wire up
  by_cases here : node = other
  · subst other
    have cuts := stands.cuts up
    rw [wire] at cuts
    generalize dropped : history.drop point = after at cuts
    cases cuts with
    | next now shows goesOn =>
        rename_i later
        have grown : history.take (point + now.length) = history.take point ++ now := by
          rw [List.take_add, dropped, List.take_left]
        have left : history.drop (point + now.length) = later := by
          rw [← List.drop_drop, dropped, List.drop_left]
        have room : point + now.length ≤ history.length := by
          have total := congrArg List.length dropped
          rw [List.length_drop, List.length_append] at total
          have := stands.bound
          omega
        rw [← afterChanges_append, ← grown] at shows goesOn
        refine ⟨point + now.length, Nat.le_add_right .., coherent, stands.kv, room, ?_, ?_⟩
        · change (Function.update bus.node node _ node).view.Shows _
          rw [Function.update_self, readFrame_view]
          exact shows
        · intro _
          change Cuts _ _ (Function.update bus.node node _ node).view
            (Function.update bus.wire (bus.current node) rest (bus.current node))
          rw [Function.update_self, Function.update_self, readFrame_view, left]
          exact goesOn
  · have apart : bus.current node ≠ bus.current other := fun same => here (congrArg Prod.fst same)
    refine ⟨point, Nat.le_refl _, stands.same coherent rfl ?_ ?_⟩
    · exact congrArg NodeKv.view (Function.update_of_ne here ..)
    · exact fun linked => ⟨linked, Function.update_of_ne apart ..⟩

/-- The daemon handles the next frame of a client, or there is none. -/
theorem handle_cases (bus : Bus Node) (client : Peer Node) (now later : Nat)
    (room : Peer Node → Nat) :
    (bus.step (.handle client now later room) = bus ∧
      bus.performed (.handle client now later room) = []) ∨
    ∃ frame rest, bus.uplink client = frame :: rest ∧
      bus.step (.handle client now later room) =
        Bus.serve { bus with uplink := Function.update bus.uplink client rest }
          (bus.store.handleFrame now later client frame) room ∧
      bus.performed (.handle client now later room) = bus.store.performed now frame := by
  cases queued : bus.uplink client with
  | nil => exact .inl (by simp only [Bus.step, Bus.performed, queued, and_self])
  | cons frame rest =>
      cases served : bus.served client with
      | removed => exact .inl (by simp only [Bus.step, Bus.performed, queued, served, and_self])
      | «open» => exact .inr ⟨frame, rest, rfl, by
          simp only [Bus.step, Bus.performed, queued, served, and_self]⟩
      | shut => exact .inr ⟨frame, rest, rfl, by
          simp only [Bus.step, Bus.performed, queued, served, and_self]⟩

/-- A frame that the daemon takes from a connection leaves every cache coherent. -/
theorem Coherent.taken (coherent : Coherent bus) {client : Peer Node} {frame : Frame}
    {rest : List Frame} (queued : bus.uplink client = frame :: rest) :
    Coherent { bus with uplink := Function.update bus.uplink client rest } := by
  apply coherent.uplink
  intro peer new
  have empty := (coherent.fresh peer new).1
  have different : peer ≠ client := by
    rintro rfl
    rw [queued] at empty
    cases empty
  rw [Function.update_of_ne different]
  exact empty

/-- The connection manager clears the cache, and nothing is read before it connects again. -/
theorem Stands.clearCache (stands : Stands node bus history point) (other : Node)
    (closing : bus.phase other = .closing) :
    Stands node { bus with
      phase := Function.update bus.phase other .down
      node := Function.update bus.node other
        { bus.node other with cache := .empty, watched := ∅ } } history point := by
  have coherent := stands.coherent.clearCache other
  by_cases here : node = other
  · subst other
    refine ⟨coherent, stands.kv, stands.bound, ?_, ?_⟩
    · intro key member
      change key ∈ (Function.update bus.node node _ node).watched at member
      rw [Function.update_self] at member
      cases member
    · intro up
      change Function.update bus.phase node _ node = _ at up
      rw [Function.update_self] at up
      cases up
  · refine stands.same coherent rfl (congrArg NodeKv.view (Function.update_of_ne here ..)) ?_
    intro up
    exact ⟨(Function.update_of_ne here ..).symm.trans up, rfl⟩

/-- The wire of a new connection is empty. -/
theorem Stands.connect (stands : Stands node bus history point) (other : Node)
    (down : bus.phase other = .down) :
    Stands node { bus with
      phase := Function.update bus.phase other .up
      epoch := Function.update bus.epoch other (bus.epoch other + 1) } history point := by
  have coherent := stands.coherent.connect other down
  by_cases here : node = other
  · subst other
    refine ⟨coherent, stands.kv, stands.bound, stands.shows, ?_⟩
    intro _
    change Cuts _ _ _ (bus.wire (node, Function.update bus.epoch node _ node))
    rw [Function.update_self, (stands.coherent.fresh (node, _) (Nat.lt_succ_self _)).2.1]
    exact .done
  · refine stands.same coherent rfl rfl ?_
    intro up
    refine ⟨(Function.update_of_ne here ..).symm.trans up, ?_⟩
    exact congrArg (fun epoch => bus.wire (node, epoch)) (Function.update_of_ne here ..)

/-- A closed descriptor is not read. -/
theorem Stands.closeFd (stands : Stands node bus history point) (other : Node)
    (linked : bus.phase other = .up) :
    Stands node { bus with phase := Function.update bus.phase other .closing } history point := by
  refine stands.same (stands.coherent.closeFd other linked) rfl rfl ?_
  intro up
  change Function.update bus.phase other .closing node = .up at up
  by_cases here : node = other
  · subst other
    rw [Function.update_self] at up
    cases up
  · rw [Function.update_of_ne here] at up
    exact ⟨up, rfl⟩

/-- Every step leaves the point of a node or moves it forward. -/
theorem Stands.step (stands : Stands node bus history point) (action : BusAction Node) :
    ∃ later, point ≤ later ∧
      Stands node (bus.step action) (history ++ bus.performed action) later := by
  have coherent := stands.coherent.step action
  have still {next : Bus Node} (same : Stands node next history point) :
      ∃ later, point ≤ later ∧ Stands node next (history ++ []) later :=
    ⟨point, Nat.le_refl _, by rwa [List.append_nil]⟩
  cases action with
  | send other frame =>
      refine still (stands.same coherent ?_ ?_ ?_)
      all_goals
        simp only [Bus.step]
        split
      · rfl
      · rfl
      · rfl
      · rfl
      · exact fun up => ⟨up, rfl⟩
      · exact fun up => ⟨up, rfl⟩
  | register other id => exact still (stands.pending other _ rfl coherent)
  | giveUp other id =>
      refine still (stands.pending other _ ?_ coherent)
      unfold NodeKv.view
      rw [(fulfill_tables _ _ _).1, (fulfill_tables _ _ _).2]
  | handle client now later room =>
      rcases handle_cases bus client now later room with ⟨step, performed⟩ | handled
      · rw [step, performed]
        exact still stands
      · obtain ⟨frame, rest, queued, step, performed⟩ := handled
        rw [step] at coherent ⊢
        rw [performed]
        have taken : Stands node { bus with uplink := Function.update bus.uplink client rest }
            history point :=
          stands.same (stands.coherent.taken queued) rfl rfl fun up => ⟨up, rfl⟩
        have paces := Paces.handleFrame bus.store now later client frame
        exact ⟨point, Nat.le_refl _, taken.serve paces room coherent⟩
  | sweep order now room =>
      exact ⟨point, Nat.le_refl _, stands.serve (Paces.sweepKeys now _ bus.store) room coherent⟩
  | push client msg name payload room =>
      by_cases allowed : msg.isForeign ∧ client.2 ≤ bus.epoch client.1
      · have step : bus.step (.push client msg name payload room) =
            bus.serve (bus.store, .sendTo client (msg.frame name payload)) room := if_pos allowed
        have paces : Paces bus.store (bus.store, .sendTo client (msg.frame name payload)) [] :=
          .single (Tells.foreign bus.store client msg name payload allowed.1) rfl
            (sendTo_short client _)
        rw [step] at coherent ⊢
        exact ⟨point, Nat.le_refl _, stands.serve paces room coherent⟩
      · rw [show bus.step (.push client msg name payload room) = bus from if_neg allowed]
        exact still stands
  | removeClient client => exact still (stands.same coherent rfl rfl fun up => ⟨up, rfl⟩)
  | deliver other =>
      simp only [Bus.step]
      split
      · rename_i wire up
        obtain ⟨later, forward, next⟩ := stands.deliver wire up
        refine ⟨later, forward, ?_⟩
        change Stands node _ (history ++ []) later
        rwa [List.append_nil]
      · exact still stands
  | closeFd other =>
      simp only [Bus.step]
      split
      · exact still (stands.closeFd other ‹_›)
      · exact still stands
  | clearCache other =>
      simp only [Bus.step]
      split
      · exact still (stands.clearCache other ‹_›)
      · exact still stands
  | failPending other => exact still (stands.pending other _ rfl coherent)
  | connect other =>
      simp only [Bus.step]
      split
      · exact still (stands.connect other ‹_›)
      · exact still stands

/-- The whole cache of a node shows the store as it was after some changes of its history. At later
states of the run the cache shows the same point of the history or a later one. -/
theorem cache_reads_forward (actions : List (BusAction Node)) (node : Node) :
    ∃ points : Nat → Nat, Monotone points ∧ ∀ count,
      let bus := run Bus.step .initial (actions.take count)
      let history := Bus.history .initial (actions.take count)
      bus.store.kv = afterChanges history .empty ∧ points count ≤ history.length ∧
        ∀ key ∈ (bus.node node).watched, (bus.node node).get key =
          some (afterChanges (history.take (points count)) .empty key) := by
  have start : Stands node (Bus.initial : Bus Node) [] 0 :=
    ⟨.initial, rfl, Nat.le_refl _, fun _ member => absurd member (Finset.notMem_empty _),
      fun _ => .done⟩
  have moves (bus : Bus Node) (history : List Change) (point : Nat) (action : BusAction Node)
      (stands : Stands node bus history point) := stands.step action
  obtain ⟨points, monotone, -, stands⟩ := exists_points moves actions _ _ _ start
  refine ⟨points, monotone, fun count => ⟨(stands count).kv, (stands count).bound, ?_⟩⟩
  intro key watched
  rw [NodeKv.get, if_pos watched]
  exact congrArg some ((stands count).shows key watched)

end Chappe
