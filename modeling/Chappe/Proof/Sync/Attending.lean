/-
This file proves that the calls of one handler follow the publishes of another node while the
handler is registered, whatever else its node subscribes to.
-/

import Chappe.Proof.Sync.Holding

namespace Chappe
open Foundation

variable {Client Handler : Type} [DecidableEq Client] {node : Node Client Handler}
  {handler : Registration} {sender client : Client} {name : Bytes} {daemon : Daemon Client}
  {accepts : Handler → Bytes → Bool} {start network : Network Client Handler}
  {publishes : List Frame}

/-- The subscription of a handler is in effect: the handler is in its table, and the daemon holds
its name. -/
structure Network.Subscribed (network : Network Client Handler) (client : Client)
    (handler : Registration) : Prop where
  registered : (network.node client).registered handler ≠ none
  holds : network.daemon.Holds client handler.name
  unsent : ∀ frame ∈ (network.node client).unsent, ¬ frame.Drops handler.name

/-- The frames by which the publishes that a handler wants come to its node, with their numbers. -/
def Node.wantedFrames (accepts : Handler → Bytes → Bool) (node : Node Client Handler)
    (handler : Registration) (base : Nat) (publishes : List Frame) : List (Frame × Nat) :=
  ((publishes.zipIdx (base + 1)).filter fun entry => node.wants accepts handler entry.1).map
    fun entry => (Msg.publish.frame entry.1.name entry.1.payload, entry.2)

/-- The frames of the list that a handler wants. -/
def Node.wanting (accepts : Handler → Bytes → Bool) (node : Node Client Handler)
    (handler : Registration) (frames : List (Frame × Nat)) : List (Frame × Nat) :=
  frames.filter fun entry => node.wants accepts handler entry.1

/-- The run since the start has routed the given publishes of the sender. The node of the client
gets those that the handler wants, and all of them while it stays connected. -/
structure Network.Attends (network : Network Client Handler)
    (accepts : Handler → Bytes → Bool) (start : Network Client Handler) (sender client : Client)
    (handler : Registration) (publishes : List Frame) : Prop where
  registered : (network.node client).registered handler = (start.node client).registered handler
  unsent : ∀ frame ∈ (network.node client).unsent, ¬ frame.Drops handler.name
  holds : (network.daemon.life client).Stays → network.daemon.Holds client handler.name
  routed : network.routed sender = start.routed sender ++ publishes
  genuine : ∀ entry ∈ routedBy sender (start.routed sender).length (network.wire client),
    entry.1.msg = some .publish
  within : ((start.node client).wanting accepts handler
      (routedBy sender (start.routed sender).length (network.wire client) ++
        network.pending sender client publishes)).Sublist
    ((start.node client).wantedFrames accepts handler (start.routed sender).length publishes)
  whole : (network.daemon.life client).Stays → (start.node client).wanting accepts handler
      (routedBy sender (start.routed sender).length (network.wire client) ++
        network.pending sender client publishes) =
    (start.node client).wantedFrames accepts handler (start.routed sender).length publishes
  calls : (network.node client).callsOf handler sender (start.routed sender).length =
    ((start.node client).wanting accepts handler
      (routedBy sender (start.routed sender).length
        ((network.wire client).take (network.node client).taken))).map
          fun entry => (entry.2, entry.1.name, entry.1.payload)

omit [DecidableEq Client] in
theorem wanting_append (accepts : Handler → Bytes → Bool) (first second : List (Frame × Nat)) :
    node.wanting accepts handler (first ++ second) =
      node.wanting accepts handler first ++ node.wanting accepts handler second :=
  List.filter_append ..

omit [DecidableEq Client] in
theorem wantedFrames_append (accepts : Handler → Bytes → Bool) (base : Nat)
    (first second : List Frame) :
    node.wantedFrames accepts handler base (first ++ second) =
      node.wantedFrames accepts handler base first ++
        node.wantedFrames accepts handler (base + first.length) second := by
  rw [Node.wantedFrames, List.zipIdx_append, List.filter_append, List.map_append,
    Nat.add_right_comm]
  rfl

omit [DecidableEq Client] in
theorem wantedFrames_single (accepts : Handler → Bytes → Bool) (base : Nat) (frame : Frame) :
    node.wantedFrames accepts handler base [frame] =
      if node.wants accepts handler frame then
        [(Msg.publish.frame frame.name frame.payload, base + 1)] else [] := by
  rw [Node.wantedFrames, List.zipIdx_singleton, List.filter_singleton]
  dsimp only
  cases node.wants accepts handler frame with
  | true => rfl
  | false => rfl

omit [DecidableEq Client] in
theorem mem_wantedFrames {base : Nat} {publishes : List Frame} {entry : Frame × Nat}
    (member : entry ∈ node.wantedFrames accepts handler base publishes) :
    base < entry.2 ∧ entry.2 ≤ base + publishes.length := by
  obtain ⟨origin, among, rfl⟩ := List.mem_map.mp member
  have numbered := (List.mem_filter.mp among).1
  have least := List.le_snd_of_mem_zipIdx numbered
  have most := List.snd_lt_add_of_mem_zipIdx numbered
  dsimp only
  omega

omit [DecidableEq Client] in
/-- The copy of a publish that is routed to the node is wanted when the publish is. -/
theorem wanting_copy (accepts : Handler → Bytes → Bool) (target : Prop) [Decidable target]
    (frame : Frame) (number : Nat) :
    node.wanting accepts handler
        ((if target then [Msg.publish.frame frame.name frame.payload] else []).map
          fun copy => (copy, number)) =
      if target then
        if node.wants accepts handler frame then
          [(Msg.publish.frame frame.name frame.payload, number)] else []
      else [] := by
  have same : node.wants accepts handler (Msg.publish.frame frame.name frame.payload) =
      node.wants accepts handler frame := rfl
  split
  · rw [Node.wanting, List.map_singleton, List.filter_singleton]
    dsimp only
    rw [same]
    cases node.wants accepts handler frame with
    | true => rfl
    | false => rfl
  · rfl

/-- The daemon routes to the client what its handler wants. -/
theorem Daemon.Holds.target (holds : daemon.Holds client handler.name)
    {frame : Frame} (wants : node.wants accepts handler frame = true) :
    client ∈ daemon.broker.tables.targets frame.name := by
  unfold Node.wants at wants
  split at wants
  · simp only [Bool.and_eq_true] at wants
    exact holds.tables.pattern wants.1
  · simp only [Bool.and_eq_true, decide_eq_true_eq] at wants
    rw [wants.1]
    exact holds.tables.topic

/-- A step that leaves the node may add publishes of the sender and frames to the node. -/
theorem Network.Attends.extend {next : Network Client Handler} {more : List Frame}
    (attends : network.Attends accepts start sender client handler publishes)
    (marked : network.Marked) (node : next.node client = network.node client)
    (holds : (next.daemon.life client).Stays → next.daemon.Holds client handler.name)
    {extra : List (Frame × Option (Client × Nat))}
    (wire : next.wire client = network.wire client ++ extra)
    (routed : next.routed sender = network.routed sender ++ more)
    (genuine : ∀ entry ∈ routedBy sender (start.routed sender).length extra,
      entry.1.msg = some .publish)
    (within : ((start.node client).wanting accepts handler
        (routedBy sender (start.routed sender).length (next.wire client) ++
          next.pending sender client (publishes ++ more))).Sublist
      ((start.node client).wantedFrames accepts handler (start.routed sender).length
        (publishes ++ more)))
    (whole : (next.daemon.life client).Stays → (start.node client).wanting accepts handler
        (routedBy sender (start.routed sender).length (next.wire client) ++
          next.pending sender client (publishes ++ more)) =
      (start.node client).wantedFrames accepts handler (start.routed sender).length
        (publishes ++ more)) :
    next.Attends accepts start sender client handler (publishes ++ more) where
  registered := node ▸ attends.registered
  unsent := node ▸ attends.unsent
  holds := holds
  routed := by rw [routed, attends.routed, List.append_assoc]
  genuine := by
    rw [wire, routedBy_append]
    intro entry member
    rcases List.mem_append.mp member with before | new
    · exact attends.genuine entry before
    · exact genuine entry new
  within := within
  whole := whole
  calls := by
    rw [node, wire, List.take_append_of_le_length (marked.taken client)]
    exact attends.calls

/-- A step that writes nothing of the sender to the node keeps what it gets. -/
theorem Network.Attends.rest {next : Network Client Handler}
    (attends : network.Attends accepts start sender client handler publishes)
    (marked : network.Marked) (node : next.node client = network.node client)
    (holds : (next.daemon.life client).Stays → next.daemon.Holds client handler.name)
    (stays : (next.daemon.life client).Stays → (network.daemon.life client).Stays)
    {extra : List (Frame × Option (Client × Nat))}
    (wire : next.wire client = network.wire client ++ extra)
    (routed : next.routed sender = network.routed sender)
    (foreign : routedBy sender (start.routed sender).length extra = [])
    (owes : (next.daemon.broker.thread sender).owes client =
      (network.daemon.broker.thread sender).owes client) :
    next.Attends accepts start sender client handler publishes := by
  have same : routedBy sender (start.routed sender).length (next.wire client) ++
      next.pending sender client publishes =
    routedBy sender (start.routed sender).length (network.wire client) ++
      network.pending sender client publishes := by
    rw [wire, routedBy_append, foreign, List.append_nil, Network.pending, Network.pending, owes,
      routed]
  rw [← List.append_nil publishes]
  refine attends.extend marked node holds wire (by rw [routed, List.append_nil]) ?_ ?_ ?_
  · rw [foreign]
    exact fun _ member => absurd member List.not_mem_nil
  · rw [List.append_nil, same]
    exact attends.within
  · rw [List.append_nil, same]
    exact fun staying => attends.whole (stays staying)

/-- A client without a connection is written nothing. -/
theorem closed_sent (daemon : Daemon Client) (action : DaemonAction Client)
    (closed : (daemon.life client).connected ≠ true) :
    (daemon.step action).broker.sent client = daemon.broker.sent client := by
  cases daemon_serves [] daemon action with
  | writes outbox asks tells asked sent =>
      rw [sent, if_neg closed, List.append_nil]
  | removes actor store left sent => rw [sent]

/-- What a thread owes to a client is a publish. -/
theorem owes_publish {thread : Thread Client} {frame : Frame} (owed : frame ∈ thread.owes client) :
    frame.msg = some .publish := by
  unfold Thread.owes at owed
  split at owed
  · split at owed
    · rw [List.mem_singleton.mp owed]
      rfl
    · cases owed
  · cases owed

section Step

variable {action : DaemonAction Client}

/-- The daemon begins to route a publish of the sender. -/
theorem Network.Attends.begins
    (attends : network.Attends accepts start sender client handler publishes)
    (marked : network.Marked) (different : client ≠ sender) {frame : Frame}
    (stays : ((network.daemon.step action).life client).Stays →
      (network.daemon.life client).Stays)
    (holds : ((network.daemon.step action).life client).Stays →
      (network.daemon.step action).Holds client handler.name)
    (begun : network.daemon.begins sender action = [frame])
    (before : (network.daemon.broker.thread sender).owes client = [])
    (after : ((network.daemon.step action).broker.thread sender).owes client =
      if client ∈ (network.daemon.broker.tables.targets frame.name).erase sender then
        [Msg.publish.frame frame.name frame.payload] else [])
    (wire : (network.daemonStep action).wire client = network.wire client ++ []) :
    (network.daemonStep action).Attends accepts start sender client handler
      (publishes ++ network.daemon.begins sender action) := by
  have number : ((network.daemonStep action).routed sender).length =
      (start.routed sender).length + publishes.length + 1 := by
    simp [Network.daemonStep, begun, attends.routed, Nat.add_assoc]
  have pending : (network.daemonStep action).pending sender client (publishes ++ [frame]) =
      (if client ∈ (network.daemon.broker.tables.targets frame.name).erase sender then
        [Msg.publish.frame frame.name frame.payload] else []).map
          fun copy => (copy, (start.routed sender).length + publishes.length + 1) := by
    have routing : ((network.daemonStep action).daemon.broker.thread sender).owes client = _ :=
      after
    rw [Network.pending, if_neg (by simp), routing, number]
  have idle : network.pending sender client publishes = [] := by
    rw [Network.pending, before, List.map_nil, ite_self]
  have within := attends.within
  have whole := attends.whole
  rw [idle, List.append_nil] at within whole
  refine attends.extend marked rfl holds wire rfl (by simp [routedBy]) ?_ ?_
  · rw [wire, List.append_nil, begun, pending, wanting_append, wanting_copy, wantedFrames_append,
      wantedFrames_single]
    apply within.append
    split
    · exact .refl _
    · exact List.nil_sublist _
  · intro staying
    rw [wire, List.append_nil, begun, pending, wanting_append, wanting_copy, wantedFrames_append,
      wantedFrames_single, whole (stays staying)]
    congr 1
    cases wants : (start.node client).wants accepts handler frame with
    | false => exact ite_self _
    | true =>
        rw [if_pos (Finset.mem_erase.mpr
          ⟨different, (attends.holds (stays staying)).target wants⟩)]

/-- The thread of the sender writes the copy that it owes to the client, or drops it when the client
has no connection. -/
theorem Network.Attends.writes
    (attends : network.Attends accepts start sender client handler publishes)
    (marked : network.Marked) {frame : Frame}
    (stays : ((network.daemon.step action).life client).Stays →
      (network.daemon.life client).Stays)
    (holds : ((network.daemon.step action).life client).Stays →
      (network.daemon.step action).Holds client handler.name)
    (begun : network.daemon.begins sender action = [])
    (router : network.daemon.router action = some sender)
    (before : (network.daemon.broker.thread sender).owes client = [frame])
    (after : ((network.daemon.step action).broker.thread sender).owes client = [])
    (sent : (network.daemon.life client).connected = true →
      (network.daemon.step action).broker.sent client =
        network.daemon.broker.sent client ++ [frame]) :
    (network.daemonStep action).Attends accepts start sender client handler
      (publishes ++ network.daemon.begins sender action) := by
  have publish : frame.msg = some .publish :=
    owes_publish (before ▸ List.mem_singleton_self frame)
  have origin : network.origin action = some (sender, (network.routed sender).length) := by
    rw [Network.origin, router, Option.map_some]
  have idle : (network.daemonStep action).pending sender client publishes = [] := by
    have done : ((network.daemonStep action).daemon.broker.thread sender).owes client = [] := after
    rw [Network.pending, done, List.map_nil, ite_self]
  have written : routedBy sender (start.routed sender).length
      ([frame].map fun frame => (frame, network.origin action)) =
        network.pending sender client publishes := by
    rw [List.map_singleton, origin, routedBy_single, Network.pending, before, attends.routed]
    by_cases first : publishes = []
    · simp [since, first]
    · have positive := List.length_pos_iff.mpr first
      simp [since, first, positive]
  by_cases connected : (network.daemon.life client).connected = true
  · have wire := daemonStep_wire network action (sent connected)
    refine attends.extend marked rfl holds wire rfl ?_ ?_ ?_
    · rw [written, Network.pending, before]
      intro entry member
      split at member
      · cases member
      · rw [List.mem_singleton.mp member]
        exact publish
    · rw [begun, List.append_nil, idle, List.append_nil, wire, routedBy_append, written]
      exact attends.within
    · rw [begun, List.append_nil, idle, List.append_nil, wire, routedBy_append, written]
      exact fun staying => attends.whole (stays staying)
  · have wire : (network.daemonStep action).wire client = network.wire client ++ [] :=
      daemonStep_wire network action
        ((closed_sent network.daemon action connected).trans (List.append_nil _).symm)
    refine attends.extend marked rfl holds wire rfl (by simp [routedBy]) ?_ ?_
    · rw [begun, List.append_nil, idle, List.append_nil, wire, List.append_nil]
      apply List.Sublist.trans _ attends.within
      rw [wanting_append]
      exact List.sublist_append_left _ _
    · exact fun staying => absurd (attends.holds (stays staying)).connected connected

theorem Network.Attends.daemonStep
    (attends : network.Attends accepts start sender client handler publishes)
    (marked : network.Marked) (different : client ≠ sender)
    (silent : ∀ actor frame, action ≠ .arrive actor frame) :
    (network.daemonStep action).Attends accepts start sender client handler
      (publishes ++ network.daemon.begins sender action) := by
  have stays := (life_step network.daemon action client).stays
  have holds (staying : ((network.daemon.step action).life client).Stays) :
      (network.daemon.step action).Holds client handler.name :=
    (attends.holds (stays staying)).step staying fun frame arrive =>
      absurd arrive (silent client frame)
  have quiet (sent : (network.daemon.step action).broker.sent client =
      network.daemon.broker.sent client) :
      (network.daemonStep action).wire client = network.wire client ++ [] :=
    daemonStep_wire network action (sent.trans (List.append_nil _).symm)
  cases daemon_routes network.daemon sender client action with
  | begins frame begun before after sent =>
      exact attends.begins marked different stays holds begun before after (quiet sent)
  | writes frame begun router before after sent =>
      exact attends.writes marked stays holds begun router before after sent
  | rests begun owes sent =>
      rw [begun, List.append_nil]
      have routed : (network.daemonStep action).routed sender = network.routed sender := by
        simp [Network.daemonStep, begun]
      rcases sent with sent | ⟨foreign, extra, sent⟩
      · exact attends.rest marked rfl holds stays (quiet sent) routed rfl owes
      · refine attends.rest marked rfl holds stays (daemonStep_wire network action sent) routed
          ?_ owes
        apply routedBy_foreign
        unfold Network.origin
        cases router : network.daemon.router action with
        | none => rfl
        | some actor =>
            have other : actor ≠ sender := by
              rintro rfl
              exact foreign router
            simp [since, other]

end Step

/-- The node takes the next frame and makes the calls that it causes. -/
theorem Network.Attends.take {node : Node Client Handler} {entry : Frame × Option (Client × Nat)}
    (attends : network.Attends accepts start sender client handler publishes)
    (arrived : (network.wire client)[(network.node client).taken]? = some entry)
    (unsent : node.unsent = (network.node client).unsent)
    (registered : node.registered handler = (network.node client).registered handler)
    (taken : node.taken = (network.node client).taken + 1)
    (calls : node.callsOf handler sender (start.routed sender).length =
      (network.node client).callsOf handler sender (start.routed sender).length ++
        ((start.node client).wanting accepts handler
          (routedBy sender (start.routed sender).length [entry])).map fun entry =>
            (entry.2, entry.1.name, entry.1.payload)) :
    (network.become client node).Attends accepts start sender client handler publishes where
  registered := by rw [become_node_self, registered, attends.registered]
  unsent := by rw [become_node_self, unsent]; exact attends.unsent
  holds := attends.holds
  routed := attends.routed
  genuine := attends.genuine
  within := attends.within
  whole := attends.whole
  calls := by
    rw [become_node_self, calls, attends.calls]
    dsimp only [Network.become]
    rw [taken, List.take_add_one, arrived, Option.toList_some, routedBy_append, wanting_append,
      List.map_append]

theorem Network.Attends.read
    (attends : network.Attends accepts start sender client handler publishes)
    (order : List Bytes) :
    (network.become client
      ((network.node client).read accepts (network.wire client) order)).Attends accepts start
        sender client handler publishes := by
  have same : (network.become client (network.node client)).Attends accepts start sender client
      handler publishes := (become_same network client).symm ▸ attends
  unfold Node.read
  split
  · exact same
  · rename_i frame cause arrived
    have wanted : (network.node client).wants accepts handler frame =
        (start.node client).wants accepts handler frame := by
      rw [wants_registered, wants_registered, attends.registered]
    split
    · split
      · rename_i listed
        refine attends.take arrived rfl rfl rfl ?_
        have publish : (network.node client).wants accepts handler
            (Msg.publish.frame frame.name frame.payload) =
              (start.node client).wants accepts handler frame := wanted
        rw [Node.callsOf, List.filter_append, List.filterMap_append,
          dispatch_of accepts listed handler, publish, routedBy_single]
        congr 1
        cases marked : since sender (start.routed sender).length cause with
        | none =>
            cases (start.node client).wants accepts handler frame <;> simp [marked, Node.wanting]
        | some number =>
            cases wants : (start.node client).wants accepts handler frame <;>
              simp [marked, wants, Node.wanting]
      · exact same
    · rename_i other
      refine attends.take arrived rfl rfl rfl ?_
      have foreign : since sender (start.routed sender).length cause = none := by
        rw [Option.eq_none_iff_forall_ne_some]
        intro number marked
        apply other
        exact attends.genuine (frame, number) (List.mem_filterMap.mpr
          ⟨(frame, cause), List.mem_of_getElem? arrived, by simp [marked]⟩)
      rw [routedBy_single, foreign]
      exact (List.append_nil _).symm

/-- A frame that does not drop the name reaches the daemon. -/
theorem Network.Attends.write {actor : Client} {frame : Frame}
    (attends : network.Attends accepts start sender client handler publishes)
    (marked : network.Marked) (kept : actor = client → ¬ frame.Drops handler.name) :
    (network.write actor frame).Attends accepts start sender client handler publishes := by
  unfold Network.write
  split
  · refine attends.rest marked rfl ?_ id (List.append_nil _).symm rfl rfl rfl
    intro staying
    change (network.daemon.step (.arrive actor frame)).Holds client handler.name
    apply (attends.holds staying).step
    · exact staying
    · rintro written ⟨⟩
      exact kept rfl
  · exact attends

/-- Another node changes its state. -/
theorem Network.Attends.become {actor : Client} (node : Node Client Handler)
    (attends : network.Attends accepts start sender client handler publishes)
    (marked : network.Marked) (different : actor ≠ client) :
    (network.become actor node).Attends accepts start sender client handler publishes :=
  attends.rest marked (become_node_of_ne network (Ne.symm different) node) attends.holds id
    (List.append_nil _).symm rfl rfl rfl

/-- The node changes its handlers and keeps the one in question. -/
theorem Network.Attends.change {node : Node Client Handler}
    (attends : network.Attends accepts start sender client handler publishes)
    (registered : node.registered handler = (start.node client).registered handler)
    (unsent : ∀ frame ∈ node.unsent, ¬ frame.Drops handler.name)
    (taken : node.taken = (network.node client).taken)
    (calls : node.calls = (network.node client).calls) :
    (network.become client node).Attends accepts start sender client handler publishes where
  registered := by rw [become_node_self, registered]
  unsent := by rw [become_node_self]; exact unsent
  holds := attends.holds
  routed := attends.routed
  genuine := attends.genuine
  within := attends.within
  whole := attends.whole
  calls := by
    rw [become_node_self, Node.callsOf, calls, taken]
    exact attends.calls

omit [DecidableEq Client] in
/-- The node tells the daemon of a name that is not the one of the handler. -/
theorem kept_unsent {frames : List Frame} {last : Frame}
    (kept : ∀ frame ∈ frames, ¬ frame.Drops name) (other : ¬ last.Drops name) :
    ∀ frame ∈ frames ++ [last], ¬ frame.Drops name := by
  intro frame member
  rcases List.mem_append.mp member with before | new
  · exact kept frame before
  · rw [List.mem_singleton.mp new]
    exact other

/-- A publish drops no name. -/
theorem publishFrame_drops (topic payload : Bytes) (retain : Bool) :
    ¬ (publishFrame topic payload retain).Drops name := by
  cases retain <;> simp [publishFrame, Frame.Drops]

theorem Network.Attends.step (action : NetworkAction Client Handler)
    (attends : network.Attends accepts start sender client handler publishes)
    (present : (start.node client).registered handler ≠ none)
    (marked : network.Marked) (different : client ≠ sender)
    (keeps : ¬ action.Drops client handler.name) :
    (network.step accepts action).Attends accepts start sender client handler
      (publishes ++ network.begun sender action) := by
  have rest {next : Network Client Handler}
      (same : next.Attends accepts start sender client handler publishes) :
      next.Attends accepts start sender client handler (publishes ++ []) :=
    (List.append_nil publishes).symm ▸ same
  obtain ⟨found, there⟩ := Option.ne_none_iff_exists'.mp present
  have entry := attends.registered.trans there
  cases action with
  | daemon action =>
      cases action with
      | arrive actor frame => exact rest attends
      | connect actor => exact attends.daemonStep marked different (by simp)
      | thread actor target order now later =>
          exact attends.daemonStep marked different (by simp)
      | hangUp actor => exact attends.daemonStep marked different (by simp)
      | sweep order read => exact attends.daemonStep marked different (by simp)
  | subscribe actor topic added =>
      apply rest
      by_cases mine : actor = client
      · subst actor
        refine attends.change ((registered_subscribe entry topic added).trans there.symm) ?_ rfl rfl
        dsimp only [Node.subscribe]
        split
        · exact kept_unsent attends.unsent (by simp [Frame.Drops])
        · exact attends.unsent
      · exact attends.become _ marked mine
  | subscribePattern actor pattern added =>
      apply rest
      by_cases mine : actor = client
      · subst actor
        refine attends.change ((registered_subscribePattern entry pattern added).trans there.symm)
          ?_ rfl rfl
        dsimp only [Node.subscribePattern]
        split
        · exact kept_unsent attends.unsent (by simp [Frame.Drops])
        · exact attends.unsent
      · exact attends.become _ marked mine
  | unsubscribe actor topic =>
      apply rest
      by_cases mine : actor = client
      · subst actor
        have other : topic ≠ handler.name := fun same => keeps ⟨rfl, same⟩
        refine attends.change ((registered_unsubscribe other).trans attends.registered) ?_ ?_ ?_
        · unfold Node.unsubscribe
          split
          · exact kept_unsent attends.unsent fun drops => other drops.2
          · exact attends.unsent
        · unfold Node.unsubscribe
          split <;> rfl
        · unfold Node.unsubscribe
          split <;> rfl
      · exact attends.become _ marked mine
  | unsubscribePattern actor pattern =>
      apply rest
      by_cases mine : actor = client
      · subst actor
        have other : pattern ≠ handler.name := fun same => keeps ⟨rfl, same⟩
        refine attends.change ((registered_unsubscribePattern other).trans attends.registered) ?_ ?_
          ?_
        · unfold Node.unsubscribePattern
          split
          · exact kept_unsent attends.unsent fun drops => other drops.2
          · exact attends.unsent
        · unfold Node.unsubscribePattern
          split <;> rfl
        · unfold Node.unsubscribePattern
          split <;> rfl
      · exact attends.become _ marked mine
  | send actor place =>
      apply rest
      simp only [Network.step]
      split
      · rename_i frame told
        have sent : (network.become actor { network.node actor with
            unsent := (network.node actor).unsent.eraseIdx place }).Attends accepts start sender
              client handler publishes := by
          by_cases mine : actor = client
          · subst actor
            refine attends.change attends.registered ?_ rfl rfl
            exact fun waiting member =>
              attends.unsent waiting (List.mem_of_mem_eraseIdx member)
          · exact attends.become _ marked mine
        refine sent.write ?_ ?_
        · exact marked.change rfl rfl fun _ member => .inl (List.mem_of_mem_eraseIdx member)
        · rintro rfl
          exact attends.unsent frame (List.mem_of_getElem? told)
      · exact attends
  | publish actor topic payload retain =>
      exact rest (attends.write marked fun _ => publishFrame_drops topic payload retain)
  | request actor frame =>
      apply rest
      simp only [Network.step]
      split
      · exact attends
      · rename_i other
        simp only [Bool.or_eq_true, not_or, Bool.not_eq_true] at other
        refine attends.write marked fun _ drops => ?_
        have about := other.2
        simp [Frame.isSubscription, drops.1] at about
  | read actor order =>
      apply rest
      by_cases mine : actor = client
      · subst actor
        exact attends.read order
      · exact attends.become _ marked mine

end Chappe
