/-
This file proves that a node whose subscriptions are in effect gets the publishes of another node
once each and in order.
-/

import Chappe.Foundation.Run
import Chappe.Proof.Network.Marks

namespace Chappe
open Foundation

variable {Client Handler : Type} [DecidableEq Client]

/-- The publishes of the sender that the daemon has still to take. -/
def Network.waiting (network : Network Client Handler) (sender : Client) : List Frame :=
  (network.daemon.broker.inbox sender).filter Frame.isPublish

/-- The publish that the sender makes in a step. -/
def Network.makes (sender : Client) (network : Network Client Handler) :
    NetworkAction Client Handler → List Frame
  | .publish client topic payload retain =>
      if client = sender ∧ (network.daemon.life client).connected = true then
        [publishFrame topic payload retain]
      else []
  | _ => []

/-- The publish of the sender that the daemon begins to route in a step. -/
def Network.begun (sender : Client) (network : Network Client Handler) :
    NetworkAction Client Handler → List Frame
  | .daemon action => network.daemon.begins sender action
  | _ => []

/-- The connection of the client stays up and its handlers stay the same. -/
def NetworkAction.Keeps (client : Client) : NetworkAction Client Handler → Prop
  | .daemon (.hangUp actor) => actor ≠ client
  | .subscribe actor _ _ | .subscribePattern actor _ _ => actor ≠ client
  | .unsubscribe actor _ | .unsubscribePattern actor _ => actor ≠ client
  | _ => True

/-- The daemon has processed the subscriptions of the node and holds the name of every handler. -/
structure Network.Settled (client : Client) (network : Network Client Handler) : Prop where
  daemon : network.daemon.Settled client
  unsent : (network.node client).unsent = []
  topics : ∀ topic ∈ (network.node client).subs, network.daemon.broker.tables.Holds client topic
  patterns : ∀ pattern ∈ (network.node client).patternSubs,
    network.daemon.broker.tables.Holds client pattern

/-- The frames by which the daemon routes publishes to the client, with their numbers. -/
def copies (tables : Tables Client) (client : Client) (base : Nat) (publishes : List Frame) :
    List (Frame × Nat) :=
  (publishes.zipIdx (base + 1)).filterMap fun entry =>
    if client ∈ tables.targets entry.1.name then
      some (Msg.publish.frame entry.1.name entry.1.payload, entry.2)
    else none

/-- The frame by which the daemon has still to route the last publish of the sender. -/
def Network.pending (network : Network Client Handler) (sender client : Client)
    (publishes : List Frame) : List (Frame × Nat) :=
  if publishes = [] then []
  else ((network.daemon.broker.thread sender).owes client).map fun frame =>
    (frame, (network.routed sender).length)

/-- The run since the start has routed the given publishes of the sender to the client. -/
structure Network.Follows (accepts : Handler → Bytes → Bool) (start : Network Client Handler)
    (sender client : Client) (network : Network Client Handler) (publishes : List Frame) :
    Prop where
  daemon : network.daemon.Settled client
  unsent : (network.node client).unsent = []
  tables : start.daemon.broker.tables.SameFor client network.daemon.broker.tables
  subs : (network.node client).subs = (start.node client).subs
  patternSubs : (network.node client).patternSubs = (start.node client).patternSubs
  routed : network.routed sender = start.routed sender ++ publishes
  stream : routedBy sender (start.routed sender).length (network.wire client) ++
      network.pending sender client publishes =
    copies start.daemon.broker.tables client (start.routed sender).length publishes
  calls : ∀ handler, (network.node client).callsOf handler sender (start.routed sender).length =
    ((routedBy sender (start.routed sender).length
      ((network.wire client).take (network.node client).taken)).filter fun entry =>
        (start.node client).wants accepts handler entry.1).map fun entry =>
          (entry.2, entry.1.name, entry.1.payload)

theorem copies_append (tables : Tables Client) (client : Client) (base : Nat)
    (publishes : List Frame) (frame : Frame) :
    copies tables client base (publishes ++ [frame]) = copies tables client base publishes ++
      if client ∈ tables.targets frame.name then
        [(Msg.publish.frame frame.name frame.payload, base + publishes.length + 1)] else [] := by
  rw [copies, List.zipIdx_append, List.filterMap_append, Nat.add_right_comm]
  congr 1
  split
  · rename_i target
    simp [target]
  · rename_i apart
    simp [apart]

/-- The daemon routes by publish frames only. -/
theorem copies_publish {tables : Tables Client} {client : Client} {base : Nat}
    {publishes : List Frame} {entry : Frame × Nat}
    (member : entry ∈ copies tables client base publishes) : entry.1.msg = some .publish := by
  obtain ⟨origin, -, copied⟩ := List.mem_filterMap.mp member
  split at copied
  · cases copied
    rfl
  · cases copied

variable {accepts : Handler → Bytes → Bool} {start network : Network Client Handler}
  {sender client : Client} {publishes : List Frame}

theorem routedBy_foreign {base : Nat} {origin : Option (Client × Nat)}
    (foreign : since sender base origin = none) (frames : List Frame) :
    routedBy sender base (frames.map fun frame => (frame, origin)) = [] := by
  rw [routedBy, List.filterMap_map, List.filterMap_eq_nil_iff]
  intro frame _
  simp [foreign]

/-- The run goes on without the node. -/
theorem Network.Follows.extend {next : Network Client Handler} {more : List Frame}
    (follows : Network.Follows accepts start sender client network publishes)
    (marked : network.Marked) (node : next.node client = network.node client)
    (settled : next.daemon.Settled client)
    (tables : network.daemon.broker.tables.SameFor client next.daemon.broker.tables)
    {extra : List (Frame × Option (Client × Nat))}
    (wire : next.wire client = network.wire client ++ extra)
    (routed : next.routed sender = network.routed sender ++ more)
    (stream : routedBy sender (start.routed sender).length (next.wire client) ++
        next.pending sender client (publishes ++ more) =
      copies start.daemon.broker.tables client (start.routed sender).length
        (publishes ++ more)) :
    Network.Follows accepts start sender client next (publishes ++ more) where
  daemon := settled
  unsent := node ▸ follows.unsent
  tables := ⟨fun name => (tables.topics name).trans (follows.tables.topics name),
    fun name => (tables.patterns name).trans (follows.tables.patterns name)⟩
  subs := node ▸ follows.subs
  patternSubs := node ▸ follows.patternSubs
  routed := by rw [routed, follows.routed, List.append_assoc]
  stream := stream
  calls := by
    rw [node, wire, List.take_append_of_le_length (marked.taken client)]
    exact follows.calls

/-- A step that writes nothing of the sender to the client keeps the stream. -/
theorem Network.Follows.rest {next : Network Client Handler}
    (follows : Network.Follows accepts start sender client network publishes)
    (marked : network.Marked) (node : next.node client = network.node client)
    (settled : next.daemon.Settled client)
    (tables : network.daemon.broker.tables.SameFor client next.daemon.broker.tables)
    {extra : List (Frame × Option (Client × Nat))}
    (wire : next.wire client = network.wire client ++ extra)
    (routed : next.routed sender = network.routed sender)
    (foreign : routedBy sender (start.routed sender).length extra = [])
    (owes : (next.daemon.broker.thread sender).owes client =
      (network.daemon.broker.thread sender).owes client) :
    Network.Follows accepts start sender client next publishes := by
  rw [← List.append_nil publishes]
  apply follows.extend marked node settled tables wire
  · rw [routed, List.append_nil]
  · rw [List.append_nil, wire, routedBy_append, foreign, List.append_nil, Network.pending, owes,
      routed]
    exact follows.stream

theorem Network.Follows.daemonStep
    (follows : Network.Follows accepts start sender client network publishes)
    (marked : network.Marked) (different : client ≠ sender) {action : DaemonAction Client}
    (stays : action ≠ .hangUp client) (silent : ∀ frame, action ≠ .arrive client frame) :
    Network.Follows accepts start sender client (network.daemonStep action)
      (publishes ++ network.daemon.begins sender action) := by
  obtain ⟨settled, same⟩ := follows.daemon.step stays fun frame arrive =>
    absurd arrive (silent frame)
  have quiet (sent : (network.daemon.step action).broker.sent client =
      network.daemon.broker.sent client) :
      (network.daemonStep action).wire client = network.wire client ++ [] :=
    daemonStep_wire network action (sent.trans (List.append_nil _).symm)
  cases daemon_routes network.daemon sender client action with
  | begins frame begun before after sent =>
      have stream := follows.stream
      rw [Network.pending, before, List.map_nil, ite_self, List.append_nil] at stream
      refine follows.extend marked rfl settled same (quiet sent) rfl ?_
      rw [quiet sent, List.append_nil, stream, begun, copies_append, Network.pending,
        if_neg (by simp)]
      congr 1
      change List.map _ (((network.daemon.step action).broker.thread sender).owes client) = _
      have number : ((network.daemonStep action).routed sender).length =
          (start.routed sender).length + publishes.length + 1 := by
        simp [Network.daemonStep, begun, follows.routed, Nat.add_assoc]
      rw [after, number]
      simp only [Finset.mem_erase, different, ne_eq, not_false_eq_true, true_and,
        follows.tables.targets]
      split <;> rfl
  | writes frame begun router before after sent =>
      have written := daemonStep_wire network action (sent follows.daemon.stays.1)
      refine follows.extend marked rfl settled same written rfl ?_
      rw [begun, List.append_nil, written, routedBy_append, ← follows.stream, List.append_assoc]
      congr 1
      have none : ((network.daemonStep action).daemon.broker.thread sender).owes client = [] :=
        after
      rw [Network.pending, Network.pending, before, none, List.map_nil, ite_self,
        List.append_nil]
      simp only [routedBy, Network.origin, router, Option.map_some, List.map_cons, List.map_nil,
        since]
      split
      · rename_i first
        simp [follows.routed, first]
      · rename_i later
        have positive := List.length_pos_iff.mpr later
        simp [follows.routed, positive]
  | rests begun owes sent =>
      rw [begun, List.append_nil]
      have routed : (network.daemonStep action).routed sender = network.routed sender := by
        simp [Network.daemonStep, begun]
      rcases sent with sent | ⟨foreign, extra, sent⟩
      · exact follows.rest marked rfl settled same (quiet sent) routed rfl owes
      · refine follows.rest marked rfl settled same (daemonStep_wire network action sent) routed
          ?_ owes
        apply routedBy_foreign
        unfold Network.origin
        cases router : network.daemon.router action with
        | none => rfl
        | some actor =>
            have other : actor ≠ sender := by
              rintro rfl
              exact foreign router
            simp [since, other]

theorem become_same (network : Network Client Handler) (client : Client) :
    network.become client (network.node client) = network := by
  rw [Network.become, Function.update_eq_self]

theorem routedBy_single (sender : Client) (base : Nat) (frame : Frame)
    (cause : Option (Client × Nat)) : routedBy sender base [(frame, cause)] =
      (since sender base cause).toList.map fun number => (frame, number) := by
  rw [routedBy, List.filterMap_cons]
  cases since sender base cause <;> rfl

/-- The node takes the next frame and makes the calls that it causes. -/
theorem Network.Follows.take {node : Node Client Handler} {entry : Frame × Option (Client × Nat)}
    (follows : Network.Follows accepts start sender client network publishes)
    (arrived : (network.wire client)[(network.node client).taken]? = some entry)
    (unsent : node.unsent = (network.node client).unsent)
    (subs : node.subs = (network.node client).subs)
    (patternSubs : node.patternSubs = (network.node client).patternSubs)
    (taken : node.taken = (network.node client).taken + 1)
    (calls : ∀ handler, node.callsOf handler sender (start.routed sender).length =
      (network.node client).callsOf handler sender (start.routed sender).length ++
        ((routedBy sender (start.routed sender).length [entry]).filter fun entry =>
          (start.node client).wants accepts handler entry.1).map fun entry =>
            (entry.2, entry.1.name, entry.1.payload)) :
    Network.Follows accepts start sender client (network.become client node) publishes where
  daemon := follows.daemon
  unsent := by rw [become_node_self, unsent, follows.unsent]
  tables := follows.tables
  subs := by rw [become_node_self, subs, follows.subs]
  patternSubs := by rw [become_node_self, patternSubs, follows.patternSubs]
  routed := follows.routed
  stream := follows.stream
  calls := by
    intro handler
    rw [become_node_self, calls, follows.calls]
    dsimp only [Network.become]
    rw [taken, List.take_add_one, arrived, Option.toList_some, routedBy_append, List.filter_append,
      List.map_append]

/-- A frame that is not a publish routes nothing. -/
theorem Network.Follows.foreign {frame : Frame} {cause : Option (Client × Nat)}
    (follows : Network.Follows accepts start sender client network publishes)
    (arrived : (frame, cause) ∈ network.wire client) (other : frame.msg ≠ some .publish) :
    since sender (start.routed sender).length cause = none := by
  rw [Option.eq_none_iff_forall_ne_some]
  intro number marked
  have routed : (frame, number) ∈
      routedBy sender (start.routed sender).length (network.wire client) :=
    List.mem_filterMap.mpr ⟨(frame, cause), arrived, by simp [marked]⟩
  have copied := List.mem_append_left (network.pending sender client publishes) routed
  rw [follows.stream] at copied
  exact other (copies_publish copied)

theorem Network.Follows.read
    (follows : Network.Follows accepts start sender client network publishes)
    (order : List Bytes) :
    Network.Follows accepts start sender client (network.become client
      ((network.node client).read accepts (network.wire client) order)) publishes := by
  have same : Network.Follows accepts start sender client
      (network.become client (network.node client)) publishes :=
    (become_same network client).symm ▸ follows
  unfold Node.read
  split
  · exact same
  · rename_i frame cause arrived
    split
    · split
      · rename_i listed
        refine follows.take arrived rfl rfl rfl rfl ?_
        intro handler
        have wanted : (network.node client).wants accepts handler
            (Msg.publish.frame frame.name frame.payload) =
              (start.node client).wants accepts handler frame := by
          unfold Node.wants
          rw [follows.subs, follows.patternSubs]
          rfl
        rw [Node.callsOf, List.filter_append, List.filterMap_append,
          dispatch_of accepts listed handler, wanted, routedBy_single]
        congr 1
        cases marked : since sender (start.routed sender).length cause with
        | none => cases (start.node client).wants accepts handler frame <;> simp [marked]
        | some number =>
            cases wants : (start.node client).wants accepts handler frame <;>
              simp [marked, wants]
      · exact same
    · rename_i other
      refine follows.take arrived rfl rfl rfl rfl ?_
      intro handler
      rw [routedBy_single, follows.foreign (List.mem_of_getElem? arrived) other]
      exact (List.append_nil _).symm

/-- A frame of another kind than a subscription reaches the daemon. -/
theorem Network.Follows.write {actor : Client} {frame : Frame}
    (follows : Network.Follows accepts start sender client network publishes)
    (marked : network.Marked) (other : frame.isSubscription = false ∨ actor ≠ client) :
    Network.Follows accepts start sender client (network.write actor frame) publishes := by
  unfold Network.write
  split
  · have stays : DaemonAction.arrive actor frame ≠ .hangUp client := by simp
    obtain ⟨settled, same⟩ := follows.daemon.step stays fun arrived same => by
      cases same
      exact other.resolve_right fun different => different rfl
    have wire : network.wire client = network.wire client ++ [] := (List.append_nil _).symm
    exact follows.rest marked rfl settled same wire rfl rfl rfl
  · exact follows

/-- Another node changes its state. -/
theorem Network.Follows.become {actor : Client} (node : Node Client Handler)
    (follows : Network.Follows accepts start sender client network publishes)
    (marked : network.Marked) (different : actor ≠ client) :
    Network.Follows accepts start sender client (network.become actor node) publishes := by
  have wire : network.wire client = network.wire client ++ [] := (List.append_nil _).symm
  exact follows.rest marked (become_node_of_ne network (Ne.symm different) node) follows.daemon
    (.refl client _) wire rfl rfl rfl

theorem publishFrame_isSubscription (topic payload : Bytes) (retain : Bool) :
    (publishFrame topic payload retain).isSubscription = false := by
  cases retain <;> rfl

theorem Network.Follows.step (action : NetworkAction Client Handler)
    (follows : Network.Follows accepts start sender client network publishes)
    (marked : network.Marked) (different : client ≠ sender) (keeps : action.Keeps client) :
    Network.Follows accepts start sender client (network.step accepts action)
      (publishes ++ network.begun sender action) := by
  have rest {next : Network Client Handler}
      (same : Network.Follows accepts start sender client next publishes) :
      Network.Follows accepts start sender client next (publishes ++ []) :=
    (List.append_nil publishes).symm ▸ same
  cases action with
  | daemon action =>
      cases action with
      | arrive actor frame => exact rest follows
      | connect actor => exact follows.daemonStep marked different (by simp) (by simp)
      | thread actor target order now later =>
          exact follows.daemonStep marked different (by simp) (by simp)
      | hangUp actor =>
          apply follows.daemonStep marked different _ (by simp)
          rintro ⟨⟩
          exact keeps rfl
      | sweep order read => exact follows.daemonStep marked different (by simp) (by simp)
  | subscribe actor topic handler =>
      exact rest (follows.become _ marked keeps)
  | subscribePattern actor pattern handler =>
      exact rest (follows.become _ marked keeps)
  | unsubscribe actor topic =>
      exact rest (follows.become _ marked keeps)
  | unsubscribePattern actor pattern =>
      exact rest (follows.become _ marked keeps)
  | send actor place =>
      apply rest
      simp only [Network.step]
      split
      · rename_i frame found
        have other : actor ≠ client := by
          rintro rfl
          rw [follows.unsent] at found
          cases found
        apply Network.Follows.write _ _ (.inr other)
        · exact follows.become _ marked other
        · exact marked.change rfl rfl fun _ member => .inl (List.mem_of_mem_eraseIdx member)
      · exact follows
  | publish actor topic payload retain =>
      exact rest (follows.write marked (.inl (publishFrame_isSubscription topic payload retain)))
  | request actor frame =>
      apply rest
      simp only [Network.step]
      split
      · exact follows
      · rename_i other
        simp only [Bool.or_eq_true, not_or, Bool.not_eq_true] at other
        exact follows.write marked (.inl other.2)
  | read actor order =>
      apply rest
      by_cases mine : actor = client
      · subst actor
        exact follows.read order
      · exact follows.become _ marked mine

/-- Nothing has been routed at the start of the run. -/
theorem Network.Follows.refl (accepts : Handler → Bytes → Bool) (marked : start.Marked)
    (settled : start.Settled client) (sender : Client) :
    Network.Follows accepts start sender client start [] := by
  refine ⟨settled.daemon, settled.unsent, .refl client _, rfl, rfl, (List.append_nil _).symm, ?_,
    ?_⟩
  · rw [marked.unrouted sender client fun _ member => member]
    rfl
  · intro handler
    rw [marked.unrouted sender client fun _ member => List.mem_of_mem_take member,
      marked.uncalled]
    rfl

/-- A handler wants a publish only if the daemon routes it to the node. -/
theorem Network.Settled.target (settled : start.Settled client) {handler : Registration}
    {frame : Frame} (wants : (start.node client).wants accepts handler frame = true) :
    client ∈ start.daemon.broker.tables.targets frame.name := by
  have present {table : Handlers Bytes Handler} {name : Bytes}
      (found : ((table.lookup name).getD []) ≠ []) : name ∈ table := by
    by_contra missing
    rw [Finmap.lookup_eq_none.mpr missing] at found
    exact found rfl
  unfold Node.wants at wants
  split at wants
  · simp only [Bool.and_eq_true] at wants
    apply Tables.Holds.pattern _ wants.1
    apply settled.patterns
    apply present
    intro none
    rw [none] at wants
    simp at wants
  · simp only [Bool.and_eq_true, decide_eq_true_eq] at wants
    rw [wants.1]
    apply Tables.Holds.topic
    apply settled.topics
    apply present
    intro none
    rw [none] at wants
    simp at wants

/-- The frames that a handler wants are the publishes that it wants. -/
theorem Network.Settled.copies (settled : start.Settled client) (handler : Registration)
    (base : Nat) (publishes : List Frame) :
    ((copies start.daemon.broker.tables client base publishes).filter fun entry =>
      (start.node client).wants accepts handler entry.1).map
        (fun entry => (entry.2, entry.1.name, entry.1.payload)) =
      ((publishes.zipIdx (base + 1)).filter fun entry =>
        (start.node client).wants accepts handler entry.1).map
          fun entry => (entry.2, entry.1.name, entry.1.payload) := by
  unfold Chappe.copies
  induction publishes.zipIdx (base + 1) with
  | nil => rfl
  | cons entry rest ih =>
      have same : (start.node client).wants accepts handler
          (Msg.publish.frame entry.1.name entry.1.payload) =
            (start.node client).wants accepts handler entry.1 := rfl
      cases wants : (start.node client).wants accepts handler entry.1 with
      | true =>
          have target := settled.target wants
          simp only [List.filterMap_cons, target, if_true, List.filter_cons, same, wants,
            List.map_cons, ih, Msg.frame_name, Msg.frame_payload]
      | false =>
          rw [List.filter_cons, wants, if_neg (by simp), ← ih, List.filterMap_cons]
          split
          · rfl
          · rename_i copied
            split at copied
            · cases copied
              rw [List.filter_cons, same, wants, if_neg (by simp)]
            · cases copied

theorem write_waiting (network : Network Client Handler) (sender actor : Client) (frame : Frame) :
    (network.write actor frame).waiting sender = network.waiting sender ++
      if actor = sender ∧ (network.daemon.life actor).connected = true ∧ frame.isPublish = true
        then [frame] else [] := by
  unfold Network.write Network.waiting
  split
  · rename_i connected
    dsimp only [Daemon.step]
    by_cases mine : actor = sender
    · subst actor
      rw [Function.update_self, List.filter_append, List.filter_singleton]
      simp [connected]
    · rw [Function.update_of_ne (Ne.symm mine)]
      simp [mine]
  · rename_i closed
    simp [closed]

/-- The publishes of the sender go through its queue in the daemon in their order. -/
theorem waiting_step (sender : Client) (action : NetworkAction Client Handler)
    (marked : network.Marked) :
    network.waiting sender ++ network.makes sender action = network.begun sender action ++
      (network.step accepts action).waiting sender := by
  have same {next : Network Client Handler} (daemon : next.daemon = network.daemon) :
      network.waiting sender ++ [] = [] ++ next.waiting sender := by
    rw [List.append_nil, List.nil_append, Network.waiting, Network.waiting, daemon]
  have moved (action : DaemonAction Client) (silent : ∀ frame, action ≠ .arrive sender frame) :
      network.waiting sender ++ [] =
        network.daemon.begins sender action ++ (network.daemonStep action).waiting sender := by
    rw [List.append_nil]
    exact daemon_inbox network.daemon sender silent
  cases action with
  | daemon action =>
      cases action with
      | arrive actor frame => exact same rfl
      | connect actor => exact moved (.connect actor) (by simp)
      | thread actor target order now later =>
          exact moved (.thread actor target order now later) (by simp)
      | hangUp actor => exact moved (.hangUp actor) (by simp)
      | sweep order read => exact moved (.sweep order read) (by simp)
  | subscribe actor topic handler => exact same rfl
  | subscribePattern actor pattern handler => exact same rfl
  | unsubscribe actor topic => exact same rfl
  | unsubscribePattern actor pattern => exact same rfl
  | read actor order => exact same rfl
  | send actor place =>
      simp only [Network.step]
      split
      · rename_i frame found
        have about := marked.unsent actor frame (List.mem_of_getElem? found)
        have other : frame.isPublish = false := by
          unfold Frame.isSubscription at about
          unfold Frame.isPublish
          rcases Bool.or_eq_true_iff.mp about with kind | kind
          · simp [of_decide_eq_true kind]
          · simp [of_decide_eq_true kind]
        rw [write_waiting, if_neg (by simp [other])]
        rfl
      · exact same rfl
  | publish actor topic payload retain =>
      have publish : (publishFrame topic payload retain).isPublish = true := by
        cases retain <;> rfl
      simp only [Network.step, Network.makes, write_waiting, publish, and_true]
      rfl
  | request actor frame =>
      simp only [Network.step]
      split
      · exact same rfl
      · rename_i other
        simp only [Bool.or_eq_true, not_or, Bool.not_eq_true] at other
        rw [write_waiting, if_neg (by simp [other.1])]
        rfl

theorem write_routed (network : Network Client Handler) (actor : Client) (frame : Frame) :
    (network.write actor frame).routed = network.routed := by
  unfold Network.write
  split <;> rfl

theorem routed_step (accepts : Handler → Bytes → Bool) (sender : Client)
    (network : Network Client Handler) (action : NetworkAction Client Handler) :
    (network.step accepts action).routed sender =
      network.routed sender ++ network.begun sender action := by
  have same {next : Network Client Handler} (routed : next.routed = network.routed) :
      next.routed sender = network.routed sender ++ [] := by
    rw [routed, List.append_nil]
  cases action with
  | daemon action =>
      cases action with
      | arrive actor frame => exact same rfl
      | connect actor => rfl
      | thread actor target order now later => rfl
      | hangUp actor => rfl
      | sweep order read => rfl
  | subscribe actor topic handler => exact same rfl
  | subscribePattern actor pattern handler => exact same rfl
  | unsubscribe actor topic => exact same rfl
  | unsubscribePattern actor pattern => exact same rfl
  | read actor order => exact same rfl
  | send actor place =>
      apply same
      simp only [Network.step]
      split
      · exact write_routed _ actor _
      · rfl
  | publish actor topic payload retain => exact same (write_routed network actor _)
  | request actor frame =>
      apply same
      simp only [Network.step]
      split
      · rfl
      · exact write_routed network actor frame

/-- The publishes that the sender makes in a run are taken by the daemon in their order. -/
theorem publishes_run (accepts : Handler → Bytes → Bool) (sender : Client)
    (actions : List (NetworkAction Client Handler)) (marked : start.Marked) :
    start.waiting sender ++ collect (Network.step accepts) (Network.makes sender) start actions =
      collect (Network.step accepts) (Network.begun sender) start actions ++
        (run (Network.step accepts) start actions).waiting sender := by
  have keep (network : Network Client Handler) (action : NetworkAction Client Handler)
      (marked : network.Marked) (_ : True) : (network.step accepts action).Marked ∧
        network.waiting sender ++ network.makes sender action =
          network.begun sender action ++ (network.step accepts action).waiting sender :=
    ⟨marked.step accepts network action, waiting_step sender action marked⟩
  exact collect_queue keep actions start marked (Meets.of_admitted fun _ _ => True.intro)

/-- A run from a settled start follows the publishes that the daemon takes in it. -/
theorem Network.Follows.reach (accepts : Handler → Bytes → Bool) (marked : start.Marked)
    (settled : start.Settled client) (different : client ≠ sender)
    {actions : List (NetworkAction Client Handler)}
    (keeps : ∀ action ∈ actions, action.Keeps client) :
    Network.Follows accepts start sender client (run (Network.step accepts) start actions)
      (collect (Network.step accepts) (Network.begun sender) start actions) := by
  have keep (network : Network Client Handler) (action : NetworkAction Client Handler)
      (held : network.Marked ∧
        ∃ publishes, Network.Follows accepts start sender client network publishes)
      (kept : action.Keeps client) : (network.step accepts action).Marked ∧ ∃ publishes,
        Network.Follows accepts start sender client (network.step accepts action) publishes := by
    obtain ⟨marked, publishes, follows⟩ := held
    exact ⟨marked.step accepts network action, _, follows.step action marked different kept⟩
  obtain ⟨-, publishes, follows⟩ := run_invariant_of_meets keep actions start
    ⟨marked, [], .refl accepts marked settled sender⟩ (Meets.of_admitted keeps)
  have routed := collect_log (fun network : Network Client Handler => network.routed sender)
    (routed_step accepts sender) actions start
  rw [follows.routed, List.append_cancel_left_eq] at routed
  exact routed ▸ follows

/-- The calls of a handler that publishes should cause, with the numbers of the publishes. -/
def Node.wanted (accepts : Handler → Bytes → Bool) (node : Node Client Handler)
    (handler : Registration) (base : Nat) (publishes : List Frame) : List (Nat × Bytes × Bytes) :=
  ((publishes.zipIdx (base + 1)).filter fun entry => node.wants accepts handler entry.1).map
    fun entry => (entry.2, entry.1.name, entry.1.payload)

/-- The daemon has routed every publish of the sender and the client has read every frame. -/
structure Network.Quiet (sender client : Client) (network : Network Client Handler) : Prop where
  waiting : network.waiting sender = []
  routed : (network.daemon.broker.thread sender).owes client = []
  taken : (network.node client).taken = (network.daemon.broker.sent client).length

/-- The handlers are called for a part of the stream of routed publishes. -/
theorem Network.Follows.delivered
    (follows : Network.Follows accepts start sender client network publishes)
    (settled : start.Settled client) (handler : Registration) :
    (network.node client).callsOf handler sender (start.routed sender).length <+:
      (start.node client).wanted accepts handler (start.routed sender).length publishes := by
  rw [follows.calls, Node.wanted, ← settled.copies, ← follows.stream]
  apply List.IsPrefix.map
  apply List.IsPrefix.filter
  apply List.IsPrefix.trans _ (List.prefix_append _ _)
  exact (List.take_prefix _ _).filterMap _

/-- A node that has read every frame of the publishes has called its handlers for all of them. -/
theorem Network.Follows.complete
    (follows : Network.Follows accepts start sender client network publishes)
    (marked : network.Marked) (settled : start.Settled client) (handler : Registration)
    (thread : (network.daemon.broker.thread sender).owes client = [])
    (taken : (network.node client).taken = (network.daemon.broker.sent client).length) :
    (network.node client).callsOf handler sender (start.routed sender).length =
      (start.node client).wanted accepts handler (start.routed sender).length publishes := by
  have every : (network.node client).taken = (network.wire client).length := by
    rw [taken, ← marked.wire, List.length_map]
  rw [follows.calls, every, List.take_length, Node.wanted, ← settled.copies, ← follows.stream,
    Network.pending, thread, List.map_nil, ite_self, List.append_nil]

/-- The handlers of a settled node are called for the publishes of another node that they want, in
order and at most once each, and once each when the network is quiet. The publishes of the node
itself cause no call. -/
theorem publishes_delivered_once (accepts : Handler → Bytes → Bool)
    (before after : List (NetworkAction Client Handler)) {sender client : Client}
    (different : client ≠ sender)
    (settled : (run (Network.step accepts) .initial before).Settled client)
    (keeps : ∀ action ∈ after, action.Keeps client) (handler : Registration) :
    let start := run (Network.step accepts) .initial before
    let last := run (Network.step accepts) start after
    let made := start.waiting sender ++
      collect (Network.step accepts) (Network.makes sender) start after
    (last.node client).callsOf handler sender (start.routed sender).length <+:
        (start.node client).wanted accepts handler (start.routed sender).length made ∧
      (last.Quiet sender client →
        (last.node client).callsOf handler sender (start.routed sender).length =
          (start.node client).wanted accepts handler (start.routed sender).length made) ∧
      ∀ call ∈ (last.node client).calls, ∀ number, call.cause ≠ some (client, number) := by
  intro start last made
  have marked : start.Marked := run_invariant (Network.Marked.step accepts) before _ .initial
  have ended : last.Marked := run_invariant (Network.Marked.step accepts) after start marked
  have follows := Network.Follows.reach accepts marked settled different keeps
  have taken := publishes_run accepts sender after marked
  refine ⟨?_, ?_, ?_⟩
  · apply (follows.delivered settled handler).trans
    apply List.IsPrefix.map
    apply List.IsPrefix.filter
    rw [show made = _ from taken, List.zipIdx_append]
    exact List.prefix_append _ _
  · intro quiet
    have whole : made = _ := taken
    rw [show (run (Network.step accepts) start after).waiting sender = [] from quiet.waiting,
      List.append_nil] at whole
    rw [whole]
    exact follows.complete ended settled handler quiet.routed quiet.taken
  · intro call member number caused
    exact (ended.calls client call member client number caused).1 rfl

/-- The node `true` registers an exact handler and a pattern handler. -/
def smallSubscriptions : List (NetworkAction Bool Unit) :=
  [.daemon (.connect true), .daemon (.connect false), .subscribe true [97] (),
    .subscribePattern true [43] (), .send true 0, .send true 0,
    .daemon (.thread true true [] 0 0), .daemon (.thread true true [] 0 0),
    .daemon (.thread true true [] 0 0)]

/-- Both nodes publish, and the daemon routes the publishes of the node `false`. -/
def smallPublishes : List (NetworkAction Bool Unit) :=
  [.publish false [97] [1] false, .publish true [97] [9] false, .publish false [98] [2] true,
    .daemon (.thread true true [] 0 0), .daemon (.thread true true [] 0 0),
    .daemon (.thread false true [] 0 0), .daemon (.thread false true [] 0 0),
    .daemon (.thread false true [] 0 0), .daemon (.thread false true [] 0 0),
    .daemon (.thread false true [] 0 0), .daemon (.thread false true [] 0 0),
    .read true [[43]], .read true [[43]]]

/-- The network with the handlers in place. -/
def smallStart : Network Bool Unit :=
  run (Network.step fun _ _ => true) .initial smallSubscriptions

/-- The network after the publishes. -/
def smallLast : Network Bool Unit := run (Network.step fun _ _ => true) smallStart smallPublishes

theorem smallStart_settled : smallStart.Settled true := by
  refine ⟨⟨⟨by decide +kernel, True.intro⟩, by decide +kernel⟩, by decide +kernel, ?_, ?_⟩
  · intro topic member
    rw [← Finmap.mem_keys] at member
    revert topic
    decide +kernel
  · intro topic member
    rw [← Finmap.mem_keys] at member
    revert topic
    decide +kernel

theorem smallLast_quiet : smallLast.Quiet false true :=
  ⟨by decide +kernel, by decide +kernel, by decide +kernel⟩

theorem publishes_delivered_once_small :
    (smallLast.node true).callsOf ⟨true, [43], 0⟩ false (smallStart.routed false).length =
      [(1, [97], [1]), (2, [98], [2])] := by
  have keeps : ∀ action ∈ smallPublishes, action.Keeps true := by
    simp [smallPublishes, NetworkAction.Keeps]
  obtain ⟨-, once, -⟩ := publishes_delivered_once (fun _ _ => true) smallSubscriptions
    smallPublishes (by decide : true ≠ false) smallStart_settled keeps ⟨true, [43], 0⟩
  refine (once smallLast_quiet).trans ?_
  decide +kernel

end Chappe
