/-
This file proves that a subscriber whose `sync` has returned has called its handlers once for each
publish that came before.
-/

import Chappe.Proof.Sync.Attending

namespace Chappe
open Foundation

variable {Client Handler : Type}

section Lists

variable {Item : Type*}

theorem prefix_take {first second : List Item} (grows : first <+: second) {count : Nat}
    (within : count ≤ first.length) : second.take count = first.take count := by
  obtain ⟨more, rfl⟩ := grows
  exact List.take_append_of_le_length within

/-- A list that starts with another one and is a part of it is the other one. -/
theorem prefix_sublist {first second : List Item} (grows : first <+: second)
    (within : second.Sublist first) : second = first :=
  within.eq_of_length_le grows.length_le

end Lists

variable {node : Node Client Handler} {handler : Registration}
  {accepts : Handler → Bytes → Bool} {base : Nat} {publishes more : List Frame}

/-- The frames of publishes with numbers up to the bound. -/
def upTo (bound : Nat) (frames : List (Frame × Nat)) : List (Frame × Nat) :=
  frames.filter fun entry => entry.2 ≤ bound

/-- The copies of the first publishes have the first numbers. -/
theorem upTo_wantedFrames (accepts : Handler → Bytes → Bool) (base : Nat)
    (publishes more : List Frame) :
    upTo (base + publishes.length) (node.wantedFrames accepts handler base (publishes ++ more)) =
      node.wantedFrames accepts handler base publishes := by
  have early : upTo (base + publishes.length) (node.wantedFrames accepts handler base publishes) =
      node.wantedFrames accepts handler base publishes := by
    rw [upTo, List.filter_eq_self]
    exact fun entry member => decide_eq_true (mem_wantedFrames member).2
  have late : upTo (base + publishes.length)
      (node.wantedFrames accepts handler (base + publishes.length) more) = [] := by
    rw [upTo, List.filter_eq_nil_iff]
    intro entry member
    have beyond := (mem_wantedFrames member).1
    simp only [decide_eq_true_eq]
    omega
  rw [wantedFrames_append, upTo, List.filter_append]
  rw [upTo] at early late
  rw [early, late, List.append_nil]

/-- A node gets more of the publishes that a handler wants from a longer wire. -/
theorem wanting_mono (accepts : Handler → Bytes → Bool) (sender : Client) [DecidableEq Client]
    {first second : List (Frame × Option (Client × Nat))} (grows : first <+: second) :
    node.wanting accepts handler (routedBy sender base first) <+:
      node.wanting accepts handler (routedBy sender base second) :=
  (grows.filterMap _).filter _

/-- The calls for the copies of the publishes are the wanted ones. -/
theorem wantedFrames_calls (accepts : Handler → Bytes → Bool) (base : Nat)
    (publishes : List Frame) :
    (node.wantedFrames accepts handler base publishes).map
        (fun entry => (entry.2, entry.1.name, entry.1.payload)) =
      node.wanted accepts handler base publishes := by
  rw [Node.wantedFrames, List.map_map]
  rfl

variable [DecidableEq Client] {start network : Network Client Handler} {sender client : Client}

theorem Network.Attends.refl (accepts : Handler → Bytes → Bool) (marked : start.Marked)
    (subscribed : start.Subscribed client handler) (sender : Client) :
    start.Attends accepts start sender client handler [] where
  registered := rfl
  unsent := subscribed.unsent
  holds := fun _ => subscribed.holds
  routed := (List.append_nil _).symm
  genuine := by
    rw [marked.unrouted sender client fun _ member => member]
    exact fun _ member => absurd member List.not_mem_nil
  within := by
    rw [marked.unrouted sender client fun _ member => member]
    exact .refl _
  whole := by
    rw [marked.unrouted sender client fun _ member => member]
    exact fun _ => rfl
  calls := by
    rw [marked.unrouted sender client fun _ member => List.mem_of_mem_take member,
      marked.uncalled]
    rfl

/-- A run from a state in which the subscription is in effect attends to the publishes. -/
theorem Network.Attends.reach (accepts : Handler → Bytes → Bool) (marked : start.Marked)
    (subscribed : start.Subscribed client handler) (different : client ≠ sender)
    {actions : List (NetworkAction Client Handler)}
    (keeps : ∀ action ∈ actions, ¬ action.Drops client handler.name) :
    ∃ publishes, (run (Network.step accepts) start actions).Attends accepts start sender client
      handler publishes := by
  have keep (network : Network Client Handler) (action : NetworkAction Client Handler)
      (held : network.Marked ∧ ∃ publishes,
        network.Attends accepts start sender client handler publishes)
      (kept : ¬ action.Drops client handler.name) :
      (network.step accepts action).Marked ∧ ∃ publishes,
        (network.step accepts action).Attends accepts start sender client handler publishes := by
    obtain ⟨marked, publishes, attends⟩ := held
    exact ⟨marked.step accepts network action, _,
      attends.step action subscribed.registered marked different kept⟩
  exact (run_invariant_of_meets keep actions start ⟨marked, [], .refl accepts marked subscribed
    sender⟩ (Meets.of_admitted keeps)).2

/-- The handler has been called for the first publishes when they are on the wire and the node has
read it. -/
theorem Network.Attends.called {early last : Network Client Handler} {later : List Frame}
    (before : early.Attends accepts start sender client handler (publishes ++ more))
    (after : last.Attends accepts start sender client handler (publishes ++ later))
    (stays : (early.daemon.life client).Stays)
    (pending : ∀ entry ∈ early.pending sender client (publishes ++ more),
      (start.routed sender).length + publishes.length < entry.2)
    (wire : early.wire client <+: last.wire client)
    (read : (early.wire client).length ≤ (last.node client).taken) :
    ((last.node client).callsOf handler sender (start.routed sender).length).filter
        (fun call => decide (call.1 ≤ (start.routed sender).length + publishes.length)) =
      (start.node client).wanted accepts handler (start.routed sender).length publishes := by
  have bounded : upTo ((start.routed sender).length + publishes.length)
      ((start.node client).wanting accepts handler
        (routedBy sender (start.routed sender).length (early.wire client))) =
      (start.node client).wantedFrames accepts handler (start.routed sender).length publishes := by
    have none : upTo ((start.routed sender).length + publishes.length)
        ((start.node client).wanting accepts handler
          (early.pending sender client (publishes ++ more))) = [] := by
      rw [upTo, List.filter_eq_nil_iff]
      intro entry member
      have beyond := pending entry (List.mem_filter.mp member).1
      simp only [decide_eq_true_eq]
      omega
    have whole := congrArg (upTo ((start.routed sender).length + publishes.length))
      (before.whole stays)
    rwa [upTo_wantedFrames, wanting_append, upTo, List.filter_append, ← upTo, ← upTo, none,
      List.append_nil] at whole
  have within : early.wire client <+: (last.wire client).take (last.node client).taken :=
    List.prefix_take_iff.mpr ⟨wire, read⟩
  have called : upTo ((start.routed sender).length + publishes.length)
      ((start.node client).wanting accepts handler (routedBy sender (start.routed sender).length
        ((last.wire client).take (last.node client).taken))) =
      (start.node client).wantedFrames accepts handler (start.routed sender).length publishes := by
    apply prefix_sublist
    · rw [← bounded]
      exact (wanting_mono accepts sender within).filter _
    · rw [← upTo_wantedFrames accepts _ publishes later]
      apply List.Sublist.filter
      apply List.Sublist.trans _ after.within
      rw [wanting_append]
      exact ((wanting_mono accepts sender (List.take_prefix _ _)).trans
        (List.prefix_append _ _)).sublist
  rw [after.calls, List.filter_map, ← wantedFrames_calls, ← called]
  rfl

/-- A fleet runs like its network. -/
theorem fleet_network (accepts : Handler → Bytes → Bool)
    (actions : List (NetworkAction Client Handler)) :
    ∀ fleet : Fleet Client Handler, (run (Fleet.step accepts) fleet actions).network =
      run (Network.step accepts) fleet.network actions := by
  induction actions with
  | nil => exact fun _ => rfl
  | cons action rest ih => exact fun fleet => ih (fleet.step accepts action)

/-- The daemon begins to route the publishes that it takes. -/
theorem begins_taken (daemon : Daemon Client) (sender : Client) (action : DaemonAction Client) :
    daemon.begins sender action =
      (takenFrom sender (daemon.takes action)).filter Frame.isPublish := by
  cases action with
  | thread actor target order now later =>
      dsimp only [Daemon.begins]
      cases takes : daemon.takes (.thread actor target order now later) with
      | some taken =>
          obtain ⟨taker, frame⟩ := taken
          obtain ⟨serving, idle, _, _, _, _, rest, equal, queued, -⟩ := takes_some takes
          cases equal
          by_cases mine : actor = sender
          · subst actor
            simp only [takenFrom, if_true, serving, idle, queued, List.filter_singleton]
            cases frame.isPublish with
            | true => rfl
            | false => rfl
          · simp only [takenFrom, if_neg mine, List.filter_nil]
      | none =>
          simp only [takenFrom, List.filter_nil]
          by_cases mine : actor = sender
          · subst actor
            rw [if_pos rfl]
            split
            · rename_i serving idle queued
              simp [Daemon.takes, serving, idle, queued] at takes
            · rfl
          · exact if_neg mine
  | connect actor => rfl
  | arrive actor frame => rfl
  | hangUp actor => rfl
  | sweep order read => rfl

theorem begun_taken (fleet : Fleet Client Handler) (sender : Client)
    (action : NetworkAction Client Handler) :
    fleet.network.begun sender action = (fleet.taken sender action).filter Frame.isPublish := by
  cases action with
  | daemon action => exact begins_taken fleet.network.daemon sender action
  | subscribe actor topic handler => rfl
  | subscribePattern actor pattern handler => rfl
  | unsubscribe actor topic => rfl
  | unsubscribePattern actor pattern => rfl
  | send actor place => rfl
  | publish actor topic payload retain => rfl
  | request actor frame => rfl
  | read actor order => rfl

/-- The daemon routes the publishes that it has taken, and a thread routes its last frame. -/
structure Fleet.Counted (fleet : Fleet Client Handler) : Prop where
  routed : ∀ sender, fleet.network.routed sender =
    (fleet.handled sender).filter Frame.isPublish
  routing : ∀ sender client, (fleet.network.daemon.broker.thread sender).owes client ≠ [] →
    ∃ frame, (fleet.handled sender).getLast? = some frame ∧ frame.isPublish = true

theorem Fleet.Counted.initial : (Fleet.initial : Fleet Client Handler).Counted where
  routed := fun _ => rfl
  routing := fun _ _ owes => absurd rfl owes

theorem Fleet.Counted.step (accepts : Handler → Bytes → Bool) (fleet : Fleet Client Handler)
    (action : NetworkAction Client Handler) (counted : fleet.Counted) :
    (fleet.step accepts action).Counted where
  routed := by
    intro sender
    simp only [Fleet.step, routed_step, counted.routed, begun_taken, List.filter_append]
  routing := by
    intro sender client owes
    have same (before : (fleet.network.daemon.broker.thread sender).owes client ≠ []) :
        ∃ frame, ((fleet.step accepts action).handled sender).getLast? = some frame ∧
          frame.isPublish = true := by
      rcases taken_cases fleet sender action with none | ⟨frame, takes, -⟩
      · simp only [Fleet.step, none, List.append_nil]
        exact counted.routing sender client before
      · cases network_moves accepts fleet.network action with
        | rests daemon wire silent =>
            rw [takes] at silent
            cases silent
        | writes actor written daemon wire silent =>
            rw [takes] at silent
            cases silent
        | serves served silent daemon taking =>
            rw [(takes_some (taking ▸ takes)).idle] at before
            exact absurd rfl before
    change ((fleet.network.step accepts action).daemon.broker.thread sender).owes client ≠ []
      at owes
    cases network_moves accepts fleet.network action with
    | rests daemon => exact same (daemon ▸ owes)
    | writes actor written daemon =>
        rw [daemon] at owes
        exact same owes
    | serves served silent daemon takes =>
        rw [daemon] at owes
        cases daemon_routes fleet.network.daemon sender client served with
        | begins frame begun =>
            have member : frame ∈ (fleet.taken sender action).filter Frame.isPublish := by
              rw [Fleet.taken, takes, ← begins_taken, begun]
              exact List.mem_singleton_self frame
            obtain ⟨taken, publish⟩ := List.mem_filter.mp member
            rcases taken_cases fleet sender action with none | ⟨last, -, single⟩
            · rw [none] at taken
              cases taken
            · rw [single, List.mem_singleton] at taken
              subst last
              refine ⟨frame, ?_, publish⟩
              simp only [Fleet.step, single, List.getLast?_append, List.getLast?_singleton,
                Option.some_or]
        | writes frame begun router before after => exact absurd after owes
        | rests begun kept =>
            apply same
            rw [← kept]
            exact owes

/-- The thread of the sender is past the publishes before a `sync` that has returned. -/
theorem Fleet.Counted.past {start middle early : Fleet Client Handler} {fence : Nat}
    (before : start.Counted) (client : Client) (counted : early.Counted)
    (handled : fence < (middle.handled sender).length) (toMiddle : start.Extends middle)
    (toEarly : middle.Extends early) {publishes : List Frame}
    (routed : early.network.routed sender = start.network.routed sender ++ publishes) :
    ∃ more, publishes = middle.published start sender fence ++ more ∧
      ∀ entry ∈ early.network.pending sender client publishes,
        (start.network.routed sender).length + (middle.published start sender fence).length <
          entry.2 := by
  have past : fence < (early.handled sender).length :=
    handled.trans_le (toEarly.handled sender).length_le
  have front : (middle.sent sender).take fence = (early.handled sender).take fence := by
    rw [prefix_take (toEarly.handled sender) handled.le]
    exact List.take_append_of_le_length handled.le
  have since : publishes =
      ((early.handled sender).drop (start.handled sender).length).filter Frame.isPublish := by
    obtain ⟨new, grown⟩ := (toMiddle.trans toEarly).handled sender
    rw [counted.routed, before.routed, ← grown, List.filter_append] at routed
    rw [← grown, List.drop_left]
    exact (List.append_cancel_left routed).symm
  have split : (early.handled sender).drop (start.handled sender).length =
      ((middle.sent sender).take fence).drop (start.handled sender).length ++
        ((early.handled sender).drop fence).drop ((start.handled sender).length - fence) := by
    conv_lhs => rw [← List.take_append_drop fence (early.handled sender)]
    rw [List.drop_append, List.length_take, Nat.min_eq_left past.le, front]
  refine ⟨(((early.handled sender).drop fence).drop
    ((start.handled sender).length - fence)).filter Frame.isPublish, ?_, ?_⟩
  · rw [since, split, List.filter_append]
    rfl
  · intro entry member
    unfold Network.pending at member
    split at member
    · cases member
    · rename_i some
      obtain ⟨copy, owed, rfl⟩ := List.mem_map.mp member
      obtain ⟨last, final, publish⟩ :=
        counted.routing sender client (List.ne_nil_of_mem owed)
      have within : last ∈ (early.handled sender).drop fence := by
        apply List.mem_of_getLast?
        rw [List.getLast?_drop, if_neg past.not_ge, final]
      by_contra few
      have length := congrArg List.length routed
      have parts := congrArg List.length since
      rw [split, List.filter_append, List.length_append] at parts
      rw [List.length_append] at length
      simp only [Fleet.published] at few
      have none : (((early.handled sender).drop fence).drop
          ((start.handled sender).length - fence)).filter Frame.isPublish = [] := by
        apply List.eq_nil_of_length_eq_zero
        omega
      have apart : (start.handled sender).length < fence := by
        by_contra late
        apply some
        rw [since, split, List.filter_append, none, List.drop_eq_nil_of_le, List.filter_nil]
        · rfl
        · rw [List.length_take]
          omega
      rw [Nat.sub_eq_zero_of_le apart.le, List.drop_zero, List.filter_eq_nil_iff] at none
      exact none last within publish

theorem takes_life {fleet : Fleet Client Handler} {action : NetworkAction Client Handler}
    {frame : Frame} (takes : fleet.network.takes action = some (client, frame)) :
    fleet.network.daemon.life client = .serving := by
  cases action with
  | daemon action => exact (takes_some takes).serving
  | subscribe actor topic handler => cases takes
  | subscribePattern actor pattern handler => cases takes
  | unsubscribe actor topic => cases takes
  | unsubscribePattern actor pattern => cases takes
  | send actor place => cases takes
  | publish actor topic payload retain => cases takes
  | request actor frame => cases takes
  | read actor order => cases takes

/-- After a `sync` of the publisher and then one of a subscriber, the handlers of the subscriber
have been called once for each publish that they want. -/
theorem synced_calls (accepts : Handler → Bytes → Bool) {start : Fleet Client Handler}
    {second third : List (NetworkAction Client Handler)} {fence number : Nat}
    (sound : start.Sound) (counted : start.Counted) (different : client ≠ sender)
    (subscribed : start.network.Subscribed client handler)
    (keeps : ∀ action ∈ second ++ third, ¬ action.Drops client handler.name)
    (flushed : (run (Fleet.step accepts) start second).Synced sender fence)
    (synced : (run (Fleet.step accepts) start (second ++ third)).Synced client number)
    (after : ((run (Fleet.step accepts) start second).sent client).length ≤ number) :
    let published := (run (Fleet.step accepts) start second).published start sender fence
    (((run (Fleet.step accepts) start (second ++ third)).network.node client).callsOf handler sender
        (start.network.routed sender).length).filter
          (fun call => decide (call.1 ≤ (start.network.routed sender).length + published.length)) =
      (start.network.node client).wanted accepts handler (start.network.routed sender).length
        published := by
  intro published
  have reaches (actions : List (NetworkAction Client Handler)) :
      (run (Fleet.step accepts) start actions).Sound :=
    run_invariant (Fleet.Sound.step accepts) actions start sound
  have past : number <
      ((run (Fleet.step accepts) start (second ++ third)).handled client).length :=
    ((reaches _).finished synced).trans_le (Nat.sub_le _ _)
  have fresh : ((run (Fleet.step accepts) start second).handled client).length ≤ number := by
    rw [Fleet.sent, List.length_append] at after
    omega
  rw [run_append] at past
  obtain ⟨ahead, action, rest, frame, rfl, takes, length, -⟩ := taking_point accepts fresh past
  rw [← run_append] at takes length
  have attends (actions : List (NetworkAction Client Handler))
      (part : actions <+: second ++ (ahead ++ action :: rest)) :
      ∃ publishes, (run (Fleet.step accepts) start actions).network.Attends accepts start.network
        sender client handler publishes := by
    rw [fleet_network]
    exact Network.Attends.reach accepts sound.marked subscribed different
      fun taken member => keeps taken (part.subset member)
  obtain ⟨before, early⟩ := attends (second ++ ahead) (by simp [List.prefix_append_right_inj])
  obtain ⟨whole, final⟩ := attends _ List.prefix_rfl
  have handled : fence < ((run (Fleet.step accepts) start second).handled sender).length :=
    ((reaches second).finished flushed).trans_le (Nat.sub_le _ _)
  have countedRun (actions : List (NetworkAction Client Handler)) :
      (run (Fleet.step accepts) start actions).Counted :=
    run_invariant (Fleet.Counted.step accepts) actions start counted
  have grows (actions more : List (NetworkAction Client Handler)) :
      (run (Fleet.step accepts) start actions).Extends
        (run (Fleet.step accepts) start (actions ++ more)) := by
    rw [run_append]
    exact .run accepts more _
  obtain ⟨more, rfl, pending⟩ := counted.past client (countedRun (second ++ ahead)) handled
    (.run accepts second start) (grows second ahead) early.routed
  obtain ⟨later, rfl, -⟩ := counted.past client (countedRun _) handled
    (.run accepts second start) (grows second _) final.routed
  have toLast : (run (Fleet.step accepts) start (second ++ ahead)).Extends
      (run (Fleet.step accepts) start (second ++ (ahead ++ action :: rest))) := by
    rw [← List.append_assoc]
    exact grows _ _
  have read := (reaches (second ++ ahead)).read toLast synced length.le
  refine early.called final ?_ pending (toLast.wire client) read.le
  rw [takes_life takes]
  exact True.intro

end Chappe
