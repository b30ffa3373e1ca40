/-
This file proves that a publish crosses a pair of links once, in order, and does not come back.
-/

import Chappe.Proof.Link.Carrying

namespace Chappe
open Foundation

variable {Client : Type}

/-- The publish that the given publish of the link on its daemon comes from. -/
def Outpost.origin (outpost : Outpost Client) : Nat → Option (Client × Nat)
  | 0 => none
  | number + 1 => (outpost.crossed[number]?).bind Prod.snd

variable [DecidableEq Client]

/-- The frames on the way to the client that stem from publishes of the sender over the link. -/
def Outpost.arrivals (me sender : Client) (base : Nat) (client : Client)
    (outpost : Outpost Client) : List (Frame × Nat) :=
  (routedBy me 0 (outpost.network.wire client)).filterMap fun entry =>
    (since sender base (outpost.origin entry.2)).map fun number => (entry.1, number)

/-- The daemon has routed every publish of the sender to the link, and the link has written them to
its peer. -/
structure Outpost.Drained (me sender : Client) (outpost : Outpost Client) : Prop where
  waiting : outpost.network.waiting sender = []
  routed : (outpost.network.daemon.broker.thread sender).owes me = []
  taken : outpost.taken = (outpost.network.wire me).length
  pending : outpost.link.localPending = none

/-- The link has read everything of the peer and has published what it admits. -/
structure Outpost.Emptied (near far : Outpost Client) : Prop where
  read : near.read = far.written.length
  pending : near.link.peerPending = none

/-- The daemon has routed every publish of the link to the client. -/
structure Outpost.Served (me client : Client) (outpost : Outpost Client) : Prop where
  waiting : outpost.network.waiting me = []
  routed : (outpost.network.daemon.broker.thread me).owes client = []

variable {configs : Side → LinkConfig} {links : Side → Client} {origin pair : Pair Client}
  {side : Side} {sender client : Client} {publishes : List Frame}

/-- A link that is in place is a target of the topics that it forwards. -/
theorem Pair.Sound.target (sound : pair.Sound configs links)
    (started : (pair side).started = true)
    (settled : (pair side).network.daemon.Settled (links side)) (topic : Bytes) :
    links side ∈ (pair side).network.daemon.broker.tables.targets topic ↔
      (configs side).forwardsTopic topic = true := by
  have subscribes := (sound.device side).subscribes
  rw [if_pos started] at subscribes
  rw [subscribes.target settled, forwardsTopic_iff]

/-- The frames on the way to a link are the publishes that it forwards. -/
theorem Pair.Carries.routed
    (carries : Pair.Carries configs links side sender origin pair publishes)
    (sound : origin.Sound configs links) (started : (origin side).started = true)
    (settled : (origin side).network.daemon.Settled (links side)) :
    routedBy sender ((origin side).network.routed sender).length
        ((pair side).network.wire (links side)) ++
      (pair side).network.pending sender (links side) publishes =
    forwarded (configs side).forwardsTopic ((origin side).network.routed sender).length
      publishes := by
  rw [carries.follows.stream]
  exact copies_forwarded (sound.target started settled) _ _

/-- What a link writes to its peer is what it forwards of the publishes so far. -/
theorem Pair.Carries.written
    (carries : Pair.Carries configs links side sender origin pair publishes)
    (sound : origin.Sound configs links) (started : (origin side).started = true)
    (settled : (origin side).network.daemon.Settled (links side)) :
    routedBy sender ((origin side).network.routed sender).length (pair side).written <+:
        forwarded (configs side).forwardsTopic ((origin side).network.routed sender).length
          publishes ∧
      ((pair side).Drained (links side) sender →
        routedBy sender ((origin side).network.routed sender).length (pair side).written =
          forwarded (configs side).forwardsTopic ((origin side).network.routed sender).length
            publishes) := by
  have routed := carries.routed sound started settled
  have forwards := carries.forwards
  unfold Outpost.Forwards at forwards
  have whole : (forwarded (configs side).forwardsTopic
      ((origin side).network.routed sender).length publishes).filter
        (fun entry => (configs side).forwardsTopic entry.1.name) =
      forwarded (configs side).forwardsTopic ((origin side).network.routed sender).length
        publishes := by
    rw [forwarded_filter]
    simp only [Bool.and_self]
  constructor
  · rw [← whole, ← routed, List.filter_append]
    refine List.IsPrefix.trans ⟨_, forwards⟩ (List.IsPrefix.trans ?_ (List.prefix_append _ _))
    exact ((List.take_prefix _ _).filterMap _).filter _
  · intro drained
    rw [drained.pending, drained.taken, List.take_length, Option.toList_none, List.map_nil,
      routedBy_nil, List.append_nil] at forwards
    rw [Network.pending, drained.routed, List.map_nil, ite_self, List.append_nil] at routed
    rw [forwards, routed, whole]

/-- What a link publishes on its daemon is what both links forward of the publishes so far. -/
theorem Pair.Carries.crossed
    (carries : Pair.Carries configs links side sender origin pair publishes)
    (sound : origin.Sound configs links) (started : (origin side).started = true)
    (settled : (origin side).network.daemon.Settled (links side)) :
    routedBy sender ((origin side).network.routed sender).length (pair side.other).crossed <+:
        forwarded (fun topic => (configs side).forwardsTopic topic &&
          (configs side.other).forwardsTopic topic) ((origin side).network.routed sender).length
          publishes ∧
      ((pair side).Drained (links side) sender → (pair side.other).Emptied (pair side) →
        routedBy sender ((origin side).network.routed sender).length (pair side.other).crossed =
          forwarded (fun topic => (configs side).forwardsTopic topic &&
            (configs side.other).forwardsTopic topic)
              ((origin side).network.routed sender).length publishes) := by
  obtain ⟨part, whole⟩ := carries.written sound started settled
  have passes := carries.passes
  unfold Outpost.Publishes at passes
  constructor
  · rw [← forwarded_filter]
    refine List.IsPrefix.trans ⟨_, passes⟩ ?_
    exact (((List.take_prefix _ _).filterMap _).trans part).filter _
  · intro drained emptied
    rw [emptied.pending, emptied.read, List.take_length, Option.toList_none, List.map_nil,
      routedBy_nil, List.append_nil] at passes
    rw [passes, whole drained, forwarded_filter]

theorem copies_cons (tables : Tables Client) (client : Client) (base : Nat) (frame : Frame)
    (rest : List Frame) : copies tables client base (frame :: rest) =
      (if client ∈ tables.targets frame.name then
        [(Msg.publish.frame frame.name frame.payload, base + 1)] else []) ++
        copies tables client (base + 1) rest := by
  rw [copies, List.zipIdx_cons, List.filterMap_cons]
  split
  · rename_i apart
    rw [if_neg fun target => by simp [target] at apart]
    rfl
  · rename_i copied found
    split at found
    · rename_i target
      cases found
      rw [if_pos target]
      rfl
    · cases found

/-- The frames by which the daemon routes publishes of the link stem from what these come from. -/
theorem copies_origins {tables : Tables Client} {base last : Nat}
    {entries : List (Frame × Option (Client × Nat))}
    (plain : ∀ entry ∈ entries, entry.1.msg = some .publish) {look : Nat → Option (Client × Nat)}
    (agrees : ∀ place entry, entries[place]? = some entry → look (last + 1 + place) = entry.2) :
    ((copies tables client last (entries.map Prod.fst)).filterMap fun entry =>
      (since sender base (look entry.2)).map fun number => (entry.1, number)) =
      (routedBy sender base entries).filter fun entry =>
        client ∈ tables.targets entry.1.name := by
  induction entries generalizing last with
  | nil => rfl
  | cons entry rest ih =>
      have first : look (last + 1) = entry.2 := agrees 0 entry rfl
      have later : ∀ place found, rest[place]? = some found →
          look (last + 1 + 1 + place) = found.2 := by
        intro place found there
        rw [Nat.add_right_comm, Nat.add_assoc]
        exact agrees (place + 1) found there
      have next := ih (fun found member => plain found (List.mem_cons_of_mem _ member)) later
      have frame := frame_of_msg (plain entry List.mem_cons_self)
      have single : entry :: rest = [entry] ++ rest := rfl
      rw [List.map_cons, copies_cons, List.filterMap_append, next, single, routedBy_append,
        List.filter_append, routedBy_single]
      congr 1
      split
      · rename_i target
        rw [frame, List.filterMap_cons, List.filterMap_nil]
        dsimp only
        rw [first]
        cases since sender base entry.2 with
        | none => rfl
        | some number => simp [target]
      · rename_i missed
        cases since sender base entry.2 with
        | none => rfl
        | some number => simp [missed]

/-- The first publishes of the link come from nothing that the sender did later. -/
theorem arrivals_later {outpost : Outpost Client} {me : Client} {base last : Nat}
    (early : ∀ number ≤ last, since sender base (outpost.origin number) = none) :
    outpost.arrivals me sender base client =
      (routedBy me last (outpost.network.wire client)).filterMap fun entry =>
        (since sender base (outpost.origin entry.2)).map fun number => (entry.1, number) := by
  unfold Outpost.arrivals routedBy
  rw [List.filterMap_filterMap, List.filterMap_filterMap]
  apply List.filterMap_congr
  rintro ⟨frame, cause⟩ -
  rcases cause with none | ⟨actor, number⟩
  · rfl
  · by_cases mine : actor = me
    · by_cases after : last < number
      · simp [since, mine, after, Nat.zero_lt_of_lt after]
      · have nothing := early number (Nat.le_of_not_lt after)
        have before : since me last (some (actor, number)) = none := if_neg fun both => after both.2
        have found : since me 0 (some (actor, number)) =
            if 0 < number then some number else none := by
          simp [since, mine]
        dsimp only
        rw [before, found]
        split
        · simp [nothing]
        · rfl
    · simp [since, mine]

variable {accepts : Unit → Bytes → Bool} {start : Network Client Unit} {outpost : Outpost Client}
  {me : Client} {base : Nat} {before : List (Frame × Option (Client × Nat))}

/-- The frames on the way to a client that keeps its subscriptions stem from the publishes of the
link, as far as the daemon has routed these. -/
theorem arrivals_stream
    (follows : Network.Follows accepts start me client outpost.network publishes)
    (published : outpost.network.routed me ++ outpost.network.waiting me =
      outpost.crossed.map Prod.fst)
    (plain : ∀ entry ∈ outpost.crossed, entry.1.msg = some .publish)
    (earlier : before <+: outpost.crossed) (first : (start.routed me).length ≤ before.length)
    (early : ∀ entry ∈ before, since sender base entry.2 = none) :
    outpost.arrivals me sender base client ++
        ((outpost.network.pending me client publishes).filterMap fun entry =>
          (since sender base (outpost.origin entry.2)).map fun number => (entry.1, number)) =
      (routedBy sender base (outpost.crossed.take (outpost.network.routed me).length)).filter
        fun entry => client ∈ start.daemon.broker.tables.targets entry.1.name := by
  obtain ⟨more, whole⟩ := earlier
  have silent : ∀ number ≤ (start.routed me).length,
      since sender base (outpost.origin number) = none := by
    intro number bound
    cases number with
    | zero => rfl
    | succ number =>
        have inside : number < before.length := by omega
        rw [Outpost.origin, ← whole, List.getElem?_append_left inside,
          List.getElem?_eq_getElem inside]
        exact early _ (List.getElem_mem inside)
  have length : (start.routed me).length ≤ (outpost.network.routed me).length := by
    rw [follows.routed, List.length_append]
    exact Nat.le_add_right _ _
  have split : routedBy sender base (outpost.crossed.take (outpost.network.routed me).length) =
      routedBy sender base ((outpost.crossed.take (outpost.network.routed me).length).drop
        (start.routed me).length) := by
    conv_lhs => rw [← List.take_append_drop (start.routed me).length
      (outpost.crossed.take (outpost.network.routed me).length)]
    rw [routedBy_append, routedBy_early, List.nil_append]
    intro entry member
    rw [List.take_take, Nat.min_eq_left length, ← whole,
      List.take_append_of_le_length first] at member
    exact early entry (List.mem_of_mem_take member)
  have frames : ((outpost.crossed.take (outpost.network.routed me).length).drop
      (start.routed me).length).map Prod.fst = publishes := by
    rw [List.map_drop, List.map_take, ← published, List.take_left, follows.routed,
      List.drop_left]
  rw [arrivals_later silent, ← List.filterMap_append, follows.stream, ← frames, split]
  apply copies_origins
  · intro entry member
    exact plain entry (List.mem_of_mem_take (List.mem_of_mem_drop member))
  · intro place entry found
    rw [List.getElem?_drop] at found
    obtain ⟨there, -⟩ := List.getElem?_eq_some_iff.mp found
    rw [List.getElem?_take_of_lt (by rw [List.length_take] at there; omega)] at found
    rw [Nat.add_right_comm, Outpost.origin, found]
    rfl

theorem Pair.step_follows {actions : List (PairAction Client)}
    (different : client ≠ links side) (keeps : ∀ action ∈ actions, action.KeepsLinks links)
    (kept : ∀ action ∈ actions, action.Keeps side client) (sound : pair.Sound configs links)
    (started : (pair side).started = true)
    (follows : Network.Follows accepts start (links side) client (pair side).network publishes) :
    ∃ publishes, Network.Follows accepts start (links side) client
      ((run (Pair.step configs links) pair actions) side).network publishes := by
  induction actions generalizing pair publishes with
  | nil => exact ⟨publishes, follows⟩
  | cons action rest ih =>
      apply ih (fun later member => keeps later (List.mem_cons_of_mem _ member))
        (fun later member => kept later (List.mem_cons_of_mem _ member))
      · exact sound.step pair action (keeps action List.mem_cons_self)
      · exact step_started configs links pair action side started
      · exact (Pair.turn configs links started action).follows follows (sound.device side)
          different (.inl (kept action List.mem_cons_self))

/-- A link writes nothing to its peer that it has published itself. -/
theorem Outpost.Sound.silent {config : LinkConfig} (sound : outpost.Sound config me)
    {entry : Frame × Option (Client × Nat)} (written : entry ∈ outpost.written) (number : Nat) :
    entry.2 ≠ some (me, number) := by
  intro mark
  have marks := sound.marks entry.2
    (List.mem_cons_of_mem _ (List.mem_map.mpr ⟨entry, written, rfl⟩))
  rw [mark] at marks
  rcases List.mem_cons.mp marks with none | routed
  · cases none
  · obtain ⟨copy, arrived, same⟩ := List.mem_map.mp routed
    exact (sound.marked.number me copy arrived _ number same).1 rfl

/-- A client that keeps its subscriptions is routed what both links forward and it wants. -/
theorem Pair.Carries.served {links : Side → Client}
    (carries : Pair.Carries configs links side sender origin pair publishes)
    (sound : origin.Sound configs links) (started : (origin side).started = true)
    (settled : (origin side).network.daemon.Settled (links side)) {routed : List Frame}
    (follows : Network.Follows accepts (origin side.other).network (links side.other) client
      (pair side.other).network routed) :
    let base := ((origin side).network.routed sender).length
    let wanted := fun topic => ((configs side).forwardsTopic topic &&
      (configs side.other).forwardsTopic topic) && decide
        (client ∈ (origin side.other).network.daemon.broker.tables.targets topic)
    (pair side.other).arrivals (links side.other) sender base client <+:
        forwarded wanted base publishes ∧
      ((pair side).Drained (links side) sender → (pair side.other).Emptied (pair side) →
        (pair side.other).Served (links side.other) client →
          (pair side.other).arrivals (links side.other) sender base client =
            forwarded wanted base publishes) := by
  intro base wanted
  obtain ⟨part, whole⟩ := carries.crossed sound started settled
  have device := carries.sound.device side.other
  have first : ((origin side.other).network.routed (links side.other)).length ≤
      (origin side.other).crossed.length := by
    have published := congrArg List.length (sound.device side.other).published
    rw [List.length_append, List.length_map] at published
    omega
  have early : ∀ entry ∈ (origin side.other).crossed, since sender base entry.2 = none :=
    fun _ => sound.crossed_early
  have stream := arrivals_stream follows device.published device.plain carries.earlier first early
  have filtered := forwarded_filter
    (fun topic => (configs side).forwardsTopic topic && (configs side.other).forwardsTopic topic)
    (fun topic => decide
      (client ∈ (origin side.other).network.daemon.broker.tables.targets topic)) base publishes
  constructor
  · refine List.IsPrefix.trans ⟨_, stream⟩ ?_
    rw [← filtered]
    exact (((List.take_prefix _ _).filterMap _).trans part).filter _
  · intro drained emptied served
    have published := device.published
    rw [served.waiting, List.append_nil] at published
    rw [Network.pending, served.routed, List.map_nil, ite_self, List.filterMap_nil,
      List.append_nil, published, List.length_map, List.take_length,
      whole drained emptied] at stream
    exact stream.trans filtered

/-- The publishes of a client of one device, from a state on in which the daemons have processed the
subscriptions of both links. Those that its link forwards are written to the peer once each and in
order. Those that the other link forwards too are published there once each and in order, and each
client that subscribes there gets them in order. No link writes back what it has published. -/
theorem publish_crosses_once (configs : Side → LinkConfig) (links : Side → Client)
    (before after : List (PairAction Client)) (side : Side) {sender : Client}
    (foreign : sender ≠ links side)
    (joined : ∀ action ∈ before ++ after, action.KeepsLinks links)
    (started : ∀ side,
      ((run (Pair.step configs links) (.initial configs) before) side).started = true)
    (settled : ∀ side, ((run (Pair.step configs links) (.initial configs)
      before) side).network.daemon.Settled (links side)) :
    let start := run (Pair.step configs links) (.initial configs) before
    let last := run (Pair.step configs links) start after
    let base := ((start side).network.routed sender).length
    let made := (start side).network.waiting sender ++
      collect (Pair.step configs links) (Pair.makes side sender) start after
    let both := fun topic => (configs side).forwardsTopic topic &&
      (configs side.other).forwardsTopic topic
    (routedBy sender base (last side).written <+:
        forwarded (configs side).forwardsTopic base made ∧
      ((last side).Drained (links side) sender → routedBy sender base (last side).written =
        forwarded (configs side).forwardsTopic base made)) ∧
    (routedBy sender base (last side.other).crossed <+: forwarded both base made ∧
      ((last side).Drained (links side) sender → (last side.other).Emptied (last side) →
        routedBy sender base (last side.other).crossed = forwarded both base made)) ∧
    ((last side.other).network.routed (links side.other) ++
        (last side.other).network.waiting (links side.other) =
          (last side.other).crossed.map Prod.fst ∧
      ∀ entry ∈ (last side.other).crossed, entry.1.msg = some .publish) ∧
    (∀ entry ∈ (last side.other).written, ∀ number,
      entry.2 ≠ some (links side.other, number)) ∧
    ∀ client, client ≠ links side.other →
      (start side.other).network.daemon.Settled client →
      (∀ action ∈ after, action.Keeps side.other client) →
      let wanted := fun topic => both topic && decide
        (client ∈ (start side.other).network.daemon.broker.tables.targets topic)
      (last side.other).arrivals (links side.other) sender base client <+:
          forwarded wanted base made ∧
        ((last side).Drained (links side) sender → (last side.other).Emptied (last side) →
          (last side.other).Served (links side.other) client →
          (last side.other).arrivals (links side.other) sender base client =
            forwarded wanted base made) := by
  intro start last base made both
  have keeps : ∀ action ∈ after, action.KeepsLinks links := fun action member =>
    joined action (List.mem_append_right _ member)
  have sound : start.Sound configs links :=
    run_invariant_of_meets Pair.Sound.step before _ (.initial configs links)
      (Meets.of_admitted fun action member => joined action (List.mem_append_left _ member))
  have origin := Pair.Carries.refl sound started settled side sender
  have carries := origin.reach foreign keeps
  rw [List.nil_append] at carries
  have queue := origin.publishes_run foreign keeps
  have part (admits : Bytes → Bool) : forwarded admits base
      (collect (Pair.step configs links) (Pair.begun side sender) start after) <+:
        forwarded admits base made := by
    rw [show made = _ from queue]
    exact forwarded_prefix ..
  have whole (drained : (last side).Drained (links side) sender) :
      made = collect (Pair.step configs links) (Pair.begun side sender) start after := by
    refine (show made = _ from queue).trans ?_
    rw [drained.waiting, List.append_nil]
  obtain ⟨writtenPart, writtenWhole⟩ := carries.written sound (started side) (settled side)
  obtain ⟨crossedPart, crossedWhole⟩ := carries.crossed sound (started side) (settled side)
  have device := carries.sound.device side.other
  refine ⟨⟨writtenPart.trans (part _), ?_⟩, ⟨crossedPart.trans (part _), ?_⟩,
    ⟨device.published, device.plain⟩, fun entry member number => device.silent member number, ?_⟩
  · intro drained
    rw [whole drained]
    exact writtenWhole drained
  · intro drained emptied
    rw [whole drained]
    exact crossedWhole drained emptied
  · intro client different subscribed kept wanted
    obtain ⟨publishes, follows⟩ := Pair.step_follows different keeps kept sound
      (started side.other)
      (.refl (fun _ _ => true) (sound.device side.other).marked
        (network_settled (sound.device side.other).nodes subscribed) (links side.other))
    obtain ⟨servedPart, servedWhole⟩ :=
      carries.served sound (started side) (settled side) follows
    refine ⟨servedPart.trans (part wanted), ?_⟩
    intro drained emptied served
    rw [whole drained]
    exact servedWhole drained emptied served

/-- Both patterns of each link match the topic. -/
def smallCrossingConfig : Side → LinkConfig := fun _ => ⟨[[97], [43]], [], false, [], 0⟩

/-- The links are the clients `0`, and the client `2` of the other device subscribes. -/
def smallCrossingSetup : List (PairAction Nat) :=
  [.daemon .a (.connect 1), .daemon .b (.connect 2), .start .a, .start .b,
    .daemon .a (.thread 0 0 [] 0 0), .daemon .a (.thread 0 0 [] 0 0),
    .daemon .a (.thread 0 0 [] 0 0), .daemon .b (.thread 0 0 [] 0 0),
    .daemon .b (.thread 0 0 [] 0 0), .daemon .b (.thread 0 0 [] 0 0),
    .daemon .b (.arrive 2 (Msg.subscribe.frame [97] [])), .daemon .b (.thread 2 0 [] 0 0),
    .daemon .b (.thread 2 0 [] 0 0)]

/-- The client `1` publishes, and the publish crosses. -/
def smallCrossing : List (PairAction Nat) :=
  [.daemon .a (.arrive 1 (Msg.publish.frame [97] [7])), .daemon .a (.thread 1 0 [] 0 0),
    .daemon .a (.thread 1 0 [] 0 0), .localRead .a, .localSend .a, .peerRead .b, .peerRead .b,
    .peerSend .b, .daemon .b (.thread 0 2 [] 0 0), .daemon .b (.thread 0 2 [] 0 0)]

/-- The two devices with the links in place. -/
def smallCrossingStart : Pair Nat :=
  run (Pair.step smallCrossingConfig fun _ => 0) (.initial smallCrossingConfig) smallCrossingSetup

/-- The two devices after the publish. -/
def smallCrossingLast : Pair Nat :=
  run (Pair.step smallCrossingConfig fun _ => 0) smallCrossingStart smallCrossing

theorem publish_crosses_once_small :
    (smallCrossingLast .b).arrivals 0 1 ((smallCrossingStart .a).network.routed 1).length 2 =
      [(Msg.publish.frame [97] [7], 1)] := by
  have settled : ∀ side, (smallCrossingStart side).network.daemon.Settled 0 := by
    intro side
    cases side with
    | a => exact ⟨⟨by decide +kernel, True.intro⟩, by decide +kernel⟩
    | b => exact ⟨⟨by decide +kernel, True.intro⟩, by decide +kernel⟩
  have subscribed : (smallCrossingStart .b).network.daemon.Settled 2 :=
    ⟨⟨by decide +kernel, True.intro⟩, by decide +kernel⟩
  have started : ∀ side, (smallCrossingStart side).started = true := by
    intro side
    cases side with
    | a => decide +kernel
    | b => decide +kernel
  obtain ⟨-, -, -, -, arrives⟩ := publish_crosses_once smallCrossingConfig (fun _ => 0)
    smallCrossingSetup smallCrossing .a (by decide : (1 : Nat) ≠ 0) (by decide) started settled
  obtain ⟨-, whole⟩ := arrives 2 (by decide) subscribed (by decide)
  refine (whole ?_ ?_ ?_).trans ?_
  · exact ⟨by decide +kernel, by decide +kernel, by decide +kernel, by decide +kernel⟩
  · exact ⟨by decide +kernel, by decide +kernel⟩
  · exact ⟨by decide +kernel, by decide +kernel⟩
  · decide +kernel

end Chappe
