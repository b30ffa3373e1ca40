/-
This file proves what holds of two devices and their links in every run in which the links stay
connected to their daemons.
-/

import Chappe.Proof.Link.LinkFrames
import Chappe.Proof.Link.Subscribing
import Chappe.Proof.Network.Delivery

namespace Chappe
open Foundation

variable {Client : Type}

/-- The links stay connected to their daemons. -/
def PairAction.KeepsLinks (me : Side → Client) : PairAction Client → Prop
  | .daemon side (.hangUp client) => client ≠ me side
  | _ => True

instance PairAction.KeepsLinks.decidable [DecidableEq Client] (me : Side → Client) :
    ∀ action : PairAction Client, Decidable (action.KeepsLinks me)
  | .daemon side (.hangUp client) => inferInstanceAs (Decidable (client ≠ me side))
  | .daemon _ (.connect _) | .daemon _ (.arrive _ _) | .daemon _ (.thread _ _ _ _ _)
  | .daemon _ (.sweep _ _) | .start _ | .localRead _ | .localSend _ | .peerRead _
  | .peerSend _ => .isTrue True.intro

/-- What the peer loop has read of the other device. -/
structure Outpost.Reads (near far : Outpost Client) : Prop where
  marks : ∀ mark ∈ near.peerMark :: near.crossed.map Prod.snd,
    mark ∈ none :: far.written.map Prod.snd
  read : near.read ≤ far.written.length

theorem Outpost.Reads.mono {near far next : Outpost Client} (reads : near.Reads far)
    (grows : far.written <+: next.written) : near.Reads next := by
  refine ⟨?_, reads.read.trans grows.length_le⟩
  intro mark member
  rcases List.mem_cons.mp (reads.marks mark member) with rfl | before
  · exact List.mem_cons_self
  · exact List.mem_cons_of_mem _ ((grows.map Prod.snd).subset before)

variable [DecidableEq Client] {config : LinkConfig} {me : Client} {outpost : Outpost Client}
  {network : Network Client Unit}

omit [DecidableEq Client] in
theorem localSend_written (outpost : Outpost Client) :
    outpost.written <+: outpost.localSend.written := by
  unfold Outpost.localSend
  split
  · exact List.prefix_append _ _
  · exact List.prefix_refl _

theorem daemonStep_loops (me : Client) (outpost : Outpost Client) (action : DaemonAction Client) :
    ∃ network, outpost.daemonStep me action = { outpost with network := network } := by
  unfold Outpost.daemonStep
  split
  · split <;> exact ⟨_, rfl⟩
  · split <;> exact ⟨_, rfl⟩

theorem start_loops (config : LinkConfig) (me : Client) (outpost : Outpost Client) :
    ∃ started network, outpost.start config me =
      { outpost with started := started, network := network } := by
  unfold Outpost.start
  split <;> exact ⟨_, _, rfl⟩

omit [DecidableEq Client] in
theorem localRead_loops (config : LinkConfig) (me : Client) (outpost : Outpost Client) :
    ∃ link taken mark, outpost.localRead config me =
        { outpost with link := link, taken := taken, localMark := mark } ∧
      link.peerPending = outpost.link.peerPending := by
  unfold Outpost.localRead
  split
  · split
    · exact ⟨_, _, _, rfl, (localRead_kept ..).1⟩
    · exact ⟨_, _, _, rfl, rfl⟩
  · exact ⟨_, _, _, rfl, rfl⟩

omit [DecidableEq Client] in
theorem peerRead_loops (config : LinkConfig) (outpost far : Outpost Client) :
    ∃ link read mark, outpost.peerRead config far =
        { outpost with link := link, read := read, peerMark := mark } ∧
      link.localPending = outpost.link.localPending := by
  unfold Outpost.peerRead
  split
  · split
    · exact ⟨_, _, _, rfl, (peerFrame_sides ..).2.1⟩
    · exact ⟨_, _, _, rfl, rfl⟩
  · exact ⟨_, _, _, rfl, rfl⟩

theorem peerSend_loops (me : Client) (outpost : Outpost Client) :
    ∃ link network crossed, outpost.peerSend me =
        { outpost with link := link, network := network, crossed := crossed } ∧
      link.localPending = outpost.link.localPending := by
  unfold Outpost.peerSend
  split <;> exact ⟨_, _, _, rfl, rfl⟩

/-- What the daemon and the link of one device hold. -/
structure Outpost.Sound (config : LinkConfig) (me : Client) (outpost : Outpost Client) : Prop where
  marked : outpost.network.Marked
  nodes : outpost.network.node = (.initial : Network Client Unit).node
  absent : outpost.started = false → outpost.network.daemon.life me = .absent
  subscribes : outpost.network.daemon.Subscribes me (if outpost.started then config.topics else [])
  opened : ∃ rest, outpost.written = (config.hello, none) :: rest
  vetted : 0 < outpost.read → outpost.link.alive = true → outpost.link.vetted = true
  waits : ∀ frame ∈ outpost.link.peerPending, frame.isSubscription = false ∧
    (frame.isPublish = true → frame.msg = some .publish)
  marks : ∀ mark ∈ outpost.localMark :: outpost.written.map Prod.snd,
    mark ∈ none :: (outpost.network.wire me).map Prod.snd
  taken : outpost.taken ≤ (outpost.network.wire me).length
  published : outpost.network.routed me ++ outpost.network.waiting me =
    outpost.crossed.map Prod.fst
  plain : ∀ entry ∈ outpost.crossed, entry.1.msg = some .publish

theorem Outpost.Sound.initial (config : LinkConfig) (me : Client) :
    (Outpost.initial config : Outpost Client).Sound config me where
  marked := .initial
  nodes := rfl
  absent := fun _ => rfl
  subscribes := .initial me
  opened := ⟨[], rfl⟩
  vetted := by simp [Outpost.initial]
  waits := by simp [Outpost.initial, Link.start]
  marks := by simp [Outpost.initial]
  taken := Nat.zero_le _
  published := rfl
  plain := by simp [Outpost.initial]

/-- The daemon goes on, and the link of the device rests. -/
theorem Outpost.Sound.serve (sound : outpost.Sound config me) {next : Network Client Unit}
    {started : Bool} (marked : next.Marked) (nodes : next.node = outpost.network.node)
    (absent : started = false → next.daemon.life me = .absent)
    (subscribes : next.daemon.Subscribes me (if started then config.topics else []))
    (wire : outpost.network.wire me <+: next.wire me)
    (published : next.routed me ++ next.waiting me =
      outpost.network.routed me ++ outpost.network.waiting me) :
    ({ outpost with started := started, network := next } : Outpost Client).Sound config me where
  marked := marked
  nodes := nodes.trans sound.nodes
  absent := absent
  subscribes := subscribes
  opened := sound.opened
  vetted := sound.vetted
  waits := sound.waits
  marks := by
    intro mark member
    rcases List.mem_cons.mp (sound.marks mark member) with rfl | before
    · exact List.mem_cons_self
    · exact List.mem_cons_of_mem _ ((wire.map Prod.snd).subset before)
  taken := sound.taken.trans wire.length_le
  published := published.trans sound.published
  plain := sound.plain

theorem absent_step {daemon : Daemon Client} {client : Client}
    (absent : daemon.life client = .absent) {action : DaemonAction Client}
    (foreign : action.isOf client = false) : (daemon.step action).life client = .absent := by
  cases action with
  | connect actor =>
      have different : client ≠ actor := by
        rintro rfl
        simp [DaemonAction.isOf] at foreign
      simp only [Daemon.step]
      split
      · exact (Function.update_of_ne different ..).trans absent
      · exact absent
  | arrive actor frame => exact absent
  | thread actor target order now later =>
      simp only [Daemon.step]
      by_cases mine : client = actor
      · subst actor
        unfold Daemon.threadStep
        rw [absent]
        exact absent
      · exact (threadStep_other mine daemon target order now later).life.trans absent
  | hangUp actor =>
      simp only [Daemon.step]
      split
      · rename_i serving _
        have different : client ≠ actor := by
          rintro rfl
          rw [absent] at serving
          cases serving
        exact (Function.update_of_ne different ..).trans absent
      · exact absent
  | sweep order read => exact absent

theorem write_life (network : Network Client Unit) (actor : Client) (frame : Frame) :
    (network.write actor frame).daemon.life = network.daemon.life := by
  unfold Network.write
  split <;> rfl

theorem write_wire (network : Network Client Unit) (actor : Client) (frame : Frame) :
    (network.write actor frame).wire = network.wire := by
  unfold Network.write
  split <;> rfl

theorem write_node (network : Network Client Unit) (actor : Client) (frame : Frame) :
    (network.write actor frame).node = network.node := by
  unfold Network.write
  split <;> rfl

theorem write_subscribes {names : List Bytes}
    (subscribes : network.daemon.Subscribes me names) {actor : Client} {frame : Frame}
    (other : actor = me → frame.isSubscription = false) :
    (network.write actor frame).daemon.Subscribes me names := by
  unfold Network.write
  split
  · have stays : DaemonAction.arrive actor frame ≠ .hangUp me := by simp
    refine subscribes.step stays ?_
    rintro arrived ⟨⟩
    exact other rfl
  · exact subscribes

/-- A frame that is not a publish of the client leaves the queue of its publishes. -/
theorem write_published {client actor : Client} {frame : Frame}
    (other : actor = client → frame.isPublish = false) :
    (network.write actor frame).routed client ++ (network.write actor frame).waiting client =
      network.routed client ++ network.waiting client := by
  rw [write_routed, write_waiting, if_neg, List.append_nil]
  rintro ⟨same, -, publish⟩
  rw [other same] at publish
  cases publish

/-- The publishes of a client that a step of the daemon takes leave its queue. -/
theorem daemonStep_published (network : Network Client Unit) {client : Client}
    {action : DaemonAction Client} (silent : ∀ frame, action ≠ .arrive client frame) :
    (network.daemonStep action).routed client ++ (network.daemonStep action).waiting client =
      network.routed client ++ network.waiting client := by
  have taken := daemon_inbox network.daemon client silent
  dsimp only [Network.daemonStep, Network.waiting]
  rw [List.append_assoc, taken]

theorem daemonStep_grows (network : Network Client Unit) (action : DaemonAction Client)
    (client : Client) : network.wire client <+: (network.daemonStep action).wire client := by
  obtain ⟨extra, sent⟩ := daemon_extends network.daemon action client
  rw [daemonStep_wire network action sent]
  exact List.prefix_append _ _

theorem Outpost.Sound.daemonStep (sound : outpost.Sound config me) {action : DaemonAction Client}
    (stays : action ≠ .hangUp me) : (outpost.daemonStep me action).Sound config me := by
  have moved (foreign : action.isOf me = false) (silent : ∀ frame, action ≠ .arrive me frame) :
      ({ outpost with network := outpost.network.daemonStep action } : Outpost Client).Sound config
        me := by
    refine sound.serve (sound.marked.daemonStep action) rfl
      (fun unstarted => absent_step (sound.absent unstarted) foreign) ?_
      (daemonStep_grows _ action me) (daemonStep_published _ silent)
    exact sound.subscribes.step stays fun frame arrive => absurd arrive (silent frame)
  cases action with
  | arrive actor frame =>
      simp only [Outpost.daemonStep]
      split
      · exact sound
      · rename_i different
        refine sound.serve (sound.marked.write actor frame) (write_node ..) ?_ ?_ ?_ ?_
        · rw [write_life]
          exact sound.absent
        · exact write_subscribes sound.subscribes fun same => absurd same different
        · rw [write_wire]
        · exact write_published fun same => absurd same different
  | connect actor =>
      simp only [Outpost.daemonStep]
      split
      · exact sound
      · rename_i foreign
        exact moved (Bool.eq_false_of_not_eq_true foreign) (by simp)
  | thread actor target order now later => exact moved rfl (by simp)
  | hangUp actor => exact moved rfl (by simp)
  | sweep order read => exact moved rfl (by simp)

/-- What every write of the client keeps holds after its writes. -/
theorem writes_keep (property : Network Client Unit → Prop) {frames : List Frame}
    (keep : ∀ network, property network → ∀ frame ∈ frames, property (network.write me frame))
    (held : property network) : property (frames.foldl (·.write me ·) network) :=
  List.foldlRecOn frames _ held keep

/-- The client asks for its names one after the other. -/
theorem ask_subscribes (topics : List Bytes) {names : List Bytes}
    (connected : (network.daemon.life me).connected = true)
    (subscribes : network.daemon.Subscribes me names) :
    ((topics.map fun topic => Msg.subscribe.frame topic []).foldl (·.write me ·)
      network).daemon.Subscribes me (names ++ topics) := by
  induction topics generalizing names network with
  | nil =>
      rw [List.append_nil]
      exact subscribes
  | cons topic rest ih =>
      rw [List.map_cons, List.foldl_cons, List.append_cons]
      apply ih
      · rw [write_life]
        exact connected
      · unfold Network.write
        rw [if_pos connected]
        exact subscribes.ask topic

theorem startup_quiet {frame : Frame} (member : frame ∈ config.startup) :
    frame.isPublish = false := by
  rcases List.mem_append.mp member with topic | key
  · obtain ⟨name, -, rfl⟩ := List.mem_map.mp topic
    simp [Frame.isPublish]
  · obtain ⟨entry, -, rfl⟩ := List.mem_map.mp key
    simp [Frame.isPublish]

/-- The constructor asks for every topic of the configuration. -/
theorem startup_subscribes (connected : (network.daemon.life me).connected = true)
    (subscribes : network.daemon.Subscribes me []) :
    (config.startup.foldl (·.write me ·) network).daemon.Subscribes me config.topics := by
  rw [LinkConfig.startup, List.foldl_append]
  have asked := ask_subscribes config.topics connected subscribes
  refine writes_keep (fun network => network.daemon.Subscribes me config.topics) ?_ asked
  intro network held frame member
  obtain ⟨entry, -, rfl⟩ := List.mem_map.mp member
  exact write_subscribes held fun _ => by simp [Frame.isSubscription]

theorem Outpost.Sound.start (sound : outpost.Sound config me) :
    (outpost.start config me).Sound config me := by
  unfold Outpost.start
  split
  · exact sound
  · rename_i unstarted
    have absent := sound.absent (Bool.eq_false_of_not_eq_true unstarted)
    have asked := sound.subscribes
    rw [if_neg unstarted] at asked
    have connected :
        ((outpost.network.daemonStep (.connect me)).daemon.life me).connected = true := by
      simp only [Network.daemonStep, Daemon.step, absent, Daemon.become, Function.update_self]
      rfl
    have subscribes : (outpost.network.daemonStep (.connect me)).daemon.Subscribes me [] := by
      have stays : DaemonAction.connect me ≠ .hangUp me := by simp
      exact asked.step stays (by simp)
    have silent : ∀ frame, DaemonAction.connect me ≠ .arrive me frame := by simp
    have published := daemonStep_published outpost.network silent
    refine sound.serve ?_ ?_ (by simp) (startup_subscribes connected subscribes) ?_ ?_
    · exact writes_keep Network.Marked (fun _ marked frame _ => marked.write me frame)
        (sound.marked.daemonStep _)
    · refine writes_keep (fun network => network.node = outpost.network.node) ?_ rfl
      exact fun network same frame _ => (write_node network me frame).trans same
    · refine writes_keep (fun network => outpost.network.wire me <+: network.wire me) ?_
        (daemonStep_grows _ _ me)
      intro network grows frame _
      rwa [write_wire]
    · refine writes_keep (fun network => network.routed me ++ network.waiting me =
        outpost.network.routed me ++ outpost.network.waiting me) ?_ published
      intro network same frame member
      exact (write_published fun _ => startup_quiet member).trans same

theorem Outpost.Sound.localRead (sound : outpost.Sound config me) :
    (outpost.localRead config me).Sound config me := by
  unfold Outpost.localRead
  split
  · rename_i frame mark _ _ arrived
    split
    · obtain ⟨pending, alive, -, -, vetted⟩ :=
        localRead_kept config { outpost.link with fromDaemon := [(false, frame)] }
      refine ⟨sound.marked, sound.nodes, sound.absent, sound.subscribes, sound.opened, ?_, ?_, ?_,
        ?_, sound.published, sound.plain⟩
      · intro read up
        exact vetted.trans (sound.vetted read (alive up))
      · dsimp only
        rw [pending]
        exact sound.waits
      · intro found member
        rcases List.mem_cons.mp member with rfl | before
        · exact List.mem_cons_of_mem _ (List.mem_map.mpr ⟨_, List.mem_of_getElem? arrived, rfl⟩)
        · exact sound.marks found (List.mem_cons_of_mem _ before)
      · exact (List.getElem?_eq_some_iff.mp arrived).1
    · exact ⟨sound.marked, sound.nodes, sound.absent, sound.subscribes, sound.opened, by simp,
        sound.waits, sound.marks, sound.taken, sound.published, sound.plain⟩
  · exact sound

theorem Outpost.Sound.localSend (sound : outpost.Sound config me) :
    outpost.localSend.Sound config me := by
  unfold Outpost.localSend
  split
  · rename_i frame pending alive
    obtain ⟨unread, live, -, vetted⟩ := localSend_kept outpost.link
    refine ⟨sound.marked, sound.nodes, sound.absent, sound.subscribes, ?_, ?_, ?_, ?_, sound.taken,
      sound.published, sound.plain⟩
    · obtain ⟨rest, opened⟩ := sound.opened
      exact ⟨rest ++ [(frame, outpost.localMark)], by rw [opened, List.cons_append]⟩
    · dsimp only
      rw [live, vetted]
      exact sound.vetted
    · dsimp only
      rw [unread]
      exact sound.waits
    · intro mark member
      apply sound.marks mark
      simp only [List.map_append, List.map_cons, List.map_nil, List.mem_cons, List.mem_append,
        List.not_mem_nil, or_false] at member ⊢
      tauto
  · exact sound

/-- The first frame of the peer vets it, or the link stops. -/
theorem peerFrame_alive (config : LinkConfig) (link : Link) (frame : Frame)
    (alive : (link.peerFrame config frame).alive = true) :
    (link.peerFrame config frame).vetted = true := by
  unfold Link.peerFrame at alive ⊢
  split
  · rename_i unvetted
    rw [if_pos unvetted] at alive
    split
    · rfl
    · rename_i refused
      rw [refused] at alive
      cases alive
  · rename_i vetted
    have held : link.vetted = true := Bool.eq_true_of_not_eq_false vetted
    split
    · split <;> exact held
    · split
      · split <;> exact held
      · exact held

theorem Outpost.Sound.peerRead (sound : outpost.Sound config me) (far : Outpost Client) :
    (outpost.peerRead config far).Sound config me := by
  unfold Outpost.peerRead
  split
  · rename_i frame mark rested _ _
    split
    · refine ⟨sound.marked, sound.nodes, sound.absent, sound.subscribes, sound.opened, ?_, ?_,
        sound.marks, sound.taken, sound.published, sound.plain⟩
      · exact fun _ => peerFrame_alive config outpost.link frame
      · intro write member
        rcases peerFrame_pending member with before | ⟨name, payload, rfl⟩ | ⟨change, -, rfl⟩
        · rw [rested] at before
          cases before
        · simp [Frame.isSubscription]
        · cases change <;> simp [Change.frame, Frame.isSubscription, Frame.isPublish]
    · exact ⟨sound.marked, sound.nodes, sound.absent, sound.subscribes, sound.opened, by simp,
        sound.waits, sound.marks, sound.taken, sound.published, sound.plain⟩
  · exact sound

theorem Outpost.Sound.peerSend (sound : outpost.Sound config me) :
    (outpost.peerSend me).Sound config me := by
  unfold Outpost.peerSend
  split
  · rename_i frame pending
    obtain ⟨subscription, publish⟩ := sound.waits frame pending
    refine ⟨sound.marked.write me frame, (write_node ..).trans sound.nodes, ?_, ?_, sound.opened,
      sound.vetted, by simp, ?_, ?_, ?_, ?_⟩
    · dsimp only
      rw [write_life]
      exact sound.absent
    · exact write_subscribes sound.subscribes fun _ => subscription
    · dsimp only
      rw [write_wire]
      exact sound.marks
    · dsimp only
      rw [write_wire]
      exact sound.taken
    · dsimp only
      rw [write_routed, write_waiting, ← List.append_assoc, sound.published]
      by_cases new : frame.isPublish = true ∧ (outpost.network.daemon.life me).connected = true
      · rw [if_pos ⟨rfl, new.2, new.1⟩, new.1, new.2]
        simp
      · rw [if_neg fun both => new ⟨both.2.2, both.2.1⟩, List.append_nil]
        rw [if_neg]
        rwa [Bool.and_eq_true]
    · intro entry member
      dsimp only at member
      split at member
      · rename_i new
        rcases List.mem_append.mp member with before | last
        · exact sound.plain entry before
        · rw [List.mem_singleton.mp last]
          exact publish (Bool.and_eq_true_iff.mp new).1
      · exact sound.plain entry member
  · exact sound

/-- What holds of both devices in every run. -/
structure Pair.Sound (config : Side → LinkConfig) (me : Side → Client) (pair : Pair Client) :
    Prop where
  device : ∀ side, (pair side).Sound (config side) (me side)
  reads : ∀ side, (pair side).Reads (pair side.other)

variable {configs : Side → LinkConfig} {links : Side → Client} {pair : Pair Client}

theorem Pair.Sound.initial (configs : Side → LinkConfig) (links : Side → Client) :
    (Pair.initial configs : Pair Client).Sound configs links where
  device := fun side => .initial (configs side) (links side)
  reads := fun _ => ⟨by simp [Pair.initial, Outpost.initial], Nat.zero_le _⟩

/-- The device makes the step, or it rests. -/
theorem Pair.step_device (property : Outpost Client → Prop) (pair : Pair Client)
    (action : PairAction Client) (side : Side) (rests : property (pair side))
    (daemon : ∀ inner, action = .daemon side inner →
      property ((pair side).daemonStep (links side) inner))
    (start : property ((pair side).start (configs side) (links side)))
    (localRead : property ((pair side).localRead (configs side) (links side)))
    (localSend : property (pair side).localSend)
    (peerRead : property ((pair side).peerRead (configs side) (pair side.other)))
    (peerSend : property ((pair side).peerSend (links side))) :
    property ((pair.step configs links action) side) := by
  have moved {place : Side} {next : Outpost Client} (here : side = place → property next) :
      property (Function.update pair place next side) := by
    by_cases same : side = place
    · have held := here same
      subst place
      rwa [Function.update_self]
    · rwa [Function.update_of_ne same]
  cases action with
  | daemon place inner =>
      apply moved
      rintro rfl
      exact daemon inner rfl
  | start place =>
      apply moved
      rintro rfl
      exact start
  | localRead place =>
      apply moved
      rintro rfl
      exact localRead
  | localSend place =>
      apply moved
      rintro rfl
      exact localSend
  | peerRead place =>
      apply moved
      rintro rfl
      exact peerRead
  | peerSend place =>
      apply moved
      rintro rfl
      exact peerSend

/-- What a link has written to its peer stays written. -/
theorem step_written (configs : Side → LinkConfig) (links : Side → Client) (pair : Pair Client)
    (action : PairAction Client) (side : Side) :
    (pair side).written <+: ((pair.step configs links action) side).written := by
  apply Pair.step_device (fun next => (pair side).written <+: next.written)
  · exact List.prefix_refl _
  · intro inner _
    obtain ⟨_, same⟩ := daemonStep_loops (links side) (pair side) inner
    exact same ▸ List.prefix_refl _
  · obtain ⟨_, _, same⟩ := start_loops (configs side) (links side) (pair side)
    exact same ▸ List.prefix_refl _
  · obtain ⟨_, _, _, same, -⟩ := localRead_loops (configs side) (links side) (pair side)
    exact same ▸ List.prefix_refl _
  · exact localSend_written _
  · obtain ⟨_, _, _, same, -⟩ := peerRead_loops (configs side) (pair side) (pair side.other)
    exact same ▸ List.prefix_refl _
  · obtain ⟨_, _, _, same, -⟩ := peerSend_loops (links side) (pair side)
    exact same ▸ List.prefix_refl _

theorem Pair.Sound.step_device (pair : Pair Client) (action : PairAction Client)
    (sound : pair.Sound configs links) (keeps : action.KeepsLinks links) (side : Side) :
    ((pair.step configs links action) side).Sound (configs side) (links side) := by
  have device := sound.device side
  apply Pair.step_device (Outpost.Sound (configs side) (links side))
  · exact device
  · rintro inner rfl
    apply device.daemonStep
    rintro rfl
    exact keeps rfl
  · exact device.start
  · exact device.localRead
  · exact device.localSend
  · exact device.peerRead _
  · exact device.peerSend

theorem Pair.Sound.step_reads (pair : Pair Client) (action : PairAction Client)
    (sound : pair.Sound configs links) (side : Side) :
    ((pair.step configs links action) side).Reads (pair side.other) := by
  have reads := sound.reads side
  apply Pair.step_device (fun next => next.Reads (pair side.other))
  · exact reads
  · intro inner _
    obtain ⟨_, same⟩ := daemonStep_loops (links side) (pair side) inner
    exact same ▸ ⟨reads.marks, reads.read⟩
  · obtain ⟨_, _, same⟩ := start_loops (configs side) (links side) (pair side)
    exact same ▸ ⟨reads.marks, reads.read⟩
  · obtain ⟨_, _, _, same, -⟩ := localRead_loops (configs side) (links side) (pair side)
    exact same ▸ ⟨reads.marks, reads.read⟩
  · unfold Outpost.localSend
    split
    · exact ⟨reads.marks, reads.read⟩
    · exact reads
  · unfold Outpost.peerRead
    split
    · rename_i frame mark _ _ arrived
      split
      · refine ⟨?_, (List.getElem?_eq_some_iff.mp arrived).1⟩
        intro found member
        rcases List.mem_cons.mp member with rfl | before
        · exact List.mem_cons_of_mem _ (List.mem_map.mpr ⟨_, List.mem_of_getElem? arrived, rfl⟩)
        · exact reads.marks found (List.mem_cons_of_mem _ before)
      · exact ⟨reads.marks, reads.read⟩
    · exact reads
  · unfold Outpost.peerSend
    split
    · refine ⟨?_, reads.read⟩
      intro mark member
      apply reads.marks mark
      dsimp only at member
      split at member
      · simp only [List.map_append, List.map_cons, List.map_nil, List.mem_cons,
          List.mem_append, List.not_mem_nil, or_false] at member ⊢
        tauto
      · exact member
    · exact reads

theorem Pair.Sound.step (pair : Pair Client) (action : PairAction Client)
    (sound : pair.Sound configs links) (keeps : action.KeepsLinks links) :
    (pair.step configs links action).Sound configs links where
  device := sound.step_device pair action keeps
  reads := fun side => (sound.step_reads pair action side).mono
    (step_written configs links pair action side.other)

end Chappe
