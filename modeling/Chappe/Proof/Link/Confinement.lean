/-
This file proves that nothing outside the configuration of a link crosses it.
-/

import Chappe.Proof.Daemon.Indices
import Chappe.Proof.Kv.Outboxes
import Chappe.Proof.Link.LinkFrames
import Chappe.Proof.Link.PeerStream

namespace Chappe
open Foundation

variable {Client : Type} {allowed : Bytes → Prop} {me : Client}

/-- The client has asked only for allowed keys, and has been told only about these. -/
structure Daemon.Confined (allowed : Bytes → Prop) (me : Client) (daemon : Daemon Client) :
    Prop where
  asks : ∀ frame ∈ daemon.broker.inbox me, ∀ key, frame.Gets key → allowed key
  watches : ∀ key, daemon.store.Watches me key → allowed key
  told : ∀ frame ∈ daemon.broker.sent me, ∀ change, frame.pushed = some change →
    allowed change.key

theorem Daemon.Confined.initial : (Daemon.initial : Daemon Client).Confined allowed me :=
  ⟨by simp [Daemon.initial], by simp [Daemon.initial, Store.empty, Store.Watches],
    by simp [Daemon.initial]⟩

variable {daemon : Daemon Client}

/-- A step that takes no new question of the client and tells it of no change. -/
theorem Daemon.Confined.of_same (confined : daemon.Confined allowed me) {changed : Daemon Client}
    (inbox : ∀ frame ∈ changed.broker.inbox me, frame ∈ daemon.broker.inbox me)
    (watches : ∀ key, changed.store.Watches me key → daemon.store.Watches me key)
    (sent : ∀ frame ∈ changed.broker.sent me,
      frame ∈ daemon.broker.sent me ∨ frame.pushed = none) :
    changed.Confined allowed me := by
  refine ⟨fun frame member => confined.asks frame (inbox frame member),
    fun key watched => confined.watches key (watches key watched), ?_⟩
  intro frame member change pushed
  rcases sent frame member with before | silent
  · exact confined.told frame before change pushed
  · rw [silent] at pushed
    cases pushed

theorem mem_deliver {outbox : Outbox Client} {client : Client} {frame : Frame}
    (member : frame ∈ (daemon.deliver outbox).broker.sent client) :
    frame ∈ daemon.broker.sent client ∨ frame ∈ outbox client := by
  simp only [Daemon.deliver] at member
  split at member
  · exact List.mem_append.mp member
  · exact .inl member

theorem Daemon.Confined.deliver (confined : daemon.Confined allowed me) (store : Store Client)
    (watches : ∀ key, store.Watches me key → allowed key) {outbox : Outbox Client}
    (told : ∀ frame ∈ outbox me, ∀ change, frame.pushed = some change → allowed change.key) :
    ({ daemon with store := store }.deliver outbox).Confined allowed me := by
  refine ⟨confined.asks, watches, ?_⟩
  intro frame member
  rcases mem_deliver member with before | fresh
  · exact confined.told frame before
  · exact told frame fresh

theorem Daemon.Confined.become (confined : daemon.Confined allowed me) (client : Client)
    [DecidableEq Client] (life : Life) : (daemon.become client life).Confined allowed me :=
  ⟨confined.asks, confined.watches, confined.told⟩

/-- A pushed frame reports a change of the watched key. -/
theorem Pushed.key {store : Store Client} {key : Bytes} {client : Client} {frame : Frame}
    (pushed : Pushed store key client frame) {change : Change}
    (told : frame.pushed = some change) : change.key = key ∧ store.Watches client key := by
  refine ⟨(pushed_key told).trans ?_, pushed.1⟩
  rcases pushed.2 with ⟨value, rfl⟩ | rfl
  · rfl
  · rfl

variable [DecidableEq Client]

/-- The store answers and pushes within what the client asked for. -/
theorem Daemon.Confined.handleKv (confined : daemon.Confined allowed me) {client : Client}
    {frame : Frame} (asks : client = me → ∀ key, frame.Gets key → allowed key)
    (now later : Nat) :
    ({ daemon with store := (daemon.store.handleFrame now later client frame).1 }.deliver
      (daemon.store.handleFrame now later client frame).2).Confined allowed me := by
  apply confined.deliver (daemon.store.handleFrame now later client frame).1
  · intro key watched
    rcases handleFrame_watches watched with before | ⟨mine, gets⟩
    · exact confined.watches key before
    · exact asks mine.symm key gets
  · intro sent member change told
    rcases handleFrame_frames member with pushed | ⟨mine, request, read, id, -, answer⟩
    · obtain ⟨about, watched⟩ := pushed.key told
      exact about ▸ confined.watches frame.name watched
    · rcases answer with ⟨found, rfl, rfl⟩ | ⟨ok, value, rfl⟩
      · rw [pushed_key told]
        exact asks mine.symm frame.name ⟨rfl, id, read⟩
      · rw [pushed_kvResult] at told
        cases told

theorem Daemon.Confined.handleFrame (confined : daemon.Confined allowed me) {client : Client}
    {frame : Frame} (asks : client = me → ∀ key, frame.Gets key → allowed key)
    (now later : Nat) : (daemon.handleFrame client frame now later).Confined allowed me := by
  have begun :
      ({ daemon with broker := daemon.broker.begin client frame }).Confined allowed me := by
    have same : (daemon.broker.begin client frame).inbox = daemon.broker.inbox ∧
        (daemon.broker.begin client frame).sent = daemon.broker.sent := by
      unfold Broker.begin
      split <;> exact ⟨rfl, rfl⟩
    refine confined.of_same ?_ (fun _ => id) ?_
    · intro sent member
      rwa [same.1] at member
    · intro sent member
      rw [same.2] at member
      exact .inl member
  unfold Daemon.handleFrame
  split
  · refine confined.deliver daemon.store confined.watches ?_
    intro sent member change told
    obtain ⟨rfl, -⟩ := mem_sendTo member
    simp [Frame.pushed] at told
  · split
    · exact confined
    · exact confined.become client _
  · exact begun
  · exact begun
  · exact begun
  · exact begun
  · exact confined.handleKv asks now later

/-- A busy thread writes publishes only. -/
theorem step_publishes {broker : Broker Client} {client : Client} (target : Client)
    (busy : broker.thread client ≠ .idle) {other : Client} {frame : Frame}
    (member : frame ∈ (broker.step (client, target)).sent other) :
    frame ∈ broker.sent other ∨ frame.msg = some .publish := by
  have sendTo {receiver : Client} {name payload : Bytes}
      (sent : frame ∈ (broker.sendTo receiver (Msg.publish.frame name payload)).sent other) :
      frame ∈ broker.sent other ∨ frame.msg = some .publish := by
    by_cases here : other = receiver
    · subst other
      simp only [Broker.sendTo, Function.update_self, List.mem_append, List.mem_singleton] at sent
      rcases sent with before | rfl
      · exact .inl before
      · exact .inr (Msg.frame_msg _ _ _)
    · simp only [Broker.sendTo, Function.update_of_ne here] at sent
      exact .inl sent
  unfold Broker.step at member
  cases place : broker.thread client with
  | idle => exact absurd place busy
  | registered topic =>
      simp only [place] at member
      split at member <;> exact .inl member
  | replaying topic value =>
      simp only [place] at member
      exact sendTo member
  | routing frame retain targets remaining =>
      simp only [place] at member
      split at member
      · exact sendTo member
      · split at member
        · split at member <;> exact .inl member
        · exact .inl member

theorem Daemon.Confined.route (confined : daemon.Confined allowed me) {client : Client}
    (target : Client) (busy : daemon.broker.thread client ≠ .idle) :
    (daemon.route (daemon.broker.step (client, target))).Confined allowed me := by
  refine confined.of_same ?_ (fun _ => id) ?_
  · intro frame member
    simp only [Daemon.route, step_inbox target busy] at member
    exact member
  · intro frame member
    simp only [Daemon.route] at member
    split at member
    · exact (step_publishes target busy member).imp_right publish_pushed
    · exact .inl member

theorem Daemon.Confined.inquire (confined : daemon.Confined allowed me) (client : Client)
    (order : List Bytes) (report : Report) (inquiry : Inquiry) :
    (daemon.inquire client order report inquiry).Confined allowed me := by
  cases inquiry with
  | clients => exact confined.become client _
  | topics =>
      simp only [Daemon.inquire]
      split
      · exact confined.become client _
      · exact confined
  | retained => exact confined.become client _
  | keys => exact confined.become client _
  | reply =>
      apply Daemon.Confined.become
      refine confined.deliver daemon.store confined.watches ?_
      intro frame member change told
      obtain ⟨rfl, -⟩ := mem_sendTo member
      simp [Frame.pushed] at told

theorem Daemon.Confined.depart (confined : daemon.Confined allowed me) (client : Client)
    (departure : Departure) : (daemon.depart client departure).Confined allowed me := by
  cases departure with
  | subs => exact ⟨confined.asks, confined.watches, confined.told⟩
  | watchers =>
      refine ⟨confined.asks, fun key watched => ?_, confined.told⟩
      exact confined.watches key ((removeClient_watches daemon.store client me key).mp watched).1
  | socket => exact confined.become client _
  | clients => exact ⟨confined.asks, confined.watches, confined.told⟩

theorem Daemon.Confined.threadStep (confined : daemon.Confined allowed me) (client target : Client)
    (order : List Bytes) (now later : Nat) :
    (daemon.threadStep client target order now later).Confined allowed me := by
  unfold Daemon.threadStep
  cases daemon.life client with
  | absent => exact confined
  | gone => exact confined
  | serving =>
      cases place : daemon.broker.thread client with
      | idle =>
          cases queue : daemon.broker.inbox client with
          | nil => exact confined
          | cons frame rest =>
              dsimp only
              apply Daemon.Confined.handleFrame
              · refine confined.of_same ?_ (fun _ => id) (fun _ => .inl)
                intro sent member
                by_cases mine : me = client
                · subst client
                  simp only [Function.update_self] at member
                  exact queue ▸ List.mem_cons_of_mem _ member
                · simpa only [Function.update_of_ne mine] using member
              · rintro rfl
                exact confined.asks frame (queue ▸ List.mem_cons_self)
      | registered topic => exact confined.route target (by simp [place])
      | replaying topic value => exact confined.route target (by simp [place])
      | routing frame retain targets remaining => exact confined.route target (by simp [place])
  | reporting inquiry report => exact confined.inquire client order report inquiry
  | leaving departure => exact confined.depart client departure

/-- A step of the daemon keeps a client confined that asks for allowed keys. -/
theorem Daemon.Confined.step (confined : daemon.Confined allowed me) (action : DaemonAction Client)
    (asks : ∀ frame, action = .arrive me frame → ∀ key, frame.Gets key → allowed key) :
    (daemon.step action).Confined allowed me := by
  cases action with
  | connect client =>
      simp only [Daemon.step]
      split
      · exact ⟨confined.asks, confined.watches, confined.told⟩
      · exact confined
  | arrive client frame =>
      refine ⟨?_, confined.watches, confined.told⟩
      intro sent member
      by_cases mine : me = client
      · subst client
        simp only [Daemon.step, Function.update_self, List.mem_append, List.mem_singleton] at member
        rcases member with before | rfl
        · exact confined.asks sent before
        · exact asks sent rfl
      · simp only [Daemon.step, Function.update_of_ne mine] at member
        exact confined.asks sent member
  | thread client target order now later => exact confined.threadStep client target order now later
  | hangUp client =>
      simp only [Daemon.step]
      split
      · exact confined.become client _
      · exact confined
  | sweep order read =>
      refine confined.deliver (daemon.store.sweep read order).1 ?_ ?_
      · intro key watched
        exact confined.watches key ((sweep_watches read order me key).mp watched)
      · intro frame member change told
        obtain ⟨key, pushed⟩ := sweep_frames member
        obtain ⟨about, watched⟩ := pushed.key told
        exact about ▸ confined.watches key watched

/-- The configuration lets the frame cross the link. -/
def LinkConfig.Carries (config : LinkConfig) (frame : Frame) : Prop :=
  (frame.msg = some .publish → ∃ pattern ∈ config.topics, topicMatches pattern frame.name = true) ∧
    (frame.msg = some .kvSet ∨ frame.msg = some .kvDel → frame.name ∈ config.keys)

/-- What the link asks, hears and says is within its configuration. -/
structure Relay.Confined (config : LinkConfig) (me : Client) (relay : Relay Client) : Prop where
  daemon : relay.daemon.Confined (· ∈ config.keys) me
  unwritten : ∀ frame ∈ relay.link.peerPending, ∀ key, ¬ frame.Gets key
  unsent : ∀ frame ∈ relay.link.localPending, config.Carries frame
  sent : ∀ frame ∈ relay.link.sent, config.Carries frame

variable {config : LinkConfig} {relay : Relay Client}

omit [DecidableEq Client] in
theorem Relay.Confined.initial (socket : Socket) :
    (Relay.initial config socket : Relay Client).Confined config me where
  daemon := .initial
  unwritten := by simp [Relay.initial, Link.start]
  unsent := by simp [Relay.initial, Link.start]
  sent := by simp [Relay.initial, Link.start]

theorem carries_publish {name payload : Bytes} (forwards : config.forwardsTopic name = true) :
    config.Carries (Msg.publish.frame name payload) := by
  refine ⟨fun _ => (forwardsTopic_iff config name).mp forwards, ?_⟩
  simp

theorem carries_change {change : Change} (listed : change.key ∈ config.keys) :
    config.Carries change.frame := by
  cases change with
  | set key value => exact ⟨by simp [Change.frame], fun _ => listed⟩
  | del key => exact ⟨by simp [Change.frame], fun _ => listed⟩

theorem localSend_carries {link : Link} (unsent : ∀ frame ∈ link.localPending, config.Carries frame)
    (sent : ∀ frame ∈ link.sent, config.Carries frame) :
    (∀ frame ∈ link.localSend.localPending, config.Carries frame) ∧
      ∀ frame ∈ link.localSend.sent, config.Carries frame := by
  unfold Link.localSend
  split
  · rename_i frame pending alive
    refine ⟨nofun, ?_⟩
    simp only [List.forall_mem_append, List.forall_mem_singleton]
    exact ⟨sent, unsent frame pending⟩
  · exact ⟨unsent, sent⟩

theorem forward_carries (link : Link) (unsent : ∀ frame ∈ link.localPending, config.Carries frame)
    {change : Change} (listed : change.key ∈ config.keys) :
    ∀ frame ∈ (link.forward change).localPending, config.Carries frame := by
  unfold Link.forward
  split
  · exact unsent
  · rintro frame member
    cases member
    exact carries_change listed

theorem localRead_carries (link : Link) (unsent : ∀ frame ∈ link.localPending, config.Carries frame)
    (told : ∀ entry ∈ link.fromDaemon, ∀ change, entry.2.pushed = some change →
      change.key ∈ config.keys) :
    ∀ frame ∈ (link.localRead config).localPending, config.Carries frame := by
  unfold Link.localRead
  split
  · rename_i own frame rest queue idle alive
    split
    · unfold Link.localFrame
      split
      · split
        · rename_i forwards
          rintro other member
          cases member
          exact carries_publish forwards
        · exact unsent
      · split
        · rename_i change pushed
          apply forward_carries { link with fromDaemon := rest } unsent
          exact told (own, frame) (queue ▸ List.mem_cons_self) change pushed
        · exact unsent
    · exact unsent
  · exact unsent

/-- A frame of the peer makes the link ask for no key. -/
theorem peerFrame_gets {link : Link}
    (unwritten : ∀ frame ∈ link.peerPending, ∀ key, ¬ frame.Gets key) (config : LinkConfig)
    (frame : Frame) :
    ∀ pending ∈ (link.peerFrame config frame).peerPending, ∀ key, ¬ pending.Gets key := by
  intro pending member key
  rcases peerFrame_pending member with before | ⟨name, payload, rfl⟩ | ⟨change, -, rfl⟩
  · exact unwritten pending before key
  · exact publish_gets name payload key
  · exact change_gets change key

theorem startup_gets {frame : Frame} (member : frame ∈ config.startup) {key : Bytes}
    (gets : frame.Gets key) : key ∈ config.keys := by
  rcases List.mem_append.mp member with topic | key
  · obtain ⟨name, -, rfl⟩ := List.mem_map.mp topic
    obtain ⟨-, id, read⟩ := gets
    simp [KvRequest.ofFrame] at read
  · obtain ⟨entry, listed, rfl⟩ := List.mem_map.mp key
    rw [← gets.1]
    exact List.fst_mem_of_mem_zipIdx listed

theorem Relay.Confined.start (confined : relay.Confined config me) :
    (relay.start config me).Confined config me := by
  unfold Relay.start
  split
  · exact confined
  · refine ⟨?_, confined.unwritten, confined.unsent, confined.sent⟩
    have connected : (relay.daemon.step (.connect me)).Confined (· ∈ config.keys) me :=
      confined.daemon.step (.connect me) (by simp)
    have arrives : ∀ frames : List Frame, (∀ frame ∈ frames, frame ∈ config.startup) →
        ∀ daemon : Daemon Client, daemon.Confined (· ∈ config.keys) me →
        (run Daemon.step daemon (frames.map (.arrive me))).Confined (· ∈ config.keys) me := by
      intro frames
      induction frames with
      | nil => exact fun _ _ keep => keep
      | cons frame rest ih =>
          intro among daemon keep
          apply ih fun other member => among other (List.mem_cons_of_mem _ member)
          apply keep.step
          rintro _ ⟨⟩ key gets
          exact startup_gets (among frame List.mem_cons_self) gets
    exact arrives config.startup (fun _ => id) _ connected

omit [DecidableEq Client] in
theorem Relay.Confined.localLoop (confined : relay.Confined config me) :
    (relay.localLoop config me).Confined config me := by
  unfold Relay.localLoop
  split
  · obtain ⟨unsent, sent⟩ := localSend_carries confined.unsent confined.sent
    refine ⟨confined.daemon, ?_, unsent, sent⟩
    rw [(localSend_kept relay.link).1]
    exact confined.unwritten
  · exact confined
  · rename_i frame idle taken
    split
    · have told : frame ∈ relay.daemon.broker.sent me := List.mem_of_getElem? taken
      have unsent := localRead_carries
        { relay.link with fromDaemon := [(false, frame)] } confined.unsent (by
          simp only [List.mem_singleton, forall_eq]
          exact confined.daemon.told frame told)
      refine ⟨confined.daemon, ?_, unsent, ?_⟩
      · rw [(localRead_kept config { relay.link with fromDaemon := [(false, frame)] }).1]
        exact confined.unwritten
      · rw [localRead_sent]
        exact confined.sent
    · exact ⟨confined.daemon, confined.unwritten, confined.unsent, confined.sent⟩

theorem Relay.Confined.peerLoop (confined : relay.Confined config me) :
    (relay.peerLoop config me).Confined config me := by
  unfold Relay.peerLoop
  split
  · rename_i frame pending
    have idle : ∀ other ∈ (none : Option Frame), ∀ key, ¬ other.Gets key := by simp
    unfold Relay.peerWrite
    split
    · refine ⟨confined.daemon.step (.arrive me frame) ?_, idle, confined.unsent, confined.sent⟩
      rintro _ ⟨⟩ key gets
      exact absurd gets (confined.unwritten frame pending key)
    · exact ⟨confined.daemon, idle, confined.unsent, confined.sent⟩
  · unfold Relay.peerRead
    split
    · exact ⟨confined.daemon, confined.unwritten, confined.unsent, confined.sent⟩
    · split
      · exact ⟨confined.daemon, confined.unwritten, confined.unsent, confined.sent⟩
      · rename_i frame reader next
        have unwritten := peerFrame_gets confined.unwritten config frame
        have unsent := (peerFrame_sides config relay.link frame).2.1
        have sent := peerFrame_sent config relay.link frame
        dsimp only
        split <;> exact ⟨confined.daemon, unwritten, unsent ▸ confined.unsent, sent ▸ confined.sent⟩

theorem Relay.Confined.step (relay : Relay Client) (action : RelayAction Client)
    (confined : relay.Confined config me) : (relay.step config me action).Confined config me := by
  cases action with
  | daemon action =>
      simp only [Relay.step]
      split
      · exact confined
      · rename_i foreign
        refine ⟨confined.daemon.step action ?_, confined.unwritten, confined.unsent,
          confined.sent⟩
        rintro frame rfl
        simp [DaemonAction.isOf] at foreign
  | start => exact confined.start
  | localLoop =>
      simp only [Relay.step]
      split
      · exact confined.localLoop
      · exact confined
  | peerLoop =>
      simp only [Relay.step]
      split
      · exact confined.peerLoop
      · exact confined
  | stop => exact ⟨confined.daemon, confined.unwritten, confined.unsent, confined.sent⟩
  | disconnect => exact ⟨confined.daemon, confined.unwritten, confined.unsent, confined.sent⟩

/-- Nothing outside the configuration crosses a link. Whatever bytes the peer sends, the link writes
to its daemon a prefix of the admitted frames, and all of them when it stays up. Whatever the other
clients of the daemon do, the link writes to its peer only what the configuration carries. -/
theorem link_confined (config : LinkConfig) (me : Client) (socket : Socket) (frames : List Frame)
    (parsed : (FrameReader.open socket).Reads frames) (actions : List (RelayAction Client)) :
    (Recv.failed ∉ socket.script → frames = parseAll socket.rest) ∧
    (run (Relay.step config me) (.initial config socket) actions).written <+:
      config.admitted frames ∧
    (Along (Relay.step config me) Relay.Up (.initial config socket) actions →
      (run (Relay.step config me) (.initial config socket) actions).started = true →
      ∃ count,
        (run (Relay.step config me) (.initial config socket)
          (actions ++ List.replicate count .peerLoop)).ended = true ∧
        (run (Relay.step config me) (.initial config socket)
          (actions ++ List.replicate count .peerLoop)).written = config.admitted frames) ∧
    ∀ frame ∈ (run (Relay.step config me) (.initial config socket) actions).link.sent,
      config.Carries frame := by
  have streams : Relay.Streams config frames (.initial config socket : Relay Client) :=
    .initial parsed
  refine ⟨?_, ?_, ?_, ?_⟩
  · intro clean
    exact (FrameReader.reads_iff socket.rest _ (FrameReader.open_good socket clean)
      (FrameReader.open_stream socket) frames).mp parsed
  · exact (streams.reach actions).before
  · intro along started
    have whole := Relay.Whole.reach ⟨streams, .inr ⟨rfl, rfl⟩, fun ended => nomatch ended⟩ along
    cases running : (run (Relay.step config me) (.initial config socket) actions).ended with
    | true =>
        refine ⟨0, ?_⟩
        rw [List.replicate_zero, List.append_nil]
        exact ⟨running, whole.complete running⟩
    | false =>
        obtain ⟨rest, reads, -⟩ := whole.streams.ahead running
        obtain ⟨count, done, ended⟩ := Relay.Whole.drains _ whole started reads (Nat.lt_succ_self _)
        refine ⟨count, ?_⟩
        rw [run, List.foldl_append]
        exact ⟨ended, done.complete ended⟩
  · exact (run_invariant Relay.Confined.step actions _ (.initial socket)).sent

/-- A link that carries one key, and the frames of a peer that writes this key and another one. -/
def oneKeyLink : LinkConfig := ⟨[], [[107]], false, [49], 7⟩

def peerFrames : List Frame :=
  [⟨msgLinkHello, [49], littleEndian 8 7⟩, Msg.kvSet.frame [107] [1], Msg.kvSet.frame [120] [2],
    Msg.kvDel.frame [107] [3]]

/-- The first byte arrives alone, and the link reads on until it has written both commands. -/
theorem link_confined_small :
    oneKeyLink.admitted peerFrames = [Msg.kvSet.frame [107] [1], Msg.kvDel.frame [107] []] ∧
    (∃ count, (run (Relay.step oneKeyLink 0)
      (.initial oneKeyLink ⟨encodeAll peerFrames, [.ready 1]⟩)
      ([.start] ++ List.replicate count .peerLoop)).written = oneKeyLink.admitted peerFrames) ∧
    ∀ frame ∈ (run (Relay.step oneKeyLink 0)
      (.initial oneKeyLink ⟨encodeAll peerFrames, [.ready 1]⟩) [.start]).link.sent,
      oneKeyLink.Carries frame := by
  have fit : ∀ frame ∈ peerFrames, frame.Fits := by simp [peerFrames, Frame.Fits]; decide
  have parsed : (FrameReader.open ⟨encodeAll peerFrames, [.ready 1]⟩).Reads peerFrames := by
    rw [FrameReader.reads_iff _ _ (FrameReader.open_good _ (by simp)) (FrameReader.open_stream _)]
    exact (parseAll_encodeAll peerFrames fit).symm
  obtain ⟨-, -, written, sent⟩ := link_confined oneKeyLink 0 ⟨encodeAll peerFrames, [.ready 1]⟩
    peerFrames parsed [.start]
  obtain ⟨count, -, all⟩ := written ⟨.inr ⟨rfl, rfl⟩, True.intro⟩ rfl
  exact ⟨by decide, ⟨count, all⟩, sent⟩

end Chappe
