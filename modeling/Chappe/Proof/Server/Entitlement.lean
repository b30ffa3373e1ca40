/-
This file proves that a daemon sends a client only its answers, the publishes of the topics that it
has subscribed to and the changes of the keys that it has asked for.
-/

import Chappe.Proof.Daemon.ReplySizes
import Chappe.Proof.Network.Routing
import Chappe.Proof.Server.Answering

namespace Chappe
open Foundation

variable {Client : Type}

/-- The tables list the client under the name. -/
def Tables.Lists (tables : Tables Client) (client : Client) (name : Bytes) : Prop :=
  client ∈ tables.subs.members name ∨ client ∈ tables.patternSubs.members name

variable [DecidableEq Client] {tables : Tables Client} {client other : Client} {name : Bytes}

theorem lists_subscribe {key : Bytes} (lists : (tables.subscribe client key).Lists other name) :
    tables.Lists other name ∨ (name = key ∧ other = client) := by
  unfold Tables.subscribe at lists
  split at lists
  · rcases lists with exact' | pattern
    · exact .inl (.inl exact')
    · exact (Registry.mem_add.mp pattern).imp_left .inr
  · rcases lists with exact' | pattern
    · exact (Registry.mem_add.mp exact').imp_left .inl
    · exact .inl (.inr pattern)

theorem lists_unsubscribe {key : Bytes}
    (lists : (tables.unsubscribe client key).Lists other name) : tables.Lists other name := by
  unfold Tables.unsubscribe at lists
  split at lists
  · exact lists.imp_right fun pattern => (Registry.mem_remove.mp pattern).1
  · exact lists.imp_left fun exact' => (Registry.mem_remove.mp exact').1

theorem lists_removeClient (lists : (tables.removeClient client).Lists other name) :
    tables.Lists other name :=
  lists.imp (fun exact' => (Registry.mem_removeAll.mp exact').1)
    fun pattern => (Registry.mem_removeAll.mp pattern).1

/-- A target of a publish is listed under a name that matches the topic. -/
theorem lists_targets {topic : Bytes} (target : client ∈ tables.targets topic) :
    ∃ name, tables.Lists client name ∧ topicMatches name topic = true := by
  rcases mem_targets.mp target with exact' | ⟨pattern, member, matched⟩
  · exact ⟨topic, .inl exact', topicMatches_self topic⟩
  · exact ⟨pattern, .inr member, matched⟩

end Chappe

namespace Chappe.Server
open Foundation

variable {Client : Type} [LinearOrder Client] {config : Config} {choice : Choice}
  {state after : State Client} {system : System Client} {deeds more : List (Deed Client)}

/-- The reader of the client has taken a frame of the kind and the name. -/
def Asked (msg : Msg) (client : Client) (name : Bytes) (deeds : List (Deed Client)) : Prop :=
  ∃ earlier ∈ taken client deeds, earlier.msg = some msg ∧ earlier.name = name

/-- The frame is an answer, or the client wants it. -/
def Due (client : Client) (frame : Frame) (deeds : List (Deed Client)) : Prop :=
  frame.answers ≠ none ∨ frame.Wanted (taken client deeds)

/-- What an operation does for a client goes back to a frame of that client. -/
def Op.Due (deeds : List (Deed Client)) : Op Client → Prop
  | .subscribe client name | .replay client name => Asked .subscribe client name deeds
  | .request client frame => frame ∈ taken client deeds
  | .write client frame => Server.Due client frame deeds
  | _ => True

theorem Asked.later {msg : Msg} {client : Client} {name : Bytes}
    (asked : Asked msg client name deeds) (more : List (Deed Client)) :
    Asked msg client name (deeds ++ more) := by
  obtain ⟨earlier, member, kind⟩ := asked
  exact ⟨earlier, by rw [taken_append]; exact List.mem_append_left _ member, kind⟩

theorem Due.later {client : Client} {frame : Frame} (due : Due client frame deeds)
    (more : List (Deed Client)) : Due client frame (deeds ++ more) := by
  have kept {earlier : Frame} (member : earlier ∈ taken client deeds) :
      earlier ∈ taken client (deeds ++ more) := by
    rw [taken_append]
    exact List.mem_append_left _ member
  rcases due with answers | ⟨kind, earlier, member, same⟩ | ⟨kind, earlier, member, same⟩
  · exact .inl answers
  · exact .inr (.inl ⟨kind, earlier, kept member, same⟩)
  · exact .inr (.inr ⟨kind, earlier, kept member, same⟩)

theorem Op.Due.later {op : Op Client} (due : op.Due deeds) (more : List (Deed Client)) :
    op.Due (deeds ++ more) := by
  cases op with
  | subscribe client name | replay client name => exact Asked.later due more
  | request client frame =>
      change frame ∈ taken client (deeds ++ more)
      rw [taken_append]
      exact List.mem_append_left _ due
  | write client frame => exact Server.Due.later due more
  | _ => trivial

/-- The tables of a daemon, its code and its connections go back to frames of the clients. -/
structure Entitled (system : System Client) (deeds : List (Deed Client)) : Prop where
  topics : ∀ client name, system.data.tables.Lists client name →
    Asked .subscribe client name deeds
  keys : ∀ client key, system.data.store.Watches client key → Asked .kvGet client key deeds
  code : ∀ worker, ∀ op ∈ system.code worker, op.Due deeds
  sent : ∀ client, ∀ write ∈ system.data.sent client, Due client write.2 deeds

theorem due_publish {client : Client} {name topic value : Bytes}
    (asked : Asked .subscribe client name deeds) (matched : topicMatches name topic = true) :
    Due client (Msg.publish.frame topic value) deeds := by
  obtain ⟨earlier, member, kind, rfl⟩ := asked
  exact .inr (.inl ⟨Msg.frame_msg .publish topic value, earlier, member, kind, matched⟩)

theorem due_pushed {store : Store Client} {key : Bytes} {client : Client} {frame : Frame}
    (asked : Asked .kvGet client key deeds) (pushed : Pushed store key client frame) :
    Due client frame deeds := by
  obtain ⟨earlier, member, kind, rfl⟩ := asked
  obtain ⟨-, ⟨value, rfl⟩ | rfl⟩ := pushed
  · exact .inr (.inr ⟨.inl (Msg.frame_msg ..), earlier, member, kind, rfl⟩)
  · exact .inr (.inr ⟨.inr (Msg.frame_msg ..), earlier, member, kind, rfl⟩)

theorem due_sends {writes : List (Client × Frame)}
    (due : ∀ write ∈ writes, Due write.1 write.2 deeds) : ∀ op ∈ sends writes, op.Due deeds := by
  intro op member
  obtain ⟨write, among, rfl | rfl | rfl⟩ := mem_sends member
  · trivial
  · exact due write among
  · trivial

theorem Bare.due {code : Code Client} (bare : Bare code) : ∀ op ∈ code, op.Due deeds := by
  intro op member
  have silent := bare op member
  cases op with
  | write _ _ | request _ _ | inquire _ _ _ | subscribe _ _ | replay _ _ => cases silent
  | _ => trivial

/-- What the code for a frame does goes back to the frame. -/
theorem due_handleFrame (client : Client) (frame : Frame) :
    ∀ op ∈ handleFrame client frame, op.Due (deeds ++ [.take client frame]) := by
  have here : frame ∈ taken client (deeds ++ [.take client frame]) := by
    rw [taken_append]
    exact List.mem_append_right _ (by simp [taken])
  intro op member
  unfold handleFrame at member
  split at member
  · rename_i kind
    have asked : Asked .subscribe client frame.name (deeds ++ [.take client frame]) :=
      ⟨frame, here, kind, rfl⟩
    rcases List.mem_append.mp member with registers | replays
    · simp only [List.mem_cons, List.not_mem_nil, or_false] at registers
      rcases registers with rfl | rfl | rfl
      · trivial
      · exact asked
      · trivial
    · split at replays
      · cases replays
      · simp only [List.mem_cons, List.not_mem_nil, or_false] at replays
        rcases replays with rfl | rfl
        · trivial
        · exact asked
  · simp only [List.mem_cons, List.not_mem_nil, or_false] at member
    rcases member with rfl | rfl | rfl <;> trivial
  · simp only [List.mem_cons, List.not_mem_nil, or_false] at member
    rcases member with rfl | rfl <;> trivial
  · simp only [List.mem_cons, List.not_mem_nil, or_false] at member
    rcases member with rfl | rfl | rfl | rfl | rfl <;> trivial
  · refine due_sends (fun write among => ?_) op member
    rw [List.mem_singleton.mp among]
    exact .inl (by simp [Frame.answers])
  · split at member
    · cases member
    · simp only [List.mem_cons, List.not_mem_nil, or_false] at member
      rcases member with rfl | rfl <;> trivial
  · split at member
    · simp only [List.mem_cons, List.not_mem_nil, or_false] at member
      rcases member with rfl | rfl | rfl
      · trivial
      · exact here
      · trivial
    · cases member

theorem due_afterInquiry (client : Client) (result : Report × Inquiry) :
    ∀ op ∈ afterInquiry client result, op.Due deeds := by
  obtain ⟨report, inquiry⟩ := result
  cases inquiry with
  | reply =>
      refine due_sends fun write among => ?_
      rw [List.mem_singleton.mp among]
      exact .inl (by simp [Frame.answers])
  | clients | topics | retained | keys =>
      intro op member
      simp only [afterInquiry, List.mem_cons, List.not_mem_nil, or_false] at member
      rcases member with rfl | rfl <;> trivial

/-- What a calm operation goes on with goes back to the frames that have been taken. -/
theorem Goes.due (sound : Sound config system.data system.code)
    (orderly : Orderly Mutex.rank Follows system) (entitled : Entitled system deeds)
    {thread : Worker Client} {op : Op Client} {ops rest : Code Client}
    (code : system.code thread = op :: rest) (goes : Goes system.data op ops more) :
    ∀ later ∈ ops, later.Due (deeds ++ more) := by
  have due : op.Due deeds := entitled.code thread op (code ▸ List.mem_cons_self)
  have unlocks {mutex : Mutex Client} {sent : Code Client}
      (after : ∀ later ∈ sent, later.Due (deeds ++ more)) :
      ∀ later ∈ .unlock mutex :: sent, later.Due (deeds ++ more) :=
    List.forall_mem_cons.mpr ⟨trivial, after⟩
  cases goes with
  | bare silent => exact silent.due
  | inquires source order report inquiry => exact unlocks (due_afterInquiry source _)
  | replays source topic =>
      refine unlocks (due_sends fun write member => ?_)
      obtain ⟨value, -, rfl⟩ := List.mem_map.mp member
      exact due_publish (Asked.later due []) (topicMatches_self topic)
  | routes source frame =>
      refine unlocks (due_sends fun write member => ?_)
      obtain ⟨target, among, rfl⟩ := List.mem_map.mp member
      rw [Finset.mem_sort, Finset.mem_erase] at among
      obtain ⟨name, listed, matched⟩ := lists_targets among.2
      exact due_publish ((entitled.topics target name listed).later []) matched
  | takes socket inbox =>
      rename_i owner peer number frame frames
      obtain ⟨-, -, opened⟩ := next_socket sound orderly code
      rw [socket] at opened
      cases opened
      intro later member
      rcases List.mem_append.mp member with handles | loops
      · exact due_handleFrame owner frame later handles
      · rw [List.mem_singleton.mp loops]
        trivial

/-- What the store sends for a request goes back to the frames that have been taken. -/
theorem due_request (entitled : Entitled system deeds) (now later : Nat) (source : Client)
    (frame : Frame) : ∀ op ∈ sends (requestWrites system.data.store now source frame),
      op.Due deeds := by
  refine due_sends fun write member => ?_
  have sent : write.2 ∈ (system.data.store.handleFrame now later source frame).2 write.1 := by
    rw [← gather_requestWrites, gather, List.mem_map]
    exact ⟨write, List.mem_filter.mpr ⟨member, decide_eq_true rfl⟩, rfl⟩
  rcases handleFrame_frames sent with pushed | ⟨-, request, -, answer⟩
  · exact due_pushed (entitled.keys _ _ pushed.1) pushed
  · obtain ⟨id, -, ⟨found, -, same⟩ | ⟨ok, value, same⟩⟩ := answer
    · exact .inl (by rw [same, kvReply_answers]; exact Option.some_ne_none _)
    · exact .inl (by rw [same, kvResult_answers]; exact Option.some_ne_none _)

/-- What the store sends for a pass of the sweep goes back to the frames that have been taken. -/
theorem due_sweep (entitled : Entitled system deeds) (read : Nat) (order : List Bytes) :
    ∀ op ∈ sends (sweepWrites system.data.store read
      (order.filter fun key => system.data.store.expired key read)), op.Due deeds := by
  refine due_sends fun write member => ?_
  have sent : write.2 ∈ (system.data.store.sweep read order).2 write.1 := by
    rw [Store.sweep, ← gather_sweepWrites, gather, List.mem_map]
    exact ⟨write, List.mem_filter.mpr ⟨member, decide_eq_true rfl⟩, rfl⟩
  obtain ⟨key, pushed⟩ := sweep_frames sent
  exact due_pushed (entitled.keys _ _ pushed.1) pushed

/-- Only a subscription lists a client under a name. -/
theorem lists_outcome {op : Op Client} {rest next : Code Client}
    (outcome : (decode config choice state (op :: rest)).outcome state = some (after, next))
    {client : Client} {name : Bytes} (lists : after.tables.Lists client name) :
    state.tables.Lists client name ∨ op = .subscribe client name := by
  have kept (same : after.tables = state.tables) :
      state.tables.Lists client name ∨ op = .subscribe client name := .inl (same ▸ lists)
  cases op with
  | subscribe source topic =>
      obtain ⟨rfl, rfl⟩ := Prod.mk.inj (Option.some.inj outcome)
      rcases lists_subscribe lists with before | ⟨rfl, rfl⟩
      · exact .inl before
      · exact .inr rfl
  | unsubscribe source topic =>
      obtain ⟨rfl, rfl⟩ := Prod.mk.inj (Option.some.inj outcome)
      exact .inl (lists_unsubscribe lists)
  | leaveTopics source =>
      obtain ⟨rfl, rfl⟩ := Prod.mk.inj (Option.some.inj outcome)
      exact .inl (lists_removeClient lists)
  | next owner number =>
      rcases next_outcome outcome with
        ⟨-, -, rfl | ⟨-, rfl⟩⟩ | ⟨peer, frame, frames, -, -, -, rfl, -⟩
      · exact kept rfl
      · exact kept rfl
      · exact kept rfl
  | _ => exact kept (kept_outcome rfl outcome).tables

theorem outside_tables (event : Event Client) (state : State Client) :
    (outside event state).tables = state.tables := by
  cases event with
  | dial client uid =>
      simp only [outside]
      split <;> rfl
  | arrive client frame =>
      simp only [outside]
      split <;> rfl
  | hangUp client | destroy => rfl

/-- A step changes the code of its thread to what goes back to the frames that have been taken. -/
theorem Entitled.moves (entitled : Entitled system deeds) {next : System Client}
    {thread : Worker Client} {op : Op Client} {ops rest : Code Client}
    (before : system.code thread = op :: rest)
    (code : next.code = Function.update system.code thread (ops ++ rest))
    (due : ∀ later ∈ ops, later.Due (deeds ++ more))
    (lists : ∀ client name, next.data.tables.Lists client name →
      system.data.tables.Lists client name ∨ op = .subscribe client name)
    (keys : ∀ client key, next.data.store.Watches client key →
      Asked .kvGet client key (deeds ++ more))
    (sent : ∀ client, ∀ write ∈ next.data.sent client, Due client write.2 (deeds ++ more)) :
    Entitled next (deeds ++ more) := by
  refine ⟨fun client name listed => ?_, keys, fun worker later member => ?_, sent⟩
  · rcases lists client name listed with earlier | rfl
    · exact (entitled.topics client name earlier).later more
    · have here : Op.Due deeds (.subscribe client name) :=
        entitled.code thread _ (before ▸ List.mem_cons_self)
      exact Asked.later here more
  · rw [code] at member
    by_cases same : worker = thread
    · subst worker
      rw [Function.update_self] at member
      rcases List.mem_append.mp member with new | old
      · exact due later new
      · exact (entitled.code thread later
          (before ▸ List.mem_cons_of_mem _ old)).later more
    · rw [Function.update_of_ne same] at member
      exact (entitled.code worker later member).later more

/-- A step of a thread keeps what the clients are entitled to. -/
theorem Entitled.go (entitled : Entitled system deeds)
    (sound : Sound config system.data system.code) (orderly : Orderly Mutex.rank Follows system)
    {thread : Worker Client} (enabled : (machine config).Enabled system thread choice) :
    Entitled (system.step config (.go thread choice))
      (deeds ++ system.deeds (.go thread choice)) := by
  obtain ⟨after, new, outcome, data, codes⟩ := step_enabled enabled
  have decoded : (decode config choice system.data (system.code thread)).outcome system.data =
    some (after, new) := outcome
  change (system.step config (.go thread choice)).data = after at data
  change (system.step config (.go thread choice)).code = _ at codes
  change Entitled _ (deeds ++ system.data.deed choice (system.code thread))
  generalize system.step config (.go thread choice) = next at data codes ⊢
  subst data
  have watches (more : List (Deed Client)) {store : Store Client}
      (same : SameWatches store system.data.store) (client : Client) (key : Bytes)
      (watched : store.Watches client key) : Asked .kvGet client key (deeds ++ more) :=
    (entitled.keys client key ((same.watches client key).mp watched)).later more
  have connections (more : List (Deed Client)) (client : Client) (write : Client × Frame)
      (member : write ∈ system.data.sent client) : Due client write.2 (deeds ++ more) :=
    (entitled.sent client write member).later more
  cases code : system.code thread with
  | nil =>
      rw [code] at decoded
      cases decoded
  | cons op rest =>
      rw [code] at decoded
      have lists (client : Client) (name : Bytes) (listed : next.data.tables.Lists client name) :
          system.data.tables.Lists client name ∨ op = .subscribe client name :=
        lists_outcome decoded listed
      have here : op.Due deeds := entitled.code thread op (code ▸ List.mem_cons_self)
      by_cases calm : op.calm = true
      · obtain ⟨kept, ops, rfl, goes⟩ := calm_outcome calm decoded
        refine entitled.moves code codes (goes.due sound orderly entitled code) lists
          (watches _ ⟨congrArg Store.watchers kept.store, congrArg Store.keys kept.store⟩) ?_
        rw [kept.sent]
        exact connections _
      · cases op with
        | write peer frame =>
            obtain ⟨same, rfl⟩ := Prod.mk.inj (Option.some.inj decoded)
            have written : Written peer frame system.data next.data := by
              rw [← same]
              exact write_written sound.ledger peer frame choice.failed
            have quiet : next.code = Function.update system.code thread ([] ++ rest) := codes
            refine entitled.moves code quiet (by simp) lists
              (watches _ ⟨congrArg Store.watchers written.store,
                congrArg Store.keys written.store⟩) fun client write member => ?_
            by_cases other : client = peer
            · subst client
              rcases written.here with ⟨sent, -⟩ | ⟨sent, -, -⟩
              · exact connections _ peer write (sent ▸ member)
              · rw [sent] at member
                rcases List.mem_append.mp member with old | new
                · exact connections _ peer write old
                · rw [List.mem_singleton.mp new]
                  exact Due.later here _
            · exact connections _ client write (written.others client other ▸ member)
        | request source frame =>
            obtain ⟨same, rfl⟩ := Prod.mk.inj (Option.some.inj decoded)
            refine entitled.moves code codes (fun later member =>
              (due_request entitled choice.now choice.later source frame later member).later _)
              lists (fun client key watched => ?_) ?_
            · rw [← same] at watched
              rcases handleFrame_watching system.data.store choice.now choice.later source frame
                with unchanged | ⟨id, get, started⟩
              · exact watches _ unchanged client key watched
              · rcases watch_watches.mp ((started.watches client key).mp watched) with
                  before | ⟨rfl, rfl⟩
                · exact (entitled.keys client key before).later _
                · exact Asked.later ⟨frame, here, ofFrame_get get, rfl⟩ _
            · rw [← same]
              exact connections _
        | sweepKeys read =>
            obtain ⟨same, rfl⟩ := Prod.mk.inj (Option.some.inj decoded)
            refine entitled.moves code codes (fun later member =>
              (due_sweep entitled read choice.order later member).later _) lists ?_ ?_
            · rw [← same]
              exact watches _ (sweep_watching system.data.store read choice.order)
            · rw [← same]
              exact connections _
        | leaveKeys source =>
            obtain ⟨same, rfl⟩ := Prod.mk.inj (Option.some.inj decoded)
            have quiet : next.code = Function.update system.code thread ([] ++ rest) := codes
            refine entitled.moves code quiet (by simp) lists
              (fun client key watched => ?_) ?_
            · rw [← same] at watched
              exact (entitled.keys client key
                ((removeClient_watches _ source client key).mp watched).1).later _
            · rw [← same]
              exact connections _
        | _ => exact absurd rfl calm

theorem Entitled.step (entitled : Entitled system deeds)
    (sound : Sound config system.data system.code) (orderly : Orderly Mutex.rank Follows system)
    (action : Action Client) :
    Entitled (system.step config action) (deeds ++ system.deeds action) := by
  cases action with
  | outside event =>
      have nothing : deeds ++ system.deeds (.outside event) = deeds := List.append_nil deeds
      rw [nothing]
      have calm := outside_calm event system.data
      refine ⟨fun client name listed => entitled.topics client name ?_,
        fun client key watched => entitled.keys client key ?_, entitled.code,
        fun client write member => entitled.sent client write (calm.sent ▸ member)⟩
      · exact outside_tables event system.data ▸ listed
      · exact calm.store ▸ watched
  | go thread choice =>
      by_cases enabled : (machine config).Enabled system thread choice
      · exact entitled.go sound orderly enabled
      · have idle : system.step config (.go thread choice) = system := step_idle enabled
        rw [deed_idle enabled, List.append_nil, idle]
        exact entitled

theorem Entitled.initial : Entitled (System.initial : System Client) [] := by
  refine ⟨fun client name listed => ?_, fun client key watched => ?_, fun worker => ?_,
    fun client write member => absurd member List.not_mem_nil⟩
  · rcases listed with exact' | pattern
    · exact absurd exact' (Finset.notMem_empty client)
    · exact absurd pattern (Finset.notMem_empty client)
  · exact absurd watched (Finset.notMem_empty client)
  · cases worker <;> exact Bare.due (by simp [System.initial, initialCode, destructor, Op.speaks])

/-- In every run what the daemon sends goes back to frames of the clients. -/
theorem server_entitled (config : Config) (actions : List (Action Client)) :
    Entitled (run (System.step config) System.initial actions)
      (collect (System.step config) System.deeds System.initial actions) := by
  have keep (system : System Client) (deeds : List (Deed Client)) (action : Action Client)
      (held : Sound config system.data system.code ∧ Orderly Mutex.rank Follows system ∧
        Entitled system deeds) :
      Sound config (system.step config action).data (system.step config action).code ∧
        Orderly Mutex.rank Follows (system.step config action) ∧
        Entitled (system.step config action) (deeds ++ system.deeds action) :=
    ⟨held.1.step action, held.2.1.step server_discipline action,
      held.2.2.step held.1 held.2.1 action⟩
  exact (collect_invariant keep actions _ []
    ⟨.initial, server_orderly config [], .initial⟩).2.2

/-- In every run, the answers on the connection of a client are those that the frames taken from it
ask for, in their order and without a gap. A connection that is up has them all when its reader
waits for the next frame. Every other frame on it is a publish for a subscription of the client, or
a change of a key that the client has asked for. -/
theorem server_answers (config : Config) (actions : List (Action Client)) (client : Client) :
    let system := run (System.step config) System.initial actions
    let deeds := collect (System.step config) System.deeds System.initial actions
    system.data.answered client <+: (taken client deeds).filterMap Frame.asks ∧
    (system.data.fd client ≠ none → system.data.shut client = false →
      ∀ number, system.code (.reader client) = [.next client number] →
      system.data.answered client = (taken client deeds).filterMap Frame.asks) ∧
    ∀ write ∈ system.data.sent client,
      write.2.answers ≠ none ∨ write.2.Wanted (taken client deeds) := by
  intro system deeds
  have answering : Answering system deeds := server_answering config actions
  refine ⟨answering.behind client, fun opened up number waits => ?_,
    (server_entitled config actions).sent client⟩
  have exact := answering.exact client opened up
  rw [waits] at exact
  exact (List.append_nil _).symm.trans exact

end Chappe.Server
