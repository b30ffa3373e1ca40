/-
This file proves that a node whose `sync` has returned is past every frame before it: the daemon has
handled what the node sent, and the node has read what the daemon wrote.
-/

import Chappe.Proof.Kv.KeyLocality
import Chappe.Proof.Sync.Moves

namespace Chappe
open Foundation

variable {Client Handler : Type} [DecidableEq Client] {accepts : Handler → Bytes → Bool}

/-- The frame answers the given one: a PING by a PONG, and a KV_GET by frames about its key. -/
def Frame.Answers (answer frame : Frame) : Prop :=
  (frame.msg = some .ping → answer = Msg.pong.frame frame.name frame.payload) ∧
    (frame.msg = some .kvGet → answer.name = frame.name)

/-- What the daemon writes to a client while it takes one of its frames answers this frame. -/
theorem takes_answers {daemon : Daemon Client} {action : DaemonAction Client} {client : Client}
    {frame : Frame} (takes : daemon.takes action = some (client, frame)) :
    ∃ extra, (daemon.step action).broker.sent client = daemon.broker.sent client ++ extra ∧
      ∀ answer ∈ extra, answer.Answers frame := by
  obtain ⟨serving, -, _, _, now, later, rest, -, -, handled⟩ := takes_some takes
  rw [handled]
  unfold Daemon.handleFrame
  split
  · rename_i ping
    refine ⟨[Msg.pong.frame frame.name frame.payload], ?_, ?_⟩
    · simp only [Daemon.deliver, serving, Life.connected, if_true, Outbox.sendTo]
    · intro answer member
      rw [List.mem_singleton.mp member]
      exact ⟨fun _ => rfl, fun get => by simp [ping] at get⟩
  · split <;> exact ⟨[], (List.append_nil _).symm, by simp⟩
  · exact ⟨[], by rw [begin_sent, List.append_nil], by simp⟩
  · exact ⟨[], by rw [begin_sent, List.append_nil], by simp⟩
  · exact ⟨[], by rw [begin_sent, List.append_nil], by simp⟩
  · exact ⟨[], by rw [begin_sent, List.append_nil], by simp⟩
  · rename_i other _ _ _ _ _
    refine ⟨(daemon.store.handleFrame now later client frame).2 client, ?_, ?_⟩
    · simp only [Daemon.deliver, serving, Life.connected, if_true]
    · intro answer member
      exact ⟨fun ping => absurd ping other, fun _ => handleFrame_name member⟩

/-- A thread that takes a frame has handled the one before. -/
theorem takes_free {daemon : Daemon Client} {action : DaemonAction Client} {client : Client}
    {frame : Frame} (takes : daemon.takes action = some (client, frame)) :
    daemon.busy client = false := by
  have state := takes_some takes
  simp only [Daemon.busy, state.serving, state.idle, Life.reports, Thread.working, Bool.or_self]

omit [DecidableEq Client] in
/-- The thread is as busy as before when it has the same place and reports nothing new. -/
theorem busy_of {daemon next : Daemon Client} {client : Client}
    (busy : next.busy client = true)
    (thread : next.broker.thread client = daemon.broker.thread client)
    (life : (next.life client).reports = true → daemon.busy client = true) :
    daemon.busy client = true := by
  rcases Bool.or_eq_true_iff.mp busy with reports | working
  · exact life reports
  · rw [Daemon.busy, ← thread, working, Bool.or_true]

/-- A client that gets a life without a report is not busier than before. -/
theorem busy_become {daemon next : Daemon Client} {actor client : Client} {life : Life}
    (busy : (next.become actor life).busy client = true) (quiet : life.reports = false)
    (thread : next.broker.thread = daemon.broker.thread) (same : next.life = daemon.life) :
    daemon.busy client = true := by
  refine busy_of busy (congrFun thread client) ?_
  intro reports
  dsimp only [Daemon.become] at reports
  by_cases mine : client = actor
  · rw [mine, Function.update_self, quiet] at reports
    cases reports
  · rw [Function.update_of_ne mine, same] at reports
    rw [Daemon.busy, reports, Bool.true_or]

/-- A thread becomes busy when it takes a frame that is not a PING. -/
theorem busy_step {daemon : Daemon Client} {action : DaemonAction Client} {client : Client}
    (busy : (daemon.step action).busy client = true) : daemon.busy client = true ∨
      ∃ frame, daemon.takes action = some (client, frame) ∧ frame.msg ≠ some .ping := by
  cases action with
  | connect actor =>
      left
      simp only [Daemon.step] at busy
      split at busy
      · exact busy_become busy rfl rfl rfl
      · exact busy
  | arrive actor frame => exact .inl busy
  | hangUp actor =>
      left
      simp only [Daemon.step] at busy
      split at busy
      · exact busy_become busy rfl rfl rfl
      · exact busy
  | sweep order read => exact .inl busy
  | thread actor target order now later =>
      by_cases mine : client = actor
      · subst actor
        cases takes : daemon.takes (.thread client target order now later) with
        | some taken =>
            obtain ⟨taker, frame⟩ := taken
            obtain ⟨serving, idle, _, _, _, _, rest, equal, -, handled⟩ := takes_some takes
            cases equal
            refine .inr ⟨frame, rfl, ?_⟩
            intro ping
            rw [handled] at busy
            simp only [Daemon.busy, Daemon.handleFrame, ping, Daemon.deliver, serving, idle,
              Life.reports, Thread.working, Bool.or_self] at busy
            cases busy
        | none =>
            left
            simp only [Daemon.step, Daemon.threadStep] at busy
            cases life : daemon.life client with
            | absent => simpa only [life] using busy
            | gone => simpa only [life] using busy
            | leaving departure =>
                simp only [life] at busy
                cases departure <;> exact busy_become busy rfl rfl rfl
            | reporting inquiry report =>
                rw [Daemon.busy, life]
                rfl
            | serving =>
                simp only [life] at busy
                split at busy
                · rename_i idle
                  rcases takes_none takes with other | other | queued
                  · exact absurd life other
                  · exact absurd idle other
                  · simpa only [queued] using busy
                · rename_i working
                  rw [Daemon.busy, life]
                  cases place : daemon.broker.thread client with
                  | idle => exact absurd place working
                  | registered topic => rfl
                  | replaying topic value => rfl
                  | routing frame retain targets remaining => rfl
      · left
        have other := threadStep_other mine daemon target order now later
        refine busy_of busy other.thread ?_
        intro reports
        rw [Daemon.busy, ← other.life]
        exact Bool.or_eq_true_iff.mpr (.inl reports)

/-- The records agree with the state. An answer is written in the step that takes its frame. -/
structure Fleet.Sound (fleet : Fleet Client Handler) : Prop where
  marked : fleet.network.Marked
  length : ∀ client, (fleet.answers client).length = (fleet.network.wire client).length
  answered : ∀ (client : Client) (place number : Nat),
    (fleet.answers client)[place]? = some (some number) →
      ∃ frame answer cause, (fleet.handled client)[number]? = some frame ∧
        (fleet.network.wire client)[place]? = some (answer, cause) ∧ answer.Answers frame
  busy : ∀ client, fleet.network.daemon.busy client = true →
    ∃ frame : Frame, (fleet.handled client).getLast? = some frame ∧ frame.msg ≠ some .ping

omit [DecidableEq Client] in
/-- What a prefix has at a place is what the list has there. -/
theorem prefix_getElem? {Item : Type*} {first second : List Item} (grows : first <+: second)
    {place : Nat} {item : Item} (found : first[place]? = some item) :
    second[place]? = some item := by
  obtain ⟨more, rfl⟩ := grows
  rw [List.getElem?_append_left (List.getElem?_eq_some_iff.mp found).1]
  exact found

omit [DecidableEq Client] in
theorem replicate_getElem? {Item : Type*} {count place : Nat} {item found : Item}
    (there : (List.replicate count item)[place]? = some found) : place < count ∧ item = found := by
  rw [List.getElem?_replicate] at there
  split at there
  · rename_i within
    exact ⟨within, Option.some.inj there⟩
  · cases there

theorem Fleet.Sound.initial : (Fleet.initial : Fleet Client Handler).Sound where
  marked := .initial
  length := fun _ => rfl
  answered := by simp [Fleet.initial]
  busy := by
    simp [Fleet.initial, Network.initial, Daemon.initial, Daemon.busy, Life.reports,
      Thread.working]

/-- The frame of the client that a step takes. -/
theorem taken_some {fleet : Fleet Client Handler} {client : Client}
    {action : NetworkAction Client Handler} {frame : Frame}
    (takes : fleet.network.takes action = some (client, frame)) :
    fleet.taken client action = [frame] := by
  rw [Fleet.taken, takes]
  exact if_pos rfl

theorem taken_cases (fleet : Fleet Client Handler) (client : Client)
    (action : NetworkAction Client Handler) :
    fleet.taken client action = [] ∨
      ∃ frame, fleet.network.takes action = some (client, frame) ∧
        fleet.taken client action = [frame] := by
  unfold Fleet.taken
  cases fleet.network.takes action with
  | none => exact .inl rfl
  | some taken =>
      obtain ⟨actor, frame⟩ := taken
      by_cases mine : actor = client
      · subst actor
        exact .inr ⟨frame, rfl, if_pos rfl⟩
      · exact .inl (if_neg mine)

/-- A step that takes no frame of the client writes no answer to it. -/
theorem answers_idle {fleet : Fleet Client Handler} {client : Client}
    {action : NetworkAction Client Handler} (none : fleet.taken client action = [])
    {place number : Nat}
    (answered : ((fleet.step accepts action).answers client)[place]? = some (some number)) :
    (fleet.answers client)[place]? = some (some number) := by
  simp only [Fleet.step, Fleet.answering, none, if_true] at answered
  rw [List.getElem?_append] at answered
  split at answered
  · exact answered
  · obtain ⟨-, equal⟩ := replicate_getElem? answered
    cases equal

/-- The answers of a step that takes a frame belong to this frame. -/
theorem Fleet.Sound.answering {fleet : Fleet Client Handler} (sound : fleet.Sound)
    {client : Client} {action : NetworkAction Client Handler} {frame : Frame}
    (takes : fleet.network.takes action = some (client, frame)) {place number : Nat}
    (answered : ((fleet.step accepts action).answers client)[place]? = some (some number)) :
    (fleet.answers client)[place]? = some (some number) ∨
      number = (fleet.handled client).length ∧ (fleet.network.wire client).length ≤ place ∧
        place < ((fleet.network.step accepts action).wire client).length := by
  simp only [Fleet.step, Fleet.answering, taken_some takes] at answered
  rw [List.getElem?_append] at answered
  split at answered
  · exact .inl answered
  · rename_i late
    obtain ⟨within, equal⟩ := replicate_getElem? answered
    cases equal
    have same := sound.length client
    exact .inr ⟨rfl, by omega, by omega⟩

theorem Fleet.Sound.step (accepts : Handler → Bytes → Bool) (fleet : Fleet Client Handler)
    (action : NetworkAction Client Handler) (sound : fleet.Sound) :
    (fleet.step accepts action).Sound where
  marked := sound.marked.step accepts fleet.network action
  length := by
    intro client
    have longer := (step_wire accepts fleet.network action client).length_le
    have same := sound.length client
    simp only [Fleet.step, List.length_append, List.length_replicate]
    omega
  answered := by
    intro client place number answered
    have extended := Fleet.Extends.step accepts fleet action
    have before (known : (fleet.answers client)[place]? = some (some number)) :
        ∃ frame answer cause,
          ((fleet.step accepts action).handled client)[number]? = some frame ∧
            ((fleet.step accepts action).network.wire client)[place]? = some (answer, cause) ∧
              answer.Answers frame := by
      obtain ⟨frame, answer, cause, found, there, answers⟩ :=
        sound.answered client place number known
      exact ⟨frame, answer, cause, prefix_getElem? (extended.handled client) found,
        prefix_getElem? (extended.wire client) there, answers⟩
    rcases taken_cases fleet client action with none | ⟨frame, takes, taken⟩
    · exact before (answers_idle none answered)
    · rcases sound.answering takes answered with known | ⟨rfl, late, within⟩
      · exact before known
      · cases network_moves accepts fleet.network action with
        | rests daemon wire silent =>
            rw [takes] at silent
            cases silent
        | writes actor written daemon wire silent =>
            rw [takes] at silent
            cases silent
        | serves served silent daemon same =>
            obtain ⟨extra, sent, answers⟩ := takes_answers (same ▸ takes)
            have wire := daemonStep_wire fleet.network served sent
            rw [daemon, wire, List.length_append, List.length_map] at within
            obtain ⟨answer, there⟩ :
                ∃ answer, extra[place - (fleet.network.wire client).length]? = some answer :=
              ⟨_, List.getElem?_eq_getElem (by omega)⟩
            refine ⟨frame, answer, fleet.network.origin served, ?_, ?_, ?_⟩
            · simp only [Fleet.step, taken, List.getElem?_append_right (Nat.le_refl _),
                Nat.sub_self, List.getElem?_cons_zero]
            · simp only [Fleet.step, daemon, wire, List.getElem?_append_right late,
                List.getElem?_map, there, Option.map_some]
            · exact answers answer (List.mem_of_getElem? there)
  busy := by
    intro client busy
    have kept (same : fleet.network.daemon.busy client = true) :
        ∃ frame : Frame, ((fleet.step accepts action).handled client).getLast? = some frame ∧
          frame.msg ≠ some .ping := by
      rcases taken_cases fleet client action with none | ⟨frame, takes, taken⟩
      · simp only [Fleet.step, none, List.append_nil]
        exact sound.busy client same
      · cases network_moves accepts fleet.network action with
        | rests daemon wire silent =>
            rw [takes] at silent
            cases silent
        | writes actor written daemon wire silent =>
            rw [takes] at silent
            cases silent
        | serves served silent daemon same' =>
            rw [takes_free (same' ▸ takes)] at same
            cases same
    change (fleet.network.step accepts action).daemon.busy client = true at busy
    cases network_moves accepts fleet.network action with
    | rests daemon => exact kept (daemon ▸ busy)
    | writes actor written daemon =>
        rw [daemon] at busy
        exact kept busy
    | serves served silent daemon takes =>
        rw [daemon] at busy
        rcases busy_step busy with same | ⟨frame, took, other⟩
        · exact kept same
        · refine ⟨frame, ?_, other⟩
          simp only [Fleet.step, taken_some (takes.trans took), List.getLast?_append,
            List.getLast?_singleton, Option.some_or]

theorem Fleet.Sound.reach (accepts : Handler → Bytes → Bool)
    (actions : List (NetworkAction Client Handler)) :
    (run (Fleet.step accepts) .initial actions).Sound :=
  run_invariant (Fleet.Sound.step accepts) actions _ .initial

variable {fleet first : Fleet Client Handler} {client : Client} {number : Nat}

/-- The daemon has handled the PING of a `sync` that has returned and every frame before it. -/
theorem Fleet.Sound.finished (sound : fleet.Sound) (synced : fleet.Synced client number) :
    number < fleet.finished client := by
  obtain ⟨ping, place, sent, kind, answered, -⟩ := synced
  obtain ⟨frame, -, -, handled, -⟩ := sound.answered client place number answered
  have within := (List.getElem?_eq_some_iff.mp handled).1
  have same : frame = ping := by
    rw [Fleet.sent, List.getElem?_append_left within, handled] at sent
    exact Option.some.inj sent
  unfold Fleet.finished
  split
  · rename_i busy
    obtain ⟨last, found, other⟩ := sound.busy client busy
    have apart : number ≠ (fleet.handled client).length - 1 := by
      rintro rfl
      rw [List.getLast?_eq_getElem?, handled] at found
      exact other (Option.some.inj found ▸ same ▸ kind)
    omega
  · exact within

/-- The node has read every frame that was written to it before the daemon took the PING. -/
theorem Fleet.Sound.read (sound : first.Sound) (grows : first.Extends fleet)
    (synced : fleet.Synced client number)
    (before : (first.handled client).length ≤ number) :
    (first.network.wire client).length < (fleet.network.node client).taken := by
  obtain ⟨-, place, -, -, answered, taken⟩ := synced
  by_contra unread
  have early : place < (first.answers client).length := by
    have length := sound.length client
    omega
  have known : (first.answers client)[place]? = some (some number) := by
    obtain ⟨more, extended⟩ := grows.answers client
    rwa [← extended, List.getElem?_append_left early] at answered
  obtain ⟨frame, -, -, handled, -⟩ := sound.answered client place number known
  have within := (List.getElem?_eq_some_iff.mp handled).1
  omega

end Chappe
