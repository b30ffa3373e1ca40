/-
This file proves that a node reads nothing older than its own last write once its `sync` has
returned.
-/

import Chappe.Proof.Sync.Progress
import Chappe.Proof.Sync.Serving

namespace Chappe
open Foundation

variable {Client Handler : Type} [DecidableEq Client] {accepts : Handler → Bytes → Bool}

/-- What the daemon has written to a client that can still watch agrees with the store. -/
structure Daemon.Informs (daemon : Daemon Client) : Prop where
  open' : ∀ client, (daemon.life client).Watching → ∀ key, daemon.store.Watches client key →
    (daemon.life client).connected = true
  marked : ∀ client, (daemon.life client).Watching → ∀ key, ∀ frame ∈ daemon.broker.sent client,
    frame.Marks key → daemon.store.Watches client key
  agreed : ∀ client, (daemon.life client).Watching → ∀ key, daemon.store.Watches client key →
    entryAfter key none (daemon.broker.sent client) = daemon.store.kv key

/-- A client comes from an earlier life to a later one. -/
structure Life.Admits (before after : Life) : Prop where
  watching : after.Watching → before.Watching
  stays : after.Stays → before.Stays
  connected : after.Watching → before.connected = true → after.connected = true

theorem Life.Admits.refl (life : Life) : life.Admits life := ⟨id, id, fun _ => id⟩

theorem become_life {daemon next : Daemon Client} {actor : Client} {life : Life}
    (admits : (daemon.life actor).Admits life) (same : next.life = daemon.life)
    (client : Client) : (daemon.life client).Admits ((next.become actor life).life client) := by
  dsimp only [Daemon.become]
  by_cases mine : client = actor
  · rw [mine, Function.update_self]
    exact admits
  · rw [Function.update_of_ne mine, same]
    exact .refl _

theorem handleFrame_life {daemon next : Daemon Client} {actor : Client}
    (serving : daemon.life actor = .serving) (same : next.life = daemon.life) (frame : Frame)
    (now later : Nat) (client : Client) :
    (daemon.life client).Admits ((next.handleFrame actor frame now later).life client) := by
  have kept {changed : Daemon Client} (life : changed.life = daemon.life) :
      (daemon.life client).Admits (changed.life client) := by
    rw [life]
    exact .refl _
  unfold Daemon.handleFrame
  split
  · exact kept same
  · split
    · exact kept same
    · refine become_life ?_ same client
      rw [serving]
      exact ⟨id, id, fun _ => id⟩
  · exact kept same
  · exact kept same
  · exact kept same
  · exact kept same
  · exact kept same

/-- A client only goes forward through its lives. -/
theorem life_step (daemon : Daemon Client) (action : DaemonAction Client) (client : Client) :
    (daemon.life client).Admits ((daemon.step action).life client) := by
  cases action with
  | connect actor =>
      simp only [Daemon.step]
      split
      · rename_i absent
        refine become_life ?_ rfl client
        rw [absent]
        exact ⟨id, id, fun _ _ => rfl⟩
      · exact .refl _
  | arrive actor frame => exact .refl _
  | hangUp actor =>
      simp only [Daemon.step]
      split
      · rename_i serving _
        refine become_life ?_ rfl client
        rw [serving]
        exact ⟨id, False.elim, fun _ => id⟩
      · exact .refl _
  | sweep order read => exact .refl _
  | thread actor target order now later =>
      simp only [Daemon.step, Daemon.threadStep]
      split
      · exact .refl _
      · exact .refl _
      · rename_i serving
        split
        · split
          · exact .refl _
          · refine handleFrame_life serving ?_ _ now later client
            rfl
        · exact .refl _
      · rename_i inquiry report reporting
        have moves (changed : Daemon Client) (next : Life) (same : changed.life = daemon.life)
            (open' : next.connected = true) :
            (daemon.life client).Admits ((changed.become actor next).life client) := by
          refine become_life ?_ same client
          rw [reporting]
          exact ⟨fun _ => True.intro, fun _ => True.intro, fun _ _ => open'⟩
        unfold Daemon.inquire
        split
        · apply moves <;> rfl
        · split
          · apply moves <;> rfl
          · exact .refl _
        · apply moves <;> rfl
        · apply moves <;> rfl
        · apply moves <;> rfl
      · rename_i departure leaving
        unfold Daemon.depart
        split
        · refine become_life ?_ rfl client
          rw [leaving]
          exact ⟨id, False.elim, fun _ => id⟩
        · refine become_life ?_ rfl client
          rw [leaving]
          exact ⟨fun _ => True.intro, False.elim, fun watching => watching.elim⟩
        · refine become_life ?_ rfl client
          rw [leaving]
          exact ⟨False.elim, False.elim, fun watching => watching.elim⟩
        · refine become_life ?_ rfl client
          rw [leaving]
          exact ⟨False.elim, False.elim, fun watching => watching.elim⟩

omit [DecidableEq Client] in
theorem Daemon.Informs.initial : (Daemon.initial : Daemon Client).Informs where
  open' := fun _ _ _ watches => absurd watches (Finset.notMem_empty _)
  marked := fun _ _ _ _ member => absurd member List.not_mem_nil
  agreed := fun _ _ _ watches => absurd watches (Finset.notMem_empty _)

theorem Daemon.Informs.step (daemon : Daemon Client) (action : DaemonAction Client)
    (informs : daemon.Informs) : (daemon.step action).Informs := by
  have admits := life_step daemon action
  have serves (key : Bytes) := daemon_serves key daemon action
  cases serves [] with
  | writes outbox asks tells asked sent =>
      have open' (client : Client) (watching : ((daemon.step action).life client).Watching)
          (key : Bytes) (watches : (daemon.step action).store.Watches client key) :
          (daemon.life client).connected = true :=
        (asked client key watches).elim
          (informs.open' client ((admits client).watching watching) key) id
      refine ⟨?_, ?_, ?_⟩
      · intro client watching key watches
        exact (admits client).connected watching (open' client watching key watches)
      · intro client watching key frame member marks
        rw [sent, List.mem_append] at member
        rcases member with before | written
        · exact tells.kept client key
            (informs.marked client ((admits client).watching watching) key frame before marks)
        · split at written
          · exact tells.marked client key frame written marks
          · cases written
      · intro client watching key watches
        rw [sent, if_pos (open' client watching key watches), entryAfter_append]
        exact tells.told client key _ watches
          (informs.agreed client ((admits client).watching watching) key)
  | removes actor store left sent =>
      have watches (client : Client) (watching : ((daemon.step action).life client).Watching)
          (key : Bytes) : (daemon.step action).store.Watches client key ↔
            daemon.store.Watches client key := by
        have other : client ≠ actor := by
          rintro rfl
          exact left watching
        rw [store, removeClient_watches]
        simp [other]
      have kv : (daemon.step action).store.kv = daemon.store.kv := by
        rw [store]
        rfl
      refine ⟨?_, ?_, ?_⟩
      · intro client watching key present
        exact (admits client).connected watching (informs.open' client
          ((admits client).watching watching) key ((watches client watching key).mp present))
      · intro client watching key frame member marks
        rw [sent] at member
        exact (watches client watching key).mpr
          (informs.marked client ((admits client).watching watching) key frame member marks)
      · intro client watching key present
        rw [sent, kv]
        exact informs.agreed client ((admits client).watching watching) key
          ((watches client watching key).mp present)

variable {key value : Bytes}

omit [DecidableEq Client] in
theorem Left.mono {later : List (Recorded Client)} {found : Option Bytes}
    (left : Left key value later found) (more : List (Recorded Client)) :
    Left key value (later ++ more) found :=
  left.imp_right fun ⟨entry, member, about⟩ => ⟨entry, List.mem_append_left more member, about⟩

omit [DecidableEq Client] in
/-- What a change of a step has left is in the record. -/
theorem LeftBy.recorded {changes : List Change} {found : Option Bytes}
    (left : LeftBy key changes found) (later : List (Recorded Client))
    (cause : Option (Client × Nat)) :
    Left key value (later ++ changes.map fun change => ⟨change, cause⟩) found := by
  obtain ⟨change, member, about, found⟩ := left
  refine .inr ⟨⟨change, cause⟩, List.mem_append_right _ (List.mem_map_of_mem member), about, found⟩

omit [DecidableEq Client] in
/-- Changes leave what the last one of them leaves. -/
theorem foldl_about (key : Bytes) (changes : List Change) (start : Option Bytes) :
    (about key changes).foldl Change.apply start = start ∨
      LeftBy key changes ((about key changes).foldl Change.apply start) := by
  rcases List.eq_nil_or_concat (about key changes) with none | ⟨earlier, last, split⟩
  · left
    rw [none]
    rfl
  · have member : last ∈ about key changes := by simp [split]
    obtain ⟨among, here⟩ := mem_about.mp member
    refine .inr ⟨last, among, here, ?_⟩
    rw [split, List.concat_eq_append, List.foldl_append]
    cases last <;> rfl

/-- The fleet has gone on since an earlier state in which the key got the value. The store and every
frame that was written to the client since then tell of this value or of a later one. -/
structure Fleet.Since (fleet start : Fleet Client Handler) (key value : Bytes) (client : Client)
    (later : List (Recorded Client)) : Prop where
  changes : fleet.changes = start.changes ++ later
  stored : Left key value later (fleet.network.daemon.store.kv key)
  written : ∃ more, fleet.network.daemon.broker.sent client =
    start.network.daemon.broker.sent client ++ more ∧
      ∀ frame ∈ more, frame.Leaves key (Left key value later)

variable {client : Client} {start fleet : Fleet Client Handler}
  {later : List (Recorded Client)}

/-- A step of the daemon that performs changes of the store. -/
theorem Fleet.Since.serve (since : fleet.Since start key value client later)
    {served : DaemonAction Client} {next : Fleet Client Handler} {cause : Option (Client × Nat)}
    (daemon : next.network.daemon = fleet.network.daemon.step served)
    (changes : next.changes = fleet.changes ++
      (fleet.network.daemon.performs served).map fun change => ⟨change, cause⟩) :
    ∃ later, next.Since start key value client later := by
  obtain ⟨more, before, leaves⟩ := since.written
  have stored : Left key value
      (later ++ (fleet.network.daemon.performs served).map fun change => ⟨change, cause⟩)
      ((fleet.network.daemon.step served).store.kv key) := by
    cases daemon_serves key fleet.network.daemon served with
    | writes outbox asks tells asked sent kv =>
        rw [kv]
        rcases foldl_about key (fleet.network.daemon.performs served)
          (fleet.network.daemon.store.kv key) with same | left
        · rw [same]
          exact since.stored.mono _
        · exact left.recorded later cause
    | removes actor store =>
        rw [store]
        exact since.stored.mono _
  have kept : ∀ frame ∈ more, frame.Leaves key (Left key value
      (later ++ (fleet.network.daemon.performs served).map fun change => ⟨change, cause⟩)) :=
    fun frame member => (leaves frame member).mono fun found left => left.mono _
  refine ⟨_, ⟨?_, daemon ▸ stored, ?_⟩⟩
  · rw [changes, since.changes, List.append_assoc]
  · rw [daemon]
    cases daemon_serves key fleet.network.daemon served with
    | writes outbox asks tells asked sent kv told =>
        refine ⟨_, by rw [sent, before, List.append_assoc], ?_⟩
        intro frame member
        rcases List.mem_append.mp member with early | written
        · exact kept frame early
        · split at written
          · apply (told client frame written).mono
            rintro found (rfl | left)
            · exact stored
            · exact left.recorded later cause
          · cases written
    | removes actor store left sent => exact ⟨more, by rw [sent, before], kept⟩

theorem Fleet.Since.step (accepts : Handler → Bytes → Bool)
    (action : NetworkAction Client Handler) (since : fleet.Since start key value client later) :
    ∃ later, (fleet.step accepts action).Since start key value client later := by
  have rests {next : Fleet Client Handler} (changes : next.changes = fleet.changes)
      (store : next.network.daemon.store = fleet.network.daemon.store)
      (sent : next.network.daemon.broker.sent = fleet.network.daemon.broker.sent) :
      ∃ later, next.Since start key value client later :=
    ⟨later, changes.trans since.changes, store ▸ since.stored, sent ▸ since.written⟩
  cases network_moves accepts fleet.network action with
  | rests daemon wire takes performs =>
      apply rests
      · simp only [Fleet.step, performs, List.map_nil, List.append_nil]
      · simp only [Fleet.step, daemon]
      · simp only [Fleet.step, daemon]
  | writes actor frame daemon wire takes performs =>
      apply rests
      · simp only [Fleet.step, performs, List.map_nil, List.append_nil]
      · simp only [Fleet.step, daemon, Daemon.step]
      · simp only [Fleet.step, daemon, Daemon.step]
  | serves served silent daemon takes performs =>
      have changes : (fleet.step accepts action).changes = fleet.changes ++
          (fleet.network.daemon.performs served).map
            fun change => ⟨change, fleet.cause action⟩ := by
        simp only [Fleet.step, performs]
      exact since.serve (congrArg Network.daemon daemon) changes

theorem Fleet.Since.reach (accepts : Handler → Bytes → Bool)
    (since : start.Since start key value client [])
    (actions : List (NetworkAction Client Handler)) :
    ∃ later, (run (Fleet.step accepts) start actions).Since start key value client later := by
  have keep (fleet : Fleet Client Handler) (action : NetworkAction Client Handler)
      (held : ∃ later, fleet.Since start key value client later) :
      ∃ later, (fleet.step accepts action).Since start key value client later := by
    obtain ⟨later, since⟩ := held
    exact since.step accepts action
  exact run_invariant keep actions start ⟨[], since⟩

/-- The daemon informs its clients in every run of the network. -/
theorem informs_step (accepts : Handler → Bytes → Bool) (fleet : Fleet Client Handler)
    (action : NetworkAction Client Handler) (informs : fleet.network.daemon.Informs) :
    (fleet.step accepts action).network.daemon.Informs := by
  change (fleet.network.step accepts action).daemon.Informs
  cases network_moves accepts fleet.network action with
  | rests daemon => exact daemon ▸ informs
  | writes actor frame daemon =>
      rw [daemon]
      exact informs.step _ _
  | serves served silent daemon =>
      rw [daemon]
      exact informs.step _ _

/-- A client whose frame is taken stays among the watchers. -/
theorem takes_watching {daemon : Daemon Client} {action : DaemonAction Client} {frame : Frame}
    (takes : daemon.takes action = some (client, frame)) :
    ((daemon.step action).life client).Watching := by
  obtain ⟨serving, -, _, _, _, _, _, -, -, handled⟩ := takes_some takes
  have stays {next : Daemon Client} (same : next.life client = daemon.life client) :
      (next.life client).Watching := by
    rw [same, serving]
    exact True.intro
  rw [handled]
  unfold Daemon.handleFrame
  split
  · exact stays rfl
  · split
    · exact stays rfl
    · dsimp only [Daemon.become]
      rw [Function.update_self]
      exact True.intro
  · exact stays rfl
  · exact stays rfl
  · exact stays rfl
  · exact stays rfl
  · exact stays rfl

/-- A `set` performs one change. -/
theorem performed_stores (store : Store Client) (now : Nat) {frame : Frame}
    (stores : frame.stores = some value) :
    store.performed now frame = [.set frame.name value] := by
  unfold Frame.stores at stores
  unfold Store.performed
  split at stores
  · rename_i set
    cases stores
    rw [set]
    rfl
  · rename_i setex
    cases stores
    rw [setex]
    rfl
  · cases stores

theorem readFrames_cache (node : NodeKv) (frames : List Frame) (key : Bytes) :
    (node.readFrames frames).cache key = entryAfter key (node.cache key) frames := by
  unfold NodeKv.readFrames entryAfter
  induction frames generalizing node with
  | nil => rfl
  | cons frame rest ih => rw [List.foldl_cons, List.foldl_cons, ih, readFrame_cache]

theorem readFrames_watched {node : NodeKv} {frames : List Frame}
    (watched : key ∈ (node.readFrames frames).watched) :
    key ∈ node.watched ∨ ∃ frame ∈ frames, frame.Marks key := by
  unfold NodeKv.readFrames at watched
  induction frames generalizing node with
  | nil => exact .inl watched
  | cons frame rest ih =>
      rcases ih watched with before | ⟨marking, member, marks⟩
      · rcases readFrame_watched before with earlier | marks
        · exact .inl earlier
        · exact .inr ⟨frame, List.mem_cons_self, marks⟩
      · exact .inr ⟨marking, List.mem_cons_of_mem _ member, marks⟩

/-- The record at the end of a step that handles a `set`. -/
theorem stores_since (accepts : Handler → Bytes → Bool) (client : Client)
    {action : NetworkAction Client Handler} {actor : Client} {frame : Frame}
    (takes : fleet.network.takes action = some (actor, frame))
    (stores : frame.stores = some value) :
    (fleet.step accepts action).changes = fleet.changes ++
        [⟨.set frame.name value, some (actor, (fleet.handled actor).length)⟩] ∧
      (fleet.step accepts action).Since (fleet.step accepts action) frame.name value client [] ∧
      (fleet.step accepts action).network.daemon.store.kv frame.name = some value ∧
      ((fleet.step accepts action).network.daemon.life actor).Watching := by
  cases network_moves accepts fleet.network action with
  | rests daemon wire silent =>
      rw [takes] at silent
      cases silent
  | writes receiver written daemon wire silent =>
      rw [takes] at silent
      cases silent
  | serves served silent daemon same performs =>
      have took : fleet.network.daemon.takes served = some (actor, frame) := same ▸ takes
      obtain ⟨-, -, target, order, now, later, rest, rfl, -⟩ := takes_some took
      have performed : fleet.network.performs action = [.set frame.name value] := by
        rw [performs, performs_taken took, performed_stores _ now stores]
      have stored : (fleet.step accepts action).network.daemon.store.kv frame.name =
          some value := by
        change (fleet.network.step accepts action).daemon.store.kv frame.name = some value
        rw [daemon]
        cases daemon_serves frame.name fleet.network.daemon
            (.thread actor target order now later) with
        | writes outbox asks tells asked sent kv =>
            have here : (Change.set frame.name value).key = frame.name := rfl
            rw [← performs, performed, about_single, if_pos here] at kv
            exact kv
        | removes gone store left sent none =>
            rw [← performs, performed] at none
            cases none
      refine ⟨?_, ⟨(List.append_nil _).symm, .inl stored, ⟨[], (List.append_nil _).symm, ?_⟩⟩,
        stored, ?_⟩
      · simp only [Fleet.step, performed, Fleet.cause, takes, List.map_cons, List.map_nil,
          Option.map_some]
      · exact fun _ member => absurd member List.not_mem_nil
      · change ((fleet.network.step accepts action).daemon.life actor).Watching
        rw [daemon]
        exact takes_watching took

/-- The state in which the daemon takes the frame of the given number. -/
theorem taking_point (accepts : Handler → Bytes → Bool) {number : Nat}
    {actions : List (NetworkAction Client Handler)}
    (before : (start.handled client).length ≤ number)
    (handled : number < ((run (Fleet.step accepts) start actions).handled client).length) :
    ∃ earlier action rest frame, actions = earlier ++ action :: rest ∧
      (run (Fleet.step accepts) start earlier).network.takes action = some (client, frame) ∧
      ((run (Fleet.step accepts) start earlier).handled client).length = number ∧
      ((run (Fleet.step accepts) start actions).handled client)[number]? = some frame := by
  obtain ⟨earlier, action, rest, rfl, early, after⟩ :=
    run_crossing (fun fleet : Fleet Client Handler => number < (fleet.handled client).length)
      before.not_gt handled
  have grows := Fleet.Extends.run accepts rest
    ((run (Fleet.step accepts) start earlier).step accepts action)
  rw [run_append]
  rcases taken_cases (run (Fleet.step accepts) start earlier) client action with
    none | ⟨frame, takes, taken⟩
  · simp only [Fleet.step, none, List.append_nil] at after
    exact absurd after early
  · simp only [Fleet.step, taken, List.length_append, List.length_singleton] at after
    have length : ((run (Fleet.step accepts) start earlier).handled client).length = number := by
      omega
    refine ⟨earlier, action, rest, frame, rfl, takes, length, ?_⟩
    apply prefix_getElem? (grows.handled client)
    simp only [Fleet.step, taken, ← length, List.getElem?_append_right (Nat.le_refl _),
      Nat.sub_self, List.getElem?_cons_zero]

/-- A frame on the wire beyond its part at the start is one of those written since then. -/
theorem Fleet.Since.beyond (since : fleet.Since start key value client later)
    (before : start.network.Marked) (marked : fleet.network.Marked) {place : Nat}
    (beyond : (start.network.wire client).length ≤ place) {entry : Frame × Option (Client × Nat)}
    (there : (fleet.network.wire client)[place]? = some entry) :
    entry.1.Leaves key (Left key value later) := by
  obtain ⟨more, written, leaves⟩ := since.written
  have frame : (fleet.network.daemon.broker.sent client)[place]? = some entry.1 := by
    rw [← marked.wire, List.getElem?_map, there, Option.map_some]
  have length : (start.network.daemon.broker.sent client).length ≤ place := by
    rw [← before.wire, List.length_map]
    exact beyond
  rw [written, List.getElem?_append_right length] at frame
  exact leaves entry.1 (List.mem_of_getElem? frame)

/-- A node that has read what was written to it at the start finds the value or a later one. -/
theorem Fleet.Since.get (since : fleet.Since start key value client later)
    (before : start.network.Marked) (marked : fleet.network.Marked)
    (read : (start.network.wire client).length ≤ (fleet.network.node client).taken)
    (agreed : (∃ frame ∈ start.network.daemon.broker.sent client, frame.Marks key) →
      entryAfter key none (start.network.daemon.broker.sent client) = some value)
    {found : Option Bytes} (got : (fleet.kv client).get key = some found) :
    Left key value later found := by
  obtain ⟨more, written, leaves⟩ := since.written
  have length : (start.network.daemon.broker.sent client).length ≤
      (fleet.network.node client).taken := by
    rw [← before.wire, List.length_map]
    exact read
  have frames : ((fleet.network.wire client).take (fleet.network.node client).taken).map Prod.fst =
      start.network.daemon.broker.sent client ++ more.take ((fleet.network.node client).taken -
        (start.network.daemon.broker.sent client).length) := by
    rw [List.map_take, marked.wire, written, List.take_append,
      List.take_of_length_le length]
  unfold NodeKv.get at got
  split at got
  · rename_i watched
    cases got
    rw [Fleet.kv, readFrames_cache, frames]
    rw [Fleet.kv, frames] at watched
    rcases readFrames_watched watched with never | marks
    · cases never
    · exact entryAfter_leaves _ (fun marked => .inl (agreed marked))
        (fun frame member => leaves frame (List.mem_of_mem_take member)) marks
  · cases got

/-- An answer to a later frame is written later. -/
theorem Fleet.Sound.afterwards (sound : start.Sound) (grows : start.Extends fleet)
    {number place : Nat} (late : (start.sent client).length ≤ number)
    (answered : (fleet.answers client)[place]? = some (some number)) :
    (start.network.wire client).length ≤ place := by
  by_contra within
  obtain ⟨more, extended⟩ := grows.answers client
  rw [← extended, List.getElem?_append_left (by rw [sound.length client]; omega)] at answered
  obtain ⟨frame, -, -, handled, -⟩ := sound.answered client place number answered
  have bound := (List.getElem?_eq_some_iff.mp handled).1
  rw [Fleet.sent, List.length_append] at late
  omega

/-- The `get` of a node after a `sync` finds the value that was set before it, or a later one. -/
theorem Fleet.Sound.reads {last final : Fleet Client Handler}
    {action : NetworkAction Client Handler} {frame : Frame} {number : Nat}
    (sound : start.Sound) (informs : (start.step accepts action).network.daemon.Informs)
    (takes : start.network.takes action = some (client, frame))
    (stores : frame.stores = some value) (between : last.Sound) (finally' : final.Sound)
    (toLast : (start.step accepts action).Extends last) (toFinal : last.Extends final)
    (reach : ∀ other,
      (start.step accepts action).Since (start.step accepts action) frame.name value other [] →
        ∃ later, final.Since (start.step accepts action) frame.name value other later)
    (synced : last.Synced client number) (earlier : (start.handled client).length < number) :
    ∃ after, final.changes = start.changes ++
        ⟨.set frame.name value, some (client, (start.handled client).length)⟩ :: after ∧
      ∀ other, (other = client ∨ last.network.wire other = []) →
        (∀ found, (final.kv other).get frame.name = some found →
          Left frame.name value after found) ∧
        ∀ request found, (last.sent other).length ≤ request →
          final.Replied other request frame.name found → Left frame.name value after found := by
  have entered := sound.step accepts start action
  obtain ⟨after, changed⟩ := (toLast.trans toFinal).changes
  obtain ⟨changes, -, stored, watching⟩ := stores_since accepts client takes stores
  refine ⟨after, by rw [← changed, changes, List.append_assoc]; rfl, ?_⟩
  intro other placed
  obtain ⟨-, since, -⟩ := stores_since accepts other takes stores
  obtain ⟨later, since⟩ := reach other since
  have same : later = after := List.append_cancel_left (since.changes.symm.trans changed.symm)
  subst later
  constructor
  · intro found got
    refine since.get entered.marked finally'.marked ?_ ?_ got
    · rcases placed with rfl | unwritten
      · have handled : ((start.step accepts action).handled other).length ≤ number := by
          simp only [Fleet.step, taken_some takes, List.length_append, List.length_singleton]
          omega
        have read := entered.read toLast synced handled
        exact read.le.trans (toFinal.taken other)
      · have nothing := (toLast.wire other).length_le
        rw [unwritten, List.length_nil] at nothing
        omega
    · rintro ⟨marking, member, marks⟩
      rcases placed with rfl | unwritten
      · have watches := informs.marked other watching frame.name marking member marks
        rw [informs.agreed other watching frame.name watches, stored]
      · have nothing := List.prefix_nil.mp (unwritten ▸ toLast.wire other)
        rw [← entered.marked.wire, nothing] at member
        cases member
  · rintro request found late
      ⟨get, reply, place, cause, sent, kind, name, answered, -, there, answer, rfl⟩
    have beyond := (toLast.wire other).length_le.trans
      (between.afterwards toFinal late answered)
    obtain ⟨asked, written, origin, handled, found, answers⟩ :=
      finally'.answered other place request answered
    have asking : asked = get := by
      rw [Fleet.sent, List.getElem?_append_left (List.getElem?_eq_some_iff.mp handled).1,
        handled] at sent
      exact Option.some.inj sent
    rw [there] at found
    cases found
    have about : reply.name = frame.name := by
      rw [answers.2 (asking ▸ kind), asking, name]
    exact (since.beyond entered.marked finally'.marked beyond there).reply answer about

/-- After a `sync` a node reads the value that it has set before, or what a later change left. -/
theorem synced_reads (accepts : Handler → Bytes → Bool)
    {actions more : List (NetworkAction Client Handler)} {number place : Nat} {frame : Frame}
    (synced : (run (Fleet.step accepts) .initial actions).Synced client number)
    (earlier : place < number)
    (sent : ((run (Fleet.step accepts) .initial actions).sent client)[place]? = some frame)
    (stores : frame.stores = some value) :
    ∃ before after, (run (Fleet.step accepts) .initial (actions ++ more)).changes =
        before ++ ⟨.set frame.name value, some (client, place)⟩ :: after ∧
      ∀ other, (other = client ∨
          (run (Fleet.step accepts) .initial actions).network.wire other = []) →
        (∀ found, ((run (Fleet.step accepts) .initial (actions ++ more)).kv other).get
          frame.name = some found → Left frame.name value after found) ∧
        ∀ request found,
          ((run (Fleet.step accepts) .initial actions).sent other).length ≤ request →
          (run (Fleet.step accepts) .initial (actions ++ more)).Replied other request
            frame.name found → Left frame.name value after found := by
  have between := Fleet.Sound.reach accepts actions
  have finished := Fleet.Sound.reach accepts (actions ++ more)
  have past : number < ((run (Fleet.step accepts) .initial actions).handled client).length :=
    (between.finished synced).trans_le (Nat.sub_le _ _)
  obtain ⟨first, action, rest, taken, rfl, takes, length, found⟩ :=
    taking_point accepts (Nat.zero_le _) (earlier.trans past)
  have same : taken = frame := by
    rw [Fleet.sent, List.getElem?_append_left (earlier.trans past), found] at sent
    exact Option.some.inj sent
  subst taken place
  have sound := Fleet.Sound.reach accepts first
  have informs := informs_step accepts _ action
    (run_invariant (informs_step accepts) first .initial Daemon.Informs.initial)
  have toLast := Fleet.Extends.run accepts rest
    ((run (Fleet.step accepts) .initial first).step accepts action)
  rw [run_append] at finished ⊢
  have toFinal := Fleet.Extends.run accepts more
    (run (Fleet.step accepts) .initial (first ++ action :: rest))
  rw [run_append _ _ first] at between finished toFinal synced ⊢
  refine ⟨_, sound.reads informs takes stores between finished toLast toFinal ?_ synced earlier⟩
  intro other since
  have reached := since.reach accepts (rest ++ more)
  rw [run_append] at reached
  exact reached

end Chappe
