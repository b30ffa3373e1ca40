/-
This file proves what the frames of links do to one key of a store.
-/

import Chappe.Proof.Link.EchoAccounting
import Chappe.Proof.Kv.KeyLocality
import Chappe.Proof.Kv.Performed
import Chappe.Proof.Kv.Watching

namespace Chappe
open Foundation

theorem Side.other_ne (side : Side) : side.other ≠ side := by
  cases side <;> simp [Side.other]

theorem Side.other_other (side : Side) : side.other.other = side := by
  cases side <;> rfl

theorem Side.eq_or_other (side here : Side) : here = side ∨ here = side.other := by
  cases side <;> cases here <;> simp [Side.other]

/-- The frame asks for no change of the key. -/
def Frame.Spares (frame : Frame) (key : Bytes) : Prop :=
  ∀ change, frame.command = some change → change.key ≠ key

/-- The frame is one that a link sends. -/
def Frame.FromLink (frame : Frame) : Prop :=
  match KvRequest.ofFrame frame with
  | some (.setex _ _) | some (.incr _ _) | some (.setnx _ _ _) => False
  | _ => True

/-- The frame may change the key. -/
def Frame.Writes (frame : Frame) (key : Bytes) : Prop :=
  frame.name = key ∧
    match KvRequest.ofFrame frame with
    | none | some (.get _) => False
    | _ => True

/-- The frame is a get of the key. -/
def Frame.Gets (frame : Frame) (key : Bytes) : Prop :=
  frame.name = key ∧ ∃ id, KvRequest.ofFrame frame = some (.get id)

theorem command_key {frame : Frame} {change : Change} (command : frame.command = some change) :
    change.key = frame.name := by
  unfold Frame.command at command
  split at command
  · cases command
    rfl
  · cases command
    rfl
  · cases command

/-- Frames that report nothing about a key. -/
theorem reports_eq_zero {change : Change} {frames : List Frame}
    (silent : ∀ frame ∈ frames, ∀ told, frame.pushed = some told → told.key ≠ change.key) :
    reports change frames = 0 := by
  rw [reports, List.count_eq_zero]
  intro member
  obtain ⟨frame, among, pushed⟩ := List.mem_filterMap.mp member
  exact silent frame among change pushed rfl

/-- What the local loop leaves of a link. -/
theorem forward_kept (link : Link) (change : Change) :
    (link.forward change).peerPending = link.peerPending ∧
      (link.forward change).alive = link.alive ∧ (link.forward change).toPeer = link.toPeer ∧
      (link.forward change).foreign = link.foreign ∧
      (link.forward change).vetted = link.vetted := by
  unfold Link.forward
  split <;> exact ⟨rfl, rfl, rfl, rfl, rfl⟩

theorem localFrame_kept (config : LinkConfig) (link : Link) (frame : Frame) :
    (link.localFrame config frame).peerPending = link.peerPending ∧
      (link.localFrame config frame).alive = link.alive ∧
      (link.localFrame config frame).toPeer = link.toPeer ∧
      (link.localFrame config frame).foreign = link.foreign ∧
      (link.localFrame config frame).vetted = link.vetted := by
  unfold Link.localFrame
  split
  · split <;> exact ⟨rfl, rfl, rfl, rfl, rfl⟩
  · split
    · exact forward_kept _ _
    · exact ⟨rfl, rfl, rfl, rfl, rfl⟩

theorem localRead_kept (config : LinkConfig) (link : Link) :
    (link.localRead config).peerPending = link.peerPending ∧
      ((link.localRead config).alive = true → link.alive = true) ∧
      (link.localRead config).toPeer = link.toPeer ∧
      (link.localRead config).foreign = link.foreign ∧
      (link.localRead config).vetted = link.vetted := by
  unfold Link.localRead
  split
  · split
    · rename_i frame rest _ _ up _
      obtain ⟨pending, _, written, foreign, vetted⟩ :=
        localFrame_kept config { link with fromDaemon := rest } frame
      exact ⟨pending, fun _ => up, written, foreign, vetted⟩
    · exact ⟨rfl, Bool.noConfusion, rfl, rfl, rfl⟩
  · exact ⟨rfl, id, rfl, rfl, rfl⟩

theorem localSend_kept (link : Link) :
    link.localSend.peerPending = link.peerPending ∧ link.localSend.alive = link.alive ∧
      link.localSend.foreign = link.foreign ∧ link.localSend.vetted = link.vetted := by
  unfold Link.localSend
  split <;> exact ⟨rfl, rfl, rfl, rfl⟩

/-- What the peer loop leaves of a link. -/
theorem peerFrame_sides (config : LinkConfig) (link : Link) (frame : Frame) :
    (link.peerFrame config frame).toPeer = link.toPeer ∧
      (link.peerFrame config frame).localPending = link.localPending ∧
      (link.peerFrame config frame).fromDaemon = link.fromDaemon ∧
      (link.peerFrame config frame).foreign = link.foreign ∧
      ((link.peerFrame config frame).alive = true → link.alive = true) := by
  unfold Link.peerFrame
  split
  · split
    · exact ⟨rfl, rfl, rfl, rfl, id⟩
    · exact ⟨rfl, rfl, rfl, rfl, by simp⟩
  · split
    · split <;> exact ⟨rfl, rfl, rfl, rfl, id⟩
    · split
      · split <;> exact ⟨rfl, rfl, rfl, rfl, id⟩
      · exact ⟨rfl, rfl, rfl, rfl, id⟩

/-- What the peer loop is about to write for a frame of the peer. -/
theorem peerFrame_pending {config : LinkConfig} {link : Link} {frame write : Frame}
    (member : write ∈ (link.peerFrame config frame).peerPending) :
    write ∈ link.peerPending ∨ (∃ name payload, write = Msg.publish.frame name payload) ∨
      ∃ change, frame.command = some change ∧ write = change.frame := by
  unfold Link.peerFrame at member
  split at member
  · split at member <;> exact .inl member
  · split at member
    · split at member
      · cases member
        exact .inr (.inl ⟨_, _, rfl⟩)
      · exact .inl member
    · split at member
      · rename_i change command
        split at member
        · cases member
          exact .inr (.inr ⟨change, command, rfl⟩)
        · exact .inl member
      · exact .inl member

theorem localRead_sent (config : LinkConfig) (link : Link) :
    (link.localRead config).sent = link.sent := by
  unfold Link.localRead Link.localFrame Link.forward
  split
  · split
    · split
      · split <;> rfl
      · split
        · split <;> rfl
        · rfl
    · rfl
  · rfl

theorem peerFrame_sent (config : LinkConfig) (link : Link) (frame : Frame) :
    (link.peerFrame config frame).sent = link.sent := by
  unfold Link.peerFrame
  split
  · split <;> rfl
  · split
    · split <;> rfl
    · split
      · split <;> rfl
      · rfl

theorem change_gets (change : Change) (key : Bytes) : ¬ change.frame.Gets key := by
  cases change <;> simp [Frame.Gets, Change.frame, KvRequest.ofFrame]

theorem publish_gets (name payload key : Bytes) :
    ¬ (Msg.publish.frame name payload).Gets key := by
  simp [Frame.Gets, KvRequest.ofFrame]

theorem startup_fromLink {config : LinkConfig} {frame : Frame} (member : frame ∈ config.startup) :
    frame.FromLink := by
  rcases List.mem_append.mp member with topic | key
  · obtain ⟨name, -, rfl⟩ := List.mem_map.mp topic
    simp [Frame.FromLink, KvRequest.ofFrame]
  · obtain ⟨entry, -, rfl⟩ := List.mem_map.mp key
    simp [Frame.FromLink, KvRequest.ofFrame, appendU32]

theorem change_fromLink (change : Change) : change.frame.FromLink := by
  cases change <;> simp [Change.frame, Frame.FromLink, KvRequest.ofFrame]

theorem publish_fromLink (name payload : Bytes) : (Msg.publish.frame name payload).FromLink := by
  simp [Frame.FromLink, KvRequest.ofFrame]

theorem publish_spares (name payload key : Bytes) :
    (Msg.publish.frame name payload).Spares key := by
  intro change command
  rw [publish_command] at command
  cases command

theorem hello_spares (config : LinkConfig) (key : Bytes) : config.hello.Spares key := by
  have none : config.hello.command = none := rfl
  intro change command
  rw [none] at command
  cases command

variable {Client : Type} {key : Bytes}

/-- A frame that does not write the key is one that a link may send too. -/
theorem Frame.fromLink_of_reads {frame : Frame} (reads : ¬ frame.Writes key)
    (here : frame.name = key) : frame.FromLink := by
  unfold Frame.Writes at reads
  unfold Frame.FromLink
  cases request : KvRequest.ofFrame frame with
  | none => exact True.intro
  | some verb =>
      rw [request] at reads
      cases verb with
      | get id => exact True.intro
      | set value => exact True.intro
      | del => exact True.intro
      | setex ttlMs value => exact reads ⟨here, True.intro⟩
      | incr id delta => exact reads ⟨here, True.intro⟩
      | setnx id ttlMs value => exact reads ⟨here, True.intro⟩

theorem Frame.spares_of_reads {frame : Frame} (reads : ¬ frame.Writes key) :
    frame.Spares key := by
  intro change command about
  have here := (command_key command).symm.trans about
  unfold Frame.command at command
  split at command
  · rename_i kind
    exact reads ⟨here, by simp [KvRequest.ofFrame, kind]⟩
  · rename_i kind
    exact reads ⟨here, by simp [KvRequest.ofFrame, kind]⟩
  · cases command

theorem ofFrame_set {frame : Frame} {value : Bytes}
    (request : KvRequest.ofFrame frame = some (.set value)) : frame.msg = some .kvSet := by
  unfold KvRequest.ofFrame at request
  split at request <;> first | assumption | (split at request <;> cases request) | cases request

theorem ofFrame_del {frame : Frame} (request : KvRequest.ofFrame frame = some .del) :
    frame.msg = some .kvDel := by
  unfold KvRequest.ofFrame at request
  split at request <;> first | assumption | (split at request <;> cases request) | cases request

variable {store : Store Client}

theorem lapsed_forever (forever : store.expires key = none) (now : Nat) :
    store.lapsed key now = [] := by
  simp [Store.lapsed, Store.expired, forever]

variable [DecidableEq Client]

theorem dropIfExpired_forever (forever : store.expires key = none) (now : Nat) :
    store.dropIfExpired key now = (store, .silent) := by
  simp [Store.dropIfExpired, Store.expired, forever]

/-- A key without a deadline is changed by a frame of a link only on command. -/
theorem performed_forever (forever : store.expires key = none) {frame : Frame}
    (tame : frame.name = key → frame.FromLink) (spares : frame.Spares key) (now : Nat) :
    about key (store.performed now frame) = [] := by
  by_cases here : frame.name = key
  · subst key
    have shape := tame rfl
    unfold Frame.FromLink at shape
    unfold Store.performed
    cases request : KvRequest.ofFrame frame with
    | none => rfl
    | some verb =>
        rw [request] at shape
        cases verb with
        | set value =>
            have command : frame.command = some (.set frame.name frame.payload) := by
              simp [Frame.command, ofFrame_set request]
            exact absurd rfl (spares _ command)
        | del =>
            have command : frame.command = some (.del frame.name) := by
              simp [Frame.command, ofFrame_del request]
            exact absurd rfl (spares _ command)
        | get id => simp [KvRequest.checksDeadline, lapsed_forever forever, KvRequest.performed]
        | setex ttlMs value => exact shape.elim
        | incr id delta => exact shape.elim
        | setnx id ttlMs value => exact shape.elim
  · exact about_eq_nil fun change member about => here ((performed_name member).symm.trans about)

theorem sweepPerformed_forever (now : Nat) (keys : List Bytes) :
    ∀ store : Store Client, store.expires key = none →
      about key (store.sweepPerformed now keys) = [] := by
  induction keys with
  | nil => exact fun _ _ => rfl
  | cons name rest ih =>
      intro store forever
      rw [Store.sweepPerformed, about_append]
      by_cases here : name = key
      · subst name
        rw [lapsed_forever forever, dropIfExpired_forever forever, ih store forever]
        rfl
      · rw [about_eq_nil fun _ member same => here ((lapsed_key member).symm.trans same),
          List.nil_append]
        exact ih _ ((dropIfExpired_other (Ne.symm here) now).expires.trans forever)

/-- A key without a deadline keeps it that way under the frames of links. -/
theorem handleFrame_forever (forever : store.expires key = none) {frame : Frame}
    (tame : frame.name = key → frame.FromLink) (now later : Nat) (source : Client) :
    (store.handleFrame now later source frame).1.expires key = none := by
  by_cases here : frame.name = key
  · subst key
    have shape := tame rfl
    unfold Frame.FromLink at shape
    unfold Store.handleFrame
    cases request : KvRequest.ofFrame frame with
    | none => exact forever
    | some verb =>
        rw [request] at shape
        cases verb with
        | set value => simp [KvRequest.checksDeadline, Store.answer, Store.store]
        | del => simp [KvRequest.checksDeadline, Store.answer, Store.dropKey]
        | get id =>
            simp only [KvRequest.checksDeadline, dropIfExpired_forever forever, if_true]
            exact forever
        | setex ttlMs value => exact shape.elim
        | incr id delta => exact shape.elim
        | setnx id ttlMs value => exact shape.elim
  · exact (handleFrame_other here now later source).expires.trans forever

/-- A report about the key goes to a watcher after a command, or to the source of a get that
finds the key. -/
theorem handleFrame_reports (forever : store.expires key = none) {frame : Frame}
    (tame : frame.name = key → frame.FromLink) {now later : Nat} {source client : Client}
    {sent : Frame} (member : sent ∈ (store.handleFrame now later source frame).2 client)
    {told : Change} (pushed : sent.pushed = some told) (about : told.key = key) :
    (¬ frame.Spares key ∧ store.Watches client key) ∨
      (client = source ∧ frame.Gets key ∧ store.kv key ≠ none) := by
  have here : frame.name = key :=
    (handleFrame_name member).symm.trans ((pushed_key pushed).symm.trans about)
  clear about
  subst key
  have shape := tame rfl
  unfold Frame.FromLink at shape
  unfold Store.handleFrame at member
  cases request : KvRequest.ofFrame frame with
  | none =>
      simp only [request] at member
      cases member
  | some verb =>
      rw [request] at shape
      simp only [request] at member
      cases verb with
      | set value =>
          refine .inl ⟨?_, (mem_fanOut member).2⟩
          intro spares
          have kind := ofFrame_set request
          exact spares (.set frame.name frame.payload) (by simp [Frame.command, kind]) rfl
      | del =>
          refine .inl ⟨?_, (mem_fanOut member).2⟩
          intro spares
          have kind := ofFrame_del request
          exact spares (.del frame.name) (by simp [Frame.command, kind]) rfl
      | get id =>
          simp only [KvRequest.checksDeadline, dropIfExpired_forever forever, if_true, silent_then]
            at member
          obtain ⟨rfl, rfl⟩ := mem_sendTo member
          refine .inr ⟨rfl, ⟨rfl, id, request⟩, ?_⟩
          intro absent
          simp [Frame.pushed, kvReply, answerPayload, appendU32, littleEndian, absent] at pushed
      | setex ttlMs value => exact shape.elim
      | incr id delta => exact shape.elim
      | setnx id ttlMs value => exact shape.elim

/-- A frame starts a watch only for its source, and only when it is a get. -/
theorem handleFrame_watches {now later : Nat} {source client : Client} {frame : Frame}
    (watches : (store.handleFrame now later source frame).1.Watches client key) :
    store.Watches client key ∨ (client = source ∧ frame.Gets key) := by
  rcases handleFrame_watching store now later source frame with same | ⟨id, request, started⟩
  · exact .inl ((same.watches client key).mp watches)
  · rcases watch_watches.mp ((started.watches client key).mp watches) with before | ⟨mine, rfl⟩
    · exact .inl before
    · exact .inr ⟨mine, rfl, id, request⟩

theorem sweep_watches (now : Nat) (order : List Bytes) (client : Client) (name : Bytes) :
    (store.sweep now order).1.Watches client name ↔ store.Watches client name :=
  (sweep_watching store now order).watches client name

end Chappe
