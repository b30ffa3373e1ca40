/-
This file proves that the frames on the connections of a node belong to the calls that were sent on
them, and that a pending call is on a connection that the reader still knows.
-/

import Chappe.Foundation.Queue
import Chappe.Proof.Requests.Calls

namespace Chappe
open Foundation

variable {Thread Client : Type}

/-- The thread has not yet sent the frame of the call. -/
def Caller.Unsent (call : Nat) : Caller → Prop
  | .numbered _ own | .parked _ own => own = call
  | _ => False

/-- The connection that the reader still reads from. -/
def ReaderPlace.connection : ReaderPlace → Option Nat
  | .reading connection | .answering connection _ _ _ | .setting connection _ _ => some connection
  | _ => none

/-- The descriptor that `fd_` has while the reader is at its place. -/
def ReaderPlace.descriptor : ReaderPlace → Option Nat
  | .closing connection => some connection
  | place => place.connection

/-- The reader still reads from the connection, or has yet to run `fail_pending` for it. -/
def ReaderPlace.Tracks (connection : Nat) : ReaderPlace → Prop
  | .clearing current | .failing current => current = connection
  | place => place.descriptor = some connection

/-- The frames on the connections belong to the calls that were sent on them. -/
structure Exchange.Wired (exchange : Exchange Thread Client) : Prop where
  asked : ∀ connection call frame, (some call, frame) ∈ exchange.uplink connection →
    answerId frame.payload = wireId call ∧ exchange.sentOn call = some connection
  posted : ∀ connection frame, (none, frame) ∈ exchange.uplink connection →
    ∃ msg, frame.msg = some msg ∧ msg.isPost = true
  tagged : ∀ connection call frame, (some call, frame) ∈ exchange.written connection →
    exchange.sentOn call = some connection
  answers : ∀ connection tag frame, (tag, frame) ∈ exchange.written connection →
    ∀ answer, frame.fulfills = some answer → ∃ call, tag = some call ∧ answer.1 = wireId call
  unread : ∀ connection, ∀ entry ∈ exchange.unread connection, entry ∈ exchange.written connection
  answering : ∀ connection tag id value, exchange.reader = .answering connection tag id value →
    ∃ frame, (tag, frame) ∈ exchange.written connection ∧ frame.fulfills = some (id, value)
  unsent : ∀ call, exchange.nextReq ≤ call ∨ (∃ thread, (exchange.caller thread).Unsent call) →
    exchange.sentOn call = none

/-- The descriptor follows the reader, and a pending call that was sent is still tracked. -/
structure Exchange.Linked (exchange : Exchange Thread Client) : Prop where
  descriptor : exchange.fd = exchange.reader.descriptor
  opened : ∀ connection, exchange.reader.descriptor = some connection →
    connection < exchange.connections
  used : ∀ call connection, exchange.sentOn call = some connection →
    connection < exchange.connections
  tracked : ∀ id call connection, exchange.pending id = some call →
    exchange.sentOn call = some connection → exchange.reader.Tracks connection

variable {exchange next : Exchange Thread Client}

theorem Caller.Unsent.call {place : Caller} {call : Nat} (unsent : place.Unsent call) :
    place.call = some call := by
  cases place with
  | numbered request own => exact congrArg some unsent
  | parked request own => exact congrArg some unsent
  | idle | releasing | setting | waiting => exact unsent.elim

theorem ReaderPlace.tracks_of_descriptor {place : ReaderPlace} {connection : Nat}
    (current : place.descriptor = some connection) : place.Tracks connection := by
  cases place with
  | reading | answering | setting | closing => exact current
  | clearing | failing | dialing => cases current

theorem Exchange.Wired.initial (store : Store (Nat ⊕ Client)) :
    (Exchange.initial store : Exchange Thread Client).Wired :=
  ⟨nofun, nofun, nofun, nofun, nofun, nofun, fun _ _ => rfl⟩

theorem Exchange.Linked.initial (store : Store (Nat ⊕ Client)) :
    (Exchange.initial store : Exchange Thread Client).Linked := by
  refine ⟨rfl, ?_, nofun, nofun⟩
  intro connection same
  cases same
  exact Nat.zero_lt_one

/-- A step that leaves the frames on the connections where they are. -/
theorem Exchange.Wired.mono (wired : exchange.Wired) (uplink : next.uplink = exchange.uplink)
    (written : next.written = exchange.written) (sentOn : next.sentOn = exchange.sentOn)
    (unread : ∀ connection, ∀ entry ∈ next.unread connection, entry ∈ exchange.unread connection)
    (answering : ∀ connection tag id value, next.reader = .answering connection tag id value →
      exchange.reader = .answering connection tag id value)
    (unsent : ∀ call, next.nextReq ≤ call ∨ (∃ thread, (next.caller thread).Unsent call) →
      exchange.nextReq ≤ call ∨ ∃ thread, (exchange.caller thread).Unsent call) : next.Wired := by
  refine ⟨?_, ?_, ?_, ?_, ?_, ?_, ?_⟩
  · rw [uplink, sentOn]
    exact wired.asked
  · rw [uplink]
    exact wired.posted
  · rw [written, sentOn]
    exact wired.tagged
  · rw [written]
    exact wired.answers
  · intro connection entry member
    rw [written]
    exact wired.unread connection entry (unread connection entry member)
  · intro connection tag id value here
    rw [written]
    exact wired.answering connection tag id value (answering connection tag id value here)
  · intro call fresh
    rw [sentOn]
    exact wired.unsent call (unsent call fresh)

/-- The reader takes the next frame of its connection. -/
theorem Exchange.Wired.read (wired : exchange.Wired) {connection : Nat} {tag : Option Nat}
    {frame : Frame} {rest : List (Option Nat × Frame)}
    (next : exchange.unread connection = (tag, frame) :: rest) {place : ReaderPlace}
    (answers : ∀ other own id value, place = .answering other own id value →
      other = connection ∧ own = tag ∧ frame.fulfills = some (id, value)) :
    ({ exchange with
      unread := Function.update exchange.unread connection rest
      reader := place } : Exchange Thread Client).Wired := by
  have all : ∀ entry ∈ (tag, frame) :: rest, entry ∈ exchange.written connection := by
    rw [← next]
    exact wired.unread connection
  refine ⟨wired.asked, wired.posted, wired.tagged, wired.answers, ?_, ?_, wired.unsent⟩
  · intro other entry member
    exact wired.unread other entry (mem_dequeue next member)
  · intro other own id value here
    obtain ⟨rfl, rfl, fulfills⟩ := answers other own id value here
    exact ⟨frame, all _ List.mem_cons_self, fulfills⟩

/-- The node writes a frame to its connection. -/
theorem Exchange.Wired.send (wired : exchange.Wired) {connection : Nat}
    {entry : Option Nat × Frame}
    (asked : ∀ call, entry.1 = some call →
      answerId entry.2.payload = wireId call ∧ exchange.sentOn call = some connection)
    (posted : entry.1 = none → ∃ msg, entry.2.msg = some msg ∧ msg.isPost = true) :
    (exchange.send connection entry).Wired := by
  refine ⟨?_, ?_, wired.tagged, wired.answers, wired.unread, wired.answering, wired.unsent⟩
  · intro other call frame member
    rcases mem_enqueue member with before | ⟨rfl, rfl⟩
    · exact wired.asked other call frame before
    · exact asked call rfl
  · intro other frame member
    rcases mem_enqueue member with before | ⟨rfl, rfl⟩
    · exact wired.posted other frame before
    · exact posted rfl

/-- A step that sends nothing and leaves the link as it is. -/
theorem Exchange.Linked.mono (linked : exchange.Linked) (fd : next.fd = exchange.fd)
    (place : next.reader.descriptor = exchange.reader.descriptor)
    (tracks : ∀ connection, exchange.reader.Tracks connection → next.reader.Tracks connection)
    (count : next.connections = exchange.connections) (sentOn : next.sentOn = exchange.sentOn)
    (pending : ∀ id call, next.pending id = some call → exchange.pending id = some call) :
    next.Linked := by
  refine ⟨?_, ?_, ?_, ?_⟩
  · rw [fd, place]
    exact linked.descriptor
  · rw [place, count]
    exact linked.opened
  · rw [sentOn, count]
    exact linked.used
  · intro id call connection waits sent
    rw [sentOn] at sent
    exact tracks connection (linked.tracked id call connection (pending id call waits) sent)

/-- The daemon takes the next frame of a connection. -/
theorem Exchange.Wired.served (wired : exchange.Wired) {connection : Nat}
    {entry : Option Nat × Frame} {rest : List (Option Nat × Frame)}
    (queue : exchange.uplink connection = entry :: rest) :
    ({ exchange with uplink := Function.update exchange.uplink connection rest } :
      Exchange Thread Client).Wired := by
  refine ⟨?_, ?_, wired.tagged, wired.answers, wired.unread, wired.answering, wired.unsent⟩
  · intro other call frame member
    exact wired.asked other call frame (mem_dequeue queue member)
  · intro other frame member
    exact wired.posted other frame (mem_dequeue queue member)

/-- The daemon writes frames that complete only the call that they are written for. -/
theorem Exchange.Wired.write [DecidableEq Client] (wired : exchange.Wired)
    (result : Store (Nat ⊕ Client) × Outbox (Nat ⊕ Client)) {source tag : Option Nat}
    (tagged : ∀ connection call, source = some connection → tag = some call →
      exchange.sentOn call = some connection)
    (answers : ∀ connection, ∀ frame ∈ result.2 (.inl connection), ∀ answer,
      frame.fulfills = some answer →
        source = some connection ∧ ∃ call, tag = some call ∧ answer.1 = wireId call) :
    (exchange.write result source tag).Wired := by
  have split (connection : Nat) (own : Option Nat) (frame : Frame)
      (member : (own, frame) ∈ (exchange.write result source tag).written connection) :
      (own, frame) ∈ exchange.written connection ∨ (frame ∈ result.2 (.inl connection) ∧
        own = if source = some connection then tag else none) := by
    refine (List.mem_append.mp member).imp_right fun new => ?_
    obtain ⟨sent, here, same⟩ := List.mem_map.mp new
    cases same
    exact ⟨here, rfl⟩
  refine ⟨wired.asked, wired.posted, ?_, ?_, ?_, ?_, wired.unsent⟩
  · intro connection call frame member
    rcases split connection _ frame member with before | ⟨_, own⟩
    · exact wired.tagged connection call frame before
    · by_cases mine : source = some connection
      · rw [if_pos mine] at own
        exact tagged connection call mine own.symm
      · rw [if_neg mine] at own
        cases own
  · intro connection own frame member answer fulfills
    rcases split connection own frame member with before | ⟨here, same⟩
    · exact wired.answers connection own frame before answer fulfills
    · obtain ⟨mine, call, asked, id⟩ := answers connection frame here answer fulfills
      rw [if_pos mine] at same
      exact ⟨call, same.trans asked, id⟩
  · intro connection entry member
    rcases List.mem_append.mp member with before | new
    · exact List.mem_append_left _ (wired.unread connection entry before)
    · exact List.mem_append_right _ new
  · intro connection own id value here
    obtain ⟨frame, member, fulfills⟩ := wired.answering connection own id value here
    exact ⟨frame, List.mem_append_left _ member, fulfills⟩

variable [DecidableEq Thread]

/-- A thread that moves on has no frame to send that it did not have before. -/
theorem goto_unsent (exchange : Exchange Thread Client) (thread : Thread) (place : Caller)
    (same : ∀ call, place.Unsent call → (exchange.caller thread).Unsent call) (call : Nat)
    (fresh : exchange.nextReq ≤ call ∨
      ∃ other, ((exchange.goto thread place).caller other).Unsent call) :
    exchange.nextReq ≤ call ∨ ∃ other, (exchange.caller other).Unsent call := by
  refine fresh.imp_right ?_
  rintro ⟨other, unsent⟩
  refine ⟨other, ?_⟩
  by_cases here : other = thread
  · simp only [Exchange.goto, here, Function.update_self] at unsent
    rw [here]
    exact same call unsent
  · simpa only [Exchange.goto, Function.update_of_ne here] using unsent

/-- The wires do not depend on where a thread is, as long as it has nothing new to send. -/
theorem Exchange.Wired.goto (wired : exchange.Wired) (thread : Thread) {place : Caller}
    (same : ∀ call, place.Unsent call → (exchange.caller thread).Unsent call) :
    (exchange.goto thread place).Wired :=
  wired.mono rfl rfl rfl (fun _ _ => id) (fun _ _ _ _ => id)
    (goto_unsent exchange thread place same)

theorem Exchange.Wired.ret (wired : exchange.Wired) (thread : Thread) (call : Nat)
    (value : Option Bytes) : (exchange.ret thread call value).Wired :=
  wired.mono rfl rfl rfl (fun _ _ => id) (fun _ _ _ _ => id)
    (goto_unsent exchange thread .idle fun _ => False.elim)

theorem Exchange.Wired.fulfilled (wired : exchange.Wired) (thread : Thread) (call : Nat)
    (gaveUp : Bool) : (exchange.fulfilled thread call gaveUp).Wired := by
  unfold Exchange.fulfilled
  split
  · exact wired.ret thread call none
  · exact wired.goto thread fun _ => False.elim

/-- A thread sends the frame of its call. -/
theorem Exchange.Wired.sendCall (wired : exchange.Wired) (numbered : exchange.Numbered)
    {thread : Thread} {request : Request} {call connection : Nat}
    (parked : (exchange.caller thread).Unsent call) :
    ({ exchange.send connection (some call, request.frame call) with
      sentOn := exchange.sentOn.insert call connection }.goto thread (.waiting call)).Wired := by
  have fresh : exchange.sentOn call = none := wired.unsent call (.inr ⟨thread, parked⟩)
  have kept {other found : Nat} (known : exchange.sentOn other = some found) :
      exchange.sentOn.insert call connection other = some found := by
    rwa [Table.insert_of_ne]
    rintro rfl
    rw [fresh] at known
    cases known
  have marked : ({ exchange with sentOn := exchange.sentOn.insert call connection }.goto thread
      (.waiting call)).Wired := by
    refine ⟨?_, wired.posted, ?_, wired.answers, wired.unread, wired.answering, ?_⟩
    · intro other own frame member
      exact ⟨(wired.asked other own frame member).1, kept (wired.asked other own frame member).2⟩
    · intro other own frame member
      exact kept (wired.tagged other own frame member)
    · intro own unsent
      have before := goto_unsent exchange thread (.waiting call) (fun _ => False.elim) own unsent
      have different : own ≠ call := by
        rintro rfl
        rcases unsent with later | ⟨other, waits⟩
        · exact absurd (numbered.issued thread own parked.call) (Nat.not_lt.mpr later)
        · by_cases mine : other = thread
          · simp only [Exchange.goto, mine, Function.update_self] at waits
            exact waits
          · simp only [Exchange.goto, Function.update_of_ne mine] at waits
            exact mine (numbered.unique other thread own waits.call parked.call)
      exact (Table.insert_of_ne _ _ different).trans (wired.unsent own before)
  refine marked.send ?_ (by simp)
  rintro own same
  cases same
  exact ⟨request.frame_id call, Table.insert_self ..⟩

variable [DecidableEq Client]

theorem Exchange.Wired.move (wired : exchange.Wired) (numbered : exchange.Numbered)
    (move : exchange.Move next) : next.Wired := by
  have idle (place : ReaderPlace) (other : ∀ connection tag id value,
      place ≠ .answering connection tag id value) (promise : Nat → List (Option Bytes))
      (pending : Table Nat Nat) (fd : Option Nat) (connections : Nat) :
      ({ exchange with promise, pending, fd, connections, reader := place } :
        Exchange Thread Client).Wired :=
    wired.mono rfl rfl rfl (fun _ _ => id)
      (fun connection tag id value here => absurd here (other connection tag id value))
      (fun _ => id)
  cases move with
  | stay => exact wired
  | call thread request here =>
      refine wired.mono rfl rfl rfl (fun _ _ => id) (fun _ _ _ _ => id) ?_
      rintro call (later | ⟨other, unsent⟩)
      · exact .inl (Nat.le_of_succ_le later)
      · by_cases mine : other = thread
        · simp only [Exchange.goto, mine, Function.update_self] at unsent
          exact .inl unsent.le
        · simp only [Exchange.goto, Function.update_of_ne mine] at unsent
          exact .inr ⟨other, unsent⟩
  | register thread request call here =>
      refine wired.mono rfl rfl rfl (fun _ _ => id) (fun _ _ _ _ => id)
        (goto_unsent exchange thread (.parked request call) ?_)
      rw [here]
      exact fun _ => id
  | send thread request call connection here open_ =>
      have parked : (exchange.caller thread).Unsent call := by rw [here]; exact rfl
      exact wired.sendCall numbered parked
  | refuse thread request call here => exact wired.goto thread fun _ => False.elim
  | take thread call taken gaveUp here found =>
      exact wired.mono rfl rfl rfl (fun _ _ => id) (fun _ _ _ _ => id)
        (goto_unsent exchange thread (.setting taken call gaveUp) fun _ => False.elim)
  | missed thread call gaveUp here absent => exact wired.fulfilled thread call gaveUp
  | set thread taken call gaveUp here =>
      have kept : (exchange.setValue taken none).Wired :=
        wired.mono rfl rfl rfl (fun _ _ => id) (fun _ _ _ _ => id) (fun _ => id)
      exact kept.fulfilled thread call gaveUp
  | ready thread call value here known => exact wired.ret thread call value
  | timeout thread call here => exact wired.goto thread fun _ => False.elim
  | post connection msg name payload open_ kind =>
      refine wired.send ?_ fun _ => ⟨msg, Msg.frame_msg .., kind⟩
      intro call same
      cases same
  | read connection tag frame rest id value here next fulfills =>
      refine wired.read next ?_
      intro other own found answer same
      cases same
      exact ⟨rfl, rfl, fulfills⟩
  | skip connection tag frame rest here next =>
      refine wired.read next ?_
      intro other own found answer same
      cases same
  | claim connection tag id taken value here found =>
      exact idle (.setting connection taken value) (by simp) _ _ _ _
  | ignore connection tag id value here => exact idle (.reading connection) (by simp) _ _ _ _
  | settle connection taken value here => exact idle (.reading connection) (by simp) _ _ _ _
  | drop connection here => exact idle (.closing connection) (by simp) _ _ _ _
  | close connection here => exact idle (.clearing connection) (by simp) _ _ _ _
  | clear connection here => exact idle (.failing connection) (by simp) _ _ _ _
  | fail connection here => exact idle .dialing (by simp) _ _ _ _
  | dial here => exact idle (.reading exchange.connections) (by simp) _ _ _ _
  | serve connection tag frame rest now later text queue =>
      have head : (tag, frame) ∈ exchange.uplink connection := by
        rw [queue]
        exact List.mem_cons_self
      refine (wired.served queue).write _ ?_ ?_
      · intro other call mine own
        cases mine
        subst tag
        exact (wired.asked connection call frame head).2
      · intro other sent member answer fulfills
        obtain ⟨mine, id, msg, kind, notPost⟩ := answerFrame_fulfills member fulfills
        cases mine
        refine ⟨rfl, ?_⟩
        cases tag with
        | none =>
            obtain ⟨posted, same, post⟩ := wired.posted connection frame head
            rw [Option.some.inj (kind.symm.trans same), post] at notPost
            cases notPost
        | some call => exact ⟨call, rfl, id.trans (wired.asked connection call frame head).1⟩
  | push result quiet =>
      refine wired.write result (by simp) ?_
      intro connection frame member answer fulfills
      rw [quiet connection frame member] at fulfills
      cases fulfills
  | remove store => exact wired.mono rfl rfl rfl (fun _ _ => id) (fun _ _ _ _ => id) (fun _ => id)

theorem Exchange.Linked.move (linked : exchange.Linked) (wired : exchange.Wired)
    (move : exchange.Move next) : next.Linked := by
  have same {place : ReaderPlace} (here : exchange.reader = place) (later : ReaderPlace)
      (descriptor : later.descriptor = place.descriptor)
      (tracks : ∀ connection, place.Tracks connection → later.Tracks connection)
      {pending : Table Nat Nat}
      (fewer : ∀ id call, pending id = some call → exchange.pending id = some call)
      (promise : Nat → List (Option Bytes)) (unread : Nat → List (Option Nat × Frame)) :
      ({ exchange with pending, promise, unread, reader := later } :
        Exchange Thread Client).Linked :=
    linked.mono rfl (descriptor.trans (by rw [here])) (by rw [here]; exact tracks) rfl rfl fewer
  cases move with
  | stay => exact linked
  | call | refuse | ready | timeout | post | serve | push | remove =>
      exact linked.mono rfl rfl (fun _ => id) rfl rfl (fun _ _ => id)
  | register thread request call here =>
      have unsent : exchange.sentOn call = none := by
        refine wired.unsent call (.inr ⟨thread, ?_⟩)
        rw [here]
        exact rfl
      refine ⟨linked.descriptor, linked.opened, linked.used, ?_⟩
      intro id own connection waits sent
      by_cases mine : id = wireId call
      · have added : exchange.pending.insert (wireId call) call id = some own := waits
        rw [mine, Table.insert_self] at added
        cases added
        rw [show exchange.sentOn call = some connection from sent] at unsent
        cases unsent
      · have before : exchange.pending.insert (wireId call) call id = some own := waits
        rw [Table.insert_of_ne _ _ mine] at before
        exact linked.tracked id own connection before sent
  | send thread request call connection here open_ =>
      have current : exchange.reader.descriptor = some connection :=
        linked.descriptor.symm.trans open_
      refine ⟨linked.descriptor, linked.opened, ?_, ?_⟩
      · intro own other sent
        by_cases mine : own = call
        · have inserted : exchange.sentOn.insert call connection own = some other := sent
          rw [mine, Table.insert_self] at inserted
          cases inserted
          exact linked.opened connection current
        · exact linked.used own other ((Table.insert_of_ne _ _ mine).symm.trans sent)
      · intro id own other waits sent
        by_cases mine : own = call
        · have inserted : exchange.sentOn.insert call connection own = some other := sent
          rw [mine, Table.insert_self] at inserted
          cases inserted
          exact ReaderPlace.tracks_of_descriptor current
        · exact linked.tracked id own other waits ((Table.insert_of_ne _ _ mine).symm.trans sent)
  | take thread call taken gaveUp here found =>
      exact linked.mono rfl rfl (fun _ => id) rfl rfl (fun _ _ => Table.of_erase)
  | missed thread call gaveUp here absent =>
      unfold Exchange.fulfilled
      split <;> exact linked.mono rfl rfl (fun _ => id) rfl rfl (fun _ _ => id)
  | set thread taken call gaveUp here =>
      unfold Exchange.fulfilled
      split <;> exact linked.mono rfl rfl (fun _ => id) rfl rfl (fun _ _ => id)
  | read connection tag frame rest asked value here next fulfills =>
      exact same here (.answering connection tag asked value) rfl (fun _ => id) (fun _ _ => id) _ _
  | skip connection tag frame rest here next =>
      exact same here (.reading connection) rfl (fun _ => id) (fun _ _ => id) _ _
  | claim connection tag asked taken value here found =>
      exact same here (.setting connection taken value) rfl (fun _ => id)
        (fun _ _ => Table.of_erase) _ _
  | ignore connection tag asked value here =>
      exact same here (.reading connection) rfl (fun _ => id) (fun _ _ => id) _ _
  | settle connection taken value here =>
      exact same here (.reading connection) rfl (fun _ => id) (fun _ _ => id) _ _
  | drop connection here =>
      exact same here (.closing connection) rfl (fun _ => id) (fun _ _ => id) _ _
  | close connection here =>
      refine ⟨rfl, nofun, linked.used, ?_⟩
      intro id call other waits sent
      have tracks := linked.tracked id call other waits sent
      rw [here] at tracks
      exact Option.some.inj tracks
  | clear connection here =>
      exact same here (.failing connection) rfl (fun _ => id) (fun _ _ => id) _ _
  | fail connection here =>
      refine ⟨?_, nofun, linked.used, nofun⟩
      rw [linked.descriptor, here]
      rfl
  | dial here =>
      refine ⟨rfl, ?_, fun call other sent => Nat.lt_succ_of_lt (linked.used call other sent), ?_⟩
      · intro connection current
        cases current
        exact Nat.lt_succ_self _
      · intro id call other waits sent
        have tracks := linked.tracked id call other waits sent
        rw [here] at tracks
        cases tracks

end Chappe
