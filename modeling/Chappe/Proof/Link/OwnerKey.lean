/-
This file proves when the links leave a key of its owning device alone in one session.
-/

import Chappe.Proof.Link.LinkFrames

namespace Chappe
open Foundation

variable {Client : Type}

/-- Only clients of the first device write the key. -/
def OwnedByA (key : Bytes) : FederationEvent Client → Prop
  | .step (.client .b _ frame _ _) => ¬ frame.Writes key
  | _ => True

/-- When the daemon answers a get of the current link for the key, it does not have the key, and
the links of earlier sessions have no write of the key left there. -/
def Device.SeedsNothing (key : Bytes) (session : Nat) (device : Device Client) : Prop :=
  device.link.alive = true → ∀ frame rest, device.uplink session = frame :: rest →
    frame.Gets key → device.store.kv key = none ∧ ∀ earlier, earlier ≠ session →
      ∀ write ∈ device.uplink earlier, write.Spares key

/-- The second device seeds its new link with nothing for the key. -/
def SeedsNothing (key : Bytes) (federation : Federation Client) :
    FederationEvent Client → Prop
  | .step (.serve .b source _ _) =>
      source = federation.session →
        (federation.device .b).SeedsNothing key federation.session
  | _ => True

/-- The owning device has for the key what it has without the writes of links. -/
structure Device.Leads (key : Bytes) (device : Device Client) : Prop where
  same : AgreeAt key device.store device.owned
  uplink : ∀ session, ∀ frame ∈ device.uplink session, frame.Spares key
  pending : ∀ frame ∈ device.link.peerPending, frame.Spares key

/-- The other device reports nothing about the key except the echoes of its link. -/
structure Device.Follows (config : LinkConfig) (key : Bytes) (session : Nat)
    (device : Device Client) : Prop where
  forever : device.store.expires key = none
  shape : ∀ session, ∀ frame ∈ device.uplink session, frame.FromLink
  pendingShape : ∀ frame ∈ device.link.peerPending, frame.FromLink
  fresh : ∀ later, session < later → device.uplink later = [] ∧
    ∀ name, ¬ device.store.Watches (.inl later) name
  settled : device.link.alive = true → device.store.Watches (.inl session) key →
    ∀ earlier, earlier ≠ session → ∀ frame ∈ device.uplink earlier, frame.Spares key
  quiet : ∀ frame ∈ device.link.toPeer, frame.Spares key
  accounted : device.link.alive = true → device.Accounted config session ∧
    ∀ change, change.key = key → reports change device.link.foreign = 0

variable {config : LinkConfig} {key : Bytes} {session : Nat} {device : Device Client}

/-- A fact about every queued frame is kept when one queue is replaced. -/
theorem all_update {property : Frame → Prop} {uplink : Nat → List Frame} {frames : List Frame}
    (before : ∀ session, ∀ frame ∈ uplink session, property frame)
    (here : ∀ frame ∈ frames, property frame) (changed : Nat) :
    ∀ session, ∀ frame ∈ Function.update uplink changed frames session, property frame := by
  intro other frame member
  by_cases same : other = changed
  · subst other
    rw [Function.update_self] at member
    exact here frame member
  · rw [Function.update_of_ne same] at member
    exact before other frame member

theorem all_append_singleton {property : Frame → Prop} {frames : List Frame} {last : Frame}
    (before : ∀ frame ∈ frames, property frame) (here : property last) :
    ∀ frame ∈ frames ++ [last], property frame := by
  intro frame member
  rcases List.mem_append.mp member with early | late
  · exact before frame early
  · rw [List.mem_singleton.mp late]
    exact here

/-- A change of the link that leaves its pending write. -/
theorem Device.Leads.withLink (leads : device.Leads key) {link : Link}
    (pending : link.peerPending = device.link.peerPending) :
    { device with link := link }.Leads key :=
  ⟨leads.same, leads.uplink, fun frame member => leads.pending frame (pending ▸ member)⟩

theorem Device.Leads.peerSend (leads : device.Leads key) : (device.peerSend session).Leads key := by
  unfold Device.peerSend
  split
  · rename_i frame pending _
    refine ⟨leads.same, all_update leads.uplink ?_ session, nofun⟩
    exact all_append_singleton (leads.uplink session) (leads.pending frame pending)
  · exact leads

theorem Device.Leads.startLink (leads : device.Leads key) (config : LinkConfig) (session : Nat) :
    (device.startLink config session).Leads key := by
  refine ⟨leads.same, all_update leads.uplink ?_ session, nofun⟩
  intro frame member change command
  rw [startup_command member] at command
  cases command

/-- The owning device takes a frame of its peer that spares the key. -/
theorem Device.Leads.peerFrame (leads : device.Leads key) {frame : Frame}
    (spares : frame.Spares key) :
    { device with link := device.link.peerFrame config frame }.Leads key := by
  refine ⟨leads.same, leads.uplink, ?_⟩
  intro write member
  rcases peerFrame_pending member with before | ⟨name, payload, rfl⟩ | ⟨asked, command, rfl⟩
  · exact leads.pending write before
  · exact publish_spares name payload key
  · intro change written
    rw [asked.frame_command] at written
    cases written
    exact spares asked command

/-- A link whose daemon reports nothing else about the key forwards nothing about it. -/
theorem Device.Follows.forwarded_eq_zero (follows : device.Follows config key session)
    (alive : device.link.alive = true) {change : Change} (about : change.key = key) :
    device.link.forwarded change = 0 := by
  obtain ⟨accounted, silent⟩ := follows.accounted alive
  have balance := accounted.balance change
  have bound := accounted.bound change
  have none := silent change about
  omega

/-- A change of the link that leaves what its daemon reported. -/
theorem Device.Follows.withLink (follows : device.Follows config key session) {link : Link}
    (pendingShape : ∀ frame ∈ link.peerPending, frame.FromLink)
    (quiet : ∀ frame ∈ link.toPeer, frame.Spares key)
    (alive : link.alive = true → device.link.alive = true)
    (foreign : link.foreign = device.link.foreign)
    (accounted : link.alive = true → device.Accounted config session →
      { device with link := link }.Accounted config session) :
    { device with link := link }.Follows config key session where
  forever := follows.forever
  shape := follows.shape
  pendingShape := pendingShape
  fresh := follows.fresh
  settled := fun up => follows.settled (alive up)
  quiet := quiet
  accounted := by
    intro up
    obtain ⟨before, silent⟩ := follows.accounted (alive up)
    refine ⟨accounted up before, ?_⟩
    rw [foreign]
    exact silent

theorem Device.Follows.localRead (follows : device.Follows config key session) :
    { device with link := device.link.localRead config }.Follows config key session := by
  obtain ⟨pending, alive, toPeer, foreign, -⟩ := localRead_kept config device.link
  refine follows.withLink ?_ ?_ alive foreign (fun _ accounted => accounted.localRead)
  · rw [pending]
    exact follows.pendingShape
  · rw [toPeer]
    exact follows.quiet

theorem Device.Follows.stop (follows : device.Follows config key session) :
    { device with link := { device.link with alive := false } }.Follows config key session :=
  follows.withLink follows.pendingShape follows.quiet Bool.noConfusion rfl Bool.noConfusion

/-- What the link writes to its peer is what it forwards, and nothing of that is about the key. -/
theorem Device.Follows.localSend (follows : device.Follows config key session) :
    { device with link := device.link.localSend }.Follows config key session := by
  obtain ⟨pending, alive, foreign, -⟩ := localSend_kept device.link
  refine follows.withLink ?_ ?_ ?_ foreign (fun _ accounted => accounted.localSend)
  · rw [pending]
    exact follows.pendingShape
  · unfold Link.localSend
    split
    · rename_i frame waiting up
      refine all_append_singleton follows.quiet ?_
      intro change command about
      have none := follows.forwarded_eq_zero up about
      simp only [Link.forwarded, waiting, Option.toList_some, commands_single command, if_true]
        at none
      omega
    · exact follows.quiet
  · rw [alive]
    exact id

/-- The link of the other device takes a frame of the owning one. -/
theorem Device.Follows.peerFrame (follows : device.Follows config key session)
    (free : device.link.peerPending = none) (frame : Frame) :
    { device with link := device.link.peerFrame config frame }.Follows config key session := by
  obtain ⟨toPeer, -, -, foreign, alive⟩ := peerFrame_sides config device.link frame
  refine follows.withLink ?_ ?_ alive foreign (fun _ accounted => accounted.peerFrame free frame)
  · intro write member
    rcases peerFrame_pending member with before | ⟨name, payload, rfl⟩ | ⟨asked, -, rfl⟩
    · exact follows.pendingShape write before
    · exact publish_fromLink name payload
    · exact change_fromLink asked
  · rw [toPeer]
    exact follows.quiet

theorem Device.Follows.peerSend (follows : device.Follows config key session) :
    (device.peerSend session).Follows config key session := by
  have sent (accounted : device.Accounted config session) := accounted.peerSend
  unfold Device.peerSend at sent ⊢
  split at sent
  · rename_i frame pending up
    have other {earlier : Nat} (different : earlier ≠ session) : Function.update device.uplink
        session (device.uplink session ++ [frame]) earlier = device.uplink earlier :=
      Function.update_of_ne different ..
    have shape := all_append_singleton (follows.shape session)
      (follows.pendingShape frame pending)
    refine ⟨follows.forever, all_update follows.shape shape session, nofun, ?_, ?_,
      follows.quiet, ?_⟩
    · intro later new
      exact ⟨(other (Nat.ne_of_gt new)).trans (follows.fresh later new).1,
        (follows.fresh later new).2⟩
    · intro alive watches earlier different
      simp only [other different]
      exact follows.settled alive watches earlier different
    · intro alive
      obtain ⟨accounted, silent⟩ := follows.accounted alive
      exact ⟨sent accounted, silent⟩
  · exact follows

/-- A session starts with nothing of the key left from the earlier ones but in the store. -/
theorem Device.Follows.startLink (forever : device.store.expires key = none)
    (shape : ∀ session, ∀ frame ∈ device.uplink session, frame.FromLink)
    (fresh : ∀ later, session ≤ later → device.uplink later = [] ∧
      ∀ name, ¬ device.store.Watches (.inl later) name) :
    (device.startLink config session).Follows config key session where
  forever := forever
  shape := all_update shape (fun _ => startup_fromLink) session
  pendingShape := nofun
  fresh := by
    intro later new
    refine ⟨?_, (fresh later new.le).2⟩
    exact (Function.update_of_ne (Nat.ne_of_gt new) ..).trans (fresh later new.le).1
  settled := fun _ watches => absurd watches ((fresh session le_rfl).2 key)
  quiet := by
    intro frame member
    rw [List.mem_singleton.mp member]
    exact hello_spares config key
  accounted := fun _ => ⟨Device.Accounted.startLink device config session, fun _ _ => rfl⟩

/-- A step of the other daemon that says nothing about the key, or only echoes. -/
theorem Device.Follows.push (follows : device.Follows config key session)
    {uplink : Nat → List Frame} {owned : Store (Nat ⊕ Client)} {own : Bool}
    {result : Store (Nat ⊕ Client) × Outbox (Nat ⊕ Client)}
    (forever : result.1.expires key = none)
    (shape : ∀ session, ∀ frame ∈ uplink session, frame.FromLink)
    (fresh : ∀ later, session < later → uplink later = [] ∧
      ∀ name, ¬ result.1.Watches (.inl later) name)
    (settled : device.link.alive = true → result.1.Watches (.inl session) key →
      ∀ earlier, earlier ≠ session → ∀ frame ∈ uplink earlier, frame.Spares key)
    (accounted : device.link.alive = true → (Device.push
      { device with uplink := uplink, owned := owned } session own result).Accounted config session)
    (silent : device.link.alive = true → own = false → ∀ sent ∈ result.2 (.inl session),
      ∀ told, sent.pushed = some told → told.key ≠ key) :
    (Device.push { device with uplink := uplink, owned := owned } session own result).Follows
      config key session := by
  refine ⟨forever, shape, follows.pendingShape, fresh, settled, follows.quiet, ?_⟩
  intro alive
  refine ⟨accounted alive, ?_⟩
  intro change about
  have before := (follows.accounted alive).2 change about
  cases own with
  | true => exact before
  | false =>
      simp only [Device.push, Link.receive, Bool.false_eq_true, if_false, reports_append, before,
        Nat.zero_add]
      apply reports_eq_zero
      intro sent member told pushed
      rw [about]
      exact silent alive rfl sent member told pushed

variable [DecidableEq Client]

theorem mem_removeClient {ended other : Nat} {frame : Frame}
    (member : frame ∈ (device.removeClient ended).uplink other) : frame ∈ device.uplink other := by
  by_cases same : other = ended
  · subst other
    simp only [Device.removeClient, Function.update_self] at member
    cases member
  · simpa only [Device.removeClient, Function.update_of_ne same] using member

/-- A daemon step of the owning device does the same to both stores. -/
theorem Device.Leads.serve (leads : device.Leads key) (source now later : Nat) :
    (device.serve session source now later).Leads key := by
  unfold Device.serve
  split
  · exact leads
  · rename_i frame rest queued
    have spares := leads.uplink source frame (by rw [queued]; exact List.mem_cons_self)
    refine ⟨?_, ?_, leads.pending⟩
    · simp only [Device.push]
      split
      · rename_i command
        obtain ⟨change, asked⟩ := Option.isSome_iff_exists.mp command
        have other : frame.name ≠ key := fun here =>
          spares change asked ((command_key asked).trans here)
        exact (handleFrame_other other now later _).trans leads.same
      · exact handleFrame_agree leads.same now later _ frame
    · refine all_update leads.uplink ?_ source
      intro write member
      exact leads.uplink source write (by rw [queued]; exact List.mem_cons_of_mem _ member)

theorem Device.Leads.client (leads : device.Leads key) (client : Client) (frame : Frame)
    (now later : Nat) : (device.client session client frame now later).Leads key :=
  ⟨handleFrame_agree leads.same now later _ frame, leads.uplink, leads.pending⟩

theorem Device.Leads.sweep (leads : device.Leads key) (order : List Bytes) (now : Nat) :
    (device.sweep session order now).Leads key :=
  ⟨sweep_agree leads.same now order, leads.uplink, leads.pending⟩

/-- A client of the other device that does not write the key. -/
theorem Device.Follows.client (follows : device.Follows config key session) (client : Client)
    {frame : Frame} (reads : ¬ frame.Writes key) (now later : Nat) :
    (device.client session client frame now later).Follows config key session := by
  have tame : frame.name = key → frame.FromLink := Frame.fromLink_of_reads reads
  have notLink (other : Nat) : (Sum.inl other : Nat ⊕ Client) ≠ .inr client := Sum.inl_ne_inr
  refine follows.push (handleFrame_forever follows.forever tame now later _) follows.shape ?_ ?_
    (fun alive => (follows.accounted alive).1.client client frame now later) ?_
  · intro other new
    refine ⟨(follows.fresh other new).1, ?_⟩
    intro name watches
    rcases handleFrame_watches watches with before | ⟨same, -⟩
    · exact (follows.fresh other new).2 name before
    · exact notLink other same
  · intro alive watches
    rcases handleFrame_watches watches with before | ⟨same, -⟩
    · exact follows.settled alive before
    · exact absurd same (notLink session)
  · intro _ _ sent member told pushed about
    rcases handleFrame_reports follows.forever tame member pushed about with
      ⟨asks, -⟩ | ⟨same, -⟩
    · exact asks (Frame.spares_of_reads reads)
    · exact notLink session same

theorem Device.Follows.sweep (follows : device.Follows config key session) (order : List Bytes)
    (now : Nat) : (device.sweep session order now).Follows config key session := by
  refine follows.push ?_ follows.shape ?_ ?_
    (fun alive => (follows.accounted alive).1.sweep order now) ?_
  · rw [(sweep_at key now order device.store).expires, dropIfExpired_forever follows.forever]
    split <;> exact follows.forever
  · intro later new
    refine ⟨(follows.fresh later new).1, ?_⟩
    intro name watches
    exact (follows.fresh later new).2 name ((sweep_watches now order _ name).mp watches)
  · intro alive watches
    exact follows.settled alive ((sweep_watches now order _ key).mp watches)
  · intro _ _ sent member told pushed about
    exact sweepKeys_name _ follows.forever member ((pushed_key pushed).symm.trans about)

theorem Device.Follows.publish (follows : device.Follows config key session)
    (name payload : Bytes) :
    (device.push session false (device.store,
      .sendTo (.inl session) (Msg.publish.frame name payload))).Follows config key session := by
  refine follows.push follows.forever follows.shape follows.fresh follows.settled
    (fun alive => (follows.accounted alive).1.push _ fun _ watches => watches) ?_
  intro _ _ sent member told pushed
  rw [(mem_sendTo member).1, publish_pushed (Msg.frame_msg _ _ _)] at pushed
  cases pushed

/-- The other daemon takes a frame of a link. The reply to a get of the key has no value. -/
theorem Device.Follows.serve (follows : device.Follows config key session) (source now later : Nat)
    (seeds : source = session → device.SeedsNothing key session) :
    (device.serve session source now later).Follows config key session := by
  have served (alive : device.link.alive = true) :=
    (follows.accounted alive).1.serve source now later
  cases queued : device.uplink source with
  | nil =>
      simp only [Device.serve, queued]
      exact follows
  | cons frame rest =>
      simp only [Device.serve, queued] at served ⊢
      have member : frame ∈ device.uplink source := by rw [queued]; exact List.mem_cons_self
      have tame : frame.name = key → frame.FromLink := fun _ => follows.shape source frame member
      have fewer {other : Nat} {write : Frame}
          (among : write ∈ Function.update device.uplink source rest other) :
          write ∈ device.uplink other := by
        by_cases same : other = source
        · subst other
          rw [Function.update_self] at among
          rw [queued]
          exact List.mem_cons_of_mem _ among
        · rwa [Function.update_of_ne same] at among
      have known (other : Nat) (new : session < other) : other ≠ source := by
        rintro rfl
        rw [(follows.fresh other new).1] at queued
        cases queued
      refine follows.push (handleFrame_forever follows.forever tame now later _) ?_ ?_ ?_ served ?_
      · intro other write among
        exact follows.shape other write (fewer among)
      · intro other new
        refine ⟨(Function.update_of_ne (known other new) ..).trans (follows.fresh other new).1, ?_⟩
        intro name watches
        rcases handleFrame_watches watches with before | ⟨same, -⟩
        · exact (follows.fresh other new).2 name before
        · exact known other new (Sum.inl_injective same)
      · intro alive watches earlier different write among
        rcases handleFrame_watches watches with before | ⟨same, gets⟩
        · exact follows.settled alive before earlier different write (fewer among)
        · obtain rfl := Sum.inl_injective same
          exact (seeds rfl alive frame rest queued gets).2 earlier different write (fewer among)
      · intro alive own sent among told pushed about
        rcases handleFrame_reports follows.forever tame among pushed about with
          ⟨asks, watches⟩ | ⟨same, gets, found⟩
        · by_cases mine : source = session
          · simp only [mine, decide_true, Bool.true_and, Frame.isCommand] at own
            apply asks
            intro change command
            rw [command] at own
            cases own
          · exact asks (follows.settled alive watches source mine frame member)
        · obtain rfl := Sum.inl_injective same
          exact found (seeds rfl alive frame rest queued gets).1

/-- The daemon removes a link of another session. -/
theorem Device.Accounted.removeClient (accounted : device.Accounted config session) {ended : Nat}
    (different : session ≠ ended) : (device.removeClient ended).Accounted config session := by
  have queue : (device.removeClient ended).uplink session = device.uplink session :=
    Function.update_of_ne different ..
  have transit (change : Change) : (device.removeClient ended).ownTransit session change =
      device.ownTransit session change := by
    simp only [Device.ownTransit, queue]
    rfl
  refine ⟨?_, ?_, accounted.pending, ?_⟩
  · intro change
    rw [transit]
    exact accounted.bound change
  · intro change
    rw [transit]
    exact accounted.balance change
  · obtain ⟨asked, orders, split, quiet, carried, watched⟩ := accounted.primed
    refine ⟨asked, orders, queue.trans split, quiet, carried, ?_⟩
    intro name member
    refine (watched name member).imp_left fun watches => ?_
    exact (removeClient_watches device.store _ _ name).mpr
      ⟨watches, fun gone => Sum.inl_injective.ne different gone.2⟩

theorem Device.Leads.removeClient (leads : device.Leads key) (ended : Nat) :
    (device.removeClient ended).Leads key := by
  refine ⟨⟨leads.same.kv, leads.same.expires⟩, ?_, leads.pending⟩
  intro other frame member
  exact leads.uplink other frame (mem_removeClient member)

/-- The daemon removes a link that is not the current one, or has stopped. -/
theorem Device.Follows.removeClient (follows : device.Follows config key session) {ended : Nat}
    (past : ended < session ∨ device.link.alive = false) :
    (device.removeClient ended).Follows config key session := by
  refine ⟨follows.forever, ?_, follows.pendingShape, ?_, ?_, follows.quiet, ?_⟩
  · intro other frame member
    exact follows.shape other frame (mem_removeClient member)
  · intro later new
    refine ⟨?_, ?_⟩
    · rw [List.eq_nil_iff_forall_not_mem]
      intro frame member
      have before := mem_removeClient member
      rw [(follows.fresh later new).1] at before
      cases before
    · intro name watches
      exact (follows.fresh later new).2 name ((removeClient_watches _ _ _ _).mp watches).1
  · intro alive watches earlier different frame member
    exact follows.settled alive ((removeClient_watches _ _ _ _).mp watches).1 earlier different
      frame (mem_removeClient member)
  · intro alive
    have up : device.link.alive = true := alive
    have different : session ≠ ended := by
      rcases past with early | down
      · exact Nat.ne_of_gt early
      · rw [up] at down
        cases down
    obtain ⟨accounted, silent⟩ := follows.accounted up
    exact ⟨accounted.removeClient different, silent⟩

end Chappe
