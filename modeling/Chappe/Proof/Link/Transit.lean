/-
This file proves that nothing about a key sets out from a device but what its daemon reports to the
link.
-/

import Chappe.Proof.Link.Startup

namespace Chappe
open Foundation

variable {Client : Type} {key : Bytes}

/-- The changes of the key that a link holds for its peer, with the echoes. -/
def Link.held (key : Bytes) (link : Link) : List Change :=
  asks key link.toPeer ++ asks key link.localPending.toList ++ link.unread key

/-- Everything about the key that is on its way from a side, with the echoes. -/
def Federation.moving (key : Bytes) (side : Side) (federation : Federation Client) : List Change :=
  (federation.device side.other).inbound key federation.session ++
    (federation.device side).link.held key

theorem mem_held {link : Link} {change : Change} : change ∈ link.held key ↔
    change ∈ asks key link.toPeer ∨ change ∈ asks key link.localPending.toList ∨
      change ∈ link.unread key := by
  simp only [Link.held, List.mem_append, or_assoc]

theorem held_receive (link : Link) (own : Bool) (frames : List Frame) :
    (link.receive own frames).held key = link.held key ++ tells key frames := by
  rw [Link.held, unread_receive, ← List.append_assoc]
  rfl

theorem held_peerFrame (config : LinkConfig) (link : Link) (frame : Frame) :
    (link.peerFrame config frame).held key = link.held key := by
  obtain ⟨toPeer, localPending, fromDaemon, -, -⟩ := peerFrame_sides config link frame
  rw [Link.held, toPeer, localPending, Link.unread, fromDaemon]
  rfl

theorem mem_held_forward {link : Link} {change item : Change}
    (member : item ∈ (link.forward change).held key) :
    item ∈ about key [change] ∨ item ∈ link.held key := by
  unfold Link.forward at member
  split at member
  · exact .inr member
  · rcases mem_held.mp member with peer | pending | unread
    · exact .inr (mem_held.mpr (.inl peer))
    · dsimp only at pending
      rw [Option.toList_some, asks_single change.frame_command] at pending
      exact .inl pending
    · exact .inr (mem_held.mpr (.inr (.inr unread)))

theorem mem_held_localRead {config : LinkConfig} {link : Link} {change : Change}
    (member : change ∈ (link.localRead config).held key) : change ∈ link.held key := by
  unfold Link.localRead at member
  split at member
  · rename_i own frame rest incoming idle alive
    have later {item : Change} (read : item ∈ Link.held key { link with fromDaemon := rest }) :
        item ∈ link.held key := by
      rw [mem_held, unread_cons incoming, List.mem_append]
      rcases mem_held.mp read with peer | pending | unread
      · exact .inl peer
      · exact .inr (.inl pending)
      · exact .inr (.inr (.inr unread))
    split at member
    · unfold Link.localFrame at member
      dsimp only at member
      split at member
      · split at member
        · rcases mem_held.mp member with peer | pending | unread
          · exact later (mem_held.mpr (.inl peer))
          · dsimp only at pending
            rw [Option.toList_some, asks_single_none (publish_command _ _)] at pending
            cases pending
          · exact later (mem_held.mpr (.inr (.inr unread)))
        · exact later member
      · split at member
        · rename_i told pushed
          rcases mem_held_forward member with here | there
          · rw [mem_held, unread_cons incoming, tells_single pushed, List.mem_append]
            exact .inr (.inr (.inl here))
          · exact later there
        · exact later member
    · exact member
  · exact member

theorem mem_held_localSend {link : Link} {change : Change}
    (member : change ∈ link.localSend.held key) : change ∈ link.held key := by
  unfold Link.localSend at member
  split at member
  · rename_i frame pending alive
    rw [mem_held] at member ⊢
    dsimp only at member
    rw [asks_append, List.mem_append, Option.toList_none, asks_nil] at member
    rw [pending, Option.toList_some]
    rcases member with (peer | sent) | none | unread
    · exact .inl peer
    · exact .inr (.inl sent)
    · cases none
    · exact .inr (.inr unread)
  · exact member

/-- What comes in for the daemon was in the frame of the peer or came in before. -/
theorem mem_inbound_peerFrame {config : LinkConfig} {device : Device Client} {session : Nat}
    {frame : Frame} {change : Change} (member : change ∈ Device.inbound key session
      { device with link := device.link.peerFrame config frame }) :
    change ∈ device.inbound key session ∨ change ∈ asks key [frame] := by
  rcases List.mem_append.mp member with uplink | pending
  · exact .inl (List.mem_append_left _ uplink)
  · obtain ⟨among, here⟩ := mem_about.mp pending
    obtain ⟨write, waiting, command⟩ := List.mem_filterMap.mp among
    rcases peerFrame_pending (Option.mem_toList.mp waiting) with
      before | ⟨name, payload, rfl⟩ | ⟨asked, commanded, rfl⟩
    · refine .inl (List.mem_append_right _ (mem_about.mpr ⟨?_, here⟩))
      exact List.mem_filterMap.mpr ⟨write, Option.mem_toList.mpr before, command⟩
    · rw [publish_command] at command
      cases command
    · rw [asked.frame_command] at command
      cases command
      rw [asks_single commanded]
      exact .inr (mem_about.mpr ⟨List.mem_singleton_self _, here⟩)

variable {federation : Federation Client} {side : Side} {change : Change}

theorem mem_moving_updateNear {near : Device Client}
    (held : change ∈ near.link.held key → change ∈ federation.moving key side)
    (member : change ∈ (federation.update side near).moving key side) :
    change ∈ federation.moving key side := by
  rw [Federation.moving, update_device_self, update_device_of_ne _ side.other_ne] at member
  rcases List.mem_append.mp member with inbound | near
  · exact List.mem_append_left _ inbound
  · exact held near

theorem mem_moving_updateFar {far : Device Client}
    (inbound : change ∈ far.inbound key federation.session → change ∈ federation.moving key side)
    (member : change ∈ (federation.update side.other far).moving key side) :
    change ∈ federation.moving key side := by
  rw [Federation.moving, update_device_self,
    update_device_of_ne _ (Ne.symm side.other_ne)] at member
  rcases List.mem_append.mp member with far | held
  · exact inbound far
  · exact List.mem_append_right _ held

/-- A link that stops leaves what is on its way. -/
theorem mem_moving_stop {here : Side}
    (member : change ∈ (federation.update here
      { federation.device here with
        link := { (federation.device here).link with alive := false } }).moving key side) :
    change ∈ federation.moving key side := by
  rcases side.eq_or_other here with rfl | rfl
  · rw [Federation.moving, update_device_self, update_device_of_ne _ here.other_ne] at member
    exact member
  · rw [Federation.moving, update_device_self, update_device_of_ne _ (Ne.symm side.other_ne)]
      at member
    exact member

theorem mem_moving_peerRead {config : Side → LinkConfig} {here : Side}
    (member : change ∈ (federation.peerRead config here).moving key side) :
    change ∈ federation.moving key side := by
  unfold Federation.peerRead at member
  dsimp only at member
  split at member
  · rename_i frame rest incoming free alive
    split at member
    · rcases side.eq_or_other here with rfl | rfl
      · rw [Federation.moving, update_device_self, update_device_of_ne _ here.other_ne,
          update_device_self] at member
        dsimp only at member
        rw [held_peerFrame] at member
        exact member
      · rw [Side.other_other] at incoming member
        rw [Federation.moving, update_device_self, update_device_of_ne _ (Ne.symm side.other_ne),
          update_device_self] at member
        rw [Federation.moving, List.mem_append, mem_held, incoming, asks_cons, List.mem_append]
        rcases List.mem_append.mp member with inbound | held
        · rcases mem_inbound_peerFrame inbound with before | read
          · exact .inl before
          · exact .inr (.inl (.inl read))
        · rcases mem_held.mp held with peer | pending | unread
          · exact .inr (.inl (.inr peer))
          · exact .inr (.inr (.inl pending))
          · exact .inr (.inr (.inr unread))
    · exact mem_moving_stop member
  · exact member

variable {action : FederationAction Client}

theorem mem_moving_of_onWay (member : change ∈ federation.onWay key side) :
    change ∈ federation.moving key side := by
  rcases List.mem_append.mp member with inbound | outbound
  · exact List.mem_append_left _ inbound
  · refine List.mem_append_right _ ?_
    rcases List.mem_append.mp outbound with held | unread
    · exact List.mem_append_left _ held
    · exact List.mem_append_right _ (mem_of_mem_cancel unread)

theorem onWay_of_moving (none : federation.moving key side = []) :
    federation.onWay key side = [] := by
  rw [List.eq_nil_iff_forall_not_mem] at none ⊢
  exact fun change member => none change (mem_moving_of_onWay member)

/-- Nothing sets out from a side whose link has only echoes left. -/
theorem onWay_of_clear (clear : federation.Clear key side.other) :
    federation.onWay key side = [] := by
  have mute := clear.mute
  rw [Side.other_other] at mute
  have unread : cancel (federation.device side).link.echo
      ((federation.device side).link.unread key) = [] := by
    apply cancel_eq_nil
    intro change member
    rw [mute.settled change (mem_tells member)]
    exact Nat.le_add_left _ _
  rw [Federation.onWay, clear.inbound, Link.outbound, mute.toPeer, mute.localPending, unread]
  rfl

/-- A command that a daemon takes was on its way from the other side. -/
theorem mem_moving_of_obeyed (member : change ∈ federation.obeyed key side action) :
    change ∈ federation.moving key side.other := by
  rcases obeyed_cases key federation side action with
    none | ⟨_, _, frame, rest, told, _, queued, command, here, obeyed⟩
  · rw [none] at member
    cases member
  · rw [obeyed, List.mem_singleton] at member
    subst told
    refine List.mem_append_left _ (List.mem_append_left _ ?_)
    rw [Side.other_other, queued, asks_cons, asks_single command]
    exact List.mem_append_left _ (mem_about.mpr ⟨List.mem_singleton_self _, here⟩)

variable [DecidableEq Client] {config : Side → LinkConfig}

/-- Only what its daemon reports sets out from a side. -/
theorem mem_moving_step (member : change ∈ (federation.step config action).moving key side) :
    change ∈ federation.moving key side ∨ change ∈ federation.reported key side action := by
  have receives {own : Bool} {frames : List Frame} {store owned : Store (Nat ⊕ Client)}
      {uplink : Nat → List Frame}
      (arrived : change ∈ (federation.update side ⟨store, owned, uplink,
        (federation.device side).link.receive own frames⟩).moving key side) :
      change ∈ federation.moving key side ∨ change ∈ tells key frames := by
    rw [Federation.moving, update_device_self, update_device_of_ne _ side.other_ne,
      held_receive, ← List.append_assoc] at arrived
    exact List.mem_append.mp arrived
  have popped {own : Bool} {frames : List Frame} {store owned : Store (Nat ⊕ Client)}
      {uplink : Nat → List Frame} (fewer : change ∈ asks key (uplink federation.session) →
        change ∈ asks key ((federation.device side.other).uplink federation.session))
      (arrived : change ∈ (federation.update side.other ⟨store, owned, uplink,
        (federation.device side.other).link.receive own frames⟩).moving key side) :
      change ∈ federation.moving key side := by
    refine mem_moving_updateFar (fun inbound => List.mem_append_left _ ?_) arrived
    rcases List.mem_append.mp inbound with queued | pending
    · exact List.mem_append_left _ (fewer queued)
    · exact List.mem_append_right _ pending
  cases action with
  | client here client frame now later =>
      rcases side.eq_or_other here with rfl | rfl
      · simp only [Federation.reported, if_true]
        exact receives member
      · exact .inl (popped id member)
  | sweep here order now =>
      rcases side.eq_or_other here with rfl | rfl
      · simp only [Federation.reported, if_true]
        exact receives member
      · exact .inl (popped id member)
  | publish here name payload =>
      rcases side.eq_or_other here with rfl | rfl
      · have silent : tells key (Outbox.sendTo (.inl federation.session : Nat ⊕ Client)
            (Msg.publish.frame name payload) (.inl federation.session)) = [] :=
          tells_sendTo_none (publish_pushed (Msg.frame_msg _ _ _)) _ _
        exact .inl ((receives member).resolve_right (by rw [silent]; exact List.not_mem_nil))
      · exact .inl (popped id member)
  | serve here source now later =>
      simp only [Federation.step, Device.serve] at member
      split at member
      · rcases side.eq_or_other here with rfl | rfl
        · exact .inl (mem_moving_updateNear (List.mem_append_right _) member)
        · exact .inl (mem_moving_updateFar (List.mem_append_left _) member)
      · rename_i frame rest queued
        rcases side.eq_or_other here with rfl | rfl
        · simp only [Federation.reported, if_true, queued]
          exact receives member
        · refine .inl (popped ?_ member)
          dsimp only
          by_cases mine : source = federation.session
          · subst source
            rw [Function.update_self, queued, asks_cons]
            exact List.mem_append_right _
          · rw [Function.update_of_ne (Ne.symm mine)]
            exact id
  | localRead here =>
      rcases side.eq_or_other here with rfl | rfl
      · exact .inl (mem_moving_updateNear
          (fun held => List.mem_append_right _ (mem_held_localRead held)) member)
      · refine .inl (mem_moving_updateFar (fun inbound => List.mem_append_left _ ?_) member)
        rw [Device.inbound, (localRead_kept _ _).1] at inbound
        exact inbound
  | localSend here =>
      rcases side.eq_or_other here with rfl | rfl
      · exact .inl (mem_moving_updateNear
          (fun held => List.mem_append_right _ (mem_held_localSend held)) member)
      · refine .inl (mem_moving_updateFar (fun inbound => List.mem_append_left _ ?_) member)
        rw [Device.inbound, (localSend_kept _).1] at inbound
        exact inbound
  | peerRead here => exact .inl (mem_moving_peerRead member)
  | peerSend here =>
      rcases side.eq_or_other here with rfl | rfl
      · refine .inl (mem_moving_updateNear (fun held => List.mem_append_right _ ?_) member)
        obtain ⟨pending, same⟩ := peerSend_link (federation.device here) federation.session
        rw [same] at held
        exact held
      · refine .inl (mem_moving_updateFar (fun inbound => List.mem_append_left _ ?_) member)
        rwa [inbound_peerSend] at inbound

end Chappe
