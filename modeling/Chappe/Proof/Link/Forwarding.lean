/-
This file proves that each loop of a link passes the publishes of a client on in their order.
-/

import Chappe.Proof.Link.Joined
import Chappe.Proof.Link.PeerStream

namespace Chappe
open Foundation

variable {Client : Type} [DecidableEq Client] {sender : Client} {base : Nat}

/-- The frames by which the publishes of the admitted topics go on, with their numbers. -/
def forwarded (admits : Bytes → Bool) (base : Nat) (publishes : List Frame) : List (Frame × Nat) :=
  (publishes.zipIdx (base + 1)).filterMap fun entry =>
    if admits entry.1.name then some (Msg.publish.frame entry.1.name entry.1.payload, entry.2)
    else none

omit [DecidableEq Client] in
theorem forwarded_prefix (admits : Bytes → Bool) (base : Nat) (first second : List Frame) :
    forwarded admits base first <+: forwarded admits base (first ++ second) := by
  rw [forwarded, forwarded, List.zipIdx_append, List.filterMap_append]
  exact List.prefix_append _ _

theorem forwarded_filter (admits also : Bytes → Bool) (base : Nat) (publishes : List Frame) :
    (forwarded admits base publishes).filter (fun entry => also entry.1.name) =
      forwarded (fun name => admits name && also name) base publishes := by
  unfold forwarded
  rw [List.filter_filterMap]
  apply List.filterMap_congr
  intro entry _
  cases admitted : admits entry.1.name with
  | false => simp [admitted]
  | true =>
      cases wanted : also entry.1.name with
      | false => simp [wanted]
      | true => simp [admitted, wanted]

theorem routedBy_nil (sender : Client) (base : Nat) : routedBy sender base [] = [] := rfl

theorem copies_forwarded {tables : Tables Client} {client : Client} {admits : Bytes → Bool}
    (same : ∀ topic, client ∈ tables.targets topic ↔ admits topic = true) (base : Nat)
    (publishes : List Frame) :
    copies tables client base publishes = forwarded admits base publishes := by
  simp only [copies, forwarded, same]

/-- What is written and what the loop holds come from the frames taken from the daemon. -/
def Outpost.Forwards (config : LinkConfig) (me sender : Client) (base : Nat)
    (outpost : Outpost Client) : Prop :=
  routedBy sender base outpost.written ++ routedBy sender base
      (outpost.link.localPending.toList.map fun frame => (frame, outpost.localMark)) =
    (routedBy sender base ((outpost.network.wire me).take outpost.taken)).filter fun entry =>
      config.forwardsTopic entry.1.name

/-- What is published and what the loop holds come from the frames read from the other device. -/
def Outpost.Publishes (config : LinkConfig) (sender : Client) (base : Nat)
    (near far : Outpost Client) : Prop :=
  routedBy sender base near.crossed ++ routedBy sender base
      (near.link.peerPending.toList.map fun frame => (frame, near.peerMark)) =
    (routedBy sender base (far.written.take near.read)).filter fun entry =>
      config.forwardsTopic entry.1.name

variable {config : LinkConfig} {me : Client} {outpost near far next : Outpost Client}

theorem Outpost.Forwards.of_same (forwards : outpost.Forwards config me sender base)
    (written : next.written = outpost.written)
    (pending : next.link.localPending = outpost.link.localPending)
    (mark : next.localMark = outpost.localMark) (count : next.taken = outpost.taken)
    (taken : outpost.taken ≤ (outpost.network.wire me).length)
    (wire : outpost.network.wire me <+: next.network.wire me) :
    next.Forwards config me sender base := by
  obtain ⟨extra, grown⟩ := wire
  unfold Outpost.Forwards
  rw [written, pending, mark, count, ← grown, List.take_append_of_le_length taken]
  exact forwards

theorem Outpost.Publishes.of_same (publishes : near.Publishes config sender base far)
    (crossed : next.crossed = near.crossed)
    (pending : next.link.peerPending = near.link.peerPending)
    (mark : next.peerMark = near.peerMark) (count : next.read = near.read) :
    next.Publishes config sender base far := by
  unfold Outpost.Publishes
  rw [crossed, pending, mark, count]
  exact publishes

theorem Outpost.Publishes.grows (publishes : near.Publishes config sender base far)
    (read : near.read ≤ far.written.length) (written : far.written <+: next.written) :
    near.Publishes config sender base next := by
  obtain ⟨extra, grown⟩ := written
  unfold Outpost.Publishes
  rw [← grown, List.take_append_of_le_length read]
  exact publishes

/-- The loop is about to write a publish on an admitted topic, and nothing for another one. -/
theorem localRead_publish (config : LinkConfig) {link : Link} {frame : Frame}
    (rested : link.localPending = none) (alive : link.alive = true) (bounded : frame.isBounded)
    (publish : frame.msg = some .publish) :
    ({ link with fromDaemon := [(false, frame)] }.localRead config).localPending =
      if config.forwardsTopic frame.name then some frame else none := by
  simp only [Link.localRead, Link.localFrame, rested, alive, bounded, publish, if_true]
  split
  · exact congrArg some (frame_of_msg publish)
  · rfl

/-- The loop takes one frame more from the daemon. A frame of the sender is a publish. -/
theorem Outpost.Forwards.localRead (forwards : outpost.Forwards config me sender base)
    (taken : outpost.taken ≤ (outpost.network.wire me).length)
    (typed : ∀ frame mark, (frame, mark) ∈ outpost.network.wire me →
      frame.msg ≠ some .publish → since sender base mark = none) :
    (outpost.localRead config me).Forwards config me sender base := by
  unfold Outpost.localRead
  split
  · rename_i frame mark rested ready arrived
    split
    · rename_i bounded
      unfold Outpost.Forwards at forwards ⊢
      rw [rested, Option.toList_none, List.map_nil, routedBy_nil, List.append_nil] at forwards
      dsimp only
      rw [List.take_add_one, arrived, Option.toList_some, routedBy_append, List.filter_append,
        ← forwards, routedBy_single]
      congr 1
      cases origin : since sender base mark with
      | none =>
          rw [routedBy_foreign origin]
          rfl
      | some number =>
          have publish : frame.msg = some .publish := by
            by_contra other
            rw [typed frame mark (List.mem_of_getElem? arrived) other] at origin
            cases origin
          rw [localRead_publish config rested (Bool.and_eq_true_iff.mp ready).1 bounded
            publish, Option.toList_some, List.map_singleton, List.filter_singleton]
          cases config.forwardsTopic frame.name with
          | true =>
              rw [if_pos rfl, Option.toList_some, List.map_singleton, routedBy_single, origin]
              rfl
          | false => rfl
    · exact forwards.of_same rfl rfl rfl rfl taken (List.prefix_refl _)
  · exact forwards

theorem Outpost.Forwards.localSend (forwards : outpost.Forwards config me sender base) :
    outpost.localSend.Forwards config me sender base := by
  unfold Outpost.localSend
  split
  · rename_i frame pending alive
    unfold Outpost.Forwards at forwards ⊢
    rw [pending] at forwards
    simp only [Link.localSend, pending, alive, routedBy_append, List.append_assoc]
    simpa [routedBy_nil] using forwards
  · exact forwards

/-- The loop reads one frame more from the other device. A frame of the sender is a publish. -/
theorem Outpost.Publishes.peerRead (publishes : near.Publishes config sender base far)
    (vetted : 0 < near.read → near.link.alive = true → near.link.vetted = true)
    (opened : ∃ hello rest, far.written = (hello, none) :: rest)
    (typed : ∀ frame mark, (frame, mark) ∈ far.written →
      frame.msg ≠ some .publish → since sender base mark = none) :
    (near.peerRead config far).Publishes config sender base far := by
  unfold Outpost.peerRead
  split
  · rename_i frame mark rested ready arrived
    split
    · unfold Outpost.Publishes at publishes ⊢
      rw [rested, Option.toList_none, List.map_nil, routedBy_nil, List.append_nil] at publishes
      dsimp only
      rw [List.take_add_one, arrived, Option.toList_some, routedBy_append, List.filter_append,
        ← publishes, routedBy_single]
      congr 1
      cases origin : since sender base mark with
      | none =>
          rw [routedBy_foreign origin]
          rfl
      | some number =>
          have publish : frame.msg = some .publish := by
            by_contra other
            rw [typed frame mark (List.mem_of_getElem? arrived) other] at origin
            cases origin
          have later : 0 < near.read := by
            rw [Nat.pos_iff_ne_zero]
            intro first
            obtain ⟨hello, rest, opened⟩ := opened
            rw [first, opened, List.getElem?_cons_zero] at arrived
            cases arrived
            cases origin
          obtain ⟨⟨alive, -⟩, -⟩ :
              (near.link.alive = true ∧ near.started = true) ∧ far.started = true := by
            simpa using ready
          obtain ⟨-, pending, -⟩ := peerFrame_vetted config (vetted later alive) rested frame
          rw [pending, Option.toList_some, List.map_singleton, List.filter_singleton]
          simp only [LinkConfig.admits, publish, ← forwardsTopic_iff]
          cases config.forwardsTopic frame.name with
          | true =>
              rw [if_pos rfl, Option.toList_some, List.map_singleton, routedBy_single, origin]
              rfl
          | false => rfl
    · exact publishes.of_same rfl rfl rfl rfl
  · exact publishes

theorem Outpost.Publishes.peerSend (publishes : near.Publishes config sender base far)
    (connected : (near.network.daemon.life me).connected = true)
    (typed : ∀ frame ∈ near.link.peerPending, frame.isPublish = false →
      since sender base near.peerMark = none) :
    (near.peerSend me).Publishes config sender base far := by
  unfold Outpost.peerSend
  split
  · rename_i frame pending
    unfold Outpost.Publishes at publishes ⊢
    rw [pending, Option.toList_some, List.map_singleton] at publishes
    dsimp only
    rw [Option.toList_none, List.map_nil, ← publishes, connected, Bool.and_true]
    split
    · rw [routedBy_append]
      exact List.append_nil _
    · rename_i other
      have foreign := typed frame pending (Bool.eq_false_of_not_eq_true other)
      rw [routedBy_single, foreign]
      rfl
  · exact publishes

end Chappe
