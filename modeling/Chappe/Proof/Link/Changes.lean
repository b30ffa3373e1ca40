/-
This file proves what one step of two joined devices does to a key: which changes a daemon performs,
which of them its link asked for, and what it reports to the link.
-/

import Chappe.Proof.Link.Flow

namespace Chappe
open Foundation

variable {Client : Type} {config : Side → LinkConfig} {key : Bytes} {federation : Federation Client}
  {side : Side} {action : FederationAction Client}

/-- The daemon of the side answers a get of its link for the key. -/
def Federation.Answers (key : Bytes) (side : Side) (federation : Federation Client)
    (action : FederationAction Client) : Prop :=
  ∃ now later frame rest, action = .serve side federation.session now later ∧
    (federation.device side).uplink federation.session = frame :: rest ∧ frame.Gets key

theorem peerRead_store (config : Side → LinkConfig) (federation : Federation Client)
    (here side : Side) : ((federation.peerRead config here).device side).store =
      (federation.device side).store ∧
    ((federation.peerRead config here).device side).uplink = (federation.device side).uplink := by
  unfold Federation.peerRead
  dsimp only
  split
  · split
    · rcases here.eq_or_other side with rfl | rfl
      · rw [update_device_self]
        exact ⟨rfl, rfl⟩
      · rw [update_device_of_ne _ here.other_ne, update_device_self]
        exact ⟨rfl, rfl⟩
    · rcases here.eq_or_other side with rfl | rfl
      · rw [update_device_self]
        exact ⟨rfl, rfl⟩
      · rw [update_device_of_ne _ here.other_ne]
        exact ⟨rfl, rfl⟩
  · exact ⟨rfl, rfl⟩

/-- A command that the daemon of a side takes is the next frame of its link. -/
theorem obeyed_cases (key : Bytes) (federation : Federation Client) (side : Side)
    (action : FederationAction Client) :
    federation.obeyed key side action = [] ∨
      ∃ now later frame rest change, action = .serve side federation.session now later ∧
        (federation.device side).uplink federation.session = frame :: rest ∧
        frame.command = some change ∧ change.key = key ∧
        federation.obeyed key side action = [change] := by
  cases action with
  | serve here source now later =>
      simp only [Federation.obeyed]
      split
      · rename_i same
        obtain ⟨rfl, rfl⟩ := same
        split
        · exact .inl rfl
        · rename_i frame rest queued
          cases command : frame.command with
          | none => exact .inl (asks_single_none command)
          | some change =>
              rw [asks_single command, about_single]
              split
              · rename_i name
                exact .inr ⟨now, later, frame, rest, change, rfl, queued, command, name, rfl⟩
              · exact .inl rfl
      · exact .inl rfl
  | _ => exact .inl rfl

theorem obeyed_of_answers (answers : federation.Answers key side action) :
    federation.obeyed key side action = [] := by
  obtain ⟨now, later, frame, rest, rfl, queued, -, id, request⟩ := answers
  rcases obeyed_cases key federation side (.serve side federation.session now later) with
    none | ⟨_, _, _, _, change, -, waiting, command, -, -⟩
  · exact none
  · rw [queued] at waiting
    cases waiting
    unfold Frame.command at command
    split at command
    · rename_i kind
      simp [KvRequest.ofFrame, kind] at request
    · rename_i kind
      simp [KvRequest.ofFrame, kind] at request
    · cases command

/-- A link watches the key when its first command for the key is served. -/
theorem watches_of_obeyed (listed : key ∈ (config side).keys)
    (accounted : (federation.device side).Accounted (config side) federation.session)
    (obeyed : federation.obeyed key side action ≠ []) :
    (federation.device side).store.Watches (.inl federation.session) key := by
  obtain none | ⟨now, later, frame, rest, change, rfl, queued, command, -, -⟩ :=
    obeyed_cases key federation side action
  · exact absurd none obeyed
  · obtain ⟨asked, orders, split, silent, -, primed⟩ := accounted.primed
    cases asked with
    | nil =>
        rcases primed key listed with watches | ⟨id, member⟩
        · exact watches
        · cases member
    | cons first more =>
        rw [queued, List.cons_append] at split
        cases split
        rw [silent frame List.mem_cons_self] at command
        cases command

theorem Device.Quiet.onWay {side : Side}
    (quiet : ∀ side, (federation.device side).Quiet federation.session) :
    federation.onWay key side = [] := by
  have near := quiet side
  have far := quiet side.other
  simp only [Federation.onWay, Device.inbound, far.uplink, far.peerPending, Link.outbound,
    near.toPeer, near.localPending, Link.unread, near.fromDaemon, Option.toList_none, asks_nil,
    List.map_nil, tells_nil, cancel, List.append_nil]

/-- A link has asked for its keys when nothing is on its way. -/
theorem Device.Quiet.watches {side : Side}
    (quiet : (federation.device side).Quiet federation.session)
    (accounted : federation.Accounted config) (listed : key ∈ (config side).keys) :
    (federation.device side).store.Watches (.inl federation.session) key := by
  obtain ⟨asked, orders, split, -, -, primed⟩ := (accounted side).primed
  rw [quiet.uplink] at split
  obtain ⟨rfl, -⟩ := List.append_eq_nil_iff.mp split.symm
  rcases primed key listed with watches | ⟨id, member⟩
  · exact watches
  · cases member

variable [DecidableEq Client]

/-- The changes of the key that the daemon of a side performs for another reason than a command of
its link. -/
def Federation.stirred (key : Bytes) (side : Side) (federation : Federation Client)
    (action : FederationAction Client) : List Change :=
  if federation.obeyed key side action = [] then federation.performed key side action else []

theorem step_session (config : Side → LinkConfig) (federation : Federation Client)
    (action : FederationAction Client) :
    (federation.step config action).session = federation.session := by
  cases action with
  | peerRead side =>
      simp only [Federation.step, Federation.peerRead]
      split
      · split <;> rfl
      · rfl
  | _ => rfl

/-- The store of a side changes only when its daemon handles a frame or sweeps. -/
theorem step_store (key : Bytes) (config : Side → LinkConfig) (federation : Federation Client)
    (action : FederationAction Client) (side : Side) :
    (∃ client frame now later, action = .client side client frame now later) ∨
      (∃ order now, action = .sweep side order now) ∨
      (∃ source now later frame rest, action = .serve side source now later ∧
        (federation.device side).uplink source = frame :: rest) ∨
      (((federation.step config action).device side).store = (federation.device side).store ∧
        federation.performed key side action = [] ∧ ¬ federation.Answers key side action) := by
  have idle (other : ∀ now later, action ≠ .serve side federation.session now later) :
      ¬ federation.Answers key side action := by
    rintro ⟨now, later, _, _, same, _⟩
    exact other now later same
  cases action with
  | client here client frame now later =>
      by_cases same : here = side
      · subst here
        exact .inl ⟨client, frame, now, later, rfl⟩
      · refine .inr (.inr (.inr ⟨?_, if_neg same, idle (by simp)⟩))
        rw [Federation.step, update_device_of_ne _ (Ne.symm same)]
  | sweep here order now =>
      by_cases same : here = side
      · subst here
        exact .inr (.inl ⟨order, now, rfl⟩)
      · refine .inr (.inr (.inr ⟨?_, if_neg same, idle (by simp)⟩))
        rw [Federation.step, update_device_of_ne _ (Ne.symm same)]
  | serve here source now later =>
      by_cases same : here = side
      · subst here
        cases queued : (federation.device side).uplink source with
        | nil =>
            refine .inr (.inr (.inr ⟨?_, ?_, ?_⟩))
            · simp only [Federation.step, update_device_self, Device.serve, queued]
            · simp only [Federation.performed, queued, ite_self]
            · rintro ⟨_, _, frame, rest, served, waiting, _⟩
              cases served
              rw [queued] at waiting
              cases waiting
        | cons frame rest =>
            exact .inr (.inr (.inl ⟨source, now, later, frame, rest, rfl, queued⟩))
      · refine .inr (.inr (.inr ⟨?_, if_neg same, idle (by simp [same])⟩))
        rw [Federation.step, update_device_of_ne _ (Ne.symm same)]
  | peerRead here =>
      exact .inr (.inr (.inr ⟨(peerRead_store config federation here side).1, rfl,
        idle (by simp)⟩))
  | peerSend here =>
      refine .inr (.inr (.inr ⟨?_, rfl, idle (by simp)⟩))
      by_cases same : side = here
      · subst here
        rw [Federation.step, update_device_self]
        unfold Device.peerSend
        split <;> rfl
      · rw [Federation.step, update_device_of_ne _ same]
  | publish here name payload =>
      refine .inr (.inr (.inr ⟨?_, rfl, idle (by simp)⟩))
      by_cases same : side = here
      · subst here
        rw [Federation.step, update_device_self]
        rfl
      · rw [Federation.step, update_device_of_ne _ same]
  | localRead here | localSend here =>
      refine .inr (.inr (.inr ⟨?_, rfl, idle (by simp)⟩))
      by_cases same : side = here
      · subst here
        rw [Federation.step, update_device_self]
      · rw [Federation.step, update_device_of_ne _ same]

/-- A daemon changes its store as the changes say that it performs. -/
theorem step_kv (config : Side → LinkConfig) (federation : Federation Client)
    (action : FederationAction Client) (side : Side) :
    ((federation.step config action).device side).store.kv key =
      (federation.performed key side action).foldl Change.apply
        ((federation.device side).store.kv key) := by
  rcases step_store key config federation action side with
    ⟨client, frame, now, later, rfl⟩ | ⟨order, now, rfl⟩ |
      ⟨source, now, later, frame, rest, rfl, queued⟩ | ⟨same, none, -⟩
  · rw [Federation.step, update_device_self]
    simp only [Federation.performed, if_true]
    exact handleFrame_kv now later _ frame
  · rw [Federation.step, update_device_self]
    simp only [Federation.performed, if_true]
    exact sweepKeys_kv now _ _
  · rw [Federation.step, update_device_self]
    simp only [Federation.performed, if_true, Device.serve, queued]
    exact handleFrame_kv now later _ frame
  · rw [same, none]
    rfl

theorem handleFrame_starts {store : Store (Nat ⊕ Client)} {source : Nat ⊕ Client} {frame : Frame}
    (gets : frame.Gets key) (now later : Nat) :
    (store.handleFrame now later source frame).1.Watches source key ∧
      store.seed key now frame =
        ((store.handleFrame now later source frame).1.kv key).toList.map (.set key) := by
  obtain ⟨rfl, id, request⟩ := gets
  simp only [Store.handleFrame, request, KvRequest.checksDeadline, if_true, Store.answer,
    Store.seed]
  exact ⟨watch_watches.mpr (.inr ⟨rfl, rfl⟩), rfl⟩

theorem handleFrame_keeps {store : Store (Nat ⊕ Client)} {client : Nat ⊕ Client}
    (watches : store.Watches client key) (now later : Nat) (source : Nat ⊕ Client)
    (frame : Frame) : (store.handleFrame now later source frame).1.Watches client key := by
  rcases handleFrame_watching store now later source frame with same | ⟨id, -, started⟩
  · exact (same.watches client key).mpr watches
  · exact (started.watches client key).mpr (watch_watches.mpr (.inl watches))

/-- A link watches the key once its daemon has answered a get of it. -/
theorem step_watches (key : Bytes) (config : Side → LinkConfig) (federation : Federation Client)
    (action : FederationAction Client) (side : Side) :
    ((federation.step config action).device side).store.Watches (.inl federation.session) key ↔
      (federation.device side).store.Watches (.inl federation.session) key ∨
        federation.Answers key side action := by
  rcases step_store key config federation action side with
    ⟨client, frame, now, later, rfl⟩ | ⟨order, now, rfl⟩ |
      ⟨source, now, later, frame, rest, rfl, queued⟩ | ⟨same, -, idle⟩
  · rw [Federation.step, update_device_self]
    constructor
    · intro watches
      rcases handleFrame_watches watches with before | ⟨mine, -⟩
      · exact .inl before
      · cases mine
    · rintro (before | ⟨_, _, _, _, same, _⟩)
      · exact handleFrame_keeps before now later _ frame
      · cases same
  · rw [Federation.step, update_device_self]
    constructor
    · exact fun watches => .inl ((sweep_watches now order _ key).mp watches)
    · rintro (before | ⟨_, _, _, _, same, _⟩)
      · exact (sweep_watches now order _ key).mpr before
      · cases same
  · rw [Federation.step, update_device_self]
    simp only [Device.serve, queued]
    constructor
    · intro watches
      rcases handleFrame_watches watches with before | ⟨mine, gets⟩
      · exact .inl before
      · cases mine
        exact .inr ⟨now, later, frame, rest, rfl, queued, gets⟩
    · rintro (before | ⟨_, _, _, _, same, waiting, gets⟩)
      · exact handleFrame_keeps before now later _ frame
      · cases same
        rw [queued] at waiting
        cases waiting
        exact (handleFrame_starts gets now later).1
  · rw [same]
    exact ⟨.inl, fun watches => watches.resolve_right idle⟩

/-- The daemon answers a get of its link with the value that the key has then. -/
theorem seeded_of_answers (config : Side → LinkConfig)
    (answers : federation.Answers key side action) :
    federation.seeded key side action =
      (((federation.step config action).device side).store.kv key).toList.map (.set key) := by
  obtain ⟨now, later, frame, rest, rfl, queued, gets⟩ := answers
  rw [Federation.step, update_device_self]
  simp only [Federation.seeded, true_and, if_true, Device.serve, queued]
  exact (handleFrame_starts gets now later).2

theorem seeded_eq_nil (idle : ¬ federation.Answers key side action) :
    federation.seeded key side action = [] := by
  cases action with
  | serve here source now later =>
      simp only [Federation.seeded]
      split
      · rename_i same
        obtain ⟨rfl, rfl⟩ := same
        split
        · rfl
        · rename_i frame rest queued
          unfold Store.seed
          split
          · rename_i id request
            split
            · rename_i name
              exact absurd ⟨now, later, frame, rest, rfl, queued, name, id, request⟩ idle
            · rfl
          · rfl
      · rfl
  | _ => rfl

/-- The daemon of a side tells its link what it owes. -/
theorem reported_eq_owes (federation : Federation Client) (side : Side)
    (action : FederationAction Client) :
    federation.reported key side action = federation.owes key side action := by
  cases action with
  | client here client frame now later =>
      by_cases same : here = side
      · simp [Federation.reported, Federation.owes, Federation.performed, Federation.seeded, same,
          handleFrame_tells]
      · simp [Federation.reported, Federation.owes, Federation.performed, Federation.seeded, same]
  | sweep here order now =>
      by_cases same : here = side
      · simp only [Federation.reported, Federation.owes, Federation.performed, Federation.seeded,
          same, if_true, List.append_nil]
        exact sweepKeys_tells now _ _ _
      · simp [Federation.reported, Federation.owes, Federation.performed, Federation.seeded, same]
  | serve here source now later =>
      by_cases same : here = side
      · cases queued : (federation.device side).uplink source with
        | nil =>
            simp [Federation.reported, Federation.owes, Federation.performed, Federation.seeded,
              same, queued]
        | cons frame rest =>
            simp only [Federation.reported, Federation.owes, Federation.performed,
              Federation.seeded, same, queued, if_true, true_and, handleFrame_tells]
            congr 1
            by_cases mine : source = federation.session
            · simp [mine]
            · rw [if_neg mine, if_neg fun equal => mine (Sum.inl.inj equal).symm]
      · simp [Federation.reported, Federation.owes, Federation.performed, Federation.seeded, same]
  | _ => simp [Federation.reported, Federation.owes, Federation.performed, Federation.seeded]

theorem performed_command {store : Store (Nat ⊕ Client)} {frame : Frame} {change : Change}
    (command : frame.command = some change) (now : Nat) : store.performed now frame = [change] := by
  unfold Frame.command at command
  split at command
  · rename_i kind
    cases command
    simp [Store.performed, KvRequest.ofFrame, kind, KvRequest.checksDeadline, KvRequest.performed]
  · rename_i kind
    cases command
    simp [Store.performed, KvRequest.ofFrame, kind, KvRequest.checksDeadline, KvRequest.performed]
  · cases command

/-- A daemon performs what its link commands and what happens for other reasons. -/
theorem performed_eq (key : Bytes) (federation : Federation Client) (side : Side)
    (action : FederationAction Client) :
    federation.performed key side action =
      federation.obeyed key side action ++ federation.stirred key side action := by
  rcases obeyed_cases key federation side action with
    none | ⟨now, later, frame, rest, change, rfl, queued, command, name, obeyed⟩
  · rw [Federation.stirred, if_pos none, none, List.nil_append]
  · rw [Federation.stirred, if_neg (by simp [obeyed]), List.append_nil, obeyed]
    simp only [Federation.performed, if_true, queued, performed_command command]
    exact (about_single change).trans (if_pos name)

/-- A daemon that performs only what its link commands reports only echoes. -/
theorem reported_eq_obeyed (listed : key ∈ (config side).keys)
    (accounted : (federation.device side).Accounted (config side) federation.session)
    (calm : federation.stirred key side action = [])
    (unasked : federation.seeded key side action = []) :
    federation.reported key side action = federation.obeyed key side action := by
  rw [reported_eq_owes, Federation.owes, performed_eq, calm, unasked, List.append_nil,
    List.append_nil]
  split
  · rfl
  · rename_i unwatched
    by_cases obeyed : federation.obeyed key side action = []
    · exact obeyed.symm
    · exact absurd (watches_of_obeyed listed accounted obeyed) unwatched

/-- What the link of a side knows of the key: its value, once the link watches the key. -/
def Federation.learned (key : Bytes) (side : Side) (federation : Federation Client) :
    Option Bytes :=
  if (federation.device side).store.Watches (.inl federation.session) key then
    (federation.device side).store.kv key
  else none

theorem foldl_seed (value before : Option Bytes) (known : value = none → before = none) :
    (value.toList.map (Change.set key)).foldl Change.apply before = value := by
  cases value with
  | none => exact known rfl
  | some bytes => rfl

/-- A link knows the key by what its daemon owes it. -/
theorem learned_step (key : Bytes) (config : Side → LinkConfig) (federation : Federation Client)
    (action : FederationAction Client) (side : Side) :
    (federation.step config action).learned key side =
      (federation.owes key side action).foldl Change.apply (federation.learned key side) := by
  have watches := step_watches key config federation action side
  rw [Federation.learned, step_session, Federation.learned, Federation.owes, List.foldl_append]
  by_cases before : (federation.device side).store.Watches (.inl federation.session) key
  · rw [if_pos before, if_pos (watches.mpr (.inl before)), if_pos before, ← step_kv config]
    by_cases answers : federation.Answers key side action
    · rw [seeded_of_answers config answers, foldl_seed _ _ id]
    · rw [seeded_eq_nil answers]
      rfl
  · rw [if_neg before, if_neg before]
    by_cases answers : federation.Answers key side action
    · rw [if_pos (watches.mpr (.inr answers)), seeded_of_answers config answers]
      exact (foldl_seed _ _ fun _ => rfl).symm
    · rw [if_neg (fun after => (watches.mp after).elim before answers), seeded_eq_nil answers]
      rfl

end Chappe
