/-
This file proves that a key which a client has won is won again only after its lease has ended.
-/

import Chappe.Construction.NodeCalls
import Chappe.Construction.ServerHistory
import Chappe.Foundation.Run
import Chappe.Proof.Kv.KeyLocality
import Chappe.Proof.Kv.TimedRefinement

namespace Chappe
open Foundation

variable {Client : Type}

/-- What a step of the store is asked about the key, and by whom. -/
def Deed.about (key : Bytes) : Deed Client → Option (Client × KvRequest)
  | .request client frame _ _ =>
      if frame.name = key then (KvRequest.ofFrame frame).map (client, ·) else none
  | _ => none

/-- The latest value of the clock that a step has read. -/
def Deed.latest : Deed Client → Nat
  | .request _ _ now later => max now later
  | .sweep _ read => read
  | .take _ _ | .forget _ => 0

/-- The step writes the key, or deletes it. -/
def Deed.Writes (key : Bytes) (deed : Deed Client) : Prop :=
  ∃ client request, deed.about key = some (client, request) ∧
    match request with
    | .set _ | .setex _ _ | .del | .incr _ _ => True
    | .get _ | .setnx _ _ _ => False

variable [DecidableEq Client] {store : Store Client} {key : Bytes} {deed : Deed Client}

/-- The step sends its client word that it has won the key. -/
def Store.Grants (store : Store Client) (key : Bytes) (deed : Deed Client) : Prop :=
  ∃ client id ttlMs value, deed.about key = some (client, .setnx id ttlMs value) ∧
    kvResult key id true [] ∈ (store.deed deed).2 client

/-- The key is held until the limit. -/
def Store.Held (store : Store Client) (key : Bytes) (limit : Option Nat) : Prop :=
  store.kv key ≠ none ∧ store.expires key = limit

omit [DecidableEq Client] in
theorem Store.Held.of_agree {first second : Store Client} (same : AgreeAt key first second)
    {limit : Option Nat} (held : second.Held key limit) : first.Held key limit :=
  ⟨same.kv ▸ held.1, same.expires ▸ held.2⟩

omit [DecidableEq Client] in
theorem Store.Held.expired_iff {limit : Option Nat} (held : store.Held key limit) (now : Nat) :
    store.expired key now = true ↔ ∃ deadline, limit = some deadline ∧ deadline ≤ now := by
  rw [Store.expired, held.2]
  cases limit <;> simp

/-- The lazy expiry keeps a key that is held, or the limit has passed and the key is gone. -/
theorem Store.Held.dropIfExpired {limit : Option Nat} (held : store.Held key limit) (now : Nat) :
    ((store.dropIfExpired key now).1.Held key limit ∧
      ¬ ∃ deadline, limit = some deadline ∧ deadline ≤ now) ∨
    ((store.dropIfExpired key now).1.kv key = none ∧
      ∃ deadline, limit = some deadline ∧ deadline ≤ now) := by
  rw [← held.expired_iff]
  unfold Store.dropIfExpired
  split
  · rename_i expired
    exact .inr ⟨Table.erase_self .., expired⟩
  · rename_i live
    exact .inl ⟨held, live⟩

theorem dropIfExpired_gone (gone : store.kv key = none) (now : Nat) :
    (store.dropIfExpired key now).1.kv key = none := by
  unfold Store.dropIfExpired
  split
  · exact Table.erase_self ..
  · exact gone

/-- A conditional set wins exactly when the key is gone. -/
theorem setnx_wins {source : Client} {later id ttlMs : Nat} {value : Bytes} :
    kvResult key id true [] ∈ (store.answer later source key (.setnx id ttlMs value)).2 source ↔
      store.kv key = none := by
  have differ : kvResult key id true [] ≠ kvResult key id false [] := by
    intro same
    have payload := congrArg Frame.payload same
    simp [kvResult, answerPayload] at payload
  simp only [Store.answer]
  cases store.kv key with
  | none =>
      simp only [iff_true]
      exact List.mem_append_right _ (by simp [Outbox.sendTo])
  | some _ => simp [Outbox.sendTo, differ]

theorem deed_handleFrame {client : Client} {frame : Frame} {now later : Nat}
    {request : KvRequest} (read : KvRequest.ofFrame frame = some request)
    (checks : request.checksDeadline = true) :
    store.deed (.request client frame now later) =
      (((store.dropIfExpired frame.name now).1.answer later client frame.name request).1,
        (store.dropIfExpired frame.name now).2.then
          ((store.dropIfExpired frame.name now).1.answer later client frame.name request).2) := by
  simp [Store.deed, Store.handleFrame, read, checks]

/-- The daemon grants a key exactly when the lazy expiry leaves none. -/
theorem grants_iff {client : Client} {frame : Frame} {now later id ttlMs : Nat} {value : Bytes}
    (read : KvRequest.ofFrame frame = some (.setnx id ttlMs value)) :
    store.Grants frame.name (.request client frame now later) ↔
      (store.dropIfExpired frame.name now).1.kv frame.name = none := by
  have about : Deed.about frame.name (.request client frame now later) =
      some (client, .setnx id ttlMs value) := by
    simp [Deed.about, read]
  have pushed : kvResult frame.name id true [] ∉
      (store.dropIfExpired frame.name now).2 client := by
    unfold Store.dropIfExpired
    split
    · intro member
      have same := congrArg Frame.msg (mem_fanOut member).1
      simp [kvResult] at same
    · exact List.not_mem_nil
  unfold Store.Grants
  rw [deed_handleFrame read rfl]
  constructor
  · rintro ⟨winner, number, ttl, bytes, same, member⟩
    rw [about] at same
    cases same
    exact setnx_wins.mp ((List.mem_append.mp member).resolve_left pushed)
  · intro gone
    exact ⟨client, id, ttlMs, value, about, List.mem_append_right _ (setnx_wins.mpr gone)⟩

/-- A step that does not write the key leaves it, drops it when it has expired, or grants it. -/
theorem quiet_cases (quiet : ¬ deed.Writes key) :
    AgreeAt key (store.deed deed).1 store ∨
    (∃ now ≤ deed.latest, AgreeAt key (store.deed deed).1 (store.dropIfExpired key now).1) ∨
    store.Grants key deed := by
  cases deed with
  | take client frame => exact .inl (.refl key store)
  | forget client => exact .inl ⟨rfl, rfl⟩
  | sweep order read =>
      have swept := sweep_at key read order store
      split at swept
      · exact .inr (.inl ⟨read, Nat.le_refl read, swept⟩)
      · exact .inl swept
  | request client frame now later =>
      by_cases here : frame.name = key
      · subst key
        cases read : KvRequest.ofFrame frame with
        | none =>
            refine .inl ?_
            simp only [Store.deed, Store.handleFrame, read]
            exact .refl frame.name store
        | some request =>
            have about : Deed.about frame.name (.request client frame now later) =
                some (client, request) := by
              simp [Deed.about, read]
            have soon : now ≤ (Deed.request client frame now later).latest := Nat.le_max_left ..
            cases request with
            | set _ | setex _ _ | del | incr _ _ =>
                exact absurd ⟨client, _, about, True.intro⟩ quiet
            | get id =>
                refine .inr (.inl ⟨now, soon, ?_⟩)
                rw [deed_handleFrame read rfl]
                exact ⟨rfl, rfl⟩
            | setnx id ttlMs value =>
                by_cases gone : (store.dropIfExpired frame.name now).1.kv frame.name = none
                · exact .inr (.inr ((grants_iff read).mpr gone))
                · refine .inr (.inl ⟨now, soon, ?_⟩)
                  rw [deed_handleFrame read rfl]
                  obtain ⟨found, some⟩ := Option.ne_none_iff_exists'.mp gone
                  simp only [Store.answer, some]
                  exact .refl _ _
      · exact .inl (handleFrame_other here now later client)

/-- A key that is held is still held after a step, or its limit has passed and it is gone or has
been granted again. -/
theorem Store.Held.step {limit : Option Nat} (held : store.Held key limit)
    (quiet : ¬ deed.Writes key) :
    (store.deed deed).1.Held key limit ∨
      ((∃ deadline, limit = some deadline ∧ deadline ≤ deed.latest) ∧
        ((store.deed deed).1.kv key = none ∨ store.Grants key deed)) := by
  rcases quiet_cases quiet with same | ⟨now, soon, same⟩ | grants
  · exact .inl (held.of_agree same)
  · rcases held.dropIfExpired now with ⟨kept, -⟩ | ⟨gone, deadline, some, passed⟩
    · exact .inl (kept.of_agree same)
    · exact .inr ⟨⟨deadline, some, passed.trans soon⟩, .inl (same.kv.trans gone)⟩
  · obtain ⟨client, id, ttlMs, value, about, -⟩ := id grants
    cases deed with
    | request source frame now later =>
        simp only [Deed.about] at about
        split at about
        · rename_i here
          subst key
          obtain ⟨request, read, same⟩ := Option.map_eq_some_iff.mp about
          cases same
          rcases held.dropIfExpired now with ⟨kept, -⟩ | ⟨-, deadline, some, passed⟩
          · exact absurd ((grants_iff read).mp grants) kept.1
          · exact .inr ⟨⟨deadline, some, passed.trans (Nat.le_max_left ..)⟩, .inr grants⟩
        · cases about
    | take _ _ | sweep _ _ | forget _ => cases about

theorem gone_deed (gone : store.kv key = none) (quiet : ¬ deed.Writes key) :
    (store.deed deed).1.kv key = none ∨ store.Grants key deed := by
  rcases quiet_cases quiet with same | ⟨now, -, same⟩ | grants
  · exact .inl (same.kv.trans gone)
  · exact .inl (same.kv.trans (dropIfExpired_gone gone now))
  · exact .inr grants

/-- The store after a history. -/
def Store.after (store : Store Client) (deeds : List (Deed Client)) : Store Client :=
  runWith Store.deed store deeds

/-- A step of the history grants the key. -/
def Store.GrantsIn (store : Store Client) (key : Bytes) (deeds : List (Deed Client)) : Prop :=
  ∃ before deed later, deeds = before ++ deed :: later ∧ (store.after before).Grants key deed

theorem store_after_append (first second : List (Deed Client)) :
    store.after (first ++ second) = (store.after first).after second :=
  run_append ..

theorem Store.GrantsIn.append {first : List (Deed Client)} (grants : store.GrantsIn key first)
    (second : List (Deed Client)) : store.GrantsIn key (first ++ second) := by
  obtain ⟨before, deed, later, rfl, here⟩ := grants
  exact ⟨before, deed, later ++ second, by simp, here⟩

/-- A key that is held is still held after a history that does not write it, or its limit has
passed and it is gone or has been granted again. -/
theorem Store.Held.after {limit : Option Nat} (held : store.Held key limit)
    (deeds : List (Deed Client)) (quiet : ∀ deed ∈ deeds, ¬ deed.Writes key) :
    (store.after deeds).Held key limit ∨
      ((∃ deadline, limit = some deadline ∧ ∃ deed ∈ deeds, deadline ≤ deed.latest) ∧
        ((store.after deeds).kv key = none ∨ store.GrantsIn key deeds)) := by
  induction deeds using List.reverseRecOn with
  | nil => exact .inl held
  | append_singleton deeds deed ih =>
      have last : ¬ deed.Writes key := quiet deed (by simp)
      have step : store.after (deeds ++ [deed]) = ((store.after deeds).deed deed).1 :=
        store_after_append deeds [deed]
      have grants (here : (store.after deeds).Grants key deed) :
          store.GrantsIn key (deeds ++ [deed]) := ⟨deeds, deed, [], rfl, here⟩
      rw [step]
      rcases ih fun earlier member => quiet earlier (by simp [member]) with
        before | ⟨⟨deadline, some, earlier, member, passed⟩, state⟩
      · rcases Store.Held.step before last with kept | ⟨⟨deadline, some, passed⟩, state⟩
        · exact .inl kept
        · exact .inr ⟨⟨deadline, some, deed, by simp, passed⟩, state.imp_right grants⟩
      · refine .inr ⟨⟨deadline, some, earlier, by simp [member], passed⟩, ?_⟩
        rcases state with gone | granted
        · exact (gone_deed gone last).imp_right grants
        · exact .inr (Store.GrantsIn.append granted [deed])

/-- The deadline that a step gives to a key that it wins. -/
def Deed.leaseEnd : Deed Client → Option Nat
  | .request _ frame _ later =>
      match KvRequest.ofFrame frame with
      | some (.setnx _ ttlMs _) => deadlineAfter later ttlMs
      | _ => none
  | _ => none

/-- A key that is granted is held until the end of the lease. -/
theorem Store.Grants.held (grants : store.Grants key deed) :
    (store.deed deed).1.Held key deed.leaseEnd := by
  obtain ⟨client, id, ttlMs, value, about, -⟩ := id grants
  cases deed with
  | request source frame now later =>
      simp only [Deed.about] at about
      split at about
      · rename_i here
        subst key
        obtain ⟨request, read, same⟩ := Option.map_eq_some_iff.mp about
        cases same
        have gone := (grants_iff read).mp grants
        rw [deed_handleFrame read rfl]
        simp only [Store.answer, gone, Deed.leaseEnd, read, deadlineAfter, Store.store]
        refine ⟨by simp, ?_⟩
        dsimp only
        split
        · exact Table.insert_self ..
        · exact Table.erase_self ..
      · cases about
  | take _ _ | sweep _ _ | forget _ => cases about

/-- A key that has been won and not been written since is won again only after the end of the lease,
and the next conditional set after the end wins it unless one before has. -/
theorem lease_passes_on {first : Deed Client} {between : List (Deed Client)} {client : Client}
    {frame : Frame} {now later id ttlMs : Nat} {value : Bytes} (won : store.Grants frame.name first)
    (quiet : ∀ deed ∈ between, ¬ deed.Writes frame.name)
    (ordered : ∀ deed ∈ between, deed.latest ≤ now)
    (read : KvRequest.ofFrame frame = some (.setnx id ttlMs value)) :
    ((store.after (first :: between)).Grants frame.name (.request client frame now later) →
      ∃ deadline, first.leaseEnd = some deadline ∧ deadline ≤ now) ∧
    ((∃ deadline, first.leaseEnd = some deadline ∧ deadline ≤ now) →
      (store.after (first :: between)).Grants frame.name (.request client frame now later) ∨
        (store.deed first).1.GrantsIn frame.name between) := by
  have same : store.after (first :: between) = (store.deed first).1.after between := rfl
  rw [same, grants_iff read]
  rcases won.held.after between quiet with held | ⟨⟨deadline, some, deed, member, passed⟩, state⟩
  · rcases held.dropIfExpired now with ⟨kept, live⟩ | ⟨gone, ended⟩
    · exact ⟨fun gone => absurd gone kept.1, fun ended => absurd ended live⟩
    · exact ⟨fun _ => ended, fun _ => .inl gone⟩
  · refine ⟨fun _ => ⟨deadline, some, passed.trans (ordered deed member)⟩, fun _ => ?_⟩
    exact state.imp_left fun gone => dropIfExpired_gone gone now

/-- In every history of the store, a key that a node has won with `setnx`, and that nobody writes or
deletes, is won by no other call until the time to live has passed: never for a time to live that is
not positive, and after at most `2 ^ 32 - 1` milliseconds otherwise. The first call from then on
wins it. -/
theorem node_lease {key value : Bytes} {ttl : Int} {call read stored : Nat} {holder client : Client}
    {between : List (Deed Client)} {other : Bytes} {otherTtl : Int} {otherCall now later : Nat}
    (won : store.Grants key
      (.request holder ((setnxRequest key value ttl).frame call) read stored))
    (quiet : ∀ deed ∈ between, ¬ deed.Writes key) (ordered : ∀ deed ∈ between, deed.latest ≤ now) :
    let held := (store.deed
      (.request holder ((setnxRequest key value ttl).frame call) read stored)).1
    let next : Deed Client :=
      .request client ((setnxRequest key other otherTtl).frame otherCall) now later
    let ended := 0 < ttl ∧ stored + milliseconds (min ttl (2 ^ 32 - 1)).toNat ≤ now
    ((held.after between).Grants key next → ended) ∧
    (ended → (held.after between).Grants key next ∨ held.GrantsIn key between) := by
  intro held next ended
  let first : Deed Client :=
    .request holder ((setnxRequest key value ttl).frame call) read stored
  have passes : ((held.after between).Grants key next →
      ∃ deadline, first.leaseEnd = some deadline ∧ deadline ≤ now) ∧
      ((∃ deadline, first.leaseEnd = some deadline ∧ deadline ≤ now) →
        (held.after between).Grants key next ∨ held.GrantsIn key between) :=
    lease_passes_on won quiet ordered (ofFrame_setnxRequest key other otherTtl otherCall)
  have same : (∃ deadline, first.leaseEnd = some deadline ∧ deadline ≤ now) ↔ ended := by
    simp only [first, Deed.leaseEnd, ofFrame_setnxRequest, deadlineAfter, ended]
    by_cases positive : 0 < ttl
    · have some : ttlToWire ttl ≠ 0 := fun zero => by
        rw [ttlToWire_eq_zero] at zero
        omega
      rw [if_pos some]
      have wire : ttlToWire ttl = (min ttl (2 ^ 32 - 1)).toNat := if_neg (by omega)
      simp [positive, wire]
    · have none : ttlToWire ttl = 0 := ttlToWire_eq_zero.mpr (by omega)
      simp [none, positive]
  exact ⟨fun grants => same.mp (passes.1 grants), fun past => passes.2 (same.mpr past)⟩

/-- A node holds a key for one millisecond, and another one asks for it after a sweep. -/
theorem node_lease_short :
    let held := ((Store.empty : Store Nat).deed
      (.request 1 ((setnxRequest [7] [1] 1).frame 0) 0 4)).1
    let next : Deed Nat := .request 2 ((setnxRequest [7] [2] 1).frame 0) 2000000 2000000
    let ended := (0 : Int) < 1 ∧ 4 + milliseconds (min (1 : Int) (2 ^ 32 - 1)).toNat ≤ 2000000
    ((held.after [.sweep [[7]] 1500000]).Grants [7] next → ended) ∧
    (ended → (held.after [.sweep [[7]] 1500000]).Grants [7] next ∨
      held.GrantsIn [7] [.sweep [[7]] 1500000]) := by
  refine node_lease ((grants_iff (ofFrame_setnxRequest [7] [1] 1 0)).mpr rfl) ?_ ?_
  · rintro deed member ⟨client, request, about, -⟩
    rw [List.mem_singleton.mp member] at about
    cases about
  · intro deed member
    rw [List.mem_singleton.mp member]
    decide

end Chappe
