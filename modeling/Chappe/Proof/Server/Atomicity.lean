/-
This file proves that the threads of a daemon run its store as if each request and each pass of the
sweep were taken at once.
-/

import Chappe.Proof.Kv.Outboxes
import Chappe.Proof.Server.Owed
import Chappe.Proof.Server.Soundness

namespace Chappe
open Foundation

variable {Client : Type} [DecidableEq Client]

omit [DecidableEq Client] in
theorem Pushed.ofStore {store : Store Client} {key : Bytes} {client : Client} {frame : Frame}
    (pushed : Pushed store key client frame) : frame.ofStore = true := by
  obtain ⟨-, ⟨value, rfl⟩ | rfl⟩ := pushed
  · simp [Frame.ofStore]
  · simp [Frame.ofStore]

omit [DecidableEq Client] in
theorem Answered.ofStore {key : Bytes} {request : KvRequest} {frame : Frame}
    (answered : Answered key request frame) : frame.ofStore = true := by
  obtain ⟨id, -, ⟨found, -, rfl⟩ | ⟨ok, value, rfl⟩⟩ := answered
  · simp [Frame.ofStore, kvReply]
  · simp [Frame.ofStore, kvResult]

/-- The store sends only frames of its own kinds. -/
theorem deed_ofStore (store : Store Client) (deed : Deed Client) (client : Client) :
    ∀ frame ∈ (store.deed deed).2 client, frame.ofStore = true := by
  intro frame member
  cases deed with
  | take source sent => cases member
  | forget source => cases member
  | request source sent now later =>
      rcases handleFrame_frames member with pushed | ⟨-, request, -, answered⟩
      · exact pushed.ofStore
      · exact answered.ofStore
  | sweep order read =>
      obtain ⟨key, pushed⟩ := sweep_frames member
      exact pushed.ofStore

theorem outputs_append (client : Client) (deeds more : List (Deed Client)) :
    outputs client (deeds ++ more) = outputs client deeds ++
      (trace Store.deed (runWith Store.deed .empty deeds) more).flatMap
        fun outbox => outbox client := by
  rw [outputs, trace_append, List.flatMap_append]
  rfl

/-- One more step of the store sends its own frames. -/
theorem outputs_step (client : Client) (deeds : List (Deed Client)) (deed : Deed Client) :
    outputs client (deeds ++ [deed]) =
      outputs client deeds ++ ((runWith Store.deed .empty deeds).deed deed).2 client := by
  rw [outputs_append]
  simp [trace]

end Chappe

namespace Chappe.Server
open Foundation

variable {Client : Type} [LinearOrder Client] {config : Config} {choice : Choice}
  {state after : State Client} {system : System Client}

/-- The operations of a `send_to`. -/
def Op.sending : Op Client → Bool
  | .lock (.send _) _ | .unlock (.send _) | .write _ _ => true
  | _ => false

/-- What a thread has to write for the store comes first in its code, and the thread holds
`kv_mu_` until it is written. -/
def Posted (system : System Client) (worker : Worker Client) : Prop :=
  ∃ ops rest, system.code worker = ops ++ rest ∧ (∀ op ∈ ops, op.sending = true) ∧ Mute rest ∧
    (ops = [] ∨ (worker, .exclusive) ∈ system.holders .kv)

omit [LinearOrder Client] in
theorem sending_sends (writes : List (Client × Frame)) :
    ∀ op ∈ sends writes, op.sending = true := by
  intro op member
  obtain ⟨write, -, rfl | rfl | rfl⟩ := mem_sends member <;> rfl

omit [LinearOrder Client] in
/-- While one thread holds `kv_mu_`, no other has anything to write for the store. -/
theorem alone_of_holds (orderly : Orderly Mutex.rank Follows system)
    (posted : ∀ worker, Posted system worker) {worker : Worker Client}
    (holds : (worker, .exclusive) ∈ system.holders .kv) :
    ∀ other, other ≠ worker → Mute (system.code other) := by
  intro other different
  obtain ⟨ops, rest, code, -, mute, rfl | held⟩ := posted other
  · rw [code]
    exact mute
  · have compatible := orderly.exclusive _ _ held _ holds different
    cases compatible.1

omit [LinearOrder Client] in
/-- A thread that runs the store holds `kv_mu_`. -/
theorem holds_of_fits (orderly : Orderly Mutex.rank Follows system)
    {worker : Worker Client} {op : Op Client} {rest : Code Client}
    (code : system.code worker = op :: rest)
    (fits : ∀ held, op.Fits held → (.kv, .exclusive) ∈ held) :
    (worker, .exclusive) ∈ system.holders .kv := by
  obtain ⟨held, stacked⟩ := orderly.stacked worker
  have follows := stacked.follows
  rw [code] at follows
  exact (stacked.holds _ _).mp (fits held follows.1)

omit [LinearOrder Client] in
theorem request_holds (orderly : Orderly Mutex.rank Follows system) {worker : Worker Client}
    {client : Client} {frame : Frame} {rest : Code Client}
    (code : system.code worker = .request client frame :: rest) :
    (worker, .exclusive) ∈ system.holders .kv := by
  refine holds_of_fits orderly code fun held fits => ?_
  obtain rfl : held = _ := fits
  exact List.mem_singleton.mpr rfl

omit [LinearOrder Client] in
theorem sweepKeys_holds (orderly : Orderly Mutex.rank Follows system) {worker : Worker Client}
    {read : Nat} {rest : Code Client} (code : system.code worker = .sweepKeys read :: rest) :
    (worker, .exclusive) ∈ system.holders .kv := by
  refine holds_of_fits orderly code fun held fits => ?_
  obtain rfl : held = _ := fits
  exact List.mem_cons_self

/-- What a thread does after code without a frame of the store to write: it may run the store, and
then writes what that sends. -/
theorem mute_outcome {op : Op Client} {rest next : Code Client} (mute : Mute (op :: rest))
    (outcome : (decode config choice state (op :: rest)).outcome state = some (after, next)) :
    Mute next ∨ (((∃ client frame, op = .request client frame) ∨ ∃ read, op = .sweepKeys read) ∧
      ∃ writes, next = sends writes ++ rest) := by
  by_cases calm : op.calm = true
  · obtain ⟨-, ops, rfl, goes⟩ := calm_outcome calm outcome
    exact .inl (mute_append.mpr ⟨goes.mute, mute.tail⟩)
  · cases op with
    | request client frame =>
        obtain ⟨-, rfl⟩ := Prod.mk.inj (Option.some.inj outcome)
        exact .inr ⟨.inl ⟨client, frame, rfl⟩, _, rfl⟩
    | sweepKeys read =>
        obtain ⟨-, rfl⟩ := Prod.mk.inj (Option.some.inj outcome)
        exact .inr ⟨.inr ⟨read, rfl⟩, _, rfl⟩
    | leaveKeys _ | write _ _ =>
        obtain ⟨-, rfl⟩ := Prod.mk.inj (Option.some.inj outcome)
        exact .inl mute.tail
    | _ => exact absurd rfl calm

/-- A `send_to` goes on with the rest of the code and keeps `kv_mu_`. -/
theorem sending_outcome {op : Op Client} {rest next : Code Client} (sending : op.sending = true)
    (outcome : (decode config choice state (op :: rest)).outcome state = some (after, next)) :
    next = rest ∧ ∀ last, decode config choice state (op :: rest) ≠ .unlock .kv last := by
  cases op with
  | lock mutex mode =>
      obtain ⟨-, rfl⟩ := Prod.mk.inj (Option.some.inj outcome)
      exact ⟨rfl, by simp [decode]⟩
  | unlock mutex =>
      obtain ⟨-, rfl⟩ := Prod.mk.inj (Option.some.inj outcome)
      refine ⟨rfl, fun last same => ?_⟩
      obtain ⟨rfl, -⟩ := Instr.unlock.inj same
      cases sending
  | write client frame =>
      obtain ⟨-, rfl⟩ := Prod.mk.inj (Option.some.inj outcome)
      exact ⟨rfl, by simp [decode]⟩
  | _ => cases sending

/-- Every step keeps what is to be written for the store with the holder of `kv_mu_`. -/
theorem Posted.step (orderly : Orderly Mutex.rank Follows system)
    (posted : ∀ worker, Posted system worker) (action : Action Client) (worker : Worker Client) :
    Posted (system.step config action) worker := by
  cases action with
  | outside event => exact posted worker
  | go thread choice =>
      by_cases enabled : (machine config).Enabled system thread choice
      · obtain ⟨after, next, outcome, data, code⟩ := step_enabled enabled
        by_cases same : worker = thread
        · subst worker
          have here : (system.step config (.go thread choice)).code thread = next :=
            (congrFun code thread).trans (Function.update_self ..)
          obtain ⟨ops, rest, before, sending, mute, held⟩ := posted thread
          have decoded : (decode config choice system.data (system.code thread)).outcome
            system.data = some (after, next) := outcome
          rw [before] at decoded
          cases ops with
          | cons op ops =>
              have holds := held.resolve_left (List.cons_ne_nil op ops)
              obtain ⟨rfl, keeps⟩ := sending_outcome (sending op List.mem_cons_self) decoded
              refine ⟨ops, rest, here, fun other member =>
                sending other (List.mem_cons_of_mem _ member), mute, .inr ?_⟩
              refine step_holders_kept holds fun last same => keeps last ?_
              have unlocked : decode config choice system.data (system.code thread) =
                .unlock .kv last := same
              rwa [before] at unlocked
          | nil =>
              cases rest with
              | nil => cases decoded
              | cons op rest =>
                  rcases mute_outcome mute decoded with silent | ⟨runs, writes, rfl⟩
                  · exact ⟨[], next, here, by simp, silent, .inl rfl⟩
                  · refine ⟨sends writes, rest, here, sending_sends writes, mute.tail, .inr ?_⟩
                    rcases runs with ⟨client, frame, rfl⟩ | ⟨read, rfl⟩
                    · refine step_holders_kept (request_holds orderly before) fun last => ?_
                      simp [machine, before, decode]
                    · refine step_holders_kept (sweepKeys_holds orderly before) fun last => ?_
                      simp [machine, before, decode]
        · obtain ⟨ops, rest, before, sending, mute, held⟩ := posted worker
          refine ⟨ops, rest, ?_, sending, mute, held.imp_right fun holds =>
            (step_holders_other same _ _).mpr holds⟩
          exact ((congrFun code worker).trans (Function.update_of_ne same ..)).trans before
      · have idle : system.step config (.go thread choice) = system := step_idle enabled
        rw [idle]
        exact posted worker

variable {deeds more : List (Deed Client)}

/-- What the threads have written for the store and what the holder of `kv_mu_` has still to write
is what the store sends to each client. -/
structure Atomic (system : System Client) (deeds : List (Deed Client)) : Prop where
  posted : ∀ worker, Posted system worker
  store : system.data.store = runWith Store.deed .empty deeds
  behind : ∀ client, system.data.stored client <+: outputs client deeds
  exact : ∀ client worker, system.data.fd client ≠ none → system.data.shut client = false →
    (∀ other, other ≠ worker → Mute (system.code other)) →
    system.data.stored client ++ owed client (system.code worker) = outputs client deeds
  strangers : ∀ client, client ∉ system.data.admitted → outputs client deeds = [] ∧
    (∀ key, ¬ system.data.store.Watches client key) ∧
    ∀ worker, owed client (system.code worker) = []

/-- Two threads that can both be the only one to write for the store have as much to write. -/
theorem owed_alone {code : Worker Client → Code Client} {first second : Worker Client}
    (left : ∀ other, other ≠ first → Mute (code other))
    (right : ∀ other, other ≠ second → Mute (code other)) (client : Client) :
    owed client (code first) = owed client (code second) := by
  by_cases same : first = second
  · rw [same]
  · rw [(right first same).owed client, (left second (Ne.symm same)).owed client]

/-- A step that neither writes a frame of the store nor makes it send one. -/
theorem Atomic.quietly (atomic : Atomic system deeds) {next : System Client}
    (posted : ∀ worker, Posted next worker)
    (store : next.data.store = runWith Store.deed .empty (deeds ++ more))
    (outputs : ∀ client, outputs client (deeds ++ more) = outputs client deeds)
    (stored : ∀ client, next.data.stored client = system.data.stored client)
    (owed : ∀ client worker, owed client (next.code worker) = owed client (system.code worker))
    (mute : ∀ worker, Mute (next.code worker) → Mute (system.code worker))
    (fd : ∀ client, next.data.fd client ≠ none →
      system.data.fd client ≠ none ∨ client ∉ system.data.admitted)
    (shut : ∀ client, next.data.shut client = false → system.data.shut client = false)
    (admitted : ∀ client ∈ system.data.admitted, client ∈ next.data.admitted)
    (watches : ∀ client key, next.data.store.Watches client key →
      system.data.store.Watches client key) : Atomic next (deeds ++ more) where
  posted := posted
  store := store
  behind := fun client => by
    rw [outputs, stored]
    exact atomic.behind client
  exact := by
    intro client worker opened up alone
    rw [outputs, stored, owed]
    rcases fd client opened with before | outside
    · exact atomic.exact client worker before (shut client up) fun other different =>
        mute other (alone other different)
    · obtain ⟨none, -, nothing⟩ := atomic.strangers client outside
      have behind := atomic.behind client
      rw [none, List.prefix_nil] at behind
      rw [none, behind, nothing]
      rfl
  strangers := by
    intro client outside
    obtain ⟨none, unwatched, nothing⟩ :=
      atomic.strangers client fun inside => outside (admitted client inside)
    exact ⟨(outputs client).trans none, fun key here => unwatched key (watches client key here),
      fun worker => (owed client worker).trans (nothing worker)⟩

/-- The store sends nothing for the frames that are only taken. -/
theorem takes_nothing (takes : ∀ deed ∈ more, ∃ client frame, deed = .take client frame)
    (store : Store Client) :
    runWith Store.deed store more = store ∧
      ∀ client, (trace Store.deed store more).flatMap (fun outbox => outbox client) = [] := by
  induction more generalizing store with
  | nil => exact ⟨rfl, fun _ => rfl⟩
  | cons deed rest ih =>
      obtain ⟨source, frame, rfl⟩ := takes deed List.mem_cons_self
      exact ih (fun later member => takes later (List.mem_cons_of_mem _ member)) store

theorem runWith_append (deeds more : List (Deed Client)) :
    runWith Store.deed .empty (deeds ++ more) =
      runWith Store.deed (runWith Store.deed .empty deeds) more := run_append ..

theorem Goes.takes_only {op : Op Client} {ops : Code Client} (goes : Goes state op ops more) :
    ∀ deed ∈ more, ∃ client frame, deed = .take client frame := by
  intro deed member
  cases goes with
  | takes socket inbox => exact ⟨_, _, List.mem_singleton.mp member⟩
  | bare | replays | routes | inquires => cases member

theorem owed_cons_calm {op : Op Client} (calm : op.calm = true) (client : Client)
    (rest : Code Client) : owed client (op :: rest) = owed client rest := by
  cases op with
  | write _ _ => cases calm
  | _ => rfl

/-- A thread that cannot move neither runs the store nor takes a frame. -/
theorem deed_idle {thread : Worker Client}
    (idle : ¬ (machine config).Enabled system thread choice) :
    system.deeds (.go thread choice) = [] := by
  have stuck (after : State Client) (next : Code Client) :
      decode config choice system.data (system.code thread) ≠ .act after next := by
    intro moves
    refine idle ?_
    have decoded : (machine config).decode choice system.data (system.code thread) =
      .act after next := moves
    simp [Machine.Enabled, decoded]
  simp only [System.deeds]
  cases code : system.code thread with
  | nil => rfl
  | cons op rest =>
      rw [code] at stuck
      cases op with
      | request _ _ | sweepKeys _ | leaveKeys _ => exact absurd rfl (stuck _ _)
      | next client number =>
          simp only [decode, State.next, State.deed] at stuck ⊢
          split
          · rfl
          · rename_i peer socket
            simp only [socket] at stuck
            split
            · rfl
            · rename_i frame frames inbox
              simp only [inbox] at stuck
              split
              · rfl
              · rename_i sound
                rw [if_neg sound] at stuck
                exact absurd rfl (stuck _ _)
      | _ => rfl

/-- A write puts the frame on the connection of its client, or the connection is down. -/
structure Written (peer : Client) (frame : Frame) (before after : State Client) : Prop where
  store : after.store = before.store
  fd : after.fd = before.fd
  admitted : after.admitted = before.admitted
  shut : ∀ client, after.shut client = false → before.shut client = false
  others : ∀ client, client ≠ peer → after.sent client = before.sent client
  here : (after.sent peer = before.sent peer ∧ (after.fd peer = none ∨ after.shut peer = true)) ∨
    (after.sent peer = before.sent peer ++ [(peer, frame)] ∧ before.fd peer ≠ none ∧
      before.shut peer = false)

theorem write_written (ledger : Ledger config state) (peer : Client) (frame : Frame)
    (failed : Bool) : Written peer frame state (state.write peer frame failed) := by
  unfold State.write
  cases opened : state.fd peer with
  | none => exact ⟨rfl, rfl, rfl, fun _ up => up, fun _ _ => rfl, .inl ⟨rfl, .inl opened⟩⟩
  | some number =>
      have socket := (ledger.fds peer number).mp opened
      simp only [socket]
      split
      · refine ⟨rfl, rfl, rfl, fun other up => ?_, fun _ _ => rfl,
          .inl ⟨rfl, .inr (Function.update_self ..)⟩⟩
        change Function.update state.shut peer true other = false at up
        by_cases same : other = peer
        · subst other
          rw [Function.update_self] at up
          cases up
        · rwa [Function.update_of_ne same] at up
      · rename_i fine
        push Not at fine
        refine ⟨rfl, rfl, rfl, fun _ up => up, fun other different =>
          Function.update_of_ne different .., .inr ⟨Function.update_self .., ?_, ?_⟩⟩
        · simp [opened]
        · simpa using fine.2

omit [LinearOrder Client] in
theorem stored_same {client : Client} (sent : after.sent client = state.sent client) :
    after.stored client = state.stored client := by
  rw [State.stored, sent]
  rfl

omit [LinearOrder Client] in
theorem stored_more {client peer : Client} {frame : Frame}
    (sent : after.sent client = state.sent client ++ [(peer, frame)]) :
    after.stored client = state.stored client ++ [frame].filter fun frame => frame.ofStore := by
  rw [State.stored, sent, List.map_append, List.filter_append]
  rfl

/-- A write of the only thread that writes for the store keeps the account. -/
theorem Atomic.write_alone (atomic : Atomic system deeds) {next : System Client}
    (posted : ∀ worker, Posted next worker) {thread : Worker Client} {peer : Client}
    {frame : Frame} {rest : Code Client} (before : system.code thread = .write peer frame :: rest)
    (alone : ∀ other, other ≠ thread → Mute (system.code other))
    (written : Written peer frame system.data next.data)
    (code : next.code = Function.update system.code thread rest) : Atomic next deeds := by
  have here : next.code thread = rest := (congrFun code thread).trans (Function.update_self ..)
  have others (other : Worker Client) (different : other ≠ thread) :
      next.code other = system.code other :=
    (congrFun code other).trans (Function.update_of_ne different ..)
  have quiet (other : Worker Client) (different : other ≠ thread) : Mute (next.code other) := by
    rw [others other different]
    exact alone other different
  have owes (client : Client) : owed client (system.code thread) =
      (if peer = client then [frame].filter fun frame => frame.ofStore else []) ++
        owed client rest := by
    rw [before]
    cases kind : frame.ofStore with
    | true => by_cases same : peer = client <;> simp [owed, same, kind]
    | false => simp [owed, kind]
  have account (client : Client) (opened : next.data.fd client ≠ none)
      (up : next.data.shut client = false) :
      next.data.stored client ++ owed client rest = outputs client deeds := by
    rw [written.fd] at opened
    have exact := atomic.exact client thread opened (written.shut client up) alone
    rw [owes] at exact
    by_cases same : peer = client
    · subst peer
      rw [if_pos rfl] at exact
      rcases written.here with ⟨-, down⟩ | ⟨sent, -, -⟩
      · rw [written.fd] at down
        rcases down with closed | shut
        · exact absurd closed opened
        · rw [up] at shut
          cases shut
      · rw [stored_more sent, List.append_assoc]
        exact exact
    · rw [if_neg same, List.nil_append] at exact
      rw [stored_same (written.others client (Ne.symm same))]
      exact exact
  refine ⟨posted, ?_, fun client => ?_, fun client worker opened up only => ?_, ?_⟩
  · rw [written.store]
    exact atomic.store
  · by_cases same : client = peer
    · subst client
      rcases written.here with ⟨sent, -⟩ | ⟨sent, opened, up⟩
      · rw [stored_same sent]
        exact atomic.behind peer
      · have exact := atomic.exact peer thread opened up alone
        rw [owes, if_pos rfl, ← List.append_assoc, ← stored_more sent] at exact
        exact ⟨_, exact⟩
    · rw [stored_same (written.others client same)]
      exact atomic.behind client
  · rw [owed_alone only quiet client, here]
    exact account client opened up
  · intro client outside
    rw [written.admitted] at outside
    obtain ⟨none, unwatched, nothing⟩ := atomic.strangers client outside
    rw [written.store]
    refine ⟨none, unwatched, fun worker => ?_⟩
    by_cases same : worker = thread
    · subst worker
      have owing := owes client
      rw [nothing thread] at owing
      rw [here]
      exact (List.append_eq_nil_iff.mp owing.symm).2
    · rw [others worker same]
      exact nothing worker

/-- A step of the store that the thread has to write for from then on. -/
theorem Atomic.runs (atomic : Atomic system deeds) {next : System Client}
    (posted : ∀ worker, Posted next worker) {thread : Worker Client} {deed : Deed Client}
    {writes : List (Client × Frame)} {rest : Code Client}
    (alone : ∀ other, other ≠ thread → Mute (system.code other))
    (before : Mute (system.code thread)) (silent : Mute rest)
    (code : next.code = Function.update system.code thread (sends writes ++ rest))
    (data : next.data = { system.data with store := (system.data.store.deed deed).1 })
    (sends : ∀ client, gather client writes = (system.data.store.deed deed).2 client)
    (strange : ∀ client, client ∉ system.data.admitted →
      (system.data.store.deed deed).2 client = [] ∧
        ∀ key, (system.data.store.deed deed).1.Watches client key →
          system.data.store.Watches client key) : Atomic next (deeds ++ [deed]) := by
  have here : next.code thread = Server.sends writes ++ rest :=
    (congrFun code thread).trans (Function.update_self ..)
  have others (other : Worker Client) (different : other ≠ thread) :
      next.code other = system.code other :=
    (congrFun code other).trans (Function.update_of_ne different ..)
  have quiet (other : Worker Client) (different : other ≠ thread) : Mute (next.code other) := by
    rw [others other different]
    exact alone other different
  have owes (client : Client) :
      owed client (next.code thread) = (system.data.store.deed deed).2 client := by
    rw [here, owed_append, owed_sends, sends, silent.owed client, List.append_nil]
    exact List.filter_eq_self.mpr (deed_ofStore system.data.store deed client)
  have grows (client : Client) : outputs client (deeds ++ [deed]) =
      outputs client deeds ++ (system.data.store.deed deed).2 client := by
    rw [outputs_step, atomic.store]
  have stored (client : Client) : next.data.stored client = system.data.stored client :=
    stored_same (by rw [data])
  refine ⟨posted, ?_, fun client => ?_, fun client worker opened up only => ?_, ?_⟩
  · rw [runWith_append, ← atomic.store, data]
    rfl
  · rw [grows, stored]
    exact (atomic.behind client).trans (List.prefix_append _ _)
  · rw [owed_alone only quiet client, grows, owes, stored]
    rw [data] at opened up
    have exact := atomic.exact client thread opened up alone
    rw [before.owed client, List.append_nil] at exact
    rw [exact]
  · intro client outside
    rw [data] at outside
    obtain ⟨none, unwatched, nothing⟩ := atomic.strangers client outside
    obtain ⟨unsent, watches⟩ := strange client outside
    refine ⟨?_, fun key here => unwatched key (watches key (by rwa [data] at here)),
      fun worker => ?_⟩
    · rw [grows, none, unsent]
      rfl
    · by_cases same : worker = thread
      · subst worker
        exact (owes client).trans unsent
      · rw [others worker same]
        exact nothing worker

omit [LinearOrder Client] in
/-- A thread whose next operation is not part of a `send_to` has nothing to write for the store. -/
theorem mute_of_head {thread : Worker Client} (posted : Posted system thread) {op : Op Client}
    {rest : Code Client} (code : system.code thread = op :: rest) (other : op.sending = false) :
    Mute (system.code thread) := by
  obtain ⟨ops, last, before, sending, mute, -⟩ := posted
  cases ops with
  | nil =>
      rw [before]
      exact mute
  | cons first ops =>
      rw [code] at before
      obtain ⟨rfl, -⟩ := List.cons.inj before
      rw [sending op List.mem_cons_self] at other
      cases other

/-- Only a client that the daemon has let in sends requests. -/
theorem request_admitted (sound : Sound config system.data system.code)
    (orderly : Orderly Mutex.rank Follows system) {thread : Worker Client} {client : Client}
    {frame : Frame} {rest : Code Client}
    (code : system.code thread = .request client frame :: rest) :
    client ∈ system.data.admitted := by
  by_contra outside
  obtain ⟨held, stacked⟩ := orderly.stacked thread
  have follows := stacked.follows
  rw [code] at follows
  obtain rfl := follows.2.1 _ rfl
  obtain ⟨_, -, waits⟩ :=
    (sound.readers client).waits (by simpa [State.seat] using outside)
  rw [code] at waits
  cases waits

/-- The store tells a client only of the keys that it watches, and answers only its source. -/
theorem request_strange {store : Store Client} {source client : Client}
    (unwatched : ∀ key, ¬ store.Watches client key) (different : client ≠ source) {frame : Frame}
    {now later : Nat} : (store.deed (.request source frame now later)).2 client = [] ∧
      ∀ key, (store.deed (.request source frame now later)).1.Watches client key →
        store.Watches client key := by
  constructor
  · rw [List.eq_nil_iff_forall_not_mem]
    intro sent member
    rcases handleFrame_frames member with pushed | ⟨same, -⟩
    · exact unwatched _ pushed.1
    · exact different same
  · intro key watches
    rcases handleFrame_watching store now later source frame with same | ⟨id, -, same⟩
    · exact (same.watches client key).mp watches
    · rcases watch_watches.mp ((same.watches client key).mp watches) with before | ⟨here, -⟩
      · exact before
      · exact absurd here different

theorem sweep_strange {store : Store Client} {client : Client}
    (unwatched : ∀ key, ¬ store.Watches client key) {order : List Bytes} {read : Nat} :
    (store.deed (.sweep order read)).2 client = [] ∧
      ∀ key, (store.deed (.sweep order read)).1.Watches client key → store.Watches client key := by
  constructor
  · rw [List.eq_nil_iff_forall_not_mem]
    intro sent member
    obtain ⟨key, pushed⟩ := sweep_frames member
    exact unwatched key pushed.1
  · exact fun key watches => ((sweep_watching store read order).watches client key).mp watches

/-- A thread goes on with as much to write for the store as before. -/
structure Alike (system next : System Client) : Prop where
  owed : ∀ client worker, owed client (next.code worker) = owed client (system.code worker)
  mute : ∀ worker, Mute (next.code worker) → Mute (system.code worker)

theorem Alike.update {next : System Client} {thread : Worker Client} {new : Code Client}
    (codes : next.code = Function.update system.code thread new)
    (same : ∀ client, Server.owed client new = Server.owed client (system.code thread))
    (silent : Mute new → Mute (system.code thread)) : Alike system next where
  owed := by
    intro client worker
    rw [codes]
    by_cases here : worker = thread
    · subst worker
      rw [Function.update_self]
      exact same client
    · rw [Function.update_of_ne here]
  mute := by
    intro worker mute
    rw [codes] at mute
    by_cases here : worker = thread
    · subst worker
      rw [Function.update_self] at mute
      exact silent mute
    · rwa [Function.update_of_ne here] at mute

/-- A write keeps the account of the store. -/
theorem Atomic.write (atomic : Atomic system deeds) (orderly : Orderly Mutex.rank Follows system)
    {next : System Client} (posted : ∀ worker, Posted next worker) {thread : Worker Client}
    {peer : Client} {frame : Frame} {rest : Code Client}
    (before : system.code thread = .write peer frame :: rest)
    (written : Written peer frame system.data next.data)
    (code : next.code = Function.update system.code thread rest) : Atomic next deeds := by
  cases kind : frame.ofStore with
  | true =>
      refine atomic.write_alone posted before (alone_of_holds orderly atomic.posted ?_) written code
      obtain ⟨ops, last, here, -, mute, held⟩ := atomic.posted thread
      refine held.resolve_left fun none => ?_
      subst none
      have silent := mute peer frame (by rw [← List.nil_append last, ← here, before]; simp)
      rw [kind] at silent
      cases silent
  | false =>
      have none (client : Client) : next.data.stored client = system.data.stored client := by
        by_cases same : client = peer
        · subst client
          rcases written.here with ⟨sent, -⟩ | ⟨sent, -⟩
          · exact stored_same sent
          · rw [stored_more sent]
            simp [kind]
        · exact stored_same (written.others client same)
      have alike : Alike system next := by
        refine .update code (fun client => ?_) fun mute => ?_
        · rw [before]
          simp [Server.owed, kind]
        · intro client sent member
          rw [before] at member
          rcases List.mem_cons.mp member with here | later
          · cases here
            exact kind
          · exact mute client sent later
      rw [← List.append_nil deeds]
      refine atomic.quietly posted ?_ (fun client => by rw [List.append_nil]) none alike.owed
        alike.mute (fun client opened => ?_) written.shut (fun client member => ?_) ?_
      · rw [List.append_nil, written.store]
        exact atomic.store
      · rw [written.fd] at opened
        exact .inl opened
      · rwa [written.admitted]
      · intro client key watches
        rwa [written.store] at watches

/-- A calm step keeps the account of the store. -/
theorem Atomic.calm (atomic : Atomic system deeds) (ledger : Ledger config system.data)
    {next : System Client} (posted : ∀ worker, Posted next worker)
    (calm : Calm system.data next.data) (alike : Alike system next)
    (takes : ∀ deed ∈ more, ∃ client frame, deed = .take client frame) :
    Atomic next (deeds ++ more) := by
  obtain ⟨same, nothing⟩ := takes_nothing takes (runWith Store.deed .empty deeds)
  refine atomic.quietly posted ?_ ?_ (fun client => stored_same (by rw [calm.sent])) alike.owed
    alike.mute ?_ calm.shut calm.admitted ?_
  · rw [runWith_append, same, calm.store]
    exact atomic.store
  · intro client
    rw [outputs_append, nothing, List.append_nil]
  · intro client opened
    rcases calm.fd client opened with before | waiting
    · exact .inl before
    · obtain ⟨entry, member, rfl⟩ := List.mem_map.mp waiting
      exact .inr (ledger.fresh entry member).2.1
  · intro client key watches
    rwa [calm.store] at watches

/-- A client that leaves has the store send nothing. -/
theorem Atomic.forget (atomic : Atomic system deeds) {next : System Client}
    (posted : ∀ worker, Posted next worker) {client : Client}
    (data : next.data = { system.data with store := system.data.store.removeClient client })
    (alike : Alike system next) : Atomic next (deeds ++ [.forget client]) := by
  refine atomic.quietly posted ?_ ?_ (fun other => stored_same (by rw [data])) alike.owed
    alike.mute ?_ ?_ ?_ ?_
  · rw [runWith_append, ← atomic.store, data]
    rfl
  · intro other
    rw [outputs_step]
    exact List.append_nil _
  · intro other opened
    rw [data] at opened
    exact .inl opened
  · intro other up
    rwa [data] at up
  · intro other member
    rw [data]
    exact member
  · intro other key watches
    rw [data] at watches
    exact ((removeClient_watches _ client other key).mp watches).1

/-- A step of a thread keeps the account of the store. -/
theorem Atomic.go (atomic : Atomic system deeds) (sound : Sound config system.data system.code)
    (orderly : Orderly Mutex.rank Follows system) {thread : Worker Client}
    (enabled : (machine config).Enabled system thread choice) :
    Atomic (system.step config (.go thread choice))
      (deeds ++ system.deeds (.go thread choice)) := by
  have posted (worker : Worker Client) :
      Posted (system.step config (.go thread choice)) worker :=
    Posted.step orderly atomic.posted (.go thread choice) worker
  obtain ⟨after, new, outcome, data, codes⟩ := step_enabled enabled
  have decoded : (decode config choice system.data (system.code thread)).outcome system.data =
    some (after, new) := outcome
  change (system.step config (.go thread choice)).data = after at data
  change (system.step config (.go thread choice)).code = _ at codes
  change Atomic _ (deeds ++ system.data.deed choice (system.code thread))
  generalize system.step config (.go thread choice) = next at posted data codes ⊢
  cases code : system.code thread with
  | nil =>
      rw [code] at decoded
      cases decoded
  | cons op rest =>
      rw [code] at decoded
      by_cases calm : op.calm = true
      · obtain ⟨kept, ops, rfl, goes⟩ := calm_outcome calm decoded
        have alike : Alike system next := by
          refine .update codes (fun client => ?_) fun mute => ?_
          · rw [code, owed_append, goes.mute.owed client, owed_cons_calm calm]
            rfl
          · rw [code]
            exact (mute_cons (by rintro peer frame rfl; cases calm)).mpr (mute_append.mp mute).2
        exact atomic.calm sound.ledger posted (by rwa [data]) alike goes.takes_only
      · cases op with
        | request source frame =>
            obtain ⟨rfl, rfl⟩ := Prod.mk.inj (Option.some.inj decoded)
            have mute := mute_of_head (atomic.posted thread) code rfl
            refine atomic.runs posted (alone_of_holds orderly atomic.posted
              (request_holds orderly code)) mute (code ▸ mute).tail codes data (fun client =>
                gather_requestWrites _ client source _ choice.later frame) ?_
            intro client outside
            have different : client ≠ source :=
              fun same => outside (same ▸ request_admitted sound orderly code)
            exact request_strange (atomic.strangers client outside).2.1 different
        | sweepKeys read =>
            obtain ⟨rfl, rfl⟩ := Prod.mk.inj (Option.some.inj decoded)
            have mute := mute_of_head (atomic.posted thread) code rfl
            refine atomic.runs posted (alone_of_holds orderly atomic.posted
              (sweepKeys_holds orderly code)) mute (code ▸ mute).tail codes data (fun client =>
                gather_sweepWrites client read _ _) ?_
            exact fun client outside => sweep_strange (atomic.strangers client outside).2.1
        | leaveKeys client =>
            obtain ⟨rfl, rfl⟩ := Prod.mk.inj (Option.some.inj decoded)
            refine atomic.forget posted data (.update codes (fun other => ?_) fun mute => ?_)
            · rw [code]
              rfl
            · rw [code]
              exact (mute_cons (by simp)).mpr mute
        | write peer frame =>
            obtain ⟨rfl, rfl⟩ := Prod.mk.inj (Option.some.inj decoded)
            have written : Written peer frame system.data next.data := by
              rw [data]
              exact write_written sound.ledger peer frame choice.failed
            have none : system.data.deed choice (.write peer frame :: rest) = [] := rfl
            rw [none, List.append_nil]
            exact atomic.write orderly posted code written codes
        | _ => exact absurd rfl calm

/-- What the peers do is calm. -/
theorem outside_calm (event : Event Client) (state : State Client) :
    Calm state (outside event state) := by
  cases event with
  | dial client uid =>
      simp only [outside]
      split
      · exact .refl state
      · exact .same rfl rfl rfl rfl rfl
  | arrive client frame =>
      simp only [outside]
      split
      · exact .refl state
      · exact .same rfl rfl rfl rfl rfl
  | hangUp client =>
      refine ⟨rfl, rfl, fun other up => ?_, fun _ opened => .inl opened, fun _ member => member⟩
      change Function.update state.shut client true other = false at up
      by_cases same : other = client
      · subst other
        rw [Function.update_self] at up
        cases up
      · rwa [Function.update_of_ne same] at up
  | destroy => exact .same rfl rfl rfl rfl rfl

theorem Atomic.step (atomic : Atomic system deeds) (sound : Sound config system.data system.code)
    (orderly : Orderly Mutex.rank Follows system) (action : Action Client) :
    Atomic (system.step config action) (deeds ++ system.deeds action) := by
  cases action with
  | outside event =>
      refine atomic.calm sound.ledger (Posted.step orderly atomic.posted _)
        (outside_calm event system.data) ⟨fun _ _ => rfl, fun _ mute => mute⟩ ?_
      intro deed member
      cases member
  | go thread choice =>
      by_cases enabled : (machine config).Enabled system thread choice
      · exact atomic.go sound orderly enabled
      · have idle : system.step config (.go thread choice) = system := step_idle enabled
        rw [deed_idle enabled, List.append_nil, idle]
        exact atomic

theorem Atomic.initial : Atomic (System.initial : System Client) [] := by
  have mute (worker : Worker Client) : Mute (System.initial.code worker : Code Client) := by
    cases worker <;> exact mute_of_noWrite (by simp [System.initial, initialCode, destructor])
  refine ⟨fun worker => ⟨[], _, rfl, by simp, mute worker, .inl rfl⟩, rfl,
    fun client => List.prefix_refl _, fun client worker opened => absurd rfl opened, ?_⟩
  exact fun client _ => ⟨rfl, fun key => Finset.notMem_empty client,
    fun worker => (mute worker).owed client⟩

/-- In every run the threads keep the account of the store. -/
theorem server_atomic (config : Config) (actions : List (Action Client)) :
    Atomic (run (System.step config) System.initial actions)
      (collect (System.step config) System.deeds System.initial actions) := by
  have keep (system : System Client) (deeds : List (Deed Client)) (action : Action Client)
      (held : Sound config system.data system.code ∧ Orderly Mutex.rank Follows system ∧
        Atomic system deeds) :
      Sound config (system.step config action).data (system.step config action).code ∧
        Orderly Mutex.rank Follows (system.step config action) ∧
        Atomic (system.step config action) (deeds ++ system.deeds action) :=
    ⟨held.1.step action, held.2.1.step server_discipline action,
      held.2.2.step held.1 held.2.1 action⟩
  exact (collect_invariant keep actions _ []
    ⟨.initial, server_orderly config [], .initial⟩).2.2

/-- A connection that is up has all frames of the store when no thread holds `kv_mu_`. -/
theorem Atomic.settled (atomic : Atomic system deeds)
    (free : ∀ worker mode, (worker, mode) ∉ system.holders .kv) {client : Client}
    (opened : system.data.fd client ≠ none) (up : system.data.shut client = false) :
    system.data.stored client = outputs client deeds := by
  have mute (worker : Worker Client) : Mute (system.code worker) := by
    obtain ⟨ops, rest, code, -, silent, rfl | held⟩ := atomic.posted worker
    · rw [code]
      exact silent
    · exact absurd held (free worker .exclusive)
  have exact := atomic.exact client .accept opened up fun other _ => mute other
  rw [(mute .accept).owed client, List.append_nil] at exact
  exact exact

end Chappe.Server
