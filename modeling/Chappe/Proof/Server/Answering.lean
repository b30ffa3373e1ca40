/-
This file proves that a daemon answers the requests of each client one by one in their order, and
sends it nothing that it has not asked for.
-/

import Chappe.Proof.Network.Matching
import Chappe.Proof.Server.Promises
import Chappe.Proof.Server.StoreHistory

namespace Chappe.Server
open Foundation

variable {Client : Type} [LinearOrder Client] {config : Config} {choice : Choice}
  {state : State Client} {system : System Client} {deeds more : List (Deed Client)}

/-- The answers that the frames taken from a client ask for. -/
def asked (client : Client) (deeds : List (Deed Client)) : List Ticket :=
  (taken client deeds).filterMap Frame.asks

theorem asked_append (client : Client) (deeds more : List (Deed Client)) :
    asked client (deeds ++ more) = asked client deeds ++ asked client more := by
  rw [asked, taken_append, List.filterMap_append]
  rfl

/-- What a client has been answered and what its reader has still to answer is what it asked for. -/
structure Answering (system : System Client) (deeds : List (Deed Client)) : Prop where
  others : ∀ client worker, worker ≠ .reader client → promised client (system.code worker) = []
  behind : ∀ client, system.data.answered client <+: asked client deeds
  exact : ∀ client, system.data.fd client ≠ none → system.data.shut client = false →
    system.data.answered client ++ promised client (system.code (.reader client)) =
      asked client deeds
  strangers : ∀ client, client ∉ system.data.admitted → taken client deeds = []
  long : ∀ worker, Long (system.code worker)

omit [LinearOrder Client] in
theorem answered_same {client : Client} {after : State Client}
    (sent : after.sent client = state.sent client) :
    after.answered client = state.answered client := by
  rw [State.answered, sent]
  rfl

omit [LinearOrder Client] in
theorem answered_more {client peer : Client} {frame : Frame} {after : State Client}
    (sent : after.sent client = state.sent client ++ [(peer, frame)]) :
    after.answered client = state.answered client ++ frame.answers.toList := by
  rw [State.answered, sent, List.filterMap_append]
  cases answers : frame.answers <;> simp [State.answered, answers]

/-- The reader of a client that is not let in promises nothing. -/
theorem promised_stranger (sound : Sound config system.data system.code) {client : Client}
    (outside : client ∉ system.data.admitted) :
    promised client (system.code (.reader client)) = [] := by
  obtain ⟨_, -, waits⟩ :=
    (sound.readers client).waits (by simpa [State.seat] using outside)
  rw [waits]
  rfl

/-- A step that writes nothing moves what is asked for to what is promised. -/
theorem Answering.quietly (answering : Answering system deeds)
    (sound : Sound config system.data system.code) {next : System Client}
    {thread : Worker Client} {new : Code Client}
    (code : next.code = Function.update system.code thread new)
    (moved : ∀ client, promised client (system.code thread) ++ asked client more =
      promised client new)
    (elsewhere : ∀ client, thread ≠ .reader client → taken client more = [])
    (strange : ∀ client, client ∉ system.data.admitted → taken client more = [])
    (sent : next.data.sent = system.data.sent)
    (fd : ∀ client, next.data.fd client ≠ none →
      system.data.fd client ≠ none ∨ client ∉ system.data.admitted)
    (shut : ∀ client, next.data.shut client = false → system.data.shut client = false)
    (admitted : ∀ client ∈ system.data.admitted, client ∈ next.data.admitted)
    (long : Long new) : Answering next (deeds ++ more) := by
  have none {client : Client} (empty : taken client more = []) : asked client more = [] := by
    rw [asked, empty]
    rfl
  have answered (client : Client) : next.data.answered client = system.data.answered client :=
    answered_same (congrFun sent client)
  have holds (client : Client) : promised client (system.code (.reader client)) ++
      asked client more = promised client (next.code (.reader client)) := by
    rw [code]
    by_cases here : Worker.reader client = thread
    · subst thread
      rw [Function.update_self]
      exact moved client
    · rw [Function.update_of_ne here, none (elsewhere client (Ne.symm here)), List.append_nil]
  refine ⟨fun client worker different => ?_, fun client => ?_, fun client opened up => ?_,
    fun client outside => ?_, fun worker => ?_⟩
  · rw [code]
    by_cases here : worker = thread
    · subst worker
      rw [Function.update_self, ← moved, answering.others client thread different,
        none (elsewhere client different)]
      rfl
    · rw [Function.update_of_ne here]
      exact answering.others client worker different
  · rw [answered, asked_append]
    exact (answering.behind client).trans (List.prefix_append _ _)
  · rw [answered, asked_append, ← holds, ← List.append_assoc]
    rcases fd client opened with before | outside
    · rw [answering.exact client before (shut client up)]
    · have nothing : asked client deeds = [] := by
        rw [asked, answering.strangers client outside]
        rfl
      have behind := answering.behind client
      rw [nothing, List.prefix_nil] at behind
      rw [behind, promised_stranger sound outside, nothing]
      rfl
  · have before : client ∉ system.data.admitted := fun inside => outside (admitted client inside)
    rw [taken_append, answering.strangers client before, strange client before]
    rfl
  · rw [code]
    by_cases here : worker = thread
    · subst worker
      rw [Function.update_self]
      exact long
    · rw [Function.update_of_ne here]
      exact answering.long worker

/-- A write makes a promise good, or the connection is down. -/
theorem Answering.write (answering : Answering system deeds) {next : System Client}
    {thread : Worker Client} {peer : Client} {frame : Frame} {rest : Code Client}
    (before : system.code thread = .write peer frame :: rest)
    (written : Written peer frame system.data next.data)
    (code : next.code = Function.update system.code thread rest) : Answering next deeds := by
  have owes (client : Client) : promised client (system.code thread) =
      (if peer = client then frame.answers else none).toList ++ promised client rest := by
    rw [before, promised_cons]
    rfl
  have own (answers : frame.answers ≠ none) : thread = .reader peer := by
    by_contra different
    have silent := answering.others peer thread different
    rw [owes, if_pos rfl] at silent
    cases ticket : frame.answers with
    | none => exact answers ticket
    | some answer =>
        rw [ticket] at silent
        cases silent
  have codeOf (worker : Worker Client) : next.code worker =
      if worker = thread then rest else system.code worker := by
    rw [code]
    split
    · rename_i here
      rw [here]
      exact Function.update_self ..
    · rename_i different
      exact Function.update_of_ne different ..
  have kept (client : Client) : promised client (system.code (.reader client)) =
      (if peer = client then frame.answers else none).toList ++
        promised client (next.code (.reader client)) := by
    by_cases here : Worker.reader client = thread
    · rw [codeOf, if_pos here, here, owes]
    · have none : (if peer = client then frame.answers else none) = Option.none := by
        by_contra some
        rw [ite_eq_right_iff, Classical.not_imp] at some
        exact here (some.1 ▸ (own some.2).symm)
      rw [codeOf, if_neg here, none]
      rfl
  refine ⟨fun client worker different => ?_, fun client => ?_, fun client opened up => ?_, ?_,
    fun worker => ?_⟩
  · rw [codeOf]
    split
    · rename_i here
      subst worker
      have silent := answering.others client thread different
      rw [owes] at silent
      exact (List.append_eq_nil_iff.mp silent).2
    · exact answering.others client worker different
  · by_cases same : client = peer
    · subst client
      rcases written.here with ⟨sent, -⟩ | ⟨sent, opened, up⟩
      · rw [answered_same sent]
        exact answering.behind peer
      · have exact := answering.exact peer opened up
        rw [kept, if_pos rfl, ← List.append_assoc, ← answered_more sent] at exact
        exact ⟨_, exact⟩
    · rw [answered_same (written.others client same)]
      exact answering.behind client
  · rw [written.fd] at opened
    have exact := answering.exact client opened (written.shut client up)
    rw [kept] at exact
    by_cases same : peer = client
    · subst peer
      rcases written.here with ⟨-, down⟩ | ⟨sent, -, -⟩
      · rw [written.fd, up] at down
        rcases down with closed | shut
        · exact absurd closed opened
        · cases shut
      · rw [answered_more sent, List.append_assoc]
        rwa [if_pos rfl] at exact
    · rw [answered_same (written.others client (Ne.symm same))]
      rwa [if_neg same] at exact
  · intro client outside
    rw [written.admitted] at outside
    exact answering.strangers client outside
  · rw [codeOf]
    have long := answering.long worker
    split
    · rename_i here
      subst worker
      rw [before] at long
      exact fun client report inquiry member =>
        long client report inquiry (List.mem_cons_of_mem _ member)
    · exact long

/-- Every calm operation but an inquiry promises nothing itself. -/
theorem calm_promises {op : Op Client} (calm : op.calm = true)
    (other : ∀ source report inquiry, op ≠ .inquire source report inquiry) (client : Client) :
    op.promises client = none := by
  cases op with
  | request _ _ | write _ _ => cases calm
  | inquire source report inquiry => exact absurd rfl (other source report inquiry)
  | _ => rfl

omit [LinearOrder Client] in
theorem long_of_none {code : Code Client}
    (none : ∀ op ∈ code, ∀ source report inquiry, op ≠ .inquire source report inquiry) :
    Long code :=
  fun source report inquiry member => absurd rfl (none _ member source report inquiry)

omit [LinearOrder Client] in
theorem Long.append {first second : Code Client} (left : Long first) (right : Long second) :
    Long (first ++ second) := by
  intro source report inquiry member
  rcases List.mem_append.mp member with here | there
  · exact left source report inquiry here
  · exact right source report inquiry there

omit [LinearOrder Client] in
theorem long_sends (writes : List (Client × Frame)) : Long (sends writes) := by
  refine long_of_none fun op member source report inquiry => ?_
  obtain ⟨write, -, rfl | rfl | rfl⟩ := mem_sends member <;> simp

omit [LinearOrder Client] in
theorem long_unlock (mutex : Mutex Client) : Long ([.unlock mutex] : Code Client) :=
  long_of_none (by simp)

omit [LinearOrder Client] in
theorem Bare.long {code : Code Client} (bare : Bare code) : Long code := by
  intro source report inquiry member
  cases bare _ member

omit [LinearOrder Client] in
theorem long_handleFrame (client : Client) (frame : Frame) : Long (handleFrame client frame) := by
  unfold handleFrame
  split
  · split <;> exact long_of_none (by simp)
  · exact long_of_none (by simp)
  · exact long_of_none (by simp)
  · exact long_of_none (by simp)
  · exact long_sends _
  · split
    · exact long_of_none (by simp)
    · intro source report inquiry member
      simp only [List.mem_cons, List.not_mem_nil, or_false, reduceCtorEq, false_or,
        Op.inquire.injEq] at member
      obtain ⟨-, rfl, -⟩ := member
      simp
      omega
  · split <;> exact long_of_none (by simp)

omit [LinearOrder Client] in
theorem long_afterInquiry (client : Client) {result : Report × Inquiry}
    (long : result.1.id.length = 4) : Long (afterInquiry client result) := by
  obtain ⟨report, inquiry⟩ := result
  cases inquiry with
  | reply => exact long_sends _
  | clients | topics | retained | keys =>
      intro source other inquiry member
      simp only [afterInquiry, List.mem_cons, List.not_mem_nil, or_false, reduceCtorEq, false_or,
        Op.inquire.injEq] at member
      obtain ⟨-, rfl, -⟩ := member
      exact long

/-- The frames that a calm operation takes are what its code promises answers for. -/
theorem Goes.promised (sound : Sound config system.data system.code)
    (orderly : Orderly Mutex.rank Follows system) {thread : Worker Client} {op : Op Client}
    {ops rest : Code Client} (code : system.code thread = op :: rest)
    (goes : Goes system.data op ops more)
    (other : ∀ source report inquiry, op ≠ .inquire source report inquiry) (client : Client) :
    promised client ops = asked client more := by
  cases goes with
  | bare silent => exact silent.promised client
  | inquires source order report inquiry => exact absurd rfl (other source report inquiry)
  | replays source topic => exact promised_silent (by simp [Frame.answers])
  | routes source frame =>
      refine promised_silent fun write member => ?_
      obtain ⟨target, -, rfl⟩ := List.mem_map.mp member
      simp [Frame.answers]
  | takes socket inbox =>
      rename_i owner peer number frame frames
      obtain ⟨-, -, opened⟩ := next_socket sound orderly code
      rw [socket] at opened
      cases opened
      have loop : Server.promised client ([.loop owner number] : Code Client) = [] := rfl
      rw [promised_append, promised_handleFrame, loop, List.append_nil]
      by_cases same : owner = client
      · cases asks : frame.asks <;> simp [asked, taken, same, asks]
      · simp [asked, taken, same]

theorem Goes.long {op : Op Client} {ops : Code Client} (goes : Goes state op ops more)
    (other : ∀ source report inquiry, op ≠ .inquire source report inquiry) : Long ops := by
  cases goes with
  | bare silent => exact silent.long
  | inquires source order report inquiry => exact absurd rfl (other source report inquiry)
  | replays source topic =>
      exact (long_unlock .retained).append (long_sends _)
  | routes source frame =>
      exact (long_unlock .subs).append (long_sends _)
  | takes socket inbox => exact (long_handleFrame _ _).append (long_of_none (by simp))

/-- A thread that takes a frame has nothing else to do. -/
theorem Goes.last (sound : Sound config system.data system.code)
    (orderly : Orderly Mutex.rank Follows system) {thread : Worker Client} {op : Op Client}
    {ops rest : Code Client} (code : system.code thread = op :: rest)
    (goes : Goes system.data op ops more) : more = [] ∨ rest = [] := by
  cases goes with
  | takes socket inbox => exact .inr (next_socket sound orderly code).2.1
  | bare _ | replays _ _ | routes _ _ | inquires _ _ _ _ => exact .inl rfl

/-- A step of a thread keeps the account of the answers. -/
theorem Answering.go (answering : Answering system deeds)
    (sound : Sound config system.data system.code) (orderly : Orderly Mutex.rank Follows system)
    {thread : Worker Client} (enabled : (machine config).Enabled system thread choice) :
    Answering (system.step config (.go thread choice))
      (deeds ++ system.deeds (.go thread choice)) := by
  obtain ⟨after, new, outcome, data, codes⟩ := step_enabled enabled
  have decoded : (decode config choice system.data (system.code thread)).outcome system.data =
    some (after, new) := outcome
  change (system.step config (.go thread choice)).data = after at data
  change (system.step config (.go thread choice)).code = _ at codes
  have elsewhere (client : Client) (different : thread ≠ .reader client) :
      taken client (system.deeds (.go thread choice)) = [] :=
    (deed_others sound orderly different).1
  have strange (client : Client) (outside : client ∉ system.data.admitted) :
      taken client (system.deeds (.go thread choice)) = [] := by
    by_cases here : thread = .reader client
    · obtain ⟨_, -, waits⟩ :=
        (sound.readers client).waits (by simpa [State.seat] using outside)
      simp only [System.deeds, here, waits]
      rfl
    · exact elsewhere client here
  have long := answering.long thread
  change ∀ client, _ → taken client (system.data.deed choice (system.code thread)) = [] at elsewhere
  change ∀ client, _ → taken client (system.data.deed choice (system.code thread)) = [] at strange
  change Answering _ (deeds ++ system.data.deed choice (system.code thread))
  generalize system.step config (.go thread choice) = next at data codes ⊢
  cases code : system.code thread with
  | nil =>
      rw [code] at decoded
      cases decoded
  | cons op rest =>
      rw [code] at decoded elsewhere strange long
      have longRest : Long rest := fun source report inquiry member =>
        long source report inquiry (List.mem_cons_of_mem _ member)
      have store {changed : Store Client}
          (same : next.data = { system.data with store := changed })
          (moved : ∀ client, promised client (op :: rest) ++
            asked client (system.data.deed choice (op :: rest)) = promised client new)
          (longNew : Long new) :
          Answering next (deeds ++ system.data.deed choice (op :: rest)) := by
        refine answering.quietly sound codes (fun client => code ▸ moved client) elsewhere strange
          (by rw [same]) (fun client opened => ?_) (fun client up => ?_) ?_ longNew
        · rw [same] at opened
          exact .inl opened
        · rwa [same] at up
        · rw [same]
          exact fun _ member => member
      by_cases inquires : ∃ source report inquiry, op = .inquire source report inquiry
      · obtain ⟨source, report, inquiry, rfl⟩ := inquires
        obtain ⟨rfl, rfl⟩ := Prod.mk.inj (Option.some.inj decoded)
        have four := long source report inquiry List.mem_cons_self
        have same : (system.data.inquire choice.order report inquiry).1.id = report.id :=
          inquire_id choice.order report inquiry
        have kept : (system.data.inquire choice.order report inquiry).1.id.length = 4 :=
          same ▸ four
        refine store data (fun client => ?_)
          (((long_unlock _).append (long_afterInquiry source kept)).append longRest)
        have unlock (mutex : Mutex Client) (code : Code Client) :
            promised client (.unlock mutex :: code) = promised client code := rfl
        rw [promised_append, unlock,
          promised_afterInquiry client source kept, promised_cons, same]
        by_cases own : source = client
        · simp [Op.promises, own, asked, taken, State.deed]
        · simp [Op.promises, own, asked, taken, State.deed]
      · push Not at inquires
        by_cases calm : op.calm = true
        · obtain ⟨kept, ops, rfl, goes⟩ := calm_outcome calm decoded
          refine answering.quietly sound codes (fun client => ?_) elsewhere strange
            (by rw [data, kept.sent]) (fun client opened => ?_) (fun client up => ?_) ?_
            ((goes.long inquires).append longRest)
          · rw [code, promised_cons, calm_promises calm inquires, promised_append,
              goes.promised sound orderly code inquires]
            rcases goes.last sound orderly code with none | none
            · rw [none]
              exact List.append_nil _
            · rw [none]
              exact (List.append_nil _).symm
          · rw [data] at opened
            rcases kept.fd client opened with before | waiting
            · exact .inl before
            · obtain ⟨entry, member, rfl⟩ := List.mem_map.mp waiting
              exact .inr (sound.ledger.fresh entry member).2.1
          · rw [data] at up
            exact kept.shut client up
          · rw [data]
            exact kept.admitted
        · cases op with
          | write peer frame =>
              obtain ⟨rfl, rfl⟩ := Prod.mk.inj (Option.some.inj decoded)
              have written : Written peer frame system.data next.data := by
                rw [data]
                exact write_written sound.ledger peer frame choice.failed
              have none : system.data.deed choice (.write peer frame :: rest) = [] := rfl
              rw [none, List.append_nil]
              exact answering.write code written codes
          | request source frame =>
              obtain ⟨rfl, rfl⟩ := Prod.mk.inj (Option.some.inj decoded)
              refine store data (fun client => ?_) ((long_sends _).append longRest)
              rw [promised_append, promised_sends, gather_requestWrites _ _ _ _ choice.later,
                handleFrame_tickets, promised_cons]
              by_cases same : client = source
              · simp [Op.promises, same, asked, taken, State.deed]
              · simp [Op.promises, same, Ne.symm same, asked, taken, State.deed]
          | sweepKeys read =>
              obtain ⟨rfl, rfl⟩ := Prod.mk.inj (Option.some.inj decoded)
              refine store data (fun client => ?_) ((long_sends _).append longRest)
              have pushes : ((system.data.store.sweep read choice.order).2 client).filterMap
                  Frame.answers = [] :=
                filterMap_pushed client fun frame member =>
                  ⟨system.data.store, sweep_frames member⟩
              rw [promised_append, promised_sends, gather_sweepWrites]
              change _ = ((system.data.store.sweep read choice.order).2 client).filterMap
                Frame.answers ++ _
              rw [pushes]
              exact List.append_nil _
          | leaveKeys source =>
              obtain ⟨rfl, rfl⟩ := Prod.mk.inj (Option.some.inj decoded)
              exact store data (fun client => List.append_nil _) longRest
          | _ => exact absurd rfl calm

theorem outside_fd (event : Event Client) (state : State Client) :
    (outside event state).fd = state.fd := by
  cases event with
  | dial client uid =>
      simp only [outside]
      split <;> rfl
  | arrive client frame =>
      simp only [outside]
      split <;> rfl
  | hangUp client | destroy => rfl

theorem Answering.step (answering : Answering system deeds)
    (sound : Sound config system.data system.code) (orderly : Orderly Mutex.rank Follows system)
    (action : Action Client) :
    Answering (system.step config action) (deeds ++ system.deeds action) := by
  cases action with
  | outside event =>
      have calm := outside_calm event system.data
      have answered (client : Client) :
          (outside event system.data).answered client = system.data.answered client :=
        answered_same (congrFun calm.sent client)
      have fd : (outside event system.data).fd = system.data.fd := outside_fd event system.data
      have nothing : deeds ++ system.deeds (.outside event) = deeds := List.append_nil deeds
      rw [nothing]
      refine ⟨answering.others, fun client => ?_, fun client opened up => ?_,
        fun client outsider => ?_, answering.long⟩
      · exact (answered client).symm ▸ answering.behind client
      · refine (congrArg (· ++ _) (answered client)).trans ?_
        exact answering.exact client (fd ▸ opened) (calm.shut client up)
      · exact answering.strangers client fun member => outsider (calm.admitted client member)
  | go thread choice =>
      by_cases enabled : (machine config).Enabled system thread choice
      · exact answering.go sound orderly enabled
      · have idle : system.step config (.go thread choice) = system := step_idle enabled
        rw [deed_idle enabled, List.append_nil, idle]
        exact answering

theorem Answering.initial : Answering (System.initial : System Client) [] := by
  have silent (worker : Worker Client) (client : Client) :
      promised client (System.initial.code worker : Code Client) = [] := by
    cases worker <;> rfl
  refine ⟨fun client worker _ => silent worker client, fun client => List.prefix_refl _,
    fun client opened => absurd rfl opened, fun client _ => rfl, fun worker => ?_⟩
  cases worker <;> exact long_of_none (by simp [System.initial, initialCode, destructor])

/-- In every run the readers keep the account of the answers. -/
theorem server_answering (config : Config) (actions : List (Action Client)) :
    Answering (run (System.step config) System.initial actions)
      (collect (System.step config) System.deeds System.initial actions) := by
  have keep (system : System Client) (deeds : List (Deed Client)) (action : Action Client)
      (held : Sound config system.data system.code ∧ Orderly Mutex.rank Follows system ∧
        Answering system deeds) :
      Sound config (system.step config action).data (system.step config action).code ∧
        Orderly Mutex.rank Follows (system.step config action) ∧
        Answering (system.step config action) (deeds ++ system.deeds action) :=
    ⟨held.1.step action, held.2.1.step server_discipline action,
      held.2.2.step held.1 held.2.1 action⟩
  exact (collect_invariant keep actions _ []
    ⟨.initial, server_orderly config [], .initial⟩).2.2

end Chappe.Server
