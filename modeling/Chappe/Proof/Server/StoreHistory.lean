/-
This file proves that the threads of a daemon run the requests of each client in its own order, and
that the daemon is a store that takes its steps at once.
-/

import Chappe.Proof.Server.Atomicity

namespace Chappe.Server
open Foundation

variable {Client : Type} [LinearOrder Client] {config : Config} {choice : Choice}
  {state : State Client} {system : System Client} {deeds more : List (Deed Client)}

/-- The requests of a client that a thread has taken and not run. -/
def waiting (client : Client) (code : Code Client) : List Frame :=
  code.filterMap fun
    | .request source frame => if source = client then some frame else none
    | _ => none

theorem waiting_append (client : Client) (first second : Code Client) :
    waiting client (first ++ second) = waiting client first ++ waiting client second :=
  List.filterMap_append

theorem waiting_of_none {code : Code Client}
    (none : ∀ op ∈ code, ∀ source frame, op ≠ .request source frame) (client : Client) :
    waiting client code = [] := by
  rw [waiting, List.filterMap_eq_nil_iff]
  intro op member
  cases op with
  | request source frame => exact absurd rfl (none _ member source frame)
  | _ => rfl

theorem Bare.waiting {code : Code Client} (bare : Bare code) (client : Client) :
    waiting client code = [] := by
  refine waiting_of_none (fun op member source frame same => ?_) client
  have speaks := bare op member
  rw [same] at speaks
  cases speaks

theorem waiting_sends (client : Client) (writes : List (Client × Frame)) :
    waiting client (sends writes) = [] := by
  refine waiting_of_none (fun op member source frame => ?_) client
  obtain ⟨write, -, rfl | rfl | rfl⟩ := mem_sends member <;> simp

theorem waiting_afterInquiry (client source : Client) (result : Report × Inquiry) :
    waiting client (afterInquiry source result) = [] := by
  obtain ⟨report, inquiry⟩ := result
  cases inquiry with
  | reply => exact waiting_sends client _
  | clients | topics | retained | keys =>
      exact waiting_of_none (by simp [afterInquiry]) client

/-- A frame of another kind is no request to the store. -/
theorem ofFrame_none {frame : Frame} {msg : Msg} (kind : frame.msg = some msg)
    (other : msg ∉ [Msg.kvSet, .kvSetex, .kvDel, .kvGet, .kvIncr, .kvSetnx]) :
    frame.isRequest = false := by
  unfold Frame.isRequest KvRequest.ofFrame
  rw [kind]
  cases msg <;> simp at other ⊢

/-- A frame that has been taken waits to be run when it is a request to the store. -/
theorem waiting_handleFrame (client source : Client) (frame : Frame) :
    waiting client (handleFrame source frame) =
      if source = client ∧ frame.isRequest then [frame] else [] := by
  have nothing {code : Code Client} {msg : Msg} (kind : frame.msg = some msg)
      (other : msg ∉ [Msg.kvSet, .kvSetex, .kvDel, .kvGet, .kvIncr, .kvSetnx])
      (none : waiting client code = []) :
      waiting client code = if source = client ∧ frame.isRequest then [frame] else [] := by
    rw [none, ofFrame_none kind other]
    simp
  unfold handleFrame
  split
  · rename_i kind
    refine nothing kind (by decide) (waiting_of_none ?_ client)
    split <;> simp
  · rename_i kind
    exact nothing kind (by decide) (waiting_of_none (by simp) client)
  · rename_i kind
    exact nothing kind (by decide) (waiting_of_none (by simp) client)
  · rename_i kind
    exact nothing kind (by decide) (waiting_of_none (by simp) client)
  · rename_i kind
    exact nothing kind (by decide) (waiting_sends client _)
  · rename_i kind
    refine nothing kind (by decide) (waiting_of_none ?_ client)
    split <;> simp
  · split
    · rename_i some
      simp only [waiting, List.filterMap_cons, List.filterMap_nil, Frame.isRequest, some, and_true]
      split <;> simp_all
    · rename_i none
      simp [waiting, Frame.isRequest, none]

/-- The requests that the reader of a client has taken are run in their order, all but the last. -/
structure InOrder (system : System Client) (deeds : List (Deed Client)) : Prop where
  requests : ∀ client, (taken client deeds).filter (fun frame => frame.isRequest) =
    requested client deeds ++ waiting client (system.code (.reader client))
  single : ∀ client, (waiting client (system.code (.reader client))).length ≤ 1

theorem taken_append (client : Client) (deeds more : List (Deed Client)) :
    taken client (deeds ++ more) = taken client deeds ++ taken client more :=
  List.filterMap_append

theorem requested_append (client : Client) (deeds more : List (Deed Client)) :
    requested client (deeds ++ more) = requested client deeds ++ requested client more :=
  List.filterMap_append

omit [LinearOrder Client] in
/-- The thread with the operation is the one that the operation is for. -/
theorem role_of_head (orderly : Orderly Mutex.rank Follows system) {thread : Worker Client}
    {op : Op Client} {rest : Code Client} (code : system.code thread = op :: rest) :
    ∀ role ∈ op.role, thread = role := by
  obtain ⟨held, stacked⟩ := orderly.stacked thread
  have follows := stacked.follows
  rw [code] at follows
  exact follows.2.1

/-- Only the reader of a client takes its frames and runs its requests. -/
theorem deed_source (sound : Sound config system.data system.code)
    (orderly : Orderly Mutex.rank Follows system) {thread : Worker Client} {client : Client}
    {frame : Frame} {deed : Deed Client}
    (member : deed ∈ system.data.deed choice (system.code thread))
    (about : deed = .take client frame ∨ ∃ now later, deed = .request client frame now later) :
    thread = .reader client := by
  cases code : system.code thread with
  | nil =>
      rw [code] at member
      cases member
  | cons op rest =>
      rw [code] at member
      cases op with
      | next owner number =>
          obtain ⟨here, -, socket⟩ := next_socket sound orderly code
          simp only [State.deed, socket] at member
          split at member
          · cases member
          · split at member
            · cases member
            · obtain rfl := List.mem_singleton.mp member
              rcases about with same | ⟨now, later, same⟩
              · cases same
                exact here
              · cases same
      | request source sent =>
          obtain rfl := List.mem_singleton.mp member
          rcases about with same | ⟨now, later, same⟩
          · cases same
          · cases same
            exact role_of_head orderly code _ rfl
      | sweepKeys read =>
          obtain rfl := List.mem_singleton.mp member
          rcases about with same | ⟨now, later, same⟩ <;> cases same
      | leaveKeys source =>
          obtain rfl := List.mem_singleton.mp member
          rcases about with same | ⟨now, later, same⟩ <;> cases same
      | _ => cases member

/-- A step of another thread is not about the client. -/
theorem deed_others (sound : Sound config system.data system.code)
    (orderly : Orderly Mutex.rank Follows system) {thread : Worker Client} {client : Client}
    (different : thread ≠ .reader client) :
    taken client (system.data.deed choice (system.code thread)) = [] ∧
      requested client (system.data.deed choice (system.code thread)) = [] := by
  constructor
  · rw [taken, List.filterMap_eq_nil_iff]
    intro deed member
    cases deed with
    | take source frame =>
        refine if_neg fun same => different ?_
        exact same ▸ deed_source sound orderly member (.inl rfl)
    | _ => rfl
  · rw [requested, List.filterMap_eq_nil_iff]
    intro deed member
    cases deed with
    | request source frame now later =>
        refine if_neg fun same => different ?_
        exact same ▸ deed_source sound orderly member (.inr ⟨now, later, rfl⟩)
    | _ => rfl

/-- What the reader of a client takes is what it runs and what then waits. -/
theorem waiting_outcome (sound : Sound config system.data system.code)
    (orderly : Orderly Mutex.rank Follows system) {client : Client} {after : State Client}
    {new : Code Client} (single : (waiting client (system.code (.reader client))).length ≤ 1)
    (outcome : (decode config choice system.data (system.code (.reader client))).outcome
      system.data = some (after, new)) :
    let deeds := system.data.deed choice (system.code (.reader client))
    waiting client (system.code (.reader client)) ++
        (taken client deeds).filter (fun frame => frame.isRequest) =
      requested client deeds ++ waiting client new ∧ (waiting client new).length ≤ 1 := by
  intro deeds
  cases code : system.code (.reader client) with
  | nil =>
      rw [code] at outcome
      cases outcome
  | cons op rest =>
      have here : deeds = system.data.deed choice (op :: rest) := by rw [← code]
      clear_value deeds
      subst deeds
      rw [code] at outcome single
      by_cases calm : op.calm = true
      · have same : waiting client (op :: rest) = waiting client rest := by
          cases op with
          | request _ _ => cases calm
          | _ => rfl
        obtain ⟨-, ops, rfl, goes⟩ := calm_outcome calm outcome
        rw [same] at single ⊢
        rw [waiting_append]
        generalize system.data.deed choice (op :: rest) = deeds at goes ⊢
        have kept (none : waiting client ops = []) (still : deeds = []) :
            waiting client rest ++ (taken client deeds).filter (fun frame => frame.isRequest) =
              requested client deeds ++ (waiting client ops ++ waiting client rest) ∧
            (waiting client ops ++ waiting client rest).length ≤ 1 := by
          rw [none, still]
          exact ⟨List.append_nil _, single⟩
        cases goes with
        | bare silent => exact kept (silent.waiting client) rfl
        | replays _ _ => exact kept (waiting_sends client _) rfl
        | routes _ _ => exact kept (waiting_sends client _) rfl
        | inquires _ _ _ _ => exact kept (waiting_afterInquiry client _ _) rfl
        | takes socket inbox =>
            rename_i owner peer number frame frames
            obtain ⟨own, last, opened⟩ := next_socket sound orderly code
            cases own
            rw [socket] at opened
            cases opened
            have loop : waiting client ([.loop client number] : Code Client) = [] := rfl
            subst last
            rw [waiting_append, waiting_handleFrame, loop]
            cases kind : frame.isRequest with
            | true => simp [taken, requested, waiting, kind]
            | false => simp [taken, requested, waiting, kind]
      · cases op with
        | request source frame =>
            obtain ⟨-, rfl⟩ := Prod.mk.inj (Option.some.inj outcome)
            obtain own := role_of_head orderly code _ rfl
            cases own
            rw [waiting_append, waiting_sends]
            simp only [waiting, List.filterMap_cons, if_true, List.length_cons] at single
            refine ⟨by simp [State.deed, taken, requested, waiting], ?_⟩
            rw [List.nil_append]
            exact Nat.le_of_succ_le single
        | sweepKeys read =>
            obtain own := role_of_head orderly code _ rfl
            cases own
        | leaveKeys source =>
            obtain ⟨-, rfl⟩ := Prod.mk.inj (Option.some.inj outcome)
            exact ⟨List.append_nil _, single⟩
        | write peer frame =>
            obtain ⟨-, rfl⟩ := Prod.mk.inj (Option.some.inj outcome)
            exact ⟨List.append_nil _, single⟩
        | _ => exact absurd rfl calm

theorem InOrder.go (order : InOrder system deeds) (sound : Sound config system.data system.code)
    (orderly : Orderly Mutex.rank Follows system) {thread : Worker Client}
    (enabled : (machine config).Enabled system thread choice) :
    InOrder (system.step config (.go thread choice))
      (deeds ++ system.deeds (.go thread choice)) := by
  obtain ⟨after, new, outcome, -, codes⟩ := step_enabled enabled
  have decoded : (decode config choice system.data (system.code thread)).outcome system.data =
    some (after, new) := outcome
  change (system.step config (.go thread choice)).code = _ at codes
  change InOrder _ (deeds ++ system.data.deed choice (system.code thread))
  generalize system.step config (.go thread choice) = next at codes ⊢
  have codeOf (client : Client) : next.code (.reader client) =
      if thread = .reader client then new else system.code (.reader client) := by
    rw [codes]
    split
    · rename_i here
      rw [here]
      exact Function.update_self ..
    · rename_i different
      exact Function.update_of_ne (Ne.symm different) ..
  refine ⟨fun client => ?_, fun client => ?_⟩
  · rw [taken_append, requested_append, List.filter_append, order.requests, codeOf]
    split
    · rename_i here
      subst thread
      rw [List.append_assoc, List.append_assoc,
        (waiting_outcome sound orderly (order.single client) decoded).1]
    · rename_i different
      have none : taken client (system.data.deed choice (system.code thread)) = [] :=
        (deed_others sound orderly different).1
      have idle : requested client (system.data.deed choice (system.code thread)) = [] :=
        (deed_others sound orderly different).2
      rw [none, idle]
      simp
  · rw [codeOf]
    split
    · rename_i here
      subst thread
      exact (waiting_outcome sound orderly (order.single client) decoded).2
    · exact order.single client

theorem InOrder.step (order : InOrder system deeds) (sound : Sound config system.data system.code)
    (orderly : Orderly Mutex.rank Follows system) (action : Action Client) :
    InOrder (system.step config action) (deeds ++ system.deeds action) := by
  cases action with
  | outside event => exact (List.append_nil deeds).symm ▸ ⟨order.requests, order.single⟩
  | go thread choice =>
      by_cases enabled : (machine config).Enabled system thread choice
      · exact order.go sound orderly enabled
      · have idle : system.step config (.go thread choice) = system := step_idle enabled
        rw [deed_idle enabled, List.append_nil, idle]
        exact order

theorem server_inOrder (config : Config) (actions : List (Action Client)) :
    InOrder (run (System.step config) System.initial actions)
      (collect (System.step config) System.deeds System.initial actions) := by
  have keep (system : System Client) (deeds : List (Deed Client)) (action : Action Client)
      (held : Sound config system.data system.code ∧ Orderly Mutex.rank Follows system ∧
        InOrder system deeds) :
      Sound config (system.step config action).data (system.step config action).code ∧
        Orderly Mutex.rank Follows (system.step config action) ∧
        InOrder (system.step config action) (deeds ++ system.deeds action) :=
    ⟨held.1.step action, held.2.1.step server_discipline action,
      held.2.2.step held.1 held.2.1 action⟩
  exact (collect_invariant keep actions _ []
    ⟨.initial, server_orderly config [], fun _ => rfl, fun _ => Nat.zero_le 1⟩).2.2

/-- A thread takes frames from the front of an inbox. -/
theorem inbox_outcome {after : State Client} {code next : Code Client}
    (outcome : (decode config choice state code).outcome state = some (after, next))
    (client : Client) :
    state.inbox client = taken client (state.deed choice code) ++ after.inbox client := by
  cases code with
  | nil => cases outcome
  | cons op rest =>
      have still (same : op.changes = false) (none : taken client (state.deed choice (op :: rest)) =
          []) : state.inbox client =
          taken client (state.deed choice (op :: rest)) ++ after.inbox client := by
        rw [none, (kept_outcome same outcome).inbox]
        rfl
      cases op with
      | next owner number =>
          rcases next_outcome outcome with
            ⟨-, none, rfl | ⟨-, rfl⟩⟩ | ⟨peer, frame, frames, -, inbox, one, rfl, -⟩
          · rw [none]
            rfl
          · rw [none]
            rfl
          · rw [one]
            by_cases same : peer = client
            · subst peer
              simp [taken, inbox]
            · simp [taken, same, Ne.symm same]
      | subscribe _ _ | unsubscribe _ _ | leaveTopics _ =>
          obtain ⟨rfl, -⟩ := Prod.mk.inj (Option.some.inj outcome)
          rfl
      | _ => exact still rfl rfl

/-- A frame stays in the inbox of its client until the reader takes it. -/
theorem inbox_step (config : Config) (system : System Client) (action : Action Client)
    (client : Client) : system.data.inbox client ++ system.arrivals client action =
      taken client (system.deeds action) ++ (system.step config action).data.inbox client := by
  cases action with
  | outside event =>
      change _ = (outside event system.data).inbox client
      cases event with
      | arrive source frame =>
          simp only [System.arrivals, outside]
          by_cases down : system.data.shut source = true
          · simp [down]
          · by_cases same : source = client
            · subst source
              simp [down]
            · simp [down, same, Ne.symm same]
      | dial source uid =>
          simp only [System.arrivals, outside, List.append_nil]
          split <;> rfl
      | hangUp source => exact List.append_nil _
      | destroy => exact List.append_nil _
  | go thread choice =>
      refine (List.append_nil _).trans ?_
      by_cases enabled : (machine config).Enabled system thread choice
      · obtain ⟨after, next, outcome, data, -⟩ := step_enabled enabled
        change (system.step config (.go thread choice)).data = after at data
        rw [data]
        exact inbox_outcome outcome client
      · have idle : system.step config (.go thread choice) = system := step_idle enabled
        rw [deed_idle enabled, idle]
        rfl

/-- In every run, the threads of a daemon run its store as if each request, and each pass of the
sweep, were taken at once with everything that it sends. The requests of a client are run in the
order in which they came, and none is lost or run twice. The frames of the store on a connection are
those that the steps of the store send there, in their order and without a gap. When no thread holds
`kv_mu_`, a connection that is up has them all. -/
theorem server_refines_store (config : Config) (actions : List (Action Client)) :
    let system := run (System.step config) System.initial actions
    let deeds := collect (System.step config) System.deeds System.initial actions
    system.data.store = runWith Store.deed .empty deeds ∧
    (∀ client,
      collect (System.step config) (System.arrivals client) System.initial actions =
        taken client deeds ++ system.data.inbox client ∧
      (∃ waiting : List Frame, waiting.length ≤ 1 ∧
        (taken client deeds).filter (fun frame => frame.isRequest) =
          requested client deeds ++ waiting) ∧
      system.data.stored client <+: outputs client deeds) ∧
    ((∀ worker mode, (worker, mode) ∉ system.holders .kv) → ∀ client,
      system.data.fd client ≠ none → system.data.shut client = false →
      system.data.stored client = outputs client deeds) := by
  intro system deeds
  have atomic := server_atomic config actions
  have order := server_inOrder config actions
  refine ⟨atomic.store, fun client => ⟨?_, ⟨_, order.single client, order.requests client⟩,
    atomic.behind client⟩, fun free client opened up => ?_⟩
  · have keep (system : System Client) (action : Action Client) (_ : True) (_ : True) :
        True ∧ system.data.inbox client ++ system.arrivals client action =
          taken client (system.deeds action) ++ (system.step config action).data.inbox client :=
      ⟨True.intro, inbox_step config system action client⟩
    have queue := collect_queue keep actions System.initial True.intro
      (Meets.of_admitted fun _ _ => True.intro)
    refine queue.trans ?_
    rw [taken, collect_filterMap]
    rfl
  · exact atomic.settled free opened up

end Chappe.Server
