/-
This file proves what one step of the daemon does to its store and what it writes about a key.
-/

import Chappe.Construction.Fleet
import Chappe.Proof.Kv.CacheCoherence
import Chappe.Proof.Kv.Outboxes
import Chappe.Proof.Kv.Performed
import Chappe.Proof.Network.Routing

namespace Chappe
open Foundation

variable {Client : Type} {key : Bytes} {values : Option Bytes → Prop}

/-- The frame gives one of the values to the entry of the key in a cache, or it leaves the entry. -/
def Frame.Leaves (key : Bytes) (values : Option Bytes → Prop) (frame : Frame) : Prop :=
  (¬ frame.Marks key ∧ ∀ entry, frame.applyTo key entry = entry) ∨
    ∃ value, values value ∧ ∀ entry, frame.applyTo key entry = value

/-- One of the changes of the key has left the value. -/
def LeftBy (key : Bytes) (changes : List Change) (value : Option Bytes) : Prop :=
  ∃ change ∈ changes, change.key = key ∧ value = change.apply none

/-- The value is in the store, or one of the changes of the key has left it. -/
def Finds (key : Bytes) (stored : Option Bytes) (changes : List Change) (value : Option Bytes) :
    Prop :=
  value = stored ∨ LeftBy key changes value

theorem Frame.Leaves.mono {frame : Frame} {wider : Option Bytes → Prop}
    (leaves : frame.Leaves key values) (within : ∀ value, values value → wider value) :
    frame.Leaves key wider :=
  leaves.imp_right fun ⟨value, among, applied⟩ => ⟨value, within value among, applied⟩

theorem leaves_other {frame : Frame} (other : frame.name ≠ key) : frame.Leaves key values :=
  .inl ⟨fun marks => other marks.1, Frame.applyTo_of_ne other⟩

theorem leaves_foreign {msg : Msg} (foreign : msg.isForeign = true) (name payload : Bytes) :
    (msg.frame name payload).Leaves key values := by
  left
  cases msg <;> simp [Msg.isForeign, Frame.Marks, Frame.applyTo] at foreign ⊢

theorem leaves_result (id : Nat) (ok : Bool) (value : Bytes) :
    (kvResult key id ok value).Leaves key values := by
  left
  simp [kvResult, Frame.Marks, Frame.applyTo]

theorem leaves_update {value : Bytes} (among : values (some value)) :
    (Msg.kvUpdate.frame key value).Leaves key values :=
  .inr ⟨some value, among, fun entry => by simp [Frame.applyTo]⟩

theorem leaves_del {payload : Bytes} (among : values none) :
    (Msg.kvDel.frame key payload).Leaves key values :=
  .inr ⟨none, among, fun entry => by simp [Frame.applyTo]⟩

theorem answerValue_payload (id : Nat) (found : Option Bytes) :
    answerValue (answerPayload id found.isSome (found.getD [])) = found := by
  cases found <;> simp [answerValue, answerPayload, appendU32, littleEndian]

theorem leaves_reply {id : Nat} {found : Option Bytes} (among : values found) :
    (kvReply key id found).Leaves key values := by
  refine .inr ⟨found, among, fun entry => ?_⟩
  simp [Frame.applyTo, kvReply, answerPayload_length, answerValue_payload]

/-- A reply about the key that leaves one of the values carries it. -/
theorem Frame.Leaves.reply {frame : Frame} (leaves : frame.Leaves key values)
    (reply : frame.msg = some .kvReply) (name : frame.name = key) :
    values (answerValue frame.payload) := by
  rcases leaves with ⟨unmarked, -⟩ | ⟨value, among, applied⟩
  · exact absurd ⟨name, .inl reply⟩ unmarked
  · have missing := applied none
    have present := applied (some [])
    simp only [Frame.applyTo, if_pos name, reply] at missing present
    split at missing
    · rename_i short
      rw [if_pos short, ← missing] at present
      cases present
    · exact missing ▸ among

/-- The entry of a key after frames that leave only some values. -/
theorem entryAfter_leaves {entry : Option Bytes} {first : List Frame} (more : List Frame)
    (start : (∃ frame ∈ first, frame.Marks key) → values (entryAfter key entry first))
    (leaves : ∀ frame ∈ more, frame.Leaves key values)
    (marks : ∃ frame ∈ first ++ more, frame.Marks key) :
    values (entryAfter key entry (first ++ more)) := by
  induction more generalizing first with
  | nil =>
      rw [List.append_nil] at marks ⊢
      exact start marks
  | cons frame rest ih =>
      rw [← List.singleton_append, ← List.append_assoc] at marks ⊢
      refine ih ?_ (fun other member => leaves other (List.mem_cons_of_mem _ member)) marks
      rintro ⟨marking, member, marks⟩
      rw [entryAfter_append]
      rcases leaves frame List.mem_cons_self with ⟨unmarked, same⟩ | ⟨value, among, applied⟩
      · change values (frame.applyTo key _)
        rw [same]
        rcases List.mem_append.mp member with before | last
        · exact start ⟨marking, before, marks⟩
        · exact absurd (List.mem_singleton.mp last ▸ marks) unmarked
      · change values (frame.applyTo key _)
        rw [applied]
        exact among

variable [DecidableEq Client] {store : Store Client}

theorem dropIfExpired_leaves {now : Nat} {client : Client} {frame : Frame}
    (member : frame ∈ (store.dropIfExpired key now).2 client) :
    frame.Leaves key (LeftBy key (store.lapsed key now)) := by
  unfold Store.dropIfExpired at member
  split at member
  · rename_i expired
    rw [(mem_fanOut member).1]
    apply leaves_del
    refine ⟨.del key, ?_, rfl, rfl⟩
    rw [Store.lapsed, if_pos expired]
    exact List.mem_singleton_self _
  · cases member

theorem bump_leaves {source client : Client} {id current delta : Nat} {frame : Frame}
    (member : frame ∈ (store.bump source key id current delta).2 client) :
    frame.Leaves key (· = (store.bump source key id current delta).1.kv key) := by
  rcases List.mem_append.mp member with pushed | answered
  · rw [(mem_fanOut pushed).1]
    exact leaves_update (Table.insert_self _ _ _).symm
  · rw [(mem_sendTo answered).1]
    exact leaves_result id true _

/-- Every frame about a request leaves the value that the request leaves. -/
theorem answer_leaves {later : Nat} {source client : Client} {request : KvRequest} {frame : Frame}
    (member : frame ∈ (store.answer later source key request).2 client) :
    frame.Leaves key (· = (store.answer later source key request).1.kv key) := by
  cases request with
  | set value =>
      rw [(mem_fanOut member).1]
      exact leaves_update (Table.insert_self _ _ _).symm
  | setex ttlMs value =>
      rw [(mem_fanOut member).1]
      exact leaves_update (Table.insert_self _ _ _).symm
  | del =>
      rw [(mem_fanOut member).1]
      exact leaves_del (Table.erase_self _ _).symm
  | get id =>
      rw [(mem_sendTo member).1]
      exact leaves_reply rfl
  | incr id delta =>
      simp only [Store.answer] at member ⊢
      split at member
      · split at member
        · rw [(mem_sendTo member).1]
          exact leaves_result id false []
        · rename_i whole
          rw [if_neg whole]
          exact bump_leaves member
      · exact bump_leaves member
  | setnx id ttlMs value =>
      simp only [Store.answer] at member ⊢
      split at member
      · rcases List.mem_append.mp member with pushed | answered
        · rw [(mem_fanOut pushed).1]
          exact leaves_update (Table.insert_self _ _ _).symm
        · rw [(mem_sendTo answered).1]
          exact leaves_result id true []
      · rw [(mem_sendTo member).1]
        exact leaves_result id false []

/-- Every frame of a step about a key leaves what a change of this step leaves, or what is in the
store after it. -/
theorem handleFrame_leaves {now later : Nat} {source client : Client} {frame sent : Frame}
    (member : sent ∈ (store.handleFrame now later source frame).2 client) :
    sent.Leaves key (Finds key ((store.handleFrame now later source frame).1.kv key)
      (store.performed now frame)) := by
  by_cases here : frame.name = key
  · subst key
    unfold Store.handleFrame at member ⊢
    unfold Store.performed
    cases read : KvRequest.ofFrame frame with
    | none =>
        simp only [read] at member
        cases member
    | some request =>
        simp only [read] at member ⊢
        split at member
        · rename_i checks
          rw [if_pos checks, if_pos checks]
          rcases List.mem_append.mp member with dropped | answered
          · apply (dropIfExpired_leaves dropped).mono
            rintro value ⟨change, lapsed, about, left⟩
            exact .inr ⟨change, List.mem_append_left _ lapsed, about, left⟩
          · exact (answer_leaves answered).mono fun value same => .inl same
        · rename_i unchecked
          rw [if_neg unchecked, if_neg unchecked]
          exact (answer_leaves member).mono fun value same => .inl same
  · apply leaves_other
    rw [handleFrame_name member]
    exact here

theorem sweepKeys_leaves {now : Nat} {client : Client} {frame : Frame} (keys : List Bytes) :
    ∀ {store : Store Client}, frame ∈ (store.sweepKeys now keys).2 client →
      frame.Leaves key (LeftBy key (store.sweepPerformed now keys)) := by
  induction keys with
  | nil =>
      intro store member
      cases member
  | cons name rest ih =>
      intro store member
      rcases List.mem_append.mp member with dropped | swept
      · by_cases here : name = key
        · subst name
          apply (dropIfExpired_leaves dropped).mono
          rintro value ⟨change, lapsed, about, left⟩
          exact ⟨change, List.mem_append_left _ lapsed, about, left⟩
        · apply leaves_other
          rw [dropIfExpired_name dropped]
          exact here
      · apply (ih swept).mono
        rintro value ⟨change, performed, about, left⟩
        exact ⟨change, List.mem_append_right _ performed, about, left⟩

/-- The two things that a step can do to the store. Either it writes frames that tell of what it
performs, or it takes a client out of the watchers. -/
inductive Daemon.Serves (key : Bytes) (daemon : Daemon Client) (action : DaemonAction Client)
    (next : Daemon Client) : Prop
  | writes (outbox : Outbox Client) (asks : Client → Prop)
      (tells : Tells daemon.store (next.store, outbox) asks)
      (asked : ∀ client name, next.store.Watches client name →
        daemon.store.Watches client name ∨ (daemon.life client).connected = true)
      (sent : ∀ client, next.broker.sent client = daemon.broker.sent client ++
        if (daemon.life client).connected then outbox client else [])
      (kv : next.store.kv key =
        (about key (daemon.performs action)).foldl Change.apply (daemon.store.kv key))
      (leaves : ∀ client, ∀ frame ∈ outbox client,
        frame.Leaves key (Finds key (next.store.kv key) (daemon.performs action)))
  | removes (client : Client) (store : next.store = daemon.store.removeClient client)
      (left : ¬ (next.life client).Watching) (sent : next.broker.sent = daemon.broker.sent)
      (performs : daemon.performs action = [])

/-- A step that leaves the store and writes no frame of it. -/
theorem Daemon.Serves.foreign {daemon next : Daemon Client} {action : DaemonAction Client}
    (store : next.store = daemon.store) (performs : daemon.performs action = [])
    (client : Client) (msg : Msg) (foreign : msg.isForeign = true) (name payload : Bytes)
    (sent : ∀ other, next.broker.sent other = daemon.broker.sent other ++
      if (daemon.life other).connected then
        Outbox.sendTo client (msg.frame name payload) other else []) :
    Daemon.Serves key daemon action next := by
  refine .writes (.sendTo client (msg.frame name payload)) (· = client) ?_ ?_ sent ?_ ?_
  · rw [store]
    exact Tells.foreign daemon.store client msg name payload foreign
  · rw [store]
    exact fun _ _ watches => .inl watches
  · rw [store, performs]
    rfl
  · intro other frame member
    rw [(mem_sendTo member).1]
    exact leaves_foreign foreign name payload

/-- A step that leaves the store and writes nothing. -/
theorem Daemon.Serves.quiet {daemon next : Daemon Client} {action : DaemonAction Client}
    (store : next.store = daemon.store) (performs : daemon.performs action = [])
    (sent : next.broker.sent = daemon.broker.sent) : Daemon.Serves key daemon action next := by
  refine .writes .silent (fun _ => False) ?_ ?_ ?_ ?_ ?_
  · rw [store]
    exact Tells.silent daemon.store _
  · rw [store]
    exact fun _ _ watches => .inl watches
  · intro client
    rw [sent, Outbox.silent, ite_self, List.append_nil]
  · rw [store, performs]
    rfl
  · exact fun _ _ member => absurd member List.not_mem_nil

omit [DecidableEq Client] in
theorem deliver_sent (daemon : Daemon Client) (outbox : Outbox Client) (client : Client) :
    (daemon.deliver outbox).broker.sent client = daemon.broker.sent client ++
      if (daemon.life client).connected then outbox client else [] := by
  simp only [Daemon.deliver]
  split
  · rfl
  · exact (List.append_nil _).symm

/-- A publish that a thread writes while it routes. -/
theorem route_sent (daemon : Daemon Client) (client actor : Client) (frame : Frame)
    (place : Thread Client) (other : Client) :
    (daemon.route ((daemon.broker.sendTo client frame).goto actor place)).broker.sent other =
      daemon.broker.sent other ++
        if (daemon.life other).connected then Outbox.sendTo client frame other else [] := by
  simp only [Daemon.route, Broker.goto, Broker.sendTo, Outbox.sendTo]
  split
  · by_cases mine : other = client
    · rw [mine, Function.update_self, if_pos rfl]
    · rw [Function.update_of_ne mine, if_neg mine, List.append_nil]
  · exact (List.append_nil _).symm

theorem performs_taken {daemon : Daemon Client} {client target actor : Client}
    {order : List Bytes} {now later : Nat} {frame : Frame}
    (takes : daemon.takes (.thread client target order now later) = some (actor, frame)) :
    daemon.performs (.thread client target order now later) =
      daemon.store.performed now frame := by
  simp only [Daemon.performs, takes]

theorem performs_none {daemon : Daemon Client} {client target : Client}
    {order : List Bytes} {now later : Nat}
    (takes : daemon.takes (.thread client target order now later) = none) :
    daemon.performs (.thread client target order now later) = [] := by
  simp only [Daemon.performs, takes]

omit [DecidableEq Client] in
/-- A thread takes nothing before it has come back from its last frame. -/
theorem takes_of_life {daemon : Daemon Client} {client target : Client} {order : List Bytes}
    {now later : Nat} (other : daemon.life client ≠ .serving) :
    daemon.takes (.thread client target order now later) = none := by
  simp only [Daemon.takes]
  split
  · rename_i serving _ _
    exact absurd serving other
  · rfl

omit [DecidableEq Client] in
theorem takes_of_working {daemon : Daemon Client} {client target : Client} {order : List Bytes}
    {now later : Nat} (working : daemon.broker.thread client ≠ .idle) :
    daemon.takes (.thread client target order now later) = none := by
  simp only [Daemon.takes]
  split
  · rename_i idle _
    exact absurd idle working
  · rfl

/-- The frame that a thread takes. -/
theorem takes_serves {daemon : Daemon Client} {client target : Client} {order : List Bytes}
    {now later : Nat} (serving : daemon.life client = .serving)
    (idle : daemon.broker.thread client = .idle) {frame : Frame} {rest : List Frame}
    (queued : daemon.broker.inbox client = frame :: rest) :
    Daemon.Serves key daemon (.thread client target order now later)
      (Daemon.handleFrame
        { daemon with
          broker := { daemon.broker with
            inbox := Function.update daemon.broker.inbox client rest }
          named := insert frame.name daemon.named }
        client frame now later) := by
  have takes : daemon.takes (.thread client target order now later) = some (client, frame) := by
    simp only [Daemon.takes, serving, idle, queued]
  have performs := performs_taken takes
  have silent (other : KvRequest.ofFrame frame = none) :
      daemon.performs (.thread client target order now later) = [] := by
    rw [performs, Store.performed, other]
  have begun (other : KvRequest.ofFrame frame = none) {next : Daemon Client}
      (store : next.store = daemon.store) (sent : next.broker.sent = daemon.broker.sent) :
      Daemon.Serves key daemon (.thread client target order now later) next :=
    .quiet store (silent other) sent
  unfold Daemon.handleFrame
  split
  · rename_i kind
    exact .foreign rfl (silent (by simp only [KvRequest.ofFrame, kind])) client .pong rfl frame.name
      frame.payload (deliver_sent _ _)
  · rename_i kind
    have other : KvRequest.ofFrame frame = none := by simp only [KvRequest.ofFrame, kind]
    split
    · exact begun other rfl rfl
    · exact begun other rfl rfl
  · rename_i kind
    exact begun (by simp only [KvRequest.ofFrame, kind]) rfl (begin_sent _ client frame)
  · rename_i kind
    exact begun (by simp only [KvRequest.ofFrame, kind]) rfl (begin_sent _ client frame)
  · rename_i kind
    exact begun (by simp only [KvRequest.ofFrame, kind]) rfl (begin_sent _ client frame)
  · rename_i kind
    exact begun (by simp only [KvRequest.ofFrame, kind]) rfl (begin_sent _ client frame)
  · have tells := Tells.handleFrame daemon.store now later client frame
    refine .writes (daemon.store.handleFrame now later client frame).2 (· = client) tells ?_
      (deliver_sent _ _) ?_ ?_
    · intro other name watches
      refine (tells.asked other name watches).imp_right ?_
      rintro rfl
      rw [serving]
      rfl
    · rw [performs]
      exact handleFrame_kv now later client frame
    · intro other sent member
      rw [performs]
      exact handleFrame_leaves member

/-- A thread that routes or replays writes publishes only. -/
theorem routes_serves {daemon : Daemon Client} {client target : Client} {order : List Bytes}
    {now later : Nat} (working : daemon.broker.thread client ≠ .idle) :
    Daemon.Serves key daemon (.thread client target order now later)
      (daemon.route (daemon.broker.step (client, target))) := by
  have performs : daemon.performs (.thread client target order now later) = [] :=
    performs_none (takes_of_working working)
  have quiet {broker : Broker Client} (sent : broker.sent = daemon.broker.sent) :
      Daemon.Serves key daemon (.thread client target order now later) (daemon.route broker) := by
    refine .quiet rfl performs ?_
    funext other
    simp only [Daemon.route, sent, ite_self]
  have writes (receiver : Client) (frame : Frame) (place : Thread Client) :
      Daemon.Serves key daemon (.thread client target order now later)
        (daemon.route ((daemon.broker.sendTo receiver
          (Msg.publish.frame frame.name frame.payload)).goto client place)) :=
    .foreign rfl performs receiver .publish rfl frame.name frame.payload (route_sent daemon _ _ _ _)
  unfold Broker.step
  cases thread : daemon.broker.thread client with
  | idle => exact absurd thread working
  | registered topic =>
      dsimp only
      split
      · exact quiet rfl
      · exact quiet rfl
  | replaying topic value => exact writes client (Msg.publish.frame topic value) .idle
  | routing frame retain targets remaining =>
      dsimp only
      split
      · exact writes target frame _
      · split
        · split
          · exact quiet rfl
          · exact quiet rfl
        · exact quiet rfl

/-- Every step of the daemon does one of the two things. -/
theorem daemon_serves (key : Bytes) (daemon : Daemon Client) (action : DaemonAction Client) :
    Daemon.Serves key daemon action (daemon.step action) := by
  cases action with
  | connect client =>
      simp only [Daemon.step]
      split <;> exact .quiet rfl rfl rfl
  | arrive client frame => exact .quiet rfl rfl rfl
  | hangUp client =>
      simp only [Daemon.step]
      split <;> exact .quiet rfl rfl rfl
  | sweep order read =>
      refine .writes (daemon.store.sweep read order).2 (fun _ => False) (Tells.sweepKeys read _ _)
        ?_ (deliver_sent _ _) (sweepKeys_kv read _ _) ?_
      · intro client name watches
        exact .inl (((sweep_watching daemon.store read order).watches client name).mp watches)
      · intro client frame member
        exact (sweepKeys_leaves _ member).mono fun value left => .inr left
  | thread client target order now later =>
      simp only [Daemon.step, Daemon.threadStep]
      cases life : daemon.life client with
      | absent => exact .quiet rfl (performs_none (takes_of_life (by simp [life]))) rfl
      | gone => exact .quiet rfl (performs_none (takes_of_life (by simp [life]))) rfl
      | leaving departure =>
          have performs : daemon.performs (.thread client target order now later) = [] :=
            performs_none (takes_of_life (by simp [life]))
          cases departure with
          | subs => exact .quiet rfl performs rfl
          | watchers =>
              refine .removes client rfl ?_ rfl performs
              dsimp only [Daemon.depart, Daemon.become]
              rw [Function.update_self]
              exact id
          | socket => exact .quiet rfl performs rfl
          | clients => exact .quiet rfl performs rfl
      | reporting inquiry report =>
          have performs : daemon.performs (.thread client target order now later) = [] :=
            performs_none (takes_of_life (by simp [life]))
          dsimp only
          unfold Daemon.inquire
          split
          · exact .quiet rfl performs rfl
          · split
            · exact .quiet rfl performs rfl
            · exact .quiet rfl performs rfl
          · exact .quiet rfl performs rfl
          · exact .quiet rfl performs rfl
          · exact .foreign rfl performs client .info rfl [] _ (deliver_sent daemon _)
      | serving =>
          dsimp only
          split
          · rename_i idle
            split
            · rename_i queued
              refine .quiet rfl (performs_none ?_) rfl
              simp only [Daemon.takes, life, idle, queued]
            · rename_i frame rest queued
              exact takes_serves life idle queued
          · rename_i working
            exact routes_serves working

end Chappe
