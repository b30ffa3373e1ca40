/-
This file proves when every frame that the daemon writes fits the bound of its reader.
-/

import Chappe.Proof.Daemon.Indices
import Chappe.Proof.Kv.KeyLocality
import Chappe.Proof.Transport.Framing

namespace Chappe
open Foundation

variable {Client : Type}

/-- Every frame of one step fits. -/
def Outbox.Fits (outbox : Outbox Client) : Prop := ∀ client, ∀ frame ∈ outbox client, frame.Fits

theorem Outbox.Fits.silent : (Outbox.silent : Outbox Client).Fits :=
  fun _ _ member => nomatch member

theorem Outbox.Fits.then {first second : Outbox Client} (one : first.Fits) (two : second.Fits) :
    (first.then second).Fits := by
  intro client frame member
  rcases List.mem_append.mp member with early | late
  · exact one client frame early
  · exact two client frame late

/-- A value fits into a payload. -/
def Small (value : Bytes) : Prop := value.length ≤ maxFrameBytes

theorem Msg.frame_fits (msg : Msg) {name payload : Bytes} (one : Small name)
    (two : Small payload) : (msg.frame name payload).Fits := ⟨one, two⟩

/-- The values of a request fit. -/
def KvRequest.Fits : KvRequest → Prop
  | .set value | .setex _ value | .setnx _ _ value => Small value
  | _ => True

theorem KvRequest.fits_of_frame {frame : Frame} (fits : frame.Fits) {request : KvRequest}
    (read : KvRequest.ofFrame frame = some request) : request.Fits := by
  have shorter (count : Nat) : Small (frame.payload.drop count) := by
    rw [Small, List.length_drop]
    exact (Nat.sub_le _ _).trans fits.2
  unfold KvRequest.ofFrame at read
  split at read
  · cases read
    exact fits.2
  · split at read
    · cases read
    · cases read
      exact shorter 4
  · cases read
    exact True.intro
  · split at read
    · cases read
    · cases read
      exact True.intro
  · split at read
    · cases read
    · cases read
      exact True.intro
  · split at read
    · cases read
    · cases read
      exact shorter 8
  · cases read

theorem ofFrame_get {frame : Frame} {id : Nat} (read : KvRequest.ofFrame frame = some (.get id)) :
    frame.msg = some .kvGet := by
  unfold KvRequest.ofFrame at read
  split at read
  · cases read
  · split at read <;> cases read
  · cases read
  · assumption
  · split at read <;> cases read
  · split at read <;> cases read
  · cases read

/-- Every value and every key with a deadline fits. -/
structure Store.Bounded (store : Store Client) : Prop where
  values : ∀ key value, store.kv key = some value → Small value
  deadlines : ∀ key, store.expires key ≠ none → Small key

/-- A found value leaves room for the request identifier and the flag. -/
def Store.ShortValue (store : Store Client) (key : Bytes) : Prop :=
  ∀ value, store.kv key = some value → value.length + 5 ≤ maxFrameBytes

/-- A get finds no live value, or one that leaves room in the reply. -/
def Store.ShortReply (store : Store Client) (now : Nat) (frame : Frame) : Prop :=
  ∀ id, KvRequest.ofFrame frame = some (.get id) →
    store.expired frame.name now = false → store.ShortValue frame.name

/-- The number of decimal digits. -/
def digits (number : Nat) : Nat := number.repr.length

/-- The length of the status text: the fixed texts, the digits of the seven counts, and a line of
five blanks and breaks, the topic, an equals sign and a count for each topic. -/
def Report.size (report : Report) : Nat :=
  95 + digits report.clients + digits report.topics.length + digits report.subscriptions +
    (report.topics.map fun entry => entry.1.length + digits entry.2 + 6).sum +
    digits report.patterns + digits report.retained + digits report.keys +
    digits report.watched + digits report.expiring

/-- The step is no get of a value of more than `MAX_FRAME_BYTES - 5` bytes and no status reply of
more than `MAX_FRAME_BYTES - 4` bytes of text. -/
def Daemon.ShortReplies (daemon : Daemon Client) : DaemonAction Client → Prop
  | .thread client _ _ now _ =>
      match daemon.life client with
      | .serving =>
          match daemon.broker.thread client, daemon.broker.inbox client with
          | .idle, frame :: _ => daemon.store.ShortReply now frame
          | _, _ => True
      | .reporting .reply report => report.size + 4 ≤ maxFrameBytes
      | _ => True
  | _ => True

/-- A frame that arrives was accepted by the reader of the daemon. -/
def DaemonAction.Accepted : DaemonAction Client → Prop
  | .arrive _ frame => frame.Fits
  | _ => True

/-- The frames that a thread still writes fit. -/
def Thread.Bounded : Thread Client → Prop
  | .idle => True
  | .registered topic => Small topic
  | .replaying topic value => Small topic ∧ Small value
  | .routing frame _ _ _ => frame.Fits

/-- Every frame and every retained value of the broker fits. -/
structure Broker.Bounded (broker : Broker Client) : Prop where
  inbox : ∀ client, ∀ frame ∈ broker.inbox client, frame.Fits
  retained : ∀ topic value, broker.retained topic = some value → Small value
  threads : ∀ client, (broker.thread client).Bounded

/-- Everything that the daemon has stored or read fits. -/
structure Daemon.Bounded (daemon : Daemon Client) : Prop where
  broker : daemon.broker.Bounded
  store : daemon.store.Bounded
  reports : ∀ client inquiry report, daemon.life client = .reporting inquiry report →
    report.id.length = 4

theorem ascii_length (text : String) : (ascii text).length = text.length := by
  rw [ascii, List.length_map, String.length_toList]

theorem decimal_length (number : Nat) : (decimal number).length = digits number :=
  ascii_length number.repr

theorem Report.topicsDetail_length (report : Report) :
    report.topicsDetail.length =
      (report.topics.map fun entry => entry.1.length + digits entry.2 + 6).sum := by
  rw [Report.topicsDetail, List.length_flatMap]
  congr 1
  apply List.map_congr_left
  intro entry _
  have blanks : (ascii "\n    ").length = 5 := by rfl
  have equals : (ascii "=").length = 1 := by rfl
  simp only [List.length_append, decimal_length, blanks, equals]
  omega

theorem Report.text_length (report : Report) : report.text.length = report.size := by
  simp only [Report.text, List.length_append, decimal_length, Report.topicsDetail_length,
    Report.size, ascii_length]
  have fixed : "clients: ".length = 9 ∧ "\n".length = 1 ∧ "topics: ".length = 8 ∧
      " (".length = 2 ∧ " subscriptions)".length = 15 ∧ "patterns: ".length = 10 ∧
      "retained: ".length = 10 ∧ "kv_keys: ".length = 9 ∧ "kv_watchers: ".length = 13 ∧
      "kv_expiring: ".length = 13 := by decide
  omega

variable {store : Store Client} {key : Bytes}

theorem kvReply_fits (name : Small key) (id : Nat) :
    (kvReply key id (store.kv key)).Fits ↔ store.ShortValue key := by
  rw [Frame.Fits, kvReply, Msg.frame_name, Msg.frame_payload, answerPayload_length,
    Store.ShortValue]
  cases found : store.kv key with
  | none =>
      simp only [Option.getD_none, List.length_nil, reduceCtorEq, false_implies, implies_true,
        iff_true]
      exact ⟨name, by decide⟩
  | some value =>
      simp only [Option.getD_some, Option.some.injEq, forall_eq']
      constructor
      · intro fits
        omega
      · intro short
        exact ⟨name, by omega⟩

theorem kvResult_fits (name : Small key) (id : Nat) (ok : Bool) {value : Bytes}
    (short : value.length ≤ 8) : (kvResult key id ok value).Fits := by
  refine ⟨name, ?_⟩
  rw [kvResult, Msg.frame_payload, answerPayload_length]
  unfold maxFrameBytes
  omega

theorem Store.Bounded.insert (bounded : store.Bounded) (name : Small key) {value : Bytes}
    (small : Small value) {changed : Store Client} (values : changed.kv = store.kv.insert key value)
    (deadlines : ∀ other, other ≠ key → changed.expires other = store.expires other) :
    changed.Bounded := by
  constructor
  · intro other found here
    by_cases same : other = key
    · rw [values, same, Table.insert_self] at here
      cases here
      exact small
    · rw [values, Table.insert_of_ne _ _ same] at here
      exact bounded.values other found here
  · intro other here
    by_cases same : other = key
    · rw [same]
      exact name
    · rw [deadlines other same] at here
      exact bounded.deadlines other here

variable [DecidableEq Client]

theorem Outbox.Fits.sendTo {frame : Frame} (fits : frame.Fits) (client : Client) :
    (Outbox.sendTo client frame).Fits := by
  intro receiver sent member
  rw [(mem_sendTo member).1]
  exact fits

theorem Outbox.Fits.fanOut {frame : Frame} (fits : frame.Fits) (clients : Option (Finset Client)) :
    (Outbox.fanOut clients frame).Fits := by
  intro receiver sent member
  rw [(mem_fanOut member).1]
  exact fits

/-- A step of the store that keeps it bounded and writes only frames that fit. -/
def Modest (outcome : Store Client × Outbox Client) : Prop :=
  outcome.1.Bounded ∧ outcome.2.Fits

theorem Modest.stored (bounded : store.Bounded) (name : Small key) {value : Bytes}
    (small : Small value) (ttlMs now : Nat) : Modest (store.store key value ttlMs now) := by
  refine ⟨bounded.insert name small rfl ?_, .fanOut (Msg.frame_fits _ name small) _⟩
  intro other different
  simp only [Store.store]
  split
  · exact Table.insert_of_ne _ _ different
  · exact Table.erase_of_ne _ different

theorem Modest.dropKey (bounded : store.Bounded) (name : Small key) :
    Modest (store.dropKey key) := by
  refine ⟨⟨?_, ?_⟩, .fanOut (Msg.frame_fits _ name (Nat.zero_le _)) _⟩
  · intro other value here
    by_cases same : other = key
    · simp [Store.dropKey, same] at here
    · simp only [Store.dropKey, Table.erase_of_ne _ same] at here
      exact bounded.values other value here
  · intro other here
    by_cases same : other = key
    · rw [same]
      exact name
    · simp only [Store.dropKey, Table.erase_of_ne _ same] at here
      exact bounded.deadlines other here

theorem Modest.dropIfExpired (bounded : store.Bounded) (name : Small key) (now : Nat) :
    Modest (store.dropIfExpired key now) := by
  unfold Store.dropIfExpired
  split
  · exact .dropKey bounded name
  · exact ⟨bounded, .silent⟩

theorem Modest.bump (bounded : store.Bounded) (name : Small key) (client : Client)
    (id current delta : Nat) : Modest (store.bump client key id current delta) := by
  have counter : (littleEndian 8 (current + delta)).length = 8 := littleEndian_length ..
  have small : Small (littleEndian 8 (current + delta)) := by
    rw [Small, counter]
    decide
  refine ⟨bounded.insert name small rfl fun _ _ => rfl, ?_⟩
  exact .then (.fanOut (Msg.frame_fits _ name small) _)
    (.sendTo (kvResult_fits name id true counter.le) client)

/-- Every request but a get writes frames that fit, and so does a get of a short value. -/
theorem Modest.answer (bounded : store.Bounded) (name : Small key) {request : KvRequest}
    (fits : request.Fits) (later : Nat) (client : Client)
    (short : ∀ id, request = .get id → store.ShortValue key) :
    Modest (store.answer later client key request) := by
  have refused (id : Nat) (ok : Bool) : (kvResult key id ok []).Fits :=
    kvResult_fits name id ok (Nat.zero_le _)
  cases request with
  | set value => exact .stored bounded name fits 0 later
  | setex ttlMs value => exact .stored bounded name fits ttlMs later
  | del => exact .dropKey bounded name
  | get id =>
      exact ⟨⟨bounded.values, bounded.deadlines⟩,
        .sendTo ((kvReply_fits name id).mpr (short id rfl)) client⟩
  | incr id delta =>
      simp only [Store.answer]
      split
      · split
        · exact ⟨bounded, .sendTo (refused id false) client⟩
        · exact .bump bounded name client id _ delta
      · exact .bump bounded name client id 0 delta
  | setnx id ttlMs value =>
      simp only [Store.answer]
      split
      · have stored := Modest.stored bounded name fits ttlMs later
        exact ⟨stored.1, stored.2.then (.sendTo (refused id true) client)⟩
      · exact ⟨bounded, .sendTo (refused id false) client⟩

theorem shortValue_dropped (now : Nat) :
    (store.dropIfExpired key now).1.ShortValue key ↔
      (store.expired key now = false → store.ShortValue key) := by
  unfold Store.dropIfExpired
  cases expired : store.expired key now with
  | false => simp
  | true => simp [Store.ShortValue, Store.dropKey]

theorem Modest.handleFrame (bounded : store.Bounded) {frame : Frame} (fits : frame.Fits)
    (now later : Nat) (client : Client) (short : store.ShortReply now frame) :
    Modest (store.handleFrame now later client frame) := by
  unfold Store.handleFrame
  cases read : KvRequest.ofFrame frame with
  | none => exact ⟨bounded, .silent⟩
  | some request =>
      have small := KvRequest.fits_of_frame fits read
      have dropped := Modest.dropIfExpired bounded fits.1 now
      simp only
      split
      · have answered := Modest.answer dropped.1 fits.1 small later client (by
          rintro id rfl
          exact (shortValue_dropped now).mpr (short id read))
        exact ⟨answered.1, dropped.2.then answered.2⟩
      · rename_i unchecked
        refine .answer bounded fits.1 small later client ?_
        rintro id rfl
        exact absurd rfl unchecked

/-- A get whose frames fit has found a short value. -/
theorem shortReply_of_fits {frame : Frame} (name : Small frame.name) (now later : Nat)
    (client : Client)
    (fits : ∀ sent ∈ (store.handleFrame now later client frame).2 client, sent.Fits) :
    store.ShortReply now frame := by
  intro id read
  rw [← shortValue_dropped now]
  unfold Store.handleFrame at fits
  simp only [read, KvRequest.checksDeadline, if_true, Store.answer] at fits
  rw [← kvReply_fits name id]
  apply fits
  apply List.mem_append_right
  simp [Outbox.sendTo]

theorem Modest.sweepKeys (now : Nat) (keys : List Bytes) :
    ∀ store : Store Client, store.Bounded → (∀ key ∈ keys, Small key) →
      Modest (store.sweepKeys now keys) := by
  induction keys with
  | nil => exact fun store bounded _ => ⟨bounded, .silent⟩
  | cons key rest ih =>
      intro store bounded names
      have dropped := Modest.dropIfExpired bounded (names key List.mem_cons_self) now
      have swept := ih _ dropped.1 fun other member => names other (List.mem_cons_of_mem _ member)
      exact ⟨swept.1, dropped.2.then swept.2⟩

theorem Modest.sweep (bounded : store.Bounded) (now : Nat) (order : List Bytes) :
    Modest (store.sweep now order) := by
  refine .sweepKeys now _ store bounded ?_
  intro key member
  apply bounded.deadlines
  intro none
  have due := (List.mem_filter.mp member).2
  simp [Store.expired, none] at due

theorem Store.Bounded.handleFrame (bounded : store.Bounded) {frame : Frame} (fits : frame.Fits)
    (now later : Nat) (client : Client) :
    (store.handleFrame now later client frame).1.Bounded := by
  by_cases asks : ∃ id, KvRequest.ofFrame frame = some (.get id)
  · obtain ⟨id, read⟩ := asks
    have dropped := (Modest.dropIfExpired bounded fits.1 now).1
    unfold Store.handleFrame
    simp only [read, KvRequest.checksDeadline, if_true, Store.answer]
    exact ⟨dropped.values, dropped.deadlines⟩
  · refine (Modest.handleFrame bounded fits now later client ?_).1
    intro id read
    exact absurd ⟨id, read⟩ asks

variable {broker : Broker Client} {daemon : Daemon Client}

/-- A write appends to what was sent before. -/
theorem sendTo_fits (broker : Broker Client) (client : Client) {frame : Frame}
    (fits : frame.Fits) (other : Client) :
    (∀ sent ∈ (broker.sendTo client frame).sent other, sent.Fits) ↔
      ∀ sent ∈ broker.sent other, sent.Fits := by
  by_cases here : other = client
  · subst other
    simp only [Broker.sendTo, Function.update_self, List.forall_mem_append,
      List.forall_mem_singleton, fits, and_true]
  · simp only [Broker.sendTo, Function.update_of_ne here]

/-- The thread of a client only writes what it has. -/
theorem step_fits {client : Client} (target : Client) (busy : broker.thread client ≠ .idle)
    (bounded : (broker.thread client).Bounded) (other : Client) :
    (∀ sent ∈ (broker.step (client, target)).sent other, sent.Fits) ↔
      ∀ sent ∈ broker.sent other, sent.Fits := by
  unfold Broker.step
  cases here : broker.thread client with
  | idle => exact absurd here busy
  | registered topic =>
      dsimp only
      split <;> exact Iff.rfl
  | replaying topic value =>
      rw [here] at bounded
      exact sendTo_fits broker client (Msg.frame_fits .publish bounded.1 bounded.2) other
  | routing frame retain targets remaining =>
      rw [here] at bounded
      dsimp only
      split
      · exact sendTo_fits broker target (Msg.frame_fits .publish bounded.1 bounded.2) other
      · split
        · split <;> exact Iff.rfl
        · exact Iff.rfl

theorem route_fits {client : Client} (target : Client)
    (busy : daemon.broker.thread client ≠ .idle)
    (bounded : (daemon.broker.thread client).Bounded) :
    Outbox.Fits (daemon.route (daemon.broker.step (client, target))).broker.sent ↔
      Outbox.Fits daemon.broker.sent := by
  apply forall_congr'
  intro other
  simp only [Daemon.route]
  split
  · exact step_fits target busy bounded other
  · exact Iff.rfl

omit [DecidableEq Client] in
theorem deliver_fits (outbox : Outbox Client) :
    Outbox.Fits (daemon.deliver outbox).broker.sent ↔ Outbox.Fits daemon.broker.sent ∧
      ∀ client, (daemon.life client).connected = true → ∀ frame ∈ outbox client, frame.Fits := by
  simp only [Outbox.Fits, Daemon.deliver, ← forall_and]
  apply forall_congr'
  intro client
  split
  · rename_i connected
    simp only [List.forall_mem_append, connected, true_implies]
  · rename_i closed
    simp only [closed, false_implies, and_true, Bool.false_eq_true]

/-- The first critical section of a frame writes frames that fit unless it is a get. -/
theorem handleFrame_fits (bounded : daemon.store.Bounded) {client : Client}
    (serving : daemon.life client = .serving) {frame : Frame} (fits : frame.Fits)
    (now later : Nat) :
    Outbox.Fits (daemon.handleFrame client frame now later).broker.sent ↔
      Outbox.Fits daemon.broker.sent ∧ daemon.store.ShortReply now frame := by
  have other {msg : Msg} (kind : frame.msg = some msg) (notGet : msg ≠ .kvGet) :
      daemon.store.ShortReply now frame := by
    intro id read
    rw [ofFrame_get read] at kind
    exact absurd (Option.some.inj kind).symm notGet
  unfold Daemon.handleFrame
  split
  · rename_i ping
    rw [deliver_fits]
    refine and_congr_right fun _ => iff_of_true ?_ (other ping nofun)
    exact fun receiver _ => Outbox.Fits.sendTo (Msg.frame_fits .pong fits.1 fits.2) client receiver
  · rename_i info
    rw [and_iff_left (other info nofun)]
    split <;> exact Iff.rfl
  · rename_i kind
    rw [and_iff_left (other kind nofun), begin_sent]
  · rename_i kind
    rw [and_iff_left (other kind nofun), begin_sent]
  · rename_i kind
    rw [and_iff_left (other kind nofun), begin_sent]
  · rename_i kind
    rw [and_iff_left (other kind nofun), begin_sent]
  · rw [deliver_fits]
    refine and_congr_right fun _ => ⟨?_, ?_⟩
    · intro all
      refine shortReply_of_fits fits.1 now later client (all client ?_)
      rw [serving]
      rfl
    · intro short receiver _
      exact (Modest.handleFrame bounded fits now later client short).2 receiver

/-- A step writes only frames that fit exactly when it is a short reply. -/
theorem threadStep_fits (bounded : daemon.Bounded) (client target : Client) (order : List Bytes)
    (now later : Nat) :
    Outbox.Fits (daemon.threadStep client target order now later).broker.sent ↔
      Outbox.Fits daemon.broker.sent ∧
        daemon.ShortReplies (.thread client target order now later) := by
  have thread := bounded.broker.threads client
  simp only [Daemon.ShortReplies]
  unfold Daemon.threadStep
  cases life : daemon.life client with
  | absent => simp only [and_true]
  | gone => simp only [and_true]
  | serving =>
      dsimp only
      cases place : daemon.broker.thread client with
      | idle =>
          cases queue : daemon.broker.inbox client with
          | nil => simp only [and_true]
          | cons frame rest =>
              have fits : frame.Fits := by
                apply bounded.broker.inbox client
                rw [queue]
                exact List.mem_cons_self
              dsimp only
              apply handleFrame_fits
              · exact bounded.store
              · exact life
              · exact fits
      | registered topic =>
          simp only [and_true]
          exact route_fits target (by rw [place]; nofun) thread
      | replaying topic value =>
          simp only [and_true]
          exact route_fits target (by rw [place]; nofun) thread
      | routing frame retain targets remaining =>
          simp only [and_true]
          exact route_fits target (by rw [place]; nofun) thread
  | reporting inquiry report =>
      cases inquiry with
      | clients => simp only [Daemon.inquire, Daemon.become, and_true]
      | topics =>
          simp only [Daemon.inquire, Daemon.become, and_true]
          split <;> exact Iff.rfl
      | retained => simp only [Daemon.inquire, Daemon.become, and_true]
      | keys => simp only [Daemon.inquire, Daemon.become, and_true]
      | reply =>
          simp only [Daemon.inquire, Daemon.become]
          rw [deliver_fits]
          refine and_congr_right fun _ => ?_
          have length : (report.id ++ report.text).length = report.size + 4 := by
            rw [List.length_append, report.text_length, bounded.reports client _ _ life,
              Nat.add_comm]
          constructor
          · intro all
            have member : Msg.info.frame [] (report.id ++ report.text) ∈
                Outbox.sendTo client (Msg.info.frame [] (report.id ++ report.text)) client := by
              simp [Outbox.sendTo]
            have connected : (daemon.life client).connected = true := by
              rw [life]
              rfl
            exact length ▸ (all client connected _ member).2
          · intro short receiver _
            refine Outbox.Fits.sendTo (Msg.frame_fits .info (Nat.zero_le _) ?_) client receiver
            rw [Small, length]
            exact short
  | leaving departure => cases departure <;> simp only [Daemon.depart, Daemon.become, and_true]

theorem Daemon.step_fits (bounded : daemon.Bounded) (action : DaemonAction Client) :
    Outbox.Fits (daemon.step action).broker.sent ↔
      Outbox.Fits daemon.broker.sent ∧ daemon.ShortReplies action := by
  cases action with
  | connect client =>
      simp only [Daemon.step, Daemon.ShortReplies, and_true]
      split <;> exact Iff.rfl
  | arrive client frame => simp only [Daemon.step, Daemon.ShortReplies, and_true]
  | thread client target order now later =>
      exact threadStep_fits bounded client target order now later
  | hangUp client =>
      simp only [Daemon.step, Daemon.ShortReplies, and_true]
      split <;> exact Iff.rfl
  | sweep order read =>
      simp only [Daemon.step, Daemon.ShortReplies]
      rw [deliver_fits]
      refine and_congr_right fun _ => iff_of_true ?_ True.intro
      exact fun receiver _ => (Modest.sweep bounded.store read order).2 receiver

omit [DecidableEq Client] in
theorem Daemon.Bounded.initial : (Daemon.initial : Daemon Client).Bounded :=
  ⟨⟨nofun, nofun, fun _ => True.intro⟩, ⟨nofun, fun _ some => absurd rfl some⟩, nofun⟩

/-- A step of one thread keeps what the other threads have. -/
theorem Broker.Bounded.goto (bounded : broker.Bounded) (client : Client) {place : Thread Client}
    (here : place.Bounded) : (broker.goto client place).Bounded := by
  refine ⟨bounded.inbox, bounded.retained, ?_⟩
  intro other
  by_cases same : other = client
  · simp only [Broker.goto, same, Function.update_self]
    exact here
  · simp only [Broker.goto, Function.update_of_ne same]
    exact bounded.threads other

omit [DecidableEq Client] in
theorem Broker.Bounded.retain (bounded : broker.Bounded) {frame : Frame} (fits : frame.Fits) :
    (broker.retain frame).Bounded := by
  refine ⟨bounded.inbox, ?_, bounded.threads⟩
  intro topic value found
  simp only [Broker.retain] at found
  by_cases same : topic = frame.name
  · split at found
    · simp [same] at found
    · rw [same, Table.insert_self] at found
      cases found
      exact fits.2
  · split at found
    · rw [Table.erase_of_ne _ same] at found
      exact bounded.retained topic value found
    · rw [Table.insert_of_ne _ _ same] at found
      exact bounded.retained topic value found

theorem Broker.Bounded.begin (bounded : broker.Bounded) (client : Client) {frame : Frame}
    (fits : frame.Fits) : (broker.begin client frame).Bounded := by
  unfold Broker.begin
  split
  · apply Broker.Bounded.goto
    · exact ⟨bounded.inbox, bounded.retained, bounded.threads⟩
    · split
      · exact True.intro
      · exact fits.1
  · exact ⟨bounded.inbox, bounded.retained, bounded.threads⟩
  · exact bounded.goto client fits
  · exact bounded.goto client fits
  · exact bounded

theorem Broker.Bounded.step (bounded : broker.Bounded) (target : Client) {client : Client}
    (busy : broker.thread client ≠ .idle) : (broker.step (client, target)).Bounded := by
  have thread := bounded.threads client
  have wrote (receiver : Client) (frame : Frame) : (broker.sendTo receiver frame).Bounded :=
    ⟨bounded.inbox, bounded.retained, bounded.threads⟩
  unfold Broker.step
  cases here : broker.thread client with
  | idle => exact absurd here busy
  | registered topic =>
      rw [here] at thread
      dsimp only
      split
      · rename_i value found
        exact bounded.goto client ⟨thread, bounded.retained topic value found⟩
      · exact bounded.goto client True.intro
  | replaying topic value => exact (wrote client _).goto client True.intro
  | routing frame retain targets remaining =>
      rw [here] at thread
      dsimp only
      split
      · exact (wrote target _).goto client thread
      · split
        · split
          · exact (bounded.retain thread).goto client True.intro
          · exact bounded.goto client True.intro
        · exact bounded

/-- A client moves on to a place that has the identifier of its request. -/
theorem Daemon.Bounded.become (bounded : daemon.Bounded) (client : Client) {next : Life}
    (same : ∀ inquiry report, next = .reporting inquiry report → report.id.length = 4) :
    (daemon.become client next).Bounded := by
  refine ⟨bounded.broker, bounded.store, ?_⟩
  intro other inquiry report reporting
  by_cases here : other = client
  · simp only [Daemon.become, here, Function.update_self] at reporting
    exact same inquiry report reporting
  · simp only [Daemon.become, Function.update_of_ne here] at reporting
    exact bounded.reports other inquiry report reporting

omit [DecidableEq Client] in
theorem Daemon.Bounded.deliver (bounded : daemon.Bounded) {store : Store Client}
    (stored : store.Bounded) (outbox : Outbox Client) :
    ({ daemon with store := store }.deliver outbox).Bounded :=
  ⟨⟨bounded.broker.inbox, bounded.broker.retained, bounded.broker.threads⟩, stored,
    bounded.reports⟩

theorem Daemon.Bounded.handleFrame (bounded : daemon.Bounded) (client : Client) {frame : Frame}
    (fits : frame.Fits) (now later : Nat) :
    (daemon.handleFrame client frame now later).Bounded := by
  unfold Daemon.handleFrame
  split
  · exact bounded.deliver bounded.store _
  · split
    · exact bounded
    · rename_i long
      refine bounded.become client ?_
      rintro inquiry report same
      cases same
      rw [List.length_take]
      omega
  · exact ⟨bounded.broker.begin client fits, bounded.store, bounded.reports⟩
  · exact ⟨bounded.broker.begin client fits, bounded.store, bounded.reports⟩
  · exact ⟨bounded.broker.begin client fits, bounded.store, bounded.reports⟩
  · exact ⟨bounded.broker.begin client fits, bounded.store, bounded.reports⟩
  · exact bounded.deliver (bounded.store.handleFrame fits now later client) _

theorem Daemon.Bounded.inquire (bounded : daemon.Bounded) {client : Client} {report : Report}
    (known : report.id.length = 4) (order : List Bytes) (inquiry : Inquiry) :
    (daemon.inquire client order report inquiry).Bounded := by
  cases inquiry with
  | clients | retained | keys =>
      refine bounded.become client ?_
      rintro inquiry other same
      cases same
      exact known
  | topics =>
      simp only [Daemon.inquire]
      split
      · refine bounded.become client ?_
        rintro inquiry other same
        cases same
        exact known
      · exact bounded
  | reply => exact (bounded.deliver bounded.store _).become client (by simp)

theorem Daemon.Bounded.threadStep (bounded : daemon.Bounded) (client target : Client)
    (order : List Bytes) (now later : Nat) :
    (daemon.threadStep client target order now later).Bounded := by
  unfold Daemon.threadStep
  cases life : daemon.life client with
  | absent => exact bounded
  | gone => exact bounded
  | serving =>
      have routed (busy : daemon.broker.thread client ≠ .idle) :
          (daemon.route (daemon.broker.step (client, target))).Bounded := by
        have next := bounded.broker.step target busy
        exact ⟨⟨next.inbox, next.retained, next.threads⟩, bounded.store, bounded.reports⟩
      dsimp only
      cases place : daemon.broker.thread client with
      | idle =>
          cases queue : daemon.broker.inbox client with
          | nil => exact bounded
          | cons frame rest =>
              have all : ∀ sent ∈ frame :: rest, sent.Fits := queue ▸ bounded.broker.inbox client
              dsimp only
              apply Daemon.Bounded.handleFrame
              · refine ⟨⟨?_, bounded.broker.retained, bounded.broker.threads⟩, bounded.store,
                  bounded.reports⟩
                intro other sent member
                by_cases here : other = client
                · subst other
                  simp only [Function.update_self] at member
                  exact all sent (List.mem_cons_of_mem _ member)
                · simp only [Function.update_of_ne here] at member
                  exact bounded.broker.inbox other sent member
              · exact all frame List.mem_cons_self
      | registered topic => exact routed (by rw [place]; nofun)
      | replaying topic value => exact routed (by rw [place]; nofun)
      | routing frame retain targets remaining => exact routed (by rw [place]; nofun)
  | reporting inquiry report =>
      exact bounded.inquire (bounded.reports client inquiry report life) order inquiry
  | leaving departure =>
      cases departure with
      | subs =>
          apply Daemon.Bounded.become
          · exact ⟨⟨bounded.broker.inbox, bounded.broker.retained, bounded.broker.threads⟩,
              bounded.store, bounded.reports⟩
          · nofun
      | watchers =>
          apply Daemon.Bounded.become
          · exact ⟨bounded.broker, ⟨bounded.store.values, bounded.store.deadlines⟩,
              bounded.reports⟩
          · nofun
      | socket => exact bounded.become client nofun
      | clients =>
          apply Daemon.Bounded.become
          · exact ⟨bounded.broker, bounded.store, bounded.reports⟩
          · nofun

theorem Daemon.Bounded.step (bounded : daemon.Bounded) {action : DaemonAction Client}
    (accepted : action.Accepted) : (daemon.step action).Bounded := by
  cases action with
  | connect client =>
      simp only [Daemon.step]
      split
      · apply Daemon.Bounded.become
        · exact ⟨bounded.broker, bounded.store, bounded.reports⟩
        · simp
      · exact bounded
  | arrive client frame =>
      refine ⟨⟨?_, bounded.broker.retained, bounded.broker.threads⟩, bounded.store,
        bounded.reports⟩
      intro other sent member
      by_cases here : other = client
      · subst other
        simp only [Daemon.step, Function.update_self] at member
        rcases List.mem_append.mp member with before | last
        · exact bounded.broker.inbox client sent before
        · rw [List.mem_singleton.mp last]
          exact accepted
      · simp only [Daemon.step, Function.update_of_ne here] at member
        exact bounded.broker.inbox other sent member
  | thread client target order now later =>
      exact bounded.threadStep client target order now later
  | hangUp client =>
      simp only [Daemon.step]
      split
      · exact bounded.become client (by simp)
      · exact bounded
  | sweep order read => exact bounded.deliver (Modest.sweep bounded.store read order).1 _

/-- The frames of a whole run fit exactly when all its replies are short. -/
theorem run_fits (actions : List (DaemonAction Client))
    (accepted : ∀ action ∈ actions, action.Accepted) :
    ∀ daemon : Daemon Client, daemon.Bounded →
      (Outbox.Fits (run Daemon.step daemon actions).broker.sent ↔
        Outbox.Fits daemon.broker.sent ∧ Meets Daemon.step Daemon.ShortReplies daemon actions) := by
  induction actions with
  | nil => exact fun daemon _ => (and_iff_left True.intro).symm
  | cons action rest ih =>
      intro daemon bounded
      have next := bounded.step (accepted action List.mem_cons_self)
      have later := ih (fun other member => accepted other (List.mem_cons_of_mem _ member)) _ next
      rw [Daemon.step_fits bounded action, and_assoc] at later
      exact later

/-- In every run over frames that the reader accepted, every frame that the daemon writes fits
exactly when no get finds too long a value and no status text is too long. Then every client reads
what was written to it. -/
theorem replies_fit (actions : List (DaemonAction Client))
    (accepted : ∀ action ∈ actions, action.Accepted) :
    ((∀ client, ∀ frame ∈ (run Daemon.step Daemon.initial actions).broker.sent client,
        frame.Fits) ↔ Meets Daemon.step Daemon.ShortReplies Daemon.initial actions) ∧
      (Meets Daemon.step Daemon.ShortReplies Daemon.initial actions →
        ∀ client script, Recv.failed ∉ script →
          (FrameReader.open
            ⟨encodeAll ((run Daemon.step Daemon.initial actions).broker.sent client),
              script⟩).Reads ((run Daemon.step Daemon.initial actions).broker.sent client)) := by
  have fits := run_fits actions accepted Daemon.initial .initial
  rw [and_iff_right (show Outbox.Fits (Daemon.initial : Daemon Client).broker.sent from nofun)]
    at fits
  refine ⟨fits, ?_⟩
  intro short client script clean
  have small := fits.mpr short client
  rw [FrameReader.reads_iff _ _ (FrameReader.open_good _ clean) (FrameReader.open_stream _),
    parseAll_encodeAll _ small]

/-- A client connects, sets a key to a value and gets it. -/
def setThenGet (value : Bytes) : List (DaemonAction Unit) :=
  [.connect (), .arrive () (Msg.kvSet.frame [107] value),
    .arrive () (Msg.kvGet.frame [107] [7, 0, 0, 0]), .thread () () [] 0 0, .thread () () [] 0 0]

theorem setThenGet_sent (value : Bytes) :
    (run Daemon.step Daemon.initial (setThenGet value)).broker.sent () =
      [kvReply [107] 7 (some value)] := rfl

theorem setThenGet_accepted {value : Bytes} (small : Small value) :
    ∀ action ∈ setThenGet value, action.Accepted := by
  have key : Small [107] := by unfold Small; decide
  have id : Small [7, 0, 0, 0] := by unfold Small; decide
  have get : (Msg.kvGet.frame [107] [7, 0, 0, 0]).Fits := ⟨key, id⟩
  have set : (Msg.kvSet.frame [107] value).Fits := ⟨key, small⟩
  simp [setThenGet, DaemonAction.Accepted, set, get]

theorem replies_fit_small :
    (FrameReader.open ⟨encodeAll ((run Daemon.step Daemon.initial
      (setThenGet [1, 2, 3])).broker.sent ()), [.ready 5]⟩).Reads
        [kvReply [107] 7 (some [1, 2, 3])] := by
  have accepted := setThenGet_accepted (show Small [1, 2, 3] by unfold Small; decide)
  have fits : ∀ client, ∀ frame ∈ (run Daemon.step Daemon.initial
      (setThenGet [1, 2, 3])).broker.sent client, frame.Fits := by
    intro client frame member
    rw [setThenGet_sent, List.mem_singleton] at member
    rw [member]
    unfold Frame.Fits
    decide
  exact (replies_fit (setThenGet [1, 2, 3]) accepted).2
    ((replies_fit (setThenGet [1, 2, 3]) accepted).1.mp fits) () [.ready 5] (by simp)

/-- The reply to a get of the longest value that a set can store does not fit. -/
theorem reply_overflows :
    (∀ action ∈ setThenGet (List.replicate maxFrameBytes 0), action.Accepted) ∧
      ¬ ∀ client, ∀ frame ∈ (run Daemon.step Daemon.initial
        (setThenGet (List.replicate maxFrameBytes 0))).broker.sent client, frame.Fits := by
  have longest : (List.replicate maxFrameBytes (0 : UInt8)).length = maxFrameBytes :=
    List.length_replicate ..
  refine ⟨setThenGet_accepted longest.le, ?_⟩
  intro fits
  have reply := (fits () (kvReply [107] 7 (some (List.replicate maxFrameBytes 0)))
    (by rw [setThenGet_sent]; exact List.mem_singleton_self _)).2
  rw [kvReply, Msg.frame_payload, answerPayload_length, Option.getD_some, longest] at reply
  omega

end Chappe
