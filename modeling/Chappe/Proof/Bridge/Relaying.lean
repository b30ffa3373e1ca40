/-
This file proves when a bridge neither echoes its own messages nor loses or repeats those of others.
-/

import Chappe.Construction.RedisBridge
import Chappe.Foundation.Run
import Chappe.Proof.Python.Names

namespace Chappe
open Foundation

/-- A step that keeps the count of the echoes right. Each forwarded message that is counted comes
back once and no other comes back. Another client's message is covered by one pattern on a channel
that decodes, and it is no copy of a message whose echo is still awaited. -/
def Bridge.regular (config : BridgeConfig) (bridge : Bridge) : BridgeAction → Bool
  | .toRedis =>
      match bridge.sending with
      | some (channel, _) =>
          if bridge.listening then
            config.matching (encodeChars channel) = if config.counts channel then 1 else 0
          else !config.counts channel
      | none => true
  | .publish channel _ => !bridge.listening ||
      (!config.covers channel || config.matching channel = 1) &&
        (config.matching channel = 0 || (decodeChars channel).isSome)
  | .fromRedis =>
      match bridge.hand, bridge.arrivals with
      | none, message :: _ =>
          match message.origin, decodeChars message.channel with
          | .other _, some channel => bridge.echo (channel, message.data) = 0
          | _, _ => true
      | _, _ => true
  | _ => true

/-- The messages of another client that the bridge has before it, in hand or on the bus. -/
def Bridge.copies (bridge : Bridge) (number : Nat) : Nat :=
  (bridge.arrivals.countP (·.origin = .other number)) +
    (bridge.hand.toList.countP (·.origin = .other number)) +
    bridge.bus.countP (·.origin = .other number)

/-- An echo of the message. -/
def Pmessage.isEcho (key : List Char × Bytes) (message : Pmessage) : Bool :=
  match message.origin with
  | .bridge _ => message.channel = encodeChars key.1 && message.data = key.2
  | .other _ => false

/-- The echoes that are still to be rounded off. -/
def Bridge.owed (config : BridgeConfig) (bridge : Bridge) (key : List Char × Bytes) : Nat :=
  (if bridge.sending = some key ∧ config.counts key.1 then 1 else 0) +
    bridge.arrivals.countP (Pmessage.isEcho key)

/-- What holds of a bridge whose steps were regular. -/
structure Bridge.Balanced (config : BridgeConfig) (bridge : Bridge) : Prop where
  running : bridge.running = true
  echo : ∀ key, bridge.echo key = bridge.owed config key
  decodes : ∀ message ∈ bridge.arrivals, decodeChars message.channel ≠ none
  foreign : ∀ message ∈ bridge.hand.toList ++ bridge.bus, ∃ number, message.origin = .other number
  known : ∀ number ∈ bridge.covered, number < bridge.published
  fresh : ∀ number, bridge.published ≤ number → bridge.copies number = 0
  led : ∀ message ∈ bridge.arrivals, ∀ number ∈ bridge.covered, message.origin = .other number →
    (encodeChars config.leading).isPrefixOf message.channel = true
  once : ∀ number ∈ bridge.covered, bridge.copies number = 1

theorem Bridge.Balanced.initial (config : BridgeConfig) : Bridge.initial.Balanced config where
  running := rfl
  echo := fun _ => rfl
  decodes := by simp [Bridge.initial]
  foreign := by simp [Bridge.initial]
  known := by simp [Bridge.initial]
  fresh := by simp [Bridge.initial, Bridge.copies]
  led := by simp [Bridge.initial]
  once := by simp [Bridge.initial]

variable {config : BridgeConfig} {bridge : Bridge}

/-- A step that leaves the messages and the echoes alone. -/
theorem Bridge.Balanced.setUp (balanced : bridge.Balanced config) :
    (bridge.setUp config).Balanced config := by
  unfold Bridge.setUp
  split
  · exact ⟨balanced.running, balanced.echo, balanced.decodes, balanced.foreign, balanced.known,
      balanced.fresh, balanced.led, balanced.once⟩
  · exact ⟨balanced.running, balanced.echo, balanced.decodes, balanced.foreign, balanced.known,
      balanced.fresh, balanced.led, balanced.once⟩

/-- The echo is counted when the bridge is about to send. -/
theorem Bridge.Balanced.count (balanced : bridge.Balanced config)
    (idle : bridge.sending = none) {topic : List Char} {payload : Bytes}
    {rest : List (List Char × Bytes)} :
    { bridge with
      calls := rest
      sending := some (config.leading ++ topic, payload)
      echo := if config.counts (config.leading ++ topic) then
        Function.update bridge.echo (config.leading ++ topic, payload)
          (bridge.echo (config.leading ++ topic, payload) + 1)
      else bridge.echo }.Balanced config := by
  refine ⟨balanced.running, ?_, balanced.decodes, balanced.foreign, balanced.known,
    balanced.fresh, balanced.led, balanced.once⟩
  intro key
  have before := balanced.echo key
  unfold Bridge.owed at before ⊢
  rw [idle] at before
  dsimp only
  by_cases here : (config.leading ++ topic, payload) = key
  · subst key
    cases counted : config.counts (config.leading ++ topic) with
    | true =>
        rw [if_pos rfl, Function.update_self, before]
        simp [counted, Nat.add_comm]
    | false =>
        rw [if_neg (by simp), before]
        simp [counted]
  · have other : (if config.counts (config.leading ++ topic) then
        Function.update bridge.echo (config.leading ++ topic, payload)
          (bridge.echo (config.leading ++ topic, payload) + 1)
        else bridge.echo) key = bridge.echo key := by
      split
      · rw [Function.update_of_ne (Ne.symm here)]
      · rfl
    rw [other, before]
    simp [here]

theorem echoes_eq (bridge : Bridge) (message : Pmessage) : bridge.echoes config message =
    List.replicate (if bridge.listening then config.matching message.channel else 0) message := by
  unfold Bridge.echoes
  split <;> rfl

theorem copies_echoes (bridge : Bridge) (message : Pmessage) (number : Nat) :
    (bridge.arrivals ++ bridge.echoes config message).countP (·.origin = .other number) =
      bridge.arrivals.countP (·.origin = .other number) + if message.origin = .other number then
        (if bridge.listening then config.matching message.channel else 0) else 0 := by
  rw [echoes_eq, List.countP_append, List.countP_replicate]
  simp only [decide_eq_true_eq]

theorem isEcho_iff {message : Pmessage} {number : Nat} {channel : List Char}
    (own : message.origin = .bridge number) (encoded : message.channel = encodeChars channel)
    (key : List Char × Bytes) : message.isEcho key = true ↔ key = (channel, message.data) := by
  rw [Pmessage.isEcho, own, encoded]
  simp only [Bool.and_eq_true, decide_eq_true_eq, encodeChars_injective.eq_iff]
  constructor
  · rintro ⟨same, data⟩
    exact Prod.ext same.symm data.symm
  · rintro rfl
    exact ⟨rfl, rfl⟩

/-- The counted message is sent, and it comes back once. -/
theorem Bridge.Balanced.send (balanced : bridge.Balanced config) {channel : List Char}
    {payload : Bytes} (here : bridge.sending = some (channel, payload))
    (regular : bridge.regular config .toRedis = true) :
    { bridge with
      sending := none
      sent := bridge.sent + 1
      arrivals := bridge.arrivals ++
        bridge.echoes config ⟨.bridge bridge.sent, encodeChars channel, payload⟩ }.Balanced
      config := by
  have sends : (if bridge.listening then config.matching (encodeChars channel) else 0) =
      if config.counts channel then 1 else 0 := by
    simp only [Bridge.regular, here] at regular
    cases listening : bridge.listening with
    | true =>
        rw [listening, if_pos rfl, decide_eq_true_eq] at regular
        rw [if_pos rfl, regular]
    | false =>
        rw [listening, if_neg (by simp), Bool.not_eq_true'] at regular
        rw [if_neg (by simp), regular, if_neg (by simp)]
  have copies (number : Nat) : { bridge with
      sending := none
      sent := bridge.sent + 1
      arrivals := bridge.arrivals ++
        bridge.echoes config ⟨.bridge bridge.sent, encodeChars channel, payload⟩ }.copies number =
      bridge.copies number := by
    unfold Bridge.copies
    dsimp only
    rw [copies_echoes]
    rfl
  refine ⟨balanced.running, ?_, ?_, balanced.foreign, balanced.known, ?_, ?_, ?_⟩
  · intro key
    have before := balanced.echo key
    dsimp only
    unfold Bridge.owed at before ⊢
    dsimp only
    rw [before, here, echoes_eq, List.countP_append, List.countP_replicate]
    dsimp only
    rw [sends]
    have echo : Pmessage.isEcho key ⟨.bridge bridge.sent, encodeChars channel, payload⟩ = true ↔
        key = (channel, payload) := isEcho_iff rfl rfl key
    by_cases mine : key = (channel, payload)
    · subst key
      rw [if_pos (echo.mpr rfl)]
      simp [Nat.add_comm]
    · rw [if_neg (mt echo.mp mine)]
      simp [Ne.symm mine]
  · intro message member
    rcases List.mem_append.mp member with before | now
    · exact balanced.decodes message before
    · rw [echoes_eq] at now
      rw [(List.mem_replicate.mp now).2, decodeChars_encodeChars]
      simp
  · intro number new
    rw [copies]
    exact balanced.fresh number new
  · intro message member number covered origin
    rcases List.mem_append.mp member with before | now
    · exact balanced.led message before number covered origin
    · rw [echoes_eq] at now
      rw [(List.mem_replicate.mp now).2] at origin
      cases origin
  · intro number covered
    rw [copies]
    exact balanced.once number covered

/-- A message that arrived has its number already. -/
theorem Bridge.Balanced.number_lt (balanced : bridge.Balanced config) {message : Pmessage}
    (arrived : message ∈ bridge.arrivals) {number : Nat} (origin : message.origin = .other number) :
    number < bridge.published := by
  by_contra new
  have none := balanced.fresh number (Nat.not_lt.mp new)
  have some : 0 < bridge.arrivals.countP (·.origin = .other number) :=
    List.countP_pos_iff.mpr ⟨message, arrived, decide_eq_true origin⟩
  unfold Bridge.copies at none
  omega

/-- Another client publishes. -/
theorem Bridge.Balanced.publish (balanced : bridge.Balanced config) (channel data : Bytes)
    (regular : bridge.regular config (.publish channel data) = true) :
    (bridge.step config (.publish channel data)).Balanced config := by
  have regular (listening : bridge.listening = true) :
      (config.covers channel = true → config.matching channel = 1) ∧
        (0 < config.matching channel → decodeChars channel ≠ none) := by
    simp only [Bridge.regular, listening, Bool.not_true, Bool.false_or, Bool.and_eq_true,
      Bool.or_eq_true, Bool.not_eq_true', decide_eq_true_eq] at regular
    refine ⟨fun covers => regular.1.resolve_left (by rw [covers]; simp), fun some => ?_⟩
    exact Option.isSome_iff_ne_none.mp (regular.2.resolve_left (by omega))
  have copies (number : Nat) : (bridge.step config (.publish channel data)).copies number =
      bridge.copies number + if bridge.published = number then
        (if bridge.listening then config.matching channel else 0) else 0 := by
    simp only [Bridge.step, Bridge.copies]
    rw [copies_echoes]
    simp only [Origin.other.injEq]
    omega
  have member (message : Pmessage) (arrived : message ∈ bridge.arrivals ++ bridge.echoes config
      ⟨.other bridge.published, channel, data⟩) : message ∈ bridge.arrivals ∨
        message = ⟨.other bridge.published, channel, data⟩ ∧ bridge.listening = true ∧
          0 < config.matching channel := by
    rcases List.mem_append.mp arrived with before | now
    · exact .inl before
    · unfold Bridge.echoes at now
      split at now
      · rename_i listening
        obtain ⟨some, same⟩ := List.mem_replicate.mp now
        exact .inr ⟨same, listening, Nat.pos_of_ne_zero some⟩
      · cases now
  have covered (number : Nat) (known : number ∈ (bridge.step config
      (.publish channel data)).covered) : number ∈ bridge.covered ∨
        number = bridge.published ∧ bridge.listening = true ∧ config.covers channel = true := by
    simp only [Bridge.step] at known
    split at known
    · rename_i new
      rw [Bool.and_eq_true] at new
      rcases List.mem_append.mp known with before | now
      · exact .inl before
      · exact .inr ⟨List.mem_singleton.mp now, new⟩
    · exact .inl known
  refine ⟨balanced.running, ?_, ?_, balanced.foreign, ?_, ?_, ?_, ?_⟩
  · intro key
    have before := balanced.echo key
    simp only [Bridge.step, Bridge.owed] at before ⊢
    have none : Pmessage.isEcho key ⟨.other bridge.published, channel, data⟩ = false := rfl
    rw [before, echoes_eq, List.countP_append, List.countP_replicate, none]
    rfl
  · intro message arrived
    rcases member message arrived with before | ⟨rfl, listening, some⟩
    · exact balanced.decodes message before
    · exact (regular listening).2 some
  · intro number known
    rcases covered number known with before | ⟨rfl, -⟩
    · exact Nat.lt_succ_of_lt (balanced.known number before)
    · exact Nat.lt_succ_self _
  · intro number new
    have later : bridge.published < number := new
    rw [copies, if_neg (by omega), balanced.fresh number (by omega)]
  · intro message arrived number known origin
    rcases member message arrived with before | ⟨rfl, -⟩
    · rcases covered number known with old | ⟨rfl, -⟩
      · exact balanced.led message before number old origin
      · exact absurd (balanced.number_lt before origin) (Nat.lt_irrefl _)
    · cases origin
      rcases covered _ known with old | ⟨-, -, covers⟩
      · exact absurd (balanced.known _ old) (Nat.lt_irrefl _)
      · exact (Bool.and_eq_true_iff.mp covers).1
  · intro number known
    rw [copies]
    rcases covered number known with before | ⟨rfl, listening, covers⟩
    · have below := balanced.known number before
      rw [if_neg (by omega), balanced.once number before]
    · rw [balanced.fresh _ le_rfl, if_pos rfl, listening, if_pos rfl,
        (regular listening).1 covers]

section Take

variable {message : Pmessage} {rest : List Pmessage} {number : Nat}

theorem mem_arrivals_of_rest (next : bridge.arrivals = message :: rest) {other : Pmessage}
    (member : other ∈ rest) : other ∈ bridge.arrivals := by
  rw [next]
  exact List.mem_cons_of_mem _ member

/-- The reader counts a message of the bridge off against the expected echoes. -/
theorem Bridge.Balanced.takeEcho (balanced : bridge.Balanced config)
    (next : bridge.arrivals = message :: rest) (origin : message.origin = .bridge number)
    {channel : List Char} (encoded : message.channel = encodeChars channel) :
    0 < bridge.echo (channel, message.data) ∧ { bridge with
      arrivals := rest
      echo := Function.update bridge.echo (channel, message.data)
        (bridge.echo (channel, message.data) - 1) }.Balanced config := by
  have echo := isEcho_iff origin encoded
  have copies (number : Nat) : { bridge with
      arrivals := rest
      echo := Function.update bridge.echo (channel, message.data)
        (bridge.echo (channel, message.data) - 1) }.copies number = bridge.copies number := by
    simp [Bridge.copies, next, origin]
  have owed (key : List Char × Bytes) : bridge.echo key =
      (if bridge.sending = some key ∧ config.counts key.1 then 1 else 0) +
        (rest.countP (Pmessage.isEcho key) + if message.isEcho key then 1 else 0) := by
    rw [balanced.echo, Bridge.owed, next, List.countP_cons]
  have own := owed (channel, message.data)
  rw [if_pos ((echo _).mpr rfl)] at own
  have later {other : Pmessage} (member : other ∈ rest) := mem_arrivals_of_rest next member
  refine ⟨by omega, balanced.running, ?_, fun other member => balanced.decodes other (later member),
    balanced.foreign, balanced.known, fun number new => copies number ▸
      balanced.fresh number new, fun other member => balanced.led other (later member),
    fun number covered => copies number ▸ balanced.once number covered⟩
  intro key
  unfold Bridge.owed
  dsimp only
  by_cases here : key = (channel, message.data)
  · subst key
    rw [Function.update_self]
    omega
  · rw [Function.update_of_ne here, owed key, if_neg (mt (echo key).mp here)]
    rfl

/-- A message of another client is no echo. -/
theorem Bridge.Balanced.owed_rest (balanced : bridge.Balanced config)
    (next : bridge.arrivals = message :: rest) (origin : message.origin = .other number)
    (key : List Char × Bytes) : bridge.echo key =
      (if bridge.sending = some key ∧ config.counts key.1 then 1 else 0) +
        rest.countP (Pmessage.isEcho key) := by
  have none : message.isEcho key = false := by rw [Pmessage.isEcho, origin]
  rw [balanced.echo, Bridge.owed, next, List.countP_cons, none]
  rfl

/-- The reader has a message of another client in its hand. -/
theorem Bridge.Balanced.hold (balanced : bridge.Balanced config)
    (next : bridge.arrivals = message :: rest) (idle : bridge.hand = none)
    (origin : message.origin = .other number) :
    { bridge with arrivals := rest, hand := some message }.Balanced config := by
  have copies (number : Nat) :
      { bridge with arrivals := rest, hand := some message }.copies number =
        bridge.copies number := by
    simp only [Bridge.copies, next, idle, List.countP_cons, Option.toList_some,
      Option.toList_none, List.countP_nil]
    omega
  have later {other : Pmessage} (member : other ∈ rest) := mem_arrivals_of_rest next member
  refine ⟨balanced.running, balanced.owed_rest next origin,
    fun other member => balanced.decodes other (later member),
    ?_, balanced.known, fun number new => copies number ▸ balanced.fresh number new,
    fun other member => balanced.led other (later member),
    fun number covered => copies number ▸ balanced.once number covered⟩
  intro other member
  rcases List.mem_append.mp member with here | there
  · cases List.mem_singleton.mp here
    exact ⟨number, origin⟩
  · exact balanced.foreign other (List.mem_append_right _ there)

/-- The reader drops a message of a channel that the bridge does not lead. -/
theorem Bridge.Balanced.drop (balanced : bridge.Balanced config)
    (next : bridge.arrivals = message :: rest) (idle : bridge.hand = none)
    (origin : message.origin = .other number) (uncovered : number ∉ bridge.covered) :
    { bridge with arrivals := rest }.Balanced config := by
  have copies (other : Nat) : { bridge with arrivals := rest }.copies other +
      (if number = other then 1 else 0) = bridge.copies other := by
    simp only [Bridge.copies, next, idle, List.countP_cons, origin, Origin.other.injEq,
      decide_eq_true_eq]
    omega
  have later {other : Pmessage} (member : other ∈ rest) := mem_arrivals_of_rest next member
  refine ⟨balanced.running, balanced.owed_rest next origin,
    fun other member => balanced.decodes other (later member), balanced.foreign, balanced.known,
    ?_, fun other member => balanced.led other (later member), ?_⟩
  · intro other new
    have none := copies other
    rw [balanced.fresh other new] at none
    omega
  · intro other covered
    have one := copies other
    rw [if_neg (fun same : number = other => uncovered (same ▸ covered)),
      balanced.once other covered] at one
    exact one

/-- The reader takes its next message. -/
theorem Bridge.Balanced.take (balanced : bridge.Balanced config)
    (next : bridge.arrivals = message :: rest) (idle : bridge.hand = none)
    (regular : bridge.regular config .fromRedis = true) :
    (bridge.fromRedis config).Balanced config := by
  obtain ⟨channel, decoded⟩ :=
    Option.ne_none_iff_exists'.mp (balanced.decodes message (next ▸ List.mem_cons_self))
  have step : bridge.fromRedis config =
      if 0 < bridge.echo (channel, message.data) then
        { bridge with
          arrivals := rest
          echo := Function.update bridge.echo (channel, message.data)
            (bridge.echo (channel, message.data) - 1) }
      else if config.leading.isPrefixOf channel then
        { bridge with arrivals := rest, hand := some message }
      else { bridge with arrivals := rest } := by
    simp only [Bridge.fromRedis, balanced.running, if_true, idle, next, decoded]
  rw [step]
  cases origin : message.origin with
  | bridge number =>
      obtain ⟨expected, echoed⟩ := balanced.takeEcho next origin (decodeChars_eq_some.mp decoded)
      rw [if_pos expected]
      exact echoed
  | other number =>
      have zero : bridge.echo (channel, message.data) = 0 := by
        simpa only [Bridge.regular, idle, next, origin, decoded, decide_eq_true_eq] using regular
      rw [zero, if_neg (Nat.lt_irrefl 0)]
      split
      · exact balanced.hold next idle origin
      · rename_i apart
        apply balanced.drop next idle origin
        intro covered
        have led := balanced.led message (next ▸ List.mem_cons_self) number covered origin
        obtain ⟨tail, whole⟩ := List.isPrefixOf_iff_prefix.mp led
        rw [← whole, decodeChars_append] at decoded
        obtain ⟨chars, -, rfl⟩ := Option.map_eq_some_iff.mp decoded
        exact apart (List.isPrefixOf_iff_prefix.mpr (List.prefix_append ..))

end Take

theorem Bridge.Balanced.fromRedis (balanced : bridge.Balanced config)
    (regular : bridge.regular config .fromRedis = true) :
    (bridge.fromRedis config).Balanced config := by
  cases hand : bridge.hand with
  | some message =>
      have copies (number : Nat) :
          { bridge with hand := none, bus := bridge.bus ++ [message] }.copies number =
            bridge.copies number := by
        simp only [Bridge.copies, hand, List.countP_append, Option.toList_some,
          Option.toList_none, List.countP_nil]
        omega
      unfold Bridge.fromRedis
      rw [if_pos balanced.running, hand]
      refine ⟨balanced.running, balanced.echo, balanced.decodes, ?_, balanced.known,
        fun number new => copies number ▸ balanced.fresh number new, balanced.led,
        fun number covered => copies number ▸ balanced.once number covered⟩
      intro other member
      apply balanced.foreign
      rw [hand]
      rcases List.mem_append.mp member with here | there
      · cases here
      · exact (List.perm_append_comm.subset there :)
  | none =>
      cases arrivals : bridge.arrivals with
      | nil =>
          simp only [Bridge.fromRedis, balanced.running, if_true, hand, arrivals]
          exact balanced
      | cons message rest => exact balanced.take arrivals hand regular

theorem Bridge.Balanced.toRedis (balanced : bridge.Balanced config)
    (regular : bridge.regular config .toRedis = true) :
    (bridge.toRedis config).Balanced config := by
  unfold Bridge.toRedis
  split
  · rename_i channel payload here
    exact balanced.send here regular
  · rename_i idle
    split
    · exact balanced
    · exact balanced.count idle

theorem Bridge.Balanced.step (bridge : Bridge) (action : BridgeAction)
    (balanced : bridge.Balanced config) (regular : bridge.regular config action = true) :
    (bridge.step config action).Balanced config := by
  cases action with
  | run => exact balanced.setUp
  | deliver topic payload =>
      exact ⟨balanced.running, balanced.echo, balanced.decodes, balanced.foreign, balanced.known,
        balanced.fresh, balanced.led, balanced.once⟩
  | toRedis => exact balanced.toRedis regular
  | publish channel data => exact balanced.publish channel data regular
  | fromRedis => exact balanced.fromRedis regular

end Chappe
