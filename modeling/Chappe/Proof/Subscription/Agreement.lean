/-
This file proves when a node and the daemon agree on the subscriptions of the node.
-/

import Chappe.Proof.Subscription.Connection
import Chappe.Foundation.Run

namespace Chappe
open Foundation

variable {Name Handler : Type} {encode : Name → Option Bytes}

theorem tell_up (link : Connection) (msg : Msg) (name : Name) :
    (link.tell encode msg name).up = link.up := by
  unfold Connection.tell
  split
  · exact link.send_up _
  · rfl

theorem Connection.Sound.tell {link : Connection} (sound : link.Sound) (msg : Msg) (name : Name) :
    (link.tell encode msg name).Sound := by
  unfold Connection.tell
  split
  · exact sound.send _
  · exact sound

variable [DecidableEq Name]

/-- The node unsubscribes a name, while its link is up, only when the name is in one of its
tables, and it subscribes only names that have bytes on the wire. -/
def Session.Apart (encode : Name → Option Bytes) (session : Session Name Handler) :
    SessionAction Name Handler → Prop
  | .subscribe name _ | .subscribePattern name _ => (encode name).isSome
  | .unsubscribe name | .unsubscribePattern name =>
      session.link.up = true → ¬ (name ∈ session.subs ∧ name ∈ session.patternSubs)
  | _ => True

/-- The held bytes are the bytes of the names. -/
def Covers (encode : Name → Option Bytes) (held : Finset Bytes) (names : Finset Name) : Prop :=
  ∀ bytes, bytes ∈ held ↔ ∃ name ∈ names, encode name = some bytes

theorem Covers.insert {held : Finset Bytes} {names : Finset Name}
    (covers : Covers encode held names) {name : Name} {bytes : Bytes}
    (encoded : encode name = some bytes) :
    Covers encode (insert bytes held) (insert name names) := by
  intro other
  rw [Finset.mem_insert, covers other]
  constructor
  · rintro (rfl | ⟨found, member, eq⟩)
    · exact ⟨name, Finset.mem_insert_self _ _, encoded⟩
    · exact ⟨found, Finset.mem_insert_of_mem member, eq⟩
  · rintro ⟨found, member, eq⟩
    rcases Finset.mem_insert.mp member with rfl | before
    · rw [encoded] at eq
      exact .inl (Option.some.inj eq).symm
    · exact .inr ⟨found, before, eq⟩

/-- Different names have different bytes. -/
def Faithful (encode : Name → Option Bytes) : Prop :=
  ∀ first second bytes, encode first = some bytes → encode second = some bytes → first = second

theorem Covers.erase (faithful : Faithful encode)
    {held : Finset Bytes} {names : Finset Name} (covers : Covers encode held names) {name : Name}
    {bytes : Bytes} (encoded : encode name = some bytes) :
    Covers encode (held.erase bytes) (names.erase name) := by
  intro other
  rw [Finset.mem_erase, covers other]
  constructor
  · rintro ⟨different, found, member, eq⟩
    refine ⟨found, Finset.mem_erase.mpr ⟨?_, member⟩, eq⟩
    rintro rfl
    rw [encoded] at eq
    exact different (Option.some.inj eq).symm
  · rintro ⟨found, member, eq⟩
    obtain ⟨different, before⟩ := Finset.mem_erase.mp member
    refine ⟨?_, found, before, eq⟩
    rintro rfl
    exact different (faithful found name other eq encoded)

/-- A connection sends every name of a list whose names have bytes. -/
theorem Connection.Sound.resubscribe (order : List Name) :
    ∀ {link : Connection} {names : Finset Name}, link.Sound → link.up = true →
      Covers encode link.expected names → (∀ name ∈ order, (encode name).isSome) →
      (link.resubscribe encode order).Sound ∧
        Covers encode (link.resubscribe encode order).expected (names ∪ order.toFinset) := by
  induction order with
  | nil =>
      intro link names sound up covers _
      rw [List.toFinset_nil, Finset.union_empty]
      exact ⟨sound, covers⟩
  | cons name rest ih =>
      intro link names sound up covers encodes
      obtain ⟨bytes, encoded⟩ := Option.isSome_iff_exists.mp (encodes name List.mem_cons_self)
      have sent : Covers encode (link.send (Msg.subscribe.frame bytes [])).expected
          (insert name names) := by
        rw [Connection.expected_send up]
        exact covers.insert encoded
      obtain ⟨still, all⟩ := ih (sound.send _) ((link.send_up _).trans up) sent
        fun later member => encodes later (List.mem_cons_of_mem _ member)
      rw [Connection.resubscribe, encoded]
      refine ⟨still, ?_⟩
      rw [List.toFinset_cons, Finset.union_insert, ← Finset.insert_union]
      exact all

/-- The daemon will hold the names that have a handler. -/
structure Session.Agrees (encode : Name → Option Bytes) (session : Session Name Handler) :
    Prop where
  sound : session.link.Sound
  subsHandled : Handled session.subs
  patternSubsHandled : Handled session.patternSubs
  encodes : ∀ name ∈ session.keys, (encode name).isSome
  covers : session.link.up = true → Covers encode session.link.expected session.keys

theorem Session.Agrees.initial :
    Session.Agrees encode (Session.initial : Session Name Handler) where
  sound := .initial
  subsHandled := fun name handlers found => by simp [Session.initial] at found
  patternSubsHandled := fun name handlers found => by simp [Session.initial] at found
  encodes := fun name member => by simp [Session.keys, Session.initial] at member
  covers := fun up => by cases up

/-- A registration tells the daemon a name that is new to its table. -/
theorem Session.Agrees.afterRegister {link : Connection} {names : Finset Name} (sound : link.Sound)
    (covers : link.up = true → Covers encode link.expected names) {name : Name} {first : Bool}
    (known : first = false → name ∈ names) (encodes : (encode name).isSome) :
    (link.afterRegister encode name first).Sound ∧
      ((link.afterRegister encode name first).up = true →
        Covers encode (link.afterRegister encode name first).expected (insert name names)) := by
  unfold Connection.afterRegister
  cases first with
  | false =>
      rw [Finset.insert_eq_self.mpr (known rfl)]
      exact ⟨sound, covers⟩
  | true =>
      refine ⟨sound.tell .subscribe name, ?_⟩
      intro up
      obtain ⟨bytes, encoded⟩ := Option.isSome_iff_exists.mp encodes
      rw [if_pos rfl, tell_up] at up
      simp only [if_true, Connection.tell, encoded]
      rw [Connection.expected_send up]
      exact (covers up).insert encoded

/-- An unsubscription of a name that only one table has erases it on both sides. -/
theorem Session.Agrees.tellErased (faithful : Faithful encode) {link : Connection}
    {names : Finset Name} (covers : link.up = true → Covers encode link.expected names)
    {name : Name} (encodes : (encode name).isSome)
    (up : (link.tell encode .unsubscribe name).up = true) :
    Covers encode (link.tell encode .unsubscribe name).expected (names.erase name) := by
  obtain ⟨bytes, encoded⟩ := Option.isSome_iff_exists.mp encodes
  rw [tell_up] at up
  simp only [Connection.tell, encoded]
  rw [Connection.expected_send up]
  exact (covers up).erase faithful encoded

/-- One of the tables has registered a handler for a name. -/
theorem Session.Agrees.registered {session next : Session Name Handler}
    (agrees : Session.Agrees encode session) {name : Name} {first : Bool}
    (link : next.link = session.link.afterRegister encode name first)
    (keys : next.keys = insert name session.keys) (subsHandled : Handled next.subs)
    (patternSubsHandled : Handled next.patternSubs) (known : first = false → name ∈ session.keys)
    (encodes : (encode name).isSome) : Session.Agrees encode next := by
  obtain ⟨sound, covers⟩ := Session.Agrees.afterRegister agrees.sound agrees.covers known encodes
  refine ⟨?_, subsHandled, patternSubsHandled, ?_, ?_⟩
  · rw [link]
    exact sound
  · intro other member
    rw [keys] at member
    rcases Finset.mem_insert.mp member with rfl | before
    · exact encodes
    · exact agrees.encodes other before
  · rw [link, keys]
    exact covers

/-- One of the tables has erased a name, and while the link is up the other does not have it. -/
theorem Session.Agrees.erased (faithful : Faithful encode) {session next : Session Name Handler}
    (agrees : Session.Agrees encode session) {name : Name} (member : name ∈ session.keys)
    (link : next.link = session.link.tell encode .unsubscribe name)
    (subsHandled : Handled next.subs) (patternSubsHandled : Handled next.patternSubs)
    (fewer : next.keys ⊆ session.keys)
    (keys : session.link.up = true → next.keys = session.keys.erase name) :
    Session.Agrees encode next := by
  refine ⟨?_, subsHandled, patternSubsHandled, ?_, ?_⟩
  · rw [link]
    exact agrees.sound.tell .unsubscribe name
  · intro other kept
    exact agrees.encodes other (fewer kept)
  · intro up
    rw [link] at up ⊢
    rw [keys ((tell_up _ _ _).symm.trans up)]
    exact Session.Agrees.tellErased faithful agrees.covers (agrees.encodes name member) up

/-- A new connection has sent every name of both tables. -/
theorem Session.Agrees.resubscribed {session : Session Name Handler}
    (agrees : Session.Agrees encode session) {order : List Name}
    (listed : order.toFinset = session.keys) :
    Session.Agrees encode
      { session with link := session.link.connect.resubscribe encode order } := by
  obtain ⟨sound, none⟩ := agrees.sound.connect
  have nothing : Covers encode session.link.connect.expected (∅ : Finset Name) := by
    rw [none]
    intro bytes
    simp
  have encodes : ∀ name ∈ order, (encode name).isSome := by
    intro name member
    exact agrees.encodes name (listed ▸ List.mem_toFinset.mpr member)
  obtain ⟨still, covers⟩ := Connection.Sound.resubscribe order sound rfl nothing encodes
  rw [listed, Finset.empty_union] at covers
  exact ⟨still, agrees.subsHandled, agrees.patternSubsHandled, agrees.encodes, fun _ => covers⟩

/-- A name that is not new to a table is in it. -/
theorem Handled.known {table : Handlers Name Handler} (handled : Handled table) {name : Name}
    {handler : Handler} (notFirst : (table.register name handler).2 = false) : name ∈ table := by
  by_contra absent
  have first := (handled.first_iff name handler).mpr absent
  rw [notFirst] at first
  cases first

/-- Every call that keeps the tables apart keeps the agreement. -/
theorem Session.Agrees.step (faithful : Faithful encode) (session : Session Name Handler)
    (action : SessionAction Name Handler) (agrees : Session.Agrees encode session)
    (apart : session.Apart encode action) : Session.Agrees encode (session.step encode action) := by
  have mem_subs {name : Name} (member : name ∈ session.subs) : name ∈ session.keys :=
    Finset.mem_union_left _ (Finmap.mem_keys.mpr member)
  have mem_patternSubs {name : Name} (member : name ∈ session.patternSubs) : name ∈ session.keys :=
    Finset.mem_union_right _ (Finmap.mem_keys.mpr member)
  cases action with
  | subscribe name handler =>
      refine agrees.registered rfl ?_ (agrees.subsHandled.register name handler)
        agrees.patternSubsHandled (fun notFirst => mem_subs (agrees.subsHandled.known notFirst))
        apart
      simp only [Session.step, Session.keys, register_keys, Finset.insert_union]
  | subscribePattern name handler =>
      refine agrees.registered rfl ?_ agrees.subsHandled
        (agrees.patternSubsHandled.register name handler)
        (fun notFirst => mem_patternSubs (agrees.patternSubsHandled.known notFirst)) apart
      simp only [Session.step, Session.keys, register_keys, Finset.union_insert]
  | unsubscribe name =>
      by_cases present : name ∈ session.subs
      · simp only [Session.step, if_pos present]
        refine agrees.erased faithful (mem_subs present) rfl (agrees.subsHandled.erase name)
          agrees.patternSubsHandled ?_ ?_
        · simp only [Session.keys, Finmap.keys_erase]
          exact Finset.union_subset_union_left (Finset.erase_subset _ _)
        · intro up
          have single : name ∉ session.patternSubs.keys := fun both =>
            apart up ⟨present, Finmap.mem_keys.mp both⟩
          simp only [Session.keys, Finmap.keys_erase, Finset.erase_union_distrib,
            Finset.erase_eq_of_notMem single]
      · simp only [Session.step, if_neg present]
        exact agrees
  | unsubscribePattern name =>
      by_cases present : name ∈ session.patternSubs
      · simp only [Session.step, if_pos present]
        refine agrees.erased faithful (mem_patternSubs present) rfl agrees.subsHandled
          (agrees.patternSubsHandled.erase name) ?_ ?_
        · simp only [Session.keys, Finmap.keys_erase]
          exact Finset.union_subset_union_right (Finset.erase_subset _ _)
        · intro up
          have single : name ∉ session.subs.keys := fun both =>
            apart up ⟨Finmap.mem_keys.mp both, present⟩
          simp only [Session.keys, Finmap.keys_erase, Finset.erase_union_distrib,
            Finset.erase_eq_of_notMem single]
      · simp only [Session.step, if_neg present]
        exact agrees
  | drop =>
      exact ⟨agrees.sound.drop, agrees.subsHandled, agrees.patternSubsHandled, agrees.encodes,
        fun up => by cases up⟩
  | connect order =>
      simp only [Session.step]
      split
      · rename_i ready
        apply agrees.resubscribed
        ext name
        rw [List.mem_toFinset, ← Multiset.mem_coe, ready.2, Multiset.mem_add, Finset.mem_val,
          Finset.mem_val, Session.keys, Finset.mem_union]
      · exact agrees
  | handle client =>
      obtain ⟨sound, same⟩ := agrees.sound.handle client
      refine ⟨sound, agrees.subsHandled, agrees.patternSubsHandled, agrees.encodes, ?_⟩
      intro still
      simp only [Session.step, same]
      exact agrees.covers ((session.link.handle_up client).symm.trans still)

/-- A drained connection holds the bytes of the names that have a handler. -/
theorem Session.Agrees.names {session : Session Name Handler}
    (agrees : Session.Agrees encode session) (up : session.link.up = true)
    (drained : session.link.queue session.link.epoch = []) :
    (session.link.tables.names session.link.epoch).image some = session.keys.image encode := by
  rw [Connection.names_of_drained drained]
  ext entry
  simp only [Finset.mem_image]
  constructor
  · rintro ⟨bytes, held, rfl⟩
    exact (agrees.covers up bytes).mp held
  · rintro ⟨name, member, rfl⟩
    obtain ⟨bytes, encoded⟩ := Option.isSome_iff_exists.mp (agrees.encodes name member)
    exact ⟨bytes, (agrees.covers up bytes).mpr ⟨name, member, encoded⟩, encoded.symm⟩

theorem cppName_faithful : Faithful cppName := by
  intro first second bytes one two
  exact Option.some.inj (one.trans two.symm)

theorem CodePoint.char_faithful {first second : CodePoint} {char : Char}
    (one : first.char = some char) (two : second.char = some char) : first = second := by
  unfold CodePoint.char at one two
  by_cases valid : first.val.isValidChar
  · by_cases alsoValid : second.val.isValidChar
    · rw [dif_pos valid] at one
      rw [dif_pos alsoValid] at two
      have values : first.val = second.val :=
        congrArg Char.toNat (Option.some.inj (one.trans two.symm))
      exact Fin.ext values
    · rw [dif_neg alsoValid] at two
      cases two
  · rw [dif_neg valid] at one
    cases one

/-- A list of code points is determined by its characters. -/
theorem mapM_char_faithful (first : List CodePoint) :
    ∀ (second : List CodePoint) (chars : List Char), first.mapM CodePoint.char = some chars →
      second.mapM CodePoint.char = some chars → first = second := by
  induction first with
  | nil =>
      intro second chars one two
      cases second with
      | nil => rfl
      | cons point rest =>
          simp only [List.mapM_nil, List.mapM_cons, Option.pure_def, Option.bind_eq_bind,
            Option.some.injEq, Option.bind_eq_some_iff] at one two
          obtain ⟨_, _, _, _, eq⟩ := two
          rw [← one] at eq
          cases eq
  | cons point rest ih =>
      intro second chars one two
      cases second with
      | nil =>
          simp only [List.mapM_nil, List.mapM_cons, Option.pure_def, Option.bind_eq_bind,
            Option.some.injEq, Option.bind_eq_some_iff] at one two
          obtain ⟨_, _, _, _, eq⟩ := one
          rw [← two] at eq
          cases eq
      | cons other later =>
          simp only [List.mapM_cons, Option.pure_def, Option.bind_eq_bind, Option.some.injEq,
            Option.bind_eq_some_iff] at one two
          obtain ⟨char, here, tail, restChars, rfl⟩ := one
          obtain ⟨same, there, sameTail, laterChars, eq⟩ := two
          obtain ⟨rfl, rfl⟩ := List.cons.inj eq
          rw [CodePoint.char_faithful here there, ih later sameTail restChars laterChars]

/-- UTF-8 keeps different strings apart. -/
theorem utf8_faithful {first second : List Char}
    (same : first.flatMap String.utf8EncodeChar = second.flatMap String.utf8EncodeChar) :
    first = second := by
  apply String.ofList_injective
  apply String.toByteArray_inj.mp
  rw [String.toByteArray_ofList, String.toByteArray_ofList, List.utf8Encode, List.utf8Encode, same]

theorem pythonName_faithful : Faithful pythonName := by
  have chars {name : List CodePoint} {bytes : Bytes} (encoded : pythonName name = some bytes) :
      ∃ chars, name.mapM CodePoint.char = some chars ∧
        chars.flatMap String.utf8EncodeChar = bytes := by
    unfold pythonName at encoded
    split at encoded
    · cases encoded
    · rename_i chars found
      simp only at encoded
      split at encoded
      · exact ⟨chars, found, Option.some.inj encoded⟩
      · cases encoded
  intro first second bytes one two
  obtain ⟨firstChars, firstFound, firstBytes⟩ := chars one
  obtain ⟨secondChars, secondFound, secondBytes⟩ := chars two
  rw [utf8_faithful (firstBytes.trans secondBytes.symm)] at firstFound
  exact mapM_char_faithful first second secondChars firstFound secondFound

/-- In every session whose calls keep the two tables apart, the daemon that has read everything
holds the names with a handler. This is so for the node of C++ and for the node of Python. -/
theorem subscriptions_agree :
    (∀ actions : List (SessionAction Bytes Handler),
      Meets (Session.step cppName) (Session.Apart cppName) .initial actions →
      let session := run (Session.step cppName) .initial actions
      session.link.up = true → session.link.queue session.link.epoch = [] →
        session.link.tables.names session.link.epoch = session.keys) ∧
    ∀ actions : List (SessionAction (List CodePoint) Handler),
      Meets (Session.step pythonName) (Session.Apart pythonName) .initial actions →
      let session := run (Session.step pythonName) .initial actions
      session.link.up = true → session.link.queue session.link.epoch = [] →
        (session.link.tables.names session.link.epoch).image some =
          session.keys.image pythonName := by
  refine ⟨?_, ?_⟩
  · intro actions apart session up drained
    have agrees := run_invariant_of_meets (Session.Agrees.step cppName_faithful) actions _
      Session.Agrees.initial apart
    exact Finset.image_injective (Option.some_injective Bytes) (agrees.names up drained)
  · intro actions apart session up drained
    have agrees := run_invariant_of_meets (Session.Agrees.step pythonName_faithful) actions _
      Session.Agrees.initial apart
    exact agrees.names up drained

/-- The node holds one name in both of its tables and unsubscribes it from one of them. -/
def unsubscribeShared : List (SessionAction Bytes Unit) :=
  [.connect [], .subscribe [97] (), .subscribePattern [97] (), .unsubscribe [97], .handle 1,
    .handle 1, .handle 1]

/-- The node of Python subscribes a lone surrogate. -/
def subscribeSurrogate : List (SessionAction (List CodePoint) Unit) :=
  [.connect [], .subscribe [0xD800] ()]

theorem subscription_lost :
    (let session := run (Session.step cppName) .initial unsubscribeShared
     session.link.up = true ∧ session.link.queue session.link.epoch = [] ∧
        session.link.tables.names session.link.epoch = ∅ ∧ session.keys = {[97]}) ∧
    (let session := run (Session.step pythonName) .initial subscribeSurrogate
     session.link.up = true ∧ session.link.queue session.link.epoch = [] ∧
        session.link.tables.names session.link.epoch = ∅ ∧ session.keys = {[0xD800]}) := by
  decide

/-- The node subscribes a topic and a pattern, unsubscribes the topic and connects again. -/
def unsubscribeApart : List (SessionAction Bytes Unit) :=
  [.connect [], .subscribe [97] (), .subscribePattern [42] (), .unsubscribe [97], .drop,
    .connect [[42]], .handle 2]

def subscribeLetter : List (SessionAction (List CodePoint) Unit) :=
  [.connect [], .subscribe [0xE9] (), .handle 1]

theorem subscriptions_agree_small :
    (let session := run (Session.step cppName) .initial unsubscribeApart
     session.keys = {[42]} ∧
        session.link.tables.names session.link.epoch = session.keys) ∧
    (let session := run (Session.step pythonName) .initial subscribeLetter
     session.keys = {[0xE9]} ∧
        (session.link.tables.names session.link.epoch).image some =
          session.keys.image pythonName) := by
  refine ⟨⟨by decide, subscriptions_agree.1 unsubscribeApart ?_ (by decide) (by decide)⟩,
    ⟨by decide, subscriptions_agree.2 subscribeLetter ?_ (by decide) (by decide)⟩⟩
  · refine ⟨True.intro, rfl, rfl, ?_, True.intro, True.intro, True.intro, True.intro⟩
    intro _
    decide
  · exact ⟨True.intro, rfl, True.intro, True.intro⟩

end Chappe
