/-
This file proves what the daemon will hold for a node once it has read the queue of the node.
-/

import Chappe.Construction.Subscription

namespace Chappe
open Foundation

/-- What one frame does to the names that the daemon holds. -/
def Frame.applyName (held : Finset Bytes) (frame : Frame) : Finset Bytes :=
  match frame.msg with
  | some .subscribe => insert frame.name held
  | some .unsubscribe => held.erase frame.name
  | _ => held

/-- The names that the daemon will hold once it has read the queue of the current connection. -/
def Connection.expected (link : Connection) : Finset Bytes :=
  (link.queue link.epoch).foldl Frame.applyName (link.tables.names link.epoch)

/-- Names are filed by their wildcards, and a connection that does not exist yet has nothing. -/
structure Connection.Sound (link : Connection) : Prop where
  plain : ∀ client, ∀ name ∈ link.tables.topics client, topicHasWildcard name = false
  wild : ∀ client, ∀ name ∈ link.tables.patterns client, topicHasWildcard name = true
  fresh : ∀ client, link.epoch < client → link.queue client = [] ∧ link.tables.names client = ∅

theorem Connection.Sound.initial : Connection.initial.Sound where
  plain := fun _ _ member => absurd member (Finset.notMem_empty _)
  wild := fun _ _ member => absurd member (Finset.notMem_empty _)
  fresh := fun _ _ => ⟨rfl, rfl⟩

theorem names_subscribe (tables : Tables Nat) (client : Nat) (name : Bytes) :
    (tables.subscribe client name).names client = insert name (tables.names client) := by
  unfold Tables.subscribe Tables.names
  split
  · simp only [Function.update_self, Finset.union_insert]
  · simp only [Function.update_self, Finset.insert_union]

/-- A name is erased from the table that it was filed in. -/
theorem names_unsubscribe (tables : Tables Nat) (client : Nat) (name : Bytes)
    (plain : ∀ name ∈ tables.topics client, topicHasWildcard name = false)
    (wild : ∀ name ∈ tables.patterns client, topicHasWildcard name = true) :
    (tables.unsubscribe client name).names client = (tables.names client).erase name := by
  unfold Tables.unsubscribe Tables.names
  split
  · rename_i wildcard
    have absent : name ∉ tables.topics client := by
      intro member
      rw [plain name member] at wildcard
      cases wildcard
    simp only [Function.update_self, Finset.erase_union_distrib, Finset.erase_eq_of_notMem absent]
  · rename_i wildcard
    have absent : name ∉ tables.patterns client := fun member => wildcard (wild name member)
    simp only [Function.update_self, Finset.erase_union_distrib, Finset.erase_eq_of_notMem absent]

theorem Connection.Sound.names_handleFrame {link : Connection} (sound : link.Sound) (client : Nat)
    (frame : Frame) :
    (link.tables.handleFrame client frame).names client =
      frame.applyName (link.tables.names client) := by
  by_cases subscribes : frame.msg = some .subscribe
  · simp only [Tables.handleFrame, Frame.applyName, subscribes, names_subscribe]
  · by_cases unsubscribes : frame.msg = some .unsubscribe
    · simp only [Tables.handleFrame, Frame.applyName, unsubscribes,
        names_unsubscribe _ _ _ (sound.plain client) (sound.wild client)]
    · have sameTables : link.tables.handleFrame client frame = link.tables := by
        unfold Tables.handleFrame
        split <;> first | contradiction | rfl
      have sameNames : frame.applyName (link.tables.names client) = link.tables.names client := by
        unfold Frame.applyName
        split <;> first | contradiction | rfl
      rw [sameTables, sameNames]

theorem names_handleFrame_other (tables : Tables Nat) {client other : Nat} (frame : Frame)
    (different : other ≠ client) :
    (tables.handleFrame client frame).names other = tables.names other := by
  unfold Tables.handleFrame
  split
  · unfold Tables.subscribe Tables.names
    split <;> simp only [Function.update_of_ne different]
  · unfold Tables.unsubscribe Tables.names
    split <;> simp only [Function.update_of_ne different]
  · rfl

/-- A subscription files its name by its wildcards. -/
theorem handleFrame_plain {tables : Tables Nat} (client : Nat) (frame : Frame)
    (plain : ∀ client, ∀ name ∈ tables.topics client, topicHasWildcard name = false)
    (other : Nat) (name : Bytes)
    (member : name ∈ (tables.handleFrame client frame).topics other) :
    topicHasWildcard name = false := by
  unfold Tables.handleFrame at member
  split at member
  · unfold Tables.subscribe at member
    split at member
    · exact plain other name member
    · rename_i tame
      by_cases same : other = client
      · subst other
        simp only [Function.update_self, Finset.mem_insert] at member
        rcases member with rfl | before
        · simpa using tame
        · exact plain _ name before
      · simp only [Function.update_of_ne same] at member
        exact plain other name member
  · unfold Tables.unsubscribe at member
    split at member
    · exact plain other name member
    · by_cases same : other = client
      · subst other
        simp only [Function.update_self] at member
        exact plain _ name (Finset.mem_of_mem_erase member)
      · simp only [Function.update_of_ne same] at member
        exact plain other name member
  · exact plain other name member

theorem handleFrame_wild {tables : Tables Nat} (client : Nat) (frame : Frame)
    (wild : ∀ client, ∀ name ∈ tables.patterns client, topicHasWildcard name = true)
    (other : Nat) (name : Bytes)
    (member : name ∈ (tables.handleFrame client frame).patterns other) :
    topicHasWildcard name = true := by
  unfold Tables.handleFrame at member
  split at member
  · unfold Tables.subscribe at member
    split at member
    · rename_i wildcard
      by_cases same : other = client
      · subst other
        simp only [Function.update_self, Finset.mem_insert] at member
        rcases member with rfl | before
        · exact wildcard
        · exact wild _ name before
      · simp only [Function.update_of_ne same] at member
        exact wild other name member
    · exact wild other name member
  · unfold Tables.unsubscribe at member
    split at member
    · by_cases same : other = client
      · subst other
        simp only [Function.update_self] at member
        exact wild _ name (Finset.mem_of_mem_erase member)
      · simp only [Function.update_of_ne same] at member
        exact wild other name member
    · exact wild other name member
  · exact wild other name member

/-- The daemon gets nearer to what it will hold and never away from it. -/
theorem Connection.Sound.handle {link : Connection} (sound : link.Sound) (client : Nat) :
    (link.handle client).Sound ∧ (link.handle client).expected = link.expected := by
  unfold Connection.handle
  split
  · exact ⟨sound, rfl⟩
  · rename_i frame rest queued
    split
    · refine ⟨⟨handleFrame_plain client frame sound.plain, handleFrame_wild client frame sound.wild,
        ?_⟩, ?_⟩
      · intro later new
        have different : later ≠ client := by
          rintro rfl
          rw [(sound.fresh later new).1] at queued
          cases queued
        simp only [Function.update_of_ne different, names_handleFrame_other _ _ different]
        exact sound.fresh later new
      · unfold Connection.expected
        by_cases same : link.epoch = client
        · subst client
          simp only [Function.update_self, sound.names_handleFrame, queued, List.foldl_cons]
        · simp only [Function.update_of_ne same, names_handleFrame_other _ _ same]
    · exact ⟨sound, rfl⟩

@[simp] theorem Connection.handle_up (link : Connection) (client : Nat) :
    (link.handle client).up = link.up := by
  unfold Connection.handle
  split
  · rfl
  · split <;> rfl

theorem Connection.Sound.send {link : Connection} (sound : link.Sound) (frame : Frame) :
    (link.send frame).Sound := by
  unfold Connection.send
  split
  · refine ⟨sound.plain, sound.wild, ?_⟩
    intro later new
    have different : later ≠ link.epoch := Nat.ne_of_gt new
    simp only [Function.update_of_ne different]
    exact sound.fresh later new
  · exact sound

theorem Connection.expected_send {link : Connection} (up : link.up = true) (frame : Frame) :
    (link.send frame).expected = frame.applyName link.expected := by
  simp only [Connection.send, up, if_true, Connection.expected, Function.update_self,
    List.foldl_append, List.foldl_cons, List.foldl_nil]

@[simp] theorem Connection.send_up (link : Connection) (frame : Frame) :
    (link.send frame).up = link.up := by
  unfold Connection.send
  split <;> rfl

theorem Connection.Sound.drop {link : Connection} (sound : link.Sound) : link.drop.Sound :=
  ⟨sound.plain, sound.wild, sound.fresh⟩

/-- The daemon holds nothing for a new connection. -/
theorem Connection.Sound.connect {link : Connection} (sound : link.Sound) :
    link.connect.Sound ∧ link.connect.expected = ∅ := by
  refine ⟨⟨sound.plain, sound.wild, ?_⟩, ?_⟩
  · intro later new
    exact sound.fresh later (Nat.lt_of_succ_lt new)
  · obtain ⟨empty, none⟩ := sound.fresh (link.epoch + 1) (Nat.lt_succ_self _)
    simp only [Connection.expected, Connection.connect, empty, none, List.foldl_nil]

/-- The daemon has read everything that the node sent on its current connection. -/
theorem Connection.names_of_drained {link : Connection} (drained : link.queue link.epoch = []) :
    link.tables.names link.epoch = link.expected := by
  simp only [Connection.expected, drained, List.foldl_nil]

variable {Name Handler : Type} [DecidableEq Name]

/-- Every entry of a handler table has a handler. -/
def Handled (table : Handlers Name Handler) : Prop :=
  ∀ name handlers, table.lookup name = some handlers → handlers ≠ []

theorem Handled.register {table : Handlers Name Handler} (handled : Handled table) (name : Name)
    (handler : Handler) : Handled (table.register name handler).1 := by
  intro other handlers found
  by_cases same : other = name
  · subst other
    simp only [Handlers.register, Finmap.lookup_insert, Option.some.injEq] at found
    rw [← found]
    simp
  · simp only [Handlers.register, Finmap.lookup_insert_of_ne _ same] at found
    exact handled other handlers found

theorem Handled.erase {table : Handlers Name Handler} (handled : Handled table) (name : Name) :
    Handled (table.erase name) := by
  intro other handlers found
  by_cases same : other = name
  · subst other
    simp at found
  · rw [Finmap.lookup_erase_ne same] at found
    exact handled other handlers found

theorem register_keys (table : Handlers Name Handler) (name : Name) (handler : Handler) :
    (table.register name handler).1.keys = insert name table.keys := by
  ext other
  simp only [Handlers.register, Finmap.mem_keys, Finmap.mem_insert, Finset.mem_insert]

/-- A first handler is the handler of a name without an entry. -/
theorem Handled.first_iff {table : Handlers Name Handler} (handled : Handled table) (name : Name)
    (handler : Handler) : (table.register name handler).2 = true ↔ name ∉ table := by
  rw [← Finmap.lookup_eq_none]
  cases found : table.lookup name with
  | none => simp [Handlers.register, found]
  | some handlers => simp [Handlers.register, found, handled name handlers found]

end Chappe
