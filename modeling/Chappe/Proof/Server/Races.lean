/-
This file proves that no two threads of a daemon touch a member at the same time when one of them
changes it.
-/

import Chappe.Proof.Server.LockOrder
import Chappe.Proof.Server.Soundness

namespace Chappe.Server
open Foundation

/-- The members of a `Server` and of its clients that are not atomic. The names of a client are its
`topics`, `patterns` and `keys`. -/
inductive Resource (Client : Type) where
  | subs
  | retained
  | kv
  | clients
  | readers
  | fd (client : Client)
  | names (client : Client)

variable {Client : Type}

/-- The members that an operation reads, as shared, and those that it changes. -/
def Op.touches : Op Client → List (Resource Client × Mode)
  | .start client | .write client _ | .shutFd client => [(.fd client, .shared)]
  | .closeFd client => [(.fd client, .exclusive)]
  | .subscribe client _ | .unsubscribe client _ =>
      [(.subs, .exclusive), (.names client, .exclusive)]
  | .leaveTopics client => [(.subs, .exclusive), (.names client, .shared)]
  | .snapshot _ _ => [(.subs, .shared)]
  | .replay _ _ => [(.retained, .shared)]
  | .retain _ => [(.retained, .exclusive)]
  | .request client _ => [(.kv, .exclusive), (.names client, .exclusive)]
  | .leaveKeys client => [(.kv, .exclusive), (.names client, .shared)]
  | .sweepKeys _ => [(.kv, .exclusive)]
  | .inquire _ _ .clients | .shutClients => [(.clients, .shared)]
  | .inquire _ _ .topics => [(.subs, .shared)]
  | .inquire _ _ .retained => [(.retained, .shared)]
  | .inquire _ _ .keys => [(.kv, .shared)]
  | .eraseClient _ => [(.clients, .exclusive)]
  | .enlist _ => [(.clients, .exclusive), (.readers, .exclusive)]
  | .reap | .clearReaders => [(.readers, .exclusive)]
  | _ => []

/-- The mutex of a member. -/
def Resource.guard : Resource Client → Option (Mutex Client)
  | .subs => some .subs
  | .retained => some .retained
  | .kv => some .kv
  | .clients => some .clients
  | .fd client => some (.send client)
  | .readers | .names _ => none

/-- The only thread that changes a member. -/
def Resource.owner : Resource Client → Option (Worker Client)
  | .fd client | .names client => some (.reader client)
  | .subs | .retained | .kv | .clients | .readers => none

/-- A thread changes a member with its mutex, and reads it with its mutex or as its owner. -/
structure Guarded (worker : Worker Client) (held : Stack Client) (resource : Resource Client)
    (mode : Mode) : Prop where
  changes : mode = .exclusive → (∀ mutex ∈ resource.guard, (mutex, .exclusive) ∈ held) ∧
    ∀ sole ∈ resource.owner, worker = sole
  reads : (∃ mutex ∈ resource.guard, ∃ kind, (mutex, kind) ∈ held) ∨
    worker ∈ resource.owner

theorem Guarded.locked {worker : Worker Client} {held : Stack Client}
    {resource : Resource Client} {mutex : Mutex Client} (guard : resource.guard = some mutex)
    (unowned : resource.owner = none) (mode : Mode) (holds : (mutex, .exclusive) ∈ held) :
    Guarded worker held resource mode where
  changes := by simp [guard, unowned, holds]
  reads := .inl ⟨mutex, guard, .exclusive, holds⟩

theorem Guarded.named {worker : Worker Client} {held : Stack Client} {client : Client}
    (mode : Mode) (own : worker = .reader client) :
    Guarded worker held (.names client) mode where
  changes := by simp [Resource.guard, Resource.owner, own]
  reads := .inr (by simp [Resource.owner, own])

/-- A member is touched only by a thread that has what it takes. -/
theorem touches_guarded {worker : Worker Client} {held : Stack Client} {op : Op Client}
    (fits : op.Fits held) (role : ∀ role ∈ op.role, worker = role) {resource : Resource Client}
    {mode : Mode} (touched : (resource, mode) ∈ op.touches) (other : resource ≠ .readers) :
    Guarded worker held resource mode := by
  have pair {first second : Resource Client × Mode}
      (touched : (resource, mode) ∈ [first, second]) :
      (resource, mode) = first ∨ (resource, mode) = second := by
    simpa using touched
  cases op with
  | start client =>
      obtain ⟨rfl, rfl⟩ := Prod.mk.inj (List.mem_singleton.mp touched)
      exact ⟨by simp, .inr (by simp [Resource.owner, role _ rfl])⟩
  | write client frame =>
      obtain ⟨rest, rfl⟩ := fits
      obtain ⟨rfl, rfl⟩ := Prod.mk.inj (List.mem_singleton.mp touched)
      exact ⟨by simp, .inl ⟨_, rfl, _, List.mem_cons_self⟩⟩
  | shutFd client =>
      obtain ⟨rest, rfl⟩ := fits
      obtain ⟨rfl, rfl⟩ := Prod.mk.inj (List.mem_singleton.mp touched)
      exact ⟨by simp, .inl ⟨_, rfl, _, List.mem_cons_self⟩⟩
  | closeFd client =>
      obtain ⟨rest, rfl⟩ := fits
      obtain ⟨rfl, rfl⟩ := Prod.mk.inj (List.mem_singleton.mp touched)
      exact ⟨by simp [Resource.guard, Resource.owner, role _ rfl],
        .inl ⟨_, rfl, _, List.mem_cons_self⟩⟩
  | subscribe client name =>
      obtain rfl : held = _ := fits
      rcases pair touched with same | same <;> obtain ⟨rfl, rfl⟩ := Prod.mk.inj same
      · exact .locked rfl rfl _ List.mem_cons_self
      · exact .named _ (role _ rfl)
  | unsubscribe client name =>
      obtain rfl : held = _ := fits
      rcases pair touched with same | same <;> obtain ⟨rfl, rfl⟩ := Prod.mk.inj same
      · exact .locked rfl rfl _ List.mem_cons_self
      · exact .named _ (role _ rfl)
  | leaveTopics client =>
      obtain rfl : held = _ := fits
      rcases pair touched with same | same <;> obtain ⟨rfl, rfl⟩ := Prod.mk.inj same
      · exact .locked rfl rfl _ List.mem_cons_self
      · exact .named _ (role _ rfl)
  | request client frame =>
      obtain rfl : held = _ := fits
      rcases pair touched with same | same <;> obtain ⟨rfl, rfl⟩ := Prod.mk.inj same
      · exact .locked rfl rfl _ List.mem_cons_self
      · exact .named _ (role _ rfl)
  | leaveKeys client =>
      obtain rfl : held = _ := fits
      rcases pair touched with same | same <;> obtain ⟨rfl, rfl⟩ := Prod.mk.inj same
      · exact .locked rfl rfl _ List.mem_cons_self
      · exact .named _ (role _ rfl)
  | snapshot client frame =>
      obtain rfl : held = _ := fits
      obtain ⟨rfl, rfl⟩ := Prod.mk.inj (List.mem_singleton.mp touched)
      exact ⟨by simp, .inl ⟨_, rfl, _, List.mem_cons_self⟩⟩
  | enlist client =>
      obtain rfl : held = _ := fits
      rcases pair touched with same | same <;> obtain ⟨rfl, rfl⟩ := Prod.mk.inj same
      · exact .locked rfl rfl _ List.mem_cons_self
      · exact absurd rfl other
  | reap | clearReaders =>
      obtain ⟨rfl, rfl⟩ := Prod.mk.inj (List.mem_singleton.mp touched)
      exact absurd rfl other
  | replay _ _ | retain _ | sweepKeys _ | shutClients | eraseClient _ =>
      obtain rfl : held = _ := fits
      obtain ⟨rfl, rfl⟩ := Prod.mk.inj (List.mem_singleton.mp touched)
      exact .locked rfl rfl _ List.mem_cons_self
  | inquire client report inquiry =>
      cases inquiry with
      | reply => cases touched
      | clients | topics | retained | keys =>
          obtain rfl : held = _ := fits
          obtain ⟨rfl, rfl⟩ := Prod.mk.inj (List.mem_singleton.mp touched)
          exact ⟨by simp, .inl ⟨_, rfl, _, List.mem_cons_self⟩⟩
  | lock _ _ | unlock _ | finish _ | loop _ _ | next _ _ | acceptLoop | accept | sweepLoop | doze
  | recheck | destroyed | stop | notify | join _ | shutListen | closeListen | unlink =>
      cases touched

variable [LinearOrder Client] {config : Config} {state : State Client}
  {code : Worker Client → Code Client}

/-- The accept thread has not ended while it has code. -/
theorem AcceptAt.lives {op : Op Client} {rest : Code Client} (place : AcceptAt state (op :: rest)) :
    .accept ∉ state.finished := by
  generalize here : op :: rest = code at place
  cases place with
  | looping lives | accepting lives | admitted lives | finishing lives => exact lives
  | admitting lives => exact lives
  | gone ended => cases here

omit [LinearOrder Client] in
/-- The owner takes the readers over when the accept thread has ended. -/
theorem OwnerAt.takes_readers {ops rest : Code Client} {place : Nat}
    (owner : OwnerAt state ops place (.clearReaders :: rest)) : .accept ∈ state.finished := by
  have code := owner.code
  cases ops with
  | cons op more =>
      obtain ⟨rfl, -⟩ := List.cons.inj code
      rcases owner.shape with nothing | ⟨-, all⟩ | ⟨-, all⟩
      · cases nothing
      · cases all _ List.mem_cons_self
      · cases all _ List.mem_cons_self
  | nil =>
      apply owner.accept
      by_contra early
      have within := owner.within
      interval_cases place <;> simp [destructor] at code early

omit [LinearOrder Client] in
/-- The readers are touched by the accept thread, or by the owner. -/
theorem touches_readers {op : Op Client} {mode : Mode}
    (touched : (.readers, mode) ∈ op.touches) :
    op.role = some .accept ∨ op = .clearReaders := by
  cases op with
  | reap | enlist _ => exact .inl rfl
  | clearReaders => exact .inr rfl
  | inquire _ _ inquiry => cases inquiry <;> simp [Op.touches] at touched
  | _ => simp [Op.touches] at touched

/-- No two threads are about to touch a member at the same time, unless both only read it. -/
def RaceFree (system : System Client) : Prop :=
  ∀ first second op other rest more, first ≠ second → system.code first = op :: rest →
    system.code second = other :: more → ∀ resource mode kind, (resource, mode) ∈ op.touches →
      (resource, kind) ∈ other.touches → mode.Compatible kind

/-- The owner and the accept thread do not touch the futures of the readers together. -/
theorem Sound.readers_apart (sound : Sound config state code) {op : Op Client}
    {rest more : Code Client} (accept : code .accept = op :: rest)
    (owner : code .owner = .clearReaders :: more) : False := by
  have lives := sound.accept
  obtain ⟨ops, place, there⟩ := sound.owner
  rw [accept] at lives
  rw [owner] at there
  exact lives.lives there.takes_readers

omit [LinearOrder Client] in
/-- A member that a thread changes is touched by no other thread. -/
theorem Guarded.alone {system : System Client} (orderly : Orderly Mutex.rank Follows system)
    {first second : Worker Client} (different : first ≠ second) {held owned : Stack Client}
    (stacked : Stacked Mutex.rank Follows system first held)
    (stackedOther : Stacked Mutex.rank Follows system second owned) {resource : Resource Client}
    {kind : Mode} (changes : Guarded first held resource .exclusive)
    (touches : Guarded second owned resource kind) : False := by
  obtain ⟨locked, owner⟩ := changes.changes rfl
  rcases touches.reads with ⟨mutex, guard, mode, holds⟩ | own
  · have compatible := orderly.exclusive mutex _
      ((stacked.holds mutex .exclusive).mp (locked mutex guard)) _
      ((stackedOther.holds mutex mode).mp holds) different
    cases compatible.1
  · exact different (owner second own)

/-- In every run of a daemon, no member is changed by one thread while another thread touches it. -/
theorem server_race_free (config : Config) (actions : List (Action Client)) :
    RaceFree (run (System.step config) System.initial actions) := by
  intro first second op other rest more different here there resource mode kind touched touching
  have sound := server_sound config actions
  have orderly := server_orderly config actions
  obtain ⟨held, stacked⟩ := orderly.stacked first
  obtain ⟨owned, stackedOther⟩ := orderly.stacked second
  obtain ⟨fits, role, -⟩ : Follows first held (op :: rest) := here ▸ stacked.follows
  obtain ⟨fitsOther, roleOther, -⟩ : Follows second owned (other :: more) :=
    there ▸ stackedOther.follows
  by_cases readers : resource = .readers
  · subst resource
    rcases touches_readers touched with accepts | rfl
    · obtain rfl := role _ accepts
      rcases touches_readers touching with again | rfl
      · exact absurd (roleOther _ again).symm different
      · obtain rfl := roleOther _ rfl
        exact (sound.readers_apart here there).elim
    · obtain rfl := role _ rfl
      rcases touches_readers touching with accepts | rfl
      · obtain rfl := roleOther _ accepts
        exact (sound.readers_apart there here).elim
      · exact absurd (roleOther _ rfl).symm different
  · have guarded := touches_guarded fits role touched readers
    have guardedOther := touches_guarded fitsOther roleOther touching readers
    cases mode with
    | exclusive => exact (guarded.alone orderly different stacked stackedOther guardedOther).elim
    | shared =>
        cases kind with
        | shared => exact ⟨rfl, rfl⟩
        | exclusive =>
            exact (guardedOther.alone orderly different.symm stackedOther stacked guarded).elim

end Chappe.Server
