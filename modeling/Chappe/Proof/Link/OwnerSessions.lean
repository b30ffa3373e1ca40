/-
This file proves that a key of one owning device is kept over many sessions of the links, unless
the other device seeds a new session with its copy.
-/

import Chappe.Proof.Link.OwnerKey

namespace Chappe
open Foundation

variable {Client : Type}

/-- The first device owns the key, and the second one only follows. -/
structure Federation.Kept (config : Side → LinkConfig) (key : Bytes)
    (federation : Federation Client) : Prop where
  leads : (federation.device .a).Leads key
  follows : (federation.device .b).Follows (config .b) key federation.session

/-- The daemon is about to take a frame that is not a get of the key. -/
theorem Device.seedsNothing_of_head {device : Device Client} {key : Bytes} {session : Nat}
    (first : Frame) (head : (device.uplink session).head? = some first)
    (other : ¬ first.Gets key) : device.SeedsNothing key session := by
  intro _ frame rest queue gets
  rw [queue, List.head?_cons] at head
  cases head
  exact absurd gets other

variable {config : Side → LinkConfig} {key : Bytes} {federation : Federation Client}

theorem Federation.Kept.updateA (kept : federation.Kept config key) {device : Device Client}
    (leads : device.Leads key) : (federation.update .a device).Kept config key :=
  ⟨leads, kept.follows⟩

theorem Federation.Kept.updateB (kept : federation.Kept config key) {device : Device Client}
    (follows : device.Follows (config .b) key federation.session) :
    (federation.update .b device).Kept config key :=
  ⟨kept.leads, follows⟩

/-- A link reads a frame of its peer. The frames to the owning device spare the key. -/
theorem Federation.Kept.peerRead (kept : federation.Kept config key) (side : Side) :
    (federation.peerRead config side).Kept config key := by
  unfold Federation.peerRead
  dsimp only
  split
  · rename_i frame rest incoming free _
    split
    · cases side with
      | a =>
          have far : { federation.device .b with
              link := { (federation.device .b).link with toPeer := rest } }.Follows (config .b) key
                federation.session := by
            refine kept.follows.withLink kept.follows.pendingShape ?_ id rfl ?_
            · intro write member
              exact kept.follows.quiet write (incoming ▸ List.mem_cons_of_mem _ member)
            · intro _ accounted
              exact ⟨accounted.bound, accounted.balance, accounted.pending, accounted.primed⟩
          have spares := kept.follows.quiet frame (incoming ▸ List.mem_cons_self)
          exact (kept.updateB far).updateA (kept.leads.peerFrame spares)
      | b =>
          have far : { federation.device .a with
              link := { (federation.device .a).link with toPeer := rest } }.Leads key :=
            kept.leads.withLink rfl
          exact (kept.updateA far).updateB (kept.follows.peerFrame free frame)
    · cases side with
      | a => exact kept.updateA (kept.leads.withLink rfl)
      | b => exact kept.updateB kept.follows.stop
  · exact kept

/-- The supervisor starts the links of the next session. -/
theorem Federation.Kept.restart (kept : federation.Kept config key) :
    Federation.Kept config key
      { session := federation.session + 1
        device := fun side =>
          (federation.device side).startLink (config side) (federation.session + 1) } where
  leads := kept.leads.startLink (config .a) (federation.session + 1)
  follows := Device.Follows.startLink kept.follows.forever kept.follows.shape kept.follows.fresh

theorem Federation.Kept.joined {store : Side → Store (Nat ⊕ Client)}
    (forever : (store .b).expires key = none)
    (unlinked : ∀ session name, ¬ (store .b).Watches (.inl session) name) :
    (Federation.joined config store).Kept config key where
  leads := by
    have before : Device.Leads key
        ⟨store .a, store .a, fun _ => [], .start (config .a)⟩ := ⟨.refl key _, nofun, nofun⟩
    exact before.startLink (config .a) 0
  follows := Device.Follows.startLink forever nofun fun later _ => ⟨rfl, unlinked later⟩

variable [DecidableEq Client]

theorem Federation.Kept.step (kept : federation.Kept config key) {action : FederationAction Client}
    (owned : OwnedByA key (.step action)) (seeds : SeedsNothing key federation (.step action)) :
    (federation.step config action).Kept config key := by
  cases action with
  | client side client frame now later =>
      cases side with
      | a => exact kept.updateA (kept.leads.client client frame now later)
      | b => exact kept.updateB (kept.follows.client client owned now later)
  | sweep side order now =>
      cases side with
      | a => exact kept.updateA (kept.leads.sweep order now)
      | b => exact kept.updateB (kept.follows.sweep order now)
  | publish side name payload =>
      cases side with
      | a => exact kept.updateA (kept.leads.withLink rfl)
      | b => exact kept.updateB (kept.follows.publish name payload)
  | serve side session now later =>
      cases side with
      | a => exact kept.updateA (kept.leads.serve session now later)
      | b => exact kept.updateB (kept.follows.serve session now later seeds)
  | localRead side =>
      cases side with
      | a => exact kept.updateA (kept.leads.withLink (localRead_kept _ _).1)
      | b => exact kept.updateB kept.follows.localRead
  | localSend side =>
      cases side with
      | a => exact kept.updateA (kept.leads.withLink (localSend_kept _).1)
      | b => exact kept.updateB kept.follows.localSend
  | peerRead side => exact kept.peerRead side
  | peerSend side =>
      cases side with
      | a => exact kept.updateA kept.leads.peerSend
      | b => exact kept.updateB kept.follows.peerSend

theorem Federation.Kept.event (kept : federation.Kept config key) {event : FederationEvent Client}
    (owned : OwnedByA key event) (seeds : SeedsNothing key federation event) :
    (federation.event config event).Kept config key := by
  cases event with
  | step action => exact kept.step owned seeds
  | stop side =>
      cases side with
      | a => exact kept.updateA (kept.leads.withLink rfl)
      | b => exact kept.updateB kept.follows.stop
  | restart =>
      unfold Federation.event
      dsimp only
      split
      · exact kept.restart
      · exact kept
  | removeClient side session =>
      unfold Federation.event
      dsimp only
      split
      · rename_i past
        cases side with
        | a => exact kept.updateA (kept.leads.removeClient session)
        | b => exact kept.updateB (kept.follows.removeClient past)
      · exact kept

/-- In every run over any number of sessions in which only clients of the first device write the
key and the second device seeds no session with the key, the first device has for the key what it
has without the writes of links. -/
theorem owner_key_kept (config : Side → LinkConfig) (key : Bytes)
    (store : Side → Store (Nat ⊕ Client)) (absent : AgreeAt key (store .b) .empty)
    (unlinked : ∀ session name, ¬ (store .b).Watches (.inl session) name)
    (events : List (FederationEvent Client)) (owned : ∀ event ∈ events, OwnedByA key event)
    (seeds : Meets (Federation.event config) (SeedsNothing key) (.joined config store) events) :
    AgreeAt key
      ((run (Federation.event config) (.joined config store) events).device .a).store
      ((run (Federation.event config) (.joined config store) events).device .a).owned := by
  have start : (Federation.joined config store).Kept config key := .joined absent.expires unlinked
  have met := seeds.and_admitted owned
  have kept : (run (Federation.event config) (.joined config store) events).Kept config key :=
    run_invariant_of_meets (fun _ _ kept both => kept.event both.2 both.1) events _ start met
  exact kept.leads.same

/-- Both links stop, a client of the first device writes the key again, and the links start anew. -/
def outage : List (FederationEvent Unit) :=
  [.stop .a, .stop .b, .step (.client .a () (Msg.kvSet.frame [7] [2]) 0 0), .restart]

/-- Each device seeds the new session with its copy, and the two copies cross. -/
def seedsCross : List (FederationEvent Unit) :=
  [.step (.serve .a 1 0 0), .step (.serve .b 1 0 0), .step (.localRead .a), .step (.localRead .b),
    .step (.localSend .a), .step (.localSend .b), .step (.peerRead .a), .step (.peerRead .b),
    .step (.peerRead .a), .step (.peerRead .b), .step (.peerSend .a), .step (.peerSend .b),
    .step (.serve .a 1 0 0), .step (.serve .b 1 0 0), .step (.localRead .a), .step (.localRead .b)]

theorem owner_key_kept_small :
    (let events := localWrite.map .step ++ outage
     let federation := run (Federation.event smallLink) (.joined smallLink fun _ => .empty) events
     (federation.device .a).store.kv [7] = some [2] ∧
      (federation.device .b).store.kv [7] = some [1] ∧
      AgreeAt [7] (federation.device .a).store (federation.device .a).owned) := by
  refine ⟨by decide, by decide, owner_key_kept smallLink [7] (fun _ => .empty) ?_ ?_ _ ?_ ?_⟩
  · exact .refl [7] _
  · intro session name watches
    simp [Store.Watches, Store.empty] at watches
  · simp [localWrite, outage, OwnedByA]
  · refine ⟨True.intro, True.intro, ?asked, True.intro, True.intro, True.intro, True.intro,
      True.intro, True.intro, True.intro, True.intro, ?written, True.intro, True.intro, True.intro,
      True.intro, True.intro, True.intro⟩
    case asked =>
      intro _ _ frame rest _ _
      refine ⟨rfl, ?_⟩
      intro earlier different write member
      change earlier ≠ 0 at different
      change write ∈ Function.update (fun _ => []) 0 _ earlier at member
      rw [Function.update_of_ne different] at member
      cases member
    case written =>
      intro _
      refine Device.seedsNothing_of_head (Msg.kvSet.frame [7] [1]) (by decide +kernel) ?_
      intro gets
      obtain ⟨-, id, request⟩ := gets
      cases request

/-- The owning device loses its write of the outage to the copy of the other one, and nothing is on
its way that would bring the two devices together again. -/
theorem owner_key_lost :
    (let events := localWrite.map .step ++ outage ++ seedsCross
     let federation := run (Federation.event smallLink) (.joined smallLink fun _ => .empty) events
     (∀ event ∈ events, OwnedByA [7] event) ∧
      (federation.device .a).owned.kv [7] = some [2] ∧
      (federation.device .a).store.kv [7] = some [1] ∧
      (federation.device .b).store.kv [7] = some [2] ∧
      ∀ side, (federation.device side).Quiet federation.session) := by
  refine ⟨?_, by decide, by decide, by decide, ?_⟩
  · simp [localWrite, outage, seedsCross, OwnedByA]
  · intro side
    cases side <;> exact ⟨by decide, by decide, by decide, by decide, by decide⟩

end Chappe
