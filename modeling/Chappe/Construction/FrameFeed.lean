/-
This file embeds `publish_frame` and `subscribe_frame` of `node.hpp` on one ring. The producer sends
a handle after each publish, and a consumer retains the latest frame when it handles one.
-/

import Chappe.Construction.ShmRing

namespace Chappe.ShmRing

variable {Party : Type} {geometry : Geometry}

/-- The newest frame of the slot, with its number in the order of the publishes. -/
def newestIn (published : List (Frame geometry)) (idx : geometry.Index) :
    Option (Frame geometry × Nat) :=
  ((published.zipIdx 1).filter fun entry => entry.1.slot = idx).getLast?

/-- The number of publishes whose second store has been made. -/
def completed (state : State Party geometry) : Nat :=
  match state.producer with
  | .advertise _ => state.published.length - 1
  | _ => state.published.length

/-- The next step of the consumer returns the slot from `shm_ring_retain_latest`. -/
def Returns (state : State Party geometry) (party : Party) (idx : geometry.Index) : Prop :=
  ∃ tries, state.consumer party = .verify tries idx ∧ state.slotState idx = .ready

/-- The number of the frame that the next step of the consumer retains, if it retains one. -/
def retains (state : State Party geometry) (party : Party) : Option Nat :=
  match state.consumer party with
  | .verify _ idx =>
      if state.slotState idx = .ready then (newestIn state.published idx).map Prod.snd else none
  | _ => none

variable [DecidableEq Party]

/-- The ring with the numbers of the frames that each consumer has retained so far. -/
structure Account (Party : Type) (geometry : Geometry) where
  ring : State Party geometry
  retained : Party → List Nat

/-- One step of the ring, whose retained frame is recorded. -/
def Account.step (account : Account Party geometry) (action : Action Party geometry) :
    Account Party geometry where
  ring := ShmRing.step account.ring action
  retained :=
    match action with
    | .consumer party => Function.update account.retained party
        (account.retained party ++ (retains account.ring party).toList)
    | _ => account.retained

def Account.initial (payload : geometry.Index → geometry.Payload) : Account Party geometry :=
  ⟨ShmRing.initial payload, fun _ => []⟩

/-- The ring of a frame topic with the frame whose handle the producer has still to send, the frames
whose handles it has sent, and the frame of the handle that each handler last ran for. A handler has
been shown frames, each recorded with the one that its handle announces. -/
structure Feed (Party : Type) (geometry : Geometry) where
  ring : State Party geometry
  unsent : Option Nat
  sent : List Nat
  handling : Party → Nat
  shown : Party → List (Nat × Nat)

/-- A handle that was sent may reach any handler at any time later. -/
inductive FeedAction (Party : Type) (geometry : Geometry) where
  | ring (action : Action Party geometry)
  | send
  | handle (party : Party) (announced : Nat)

def Feed.initial (payload : geometry.Index → geometry.Payload) : Feed Party geometry :=
  ⟨ShmRing.initial payload, none, [], fun _ => 0, fun _ => []⟩

/-- One step of `publish_frame`, of a handler of `subscribe_frame`, or of the ring under them. -/
def Feed.step (feed : Feed Party geometry) : FeedAction Party geometry → Feed Party geometry
  | .ring .acquireSlot =>
      match feed.unsent with
      | none => { feed with ring := ShmRing.step feed.ring .acquireSlot }
      | some _ => feed
  | .ring .producer =>
      { feed with
        ring := ShmRing.step feed.ring .producer
        unsent := match feed.ring.producer with
          | .advertise _ => some feed.ring.published.length
          | _ => feed.unsent }
  | .ring (.retainLatest _) => feed
  | .ring (.consumer party) =>
      { feed with
        ring := ShmRing.step feed.ring (.consumer party)
        shown := Function.update feed.shown party (feed.shown party ++
          (retains feed.ring party).toList.map fun number => (feed.handling party, number)) }
  | .ring action => { feed with ring := ShmRing.step feed.ring action }
  | .send =>
      match feed.unsent with
      | some number => { feed with unsent := none, sent := feed.sent ++ [number] }
      | none => feed
  | .handle party announced =>
      if announced ∈ feed.sent ∧ feed.ring.consumer party = .idle then
        { feed with
          ring := ShmRing.step feed.ring (.retainLatest party)
          handling := Function.update feed.handling party announced }
      else feed

end Chappe.ShmRing
