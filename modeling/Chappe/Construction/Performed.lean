/-
This file says which changes of its store a daemon performs in each step, and what it tells a link
that asks for the value of a key.
-/

import Chappe.Construction.Link
import Chappe.Foundation.Run

namespace Chappe
open Foundation

/-- What a change does to the value of its key. -/
def Change.apply (_ : Option Bytes) : Change → Option Bytes
  | .set _ value => some value
  | .del _ => none

/-- The changes of one key. -/
def about (key : Bytes) (changes : List Change) : List Change :=
  changes.filter fun change => change.key = key

/-- What a request performs on the value that it finds. -/
def KvRequest.performed (key : Bytes) (found : Option Bytes) : KvRequest → List Change
  | .set value | .setex _ value => [.set key value]
  | .del => [.del key]
  | .get _ => []
  | .incr _ delta =>
      match found with
      | some value =>
          if value.length ≠ 8 then []
          else [.set key (littleEndian 8 (ofLittleEndian value + delta))]
      | none => [.set key (littleEndian 8 (0 + delta))]
  | .setnx _ _ value =>
      match found with
      | none => [.set key value]
      | some _ => []

variable {Client : Type} [DecidableEq Client]

instance (store : Store Client) (client : Client) (key : Bytes) :
    Decidable (store.Watches client key) := inferInstanceAs (Decidable (_ ∈ _))

/-- The deletion of a key whose deadline has passed. -/
def Store.lapsed (store : Store Client) (key : Bytes) (now : Nat) : List Change :=
  if store.expired key now then [.del key] else []

def Store.performed (store : Store Client) (now : Nat) (frame : Frame) : List Change :=
  match KvRequest.ofFrame frame with
  | none => []
  | some request =>
      if request.checksDeadline then
        store.lapsed frame.name now ++
          request.performed frame.name ((store.dropIfExpired frame.name now).1.kv frame.name)
      else request.performed frame.name (store.kv frame.name)

def Store.sweepPerformed (store : Store Client) (now : Nat) : List Bytes → List Change
  | [] => []
  | key :: rest =>
      store.lapsed key now ++ (store.dropIfExpired key now).1.sweepPerformed now rest

/-- The value with which a get of the key is answered. -/
def Store.seed (store : Store Client) (key : Bytes) (now : Nat) (frame : Frame) : List Change :=
  match KvRequest.ofFrame frame with
  | some (.get _) =>
      if frame.name = key then
        ((store.dropIfExpired key now).1.kv key).toList.map (.set key)
      else []
  | _ => []

/-- The changes of the key that the daemon of a side performs in a step. -/
def Federation.performed (key : Bytes) (side : Side) (federation : Federation Client) :
    FederationAction Client → List Change
  | .client here _ frame now _ =>
      if here = side then about key ((federation.device side).store.performed now frame) else []
  | .sweep here order now =>
      let store := (federation.device side).store
      if here = side then
        about key (store.sweepPerformed now (order.filter fun name => store.expired name now))
      else []
  | .serve here source now _ =>
      if here = side then
        match (federation.device side).uplink source with
        | [] => []
        | frame :: _ => about key ((federation.device side).store.performed now frame)
      else []
  | _ => []

/-- The value of the key with which the daemon of a side answers its link in a step. -/
def Federation.seeded (key : Bytes) (side : Side) (federation : Federation Client) :
    FederationAction Client → List Change
  | .serve here source now _ =>
      if here = side ∧ source = federation.session then
        match (federation.device side).uplink source with
        | [] => []
        | frame :: _ => (federation.device side).store.seed key now frame
      else []
  | _ => []

/-- The changes of the key that the daemon of a side performs in a run. -/
def Federation.history (config : Side → LinkConfig) (key : Bytes) (side : Side) :
    Federation Client → List (FederationAction Client) → List Change :=
  collect (Federation.step config) (Federation.performed key side)

/-- What the daemon of a side owes to its link in a step: the changes of the key that it performs
while the link watches the key, and the value of the key at each get of the link. -/
def Federation.owes (key : Bytes) (side : Side) (federation : Federation Client)
    (action : FederationAction Client) : List Change :=
  (if (federation.device side).store.Watches (.inl federation.session) key then
    federation.performed key side action else []) ++ federation.seeded key side action

def Federation.owed (config : Side → LinkConfig) (key : Bytes) (side : Side) :
    Federation Client → List (FederationAction Client) → List Change :=
  collect (Federation.step config) (Federation.owes key side)

/-- The value of the key when the watch of the link is registered, and every later change. -/
def Federation.sinceWatch (config : Side → LinkConfig) (key : Bytes) (side : Side) :
    Federation Client → List (FederationAction Client) → List Change :=
  collect (Federation.step config) fun federation action =>
    if (federation.device side).store.Watches (.inl federation.session) key then
      federation.performed key side action
    else federation.seeded key side action

end Chappe
