/-
This file says which changes the daemon of a bus performs in a run, and what a node sees of the
store in its cache.
-/

import Chappe.Construction.Cache
import Chappe.Construction.Performed

namespace Chappe
open Foundation

/-- The values of the keys after the changes. -/
def afterChanges (changes : List Change) (kv : Table Bytes Bytes) : Table Bytes Bytes :=
  fun key => (about key changes).foldl Change.apply (kv key)

/-- What the tables `kv_cache_` and `kv_watched_` of a node say about the store. -/
structure CacheView where
  cache : Table Bytes Bytes
  watched : Finset Bytes

def NodeKv.view (node : NodeKv) : CacheView := ⟨node.cache, node.watched⟩

/-- The node answers every key that it watches as the values say. -/
def CacheView.Shows (view : CacheView) (kv : Table Bytes Bytes) : Prop :=
  ∀ key ∈ view.watched, view.cache key = kv key

variable {Node : Type} [DecidableEq Node]

/-- The changes of the store that the daemon performs in a step. -/
def Bus.performed (bus : Bus Node) : BusAction Node → List Change
  | .handle client now _ _ =>
      match bus.uplink client, bus.served client with
      | [], _ | _, .removed => []
      | frame :: _, _ => bus.store.performed now frame
  | .sweep order now _ =>
      bus.store.sweepPerformed now (order.filter fun key => bus.store.expired key now)
  | _ => []

/-- The changes of the store that the daemon performs in a run. -/
def Bus.history (bus : Bus Node) (actions : List (BusAction Node)) : List Change :=
  collect Bus.step Bus.performed bus actions

end Chappe
