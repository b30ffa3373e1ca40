/-
This file embeds the cache of `node.hpp` beside the requests of a node: `get` on the application
threads, and the reader thread that fills the cache and clears it when the link is lost.
-/

import Chappe.Construction.Requests

namespace Chappe
open Foundation

/-- A node with the tables `kv_cache_` and `kv_watched_`. A get that began while the node was
disconnected has the call that it waits for and the number of connections made so far. The reports
are the results of the gets that also ended before the link was back. -/
structure CachedNode (Thread Client : Type) where
  exchange : Exchange Thread Client
  cache : Table Bytes Bytes
  watched : Finset Bytes
  getting : Thread → Option (Nat × Nat)
  reports : List (Option Bytes)

inductive CachedAction (Thread Client : Type) where
  | exchange (action : ExchangeAction Thread Client)
  | get (thread : Thread) (key : Bytes)

variable {Thread Client : Type}

/-- The flag `connected_` changes with the descriptor. -/
def CachedNode.connected (node : CachedNode Thread Client) : Bool := node.exchange.fd.isSome

def CachedNode.initial (store : Store (Nat ⊕ Client)) : CachedNode Thread Client where
  exchange := .initial store
  cache := .empty
  watched := ∅
  getting := fun _ => none
  reports := []

/-- What a frame does to the cache. -/
def CachedNode.apply (node : CachedNode Thread Client) (frame : Frame) :
    CachedNode Thread Client :=
  let kv := (NodeKv.readFrame ⟨node.cache, node.watched, ∅⟩ frame).1
  { node with cache := kv.cache, watched := kv.watched }

/-- What the next step of the reader thread does to the cache. -/
def CachedNode.reads (node : CachedNode Thread Client) : CachedNode Thread Client :=
  match node.exchange.reader with
  | .reading connection =>
      match node.exchange.unread connection with
      | (_, frame) :: _ => node.apply frame
      | [] => node
  | .clearing _ => { node with cache := .empty, watched := ∅ }
  | _ => node

variable [DecidableEq Thread]

/-- A get that returns from its request is done. -/
def CachedNode.finish (node : CachedNode Thread Client) (thread : Thread) :
    CachedNode Thread Client :=
  match node.getting thread, node.exchange.caller thread with
  | some (call, outage), .idle =>
      { node with
        getting := Function.update node.getting thread none
        reports := if node.connected = false ∧ node.exchange.connections = outage then
          node.reports ++ (node.exchange.returned call).toList else node.reports }
  | _, _ => node

variable [DecidableEq Client]

/-- One step of the requests with its effect on the cache, or the start of a get. -/
def CachedNode.step (node : CachedNode Thread Client) :
    CachedAction Thread Client → CachedNode Thread Client
  | .exchange .reader => { node.reads with exchange := node.exchange.step .reader }
  | .exchange (.thread thread written timeout) =>
      CachedNode.finish
        { node with exchange := node.exchange.step (.thread thread written timeout) } thread
  | .exchange action => { node with exchange := node.exchange.step action }
  | .get thread key =>
      match node.exchange.caller thread with
      | .idle =>
          if key ∈ node.watched then
            { node with
              reports := if node.connected then node.reports
                else node.reports ++ [node.cache key] }
          else
            { node with
              exchange := node.exchange.step (.call thread ⟨.kvGet, key, []⟩)
              getting := Function.update node.getting thread
                (if node.connected then none
                  else some (node.exchange.nextReq, node.exchange.connections)) }
      | _ => node

end Chappe
