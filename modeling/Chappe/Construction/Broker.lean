/-
This file embeds the subscription tables, the routing and the retained values of `server.hpp`.
Each client has a reader thread, and a thread moves by one critical section or one write.
-/

import Chappe.Construction.Transport
import Chappe.Foundation.Registry
import Chappe.Foundation.Table

namespace Chappe
open Foundation

/-- The tables that `subs_mu_` guards, with the names that each client holds. -/
structure Tables (Client : Type) where
  subs : Registry Bytes Client
  patternSubs : Registry Bytes Client
  topics : Client → Finset Bytes
  patterns : Client → Finset Bytes

/-- The place of a reader thread between two critical sections. -/
inductive Thread (Client : Type) where
  | idle
  | registered (topic : Bytes)
  | replaying (topic value : Bytes)
  | routing (frame : Frame) (retain : Bool) (targets remaining : Finset Client)

/-- The daemon with the frames that each client has sent and the frames written to it. -/
structure Broker (Client : Type) where
  tables : Tables Client
  retained : Table Bytes Bytes
  inbox : Client → List Frame
  thread : Client → Thread Client
  sent : Client → List Frame

variable {Client : Type}

def Tables.empty : Tables Client := ⟨∅, ∅, fun _ => ∅, fun _ => ∅⟩

variable [DecidableEq Client]

/-- The locked part of a subscription. -/
def Tables.subscribe (tables : Tables Client) (client : Client) (name : Bytes) : Tables Client :=
  if topicHasWildcard name then
    { tables with
      patternSubs := tables.patternSubs.add name client
      patterns := Function.update tables.patterns client (insert name (tables.patterns client)) }
  else
    { tables with
      subs := tables.subs.add name client
      topics := Function.update tables.topics client (insert name (tables.topics client)) }

def Tables.unsubscribe (tables : Tables Client) (client : Client) (name : Bytes) : Tables Client :=
  if topicHasWildcard name then
    { tables with
      patternSubs := tables.patternSubs.remove name client
      patterns := Function.update tables.patterns client ((tables.patterns client).erase name) }
  else
    { tables with
      subs := tables.subs.remove name client
      topics := Function.update tables.topics client ((tables.topics client).erase name) }

/-- The targets of a publish are the exact subscribers and the matching pattern subscribers. -/
def Tables.targets (tables : Tables Client) (name : Bytes) : Finset Client :=
  tables.subs.members name ∪ tables.patternSubs.matching fun pattern => topicMatches pattern name

def Broker.sendTo (broker : Broker Client) (client : Client) (frame : Frame) : Broker Client :=
  { broker with sent := Function.update broker.sent client (broker.sent client ++ [frame]) }

def Broker.goto (broker : Broker Client) (client : Client) (place : Thread Client) :
    Broker Client :=
  { broker with thread := Function.update broker.thread client place }

/-- The first critical section of `handle_frame` for a publish or a subscription. A publish takes
the snapshot of its targets and later skips its sender. -/
def Broker.begin (broker : Broker Client) (client : Client) (frame : Frame) : Broker Client :=
  match frame.msg with
  | some .subscribe =>
      { broker with tables := broker.tables.subscribe client frame.name }.goto client
        (if topicHasWildcard frame.name then .idle else .registered frame.name)
  | some .unsubscribe =>
      { broker with tables := broker.tables.unsubscribe client frame.name }
  | some .publish =>
      broker.goto client (.routing frame false (broker.tables.targets frame.name)
        ((broker.tables.targets frame.name).erase client))
  | some .publishRetain =>
      broker.goto client (.routing frame true (broker.tables.targets frame.name)
        ((broker.tables.targets frame.name).erase client))
  | _ => broker

/-- The last critical section of a retained publish. -/
def Broker.retain (broker : Broker Client) (frame : Frame) : Broker Client :=
  { broker with
    retained := if frame.payload = [] then broker.retained.erase frame.name
      else broker.retained.insert frame.name frame.payload }

/-- One step of the thread of a client. A routing thread writes to the given target next, because
the order of the target set is the order of addresses. -/
def Broker.step (broker : Broker Client) (action : Client × Client) : Broker Client :=
  match broker.thread action.1 with
  | .idle =>
      match broker.inbox action.1 with
      | [] => broker
      | frame :: rest =>
          Broker.begin { broker with inbox := Function.update broker.inbox action.1 rest }
            action.1 frame
  | .registered topic =>
      match broker.retained topic with
      | some value => broker.goto action.1 (.replaying topic value)
      | none => broker.goto action.1 .idle
  | .replaying topic value =>
      (broker.sendTo action.1 (Msg.publish.frame topic value)).goto action.1 .idle
  | .routing frame retain targets remaining =>
      if action.2 ∈ remaining then
        (broker.sendTo action.2 (Msg.publish.frame frame.name frame.payload)).goto action.1
          (.routing frame retain targets (remaining.erase action.2))
      else if remaining = ∅ then
        (if retain then broker.retain frame else broker).goto action.1 .idle
      else broker

/-- The payload of the last publish on a topic that was written to a client. -/
def Broker.lastPublish (broker : Broker Client) (client : Client) (topic : Bytes) : Option Bytes :=
  (((broker.sent client).filter fun frame =>
    frame.msg = some .publish && frame.name = topic).getLast?).map Frame.payload

end Chappe
