/-
This file embeds the key and value store of `server.hpp`. Each request runs as one step, because
the daemon holds `kv_mu_` from its first read to its last push.
-/

import Chappe.Construction.Transport
import Chappe.Foundation.Table

namespace Chappe
open Foundation

/-- The frames that one step of the daemon writes to each client, in order. -/
abbrev Outbox (Client : Type) := Client → List Frame

def Outbox.silent {Client : Type} : Outbox Client := fun _ => []

/-- The frames of one step followed by the frames of the next. -/
def Outbox.then {Client : Type} (first second : Outbox Client) : Outbox Client :=
  fun client => first client ++ second client

@[simp] theorem silent_then {Client : Type} (outbox : Outbox Client) :
    Outbox.silent.then outbox = outbox := rfl

/-- One write to one client. -/
def Outbox.sendTo {Client : Type} [DecidableEq Client] (client : Client) (frame : Frame) :
    Outbox Client := fun other => if other = client then [frame] else []

/-- One write to every client of a set. -/
def Outbox.fanOut {Client : Type} [DecidableEq Client] (clients : Option (Finset Client))
    (frame : Frame) : Outbox Client :=
  fun client => if client ∈ clients.getD ∅ then [frame] else []

/-- The requests to the store, as `handle_frame` reads them out of a payload. -/
inductive KvRequest where
  | set (value : Bytes)
  | setex (ttlMs : Nat) (value : Bytes)
  | del
  | get (id : Nat)
  | incr (id delta : Nat)
  | setnx (id ttlMs : Nat) (value : Bytes)
  deriving DecidableEq

/-- A frame that is too short for its kind is ignored. -/
def KvRequest.ofFrame (frame : Frame) : Option KvRequest :=
  match frame.msg with
  | some .kvSet => some (.set frame.payload)
  | some .kvSetex =>
      if frame.payload.length < 4 then none
      else some (.setex (ofLittleEndian (frame.payload.take 4)) (frame.payload.drop 4))
  | some .kvDel => some .del
  | some .kvGet =>
      if frame.payload.length < 4 then none
      else some (.get (ofLittleEndian (frame.payload.take 4)))
  | some .kvIncr =>
      if frame.payload.length < 12 then none
      else some (.incr (ofLittleEndian (frame.payload.take 4))
        (ofLittleEndian ((frame.payload.drop 4).take 8)))
  | some .kvSetnx =>
      if frame.payload.length < 8 then none
      else some (.setnx (ofLittleEndian (frame.payload.take 4))
        (ofLittleEndian ((frame.payload.drop 4).take 4)) (frame.payload.drop 8))
  | _ => none

/-- The payload `[u32 id][u8 flag][value]` of a reply or a result. -/
def answerPayload (id : Nat) (flag : Bool) (value : Bytes) : Bytes :=
  appendU32 [] id ++ (if flag then 1 else 0) :: value

theorem answerPayload_length (id : Nat) (flag : Bool) (value : Bytes) :
    (answerPayload id flag value).length = 5 + value.length := by
  simp [answerPayload, appendU32, littleEndian_length]
  omega

/-- The reply to a get. -/
def kvReply (key : Bytes) (id : Nat) (found : Option Bytes) : Frame :=
  Msg.kvReply.frame key (answerPayload id found.isSome (found.getD []))

/-- The result of an increment or a conditional set. -/
def kvResult (key : Bytes) (id : Nat) (ok : Bool) (value : Bytes) : Frame :=
  Msg.kvResult.frame key (answerPayload id ok value)

/-- The tables that `kv_mu_` guards, with the watched keys of each client. -/
structure Store (Client : Type) where
  kv : Table Bytes Bytes
  watchers : Table Bytes (Finset Client)
  expires : Table Bytes Nat
  keys : Client → Finset Bytes

variable {Client : Type} [DecidableEq Client]

def Store.empty : Store Client := ⟨.empty, .empty, .empty, fun _ => ∅⟩

def Store.pushKvUpdate (store : Store Client) (key value : Bytes) : Outbox Client :=
  .fanOut (store.watchers key) (Msg.kvUpdate.frame key value)

def Store.pushKvDel (store : Store Client) (key : Bytes) : Outbox Client :=
  .fanOut (store.watchers key) (Msg.kvDel.frame key [])

/-- The steady clock counts nanoseconds. -/
def milliseconds (count : Nat) : Nat := count * 1000000

/-- The function `store`, which reads the clock only for a key with a time to live. -/
def Store.store (store : Store Client) (key value : Bytes) (ttlMs now : Nat) :
    Store Client × Outbox Client :=
  ({ store with
      kv := store.kv.insert key value
      expires := if ttlMs ≠ 0 then store.expires.insert key (now + milliseconds ttlMs)
        else store.expires.erase key },
    store.pushKvUpdate key value)

def Store.dropKey (store : Store Client) (key : Bytes) : Store Client × Outbox Client :=
  ({ store with kv := store.kv.erase key, expires := store.expires.erase key },
    store.pushKvDel key)

/-- The deadline of the key has passed. -/
def Store.expired (store : Store Client) (key : Bytes) (now : Nat) : Bool :=
  match store.expires key with
  | none => false
  | some deadline => deadline ≤ now

def Store.dropIfExpired (store : Store Client) (key : Bytes) (now : Nat) :
    Store Client × Outbox Client :=
  if store.expired key now then store.dropKey key else (store, .silent)

/-- The registration of a watch by a get. -/
def Store.watch (store : Store Client) (client : Client) (key : Bytes) : Store Client :=
  { store with
    watchers := store.watchers.insert key (insert client ((store.watchers key).getD ∅))
    keys := Function.update store.keys client (insert key (store.keys client)) }

/-- The counter update of an increment keeps the deadline of the key. -/
def Store.bump (store : Store Client) (client : Client) (key : Bytes) (id current delta : Nat) :
    Store Client × Outbox Client :=
  let value := littleEndian 8 (current + delta)
  ({ store with kv := store.kv.insert key value },
    (store.pushKvUpdate key value).then (.sendTo client (kvResult key id true value)))

/-- The body of each request after the lazy expiry that some of them start with. -/
def Store.answer (store : Store Client) (later : Nat) (client : Client) (key : Bytes) :
    KvRequest → Store Client × Outbox Client
  | .set value => store.store key value 0 later
  | .setex ttlMs value => store.store key value ttlMs later
  | .del => store.dropKey key
  | .get id => (store.watch client key, .sendTo client (kvReply key id (store.kv key)))
  | .incr id delta =>
      match store.kv key with
      | some value =>
          if value.length ≠ 8 then (store, .sendTo client (kvResult key id false []))
          else store.bump client key id (ofLittleEndian value) delta
      | none => store.bump client key id 0 delta
  | .setnx id ttlMs value =>
      match store.kv key with
      | none =>
          ((store.store key value ttlMs later).1,
            (store.store key value ttlMs later).2.then
              (.sendTo client (kvResult key id true [])))
      | some _ => (store, .sendTo client (kvResult key id false []))

/-- The requests that check the deadline of their key first. -/
def KvRequest.checksDeadline : KvRequest → Bool
  | .get _ | .incr _ _ | .setnx _ _ _ => true
  | .set _ | .setex _ _ | .del => false

/-- The key and value cases of `handle_frame`. The clock is read once for the lazy expiry and
once more, not earlier, for the deadline of a new value. -/
def Store.handleFrame (store : Store Client) (now later : Nat) (client : Client) (frame : Frame) :
    Store Client × Outbox Client :=
  match KvRequest.ofFrame frame with
  | none => (store, .silent)
  | some request =>
      if request.checksDeadline then
        let dropped := store.dropIfExpired frame.name now
        let answered := dropped.1.answer later client frame.name request
        (answered.1, dropped.2.then answered.2)
      else store.answer later client frame.name request

/-- The keys of a sweep are dropped one after the other under one lock. -/
def Store.sweepKeys (store : Store Client) (now : Nat) : List Bytes → Store Client × Outbox Client
  | [] => (store, .silent)
  | key :: rest =>
      let dropped := store.dropIfExpired key now
      let swept := dropped.1.sweepKeys now rest
      (swept.1, dropped.2.then swept.2)

/-- One pass of `sweep_loop`. The argument gives the order in which the hash table lists its keys,
and the clock is the one read before the lock was taken. -/
def Store.sweep (store : Store Client) (now : Nat) (order : List Bytes) :
    Store Client × Outbox Client :=
  store.sweepKeys now (order.filter fun key => store.expired key now)

/-- One step of the store: a frame of a client, or a pass of the sweep with the clock value that
it read before the lock. -/
inductive KvEvent (Client : Type) where
  | frame (client : Client) (frame : Frame) (now later : Nat)
  | sweep (order : List Bytes) (read now : Nat)

def Store.step (store : Store Client) : KvEvent Client → Store Client × Outbox Client
  | .frame client frame now later => store.handleFrame now later client frame
  | .sweep order read _ => store.sweep read order

/-- The watch cleanup of `remove_client` erases an entry that has no client left. -/
def Store.removeClient (store : Store Client) (client : Client) : Store Client :=
  { store with
    watchers := fun key =>
      if key ∈ store.keys client then
        match store.watchers key with
        | some clients => if clients.erase client = ∅ then none else some (clients.erase client)
        | none => none
      else store.watchers key }

/-- The client watches the key in the daemon. -/
def Store.Watches (store : Store Client) (client : Client) (key : Bytes) : Prop :=
  client ∈ (store.watchers key).getD ∅

end Chappe
