/-
This file embeds the daemon of `server.hpp` as a whole. Clients come and go, the thread of each
client handles its frames, and a client that leaves is taken out of every table.
-/

import Chappe.Construction.Broker
import Chappe.Construction.Kv
import Mathlib.Data.Finset.Sort

namespace Chappe
open Foundation

/-- The bytes of a text of the status report. -/
def ascii (text : String) : Bytes := text.toList.map fun letter => letter.toNat.toUInt8

/-- The function `std::to_string`. -/
def decimal (number : Nat) : Bytes := ascii number.repr

/-- What `build_info` has read so far for the request with the given identifier. -/
structure Report where
  id : Bytes
  clients : Nat := 0
  topics : List (Bytes × Nat) := []
  patterns : Nat := 0
  retained : Nat := 0
  keys : Nat := 0
  watched : Nat := 0
  expiring : Nat := 0

/-- One line for each topic with its number of subscribers. -/
def Report.topicsDetail (report : Report) : Bytes :=
  report.topics.flatMap fun entry => ascii "\n    " ++ entry.1 ++ ascii "=" ++ decimal entry.2

def Report.subscriptions (report : Report) : Nat := (report.topics.map Prod.snd).sum

/-- The text that `build_info` returns. -/
def Report.text (report : Report) : Bytes :=
  ascii "clients: " ++ decimal report.clients ++ ascii "\n" ++
    (ascii "topics: " ++ decimal report.topics.length ++ ascii " (" ++
      decimal report.subscriptions ++ ascii " subscriptions)" ++ report.topicsDetail ++
      ascii "\n") ++
    (ascii "patterns: " ++ decimal report.patterns ++ ascii "\n") ++
    (ascii "retained: " ++ decimal report.retained ++ ascii "\n") ++
    (ascii "kv_keys: " ++ decimal report.keys ++ ascii "\n") ++
    (ascii "kv_watchers: " ++ decimal report.watched ++ ascii "\n") ++
    (ascii "kv_expiring: " ++ decimal report.expiring)

/-- The next critical section of a status request. -/
inductive Inquiry where
  | clients
  | topics
  | retained
  | keys
  | reply

/-- The next critical section of `remove_client`. -/
inductive Departure where
  | subs
  | watchers
  | socket
  | clients

/-- What the thread of a client does besides the publishes and subscriptions of the broker. -/
inductive Life where
  | absent
  | serving
  | reporting (inquiry : Inquiry) (report : Report)
  | leaving (departure : Departure)
  | gone

/-- The descriptor of the client is open. -/
def Life.connected : Life → Bool
  | .absent | .leaving .clients | .gone => false
  | _ => true

/-- The daemon with the names of all frames handled so far. Every table has entries for these names
only, so they serve to count the entries. -/
structure Daemon (Client : Type) where
  broker : Broker Client
  store : Store Client
  clients : List Client
  life : Client → Life
  named : Finset Bytes

/-- The steps of the daemon. The second client of a thread is the next target of its publish, the
order is the one in which a hash table lists its keys, and the clock is read once for a lazy expiry
and once more for the deadline of a new value. -/
inductive DaemonAction (Client : Type) where
  | connect (client : Client)
  | arrive (client : Client) (frame : Frame)
  | thread (client target : Client) (order : List Bytes) (now later : Nat)
  | hangUp (client : Client)
  | sweep (order : List Bytes) (read : Nat)

variable {Client : Type} [DecidableEq Client]

/-- The part of `remove_client` under `subs_mu_`. -/
def Tables.removeClient (tables : Tables Client) (client : Client) : Tables Client :=
  { tables with
    subs := tables.subs.removeAll ((tables.topics client).sort (· ≤ ·)) client
    patternSubs := tables.patternSubs.removeAll ((tables.patterns client).sort (· ≤ ·)) client }

def Daemon.initial : Daemon Client where
  broker := ⟨.empty, .empty, fun _ => [], fun _ => .idle, fun _ => []⟩
  store := .empty
  clients := []
  life := fun _ => .absent
  named := ∅

def Daemon.become (daemon : Daemon Client) (client : Client) (life : Life) : Daemon Client :=
  { daemon with life := Function.update daemon.life client life }

/-- The function `send_to` writes nothing to a closed descriptor. -/
def Daemon.deliver (daemon : Daemon Client) (outbox : Outbox Client) : Daemon Client :=
  { daemon with
    broker := { daemon.broker with
      sent := fun client =>
        if (daemon.life client).connected then daemon.broker.sent client ++ outbox client
        else daemon.broker.sent client } }

/-- A step of the broker, whose writes to closed descriptors are lost. -/
def Daemon.route (daemon : Daemon Client) (broker : Broker Client) : Daemon Client :=
  { daemon with
    broker := { broker with
      sent := fun client =>
        if (daemon.life client).connected then broker.sent client
        else daemon.broker.sent client } }

/-- The first critical section of `handle_frame`, which is the only one of the key and value
requests. -/
def Daemon.handleFrame (daemon : Daemon Client) (client : Client) (frame : Frame)
    (now later : Nat) : Daemon Client :=
  match frame.msg with
  | some .ping => daemon.deliver (.sendTo client (Msg.pong.frame frame.name frame.payload))
  | some .info =>
      if frame.payload.length < 4 then daemon
      else daemon.become client (.reporting .clients { id := frame.payload.take 4 })
  | some .subscribe | some .unsubscribe | some .publish | some .publishRetain =>
      { daemon with broker := daemon.broker.begin client frame }
  | _ =>
      let handled := daemon.store.handleFrame now later client frame
      { daemon with store := handled.1 }.deliver handled.2

/-- The number of entries of a table. -/
def Daemon.size {Value : Type} (daemon : Daemon Client) (table : Table Bytes Value) : Nat :=
  (daemon.named.filter fun name => (table name).isSome = true).card

/-- The critical sections of `build_info` and the reply. -/
def Daemon.inquire (daemon : Daemon Client) (client : Client) (order : List Bytes)
    (report : Report) : Inquiry → Daemon Client
  | .clients =>
      daemon.become client (.reporting .topics { report with clients := daemon.clients.length })
  | .topics =>
      if order.Nodup ∧ order.toFinset = daemon.broker.tables.subs.keys then
        daemon.become client (.reporting .retained { report with
          topics := order.map fun topic =>
            (topic, (daemon.broker.tables.subs.members topic).card)
          patterns := daemon.broker.tables.patternSubs.keys.card })
      else daemon
  | .retained =>
      daemon.become client (.reporting .keys { report with
        retained := daemon.size daemon.broker.retained })
  | .keys =>
      daemon.become client (.reporting .reply { report with
        keys := daemon.size daemon.store.kv
        watched := daemon.size daemon.store.watchers
        expiring := daemon.size daemon.store.expires })
  | .reply =>
      (daemon.deliver (.sendTo client (Msg.info.frame [] (report.id ++ report.text)))).become client
        .serving

/-- The critical sections of `remove_client`. -/
def Daemon.depart (daemon : Daemon Client) (client : Client) : Departure → Daemon Client
  | .subs =>
      { daemon with broker := { daemon.broker with
          tables := daemon.broker.tables.removeClient client } }.become client (.leaving .watchers)
  | .watchers =>
      { daemon with store := daemon.store.removeClient client }.become client (.leaving .socket)
  | .socket => daemon.become client (.leaving .clients)
  | .clients => { daemon with clients := daemon.clients.erase client }.become client .gone

/-- The next critical section or write of the thread of a client. -/
def Daemon.threadStep (daemon : Daemon Client) (client target : Client) (order : List Bytes)
    (now later : Nat) : Daemon Client :=
  match daemon.life client with
  | .absent | .gone => daemon
  | .serving =>
      match daemon.broker.thread client with
      | .idle =>
          match daemon.broker.inbox client with
          | [] => daemon
          | frame :: rest =>
              Daemon.handleFrame
                { daemon with
                  broker := { daemon.broker with
                    inbox := Function.update daemon.broker.inbox client rest }
                  named := insert frame.name daemon.named }
                client frame now later
      | _ => daemon.route (daemon.broker.step (client, target))
  | .reporting inquiry report => daemon.inquire client order report inquiry
  | .leaving departure => daemon.depart client departure

/-- The reader of a client returns false only between two frames. -/
def Daemon.step (daemon : Daemon Client) : DaemonAction Client → Daemon Client
  | .connect client =>
      match daemon.life client with
      | .absent =>
          { daemon with clients := daemon.clients ++ [client] }.become client .serving
      | _ => daemon
  | .arrive client frame =>
      { daemon with broker := { daemon.broker with
          inbox := Function.update daemon.broker.inbox client
            (daemon.broker.inbox client ++ [frame]) } }
  | .thread client target order now later => daemon.threadStep client target order now later
  | .hangUp client =>
      match daemon.life client, daemon.broker.thread client with
      | .serving, .idle => daemon.become client (.leaving .subs)
      | _, _ => daemon
  | .sweep order read =>
      let swept := daemon.store.sweep read order
      { daemon with store := swept.1 }.deliver swept.2

end Chappe
