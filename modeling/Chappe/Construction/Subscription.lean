/-
This file embeds the subscriptions of a node and the connection that carries them to the daemon.
The node is the one of `node.hpp` and, with the names of Python, the one of `chappe/__init__.py`.
-/

import Chappe.Construction.Broker
import Mathlib.Data.List.Perm.Basic

namespace Chappe
open Foundation

/-- A handler table such as `subs_`. A name without handlers has no entry. -/
abbrev Handlers (Name Handler : Type) := Finmap fun _ : Name => List Handler

/-- The connection of a node. Each connection is a client of its own to the daemon, and the queue
has the frames that the node wrote and the daemon has not read. -/
structure Connection where
  up : Bool
  epoch : Nat
  queue : Nat → List Frame
  tables : Tables Nat

def Connection.initial : Connection := ⟨false, 0, fun _ => [], .empty⟩

/-- The function `send` drops a frame while there is no descriptor. -/
def Connection.send (link : Connection) (frame : Frame) : Connection :=
  if link.up then
    { link with queue := Function.update link.queue link.epoch (link.queue link.epoch ++ [frame]) }
  else link

def Connection.drop (link : Connection) : Connection := { link with up := false }

def Connection.connect (link : Connection) : Connection :=
  { link with up := true, epoch := link.epoch + 1 }

/-- The names that the daemon holds for a client. -/
def Tables.names (tables : Tables Nat) (client : Nat) : Finset Bytes :=
  tables.topics client ∪ tables.patterns client

/-- The subscription cases of `handle_frame`. -/
def Tables.handleFrame (tables : Tables Nat) (client : Nat) (frame : Frame) : Tables Nat :=
  match frame.msg with
  | some .subscribe => tables.subscribe client frame.name
  | some .unsubscribe => tables.unsubscribe client frame.name
  | _ => tables

/-- The daemon reads the next frame of a connection. Its reader stops for good at a name that is
longer than a frame may have. -/
def Connection.handle (link : Connection) (client : Nat) : Connection :=
  match link.queue client with
  | [] => link
  | frame :: rest =>
      if frame.name.length ≤ maxFrameBytes then
        { link with
          queue := Function.update link.queue client rest
          tables := link.tables.handleFrame client frame }
      else link

variable {Name Handler : Type} [DecidableEq Name]

/-- The locked part of a subscription. The flag says that this is the first handler. -/
def Handlers.register (table : Handlers Name Handler) (name : Name) (handler : Handler) :
    Handlers Name Handler × Bool :=
  (table.insert name ((table.lookup name).getD [] ++ [handler]),
    ((table.lookup name).getD []).isEmpty)

/-- The two handler tables of a node with its connection. -/
structure Session (Name Handler : Type) where
  subs : Handlers Name Handler
  patternSubs : Handlers Name Handler
  link : Connection

/-- The calls of a node and the reads of the daemon, each of them complete. -/
inductive SessionAction (Name Handler : Type) where
  | subscribe (name : Name) (handler : Handler)
  | subscribePattern (name : Name) (handler : Handler)
  | unsubscribe (name : Name)
  | unsubscribePattern (name : Name)
  | drop
  | connect (order : List Name)
  | handle (client : Nat)

def Session.initial : Session Name Handler := ⟨∅, ∅, .initial⟩

/-- The names with a handler. -/
def Session.keys (session : Session Name Handler) : Finset Name :=
  session.subs.keys ∪ session.patternSubs.keys

variable (encode : Name → Option Bytes)

/-- One frame about a name. A name that has no bytes on the wire raises in its caller. -/
def Connection.tell (link : Connection) (msg : Msg) (name : Name) : Connection :=
  match encode name with
  | some bytes => link.send (msg.frame bytes [])
  | none => link

/-- The sends of `resubscribe`. The first name that raises ends it. -/
def Connection.resubscribe (link : Connection) : List Name → Connection
  | [] => link
  | name :: rest =>
      match encode name with
      | some bytes => (link.send (Msg.subscribe.frame bytes [])).resubscribe rest
      | none => link

/-- A call of `subscribe` on one of the tables. -/
def Connection.afterRegister (link : Connection) (name : Name) (first : Bool) : Connection :=
  if first then link.tell encode .subscribe name else link

/-- One step of a session. The order of a hash table is an argument. -/
def Session.step (session : Session Name Handler) :
    SessionAction Name Handler → Session Name Handler
  | .subscribe name handler =>
      { session with
        subs := (session.subs.register name handler).1
        link := session.link.afterRegister encode name (session.subs.register name handler).2 }
  | .subscribePattern name handler =>
      { session with
        patternSubs := (session.patternSubs.register name handler).1
        link := session.link.afterRegister encode name
          (session.patternSubs.register name handler).2 }
  | .unsubscribe name =>
      if name ∈ session.subs then
        { session with
          subs := session.subs.erase name
          link := session.link.tell encode .unsubscribe name }
      else session
  | .unsubscribePattern name =>
      if name ∈ session.patternSubs then
        { session with
          patternSubs := session.patternSubs.erase name
          link := session.link.tell encode .unsubscribe name }
      else session
  | .drop => { session with link := session.link.drop }
  | .connect order =>
      if session.link.up = false ∧
          (order : Multiset Name) = session.subs.keys.val + session.patternSubs.keys.val then
        { session with link := session.link.connect.resubscribe encode order }
      else session
  | .handle client => { session with link := session.link.handle client }

/-- The names of `node.hpp` are byte strings. -/
def cppName (name : Bytes) : Option Bytes := some name

/-- A code point of a Python string. -/
abbrev CodePoint := Fin 0x110000

instance codePoint_neZero : NeZero 0x110000 := ⟨by decide⟩

/-- A surrogate is not a character. -/
def CodePoint.char (point : CodePoint) : Option Char :=
  if valid : point.val.isValidChar then some (Char.ofNatAux point.val valid) else none

/-- The bytes that `str.encode` gives, which raises for a lone surrogate. The length field of a
frame raises for a name of four gibibytes. -/
def pythonName (name : List CodePoint) : Option Bytes :=
  match name.mapM CodePoint.char with
  | none => none
  | some chars =>
      let bytes := chars.flatMap String.utf8EncodeChar
      if bytes.length < 2 ^ 32 then some bytes else none

/-- A thread of the node has frames to send, or it is about to copy the names that it subscribes
again. A thread without frames is idle. -/
inductive Place where
  | sending (frames : List Frame)
  | resubscribing

/-- The frames that a thread has still to send. -/
def Place.frames : Place → List Frame
  | .sending frames => frames
  | .resubscribing => []

/-- The exact subscriptions of a node whose threads run at the same time. -/
structure Threads (Actor Handler : Type) where
  subs : Handlers Bytes Handler
  link : Connection
  place : Actor → Place

inductive ThreadsAction (Actor Handler : Type) where
  | subscribe (actor : Actor) (topic : Bytes) (handler : Handler)
  | unsubscribe (actor : Actor) (topic : Bytes)
  | send (actor : Actor)
  | drop (actor : Actor)
  | connect (actor : Actor)
  | snapshot (actor : Actor) (order : List Bytes)
  | handle (client : Nat)

variable {Actor : Type}

def Threads.initial : Threads Actor Handler := ⟨∅, .initial, fun _ => .sending []⟩

def Threads.isIdle (threads : Threads Actor Handler) (actor : Actor) : Bool :=
  match threads.place actor with
  | .sending [] => true
  | _ => false

/-- One critical section of one thread. The table change of a call and its frame are two steps.
The reader drops the link, connects again, copies the keys and sends them one by one. -/
def Threads.step [DecidableEq Actor] (threads : Threads Actor Handler) :
    ThreadsAction Actor Handler → Threads Actor Handler
  | .subscribe actor topic handler =>
      if threads.isIdle actor then
        { threads with
          subs := (threads.subs.register topic handler).1
          place := Function.update threads.place actor
            (.sending (if (threads.subs.register topic handler).2 then
              [Msg.subscribe.frame topic []] else [])) }
      else threads
  | .unsubscribe actor topic =>
      if threads.isIdle actor ∧ topic ∈ threads.subs then
        { threads with
          subs := threads.subs.erase topic
          place := Function.update threads.place actor
            (.sending [Msg.unsubscribe.frame topic []]) }
      else threads
  | .send actor =>
      match threads.place actor with
      | .sending (frame :: rest) =>
          { threads with
            link := threads.link.send frame
            place := Function.update threads.place actor (.sending rest) }
      | _ => threads
  | .drop actor =>
      if threads.isIdle actor then { threads with link := threads.link.drop } else threads
  | .connect actor =>
      if threads.isIdle actor ∧ threads.link.up = false then
        { threads with
          link := threads.link.connect
          place := Function.update threads.place actor .resubscribing }
      else threads
  | .snapshot actor order =>
      match threads.place actor with
      | .resubscribing =>
          if (order : Multiset Bytes) = threads.subs.keys.val then
            { threads with
              place := Function.update threads.place actor
                (.sending (order.map fun topic => Msg.subscribe.frame topic [])) }
          else threads
      | _ => threads
  | .handle client => { threads with link := threads.link.handle client }

end Chappe
