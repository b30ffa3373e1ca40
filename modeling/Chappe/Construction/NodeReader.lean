/-
This file embeds the reader thread of `node.hpp` with both of its parts: the tables of the keys and
the calls of the handlers.
-/

import Chappe.Construction.Cache
import Chappe.Construction.Network

namespace Chappe
open Foundation

variable {Client Handler : Type}

/-- What the reader has done: its tables, the answers of the requests and the calls that each
publish made. -/
structure NodeReader (Client : Type) where
  kv : NodeKv
  answers : List (Nat × Option Bytes)
  deliveries : List (List (Invocation Client))

/-- One frame of `read_until_closed`. The receivers of the tables get every payload, since the check
of the codec is in them. The order is the one of `pattern_subs_`. -/
def NodeReader.handle (node : Node Client Handler) (order : List Bytes)
    (reader : NodeReader Client) (frame : Frame) : NodeReader Client :=
  if frame.msg = some .publish then
    { reader with
      deliveries := reader.deliveries ++
        [node.dispatch (fun _ _ => true) order frame.name frame.payload none] }
  else
    { reader with
      kv := (reader.kv.readFrame frame).1
      answers := reader.answers ++ (reader.kv.readFrame frame).2.toList }

/-- The loop of `read_until_closed` over the frames that `next` returns. -/
def NodeReader.handleAll (node : Node Client Handler) (order : Nat → List Bytes)
    (reader : NodeReader Client) (turn : Nat) : List Frame → NodeReader Client
  | [] => reader
  | frame :: rest => (reader.handle node (order turn) frame).handleAll node order (turn + 1) rest

/-- The receiver that a call is for. -/
def Node.receiver (node : Node Client Handler) (call : Registration) : Option Handler :=
  if call.pattern then ((node.patternSubs.lookup call.name).getD [])[call.place]?
  else ((node.subs.lookup call.name).getD [])[call.place]?

end Chappe
