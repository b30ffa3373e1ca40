/-
This file embeds `send_to` and `remove_client` of `server.hpp` and `write_full` of `transport.hpp`
for one client of the daemon. Each call of `send` is one step.
-/

import Chappe.Construction.Transport

namespace Chappe.ClientStream
open Foundation

/-- What one call of `send` does. It accepts at least one byte and at most what it is given. -/
inductive Send where
  | accepted (count : Nat)
  | interrupted
  | failed

/-- What a thread does with the lock `send_mu` of the client. -/
inductive Job where
  | sendTo (call : Nat) (frame : Frame)
  | close
  | shutdown

inductive Place where
  | idle
  | waiting (job : Job)
  | locked (job : Job)
  | writing (call : Nat) (frame : Frame) (off : Nat)
  | failed
  | unlocking

/-- The socket of one client and the threads of the daemon. The field `wire` has the bytes that the
socket accepted. The frames that were written whole, the further frame with the number of its bytes
on the wire, and whether a write has failed, are a history. -/
structure Line (Thread : Type) where
  opened : Bool
  down : Bool
  sendMu : Option Thread
  place : Thread → Place
  wire : Bytes
  calls : List Frame
  whole : List (Nat × Frame)
  further : Option (Nat × Frame × Nat)
  cut : Bool

inductive Action (Thread : Type) where
  | sendTo (thread : Thread) (frame : Frame)
  | removeClient (thread : Thread)
  | stop (thread : Thread)
  | thread (thread : Thread) (event : Send)

variable {Thread : Type}

def initial : Line Thread where
  opened := true
  down := false
  sendMu := none
  place := fun _ => .idle
  wire := []
  calls := []
  whole := []
  further := none
  cut := false

/-- The buffer that `send_to` builds. -/
def bufOf (frame : Frame) : Bytes := buildFrame frame.kind frame.name frame.payload

variable [DecidableEq Thread]

def Line.goto (line : Line Thread) (thread : Thread) (place : Place) : Line Thread :=
  { line with place := Function.update line.place thread place }

/-- The loop of `write_full`. After a shutdown every call of `send` fails. -/
def Line.writeStep (line : Line Thread) (thread : Thread) (call : Nat) (frame : Frame) (off : Nat)
    (event : Send) : Line Thread :=
  match (if line.down then .failed else event : Send) with
  | .interrupted => line
  | .failed =>
      { line with
        cut := true
        further := some (line.further.getD (call, frame, off)) }.goto thread .failed
  | .accepted count =>
      let accepted := min (max count 1) ((bufOf frame).length - off)
      let wire := line.wire ++ ((bufOf frame).drop off).take accepted
      if off + accepted < (bufOf frame).length then
        { line with wire := wire, further := some (call, frame, off + accepted) }.goto thread
          (.writing call frame (off + accepted))
      else
        { line with
          wire := wire
          whole := line.whole ++ [(call, frame)]
          further := none }.goto thread .unlocking

/-- The next step of a thread that waits for `send_mu` or holds it. -/
def Line.threadStep (line : Line Thread) (thread : Thread) (event : Send) : Line Thread :=
  match line.place thread with
  | .idle => line
  | .waiting job =>
      if line.sendMu = none then { line with sendMu := some thread }.goto thread (.locked job)
      else line
  | .locked (.sendTo call frame) =>
      line.goto thread (if line.opened then .writing call frame 0 else .unlocking)
  | .locked .close => { line with opened := false }.goto thread .unlocking
  | .locked .shutdown => { line with down := line.down || line.opened }.goto thread .unlocking
  | .writing call frame off => line.writeStep thread call frame off event
  | .failed => { line with down := true }.goto thread .unlocking
  | .unlocking => { line with sendMu := none }.goto thread .idle

def step (line : Line Thread) : Action Thread → Line Thread
  | .sendTo thread frame =>
      match line.place thread with
      | .idle =>
          { line with calls := line.calls ++ [frame] }.goto thread
            (.waiting (.sendTo line.calls.length frame))
      | _ => line
  | .removeClient thread =>
      match line.place thread with
      | .idle => line.goto thread (.waiting .close)
      | _ => line
  | .stop thread =>
      match line.place thread with
      | .idle => line.goto thread (.waiting .shutdown)
      | _ => line
  | .thread thread event => line.threadStep thread event

/-- The bytes of the further frame that are on the wire. -/
def Line.tail (line : Line Thread) : Bytes :=
  match line.further with
  | none => []
  | some (_, frame, count) => (bufOf frame).take count

end Chappe.ClientStream
