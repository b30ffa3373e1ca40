/-
This file embeds a frame topic of `node.hpp`: producers that come and go on the ring of the topic,
and a consumer node that attaches on its first frame handle and remembers the mapping. The node of
the Python package does the same.
-/

import Chappe.Construction.Segment

namespace Chappe.Segment

/-- A view that the handler was given, with the instance that sent the handle, the segment of the
slot, and the instance that wrote the frame. -/
structure View where
  handle : Nat
  inode : Nat
  author : Nat
  deriving DecidableEq

/-- A frame topic with the calls on its name. Each create that takes the lock is an instance with
the next number, and its ring lives in its home segment. A segment has the author of its newest
ready frame, with the geometry that the frame was written with. An instance that has published into
the ring still announces the frame, and a handle is in flight, waits for the attach in `ring_for`,
or has a ring to retain from. -/
structure Topic (Process : Type) where
  ring : State Process Unit
  turn : Nat
  stamp : Process → Nat
  home : Nat → Nat
  latest : Nat → Option (Nat × Layout)
  announcing : Process → Option Nat
  handles : List Nat
  attaching : Option Nat
  retaining : List Nat
  views : List View

/-- A handler that retains with a geometry other than the one of the frame reads whatever bytes lie
there, given as the author that they come from. -/
inductive TopicAction (Process : Type) where
  | segment (action : Action Process Unit)
  | publish (process : Process)
  | announce (process : Process)
  | ringFor (handle : Nat)
  | retain (handle : Nat) (garbled : Option Nat)

variable {Process : Type}

def Topic.initial : Topic Process where
  ring := Segment.initial
  turn := 0
  stamp := fun _ => 0
  home := fun _ => 0
  latest := fun _ => none
  announcing := fun _ => none
  handles := []
  attaching := none
  retaining := []
  views := []

/-- The end of an attach. The handle that waits for it gets the ring, or is dropped. -/
def Topic.attachEnd (topic : Topic Process) : Topic Process :=
  match topic.ring.reader () with
  | .attached _ _ _ =>
      { topic with attaching := none, retaining := topic.retaining ++ topic.attaching.toList }
  | .idle => { topic with attaching := none }
  | _ => topic

/-- The function `retain_latest` on the remembered mapping, and the handler. -/
def Topic.retain (topic : Topic Process) (handle : Nat) (garbled : Option Nat) : Topic Process :=
  let given (inode author : Nat) : Topic Process :=
    { topic with
      retaining := topic.retaining.erase handle
      views := topic.views ++ [⟨handle, inode, author⟩] }
  let dropped : Topic Process := { topic with retaining := topic.retaining.erase handle }
  match topic.ring.reader () with
  | .attached inode _ layout =>
      match topic.latest inode with
      | none => dropped
      | some (author, written) =>
          if written = layout then given inode author
          else
            match garbled with
            | some author => given inode author
            | none => dropped
  | _ => topic

/-- The function `ring_for` returns the remembered ring or starts an attach under its lock. -/
def Topic.ringFor (topic : Topic Process) (handle : Nat) : Topic Process :=
  match topic.ring.reader () with
  | .attached _ _ _ =>
      { topic with
        handles := topic.handles.erase handle
        retaining := topic.retaining ++ [handle] }
  | .idle =>
      { topic with
        ring := topic.ring.read () .opening
        handles := topic.handles.erase handle
        attaching := some handle }
  | _ => topic

variable [DecidableEq Process]

/-- What a step of a create does to the instances and to the frames: the lock makes a new instance,
and the stores of `last_ready` and of the slots leave no frame. -/
def Topic.advance (topic : Topic Process) (process : Process) (ok : Bool) : Topic Process :=
  match topic.ring.place process with
  | .opened _ inode =>
      if ok ∧ topic.ring.lock inode = none then
        { topic with
          turn := topic.turn + 1
          stamp := Function.update topic.stamp process topic.turn
          home := Function.update topic.home topic.turn inode }
      else topic
  | .building _ inode .clearSlots =>
      { topic with latest := Function.update topic.latest inode none }
  | _ => topic

/-- The node keeps its mapping as long as it lives. -/
def Topic.segmentStep (topic : Topic Process) (action : Action Process Unit) : Topic Process :=
  match action with
  | .process process ok =>
      { topic.advance process ok with ring := step topic.ring (.process process ok) }
  | .consumer consumer ok =>
      Topic.attachEnd { topic with ring := step topic.ring (.consumer consumer ok) }
  | .detach _ => topic
  | action => { topic with ring := step topic.ring action }

/-- The publish of a frame into the ring of a live producer. -/
def Topic.publish (topic : Topic Process) (process : Process) : Topic Process :=
  match topic.ring.place process with
  | .building layout inode .ready =>
      { topic with
        latest := Function.update topic.latest inode (some (topic.stamp process, layout))
        announcing := Function.update topic.announcing process (some (topic.stamp process)) }
  | _ => topic

/-- The frame handle goes to the consumer unless the producer has died. -/
def Topic.announce (topic : Topic Process) (process : Process) : Topic Process :=
  if topic.ring.place process = .dead then topic
  else
    { topic with
      handles := topic.handles ++ (topic.announcing process).toList
      announcing := Function.update topic.announcing process none }

def Topic.step (topic : Topic Process) : TopicAction Process → Topic Process
  | .segment action => topic.segmentStep action
  | .publish process => topic.publish process
  | .announce process => topic.announce process
  | .ringFor handle => if handle ∈ topic.handles then topic.ringFor handle else topic
  | .retain handle garbled =>
      if handle ∈ topic.retaining then topic.retain handle garbled else topic

end Chappe.Segment
