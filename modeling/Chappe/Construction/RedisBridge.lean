/-
This file embeds the topics of `redis_bridge.py`: the set-up of `Bridge.run`, the two callbacks and
the connection to Redis.
-/

import Chappe.Construction.PythonNode

namespace Chappe
open Foundation

/-- The arguments of a bridge. The inbound patterns have the namespace in front already. The globs
are the one of Python, from a channel and a pattern, and the one of Redis, from a pattern and a
channel. -/
structure BridgeConfig where
  leading : List Char
  outPatterns : List (List Char)
  inbound : List (List Char)
  fnmatchcase : List Char → List Char → Bool
  stringmatch : Bytes → Bytes → Bool

/-- Who published a message to Redis, with its number. -/
inductive Origin where
  | bridge (number : Nat)
  | other (number : Nat)
  deriving DecidableEq

/-- A `pmessage` of Redis. -/
structure Pmessage where
  origin : Origin
  channel : Bytes
  data : Bytes

/-- A bridge with its connection. The subscribed patterns are the first of the outbound ones. The
reader of the node is about to make the calls of `_to_redis` and to send one message that it has
counted. The reader of Redis has the arrivals before it and one message in hand for the bus. -/
structure Bridge where
  subscribed : Nat
  listening : Bool
  echo : List Char × Bytes → Nat
  calls : List (List Char × Bytes)
  sending : Option (List Char × Bytes)
  sent : Nat
  arrivals : List Pmessage
  hand : Option Pmessage
  running : Bool
  bus : List Pmessage
  published : Nat
  covered : List Nat

def Bridge.initial : Bridge where
  subscribed := 0
  listening := false
  echo := fun _ => 0
  calls := []
  sending := none
  sent := 0
  arrivals := []
  hand := none
  running := true
  bus := []
  published := 0
  covered := []

/-- A step of `Bridge.run`, a publish that the bus delivers to the node, a step of the node's reader
in `_to_redis`, a publish of another client of Redis, and a step of `_redis_reader`. -/
inductive BridgeAction where
  | run
  | deliver (topic : List Char) (payload : Bytes)
  | toRedis
  | publish (channel data : Bytes)
  | fromRedis

/-- Redis keeps a pattern once. -/
def BridgeConfig.matching (config : BridgeConfig) (channel : Bytes) : Nat :=
  (config.inbound.dedup.filter fun pattern =>
    config.stringmatch (encodeChars pattern) channel).length

/-- Some inbound pattern covers the channel by the glob of Python. -/
def BridgeConfig.counts (config : BridgeConfig) (channel : List Char) : Bool :=
  config.inbound.any (config.fnmatchcase channel)

/-- The messages that Redis sends for a publish, one for each pattern that matches. -/
def Bridge.echoes (config : BridgeConfig) (bridge : Bridge) (message : Pmessage) : List Pmessage :=
  if bridge.listening then List.replicate (config.matching message.channel) message else []

/-- The next step of `Bridge.run`. -/
def Bridge.setUp (config : BridgeConfig) (bridge : Bridge) : Bridge :=
  if bridge.subscribed < config.outPatterns.length then
    { bridge with subscribed := bridge.subscribed + 1 }
  else { bridge with listening := !config.inbound.isEmpty }

/-- The next step in `_to_redis`: the count of the echo, or the publish. -/
def Bridge.toRedis (config : BridgeConfig) (bridge : Bridge) : Bridge :=
  match bridge.sending with
  | some (channel, payload) =>
      { bridge with
        sending := none
        sent := bridge.sent + 1
        arrivals := bridge.arrivals ++
          bridge.echoes config ⟨.bridge bridge.sent, encodeChars channel, payload⟩ }
  | none =>
      match bridge.calls with
      | [] => bridge
      | (topic, payload) :: rest =>
          let channel := config.leading ++ topic
          { bridge with
            calls := rest
            sending := some (channel, payload)
            echo := if config.counts channel then
              Function.update bridge.echo (channel, payload) (bridge.echo (channel, payload) + 1)
            else bridge.echo }

/-- The next step of `_redis_reader`: the publish on the bus, or the start of `_from_redis`. A
channel that does not decode ends the thread. -/
def Bridge.fromRedis (config : BridgeConfig) (bridge : Bridge) : Bridge :=
  if bridge.running then
    match bridge.hand, bridge.arrivals with
    | some message, _ => { bridge with hand := none, bus := bridge.bus ++ [message] }
    | none, [] => bridge
    | none, message :: rest =>
        match decodeChars message.channel with
        | none => { bridge with arrivals := rest, running := false }
        | some channel =>
            if 0 < bridge.echo (channel, message.data) then
              { bridge with
                arrivals := rest
                echo := Function.update bridge.echo (channel, message.data)
                  (bridge.echo (channel, message.data) - 1) }
            else if config.leading.isPrefixOf channel then
              { bridge with arrivals := rest, hand := some message }
            else { bridge with arrivals := rest }
  else bridge

/-- A channel of the namespace that an inbound pattern covers in Redis. -/
def BridgeConfig.covers (config : BridgeConfig) (channel : Bytes) : Bool :=
  (encodeChars config.leading).isPrefixOf channel && decide (0 < config.matching channel)

def Bridge.step (config : BridgeConfig) (bridge : Bridge) : BridgeAction → Bridge
  | .run => bridge.setUp config
  | .deliver topic payload =>
      { bridge with
        calls := bridge.calls ++ ((config.outPatterns.take bridge.subscribed).filter
          fun pattern => pythonTopicMatches (pointsOf pattern) (pointsOf topic)).map
            fun _ => (topic, payload) }
  | .toRedis => bridge.toRedis config
  | .publish channel data =>
      { bridge with
        published := bridge.published + 1
        arrivals := bridge.arrivals ++
          bridge.echoes config ⟨.other bridge.published, channel, data⟩
        covered := if bridge.listening && config.covers channel then
          bridge.covered ++ [bridge.published] else bridge.covered }
  | .fromRedis => bridge.fromRedis config

end Chappe
