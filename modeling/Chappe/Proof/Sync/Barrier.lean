/-
This file proves that the `sync` of a node is a barrier in both directions, and what follows for a
`get` after a `set` and for the handlers of a subscriber.
-/

import Chappe.Construction.Outage
import Chappe.Proof.Sync.Dispatched

namespace Chappe
open Foundation

variable {Client Handler : Type} [DecidableEq Client]

/-- The PONG of a `sync` that has returned is a frame that the reader has taken. -/
theorem Fleet.Sound.pong {fleet : Fleet Client Handler} (sound : fleet.Sound) {client : Client}
    {number : Nat} (synced : fleet.Synced client number) :
    ∃ ping place cause, (fleet.sent client)[number]? = some ping ∧
      (fleet.network.wire client)[place]? =
        some (Msg.pong.frame ping.name ping.payload, cause) ∧
      place < (fleet.network.node client).taken := by
  obtain ⟨ping, place, sent, kind, answered, taken⟩ := synced
  obtain ⟨frame, answer, cause, handled, there, answers⟩ :=
    sound.answered client place number answered
  have same : frame = ping := by
    rw [Fleet.sent, List.getElem?_append_left (List.getElem?_eq_some_iff.mp handled).1,
      handled] at sent
    exact Option.some.inj sent
  subst frame
  exact ⟨ping, place, cause, sent, answers.1 kind ▸ there, taken⟩

theorem after_append (accepts : Handler → Bytes → Bool)
    (first second : List (NetworkAction Client Handler)) :
    Fleet.after accepts (first ++ second) =
      run (Fleet.step accepts) (Fleet.after accepts first) second := run_append ..

/-- A `sync` that has its PONG is a barrier. The daemon has handled the frames of the node before it
to the end, and the reader has taken what the daemon wrote before it took the PING. A `get` after it
that is answered finds what an earlier `set` of the node stored or what a later change left, on the
same connection or on a later one. And a handler of another node that has done its own `sync` since
then has been called once for each publish before it that the handler wants. -/
theorem sync_barrier (accepts : Handler → Bytes → Bool) :
    let fleet : List (NetworkAction Client Handler) → Fleet Client Handler := Fleet.after accepts
    (∀ earlier later client number, (fleet (earlier ++ later)).Synced client number →
      (∃ ping place cause,
        ((fleet (earlier ++ later)).sent client)[number]? = some ping ∧
        ((fleet (earlier ++ later)).network.wire client)[place]? =
          some (Msg.pong.frame ping.name ping.payload, cause) ∧
        place < ((fleet (earlier ++ later)).network.node client).taken) ∧
      number < (fleet (earlier ++ later)).finished client ∧
      (((fleet earlier).handled client).length ≤ number →
        ((fleet earlier).network.wire client).length ≤
          ((fleet (earlier ++ later)).network.node client).taken)) ∧
    (∀ actions more client number place frame value, (fleet actions).Synced client number →
      place < number → ((fleet actions).sent client)[place]? = some frame →
      frame.stores = some value →
        ∃ before since, (fleet (actions ++ more)).changes =
            before ++ ⟨.set frame.name value, some (client, place)⟩ :: since ∧
          ∀ other, (other = client ∨ (fleet actions).network.wire other = []) →
            (∀ found, ((fleet (actions ++ more)).kv other).get frame.name = some found →
              Left frame.name value since found) ∧
            ∀ request found, ((fleet actions).sent other).length ≤ request →
              (fleet (actions ++ more)).Replied other request frame.name found →
                Left frame.name value since found) ∧
    (∀ first second third sender client handler fence number, client ≠ sender →
      (fleet first).network.Subscribed client handler →
      (∀ action ∈ second ++ third, ¬ action.Drops client handler.name) →
      (fleet (first ++ second)).Synced sender fence →
      (fleet (first ++ second ++ third)).Synced client number →
      ((fleet (first ++ second)).sent client).length ≤ number →
        let base := ((fleet first).network.routed sender).length
        let published := (fleet (first ++ second)).published (fleet first) sender fence
        (((fleet (first ++ second ++ third)).network.node client).callsOf handler sender
            base).filter (fun call => decide (call.1 ≤ base + published.length)) =
          ((fleet first).network.node client).wanted accepts handler base published) := by
  refine ⟨?_, ?_, ?_⟩
  · intro earlier later client number synced
    have sound : (Fleet.after accepts (earlier ++ later)).Sound := Fleet.Sound.reach accepts _
    have grows : (Fleet.after accepts earlier).Extends
        (Fleet.after accepts (earlier ++ later)) := by
      rw [after_append]
      exact .run accepts later _
    refine ⟨sound.pong synced, sound.finished synced, ?_⟩
    exact fun before => ((Fleet.Sound.reach accepts earlier).read grows synced before).le
  · intro actions more client number place frame value synced earlier sent stores
    exact synced_reads accepts synced earlier sent stores
  · intro first second third sender client handler fence number different subscribed keeps flushed
      synced after
    rw [List.append_assoc] at synced ⊢
    rw [after_append] at flushed synced after ⊢
    rw [after_append]
    exact synced_calls accepts (Fleet.Sound.reach accepts first)
      (run_invariant (Fleet.Counted.step accepts) first _ .initial) different subscribed keeps
      flushed synced after

/-- The node `true` subscribes. -/
def barrierStart : List (NetworkAction Bool Unit) :=
  [.daemon (.connect true), .daemon (.connect false), .subscribe true [97] (), .send true 0,
    .daemon (.thread true true [] 0 0), .daemon (.thread true true [] 0 0)]

/-- The node `false` sets a key, publishes, and does its `sync`. -/
def barrierFence : List (NetworkAction Bool Unit) :=
  [.request false (Msg.kvSet.frame [107] [5]), .publish false [97] [1] false,
    .request false (Msg.ping.frame [] [0, 0, 0, 0]), .daemon (.thread false true [] 0 0),
    .daemon (.thread false true [] 0 0), .daemon (.thread false true [] 0 0),
    .daemon (.thread false true [] 0 0), .daemon (.thread false true [] 0 0), .read false []]

/-- The node `true` does its `sync`, and the node `false` gets the key. -/
def barrierEnd : List (NetworkAction Bool Unit) :=
  [.request true (Msg.ping.frame [] [0, 0, 0, 0]), .daemon (.thread true true [] 0 0),
    .read true [], .read true [], .request false (Msg.kvGet.frame [107] [1, 0, 0, 0]),
    .daemon (.thread false true [] 0 0), .read false []]

theorem barrierStart_subscribed :
    (Fleet.after (fun _ _ => true) barrierStart).network.Subscribed true ⟨false, [97], 0⟩ := by
  have none {frames : List Frame} (empty : frames = []) :
      ∀ frame ∈ frames, ¬ frame.Drops [97] := by
    rw [empty]
    exact fun _ member => absurd member List.not_mem_nil
  exact ⟨by decide +kernel, ⟨by decide +kernel, by decide +kernel, none (by decide +kernel)⟩,
    none (by decide +kernel)⟩

theorem barrierFence_synced :
    (Fleet.after (fun _ _ => true) (barrierStart ++ barrierFence)).Synced false 2 :=
  ⟨Msg.ping.frame [] [0, 0, 0, 0], 0, by decide +kernel, rfl, by decide +kernel, by decide +kernel⟩

theorem barrierEnd_synced :
    (Fleet.after (fun _ _ => true) (barrierStart ++ barrierFence ++ barrierEnd)).Synced true 1 :=
  ⟨Msg.ping.frame [] [0, 0, 0, 0], 1, by decide +kernel, rfl, by decide +kernel, by decide +kernel⟩

theorem barrierEnd_replied :
    (Fleet.after (fun _ _ => true) (barrierStart ++ barrierFence ++ barrierEnd)).Replied false 3
      [107] (some [5]) :=
  ⟨Msg.kvGet.frame [107] [1, 0, 0, 0], kvReply [107] 1 (some [5]), 1, none, by decide +kernel, rfl,
    rfl, by decide +kernel, by decide +kernel, by decide +kernel, rfl, by decide +kernel⟩

theorem sync_barrier_small :
    2 < (Fleet.after (fun _ _ => true) (barrierStart ++ barrierFence)).finished false ∧
      (∃ before since, (Fleet.after (fun _ _ => true)
          (barrierStart ++ barrierFence ++ barrierEnd)).changes =
        before ++ ⟨.set [107] [5], some (false, 0)⟩ :: since ∧
          Left [107] [5] since (some [5])) ∧
      (((Fleet.after (fun _ _ => true) (barrierStart ++ barrierFence ++ barrierEnd)).network.node
        true).callsOf ⟨false, [97], 0⟩ false 0).filter (fun call => decide (call.1 ≤ 1)) =
          [(1, [97], [1])] := by
  obtain ⟨past, reads, calls⟩ := @sync_barrier Bool Unit _ fun _ _ => true
  refine ⟨(past barrierStart barrierFence false 2 barrierFence_synced).2.1, ?_, ?_⟩
  · obtain ⟨before, since, changes, found⟩ := reads (barrierStart ++ barrierFence) barrierEnd false
      2 0 (Msg.kvSet.frame [107] [5]) [5] barrierFence_synced (by decide) (by decide +kernel) rfl
    refine ⟨before, since, changes, (found false (.inl rfl)).2 3 (some [5]) ?_ barrierEnd_replied⟩
    decide +kernel
  · have keeps : ∀ action ∈ barrierFence ++ barrierEnd, ¬ action.Drops true [97] := by
      simp [barrierFence, barrierEnd, NetworkAction.Drops]
    exact calls barrierStart barrierFence barrierEnd false true ⟨false, [97], 0⟩ 2 1 (by decide)
      barrierStart_subscribed keeps barrierFence_synced barrierEnd_synced (by decide +kernel)

/-- A thread sets a key and does a `sync`, which gets its PONG. -/
def setThenSync : List (CachedAction Unit Unit) :=
  [.exchange (.post .kvSet [107] [118]), .exchange (.call () ⟨.ping, [], []⟩),
    .exchange (.thread () true false), .exchange (.thread () true false),
    .exchange (.serve 0 0 0 []), .exchange (.serve 0 0 0 []), .exchange .reader,
    .exchange .reader, .exchange .reader, .exchange (.thread () true false)]

/-- The thread gets the key and gives up before the daemon has read its request. -/
def slowGet : List (CachedAction Unit Unit) :=
  [.get () [107], .exchange (.thread () true false), .exchange (.thread () true false),
    .exchange (.thread () true true), .exchange (.thread () true false),
    .exchange (.thread () true false)]

/-- A `get` that waits too long returns nothing, while the store has the value that was set. -/
theorem slowGet_returns_nothing :
    let middle := run CachedNode.step (.initial .empty) setThenSync
    let last := run CachedNode.step middle slowGet
    (∀ action ∈ setThenSync, ∀ written, action ≠ .exchange (.thread () written true)) ∧
      middle.exchange.returned 0 = some none ∧
      middle.exchange.store.kv [107] = some [118] ∧
      Along CachedNode.step (fun node => node.exchange.store.kv [107] = some [118] ∧
        node.connected = true) middle slowGet ∧
      last.exchange.returned 1 = some none := by
  refine ⟨by simp [setThenSync], by decide +kernel, by decide +kernel, ?_, by decide +kernel⟩
  exact ⟨by decide +kernel, by decide +kernel, by decide +kernel, by decide +kernel,
    by decide +kernel, by decide +kernel, True.intro⟩

end Chappe
