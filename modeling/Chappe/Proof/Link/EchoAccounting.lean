/-
This file proves that a pair of links forwards each local write once and returns no echo.
-/

import Chappe.Construction.Link
import Chappe.Proof.Kv.CacheCoherence

namespace Chappe
open Foundation

variable {Client : Type} {change : Change}

/-- How often the frames ask for the change. -/
def commands (change : Change) (frames : List Frame) : Nat :=
  (frames.filterMap Frame.command).count change

/-- How often the frames report the change. -/
def reports (change : Change) (frames : List Frame) : Nat :=
  (frames.filterMap Frame.pushed).count change

@[simp] theorem commands_nil : commands change [] = 0 := rfl

@[simp] theorem reports_nil : reports change [] = 0 := rfl

@[simp] theorem commands_append (first second : List Frame) :
    commands change (first ++ second) = commands change first + commands change second := by
  simp [commands]

@[simp] theorem reports_append (first second : List Frame) :
    reports change (first ++ second) = reports change first + reports change second := by
  simp [reports]

theorem commands_cons (frame : Frame) (rest : List Frame) :
    commands change (frame :: rest) = commands change [frame] + commands change rest :=
  commands_append [frame] rest

@[simp] theorem Change.frame_command (change : Change) : change.frame.command = some change := by
  cases change <;> simp [Change.frame, Frame.command]

theorem commands_single {frame : Frame} {asked : Change} (command : frame.command = some asked) :
    commands change [frame] = if asked = change then 1 else 0 := by
  simp [commands, command, List.count_singleton]

theorem commands_single_none {frame : Frame} (command : frame.command = none) :
    commands change [frame] = 0 := by
  simp [commands, command]

theorem reports_single {frame : Frame} {told : Change} (pushed : frame.pushed = some told) :
    reports change [frame] = if told = change then 1 else 0 := by
  simp [reports, pushed, List.count_singleton]

theorem reports_single_none {frame : Frame} (pushed : frame.pushed = none) :
    reports change [frame] = 0 := by
  simp [reports, pushed]

/-- The frames with the given mark. -/
def marked (mark : Bool) (entries : List (Bool × Frame)) : List Frame :=
  entries.filterMap fun entry => if entry.1 = mark then some entry.2 else none

theorem marked_append (mark own : Bool) (entries : List (Bool × Frame)) (frames : List Frame) :
    marked mark (entries ++ frames.map fun frame => (own, frame)) =
      marked mark entries ++ if own = mark then frames else [] := by
  unfold marked
  by_cases same : own = mark <;> simp [same, List.filterMap_map]

theorem marked_cons (mark own : Bool) (frame : Frame) (rest : List (Bool × Frame)) :
    marked mark ((own, frame) :: rest) =
      (if own = mark then [frame] else []) ++ marked mark rest := by
  unfold marked
  rw [List.filterMap_cons]
  by_cases same : own = mark <;> simp [same]

/-- The writes on behalf of the peer that have not yet come back from the daemon. -/
def Device.ownTransit (device : Device Client) (session : Nat) (change : Change) : Nat :=
  commands change device.link.peerPending.toList + commands change (device.uplink session) +
    reports change (marked true device.link.fromDaemon)

/-- What the link has forwarded, or is about to write. -/
def Link.forwarded (link : Link) (change : Change) : Nat :=
  commands change link.sent + commands change link.localPending.toList

/-- Every expected echo is on its way, and what is forwarded or on its way is what the daemon
reported for other reasons and what is expected. The link asks for the value of a key before it
writes the key, so that every write comes back. -/
structure Device.Accounted (config : LinkConfig) (session : Nat) (device : Device Client) :
    Prop where
  bound : ∀ change, device.link.echo.count change ≤ device.ownTransit session change
  balance : ∀ change, device.link.forwarded change +
    reports change (marked false device.link.fromDaemon) + device.ownTransit session change =
      reports change device.link.foreign + device.link.echo.count change
  pending : ∀ frame ∈ device.link.peerPending, ∀ change, frame.command = some change →
    change.key ∈ config.keys
  primed : ∃ asked orders, device.uplink session = asked ++ orders ∧
    (∀ frame ∈ asked, frame.command = none) ∧
    (∀ frame ∈ orders, ∀ change, frame.command = some change → change.key ∈ config.keys) ∧
    ∀ key ∈ config.keys, device.store.Watches (.inl session) key ∨
      ∃ id, Msg.kvGet.frame key (appendU32 [] id) ∈ asked

theorem startup_command {config : LinkConfig} {frame : Frame} (member : frame ∈ config.startup) :
    frame.command = none := by
  rcases List.mem_append.mp member with topic | key
  · obtain ⟨name, -, rfl⟩ := List.mem_map.mp topic
    simp [Frame.command]
  · obtain ⟨entry, -, rfl⟩ := List.mem_map.mp key
    simp [Frame.command]

theorem startup_asks {config : LinkConfig} {key : Bytes} (member : key ∈ config.keys) :
    ∃ id, Msg.kvGet.frame key (appendU32 [] id) ∈ config.startup := by
  obtain ⟨id, within, rfl⟩ := List.mem_iff_getElem.mp member
  refine ⟨id, List.mem_append_right _ (List.mem_map.mpr ⟨(config.keys[id], id), ?_, rfl⟩)⟩
  exact List.mk_mem_zipIdx_iff_getElem?.mpr (List.getElem?_eq_getElem within)

theorem commands_startup (config : LinkConfig) : commands change config.startup = 0 := by
  have none : config.startup.filterMap Frame.command = [] := by
    rw [List.filterMap_eq_nil_iff]
    exact fun frame member => startup_command member
  rw [commands, none, List.count_nil]

/-- A new link expects nothing and has asked for every key. -/
theorem Device.Accounted.startLink (device : Device Client) (config : LinkConfig) (session : Nat) :
    (device.startLink config session).Accounted config session where
  bound := by
    intro change
    simp [Device.startLink, Link.start]
  balance := by
    intro change
    simp [Device.startLink, Link.start, Device.ownTransit, Link.forwarded, marked,
      commands_startup]
  pending := by
    intro frame member
    cases member
  primed := by
    refine ⟨config.startup, [], ?_, fun frame => startup_command, ?_, ?_⟩
    · simp [Device.startLink]
    · intro frame member
      cases member
    · intro key member
      exact .inr (startup_asks member)

variable {config : LinkConfig} {session : Nat} {device : Device Client}

theorem Device.Accounted.withOwned (accounted : device.Accounted config session)
    (owned : Store (Nat ⊕ Client)) : { device with owned := owned }.Accounted config session :=
  ⟨accounted.bound, accounted.balance, accounted.pending, accounted.primed⟩

/-- A report of the daemon for another reason is on its way and recorded. -/
theorem Device.Accounted.push (accounted : device.Accounted config session)
    (result : Store (Nat ⊕ Client) × Outbox (Nat ⊕ Client))
    (kept : ∀ key, device.store.Watches (.inl session) key →
      result.1.Watches (.inl session) key) :
    (device.push session false result).Accounted config session := by
  refine ⟨?_, ?_, accounted.pending, ?_⟩
  · intro change
    have before := accounted.bound change
    simp only [Device.ownTransit, Device.push, Link.receive, marked_append, Bool.false_eq_true,
      if_false, List.append_nil] at before ⊢
    exact before
  · intro change
    have before := accounted.balance change
    simp only [Device.ownTransit, Device.push, Link.receive, Link.forwarded, marked_append,
      Bool.false_eq_true, if_false, if_true, List.append_nil, reports_append] at before ⊢
    omega
  · obtain ⟨asked, orders, queue, quiet, carried, watched⟩ := accounted.primed
    exact ⟨asked, orders, queue, quiet, carried,
      fun key member => (watched key member).imp_left (kept key)⟩

theorem publish_pushed {frame : Frame} (publish : frame.msg = some .publish) :
    frame.pushed = none := by
  simp [Frame.pushed, publish]

theorem publish_command (name payload : Bytes) :
    (Msg.publish.frame name payload).command = none := by
  simp [Frame.command]

/-- The link drops a frame that reports no change. -/
theorem Device.Accounted.skip (accounted : device.Accounted config session) {own : Bool}
    {frame : Frame} {rest : List (Bool × Frame)}
    (incoming : device.link.fromDaemon = (own, frame) :: rest) (pushed : frame.pushed = none) :
    { device with link := { device.link with fromDaemon := rest } }.Accounted config session := by
  have same (mark : Bool) (change : Change) :
      reports change (marked mark device.link.fromDaemon) = reports change (marked mark rest) := by
    rw [incoming, marked_cons, reports_append]
    split
    · rw [reports_single_none pushed, Nat.zero_add]
    · rw [reports_nil, Nat.zero_add]
  refine ⟨?_, ?_, accounted.pending, accounted.primed⟩
  · intro change
    have before := accounted.bound change
    simp only [Device.ownTransit, same] at before
    exact before
  · intro change
    have before := accounted.balance change
    simp only [Device.ownTransit, same] at before
    exact before

/-- The link reads the report of a change. It consumes an echo or forwards the change. -/
theorem Device.Accounted.forward (accounted : device.Accounted config session) {own : Bool}
    {frame : Frame} {rest : List (Bool × Frame)} {told : Change}
    (incoming : device.link.fromDaemon = (own, frame) :: rest) (pushed : frame.pushed = some told)
    (free : device.link.localPending = none) :
    { device with
      link := Link.forward { device.link with fromDaemon := rest } told }.Accounted
        config session := by
  have taken (mark : Bool) (change : Change) :
      reports change (marked mark device.link.fromDaemon) =
        (if own = mark then if told = change then 1 else 0 else 0) +
          reports change (marked mark rest) := by
    rw [incoming, marked_cons, reports_append]
    split
    · rw [reports_single pushed]
    · rw [reports_nil]
  unfold Link.forward
  by_cases expected : told ∈ device.link.echo
  · have counted (change : Change) : (device.link.echo.erase told).count change +
        (if told = change then 1 else 0) = device.link.echo.count change := by
      by_cases same : told = change
      · subst change
        have present := Multiset.count_pos.mpr expected
        rw [Multiset.count_erase_self, if_pos rfl]
        omega
      · rw [Multiset.count_erase_of_ne (Ne.symm same), if_neg same, Nat.add_zero]
    rw [if_pos expected]
    refine ⟨?_, ?_, accounted.pending, accounted.primed⟩
    · intro change
      have before := accounted.bound change
      have echoes := counted change
      simp only [Device.ownTransit, taken true change] at before ⊢
      split at before <;> omega
    · intro change
      have before := accounted.balance change
      have echoes := counted change
      simp only [Device.ownTransit, Link.forwarded, taken] at before ⊢
      cases own <;> simp only [Bool.false_eq_true, Bool.true_eq_false, if_true, if_false] at before
        <;> omega
  · rw [if_neg expected]
    refine ⟨?_, ?_, accounted.pending, accounted.primed⟩
    · intro change
      have before := accounted.bound change
      simp only [Device.ownTransit, taken true change] at before ⊢
      by_cases same : told = change
      · subst change
        rw [Multiset.count_eq_zero.mpr expected]
        exact Nat.zero_le _
      · simp only [same, if_false, ite_self, Nat.zero_add] at before
        exact before
    · intro change
      have before := accounted.balance change
      simp only [Device.ownTransit, Link.forwarded, taken, free, Option.toList_none, commands_nil,
        Option.toList_some, commands_single told.frame_command] at before ⊢
      cases own <;> simp only [Bool.false_eq_true, Bool.true_eq_false, if_true, if_false] at before
        <;> omega

/-- A publish is no change of the store. -/
theorem Device.Accounted.localPublish (accounted : device.Accounted config session)
    (free : device.link.localPending = none) (name payload : Bytes) :
    { device with
      link := { device.link with
        localPending := some (Msg.publish.frame name payload) } }.Accounted config session := by
  refine ⟨accounted.bound, ?_, accounted.pending, accounted.primed⟩
  intro change
  have before := accounted.balance change
  simp only [Device.ownTransit, Link.forwarded, free, Option.toList_none, Option.toList_some,
    commands_nil, commands_single_none (publish_command name payload)] at before ⊢
  exact before

/-- A link that stops keeps its accounts. -/
theorem Device.Accounted.stop (accounted : device.Accounted config session) :
    { device with link := { device.link with alive := false } }.Accounted config session :=
  ⟨accounted.bound, accounted.balance, accounted.pending, accounted.primed⟩

theorem Device.Accounted.localRead (accounted : device.Accounted config session) :
    { device with link := device.link.localRead config }.Accounted config session := by
  unfold Link.localRead
  split
  · rename_i own frame rest incoming free _
    split
    · unfold Link.localFrame
      split
      · rename_i publish
        have skipped := accounted.skip incoming (publish_pushed publish)
        split
        · exact skipped.localPublish free _ _
        · exact skipped
      · split
        · rename_i change pushed
          exact accounted.forward incoming pushed free
        · rename_i pushed
          exact accounted.skip incoming pushed
    · exact accounted.stop
  · exact accounted

theorem Device.Accounted.localSend (accounted : device.Accounted config session) :
    { device with link := device.link.localSend }.Accounted config session := by
  unfold Link.localSend
  split
  · rename_i frame pending _
    refine ⟨accounted.bound, ?_, accounted.pending, accounted.primed⟩
    intro change
    have before := accounted.balance change
    simp only [Device.ownTransit, Link.forwarded, pending, Option.toList_none, Option.toList_some,
      commands_nil, commands_append] at before ⊢
    omega
  · exact accounted

/-- The link reads a frame of its peer. It expects the echo of a write before it makes it. -/
theorem Device.Accounted.peerFrame (accounted : device.Accounted config session)
    (free : device.link.peerPending = none) (frame : Frame) :
    { device with link := device.link.peerFrame config frame }.Accounted config session := by
  unfold Link.peerFrame
  split
  · split
    · exact ⟨accounted.bound, accounted.balance, accounted.pending, accounted.primed⟩
    · exact ⟨accounted.bound, accounted.balance, accounted.pending, accounted.primed⟩
  · split
    · split
      · have transit (change : Change) :
            commands change [Msg.publish.frame frame.name frame.payload] = 0 :=
          commands_single_none (publish_command _ _)
        refine ⟨?_, ?_, ?_, accounted.primed⟩
        · intro change
          have before := accounted.bound change
          simp only [Device.ownTransit, free, Option.toList_none, Option.toList_some, commands_nil,
            transit] at before ⊢
          exact before
        · intro change
          have before := accounted.balance change
          simp only [Device.ownTransit, free, Option.toList_none, Option.toList_some, commands_nil,
            transit] at before ⊢
          exact before
        · intro pending member change command
          cases member
          rw [publish_command] at command
          cases command
      · exact accounted
    · split
      · rename_i asked command
        split
        · rename_i carried
          have counted (change : Change) : (asked ::ₘ device.link.echo).count change =
              device.link.echo.count change + if asked = change then 1 else 0 := by
            rw [Multiset.count_cons]
            simp only [eq_comm]
          refine ⟨?_, ?_, ?_, accounted.primed⟩
          · intro change
            have before := accounted.bound change
            simp only [Device.ownTransit, free, Option.toList_none, Option.toList_some,
              commands_nil, commands_single asked.frame_command, counted] at before ⊢
            omega
          · intro change
            have before := accounted.balance change
            simp only [Device.ownTransit, Link.forwarded, free, Option.toList_none,
              Option.toList_some, commands_nil, commands_single asked.frame_command, counted]
              at before ⊢
            omega
          · intro pending member change written
            cases member
            rw [asked.frame_command] at written
            cases written
            simpa [LinkConfig.forwardsKey] using carried
        · exact accounted
      · exact accounted

theorem Device.Accounted.peerSend (accounted : device.Accounted config session) :
    (device.peerSend session).Accounted config session := by
  unfold Device.peerSend
  split
  · rename_i frame pending _
    have transit (change : Change) : Device.ownTransit { device with
        uplink := Function.update device.uplink session (device.uplink session ++ [frame])
        link := { device.link with peerPending := none } } session change =
        device.ownTransit session change := by
      simp only [Device.ownTransit, pending, Option.toList_none, Option.toList_some, commands_nil,
        Function.update_self, commands_append]
      omega
    refine ⟨?_, ?_, ?_, ?_⟩
    · intro change
      rw [transit]
      exact accounted.bound change
    · intro change
      rw [transit]
      exact accounted.balance change
    · intro later member
      cases member
    · obtain ⟨asked, orders, queue, quiet, carried, watched⟩ := accounted.primed
      refine ⟨asked, orders ++ [frame], ?_, quiet, ?_, watched⟩
      · simp only [Function.update_self, queue, List.append_assoc]
      · intro later member change command
        rcases List.mem_append.mp member with early | last
        · exact carried later early change command
        · rw [List.mem_singleton.mp last] at command
          exact accounted.pending frame pending change command
  · exact accounted

/-- The books of both links are in order. -/
def Federation.Accounted (config : Side → LinkConfig) (federation : Federation Client) : Prop :=
  ∀ side, (federation.device side).Accounted (config side) federation.session

theorem Federation.Accounted.update {config : Side → LinkConfig} {federation : Federation Client}
    (accounted : federation.Accounted config) (side : Side) {device : Device Client}
    (here : device.Accounted (config side) federation.session) :
    (federation.update side device).Accounted config := by
  intro other
  by_cases same : other = side
  · subst other
    simp only [Federation.update, Function.update_self]
    exact here
  · simp only [Federation.update, Function.update_of_ne same]
    exact accounted other

variable [DecidableEq Client]

/-- The daemon reports a command of a watching link back to it, and nothing else. -/
theorem handleFrame_command {store : Store (Nat ⊕ Client)} {frame : Frame} {session : Nat}
    (now later : Nat) (source : Nat ⊕ Client) (command : frame.command = some change)
    (watches : store.Watches (.inl session) change.key) :
    ∃ report, (store.handleFrame now later source frame).2 (.inl session) = [report] ∧
      report.pushed = some change := by
  unfold Frame.command at command
  split at command
  · rename_i kind
    cases command
    refine ⟨Msg.kvUpdate.frame frame.name frame.payload, ?_, by simp [Frame.pushed]⟩
    simp only [Store.handleFrame, KvRequest.ofFrame, kind, KvRequest.checksDeadline, Store.answer]
    exact if_pos watches
  · rename_i kind
    cases command
    refine ⟨Msg.kvDel.frame frame.name [], ?_, by simp [Frame.pushed]⟩
    simp only [Store.handleFrame, KvRequest.ofFrame, kind, KvRequest.checksDeadline, Store.answer]
    exact if_pos watches
  · cases command

/-- A get of a link starts its watch. -/
theorem handleFrame_kvGet (store : Store (Nat ⊕ Client)) (now later : Nat)
    (source : Nat ⊕ Client) (key : Bytes) (id : Nat) :
    (store.handleFrame now later source (Msg.kvGet.frame key (appendU32 [] id))).1.Watches source
      key := by
  simp [Store.handleFrame, KvRequest.ofFrame, appendU32, KvRequest.checksDeadline, Store.answer,
    Store.Watches, Store.watch]

/-- The daemon takes a command of the link and reports it back. -/
theorem Device.Accounted.serveCommand (accounted : device.Accounted config session) {frame : Frame}
    {rest : List Frame} {change : Change} (queued : device.uplink session = frame :: rest)
    (command : frame.command = some change) (now later : Nat) :
    (Device.push { device with uplink := Function.update device.uplink session rest } session true
      (device.store.handleFrame now later (.inl session) frame)).Accounted config session := by
  obtain ⟨asked, orders, queue, quiet, carried, watched⟩ := accounted.primed
  have none : asked = [] := by
    cases asked with
    | nil => rfl
    | cons first others =>
        rw [queued] at queue
        have same := (List.cons.inj queue).1
        have silent := quiet first List.mem_cons_self
        rw [← same, command] at silent
        cases silent
  subst asked
  rw [queued, List.nil_append] at queue
  subst orders
  have key := carried frame List.mem_cons_self change command
  have watches : device.store.Watches (.inl session) change.key :=
    (watched change.key key).elim id fun found => absurd found.choose_spec List.not_mem_nil
  obtain ⟨report, outbox, pushed⟩ := handleFrame_command now later (.inl session) command watches
  have tells := Tells.handleFrame device.store now later (.inl session) frame
  have transit (other : Change) : (Device.push
      { device with uplink := Function.update device.uplink session rest } session true
      (device.store.handleFrame now later (.inl session) frame)).ownTransit session other =
      device.ownTransit session other := by
    simp only [Device.ownTransit, Device.push, Link.receive, marked_append, if_true,
      reports_append, outbox, Function.update_self, queued, commands_cons frame rest,
      commands_single command, reports_single pushed]
    omega
  refine ⟨?_, ?_, accounted.pending, ?_⟩
  · intro other
    rw [transit]
    exact accounted.bound other
  · intro other
    have before := accounted.balance other
    rw [transit]
    simp only [Device.push, Link.receive, Link.forwarded, marked_append, Bool.true_eq_false,
      if_false, if_true, List.append_nil] at before ⊢
    exact before
  · refine ⟨[], rest, Function.update_self .., quiet, ?_, ?_⟩
    · intro later_ member
      exact carried later_ (List.mem_cons_of_mem _ member)
    · intro name member
      left
      apply tells.kept
      exact (watched name member).elim id fun found => absurd found.choose_spec List.not_mem_nil

/-- The daemon takes a frame of the link that changes nothing, such as the get of a key. -/
theorem Device.Accounted.serveQuery (accounted : device.Accounted config session) {frame : Frame}
    {rest : List Frame} (queued : device.uplink session = frame :: rest)
    (command : frame.command = none) (now later : Nat) :
    (Device.push { device with uplink := Function.update device.uplink session rest } session false
      (device.store.handleFrame now later (.inl session) frame)).Accounted config session := by
  have tells := Tells.handleFrame device.store now later (.inl session) frame
  have pushed := accounted.push (device.store.handleFrame now later (.inl session) frame)
    fun key => tells.kept _ key
  have transit (change : Change) : (Device.push
      { device with uplink := Function.update device.uplink session rest } session false
      (device.store.handleFrame now later (.inl session) frame)).ownTransit session change =
      (device.push session false
        (device.store.handleFrame now later (.inl session) frame)).ownTransit session change := by
    simp only [Device.ownTransit, Device.push, Function.update_self, queued,
      commands_cons frame rest, commands_single_none command, Nat.zero_add]
  refine ⟨?_, ?_, accounted.pending, ?_⟩
  · intro change
    rw [transit]
    exact pushed.bound change
  · intro change
    rw [transit]
    exact pushed.balance change
  · obtain ⟨asked, orders, queue, quiet, carried, watched⟩ := accounted.primed
    rw [queued] at queue
    cases asked with
    | nil =>
        rw [List.nil_append] at queue
        subst orders
        refine ⟨[], rest, Function.update_self .., quiet, ?_, ?_⟩
        · intro waiting member
          exact carried waiting (List.mem_cons_of_mem _ member)
        · intro key member
          exact (watched key member).imp_left (tells.kept _ key)
    | cons first others =>
        obtain ⟨rfl, tail⟩ := List.cons.inj queue
        refine ⟨others, orders, (Function.update_self ..).trans tail, ?_, carried, ?_⟩
        · intro waiting member
          exact quiet waiting (List.mem_cons_of_mem _ member)
        · intro key member
          rcases watched key member with watches | ⟨id, asking⟩
          · exact .inl (tells.kept _ key watches)
          · rcases List.mem_cons.mp asking with rfl | waiting
            · exact .inl (handleFrame_kvGet device.store now later _ key id)
            · exact .inr ⟨id, waiting⟩

/-- The daemon takes a frame of the link of another session. -/
theorem Device.Accounted.serveOther (accounted : device.Accounted config session) {source : Nat}
    (different : session ≠ source) (frame : Frame) (rest : List Frame) (now later : Nat) :
    (Device.push { device with uplink := Function.update device.uplink source rest } session false
      (device.store.handleFrame now later (.inl source) frame)).Accounted config session := by
  have tells := Tells.handleFrame device.store now later (.inl source) frame
  have pushed := accounted.push (device.store.handleFrame now later (.inl source) frame)
    fun key => tells.kept _ key
  have queue : Function.update device.uplink source rest session = device.uplink session :=
    Function.update_of_ne different ..
  refine ⟨?_, ?_, accounted.pending, ?_⟩
  · intro change
    have before := pushed.bound change
    simp only [Device.ownTransit, Device.push, queue] at before ⊢
    exact before
  · intro change
    have before := pushed.balance change
    simp only [Device.ownTransit, Device.push, queue] at before ⊢
    exact before
  · obtain ⟨asked, orders, same, rest⟩ := pushed.primed
    exact ⟨asked, orders, queue.trans same, rest⟩

theorem Device.Accounted.serve (accounted : device.Accounted config session)
    (source now later : Nat) :
    (device.serve session source now later).Accounted config session := by
  unfold Device.serve
  split
  · exact accounted
  · rename_i frame rest queued
    by_cases same : source = session
    · subst source
      cases command : frame.command with
      | none =>
          simp only [Frame.isCommand, command]
          exact (accounted.serveQuery queued command now later).withOwned _
      | some change =>
          simp only [Frame.isCommand, command]
          exact (accounted.serveCommand queued command now later).withOwned _
    · simp only [same, decide_false, Bool.false_and]
      exact (accounted.serveOther (Ne.symm same) frame rest now later).withOwned _

theorem Device.Accounted.client (accounted : device.Accounted config session) (client : Client)
    (frame : Frame) (now later : Nat) :
    (device.client session client frame now later).Accounted config session :=
  (accounted.withOwned (device.owned.handleFrame now later (.inr client) frame).1).push
    (device.store.handleFrame now later (.inr client) frame)
    fun key => (Tells.handleFrame device.store now later (.inr client) frame).kept _ key

theorem Device.Accounted.sweep (accounted : device.Accounted config session) (order : List Bytes)
    (now : Nat) : (device.sweep session order now).Accounted config session :=
  (accounted.withOwned (device.owned.sweep now order).1).push (device.store.sweep now order)
    fun key => (Tells.sweepKeys now _ device.store).kept _ key

theorem Federation.Accounted.step (config : Side → LinkConfig) (federation : Federation Client)
    (action : FederationAction Client) (accounted : federation.Accounted config) :
    (federation.step config action).Accounted config := by
  cases action with
  | client side client frame now later =>
      exact accounted.update side ((accounted side).client client frame now later)
  | sweep side order now => exact accounted.update side ((accounted side).sweep order now)
  | publish side name payload =>
      exact accounted.update side ((accounted side).push _ fun _ watches => watches)
  | serve side session now later =>
      exact accounted.update side ((accounted side).serve session now later)
  | localRead side => exact accounted.update side (accounted side).localRead
  | localSend side => exact accounted.update side (accounted side).localSend
  | peerRead side =>
      simp only [Federation.step, Federation.peerRead]
      split
      · rename_i frame rest incoming free _
        split
        · have far : (federation.update side.other
              { federation.device side.other with
                link := { (federation.device side.other).link with toPeer := rest } }).Accounted
              config := by
            apply accounted.update
            have before := accounted side.other
            exact ⟨before.bound, before.balance, before.pending, before.primed⟩
          exact far.update side ((accounted side).peerFrame free frame)
        · exact accounted.update side (accounted side).stop
      · exact accounted
  | peerSend side => exact accounted.update side (accounted side).peerSend

/-- Nothing is on its way between a daemon, its link and the peer. -/
structure Device.Quiet (device : Device Client) (session : Nat) : Prop where
  uplink : device.uplink session = []
  fromDaemon : device.link.fromDaemon = []
  toPeer : device.link.toPeer = []
  localPending : device.link.localPending = none
  peerPending : device.link.peerPending = none

/-- In every run of two joined devices, whenever nothing is on its way, no link expects an echo,
and each link has asked its peer for each change as often as its daemon reported the change for
another reason than a write of the link. -/
theorem echo_accounting (config : Side → LinkConfig) (store : Side → Store (Nat ⊕ Client))
    (actions : List (FederationAction Client)) :
    let federation := run (Federation.step config) (.joined config store) actions
    (∀ side, (federation.device side).Quiet federation.session) → ∀ side,
      (federation.device side).link.echo = 0 ∧ ∀ change,
        commands change (federation.device side).link.sent =
          reports change (federation.device side).link.foreign := by
  intro federation quiet side
  have start : (Federation.joined config store).Accounted config :=
    fun side => Device.Accounted.startLink _ _ _
  have accounted : federation.Accounted config :=
    run_invariant (Federation.Accounted.step config) actions _ start
  have rest := quiet side
  have none (change : Change) : (federation.device side).ownTransit federation.session change =
      0 := by
    simp only [Device.ownTransit, rest.peerPending, rest.uplink, rest.fromDaemon,
      Option.toList_none, commands_nil, marked, List.filterMap_nil, reports_nil]
  have echoes (change : Change) : (federation.device side).link.echo.count change = 0 :=
    Nat.le_zero.mp ((none change) ▸ (accounted side).bound change)
  refine ⟨Multiset.eq_zero_of_forall_notMem fun change => Multiset.count_eq_zero.mp (echoes change),
    ?_⟩
  intro change
  have balance := (accounted side).balance change
  simp only [none, echoes, Link.forwarded, rest.localPending, rest.fromDaemon, marked,
    Option.toList_none, commands_nil, List.filterMap_nil, reports_nil, Nat.add_zero] at balance
  exact balance

/-- Both links carry the key `[7]`. -/
def smallLink (_ : Side) : LinkConfig := ⟨[], [[7]], false, [], 0⟩

/-- The links ask for the key, and a client of the first device writes it. -/
def localWrite : List (FederationAction Unit) :=
  [.serve .a 0 0 0, .localRead .a, .serve .b 0 0 0, .localRead .b, .peerRead .a, .peerRead .b,
    .client .a () (Msg.kvSet.frame [7] [1]) 0 0, .localRead .a, .localSend .a, .peerRead .b,
    .peerSend .b, .serve .b 0 0 0, .localRead .b]

theorem echo_accounting_small :
    (let federation := run (Federation.step smallLink) (.joined smallLink fun _ => .empty)
        localWrite
     (∀ side, (federation.device side).Quiet federation.session) ∧
      commands (.set [7] [1]) (federation.device .a).link.sent = 1 ∧
      commands (.set [7] [1]) (federation.device .b).link.sent =
        reports (.set [7] [1]) (federation.device .b).link.foreign) := by
  have quiet (side : Side) : ((run (Federation.step smallLink) (.joined smallLink fun _ => .empty)
      localWrite).device side).Quiet (run (Federation.step smallLink)
        (.joined smallLink fun _ => .empty) localWrite).session := by
    cases side <;> exact ⟨by decide, by decide, by decide, by decide, by decide⟩
  exact ⟨quiet, by decide, (echo_accounting smallLink (fun _ => .empty) localWrite quiet .b).2 _⟩

end Chappe
