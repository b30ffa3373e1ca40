/-
This file proves that the changes of a key travel from one device to the other in order.
-/

import Chappe.Foundation.Cancel
import Chappe.Proof.Link.OwnerKey

namespace Chappe
open Foundation

variable {Client : Type} {key : Bytes}

/-- The changes of the key that frames of a link ask for. -/
def asks (key : Bytes) (frames : List Frame) : List Change :=
  about key (frames.filterMap Frame.command)

@[simp] theorem asks_nil : asks key [] = [] := rfl

@[simp] theorem asks_append (first second : List Frame) :
    asks key (first ++ second) = asks key first ++ asks key second := by
  simp [asks]

theorem asks_cons (frame : Frame) (rest : List Frame) :
    asks key (frame :: rest) = asks key [frame] ++ asks key rest := asks_append [frame] rest

theorem asks_single {frame : Frame} {change : Change} (command : frame.command = some change) :
    asks key [frame] = about key [change] := by
  simp [asks, command]

theorem asks_single_none {frame : Frame} (command : frame.command = none) :
    asks key [frame] = [] := by
  simp [asks, command]

theorem asks_eq_nil_iff {frame : Frame} : asks key [frame] = [] ↔ frame.Spares key := by
  cases command : frame.command with
  | none => simp [asks_single_none command, Frame.Spares, command]
  | some change => simp [asks_single command, about_single, Frame.Spares, command]

theorem tells_cons (frame : Frame) (rest : List Frame) :
    tells key (frame :: rest) = tells key [frame] ++ tells key rest := tells_append [frame] rest

theorem mem_tells {frames : List Frame} {change : Change} (member : change ∈ tells key frames) :
    change.key = key := (mem_about.mp member).2

/-- The changes of the key that the link has still to read. -/
def Link.unread (key : Bytes) (link : Link) : List Change :=
  tells key (link.fromDaemon.map Prod.snd)

/-- The changes of the key that are on their way from the daemon to the peer. -/
def Link.outbound (key : Bytes) (link : Link) : List Change :=
  asks key link.toPeer ++ asks key link.localPending.toList ++ cancel link.echo (link.unread key)

/-- The changes of the key that are on their way from the peer to the daemon. -/
def Device.inbound (key : Bytes) (session : Nat) (device : Device Client) : List Change :=
  asks key (device.uplink session) ++ asks key device.link.peerPending.toList

/-- The link has nothing to forward about the key. It still expects every echo of the key. -/
structure Device.Mute (key : Bytes) (session : Nat) (device : Device Client) : Prop where
  toPeer : asks key device.link.toPeer = []
  localPending : asks key device.link.localPending.toList = []
  settled : ∀ change, change.key = key → device.link.echo.count change =
    (device.inbound key session).count change + (device.link.unread key).count change

theorem unread_cons {link : Link} {own : Bool} {frame : Frame} {rest : List (Bool × Frame)}
    (incoming : link.fromDaemon = (own, frame) :: rest) :
    link.unread key = tells key [frame] ++ tells key (rest.map Prod.snd) := by
  rw [Link.unread, incoming, List.map_cons, tells_cons]

/-- An echo of another key does not matter. -/
theorem cancel_erase_other {echo : Multiset Change} {change : Change} (other : change.key ≠ key)
    (frames : List Frame) : cancel (echo.erase change) (tells key frames) =
      cancel echo (tells key frames) := by
  apply cancel_congr
  intro item member
  apply Multiset.count_erase_of_ne
  rintro rfl
  exact other (mem_tells member)

/-- The link passes on a change of the key, or takes it for an echo. -/
theorem forward_outbound (link : Link) (idle : link.localPending = none) (change : Change) :
    (link.forward change).outbound key = asks key link.toPeer ++
      cancel link.echo (about key [change] ++ link.unread key) := by
  rw [about_single]
  unfold Link.forward Link.outbound
  by_cases expected : change ∈ link.echo
  · rw [if_pos expected]
    dsimp only
    rw [idle, Option.toList_none, asks_nil, List.append_nil]
    by_cases here : change.key = key
    · rw [if_pos here, List.singleton_append, cancel_cons_of_mem _ expected]
      rfl
    · rw [if_neg here, List.nil_append]
      exact congrArg _ (cancel_erase_other here _)
  · rw [if_neg expected]
    dsimp only
    rw [Option.toList_some, asks_single change.frame_command, about_single, List.append_assoc]
    by_cases here : change.key = key
    · rw [if_pos here, List.singleton_append, List.singleton_append,
        cancel_cons_of_notMem _ expected]
      rfl
    · rw [if_neg here, List.nil_append, List.nil_append]
      rfl

theorem localRead_outbound (config : LinkConfig) (link : Link) :
    (link.localRead config).outbound key = link.outbound key := by
  unfold Link.localRead
  split
  · rename_i own frame rest incoming idle alive
    have before : link.outbound key = asks key link.toPeer ++
        cancel link.echo (tells key [frame] ++ tells key (rest.map Prod.snd)) := by
      rw [Link.outbound, unread_cons incoming, idle, Option.toList_none, asks_nil, List.append_nil]
    split
    · rw [before]
      unfold Link.localFrame
      dsimp only
      split
      · rename_i publish
        rw [tells_single_none (publish_pushed publish), List.nil_append]
        split
        · rw [Link.outbound]
          dsimp only
          rw [Option.toList_some, asks_single_none (publish_command _ _), List.append_nil]
          rfl
        · rw [Link.outbound]
          dsimp only
          rw [idle, Option.toList_none, asks_nil, List.append_nil]
          rfl
      · split
        · rename_i change pushed
          rw [tells_single pushed]
          exact forward_outbound { link with fromDaemon := rest } idle change
        · rename_i pushed
          rw [tells_single_none pushed, List.nil_append, Link.outbound]
          dsimp only
          rw [idle, Option.toList_none, asks_nil, List.append_nil]
          rfl
    · rfl
  · rfl

theorem localSend_outbound (link : Link) : link.localSend.outbound key = link.outbound key := by
  unfold Link.localSend
  split
  · rename_i frame pending alive
    simp only [Link.outbound, pending, Option.toList_some, Option.toList_none, asks_append,
      asks_nil, List.append_nil]
    rfl
  · rfl

variable {config : LinkConfig} {session : Nat} {device : Device Client}

/-- A mute link takes every report of the key for an echo. -/
theorem Device.Mute.forward (mute : device.Mute key session) {own : Bool} {frame : Frame}
    {rest : List (Bool × Frame)} (incoming : device.link.fromDaemon = (own, frame) :: rest)
    {change : Change} (pushed : frame.pushed = some change) :
    { device with link := Link.forward { device.link with fromDaemon := rest } change }.Mute key
      session := by
  have before : device.link.unread key = about key [change] ++ tells key (rest.map Prod.snd) := by
    rw [unread_cons incoming, tells_single pushed]
  have counts (item : Change) (about : item.key = key) := mute.settled item about
  simp only [before, about_single, List.count_append] at counts
  unfold Link.forward
  dsimp only
  by_cases here : change.key = key
  · have expected : change ∈ device.link.echo := by
      have count := counts change here
      rw [if_pos here, List.count_singleton_self] at count
      exact Multiset.count_pos.mp (by omega)
    rw [if_pos expected]
    refine ⟨mute.toPeer, mute.localPending, ?_⟩
    intro item about
    have count := counts item about
    rw [if_pos here, List.count_singleton] at count
    change (device.link.echo.erase change).count item =
      (device.inbound key session).count item + (tells key (rest.map Prod.snd)).count item
    by_cases same : item = change
    · subst item
      rw [if_pos (beq_self_eq_true _)] at count
      rw [Multiset.count_erase_self]
      omega
    · rw [if_neg (by simpa using Ne.symm same)] at count
      rw [Multiset.count_erase_of_ne same]
      omega
  · have others (item : Change) (about : item.key = key) : device.link.echo.count item =
        (device.inbound key session).count item + (tells key (rest.map Prod.snd)).count item := by
      have count := counts item about
      rw [if_neg here, List.count_nil, Nat.zero_add] at count
      exact count
    split
    · refine ⟨mute.toPeer, mute.localPending, ?_⟩
      intro item about
      have different : item ≠ change := by
        rintro rfl
        exact here about
      exact (Multiset.count_erase_of_ne different _).trans (others item about)
    · refine ⟨mute.toPeer, ?_, others⟩
      dsimp only
      rw [Option.toList_some, asks_single change.frame_command, about_single, if_neg here]

/-- A mute link stays mute when it skips a frame that reports nothing. -/
theorem Device.Mute.skip (mute : device.Mute key session) {own : Bool} {frame : Frame}
    {rest : List (Bool × Frame)} (incoming : device.link.fromDaemon = (own, frame) :: rest)
    (silent : frame.pushed = none) {pending : Option Frame}
    (quiet : asks key pending.toList = []) :
    { device with link := { device.link with
      fromDaemon := rest, localPending := pending } }.Mute key session := by
  have before : device.link.unread key = tells key (rest.map Prod.snd) := by
    rw [unread_cons incoming, tells_single_none silent, List.nil_append]
  refine ⟨mute.toPeer, quiet, ?_⟩
  intro change about
  have count := mute.settled change about
  rw [before] at count
  exact count

theorem Device.Mute.localRead (mute : device.Mute key session) :
    { device with link := device.link.localRead config }.Mute key session := by
  unfold Link.localRead
  split
  · rename_i own frame rest incoming idle alive
    have still : asks key device.link.localPending.toList = [] := mute.localPending
    split
    · unfold Link.localFrame
      dsimp only
      split
      · rename_i publish
        split
        · exact mute.skip incoming (publish_pushed publish)
            (asks_single_none (publish_command _ _))
        · exact mute.skip incoming (publish_pushed publish) still
      · split
        · rename_i change pushed
          exact mute.forward incoming pushed
        · rename_i silent
          exact mute.skip incoming silent still
    · exact ⟨mute.toPeer, mute.localPending, mute.settled⟩
  · exact mute

theorem Device.Mute.localSend (mute : device.Mute key session) :
    { device with link := device.link.localSend }.Mute key session := by
  unfold Link.localSend
  split
  · rename_i frame pending alive
    have quiet := mute.localPending
    rw [pending, Option.toList_some] at quiet
    refine ⟨?_, rfl, mute.settled⟩
    dsimp only
    rw [asks_append, mute.toPeer, quiet]
    rfl
  · exact mute

/-- A link stays vetted, and the first frame vets it or stops it. -/
theorem peerFrame_vetting (config : LinkConfig) (link : Link) (frame : Frame) :
    (link.vetted = true → (link.peerFrame config frame).vetted = true) ∧
      (link.vetted = false → (link.peerFrame config frame).vetted = true ∨
        (link.peerFrame config frame).alive = false) := by
  unfold Link.peerFrame
  split
  · split
    · exact ⟨fun _ => rfl, fun _ => .inl rfl⟩
    · exact ⟨id, fun _ => .inr rfl⟩
  · rename_i vetted
    have never (unvetted : link.vetted = false) : False := vetted unvetted
    split
    · split <;> exact ⟨id, fun unvetted => (never unvetted).elim⟩
    · split
      · split <;> exact ⟨id, fun unvetted => (never unvetted).elim⟩
      · exact ⟨id, fun unvetted => (never unvetted).elim⟩

/-- A link that carries the key has its daemon asked for what its peer asks, and expects the
echo. -/
theorem peerFrame_asks (listed : key ∈ config.keys) {link : Link} (idle : link.peerPending = none)
    {frame : Frame} (ready : link.vetted = true ∨ asks key [frame] = []) :
    asks key (link.peerFrame config frame).peerPending.toList = asks key [frame] ∧
      ∀ change, change.key = key → (link.peerFrame config frame).echo.count change =
        link.echo.count change + (asks key [frame]).count change := by
  have unchanged (none : asks key [frame] = []) :
      asks key link.peerPending.toList = asks key [frame] ∧
        ∀ change, change.key = key → link.echo.count change =
          link.echo.count change + (asks key [frame]).count change := by
    rw [none, idle]
    exact ⟨rfl, fun _ _ => rfl⟩
  unfold Link.peerFrame
  split
  · rename_i unvetted
    have none : asks key [frame] = [] := by
      rcases ready with vetted | none
      · rw [vetted] at unvetted
        cases unvetted
      · exact none
    split <;> exact unchanged none
  · split
    · rename_i publish
      have none : asks key [frame] = [] :=
        asks_single_none (by simp [Frame.command, publish])
      split
      · refine ⟨?_, (unchanged none).2⟩
        rw [Option.toList_some, asks_single_none (publish_command _ _), none]
      · exact unchanged none
    · split
      · rename_i asked command
        split
        · refine ⟨?_, ?_⟩
          · rw [Option.toList_some, asks_single asked.frame_command, asks_single command]
          · intro change about
            dsimp only
            rw [asks_single command, about_single, Multiset.count_cons]
            by_cases here : asked.key = key
            · rw [if_pos here]
              by_cases same : change = asked
              · rw [if_pos same, same, List.count_singleton_self]
              · rw [if_neg same, List.count_eq_zero.mpr (by simpa using same)]
            · have different : change ≠ asked := by
                rintro rfl
                exact here about
              rw [if_neg here, if_neg different]
              rfl
        · rename_i unlisted
          apply unchanged
          rw [asks_single command, about_single, if_neg]
          rintro rfl
          exact unlisted (by simpa [LinkConfig.forwardsKey] using listed)
      · rename_i command
        exact unchanged (asks_single_none command)

theorem Device.Mute.peerFrame (mute : device.Mute key session) (listed : key ∈ config.keys)
    (idle : device.link.peerPending = none) {frame : Frame}
    (ready : device.link.vetted = true ∨ asks key [frame] = []) :
    { device with link := device.link.peerFrame config frame }.Mute key session := by
  obtain ⟨toPeer, localPending, fromDaemon, -, -⟩ := peerFrame_sides config device.link frame
  obtain ⟨pending, echo⟩ := peerFrame_asks listed idle ready
  refine ⟨?_, ?_, ?_⟩
  · dsimp only
    rw [toPeer]
    exact mute.toPeer
  · dsimp only
    rw [localPending]
    exact mute.localPending
  · intro change about
    have count := mute.settled change about
    rw [Device.inbound, idle, Option.toList_none, asks_nil, List.append_nil] at count
    change (device.link.peerFrame config frame).echo.count change =
      (asks key (device.uplink session) ++
        asks key (device.link.peerFrame config frame).peerPending.toList).count change +
      (tells key ((device.link.peerFrame config frame).fromDaemon.map Prod.snd)).count change
    rw [echo change about, pending, fromDaemon, count, List.count_append, Link.unread]
    omega

theorem inbound_peerFrame (listed : key ∈ config.keys) (idle : device.link.peerPending = none)
    {frame : Frame} (ready : device.link.vetted = true ∨ asks key [frame] = []) :
    Device.inbound key session { device with link := device.link.peerFrame config frame } =
      device.inbound key session ++ asks key [frame] := by
  rw [Device.inbound, (peerFrame_asks listed idle ready).1, Device.inbound, idle,
    Option.toList_none, asks_nil, List.append_nil]

/-- A frame that asks for no change of the key leaves what is on its way to the peer. -/
theorem outbound_peerFrame (listed : key ∈ config.keys) {link : Link}
    (idle : link.peerPending = none) {frame : Frame} (none : asks key [frame] = []) :
    (link.peerFrame config frame).outbound key = link.outbound key := by
  obtain ⟨toPeer, localPending, fromDaemon, -, -⟩ := peerFrame_sides config link frame
  obtain ⟨-, echo⟩ := peerFrame_asks listed idle (.inr none)
  rw [Link.outbound, Link.outbound, toPeer, localPending, Link.unread, Link.unread, fromDaemon]
  congr 1
  apply cancel_congr
  intro change member
  rw [echo change (mem_tells member), none]
  rfl

theorem inbound_peerSend : (device.peerSend session).inbound key session =
    device.inbound key session := by
  unfold Device.peerSend
  split
  · rename_i frame pending alive
    simp only [Device.inbound, pending, Function.update_self, Option.toList_some,
      Option.toList_none, asks_append, asks_nil, List.append_nil]
  · rfl

/-- The write to the daemon changes nothing of the link but the pending frame. -/
theorem peerSend_link (device : Device Client) (session : Nat) :
    ∃ pending, (device.peerSend session).link = { device.link with peerPending := pending } := by
  unfold Device.peerSend
  split
  · exact ⟨none, rfl⟩
  · exact ⟨device.link.peerPending, rfl⟩

theorem Device.Mute.peerSend (mute : device.Mute key session) :
    (device.peerSend session).Mute key session := by
  obtain ⟨pending, same⟩ := peerSend_link device session
  refine ⟨?_, ?_, ?_⟩
  · rw [same]
    exact mute.toPeer
  · rw [same]
    exact mute.localPending
  · intro change about
    rw [inbound_peerSend, same]
    exact mute.settled change about

theorem unread_receive (link : Link) (own : Bool) (frames : List Frame) :
    (link.receive own frames).unread key = link.unread key ++ tells key frames := by
  rw [Link.unread, Link.receive, List.map_append, tells_append, List.map_map]
  congr 1
  congr 1
  exact List.map_id frames

/-- Every echo that the link expects is a report that it has still to read. -/
def Device.Awaits (key : Bytes) (device : Device Client) : Prop :=
  ∀ change, change.key = key → device.link.echo.count change ≤ (device.link.unread key).count change

theorem outbound_receive (awaits : device.Awaits key) (own : Bool) (frames : List Frame) :
    (device.link.receive own frames).outbound key =
      device.link.outbound key ++ tells key frames := by
  have later : cancel device.link.echo (device.link.unread key ++ tells key frames) =
      cancel device.link.echo (device.link.unread key) ++ tells key frames :=
    cancel_append fun change member => awaits change (mem_tells member)
  rw [Link.outbound, unread_receive, Link.outbound, List.append_assoc _ _ (tells key frames),
    ← later]
  rfl

theorem count_about {changes : List Change} {change : Change} (here : change.key = key) :
    (about key changes).count change = changes.count change :=
  List.count_filter (by simpa using here)

theorem count_asks (frames : List Frame) {change : Change} (here : change.key = key) :
    (asks key frames).count change = commands change frames := count_about here

theorem marked_sublist (mark : Bool) (entries : List (Bool × Frame)) :
    (marked mark entries).Sublist (entries.map Prod.snd) := by
  induction entries with
  | nil => exact List.Sublist.refl []
  | cons entry rest ih =>
      rw [show entry = (entry.1, entry.2) from rfl, marked_cons, List.map_cons]
      split
      · exact ih.cons_cons _
      · exact ih.cons _

/-- Without writes of the key on their way to the daemon, what the link expects is still unread. -/
theorem Device.Accounted.awaits (accounted : device.Accounted config session)
    (none : device.inbound key session = []) : device.Awaits key := by
  intro change here
  have bound := accounted.bound change
  obtain ⟨uplink, pending⟩ := List.append_eq_nil_iff.mp none
  have first := count_asks (device.uplink session) here
  have second := count_asks device.link.peerPending.toList here
  rw [uplink] at first
  rw [pending] at second
  have unread : reports change (marked true device.link.fromDaemon) ≤
      (device.link.unread key).count change := by
    rw [Link.unread, tells, count_about here]
    exact ((marked_sublist true device.link.fromDaemon).filterMap _).count_le change
  rw [Device.ownTransit, ← first, ← second] at bound
  simp only [List.count_nil, Nat.zero_add] at bound
  exact bound.trans unread

/-- The daemon says to a mute link about the key only what answers the commands of the link. -/
theorem Device.Mute.receive (mute : device.Mute key session) {uplink : Nat → List Frame}
    {store owned : Store (Nat ⊕ Client)} {own : Bool} {frames : List Frame} {obeyed : List Change}
    (echoes : tells key frames = obeyed)
    (shorter : asks key (device.uplink session) = obeyed ++ asks key (uplink session)) :
    Device.Mute key session ⟨store, owned, uplink, device.link.receive own frames⟩ := by
  refine ⟨mute.toPeer, mute.localPending, ?_⟩
  intro change here
  have count := mute.settled change here
  change device.link.echo.count change =
    (asks key (uplink session) ++ asks key device.link.peerPending.toList).count change +
      ((device.link.receive own frames).unread key).count change
  rw [unread_receive, count, Device.inbound, shorter, echoes]
  simp only [List.count_append]
  omega

/-- The changes of the key that are on their way from one side to the other. -/
def Federation.onWay (key : Bytes) (side : Side) (federation : Federation Client) : List Change :=
  (federation.device side.other).inbound key federation.session ++
    (federation.device side).link.outbound key

/-- Nothing about the key is on its way to the side. -/
structure Federation.Clear (key : Bytes) (side : Side) (federation : Federation Client) : Prop where
  inbound : (federation.device side).inbound key federation.session = []
  mute : (federation.device side.other).Mute key federation.session

/-- A link reads the hello of its peer first. -/
def Federation.Greets (config : Side → LinkConfig) (federation : Federation Client) : Prop :=
  ∀ side, (federation.device side).link.vetted = false →
    (federation.device side).link.alive = true →
    ∃ rest, (federation.device side.other).link.toPeer = (config side.other).hello :: rest

theorem update_device_self (federation : Federation Client) (side : Side)
    (device : Device Client) : (federation.update side device).device side = device :=
  Function.update_self ..

theorem update_device_of_ne (federation : Federation Client) {side here : Side}
    (different : here ≠ side) (device : Device Client) :
    (federation.update side device).device here = federation.device here :=
  Function.update_of_ne different ..

variable {federation : Federation Client} {side : Side}

/-- A step of the near side that leaves its inbound queue. -/
theorem Federation.Clear.updateNear (clear : federation.Clear key side) {near : Device Client}
    (inbound : near.inbound key federation.session = []) :
    (federation.update side near).Clear key side := by
  refine ⟨?_, ?_⟩
  · rw [update_device_self]
    exact inbound
  · rw [update_device_of_ne _ side.other_ne]
    exact clear.mute

theorem Federation.Clear.updateFar (clear : federation.Clear key side) {far : Device Client}
    (mute : far.Mute key federation.session) :
    (federation.update side.other far).Clear key side := by
  refine ⟨?_, ?_⟩
  · rw [update_device_of_ne _ (Ne.symm side.other_ne)]
    exact clear.inbound
  · rw [update_device_self]
    exact mute

theorem onWay_updateNear (near : Device Client) : (federation.update side near).onWay key side =
    (federation.device side.other).inbound key federation.session ++ near.link.outbound key := by
  rw [Federation.onWay, update_device_self, update_device_of_ne _ side.other_ne]
  rfl

theorem onWay_updateFar (far : Device Client) : (federation.update side.other far).onWay key side =
    far.inbound key federation.session ++ (federation.device side).link.outbound key := by
  rw [Federation.onWay, update_device_self, update_device_of_ne _ (Ne.symm side.other_ne)]
  rfl

/-- The vetting of a link and the order of its frames to the peer. -/
theorem Federation.Greets.update {config : Side → LinkConfig} (greets : federation.Greets config)
    {device : Device Client}
    (vetted : device.link.vetted = false → (federation.device side).link.vetted = false)
    (alive : device.link.alive = true → (federation.device side).link.alive = true)
    (toPeer : ∃ later, device.link.toPeer = (federation.device side).link.toPeer ++ later) :
    (federation.update side device).Greets config := by
  intro here unvetted up
  have before : (federation.device here).link.vetted = false ∧
      (federation.device here).link.alive = true := by
    by_cases same : here = side
    · subst here
      rw [update_device_self] at unvetted up
      exact ⟨vetted unvetted, alive up⟩
    · rw [update_device_of_ne _ same] at unvetted up
      exact ⟨unvetted, up⟩
  obtain ⟨rest, greeting⟩ := greets here before.1 before.2
  by_cases same : here.other = side
  · subst side
    obtain ⟨later, longer⟩ := toPeer
    rw [update_device_self, longer, greeting]
    exact ⟨rest ++ later, rfl⟩
  · rw [update_device_of_ne _ same]
    exact ⟨rest, greeting⟩

theorem Federation.Greets.joined (config : Side → LinkConfig)
    (store : Side → Store (Nat ⊕ Client)) : (Federation.joined config store).Greets config :=
  fun _ _ _ => ⟨[], rfl⟩

/-- The first frame that a link reads vets its peer or stops it. -/
theorem Federation.Greets.peerRead {config : Side → LinkConfig} (greets : federation.Greets config)
    (here : Side) : (federation.peerRead config here).Greets config := by
  unfold Federation.peerRead
  dsimp only
  split
  · rename_i frame rest incoming free alive
    split
    · intro other unvetted up
      rcases here.eq_or_other other with rfl | rfl
      · rw [update_device_self] at unvetted up
        dsimp only at unvetted up
        cases vetted : (federation.device other).link.vetted with
        | true =>
            rw [(peerFrame_vetting _ _ frame).1 vetted] at unvetted
            cases unvetted
        | false =>
            rcases (peerFrame_vetting _ _ frame).2 vetted with now | stopped
            · rw [now] at unvetted
              cases unvetted
            · rw [stopped] at up
              cases up
      · rw [update_device_of_ne _ here.other_ne, update_device_self] at unvetted up
        obtain ⟨later, greeting⟩ := greets here.other unvetted up
        rw [Side.other_other] at greeting ⊢
        rw [update_device_self]
        dsimp only
        rw [(peerFrame_sides _ _ frame).1]
        exact ⟨later, greeting⟩
    · refine greets.update id ?_ ⟨[], (List.append_nil _).symm⟩
      exact Bool.noConfusion
  · exact greets

/-- A step from one state to the next keeps the way to the side clear. What is on its way from it
gains what its daemon reports and loses what the other daemon obeys. -/
structure Federation.Flows (key : Bytes) (side : Side) (reported obeyed : List Change)
    (federation next : Federation Client) : Prop where
  clear : next.Clear key side
  flow : federation.onWay key side ++ reported = obeyed ++ next.onWay key side

theorem Federation.Flows.trans {first second third : Federation Client}
    (one : Federation.Flows key side [] [] first second)
    (two : Federation.Flows key side [] [] second third) :
    Federation.Flows key side [] [] first third :=
  ⟨two.clear, one.flow.trans ((List.append_nil _).symm.trans two.flow)⟩

/-- The daemon of the side reports to its link. -/
theorem Federation.Clear.nearReceives (clear : federation.Clear key side)
    (accounted : (federation.device side).Accounted config federation.session)
    {uplink : Nat → List Frame} {store owned : Store (Nat ⊕ Client)} {own : Bool}
    {frames : List Frame} {reported : List Change} (told : tells key frames = reported)
    (fewer : asks key (uplink federation.session) = []) :
    Federation.Flows key side reported [] federation (federation.update side
      ⟨store, owned, uplink, (federation.device side).link.receive own frames⟩) := by
  subst reported
  refine ⟨clear.updateNear ?_, ?_⟩
  · obtain ⟨-, pending⟩ := List.append_eq_nil_iff.mp clear.inbound
    exact List.append_eq_nil_iff.mpr ⟨fewer, pending⟩
  · rw [onWay_updateNear, outbound_receive (accounted.awaits clear.inbound), List.nil_append,
      ← List.append_assoc]
    rfl

/-- The daemon of the other side obeys its link and reports the echoes. -/
theorem Federation.Clear.farReceives (clear : federation.Clear key side)
    {uplink : Nat → List Frame} {store owned : Store (Nat ⊕ Client)} {own : Bool}
    {frames : List Frame} {obeyed : List Change} (echoes : tells key frames = obeyed)
    (shorter : asks key ((federation.device side.other).uplink federation.session) =
      obeyed ++ asks key (uplink federation.session)) :
    Federation.Flows key side [] obeyed federation (federation.update side.other
      ⟨store, owned, uplink, (federation.device side.other).link.receive own frames⟩) := by
  refine ⟨clear.updateFar (clear.mute.receive echoes shorter), ?_⟩
  rw [onWay_updateFar, Federation.onWay, Device.inbound, Device.inbound, shorter,
    List.append_nil]
  simp only [List.append_assoc]
  rfl

/-- The link of the side moves a change on. -/
theorem Federation.Clear.nearMoves (clear : federation.Clear key side) {near : Device Client}
    (inbound : near.inbound key federation.session =
      (federation.device side).inbound key federation.session)
    (outbound : near.link.outbound key = (federation.device side).link.outbound key) :
    Federation.Flows key side [] [] federation (federation.update side near) := by
  refine ⟨clear.updateNear (inbound.trans clear.inbound), ?_⟩
  rw [onWay_updateNear, outbound, List.append_nil]
  rfl

/-- The link of the other side moves a change on. -/
theorem Federation.Clear.farMoves (clear : federation.Clear key side) {far : Device Client}
    (inbound : far.inbound key federation.session =
      (federation.device side.other).inbound key federation.session)
    (mute : far.Mute key federation.session) :
    Federation.Flows key side [] [] federation (federation.update side.other far) := by
  refine ⟨clear.updateFar mute, ?_⟩
  rw [onWay_updateFar, inbound, List.append_nil]
  rfl

/-- A link that stops moves nothing. -/
theorem Federation.Clear.stop (clear : federation.Clear key side) (here : Side) :
    Federation.Flows key side [] [] federation (federation.update here
      { federation.device here with
        link := { (federation.device here).link with alive := false } }) := by
  rcases side.eq_or_other here with rfl | rfl
  · exact clear.nearMoves rfl rfl
  · exact clear.farMoves rfl ⟨clear.mute.toPeer, clear.mute.localPending, clear.mute.settled⟩

theorem localSend_toPeer (link : Link) :
    ∃ later, link.localSend.toPeer = link.toPeer ++ later := by
  unfold Link.localSend
  split
  · rename_i frame _ _
    exact ⟨[frame], rfl⟩
  · exact ⟨[], (List.append_nil _).symm⟩

theorem hello_asks (config : LinkConfig) : asks key [config.hello] = [] :=
  asks_single_none rfl

/-- Nothing is on its way when the links have just started. -/
theorem startLink_inbound (config : LinkConfig) (device : Device Client) (session : Nat) :
    (device.startLink config session).inbound key session = [] := by
  have none : config.startup.filterMap Frame.command = [] := by
    rw [List.filterMap_eq_nil_iff]
    exact fun frame member => startup_command member
  simp only [Device.inbound, Device.startLink, Function.update_self, Link.start,
    Option.toList_none, asks, none]
  rfl

theorem onWay_joined (config : Side → LinkConfig) (store : Side → Store (Nat ⊕ Client))
    (side : Side) : (Federation.joined config store).onWay key side = [] :=
  List.append_eq_nil_iff.mpr ⟨startLink_inbound _ _ _, by
    rw [Link.outbound, show asks key ((Federation.joined config store).device side).link.toPeer =
      [] from hello_asks _]
    rfl⟩

theorem Federation.Clear.joined (config : Side → LinkConfig)
    (store : Side → Store (Nat ⊕ Client)) (side : Side) :
    (Federation.joined config store).Clear key side := by
  refine ⟨startLink_inbound _ _ _, hello_asks _, rfl, ?_⟩
  intro change _
  rw [show (Federation.joined config store).session = 0 from rfl, Federation.joined,
    startLink_inbound]
  rfl

/-- A link reads a frame of its peer. -/
theorem Federation.Clear.peerRead {config : Side → LinkConfig} (clear : federation.Clear key side)
    (listed : ∀ side, key ∈ (config side).keys) (greets : federation.Greets config) (here : Side) :
    Federation.Flows key side [] [] federation (federation.peerRead config here) := by
  have idle : Federation.Flows key side [] [] federation federation := ⟨clear, List.append_nil _⟩
  unfold Federation.peerRead
  dsimp only
  split
  · rename_i frame rest incoming free alive
    split
    · have ready : (federation.device here).link.vetted = true ∨ asks key [frame] = [] := by
        cases vetted : (federation.device here).link.vetted with
        | true => exact .inl rfl
        | false =>
            obtain ⟨later, greeting⟩ := greets here vetted alive
            rw [incoming] at greeting
            rw [(List.cons.inj greeting).1]
            exact .inr (hello_asks _)
      rcases side.eq_or_other here with rfl | rfl
      · have silent := clear.mute.toPeer
        rw [incoming, asks_cons, List.append_eq_nil_iff] at silent
        have popped : Federation.Flows key here [] [] federation (federation.update here.other
            { federation.device here.other with
              link := { (federation.device here.other).link with toPeer := rest } }) := by
          apply clear.farMoves
          · rfl
          · exact ⟨silent.2, clear.mute.localPending, clear.mute.settled⟩
        have near := update_device_of_ne federation (Ne.symm here.other_ne)
          { federation.device here.other with
            link := { (federation.device here.other).link with toPeer := rest } }
        refine popped.trans (popped.clear.nearMoves ?_ ?_)
        · rw [near]
          change Device.inbound key federation.session _ = _
          rw [inbound_peerFrame (listed here) free ready, silent.1, List.append_nil]
          rfl
        · rw [near]
          exact outbound_peerFrame (listed here) free silent.1
      · rw [Side.other_other] at incoming ⊢
        have pop : (federation.device side).link.outbound key = asks key [frame] ++
            Link.outbound key { (federation.device side).link with toPeer := rest } := by
          simp only [Link.outbound, incoming, asks_cons frame rest, List.append_assoc]
          rfl
        refine ⟨⟨?_, ?_⟩, ?_⟩
        · rw [update_device_of_ne _ (Ne.symm side.other_ne), update_device_self]
          exact clear.inbound
        · rw [update_device_self]
          exact clear.mute.peerFrame (listed side.other) free ready
        · rw [onWay_updateFar, update_device_self, List.append_nil, List.nil_append,
            Federation.onWay, pop]
          change _ = Device.inbound key federation.session _ ++ _
          rw [inbound_peerFrame (listed side.other) free ready, List.append_assoc]
    · exact clear.stop here
  · exact idle

variable [DecidableEq Client]

/-- The changes of the key that the daemon of a side reports to its link in a step. -/
def Federation.reported (key : Bytes) (side : Side) (federation : Federation Client) :
    FederationAction Client → List Change
  | .client here client frame now later =>
      if here = side then
        tells key (((federation.device side).store.handleFrame now later (.inr client) frame).2
          (.inl federation.session))
      else []
  | .sweep here order now =>
      if here = side then
        tells key (((federation.device side).store.sweep now order).2 (.inl federation.session))
      else []
  | .serve here source now later =>
      if here = side then
        match (federation.device side).uplink source with
        | [] => []
        | frame :: _ =>
            tells key (((federation.device side).store.handleFrame now later (.inl source) frame).2
              (.inl federation.session))
      else []
  | _ => []

/-- The commands about the key that the daemon of a side takes from its link in a step. -/
def Federation.obeyed (key : Bytes) (side : Side) (federation : Federation Client) :
    FederationAction Client → List Change
  | .serve here source _ _ =>
      if here = side ∧ source = federation.session then
        match (federation.device side).uplink source with
        | [] => []
        | frame :: _ => asks key [frame]
      else []
  | _ => []

theorem Federation.Greets.step (config : Side → LinkConfig) (federation : Federation Client)
    (action : FederationAction Client) (greets : federation.Greets config) :
    (federation.step config action).Greets config := by
  cases action with
  | client side client frame now later => exact greets.update id id ⟨[], (List.append_nil _).symm⟩
  | sweep side order now => exact greets.update id id ⟨[], (List.append_nil _).symm⟩
  | publish side name payload => exact greets.update id id ⟨[], (List.append_nil _).symm⟩
  | serve side session now later =>
      simp only [Federation.step, Device.serve]
      split <;> exact greets.update id id ⟨[], (List.append_nil _).symm⟩
  | localRead side =>
      obtain ⟨-, alive, toPeer, -, vetted⟩ :=
        localRead_kept (config side) (federation.device side).link
      exact greets.update (vetted ▸ id) alive ⟨[], toPeer.trans (List.append_nil _).symm⟩
  | localSend side =>
      obtain ⟨-, alive, -, vetted⟩ := localSend_kept (federation.device side).link
      exact greets.update (vetted ▸ id) (alive ▸ id) (localSend_toPeer _)
  | peerRead side => exact greets.peerRead side
  | peerSend side =>
      obtain ⟨pending, same⟩ := peerSend_link (federation.device side) federation.session
      refine greets.update ?_ ?_ ?_
      · rw [same]
        exact id
      · rw [same]
        exact id
      · rw [same]
        exact ⟨[], (List.append_nil _).symm⟩

/-- A step keeps the way to a side clear on which the other daemon reports only echoes. -/
theorem Federation.Clear.step {config : Side → LinkConfig} (clear : federation.Clear key side)
    (listed : ∀ side, key ∈ (config side).keys) (accounted : federation.Accounted config)
    (greets : federation.Greets config) (action : FederationAction Client)
    (echoes : federation.reported key side.other action =
      federation.obeyed key side.other action) :
    Federation.Flows key side (federation.reported key side action)
      (federation.obeyed key side.other action) federation (federation.step config action) := by
  have apart : side.other ≠ side := side.other_ne
  have near := (List.append_eq_nil_iff.mp clear.inbound).1
  cases action with
  | client here client frame now later =>
      rcases side.eq_or_other here with rfl | rfl
      · simp only [Federation.reported, Federation.obeyed, if_true]
        exact clear.nearReceives (accounted here) rfl near
      · simp only [Federation.reported, Federation.obeyed, if_true, if_neg apart] at echoes ⊢
        exact clear.farReceives echoes rfl
  | sweep here order now =>
      rcases side.eq_or_other here with rfl | rfl
      · simp only [Federation.reported, Federation.obeyed, if_true]
        exact clear.nearReceives (accounted here) rfl near
      · simp only [Federation.reported, Federation.obeyed, if_true, if_neg apart] at echoes ⊢
        exact clear.farReceives echoes rfl
  | publish here name payload =>
      have silent : tells key (Outbox.sendTo (.inl federation.session : Nat ⊕ Client)
          (Msg.publish.frame name payload) (.inl federation.session)) = [] :=
        tells_sendTo_none (publish_pushed (Msg.frame_msg _ _ _)) _ _
      simp only [Federation.reported, Federation.obeyed]
      rcases side.eq_or_other here with rfl | rfl
      · exact clear.nearReceives (accounted here) silent near
      · exact clear.farReceives silent rfl
  | serve here source now later =>
      cases queued : (federation.device here).uplink source with
      | nil =>
          have same : (federation.device here).serve federation.session source now later =
              federation.device here := by
            simp only [Device.serve, queued]
          simp only [Federation.step, same]
          rcases side.eq_or_other here with rfl | rfl
          · simp only [Federation.reported, Federation.obeyed, queued, Ne.symm apart, if_true,
              false_and, if_false]
            exact clear.nearMoves rfl rfl
          · simp only [Federation.reported, Federation.obeyed, queued, apart, if_false, ite_self]
            exact clear.farMoves rfl clear.mute
      | cons frame rest =>
          simp only [Federation.step, Device.serve, queued]
          rcases side.eq_or_other here with rfl | rfl
          · simp only [Federation.reported, Federation.obeyed, queued, Ne.symm apart, if_true,
              false_and, if_false]
            refine clear.nearReceives (accounted here) rfl ?_
            by_cases mine : source = federation.session
            · subst source
              rw [queued, asks_cons, List.append_eq_nil_iff] at near
              dsimp only
              rw [Function.update_self]
              exact near.2
            · dsimp only
              rw [Function.update_of_ne (Ne.symm mine)]
              exact near
          · simp only [Federation.reported, Federation.obeyed, queued, apart, if_true, if_false,
              true_and] at echoes ⊢
            refine clear.farReceives echoes ?_
            by_cases mine : source = federation.session
            · subst source
              rw [if_pos rfl, queued, asks_cons]
              dsimp only
              rw [Function.update_self]
            · rw [if_neg mine, List.nil_append]
              dsimp only
              rw [Function.update_of_ne (Ne.symm mine)]
  | localRead here =>
      rcases side.eq_or_other here with rfl | rfl
      · refine clear.nearMoves ?_ (localRead_outbound _ _)
        rw [Device.inbound, (localRead_kept _ _).1]
        rfl
      · refine clear.farMoves ?_ clear.mute.localRead
        rw [Device.inbound, (localRead_kept _ _).1]
        rfl
  | localSend here =>
      rcases side.eq_or_other here with rfl | rfl
      · refine clear.nearMoves ?_ (localSend_outbound _)
        rw [Device.inbound, (localSend_kept _).1]
        rfl
      · refine clear.farMoves ?_ clear.mute.localSend
        rw [Device.inbound, (localSend_kept _).1]
        rfl
  | peerRead here => exact clear.peerRead listed greets here
  | peerSend here =>
      rcases side.eq_or_other here with rfl | rfl
      · refine clear.nearMoves inbound_peerSend ?_
        obtain ⟨pending, same⟩ := peerSend_link (federation.device here) federation.session
        rw [same]
        rfl
      · exact clear.farMoves inbound_peerSend clear.mute.peerSend

end Chappe
