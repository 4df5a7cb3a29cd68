import RoomRelay.Proofs.BusReading
import RoomRelay.Proofs.Cluster
import RoomRelay.Proofs.OnlineSet

/-!
A room's events among hubs that share a bus in memory and whose relays listen to it. A broadcast
pushes nothing by itself: it goes onto the bus, and every hub, the publisher included, pushes it to
its own clients when its relay comes to it. Here the steps of all hubs interleave at will, and the
invariant is that what a hub has handled, followed by what its relay has still before it, is what
was broadcast, in that order.
-/

namespace RoomRelay

/-! ## What steps add to the bus -/

/-- `b'` is `b` with messages added, among them these bulletins in order and no envelopes. -/
def MemoryBus.Adds (b b' : MemoryBus) (bulletins : List (Uuid × String)) : Prop :=
  b'.Working ∧ ∃ added, b'.history = b.history ++ added ∧
    added.filterMap BusMessage.bulletin? = bulletins ∧
    ∀ m ∈ added, Channel.topic m.channel ≠ .userEvents

namespace MemoryBus

variable {b b' : MemoryBus}

private theorem adds_nothing (working : b'.Working) (log : b'.log = b.log) : b.Adds b' [] :=
  ⟨working, [], by simp [history, log], rfl, by simp⟩

private theorem adds_message (working : b'.Working) (log : b'.log = b.log) {m : BusMessage}
    (noEnvelope : Channel.topic m.channel ≠ .userEvents) :
    b.Adds (b'.append m) m.bulletin?.toList := by
  refine ⟨append_working working m, [m], ?_, ?_, by simpa using noEnvelope⟩
  · rw [history_append]
    simp [history, log]
  · cases found : m.bulletin? <;> simp [found]

end MemoryBus

namespace Presence

variable {b : MemoryBus}

private theorem notice_noEnvelope (p : Presence) (user : Uuid) (online : Bool) :
    Channel.topic (p.notice user online).channel ≠ .userEvents := by
  have about : Channel.topic (p.notice user online).channel = .presence := Channel.topic_presence
  rw [about]
  decide

private theorem markOnline_adds (working : b.Working) (p : Presence) (now : Nat) (user : Uuid) :
    ∃ b', (p.markOnline (some b) now user).2 = some b' ∧ b.Adds b' [] := by
  refine ⟨_, markOnline_bus working p now user, ?_⟩
  have added := MemoryBus.adds_message
    (MemoryBus.setAdd_working working now Channel.onlineSet user.text p.lease)
    (MemoryBus.setAdd_log ..) (notice_noEnvelope p user true)
  simpa [bulletin_notice] using added

private theorem markOffline_adds (working : b.Working) (p : Presence) (user : Uuid) :
    ∃ b', (p.markOffline (some b) user).2 = some b' ∧ b.Adds b' [] := by
  refine ⟨_, markOffline_bus working p user, ?_⟩
  have added := MemoryBus.adds_message
    (MemoryBus.setRemove_working working Channel.onlineSet user.text)
    (MemoryBus.setRemove_log ..) (notice_noEnvelope p user false)
  simpa [bulletin_notice] using added

private theorem refreshOn_adds (working : b.Working) (p : Presence) (now : Nat)
    (users : List Uuid) :
    b.Adds (p.refreshOn b now users) [] := by
  suffices kept : (p.refreshOn b now users).Working ∧ (p.refreshOn b now users).log = b.log from
    MemoryBus.adds_nothing kept.1 kept.2
  induction users generalizing b with
  | nil => exact ⟨working, rfl⟩
  | cons user rest ih =>
    have added := MemoryBus.setAdd_eq working now Channel.onlineSet user.text p.lease
    have next := MemoryBus.setAdd_working working now Channel.onlineSet user.text p.lease
    have log := MemoryBus.setAdd_log b now Channel.onlineSet user.text p.lease
    unfold refreshOn
    simp only [SharedBus.setAdd]
    rw [added] at next log ⊢
    obtain ⟨later, logs⟩ := ih next
    exact ⟨later, logs.trans log⟩

end Presence

namespace Site

variable {s : Site MemoryBus} {b : MemoryBus}

/-- While the relay listens, a broadcast goes onto the bus and nowhere else. -/
private theorem broadcast_relayed (on : s.bus = some b) (working : b.Working)
    (listening : s.hub.subscribed = true) (room : Uuid) (e : Event) :
    (s.broadcast room e).1 = { s with bus := some (b.append (roomMessage room e.render)) } := by
  have accepted := MemoryBus.publish_eq working (roomMessage room e.render)
  have published := publishOn_accepted (congrArg Prod.snd accepted) s .room
  rw [accepted] at published
  simp [broadcast, on, listening, relayBroadcast, published]

/-- Changes of the roster put no bulletin on the bus. -/
private theorem changeRoster_adds (on : s.bus = some b) (working : b.Working)
    (running : s.hub.stopped = false) (x : RosterChange) :
    ∃ b', (s.changeRoster x).bus = some b' ∧ b.Adds b' [] := by
  have unchanged : b.Adds b [] := MemoryBus.adds_nothing working rfl
  cases x with
  | register now id =>
    simp only [changeRoster]
    cases s.queues.get? id with
    | none => exact ⟨b, on, unchanged⟩
    | some c =>
      dsimp only
      rw [register_bus running, on]
      split
      · exact Presence.markOnline_adds working s.hub.presence now c.user
      · exact ⟨b, rfl, unchanged⟩
  | unregister id =>
    simp only [changeRoster]
    cases s.queues.get? id with
    | none => exact ⟨b, on, unchanged⟩
    | some c =>
      dsimp only
      rw [unregister_bus running, on]
      split
      · exact Presence.markOffline_adds working s.hub.presence c.user
      · exact ⟨b, rfl, unchanged⟩
  | listen room user => exact ⟨b, on, unchanged⟩
  | unlisten room user => exact ⟨b, on, unchanged⟩
  | refresh now =>
    simp only [changeRoster, Site.refresh, on, Presence.refresh, Option.map_some]
    split
    · exact ⟨b, on, unchanged⟩
    · exact ⟨_, rfl, Presence.refreshOn_adds working s.hub.presence now _⟩

end Site

/-! ## Hubs and their relays -/

/-- Something that happens on a hub whose relay listens. -/
inductive RelayMove where
  | broadcast (room : Uuid) (e : Event)
  /-- The relay comes to its next message and handles it. -/
  | handle
  | roster (x : RosterChange)
  | client (id : ConnId) (a : ClientAct)

/-- The bulletin that a move broadcasts. -/
def RelayMove.sent? : RelayMove → Option (Uuid × String)
  | .broadcast room e => some (room, e.render)
  | .handle | .roster _ | .client _ _ => none

/-- What a move does to a connection of its hub besides pushing. -/
def RelayMove.touch (x : RelayMove) (id : ConnId) (c : Connection) : Connection :=
  match x with
  | .roster (.unregister other) => if id = other then c.close else c
  | .client other a => if id = other then a.onConnection c else c
  | _ => c

/-- Hubs on one bus in memory, and the places of their relays in its messages. -/
structure Relays (ι : Type) where
  hubs : Cluster ι MemoryBus
  reading : ι → Subscription

namespace Relays

variable {ι : Type}

/-- Hubs just started on an empty bus, whose relays have subscribed. -/
def started (configs : ι → Config) (now : Nat) (queues : ι → Queues) : Relays ι :=
  { hubs :=
      { hubs := fun i => { Hub.start (configs i) now with subscribed := true }
        queues, wired := fun _ => true, bus := .empty }
    reading := fun _ => ⟨relayFilter, 0⟩ }

/-- The operation that a move is. Handling is none when no message is there. -/
def op? (r : Relays ι) (i : ι) : RelayMove → Option (Op MemoryBus)
  | .broadcast room e => some (.send (.broadcast room e))
  | .handle => (r.hubs.bus.next (r.reading i)).1.map fun m => .send (.receive m)
  | .roster x => some (.roster x)
  | .client id a => some (.client id a)

/-- The place of a hub's relay after a move on that hub. -/
def place (r : Relays ι) (i : ι) : RelayMove → Subscription
  | .handle => (r.hubs.bus.next (r.reading i)).2
  | .broadcast _ _ | .roster _ | .client _ _ => r.reading i

/-- The bulletin that a hub handles in a move. -/
def handled? (r : Relays ι) (i : ι) : RelayMove → Option (Uuid × String)
  | .handle => (r.hubs.bus.next (r.reading i)).1.bind BusMessage.bulletin?
  | .broadcast _ _ | .roster _ | .client _ _ => none

/-- The connections that a move on a hub pushes to: when the hub handles a bulletin, those of the
users who listen to its room there. -/
def targets (r : Relays ι) (i : ι) (x : RelayMove) : List ConnId :=
  match r.handled? i x with
  | some (room, _) => (r.hubs.hubs i).registry.recipients room
  | none => []

/-- The text that a move on a hub pushes. -/
def text (r : Relays ι) (i : ι) (x : RelayMove) : String := ((r.handled? i x).map (·.2)).getD ""

/-- The bulletins that a hub's relay has still before it. -/
def ahead (r : Relays ι) (i : ι) : List (Uuid × String) :=
  (r.hubs.bus.history.drop (r.reading i).position).filterMap BusMessage.bulletin?

/-- No relay is so far behind that it loses messages. -/
def KeepsUp (r : Relays ι) : Prop := ∀ i, ¬r.hubs.bus.Lags (r.reading i)

/-- Every hub runs on a working bus, its relay listens and stands at a place in the bus's messages
behind which there are no envelopes. -/
structure Listening (r : Relays ι) : Prop where
  sound : r.hubs.Sound
  running : ∀ i, (r.hubs.hubs i).stopped = false
  subscribed : ∀ i, (r.hubs.hubs i).subscribed = true
  wired : ∀ i, r.hubs.wired i = true
  working : r.hubs.bus.Working
  asking : ∀ i, (r.reading i).filter = relayFilter
  within : ∀ i, (r.reading i).position ≤ r.hubs.bus.count
  noEnvelopes : ∀ i, ∀ m ∈ r.hubs.bus.history.drop (r.reading i).position,
    Channel.topic m.channel ≠ .userEvents

theorem started_listening (configs : ι → Config) (now : Nat) (queues : ι → Queues) :
    (started configs now queues).Listening where
  sound := fun _ => Registry.sound_empty _
  running := fun _ => rfl
  subscribed := fun _ => rfl
  wired := fun _ => rfl
  working := ⟨rfl, List.nodup_nil⟩
  asking := fun _ => rfl
  within := fun _ => Nat.le_refl 0
  noEnvelopes := by simp [started, MemoryBus.history, MemoryBus.empty]

variable {r : Relays ι} {i j : ι}

theorem site_bus (listening : r.Listening) (i : ι) : (r.hubs.site i).bus = some r.hubs.bus := by
  simp [Cluster.site, listening.wired i]

/-- What a relay has pending are, of bulletins, those before it. -/
theorem pending_bulletins (listening : r.Listening) (keepsUp : r.KeepsUp) (i : ι) :
    (r.hubs.bus.pending (r.reading i)).filterMap BusMessage.bulletin? = r.ahead i := by
  rw [MemoryBus.pending_eq (keepsUp i), listening.asking i, bulletins_filter]
  rfl

/-- What the relay of the hub does in a move: handling takes it over the messages up to the one it
handles, among which that one alone may be a bulletin; any other move leaves it at its place. -/
private theorem place_cases (listening : r.Listening) (keepsUp : r.KeepsUp) (i : ι)
    (x : RelayMove) :
    ∃ passed, r.hubs.bus.history.drop (r.reading i).position =
        passed ++ r.hubs.bus.history.drop (r.place i x).position ∧
      passed.filterMap BusMessage.bulletin? = (r.handled? i x).toList ∧
      (r.place i x).filter = relayFilter ∧ (r.place i x).position ≤ r.hubs.bus.count := by
  have stays : ∃ passed : List BusMessage, r.hubs.bus.history.drop (r.reading i).position =
        passed ++ r.hubs.bus.history.drop (r.reading i).position ∧
      passed.filterMap BusMessage.bulletin? = [] ∧
      (r.reading i).filter = relayFilter ∧ (r.reading i).position ≤ r.hubs.bus.count :=
    ⟨[], rfl, rfl, listening.asking i, listening.within i⟩
  cases x with
  | handle =>
    have refused {m : BusMessage} (skipped : (r.reading i).filter.accepts m.channel = false) :
        m.bulletin? = none := bulletin_of_refused (listening.asking i ▸ skipped)
    rcases MemoryBus.next_cases (keepsUp i) with ⟨passed, m, rest, split, skipped, next⟩ |
      ⟨skipped, next⟩
    · have nothing : passed.filterMap BusMessage.bulletin? = [] :=
        List.filterMap_eq_nil_iff.mpr fun n member => refused (skipped n member)
      have length := congrArg List.length split
      simp only [List.length_drop, MemoryBus.history_length, List.length_append,
        List.length_cons] at length
      have behind : r.hubs.bus.history.drop ((r.reading i).position + passed.length + 1) = rest := by
        rw [Nat.add_assoc, ← List.drop_drop, split]
        simp
      refine ⟨passed ++ [m], ?_, ?_, ?_, ?_⟩
      · simp only [place, next, behind]
        simp [split]
      · simp only [handled?, next, Option.bind_some, List.filterMap_append, nothing,
          List.nil_append]
        cases found : m.bulletin? <;> simp [found]
      · simp only [place, next]
        exact listening.asking i
      · simp only [place, next]
        omega
    · refine ⟨r.hubs.bus.history.drop (r.reading i).position, ?_, ?_, ?_, ?_⟩
      · have nothing : r.hubs.bus.history.drop r.hubs.bus.count = [] :=
          List.drop_eq_nil_of_le (by simp)
        simp only [place, next, nothing, List.append_nil]
      · simp only [handled?, next, Option.bind_none, Option.toList_none]
        exact List.filterMap_eq_nil_iff.mpr fun n member => refused (skipped n member)
      · simp only [place, next]
        exact listening.asking i
      · simp only [place, next]
        exact Nat.le_refl _
  | broadcast room e => exact stays
  | roster x => exact stays
  | client id a => exact stays

private theorem goesOn_of_op {x : RelayMove} {op : Op MemoryBus} (is : r.op? i x = some op)
    (y : Ending) :
    op ≠ .ending y := by
  cases x with
  | handle =>
    obtain ⟨m, -, rfl⟩ := Option.map_eq_some_iff.mp is
    exact fun same => by cases same
  | broadcast room e => cases is; exact fun same => by cases same
  | roster x => cases is; exact fun same => by cases same
  | client id a => cases is; exact fun same => by cases same

/-- Nobody is a target twice. -/
private theorem targets_nodup (listening : r.Listening) (i : ι) (x : RelayMove) :
    (r.targets i x).Nodup := by
  unfold targets
  split
  · exact (listening.sound i).recipients_nodup _
  · exact List.nodup_nil

/-- An operation of a move makes the fan-out of the bulletin that is handled in it, or none. -/
private theorem fanOut_of_op (listening : r.Listening) (keepsUp : r.KeepsUp) {x : RelayMove}
    {op : Op MemoryBus} (is : r.op? i x = some op) :
    ((r.hubs.site i).fanOut op).targets = r.targets i x ∧
      (r.targets i x ≠ [] → ((r.hubs.site i).fanOut op).text = r.text i x) := by
  cases x with
  | broadcast room e =>
    cases is
    have on := site_bus listening i
    have accepted := MemoryBus.publish_eq listening.working (Site.roomMessage room e.render)
    have relayed : (r.hubs.site i).deliversOnsite room e = false := by
      have subscribed : (r.hubs.site i).hub.subscribed = true := listening.subscribed i
      simp only [Site.deliversOnsite, on, accepted, subscribed]
      rfl
    simp [Site.fanOut, Site.sendingFanOut, Site.broadcastFanOut, relayed, FanOut.none, targets,
      handled?]
  | handle =>
    obtain ⟨m, next, rfl⟩ := Option.map_eq_some_iff.mp is
    have noEnvelope : Channel.topic m.channel ≠ .userEvents := by
      rcases MemoryBus.next_cases (keepsUp i) with ⟨passed, n, rest, split, -, found⟩ | ⟨-, found⟩
      · rw [found] at next
        cases next
        exact listening.noEnvelopes i m (by rw [split]; simp)
      · rw [found] at next
        cases next
    simp only [Site.fanOut, Site.sendingFanOut, Site.messageFanOut, targets, text, handled?, next,
      Option.bind_some, BusMessage.bulletin?]
    cases topic : Channel.topic m.channel with
    | room id => exact ⟨rfl, fun _ => rfl⟩
    | userEvents => exact absurd topic noEnvelope
    | presence => simp [FanOut.none]
    | other => simp [FanOut.none]
  | roster x =>
    cases is
    simp [Site.fanOut, FanOut.none, targets, handled?]
  | client id a =>
    cases is
    simp [Site.fanOut, FanOut.none, targets, handled?]

private theorem touch_of_op (listening : r.Listening) {x : RelayMove} {op : Op MemoryBus}
    (is : r.op? i x = some op) (id : ConnId) (c : Connection) :
    (r.hubs.site i).touch id c op = x.touch id c := by
  have running : (r.hubs.site i).hub.stopped = false := listening.running i
  cases x with
  | broadcast room e => cases is; rfl
  | handle =>
    obtain ⟨m, -, rfl⟩ := Option.map_eq_some_iff.mp is
    rfl
  | roster x =>
    cases is
    cases x with
    | unregister other => simp [Site.touch, RelayMove.touch, running]
    | register now other => rfl
    | listen room user => rfl
    | unlisten room user => rfl
    | refresh now => rfl
  | client other a => cases is; rfl

/-- A move that is no operation handles nothing and touches nobody. -/
private theorem idle_of_no_op {x : RelayMove} (idle : r.op? i x = none) :
    r.targets i x = [] ∧ ∀ id c, x.touch id c = c := by
  cases x with
  | handle =>
    have nothing := Option.map_eq_none_iff.mp idle
    exact ⟨by simp [targets, handled?, nothing], fun _ _ => rfl⟩
  | broadcast room e => cases idle
  | roster x => cases idle
  | client id a => cases idle

variable [DecidableEq ι]

/-- The hubs after a move on one of them. -/
def step (r : Relays ι) (i : ι) (x : RelayMove) : Relays ι :=
  { hubs := match r.op? i x with
      | some op => r.hubs.step i op
      | none => r.hubs
    reading := Function.update r.reading i (r.place i x) }

/-- The hubs after a run. -/
def run (r : Relays ι) (moves : List (ι × RelayMove)) : Relays ι :=
  moves.foldl (fun r m => r.step m.1 m.2) r

/-! ## One step -/

/-- A move adds to the bus the bulletin it broadcasts, and no other. -/
private theorem step_adds (listening : r.Listening) (i : ι) (x : RelayMove) :
    r.hubs.bus.Adds (r.step i x).hubs.bus x.sent?.toList := by
  have on := site_bus listening i
  have unchanged : r.hubs.bus.Adds r.hubs.bus [] :=
    MemoryBus.adds_nothing listening.working rfl
  cases x with
  | broadcast room e =>
    have relayed := Site.broadcast_relayed on listening.working (listening.subscribed i) room e
    have added := MemoryBus.adds_message listening.working rfl
      (m := Site.roomMessage room e.render) (by simp [Site.roomMessage, Channel.topic_room])
    simp only [step, op?, Cluster.step, Cluster.put, Site.act, Site.send, relayed,
      Option.getD_some]
    simpa [RelayMove.sent?, bulletin_roomMessage] using added
  | handle =>
    simp only [step, op?]
    cases (r.hubs.bus.next (r.reading i)).1 with
    | none => exact unchanged
    | some m =>
      simp only [Option.map_some, Cluster.step, Cluster.put, Site.act, Site.send,
        Site.receive_bus, on, Option.getD_some]
      exact unchanged
  | roster x =>
    obtain ⟨b, after, added⟩ :=
      Site.changeRoster_adds on listening.working (listening.running i) x
    simp only [step, op?, Cluster.step, Cluster.put, Site.act, after, Option.getD_some]
    exact added
  | client id a =>
    simp only [step, op?, Cluster.step, Cluster.put, Site.act, on, Option.getD_some]
    exact unchanged

private theorem reading_step (r : Relays ι) (i : ι) (x : RelayMove) (j : ι) :
    (r.step i x).reading j = if j = i then r.place i x else r.reading j := by
  by_cases same : j = i
  · subst same
    simp [step]
  · simp [step, same]

/-- What a hub handles in a move, followed by the bulletins then before it, is the bulletins that
were before it, followed by the one that the move broadcasts. -/
theorem step_ahead (listening : r.Listening) (keepsUp : r.KeepsUp) (i : ι) (x : RelayMove) (j : ι) :
    (if j = i then (r.handled? i x).toList else []) ++ (r.step i x).ahead j =
      r.ahead j ++ x.sent?.toList := by
  obtain ⟨-, added, history, sent, -⟩ := step_adds listening i x
  have grown {position : Nat} (within : position ≤ r.hubs.bus.count) :
      ((r.step i x).hubs.bus.history.drop position).filterMap BusMessage.bulletin? =
        (r.hubs.bus.history.drop position).filterMap BusMessage.bulletin? ++ x.sent?.toList := by
    rw [history, List.drop_append_of_le_length (by simpa using within), List.filterMap_append, sent]
  unfold ahead
  rw [reading_step]
  by_cases same : j = i
  · subst same
    obtain ⟨passed, split, handled, -, within⟩ := place_cases listening keepsUp j x
    rw [if_pos rfl, if_pos rfl, grown within, split, List.filterMap_append, handled,
      List.append_assoc]
  · rw [if_neg same, if_neg same, grown (listening.within j)]
    rfl

theorem step_flags (listening : r.Listening) (i : ι) (x : RelayMove) (j : ι) :
    ((r.step i x).hubs.hubs j).subscribed = (r.hubs.hubs j).subscribed ∧
      ((r.step i x).hubs.hubs j).stopped = (r.hubs.hubs j).stopped := by
  unfold step
  cases found : r.op? i x with
  | none => exact ⟨rfl, rfl⟩
  | some op => exact Cluster.step_flags listening.sound i op (goesOn_of_op found) j

theorem step_listening (listening : r.Listening) (keepsUp : r.KeepsUp) (i : ι) (x : RelayMove) :
    (r.step i x).Listening := by
  obtain ⟨working, added, history, -, noEnvelopes⟩ := step_adds listening i x
  obtain ⟨passed, split, -, asking, within⟩ := place_cases listening keepsUp i x
  have count : (r.step i x).hubs.bus.count = r.hubs.bus.count + added.length := by
    have length := congrArg List.length history
    simpa using length
  have places : ∀ j, ((r.step i x).reading j).position ≤ r.hubs.bus.count := by
    intro j
    rw [reading_step]
    split
    · exact within
    · exact listening.within j
  refine ⟨?_, fun j => ?_, fun j => ?_, ?_, working, fun j => ?_, fun j => ?_, fun j m member => ?_⟩
  · unfold step
    cases r.op? i x with
    | none => exact listening.sound
    | some op => exact Cluster.step_sound listening.sound i op
  · exact (step_flags listening i x j).2.trans (listening.running j)
  · exact (step_flags listening i x j).1.trans (listening.subscribed j)
  · unfold step
    cases r.op? i x with
    | none => exact listening.wired
    | some op => exact listening.wired
  · rw [reading_step]
    split
    · exact asking
    · exact listening.asking j
  · have old := places j
    omega
  · rw [history, List.drop_append_of_le_length (by simpa using places j)] at member
    rcases List.mem_append.mp member with old | new
    · refine listening.noEnvelopes j m ?_
      rw [reading_step] at old
      split at old
      · rename_i same
        subst same
        rw [split]
        exact List.mem_append_right _ old
      · exact old
    · exact noEnvelopes m new

/-! ## Queues -/

/-- What a move does to any queue: a push of its text if the connection is one of its targets, and
otherwise what it does besides. -/
theorem step_queue (listening : r.Listening) (keepsUp : r.KeepsUp) (i : ι) (x : RelayMove) (j : ι)
    (id : ConnId) :
    ((r.step i x).hubs.queues j).get? id = ((r.hubs.queues j).get? id).map fun c =>
      if j = i then if id ∈ r.targets i x then (c.push (r.text i x)).1 else x.touch id c else c := by
  unfold step
  cases found : r.op? i x with
  | none =>
    obtain ⟨nobody, untouched⟩ := idle_of_no_op found
    simp [nobody, untouched]
  | some op =>
    by_cases same : j = i
    · subst same
      obtain ⟨targets, text⟩ := fanOut_of_op listening keepsUp found
      have acted := Site.act_queue (s := r.hubs.site j) (listening.sound j) op id
      simp only [Cluster.step, Cluster.put_queues_same, if_true]
      rw [acted, targets]
      congr 1
      funext c
      by_cases target : id ∈ r.targets j x
      · rw [if_pos target, if_pos target, text (List.ne_nil_of_mem target)]
      · rw [if_neg target, if_neg target, touch_of_op listening found]
    · simp [Cluster.step, Cluster.put_queues_other same, same]

/-- A hub counts the targets whose queues are full, and nothing else. -/
theorem step_dropped (listening : r.Listening) (keepsUp : r.KeepsUp) (i : ι) (x : RelayMove)
    (j : ι) :
    ((r.step i x).hubs.hubs j).registry.dropped = (r.hubs.hubs j).registry.dropped +
      if j = i then
        (r.targets i x).countP fun id =>
          ((r.hubs.queues i).get? id).any fun c => (c.push (r.text i x)).2 = .full
      else 0 := by
  unfold step
  cases found : r.op? i x with
  | none =>
    obtain ⟨nobody, -⟩ := idle_of_no_op found
    simp [nobody]
  | some op =>
    by_cases same : j = i
    · subst same
      obtain ⟨targets, text⟩ := fanOut_of_op listening keepsUp found
      have acted := Site.act_dropped (s := r.hubs.site j) (listening.sound j) op
      simp only [Cluster.step, Cluster.put_hub_same, if_true]
      rw [acted, Site.pushes, targets,
        Site.count_outcomes _ _ (targets_nodup listening j x) .full (by simp)]
      congr 1
      apply List.countP_congr
      intro id target
      rw [text (List.ne_nil_of_mem target)]
      rfl
    · simp [Cluster.step, Cluster.put_hub_other same, same]

end Relays

end RoomRelay
