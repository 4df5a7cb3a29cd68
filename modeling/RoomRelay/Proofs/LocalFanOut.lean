import RoomRelay.Proofs.RegistryInvariants

/-!
A fan-out on one hub, to the last connection: the text comes once to every open connection of the
users it is for that has a free slot, the open ones without are counted as drops, and nothing else
on the hub changes. Which connections these are is said of the connections themselves, whatever the
order in which a fan-out finds them.
-/

namespace RoomRelay

namespace Connection

/-- Whether a text that comes is queued. -/
def hasSlot (c : Connection) : Bool := c.isOpen && decide (c.pending.length < c.capacity)

/-- Whether a text that comes is dropped for lack of a slot. -/
def isFull (c : Connection) : Bool := c.isOpen && decide (c.capacity ≤ c.pending.length)

/-- The connection with a text at the end of its queue. -/
def enqueue (c : Connection) (payload : String) : Connection :=
  { c with pending := c.pending ++ [payload] }

/-- What becomes of a push is decided by whether the connection is open and has a slot. -/
theorem push_outcome (c : Connection) (payload : String) :
    c.push payload =
      if c.hasSlot then (c.enqueue payload, .queued)
      else if c.isFull then (c, .full)
      else (c, .closed) := by
  unfold push hasSlot isFull enqueue
  by_cases shut : c.isOpen = true
  · by_cases room : c.capacity ≤ c.pending.length
    · simp [shut, room, Nat.not_lt.mpr room]
    · simp [shut, room, Nat.lt_of_not_le room]
  · simp [shut]

private theorem push_connection (c : Connection) (payload : String) :
    (c.push payload).1 = if c.hasSlot then c.enqueue payload else c := by
  rw [push_outcome]
  split
  · rfl
  · split <;> rfl

private theorem push_queued (c : Connection) (payload : String) :
    decide ((c.push payload).2 = .queued) = c.hasSlot := by
  rw [push_outcome]
  by_cases slot : c.hasSlot = true
  · simp [slot]
  · by_cases full : c.isFull = true <;> simp [slot, full]

private theorem push_full (c : Connection) (payload : String) :
    decide ((c.push payload).2 = .full) = c.isFull := by
  rw [isFull, Bool.eq_iff_iff, decide_eq_true_iff, push_full_iff, Bool.and_eq_true,
    decide_eq_true_iff]

end Connection

namespace Site

variable {β : Type} {s : Site β} {among : Uuid → Bool} {ids : List ConnId}

/-- Whether a connection stands in the registry for one of some users. -/
def addresses (s : Site β) (among : Uuid → Bool) (id : ConnId) (c : Connection) : Bool :=
  among c.user && (s.hub.registry.connectionsOf c.user).contains id

/-- How many connections in the registry belong to some users and are of a kind. -/
def countAmong (s : Site β) (among : Uuid → Bool) (kind : Connection → Bool) : Nat :=
  s.hub.registry.allConnections.countP fun id =>
    (s.queues.get? id).any fun c => among c.user && kind c

/-- The site and the report after a text for some users was fanned out to them on this hub. -/
structure FansOut (s : Site β) (among : Uuid → Bool) (payload : String)
    (result : Site β × DeliveryStats) : Prop where
  /-- The text stands once more, at the end, in the queue of every open connection of these users
  that has a slot. Every other queue is as it was. -/
  queues : ∀ id, result.1.queues.get? id = (s.queues.get? id).map fun c =>
    if s.addresses among id c && c.hasSlot then c.enqueue payload else c
  delivered : result.2.delivered = s.countAmong among Connection.hasSlot
  dropped : result.2.dropped = s.countAmong among Connection.isFull
  /-- Of the hub the two counts of drops go up. Connections, rooms and all else stay. -/
  hub : result.1.hub =
    { s.hub with
      registry := { s.hub.registry with dropped := s.hub.registry.dropped + result.2.dropped }
      meters := { s.hub.meters with
        droppedEvents := s.hub.meters.droppedEvents + result.2.dropped } }
  bus : result.1.bus = s.bus

/-- Connections that are those of some users, each named once. -/
structure NamesAll (s : Site β) (among : Uuid → Bool) (ids : List ConnId) : Prop where
  once : ids.Nodup
  all : ∀ id, id ∈ ids ↔ ∃ user, among user = true ∧ id ∈ s.hub.registry.connectionsOf user

theorem NamesAll.recipients (sound : s.hub.registry.Sound s.owner) (room : Uuid) :
    s.NamesAll (s.hub.registry.isListening room) (s.hub.registry.recipients room) where
  once := sound.recipients_nodup room
  all := by
    intro id
    simp only [Registry.mem_recipients, Registry.isListening, List.contains_iff_mem]

theorem NamesAll.connectionsOf (sound : s.hub.registry.Sound s.owner) (user : Uuid) :
    s.NamesAll (· == user) (s.hub.registry.connectionsOf user) where
  once := sound.idsOnce user
  all := by
    intro id
    simp only [beq_iff_eq, exists_eq_left]

/-- A connection in the registry stands there for its own user. -/
private theorem mem_connectionsOf_iff (sound : s.hub.registry.Sound s.owner) {id : ConnId}
    {c : Connection}
    (found : s.queues.get? id = some c) (user : Uuid) :
    id ∈ s.hub.registry.connectionsOf user ↔
      c.user = user ∧ id ∈ s.hub.registry.connectionsOf c.user := by
  constructor
  · intro member
    have own : s.owner id = some user := sound.idsOwned user id member
    have same : c.user = user := by simpa [owner, found] using own
    exact ⟨same, same ▸ member⟩
  · rintro ⟨rfl, member⟩
    exact member

theorem NamesAll.mem_iff (names : s.NamesAll among ids) (sound : s.hub.registry.Sound s.owner)
    {id : ConnId} {c : Connection} (found : s.queues.get? id = some c) :
    id ∈ ids ↔ s.addresses among id c = true := by
  rw [names.all, addresses, Bool.and_eq_true, List.contains_iff_mem]
  constructor
  · rintro ⟨user, chosen, member⟩
    obtain ⟨rfl, own⟩ := (mem_connectionsOf_iff sound found user).mp member
    exact ⟨chosen, own⟩
  · rintro ⟨chosen, own⟩
    exact ⟨c.user, chosen, own⟩

/-- To count among the connections that are named is to count among all those of the registry. -/
private theorem NamesAll.countP_eq (names : s.NamesAll among ids)
    (sound : s.hub.registry.Sound s.owner)
    (kind : Connection → Bool) :
    (ids.countP fun id => (s.queues.get? id).any kind) = s.countAmong among kind := by
  rw [countAmong, List.countP_eq_length_filter, List.countP_eq_length_filter]
  refine List.Perm.length_eq ((List.perm_ext_iff_of_nodup (names.once.filter _)
    (sound.allConnections_nodup.filter _)).mpr fun id => ?_)
  rw [List.mem_filter, List.mem_filter, Registry.mem_allConnections sound.usersOnce]
  cases found : s.queues.get? id with
  | none => simp
  | some c =>
    have anywhere : (∃ user, id ∈ s.hub.registry.connectionsOf user) ↔
        id ∈ s.hub.registry.connectionsOf c.user :=
      ⟨fun ⟨user, member⟩ => ((mem_connectionsOf_iff sound found user).mp member).2,
        fun member => ⟨c.user, member⟩⟩
    rw [names.mem_iff sound found, addresses, anywhere]
    simp only [Option.any_some, Bool.and_eq_true, List.contains_iff_mem]
    tauto

/-- Pushing to every connection of some users fans the text out to them. -/
theorem NamesAll.fansOut (names : s.NamesAll among ids) (sound : s.hub.registry.Sound s.owner)
    (payload : String) : s.FansOut among payload (s.pushAll payload {} ids) := by
  have stats := pushAll_stats s payload {} ids
  have dropped : (s.pushAll payload {} ids).2.dropped = (s.outcomes payload ids).count .full := by
    rw [stats]
    exact Nat.zero_add _
  refine ⟨?_, ?_, ?_, ?_, pushAll_bus ..⟩
  · intro id
    rw [pushAll_queue s payload {} names.once]
    cases found : s.queues.get? id with
    | none => simp
    | some c =>
      simp only [Option.map_some, Connection.push_connection, names.mem_iff sound found, Bool.and_eq_true]
      by_cases addressed : s.addresses among id c = true <;> simp [addressed]
  · rw [stats, ← names.countP_eq sound]
    refine (Nat.zero_add _).trans ?_
    rw [count_outcomes s payload names.once .queued (by simp)]
    simp only [Connection.push_queued]
  · rw [dropped, count_outcomes s payload names.once .full (by simp), ← names.countP_eq sound]
    simp only [Connection.push_full]
  · rw [dropped]
    exact pushAll_hub s payload {} ids

/-- A text for a room goes to the connections of its listeners, and a text for a user to the user's
own. This holds wherever the registry is sound, as every run leaves it (`run_sound`), whatever the
queues hold and whoever is closed. -/
theorem local_fan_outs_exact (sound : s.hub.registry.Sound s.owner) :
    (∀ room payload,
      s.FansOut (s.hub.registry.isListening room) payload (s.localBroadcast room payload)) ∧
    ∀ user payload, s.FansOut (· == user) payload (s.deliverToUser user payload) :=
  ⟨fun room payload => (NamesAll.recipients sound room).fansOut sound payload,
    fun user payload => (NamesAll.connectionsOf sound user).fansOut sound payload⟩

/-- Three connections of a user, of which one has a slot, one is full and one is closed; one of a
user whose reader has gone; and one of a user who listens to nothing. -/
def mixedQueues : Queues :=
  [(⟨0⟩, { user := ⟨7⟩, capacity := 2, pending := ["old"] }),
    (⟨1⟩, { user := ⟨7⟩, capacity := 1, pending := ["old"] }),
    (⟨2⟩, { user := ⟨7⟩, capacity := 1, closed := true }),
    (⟨3⟩, { user := ⟨8⟩, capacity := 1, receiving := false }),
    (⟨4⟩, { user := ⟨9⟩, capacity := 1 })]

/-- The connections of `mixedQueues` are registered, and two of the users listen to a room. -/
def mixedSite : Site MemoryBus :=
  (fresh (.trial ⟨1⟩) 0 mixedQueues none).run
    [.roster (.register 0 ⟨0⟩), .roster (.register 0 ⟨1⟩), .roster (.register 0 ⟨2⟩),
      .roster (.register 0 ⟨3⟩), .roster (.register 0 ⟨4⟩), .roster (.listen ⟨5⟩ ⟨7⟩),
      .roster (.listen ⟨5⟩ ⟨8⟩)]

/-- Of the five connections one gets the room's text and one is counted as a drop. -/
theorem mixedSite_fans_out :
    mixedSite.hub.registry.Sound mixedSite.owner ∧
      (mixedSite.localBroadcast ⟨5⟩ "new").2.delivered = 1 ∧
      (mixedSite.localBroadcast ⟨5⟩ "new").2.dropped = 1 ∧
      (mixedSite.localBroadcast ⟨5⟩ "new").1.queues.get? ⟨0⟩ =
        some { user := ⟨7⟩, capacity := 2, pending := ["old", "new"] } ∧
      (mixedSite.deliverToUser ⟨9⟩ "new").2.delivered = 1 := by
  have started : (fresh (.trial ⟨1⟩) 0 mixedQueues none : Site MemoryBus).hub.registry.Sound
      (fresh (.trial ⟨1⟩) 0 mixedQueues none : Site MemoryBus).owner := Registry.sound_empty _
  have sound : mixedSite.hub.registry.Sound mixedSite.owner := run_sound started _
  obtain ⟨toRooms, toUsers⟩ := local_fan_outs_exact sound
  have toRoom := toRooms ⟨5⟩ "new"
  refine ⟨sound, toRoom.delivered.trans ?_, toRoom.dropped.trans ?_, (toRoom.queues ⟨0⟩).trans ?_,
    (toUsers ⟨9⟩ "new").delivered.trans ?_⟩
  · decide
  · decide
  · decide
  · decide

end Site

end RoomRelay
