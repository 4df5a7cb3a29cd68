import RoomRelay.Bus.Memory
import RoomRelay.Proofs.Operation

/-!
What holds of a hub after every operation, in any order, whatever its bus is or does: the
registry is sound, the hub's own part of presence is the users with a connection, the gauge is the
number of connections, and the count of drops is that of the pushes that found a queue full. One
theorem for each operation says that it keeps this; the run follows by induction.
-/

namespace RoomRelay

/-! ## The invariant of a hub -/

/-- The registry is sound, and presence and the gauge agree with it. -/
structure Hub.Orderly (owner : ConnId → Option Uuid) (h : Hub) : Prop where
  sound : h.registry.Sound owner
  online : ∀ user, user ∈ h.presence.users ↔ h.registry.connectionsOf user ≠ []
  gauge : h.meters.activeConnections = h.registry.total

namespace Hub.Orderly

variable {owner : ConnId → Option Uuid} {h h' : Hub}

theorem start (config : Config) (now : Nat) (owner : ConnId → Option Uuid) :
    (Hub.start config now).Orderly owner where
  sound := Registry.sound_empty owner
  online := by simp [Hub.start, Registry.connectionsOf]
  gauge := rfl

/-- Counting anything else leaves the hub orderly. -/
theorem alike (orderly : h.Orderly owner) (alike : h.AlikeButCounts h') : h'.Orderly owner := by
  refine ⟨alike.sound orderly.sound, ?_, ?_⟩
  · intro user
    rw [alike.presence, alike.connectionsOf]
    exact orderly.online user
  · have total : h'.registry.total = h.registry.total := by
      simp only [Registry.total, Registry.allConnections, alike.users]
    rw [alike.gauge, total]
    exact orderly.gauge

end Hub.Orderly

namespace Site

variable {β : Type} {s : Site β} {known : ConnId → Option Uuid} {user : Uuid} {id : ConnId}
  {op : Op β} {rest ops earlier later : List (Op β)}

/-- Operations that register no connection twice and none that is there already. -/
structure Registrable (s : Site β) (ops : List (Op β)) : Prop where
  once : (registrations ops).Nodup
  absent : ∀ id ∈ registrations ops, id ∉ s.hub.registry.allConnections

theorem Registrable.head (registrable : s.Registrable (op :: rest)) :
    ∀ id, op.registered? = some id → id ∉ s.hub.registry.allConnections := by
  intro id registered
  exact registrable.absent id (by simp [registrations, registered])

theorem Registrable.take (registrable : s.Registrable (earlier ++ later)) :
    s.Registrable earlier := by
  have part : (registrations earlier).Sublist (registrations (earlier ++ later)) :=
    (List.sublist_append_left earlier later).filterMap _
  exact ⟨registrable.once.sublist part, fun id member =>
    registrable.absent id (part.mem member)⟩

variable [SharedBus β]

/-! ## One connection comes or goes -/

private theorem register_orderly (orderly : s.hub.Orderly known) (owned : known id = some user)
    (fresh : id ∉ s.hub.registry.connectionsOf user) (now : Nat) :
    (s.register now user id).1.hub.Orderly known := by
  by_cases stopped : s.hub.stopped = true
  · rw [register_stopped stopped]
    exact orderly
  · rw [register_hub (Bool.eq_false_iff.mpr stopped)]
    refine ⟨orderly.sound.addConnection owned, ?_, ?_⟩
    · intro other
      have after := Registry.connectionsOf_addConnection s.hub.registry user other id
      have own : (s.hub.registry.addConnection user id).connectionsOf user =
          s.hub.registry.connectionsOf user ++ [id] := by
        rw [Registry.connectionsOf_addConnection, if_pos ⟨rfl, fresh⟩]
      dsimp only
      split
      · rw [Presence.mem_insert, orderly.online]
        by_cases same : other = user
        · simp [same, own]
        · simp [after, same]
      · rename_i more
        rw [orderly.online]
        by_cases same : other = user
        · -- the user was here before, or this would be its only connection
          have here : s.hub.registry.connectionsOf user ≠ [] := by
            intro nothing
            exact more (by simp [Registry.connectionCount, own, nothing])
          subst same
          simp [own, here]
        · simp [after, same]
    · dsimp only
      rw [Registry.total_addConnection fresh, orderly.gauge]
      rfl

private theorem unregister_orderly (orderly : s.hub.Orderly known) (user : Uuid) (id : ConnId) :
    (s.unregister user id).1.hub.Orderly known := by
  by_cases stopped : s.hub.stopped = true
  · rw [unregister_stopped stopped]
    exact orderly
  have running := Bool.eq_false_iff.mpr stopped
  by_cases here : id ∈ s.hub.registry.connectionsOf user
  · have removed := orderly.sound.removeConnection user id
    have after := fun other =>
      Registry.connectionsOf_removeConnection orderly.sound.usersOnce user other id
    have total := Registry.total_removeConnection (orderly.sound.idsOnce user) here
    have gauge : s.hub.meters.activeConnections + -1 =
        (s.hub.registry.removeConnection user id).total := by
      rw [orderly.gauge]
      omega
    by_cases last : (s.hub.registry.removeConnection user id).connectionCount user = 0
    · rw [unregister_hub_last running here last]
      have nothing : (s.hub.registry.removeConnection user id).connectionsOf user = [] :=
        List.length_eq_zero_iff.mp last
      refine ⟨removed.leaveAll user, ?_, gauge⟩
      intro other
      have kept : ((s.hub.registry.removeConnection user id).leaveAll user).connectionsOf other =
          (s.hub.registry.removeConnection user id).connectionsOf other := rfl
      rw [Presence.mem_remove, orderly.online, kept]
      by_cases same : other = user
      · simp [same, nothing]
      · simp [after other, same]
    · rw [unregister_hub_more running here last]
      refine ⟨removed, ?_, gauge⟩
      intro other
      rw [orderly.online]
      by_cases same : other = user
      · have before : s.hub.registry.connectionsOf user ≠ [] := List.ne_nil_of_mem here
        have left : (s.hub.registry.removeConnection user id).connectionsOf user ≠ [] :=
          fun nothing => last (by simp [Registry.connectionCount, nothing])
        subst same
        exact iff_of_true before left
      · simp [after other, same]
  · rw [unregister_unknown running here]
    exact orderly

/-! ## The operations -/

/-- A change of the roster keeps a hub orderly. The registration must be that of a connection
that is not there yet. -/
private theorem changeRoster_orderly (orderly : s.hub.Orderly s.owner) (x : RosterChange)
    (fresh : ∀ id, (Op.roster x : Op β).registered? = some id →
      id ∉ s.hub.registry.allConnections) :
    (s.changeRoster x).hub.Orderly s.owner := by
  cases x with
  | register now id =>
    simp only [changeRoster]
    cases found : s.queues.get? id with
    | none => exact orderly
    | some c =>
      have owned : s.owner id = some c.user := by simp [owner, found]
      have absent : id ∉ s.hub.registry.connectionsOf c.user := fun present =>
        fresh id rfl ((Registry.mem_allConnections orderly.sound.usersOnce).mpr ⟨c.user, present⟩)
      exact register_orderly orderly owned absent now
  | unregister id =>
    simp only [changeRoster]
    cases s.queues.get? id with
    | none => exact orderly
    | some c => exact unregister_orderly orderly c.user id
  | listen room user =>
    have users := Registry.listen_users s.hub.registry room user
    refine ⟨orderly.sound.listen room user, fun other => ?_, ?_⟩
    · have before := orderly.online other
      simp only [Registry.connectionsOf, changeRoster, Site.listen, users] at before ⊢
      exact before
    · have before := orderly.gauge
      simp only [Registry.total, Registry.allConnections, changeRoster, Site.listen, users]
        at before ⊢
      exact before
  | unlisten room user =>
    exact ⟨orderly.sound.unlisten room user, orderly.online, orderly.gauge⟩
  | refresh now => exact (refresh_hub s now).symm ▸ orderly

private theorem wind_orderly (orderly : s.hub.Orderly known) (x : Ending) :
    (s.wind x).hub.Orderly known := by
  cases x with
  | stopRelay => exact ⟨orderly.sound, orderly.online, orderly.gauge⟩
  | closeAll => exact orderly
  | evictAll =>
    rw [wind, evictAll_hub]
    have emptied : (Hub.evicted { s.hub with registry := { s.hub.registry with users := [] } }
        s.hub.registry.users).registry.users = [] := Hub.evicted_users ..
    refine ⟨Hub.evicted_sound orderly.sound.withoutUsers _, ?_, ?_⟩
    · intro other
      -- every user of presence had a connection, so it was among those evicted
      have connected : other ∈ s.hub.registry.connectedUsers ↔
          s.hub.registry.connectionsOf other ≠ [] := orderly.sound.mem_connectedUsers
      simp only [Registry.connectionsOf, emptied, Table.get?_nil, Option.getD_none, ne_eq,
        not_true_eq_false, iff_false, Hub.mem_evicted_presence, not_and, not_not]
      intro online
      exact connected.mpr ((orderly.online other).mp online)
    · have total := Registry.total_eq_sum s.hub.registry
      have gauge := orderly.gauge
      simp only [Registry.total, Registry.allConnections, emptied, Hub.evicted_gauge]
      simp only [Registry.total] at total gauge
      rw [gauge, total]
      simp

/-- One operation keeps a hub orderly. -/
theorem act_orderly (orderly : s.hub.Orderly s.owner) (op : Op β)
    (fresh : ∀ id, op.registered? = some id → id ∉ s.hub.registry.allConnections) :
    (s.act op).hub.Orderly (s.act op).owner := by
  rw [act_owner orderly.sound]
  cases op with
  | send x => exact orderly.alike (send_delivers orderly.sound x).alike
  | roster x => exact changeRoster_orderly orderly x fresh
  | client id a => exact orderly
  | ending x => exact wind_orderly orderly x
  | turnBus b => exact orderly

/-! ## Who comes and who goes -/

/-- Nobody comes into the registry but by being registered. -/
private theorem act_came (sound : s.hub.registry.Sound known) (op : Op β)
    (member : id ∈ (s.act op).connectionsOf user) :
    id ∈ s.connectionsOf user ∨ op.registered? = some id := by
  rcases (mem_act sound op user id).mp member with ⟨before, -⟩ | brought
  · exact .inl before
  · unfold Brings at brought
    split at brought
    · obtain ⟨-, -, rfl⟩ := brought
      exact .inr rfl
    · cases brought

private theorem taken_closed (sound : s.hub.registry.Sound s.owner) {op : Op β}
    (member : id ∈ s.connectionsOf user) (taken : s.Takes user id op) :
    (s.act op).isClosed id = true := by
  obtain ⟨c, found, -⟩ := Option.map_eq_some_iff.mp (sound.idsOwned user id member)
  rw [isClosed, act_queue sound, found]
  unfold Takes at taken
  split at taken
  · obtain ⟨running, -, rfl⟩ := taken
    simp [fanOut, FanOut.none, touch, running, Connection.close]
  · have all := (Registry.mem_allConnections sound.usersOnce).mpr ⟨user, member⟩
    simp [fanOut, FanOut.none, touch, all, Connection.close]
  · cases taken

/-- Whoever goes from the registry is closed. -/
private theorem act_went (sound : s.hub.registry.Sound s.owner) (op : Op β)
    (member : id ∈ s.connectionsOf user) :
    id ∈ (s.act op).connectionsOf user ∨ (s.act op).isClosed id = true := by
  by_cases taken : s.Takes user id op
  · exact .inr (taken_closed sound member taken)
  · exact .inl ((mem_act sound op user id).mpr (.inl ⟨member, taken⟩))

/-! ## Runs -/

/-- A hub just started, among connections and on a bus. -/
def fresh (config : Config) (now : Nat) (queues : Queues) (bus : Option β) : Site β :=
  { hub := .start config now, queues, bus }

/-- How many pushes of a run find a queue full. -/
def fullPushes (s : Site β) : List (Op β) → Nat
  | [] => 0
  | op :: rest => (s.pushes op).count .full + (s.act op).fullPushes rest

theorem Registrable.tail (registrable : s.Registrable (op :: rest))
    (orderly : s.hub.Orderly s.owner) : (s.act op).Registrable rest := by
  have next := act_orderly orderly op registrable.head
  refine ⟨registrable.once.sublist ((List.sublist_cons_self op rest).filterMap _), ?_⟩
  intro id later present
  obtain ⟨user, member⟩ := (Registry.mem_allConnections next.sound.usersOnce).mp present
  rcases act_came orderly.sound op member with before | now
  · have again : id ∈ registrations (op :: rest) :=
      ((List.sublist_cons_self op rest).filterMap _).mem later
    exact registrable.absent id again
      ((Registry.mem_allConnections orderly.sound.usersOnce).mpr ⟨user, before⟩)
  · have once := registrable.once
    simp only [registrations, List.filterMap_cons, now, List.nodup_cons] at once
    exact once.1 later

theorem run_append (s : Site β) (earlier later : List (Op β)) :
    s.run (earlier ++ later) = (s.run earlier).run later :=
  List.foldl_append

theorem run_orderly (orderly : s.hub.Orderly s.owner) (registrable : s.Registrable ops) :
    (s.run ops).hub.Orderly (s.run ops).owner := by
  induction ops generalizing s with
  | nil => exact orderly
  | cons op rest ih =>
    exact ih (act_orderly orderly op registrable.head) (registrable.tail orderly)

theorem Registrable.drop (orderly : s.hub.Orderly s.owner)
    (registrable : s.Registrable (earlier ++ later)) : (s.run earlier).Registrable later := by
  induction earlier generalizing s with
  | nil => exact registrable
  | cons op rest ih =>
    exact ih (act_orderly orderly op registrable.head) (registrable.tail orderly)

private theorem run_isClosed (orderly : s.hub.Orderly s.owner) (registrable : s.Registrable ops)
    (closed : s.isClosed id = true) : (s.run ops).isClosed id = true := by
  induction ops generalizing s with
  | nil => exact closed
  | cons op rest ih =>
    exact ih (act_orderly orderly op registrable.head) (registrable.tail orderly)
      (act_isClosed orderly.sound op closed)

/-- Whoever goes from the registry during a run is closed at its end. -/
theorem run_went (orderly : s.hub.Orderly s.owner) (registrable : s.Registrable ops)
    (member : id ∈ s.connectionsOf user) :
    id ∈ (s.run ops).connectionsOf user ∨ (s.run ops).isClosed id = true := by
  induction ops generalizing s with
  | nil => exact .inl member
  | cons op rest ih =>
    have next := act_orderly orderly op registrable.head
    have restRegistrable := registrable.tail orderly
    rcases act_went orderly.sound op member with still | shut
    · exact ih next restRegistrable still
    · have shutLater := run_isClosed next restRegistrable shut
      exact .inr shutLater

/-- A run counts the pushes that found a queue full, each once. -/
private theorem run_dropped (orderly : s.hub.Orderly s.owner) (registrable : s.Registrable ops) :
    (s.run ops).hub.registry.dropped = s.hub.registry.dropped + s.fullPushes ops := by
  induction ops generalizing s with
  | nil => rfl
  | cons op rest ih =>
    have first := act_dropped orderly.sound op
    have later := ih (act_orderly orderly op registrable.head) (registrable.tail orderly)
    simp only [run, List.foldl_cons, fullPushes] at later ⊢
    omega

private theorem run_lease (orderly : s.hub.Orderly s.owner) (registrable : s.Registrable ops) :
    (s.run ops).hub.presence.lease = s.hub.presence.lease := by
  induction ops generalizing s with
  | nil => rfl
  | cons op rest ih =>
    have first := act_lease orderly.sound op
    exact (ih (act_orderly orderly op registrable.head) (registrable.tail orderly)).trans first

/-- Whatever was done on a hub, a bus in memory grants the lease of the hub's marks at every instant
in the first half of what the clock counts. -/
theorem run_granted (config : Config) (begun : Nat) (queues : Queues) (bus : Option β)
    (ops : List (Op β)) (once : (registrations ops).Nodup) (b : MemoryBus) {now : Nat}
    (early : now < Duration.clockHalf.nanos) :
    SharedBus.grants b now ((fresh config begun queues bus).run ops).hub.presence.lease = true := by
  let start := fresh config begun queues bus
  have orderly : start.hub.Orderly start.owner := Hub.Orderly.start config begun start.owner
  have lease : (start.run ops).hub.presence.lease = config.presenceTtl :=
    run_lease orderly ⟨once, fun _ _ present => by cases present⟩
  have short : config.presenceTtl.nanos < Duration.clockHalf.nanos := config.lease_lt
  have halves : Duration.clockHalf.nanos + Duration.clockHalf.nanos = Duration.clockEnd := by decide
  rw [lease]
  simp only [SharedBus.grants, MemoryBus.grants, Duration.after?]
  rw [if_pos (by omega)]
  simp

/-- What holds of a hub after a run that began with `start`. -/
structure InOrderAfter (start : Site β) (ops : List (Op β)) : Prop where
  /-- No user without a connection, and every connection under its own user. -/
  usersConnected : ∀ user ids, (user, ids) ∈ (start.run ops).hub.registry.users →
    ids ≠ [] ∧ ∀ id ∈ ids, (start.run ops).owner id = some user
  /-- No room without a listener. -/
  roomsListened : ∀ room users, (room, users) ∈ (start.run ops).hub.registry.rooms → users ≠ []
  /-- The hub's own part of presence is the users with a connection. -/
  online : ∀ user, user ∈ (start.run ops).hub.presence.users ↔
    (start.run ops).connectionsOf user ≠ []
  /-- Whoever stood in the registry at some time and no longer does is closed. -/
  removedClosed : ∀ earlier later, ops = earlier ++ later →
    ∀ user, ∀ id ∈ (start.run earlier).connectionsOf user,
      id ∈ (start.run ops).connectionsOf user ∨ (start.run ops).isClosed id = true
  gauge : (start.run ops).hub.meters.activeConnections = (start.run ops).hub.registry.total
  dropped : (start.run ops).hub.registry.dropped = start.fullPushes ops

/-- A hub is in order after every run in which each connection is registered at most once: whatever
else happens in whatever order, with any bus or none, and whatever that bus answers. -/
theorem run_in_order (config : Config) (now : Nat) (queues : Queues) (bus : Option β)
    (ops : List (Op β)) (once : (registrations ops).Nodup) :
    (fresh config now queues bus).InOrderAfter ops := by
  let start := fresh config now queues bus
  have orderly : start.hub.Orderly start.owner := Hub.Orderly.start config now start.owner
  have registrable : start.Registrable ops := ⟨once, fun _ _ present => by cases present⟩
  have after := run_orderly orderly registrable
  constructor
  · intro user ids entry
    have found := Table.get?_of_mem after.sound.usersOnce entry
    refine ⟨after.sound.userConnected user ids found, fun id member => ?_⟩
    exact after.sound.idsOwned user id (by simpa [Registry.connectionsOf, found] using member)
  · intro room users entry
    exact after.sound.roomListened room users (Table.get?_of_mem after.sound.roomsOnce entry)
  · exact after.online
  · intro earlier later split user id member
    subst split
    rw [run_append]
    exact run_went (run_orderly orderly registrable.take) (registrable.drop orderly) member
  · exact after.gauge
  · have counted := run_dropped orderly registrable
    simpa [start, fresh, Hub.start] using counted

/-- A run on a bus that is switched off: a client comes twice, on queues for one text each, is
sent two texts, and loses the first of its connections. -/
def crowdedRun : List (Op MemoryBus) :=
  [.roster (.register 0 ⟨0⟩), .roster (.register 0 ⟨1⟩), .send (.deliverToUser ⟨7⟩ "one"),
    .send (.deliverToUser ⟨7⟩ "two"), .client ⟨1⟩ .take, .roster (.unregister ⟨0⟩)]

/-- The queues of `crowdedRun`. -/
def crowdedQueues : Queues :=
  [(⟨0⟩, { user := ⟨7⟩, capacity := 1 }), (⟨1⟩, { user := ⟨7⟩, capacity := 1 })]

/-- The bus of `crowdedRun`. -/
def deadBus : MemoryBus := { MemoryBus.empty with available := false }

/-- The hub of `crowdedRun` before it. -/
def crowdedStart : Site MemoryBus := fresh (.trial ⟨1⟩) 0 crowdedQueues (some deadBus)

/-- Both queues were full for the second text; one connection is left, and its user online. -/
theorem crowdedRun_in_order :
    (registrations crowdedRun).Nodup ∧ (crowdedStart.run crowdedRun).hub.registry.dropped = 2 ∧
      (crowdedStart.run crowdedRun).hub.meters.activeConnections = 1 ∧
      (⟨7⟩ : Uuid) ∈ (crowdedStart.run crowdedRun).hub.presence.users := by
  have once : (registrations crowdedRun).Nodup := by decide
  have after : crowdedStart.InOrderAfter crowdedRun :=
    run_in_order (.trial ⟨1⟩) 0 crowdedQueues (some deadBus) crowdedRun once
  refine ⟨once, after.dropped.trans ?_, after.gauge.trans ?_, (after.online ⟨7⟩).mpr ?_⟩
  · decide
  · decide
  · decide

end Site

end RoomRelay
