import RoomRelay.Proofs.RegistryInvariants
import RoomRelay.Proofs.Requests
import RoomRelay.Proofs.Unplugged

/-!
Who listens to rooms. A user listens to a room on one hub, not on one of its connections there,
and is made to listen by two paths: when one of its clients connects, and by a request of another
service. It is taken out of rooms by requests, with its last connection, and by eviction. Main
statement: as long as a client's registration and its rooms come in one step, nobody ever listens
without a connection.
-/

namespace RoomRelay

/-! ## Listeners in the registry -/

namespace Registry

/-- Whoever listens to a room has a connection. -/
def ListenersConnected (r : Registry) : Prop :=
  ∀ room, ∀ user ∈ r.listeners room, r.connectionsOf user ≠ []

variable {owner : ConnId → Option Uuid} {r : Registry} {user room : Uuid} {id : ConnId}

private theorem connectionsOf_addConnection_ne_nil (r : Registry) (user : Uuid) (id : ConnId) :
    (r.addConnection user id).connectionsOf user ≠ [] := by
  rw [connectionsOf_addConnection]
  by_cases present : id ∈ r.connectionsOf user
  · simp [present, List.ne_nil_of_mem present]
  · simp [present]

theorem ListenersConnected.addConnection (connected : r.ListenersConnected) (user : Uuid)
    (id : ConnId) : (r.addConnection user id).ListenersConnected := by
  intro room other listens
  have before : r.connectionsOf other ≠ [] :=
    connected room other (by simpa only [listeners, addConnection_rooms] using listens)
  rw [connectionsOf_addConnection]
  split
  · simp
  · exact before

/-- One of several connections goes. -/
theorem ListenersConnected.removeConnection (connected : r.ListenersConnected)
    (once : r.users.keys.Nodup) (more : (r.removeConnection user id).connectionCount user ≠ 0) :
    (r.removeConnection user id).ListenersConnected := by
  intro room other listens
  by_cases same : other = user
  · rw [same]
    exact fun none => more (by rw [connectionCount, none, List.length_nil])
  · rw [connectionsOf_removeConnection once, if_neg same]
    exact connected room other listens

/-- The last connection goes, and its user from all rooms. -/
theorem ListenersConnected.leaveAll (connected : r.ListenersConnected) (sound : r.Sound owner)
    (user : Uuid) (id : ConnId) :
    ((r.removeConnection user id).leaveAll user).ListenersConnected := by
  intro room other listens
  rw [listeners_leaveAll (sound.removeConnection user id).roomsOnce] at listens
  obtain ⟨listened, different⟩ := List.mem_filter.mp listens
  have kept : (r.removeConnection user id).connectionsOf other = r.connectionsOf other := by
    rw [connectionsOf_removeConnection sound.usersOnce, if_neg (of_decide_eq_true different)]
  exact fun none => connected room other listened (kept.symm.trans none)

theorem ListenersConnected.listen (connected : r.ListenersConnected)
    (here : r.connectionsOf user ≠ []) (room : Uuid) : (r.listen room user).ListenersConnected := by
  intro other listener listens
  have same : (r.listen room user).connectionsOf listener = r.connectionsOf listener := by
    simp only [connectionsOf, listen_users]
  rw [same]
  rw [listeners_listen] at listens
  split at listens
  · rcases List.mem_append.mp listens with before | added
    · exact connected room listener before
    · rw [List.mem_singleton.mp added]
      exact here
  · exact connected other listener listens

theorem ListenersConnected.unlisten (connected : r.ListenersConnected) (once : r.rooms.keys.Nodup)
    (room user : Uuid) : (r.unlisten room user).ListenersConnected := by
  intro other listener listens
  rw [listeners_unlisten once] at listens
  split at listens
  · exact connected room listener (List.mem_of_mem_filter listens)
  · exact connected other listener listens

/-- A room is known by its listeners, and each of them by a connection. -/
private theorem ListenersConnected.rooms_eq_nil (connected : r.ListenersConnected)
    (sound : r.Sound owner)
    (none : r.allConnections = []) : r.rooms = [] := by
  rw [List.eq_nil_iff_forall_not_mem]
  rintro ⟨room, users⟩ kept
  have found : r.rooms.get? room = some users := Table.get?_of_mem sound.roomsOnce kept
  obtain ⟨user, first⟩ := List.exists_mem_of_ne_nil _ (sound.roomListened room users found)
  have listens : user ∈ r.listeners room := by
    simpa only [listeners, found, Option.getD_some] using first
  obtain ⟨id, held⟩ := List.exists_mem_of_ne_nil _ (connected room user listens)
  have among : id ∈ r.allConnections := (mem_allConnections sound.usersOnce).mpr ⟨user, held⟩
  exact List.not_mem_nil (none ▸ among)

end Registry

/-! ## Listeners on a hub -/

private theorem Procedure.run_map {ω σ α γ : Type} (f : α → γ) (p : Procedure σ α)
    (answer : ω → (c : Call) → ω × c.Outcome) (w : ω) :
    (p.map f).run answer w =
      ((p.run answer w).1, (p.run answer w).2.1, f (p.run answer w).2.2) := by
  induction p generalizing w with
  | done s a => rfl
  | ask s call resume ih => exact ih s _ _
  | askBoth s first second resume ih => exact ih s _ _ _

/-- An operation that makes nobody listen. -/
def Op.Guarded {β : Type} : Op β → Prop
  | .roster (.listen ..) => False
  | _ => True

namespace Site

variable {β : Type}

/-- What stays of a hub: its configuration, a sound registry, and that whoever listens in it has a
connection. -/
structure Anchored (config : Config) (s : Site β) : Prop where
  configured : s.hub.config = config
  sound : s.hub.registry.Sound s.owner
  connected : s.hub.registry.ListenersConnected

variable {config : Config} {s t : Site β} {user : Uuid} {id : ConnId}

/-- Nothing changes for listeners while the registry stays but for its count of drops. -/
theorem Anchored.alike (anchored : s.Anchored config) (alike : s.hub.AlikeButCounts t.hub)
    (owner : t.owner = s.owner) : t.Anchored config where
  configured := alike.config.trans anchored.configured
  sound := owner ▸ alike.sound anchored.sound
  connected := fun room user listens => by
    rw [alike.connectionsOf]
    exact anchored.connected room user (alike.listeners room ▸ listens)

theorem Anchored.delivers (anchored : s.Anchored config) {f : FanOut} (delivers : s.Delivers f t) :
    t.Anchored config :=
  anchored.alike delivers.alike delivers.owner

theorem Anchored.quiet (anchored : s.Anchored config) (quiet : s.Quiet t) : t.Anchored config :=
  anchored.delivers quiet.delivers

variable [SharedBus β]

theorem Anchored.broadcast (anchored : s.Anchored config) (room : Uuid) (e : Event) :
    (s.broadcast room e).1.Anchored config :=
  anchored.delivers (broadcast_delivers anchored.sound room e)

theorem Anchored.broadcastAll (anchored : s.Anchored config) (room : Uuid) (es : List Event) :
    (s.broadcastAll room es).Anchored config := by
  induction es generalizing s with
  | nil => exact anchored
  | cons e rest ih => exact ih (anchored.broadcast room e)

theorem Anchored.announcePresence (anchored : s.Anchored config) (user : Uuid) (rooms : List Uuid)
    (online : Bool) : (s.announcePresence user rooms online).Anchored config := by
  induction rooms generalizing s with
  | nil => exact anchored
  | cons room rest ih => exact ih (anchored.broadcast room _)

theorem Anchored.sendToUser (anchored : s.Anchored config) (user : Uuid) (e : Event) :
    (s.sendToUser user e).1.Anchored config :=
  anchored.delivers (sendToUser_delivers anchored.sound user e)

/-- What comes of a text changes nobody's rooms. -/
theorem Anchored.carryOut (anchored : s.Anchored config) (user : Uuid) (id : ConnId)
    (o : TextOutcome) : (o.carryOut user id s).Anchored config := by
  cases o with
  | refused code => exact anchored.delivers (pushTo_delivers ..)
  | toRoom room e => exact anchored.broadcast room e
  | toSender e => exact anchored.delivers (pushTo_delivers ..)
  | toUser e => exact anchored.sendToUser user e
  | nothing => exact anchored

omit [SharedBus β] in
private theorem charged_quiet (s : Site β) (now : Nat) (user : Uuid) (text : String) :
    s.Quiet (s.charged now user text) := by
  unfold charged
  split
  · split
    · exact (charge_quiet ..).1
    · exact .refl s
  · exact .refl s

/-! ### Operations -/

private theorem register_connected (connected : s.hub.registry.ListenersConnected) (now : Nat)
    (user : Uuid)
    (id : ConnId) : (s.register now user id).1.hub.registry.ListenersConnected := by
  by_cases stopped : s.hub.stopped = true
  · rw [register_stopped stopped]
    exact connected
  · rw [register_hub (Bool.eq_false_iff.mpr stopped)]
    exact connected.addConnection user id

private theorem unregister_connected (anchored : s.Anchored config) (user : Uuid) (id : ConnId) :
    (s.unregister user id).1.hub.registry.ListenersConnected := by
  by_cases stopped : s.hub.stopped = true
  · rw [unregister_stopped stopped]
    exact anchored.connected
  · have running := Bool.eq_false_iff.mpr stopped
    by_cases known : id ∈ s.hub.registry.connectionsOf user
    · by_cases last : (s.hub.registry.removeConnection user id).connectionCount user = 0
      · rw [unregister_hub_last running known last]
        exact anchored.connected.leaveAll anchored.sound user id
      · rw [unregister_hub_more running known last]
        exact anchored.connected.removeConnection anchored.sound.usersOnce last
    · rw [unregister_unknown running known]
      exact anchored.connected

/-- Everybody who listens is connected, so eviction takes everybody out of every room. -/
private theorem evictAll_connected (anchored : s.Anchored config) :
    s.evictAll.hub.registry.ListenersConnected := by
  intro room user listens
  rw [evictAll_hub] at listens
  obtain ⟨listened, spared⟩ :=
    (Hub.mem_evicted_listeners anchored.sound.withoutUsers s.hub.registry.users room user).mp
      listens
  have evicted : user ∈ s.hub.registry.connectedUsers :=
    anchored.sound.mem_connectedUsers.mpr (anchored.connected room user listened)
  exact absurd evicted spared

theorem Anchored.act (anchored : s.Anchored config) (op : Op β) (guarded : op.Guarded) :
    (s.act op).Anchored config := by
  refine ⟨(act_config anchored.sound op).trans anchored.configured, act_sound anchored.sound op,
    ?_⟩
  cases op with
  | send x => exact (anchored.delivers (send_delivers anchored.sound x)).connected
  | roster x =>
    cases x with
    | register now id =>
      simp only [Site.act, changeRoster]
      split
      · exact register_connected anchored.connected now _ id
      · exact anchored.connected
    | unregister id =>
      simp only [Site.act, changeRoster]
      split
      · exact unregister_connected anchored _ id
      · exact anchored.connected
    | listen room user => exact guarded.elim
    | unlisten room user => exact anchored.connected.unlisten anchored.sound.roomsOnce room user
    | refresh now =>
      simp only [Site.act, changeRoster, refresh_hub]
      exact anchored.connected
  | client id a => exact anchored.connected
  | ending x =>
    cases x with
    | stopRelay => exact anchored.connected
    | closeAll => exact anchored.connected
    | evictAll => exact evictAll_connected anchored
  | turnBus b => exact anchored.connected

omit [SharedBus β] in
theorem Anchored.listen (anchored : s.Anchored config)
    (here : s.hub.registry.connectionsOf user ≠ []) (room : Uuid) :
    (s.listen room user).Anchored config :=
  ⟨anchored.configured, anchored.sound.listen room user, anchored.connected.listen here room⟩

/-! ### Clients and requests -/

/-- Letting a client go. -/
theorem Anchored.depart (anchored : s.Anchored config) (owned : s.owner id = some user) :
    (s.depart user id).Anchored config := by
  have left : (s.unregister user id).1.Anchored config := by
    rw [← act_unregister owned]
    exact anchored.act _ trivial
  unfold Site.depart
  split
  · rename_i went
    rw [went] at left
    exact left.announcePresence ..
  · rename_i went
    rw [went] at left
    exact left

theorem Anchored.effect (anchored : s.Anchored config) {clock : Nat}
    (effect : Http.Effect s clock t) : t.Anchored config := by
  cases effect with
  | nothing => exact anchored
  | broadcast room es => exact anchored.broadcastAll room es
  | toUser user e => exact anchored.sendToUser user e
  | look users => exact ⟨anchored.configured, anchored.sound, anchored.connected⟩
  | listen room user connected => exact anchored.listen (List.ne_nil_of_length_pos connected) room
  | unlisten room user => exact anchored.act (.roster (.unlisten room user)) trivial

omit [SharedBus β] in
/-- A client that is connected may get any rooms. -/
theorem Anchored.listenAll (anchored : s.Anchored config)
    (here : s.hub.registry.connectionsOf user ≠ []) (rooms : List Uuid) :
    (rooms.foldl (fun s room => s.listen room user) s).Anchored config := by
  induction rooms generalizing s with
  | nil => exact anchored
  | cons room rest ih =>
    refine ih (anchored.listen here room) ?_
    simpa only [Site.listen, Registry.connectionsOf, Registry.listen_users] using here

/-- A hub that has stopped registers nobody. -/
private theorem running_of_register {now : Nat} {first : Bool}
    (registered : s.register now user id = (t, .ok first)) : s.hub.stopped = false := by
  cases stopped : s.hub.stopped with
  | false => rfl
  | true =>
    rw [register_stopped stopped] at registered
    cases registered

variable {ω : Type} (answer : ω → (c : Call) → ω × c.Outcome) (w : ω)

/-- A client comes: whatever rooms it gets, its user has a connection by then. -/
theorem Anchored.welcome (anchored : s.Anchored config) (owned : s.owner id = some user)
    (now : Nat) : ((s.welcome now user id).run answer w).2.1.Anchored config := by
  have came : (s.register now user id).1.Anchored config := by
    rw [← act_register owned]
    exact anchored.act _ trivial
  unfold Site.welcome
  split
  · rename_i refused
    rw [refused] at came
    exact came
  · rename_i t first registered
    rw [registered] at came
    have here : t.hub.registry.connectionsOf user ≠ [] := by
      have added := register_hub (running_of_register registered) now user id
      rw [registered] at added
      dsimp only at added
      rw [added]
      exact Registry.connectionsOf_addConnection_ne_nil _ user id
    let rooms := (answer w (.roomsOf user)).2.toOption.getD []
    let u := rooms.foldl (fun s room => s.listen room user) t
    let v := if first then u.announcePresence user rooms true else u
    have told : v.Anchored config := by
      have listening : u.Anchored config := came.listenAll here rooms
      simp only [v]
      split
      · exact listening.announcePresence ..
      · exact listening
    obtain ⟨w', o, sent⟩ := sendSync_run β answer (answer w (.roomsOf user)).1 user id {}
    change ((((v.sendSync user id {}).andThen (conclude id)).map Except.ok).run answer
      (answer w (.roomsOf user)).1).2.1.Anchored config
    rw [Procedure.run_map, sent v]
    exact told.carryOut user id o

theorem Anchored.handleText (anchored : s.Anchored config) (now : Nat) (user : Uuid) (id : ConnId)
    (text : String) : ((s.handleText now user id text).run answer w).2.1.Anchored config := by
  obtain ⟨w', o, handled⟩ := handleText_run answer w s now user id text
  rw [handled s rfl]
  exact (anchored.quiet (charged_quiet ..)).carryOut user id o

end Site

/-! ## Runs -/

/-- What may come next on a hub, each thing in one step. -/
inductive SiteTurn (β : Type) where
  /-- A client connects: it is registered, and gets the rooms and the page that the services answer
  with. -/
  | connect (now : Nat) (id : ConnId) (outcome : (call : Call) → call.Outcome)
  | disconnect (id : ConnId)
  /-- A client sends a text. -/
  | text (now : Nat) (id : ConnId) (sent : String) (outcome : (call : Call) → call.Outcome)
  | request (now : Http.Moment) (live : Bool) (r : Http.Request)
  /-- The relay begins to listen to the bus, or no longer does. -/
  | relay (listens : Bool)
  /-- Events are sent or come in, a connection comes without rooms or goes without a word, presence
  is renewed, the bus changes, or the hub is brought to its end. -/
  | operation (op : Op β) (guarded : op.Guarded)

namespace Site

variable {β : Type} [SharedBus β]

/-- The hub after a turn. A connection comes, sends and goes under its own user. -/
def after (s : Site β) : SiteTurn β → Site β
  | .connect now id outcome =>
    match s.owner id with
    | some user => ((s.welcome now user id).run (fun _ call => ((), outcome call)) ()).2.1
    | none => s
  | .disconnect id =>
    match s.owner id with
    | some user => s.depart user id
    | none => s
  | .text now id sent outcome =>
    match s.owner id with
    | some user => ((s.handleText now user id sent).run (fun _ call => ((), outcome call)) ()).2.1
    | none => s
  | .request now live r => (Http.answer s now live r).1
  | .relay listens => { s with hub := { s.hub with subscribed := listens } }
  | .operation op _ => s.act op

def afterAll (s : Site β) (turns : List (SiteTurn β)) : Site β := turns.foldl after s

variable {s : Site β}

theorem Anchored.after (anchored : s.Anchored config) (x : SiteTurn β) :
    (s.after x).Anchored config := by
  cases x with
  | connect now id outcome =>
    simp only [Site.after]
    split
    · rename_i owned
      exact anchored.welcome _ _ owned now
    · exact anchored
  | disconnect id =>
    simp only [Site.after]
    split
    · rename_i owned
      exact anchored.depart owned
    · exact anchored
  | text now id sent outcome =>
    simp only [Site.after]
    split
    · exact anchored.handleText ..
    · exact anchored
  | request now live r => exact anchored.effect (Http.answer_effect s now r live)
  | relay listens => exact ⟨anchored.configured, anchored.sound, anchored.connected⟩
  | operation op guarded => exact anchored.act op guarded

theorem Anchored.afterAll (anchored : s.Anchored config) (turns : List (SiteTurn β)) :
    (s.afterAll turns).Anchored config := by
  induction turns generalizing s with
  | nil => exact anchored
  | cons x rest ih => exact ih (anchored.after x)

/-- What holds of the rooms of a hub. -/
structure RoomsHeld (s : Site β) : Prop where
  /-- Every user that listens to a room has a connection. -/
  connected : ∀ room user, s.hub.registry.isListening room user = true →
    0 < s.hub.registry.connectionCount user
  /-- A user without a connection is not among those a broadcast goes to, and no command for a room
  passes for it. -/
  outside : ∀ user, s.hub.registry.connectionCount user = 0 → ∀ room,
    user ∉ s.hub.registry.listeners room ∧ ∀ c : Command, c.room? = some room → ¬s.Hears user c
  /-- So it gets no event to any room by the texts it sends. -/
  silent : ∀ user, s.hub.registry.connectionCount user = 0 → ∀ now text answers room e,
    ¬s.Explains now user text answers (.toRoom room e)
  /-- Once all connections are gone there is no room left. -/
  empty : s.hub.registry.total = 0 → s.hub.registry.rooms = []

omit [SharedBus β] in
private theorem Anchored.roomsHeld (anchored : s.Anchored config) : s.RoomsHeld := by
  have connected (room user : Uuid) (listens : s.hub.registry.isListening room user = true) :
      0 < s.hub.registry.connectionCount user :=
    List.length_pos_of_ne_nil (anchored.connected room user (List.contains_iff_mem.mp listens))
  have deaf (user : Uuid) (gone : s.hub.registry.connectionCount user = 0) (room : Uuid) :
      ¬s.hub.registry.isListening room user = true :=
    fun listens => Nat.ne_of_gt (connected room user listens) gone
  refine ⟨connected, ?_, ?_, ?_⟩
  · intro user gone room
    exact ⟨fun listens => deaf user gone room (List.contains_iff_mem.mpr listens),
      fun c about hears => deaf user gone room (hears room about)⟩
  · intro user gone now text answers room e explains
    exact deaf user gone room explains.inOwnName.2.2
  · intro none
    exact anchored.connected.rooms_eq_nil anchored.sound (List.length_eq_zero_iff.mp none)

omit [SharedBus β] in
theorem fresh_anchored (config : Config) (begun : Nat) (queues : Queues) (bus : Option β) :
    (fresh config begun queues bus).Anchored config :=
  ⟨rfl, Registry.sound_empty _, fun _ _ listens => nomatch listens⟩

/-- Whatever happens on a hub from its start on, nobody listens to a room without a connection. -/
theorem rooms_stay_held (config : Config) (begun : Nat) (queues : Queues) (bus : Option β)
    (turns : List (SiteTurn β)) : ((fresh config begun queues bus).afterAll turns).RoomsHeld :=
  ((fresh_anchored config begun queues bus).afterAll turns).roomsHeld

/-- Services that know of one room and answer no other question. -/
def oneRoom : (call : Call) → call.Outcome
  | .roomsOf _ => .ok [⟨5⟩]
  | .markRoomRead .. | .notifications .. | .unreadCount _ | .markRead .. | .markAllRead _ =>
    .error .unauthorized

/-- A hub with a connection for user 7. -/
def vacant : Site MemoryBus :=
  fresh (.trial ⟨1⟩) 0 [(⟨0⟩, { user := ⟨7⟩, capacity := 4 })] none

/-- The user comes. -/
def visit : List (SiteTurn MemoryBus) := [.connect 0 ⟨0⟩ oneRoom]

/-- The user comes and goes. -/
def wholeVisit : List (SiteTurn MemoryBus) := visit ++ [.disconnect ⟨0⟩]

/-- The visitor listens to its room, and once it has gone there is none. -/
theorem wholeVisit_held :
    (vacant.afterAll visit).RoomsHeld ∧
      (vacant.afterAll visit).hub.registry.isListening ⟨5⟩ ⟨7⟩ = true ∧
      (vacant.afterAll wholeVisit).RoomsHeld ∧
      (vacant.afterAll wholeVisit).hub.registry.rooms = [] := by
  have held (turns : List (SiteTurn MemoryBus)) : (vacant.afterAll turns).RoomsHeld :=
    rooms_stay_held (.trial ⟨1⟩) 0 _ none turns
  exact ⟨held visit, by decide +kernel, held wholeVisit,
    (held wholeVisit).empty (by decide +kernel)⟩

end Site

end RoomRelay
