import RoomRelay.Proofs.Announcements
import RoomRelay.Proofs.Conversation
import RoomRelay.Proofs.WorkingHub

/-!
What a client finds when it comes. Its connection is registered, it listens to the rooms that the
services name, those are told if it was not connected before, and it gets its baseline: the first
page of notifications, or an error when that cannot be had. Each of these may find the hub changed
by the world, and none depends on how the others went; nobody else is pushed anything but that the
user is online.
-/

namespace RoomRelay

namespace Connection

/-- The connection once texts were pushed to it, one after another. -/
def pushEach (c : Connection) (texts : List String) : Connection :=
  texts.foldl (fun c text => (c.push text).1) c

private theorem pushEach_append (c : Connection) (earlier later : List String) :
    c.pushEach (earlier ++ later) = (c.pushEach earlier).pushEach later :=
  List.foldl_append

/-- An open connection takes texts, oldest first, up to its capacity. -/
private theorem pushEach_open {c : Connection} (takes : c.isOpen = true)
    (held : c.pending.length ≤ c.capacity) (texts : List String) :
    c.pushEach texts = { c with pending := (c.pending ++ texts).take c.capacity } := by
  induction texts generalizing c with
  | nil => simp [pushEach, List.take_of_length_le held]
  | cons text rest ih =>
    have step : c.pushEach (text :: rest) = (c.push text).1.pushEach rest := rfl
    rw [step]
    by_cases full : c.capacity ≤ c.pending.length
    · have exact : c.capacity = c.pending.length := Nat.le_antisymm full held
      have refused : (c.push text).1 = c := by simp [push, takes, full]
      rw [refused, ih takes held, exact, List.take_left, List.take_left]
    · have taken : (c.push text).1 = { c with pending := c.pending ++ [text] } := by
        simp [push, takes, full]
      have room : (c.pending ++ [text]).length ≤ c.capacity := by
        simp only [List.length_append, List.length_singleton]
        omega
      rw [taken, ih (c := { c with pending := c.pending ++ [text] }) takes room,
        List.append_assoc, List.singleton_append]

end Connection

/-- The bus once messages were handed to it one after another, whatever it answered. -/
def publishEach {β : Type} [SharedBus β] (b : β) (ms : List BusMessage) : β :=
  ms.foldl (fun b m => (SharedBus.publish b m).1) b

/-- What a client gets to begin with. -/
def baseline (unread : Except Failure Int) (items : Except Failure (List Notification)) : Event :=
  match unread, items with
  | .ok unread, .ok items => .notificationSync unread items 20 0
  | _, _ => .error ErrorCode.internalError.name

namespace Site

variable {β : Type} [SharedBus β]

/-- How many times a connection is pushed an event that rooms are told of one after another. A room
that is told over the bus is not told here. -/
def timesTold (s : Site β) (e : Event) (id : ConnId) : List Uuid → Nat
  | [] => 0
  | room :: rest =>
    (if id ∈ (s.broadcastFanOut room e).targets then 1 else 0) +
      (s.broadcast room e).1.timesTold e id rest

/-- How many times a connection is told that a user is online, the user having come to listen. -/
def timesGreeted (s : Site β) (user : Uuid) (rooms told : List Uuid) (id : ConnId) : Nat :=
  (s.listenAll rooms user).timesTold (.online user) id told

omit [SharedBus β] in
/-- The rooms that are told of a user that comes: none when it was connected before. -/
def roomsToTell (s : Site β) (user : Uuid) (rooms : List Uuid) : List Uuid :=
  if s.connectionsOf user = [] then rooms else []

/-- A connection came to a hub: `s` is now `t`. -/
structure Admits (s : Site β) (now : Nat) (user : Uuid) (id : ConnId) (t : Site β) : Prop where
  connections : ∀ other, t.connectionsOf other =
    if other = user then s.connectionsOf user ++ [id] else s.connectionsOf other
  listeners : ∀ room, t.hub.registry.listeners room = s.hub.registry.listeners room
  queues : t.queues = s.queues
  /-- The user is marked online when it had no connection here. -/
  bus : t.bus =
    if s.connectionsOf user = [] then (s.hub.presence.markOnline s.bus now user).2 else s.bus
  /-- What is published with that is pushed to nobody, on no hub. -/
  unheard : ∀ there : Site β, there.messageFanOut (s.hub.presence.notice user true) = .none
  limits : t.hub.limits = s.hub.limits

/-- A user came to listen to rooms, of which some were told: `s` is now `t`. -/
structure Settles (s : Site β) (user : Uuid) (rooms told : List Uuid) (t : Site β) : Prop where
  connections : ∀ other, t.connectionsOf other = s.connectionsOf other
  listeners : ∀ room other, other ∈ t.hub.registry.listeners room ↔
    other ∈ s.hub.registry.listeners room ∨ other = user ∧ room ∈ rooms
  /-- Whoever is pushed anything is told that the user is online. -/
  queue : s.hub.registry.Sound s.owner → ∀ id, t.queues.get? id = (s.queues.get? id).map
    (·.pushEach (List.replicate (s.timesGreeted user rooms told id) (Event.online user).render))
  /-- That is once at most for each room told that the connection's user listens to. -/
  few : ∀ id, s.timesGreeted user rooms told id ≤ told.countP (id ∈ t.hub.registry.recipients ·)
  /-- The bus is handed one message for each room told. -/
  bus : t.bus = s.bus.map
    (publishEach · (told.map (roomMessage · (Event.online user).render)))
  /-- And what any hub pushes on receiving it is the same, to the room's listeners there. -/
  relayed : ∀ (there : Site β) (room : Uuid),
    there.messageFanOut (roomMessage room (Event.online user).render) =
      ⟨(Event.online user).render, there.hub.registry.recipients room⟩
  limits : t.hub.limits = s.hub.limits

/-- One connection was pushed one event: `s` is now `t`. -/
structure Hands (s : Site β) (id : ConnId) (e : Event) (t : Site β) : Prop where
  delivers : s.Delivers ⟨e.render, [id]⟩ t
  bus : t.bus = s.bus
  limits : t.hub.limits = s.hub.limits

/-- A client came to a hub that did nothing else meanwhile: `s` is now `t`. Each connection was told
that the user is online as many times as `times` says. -/
structure Receives (s : Site β) (now : Nat) (user : Uuid) (id : ConnId) (rooms : List Uuid)
    (times : ConnId → Nat) (base : Event) (t : Site β) : Prop where
  connections : ∀ other, t.connectionsOf other =
    if other = user then s.connectionsOf user ++ [id] else s.connectionsOf other
  /-- The user listens to the earlier rooms and to those the services named; nobody else moved. -/
  listeners : ∀ room other, other ∈ t.hub.registry.listeners room ↔
    other ∈ s.hub.registry.listeners room ∨ other = user ∧ room ∈ rooms
  /-- The new connection gets its baseline, once and last. Beside that nobody is pushed anything but
  that the user is online. -/
  queue : ∀ a, t.queues.get? a = (s.queues.get? a).map
    (·.pushEach (List.replicate (times a) (Event.online user).render ++
      if a = id then [base.render] else []))
  /-- And that once at most for each room told that its user listens to. -/
  few : ∀ a, times a ≤ (s.roomsToTell user rooms).countP (a ∈ t.hub.registry.recipients ·)
  /-- So this is what waits for the client, as far as the capacity of its queue goes. -/
  waiting : ∀ c, s.queues.get? id = some c → c.isOpen = true → c.pending = [] →
    t.queues.get? id = some { c with
      pending := (List.replicate (times id) (Event.online user).render ++
        [base.render]).take c.capacity }
  bus : t.bus =
    (if s.connectionsOf user = [] then (s.hub.presence.markOnline s.bus now user).2 else s.bus).map
      (publishEach · ((s.roomsToTell user rooms).map (roomMessage · (Event.online user).render)))
  limits : t.hub.limits = s.hub.limits

/-- How a client is received: the course that receiving it on `s` took, with its three questions. -/
inductive Welcomes (s : Site β) (now : Nat) (user : Uuid) (id : ConnId) :
    Course (Site β) (Except Failure Unit) → Prop
  | course {rooms : Except Failure (List Uuid)} {unread : Except Failure Int}
    {items : Except Failure (List Notification)} {came t settled u v final : Site β}
    (admits : s.Admits now user id came)
    (settles : t.Settles user (rooms.toOption.getD [])
      (s.roomsToTell user (rooms.toOption.getD [])) settled)
    (hands : v.Hands id (baseline unread items) final)
    -- in a world that leaves the hub alone while it answers, this is what comes of it all
    (undisturbed : t = came → u = settled → v = u →
      s.Receives now user id (rooms.toOption.getD [])
        (came.timesGreeted user (rooms.toOption.getD [])
          (s.roomsToTell user (rooms.toOption.getD [])))
        (baseline unread items) final) :
    Welcomes s now user id
      ⟨[⟨came, .roomsOf user, rooms, t⟩, ⟨settled, .unreadCount user, unread, u⟩,
        ⟨u, .notifications user 20 0 false, items, v⟩], final, .ok ()⟩

variable {s t : Site β} {user : Uuid} {id : ConnId}

/-! ## Coming -/

omit [SharedBus β] in
private theorem notice_unheard (p : Presence) (user : Uuid) (online : Bool) (there : Site β) :
    there.messageFanOut (p.notice user online) = .none := by
  have channel : (p.notice user online).channel = Channel.presence := rfl
  unfold messageFanOut
  rw [channel, Channel.topic_presence]

private theorem register_admits (running : s.hub.stopped = false)
    (absent : id ∉ s.connectionsOf user)
    (now : Nat) : s.Admits now user id (s.register now user id).1 := by
  have hub := register_hub running now user id
  have first : (s.hub.registry.addConnection user id).connectionCount user = 1 ↔
      s.connectionsOf user = [] := (first_iff absent).trans List.length_eq_zero_iff
  refine ⟨fun other => ?_, fun room => ?_, register_queues s now user id, ?_,
    fun there => notice_unheard _ _ _ there, register_limits ..⟩
  · rw [connectionsOf, hub, Registry.connectionsOf_addConnection]
    exact if_congr (and_iff_left absent) rfl rfl
  · rw [hub]
    simp only [Registry.listeners, Registry.addConnection_rooms]
  · rw [register_bus running]
    exact if_congr first rfl rfl

/-! ## Telling rooms -/

private theorem timesTold_le (s : Site β) (e : Event) (id : ConnId) (rooms : List Uuid) :
    s.timesTold e id rooms ≤ rooms.countP (id ∈ s.hub.registry.recipients ·) := by
  induction rooms generalizing s with
  | nil => exact Nat.le_refl 0
  | cons room rest ih =>
    have same := funext (broadcast_alike s room e).recipients
    have later := ih (s.broadcast room e).1
    rw [same] at later
    rw [timesTold, List.countP_cons]
    have here : (if id ∈ (s.broadcastFanOut room e).targets then 1 else 0) ≤
        if decide (id ∈ s.hub.registry.recipients room) = true then 1 else 0 := by
      unfold broadcastFanOut
      by_cases onsite : s.deliversOnsite room e = true <;> simp [onsite, FanOut.none]
    omega

private theorem announcePresence_alike (s : Site β) (user : Uuid) (rooms : List Uuid)
    (online : Bool) :
    s.hub.AlikeButCounts (s.announcePresence user rooms online).hub := by
  induction rooms generalizing s with
  | nil => exact .refl s.hub
  | cons room rest ih => exact (broadcast_alike s room _).trans (ih _)

private theorem announcePresence_bus (s : Site β) (user : Uuid) (rooms : List Uuid)
    (online : Bool) :
    (s.announcePresence user rooms online).bus = s.bus.map
      (publishEach · (rooms.map (roomMessage · (Event.presence user online).render))) := by
  induction rooms generalizing s with
  | nil => simp [announcePresence, publishEach]
  | cons room rest ih =>
    have step : s.announcePresence user (room :: rest) online =
        (s.broadcast room (.presence user online)).1.announcePresence user rest online := rfl
    rw [step, ih, broadcast_bus, Option.map_map]
    rfl

/-- Each connection is pushed the announcement as often as it is told. -/
private theorem announcePresence_queue (sound : s.hub.registry.Sound s.owner) (user : Uuid)
    (rooms : List Uuid) (online : Bool) (id : ConnId) :
    (s.announcePresence user rooms online).queues.get? id = (s.queues.get? id).map
      (·.pushEach (List.replicate (s.timesTold (.presence user online) id rooms)
        (Event.presence user online).render)) := by
  induction rooms generalizing s with
  | nil => simp [announcePresence, timesTold, Connection.pushEach]
  | cons room rest ih =>
    have delivers := broadcast_delivers sound room (.presence user online)
    have stillSound : (s.broadcast room (.presence user online)).1.hub.registry.Sound
        (s.broadcast room (.presence user online)).1.owner := by
      rw [delivers.owner]
      exact delivers.alike.sound sound
    have text : (s.broadcastFanOut room (.presence user online)).targets ≠ [] →
        (s.broadcastFanOut room (.presence user online)).text =
          (Event.presence user online).render := by
      unfold broadcastFanOut
      split
      · exact fun _ => rfl
      · exact fun some_ => absurd rfl some_
    refine (ih stillSound).trans ?_
    rw [delivers.queue id, timesTold]
    by_cases target : id ∈ (s.broadcastFanOut room (.presence user online)).targets
    · rw [if_pos target, if_pos target, text (List.ne_nil_of_mem target), Option.map_map,
        Nat.add_comm, List.replicate_succ]
      rfl
    · rw [if_neg target, if_neg target, Nat.zero_add]

/-! ## Listening -/

omit [SharedBus β] in
private theorem listenAll_frame (s : Site β) (rooms : List Uuid) (user : Uuid) :
    (s.listenAll rooms user).hub.registry.users = s.hub.registry.users ∧
      (s.listenAll rooms user).queues = s.queues ∧ (s.listenAll rooms user).bus = s.bus := by
  induction rooms generalizing s with
  | nil => exact ⟨rfl, rfl, rfl⟩
  | cons room rest ih =>
    obtain ⟨users, queues, bus⟩ := ih (s.listen room user)
    exact ⟨users.trans (Registry.listen_users ..), queues, bus⟩

omit [SharedBus β] in
private theorem listenAll_sound {known : ConnId → Option Uuid} (sound : s.hub.registry.Sound known)
    (rooms : List Uuid) (user : Uuid) : (s.listenAll rooms user).hub.registry.Sound known := by
  induction rooms generalizing s with
  | nil => exact sound
  | cons room rest ih => exact ih (s := s.listen room user) (sound.listen room user)

private theorem listenAll_settles (s : Site β) (user : Uuid) (rooms told : List Uuid) :
    s.Settles user rooms told ((s.listenAll rooms user).announcePresence user told true) := by
  obtain ⟨users, queues, bus⟩ := listenAll_frame s rooms user
  have alike := announcePresence_alike (s.listenAll rooms user) user told true
  refine ⟨fun other => ?_, fun room other => ?_, fun sound a => ?_, fun a => ?_, ?_,
    fun there room => messageFanOut_room there room _, ?_⟩
  · rw [connectionsOf, alike.connectionsOf]
    simp only [Registry.connectionsOf, users]
  · rw [alike.listeners, mem_listeners_listenAll]
  · have owner : (s.listenAll rooms user).owner = s.owner := by
      funext other
      simp only [owner, queues]
    have listening := listenAll_sound sound rooms user
    rw [announcePresence_queue (owner.symm ▸ listening), queues]
    rfl
  · rw [funext alike.recipients]
    exact timesTold_le (s.listenAll rooms user) (.online user) a told
  · rw [announcePresence_bus, bus]
    rfl
  · exact (announcePresence_limits ..).trans (foldl_listen_limits s user rooms)

/-! ## The baseline -/

omit [SharedBus β] in
private theorem reply_hands (s : Site β) (id : ConnId) (e : Event) : s.Hands id e (s.reply id e) :=
  ⟨pushTo_delivers s id e.render, pushTo_bus s id e.render, pushTo_limits ..⟩

/-! ## The whole -/

/-- The three parts one after another, with nothing between them. -/
private theorem Admits.receives {now : Nat} {rooms : List Uuid} {e : Event}
    {came settled final : Site β}
    (admits : s.Admits now user id came) (sound : came.hub.registry.Sound came.owner)
    (settles : came.Settles user rooms (s.roomsToTell user rooms) settled)
    (hands : settled.Hands id e final) :
    s.Receives now user id rooms (came.timesGreeted user rooms (s.roomsToTell user rooms)) e final := by
  have alike := hands.delivers.alike
  have queue : ∀ a, final.queues.get? a = (s.queues.get? a).map
      (·.pushEach (List.replicate (came.timesGreeted user rooms (s.roomsToTell user rooms) a)
        (Event.online user).render ++ if a = id then [e.render] else [])) := by
    intro a
    rw [hands.delivers.queue, settles.queue sound, admits.queues]
    by_cases own : a = id
    · subst own
      simp only [List.mem_singleton, if_true, Option.map_map, Connection.pushEach_append]
      rfl
    · simp [own]
  refine ⟨fun other => ?_, fun room other => ?_, queue, fun a => ?_, ?_, ?_, ?_⟩
  · exact (alike.connectionsOf other).trans ((settles.connections other).trans
      (admits.connections other))
  · rw [alike.listeners, settles.listeners, admits.listeners]
  · rw [funext alike.recipients]
    exact settles.few a
  · intro c new takes empty
    rw [queue id, new, Option.map_some, if_pos rfl,
      Connection.pushEach_open takes (by simp [empty]), empty, List.nil_append]
  · rw [hands.bus, settles.bus, admits.bus]
  · rw [hands.limits, settles.limits, admits.limits]

omit [SharedBus β] in
/-- The page of notifications is asked for in two questions, and comes to one event. -/
private theorem sendSync_course {ω : Type} (s : Site β) (user : Uuid) (id : ConnId)
    (answer : ω → Site β → (c : Call) → ω × c.Outcome × Site β) (w : ω) :
    ∃ unread items u v,
      (((s.sendSync user id {}).andThen (conclude id)).map (Except.ok (ε := Failure))).course
          answer w =
        ⟨[⟨s, .unreadCount user, unread, u⟩, ⟨u, .notifications user 20 0 false, items, v⟩],
          v.reply id (baseline unread items), .ok ()⟩ := by
  simp only [sendSync, Procedure.andThen, Procedure.map, Procedure.course]
  obtain ⟨w', unread, u⟩ := answer w s (.unreadCount user)
  obtain ⟨w'', items, v⟩ := answer w' u (.notifications user 20 0 false)
  refine ⟨unread, items, u, v, ?_⟩
  cases unread with
  | error f => rfl
  | ok unread =>
    cases items with
    | error f => rfl
    | ok items => rfl

/-- A hub without a bus, where user 9 is connected and listens to room 5. -/
def occupiedHub : Site MemoryBus :=
  (fresh (.trial ⟨1⟩) 0
    [(⟨0⟩, { user := ⟨7⟩, capacity := 2 }), (⟨1⟩, { user := ⟨9⟩, capacity := 2 })] none).run
    [.roster (.register 0 ⟨1⟩), .roster (.listen ⟨5⟩ ⟨9⟩)]

/-- Services that know of one room and a count, and of nothing else. -/
def roomAndCount : (c : Call) → c.Outcome
  | .roomsOf _ => .ok [⟨5⟩]
  | .unreadCount _ => .ok 3
  | .notifications .. => .error .unauthorized
  | .markRoomRead .. => .error .unauthorized
  | .markRead .. => .error .unauthorized
  | .markAllRead _ => .error .unauthorized

end Site

end RoomRelay
