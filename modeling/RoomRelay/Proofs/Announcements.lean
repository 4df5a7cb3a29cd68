import RoomRelay.Proofs.PresenceTransitions

/-!
What rooms are told of a user's coming and going, on one hub whose bus is available. Coming, going
and listening tell no room anything by themselves, and an announcement is published once in each of
its rooms, behind what was published before. So who announces last has the last word.
-/

namespace RoomRelay

open BusView

/-! ## Messages -/

/-- What a message tells a room of a user's coming or going: whether it is online. -/
def BusMessage.announcement? (m : BusMessage) (room user : Uuid) : Option Bool :=
  if Channel.topic m.channel = .room room then
    match Json.Decode.run Event.decode m.payload with
    | .ok e =>
      if e.senderId = some user then
        match e.kind with
        | .online => some true
        | .offline => some false
        | _ => none
      else none
    | .error _ => none
  else none

/-- A hub's notice to the other hubs tells no room. -/
private theorem Presence.notice_unannounced (p : Presence) (subject : Uuid) (online : Bool)
    (room user : Uuid) : (p.notice subject online).announcement? room user = none := by
  have channel : (p.notice subject online).channel = Channel.presence := rfl
  unfold BusMessage.announcement?
  rw [channel, Channel.topic_presence]
  rfl

private theorem Event.presence_representable (user : Uuid) (online : Bool) :
    (Event.presence user online).Representable := by
  have shallow : 1 ≤ Json.levelLimit := by decide
  cases online with
  | true => exact ⟨fun _ none => (nomatch none), fun _ none => (nomatch none), shallow⟩
  | false => exact ⟨fun _ none => (nomatch none), fun _ none => (nomatch none), shallow⟩

/-- An announcement tells its one room of its one user. -/
private theorem roomMessage_announces (room user : Uuid) (online : Bool) (other subject : Uuid) :
    (Site.roomMessage room (Event.presence user online).render).announcement? other subject =
      if room = other ∧ user = subject then some online else none := by
  have read : Json.Decode.run Event.decode (Event.presence user online).render =
      .ok (Event.presence user online) :=
    Event.decode_written .id (Event.presence_representable user online)
  have sender : (Event.presence user online).senderId = some user := by
    cases online <;> rfl
  unfold BusMessage.announcement?
  simp only [Site.roomMessage, Channel.topic_room, Channel.Topic.room.injEq, read, sender,
    Option.some.injEq]
  by_cases here : room = other
  · by_cases about : user = subject
    · rw [if_pos here, if_pos about, if_pos ⟨here, about⟩]
      cases online <;> rfl
    · rw [if_pos here, if_neg about, if_neg fun both => about both.2]
  · rw [if_neg here, if_neg fun both => here both.1]

namespace Site

variable {β : Type} {s t : Site β} {user room : Uuid} {id : ConnId}

/-- What a room was told of a user's coming and going, oldest first. -/
def said [BusView β] (s : Site β) (room user : Uuid) : List Bool :=
  s.heard.filterMap (·.announcement? room user)

/-- The last that it was told. -/
def lastSaid [BusView β] (s : Site β) (room user : Uuid) : Option Bool :=
  (s.said room user).getLast?

private theorem said_congr [BusView β] (heard : t.heard = s.heard) (room user : Uuid) :
    t.said room user = s.said room user := by
  rw [said, heard, said]

private theorem said_append [BusView β] {m : BusMessage} (heard : t.heard = s.heard ++ [m])
    (room user : Uuid) :
    t.said room user = s.said room user ++ (m.announcement? room user).toList := by
  rw [said, heard, List.filterMap_append, ← said]
  cases told : m.announcement? room user with
  | none => simp [told]
  | some online => simp [told]

private theorem heard_of_history [BusView β] {b b' : β} {added : List BusMessage}
    (before : s.bus = some b)
    (after : t.bus = some b') (history : history b' = history b ++ added) :
    t.heard = s.heard ++ added := by
  simp [heard, before, after, history]

/-- What only a notice was added to told no room. -/
private theorem said_of_notice [BusView β] {b b' : β} {p : Presence} {subject : Uuid}
    {online : Bool}
    (before : s.bus = some b) (after : t.bus = some b')
    (history : history b' = history b ++ [p.notice subject online]) (room user : Uuid) :
    t.said room user = s.said room user := by
  rw [said_append (heard_of_history before after history), Presence.notice_unannounced]
  exact List.append_nil _

/-- A user listens to rooms. -/
def listenAll (s : Site β) (rooms : List Uuid) (user : Uuid) : Site β :=
  rooms.foldl (fun s room => s.listen room user) s

theorem mem_listeners_listenAll (s : Site β) (rooms : List Uuid) (user room other : Uuid) :
    other ∈ (s.listenAll rooms user).hub.registry.listeners room ↔
      other ∈ s.hub.registry.listeners room ∨ other = user ∧ room ∈ rooms := by
  induction rooms generalizing s with
  | nil => simp [listenAll]
  | cons first rest ih =>
    have step : s.listenAll (first :: rest) user = (s.listen first user).listenAll rest user := rfl
    have one : (s.listen first user).hub.registry.listeners room =
        (s.hub.registry.listen first user).listeners room := rfl
    rw [step, ih, one, Registry.mem_listeners_listen, List.mem_cons, and_or_left, or_assoc]

variable [SharedBus β] [BusView β] [ReliableBus β]

/-! ## Coming, going and listening -/

/-- The hub was `s` and is `t`: it is in service, its connections have their users, and no room was
told of anybody. -/
structure TellsNobody (s t : Site β) : Prop where
  serves : t.InService
  owner : t.owner = s.owner
  said : ∀ room user, t.said room user = s.said room user

/-- A connection that comes leaves the hub in service, and no room is told. -/
theorem register_tellsNobody (serves : s.InService) (owned : s.owner id = some user)
    (absent : id ∉ s.connectionsOf user) (now : Nat) :
    s.TellsNobody (s.register now user id).1 := by
  have acted := act_register owned now
  have sound := serves.orderly.sound
  have fresh : ∀ other, (Op.roster (β := β) (.register now id)).registered? = some other →
      other ∉ s.hub.registry.allConnections := by
    rintro other ⟨⟩ present
    obtain ⟨holder, member⟩ := (Registry.mem_allConnections sound.usersOnce).mp present
    have same := sound.idsOwned holder id member
    rw [owned] at same
    cases same
    exact absent member
  refine ⟨acted ▸ act_inService serves trivial fresh, acted ▸ act_owner sound _, ?_⟩
  intro room other
  obtain ⟨b, on, up⟩ := serves.available
  have bus := register_bus serves.running now user id
  split at bus
  · obtain ⟨b', marks, becomes⟩ := Presence.markOnline_becomes up s.hub.presence now user
    rw [on, marks] at bus
    exact said_of_notice on bus becomes.history room other
  · exact said_congr (by rw [heard, bus, heard]) room other

/-- And so does one that goes. -/
theorem unregister_tellsNobody (serves : s.InService) (owned : s.owner id = some user) :
    s.TellsNobody (s.unregister user id).1 := by
  have acted := act_unregister owned
  have sound := serves.orderly.sound
  have none : ∀ other, (Op.roster (β := β) (.unregister id)).registered? = some other →
      other ∉ s.hub.registry.allConnections := by
    rintro other ⟨⟩
  refine ⟨acted ▸ act_inService serves trivial none, acted ▸ act_owner sound _, ?_⟩
  intro room other
  obtain ⟨b, on, up⟩ := serves.available
  have bus := unregister_bus serves.running user id
  split at bus
  · obtain ⟨b', marks, becomes⟩ := Presence.markOffline_becomes up s.hub.presence user
    rw [on, marks] at bus
    exact said_of_notice on bus becomes.history room other
  · exact said_congr (by rw [heard, bus, heard]) room other

/-- Listening changes nothing but who listens. -/
theorem listenAll_tellsNobody (serves : s.InService) (rooms : List Uuid) (user : Uuid) :
    s.TellsNobody (s.listenAll rooms user) ∧
      (s.listenAll rooms user).hub.registry.users = s.hub.registry.users := by
  induction rooms generalizing s with
  | nil => exact ⟨⟨serves, rfl, fun _ _ => rfl⟩, rfl⟩
  | cons room rest ih =>
    have none : ∀ other, (Op.roster (β := β) (.listen room user)).registered? = some other →
        other ∉ s.hub.registry.allConnections := by
      rintro other ⟨⟩
    have next : (s.listen room user).InService :=
      act_inService serves (show (Op.roster (.listen room user)).Ordinary from trivial) none
    obtain ⟨later, users⟩ := ih next
    exact ⟨⟨later.serves, later.owner, later.said⟩, users.trans (Registry.listen_users ..)⟩

/-! ## Announcing -/

/-- The hub was `s` and is `t`: it is in service and the same but for counts, and a room was told of
a user. -/
structure Tells (s : Site β) (room user : Uuid) (online : Bool) (t : Site β) : Prop where
  serves : t.InService
  owner : t.owner = s.owner
  alike : s.hub.AlikeButCounts t.hub
  said : ∀ other subject, t.said other subject =
    s.said other subject ++ if room = other ∧ user = subject then [online] else []

/-- An announcement to one room is published there, and changes nothing but counts. -/
theorem announce_tells (serves : s.InService) (room user : Uuid) (online : Bool) :
    s.Tells room user online (s.announcePresence user [room] online) := by
  have sound := serves.orderly.sound
  have alike := broadcast_alike s room (Event.presence user online)
  have delivers := broadcast_delivers sound room (Event.presence user online)
  have bus := broadcast_bus s room (Event.presence user online)
  obtain ⟨b, on, up⟩ := serves.available
  obtain ⟨b', publishes, becomes⟩ :=
    ReliableBus.publish up (roomMessage room (Event.presence user online).render)
  rw [on, Option.map_some, publishes] at bus
  refine ⟨⟨?_, ?_, ?_, b', bus, becomes.up⟩, delivers.owner, alike, ?_⟩
  · rw [show (s.announcePresence user [room] online).owner = s.owner from delivers.owner]
    exact serves.orderly.alike alike
  · exact alike.stopped.trans serves.running
  · show _ = (s.broadcast room (Event.presence user online)).1.hub.config.instanceId
    rw [alike.config]
    exact (congrArg Presence.instanceId alike.presence).trans serves.named
  · intro other subject
    refine (said_append (heard_of_history on bus becomes.history) other subject).trans ?_
    rw [roomMessage_announces]
    split
    · rfl
    · rfl

end Site

end RoomRelay
