import RoomRelay.Proofs.Membership
import RoomRelay.Proofs.Relay

/-!
All that can happen on a hub, as data, so that whole runs can be spoken of: events are sent and
come in, connections come and go and listen to rooms, clients act on their own end, the hub is
brought to its end, and the bus changes under it. For each operation the theorems here say what
becomes of the queues, of the connections in the registry, and of the counts.
-/

namespace RoomRelay

/-! ## What can happen -/

/-- Something that may push a text. -/
inductive Sending where
  | localBroadcast (room : Uuid) (payload : String)
  | deliverToUser (user : Uuid) (payload : String)
  | sendTo (id : ConnId) (payload : String)
  | broadcast (room : Uuid) (e : Event)
  | sendToUser (user : Uuid) (e : Event)
  | receive (m : BusMessage)

/-- A change of who is connected or listens, or a renewal of presence. -/
inductive RosterChange where
  | register (now : Nat) (id : ConnId)
  | unregister (id : ConnId)
  | listen (room user : Uuid)
  | unlisten (room user : Uuid)
  | refresh (now : Nat)

/-- What is done to one connection's end: it is closed, its reader takes a text, or its reader
goes. -/
inductive ClientAct where
  | close | take | dropReader

/-- A part of a hub's end. -/
inductive Ending where
  | stopRelay | closeAll | evictAll

/-- Something that happens on a hub. -/
inductive Op (β : Type) where
  | send (x : Sending)
  | roster (x : RosterChange)
  | client (id : ConnId) (a : ClientAct)
  | ending (x : Ending)
  /-- The bus becomes another, by what others do on it or by an outage. -/
  | turnBus (b : β)

/-- The connection with the act done. -/
def ClientAct.onConnection : ClientAct → Connection → Connection
  | .close, c => c.close
  | .take, c => c.receive.1
  | .dropReader, c => c.dropReader

@[simp] theorem ClientAct.onConnection_user (a : ClientAct) (c : Connection) :
    (a.onConnection c).user = c.user := by
  cases a with
  | close => rfl
  | take =>
    simp only [onConnection, Connection.receive]
    split <;> rfl
  | dropReader => rfl

private theorem ClientAct.onConnection_closed (a : ClientAct) {c : Connection}
    (closed : c.closed = true) :
    (a.onConnection c).closed = true := by
  cases a with
  | close => rfl
  | take =>
    simp only [onConnection, Connection.receive]
    split <;> exact closed
  | dropReader => exact closed

/-- The connection that an operation registers. -/
def Op.registered? {β : Type} : Op β → Option ConnId
  | .roster (.register _ id) => some id
  | _ => none

/-- The connections that operations register, in order. -/
def registrations {β : Type} (ops : List (Op β)) : List ConnId := ops.filterMap Op.registered?

namespace Site

variable {β : Type}

/-- What an operation does to a connection besides pushing. -/
def touch (s : Site β) (id : ConnId) (c : Connection) : Op β → Connection
  | .roster (.unregister other) => if ¬s.hub.stopped ∧ id = other then c.close else c
  | .client other a => if id = other then a.onConnection c else c
  | .ending .closeAll | .ending .evictAll =>
    if id ∈ s.hub.registry.allConnections then c.close else c
  | _ => c

/-- The user of a connection. -/
def owner (s : Site β) (id : ConnId) : Option Uuid := (s.queues.get? id).map (·.user)

/-- Whether a connection is closed. -/
def isClosed (s : Site β) (id : ConnId) : Bool := (s.queues.get? id).any (·.closed)

@[simp] theorem touch_user (s : Site β) (id : ConnId) (c : Connection) (op : Op β) :
    (s.touch id c op).user = c.user := by
  unfold touch
  split
  · split <;> rfl
  · split
    · exact ClientAct.onConnection_user _ _
    · rfl
  · split <;> rfl
  · split <;> rfl
  · rfl

private theorem touch_closed (s : Site β) (id : ConnId) {c : Connection} (closed : c.closed = true)
    (op : Op β) : (s.touch id c op).closed = true := by
  unfold touch
  split
  · split
    · rfl
    · exact closed
  · split
    · exact ClientAct.onConnection_closed _ closed
    · exact closed
  · split
    · rfl
    · exact closed
  · split
    · rfl
    · exact closed
  · exact closed

/-- A fan-out leaves every connection with its user. -/
theorem Delivers.owner {s s' : Site β} {f : FanOut} (made : s.Delivers f s') : s'.owner = s.owner := by
  funext id
  simp only [Site.owner, made.queue id]
  split
  · rw [Option.map_map]
    congr 1
    funext c
    exact Connection.push_user c f.text
  · rfl

variable [SharedBus β]

/-- The hub after a sending. -/
def send (s : Site β) : Sending → Site β
  | .localBroadcast room payload => (s.localBroadcast room payload).1
  | .deliverToUser user payload => (s.deliverToUser user payload).1
  | .sendTo id payload => (s.pushTo id payload).1
  | .broadcast room e => (s.broadcast room e).1
  | .sendToUser user e => (s.sendToUser user e).1
  | .receive m => s.receive m

/-- The hub after a change of its roster. A connection comes and goes under its own user. -/
def changeRoster (s : Site β) : RosterChange → Site β
  | .register now id =>
    match s.queues.get? id with
    | some c => (s.register now c.user id).1
    | none => s
  | .unregister id =>
    match s.queues.get? id with
    | some c => (s.unregister c.user id).1
    | none => s
  | .listen room user => s.listen room user
  | .unlisten room user => s.unlisten room user
  | .refresh now => s.refresh now

/-- The hub after a part of its end. -/
def wind (s : Site β) : Ending → Site β
  | .stopRelay => s.stopRelay
  | .closeAll => s.closeAll.1
  | .evictAll => s.evictAll

/-- The hub after an operation. -/
def act (s : Site β) : Op β → Site β
  | .send x => s.send x
  | .roster x => s.changeRoster x
  | .client id a => { s with queues := s.queues.modify id a.onConnection }
  | .ending x => s.wind x
  | .turnBus b => { s with bus := s.bus.map fun _ => b }

/-- The hub after a run. -/
def run (s : Site β) (ops : List (Op β)) : Site β := ops.foldl act s

/-- The fan-out of a sending. -/
def sendingFanOut (s : Site β) : Sending → FanOut
  | .localBroadcast room payload => ⟨payload, s.hub.registry.recipients room⟩
  | .deliverToUser user payload => ⟨payload, s.hub.registry.connectionsOf user⟩
  | .sendTo id payload => ⟨payload, [id]⟩
  | .broadcast room e => s.broadcastFanOut room e
  | .sendToUser user e => ⟨e.render, s.hub.registry.connectionsOf user⟩
  | .receive m => s.messageFanOut m

/-- The fan-out of an operation. -/
def fanOut (s : Site β) : Op β → FanOut
  | .send x => s.sendingFanOut x
  | _ => .none

/-- What becomes of the pushes of an operation, in order. -/
def pushes (s : Site β) (op : Op β) : List PushOutcome :=
  s.outcomes (s.fanOut op).text (s.fanOut op).targets

/-! ## Queues -/

variable {s : Site β} {known : ConnId → Option Uuid}

theorem refresh_hub (s : Site β) (now : Nat) : (s.refresh now).hub = s.hub := by
  simp only [Site.refresh]
  split <;> rfl

theorem act_register {user : Uuid} {id : ConnId} (owned : s.owner id = some user) (now : Nat) :
    s.act (.roster (.register now id)) = (s.register now user id).1 := by
  obtain ⟨c, found, rfl⟩ := Option.map_eq_some_iff.mp owned
  simp [act, changeRoster, found]

theorem act_unregister {user : Uuid} {id : ConnId} (owned : s.owner id = some user) :
    s.act (.roster (.unregister id)) = (s.unregister user id).1 := by
  obtain ⟨c, found, rfl⟩ := Option.map_eq_some_iff.mp owned
  simp [act, changeRoster, found]

/-- A connection that does not exist neither comes nor goes. -/
theorem act_nobody {id : ConnId} (nobody : s.owner id = none) (now : Nat) :
    s.act (.roster (.register now id)) = s ∧ s.act (.roster (.unregister id)) = s := by
  have absent := Option.map_eq_none_iff.mp nobody
  constructor <;> simp [act, changeRoster, absent]

private theorem unregister_touch (s : Site β) (user : Uuid) (other id : ConnId) :
    (s.unregister user other).1.queues.get? id =
      (s.queues.get? id).map fun c => s.touch id c (.roster (.unregister other)) := by
  by_cases stopped : s.hub.stopped = true
  · simp [unregister_stopped stopped, touch, stopped]
  · have running := Bool.eq_false_iff.mpr stopped
    rw [unregister_queues running, closeQueues_queue]
    simp [touch, running]

private theorem changeRoster_queue (s : Site β) (x : RosterChange) (id : ConnId) :
    (s.changeRoster x).queues.get? id =
      (s.queues.get? id).map fun c => s.touch id c (.roster x) := by
  cases x with
  | register now other =>
    simp only [changeRoster, touch, Option.map_id']
    cases s.queues.get? other with
    | none => rfl
    | some c => simp
  | unregister other =>
    simp only [changeRoster]
    cases found : s.queues.get? other with
    | some c => exact unregister_touch s c.user other id
    | none =>
      -- nobody of that name is there, so nobody is touched
      by_cases same : id = other
      · simp [same, found]
      · simp [touch, same]
  | listen room user => simp [changeRoster, Site.listen, touch]
  | unlisten room user => simp [changeRoster, Site.unlisten, touch]
  | refresh now =>
    simp only [changeRoster, Site.refresh, touch, Option.map_id']
    split <;> rfl

private theorem wind_queue (s : Site β) (x : Ending) (id : ConnId) :
    (s.wind x).queues.get? id = (s.queues.get? id).map fun c => s.touch id c (.ending x) := by
  cases x with
  | stopRelay => simp [wind, Site.stopRelay, touch]
  | closeAll => exact closeQueues_queue s.queues s.hub.registry.allConnections id
  | evictAll => exact evictAll_queue s id

/-- Every sending makes one fan-out. -/
theorem send_delivers (sound : s.hub.registry.Sound known) (x : Sending) :
    s.Delivers (s.sendingFanOut x) (s.send x) := by
  cases x with
  | localBroadcast room payload => exact localBroadcast_delivers sound room payload
  | deliverToUser user payload => exact deliverToUser_delivers sound user payload
  | sendTo id payload => exact pushTo_delivers s id payload
  | broadcast room e => exact broadcast_delivers sound room e
  | sendToUser user e => exact sendToUser_delivers sound user e
  | receive m => exact receive_delivers sound m

/-- What any operation does to any queue: one push to the targets of its fan-out, and to the
others what it does besides. -/
theorem act_queue (sound : s.hub.registry.Sound known) (op : Op β) (id : ConnId) :
    (s.act op).queues.get? id =
      (s.queues.get? id).map fun c =>
        if id ∈ (s.fanOut op).targets then (c.push (s.fanOut op).text).1 else s.touch id c op := by
  cases op with
  | send x =>
    have delivered := (send_delivers sound x).queue id
    simp only [act, fanOut, touch, delivered]
    by_cases target : id ∈ (s.sendingFanOut x).targets <;> simp [target]
  | roster x => simpa [act, fanOut, FanOut.none] using changeRoster_queue s x id
  | client other a =>
    simp only [act, fanOut, FanOut.none, Table.get?_modify, touch]
    by_cases same : id = other <;> simp [same]
  | ending x => simpa [act, fanOut, FanOut.none] using wind_queue s x id
  | turnBus b => simp [act, fanOut, FanOut.none, touch]

/-- A connection never changes its user. -/
theorem act_owner (sound : s.hub.registry.Sound known) (op : Op β) :
    (s.act op).owner = s.owner := by
  funext id
  unfold owner
  rw [act_queue sound, Option.map_map]
  congr 1
  funext c
  simp only [Function.comp_apply]
  split <;> simp

/-- A closed connection stays closed. -/
theorem act_isClosed (sound : s.hub.registry.Sound known) (op : Op β) {id : ConnId}
    (closed : s.isClosed id = true) : (s.act op).isClosed id = true := by
  unfold isClosed at closed ⊢
  rw [act_queue sound]
  cases found : s.queues.get? id with
  | none => rw [found] at closed; cases closed
  | some c =>
    rw [found] at closed
    have shut : c.isOpen = false := by simp [Connection.isOpen, show c.closed = true from closed]
    simp only [Option.map_some, Option.any_some, Connection.push_not_open shut]
    split
    · exact closed
    · exact touch_closed s id closed op

/-! ## Soundness -/

theorem changeRoster_sound (sound : s.hub.registry.Sound s.owner) (x : RosterChange) :
    (s.changeRoster x).hub.registry.Sound s.owner := by
  cases x with
  | register now id =>
    simp only [changeRoster]
    cases found : s.queues.get? id with
    | none => exact sound
    | some c => exact register_sound sound (by simp [owner, found]) now
  | unregister id =>
    simp only [changeRoster]
    cases s.queues.get? id with
    | none => exact sound
    | some c => exact unregister_sound sound c.user id
  | listen room user => exact sound.listen room user
  | unlisten room user => exact sound.unlisten room user
  | refresh now => exact (refresh_hub s now).symm ▸ sound

private theorem wind_sound (sound : s.hub.registry.Sound known) (x : Ending) :
    (s.wind x).hub.registry.Sound known := by
  cases x with
  | stopRelay => exact sound
  | closeAll => exact sound
  | evictAll =>
    rw [wind, evictAll_hub]
    exact Hub.evicted_sound sound.withoutUsers _

/-- Every operation leaves the registry sound. -/
theorem act_sound (sound : s.hub.registry.Sound s.owner) (op : Op β) :
    (s.act op).hub.registry.Sound (s.act op).owner := by
  rw [act_owner sound]
  cases op with
  | send x => exact (send_delivers sound x).alike.sound sound
  | roster x => exact changeRoster_sound sound x
  | client id a => exact sound
  | ending x => exact wind_sound sound x
  | turnBus b => exact sound

/-- A sound registry stays sound. -/
theorem run_sound (sound : s.hub.registry.Sound s.owner) (ops : List (Op β)) :
    (s.run ops).hub.registry.Sound (s.run ops).owner := by
  induction ops generalizing s with
  | nil => exact sound
  | cons op rest ih => exact ih (act_sound sound op)

/-! ## Who stands in the registry -/

/-- The connections a user has in the registry of the hub. -/
abbrev connectionsOf (s : Site β) (user : Uuid) : List ConnId := s.hub.registry.connectionsOf user

/-- Whether an operation puts a connection into the registry under a user. -/
def Brings (s : Site β) (user : Uuid) (id : ConnId) : Op β → Prop
  | .roster (.register _ other) =>
    s.hub.stopped = false ∧ s.owner other = some user ∧ id = other
  | _ => False

/-- Whether an operation takes a connection of a user out of the registry. -/
def Takes (s : Site β) (user : Uuid) (id : ConnId) : Op β → Prop
  | .roster (.unregister other) =>
    s.hub.stopped = false ∧ s.owner other = some user ∧ id = other
  | .ending .evictAll => True
  | _ => False

/-- All that an operation does to a user's connections in the registry. -/
theorem mem_act (sound : s.hub.registry.Sound known) (op : Op β) (user : Uuid) (id : ConnId) :
    id ∈ (s.act op).connectionsOf user ↔
      id ∈ s.connectionsOf user ∧ ¬s.Takes user id op ∨ s.Brings user id op := by
  cases op with
  | send x =>
    have same := (send_delivers sound x).alike.connectionsOf user
    simp [connectionsOf, act, same, Takes, Brings]
  | roster x =>
    cases x with
    | register now other =>
      cases found : s.queues.get? other with
      | none => simp [act, changeRoster, found, Takes, Brings, owner]
      | some c =>
        have came := mem_register s now c.user user other id
        simp only [connectionsOf, act, changeRoster, found, came, Takes, Brings, owner,
          Option.map_some, Option.some.injEq, not_false_eq_true, and_true, eq_comm]
    | unregister other =>
      cases found : s.queues.get? other with
      | none => simp [act, changeRoster, found, Takes, Brings, owner]
      | some c =>
        have went := mem_unregister sound.usersOnce c.user user other id
        simp only [connectionsOf, act, changeRoster, found, went, Takes, Brings, owner,
          Option.map_some, Option.some.injEq, or_false, eq_comm]
    | listen room listener =>
      simp [connectionsOf, Registry.connectionsOf, act, changeRoster, Site.listen, Takes, Brings]
    | unlisten room listener =>
      simp [connectionsOf, Registry.connectionsOf, act, changeRoster, Site.unlisten,
        Registry.unlisten, Takes, Brings]
    | refresh now => simp [connectionsOf, act, changeRoster, refresh_hub, Takes, Brings]
  | client other a => simp [connectionsOf, act, Takes, Brings]
  | ending x =>
    cases x with
    | stopRelay => simp [connectionsOf, act, wind, Site.stopRelay, Takes, Brings]
    | closeAll => simp [connectionsOf, act, wind, Site.closeAll, Takes, Brings]
    | evictAll =>
      simp [connectionsOf, act, wind, evictAll_hub, Registry.connectionsOf, Hub.evicted_users,
        Takes, Brings]
  | turnBus b => simp [connectionsOf, act, Takes, Brings]

/-! ## What stays of the hub -/

theorem changeRoster_fixed (s : Site β) (x : RosterChange) :
    s.hub.Fixed (s.changeRoster x).hub := by
  cases x with
  | register now id =>
    simp only [changeRoster]
    cases s.queues.get? id with
    | none => exact .refl _
    | some c => exact register_fixed s now c.user id
  | unregister id =>
    simp only [changeRoster]
    cases s.queues.get? id with
    | none => exact .refl _
    | some c => exact unregister_fixed s c.user id
  | listen room user => exact ⟨rfl, rfl, rfl, Registry.listen_dropped .., rfl⟩
  | unlisten room user => exact ⟨rfl, rfl, rfl, rfl, rfl⟩
  | refresh now => exact (refresh_hub s now).symm ▸ .refl _

private theorem wind_config (s : Site β) (x : Ending) : (s.wind x).hub.config = s.hub.config := by
  cases x with
  | stopRelay => rfl
  | closeAll => rfl
  | evictAll => rw [wind, evictAll_hub]; exact Hub.evicted_config ..

private theorem wind_dropped (s : Site β) (x : Ending) :
    (s.wind x).hub.registry.dropped = s.hub.registry.dropped := by
  cases x with
  | stopRelay => rfl
  | closeAll => rfl
  | evictAll => rw [wind, evictAll_hub]; exact Hub.evicted_dropped ..

/-- No operation changes the configuration of its hub. -/
theorem act_config (sound : s.hub.registry.Sound known) (op : Op β) :
    (s.act op).hub.config = s.hub.config := by
  cases op with
  | send x => exact (send_delivers sound x).alike.config
  | roster x => exact (changeRoster_fixed s x).config
  | client id a => rfl
  | ending x => exact wind_config s x
  | turnBus b => rfl

/-- No operation changes how long the hub's marks last. -/
theorem act_lease (sound : s.hub.registry.Sound known) (op : Op β) :
    (s.act op).hub.presence.lease = s.hub.presence.lease := by
  cases op with
  | send x => rw [act, (send_delivers sound x).alike.presence]
  | roster x => exact (changeRoster_fixed s x).lease
  | client id a => rfl
  | ending x =>
    cases x with
    | stopRelay => rfl
    | closeAll => rfl
    | evictAll => rw [act, wind, evictAll_hub]; exact Hub.evicted_lease ..
  | turnBus b => rfl

/-- Only a part of the hub's end stops it or its relay. -/
theorem act_flags (sound : s.hub.registry.Sound known) (op : Op β)
    (goesOn : ∀ x, op ≠ .ending x) :
    (s.act op).hub.subscribed = s.hub.subscribed ∧ (s.act op).hub.stopped = s.hub.stopped := by
  cases op with
  | send x =>
    have alike := (send_delivers sound x).alike
    exact ⟨alike.subscribed, alike.stopped⟩
  | roster x =>
    have fixed := changeRoster_fixed s x
    exact ⟨fixed.subscribed, fixed.stopped⟩
  | client id a => exact ⟨rfl, rfl⟩
  | ending x => exact absurd rfl (goesOn x)
  | turnBus b => exact ⟨rfl, rfl⟩

/-- An operation counts the pushes it made that found a queue full, and no others. -/
theorem act_dropped (sound : s.hub.registry.Sound known) (op : Op β) :
    (s.act op).hub.registry.dropped = s.hub.registry.dropped + (s.pushes op).count .full := by
  cases op with
  | send x => exact (send_delivers sound x).drops
  | roster x => exact (changeRoster_fixed s x).dropped
  | client id a => rfl
  | ending x => exact wind_dropped s x
  | turnBus b => rfl

end Site

end RoomRelay
