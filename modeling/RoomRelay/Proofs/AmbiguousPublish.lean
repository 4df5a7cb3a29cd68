import RoomRelay.Proofs.RedisBus
import RoomRelay.Proofs.RegistryInvariants

/-!
A room's event on a hub whose bus is a Redis server, when it does not become known whether the
server has the event. While the relay listens the event goes to the hub's own clients by way of the
server, and directly when publishing fails; but publishing fails for the hub also when the server
relays the event and only the reply is late. Then it goes both ways.
-/

namespace RoomRelay

open Redis (Link)

/-- The connection after several pushes of one text. -/
def Connection.pushTimes (c : Connection) (payload : String) : Nat → Connection
  | 0 => c
  | n + 1 => (c.push payload).1.pushTimes payload n

/-- How often the hub that publishes an event pushes it to its own clients, by what becomes of the
exchange with the server. -/
def Redis.Exchange.copies : Exchange → Nat
  | .answered | .broken _ => 1
  | .unanswered => 2

namespace Site

variable {s : Site Link} {l : Link} {known : ConnId → Option Uuid}

/-- The hub once it has handled what the server relays of what was published since `before`. -/
def handleSince (s before : Site Link) : Site Link :=
  ((s.heard.drop before.heard.length).filter fun m => relayFilter.accepts m.channel).foldl receive s

/-- The hub once it has broadcast an event and handled what the server relays of it. -/
def broadcastAndHandle (s : Site Link) (room : Uuid) (e : Event) : Site Link :=
  (s.broadcast room e).1.handleSince s

/-- Relays ask for the messages of every room. -/
theorem accepts_roomMessage (room : Uuid) (payload : String) :
    relayFilter.accepts (roomMessage room payload).channel = true := by
  by_contra refused
  have nothing := bulletin_of_refused (Bool.eq_false_iff.mpr refused)
  rw [bulletin_roomMessage] at nothing
  cases nothing

/-- The server relays the event unless it was not reached. -/
private theorem relayed_of_publish (l : Link) (m : BusMessage) :
    (SharedBus.publish l m).1.server.history =
      l.server.history ++ match l.exchange with
        | .answered | .unanswered => [m]
        | .broken _ => [] := by
  cases exchange : l.exchange <;>
    simp [SharedBus.publish, Link.publish, Link.send, exchange, Redis.Server.history,
      Redis.Server.executeAll, Redis.Server.execute]

/-- Publishing succeeds for the hub only when it is answered. -/
private theorem publish_isOk (l : Link) (m : BusMessage) :
    (SharedBus.publish l m).2.isOk = true ↔ l.exchange = .answered := by
  cases exchange : l.exchange <;>
    simp [SharedBus.publish, Link.publish, Link.send, exchange, Except.isOk, Except.toBool]

/-- What the hub handles after a broadcast: the event, unless the server was not reached. -/
private theorem broadcastAndHandle_eq (on : s.bus = some l) (room : Uuid) (e : Event) :
    s.broadcastAndHandle room e =
      match l.exchange with
      | .answered | .unanswered => (s.broadcast room e).1.receive (roomMessage room e.render)
      | .broken _ => (s.broadcast room e).1 := by
  have bus := broadcast_bus s room e
  have relayed := relayed_of_publish l (roomMessage room e.render)
  rw [on, Option.map_some] at bus
  have new : (s.broadcast room e).1.heard.drop s.heard.length =
      match l.exchange with
      | .answered | .unanswered => [roomMessage room e.render]
      | .broken _ => [] := by
    simp only [heard, bus, on, Option.map_some, Option.getD_some]
    exact (congrArg (List.drop l.server.history.length) relayed).trans List.drop_left
  rw [broadcastAndHandle, handleSince, new]
  cases l.exchange with
  | answered => simp [accepts_roomMessage]
  | unanswered => simp [accepts_roomMessage]
  | broken detail => rfl

/-- While the relay listens, a broadcast is delivered at once exactly when it is not answered. -/
private theorem broadcastFanOut_listening (on : s.bus = some l)
    (listening : s.hub.subscribed = true)
    (room : Uuid) (e : Event) :
    s.broadcastFanOut room e =
      match l.exchange with
      | .answered => .none
      | .unanswered | .broken _ => ⟨e.render, s.hub.registry.recipients room⟩ := by
  have ok := publish_isOk l (roomMessage room e.render)
  unfold broadcastFanOut deliversOnsite
  simp only [on, listening, Bool.not_true, Bool.false_or]
  cases exchange : l.exchange with
  | answered => simp [ok.mpr exchange]
  | unanswered => simp [Bool.eq_false_iff.mpr (mt ok.mp (by simp [exchange]))]
  | broken detail => simp [Bool.eq_false_iff.mpr (mt ok.mp (by simp [exchange]))]

/-- A broadcast on a hub whose relay listens, once the hub has handled what the server relays of it,
was pushed to each connection in the room as often as the exchange with the server says, and to no
other: twice when the server has the event and the hub does not learn it, and once otherwise. -/
theorem broadcast_pushed_once_unless_unanswered (s : Site Link) (l : Link)
    (sound : s.hub.registry.Sound known) (on : s.bus = some l) (listening : s.hub.subscribed = true)
    (room : Uuid) (e : Event) :
    (∀ id, (s.broadcastAndHandle room e).queues.get? id = (s.queues.get? id).map fun c =>
      c.pushTimes e.render
        (if id ∈ s.hub.registry.recipients room then l.exchange.copies else 0)) ∧
    (l.exchange.copies ≤ 1 ↔ l.exchange ≠ .unanswered) := by
  refine ⟨fun id => ?_, ?_⟩
  · have delivered := broadcast_delivers sound room e
    have again := receive_delivers (delivered.alike.sound sound) (roomMessage room e.render)
    rw [messageFanOut_room, delivered.alike.recipients room] at again
    have first := delivered.queue id
    have second := again.queue id
    rw [broadcastFanOut_listening on listening] at first
    rw [broadcastAndHandle_eq on]
    by_cases target : id ∈ s.hub.registry.recipients room
    · simp only [if_pos target] at second ⊢
      cases exchange : l.exchange with
      | answered =>
        simp only [exchange, FanOut.none, List.not_mem_nil, if_false] at first
        rw [second, first]
        rfl
      | unanswered =>
        simp only [exchange, if_pos target] at first
        rw [second, first, Option.map_map]
        rfl
      | broken detail =>
        simp only [exchange, if_pos target] at first
        exact first
    · simp only [if_neg target, Connection.pushTimes, Option.map_id'] at second ⊢
      have untouched : (s.broadcast room e).1.queues.get? id = s.queues.get? id := by
        rw [first]
        cases l.exchange <;> simp [FanOut.none, target]
      cases l.exchange with
      | answered => exact second.trans untouched
      | unanswered => exact second.trans untouched
      | broken detail => exact untouched
  · cases l.exchange <;> simp [Redis.Exchange.copies]

/-- A hub whose relay listens to a server, and a connection of a client. -/
def linkedHub : Site Link :=
  let started := fresh (.trial ⟨1⟩) 0 [(⟨0⟩, { user := ⟨7⟩, capacity := 16 })] (some {})
  { started with hub := { started.hub with subscribed := true } }

/-- A link on which the next reply comes too late. -/
def lateLink : Link := { exchange := .unanswered }

/-- The hub of `linkedHub` once the client came and listens to a room, when replies come too
late. -/
def lateHub : Site Link :=
  linkedHub.run [.roster (.register 0 ⟨0⟩), .roster (.listen ⟨5⟩ ⟨7⟩), .turnBus lateLink]

/-- The client gets two pushes of one event. -/
theorem lateHub_pushes_twice :
    lateHub.hub.registry.Sound lateHub.owner ∧ lateHub.bus = some lateLink ∧
      lateHub.hub.subscribed = true ∧
      (lateHub.broadcastAndHandle ⟨5⟩ (.online ⟨7⟩)).queues.get? ⟨0⟩ =
        (lateHub.queues.get? ⟨0⟩).map fun c => c.pushTimes (Event.online ⟨7⟩).render 2 := by
  have sound : lateHub.hub.registry.Sound lateHub.owner :=
    run_sound (s := linkedHub) (Registry.sound_empty _) _
  have on : lateHub.bus = some lateLink := rfl
  have listening : lateHub.hub.subscribed = true := rfl
  have pushes := (broadcast_pushed_once_unless_unanswered lateHub lateLink sound on listening ⟨5⟩
    (.online ⟨7⟩)).1 ⟨0⟩
  have target : ⟨0⟩ ∈ lateHub.hub.registry.recipients ⟨5⟩ := by decide
  rw [if_pos target] at pushes
  exact ⟨sound, on, listening, pushes⟩

/-- Not every event is pushed at most once: two copies of one event wait for a client. -/
theorem event_waits_twice :
    ((lateHub.broadcastAndHandle ⟨5⟩ (.online ⟨7⟩)).queues.get? ⟨0⟩).map (·.pending) =
      some [(Event.online ⟨7⟩).render, (Event.online ⟨7⟩).render] := by
  decide +kernel

end Site

end RoomRelay
