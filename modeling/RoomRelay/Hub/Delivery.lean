import RoomRelay.Hub

/-!
Delivery on one hub: a text is pushed into the queues of a room's listeners, of one user, or of
one connection, and every text that finds a queue full is counted.
-/

namespace RoomRelay

/-- The result of one fan-out. -/
structure DeliveryStats where
  delivered : Nat := 0
  dropped : Nat := 0
deriving DecidableEq

/-- The result with one more push. -/
def DeliveryStats.count (d : DeliveryStats) : PushOutcome → DeliveryStats
  | .queued => { d with delivered := d.delivered + 1 }
  | .full => { d with dropped := d.dropped + 1 }
  | .closed => d

/-- A hub that has counted one more push, as `push_counted` does. -/
def Hub.countPush (h : Hub) : PushOutcome → Hub
  | .full =>
    { h with
      registry := { h.registry with dropped := h.registry.dropped + 1 },
      meters := { h.meters with droppedEvents := h.meters.droppedEvents + 1 } }
  | _ => h

namespace Site

variable {β : Type}

/-- Pushes a text to one connection: `send_to_connection`. A connection that is not there counts as
closed. -/
def pushTo (s : Site β) (id : ConnId) (payload : String) : Site β × PushOutcome :=
  match s.queues.get? id with
  | some c =>
    let (c, outcome) := c.push payload
    ({ s with queues := s.queues.set id c, hub := s.hub.countPush outcome }, outcome)
  | none => (s, .closed)

/-- Pushes a text to several connections, each by `push_counted`. -/
def pushAll (s : Site β) (payload : String) (stats : DeliveryStats) :
    List ConnId → Site β × DeliveryStats
  | [] => (s, stats)
  | id :: rest =>
    let (s, outcome) := s.pushTo id payload
    s.pushAll payload (stats.count outcome) rest

/-- Pushes a text to the connections of a room's listeners: `local_broadcast`. -/
def localBroadcast (s : Site β) (room : Uuid) (payload : String) : Site β × DeliveryStats :=
  s.pushAll payload {} (s.hub.registry.recipients room)

/-- Pushes a text to the connections of a user: `deliver_to_user`. -/
def deliverToUser (s : Site β) (user : Uuid) (payload : String) : Site β × DeliveryStats :=
  s.pushAll payload {} (s.hub.registry.connectionsOf user)

end Site

end RoomRelay
