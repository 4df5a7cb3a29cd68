import RoomRelay.Table

/-!
What a hub counts for its operators. Each meter has a name, and a label where one meter counts
several things apart.
-/

namespace RoomRelay

/-- The three kinds of traffic on the bus. -/
inductive Traffic where
  | room | user | presence
deriving DecidableEq

/-- The value of a kind of traffic under the label `channel`. -/
def Traffic.label : Traffic → String
  | room => "room"
  | user => "user"
  | presence => "presence"

/-- The counts of a hub. -/
structure Meters where
  /-- Texts dropped on full queues. -/
  droppedEvents : Nat := 0
  /-- Connections registered less those removed. -/
  activeConnections : Int := 0
  publishFailures : Table Traffic Nat := []
  received : Table Traffic Nat := []
  /-- Commands refused by a rate limit, by their names. -/
  rateLimited : Table String Nat := []

namespace Meters

/-- One more under a label. -/
def bump {κ : Type} [DecidableEq κ] (k : κ) (t : Table κ Nat) : Table κ Nat :=
  t.set k ((t.get? k).getD 0 + 1)

/-- One more under `BUS_PUBLISH_FAILURES`. -/
def publishFailed (m : Meters) (t : Traffic) : Meters :=
  { m with publishFailures := bump t m.publishFailures }

/-- One more under `BUS_EVENTS_RECEIVED`. -/
def messageReceived (m : Meters) (t : Traffic) : Meters :=
  { m with received := bump t m.received }

/-- One more under `RATE_LIMITED_COMMANDS`. -/
def commandLimited (m : Meters) (name : String) : Meters :=
  { m with rateLimited := bump name m.rateLimited }

/-- The readings by meter and label. -/
def readings (m : Meters) : List (String × Int) :=
  let labelled (name label : String) (n : Nat) : String × Int :=
    (name ++ "\x7b" ++ label ++ "\x7d", n)
  [("chat_hub_dropped_events_total", (m.droppedEvents : Int)),
    ("chat_hub_active_connections", m.activeConnections)] ++
  m.publishFailures.map (fun e => labelled "chat_hub_bus_publish_failures_total" e.1.label e.2) ++
  m.received.map (fun e => labelled "chat_hub_bus_events_received_total" e.1.label e.2) ++
  m.rateLimited.map (fun e => labelled "chat_hub_rate_limited_commands_total" e.1 e.2)

end Meters

end RoomRelay
