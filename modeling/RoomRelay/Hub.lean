import RoomRelay.Config
import RoomRelay.Meters
import RoomRelay.Presence
import RoomRelay.RateWindow
import RoomRelay.Registry

/-!
A hub: its registry, its part of presence, its rate limits and its counts, and whether its relay
listens to the shared bus. A `Site` is a hub in its surroundings, the queues of the connections
and the bus, which other hubs see too.
-/

namespace RoomRelay

/-- A hub with what it holds itself: its registry, its presence tracker and its three limiters. -/
structure Hub where
  config : Config
  registry : Registry := {}
  presence : Presence
  /-- Whether messages of the bus reach this hub. -/
  subscribed : Bool := false
  messageLimiter : RateWindow
  syncLimiter : RateWindow
  readLimiter : RateWindow
  meters : Meters := {}
  /-- Whether the hub has stopped and takes no more connections. -/
  stopped : Bool := false

namespace Hub

def start (config : Config) (now : Nat) : Hub :=
  let limiter (limit secs : Nat) : RateWindow :=
    .start limit (Duration.ofSeconds secs).nanos now
  { config,
    presence := { instanceId := config.instanceId, lease := config.presenceTtl },
    messageLimiter := limiter config.messageRateLimit config.messageRateWindowSecs,
    syncLimiter := limiter config.notificationSyncLimit config.notificationSyncWindowSecs,
    readLimiter := limiter config.notificationReadLimit config.notificationReadWindowSecs }

/-- The name of the hub among others. -/
def instanceId (h : Hub) : Uuid := h.config.instanceId

end Hub

/-- The queues of connections. -/
abbrev Queues := Table ConnId Connection

/-- A hub with the queues and the bus it works on. -/
structure Site (β : Type) where
  hub : Hub
  queues : Queues := []
  bus : Option β

end RoomRelay
