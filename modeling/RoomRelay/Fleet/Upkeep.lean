import RoomRelay.Fleet
import RoomRelay.Hub.Relay

/-!
What the hubs of a fleet do by themselves: their relays read the bus, those that lost their
subscription try again after ever longer pauses, and each hub renews the presence of its users
from time to time.
-/

namespace RoomRelay.Fleet

/-- The pause after a first failed attempt to subscribe: `INITIAL_BACKOFF`. -/
def firstPause : Duration := .ofSeconds 1

/-- The longest pause between two attempts: `MAX_BACKOFF`. -/
def longestPause : Duration := .ofSeconds 30

/-- The pause after the next failure. -/
def nextPause (d : Duration) : Duration := ⟨min (2 * d.nanos) longestPause.nanos⟩

def setRelay (f : Fleet) (name : String) (r : RelayState) : Fleet :=
  { f with stations := f.stations.modify name fun s => { s with relay := r } }

/-- A hub learns whether its relay listens. -/
def setSubscribed (f : Fleet) (name : String) (on : Bool) : Fleet :=
  f.change name fun s => { s with hub := { s.hub with subscribed := on } }

/-- A new subscription to what relays listen to. -/
def subscribe (f : Fleet) : Except Failure Subscription :=
  if f.refusing then .error (.busUnavailable "subscription refused")
  else f.bus.subscribe relayFilter

/-- A relay tries to subscribe: `subscribe_all`. -/
def attach (f : Fleet) (name : String) (pause : Duration) : Fleet :=
  match f.subscribe with
  | .ok s => (f.setRelay name (.attached s)).setSubscribed name true
  | .error _ => f.setRelay name (.detached (f.clock + pause.nanos) (nextPause pause))

/-- A relay passes on the messages that are pending. -/
def drain (f : Fleet) (name : String) (s : Subscription) : Fleet :=
  let messages := f.bus.pending s
  let f := f.setRelay name (.attached (f.bus.caughtUp s))
  f.change name fun site => messages.foldl Site.receive site

/-- A relay does what it can at this instant: its part in `run`. -/
def runRelay (f : Fleet) (name : String) : RelayState → Fleet
  | .attached s => f.drain name s
  | .detached nextAttempt pause => if nextAttempt ≤ f.clock then f.attach name pause else f
  | .absent | .stopped => f

/-- The presence of a hub's users is renewed when that is due: the renewals of `run_actor`. -/
def runRefresh (f : Fleet) (name : String) (s : Station) : Fleet :=
  match s.nextRefresh with
  | some due =>
    if due ≤ f.clock then
      let next := f.clock + s.hub.presence.refreshPeriod.nanos
      let f := f.change name (Site.refresh · leaseClock)
      { f with stations := f.stations.modify name fun s => { s with nextRefresh := some next } }
    else f
  | none => f

/-- A hub does what it can at this instant. -/
def runStation (f : Fleet) (name : String) : Fleet :=
  match f.stations.get? name with
  | some s => (f.runRefresh name s).runRelay name s.relay
  | none => f

/-- A relay loses its subscription. It tries again at once. -/
def loseSubscription (f : Fleet) (name : String) : Fleet :=
  match f.stations.get? name with
  | some ⟨_, _, _, .attached _, _⟩ =>
    (f.setRelay name (.detached f.clock firstPause)).setSubscribed name false
  | _ => f

/-- Every subscription ends. -/
def cutSubscriptions (f : Fleet) : Fleet :=
  f.stations.keys.foldl loseSubscription f

/-- Adds a hub. Its relay, if it has a bus, tries to subscribe before anything else. -/
def addHub (f : Fleet) (name store : String) (shared : Bool) (config : Config) : Fleet :=
  let hub := Hub.start config leaseClock
  let station : Station :=
    { hub, shared, store, relay := .absent,
      nextRefresh := some (f.clock + hub.presence.refreshPeriod.nanos) }
  let f := { f with stations := f.stations.set name station }
  if shared then f.attach name firstPause else f

end RoomRelay.Fleet
