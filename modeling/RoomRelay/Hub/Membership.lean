import RoomRelay.Hub

/-!
Coming and going on one hub. A user's first connection marks it online and its last marks it
offline and takes it out of every room; a hub that stops closes its connections and, when time is
up, removes those that did not go by themselves.
-/

namespace RoomRelay.Site

variable {β : Type} [SharedBus β]

/-- Closes the queues of connections. -/
def closeQueues (q : Queues) (ids : List ConnId) : Queues :=
  ids.foldl (fun q id => q.modify id Connection.close) q

/-- A hub that has counted connections coming or going under `ACTIVE_CONNECTIONS`. -/
def countConnections (h : Hub) (n : Int) : Hub :=
  { h with meters := { h.meters with activeConnections := h.meters.activeConnections + n } }

/-- The hub's tracker marks a user online on the hub's bus. -/
def markOnline (s : Site β) (now : Nat) (user : Uuid) : Site β :=
  let (presence, bus) := s.hub.presence.markOnline s.bus now user
  { s with hub := { s.hub with presence }, bus }

/-- The hub's tracker marks a user offline on the hub's bus. -/
def markOffline (s : Site β) (user : Uuid) : Site β :=
  let (presence, bus) := s.hub.presence.markOffline s.bus user
  { s with hub := { s.hub with presence }, bus }

/-- Adds a connection; the answer is whether it is its user's first here. This is `handle_command`
on a `Register`, refused once the actor has ended. -/
def register (s : Site β) (now : Nat) (user : Uuid) (id : ConnId) :
    Site β × Except Failure Bool :=
  if s.hub.stopped then (s, .error .shuttingDown)
  else
    let registry := s.hub.registry.addConnection user id
    let first := registry.connectionCount user == 1
    let s := { s with hub := countConnections { s.hub with registry } 1 }
    (if first then s.markOnline now user else s, .ok first)

/-- Removes a connection and closes it: `handle_command` on an `Unregister`. When it was its user's
last here, the answer is the rooms the user listened to. -/
def unregister (s : Site β) (user : Uuid) (id : ConnId) : Site β × Except Failure (List Uuid) :=
  if s.hub.stopped then (s, .error .shuttingDown)
  else
    let queues := closeQueues s.queues [id]
    if (s.hub.registry.connectionsOf user).contains id then
      let registry := s.hub.registry.removeConnection user id
      let s := { s with hub := countConnections { s.hub with registry } (-1), queues }
      if registry.connectionCount user = 0 then
        let left := registry.roomsOf user
        let s := { s with hub := { s.hub with registry := registry.leaveAll user } }
        (s.markOffline user, .ok left)
      else (s, .ok [])
    else ({ s with queues }, .ok [])

/-- A user listens to a room on this hub: `subscribe_room`. -/
def listen (s : Site β) (room user : Uuid) : Site β :=
  { s with hub := { s.hub with registry := s.hub.registry.listen room user } }

/-- A user no longer listens to a room on this hub: `unsubscribe_room`. -/
def unlisten (s : Site β) (room user : Uuid) : Site β :=
  { s with hub := { s.hub with registry := s.hub.registry.unlisten room user } }

/-- Closes every connection; they leave by themselves. The answer is how many there were:
`close_all`. -/
def closeAll (s : Site β) : Site β × Nat :=
  let ids := s.hub.registry.allConnections
  ({ s with queues := closeQueues s.queues ids }, ids.length)

/-- Adds the connected users to the shared set again: one turn of `run_actor` when a renewal is
due. -/
def refresh (s : Site β) (now : Nat) : Site β :=
  let users := s.hub.registry.connectedUsers
  if users.isEmpty then s else { s with bus := s.hub.presence.refresh s.bus now users }

/-- The relay stops for good. -/
def stopRelay (s : Site β) : Site β :=
  { s with hub := { s.hub with subscribed := false } }

/-- Removes one user with its connections, as `evict_remaining` does with each. -/
def evictUser (s : Site β) (user : Uuid) (ids : List ConnId) : Site β :=
  let hub := countConnections s.hub (-ids.length)
  let s := { s with
    queues := closeQueues s.queues ids,
    hub := { hub with registry := hub.registry.leaveAll user } }
  s.markOffline user

/-- Removes the users that are still connected, and takes no more connections: `evict_remaining`,
with which `run_actor` ends. -/
def evictAll (s : Site β) : Site β :=
  let leftover := s.hub.registry.users
  let s := { s with hub := { s.hub with registry := { s.hub.registry with users := [] } } }
  let s := leftover.foldl (fun s e => s.evictUser e.1 e.2) s
  { s with hub := { s.hub with stopped := true } }

/-- Whether a user is online on any hub. -/
def isOnline (s : Site β) (now : Nat) (user : Uuid) : Site β × Bool :=
  let (bus, online) := s.hub.presence.isOnline s.bus now user
  ({ s with bus }, online)

/-- The users among the given that are online on any hub. -/
def onlineAmong (s : Site β) (now : Nat) (users : List Uuid) : Site β × List Uuid :=
  let (bus, online) := s.hub.presence.onlineAmong s.bus now users
  ({ s with bus }, online)

end RoomRelay.Site
