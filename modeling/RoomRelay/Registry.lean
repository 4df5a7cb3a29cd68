import RoomRelay.Connection
import RoomRelay.Table

/-!
Who is connected to a hub, and who listens to which room there. A user stands in the registry as
long as one of its connections does, and a room as long as a user listens to it.
-/

namespace RoomRelay

/-- The connections and rooms of a hub: `RegistryInner`. -/
structure Registry where
  /-- For each connected user its connections. -/
  users : Table Uuid (List ConnId) := []
  /-- For each room its listeners. -/
  rooms : Table Uuid (List Uuid) := []
  /-- How many texts were dropped on full queues. -/
  dropped : Nat := 0

namespace Registry

def connectionsOf (r : Registry) (user : Uuid) : List ConnId :=
  (r.users.get? user).getD []

/-- The users who listen to a room: `room_subscribers`. -/
def listeners (r : Registry) (room : Uuid) : List Uuid :=
  (r.rooms.get? room).getD []

/-- The number of a user's connections: `connection_count`. -/
def connectionCount (r : Registry) (user : Uuid) : Nat :=
  (r.connectionsOf user).length

/-- The users with a connection: `connected_users`. -/
def connectedUsers (r : Registry) : List Uuid := r.users.keys

def allConnections (r : Registry) : List ConnId :=
  r.users.flatMap (·.2)

/-- The number of all connections: `total_connections`. -/
def total (r : Registry) : Nat := r.allConnections.length

/-- Whether a user listens to a room: `is_subscribed`. -/
def isListening (r : Registry) (room user : Uuid) : Bool :=
  (r.listeners room).contains user

/-- The connections that a text to a room goes to, as `local_broadcast` gathers them. -/
def recipients (r : Registry) (room : Uuid) : List ConnId :=
  (r.listeners room).flatMap r.connectionsOf

/-- Adds a connection of a user. One that stands there already stays once. -/
def addConnection (r : Registry) (user : Uuid) (id : ConnId) : Registry :=
  let ids := r.connectionsOf user
  if ids.contains id then r else { r with users := r.users.set user (ids ++ [id]) }

/-- Removes a connection of a user, and the user with the last one. -/
def removeConnection (r : Registry) (user : Uuid) (id : ConnId) : Registry :=
  let ids := (r.connectionsOf user).filter (· ≠ id)
  { r with users := if ids.isEmpty then r.users.erase user else r.users.set user ids }

/-- A user listens to a room: `subscribe_room`. -/
def listen (r : Registry) (room user : Uuid) : Registry :=
  let users := r.listeners room
  if users.contains user then r else { r with rooms := r.rooms.set room (users ++ [user]) }

/-- A user no longer listens to a room, which goes with its last listener: `unsubscribe_room`. -/
def unlisten (r : Registry) (room user : Uuid) : Registry :=
  let users := (r.listeners room).filter (· ≠ user)
  { r with rooms := if users.isEmpty then r.rooms.erase room else r.rooms.set room users }

def roomsOf (r : Registry) (user : Uuid) : List Uuid :=
  (r.rooms.filter fun e => e.2.contains user).map (·.1)

/-- A user no longer listens to any room: `leave_all_rooms`. -/
def leaveAll (r : Registry) (user : Uuid) : Registry :=
  { r with
    rooms := (r.rooms.map fun e => (e.1, e.2.filter (· ≠ user))).filter (¬·.2.isEmpty) }

end Registry

end RoomRelay
