import RoomRelay.Collaborator
import RoomRelay.Table

/-!
The services kept in one process: memberships, read marks and notifications. For trials the
store can be set to fail every call, and to take its time before each.
-/

namespace RoomRelay

/-- A user has read a room up to an instant: an entry of `read_marks`. -/
structure ReadMark where
  room : Uuid
  user : Uuid
  readAt : Timestamp
deriving DecidableEq

/-- The services kept in one process: `InMemoryCollaborators`. -/
structure Store where
  rooms : Table Uuid (List Uuid) := []
  /-- The read marks in the order they were made. -/
  readMarks : List ReadMark := []
  /-- The notifications of each user in the order they were pushed. -/
  lists : Table Uuid (List Notification) := []
  failing : Bool := false
  /-- How long each call takes. -/
  delay : Option Duration := none

namespace Store

/-- The rooms a user is a member of: `list_rooms_for_user`. -/
def roomsOf (s : Store) (user : Uuid) : List Uuid :=
  (s.rooms.get? user).getD []

def listOf (s : Store) (user : Uuid) : List Notification :=
  (s.lists.get? user).getD []

/-- A user becomes a member of a room: `add_member`. -/
def addMember (s : Store) (room user : Uuid) : Store :=
  let rooms := s.roomsOf user
  if rooms.contains room then s
  else { s with rooms := s.rooms.set user (rooms ++ [room]) }

/-- A user is no member of a room any more: `remove_member`. -/
def removeMember (s : Store) (room user : Uuid) : Store :=
  { s with rooms := s.rooms.modify user (List.filter (· ≠ room)) }

/-- A notification comes in for a user: `push_notification`. -/
def push (s : Store) (user : Uuid) (n : Notification) : Store :=
  { s with lists := s.lists.set user (s.listOf user ++ [n]) }

/-- An unread notification with a title. -/
def entry (id : Uuid) (kind title : String) (createdAt : Timestamp) : Notification :=
  { id, kind, title := some title, createdAt }

/-- The number of a user's unread notifications: `count_unread`. -/
def unreadCount (s : Store) (user : Uuid) : Nat :=
  ((s.listOf user).filter (¬·.isRead)).length

/-- A user's notifications, newest first, those of one instant in the order they were pushed. -/
def newestFirst (s : Store) (user : Uuid) (unreadOnly : Bool) : List Notification :=
  ((s.listOf user).filter fun n => ¬unreadOnly ∨ ¬n.isRead).mergeSort
    fun a b => b.createdAt.le a.createdAt

/-- A page of a user's notifications: `list`. -/
def page (s : Store) (user : Uuid) (limit offset : Int) (unreadOnly : Bool) :
    List Notification :=
  ((s.newestFirst user unreadOnly).drop offset.toNat).take limit.toNat

/-- A notification marked as read, unless it was before. -/
def marked (now : Timestamp) (n : Notification) : Notification :=
  if n.isRead then n else { n with readAt := some now }

/-- The first notification with an identifier marked as read: `mark_as_read`. -/
def markFirst (now : Timestamp) (id : Uuid) : List Notification → Option (List Notification)
  | [] => none
  | n :: rest =>
    if n.id = id then some (marked now n :: rest)
    else (markFirst now id rest).map (n :: ·)

/-- Every unread notification marked as read, and how many there were: the loop of
`mark_all_read`. -/
def markEach (now : Timestamp) : List Notification → List Notification × Nat
  | [] => ([], 0)
  | n :: rest =>
    let (rest, changed) := markEach now rest
    if n.isRead then (n :: rest, changed)
    else ({ n with readAt := some now } :: rest, changed + 1)

/-- Why a store that is set to fail does so: the failure of `gate`. -/
def failure : Failure := .collaborator "in-memory collaborator failing"

/-- Answers a call at an instant. A store that is set to fail does so at its `gate`, before it looks
at anything. -/
def answer (s : Store) (now : Timestamp) (c : Call) : Store × c.Outcome :=
  if s.failing then (s, .error failure)
  else
    match c with
    | .roomsOf user => (s, .ok (s.roomsOf user))
    | .markRoomRead room user =>
      ({ s with readMarks := s.readMarks ++ [⟨room, user, now⟩] }, .ok now)
    | .notifications user limit offset unreadOnly => (s, .ok (s.page user limit offset unreadOnly))
    | .unreadCount user => (s, .ok (s.unreadCount user : Int))
    | .markRead user id =>
      match markFirst now id (s.listOf user) with
      | some ns => ({ s with lists := s.lists.set user ns }, .ok ())
      | none =>
        (s, .error (.collaborator ("notification " ++ id.text ++ " not found")))
    | .markAllRead user =>
      ({ s with lists := s.lists.modify user fun ns => (markEach now ns).1 },
        .ok (markEach now (s.listOf user)).2)

end Store

end RoomRelay
