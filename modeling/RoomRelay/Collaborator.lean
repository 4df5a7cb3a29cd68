import RoomRelay.Failure
import RoomRelay.Notification

/-!
The services a hub asks: who is a member of which room, and what notifications a user has. A
hub keeps none of this itself; it puts a call, waits for the answer under a deadline and passes
on what it is told.
-/

namespace RoomRelay

/-- A question to the services: the functions of `RoomDirectory`, `NotificationQuery` and
`NotificationWriter`. -/
inductive Call where
  | roomsOf (user : Uuid)
  /-- Records that a user has read a room up to now; the answer is the instant recorded. -/
  | markRoomRead (room user : Uuid)
  | notifications (user : Uuid) (limit offset : Int) (unreadOnly : Bool)
  | unreadCount (user : Uuid)
  | markRead (user notification : Uuid)
  /-- Marks all of a user's notifications as read; the answer is how many were not. -/
  | markAllRead (user : Uuid)
deriving DecidableEq

/-- What a question is answered with. -/
abbrev Call.Reply : Call → Type
  | roomsOf _ => List Uuid
  | markRoomRead .. => Timestamp
  | notifications .. => List Notification
  | unreadCount _ => Int
  | markRead .. => Unit
  | markAllRead _ => Nat

abbrev Call.Outcome (c : Call) : Type := Except Failure c.Reply

end RoomRelay
