import RoomRelay.Command
import RoomRelay.Hub.Membership
import RoomRelay.Hub.Relay
import RoomRelay.Procedure

/-!
What a hub does for a client: the texts it sends are taken as commands, each under the rate limit
of its class, and a client that comes gets its rooms and its first page of notifications. What
goes wrong with a command is told to the client that sent it, by one error event, and ends
nothing.
-/

namespace RoomRelay

/-- The three rate limits that commands are under. -/
inductive Budget where
  | messages | sync | reads
deriving DecidableEq

namespace Budget

/-- The limiter of a hub: `message_limiter`, `sync_limiter` and `read_limiter`. -/
def limiter (h : Hub) : Budget → RateWindow
  | messages => h.messageLimiter
  | sync => h.syncLimiter
  | reads => h.readLimiter

def setLimiter (h : Hub) (r : RateWindow) : Budget → Hub
  | messages => { h with messageLimiter := r }
  | sync => { h with syncLimiter := r }
  | reads => { h with readLimiter := r }

/-- The code that tells a client it is over the limit. -/
def code : Budget → ErrorCode
  | messages => .rateLimited
  | sync | reads => .notificationRateLimited

end Budget

/-- The budget a command is charged to. A type that is not known is free. -/
def Command.budget? : Command → Option Budget
  | typing .. | read .. => some .messages
  | notificationSync .. => some .sync
  | notificationRead .. | notificationReadAll => some .reads
  | unknown _ => none

namespace Site

variable {β : Type} [SharedBus β]

/-- What a command came to. -/
abbrev CommandResult := Except ErrorCode Unit

/-- Pushes an event to one connection. -/
def reply (s : Site β) (id : ConnId) (e : Event) : Site β :=
  (s.pushTo id e.render).1

/-- Tells one connection that its command failed: `reply_error`. -/
def replyError (s : Site β) (id : ConnId) (code : ErrorCode) : Site β :=
  s.reply id (.error code.name)

/-- Charges a command of a user to its budget: whether it is within it. This is `check`, which
counts the commands that are not. -/
def charge (s : Site β) (now : Nat) (user : Uuid) (name : String) (b : Budget) : Site β × Bool :=
  let (r, allowed) := (b.limiter s.hub).allow user.text now
  let hub := b.setLimiter s.hub r
  let hub := if allowed then hub else { hub with meters := hub.meters.commandLimited name }
  ({ s with hub }, allowed)

/-- A page of notifications for one connection, with the number of unread ones: `send_sync`. Both
questions are out at once, and the failure of either is the command's. -/
def sendSync (s : Site β) (user : Uuid) (id : ConnId) (p : SyncParams) :
    Procedure (Site β) CommandResult :=
  .askBoth s (.unreadCount user) (.notifications user p.limit p.offset p.unreadOnly)
    fun s unread items =>
      match unread, items with
      | .ok unread, .ok items =>
        .done (s.reply id (.notificationSync unread items p.limit p.offset)) (.ok ())
      | _, _ => .done s (.error .internalError)

/-- Tells all of a user's connections how many notifications are unread now. -/
def sendUnread (s : Site β) (user : Uuid) (event : Int → Event) :
    Procedure (Site β) CommandResult :=
  .ask s (.unreadCount user) fun s unread =>
    match unread with
    | .ok unread => .done (s.sendToUser user (event unread)).1 (.ok ())
    | .error _ => .done s (.error .internalError)

/-- Carries out a command that is within its budget: what `execute` does behind its `check`. -/
def perform (s : Site β) (user : Uuid) (id : ConnId) :
    Command → Procedure (Site β) CommandResult
  | .typing room isTyping =>
    if s.hub.registry.isListening room user then
      .done (s.broadcast room (.typing room user isTyping)).1 (.ok ())
    else .done s (.error .notSubscribed)
  | .read room =>
    if s.hub.registry.isListening room user then
      .ask s (.markRoomRead room user) fun s readAt =>
        match readAt with
        | .ok readAt => .done (s.broadcast room (.read room user readAt)).1 (.ok ())
        | .error _ => .done s (.error .internalError)
    else .done s (.error .notSubscribed)
  | .notificationSync params => s.sendSync user id params
  | .notificationRead notification =>
    .ask s (.markRead user notification) fun s marked =>
      match marked with
      | .ok () => s.sendUnread user fun unread => .notificationRead unread [notification]
      | .error _ => .done s (.error .internalError)
  | .notificationReadAll =>
    .ask s (.markAllRead user) fun s marked =>
      match marked with
      | .ok _ => s.sendUnread user .notificationReadAll
      | .error _ => .done s (.error .internalError)
  | .unknown _ => .done s (.ok ())

/-- Charges a command, which `check` may refuse, and carries it out. -/
def execute (s : Site β) (now : Nat) (user : Uuid) (id : ConnId) (c : Command) :
    Procedure (Site β) CommandResult :=
  match c.budget? with
  | none => s.perform user id c
  | some b =>
    match s.charge now user c.name b with
    | (s, true) => s.perform user id c
    | (s, false) => .done s (.error b.code)

/-- Tells the connection of a failure, if there was one. -/
def conclude (id : ConnId) (s : Site β) : CommandResult → Procedure (Site β) Unit
  | .ok () => .done s ()
  | .error code => .done (s.replyError id code) ()

/-- Handles one text that a client sent: `handle_text`. -/
def handleText (s : Site β) (now : Nat) (user : Uuid) (id : ConnId) (text : String) :
    Procedure (Site β) Unit :=
  match Command.parse text with
  | .ok c => (s.execute now user id c).andThen (conclude id)
  | .error code => .done (s.replyError id code) ()

/-- Receives a client, as `serve_connection` does before it reads: the connection is registered, its
user listens to the rooms it is a member of, these are told when it was not connected before, and
the connection gets its first page of notifications. A failed look-up of rooms leaves it with
none. -/
def welcome (s : Site β) (now : Nat) (user : Uuid) (id : ConnId) :
    Procedure (Site β) (Except Failure Unit) :=
  match s.register now user id with
  | (s, .error f) => .done s (.error f)
  | (s, .ok first) =>
    .ask s (.roomsOf user) fun s answer =>
      let rooms := answer.toOption.getD []
      let s := rooms.foldl (fun s room => s.listen room user) s
      let s := if first then s.announcePresence user rooms true else s
      ((s.sendSync user id {}).andThen (conclude id)).map .ok

/-- Lets a client go, as `serve_connection` does at its end: the connection is removed, and the
rooms its user listened to are told when it was the last. -/
def depart (s : Site β) (user : Uuid) (id : ConnId) : Site β :=
  match s.unregister user id with
  | (s, .ok left) => s.announcePresence user left false
  | (s, .error _) => s

end Site

end RoomRelay
