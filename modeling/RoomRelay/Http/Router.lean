import RoomRelay.Http.Request
import RoomRelay.Hub.Membership
import RoomRelay.Hub.Relay
import RoomRelay.Token

/-!
What a hub answers over HTTP. Anyone may ask for its health, and clients come through `/ws`. The
other services reach it under `/internal`, where a request must present the internal token
before anything else of it is looked at.
-/

namespace RoomRelay.Http

open Json

/-- What a path leads to, with the texts it holds. -/
inductive Route where
  | health
  | metrics
  | socket
  | roomEvents (room : String)
  | roomMessages (room : String)
  | roomMessage (room message : String)
  | roomMember (room user : String)
  | userEvents (user : String)
  | presence
deriving DecidableEq

/-- What the parts of a path lead to, by the paths of `build_router`. -/
def Route.ofSegments? : List String → Option Route
  | ["", "health"] => some .health
  | ["", "metrics"] => some .metrics
  | ["", "ws"] => some .socket
  | ["", "internal", "presence"] => some .presence
  | ["", "internal", "rooms", room, "events"] => some (.roomEvents room)
  | ["", "internal", "rooms", room, "messages"] => some (.roomMessages room)
  | ["", "internal", "rooms", room, "messages", message] =>
    if message = "" then none else some (.roomMessage room message)
  | ["", "internal", "rooms", room, "members", user] =>
    if user = "" then none else some (.roomMember room user)
  | ["", "internal", "users", user, "events"] => some (.userEvents user)
  | _ => none

def Route.methods : Route → List String
  | .health | .metrics | .socket => ["GET", "HEAD"]
  | .roomEvents _ | .roomMessages _ | .userEvents _ | .presence => ["POST"]
  | .roomMessage .. => ["DELETE"]
  | .roomMember .. => ["POST", "DELETE"]

/-- Whether a route is for the other services only. -/
def Route.isInternal : Route → Bool
  | .health | .metrics | .socket => false
  | _ => true

/-- An answer: a status with the JSON text of the body, if it has one, or the change to a
WebSocket for a user. -/
inductive Answer where
  | plain (status : Nat) (body : Option String := none)
  | upgraded (user : Uuid)
deriving DecidableEq

/-- A JSON body. -/
def Answer.json (status : Nat) (v : Value) : Answer := .plain status (some v.render)

def Answer.failed (f : Failure) : Answer := .json f.status f.body

def Answer.status : Answer → Nat
  | .plain status _ => status
  | .upgraded _ => 101

/-- The header that internal requests present the token in: `INTERNAL_TOKEN_HEADER`. -/
def internalTokenHeader : String := "x-internal-token"

/-- Whether a request presents the internal token, as `internal_auth` has it. Without a configured
one none does. -/
def isAuthorized (configured : String) (r : Request) : Bool :=
  configured ≠ "" && Header.text? internalTokenHeader r.headers == some configured

/-- The identifier that a part of a path spells. -/
def pathId? (segment : String) : Option Uuid :=
  (Text.Percent.decodeText? segment).bind Uuid.parse?

/-- The most octets a body may have. -/
def bodyLimit : Nat := 2097152

/-- What a reader makes of the body, or the status that refuses it. -/
def readBody {α : Type} (decode : Decoder α) (r : Request) : Except Nat α :=
  if ¬r.hasJsonBody then .error 415
  else if bodyLimit < Text.byteSize r.body then .error 413
  else
    match Decode.runFront decode r.body with
    | .ok a => .ok a
    | .error .malformed => .error 400
    | .error .misfit => .error 422

/-- How a room's event got on its way: `delivery_body`. -/
def deliveryBody : RoomDelivery → Value
  | .relayed => Value.ofMembers [("delivery", .string "relayed")]
  | .onsite stats =>
    Value.ofMembers
      [("delivery", .string "local"), ("delivered", .int stats.delivered),
        ("dropped", .int stats.dropped)]

/-- The most users one presence query may name: `MAX_PRESENCE_QUERY`. -/
def presenceQueryLimit : Nat := 1000

/-- The users that a presence query names: `PresenceQuery`. -/
def decodePresenceQuery : Decoder (List Uuid) := fun levels d => do
  let f ← Decode.fields ["user_ids"] levels d
  f.required "user_ids" (Decode.list Uuid.decode)

/-- Whether a request asks for a WebSocket in the way the standard has it. -/
def asksForSocket (r : Request) : Bool :=
  let equals (name value : String) : Bool :=
    match Header.value? name r.headers with
    | some v => Text.agreesIgnoringCase v value
    | none => false
  let mentionsUpgrade :=
    match Header.value? "connection" r.headers with
    | some v => (Text.cutAt? "upgrade".toList (Text.lowered v).toList).isSome
    | none => false
  mentionsUpgrade && equals "upgrade" "websocket" &&
    Header.value? "sec-websocket-version" r.headers == some "13" &&
    (Header.value? "sec-websocket-key" r.headers).isSome

/-- The instants a request is looked at: of the hub's own clock, and in seconds of the calendar
for tokens. -/
structure Moment where
  clock : Nat
  seconds : Int

/-- The answer to a client that wants a WebSocket: `ws_handler`. `live` says whether the transport
can change to one; in the older version of the protocol none can. -/
def answerSocket (config : Config) (now : Moment) (live : Bool) (r : Request) : Answer :=
  match r.queryField? "token" with
  | none => .plain 400
  | some token =>
    if r.method ≠ "GET" then .plain 405
    else if ¬asksForSocket r then .plain 400
    else if ¬live ∨ r.version ≠ .http11 then .plain 426
    else
      match bearerToken? token r.headers with
      | none => .failed .unauthorized
      | some token =>
        match Token.verify .standard config.jwtSecret now.seconds token with
        | .ok user => .upgraded user
        | .error f => .failed f

variable {β : Type} [SharedBus β]

/-- The state of a hub as `health` tells it. -/
def healthBody (h : Hub) : Value :=
  Value.ofMembers
    [("status", .string "ok"), ("instance_id", h.instanceId.toValue),
      ("bus_subscribed", .bool h.subscribed), ("connections", .int h.registry.total)]

/-- Broadcasts the event of a request to a room; it is about that room unless it says otherwise.
This is `broadcast_room_event`. -/
def answerRoomEvent (s : Site β) (room : Uuid) (r : Request) : Site β × Answer :=
  match readBody Event.decode r with
  | .error status => (s, .plain status)
  | .ok e =>
    let (s, delivery) := s.broadcast room { e with roomId := some (e.roomId.getD room) }
    (s, .json 200 (deliveryBody delivery))

/-- Announces the message of a request to its room: `announce_message`. -/
def answerRoomMessage (s : Site β) (room : Uuid) (r : Request) : Site β × Answer :=
  match readBody Message.decode r with
  | .error status => (s, .plain status)
  | .ok m =>
    if m.roomId = room then (s.announceMessage room m, .plain 202)
    else (s, .failed (.badRequest "message room_id does not match path"))

/-- Tells a room that a message was deleted: `announce_message_deleted`. -/
def answerDeletion (s : Site β) (room message : Uuid) (r : Request) : Site β × Answer :=
  match (r.queryField? "deleted_by").bind fun v => v.bind Uuid.parse? with
  | some user => (s.announceDeletion room message user, .plain 202)
  | none => (s, .plain 400)

/-- A user became a member of a room, or is none any more: `subscribe_member` and
`unsubscribe_member`. Only users with a connection here listen. -/
def answerMember (s : Site β) (room user : Uuid) (r : Request) : Site β × Answer :=
  if r.method = "POST" then
    if 0 < s.hub.registry.connectionCount user then (s.listen room user, .plain 204)
    else (s, .plain 204)
  else (s.unlisten room user, .plain 204)

/-- Sends the event of a request to a user: `send_user_event`. -/
def answerUserEvent (s : Site β) (user : Uuid) (r : Request) : Site β × Answer :=
  match readBody Event.decode r with
  | .error status => (s, .plain status)
  | .ok e =>
    let (s, stats) := s.sendToUser user e
    (s, .json 200 (Value.ofMembers
      [("delivered_locally", .int stats.delivered), ("dropped", .int stats.dropped)]))

/-- Tells which of the users of a request are online: `presence`. -/
def answerPresence (s : Site β) (now : Moment) (r : Request) : Site β × Answer :=
  match readBody decodePresenceQuery r with
  | .error status => (s, .plain status)
  | .ok users =>
    if presenceQueryLimit < users.length then
      (s, .failed (.badRequest
        ("at most " ++ Text.decimalText presenceQueryLimit ++ " user ids per query")))
    else
      let (s, online) := s.onlineAmong now.clock users
      (s, .json 200 (Value.ofMembers [("online", .array (online.map Uuid.toValue))]))

/-- Answers a request to a known route with one of its methods. -/
def answerRoute (s : Site β) (now : Moment) (live : Bool) (r : Request) :
    Route → Site β × Answer
  | .health =>
    (s, if r.method = "HEAD" then .plain 200 (some "") else .json 200 (healthBody s.hub))
  | .metrics => (s, .plain 200)
  | .socket => (s, answerSocket s.hub.config now live r)
  | .roomEvents room =>
    match pathId? room with
    | some room => answerRoomEvent s room r
    | none => (s, .plain 400)
  | .roomMessages room =>
    match pathId? room with
    | some room => answerRoomMessage s room r
    | none => (s, .plain 400)
  | .roomMessage room message =>
    match pathId? room, pathId? message with
    | some room, some message => answerDeletion s room message r
    | _, _ => (s, .plain 400)
  | .roomMember room user =>
    match pathId? room, pathId? user with
    | some room, some user => answerMember s room user r
    | _, _ => (s, .plain 400)
  | .userEvents user =>
    match pathId? user with
    | some user => answerUserEvent s user r
    | none => (s, .plain 400)
  | .presence => answerPresence s now r

/-- Answers a request. An unknown path is told apart first, then the token is looked at where one
is needed, then the method. -/
def answer (s : Site β) (now : Moment) (live : Bool) (r : Request) : Site β × Answer :=
  match Route.ofSegments? r.segments with
  | none => (s, .plain 404)
  | some route =>
    if route.isInternal ∧ ¬isAuthorized s.hub.config.internalToken r then
      (s, .failed .unauthorized)
    else if route.methods.contains r.method then answerRoute s now live r route
    else (s, .plain 405)

end RoomRelay.Http
