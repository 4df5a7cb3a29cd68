import RoomRelay.Http.Router

/-!
What requests can do to a hub. A request broadcasts to a room, sends to a user, has a look at
presence, or changes who listens to one room; it does nothing to a hub but one of these.
-/

namespace RoomRelay.Http

variable {β : Type} [SharedBus β]

/-- All that a request at an instant may make of a site. A user is made to listen only while it has
a connection there. -/
inductive Effect (s : Site β) (clock : Nat) : Site β → Prop where
  | nothing : Effect s clock s
  | broadcast (room : Uuid) (es : List Event) : Effect s clock (s.broadcastAll room es)
  | toUser (user : Uuid) (e : Event) : Effect s clock (s.sendToUser user e).1
  | look (users : List Uuid) : Effect s clock (s.onlineAmong clock users).1
  | listen (room user : Uuid) (connected : 0 < s.hub.registry.connectionCount user) :
    Effect s clock (s.listen room user)
  | unlisten (room user : Uuid) : Effect s clock (s.unlisten room user)

variable (s : Site β) (now : Moment) (r : Request)

private theorem answerRoomEvent_effect (room : Uuid) :
    Effect s now.clock (answerRoomEvent s room r).1 := by
  unfold answerRoomEvent
  cases readBody Event.decode r with
  | error status => exact .nothing
  | ok e => exact .broadcast room [{ e with roomId := some (e.roomId.getD room) }]

private theorem answerRoomMessage_effect (room : Uuid) :
    Effect s now.clock (answerRoomMessage s room r).1 := by
  unfold answerRoomMessage
  cases readBody Message.decode r with
  | error status => exact .nothing
  | ok m =>
    dsimp only
    split
    · exact .broadcast room _
    · exact .nothing

private theorem answerDeletion_effect (room message : Uuid) :
    Effect s now.clock (answerDeletion s room message r).1 := by
  unfold answerDeletion
  split
  · exact .broadcast room _
  · exact .nothing

private theorem answerMember_effect (room user : Uuid) :
    Effect s now.clock (answerMember s room user r).1 := by
  unfold answerMember
  split
  · split
    · exact .listen room user ‹_›
    · exact .nothing
  · exact .unlisten room user

private theorem answerUserEvent_effect (user : Uuid) :
    Effect s now.clock (answerUserEvent s user r).1 := by
  unfold answerUserEvent
  cases readBody Event.decode r with
  | error status => exact .nothing
  | ok e => exact .toUser user e

private theorem answerPresence_effect : Effect s now.clock (answerPresence s now r).1 := by
  unfold answerPresence
  cases readBody decodePresenceQuery r with
  | error status => exact .nothing
  | ok users =>
    dsimp only
    split
    · exact .nothing
    · exact .look users

/-- What becomes of a request for the other services once its route is found: it goes to the handler
of the route, unless its path holds no identifier where one belongs. -/
inductive Handled (s : Site β) (now : Moment) (r : Request) : Site β × Answer → Prop where
  | misspelt : Handled s now r (s, .plain 400)
  | roomEvent (room : Uuid) : Handled s now r (answerRoomEvent s room r)
  | roomMessage (room : Uuid) : Handled s now r (answerRoomMessage s room r)
  | deletion (room message : Uuid) : Handled s now r (answerDeletion s room message r)
  | member (room user : Uuid) : Handled s now r (answerMember s room user r)
  | userEvent (user : Uuid) : Handled s now r (answerUserEvent s user r)
  | presence : Handled s now r (answerPresence s now r)

theorem answerRoute_handled (live : Bool) {route : Route} (internal : route.isInternal = true) :
    Handled s now r (answerRoute s now live r route) := by
  cases route with
  | health => cases internal
  | metrics => cases internal
  | socket => cases internal
  | roomEvents room =>
    simp only [answerRoute]
    split
    · exact .roomEvent _
    · exact .misspelt
  | roomMessages room =>
    simp only [answerRoute]
    split
    · exact .roomMessage _
    · exact .misspelt
  | roomMessage room message =>
    simp only [answerRoute]
    split
    · exact .deletion _ _
    · exact .misspelt
  | roomMember room user =>
    simp only [answerRoute]
    split
    · exact .member _ _
    · exact .misspelt
  | userEvents user =>
    simp only [answerRoute]
    split
    · exact .userEvent _
    · exact .misspelt
  | presence => exact .presence

theorem Handled.effect {s : Site β} {now : Moment} {r : Request} {x : Site β × Answer}
    (handled : Handled s now r x) : Effect s now.clock x.1 := by
  cases handled with
  | misspelt => exact .nothing
  | roomEvent room => exact answerRoomEvent_effect s now r room
  | roomMessage room => exact answerRoomMessage_effect s now r room
  | deletion room message => exact answerDeletion_effect s now r room message
  | member room user => exact answerMember_effect s now r room user
  | userEvent user => exact answerUserEvent_effect s now r user
  | presence => exact answerPresence_effect s now r

private theorem answerRoute_effect (live : Bool) (route : Route) :
    Effect s now.clock (answerRoute s now live r route).1 := by
  by_cases internal : route.isInternal = true
  · exact (answerRoute_handled s now r live internal).effect
  · cases route with
    | health => exact .nothing
    | metrics => exact .nothing
    | socket => exact .nothing
    | _ => exact absurd rfl internal

/-- Whatever a request is, and whether or not it is let in, it has one of the effects above. -/
theorem answer_effect (live : Bool) : Effect s now.clock (answer s now live r).1 := by
  unfold answer
  split
  · exact .nothing
  · split
    · exact .nothing
    · split
      · exact answerRoute_effect s now r live _
      · exact .nothing

end RoomRelay.Http
