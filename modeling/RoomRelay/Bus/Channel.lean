import RoomRelay.Uuid

/-!
The channels of the shared bus. Each room has a channel of its own, named by a common start and
the room's identifier; envelopes for users and notices of presence have one channel each.
-/

namespace RoomRelay.Channel

/-- The start of every room's channel: `ROOM_CHANNEL_PREFIX`. -/
def roomLead : String := "chat:room:"

/-- The pattern that every room's channel matches: `ROOM_CHANNEL_PATTERN`. -/
def roomPattern : String := "chat:room:*"

/-- The channel of presence notices: `PRESENCE_CHANNEL`. -/
def presence : String := "chat:presence"

/-- The channel of envelopes for users: `USER_EVENTS_CHANNEL`. -/
def userEvents : String := "ws:user_events"

/-- The set of users who are online: `PRESENCE_ONLINE_KEY`. -/
def onlineSet : String := "chat:presence:online"

/-- The channel of a room: `room_channel`. -/
def room (id : Uuid) : String :=
  roomLead ++ id.text

/-- The room whose channel this is: `parse_room_channel`. Any form of the identifier is
understood. -/
def roomOf? (channel : String) : Option Uuid :=
  (Text.stripPrefix? roomLead channel).bind Uuid.parse?

/-- What a message on a channel is about. -/
inductive Topic where
  | room (id : Uuid)
  | userEvents
  | presence
  | other
deriving DecidableEq

/-- The topic of a channel. `handle_message` looks for a room first. -/
def topic (channel : String) : Topic :=
  match roomOf? channel with
  | some id => .room id
  | none =>
    if channel = userEvents then .userEvents
    else if channel = presence then .presence
    else .other

end RoomRelay.Channel
