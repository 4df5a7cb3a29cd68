import RoomRelay.Failure
import RoomRelay.Text.Blank

/-!
The bus that hubs share: messages published on channels, and sets of members that expire. What a
hub needs of a bus is the class `SharedBus`; every operation may fail, and says so without
saying what became of the message.
-/

namespace RoomRelay

/-- What a bus carries: a text and the channel it was published on. -/
structure BusMessage where
  channel : String
  payload : String
deriving DecidableEq

/-- What a `subscribe` asks for: channels by name, and patterns of which an asterisk at the end
stands for any text. -/
structure Filter where
  channels : List String
  patterns : List String
deriving DecidableEq

namespace Filter

/-- Whether a channel is one that a pattern stands for. -/
def patternMatches (pattern channel : String) : Bool :=
  match Text.stripSuffix? "*" pattern with
  | some lead => (Text.stripPrefix? lead channel).isSome
  | none => pattern == channel

/-- Whether a subscription gets the messages of a channel: `channel_matches`. -/
def accepts (f : Filter) (channel : String) : Bool :=
  f.channels.any (· == channel) || f.patterns.any (patternMatches · channel)

end Filter

/-- A bus that hubs publish on and keep shared sets in: `publish`, `set_add`, `set_remove` and
`set_contains` of `Bus`. Each operation gives the bus after it. Times are in nanoseconds. -/
class SharedBus (β : Type) where
  publish : β → BusMessage → β × Except Failure Unit
  /-- Adds a member to a set and renews the whole set's lease, one that the bus grants. -/
  setAdd : β → (now : Nat) → (key member : String) → (lease : Duration) →
    β × Except Failure Unit
  /-- Whether `setAdd` comes back to its caller. A bus that keeps the end of a lease as an instant
  of its clock grants no lease whose end the clock cannot name: who asks for one is cut off, with
  neither an answer nor a failure. -/
  grants : β → (now : Nat) → (lease : Duration) → Bool := fun _ _ _ => true
  setRemove : β → (key member : String) → β × Except Failure Unit
  /-- For each of the texts whether it is a member. -/
  setContains : β → (now : Nat) → (key : String) → List String → β × Except Failure (List Bool)

end RoomRelay
