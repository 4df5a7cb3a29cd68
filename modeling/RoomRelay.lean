import RoomRelay.Bus.Basic
import RoomRelay.Bus.Channel
import RoomRelay.Bus.Memory
import RoomRelay.Collaborator
import RoomRelay.Collaborator.Rest
import RoomRelay.Collaborator.Store
import RoomRelay.Command
import RoomRelay.Config
import RoomRelay.Config.Environment
import RoomRelay.Connection
import RoomRelay.Duration
import RoomRelay.Envelope
import RoomRelay.Errand
import RoomRelay.Event
import RoomRelay.Failure
import RoomRelay.Fleet
import RoomRelay.Fleet.Clients
import RoomRelay.Fleet.Clock
import RoomRelay.Fleet.Upkeep
import RoomRelay.Http.Header
import RoomRelay.Http.MediaType
import RoomRelay.Http.Request
import RoomRelay.Http.Router
import RoomRelay.Http.Status
import RoomRelay.Hub
import RoomRelay.Hub.Conversation
import RoomRelay.Hub.Delivery
import RoomRelay.Hub.Membership
import RoomRelay.Hub.Relay
import RoomRelay.Json.Decode
import RoomRelay.Json.Document
import RoomRelay.Json.Numeral
import RoomRelay.Json.Value
import RoomRelay.Message
import RoomRelay.Meters
import RoomRelay.Notification
import RoomRelay.Number.Binary64
import RoomRelay.Number.Shortest
import RoomRelay.Number.Word
import RoomRelay.Presence
import RoomRelay.Procedure
import RoomRelay.Proofs.AmbiguousPublish
import RoomRelay.Proofs.Announcements
import RoomRelay.Proofs.AvailableBus
import RoomRelay.Proofs.Base64UrlText
import RoomRelay.Proofs.BusModes
import RoomRelay.Proofs.BusReading
import RoomRelay.Proofs.ChannelRouting
import RoomRelay.Proofs.Cluster
import RoomRelay.Proofs.CommandBudgets
import RoomRelay.Proofs.CommandTexts
import RoomRelay.Proofs.Conversation
import RoomRelay.Proofs.Cuts
import RoomRelay.Proofs.Decimal
import RoomRelay.Proofs.Delivery
import RoomRelay.Proofs.EnvelopeText
import RoomRelay.Proofs.EventRelay
import RoomRelay.Proofs.GateInvariant
import RoomRelay.Proofs.Heartbeat
import RoomRelay.Proofs.InternalToken
import RoomRelay.Proofs.Json.Accepting
import RoomRelay.Proofs.Json.Fields
import RoomRelay.Proofs.Json.FreeForm
import RoomRelay.Proofs.Json.Numerals
import RoomRelay.Proofs.Json.Reading
import RoomRelay.Proofs.Json.Records
import RoomRelay.Proofs.Json.Strings
import RoomRelay.Proofs.LeasedSets
import RoomRelay.Proofs.Lives
import RoomRelay.Proofs.LocalFanOut
import RoomRelay.Proofs.LostMarks
import RoomRelay.Proofs.Marks
import RoomRelay.Proofs.Membership
import RoomRelay.Proofs.NotificationPages
import RoomRelay.Proofs.OnlineSet
import RoomRelay.Proofs.Operation
import RoomRelay.Proofs.OrderedBus
import RoomRelay.Proofs.Outages
import RoomRelay.Proofs.OutboundQueue
import RoomRelay.Proofs.PasswordPlaces
import RoomRelay.Proofs.PercentText
import RoomRelay.Proofs.PresenceTransitions
import RoomRelay.Proofs.RateMemory
import RoomRelay.Proofs.RateWindow
import RoomRelay.Proofs.ReadState
import RoomRelay.Proofs.Reconnection
import RoomRelay.Proofs.Redaction
import RoomRelay.Proofs.RedisBus
import RoomRelay.Proofs.RefreshRound
import RoomRelay.Proofs.Registry
import RoomRelay.Proofs.RegistryInvariants
import RoomRelay.Proofs.Relay
import RoomRelay.Proofs.RelayUpkeep
import RoomRelay.Proofs.Relays
import RoomRelay.Proofs.Requests
import RoomRelay.Proofs.ResubscriptionGate
import RoomRelay.Proofs.RoomFanOut
import RoomRelay.Proofs.RoomSubscriptions
import RoomRelay.Proofs.SetLifetime
import RoomRelay.Proofs.SharedPresence
import RoomRelay.Proofs.Shutdown
import RoomRelay.Proofs.SinglePath
import RoomRelay.Proofs.Subscriptions
import RoomRelay.Proofs.SyncPages
import RoomRelay.Proofs.Table
import RoomRelay.Proofs.TimestampText
import RoomRelay.Proofs.Tokens
import RoomRelay.Proofs.Unplugged
import RoomRelay.Proofs.UrlParts
import RoomRelay.Proofs.UserDelivery
import RoomRelay.Proofs.UserIsolation
import RoomRelay.Proofs.Utf8Text
import RoomRelay.Proofs.UuidForms
import RoomRelay.Proofs.UuidText
import RoomRelay.Proofs.Welcome
import RoomRelay.Proofs.WireFormats
import RoomRelay.Proofs.WorkingHub
import RoomRelay.RateWindow
import RoomRelay.Redis.Address
import RoomRelay.Redis.Connect
import RoomRelay.Redis.Link
import RoomRelay.Redis.Server
import RoomRelay.Redis.Url
import RoomRelay.Registry
import RoomRelay.Table
import RoomRelay.Text.Base64Url
import RoomRelay.Text.Blank
import RoomRelay.Text.Digits
import RoomRelay.Text.Percent
import RoomRelay.Text.Utf8
import RoomRelay.Timestamp
import RoomRelay.Token
import RoomRelay.Token.Header
import RoomRelay.Token.Library
import RoomRelay.Token.Sha256
import RoomRelay.Uuid
import RoomRelay.WebSocket.Frame
import RoomRelay.WebSocket.Session
