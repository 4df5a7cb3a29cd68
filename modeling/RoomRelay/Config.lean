import RoomRelay.Duration
import RoomRelay.Failure
import RoomRelay.Uuid

/-!
The configuration of a hub: its fields with their defaults, the reading of a JSON record, the
check that a hub can run under it, and the durations that follow from it. `Settings` are any that
can be written down; a `Config` is the settings of a hub that runs, with a lease on the shared set
of users that a clock can count.
-/

namespace RoomRelay

/-- The settings of one hub, as they are written down: the fields of `Config` and their defaults. -/
structure Settings where
  host : String := "0.0.0.0"
  port : Nat := 8085
  /-- The address of the shared bus; without one the hub serves its own clients only. -/
  redisUrl : Option String := none
  jwtSecret : String := ""
  /-- The token that callers of the internal routes present. -/
  internalToken : String := ""
  instanceId : Uuid
  collaboratorBaseUrl : String := "http://127.0.0.1:8080"
  collaboratorTimeoutMs : Nat := 3000
  outboundQueueCapacity : Nat := 256
  writeWaitSecs : Nat := 10
  pongWaitSecs : Nat := 60
  maxMessageBytes : Nat := 8192
  presenceTtlSecs : Nat := 300
  messageRateLimit : Nat := 30
  messageRateWindowSecs : Nat := 10
  notificationSyncLimit : Nat := 6
  notificationSyncWindowSecs : Nat := 10
  notificationReadLimit : Nat := 20
  notificationReadWindowSecs : Nat := 10
  logJson : Bool := false
deriving DecidableEq

namespace Settings

/-- The settings for a hub on trial, `test_defaults`: local, with known secrets and a short
deadline. -/
def trial (instanceId : Uuid) : Settings :=
  { host := "127.0.0.1", port := 0, jwtSecret := "test-secret",
    internalToken := "internal-test-token", collaboratorTimeoutMs := 1000, instanceId }

def fieldNames : List String :=
  ["host", "port", "redis_url", "jwt_secret", "internal_token", "instance_id",
    "collaborator_base_url", "collaborator_timeout_ms", "outbound_queue_capacity",
    "write_wait_secs", "pong_wait_secs", "max_message_bytes", "presence_ttl_secs",
    "message_rate_limit", "message_rate_window_secs", "notification_sync_limit",
    "notification_sync_window_secs", "notification_read_limit",
    "notification_read_window_secs", "log_json"]

open Json in
/-- A configuration record; fields that are not given keep the values of `base`. -/
def decodeOver (base : Settings) : Decoder Settings := fun levels d => do
  let f ← Decode.fields fieldNames levels d
  let host ← f.withDefault "host" Decode.text base.host
  let port ← f.withDefault "port" (Decode.unsigned 16) base.port
  let redisUrl ← f.withDefault "redis_url" (Decode.nullable Decode.text) base.redisUrl
  let jwtSecret ← f.withDefault "jwt_secret" Decode.text base.jwtSecret
  let internalToken ← f.withDefault "internal_token" Decode.text base.internalToken
  let instanceId ← f.withDefault "instance_id" Uuid.decode base.instanceId
  let collaboratorBaseUrl ←
    f.withDefault "collaborator_base_url" Decode.text base.collaboratorBaseUrl
  let count (name : String) (absent : Nat) := f.withDefault name (Decode.unsigned 64) absent
  let collaboratorTimeoutMs ← count "collaborator_timeout_ms" base.collaboratorTimeoutMs
  let outboundQueueCapacity ← count "outbound_queue_capacity" base.outboundQueueCapacity
  let writeWaitSecs ← count "write_wait_secs" base.writeWaitSecs
  let pongWaitSecs ← count "pong_wait_secs" base.pongWaitSecs
  let maxMessageBytes ← count "max_message_bytes" base.maxMessageBytes
  let presenceTtlSecs ← count "presence_ttl_secs" base.presenceTtlSecs
  let messageRateLimit ← count "message_rate_limit" base.messageRateLimit
  let messageRateWindowSecs ← count "message_rate_window_secs" base.messageRateWindowSecs
  let notificationSyncLimit ← count "notification_sync_limit" base.notificationSyncLimit
  let notificationSyncWindowSecs ←
    count "notification_sync_window_secs" base.notificationSyncWindowSecs
  let notificationReadLimit ← count "notification_read_limit" base.notificationReadLimit
  let notificationReadWindowSecs ←
    count "notification_read_window_secs" base.notificationReadWindowSecs
  let logJson ← f.withDefault "log_json" Decode.bool base.logJson
  return { host, port, redisUrl, jwtSecret, internalToken, instanceId, collaboratorBaseUrl,
           collaboratorTimeoutMs, outboundQueueCapacity, writeWaitSecs, pongWaitSecs,
           maxMessageBytes, presenceTtlSecs, messageRateLimit, messageRateWindowSecs,
           notificationSyncLimit, notificationSyncWindowSecs, notificationReadLimit,
           notificationReadWindowSecs, logJson }

def toValue (c : Settings) : Json.Value :=
  .object
    [("host", .string c.host), ("port", .int c.port),
      ("redis_url", (c.redisUrl.map Json.Value.string).getD .null),
      ("jwt_secret", .string c.jwtSecret), ("internal_token", .string c.internalToken),
      ("instance_id", c.instanceId.toValue),
      ("collaborator_base_url", .string c.collaboratorBaseUrl),
      ("collaborator_timeout_ms", .int c.collaboratorTimeoutMs),
      ("outbound_queue_capacity", .int c.outboundQueueCapacity),
      ("write_wait_secs", .int c.writeWaitSecs), ("pong_wait_secs", .int c.pongWaitSecs),
      ("max_message_bytes", .int c.maxMessageBytes),
      ("presence_ttl_secs", .int c.presenceTtlSecs),
      ("message_rate_limit", .int c.messageRateLimit),
      ("message_rate_window_secs", .int c.messageRateWindowSecs),
      ("notification_sync_limit", .int c.notificationSyncLimit),
      ("notification_sync_window_secs", .int c.notificationSyncWindowSecs),
      ("notification_read_limit", .int c.notificationReadLimit),
      ("notification_read_window_secs", .int c.notificationReadWindowSecs),
      ("log_json", .bool c.logJson)]

/-- Why a hub cannot run under a configuration, if it cannot. Under `validate` the secret is looked
at first, then the queue, the presence of users, the timing of connections and the rate limits. -/
def validate (c : Settings) : Except Failure Unit :=
  if (Text.trim c.jwtSecret.toList).isEmpty then
    .error (.configuration "CHAT_HUB_JWT_SECRET missing")
  else if c.outboundQueueCapacity = 0 then
    .error (.configuration "outbound_queue_capacity must be positive")
  else if c.presenceTtlSecs = 0 then
    .error (.configuration "presence_ttl_secs must be positive")
  else if c.pongWaitSecs < 2 ∨ c.writeWaitSecs = 0 then
    .error (.configuration "pong_wait_secs must be >= 2 and write_wait_secs > 0")
  else if c.messageRateWindowSecs = 0 ∨ c.notificationSyncWindowSecs = 0 ∨
      c.notificationReadWindowSecs = 0 ∨ c.messageRateLimit = 0 ∨
      c.notificationSyncLimit = 0 ∨ c.notificationReadLimit = 0 then
    .error (.configuration "rate limits and windows must be positive")
  else .ok ()

/-- How long one frame may take to be written: `write_wait`. -/
def writeWait (c : Settings) : Duration := .ofSeconds c.writeWaitSecs

/-- How long a client may stay silent: `pong_wait`. -/
def pongWait (c : Settings) : Duration := .ofSeconds c.pongWaitSecs

/-- How often a client is probed: nine tenths of the time it may stay silent. There is no such
period when nine times that wait is beyond what 64 bits of seconds can hold, and then `ping_period`
does not come back. -/
def pingPeriod? (c : Settings) : Option Duration :=
  (c.pongWait.times? 9).map (·.part 10)

/-- How long the shared presence of users lasts: `presence_ttl`. -/
def presenceTtl (c : Settings) : Duration := .ofSeconds c.presenceTtlSecs

/-- The deadline of a collaborator's answer: `collaborator_timeout`. -/
def collaboratorTimeout (c : Settings) : Duration := .ofMillis c.collaboratorTimeoutMs

end Settings

/-- The settings of a hub that runs. Its lease on the shared set takes less than half of what a
clock counts, so that the clock can name its end at every instant of the other half. -/
structure Config extends Settings where
  lease_lt : toSettings.presenceTtl < Duration.clockHalf

namespace Config

/-- The configuration of a hub that runs under settings. -/
def ofSettings? (s : Settings) : Option Config :=
  if short : s.presenceTtl < Duration.clockHalf then some { toSettings := s, lease_lt := short }
  else none

private theorem trial_lease_lt (instanceId : Uuid) :
    (Settings.trial instanceId).presenceTtl < Duration.clockHalf := by
  show Duration.ofSeconds 300 < Duration.clockHalf
  decide

/-- The configuration of a hub on trial. -/
def trial (instanceId : Uuid) : Config :=
  { toSettings := .trial instanceId, lease_lt := trial_lease_lt instanceId }

end Config

end RoomRelay
