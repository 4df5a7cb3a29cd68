import RoomRelay.Config

/-!
Configuration from environment variables. A variable names a field when it starts with
`CHAT_HUB_` and the rest, in small letters, is the field's name; the first value that its field
cannot take is refused with the reason and the variable's name.
-/

namespace RoomRelay.Config.Environment

/-- The start of every name. -/
def lead : String := "CHAT_HUB_"

/-- What follows the lead, taken off as often as it stands at the front. -/
def afterLead (fuel : Nat) (cs : List Char) : List Char :=
  match fuel with
  | 0 => cs
  | fuel + 1 =>
    match Text.afterPrefix? lead.toList cs with
    | some rest => afterLead fuel rest
    | none => cs

/-- The name that a variable gives after its lead, if it has one. -/
def given? (name : String) : Option String :=
  (Text.stripPrefix? lead name).map fun _ => String.ofList (afterLead name.length name.toList)

inductive NumberFault where
  | empty
  | digit
  | large

def NumberFault.message : NumberFault → String
  | empty => "cannot parse integer from empty string"
  | digit => "invalid digit found in string"
  | large => "number too large to fit in target type"

/-- A whole number of so many bits in decimal digits, with a plus sign or without. -/
def readNumber (bits : Nat) (s : String) : Except NumberFault Nat :=
  let value (cs : List Char) : Except NumberFault Nat :=
    match Text.readDecimal? cs with
    | some n => if n < Word.span bits then .ok n else .error .large
    | none => .error .digit
  match s.toList with
  | [] => .error .empty
  | ['+'] => .error .digit
  | '+' :: cs => value cs
  | cs => value cs

/-- A truth value. -/
def readBool (s : String) : Except String Bool :=
  if s = "true" then .ok true
  else if s = "false" then .ok false
  else .error "provided string was not \x60true\x60 or \x60false\x60"

/-- What a field takes as its value. -/
inductive Setting where
  | text (s : String)
  | number (n : Nat)
  | flag (b : Bool)
  | identifier (u : Uuid)

/-- How a field's text is read. -/
inductive Form where
  | text
  | number (bits : Nat)
  | flag
  | identifier

/-- How the text of a field is read, for the fields there are. -/
def form? (field : String) : Option Form :=
  if Settings.fieldNames.contains field then
    some <|
      if ["host", "redis_url", "jwt_secret", "internal_token",
          "collaborator_base_url"].contains field then .text
      else if field = "port" then .number 16
      else if field = "instance_id" then .identifier
      else if field = "log_json" then .flag
      else .number 64
  else none

/-- Why variables were refused. -/
inductive Fault where
  /-- A field cannot take the text. -/
  | value (reason text name : String)
  | identifier (text name : String)
  /-- Two variables set one field. -/
  | repeated (field : String)
  /-- A hub cannot run under the configuration. -/
  | unfit (failure : Failure)

def Fault.failure : Fault → Failure
  | .value reason text name =>
    .configuration (reason ++ " while parsing value '" ++ text ++ "' provided by " ++ name)
  | .identifier text name =>
    .configuration ("no identifier while parsing value '" ++ text ++ "' provided by " ++ name)
  | .repeated field => .configuration ("field " ++ field ++ " set twice")
  | .unfit failure => failure

/-- The setting a variable makes. -/
def setting (name text : String) : Form → Except Fault Setting
  | .text => .ok (.text text)
  | .number bits =>
    match readNumber bits text with
    | .ok n => .ok (.number n)
    | .error f => .error (.value f.message text name)
  | .flag =>
    match readBool text with
    | .ok b => .ok (.flag b)
    | .error reason => .error (.value reason text name)
  | .identifier =>
    match Uuid.parse? text with
    | some u => .ok (.identifier u)
    | none => .error (.identifier text name)

/-- The settings that variables make, in order. A field set twice is refused. -/
def settings : List (String × String) → List (String × Setting) →
    Except Fault (List (String × Setting))
  | [], acc => .ok acc.reverse
  | (full, text) :: rest, acc =>
    match given? full with
    | none => settings rest acc
    | some name =>
      let field := Text.lowered name
      match form? field with
      | none => settings rest acc
      | some form =>
        if (acc.lookup field).isSome then .error (.repeated field)
        else
          match setting name text form with
          | .ok s => settings rest ((field, s) :: acc)
          | .error f => .error f

/-- The settings with one field as a variable has it. -/
def apply (c : Settings) (field : String) (s : Setting) : Settings :=
  match field, s with
  | "host", .text t => { c with host := t }
  | "port", .number n => { c with port := n }
  | "redis_url", .text t => { c with redisUrl := some t }
  | "jwt_secret", .text t => { c with jwtSecret := t }
  | "internal_token", .text t => { c with internalToken := t }
  | "instance_id", .identifier u => { c with instanceId := u }
  | "collaborator_base_url", .text t => { c with collaboratorBaseUrl := t }
  | "collaborator_timeout_ms", .number n => { c with collaboratorTimeoutMs := n }
  | "outbound_queue_capacity", .number n => { c with outboundQueueCapacity := n }
  | "write_wait_secs", .number n => { c with writeWaitSecs := n }
  | "pong_wait_secs", .number n => { c with pongWaitSecs := n }
  | "max_message_bytes", .number n => { c with maxMessageBytes := n }
  | "presence_ttl_secs", .number n => { c with presenceTtlSecs := n }
  | "message_rate_limit", .number n => { c with messageRateLimit := n }
  | "message_rate_window_secs", .number n => { c with messageRateWindowSecs := n }
  | "notification_sync_limit", .number n => { c with notificationSyncLimit := n }
  | "notification_sync_window_secs", .number n => { c with notificationSyncWindowSecs := n }
  | "notification_read_limit", .number n => { c with notificationReadLimit := n }
  | "notification_read_window_secs", .number n => { c with notificationReadWindowSecs := n }
  | "log_json", .flag b => { c with logJson := b }
  | _, _ => c

/-- Variables as a process holds them: one set again keeps its place and takes the new
value. -/
def held (environment : List (String × String)) : List (String × String) :=
  environment.foldl
    (fun acc v =>
      if (acc.lookup v.1).isSome then acc.map fun w => if w.1 = v.1 then v else w
      else acc ++ [v])
    []

/-- The configuration that variables give, `from_env`; what they leave open is as in `base`. It must
be one that a hub can run under. -/
def read (base : Settings) (environment : List (String × String)) : Except Fault Settings :=
  match settings (held environment) [] with
  | .error f => .error f
  | .ok given =>
    let c := given.foldl (fun c s => apply c s.1 s.2) base
    match c.validate with
    | .ok () => .ok c
    | .error f => .error (.unfit f)

end RoomRelay.Config.Environment
