import RoomRelay.Fleet
import RoomRelay.Http.Router

/-!
The clients of a fleet: a request that changes to a WebSocket opens a session, in which the
client's messages go to its hub and the texts of its connection to the client.
-/

namespace RoomRelay.Fleet

open WebSocket

def changeSession (f : Fleet) (id : ConnId)
    (op : Session LocalSite → Session LocalSite) : Fleet :=
  { f with sessions := f.sessions.modify id op }

/-- The reader leaves, and `serve_connection` with it: the hub lets the client go, and the
connection is closed. -/
def leave (f : Fleet) (id : ConnId) (s : Session LocalSite) : Fleet × Session LocalSite :=
  let f := f.change s.hub (Site.depart · s.user id)
  (f.changeConnection id Connection.close, { s with reader := .left, inbox := [] })

/-- The reader takes what the client has sent, until there is no more or a text has to wait:
`read_loop`. It leaves when the connection is closed, the deadline has passed, or the client
ends. -/
def read (f : Fleet) (id : ConnId) (s : Session LocalSite) (deadline : Nat) :
    List Incoming → Fleet × Session LocalSite
  | [] =>
    if f.isClosed id ∨ deadline ≤ f.clock ∨ s.gone then f.leave id s
    else (f, { s with inbox := [], reader := .reading deadline })
  | m :: rest =>
    if f.isClosed id ∨ deadline ≤ f.clock then f.leave id s
    else
      match m with
      | .message (.text text) =>
        match f.start s.hub fun site => site.handleText leaseClock s.user id text with
        | (f, some (.waiting e)) =>
          (f, { s with inbox := rest, reader := .handling deadline e })
        | (f, _) => read f id s deadline rest
      | .message (.binary _) =>
        read (f.change s.hub (Site.replyError · id .invalidPayload)) id s deadline rest
      | .message (.ping bytes) => read f id (s.put (.pong bytes)) deadline rest
      | .message (.pong _) => read f id s (f.clock + s.pace.pongWait.nanos) rest
      | .message (.close _) => f.leave id s.putClose
      | .broken => f.leave id s

/-- The reader begins once the client was received; a client that was refused is told so. -/
def receiveClient (f : Fleet) (s : Session LocalSite) : Except Failure Unit → Session LocalSite
  | .ok () =>
    match (f.hub? s.hub).bind (·.config.pingPeriod?) with
    | some _ => s.begin f.clock
    | none => s.abandon
  | .error _ => s.refuse

/-- The reader does what it can at this instant. -/
def runReader (f : Fleet) (id : ConnId) (s : Session LocalSite) : Fleet × Session LocalSite :=
  match s.reader with
  | .left => (f, s)
  | .reading deadline => f.read id s deadline s.inbox
  | .welcoming e =>
    if e.wake ≤ f.clock then
      match f.wake s.hub e with
      | (f, .finished result) => (f, f.receiveClient s result)
      | (f, .waiting e) => (f, { s with reader := .welcoming e })
    else (f, s)
  | .handling deadline e =>
    if e.wake ≤ f.clock then
      match f.wake s.hub e with
      | (f, .finished ()) => f.read id s deadline s.inbox
      | (f, .waiting e) => (f, { s with reader := .handling deadline e })
    else (f, s)

/-- The stream ends once the reader has left and the writer is done. -/
def endIfDone (s : Session LocalSite) : Session LocalSite :=
  match s.reader, s.writer with
  | .left, .done => s.finish
  | _, _ => s

/-- A session does what it can at this instant. -/
def runSession (f : Fleet) (id : ConnId) : Fleet :=
  match f.sessions.get? id with
  | some s =>
    let (f, s) := f.runReader id s
    match f.queues.get? id with
    | some c =>
      let (c, s) := s.runWriter f.clock c
      { f with queues := f.queues.set id c, sessions := f.sessions.set id (endIfDone s) }
    | none => { f with sessions := f.sessions.set id (endIfDone s) }
  | none => f

/-- Answers a request to a hub. -/
def answer (f : Fleet) (name : String) (live : Bool) (r : Http.Request) :
    Fleet × Option Http.Answer :=
  f.visit name fun s => Http.answer s ⟨leaseClock, f.supply.second⟩ live r

/-- Opens the session of a user on a hub. A hub whose queues hold nothing serves no client. -/
def openSession (f : Fleet) (name : String) (config : Config) (user : Uuid) (capacity : Nat)
    (muted : Bool) : Fleet × ConnId :=
  let (f, id) := f.newConnection user config.outboundQueueCapacity
  let session : Session LocalSite :=
    { hub := name, user,
      pace :=
        { pongWait := config.pongWait, pingPeriod := config.pingPeriod?.getD config.pongWait,
          writeWait := config.writeWait },
      assembler := { limit := config.maxMessageBytes }, reader := .left, capacity, muted }
  let (f, session) :=
    if config.outboundQueueCapacity = 0 then (f, session.abandon)
    else
      match f.start name fun site => site.welcome leaseClock user id with
      | (f, some (.waiting e)) => (f, { session with reader := .welcoming e })
      | (f, some (.finished result)) => (f, f.receiveClient session result)
      | (f, none) => (f, session.abandon)
  ({ f with sessions := f.sessions.set id session }, id)

/-- Answers the request of a client, whose wire holds `capacity` octets, and opens its session
when the answer is to change to a WebSocket. -/
def openSocket (f : Fleet) (name : String) (r : Http.Request) (capacity : Nat) (muted : Bool) :
    Fleet × Option Http.Answer × Option ConnId :=
  match f.answer name true r, f.hub? name with
  | (f, some (.upgraded user)), some hub =>
    let (f, id) := f.openSession name hub.config user capacity muted
    (f, some (.upgraded user), some id)
  | (f, answer), _ => (f, answer, none)

end RoomRelay.Fleet
