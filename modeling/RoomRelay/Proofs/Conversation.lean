import RoomRelay.Bus.Memory
import RoomRelay.Hub.Conversation
import RoomRelay.Proofs.Operation

/-!
What comes of a text that a client sends. Handling it may mean questions to the services, and while
one is out the hub belongs to the world, which may change it and may answer late, wrongly or not at
all. Whatever the world does, handling the text pushes and publishes nothing before the last answer,
and then has exactly one outcome: the sender is told of a failure, a room gets an event in the
sender's name, the sender gets a reply, the user gets an event everywhere, or nothing happens.
-/

namespace RoomRelay

/-! ## Procedures in a world -/

/-- A question that was put and answered. -/
structure Exchange (σ : Type) where
  /-- The state when the question went out. -/
  left : σ
  call : Call
  outcome : call.Outcome
  /-- The state when the answer was there. -/
  found : σ

/-- A question with its answer, whatever else happened. -/
abbrev Answered := (c : Call) × c.Outcome

def Exchange.answered {σ : Type} (x : Exchange σ) : Answered := ⟨x.call, x.outcome⟩

/-- The whole of a procedure: its questions in order, and how it ended. -/
structure Course (σ α : Type) where
  asked : List (Exchange σ)
  state : σ
  result : α

/-- The questions of a course with their answers. -/
def Course.answers {σ α : Type} (c : Course σ α) : List Answered := c.asked.map Exchange.answered

/-- The course a procedure takes in a world that answers every call and may change the state
meanwhile. The answers to two questions that are out at once come one after the other. -/
def Procedure.course {ω σ α : Type} (answer : ω → σ → (c : Call) → ω × c.Outcome × σ) (w : ω) :
    Procedure σ α → Course σ α
  | done s a => ⟨[], s, a⟩
  | ask s call resume =>
    let (w, r, t) := answer w s call
    let rest := course answer w (resume t r)
    { rest with asked := ⟨s, call, r, t⟩ :: rest.asked }
  | askBoth s first second resume =>
    let (w, r, t) := answer w s first
    let (w, q, u) := answer w t second
    let rest := course answer w (resume u r q)
    { rest with asked := ⟨s, first, r, t⟩ :: ⟨t, second, q, u⟩ :: rest.asked }

namespace Site

variable {β : Type}

/-- Nothing was pushed and nothing published, and nobody came, went or turned to another room. -/
structure Quiet (s t : Site β) : Prop where
  delivers : s.Delivers .none t
  queues : t.queues = s.queues
  bus : t.bus = s.bus

theorem Quiet.refl (s : Site β) : s.Quiet s := ⟨.refl s, rfl, rfl⟩

/-- Between the questions of a course that begins with `s` nothing happened but what the world
did. -/
def QuietUpTo (s : Site β) : List (Exchange (Site β)) → Prop
  | [] => True
  | x :: rest => s.Quiet x.left ∧ x.found.QuietUpTo rest

/-- Where the work after the last answer begins; with no question, where all of it does. -/
def resumedFrom (s : Site β) : List (Exchange (Site β)) → Site β
  | [] => s
  | x :: rest => x.found.resumedFrom rest

end Site

/-! ## Outcomes -/

/-- What may come of a text. -/
inductive TextOutcome where
  /-- The sender is told that its command failed. -/
  | refused (code : ErrorCode)
  /-- A room gets an event. -/
  | toRoom (room : Uuid) (e : Event)
  /-- The sender gets an event in reply. -/
  | toSender (e : Event)
  /-- All the user's connections get an event, on every hub. -/
  | toUser (e : Event)
  | nothing

/-- The room that a command is about. -/
def Command.room? : Command → Option Uuid
  | typing room _ | read room => some room
  | _ => none

/-- What a command comes to when all it asks is answered: which questions it puts, in order, and
what it makes of the answers. -/
inductive Command.Yields (user : Uuid) : Command → List Answered → TextOutcome → Prop
  | typing {room : Uuid} {isTyping : Bool} :
    Yields user (.typing room isTyping) [] (.toRoom room (.typing room user isTyping))
  /-- The room hears of the instant up to which the services recorded the room as read. -/
  | read {room : Uuid} {readAt : Timestamp} :
    Yields user (.read room) [⟨.markRoomRead room user, .ok readAt⟩]
      (.toRoom room (.read room user readAt))
  | sync {p : SyncParams} {unread : Int} {items : List Notification} :
    Yields user (.notificationSync p)
      [⟨.unreadCount user, .ok unread⟩,
        ⟨.notifications user p.limit p.offset p.unreadOnly, .ok items⟩]
      (.toSender (.notificationSync unread items p.limit p.offset))
  | markRead {id : Uuid} {unread : Int} :
    Yields user (.notificationRead id) [⟨.markRead user id, .ok ()⟩, ⟨.unreadCount user, .ok unread⟩]
      (.toUser (.notificationRead unread [id]))
  | markAllRead {changed : Nat} {unread : Int} :
    Yields user .notificationReadAll
      [⟨.markAllRead user, .ok changed⟩, ⟨.unreadCount user, .ok unread⟩]
      (.toUser (.notificationReadAll unread))
  | unknown {kind : String} : Yields user (.unknown kind) [] .nothing

namespace Site

variable {β : Type}

/-- A command that is within its budget. -/
def Affords (s : Site β) (now : Nat) (user : Uuid) (c : Command) : Prop :=
  ∀ b, c.budget? = some b → ((b.limiter s.hub).allow user.text now).2 = true

/-- Whether a user listens to the room of a command, if the command is about one. -/
def Hears (s : Site β) (user : Uuid) (c : Command) : Prop :=
  ∀ room, c.room? = some room → s.hub.registry.isListening room user = true

/-- The reasons for each outcome of a command, given what was asked and answered. -/
inductive Judges (s : Site β) (now : Nat) (user : Uuid) (c : Command) :
    List Answered → TextOutcome → Prop
  /-- The user is over the limit, and nothing is asked. -/
  | limited {b : Budget} (budget : c.budget? = some b)
    (exceeds : ((b.limiter s.hub).allow user.text now).2 = false) :
    Judges s now user c [] (.refused b.code)
  /-- The user does not listen to the room, and nothing is asked. -/
  | deaf (affords : s.Affords now user c) (deaf : ¬s.Hears user c) :
    Judges s now user c [] (.refused .notSubscribed)
  /-- A question failed. -/
  | unanswered {answers : List Answered} (affords : s.Affords now user c) (hears : s.Hears user c)
    (failed : ∃ x ∈ answers, x.2.isOk = false) :
    Judges s now user c answers (.refused .internalError)
  /-- All went well. -/
  | done {answers : List Answered} {o : TextOutcome} (affords : s.Affords now user c)
    (hears : s.Hears user c) (yields : c.Yields user answers o) : Judges s now user c answers o

/-- The reasons for each outcome of a text: it is no command, and nothing is asked, or it is the
command that the outcome is one of. -/
inductive Explains (s : Site β) (now : Nat) (user : Uuid) (text : String) :
    List Answered → TextOutcome → Prop
  | malformed {code : ErrorCode} (parsed : Command.parse text = .error code) :
    Explains s now user text [] (.refused code)
  | command {c : Command} {answers : List Answered} {o : TextOutcome}
    (parsed : Command.parse text = .ok c) (judges : s.Judges now user c answers o) :
    Explains s now user text answers o

end Site

/-- What an outcome does to a hub: `t` is `s` once it has happened. A fan-out to a room or a user
reaches each connection once because in a sound registry none stands twice. -/
def TextOutcome.Happens {β : Type} [SharedBus β] (user : Uuid) (id : ConnId) (s t : Site β) :
    TextOutcome → Prop
  | .refused code => s.Delivers ⟨(Event.error code.name).render, [id]⟩ t ∧ t.bus = s.bus
  | .toRoom room e =>
    (s.hub.registry.Sound s.owner → s.Delivers (s.broadcastFanOut room e) t) ∧
      t.bus = s.bus.map fun b => (SharedBus.publish b (Site.roomMessage room e.render)).1
  | .toSender e => s.Delivers ⟨e.render, [id]⟩ t ∧ t.bus = s.bus
  | .toUser e =>
    (s.hub.registry.Sound s.owner →
        s.Delivers ⟨e.render, s.hub.registry.connectionsOf user⟩ t) ∧
      t.bus = s.bus.map fun b => (SharedBus.publish b ⟨Channel.userEvents,
        (UserEnvelope.ofEvent s.hub.instanceId user e).toValue.render⟩).1
  | .nothing => s.Quiet t

namespace Site

variable {β : Type} [SharedBus β]

/-- How a text is handled: `c` is the course that handling it on `s` took. -/
structure Handles (s : Site β) (now : Nat) (user : Uuid) (id : ConnId) (text : String)
    (c : Course (Site β) Unit) : Prop where
  /-- Before the last answer nothing happens but what the world does. -/
  quietBefore : s.QuietUpTo c.asked
  /-- Nor do connections, rooms or presence change after it. -/
  alike : (s.resumedFrom c.asked).hub.AlikeButCounts c.state.hub
  /-- So, unless the world changes the hub meanwhile, they are all as they were. -/
  unchanged : (∀ x ∈ c.asked, x.found = x.left) → s.hub.AlikeButCounts c.state.hub
  /-- There is one outcome that the text and the answers account for, and it is what happens. -/
  outcome : ∃! o, s.Explains now user text c.answers o ∧
    o.Happens user id (s.resumedFrom c.asked) c.state
  /-- A room gets events only in the name of the sender, who listens to it here. -/
  inOwnName : ∀ room e, s.Explains now user text c.answers (.toRoom room e) →
    e.senderId = some user ∧ e.roomId = some room ∧ s.hub.registry.isListening room user = true

end Site

/-! ## One outcome at most -/

theorem Command.Yields.answered {user : Uuid} {c : Command} {answers : List Answered}
    {o : TextOutcome} (yields : c.Yields user answers o) : ∀ x ∈ answers, x.2.isOk = true := by
  cases yields <;> simp [Except.isOk, Except.toBool]

theorem Command.Yields.unique {user : Uuid} {c : Command} {answers : List Answered}
    {o o' : TextOutcome} (one : c.Yields user answers o) (other : c.Yields user answers o') :
    o = o' := by
  cases one <;> cases other <;> rfl

namespace Site

variable {β : Type} {s t u : Site β} {now : Nat} {user : Uuid} {text : String}
  {answers : List Answered} {o o' : TextOutcome}

/-- A command and the answers account for one outcome at most: each reason but the last denies one
of those that come after it. -/
theorem Judges.unique {c : Command} (one : s.Judges now user c answers o)
    (other : s.Judges now user c answers o') : o = o' := by
  have overdrawn : ∀ {b : Budget}, c.budget? = some b →
      ((b.limiter s.hub).allow user.text now).2 = false → ¬s.Affords now user c := by
    intro b budget exceeds affords
    rw [affords b budget] at exceeds
    cases exceeds
  have contradicts : ∀ {o : TextOutcome}, c.Yields user answers o →
      ¬∃ x ∈ answers, x.2.isOk = false := by
    rintro o yields ⟨x, member, failed⟩
    rw [yields.answered x member] at failed
    cases failed
  cases one with
  | limited budget exceeds =>
    cases other with
    | limited budget' =>
      cases budget.symm.trans budget'
      rfl
    | deaf affords => exact absurd affords (overdrawn budget exceeds)
    | unanswered affords => exact absurd affords (overdrawn budget exceeds)
    | done affords => exact absurd affords (overdrawn budget exceeds)
  | deaf affords deaf =>
    cases other with
    | limited budget exceeds => exact absurd affords (overdrawn budget exceeds)
    | deaf => rfl
    | unanswered _ hears => exact absurd hears deaf
    | done _ hears => exact absurd hears deaf
  | unanswered affords hears failed =>
    cases other with
    | limited budget exceeds => exact absurd affords (overdrawn budget exceeds)
    | deaf _ deaf => exact absurd hears deaf
    | unanswered => rfl
    | done _ _ yields => exact absurd failed (contradicts yields)
  | done affords hears yields =>
    cases other with
    | limited budget exceeds => exact absurd affords (overdrawn budget exceeds)
    | deaf _ deaf => exact absurd hears deaf
    | unanswered _ _ failed => exact absurd failed (contradicts yields)
    | done _ _ yields' => exact yields.unique yields'

/-- So do a text and the answers: the text is one command at most. -/
theorem Explains.unique (one : s.Explains now user text answers o)
    (other : s.Explains now user text answers o') : o = o' := by
  cases one with
  | malformed parsed =>
    cases other with
    | malformed parsed' =>
      cases parsed.symm.trans parsed'
      rfl
    | command parsed' => cases parsed.symm.trans parsed'
  | command parsed judges =>
    cases other with
    | malformed parsed' => cases parsed.symm.trans parsed'
    | command parsed' judges' =>
      cases parsed.symm.trans parsed'
      exact judges.unique judges'

/-! ## Quiet steps -/

theorem Quiet.trans (first : s.Quiet t) (then_ : t.Quiet u) : s.Quiet u :=
  ⟨first.delivers.after first.queues then_.delivers, then_.queues.trans first.queues,
    then_.bus.trans first.bus⟩

private theorem Quiet.delivers_after (quiet : s.Quiet t) {f : FanOut} (delivers : t.Delivers f u) :
    s.Delivers f u :=
  quiet.delivers.after quiet.queues delivers

theorem Quiet.owner (quiet : s.Quiet t) : t.owner = s.owner := by
  funext id
  simp only [Site.owner, quiet.queues]

variable [SharedBus β]

theorem Quiet.broadcastFanOut (quiet : s.Quiet t) (room : Uuid) (e : Event) :
    t.broadcastFanOut room e = s.broadcastFanOut room e := by
  have alike := quiet.delivers.alike
  have listeners := alike.listeners room
  have connections := funext alike.connectionsOf
  unfold Site.broadcastFanOut deliversOnsite Registry.recipients
  rw [quiet.bus, alike.subscribed, listeners, connections]

/-- What happens after a quiet step, happens from before that step. -/
private theorem Quiet.happens (quiet : s.Quiet t) {id : ConnId} (happens : o.Happens user id t u) :
    o.Happens user id s u := by
  have alike := quiet.delivers.alike
  have sound : s.hub.registry.Sound s.owner → t.hub.registry.Sound t.owner := by
    intro sound
    rw [quiet.owner]
    exact alike.sound sound
  cases o with
  | refused code => exact ⟨quiet.delivers_after happens.1, happens.2.trans quiet.bus⟩
  | toRoom room e =>
    refine ⟨fun was => ?_, ?_⟩
    · rw [← quiet.broadcastFanOut room e]
      exact quiet.delivers_after (happens.1 (sound was))
    · rw [← quiet.bus]
      exact happens.2
  | toSender e => exact ⟨quiet.delivers_after happens.1, happens.2.trans quiet.bus⟩
  | toUser e =>
    have named : t.hub.instanceId = s.hub.instanceId := congrArg (·.instanceId) alike.config
    refine ⟨fun was => ?_, ?_⟩
    · rw [← alike.connectionsOf user]
      exact quiet.delivers_after (happens.1 (sound was))
    · rw [← quiet.bus, ← named]
      exact happens.2
  | nothing => exact quiet.trans happens

/-! ## Replies and charges -/

private theorem reply_happens (s : Site β) (user : Uuid) (id : ConnId) (e : Event) :
    (TextOutcome.toSender e).Happens user id s (s.reply id e) :=
  ⟨pushTo_delivers s id e.render, pushTo_bus s id e.render⟩

private theorem replyError_happens (s : Site β) (user : Uuid) (id : ConnId) (code : ErrorCode) :
    (TextOutcome.refused code).Happens user id s (s.replyError id code) :=
  ⟨pushTo_delivers s id _, pushTo_bus s id _⟩

private theorem broadcast_happens (s : Site β) (user : Uuid) (id : ConnId) (room : Uuid)
    (e : Event) :
    (TextOutcome.toRoom room e).Happens user id s (s.broadcast room e).1 :=
  ⟨fun sound => broadcast_delivers sound room e, broadcast_bus s room e⟩

private theorem sendToUser_happens (s : Site β) (user : Uuid) (id : ConnId) (e : Event) :
    (TextOutcome.toUser e).Happens user id s (s.sendToUser user e).1 :=
  ⟨fun sound => sendToUser_delivers sound user e, sendToUser_bus s user e⟩

private theorem setLimiter_keeps (h : Hub) (r : RateWindow) (b : Budget) :
    h.AlikeButCounts (b.setLimiter h r) ∧ (b.setLimiter h r).registry = h.registry ∧
      (b.setLimiter h r).meters = h.meters := by
  cases b <;> exact ⟨⟨rfl, rfl, rfl, rfl, rfl, rfl, rfl⟩, rfl, rfl⟩

omit [SharedBus β] in
/-- Charging a command is a quiet step, and says whether the command is within its budget. -/
theorem charge_quiet (s : Site β) (now : Nat) (user : Uuid) (name : String) (b : Budget) :
    s.Quiet (s.charge now user name b).1 ∧
      (s.charge now user name b).2 = ((b.limiter s.hub).allow user.text now).2 := by
  let allowed := (b.limiter s.hub).allow user.text now
  obtain ⟨alike, registry, meters⟩ := setLimiter_keeps s.hub allowed.1 b
  refine ⟨⟨?_, rfl, rfl⟩, rfl⟩
  have charged : (s.charge now user name b).1.hub =
      if allowed.2 then b.setLimiter s.hub allowed.1
      else { b.setLimiter s.hub allowed.1 with
        meters := (b.setLimiter s.hub allowed.1).meters.commandLimited name } := rfl
  cases within : allowed.2 with
  | true =>
    simp only [within, if_true] at charged
    exact .quiet (charged ▸ alike) rfl (by rw [charged, registry]) (by rw [charged, meters])
  | false =>
    -- the refusal is counted under the name of the command
    simp only [within, Bool.false_eq_true, if_false] at charged
    refine .quiet ?_ rfl (by rw [charged, ← registry]) ?_
    · rw [charged]
      exact alike.trans ⟨rfl, rfl, rfl, rfl, rfl, rfl, rfl⟩
    · rw [charged, ← meters]
      rfl

/-! ## Courses -/

variable {id : ConnId} {c : Course (Site β) Unit}

/-- A course that begins with `s` is quiet up to the last answer, and then `o` happens. -/
structure Concludes (s : Site β) (user : Uuid) (id : ConnId) (c : Course (Site β) Unit)
    (o : TextOutcome) : Prop where
  quietBefore : s.QuietUpTo c.asked
  alike : (s.resumedFrom c.asked).hub.AlikeButCounts c.state.hub
  happens : o.Happens user id (s.resumedFrom c.asked) c.state

private theorem replyError_concludes (s : Site β) (user : Uuid) (id : ConnId) (code : ErrorCode) :
    s.Concludes user id ⟨[], s.replyError id code, ()⟩ (.refused code) :=
  ⟨trivial, (replyError_happens s user id code).1.alike, replyError_happens s user id code⟩

private theorem reply_concludes (s : Site β) (user : Uuid) (id : ConnId) (e : Event) :
    s.Concludes user id ⟨[], s.reply id e, ()⟩ (.toSender e) :=
  ⟨trivial, (reply_happens s user id e).1.alike, reply_happens s user id e⟩

private theorem broadcast_concludes (s : Site β) (user : Uuid) (id : ConnId) (room : Uuid)
    (e : Event) :
    s.Concludes user id ⟨[], (s.broadcast room e).1, ()⟩ (.toRoom room e) :=
  ⟨trivial, broadcast_alike s room e, broadcast_happens s user id room e⟩

private theorem sendToUser_concludes (s : Site β) (user : Uuid) (id : ConnId) (e : Event) :
    s.Concludes user id ⟨[], (s.sendToUser user e).1, ()⟩ (.toUser e) :=
  ⟨trivial, sendToUser_alike s user e, sendToUser_happens s user id e⟩

/-- A question put at once takes nothing from the course after it. -/
theorem Concludes.ask {call : Call} {r : call.Outcome} (rest : t.Concludes user id c o) :
    s.Concludes user id ⟨⟨s, call, r, t⟩ :: c.asked, c.state, c.result⟩ o :=
  ⟨⟨.refl s, rest.quietBefore⟩, rest.alike, rest.happens⟩

theorem Concludes.after (quiet : s.Quiet t) (concludes : t.Concludes user id c o) :
    s.Concludes user id c o := by
  obtain ⟨asked, state, result⟩ := c
  obtain ⟨quietBefore, alike, happens⟩ := concludes
  cases asked with
  | nil => exact ⟨trivial, quiet.delivers.alike.trans alike, quiet.happens happens⟩
  | cons x rest => exact ⟨⟨quiet.trans quietBefore.1, quietBefore.2⟩, alike, happens⟩

variable {ω : Type} {answer : ω → Site β → (c : Call) → ω × c.Outcome × Site β} {w : ω}

/-- Counting what is unread for all the user's connections: one question, then one event. -/
private theorem sendUnread_concludes (s : Site β) (user : Uuid) (id : ConnId) (event : Int → Event)
    (answer : ω → Site β → (c : Call) → ω × c.Outcome × Site β) (w : ω) :
    ∃ r o, s.Concludes user id (((s.sendUnread user event).andThen (conclude id)).course answer w) o ∧
      (((s.sendUnread user event).andThen (conclude id)).course answer w).answers =
        [⟨.unreadCount user, r⟩] ∧
      ((∃ unread, r = .ok unread ∧ o = .toUser (event unread)) ∨
        r.isOk = false ∧ o = .refused .internalError) := by
  simp only [sendUnread, Procedure.andThen, Procedure.course]
  obtain ⟨w', r, t⟩ := answer w s (.unreadCount user)
  cases r with
  | ok unread =>
    exact ⟨.ok unread, _, (sendToUser_concludes t user id (event unread)).ask, rfl,
      .inl ⟨unread, rfl, rfl⟩⟩
  | error f => exact ⟨.error f, _, (replyError_concludes t user id _).ask, rfl, .inr ⟨rfl, rfl⟩⟩

/-- How carrying out a command ends: the user does not listen to its room, or a question failed, or
it comes to what its answers say. -/
structure Performs (s : Site β) (user : Uuid) (id : ConnId) (cmd : Command)
    (c : Course (Site β) Unit) (o : TextOutcome) : Prop where
  concludes : s.Concludes user id c o
  reason : (¬s.Hears user cmd ∧ c.answers = [] ∧ o = .refused .notSubscribed) ∨
    (s.Hears user cmd ∧ (∃ x ∈ c.answers, x.2.isOk = false) ∧ o = .refused .internalError) ∨
    (s.Hears user cmd ∧ cmd.Yields user c.answers o)

/-- A command that is about a room is refused to those who do not listen there. -/
private theorem deaf_performs {cmd : Command} {room : Uuid} (about : cmd.room? = some room)
    (deaf : ¬s.hub.registry.isListening room user = true) :
    s.Performs user id cmd ⟨[], s.replyError id .notSubscribed, ()⟩ (.refused .notSubscribed) :=
  ⟨replyError_concludes s user id _, .inl ⟨fun hears => deaf (hears room about), rfl, rfl⟩⟩

/-- Marking and then counting: a second question after one that was answered. -/
private theorem sendUnread_performs {cmd : Command} {call : Call} {r : call.Outcome}
    (hears : s.Hears user cmd) (event : Int → Event)
    (yields : ∀ unread, cmd.Yields user [⟨call, r⟩, ⟨.unreadCount user, .ok unread⟩]
      (.toUser (event unread))) (w : ω) :
    let rest := ((t.sendUnread user event).andThen (conclude id)).course answer w
    ∃ o, s.Performs user id cmd ⟨⟨s, call, r, t⟩ :: rest.asked, rest.state, rest.result⟩ o := by
  intro rest
  obtain ⟨q, o, concludes, asked, reason⟩ := sendUnread_concludes t user id event answer w
  have answers : (⟨⟨s, call, r, t⟩ :: rest.asked, rest.state, rest.result⟩ :
      Course (Site β) Unit).answers = [⟨call, r⟩, ⟨.unreadCount user, q⟩] := by
    rw [← asked]
    rfl
  refine ⟨o, concludes.ask, ?_⟩
  rw [answers]
  rcases reason with ⟨unread, rfl, rfl⟩ | ⟨failed, rfl⟩
  · exact .inr (.inr ⟨hears, yields unread⟩)
  · exact .inr (.inl ⟨hears, ⟨_, List.mem_cons_of_mem _ List.mem_cons_self, failed⟩, rfl⟩)

private theorem perform_performs (s : Site β) (user : Uuid) (id : ConnId) (cmd : Command)
    (answer : ω → Site β → (c : Call) → ω × c.Outcome × Site β) (w : ω) :
    ∃ o, s.Performs user id cmd (((s.perform user id cmd).andThen (conclude id)).course answer w) o := by
  cases cmd with
  | typing room isTyping =>
    by_cases hears : s.hub.registry.isListening room user = true
    · have listens : s.Hears user (.typing room isTyping) := by rintro _ ⟨rfl⟩; exact hears
      simp only [perform, hears, if_true, Procedure.andThen, Procedure.course, conclude]
      exact ⟨_, broadcast_concludes .., .inr (.inr ⟨listens, .typing⟩)⟩
    · simp only [perform, hears, Bool.false_eq_true, if_false, Procedure.andThen, Procedure.course,
        conclude]
      exact ⟨_, deaf_performs rfl hears⟩
  | read room =>
    by_cases hears : s.hub.registry.isListening room user = true
    · have listens : s.Hears user (.read room) := by rintro _ ⟨rfl⟩; exact hears
      simp only [perform, hears, if_true, Procedure.andThen, Procedure.course]
      obtain ⟨w', r, t⟩ := answer w s (.markRoomRead room user)
      cases r with
      | ok readAt =>
        exact ⟨_, (broadcast_concludes t user id room _).ask, .inr (.inr ⟨listens, .read⟩)⟩
      | error f =>
        exact ⟨_, (replyError_concludes t user id _).ask,
          .inr (.inl ⟨listens, ⟨_, List.mem_cons_self, rfl⟩, rfl⟩)⟩
    · simp only [perform, hears, Bool.false_eq_true, if_false, Procedure.andThen, Procedure.course,
        conclude]
      exact ⟨_, deaf_performs rfl hears⟩
  | notificationSync p =>
    have roomless : s.Hears user (.notificationSync p) := fun _ none => nomatch none
    simp only [perform, sendSync, Procedure.andThen, Procedure.course]
    obtain ⟨w', r, t⟩ := answer w s (.unreadCount user)
    obtain ⟨w'', q, u⟩ := answer w' t (.notifications user p.limit p.offset p.unreadOnly)
    cases r with
    | error f =>
      exact ⟨_, ((replyError_concludes u user id _).ask).ask,
        .inr (.inl ⟨roomless, ⟨_, List.mem_cons_self, rfl⟩, rfl⟩)⟩
    | ok unread =>
      cases q with
      | error f =>
        exact ⟨_, ((replyError_concludes u user id _).ask).ask, .inr (.inl ⟨roomless,
          ⟨_, List.mem_cons_of_mem _ List.mem_cons_self, rfl⟩, rfl⟩)⟩
      | ok items =>
        exact ⟨_, ((reply_concludes u user id _).ask).ask, .inr (.inr ⟨roomless, .sync⟩)⟩
  | notificationRead notification =>
    have roomless : s.Hears user (.notificationRead notification) := fun _ none => nomatch none
    simp only [perform, Procedure.andThen, Procedure.course]
    obtain ⟨w', r, t⟩ := answer w s (.markRead user notification)
    cases r with
    | error f =>
      exact ⟨_, (replyError_concludes t user id _).ask,
        .inr (.inl ⟨roomless, ⟨_, List.mem_cons_self, rfl⟩, rfl⟩)⟩
    | ok marked => exact sendUnread_performs roomless _ (fun _ => .markRead) w'
  | notificationReadAll =>
    have roomless : s.Hears user .notificationReadAll := fun _ none => nomatch none
    simp only [perform, Procedure.andThen, Procedure.course]
    obtain ⟨w', r, t⟩ := answer w s (.markAllRead user)
    cases r with
    | error f =>
      exact ⟨_, (replyError_concludes t user id _).ask,
        .inr (.inl ⟨roomless, ⟨_, List.mem_cons_self, rfl⟩, rfl⟩)⟩
    | ok changed => exact sendUnread_performs roomless _ (fun _ => .markAllRead) w'
  | unknown kind =>
    have roomless : s.Hears user (.unknown kind) := fun _ none => nomatch none
    exact ⟨.nothing, ⟨trivial, .refl s.hub, .refl s⟩, .inr (.inr ⟨roomless, .unknown⟩)⟩

/-! ## Whole texts -/

omit [SharedBus β] in
private theorem Quiet.hears_iff (quiet : s.Quiet t) (cmd : Command) :
    t.Hears user cmd ↔ s.Hears user cmd := by
  have same := quiet.delivers.alike.listeners
  simp only [Hears, Registry.isListening, same]

/-- A text is handled with one outcome, which the text and the answers account for. -/
theorem handleText_concludes (s : Site β) (now : Nat) (user : Uuid) (id : ConnId) (text : String)
    (answer : ω → Site β → (c : Call) → ω × c.Outcome × Site β) (w : ω) :
    let c := (s.handleText now user id text).course answer w
    ∃ o, s.Concludes user id c o ∧ s.Explains now user text c.answers o := by
  cases parsed : Command.parse text with
  | error code =>
    simp only [handleText, parsed, Procedure.course]
    exact ⟨_, replyError_concludes s user id code, .malformed parsed⟩
  | ok cmd =>
    -- what remains of it once the command was charged, if it has to be
    have carriedOut : ∀ t, s.Quiet t → s.Affords now user cmd →
        ∃ o, s.Concludes user id (((t.perform user id cmd).andThen (conclude id)).course answer w) o ∧
          s.Judges now user cmd
            (((t.perform user id cmd).andThen (conclude id)).course answer w).answers o := by
      intro t quiet affords
      obtain ⟨o, concludes, reason⟩ := perform_performs t user id cmd answer w
      refine ⟨o, concludes.after quiet, ?_⟩
      rw [quiet.hears_iff] at reason
      rcases reason with ⟨deaf, none, rfl⟩ | ⟨hears, failed, rfl⟩ | ⟨hears, yields⟩
      · exact none ▸ .deaf affords deaf
      · exact .unanswered affords hears failed
      · exact .done affords hears yields
    simp only [handleText, parsed, execute]
    cases budget : cmd.budget? with
    | none =>
      have free : s.Affords now user cmd := fun b is => by rw [budget] at is; cases is
      obtain ⟨o, concludes, judges⟩ := carriedOut s (.refl s) free
      exact ⟨o, concludes, .command parsed judges⟩
    | some b =>
      obtain ⟨quiet, allowed⟩ := charge_quiet s now user cmd.name b
      rcases charged : s.charge now user cmd.name b with ⟨t, within⟩
      rw [charged] at quiet allowed
      simp only [charged]
      cases within with
      | true =>
        have affords : s.Affords now user cmd := by
          intro b' is
          cases budget.symm.trans is
          exact allowed.symm
        obtain ⟨o, concludes, judges⟩ := carriedOut t quiet affords
        exact ⟨o, concludes, .command parsed judges⟩
      | false =>
        exact ⟨_, (replyError_concludes t user id b.code).after quiet,
          .command parsed (.limited budget allowed.symm)⟩

omit [SharedBus β] in
/-- In a world that leaves the hub alone, all is still as it was after the last answer. -/
theorem QuietUpTo.alike {asked : List (Exchange (Site β))} (quiet : s.QuietUpTo asked)
    (idle : ∀ x ∈ asked, x.found = x.left) :
    s.hub.AlikeButCounts (s.resumedFrom asked).hub := by
  induction asked generalizing s with
  | nil => exact .refl s.hub
  | cons x rest ih =>
    obtain ⟨before, between⟩ := quiet
    rw [idle x List.mem_cons_self] at between
    have after := ih between fun y member => idle y (List.mem_cons_of_mem x member)
    simp only [resumedFrom, idle x List.mem_cons_self]
    exact before.delivers.alike.trans after

omit [SharedBus β] in
theorem Explains.inOwnName {room : Uuid} {e : Event}
    (explains : s.Explains now user text answers (.toRoom room e)) :
    e.senderId = some user ∧ e.roomId = some room ∧
      s.hub.registry.isListening room user = true := by
  cases explains with
  | command _ judges =>
    cases judges with
    | done _ hears yields =>
      cases yields with
      | typing => exact ⟨rfl, rfl, hears room rfl⟩
      | read => exact ⟨rfl, rfl, hears room rfl⟩

/-- A hub without a bus, where user 7 has two connections. -/
def twiceConnected : Site MemoryBus :=
  ({ hub := .start (.trial ⟨1⟩) 0
     queues := [(⟨0⟩, { user := ⟨7⟩, capacity := 4 }), (⟨1⟩, { user := ⟨7⟩, capacity := 4 })]
     bus := none } : Site MemoryBus).run [.roster (.register 0 ⟨0⟩), .roster (.register 0 ⟨1⟩)]

/-- Services that mark two notifications, and while they do so the second connection goes. -/
def secondGoes (_ : Unit) (s : Site MemoryBus) : (call : Call) → Unit × call.Outcome × Site MemoryBus
  | .markAllRead _ => ((), .ok 2, (s.unregister ⟨7⟩ ⟨1⟩).1)
  | .unreadCount _ => ((), .ok 0, s)
  | .roomsOf _ | .notifications .. | .markRoomRead .. | .markRead .. =>
    ((), .error .unauthorized, s)

end Site

end RoomRelay
