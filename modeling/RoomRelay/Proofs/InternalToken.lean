import RoomRelay.Proofs.RoomSubscriptions

/-!
Requests without the internal token. A hub looks at the token of a request for the other services
before its method, the identifiers in its path, its query or its body. Main statement: whoever does
not present the configured token, octet for octet, is told so, and nothing happens to the hub. Hence
such requests may be left out of any run of a hub, and it ends up the same.
-/

namespace RoomRelay

/-! ## The token of a request -/

namespace Http

/-- The value of the first header of a name, whatever its case, is `value`. -/
inductive Header.First (name value : String) : List Header → Prop where
  | here {h : Header} {rest : List Header} (named : Text.agreesIgnoringCase h.name name)
    (holds : h.value = value) : First name value (h :: rest)
  | later {h : Header} {rest : List Header} (unlike : ¬Text.agreesIgnoringCase h.name name)
    (first : First name value rest) : First name value (h :: rest)

/-- Characters of visible ASCII, where spaces and tabs count as visible. -/
def Visible (c : Char) : Prop := (0x20 ≤ c.toNat ∧ c.toNat < 0x7F) ∨ c = '\t'

/-- The ways in which the headers of a request fail to present the configured token. -/
inductive LacksToken (configured : String) (headers : List Header) : Prop where
  /-- There is none to present. -/
  | unconfigured (empty : configured = "")
  | missing (absent : ∀ h ∈ headers, ¬Text.agreesIgnoringCase h.name internalTokenHeader)
  | illegible {value : String} (first : Header.First internalTokenHeader value headers) {c : Char}
    (holds : c ∈ value.toList) (strange : ¬Visible c)
  | otherLength {value : String} (first : Header.First internalTokenHeader value headers)
    (length : value.toUTF8.size ≠ configured.toUTF8.size)
  | otherOctet {value : String} (first : Header.First internalTokenHeader value headers) {i : Nat}
    {presented expected : UInt8} (here : value.toUTF8[i]? = some presented)
    (there : configured.toUTF8[i]? = some expected) (differ : presented ≠ expected)

variable {name value configured : String} {headers : List Header} {r : Request}

private theorem Header.value?_eq_none :
    value? name headers = none ↔ ∀ h ∈ headers, ¬Text.agreesIgnoringCase h.name name := by
  rw [value?, Option.map_eq_none_iff, List.find?_eq_none]

private theorem Header.value?_eq_some :
    value? name headers = some value ↔ First name value headers := by
  induction headers with
  | nil => exact iff_of_false nofun nofun
  | cons h rest ih =>
    by_cases named : Text.agreesIgnoringCase h.name name
    · have found : value? name (h :: rest) = some h.value := by
        simp only [value?, List.find?_cons, named, Option.map_some]
      rw [found, Option.some.injEq]
      constructor
      · exact fun holds => .here named holds
      · intro first
        cases first with
        | here _ holds => exact holds
        | later unlike => exact absurd named unlike
    · have passed : value? name (h :: rest) = value? name rest := by
        simp only [value?, List.find?_cons, Bool.eq_false_iff.mpr named]
      rw [passed, ih]
      constructor
      · exact fun first => .later named first
      · intro first
        cases first with
        | here agrees => exact absurd agrees named
        | later _ first => exact first

private theorem Header.isText_iff : isText value = true ↔ ∀ c ∈ value.toList, Visible c := by
  simp [isText, Visible]

private theorem isAuthorized_iff :
    isAuthorized configured r = true ↔ configured ≠ "" ∧
      Header.First internalTokenHeader configured r.headers ∧
        ∀ c ∈ configured.toList, Visible c := by
  rw [← Header.value?_eq_some, ← Header.isText_iff]
  simp [isAuthorized, Header.text?, Option.filter_eq_some_iff]

theorem Header.First.unique {other : String} (one : First name value headers)
    (two : First name other headers) : value = other :=
  Option.some.inj ((value?_eq_some.mpr one).symm.trans (value?_eq_some.mpr two))

/-- Texts that differ do so in the number of their octets or in one octet. -/
private theorem octets_differ {x y : String} (different : x ≠ y)
    (length : x.toUTF8.size = y.toUTF8.size) :
    ∃ (i : Nat) (a b : UInt8), x.toUTF8[i]? = some a ∧ y.toUTF8[i]? = some b ∧ a ≠ b := by
  by_contra alike
  push Not at alike
  refine different (String.toByteArray_inj.mp (ByteArray.ext_getElem length fun i h h' => ?_))
  exact alike i _ _ (getElem?_pos x.toUTF8 i h) (getElem?_pos y.toUTF8 i h')

/-- A request is let in exactly when it does not lack the token. -/
private theorem lacksToken_iff :
    LacksToken configured r.headers ↔ isAuthorized configured r = false := by
  rw [← Bool.not_eq_true, isAuthorized_iff]
  constructor
  · rintro lacks ⟨nonempty, token, legible⟩
    cases lacks with
    | unconfigured empty => exact nonempty empty
    | missing absent =>
      have found := Header.value?_eq_some.mpr token
      rw [Header.value?_eq_none.mpr absent] at found
      cases found
    | illegible first holds strange => exact strange (legible _ (first.unique token ▸ holds))
    | otherLength first length => exact length (first.unique token ▸ rfl)
    | otherOctet first here there differ =>
      rw [first.unique token, there] at here
      exact differ (Option.some.inj here).symm
  · intro refused
    by_cases empty : configured = ""
    · exact .unconfigured empty
    cases found : Header.value? internalTokenHeader r.headers with
    | none => exact .missing (Header.value?_eq_none.mp found)
    | some value =>
      have first := Header.value?_eq_some.mp found
      by_cases length : value.toUTF8.size = configured.toUTF8.size
      · by_cases same : value = configured
        · subst same
          -- The text is right, so it must be its characters that are not let through.
          have illegible : ¬∀ c ∈ value.toList, Visible c :=
            fun legible => refused ⟨empty, first, legible⟩
          push Not at illegible
          obtain ⟨c, holds, strange⟩ := illegible
          exact .illegible first holds strange
        · obtain ⟨i, a, b, here, there, differ⟩ := octets_differ same length
          exact .otherOctet first here there differ
      · exact .otherLength first length

/-! ## Paths for the other services -/

/-- The paths that lead to a route for the other services, by their parts between slashes. -/
inductive InternalPath : List String → Prop where
  | presence : InternalPath ["", "internal", "presence"]
  | roomEvents (room : String) : InternalPath ["", "internal", "rooms", room, "events"]
  | roomMessages (room : String) : InternalPath ["", "internal", "rooms", room, "messages"]
  | roomMessage (room message : String) (named : message ≠ "") :
    InternalPath ["", "internal", "rooms", room, "messages", message]
  | roomMember (room user : String) (named : user ≠ "") :
    InternalPath ["", "internal", "rooms", room, "members", user]
  | userEvents (user : String) : InternalPath ["", "internal", "users", user, "events"]

private theorem internalPath_iff {segments : List String} :
    InternalPath segments ↔
      ∃ route, Route.ofSegments? segments = some route ∧ route.isInternal = true := by
  constructor
  · intro path
    cases path with
    | presence => exact ⟨_, rfl, rfl⟩
    | roomEvents room => exact ⟨_, rfl, rfl⟩
    | roomMessages room => exact ⟨_, rfl, rfl⟩
    | roomMessage room message named => exact ⟨_, if_neg named, rfl⟩
    | roomMember room user named => exact ⟨_, if_neg named, rfl⟩
    | userEvents user => exact ⟨_, rfl, rfl⟩
  · rintro ⟨route, found, internal⟩
    unfold Route.ofSegments? at found
    split at found
    case h_4 => exact .presence
    case h_5 room => exact .roomEvents room
    case h_6 room => exact .roomMessages room
    case h_7 room message =>
      split at found
      · cases found
      · rename_i named
        exact .roomMessage room message named
    case h_8 room user =>
      split at found
      · cases found
      · rename_i named
        exact .roomMember room user named
    case h_9 user => exact .userEvents user
    all_goals
      cases found
      try cases internal

/-! ## Answers -/

variable {β : Type} [SharedBus β] (s : Site β) (now : Moment) (live : Bool)

private theorem answer_without_token (internal : InternalPath r.segments)
    (lacks : LacksToken s.hub.config.internalToken r.headers) :
    answer s now live r = (s, .failed .unauthorized) := by
  obtain ⟨route, found, guarded⟩ := internalPath_iff.mp internal
  have refused := lacksToken_iff.mp lacks
  simp only [answer, found, guarded, refused, Bool.false_eq_true, not_false_eq_true, and_self,
    ↓reduceIte]

private theorem readBody_refusal {α : Type} {decode : Json.Decoder α} {status : Nat}
    (refused : readBody decode r = .error status) : status ≠ 401 := by
  unfold readBody at refused
  split at refused
  · cases refused
    decide
  · split at refused
    · cases refused
      decide
    · split at refused <;> cases refused <;> decide

@[simp] theorem Answer.plain_status (status : Nat) (body : Option String) :
    (Answer.plain status body).status = status := rfl

@[simp] theorem Answer.failed_status (f : Failure) : (Answer.failed f).status = f.status := rfl

private theorem answerRoomEvent_status (room : Uuid) :
    (answerRoomEvent s room r).2.status ≠ 401 := by
  unfold answerRoomEvent
  split
  · exact readBody_refusal ‹_›
  · exact (by decide : 200 ≠ 401)

private theorem answerRoomMessage_status (room : Uuid) :
    (answerRoomMessage s room r).2.status ≠ 401 := by
  unfold answerRoomMessage
  split
  · exact readBody_refusal ‹_›
  · split <;> simp [Failure.status]

private theorem answerDeletion_status (room message : Uuid) :
    (answerDeletion s room message r).2.status ≠ 401 := by
  unfold answerDeletion
  split <;> simp

omit [SharedBus β] in
private theorem answerMember_status (room user : Uuid) :
    (answerMember s room user r).2.status ≠ 401 := by
  unfold answerMember
  split
  · split <;> simp
  · simp

private theorem answerUserEvent_status (user : Uuid) :
    (answerUserEvent s user r).2.status ≠ 401 := by
  unfold answerUserEvent
  split
  · exact readBody_refusal ‹_›
  · exact (by decide : 200 ≠ 401)

private theorem answerPresence_status : (answerPresence s now r).2.status ≠ 401 := by
  unfold answerPresence
  split
  · exact readBody_refusal ‹_›
  · split
    · simp [Failure.status]
    · exact (by decide : 200 ≠ 401)

/-- None of the handlers behind the token says that it is missing. -/
theorem Handled.status {s : Site β} {now : Moment} {x : Site β × Answer}
    (handled : Handled s now r x) : x.2.status ≠ 401 := by
  cases handled with
  | misspelt => simp
  | roomEvent room => exact answerRoomEvent_status s room
  | roomMessage room => exact answerRoomMessage_status s room
  | deletion room message => exact answerDeletion_status s room message
  | member room user => exact answerMember_status s room user
  | userEvent user => exact answerUserEvent_status s user
  | presence => exact answerPresence_status s now

/-- Whoever presents the token gets some other answer. -/
private theorem answer_with_token (internal : InternalPath r.segments)
    (presents : ¬LacksToken s.hub.config.internalToken r.headers) :
    (answer s now live r).2.status ≠ 401 := by
  obtain ⟨route, found, guarded⟩ := internalPath_iff.mp internal
  have admitted : isAuthorized s.hub.config.internalToken r = true :=
    Bool.not_eq_false _ ▸ mt lacksToken_iff.mpr presents
  simp only [answer, found, guarded, admitted, not_true_eq_false, and_false, ↓reduceIte]
  split
  · exact (answerRoute_handled s now r live guarded).status
  · simp

/-- Of the requests for the other services those without the token, and no others, are told that
they are not authorized. Such a request leaves the hub, all queues and the bus as they were, and it
makes no difference what else it says, or when and how it comes. -/
theorem tokenless_requests_inert (internal : InternalPath r.segments) :
    (LacksToken s.hub.config.internalToken r.headers →
      (answer s now live r).1 = s ∧
        ∀ (now' : Moment) (live' : Bool) (r' : Request), InternalPath r'.segments →
          LacksToken s.hub.config.internalToken r'.headers →
          answer s now' live' r' = answer s now live r) ∧
      ((answer s now live r).2.status = 401 ↔
        LacksToken s.hub.config.internalToken r.headers) := by
  refine ⟨fun lacks => ?_, fun told => ?_, fun lacks => ?_⟩
  · have refused := answer_without_token s now live internal lacks
    refine ⟨congrArg Prod.fst refused, fun now' live' r' internal' lacks' => ?_⟩
    rw [refused, answer_without_token s now' live' internal' lacks']
  · by_contra presents
    exact answer_with_token s now live internal presents told
  · rw [answer_without_token s now live internal lacks]
    rfl

/-- A hub on trial, whose token is `internal-test-token`. -/
def trialSite : Site MemoryBus := .fresh (Config.trial ⟨1⟩) 0 [] none

/-- A presence query that presents a token, with a body that is no JSON. -/
def spoiltQuery (token : String) : Request :=
  { method := "POST", target := "/internal/presence?x", headers := [⟨internalTokenHeader, token⟩],
    body := "\x7b" }

private theorem spoiltQuery_internal (token : String) :
    InternalPath (spoiltQuery token).segments := by
  have parts : (spoiltQuery token).segments = ["", "internal", "presence"] := by
    simp only [Request.segments, Request.path, spoiltQuery]
    decide
  exact parts ▸ .presence

/-- What the hub on trial does with a request that it does not let in. -/
def Refused (r : Request) : Prop :=
  (answer trialSite ⟨0, 0⟩ true r).1 = trialSite ∧
    (answer trialSite ⟨0, 0⟩ true r).2.status = 401

/-- A token cut short, one with more to it, and one with a letter in the other case. -/
theorem nearMisses_refused :
    Refused (spoiltQuery "internal-test") ∧ Refused (spoiltQuery "internal-test-token-extra") ∧
      Refused (spoiltQuery "internal-test-tokeN") := by
  have first (token : String) :
      Header.First internalTokenHeader token (spoiltQuery token).headers :=
    .here (beq_self_eq_true _) rfl
  have refused (token : String)
      (lacks : LacksToken "internal-test-token" (spoiltQuery token).headers) :
      Refused (spoiltQuery token) := by
    have inert := tokenless_requests_inert trialSite ⟨0, 0⟩ true (spoiltQuery_internal token)
    exact ⟨(inert.1 lacks).1, inert.2.mpr lacks⟩
  have shorter : "internal-test".toUTF8.size ≠ "internal-test-token".toUTF8.size := by decide
  have longer : "internal-test-token-extra".toUTF8.size ≠ "internal-test-token".toUTF8.size := by
    decide
  have capital : "internal-test-tokeN".toUTF8[18]? = some 0x4E := by decide
  have small : "internal-test-token".toUTF8[18]? = some 0x6E := by decide
  exact ⟨refused _ (.otherLength (first _) shorter), refused _ (.otherLength (first _) longer),
    refused _ (.otherOctet (first _) capital small (by decide))⟩

end Http

/-! ## Runs -/

/-- A request for the other services without the token. -/
def SiteTurn.Tokenless {β : Type} (token : String) : SiteTurn β → Prop
  | .request _ _ r => Http.InternalPath r.segments ∧ Http.LacksToken token r.headers
  | _ => False

namespace Site

variable {β : Type} [SharedBus β] {config : Config} {s : Site β}

private theorem after_tokenless {x : SiteTurn β}
    (tokenless : x.Tokenless s.hub.config.internalToken) :
    s.after x = s := by
  cases x with
  | request now live r =>
    exact congrArg Prod.fst (Http.answer_without_token s now live tokenless.1 tokenless.2)
  | _ => exact tokenless.elim

open Classical in
/-- Requests without the token may be left out of what happens on a hub. The configuration stays, so
each of them lacks the token when its turn comes. -/
private theorem Anchored.afterAll_filter (anchored : s.Anchored config)
    (turns : List (SiteTurn β)) :
    s.afterAll (turns.filter fun x => ¬x.Tokenless config.internalToken) = s.afterAll turns := by
  induction turns generalizing s with
  | nil => rfl
  | cons x rest ih =>
    by_cases tokenless : x.Tokenless config.internalToken
    · have unmoved : s.after x = s := after_tokenless (anchored.configured ▸ tokenless)
      have first : s.afterAll (x :: rest) = (s.after x).afterAll rest := rfl
      rw [List.filter_cons_of_neg (by simpa using tokenless), ih anchored, first, unmoved]
    · rw [List.filter_cons_of_pos (by simpa using tokenless)]
      exact ih (anchored.after x)

open Classical in
/-- Whatever happens on a hub from its start on, it ends up as if nobody had ever called on it
without the token. -/
theorem tokenless_requests_leave_no_trace (config : Config) (begun : Nat) (queues : Queues)
    (bus : Option β) (turns : List (SiteTurn β)) :
    (fresh config begun queues bus).afterAll
        (turns.filter fun x => ¬x.Tokenless config.internalToken) =
      (fresh config begun queues bus).afterAll turns :=
  (fresh_anchored config begun queues bus).afterAll_filter turns

end Site

end RoomRelay
