import RoomRelay.Proofs.RateWindow
import RoomRelay.Proofs.RegistryInvariants
import RoomRelay.Proofs.WorkingHub

/-!
Budgets of commands. A hub has one limiter for each class of commands, and keys it by user. Main
statement: whatever else the hub does meanwhile, a command is within its budget exactly when fewer
commands of its class than the limit were within it, less than a window ago, that came from the same
user on any connection. What the others send, and what becomes of a command once it is charged, does
not matter.
-/

namespace RoomRelay

/-! ## Classes of texts -/

namespace Budget

/-- How many commands of a class a user may send in a window. -/
def limit (config : Config) : Budget → Nat
  | messages => config.messageRateLimit
  | sync => config.notificationSyncLimit
  | reads => config.notificationReadLimit

/-- The length of the window. -/
def window (config : Config) : Budget → Duration
  | messages => .ofSeconds config.messageRateWindowSecs
  | sync => .ofSeconds config.notificationSyncWindowSecs
  | reads => .ofSeconds config.notificationReadWindowSecs

/-- The budget a text is charged to: none, unless it is a command that has one. -/
def ofText? (text : String) : Option Budget := (Command.parse text).toOption.bind Command.budget?

end Budget

private theorem Hub.start_limits (config : Config) (begun : Nat) (b : Budget) :
    (Hub.start config begun).limits b =
      .start (b.limit config) (b.window config).nanos begun := by
  cases b <;> rfl

namespace Site

variable {β : Type}

/-- A charge changes one of the limiters. -/
private theorem charge_limits (s : Site β) (now : Nat) (user : Uuid) (name : String)
    (b b' : Budget) :
    (s.charge now user name b).1.hub.limits b' =
      if b = b' then ((s.hub.limits b').allow user.text now).1 else s.hub.limits b' := by
  unfold charge
  dsimp only
  split <;> cases b <;> cases b' <;> rfl

private theorem charged_limits (s : Site β) (now : Nat) (user : Uuid) (text : String) (b : Budget) :
    (s.charged now user text).hub.limits b =
      if Budget.ofText? text = some b then ((s.hub.limits b).allow user.text now).1
      else s.hub.limits b := by
  unfold charged Budget.ofText?
  cases Command.parse text with
  | error code => simp [Except.toOption]
  | ok c =>
    cases budget : c.budget? with
    | none => simp [Except.toOption, budget]
    | some b' => simp [Except.toOption, budget, charge_limits]

end Site

/-! ## Texts as they come -/

/-- A text that a hub hears, with the site as it was then. -/
structure Heard (β : Type) where
  site : Site β
  now : Nat
  user : Uuid
  id : ConnId
  text : String

namespace Heard

variable {β : Type}

def budget? (h : Heard β) : Option Budget := Budget.ofText? h.text

/-- Whether a text is within its budget. One that is charged to none always is. -/
def admitted (h : Heard β) : Bool :=
  h.budget?.all fun b => ((h.site.hub.limits b).allow h.user.text h.now).2

/-- A text of a class as its limiter sees it. -/
def ruling (h : Heard β) : Ruling := ⟨h.user.text, h.now, h.admitted⟩

end Heard

/-- The text that comes with an occasion, if one does. -/
def Occasion.heard? {β : Type} (s : Site β) : Occasion β → Option (Heard β)
  | .text now user id sent => some ⟨s, now, user, id, sent⟩
  | _ => none

/-- The instants at which texts come. -/
def Occasion.instants {β : Type} (occasions : List (Occasion β)) : List Nat :=
  occasions.filterMap fun
    | .text now .. => some now
    | _ => none

namespace AtWork

variable {β : Type} [SharedBus β]

/-- The texts that a hub hears, one after another. -/
def heard (w : AtWork β) : List (Occasion β) → List (Heard β)
  | [] => []
  | x :: rest => (x.heard? w.site).toList ++ (w.meet x).heard rest

variable {w : AtWork β}

private theorem heard_instants (w : AtWork β) (occasions : List (Occasion β)) :
    (w.heard occasions).map (·.now) = Occasion.instants occasions := by
  induction occasions generalizing w with
  | nil => rfl
  | cons x rest ih =>
    rw [heard, List.map_append, ih]
    cases x <;> rfl

private theorem heard_ordered {occasions : List (Occasion β)}
    (ordered : (Occasion.instants occasions).Pairwise (· ≤ ·)) (w : AtWork β) :
    (w.heard occasions).Pairwise fun g h => g.now ≤ h.now := by
  rw [← heard_instants w] at ordered
  exact List.pairwise_map.mp ordered

/-- An occasion changes a limiter when a text of its class comes with it. -/
private theorem Settled.meet_limit (settled : w.Settled) (x : Occasion β) (b : Budget) :
    (w.meet x).site.hub.limits b =
      match x.heard? w.site with
      | some h =>
        if h.budget? = some b then ((w.site.hub.limits b).allow h.user.text h.now).1
        else w.site.hub.limits b
      | none => w.site.hub.limits b := by
  rw [(settled.meet x).2]
  cases x with
  | text now user id text => exact Site.charged_limits ..
  | _ => rfl

/-- The texts of a class are ruled on by the limiter of that class alone. -/
theorem Settled.ruled (settled : w.Settled) (b : Budget) (occasions : List (Occasion β)) :
    let rulings := ((w.heard occasions).filter (·.budget? = some b)).map Heard.ruling
    rulings = (w.site.hub.limits b).rulings (rulings.map Ruling.call) := by
  induction occasions generalizing w with
  | nil => rfl
  | cons x rest ih =>
    have later := ih (settled.meet x).1
    rw [settled.meet_limit x b] at later
    cases comes : x.heard? w.site with
    | none => simpa [heard, comes] using later
    | some h =>
      have there : h.site = w.site := by
        cases x <;> cases comes
        rfl
      by_cases charged : h.budget? = some b
      · have ruled : h.admitted = ((w.site.hub.limits b).allow h.user.text h.now).2 := by
          simp [Heard.admitted, charged, there]
        simp only [comes, charged, if_true] at later
        simp only [heard, comes, Option.toList_some, List.singleton_append, List.filter_cons,
          charged, decide_true, if_true, List.map_cons]
        refine congrArg₂ List.cons ?_ later
        rw [Heard.ruling, ruled]
      · simpa [heard, comes, charged] using later

end AtWork

/-! ## What a sender is told -/

namespace Site

variable {β : Type} {s : Site β} {now : Nat} {user : Uuid} {text : String} {b : Budget}
  {answers : List Answered} {o : TextOutcome}

/-- A sender is told that it is over a limit when it is, and then nothing is asked. -/
private theorem Explains.over_limit (explains : s.Explains now user text answers o)
    (charged : Budget.ofText? text = some b) :
    (o = .refused b.code ↔ ((b.limiter s.hub).allow user.text now).2 = false) ∧
      (o = .refused b.code → answers = []) := by
  cases explains with
  | malformed parsed => simp [Budget.ofText?, parsed, Except.toOption] at charged
  | @command c _ _ parsed judges =>
    have budget : c.budget? = some b := by
      simpa [Budget.ofText?, parsed, Except.toOption] using charged
    -- all that becomes of a command within its budget
    have within (affords : s.Affords now user c) (other : o ≠ .refused b.code) :
        (o = .refused b.code ↔ ((b.limiter s.hub).allow user.text now).2 = false) ∧
          (o = .refused b.code → answers = []) := by
      rw [affords b budget]
      simp [other]
    cases judges with
    | limited budget' exceeds =>
      cases budget.symm.trans budget'
      exact ⟨⟨fun _ => exceeds, fun _ => rfl⟩, fun _ => rfl⟩
    | deaf affords => exact within affords (by cases b <;> simp [Budget.code])
    | unanswered affords => exact within affords (by cases b <;> simp [Budget.code])
    | done affords hears yields => exact within affords (by cases yields <;> simp)

end Site

/-! ## Runs -/

/-- Calls that were tallied are tallied alike without those for some of the keys. -/
private theorem RateWindow.tallied_keep {limit window : Nat} {rulings : List Ruling}
    (tally : rulings = tallied limit window [] (rulings.map Ruling.call)) (keep : String → Bool) :
    (rulings.filter fun c => keep c.key) =
      tallied limit window [] ((rulings.filter fun c => keep c.key).map Ruling.call) := by
  have alone : (tallied limit window [] (rulings.map Ruling.call)).filter (fun c => keep c.key) =
      tallied limit window [] ((rulings.map Ruling.call).filter fun c => keep c.1) :=
    tallied_filter keep (rulings.map Ruling.call) fun _ _ _ => rfl
  rw [← tally, List.filter_map] at alone
  exact alone

section Runs

variable {β : Type} [SharedBus β]

/-- What is within the budgets of a hub's users, among the texts that the hub heard. -/
structure Budgeted (config : Config) (heard : List (Heard β)) : Prop where
  /-- A text is admitted exactly when fewer texts of its class than the limit were, less than a
  window before it, that the same user had sent on any connection. -/
  counted : ∀ past h later b, heard = past ++ h :: later → h.budget? = some b →
    (h.admitted = true ↔
      (past.countP fun g => g.user = h.user ∧ g.budget? = some b ∧ g.admitted ∧
        h.now - g.now < (b.window config).nanos) < b.limit config)
  /-- The texts of a class that a user sends are admitted as if there were no others. -/
  apart : ∀ user b begun,
    let mine := heard.filter fun h => h.user = user ∧ h.budget? = some b
    mine.map Heard.ruling =
      (RateWindow.start (b.limit config) (b.window config).nanos begun).rulings
        (mine.map fun h => (h.user.text, h.now))
  /-- Whatever happens while a text is handled, its sender is told that it is over the limit exactly
  when the text is not admitted, and then the services are asked nothing. -/
  told : ∀ h ∈ heard, ∀ b, h.budget? = some b →
    ∀ {ω : Type} (answer : ω → Site β → (c : Call) → ω × c.Outcome × Site β) (world : ω),
      let c := (h.site.handleText h.now h.user h.id h.text).course answer world
      ∃ o, h.site.Concludes h.user h.id c o ∧ (o = .refused b.code ↔ h.admitted = false) ∧
        (h.admitted = false → c.asked = [])

omit [SharedBus β] in
/-- The texts of a class that count against a later one, as its limiter counts them. -/
private theorem recent_rulings (window : Nat) (heard : List (Heard β)) (b : Budget) (user : Uuid)
    (now : Nat) :
    RateWindow.recent window ((heard.filter (·.budget? = some b)).map Heard.ruling) user.text now =
      heard.countP fun g => g.user = user ∧ g.budget? = some b ∧ g.admitted ∧ now - g.now < window := by
  rw [RateWindow.recent, List.countP_map, List.countP_filter]
  refine List.countP_congr fun g _ => ?_
  simp only [Function.comp_apply, Bool.and_eq_true, decide_eq_true_eq, Heard.ruling, Uuid.text_inj]
  constructor
  · rintro ⟨⟨same, within, recent⟩, charged⟩
    exact ⟨same, charged, within, recent⟩
  · rintro ⟨same, charged, within, recent⟩
    exact ⟨⟨same, within, recent⟩, charged⟩

omit [SharedBus β] in
/-- The texts of one user among those of a class. -/
private theorem filter_rulings (heard : List (Heard β)) (b : Budget) (user : Uuid) :
    ((heard.filter (·.budget? = some b)).map Heard.ruling).filter (·.key = user.text) =
      (heard.filter fun h => h.user = user ∧ h.budget? = some b).map Heard.ruling := by
  rw [List.filter_map, List.filter_filter]
  refine congrArg _ (List.filter_congr fun h _ => ?_)
  simp only [Function.comp_apply, Heard.ruling, Uuid.text_inj, Bool.decide_and]

/-- On a hub just started the texts of a class are ruled on by counting. -/
private theorem fresh_tallied (config : Config) (begun : Nat) (queues : Queues) (bus : Option β)
    {occasions : List (Occasion β)} (ordered : (Occasion.instants occasions).Pairwise (· ≤ ·))
    (b : Budget) :
    let heard := AtWork.heard ⟨.fresh config begun queues bus, []⟩ occasions
    let rulings := (heard.filter (·.budget? = some b)).map Heard.ruling
    rulings = RateWindow.tallied (b.limit config) (b.window config).nanos []
      (rulings.map Ruling.call) := by
  intro heard rulings
  let w : AtWork β := ⟨.fresh config begun queues bus, []⟩
  have settled : w.Settled := fun _ none => nomatch none
  have ruled : rulings = (w.site.hub.limits b).rulings (rulings.map Ruling.call) :=
    settled.ruled b occasions
  have inOrder : (rulings.map Ruling.call).Pairwise fun c d => c.2 ≤ d.2 := by
    rw [List.pairwise_map, List.pairwise_map]
    exact (AtWork.heard_ordered ordered w).filter _
  rw [← RateWindow.rulings_eq_tallied _ _ begun inOrder, ← Hub.start_limits]
  exact ruled

end Runs

/-- A hub on trial where a user may mark its notifications twice in ten seconds, and ask once for a
page of them. -/
def tightBudgets : Config :=
  { Config.trial ⟨1⟩ with notificationReadLimit := 2, notificationSyncLimit := 1 }

/-- A frame that says no more than its type. -/
def bareFrame (kind : String) : String := (Json.Value.ofMembers [("type", .string kind)]).render

/-- A user on two connections is within its budget twice, although the services fail, and once more
when ten seconds have passed since the first time. What is no command, what another user sends and
the pages that are sent meanwhile do not count. -/
def chattyUser : List (Occasion MemoryBus) :=
  [.come 0 ⟨7⟩ ⟨0⟩, .answered 0 fun _ => .error .unauthorized,
    .text 0 ⟨7⟩ ⟨0⟩ (bareFrame "notification:read-all"), .text 1 ⟨7⟩ ⟨1⟩ "notification:read-all",
    .text 1 ⟨7⟩ ⟨1⟩ (bareFrame "notification:sync"), .answered 1 fun _ => .error .unauthorized,
    .text 1 ⟨7⟩ ⟨1⟩ (bareFrame "notification:read-all"),
    .text 2 ⟨7⟩ ⟨0⟩ (bareFrame "notification:read-all"),
    .text 2 ⟨8⟩ ⟨2⟩ (bareFrame "notification:read-all"),
    .text 9999999999 ⟨7⟩ ⟨0⟩ (bareFrame "notification:read-all"),
    .text 10000000000 ⟨7⟩ ⟨0⟩ (bareFrame "notification:read-all")]

end RoomRelay
