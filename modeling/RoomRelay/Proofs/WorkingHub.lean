import RoomRelay.Proofs.Requests
import RoomRelay.Proofs.Unplugged

/-!
A hub at work. It handles a text up to the first question to the services and then turns to whatever
comes next: other texts, clients that come and go, requests, messages of the bus, or the answer that
another text waits for. Main statement: of all this only the charge of a text to the budget of its
command concerns the rate limits, and of these only the one.
-/

namespace RoomRelay

/-- The limiters of a hub with what they remember. -/
def Hub.limits (h : Hub) : Budget → RateWindow := fun b => b.limiter h

@[simp] theorem Hub.evicted_limits (h : Hub) (leftover : List (Uuid × List ConnId)) :
    (evicted h leftover).limits = h.limits := by
  induction leftover generalizing h with
  | nil => rfl
  | cons entry rest ih =>
    rw [evicted, ih]
    rfl

namespace Site

variable {β : Type}

/-! ## Work that leaves the limits alone -/

@[simp] theorem pushTo_limits (s : Site β) (id : ConnId) (payload : String) :
    (s.pushTo id payload).1.hub.limits = s.hub.limits := by
  rw [pushTo_hub]
  rfl

@[simp] theorem pushAll_limits (s : Site β) (payload : String) (stats : DeliveryStats)
    (ids : List ConnId) : (s.pushAll payload stats ids).1.hub.limits = s.hub.limits := by
  rw [pushAll_hub]
  rfl

@[simp] theorem localBroadcast_limits (s : Site β) (room : Uuid) (payload : String) :
    (s.localBroadcast room payload).1.hub.limits = s.hub.limits :=
  pushAll_limits ..

@[simp] theorem deliverToUser_limits (s : Site β) (user : Uuid) (payload : String) :
    (s.deliverToUser user payload).1.hub.limits = s.hub.limits :=
  pushAll_limits ..

@[simp] theorem receive_limits (s : Site β) (m : BusMessage) :
    (s.receive m).hub.limits = s.hub.limits := by
  unfold receive
  split
  · exact localBroadcast_limits ..
  · unfold receiveEnvelope
    split
    · split
      · rfl
      · exact deliverToUser_limits ..
    · rfl
  · rfl
  · rfl

variable [SharedBus β]

@[simp] theorem publishOn_limits (s : Site β) (b : β) (t : Traffic) (m : BusMessage) :
    (s.publishOn b t m).1.hub.limits = s.hub.limits := by
  unfold publishOn
  split <;> rfl

@[simp] theorem broadcast_limits (s : Site β) (room : Uuid) (e : Event) :
    (s.broadcast room e).1.hub.limits = s.hub.limits := by
  unfold broadcast
  split
  · exact localBroadcast_limits ..
  · rename_i b on
    split
    · have published := publishOn_limits s b .room (roomMessage room e.render)
      unfold relayBroadcast
      split
      · rename_i accepted
        rw [accepted] at published
        exact published
      · rename_i refused
        rw [refused] at published
        exact (localBroadcast_limits ..).trans published
    · exact (publishOn_limits ..).trans (localBroadcast_limits ..)

@[simp] theorem broadcastAll_limits (s : Site β) (room : Uuid) (es : List Event) :
    (s.broadcastAll room es).hub.limits = s.hub.limits := by
  induction es generalizing s with
  | nil => rfl
  | cons e rest ih => exact (ih (s.broadcast room e).1).trans (broadcast_limits s room e)

@[simp] theorem announcePresence_limits (s : Site β) (user : Uuid) (rooms : List Uuid)
    (online : Bool) : (s.announcePresence user rooms online).hub.limits = s.hub.limits := by
  induction rooms generalizing s with
  | nil => rfl
  | cons room rest ih => exact (ih _).trans (broadcast_limits s room _)

@[simp] theorem sendToUser_limits (s : Site β) (user : Uuid) (e : Event) :
    (s.sendToUser user e).1.hub.limits = s.hub.limits := by
  unfold sendToUser
  dsimp only
  split
  · exact deliverToUser_limits ..
  · exact (publishOn_limits ..).trans (deliverToUser_limits ..)

@[simp] theorem register_limits (s : Site β) (now : Nat) (user : Uuid) (id : ConnId) :
    (s.register now user id).1.hub.limits = s.hub.limits := by
  unfold register
  split
  · rfl
  · dsimp only
    split
    · rw [markOnline_hub]
      rfl
    · rfl

@[simp] theorem unregister_limits (s : Site β) (user : Uuid) (id : ConnId) :
    (s.unregister user id).1.hub.limits = s.hub.limits := by
  unfold unregister
  split
  · rfl
  · dsimp only
    split
    · split
      · rw [markOffline_hub]
        rfl
      · rfl
    · rfl

@[simp] theorem depart_limits (s : Site β) (user : Uuid) (id : ConnId) :
    (s.depart user id).hub.limits = s.hub.limits := by
  have left := unregister_limits s user id
  unfold depart
  split
  · rename_i went
    rw [went] at left
    exact (announcePresence_limits ..).trans left
  · rename_i went
    rw [went] at left
    exact left

@[simp] theorem evictAll_limits (s : Site β) : s.evictAll.hub.limits = s.hub.limits := by
  rw [evictAll_hub]
  exact Hub.evicted_limits _ s.hub.registry.users

@[simp] theorem changeRoster_limits (s : Site β) (x : RosterChange) :
    (s.changeRoster x).hub.limits = s.hub.limits := by
  cases x with
  | register now id =>
    simp only [changeRoster]
    split
    · exact register_limits ..
    · rfl
  | unregister id =>
    simp only [changeRoster]
    split
    · exact unregister_limits ..
    · rfl
  | listen room user => rfl
  | unlisten room user => rfl
  | refresh now => exact congrArg Hub.limits (refresh_hub s now)

private theorem act_limits (s : Site β) (op : Op β) : (s.act op).hub.limits = s.hub.limits := by
  cases op with
  | send x => cases x <;> simp [act, send]
  | roster x => exact changeRoster_limits s x
  | client id a => rfl
  | ending x =>
    cases x with
    | stopRelay => rfl
    | closeAll => rfl
    | evictAll => exact evictAll_limits s
  | turnBus b => rfl

end Site

theorem Http.Effect.limits {β : Type} [SharedBus β] {s t : Site β} {clock : Nat}
    (effect : Http.Effect s clock t) : t.hub.limits = s.hub.limits := by
  cases effect with
  | nothing => rfl
  | broadcast room es => exact Site.broadcastAll_limits ..
  | toUser user e => exact Site.sendToUser_limits ..
  | look users => rfl
  | listen room user connected => rfl
  | unlisten room user => rfl

/-! ## Procedures that leave something alone -/

namespace Procedure

variable {σ α γ δ : Type}

/-- The state that a procedure has left, by its end or its next question. -/
def state : Procedure σ α → σ
  | done s _ => s
  | ask s .. => s
  | askBoth s .. => s

/-- A procedure that has put a question. -/
def Asks : Procedure σ α → Prop
  | done .. => False
  | ask .. => True
  | askBoth .. => True

/-- Whenever it goes on after a question, a procedure leaves what `f` tells of the state as it finds
it. -/
def Keeps (f : σ → δ) : Procedure σ α → Prop
  | done .. => True
  | ask _ _ resume => ∀ s r, f (resume s r).state = f s ∧ (resume s r).Keeps f
  | askBoth _ _ _ resume => ∀ s r q, f (resume s r q).state = f s ∧ (resume s r q).Keeps f

/-- Work on `s` that leaves what `f` tells of it, now and after each question. -/
structure Leaves (f : σ → δ) (s : σ) (p : Procedure σ α) : Prop where
  state : f p.state = f s
  keeps : p.Keeps f

variable {f : σ → δ} {s : σ} {p : Procedure σ α}

theorem Leaves.done (s : σ) (a : α) : (Procedure.done s a).Leaves f s := ⟨rfl, trivial⟩

theorem Leaves.of_eq {t : σ} (leaves : p.Leaves f s) (same : f s = f t) : p.Leaves f t :=
  ⟨leaves.state.trans same, leaves.keeps⟩

theorem Keeps.andThen {next : σ → α → Procedure σ γ} (keeps : p.Keeps f)
    (onward : ∀ s a, (next s a).Leaves f s) : (p.andThen next).Leaves f p.state := by
  induction p with
  | done s a => exact onward s a
  | ask s call resume ih =>
    refine ⟨rfl, fun t r => ?_⟩
    obtain ⟨same, later⟩ := keeps t r
    have rest := (ih t r later).of_eq same
    exact ⟨rest.state, rest.keeps⟩
  | askBoth s first second resume ih =>
    refine ⟨rfl, fun t r q => ?_⟩
    obtain ⟨same, later⟩ := keeps t r q
    have rest := (ih t r q later).of_eq same
    exact ⟨rest.state, rest.keeps⟩

theorem Leaves.andThen {next : σ → α → Procedure σ γ} (leaves : p.Leaves f s)
    (onward : ∀ s a, (next s a).Leaves f s) : (p.andThen next).Leaves f s :=
  (leaves.keeps.andThen onward).of_eq leaves.state

theorem Leaves.map {g : α → γ} (leaves : p.Leaves f s) : (p.map g).Leaves f s :=
  leaves.andThen fun t a => .done t (g a)

/-- The answer comes to whatever the state is by then. -/
theorem Keeps.resume {ω : Type} (keeps : p.Keeps f) (asks : p.Asks)
    (answer : ω → (c : Call) → ω × c.Outcome) (w : ω) (t : σ) :
    (p.resume answer w t).2.Leaves f t := by
  cases p with
  | done s a => exact asks.elim
  | ask s call resume =>
    obtain ⟨same, later⟩ := keeps t (answer w call).2
    exact ⟨same, later⟩
  | askBoth s first second resume =>
    obtain ⟨same, later⟩ := keeps t (answer w first).2 (answer (answer w first).1 second).2
    exact ⟨same, later⟩

end Procedure

namespace Site

variable {β : Type} [SharedBus β] (s : Site β) (user : Uuid) (id : ConnId)

/-! ## Texts and clients that come -/

omit [SharedBus β] in
private theorem conclude_leaves (result : CommandResult) :
    (conclude id s result).Leaves (·.hub.limits) s := by
  cases result with
  | ok done => exact .done s ()
  | error code => exact ⟨pushTo_limits .., trivial⟩

omit [SharedBus β] in
private theorem sendSync_leaves (p : SyncParams) :
    (s.sendSync user id p).Leaves (·.hub.limits) s := by
  refine ⟨rfl, fun t unread items => ?_⟩
  dsimp only
  split
  · exact ⟨pushTo_limits .., trivial⟩
  · exact ⟨rfl, trivial⟩

private theorem sendUnread_leaves (event : Int → Event) :
    (s.sendUnread user event).Leaves (·.hub.limits) s := by
  refine ⟨rfl, fun t unread => ?_⟩
  dsimp only
  split
  · exact ⟨sendToUser_limits .., trivial⟩
  · exact ⟨rfl, trivial⟩

private theorem perform_leaves (c : Command) : (s.perform user id c).Leaves (·.hub.limits) s := by
  cases c with
  | typing room isTyping =>
    simp only [perform]
    split
    · exact ⟨broadcast_limits .., trivial⟩
    · exact .done s _
  | read room =>
    simp only [perform]
    split
    · refine ⟨rfl, fun t readAt => ?_⟩
      dsimp only
      split
      · exact ⟨broadcast_limits .., trivial⟩
      · exact ⟨rfl, trivial⟩
    · exact .done s _
  | notificationSync params => exact sendSync_leaves s user id params
  | notificationRead notification =>
    refine ⟨rfl, fun t marked => ?_⟩
    dsimp only
    split
    · have rest := sendUnread_leaves t user fun unread => .notificationRead unread [notification]
      exact ⟨rest.state, rest.keeps⟩
    · exact ⟨rfl, trivial⟩
  | notificationReadAll =>
    refine ⟨rfl, fun t marked => ?_⟩
    dsimp only
    split
    · have rest := sendUnread_leaves t user .notificationReadAll
      exact ⟨rest.state, rest.keeps⟩
    · exact ⟨rfl, trivial⟩
  | unknown kind => exact .done s _

/-- Once a text is charged, the rest of handling it leaves the limits alone. -/
private theorem handleText_leaves (now : Nat) (text : String) :
    (s.handleText now user id text).Leaves (·.hub.limits) (s.charged now user text) := by
  unfold handleText charged
  cases Command.parse text with
  | error code => exact ⟨pushTo_limits .., trivial⟩
  | ok c =>
    dsimp only [execute]
    cases c.budget? with
    | none => exact (perform_leaves s user id c).andThen fun t => conclude_leaves t id
    | some b =>
      dsimp only
      rcases s.charge now user c.name b with ⟨t, within⟩
      cases within with
      | true => exact (perform_leaves t user id c).andThen fun u => conclude_leaves u id
      | false => exact conclude_leaves t id _

omit [SharedBus β] in
theorem foldl_listen_limits (rooms : List Uuid) :
    (rooms.foldl (fun s room => s.listen room user) s).hub.limits = s.hub.limits := by
  induction rooms generalizing s with
  | nil => rfl
  | cons room rest ih => exact ih (s.listen room user)

/-- The page of notifications that a client gets when it comes is charged to nobody. -/
private theorem welcome_leaves (now : Nat) : (s.welcome now user id).Leaves (·.hub.limits) s := by
  have came := register_limits s now user id
  unfold welcome
  split
  · rename_i refused
    rw [refused] at came
    exact ⟨came, trivial⟩
  · rename_i t first registered
    rw [registered] at came
    refine ⟨came, fun u answer => ?_⟩
    let rooms := answer.toOption.getD []
    let v := rooms.foldl (fun s room => s.listen room user) u
    let v' := if first then v.announcePresence user rooms true else v
    have listening : v.hub.limits = u.hub.limits := foldl_listen_limits u user rooms
    have told : v'.hub.limits = u.hub.limits := by
      simp only [v']
      split
      · exact (announcePresence_limits ..).trans listening
      · exact listening
    have page := ((sendSync_leaves v' user id {}).andThen fun t => conclude_leaves t id).map
      (g := Except.ok (ε := Failure))
    have rest := page.of_eq told
    exact ⟨rest.state, rest.keeps⟩

end Site

/-! ## Whatever comes next -/

/-- A hub with the texts and the clients that wait for an answer of the services. -/
structure AtWork (β : Type) where
  site : Site β
  waiting : List (Procedure (Site β) Unit) := []

/-- What may come next. -/
inductive Occasion (β : Type) where
  /-- A user sends a text on a connection. -/
  | text (now : Nat) (user : Uuid) (id : ConnId) (text : String)
  /-- A client comes, and wants its rooms and its page of notifications. -/
  | come (now : Nat) (user : Uuid) (id : ConnId)
  | leave (user : Uuid) (id : ConnId)
  /-- One of those that wait has its answers. -/
  | answered (place : Nat) (outcome : (call : Call) → call.Outcome)
  | request (now : Http.Moment) (live : Bool) (r : Http.Request)
  /-- The relay begins to listen to the bus, or no longer does. -/
  | relay (listens : Bool)
  | operation (op : Op β)

namespace AtWork

variable {β : Type}

/-- The hub after a stretch of work, with what is still to do. -/
def pursue (w : AtWork β) : Procedure (Site β) Unit → AtWork β
  | .done s _ => { w with site := s }
  | .ask s call resume => ⟨s, w.waiting ++ [.ask s call resume]⟩
  | .askBoth s first second resume => ⟨s, w.waiting ++ [.askBoth s first second resume]⟩

variable [SharedBus β]

/-- The hub after an occasion. -/
def meet (w : AtWork β) : Occasion β → AtWork β
  | .text now user id text => w.pursue (w.site.handleText now user id text)
  | .come now user id => w.pursue ((w.site.welcome now user id).map fun _ => ())
  | .leave user id => { w with site := w.site.depart user id }
  | .answered place outcome =>
    match w.waiting[place]? with
    | some p =>
      pursue { w with waiting := w.waiting.eraseIdx place }
        (p.resume (fun _ call => ((), outcome call)) () w.site).2
    | none => w
  | .request now live r => { w with site := (Http.answer w.site now live r).1 }
  | .relay listens =>
    { w with site := { w.site with hub := { w.site.hub with subscribed := listens } } }
  | .operation op => { w with site := w.site.act op }

/-- Whoever waits has put a question, and will leave the limits alone. -/
def Settled (w : AtWork β) : Prop :=
  ∀ p ∈ w.waiting, p.Asks ∧ p.Keeps (·.hub.limits)

variable {w : AtWork β}

omit [SharedBus β] in
private theorem pursue_site (w : AtWork β) (p : Procedure (Site β) Unit) :
    (w.pursue p).site = p.state := by
  cases p <;> rfl

omit [SharedBus β] in
private theorem pursue_limits {s : Site β} {p : Procedure (Site β) Unit}
    (leaves : p.Leaves (·.hub.limits) s)
    (w : AtWork β) : (w.pursue p).site.hub.limits = s.hub.limits := by
  rw [pursue_site]
  exact leaves.state

omit [SharedBus β] in
theorem Settled.pursue (settled : w.Settled) {p : Procedure (Site β) Unit}
    (keeps : p.Keeps (·.hub.limits)) : (w.pursue p).Settled := by
  have another (asks : p.Asks) : ∀ q ∈ w.waiting ++ [p], q.Asks ∧ q.Keeps (·.hub.limits) := by
    intro q member
    rcases List.mem_append.mp member with before | last
    · exact settled q before
    · rw [List.mem_singleton.mp last]
      exact ⟨asks, keeps⟩
  cases p with
  | done s a => exact settled
  | ask s call resume => exact another trivial
  | askBoth s first second resume => exact another trivial

omit [SharedBus β] in
theorem Settled.moved (settled : w.Settled) (s : Site β) : Settled { w with site := s } :=
  fun p member => settled p member

/-- The limits after an occasion: a text may be charged, and nothing else is. -/
def limitsAfter (w : AtWork β) : Occasion β → Budget → RateWindow
  | .text now user _ text => (w.site.charged now user text).hub.limits
  | _ => w.site.hub.limits

/-- What every occasion does to the limits. -/
theorem Settled.meet (settled : w.Settled) (x : Occasion β) :
    (w.meet x).Settled ∧ (w.meet x).site.hub.limits = w.limitsAfter x := by
  cases x with
  | text now user id text =>
    have leaves := w.site.handleText_leaves user id now text
    exact ⟨settled.pursue leaves.keeps, pursue_limits leaves w⟩
  | come now user id =>
    have leaves := (w.site.welcome_leaves user id now).map (g := fun _ => ())
    exact ⟨settled.pursue leaves.keeps, pursue_limits leaves w⟩
  | leave user id => exact ⟨settled.moved _, w.site.depart_limits user id⟩
  | answered place outcome =>
    simp only [AtWork.meet]
    cases found : w.waiting[place]? with
    | none => exact ⟨settled, rfl⟩
    | some p =>
      obtain ⟨asks, keeps⟩ := settled p (List.mem_of_getElem? found)
      have leaves := keeps.resume asks (fun (_ : Unit) call => ((), outcome call)) () w.site
      have others : Settled { w with waiting := w.waiting.eraseIdx place } :=
        fun q member => settled q (List.mem_of_mem_eraseIdx member)
      exact ⟨others.pursue leaves.keeps, pursue_limits leaves _⟩
  | request now live r =>
    simp only [AtWork.meet, limitsAfter]
    exact ⟨settled.moved _, (Http.answer_effect w.site now r live).limits⟩
  | relay listens => exact ⟨settled.moved _, rfl⟩
  | operation op => exact ⟨settled.moved _, w.site.act_limits op⟩

end AtWork

end RoomRelay
