import RoomRelay.Proofs.Json.Accepting
import RoomRelay.Proofs.UserDelivery
import RoomRelay.Proofs.WireFormats

/-!
Events for a user on their way from hub to hub, as texts. An event comes in as a text, whichever text
spells it. The hub that takes it in pushes the event's own text; another hub pushes the text that came
inside an envelope, with its keys in order and one level further in. Both texts are read as the event
that came in. But the envelope takes one of the levels that a reader allows, so an event that needs all
of them is pushed by the hub that takes it in and can be read by no other.
-/

namespace RoomRelay

open Json

/-! ## Events that were read -/

private theorem Attachment.sized_of_decode {levels : Nat} {d : Document} {a : Attachment}
    (read : decode levels d = .ok a) : a.Sized := by
  obtain ⟨f, -, read⟩ := bind_ok read
  obtain ⟨id, -, read⟩ := bind_ok read
  obtain ⟨url, -, read⟩ := bind_ok read
  obtain ⟨mimeType, -, read⟩ := bind_ok read
  obtain ⟨fileName, -, read⟩ := bind_ok read
  obtain ⟨sizeBytes, size, read⟩ := bind_ok read
  cases read
  rcases given_or_absent size with absent | ⟨d, given⟩
  · show sizeBytes < Word.span 64
    rw [absent]
    decide
  · exact unsigned_lt given

private theorem Message.sized_of_decode {levels : Nat} {d : Document} {m : Message}
    (read : decode levels d = .ok m) : m.Sized := by
  obtain ⟨f, -, read⟩ := bind_ok read
  obtain ⟨id, -, read⟩ := bind_ok read
  obtain ⟨roomId, -, read⟩ := bind_ok read
  obtain ⟨senderId, -, read⟩ := bind_ok read
  obtain ⟨content, -, read⟩ := bind_ok read
  obtain ⟨messageType, -, read⟩ := bind_ok read
  obtain ⟨createdAt, -, read⟩ := bind_ok read
  obtain ⟨attachments, attached, read⟩ := bind_ok read
  cases read
  intro a member
  rcases given_or_absent attached with absent | ⟨d, given⟩
  · subst absent
    cases member
  · obtain ⟨inner, item, one⟩ := mem_of_list given a member
    exact Attachment.sized_of_decode one

namespace Event

/-- An event that was read from a document can be written and read again, if its numbers are
whole. -/
private theorem representable_of_decode {d : Document} {e : Event}
    (read : decode levelLimit d = .ok e)
    (whole : Whole e.toValue.numbers) : e.Representable := by
  obtain ⟨f, fields, read⟩ := bind_ok read
  obtain ⟨kind, -, read⟩ := bind_ok read
  obtain ⟨roomId, -, read⟩ := bind_ok read
  obtain ⟨senderId, -, read⟩ := bind_ok read
  obtain ⟨messageId, -, read⟩ := bind_ok read
  obtain ⟨message, messageRead, read⟩ := bind_ok read
  obtain ⟨data, dataRead, read⟩ := bind_ok read
  cases read
  have levels : f.levels = 126 := Nat.succ.inj (levels_of_fields fields)
  have kept : ∀ ms, data = some ms → (Value.object ms).Kept 126 := by
    rintro ms rfl
    obtain ⟨d, given⟩ := given_of_optional dataRead
    exact levels ▸ kept_of_members given
  refine ⟨?_, ?_, ?_⟩
  · rintro m rfl
    obtain ⟨d, given⟩ := given_of_optional messageRead
    exact Message.sized_of_decode given
  · intro ms given
    refine (kept ms given).freeForm fun n member => whole n ?_
    exact mem_numbersMembers.mpr ⟨("data", .object ms),
      mem_presentFields.mpr (by simp [show data = some ms from given]), member⟩
  · show _ ≤ 126 + 1
    refine depth_record ?_
    simp only [List.forall_mem_cons]
    refine ⟨by simp [Value.depth], by simp [Value.depth, Uuid.toValue],
      by simp [Value.depth, Uuid.toValue], by simp [Value.depth, Uuid.toValue], ?_, ?_, by simp⟩
    · intro v held
      obtain ⟨m, -, rfl⟩ := Option.map_eq_some_iff.mp held
      exact Nat.le_trans m.depth_toValue (by decide)
    · intro v held
      obtain ⟨ms, given, rfl⟩ := Option.map_eq_some_iff.mp held
      exact (kept ms given).shallow

/-- The envelope of an event that can be written is read by others if the event leaves it a
level. -/
private theorem relayed_eq {e : Event} (representable : e.Representable) :
    e.relayed? = if e.freeForm.depth < levelLimit then some e.freeForm else none := by
  by_cases inside : e.freeForm.depth < levelLimit
  · have exact_ : ∀ n ∈ e.freeForm.numbers, n.Exact := fun n member =>
      (words_toValue representable n (numbers_arranged _ n member)).exact
    rw [if_pos inside]
    exact e.relayed_exact exact_ (Nat.le_of_lt_succ inside)
  · have deep : ¬e.freeForm.depth ≤ UserEnvelope.payloadLevels := fun le =>
      inside (Nat.lt_succ_of_le le)
    rw [if_neg inside, relayed?, Value.received?, if_neg fun both => deep both.2]

/-- A text that spells an event, for a reader of whole texts or for one that passes over what
follows the event, as the reader of requests does. -/
def SpelledBy (e : Event) (text : String) : Prop :=
  Decode.run decode text = .ok e ∨ Decode.runFront decode text = .ok e

theorem SpelledBy.decoded {e : Event} {text : String} (spelled : e.SpelledBy text) :
    ∃ d, decode levelLimit d = .ok e := by
  rcases spelled with run | front
  · unfold Decode.run at run
    split at run
    · exact ⟨_, run⟩
    · cases run
  · unfold Decode.runFront at front
    split at front
    · exact ⟨_, front⟩
    · cases front

end Event

/-! ## From hub to hub -/

namespace Cluster

variable {ι β : Type} [DecidableEq ι] [SharedBus β]

/-- What becomes of an event that one hub takes in for a user, as text. -/
structure RelaysText (c : Cluster ι β) (a : ι) (user : Uuid) (e : Event) (moves : List (ι × Op β)) :
    Prop where
  /-- A hub that is on the bus publishes the event in its envelope. -/
  published : (c.sending a user e).after.bus =
    if c.wired a then (SharedBus.publish c.bus (c.envelope a user e)).1 else c.bus
  /-- It pushes the event's text to each connection that the user has with it. -/
  here : ∀ i id, (c.sending a user e).pushed? i id =
    if i = a ∧ id ∈ (c.hubs a).registry.connectionsOf user then some e.render else none
  readHere : Decode.run Event.decode e.render = .ok e
  /-- The event opens no more levels than a reader allows. -/
  bounded : e.freeForm.depth ≤ levelLimit
  /-- Its envelope is read as it was written if the event leaves it a level, and else is refused. -/
  envelope : Decode.run UserEnvelope.decode (c.envelope a user e).payload =
    if e.freeForm.depth < levelLimit then
      .ok (UserEnvelope.ofEvent (c.hubs a).instanceId user e)
    else .error .malformed
  /-- So each copy makes another hub push the event, in the order of its keys, to each connection
  that the user has with it, unless the event opens all levels. -/
  there : ∀ t ∈ c.copies a user e moves, t.hub ≠ a → ∀ i id, t.pushed? i id =
    if e.freeForm.depth < levelLimit ∧ i = t.hub ∧
        id ∈ (t.before.hubs t.hub).registry.connectionsOf user then
      some e.freeForm.render
    else none
  readThere : Decode.run Event.decode e.freeForm.render = .ok e

private theorem relaysText_of_representable {c : Cluster ι β} (sound : c.Sound)
    (distinct : Function.Injective fun i => (c.hubs i).instanceId) (a : ι) (user : Uuid) {e : Event}
    (representable : e.Representable) (moves : List (ι × Op β)) : c.RelaysText a user e moves := by
  have relayed := Event.relayed_eq representable
  constructor
  · exact sending_bus c a user e
  · exact pushed_sending c a user e
  · exact Event.decode_written .id representable
  · exact Nat.le_trans (depth_arranged e.toValue) representable.shallow
  · rw [Cluster.envelope, e.decode_envelope, relayed]
    by_cases inside : e.freeForm.depth < levelLimit
    · rw [if_pos inside, if_pos inside]
      rfl
    · rw [if_neg inside, if_neg inside]
  · intro t copy foreign i id
    rw [pushed_copy sound distinct copy, relayed]
    by_cases inside : e.freeForm.depth < levelLimit
    · simp [inside, foreign]
    · simp [inside]
  · exact Event.decode_written .arrangement representable

/-- An event that a hub takes in for a user, from any text that spells it, reaches the user's
connections with every hub as the same event, unless it opens all the levels that a reader allows:
then the hub that took it in pushes it and every other drops it. -/
theorem spelled_event_relayed (configs : ι → Config) (starts : ι → Nat) (queues : ι → Queues)
    (wired listening : ι → Bool) (bus : β)
    (distinct : Function.Injective fun i => (configs i).instanceId)
    (earlier later : List (ι × Op β)) (a : ι) (user : Uuid) {text : String} {e : Event}
    (spelled : e.SpelledBy text) (whole : Whole e.toValue.numbers) :
    ((fresh configs starts queues wired listening bus).run earlier).RelaysText a user e later := by
  have started := fresh_sound configs starts queues wired listening bus
  have names : (fun i => (((fresh configs starts queues wired listening bus).run earlier).hubs
      i).instanceId) = fun i => (configs i).instanceId :=
    funext fun i => congrArg (·.instanceId) (run_config started i)
  obtain ⟨d, read⟩ := spelled.decoded
  exact relaysText_of_representable (run_sound started) (names ▸ distinct) a user
    (Event.representable_of_decode read whole) later

/-- A record with its keys out of order, a key that events do not have, and its type as the key of
an object. -/
def looseRecord : Value :=
  .object [("data", .object [("b", .int 1), ("a", .array [])]), ("more", .array [.null]),
    ("type", .object [("typing", .null)])]

/-- The event that it spells. -/
def looseEvent : Event :=
  { kind := .typing, data := some [("a", .array []), ("b", .int 1)] }

theorem looseRecord_relayed : Function.Injective
    (fun i : Bool => (Config.trial ⟨if i then 1 else 2⟩).instanceId) ∧
    looseEvent.SpelledBy looseRecord.render ∧ Whole looseEvent.toValue.numbers ∧
    looseEvent.freeForm.depth < levelLimit ∧
    (pairOfHubs.run comesToBoth).RelaysText true ⟨7⟩ looseEvent relayedToBoth := by
  have distinct : Function.Injective
      (fun i : Bool => (Config.trial ⟨if i then 1 else 2⟩).instanceId) := by decide
  have spelled : looseEvent.SpelledBy looseRecord.render := by
    have words : ∀ n ∈ looseRecord.numbers, n.IsWord := by decide
    have one : (Number.whole 1).numeral = ⟨false, [1], none, none⟩ := by
      simp [Number.numeral, Text.decimalDigits]
    refine .inl ?_
    rw [Decode.run, Document.read_render, plain_of_exact fun n member => (words n member).exact]
    simp only [if_true, looseRecord, Value.int, Value.document, Value.documentMembers,
      Value.documentItems, one]
    rfl
  have numbers : looseEvent.toValue.numbers = [.whole 1] := by decide
  have whole : Whole looseEvent.toValue.numbers := by
    intro n member
    rw [numbers, List.mem_singleton] at member
    exact ⟨1, member⟩
  exact ⟨distinct, spelled, whole, by decide, spelled_event_relayed _ _ _ _ _ _ distinct comesToBoth
    relayedToBoth true ⟨7⟩ spelled whole⟩

/-- Arrays one inside another, around an empty one. -/
def nested : Nat → Value
  | 0 => .array []
  | n + 1 => .array [nested n]

private theorem nested_depth (n : Nat) : (nested n).depth = n + 1 := by
  induction n with
  | zero => rfl
  | succ n ih => simp [nested, Value.depth, Value.depthItems, ih]

private theorem nested_arranged (n : Nat) : (nested n).arranged = nested n := by
  induction n with
  | zero => rfl
  | succ n ih => simp [nested, Value.arranged, Value.arrangedItems, ih]

private theorem nested_numbers (n : Nat) : (nested n).numbers = [] := by
  induction n with
  | zero => rfl
  | succ n ih => simp [nested, Value.numbers, Value.numbersItems, ih]

/-- An event that opens all the levels that a reader allows. -/
def deepestEvent : Event := { kind := .notificationState, data := some [("a", nested 124)] }

private theorem deepestEvent_freeForm : deepestEvent.freeForm =
    .object [("data", .object [("a", nested 124)]), ("type", .string "notification:state")] := by
  have before : "data" < "type" := by decide
  simp [deepestEvent, Event.freeForm, Event.toValue, presentFields, EventKind.name, Value.arranged,
    Value.arrangedMembers, Members.ofList, Members.set, nested_arranged, before]

private theorem deepestEvent_depth : deepestEvent.freeForm.depth = levelLimit := by
  simp [deepestEvent_freeForm, Value.depth, Value.depthMembers, nested_depth, levelLimit]

private theorem deepestEvent_representable : deepestEvent.Representable where
  sized := fun _ none => nomatch none
  data := by
    rintro ms ⟨rfl⟩
    refine ⟨?_, ?_⟩
    · simp [Value.arranged, Value.arrangedMembers, Members.ofList, Members.set, nested_arranged]
    · simp [Value.numbers, Value.numbersMembers, nested_numbers]
  shallow := by
    simp [deepestEvent, Event.toValue, presentFields, Value.depth, Value.depthMembers, nested_depth,
      levelLimit]

/-- The hub that takes in the deepest event pushes it to the user. The other hub, which has a
connection of the user too, gets the envelope, cannot read it, and pushes nothing. -/
theorem deepestEvent_dropped :
    deepestEvent.SpelledBy deepestEvent.render ∧ deepestEvent.toValue.numbers = [] ∧
    (⟨0⟩ : ConnId) ∈ ((pairOfHubs.run comesToBoth).hubs true).registry.connectionsOf ⟨7⟩ ∧
    (⟨0⟩ : ConnId) ∈ ((pairOfHubs.run comesToBoth).hubs false).registry.connectionsOf ⟨7⟩ ∧
    ((pairOfHubs.run comesToBoth).sending true ⟨7⟩ deepestEvent).pushed? true ⟨0⟩ =
      some deepestEvent.render ∧
    Decode.run UserEnvelope.decode
      ((pairOfHubs.run comesToBoth).envelope true ⟨7⟩ deepestEvent).payload = .error .malformed ∧
    (pairOfHubs.run comesToBoth).carried true ⟨7⟩ deepestEvent
      [(false, .send (.receive ((pairOfHubs.run comesToBoth).envelope true ⟨7⟩ deepestEvent)))]
      false ⟨0⟩ = [] := by
  have here : (⟨0⟩ : ConnId) ∈ ((pairOfHubs.run comesToBoth).hubs true).registry.connectionsOf ⟨7⟩ := by
    decide +kernel
  have there : (⟨0⟩ : ConnId) ∈
      ((pairOfHubs.run comesToBoth).hubs false).registry.connectionsOf ⟨7⟩ := by
    decide +kernel
  have relayed : deepestEvent.relayed? = none := by
    rw [Event.relayed_eq deepestEvent_representable, deepestEvent_depth, if_neg (Nat.lt_irrefl _)]
  have distinct : Function.Injective
      (fun i => ((pairOfHubs.run comesToBoth).hubs i).instanceId) := by decide +kernel
  have started : pairOfHubs.Sound := fresh_sound _ _ _ _ _ _
  have sound : (pairOfHubs.run comesToBoth).Sound := run_sound started
  refine ⟨.inl ?_, ?_, here, there, ?_, ?_, ?_⟩
  · exact Event.decode_written .id deepestEvent_representable
  · simp [deepestEvent, Event.toValue, presentFields, Value.numbers, Value.numbersMembers,
      nested_numbers]
  · rw [pushed_sending, if_pos ⟨rfl, here⟩]
  · rw [Cluster.envelope, Event.decode_envelope, relayed]
  · refine List.filterMap_eq_nil_iff.mpr fun t carries => ?_
    rcases List.mem_cons.mp carries with first | copy
    · rw [first, pushed_sending, if_neg fun both => Bool.noConfusion both.1]
    · rw [pushed_copy sound distinct copy, relayed]
      simp

end Cluster

end RoomRelay
