import RoomRelay.Envelope
import RoomRelay.Proofs.Json.FreeForm

/-!
Envelopes over the wire. An envelope's text is read as that envelope with the payload that a reader
gets from the payload's text, and is malformed when there is none: when the payload opens more levels
than the record leaves it, or holds a number that is read as none.
-/

namespace RoomRelay

open Json

namespace UserEnvelope

/-- The levels that an envelope leaves its payload. -/
def payloadLevels : Nat := levelLimit - 1

private theorem decode_uuid (levels : Nat) (u : Uuid) :
    Uuid.decode levels u.toValue.document = .ok u := by
  simp [Uuid.decode, Decode.parsed, Decode.text, Uuid.toValue, Value.document, Uuid.parse_text]

private theorem decode_payload (levels : Nat) {v : Value} (plain_ : plain v.numbers = true) :
    Decode.value levels v.document =
      match v.received? levels with
      | some p => .ok p
      | none => .error .malformed := by
  rw [Decode.value, Value.received?, depth_document]
  by_cases deep : levels < v.depth
  · simp [deep, Nat.not_le.mpr deep]
  · have shallow := Nat.not_lt.mp deep
    cases v.document.value? <;> simp [deep, plain_, shallow]

/-- The fields of an envelope's document, in the order they are kept. -/
def given (e : UserEnvelope) : List (String × Document) :=
  [("sender_instance_id", e.senderInstanceId.toValue.document), ("payload", e.payload.document),
    ("user_id", e.userId.toValue.document), ("event_type", .string (some e.eventType))]

private theorem fields_document (e : UserEnvelope) :
    Decode.fields fieldNames levelLimit e.toValue.document =
      .ok ⟨false, payloadLevels, e.given⟩ := by
  rfl

private theorem given_lookup (e : UserEnvelope) :
    e.given.lookup "event_type" = some (.string (some e.eventType)) ∧
      e.given.lookup "user_id" = some e.userId.toValue.document ∧
      e.given.lookup "payload" = some e.payload.document ∧
      e.given.lookup "sender_instance_id" = some e.senderInstanceId.toValue.document := by
  simp [given, List.lookup_cons]

/-- An envelope is read from its text as far as its payload is. -/
theorem decode_render (e : UserEnvelope) :
    Decode.run decode e.toValue.render =
      match e.payload.received? payloadLevels with
      | some p => .ok { e with payload := p }
      | none => .error .malformed := by
  have numbers : e.toValue.numbers = e.payload.numbers := by
    simp [toValue, Value.numbers, Value.numbersMembers, Uuid.toValue]
  rw [Decode.run, Document.read_render, numbers]
  cases plain_ : plain e.payload.numbers with
  | false => simp [Value.received?, plain_]
  | true =>
    obtain ⟨eventType, userId, payload, sender⟩ := e.given_lookup
    simp only [if_true, decode, fields_document, bind, Except.bind, Decode.Fields.required,
      eventType, userId, payload, sender, Decode.text, decode_uuid, decode_payload _ plain_]
    cases e.payload.received? payloadLevels <;> rfl

end UserEnvelope

/-! ## Events in envelopes -/

namespace Event

/-- The payload that a hub reads from the envelope of an event, if it can read one. -/
def relayed? (e : Event) : Option Value := e.freeForm.received? UserEnvelope.payloadLevels

/-- The envelope of an event is read as far as the event's payload is. -/
theorem decode_envelope (sender user : Uuid) (e : Event) :
    Decode.run UserEnvelope.decode (UserEnvelope.ofEvent sender user e).toValue.render =
      match e.relayed? with
      | some p => .ok ⟨e.kind.name, user, p, sender⟩
      | none => .error .malformed :=
  UserEnvelope.decode_render (UserEnvelope.ofEvent sender user e)

/-- An event that is not too deep, and whose numbers are read as they were, is relayed as it is. -/
theorem relayed_exact {e : Event} (exact_ : ∀ n ∈ e.freeForm.numbers, n.Exact)
    (shallow : e.freeForm.depth ≤ UserEnvelope.payloadLevels) : e.relayed? = some e.freeForm :=
  received_arranged exact_ shallow

end Event

end RoomRelay
