import RoomRelay.Proofs.EnvelopeText
import RoomRelay.Proofs.Json.Records
import RoomRelay.Proofs.TimestampText

/-!
The records that travel between clients, hubs and the bus, written and read back. A record comes back
as it was, from its text as it was written and from its text in the order of its keys, whatever its
strings hold, whichever of its fields are there, and for every instant of the calendar. Free-form data
comes back when it is what free-form data is kept as, and the whole text opens no more levels than a
reader allows.
-/

namespace RoomRelay

open Json

variable {w : Value → Value}

section Fields

variable {f : Decode.Fields} {fs : List (String × Option Value)}

theorem Json.Carries.uuid (carries : Carries f w fs) (name : String) {u : Uuid}
    (member : (name, some u.toValue) ∈ fs) : f.required name Uuid.decode = .ok u :=
  carries.parsed Uuid.parse_text name member

private theorem Json.Carries.optionalUuid (carries : Carries f w fs) (name : String)
    {o : Option Uuid}
    (member : (name, o.map (·.toValue)) ∈ fs) : f.optional name Uuid.decode = .ok o :=
  carries.optionalParsed Uuid.parse_text name member

theorem Json.Carries.instant (carries : Carries f w fs) (name : String) {t : Timestamp}
    (member : (name, some t.toValue) ∈ fs) : f.required name Timestamp.decode = .ok t :=
  carries.parsed Timestamp.parse_text name member

private theorem Json.Carries.optionalInstant (carries : Carries f w fs) (name : String)
    {o : Option Timestamp} (member : (name, o.map (·.toValue)) ∈ fs) :
    f.optional name Timestamp.decode = .ok o :=
  carries.optionalParsed Timestamp.parse_text name member

end Fields

/-! ## Attachments -/

namespace Attachment

private theorem fieldNames_nodup : fieldNames.Nodup := by decide

/-- The size fits in 64 bits. -/
def Sized (a : Attachment) : Prop := a.sizeBytes < Word.span 64

instance (a : Attachment) : Decidable a.Sized := inferInstanceAs (Decidable (_ < _))

theorem Sized.word {a : Attachment} (sized : a.Sized) : (Number.whole a.sizeBytes).IsWord := by
  unfold Sized at sized
  have halves : (0 : Int) ≤ Word.span 63 := Int.natCast_nonneg _
  constructor <;> omega

theorem depth_toValue (a : Attachment) : a.toValue.depth ≤ 1 := by
  refine depth_record ?_
  simp [Value.depth, Value.int, Uuid.toValue]

theorem words_toValue {a : Attachment} (sized : a.Sized) : ∀ n ∈ a.toValue.numbers, n.IsWord := by
  refine words_record ?_
  simp [Value.numbers, Value.int, Uuid.toValue, sized.word]

theorem decode_document (reorders : Reorders w) {a : Attachment} (sized : a.Sized) {levels : Nat}
    (room : a.toValue.depth ≤ levels) : decode levels (w a.toValue).document = .ok a := by
  obtain ⟨f, read, carries⟩ := reorders.fields room fieldNames_nodup
  have id : f.required "id" Uuid.decode = .ok a.id := carries.uuid "id" (by simp)
  have url : f.required "url" Decode.text = .ok a.url := carries.text "url" (by simp)
  have mimeType : f.required "mime_type" Decode.text = .ok a.mimeType :=
    carries.text "mime_type" (by simp)
  have fileName : f.optional "file_name" Decode.text = .ok a.fileName :=
    carries.optionalText "file_name" (by simp)
  have sizeBytes : f.withDefault "size_bytes" (Decode.unsigned 64) 0 = .ok a.sizeBytes :=
    carries.withDefault "size_bytes" (by simp) fun _ =>
      reorders.unsigned sized sized.word f.levels
  have names : Decode.fields fieldNames levels (w a.toValue).document = .ok f := read
  simp only [decode, names, id, url, mimeType, fileName, sizeBytes, bind, Except.bind]
  rfl

end Attachment

/-! ## Messages -/

namespace Message

private theorem fieldNames_nodup : fieldNames.Nodup := by decide

def Sized (m : Message) : Prop := ∀ a ∈ m.attachments, a.Sized

instance (m : Message) : Decidable m.Sized := inferInstanceAs (Decidable (∀ a ∈ m.attachments, _))

/-- A message with attachments opens a level for their list and one for each of them. -/
theorem depth_toValue (m : Message) : m.toValue.depth ≤ 3 := by
  refine depth_record ?_
  simp only [List.forall_mem_cons]
  refine ⟨by simp [Value.depth, Uuid.toValue], by simp [Value.depth, Uuid.toValue],
    by simp [Value.depth, Uuid.toValue], by simp [Value.depth], by simp [Value.depth],
    by simp [Value.depth, Timestamp.toValue], ?_, by simp⟩
  intro v held
  split at held
  · cases held
  · cases held
    refine Nat.succ_le_succ (depthItems_le_iff.mpr ?_)
    intro v written
    obtain ⟨a, -, rfl⟩ := List.mem_map.mp written
    exact a.depth_toValue

theorem words_toValue {m : Message} (sized : m.Sized) : ∀ n ∈ m.toValue.numbers, n.IsWord := by
  refine words_record ?_
  simp only [List.forall_mem_cons]
  refine ⟨by simp [Value.numbers, Uuid.toValue], by simp [Value.numbers, Uuid.toValue],
    by simp [Value.numbers, Uuid.toValue], by simp [Value.numbers], by simp [Value.numbers],
    by simp [Value.numbers, Timestamp.toValue], ?_, by simp⟩
  intro v held n member
  split at held
  · cases held
  · cases held
    obtain ⟨v, written, inside⟩ := mem_numbersItems.mp member
    obtain ⟨a, attached, rfl⟩ := List.mem_map.mp written
    exact Attachment.words_toValue (sized a attached) n inside

private theorem document_not_null (reorders : Reorders w) (m : Message) :
    (w m.toValue).document ≠ .null := by
  refine reorders.object_not_null (List.Nodup.sublist (keys_presentFields _) ?_)
  exact fieldNames_nodup

theorem decode_document (reorders : Reorders w) {m : Message} (sized : m.Sized) {levels : Nat}
    (room : m.toValue.depth ≤ levels) : decode levels (w m.toValue).document = .ok m := by
  obtain ⟨f, read, carries⟩ := reorders.fields room fieldNames_nodup
  have id : f.required "id" Uuid.decode = .ok m.id := carries.uuid "id" (by simp)
  have roomId : f.required "room_id" Uuid.decode = .ok m.roomId := carries.uuid "room_id" (by simp)
  have senderId : f.required "sender_id" Uuid.decode = .ok m.senderId :=
    carries.uuid "sender_id" (by simp)
  have content : f.withDefault "content" Decode.text "" = .ok m.content :=
    carries.withDefault "content" (by simp) fun _ => reorders.text f.levels m.content
  have messageType : f.withDefault "message_type" Decode.text "text" = .ok m.messageType :=
    carries.withDefault "message_type" (by simp) fun _ => reorders.text f.levels m.messageType
  have createdAt : f.required "created_at" Timestamp.decode = .ok m.createdAt :=
    carries.instant "created_at" (by simp)
  -- an empty list is left out, and is what its absence stands for
  have attachments : f.withDefault "attachments" (Decode.list Attachment.decode) [] =
      .ok m.attachments := by
    by_cases none_ : m.attachments.isEmpty = true
    · rw [List.isEmpty_iff.mp none_]
      exact carries.withDefault_absent "attachments" (by simp [none_])
    · exact carries.withDefault "attachments" (by simp [none_]) fun inside =>
        reorders.list inside fun _ a attached => Attachment.decode_document reorders (sized a attached)
  have names : Decode.fields fieldNames levels (w m.toValue).document = .ok f := read
  simp only [decode, names, id, roomId, senderId, content, messageType, createdAt, attachments, bind,
    Except.bind]
  rfl

end Message

/-! ## Notifications -/

namespace Notification

private theorem fieldNames_nodup : fieldNames.Nodup := by decide

/-- The data is free-form, and the text opens no more levels than a reader allows. -/
structure Representable (n : Notification) : Prop where
  data : n.data.FreeForm
  shallow : n.toValue.depth ≤ levelLimit

theorem words_toValue {n : Notification} (free : n.data.FreeForm) :
    ∀ i ∈ n.toValue.numbers, i.IsWord := by
  refine words_record ?_
  simp only [List.forall_mem_cons]
  refine ⟨by simp [Value.numbers, Uuid.toValue], by simp [Value.numbers],
    by simp [Value.numbers, Uuid.toValue], by simp [Value.numbers], by simp [Value.numbers], ?_,
    by simp [Value.numbers, Timestamp.toValue], by simp [Value.numbers, Timestamp.toValue], by simp⟩
  rintro v ⟨rfl⟩
  exact free.words

theorem decode_document (reorders : Reorders w) {n : Notification} (free : n.data.FreeForm)
    {levels : Nat} (room : n.toValue.depth ≤ levels) :
    decode levels (w n.toValue).document = .ok n := by
  obtain ⟨f, read, carries⟩ := reorders.fields room fieldNames_nodup
  have id : f.required "id" Uuid.decode = .ok n.id := carries.uuid "id" (by simp)
  have kind : f.required "type" Decode.text = .ok n.kind := carries.text "type" (by simp)
  have actorId : f.optional "actor_id" Uuid.decode = .ok n.actorId :=
    carries.optionalUuid "actor_id" (by simp)
  have title : f.optional "title" Decode.text = .ok n.title :=
    carries.optionalText "title" (by simp)
  have body : f.optional "body" Decode.text = .ok n.body := carries.optionalText "body" (by simp)
  have data : f.withDefault "data" Decode.value .null = .ok n.data :=
    carries.withDefault "data" (by simp) fun inside => reorders.value free inside
  have readAt : f.optional "read_at" Timestamp.decode = .ok n.readAt :=
    carries.optionalInstant "read_at" (by simp)
  have createdAt : f.required "created_at" Timestamp.decode = .ok n.createdAt :=
    carries.instant "created_at" (by simp)
  have names : Decode.fields fieldNames levels (w n.toValue).document = .ok f := read
  simp only [decode, names, id, kind, actorId, title, body, data, readAt, createdAt, bind,
    Except.bind]
  rfl

end Notification

/-! ## Events -/

private theorem EventKind.named_name (k : EventKind) : EventKind.named? k.name = some k := by
  cases k <;> decide

namespace Event

private theorem fieldNames_nodup : fieldNames.Nodup := by decide

/-- The sizes in the message fit in 64 bits, the data is free-form, and the text opens no more
levels than a reader allows. -/
structure Representable (e : Event) : Prop where
  sized : ∀ m, e.message = some m → m.Sized
  data : ∀ ms, e.data = some ms → (Value.object ms).FreeForm
  shallow : e.toValue.depth ≤ levelLimit

theorem words_toValue {e : Event} (representable : e.Representable) :
    ∀ n ∈ e.toValue.numbers, n.IsWord := by
  refine words_record ?_
  simp only [List.forall_mem_cons]
  refine ⟨by simp [Value.numbers], by simp [Value.numbers, Uuid.toValue],
    by simp [Value.numbers, Uuid.toValue], by simp [Value.numbers, Uuid.toValue], ?_, ?_, by simp⟩
  · intro v held
    obtain ⟨m, given, rfl⟩ := Option.map_eq_some_iff.mp held
    exact Message.words_toValue (representable.sized m given)
  · intro v held
    obtain ⟨ms, given, rfl⟩ := Option.map_eq_some_iff.mp held
    exact (representable.data ms given).words

theorem decode_document (reorders : Reorders w) {e : Event} (representable : e.Representable) :
    decode levelLimit (w e.toValue).document = .ok e := by
  obtain ⟨f, read, carries⟩ := reorders.fields representable.shallow fieldNames_nodup
  have kind : f.required "type" (Decode.word EventKind.named?) = .ok e.kind :=
    carries.required "type" (by simp) fun _ => reorders.word e.kind.named_name f.levels
  have roomId : f.optional "room_id" Uuid.decode = .ok e.roomId :=
    carries.optionalUuid "room_id" (by simp)
  have senderId : f.optional "sender_id" Uuid.decode = .ok e.senderId :=
    carries.optionalUuid "sender_id" (by simp)
  have messageId : f.optional "message_id" Uuid.decode = .ok e.messageId :=
    carries.optionalUuid "message_id" (by simp)
  have message : f.optional "message" Message.decode = .ok e.message :=
    carries.optional "message" (by simp) fun m given inside =>
      ⟨m.document_not_null reorders, Message.decode_document reorders (representable.sized m given) inside⟩
  have data : f.optional "data" Decode.members = .ok e.data :=
    carries.optional "data" (by simp) fun ms given inside =>
      ⟨reorders.object_not_null (representable.data ms given).nodup,
        reorders.members (representable.data ms given) inside⟩
  have names : Decode.fields fieldNames levelLimit (w e.toValue).document = .ok f := read
  simp only [decode, names, kind, roomId, senderId, messageId, message, data, bind, Except.bind]
  rfl

/-- An event is read from its text, in either order of its members. -/
theorem decode_written (reorders : Reorders w) {e : Event} (representable : e.Representable) :
    Decode.run decode (w e.toValue).render = .ok e :=
  reorders.run (words_toValue representable) (decode_document reorders representable)

end Event

/-! ## What hubs tell each other -/

namespace PresenceNotice

private theorem fieldNames_nodup : fieldNames.Nodup := by decide

theorem decode_document (reorders : Reorders w) (n : PresenceNotice) :
    decode levelLimit (w n.toValue).document = .ok n := by
  have room : (Value.object (presentFields [("user_id", some n.userId.toValue),
      ("online", some (.bool n.online)), ("instance_id", some n.instanceId.toValue)])).depth ≤
      levelLimit := Nat.le_of_ble_eq_true rfl
  obtain ⟨f, read, carries⟩ := reorders.fields room fieldNames_nodup
  have userId : f.required "user_id" Uuid.decode = .ok n.userId := carries.uuid "user_id" (by simp)
  have online : f.required "online" Decode.bool = .ok n.online :=
    carries.required "online" (by simp) fun _ => reorders.flag f.levels n.online
  have instanceId : f.required "instance_id" Uuid.decode = .ok n.instanceId :=
    carries.uuid "instance_id" (by simp)
  have names : Decode.fields fieldNames levelLimit (w n.toValue).document = .ok f := read
  simp only [decode, names, userId, online, instanceId, bind, Except.bind]
  rfl

theorem words_toValue (n : PresenceNotice) : ∀ i ∈ n.toValue.numbers, i.IsWord := by
  simp [toValue, Value.numbers, Value.numbersMembers, Uuid.toValue]

end PresenceNotice

namespace UserEnvelope

/-- The payload is free-form, and the text opens no more levels than a reader allows. -/
structure Representable (e : UserEnvelope) : Prop where
  payload : e.payload.FreeForm
  shallow : e.toValue.depth ≤ levelLimit

/-- The payload is one level inside. -/
private theorem depth_payload {e : UserEnvelope} (shallow : e.toValue.depth ≤ levelLimit) :
    e.payload.depth ≤ payloadLevels := by
  have inside := depthMembers_le_iff.mp (Nat.le_of_succ_le_succ (m := payloadLevels) shallow)
  exact inside ("payload", e.payload) (by simp)

theorem decode_written {e : UserEnvelope} (representable : e.Representable) :
    Decode.run decode e.toValue.render = .ok e := by
  obtain ⟨free, shallow⟩ := representable
  have exact_ : ∀ n ∈ e.payload.arranged.numbers, n.Exact := fun n member =>
    (free.words n (free.ordered ▸ member)).exact
  have received := received_arranged exact_ (free.ordered.symm ▸ depth_payload shallow)
  rw [free.ordered] at received
  rw [decode_render, received]

end UserEnvelope

/-! ## All of them -/

/-- Whatever a hub writes of these records, a reader gets back what was written. -/
theorem wire_formats_round_trip :
    (∀ e : Event, e.Representable → Decode.run Event.decode e.render = .ok e) ∧
    (∀ m : Message, m.Sized → Decode.run Message.decode m.toValue.render = .ok m) ∧
    (∀ n : Notification, n.Representable →
      Decode.run Notification.decode n.toValue.render = .ok n) ∧
    (∀ e : UserEnvelope, e.Representable →
      Decode.run UserEnvelope.decode e.toValue.render = .ok e) ∧
    ∀ n : PresenceNotice, Decode.run PresenceNotice.decode n.toValue.render = .ok n := by
  refine ⟨?_, ?_, ?_, ?_, ?_⟩
  · intro e representable
    exact Event.decode_written .id representable
  · intro m sized
    have room : m.toValue.depth ≤ levelLimit := Nat.le_trans m.depth_toValue (by decide)
    exact Reorders.id.run (Message.words_toValue sized) (Message.decode_document .id sized room)
  · intro n representable
    exact Reorders.id.run (Notification.words_toValue representable.data)
      (Notification.decode_document .id representable.data representable.shallow)
  · intro e representable
    exact UserEnvelope.decode_written representable
  · intro n
    exact Reorders.id.run n.words_toValue (n.decode_document .id)

/-- The last nanosecond of a leap second in the first year there is. -/
def firstYearLeapSecond : Timestamp :=
  ⟨⟨-262143, 12, 31⟩, 23, 59, 60, 999999999, by decide, by decide, by decide, by decide, by decide⟩

/-- A message with text that has to be escaped and the greatest size there is. -/
def awkwardMessage : Message :=
  { id := .ofNat 1, roomId := .ofNat 2, senderId := .ofNat 3, content := "\"\\\n\x01é",
    createdAt := firstYearLeapSecond,
    attachments := [⟨.ofNat 4, "/", "text/plain", none, Word.span 64 - 1⟩, ⟨.ofNat 5, "", "", "", 0⟩] }

/-- Free-form data with both ends of the whole numbers and null in it. -/
def awkwardData : Members :=
  [("", .array [.int (-(Word.span 63 : Int)), .int (Word.span 64 - 1), .null]),
    ("data", .object [("data", .null)])]

def awkwardEvent : Event :=
  { kind := .notificationState, message := some awkwardMessage, data := some awkwardData }

def awkwardNotification : Notification :=
  { id := .ofNat 6, kind := "", data := .null, createdAt := firstYearLeapSecond }

def awkwardEnvelope : UserEnvelope := ⟨"", .ofNat 7, .object awkwardData, .ofNat 8⟩

private theorem awkwardData_freeForm : (Value.object awkwardData).FreeForm := ⟨rfl, by decide⟩

theorem awkward_records_round_trip :
    (awkwardEvent.Representable ∧
      Decode.run Event.decode awkwardEvent.render = .ok awkwardEvent) ∧
    (awkwardMessage.Sized ∧
      Decode.run Message.decode awkwardMessage.toValue.render = .ok awkwardMessage) ∧
    (awkwardNotification.Representable ∧
      Decode.run Notification.decode awkwardNotification.toValue.render = .ok awkwardNotification) ∧
    (awkwardEnvelope.Representable ∧
      Decode.run UserEnvelope.decode awkwardEnvelope.toValue.render = .ok awkwardEnvelope) := by
  obtain ⟨events, messages, notifications, envelopes, -⟩ := wire_formats_round_trip
  have event : awkwardEvent.Representable := by
    refine ⟨?_, ?_, by decide⟩
    · rintro m ⟨rfl⟩
      decide
    · rintro ms ⟨rfl⟩
      exact awkwardData_freeForm
  have message : awkwardMessage.Sized := by decide
  have notification : awkwardNotification.Representable := ⟨⟨rfl, by decide⟩, by decide⟩
  have envelope : awkwardEnvelope.Representable := ⟨awkwardData_freeForm, by decide⟩
  exact ⟨⟨event, events _ event⟩, ⟨message, messages _ message⟩,
    ⟨notification, notifications _ notification⟩, envelope, envelopes _ envelope⟩

end RoomRelay
