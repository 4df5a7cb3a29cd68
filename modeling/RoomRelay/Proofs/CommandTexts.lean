import RoomRelay.Hub.Conversation
import RoomRelay.Proofs.Json.Accepting

/-!
What command a text spells. The command should depend on the type and on the one field that the type
needs, whatever JSON the other fields hold, and a field that does not serve is told by the code of
that field. But the whole frame is read before its type is looked at, and its room is read as text or
null. So a text whose room is JSON of another kind is refused as a whole, also where its type needs no
room, and for every other text the command is the right one.
-/

namespace RoomRelay

open Json

/-! ## Members of documents -/

namespace Json.Document

/-- The document under a key among the members of an object. -/
def field? (ms : List (Option String × Document)) (key : String) : Option Document :=
  ms.lookup (some key)

/-- The member of an object under a key, the last of several. Other documents have none. -/
def last? (key : String) : Document → Option Document
  | .object ms => ms.reverse.lookup (some key)
  | _ => none

/-- The text of a string. -/
def text? : Document → Option String
  | .string text => text
  | _ => none

def flag? : Document → Option Bool
  | .bool b => some b
  | _ => none

/-- Whether a document is given that is the text of an identifier. -/
def Spells (d : Option Document) (u : Uuid) : Prop := (d.bind text?).bind Uuid.parse? = some u

variable {ms : List (Option String × Document)} {key name : String} {d : Document} {v : Value}

private theorem field_cons_self : field? ((some key, d) :: ms) key = some d := by
  exact List.lookup_cons_self

private theorem field_cons_other (other : name ≠ key) :
    field? ((some key, d) :: ms) name = field? ms name := by
  have differ : (some name == some key) = false := by simpa using other
  rw [field?, List.lookup_cons, differ, field?]

private theorem field_eq_none (absent : (ms.map Prod.fst).count (some key) = 0) :
    field? ms key = none := by
  apply List.lookup_eq_none_iff.mpr
  intro m member
  have differ : some key ≠ m.1 := by
    intro same
    apply List.count_eq_zero.mp absent
    rw [same]
    exact List.mem_map_of_mem member
  simpa using differ

/-- What a member opens is opened one level further in than the object. -/
private theorem field_depth (found : field? ms key = some d) : d.depth < (object ms).depth := by
  show d.depth < depthMembers ms + 1
  induction ms with
  | nil => cases found
  | cons m rest ih =>
    obtain ⟨k, e⟩ := m
    rw [field?, List.lookup_cons] at found
    rw [depthMembers]
    split at found
    · cases found
      omega
    · have inRest := ih found
      omega

end Json.Document

namespace Json.Members

private theorem get_cons (name key : String) (v : Value) (ms : Members) :
    Members.get? name ((key, v) :: ms) = if name = key then some v else ms.get? name := by
  by_cases same : name = key
  · rw [if_pos same, same, get?, List.lookup_cons_self]
  · have differ : (name == key) = false := by simpa using same
    rw [if_neg same, get?, List.lookup_cons, differ, get?]

private theorem get_set (key name : String) (v : Value) (ms : Members) :
    (ms.set key v).get? name = if name = key then some v else ms.get? name := by
  induction ms with
  | nil => exact get_cons name key v []
  | cons m rest ih =>
    obtain ⟨k, w⟩ := m
    rw [set]
    split
    · rename_i same
      subst same
      rw [get_cons, get_cons]
      split
      · rfl
      · rfl
    · split
      · exact get_cons name key v _
      · rename_i other _
        rw [get_cons, get_cons, ih]
        by_cases here : name = key
        · subst here
          rw [if_neg other, if_pos rfl, if_pos rfl]
        · rw [if_neg here, if_neg here]

end Json.Members

namespace Json.Document

private theorem valueMembers_cons {m : Option String × Document}
    {rest : List (Option String × Document)}
    {acc ms : Members} (kept : valueMembers? acc (m :: rest) = some ms) :
    ∃ k v, m.1 = some k ∧ m.2.value? = some v ∧ valueMembers? (acc.set k v) rest = some ms := by
  obtain ⟨key, d⟩ := m
  cases key with
  | none => cases kept
  | some k =>
    cases value : d.value? with
    | none =>
      simp only [valueMembers?, value] at kept
      cases kept
    | some v =>
      simp only [valueMembers?, value] at kept
      exact ⟨k, v, rfl, rfl, kept⟩

/-- Of the members under one key, the value of the last is kept. -/
private theorem valueMembers_get {members : List (Option String × Document)} {acc ms : Members}
    (kept : valueMembers? acc members = some ms) (key : String) :
    (∃ d v, members.reverse.lookup (some key) = some d ∧ d.value? = some v ∧ ms.get? key = some v) ∨
      members.reverse.lookup (some key) = none ∧ ms.get? key = acc.get? key := by
  induction members generalizing acc with
  | nil =>
    cases kept
    exact .inr ⟨rfl, rfl⟩
  | cons m rest ih =>
    obtain ⟨key', e⟩ := m
    obtain ⟨k, w, rfl, value, kept⟩ := valueMembers_cons kept
    rw [List.reverse_cons, List.lookup_append]
    rcases ih kept with ⟨d, v, found, is, got⟩ | ⟨absent, got⟩
    · refine .inl ⟨d, v, ?_, is, got⟩
      rw [found, Option.some_or]
    · rw [absent, Option.none_or]
      rw [Members.get_set] at got
      by_cases same : key = k
      · rw [if_pos same] at got
        subst same
        exact .inl ⟨e, w, field_cons_self, value, got⟩
      · rw [if_neg same] at got
        exact .inr ⟨field_cons_other same, got⟩

/-- A member of a value is the value of the member. -/
private theorem get_value {d : Document} {v : Value} (kept : d.value? = some v) (key : String) :
    Option.Rel (fun e w => e.value? = some w) (d.last? key) (v.get? key) := by
  cases d with
  | null | bool _ =>
    cases kept
    exact .none
  | number _ | string _ | array _ =>
    obtain ⟨_, -, rfl⟩ := Option.map_eq_some_iff.mp kept
    exact .none
  | object members =>
    obtain ⟨ms, gathered, rfl⟩ := Option.map_eq_some_iff.mp kept
    rcases valueMembers_get gathered key with ⟨e, w, found, is, got⟩ | ⟨absent, got⟩
    · rw [last?, found, Value.get?, got]
      exact .some is
    · rw [last?, absent, Value.get?, got]
      exact .none

/-- What is read off a member is read off its value alike. -/
private theorem bind_of_rel {α : Type} {e : Option Document} {o : Option Value}
    {f : Document → Option α}
    {g : Value → Option α} (rel : Option.Rel (fun e w => e.value? = some w) e o)
    (same : ∀ d v, d.value? = some v → g v = f d) : o.bind g = e.bind f := by
  cases rel with
  | some kept => exact same _ _ kept
  | none => rfl

/-- The value of a string or flag is the same string or flag, and no other document has one. -/
private theorem scalars_value {d : Document} {v : Value} (kept : d.value? = some v) :
    v.asText? = d.text? ∧ v.asBool? = d.flag? := by
  cases d with
  | null | bool _ =>
    cases kept
    exact ⟨rfl, rfl⟩
  | string _ =>
    obtain ⟨s, rfl, rfl⟩ := Option.map_eq_some_iff.mp kept
    exact ⟨rfl, rfl⟩
  | number _ | array _ | object _ =>
    obtain ⟨_, -, rfl⟩ := Option.map_eq_some_iff.mp kept
    exact ⟨rfl, rfl⟩

end Json.Document

/-! ## Reading a frame -/

open Json.Document

namespace Frame

variable {ms : List (Option String × Document)} {t : String} {f : Frame}

/-- No known field is given twice. -/
def Single (ms : List (Option String × Document)) : Prop :=
  ∀ name ∈ fieldNames, (ms.map Prod.fst).count (some name) ≤ 1

/-- Text, or nothing said: what the room of a frame is read as. -/
def IsTextOrNull (d : Option Document) : Prop :=
  d = none ∨ d = some .null ∨ ∃ s, d = some (.string (some s))

/-- The members of an object that is read as a frame. What fields that are not known hold plays no
part. -/
structure Readable (ms : List (Option String × Document)) : Prop where
  /-- No key names half of a surrogate pair alone. -/
  keys : ∀ m ∈ ms, m.1 ≠ none
  room : IsTextOrNull (field? ms "room_id")
  /-- The data, when given, is free-form: its strings are text and its numbers have a value. -/
  data : ∀ d, field? ms "data" = some d → d.value? ≠ none

/-- The data of a frame. Null counts as none. -/
def content? : Document → Option Value
  | .null => none
  | d => d.value?

private theorem content_eq_value {d : Document} (notNull : d ≠ .null) : content? d = d.value? := by
  cases d with
  | null => exact absurd rfl notNull
  | _ => rfl

/-- The frame that members spell. -/
def spelled (t : String) (ms : List (Option String × Document)) : Frame where
  kind := t
  roomId := (field? ms "room_id").bind text?
  data := (field? ms "data").bind content?

private theorem knownFields_cons_known {names : List String} {acc : List (String × Document)}
    {key : String}
    {d : Document} (known : key ∈ names) (fresh : acc.lookup key = none) :
    Decode.knownFields names ((some key, d) :: ms) acc =
      Decode.knownFields names ms ((key, d) :: acc) := by
  have notGiven : ¬ (acc.lookup key).isSome = true := by simp [fresh]
  rw [Decode.knownFields, if_pos (List.contains_iff_mem.mpr known), if_neg notGiven]

private theorem knownFields_cons_other {names : List String} {acc : List (String × Document)}
    {key : String}
    {d : Document} (other : key ∉ names) :
    Decode.knownFields names ((some key, d) :: ms) acc = Decode.knownFields names ms acc := by
  rw [Decode.knownFields, if_neg (by rwa [List.contains_iff_mem])]

/-- The known fields of an object with single fields are what stands under their names. -/
private theorem knownFields_of_single {names : List String} {acc : List (String × Document)}
    (keys : ∀ m ∈ ms, m.1 ≠ none)
    (once : ∀ name ∈ names,
      (ms.map Prod.fst).count (some name) + (acc.map Prod.fst).count name ≤ 1) :
    ∃ given, Decode.knownFields names ms acc = .ok given ∧
      ∀ name ∈ names, given.lookup name = (field? ms name).or (acc.lookup name) := by
  induction ms generalizing acc with
  | nil => exact ⟨acc, rfl, fun _ _ => rfl⟩
  | cons m rest ih =>
    obtain ⟨key, d⟩ := m
    have keysRest : ∀ m ∈ rest, m.1 ≠ none := fun m member => keys m (List.mem_cons_of_mem _ member)
    cases key with
    | none => exact absurd rfl (keys _ List.mem_cons_self)
    | some key =>
      simp only [List.map_cons] at once
      by_cases known : key ∈ names
      · -- what is taken in stands neither among the taken nor among the rest
        have count := once key known
        rw [List.count_cons_self] at count
        have fresh : acc.lookup key = none := by
          apply lookup_eq_none
          apply List.count_eq_zero.mp
          omega
        have behind : field? rest key = none := by
          apply field_eq_none
          omega
        have onceRest : ∀ name ∈ names, (rest.map Prod.fst).count (some name) +
            (((key, d) :: acc).map Prod.fst).count name ≤ 1 := by
          intro name member
          have count := once name member
          rw [List.count_cons] at count
          rw [List.map_cons, List.count_cons]
          simpa [Nat.add_comm, Nat.add_left_comm, Nat.add_assoc] using count
        rw [knownFields_cons_known known fresh]
        obtain ⟨given, read, found⟩ := ih keysRest onceRest
        refine ⟨given, read, fun name member => ?_⟩
        rw [found name member]
        by_cases same : name = key
        · subst same
          rw [behind, field_cons_self, Option.none_or, List.lookup_cons_self, Option.some_or]
        · have differ : (name == key) = false := by simpa using same
          rw [field_cons_other same, List.lookup_cons, differ]
      · have onceRest : ∀ name ∈ names,
            (rest.map Prod.fst).count (some name) + (acc.map Prod.fst).count name ≤ 1 := by
          intro name member
          have count := once name member
          rw [List.count_cons] at count
          omega
        rw [knownFields_cons_other known]
        obtain ⟨given, read, found⟩ := ih keysRest onceRest
        refine ⟨given, read, fun name member => ?_⟩
        have other : name ≠ key := by
          rintro rfl
          exact known member
        rw [found name member, field_cons_other other]

/-- An object with a key that is no text has no fields. -/
private theorem keys_of_knownFields {names : List String} {acc given : List (String × Document)}
    (read : Decode.knownFields names ms acc = .ok given) : ∀ m ∈ ms, m.1 ≠ none := by
  induction ms generalizing acc with
  | nil => exact fun _ none => nomatch none
  | cons m rest ih =>
    obtain ⟨key, d⟩ := m
    cases key with
    | none => cases read
    | some key =>
      have inRest : ∃ acc, Decode.knownFields names rest acc = .ok given := by
        rw [Decode.knownFields] at read
        split at read
        · split at read
          · cases read
          · exact ⟨_, read⟩
        · exact ⟨_, read⟩
      obtain ⟨acc, read⟩ := inRest
      intro m member
      rcases List.mem_cons.mp member with rfl | member
      · exact Option.some_ne_none key
      · exact ih read m member

private theorem nullableText_ok_iff {levels : Nat} {d : Document} {o : Option String} :
    Decode.nullable Decode.text levels d = .ok o ↔
      IsTextOrNull (some d) ∧ o = text? d := by
  cases d with
  | null => simp [Decode.nullable, IsTextOrNull, text?, eq_comm]
  | string text =>
    cases text with
    | none => simp [Decode.nullable, Decode.text, Except.map, IsTextOrNull]
    | some s => simp [Decode.nullable, Decode.text, Except.map, IsTextOrNull, text?, eq_comm]
  | bool _ | number _ | array _ | object _ =>
    simp [Decode.nullable, Decode.text, Except.map, IsTextOrNull]

private theorem nullableValue_ok_iff {levels : Nat} {d : Document} {o : Option Value}
    (shallow : d.depth ≤ levels) :
    Decode.nullable Decode.value levels d = .ok o ↔ d.value? ≠ none ∧ o = content? d := by
  by_cases isNull : d = .null
  · subst isNull
    simp [Decode.nullable, Document.value?, content?, eq_comm]
  · have read : Decode.nullable Decode.value levels d = (Decode.value levels d).map some := by
      cases d with
      | null => exact absurd rfl isNull
      | _ => rfl
    rw [read, content_eq_value isNull, Decode.value, if_neg (Nat.not_lt.mpr shallow)]
    cases d.value? with
    | none => simp [Except.map]
    | some v => simp [Except.map, eq_comm]

section Fields

variable {given : Decode.Fields} {name : String} {e : Option Document}

private theorem optionalText_ok_iff {o : Option String} (found : given.given.lookup name = e) :
    given.optional name Decode.text = .ok o ↔ IsTextOrNull e ∧ o = e.bind text? := by
  rw [Decode.Fields.optional, Decode.Fields.withDefault, found]
  cases e with
  | none => simp [IsTextOrNull, eq_comm]
  | some d => exact nullableText_ok_iff

private theorem optionalValue_ok_iff {o : Option Value} (found : given.given.lookup name = e)
    (shallow : ∀ d, e = some d → d.depth ≤ given.levels) :
    given.optional name Decode.value = .ok o ↔
      (∀ d, e = some d → d.value? ≠ none) ∧ o = e.bind content? := by
  rw [Decode.Fields.optional, Decode.Fields.withDefault, found]
  cases e with
  | none => simp [eq_comm]
  | some d =>
    refine (nullableValue_ok_iff (shallow d rfl)).trans ?_
    simp

/-- What a frame with a type is read as rests on its room and its data. -/
private theorem decode_ok_of_fields {levels : Nat} {d : Document}
    (read : Decode.fields fieldNames levels d = .ok given)
    (typed : given.given.lookup "type" = some (.string (some t))) :
    Frame.decode levels d = .ok f ↔ ∃ room data, given.optional "room_id" Decode.text = .ok room ∧
      given.optional "data" Decode.value = .ok data ∧ f = ⟨t, room, data⟩ := by
  have kind : given.required "type" Decode.text = .ok t := by
    rw [Decode.Fields.required, typed]
    rfl
  constructor
  · intro decoded
    obtain ⟨fields, same, decoded⟩ := bind_ok decoded
    cases read.symm.trans same
    obtain ⟨kind', same, decoded⟩ := bind_ok decoded
    cases kind.symm.trans same
    obtain ⟨room, roomRead, decoded⟩ := bind_ok decoded
    obtain ⟨data, dataRead, decoded⟩ := bind_ok decoded
    cases decoded
    exact ⟨room, data, roomRead, dataRead, rfl⟩
  · rintro ⟨room, data, roomRead, dataRead, rfl⟩
    simp only [Frame.decode, read, kind, roomRead, dataRead, bind, Except.bind, pure, Except.pure]

end Fields

/-- An object whose type is a text is read as a frame when it is readable, and then as the frame
that it spells. -/
private theorem decode_ok_iff (typed : field? ms "type" = some (.string (some t)))
    (once : Single ms)
    (shallow : (Document.object ms).depth ≤ levelLimit) :
    Frame.decode levelLimit (.object ms) = .ok f ↔ Readable ms ∧ f = spelled t ms := by
  have enough : ∀ d, field? ms "data" = some d → d.depth ≤ 126 := by
    intro d found
    have inside := field_depth found
    unfold levelLimit at shallow
    omega
  by_cases keys : ∀ m ∈ ms, m.1 ≠ none
  · obtain ⟨given, known, found⟩ := @knownFields_of_single ms _ [] keys once
    have fields : Decode.fields fieldNames levelLimit (.object ms) = .ok ⟨false, 126, given⟩ := by
      show (Decode.knownFields fieldNames ms []).map _ = _
      rw [known]
      rfl
    have stands : ∀ name ∈ fieldNames, given.lookup name = field? ms name := by
      intro name member
      rw [found name member]
      exact Option.or_none
    have kind : given.lookup "type" = some (.string (some t)) := by
      rw [stands _ (by decide), typed]
    have room := fun o => @optionalText_ok_iff ⟨false, 126, given⟩ _ _ o (stands "room_id" (by decide))
    have data := fun o =>
      @optionalValue_ok_iff ⟨false, 126, given⟩ _ _ o (stands "data" (by decide)) enough
    rw [decode_ok_of_fields fields kind]
    simp only [room, data]
    constructor
    · rintro ⟨room, data, ⟨roomFits, rfl⟩, ⟨dataFits, rfl⟩, rfl⟩
      exact ⟨⟨keys, roomFits, dataFits⟩, rfl⟩
    · rintro ⟨readable, rfl⟩
      exact ⟨_, _, ⟨readable.room, rfl⟩, ⟨readable.data, rfl⟩, rfl⟩
  · refine iff_of_false ?_ fun read => keys read.1.keys
    intro read
    obtain ⟨fields, read, -⟩ := bind_ok read
    have known : ∃ given, Decode.knownFields fieldNames ms [] = .ok given := by
      obtain ⟨given, known, -⟩ := map_ok (show (Decode.knownFields fieldNames ms []).map _ = _ from read)
      exact ⟨given, known⟩
    obtain ⟨given, known⟩ := known
    exact keys (keys_of_knownFields known)

/-! ## The command -/

private theorem room_spelled (t : String) (ms : List (Option String × Document)) :
    (∃ u, Spells (field? ms "room_id") u ∧ (spelled t ms).room = .ok u) ∨
      (∀ u, ¬ Spells (field? ms "room_id") u) ∧ (spelled t ms).room = .error .invalidRoomId := by
  cases found : ((field? ms "room_id").bind text?).bind Uuid.parse? with
  | none =>
    refine .inr ⟨?_, ?_⟩
    · intro u spells
      exact Option.some_ne_none u (spells.symm.trans found)
    · rw [room, spelled, found]
  | some u =>
    refine .inl ⟨u, found, ?_⟩
    rw [room, spelled, found]

/-- A member of the frame's data is what stands last under its key in the data. -/
private theorem datum_spelled (readable : Readable ms) (key : String) :
    Option.Rel (fun e w => e.value? = some w) ((field? ms "data").bind (last? key))
      ((spelled t ms).datum? key) := by
  cases found : field? ms "data" with
  | none =>
    rw [datum?, spelled, found]
    exact .none
  | some d =>
    rw [datum?, spelled, found]
    by_cases isNull : d = .null
    · subst isNull
      exact .none
    · obtain ⟨v, kept⟩ := Option.ne_none_iff_exists'.mp (readable.data d found)
      show Option.Rel _ (d.last? key) ((content? d).bind (·.get? key))
      rw [content_eq_value isNull, kept]
      exact get_value kept key

private theorem flag_spelled (readable : Readable ms) (key : String) :
    ((spelled t ms).datum? key).bind Value.asBool? =
      ((field? ms "data").bind (last? key)).bind flag? :=
  bind_of_rel (datum_spelled readable key) fun _ _ kept => (scalars_value kept).2

private theorem text_spelled (readable : Readable ms) (key : String) :
    ((spelled t ms).datum? key).bind Value.asText? =
      ((field? ms "data").bind (last? key)).bind text? :=
  bind_of_rel (datum_spelled readable key) fun _ _ kept => (scalars_value kept).1

/-- Data that is null asks for the same page as no data. -/
private theorem page_spelled : SyncParams.ofData (spelled t ms).data =
    SyncParams.ofData ((field? ms "data").bind Document.value?) := by
  show SyncParams.ofData ((field? ms "data").bind content?) = _
  cases field? ms "data" with
  | none => rfl
  | some d =>
    cases d with
    | null => rfl
    | _ => rfl

end Frame

namespace Command

/-- The types that are known. -/
def types : List String :=
  ["typing", "read", "notification:sync", "notification:read", "notification:read-all"]

/-- What a frame with the given type, room and data should be taken for. -/
inductive Classed (room data : Option Document) : String → Except ErrorCode Command → Prop where
  | typing {u : Uuid} (named : Spells room u) : Classed room data "typing"
      (.ok (.typing u (((data.bind (last? "is_typing")).bind flag?).getD true)))
  | typingNowhere (unnamed : ∀ u, ¬ Spells room u) :
      Classed room data "typing" (.error .invalidRoomId)
  | read {u : Uuid} (named : Spells room u) : Classed room data "read" (.ok (.read u))
  | readNowhere (unnamed : ∀ u, ¬ Spells room u) :
      Classed room data "read" (.error .invalidRoomId)
  | sync : Classed room data "notification:sync"
      (.ok (.notificationSync (.ofData (data.bind Document.value?))))
  | markRead {u : Uuid} (named : Spells (data.bind (last? "id")) u) :
      Classed room data "notification:read" (.ok (.notificationRead u))
  | markReadOfNone (unnamed : ∀ u, ¬ Spells (data.bind (last? "id")) u) :
      Classed room data "notification:read" (.error .invalidNotificationId)
  | markAllRead : Classed room data "notification:read-all" (.ok .notificationReadAll)
  | empty : Classed room data "" (.error .invalidPayload)
  | unknown {t : String} (other : t ∉ types) (some_ : t ≠ "") :
      Classed room data t (.ok (.unknown t))

variable {room data : Option Document} {t : String} {ms : List (Option String × Document)}

/-- Only the empty type should be refused as a whole. -/
private theorem Classed.of_payload (classed : Classed room data t (.error .invalidPayload)) :
    t = "" := by
  cases classed
  rfl

/-- A type that is not known should be taken for an unknown command, whatever the fields hold. -/
private theorem Classed.of_other {r : Except ErrorCode Command} (classed : Classed room data t r)
    (other : t ∉ types) (some_ : t ≠ "") : r = .ok (.unknown t) := by
  cases classed with
  | unknown => rfl
  | empty => exact absurd rfl some_
  | _ => exact absurd (by decide) other

private theorem classed_spelled (readable : Frame.Readable ms) :
    Classed (field? ms "room_id") (field? ms "data") t (Frame.spelled t ms).command := by
  rw [Frame.command]
  split
  · rename_i typing
    cases show t = "typing" from typing
    rw [Frame.flag_spelled readable]
    rcases Frame.room_spelled "typing" ms with ⟨u, named, room⟩ | ⟨unnamed, room⟩
    · rw [room]
      exact .typing named
    · rw [room]
      exact .typingNowhere unnamed
  split
  · rename_i read
    cases show t = "read" from read
    rcases Frame.room_spelled "read" ms with ⟨u, named, room⟩ | ⟨unnamed, room⟩
    · rw [room]
      exact .read named
    · rw [room]
      exact .readNowhere unnamed
  split
  · rename_i sync
    cases show t = "notification:sync" from sync
    rw [Frame.page_spelled]
    exact .sync
  split
  · rename_i markRead
    cases show t = "notification:read" from markRead
    rw [Frame.text_spelled readable]
    split
    · rename_i u named
      exact .markRead named
    · rename_i unnamed
      apply Classed.markReadOfNone
      intro u named
      exact Option.some_ne_none u (named.symm.trans unnamed)
  split
  · rename_i markAllRead
    cases show t = "notification:read-all" from markAllRead
    exact .markAllRead
  split
  · rename_i empty
    cases show t = "" from empty
    exact .empty
  · rename_i typing read sync markRead markAllRead empty
    refine .unknown ?_ empty
    simp only [types, List.mem_cons, List.not_mem_nil, or_false, not_or]
    exact ⟨typing, read, sync, markRead, markAllRead⟩

private theorem run_of_read {text : String} (reads : Document.read? text = some (.object ms)) :
    Decode.run Frame.decode text = Frame.decode levelLimit (.object ms) := by
  simp only [Decode.run, reads]

section Texts

variable {text : String} (reads : Document.read? text = some (.object ms))
  (typed : field? ms "type" = some (.string (some t))) (once : Frame.Single ms)
  (shallow : (Document.object ms).depth ≤ levelLimit)

include reads typed once shallow

private theorem parse_readable (readable : Frame.Readable ms) :
    Command.parse text = (Frame.spelled t ms).command := by
  have decoded := (Frame.decode_ok_iff typed once shallow).mpr ⟨readable, rfl⟩
  simp only [Command.parse, run_of_read reads, decoded]

private theorem parse_unreadable (unreadable : ¬ Frame.Readable ms) :
    Command.parse text = .error .invalidPayload := by
  cases decoded : Frame.decode levelLimit (.object ms) with
  | error _ => simp only [Command.parse, run_of_read reads, decoded]
  | ok f =>
    have readable := ((Frame.decode_ok_iff typed once shallow).mp decoded).1
    exact absurd readable unreadable

end Texts

/-- A text that spells an object with a type is taken for what it should be exactly when the object
is readable as a frame or the type is empty; every other one is refused as a whole. A readable one
of a type that is not known has no effect. -/
theorem classed_iff_readable {text : String}
    (reads : Document.read? text = some (.object ms))
    (typed : field? ms "type" = some (.string (some t))) (once : Frame.Single ms)
    (shallow : (Document.object ms).depth ≤ levelLimit) :
    (Classed (field? ms "room_id") (field? ms "data") t (Command.parse text) ↔
        Frame.Readable ms ∨ t = "") ∧
      (¬ Frame.Readable ms → Command.parse text = .error .invalidPayload) ∧
      (Frame.Readable ms → t ∉ types → t ≠ "" → ∀ {β : Type} [SharedBus β] (s : Site β)
        (now : Nat) (user : Uuid) (id : ConnId), s.handleText now user id text = .done s ()) := by
  refine ⟨?_, parse_unreadable reads typed once shallow, ?_⟩
  · by_cases readable : Frame.Readable ms
    · refine iff_of_true ?_ (.inl readable)
      rw [parse_readable reads typed once shallow readable]
      exact classed_spelled readable
    · rw [parse_unreadable reads typed once shallow readable]
      constructor
      · intro classed
        exact .inr classed.of_payload
      · rintro (readable' | rfl)
        · exact absurd readable' readable
        · exact .empty
  · intro readable other some_ β _ s now user id
    have classed := classed_spelled (t := t) readable
    rw [← parse_readable reads typed once shallow readable] at classed
    have unknown : Command.parse text = .ok (.unknown t) := classed.of_other other some_
    rw [Site.handleText, unknown]
    rfl

/-- A frame of a type and a room. -/
def frame (kind : String) (room : Value) : Value :=
  .object [("type", .string kind), ("room_id", room)]

def frameMembers (kind : String) (room : Value) : List (Option String × Document) :=
  [(some "type", .string (some kind)), (some "room_id", room.document)]

private theorem read_frame (kind : String) {room : Value} (plain_ : plain room.numbers = true) :
    Document.read? (frame kind room).render = some (.object (frameMembers kind room)) := by
  have plainFrame : plain (frame kind room).numbers = true := by
    simpa [frame, Value.numbers, Value.numbersMembers] using plain_
  rw [Document.read_render, if_pos plainFrame]
  rfl

private theorem frameMembers_single (kind : String) (room : Value) :
    Frame.Single (frameMembers kind room) := by
  show ∀ name ∈ Frame.fieldNames, [some "type", some "room_id"].count (some name) ≤ 1
  decide

private theorem frameMembers_readable (kind room : String) :
    Frame.Readable (frameMembers kind (.string room)) where
  keys := by
    intro m member
    rcases List.mem_pair.mp member with rfl | rfl
    · exact Option.some_ne_none _
    · exact Option.some_ne_none _
  room := .inr (.inr ⟨room, rfl⟩)
  data := fun _ found => nomatch found

/-- A room that is text and no identifier is told by its own code, and under a type that is not
known it has no effect. -/
theorem textRoom_classed :
    Frame.Readable (frameMembers "typing" (.string "lobby")) ∧
    Classed (some (.string (some "lobby"))) none "typing"
      (Command.parse (frame "typing" (.string "lobby")).render) ∧
    "presence" ∉ types ∧ ∀ {β : Type} [SharedBus β] (s : Site β) (now : Nat) (user : Uuid)
      (id : ConnId), s.handleText now user id (frame "presence" (.string "lobby")).render =
        .done s () := by
  have unknown : "presence" ∉ types := by decide
  obtain ⟨classed, -, -⟩ := classed_iff_readable (@read_frame "typing" (.string "lobby") rfl)
    rfl (frameMembers_single _ _) (by decide)
  obtain ⟨-, -, ignored⟩ := classed_iff_readable (@read_frame "presence" (.string "lobby") rfl)
    rfl (frameMembers_single _ _) (by decide)
  refine ⟨frameMembers_readable _ _, ?_, unknown, ?_⟩
  · exact classed.mpr (.inl (frameMembers_readable _ _))
  · exact ignored (frameMembers_readable _ _) unknown (by decide)

private theorem numberedRoom_unreadable (kind : String) :
    ¬ Frame.Readable (frameMembers kind (.int 42)) := by
  intro readable
  rcases readable.room with none | null | ⟨s, text⟩
  · cases none
  · cases null
  · cases text

/-- A room that is a number should be told by its own code, and the text is refused as a whole. -/
theorem numberedRoom_refused :
    Document.read? (frame "typing" (.int 42)).render =
        some (.object (frameMembers "typing" (.int 42))) ∧
      Frame.Single (frameMembers "typing" (.int 42)) ∧
      (Document.object (frameMembers "typing" (.int 42))).depth ≤ levelLimit ∧
      Command.parse (frame "typing" (.int 42)).render = .error .invalidPayload ∧
      ¬ Classed (field? (frameMembers "typing" (.int 42)) "room_id") none "typing"
        (Command.parse (frame "typing" (.int 42)).render) := by
  have plain_ : plain (Value.int 42).numbers = true := by
    simp [Value.int, Value.numbers, plain, Number.whole_not_padded]
  have reads := read_frame "typing" plain_
  have single := frameMembers_single "typing" (.int 42)
  have shallow : (Document.object (frameMembers "typing" (.int 42))).depth ≤ levelLimit := by decide
  have refused := parse_unreadable reads rfl single shallow (numberedRoom_unreadable "typing")
  refine ⟨reads, single, shallow, refused, ?_⟩
  rw [refused]
  intro classed
  exact absurd classed.of_payload (by decide)

end Command

end RoomRelay
