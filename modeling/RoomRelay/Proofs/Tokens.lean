import RoomRelay.Proofs.Base64UrlText
import RoomRelay.Proofs.Cuts
import RoomRelay.Proofs.Json.Fields
import RoomRelay.Proofs.Utf8Text
import RoomRelay.Proofs.UuidForms
import RoomRelay.Token

/-!
Which tokens are honoured. A token that is issued is honoured as its user's for its time and a minute
more. Whatever else is honoured is signed with the secret too: it is two texts as segments and the
signature of both, the first names the algorithm, and the second the user and a time that is not yet
over. Of the signature nothing is used but what it is a signature of.
-/

namespace RoomRelay.Token

open Json

/-! ## What tokens have to say -/

/-- A header that names the algorithm. -/
inductive NamesAlgorithm (header : List UInt8) : Prop where
  | intro {record algorithm : Document} (read : Document.readOctets? header = some record)
    (field : IsField headerFields "alg" algorithm record) (named : NamesWord "HS256" algorithm)

/-- Claims that name a user and a second of expiry not longer ago than a minute. -/
inductive VouchesFor (user : Uuid) (now : Int) (claims : List UInt8) : Prop where
  | intro {record : Document} {n : Numeral} {expiry : Int} {subject : String}
    (read : Document.readOctets? claims = some record)
    (expires : IsField Claims.fieldNames "exp" (.number n) record)
    (second : n.number? = some (.whole expiry)) (lasts : now - 60 ≤ expiry)
    (names : IsField Claims.fieldNames "sub" (.string (some subject)) record)
    (form : user.Form subject.toList)

/-- A token that was signed with the secret and says so much: three segments, a header, claims and a
signature of the two with the dot between them. -/
inductive Genuine (secret : String) (user : Uuid) (now : Int) (token : String) : Prop where
  | intro {header claims : List UInt8}
    (segments : Text.pieces '.' token.toList =
      [Text.Base64Url.encode header, Text.Base64Url.encode claims,
        Text.Base64Url.encode (Sha256.hmac (Text.utf8 secret) (Text.utf8 (String.ofList
          (Text.Base64Url.encode header ++ '.' :: Text.Base64Url.encode claims))))])
    (algorithm : NamesAlgorithm header) (vouches : VouchesFor user now claims)

/-! ## Segments -/

private theorem dot_notMem_signature (secret : String) (signed : List Char) :
    '.' ∉ signature secret signed :=
  Text.Base64Url.dot_notMem_encode _

/-- The part of a token that is signed. -/
def signedPart (header claims : List UInt8) : List Char :=
  Text.Base64Url.encode header ++ '.' :: Text.Base64Url.encode claims

/-- A token comes apart into its three segments. -/
private theorem pieces_token (header claims : List UInt8) {given : List Char}
    (dotless : '.' ∉ given) :
    Text.pieces '.' (signedPart header claims ++ '.' :: given) =
      [Text.Base64Url.encode header, Text.Base64Url.encode claims, given] := by
  rw [signedPart, List.append_assoc, List.cons_append,
    Text.pieces_append (Text.Base64Url.dot_notMem_encode header),
    Text.pieces_append (Text.Base64Url.dot_notMem_encode claims), Text.pieces_of_notMem dotless]

/-! ## Headers -/

/-- The octets of a text hold the document of the text. -/
private theorem readOctets_utf8 (s : String) :
    Document.readOctets? (Text.utf8 s) = Document.read? s := by
  rw [Document.readOctets?, Text.mended_utf8]

/-- What was read of octets is their document's. -/
private theorem of_runOctets {α : Type} {decode : Decoder α} {os : List UInt8} {a : α}
    (read : (Decode.runOctets decode os).toOption = some a) :
    ∃ d, Document.readOctets? os = some d ∧ decode levelLimit d = .ok a := by
  unfold Decode.runOctets at read
  cases document : Document.readOctets? os with
  | none => simp [document, Except.toOption] at read
  | some d =>
    cases decoded : decode levelLimit d with
    | error f => simp [document, decoded, Except.toOption] at read
    | ok b =>
      simp only [document, decoded, Except.toOption, Option.some.injEq] at read
      exact ⟨d, rfl, read ▸ decoded⟩

private theorem runOctets_of_document {α : Type} {decode : Decoder α} {os : List UInt8} {a : α}
    {d : Document} (document : Document.readOctets? os = some d)
    (decoded : decode levelLimit d = .ok a) :
    (Decode.runOctets decode os).toOption = some a := by
  simp [Decode.runOctets, document, decoded, Except.toOption]

private theorem namesAlgorithm_of_read {os : List UInt8}
    (read : (Decode.runOctets decodeAlgorithm os).toOption = some "HS256") : NamesAlgorithm os := by
  obtain ⟨record, document, read⟩ := of_runOctets read
  obtain ⟨f, fields, required⟩ := bind_ok read
  obtain ⟨d, field, word⟩ := isField_of_required fields (by decide) required
  obtain ⟨word, known, named⟩ := namesWord_of_word word
  have same : "HS256" = word := by simpa using List.find?_some known
  exact .intro document field (same ▸ named)

/-- The members of the header of the tokens issued here. -/
def headerMembers : List (Option String × Document) :=
  [(some "typ", .string (some "JWT")), (some "alg", .string (some "HS256"))]

private theorem header_document :
    Document.readOctets? (Text.utf8 header.render) = some (.object headerMembers) := by
  rw [readOctets_utf8, Document.read_render, if_pos (by decide)]
  rfl

/-- The header of the tokens issued here names the algorithm. -/
private theorem header_read :
    (Decode.runOctets decodeAlgorithm (Text.utf8 header.render)).toOption = some "HS256" :=
  runOctets_of_document header_document rfl

/-! ## Claims -/

/-- What claims were read says where each stands. -/
private theorem claims_of_read {os : List UInt8} {c : Claims}
    (read : Claims.ofOctets? os = some c) :
    ∃ record n, Document.readOctets? os = some record ∧
      IsField Claims.fieldNames "exp" (.number n) record ∧ n.number? = some (.whole c.expiry) ∧
      IsField Claims.fieldNames "sub" (.string (some c.subject)) record := by
  obtain ⟨record, document, decoded⟩ := of_runOctets read
  obtain ⟨f, fields, decoded⟩ := bind_ok decoded
  obtain ⟨subject, text, decoded⟩ := bind_ok decoded
  obtain ⟨expiry, number, decoded⟩ := bind_ok decoded
  cases decoded
  obtain ⟨_, named, text⟩ := isField_of_required fields (by decide) text
  obtain ⟨_, expires, number⟩ := isField_of_required fields (by decide) number
  obtain ⟨n, rfl, second⟩ := whole_ok number
  cases text_ok text
  exact ⟨record, n, document, expires, second, named⟩

/-- The members that claims are written as. -/
def Claims.members (c : Claims) : List (Option String × Document) :=
  [(some "sub", .string (some c.subject)), (some "exp", .number (Number.whole c.expiry).numeral)]

variable {c : Claims}

private theorem isWord_expiry (least : -(2 ^ 63 : Int) ≤ c.expiry) (less : c.expiry < 2 ^ 63) :
    (Number.whole c.expiry).IsWord := by
  constructor
  · exact least
  · have wide : (2 ^ 63 : Int) ≤ Word.span 64 := by decide
    omega

private theorem claims_document (word : (Number.whole c.expiry).IsWord) :
    Document.readOctets? (Text.utf8 c.toValue.render) = some (.object c.members) := by
  have plain_ : plain c.toValue.numbers = true := by
    refine plain_of_exact fun n member => ?_
    have only : n = .whole c.expiry := by
      simpa [Claims.toValue, Value.int, Value.numbers, Value.numbersMembers] using member
    exact only ▸ word.exact
  rw [readOctets_utf8, Document.read_render, if_pos plain_]
  rfl

/-- Claims are read as they were written. -/
private theorem claims_read (least : -(2 ^ 63 : Int) ≤ c.expiry) (less : c.expiry < 2 ^ 63) :
    Claims.ofOctets? (Text.utf8 c.toValue.render) = some c := by
  have word := isWord_expiry least less
  have second : Decode.int64 126 (.number (Number.whole c.expiry).numeral) = .ok c.expiry := by
    have bounds : -(Word.span 63 : Int) ≤ c.expiry ∧ c.expiry ≤ Word.span 63 - 1 :=
      ⟨least, Int.le_sub_one_of_lt less⟩
    simp only [Decode.int64, Decode.whole, word.exact.understood, bounds, and_self, if_true]
  refine runOctets_of_document (claims_document word) ?_
  show (Decode.int64 126 (.number (Number.whole c.expiry).numeral) >>= fun expiry =>
    .ok { subject := c.subject, expiry }) = .ok c
  rw [second]
  rfl

/-- An octet that spells nothing does no harm in a claim that is passed over. -/
example :
    Claims.ofOctets? (Text.utf8 "\x7b\"sub\":\"u\",\"exp\":7,\"iss\":\"" ++ [0xFF] ++
      Text.utf8 "\"\x7d") = some ⟨"u", 7⟩ := by
  decide +kernel

/-! ## Tokens -/

variable {lib : Library} {secret token : String} {now : Int} {user : Uuid}

/-- A token is honoured exactly when it is signed, its two parts are good and the library refuses
neither. -/
private theorem verify_eq_ok :
    verify lib secret now token = .ok user ↔ ∃ header claims c,
      token.toList = signedPart header claims ++
        '.' :: signature secret (signedPart header claims) ∧
      (Decode.runOctets decodeAlgorithm header).toOption = some "HS256" ∧
      Claims.ofOctets? claims = some c ∧ (now - leeway ≤ c.expiry ∧ 0 ≤ c.expiry) ∧
      lib.takesHeader header = true ∧ lib.takesClaims claims = true ∧
      Uuid.parse? c.subject = some user := by
  unfold verify
  constructor
  · intro honoured
    dsimp only at honoured
    split at honoured
    · rename_i found
      cases honoured
      obtain ⟨⟨signed, given⟩, outer, later⟩ := Option.bind_eq_some_iff.mp found
      dsimp only at later
      obtain ⟨⟨head, body⟩, inner, later⟩ := Option.bind_eq_some_iff.mp later
      dsimp only at later
      obtain ⟨header, headDecoded, later⟩ := Option.bind_eq_some_iff.mp later
      obtain ⟨claims, bodyDecoded, later⟩ := Option.bind_eq_some_iff.mp later
      obtain ⟨algorithm, headRead, later⟩ := Option.bind_eq_some_iff.mp later
      obtain ⟨c, claimsRead, parsed⟩ := Option.bind_eq_some_iff.mp later
      split at parsed
      · rename_i conditions
        obtain ⟨rfl, rfl, lasts, headTaken, claimsTaken⟩ := conditions
        obtain rfl := Text.Base64Url.decode?_eq_some.mp headDecoded
        obtain rfl := Text.Base64Url.decode?_eq_some.mp bodyDecoded
        obtain ⟨whole, -⟩ := Text.cutLast?_eq_some.mp outer
        obtain ⟨rfl, -⟩ := Text.cutLast?_eq_some.mp inner
        exact ⟨header, claims, c, whole, headRead, claimsRead, lasts, headTaken, claimsTaken, parsed⟩
      · cases parsed
    · cases honoured
  · rintro ⟨header, claims, c, whole, headRead, claimsRead, lasts, headTaken, claimsTaken, found⟩
    have outer := Text.cutLast?_eq_some.mpr ⟨whole, dot_notMem_signature _ _⟩
    have inner : Text.cutLast? '.' (signedPart header claims) =
        some (Text.Base64Url.encode header, Text.Base64Url.encode claims) :=
      Text.cutLast?_eq_some.mpr ⟨rfl, Text.Base64Url.dot_notMem_encode claims⟩
    have decoded (os : List UInt8) : Text.Base64Url.decode? (Text.Base64Url.encode os) = some os :=
      Text.Base64Url.decode?_eq_some.mpr rfl
    simp only [outer, inner, decoded, headRead, claimsRead, lasts, headTaken, claimsTaken, found,
      Option.bind_eq_bind, Option.bind_some, and_self, if_true]

/-- What is not honoured as anybody's is refused. -/
private theorem verify_eq_refused (nobody : ∀ user, verify lib secret now token ≠ .ok user) :
    verify lib secret now token = .error .unauthorized := by
  unfold verify at nobody ⊢
  dsimp only at nobody ⊢
  split
  · rename_i u found
    rw [found] at nobody
    exact absurd rfl (nobody u)
  · rfl

/-- A token is its segments, so it has one header and one set of claims. -/
private theorem segments_unique {header claims header' claims' : List UInt8}
    {given given' : List Char}
    (dotless : '.' ∉ given) (dotless' : '.' ∉ given')
    (same : signedPart header claims ++ '.' :: given = signedPart header' claims' ++ '.' :: given') :
    header = header' ∧ claims = claims' := by
  have pieces := pieces_token header claims dotless
  rw [same, pieces_token header' claims' dotless'] at pieces
  obtain ⟨headers, pieces⟩ := List.cons.inj pieces
  exact ⟨Text.Base64Url.encode_injective headers.symm,
    Text.Base64Url.encode_injective (List.cons.inj pieces).1.symm⟩

private theorem expiry_eq {issued ttl : Nat} (fits : issued + ttl < 2 ^ 63) :
    expiry issued ttl = issued + ttl := by
  have span : Word.span 64 = 2 ^ 64 := rfl
  rw [expiry, span, Int.bmod_eq_of_le (by omega) (by omega)]

/-- A signed token of claims is honoured as their user's up to a minute after they expire. -/
private theorem verify_sign (plain : lib.TakesPlain) (names : c.subject = user.text)
    (least : 0 ≤ c.expiry)
    (fits : c.expiry < 2 ^ 63) (now : Int) :
    verify lib secret now (sign secret c) =
      if now ≤ c.expiry + 60 then .ok user else .error .unauthorized := by
  have whole : (sign secret c).toList =
      signedPart (Text.utf8 header.render) (Text.utf8 c.toValue.render) ++ '.' :: signature secret
        (signedPart (Text.utf8 header.render) (Text.utf8 c.toValue.render)) :=
    String.toList_ofList
  have claimsRead := claims_read (c := c) (by omega) fits
  by_cases lasts : now ≤ c.expiry + 60
  · rw [if_pos lasts]
    have inTime : now - leeway ≤ c.expiry ∧ 0 ≤ c.expiry := by
      unfold leeway
      omega
    have word := isWord_expiry (c := c) (by omega) fits
    have second : (Number.whole c.expiry).numeral.number? = some (.whole c.expiry.toNat) := by
      rw [word.exact.understood, Int.toNat_of_nonneg least]
    have claimsTaken := plain.claims _ _ _ _ (claims_document word) second
    exact verify_eq_ok.mpr ⟨_, _, c, whole, header_read, claimsRead, inTime,
      plain.header _ header_document, claimsTaken, names ▸ Uuid.parse_text user⟩
  · rw [if_neg lasts]
    refine verify_eq_refused fun other honoured => ?_
    -- whatever it were honoured for, its claims are those that were signed
    obtain ⟨header', claims', c', whole', -, claimsRead', inTime, -⟩ := verify_eq_ok.mp honoured
    obtain ⟨-, rfl⟩ := segments_unique (dot_notMem_signature _ _) (dot_notMem_signature _ _)
      (whole.symm.trans whole')
    have same : c = c' := Option.some.inj (claimsRead.symm.trans claimsRead')
    rw [← same, leeway] at inTime
    omega

/-- What is honoured is genuine. -/
private theorem genuine_of_verify (honoured : verify lib secret now token = .ok user) :
    Genuine secret user now token := by
  obtain ⟨header, claims, c, whole, headerRead, claimsRead, inTime, -, -, parsed⟩ :=
    verify_eq_ok.mp honoured
  obtain ⟨record, n, document, expires, second, names⟩ := claims_of_read claimsRead
  refine .intro ?_ (namesAlgorithm_of_read headerRead)
    (.intro document expires second inTime.1 names (Uuid.parse?_eq_some.mp parsed))
  rw [whole]
  exact pieces_token header claims (dot_notMem_signature _ _)

/-- A number that is whole has no exponent to break off in. -/
private theorem breaksOff_of_whole {n : Numeral} {i : Int} (whole : n.number? = some (.whole i)) :
    breaksOff n = false := by
  cases exponent : n.exponent with
  | none => simp [breaksOff, exponent]
  | some e =>
    -- with an exponent there is no number, or a double
    obtain ⟨down, digits⟩ := e
    simp only [Numeral.number?, exponent] at whole
    split at whole
    · contradiction
    split at whole
    · simp at whole
    split at whole
    · simp at whole
    · split at whole <;> simp at whole

private theorem standard_takesPlain : Library.standard.TakesPlain where
  header os document := by
    show (Decode.runOctets decodeHeader os).isOk = true
    rw [Decode.runOctets, document]
    rfl
  claims os user n expiry document second := by
    show (Document.readOctets? os).any (fun d => !isBarred d) = true
    rw [document]
    have known : Decode.knownFields registeredFields
        [(some "sub", .string (some user)), (some "exp", .number n)] [] =
          .ok [("exp", .number n), ("sub", .string (some user))] := rfl
    have userRead : isBroken ("sub", .string (some user)) = false := rfl
    have secondRead : isBroken ("exp", .number n) = false := breaksOff_of_whole second
    have nowhere : List.lookup "aud"
        [("exp", Document.number n), ("sub", .string (some user))] = none := rfl
    simp [isBarred, known, nowhere, userRead, secondRead]

end RoomRelay.Token
