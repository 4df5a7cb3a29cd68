import RoomRelay.Proofs.PercentText
import RoomRelay.Proofs.UrlParts
import RoomRelay.Redis.Connect

/-!
Where the password of a Redis URL stands. A password is read from the user information of a server
of the network, or from the query of a socket; either way it stands between two parts of the text,
and any other password may stand there.
-/

namespace RoomRelay.Redis

open Text

variable {a : Address} {text before after p word : List Char}

/-! ## Addresses -/

namespace Address

variable {url : Url} {s : String}

theorem parse?_eq_some : parse? s = some a ↔ ∃ url, Url.read s = some url ∧
    ((url.scheme = "redis" ∧ ofNetworkUrl url = some a) ∨
      ((url.scheme = "unix" ∨ url.scheme = "redis+unix") ∧ ofSocketUrl url = some a)) := by
  rw [parse?]
  constructor
  · intro is
    obtain ⟨url, reads, is⟩ := Option.bind_eq_some_iff.mp is
    refine ⟨url, reads, ?_⟩
    split at is
    next network => exact .inl ⟨network, is⟩
    next => exact .inr (Option.ite_none_right_eq_some.mp is)
  · rintro ⟨url, reads, ⟨network, is⟩ | ⟨socket, is⟩⟩
    · simp [reads, network, is]
    · have other : url.scheme ≠ "redis" := by
        rcases socket with is | is <;> simp [is]
      simp [reads, other, socket, is]

/-- The number of the database that a path names. -/
def databaseOf (path : Option String) : Option Int :=
  let number := withoutSlashes (path.getD "").toList
  if number.isEmpty then some 0 else readDatabase number

/-- The password that a user information spells, of which there may be none. -/
def decodedPassword : Option String → Option (Option String)
  | some p => (Percent.decodeText? p).map some
  | none => some none

private theorem ofNetworkUrl_eq (url : Url) :
    ofNetworkUrl url =
      url.host.bind fun host => (databaseOf url.path).bind fun database =>
        (Percent.decodeText? url.user).bind fun user =>
          (decodedPassword url.password).bind fun password =>
            some { place := .tcp host (url.port.getD defaultPort), database,
                   user := if user.isEmpty then none else some user, password } := by
  rw [ofNetworkUrl, databaseOf]
  cases url.host with
  | none => rfl
  | some host =>
    simp only [Option.bind_eq_bind, Option.bind_some]
    split <;> cases url.password <;> rfl

/-- A server of the network has the password of the user information. -/
private theorem of_ofNetworkUrl (is : ofNetworkUrl url = some a) :
    (∃ host port, a.place = .tcp host port) ∧
      (∀ q, a.password = some q → ∃ p, url.password = some p ∧ Percent.decodeText? p = some q) ∧
      ∀ word, IsWord word → ofNetworkUrl { url with password := some (String.ofList word) } =
        some { a with password := some (String.ofList word) } := by
  rw [ofNetworkUrl_eq] at is
  obtain ⟨host, host_is, is⟩ := Option.bind_eq_some_iff.mp is
  obtain ⟨database, database_is, is⟩ := Option.bind_eq_some_iff.mp is
  obtain ⟨user, user_is, is⟩ := Option.bind_eq_some_iff.mp is
  obtain ⟨password, password_is, ⟨⟩⟩ := Option.bind_eq_some_iff.mp is
  refine ⟨⟨host, _, rfl⟩, fun q holds => ?_, fun word isWord => ?_⟩
  · replace holds : password = some q := holds
    rw [holds] at password_is
    cases old : url.password with
    | none =>
      rw [old] at password_is
      cases password_is
    | some p =>
      rw [old] at password_is
      exact ⟨p, rfl, by simpa [decodedPassword] using password_is⟩
  · rw [ofNetworkUrl_eq]
    simp [host_is, database_is, user_is, decodedPassword, Percent.decodeText?_word isWord]

/-- The number of the database that a query names. -/
def databaseIn (query : List Char) : Option Int :=
  (Percent.lastValue query "db").elim (some 0) fun db => readDatabase db.toList

private theorem ofSocketUrl_eq (url : Url) (query : List Char) :
    ofSocketUrl { url with query := String.ofList query } =
      if (url.host.filter (· ≠ "localhost")).isSome then none
      else url.path.bind fun path => (databaseIn query).bind fun database =>
        some { place := .socket (socketPath path), database,
               user := Percent.lastValue query "user",
               password := Percent.lastValue query "pass" } := by
  have last (key : String) : (Percent.queryPairs (String.ofList query)).reverse.lookup key =
      Percent.lastValue query key := rfl
  simp only [ofSocketUrl, databaseIn, last]
  split
  · rfl
  · cases url.path with
    | none => rfl
    | some path =>
      simp only [Option.bind_eq_bind, Option.bind_some]
      cases Percent.lastValue query "db" <;> rfl

/-- A server behind a socket has the last password of the query. -/
private theorem of_ofSocketUrl (is : ofSocketUrl url = some a) :
    (∃ path, a.place = .socket path) ∧ a.password = Percent.lastValue url.query.toList "pass" ∧
      ∀ query, (∀ key, key ≠ "pass" →
          Percent.lastValue query key = Percent.lastValue url.query.toList key) →
        ofSocketUrl { url with query := String.ofList query } =
          some { a with password := Percent.lastValue query "pass" } := by
  have is' := ofSocketUrl_eq url url.query.toList
  rw [String.ofList_toList] at is'
  rw [is'] at is
  obtain ⟨near, is⟩ := Option.ite_none_left_eq_some.mp is
  obtain ⟨path, path_is, is⟩ := Option.bind_eq_some_iff.mp is
  obtain ⟨database, database_is, ⟨⟩⟩ := Option.bind_eq_some_iff.mp is
  dsimp only
  refine ⟨⟨socketPath path, rfl⟩, rfl, fun query same => ?_⟩
  rw [databaseIn] at database_is
  rw [ofSocketUrl_eq, if_neg near, path_is, databaseIn, same "db" (by decide),
    same "user" (by decide)]
  simp [database_is]

end Address

/-! ## Places of a password -/

/-- A server that a text names lets the client in, at the given address. -/
def Connects (text : List Char) (a : Address) : Prop :=
  ∃ contact, connect contact (String.ofList text) = .ok a

/-- A password stands between two parts of a text: any word put there is read as the password, and
all else is read as it is at `a`. -/
def PasswordBetween (a : Address) (before after : List Char) : Prop :=
  ∀ word, IsWord word →
    Connects (before ++ (word ++ after)) { a with password := some (String.ofList word) }

private theorem connects_iff :
    Connects text a ↔ Address.parse? (String.ofList text) = some a ∧ a.canLogIn := by
  constructor
  · rintro ⟨contact, is⟩
    rw [connect] at is
    split at is
    · cases is
    next b reads =>
      split at is
      · cases is
      next complete =>
        split at is <;> cases is
        exact ⟨reads, by simpa using complete⟩
  · rintro ⟨reads, complete⟩
    refine ⟨fun _ => .accepted, ?_⟩
    simp [connect, reads, complete]

private theorem passwordBetween_iff : PasswordBetween a before after ↔ ∀ word, IsWord word →
    Address.parse? (String.ofList (before ++ (word ++ after))) =
      some { a with password := some (String.ofList word) } := by
  refine forall_congr' fun word => imp_congr_right fun _ => ?_
  rw [connects_iff]
  exact and_iff_left (by simp [Address.canLogIn])

private theorem solid_of_isWord (is : IsWord word) : ∀ c ∈ word, ¬Url.isControl c := by
  intro c within control
  have low : c.toNat ≤ 0x20 := by simpa [Url.isControl] using control
  have high := (is.bounds c within).1
  omega

private theorem legal_of_isWord (is : IsWord word) : ∀ c ∈ word, !Url.endsAuthority c := by
  intro c within
  have other (mark : Char) (no : mark.isAlphanum = false) : c ≠ mark := fun same =>
    is.notMem mark no (same ▸ within)
  simp [Url.endsAuthority, other '/' rfl, other '?' rfl, other '#' rfl]

/-- A part of the cleaned text where every word is read as the password was cleaned from the place
of a password. -/
private theorem exists_place {front old back : List Char}
    (clean : Url.cleaned text = front ++ (old ++ back))
    (reads : ∀ word, IsWord word → ∀ s, Url.cleaned s.toList = front ++ (word ++ back) →
      Address.parse? s = some { a with password := some (String.ofList word) }) :
    ∃ before p after, text = before ++ (p ++ after) ∧ PasswordBetween a before after := by
  obtain ⟨before, p, after, whole, cleanBefore, cleanAfter⟩ := Url.split_of_cleaned clean
  refine ⟨before, p, after, whole, passwordBetween_iff.mpr fun word isWord => ?_⟩
  refine reads word isWord _ ?_
  rw [String.toList_ofList, Url.cleaned_append isWord.1 (solid_of_isWord isWord), cleanBefore,
    cleanAfter]

/-- A password that is read stands between two parts of the text. -/
theorem exists_passwordBetween {q : String} (is : Connects text a) (holds : a.password = some q)
    (some_ : q ≠ "") :
    ∃ before p after, text = before ++ (p ++ after) ∧ PasswordBetween a before after := by
  obtain ⟨reads, -⟩ := connects_iff.mp is
  obtain ⟨url, reads, ⟨network, is⟩ | ⟨socket, is⟩⟩ := Address.parse?_eq_some.mp reads
  · obtain ⟨-, spelled, another⟩ := Address.of_ofNetworkUrl is
    obtain ⟨p, password_is, -⟩ := spelled q holds
    obtain ⟨front, back, clean, -, stands⟩ := Url.password_stands reads password_is
    have shift (p : List Char) : front ++ ':' :: (p ++ '@' :: back) =
        (front ++ [':']) ++ (p ++ '@' :: back) := by simp
    rw [String.toList_ofList, shift] at clean
    refine exists_place clean fun word isWord s clean => ?_
    have reads := stands s word isWord.1 (legal_of_isWord isWord) (clean.trans (shift word).symm)
    exact Address.parse?_eq_some.mpr ⟨_, reads, .inl ⟨network, another word isWord⟩⟩
  · obtain ⟨-, password_is, another⟩ := Address.of_ofSocketUrl is
    rw [holds] at password_is
    obtain ⟨front, old, back, query_is, value⟩ := Percent.value_stands password_is.symm some_
    have nonempty : url.query ≠ "" := by
      intro none_
      rw [none_] at password_is
      cases password_is
    obtain ⟨lead, trail, clean, without, stands⟩ := Url.query_stands_in_text reads nonempty
    have shift (p : List Char) : lead ++ '?' :: (front ++ (p ++ back) ++ trail) =
        (lead ++ '?' :: front) ++ (p ++ (back ++ trail)) := by simp
    rw [query_is] at without
    rw [String.toList_ofList, query_is, shift] at clean
    refine exists_place clean fun word isWord s clean => ?_
    have legal : '#' ∉ front ++ (word ++ back) := by
      have mark := isWord.notMem '#' (by decide)
      simp_all
    have reads := stands s _ legal (clean.trans (shift word).symm)
    have values := value word (isWord.notMem _ (by decide))
    refine Address.parse?_eq_some.mpr ⟨_, reads, .inr ⟨socket, ?_⟩⟩
    rw [another _ fun key other => (values key).trans (if_neg other), values "pass", if_pos rfl,
      Percent.queryPart_word isWord]

/-! ## User informations and parameters -/

section UserInfo

variable {user place more : List Char} {host : String} {port : Option Nat}

private theorem read_userInfo (isWord : IsWord word)
    (solid : ∀ c ∈ user ++ place ++ more, ¬Url.isControl c)
    (first : ':' ∉ user) (last : '@' ∉ place) (legal : ∀ c ∈ user ++ place, !Url.endsAuthority c)
    (ends : more.takeWhile (!Url.endsAuthority ·) = [])
    (place_is : Url.readPlace place = some (host, port)) (named : host ≠ "") :
    Url.read (String.ofList ("redis://".toList ++ (user ++ ':' :: word ++ '@' :: place ++ more))) =
      some { scheme := "redis", user := String.ofList user, password := some (String.ofList word),
             host, port, path := Url.pathOf (Url.cutQuery more).1,
             query := (Url.cutQuery more).2 } := by
  have clean : Url.cleaned ("redis://".toList ++ (user ++ ':' :: word ++ '@' :: place ++ more)) =
      "redis://".toList ++ (user ++ ':' :: word ++ '@' :: place ++ more) := by
    refine Url.cleaned_solid ?_
    simp only [List.forall_mem_append, List.forall_mem_cons] at solid ⊢
    exact ⟨List.any_eq_false.mp (by decide),
      ⟨⟨solid.1.1, by decide, solid_of_isWord isWord⟩, by decide, solid.1.2⟩, solid.2⟩
  have plain : ∀ c ∈ user ++ ':' :: word ++ '@' :: place, !Url.endsAuthority c := by
    simp only [List.forall_mem_append, List.forall_mem_cons] at legal ⊢
    exact ⟨⟨legal.1, rfl, legal_of_isWord isWord⟩, rfl, legal.2⟩
  have info : Url.login (user ++ ':' :: word) = (user, some (String.ofList word)) := by
    simp [Url.login, cutFirst?_append first, isWord.1]
  have cut : cutLast? '@' (user ++ ':' :: word ++ '@' :: place) =
      some (user ++ ':' :: word, place) := cutLast?_eq_some.mpr ⟨rfl, last⟩
  generalize user ++ ':' :: word ++ '@' :: place = authority at *
  have letters : "redis://".toList ++ (authority ++ more) =
    'r' :: ['e', 'd', 'i', 's'] ++ ':' :: '/' :: '/' :: (authority ++ more) := rfl
  have small : lowered (String.ofList ['r', 'e', 'd', 'i', 's']) = "redis" := by cbv
  rw [letters] at clean ⊢
  rw [Url.read_of_slashes (by rw [String.toList_ofList, clean]) (by decide) (by decide), small,
    Url.readAuthority_append _ plain ends, cut]
  simp [place_is, named, info]

/-- A password stands in a user information after the first colon. -/
private theorem passwordBetween_userInfo {name : String} {database : Int}
    (solid : ∀ c ∈ user ++ place ++ more, ¬Url.isControl c)
    (first : ':' ∉ user) (last : '@' ∉ place) (legal : ∀ c ∈ user ++ place, !Url.endsAuthority c)
    (ends : more.takeWhile (!Url.endsAuthority ·) = [])
    (place_is : Url.readPlace place = some (host, port)) (named : host ≠ "")
    (database_is : Address.databaseOf (Url.pathOf (Url.cutQuery more).1) = some database)
    (name_is : Percent.decodeText? (String.ofList user) = some name) :
    PasswordBetween
      { place := .tcp host (port.getD Address.defaultPort), database,
        user := if name.isEmpty then none else some name }
      ("redis://".toList ++ (user ++ [':'])) ('@' :: (place ++ more)) := by
  rw [passwordBetween_iff]
  intro word isWord
  have text_is : "redis://".toList ++ (user ++ [':']) ++ (word ++ '@' :: (place ++ more)) =
      "redis://".toList ++ (user ++ ':' :: word ++ '@' :: place ++ more) := by simp
  have reads := read_userInfo isWord solid first last legal ends place_is named
  rw [text_is]
  refine Address.parse?_eq_some.mpr ⟨_, reads, .inl ⟨rfl, ?_⟩⟩
  rw [Address.ofNetworkUrl_eq]
  simp [database_is, name_is, Address.decodedPassword, Percent.decodeText?_word isWord]

end UserInfo

/-- A server of the network that a user logs in to. -/
def cacheServer : Address := { place := .tcp "cache" 6379, user := some "default" }

theorem cacheServer_between :
    PasswordBetween cacheServer "redis://default:".toList "@cache:6379".toList := by
  have solid : ∀ c ∈ "default".toList ++ "cache:6379".toList ++ [], ¬Url.isControl c :=
    List.any_eq_false.mp (by decide)
  have legal : ∀ c ∈ "default".toList ++ "cache:6379".toList, !Url.endsAuthority c :=
    List.all_eq_true.mp (by decide)
  have place : Url.readPlace "cache:6379".toList = some ("cache", some 6379) := by decide
  have name : Percent.decodeText? (String.ofList "default".toList) = some "default" :=
    Percent.decodeText?_word (by decide)
  have front : "redis://default:".toList = "redis://".toList ++ ("default".toList ++ [':']) := by
    decide
  have back : "@cache:6379".toList = '@' :: ("cache:6379".toList ++ []) := by decide
  have between := passwordBetween_userInfo solid (by decide) (by decide) legal rfl place (by decide)
    rfl name
  rw [← front, ← back] at between
  exact between

section Parameter

variable {path : List Char}

private theorem read_parameter (isWord : IsWord word) (solid : ∀ c ∈ path, ¬Url.isControl c)
    (first : '?' ∉ path) (whole : '#' ∉ path) :
    Url.read (String.ofList ("unix://".toList ++ ('/' :: path ++ '?' :: ("pass=".toList ++ word)))) =
      some { scheme := "unix", path := some (Url.pathText path),
             query := String.ofList ("pass=".toList ++ word) } := by
  have clean : Url.cleaned ("unix://".toList ++ ('/' :: path ++ '?' :: ("pass=".toList ++ word))) =
      "unix://".toList ++ ('/' :: path ++ '?' :: ("pass=".toList ++ word)) := by
    refine Url.cleaned_solid ?_
    simp only [List.forall_mem_append, List.forall_mem_cons]
    exact ⟨List.any_eq_false.mp (by decide), ⟨by decide, solid⟩, by decide,
      List.any_eq_false.mp (by decide), solid_of_isWord isWord⟩
  have cut : Url.cutQuery ('/' :: path ++ '?' :: ("pass=".toList ++ word)) =
      ('/' :: path, String.ofList ("pass=".toList ++ word)) := by
    have plain : '#' ∉ '/' :: path ++ ("pass=".toList ++ word) := by
      simp [whole, isWord.notMem '#' (by decide)]
    have ends : ([] : List Char).takeWhile (· ≠ '#') = [] := rfl
    have cut := Url.cutQuery_append (by simpa using first) plain ends
    rwa [List.append_nil] at cut
  have ends : ('/' :: path ++ '?' :: ("pass=".toList ++ word)).takeWhile (!Url.endsAuthority ·) =
    [] := rfl
  generalize '/' :: path ++ '?' :: ("pass=".toList ++ word) = rest at *
  have letters : "unix://".toList ++ rest = 'u' :: ['n', 'i', 'x'] ++ ':' :: '/' :: '/' :: rest :=
    rfl
  have small : lowered (String.ofList ['u', 'n', 'i', 'x']) = "unix" := by cbv
  have nowhere : ∀ c ∈ ([] : List Char), !Url.endsAuthority c := by simp
  have authority := Url.readAuthority_append "unix" nowhere ends
  rw [letters] at clean ⊢
  rw [Url.read_of_slashes (by rw [String.toList_ofList, clean]) (by decide) (by decide), small]
  rw [cut] at authority
  exact authority

/-- The one parameter of a query that names `pass`. -/
private theorem lastValue_parameter (isWord : IsWord word) (key : String) :
    Percent.lastValue ("pass=".toList ++ word) key =
      if key = "pass" then some (String.ofList word) else none := by
  have plain : '&' ∉ "pass".toList ++ word := by simp [isWord.notMem '&' (by decide)]
  have name : Percent.queryPart "pass".toList = "pass" := Percent.queryPart_word (by decide)
  have value := Percent.lastValue_piece plain (by decide) key
  rwa [name, Percent.queryPart_word isWord] at value

/-- A password stands in the query of a socket as the value of `pass`. -/
private theorem passwordBetween_parameter (solid : ∀ c ∈ path, ¬Url.isControl c)
    (first : '?' ∉ path) (whole : '#' ∉ path) :
    PasswordBetween { place := .socket (Address.socketPath (Url.pathText path)) }
      ("unix:///".toList ++ (path ++ "?pass=".toList)) [] := by
  rw [passwordBetween_iff]
  intro word isWord
  have text_is : "unix:///".toList ++ (path ++ "?pass=".toList) ++ (word ++ []) =
      "unix://".toList ++ ('/' :: path ++ '?' :: ("pass=".toList ++ word)) := by simp
  rw [text_is]
  refine Address.parse?_eq_some.mpr
    ⟨_, read_parameter isWord solid first whole, .inr ⟨.inl rfl, ?_⟩⟩
  have socket := Address.ofSocketUrl_eq { scheme := "unix", path := some (Url.pathText path) }
    ("pass=".toList ++ word)
  simp only [Address.databaseIn, lastValue_parameter isWord] at socket
  exact socket

end Parameter

/-- A server behind a socket. -/
def socketServer : Address := { place := .socket "/tmp/redis.sock" }

theorem socketServer_between :
    PasswordBetween socketServer "unix:///tmp/redis.sock?pass=".toList [] := by
  have solid : ∀ c ∈ "tmp/redis.sock".toList, ¬Url.isControl c :=
    List.any_eq_false.mp (by decide)
  have path : Address.socketPath (Url.pathText "tmp/redis.sock".toList) = "/tmp/redis.sock" := by
    cbv
  have between := passwordBetween_parameter solid (by decide) (by decide)
  rw [path] at between
  exact between

/-! ## Around a password -/

variable {lead trail front back : List Char} {mark : Char}

/-- A mark that is not in a word stands before the word or after it. -/
private theorem beside_word (same : lead ++ (word ++ trail) = front ++ mark :: back)
    (absent : mark ∉ word) :
    (∃ early, lead = front ++ mark :: early ∧ back = early ++ (word ++ trail)) ∨
      ∃ late, front = lead ++ (word ++ late) ∧ trail = late ++ mark :: back := by
  rcases List.append_eq_append_iff.mp same with ⟨more, rfl, inner⟩ | ⟨more, rfl, inner⟩
  · rcases List.append_eq_append_iff.mp inner with ⟨late, rfl, rfl⟩ | ⟨late, rfl, whole⟩
    · exact .inr ⟨late, rfl, rfl⟩
    · cases late with
      | nil => exact .inr ⟨[], by simp, whole.symm⟩
      | cons c late =>
        cases whole
        exact absurd (by simp) absent
  · cases more with
    | nil =>
      cases word with
      | nil => exact .inr ⟨[], by simp, inner.symm⟩
      | cons c word =>
        cases inner
        exact absurd (by simp) absent
    | cons c early =>
      cases inner
      exact .inl ⟨early, rfl, rfl⟩

/-- A word stands within a part of a text between two marks when the part is too long to stand
beside it. -/
private theorem within_part {c d : Char}
    (same : lead ++ (word ++ trail) = front ++ c :: (p ++ d :: back))
    (noC : c ∉ word) (noD : d ∉ word) (long : lead.length + trail.length ≤ p.length) :
    ∃ early late, lead = front ++ c :: early ∧ p = early ++ (word ++ late) ∧
      trail = late ++ d :: back := by
  rcases beside_word same noC with ⟨early, rfl, inner⟩ | ⟨late, rfl, rfl⟩
  · rcases beside_word inner.symm noD with ⟨more, rfl, -⟩ | ⟨late, rfl, rfl⟩
    · simp at long
      omega
    · exact ⟨early, late, rfl, rfl, rfl⟩
  · simp at long
    omega

/-- Where a password for a server of the network stands, a colon is before it with no slash between,
and an at sign after it. -/
theorem around_of_network {host : String} {port : Nat} (between : PasswordBetween a before after)
    (network : a.place = .tcp host port) :
    (∃ front rest, Url.cleanedFront before = front ++ ':' :: rest ∧ '/' ∉ rest) ∧ '@' ∈ after := by
  -- a word that is too long to be read from before or after its place
  let word := List.replicate (4 * (before.length + after.length) + 1) 'a'
  have isWord : IsWord word := ⟨by simp [word], fun c within => by
    rw [List.eq_of_mem_replicate within]
    rfl⟩
  obtain ⟨reads, -⟩ := connects_iff.mp (between word isWord)
  obtain ⟨url, reads, ⟨-, is⟩ | ⟨-, is⟩⟩ := Address.parse?_eq_some.mp reads
  · obtain ⟨-, spelled, -⟩ := Address.of_ofNetworkUrl is
    obtain ⟨p, password_is, decoded⟩ := spelled _ rfl
    obtain ⟨front, back, clean, plain, -⟩ := Url.password_stands reads password_is
    rw [String.toList_ofList, Url.cleaned_append isWord.1 (solid_of_isWord isWord)] at clean
    have long := Percent.length_le_of_decodeText? decoded
    have shortBefore : (Url.cleanedFront before).length ≤ before.length :=
      (Url.cleanedFront_sublist before).length_le
    have shortAfter : (Url.cleanedBack after).length ≤ after.length :=
      (Url.cleanedBack_sublist after).length_le
    rw [List.length_replicate] at long
    obtain ⟨early, late, before_is, p_is, after_is⟩ := within_part clean
      (isWord.notMem _ (by decide)) (isWord.notMem _ (by decide)) (by omega)
    refine ⟨⟨front, early, before_is, fun slash => ?_⟩, ?_⟩
    · exact absurd (plain '/' (p_is ▸ List.mem_append_left _ slash)) (by decide)
    · exact (Url.cleanedBack_sublist after).subset (after_is ▸ by simp)
  · obtain ⟨⟨path, socket⟩, -⟩ := Address.of_ofSocketUrl is
    rw [network] at socket
    cases socket

end RoomRelay.Redis
