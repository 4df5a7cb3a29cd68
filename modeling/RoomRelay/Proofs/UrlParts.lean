import Mathlib.Data.List.DropRight
import RoomRelay.Proofs.Cuts
import RoomRelay.Redis.Url

/-!
The parts of a URL. A URL is read from its cleaned text, so each part of it that is read was cleaned
from some part of the text; a password, or a query, can be put in the place of another and leaves
the rest of the URL as it was read.
-/

namespace RoomRelay.Redis.Url

open Text

variable {cs front back word before after : List Char}

/-! ## Cleaning -/

section Ends

variable {p : Char → Bool}

private theorem dropWhile_append_word (some_ : word ≠ []) (solid : ∀ c ∈ word, ¬p c)
    (cs after : List Char) :
    (cs ++ (word ++ after)).dropWhile p = cs.dropWhile p ++ (word ++ after) := by
  obtain ⟨c, word, rfl⟩ := List.exists_cons_of_ne_nil some_
  have head := solid c List.mem_cons_self
  rw [List.dropWhile_append]
  split
  next empty =>
    rw [List.isEmpty_iff.mp empty, List.nil_append, List.cons_append,
      List.dropWhile_cons_of_neg head]
  next => rfl

private theorem rdropWhile_append_word (some_ : word ≠ []) (solid : ∀ c ∈ word, ¬p c)
    (cs after : List Char) :
    (cs ++ (word ++ after)).rdropWhile p = cs ++ (word ++ after.rdropWhile p) := by
  have turned : (cs ++ (word ++ after)).reverse =
      after.reverse ++ (word.reverse ++ cs.reverse) := by simp
  rw [List.rdropWhile, turned, dropWhile_append_word (by simpa using some_) (by simpa using solid)]
  simp [List.rdropWhile]

private theorem rdropWhile_append_trail (all : ∀ c ∈ after, p c) (cs : List Char) :
    (cs ++ after).rdropWhile p = cs.rdropWhile p := by
  have turned : ∀ c ∈ after.reverse, p c := fun c within => all c (List.mem_reverse.mp within)
  rw [List.rdropWhile, List.reverse_append, List.dropWhile_append_of_pos turned, List.rdropWhile]

/-- A text that does not start with what is taken off has no part at its front that does. -/
private theorem dropWhile_front (still : (front ++ back).dropWhile p = front ++ back) :
    front.dropWhile p = front := by
  rw [List.dropWhile_eq_self_iff] at still ⊢
  intro long
  have first := still (by rw [List.length_append]; omega)
  rwa [List.getElem_append_left long] at first

private theorem rdropWhile_back (still : (front ++ back).rdropWhile p = front ++ back) :
    back.rdropWhile p = back := by
  rw [List.rdropWhile_eq_self_iff] at still ⊢
  intro some_
  have last := still (List.append_ne_nil_of_right_ne_nil front some_)
  rwa [List.getLast_append_of_ne_nil _ some_] at last

end Ends

/-- What cleaning takes off the ends. -/
def isControl (c : Char) : Bool := c.toNat ≤ 0x20

/-- A text without its tabs and line breaks. -/
def kept (cs : List Char) : List Char :=
  cs.filter fun c => c ≠ '\t' && c ≠ '\n' && c ≠ '\r'

/-- A text cleaned at its front alone. -/
def cleanedFront (cs : List Char) : List Char := kept (cs.dropWhile isControl)

/-- A text cleaned at its back alone. -/
def cleanedBack (cs : List Char) : List Char := kept (cs.rdropWhile isControl)

private theorem cleaned_eq (cs : List Char) :
    cleaned cs = kept ((cs.dropWhile isControl).rdropWhile isControl) := rfl

private theorem kept_append (before after : List Char) :
    kept (before ++ after) = kept before ++ kept after :=
  List.filter_append before after

private theorem kept_solid (solid : ∀ c ∈ word, ¬isControl c) : kept word = word := by
  refine List.filter_eq_self.mpr fun c within => ?_
  have solid := solid c within
  have tab : c ≠ '\t' := by rintro rfl; exact solid rfl
  have feed : c ≠ '\n' := by rintro rfl; exact solid rfl
  have turn : c ≠ '\r' := by rintro rfl; exact solid rfl
  simp [tab, feed, turn]

theorem kept_sublist (cs : List Char) : (kept cs).Sublist cs := List.filter_sublist

theorem cleanedFront_sublist (cs : List Char) : (cleanedFront cs).Sublist cs :=
  (kept_sublist _).trans (List.dropWhile_sublist _)

theorem cleanedBack_sublist (cs : List Char) : (cleanedBack cs).Sublist cs :=
  (kept_sublist _).trans (List.rdropWhile_prefix _ _).sublist

theorem cleanedFront_append (some_ : word ≠ []) (solid : ∀ c ∈ word, ¬isControl c)
    (before after : List Char) :
    cleanedFront (before ++ (word ++ after)) = cleanedFront before ++ (word ++ kept after) := by
  rw [cleanedFront, dropWhile_append_word some_ solid, kept_append, kept_append, kept_solid solid,
    cleanedFront]

/-- A word keeps what stands before it and what stands after it apart. -/
theorem cleaned_append (some_ : word ≠ []) (solid : ∀ c ∈ word, ¬isControl c)
    (before after : List Char) :
    cleaned (before ++ (word ++ after)) = cleanedFront before ++ (word ++ cleanedBack after) := by
  rw [cleaned_eq, dropWhile_append_word some_ solid, rdropWhile_append_word some_ solid,
    kept_append, kept_append, kept_solid solid]
  rfl

/-- A text of solid characters is clean. -/
theorem cleaned_solid {cs : List Char} (solid : ∀ c ∈ cs, ¬isControl c) : cleaned cs = cs := by
  cases cs with
  | nil => rfl
  | cons c cs =>
    have whole := cleaned_append (List.cons_ne_nil c cs) solid [] []
    have front : cleanedFront [] = [] := rfl
    have back : cleanedBack [] = [] := rfl
    rwa [front, back, List.nil_append, List.append_nil] at whole

/-- A part of the cleaned text was cleaned from some part of the text. -/
theorem split_of_cleaned {old : List Char} (is : cleaned cs = front ++ (old ++ back)) :
    ∃ before mid after, cs = before ++ (mid ++ after) ∧ cleanedFront before = front ∧
      cleanedBack after = back := by
  -- the core loses nothing more at its ends, nor does any part of it at the end it shares
  let body := cs.dropWhile isControl
  let core := body.rdropWhile isControl
  have whole : cs = cs.takeWhile isControl ++ (core ++ body.rtakeWhile isControl) := by
    rw [List.rdropWhile_append_rtakeWhile, List.takeWhile_append_dropWhile]
  have last : core.rdropWhile isControl = core := List.rdropWhile_idempotent isControl body
  have idle : (core ++ body.rtakeWhile isControl).dropWhile isControl =
      core ++ body.rtakeWhile isControl := by
    rw [List.rdropWhile_append_rtakeWhile]
    exact List.dropWhile_idempotent isControl cs
  have first : core.dropWhile isControl = core := dropWhile_front idle
  obtain ⟨before, later, split, cleanBefore, cleanLater⟩ :=
    List.filter_eq_append_iff.mp (is : kept core = _)
  obtain ⟨mid, after, rfl, -, cleanAfter⟩ := List.filter_eq_append_iff.mp cleanLater
  replace split : core = before ++ (mid ++ after) := split
  rw [split] at whole first last
  refine ⟨cs.takeWhile isControl ++ before, mid, after ++ body.rtakeWhile isControl,
    whole.trans (by simp), ?_, ?_⟩
  · rw [cleanedFront, List.dropWhile_append_of_pos fun c => List.mem_takeWhile_imp,
      dropWhile_front first]
    exact cleanBefore
  · rw [cleanedBack, rdropWhile_append_trail fun c => List.mem_rtakeWhile_imp,
      rdropWhile_back (rdropWhile_back last)]
    exact cleanAfter

/-! ## Schemes -/

private theorem readScheme_append (c : Char) (name : List Char) (absent : ':' ∉ c :: name)
    (valid : c.isAlpha && name.all fun d => d.isAlphanum || d == '+' || d == '-' || d == '.')
    (rest : List Char) :
    readScheme ((c :: name) ++ ':' :: rest) = some (lowered (String.ofList (c :: name)), rest) := by
  rw [readScheme, cutFirst?_append absent]
  exact if_pos valid

/-- What follows the colon does not count for the scheme. -/
private theorem of_readScheme {scheme : String} {rest : List Char}
    (is : readScheme cs = some (scheme, rest)) :
    ∃ name, cs = name ++ ':' :: rest ∧
      ∀ other, readScheme (name ++ ':' :: other) = some (scheme, other) := by
  rw [readScheme] at is
  cases cut : cutFirst? ':' cs with
  | none =>
    rw [cut] at is
    cases is
  | some parts =>
    obtain ⟨_ | ⟨c, name⟩, rest⟩ := parts
    · rw [cut] at is
      cases is
    obtain ⟨rfl, absent⟩ := cutFirst?_eq_some.mp cut
    simp only [cut] at is
    obtain ⟨valid, parts⟩ := Option.ite_none_right_eq_some.mp is
    cases parts
    exact ⟨c :: name, rfl, readScheme_append c name absent valid⟩

/-! ## Authorities -/

/-- The user and the password of a user information. -/
def login (info : List Char) : List Char × Option String :=
  match cutFirst? ':' info with
  | some (u, p) => (u, if p.isEmpty then none else some (String.ofList p))
  | none => (info, none)

/-- The host and the port of what follows the user information. -/
def readPlace (place : List Char) : Option (String × Option Nat) := do
  let (hostChars, afterHost) := spanHost false place
  let host ← readHost hostChars
  let port ←
    match afterHost with
    | ':' :: digits => if hostChars.isEmpty then none else readPort digits
    | _ => some none
  return (host, port)

/-- The path, when it starts with a slash. -/
def pathOf : List Char → Option String
  | '/' :: p => some (pathText p)
  | _ => none

/-- The parts of an authority are read by themselves, and so is what follows it. -/
theorem readAuthority_append {authority more : List Char} (scheme : String)
    (plain : ∀ c ∈ authority, !endsAuthority c) (ends : more.takeWhile (!endsAuthority ·) = []) :
    readAuthority scheme (authority ++ more) =
      let (info, place) := (cutLast? '@' authority).getD ([], authority)
      (readPlace place).bind fun (host, port) =>
        if host.isEmpty ∧ (¬info.isEmpty ∨ authority.contains '@') then none
        else some
          { scheme, user := String.ofList (login info).1, password := (login info).2,
            host := if host.isEmpty then none else some host, port,
            path := pathOf (cutQuery more).1, query := (cutQuery more).2 } := by
  have front : (authority ++ more).takeWhile (!endsAuthority ·) = authority := by
    rw [List.takeWhile_append_of_pos plain, ends, List.append_nil]
  simp only [readAuthority, front, List.drop_left]
  generalize (cutLast? '@' authority).getD ([], authority) = parts
  obtain ⟨info, place⟩ := parts
  simp only [readPlace, login]
  generalize spanHost false place = spans
  obtain ⟨hostChars, afterHost⟩ := spans
  cases readHost hostChars with
  | none => rfl
  | some host =>
    rcases afterHost with _ | ⟨c, digits⟩
    · rfl
    · by_cases colon : c = ':'
      · rw [colon]
        cases hostChars.isEmpty with
        | true => rfl
        | false =>
          show (readPort digits).bind _ = ((readPort digits).bind _).bind _
          cases readPort digits <;> rfl
      · simp only [List.cons.injEq, colon, false_and, imp_self, implies_true]
        rfl

private theorem takeWhile_dropWhile (p : Char → Bool) (cs : List Char) :
    (cs.dropWhile p).takeWhile p = [] :=
  List.takeWhile_eq_nil_iff.mpr (List.dropWhile_get_zero_not p cs)

private theorem exists_authority (cs : List Char) :
    ∃ authority more, cs = authority ++ more ∧ (∀ c ∈ authority, !endsAuthority c) ∧
      more.takeWhile (!endsAuthority ·) = [] :=
  ⟨_, _, List.takeWhile_append_dropWhile.symm, fun _ => List.mem_takeWhile_imp,
    takeWhile_dropWhile (!endsAuthority ·) cs⟩

/-- A password stands in the authority, and any other may stand there. -/
private theorem password_stands_in_authority {scheme p : String} {url : Url}
    (is : readAuthority scheme cs = some url) (holds : url.password = some p) :
    ∃ front back, cs = front ++ ':' :: (p.toList ++ '@' :: back) ∧
      (∀ c ∈ p.toList, !endsAuthority c) ∧
      ∀ word, word ≠ [] → (∀ c ∈ word, !endsAuthority c) →
        readAuthority scheme (front ++ ':' :: (word ++ '@' :: back)) =
          some { url with password := some (String.ofList word) } := by
  obtain ⟨authority, more, rfl, plain, ends⟩ := exists_authority cs
  rw [readAuthority_append scheme plain ends] at is
  cases at_ : cutLast? '@' authority with
  | none =>
    simp only [at_, Option.getD_none] at is
    obtain ⟨_, _, is⟩ := Option.bind_eq_some_iff.mp is
    obtain ⟨_, ⟨⟩⟩ := Option.ite_none_left_eq_some.mp is
    cases holds
  | some parts =>
    obtain ⟨info, place⟩ := parts
    obtain ⟨rfl, host⟩ := cutLast?_eq_some.mp at_
    simp only [at_, Option.getD_some] at is
    obtain ⟨spot, place_is, is⟩ := Option.bind_eq_some_iff.mp is
    obtain ⟨named, ⟨⟩⟩ := Option.ite_none_left_eq_some.mp is
    cases colon : cutFirst? ':' info with
    | none => simp [login, colon] at holds
    | some parts =>
      obtain ⟨u, old⟩ := parts
      obtain ⟨rfl, user⟩ := cutFirst?_eq_some.mp colon
      obtain ⟨-, rfl⟩ : old ≠ [] ∧ String.ofList old = p := by
        simpa [login, colon] using (holds : (login _).2 = some p)
      have parts {word : List Char} : (u ++ ':' :: word) ++ '@' :: place ++ more =
          u ++ ':' :: (word ++ '@' :: (place ++ more)) := by simp
      rw [String.toList_ofList]
      -- the first colon is before the word and the last at sign after it, whatever the word holds
      refine ⟨u, place ++ more, parts, fun c within => plain c (by simp [within]),
        fun word some_ legal => ?_⟩
      have nonempty : spot.1 ≠ "" := by simpa using named
      have plain' : ∀ c ∈ (u ++ ':' :: word) ++ '@' :: place, !endsAuthority c := by
        intro c within
        by_cases inWord : c ∈ word
        · exact legal c inWord
        · exact plain c (by grind)
      have at_' : cutLast? '@' ((u ++ ':' :: word) ++ '@' :: place) =
          some (u ++ ':' :: word, place) := cutLast?_eq_some.mpr ⟨rfl, host⟩
      rw [← parts, readAuthority_append scheme plain' ends, at_']
      simp [place_is, nonempty, login, cutFirst?_append user, some_]

/-! ## Queries -/

/-- The query ends at the fragment. -/
theorem cutQuery_append {path query : List Char} (first : '?' ∉ path) (plain : '#' ∉ path ++ query)
    (ends : back.takeWhile (· ≠ '#') = []) :
    cutQuery (path ++ '?' :: (query ++ back)) = (path, String.ofList query) := by
  have parts : path ++ '?' :: (query ++ back) = (path ++ '?' :: query) ++ back := by simp
  have solid : ∀ c ∈ path ++ '?' :: query, decide (c ≠ '#') := by
    simp only [List.forall_mem_append, List.forall_mem_cons, decide_eq_true_eq]
    refine ⟨?_, by decide, ?_⟩
    · rintro c within rfl
      exact plain (List.mem_append_left query within)
    · rintro c within rfl
      exact plain (List.mem_append_right path within)
  have front : (path ++ '?' :: (query ++ back)).takeWhile (· ≠ '#') = path ++ '?' :: query := by
    rw [parts, List.takeWhile_append_of_pos solid, ends, List.append_nil]
  simp only [cutQuery, front, cutFirst?_append first]

/-- A query stands after its mark, and any other may stand there. -/
private theorem query_stands (some_ : (cutQuery cs).2 ≠ "") :
    ∃ path back, cs = path ++ '?' :: ((cutQuery cs).2.toList ++ back) ∧
      '#' ∉ (cutQuery cs).2.toList ∧ ∀ query, '#' ∉ query →
        cutQuery (path ++ '?' :: (query ++ back)) = ((cutQuery cs).1, String.ofList query) := by
  have ends := takeWhile_dropWhile (· ≠ '#') cs
  have split : cs = cs.takeWhile (· ≠ '#') ++ cs.dropWhile (· ≠ '#') :=
    List.takeWhile_append_dropWhile.symm
  cases mark : cutFirst? '?' (cs.takeWhile (· ≠ '#')) with
  | none => exact absurd (by simp only [cutQuery, mark]) some_
  | some parts =>
    obtain ⟨path, old⟩ := parts
    obtain ⟨whole, absent⟩ := cutFirst?_eq_some.mp mark
    have is : cutQuery cs = (path, String.ofList old) := by simp only [cutQuery, mark]
    have plain : '#' ∉ path ++ '?' :: old := fun within =>
      absurd (List.mem_takeWhile_imp (whole ▸ within)) (by decide)
    obtain ⟨inPath, inQuery⟩ := not_or.mp (mt List.mem_append.mpr plain)
    rw [is, String.toList_ofList]
    refine ⟨path, cs.dropWhile (· ≠ '#'), split.trans (by rw [whole]; simp),
      fun within => inQuery (List.mem_cons_of_mem _ within), fun query without => ?_⟩
    exact cutQuery_append absent (by simp [inPath, without]) ends

private theorem query_stands_in_authority {scheme : String} {url : Url}
    (is : readAuthority scheme cs = some url) (some_ : url.query ≠ "") :
    ∃ front back, cs = front ++ '?' :: (url.query.toList ++ back) ∧ '#' ∉ url.query.toList ∧
      ∀ query, '#' ∉ query → readAuthority scheme (front ++ '?' :: (query ++ back)) =
        some { url with query := String.ofList query } := by
  obtain ⟨authority, more, rfl, plain, ends⟩ := exists_authority cs
  rw [readAuthority_append scheme plain ends] at is
  generalize parts_are : (cutLast? '@' authority).getD ([], authority) = parts at is
  obtain ⟨info, place⟩ := parts
  obtain ⟨spot, place_is, is⟩ := Option.bind_eq_some_iff.mp is
  obtain ⟨named, ⟨⟩⟩ := Option.ite_none_left_eq_some.mp is
  obtain ⟨path, back, whole, without, stands⟩ := query_stands some_
  refine ⟨authority ++ path, back, ?_, without, fun query without => ?_⟩
  · rw [List.append_assoc, ← whole]
  · have ends' : (path ++ '?' :: (query ++ back)).takeWhile (!endsAuthority ·) = [] := by
      rw [whole] at ends
      cases path with
      | nil => rfl
      | cons c path =>
        rw [List.cons_append, List.takeWhile_cons] at ends ⊢
        split at ends
        · cases ends
        next stop => exact if_neg stop
    rw [List.append_assoc, readAuthority_append scheme plain ends', stands query without, parts_are]
    simp only [place_is, Option.bind_some]
    rw [if_neg named]

/-! ## Whole URLs -/

variable {s s' : String} {url : Url}

/-- What follows two slashes is read as an authority. -/
theorem read_of_slashes {c : Char} {name rest : List Char}
    (clean : cleaned s.toList = (c :: name) ++ ':' :: '/' :: '/' :: rest) (absent : ':' ∉ c :: name)
    (valid : c.isAlpha && name.all fun d => d.isAlphanum || d == '+' || d == '-' || d == '.') :
    read s = readAuthority (lowered (String.ofList (c :: name))) rest := by
  rw [read, clean, readScheme_append c name absent valid]
  rfl

/-- A password stands in the cleaned text after a colon and before an at sign, and any other may
stand there. -/
theorem password_stands {p : String} (is : read s = some url) (holds : url.password = some p) :
    ∃ front back, cleaned s.toList = front ++ ':' :: (p.toList ++ '@' :: back) ∧
      (∀ c ∈ p.toList, !endsAuthority c) ∧
      ∀ s' word, word ≠ [] → (∀ c ∈ word, !endsAuthority c) →
        cleaned s'.toList = front ++ ':' :: (word ++ '@' :: back) →
          read s' = some { url with password := some (String.ofList word) } := by
  obtain ⟨⟨scheme, rest⟩, named, is⟩ := Option.bind_eq_some_iff.mp is
  obtain ⟨name, whole, scheme_is⟩ := of_readScheme named
  cases slashes : afterPrefix? ['/', '/'] rest with
  | none =>
    simp only [slashes] at is
    split at is <;> cases is <;> cases holds
  | some authority =>
    simp only [slashes] at is
    obtain ⟨front, back, rfl, plain, stands⟩ := password_stands_in_authority is holds
    have rest_is := afterPrefix?_eq_some.mp slashes
    refine ⟨name ++ ':' :: '/' :: '/' :: front, back, by rw [whole, rest_is]; simp, plain,
      fun s' word some_ legal clean => ?_⟩
    have clean' : cleaned s'.toList =
        name ++ ':' :: ('/' :: '/' :: (front ++ ':' :: (word ++ '@' :: back))) := by
      rw [clean]
      simp
    rw [read, clean', scheme_is]
    exact stands word some_ legal

/-- A query stands in the cleaned text after a question mark, and any other may stand there. -/
theorem query_stands_in_text (is : read s = some url) (some_ : url.query ≠ "") :
    ∃ front back, cleaned s.toList = front ++ '?' :: (url.query.toList ++ back) ∧
      '#' ∉ url.query.toList ∧
      ∀ s' query, '#' ∉ query → cleaned s'.toList = front ++ '?' :: (query ++ back) →
        read s' = some { url with query := String.ofList query } := by
  obtain ⟨⟨scheme, rest⟩, named, is⟩ := Option.bind_eq_some_iff.mp is
  obtain ⟨name, whole, scheme_is⟩ := of_readScheme named
  cases slashes : afterPrefix? ['/', '/'] rest with
  | some authority =>
    simp only [slashes] at is
    obtain ⟨front, back, rest_is, without, stands⟩ := query_stands_in_authority is some_
    refine ⟨name ++ ':' :: '/' :: '/' :: front, back, ?_, without, fun s' query without clean => ?_⟩
    · rw [whole, afterPrefix?_eq_some.mp slashes, rest_is]
      simp
    · have clean' : cleaned s'.toList =
          name ++ ':' :: ('/' :: '/' :: (front ++ '?' :: (query ++ back))) := by
        rw [clean]
        simp
      rw [read, clean', scheme_is]
      exact stands query without
  | none =>
    simp only [slashes] at is
    have query_is : (cutQuery rest).2 = url.query := by
      split at is <;> cases is <;> rfl
    rw [← query_is] at some_
    obtain ⟨path, back, rest_is, without, stands⟩ := query_stands some_
    rw [query_is] at rest_is without
    refine ⟨name ++ ':' :: path, back, ?_, without, fun s' query without clean => ?_⟩
    · rw [whole, rest_is]
      simp
    · have clean' : cleaned s'.toList = name ++ ':' :: (path ++ '?' :: (query ++ back)) := by
        rw [clean]
        simp
      have slashes' : afterPrefix? ['/', '/'] (path ++ '?' :: (query ++ back)) = none := by
        have other : ¬['/', '/'] <+: path := fun is =>
          afterPrefix?_eq_none.mp slashes (is.trans ⟨_, rest_is.symm⟩)
        have foreign : ∀ c ∈ ['?'], c ∉ ['/', '/'] := by simp
        exact afterPrefix?_eq_none.mpr
          (not_prefix_append_word other (by simp) foreign (query ++ back))
      rw [read, clean', scheme_is]
      simp only [Option.bind_eq_bind, Option.bind_some, slashes', stands query without]
      split at is <;> cases is <;> rfl

end RoomRelay.Redis.Url
