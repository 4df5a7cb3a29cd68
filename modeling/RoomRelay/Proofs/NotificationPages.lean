import RoomRelay.Collaborator.Store

/-!
Leafing through a user's notifications. Every page is cut from a list that is filtered and sorted
anew for the call. Still, a client that asks for one page after another until a page comes empty has
been given each notification once and nothing else: the newest first, and those of one instant in the
order in which they were pushed. All pages but the last are full.
-/

namespace RoomRelay

/-! ## The order of instants -/

namespace Timestamp

private theorem keyLe_total (as bs : List Int) : keyLe as bs = true ∨ keyLe bs as = true := by
  induction as generalizing bs with
  | nil => exact .inl rfl
  | cons a as ih =>
    cases bs with
    | nil => exact .inr rfl
    | cons b bs =>
      by_cases same : a = b
      · simpa [keyLe, same] using ih bs
      · simp only [keyLe, if_neg same, if_neg (Ne.symm same), decide_eq_true_iff]
        omega

private theorem keyLe_trans {as bs cs : List Int} (first : keyLe as bs = true)
    (second : keyLe bs cs = true) : keyLe as cs = true := by
  induction as generalizing bs cs with
  | nil => rfl
  | cons a as ih =>
    cases bs with
    | nil => cases first
    | cons b bs =>
      cases cs with
      | nil => cases second
      | cons c cs =>
        simp only [keyLe] at first second ⊢
        by_cases same : a = b
        · subst same
          rw [if_pos rfl] at first
          by_cases here : a = c
          · rw [if_pos here] at second ⊢
            exact ih first second
          · rw [if_neg here] at second ⊢
            exact second
        · rw [if_neg same, decide_eq_true_iff] at first
          have later : a < c := by
            split at second
            · omega
            · rw [decide_eq_true_iff] at second
              omega
          rw [if_neg (Int.ne_of_lt later), decide_eq_true_iff]
          exact later

theorem le_refl (a : Timestamp) : a ≤ a := (keyLe_total a.key a.key).elim id id

/-- The beginning of 1970. -/
instance : Inhabited Timestamp :=
  ⟨⟨1970, 1, 1⟩, 0, 0, 0, 0, by decide, by decide, by decide, by decide, by decide⟩

private theorem le_total (a b : Timestamp) : (a.le b || b.le a) = true :=
  Bool.or_eq_true_iff.mpr (keyLe_total a.key b.key)

end Timestamp

namespace Store

variable {s : Store} {user : Uuid} {limit offset : Int} {unreadOnly : Bool}

/-! ## What is listed -/

/-- What a user's list is made of: the notifications, or the unread ones among them, in the order in
which they were pushed. -/
def wanted (s : Store) (user : Uuid) (unreadOnly : Bool) : List Notification :=
  (s.listOf user).filter fun n => ¬unreadOnly ∨ ¬n.isRead

/-- A list holds what was given: each item once, the newest first, and those of one instant in the
order given. -/
structure Arranges (given listed : List Notification) : Prop where
  once : listed.Perm given
  newestFirst : listed.Pairwise fun a b => b.createdAt ≤ a.createdAt
  ties : ∀ t, listed.filter (·.createdAt = t) = given.filter (·.createdAt = t)

/-- To sort is to arrange. A stable sort keeps the sublist of what was made at one instant. -/
private theorem newestFirst_arranges (s : Store) (user : Uuid) (unreadOnly : Bool) :
    Arranges (s.wanted user unreadOnly) (s.newestFirst user unreadOnly) := by
  have trans (a b c : Notification) (first : b.createdAt.le a.createdAt = true)
      (second : c.createdAt.le b.createdAt = true) : c.createdAt.le a.createdAt = true :=
    Timestamp.keyLe_trans second first
  have total (a b : Notification) :
      (b.createdAt.le a.createdAt || a.createdAt.le b.createdAt) = true :=
    Timestamp.le_total b.createdAt a.createdAt
  have once : (s.newestFirst user unreadOnly).Perm (s.wanted user unreadOnly) :=
    List.mergeSort_perm _ _
  refine ⟨once, List.pairwise_mergeSort trans total _, fun t => ?_⟩
  have alike : ((s.wanted user unreadOnly).filter (·.createdAt = t)).Pairwise
      fun a b => b.createdAt.le a.createdAt = true := by
    refine List.pairwise_iff_forall_sublist.mpr fun {a b} pair => ?_
    have here (n : Notification) (member : n ∈ [a, b]) : n.createdAt = t := by
      simpa using (List.mem_filter.mp (pair.subset member)).2
    rw [here a (by simp), here b (by simp)]
    exact Timestamp.le_refl t
  have kept := (List.sublist_mergeSort trans total alike List.filter_sublist).filter (·.createdAt = t)
  rw [List.filter_filter] at kept
  simp only [Bool.and_self] at kept
  exact (kept.eq_of_length (once.filter _).length_eq.symm).symm

private theorem unreadCount_eq (s : Store) (user : Uuid) :
    s.unreadCount user = (s.wanted user true).length := by
  simp [unreadCount, wanted]

/-! ## Page after page -/

/-- A list is cut into pages: each is full but the last, and none is empty. -/
structure Fills {α : Type} (limit : Int) (items : List α) (pages : List (List α)) : Prop where
  whole : pages.flatten = items
  full : ∀ page ∈ pages.dropLast, (page.length : Int) = limit
  within : ∀ page ∈ pages, page ≠ [] ∧ (page.length : Int) ≤ limit

theorem Fills.nil {α : Type} (limit : Int) : Fills limit ([] : List α) [] :=
  ⟨rfl, fun _ none => (nomatch none), fun _ none => (nomatch none)⟩

/-- A page and the pages of what is left behind it. -/
theorem Fills.cons {α : Type} {items : List α} {pages : List (List α)} (positive : 1 ≤ limit)
    (fills : Fills limit (items.drop limit.toNat) pages) (some_ : items.take limit.toNat ≠ []) :
    Fills limit items (items.take limit.toNat :: pages) := by
  have short : (items.take limit.toNat).length ≤ limit.toNat := List.length_take_le ..
  refine ⟨?_, ?_, ?_⟩
  · rw [List.flatten_cons, fills.whole, List.take_append_drop]
  · intro page member
    cases pages with
    | nil => cases member
    | cons next rest =>
      rw [List.dropLast_cons_of_ne_nil (List.cons_ne_nil next rest)] at member
      rcases List.mem_cons.mp member with rfl | later
      · -- something is left behind the page, so it was cut off at the limit
        have left : items.drop limit.toNat ≠ [] := by
          rw [← fills.whole, List.flatten_cons]
          exact List.append_ne_nil_of_left_ne_nil (fills.within next List.mem_cons_self).1 _
        have long : limit.toNat < items.length :=
          Nat.lt_of_not_le fun short => left (List.drop_eq_nil_of_le short)
        rw [List.length_take_of_le (Nat.le_of_lt long)]
        omega
      · exact fills.full page later
  · intro page member
    rcases List.mem_cons.mp member with rfl | later
    · exact ⟨some_, by omega⟩
    · exact fills.within page later

/-- A client asks for page after page, each as far behind the one before as a page is long, until
one comes empty. The pages before that are those it was given. -/
inductive Leafs (user : Uuid) (limit : Int) (unreadOnly : Bool) :
    Store → Int → List (List Notification) → Prop where
  | ends {s s' : Store} {offset : Int} (now : Timestamp)
      (answered : s.answer now (.notifications user limit offset unreadOnly) = (s', .ok [])) :
      Leafs user limit unreadOnly s offset []
  | turns {s s' : Store} {offset : Int} {page : List Notification} {pages : List (List Notification)}
      (now : Timestamp)
      (answered : s.answer now (.notifications user limit offset unreadOnly) = (s', .ok page))
      (some_ : page ≠ []) (after : Leafs user limit unreadOnly s' (offset + limit) pages) :
      Leafs user limit unreadOnly s offset (page :: pages)

private theorem answer_notifications (working : s.failing = false) (now : Timestamp) (user : Uuid)
    (limit offset : Int) (unreadOnly : Bool) :
    s.answer now (.notifications user limit offset unreadOnly) =
      (s, .ok (s.page user limit offset unreadOnly)) := by
  simp [answer, working]

/-- Whatever pages a client is given from an offset on, they fill what stands behind that offset. -/
private theorem Leafs.fills {pages : List (List Notification)}
    (leafs : Leafs user limit unreadOnly s offset pages) (working : s.failing = false)
    (positive : 1 ≤ limit) (notBefore : 0 ≤ offset) :
    Fills limit ((s.newestFirst user unreadOnly).drop offset.toNat) pages := by
  induction leafs with
  | ends now answered =>
    rw [answer_notifications working] at answered
    have empty : List.take limit.toNat (List.drop _ _) = [] := Except.ok.inj (Prod.mk.inj answered).2
    rcases List.take_eq_nil_iff.mp empty with zero | nothing
    · omega
    · rw [nothing]
      exact .nil limit
  | @turns s s' offset page pages now answered some_ after ih =>
    rw [answer_notifications working] at answered
    obtain ⟨rfl, given⟩ := Prod.mk.inj answered
    obtain rfl : s.page user limit offset unreadOnly = page := Except.ok.inj given
    have behind := ih working (by omega)
    rw [show (offset + limit).toNat = offset.toNat + limit.toNat by omega, ← List.drop_drop] at behind
    exact .cons positive behind some_

/-- There is always an end: each page that is not empty leaves less behind it. -/
private theorem exists_leafs {offset : Int} (working : s.failing = false) (positive : 1 ≤ limit)
    (notBefore : 0 ≤ offset) : ∃ pages, Leafs user limit unreadOnly s offset pages := by
  have answered := answer_notifications working default user limit offset unreadOnly
  by_cases last : s.page user limit offset unreadOnly = []
  · exact ⟨[], .ends default (last ▸ answered)⟩
  · have inside : offset.toNat < (s.newestFirst user unreadOnly).length := by
      refine Nat.lt_of_not_le fun short => last ?_
      rw [page, List.drop_eq_nil_of_le short, List.take_nil]
    have onward : 0 ≤ offset + limit := by omega
    obtain ⟨pages, after⟩ := exists_leafs working positive onward
    exact ⟨_, .turns default answered last after⟩
termination_by (s.newestFirst user unreadOnly).length - offset.toNat

/-- What a client has when it has leafed through a user's list. -/
structure Presents (s : Store) (user : Uuid) (limit : Int) (unreadOnly : Bool)
    (pages : List (List Notification)) : Prop where
  /-- Put together the pages are what is wanted, arranged. -/
  arranged : Arranges (s.wanted user unreadOnly) pages.flatten
  full : ∀ page ∈ pages.dropLast, (page.length : Int) = limit
  within : ∀ page ∈ pages, page ≠ [] ∧ (page.length : Int) ≤ limit
  /-- The store counts as unread as many as it lists as unread. -/
  counted : unreadOnly = true → ∀ now,
    s.answer now (.unreadCount user) = (s, .ok (pages.flatten.length : Int))

/-- Whoever leafs through a list from its front comes to an end, and has then been given what is
wanted and nothing else. -/
theorem pages_partition (s : Store) (user : Uuid) (limit : Int) (unreadOnly : Bool)
    (working : s.failing = false) (positive : 1 ≤ limit) :
    (∃ pages, Leafs user limit unreadOnly s 0 pages) ∧
      ∀ pages, Leafs user limit unreadOnly s 0 pages → s.Presents user limit unreadOnly pages := by
  refine ⟨exists_leafs working positive (Int.le_refl 0), fun pages leafs => ?_⟩
  have fills := leafs.fills working positive (Int.le_refl 0)
  have whole : pages.flatten = s.newestFirst user unreadOnly := fills.whole
  have arranged := s.newestFirst_arranges user unreadOnly
  refine ⟨whole ▸ arranged, fills.full, fills.within, ?_⟩
  rintro rfl now
  rw [whole, arranged.once.length_eq, ← unreadCount_eq]
  simp [answer, working]

private theorem newYear_valid (year : UInt8) : (⟨2000 + year.toNat, 1, 1⟩ : Date).Valid := by
  have bound := year.toNat_lt
  have long : daysIn (2000 + year.toNat) 1 = 31 := rfl
  simp only [Date.Valid, Date.firstYear, Date.lastYear, long]
  omega

/-- The first day of a year, counted from 2000. -/
def newYear (year : UInt8) : Timestamp :=
  { (default : Timestamp) with
    date := ⟨2000 + year.toNat, 1, 1⟩
    date_valid := newYear_valid year }

/-- A user's list: two notifications of one instant with a later one between them, and one that is
read. -/
def tiedList : Store :=
  { lists := [(⟨7⟩,
      [entry ⟨1⟩ "like" "a" (newYear 20),
        entry ⟨2⟩ "like" "b" (newYear 21),
        entry ⟨3⟩ "like" "c" (newYear 20),
        marked (newYear 23) (entry ⟨4⟩ "like" "d" (newYear 22))])] }

/-- Of the four notifications three are unread; the two of one instant come in the order in which
they were pushed. -/
theorem tiedList_partitioned :
    tiedList.failing = false ∧ (1 : Int) ≤ 2 ∧ ∃ pages, Leafs ⟨7⟩ 2 true tiedList 0 pages ∧
      pages.flatten.length = 3 ∧
      (pages.flatten.filter (·.createdAt = newYear 20)).map (·.id) = [⟨1⟩, ⟨3⟩] ∧
      tiedList.answer default (.unreadCount ⟨7⟩) = (tiedList, .ok (3 : Int)) := by
  obtain ⟨⟨pages, leafs⟩, presents⟩ := pages_partition tiedList ⟨7⟩ 2 true rfl (by decide)
  have presented := presents pages leafs
  have three : pages.flatten.length = 3 := presented.arranged.once.length_eq.trans (by decide)
  refine ⟨rfl, by decide, pages, leafs, three, ?_, ?_⟩
  · rw [presented.arranged.ties]
    decide
  · rw [presented.counted rfl, three]
    rfl

end Store

end RoomRelay
