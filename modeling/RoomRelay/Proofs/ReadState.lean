import Mathlib.Data.List.Induction
import Mathlib.Data.List.Nodup
import RoomRelay.Proofs.NotificationPages
import RoomRelay.Proofs.Table

/-!
What is read and what is not, over whole histories of a store: notifications are pushed, and calls
are put by any users while the store is set to fail or not. At any time a user has the notifications
that were pushed to it, each with the instant of the first mark since. Hence the counts: what is unread
is what no later call has marked. A call that fails leaves no trace, and none touches the notifications
of another user.
-/

namespace RoomRelay

/-! ## Histories -/

/-- The user that a call is about. -/
def Call.user : Call → Uuid
  | roomsOf user | markRoomRead _ user | notifications user .. | unreadCount user
  | markRead user _ | markAllRead user => user

/-- Something done with a store: a notification is pushed, or a call put while the store is set to
fail or not. -/
inductive StoreAct where
  | push (user id : Uuid) (kind title : String) (createdAt : Timestamp)
  | call (failing : Bool) (now : Timestamp) (c : Call)

namespace Store

/-- Puts a call to the store, set to fail or not. -/
def ask (s : Store) (failing : Bool) (now : Timestamp) (c : Call) : Store × c.Outcome :=
  { s with failing }.answer now c

/-- The store after an act. -/
def act (s : Store) : StoreAct → Store
  | .push user id kind title createdAt => s.push user (entry id kind title createdAt)
  | .call failing now c => (s.ask failing now c).1

/-- The store after a history. -/
def run (s : Store) (acts : List StoreAct) : Store := acts.foldl act s

end Store

namespace StoreAct

/-- The user that an act is about. -/
def user : StoreAct → Uuid
  | push user .. => user
  | call _ _ c => c.user

/-- The identifier that an act pushes. -/
def pushedId? : StoreAct → Option Uuid
  | push _ id .. => some id
  | call .. => none

/-- The notification that an act pushes to a user. -/
def pushed? (user : Uuid) : StoreAct → Option Notification
  | push other id kind title createdAt =>
    if other = user then some (Store.entry id kind title createdAt) else none
  | call .. => none

/-- The instant with which an act marks a user's notification of an identifier as read. -/
def marks? (user id : Uuid) : StoreAct → Option Timestamp
  | call false now (.markRead other one) => if other = user ∧ one = id then some now else none
  | call false now (.markAllRead other) => if other = user then some now else none
  | _ => none

/-- A user's notifications as the history has it: those that were pushed, each with the instant of
the first mark since. -/
def account (user : Uuid) : List StoreAct → List Notification
  | [] => []
  | a :: later =>
    ((a.pushed? user).map fun n =>
      { n with readAt := later.findSome? fun b => b.marks? user n.id }).toList ++ account user later

/-- How many notifications were pushed to a user that no later act marks. -/
def outstanding (user : Uuid) : List StoreAct → Nat
  | [] => 0
  | a :: later =>
    ((a.pushed? user).toList.countP fun n => later.all fun b => (b.marks? user n.id).isNone) +
      outstanding user later

/-- A notification after an act. -/
def remark (user : Uuid) (a : StoreAct) (n : Notification) : Notification :=
  ((a.marks? user n.id).map fun now => Store.marked now n).getD n

end StoreAct

namespace Store

variable {s s' : Store} {user other id : Uuid} {now : Timestamp} {n : Notification}
  {ns ms : List Notification} {failing : Bool} {c : Call} {a : StoreAct}

/-! ## Marks -/

@[simp] theorem marked_id (now : Timestamp) (n : Notification) : (marked now n).id = n.id := by
  unfold marked
  split <;> rfl

@[simp] theorem marked_isRead (now : Timestamp) (n : Notification) :
    (marked now n).isRead = true := by
  unfold marked
  split
  · assumption
  · rfl

/-- What is read keeps its instant. -/
private theorem marked_of_isRead (read : n.isRead = true) (now : Timestamp) :
    marked now n = n := if_pos read

private theorem markFirst_eq_none : markFirst now id ns = none ↔ ∀ n ∈ ns, n.id ≠ id := by
  induction ns with
  | nil => simp [markFirst]
  | cons n rest ih =>
    by_cases same : n.id = id
    · simp [markFirst, same]
    · simp [markFirst, same, ih]

/-- The first notification of an identifier is marked, and the others stay. -/
private theorem markFirst_eq_some (found : markFirst now id ns = some ms) :
    ∃ before n after, ns = before ++ n :: after ∧ n.id = id ∧ (∀ m ∈ before, m.id ≠ id) ∧
      ms = before ++ marked now n :: after := by
  induction ns generalizing ms with
  | nil => cases found
  | cons n rest ih =>
    rw [markFirst] at found
    split at found
    · rename_i same
      cases found
      exact ⟨[], n, rest, rfl, same, fun _ none => (nomatch none), rfl⟩
    · rename_i other
      obtain ⟨tail, foundLater, rfl⟩ := Option.map_eq_some_iff.mp found
      obtain ⟨before, m, after, rfl, same, others, rfl⟩ := ih foundLater
      exact ⟨n :: before, m, after, rfl, same, List.forall_mem_cons.mpr ⟨other, others⟩, rfl⟩

/-- Where identifiers are all different, marking the first is marking all of the identifier. -/
private theorem markFirst_eq_map (once : (ns.map (·.id)).Nodup)
    (found : markFirst now id ns = some ms) :
    ms = ns.map fun n => if n.id = id then marked now n else n := by
  obtain ⟨before, n, after, rfl, rfl, others, rfl⟩ := markFirst_eq_some found
  have behind : ∀ m ∈ after, m.id ≠ n.id := by
    rw [List.map_append, List.map_cons] at once
    have apart := (List.nodup_cons.mp (List.nodup_append.mp once).2.1).1
    exact fun m member same => apart (same ▸ List.mem_map_of_mem member)
  have unmarked {items : List Notification} (different : ∀ m ∈ items, m.id ≠ n.id) :
      items.map (fun m => if m.id = n.id then marked now m else m) = items :=
    (List.map_congr_left fun m member => if_neg (different m member)).trans (List.map_id items)
  rw [List.map_append, List.map_cons, unmarked others, unmarked behind, if_pos rfl]

/-- What is read stays in its place as it is. -/
private theorem markFirst_read {i : Nat} (found : markFirst now id ns = some ms)
    (stands : ns[i]? = some n)
    (read : n.isRead = true) : ms[i]? = some n := by
  obtain ⟨before, m, after, rfl, -, -, rfl⟩ := markFirst_eq_some found
  rw [List.getElem?_append] at stands ⊢
  split
  · rename_i early
    rwa [if_pos early] at stands
  · rename_i late
    rw [if_neg late] at stands
    generalize i - before.length = place at stands ⊢
    cases place with
    | zero =>
      rw [List.getElem?_cons_zero] at stands ⊢
      cases stands
      rw [marked_of_isRead read]
    | succ k =>
      rw [List.getElem?_cons_succ] at stands ⊢
      exact stands

/-- Marking each marks all of them, and counts those that were unread. -/
private theorem markEach_eq (now : Timestamp) (ns : List Notification) :
    markEach now ns = (ns.map (marked now), (ns.filter (¬·.isRead)).length) := by
  induction ns with
  | nil => rfl
  | cons n rest ih =>
    rw [markEach, ih]
    by_cases read : n.isRead = true
    · simp [read, marked]
    · simp [read, marked]

/-! ## What calls do -/

private theorem listOf_of_lists (same : s'.lists = s.lists) (user : Uuid) :
    s'.listOf user = s.listOf user :=
  congrArg (fun t => (Table.get? user t).getD []) same

private theorem listOf_set (changed : s'.lists = s.lists.set user ns) (other : Uuid) :
    s'.listOf other = if other = user then ns else s.listOf other := by
  simp only [listOf, changed, Table.get?_set]
  split <;> rfl

private theorem listOf_modify {f : Notification → Notification}
    (changed : s'.lists = s.lists.modify user (List.map f)) (other : Uuid) :
    s'.listOf other = if other = user then (s.listOf user).map f else s.listOf other := by
  simp only [listOf, changed, Table.get?_modify]
  split
  · cases s.lists.get? user <;> rfl
  · rfl

/-- A call to mark one notification of a user either marks the first of its identifier or fails. -/
private theorem ask_markRead (s : Store) (now : Timestamp) (user id : Uuid) :
    (∃ ms, markFirst now id (s.listOf user) = some ms ∧
      s.ask false now (.markRead user id) =
        ({ s with failing := false, lists := s.lists.set user ms }, .ok ())) ∨
    ((∀ n ∈ s.listOf user, n.id ≠ id) ∧
      s.ask false now (.markRead user id) = ({ s with failing := false },
        .error (.collaborator ("notification " ++ id.text ++ " not found")))) := by
  have list : { s with failing := false }.listOf user = s.listOf user := rfl
  cases found : markFirst now id (s.listOf user) with
  | none => exact .inr ⟨markFirst_eq_none.mp found, by simp [ask, answer, list, found]⟩
  | some ms => exact .inl ⟨ms, rfl, by simp [ask, answer, list, found]⟩

private theorem ask_markAllRead (s : Store) (now : Timestamp) (user : Uuid) :
    s.ask false now (.markAllRead user) =
      ({ s with failing := false, lists := s.lists.modify user (List.map (marked now)) },
        .ok (s.unreadCount user)) := by
  have counted : (markEach now (s.listOf user)).2 = s.unreadCount user := by
    rw [markEach_eq, unreadCount]
  have marks : (fun ns => (markEach now ns).1) = List.map (marked now) :=
    funext fun ns => by rw [markEach_eq]
  rw [← counted, ← marks]
  rfl

/-- What an act makes of the lists of a store. -/
inductive Changes (s : Store) : StoreAct → Store → Prop where
  | push {s' : Store} {user id : Uuid} {kind title : String} {createdAt : Timestamp}
      (changed : s'.lists = s.lists.set user (s.listOf user ++ [entry id kind title createdAt])) :
      Changes s (.push user id kind title createdAt) s'
  | markOne {s' : Store} {now : Timestamp} {user id : Uuid} {ms : List Notification}
      (found : markFirst now id (s.listOf user) = some ms)
      (changed : s'.lists = s.lists.set user ms) : Changes s (.call false now (.markRead user id)) s'
  | markAll {s' : Store} {now : Timestamp} {user : Uuid}
      (changed : s'.lists = s.lists.modify user (List.map (marked now))) :
      Changes s (.call false now (.markAllRead user)) s'
  | nothing {s' : Store} {a : StoreAct} (changed : s'.lists = s.lists)
      (noPush : ∀ user, a.pushed? user = none)
      (noMark : ∀ user, ∀ n ∈ s.listOf user, a.marks? user n.id = none) : Changes s a s'

private theorem act_changes (s : Store) (a : StoreAct) : s.Changes a (s.act a) := by
  cases a with
  | push user id kind title createdAt => exact .push rfl
  | call failing now c =>
    cases failing with
    | true => exact .nothing rfl (fun _ => rfl) fun _ _ _ => rfl
    | false =>
      cases c with
      | markRead user id =>
        rcases s.ask_markRead now user id with ⟨ms, found, asked⟩ | ⟨absent, asked⟩
        · exact .markOne found (by rw [act, asked])
        · refine .nothing (by rw [act, asked]) (fun _ => rfl) fun other n member => ?_
          exact if_neg fun (both : user = other ∧ id = n.id) =>
            absent n (both.1 ▸ member) both.2.symm
      | markAllRead user => exact .markAll (by rw [act, ask_markAllRead])
      | _ => exact .nothing rfl (fun _ => rfl) fun _ _ _ => rfl

/-! ## Lists after acts -/

private theorem remark_eq_self (noMark : a.marks? user n.id = none) : a.remark user n = n := by
  rw [StoreAct.remark, noMark]
  rfl

private theorem map_remark_eq_self (noMark : ∀ n ∈ ns, a.marks? user n.id = none) :
    ns.map (a.remark user) = ns :=
  (List.map_congr_left fun n member => remark_eq_self (noMark n member)).trans (List.map_id ns)

/-- An act marks what it marks, and a push adds its notification behind. -/
private theorem listOf_act (once : ((s.listOf user).map (·.id)).Nodup) (a : StoreAct) :
    (s.act a).listOf user = (s.listOf user).map (a.remark user) ++ (a.pushed? user).toList := by
  have changes := s.act_changes a
  generalize s.act a = s' at changes ⊢
  cases changes with
  | @push _ other id kind title createdAt changed =>
    rw [map_remark_eq_self fun _ _ => rfl, listOf_set changed, StoreAct.pushed?]
    by_cases same : user = other
    · subst same
      simp
    · simp [same, Ne.symm same]
  | @markOne _ now other id ms found changed =>
    have noPush : (StoreAct.call false now (.markRead other id)).pushed? user = none := rfl
    rw [listOf_set changed, noPush, Option.toList_none, List.append_nil]
    split
    · rename_i same
      subst same
      rw [markFirst_eq_map once found]
      refine List.map_congr_left fun n _ => ?_
      by_cases named : n.id = id
      · simp [StoreAct.remark, StoreAct.marks?, named]
      · simp [StoreAct.remark, StoreAct.marks?, named, Ne.symm named]
    · rename_i different
      refine (map_remark_eq_self fun n _ => ?_).symm
      exact if_neg fun both => different both.1.symm
  | @markAll _ now other changed =>
    have noPush : (StoreAct.call false now (.markAllRead other)).pushed? user = none := rfl
    rw [listOf_modify changed, noPush, Option.toList_none, List.append_nil]
    split
    · rename_i same
      subst same
      exact List.map_congr_left fun n _ => by simp [StoreAct.remark, StoreAct.marks?]
    · rename_i different
      refine (map_remark_eq_self fun n _ => ?_).symm
      exact if_neg fun same => different same.symm
  | nothing changed noPush noMark =>
    rw [noPush, map_remark_eq_self (noMark user), Option.toList_none, List.append_nil]
    exact listOf_of_lists changed user

/-- An act leaves the lists of all users but its own. -/
private theorem listOf_act_of_ne (different : a.user ≠ user) :
    (s.act a).listOf user = s.listOf user := by
  have changes := s.act_changes a
  generalize s.act a = s' at changes ⊢
  cases changes with
  | push changed => exact (listOf_set changed user).trans (if_neg (Ne.symm different))
  | markOne found changed => exact (listOf_set changed user).trans (if_neg (Ne.symm different))
  | markAll changed => exact (listOf_modify changed user).trans (if_neg (Ne.symm different))
  | nothing changed noPush noMark => exact listOf_of_lists changed user

/-- What is read stays in its place as it is. -/
private theorem listOf_act_read {i : Nat} (stands : (s.listOf user)[i]? = some n)
    (read : n.isRead = true)
    (a : StoreAct) : ((s.act a).listOf user)[i]? = some n := by
  have changes := s.act_changes a
  generalize s.act a = s' at changes ⊢
  cases changes with
  | push changed =>
    rw [listOf_set changed]
    split
    · rename_i same
      have inside := (List.getElem?_eq_some_iff.mp stands).1
      subst same
      rw [List.getElem?_append_left inside, stands]
    · exact stands
  | markOne found changed =>
    rw [listOf_set changed]
    split
    · rename_i same
      subst same
      exact markFirst_read found stands read
    · exact stands
  | @markAll _ now other changed =>
    rw [listOf_modify changed]
    split
    · rename_i same
      subst same
      rw [List.getElem?_map, stands, Option.map_some, marked_of_isRead read]
    · exact stands
  | nothing changed noPush noMark =>
    rw [listOf_of_lists changed]
    exact stands

private theorem listOf_run_read {i : Nat} (stands : (s.listOf user)[i]? = some n)
    (read : n.isRead = true)
    (acts : List StoreAct) : ((s.run acts).listOf user)[i]? = some n := by
  induction acts generalizing s with
  | nil => exact stands
  | cons a later ih => exact ih (listOf_act_read stands read a)

end Store

namespace StoreAct

variable {user other : Uuid} {acts : List StoreAct} {n m : Notification}

/-! ## The history's account -/

/-- Only a push to the user pushes, and what it pushes is unread. -/
private theorem eq_push_of_pushed {a : StoreAct} (pushes : a.pushed? user = some n) :
    ∃ id kind title createdAt, a = .push user id kind title createdAt ∧
      n = Store.entry id kind title createdAt := by
  cases a with
  | push other id kind title createdAt =>
    rw [pushed?] at pushes
    split at pushes
    · rename_i same
      subst same
      exact ⟨id, kind, title, createdAt, rfl, (Option.some.inj pushes).symm⟩
    · cases pushes
  | call failing now c => cases pushes

private theorem pushedId_of_pushed {a : StoreAct} (pushes : a.pushed? user = some n) :
    a.pushedId? = some n.id ∧ a.user = user := by
  obtain ⟨id, kind, title, createdAt, rfl, rfl⟩ := eq_push_of_pushed pushes
  exact ⟨rfl, rfl⟩

/-- One more act marks what it marks, and a push adds its notification behind. -/
private theorem account_snoc (user : Uuid) (acts : List StoreAct) (a : StoreAct) :
    account user (acts ++ [a]) =
      (account user acts).map (a.remark user) ++ (a.pushed? user).toList := by
  induction acts with
  | nil =>
    cases pushes : a.pushed? user with
    | none => simp [account, pushes]
    | some n =>
      obtain ⟨id, kind, title, createdAt, -, rfl⟩ := eq_push_of_pushed pushes
      simp [account, pushes, Store.entry]
  | cons b later ih =>
    rw [List.cons_append, account, account, ih, List.map_append, List.append_assoc]
    congr 1
    cases b.pushed? user with
    | none => rfl
    | some n =>
      simp only [Option.map_some, Option.toList_some, List.map_singleton, List.findSome?_append]
      cases marked : later.findSome? (·.marks? user n.id) with
      | some first =>
        cases again : a.marks? user n.id <;> simp [remark, again, Store.marked, Notification.isRead]
      | none =>
        cases now : a.marks? user n.id <;> simp [remark, now, Store.marked, Notification.isRead]

/-- What is unread is what no later act marks. -/
private theorem account_unread (user : Uuid) (acts : List StoreAct) :
    ((account user acts).countP fun n => !n.isRead) = outstanding user acts := by
  induction acts with
  | nil => rfl
  | cons a later ih =>
    rw [account, outstanding, List.countP_append, ih]
    cases a.pushed? user with
    | none => rfl
    | some n =>
      congr 1
      simp only [Option.map_some, Option.toList_some, List.countP_singleton]
      congr 1
      rw [Bool.eq_iff_iff]
      simp [Notification.isRead, List.findSome?_eq_none_iff]

/-- The identifiers of a user's notifications are among those that were pushed, in order. -/
private theorem ids_account (user : Uuid) (acts : List StoreAct) :
    ((account user acts).map (·.id)).Sublist (acts.filterMap pushedId?) := by
  induction acts with
  | nil => exact .slnil
  | cons a later ih =>
    rw [account, List.map_append]
    cases pushes : a.pushed? user with
    | some n =>
      rw [List.filterMap_cons_some (pushedId_of_pushed pushes).1]
      exact ih.cons_cons n.id
    | none =>
      exact ih.trans ((List.sublist_cons_self a later).filterMap _)

private theorem mem_account_cons {a : StoreAct} {later : List StoreAct}
    (member : n ∈ account user (a :: later)) :
    (a.pushedId? = some n.id ∧ a.user = user) ∨ n ∈ account user later := by
  rw [account, List.mem_append, Option.mem_toList, Option.map_eq_some_iff] at member
  rcases member with ⟨pushed, pushes, rfl⟩ | after
  · have named := pushedId_of_pushed pushes
    exact .inl named
  · exact .inr after

/-- Where no identifier is pushed twice, no two users have notifications of one. -/
private theorem ids_apart (distinct : (acts.filterMap pushedId?).Nodup) (different : user ≠ other)
    (mine : n ∈ account user acts) (others : m ∈ account other acts) : n.id ≠ m.id := by
  have known {user : Uuid} {later : List StoreAct} {n : Notification}
      (member : n ∈ account user later) : n.id ∈ later.filterMap pushedId? :=
    (ids_account user later).subset (List.mem_map_of_mem member)
  induction acts with
  | nil => cases mine
  | cons a later ih =>
    rcases mem_account_cons mine with ⟨pushes, rfl⟩ | mineLater
    · rw [List.filterMap_cons_some pushes, List.nodup_cons] at distinct
      rcases mem_account_cons others with ⟨-, rfl⟩ | othersLater
      · exact absurd rfl different
      · exact fun same => distinct.1 (same ▸ known othersLater)
    · rcases mem_account_cons others with ⟨pushes, rfl⟩ | othersLater
      · rw [List.filterMap_cons_some pushes, List.nodup_cons] at distinct
        exact fun same => distinct.1 (same ▸ known mineLater)
      · exact ih (distinct.sublist ((List.sublist_cons_self a later).filterMap _)) mineLater
          othersLater

end StoreAct

namespace Store

variable {s s' : Store} {user other id : Uuid} {now : Timestamp} {n : Notification}
  {ns ms : List Notification} {failing : Bool} {c : Call} {a : StoreAct} {acts : List StoreAct}

/-! ## Histories and single calls -/

/-- A store that begins without notifications holds what the history says. -/
private theorem listOf_run (fresh : s.lists = [])
    (distinct : (acts.filterMap StoreAct.pushedId?).Nodup) (user : Uuid) :
    (s.run acts).listOf user = StoreAct.account user acts := by
  induction acts using List.reverseRecOn with
  | nil => simp [run, listOf, fresh, StoreAct.account]
  | append_singleton acts a ih =>
    rw [List.filterMap_append] at distinct
    have before := ih (List.Nodup.of_append_left distinct)
    have once : (((s.run acts).listOf user).map (·.id)).Nodup := by
      rw [before]
      exact (List.Nodup.of_append_left distinct).sublist (StoreAct.ids_account user acts)
    have last : s.run (acts ++ [a]) = (s.run acts).act a := List.foldl_append
    rw [last, listOf_act once, before, StoreAct.account_snoc]

private theorem unreadCount_eq_countP (s : Store) (user : Uuid) :
    s.unreadCount user = (s.listOf user).countP fun n => !n.isRead := by
  rw [unreadCount, List.countP_eq_length_filter]
  simp only [Bool.not_eq_true, Bool.decide_eq_false]

/-- A mark takes one off what is unread, if what it marks was unread. -/
private theorem markRead_lowers (asked : s.ask failing now (.markRead user id) = (s', .ok ())) :
    ∃ n ∈ s.listOf user, n.id = id ∧
      s'.unreadCount user + (if n.isRead then 0 else 1) = s.unreadCount user := by
  cases failing with
  | true => cases asked
  | false =>
    rcases s.ask_markRead now user id with ⟨ms, found, marked⟩ | ⟨-, refused⟩
    · rw [marked] at asked
      obtain ⟨rfl, -⟩ := Prod.mk.inj asked
      obtain ⟨before, n, after, whole, same, -, rfl⟩ := markFirst_eq_some found
      refine ⟨n, whole ▸ List.mem_append_right _ List.mem_cons_self, same, ?_⟩
      rw [unreadCount_eq_countP, unreadCount_eq_countP, listOf_set rfl, if_pos rfl, whole]
      simp only [List.countP_append, List.countP_cons, marked_isRead]
      cases n.isRead
      · simp
        omega
      · simp
    · rw [refused] at asked
      cases (Prod.mk.inj asked).2

/-- Marking all says how many were unread, and leaves none. -/
private theorem markAllRead_clears {k : Nat}
    (asked : s.ask failing now (.markAllRead user) = (s', .ok k)) :
    k = s.unreadCount user ∧ s'.unreadCount user = 0 := by
  cases failing with
  | true => cases asked
  | false =>
    rw [ask_markAllRead] at asked
    obtain ⟨rfl, told⟩ := Prod.mk.inj asked
    refine ⟨(Except.ok.inj told).symm, ?_⟩
    rw [unreadCount_eq_countP, listOf_modify rfl, if_pos rfl, List.countP_map]
    exact List.countP_eq_zero.mpr fun n _ => by simp

/-- A call fails on a store that is set to fail, or for an identifier that is none of its user's. -/
private theorem ask_fails_iff (s : Store) (failing : Bool) (now : Timestamp) (c : Call) :
    (∃ f, (s.ask failing now c).2 = .error f) ↔
      failing = true ∨ ∃ user id, c = .markRead user id ∧ ∀ n ∈ s.listOf user, n.id ≠ id := by
  cases failing with
  | true => exact iff_of_true ⟨failure, rfl⟩ (.inl rfl)
  | false =>
    simp only [Bool.false_eq_true, false_or]
    constructor
    · rintro ⟨f, failed⟩
      cases c with
      | markRead user id =>
        rcases s.ask_markRead now user id with ⟨ms, -, asked⟩ | ⟨absent, -⟩
        · rw [asked] at failed
          cases failed
        · exact ⟨user, id, rfl, absent⟩
      | _ => cases failed
    · rintro ⟨user, id, rfl, absent⟩
      rcases s.ask_markRead now user id with ⟨ms, found, -⟩ | ⟨-, asked⟩
      · rw [markFirst_eq_none.mpr absent] at found
        cases found
      · exact ⟨_, by rw [asked]⟩

/-- A call that fails leaves the store as it is. -/
private theorem ask_failed {f : Failure} (failed : (s.ask failing now c).2 = .error f) :
    (s.ask failing now c).1 = { s with failing } := by
  cases failing with
  | true => rfl
  | false =>
    cases c with
    | markRead user id =>
      rcases s.ask_markRead now user id with ⟨ms, -, asked⟩ | ⟨-, asked⟩
      · rw [asked] at failed
        cases failed
      · rw [asked]
    | _ => cases failed

/-! ## The books -/

/-- What a store says of read and unread notifications after a history, whatever is asked next. -/
structure KeepsBooks (acts : List StoreAct) (s : Store) : Prop where
  /-- Each user has the notifications that were pushed to it, in order, with the instants of the
  first marks. -/
  account : ∀ user, s.listOf user = StoreAct.account user acts
  unread : ∀ user, s.unreadCount user = StoreAct.outstanding user acts
  told : ∀ user now, s.ask false now (.unreadCount user) =
    ({ s with failing := false }, .ok (StoreAct.outstanding user acts : Int))
  /-- Marking one takes one off what is unread, unless it was read. -/
  lowers : ∀ failing now user id s', s.ask failing now (.markRead user id) = (s', .ok ()) →
    ∃ n ∈ s.listOf user, n.id = id ∧
      s'.unreadCount user + (if n.isRead then 0 else 1) = s.unreadCount user
  clears : ∀ failing now user s' k, s.ask failing now (.markAllRead user) = (s', .ok k) →
    k = s.unreadCount user ∧ s'.unreadCount user = 0
  /-- A notification that was read keeps its instant, whatever comes after. -/
  settled : ∀ user (i : Nat) (n : Notification), (s.listOf user)[i]? = some n → n.isRead = true →
    ∀ later, ((s.run later).listOf user)[i]? = some n
  /-- A call fails on a store that is set to fail and for an identifier that is none of its
  user's, -/
  fails : ∀ failing now c, (∃ f, (s.ask failing now c).2 = .error f) ↔
    failing = true ∨ ∃ user id, c = .markRead user id ∧ ∀ n ∈ s.listOf user, n.id ≠ id
  /-- such as one of another user's. -/
  foreign : ∀ user other n, user ≠ other → n ∈ s.listOf other → ∀ m ∈ s.listOf user, m.id ≠ n.id
  /-- Then the store stays as it is. -/
  unchanged : ∀ failing now c f, (s.ask failing now c).2 = .error f →
    (s.ask failing now c).1 = { s with failing }
  /-- No act changes the notifications of any user but its own. -/
  others : ∀ (a : StoreAct) user, a.user ≠ user → (s.act a).listOf user = s.listOf user

/-- Whatever was pushed and marked by whomever, the store keeps its books. -/
theorem run_keepsBooks (fresh : s.lists = []) (distinct : (acts.filterMap StoreAct.pushedId?).Nodup) :
    (s.run acts).KeepsBooks acts := by
  have account := listOf_run fresh distinct
  have unread (user : Uuid) : (s.run acts).unreadCount user = StoreAct.outstanding user acts := by
    rw [unreadCount_eq_countP, account, StoreAct.account_unread]
  refine
    { account, unread
      told := fun user now => ?_
      lowers := fun _ _ _ _ _ => markRead_lowers
      clears := fun _ _ _ _ _ => markAllRead_clears
      settled := fun _ _ _ => listOf_run_read
      fails := ask_fails_iff _
      foreign := fun user other n different theirs m mine => ?_
      unchanged := fun _ _ _ _ => ask_failed
      others := fun _ _ => listOf_act_of_ne }
  · rw [← unread]
    rfl
  · rw [account] at theirs mine
    exact StoreAct.ids_apart distinct different mine theirs

/-- A user is pushed two notifications and another user one. One of the two is marked by the other
user in vain, then by its own user, and again; the other user's is not marked by a store that
fails. -/
def twoReaders : List StoreAct :=
  [.push ⟨7⟩ ⟨1⟩ "like" "a" (newYear 20),
    .push ⟨8⟩ ⟨2⟩ "like" "b" (newYear 20),
    .push ⟨7⟩ ⟨3⟩ "follow" "c" (newYear 20),
    .call false (newYear 21) (.markRead ⟨8⟩ ⟨1⟩),
    .call false (newYear 22) (.markRead ⟨7⟩ ⟨1⟩),
    .call false (newYear 23) (.markRead ⟨7⟩ ⟨1⟩),
    .call true (newYear 24) (.markAllRead ⟨8⟩)]

/-- One notification of each user is left unread, and the marked one has the instant of its own
user's first mark. -/
theorem twoReaders_kept :
    ({} : Store).lists = [] ∧ (twoReaders.filterMap StoreAct.pushedId?).Nodup ∧
      ((({} : Store).run twoReaders).listOf ⟨7⟩).map (·.readAt) =
        [some (newYear 22), none] ∧
      (({} : Store).run twoReaders).unreadCount ⟨7⟩ = 1 ∧
      (({} : Store).run twoReaders).unreadCount ⟨8⟩ = 1 := by
  have distinct : (twoReaders.filterMap StoreAct.pushedId?).Nodup := by decide
  have kept := run_keepsBooks (s := {}) rfl distinct
  refine ⟨rfl, distinct, ?_, (kept.unread ⟨7⟩).trans ?_, (kept.unread ⟨8⟩).trans ?_⟩
  · rw [kept.account]
    decide
  · decide
  · decide

end Store

end RoomRelay
