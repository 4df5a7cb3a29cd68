import Mathlib.Data.List.Nodup
import RoomRelay.Registry
import RoomRelay.Proofs.Table

/-!
What a registry is at all times: nobody stands in it without a connection, no room without a
listener, nothing twice, and every connection under the user it belongs to. Each operation keeps
this, and changes the connections of one user or the listeners of one room only.
-/

namespace RoomRelay.Registry

/-- No empty entries, nothing twice, and every connection under its own user. `owner` tells whose
a connection is. -/
structure Sound (owner : ConnId → Option Uuid) (r : Registry) : Prop where
  usersOnce : r.users.keys.Nodup
  roomsOnce : r.rooms.keys.Nodup
  userConnected : ∀ user ids, r.users.get? user = some ids → ids ≠ []
  roomListened : ∀ room users, r.rooms.get? room = some users → users ≠ []
  idsOnce : ∀ user, (r.connectionsOf user).Nodup
  idsOwned : ∀ user, ∀ id ∈ r.connectionsOf user, owner id = some user
  listenersOnce : ∀ room, (r.listeners room).Nodup

variable {owner : ConnId → Option Uuid} {r : Registry} {user other room : Uuid} {id : ConnId}

theorem sound_empty (owner : ConnId → Option Uuid) : Sound owner {} where
  usersOnce := List.nodup_nil
  roomsOnce := List.nodup_nil
  userConnected := by intro user ids found; cases found
  roomListened := by intro room users found; cases found
  idsOnce := fun _ => List.nodup_nil
  idsOwned := by intro user id member; cases member
  listenersOnce := fun _ => List.nodup_nil

/-! ## Users and connections -/

theorem mem_allConnections (once : r.users.keys.Nodup) :
    id ∈ r.allConnections ↔ ∃ user, id ∈ r.connectionsOf user := by
  simp only [allConnections, List.mem_flatMap, connectionsOf]
  constructor
  · rintro ⟨⟨user, ids⟩, entry, member⟩
    exact ⟨user, by rw [Table.get?_of_mem once entry]; exact member⟩
  · rintro ⟨user, member⟩
    cases found : r.users.get? user with
    | none => simp [found] at member
    | some ids => exact ⟨(user, ids), Table.mem_of_get? found, by simpa [found] using member⟩

/-- A user stands in the registry exactly while it has a connection. -/
theorem Sound.mem_connectedUsers (sound : Sound owner r) :
    user ∈ r.connectedUsers ↔ r.connectionsOf user ≠ [] := by
  unfold connectedUsers connectionsOf
  cases found : r.users.get? user with
  | none => simpa using Table.get?_eq_none_iff.mp found
  | some ids =>
    have member : user ∈ r.users.keys := List.mem_map_of_mem (Table.mem_of_get? found)
    simpa [member] using sound.userConnected user ids found

theorem total_eq_sum (r : Registry) : r.total = r.users.sum List.length := by
  unfold total allConnections
  induction r.users with
  | nil => rfl
  | cons entry rest ih => rw [List.flatMap_cons, List.length_append, ih, Table.sum]

private theorem addConnection_known (present : id ∈ r.connectionsOf user) :
    r.addConnection user id = r := by
  simp [addConnection, present]

private theorem addConnection_fresh (fresh : id ∉ r.connectionsOf user) :
    r.addConnection user id =
      { r with users := r.users.set user (r.connectionsOf user ++ [id]) } := by
  simp [addConnection, fresh]

@[simp] theorem addConnection_dropped (r : Registry) (user : Uuid) (id : ConnId) :
    (r.addConnection user id).dropped = r.dropped := by
  unfold addConnection
  dsimp only
  split <;> rfl

@[simp] theorem addConnection_rooms (r : Registry) (user : Uuid) (id : ConnId) :
    (r.addConnection user id).rooms = r.rooms := by
  unfold addConnection
  dsimp only
  split <;> rfl

theorem connectionsOf_addConnection (r : Registry) (user other : Uuid) (id : ConnId) :
    (r.addConnection user id).connectionsOf other =
      if other = user ∧ id ∉ r.connectionsOf user then r.connectionsOf user ++ [id]
      else r.connectionsOf other := by
  by_cases present : id ∈ r.connectionsOf user
  · simp [addConnection_known present, present]
  · rw [addConnection_fresh present]
    by_cases same : other = user
    · rw [if_pos ⟨same, present⟩, connectionsOf, Table.get?_set, if_pos same]
      rfl
    · rw [if_neg fun both => same both.1, connectionsOf, Table.get?_set, if_neg same]
      rfl

theorem connectionsOf_removeConnection (once : r.users.keys.Nodup) (user other : Uuid)
    (id : ConnId) :
    (r.removeConnection user id).connectionsOf other =
      if other = user then (r.connectionsOf user).filter (· ≠ id) else r.connectionsOf other := by
  by_cases last : ((r.connectionsOf user).filter (· ≠ id)).isEmpty = true
  · by_cases same : other = user
    · have nothing := List.isEmpty_iff.mp last
      simp only [removeConnection, same, if_true, nothing]
      simp [connectionsOf, Table.get?_erase once]
    · simp only [removeConnection, if_pos last, if_neg same]
      simp [connectionsOf, Table.get?_erase once, same]
  · by_cases same : other = user
    · simp only [removeConnection, if_neg last, same, if_true]
      simp [connectionsOf, Table.get?_set]
    · simp only [removeConnection, if_neg last, if_neg same]
      simp [connectionsOf, Table.get?_set, same]

/-- A connection that is new adds one, to its user. -/
theorem total_addConnection (fresh : id ∉ r.connectionsOf user) :
    (r.addConnection user id).total = r.total + 1 := by
  have balance := Table.sum_set List.length user (r.connectionsOf user ++ [id]) r.users
  have before : r.users.sizeAt List.length user = (r.connectionsOf user).length := by
    unfold Table.sizeAt connectionsOf
    cases r.users.get? user <;> rfl
  rw [before, List.length_append, List.length_singleton] at balance
  rw [total_eq_sum, total_eq_sum, addConnection_fresh fresh]
  simp only
  omega

theorem connectionCount_addConnection (fresh : id ∉ r.connectionsOf user) (other : Uuid) :
    (r.addConnection user id).connectionCount other =
      if other = user then r.connectionCount user + 1 else r.connectionCount other := by
  unfold connectionCount
  rw [connectionsOf_addConnection]
  by_cases same : other = user
  · rw [if_pos ⟨same, fresh⟩, if_pos same, List.length_append, List.length_singleton]
  · rw [if_neg fun both => same both.1, if_neg same]

/-- Without the one that goes, one is left less. -/
private theorem length_remaining (idsOnce : (r.connectionsOf user).Nodup)
    (present : id ∈ r.connectionsOf user) :
    ((r.connectionsOf user).filter (· ≠ id)).length + 1 = r.connectionCount user := by
  have erased : (r.connectionsOf user).filter (· ≠ id) = (r.connectionsOf user).erase id := by
    rw [idsOnce.erase_eq_filter id]
    exact List.filter_congr fun other _ => by by_cases same : other = id <;> simp [same]
  have some_there := List.length_pos_of_mem present
  rw [erased, List.length_erase_of_mem present, connectionCount]
  omega

theorem connectionCount_removeConnection (once : r.users.keys.Nodup)
    (idsOnce : (r.connectionsOf user).Nodup) (present : id ∈ r.connectionsOf user) (other : Uuid) :
    (r.removeConnection user id).connectionCount other =
      if other = user then r.connectionCount user - 1 else r.connectionCount other := by
  have left := length_remaining idsOnce present
  rw [connectionCount, connectionsOf_removeConnection once]
  by_cases same : other = user
  · rw [if_pos same, if_pos same]
    omega
  · rw [if_neg same, if_neg same, connectionCount]

/-- A connection that goes takes one away. -/
theorem total_removeConnection (idsOnce : (r.connectionsOf user).Nodup)
    (present : id ∈ r.connectionsOf user) :
    (r.removeConnection user id).total + 1 = r.total := by
  let rest := (r.connectionsOf user).filter (· ≠ id)
  have shorter : rest.length + 1 = (r.connectionsOf user).length :=
    length_remaining idsOnce present
  have before : r.users.sizeAt List.length user = (r.connectionsOf user).length := by
    unfold Table.sizeAt connectionsOf
    cases r.users.get? user <;> rfl
  rw [total_eq_sum, total_eq_sum]
  by_cases last : rest.isEmpty = true
  · have balance := Table.sum_erase List.length user r.users
    have users : (r.removeConnection user id).users = r.users.erase user := if_pos last
    have nothing : rest.length = 0 := by rw [List.isEmpty_iff.mp last]; rfl
    rw [users]
    omega
  · have balance := Table.sum_set List.length user rest r.users
    have users : (r.removeConnection user id).users = r.users.set user rest := if_neg last
    rw [users]
    omega

theorem Sound.addConnection (sound : Sound owner r) (owned : owner id = some user) :
    Sound owner (r.addConnection user id) := by
  by_cases present : id ∈ r.connectionsOf user
  · exact (addConnection_known present).symm ▸ sound
  · refine ⟨?_, ?_, ?_, ?_, ?_, ?_, ?_⟩
    · exact (addConnection_fresh present).symm ▸ Table.keys_set_nodup sound.usersOnce
    · exact (addConnection_fresh present).symm ▸ sound.roomsOnce
    · intro other ids found
      rw [addConnection_fresh present, Table.get?_set] at found
      split at found
      · cases found
        simp
      · exact sound.userConnected other ids found
    · exact (addConnection_fresh present).symm ▸ sound.roomListened
    · intro other
      rw [connectionsOf_addConnection]
      split
      · exact List.nodup_append.mpr ⟨sound.idsOnce user, List.nodup_singleton id, fun a member b last same =>
          present (List.mem_singleton.mp last ▸ same ▸ member)⟩
      · exact sound.idsOnce other
    · intro other a member
      rw [connectionsOf_addConnection] at member
      split at member
      · rename_i here
        rcases List.mem_append.mp member with old | new
        · rw [here.1]
          exact sound.idsOwned user a old
        · rw [here.1, List.mem_singleton.mp new]
          exact owned
      · exact sound.idsOwned other a member
    · exact (addConnection_fresh present).symm ▸ sound.listenersOnce

theorem Sound.removeConnection (sound : Sound owner r) (user : Uuid) (id : ConnId) :
    Sound owner (r.removeConnection user id) := by
  refine ⟨?_, sound.roomsOnce, ?_, sound.roomListened, ?_, ?_, sound.listenersOnce⟩
  · simp only [Registry.removeConnection]
    split
    · exact Table.keys_erase_nodup sound.usersOnce
    · exact Table.keys_set_nodup sound.usersOnce
  · intro other ids found
    simp only [Registry.removeConnection] at found
    split at found
    · rw [Table.get?_erase sound.usersOnce] at found
      split at found
      · cases found
      · exact sound.userConnected other ids found
    · rename_i some_left
      rw [Table.get?_set] at found
      split at found
      · cases found
        exact fun none_left => some_left (List.isEmpty_iff.mpr none_left)
      · exact sound.userConnected other ids found
  · intro other
    rw [connectionsOf_removeConnection sound.usersOnce]
    split
    · exact (sound.idsOnce user).filter _
    · exact sound.idsOnce other
  · intro other a member
    rw [connectionsOf_removeConnection sound.usersOnce] at member
    split at member
    · rename_i same
      exact same ▸ sound.idsOwned user a (List.mem_of_mem_filter member)
    · exact sound.idsOwned other a member

/-- Removing every user at once. -/
theorem Sound.withoutUsers (sound : Sound owner r) : Sound owner { r with users := [] } where
  usersOnce := List.nodup_nil
  roomsOnce := sound.roomsOnce
  userConnected := by intro user ids found; cases found
  roomListened := sound.roomListened
  idsOnce := fun _ => List.nodup_nil
  idsOwned := by intro user id member; cases member
  listenersOnce := sound.listenersOnce

/-! ## Rooms and listeners -/

private theorem listen_known (present : user ∈ r.listeners room) : r.listen room user = r := by
  simp [listen, present]

private theorem listen_new (absent : user ∉ r.listeners room) :
    r.listen room user = { r with rooms := r.rooms.set room (r.listeners room ++ [user]) } := by
  simp [listen, absent]

@[simp] theorem listen_dropped (r : Registry) (room user : Uuid) :
    (r.listen room user).dropped = r.dropped := by
  unfold listen
  dsimp only
  split <;> rfl

@[simp] theorem listen_users (r : Registry) (room user : Uuid) :
    (r.listen room user).users = r.users := by
  unfold listen
  dsimp only
  split <;> rfl

theorem listeners_listen (r : Registry) (room other user : Uuid) :
    (r.listen room user).listeners other =
      if other = room ∧ user ∉ r.listeners room then r.listeners room ++ [user]
      else r.listeners other := by
  by_cases present : user ∈ r.listeners room
  · simp [listen_known present, present]
  · rw [listen_new present]
    by_cases same : other = room
    · rw [if_pos ⟨same, present⟩, listeners, Table.get?_set, if_pos same]
      rfl
    · rw [if_neg fun both => same both.1, listeners, Table.get?_set, if_neg same]
      rfl

theorem mem_listeners_listen (r : Registry) (listened user room other : Uuid) :
    other ∈ (r.listen listened user).listeners room ↔
      other ∈ r.listeners room ∨ other = user ∧ room = listened := by
  rw [listeners_listen]
  split
  · rename_i new
    obtain ⟨rfl, -⟩ := new
    simp
  · rename_i known
    constructor
    · exact .inl
    · rintro (before | ⟨rfl, rfl⟩)
      · exact before
      · by_contra absent
        exact known ⟨rfl, absent⟩

theorem listeners_unlisten (once : r.rooms.keys.Nodup) (room other user : Uuid) :
    (r.unlisten room user).listeners other =
      if other = room then (r.listeners room).filter (· ≠ user) else r.listeners other := by
  by_cases last : ((r.listeners room).filter (· ≠ user)).isEmpty = true
  · by_cases same : other = room
    · have nothing := List.isEmpty_iff.mp last
      simp only [unlisten, same, if_true, nothing]
      simp [listeners, Table.get?_erase once]
    · simp only [unlisten, if_pos last, if_neg same]
      simp [listeners, Table.get?_erase once, same]
  · by_cases same : other = room
    · simp only [unlisten, if_neg last, same, if_true]
      simp [listeners, Table.get?_set]
    · simp only [unlisten, if_neg last, if_neg same]
      simp [listeners, Table.get?_set, same]

theorem mem_listeners_unlisten (once : r.rooms.keys.Nodup) (left user room other : Uuid) :
    other ∈ (r.unlisten left user).listeners room ↔
      other ∈ r.listeners room ∧ ¬(other = user ∧ room = left) := by
  rw [listeners_unlisten once]
  by_cases here : room = left
  · simp [here]
  · simp [here]

/-- A user that leaves all rooms is taken off every room's listeners, and nobody else is. -/
theorem listeners_leaveAll (once : r.rooms.keys.Nodup) (room user : Uuid) :
    (r.leaveAll user).listeners room = (r.listeners room).filter (· ≠ user) := by
  have looked : (r.leaveAll user).rooms.get? room =
      ((r.rooms.get? room).map fun users => users.filter (· ≠ user)).filter
        fun users => !users.isEmpty := by
    rw [← Table.get?_map_filter once]
    have same : (fun e : Uuid × List Uuid => decide ¬e.2.isEmpty = true) =
        fun e => !e.2.isEmpty := by
      funext e
      cases e.2.isEmpty <;> rfl
    exact congrArg (fun keep => Table.get? room (List.filter keep _)) same
  unfold listeners
  rw [looked, Table.getD_filter_nonempty]
  cases r.rooms.get? room <;> rfl

/-- The rooms of a user are those it listens to. -/
theorem mem_roomsOf (once : r.rooms.keys.Nodup) : room ∈ r.roomsOf user ↔ user ∈ r.listeners room := by
  simp only [roomsOf, List.mem_map, List.mem_filter, List.contains_iff_mem, listeners]
  constructor
  · rintro ⟨⟨_, users⟩, ⟨entry, member⟩, rfl⟩
    rw [Table.get?_of_mem once entry]
    exact member
  · intro member
    cases found : r.rooms.get? room with
    | none => simp [found] at member
    | some users =>
      exact ⟨(room, users), ⟨Table.mem_of_get? found, by simpa [found] using member⟩, rfl⟩

theorem roomsOf_nodup (once : r.rooms.keys.Nodup) (user : Uuid) : (r.roomsOf user).Nodup :=
  once.sublist (List.filter_sublist.map _)

theorem Sound.listen (sound : Sound owner r) (room user : Uuid) : Sound owner (r.listen room user) := by
  by_cases present : user ∈ r.listeners room
  · exact (listen_known present).symm ▸ sound
  · refine ⟨?_, ?_, ?_, ?_, ?_, ?_, ?_⟩
    · exact (listen_new present).symm ▸ sound.usersOnce
    · exact (listen_new present).symm ▸ Table.keys_set_nodup sound.roomsOnce
    · exact (listen_new present).symm ▸ sound.userConnected
    · intro other users found
      rw [listen_new present, Table.get?_set] at found
      split at found
      · cases found
        simp
      · exact sound.roomListened other users found
    · exact (listen_new present).symm ▸ sound.idsOnce
    · exact (listen_new present).symm ▸ sound.idsOwned
    · intro other
      rw [listeners_listen]
      split
      · exact List.nodup_append.mpr ⟨sound.listenersOnce room, List.nodup_singleton user,
          fun a member b last same => present (List.mem_singleton.mp last ▸ same ▸ member)⟩
      · exact sound.listenersOnce other

theorem Sound.unlisten (sound : Sound owner r) (room user : Uuid) :
    Sound owner (r.unlisten room user) := by
  refine ⟨sound.usersOnce, ?_, sound.userConnected, ?_, sound.idsOnce, sound.idsOwned, ?_⟩
  · simp only [Registry.unlisten]
    split
    · exact Table.keys_erase_nodup sound.roomsOnce
    · exact Table.keys_set_nodup sound.roomsOnce
  · intro other users found
    simp only [Registry.unlisten] at found
    split at found
    · rw [Table.get?_erase sound.roomsOnce] at found
      split at found
      · cases found
      · exact sound.roomListened other users found
    · rename_i some_left
      rw [Table.get?_set] at found
      split at found
      · cases found
        exact fun none_left => some_left (List.isEmpty_iff.mpr none_left)
      · exact sound.roomListened other users found
  · intro other
    rw [listeners_unlisten sound.roomsOnce]
    split
    · exact (sound.listenersOnce room).filter _
    · exact sound.listenersOnce other

theorem Sound.leaveAll (sound : Sound owner r) (user : Uuid) : Sound owner (r.leaveAll user) := by
  refine ⟨sound.usersOnce, ?_, sound.userConnected, ?_, sound.idsOnce, sound.idsOwned, ?_⟩
  · exact sound.roomsOnce.sublist (Table.keys_map_filter_sublist r.rooms
      (fun users => users.filter (· ≠ user)) (fun users => decide (¬users.isEmpty)))
  · intro room users found
    have entry := Table.mem_of_get? found
    simp only [Registry.leaveAll, List.mem_filter] at entry
    intro nothing
    simp [nothing] at entry
  · intro room
    rw [listeners_leaveAll sound.roomsOnce]
    exact (sound.listenersOnce room).filter _

/-! ## Recipients -/

/-- A text to a room goes to the connections of its listeners. -/
theorem mem_recipients :
    id ∈ r.recipients room ↔ ∃ user, user ∈ r.listeners room ∧ id ∈ r.connectionsOf user := by
  simp [recipients, List.mem_flatMap]

/-- No connection is a recipient twice: no listener stands twice, no user's connection does, and
no connection has two users. -/
theorem Sound.recipients_nodup (sound : Sound owner r) (room : Uuid) : (r.recipients room).Nodup := by
  unfold recipients
  apply List.nodup_flatMap.mpr
  refine ⟨fun user _ => sound.idsOnce user, ?_⟩
  refine (sound.listenersOnce room).imp ?_
  intro user other different id here there
  have one := sound.idsOwned user id here
  have two := sound.idsOwned other id there
  exact different (Option.some.inj (one.symm.trans two))

/-- No connection stands in the registry twice. -/
theorem Sound.allConnections_nodup (sound : Sound owner r) : r.allConnections.Nodup := by
  have entry_ids : ∀ entry ∈ r.users, r.connectionsOf entry.1 = entry.2 := by
    intro entry member
    rw [connectionsOf, Table.get?_of_mem sound.usersOnce member]
    rfl
  unfold allConnections
  apply List.nodup_flatMap.mpr
  refine ⟨fun entry member => entry_ids entry member ▸ sound.idsOnce entry.1, ?_⟩
  have once : r.users.Pairwise fun entry other => entry.1 ≠ other.1 :=
    List.pairwise_map.mp sound.usersOnce
  refine once.imp_of_mem ?_
  intro entry other member otherMember different id here there
  have one := sound.idsOwned entry.1 id (by rwa [entry_ids entry member])
  have two := sound.idsOwned other.1 id (by rwa [entry_ids other otherMember])
  exact different (Option.some.inj (one.symm.trans two))

end RoomRelay.Registry
