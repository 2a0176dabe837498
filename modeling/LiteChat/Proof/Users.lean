import LiteChat.Model.Database

/-!
# Users by name and by number

What each statement does to the two lookups. A name selects at most one row, because no two rows
share a weight; and a statement that leaves names and numbers alone leaves alone whom they select.
-/

namespace LiteChat.Database

open Effect

variable {P : Platform} {db db' : Database P} {u v : Str} {i : UserId} {r s : UserRow}

theorem byName_iff : db.byName u = some r ↔ r ∈ db.users ∧ P.weight r.username = P.weight u :=
  find?_key_iff (fun s : UserRow => P.weight s.username) db.users_name

theorem byName_eq_none : db.byName u = none ↔ ∀ r ∈ db.users, P.weight r.username ≠ P.weight u :=
  find?_key_eq_none (fun s : UserRow => P.weight s.username)

theorem byId_iff : db.byId i = some r ↔ r ∈ db.users ∧ r.userId = i :=
  find?_key_iff (fun s : UserRow => s.userId) db.users_id

theorem idOf_iff : db.idOf u = some i ↔
    ∃ r ∈ db.users, P.weight r.username = P.weight u ∧ r.userId = i := by
  unfold idOf
  simp only [Option.map_eq_some_iff, byName_iff, and_assoc]

theorem idOf_eq_none : db.idOf u = none ↔ db.byName u = none := Option.map_eq_none_iff

/-- Two spellings of one weight select one row. -/
theorem byName_congr (h : P.weight u = P.weight v) : db.byName u = db.byName v := by
  unfold byName
  rw [h]

/-- A row is selected by its own name. -/
theorem byName_self (h : r ∈ db.users) : db.byName r.username = some r := byName_iff.mpr ⟨h, rfl⟩

theorem eq_of_weight (hr : r ∈ db.users) (hs : s ∈ db.users)
    (h : P.weight r.username = P.weight s.username) : r = s :=
  eq_of_key_eq (fun s : UserRow => P.weight s.username) db.users_name hr hs h

theorem eq_of_id (hr : r ∈ db.users) (hs : s ∈ db.users) (h : r.userId = s.userId) : r = s :=
  eq_of_key_eq (fun s : UserRow => s.userId) db.users_id hr hs h

theorem byId_of_byName (h : db.byName u = some r) : db.byId r.userId = some r :=
  byId_iff.mpr ⟨(byName_iff.mp h).1, rfl⟩

theorem hasUser_of_idOf (h : db.idOf u = some i) : db.HasUser i := by
  obtain ⟨r, hr, rfl⟩ := Option.map_eq_some_iff.mp h
  exact List.mem_map_of_mem (byName_iff.mp hr).1

/-! ## Statements that leave names and numbers alone -/

theorem byName_of_map {f : UserRow → UserRow} (h : db'.users = db.users.map f)
    (hname : ∀ r, (f r).username = r.username) (u : Str) : db'.byName u = (db.byName u).map f := by
  unfold byName
  rw [h, List.find?_map]
  congr 2
  funext r
  simp only [Function.comp_apply, hname]

section mapUsers

variable {f : UserRow → UserRow} {hid : ∀ u, (f u).userId = u.userId}
  {hname : ∀ u, (f u).username = u.username}

theorem byName_mapUsers (u : Str) : (db.mapUsers f hid hname).byName u = (db.byName u).map f :=
  byName_of_map rfl hname u

theorem byId_mapUsers (i : UserId) : (db.mapUsers f hid hname).byId i = (db.byId i).map f := by
  unfold byId mapUsers
  rw [List.find?_map]
  congr 2
  funext r
  simp only [Function.comp_apply, hid]

theorem idOf_mapUsers (u : Str) : (db.mapUsers f hid hname).idOf u = db.idOf u := by
  unfold idOf
  rw [byName_mapUsers, Option.map_map]
  congr 1
  funext r
  exact hid r

end mapUsers

theorem flag_setOnlineWhere {q : UserRow → Bool} {isOnline : Bool} (u : Str) :
    ((db.setOnlineWhere q isOnline).byName u).map (·.isOnline) =
      (db.byName u).map fun r => if q r then isOnline else r.isOnline := by
  unfold setOnlineWhere
  rw [byName_mapUsers, Option.map_map]
  congr 1
  funext r
  rw [Function.comp_apply]
  split <;> rfl

theorem flag_updateLastLogin (i : UserId) (now : Nat) (u : Str) :
    ((db.updateLastLogin i now).byName u).map (·.isOnline) = (db.byName u).map (·.isOnline) := by
  unfold updateLastLogin
  rw [byName_mapUsers, Option.map_map]
  congr 1
  funext r
  rw [Function.comp_apply]
  split <;> rfl

/-- A password that is set is the one that is stored, and the name stays. -/
theorem byId_updatePassword (i : UserId) (h : Str) : (db.updatePassword i h).byId i =
    (db.byId i).map fun r => { r with passwordHash := h } := by
  unfold updatePassword
  rw [byId_mapUsers]
  cases hr : db.byId i with
  | none => rfl
  | some r => simp only [Option.map_some, (byId_iff.mp hr).2, if_true]

/-! ## Statements that do not -/

theorem users_of_insertUser {h : Str} (hi : db.insertUser u h = some db') :
    (∀ r ∈ db.users, P.weight r.username ≠ P.weight u) ∧
      db'.users = db.users ++ [⟨db.nextUserId, u, h, false, none⟩] := by
  unfold insertUser at hi
  split at hi
  · rename_i hne
    rw [← Option.some.inj hi]
    exact ⟨hne, rfl⟩
  · exact absurd hi (by simp)

/-- Registration does not change whom a name selects, if it selects anybody. -/
theorem byName_insertUser {h : Str} (hi : db.insertUser u h = some db')
    (hv : db.byName v = some r) : db'.byName v = some r := by
  obtain ⟨_, hu⟩ := users_of_insertUser hi
  unfold byName at hv ⊢
  rw [hu, List.find?_append, hv]
  rfl

theorem idOf_insertUser {h : Str} (hi : db.insertUser u h = some db') (hv : db.idOf v = some i) :
    db'.idOf v = some i := by
  obtain ⟨r, hr, rfl⟩ := Option.map_eq_some_iff.mp hv
  unfold idOf
  rw [byName_insertUser hi hr]
  rfl

theorem users_of_updateUsername (hi : db.updateUsername i u = some db') :
    (∀ r ∈ db.users, r.userId ≠ i → P.weight r.username ≠ P.weight u) ∧
      db'.users = db.users.map (renameRow i u) := by
  unfold updateUsername at hi
  split at hi
  · rename_i hne
    rw [← Option.some.inj hi]
    exact ⟨hne, rfl⟩
  · exact absurd hi (by simp)

theorem byId_updateUsername (hi : db.updateUsername i u = some db') :
    db'.byId i = (db.byId i).map fun r => { r with username := u } := by
  obtain ⟨_, hu⟩ := users_of_updateUsername hi
  have hfind : db'.byId i = (db.byId i).map (renameRow i u) := by
    unfold byId
    rw [hu, List.find?_map]
    congr 2
    funext r
    simp only [Function.comp_apply, renameRow_userId]
  rw [hfind]
  cases hr : db.byId i with
  | none => rfl
  | some r => simp only [Option.map_some, renameRow, (byId_iff.mp hr).2, if_true]

/-- Renaming one row does not change which row another row's name selects. -/
theorem byName_updateUsername (hi : db.updateUsername i u = some db') (hr : db.byName v = some r)
    (hri : r.userId ≠ i) : db'.byName v = some r := by
  obtain ⟨_, hu⟩ := users_of_updateUsername hi
  obtain ⟨hmem, hw⟩ := byName_iff.mp hr
  refine byName_iff.mpr ⟨?_, hw⟩
  rw [hu]
  exact List.mem_map.mpr ⟨r, hmem, if_neg hri⟩

/-- Nor does it change anything for a name with the weight of the new one. -/
theorem idOf_updateUsername_self (hi : db.updateUsername i u = some db') (hr : db.byName v = some r)
    (hri : r.userId = i) (hw : P.weight u = P.weight v) : db'.idOf v = some i := by
  obtain ⟨_, hu⟩ := users_of_updateUsername hi
  refine idOf_iff.mpr ⟨renameRow i u r, ?_, ?_, ?_⟩
  · rw [hu]
    exact List.mem_map_of_mem (byName_iff.mp hr).1
  · simp only [renameRow, if_pos hri, hw]
  · rw [renameRow_userId, hri]

/-! ## The other tables -/

/-- A statement under constraints that is executed leaves what it gives. -/
theorem of_tried {o : Option (Database P)}
    (h : (o.map (((), ·) : Database P → Unit × Database P)).map Prod.snd = some db') :
    o = some db' := by
  cases o with
  | none => cases h
  | some db₁ => exact congrArg some (Option.some.inj h)

theorem tables_of_insertUser {h : Str} (hi : db.insertUser u h = some db') :
    db'.friends = db.friends ∧ db'.messages = db.messages ∧ db'.nextMessageId = db.nextMessageId := by
  unfold insertUser at hi
  split at hi
  · rw [← Option.some.inj hi]
    exact ⟨rfl, rfl, rfl⟩
  · cases hi

theorem tables_of_updateUsername (hi : db.updateUsername i u = some db') :
    db'.friends = db.friends ∧ db'.messages = db.messages ∧ db'.nextMessageId = db.nextMessageId := by
  unfold updateUsername at hi
  split at hi
  · rw [← Option.some.inj hi]
    exact ⟨rfl, rfl, rfl⟩
  · cases hi

theorem tables_of_insertFriend {j : UserId} (hi : db.insertFriend i j = some db') :
    db'.friends = db.friends ++ [⟨i, j⟩] ∧ db'.users = db.users ∧ db'.messages = db.messages ∧
      db'.nextMessageId = db.nextMessageId := by
  unfold insertFriend at hi
  split at hi
  · rw [← Option.some.inj hi]
    exact ⟨rfl, rfl, rfl, rfl⟩
  · cases hi

theorem tables_of_insertMessage {now : Nat} {j : UserId} {content : Str}
    (hi : db.insertMessage now i j content = some db') :
    db'.messages = db.messages ++ [⟨db.nextMessageId, i, j, content, now, false⟩] ∧
      db'.users = db.users ∧ db'.friends = db.friends ∧
      db'.nextMessageId = db.nextMessageId + 1 := by
  unfold insertMessage at hi
  split at hi
  · rw [← Option.some.inj hi]
    exact ⟨rfl, rfl, rfl, rfl⟩
  · cases hi

end LiteChat.Database
