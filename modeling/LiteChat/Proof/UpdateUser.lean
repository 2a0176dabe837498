import LiteChat.Effect.Runs
import LiteChat.Model.Server
import LiteChat.Proof.Users

/-!
# Half of an update

`HandleUpdateUser` writes the name before it looks at the password. A refusal leaves the table alone
exactly if it does not come after a new name has been written, and then it is a refusal of the
password (`HalfDone`). The choices are those of the statements in their order: the row, the check
of the name, the name, the password.
-/

namespace LiteChat

open LiteChat.Action UserManager

variable {P : Platform} {w : World P}

/-! ## The statements -/

theorem run_getUserByUsername {β : Type} (u : Str) (k : Option (UserId × Str) → Action β)
    (cs : List Choice) : (UserDAO.getUserByUsername u >>= k).run cs w =
      (k (if (cs.headD default).dbOk then
        (w.db.byName u).map fun r => (r.userId, r.passwordHash) else none)).run cs.tail w := by
  refine (run_caught _ _ _ _ _).trans ?_
  cases (cs.headD default).dbOk <;> rfl

theorem run_checkUsernameExists {β : Type} (u : Str) (k : Bool → Action β) (cs : List Choice) :
    (UserDAO.checkUsernameExists u >>= k).run cs w =
      (k ((cs.headD default).dbOk && (w.db.byName u).isSome)).run cs.tail w := by
  refine (run_caught _ _ _ _ _).trans ?_
  cases (cs.headD default).dbOk with
  | false => rfl
  | true =>
    simp only [if_true, Database.exec, Bool.true_and, w.db.count_name_pos u, Bool.decide_eq_true]

theorem run_updateUsername {β : Type} (i : UserId) (u : Str) (k : Bool → Action β)
    (cs : List Choice) : (UserDAO.updateUsername i u >>= k).run cs w =
      match if (cs.headD default).dbOk then w.db.updateUsername i u else none with
      | some db => (k true).run cs.tail { w with db := db }
      | none => (k false).run cs.tail w := by
  refine (run_caught _ _ _ _ _).trans ?_
  cases (cs.headD default).dbOk with
  | false => rfl
  | true =>
    simp only [if_true, Database.exec]
    cases w.db.updateUsername i u <;> rfl

theorem run_updatePassword {β : Type} (i : UserId) (h : Str) (k : Bool → Action β)
    (cs : List Choice) : (UserDAO.updatePassword i h >>= k).run cs w =
      if (cs.headD default).dbOk then
        (k true).run cs.tail { w with db := w.db.updatePassword i h }
      else (k false).run cs.tail w := by
  refine (run_caught _ _ _ _ _).trans ?_
  cases (cs.headD default).dbOk <;> rfl

/-! ## The two parts -/

/-- The name is written by this statement: it is allowed, it is free or the check of it fails, and
the statement is executed. -/
def Renames (w : World P) (userId : UserId) (newUsername : Str) (check update : Choice) : Prop :=
  validateUsername newUsername = true ∧ (check.dbOk = true → w.db.byName newUsername = none) ∧
    update.dbOk = true ∧ w.db.updateUsername userId newUsername ≠ none

def nameTaken : Response := ⟨2002, bytes "新用户名已存在", none⟩

def nameInvalid : Response := ⟨2001, bytes "新用户名格式不合法", none⟩

def passwordInvalid : Response := ⟨2001, bytes "新密码格式不合法", none⟩

def databaseFailed : Response := ⟨5001, bytes "数据库操作失败", none⟩

def nothingAsked : Response := ⟨1001, bytes "未修改任何信息", none⟩

def updateAccepted : Response := ⟨0, bytes "修改成功", none⟩

theorem run_changeUsername {β : Type} (userId : UserId) {newUsername : Str}
    (hnil : newUsername ≠ []) (hvalid : validateUsername newUsername = true)
    (k : Option Response → Action β) (cs : List Choice) :
    (changeUsername userId newUsername >>= k).run cs w =
      if ((cs.getD 0 default).dbOk && (w.db.byName newUsername).isSome) = true then
        (k (some nameTaken)).run cs.tail w
      else match if (cs.getD 1 default).dbOk then w.db.updateUsername userId newUsername else none with
        | some db => (k none).run (cs.drop 2) { w with db := db }
        | none => (k (some databaseFailed)).run (cs.drop 2) w := by
  have h0 : cs.headD default = cs.getD 0 default := List.headD_eq_getD
  have h1 : cs.tail.headD default = cs.getD 1 default := by
    rw [List.headD_eq_getD, Effect.Prog.getD_tail]
  have h2 : cs.tail.tail = cs.drop 2 := by
    rcases cs with _ | ⟨_, _ | ⟨_, _⟩⟩ <;> rfl
  unfold changeUsername
  rw [if_neg hnil, if_neg (not_not.mpr hvalid), Effect.Prog.bind_eq, Effect.Prog.bind_eq,
    Effect.Prog.bind_assoc]
  refine (run_checkUsernameExists newUsername _ cs).trans ?_
  rw [h0]
  split
  · rfl
  · rw [Effect.Prog.bind_eq, Effect.Prog.bind_assoc]
    refine (run_updateUsername userId newUsername _ cs.tail).trans ?_
    rw [h1, h2]
    split
    · rfl
    · rfl

theorem run_changePassword (userId : UserId) (newPassword : Str)
    (k : Option Response → Action Response) (cs : List Choice) :
    (changePassword P userId newPassword >>= k).run cs w =
      if newPassword = [] then (k none).run cs w
      else if ¬ validatePassword newPassword then (k (some passwordInvalid)).run cs w
      else if (cs.headD default).dbOk then
        (k none).run cs.tail { w with db := w.db.updatePassword userId (P.md5 newPassword) }
      else (k (some databaseFailed)).run cs.tail w := by
  unfold changePassword
  split
  · rfl
  · split
    · rfl
    · rw [Effect.Prog.bind_eq, Effect.Prog.bind_eq, Effect.Prog.bind_assoc]
      refine (run_updatePassword userId (P.md5 newPassword) _ cs).trans ?_
      split
      · rfl
      · rfl

/-! ## All or nothing -/

/-- A request that is refused leaves the table of users as it is. -/
def AllOrNothing (w : World P) (request : Request) (cs : List Choice) : Prop :=
  ((handleUpdateUser P request).run cs w).1.code ≠ 0 →
    ((handleUpdateUser P request).run cs w).2.db.users = w.db.users

/-- The user may change the data and is given another name, and then the new password is too short,
or its statement fails. -/
def HalfDone (w : World P) (request : Request) (cs : List Choice) : Prop :=
  ∃ r, w.db.byName request.username = some r ∧ (cs.getD 0 default).dbOk = true ∧
    P.md5 request.verifyPassword = r.passwordHash ∧
    request.newUsername ≠ [] ∧ request.newUsername ≠ r.username ∧
    Renames w r.userId request.newUsername (cs.getD 1 default) (cs.getD 2 default) ∧
    request.newPassword ≠ [] ∧
    (validatePassword request.newPassword = false ∨ (cs.getD 3 default).dbOk = false)

/-- Giving a user a name changes the table, unless it is the user's name already. -/
theorem users_updateUsername_iff {db db' : Database P} {u newUsername : Str} {r : UserRow}
    (hr : db.byName u = some r) (hi : db.updateUsername r.userId newUsername = some db') :
    db'.users = db.users ↔ newUsername = r.username := by
  rw [(Database.users_of_updateUsername hi).2]
  constructor
  · intro h
    have hmem := (Database.byName_iff.mp hr).1
    have heq : Database.renameRow r.userId newUsername r = r :=
      List.map_inj_left.mp (h.trans (List.map_id _).symm) r hmem
    unfold Database.renameRow at heq
    rw [if_pos rfl] at heq
    exact congrArg UserRow.username heq
  · rintro rfl
    refine (List.map_inj_left.mpr fun s hs => ?_).trans (List.map_id _)
    unfold Database.renameRow
    split
    · next hid =>
      rw [Database.eq_of_id hs (Database.byName_iff.mp hr).1 hid]
      rfl
    · rfl

/-- The end of the handler. -/
def passwordPart (P : Platform) (userId : UserId) (request : Request) : Action Response := do
  match ← changePassword P userId request.newPassword with
  | some response => return response
  | none =>
    if request.newUsername = [] ∧ request.newPassword = [] then return nothingAsked
    return updateAccepted

theorem run_passwordPart (userId : UserId) (request : Request) (cs : List Choice) :
    (passwordPart P userId request).run cs w =
      if request.newPassword = [] then
        (if request.newUsername = [] then nothingAsked else updateAccepted, w)
      else if ¬ validatePassword request.newPassword then (passwordInvalid, w)
      else if (cs.headD default).dbOk then
        (updateAccepted, { w with db := w.db.updatePassword userId (P.md5 request.newPassword) })
      else (databaseFailed, w) := by
  refine (run_changePassword userId request.newPassword _ cs).trans ?_
  by_cases hnil : request.newPassword = []
  · rw [if_pos hnil, if_pos hnil]
    by_cases hname : request.newUsername = []
    · rw [if_pos hname, if_pos ⟨hname, hnil⟩]
      rfl
    · rw [if_neg hname, if_neg fun h => hname h.1]
      rfl
  · have hnot : ¬ (request.newUsername = [] ∧ request.newPassword = []) := fun h => hnil h.2
    simp only [if_neg hnil, if_neg hnot]
    rfl

/-- A refusal at the end of the handler writes nothing. -/
theorem passwordPart_refused {userId : UserId} {request : Request} {cs : List Choice}
    (h : ((passwordPart P userId request).run cs w).1.code ≠ 0) :
    ((passwordPart P userId request).run cs w).2 = w := by
  rw [run_passwordPart] at h ⊢
  split
  · rfl
  · split
    · rfl
    · split
      · next hnil hvalid hok =>
        rw [if_neg hnil, if_neg hvalid, if_pos hok] at h
        exact absurd rfl h
      · rfl

/-- After a new name, it is one of the password. -/
theorem passwordPart_refused_iff {userId : UserId} {request : Request} {cs : List Choice}
    (hasked : request.newUsername ≠ []) :
    ((passwordPart P userId request).run cs w).1.code ≠ 0 ↔ request.newPassword ≠ [] ∧
      (validatePassword request.newPassword = false ∨ (cs.headD default).dbOk = false) := by
  rw [run_passwordPart, if_neg hasked]
  by_cases hnil : request.newPassword = []
  · rw [if_pos hnil]
    exact iff_of_false (fun h => h rfl) fun h => h.1 hnil
  rw [if_neg hnil]
  cases hvalid : validatePassword request.newPassword with
  | false =>
    have hcode : passwordInvalid.code ≠ 0 := by decide
    exact iff_of_true hcode ⟨hnil, .inl rfl⟩
  | true =>
    rw [if_neg (by decide)]
    cases hok : (cs.headD default).dbOk with
    | false =>
      have hcode : databaseFailed.code ≠ 0 := by decide
      exact iff_of_true hcode ⟨hnil, .inr rfl⟩
    | true =>
      refine iff_of_false (fun h => h rfl) ?_
      rintro ⟨-, h | h⟩
      · exact absurd h (by decide)
      · exact absurd h (by decide)

/-- Who the request is let in as. -/
def LetIn (w : World P) (request : Request) (check : Choice) (r : UserRow) : Prop :=
  w.db.byName request.username = some r ∧ check.dbOk = true ∧
    P.md5 request.verifyPassword = r.passwordHash

/-- The handler, for a request that is let in. -/
theorem run_handleUpdateUser {request : Request} {cs : List Choice} {r : UserRow}
    (h : LetIn w request (cs.getD 0 default) r) :
    (handleUpdateUser P request).run cs w =
      (changeUsername r.userId request.newUsername >>= fun refused => match refused with
        | some response => return response
        | none => passwordPart P r.userId request).run cs.tail w := by
  obtain ⟨hr, hok, hhash⟩ := h
  have h0 : cs.headD default = cs.getD 0 default := List.headD_eq_getD
  refine (run_getUserByUsername request.username _ cs).trans ?_
  rw [h0, hok, hr, if_pos rfl, Option.map_some]
  dsimp only
  rw [if_neg (not_not.mpr hhash)]
  rfl

/-- Otherwise it writes nothing. -/
theorem run_handleUpdateUser_of_not {request : Request} {cs : List Choice}
    (h : ∀ r, ¬ LetIn w request (cs.getD 0 default) r) :
    ((handleUpdateUser P request).run cs w).2 = w := by
  have h0 : cs.headD default = cs.getD 0 default := List.headD_eq_getD
  refine (congrArg Prod.snd (run_getUserByUsername request.username _ cs)).trans ?_
  rw [h0]
  cases hok : (cs.getD 0 default).dbOk with
  | false => rfl
  | true =>
    cases hr : w.db.byName request.username with
    | none => rfl
    | some r =>
      rw [if_pos rfl, Option.map_some]
      dsimp only
      rw [if_pos fun hhash => h r ⟨hr, hok, hhash⟩]
      rfl

/-- The name is not written: a refusal leaves everything as it is, since what comes after the name is
the password, and that is written last. -/
theorem run_changeUsername_of_not {request : Request} {userId : UserId} {cs : List Choice}
    (h : ¬ (request.newUsername ≠ [] ∧
      Renames w userId request.newUsername (cs.getD 0 default) (cs.getD 1 default))) :
    let s := (changeUsername userId request.newUsername >>= fun refused => match refused with
      | some response => return response
      | none => passwordPart P userId request).run cs w
    s.1.code ≠ 0 → s.2 = w := by
  intro s hcode
  by_cases hnil : request.newUsername = []
  · have hs : s = (passwordPart P userId request).run cs w := by
      unfold s changeUsername
      rw [if_pos hnil]
      rfl
    rw [hs] at hcode ⊢
    exact passwordPart_refused hcode
  by_cases hvalid : validateUsername request.newUsername = true
  · have hs : s = _ := run_changeUsername userId hnil hvalid _ cs
    rw [hs]
    split
    · rfl
    · next htaken =>
      -- the count found nobody, or failed; in either case the update is tried
      have hfree : (cs.getD 0 default).dbOk = true → w.db.byName request.newUsername = none := by
        intro hok
        rw [hok, Bool.true_and] at htaken
        exact Option.not_isSome_iff_eq_none.mp htaken
      split
      · next db hupdate =>
        rw [Option.ite_none_right_eq_some] at hupdate
        refine absurd ⟨hnil, hvalid, hfree, hupdate.1, ?_⟩ h
        rw [hupdate.2]
        exact Option.some_ne_none db
      · rfl
  · have hs : s = (nameInvalid, w) := by
      unfold s changeUsername
      rw [if_neg hnil, if_pos hvalid]
      rfl
    rw [hs]

/-- The name is written: the handler goes on with the password, in the table with the new name. -/
theorem run_changeUsername_of_renames {request : Request} {userId : UserId} {cs : List Choice}
    (hnil : request.newUsername ≠ [])
    (h : Renames w userId request.newUsername (cs.getD 0 default) (cs.getD 1 default)) :
    ∃ db, w.db.updateUsername userId request.newUsername = some db ∧
      (changeUsername userId request.newUsername >>= fun refused => match refused with
        | some response => return response
        | none => passwordPart P userId request).run cs w =
          (passwordPart P userId request).run (cs.drop 2) { w with db := db } := by
  obtain ⟨hvalid, hfree, hok, hupdate⟩ := h
  obtain ⟨db, hdb⟩ := Option.ne_none_iff_exists'.mp hupdate
  refine ⟨db, hdb, (run_changeUsername userId hnil hvalid _ cs).trans ?_⟩
  rw [if_neg, hok, if_pos rfl, hdb]
  intro htaken
  rw [Bool.and_eq_true] at htaken
  rw [hfree htaken.1] at htaken
  exact absurd htaken.2 (by decide)

/-- **Exactly the half-done updates break the promise.** An update that is refused leaves the users as
they are, unless it has written a new name, for an account that it was let into, and then refuses the
password that comes with it. -/
theorem allOrNothing_iff (w : World P) (request : Request) (cs : List Choice) :
    AllOrNothing w request cs ↔ ¬ HalfDone w request cs := by
  have hget : ∀ i, cs.tail.getD i default = cs.getD (i + 1) default :=
    fun i => Effect.Prog.getD_tail cs i default
  have hdrop : (cs.tail.drop 2).headD default = cs.getD 3 default := by
    rw [List.headD_eq_getD, ← List.drop_one, List.drop_drop, List.getD_eq_getElem?_getD,
      List.getElem?_drop, ← List.getD_eq_getElem?_getD]
  unfold AllOrNothing HalfDone
  -- no account, or the wrong password: nothing is written
  by_cases hlet : ∃ r, LetIn w request (cs.getD 0 default) r
  case neg =>
    refine iff_of_true (fun _ => ?_) fun ⟨r, hr, hok, hhash, _⟩ => hlet ⟨r, hr, hok, hhash⟩
    rw [run_handleUpdateUser_of_not fun r hr => hlet ⟨r, hr⟩]
  obtain ⟨r, hr⟩ := hlet
  rw [run_handleUpdateUser hr]
  -- no name is written, and the password is the last statement
  by_cases hrenames : request.newUsername ≠ [] ∧
    Renames w r.userId request.newUsername (cs.tail.getD 0 default) (cs.tail.getD 1 default)
  case neg =>
    refine iff_of_true (fun hcode => ?_) ?_
    · rw [run_changeUsername_of_not hrenames hcode]
    · rintro ⟨r', hr', -, -, hasked, -, h, -⟩
      rw [hr.1] at hr'
      cases hr'
      exact hrenames ⟨hasked, by rwa [hget 0, hget 1]⟩
  obtain ⟨hasked, hname⟩ := hrenames
  obtain ⟨db, hdb, hrun⟩ := run_changeUsername_of_renames hasked hname
  rw [hget 0, hget 1] at hname
  rw [hrun, passwordPart_refused_iff hasked, hdrop]
  constructor
  · rintro h ⟨r', hr', -, -, -, hne, -, hpassword⟩
    rw [hr.1] at hr'
    cases hr'
    have hrefused : ((passwordPart P r.userId request).run (cs.tail.drop 2) { w with db := db }).1.code
        ≠ 0 := (passwordPart_refused_iff hasked).mpr (hdrop.symm ▸ hpassword)
    have husers := h hpassword
    rw [passwordPart_refused hrefused] at husers
    exact hne ((users_updateUsername_iff hr.1 hdb).mp husers)
  · intro h hpassword
    have hrefused : ((passwordPart P r.userId request).run (cs.tail.drop 2) { w with db := db }).1.code
        ≠ 0 := (passwordPart_refused_iff hasked).mpr (hdrop.symm ▸ hpassword)
    rw [passwordPart_refused hrefused]
    refine (users_updateUsername_iff hr.1 hdb).mpr ?_
    by_contra hne
    exact h ⟨r, hr.1, hr.2.1, hr.2.2, hasked, hne, hname, hpassword⟩

/-- A user asks for another name, and for a password that is too short. -/
def renameWithShortPassword : Request :=
  { type := bytes "UPDATE_USER"
    username := bytes "alice"
    password := []
    newUsername := bytes "carol"
    newPassword := bytes "123"
    verifyPassword := bytes "secret"
    targetUsername := []
    content := []
    count := 0
    clientSocket := 1 }

def aliceOnly : World asciiCi :=
  Effect.runAll Server.next (World.start Database.empty)
    [(.accept 1, []),
     (.request 1 (flatBody [("type", "REGISTER"), ("username", "alice"), ("password", "secret")]), [])]

theorem not_allOrNothing : ¬ AllOrNothing aliceOnly renameWithShortPassword [] := by
  intro h
  have hcode : ((handleUpdateUser asciiCi renameWithShortPassword).run [] aliceOnly).1.code = 2001 := by
    decide
  have husers := congrArg (List.map UserRow.username) (h (by rw [hcode]; decide))
  exact absurd husers (by decide)

end LiteChat
