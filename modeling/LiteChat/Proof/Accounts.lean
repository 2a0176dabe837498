import LiteChat.Proof.Clients
import LiteChat.Proof.Names

/-!
# Accounts change hands only with their passwords

A handler compares digests, and then writes: another thread may have changed the account, its digest or
its name in between. What is left of the check in any interleaving is what the thread was told: every
change of a name or a digest, and every name a session is given, comes after the thread's own query of
the account was answered with the digest of a password that the thread's client has sent
(`serve_authorized`).

That is enough. The digests an account has had are those it was given by somebody who had been told an
older one and had sent the password of it; so the first of them stays until somebody sends the password
it was made of (`accountsKept_run`), and as long as nobody does, no session carries the name of the
account (`noImpersonation_run`).
-/

namespace LiteChat

open LiteChat.Action Effect Server UserManager

variable {P : Platform} {α : Type}

/-! ## What a thread may do by what it was told -/

/-- The thread has asked for the account of that name, and was given its number and its digest. -/
def Told (own : List (Call Op Op.Res)) (u : Str) (i : UserId) (h : Str) : Prop :=
  (⟨.sql (.selectUser u), (Except.ok (some (i, h)) : Except SQLException (Option (UserId × Str)))⟩ :
    Call Op Op.Res) ∈ own

/-- A thread, whose client sends what `sends` says, changes an account, or gives a session its name,
only after the client has sent the password. -/
def Authorized (P : Platform) (sends : String → String → Str → Prop)
    (own : List (Call Op Op.Res)) : Op → Prop
  | .sql (.insertUser u h) => validateUsername u = true ∧
      ∃ password, sends "REGISTER" "password" password ∧ validatePassword password = true ∧
        h = P.md5 password
  | .sql (.updateUsername i u) => validateUsername u = true ∧
      ∃ v password, Told own v i (P.md5 password) ∧ sends "UPDATE_USER" "verifyPassword" password
  | .sql (.updatePassword i h) =>
      (∃ v password, Told own v i (P.md5 password) ∧ sends "UPDATE_USER" "verifyPassword" password) ∧
      ∃ password, sends "UPDATE_USER" "newPassword" password ∧ validatePassword password = true ∧
        h = P.md5 password
  | .setUsername _ u => u = [] ∨
      ∃ i password, Told own u i (P.md5 password) ∧ sends "LOGIN" "password" password
  | _ => True

/-- The operations that need no password. -/
def Op.Free : Op → Prop
  | .sql (.insertUser _ _) | .sql (.updateUsername _ _) | .sql (.updatePassword _ _) => False
  | .setUsername _ u => u = []
  | _ => True

theorem Op.Reads.free {o : Op} (ho : o.Reads) : o.Free := by
  cases o with
  | sql st =>
    cases st with
    | insertUser | updateUsername | updatePassword => cases ho
    | _ => trivial
  | setUsername => exact absurd ho id
  | _ => trivial

theorem Op.WritesOnly.free {S : Stmt → Prop} (hS : ∀ st, S st → (Op.sql st).Free) {o : Op}
    (ho : o.WritesOnly S) : o.Free := by
  rcases ho with ho | ⟨st, rfl, hst⟩
  · exact ho.free
  · exact hS st hst

theorem Op.Marks.free {o : Op} (ho : o.Marks) : o.Free := by
  refine Op.WritesOnly.free ?_ ho
  rintro st ⟨i, j, rfl⟩
  trivial

theorem Op.Exits.free {c : Socket} {o : Op} (ho : o.Exits c) : o.Free := by
  cases ho with
  | reads ho => exact ho.free
  | _ => trivial

theorem Op.Accepts.free {o : Op} (ho : o.Accepts) : o.Free := by
  cases ho <;> trivial

theorem Op.Dispatches.free {c : Socket} {o : Op} (ho : o.Dispatches c) : o.Free := by
  cases ho <;> trivial

section Threads

variable {sends : String → String → Str → Prop} {own : List (Call Op Op.Res)} {request : Request}

theorem Op.Free.authorized {o : Op} (ho : o.Free) : Authorized P sends own o := by
  cases o with
  | sql st =>
    cases st with
    | insertUser | updateUsername | updatePassword => exact absurd ho id
    | _ => trivial
  | setUsername p u => exact .inl ho
  | _ => trivial

theorem obeys_free {p : Action α} (hp : p.Uses Op.Free) : p.Obeys (Authorized P sends) own :=
  hp.obeys fun _ _ ho _ => ho.authorized

theorem handleRegister_authorized (hsent : sends "REGISTER" "password" request.password) :
    (handleRegister P request).Obeys (Authorized P sends) own := by
  unfold handleRegister
  split
  · exact Prog.obeys_pure _
  rename_i hname
  split
  · exact Prog.obeys_pure _
  rename_i hpassword
  refine .seq (obeys_free (uses_caught trivial _ _)) fun taken own' _ => ?_
  split
  · exact Prog.obeys_pure _
  refine obeys_caught ?_ (fun _ => ?_) fun _ => ?_
  · exact ⟨not_not.mp hname, _, hsent, not_not.mp hpassword, rfl⟩
  · split <;> exact Prog.obeys_pure _
  · split <;> exact Prog.obeys_pure _

theorem changeUsername_authorized {v password newUsername : Str} {i : UserId}
    (htold : Told own v i (P.md5 password)) (hsent : sends "UPDATE_USER" "verifyPassword" password) :
    (changeUsername i newUsername).Obeys (Authorized P sends) own := by
  unfold changeUsername
  split
  · exact Prog.obeys_pure _
  split
  · exact Prog.obeys_pure _
  rename_i hname
  refine .seq (obeys_free (uses_caught trivial _ _)) fun taken own' hown => ?_
  split
  · exact Prog.obeys_pure _
  refine obeys_caught ?_ (fun _ => ?_) fun _ => ?_
  · exact ⟨not_not.mp hname, v, password, hown.subset htold, hsent⟩
  · split <;> exact Prog.obeys_pure _
  · split <;> exact Prog.obeys_pure _

theorem changePassword_authorized {v password newPassword : Str} {i : UserId}
    (htold : Told own v i (P.md5 password)) (hsent : sends "UPDATE_USER" "verifyPassword" password)
    (hnew : sends "UPDATE_USER" "newPassword" newPassword) :
    (changePassword P i newPassword).Obeys (Authorized P sends) own := by
  unfold changePassword
  split
  · exact Prog.obeys_pure _
  split
  · exact Prog.obeys_pure _
  rename_i hpassword
  refine obeys_caught ?_ (fun _ => ?_) fun _ => ?_
  · exact ⟨⟨v, password, htold, hsent⟩, newPassword, hnew, not_not.mp hpassword, rfl⟩
  · split <;> exact Prog.obeys_pure _
  · split <;> exact Prog.obeys_pure _

/-- `HandleUpdateUser` writes to the account of which it was told the digest, and only after the digest
of `verifyPassword` was found equal to it. -/
theorem handleUpdateUser_authorized
    (hsent : sends "UPDATE_USER" "verifyPassword" request.verifyPassword)
    (hnew : sends "UPDATE_USER" "newPassword" request.newPassword) :
    (handleUpdateUser P request).Obeys (Authorized P sends) own := by
  refine obeys_caught trivial (fun r => ?_) fun _ => Prog.obeys_pure _
  cases r with
  | none => exact Prog.obeys_pure _
  | some r =>
    obtain ⟨i, h⟩ := r
    dsimp only
    split
    · exact Prog.obeys_pure _
    rename_i hdigest
    have hdigest : P.md5 request.verifyPassword = h := not_not.mp hdigest
    subst hdigest
    have htold : ∀ {own' : List (Call Op Op.Res)}, own ++ [⟨.sql (.selectUser request.username),
        (Except.ok (some (i, P.md5 request.verifyPassword)) :
          Except SQLException (Option (UserId × Str)))⟩] <+: own' →
        Told own' request.username i (P.md5 request.verifyPassword) :=
      fun hown => hown.subset (List.mem_append_right _ (List.mem_singleton_self _))
    refine .seq (changeUsername_authorized (htold List.prefix_rfl) hsent) fun response own₁ h₁ => ?_
    cases response with
    | some response => exact Prog.obeys_pure _
    | none =>
      refine .seq (changePassword_authorized (htold h₁) hsent hnew) fun response own₂ _ => ?_
      cases response with
      | some response => exact Prog.obeys_pure _
      | none =>
        dsimp only
        split <;> exact Prog.obeys_pure _

theorem kickOld_free (u : Str) : (kickOld u).Uses Op.Free := by
  refine .bind (uses_op trivial) fun q => ?_
  cases q with
  | none => trivial
  | some q =>
    exact .bind (uses_op trivial) fun c => .bind (uses_op trivial) fun _ => .bind (uses_op rfl)
      fun _ => uses_op trivial

theorem leave_free (u : Str) (i : UserId) : (leave u i).Uses Op.Free := by
  refine .bind (uses_caught trivial _ _) fun isOnline => uses_ite ?_ trivial
  exact .bind (uses_caught trivial _ _) fun _ => kickOld_free u

theorem enter_authorized {c : Socket} {u password : Str} {i : UserId}
    (htold : Told own u i (P.md5 password)) (hsent : sends "LOGIN" "password" password) :
    (enter c u i).Obeys (Authorized P sends) own := by
  refine .seq (obeys_free (uses_caught trivial _ _)) fun _ own₁ h₁ => ?_
  refine .seq (obeys_free (uses_caught trivial _ _)) fun _ own₂ h₂ => .call trivial fun session => ?_
  cases session with
  | none => exact Prog.obeys_pure _
  | some session =>
    refine .call (.inr ⟨i, password, ?_, hsent⟩) fun _ => .call trivial fun _ => Prog.obeys_op trivial
    exact List.mem_append_left _ ((h₁.trans h₂).subset htold)

theorem handleLogin_authorized (hsent : sends "LOGIN" "password" request.password) :
    (handleLogin P request).Obeys (Authorized P sends) own := by
  unfold handleLogin
  split
  · exact Prog.obeys_pure _
  refine obeys_caught trivial (fun r => ?_) fun _ => Prog.obeys_pure _
  cases r with
  | none => exact Prog.obeys_pure _
  | some r =>
    obtain ⟨i, h⟩ := r
    dsimp only
    split
    · exact Prog.obeys_pure _
    rename_i hdigest
    have hdigest : P.md5 request.password = h := not_not.mp hdigest
    subst hdigest
    refine .seq (obeys_free (leave_free _ _)) fun _ own₁ h₁ => ?_
    refine .seq (enter_authorized (h₁.subset ?_) hsent) fun _ own₂ _ => ?_
    · exact List.mem_append_right _ (List.mem_singleton_self _)
    · exact .seq (obeys_free ((notify_reads _ _).mono fun _ => Op.Reads.free)) fun _ _ _ =>
        Prog.obeys_pure _

theorem serveLogin_authorized (hsent : sends "LOGIN" "password" request.password) :
    (serveLogin P request).Obeys (Authorized P sends) own := by
  refine .seq (handleLogin_authorized hsent) fun response own₁ _ => ?_
  split
  · refine .seq (obeys_free ?_) fun _ _ _ => .seq (obeys_free ?_) fun _ _ _ => Prog.obeys_pure _
    · refine .bind (uses_caught trivial _ _) fun r => ?_
      cases r with
      | none => trivial
      | some i =>
        refine .bind (uses_caught trivial _ _) fun r => ?_
        cases r with
        | none => trivial
        | some friends => exact uses_op trivial
    · exact (pushOfflineMessages_marks _).mono fun _ => Op.Marks.free
  · exact Prog.obeys_pure _

/-- The other requests write neither accounts nor sessions. -/
theorem serve_free (hregister : request.type ≠ bytes "REGISTER")
    (hlogin : request.type ≠ bytes "LOGIN") (hupdate : request.type ≠ bytes "UPDATE_USER") :
    (serve P request).Uses Op.Free := by
  have reads : ∀ {p : Action Response}, p.Uses Op.Reads → p.Uses Op.Free :=
    fun hp => hp.mono fun _ => Op.Reads.free
  have writes : ∀ {S : Stmt → Prop} {p : Action Response}, (∀ st, S st → (Op.sql st).Free) →
      p.Uses (Op.WritesOnly S) → p.Uses Op.Free :=
    fun hS hp => hp.mono fun _ => Op.WritesOnly.free hS
  unfold serve
  rw [if_neg hregister, if_neg hlogin, if_neg hupdate]
  refine uses_ite (reads (handleQueryStatus_reads request)) ?_
  refine uses_ite (writes ?_ (handleAddFriend_writes request)) ?_
  · rintro st ⟨i, j, rfl⟩
    trivial
  refine uses_ite (writes ?_ (handleDeleteFriend_writes request)) ?_
  · rintro st ⟨i, j, rfl | rfl⟩ <;> trivial
  refine uses_ite (reads (handleFriendList_reads request)) ?_
  refine uses_ite (reads (queryTarget_reads request _)) ?_
  refine uses_ite (reads (queryTarget_reads request _)) ?_
  refine uses_ite (writes ?_ (handleSendMessage_writes request)) ?_
  · rintro st ⟨i, j, ⟨content, rfl⟩ | rfl⟩ <;> trivial
  refine uses_ite (reads (handleHistoryMessages_reads request)) ?_
  exact uses_ite trivial trivial

/-- **A request needs its client's passwords.** -/
theorem serve_authorized {received : List (Option Json)} {c : Socket} {root : Json}
    (hmem : some root ∈ received) (hread : ReadFrom c own root request) :
    (serve P request).Obeys (Authorized P (Submits received)) own := by
  by_cases hregister : request.type = bytes "REGISTER"
  · unfold serve
    rw [if_pos hregister]
    exact handleRegister_authorized (hread.submits hmem hregister).1
  by_cases hlogin : request.type = bytes "LOGIN"
  · rw [serve_login hlogin]
    exact serveLogin_authorized (hread.submits hmem hlogin).1
  by_cases hupdate : request.type = bytes "UPDATE_USER"
  · unfold serve
    rw [if_neg hregister, if_neg hlogin, if_pos hupdate]
    obtain ⟨_, hnew, hverify, _⟩ := hread.submits hmem hupdate
    exact handleUpdateUser_authorized hverify hnew
  · exact obeys_free (serve_free hregister hlogin hupdate)

end Threads

/-! ## The accounts there have been -/

/-- What a call registers, if it does. -/
def registration : Call Op Op.Res → Option (Str × Str)
  | ⟨.sql (.insertUser u h), (r : Except SQLException Unit)⟩ => r.toOption.map fun _ => (u, h)
  | _ => none

namespace Database

/-- Number, name and digest of the accounts. -/
def accounts (db : Database P) : List (UserId × Str × Str) :=
  db.users.map fun r => (r.userId, r.username, r.passwordHash)

/-- The name and the digest that an account had at first, in the table or by its registration. -/
def firstAccount (db : Database P) (registered : List (Str × Str)) (i : UserId) : Option (Str × Str) :=
  match db.byId i with
  | some r => some (r.username, r.passwordHash)
  | none => if db.nextUserId ≤ i then registered[i - db.nextUserId]? else none

variable {db db' : Database P} {i : UserId} {u h : Str}

theorem mem_accounts : (i, u, h) ∈ db.accounts ↔
    ∃ r ∈ db.users, r.userId = i ∧ r.username = u ∧ r.passwordHash = h := by
  unfold accounts
  simp only [List.mem_map, Prod.mk.injEq]

theorem accounts_of_map {f : UserRow → UserRow} (hdb : db'.users = db.users.map f)
    (hf : ∀ r, (f r).userId = r.userId ∧ (f r).username = r.username ∧
      (f r).passwordHash = r.passwordHash) : db'.accounts = db.accounts := by
  unfold accounts
  rw [hdb, List.map_map]
  refine List.map_congr_left fun r _ => ?_
  obtain ⟨hid, hname, hhash⟩ := hf r
  simp only [Function.comp_apply, hid, hname, hhash]

/-- A statement that does not write accounts. -/
theorem accounts_exec {st : Stmt} (hst : (Op.sql st).Free) {now : Nat} {rank : Nat → Nat} {r : st.Res}
    (hex : db.exec now rank st = some (r, db')) :
    db'.accounts = db.accounts ∧ db'.nextUserId = db.nextUserId := by
  have hdb : (db.exec now rank st).map Prod.snd = some db' := by rw [hex]; rfl
  cases st with
  | insertUser | updateUsername | updatePassword => exact absurd hst id
  | updateOnline | updateOnlineByName | updateLastLogin =>
    cases Option.some.inj hdb
    refine ⟨accounts_of_map rfl fun r => ?_, rfl⟩
    split <;> exact ⟨rfl, rfl, rfl⟩
  | insertFriend a b =>
    have hdb := of_tried hdb
    unfold insertFriend at hdb
    split at hdb
    · cases Option.some.inj hdb
      exact ⟨rfl, rfl⟩
    · cases hdb
  | insertMessage a b content =>
    have hdb := of_tried hdb
    unfold insertMessage at hdb
    split at hdb
    · cases Option.some.inj hdb
      exact ⟨rfl, rfl⟩
    · cases hdb
  | _ =>
    cases Option.some.inj hdb
    exact ⟨rfl, rfl⟩

theorem accounts_insertUser (hi : db.insertUser u h = some db') :
    db'.accounts = db.accounts ++ [(db.nextUserId, u, h)] ∧ db'.nextUserId = db.nextUserId + 1 := by
  unfold insertUser at hi
  split at hi
  · rw [← Option.some.inj hi]
    exact ⟨List.map_append, rfl⟩
  · cases hi

/-- The other accounts stay. -/
theorem accounts_updateUsername (hi : db.updateUsername i u = some db') :
    db'.nextUserId = db.nextUserId ∧ ∀ x ∈ db'.accounts, ∃ y ∈ db.accounts, y.1 = x.1 ∧
      (x = y ∨ x.1 = i ∧ x.2.1 = u ∧ x.2.2 = y.2.2) := by
  have hnext : db'.nextUserId = db.nextUserId := by
    unfold updateUsername at hi
    split at hi
    · rw [← Option.some.inj hi]
    · cases hi
  refine ⟨hnext, fun x hx => ?_⟩
  obtain ⟨r', hr', rfl⟩ := List.mem_map.mp hx
  rw [(users_of_updateUsername hi).2] at hr'
  obtain ⟨r, hr, rfl⟩ := List.mem_map.mp hr'
  refine ⟨_, List.mem_map_of_mem hr, (renameRow_userId i u r).symm, ?_⟩
  unfold renameRow
  split
  · rename_i hid
    exact .inr ⟨hid, rfl, rfl⟩
  · exact .inl rfl

theorem accounts_updatePassword {x : UserId × Str × Str} (hx : x ∈ (db.updatePassword i h).accounts) :
    ∃ y ∈ db.accounts, y.1 = x.1 ∧ (x = y ∨ x.1 = i ∧ x.2.1 = y.2.1 ∧ x.2.2 = h) := by
  obtain ⟨r', hr', rfl⟩ := List.mem_map.mp hx
  obtain ⟨r, hr, rfl⟩ := List.mem_map.mp hr'
  refine ⟨_, List.mem_map_of_mem hr, ?_, ?_⟩
  · split <;> rfl
  · split
    · rename_i hid
      exact .inr ⟨hid, rfl, rfl⟩
    · exact .inl rfl

theorem firstAccount_append {registered : List (Str × Str)} {a : Str × Str}
    (ha : db.firstAccount registered i = some a) (x : Str × Str) :
    db.firstAccount (registered ++ [x]) i = some a := by
  unfold firstAccount at ha ⊢
  cases hi : db.byId i with
  | some r =>
    rw [hi] at ha
    exact ha
  | none =>
    rw [hi] at ha
    dsimp only at ha ⊢
    split at ha
    · rename_i hle
      rw [if_pos hle, List.getElem?_append_left (List.getElem?_eq_some_iff.mp ha).1]
      exact ha
    · cases ha

theorem firstAccount_of_append {registered : List (Str × Str)} {x a : Str × Str}
    (ha : db.firstAccount (registered ++ [x]) i = some a) (hi : i ≠ db.nextUserId + registered.length) :
    db.firstAccount registered i = some a := by
  unfold firstAccount at ha ⊢
  split at ha
  · exact ha
  · split at ha
    · rename_i hle
      have hne : i - db.nextUserId ≠ registered.length := fun h => hi ((Nat.sub_eq_iff_eq_add' hle).mp h)
      have hlt : i - db.nextUserId < registered.length + 1 := by
        simpa using (List.getElem?_eq_some_iff.mp ha).1
      rw [List.getElem?_append_left (Nat.lt_of_le_of_ne (Nat.le_of_lt_succ hlt) hne)] at ha
      rw [if_pos hle, ha]
    · cases ha

theorem byId_eq_none_of_le (hle : db.nextUserId ≤ i) : db.byId i = none := by
  refine List.find?_eq_none.mpr fun r hr hid => ?_
  have hlt := db.users_id_lt r hr
  rw [of_decide_eq_true hid] at hlt
  exact absurd hle (Nat.not_le.mpr hlt)

/-- The account that is registered next. -/
theorem firstAccount_new (registered : List (Str × Str)) (x : Str × Str) :
    db.firstAccount (registered ++ [x]) (db.nextUserId + registered.length) = some x := by
  unfold firstAccount
  rw [byId_eq_none_of_le (Nat.le_add_right _ _)]
  simp

end Database

section Runs

variable {κ : Type} {work : Work κ} {w₀ w : World P}
  {calls : List (Worker κ × Call Op Op.Res)}

/-- What the client of a thread sends. Only connections have one. -/
def Server.Work.submits (work : Work κ) : Worker κ → String → String → Str → Prop
  | .handling k => Submits (work.received k)
  | _ => fun _ _ _ => False

theorem workers_authorized (work : Work κ) :
    ∀ k, (workers P work k).Obeys (Authorized P (work.submits k)) [] :=
  obeys_workers (fun _ _ ho => ho.free.authorized) (fun _ _ _ ho _ => ho.free.authorized)
    (fun _ _ _ ho => ho.free.authorized) (fun _ _ _ ho _ => ho.free.authorized)
    fun _ _ _ _ => serve_authorized

/-- Some client proves that it knows the password of that digest. -/
def Proved (P : Platform) (work : Work κ) (h : Str) : Prop :=
  ∃ k password, Submits (work.received k) "UPDATE_USER" "verifyPassword" password ∧ P.md5 password = h

theorem proved_of_submits {k : Worker κ} {password : Str}
    (h : work.submits k "UPDATE_USER" "verifyPassword" password) : Proved P work (P.md5 password) := by
  cases k with
  | handling k => exact ⟨k, password, h, rfl⟩
  | accepting | checking => exact absurd h id

/-- What has been registered, in order. -/
def registeredSince (calls : List (Worker κ × Call Op Op.Res)) : List (Str × Str) :=
  calls.filterMap fun e => registration e.2

theorem registeredSince_concat (k : Worker κ) (c : Call Op Op.Res) :
    registeredSince (calls ++ [(k, c)]) = registeredSince calls ++ (registration c).toList := by
  unfold registeredSince
  rw [List.filterMap_append]
  cases h : registration c <;> simp [h]

variable [DecidableEq κ]

/-- The accounts are the ones there were and the ones registered since, and an account that is not what
it was at first was changed by somebody who proved to know its first password. -/
structure AccountsKept (work : Work κ) (w₀ w : World P) (calls : List (Worker κ × Call Op Op.Res)) :
    Prop where
  next : w.db.nextUserId = w₀.db.nextUserId + (registeredSince calls).length
  there : ∀ i a, w₀.db.firstAccount (registeredSince calls) i = some a → w.db.HasUser i
  kept : ∀ i u h, (i, u, h) ∈ w.db.accounts →
    ∃ a, w₀.db.firstAccount (registeredSince calls) i = some a ∧ ((u, h) = a ∨ Proved P work a.2)
  told : ∀ k u i h, Told (Pool.own calls k) u i h →
    ∃ a, w₀.db.firstAccount (registeredSince calls) i = some a ∧ (h = a.2 ∨ Proved P work a.2)

theorem told_concat {k j : Worker κ} {c : Call Op Op.Res} {u h : Str} {i : UserId}
    (htold : Told (Pool.own (calls ++ [(k, c)]) j) u i h) :
    Told (Pool.own calls j) u i h ∨ Told [c] u i h :=
  (Pool.mem_own_concat.mp htold).imp_right fun hc => List.mem_singleton.mpr hc.2

/-- A call that leaves the accounts as they are, and tells of none but these. -/
theorem AccountsKept.aside (h : AccountsKept work w₀ w calls) {k : Worker κ} {c : Call Op Op.Res}
    {w' : World P} (hc : registration c = none)
    (hdb : w'.db.accounts = w.db.accounts ∧ w'.db.nextUserId = w.db.nextUserId)
    (htold : ∀ u i digest, Told [c] u i digest → ∃ v, (i, v, digest) ∈ w.db.accounts) :
    AccountsKept work w₀ w' (calls ++ [(k, c)]) := by
  have hreg : registeredSince (calls ++ [(k, c)]) = registeredSince calls := by
    rw [registeredSince_concat, hc]
    exact List.append_nil _
  have hids : ∀ db : Database P, db.users.map (·.userId) = db.accounts.map (·.1) := by
    intro db
    unfold Database.accounts
    rw [List.map_map]
    rfl
  refine ⟨?_, fun i a ha => ?_, fun i u digest hmem => ?_, fun j u i digest hj => ?_⟩
  · rw [hreg, hdb.2, h.next]
  · show i ∈ w'.db.users.map (·.userId)
    rw [hids, hdb.1, ← hids]
    exact h.there i a (hreg ▸ ha)
  · rw [hreg]
    exact h.kept i u digest (hdb.1 ▸ hmem)
  · rw [hreg]
    rcases told_concat hj with hj | hj
    · exact h.told j u i digest hj
    · obtain ⟨v, hv⟩ := htold u i digest hj
      obtain ⟨a, ha, hkept⟩ := h.kept i v digest hv
      exact ⟨a, ha, hkept.imp_left fun heq => congrArg Prod.snd heq⟩

/-- An account is changed, by somebody who proved to know its first password. -/
theorem AccountsKept.change (h : AccountsKept work w₀ w calls) {k : Worker κ} {c : Call Op Op.Res}
    {db : Database P} {i : UserId} {v password : Str} (hc : registration c = none)
    (hnot : ∀ u i digest, ¬ Told [c] u i digest) (hnext : db.nextUserId = w.db.nextUserId)
    (hids : db.users.map (·.userId) = w.db.users.map (·.userId))
    (hdb : ∀ x ∈ db.accounts, ∃ y ∈ w.db.accounts, y.1 = x.1 ∧ (x = y ∨ x.1 = i))
    (htold : Told (Pool.own calls k) v i (P.md5 password))
    (hsent : work.submits k "UPDATE_USER" "verifyPassword" password) :
    AccountsKept work w₀ { w with db := db } (calls ++ [(k, c)]) := by
  have hreg : registeredSince (calls ++ [(k, c)]) = registeredSince calls := by
    rw [registeredSince_concat, hc]
    exact List.append_nil _
  refine ⟨?_, fun j a ha => ?_, fun j u digest hmem => ?_, fun j u l digest hj => ?_⟩
  · rw [hreg, ← h.next]
    exact hnext
  · show j ∈ db.users.map (·.userId)
    rw [hids]
    exact h.there j a (hreg ▸ ha)
  · rw [hreg]
    obtain ⟨⟨j', u', digest'⟩, hy, hid, heq | hchanged⟩ := hdb _ hmem
    · cases heq
      exact h.kept j u digest hy
    · -- whoever changes it was told a digest of it, and the first one is known to somebody by now
      obtain ⟨a, ha, hknown⟩ := h.told k v i _ htold
      have hji : j = i := hchanged
      refine ⟨a, hji ▸ ha, .inr ?_⟩
      rcases hknown with hfirst | hproved
      · exact hfirst ▸ proved_of_submits hsent
      · exact hproved
  · rw [hreg]
    rcases told_concat hj with hj | hj
    · exact h.told j u l digest hj
    · exact absurd hj (hnot u l digest)

/-- An `INSERT` that goes through adds an account: the next id is used up, the new row is the account
that was registered under it, and no other row has changed. -/
theorem AccountsKept.register (h : AccountsKept work w₀ w calls) {k : Worker κ} {u digest : Str}
    {db : Database P} (hi : w.db.insertUser u digest = some db) :
    AccountsKept work w₀ { w with db := db } (calls ++ [(k, ⟨.sql (.insertUser u digest),
      (Except.ok () : Except SQLException Unit)⟩)]) := by
  obtain ⟨haccounts, hnext⟩ := Database.accounts_insertUser hi
  have husers := (Database.users_of_insertUser hi).2
  have hreg : registeredSince (calls ++ [(k, ⟨.sql (.insertUser u digest),
      (Except.ok () : Except SQLException Unit)⟩)]) = registeredSince calls ++ [(u, digest)] := by
    rw [registeredSince_concat]
    rfl
  have hnew : w₀.db.firstAccount (registeredSince calls ++ [(u, digest)]) w.db.nextUserId =
      some (u, digest) := by
    rw [h.next]
    exact Database.firstAccount_new _ _
  have grow : ∀ {i a} {Q : Prop}, w₀.db.firstAccount (registeredSince calls) i = some a ∧ Q →
      w₀.db.firstAccount (registeredSince calls ++ [(u, digest)]) i = some a ∧ Q :=
    fun ha => ⟨Database.firstAccount_append ha.1 _, ha.2⟩
  refine ⟨?_, fun i a ha => ?_, fun i v d hmem => ?_, fun j v i d hj => ?_⟩
  · rw [hreg, List.length_append, ← Nat.add_assoc, ← h.next]
    exact hnext
  · show i ∈ db.users.map (·.userId)
    rw [husers, List.map_append]
    rw [hreg] at ha
    -- the account just registered has the next id, and an older one was there before
    by_cases hold : i = w.db.nextUserId
    · exact List.mem_append_right _ (List.mem_singleton.mpr hold)
    · refine List.mem_append_left _ (h.there i a (Database.firstAccount_of_append ha ?_))
      rw [← h.next]
      exact hold
  · rw [hreg]
    rw [haccounts] at hmem
    rcases List.mem_append.mp hmem with hmem | hmem
    · obtain ⟨a, ha⟩ := h.kept i v d hmem
      exact ⟨a, grow ha⟩
    · cases List.mem_singleton.mp hmem
      exact ⟨(u, digest), hnew, .inl rfl⟩
  · rw [hreg]
    rcases told_concat hj with hj | hj
    · obtain ⟨a, ha⟩ := h.told j v i d hj
      exact ⟨a, grow ha⟩
    · cases List.mem_singleton.mp hj

theorem not_told {o : Op} (r : Op.Res o) (ho : ∀ u, o ≠ .sql (.selectUser u)) (u : Str) (i : UserId)
    (h : Str) : ¬ Told [⟨o, r⟩] u i h :=
  fun htold => ho u (congrArg Sigma.fst (List.mem_singleton.mp htold)).symm

theorem told_selectUser {u v h : Str} {i : UserId} {r : Option (UserId × Str)}
    (htold : Told [⟨.sql (.selectUser u), (Except.ok r : Except SQLException (Option (UserId × Str)))⟩]
      v i h) : r = some (i, h) := by
  cases List.mem_singleton.mp htold
  rfl

/-- A statement that is executed: one that adds an account, one that changes the account of somebody who
proved it, one that tells of an account, or one that is about something else. -/
theorem AccountsKept.executed (h : AccountsKept work w₀ w calls) {k : Worker κ} {st : Stmt}
    (hok : Authorized P (work.submits k) (Pool.own calls k) (.sql st)) {now : Nat} {rank : Nat → Nat}
    {r : st.Res} {db : Database P} (hex : w.db.exec now rank st = some (r, db)) :
    AccountsKept work w₀ { w with db := db }
      (calls ++ [(k, ⟨.sql st, (Except.ok r : Except SQLException st.Res)⟩)]) := by
  have hdb : (w.db.exec now rank st).map Prod.snd = some db := by rw [hex]; rfl
  cases st with
  | insertUser u digest => exact h.register (Database.of_tried hdb)
  | updateUsername i u =>
    obtain ⟨_, v, password, htold, hsent⟩ := hok
    have hdb := Database.of_tried hdb
    obtain ⟨hnext, haccounts⟩ := Database.accounts_updateUsername hdb
    refine h.change (i := i) rfl (not_told _ nofun) hnext ?_ (fun x hx => ?_) htold hsent
    · rw [(Database.users_of_updateUsername hdb).2]
      exact Effect.map_key_map (Database.renameRow_userId i u) _
    · obtain ⟨y, hy, hid, heq⟩ := haccounts x hx
      exact ⟨y, hy, hid, heq.imp_right And.left⟩
  | updatePassword i digest =>
    obtain ⟨⟨v, password, htold, hsent⟩, _⟩ := hok
    cases Option.some.inj hdb
    refine h.change (i := i) rfl (not_told _ nofun) rfl ?_ (fun x hx => ?_) htold hsent
    · refine Effect.map_key_map (fun r => ?_) _
      split <;> rfl
    · obtain ⟨y, hy, hid, heq⟩ := Database.accounts_updatePassword hx
      exact ⟨y, hy, hid, heq.imp_right And.left⟩
  -- what a thread is told of an account is what the table has
  | selectUser u =>
    obtain ⟨hr, rfl⟩ := Prod.mk.inj (Option.some.inj hex)
    refine h.aside rfl ⟨rfl, rfl⟩ fun v i digest htold => ?_
    obtain ⟨row, hrow, hanswer⟩ := Option.map_eq_some_iff.mp (hr.trans (told_selectUser htold))
    cases hanswer
    exact ⟨row.username, Database.mem_accounts.mpr ⟨row, (Database.byName_iff.mp hrow).1, rfl, rfl, rfl⟩⟩
  | _ =>
    refine h.aside rfl (Database.accounts_exec ?_ hex) fun u i digest htold => ?_
    · trivial
    · refine absurd htold (not_told _ ?_ u i digest)
      nofun

theorem AccountsKept.step (h : AccountsKept work w₀ w calls) {k : Worker κ} {o : Op}
    (hok : Authorized P (work.submits k) (Pool.own calls k) o) (ch : Choice) :
    AccountsKept work w₀ (World.handle o ch w).2 (calls ++ [(k, ⟨o, (World.handle o ch w).1⟩)]) := by
  by_cases hsql : ∃ st, o = .sql st
  · obtain ⟨st, rfl⟩ := hsql
    show AccountsKept work w₀ (w.execute st ch).2 (calls ++ [(k, ⟨.sql st, (w.execute st ch).1⟩)])
    rcases w.execute_cases st ch with ⟨r, db, hex, hexec⟩ | hexec
    · rw [hexec]
      exact h.executed hok hex
    · rw [hexec]
      refine h.aside ?_ ⟨rfl, rfl⟩ fun u i digest htold => ?_
      · cases st <;> rfl
      · cases List.mem_singleton.mp htold
  · have hdb := World.db_handle_of_ne (fun st ho => hsql ⟨st, ho⟩) ch w
    refine h.aside ?_ (by rw [hdb]; exact ⟨rfl, rfl⟩) fun u i digest htold => ?_
    · cases o with
      | sql st => exact absurd ⟨st, rfl⟩ hsql
      | _ => rfl
    · exact absurd htold (not_told _ (fun v ho => hsql ⟨_, ho⟩) u i digest)

theorem AccountsKept.start (work : Work κ) (w₀ : World P) : AccountsKept work w₀ w₀ [] where
  next := rfl
  there i a ha := by
    unfold Database.firstAccount at ha
    cases hi : w₀.db.byId i with
    | some r =>
      obtain ⟨hr, rfl⟩ := Database.byId_iff.mp hi
      exact List.mem_map_of_mem hr
    | none =>
      rw [hi] at ha
      simp [registeredSince] at ha
  kept i u h hmem := by
    obtain ⟨r, hr, rfl, rfl, rfl⟩ := Database.mem_accounts.mp hmem
    refine ⟨(r.username, r.passwordHash), ?_, .inl rfl⟩
    unfold Database.firstAccount
    rw [Database.byId_iff.mpr ⟨hr, rfl⟩]
  told := nofun

/-- **An account changes hands only with its password.** In every interleaving of the server's threads,
whatever fails, the accounts are the ones there were and the ones registered since, in their order; and
each has the name and the digest it had at first, unless some client has sent, in an `UPDATE_USER`, a
password with that digest. -/
theorem accountsKept_run (work : Work κ) (w₀ : World P) (es : List (Worker κ × Choice)) :
    AccountsKept work w₀ (runAll (Pool.step World.handle) (Pool.start (workers P work) w₀) es).shared
      (runAll (Pool.step World.handle) (Pool.start (workers P work) w₀) es).calls :=
  Pool.obeys_runAll (workers_authorized work) (AccountsKept.start work w₀)
    (fun _ _ _ _ ch h hok => h.step hok ch) es

/-! ## What accounts are made of -/

/-- The name has the permitted form, and the digest is that of a password that is long enough and that
some client has sent to have it stored. -/
def WellMade (P : Platform) (work : Work κ) (u h : Str) : Prop :=
  validateUsername u = true ∧ ∃ k password, (Submits (work.received k) "REGISTER" "password" password ∨
    Submits (work.received k) "UPDATE_USER" "newPassword" password) ∧
      validatePassword password = true ∧ h = P.md5 password

def AllWellMade (work : Work κ) (w : World P) : Prop :=
  ∀ x ∈ w.db.accounts, WellMade P work x.2.1 x.2.2

/-- A call of any thread writes no name and no digest but such as its protocol allows. -/
theorem AllWellMade.step {k : Worker κ} {o : Op} (h : AllWellMade work w)
    (hok : Authorized P (work.submits k) (Pool.own calls k) o) (ch : Choice) :
    AllWellMade work (World.handle o ch w).2 := by
  have sent : ∀ {type key : String} {password : Str}, work.submits k type key password →
      ∃ j, Submits (work.received j) type key password := by
    intro type key password hsent
    cases k with
    | handling j => exact ⟨j, hsent⟩
    | accepting | checking => exact absurd hsent id
  intro x hx
  rcases World.db_handle o ch w with hdb | ⟨st, r, rfl, hex⟩
  · rw [hdb] at hx
    exact h x hx
  -- only a statement changes the table, and of these only three write names or digests
  generalize (World.handle (.sql st) ch w).2.db = db at hex hx
  have hdb : (w.db.exec ch.now ch.rank st).map Prod.snd = some db := by rw [hex]; rfl
  cases st with
  | insertUser u digest =>
    rw [(Database.accounts_insertUser (Database.of_tried hdb)).1] at hx
    rcases List.mem_append.mp hx with hx | hx
    · exact h x hx
    · obtain ⟨hname, password, hsent, hlong, hdigest⟩ := hok
      obtain ⟨j, hj⟩ := sent hsent
      rw [List.mem_singleton.mp hx]
      exact ⟨hname, j, password, .inl hj, hlong, hdigest⟩
  | updateUsername i u =>
    obtain ⟨y, hy, _, hxy | ⟨_, hname, hdigest⟩⟩ :=
      (Database.accounts_updateUsername (Database.of_tried hdb)).2 x hx
    · exact hxy ▸ h y hy
    · rw [hname, hdigest]
      exact ⟨hok.1, (h y hy).2⟩
  | updatePassword i digest =>
    cases Option.some.inj hdb
    obtain ⟨y, hy, _, hxy | ⟨_, hname, hdigest⟩⟩ := Database.accounts_updatePassword hx
    · exact hxy ▸ h y hy
    · obtain ⟨_, password, hsent, hlong, hmade⟩ := hok
      obtain ⟨j, hj⟩ := sent hsent
      rw [hname, hdigest]
      exact ⟨(h y hy).1, j, password, .inr hj, hlong, hmade⟩
  | _ =>
    refine h x ?_
    rw [← (Database.accounts_exec ?_ hex).1]
    · exact hx
    · trivial

/-- **Accounts are well made.** In every interleaving of the server's threads over an empty database,
each account has a name of the permitted form, and no digest is stored but that of a password of six
bytes or more that a client has sent for it. -/
theorem wellMade_run (work : Work κ) (es : List (Worker κ × Choice)) :
    AllWellMade work (runAll (Pool.step World.handle)
      (Pool.start (workers P work) (World.start (Database.empty : Database P))) es).shared := by
  have hstart : AllWellMade work (World.start (Database.empty : Database P)) :=
    fun _ hx => absurd hx List.not_mem_nil
  exact Pool.obeys_runAll (J := fun (w : World P) _ => AllWellMade work w) (workers_authorized work)
    hstart (fun _ _ _ _ ch h hok => h.step hok ch) es

end Runs

end LiteChat
