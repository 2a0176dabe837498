import Mathlib.Data.Finset.Card
import LiteChat.Effect.Interleave
import LiteChat.Proof.Users
import LiteChat.Proof.Calls

/-!
# One name, one account

`HandleRegister` and `HandleUpdateUser` look a name up and write it in two database calls, so any number
of them may find one name free. What keeps names apart is the key of the table: of the statements that
write one name, all but one fail. So it is enough that each handler reports the failure of its own
statement, and that is a fact about the one call where it is executed (`WritesName`), whatever the other
threads do between its calls.
-/

namespace LiteChat

open LiteChat.Action UserManager

variable {P : Platform} {ι : Type} {w : World P}

/-- A request that may write a name. -/
inductive NameRequest
  | register (request : Request)
  | updateUser (request : Request)

def NameRequest.action (P : Platform) : NameRequest → Action Response
  | .register request => handleRegister P request
  | .updateUser request => handleUpdateUser P request

def NameRequest.isRegister : NameRequest → Bool
  | .register _ => true
  | .updateUser _ => false

/-- The handler has come to an end, and the answer is not 0. -/
def Refused (p : Action Response) : Prop := ∃ response, p = pure response ∧ response.code ≠ 0

/-- What a handler does with the answer to a call: a registration is accepted exactly if its insertion
is executed, and a change of a name is refused if its update is not. A name that is written is of the
permitted form. -/
def WritesName (register : Bool) : (o : Op) → (o.Res → Action Response) → Prop
  | .sql (.insertUser u _), k => register = true ∧ validateUsername u = true ∧
      (∃ response, k (.ok ()) = pure response ∧ response.code = 0) ∧ ∀ e, Refused (k (.error e))
  | .sql (.updateUsername _ u), k => register = false ∧ validateUsername u = true ∧
      ∀ e, Refused (k (.error e))
  | .sql st, k => ((st.reads = true ∨ ∃ i h, st = .updatePassword i h) ∧
      (register = true → ∀ r response, k r = pure response → response.code ≠ 0))
  | _, _ => False

/-! ## The two handlers -/

section Handlers

variable {α β : Type} {S : (o : Op) → (o.Res → Action β) → Prop}

theorem everywhere_ite {c : Prop} [Decidable c] {p q : Action β} (hp : p.Everywhere S)
    (hq : ¬ c → q.Everywhere S) : (if c then p else q).Everywhere S := by
  split
  · exact hp
  · rename_i hc
    exact hq hc

theorem caught_continuation {st : Stmt} (f : st.Res → α) (failed : α) (g : α → Action β) :
    (fun r : Except SQLException st.Res => (match r with
      | .ok r => pure (f r)
      | .error _ => pure failed : Action α) >>= g) = fun r => match r with
        | .ok r => g (f r)
        | .error _ => g failed := by
  funext r
  cases r <;> rfl

/-- A statement, what comes after it, and what comes after its failure. -/
theorem everywhere_caught {st : Stmt} {f : st.Res → α} {failed : α} {g : α → Action β}
    (hS : S (.sql st) fun r => match r with
      | .ok r => g (f r)
      | .error _ => g failed)
    (hok : ∀ r, (g (f r)).Everywhere S) (hfailed : (g failed).Everywhere S) :
    (caught st f failed >>= g).Everywhere S := by
  have hnext := caught_continuation f failed g
  refine ⟨Eq.mpr (congrArg (S (.sql st)) hnext) hS, fun r => ?_⟩
  cases r with
  | ok r => exact hok r
  | error e => exact hfailed

/-- If the handler has come to an end, the answer is not 0. -/
def NoSuccess (p : Action Response) : Prop := ∀ response, p = pure response → response.code ≠ 0

theorem noSuccess_pure {response : Response} (h : response.code ≠ 0) :
    NoSuccess (pure response) := by
  intro response' heq
  rw [← Effect.Prog.pure.inj heq]
  exact h

theorem noSuccess_caught {st : Stmt} {f : st.Res → α} {failed : α} {g : α → Action Response} :
    NoSuccess (caught st f failed >>= g) := nofun

theorem noSuccess_ite {c : Prop} [Decidable c] {p q : Action Response} (hp : NoSuccess p)
    (hq : NoSuccess q) : NoSuccess (if c then p else q) := by
  split
  · exact hp
  · exact hq

theorem noSuccess_handleRegister (request : Request) : NoSuccess (handleRegister P request) :=
  noSuccess_ite (noSuccess_pure (by decide)) (noSuccess_ite (noSuccess_pure (by decide))
    noSuccess_caught)

theorem everywhere_handleRegister (request : Request) :
    (handleRegister P request).Everywhere (WritesName true) := by
  unfold handleRegister
  refine everywhere_ite trivial fun hvalid => everywhere_ite trivial fun _ => ?_
  have insert : (do
      if ¬ (← UserDAO.insertUser request.username (P.md5 request.password)) then
        return ⟨5001, bytes "数据库操作失败", none⟩
      return ⟨0, bytes "注册成功", none⟩ : Action Response).Everywhere (WritesName true) := by
    refine everywhere_caught ⟨rfl, not_not.mp hvalid, ⟨_, rfl, rfl⟩, fun _ => ⟨_, rfl, ?_⟩⟩
      (fun _ => trivial) trivial
    decide
  refine everywhere_caught ⟨.inl rfl, fun _ r => ?_⟩ (fun n => everywhere_ite trivial fun _ => insert)
    insert
  cases r with
  | ok n => exact noSuccess_ite (noSuccess_pure (by decide)) noSuccess_caught
  | error e => exact noSuccess_caught

/-- The renaming part of `HandleUpdateUser`, and what comes after it: a name is only written if it has
the permitted form, and nothing is written if the count has found it taken. -/
theorem everywhere_changeUsername {i : UserId} {newUsername : Str}
    {g : Option Response → Action Response}
    (hrefused : ∀ response, g (some response) = pure response)
    (hg : (g none).Everywhere (WritesName false)) :
    (changeUsername i newUsername >>= g).Everywhere (WritesName false) := by
  have refused : ∀ response, (g (some response)).Everywhere (WritesName false) := by
    intro response
    rw [hrefused]
    trivial
  have update : validateUsername newUsername = true → ((do
      if ¬ (← UserDAO.updateUsername i newUsername) then
        return some ⟨5001, bytes "数据库操作失败", none⟩
      return none : Action (Option Response)) >>= g).Everywhere (WritesName false) := by
    intro hvalid
    rw [Effect.Prog.bind_eq, Effect.Prog.bind_eq, Effect.Prog.bind_assoc]
    refine everywhere_caught ⟨rfl, hvalid, fun _ => ⟨_, hrefused _, ?_⟩⟩ (fun _ => ?_) (refused _)
    · decide
    · exact hg
  unfold changeUsername
  split
  · exact hg
  split
  · exact refused _
  rename_i hvalid
  rw [Effect.Prog.bind_eq, Effect.Prog.bind_eq, Effect.Prog.bind_assoc]
  refine everywhere_caught ⟨.inl rfl, nofun⟩ (fun (n : Nat) => ?_) (update (not_not.mp hvalid))
  by_cases hn : decide (0 < n) = true
  · rw [if_pos hn]
    exact refused _
  · rw [if_neg hn]
    exact update (not_not.mp hvalid)

theorem everywhere_changePassword {i : UserId} {newPassword : Str}
    {g : Option Response → Action Response}
    (hrefused : ∀ response, g (some response) = pure response)
    (hg : (g none).Everywhere (WritesName false)) :
    (changePassword P i newPassword >>= g).Everywhere (WritesName false) := by
  have refused : ∀ response, (g (some response)).Everywhere (WritesName false) := by
    intro response
    rw [hrefused]
    trivial
  unfold changePassword
  split
  · exact hg
  split
  · exact refused _
  rw [Effect.Prog.bind_eq, Effect.Prog.bind_eq, Effect.Prog.bind_assoc]
  exact everywhere_caught ⟨.inr ⟨_, _, rfl⟩, nofun⟩ (fun _ => hg) (refused _)

/-- What a handler does with the row of the user it has found. -/
theorem everywhere_updateSelected (request : Request) (r : Option (UserId × Str)) : (match r with
    | none => pure ⟨2003, bytes "用户不存在", none⟩
    | some (userId, passwordHash) =>
      if P.md5 request.verifyPassword ≠ passwordHash then
        pure ⟨2006, bytes "验证密码错误", none⟩
      else do
        match ← changeUsername userId request.newUsername with
        | some response => return response
        | none =>
          match ← changePassword P userId request.newPassword with
          | some response => return response
          | none =>
            if request.newUsername = [] ∧ request.newPassword = [] then
              return ⟨1001, bytes "未修改任何信息", none⟩
            return ⟨0, bytes "修改成功", none⟩ : Action Response).Everywhere
      (WritesName false) := by
  cases r with
  | none => trivial
  | some r =>
    refine everywhere_ite trivial fun _ => everywhere_changeUsername (fun _ => rfl) ?_
    refine everywhere_changePassword (fun _ => rfl) ?_
    exact everywhere_ite trivial fun _ => trivial

theorem everywhere_handleUpdateUser (request : Request) :
    (handleUpdateUser P request).Everywhere (WritesName false) :=
  everywhere_caught ⟨.inl rfl, fun h => absurd h Bool.false_ne_true⟩
    (everywhere_updateSelected request) (everywhere_updateSelected (P := P) request none)

end Handlers

/-! ## Requests that take turns -/

/-- The request is a registration that has been answered 0. -/
def registered : NameRequest → Action Response → Bool
  | .register _, .pure response => response.code = 0
  | _, _ => false

/-- The name, and the account that may hold it, of a statement that writes a name. -/
def Stmt.nameWrite : Stmt → Option (Str × Option UserId)
  | .insertUser u _ => some (u, none)
  | .updateUsername i u => some (u, some i)
  | _ => none

/-- The next call of the thread writes a name that the row of another account holds. -/
def WritesHeldName (t : Effect.Pool ι Op Op.Res Response (World P)) (i : ι) : Prop :=
  ∃ st k u own, t.threads i = .call (.sql st) k ∧ st.nameWrite = some (u, own) ∧
    ∃ r ∈ t.shared.db.users, own ≠ some r.userId ∧ P.weight r.username = P.weight u

section Pool

variable [DecidableEq ι]

/-- The state after the requests have taken these turns. -/
def serveNames (w : World P) (requests : ι → NameRequest) (es : List (ι × Choice)) :
    Effect.Pool ι Op Op.Res Response (World P) :=
  Effect.runAll (Effect.Pool.step World.handle)
    (Effect.Pool.start (fun i => (requests i).action P) w) es

variable [Fintype ι]

/-- How many registrations have been answered 0. -/
def registrations (requests : ι → NameRequest) (threads : ι → Action Response) : Nat :=
  (Finset.univ.filter fun i => registered (requests i) (threads i) = true).card

/-- A name belongs to one account, whatever turns the requests take. -/
structure OneAccount (w : World P) (requests : ι → NameRequest) (es : List (ι × Choice)) :
    Prop where
  rows : (serveNames w requests es).shared.db.users.length =
    w.db.users.length + registrations requests (serveNames w requests es).threads
  names : (∀ r ∈ w.db.users, validateUsername r.username = true) →
    ∀ r ∈ (serveNames w requests es).shared.db.users, validateUsername r.username = true
  held : ∀ before e after, es = before ++ e :: after →
    WritesHeldName (serveNames w requests before) e.1 →
    ∀ response, (serveNames w requests es).threads e.1 = pure response → response.code ≠ 0

/-- What every turn keeps. -/
structure NamesKept (w : World P) (requests : ι → NameRequest)
    (t : Effect.Pool ι Op Op.Res Response (World P)) : Prop where
  threads : ∀ i, (t.threads i).Everywhere (WritesName (requests i).isRegister)
  rows : t.shared.db.users.length = w.db.users.length + registrations requests t.threads
  names : (∀ r ∈ w.db.users, validateUsername r.username = true) →
    ∀ r ∈ t.shared.db.users, validateUsername r.username = true

/-- One thread goes on; if that makes it an accepted registration, there is one more. -/
theorem registrations_update {requests : ι → NameRequest} {threads : ι → Action Response} {i : ι}
    (h : registered (requests i) (threads i) = false) (p : Action Response) :
    registrations requests (Function.update threads i p) =
      registrations requests threads + if registered (requests i) p = true then 1 else 0 := by
  have hother : ∀ j, j ≠ i → Function.update threads i p j = threads j := fun j hj =>
    Function.update_of_ne hj _ _
  unfold registrations
  by_cases hp : registered (requests i) p = true
  · rw [if_pos hp, ← Finset.card_insert_of_notMem (a := i) (by simp [h])]
    congr 1
    ext j
    by_cases hj : j = i
    · subst hj
      simp [hp]
    · simp [hj]
  · rw [if_neg hp, Nat.add_zero]
    congr 1
    ext j
    by_cases hj : j = i
    · subst hj
      simp [hp, h]
    · simp [hother j hj]

theorem World.execute_cases (w : World P) (st : Stmt) (ch : Choice) :
    (∃ r db, w.db.exec ch.now ch.rank st = some (r, db) ∧
      w.execute st ch = (.ok r, { w with db := db })) ∨
    w.execute st ch = (.error .raised, w) := by
  unfold execute
  split
  · split
    · rename_i r db hex
      exact .inl ⟨r, db, hex, rfl⟩
    · exact .inr rfl
  · exact .inr rfl

theorem registered_eq_false {request : NameRequest} {p : Action Response}
    (h : request.isRegister = true → NoSuccess p) : registered request p = false := by
  cases request with
  | updateUser => rfl
  | register =>
    cases p with
    | pure response => exact decide_eq_false (h rfl response rfl)
    | call o k => rfl

theorem Refused.noSuccess {p : Action Response} (h : Refused p) : NoSuccess p := by
  obtain ⟨response, rfl, hcode⟩ := h
  exact noSuccess_pure hcode

/-- A statement that does not write names leaves them as they are. -/
theorem names_exec {db db' : Database P} {st : Stmt}
    (hst : st.reads = true ∨ ∃ i h, st = .updatePassword i h) {now : Nat} {rank : Nat → Nat}
    {r : st.Res} (h : db.exec now rank st = some (r, db')) :
    db'.users.map (·.username) = db.users.map (·.username) := by
  rcases hst with hst | ⟨i, hash, rfl⟩
  · rw [Database.exec_reads hst h]
  · have hdb : db.updatePassword i hash = db' := (Prod.mk.inj (Option.some.inj h)).2
    rw [← hdb]
    show (db.users.map _).map _ = _
    rw [List.map_map]
    exact List.map_congr_left fun u _ => by
      simp only [Function.comp_apply]
      split <;> rfl

/-- What an executed statement does: an insertion is an accepted registration, and adds a row; and the
names that are there are of the permitted form, if they were. -/
theorem executed_names {request : NameRequest} {st : Stmt} {k : (Op.sql st).Res → Action Response}
    (hwrites : WritesName request.isRegister (.sql st) k) {db db' : Database P} {now : Nat}
    {rank : Nat → Nat} {r : st.Res} (h : db.exec now rank st = some (r, db')) :
    db'.users.length = db.users.length + (if registered request (k (.ok r)) = true then 1 else 0) ∧
      ((∀ u ∈ db.users, validateUsername u.username = true) →
        ∀ u ∈ db'.users, validateUsername u.username = true) := by
  -- a statement that keeps the names as they are is not the end of a registration
  have kept : db'.users.map (·.username) = db.users.map (·.username) →
      (request.isRegister = true → NoSuccess (k (.ok r))) →
      db'.users.length = db.users.length + (if registered request (k (.ok r)) = true then 1 else 0) ∧
        ((∀ u ∈ db.users, validateUsername u.username = true) →
          ∀ u ∈ db'.users, validateUsername u.username = true) := by
    intro hnames hregister
    refine ⟨?_, fun hvalid u hu => ?_⟩
    · rw [registered_eq_false hregister]
      simpa using congrArg List.length hnames
    · obtain ⟨v, hv, hvu⟩ := List.mem_map.mp (hnames ▸ List.mem_map_of_mem hu)
      rw [← hvu]
      exact hvalid v hv
  cases st with
  | insertUser u hash =>
    obtain ⟨hregister, hform, ⟨response, hresponse, hcode⟩, _⟩ := hwrites
    obtain ⟨_, hdb, heq⟩ := Option.map_eq_some_iff.mp h
    obtain ⟨rfl, rfl⟩ := Prod.mk.inj heq
    obtain ⟨_, husers⟩ := Database.users_of_insertUser hdb
    have haccepted : registered request (k (.ok ())) = true := by
      rw [hresponse]
      cases request with
      | register => exact decide_eq_true hcode
      | updateUser => cases hregister
    rw [haccepted, husers]
    refine ⟨List.length_append, fun hvalid v hv => ?_⟩
    rcases List.mem_append.mp hv with hv | hv
    · exact hvalid v hv
    · rw [List.mem_singleton.mp hv]
      exact hform
  | updateUsername i u =>
    obtain ⟨hregister, hform, _⟩ := hwrites
    obtain ⟨_, hdb, heq⟩ := Option.map_eq_some_iff.mp h
    obtain ⟨rfl, rfl⟩ := Prod.mk.inj heq
    obtain ⟨_, husers⟩ := Database.users_of_updateUsername hdb
    have hnone : registered request (k (.ok ())) = false :=
      registered_eq_false fun hr => absurd (hregister.symm.trans hr) (by simp)
    rw [hnone, husers]
    refine ⟨List.length_map _, fun hvalid v hv => ?_⟩
    obtain ⟨v', hv', rfl⟩ := List.mem_map.mp hv
    unfold Database.renameRow
    split
    · exact hform
    · exact hvalid v' hv'
  | _ => exact kept (names_exec hwrites.1 h) fun hregister => hwrites.2 hregister _

/-- A statement that fails is not the end of an accepted registration. -/
theorem failed_names {request : NameRequest} {st : Stmt} {k : (Op.sql st).Res → Action Response}
    (hwrites : WritesName request.isRegister (.sql st) k) :
    registered request (k (.error .raised)) = false := by
  refine registered_eq_false fun hregister => ?_
  cases st with
  | insertUser => exact (hwrites.2.2.2 _).noSuccess
  | updateUsername => exact (hwrites.2.2 _).noSuccess
  | _ => exact hwrites.2 hregister _

theorem NamesKept.step {requests : ι → NameRequest} {t : Effect.Pool ι Op Op.Res Response (World P)}
    (h : NamesKept w requests t) (e : ι × Choice) :
    NamesKept w requests (Effect.Pool.step World.handle t e) := by
  have hthreads := fun i => Effect.Pool.everywhere_step (H := World.handle) (h.threads i) e
  have hthread := h.threads e.1
  cases hcall : t.threads e.1 with
  | pure a =>
    have hstep : Effect.Pool.step World.handle t e = t := by
      unfold Effect.Pool.step
      rw [hcall]
    rw [hstep]
    exact h
  | call o k =>
    rw [hcall] at hthread
    obtain ⟨hwrites, _⟩ := hthread
    cases o with
    | sql st =>
      have hbefore : registered (requests e.1) (t.threads e.1) = false := by
        rw [hcall]
        cases requests e.1 <;> rfl
      -- it is enough to count what this statement adds, and to look at the names after it
      have done : ∀ r w', t.shared.execute st e.2 = (r, w') →
          w'.db.users.length = t.shared.db.users.length +
            (if registered (requests e.1) (k r) = true then 1 else 0) →
          ((∀ u ∈ t.shared.db.users, validateUsername u.username = true) →
            ∀ u ∈ w'.db.users, validateUsername u.username = true) →
          NamesKept w requests (Effect.Pool.step World.handle t e) := by
        intro r w' hexec hlength hnames
        have hshared : (Effect.Pool.step World.handle t e).shared = w' := by
          rw [Effect.Pool.step_call hcall]
          exact congrArg Prod.snd hexec
        have hnext : (Effect.Pool.step World.handle t e).threads =
            Function.update t.threads e.1 (k r) := by
          rw [Effect.Pool.step_call hcall]
          exact congrArg (fun x => Function.update t.threads e.1 (k x.1)) hexec
        refine ⟨hthreads, ?_, fun hvalid => ?_⟩
        · rw [hshared, hnext, registrations_update hbefore, hlength, h.rows, Nat.add_assoc]
        · rw [hshared]
          exact hnames (h.names hvalid)
      rcases t.shared.execute_cases st e.2 with ⟨r, db, hdb, hexec⟩ | hexec
      · obtain ⟨hlength, hnames⟩ := executed_names hwrites hdb
        exact done _ _ hexec hlength hnames
      · exact done _ _ hexec (by rw [failed_names hwrites]; rfl) id
    | _ => exact absurd hwrites id

/-- The key of the table refuses a name that another row holds, and the handler reports that. -/
theorem NamesKept.refused_of_held {requests : ι → NameRequest}
    {t : Effect.Pool ι Op Op.Res Response (World P)} (h : NamesKept w requests t) {i : ι}
    (hheld : WritesHeldName t i) (ch : Choice) :
    Refused ((Effect.Pool.step World.handle t (i, ch)).threads i) := by
  obtain ⟨st, k, u, own, hcall, hwrite, r, hr, hown, hweight⟩ := hheld
  obtain ⟨hwrites, _⟩ := hcall ▸ h.threads i
  have hnone : t.shared.db.exec ch.now ch.rank st = none := by
    cases st with
    | insertUser v hash =>
      obtain ⟨rfl, rfl⟩ := Prod.mk.inj (Option.some.inj hwrite)
      refine Option.map_eq_none_iff.mpr (dif_neg fun hfree => ?_)
      exact hfree r hr hweight
    | updateUsername j v =>
      obtain ⟨rfl, rfl⟩ := Prod.mk.inj (Option.some.inj hwrite)
      refine Option.map_eq_none_iff.mpr (dif_neg fun hfree => ?_)
      exact hfree r hr (fun hrj => hown (by rw [hrj])) hweight
    | _ => cases hwrite
  have hexec : t.shared.execute st ch = (.error .raised, t.shared) := by
    rcases t.shared.execute_cases st ch with ⟨r', db, hdb, _⟩ | hexec
    · exact absurd (hnone.symm.trans hdb) (by simp)
    · exact hexec
  have hnext : (Effect.Pool.step World.handle t (i, ch)).threads i = k (.error .raised) := by
    rw [Effect.Pool.step_call (e := (i, ch)) hcall]
    dsimp only
    rw [Function.update_self]
    exact congrArg (fun x => k x.1) hexec
  rw [hnext]
  cases st with
  | insertUser => exact hwrites.2.2.2 _
  | updateUsername => exact hwrites.2.2 _
  | _ => cases hwrite

/-- **A name belongs to one account**: registrations that are answered 0 are the rows that are new,
names are of the permitted form, and a name that another row holds when it is written is not given. -/
theorem oneAccount_run (w : World P) (requests : ι → NameRequest) (es : List (ι × Choice)) :
    OneAccount w requests es := by
  have start : NamesKept w requests (serveNames w requests []) := by
    have hnone : registrations requests (serveNames w requests []).threads = 0 := by
      refine Finset.card_eq_zero.mpr (Finset.filter_eq_empty_iff.mpr fun i _ => ?_)
      show ¬ registered (requests i) ((requests i).action P) = true
      cases requests i with
      | register request =>
        have hopen : registered (.register request) (handleRegister P request) = false :=
          registered_eq_false fun _ => noSuccess_handleRegister request
        exact fun h => absurd (hopen.symm.trans h) (by simp)
      | updateUser request => simp [registered]
    refine ⟨fun i => ?_, by rw [hnone]; rfl, fun hvalid => hvalid⟩
    show ((requests i).action P).Everywhere _
    cases requests i with
    | register request => exact everywhere_handleRegister request
    | updateUser request => exact everywhere_handleUpdateUser request
  have kept : ∀ es, NamesKept w requests (serveNames w requests es) := fun es =>
    Effect.runAll_inv_always start (fun t e ht => ht.step e) es
  refine ⟨(kept es).rows, (kept es).names, ?_⟩
  rintro before e after rfl hheld response hresponse
  obtain ⟨response', hafter, hcode⟩ := (kept before).refused_of_held hheld e.2
  have hstays : (serveNames w requests (before ++ e :: after)).threads e.1 = pure response' := by
    have hstep : ∀ (t : Effect.Pool ι Op Op.Res Response (World P)) e', t.threads e.1 = pure response' →
        (Effect.Pool.step World.handle t e').threads e.1 = pure response' :=
      fun t e' ht => Effect.Pool.threads_step_pure ht e'
    unfold serveNames at hafter ⊢
    rw [Effect.runAll_append]
    refine Effect.runAll_inv_always ?_ hstep after
    exact hafter
  rw [Effect.Prog.pure.inj (hresponse.symm.trans hstays)]
  exact hcode

end Pool

end LiteChat
