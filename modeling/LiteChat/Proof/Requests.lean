import LiteChat.Proof.Messages

/-!
# What each request can do

One rule for each handler that writes to users or sessions, stated once and used by every result: to
show that the handler ends in `Q`, show `Q` of each way it can end. The environment `E` is a
parameter throughout; a rule says what is left open when statements may fail, and becomes exact when
they may not. The last rule is `DispatchRequest`'s: what is served is `requestOf` the body and the
session, and the rest is talk.
-/

namespace LiteChat

open LiteChat.Action Spec

variable {P : Platform} {E : Env} {w w' w'' : World P}

/-! ## Registration and changes of the user's data -/

theorem wp_handleRegister {request : Request} {Q : Response → World P → Prop}
    (refused : ∀ response, response.code ≠ 0 → Q response w)
    (registered : ∀ db, UserManager.validateUsername request.username = true →
      w.db.insertUser request.username (P.md5 request.password) = some db →
      Q ⟨0, bytes "注册成功", none⟩ { w with db := db }) :
    wp E (UserManager.handleRegister P request) Q w := by
  unfold UserManager.handleRegister
  rw [wp_ite]
  split
  · exact refused _ (by decide)
  rename_i hname
  rw [wp_ite]
  split
  · exact refused _ (by decide)
  simp only [wp_bind, wp_checkUsernameExists, wp_ite, wp_insertUser]
  have hfail : wp E (pure ⟨5001, bytes "数据库操作失败", none⟩) Q w := refused _ (by decide)
  have hinsert : ∀ db, w.db.insertUser request.username (P.md5 request.password) = some db →
      Q ⟨0, bytes "注册成功", none⟩ { w with db := db } :=
    fun db => registered db (by simpa using hname)
  refine ⟨fun _ => ?_, ?_⟩
  · exact ⟨fun _ => hfail, fun db hdb => hinsert db hdb⟩
  · split
    · exact refused _ (by decide)
    · exact ⟨fun _ => hfail, fun db hdb => hinsert db hdb⟩

/-- The row `i` got a new name. -/
def Renamed (E : Env) (newUsername : Str) (i : UserId) (db db' : Database P) : Prop :=
  newUsername ≠ [] ∧ UserManager.validateUsername newUsername = true ∧
    (¬ E.dbFails → db.byName newUsername = none) ∧ db.updateUsername i newUsername = some db'

/-- The row `i` was renamed, or not, and then its password was set, or not. -/
def UserUpdated (E : Env) (request : Request) (i : UserId) (db db' : Database P) : Prop :=
  ∃ db₁, (db₁ = db ∨ Renamed E request.newUsername i db db₁) ∧
    (db' = db₁ ∨ db' = db₁.updatePassword i (P.md5 request.newPassword))

/-- What was asked for is stored. -/
structure AllUpdated (request : Request) (i : UserId) (db : Database P) : Prop where
  username : request.newUsername ≠ [] →
    (db.byId i).map (·.username) = some request.newUsername
  password : request.newPassword ≠ [] →
    (db.byId i).map (·.passwordHash) = some (P.md5 request.newPassword)

theorem wp_changeUsername {i : UserId} {newUsername : Str}
    {Q : Option Response → World P → Prop}
    (refused : ∀ response : Response, response.code ≠ 0 → Q (some response) w)
    (kept : newUsername = [] → Q none w)
    (renamed : ∀ db, Renamed E newUsername i w.db db → Q none { w with db := db }) :
    wp E (UserManager.changeUsername i newUsername) Q w := by
  unfold UserManager.changeUsername
  refine wp_if kept fun hne => wp_if (fun _ => refused _ (by decide)) fun hvalid => ?_
  have hv : UserManager.validateUsername newUsername = true := by simpa using hvalid
  simp only [wp_bind, wp_checkUsernameExists, wp_ite, wp_updateUsername]
  refine ⟨fun hf => ⟨fun _ => refused _ (by decide), fun db hdb => ?_⟩, ?_⟩
  · exact renamed db ⟨hne, hv, fun hnf => absurd hf hnf, hdb⟩
  · split
    · exact refused _ (by decide)
    · rename_i hex
      refine ⟨fun _ => refused _ (by decide), fun db hdb => renamed db ⟨hne, hv, fun _ => ?_, hdb⟩⟩
      simpa using hex

theorem wp_changePassword {i : UserId} {newPassword : Str} {Q : Option Response → World P → Prop}
    (refused : ∀ response : Response, response.code ≠ 0 → Q (some response) w)
    (kept : newPassword = [] → Q none w)
    (changed : Q none { w with db := w.db.updatePassword i (P.md5 newPassword) }) :
    wp E (UserManager.changePassword P i newPassword) Q w := by
  unfold UserManager.changePassword
  refine wp_if kept fun _ => wp_if (fun _ => refused _ (by decide)) fun _ => ?_
  simp only [wp_bind, wp_updatePassword]
  exact ⟨fun _ => refused _ (by decide), changed⟩

/-- The second part of an update, in the database that the first part has left. -/
theorem wp_secondUpdate {request : Request} {Q : Response → World P → Prop} {r : UserRow}
    (db₁ : Database P)
    (updated : ∀ response db, UserUpdated E request r.userId w.db db →
      (response.code = 0 → AllUpdated request r.userId db) → Q response { w with db := db })
    (hdb₁ : db₁ = w.db ∨ Renamed E request.newUsername r.userId w.db db₁)
    (hname : request.newUsername ≠ [] →
      (db₁.byId r.userId).map (·.username) = some request.newUsername)
    (hrow : ∃ s, db₁.byId r.userId = some s) :
    wp E (do
      match ← UserManager.changePassword P r.userId request.newPassword with
      | some response => return response
      | none =>
        if request.newUsername = [] ∧ request.newPassword = [] then
          return ⟨1001, bytes "未修改任何信息", none⟩
        return ⟨0, bytes "修改成功", none⟩) Q { w with db := db₁ } := by
  obtain ⟨s, hs⟩ := hrow
  rw [wp_bind]
  apply wp_changePassword
  · exact fun response hcode =>
      updated response db₁ ⟨db₁, hdb₁, .inl rfl⟩ fun h => absurd h hcode
  · intro hkept
    dsimp only
    refine wp_if (fun _ => ?_) fun _ => ?_
    · exact updated _ db₁ ⟨db₁, hdb₁, .inl rfl⟩ fun h => absurd h (by decide)
    · exact updated _ db₁ ⟨db₁, hdb₁, .inl rfl⟩ fun _ =>
        ⟨hname, fun hne => absurd hkept hne⟩
  · dsimp only
    have hdone : AllUpdated request r.userId
        (db₁.updatePassword r.userId (P.md5 request.newPassword)) := by
      refine ⟨fun hne => ?_, fun _ => ?_⟩
      · rw [Database.byId_updatePassword, Option.map_map]
        exact hname hne
      · rw [Database.byId_updatePassword, hs]
        rfl
    refine wp_if (fun _ => ?_) fun _ => ?_
    · exact updated _ _ ⟨db₁, hdb₁, .inr rfl⟩ fun _ => hdone
    · exact updated _ _ ⟨db₁, hdb₁, .inr rfl⟩ fun _ => hdone

theorem wp_handleUpdateUser {request : Request} {Q : Response → World P → Prop}
    (refused : ∀ response, response.code ≠ 0 → Q response w)
    (updated : ∀ response r db, w.db.byName request.username = some r →
      P.md5 request.verifyPassword = r.passwordHash → UserUpdated E request r.userId w.db db →
      (response.code = 0 → AllUpdated request r.userId db) → Q response { w with db := db }) :
    wp E (UserManager.handleUpdateUser P request) Q w := by
  unfold UserManager.handleUpdateUser
  simp only [wp_bind, wp_getUserByUsername]
  refine ⟨fun _ => refused _ (by decide), ?_⟩
  cases hr : w.db.byName request.username with
  | none => exact refused _ (by decide)
  | some r =>
    simp only [Option.map_some]
    refine wp_if (fun _ => refused _ (by decide)) fun hmd5 => ?_
    have hpw : P.md5 request.verifyPassword = r.passwordHash := by simpa using hmd5
    have hrow := Database.byId_of_byName hr
    have second := fun db₁ => wp_secondUpdate (E := E) (w := w) (r := r) db₁
      fun response db => updated response r db hr hpw
    rw [wp_bind]
    apply wp_changeUsername
    · exact refused
    · exact fun hkept => second w.db (.inl rfl) (fun hne => absurd hkept hne) ⟨r, hrow⟩
    · intro db₁ hdb₁
      have hid := Database.byId_updateUsername hdb₁.2.2.2
      refine second db₁ (.inr hdb₁) (fun _ => ?_) ⟨_, hid.trans (by rw [hrow]; rfl)⟩
      rw [hid, hrow]
      rfl

/-! ## Login -/

/-- Only the row `i` of `users` changed, and of it neither name nor password. -/
structure OnlyUser (i : UserId) (db db' : Database P) : Prop where
  users : ∃ f : UserRow → UserRow, db'.users = db.users.map f ∧
    ∀ r, (f r).userId = r.userId ∧ (f r).username = r.username ∧
      (f r).passwordHash = r.passwordHash ∧ (r.userId ≠ i → f r = r)
  friends : db'.friends = db.friends
  messages : db'.messages = db.messages

theorem OnlyUser.refl (i : UserId) (db : Database P) : OnlyUser i db db :=
  ⟨⟨id, by simp⟩, rfl, rfl⟩

theorem OnlyUser.trans {i : UserId} {db db' db'' : Database P} (h : OnlyUser i db db')
    (h' : OnlyUser i db' db'') : OnlyUser i db db'' := by
  obtain ⟨f, hf, hf'⟩ := h.users
  obtain ⟨g, hg, hg'⟩ := h'.users
  refine ⟨⟨g ∘ f, ?_, fun r => ?_⟩, h'.friends.trans h.friends, h'.messages.trans h.messages⟩
  · rw [hg, hf, List.map_map]
  · obtain ⟨hid, hname, hpw, hsame⟩ := hf' r
    obtain ⟨gid, gname, gpw, gsame⟩ := hg' (f r)
    refine ⟨gid.trans hid, gname.trans hname, gpw.trans hpw, fun hr => ?_⟩
    rw [Function.comp_apply, hsame hr] at *
    exact gsame hr

theorem OnlyUser.setOnline (i : UserId) (b : Bool) (db : Database P) :
    OnlyUser i db (db.setOnlineWhere (fun u => u.userId = i) b) := by
  refine ⟨⟨_, rfl, fun r => ?_⟩, rfl, rfl⟩
  by_cases h : r.userId = i <;> simp [h]

theorem OnlyUser.updateLastLogin (i : UserId) (now : Nat) (db : Database P) :
    OnlyUser i db (db.updateLastLogin i now) := by
  refine ⟨⟨_, rfl, fun r => ?_⟩, rfl, rfl⟩
  by_cases h : r.userId = i <;> simp [h]

theorem OnlyUser.idOf {i : UserId} {db db' : Database P} (h : OnlyUser i db db') (u : Str) :
    db'.idOf u = db.idOf u := by
  obtain ⟨f, hf, hf'⟩ := h.users
  unfold Database.idOf
  rw [Database.byName_of_map hf fun r => (hf' r).2.1, Option.map_map]
  congr 1
  funext r
  exact (hf' r).1

/-- The flag of the row `i` is set. -/
def IsOnline (i : UserId) (db : Database P) : Prop := ∀ r ∈ db.users, r.userId = i → r.isOnline = true

/-- What the first half of a login did: somebody was kicked, or nobody. -/
structure Left (E : Env) (u : Str) (i : UserId) (kicks : Bool) (w w' : World P) : Prop where
  kicks_iff : ¬ E.dbFails → kicks = ((w.db.byId i).map (·.isOnline)).getD false
  db : OnlyUser i w.db w'.db
  logins : w'.sessions.logins = if kicks then w.sessions.logins.kick u else w.sessions.logins
  getSession : ∀ d, w'.sessions.getSession d = w.sessions.getSession d
  openSockets : w'.openSockets = w.openSockets
  trace : w.trace <+: w'.trace
  shutdown : kicks = true → ∀ d, w.sessions.logins.route u = some d →
    w.sessions.logins.login d ≠ none → Said (.shutdown d) w w'

theorem wp_kickOld {u : Str} {Q : Unit → World P → Prop}
    (nobody : w.sessions.getSessionByUsername u = none → Q () w)
    (somebody : ∀ p d w', w.sessions.getSessionByUsername u = some p →
      w.sessions.route u = some d → Talks w w' →
      Q () ({ w' with sessions := w'.sessions.setUsername p [] }.observe (.shutdown d))) :
    wp E (UserManager.kickOld u) Q w := by
  unfold UserManager.kickOld
  simp only [wp_bind, wp_getSessionByUsername]
  cases hp : w.sessions.getSessionByUsername u with
  | none => exact nobody hp
  | some p =>
    obtain ⟨s, hs, hroute, _⟩ := w.live_byUsername hp
    simp only [wp_bind, wp_getSocket hs]
    refine wp_say fun ok w' hw => ?_
    have hs' : w'.sessions.heap.lookup p = some s := by rw [hw.sessions]; exact hs
    simp only [wp_setUsername hs', wp_shutdown]
    exact somebody p s.socket w' hp hroute hw

theorem wp_leave {u : Str} {i : UserId} {Q : Unit → World P → Prop}
    (h : ∀ kicks w', Left E u i kicks w w' → Q () w') :
    wp E (UserManager.leave u i) Q w := by
  have stays : ∀ kicks, (¬ E.dbFails → kicks = ((w.db.byId i).map (·.isOnline)).getD false) →
      kicks = false → Q () w := by
    rintro kicks hk rfl
    exact h false w ⟨hk, .refl i _, rfl, fun _ => rfl, rfl, List.prefix_rfl, by simp⟩
  unfold UserManager.leave
  simp only [wp_bind, wp_getUserOnlineStatus, wp_ite]
  refine ⟨fun hf => ?_, ?_⟩
  · exact stays false (fun hnf => absurd hf hnf) rfl
  split
  · rename_i hon
    have hon' : ((w.db.byId i).map (·.isOnline)).getD false = true := hon
    -- the flag is on: whatever becomes of the update, the kick comes next
    have kick : ∀ db, OnlyUser i w.db db → wp E (UserManager.kickOld u) Q { w with db := db } := by
      intro db hdb
      apply wp_kickOld
      · intro hp
        refine h true _ ⟨fun _ => hon'.symm, hdb, ?_, fun _ => rfl, rfl, List.prefix_rfl, ?_⟩
        · exact (SessionManager.logins_kick_none hp).symm
        · intro _ d hr hd
          refine absurd (SessionManager.login_eq_none.mpr ?_) hd
          exact (SessionManager.getSessionByUsername_of_route hr).symm.trans hp
      · intro p d w' hp hr hw
        refine h true _ ⟨fun _ => hon'.symm, ?_, ?_, fun c => ?_, ?_, ?_, ?_⟩
        · exact hw.db ▸ hdb
        · show (w'.sessions.setUsername p []).logins = _
          rw [hw.sessions]
          exact SessionManager.logins_kick hp
        · show (w'.sessions.setUsername p []).getSession c = _
          rw [hw.sessions]
          exact SessionManager.getSession_setUsername _ _ _ _
        · obtain ⟨said, rfl⟩ := hw
          rfl
        · exact hw.trace.trans (List.prefix_append _ _)
        · intro _ c hc _
          rw [Option.some.inj (hc.symm.trans hr)]
          obtain ⟨said, rfl⟩ := hw
          exact ⟨said ++ [.shutdown d], by simp [World.observe], by simp⟩
    rw [wp_updateOnlineStatus]
    exact ⟨fun _ => kick _ (.refl i _), kick _ (.setOnline i false _)⟩
  · rename_i hoff
    exact stays _ (fun _ => rfl) (by simpa using hoff)

/-- What an accepted login did. -/
structure LoggedIn (E : Env) (c : Socket) (u : Str) (i : UserId) (kicks : Bool) (w w' : World P) :
    Prop where
  kicks_iff : ¬ E.dbFails → kicks = ((w.db.byId i).map (·.isOnline)).getD false
  db : OnlyUser i w.db w'.db
  isOnline : ¬ E.dbFails → IsOnline i w'.db
  logins : w'.sessions.logins = w.sessions.logins.signIn kicks c u
  getSession : ∀ d, w'.sessions.getSession d = w.sessions.getSession d
  openSockets : w'.openSockets = w.openSockets
  trace : w.trace <+: w'.trace
  shutdown : kicks = true → ∀ d, w.sessions.logins.route u = some d →
    w.sessions.logins.login d ≠ none → Said (.shutdown d) w w'

theorem isOnline_setOnline (i : UserId) (db : Database P) :
    IsOnline i (db.setOnlineWhere (fun u => u.userId = i) true) := by
  intro r hr hi
  obtain ⟨s, _, rfl⟩ := List.mem_map.mp hr
  by_cases h : s.userId = i <;> simp [h] at hi ⊢

theorem IsOnline.updateLastLogin {i : UserId} {db : Database P} (h : IsOnline i db) (j : UserId)
    (now : Nat) : IsOnline i (db.updateLastLogin j now) := by
  intro r hr hi
  obtain ⟨s, hs, rfl⟩ := List.mem_map.mp hr
  by_cases hj : s.userId = j
  · simp only [if_pos hj] at hi ⊢
    exact h s hs hi
  · simp only [if_neg hj] at hi ⊢
    exact h s hs hi

/-- What `enter` does to the session, whatever the statements before it have done: name and route are
set if the connection has a session, and otherwise the login leaves no trace there. -/
theorem wp_enterSession {c : Socket} {u : Str} (hu : u ≠ []) (db : Database P)
    {Q : Unit → World P → Prop}
    (h : ∀ w', w'.db = db → w'.sessions.logins = w.sessions.logins.enter c u →
      (∀ d, w'.sessions.getSession d = w.sessions.getSession d) →
      w'.openSockets = w.openSockets → w'.trace = w.trace → Q () w') :
    wp E (do
      match ← getSession c with
      | none => pure ()
      | some session => do
        setUsername session u
        bindUsername c u
        updateHeartbeat session) Q { w with db := db } := by
  simp only [wp_bind, wp_getSession]
  cases hp : w.sessions.getSession c with
  | none => exact h _ rfl (SessionManager.logins_enter_none hp).symm (fun _ => rfl) rfl rfl
  | some p =>
    obtain ⟨s, hs, hsc, _⟩ := SessionManager.heap_of_getSession hp
    simp only [wp_bind, wp_bindUsername]
    refine (wp_setUsername (by exact hs)).mpr ?_
    have hs' : ((w.sessions.setUsername p u).bindUsername c u).heap.lookup p =
        some { s with username := u } := by
      show (w.sessions.setUsername p u).heap.lookup p = _
      rw [SessionManager.setUsername, SessionManager.heap_modify, if_pos rfl, hs]
      rfl
    refine (wp_updateHeartbeat (by exact hs')).mpr fun now => ?_
    refine h _ rfl ?_ (fun d => ?_) rfl rfl
    · exact (SessionManager.logins_updateHeartbeat _ p now).trans
        (SessionManager.logins_enter hu hp)
    · exact (SessionManager.getSession_updateHeartbeat _ p now d).trans
        (SessionManager.getSession_setUsername _ p u d)

theorem wp_enter {c : Socket} {u : Str} {i : UserId} (hu : u ≠ []) {Q : Unit → World P → Prop}
    (h : ∀ w', OnlyUser i w.db w'.db → (¬ E.dbFails → IsOnline i w'.db) →
      w'.sessions.logins = w.sessions.logins.enter c u →
      (∀ d, w'.sessions.getSession d = w.sessions.getSession d) →
      w'.openSockets = w.openSockets → w'.trace = w.trace → Q () w') :
    wp E (UserManager.enter c u i) Q w := by
  have sessions := fun db (hdb : OnlyUser i w.db db) (hon : ¬ E.dbFails → IsOnline i db) =>
    wp_enterSession (E := E) (w := w) (c := c) hu db
      fun w' hw' => h w' (hw'.symm ▸ hdb) (hw'.symm ▸ hon)
  unfold UserManager.enter
  simp only [wp_bind, wp_updateOnlineStatus, wp_updateLastLoginTime]
  refine ⟨fun hf => ⟨fun _ => ?_, fun now => ?_⟩, fun hf => ?_, fun now => ?_⟩
  · exact sessions w.db (.refl i _) fun hnf => absurd hf hnf
  · exact sessions _ (.updateLastLogin i now _) fun hnf => absurd hf hnf
  · exact sessions _ (.setOnline i true _) fun hnf => absurd hf hnf
  · exact sessions _ ((OnlyUser.setOnline i true _).trans (.updateLastLogin i now _))
      fun _ => (isOnline_setOnline i _).updateLastLogin i now

theorem validateUsername_ne_nil {u : Str} (h : UserManager.validateUsername u = true) : u ≠ [] := by
  rintro rfl
  exact absurd h (by decide)

/-- The check a login has to pass, as a fact about the request and the users. -/
def Accepts (db : Database P) (request : Request) (r : UserRow) : Prop :=
  UserManager.validateUsername request.username = true ∧ db.byName request.username = some r ∧
    P.md5 request.password = r.passwordHash

/-- `HandleLogin`: refused, and then nothing has been done, and no account would have accepted the login
if no statement fails; or accepted, and then it has kicked, entered and told the friends, in this order. -/
theorem wp_handleLogin {request : Request} {Q : Response → World P → Prop}
    (refused : ∀ response, response.code ≠ 0 → (¬ E.dbFails → ∀ r, ¬ Accepts w.db request r) →
      Q response w)
    (accepted : ∀ r kicks w', Accepts w.db request r →
      LoggedIn E request.clientSocket request.username r.userId kicks w w' →
      Q UserManager.loginAccepted w') :
    wp E (UserManager.handleLogin P request) Q w := by
  unfold UserManager.handleLogin
  rw [wp_ite]
  split
  · rename_i hname
    exact refused _ (by decide) fun _ r hr => hname hr.1
  rename_i hname
  -- the account, the digest, and then the three things that an accepted login does
  have hv : UserManager.validateUsername request.username = true := by simpa using hname
  simp only [wp_bind, wp_getUserByUsername]
  refine ⟨fun hf => refused _ (by decide) fun hnf => absurd hf hnf, ?_⟩
  cases hr : w.db.byName request.username with
  | none => exact refused _ (by decide) fun _ r h => absurd (hr.symm.trans h.2.1) (by simp)
  | some r =>
    simp only [Option.map_some, wp_ite]
    split
    · rename_i hmd5
      refine refused _ (by decide) fun _ s h => hmd5 ?_
      rw [Option.some.inj (hr.symm.trans h.2.1)]
      exact h.2.2
    rename_i hmd5
    simp only [wp_bind]
    apply wp_leave
    intro kicks w₁ hleft
    apply wp_enter (validateUsername_ne_nil hv)
    intro w₂ hdb hon hlogins hsession hopen htrace
    apply wp_notify
    intro w₃ htalk
    refine accepted r kicks w₃ ⟨hv, hr, by simpa using hmd5⟩ ?_
    refine ⟨hleft.kicks_iff, ?_, ?_, ?_, fun d => ?_, ?_, ?_, ?_⟩
    · exact htalk.db ▸ hleft.db.trans hdb
    · exact htalk.db ▸ hon
    · rw [htalk.sessions, hlogins, hleft.logins]
      rfl
    · rw [htalk.sessions, hsession, hleft.getSession]
    · obtain ⟨said, rfl⟩ := htalk
      exact hopen.trans hleft.openSockets
    · exact hleft.trace.trans (htrace ▸ htalk.trace)
    · intro hk d hr hd
      exact (hleft.shutdown hk d hr hd).around List.prefix_rfl (htrace ▸ htalk.trace)

/-! ## Dispatch -/

/-- Nothing happened but talk and the passing of time: heartbeats may differ. -/
structure Quiet (w w' : World P) : Prop where
  db : w'.db = w.db
  logins : w'.sessions.logins = w.sessions.logins
  getSession : ∀ d, w'.sessions.getSession d = w.sessions.getSession d
  openSockets : w'.openSockets = w.openSockets
  trace : w.trace <+: w'.trace

theorem Quiet.refl (w : World P) : Quiet w w := ⟨rfl, rfl, fun _ => rfl, rfl, List.prefix_rfl⟩

theorem Quiet.trans (h : Quiet w w') (h' : Quiet w' w'') : Quiet w w'' :=
  ⟨h'.db.trans h.db, h'.logins.trans h.logins, fun d => (h'.getSession d).trans (h.getSession d),
    h'.openSockets.trans h.openSockets, h.trace.trans h'.trace⟩

theorem Quiet.of_talks (h : Talks w w') : Quiet w w' := by
  obtain ⟨said, rfl⟩ := h
  exact ⟨rfl, rfl, fun _ => rfl, rfl, List.prefix_append _ _⟩

/-- Time has passed for a session, no more than that. -/
structure Refreshed (w w' : World P) : Prop where
  loginAt : ∀ d, w'.sessions.loginAt d = w.sessions.loginAt d
  route : ∀ u, w'.sessions.route u = w.sessions.route u
  getSession : ∀ d, w'.sessions.getSession d = w.sessions.getSession d
  rest : ∃ sessions, w' = { w with sessions := sessions }

theorem Refreshed.refl (w : World P) : Refreshed w w :=
  ⟨fun _ => rfl, fun _ => rfl, fun _ => rfl, ⟨w.sessions, rfl⟩⟩

theorem Refreshed.logins (h : Refreshed w w') : w'.sessions.logins = w.sessions.logins :=
  SessionManager.logins_ext h.loginAt h.route

theorem Refreshed.db (h : Refreshed w w') : w'.db = w.db := by
  obtain ⟨sessions, rfl⟩ := h.rest
  rfl

theorem Refreshed.trace (h : Refreshed w w') : w'.trace = w.trace := by
  obtain ⟨sessions, rfl⟩ := h.rest
  rfl

theorem Refreshed.cachedFriendLists (h : Refreshed w w') :
    w'.cachedFriendLists = w.cachedFriendLists := by
  obtain ⟨sessions, rfl⟩ := h.rest
  rfl

theorem Refreshed.quiet (h : Refreshed w w') : Quiet w w' := by
  refine ⟨h.db, h.logins, h.getSession, ?_, h.trace ▸ List.prefix_rfl⟩
  obtain ⟨sessions, rfl⟩ := h.rest
  rfl

namespace Server

/-- The request that is served: the body's, made by whoever is logged in on the connection. -/
def identified (L : Logins Socket Str) (c : Socket) (request : Request) : Request :=
  match L.login c with
  | some (some username) => actingAs request username
  | _ => request

/-- The request that a body is, on a connection. -/
def requestOf (L : Logins Socket Str) (c : Socket) (garbage : Int) (root : Json) :
    Except JsonException Request := do
  let (type, node) ← header root
  let request ← readRequest type c garbage node
  return identified L c request

theorem wp_refresh {c : Socket} {Q : Unit → World P → Prop}
    (h : ∀ w', Refreshed w w' → Q () w') : wp E (refresh c) Q w := by
  unfold refresh
  simp only [wp_bind, wp_getSession]
  cases hp : w.sessions.getSession c with
  | none => exact h w (.refl w)
  | some p =>
    obtain ⟨s, hs, _⟩ := SessionManager.heap_of_getSession hp
    refine (wp_updateHeartbeat hs).mpr fun now => h _ ⟨fun d => ?_, fun u => ?_, fun d => ?_, ⟨_, rfl⟩⟩
    · exact SessionManager.loginAt_updateHeartbeat _ p now d
    · exact SessionManager.route_updateHeartbeat _ p now u
    · exact SessionManager.getSession_updateHeartbeat _ p now d

theorem wp_identify {c : Socket} {request : Request} {Q : Request → World P → Prop}
    (h : Q (identified w.sessions.logins c request) w) : wp E (identify c request) Q w := by
  unfold identified SessionManager.logins at h
  dsimp only at h
  unfold identify
  simp only [wp_bind, wp_getSession]
  cases hp : w.sessions.getSession c with
  | none =>
    rw [SessionManager.getSession_eq_none.mp hp] at h
    exact h
  | some p =>
    obtain ⟨s, hs, _, hl⟩ := SessionManager.heap_of_getSession hp
    rw [hl] at h
    simp only [wp_bind, wp_getUsername hs]
    by_cases hu : s.username = []
    · simpa [hu] using h
    · simp only [if_neg hu, wp_bind, wp_getUsername hs]
      simpa [hu] using h

/-- `requestOf`, taken apart where the code stops in between. -/
theorem requestOf_eq (L : Logins Socket Str) (c : Socket) (garbage : Int) (root : Json) :
    requestOf L c garbage root =
      match header root with
      | .error e => .error e
      | .ok (type, node) =>
        match readRequest type c garbage node with
        | .error e => .error e
        | .ok request => .ok (identified L c request) := by
  unfold requestOf
  cases header root with
  | error e => rfl
  | ok r =>
    obtain ⟨type, node⟩ := r
    show (readRequest type c garbage node >>= fun request => _) = _
    cases hr : readRequest type c garbage node <;> simp only [hr] <;> rfl

theorem readRequest_clientSocket {type : Str} {c : Socket} {garbage : Int} {node : Json}
    {request : Request} (h : readRequest type c garbage node = .ok request) :
    request.clientSocket = c := by
  unfold readRequest at h
  simp only [bind, Except.bind, pure, Except.pure] at h
  repeat' split at h
  all_goals cases h
  rfl

theorem readRequest_type {type : Str} {c : Socket} {garbage : Int} {node : Json}
    {request : Request} (h : readRequest type c garbage node = .ok request) :
    request.type = type := by
  unfold readRequest at h
  simp only [bind, Except.bind, pure, Except.pure] at h
  repeat' split at h
  all_goals cases h
  rfl

/-- The type of a request is the one that its header names. -/
theorem requestOf_type {L : Logins Socket Str} {c : Socket} {garbage : Int} {root node : Json}
    {type : Str} {request : Request} (hheader : header root = .ok (type, node))
    (h : requestOf L c garbage root = .ok request) : request.type = type := by
  rw [requestOf_eq, hheader] at h
  dsimp only at h
  split at h
  · cases h
  · rename_i r hr
    have htype := readRequest_type hr
    rw [← Except.ok.inj h]
    unfold identified
    split
    · exact htype
    · exact htype

theorem requestOf_clientSocket {L : Logins Socket Str} {c : Socket} {garbage : Int} {root : Json}
    {request : Request} (h : requestOf L c garbage root = .ok request) :
    request.clientSocket = c := by
  rw [requestOf_eq] at h
  split at h
  · cases h
  split at h
  · cases h
  · rename_i r hr
    have hc := readRequest_clientSocket hr
    rw [← Except.ok.inj h]
    unfold identified
    split
    · exact hc
    · exact hc

theorem countField_garbage {node : Json} {g n : Int} (h : countField node g = .ok n) (g' : Int) :
    ∃ n', countField node g' = .ok n' := by
  unfold countField at h ⊢
  simp only [bind, Except.bind] at h ⊢
  cases hm : node.isMember (bytes "count") with
  | error e =>
    rw [hm] at h
    cases h
  | ok b =>
    rw [hm] at h
    cases b with
    | true => exact ⟨n, h⟩
    | false => exact ⟨g', rfl⟩

theorem readRequest_garbage {type : Str} {c : Socket} {g : Int} {node : Json} {request : Request}
    (h : readRequest type c g node = .ok request) (g' : Int) :
    ∃ n, readRequest type c g' node = .ok { request with count := n } := by
  unfold readRequest at h ⊢
  simp only [bind, Except.bind, pure, Except.pure] at h ⊢
  repeat' split at h
  all_goals cases h
  rename_i hcount
  obtain ⟨n', hn'⟩ := countField_garbage hcount g'
  exact ⟨n', by simp only [*]⟩

/-- What memory held before decides nothing but the count: whether the request can be read, its type and
its names do not depend on it. -/
theorem requestOf_garbage {L : Logins Socket Str} {c : Socket} {g : Int} {root : Json}
    {request : Request} (h : requestOf L c g root = .ok request) (g' : Int) :
    ∃ n, requestOf L c g' root = .ok { request with count := n } := by
  rw [requestOf_eq] at h ⊢
  cases hh : header root with
  | error e =>
    rw [hh] at h
    cases h
  | ok r =>
    obtain ⟨type, node⟩ := r
    rw [hh] at h
    dsimp only at h ⊢
    split at h
    · cases h
    · rename_i request₀ hr
      obtain ⟨n, hn⟩ := readRequest_garbage hr g'
      obtain rfl := Except.ok.inj h
      refine ⟨n, ?_⟩
      rw [hn]
      unfold identified
      dsimp only
      split <;> rfl

theorem refresh_unwritten (c : Socket) : (refresh c).Uses Op.Unwritten := by
  refine .bind (uses_op trivial) fun q => ?_
  cases q with
  | none => trivial
  | some q => exact uses_op trivial

theorem identify_unwritten (c : Socket) (request : Request) :
    (identify c request).Uses Op.Unwritten := by
  refine .bind (uses_op trivial) fun q => ?_
  cases q with
  | none => trivial
  | some q =>
    exact .bind (uses_op trivial) fun _ => uses_ite trivial (.bind (uses_op trivial) fun _ => trivial)

/-- `DispatchRequest`: the body is no JSON, or an exception escapes, or the request is served and
answered. Only serving writes. -/
theorem wpj_dispatchRequest {c : Socket} {parsed : Option Json}
    {Q : Except JsonException (Option (Request × Response)) → List (Stmt × Bool) → World P → Prop}
    (malformed : parsed = none → wp E (sendData c parseError) (fun _ => Q (.ok none) []) w)
    (thrown : ∀ e root garbage w', parsed = some root →
      requestOf w.sessions.logins c garbage root = .error e → Refreshed w w' → Q (.error e) [] w')
    (served : ∀ root garbage request w₁, parsed = some root →
      requestOf w.sessions.logins c garbage root = .ok request → Refreshed w w₁ →
      wpj E (serve P request) (fun response l =>
        wp E (sendData c (responseFrame request.type response))
          fun _ => Q (.ok (some (request, response))) l) w₁) :
    wpj E (dispatchRequest P c parsed) Q w := by
  have say : ∀ frame, (sendData c frame).Uses Op.Unwritten := fun _ => uses_op trivial
  unfold dispatchRequest
  cases parsed with
  | none => exact (wpj_bind _ _).mpr (wpj_silent (say _) (malformed rfl))
  | some root =>
    have hreq := fun garbage => requestOf_eq w.sessions.logins c garbage root
    cases hh : header root with
    | error e =>
      simp only [hh] at hreq ⊢
      exact thrown e root 0 w rfl (hreq 0) (.refl w)
    | ok r =>
      obtain ⟨type, node⟩ := r
      simp only [hh] at hreq ⊢
      -- from here on the heartbeat is set, and the count is whatever memory held
      refine (wpj_bind _ _).mpr (wpj_silent (refresh_unwritten c) (wp_refresh fun w₁ hw₁ => ?_))
      refine (wpj_bind _ _).mpr (wpj_silent (uses_op trivial) (wp_uninitialised.mpr fun garbage => ?_))
      have hreq := hreq garbage
      cases hr : readRequest type c garbage node with
      | error e =>
        simp only [hr] at hreq ⊢
        exact thrown e root garbage w₁ rfl hreq hw₁
      | ok request =>
        simp only [hr] at hreq ⊢
        refine (wpj_bind _ _).mpr (wpj_silent (identify_unwritten c request) (wp_identify ?_))
        rw [hw₁.logins]
        refine (wpj_bind _ _).mpr (wpj_mono (served root garbage _ w₁ rfl hreq hw₁)
          fun response l w₂ h₂ => (wpj_bind _ _).mpr (wpj_silent (say _) ?_))
        rw [requestOf_type hh hreq] at h₂
        simp only [wpj_pure, List.nil_append, List.append_nil]
        exact h₂

theorem wp_dispatchRequest_speaks {c : Socket} {parsed : Option Json}
    {Q : Except JsonException (Option (Request × Response)) → World P → Prop}
    (malformed : parsed = none → wp E (sendData c parseError) (fun _ => Q (.ok none)) w)
    (thrown : ∀ e root garbage w', parsed = some root →
      requestOf w.sessions.logins c garbage root = .error e → Refreshed w w' → Q (.error e) w')
    (served : ∀ root garbage request w₁, parsed = some root →
      requestOf w.sessions.logins c garbage root = .ok request → Refreshed w w₁ →
      wp E (serve P request) (fun response => wp E (sendData c (responseFrame request.type response))
        fun _ => Q (.ok (some (request, response)))) w₁) :
    wp E (dispatchRequest P c parsed) Q w :=
  wp_of_wpj (wpj_dispatchRequest malformed thrown fun root garbage request w₁ hroot hrequest hw₁ =>
    wpj_of_wp (served root garbage request w₁ hroot hrequest hw₁))

theorem wp_dispatchRequest {c : Socket} {parsed : Option Json}
    {Q : Except JsonException (Option (Request × Response)) → World P → Prop}
    (malformed : parsed = none → ∀ w', Quiet w w' → Q (.ok none) w')
    (thrown : ∀ e root garbage w', parsed = some root →
      requestOf w.sessions.logins c garbage root = .error e → Quiet w w' → Q (.error e) w')
    (served : ∀ root garbage request w₁, parsed = some root →
      requestOf w.sessions.logins c garbage root = .ok request → Quiet w w₁ →
      wp E (serve P request) (fun response w₂ => ∀ w₃, Talks w₂ w₃ →
        Q (.ok (some (request, response))) w₃) w₁) :
    wp E (dispatchRequest P c parsed) Q w := by
  apply wp_dispatchRequest_speaks
  · exact fun hnone => wp_say fun _ w' hw => malformed hnone w' (.of_talks hw)
  · exact fun e root garbage w' hroot herror hw => thrown e root garbage w' hroot herror hw.quiet
  · intro root garbage request w₁ hroot hrequest hw₁
    refine wp_mono (served root garbage request w₁ hroot hrequest hw₁.quiet) fun response w₂ h₂ => ?_
    exact wp_say fun _ w₃ hw₃ => h₂ w₃ hw₃

end Server

end LiteChat
