import LiteChat.Proof.Routing

/-!
# What a response with code 0 stands for

Four of the six requests that write answer 0 only if every statement went through. Two do not look
at one of theirs: `HandleLogin` at the flag it sets, `HandleDeleteFriend` at the deletion of the
messages. For these the journal of the run says exactly when the code keeps its promise.

What a request has written is in the journal of its statements, with whether each went through. A
failure is unreported if the handler ignores the result of that statement (`NothingLost` names them):
the flag that a login sets, and the messages that a `DEL_FRIEND` deletes. Of all other statements a
failure is an answer, so `Reported` says it of them once.
-/

namespace LiteChat

open LiteChat.Action Server UserManager

variable {P : Platform} {E : Env} {w w' : World P}

/-! ## The journal of a login -/

theorem kickOld_unwritten (u : Str) : (kickOld u).Uses Op.Unwritten := by
  refine .bind (uses_op trivial) fun q => ?_
  cases q with
  | none => trivial
  | some q =>
    exact .bind (uses_op trivial) fun c => .bind (uses_op trivial) fun _ =>
      .bind (uses_op trivial) fun _ => uses_op trivial

theorem cacheFriendList_unwritten (u : Str) :
    (FriendManager.cacheFriendList u).Uses Op.Unwritten := by
  refine .bind (uses_caught (by exact rfl) _ _) fun r => ?_
  cases r with
  | none => trivial
  | some i =>
    refine .bind (uses_caught (by exact rfl) _ _) fun r => ?_
    cases r with
    | none => trivial
    | some friends => exact uses_op trivial

/-- The flag of the row that the name selects. -/
abbrev Database.flag (db : Database P) (u : Str) : Option Bool := (db.byName u).map (·.isOnline)

/-- A flag that is written by number. -/
theorem Database.flag_setOnline {db : Database P} {u : Str} {r : UserRow}
    (hr : db.byName u = some r) (isOnline : Bool) :
    (db.setOnlineWhere (fun s => s.userId = r.userId) isOnline).flag u = some isOnline := by
  unfold flag
  rw [flag_setOnlineWhere, hr]
  simp

/-- The row that the name selects stays the same, but for its flag. -/
theorem Database.byName_setOnline {db : Database P} {u : Str} {r : UserRow}
    (hr : db.byName u = some r) (isOnline : Bool) : ∃ r',
    (db.setOnlineWhere (fun s => s.userId = r.userId) isOnline).byName u = some r' ∧
      r'.userId = r.userId ∧ r'.isOnline = isOnline := by
  unfold setOnlineWhere
  rw [byName_mapUsers, hr]
  exact ⟨{ r with isOnline := isOnline }, by simp, rfl, rfl⟩

/-- The first half of a login may clear the flag. -/
theorem wpj_leave {u : Str} {r : UserRow} {Q : Unit → List (Stmt × Bool) → World P → Prop}
    (hr : w.db.byName u = some r)
    (h : ∀ (off : Option Bool) r' w', w'.db.byName u = some r' → r'.userId = r.userId →
      (r'.isOnline = true ↔ r.isOnline = true ∧ off ≠ some true) →
      Q () (off.toList.map (.updateOnline r.userId false, ·)) w') :
    wpj E (leave u r.userId) Q w := by
  have stays : Q () [] w := h none r w hr rfl (by simp)
  unfold leave
  refine (wpj_bind _ _).mpr (wpj_reads (reads_caught rfl _ _) (wp_getUserOnlineStatus.mpr ?_))
  refine ⟨fun _ => wpj_if (fun hne => absurd hne (by decide)) fun _ => stays, ?_⟩
  refine wpj_if (fun _ => ?_) fun _ => stays
  refine (wpj_bind _ _).mpr (wpj_write rfl (wp_updateOnlineStatus.mpr ⟨fun _ => ?_, ?_⟩))
  · refine wpj_unwritten (kickOld_unwritten u) fun _ w' hdb => ?_
    refine h (some false) r w' ?_ rfl (by simp)
    rw [hdb, hr]
  · obtain ⟨r', hr', hid, hoff⟩ := Database.byName_setOnline hr false
    refine wpj_unwritten (kickOld_unwritten u) fun _ w' hdb => ?_
    refine h (some true) r' w' ?_ hid (by simp [hoff])
    rw [hdb, hr']

theorem enterSession_unwritten (c : Socket) (u : Str) : (do
    match ← getSession c with
    | none => pure ()
    | some session => do
      setUsername session u
      bindUsername c u
      updateHeartbeat session : Action Unit).Uses Op.Unwritten := by
  refine .bind (uses_op trivial) fun q => ?_
  cases q with
  | none => trivial
  | some q => exact .bind (uses_op trivial) fun _ => .bind (uses_op trivial) fun _ => uses_op trivial

/-- What is left of a login when the flag has been set, or not. -/
theorem wpj_enterLogin {c : Socket} {u : Str} {i : UserId} {on : Bool} {db : Database P}
    {flag : Option Bool} {Q : Unit → List (Stmt × Bool) → World P → Prop} (hflag : db.flag u = flag)
    (h : ∀ seen w', w'.db.flag u = flag →
      Q () [(.updateOnline i true, on), (.updateLastLogin i, seen)] w') :
    wpj E (do
      let _ ← UserDAO.updateLastLoginTime i
      match ← getSession c with
      | none => pure ()
      | some session => do
        setUsername session u
        bindUsername c u
        updateHeartbeat session) (fun _ l w' => Q () ((.updateOnline i true, on) :: l) w')
      { w with db := db } := by
  refine (wpj_bind _ _).mpr (wpj_write rfl (wp_updateLastLoginTime.mpr ⟨fun _ => ?_, fun now => ?_⟩))
  · refine wpj_unwritten (enterSession_unwritten c u) fun _ w' hdb => h false w' ?_
    rw [hdb, hflag]
  · refine wpj_unwritten (enterSession_unwritten c u) fun _ w' hdb => h true w' ?_
    rw [hdb]
    exact (Database.flag_updateLastLogin _ _ _).trans hflag

/-- The second half sets it, or fails to. -/
theorem wpj_enter {c : Socket} {u : Str} {r : UserRow}
    {Q : Unit → List (Stmt × Bool) → World P → Prop} (hr : w.db.byName u = some r)
    (h : ∀ on seen w', w'.db.flag u = some (on || r.isOnline) →
      Q () [(.updateOnline r.userId true, on), (.updateLastLogin r.userId, seen)] w') :
    wpj E (enter c u r.userId) Q w := by
  unfold enter
  refine (wpj_bind _ _).mpr (wpj_write rfl (wp_updateOnlineStatus.mpr ⟨fun _ => ?_, ?_⟩))
  · exact wpj_enterLogin (by rw [Database.flag, hr]; rfl) (h false)
  · exact wpj_enterLogin (Database.flag_setOnline hr true) (h true)

/-- Neither of the statements whose failure the client is not told about has been tried. -/
def Reported (l : List (Stmt × Bool)) : Prop :=
  ∀ e ∈ l, (∀ i isOnline, e.1 ≠ .updateOnline i isOnline) ∧ ∀ i j, e.1 ≠ .deleteMessages i j

/-- What an accepted login has written, and whether its flag is set then: the flag is cleared first, if
the account was online, and set afterwards, and either statement may fail. -/
theorem wpj_serveLogin {request : Request} {Q : Response → List (Stmt × Bool) → World P → Prop}
    (refused : ∀ response, response.code ≠ 0 → Q response [] w)
    (accepted : ∀ r (off : Option Bool) on l w', w.db.byName request.username = some r →
      w'.db.flag request.username = some (on || (r.isOnline && off != some true)) →
      Reported l → Q loginAccepted (off.toList.map (.updateOnline r.userId false, ·) ++
        (.updateOnline r.userId true, on) :: l) w') :
    wpj E (serveLogin P request) Q w := by
  have refuse : ∀ response : Response, response.code ≠ 0 → wpj E (do
      if response.code = 0 then
        FriendManager.cacheFriendList request.username
        MessageManager.pushOfflineMessages request.username
      return response) Q w := fun response hcode =>
    wpj_if (fun h => absurd h hcode) fun _ => refused response hcode
  unfold serveLogin
  rw [wpj_bind]
  unfold handleLogin
  refine wpj_if (fun _ => refuse _ (by decide)) fun _ => ?_
  refine (wpj_bind _ _).mpr (wpj_reads (reads_caught rfl _ _) (wp_getUserByUsername.mpr ?_))
  refine ⟨fun _ => refuse _ (by decide), ?_⟩
  cases hr : w.db.byName request.username with
  | none => exact refuse _ (by decide)
  | some r =>
    refine wpj_if (fun _ => refuse _ (by decide)) fun _ => ?_
    refine (wpj_bind _ _).mpr (wpj_leave hr fun off r₁ w₁ hr₁ hid hoff => ?_)
    rw [← hid]
    refine (wpj_bind _ _).mpr (wpj_enter hr₁ fun on seen w₂ hflag => ?_)
    rw [hid]
    have hflag₂ : w₂.db.flag request.username = some (on || (r.isOnline && off != some true)) := by
      rw [hflag]
      congr 2
      rw [Bool.eq_iff_iff, hoff]
      simp
    refine (wpj_bind _ _).mpr (wpj_unwritten ((notify_reads _ _).mono fun _ => Op.Reads.unwritten)
      fun _ w₃ h₃ => ?_)
    refine (wpj_pure _).mpr (wpj_if (fun _ => ?_) fun hne => absurd rfl hne)
    refine (wpj_bind _ _).mpr (wpj_unwritten (cacheFriendList_unwritten _) fun _ w₄ h₄ => ?_)
    refine (wpj_bind _ _).mpr (wpj_writesOnly (pushOfflineMessages_marks _)
      (wp_mono (wp_pushOfflineMessages _) fun _ w₅ h₅ l hl => ?_))
    have hflag₅ : w₅.db.flag request.username = some (on || (r.isOnline && off != some true)) := by
      unfold Database.flag
      rw [h₅.byName, h₄, h₃]
      exact hflag₂
    -- the time of the login and the marks of the push are no promise of the answer
    have hlast : Reported ((.updateLastLogin r.userId, seen) :: l) := by
      intro e he
      rcases List.mem_cons.mp he with rfl | he
      · exact ⟨nofun, nofun⟩
      · obtain ⟨a, b, hmark⟩ := hl e he
        rw [hmark]
        exact ⟨nofun, nofun⟩
    have hdone := accepted r off on ((.updateLastLogin r.userId, seen) :: l) w₅ hr hflag₅ hlast
    simpa using hdone

/-! ## The promise of a code -/

/-- What a request that writes stands for has taken effect. -/
def IsDone (w w' : World P) (request : Request) : Prop :=
  if request.type = bytes "REGISTER" then
    ∃ r ∈ w'.db.users, r.userId = w.db.nextUserId ∧ r.username = request.username ∧
      r.passwordHash = P.md5 request.password
  else if request.type = bytes "LOGIN" then w'.db.flag request.username = some true
  else if request.type = bytes "UPDATE_USER" then
    ∃ i, w.db.idOf request.username = some i ∧ AllUpdated request i w'.db
  else if request.type = bytes "ADD_FRIEND" then
    ∃ i j, w.db.idOf request.username = some i ∧
      w.db.idOf (FriendManager.targetOf request) = some j ∧ ⟨i, j⟩ ∈ w'.db.friends
  else if request.type = bytes "DEL_FRIEND" then
    ∃ i j, w.db.idOf request.username = some i ∧
      w.db.idOf (FriendManager.targetOf request) = some j ∧ ⟨i, j⟩ ∉ w'.db.friends ∧
      ∀ m ∈ w'.db.messages, ¬ Database.MessageRow.between m i j
  else if request.type = bytes "SEND_MSG" then
    ∃ i j, w.db.idOf request.username = some i ∧ w.db.idOf request.targetUsername = some j ∧
      ∃ m ∈ w'.db.messages, m.messageId = w.db.nextMessageId ∧ m.senderId = i ∧ m.receiverId = j ∧
        m.content = request.content
  else True

/-- No failure goes unreported: the flag of a login is set, or it was before and has not been
cleared; and the messages of an ended friendship are deleted, or there were none. -/
structure NothingLost (w : World P) (l : List (Stmt × Bool)) : Prop where
  flag : ∀ i, (.updateOnline i true, false) ∈ l →
    (w.db.byId i).map (·.isOnline) = some true ∧ (.updateOnline i false, true) ∉ l
  messages : ∀ i j, (.deleteMessages i j, false) ∈ l → ∀ m ∈ w.db.messages,
    ¬ Database.MessageRow.between m i j

/-- Other statements report their failure. -/
theorem NothingLost.of_reported {l : List (Stmt × Bool)}
    (h : Reported l) : NothingLost w l :=
  ⟨fun i hmem => absurd rfl ((h _ hmem).1 i true), fun i j hmem => absurd rfl ((h _ hmem).2 i j)⟩

/-- The promise is kept, and nothing was lost on the way. -/
theorem done_of_reported {l : List (Stmt × Bool)} {request : Request} {response : Response}
    (hdone : response.code = 0 → IsDone w w' request)
    (hl : Reported l) :
    (response.code = 0 → IsDone w w' request) ↔ NothingLost w l :=
  iff_of_true hdone (.of_reported hl)

theorem wpj_register_done {request : Request} (htype : request.type = bytes "REGISTER") :
    wpj E (handleRegister P request)
      (fun response l w' => (response.code = 0 → IsDone w w' request) ↔ NothingLost w l) w := by
  have reported : ∀ l : List (Stmt × Bool), (∀ e ∈ l, ∃ u h, e.1 = .insertUser u h) → Reported l := by
    intro l hl e he
    obtain ⟨u, h, hst⟩ := hl e he
    rw [hst]
    exact ⟨nofun, nofun⟩
  refine wpj_writesOnly (handleRegister_writes request) (wp_handleRegister ?_ ?_)
  · exact fun response hcode l hl => done_of_reported (fun h => absurd h hcode) (reported l hl)
  · intro db _ hinsert l hl
    refine done_of_reported (fun _ => ?_) (reported l hl)
    unfold IsDone
    rw [if_pos htype, (Database.users_of_insertUser hinsert).2]
    exact ⟨_, List.mem_append_right _ (List.mem_singleton_self _), rfl, rfl, rfl⟩

/-- A login that is answered 0 has set the flag, exactly if the statement that sets it went through, or
the flag was set and the statement that clears it did not. -/
theorem wpj_login_done {request : Request} (hregister : request.type ≠ bytes "REGISTER")
    (htype : request.type = bytes "LOGIN") : wpj E (serveLogin P request)
      (fun response l w' => (response.code = 0 → IsDone w w' request) ↔ NothingLost w l) w := by
  refine wpj_serveLogin (fun response hcode => ?_) fun r off on l w' hr hflag hl => ?_
  · exact done_of_reported (fun h => absurd h hcode) nofun
  unfold IsDone
  rw [if_neg hregister, if_pos htype, hflag]
  have hrow : (w.db.byId r.userId).map (·.isOnline) = some r.isOnline := by
    rw [Database.byId_of_byName hr]
    rfl
  -- the two writes of the flag, and nothing else of the kind
  have hset : ∀ i, (.updateOnline i true, false) ∈ off.toList.map (.updateOnline r.userId false, ·) ++
      (.updateOnline r.userId true, on) :: l ↔ i = r.userId ∧ on = false := by
    intro i
    have hnot : (Stmt.updateOnline i true, false) ∉ l := fun hmem => (hl _ hmem).1 i true rfl
    simp [hnot, eq_comm]
  have hcleared : (.updateOnline r.userId false, true) ∈
      off.toList.map (.updateOnline r.userId false, ·) ++ (.updateOnline r.userId true, on) :: l ↔
        off = some true := by
    have hnot : (Stmt.updateOnline r.userId false, true) ∉ l := fun hmem => (hl _ hmem).1 _ false rfl
    simp [hnot]
  constructor
  · intro h
    have hflag := h rfl
    refine ⟨fun i hmem => ?_, fun i j hmem => ?_⟩
    · obtain ⟨rfl, rfl⟩ := (hset i).mp hmem
      rw [hrow, hcleared]
      simpa using hflag
    · have hnot : (Stmt.deleteMessages i j, false) ∉ l := fun hmem => (hl _ hmem).2 i j rfl
      simp [hnot] at hmem
  · intro h _
    cases on with
    | true => rfl
    | false =>
      obtain ⟨honline, hkept⟩ := h.flag r.userId ((hset _).mpr ⟨rfl, rfl⟩)
      rw [hrow] at honline
      rw [hcleared] at hkept
      simpa using ⟨Option.some.inj honline, hkept⟩

theorem wpj_updateUser_done {request : Request} (hregister : request.type ≠ bytes "REGISTER")
    (hlogin : request.type ≠ bytes "LOGIN") (htype : request.type = bytes "UPDATE_USER") :
    wpj E (handleUpdateUser P request)
      (fun response l w' => (response.code = 0 → IsDone w w' request) ↔ NothingLost w l) w := by
  have reported : ∀ l : List (Stmt × Bool), (∀ e ∈ l, e.1.Updates) → Reported l := by
    intro l hl e he
    rcases hl e he with ⟨i, u, hst⟩ | ⟨i, h, hst⟩
    · rw [hst]
      exact ⟨nofun, nofun⟩
    · rw [hst]
      exact ⟨nofun, nofun⟩
  refine wpj_writesOnly (handleUpdateUser_writes request) (wp_handleUpdateUser ?_ ?_)
  · exact fun response hcode l hl => done_of_reported (fun h => absurd h hcode) (reported l hl)
  · intro response r db hr _ _ hall l hl
    refine done_of_reported (fun hcode => ?_) (reported l hl)
    unfold IsDone
    rw [if_neg hregister, if_neg hlogin, if_pos htype]
    refine ⟨r.userId, ?_, hall hcode⟩
    unfold Database.idOf
    rw [hr]
    rfl

/-- The row of a message that was just stored is there, read or not. -/
theorem Forwards.stored {i j : UserId} {u v content : Str} {now : Nat} {db : Database P}
    {said : List Obs} (hinsert : w.db.insertMessage now i j content = some db)
    (h : Forwards i j u v content { w with db := db } said w') : ∃ m ∈ w'.db.messages,
      m.messageId = w.db.nextMessageId ∧ m.senderId = i ∧ m.receiverId = j ∧ m.content = content := by
  have hnew : ⟨w.db.nextMessageId, i, j, content, now, false⟩ ∈ db.messages := by
    rw [(Database.tables_of_insertMessage hinsert).1]
    exact List.mem_append_right _ (List.mem_singleton_self _)
  rcases h.db with hdb | ⟨hdb, _⟩
  · refine ⟨⟨w.db.nextMessageId, i, j, content, now, false⟩, ?_, rfl, rfl, rfl, rfl⟩
    rw [hdb]
    exact hnew
  · refine ⟨Database.readRow i j ⟨w.db.nextMessageId, i, j, content, now, false⟩, ?_, ?_⟩
    · rw [hdb]
      exact List.mem_map_of_mem hnew
    · unfold Database.readRow
      rw [if_pos ⟨rfl, rfl⟩]
      exact ⟨rfl, rfl, rfl, rfl⟩

/-- A `DEL_FRIEND` that is answered 0 has ended the friendship, and has deleted the messages exactly if
the statement that deletes them went through, or there were none. -/
theorem wpj_deleteFriend_done {request : Request} (hregister : request.type ≠ bytes "REGISTER")
    (hlogin : request.type ≠ bytes "LOGIN") (hupdate : request.type ≠ bytes "UPDATE_USER")
    (hadd : request.type ≠ bytes "ADD_FRIEND") (htype : request.type = bytes "DEL_FRIEND") :
    wpj E (FriendManager.handleDeleteFriend request)
      (fun response l w' => (response.code = 0 → IsDone w w' request) ↔ NothingLost w l) w := by
  refine wpj_handleDeleteFriend (fun response l hcode hl => ?_) fun i j ok db hi hj hdb => ?_
  · refine done_of_reported (fun h => absurd h hcode) fun e he => ?_
    obtain ⟨a, b, hst⟩ := (hl e he).1
    rw [hst]
    exact ⟨nofun, nofun⟩
  have hfriend : ⟨i, j⟩ ∉ db.friends := by
    cases ok <;> subst hdb <;> simp [Database.deleteFriend, Database.deleteMessagesBetween]
  -- the row is gone in any case, so what is left of the promise is about the messages
  have hdone : IsDone w { w with db := db } request ↔
      ∀ m ∈ db.messages, ¬ Database.MessageRow.between m i j := by
    unfold IsDone
    rw [if_neg hregister, if_neg hlogin, if_neg hupdate, if_neg hadd, if_pos htype]
    refine ⟨?_, fun hm => ⟨i, j, hi, hj, hfriend, hm⟩⟩
    rintro ⟨i', j', hi', hj', _, hm⟩
    obtain rfl := Option.some.inj (hi.symm.trans hi')
    obtain rfl := Option.some.inj (hj.symm.trans hj')
    exact hm
  cases ok with
  | true =>
    refine iff_of_true (fun _ => hdone.mpr ?_) ⟨fun i' hmem => by simp at hmem, fun i' j' hmem => ?_⟩
    · subst hdb
      simp [Database.deleteMessagesBetween]
    · simp at hmem
  | false =>
    subst hdb
    constructor
    · intro h
      have hnone := hdone.mp (h rfl)
      refine ⟨fun i' hmem => by simp at hmem, fun i' j' hmem => ?_⟩
      obtain ⟨rfl, rfl⟩ : i' = i ∧ j' = j := by simpa using hmem
      exact hnone
    · exact fun h _ => hdone.mpr (h.messages i j (by simp))

/-- Any request: those that only read promise nothing that a failure could break, and of the six others
each has been dealt with. -/
theorem wpj_serve_done (request : Request) : wpj E (serve P request)
    (fun response l w' => (response.code = 0 → IsDone w w' request) ↔ NothingLost w l) w := by
  -- a request that writes nothing loses nothing, and promises nothing
  have reads : ∀ {p : Action Response}, p.Uses Op.Reads → request.type ∉ [bytes "REGISTER",
      bytes "LOGIN", bytes "UPDATE_USER", bytes "ADD_FRIEND", bytes "DEL_FRIEND", bytes "SEND_MSG"] →
      wpj E p (fun response l w' => (response.code = 0 → IsDone w w' request) ↔ NothingLost w l) w := by
    intro p hp htype
    simp only [List.mem_cons, List.not_mem_nil, or_false, not_or] at htype
    obtain ⟨h₁, h₂, h₃, h₄, h₅, h₆⟩ := htype
    refine wpj_unwritten (hp.mono fun _ => Op.Reads.unwritten) fun response w' _ => ?_
    refine done_of_reported (fun _ => ?_) nofun
    unfold IsDone
    rw [if_neg h₁, if_neg h₂, if_neg h₃, if_neg h₄, if_neg h₅, if_neg h₆]
    trivial
  unfold serve
  refine wpj_if wpj_register_done fun h₁ => wpj_if (wpj_login_done h₁) fun h₂ =>
    wpj_if (wpj_updateUser_done h₁ h₂) fun h₃ =>
    wpj_if (fun h => reads (handleQueryStatus_reads request) (by rw [h]; decide)) fun _ =>
    wpj_if (fun htype => ?_) fun h₄ => wpj_if (wpj_deleteFriend_done h₁ h₂ h₃ h₄) fun h₅ =>
    wpj_if (fun h => reads (handleFriendList_reads request) (by rw [h]; decide)) fun _ =>
    wpj_if (fun h => reads (queryTarget_reads request _) (by rw [h]; decide)) fun _ =>
    wpj_if (fun h => reads (queryTarget_reads request _) (by rw [h]; decide)) fun _ =>
    wpj_if (fun htype => ?_) fun h₆ =>
    wpj_if (fun h => reads (handleHistoryMessages_reads request) (by rw [h]; decide)) fun _ =>
      reads (uses_ite trivial trivial) (by simp [h₁, h₂, h₃, h₄, h₅, h₆])
  · refine wpj_handleAddFriend (fun response l hcode hl => ?_) fun i j db hi hj hinsert => ?_
    · refine done_of_reported (fun h => absurd h hcode) fun e he => ?_
      obtain ⟨a, b, hst⟩ := (hl e he).1
      rw [hst]
      exact ⟨nofun, nofun⟩
    · refine done_of_reported (fun _ => ?_) fun e he => ?_
      · unfold IsDone
        rw [if_neg h₁, if_neg h₂, if_neg h₃, if_pos htype]
        refine ⟨i, j, hi, hj, ?_⟩
        rw [(Database.tables_of_insertFriend hinsert).1]
        exact List.mem_append_right _ (List.mem_singleton_self _)
      · rw [List.mem_singleton.mp he]
        exact ⟨nofun, nofun⟩
  · refine wpj_handleSendMessage (fun response l hcode hl => ?_) ?_
    · refine done_of_reported (fun h => absurd h hcode) fun e he => ?_
      obtain ⟨a, b, content, hst⟩ := (hl e he).1
      rw [hst]
      exact ⟨nofun, nofun⟩
    · intro i j now db said l w₁ w' hi hj hinsert hforwards htalks hl
      refine done_of_reported (fun _ => ?_) fun e he => ?_
      · unfold IsDone
        rw [if_neg h₁, if_neg h₂, if_neg h₃, if_neg h₄, if_neg h₅, if_pos htype]
        refine ⟨i, j, hi, hj, ?_⟩
        rw [htalks.db]
        exact hforwards.stored hinsert
      · rcases List.mem_cons.mp he with rfl | he
        · exact ⟨nofun, nofun⟩
        · obtain ⟨a, b, hst⟩ := hl e he
          rw [hst]
          exact ⟨nofun, nofun⟩

/-- **A code 0 keeps its promise exactly if no failure goes unreported.** Of every request, state and
pattern of failing statements: what the answer says has been done is in the tables, exactly if of the
statements whose result nobody looks at none was needed and failed. -/
theorem isDone_iff (w : World P) (request : Request) (cs : List Choice) :
    (((serve P request).run cs w).1.code = 0 → IsDone w ((serve P request).run cs w).2 request) ↔
      NothingLost w ((serve P request).journal cs w) :=
  run_of_wpj (E := .any) (wpj_serve_done request) cs fun ch _ => Env.ok_any ch

/-- Alice logs in, and the statement that sets her flag fails. -/
theorem not_isDone : ¬ ∀ (w : World asciiCi) (request : Request) (cs : List Choice),
    ((serve asciiCi request).run cs w).1.code = 0 →
      IsDone w ((serve asciiCi request).run cs w).2 request := by
  intro h
  have hdone := h aliceHere (aliceLogin 1)
    [default, default, { (default : Choice) with dbOk := false }] (by decide)
  unfold IsDone at hdone
  rw [if_neg (by decide), if_pos (by decide)] at hdone
  exact absurd hdone (by decide)

end LiteChat
