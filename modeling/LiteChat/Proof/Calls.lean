import LiteChat.Model.Server

/-!
# What code calls

Which operations a piece of the server can call, whatever it is answered. These are facts about the
code and not about what the operations do; the modules that follow say what is left alone by all the
operations of a set, and code has that because of what it calls.
-/

namespace LiteChat

open LiteChat.Action

variable {P : Platform}

/-- The statements that are queries. -/
def Stmt.reads : Stmt → Bool
  | .selectUser _ | .countUsers _ | .selectOnline _ | .selectUserId _ | .selectFriends _
  | .countFriends _ _ | .selectUnread _ | .selectHistory _ _ _ => true
  | _ => false

theorem Database.exec_reads {db db' : Database P} {st : Stmt} (hst : st.reads = true) {now : Nat}
    {rank : Nat → Nat} {r : st.Res} (h : db.exec now rank st = some (r, db')) : db' = db := by
  have hdb : (db.exec now rank st).map Prod.snd = some db' := by rw [h]; rfl
  cases st with
  | insertUser | updateUsername | updatePassword | updateOnline | updateLastLogin
  | updateOnlineByName | insertFriend | deleteFriend | deleteMessages | insertMessage | markRead =>
    cases hst
  | _ => exact (Option.some.inj hdb).symm

/-- The operations of code that only asks: queries, lookups, and frames that are no responses. -/
def Op.Reads : Op → Prop
  | .sql st => st.reads = true
  | .sendData _ frame => frame.isResponse = false
  | .addSession _ | .removeSession _ | .bindUsername _ _ | .setUsername _ _ | .updateHeartbeat _
  | .accept _ | .shutdown _ | .close _ | .addConnections _ | .cacheInsert _ _
  | .cacheErase _ => False
  | _ => True

/-- The operations of code that reads, and writes no more than the statements in `S`. -/
def Op.WritesOnly (S : Stmt → Prop) (o : Op) : Prop := o.Reads ∨ ∃ st, o = .sql st ∧ S st

section Uses

variable {α : Type} {S : Op → Prop}

theorem uses_caught {st : Stmt} (h : S (.sql st)) (f : st.Res → α) (failed : α) :
    (caught st f failed).Uses S := by
  refine Effect.Prog.Uses.bind (Effect.Prog.uses_op.mpr h) fun r => ?_
  cases r <;> trivial

theorem uses_op {o : Op} (h : S o) : (Action.op o).Uses S := Effect.Prog.uses_op.mpr h

theorem uses_ite {c : Prop} [Decidable c] {p q : Action α} (hp : p.Uses S) (hq : q.Uses S) :
    (if c then p else q).Uses S := by
  split
  · exact hp
  · exact hq

/-! ### Telling friends -/

theorem notifyEach_uses {frame : Frame} (hbyName : ∀ u, S (.getSessionByUsername u))
    (hsocket : ∀ p, S (.getSocket p)) (hframe : ∀ c, S (.sendData c frame))
    (friends : List (Str × Bool)) : (UserManager.notifyEach frame friends).Uses S := by
  induction friends with
  | nil => trivial
  | cons friend friends ih =>
    obtain ⟨friendUsername, isOnline⟩ := friend
    unfold UserManager.notifyEach
    cases isOnline with
    | false => exact ih
    | true =>
      refine .bind (uses_op (hbyName _)) fun q => ?_
      cases q with
      | none => exact ih
      | some q => exact .bind (uses_op (hsocket q)) fun c => .bind (uses_op (hframe c)) fun _ => ih

theorem notify_uses {u : Str} {status : UserStatus} (hsql : ∀ st, st.reads = true → S (.sql st))
    (hbyName : ∀ u, S (.getSessionByUsername u)) (hsocket : ∀ p, S (.getSocket p))
    (hframe : ∀ c, S (.sendData c (UserManager.statusNotify u status))) :
    (UserManager.notifyFriendsStatusChange u status).Uses S := by
  refine .bind (uses_caught (hsql _ rfl) _ _) fun r => ?_
  cases r with
  | none => trivial
  | some i =>
    refine .bind (uses_caught (hsql _ rfl) _ _) fun r => ?_
    cases r with
    | none => trivial
    | some friends => exact notifyEach_uses hbyName hsocket hframe friends

/-! ### Code that reads -/

theorem reads_caught {st : Stmt} (h : st.reads = true) (f : st.Res → α) (failed : α) :
    (caught st f failed).Uses Op.Reads := uses_caught h f failed

theorem notify_reads (u : Str) (status : UserStatus) :
    (UserManager.notifyFriendsStatusChange u status).Uses Op.Reads :=
  notify_uses (fun _ h => h) (fun _ => trivial) (fun _ => trivial) fun _ => rfl

theorem handleQueryStatus_reads (request : Request) :
    (UserManager.handleQueryStatus request).Uses Op.Reads := by
  refine .bind (reads_caught rfl _ _) fun r => ?_
  cases r with
  | none => trivial
  | some r =>
    refine .bind (reads_caught rfl _ _) fun r => ?_
    cases r <;> trivial

theorem handleFriendList_reads (request : Request) :
    (FriendManager.handleFriendList request).Uses Op.Reads := by
  refine .bind (reads_caught rfl _ _) fun r => ?_
  cases r with
  | none => trivial
  | some i =>
    refine .bind (reads_caught rfl _ _) fun r => ?_
    cases r <;> trivial

theorem queryTarget_reads (request : Request) (answer : Str → Bool → Response) :
    (FriendManager.queryTarget request answer).Uses Op.Reads := by
  unfold FriendManager.queryTarget
  split
  · trivial
  refine .bind (reads_caught rfl _ _) fun r => ?_
  cases r with
  | none => trivial
  | some i =>
    refine .bind (reads_caught rfl _ _) fun r => ?_
    cases r <;> trivial

theorem handleHistoryMessages_reads (request : Request) :
    (MessageManager.handleHistoryMessages request).Uses Op.Reads := by
  unfold MessageManager.handleHistoryMessages
  split
  · trivial
  refine .bind (reads_caught rfl _ _) fun r => ?_
  cases r with
  | none => trivial
  | some i =>
    refine .bind (reads_caught rfl _ _) fun r => ?_
    cases r with
    | none => trivial
    | some j =>
      refine .bind (reads_caught rfl _ _) fun r => ?_
      cases r <;> trivial

/-! ### Code that writes -/

theorem handleRegister_writes (request : Request) : (UserManager.handleRegister P request).Uses
    (Op.WritesOnly fun st => ∃ u h, st = .insertUser u h) := by
  unfold UserManager.handleRegister
  refine uses_ite trivial (uses_ite trivial (.bind (uses_caught (.inl rfl) _ _) fun r => ?_))
  refine uses_ite trivial (.bind (uses_caught (.inr ⟨_, rfl, _, _, rfl⟩) _ _) fun r => ?_)
  exact uses_ite trivial trivial

/-- The statements that change a name or a password. -/
def Stmt.Updates (st : Stmt) : Prop := (∃ i u, st = .updateUsername i u) ∨ ∃ i h, st = .updatePassword i h

theorem changeUsername_writes (i : UserId) (newUsername : Str) :
    (UserManager.changeUsername i newUsername).Uses (Op.WritesOnly Stmt.Updates) := by
  unfold UserManager.changeUsername
  refine uses_ite trivial (uses_ite trivial (.bind (uses_caught (.inl rfl) _ _) fun r => ?_))
  refine uses_ite trivial (.bind (uses_caught (.inr ⟨_, rfl, .inl ⟨_, _, rfl⟩⟩) _ _) fun r => ?_)
  exact uses_ite trivial trivial

theorem changePassword_writes (i : UserId) (newPassword : Str) :
    (UserManager.changePassword P i newPassword).Uses (Op.WritesOnly Stmt.Updates) := by
  unfold UserManager.changePassword
  refine uses_ite trivial (uses_ite trivial ?_)
  refine .bind (uses_caught (.inr ⟨_, rfl, .inr ⟨_, _, rfl⟩⟩) _ _) fun r => ?_
  exact uses_ite trivial trivial

theorem handleUpdateUser_writes (request : Request) :
    (UserManager.handleUpdateUser P request).Uses (Op.WritesOnly Stmt.Updates) := by
  refine .bind (uses_caught (.inl rfl) _ _) fun r => ?_
  cases r with
  | none => trivial
  | some r =>
    refine uses_ite trivial (.bind (changeUsername_writes _ _) fun response => ?_)
    cases response with
    | some response => trivial
    | none =>
      refine .bind (changePassword_writes _ _) fun response => ?_
      cases response with
      | some response => trivial
      | none => exact uses_ite trivial trivial

theorem handleAddFriend_writes (request : Request) :
    (FriendManager.handleAddFriend request).Uses
      (Op.WritesOnly fun st => ∃ i j, st = .insertFriend i j) := by
  refine uses_ite trivial (uses_ite trivial (.bind (uses_caught (.inl rfl) _ _) fun r => ?_))
  cases r with
  | none => trivial
  | some i =>
    refine .bind (uses_caught (.inl rfl) _ _) fun r => ?_
    cases r with
    | none => trivial
    | some j =>
      refine .bind (uses_caught (.inl rfl) _ _) fun r => uses_ite trivial ?_
      exact .bind (uses_caught (.inr ⟨_, rfl, i, j, rfl⟩) _ _) fun r => uses_ite trivial trivial

theorem handleDeleteFriend_writes (request : Request) :
    (FriendManager.handleDeleteFriend request).Uses
      (Op.WritesOnly fun st => ∃ i j, st = .deleteFriend i j ∨ st = .deleteMessages i j) := by
  refine uses_ite trivial (.bind (uses_caught (.inl rfl) _ _) fun r => ?_)
  cases r with
  | none => trivial
  | some i =>
    refine .bind (uses_caught (.inl rfl) _ _) fun r => ?_
    cases r with
    | none => trivial
    | some j =>
      refine .bind (uses_caught (.inl rfl) _ _) fun r => uses_ite trivial ?_
      refine .bind (uses_caught (.inr ⟨_, rfl, i, j, .inl rfl⟩) _ _) fun r => uses_ite trivial ?_
      exact .bind (uses_caught (.inr ⟨_, rfl, i, j, .inr rfl⟩) _ _) fun _ => trivial

/-! ### Messages -/

/-- The operations of code that reads and marks messages. -/
abbrev Op.Marks : Op → Prop := Op.WritesOnly fun st => ∃ i j, st = .markRead i j

theorem forwardMessage_marks (i j : UserId) (u v content sendTime : Str) :
    (MessageManager.forwardMessage i u j v content sendTime).Uses Op.Marks := by
  refine .bind (uses_op (.inl trivial)) fun q => ?_
  cases q with
  | none => trivial
  | some q =>
    refine .bind (uses_op (.inl trivial)) fun c => .bind (uses_op (.inl rfl)) fun sent => ?_
    cases (sent : Bool) with
    | false => trivial
    | true => exact .bind (uses_caught (.inr ⟨_, rfl, i, j, rfl⟩) _ _) fun _ => trivial

theorem sendNotification_marks (c : Socket) (u content : Str) :
    (MessageManager.sendNotification c u content).Uses Op.Marks :=
  .bind (uses_op (.inl rfl)) fun _ => trivial

theorem forwardLive_marks (request : Request) (i j : UserId) :
    (MessageManager.forwardLive request i j).Uses Op.Marks := by
  refine .bind (uses_caught (.inl rfl) _ _) fun isOnline => ?_
  cases isOnline.getD false with
  | false => trivial
  | true =>
    refine .bind (uses_op (.inl trivial)) fun q => ?_
    cases q with
    | none => trivial
    | some q =>
      refine .bind (forwardMessage_marks _ _ _ _ _ _) fun _ => .bind (uses_op (.inl trivial)) fun c => ?_
      exact sendNotification_marks _ _ _

theorem pushEach_marks (c : Socket) (messages : List Message) :
    (MessageManager.pushEach c messages).Uses Op.Marks := by
  induction messages with
  | nil => trivial
  | cons msg messages ih =>
    exact .bind (forwardMessage_marks _ _ _ _ _ _) fun _ => .bind (sendNotification_marks _ _ _)
      fun _ => ih

theorem pushOfflineMessages_marks (u : Str) : (MessageManager.pushOfflineMessages u).Uses Op.Marks := by
  refine .bind (uses_caught (.inl rfl) _ _) fun r => ?_
  cases r with
  | none => trivial
  | some i =>
    refine .bind (uses_caught (.inl rfl) _ _) fun r => ?_
    cases r with
    | none => trivial
    | some messages =>
      refine uses_ite trivial (.bind (uses_op (.inl trivial)) fun q => ?_)
      cases q with
      | none => trivial
      | some q => exact .bind (uses_op (.inl trivial)) fun c => pushEach_marks c messages

theorem handleSendMessage_writes (request : Request) :
    (MessageManager.handleSendMessage request).Uses (Op.WritesOnly fun st =>
      ∃ i j, (∃ content, st = .insertMessage i j content) ∨ st = .markRead i j) := by
  refine uses_ite trivial (uses_ite trivial (.bind (uses_caught (.inl rfl) _ _) fun r => ?_))
  cases r with
  | none => trivial
  | some i =>
    refine .bind (uses_caught (.inl rfl) _ _) fun r => ?_
    cases r with
    | none => trivial
    | some j =>
      refine .bind (uses_caught (.inr ⟨_, rfl, i, j, .inl ⟨_, rfl⟩⟩) _ _) fun r => uses_ite trivial ?_
      refine .bind ((forwardLive_marks request i j).mono fun o ho => ?_) fun _ => trivial
      exact ho.imp_right fun ⟨st, hst, i, j, hmark⟩ => ⟨st, hst, i, j, .inr hmark⟩

/-! ### Logging in -/

/-- The operations by which a session gets its account. -/
inductive Op.Enters : Op → Prop
  | reads {o : Op} (ho : o.Reads) : Op.Enters o
  | updateOnline (i : UserId) (isOnline : Bool) : Op.Enters (.sql (.updateOnline i isOnline))
  | updateLastLogin (i : UserId) : Op.Enters (.sql (.updateLastLogin i))
  | setUsername (p : SessionPtr) (u : Str) : Op.Enters (.setUsername p u)
  | bindUsername (c : Socket) (u : Str) : Op.Enters (.bindUsername c u)
  | updateHeartbeat (p : SessionPtr) : Op.Enters (.updateHeartbeat p)
  | shutdown (c : Socket) : Op.Enters (.shutdown c)

/-- The operations of a login. -/
inductive Op.LogsIn : Op → Prop
  | reads {o : Op} (ho : o.Reads) : Op.LogsIn o
  | updateOnline (i : UserId) (isOnline : Bool) : Op.LogsIn (.sql (.updateOnline i isOnline))
  | updateLastLogin (i : UserId) : Op.LogsIn (.sql (.updateLastLogin i))
  | markRead (i j : UserId) : Op.LogsIn (.sql (.markRead i j))
  | setUsername (p : SessionPtr) (u : Str) : Op.LogsIn (.setUsername p u)
  | bindUsername (c : Socket) (u : Str) : Op.LogsIn (.bindUsername c u)
  | updateHeartbeat (p : SessionPtr) : Op.LogsIn (.updateHeartbeat p)
  | shutdown (c : Socket) : Op.LogsIn (.shutdown c)
  | cacheInsert (u : Str) (friends : List Str) : Op.LogsIn (.cacheInsert u friends)

theorem Op.Enters.logsIn {o : Op} (ho : o.Enters) : o.LogsIn := by
  cases ho with
  | reads ho => exact .reads ho
  | updateOnline => exact .updateOnline _ _
  | updateLastLogin => exact .updateLastLogin _
  | setUsername => exact .setUsername _ _
  | bindUsername => exact .bindUsername _ _
  | updateHeartbeat => exact .updateHeartbeat _
  | shutdown => exact .shutdown _

theorem kickOld_enters (u : Str) : (UserManager.kickOld u).Uses Op.Enters := by
  refine .bind (uses_op (.reads trivial)) fun q => ?_
  cases q with
  | none => trivial
  | some q =>
    exact .bind (uses_op (.reads trivial)) fun c => .bind (uses_op (.reads rfl)) fun _ =>
      .bind (uses_op (.setUsername _ _)) fun _ => uses_op (.shutdown _)

theorem leave_enters (u : Str) (i : UserId) : (UserManager.leave u i).Uses Op.Enters := by
  refine .bind (uses_caught (.reads rfl) _ _) fun isOnline => uses_ite ?_ trivial
  exact .bind (uses_caught (.updateOnline _ _) _ _) fun _ => kickOld_enters u

theorem enter_enters (c : Socket) (u : Str) (i : UserId) :
    (UserManager.enter c u i).Uses Op.Enters := by
  refine .bind (uses_caught (.updateOnline _ _) _ _) fun _ =>
    .bind (uses_caught (.updateLastLogin _) _ _) fun _ => .bind (uses_op (.reads trivial)) fun q => ?_
  cases q with
  | none => trivial
  | some q =>
    exact .bind (uses_op (.setUsername _ _)) fun _ => .bind (uses_op (.bindUsername _ _)) fun _ =>
      uses_op (.updateHeartbeat _)

theorem handleLogin_enters (request : Request) :
    (UserManager.handleLogin P request).Uses Op.Enters := by
  refine uses_ite trivial (.bind (uses_caught (.reads rfl) _ _) fun r => ?_)
  cases r with
  | none => trivial
  | some r =>
    refine uses_ite trivial (.bind (leave_enters _ _) fun _ => .bind (enter_enters _ _ _) fun _ => ?_)
    exact .bind ((notify_reads _ _).mono fun _ => .reads) fun _ => trivial

theorem cacheFriendList_logsIn (u : Str) : (FriendManager.cacheFriendList u).Uses Op.LogsIn := by
  refine .bind (uses_caught (.reads rfl) _ _) fun r => ?_
  cases r with
  | none => trivial
  | some i =>
    refine .bind (uses_caught (.reads rfl) _ _) fun r => ?_
    cases r with
    | none => trivial
    | some friends => exact uses_op (.cacheInsert _ _)

theorem Op.Marks.logsIn {o : Op} (ho : o.Marks) : o.LogsIn := by
  rcases ho with ho | ⟨_, rfl, i, j, rfl⟩
  · exact .reads ho
  · exact .markRead i j

theorem serveLogin_logsIn (request : Request) : (Server.serveLogin P request).Uses Op.LogsIn := by
  refine .bind ((handleLogin_enters request).mono fun _ => Op.Enters.logsIn) fun response =>
    uses_ite ?_ trivial
  refine .bind (cacheFriendList_logsIn _) fun _ => .bind ?_ fun _ => trivial
  exact (pushOfflineMessages_marks _).mono fun _ => Op.Marks.logsIn

/-! ### Any request -/

/-- The operations of a request: all but those by which connections come and go. -/
def Op.Requests : Op → Prop
  | .addSession _ | .removeSession _ | .accept _ | .close _ | .addConnections _ => False
  | _ => True

theorem Op.Reads.requests {o : Op} (ho : o.Reads) : o.Requests := by
  cases o with
  | addSession | removeSession | accept | close | addConnections => exact absurd ho id
  | _ => trivial

theorem Op.WritesOnly.requests {S' : Stmt → Prop} {o : Op} (ho : o.WritesOnly S') : o.Requests := by
  rcases ho with ho | ⟨st, rfl, _⟩
  · exact ho.requests
  · trivial

theorem Op.LogsIn.requests {o : Op} (ho : o.LogsIn) : o.Requests := by
  cases ho with
  | reads ho => exact ho.requests
  | _ => trivial

theorem serve_login {request : Request} (htype : request.type = bytes "LOGIN") :
    Server.serve P request = Server.serveLogin P request := by
  unfold Server.serve
  rw [if_neg (by rw [htype]; decide), if_pos htype]

/-- Apart from a login, requests read and execute statements. -/
theorem serve_uses {S : Op → Prop} (hreads : ∀ o : Op, o.Reads → S o) (hsql : ∀ st, S (.sql st))
    {request : Request} (hlogin : request.type = bytes "LOGIN" →
      (Server.serveLogin P request).Uses S) : (Server.serve P request).Uses S := by
  have reads : ∀ {p : Action Response}, p.Uses Op.Reads → p.Uses S := fun hp => hp.mono hreads
  have writes : ∀ {S' : Stmt → Prop} {p : Action Response}, p.Uses (Op.WritesOnly S') → p.Uses S := by
    intro S' p hp
    refine hp.mono fun o ho => ?_
    rcases ho with ho | ⟨st, rfl, -⟩
    · exact hreads o ho
    · exact hsql st
  unfold Server.serve
  refine uses_ite (writes (handleRegister_writes request)) ?_
  by_cases htype : request.type = bytes "LOGIN"
  · rw [if_pos htype]
    exact hlogin htype
  rw [if_neg htype]
  refine uses_ite (writes (handleUpdateUser_writes request)) ?_
  refine uses_ite (reads (handleQueryStatus_reads request)) ?_
  refine uses_ite (writes (handleAddFriend_writes request)) ?_
  refine uses_ite (writes (handleDeleteFriend_writes request)) ?_
  refine uses_ite (reads (handleFriendList_reads request)) ?_
  refine uses_ite (reads (queryTarget_reads request _)) ?_
  refine uses_ite (reads (queryTarget_reads request _)) ?_
  refine uses_ite (writes (handleSendMessage_writes request)) ?_
  refine uses_ite (reads (handleHistoryMessages_reads request)) ?_
  exact uses_ite trivial trivial

theorem serve_requests (request : Request) : (Server.serve P request).Uses Op.Requests :=
  serve_uses (fun _ => Op.Reads.requests) (fun _ => trivial) fun _ =>
    (serveLogin_logsIn request).mono fun _ => Op.LogsIn.requests

theorem dispatchRequest_requests (c : Socket) (parsed : Option Json) :
    (Server.dispatchRequest P c parsed).Uses Op.Requests := by
  cases parsed with
  | none => exact .bind (uses_op trivial) fun _ => trivial
  | some root =>
    unfold Server.dispatchRequest
    dsimp only
    split
    · trivial
    · refine .bind ?_ fun _ => .bind (uses_op trivial) fun garbage => ?_
      · refine .bind (uses_op trivial) fun session => ?_
        cases session with
        | none => trivial
        | some p => exact uses_op trivial
      · split
        · trivial
        · refine .bind ?_ fun request => .bind (serve_requests request) fun _ =>
            .bind (uses_op trivial) fun _ => trivial
          refine .bind (uses_op trivial) fun session => ?_
          cases session with
          | none => trivial
          | some p =>
            refine .bind (uses_op trivial) fun u => ?_
            exact uses_ite trivial (.bind (uses_op trivial) fun _ => trivial)

/-! ### The end of a connection -/

/-- The operations of the end of a connection. -/
inductive Op.Exits (c : Socket) : Op → Prop
  | reads {o : Op} (ho : o.Reads) : Op.Exits c o
  | updateOnlineByName (u : Str) : Op.Exits c (.sql (.updateOnlineByName u false))
  | cacheErase (u : Str) : Op.Exits c (.cacheErase u)
  | removeSession : Op.Exits c (.removeSession c)
  | addConnections : Op.Exits c (.addConnections (-1))
  | shutdown : Op.Exits c (.shutdown c)
  | close : Op.Exits c (.close c)

theorem farewell_exits (c : Socket) (p : SessionPtr) : (Server.farewell p).Uses (Op.Exits c) := by
  refine .bind (uses_op (.reads trivial)) fun u => .bind (uses_caught (.updateOnlineByName _) _ _)
    fun _ => .bind (uses_op (.reads trivial)) fun u => ?_
  refine .bind ((notify_reads _ _).mono fun _ => .reads) fun _ => ?_
  exact .bind (uses_op (.reads trivial)) fun u => uses_op (.cacheErase _)

theorem endConnection_exits (c : Socket) : (Server.endConnection c).Uses (Op.Exits c) := by
  refine .bind (uses_op (.reads trivial)) fun session => ?_
  cases session with
  | none => exact uses_op .close
  | some p =>
    have hrest : (do
        removeSession c
        addConnections (-1)
        close c : Action Unit).Uses (Op.Exits c) :=
      .bind (uses_op .removeSession) fun _ => .bind (uses_op .addConnections) fun _ => uses_op .close
    refine .bind (uses_op (.reads trivial)) fun u => uses_ite ?_ hrest
    exact .bind (farewell_exits c p) fun _ => hrest

theorem failConnection_exits (c : Socket) : (Server.failConnection c).Uses (Op.Exits c) := by
  refine .bind (uses_op .close) fun _ => .bind (uses_op (.reads trivial)) fun session => ?_
  cases session with
  | none => trivial
  | some p =>
    have hrest : (do
        removeSession c
        addConnections (-1) : Action Unit).Uses (Op.Exits c) :=
      .bind (uses_op .removeSession) fun _ => uses_op .addConnections
    refine .bind (uses_op (.reads trivial)) fun u => uses_ite ?_ hrest
    exact .bind (uses_op (.reads trivial)) fun u =>
      .bind (uses_caught (.updateOnlineByName _) _ _) fun _ => hrest

theorem expire_exits (c : Socket) (p : SessionPtr) : (Server.expire c p).Uses (Op.Exits c) :=
  .bind (farewell_exits c p) fun _ => .bind (uses_op .shutdown) fun _ =>
    .bind (uses_op .removeSession) fun _ => uses_op .addConnections

theorem heartbeatCheckEach_exits (t : Nat) (sessions : List (Socket × SessionPtr)) :
    (Server.heartbeatCheckEach t sessions).Uses fun o => ∃ c, o.Exits c := by
  induction sessions with
  | nil => trivial
  | cons e sessions ih =>
    obtain ⟨c, p⟩ := e
    have reads : ∀ {o : Op}, o.Reads → ∃ c, o.Exits c := fun ho => ⟨c, .reads ho⟩
    refine .bind (uses_op (reads trivial)) fun _ => uses_ite ?_ ih
    refine .bind (uses_op (reads trivial)) fun _ => uses_ite ?_ ih
    refine .bind (uses_op (reads trivial)) fun _ => uses_ite ?_ ih
    exact .bind ((expire_exits c p).mono fun _ ho => ⟨c, ho⟩) fun _ => ih

theorem heartbeatCheck_exits : Server.heartbeatCheck.Uses fun o => ∃ c, o.Exits c :=
  .bind (uses_op ⟨0, .reads trivial⟩) fun _ => .bind (uses_op ⟨0, .reads trivial⟩) fun _ =>
    heartbeatCheckEach_exits _ _

/-! ### The accept loop -/

/-- The operations of the accept loop. -/
inductive Op.Accepts : Op → Prop
  | accept (c : Socket) : Op.Accepts (.accept c)
  | loadConnections : Op.Accepts .loadConnections
  | sendData (c : Socket) : Op.Accepts (.sendData c Server.busy)
  | close (c : Socket) : Op.Accepts (.close c)
  | addSession (c : Socket) : Op.Accepts (.addSession c)
  | addConnections : Op.Accepts (.addConnections 1)

theorem acceptConnection_accepts (c : Socket) : (Server.acceptConnection c).Uses Op.Accepts := by
  refine .bind (uses_op (.accept c)) fun _ => .bind (uses_op .loadConnections) fun n => ?_
  refine uses_ite ?_ ?_
  · exact .bind (uses_op (.sendData c)) fun _ => uses_op (.close c)
  · exact .bind (uses_op (.addSession c)) fun _ => uses_op .addConnections

theorem acceptConnections_accepts (cs : List Socket) :
    (Server.acceptConnections cs).Uses Op.Accepts := by
  induction cs with
  | nil => trivial
  | cons c cs ih => exact .bind (acceptConnection_accepts c) fun _ => ih

end Uses

end LiteChat
