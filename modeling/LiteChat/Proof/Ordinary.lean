import LiteChat.Proof.Calls

/-!
# What most of the code does not do

Digests are read and written by three statements, messages are stored by one, and few frames are
responses or forward a message. The rest of the code is `Ordinary`: results about digests and messages
have to look at the handlers that are not.
-/

namespace LiteChat

open LiteChat.Action Server UserManager FriendManager MessageManager

/-- The statements that have to do neither with digests nor with what messages say. -/
def Stmt.Ordinary : Stmt → Prop
  | .insertUser _ _ | .selectUser _ | .updatePassword _ _ | .insertMessage _ _ _ => False
  | _ => True

/-- The statements that store no message. -/
def Stmt.StoresNothing : Stmt → Prop
  | .insertMessage _ _ _ => False
  | _ => True

/-- The operations that have to do neither with digests nor with what messages say, and that answer
nobody. -/
def Op.Ordinary : Op → Prop
  | .sql st => st.Ordinary
  | .sendData _ frame => frame.forwarded? = none ∧ frame.isResponse = false
  | _ => True

/-- The operations of code that only talks to the database. -/
inductive Op.Asks (S : Stmt → Prop) : Op → Prop
  | sql {st : Stmt} (h : S st) : Op.Asks S (.sql st)

theorem Op.Asks.ordinary {o : Op} (ho : o.Asks Stmt.Ordinary) : o.Ordinary := by
  cases ho with
  | sql h => exact h

theorem notify_ordinary (u : Str) (status : UserStatus) :
    (notifyFriendsStatusChange u status).Uses Op.Ordinary := by
  refine .bind (uses_caught trivial _ _) fun r => ?_
  cases r with
  | none => trivial
  | some i =>
    refine .bind (uses_caught trivial _ _) fun r => ?_
    cases r with
    | none => trivial
    | some friends =>
      exact notifyEach_uses (fun _ => trivial) (fun _ => trivial) (fun _ => ⟨rfl, rfl⟩) friends

theorem leave_ordinary (u : Str) (i : UserId) : (leave u i).Uses Op.Ordinary := by
  refine .bind (uses_caught trivial _ _) fun isOnline => uses_ite ?_ trivial
  refine .bind (uses_caught trivial _ _) fun _ => .bind (uses_op trivial) fun q => ?_
  cases q with
  | none => trivial
  | some q =>
    exact .bind (uses_op trivial) fun _ => .bind (uses_op ⟨rfl, rfl⟩) fun _ => .bind (uses_op trivial)
      fun _ => uses_op trivial

theorem enter_ordinary (c : Socket) (u : Str) (i : UserId) : (enter c u i).Uses Op.Ordinary := by
  refine .bind (uses_caught trivial _ _) fun _ => .bind (uses_caught trivial _ _) fun _ =>
    .bind (uses_op trivial) fun q => ?_
  cases q with
  | none => trivial
  | some q =>
    exact .bind (uses_op trivial) fun _ => .bind (uses_op trivial) fun _ => uses_op trivial

theorem cacheFriendList_ordinary (u : Str) : (cacheFriendList u).Uses Op.Ordinary := by
  refine .bind (uses_caught trivial _ _) fun r => ?_
  cases r with
  | none => trivial
  | some i =>
    refine .bind (uses_caught trivial _ _) fun r => ?_
    cases r with
    | none => trivial
    | some friends => exact uses_op trivial

theorem handleFriendList_asks (request : Request) :
    (handleFriendList request).Uses (Op.Asks Stmt.Ordinary) := by
  refine .bind (uses_caught (.sql trivial) _ _) fun r => ?_
  cases r with
  | none => trivial
  | some i =>
    refine .bind (uses_caught (.sql trivial) _ _) fun r => ?_
    cases r <;> trivial

theorem queryTarget_asks (request : Request) (answer : Str → Bool → Response) :
    (queryTarget request answer).Uses (Op.Asks Stmt.Ordinary) := by
  refine uses_ite trivial (.bind (uses_caught (.sql trivial) _ _) fun r => ?_)
  cases r with
  | none => trivial
  | some i =>
    refine .bind (uses_caught (.sql trivial) _ _) fun r => ?_
    cases r <;> trivial

theorem handleAddFriend_asks (request : Request) :
    (handleAddFriend request).Uses (Op.Asks Stmt.Ordinary) := by
  refine uses_ite trivial (uses_ite trivial (.bind (uses_caught (.sql trivial) _ _) fun r => ?_))
  cases r with
  | none => trivial
  | some i =>
    refine .bind (uses_caught (.sql trivial) _ _) fun r => ?_
    cases r with
    | none => trivial
    | some j =>
      refine .bind (uses_caught (.sql trivial) _ _) fun r => uses_ite trivial ?_
      exact .bind (uses_caught (.sql trivial) _ _) fun r => uses_ite trivial trivial

theorem handleDeleteFriend_asks (request : Request) :
    (handleDeleteFriend request).Uses (Op.Asks Stmt.Ordinary) := by
  refine uses_ite trivial (.bind (uses_caught (.sql trivial) _ _) fun r => ?_)
  cases r with
  | none => trivial
  | some i =>
    refine .bind (uses_caught (.sql trivial) _ _) fun r => ?_
    cases r with
    | none => trivial
    | some j =>
      refine .bind (uses_caught (.sql trivial) _ _) fun r => uses_ite trivial ?_
      refine .bind (uses_caught (.sql trivial) _ _) fun r => uses_ite trivial ?_
      exact .bind (uses_caught (.sql trivial) _ _) fun _ => trivial

theorem handleHistoryMessages_asks (request : Request) :
    (handleHistoryMessages request).Uses (Op.Asks Stmt.Ordinary) := by
  refine uses_ite trivial (.bind (uses_caught (.sql trivial) _ _) fun r => ?_)
  cases r with
  | none => trivial
  | some i =>
    refine .bind (uses_caught (.sql trivial) _ _) fun r => ?_
    cases r with
    | none => trivial
    | some j =>
      refine .bind (uses_caught (.sql trivial) _ _) fun r => ?_
      cases r <;> trivial

theorem handleRegister_asks {P : Platform} (request : Request) :
    (handleRegister P request).Uses (Op.Asks Stmt.StoresNothing) := by
  refine uses_ite trivial (uses_ite trivial ?_)
  refine .bind (uses_caught (.sql trivial) _ _) fun _ => uses_ite trivial ?_
  exact .bind (uses_caught (.sql trivial) _ _) fun _ => uses_ite trivial trivial

theorem handleUpdateUser_asks {P : Platform} (request : Request) :
    (handleUpdateUser P request).Uses (Op.Asks Stmt.StoresNothing) := by
  refine .bind (uses_caught (.sql trivial) _ _) fun r => ?_
  cases r with
  | none => trivial
  | some r =>
    refine uses_ite trivial ?_
    have hname : (changeUsername r.1 request.newUsername).Uses (Op.Asks Stmt.StoresNothing) := by
      refine uses_ite trivial (uses_ite trivial ?_)
      refine .bind (uses_caught (.sql trivial) _ _) fun _ => uses_ite trivial ?_
      exact .bind (uses_caught (.sql trivial) _ _) fun _ => uses_ite trivial trivial
    have hpassword : (changePassword P r.1 request.newPassword).Uses (Op.Asks Stmt.StoresNothing) := by
      refine uses_ite trivial (uses_ite trivial ?_)
      exact .bind (uses_caught (.sql trivial) _ _) fun _ => uses_ite trivial trivial
    refine .bind hname fun response => ?_
    cases response with
    | some response => trivial
    | none =>
      refine .bind hpassword fun response => ?_
      cases response with
      | some response => trivial
      | none => exact uses_ite trivial trivial

theorem handleQueryStatus_asks (request : Request) :
    (handleQueryStatus request).Uses (Op.Asks Stmt.StoresNothing) := by
  refine .bind (uses_caught (.sql trivial) _ _) fun r => ?_
  cases r with
  | none => trivial
  | some r =>
    refine .bind (uses_caught (.sql trivial) _ _) fun r => ?_
    cases r <;> trivial

theorem farewell_ordinary (p : SessionPtr) : (farewell p).Uses Op.Ordinary :=
  .bind (uses_op trivial) fun _ => .bind (uses_caught trivial _ _) fun _ => .bind (uses_op trivial)
    fun _ => .bind (notify_ordinary _ _) fun _ => .bind (uses_op trivial) fun _ => uses_op trivial

theorem endConnection_ordinary (c : Socket) : (endConnection c).Uses Op.Ordinary := by
  refine .bind (uses_op trivial) fun session => ?_
  cases session with
  | none => exact uses_op trivial
  | some p =>
    have hrest : (do
        removeSession c
        addConnections (-1)
        close c : Action Unit).Uses Op.Ordinary :=
      .bind (uses_op trivial) fun _ => .bind (uses_op trivial) fun _ => uses_op trivial
    exact .bind (uses_op trivial) fun _ => uses_ite (.bind (farewell_ordinary p) fun _ => hrest) hrest

theorem failConnection_ordinary (c : Socket) : (failConnection c).Uses Op.Ordinary := by
  refine .bind (uses_op trivial) fun _ => .bind (uses_op trivial) fun session => ?_
  cases session with
  | none => trivial
  | some p =>
    have hrest : (do
        removeSession c
        addConnections (-1) : Action Unit).Uses Op.Ordinary :=
      .bind (uses_op trivial) fun _ => uses_op trivial
    refine .bind (uses_op trivial) fun _ => uses_ite ?_ hrest
    exact .bind (uses_op trivial) fun _ => .bind (uses_caught trivial _ _) fun _ => hrest

theorem heartbeatCheckEach_ordinary (t : Nat) (sessions : List (Socket × SessionPtr)) :
    (heartbeatCheckEach t sessions).Uses Op.Ordinary := by
  induction sessions with
  | nil => trivial
  | cons e sessions ih =>
    obtain ⟨c, p⟩ := e
    refine .bind (uses_op trivial) fun _ => uses_ite ?_ ih
    refine .bind (uses_op trivial) fun _ => uses_ite ?_ ih
    refine .bind (uses_op trivial) fun _ => uses_ite (.bind ?_ fun _ => ih) ih
    exact .bind (farewell_ordinary p) fun _ => .bind (uses_op trivial) fun _ =>
      .bind (uses_op trivial) fun _ => uses_op trivial

theorem heartbeatCheckThread_ordinary (rounds : Nat) : (heartbeatCheckThread rounds).Uses Op.Ordinary := by
  induction rounds with
  | zero => trivial
  | succ rounds ih =>
    exact .bind (.bind (uses_op trivial) fun _ => .bind (uses_op trivial) fun _ =>
      heartbeatCheckEach_ordinary _ _) fun _ => ih

end LiteChat
