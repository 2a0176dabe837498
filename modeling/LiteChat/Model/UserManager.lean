import LiteChat.Model.Dao

/-!
# `UserManager`

Registration, login, changes of the user's data, the status query, and the notification of friends
that all of them share. The response texts are the ones clients see.

A handler is the source's function with its early returns. `HandleLogin` is the one with state: it
reads the online flag, takes the account away from the session that has it (`kickOld`), and gives
it to the session of the request (`enter`). These parts are definitions of their own because the
results about concurrent logins are about what may happen between them.
-/

namespace LiteChat

open LiteChat.Action

/-- `struct Response`. `data` is the value whose text the handler stores there;
`DispatchRequest` parses that text again before it sends it. -/
structure Response where
  code : Int
  msg : Str
  data : Option Json

/-- `struct Request`. -/
structure Request where
  type : Str
  username : Str
  password : Str
  newUsername : Str
  newPassword : Str
  verifyPassword : Str
  targetUsername : Str
  content : Str
  count : Int
  clientSocket : Socket

inductive UserStatus
  | online
  | offline
  deriving DecidableEq

def UserStatus.text : UserStatus → Str
  | .online => bytes "online"
  | .offline => bytes "offline"

/-- What the status of a user is called in responses. -/
def statusOf (isOnline : Bool) : UserStatus := if isOnline then .online else .offline

namespace UserManager

/-- The regular expression `^[a-zA-Z0-9_]{3,20}$`. -/
def validateUsername (username : Str) : Bool :=
  3 ≤ username.length ∧ username.length ≤ 20 ∧ username.all fun b =>
    (97 ≤ b ∧ b ≤ 122) ∨ (65 ≤ b ∧ b ≤ 90) ∨ (48 ≤ b ∧ b ≤ 57) ∨ b = 95

def validatePassword (password : Str) : Bool := 6 ≤ password.length

/-! ## Notifications -/

def statusNotify (username : Str) (status : UserStatus) : Frame :=
  .json (.obj
    [(bytes "type", .str (bytes "STATUS_NOTIFY")),
     (bytes "data", .obj
       [(bytes "username", .str username), (bytes "status", .str status.text)])])

/-- Send a frame to the session of every friend that the list says is online. -/
def notifyEach (frame : Frame) : List (Str × Bool) → Action Unit
  | [] => pure ()
  | (friendUsername, isOnline) :: friends => do
    if isOnline then
      match ← getSessionByUsername friendUsername with
      | some friendSession => do
        let friendSocket ← getSocket friendSession
        let _ ← sendData friendSocket frame
        notifyEach frame friends
      | none => notifyEach frame friends
    else notifyEach frame friends

def notifyFriendsStatusChange (username : Str) (status : UserStatus) : Action Unit := do
  match ← UserDAO.getUserIdByUsername username with
  | none => pure ()
  | some userId =>
    match ← UserDAO.getFriendsOfUser userId with
    | none => pure ()
    | some friends => notifyEach (statusNotify username status) friends

def updateUserOnlineStatus (username : Str) (isOnline : Bool) : Action Bool :=
  UserDAO.updateOnlineStatusByUsername username isOnline

/-! ## Requests -/

def handleRegister (P : Platform) (request : Request) : Action Response := do
  if ¬ validateUsername request.username then
    return ⟨2001, bytes "用户名格式不合法", none⟩
  if ¬ validatePassword request.password then
    return ⟨2001, bytes "密码格式不合法", none⟩
  if ← UserDAO.checkUsernameExists request.username then
    return ⟨2002, bytes "用户名已存在", none⟩
  if ¬ (← UserDAO.insertUser request.username (P.md5 request.password)) then
    return ⟨5001, bytes "数据库操作失败", none⟩
  return ⟨0, bytes "注册成功", none⟩

def kicked : Frame :=
  .json (.obj
    [(bytes "type", .str (bytes "KICKED")),
     (bytes "code", .int 2005),
     (bytes "msg", .str (bytes "账号已在其他地方登录"))])

/-- The account is taken away from the session that is routed under the name: it is told so, it
loses its name, its socket is shut down. -/
def kickOld (username : Str) : Action Unit := do
  match ← getSessionByUsername username with
  | none => pure ()
  | some oldSession => do
    let oldSocket ← getSocket oldSession
    let _ ← sendData oldSocket kicked
    setUsername oldSession []
    shutdown oldSocket

/-- The first half of an accepted login: who is online goes offline. -/
def leave (username : Str) (userId : UserId) : Action Unit := do
  let isOnline := (← UserDAO.getUserOnlineStatus userId).getD false
  if isOnline then
    let _ ← UserDAO.updateOnlineStatus userId false
    kickOld username

/-- The second half: the session of the request gets the account. -/
def enter (clientSocket : Socket) (username : Str) (userId : UserId) : Action Unit := do
  let _ ← UserDAO.updateOnlineStatus userId true
  let _ ← UserDAO.updateLastLoginTime userId
  match ← getSession clientSocket with
  | none => pure ()
  | some session => do
    setUsername session username
    bindUsername clientSocket username
    updateHeartbeat session

def loginAccepted : Response := ⟨0, bytes "登录成功", none⟩

def handleLogin (P : Platform) (request : Request) : Action Response := do
  if ¬ validateUsername request.username then
    return ⟨2001, bytes "用户名格式不合法", none⟩
  match ← UserDAO.getUserByUsername request.username with
  | none => return ⟨2003, bytes "用户不存在", none⟩
  | some (userId, passwordHash) =>
    if P.md5 request.password ≠ passwordHash then
      return ⟨2004, bytes "密码错误", none⟩
    leave request.username userId
    enter request.clientSocket request.username userId
    notifyFriendsStatusChange request.username .online
    return loginAccepted

/-- The part of `HandleUpdateUser` about the name: `some` response ends the request. -/
def changeUsername (userId : UserId) (newUsername : Str) : Action (Option Response) := do
  if newUsername = [] then
    return none
  if ¬ validateUsername newUsername then
    return some ⟨2001, bytes "新用户名格式不合法", none⟩
  if ← UserDAO.checkUsernameExists newUsername then
    return some ⟨2002, bytes "新用户名已存在", none⟩
  if ¬ (← UserDAO.updateUsername userId newUsername) then
    return some ⟨5001, bytes "数据库操作失败", none⟩
  return none

/-- The part of `HandleUpdateUser` about the password. -/
def changePassword (P : Platform) (userId : UserId) (newPassword : Str) :
    Action (Option Response) := do
  if newPassword = [] then
    return none
  if ¬ validatePassword newPassword then
    return some ⟨2001, bytes "新密码格式不合法", none⟩
  if ¬ (← UserDAO.updatePassword userId (P.md5 newPassword)) then
    return some ⟨5001, bytes "数据库操作失败", none⟩
  return none

def handleUpdateUser (P : Platform) (request : Request) : Action Response := do
  match ← UserDAO.getUserByUsername request.username with
  | none => return ⟨2003, bytes "用户不存在", none⟩
  | some (userId, passwordHash) =>
    if P.md5 request.verifyPassword ≠ passwordHash then
      return ⟨2006, bytes "验证密码错误", none⟩
    match ← changeUsername userId request.newUsername with
    | some response => return response
    | none =>
      match ← changePassword P userId request.newPassword with
      | some response => return response
      | none =>
        -- `updated` is set by either part, when it is asked for and gets this far
        if request.newUsername = [] ∧ request.newPassword = [] then
          return ⟨1001, bytes "未修改任何信息", none⟩
        return ⟨0, bytes "修改成功", none⟩

/-- The text of a response about a user's status. -/
def statusMsg (isOnline : Bool) : Str := if isOnline then bytes "在线" else bytes "离线"

def handleQueryStatus (request : Request) : Action Response := do
  match ← UserDAO.getUserByUsername request.username with
  | none => return ⟨2003, bytes "用户不存在", none⟩
  | some (userId, _) =>
    match ← UserDAO.getUserOnlineStatus userId with
    | none => return ⟨5002, bytes "数据库查询失败", none⟩
    | some isOnline =>
      return ⟨0, statusMsg isOnline,
        some (.obj [(bytes "status", .str (statusOf isOnline).text)])⟩

end UserManager

end LiteChat
