import LiteChat.Model.UserManager

/-!
# `FriendManager`

Adding and deleting friends, the list and status queries, and the cache of friend lists that is
filled at login.

All requests about another user read their target the same way: `targetUsername`, or `username` if
that is empty (`targetOf`). The two status queries differ in their text and in whether they repeat
the name.
-/

namespace LiteChat

namespace FriendManager

open LiteChat.Action

def noTarget : Response := ⟨1001, bytes "目标用户名不能为空", none⟩

/-- The user a request is about. -/
def targetOf (request : Request) : Str :=
  if request.targetUsername = [] then request.username else request.targetUsername

def handleAddFriend (request : Request) : Action Response := do
  if targetOf request = [] then
    return noTarget
  if request.username = targetOf request then
    return ⟨3003, bytes "不能添加自己为好友", none⟩
  match ← UserDAO.getUserIdByUsername request.username with
  | none => return ⟨2003, bytes "用户不存在", none⟩
  | some userId =>
    match ← UserDAO.getUserIdByUsername (targetOf request) with
    | none => return ⟨3001, bytes "目标用户不存在", none⟩
    | some targetUserId =>
      if ← FriendDAO.checkFriendship userId targetUserId then
        return ⟨3002, bytes "已经是好友关系", none⟩
      if ¬ (← FriendDAO.insertFriend userId targetUserId) then
        return ⟨5001, bytes "数据库操作失败", none⟩
      return ⟨0, bytes "添加好友成功", none⟩

def handleDeleteFriend (request : Request) : Action Response := do
  if targetOf request = [] then
    return noTarget
  match ← UserDAO.getUserIdByUsername request.username with
  | none => return ⟨2003, bytes "用户不存在", none⟩
  | some userId =>
    match ← UserDAO.getUserIdByUsername (targetOf request) with
    | none => return ⟨3001, bytes "目标用户不存在", none⟩
    | some targetUserId =>
      if ¬ (← FriendDAO.checkFriendship userId targetUserId) then
        return ⟨3004, bytes "不是好友关系", none⟩
      if ¬ (← FriendDAO.deleteFriend userId targetUserId) then
        return ⟨5001, bytes "数据库操作失败", none⟩
      let _ ← FriendDAO.deleteMessagesBetweenUsers userId targetUserId
      return ⟨0, bytes "删除好友成功", none⟩

def friendJson (friend : Str × Bool) : Json :=
  .obj [(bytes "username", .str friend.1), (bytes "status", .str (statusOf friend.2).text)]

def handleFriendList (request : Request) : Action Response := do
  match ← UserDAO.getUserIdByUsername request.username with
  | none => return ⟨2003, bytes "用户不存在", none⟩
  | some userId =>
    match ← FriendDAO.getFriendList userId with
    | none => return ⟨5002, bytes "数据库查询失败", none⟩
    | some friends =>
      return ⟨0, bytes "查询成功",
        some (.obj [(bytes "friends", .arr (friends.map friendJson))])⟩

/-- The two status queries, with the answer they make of the name and the flag. -/
def queryTarget (request : Request) (answer : Str → Bool → Response) : Action Response := do
  if targetOf request = [] then
    return noTarget
  match ← UserDAO.getUserIdByUsername (targetOf request) with
  | none => return ⟨3001, bytes "目标用户不存在", none⟩
  | some targetUserId =>
    match ← UserDAO.getUserOnlineStatus targetUserId with
    | none => return ⟨5002, bytes "数据库查询失败", none⟩
    | some isOnline => return answer (targetOf request) isOnline

def handleFriendStatus (request : Request) : Action Response :=
  queryTarget request fun _ isOnline =>
    ⟨0, UserManager.statusMsg isOnline,
      some (.obj [(bytes "status", .str (statusOf isOnline).text)])⟩

def handleQueryFriend (request : Request) : Action Response :=
  queryTarget request fun targetUsername isOnline =>
    ⟨0, bytes "查询成功",
      some (.obj
        [(bytes "username", .str targetUsername),
         (bytes "status", .str (statusOf isOnline).text)])⟩

/-! ## The cache -/

def cacheFriendList (username : Str) : Action Unit := do
  match ← UserDAO.getUserIdByUsername username with
  | none => pure ()
  | some userId =>
    match ← FriendDAO.getFriendList userId with
    | none => pure ()
    | some friends => cacheInsert username (friends.map (·.1))

def removeFriendCache (username : Str) : Action Unit := cacheErase username

/-- One lookup under the lock; no request makes it. -/
def getCachedFriendList {P : Platform} (w : World P) (username : Str) : List Str :=
  (w.cachedFriendLists.lookup username).getD []

end FriendManager

end LiteChat
