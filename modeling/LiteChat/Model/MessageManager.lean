import LiteChat.Model.UserManager

/-!
# `MessageManager`

Storing and forwarding messages, the history query, and the push of what arrived while the
receiver was away. `forwardMessage` is called both for a message that was just stored and, in a
loop, for each message of the backlog; it knows the pair of users, not the row.
-/

namespace LiteChat

namespace MessageManager

open LiteChat.Action

def maxMessageSize : Nat := 65536

/-- `std::isspace` in the "C" locale. -/
def isSpace (b : UInt8) : Bool := b = 32 ∨ (9 ≤ b ∧ b ≤ 13)

def validateMessageContent (content : Str) : Bool := content.any fun b => ¬ isSpace b

def storeMessage (senderId receiverId : UserId) (content : Str) : Action Bool :=
  MessageDAO.insertMessage senderId receiverId content

def forwardMsg (senderUsername content sendTime : Str) : Frame :=
  .json (.obj
    [(bytes "type", .str (bytes "FORWARD_MSG")),
     (bytes "data", .obj
       [(bytes "sender", .str senderUsername),
        (bytes "content", .str content),
        (bytes "timestamp", .str sendTime)])])

def forwardMessage (senderId : UserId) (senderUsername : Str) (receiverId : UserId)
    (receiverUsername content sendTime : Str) : Action Bool := do
  match ← getSessionByUsername receiverUsername with
  | none => return false
  | some receiverSession =>
    let receiverSocket ← getSocket receiverSession
    let result ← sendData receiverSocket (forwardMsg senderUsername content sendTime)
    if result then
      let _ ← MessageDAO.markMessagesAsRead senderId receiverId
    return result

/-- What a notification shows of a message: `substr(0, 50) + "..."` when it is longer. -/
def summaryOf (content : Str) : Str :=
  if 50 < content.length then content.take 50 ++ bytes "..." else content

def msgNotify (senderUsername content : Str) : Frame :=
  .json (.obj
    [(bytes "type", .str (bytes "MSG_NOTIFY")),
     (bytes "data", .obj
       [(bytes "sender", .str senderUsername), (bytes "summary", .str (summaryOf content))])])

def sendNotification (receiverSocket : Socket) (senderUsername content : Str) : Action Unit := do
  let _ ← sendData receiverSocket (msgNotify senderUsername content)

/-- Forward a message that was just stored, if its receiver is online. -/
def forwardLive (request : Request) (senderId receiverId : UserId) : Action Unit := do
  let isOnline := (← UserDAO.getUserOnlineStatus receiverId).getD false
  if isOnline then
    match ← getSessionByUsername request.targetUsername with
    | none => pure ()
    | some receiverSession => do
      let _ ← forwardMessage senderId request.username receiverId request.targetUsername
        request.content []
      let receiverSocket ← getSocket receiverSession
      sendNotification receiverSocket request.username request.content

def handleSendMessage (request : Request) : Action Response := do
  if ¬ validateMessageContent request.content then
    return ⟨4001, bytes "消息内容不能为空", none⟩
  if maxMessageSize < request.content.length then
    return ⟨4002, bytes "消息内容过长", none⟩
  match ← UserDAO.getUserIdByUsername request.username with
  | none => return ⟨4003, bytes "发送者不存在", none⟩
  | some senderId =>
    match ← UserDAO.getUserIdByUsername request.targetUsername with
    | none => return ⟨4003, bytes "接收方不存在", none⟩
    | some receiverId =>
      if ¬ (← storeMessage senderId receiverId request.content) then
        return ⟨5001, bytes "数据库操作失败", none⟩
      forwardLive request senderId receiverId
      return ⟨0, bytes "发送成功", none⟩

def messageJson (msg : Message) : Json :=
  .obj
    [(bytes "sender", .str msg.senderUsername),
     (bytes "content", .str msg.content),
     (bytes "timestamp", .str msg.sendTime),
     (bytes "is_read", .bool msg.isRead)]

def handleHistoryMessages (request : Request) : Action Response := do
  if request.targetUsername = [] then
    return ⟨1001, bytes "目标用户名不能为空", none⟩
  match ← UserDAO.getUserIdByUsername request.username with
  | none => return ⟨4003, bytes "用户不存在", none⟩
  | some userId1 =>
    match ← UserDAO.getUserIdByUsername request.targetUsername with
    | none => return ⟨4003, bytes "目标用户不存在", none⟩
    | some userId2 =>
      let count := if request.count ≤ 0 ∨ 200 < request.count then 50 else request.count
      match ← MessageDAO.getHistoryMessages userId1 userId2 count with
      | none => return ⟨5002, bytes "数据库查询失败", none⟩
      | some messages =>
        return ⟨0, bytes "查询成功",
          some (.obj [(bytes "messages", .arr (messages.map messageJson))])⟩

/-- The loop of `PushOfflineMessages`. -/
def pushEach (clientSocket : Socket) : List Message → Action Unit
  | [] => pure ()
  | msg :: messages => do
    let _ ← forwardMessage msg.senderId msg.senderUsername msg.receiverId msg.receiverUsername
      msg.content msg.sendTime
    sendNotification clientSocket msg.senderUsername msg.content
    pushEach clientSocket messages

def pushOfflineMessages (username : Str) : Action Unit := do
  match ← UserDAO.getUserIdByUsername username with
  | none => pure ()
  | some userId =>
    match ← MessageDAO.getUnreadMessages userId with
    | none => pure ()
    | some messages =>
      if messages.isEmpty then
        return
      match ← getSessionByUsername username with
      | none => pure ()
      | some session => do
        let clientSocket ← getSocket session
        pushEach clientSocket messages

end MessageManager

end LiteChat
