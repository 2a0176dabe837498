import Mathlib.Algebra.GroupWithZero.Nat
import LiteChat.Model.FastWriter
import LiteChat.Proof.MessageOrder

/-!
# How long the frames are

A frame has a fixed part and a part that is data: names, contents, times, or the type of a request
that the server does not know. `Room` says that both together are within the limit.
-/

namespace LiteChat

open Server UserManager MessageManager FriendManager

variable {P : Platform} {quote : Str → Str}

/-! ## Frames within the limit -/

/-- The limit that `ReceiveData` puts on what it reads. -/
def maxBodyLength : Nat := 65536

/-- The body of the frame is one that `ReceiveData` would read. -/
def WithinLimit (quote : Str → Str) (frame : Frame) : Prop :=
  0 < (frame.body quote).length ∧ (frame.body quote).length ≤ maxBodyLength

/-- What was said is. -/
def SaidWithinLimit (quote : Str → Str) : Obs → Prop
  | .sent _ _ frame _ => WithinLimit quote frame
  | .shutdown _ | .close _ => True

theorem Quotes.le_worst (hq : Quotes quote) (s : Str) :
    (quote s).length ≤ (quoteWorst s).length := by
  unfold quoteWorst
  rw [List.length_replicate]
  exact hq.le s

/-- A value whose text is short enough when it is longest. -/
theorem withinLimit_of_worst (hq : Quotes quote) {j : Json}
    (h : ((Frame.json j).body quoteWorst).length ≤ maxBodyLength) : WithinLimit quote (.json j) :=
  ⟨Frame.length_body_pos quote j, (Frame.length_body_le hq.le_worst _).trans h⟩

theorem withinLimit_kicked (hq : Quotes quote) : WithinLimit quote kicked :=
  withinLimit_of_worst hq (by decide +kernel)

theorem withinLimit_busy : WithinLimit quote busy := by
  show 0 < (bytes _).length ∧ (bytes _).length ≤ maxBodyLength
  decide

theorem withinLimit_parseError : WithinLimit quote parseError := by
  show 0 < (bytes _).length ∧ (bytes _).length ≤ maxBodyLength
  decide

/-- A name that may log in is short. -/
theorem withinLimit_statusNotify (hq : Quotes quote) {u : Str} (hu : u.length ≤ 20)
    (status : UserStatus) : WithinLimit quote (statusNotify u status) := by
  have hlength : ((statusNotify u status).body quoteWorst).length =
      ((statusNotify [] status).body quoteWorst).length + 6 * u.length := by
    simp only [statusNotify, Frame.body, Json.write, writeMembers, commas, quoteWorst,
      List.length_append, List.length_cons, List.length_replicate, List.length_nil]
    omega
  have hshort : ((statusNotify [] status).body quoteWorst).length ≤ 1000 := by
    cases status with
    | online => decide +kernel
    | offline => decide +kernel
  refine withinLimit_of_worst hq ?_
  unfold maxBodyLength
  change ((statusNotify u status).body quoteWorst).length ≤ 65536
  omega

/-- How long the data of a response can become. -/
def Response.dataLength (response : Response) : Nat :=
  match response.data with
  | none => 0
  | some data => (data.write quoteWorst).length

/-- A response whose own texts are short. -/
def Response.Short (response : Response) : Prop :=
  (bytes (toString response.code)).length ≤ 20 ∧ response.msg.length ≤ 300 ∧ response.dataLength ≤ 1000

instance (response : Response) : Decidable response.Short := by
  unfold Response.Short
  infer_instance

/-- The codes and texts of the answers without data. -/
@[simp]
def plainAnswers : List (Int × String) :=
  [(0, "注册成功"), (0, "登录成功"), (0, "修改成功"), (0, "添加好友成功"), (0, "删除好友成功"), (0, "发送成功"),
   (0, "心跳正常"), (1001, "未修改任何信息"), (1001, "目标用户名不能为空"), (2001, "用户名格式不合法"),
   (2001, "密码格式不合法"), (2001, "新用户名格式不合法"), (2001, "新密码格式不合法"), (2002, "用户名已存在"),
   (2002, "新用户名已存在"), (2003, "用户不存在"), (2004, "密码错误"), (2006, "验证密码错误"), (3001, "目标用户不存在"),
   (3002, "已经是好友关系"), (3003, "不能添加自己为好友"), (3004, "不是好友关系"), (4001, "消息内容不能为空"),
   (4002, "消息内容过长"), (4002, "未知的请求类型"), (4003, "发送者不存在"), (4003, "接收方不存在"),
   (4003, "用户不存在"), (4003, "目标用户不存在"), (5001, "数据库操作失败"), (5002, "数据库查询失败")]

theorem short_of_mem : ∀ a ∈ plainAnswers, Response.Short ⟨a.1, bytes a.2, none⟩ := by
  decide +kernel

theorem short_plain {code : Int} {text : String} (h : (code, text) ∈ plainAnswers) :
    Response.Short ⟨code, bytes text, none⟩ :=
  short_of_mem (code, text) h

theorem withinLimit_response (hq : Quotes quote) {type : Str} (htype : type.length ≤ 20)
    {response : Response} (h : response.Short) : WithinLimit quote (responseFrame type response) := by
  obtain ⟨hcode, hmsg, hdata⟩ := h
  have htypeKey : (bytes "type").length = 4 := by decide
  have hcodeKey : (bytes "code").length = 4 := by decide
  have hmsgKey : (bytes "msg").length = 3 := by decide
  have hdataKey : (bytes "data").length = 4 := by decide
  have hsuffix : (bytes "_RESPONSE").length = 9 := by decide
  refine withinLimit_of_worst hq ?_
  change ((responseFrame type response).body quoteWorst).length ≤ 65536
  unfold responseFrame
  unfold Response.dataLength at hdata
  cases hnone : response.data with
  | none =>
    simp only [Frame.body, Json.write, List.cons_append, List.nil_append, writeMembers, commas,
      quoteWorst, List.length_append, List.length_cons, List.length_replicate, List.length_nil,
      htypeKey, hcodeKey, hmsgKey, hsuffix]
    omega
  | some data =>
    rw [hnone] at hdata
    simp only [Frame.body, Json.write, List.cons_append, List.nil_append, writeMembers, commas,
      quoteWorst, List.length_append, List.length_cons, List.length_replicate, List.length_nil,
      htypeKey, hcodeKey, hmsgKey, hdataKey, hsuffix]
    dsimp only at hdata
    omega

/-! ## Frames of the length of their data -/

def friendListAnswer (type : Str) (friends : List (Str × Bool)) : Frame :=
  responseFrame type
    ⟨0, bytes "查询成功", some (.obj [(bytes "friends", .arr (friends.map friendJson))])⟩

def queryFriendAnswer (type targetUsername : Str) (isOnline : Bool) : Frame :=
  responseFrame type
    ⟨0, bytes "查询成功",
      some (.obj
        [(bytes "username", .str targetUsername),
         (bytes "status", .str (statusOf isOnline).text)])⟩

def historyAnswer (type : Str) (messages : List Message) : Frame :=
  responseFrame type ⟨0, bytes "查询成功", some (historyData messages)⟩

def unknownAnswer (type : Str) : Frame := responseFrame type ⟨4002, bytes "未知的请求类型", none⟩

/-- How long texts are as strings. -/
def quoted (quote : Str → Str) (texts : List Str) : Nat := (texts.map fun s => (quote s).length).sum

/-- How long a list is, of its elements and the commas between them. -/
def listed (lengths : List Nat) : Nat := lengths.sum + (lengths.length - 1)

def friendLength (quote : Str → Str) (friend : Str × Bool) : Nat :=
  quoted quote [bytes "username", bytes "status"] + 5 +
    quoted quote [friend.1, (statusOf friend.2).text]

def messageLength (quote : Str → Str) (msg : Message) : Nat :=
  quoted quote [bytes "sender", bytes "content", bytes "timestamp", bytes "is_read"] +
    (if msg.isRead then 13 else 14) + quoted quote [msg.senderUsername, msg.content, msg.sendTime]

/-- Fixed texts, marks (all that is not in a string) and data are within the limit. -/
def Room (quote : Str → Str) (fixed : List Str) (marks data : Nat) : Prop :=
  quoted quote fixed + marks + data ≤ maxBodyLength

def RoomForForward (quote : Str → Str) (senderUsername content sendTime : Str) : Prop :=
  Room quote [bytes "type", bytes "FORWARD_MSG", bytes "data", bytes "sender", bytes "content",
    bytes "timestamp"] 13 (quoted quote [senderUsername, content, sendTime])

def RoomForNotify (quote : Str → Str) (senderUsername content : Str) : Prop :=
  Room quote [bytes "type", bytes "MSG_NOTIFY", bytes "data", bytes "sender", bytes "summary"] 11
    (quoted quote [senderUsername, summaryOf content])

def RoomForUnknown (quote : Str → Str) (type : Str) : Prop :=
  Room quote [bytes "type", bytes "code", bytes "msg", bytes "未知的请求类型"] 12
    (quoted quote [type ++ bytes "_RESPONSE"])

/-- What a successful answer with data has around the data. -/
def RoomForAnswer (quote : Str → Str) (type : Str) (data : Nat) : Prop :=
  Room quote [bytes "type", type ++ bytes "_RESPONSE", bytes "code", bytes "msg", bytes "查询成功",
    bytes "data"] 11 data

theorem listed_perm {lengths lengths' : List Nat} (h : lengths.Perm lengths') :
    listed lengths = listed lengths' := by
  unfold listed
  rw [h.sum_nat, h.length_eq]

theorem length_commas (texts : List Str) :
    (commas texts).length = listed (texts.map List.length) := by
  induction texts with
  | nil => rfl
  | cons text texts ih =>
    cases texts with
    | nil => simp [commas, listed]
    | cons text' texts =>
      simp only [commas, listed, List.length_append, List.length_cons, List.map_cons, List.sum_cons,
        List.length_map] at ih ⊢
      omega

theorem writeElems_eq_map (quote : Str → Str) (elems : List Json) :
    writeElems quote elems = elems.map (Json.write quote) := by
  induction elems with
  | nil => rfl
  | cons elem elems ih => rw [writeElems, ih, List.map_cons]

theorem length_write_arr (quote : Str → Str) (elems : List Json) :
    ((Json.arr elems).write quote).length =
      listed (elems.map fun elem => (elem.write quote).length) + 2 := by
  simp [Json.write, writeElems_eq_map, length_commas, Function.comp_def]

theorem length_friendJson (friend : Str × Bool) :
    ((friendJson friend).write quote).length = friendLength quote friend := by
  simp only [friendJson, friendLength, quoted, Json.write, writeMembers, commas, List.length_append,
    List.length_cons, List.length_nil, List.map_cons, List.map_nil, List.sum_cons, List.sum_nil]
  omega

theorem length_messageJson (msg : Message) :
    ((messageJson msg).write quote).length = messageLength quote msg := by
  have hbool : (bytes (if msg.isRead then "true" else "false")).length =
      if msg.isRead then 4 else 5 := by
    cases msg.isRead with
    | false => decide
    | true => decide
  simp only [messageJson, messageLength, quoted, Json.write, writeMembers, commas,
    List.length_append, List.length_cons, List.length_nil, List.map_cons, List.map_nil,
    List.sum_cons, List.sum_nil, hbool]
  split
  · omega
  · omega

/-- A frame of known length. -/
theorem withinLimit_iff {frame : Frame} {fixed : List Str} {marks data : Nat} (hmarks : 0 < marks)
    (h : (frame.body quote).length = quoted quote fixed + marks + data) :
    WithinLimit quote frame ↔ Room quote fixed marks data := by
  unfold WithinLimit Room
  rw [h]
  omega

theorem withinLimit_forward_iff (senderUsername content sendTime : Str) :
    WithinLimit quote (forwardMsg senderUsername content sendTime) ↔
      RoomForForward quote senderUsername content sendTime := by
  refine withinLimit_iff (by decide) ?_
  simp only [forwardMsg, Frame.body, quoted, Json.write, writeMembers, commas, List.length_append,
    List.length_cons, List.length_nil, List.map_cons, List.map_nil, List.sum_cons, List.sum_nil]
  omega

theorem withinLimit_notify_iff (senderUsername content : Str) :
    WithinLimit quote (msgNotify senderUsername content) ↔
      RoomForNotify quote senderUsername content := by
  refine withinLimit_iff (by decide) ?_
  simp only [msgNotify, Frame.body, quoted, Json.write, writeMembers, commas, List.length_append,
    List.length_cons, List.length_nil, List.map_cons, List.map_nil, List.sum_cons, List.sum_nil]
  omega

theorem withinLimit_unknown_iff (type : Str) :
    WithinLimit quote (unknownAnswer type) ↔ RoomForUnknown quote type := by
  have hcode : (bytes (toString (4002 : Int))).length = 4 := by decide
  refine withinLimit_iff (by decide) ?_
  simp only [unknownAnswer, responseFrame, Frame.body, quoted, Json.write, List.append_nil,
    writeMembers, commas, List.length_append, List.length_cons, List.length_nil, List.map_cons,
    List.map_nil, List.sum_cons, List.sum_nil, hcode]
  omega

theorem withinLimit_answer_iff (type : Str) (data : Json) :
    WithinLimit quote (responseFrame type ⟨0, bytes "查询成功", some data⟩) ↔
      RoomForAnswer quote type (data.write quote).length := by
  have hcode : (bytes (toString (0 : Int))).length = 1 := by decide
  refine withinLimit_iff (by decide) ?_
  simp only [responseFrame, Frame.body, quoted, Json.write, List.cons_append, List.nil_append,
    writeMembers, commas, List.length_append, List.length_cons, List.length_nil, List.map_cons,
    List.map_nil, List.sum_cons, List.sum_nil, hcode]
  omega

/-- An object that is one list. -/
theorem length_write_list (key : Str) (elems : List Json) :
    ((Json.obj [(key, .arr elems)]).write quote).length =
      quoted quote [key] + 5 + listed (elems.map fun elem => (elem.write quote).length) := by
  have harr := length_write_arr quote elems
  simp only [Json.write, writeMembers, commas, quoted, List.length_append, List.length_cons,
    List.length_nil, List.map_cons, List.map_nil, List.sum_cons, List.sum_nil] at harr ⊢
  omega

theorem withinLimit_friendList_iff (type : Str) (friends : List (Str × Bool)) :
    WithinLimit quote (friendListAnswer type friends) ↔ RoomForAnswer quote type
      (quoted quote [bytes "friends"] + 5 + listed (friends.map (friendLength quote))) := by
  unfold friendListAnswer
  rw [withinLimit_answer_iff, length_write_list, List.map_map]
  simp only [Function.comp_def, length_friendJson]

theorem withinLimit_queryFriend_iff (type targetUsername : Str) (isOnline : Bool) :
    WithinLimit quote (queryFriendAnswer type targetUsername isOnline) ↔
      RoomForAnswer quote type (friendLength quote (targetUsername, isOnline)) := by
  rw [← length_friendJson]
  exact withinLimit_answer_iff type _

theorem withinLimit_history_iff (type : Str) (messages : List Message) :
    WithinLimit quote (historyAnswer type messages) ↔ RoomForAnswer quote type
      (quoted quote [bytes "messages"] + 5 + listed (messages.map (messageLength quote))) := by
  unfold historyAnswer historyData
  rw [withinLimit_answer_iff, length_write_list, List.map_map]
  simp only [Function.comp_def, length_messageJson]

end LiteChat
