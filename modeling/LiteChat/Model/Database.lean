import LiteChat.Effect.Rows
import LiteChat.Model.Json

/-!
# The database

The three tables of `sql/init.sql`, with the constraints the schema declares as fields: a
`Database` in which two users share a name, a friendship occurs twice, or a row refers to a user
that is not there cannot be built, and a statement that would build one fails as MySQL makes it
fail (`Database.exec` answers `none`, which the connector raises as `sql::SQLException`).

What MySQL and OpenSSL compute is not in the repository, so it is a parameter:

* `weight` is the collation. Two names are equal for the database (in `WHERE username = ?` and in
  the `UNIQUE` key) exactly if their weights are. Nothing is assumed of it; `utf8mb4_unicode_ci`
  gives `Alice` and `alice` one weight.
* `md5` is the digest in hexadecimal, and `datetime` the text of a `DATETIME` in seconds.

`Stmt` lists the statements the DAO classes prepare, under what they ask for. A query without
`ORDER BY`, or with ties in its key, gives its rows in an order the environment picks (`rank`).
-/

namespace LiteChat

/-- What the program takes from MySQL and OpenSSL. -/
structure Platform where
  weight : Str → Str
  md5 : Str → Str
  datetime : Nat → Str

abbrev UserId : Type := Nat

/-- A row of `users`, less the columns no statement reads. -/
structure UserRow where
  userId : UserId
  username : Str
  passwordHash : Str
  isOnline : Bool
  lastLoginTime : Option Nat
  deriving DecidableEq

/-- A row of `friends`. -/
structure FriendRow where
  userId1 : UserId
  userId2 : UserId
  deriving DecidableEq

/-- A row of `messages`. -/
structure MessageRow where
  messageId : Nat
  senderId : UserId
  receiverId : UserId
  content : Str
  sendTime : Nat
  isRead : Bool
  deriving DecidableEq

/-- `struct Message` of `message_dao.h`: a message joined with the names of its users. -/
structure Message where
  messageId : Nat
  senderId : UserId
  receiverId : UserId
  senderUsername : Str
  receiverUsername : Str
  content : Str
  sendTime : Str
  isRead : Bool

/-- The tables, under the constraints of the schema. `nextUserId` and `nextMessageId` are the
`AUTO_INCREMENT` counters. -/
structure Database (P : Platform) where
  users : List UserRow
  friends : List FriendRow
  messages : List MessageRow
  nextUserId : UserId
  nextMessageId : Nat
  users_id : (users.map (·.userId)).Nodup
  users_id_lt : ∀ u ∈ users, u.userId < nextUserId
  users_name : (users.map fun u => P.weight u.username).Nodup
  friends_unique : friends.Nodup
  messages_id : (messages.map (·.messageId)).Nodup
  messages_id_lt : ∀ m ∈ messages, m.messageId < nextMessageId
  friends_user : ∀ f ∈ friends,
    f.userId1 ∈ users.map (·.userId) ∧ f.userId2 ∈ users.map (·.userId)
  messages_user : ∀ m ∈ messages,
    m.senderId ∈ users.map (·.userId) ∧ m.receiverId ∈ users.map (·.userId)

namespace Database

variable {P : Platform}

/-- The tables as `init.sql` creates them. -/
def empty : Database P where
  users := []
  friends := []
  messages := []
  nextUserId := 1
  nextMessageId := 1
  users_id := List.nodup_nil
  users_id_lt := by simp
  users_name := List.nodup_nil
  friends_unique := List.nodup_nil
  messages_id := List.nodup_nil
  messages_id_lt := by simp
  friends_user := by simp
  messages_user := by simp

/-- The row `WHERE username = ?` selects. -/
def byName (db : Database P) (username : Str) : Option UserRow :=
  db.users.find? fun u => P.weight u.username = P.weight username

/-- The row `WHERE user_id = ?` selects. -/
def byId (db : Database P) (userId : UserId) : Option UserRow :=
  db.users.find? fun u => u.userId = userId

/-- The `user_id` that the name selects. -/
def idOf (db : Database P) (username : Str) : Option UserId :=
  (db.byName username).map (·.userId)

/-- A foreign key to `users (user_id)` accepts the id. -/
abbrev HasUser (db : Database P) (userId : UserId) : Prop :=
  userId ∈ db.users.map (·.userId)

/-! ## Statements -/

/-- An `UPDATE users` that sets neither `user_id` nor `username`. -/
def mapUsers (db : Database P) (f : UserRow → UserRow) (hid : ∀ u, (f u).userId = u.userId)
    (hname : ∀ u, (f u).username = u.username) : Database P where
  users := db.users.map f
  friends := db.friends
  messages := db.messages
  nextUserId := db.nextUserId
  nextMessageId := db.nextMessageId
  users_id := by
    rw [Effect.map_key_map hid]
    exact db.users_id
  users_id_lt := by
    intro u hu
    obtain ⟨v, hv, rfl⟩ := List.mem_map.mp hu
    exact hid v ▸ db.users_id_lt v hv
  users_name := by
    rw [Effect.map_key_map fun u => by rw [hname]]
    exact db.users_name
  friends_unique := db.friends_unique
  messages_id := db.messages_id
  messages_id_lt := db.messages_id_lt
  friends_user := by
    rw [Effect.map_key_map hid]
    exact db.friends_user
  messages_user := by
    rw [Effect.map_key_map hid]
    exact db.messages_user

/-- `UPDATE users SET is_online = ? WHERE …`, the condition being `p`. -/
def setOnlineWhere (db : Database P) (p : UserRow → Bool) (isOnline : Bool) : Database P :=
  db.mapUsers (fun u => if p u then { u with isOnline := isOnline } else u)
    (fun u => by split <;> rfl) (fun u => by split <;> rfl)

/-- `UPDATE users SET password_hash = ? WHERE user_id = ?`. -/
def updatePassword (db : Database P) (userId : UserId) (newPasswordHash : Str) : Database P :=
  db.mapUsers
    (fun u => if u.userId = userId then { u with passwordHash := newPasswordHash } else u)
    (fun u => by split <;> rfl) (fun u => by split <;> rfl)

/-- `UPDATE users SET last_login_time = NOW() WHERE user_id = ?`. -/
def updateLastLogin (db : Database P) (userId : UserId) (now : Nat) : Database P :=
  db.mapUsers (fun u => if u.userId = userId then { u with lastLoginTime := some now } else u)
    (fun u => by split <;> rfl) (fun u => by split <;> rfl)

/-- `INSERT INTO users (username, password_hash) VALUES (?, ?)`. -/
def insertUser (db : Database P) (username passwordHash : Str) : Option (Database P) :=
  if h : ∀ u ∈ db.users, P.weight u.username ≠ P.weight username then
    some
      { users := db.users ++ [⟨db.nextUserId, username, passwordHash, false, none⟩]
        friends := db.friends
        messages := db.messages
        nextUserId := db.nextUserId + 1
        nextMessageId := db.nextMessageId
        users_id := by
          rw [List.map_append]
          refine db.users_id.append (List.nodup_singleton _) ?_
          intro i hi hi'
          obtain ⟨u, hu, rfl⟩ := List.mem_map.mp hi
          exact absurd (List.mem_singleton.mp hi') (Nat.ne_of_lt (db.users_id_lt u hu))
        users_id_lt := by
          intro u hu
          rcases List.mem_append.mp hu with hu | hu
          · exact Nat.lt_succ_of_lt (db.users_id_lt u hu)
          · rw [List.mem_singleton.mp hu]
            exact Nat.lt_succ_self _
        users_name := by
          rw [List.map_append]
          refine db.users_name.append (List.nodup_singleton _) ?_
          intro k hk hk'
          obtain ⟨u, hu, rfl⟩ := List.mem_map.mp hk
          exact absurd (List.mem_singleton.mp hk') (h u hu)
        friends_unique := db.friends_unique
        messages_id := db.messages_id
        messages_id_lt := db.messages_id_lt
        friends_user := fun f hf => by
          rw [List.map_append]
          exact (db.friends_user f hf).imp (List.mem_append_left _) (List.mem_append_left _)
        messages_user := fun m hm => by
          rw [List.map_append]
          exact (db.messages_user m hm).imp (List.mem_append_left _) (List.mem_append_left _) }
  else none

/-- Give the user `userId` another name, in the list of rows. -/
def renameRow (userId : UserId) (newUsername : Str) (u : UserRow) : UserRow :=
  if u.userId = userId then { u with username := newUsername } else u

theorem renameRow_userId (userId : UserId) (newUsername : Str) (u : UserRow) :
    (renameRow userId newUsername u).userId = u.userId := by
  unfold renameRow
  split <;> rfl

/-- `UPDATE users SET username = ? WHERE user_id = ?`, which fails if another row has the
name. -/
def updateUsername (db : Database P) (userId : UserId) (newUsername : Str) :
    Option (Database P) :=
  if h : ∀ u ∈ db.users, u.userId ≠ userId → P.weight u.username ≠ P.weight newUsername then
    some
      { users := db.users.map (renameRow userId newUsername)
        friends := db.friends
        messages := db.messages
        nextUserId := db.nextUserId
        nextMessageId := db.nextMessageId
        users_id := by
          rw [Effect.map_key_map (renameRow_userId userId newUsername)]
          exact db.users_id
        users_id_lt := by
          intro u hu
          obtain ⟨v, hv, rfl⟩ := List.mem_map.mp hu
          exact renameRow_userId userId newUsername v ▸ db.users_id_lt v hv
        users_name := by
          rw [List.map_map]
          refine (List.Nodup.of_map _ db.users_id).map_on ?_
          -- two rows that end with one name are one row: at most one of them was renamed
          intro u hu v hv huv
          simp only [Function.comp_apply, renameRow] at huv
          by_cases hu' : u.userId = userId <;> by_cases hv' : v.userId = userId
          · exact Effect.eq_of_key_eq _ db.users_id hu hv (hu'.trans hv'.symm)
          · rw [if_pos hu', if_neg hv'] at huv
            exact absurd huv.symm (h v hv hv')
          · rw [if_neg hu', if_pos hv'] at huv
            exact absurd huv (h u hu hu')
          · rw [if_neg hu', if_neg hv'] at huv
            exact Effect.eq_of_key_eq (fun s : UserRow => P.weight s.username) db.users_name hu hv huv
        friends_unique := db.friends_unique
        messages_id := db.messages_id
        messages_id_lt := db.messages_id_lt
        friends_user := by
          rw [Effect.map_key_map (renameRow_userId userId newUsername)]
          exact db.friends_user
        messages_user := by
          rw [Effect.map_key_map (renameRow_userId userId newUsername)]
          exact db.messages_user }
  else none

/-- `INSERT INTO friends (user_id1, user_id2) VALUES (?, ?)`, under `unique_friendship` and the
two foreign keys. -/
def insertFriend (db : Database P) (userId1 userId2 : UserId) : Option (Database P) :=
  if h : ⟨userId1, userId2⟩ ∉ db.friends ∧ db.HasUser userId1 ∧ db.HasUser userId2 then
    some { db with
      friends := db.friends ++ [⟨userId1, userId2⟩]
      friends_unique := db.friends_unique.append (List.nodup_singleton _)
        fun _ hf hf' => h.1 (List.mem_singleton.mp hf' ▸ hf)
      friends_user := by
        intro f hf
        rcases List.mem_append.mp hf with hf | hf
        · exact db.friends_user f hf
        · rw [List.mem_singleton.mp hf]
          exact h.2 }
  else none

/-- `DELETE FROM friends WHERE user_id1 = ? AND user_id2 = ?`. -/
def deleteFriend (db : Database P) (userId1 userId2 : UserId) : Database P :=
  { db with
    friends := db.friends.filter fun f => ¬ (f.userId1 = userId1 ∧ f.userId2 = userId2)
    friends_unique := db.friends_unique.filter _
    friends_user := fun f hf => db.friends_user f (List.mem_of_mem_filter hf) }

/-- The condition of the statements about the messages between two users. -/
def MessageRow.between (m : MessageRow) (userId1 userId2 : UserId) : Prop :=
  (m.senderId = userId1 ∧ m.receiverId = userId2) ∨
    (m.senderId = userId2 ∧ m.receiverId = userId1)

instance (m : MessageRow) (a b : UserId) : Decidable (MessageRow.between m a b) := by
  unfold MessageRow.between
  infer_instance

/-- `DELETE FROM messages WHERE (sender_id = ? AND receiver_id = ?) OR (…)`. -/
def deleteMessagesBetween (db : Database P) (userId1 userId2 : UserId) : Database P :=
  { db with
    messages := db.messages.filter fun m => ¬ MessageRow.between m userId1 userId2
    messages_id := db.messages_id.sublist (List.filter_sublist.map _)
    messages_id_lt := fun m hm => db.messages_id_lt m (List.mem_of_mem_filter hm)
    messages_user := fun m hm => db.messages_user m (List.mem_of_mem_filter hm) }

/-- `INSERT INTO messages (sender_id, receiver_id, content) VALUES (?, ?, ?)`, at the time `now`
and under the two foreign keys. -/
def insertMessage (db : Database P) (now : Nat) (senderId receiverId : UserId) (content : Str) :
    Option (Database P) :=
  if h : db.HasUser senderId ∧ db.HasUser receiverId then
    some { db with
      messages := db.messages ++ [⟨db.nextMessageId, senderId, receiverId, content, now, false⟩]
      nextMessageId := db.nextMessageId + 1
      messages_id := by
        rw [List.map_append]
        refine db.messages_id.append (List.nodup_singleton _) ?_
        intro i hi hi'
        obtain ⟨m, hm, rfl⟩ := List.mem_map.mp hi
        exact absurd (List.mem_singleton.mp hi') (Nat.ne_of_lt (db.messages_id_lt m hm))
      messages_id_lt := by
        intro m hm
        rcases List.mem_append.mp hm with hm | hm
        · exact Nat.lt_succ_of_lt (db.messages_id_lt m hm)
        · rw [List.mem_singleton.mp hm]
          exact Nat.lt_succ_self _
      messages_user := by
        intro m hm
        rcases List.mem_append.mp hm with hm | hm
        · exact db.messages_user m hm
        · rw [List.mem_singleton.mp hm]
          exact h }
  else none

/-- Mark one row as `MarkMessagesAsRead` does: `is_read` becomes 1 if it is 0. -/
def readRow (senderId receiverId : UserId) (m : MessageRow) : MessageRow :=
  if m.senderId = senderId ∧ m.receiverId = receiverId then { m with isRead := true } else m

theorem readRow_messageId (senderId receiverId : UserId) (m : MessageRow) :
    (readRow senderId receiverId m).messageId = m.messageId := by
  unfold readRow
  split <;> rfl

/-- `UPDATE messages SET is_read = 1 WHERE sender_id = ? AND receiver_id = ? AND is_read = 0`. -/
def markRead (db : Database P) (senderId receiverId : UserId) : Database P :=
  { db with
    messages := db.messages.map (readRow senderId receiverId)
    messages_id := by
      rw [Effect.map_key_map (readRow_messageId senderId receiverId)]
      exact db.messages_id
    messages_id_lt := by
      intro m hm
      obtain ⟨n, hn, rfl⟩ := List.mem_map.mp hm
      exact readRow_messageId senderId receiverId n ▸ db.messages_id_lt n hn
    messages_user := by
      intro m hm
      obtain ⟨n, hn, rfl⟩ := List.mem_map.mp hm
      unfold readRow
      split <;> exact db.messages_user n hn }

/-! ## Queries -/

/-- The join of `GetFriendList` and `GetFriendsOfUser`: one result for each pair of a user other
than `userId` and a row of `friends` that contains both. -/
def friendsOf (db : Database P) (userId : UserId) : List (Str × Bool) :=
  db.users.flatMap fun u =>
    (db.friends.filter fun f =>
      (f.userId1 = u.userId ∨ f.userId2 = u.userId) ∧
        (f.userId1 = userId ∨ f.userId2 = userId) ∧ u.userId ≠ userId).map
      fun _ => (u.username, u.isOnline)

/-- A message with the names of its users; the join drops it if one of them is gone. -/
def joined (db : Database P) (m : MessageRow) : Option Message :=
  match db.byId m.senderId, db.byId m.receiverId with
  | some s, some r => some
      { messageId := m.messageId
        senderId := m.senderId
        receiverId := m.receiverId
        senderUsername := s.username
        receiverUsername := r.username
        content := m.content
        sendTime := P.datetime m.sendTime
        isRead := m.isRead }
  | _, _ => none

/-- `ORDER BY m.send_time ASC`, with ties in the order of `rank`. -/
def bySendTime (rank : Nat → Nat) (rows : List MessageRow) : List MessageRow :=
  (Effect.arrange rank rows).insertionSort fun m n => m.sendTime ≤ n.sendTime

/-- The query of `GetUnreadMessages`. -/
def unread (db : Database P) (rank : Nat → Nat) (userId : UserId) : List Message :=
  (bySendTime rank (db.messages.filter fun m => m.receiverId = userId ∧ m.isRead = false)).filterMap
    db.joined

/-- The query of `GetHistoryMessages`, `LIMIT` included. -/
def history (db : Database P) (rank : Nat → Nat) (userId1 userId2 : UserId) (count : Int) :
    List Message :=
  ((bySendTime rank (db.messages.filter fun m =>
    MessageRow.between m userId1 userId2)).filterMap db.joined).take count.toNat

end Database

/-- The statements that the DAO classes prepare. -/
inductive Stmt
  | insertUser (username passwordHash : Str)
  | selectUser (username : Str)
  | updateUsername (userId : UserId) (newUsername : Str)
  | updatePassword (userId : UserId) (newPasswordHash : Str)
  | updateOnline (userId : UserId) (isOnline : Bool)
  | updateLastLogin (userId : UserId)
  | countUsers (username : Str)
  | selectOnline (userId : UserId)
  | updateOnlineByName (username : Str) (isOnline : Bool)
  | selectUserId (username : Str)
  | selectFriends (userId : UserId)
  | insertFriend (userId1 userId2 : UserId)
  | deleteFriend (userId1 userId2 : UserId)
  | deleteMessages (userId1 userId2 : UserId)
  | countFriends (userId1 userId2 : UserId)
  | insertMessage (senderId receiverId : UserId) (content : Str)
  | selectUnread (userId : UserId)
  | markRead (senderId receiverId : UserId)
  | selectHistory (userId1 userId2 : UserId) (count : Int)

/-- What a statement gives: the first row, the rows, a count, or nothing. -/
def Stmt.Res : Stmt → Type
  | .selectUser _ => Option (UserId × Str)
  | .countUsers _ => Nat
  | .selectOnline _ => Option Bool
  | .selectUserId _ => Option UserId
  | .selectFriends _ => List (Str × Bool)
  | .countFriends _ _ => Nat
  | .selectUnread _ => List Message
  | .selectHistory _ _ _ => List Message
  | _ => Unit

namespace Database

variable {P : Platform}

/-- Execute a statement at the time `now`; `none` is a violated constraint. -/
def exec (now : Nat) (rank : Nat → Nat) (db : Database P) :
    (st : Stmt) → Option (st.Res × Database P)
  | .insertUser username passwordHash => (db.insertUser username passwordHash).map ((), ·)
  | .selectUser username =>
      some ((db.byName username).map fun u => (u.userId, u.passwordHash), db)
  | .updateUsername userId newUsername => (db.updateUsername userId newUsername).map ((), ·)
  | .updatePassword userId newPasswordHash => some ((), db.updatePassword userId newPasswordHash)
  | .updateOnline userId isOnline =>
      some ((), db.setOnlineWhere (fun u => u.userId = userId) isOnline)
  | .updateLastLogin userId => some ((), db.updateLastLogin userId now)
  | .countUsers username =>
      some ((db.users.filter fun u => P.weight u.username = P.weight username).length, db)
  | .selectOnline userId => some ((db.byId userId).map (·.isOnline), db)
  | .updateOnlineByName username isOnline =>
      some ((), db.setOnlineWhere (fun u => P.weight u.username = P.weight username) isOnline)
  | .selectUserId username => some (db.idOf username, db)
  | .selectFriends userId => some (Effect.arrange rank (db.friendsOf userId), db)
  | .insertFriend userId1 userId2 => (db.insertFriend userId1 userId2).map ((), ·)
  | .deleteFriend userId1 userId2 => some ((), db.deleteFriend userId1 userId2)
  | .deleteMessages userId1 userId2 => some ((), db.deleteMessagesBetween userId1 userId2)
  | .countFriends userId1 userId2 =>
      some ((db.friends.filter fun f => f.userId1 = userId1 ∧ f.userId2 = userId2).length, db)
  | .insertMessage senderId receiverId content =>
      (db.insertMessage now senderId receiverId content).map ((), ·)
  | .selectUnread userId => some (db.unread rank userId, db)
  | .markRead senderId receiverId => some ((), db.markRead senderId receiverId)
  | .selectHistory userId1 userId2 count => some (db.history rank userId1 userId2 count, db)

end Database

end LiteChat
