import LiteChat.Proof.Journal

/-!
# What the message handlers mark

`ForwardMessage` knows the pair of users and marks every unread row of the pair, and this is the
only place where a row is marked. So after a request a row that is marked now and was not before is
of a pair of which *some* message went out (`PairForwarded`). Whether it was this row's own message is
another matter, except for the row that the request itself stored: that one is what was sent
(`Settles`).

A frame goes to the account whose name the session carries (`World.accountAt`); that this is the
account the message is for needs the routes to lead to sessions of their name. It says whom it is from
by a name; nobody is renamed in a request that forwards, so the name is that of the sender in the state
before (`forwards`).
-/

namespace LiteChat

open LiteChat.Action Spec MessageManager

variable {P : Platform} {E : Env} {w w' w'' : World P}

/-- A message of the sender with that content was sent to the account, and the send succeeded. -/
def SentTo (said : List Obs) (receiverId : UserId) (senderUsername content : Str) : Prop :=
  ∃ c sendTime, .sent c (some receiverId) (forwardMsg senderUsername content sendTime) true ∈ said

/-- Whom a `FORWARD_MSG` frame says that it is from. -/
def Frame.sender? : Frame → Option Str
  | .text _ => none
  | .json j => ((j.member? (bytes "data")).bind (Json.member? (bytes "sender"))).bind Json.str?

/-- What a message is: whom it is from, whom it is for, and its content. -/
abbrev Letter : Type := UserId × UserId × Str

def MessageRow.letter (m : MessageRow) : Letter := (m.senderId, m.receiverId, m.content)

/-- The message that has got through, if it was one that was sent: the users are those whose names the
frame and the session carry. -/
def Obs.letter? (db : Database P) : Obs → Option Letter
  | .sent _ (some receiverId) frame true =>
    match frame.forwarded?, frame.sender? with
    | some content, some u => (db.idOf u).map fun senderId => (senderId, receiverId, content)
    | _, _ => none
  | _ => none

/-- The messages that have got through, with all that was sent of them. -/
def forwards (db : Database P) (said : List Obs) : List Letter := said.filterMap (Obs.letter? db)

/-- Some message from the sender of this one to its receiver has got through. -/
def PairForwarded (db : Database P) (said : List Obs) (m : MessageRow) : Prop :=
  ∃ letter ∈ forwards db said, letter.1 = m.senderId ∧ letter.2.1 = m.receiverId

/-- Every row that is marked was marked, or has just been stored and got through, or is of a pair of
which some message did. -/
def Settles (w w' : World P) : Prop :=
  ∃ said, w'.trace = w.trace ++ said ∧ ∀ m' ∈ w'.db.messages, m'.isRead = true →
    m' ∈ w.db.messages ∨
      ((∀ m ∈ w.db.messages, m.messageId ≠ m'.messageId) ∧ m'.letter ∈ forwards w.db said) ∨
      ∃ m ∈ w.db.messages, m' = { m with isRead := true } ∧ PairForwarded w.db said m

/-- What handlers do that leave users and sessions alone. -/
structure Chats (w w' : World P) : Prop extends KeepsUsers w w' where
  settles : w.sessions.logins.Sound → Settles w w'

theorem SentTo.mono {said said' : List Obs} {i : UserId} {u content : Str}
    (h : SentTo said i u content) (hsub : said ⊆ said') : SentTo said' i u content := by
  obtain ⟨c, t, hmem⟩ := h
  exact ⟨c, t, hsub hmem⟩

theorem mem_forwards {db : Database P} {said : List Obs} {i j : UserId} {u content : Str}
    (hu : db.idOf u = some i) (h : SentTo said j u content) : (i, j, content) ∈ forwards db said := by
  obtain ⟨c, t, hmem⟩ := h
  refine List.mem_filterMap.mpr ⟨_, hmem, ?_⟩
  show (db.idOf u).map (fun senderId => (senderId, j, content)) = some (i, j, content)
  rw [hu]
  rfl

theorem forwards_subset (db : Database P) {said said' : List Obs} (hsub : said ⊆ said') :
    forwards db said ⊆ forwards db said' := List.filterMap_subset _ hsub

theorem forwards_congr {db db' : Database P} (hid : ∀ u, db.idOf u = db'.idOf u) (said : List Obs) :
    forwards db said = forwards db' said := by
  have heach : Obs.letter? db = Obs.letter? db' := by
    funext o
    unfold Obs.letter?
    split
    · split
      · rw [hid]
      · rfl
    · rfl
  unfold forwards
  rw [heach]

theorem PairForwarded.mono {db : Database P} {said said' : List Obs} {m : MessageRow}
    (h : PairForwarded db said m) (hsub : said ⊆ said') : PairForwarded db said' m := by
  obtain ⟨letter, hsent, hpair⟩ := h
  exact ⟨letter, forwards_subset db hsub hsent, hpair⟩

/-- Nothing is marked where no message is new or marked. -/
theorem Settles.of_messages (htrace : w.trace <+: w'.trace)
    (h : ∀ m ∈ w'.db.messages, m ∈ w.db.messages) : Settles w w' := by
  obtain ⟨said, hsaid⟩ := htrace
  exact ⟨said, hsaid.symm, fun m hm _ => .inl (h m hm)⟩

theorem Plain.chats (h : Plain w w') : Chats w w' :=
  ⟨h.toKeepsUsers, fun _ => .of_messages h.trace h.messages⟩

/-- Before and after, anything may happen that leaves the tables alone but for users' flags. -/
theorem Settles.around {w₀ w₁ : World P} (h : Settles w w') (hmessages : w.db.messages = w₀.db.messages)
    (hid : ∀ u, w.db.idOf u = w₀.db.idOf u) (htrace : w₀.trace <+: w.trace)
    (hmessages' : w₁.db.messages = w'.db.messages) (htrace' : w'.trace <+: w₁.trace) :
    Settles w₀ w₁ := by
  obtain ⟨said, hsaid, hrows⟩ := h
  obtain ⟨before, hbefore⟩ := htrace
  obtain ⟨after, hafter⟩ := htrace'
  refine ⟨before ++ said ++ after, ?_, fun m' hm' hread => ?_⟩
  · rw [← hafter, hsaid, ← hbefore]
    simp
  · have hsub : said ⊆ before ++ said ++ after := by simp
    rw [hmessages'] at hm'
    unfold PairForwarded at hrows ⊢
    rw [hmessages, forwards_congr hid] at hrows
    rcases hrows m' hm' hread with hold | ⟨hnew, hsent⟩ | ⟨m, hm, hmark, letter, hsent, hpair⟩
    · exact .inl hold
    · exact .inr (.inl ⟨hnew, forwards_subset _ hsub hsent⟩)
    · exact .inr (.inr ⟨m, hm, hmark, letter, forwards_subset _ hsub hsent, hpair⟩)

/-! ## One message -/

/-- What `ForwardMessage` comes to: nothing is marked, or the whole pair is, and then the message
was sent to the receiver. -/
structure Forwards (senderId receiverId : UserId) (senderUsername receiverUsername content : Str)
    (w : World P) (said : List Obs) (w' : World P) : Prop where
  keeps : KeepsUsers w w'
  trace : w'.trace = w.trace ++ said
  db : w'.db = w.db ∨ w'.db = w.db.markRead senderId receiverId ∧
    (w.sessions.logins.Sound → w.db.idOf receiverUsername = some receiverId →
      SentTo said receiverId senderUsername content)

/-- A route that is sound leads to a session of the account. -/
theorem accountAt_of_route {u : Str} {c : Socket} (hsound : w.sessions.logins.Sound)
    (hroute : w.sessions.route u = some c) : w.accountAt c = w.db.idOf u := by
  obtain ⟨hlogin, hu⟩ := SessionManager.at_iff.mp (hsound u c hroute)
  unfold World.accountAt
  rw [hlogin, Option.bind_some, if_neg hu]

theorem wp_forwardMessage {senderId receiverId : UserId}
    {senderUsername receiverUsername content sendTime : Str} {Q : Bool → World P → Prop}
    (h : ∀ ok w' said, Forwards senderId receiverId senderUsername receiverUsername content w said w' →
      Q ok w') :
    wp E (forwardMessage senderId senderUsername receiverId receiverUsername content sendTime) Q w := by
  unfold forwardMessage
  simp only [wp_bind, wp_getSessionByUsername]
  cases hp : w.sessions.getSessionByUsername receiverUsername with
  | none => exact h _ _ [] ⟨.refl w, by simp, .inl rfl⟩
  | some p =>
    obtain ⟨s, hs, hroute, _⟩ := w.live_byUsername hp
    simp only [wp_bind, wp_getSocket hs, wp_sendData]
    refine ⟨?_, fun _ => ?_⟩
    · refine wp_if (fun _ => ?_) fun hne => absurd trivial hne
      simp only [wp_bind, wp_markMessagesAsRead, wp_pure]
      refine ⟨fun _ => ?_, ?_⟩
      · exact h _ _ _ ⟨.of_talks (Talks.observe w _), rfl, .inl rfl⟩
      · refine h _ _ _ ⟨⟨rfl, rfl, rfl, List.prefix_append _ _⟩, rfl, .inr ⟨rfl, fun hsound hid => ?_⟩⟩
        refine ⟨s.socket, sendTime, ?_⟩
        rw [accountAt_of_route hsound hroute, hid]
        exact List.mem_singleton_self _
    · exact h _ _ _ ⟨.of_talks (Talks.observe w _), rfl, .inl rfl⟩

theorem wp_sendNotification {c : Socket} {senderUsername content : Str} {Q : Unit → World P → Prop}
    (h : ∀ w', Talks w w' → Q () w') : wp E (sendNotification c senderUsername content) Q w := by
  unfold sendNotification
  rw [wp_bind]
  exact wp_say fun _ w' hw => h w' hw

/-! ## The push -/

/-- Rows are marked, of pairs that were forwarded. -/
structure Marks (w w' : World P) : Prop where
  keeps : KeepsUsers w w'
  rows : w.sessions.logins.Sound → ∃ said, w'.trace = w.trace ++ said ∧
    ∀ m' ∈ w'.db.messages, ∃ m ∈ w.db.messages,
      m' = m ∨ m' = { m with isRead := true } ∧ PairForwarded w.db said m

theorem Marks.of_talks (h : Talks w w') : Marks w w' := by
  refine ⟨.of_talks h, fun _ => ?_⟩
  obtain ⟨said, rfl⟩ := h
  exact ⟨said, rfl, fun m hm => ⟨m, hm, .inl rfl⟩⟩

theorem Marks.trans (h : Marks w w') (h' : Marks w' w'') : Marks w w'' := by
  refine ⟨h.keeps.trans h'.keeps, fun hsound => ?_⟩
  obtain ⟨said, hsaid, hrows⟩ := h.rows hsound
  obtain ⟨said', hsaid', hrows'⟩ := h'.rows (by rw [h.keeps.sessions]; exact hsound)
  refine ⟨said ++ said', by rw [hsaid', hsaid, List.append_assoc], fun m'' hm'' => ?_⟩
  obtain ⟨m', hm', hmark'⟩ := hrows' m'' hm''
  obtain ⟨m, hm, hmark⟩ := hrows m' hm'
  have hsub : said ⊆ said ++ said' := List.subset_append_left _ _
  have hsub' : said' ⊆ said ++ said' := List.subset_append_right _ _
  rcases hmark with rfl | ⟨rfl, hpair⟩
  · rcases hmark' with rfl | ⟨rfl, letter, hsent, hpair⟩
    · exact ⟨m'', hm, .inl rfl⟩
    · rw [forwards_congr h.keeps.idOf] at hsent
      exact ⟨m', hm, .inr ⟨rfl, letter, forwards_subset _ hsub' hsent, hpair⟩⟩
  · refine ⟨m, hm, .inr ⟨?_, hpair.mono hsub⟩⟩
    rcases hmark' with rfl | ⟨rfl, _⟩ <;> rfl

theorem Marks.chats (h : Marks w w') : Chats w w' := by
  refine ⟨h.keeps, fun hsound => ?_⟩
  obtain ⟨said, hsaid, hrows⟩ := h.rows hsound
  refine ⟨said, hsaid, fun m' hm' _ => ?_⟩
  obtain ⟨m, hm, hmark⟩ := hrows m' hm'
  rcases hmark with rfl | hmark
  · exact .inl hm
  · exact .inr (.inr ⟨m, hm, hmark⟩)

/-- A message whose names are those of its users. -/
def Message.Named (db : Database P) (msg : Message) : Prop :=
  db.idOf msg.senderUsername = some msg.senderId ∧ db.idOf msg.receiverUsername = some msg.receiverId

theorem Forwards.marks {msg : Message} {said : List Obs} (hnamed : msg.Named w.db)
    (h : Forwards msg.senderId msg.receiverId msg.senderUsername msg.receiverUsername msg.content
      w said w') : Marks w w' := by
  refine ⟨h.keeps, fun hsound => ⟨said, h.trace, fun m' hm' => ?_⟩⟩
  rcases h.db with hdb | ⟨hdb, hsent⟩
  · exact ⟨m', hdb ▸ hm', .inl rfl⟩
  · rw [hdb] at hm'
    obtain ⟨m, hm, rfl⟩ := List.mem_map.mp hm'
    refine ⟨m, hm, ?_⟩
    unfold Database.readRow
    split
    · rename_i hpair
      exact .inr ⟨rfl, _, mem_forwards hnamed.1 (hsent hsound hnamed.2), hpair.1.symm, hpair.2.symm⟩
    · exact .inl rfl

theorem wp_pushEach (c : Socket) (messages : List Message)
    (hnamed : ∀ msg ∈ messages, msg.Named w.db) :
    wp E (pushEach c messages) (fun _ w' => Marks w w') w := by
  induction messages generalizing w with
  | nil => exact .of_talks (Talks.refl w)
  | cons msg messages ih =>
    unfold pushEach
    rw [wp_bind]
    apply wp_forwardMessage
    intro _ w₁ said hforwards
    have h₁ : Marks w w₁ := hforwards.marks (hnamed msg (by simp))
    rw [wp_bind]
    apply wp_sendNotification
    intro w₂ htalks
    have h₂ : Marks w w₂ := h₁.trans (.of_talks htalks)
    refine wp_mono (ih fun msg' hmsg' => ?_) fun _ w₃ h₃ => h₂.trans h₃
    have hmsg := hnamed msg' (by simp [hmsg'])
    unfold Message.Named
    rw [h₂.keeps.idOf, h₂.keeps.idOf]
    exact hmsg

/-- `GetUnreadMessages` gives messages with the names of their users. -/
theorem named_of_mem_unread {rank : Nat → Nat} {i : UserId} {msg : Message}
    (h : msg ∈ w.db.unread rank i) : msg.Named w.db := by
  obtain ⟨m, _, hjoined⟩ := List.mem_filterMap.mp h
  unfold Database.joined at hjoined
  cases hs : w.db.byId m.senderId with
  | none => rw [hs] at hjoined; cases hjoined
  | some s =>
    cases hr : w.db.byId m.receiverId with
    | none => rw [hs, hr] at hjoined; cases hjoined
    | some r =>
      rw [hs, hr] at hjoined
      obtain ⟨hsmem, hsid⟩ := Database.byId_iff.mp hs
      obtain ⟨hrmem, hrid⟩ := Database.byId_iff.mp hr
      rw [← Option.some.inj hjoined]
      exact ⟨Database.idOf_iff.mpr ⟨s, hsmem, rfl, hsid⟩,
        Database.idOf_iff.mpr ⟨r, hrmem, rfl, hrid⟩⟩

theorem wp_pushOfflineMessages (u : Str) :
    wp E (pushOfflineMessages u) (fun _ w' => Chats w w') w := by
  have hrefl : Chats w w := (Plain.refl w).chats
  unfold pushOfflineMessages
  simp only [wp_bind, wp_getUserIdByUsername]
  refine ⟨fun _ => hrefl, ?_⟩
  cases w.db.idOf u with
  | none => exact hrefl
  | some i =>
    simp only [wp_bind, wp_getUnreadMessages]
    refine ⟨fun _ => hrefl, fun rank => wp_if (fun _ => hrefl) fun _ => ?_⟩
    simp only [wp_bind, wp_getSessionByUsername]
    cases hp : w.sessions.getSessionByUsername u with
    | none => exact hrefl
    | some p =>
      obtain ⟨s, hs, _⟩ := w.live_byUsername hp
      simp only [wp_bind, wp_getSocket hs]
      exact wp_mono (wp_pushEach s.socket _ fun _ => named_of_mem_unread) fun _ _ h => h.chats

/-! ## A message that was just stored -/

theorem Database.exists_insertMessage {db : Database P} {i j : UserId} (hi : db.HasUser i)
    (hj : db.HasUser j) (now : Nat) (content : Str) :
    ∃ db', db.insertMessage now i j content = some db' := by
  unfold Database.insertMessage
  rw [dif_pos ⟨hi, hj⟩]
  exact ⟨_, rfl⟩

theorem Database.exec_insertMessage {db db' : Database P} {now : Nat} {i j : UserId} {content : Str}
    (h : db.insertMessage now i j content = some db') (rank : Nat → Nat) :
    db.exec now rank (.insertMessage i j content) = some ((), db') :=
  congrArg (Option.map ((), ·)) h

/-- A login puts the friends into the cache before it pushes, and nothing that a push is about changes. -/
theorem wp_cacheFriendList_any {u : Str} {Q : Unit → World P → Prop}
    (h : ∀ cache, Q () { w with cachedFriendLists := cache }) :
    wp E (FriendManager.cacheFriendList u) Q w := by
  have hrefl : Q () w := h w.cachedFriendLists
  unfold FriendManager.cacheFriendList
  simp only [wp_bind, wp_getUserIdByUsername]
  refine ⟨fun _ => hrefl, ?_⟩
  cases w.db.idOf u with
  | none => exact hrefl
  | some i =>
    simp only [wp_bind, wp_getFriendList, wp_cacheInsert]
    exact ⟨fun _ => hrefl, fun _ => h _⟩

theorem Chats.of_cache {cache : Effect.Map Str (List Str)}
    (h : Chats { w with cachedFriendLists := cache } w') : Chats w w' :=
  ⟨⟨h.users, h.sessions, h.openSockets, h.trace⟩, h.settles⟩

/-- What storing a message and perhaps forwarding it marks: the new row is delivered then. -/
theorem Forwards.chats {i j : UserId} {u v content : Str} {now : Nat} {db : Database P}
    {said : List Obs} (hi : w.db.idOf u = some i) (hj : w.db.idOf v = some j)
    (hinsert : w.db.insertMessage now i j content = some db)
    (h : Forwards i j u v content { w with db := db } said w') : Chats w w' := by
  obtain ⟨hmessages, husers, _⟩ := Database.tables_of_insertMessage hinsert
  obtain ⟨hw', hsessions, hopen, htrace⟩ := h.keeps
  refine ⟨⟨hw'.trans husers, hsessions, hopen, htrace⟩, fun hsound => ⟨said, h.trace, ?_⟩⟩
  intro m' hm' hread
  have hj' : db.idOf v = some j := by
    unfold Database.idOf Database.byName at hj ⊢
    rw [husers]
    exact hj
  -- the row just stored is unread, so a row that was read before is an old one
  have old : ∀ m ∈ db.messages, m.isRead = true → m ∈ w.db.messages := by
    intro m hm hread
    rw [hmessages] at hm
    refine (List.mem_append.mp hm).resolve_right fun hnew => ?_
    rw [List.mem_singleton.mp hnew] at hread
    cases hread
  rcases h.db with hdb | ⟨hdb, hsent⟩
  · rw [hdb] at hm'
    exact .inl (old m' hm' hread)
  · rw [hdb] at hm'
    have hsent : SentTo said j u content := hsent hsound hj'
    obtain ⟨m, hm, rfl⟩ := List.mem_map.mp hm'
    unfold Database.readRow at hread ⊢
    split at hread
    · rename_i hpair
      rw [if_pos hpair]
      have hthrough : (i, j, content) ∈ forwards w.db said := mem_forwards hi hsent
      rcases List.mem_append.mp (hmessages ▸ hm) with hm | hnew
      · exact .inr (.inr ⟨m, hm, rfl, _, hthrough, hpair.1.symm, hpair.2.symm⟩)
      · rw [List.mem_singleton.mp hnew]
        exact .inr (.inl ⟨fun old hold => (w.db.messages_id_lt old hold).ne, hthrough⟩)
    · rename_i hpair
      rw [if_neg hpair]
      exact .inl (old m hm hread)

theorem Chats.talks (h : Chats w w') (htalks : Talks w' w'') : Chats w w'' := by
  refine ⟨h.toKeepsUsers.trans (.of_talks htalks), fun hsound => ?_⟩
  exact (h.settles hsound).around rfl (fun _ => rfl) List.prefix_rfl (by rw [htalks.db]) htalks.trace

/-- The notification, when the receiver is said to be online. -/
theorem wp_forwardOnline {request : Request} {i j : UserId} {Q : Unit → World P → Prop}
    (hrefl : Q () w)
    (h : ∀ w₁ w' said, Forwards i j request.username request.targetUsername request.content
      w said w₁ → Talks w₁ w' → Q () w') :
    wp E (do
      match ← getSessionByUsername request.targetUsername with
      | none => pure ()
      | some receiverSession => do
        let _ ← forwardMessage i request.username j request.targetUsername request.content []
        let receiverSocket ← getSocket receiverSession
        sendNotification receiverSocket request.username request.content) Q w := by
  simp only [wp_bind, wp_getSessionByUsername]
  cases hp : w.sessions.getSessionByUsername request.targetUsername with
  | none => exact hrefl
  | some p =>
    obtain ⟨s, hs, _⟩ := w.live_byUsername hp
    rw [wp_bind]
    apply wp_forwardMessage
    intro _ w₁ said h₁
    have hs₁ : w₁.sessions.heap.lookup p = some s := by
      rw [h₁.keeps.sessions]
      exact hs
    simp only [wp_bind, wp_getSocket hs₁]
    exact wp_sendNotification fun w' htalks => h w₁ w' said h₁ htalks

theorem wp_forwardLive {request : Request} {i j : UserId} {Q : Unit → World P → Prop}
    (h : ∀ w₁ w' said, Forwards i j request.username request.targetUsername request.content
      w said w₁ → Talks w₁ w' → Q () w') :
    wp E (forwardLive request i j) Q w := by
  have hrefl : Q () w := h w w [] ⟨.refl w, by simp, .inl rfl⟩ (Talks.refl w)
  unfold forwardLive
  simp only [wp_bind, wp_getUserOnlineStatus]
  exact ⟨fun _ => wp_if (fun _ => wp_forwardOnline hrefl h) fun _ => hrefl,
    wp_if (fun _ => wp_forwardOnline hrefl h) fun _ => hrefl⟩

/-! ### The journal -/

/-- The request is refused and nothing is written; or a message is stored, and after that everything is
as it may: it is forwarded and marked, or a statement fails, or the receiver is away, and the answer is
the same. -/
theorem wpj_handleSendMessage {request : Request}
    {Q : Response → List (Stmt × Bool) → World P → Prop}
    (refused : ∀ response l, response.code ≠ 0 →
      NothingWritten (fun st => ∃ i j content, st = .insertMessage i j content) l → Q response l w)
    (sent : ∀ i j now db said l w₁ w', w.db.idOf request.username = some i →
      w.db.idOf request.targetUsername = some j →
      w.db.insertMessage now i j request.content = some db →
      Forwards i j request.username request.targetUsername request.content { w with db := db } said w₁ →
      Talks w₁ w' → (∀ e ∈ l, ∃ a b, e.1 = .markRead a b) →
      Q ⟨0, bytes "发送成功", none⟩ ((.insertMessage i j request.content, true) :: l) w') :
    wpj E (handleSendMessage request) Q w := by
  have refuse : ∀ response : Response, response.code ≠ 0 → Q response [] w :=
    fun response hcode => refused response [] hcode (.nil _)
  unfold handleSendMessage
  refine wpj_if (fun _ => refuse _ (by decide)) fun _ => wpj_if (fun _ => refuse _ (by decide))
    fun _ => ?_
  refine (wpj_bind _ _).mpr (wpj_reads (reads_caught rfl _ _) (wp_getUserIdByUsername.mpr ?_))
  refine ⟨fun _ => refuse _ (by decide), ?_⟩
  cases hi : w.db.idOf request.username with
  | none => exact refuse _ (by decide)
  | some i =>
    refine (wpj_bind _ _).mpr (wpj_reads (reads_caught rfl _ _) (wp_getUserIdByUsername.mpr ?_))
    refine ⟨fun _ => refuse _ (by decide), ?_⟩
    cases hj : w.db.idOf request.targetUsername with
    | none => exact refuse _ (by decide)
    | some j =>
      refine (wpj_bind _ _).mpr (wpj_write rfl (wp_insertMessage.mpr ?_))
      have failed : Q ⟨5001, bytes "数据库操作失败", none⟩
          [(.insertMessage i j request.content, false)] w := refused _ _ (by decide) (.failed ⟨i, j, _, rfl⟩)
      refine ⟨fun _ => failed, fun now => ⟨fun _ => failed, fun db hinsert => ?_⟩⟩
      refine (wpj_bind _ _).mpr (wpj_writesOnly (forwardLive_marks _ _ _) (wp_forwardLive ?_))
      intro w₁ w' said hforwards htalks l hl
      refine (wpj_pure _).mpr ?_
      rw [List.append_nil]
      exact sent i j now db said l w₁ w' hi hj hinsert hforwards htalks hl

theorem wp_handleSendMessage (request : Request) :
    wp E (handleSendMessage request) (fun _ w' => Chats w w') w := by
  refine wp_of_wpj (wpj_handleSendMessage (fun _ _ _ _ => (Plain.refl w).chats) ?_)
  intro i j now db said l w₁ w' hi hj hinsert hforwards htalks _
  exact (hforwards.chats hi hj hinsert).talks htalks

end LiteChat
