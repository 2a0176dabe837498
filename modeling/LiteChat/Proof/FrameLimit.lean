import LiteChat.Proof.FrameLength
import LiteChat.Proof.Kicks

/-!
# Whether the server keeps to its own limit

Nothing checks the length of a frame before it is sent: the type of an unknown request comes back in
the answer, names and contents come with everything around them and with what escaping makes of
them, and a history has up to 200 contents. So the limit holds in a run in which there is room for
all that (`RequestHasRoom`); for all other frames there always is, because names are checked when
somebody logs in (`NamesValid`).

What is sent is composed of names, times, and what clients have sent themselves. The lengths of names
are bounded by registration (`NamesValid`) and the texts of the answers are those in the source, so what
can be too long is a list of friends, a history, a message that is passed on, and the `type` of a
request that the server repeats in its answer. The condition is about these four, in the state before
the event.
-/

namespace LiteChat

open LiteChat.Action Server UserManager MessageManager FriendManager

variable {P : Platform} {E : Env} {w w' w'' : World P} {quote : Str → Str}

/-! ## Responses of constant length -/

theorem wp_caught_then {α β : Type} {st : Stmt} {f : st.Res → α} {failed : α} {k : α → Action β}
    {Q : β → World P → Prop} (h : ∀ a w', w'.trace = w.trace → wp E (k a) Q w') :
    wp E (caught st f failed >>= k) Q w := by
  refine (wp_bind _ _).mpr ((wp_caught st f failed).mpr ⟨fun _ => h _ w rfl, fun now rank => ?_⟩)
  cases w.db.exec now rank st with
  | none => exact h _ w rfl
  | some r => exact h _ _ rfl

/-- The response is short, and nothing has been said. -/
def ShortAnswer (w : World P) (response : Response) (w' : World P) : Prop :=
  response.Short ∧ w'.trace = w.trace

theorem wp_handleRegister_short (request : Request) :
    wp E (handleRegister P request) (ShortAnswer w) w := by
  unfold handleRegister
  refine wp_if (fun _ => ⟨short_plain (by simp), rfl⟩) fun _ =>
    wp_if (fun _ => ⟨short_plain (by simp), rfl⟩) fun _ =>
    wp_caught_then fun taken w₁ h₁ => wp_if (fun _ => ⟨short_plain (by simp), h₁⟩) fun _ =>
    wp_caught_then fun inserted w₂ h₂ =>
      wp_if (fun _ => ⟨short_plain (by simp), h₂.trans h₁⟩) fun _ =>
        ⟨short_plain (by simp), h₂.trans h₁⟩

/-- A part of a request has said nothing, and if it ends the request, then with a short response. -/
def ShortPart (w : World P) (response : Option Response) (w' : World P) : Prop :=
  w'.trace = w.trace ∧ ∀ r, response = some r → r.Short

theorem ShortPart.refused {response : Response} (h : w'.trace = w.trace) (hshort : response.Short) :
    ShortPart w (some response) w' :=
  ⟨h, fun _ hr => Option.some.inj hr ▸ hshort⟩

theorem wp_changeUsername_short (i : UserId) (u : Str) :
    wp E (changeUsername i u) (ShortPart w) w := by
  unfold changeUsername
  refine wp_if (fun _ => ⟨rfl, nofun⟩) fun _ =>
    wp_if (fun _ => .refused rfl (short_plain (by simp))) fun _ =>
    wp_caught_then fun taken w₁ h₁ => wp_if (fun _ => .refused h₁ (short_plain (by simp))) fun _ =>
    wp_caught_then fun renamed w₂ h₂ =>
      wp_if (fun _ => .refused (h₂.trans h₁) (short_plain (by simp))) fun _ => ⟨h₂.trans h₁, nofun⟩

theorem wp_changePassword_short (i : UserId) (password : Str) :
    wp E (changePassword P i password) (ShortPart w) w := by
  unfold changePassword
  refine wp_if (fun _ => ⟨rfl, nofun⟩) fun _ =>
    wp_if (fun _ => .refused rfl (short_plain (by simp))) fun _ => wp_caught_then fun updated w₁ h₁ =>
      wp_if (fun _ => .refused h₁ (short_plain (by simp))) fun _ => ⟨h₁, nofun⟩

theorem wp_handleUpdateUser_short (request : Request) :
    wp E (handleUpdateUser P request) (ShortAnswer w) w := by
  unfold handleUpdateUser
  refine wp_caught_then fun row w₁ h₁ => ?_
  cases row with
  | none => exact ⟨short_plain (by simp), h₁⟩
  | some r =>
    refine wp_if (fun _ => ⟨short_plain (by simp), h₁⟩) fun _ => (wp_bind _ _).mpr ?_
    refine wp_mono (wp_changeUsername_short _ _) fun response w₂ ⟨h₂, hshort⟩ => ?_
    cases response with
    | some response => exact ⟨hshort response rfl, h₂.trans h₁⟩
    | none =>
      refine (wp_bind _ _).mpr ?_
      refine wp_mono (wp_changePassword_short _ _) fun response w₃ ⟨h₃, hshort⟩ => ?_
      cases response with
      | some response => exact ⟨hshort response rfl, h₃.trans (h₂.trans h₁)⟩
      | none =>
        exact wp_if (fun _ => ⟨short_plain (by simp), h₃.trans (h₂.trans h₁)⟩) fun _ =>
          ⟨short_plain (by simp), h₃.trans (h₂.trans h₁)⟩

theorem wp_handleQueryStatus_short (request : Request) :
    wp E (handleQueryStatus request) (ShortAnswer w) w := by
  unfold handleQueryStatus
  refine wp_caught_then fun row w₁ h₁ => ?_
  cases row with
  | none => exact ⟨short_plain (by simp), h₁⟩
  | some r =>
    refine wp_caught_then fun flag w₂ h₂ => ?_
    cases flag with
    | none => exact ⟨short_plain (by simp), h₂.trans h₁⟩
    | some isOnline =>
      cases isOnline with
      | false => exact ⟨by decide, h₂.trans h₁⟩
      | true => exact ⟨by decide, h₂.trans h₁⟩

theorem wp_handleAddFriend_short (request : Request) :
    wp E (handleAddFriend request) (ShortAnswer w) w := by
  unfold handleAddFriend
  refine wp_if (fun _ => ⟨short_plain (by simp), rfl⟩) fun _ =>
    wp_if (fun _ => ⟨short_plain (by simp), rfl⟩) fun _ => wp_caught_then fun user w₁ h₁ => ?_
  cases user with
  | none => exact ⟨short_plain (by simp), h₁⟩
  | some i =>
    refine wp_caught_then fun target w₂ h₂ => ?_
    have h₁₂ := h₂.trans h₁
    cases target with
    | none => exact ⟨short_plain (by simp), h₁₂⟩
    | some j =>
      exact wp_caught_then fun friends w₃ h₃ =>
        wp_if (fun _ => ⟨short_plain (by simp), h₃.trans h₁₂⟩) fun _ =>
        wp_caught_then fun inserted w₄ h₄ =>
          wp_if (fun _ => ⟨short_plain (by simp), h₄.trans (h₃.trans h₁₂)⟩) fun _ =>
            ⟨short_plain (by simp), h₄.trans (h₃.trans h₁₂)⟩

theorem wp_handleDeleteFriend_short (request : Request) :
    wp E (handleDeleteFriend request) (ShortAnswer w) w := by
  unfold handleDeleteFriend
  refine wp_if (fun _ => ⟨short_plain (by simp), rfl⟩) fun _ => wp_caught_then fun user w₁ h₁ => ?_
  cases user with
  | none => exact ⟨short_plain (by simp), h₁⟩
  | some i =>
    refine wp_caught_then fun target w₂ h₂ => ?_
    have h₁₂ := h₂.trans h₁
    cases target with
    | none => exact ⟨short_plain (by simp), h₁₂⟩
    | some j =>
      exact wp_caught_then fun friends w₃ h₃ =>
        wp_if (fun _ => ⟨short_plain (by simp), h₃.trans h₁₂⟩) fun _ =>
        wp_caught_then fun deleted w₄ h₄ =>
          wp_if (fun _ => ⟨short_plain (by simp), h₄.trans (h₃.trans h₁₂)⟩) fun _ =>
            wp_caught_then fun cleared w₅ h₅ =>
              ⟨short_plain (by simp), h₅.trans (h₄.trans (h₃.trans h₁₂))⟩

/-- Everything but the answer to a target that is there is short. -/
theorem wp_queryTarget {request : Request} {answer : Str → Bool → Response}
    {Q : Response → World P → Prop} (refused : ∀ response, response.Short → Q response w)
    (found : ∀ r, targetOf request ≠ [] → w.db.byName (targetOf request) = some r →
      Q (answer (targetOf request) r.isOnline) w) :
    wp E (queryTarget request answer) Q w := by
  unfold queryTarget
  refine wp_if (fun _ => refused _ (short_plain (by simp))) fun htarget => ?_
  simp only [wp_bind, wp_getUserIdByUsername]
  refine ⟨fun _ => refused _ (short_plain (by simp)), ?_⟩
  unfold Database.idOf
  cases hr : w.db.byName (targetOf request) with
  | none => exact refused _ (short_plain (by simp))
  | some r =>
    simp only [Option.map_some, wp_bind, wp_getUserOnlineStatus, Database.byId_of_byName hr]
    exact ⟨fun _ => refused _ (short_plain (by simp)), found r htarget hr⟩

/-! ## Room for the data -/

/-- The types that `DispatchRequest` knows. -/
def requestTypes : List Str :=
  [bytes "REGISTER", bytes "LOGIN", bytes "UPDATE_USER", bytes "QUERY_STATUS", bytes "ADD_FRIEND",
    bytes "DEL_FRIEND", bytes "FRIEND_LIST", bytes "FRIEND_STATUS", bytes "QUERY_FRIEND",
    bytes "SEND_MSG", bytes "HISTORY_MSG", bytes "HEARTBEAT"]

theorem length_requestType : ∀ type ∈ requestTypes, type.length ≤ 20 := by decide

/-- After the login of the request, the name leads to a session. -/
def LeadsAfterLogin (w : World P) (request : Request) (u : Str) : Prop :=
  (u = request.username ∧ w.sessions.getSession request.clientSocket ≠ none) ∨
    w.sessions.getSessionByUsername u ≠ none

/-- There is room for the data wherever a frame has the length of its data. -/
structure RequestHasRoom (quote : Str → Str) (w : World P) (request : Request) : Prop where
  login : request.type = bytes "LOGIN" → ∀ r, Accepts w.db request r →
    LeadsAfterLogin w request request.username → ∀ m ∈ w.db.unreadRows r.userId,
      RoomForNotify quote (w.db.senderOf m) m.content ∧
      (LeadsAfterLogin w request r.username →
        RoomForForward quote (w.db.senderOf m) m.content (P.datetime m.sendTime))
  friendList : request.type = bytes "FRIEND_LIST" → ∀ i, w.db.idOf request.username = some i →
    RoomForAnswer quote request.type (quoted quote [bytes "friends"] + 5 +
      listed ((w.db.friendsOf i).map (friendLength quote)))
  queryFriend : request.type = bytes "QUERY_FRIEND" → targetOf request ≠ [] → ∀ r,
    w.db.byName (targetOf request) = some r →
    RoomForAnswer quote request.type (friendLength quote (targetOf request, r.isOnline))
  sendMessage : request.type = bytes "SEND_MSG" → validateMessageContent request.content = true →
    request.content.length ≤ maxMessageSize → w.db.idOf request.username ≠ none → ∀ r,
    w.db.byName request.targetUsername = some r → r.isOnline = true →
    w.sessions.getSessionByUsername request.targetUsername ≠ none →
      RoomForForward quote request.username request.content [] ∧
      RoomForNotify quote request.username request.content
  history : request.type = bytes "HISTORY_MSG" → request.targetUsername ≠ [] → ∀ i j,
    w.db.idOf request.username = some i → w.db.idOf request.targetUsername = some j → ∀ rank,
    RoomForAnswer quote request.type (quoted quote [bytes "messages"] + 5 +
      listed ((w.db.history rank i j (limitOf request)).map (messageLength quote)))
  unknown : request.type ∉ requestTypes → RoomForUnknown quote request.type

/-- What a request has said, with the answer that is still to be sent. -/
def AnswersWithinLimit (quote : Str → Str) (type : Str) (w : World P) (response : Response)
    (w' : World P) : Prop :=
  Says (SaidWithinLimit quote) w w' ∧ WithinLimit quote (responseFrame type response)

theorem wp_forwardLive_withinLimit (quote : Str → Str) {request : Request} {r : UserRow} {i : UserId}
    (hr : w.db.byId r.userId = some r)
    (h : r.isOnline = true → w.sessions.getSessionByUsername request.targetUsername ≠ none →
      RoomForForward quote request.username request.content [] ∧
        RoomForNotify quote request.username request.content) :
    wp E (forwardLive request i r.userId) (fun _ w' => Says (SaidWithinLimit quote) w w') w := by
  unfold forwardLive
  simp only [wp_bind, wp_getUserOnlineStatus, hr, Option.map_some, Option.getD_some]
  refine ⟨fun _ => wp_if (fun hne => absurd hne (by decide)) fun _ => .refl _ w, ?_⟩
  refine wp_if (fun hon => ?_) fun _ => .refl _ w
  simp only [wp_bind, wp_getSessionByUsername]
  cases hp : w.sessions.getSessionByUsername request.targetUsername with
  | none => exact .refl _ w
  | some p =>
    obtain ⟨hforward, hnotify⟩ := h hon (by simp [hp])
    rw [← withinLimit_forward_iff] at hforward
    rw [← withinLimit_notify_iff] at hnotify
    refine wp_speaks (.bind (says_forwardMessage (fun _ _ _ => hforward) _ _ _) fun _ => ?_)
    exact .bind (uses_op trivial) fun c => .bind (uses_op fun _ _ => hnotify) fun _ => trivial

section Handlers

variable (hq : Quotes quote) {request : Request}

include hq

theorem ShortAnswer.withinLimit {type : Str} (htype : type ∈ requestTypes) {response : Response}
    (h : ShortAnswer w response w') : AnswersWithinLimit quote type w response w' :=
  ⟨.of_trace h.2, withinLimit_response hq (length_requestType type htype) h.1⟩

theorem wp_friendList_withinLimit (h : RequestHasRoom quote w request)
    (hknown : request.type ∈ requestTypes) (htype : request.type = bytes "FRIEND_LIST") :
    wp E (handleFriendList request) (AnswersWithinLimit quote request.type w) w := by
  have short : ∀ response : Response, response.Short →
      AnswersWithinLimit quote request.type w response w :=
    fun _ hresponse => ShortAnswer.withinLimit hq hknown ⟨hresponse, rfl⟩
  unfold handleFriendList
  simp only [wp_bind, wp_getUserIdByUsername]
  refine ⟨fun _ => short _ (short_plain (by simp)), ?_⟩
  cases hi : w.db.idOf request.username with
  | none => exact short _ (short_plain (by simp))
  | some i =>
    have hroom : ∀ rank, RoomForAnswer quote request.type (quoted quote [bytes "friends"] + 5 +
        listed ((Effect.arrange rank (w.db.friendsOf i)).map (friendLength quote))) := by
      intro rank
      rw [listed_perm ((Effect.arrange_perm rank _).map _)]
      exact h.friendList htype i hi
    simp only [wp_bind, wp_getFriendList]
    exact ⟨fun _ => short _ (short_plain (by simp)),
      fun rank => ⟨.refl _ w, (withinLimit_friendList_iff _ _).mpr (hroom rank)⟩⟩

theorem wp_queryFriend_withinLimit (h : RequestHasRoom quote w request)
    (hknown : request.type ∈ requestTypes) (htype : request.type = bytes "QUERY_FRIEND") :
    wp E (handleQueryFriend request) (AnswersWithinLimit quote request.type w) w := by
  refine wp_queryTarget (fun response hresponse => ?_) fun r htarget hr => ?_
  · exact ShortAnswer.withinLimit hq hknown ⟨hresponse, rfl⟩
  · exact ⟨.refl _ w, (withinLimit_queryFriend_iff _ _ _).mpr (h.queryFriend htype htarget r hr)⟩

theorem wp_friendStatus_withinLimit (hknown : request.type ∈ requestTypes) :
    wp E (handleFriendStatus request) (AnswersWithinLimit quote request.type w) w := by
  refine wp_queryTarget (fun response hresponse => ?_) fun r htarget hr => ?_
  · exact ShortAnswer.withinLimit hq hknown ⟨hresponse, rfl⟩
  · refine ShortAnswer.withinLimit hq hknown ⟨?_, rfl⟩
    cases r.isOnline with
    | false => decide +kernel
    | true => decide +kernel

theorem wp_history_withinLimit (h : RequestHasRoom quote w request)
    (hknown : request.type ∈ requestTypes) (htype : request.type = bytes "HISTORY_MSG") :
    wp E (handleHistoryMessages request) (AnswersWithinLimit quote request.type w) w := by
  have short : ∀ response : Response, response.Short →
      AnswersWithinLimit quote request.type w response w :=
    fun _ hresponse => ShortAnswer.withinLimit hq hknown ⟨hresponse, rfl⟩
  unfold handleHistoryMessages
  refine wp_if (fun _ => short _ (short_plain (by simp))) fun htarget => ?_
  simp only [wp_bind, wp_getUserIdByUsername]
  refine ⟨fun _ => short _ (short_plain (by simp)), ?_⟩
  cases hi : w.db.idOf request.username with
  | none => exact short _ (short_plain (by simp))
  | some i =>
    simp only [wp_bind, wp_getUserIdByUsername]
    refine ⟨fun _ => short _ (short_plain (by simp)), ?_⟩
    cases hj : w.db.idOf request.targetUsername with
    | none => exact short _ (short_plain (by simp))
    | some j =>
      simp only [wp_bind, wp_getHistoryMessages]
      exact ⟨fun _ => short _ (short_plain (by simp)),
        fun rank => ⟨.refl _ w,
          (withinLimit_history_iff _ _).mpr (h.history htype htarget i j hi hj rank)⟩⟩

/-- A message that is stored may be too long to be passed on, with the sender's name around it and every
quote doubled. What the sender is answered is short. -/
theorem wp_sendMessage_withinLimit (h : RequestHasRoom quote w request)
    (hknown : request.type ∈ requestTypes) (htype : request.type = bytes "SEND_MSG") :
    wp E (handleSendMessage request) (AnswersWithinLimit quote request.type w) w := by
  have short : ∀ response : Response, response.Short →
      AnswersWithinLimit quote request.type w response w :=
    fun _ hresponse => ShortAnswer.withinLimit hq hknown ⟨hresponse, rfl⟩
  unfold handleSendMessage
  refine wp_if (fun _ => short _ (short_plain (by simp))) fun hvalid =>
    wp_if (fun _ => short _ (short_plain (by simp))) fun hlength => ?_
  simp only [wp_bind, wp_getUserIdByUsername]
  refine ⟨fun _ => short _ (short_plain (by simp)), ?_⟩
  cases hi : w.db.idOf request.username with
  | none => exact short _ (short_plain (by simp))
  | some i =>
    simp only [wp_bind, wp_getUserIdByUsername]
    refine ⟨fun _ => short _ (short_plain (by simp)), ?_⟩
    cases hr : w.db.byName request.targetUsername with
    | none =>
      unfold Database.idOf
      rw [hr]
      exact short _ (short_plain (by simp))
    | some r =>
      have hj : w.db.idOf request.targetUsername = some r.userId := by
        unfold Database.idOf
        rw [hr]
        rfl
      rw [hj]
      -- if the row is not stored nothing is passed on
      have refused : wp E (do
          if ¬ false = true then
            return ⟨5001, bytes "数据库操作失败", none⟩
          forwardLive request i r.userId
          return ⟨0, bytes "发送成功", none⟩ : Action Response)
          (AnswersWithinLimit quote request.type w) w :=
        wp_if (fun _ => short _ (short_plain (by simp))) fun hne => absurd (by decide) hne
      unfold storeMessage
      simp only [wp_bind, wp_insertMessage]
      refine ⟨fun _ => refused, fun now => ⟨fun _ => refused, fun db hdb => ?_⟩⟩
      refine wp_if (fun hne => absurd trivial hne) fun _ => (wp_bind _ _).mpr ?_
      have hrow : db.byId r.userId = some r := by
        unfold Database.byId
        rw [(Database.tables_of_insertMessage hdb).2.1]
        exact Database.byId_of_byName hr
      refine wp_mono (wp_forwardLive_withinLimit quote hrow fun hon hsession => ?_) fun _ w' hw' => ?_
      · exact h.sendMessage htype (by simpa using hvalid) (Nat.not_lt.mp hlength) (by simp [hi]) r hr
          hon hsession
      · obtain ⟨said, hsaid, hall⟩ := hw'
        exact ⟨⟨said, hsaid, hall⟩,
          withinLimit_response hq (length_requestType _ hknown) (short_plain (by simp))⟩

end Handlers

/-! ## Logins -/

theorem validateUsername_length {u : Str} (h : validateUsername u = true) : u.length ≤ 20 :=
  (of_decide_eq_true h).2.1

theorem says_leave {S : Obs → Prop} (hkicked : ∀ c account ok, S (.sent c account kicked ok))
    (hshutdown : ∀ c, S (.shutdown c)) (u : Str) (i : UserId) : (leave u i).Uses (Op.Says S) := by
  have hkick : (kickOld u).Uses (Op.Says S) := by
    refine .bind (uses_op trivial) fun q => ?_
    cases q with
    | none => trivial
    | some q =>
      exact .bind (uses_op trivial) fun c => .bind (uses_op (hkicked c)) fun _ =>
        .bind (uses_op trivial) fun _ => uses_op (hshutdown c)
  refine .bind (uses_caught (by trivial) _ _) fun r => ?_
  exact uses_ite (.bind (uses_caught (by trivial) _ _) fun _ => hkick) trivial

/-- What a login says before the push. -/
theorem says_handleLogin (hq : Quotes quote) (request : Request) :
    wp E (handleLogin P request) (fun response w' =>
      Says (SaidWithinLimit quote) w w' ∧ response.Short) w := by
  unfold handleLogin
  refine wp_if (fun _ => ⟨.refl _ w, short_plain (by simp)⟩) fun hname => ?_
  have hvalid : validateUsername request.username = true := by simpa using hname
  simp only [wp_bind, wp_getUserByUsername]
  refine ⟨fun _ => ⟨.refl _ w, short_plain (by simp)⟩, ?_⟩
  cases w.db.byName request.username with
  | none => exact ⟨.refl _ w, short_plain (by simp)⟩
  | some r =>
    refine wp_if (fun _ => ⟨.refl _ w, short_plain (by simp)⟩) fun _ => ?_
    have hleave : (leave request.username r.userId).Uses (Op.Says (SaidWithinLimit quote)) :=
      says_leave (fun _ _ _ => withinLimit_kicked hq) (fun _ => trivial) _ _
    have hnotify : (notifyFriendsStatusChange request.username .online).Uses
        (Op.Says (SaidWithinLimit quote)) :=
      says_notify fun _ _ _ => withinLimit_statusNotify hq (validateUsername_length hvalid) .online
    simp only [wp_bind]
    refine wp_mono (wp_speaks hleave) fun _ w₁ h₁ => ?_
    refine wp_mono (wp_speaks (S := SaidWithinLimit quote) (enter_speaks _ _ _)) fun _ w₂ h₂ => ?_
    refine wp_mono (wp_speaks hnotify) fun _ w₃ h₃ => ?_
    exact ⟨h₁.trans (h₂.trans h₃), short_plain (by simp)⟩

/-- What a push says, of the rows that it finds: a message or a summary for each, and nothing else. -/
theorem wp_pushOfflineMessages_withinLimit {u : Str} (h : ∀ i c, w.db.idOf u = some i →
    socketOf w.sessions u = some c → ∀ rank, ∀ msg ∈ w.db.unread rank i,
      ∀ e ∈ messageFrames w.sessions c msg, WithinLimit quote e.2) :
    wp E (pushOfflineMessages u) (fun _ w' => Says (SaidWithinLimit quote) w w') w := by
  unfold pushOfflineMessages
  simp only [wp_bind, wp_getUserIdByUsername]
  refine ⟨fun _ => .refl _ w, ?_⟩
  cases hi : w.db.idOf u with
  | none => exact .refl _ w
  | some i =>
    simp only [wp_bind, wp_getUnreadMessages]
    refine ⟨fun _ => .refl _ w, fun rank => wp_if (fun _ => .refl _ w) fun _ => ?_⟩
    simp only [wp_bind, wp_getSessionByUsername]
    cases hp : w.sessions.getSessionByUsername u with
    | none => exact .refl _ w
    | some p =>
      obtain ⟨s, hs, _⟩ := w.live_byUsername hp
      have hc : socketOf w.sessions u = some s.socket := by
        unfold socketOf
        rw [hp, Option.bind_some, hs, Option.map_some]
      simp only [wp_bind, wp_getSocket hs]
      refine wp_mono (wp_pushEach_sends s.socket _) fun _ w' hw' => ?_
      obtain ⟨said, hsaid, hframes⟩ := hw'.said
      refine ⟨said, hsaid, fun o ho => ?_⟩
      cases o with
      | sent d account frame ok =>
        have hmem : (d, frame) ∈ framesSent said := List.mem_filterMap.mpr ⟨_, ho, rfl⟩
        rw [hframes] at hmem
        obtain ⟨msg, hmsg, he⟩ := List.mem_flatMap.mp hmem
        exact h i s.socket hi hc rank msg hmsg _ he
      | shutdown d => trivial
      | close d => trivial

/-- A user has the same name after a login. -/
theorem OnlyUser.nameOf {i : UserId} {db db' : Database P} (h : OnlyUser i db db') (j : UserId) :
    (db'.byId j).map UserRow.username = (db.byId j).map UserRow.username := by
  obtain ⟨f, hf, hf'⟩ := h.users
  unfold Database.byId
  rw [hf, List.find?_map, Option.map_map]
  congr 1
  · funext r
    exact (hf' r).2.1
  · congr 1
    funext r
    simp only [Function.comp_apply, (hf' r).1]

/-- Where a route leads after a login. -/
theorem route_of_signIn {L : Spec.Logins Socket Str} {kicks : Bool} {c d : Socket} {u v : Str}
    (h : (L.signIn kicks c u).route v = some d) : (v = u ∧ L.login c ≠ none) ∨ L.route v = some d := by
  by_cases hc : L.login c = none
  · refine .inr ?_
    have hnone : (if kicks = true then L.kick u else L).login c = none := by
      split
      · exact (L.login_kick_eq_none c u).mpr hc
      · exact hc
    unfold Spec.Logins.signIn Spec.Logins.enter at h
    rw [if_pos hnone] at h
    split at h
    · exact h
    · exact h
  · rw [Spec.Logins.route_signIn hc] at h
    split at h
    · next hv => exact .inl ⟨hv, hc⟩
    · exact .inr h

theorem LoggedIn.leads {request : Request} {i : UserId} {kicks : Bool} {u : Str} {d : Socket}
    (h : LoggedIn E request.clientSocket request.username i kicks w w')
    (hd : socketOf w'.sessions u = some d) : LeadsAfterLogin w request u := by
  obtain ⟨s, hs, rfl⟩ := Option.map_eq_some_iff.mp hd
  obtain ⟨p, hp, _⟩ := Option.bind_eq_some_iff.mp hs
  obtain ⟨c, hroute, hc⟩ := SessionManager.getSession_of_byUsername hp
  have hsignIn : (w.sessions.logins.signIn kicks request.clientSocket request.username).route u =
      some c := by
    rw [← h.logins]
    exact hroute
  rcases route_of_signIn hsignIn with ⟨hu, hlogin⟩ | hbefore
  · exact .inl ⟨hu, login_ne_none.mp hlogin⟩
  · refine .inr ?_
    rw [h.getSession] at hc
    rw [SessionManager.getSessionByUsername_of_route hbefore, hc]
    simp

theorem wp_serveLogin_withinLimit (hq : Quotes quote) {request : Request}
    (h : RequestHasRoom quote w request) (hknown : request.type ∈ requestTypes)
    (htype : request.type = bytes "LOGIN") :
    wp E (serveLogin P request) (AnswersWithinLimit quote request.type w) w := by
  unfold serveLogin
  rw [wp_bind]
  refine wp_mono (wp_and (says_handleLogin hq request) (wp_handleLogin
    (Q := fun response w₁ => response.code = 0 → ∃ r kicks, Accepts w.db request r ∧
      LoggedIn E request.clientSocket request.username r.userId kicks w w₁)
    (fun response hcode _ hzero => absurd hzero hcode)
    (fun r kicks w₁ haccepts hlogin _ => ⟨r, kicks, haccepts, hlogin⟩)))
    fun response w₁ h₁ => ?_
  obtain ⟨⟨hspeaks, hresponse⟩, hcases⟩ := h₁
  have hanswer := withinLimit_response hq (length_requestType _ hknown) hresponse
  refine wp_if (fun hzero => ?_) fun _ => ⟨hspeaks, hanswer⟩
  obtain ⟨r, kicks, haccepts, hlogin⟩ := hcases hzero
  simp only [wp_bind, wp_pure]
  refine wp_mono (wp_and (wp_plain (cacheFriendList_uses _))
    (wp_speaks (S := SaidWithinLimit quote) (cacheFriendList_speaks request.username)))
    fun _ w₂ h₂ => ?_
  obtain ⟨hplain, hspeaks₂⟩ := h₂
  have hpush := h.login htype r haccepts
  refine wp_mono (wp_pushOfflineMessages_withinLimit fun i c hi hc rank msg hmsg e he => ?_)
    fun _ w₃ hspeaks₃ => ⟨hspeaks.trans (hspeaks₂.trans hspeaks₃), hanswer⟩
  -- the rows and the names are those from before the login
  obtain rfl : r.userId = i := by
    rw [hplain.idOf, hlogin.db.idOf] at hi
    unfold Database.idOf at hi
    rw [haccepts.2.1] at hi
    exact Option.some.inj hi
  have hname : ∀ j, (w₂.db.byId j).map UserRow.username = (w.db.byId j).map UserRow.username := by
    intro j
    unfold Database.byId
    rw [hplain.users]
    exact hlogin.db.nameOf j
  rw [hplain.sessions] at hc he
  obtain ⟨m, hm, hjoined⟩ := List.mem_filterMap.mp hmsg
  obtain ⟨hm₂, hunread⟩ := List.mem_filter.mp ((perm_bySendTime rank _).mem_iff.mp hm)
  obtain ⟨_, hjoined', -, -, hsender, hcontent, htime, -⟩ := Database.joined_eq hm₂
  obtain rfl := Option.some.inj (hjoined.symm.trans hjoined')
  -- the row was unread before the login, so the condition speaks of it
  have hrow : m ∈ w.db.unreadRows r.userId := by
    refine List.mem_filter.mpr ⟨?_, hunread⟩
    rw [← hlogin.db.messages]
    exact hplain.messages m hm₂
  have hsender' : msg.senderUsername = w.db.senderOf m := by
    rw [hsender]
    unfold Database.senderOf
    rw [hname]
  -- a waiting message is for the account that has logged in
  have hreceiver : msg.receiverUsername = r.username := by
    have hr : (w₂.db.byId r.userId).map UserRow.username = some r.username := by
      rw [hname, Database.byId_of_byName haccepts.2.1]
      rfl
    obtain ⟨r₂, hr₂, hr₂name⟩ := Option.map_eq_some_iff.mp hr
    have hid : r₂.userId = r.userId := (Database.byId_iff.mp hr₂).2
    rw [← hid] at hmsg hr₂
    rw [← hr₂name]
    exact Database.receiver_of_mem_unread hr₂ hmsg
  obtain ⟨hnotify, hforward⟩ := hpush (hlogin.leads hc) m hrow
  rcases List.mem_append.mp he with he | he
  · split at he
    · next d hd =>
      rw [List.mem_singleton.mp he, hsender', hcontent, htime]
      rw [hreceiver] at hd
      exact (withinLimit_forward_iff _ _ _).mpr (hforward (hlogin.leads hd))
    · cases he
  · rw [List.mem_singleton.mp he, hsender', hcontent]
    exact (withinLimit_notify_iff _ _).mpr hnotify

/-! ## Requests -/

theorem wp_serve_withinLimit (hq : Quotes quote) {request : Request}
    (h : RequestHasRoom quote w request) :
    wp E (serve P request) (AnswersWithinLimit quote request.type w) w := by
  have known : ∀ {type : Str}, request.type = type → type ∈ requestTypes →
      request.type ∈ requestTypes := fun htype hmem => htype ▸ hmem
  have short : ∀ {p : Action Response}, request.type ∈ requestTypes → wp E p (ShortAnswer w) w →
      wp E p (AnswersWithinLimit quote request.type w) w :=
    fun hknown hp => wp_mono hp fun _ _ hanswer => hanswer.withinLimit hq hknown
  unfold serve
  refine wp_if (fun ht => short (known ht (by decide)) (wp_handleRegister_short request)) fun h₁ =>
    wp_if (fun ht => wp_serveLogin_withinLimit hq h (known ht (by decide)) ht) fun h₂ =>
    wp_if (fun ht => short (known ht (by decide)) (wp_handleUpdateUser_short request)) fun h₃ =>
    wp_if (fun ht => short (known ht (by decide)) (wp_handleQueryStatus_short request)) fun h₄ =>
    wp_if (fun ht => short (known ht (by decide)) (wp_handleAddFriend_short request)) fun h₅ =>
    wp_if (fun ht => short (known ht (by decide)) (wp_handleDeleteFriend_short request)) fun h₆ =>
    wp_if (fun ht => wp_friendList_withinLimit hq h (known ht (by decide)) ht) fun h₇ =>
    wp_if (fun ht => wp_friendStatus_withinLimit hq (known ht (by decide))) fun h₈ =>
    wp_if (fun ht => wp_queryFriend_withinLimit hq h (known ht (by decide)) ht) fun h₉ =>
    wp_if (fun ht => wp_sendMessage_withinLimit hq h (known ht (by decide)) ht) fun h₁₀ =>
    wp_if (fun ht => wp_history_withinLimit hq h (known ht (by decide)) ht) fun h₁₁ =>
    wp_if (fun ht => short (known ht (by decide)) ⟨short_plain (by simp), rfl⟩) fun h₁₂ => ?_
  refine ⟨.refl _ w, (withinLimit_unknown_iff _).mpr (h.unknown ?_)⟩
  simp only [requestTypes, List.mem_cons, List.not_mem_nil, or_false, not_or]
  exact ⟨h₁, h₂, h₃, h₄, h₅, h₆, h₇, h₈, h₉, h₁₀, h₁₁, h₁₂⟩

/-- There is room for the data of whatever the event asks for. -/
def EventHasRoom (quote : Str → Str) (w : World P) (e : Event × List Choice) : Prop :=
  ∀ c root, e.1 = .request c (some root) → ∀ garbage request,
    requestOf w.sessions.logins c garbage root = .ok request → RequestHasRoom quote w request

/-- The condition is about what reading a heartbeat's time does not change. -/
theorem RequestHasRoom.refreshed {request : Request} (h : RequestHasRoom quote w request)
    (hw : Refreshed w w') : RequestHasRoom quote w' request := by
  obtain ⟨hlogin, hfriends, hquery, hsend, hhistory, hunknown⟩ := h
  have hbyName : ∀ u, w'.sessions.getSessionByUsername u = w.sessions.getSessionByUsername u :=
    fun u => SessionManager.getSessionByUsername_congr (hw.route u) hw.getSession
  have hleads : ∀ u, LeadsAfterLogin w' request u ↔ LeadsAfterLogin w request u := by
    intro u
    unfold LeadsAfterLogin
    rw [hbyName, hw.getSession]
  refine ⟨?_, ?_, ?_, ?_, ?_, hunknown⟩
  · simp only [hw.db, hleads]
    exact hlogin
  · rw [hw.db]
    exact hfriends
  · rw [hw.db]
    exact hquery
  · rw [hw.db, hbyName]
    exact hsend
  · rw [hw.db]
    exact hhistory

/-- What is sent because of one body, whatever it is: the texts of the errors are short, and an
exception sends nothing. -/
theorem wp_handleData_withinLimit (hq : Quotes quote) {c : Socket} {parsed : Option Json}
    {cs : List Choice} (h : EventHasRoom quote w (.request c parsed, cs)) :
    wp E (handleData P c parsed) (fun _ w' => Says (SaidWithinLimit quote) w w') w := by
  have hfail : ∀ w₁ : World P, Says (SaidWithinLimit quote) w w₁ →
      wp E (failConnection c) (fun _ w' => Says (SaidWithinLimit quote) w w') w₁ := by
    intro w₁ h₁
    refine wp_mono (wp_speaks (S := SaidWithinLimit quote) ?_) fun _ w₂ h₂ => h₁.trans h₂
    refine .bind (uses_op trivial) fun _ => .bind (uses_op trivial) fun q => ?_
    cases q with
    | none => trivial
    | some q =>
      refine .bind (uses_op trivial) fun u => uses_ite (.bind (uses_op trivial) fun u =>
        .bind (uses_caught (by trivial) _ _) fun _ => ?_) ?_
      · exact .bind (uses_op trivial) fun _ => uses_op trivial
      · exact .bind (uses_op trivial) fun _ => uses_op trivial
  unfold handleData
  rw [wp_bind]
  apply wp_dispatchRequest_speaks
  · intro _
    refine wp_mono (wp_speaks (S := SaidWithinLimit quote) (uses_op fun _ _ => ?_)) fun _ _ hw => hw
    exact withinLimit_parseError
  · rintro e root garbage w₁ rfl _ hw₁
    refine (wp_bind _ _).mpr (wp_mono (hfail w₁ (.of_trace hw₁.trace)) fun _ _ hw => hw)
  · rintro root garbage request w₁ rfl hrequest hw₁
    have hrefreshed := (h c root rfl garbage request hrequest).refreshed hw₁
    refine wp_mono (wp_serve_withinLimit hq hrefreshed) fun response w₂ ⟨h₂, hanswer⟩ => ?_
    refine wp_mono (wp_speaks (S := SaidWithinLimit quote) (uses_op fun _ _ => hanswer))
      fun _ w₃ h₃ => ?_
    exact (Says.of_trace hw₁.trace).trans (h₂.trans h₃)

/-! ## The other events -/

/-- Whoever is logged in has a name that may log in. -/
def NamesValid (w : World P) : Prop :=
  ∀ c u, w.sessions.logins.At c u → validateUsername u = true

theorem NamesValid.of_at (h : NamesValid w)
    (hat : ∀ c u, w'.sessions.logins.At c u → w.sessions.logins.At c u) : NamesValid w' :=
  fun c u hc => h c u (hat c u hc)

/-- The only way to be logged in is a login, and the name that it checks against the table is one that a
registration or a change of names has let in. -/
theorem NamesValid.next (h : NamesValid w) (e : Event × List Choice) : NamesValid (next w e) := by
  obtain ⟨e, cs⟩ := e
  have happens := step_happens .any w e cs fun ch _ => Env.ok_any ch
  unfold Server.next
  generalize (step w e cs).1 = served at happens
  generalize (step w e cs).2 = w' at happens ⊢
  cases happens with
  | disabled => exact h
  | turnedAway _ _ _ _ hsessions => exact h.of_at fun c u hc => hsessions ▸ hc
  | accepted c _ _ _ hlogins =>
    refine h.of_at fun d u hd => ?_
    rw [hlogins, Spec.Logins.at_connect] at hd
    exact hd.2
  | malformed _ _ hquiet => exact h.of_at fun d u hd => hquiet.logins ▸ hd
  | thrown c _ _ _ w₁ _ _ hquiet hremoved =>
    exact h.of_at fun d u hd => hquiet.logins ▸ hremoved.at hd
  | served c root garbage request response w₁ w₂ _ _ _ hquiet hserves hrest =>
    have h₁ : NamesValid w₁ := h.of_at fun d u hd => hquiet.logins ▸ hd
    have h₂ : NamesValid w₂ := by
      cases hserves with
      | refused => exact h₁
      | registered => exact h₁
      | updated => exact h₁
      | other _ _ _ hchats => exact h₁.of_at fun d u hd => hchats.sessions ▸ hd
      -- the name at this connection is the one that was checked; the others were there before
      | loggedIn r kicks w₁' _ _ haccepts hlogin hchats =>
        intro d u hd
        have hsame : w₂.sessions.logins = w₁.sessions.logins.signIn kicks request.clientSocket
            request.username := (congrArg SessionManager.logins hchats.sessions).trans hlogin.logins
        rw [hsame] at hd
        have hat := Spec.Logins.at_of_signIn hd
        split at hat
        · rw [hat]
          exact haccepts.1
        · exact h₁ d u hat
    exact h₂.of_at fun d u hd => hrest.logins ▸ hd
  | hungUp c _ hremoved => exact h.of_at fun d u => hremoved.at
  | scanned _ hscan => exact h.of_at hscan.at_and_idOf.1

/-- The scan tells the friends of a name that is logged in, and such a name is short. -/
theorem wp_farewell_withinLimit (hq : Quotes quote) {p : SessionPtr} {s : ClientSession}
    (hs : w.sessions.heap.lookup p = some s) (hvalid : validateUsername s.username = true) :
    wp E (farewell p) (fun _ w' => Says (SaidWithinLimit quote) w w') w := by
  have hnotify : (notifyFriendsStatusChange s.username .offline).Uses
      (Op.Says (SaidWithinLimit quote)) :=
    says_notify fun _ _ _ => withinLimit_statusNotify hq (validateUsername_length hvalid) .offline
  -- the name is the same each time it is read
  have rest : ∀ db : Database P, wp E (do
      let username ← getUsername p
      notifyFriendsStatusChange username .offline
      let username ← getUsername p
      removeFriendCache username : Action Unit)
      (fun _ w' => Says (SaidWithinLimit quote) w w') { w with db := db } := by
    intro db
    have hs₁ : ({ w with db := db } : World P).sessions.heap.lookup p = some s := hs
    have htalk : wp E (notifyFriendsStatusChange s.username .offline)
        (fun _ w₂ => Talks { w with db := db } w₂) { w with db := db } := wp_notify fun _ h => h
    simp only [wp_bind, wp_getUsername hs₁]
    refine wp_mono (wp_and (wp_speaks hnotify) htalk) fun _ w₂ h => ?_
    obtain ⟨h₂, htalks⟩ := h
    have hs₂ : w₂.sessions.heap.lookup p = some s := by
      rw [htalks.sessions]
      exact hs
    simp only [wp_getUsername hs₂]
    obtain ⟨said, hsaid, hall⟩ := h₂
    exact wp_cacheErase.mpr ⟨said, hsaid, hall⟩
  unfold farewell updateUserOnlineStatus
  rw [wp_bind, wp_getUsername hs, wp_bind, wp_updateOnlineStatusByUsername]
  exact ⟨fun _ => rest w.db, rest _⟩

theorem wp_endConnection_withinLimit (hq : Quotes quote) (hw : NamesValid w) (c : Socket) :
    wp E (endConnection c) (fun _ w' => Says (SaidWithinLimit quote) w w') w := by
  unfold endConnection
  simp only [wp_bind, wp_getSession]
  cases hp : w.sessions.getSession c with
  | none => exact wp_close.mpr ⟨[.close c], rfl, by simp [SaidWithinLimit]⟩
  | some p =>
    obtain ⟨s, hs, _, hl⟩ := SessionManager.heap_of_getSession hp
    have hrest : (do
        removeSession c
        addConnections (-1)
        close c : Action Unit).Uses (Op.Says (SaidWithinLimit quote)) :=
      .bind (uses_op trivial) fun _ => .bind (uses_op trivial) fun _ => uses_op trivial
    simp only [wp_bind, wp_getUsername hs]
    refine wp_if (fun hu => ?_) fun _ => wp_speaks hrest
    have hvalid := hw c s.username (SessionManager.at_iff.mpr ⟨hl, hu⟩)
    rw [wp_bind]
    refine wp_mono (wp_farewell_withinLimit hq hs hvalid) fun _ w₁ h₁ => ?_
    exact wp_mono (wp_speaks hrest) fun _ _ => h₁.trans

/-- A scan ends one session after the other; the others keep their names. -/
theorem expiresEach_withinLimit (hq : Quotes quote) :
    ExpiresEach E (NamesValid (P := P)) fun _ => Says (SaidWithinLimit quote) := by
  intro c p s w hw hs hl hu
  have hvalid := hw c s.username (SessionManager.at_iff.mpr ⟨hl, hu⟩)
  have hexpire : wp E (expire c p) (fun _ w' => Says (SaidWithinLimit quote) w w') w := by
    unfold expire
    rw [wp_bind]
    refine wp_mono (wp_farewell_withinLimit hq hs hvalid) fun _ w₁ h₁ => ?_
    refine wp_mono (wp_speaks (S := SaidWithinLimit quote) ?_) fun _ _ => h₁.trans
    exact .bind (uses_op trivial) fun _ => .bind (uses_op trivial) fun _ => uses_op trivial
  have hremoved : wp E (expire c p) (fun _ w' => Removed E c w w') w :=
    wp_expire hs hl hu fun _ h _ => h
  refine wp_mono (wp_and hexpire hremoved) fun _ w₁ ⟨h₁, hremoved⟩ => ?_
  exact ⟨hw.of_at fun _ _ => hremoved.at, fun _ _ _ => h₁.trans⟩

theorem wp_event_withinLimit (hq : Quotes quote) (hw : NamesValid w) {e : Event × List Choice}
    (h : EventHasRoom quote w e) :
    wp E (e.1.action P) (fun _ w' => Says (SaidWithinLimit quote) w w') w := by
  obtain ⟨e, cs⟩ := e
  cases e with
  | accept c =>
    refine wp_speaks (.bind (.bind (uses_op trivial) fun _ => .bind (uses_op trivial) fun n => ?_)
      fun _ => trivial)
    refine uses_ite (.bind (uses_op fun _ _ => withinLimit_busy) fun _ => uses_op trivial) ?_
    exact .bind (uses_op trivial) fun _ => uses_op trivial
  | request c parsed => exact wp_handleData_withinLimit hq h
  | hangup c =>
    exact (wp_bind _ _).mpr (wp_mono (wp_endConnection_withinLimit hq hw c) fun _ _ h => h)
  | heartbeatScan =>
    refine (wp_bind _ _).mpr (wp_mono (wp_heartbeatCheck_each (fun _ h => h) (fun w _ => .refl _ w)
      (expiresEach_withinLimit hq) hw) ?_)
    rintro _ w' ⟨-, -, -, -, hsays⟩
    exact hsays

/-! ## Runs -/

/-- Every frame that was sent is within the limit. -/
def KeepsToLimit (quote : Str → Str) (w : World P) : Prop := ∀ o ∈ w.trace, SaidWithinLimit quote o

theorem KeepsToLimit.next (hq : Quotes quote) (hw : NamesValid w) (h : KeepsToLimit quote w)
    {e : Event × List Choice} (he : EventHasRoom quote w e) : KeepsToLimit quote (next w e) := by
  unfold Server.next step
  by_cases henabled : e.1.Enabled P w
  · rw [if_pos henabled]
    obtain ⟨said, hsaid, hall⟩ := run_of_wp (wp_event_withinLimit (E := .any) hq hw he) e.2
      fun ch _ => Env.ok_any ch
    intro o ho
    rw [hsaid] at ho
    exact (List.mem_append.mp ho).elim (h o) (hall o)
  · rw [if_neg henabled]
    exact h

/-- The invariant of the runs. -/
structure Limited (quote : Str → Str) (w : World P) : Prop where
  names : NamesValid w
  keeps : KeepsToLimit quote w

theorem Limited.next (hq : Quotes quote) (h : Limited quote w) {e : Event × List Choice}
    (he : EventHasRoom quote w e) : Limited quote (next w e) :=
  ⟨h.names.next e, h.keeps.next hq h.names he⟩

/-- **The server keeps to its limit** in every run in which there is room for the data. Every frame that
was sent, by whatever event and to whomever, has a body of at most 65536 bytes, if in the state before
each event there is room for what the event sends: the list, the history, the message or the type. -/
theorem keepsToLimit_run (hq : Quotes quote) (db : Database P) (es : List (Event × List Choice))
    (h : Effect.Meets next (EventHasRoom quote) (World.start db) es) :
    KeepsToLimit quote (Effect.runAll next (World.start db) es) := by
  have hstart : Limited quote (World.start db) := by
    refine ⟨fun c u hc => ?_, nofun⟩
    exact absurd (SessionManager.at_iff.mp hc).1 (by simp [World.start])
  exact (Effect.runAll_inv hstart (fun _ _ hw he => hw.next hq he) h).keeps

/-- Most requests have nothing to make room for. -/
theorem hasRoom_of_plain {request : Request} (h : request.type ∈
    [bytes "REGISTER", bytes "UPDATE_USER", bytes "QUERY_STATUS", bytes "ADD_FRIEND",
      bytes "DEL_FRIEND", bytes "FRIEND_STATUS", bytes "HEARTBEAT"]) :
    RequestHasRoom quote w request := by
  have other : ∀ type, request.type = type → type ∈ [bytes "REGISTER", bytes "UPDATE_USER",
      bytes "QUERY_STATUS", bytes "ADD_FRIEND", bytes "DEL_FRIEND", bytes "FRIEND_STATUS",
      bytes "HEARTBEAT"] := fun type htype => htype ▸ h
  refine ⟨fun ht => absurd (other _ ht) (by decide), fun ht => absurd (other _ ht) (by decide),
    fun ht => absurd (other _ ht) (by decide), fun ht => absurd (other _ ht) (by decide),
    fun ht => absurd (other _ ht) (by decide), fun ht => absurd ?_ ht⟩
  have hknown : ∀ type ∈ [bytes "REGISTER", bytes "UPDATE_USER", bytes "QUERY_STATUS",
      bytes "ADD_FRIEND", bytes "DEL_FRIEND", bytes "FRIEND_STATUS", bytes "HEARTBEAT"],
      type ∈ requestTypes := by decide
  exact hknown _ h

/-- Nor has a login without stored messages. -/
theorem hasRoom_of_login {request : Request} (htype : request.type = bytes "LOGIN")
    (hmessages : w.db.messages = []) : RequestHasRoom quote w request := by
  refine ⟨fun _ r _ _ m hm => ?_, fun ht => ?_, fun ht => ?_, fun ht => ?_, fun ht => ?_,
    fun ht => absurd ?_ ht⟩
  · have hmem := (List.mem_filter.mp hm).1
    rw [hmessages] at hmem
    cases hmem
  · exact absurd (htype.symm.trans ht) (by decide)
  · exact absurd (htype.symm.trans ht) (by decide)
  · exact absurd (htype.symm.trans ht) (by decide)
  · exact absurd (htype.symm.trans ht) (by decide)
  · rw [htype]
    decide

/-- A request of a type that nothing is known about is answered, whatever its length. -/
theorem sends_unknown {c : Socket} {type : Str} {node : Json} {root : Json}
    (hheader : header root = .ok (type, node)) (hok : ∀ L garbage, ∃ request,
      requestOf L c garbage root = .ok request) (htype : type ∉ requestTypes) :
    wp E (handleData P c (some root))
      (fun _ w' => ∃ account ok, .sent c account (unknownAnswer type) ok ∈ w'.trace) w := by
  unfold handleData
  rw [wp_bind]
  apply wp_dispatchRequest_speaks
  · exact nofun
  · intro e root' garbage w₁ hroot herror _
    obtain rfl := Option.some.inj hroot
    obtain ⟨request, hrequest⟩ := hok w.sessions.logins garbage
    rw [hrequest] at herror
    cases herror
  · intro root' garbage request w₁ hroot hrequest _
    obtain rfl := Option.some.inj hroot
    obtain rfl : request.type = type := requestOf_type hheader hrequest
    have hserve : serve P request = pure ⟨4002, bytes "未知的请求类型", none⟩ := by
      simp only [requestTypes, List.mem_cons, List.not_mem_nil, or_false, not_or] at htype
      unfold serve
      simp only [htype, if_false]
    rw [hserve]
    have hsent : ∀ ok, ∃ account ok', .sent c account (unknownAnswer request.type) ok' ∈ (w₁.observe
        (.sent c (w₁.accountAt c) (unknownAnswer request.type) ok)).trace :=
      fun ok => ⟨_, ok, List.mem_append_right _ (List.mem_singleton_self _)⟩
    exact wp_sendData.mpr ⟨hsent true, fun _ => hsent false⟩

/-- A request of a type that nothing is known about, between two requests. -/
theorem keepsToLimit_ping : KeepsToLimit quotePlain (Effect.runAll next
    (World.start (Database.empty : Database asciiCi))
    (aliceRegisters ++ [(.request 1 (flatBody [("type", "PING")]), []), aliceLogsIn])) := by
  refine keepsToLimit_run quotes_plain Database.empty _ ⟨nofun, ?_, ?_, ?_, trivial⟩
  · rintro c root ⟨⟩ garbage request hrequest
    have htype : request.type = bytes "REGISTER" := requestOf_type rfl hrequest
    refine hasRoom_of_plain ?_
    rw [htype]
    decide
  · rintro c root ⟨⟩ garbage request hrequest
    have htype : request.type = bytes "PING" := requestOf_type rfl hrequest
    refine ⟨?_, ?_, ?_, ?_, ?_, ?_⟩
    all_goals rw [htype]
    · exact fun ht => absurd ht (by decide)
    · exact fun ht => absurd ht (by decide)
    · exact fun ht => absurd ht (by decide)
    · exact fun ht => absurd ht (by decide)
    · exact fun ht => absurd ht (by decide)
    · intro _
      unfold RoomForUnknown Room
      decide +kernel
  · rintro c root ⟨⟩ garbage request hrequest
    have htype : request.type = bytes "LOGIN" := requestOf_type rfl hrequest
    exact hasRoom_of_login htype (by decide)

/-- The request can be received: its text is within the limit. -/
def Receivable (quote : Str → Str) (e : Event × List Choice) : Prop :=
  ∀ c root, e.1 = .request c (some root) → WithinLimit quote (.json root)

def typeOnly (type : Str) : Json := .obj [(bytes "type", .str type)]

theorem withinLimit_typeOnly_iff (type : Str) :
    WithinLimit quotePlain (.json (typeOnly type)) ↔ type.length + 12 ≤ maxBodyLength := by
  have hlength : ((Frame.json (typeOnly type)).body quotePlain).length = type.length + 12 := by
    have hkey : (bytes "type").length = 4 := by decide
    simp only [typeOnly, Frame.body, Json.write, writeMembers, commas, quotePlain,
      List.length_append, List.length_cons, List.length_nil, hkey]
    omega
  unfold WithinLimit
  rw [hlength]
  omega

/-- A connection on which there is one request, which is nothing but its type. -/
def sendsType (type : Str) : List (Event × List Choice) :=
  [(.accept 1, []), (.request 1 (some (typeOnly type)), [])]

/-- A `type` of 65474 bytes is repeated in the answer, which is too long with the rest. -/
theorem not_keepsToLimit_type {type : Str} (htype : type ∉ requestTypes)
    (hlength : 65473 < type.length) : ¬ KeepsToLimit quotePlain
      (Effect.runAll next (World.start (Database.empty : Database asciiCi)) (sendsType type)) := by
  intro h
  let here : World asciiCi := next (World.start Database.empty) (.accept 1, [])
  have henabled : Event.Enabled asciiCi here (.request 1 (some (typeOnly type))) := by
    show 1 ∈ here.openSockets
    decide
  have hrun : Effect.runAll next (World.start Database.empty) (sendsType type) =
      ((handleData asciiCi 1 (some (typeOnly type))).run [] here).2 := by
    show (step here (.request 1 (some (typeOnly type))) []).2 = _
    unfold step
    rw [if_pos henabled]
    rfl
  have hheader : header (typeOnly type) = .ok (type, typeOnly type) := rfl
  have hread : ∀ L garbage, ∃ request, requestOf L 1 garbage (typeOnly type) = .ok request :=
    fun L garbage => ⟨_, rfl⟩
  obtain ⟨account, ok, hmem⟩ := run_of_wp (sends_unknown (P := asciiCi) (E := .any) (w := here) hheader
    hread htype) [] fun ch _ => Env.ok_any ch
  rw [hrun] at h
  have hroom := (withinLimit_unknown_iff type).mp (h _ hmem)
  unfold RoomForUnknown Room maxBodyLength at hroom
  have hquoted : quoted quotePlain [type ++ bytes "_RESPONSE"] = type.length + 11 := by
    have hsuffix : (bytes "_RESPONSE").length = 9 := by decide
    simp only [quoted, quotePlain, List.map_cons, List.map_nil, List.sum_cons, List.sum_nil,
      List.length_cons, List.length_append, List.length_nil, hsuffix]
    omega
  have hfixed : quoted quotePlain [bytes "type", bytes "code", bytes "msg", bytes "未知的请求类型"] = 40 := by
    decide +kernel
  omega

theorem receivable_type {type : Str} (hlength : type.length + 12 ≤ maxBodyLength) :
    ∀ e ∈ sendsType type, Receivable quotePlain e := by
  intro e he c root hroot
  rcases List.mem_cons.mp he with rfl | he
  · cases hroot
  · obtain rfl := List.mem_singleton.mp he
    cases hroot
    exact (withinLimit_typeOnly_iff type).mpr hlength

/-- A type that fits into a request, and not into the answer. -/
theorem not_keepsToLimit : ¬ ∀ es : List (Event × List Choice), (∀ e ∈ es, Receivable quotePlain e) →
    KeepsToLimit quotePlain
      (Effect.runAll next (World.start (Database.empty : Database asciiCi)) es) := by
  intro h
  obtain ⟨type, hlength⟩ : ∃ type : Str, type.length = 65500 :=
    ⟨List.replicate 65500 120, List.length_replicate⟩
  have hunknown : type ∉ requestTypes := by
    intro hmem
    have hle := length_requestType type hmem
    omega
  have hreceivable : ∀ e ∈ sendsType type, Receivable quotePlain e := by
    refine receivable_type ?_
    unfold maxBodyLength
    omega
  exact not_keepsToLimit_type hunknown (by omega) (h _ hreceivable)

end LiteChat
