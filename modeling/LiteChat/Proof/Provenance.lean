import LiteChat.Proof.Accounts
import LiteChat.Proof.ExactlyOnce
import LiteChat.Proof.Ordinary

/-!
# Where messages come from

A client that is shown a message has to take the server's word for who wrote it. The word is good as far
as logins go: whatever the threads do in between, and whatever fails, a row of `messages` was there at first
or was stored by a thread whose own client asked, in one body, for that content to be sent to the user whom
the body names as its target (`AsksToSend`); and its sender is the name that the thread had read last from
the session of its connection, or the `username` of the body if nobody was logged in there, since
`DispatchRequest` takes that name then. A frame that forwards a message is written by a thread that has
stored it itself in this way or has read it from the table (`provenance_run`).

As for accounts, the argument is about what a thread was told (`serve_relays`). The two names are those that
the ids of the row were looked up by, and a live frame carries the same sender's name and goes to a socket
that the routing table gave for the same receiver's name.
-/

namespace LiteChat

open LiteChat.Action Effect Server UserManager FriendManager MessageManager

variable {P : Platform} {α : Type}

/-! ## What a thread may forward -/

/-- The thread asked for the number of that name, and was given it. -/
def Named (own : List (Call Op Op.Res)) (u : Str) (i : UserId) : Prop :=
  (⟨.sql (.selectUserId u), (Except.ok (some i) : Except SQLException (Option UserId))⟩ :
    Call Op Op.Res) ∈ own

/-- The thread has stored the message. -/
def Inserted (own : List (Call Op Op.Res)) (i j : UserId) (content : Str) : Prop :=
  (⟨.sql (.insertMessage i j content), (Except.ok () : Except SQLException Unit)⟩ :
    Call Op Op.Res) ∈ own

/-- One of the bodies asks for the content to be sent from `u` to `v`: `u` is whoever acts on the
connection and `v` the target, for which the name in the body stands if no other is given; where nobody
acts, the body names both. -/
def AsksToSend (received : List (Option Json)) (acting u v content : Str) : Prop :=
  ∃ root node name target, some root ∈ received ∧ header root = .ok (bytes "SEND_MSG", node) ∧
    stringField node "username" = .ok name ∧ stringField node "targetUsername" = .ok target ∧
    stringField node "content" = .ok content ∧
    (acting = [] ∧ u = name ∧ v = target ∨ u = acting ∧ v = if target = [] then name else target)

/-- With the calls `own` behind it, a thread that receives these bodies on `c` may store the message: its
client asks for that, the names are those it has looked the users up by, and the content is allowed. -/
structure Posts (received : List (Option Json)) (c : Socket) (own : List (Call Op Op.Res))
    (u v : Str) (i j : UserId) (content : Str) : Prop where
  sender : Named own u i
  receiver : Named own v j
  asks : AsksToSend received (actingName c own) u v content
  valid : validateMessageContent content = true
  length : content.length ≤ maxMessageSize

/-- The thread has stored the message, and its client asked for that. -/
def Posted (received : List (Option Json)) (c : Socket) (own : List (Call Op Op.Res))
    (u v : Str) (i j : UserId) (content : Str) : Prop :=
  Made own ⟨.sql (.insertMessage i j content), (Except.ok () : Except SQLException Unit)⟩
    fun before => Posts received c before u v i j content

/-- The message was in what the thread was given as the backlog of that user. -/
def Listed (own : List (Call Op Op.Res)) (j : UserId) (msg : Message) : Prop :=
  ∃ messages, msg ∈ messages ∧
    (⟨.sql (.selectUnread j), (Except.ok messages : Except SQLException (List Message))⟩ :
      Call Op Op.Res) ∈ own

/-- The thread was given a session for that name, and the session gave the socket. -/
def FoundAt (own : List (Call Op Op.Res)) (v : Str) (c : Socket) : Prop :=
  ∃ p, (⟨.getSessionByUsername v, (some p : Option SessionPtr)⟩ : Call Op Op.Res) ∈ own ∧
    (⟨.getSocket p, (c : Socket)⟩ : Call Op Op.Res) ∈ own

/-- The frame passes on the message from `i` to `j`: one the thread has just stored, or one it has read.
It carries the sender's name and goes to where the receiver's name was found. -/
inductive Relayed (received : List (Option Json)) (c : Socket) (own : List (Call Op Op.Res))
    (dest : Socket) (frame : Frame) (i j : UserId) (content : Str) : Prop
  | live (u v : Str) (hstored : Posted received c own u v i j content) (hsocket : FoundAt own v dest)
      (hframe : frame = forwardMsg u content [])
  | late (msg : Message) (hlisted : Listed own j msg) (hsender : msg.senderId = i)
      (hcontent : msg.content = content) (hsocket : FoundAt own msg.receiverUsername dest)
      (hframe : frame = forwardMsg msg.senderUsername content msg.sendTime)

section Told

variable {own own' : List (Call Op Op.Res)} {u v : Str} {i j : UserId} {c : Socket}

theorem FoundAt.mono (h : FoundAt own v c) (hown : own <+: own') : FoundAt own' v c := by
  obtain ⟨p, hp, hc⟩ := h
  exact ⟨p, hown.subset hp, hown.subset hc⟩

theorem Listed.mono {msg : Message} (h : Listed own j msg) (hown : own <+: own') : Listed own' j msg := by
  obtain ⟨messages, hmsg, hmessages⟩ := h
  exact ⟨messages, hmsg, hown.subset hmessages⟩

theorem Relayed.mono {received : List (Option Json)} {dest : Socket} {frame : Frame} {content : Str}
    (h : Relayed received c own dest frame i j content) (hown : own <+: own') :
    Relayed received c own' dest frame i j content := by
  cases h with
  | live u v hstored hsocket hframe => exact .live u v (hstored.mono hown) (hsocket.mono hown) hframe
  | late msg hlisted hsender hcontent hsocket hframe =>
    exact .late msg (hlisted.mono hown) hsender hcontent (hsocket.mono hown) hframe

end Told

/-- A thread stores what its client asks it to send, and forwards what it has stored or read. -/
def Relays (received : List (Option Json)) (c : Socket) (own : List (Call Op Op.Res)) : Op → Prop
  | .sql (.insertMessage i j content) => ∃ u v, Posts received c own u v i j content
  | .sendData dest frame => frame.forwarded? = none ∨
      ∃ i j content, Relayed received c own dest frame i j content
  | _ => True

/-- The operations that neither store nor forward a message. -/
def Op.Quiet : Op → Prop
  | .sql (.insertMessage _ _ _) => False
  | .sendData _ frame => frame.forwarded? = none
  | _ => True

theorem Stmt.Ordinary.storesNothing {st : Stmt} (h : st.Ordinary) : st.StoresNothing := by
  cases st with
  | insertMessage => exact h
  | _ => trivial

theorem Op.Asks.quiet {S : Stmt → Prop} (hS : ∀ st, S st → st.StoresNothing) {o : Op}
    (ho : o.Asks S) : o.Quiet := by
  cases ho with
  | @sql st h =>
    have h := hS st h
    cases st with
    | insertMessage => exact h
    | _ => trivial

theorem Op.Ordinary.quiet {o : Op} (ho : o.Ordinary) : o.Quiet := by
  cases o with
  | sql st =>
    cases st with
    | insertMessage => exact absurd ho id
    | _ => trivial
  | sendData c frame => exact ho.1
  | _ => trivial

/-- No type that ends in `_RESPONSE` is `FORWARD_MSG`. -/
theorem forwarded_responseFrame (type : Str) (response : Response) :
    (responseFrame type response).forwarded? = none := by
  have htype : type ++ bytes "_RESPONSE" ≠ bytes "FORWARD_MSG" := by
    intro h
    have hlast := congrArg List.getLast? h
    rw [List.getLast?_append_of_ne_nil _ (by decide)] at hlast
    exact absurd hlast (by decide)
  unfold Frame.forwarded?
  exact if_neg fun h => htype (Option.some.inj h)

theorem Op.Dispatches.quiet {c : Socket} {o : Op} (ho : o.Dispatches c) : o.Quiet := by
  cases ho with
  | parseError => rfl
  | response type response => exact forwarded_responseFrame type response
  | _ => trivial

theorem Op.Accepts.quiet {o : Op} (ho : o.Accepts) : o.Quiet := by
  cases ho with
  | sendData => rfl
  | _ => trivial

section Threads

variable {received : List (Option Json)} {c : Socket} {own : List (Call Op Op.Res)}
  {request : Request}

theorem Op.Quiet.relays {o : Op} (ho : o.Quiet) : Relays received c own o := by
  cases o with
  | sql st =>
    cases st with
    | insertMessage => exact absurd ho id
    | _ => trivial
  | sendData c frame => exact .inl ho
  | _ => trivial

theorem obeys_quiet {p : Action α} (hp : p.Uses Op.Quiet) : p.Obeys (Relays received c) own :=
  hp.obeys fun _ _ ho _ => ho.relays

theorem obeys_ordinary {p : Action α} (hp : p.Uses Op.Ordinary) : p.Obeys (Relays received c) own :=
  obeys_quiet (hp.mono fun _ ho => ho.quiet)

theorem handleLogin_quiet (request : Request) : (handleLogin P request).Uses Op.Quiet := by
  refine uses_ite trivial ?_
  refine .bind (uses_caught trivial _ _) fun r => ?_
  cases r with
  | none => trivial
  | some r =>
    refine uses_ite trivial ?_
    refine .bind ((leave_ordinary _ _).mono fun _ ho => ho.quiet) fun _ => ?_
    refine .bind ((enter_ordinary _ _ _).mono fun _ ho => ho.quiet) fun _ => ?_
    exact .bind ((notify_ordinary _ _).mono fun _ ho => ho.quiet) fun _ => trivial

/-! ## Forwarding -/

/-- A message is forwarded to where its receiver was found. -/
theorem forwardMessage_relays (i j : UserId) {a b : UserId} {u v content sendTime : Str}
    (hforwards : ∀ dest own', own <+: own' → FoundAt own' v dest →
      Relayed received c own' dest (forwardMsg u content sendTime) i j content) :
    (forwardMessage a u b v content sendTime).Obeys (Relays received c) own := by
  refine .call trivial fun q => ?_
  cases q with
  | none => exact Prog.obeys_pure _
  | some q =>
    refine .call trivial fun (dest : Socket) => .call (.inr ⟨i, j, content, ?_⟩) fun sent => ?_
    · apply hforwards
      · exact (List.prefix_append own _).trans (List.prefix_append _ _)
      · exact ⟨q, by simp, by simp⟩
    · dsimp only
      split
      · exact .seq (obeys_quiet (uses_caught trivial _ _)) fun _ _ _ => Prog.obeys_pure _
      · exact Prog.obeys_pure _

theorem sendNotification_quiet (c : Socket) (u content : Str) :
    (sendNotification c u content).Uses Op.Quiet :=
  .bind (uses_op (by exact rfl)) fun _ => trivial

theorem handleSendMessage_relays (hasks : AsksToSend received (actingName c own) request.username
    request.targetUsername request.content) : (handleSendMessage request).Obeys (Relays received c) own := by
  unfold handleSendMessage
  split
  · exact Prog.obeys_pure _
  rename_i hcontent
  split
  · exact Prog.obeys_pure _
  rename_i hlength
  refine obeys_caught trivial (fun r => ?_) fun _ => Prog.obeys_pure _
  cases r with
  | none => exact Prog.obeys_pure _
  | some i =>
    refine obeys_caught trivial (fun r => ?_) fun _ => Prog.obeys_pure _
    cases r with
    | none => exact Prog.obeys_pure _
    | some j =>
      -- both users have been looked up; who acts is still known from before the handler
      generalize hown₂ : own ++ [_] ++ [_] = own₂
      have hname : actingName c own₂ = actingName c own := by
        subst hown₂
        exact (actingName_sql c _ _ _).trans (actingName_sql c _ _ _)
      have hposts : Posts received c own₂ request.username request.targetUsername i j
          request.content := by
        refine ⟨?_, ?_, hname.symm ▸ hasks, not_not.mp hcontent, Nat.le_of_not_lt hlength⟩
        · subst hown₂
          exact List.mem_append_left _ List.mem_concat_self
        · subst hown₂
          exact List.mem_concat_self
      refine obeys_caught ⟨_, _, hposts⟩ (fun _ => ?_) fun _ => Prog.obeys_pure _
      split
      · exact Prog.obeys_pure _
      refine .seq ?_ fun _ _ _ => Prog.obeys_pure _
      refine .seq (obeys_quiet (uses_caught trivial _ _)) fun isOnline own' hown => ?_
      dsimp only
      split
      · refine .call trivial fun session => ?_
        cases session with
        | none => exact Prog.obeys_pure _
        | some session =>
          refine .seq (forwardMessage_relays i j fun dest own'' hown' hsocket => ?_) fun _ _ _ => ?_
          · have hown := (hown.trans (List.prefix_append _ _)).trans hown'
            exact .live _ _ ((Made.now hposts _).mono hown) hsocket rfl
          · exact .call trivial fun dest => obeys_quiet (sendNotification_quiet dest _ _)
      · exact Prog.obeys_pure _

theorem pushEach_relays {dest : Socket} (j : UserId) (messages : List Message)
    (hlisted : ∀ msg ∈ messages, Listed own j msg) :
    (pushEach dest messages).Obeys (Relays received c) own := by
  induction messages generalizing own with
  | nil => exact Prog.obeys_pure _
  | cons msg messages ih =>
    refine .seq (forwardMessage_relays msg.senderId j fun d own' hown hsocket => ?_) fun _ own₁ h₁ => ?_
    · exact .late msg ((hlisted msg List.mem_cons_self).mono hown) rfl rfl hsocket rfl
    · refine .seq (obeys_quiet (sendNotification_quiet _ _ _)) fun _ own₂ h₂ => ?_
      exact ih fun m hm => (hlisted m (List.mem_cons_of_mem _ hm)).mono (h₁.trans h₂)

theorem pushOfflineMessages_relays (u : Str) : (pushOfflineMessages u).Obeys (Relays received c) own := by
  refine .seq (obeys_quiet (uses_caught trivial _ _)) fun r own₁ _ => ?_
  cases r with
  | none => exact Prog.obeys_pure _
  | some j =>
    refine obeys_caught trivial (fun messages => ?_) fun _ => Prog.obeys_pure _
    dsimp only
    split
    · exact Prog.obeys_pure _
    refine .call trivial fun session => ?_
    cases session with
    | none => exact Prog.obeys_pure _
    | some session =>
      refine .call trivial fun (dest : Socket) => pushEach_relays j messages fun msg hmsg => ?_
      refine ⟨messages, hmsg, ?_⟩
      exact List.mem_append_left _ (List.mem_append_left _ List.mem_concat_self)

/-- Only two requests have to do with messages. -/
theorem serve_quiet (hlogin : request.type ≠ bytes "LOGIN") (hsend : request.type ≠ bytes "SEND_MSG") :
    (serve P request).Uses Op.Quiet := by
  have asks : ∀ {S : Stmt → Prop} {p : Action Response}, (∀ st, S st → st.StoresNothing) →
      p.Uses (Op.Asks S) → p.Uses Op.Quiet := fun hS hp => hp.mono fun _ ho => ho.quiet hS
  have ordinary : ∀ {p : Action Response}, p.Uses (Op.Asks Stmt.Ordinary) → p.Uses Op.Quiet :=
    asks fun _ => Stmt.Ordinary.storesNothing
  unfold serve
  rw [if_neg hlogin, if_neg hsend]
  refine uses_ite (asks (fun _ h => h) (handleRegister_asks request)) ?_
  refine uses_ite (asks (fun _ h => h) (handleUpdateUser_asks request)) ?_
  refine uses_ite (asks (fun _ h => h) (handleQueryStatus_asks request)) ?_
  refine uses_ite (ordinary (handleAddFriend_asks request)) ?_
  refine uses_ite (ordinary (handleDeleteFriend_asks request)) ?_
  refine uses_ite (ordinary (handleFriendList_asks request)) ?_
  refine uses_ite (ordinary (queryTarget_asks request _)) ?_
  refine uses_ite (ordinary (queryTarget_asks request _)) ?_
  refine uses_ite (ordinary (handleHistoryMessages_asks request)) ?_
  exact uses_ite trivial trivial

/-- What a `SEND_MSG` is served as is what its body asks for. -/
theorem ReadFrom.asksToSend {root : Json} (hmem : some root ∈ received)
    (hread : ReadFrom c own root request) (htype : request.type = bytes "SEND_MSG") :
    AsksToSend received (actingName c own) request.username request.targetUsername
      request.content := by
  obtain ⟨node, garbage, body, hheader, hbody, hacts⟩ := hread
  obtain ⟨hname, htarget⟩ := readRequest_names hbody
  have hcontent := (readRequest_fields hbody).2.2.2
  rw [htype] at hheader
  refine ⟨root, node, body.username, body.targetUsername, hmem, hheader, hname, htarget, ?_, ?_⟩
  · rcases hacts with ⟨rfl, _⟩ | rfl
    · exact hcontent
    · exact hcontent
  · rcases hacts with ⟨rfl, hnobody⟩ | rfl
    · exact .inl ⟨hnobody, rfl, rfl⟩
    · exact .inr ⟨rfl, targetUsername_actingAs body _⟩

/-- **A request stores what its client asks it to, and forwards what is stored.** `SEND_MSG` stores a
row between the two users whose names the request has, and forwards it to where the receiver was found;
a login forwards what it has read. No other request has to do with messages. -/
theorem serve_relays {root : Json} (hmem : some root ∈ received) (hread : ReadFrom c own root request) :
    (serve P request).Obeys (Relays received c) own := by
  by_cases hlogin : request.type = bytes "LOGIN"
  · rw [serve_login hlogin]
    refine .seq (obeys_quiet (handleLogin_quiet request)) fun response _ _ => ?_
    split
    · refine .seq (obeys_ordinary (cacheFriendList_ordinary _)) fun _ _ _ => ?_
      exact .seq (pushOfflineMessages_relays _) fun _ _ _ => Prog.obeys_pure _
    · exact Prog.obeys_pure _
  by_cases hsend : request.type = bytes "SEND_MSG"
  · unfold serve
    rw [hsend, if_neg (by decide), if_neg (by decide), if_neg (by decide), if_neg (by decide),
      if_neg (by decide), if_neg (by decide), if_neg (by decide), if_neg (by decide),
      if_neg (by decide), if_pos rfl]
    exact handleSendMessage_relays (hread.asksToSend hmem hsend)
  · exact obeys_quiet (serve_quiet hlogin hsend)

end Threads

/-! ## The messages there have been -/

section Runs

variable {κ : Type} {work : Work κ} {w₀ w : World P} {calls : List (Worker κ × Call Op Op.Res)}

/-- The bodies that a thread receives: only the tasks of the pool receive any. -/
def Server.Work.bodies (work : Work κ) : Worker κ → List (Option Json)
  | .handling k => work.received k
  | .accepting | .checking => []

/-- The socket it receives them on. -/
def Server.Work.socketOf (work : Work κ) : Worker κ → Socket
  | .handling k => work.clientSocket k
  | .accepting | .checking => 0

theorem workers_relays (work : Work κ) :
    ∀ k, (workers P work k).Obeys (Relays (work.bodies k) (work.socketOf k)) [] :=
  obeys_workers (fun _ _ ho => ho.quiet.relays) (fun _ _ _ _ ho => ho.quiet.relays)
    (fun _ _ _ ho => ho.quiet.relays) (fun _ _ _ _ ho => ho.quiet.relays)
    fun _ _ _ _ => serve_relays

/-- A message is in the table because it was there, or because it is being inserted. -/
theorem Database.messages_exec {db db' : Database P} {st : Stmt} {now : Nat} {rank : Nat → Nat}
    {r : st.Res} (hex : db.exec now rank st = some (r, db')) {m : MessageRow} (hm : m ∈ db'.messages) :
    (∃ n ∈ db.messages, n.senderId = m.senderId ∧ n.receiverId = m.receiverId ∧
      n.content = m.content) ∨ st = .insertMessage m.senderId m.receiverId m.content := by
  have hdb : (db.exec now rank st).map Prod.snd = some db' := by rw [hex]; rfl
  have kept : db'.messages = db.messages → ∃ n ∈ db.messages, n.senderId = m.senderId ∧
      n.receiverId = m.receiverId ∧ n.content = m.content :=
    fun hmessages => ⟨m, hmessages ▸ hm, rfl, rfl, rfl⟩
  cases st with
  | insertUser u h => exact .inl (kept (tables_of_insertUser (of_tried hdb)).2.1)
  | updateUsername i u => exact .inl (kept (tables_of_updateUsername (of_tried hdb)).2.1)
  | insertFriend i j => exact .inl (kept (tables_of_insertFriend (of_tried hdb)).2.2.1)
  | insertMessage i j content =>
    rw [(tables_of_insertMessage (of_tried hdb)).1] at hm
    rcases List.mem_append.mp hm with hm | hm
    · exact .inl ⟨m, hm, rfl, rfl, rfl⟩
    · cases List.mem_singleton.mp hm
      exact .inr rfl
  | deleteMessages i j =>
    cases Option.some.inj hdb
    exact .inl ⟨m, List.mem_of_mem_filter hm, rfl, rfl, rfl⟩
  | markRead i j =>
    cases Option.some.inj hdb
    obtain ⟨n, hn, rfl⟩ := List.mem_map.mp hm
    refine .inl ⟨n, hn, ?_⟩
    unfold readRow
    split <;> exact ⟨rfl, rfl, rfl⟩
  | _ =>
    cases Option.some.inj hdb
    exact .inl (kept rfl)

theorem Database.row_of_mem_unread {db : Database P} {rank : Nat → Nat} {j : UserId} {msg : Message}
    (h : msg ∈ db.unread rank j) : msg.receiverId = j ∧
      ∃ m ∈ db.messages, m.senderId = msg.senderId ∧ m.receiverId = j ∧ m.content = msg.content := by
  obtain ⟨row, hrow, hjoined⟩ := List.mem_filterMap.mp h
  obtain ⟨hmem, hunread⟩ := List.mem_filter.mp (mem_bySendTime.mp hrow)
  obtain ⟨hreceiver, _⟩ := of_decide_eq_true hunread
  unfold Database.joined at hjoined
  split at hjoined
  · cases Option.some.inj hjoined
    exact ⟨hreceiver, row, hmem, rfl, hreceiver, rfl⟩
  · cases hjoined

/-- A frame is on record because it was, or because it is being sent. -/
theorem World.sent_handle {o : Op} {ch : Choice} {c : Socket} {account : Option UserId} {frame : Frame}
    {sent : Bool} (h : .sent c account frame sent ∈ (World.handle o ch w).2.trace) :
    .sent c account frame sent ∈ w.trace ∨ o = .sendData c frame := by
  rw [World.trace_records] at h
  refine (List.mem_append.mp h).imp_right fun h => ?_
  cases o with
  | sendData d frame' =>
    cases List.mem_singleton.mp h
    rfl
  | shutdown | close => cases List.mem_singleton.mp h
  | _ => cases h

variable [DecidableEq κ]

/-- Somebody wrote that to somebody: the message was there at first, or it was stored by the thread of a
client that had asked, in one body, for it to be sent from the one whose name has the id `i` to the one whose
name has the id `j` (`Posts`). -/
def Written (work : Work κ) (w₀ : World P) (calls : List (Worker κ × Call Op Op.Res)) (i j : UserId)
    (content : Str) : Prop :=
  (∃ m ∈ w₀.db.messages, m.senderId = i ∧ m.receiverId = j ∧ m.content = content) ∨
    ∃ k u v, Posted (work.received k) (work.clientSocket k) (Pool.own calls (.handling k)) u v i j content

/-- Rows, backlogs and frames carry nothing but what somebody wrote. -/
structure Provenance (work : Work κ) (w₀ w : World P) (calls : List (Worker κ × Call Op Op.Res)) :
    Prop where
  rows : ∀ m ∈ w.db.messages, Written work w₀ calls m.senderId m.receiverId m.content
  stored : ∀ k i j content, Inserted (Pool.own calls k) i j content → Written work w₀ calls i j content
  listed : ∀ k j msg, Listed (Pool.own calls k) j msg → msg.receiverId = j ∧
    Written work w₀ calls msg.senderId j msg.content
  frames : ∀ dest account frame sent content, .sent dest account frame sent ∈ w.trace →
    frame.forwarded? = some content → .sent dest account frame sent ∈ w₀.trace ∨
      ∃ k i j, Relayed (work.bodies k) (work.socketOf k) (Pool.own calls k) dest frame i j content ∧
        Written work w₀ calls i j content

theorem Written.mono {i j : UserId} {content : Str} (h : Written work w₀ calls i j content)
    (e : Worker κ × Call Op Op.Res) : Written work w₀ (calls ++ [e]) i j content := by
  refine h.imp_right fun ⟨k, u, v, hstored⟩ => ⟨k, u, v, ?_⟩
  exact hstored.mono (Pool.own_prefix (List.prefix_append calls [e]) (.handling k))

/-- What a thread stores, its client asked for: the body of a `SEND_MSG` has the content and names the
receiver, and the sender is who is logged in on the connection, or whom the body names if nobody is. -/
theorem written_of_relays {k : Worker κ} {i j : UserId} {content : Str}
    (hok : Relays (work.bodies k) (work.socketOf k) (Pool.own calls k)
      (.sql (.insertMessage i j content))) :
    Written work w₀ (calls ++ [(k, ⟨.sql (.insertMessage i j content),
      (Except.ok () : Except SQLException Unit)⟩)]) i j content := by
  obtain ⟨u, v, hposts⟩ := hok
  cases k with
  | handling k =>
    refine .inr ⟨k, u, v, ?_⟩
    rw [Pool.own_append_self]
    exact .now hposts _
  | accepting | checking =>
    -- these receive no bodies
    obtain ⟨root, node, name, target, hmem, -⟩ := hposts.asks
    exact absurd hmem List.not_mem_nil

/-- The content that a relayed frame carries. -/
theorem Relayed.content_eq {received : List (Option Json)} {c dest : Socket}
    {own : List (Call Op Op.Res)} {frame : Frame} {i j : UserId} {content content' : Str}
    (h : Relayed received c own dest frame i j content)
    (hframe : frame.forwarded? = some content') : content = content' := by
  cases h with
  | live u v _ _ hforward | late msg _ _ _ _ hforward =>
    rw [hforward] at hframe
    exact Option.some.inj hframe

/-- A statement, and what the thread learns from it. -/
theorem Provenance.execute (h : Provenance work w₀ w calls) {k : Worker κ} {st : Stmt}
    (hok : Relays (work.bodies k) (work.socketOf k) (Pool.own calls k) (.sql st)) (ch : Choice) :
    (∀ m ∈ (w.execute st ch).2.db.messages, Written work w₀ (calls ++ [(k, ⟨.sql st,
      (w.execute st ch).1⟩)]) m.senderId m.receiverId m.content) ∧
    (∀ i j content, (⟨.sql st, (w.execute st ch).1⟩ : Call Op Op.Res) =
      ⟨.sql (.insertMessage i j content), (Except.ok () : Except SQLException Unit)⟩ →
      Written work w₀ (calls ++ [(k, ⟨.sql st, (w.execute st ch).1⟩)]) i j content) ∧
    ∀ j messages, (⟨.sql st, (w.execute st ch).1⟩ : Call Op Op.Res) =
      ⟨.sql (.selectUnread j), (Except.ok messages : Except SQLException (List Message))⟩ →
      ∀ msg ∈ messages, msg.receiverId = j ∧
        Written work w₀ (calls ++ [(k, ⟨.sql st, (w.execute st ch).1⟩)]) msg.senderId j msg.content := by
  rcases w.execute_cases st ch with ⟨r, db, hex, hexec⟩ | hexec
  · rw [hexec]
    refine ⟨fun m hm => ?_, fun i j content hcall => ?_, fun j messages hcall msg hmsg => ?_⟩
    · rcases Database.messages_exec hex hm with ⟨n, hn, hs, hr, hc⟩ | rfl
      · rw [← hs, ← hr, ← hc]
        exact (h.rows n hn).mono _
      · exact written_of_relays hok
    · cases hcall
      exact written_of_relays hok
    · cases hcall
      obtain ⟨rfl, rfl⟩ := Prod.mk.inj (Option.some.inj hex)
      obtain ⟨hreceiver, m, hm, hs, hr, hc⟩ := Database.row_of_mem_unread hmsg
      rw [← hs, ← hc]
      exact ⟨hreceiver, hr ▸ (h.rows m hm).mono _⟩
  · rw [hexec]
    refine ⟨fun m hm => (h.rows m hm).mono _, fun i j content hcall => ?_, fun j messages hcall => ?_⟩
    · cases hcall
    · cases hcall

/-- One call, of any thread, which keeps to its protocol: each new row, answer and frame is accounted
for by the call that makes it, and for the old ones nothing is taken back, since the calls of a thread
are only added to. -/
theorem Provenance.step (h : Provenance work w₀ w calls) {k : Worker κ} {o : Op}
    (hok : Relays (work.bodies k) (work.socketOf k) (Pool.own calls k) o) (ch : Choice) :
    Provenance work w₀ (World.handle o ch w).2 (calls ++ [(k, ⟨o, (World.handle o ch w).1⟩)]) := by
  have grow : ∀ j, Pool.own calls j <+: Pool.own (calls ++ [(k, ⟨o, (World.handle o ch w).1⟩)]) j :=
    fun j => Pool.own_prefix (List.prefix_append _ _) j
  have hexecute : ∀ {st : Stmt}, o = .sql st → _ := fun ho => h.execute (ho ▸ hok) ch
  refine ⟨fun m hm => ?_, fun k' i j content hstored => ?_, fun k' j msg hlisted => ?_, ?_⟩
  · by_cases hsql : ∃ st, o = .sql st
    · obtain ⟨st, rfl⟩ := hsql
      exact (hexecute rfl).1 m hm
    · rw [World.db_handle_of_ne fun st ho => hsql ⟨st, ho⟩] at hm
      exact (h.rows m hm).mono _
  · rcases Pool.mem_own_concat.mp hstored with hstored | ⟨rfl, hcall⟩
    · exact (h.stored k' i j content hstored).mono _
    · cases congrArg Sigma.fst hcall
      exact (hexecute rfl).2.1 i j content hcall.symm
  · obtain ⟨messages, hmsg, hanswer⟩ := hlisted
    rcases Pool.mem_own_concat.mp hanswer with hanswer | ⟨rfl, hcall⟩
    · obtain ⟨hreceiver, hwritten⟩ := h.listed k' j msg ⟨messages, hmsg, hanswer⟩
      exact ⟨hreceiver, hwritten.mono _⟩
    · cases congrArg Sigma.fst hcall
      exact (hexecute rfl).2.2 j messages hcall.symm msg hmsg
  · intro c account frame sent content hsent hforwarded
    -- a frame that was there, or the one being sent, which is of a row that was stored or read
    rcases World.sent_handle hsent with hsent | rfl
    · refine (h.frames c account frame sent content hsent hforwarded).imp_right fun hrelayed => ?_
      obtain ⟨k', i, j, hrelayed, hwritten⟩ := hrelayed
      exact ⟨k', i, j, hrelayed.mono (grow k'), hwritten.mono _⟩
    · rcases hok with hnone | ⟨i, j, content', hrelayed⟩
      · rw [hnone] at hforwarded
        cases hforwarded
      · cases hrelayed.content_eq hforwarded
        refine .inr ⟨k, i, j, hrelayed.mono (grow k), ?_⟩
        cases hrelayed with
        | live u v hstored => exact (h.stored k i j content hstored.mem).mono _
        | late msg hlisted hsender hcontent =>
          rw [← hsender, ← hcontent]
          exact (h.listed k j msg hlisted).2.mono _

/-- **No message comes out of nowhere.** In every interleaving of the server's threads, whatever fails,
what the table holds was written by somebody (`Written`): it was there at first, or the thread of a client
has stored it because one body that it received asks for that content to be sent to the target that the body
names, and has stored it as from whoever it had found logged in on its connection. A frame that forwards a
message is written by a thread that has stored the message in this way or has read it from the table, under
the same sender's name, to a socket that the routing table gave it for the receiver's name. -/
theorem provenance_run (work : Work κ) (w₀ : World P) (es : List (Worker κ × Choice)) :
    Provenance work w₀ (runAll (Pool.step World.handle) (Pool.start (workers P work) w₀) es).shared
      (runAll (Pool.step World.handle) (Pool.start (workers P work) w₀) es).calls := by
  refine Pool.obeys_runAll (workers_relays work) ?_ (fun _ _ _ _ ch h hok => h.step hok ch) es
  refine ⟨fun m hm => .inl ⟨m, hm, rfl, rfl, rfl⟩, nofun, fun k j msg hlisted => ?_, ?_⟩
  · obtain ⟨messages, _, hanswer⟩ := hlisted
    cases hanswer
  · exact fun c account frame sent content hsent _ => .inl hsent

end Runs

end LiteChat
