import LiteChat.Proof.AnswerOrder
import LiteChat.Proof.Resources

/-!
# Which descriptors a thread writes to

`SendData` is called in seven places, by threads of every kind, and mostly for the sake of somebody
else: a response, a notice to a friend, a message, the push of what has waited, the farewell to a
session that is kicked, the refusal of a connection too many. Yet no thread writes to a number out
of nowhere. It answers on its own connection; or it has a descriptor in hand (`InHand`), which it
got in one of three ways: it has just read it off a session; or it read it off the session of a user
whose messages it pushes, and is still pushing; or it has just accepted it and found that there are
too many.

`Writes` is that as a protocol, and every thread keeps to it whatever it is answered
(`handleClient_inHand`, `heartbeatCheckThread_inHand`, `acceptConnections_inHand`). It is a fact
about the code alone. What it is good for is in `Proof/Failures.lean`: who knows which descriptors
are in hand knows where the next frame can go.
-/

namespace LiteChat

open LiteChat.Action Effect Server UserManager FriendManager MessageManager

variable {P : Platform} {α β κ : Type}

/-! ## What a thread has in hand -/

/-- What a thread remembers of the descriptors it was told: the one it accepted last, the one it has
just got to write to, whether it has asked for messages that wait, and the one it pushes these to. -/
structure Hands where
  accepted : Option Socket
  next : Option Socket
  unread : Bool
  pushing : Option Socket

/-- There is no room for another connection. -/
def isFull (connections : Int) : Bool := maxConnections ≤ connections

/-- What a call makes of it. A descriptor that was read is for the very next call, unless messages are
pushed to it: those go on until the request is answered. -/
def Hands.after (h : Hands) : Call Op Op.Res → Hands
  | ⟨.accept c, _⟩ => { h with accepted := some c, next := none }
  | ⟨.loadConnections, n⟩ =>
      { h with next := if isFull n then h.accepted else none }
  | ⟨.getSocket _, c⟩ =>
      { h with next := some c, unread := false, pushing := if h.unread then some c else h.pushing }
  | ⟨.sql (.selectUnread _), _⟩ => { h with next := none, unread := true }
  | ⟨.sendData _ frame, _⟩ =>
      { h with
        next := none
        unread := if frame.isResponse then false else h.unread
        pushing := if frame.isResponse then none else h.pushing }
  | _ => { h with next := none }

def hands (own : List (Call Op Op.Res)) : Hands := own.foldl Hands.after ⟨none, none, false, none⟩

/-- The thread has been told that descriptor, and has still to write to it. -/
def InHand (own : List (Call Op Op.Res)) (c : Socket) : Prop :=
  (hands own).next = some c ∨ (hands own).pushing = some c

instance (own : List (Call Op Op.Res)) (c : Socket) : Decidable (InHand own c) := by
  unfold InHand
  infer_instance

/-- The thread has made a call since it last answered: it is in the middle of something. -/
def midway (own : List (Call Op Op.Res)) : Bool :=
  own.getLast?.any fun call => (responseOf call).isNone

section Hands

variable {own own' : List (Call Op Op.Res)} {c : Socket} {o : Op}

theorem hands_concat (own : List (Call Op Op.Res)) (call : Call Op Op.Res) :
    hands (own ++ [call]) = (hands own).after call := by
  unfold hands
  rw [List.foldl_append]
  rfl

theorem inHand_getSocket (own : List (Call Op Op.Res)) (p : SessionPtr) (c : Socket) :
    InHand (own ++ [⟨.getSocket p, c⟩]) c := by
  unfold InHand
  rw [hands_concat]
  exact .inl rfl

/-- A descriptor comes into hand by being read off a session, or with the news that the connection it was
accepted for is one too many. -/
theorem InHand.before {r : o.Res} (h : InHand (own ++ [⟨o, r⟩]) c) :
    InHand own c ∨ (∃ p, (⟨o, r⟩ : Call Op Op.Res) = ⟨.getSocket p, c⟩) ∨
      ∃ n : Int, (⟨o, r⟩ : Call Op Op.Res) = ⟨.loadConnections, n⟩ ∧ isFull n = true ∧
        (hands own).accepted = some c := by
  unfold InHand at h
  rw [hands_concat] at h
  cases o with
  | getSocket p =>
    rcases h with h | h
    · cases Option.some.inj h
      exact .inr (.inl ⟨p, rfl⟩)
    · by_cases hunread : (hands own).unread = true
      · have hpushing : some r = some c := (if_pos hunread).symm.trans h
        cases Option.some.inj hpushing
        exact .inr (.inl ⟨p, rfl⟩)
      · exact .inl (.inr ((if_neg hunread).symm.trans h))
  | loadConnections =>
    rcases h with h | h
    · have hnext : (if isFull r = true then (hands own).accepted else none) = some c := h
      obtain ⟨hfull, haccepted⟩ := Option.ite_none_right_eq_some.mp hnext
      exact .inr (.inr ⟨r, rfl, hfull, haccepted⟩)
    · exact .inl (.inr h)
  | sendData d frame =>
    rcases h with h | h
    · cases h
    · exact .inl (.inr (Option.ite_none_left_eq_some.mp h).2)
  | sql st =>
    cases st <;> exact h.elim nofun fun h => .inl (.inr h)
  | _ => exact h.elim nofun fun h => .inl (.inr h)

end Hands

/-! ## What is written, and where -/

/-- A frame that is no response goes to a descriptor in hand. Sockets are shut down in the middle of
something, and not first of all. -/
def Writes (own : List (Call Op Op.Res)) : Op → Prop
  | .sendData c frame => frame.isResponse = true ∨ InHand own c
  | .shutdown _ => midway own = true
  | _ => True

section Programs

variable {own : List (Call Op Op.Res)} {request : Request}

theorem midway_concat (own : List (Call Op Op.Res)) {call : Call Op Op.Res}
    (hcall : responseOf call = none) : midway (own ++ [call]) = true := by
  unfold midway
  rw [List.getLast?_concat, Option.any_some, hcall]
  rfl

theorem asks_inHand {S : Stmt → Prop} {p : Action α} (hp : p.Uses (Op.Asks S)) :
    p.Obeys Writes own :=
  hp.obeys fun o _ ho _ => by
    cases ho with
    | sql => trivial

theorem caught_inHand (st : Stmt) (f : st.Res → α) (failed : α) :
    (caught st f failed).Obeys Writes own :=
  asks_inHand (S := fun _ => True) (uses_caught (.sql trivial) f failed)

/-- A descriptor is read off a session, and written to at once. -/
theorem getSocket_inHand {frame : Frame} {f : Socket → Bool → Action β} (p : SessionPtr)
    (hf : ∀ c sent own', (f c sent).Obeys Writes own') :
    (do
      let c ← getSocket p
      let sent ← sendData c frame
      f c sent).Obeys Writes own :=
  .call trivial fun c => .call (.inr (inHand_getSocket own p c)) fun sent => hf c sent _

theorem notifyEach_inHand (frame : Frame) (friends : List (Str × Bool)) :
    (notifyEach frame friends).Obeys Writes own := by
  induction friends generalizing own with
  | nil => exact Prog.obeys_pure _
  | cons friend friends ih =>
    obtain ⟨friendUsername, isOnline⟩ := friend
    unfold notifyEach
    cases isOnline with
    | false => exact ih
    | true =>
      refine .call trivial fun session => ?_
      cases session with
      | none => exact ih
      | some session => exact getSocket_inHand session fun _ _ _ => ih

theorem notify_inHand (u : Str) (status : UserStatus) :
    (notifyFriendsStatusChange u status).Obeys Writes own := by
  refine obeys_caught trivial (fun r => ?_) fun _ => Prog.obeys_pure _
  cases r with
  | none => exact Prog.obeys_pure _
  | some i =>
    refine obeys_caught trivial (fun friends => ?_) fun _ => Prog.obeys_pure _
    exact notifyEach_inHand _ friends

/-! ### A login -/

/-- The session that is kicked is told first, and shut down last. -/
theorem kickOld_inHand (u : Str) : (kickOld u).Obeys Writes own := by
  refine .call trivial fun session => ?_
  cases session with
  | none => exact Prog.obeys_pure _
  | some session =>
    refine getSocket_inHand session fun c _ own' => .call trivial fun _ => Prog.obeys_op ?_
    exact midway_concat own' rfl

theorem leave_inHand (u : Str) (i : UserId) : (leave u i).Obeys Writes own := by
  refine .seq (caught_inHand _ _ _) fun isOnline own₁ _ => ?_
  dsimp only
  split
  · exact .seq (caught_inHand _ _ _) fun _ _ _ => kickOld_inHand u
  · exact Prog.obeys_pure _

theorem enter_inHand (c : Socket) (u : Str) (i : UserId) : (enter c u i).Obeys Writes own := by
  refine .seq (caught_inHand _ _ _) fun _ own₁ _ => ?_
  refine .seq (caught_inHand _ _ _) fun _ own₂ _ => ?_
  refine .call trivial fun session => ?_
  cases session with
  | none => exact Prog.obeys_pure _
  | some session => exact .call trivial fun _ => .call trivial fun _ => Prog.obeys_op trivial

theorem handleLogin_inHand : (handleLogin P request).Obeys Writes own := by
  unfold handleLogin
  split
  · exact Prog.obeys_pure _
  refine obeys_caught trivial (fun r => ?_) fun _ => Prog.obeys_pure _
  cases r with
  | none => exact Prog.obeys_pure _
  | some r =>
    dsimp only
    split
    · exact Prog.obeys_pure _
    refine .seq (leave_inHand _ _) fun _ own₁ _ => .seq (enter_inHand _ _ _) fun _ own₂ _ => ?_
    exact .seq (notify_inHand _ _) fun _ _ _ => Prog.obeys_pure _

theorem cacheFriendList_inHand (u : Str) : (cacheFriendList u).Obeys Writes own := by
  refine obeys_caught trivial (fun r => ?_) fun _ => Prog.obeys_pure _
  cases r with
  | none => exact Prog.obeys_pure _
  | some i => exact obeys_caught trivial (fun _ => Prog.obeys_op trivial) fun _ => Prog.obeys_pure _

/-! ### Messages -/

/-- The thread pushes to `c`, and no query for waiting messages is open. -/
def Pushes (c : Socket) (own : List (Call Op Op.Res)) : Prop :=
  (hands own).pushing = some c ∧ (hands own).unread = false

theorem Pushes.append {c : Socket} {o : Op} (h : Pushes c own) (hunread : ∀ i, o ≠ .sql (.selectUnread i))
    (hsilent : o.Silent) (r : o.Res) : Pushes c (own ++ [⟨o, r⟩]) := by
  obtain ⟨hpushing, hclosed⟩ := h
  unfold Pushes
  rw [hands_concat]
  cases o with
  | getSocket p => exact ⟨(if_neg (by rw [hclosed]; decide)).trans hpushing, rfl⟩
  | sendData d frame =>
    have hno : ¬ frame.isResponse = true := Bool.eq_false_iff.mp hsilent
    exact ⟨(if_neg hno).trans hpushing, (if_neg hno).trans hclosed⟩
  | sql st =>
    cases st with
    | selectUnread i => exact absurd rfl (hunread i)
    | _ => exact ⟨hpushing, hclosed⟩
  | _ => exact ⟨hpushing, hclosed⟩

theorem forwardMessage_inHand (i : UserId) (u : Str) (j : UserId) (v content sendTime : Str) :
    (forwardMessage i u j v content sendTime).Obeys Writes own := by
  refine .call trivial fun session => ?_
  cases session with
  | none => exact Prog.obeys_pure _
  | some session =>
    refine getSocket_inHand session fun c sent own' => ?_
    cases sent with
    | false => exact Prog.obeys_pure _
    | true => exact .seq (caught_inHand _ _ _) fun _ _ _ => Prog.obeys_pure _

/-- While it forwards a message that has waited, the thread goes on pushing to where it pushed. -/
theorem forwardMessage_pushes {c : Socket} (h : Pushes c own) (i : UserId) (u : Str) (j : UserId)
    (v content sendTime : Str) :
    (forwardMessage i u j v content sendTime).Expecting (fun _ => True) Writes
      (fun _ own' => Pushes c own') own := by
  refine .call trivial fun session _ => ?_
  have h₁ := h.append (o := .getSessionByUsername v) nofun trivial session
  cases session with
  | none => exact h₁
  | some session =>
    refine .call trivial fun (d : Socket) _ => ?_
    have h₂ := h₁.append (o := .getSocket session) nofun trivial d
    refine .call (.inr (inHand_getSocket _ session d)) fun (sent : Bool) _ => ?_
    have h₃ := h₂.append (o := .sendData d (forwardMsg u content sendTime)) nofun rfl sent
    cases sent with
    | false => exact h₃
    | true =>
      refine .call trivial fun r _ => ?_
      have h₄ := h₃.append (o := .sql (.markRead i j)) nofun trivial r
      cases r <;> exact h₄

theorem pushEach_pushes {c : Socket} (h : Pushes c own) (messages : List Message) :
    (pushEach c messages).Expecting (fun _ => True) Writes (fun _ own' => Pushes c own') own := by
  induction messages generalizing own with
  | nil => exact h
  | cons msg messages ih =>
    refine .seq (forwardMessage_pushes h _ _ _ _ _ _) fun _ own₁ h₁ => ?_
    refine .call (.inr (.inr h₁.1)) fun (sent : Bool) _ => ih ?_
    exact h₁.append (o := .sendData c (msgNotify msg.senderUsername msg.content)) nofun rfl sent

/-- The descriptor that messages are pushed to is read off a session right after they were asked for. -/
theorem pushOfflineMessages_inHand (u : Str) : (pushOfflineMessages u).Obeys Writes own := by
  refine obeys_caught trivial (fun r => ?_) fun _ => Prog.obeys_pure _
  cases r with
  | none => exact Prog.obeys_pure _
  | some j =>
    refine obeys_caught trivial (fun messages => ?_) fun _ => Prog.obeys_pure _
    dsimp only
    split
    · exact Prog.obeys_pure _
    refine .call trivial fun session => ?_
    cases session with
    | none => exact Prog.obeys_pure _
    | some session =>
      refine .call trivial fun (c : Socket) => (pushEach_pushes (c := c) ?_ messages).obeys
      unfold Pushes
      rw [hands_concat, hands_concat, hands_concat]
      exact ⟨rfl, rfl⟩

theorem handleSendMessage_inHand : (handleSendMessage request).Obeys Writes own := by
  unfold handleSendMessage
  split
  · exact Prog.obeys_pure _
  split
  · exact Prog.obeys_pure _
  refine obeys_caught trivial (fun r => ?_) fun _ => Prog.obeys_pure _
  cases r with
  | none => exact Prog.obeys_pure _
  | some i =>
    refine obeys_caught trivial (fun r => ?_) fun _ => Prog.obeys_pure _
    cases r with
    | none => exact Prog.obeys_pure _
    | some j =>
      refine .seq (caught_inHand _ _ _) fun stored own₁ _ => ?_
      split
      · exact Prog.obeys_pure _
      refine .seq ?_ fun _ _ _ => Prog.obeys_pure _
      refine .seq (caught_inHand _ _ _) fun isOnline own₂ _ => ?_
      dsimp only
      split
      · refine .call trivial fun session => ?_
        cases session with
        | none => exact Prog.obeys_pure _
        | some session =>
          -- the descriptor is read anew for the notice, after the message has gone out
          refine .seq (forwardMessage_inHand _ _ _ _ _ _) fun _ own₃ _ => ?_
          exact getSocket_inHand session fun _ _ _ => Prog.obeys_pure _
      · exact Prog.obeys_pure _

/-! ### Requests and connections -/

theorem serve_inHand : (serve P request).Obeys Writes own := by
  have obeys_ite : ∀ {c : Prop} [Decidable c] {p q : Action Response}, p.Obeys Writes own →
      q.Obeys Writes own → (if c then p else q).Obeys Writes own := by
    intro c _ p q hp hq
    split
    · exact hp
    · exact hq
  unfold serve
  refine obeys_ite (asks_inHand (handleRegister_asks request)) (obeys_ite ?_ ?_)
  · refine .seq handleLogin_inHand fun response own₁ _ => ?_
    split
    · refine .seq (cacheFriendList_inHand _) fun _ own₂ _ => ?_
      exact .seq (pushOfflineMessages_inHand _) fun _ own₃ _ => Prog.obeys_pure _
    · exact Prog.obeys_pure _
  refine obeys_ite (asks_inHand (handleUpdateUser_asks request)) ?_
  refine obeys_ite (asks_inHand (handleQueryStatus_asks request)) ?_
  refine obeys_ite (asks_inHand (handleAddFriend_asks request)) ?_
  refine obeys_ite (asks_inHand (handleDeleteFriend_asks request)) ?_
  refine obeys_ite (asks_inHand (handleFriendList_asks request)) ?_
  refine obeys_ite (asks_inHand (queryTarget_asks request _)) ?_
  refine obeys_ite (asks_inHand (queryTarget_asks request _)) ?_
  refine obeys_ite handleSendMessage_inHand ?_
  refine obeys_ite (asks_inHand (handleHistoryMessages_asks request)) ?_
  exact obeys_ite (Prog.obeys_pure _) (Prog.obeys_pure _)

theorem Op.Dispatches.writes {c : Socket} {o : Op} (ho : o.Dispatches c) : Writes own o := by
  cases ho with
  | parseError => exact .inl rfl
  | response type response => exact .inl (Frame.isResponse_of_type rfl)
  | _ => trivial

/-- The last that is done for the user of a session is no answer. -/
theorem farewell_midway (p : SessionPtr) : (farewell p).Expecting (fun _ => True) Writes
    (fun _ own' => midway own' = true) own := by
  refine .call trivial fun (u : Str) _ => ?_
  refine .seq (caught_inHand _ _ _) fun _ own₁ _ => ?_
  refine .call trivial fun (v : Str) _ => .seq (notify_inHand _ _) fun _ own₂ _ => ?_
  refine .call trivial fun (v : Str) _ => ⟨trivial, fun _ _ => ?_⟩
  exact midway_concat _ rfl

theorem endConnection_inHand (c : Socket) : (endConnection c).Obeys Writes own := by
  refine .call trivial fun session => ?_
  cases session with
  | none => exact Prog.obeys_op trivial
  | some session =>
    have hrest : ∀ own', (do
        removeSession c
        addConnections (-1)
        close c : Action Unit).Obeys Writes own' :=
      fun _ => .call trivial fun _ => .call trivial fun _ => Prog.obeys_op trivial
    refine .call trivial fun (u : Str) => ?_
    show (if u ≠ [] then _ else _ : Action Unit).Obeys Writes _
    split
    · exact .seq (farewell_midway session).obeys fun _ own' _ => hrest own'
    · exact hrest _

theorem failConnection_inHand (c : Socket) : (failConnection c).Obeys Writes own := by
  refine .call trivial fun _ => .call trivial fun session => ?_
  cases session with
  | none => exact Prog.obeys_pure _
  | some session =>
    have hrest : ∀ own', (do
        removeSession c
        addConnections (-1) : Action Unit).Obeys Writes own' :=
      fun _ => .call trivial fun _ => Prog.obeys_op trivial
    refine .call trivial fun (u : Str) => ?_
    show (if u ≠ [] then _ else _ : Action Unit).Obeys Writes _
    split
    · exact .call trivial fun (v : Str) => .seq (caught_inHand _ _ _) fun _ own' _ => hrest own'
    · exact hrest _

/-- A connection writes its answers, and to descriptors that it has in hand. -/
theorem handleClient_inHand (c : Socket) (received : List (Option Json)) :
    (handleClient P c received).Obeys Writes own := by
  induction received generalizing own with
  | nil => exact endConnection_inHand c
  | cons parsed received ih =>
    refine .seq (obeys_dispatchRequest (fun _ _ ho => ho.writes) fun _ _ _ _ _ => serve_inHand)
      fun served own' _ => ?_
    cases served with
    | ok served => exact ih
    | error e => exact failConnection_inHand c

/-! ### The other threads -/

theorem expire_inHand (c : Socket) (p : SessionPtr) : (expire c p).Obeys Writes own := by
  refine (Prog.Expecting.seq (farewell_midway p) fun _ own' h => ?_ :
    Prog.Expecting _ _ _ (fun _ _ => True) _).obeys
  exact .call h fun _ _ => .call trivial fun _ _ => ⟨trivial, fun _ _ => trivial⟩

theorem heartbeatCheckEach_inHand (currentTime : Nat) (sessions : List (Socket × SessionPtr)) :
    (heartbeatCheckEach currentTime sessions).Obeys Writes own := by
  induction sessions generalizing own with
  | nil => exact Prog.obeys_pure _
  | cons entry sessions ih =>
    obtain ⟨c, p⟩ := entry
    refine .call trivial fun (connected : Bool) => ?_
    cases connected with
    | false => exact ih
    | true =>
      refine .call trivial fun (u : Str) => ?_
      by_cases hu : u ≠ []
      · rw [if_pos hu]
        refine .call trivial fun (lastHeartbeat : Nat) => ?_
        dsimp only
        split
        · exact .seq (expire_inHand c p) fun _ own' _ => ih
        · exact ih
      · rw [if_neg hu]
        exact ih

theorem heartbeatCheckThread_inHand (rounds : Nat) :
    (heartbeatCheckThread rounds).Obeys Writes own := by
  induction rounds generalizing own with
  | zero => exact Prog.obeys_pure _
  | succ rounds ih =>
    refine .seq (.call trivial fun sessions => .call trivial fun (currentTime : Nat) => ?_)
      fun _ own' _ => ih
    exact heartbeatCheckEach_inHand currentTime sessions

/-- The accept loop writes to the connection it turns away, and ends no other. -/
def TurnsAway (own : List (Call Op Op.Res)) : Op → Prop
  | .sendData c _ => InHand own c
  | o => o.Accepts

theorem acceptConnections_inHand (clientSockets : List Socket) :
    (acceptConnections clientSockets).Obeys TurnsAway own := by
  induction clientSockets generalizing own with
  | nil => exact Prog.obeys_pure _
  | cons c clientSockets ih =>
    refine .seq (.call (.accept c) fun _ => .call .loadConnections fun (n : Int) => ?_) fun _ own' _ => ih
    by_cases hfull : maxConnections ≤ n
    · have hhand : InHand (own ++ [⟨.accept c, ()⟩] ++ [⟨.loadConnections, n⟩]) c := by
        unfold InHand
        rw [hands_concat, hands_concat]
        exact .inl (if_pos (decide_eq_true hfull))
      rw [if_pos hfull]
      exact .call hhand fun _ => Prog.obeys_op (.close c)
    · rw [if_neg hfull]
      exact .call (.addSession c) fun _ => Prog.obeys_op .addConnections

end Programs

/-! ## Who removes which session -/

/-- A connection removes one session at most, and that from under its own descriptor. -/
def RemovesOwn (c : Socket) (own : List (Call Op Op.Res)) : Op → Prop
  | .removeSession d => d = c ∧ .removeSession c ∉ Prog.opsOf own
  | _ => True

section Removals

variable {own : List (Call Op Op.Res)} {c : Socket}

theorem Op.Requests.removes {o : Op} (ho : o.Requests) : RemovesOwn c own o := by
  cases o with
  | removeSession => exact absurd ho id
  | _ => trivial

theorem not_removed_concat {o : Op} (h : .removeSession c ∉ Prog.opsOf own) (ho : o ≠ .removeSession c)
    (r : o.Res) : .removeSession c ∉ Prog.opsOf (own ++ [⟨o, r⟩]) := by
  rw [Prog.opsOf_append]
  intro hmem
  rcases List.mem_append.mp hmem with hmem | hmem
  · exact h hmem
  · exact ho (List.mem_singleton.mp hmem).symm

/-- A request ends no connection. -/
theorem requests_removes {p : Action α} (hp : p.Uses Op.Requests)
    (h : .removeSession c ∉ Prog.opsOf own) : p.Expecting (fun _ => True) (RemovesOwn c)
      (fun _ own' => .removeSession c ∉ Prog.opsOf own') own := by
  refine hp.expecting (fun own' => .removeSession c ∉ Prog.opsOf own') h fun own' o hown ho => ?_
  refine ⟨ho.removes, fun r _ => not_removed_concat hown ?_ r⟩
  rintro rfl
  exact ho

theorem farewell_requests (p : SessionPtr) : (farewell p).Uses Op.Requests :=
  .bind (uses_op trivial) fun _ => .bind (uses_caught trivial _ _) fun _ => .bind (uses_op trivial)
    fun _ => .bind ((notify_reads _ _).mono fun _ ho => ho.requests) fun _ =>
      .bind (uses_op trivial) fun _ => uses_op trivial

theorem endConnection_removes (h : .removeSession c ∉ Prog.opsOf own) :
    (endConnection c).Obeys (RemovesOwn c) own := by
  refine .call trivial fun session => ?_
  have h₁ := not_removed_concat (o := .getSession c) h nofun session
  cases session with
  | none => exact Prog.obeys_op trivial
  | some session =>
    have hrest : ∀ own', .removeSession c ∉ Prog.opsOf own' → (do
        removeSession c
        addConnections (-1)
        close c : Action Unit).Expecting (fun _ => True) (RemovesOwn c) (fun _ _ => True) own' :=
      fun _ h' => .call ⟨rfl, h'⟩ fun _ _ => .call trivial fun _ _ => ⟨trivial, fun _ _ => trivial⟩
    refine .call trivial fun (u : Str) => ?_
    have h₂ := not_removed_concat (o := .getUsername session) h₁ nofun u
    show (if u ≠ [] then _ else _ : Action Unit).Obeys (RemovesOwn c) _
    split
    · exact (Prog.Expecting.seq (requests_removes (farewell_requests session) h₂)
        fun _ own' h' => hrest own' h').obeys
    · exact (hrest _ h₂).obeys

theorem failConnection_removes (h : .removeSession c ∉ Prog.opsOf own) :
    (failConnection c).Obeys (RemovesOwn c) own := by
  refine .call trivial fun _ => .call trivial fun session => ?_
  have h₁ := not_removed_concat (o := .getSession c) (not_removed_concat (o := .close c) h nofun ())
    nofun session
  cases session with
  | none => exact Prog.obeys_pure _
  | some session =>
    have hrest : ∀ own', .removeSession c ∉ Prog.opsOf own' → (do
        removeSession c
        addConnections (-1) : Action Unit).Expecting (fun _ => True) (RemovesOwn c) (fun _ _ => True) own' :=
      fun _ h' => .call ⟨rfl, h'⟩ fun _ _ => ⟨trivial, fun _ _ => trivial⟩
    refine .call trivial fun (u : Str) => ?_
    have h₂ := not_removed_concat (o := .getUsername session) h₁ nofun u
    show (if u ≠ [] then _ else _ : Action Unit).Obeys (RemovesOwn c) _
    split
    · refine .call trivial fun (v : Str) => (Prog.Expecting.seq (requests_removes ?_
        (not_removed_concat (o := .getUsername session) h₂ nofun v)) fun _ own' h' => hrest own' h').obeys
      exact uses_caught trivial _ _
    · exact (hrest _ h₂).obeys

theorem handleClient_removes (h : .removeSession c ∉ Prog.opsOf own) (received : List (Option Json)) :
    (handleClient P c received).Obeys (RemovesOwn c) own := by
  induction received generalizing own with
  | nil => exact endConnection_removes h
  | cons parsed received ih =>
    refine (Prog.Expecting.seq (requests_removes (dispatchRequest_requests c parsed) h)
      fun served own' h' => ?_ : Prog.Expecting _ _ _ (fun _ _ => True) _).obeys
    cases served with
    | ok served => exact (ih h').mono fun _ _ _ => trivial
    | error e => exact (failConnection_removes h').mono fun _ _ _ => trivial

end Removals

/-! ## Whom the heartbeat check drops -/

/-- What the heartbeat check remembers: the sessions it was given, the time it has read, and the session
it has found idle for too long and not yet removed. -/
structure Scan where
  sessions : List (Socket × SessionPtr)
  now : Nat
  dropping : Option SessionPtr

/-- The test that `HeartbeatCheckThread` makes. -/
def isOverdue (now lastHeartbeat : Nat) : Bool := 600 < now - lastHeartbeat

def Scan.after (s : Scan) : Call Op Op.Res → Scan
  | ⟨.getAllSessions, sessions⟩ => { s with sessions := sessions, dropping := none }
  | ⟨.time, now⟩ => { s with now := now }
  | ⟨.getLastHeartbeat p, lastHeartbeat⟩ =>
      { s with dropping := if isOverdue s.now lastHeartbeat then some p else none }
  | ⟨.removeSession _, _⟩ => { s with dropping := none }
  | _ => s

def scan (own : List (Call Op Op.Res)) : Scan := own.foldl Scan.after ⟨[], 0, none⟩

/-- It removes the session it has found idle, and no other. -/
def Drops (own : List (Call Op Op.Res)) : Op → Prop
  | .removeSession c => ∃ p, (scan own).dropping = some p ∧ (c, p) ∈ (scan own).sessions
  | _ => True

/-- The calls that make no difference to it. -/
def Op.Unscanned : Op → Prop
  | .getAllSessions | .time | .getLastHeartbeat _ | .removeSession _ => False
  | _ => True

section Scans

variable {own : List (Call Op Op.Res)} {o : Op}

theorem scan_concat (own : List (Call Op Op.Res)) (call : Call Op Op.Res) :
    scan (own ++ [call]) = (scan own).after call := by
  unfold scan
  rw [List.foldl_append]
  rfl

theorem scan_unscanned (ho : o.Unscanned) (r : o.Res) : scan (own ++ [⟨o, r⟩]) = scan own := by
  rw [scan_concat]
  cases o with
  | getAllSessions | time | getLastHeartbeat | removeSession => exact absurd ho id
  | _ => rfl

theorem Op.Unscanned.drops (ho : o.Unscanned) : Drops own o := by
  cases o with
  | getAllSessions | time | getLastHeartbeat | removeSession => exact absurd ho id
  | _ => trivial

theorem unscanned_drops {p : Action α} (hp : p.Uses Op.Unscanned) :
    p.Expecting (fun _ => True) Drops (fun _ own' => scan own' = scan own) own := by
  refine hp.expecting (fun own' => scan own' = scan own) rfl fun own' o hown ho => ?_
  exact ⟨ho.drops, fun r _ => (scan_unscanned ho r).trans hown⟩

theorem farewell_unscanned (p : SessionPtr) : (farewell p).Uses Op.Unscanned :=
  .bind (uses_op trivial) fun _ => .bind (uses_caught trivial _ _) fun _ => .bind (uses_op trivial)
    fun _ => .bind (notify_uses (fun _ _ => trivial) (fun _ => trivial) (fun _ => trivial)
      fun _ => trivial) fun _ => .bind (uses_op trivial) fun _ => uses_op trivial

/-- The session that is dropped is the one that was found idle; and the round goes on as before. -/
theorem expire_drops {c : Socket} {p : SessionPtr} (hlisted : (c, p) ∈ (scan own).sessions)
    (hdropping : (scan own).dropping = some p) :
    (expire c p).Expecting (fun _ => True) Drops (fun _ own' =>
      (scan own').sessions = (scan own).sessions ∧ (scan own').now = (scan own).now) own := by
  refine .seq (unscanned_drops (farewell_unscanned p)) fun _ own₁ h₁ => ?_
  refine .call trivial fun r₁ _ => ?_
  have h₂ : scan (own₁ ++ [⟨.shutdown c, r₁⟩]) = scan own :=
    (scan_unscanned (o := .shutdown c) trivial r₁).trans h₁
  refine .call ⟨p, ?_, ?_⟩ fun r₂ _ => ⟨trivial, fun r₃ _ => ?_⟩
  · rw [h₂]
    exact hdropping
  · rw [h₂]
    exact hlisted
  · have h₃ : scan (own₁ ++ [⟨.shutdown c, r₁⟩] ++ [⟨.removeSession c, r₂⟩]) =
        (scan own).after ⟨.removeSession c, r₂⟩ := by
      rw [scan_concat, h₂]
    have hend := (scan_unscanned (o := .addConnections (-1)) trivial r₃).trans h₃
    exact ⟨(congrArg Scan.sessions hend :), (congrArg Scan.now hend :)⟩

/-- What is left of a round, at any point: the sessions are among those that were given, and the time is
the one that was read. -/
theorem heartbeatCheckEach_drops {currentTime : Nat} {sessions : List (Socket × SessionPtr)}
    (hsessions : ∀ entry ∈ sessions, entry ∈ (scan own).sessions) (hnow : (scan own).now = currentTime) :
    (heartbeatCheckEach currentTime sessions).Obeys Drops own := by
  suffices hround : (heartbeatCheckEach currentTime sessions).Expecting (fun _ => True) Drops
      (fun _ _ => True) own from hround.obeys
  induction sessions generalizing own with
  | nil => trivial
  | cons entry sessions ih =>
    obtain ⟨c, p⟩ := entry
    have hp : (c, p) ∈ (scan own).sessions := hsessions (c, p) List.mem_cons_self
    have hrest : ∀ own', (scan own').sessions = (scan own).sessions → (scan own').now = (scan own).now →
        (heartbeatCheckEach currentTime sessions).Expecting (fun _ => True) Drops
          (fun _ _ => True) own' := by
      intro own' hsame hnow'
      refine ih (fun entry hentry => ?_) (hnow'.trans hnow)
      rw [hsame]
      exact hsessions entry (List.mem_cons_of_mem _ hentry)
    refine .call trivial fun (connected : Bool) _ => ?_
    have h₁ : scan (own ++ [⟨.getIsConnected p, connected⟩]) = scan own :=
      scan_unscanned (o := .getIsConnected p) trivial connected
    cases connected with
    | false => exact hrest _ (congrArg Scan.sessions h₁) (congrArg Scan.now h₁)
    | true =>
      refine .call trivial fun (u : Str) _ => ?_
      have h₂ := (scan_unscanned (o := .getUsername p) trivial u).trans h₁
      by_cases hu : u ≠ []
      · rw [if_pos hu]
        refine .call trivial fun (lastHeartbeat : Nat) _ => ?_
        -- the test of the loop is the one that decides what is dropped
        have h₃ := (scan_concat _ (⟨.getLastHeartbeat p, lastHeartbeat⟩ : Call Op Op.Res)).trans
          (congrArg (Scan.after · ⟨.getLastHeartbeat p, lastHeartbeat⟩) h₂)
        by_cases hover : 600 < currentTime - lastHeartbeat
        · rw [if_pos hover]
          refine .seq (expire_drops (h₃ ▸ hp) ?_) fun _ own' h => ?_
          · rw [h₃]
            exact if_pos (decide_eq_true (hnow ▸ hover))
          · rw [h₃] at h
            exact hrest own' h.1 h.2
        · rw [if_neg hover]
          refine hrest _ ?_ ?_ <;> rw [h₃] <;> rfl
      · rw [if_neg hu]
        exact hrest _ (congrArg Scan.sessions h₂) (congrArg Scan.now h₂)

theorem heartbeatCheckThread_drops (rounds : Nat) : (heartbeatCheckThread rounds).Obeys Drops own := by
  induction rounds generalizing own with
  | zero => exact Prog.obeys_pure _
  | succ rounds ih =>
    refine .seq (.call trivial fun (sessions : List (Socket × SessionPtr)) => .call trivial
      fun (currentTime : Nat) => heartbeatCheckEach_drops (fun entry hentry => ?_) ?_) fun _ own' _ => ih
    · rw [scan_concat, scan_concat]
      exact hentry
    · rw [scan_concat]
      rfl

end Scans

/-! ## All threads -/

/-- What each of the server's threads keeps to. -/
def Server.Work.Keeps (work : Work κ) : Worker κ → List (Call Op Op.Res) → Op → Prop
  | .accepting, own, o => TurnsAway own o
  | .handling k, own, o =>
      (LiteChat.Answering (work.clientSocket k) (work.received k) own o ∧ Writes own o) ∧
        RemovesOwn (work.clientSocket k) own o
  | .checking, own, o => (o.Silent ∧ Writes own o) ∧ Drops own o

/-- **Every thread keeps to it**, whatever it is answered: a connection that is served, the heartbeat
check, and the accept loop. Nothing is assumed here of when connections break. -/
theorem workers_keep (work : Work κ) (k : Worker κ) : (workers P work k).Obeys (work.Keeps k) [] := by
  cases k with
  | accepting => exact acceptConnections_inHand work.accepted
  | handling k =>
    have hanswers : (handleClient P (work.clientSocket k) (work.received k)).Expecting (fun _ => True)
        (LiteChat.Answering (work.clientSocket k) (work.received k)) _ [] :=
      handleClient_expecting [] (work.received k) rfl rfl
    have hwrites : (handleClient P (work.clientSocket k) (work.received k)).Obeys Writes [] :=
      handleClient_inHand (work.clientSocket k) (work.received k)
    have hremoves : (handleClient P (work.clientSocket k) (work.received k)).Obeys
        (RemovesOwn (work.clientSocket k)) [] :=
      handleClient_removes List.not_mem_nil (work.received k)
    exact ((hanswers.and hwrites).and hremoves).obeys
  | checking =>
    have hsilent : (heartbeatCheckThread work.rounds).Expecting (fun _ => True) (fun _ o => o.Silent)
        (fun _ _ => True) [] :=
      (heartbeatCheckThread_ordinary work.rounds).expecting (fun _ => True) trivial
        fun _ _ _ ho => ⟨ho.silent, fun _ _ => trivial⟩
    exact ((hsilent.and (heartbeatCheckThread_inHand work.rounds)).and
      (heartbeatCheckThread_drops work.rounds)).obeys

end LiteChat
