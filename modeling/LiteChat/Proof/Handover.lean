import LiteChat.Proof.Threads
import Mathlib.Data.Finset.Insert
import Mathlib.Data.List.ModifyLast

/-!
# Messages to a user who is about to log in

A message is stored unread. What becomes of it then is decided twice: the sender asks whether the
receiver is online, and if so forwards it and marks the pair; and the login queries the unread rows
and forwards these. This module says what either thread does with each message, as a function of the
calls it has made and been answered, and which calls it makes.
-/

namespace LiteChat

open LiteChat.Action Effect Server UserManager MessageManager

variable {P : Platform}

/-- The two threads: the connection of the sender, and the one on which the receiver logs in. -/
inductive Exchange
  | sending
  | entering
  deriving DecidableEq

instance : Fintype Exchange := ⟨{.sending, .entering}, fun k => by cases k <;> decide⟩

def sendAll : List Request → Action Unit
  | [] => pure ()
  | request :: requests => do
    let _ ← handleSendMessage request
    sendAll requests

def exchange (P : Platform) (requests : List Request) (login : Request) : Exchange → Action Unit
  | .sending => sendAll requests
  | .entering => do
    let _ ← serveLogin P login

/-! ## What becomes of a message -/

/-- The `FORWARD_MSG` frames that were written, and where to. -/
def forwardsOf (own : List (Call Op Op.Res)) : List (Socket × Frame) :=
  own.filterMap fun call => match call with
    | ⟨.sendData c frame, _⟩ => if frame.forwarded?.isSome then some (c, frame) else none
    | _ => none

/-- What the sender has done with a message: the frames it has written, whether it has found the
receiver away and left the message for later, and whether it has marked it. -/
structure Handled where
  frames : List (Socket × Frame)
  isLeft : Bool
  isMarked : Bool

/-- The answer is that the receiver is away. -/
def saysAway : Call Op Op.Res → Bool
  | ⟨.sql (.selectOnline _), online⟩ => match online with
    | .ok (some isOnline) => !isOnline
    | _ => true
  | ⟨.getSessionByUsername _, session⟩ => (session : Option SessionPtr).isNone
  | _ => false

/-- The call marks messages. -/
def marksRead : Op → Bool
  | .sql (.markRead _ _) => true
  | _ => false

def Handled.after (m : Handled) (call : Call Op Op.Res) : Handled where
  frames := m.frames ++ forwardsOf [call]
  isLeft := m.isLeft || saysAway call
  isMarked := m.isMarked || marksRead call.1

/-- The call stores a message. -/
def stores : Op → Bool
  | .sql (.insertMessage _ _ _) => true
  | _ => false

/-- The messages that the sender has stored; a call is about the last of them. -/
def track (ms : List Handled) (call : Call Op Op.Res) : List Handled :=
  if stores call.1 then ms ++ [⟨[], false, false⟩] else ms.modifyLast (·.after call)

def handled (own : List (Call Op Op.Res)) : List Handled := own.foldl track []

/-- What the login was answered when it queried the unread messages. -/
def queryAnswer (own : List (Call Op Op.Res)) : Option (List Message) :=
  own.findSome? fun call => match call with
    | ⟨.sql (.selectUnread _), .ok messages⟩ => some messages
    | _ => none

/-- The frames that the login has written for the row of that id: it forwards its answer in order. -/
def pushedFor (messageId : Nat) (own : List (Call Op Op.Res)) : List (Socket × Frame) :=
  (((queryAnswer own).getD []).zip (forwardsOf own)).filterMap fun e =>
    if e.1.messageId = messageId then some e.2 else none

section Track

variable {own : List (Call Op Op.Res)} {call : Call Op Op.Res} {past : List Handled} {m : Handled}

theorem forwardsOf_append (own own' : List (Call Op Op.Res)) :
    forwardsOf (own ++ own') = forwardsOf own ++ forwardsOf own' := List.filterMap_append

theorem queryAnswer_append (own own' : List (Call Op Op.Res)) :
    queryAnswer (own ++ own') = (queryAnswer own).or (queryAnswer own') := List.findSome?_append

theorem handled_concat (own : List (Call Op Op.Res)) (call : Call Op Op.Res) :
    handled (own ++ [call]) = track (handled own) call := by
  unfold handled
  rw [List.foldl_append]
  rfl

theorem handled_stored (h : stores call.1 = true) :
    handled (own ++ [call]) = handled own ++ [⟨[], false, false⟩] := by
  rw [handled_concat, track, if_pos h]

/-- A call that stores nothing belongs to the message that was stored last. -/
theorem handled_after (hown : handled own = past ++ [m]) (h : stores call.1 = false) :
    handled (own ++ [call]) = past ++ [m.after call] := by
  rw [handled_concat, track, if_neg (by rw [h]; decide), hown, List.modifyLast_concat]

/-- A call that is about no message. -/
def Idle (call : Call Op Op.Res) : Prop :=
  stores call.1 = false ∧ forwardsOf [call] = [] ∧ saysAway call = false ∧ marksRead call.1 = false

theorem Idle.after (h : Idle call) (m : Handled) : m.after call = m := by
  obtain ⟨_, hframes, haway, hmarks⟩ := h
  unfold Handled.after
  rw [hframes, haway, hmarks, List.append_nil, Bool.or_false, Bool.or_false]

/-- A call adds what it forwards to the frames of the messages handled so far. Nothing is forwarded
before a message is stored, so there is a message that it belongs to. -/
theorem frames_handled (hstores : stores call.1 = true → forwardsOf [call] = [])
    (h : forwardsOf [call] ≠ [] → handled own ≠ []) :
    (handled (own ++ [call])).flatMap (·.frames) =
      (handled own).flatMap (·.frames) ++ forwardsOf [call] := by
  cases hcall : stores call.1 with
  | true =>
    rw [handled_stored hcall, List.flatMap_append, hstores hcall]
    rfl
  | false =>
    rcases List.eq_nil_or_concat (handled own) with hnil | ⟨past, m, hown⟩
    · have hnone : forwardsOf [call] = [] := by
        by_contra hsome
        exact h hsome hnil
      rw [handled_concat, track, if_neg (by rw [hcall]; decide), hnil, hnone]
      rfl
    · rw [List.concat_eq_append] at hown
      rw [handled_after hown hcall, hown, List.flatMap_append, List.flatMap_append, List.append_assoc]
      rw [List.flatMap_singleton, List.flatMap_singleton]
      rfl

theorem Idle.handled (h : Idle call) : LiteChat.handled (own ++ [call]) = LiteChat.handled own := by
  rcases List.eq_nil_or_concat (LiteChat.handled own) with hnil | ⟨past, m, hown⟩
  · rw [handled_concat, track, if_neg (by rw [h.1]; decide), hnil]
    rfl
  · rw [List.concat_eq_append] at hown
    rw [handled_after hown h.1, h.after, hown]

end Track

/-! ## Who is answered what -/

/-- Who writes what to whom, and on which connection and with which session the receiver logs in. -/
structure Correspondence where
  sender : Str
  senderId : UserId
  receiver : Str
  receiverId : UserId
  passwordHash : Str
  clientSocket : Socket
  session : SessionPtr
  contents : List Str

namespace Correspondence

variable (C : Correspondence)

/-- The answers that the two threads get. -/
def Right : Exchange → Call Op Op.Res → Prop
  | _, ⟨.sendData _ _, ok⟩ => ok = true
  | .sending, ⟨.sql (.selectUserId v), r⟩ =>
      (v = C.sender → r = .ok (some C.senderId)) ∧ (v = C.receiver → r = .ok (some C.receiverId))
  | .sending, ⟨.sql (.insertMessage _ _ _), r⟩ => r = .ok ()
  | .sending, ⟨.getSessionByUsername _, r⟩ => r = none ∨ r = some C.session
  | .sending, ⟨.getSocket _, c⟩ => c = C.clientSocket
  | .entering, ⟨.sql (.selectUser _), r⟩ => r = .ok (some (C.receiverId, C.passwordHash))
  | .entering, ⟨.sql (.selectOnline _), r⟩ => r = .ok (some false)
  | .entering, ⟨.sql (.selectUserId _), r⟩ => r = .ok (some C.receiverId)
  | .entering, ⟨.sql (.selectUnread _), r⟩ =>
      ∃ messages : List Message, r = .ok messages ∧ ∀ msg ∈ messages, msg.receiverUsername = C.receiver
  | .entering, ⟨.getSession _, r⟩ => r = some C.session
  | .entering, ⟨.getSessionByUsername v, r⟩ => v = C.receiver → r = some C.session
  | .entering, ⟨.getSocket p, c⟩ => p = C.session → c = C.clientSocket
  | _, _ => True

/-! ## What the sender calls -/

/-- Nothing has been done with the last message yet. -/
def InHand (own : List (Call Op Op.Res)) : Prop := ∃ past, handled own = past ++ [⟨[], false, false⟩]

/-- The last message has been forwarded and not been marked. -/
def Unmarked (own : List (Call Op Op.Res)) : Prop :=
  ∃ past e, handled own = past ++ [⟨[e], false, false⟩]

/-- The calls of the sender. -/
def Sends (own : List (Call Op Op.Res)) : Op → Prop
  | .sql (.selectUserId _) => True
  | .sql (.insertMessage i j content) => i = C.senderId ∧ j = C.receiverId ∧
      C.contents[(handled own).length]? = some content
  | .sql (.selectOnline i) => i = C.receiverId ∧ InHand own
  | .getSessionByUsername v => v = C.receiver ∧ InHand own
  | .getSocket p => p = C.session
  | .sendData c frame => frame.forwarded? = none ∨ c = C.clientSocket ∧ InHand own ∧
      C.contents[(handled own).length - 1]? = frame.forwarded?
  | .sql (.markRead i j) => i = C.senderId ∧ j = C.receiverId ∧ Unmarked own
  | _ => False

end Correspondence

/-- The sender is done with the message. -/
def Handled.Settled (m : Handled) : Prop := m.isLeft = true ∨ m.isMarked = true

instance (m : Handled) : Decidable m.Settled := by
  unfold Handled.Settled
  infer_instance

/-- So many messages have been stored, and the sender is done with them. -/
structure DoneWith (n : Nat) (own : List (Call Op Op.Res)) : Prop where
  length : (handled own).length = n
  settled : ∀ m ∈ handled own, m.Settled

/-- The sender is done with so many messages, and has stored another. -/
structure Stored (n : Nat) (last : Handled) (own : List (Call Op Op.Res)) : Prop where
  before : ∃ past, handled own = past ++ [last] ∧ past.length = n ∧ ∀ m ∈ past, m.Settled

section Sender

variable {C : Correspondence} {n : Nat} {own : List (Call Op Op.Res)} {call : Call Op Op.Res}
  {last : Handled}

theorem DoneWith.idle (h : DoneWith n own) (call : Call Op Op.Res) (hcall : Idle call) :
    DoneWith n (own ++ [call]) := by
  refine ⟨?_, ?_⟩
  · rw [hcall.handled]
    exact h.length
  · rw [hcall.handled]
    exact h.settled

theorem DoneWith.stored (h : DoneWith n own) (call : Call Op Op.Res) (hcall : stores call.1 = true) :
    Stored n ⟨[], false, false⟩ (own ++ [call]) :=
  ⟨handled own, handled_stored hcall, h.length, h.settled⟩

theorem Stored.after (h : Stored n last own) (call : Call Op Op.Res) (hcall : stores call.1 = false) :
    Stored n (last.after call) (own ++ [call]) := by
  obtain ⟨past, hown, hlength, hsettled⟩ := h
  exact ⟨past, handled_after hown hcall, hlength, hsettled⟩

theorem Stored.done (h : Stored n last own) (hlast : last.Settled) : DoneWith (n + 1) own := by
  obtain ⟨past, hown, rfl, hsettled⟩ := h
  refine ⟨?_, fun m hm => ?_⟩
  · rw [hown, List.length_append]
    rfl
  · rw [hown] at hm
    rcases List.mem_append.mp hm with hm | hm
    · exact hsettled m hm
    · rw [List.mem_singleton.mp hm]
      exact hlast

theorem Stored.inHand (h : Stored n ⟨[], false, false⟩ own) : Correspondence.InHand own := by
  obtain ⟨past, hown, _⟩ := h
  exact ⟨past, hown⟩

theorem Stored.number (h : Stored n last own) : (handled own).length - 1 = n := by
  obtain ⟨past, hown, rfl, _⟩ := h
  rw [hown, List.length_append]
  rfl

/-- The rule for a statement of the sender. -/
theorem expecting_caught {α β : Type} {Right : Call Op Op.Res → Prop}
    {Ok : List (Call Op Op.Res) → Op → Prop} {st : Stmt} {f : st.Res → α} {failed : α}
    {k : α → Action β} {Done : β → List (Call Op Op.Res) → Prop} (hok : Ok own (.sql st))
    (hk : ∀ r : Op.Res (.sql st), Right ⟨.sql st, r⟩ → (k (match r with
      | .ok r => f r
      | .error _ => failed)).Expecting Right Ok Done (own ++ [⟨.sql st, r⟩])) :
    Prog.Expecting Right Ok (caught st f failed >>= k) Done own := by
  show Prog.Expecting _ _ ((caught st f failed).bind k) _ _
  unfold caught
  rw [Prog.bind_eq, Prog.bind_assoc]
  refine .call hok fun r hr => ?_
  cases r with
  | ok r => exact hk (.ok r) hr
  | error e => exact hk (.error e) hr

theorem forwardMessage_expecting (h : Stored n ⟨[], false, false⟩ own) {content : Str}
    (hcontent : C.contents[n]? = some content) (sendTime : Str) :
    (forwardMessage C.senderId C.sender C.receiverId C.receiver content sendTime).Expecting
      (C.Right .sending) C.Sends (fun _ own' => DoneWith (n + 1) own') own := by
  refine .call ⟨rfl, h.inHand⟩ fun session hsession => ?_
  rcases hsession with hnone | hsome
  · cases hnone
    exact (h.after ⟨.getSessionByUsername C.receiver, none⟩ rfl).done (.inl rfl)
  · cases hsome
    have h₁ : Stored n ⟨[], false, false⟩ _ :=
      h.after ⟨.getSessionByUsername C.receiver, some C.session⟩ rfl
    refine .call rfl fun c hc => ?_
    obtain rfl : c = C.clientSocket := hc
    have h₂ : Stored n ⟨[], false, false⟩ _ :=
      h₁.after ⟨.getSocket C.session, C.clientSocket⟩ rfl
    refine .call (.inr ⟨rfl, h₂.inHand, by rw [h₂.number]; exact hcontent⟩) fun ok hok => ?_
    obtain rfl : ok = true := hok
    have h₃ : Stored n ⟨[(C.clientSocket, forwardMsg C.sender content sendTime)], false, false⟩ _ :=
      h₂.after ⟨.sendData C.clientSocket (forwardMsg C.sender content sendTime), true⟩ rfl
    obtain ⟨past, hown, _⟩ := h₃.before
    refine expecting_caught (by exact ⟨rfl, rfl, past, _, hown⟩) fun r _ => ?_
    exact (h₃.after ⟨.sql (.markRead C.senderId C.receiverId), r⟩ rfl).done (.inr rfl)

/-- What `HandleSendMessage` does once the row is in: it asks whether the receiver is online and for the
session, and forwards the message if there is one. Each of its ways out leaves the message done with. -/
theorem forwardLive_expecting (h : Stored n ⟨[], false, false⟩ own) {request : Request}
    (hsender : request.username = C.sender) (hreceiver : request.targetUsername = C.receiver)
    (hcontent : C.contents[n]? = some request.content) :
    (forwardLive request C.senderId C.receiverId).Expecting (C.Right .sending) C.Sends
      (fun _ own' => DoneWith (n + 1) own') own := by
  refine expecting_caught (by exact ⟨rfl, h.inHand⟩) fun online _ => ?_
  have h₁ := h.after ⟨.sql (.selectOnline C.receiverId), online⟩ rfl
  cases online with
  | error e => exact h₁.done (.inl rfl)
  | ok flag =>
    cases flag with
    | none => exact h₁.done (.inl rfl)
    | some isOnline =>
      cases isOnline with
      | false => exact h₁.done (.inl rfl)
      | true =>
        have h₁ : Stored n ⟨[], false, false⟩ _ := h₁
        rw [hreceiver]
        refine .call ⟨rfl, h₁.inHand⟩ fun session hsession => ?_
        rcases hsession with hnone | hsome
        · cases hnone
          exact (h₁.after ⟨.getSessionByUsername C.receiver, none⟩ rfl).done (.inl rfl)
        · cases hsome
          have h₂ : Stored n ⟨[], false, false⟩ _ :=
            h₁.after ⟨.getSessionByUsername C.receiver, some C.session⟩ rfl
          rw [hsender]
          refine (forwardMessage_expecting h₂ hcontent []).seq fun _ own' h' => ?_
          refine .call rfl fun c _ => .call (.inl rfl) fun ok _ => ?_
          have h₃ := h'.idle ⟨.getSocket C.session, c⟩ ⟨rfl, rfl, rfl, rfl⟩
          exact h₃.idle ⟨.sendData c (msgNotify C.sender request.content), ok⟩
            ⟨rfl, rfl, rfl, rfl⟩

/-- What `handleSendMessage` accepts. -/
def Sendable (request : Request) : Bool :=
  validateMessageContent request.content ∧ request.content.length ≤ maxMessageSize

theorem handleSendMessage_expecting (h : DoneWith n own) {request : Request}
    (hsender : request.username = C.sender) (hreceiver : request.targetUsername = C.receiver)
    (hsendable : Sendable request = true) (hcontent : C.contents[n]? = some request.content) :
    (handleSendMessage request).Expecting (C.Right .sending) C.Sends
      (fun _ own' => DoneWith (n + 1) own') own := by
  obtain ⟨hvalid, hlength⟩ := of_decide_eq_true hsendable
  unfold handleSendMessage
  rw [if_neg fun hno => hno hvalid, if_neg (Nat.not_lt.mpr hlength), hsender, hreceiver]
  refine expecting_caught (by trivial) fun r hr => ?_
  obtain rfl := hr.1 rfl
  have h₁ := h.idle ⟨.sql (.selectUserId C.sender), .ok (some C.senderId)⟩ ⟨rfl, rfl, rfl, rfl⟩
  refine expecting_caught (by trivial) fun r hr => ?_
  obtain rfl := hr.2 rfl
  have h₂ := h₁.idle ⟨.sql (.selectUserId C.receiver), .ok (some C.receiverId)⟩
    ⟨rfl, rfl, rfl, rfl⟩
  refine expecting_caught (by exact ⟨rfl, rfl, by rw [h₂.length]; exact hcontent⟩) fun r hr => ?_
  obtain rfl : r = .ok () := hr
  have h₃ := h₂.stored ⟨.sql (.insertMessage C.senderId C.receiverId request.content), .ok ()⟩
    rfl
  exact (forwardLive_expecting h₃ hsender hreceiver hcontent).seq fun _ _ h' => h'

/-- A request that is refused calls nothing. -/
theorem handleSendMessage_refused {request : Request} (hrefused : Sendable request = false) :
    ∃ response, handleSendMessage request = Prog.pure response := by
  unfold handleSendMessage
  by_cases hvalid : validateMessageContent request.content = true
  · rw [if_neg fun hno => hno hvalid, if_pos]
    · exact ⟨_, rfl⟩
    · have hnot := of_decide_eq_false hrefused
      exact Nat.lt_of_not_ge fun hlength => hnot ⟨hvalid, hlength⟩
  · rw [if_pos hvalid]
    exact ⟨_, rfl⟩

/-- The sender is done with all messages that it was given, one after the other. A request that is
refused before its first statement is none of them. -/
theorem sendAll_expecting (requests : List Request)
    (hrequests : ∀ request ∈ requests,
      request.username = C.sender ∧ request.targetUsername = C.receiver)
    (h : DoneWith n own)
    (hcontents : C.contents.drop n = (requests.filter Sendable).map (·.content)) :
    (sendAll requests).Expecting (C.Right .sending) C.Sends
      (fun _ own' => DoneWith (n + (requests.filter Sendable).length) own') own := by
  induction requests generalizing n own with
  | nil => exact h
  | cons request requests ih =>
    obtain ⟨hsender, hreceiver⟩ := hrequests request List.mem_cons_self
    have hrest := fun request' hmem => hrequests request' (List.mem_cons_of_mem _ hmem)
    cases hsendable : Sendable request with
    | false =>
      obtain ⟨response, hrefused⟩ := handleSendMessage_refused hsendable
      unfold sendAll
      rw [hrefused]
      rw [List.filter_cons_of_neg (by rw [hsendable]; decide)] at hcontents ⊢
      exact ih hrest h hcontents
    | true =>
      rw [List.filter_cons_of_pos hsendable] at hcontents ⊢
      rw [List.map_cons] at hcontents
      have hcontent : C.contents[n]? = some request.content := by
        rw [← List.head?_drop, hcontents]
        rfl
      have hnext : C.contents.drop (n + 1) = (requests.filter Sendable).map (·.content) := by
        rw [← List.tail_drop, hcontents]
        rfl
      refine (handleSendMessage_expecting h hsender hreceiver hsendable hcontent).seq ?_
      intro _ own' h'
      rw [List.length_cons, Nat.add_comm _ 1, ← Nat.add_assoc]
      exact ih hrest h' hnext

end Sender

/-! ## What the login calls -/

namespace Correspondence

variable (C : Correspondence)

/-- The calls of the login. It looks nobody up before it has bound the name, and queries the unread
messages once. -/
def Enters (own : List (Call Op Op.Res)) : Op → Prop
  | .sql (.selectUser v) => v = C.receiver
  | .sql (.selectOnline i) =>
      i = C.receiverId ∧ .sql (.updateOnline C.receiverId true) ∉ Prog.opsOf own
  | .sql (.updateOnline i isOnline) => i = C.receiverId ∧ isOnline = true
  | .sql (.selectUserId v) => v = C.receiver
  | .sql (.selectUnread i) => i = C.receiverId ∧
      .sql (.updateOnline C.receiverId true) ∈ Prog.opsOf own ∧
      .bindUsername C.clientSocket C.receiver ∈ Prog.opsOf own ∧ queryAnswer own = none
  | .sql (.markRead _ _) => queryAnswer own ≠ none
  | .sql (.updateLastLogin _) | .sql (.selectFriends _) => True
  | .getSession c => c = C.clientSocket
  | .setUsername p v => p = C.session ∧ v = C.receiver
  | .bindUsername c v => c = C.clientSocket ∧ v = C.receiver
  | .getSessionByUsername _ => .bindUsername C.clientSocket C.receiver ∈ Prog.opsOf own
  | .updateHeartbeat _ | .getSocket _ | .sendData _ _ | .cacheInsert _ _ => True
  | _ => False

end Correspondence

/-- What was forwarded, and where to. -/
def contentsOf (own : List (Call Op Op.Res)) : List (Socket × Option Str) :=
  (forwardsOf own).map fun e => (e.1, e.2.forwarded?)

/-- The receiver is in, the query has been answered so or not been made yet, and so much has been
forwarded. -/
structure Entered (C : Correspondence) (messages : Option (List Message))
    (sent : List (Socket × Option Str)) (own : List (Call Op Op.Res)) : Prop where
  flag : .sql (.updateOnline C.receiverId true) ∈ Prog.opsOf own
  bound : .bindUsername C.clientSocket C.receiver ∈ Prog.opsOf own
  answered : queryAnswer own = messages
  sent : contentsOf own = sent

/-- The query has been answered, and the answer been forwarded. -/
def Pushed (C : Correspondence) (own : List (Call Op Op.Res)) : Prop :=
  ∃ rows : List Message, Entered C (some rows)
    (rows.map fun msg => (C.clientSocket, some msg.content)) own

/-- The operations by which a login tells the friends of `u` and caches their names. -/
def Op.Tells (u : Str) : Op → Prop
  | .sql (.selectUserId v) => v = u
  | .sql (.selectFriends _) | .getSessionByUsername _ | .getSocket _ | .cacheInsert _ _ => True
  | .sendData _ frame => frame.forwarded? = none
  | _ => False

theorem notify_tells (u : Str) (status : UserStatus) :
    (notifyFriendsStatusChange u status).Uses (Op.Tells u) := by
  have heach : ∀ {frame : Frame}, frame.forwarded? = none → ∀ friends : List (Str × Bool),
      (notifyEach frame friends).Uses (Op.Tells u) := by
    intro frame hframe friends
    induction friends with
    | nil => trivial
    | cons friend friends ih =>
      obtain ⟨friendUsername, isOnline⟩ := friend
      unfold notifyEach
      cases isOnline with
      | false => exact ih
      | true =>
        refine .bind (uses_op trivial) fun q => ?_
        cases q with
        | none => exact ih
        | some q => exact .bind (uses_op trivial) fun c => .bind (uses_op hframe) fun _ => ih
  refine .bind (uses_caught (by exact rfl) _ _) fun r => ?_
  cases r with
  | none => trivial
  | some i =>
    refine .bind (uses_caught trivial _ _) fun r => ?_
    cases r with
    | none => trivial
    | some friends => exact heach rfl friends

theorem cacheFriendList_tells (u : Str) : (FriendManager.cacheFriendList u).Uses (Op.Tells u) := by
  refine .bind (uses_caught (by exact rfl) _ _) fun r => ?_
  cases r with
  | none => trivial
  | some i =>
    refine .bind (uses_caught trivial _ _) fun r => ?_
    cases r with
    | none => trivial
    | some friends => exact uses_op trivial

section Login

variable {C : Correspondence} {own : List (Call Op Op.Res)} {call : Call Op Op.Res}
  {messages : Option (List Message)} {sent : List (Socket × Option Str)}

theorem contentsOf_append (own own' : List (Call Op Op.Res)) :
    contentsOf (own ++ own') = contentsOf own ++ contentsOf own' := by
  unfold contentsOf
  rw [forwardsOf_append, List.map_append]

/-- A call that is not the query. -/
theorem Entered.append (h : Entered C messages sent own) (call : Call Op Op.Res)
    (hquery : queryAnswer [call] = none) :
    Entered C messages (sent ++ contentsOf [call]) (own ++ [call]) := by
  have hkept : ∀ o, o ∈ Prog.opsOf own → o ∈ Prog.opsOf (own ++ [call]) := by
    intro o ho
    unfold Prog.opsOf
    rw [List.map_append]
    exact List.mem_append_left _ ho
  refine ⟨hkept _ h.flag, hkept _ h.bound, ?_, ?_⟩
  · rw [queryAnswer_append, hquery, Option.or_none]
    exact h.answered
  · rw [contentsOf_append, h.sent]

theorem Entered.silent (h : Entered C messages sent own) (call : Call Op Op.Res)
    (hquery : queryAnswer [call] = none) (hsent : forwardsOf [call] = []) :
    Entered C messages sent (own ++ [call]) := by
  have happend := h.append call hquery
  unfold contentsOf at happend
  rw [hsent, List.map_nil, List.append_nil] at happend
  exact happend

theorem Entered.query (h : Entered C none sent own) (i : UserId) (rows : List Message) :
    Entered C (some rows) sent (own ++ [⟨.sql (.selectUnread i), .ok rows⟩]) := by
  have hkept : ∀ o, o ∈ Prog.opsOf own →
      o ∈ Prog.opsOf (own ++ [(⟨.sql (.selectUnread i), .ok rows⟩ : Call Op Op.Res)]) := by
    intro o ho
    unfold Prog.opsOf
    rw [List.map_append]
    exact List.mem_append_left _ ho
  refine ⟨hkept _ h.flag, hkept _ h.bound, ?_, ?_⟩
  · rw [queryAnswer_append, h.answered]
    rfl
  · rw [contentsOf_append, h.sent]
    exact List.append_nil _

theorem tells_expecting {α : Type} {q : Action α} (hq : q.Uses (Op.Tells C.receiver))
    (h : Entered C none sent own) : q.Expecting (C.Right .entering) C.Enters
      (fun _ own' => Entered C none sent own') own := by
  refine hq.expecting (fun own => Entered C none sent own) h fun own o h ho => ⟨?_, fun r _ => ?_⟩
  · cases o with
    | sql st =>
      cases st with
      | selectUserId v => exact ho
      | selectFriends i => trivial
      | _ => exact absurd ho id
    | getSessionByUsername v => exact h.bound
    | getSocket | sendData | cacheInsert => trivial
    | _ => exact absurd ho id
  · cases o with
    | sql st =>
      cases st with
      | selectUserId v => exact h.silent ⟨.sql (.selectUserId v), r⟩ rfl rfl
      | selectFriends i => exact h.silent ⟨.sql (.selectFriends i), r⟩ rfl rfl
      | _ => exact absurd ho id
    | getSessionByUsername v => exact h.silent ⟨.getSessionByUsername v, r⟩ rfl rfl
    | getSocket p => exact h.silent ⟨.getSocket p, r⟩ rfl rfl
    | cacheInsert v friends => exact h.silent ⟨.cacheInsert v friends, r⟩ rfl rfl
    | sendData c frame =>
      refine h.silent ⟨.sendData c frame, r⟩ rfl ?_
      have hno : frame.forwarded? = none := ho
      unfold forwardsOf
      simp [hno]
    | _ => exact absurd ho id

/-- A login that finds its user offline: it kicks nobody, sets the flag, the session and the route, and
has not asked for messages yet when it tells the friends. -/
theorem handleLogin_expecting {login : Request} (hvalid : validateUsername login.username = true)
    (hname : login.username = C.receiver) (hpassword : P.md5 login.password = C.passwordHash)
    (hsocket : login.clientSocket = C.clientSocket) :
    (handleLogin P login).Expecting (C.Right .entering) C.Enters
      (fun response own' => response = loginAccepted ∧ Entered C none [] own') [] := by
  unfold handleLogin
  rw [if_neg fun hno => hno hvalid, hname, hsocket]
  refine expecting_caught (by exact rfl) fun r hr => ?_
  obtain rfl : r = .ok (some (C.receiverId, C.passwordHash)) := hr
  dsimp only
  rw [if_neg fun hno => hno hpassword]
  refine Prog.Expecting.seq (M := fun _ own' => own' =
    [⟨.sql (.selectUser C.receiver), .ok (some (C.receiverId, C.passwordHash))⟩,
      ⟨.sql (.selectOnline C.receiverId), .ok (some false)⟩]) ?_ ?_
  · -- nobody is kicked
    refine expecting_caught (by exact ⟨rfl, by simp⟩) fun r hr => ?_
    obtain rfl : r = .ok (some false) := hr
    exact rfl
  · rintro _ own rfl
    refine Prog.Expecting.seq (M := fun _ own' => Entered C none [] own') ?_ ?_
    · refine expecting_caught (by exact ⟨rfl, rfl⟩) fun r _ => ?_
      refine expecting_caught (by trivial) fun r' _ => ?_
      refine .call rfl fun session hsession => ?_
      obtain rfl : session = some C.session := hsession
      refine .call ⟨rfl, rfl⟩ fun _ _ => .call ⟨rfl, rfl⟩ fun _ _ => ⟨trivial, fun _ _ => ?_⟩
      exact ⟨by simp, by simp, rfl, rfl⟩
    · intro _ own h
      exact (tells_expecting (notify_tells _ _) h).seq fun _ own' h' => ⟨rfl, h'⟩

/-- The push forwards one row after the other, each to the descriptor of the login, and asks nothing in
between whose answer it depends on. -/
theorem pushEach_expecting {rows : List Message} (messages : List Message)
    (hnames : ∀ msg ∈ messages, msg.receiverUsername = C.receiver)
    (h : Entered C (some rows) sent own) :
    (pushEach C.clientSocket messages).Expecting (C.Right .entering) C.Enters
      (fun _ own' => Entered C (some rows)
        (sent ++ messages.map fun msg => (C.clientSocket, some msg.content)) own') own := by
  induction messages generalizing own sent with
  | nil =>
    show Entered C (some rows) (sent ++ []) own
    rw [List.append_nil]
    exact h
  | cons msg messages ih =>
    have hname := hnames msg List.mem_cons_self
    refine Prog.Expecting.seq (M := fun _ own' =>
      Entered C (some rows) (sent ++ [(C.clientSocket, some msg.content)]) own') ?_ ?_
    · refine .call h.bound fun session hsession => ?_
      obtain rfl : session = some C.session := hsession hname
      have h₁ := h.silent ⟨.getSessionByUsername msg.receiverUsername, some C.session⟩ rfl rfl
      refine .call trivial fun c hc => ?_
      obtain rfl : c = C.clientSocket := hc rfl
      have h₂ := h₁.silent ⟨.getSocket C.session, C.clientSocket⟩ rfl rfl
      refine .call trivial fun ok hok => ?_
      obtain rfl : ok = true := hok
      have h₃ := h₂.append ⟨.sendData C.clientSocket
        (forwardMsg msg.senderUsername msg.content msg.sendTime), true⟩ rfl
      refine expecting_caught (by
        show queryAnswer _ ≠ none
        rw [h₃.answered]
        exact Option.some_ne_none rows) fun r _ => ?_
      exact h₃.silent ⟨.sql (.markRead msg.senderId msg.receiverId), r⟩ rfl rfl
    · intro _ own₁ h₁
      refine Prog.Expecting.seq (M := fun _ own' =>
        Entered C (some rows) (sent ++ [(C.clientSocket, some msg.content)]) own') ?_ ?_
      · refine .call trivial fun ok _ => ?_
        exact h₁.silent ⟨.sendData C.clientSocket (msgNotify msg.senderUsername msg.content), ok⟩
          rfl rfl
      · intro _ own₂ h₂
        have hrest := ih (fun msg' hmsg' => hnames msg' (List.mem_cons_of_mem _ hmsg')) h₂
        rw [List.append_assoc] at hrest
        exact hrest

/-- The whole `LOGIN` branch: the answer of the query has been forwarded. -/
theorem serveLogin_expecting {login : Request} (hvalid : validateUsername login.username = true)
    (hname : login.username = C.receiver) (hpassword : P.md5 login.password = C.passwordHash)
    (hsocket : login.clientSocket = C.clientSocket) :
    (serveLogin P login).Expecting (C.Right .entering) C.Enters
      (fun _ own' => Pushed C own') [] := by
  refine (handleLogin_expecting hvalid hname hpassword hsocket).seq ?_
  rintro _ own ⟨rfl, h⟩
  rw [hname]
  refine Prog.Expecting.seq (M := fun _ own' => Entered C none [] own')
    (tells_expecting (cacheFriendList_tells _) h) fun _ own h => ?_
  refine Prog.Expecting.seq (M := fun _ own' => Pushed C own') ?_ fun _ _ h' => h'
  refine expecting_caught (by exact rfl) fun r hr => ?_
  obtain rfl : r = .ok (some C.receiverId) := hr
  have h₁ := h.silent ⟨.sql (.selectUserId C.receiver), .ok (some C.receiverId)⟩ rfl rfl
  refine expecting_caught (by exact ⟨rfl, h₁.flag, h₁.bound, h₁.answered⟩) fun r hr => ?_
  obtain ⟨rows, rfl, hnames⟩ := hr
  have h₂ := h₁.query C.receiverId rows
  cases rows with
  | nil => exact ⟨[], h₂⟩
  | cons msg rows =>
    refine .call h₂.bound fun session hsession => ?_
    obtain rfl : session = some C.session := hsession rfl
    have h₃ := h₂.silent ⟨.getSessionByUsername C.receiver, some C.session⟩ rfl rfl
    refine .call trivial fun c hc => ?_
    obtain rfl : c = C.clientSocket := hc rfl
    have h₄ := h₃.silent ⟨.getSocket C.session, C.clientSocket⟩ rfl rfl
    exact (pushEach_expecting (msg :: rows) hnames h₄).mono fun _ own' h' => ⟨_, h'⟩

end Login

end LiteChat
