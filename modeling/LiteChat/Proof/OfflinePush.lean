import LiteChat.Proof.Answers
import LiteChat.Proof.ExactlyOnce

/-!
# The push sends everything, once

The loop of `PushOfflineMessages` runs over a list that was read once, and every round marks all rows
of one sender. What the rounds leave marked is every row whose pair was among the messages so far
(`messages_markAll`), and every unread row of the receiver is itself in the list. So at the end
none is unread, and a second push reads an empty list.
-/

namespace LiteChat

open LiteChat.Action MessageManager Server

variable {P : Platform} {E : Env} {w w' : World P}

/-! ## The frames of a message -/

/-- The name of the user who has sent a message; the foreign key of the row says that there is one. -/
def Database.senderOf (db : Database P) (m : MessageRow) : Str :=
  ((db.byId m.senderId).map UserRow.username).getD []

/-- What is sent of a message of the backlog. -/
def pushFrames (account : Option UserId) (c : Socket) (sender content sendTime : Str) : List Obs :=
  [.sent c account (forwardMsg sender content sendTime) true,
   .sent c account (msgNotify sender content) true]

/-- The table with the rows of the given messages' pairs marked. -/
def Database.markAll (db : Database P) (messages : List Message) : Database P :=
  messages.foldl (fun db msg => db.markRead msg.senderId msg.receiverId) db

/-- **What has been marked**: the rows whose pair has had a message. -/
theorem Database.messages_markAll (db : Database P) (messages : List Message) :
    (db.markAll messages).messages = db.messages.map fun m =>
      if ∃ msg ∈ messages, msg.senderId = m.senderId ∧ msg.receiverId = m.receiverId then
        { m with isRead := true }
      else m := by
  induction messages generalizing db with
  | nil =>
    symm
    refine (List.map_congr_left fun m _ => if_neg ?_).trans (List.map_id _)
    rintro ⟨msg, hmsg, _⟩
    exact absurd hmsg List.not_mem_nil
  | cons msg messages ih =>
    refine (ih (db.markRead msg.senderId msg.receiverId)).trans ?_
    show (db.messages.map (readRow msg.senderId msg.receiverId)).map _ = _
    rw [List.map_map]
    refine List.map_congr_left fun m _ => ?_
    rw [Function.comp_apply]
    unfold readRow
    by_cases hpair : m.senderId = msg.senderId ∧ m.receiverId = msg.receiverId
    · have hmem : ∃ msg' ∈ msg :: messages,
          msg'.senderId = m.senderId ∧ msg'.receiverId = m.receiverId :=
        ⟨msg, List.mem_cons_self, hpair.1.symm, hpair.2.symm⟩
      rw [if_pos hpair, if_pos hmem]
      split <;> rfl
    · rw [if_neg hpair]
      refine if_congr ?_ rfl rfl
      constructor
      · rintro ⟨msg', hmsg', h⟩
        exact ⟨msg', List.mem_cons_of_mem msg hmsg', h⟩
      · rintro ⟨msg', hmsg', h⟩
        rcases List.mem_cons.mp hmsg' with rfl | hmsg'
        · exact absurd ⟨h.1.symm, h.2.symm⟩ hpair
        · exact ⟨msg', hmsg', h⟩

/-! ## The loop -/

section Reliable

variable (hdb : ¬ E.dbFails) (hsend : ¬ E.sendFails)

/-- The world after the messages have been pushed to a connection. -/
def World.pushed (w : World P) (c : Socket) (messages : List Message) : World P :=
  { w with
    db := w.db.markAll messages
    trace := w.trace ++ messages.flatMap fun msg =>
      pushFrames (w.accountAt c) c msg.senderUsername msg.content msg.sendTime }

include hdb hsend

/-- A message that is forwarded: the frame is sent and the pair is marked. -/
theorem wp_forwardMessage_sent {i j : UserId} {u v content sendTime : Str} {c : Socket}
    {Q : Bool → World P → Prop} (hhere : RoutedHere w c v)
    (h : Q true { w.observe (.sent c (w.accountAt c) (forwardMsg u content sendTime) true) with
      db := w.db.markRead i j }) :
    wp E (forwardMessage i u j v content sendTime) Q w := by
  obtain ⟨p, s, hbyName, hs, rfl⟩ := hhere.byUsername
  unfold forwardMessage
  simp only [wp_bind, wp_getSessionByUsername, hbyName, wp_getSocket hs, wp_sendData]
  refine ⟨wp_if (fun _ => ?_) fun hne => absurd trivial hne, fun hf => absurd hf hsend⟩
  simp only [wp_bind, wp_markMessagesAsRead, wp_pure]
  exact ⟨fun hf => absurd hf hdb, h⟩

theorem wp_pushEach_all {c : Socket} {u : Str} {messages : List Message} (hhere : RoutedHere w c u)
    (hto : ∀ msg ∈ messages, msg.receiverUsername = u) :
    wp E (pushEach c messages) (fun _ w' => w' = w.pushed c messages) w := by
  induction messages generalizing w with
  | nil =>
    show w = w.pushed c []
    unfold World.pushed
    rw [List.flatMap_nil, List.append_nil]
    rfl
  | cons msg messages ih =>
    unfold pushEach
    rw [wp_bind]
    refine wp_forwardMessage_sent hdb hsend ((hto msg List.mem_cons_self).symm ▸ hhere) ?_
    unfold sendNotification
    simp only [wp_bind, wp_sendData, wp_pure]
    refine ⟨?_, fun hf => absurd hf hsend⟩
    refine wp_mono (ih ?_ fun m hm => hto m (List.mem_cons_of_mem msg hm)) fun _ w' hw' => ?_
    · exact hhere
    · rw [hw']
      unfold World.pushed
      simp only [World.observe, pushFrames, List.flatMap_cons, List.append_assoc, List.cons_append,
        List.nil_append]
      rfl

end Reliable

/-! ## The query -/

/-- The rows that are addressed to a user and not read. -/
def Database.unreadRows (db : Database P) (i : UserId) : List MessageRow :=
  db.messages.filter fun m => m.receiverId = i ∧ m.isRead = false

/-- No row is lost in the join. -/
theorem Database.joined_eq {db : Database P} {m : MessageRow} (hm : m ∈ db.messages) :
    ∃ msg, db.joined m = some msg ∧ msg.senderId = m.senderId ∧ msg.receiverId = m.receiverId ∧
      msg.senderUsername = db.senderOf m ∧ msg.content = m.content ∧
      msg.sendTime = P.datetime m.sendTime ∧ msg.messageId = m.messageId := by
  obtain ⟨hs, hr⟩ := db.messages_user m hm
  obtain ⟨s, hsmem, hsid⟩ := List.mem_map.mp hs
  obtain ⟨r, hrmem, hrid⟩ := List.mem_map.mp hr
  have hsender : db.byId m.senderId = some s := byId_iff.mpr ⟨hsmem, hsid⟩
  unfold joined senderOf
  rw [hsender, byId_iff.mpr ⟨hrmem, hrid⟩]
  exact ⟨_, rfl, rfl, rfl, rfl, rfl, rfl, rfl⟩

/-- What the frames of a joined row say. -/
theorem flatMap_joined {db : Database P} (account : Option UserId) (c : Socket)
    {rows : List MessageRow} (hrows : ∀ m ∈ rows, m ∈ db.messages) :
    ((rows.filterMap db.joined).flatMap fun msg =>
      pushFrames account c msg.senderUsername msg.content msg.sendTime) =
    rows.flatMap fun m =>
      pushFrames account c (db.senderOf m) m.content (P.datetime m.sendTime) := by
  induction rows with
  | nil => rfl
  | cons m rows ih =>
    obtain ⟨msg, hjoined, -, -, hsender, hcontent, htime, -⟩ :=
      Database.joined_eq (hrows m List.mem_cons_self)
    rw [List.filterMap_cons_some hjoined, List.flatMap_cons, List.flatMap_cons,
      ih fun n hn => hrows n (List.mem_cons_of_mem m hn), hsender, hcontent, htime]

theorem pairwise_bySendTime (rank : Nat → Nat) (rows : List MessageRow) :
    (Database.bySendTime rank rows).Pairwise fun m n => m.sendTime ≤ n.sendTime := by
  unfold Database.bySendTime
  have htotal : Std.Total fun m n : MessageRow => m.sendTime ≤ n.sendTime :=
    ⟨fun m n => Nat.le_total m.sendTime n.sendTime⟩
  have htrans : IsTrans MessageRow fun m n => m.sendTime ≤ n.sendTime :=
    ⟨fun _ _ _ => Nat.le_trans⟩
  exact List.pairwise_insertionSort _ _

theorem perm_bySendTime (rank : Nat → Nat) (rows : List MessageRow) :
    (Database.bySendTime rank rows).Perm rows :=
  (List.perm_insertionSort _ _).trans (Effect.arrange_perm rank rows)

/-! ## Everything, once -/

/-- All that a complete push does: each unread row of the user is sent, with its sender, its content
and its time, in the order of the times; these rows are read then, and nothing else has changed in
the table. -/
structure PushedAll (r : UserRow) (c : Socket) (w w' : World P) : Prop where
  frames : ∃ rows : List MessageRow, rows.Perm (w.db.unreadRows r.userId) ∧
    rows.Pairwise (fun m n => m.sendTime ≤ n.sendTime) ∧
    w'.trace = w.trace ++ rows.flatMap fun m =>
      pushFrames (w.accountAt c) c (w.db.senderOf m) m.content (P.datetime m.sendTime)
  rows : w'.db.messages = w.db.messages.map fun m =>
    if m.receiverId = r.userId ∧ m.isRead = false then { m with isRead := true } else m

theorem PushedAll.unreadRows {r : UserRow} {c : Socket} (h : PushedAll r c w w') :
    w'.db.unreadRows r.userId = [] := by
  unfold Database.unreadRows
  rw [h.rows, List.filter_eq_nil_iff]
  intro m hm
  obtain ⟨n, _, rfl⟩ := List.mem_map.mp hm
  split
  · simp
  · next hn => simpa using hn

/-- The messages of a query mark exactly the rows it has selected. A mark is for all rows of a pair of
users, and the query has selected every unread row that is for the receiver. -/
theorem PushedAll.of_pushed {r : UserRow} {c : Socket} (rank : Nat → Nat) :
    PushedAll r c w (w.pushed c (w.db.unread rank r.userId)) := by
  have hperm := perm_bySendTime rank (w.db.unreadRows r.userId)
  have hmem : ∀ m ∈ Database.bySendTime rank (w.db.unreadRows r.userId), m ∈ w.db.messages :=
    fun m hm => (List.mem_filter.mp (hperm.mem_iff.mp hm)).1
  refine ⟨⟨_, hperm, pairwise_bySendTime rank _, ?_⟩, ?_⟩
  · show w.trace ++ _ = _
    congr 1
    exact flatMap_joined (w.accountAt c) c hmem
  · refine (w.db.messages_markAll _).trans (List.map_congr_left fun m hm => ?_)
    by_cases hunread : m.receiverId = r.userId ∧ m.isRead = false
    · obtain ⟨msg, hjoined, hs, hr, -⟩ := Database.joined_eq hm
      have hrow : m ∈ Database.bySendTime rank (w.db.unreadRows r.userId) :=
        hperm.mem_iff.mpr (List.mem_filter.mpr ⟨hm, decide_eq_true hunread⟩)
      rw [if_pos ⟨msg, List.mem_filterMap.mpr ⟨m, hrow, hjoined⟩, hs, hr⟩, if_pos hunread]
    · rw [if_neg hunread]
      split
      · next hmarked =>
        -- the row is read already: whoever marks it is a message to the same receiver
        obtain ⟨msg, hmsg, -, hreceiver⟩ := hmarked
        obtain ⟨n, hn, hjoined⟩ := List.mem_filterMap.mp hmsg
        obtain ⟨hnmem, hnunread⟩ := List.mem_filter.mp (hperm.mem_iff.mp hn)
        obtain ⟨msg', hjoined', -, hr', -⟩ := Database.joined_eq hnmem
        obtain rfl := Option.some.inj (hjoined.symm.trans hjoined')
        have hto : m.receiverId = r.userId := by
          rw [← hreceiver, hr']
          exact (of_decide_eq_true hnunread).1
        have hread : m.isRead = true := by simpa [hto] using hunread
        rw [← hread]
      · rfl

theorem World.pushed_nil (w : World P) (c : Socket) : w.pushed c [] = w := by
  unfold pushed
  rw [List.flatMap_nil, List.append_nil]
  rfl

theorem idOf_self {db : Database P} {r : UserRow} (hr : r ∈ db.users) :
    db.idOf r.username = some r.userId := by
  unfold Database.idOf
  rw [Database.byName_self hr, Option.map_some]

/-- With nothing unread, nothing happens. -/
theorem wp_pushOfflineMessages_none {r : UserRow} (hr : r ∈ w.db.users)
    (h : w.db.unreadRows r.userId = []) :
    wp E (pushOfflineMessages r.username) (fun _ w' => w' = w) w := by
  have hunread : ∀ rank, w.db.unread rank r.userId = [] := by
    intro rank
    have hsorted : Database.bySendTime rank (w.db.unreadRows r.userId) = [] := by
      rw [h]
      exact (perm_bySendTime rank []).eq_nil
    exact congrArg (List.filterMap w.db.joined) hsorted
  unfold pushOfflineMessages
  simp only [wp_bind, wp_getUserIdByUsername, idOf_self hr, wp_getUnreadMessages, hunread]
  exact ⟨fun _ => rfl, fun _ => rfl, fun _ => wp_if (fun _ => rfl) fun hne => absurd rfl hne⟩

/-- A push on which nothing fails. -/
theorem wp_pushOfflineMessages_all {r : UserRow} {c : Socket} (hdb : ¬ E.dbFails)
    (hsend : ¬ E.sendFails) (hr : r ∈ w.db.users) (hhere : RoutedHere w c r.username) :
    wp E (pushOfflineMessages r.username) (fun _ w' => PushedAll r c w w') w := by
  obtain ⟨p, s, hbyName, hs, rfl⟩ := hhere.byUsername
  unfold pushOfflineMessages
  simp only [wp_bind, wp_getUserIdByUsername, idOf_self hr, wp_getUnreadMessages]
  refine ⟨fun hf => absurd hf hdb, fun hf => absurd hf hdb, fun rank => ?_⟩
  have hall := PushedAll.of_pushed (w := w) (r := r) (c := s.socket) rank
  refine wp_if (fun hempty => ?_) fun _ => ?_
  · rw [List.isEmpty_iff.mp hempty, World.pushed_nil] at hall
    exact hall
  · simp only [wp_bind, wp_getSessionByUsername, hbyName, wp_getSocket hs]
    have hto : ∀ msg ∈ w.db.unread rank r.userId, msg.receiverUsername = r.username :=
      fun msg => Database.receiver_of_mem_unread (Database.byId_of_byName (Database.byName_self hr))
    exact wp_mono (wp_pushEach_all hdb hsend hhere hto) fun _ w' hw' => hw' ▸ hall

/-- The push leaves the table of users alone. -/
theorem users_pushOfflineMessages (u : Str) (cs : List Choice) (w : World P) :
    ((pushOfflineMessages u).run cs w).2.db.users = w.db.users :=
  (run_of_wp (wp_pushOfflineMessages (E := .any) u) cs fun ch _ => Env.ok_any ch).users

/-- **The push is complete, and a second one sends nothing.** If nothing fails, the messages that wait
for the user are sent to the user's connection, oldest first, each of them once and with its content,
and are marked; a push after that finds none, whatever fails then. -/
theorem pushesOnce {r : UserRow} {c : Socket} {cs : List Choice} (hr : r ∈ w.db.users)
    (hhere : RoutedHere w c r.username) (hcs : ∀ ch ∈ cs, ch.dbOk = true ∧ ch.sendOk = true) :
    let w' := ((pushOfflineMessages r.username).run cs w).2
    PushedAll r c w w' ∧ ∀ cs', ((pushOfflineMessages r.username).run cs' w').2 = w' := by
  intro w'
  have hok : ∀ ch ∈ cs, Env.Ok ⟨False, False⟩ ch := fun ch hch =>
    ⟨fun hdb => absurd ((hcs ch hch).1.symm.trans hdb) (by decide),
      fun hsend => absurd ((hcs ch hch).2.symm.trans hsend) (by decide)⟩
  have hall : PushedAll r c w w' :=
    run_of_wp (wp_pushOfflineMessages_all (E := ⟨False, False⟩) id id hr hhere) cs hok
  refine ⟨hall, fun cs' => ?_⟩
  have hr' : r ∈ w'.db.users := (users_pushOfflineMessages r.username cs w).symm ▸ hr
  exact run_of_wp (wp_pushOfflineMessages_none (E := .any) hr' hall.unreadRows) cs'
    fun ch _ => Env.ok_any ch

/-- Bob has come back, and what Alice has written to him could not be sent. -/
def bobMissed : World asciiCi := Effect.runAll next (World.start Database.empty)
  (aliceRegisters ++ [bobRegisters, aliceLogsIn, aliceSends "one", aliceSends "two"] ++
    bobLogsIn noneSent)

/-- Two messages of one sender: the first of them marks both. -/
theorem pushesOnce_bob : ∃ r, r.username = bytes "bob" ∧
    (bobMissed.db.unreadRows r.userId).map (·.content) = [bytes "one", bytes "two"] ∧
    let w' := ((MessageManager.pushOfflineMessages r.username).run [] bobMissed).2
    PushedAll r 2 bobMissed w' ∧
      ∀ cs', ((MessageManager.pushOfflineMessages r.username).run cs' w').2 = w' := by
  have hrow : (⟨2, bytes "bob", asciiCi.md5 (bytes "qwerty"), true, some 0⟩ : UserRow) ∈
      bobMissed.db.users := by decide
  have hhere : RoutedHere bobMissed 2 (bytes "bob") := by
    unfold RoutedHere
    decide
  exact ⟨_, rfl, by decide, pushesOnce hrow hhere nofun⟩

end LiteChat
