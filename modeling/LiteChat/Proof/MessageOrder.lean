import LiteChat.Effect.Ties
import LiteChat.Proof.Friends
import LiteChat.Proof.OfflinePush

/-!
# In the order in which they were stored

Both queries sort by `send_time`, which counts seconds, and by nothing else. So messages that were
stored in one second come in whatever order the database likes, also those of one sender to one
receiver. What the two functions make of the rows keeps their order, so they are in the order of
their ids exactly if the times say so (`HistoryTimesTell`, `PushTimesTell`), or if the limit of the
history leaves the later of the two away.
-/

namespace LiteChat

open LiteChat.Action MessageManager Server

variable {P : Platform} {E : Env} {w w' w'' : World P}

/-! ## Rows and messages -/

/-- The messages of one sender to one receiver come in the order in which they were stored. -/
def InStoringOrder (messages : List Message) : Prop :=
  messages.Pairwise fun m n =>
    m.senderId = n.senderId → m.receiverId = n.receiverId → m.messageId < n.messageId

/-- Two rows of one sender to one receiver, in the order in which they were stored. -/
def StoredBefore (m n : MessageRow) : Prop :=
  m.senderId = n.senderId ∧ m.receiverId = n.receiverId ∧ m.messageId < n.messageId

theorem not_storedBefore_self (m : MessageRow) : ¬ StoredBefore m m :=
  fun h => Nat.lt_irrefl _ h.2.2

/-- No row is lost in the join, so a limit can be applied before it. -/
theorem take_filterMap_joined {db : Database P} {rows : List MessageRow}
    (hrows : ∀ m ∈ rows, m ∈ db.messages) (limit : Nat) :
    (rows.filterMap db.joined).take limit = (rows.take limit).filterMap db.joined := by
  induction rows generalizing limit with
  | nil => simp
  | cons m rows ih =>
    obtain ⟨msg, hjoined, _⟩ := Database.joined_eq (hrows m List.mem_cons_self)
    rw [List.filterMap_cons_some hjoined]
    cases limit with
    | zero => rfl
    | succ limit =>
      rw [List.take_succ_cons, List.take_succ_cons, List.filterMap_cons_some hjoined,
        ih fun n hn => hrows n (List.mem_cons_of_mem m hn)]

/-- Messages are in order if no row comes after one that was stored later. -/
theorem inStoringOrder_joined {db : Database P} {rows : List MessageRow}
    (hrows : ∀ m ∈ rows, m ∈ db.messages) (hnodup : rows.Nodup) :
    InStoringOrder (rows.filterMap db.joined) ↔ rows.Pairwise fun n m => ¬ StoredBefore m n := by
  unfold InStoringOrder
  rw [List.pairwise_filterMap]
  constructor
  · refine List.Pairwise.imp_of_mem fun {n m} hn hm h hbefore => ?_
    obtain ⟨msg, hjoined, hs, hr, -, -, -, hid⟩ := Database.joined_eq (hrows m hm)
    obtain ⟨msg', hjoined', hs', hr', -, -, -, hid'⟩ := Database.joined_eq (hrows n hn)
    have hlt := h msg' hjoined' msg hjoined (by rw [hs, hs', hbefore.1]) (by rw [hr, hr', hbefore.2.1])
    rw [hid, hid'] at hlt
    exact absurd hbefore.2.2 (Nat.lt_asymm hlt)
  · intro h
    refine (h.and hnodup).imp_of_mem fun {n m} hn hm hpair msg' hjoined' msg hjoined hsender hreceiver => ?_
    obtain ⟨hnot, hne⟩ := hpair
    obtain ⟨t, ht, hs, hr, -, -, -, hid⟩ := Database.joined_eq (hrows m hm)
    obtain ⟨t', ht', hs', hr', -, -, -, hid'⟩ := Database.joined_eq (hrows n hn)
    obtain rfl := Option.some.inj (hjoined.symm.trans ht)
    obtain rfl := Option.some.inj (hjoined'.symm.trans ht')
    rw [hid, hid']
    rcases Nat.lt_trichotomy n.messageId m.messageId with hlt | heq | hgt
    · exact hlt
    · exact absurd (Effect.eq_of_key_eq _ db.messages_id (hrows n hn) (hrows m hm) heq) hne
    · refine absurd ⟨?_, ?_, hgt⟩ hnot
      · rw [← hs, ← hs', hsender]
      · rw [← hr, ← hr', hreceiver]

/-- The messages of a query come in order if its rows do. -/
theorem inStoringOrder_bySendTime {db : Database P} {rows : List MessageRow}
    (hrows : rows.Sublist db.messages) (limit : Nat) (rank : Nat → Nat) :
    InStoringOrder (((Database.bySendTime rank rows).filterMap db.joined).take limit) ↔
      ((Effect.sortBy MessageRow.sendTime rank rows).take limit).Pairwise
        fun n m => ¬ StoredBefore m n := by
  have hnodup : rows.Nodup := (List.Nodup.of_map _ db.messages_id).sublist hrows
  have hperm := perm_bySendTime rank rows
  have hmem : ∀ m ∈ Database.bySendTime rank rows, m ∈ db.messages :=
    fun m hm => hrows.subset (hperm.mem_iff.mp hm)
  rw [take_filterMap_joined hmem]
  exact inStoringOrder_joined (fun m hm => hmem m (List.mem_of_mem_take hm))
    ((hperm.nodup_iff.mpr hnodup).sublist (List.take_sublist _ _))

/-- The first messages of a query come in order, whatever the database makes of the ties, exactly if of
any two rows the one stored before has an earlier time, or there are so many earlier rows that the limit
is reached before it. -/
theorem inStoringOrder_take_iff {db : Database P} {rows : List MessageRow}
    (hrows : rows.Sublist db.messages) (limit : Nat) :
    (∀ rank, InStoringOrder (((Database.bySendTime rank rows).filterMap db.joined).take limit)) ↔
      ∀ m ∈ rows, ∀ n ∈ rows, StoredBefore m n → m.sendTime < n.sendTime ∨
        limit ≤ Effect.below MessageRow.sendTime rows m + if n.sendTime = m.sendTime then 1 else 0 := by
  have hnodup : rows.Nodup := (List.Nodup.of_map _ db.messages_id).sublist hrows
  rw [← Effect.before_iff not_storedBefore_self limit]
  constructor
  · intro h listing hlisting
    obtain ⟨rank, rfl⟩ := (Effect.orderedBy_iff hnodup).mp hlisting
    exact (inStoringOrder_bySendTime hrows limit rank).mp (h rank)
  · intro h rank
    exact (inStoringOrder_bySendTime hrows limit rank).mpr
      (h _ ((Effect.orderedBy_iff hnodup).mpr ⟨rank, rfl⟩))

/-- All messages of a query do. -/
theorem inStoringOrder_iff {db : Database P} {rows : List MessageRow}
    (hrows : rows.Sublist db.messages) :
    (∀ rank, InStoringOrder ((Database.bySendTime rank rows).filterMap db.joined)) ↔
      ∀ m ∈ rows, ∀ n ∈ rows, StoredBefore m n → m.sendTime < n.sendTime := by
  have hnodup : rows.Nodup := (List.Nodup.of_map _ db.messages_id).sublist hrows
  have hall : ∀ rank, InStoringOrder ((Database.bySendTime rank rows).filterMap db.joined) ↔
      (Effect.sortBy MessageRow.sendTime rank rows).Pairwise fun n m => ¬ StoredBefore m n := by
    intro rank
    have hlength : (Database.bySendTime rank rows).length ≤ rows.length :=
      (perm_bySendTime rank rows).length_eq.le
    have hsorted : (Effect.sortBy MessageRow.sendTime rank rows).take rows.length =
        Effect.sortBy MessageRow.sendTime rank rows := List.take_of_length_le hlength
    have htake := inStoringOrder_bySendTime hrows rows.length rank
    rw [hsorted, List.take_of_length_le ((List.length_filterMap_le _ _).trans hlength)] at htake
    exact htake
  rw [← Effect.before_iff_all not_storedBefore_self]
  constructor
  · intro h listing hlisting
    obtain ⟨rank, rfl⟩ := (Effect.orderedBy_iff hnodup).mp hlisting
    exact (hall rank).mp (h rank)
  · intro h rank
    exact (hall rank).mpr (h _ ((Effect.orderedBy_iff hnodup).mpr ⟨rank, rfl⟩))

/-! ## History -/

/-- The rows that `GetHistoryMessages` selects. -/
def Database.messagesBetween (db : Database P) (i j : UserId) : List MessageRow :=
  db.messages.filter fun m => Database.MessageRow.between m i j

/-- The `LIMIT` of a history query. -/
def limitOf (request : Request) : Int :=
  if request.count ≤ 0 ∨ 200 < request.count then 50 else request.count

/-- The messages that the database gives for a history query; the choices are those of its three
statements. -/
def historyGiven (w : World P) (request : Request) (cs : List Choice) : Option (List Message) :=
  if request.targetUsername = [] then none
  else
    match if (cs.getD 0 default).dbOk then w.db.idOf request.username else none,
      if (cs.getD 1 default).dbOk then w.db.idOf request.targetUsername else none with
    | some userId1, some userId2 =>
      if (cs.getD 2 default).dbOk then
        some (w.db.history (cs.getD 2 default).rank userId1 userId2 (limitOf request))
      else none
    | _, _ => none

def historyData (messages : List Message) : Json :=
  .obj [(bytes "messages", .arr (messages.map messageJson))]

theorem run_getHistoryMessages {β : Type} (i j : UserId) (count : Int)
    (k : Option (List Message) → Action β) (cs : List Choice) :
    (MessageDAO.getHistoryMessages i j count >>= k).run cs w =
      (k (if (cs.headD default).dbOk then some (w.db.history (cs.headD default).rank i j count)
        else none)).run cs.tail w := by
  refine (run_caught _ _ _ _ _).trans ?_
  cases (cs.headD default).dbOk <;> rfl

theorem run_getUnreadMessages {β : Type} (i : UserId) (k : Option (List Message) → Action β)
    (cs : List Choice) : (MessageDAO.getUnreadMessages i >>= k).run cs w =
      (k (if (cs.headD default).dbOk then some (w.db.unread (cs.headD default).rank i)
        else none)).run cs.tail w := by
  refine (run_caught _ _ _ _ _).trans ?_
  cases (cs.headD default).dbOk <;> rfl

/-- An answer shows what the database has given, in its order. -/
theorem data_handleHistoryMessages (request : Request) (cs : List Choice) :
    ((handleHistoryMessages request).run cs w).1.data =
      (historyGiven w request cs).map historyData := by
  have h0 : cs.headD default = cs.getD 0 default := List.headD_eq_getD
  have h1 : cs.tail.headD default = cs.getD 1 default := by
    rw [List.headD_eq_getD, Effect.Prog.getD_tail]
  have h2 : cs.tail.tail.headD default = cs.getD 2 default := by
    rw [List.headD_eq_getD, Effect.Prog.getD_tail, Effect.Prog.getD_tail]
  unfold handleHistoryMessages historyGiven
  by_cases htarget : request.targetUsername = []
  · rw [if_pos htarget, if_pos htarget]
    rfl
  · rw [if_neg htarget, if_neg htarget, run_getUserIdByUsername, h0]
    cases hfirst : (if (cs.getD 0 default).dbOk then w.db.idOf request.username else none) with
    | none => rfl
    | some i =>
      dsimp only
      rw [run_getUserIdByUsername, h1]
      cases hsecond : (if (cs.getD 1 default).dbOk then w.db.idOf request.targetUsername
        else none) with
      | none => rfl
      | some j =>
        dsimp only
        rw [run_getHistoryMessages, h2]
        unfold limitOf
        cases (cs.getD 2 default).dbOk with
        | false => rfl
        | true => rfl

/-- Every answer of the query shows the messages of one sender to one receiver in the order in which
they were stored. -/
def HistoryInOrder (w : World P) (request : Request) : Prop :=
  ∀ cs data, ((handleHistoryMessages request).run cs w).1.data = some data →
    ∃ messages, historyGiven w request cs = some messages ∧ data = historyData messages ∧
      InStoringOrder messages

/-- The rows between the two users have times that tell their order, as far as the limit goes. -/
def HistoryTimesTell (w : World P) (request : Request) : Prop :=
  request.targetUsername ≠ [] → ∀ i j, w.db.idOf request.username = some i →
    w.db.idOf request.targetUsername = some j →
    ∀ m ∈ w.db.messagesBetween i j, ∀ n ∈ w.db.messagesBetween i j, StoredBefore m n →
      m.sendTime < n.sendTime ∨ (limitOf request).toNat ≤
        Effect.below MessageRow.sendTime (w.db.messagesBetween i j) m +
          if n.sendTime = m.sendTime then 1 else 0

/-- A history comes in order, whatever the database makes of the ties, exactly if the times of the
conversation tell the order of what is shown of it. -/
theorem historyInOrder_iff (w : World P) (request : Request) :
    HistoryInOrder w request ↔ HistoryTimesTell w request := by
  constructor
  · intro h htarget i j hi hj
    refine (inStoringOrder_take_iff List.filter_sublist _).mp fun rank => ?_
    -- two lookups of users, and then the query, with any rank
    let cs : List Choice := [default, default, { (default : Choice) with rank := rank }]
    have hgiven : historyGiven w request cs =
        some (w.db.history rank i j (limitOf request)) := by
      unfold historyGiven
      rw [if_neg htarget]
      simp only [cs, List.getD_cons_zero, List.getD_cons_succ]
      show (match w.db.idOf request.username, w.db.idOf request.targetUsername with
        | some userId1, some userId2 => some (w.db.history rank userId1 userId2 (limitOf request))
        | _, _ => none) = _
      rw [hi, hj]
    have hdata := data_handleHistoryMessages (w := w) request cs
    rw [hgiven] at hdata
    obtain ⟨messages, hmessages, -, horder⟩ := h cs _ hdata
    obtain rfl := Option.some.inj (hgiven.symm.trans hmessages)
    exact horder
  · intro h cs data hdata
    rw [data_handleHistoryMessages] at hdata
    obtain ⟨messages, hmessages, rfl⟩ := Option.map_eq_some_iff.mp hdata
    refine ⟨messages, hmessages, rfl, ?_⟩
    unfold historyGiven at hmessages
    split at hmessages
    · cases hmessages
    · next htarget =>
      split at hmessages
      · next i j hi hj =>
        split at hmessages
        · obtain rfl := Option.some.inj hmessages
          refine (inStoringOrder_take_iff List.filter_sublist _).mpr ?_ _
          refine h htarget i j ?_ ?_
          · split at hi
            · exact hi
            · cases hi
          · split at hj
            · exact hj
            · cases hj
        · cases hmessages
      · cases hmessages

/-! ## Push -/

/-- The frames among what was said, with the sockets that they were sent to. -/
def framesSent (said : List Obs) : List (Socket × Frame) :=
  said.filterMap fun o => match o with
    | .sent c _ frame _ => some (c, frame)
    | _ => none

/-- Just these frames were sent. -/
structure Sends (frames : List (Socket × Frame)) (w w' : World P) : Prop where
  sessions : w'.sessions = w.sessions
  said : ∃ said, w'.trace = w.trace ++ said ∧ framesSent said = frames

theorem Sends.nil (h : w'.sessions = w.sessions) (ht : w'.trace = w.trace) : Sends [] w w' :=
  ⟨h, [], by rw [ht, List.append_nil], rfl⟩

theorem Sends.trans {frames frames' : List (Socket × Frame)} (h : Sends frames w w')
    (h' : Sends frames' w' w'') : Sends (frames ++ frames') w w'' := by
  obtain ⟨hsessions, said, hsaid, hframes⟩ := h
  obtain ⟨hsessions', said', hsaid', hframes'⟩ := h'
  refine ⟨hsessions'.trans hsessions, said ++ said', ?_, ?_⟩
  · rw [hsaid', hsaid, List.append_assoc]
  · unfold framesSent at hframes hframes' ⊢
    rw [List.filterMap_append, hframes, hframes']

/-- The socket of the session that a name leads to. -/
def socketOf (m : SessionManager) (u : Str) : Option Socket :=
  ((m.getSessionByUsername u).bind m.heap.lookup).map (·.socket)

/-- What is sent of a message: it goes to the session of its receiver, if there is one, and the
notification to the connection of the push. -/
def messageFrames (m : SessionManager) (c : Socket) (msg : Message) : List (Socket × Frame) :=
  (match socketOf m msg.receiverUsername with
    | some d => [(d, forwardMsg msg.senderUsername msg.content msg.sendTime)]
    | none => []) ++ [(c, msgNotify msg.senderUsername msg.content)]

theorem wp_sendData_sends (c : Socket) (frame : Frame) :
    wp E (sendData c frame) (fun _ w' => Sends [(c, frame)] w w') w :=
  wp_sendData.mpr ⟨⟨rfl, _, rfl, rfl⟩, fun _ => ⟨rfl, _, rfl, rfl⟩⟩

theorem wp_forwardMessage_sends (i j : UserId) (u v content sendTime : Str) :
    wp E (forwardMessage i u j v content sendTime) (fun _ w' =>
      Sends (match socketOf w.sessions v with
        | some d => [(d, forwardMsg u content sendTime)]
        | none => []) w w') w := by
  unfold forwardMessage socketOf
  simp only [wp_bind, wp_getSessionByUsername]
  cases hp : w.sessions.getSessionByUsername v with
  | none => exact .nil rfl rfl
  | some p =>
    obtain ⟨s, hs, _⟩ := w.live_byUsername hp
    simp only [wp_bind, wp_getSocket hs, Option.bind_some, hs, Option.map_some]
    refine wp_mono (wp_sendData_sends _ _) fun sent w₁ h₁ => ?_
    refine wp_if (fun _ => ?_) fun _ => h₁
    simp only [wp_bind, wp_markMessagesAsRead, wp_pure]
    exact ⟨fun _ => h₁, ⟨h₁.sessions, h₁.said⟩⟩

theorem wp_pushEach_sends (c : Socket) (messages : List Message) :
    wp E (pushEach c messages) (fun _ w' =>
      Sends (messages.flatMap (messageFrames w.sessions c)) w w') w := by
  induction messages generalizing w with
  | nil => exact .nil rfl rfl
  | cons msg messages ih =>
    unfold pushEach sendNotification
    simp only [wp_bind, wp_pure]
    refine wp_mono (wp_forwardMessage_sends _ _ _ _ _ _) fun _ w₁ h₁ => ?_
    refine wp_mono (wp_sendData_sends _ _) fun _ w₂ h₂ => ?_
    refine wp_mono ih fun _ w₃ h₃ => ?_
    rw [h₂.sessions, h₁.sessions] at h₃
    exact (h₁.trans h₂).trans h₃

/-- The messages that the database gives for a push. -/
def pushGiven (w : World P) (u : Str) (cs : List Choice) : List Message :=
  match if (cs.getD 0 default).dbOk then w.db.idOf u else none with
  | some userId =>
    if (cs.getD 1 default).dbOk then w.db.unread (cs.getD 1 default).rank userId else []
  | none => []

theorem sends_nothing (u : Str) : Sends (match socketOf w.sessions u with
    | some c => ([] : List Message).flatMap (messageFrames w.sessions c)
    | none => []) w w := by
  cases socketOf w.sessions u <;> exact .nil rfl rfl

/-- What is pushed of the messages that are read. -/
theorem wp_pushRest (u : Str) (messages : List Message) : wp .any (do
    if messages.isEmpty then
      return
    match ← getSessionByUsername u with
    | none => pure ()
    | some session => do
      let clientSocket ← getSocket session
      pushEach clientSocket messages : Action Unit) (fun _ w' =>
    Sends (match socketOf w.sessions u with
      | some c => messages.flatMap (messageFrames w.sessions c)
      | none => []) w w') w := by
  refine wp_if (fun hempty => ?_) fun _ => ?_
  · rw [List.isEmpty_iff.mp hempty]
    exact sends_nothing u
  · unfold socketOf
    simp only [wp_bind, wp_getSessionByUsername]
    cases hp : w.sessions.getSessionByUsername u with
    | none => exact .nil rfl rfl
    | some p =>
      obtain ⟨s, hs, _⟩ := w.live_byUsername hp
      simp only [wp_bind, wp_getSocket hs, Option.bind_some, hs, Option.map_some]
      exact wp_pushEach_sends s.socket messages

/-- A push sends what the database has given, in its order, if the name leads to a session. -/
theorem sends_pushOfflineMessages (u : Str) (cs : List Choice) :
    Sends (match socketOf w.sessions u with
      | some c => (pushGiven w u cs).flatMap (messageFrames w.sessions c)
      | none => []) w ((pushOfflineMessages u).run cs w).2 := by
  have h0 : cs.headD default = cs.getD 0 default := List.headD_eq_getD
  have h1 : cs.tail.headD default = cs.getD 1 default := by
    rw [List.headD_eq_getD, Effect.Prog.getD_tail]
  have hnothing := sends_nothing u (w := w)
  unfold pushOfflineMessages pushGiven
  rw [run_getUserIdByUsername, h0]
  cases hfirst : (if (cs.getD 0 default).dbOk then w.db.idOf u else none) with
  | none => exact hnothing
  | some i =>
    dsimp only
    rw [run_getUnreadMessages, h1]
    cases (cs.getD 1 default).dbOk with
    | false => exact hnothing
    | true =>
      simp only [if_true]
      generalize w.db.unread (cs.getD 1 default).rank i = messages
      exact run_of_wp (wp_pushRest u messages) cs.tail.tail fun ch _ => Env.ok_any ch

/-- A push sends the messages of each sender in the order in which they were stored. -/
def PushInOrder (w : World P) (u : Str) : Prop :=
  ∀ c cs, socketOf w.sessions u = some c →
    Sends ((pushGiven w u cs).flatMap (messageFrames w.sessions c)) w
      ((pushOfflineMessages u).run cs w).2 ∧ InStoringOrder (pushGiven w u cs)

/-- The unread rows of the user have times that tell their order. -/
def PushTimesTell (w : World P) (u : Str) : Prop :=
  ∀ c i, socketOf w.sessions u = some c → w.db.idOf u = some i →
    ∀ m ∈ w.db.unreadRows i, ∀ n ∈ w.db.unreadRows i, StoredBefore m n → m.sendTime < n.sendTime

theorem pushInOrder_iff (w : World P) (u : Str) : PushInOrder w u ↔ PushTimesTell w u := by
  constructor
  · intro h c i hc hi
    refine (inStoringOrder_iff List.filter_sublist).mp fun rank => ?_
    let cs : List Choice := [default, { (default : Choice) with rank := rank }]
    have hgiven : pushGiven w u cs = w.db.unread rank i := by
      unfold pushGiven
      simp only [cs, List.getD_cons_zero, List.getD_cons_succ]
      show (match w.db.idOf u with
        | some userId => w.db.unread rank userId
        | none => []) = _
      rw [hi]
    have horder := (h c cs hc).2
    rw [hgiven] at horder
    exact horder
  · intro h c cs hc
    have hsends := sends_pushOfflineMessages (w := w) u cs
    rw [hc] at hsends
    refine ⟨hsends, ?_⟩
    unfold pushGiven
    split
    · next i hi =>
      split
      · refine (inStoringOrder_iff List.filter_sublist).mpr (h c i hc ?_) _
        split at hi
        · exact hi
        · cases hi
      · exact List.Pairwise.nil
    · exact List.Pairwise.nil

/-! ## Both -/

/-- The messages of one sender to one receiver come back in the order in which they were stored. -/
def ComeBackInOrder (w : World P) : Prop :=
  (∀ request, HistoryInOrder w request) ∧ ∀ u, PushInOrder w u

/-- **Messages come back in the order in which they were stored exactly if their times tell that
order.** What is sent within one second has equal times, and the queries sort by the time alone, so the
order among such messages is the database's; it does not matter only where the limit cuts them off. -/
theorem comeBackInOrder_iff (w : World P) : ComeBackInOrder w ↔
    (∀ request, HistoryTimesTell w request) ∧ ∀ u, PushTimesTell w u :=
  and_congr (forall_congr' (historyInOrder_iff w)) (forall_congr' (pushInOrder_iff w))

/-- Two messages within one second. -/
theorem not_comeBackInOrder : ¬ ∀ es : List (Event × List Choice), ComeBackInOrder
    (Effect.runAll next (World.start (Database.empty : Database asciiCi)) es) := by
  intro h
  have htell : PushTimesTell bobMissed (bytes "bob") := ((comeBackInOrder_iff _).mp (h _)).2 _
  have hrows : bobMissed.db.unreadRows 2 =
      [⟨1, 1, 2, bytes "one", 0, false⟩, ⟨2, 1, 2, bytes "two", 0, false⟩] := by decide
  have hlt := htell 2 2 (by decide) (by decide) ⟨1, 1, 2, bytes "one", 0, false⟩ (by rw [hrows]; simp)
    ⟨2, 1, 2, bytes "two", 0, false⟩ (by rw [hrows]; simp) ⟨rfl, rfl, by decide⟩
  exact absurd hlt (by decide)

end LiteChat
