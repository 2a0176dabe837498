import LiteChat.Effect.Runs
import LiteChat.Proof.Events

/-!
# Messages are conserved

What the table of messages holds between two users is told by the history of what was served: the
`SEND_MSG` requests between them that were answered 0, since the last `DEL_FRIEND` between them whose
deletion of messages went through.

What a request has done (`deedOf`) is read off the request: its two names say which users it is about.
The journal is asked one thing only, whether a deletion of messages went through, as the answer to a
`DEL_FRIEND` does not tell. That this is what was done to the table is the theorem. The journal of an event
says what it did to the table (`triples_run`), and the handlers say what is in the journal (`wpj_deed`), so
nothing is asked of what the other handlers do but that they do not call two statements
(`Op.KeepsMessages`).
-/

namespace LiteChat

open LiteChat.Action Server

variable {P : Platform} {E : Env} {w w' : World P}

/-! ## What is done to the messages -/

/-- What a request that was served has done to the table of messages. -/
inductive Deed
  | sent (senderId receiverId : UserId) (content : Str)
  | cleared (userId1 userId2 : UserId)
  deriving DecidableEq

/-- A row of `messages`, less its number, its time and its mark. -/
abbrev Triple : Type := UserId × UserId × Str

def MessageRow.triple (m : MessageRow) : Triple := (m.senderId, m.receiverId, m.content)

/-- The message is between the two users. -/
def Triple.between (a b : UserId) (t : Triple) : Bool :=
  (t.1 = a ∧ t.2.1 = b) ∨ (t.1 = b ∧ t.2.1 = a)

theorem Triple.between_triple (a b : UserId) (m : MessageRow) :
    Triple.between a b m.triple = decide (Database.MessageRow.between m a b) :=
  decide_eq_decide.mpr Iff.rfl

def Database.triples (db : Database P) : List Triple := db.messages.map MessageRow.triple

/-- The rows between two users, in the order of their insertion. -/
def Database.triplesBetween (db : Database P) (a b : UserId) : List Triple :=
  (db.messages.filter fun m => Database.MessageRow.between m a b).map MessageRow.triple

/-- The deed was to clear what is between the two users. -/
def Deed.clears (a b : UserId) : Deed → Bool
  | .sent _ _ _ => false
  | .cleared i j => (i = a ∧ j = b) ∨ (i = b ∧ j = a)

/-- The deed was to send a message between the two users. -/
def Deed.sentBetween (a b : UserId) : Deed → Option Triple
  | .sent i j content => if Triple.between a b (i, j, content) then some (i, j, content) else none
  | .cleared _ _ => none

def Deed.apply (l : List Triple) : Deed → List Triple
  | .sent i j content => l ++ [(i, j, content)]
  | .cleared i j => l.filter fun t => !t.between i j

/-- The deed that a statement which went through does. -/
def Deed.of : Stmt × Bool → Option Deed
  | (.insertMessage i j content, true) => some (.sent i j content)
  | (.deleteMessages i j, true) => some (.cleared i j)
  | _ => none

theorem Database.triplesBetween_eq (db : Database P) (a b : UserId) :
    db.triplesBetween a b = db.triples.filter (Triple.between a b) := by
  unfold triplesBetween triples
  rw [List.filter_map]
  rfl

/-- What is between two users is a log. -/
theorem Deed.filter_apply (a b : UserId) (l : List Triple) (d : Deed) :
    (d.apply l).filter (Triple.between a b) =
      if d.clears a b then [] else l.filter (Triple.between a b) ++ (d.sentBetween a b).toList := by
  cases d with
  | sent i j content =>
    unfold apply clears sentBetween
    rw [List.filter_append]
    cases h : Triple.between a b (i, j, content) <;> simp [h]
  | cleared i j =>
    unfold apply clears sentBetween
    rw [List.filter_filter]
    by_cases hij : (i = a ∧ j = b) ∨ (i = b ∧ j = a)
    · rw [if_pos (by simpa using hij)]
      refine List.filter_eq_nil_iff.mpr fun t _ => ?_
      unfold Triple.between
      grind
    · rw [if_neg (by simpa using hij), Option.toList_none, List.append_nil]
      refine List.filter_congr fun t _ => ?_
      unfold Triple.between
      grind

/-! ## The journal and the table -/

/-- What a statement that is executed makes of the messages, as senders, receivers and contents. To add
a row and to delete those of a pair are the only two that change it: a mark is no part of a message. -/
theorem Database.triples_exec {db db' : Database P} {st : Stmt} {now : Nat} {rank : Nat → Nat}
    {r : st.Res} (h : db.exec now rank st = some (r, db')) :
    db'.triples = (Deed.of (st, true)).toList.foldl Deed.apply db.triples := by
  have hdb : (db.exec now rank st).map Prod.snd = some db' := by rw [h]; rfl
  have other : db'.messages = db.messages → db'.triples = db.triples := congrArg _
  cases st with
  | insertUser u hash => exact other (tables_of_insertUser (of_tried hdb)).2.1
  | updateUsername i u => exact other (tables_of_updateUsername (of_tried hdb)).2.1
  | insertFriend i j => exact other (tables_of_insertFriend (of_tried hdb)).2.2.1
  | insertMessage i j content =>
    show db'.messages.map MessageRow.triple = _
    rw [(tables_of_insertMessage (of_tried hdb)).1, List.map_append]
    rfl
  | deleteMessages i j =>
    rw [← Option.some.inj hdb]
    show ((db.messages.filter fun m => ¬ Database.MessageRow.between m i j).map _) =
      (db.messages.map MessageRow.triple).filter _
    rw [List.filter_map]
    congr 1
    refine List.filter_congr fun m _ => ?_
    rw [Function.comp_apply, Triple.between_triple, decide_not]
  | markRead i j =>
    rw [← Option.some.inj hdb]
    show (db.messages.map (Database.readRow i j)).map _ = db.messages.map _
    rw [List.map_map]
    refine List.map_congr_left fun m _ => ?_
    unfold Function.comp Database.readRow
    split <;> rfl
  | _ => exact Option.some.inj hdb ▸ rfl

/-- What a call makes of the messages. -/
def Deed.change (l : List Triple) (call : Effect.Call Op Op.Res) : List Triple :=
  ((written call).bind Deed.of).toList.foldl Deed.apply l

theorem Deed.bind_written {st : Stmt} (r : Except SQLException st.Res) :
    (written ⟨.sql st, r⟩).bind Deed.of = Deed.of (st, Except.isOk r) := by
  cases r <;> cases st <;> rfl

theorem World.triples_handle (o : Op) (ch : Choice) (w : World P) :
    (World.handle o ch w).2.db.triples =
      Deed.change w.db.triples ⟨o, (World.handle o ch w).1⟩ := by
  unfold Deed.change
  cases o with
  | sql st =>
    have failed : Deed.of (st, false) = none := by cases st <;> rfl
    show (w.execute st ch).2.db.triples =
      ((written ⟨.sql st, (w.execute st ch).1⟩).bind Deed.of).toList.foldl Deed.apply w.db.triples
    rw [Deed.bind_written]
    unfold World.execute
    split
    · split
      · rename_i r db hex
        exact Database.triples_exec hex
      · simp [Except.isOk, Except.toBool, failed]
    · simp [Except.isOk, Except.toBool, failed]
  | _ =>
    rw [World.db_unwritten (by trivial), written_eq_none (by trivial)]
    rfl

/-- **The journal of a run says what it did to the messages.** -/
theorem triples_run {α : Type} (p : Action α) (cs : List Choice) (w : World P) :
    (p.run cs w).2.db.triples =
      ((p.journal cs w).filterMap Deed.of).foldl Deed.apply w.db.triples := by
  refine (Effect.Prog.foldl_calls (fun w : World P => w.db.triples) World.triples_handle p cs w).trans ?_
  unfold Action.journal
  rw [List.filterMap_filterMap, List.foldl_filterMap]
  congr 1
  funext l call
  unfold Deed.change
  cases (written call).bind Deed.of <;> rfl

/-! ## Code that does nothing to the messages -/

/-- The operations that neither insert nor delete messages. -/
def Op.KeepsMessages : Op → Prop
  | .sql (.insertMessage _ _ _) | .sql (.deleteMessages _ _) => False
  | _ => True

theorem Op.Reads.keepsMessages {o : Op} (ho : o.Reads) : o.KeepsMessages := by
  cases o with
  | sql st => cases st <;> trivial
  | _ => trivial

theorem Op.WritesOnly.keepsMessages {S : Stmt → Prop}
    (hS : ∀ st, S st → Op.KeepsMessages (.sql st)) {o : Op} (ho : o.WritesOnly S) :
    o.KeepsMessages := by
  rcases ho with ho | ⟨st, rfl, hst⟩
  · exact ho.keepsMessages
  · exact hS st hst

theorem Op.LogsIn.keepsMessages {o : Op} (ho : o.LogsIn) : o.KeepsMessages := by
  cases ho with
  | reads ho => exact ho.keepsMessages
  | _ => trivial

theorem Op.Exits.keepsMessages {c : Socket} {o : Op} (ho : o.Exits c) : o.KeepsMessages := by
  cases ho with
  | reads ho => exact ho.keepsMessages
  | _ => trivial

theorem wpj_keepsMessages {α : Type} {p : Action α} (hp : p.Uses Op.KeepsMessages) :
    wpj E p (fun _ l _ => l.filterMap Deed.of = []) w := by
  refine wpj_mono (Effect.Prog.wpc_of_uses hp) fun _ l _ hl => ?_
  refine List.filterMap_eq_nil_iff.mpr fun e he => ?_
  obtain ⟨o, r, ho, hsee⟩ := hl e he
  cases o with
  | sql st =>
    have hdeed : (written ⟨.sql st, r⟩).bind Deed.of = Deed.of e := by rw [hsee]; rfl
    rw [← hdeed]
    refine (Deed.bind_written _).trans ?_
    cases st <;> first | rfl | exact absurd ho id
  | _ => cases hsee

/-! ## Events -/

/-- A deletion of messages that went through, whosever they were. -/
def deletesMessages : Stmt × Bool → Bool
  | (.deleteMessages _ _, true) => true
  | _ => false

/-- The two users that a request about a target is between. -/
def pairOf (db : Database P) (request : Request) (target : Str) : Option (UserId × UserId) :=
  (db.idOf request.username).bind fun i => (db.idOf target).map fun j => (i, j)

/-- What an event that served a request, or none, and wrote the journal has done. Whom it is about is
said by the request alone; of the journal it only counts whether a deletion of messages went through. -/
def deedOf (db : Database P) (served : Option (Request × Response)) (journal : List (Stmt × Bool)) :
    Option Deed :=
  match served with
  | none => none
  | some (request, response) =>
    if request.type = bytes "SEND_MSG" then
      if response.code = 0 then
        (pairOf db request request.targetUsername).map fun (i, j) => .sent i j request.content
      else none
    else if request.type = bytes "DEL_FRIEND" then
      if journal.any deletesMessages then
        (pairOf db request (FriendManager.targetOf request)).map fun (i, j) => .cleared i j
      else none
    else none

/-- What an event has done to the messages. -/
def deed (w : World P) (e : Event × List Choice) : Option Deed :=
  deedOf w.db (step w e.1 e.2).1 ((e.1.action P).journal e.2 w)

theorem deedOf_other {db : Database P} {request : Request} {response : Response}
    {journal : List (Stmt × Bool)} (hsend : request.type ≠ bytes "SEND_MSG")
    (hdelete : request.type ≠ bytes "DEL_FRIEND") :
    deedOf db (some (request, response)) journal = none := by
  unfold deedOf
  dsimp only
  rw [if_neg hsend, if_neg hdelete]

theorem wpj_sendMessage_deed {request : Request} (htype : request.type = bytes "SEND_MSG") :
    wpj E (MessageManager.handleSendMessage request) (fun response l _ =>
      l.filterMap Deed.of = (deedOf w.db (some (request, response)) l).toList) w := by
  refine wpj_handleSendMessage (fun response l hcode hl => ?_) ?_
  · unfold deedOf
    dsimp only
    rw [if_pos htype, if_neg hcode]
    refine List.filterMap_eq_nil_iff.mpr fun e he => ?_
    obtain ⟨st, ok⟩ := e
    obtain ⟨⟨i, j, content, rfl⟩, rfl⟩ := hl _ he
    rfl
  · intro i j now db said l w₁ w' hi hj _ _ _ hl
    have hmarks : l.filterMap Deed.of = [] := by
      refine List.filterMap_eq_nil_iff.mpr fun e he => ?_
      obtain ⟨st, ok⟩ := e
      obtain ⟨a, b, rfl⟩ := hl _ he
      rfl
    unfold deedOf
    dsimp only
    unfold pairOf
    rw [if_pos htype, if_pos rfl, hi, hj, List.filterMap_cons_some (by exact rfl), hmarks]
    rfl

theorem wpj_deleteFriend_deed {request : Request} (hsend : request.type ≠ bytes "SEND_MSG")
    (htype : request.type = bytes "DEL_FRIEND") :
    wpj E (FriendManager.handleDeleteFriend request) (fun response l _ =>
      l.filterMap Deed.of = (deedOf w.db (some (request, response)) l).toList) w := by
  have hdeed : ∀ response l, deedOf w.db (some (request, response)) l =
      if l.any deletesMessages then
        (pairOf w.db request (FriendManager.targetOf request)).map fun (i, j) => Deed.cleared i j
      else none := by
    intro response l
    unfold deedOf
    dsimp only
    rw [if_neg hsend, if_pos htype]
  refine wpj_handleDeleteFriend (fun response l _ hl => ?_) fun i j ok db hi hj _ => ?_
  · -- no deletion of messages is tried before the friendship is gone
    have hnone : ∀ e ∈ l, Deed.of e = none ∧ ¬ deletesMessages e = true := by
      rintro ⟨st, ok⟩ he
      obtain ⟨⟨i, j, rfl⟩, rfl⟩ := hl _ he
      exact ⟨rfl, Bool.false_ne_true⟩
    have hany : ¬ l.any deletesMessages = true := by
      intro h
      obtain ⟨e, he, hdeletes⟩ := List.any_eq_true.mp h
      exact (hnone e he).2 hdeletes
    rw [hdeed, List.filterMap_eq_nil_iff.mpr fun e he => (hnone e he).1, if_neg hany]
    rfl
  · rw [hdeed]
    unfold pairOf
    rw [hi, hj]
    cases ok <;> rfl

/-- A request that is served does to the messages what its type and its answer say, and its statements
say the same: what the journal has is one deed, the one of the request, or none. -/
theorem wpj_serve_deed (request : Request) : wpj E (serve P request) (fun response l _ =>
    l.filterMap Deed.of = (deedOf w.db (some (request, response)) l).toList) w := by
  have keeps : ∀ {p : Action Response}, p.Uses Op.KeepsMessages → request.type ≠ bytes "SEND_MSG" →
      request.type ≠ bytes "DEL_FRIEND" → wpj E p (fun response l _ =>
        l.filterMap Deed.of = (deedOf w.db (some (request, response)) l).toList) w := by
    intro p hp hsend hdelete
    refine wpj_mono (wpj_keepsMessages hp) fun response l _ hl => ?_
    rw [hl, deedOf_other hsend hdelete]
    rfl
  have reads : ∀ {p : Action Response}, p.Uses Op.Reads → p.Uses Op.KeepsMessages :=
    fun hp => hp.mono fun _ => Op.Reads.keepsMessages
  unfold serve
  refine wpj_if (fun h => keeps ?_ (by rw [h]; decide) (by rw [h]; decide)) fun _ =>
    wpj_if (fun h => keeps ?_ (by rw [h]; decide) (by rw [h]; decide)) fun _ =>
    wpj_if (fun h => keeps ?_ (by rw [h]; decide) (by rw [h]; decide)) fun _ =>
    wpj_if (fun h => keeps (reads (handleQueryStatus_reads request)) (by rw [h]; decide)
      (by rw [h]; decide)) fun _ =>
    wpj_if (fun h => keeps ?_ (by rw [h]; decide) (by rw [h]; decide)) fun _ =>
    wpj_if (fun h => wpj_deleteFriend_deed (by rw [h]; decide) h) fun hdelete =>
    wpj_if (fun h => keeps (reads (handleFriendList_reads request)) (by rw [h]; decide) hdelete) fun _ =>
    wpj_if (fun h => keeps (reads (queryTarget_reads request _)) (by rw [h]; decide) hdelete) fun _ =>
    wpj_if (fun h => keeps (reads (queryTarget_reads request _)) (by rw [h]; decide) hdelete) fun _ =>
    wpj_if wpj_sendMessage_deed fun hsend =>
    wpj_if (fun _ => keeps (reads (handleHistoryMessages_reads request)) hsend hdelete) fun _ =>
      keeps (uses_ite trivial trivial) hsend hdelete
  · refine (handleRegister_writes request).mono fun _ => Op.WritesOnly.keepsMessages ?_
    rintro _ ⟨u, hash, rfl⟩
    trivial
  · exact (serveLogin_logsIn request).mono fun _ => Op.LogsIn.keepsMessages
  · refine (handleUpdateUser_writes request).mono fun _ => Op.WritesOnly.keepsMessages ?_
    rintro _ (⟨i, u, rfl⟩ | ⟨i, hash, rfl⟩) <;> trivial
  · refine (handleAddFriend_writes request).mono fun _ => Op.WritesOnly.keepsMessages ?_
    rintro _ ⟨i, j, rfl⟩
    trivial

/-- **An event does to the messages what is noted of it**, and nothing else. The pair whose messages are
deleted is not read off the statement: it is the pair of the two names in the request. -/
theorem wpj_deed (e : Event) : wpj E (e.action P) (fun served l _ =>
    l.filterMap Deed.of = (deedOf w.db served l).toList) w := by
  have exits : ∀ {p : Action Unit} {c : Socket}, p.Uses (Op.Exits c) → p.Uses Op.KeepsMessages :=
    fun hp => hp.mono fun _ => Op.Exits.keepsMessages
  have idle : ∀ {p : Action Unit}, p.Uses Op.KeepsMessages → wpj E (do
      p
      return none) (fun served l _ => l.filterMap Deed.of = (deedOf w.db served l).toList) w := by
    intro p hp
    refine (wpj_bind _ _).mpr (wpj_mono (wpj_keepsMessages hp) fun _ l _ hl => ?_)
    simp only [wpj_pure, List.append_nil]
    exact hl
  cases e with
  | accept c =>
    refine idle (.bind (uses_op trivial) fun _ => .bind (uses_op trivial) fun n => uses_ite ?_ ?_)
    · exact .bind (uses_op trivial) fun _ => uses_op trivial
    · exact .bind (uses_op trivial) fun _ => uses_op trivial
  | hangup c => exact idle (exits (endConnection_exits c))
  | heartbeatScan =>
    exact idle (heartbeatCheck_exits.mono fun _ h => h.elim fun _ ho => ho.keepsMessages)
  | request c parsed =>
    show wpj E (handleData P c parsed) _ w
    unfold handleData
    refine (wpj_bind _ _).mpr (wpj_dispatchRequest ?_ ?_ ?_)
    · intro _
      exact wp_say fun _ w' _ => rfl
    · intro e root garbage w' _ _ _
      refine (wpj_bind _ _).mpr (wpj_mono (wpj_keepsMessages (exits (failConnection_exits c)))
        fun _ l _ hl => ?_)
      simp only [wpj_pure, List.append_nil, List.nil_append]
      exact hl
    · intro root garbage request w₁ _ _ hw₁
      refine wpj_mono (wpj_serve_deed request) fun response l w₂ hl => wp_say fun _ w₃ _ => ?_
      simp only [wpj_pure, List.append_nil]
      rw [hl, hw₁.db]

/-- A message that is accepted is between two users; another one has done nothing. -/
def Resolves (request : Request) (w : World P) (response : Response) (w' : World P) : Prop :=
  (response.code = 0 → ∃ i j, w.db.idOf request.username = some i ∧
    w.db.idOf request.targetUsername = some j) ∧ (response.code ≠ 0 → w'.db = w.db)

theorem wp_serve_sendMessage {request : Request} (htype : request.type = bytes "SEND_MSG") :
    wp E (serve P request) (Resolves request w) w := by
  have hserve : serve P request = MessageManager.handleSendMessage request := by
    unfold serve
    rw [htype]
    rfl
  rw [hserve]
  refine wp_of_wpj (wpj_handleSendMessage (fun response l hcode _ => ?_) ?_)
  · exact ⟨fun h => absurd h hcode, fun _ => rfl⟩
  · intro i j now db said l w₁ w' hi hj _ _ _ _
    exact ⟨fun _ => ⟨i, j, hi, hj⟩, fun h => absurd rfl h⟩

theorem wp_event_sendMessage {e : Event} {request : Request} {response : Response}
    (htype : request.type = bytes "SEND_MSG") : wp E (e.action P) (fun served w' =>
      served = some (request, response) → Resolves request w response w') w := by
  cases e with
  | accept c => exact (wp_bind _ _).mpr (Effect.Prog.wp_of_forall fun _ _ => nofun)
  | hangup c => exact (wp_bind _ _).mpr (Effect.Prog.wp_of_forall fun _ _ => nofun)
  | heartbeatScan => exact (wp_bind _ _).mpr (Effect.Prog.wp_of_forall fun _ _ => nofun)
  | request c parsed =>
    show wp E (handleData P c parsed) _ w
    unfold handleData
    refine (wp_bind _ _).mpr (wp_dispatchRequest_speaks ?_ ?_ ?_)
    · exact fun _ => wp_say fun _ _ _ => nofun
    · exact fun _ _ _ _ _ _ _ => (wp_bind _ _).mpr (Effect.Prog.wp_of_forall fun _ _ => nofun)
    · intro root garbage request' w₁ _ _ hw₁
      by_cases htype' : request'.type = bytes "SEND_MSG"
      · refine wp_mono (wp_serve_sendMessage htype') fun response' w₂ h₂ => wp_say fun _ w₃ h₃ => ?_
        rintro ⟨⟩
        obtain ⟨hids, hdb⟩ := h₂
        rw [hw₁.db] at hids hdb
        exact ⟨hids, fun hcode => h₃.db.trans (hdb hcode)⟩
      · refine Effect.Prog.wp_of_forall fun response' w₂ => wp_say fun _ w₃ _ => ?_
        rintro ⟨⟩
        exact absurd htype htype'

theorem step_sendMessage {e : Event} {cs : List Choice} {request : Request} {response : Response}
    (h : (step w e cs).1 = some (request, response)) (htype : request.type = bytes "SEND_MSG") :
    Resolves request w response (step w e cs).2 := by
  unfold step at h ⊢
  split
  · rename_i he
    rw [if_pos he] at h
    exact run_of_wp (wp_event_sendMessage (E := .any) htype) cs (fun ch _ => Env.ok_any ch) h
  · rename_i he
    rw [if_neg he] at h
    cases h

/-! ## Rows -/

/-- Every row that was there before is as it was, or gone; it may have been marked. -/
structure KeepsRows (db db' : Database P) : Prop where
  next : db.nextMessageId ≤ db'.nextMessageId
  rows : ∀ m' ∈ db'.messages, m'.messageId < db.nextMessageId →
    ∃ m ∈ db.messages, m'.messageId = m.messageId ∧ m'.triple = m.triple ∧
      (m.isRead = true → m'.isRead = true)

theorem KeepsRows.of_messages {db db' : Database P} (hnext : db'.nextMessageId = db.nextMessageId)
    (hmessages : ∀ m ∈ db'.messages, m ∈ db.messages) : KeepsRows db db' :=
  ⟨hnext ▸ Nat.le_refl _, fun m hm _ => ⟨m, hmessages m hm, rfl, rfl, id⟩⟩

theorem KeepsRows.refl (db : Database P) : KeepsRows db db := .of_messages rfl fun _ => id

theorem KeepsRows.trans {db db' db'' : Database P} (h : KeepsRows db db') (h' : KeepsRows db' db'') :
    KeepsRows db db'' := by
  refine ⟨h.next.trans h'.next, fun m'' hm'' hlt => ?_⟩
  obtain ⟨m', hm', hid', htriple', hread'⟩ := h'.rows m'' hm'' (Nat.lt_of_lt_of_le hlt h.next)
  obtain ⟨m, hm, hid, htriple, hread⟩ := h.rows m' hm' (hid' ▸ hlt)
  exact ⟨m, hm, hid'.trans hid, htriple'.trans htriple, fun hr => hread' (hread hr)⟩

theorem KeepsRows.insertMessage {db db' : Database P} {now : Nat} {i j : UserId} {content : Str}
    (h : db.insertMessage now i j content = some db') : KeepsRows db db' := by
  obtain ⟨hmessages, _, _, hnext⟩ := Database.tables_of_insertMessage h
  refine ⟨hnext ▸ Nat.le_succ _, fun m hm hlt => ?_⟩
  rw [hmessages] at hm
  rcases List.mem_append.mp hm with hm | hm
  · exact ⟨m, hm, rfl, rfl, id⟩
  · rw [List.mem_singleton.mp hm] at hlt
    exact absurd hlt (Nat.lt_irrefl _)

theorem KeepsRows.markRead (db : Database P) (i j : UserId) : KeepsRows db (db.markRead i j) := by
  refine ⟨Nat.le_refl _, fun m' hm' _ => ?_⟩
  obtain ⟨m, hm, rfl⟩ := List.mem_map.mp hm'
  refine ⟨m, hm, Database.readRow_messageId i j m, ?_, fun hread => ?_⟩
  · unfold Database.readRow
    split <;> rfl
  · unfold Database.readRow
    split
    · rfl
    · exact hread

theorem Database.keepsRows_exec {db db' : Database P} {st : Stmt} {now : Nat} {rank : Nat → Nat}
    {r : st.Res} (h : db.exec now rank st = some (r, db')) : KeepsRows db db' := by
  have hdb : (db.exec now rank st).map Prod.snd = some db' := by rw [h]; rfl
  -- a statement that leaves the messages and their counter alone
  have other : db'.messages = db.messages → db'.nextMessageId = db.nextMessageId →
      KeepsRows db db' := fun hmessages hnext => .of_messages hnext fun m hm => hmessages ▸ hm
  cases st with
  | insertUser u hash =>
    obtain ⟨_, hmessages, hnext⟩ := tables_of_insertUser (of_tried hdb)
    exact other hmessages hnext
  | updateUsername i u =>
    obtain ⟨_, hmessages, hnext⟩ := tables_of_updateUsername (of_tried hdb)
    exact other hmessages hnext
  | insertFriend i j =>
    obtain ⟨_, _, hmessages, hnext⟩ := tables_of_insertFriend (of_tried hdb)
    exact other hmessages hnext
  | insertMessage i j content => exact .insertMessage (of_tried hdb)
  | deleteMessages i j =>
    rw [← Option.some.inj hdb]
    exact .of_messages rfl fun m hm => List.mem_of_mem_filter hm
  | markRead i j => exact Option.some.inj hdb ▸ .markRead db i j
  | _ =>
    rw [← Option.some.inj hdb]
    exact .of_messages rfl fun _ => id

theorem World.keepsRows_handle (o : Op) (ch : Choice) (w : World P) :
    KeepsRows w.db (World.handle o ch w).2.db := by
  rcases World.db_handle o ch w with hdb | ⟨st, r, rfl, hex⟩
  · rw [hdb]
    exact .refl w.db
  · exact Database.keepsRows_exec hex

theorem keepsRows_step (w : World P) (e : Event × List Choice) : KeepsRows w.db (next w e).db := by
  have hwp : wp .any (e.1.action P) (fun _ w' => KeepsRows w.db w'.db) w :=
    Effect.Prog.wp_frame (S := fun _ => True) (Effect.Prog.uses_of_forall _ fun _ => trivial)
      (fun w w' : World P => KeepsRows w.db w'.db) (fun w => .refl w.db) (fun _ _ _ => KeepsRows.trans)
      fun o ch t _ _ => World.keepsRows_handle o ch t
  unfold next step
  split
  · exact run_of_wp hwp e.2 fun ch _ => Env.ok_any ch
  · exact .refl w.db

theorem keepsRows_run (w : World P) (es : List (Event × List Choice)) :
    KeepsRows w.db (Effect.runAll next w es).db := by
  induction es generalizing w with
  | nil => exact .refl w.db
  | cons e es ih => exact (keepsRows_step w e).trans (ih (next w e))

/-! ## Runs -/

theorem triples_step (w : World P) (e : Event × List Choice) :
    (next w e).db.triples = (deed w e).toList.foldl Deed.apply w.db.triples := by
  have hdeed := run_of_wpj (wpj_deed (E := .any) (w := w) e.1) e.2 fun ch _ => Env.ok_any ch
  unfold next deed step
  split
  · rw [triples_run, hdeed]
  · rfl

theorem deed_ne_none {e : Event × List Choice} {request : Request} {response : Response}
    (h : (step w e.1 e.2).1 = some (request, response)) (htype : request.type = bytes "SEND_MSG")
    (hcode : response.code = 0) : deed w e ≠ none := by
  obtain ⟨i, j, hi, hj⟩ := (step_sendMessage h htype).1 hcode
  unfold deed deedOf pairOf
  rw [h]
  dsimp only
  rw [if_pos htype, if_pos hcode, hi, hj]
  exact nofun

/-- **Messages are conserved**, in every run and whatever fails. Between two users the rows are those of
the start, unless they were cleared, and after them one for each `SEND_MSG` between the two that was
answered 0 since a `DEL_FRIEND` between the two last deleted messages; sender, receiver and content are
those that the request names. A `SEND_MSG` that is refused stores nothing, and a row that is still there
says what it said, and is read if it was. -/
theorem conserved_run (db : Database P) (es es' : List (Event × List Choice)) :
    let w := Effect.runAll next (World.start db) es
    let deeds := Effect.noted next deed (World.start db) es
    (∀ a b, w.db.triplesBetween a b =
      (if deeds.any (Deed.clears a b) then [] else db.triplesBetween a b) ++
        (Effect.sinceCleared (Deed.clears a b) deeds).filterMap (Deed.sentBetween a b)) ∧
    (∀ e request response, (step w e.1 e.2).1 = some (request, response) →
      request.type = bytes "SEND_MSG" →
      (response.code = 0 → deed w e ≠ none) ∧
        (response.code ≠ 0 → (next w e).db.messages = w.db.messages)) ∧
    ∀ m ∈ w.db.messages, ∀ m' ∈ (Effect.runAll next w es').db.messages,
      m'.messageId = m.messageId → m'.triple = m.triple ∧ (m.isRead = true → m'.isRead = true) := by
  refine ⟨fun a b => ?_, fun e request response hserved htype => ?_, fun m hm m' hm' hid => ?_⟩
  · have hstep : ∀ w : World P, ∀ e, (next w e).db.triplesBetween a b =
        (deed w e).toList.foldl (fun l d => if d.clears a b then [] else
          l ++ (d.sentBetween a b).toList) (w.db.triplesBetween a b) := by
      intro w e
      rw [Database.triplesBetween_eq, triples_step, Database.triplesBetween_eq]
      cases deed w e with
      | none => rfl
      | some d => exact Deed.filter_apply a b _ d
    refine (Effect.runAll_noted (fun w : World P => w.db.triplesBetween a b) _ hstep _ es).trans ?_
    exact Effect.foldl_log (fun _ _ => rfl) _ _
  · refine ⟨deed_ne_none hserved htype, fun hcode => ?_⟩
    exact congrArg Database.messages ((step_sendMessage hserved htype).2 hcode)
  · have hrows := keepsRows_run (Effect.runAll next (World.start db) es) es'
    obtain ⟨n, hn, hnid, htriple, hread⟩ := hrows.rows m' hm' (hid ▸ Database.messages_id_lt _ m hm)
    obtain rfl : n = m :=
      Effect.eq_of_key_eq _ (Database.messages_id _) hn hm (hnid.symm.trans hid)
    exact ⟨htriple, hread⟩

end LiteChat
