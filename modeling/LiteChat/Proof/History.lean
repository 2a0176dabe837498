import LiteChat.Proof.MessageOrder
import LiteChat.Proof.StatusQueries

/-!
# How much of a conversation a history query shows

`GetHistoryMessages` sorts by `send_time` from the first on and then applies the limit, so what it
leaves out are the latest messages (`historyIsLatest_iff`); and the limit is 50 both for a count that is
not positive and for one that is too large. A count that is too large for an `int` never gets that far:
`asInt` throws while the fields are read, and the connection ends (`answerTo_history`).

Both results are about bodies and what a client is answered to them. `answerTo_eq` takes an answer apart,
once: the heartbeat of the session, the fields, the name that acts, and the handler on the choices that
are left.

Where the body gives no count, `request.count` is what was in memory. As every positive number up to 200
is a limit of its own, that shows as soon as a conversation has two messages (`countIsMoot_iff`).
-/

namespace LiteChat

open LiteChat.Action MessageManager Server

variable {P : Platform} {E : Env} {w : World P} {c : Socket} {root : Json}

/-! ## What a body is answered -/

/-- What the client is answered, or the exception that ends its connection. -/
def answerTo (w : World P) (c : Socket) (root : Json) (cs : List Choice) :
    Except JsonException (Option Response) :=
  ((dispatchRequest P c (some root)).run cs w).1.map (Option.map Prod.snd)

/-- What the heartbeat of a request leaves of the choices, by the name of the session: one operation
looks the session up, and if there is one another writes the time into it. -/
def afterBeat (login : Option Str) (cs : List Choice) : List Choice :=
  match login with
  | none => cs.tail
  | some _ => cs.tail.tail

/-- And what finding out who makes it leaves of them: the name is read once to see that somebody is
logged in, and once more to act as him. -/
def afterLookups (login : Option Str) (cs : List Choice) : List Choice :=
  match login with
  | none => cs.tail
  | some u => if u = [] then cs.tail.tail else cs.tail.tail.tail

theorem left_refresh_eq (c : Socket) (cs : List Choice) :
    Effect.Prog.left World.handle (refresh c) cs w =
      Effect.Prog.left World.handle (match w.sessions.getSession c with
        | none => pure ()
        | some session => updateHeartbeat session : Action Unit) cs.tail w := rfl

theorem left_refresh (c : Socket) (cs : List Choice) :
    Effect.Prog.left World.handle (refresh c) cs w = afterBeat (w.sessions.loginAt c) cs := by
  rw [left_refresh_eq]
  cases hp : w.sessions.getSession c with
  | none =>
    rw [SessionManager.getSession_eq_none.mp hp]
    rfl
  | some p =>
    obtain ⟨s, -, -, hl⟩ := SessionManager.heap_of_getSession hp
    rw [hl]
    rfl

theorem run_pure_bind {α β : Type} (a : α) (k : α → Action β) (cs : List Choice) :
    ((pure a : Action α) >>= k).run cs w = (k a).run cs w := rfl

theorem run_identify_eq {α : Type} (c : Socket) (request : Request) (k : Request → Action α)
    (cs : List Choice) : (identify c request >>= k).run cs w =
      (k (identified w.sessions.logins c request)).run
        (afterLookups (w.sessions.loginAt c) cs) w := by
  unfold identified SessionManager.logins afterLookups
  dsimp only
  cases hl : w.sessions.loginAt c with
  | none =>
    unfold identify
    rw [bind_bind, run_getSession, SessionManager.getSession_eq_none.mpr hl]
    exact run_pure_bind _ _ _
  | some u =>
    by_cases hu : u = []
    · obtain ⟨p, s, hp, hs, rfl⟩ := SessionManager.heap_of_loginAt hl
      unfold identify
      rw [bind_bind, run_getSession, hp]
      dsimp only
      rw [bind_bind, run_getUsername hs, if_pos hu, if_pos hu, run_pure_bind, Option.map_some,
        if_pos hu]
    · rw [run_identify hl hu, Option.map_some, if_neg hu]
      dsimp only
      rw [if_neg hu]

/-- A request is answered by its handler. -/
theorem answerTo_eq {type : Str} {node : Json} (hheader : header root = .ok (type, node))
    (cs : List Choice) : answerTo w c root cs =
      match readRequest type c ((afterBeat (w.sessions.loginAt c) cs).headD default).garbage node with
      | .error e => .error e
      | .ok request => .ok (some ((serve P (identified w.sessions.logins c request)).run
          (afterLookups (w.sessions.loginAt c) (afterBeat (w.sessions.loginAt c) cs).tail)
          ((refresh c).run cs w).2).1) := by
  have hl := (refreshed_run w c cs).loginAt c
  have hlogins := (refreshed_run w c cs).logins
  unfold answerTo dispatchRequest
  dsimp only
  rw [hheader]
  dsimp only
  rw [run_bind, left_refresh, run_uninitialised]
  generalize ((refresh c).run cs w).2 = w₁ at hl hlogins ⊢
  generalize afterBeat (w.sessions.loginAt c) cs = cs₁
  cases hread : readRequest type c (cs₁.headD default).garbage node with
  | error e => rfl
  | ok request =>
    dsimp only
    rw [run_identify_eq, run_bind, run_bind, hl, hlogins]
    rfl

theorem mem_of_mem_afterBeat {login : Option Str} {cs : List Choice} {ch : Choice}
    (h : ch ∈ afterBeat login cs) : ch ∈ cs := by
  unfold afterBeat at h
  split at h
  · exact List.mem_of_mem_tail h
  · exact List.mem_of_mem_tail (List.mem_of_mem_tail h)

theorem mem_of_mem_afterLookups {login : Option Str} {cs : List Choice} {ch : Choice}
    (h : ch ∈ afterLookups login cs) : ch ∈ cs := by
  unfold afterLookups at h
  split at h
  · exact List.mem_of_mem_tail h
  · split at h
    · exact List.mem_of_mem_tail (List.mem_of_mem_tail h)
    · exact List.mem_of_mem_tail (List.mem_of_mem_tail (List.mem_of_mem_tail h))

/-! ## The latest messages -/

/-- These rows are the latest of a conversation, as many as the limit allows. -/
structure AreLatest (rows : List MessageRow) (limit : Nat) (shown : List MessageRow) : Prop where
  count : shown.length = min limit rows.length
  distinct : shown.Nodup
  ofConversation : ∀ m ∈ shown, m ∈ rows
  sorted : shown.Pairwise fun m n => m.sendTime ≤ n.sendTime
  latest : ∀ m ∈ rows, m ∉ shown → ∀ n ∈ shown, m.sendTime ≤ n.sendTime

/-- The request that a history query comes to on the connection: whoever is logged in there asks. -/
def askedBy (w : World P) (c : Socket) (fields : Fields) (count : Int) : Request :=
  identified w.sessions.logins c (fields.request (bytes "HISTORY_MSG") c count)

/-- The choices that are left for the handler of a request. -/
def handlerChoices (w : World P) (c : Socket) (cs : List Choice) : List Choice :=
  afterLookups (w.sessions.loginAt c) (afterBeat (w.sessions.loginAt c) cs).tail

/-- A history query without a database failure, in either layout, is answered with the latest messages
between the two users, `min(count, 200)` of them if there are so many: the database has given their rows
and no others, and the client is told what they say. -/
def HistoryIsLatest (w : World P) (c : Socket) (fields : Fields) (count : Int) (i j : UserId) : Prop :=
  ∀ root, fields.Body (bytes "HISTORY_MSG") root → ∀ cs : List Choice, (∀ ch ∈ cs, ch.dbOk = true) →
    ∃ shown : List MessageRow,
      AreLatest (w.db.messagesBetween i j) (min count.toNat 200) shown ∧
      historyGiven w (askedBy w c fields count) (handlerChoices w c cs) =
        some (shown.filterMap w.db.joined) ∧
      answerTo w c root cs = .ok (some
        ⟨0, bytes "查询成功", some (historyData (shown.filterMap w.db.joined))⟩)

theorem dbOk_getD {cs : List Choice} (h : ∀ ch ∈ cs, ch.dbOk = true) (n : Nat) :
    (cs.getD n default).dbOk = true := by
  rw [List.getD_eq_getElem?_getD]
  cases hn : cs[n]? with
  | none => rfl
  | some ch => exact h ch (List.mem_of_getElem? hn)

theorem one_le_limitOf (request : Request) : 1 ≤ limitOf request := by
  unfold limitOf
  split <;> omega

/-- A response with data is the one of a query that went through. -/
theorem wp_handleHistoryMessages_answer (request : Request) :
    wp E (handleHistoryMessages request) (fun response _ => ∀ data, response.data = some data →
      response = ⟨0, bytes "查询成功", some data⟩) w := by
  unfold handleHistoryMessages
  -- the refusals have no data
  have refused : ∀ (code : Int) (msg : Str) (data : Json), (Response.mk code msg none).data = some data →
      Response.mk code msg none = ⟨0, bytes "查询成功", some data⟩ := by
    intro code msg data hdata
    cases hdata
  refine wp_if (fun _ => refused _ _) fun _ => ?_
  simp only [wp_bind]
  refine Effect.Prog.wp_of_forall fun userId1 _ => ?_
  cases userId1 with
  | none => exact refused _ _
  | some userId1 =>
    simp only [wp_bind]
    refine Effect.Prog.wp_of_forall fun userId2 _ => ?_
    cases userId2 with
    | none => exact refused _ _
    | some userId2 =>
      simp only [wp_bind]
      refine Effect.Prog.wp_of_forall fun messages _ => ?_
      cases messages with
      | none => exact refused _ _
      | some messages =>
        intro data hdata
        obtain rfl := Option.some.inj hdata
        rfl

/-- What is given is what is answered. -/
theorem run_handleHistoryMessages {request : Request} {cs : List Choice} {messages : List Message}
    (h : historyGiven w request cs = some messages) : ((handleHistoryMessages request).run cs w).1 =
      ⟨0, bytes "查询成功", some (historyData messages)⟩ := by
  have hanswer := run_of_wp (wp_handleHistoryMessages_answer (E := .any) (w := w) request) cs
    fun ch _ => Env.ok_any ch
  refine hanswer (historyData messages) ?_
  rw [data_handleHistoryMessages, h]
  rfl

/-- The rows whose messages a history query gives. -/
def historyRows (w : World P) (request : Request) (i j : UserId) (rank : Nat → Nat) :
    List MessageRow :=
  (Database.bySendTime rank (w.db.messagesBetween i j)).take (limitOf request).toNat

theorem messagesBetween_subset (db : Database P) (i j : UserId) :
    ∀ m ∈ db.messagesBetween i j, m ∈ db.messages := fun _ hm => List.mem_of_mem_filter hm

theorem nodup_messagesBetween (db : Database P) (i j : UserId) : (db.messagesBetween i j).Nodup :=
  (List.Nodup.of_map _ db.messages_id).sublist List.filter_sublist

theorem historyRows_subset (w : World P) (request : Request) (i j : UserId) (rank : Nat → Nat) :
    ∀ m ∈ historyRows w request i j rank, m ∈ w.db.messagesBetween i j :=
  fun _ hm => (perm_bySendTime _ _).mem_iff.mp (List.mem_of_mem_take hm)

theorem length_historyRows (w : World P) (request : Request) (i j : UserId) (rank : Nat → Nat) :
    (historyRows w request i j rank).length =
      min (limitOf request).toNat (w.db.messagesBetween i j).length := by
  unfold historyRows
  rw [List.length_take, (perm_bySendTime _ _).length_eq]

theorem history_eq (w : World P) (request : Request) (i j : UserId) (rank : Nat → Nat) :
    w.db.history rank i j (limitOf request) =
      (historyRows w request i j rank).filterMap w.db.joined :=
  take_filterMap_joined (fun m hm => messagesBetween_subset _ i j m
    ((perm_bySendTime _ _).mem_iff.mp hm)) _

theorem historyGiven_eq (request : Request) {i j : UserId} (htarget : request.targetUsername ≠ [])
    (hi : w.db.idOf request.username = some i) (hj : w.db.idOf request.targetUsername = some j)
    {cs : List Choice} (hcs : ∀ ch ∈ cs, ch.dbOk = true) : historyGiven w request cs =
      some ((historyRows w request i j (cs.getD 2 default).rank).filterMap w.db.joined) := by
  unfold historyGiven
  rw [if_neg htarget, if_pos (dbOk_getD hcs 0), if_pos (dbOk_getD hcs 1), hi, hj]
  dsimp only
  rw [if_pos (dbOk_getD hcs 2), history_eq]

/-- Rows are known by their messages. -/
theorem filterMap_joined_inj {db : Database P} {rows rows' : List MessageRow}
    (hrows : ∀ m ∈ rows, m ∈ db.messages) (hrows' : ∀ m ∈ rows', m ∈ db.messages)
    (h : rows.filterMap db.joined = rows'.filterMap db.joined) : rows = rows' := by
  induction rows generalizing rows' with
  | nil =>
    cases rows' with
    | nil => rfl
    | cons m' rows' =>
      obtain ⟨msg', hjoined', -⟩ := Database.joined_eq (hrows' m' List.mem_cons_self)
      rw [List.filterMap_cons_some hjoined'] at h
      cases h
  | cons m rows ih =>
    obtain ⟨msg, hjoined, -, -, -, -, -, hid⟩ := Database.joined_eq (hrows m List.mem_cons_self)
    rw [List.filterMap_cons_some hjoined] at h
    cases rows' with
    | nil => cases h
    | cons m' rows' =>
      obtain ⟨msg', hjoined', -, -, -, -, -, hid'⟩ :=
        Database.joined_eq (hrows' m' List.mem_cons_self)
      rw [List.filterMap_cons_some hjoined'] at h
      obtain ⟨hmsg, hrest⟩ := List.cons.inj h
      have hsame : m = m' := Effect.eq_of_key_eq _ db.messages_id (hrows m List.mem_cons_self)
        (hrows' m' List.mem_cons_self) (by rw [← hid, ← hid', hmsg])
      rw [hsame, ih (fun n hn => hrows n (List.mem_cons_of_mem _ hn))
        (fun n hn => hrows' n (List.mem_cons_of_mem _ hn)) hrest]

/-- The rows of the query are the latest ones if the limit is right, and cuts nothing off or does not
matter. -/
theorem areLatest_historyRows {request : Request} {i j : UserId} {rank : Nat → Nat}
    (hcount : 1 ≤ request.count) :
    AreLatest (w.db.messagesBetween i j) (min request.count.toNat 200)
        (historyRows w request i j rank) ↔
      if request.count ≤ 200 then
        (w.db.messagesBetween i j).length ≤ request.count.toNat ∨
          ∀ m ∈ w.db.messagesBetween i j, ∀ n ∈ w.db.messagesBetween i j, m.sendTime = n.sendTime
      else (w.db.messagesBetween i j).length ≤ 50 := by
  have hpos : 0 < (limitOf request).toNat := by
    have := one_le_limitOf request
    omega
  have hordered : Effect.OrderedBy MessageRow.sendTime (w.db.messagesBetween i j)
      (Database.bySendTime rank (w.db.messagesBetween i j)) :=
    ⟨perm_bySendTime _ _, pairwise_bySendTime _ _⟩
  have hlatest := hordered.greatest_take_iff (nodup_messagesBetween w.db i j) hpos
  have hlength := length_historyRows w request i j rank
  have hrest : AreLatest (w.db.messagesBetween i j) (min request.count.toNat 200)
      (historyRows w request i j rank) ↔
      min (limitOf request).toNat (w.db.messagesBetween i j).length =
        min (min request.count.toNat 200) (w.db.messagesBetween i j).length ∧
      ((w.db.messagesBetween i j).length ≤ (limitOf request).toNat ∨
        ∀ m ∈ w.db.messagesBetween i j, ∀ n ∈ w.db.messagesBetween i j,
          m.sendTime = n.sendTime) := by
    rw [← hlatest]
    constructor
    · exact fun h => ⟨hlength.symm.trans h.count, h.latest⟩
    · rintro ⟨heq, hgreatest⟩
      refine ⟨hlength.trans heq, ?_, historyRows_subset w request i j rank, ?_, hgreatest⟩
      · exact (hordered.perm.nodup_iff.mpr (nodup_messagesBetween w.db i j)).sublist
          (List.take_sublist _ _)
      · exact hordered.sorted.sublist (List.take_sublist _ _)
  rw [hrest]
  -- the count asked for is the limit, or the limit is the default
  by_cases hsmall : request.count ≤ 200
  · have hlimit : limitOf request = request.count := if_neg (by omega)
    rw [if_pos hsmall, hlimit]
    refine ⟨fun h => h.2, fun h => ⟨?_, h⟩⟩
    rw [Nat.min_eq_left (by omega : request.count.toNat ≤ 200)]
  · have hlimit : (limitOf request).toNat = 50 := by
      rw [show limitOf request = 50 from if_pos (by omega)]
      rfl
    rw [if_neg hsmall, hlimit, Nat.min_eq_right (by omega : 200 ≤ request.count.toNat)]
    refine ⟨fun h => ?_, fun h => ⟨?_, .inl h⟩⟩
    · omega
    · omega

/-- **What a history query is answered**, as a query that `DispatchRequest` gets. A count that is no
`int` ends the connection: `asInt` throws, and no `try` is around it. Otherwise the answer is that of
the handler. -/
theorem answerTo_history (w : World P) (c : Socket) {fields : Fields} {count : Int}
    (hcount : fields.count = some count) {root : Json} (hroot : fields.Body (bytes "HISTORY_MSG") root)
    (cs : List Choice) : answerTo w c root cs =
      if -2147483648 ≤ count ∧ count ≤ 2147483647 then
        .ok (some ((handleHistoryMessages (askedBy w c fields count)).run (handlerChoices w c cs)
          ((refresh c).run cs w).2).1)
      else .error .typeMismatch := by
  obtain ⟨node, hheader, hread⟩ : ∃ node, header root = .ok (bytes "HISTORY_MSG", node) ∧
      ∀ garbage, readRequest (bytes "HISTORY_MSG") c garbage node =
        readRequest (bytes "HISTORY_MSG") c garbage (.obj fields.members) := by
    cases hroot with
    | flat => exact ⟨_, fields.header_flat _, fields.readRequest_flat _ c⟩
    | nested => exact ⟨_, fields.header_nested _, fun _ => rfl⟩
  have hserve : serve P (askedBy w c fields count) =
      handleHistoryMessages (askedBy w c fields count) := by
    have htype : (askedBy w c fields count).type = bytes "HISTORY_MSG" := by
      unfold askedBy identified
      split <;> rfl
    unfold serve
    rw [htype]
    rfl
  rw [answerTo_eq hheader, hread, Fields.readRequest_members hcount]
  by_cases hint : -2147483648 ≤ count ∧ count ≤ 2147483647
  · rw [if_pos hint, if_pos hint, ← hserve]
    rfl
  · rw [if_neg hint, if_neg hint]

theorem mem_of_mem_handlerChoices {cs : List Choice} {ch : Choice} (h : ch ∈ handlerChoices w c cs) :
    ch ∈ cs :=
  mem_of_mem_afterBeat (List.mem_of_mem_tail (mem_of_mem_afterLookups h))

/-- What the database gives does not depend on when the client was last heard of. -/
theorem historyGiven_db {w₁ : World P} (h : w₁.db = w.db) (request : Request) (cs : List Choice) :
    historyGiven w₁ request cs = historyGiven w request cs := by
  unfold historyGiven
  rw [h]

section Asked

variable {fields : Fields} {count : Int} {i j : UserId}

/-- Asked with all statements going through and rows of one second coming in the order of their ids, the
query shows the latest rows, if it always does. -/
theorem HistoryIsLatest.rows (h : HistoryIsLatest w c fields count i j)
    (hcount : fields.count = some count)
    (hi : w.db.idOf (askedBy w c fields count).username = some i)
    (hj : w.db.idOf (askedBy w c fields count).targetUsername = some j) :
    (askedBy w c fields count).targetUsername ≠ [] ∧ count ≤ 2147483647 ∧ -2147483648 ≤ count ∧
      AreLatest (w.db.messagesBetween i j) (min count.toNat 200)
        (historyRows w (askedBy w c fields count) i j id) := by
  have hnone : ∀ ch ∈ ([] : List Choice), ch.dbOk = true := nofun
  obtain ⟨shown, hlatest, hgiven, hanswer⟩ := h _ .flat [] hnone
  rw [answerTo_history w c hcount .flat] at hanswer
  -- a count that is no `int` would not be answered at all
  have hint : -2147483648 ≤ count ∧ count ≤ 2147483647 := by
    by_contra hno
    rw [if_neg hno] at hanswer
    cases hanswer
  have htarget : (askedBy w c fields count).targetUsername ≠ [] := by
    intro hnil
    rw [historyGiven, if_pos hnil] at hgiven
    cases hgiven
  have hchoices : ∀ ch ∈ handlerChoices w c [], ch.dbOk = true :=
    fun ch hch => absurd (mem_of_mem_handlerChoices hch) List.not_mem_nil
  have hrank : ((handlerChoices w c []).getD 2 default).rank = id := by
    have hempty : handlerChoices w c [] = [] :=
      List.eq_nil_iff_forall_not_mem.mpr fun ch hch =>
        absurd (mem_of_mem_handlerChoices hch) List.not_mem_nil
    rw [hempty]
    rfl
  have hrows := Option.some.inj ((historyGiven_eq _ htarget hi hj hchoices).symm.trans hgiven)
  rw [hrank] at hrows
  -- no two rows look alike once they have their names, so the rows shown are the latest
  have hsame := filterMap_joined_inj
    (fun m hm => messagesBetween_subset _ i j m (historyRows_subset w _ i j id m hm))
    (fun m hm => messagesBetween_subset _ i j m (hlatest.ofConversation m hm)) hrows
  exact ⟨htarget, hint.2, hint.1, hsame ▸ hlatest⟩

theorem askedBy_count (w : World P) (c : Socket) (fields : Fields) (count : Int) :
    (askedBy w c fields count).count = count := by
  unfold askedBy identified
  split <;> rfl

/-- `areLatest_historyRows`, of the request that the fields make. -/
theorem areLatest_asked (hpos : 1 ≤ count) (rank : Nat → Nat) :
    AreLatest (w.db.messagesBetween i j) (min count.toNat 200)
        (historyRows w (askedBy w c fields count) i j rank) ↔
      if count ≤ 200 then
        (w.db.messagesBetween i j).length ≤ count.toNat ∨
          ∀ m ∈ w.db.messagesBetween i j, ∀ n ∈ w.db.messagesBetween i j, m.sendTime = n.sendTime
      else (w.db.messagesBetween i j).length ≤ 50 := by
  have hsame := askedBy_count w c fields count
  have hlatest : AreLatest (w.db.messagesBetween i j)
      (min (askedBy w c fields count).count.toNat 200)
      (historyRows w (askedBy w c fields count) i j rank) ↔ _ :=
    areLatest_historyRows (hsame.symm ▸ hpos)
  rwa [hsame] at hlatest

/-- **A history query shows the latest messages** exactly if there is a target, the count is an `int`,
and the limit cuts nothing off that is later than the rest. For a count over 200 that limit is 50. -/
theorem historyIsLatest_iff (hcount : fields.count = some count) (hpos : 1 ≤ count)
    (hi : w.db.idOf (askedBy w c fields count).username = some i)
    (hj : w.db.idOf (askedBy w c fields count).targetUsername = some j) :
    HistoryIsLatest w c fields count i j ↔
      (askedBy w c fields count).targetUsername ≠ [] ∧ count ≤ 2147483647 ∧
      if count ≤ 200 then
        (w.db.messagesBetween i j).length ≤ count.toNat ∨
          ∀ m ∈ w.db.messagesBetween i j, ∀ n ∈ w.db.messagesBetween i j, m.sendTime = n.sendTime
      else (w.db.messagesBetween i j).length ≤ 50 := by
  constructor
  · intro h
    obtain ⟨htarget, hint, -, hlatest⟩ := h.rows hcount hi hj
    exact ⟨htarget, hint, (areLatest_asked hpos id).mp hlatest⟩
  · rintro ⟨htarget, hint, hcut⟩ root hroot cs hcs
    have hchoices : ∀ ch ∈ handlerChoices w c cs, ch.dbOk = true :=
      fun ch hch => hcs ch (mem_of_mem_handlerChoices hch)
    have hgiven := historyGiven_eq _ htarget hi hj hchoices
    refine ⟨_, (areLatest_asked hpos _).mpr hcut, hgiven, ?_⟩
    rw [answerTo_history w c hcount hroot, if_pos ⟨by omega, hint⟩]
    rw [← historyGiven_db (refreshed_run w c cs).db] at hgiven
    rw [run_handleHistoryMessages hgiven]

end Asked

/-- Alice has written to Bob twice, the second time a second later. -/
def aliceWrote : World asciiCi :=
  Effect.runAll next (World.start Database.empty)
    (aliceRegisters ++ [bobRegisters, aliceLogsIn, aliceSends "one",
      ((aliceSends "two").1, List.replicate 12 ⟨true, true, 1, id, 0⟩)])

/-- The fields of a question after so many messages with Bob. -/
def bobFields (count : Int) : Fields where
  username := none
  password := none
  newUsername := none
  newPassword := none
  verifyPassword := none
  targetUsername := some (bytes "bob")
  content := none
  count := some count

def aliceAsks (count : Int) : Request where
  type := bytes "HISTORY_MSG"
  username := bytes "alice"
  password := []
  newUsername := []
  newPassword := []
  verifyPassword := []
  targetUsername := bytes "bob"
  content := []
  count := count
  clientSocket := 1

theorem aliceWrote_rows : aliceWrote.db.idOf (bytes "alice") = some 1 ∧
    aliceWrote.db.idOf (bytes "bob") = some 2 ∧ aliceWrote.db.messagesBetween 1 2 =
      [⟨1, 1, 2, bytes "one", 0, false⟩, ⟨2, 1, 2, bytes "two", 1, false⟩] := by decide

/-- Two messages are all that Alice can ask for. -/
theorem historyIsLatest_alice : HistoryIsLatest aliceWrote 1 (bobFields 2) 2 1 2 := by
  obtain ⟨halice, hbob, hrows⟩ := aliceWrote_rows
  refine (historyIsLatest_iff rfl (by decide) halice hbob).mpr ⟨by decide, by decide, ?_⟩
  rw [hrows]
  decide

/-- Asked for one message, the server shows the first. -/
theorem not_historyIsLatest : ¬ ∀ (w : World asciiCi) (c : Socket) (fields : Fields) (count : Int)
    (i j : UserId), fields.count = some count → 1 ≤ count →
      w.db.idOf (askedBy w c fields count).username = some i →
      w.db.idOf (askedBy w c fields count).targetUsername = some j →
      (askedBy w c fields count).targetUsername ≠ [] → HistoryIsLatest w c fields count i j := by
  intro h
  obtain ⟨halice, hbob, hrows⟩ := aliceWrote_rows
  have hlatest := h aliceWrote 1 (bobFields 1) 1 1 2 rfl (by decide) halice hbob (by decide)
  obtain ⟨-, -, -, hshown⟩ := hlatest.rows rfl halice hbob
  have hlimit := (areLatest_asked (by decide) id).mp hshown
  rw [hrows] at hlimit
  exact absurd hlimit (by decide)

/-! ## Without a count -/

/-- A choice with other leftovers in memory. -/
def Choice.garbled (garbage : Int) (ch : Choice) : Choice := { ch with garbage := garbage }

/-- Whatever memory held, the answer is the one for 50 messages. -/
def CountIsMoot (w : World P) (c : Socket) (root : Json) : Prop :=
  ∀ (cs : List Choice) (garbage : Int), answerTo w c root (cs.map (Choice.garbled garbage)) =
    answerTo w c root (cs.map (Choice.garbled 50))

/-- The operations that do not look at memory that nobody initialised. -/
def Op.Definite (o : Op) : Prop := o ≠ .uninitialised

theorem handle_garbled (garbage : Int) (o : Op) (ch : Choice) (w : World P) (ho : o.Definite) :
    World.handle o (ch.garbled garbage) w = World.handle o ch w := by
  cases o with
  | uninitialised => exact absurd rfl ho
  | _ => rfl

theorem run_garbled {α : Type} {p : Action α} (hp : p.Uses Op.Definite) (garbage : Int)
    (cs : List Choice) (w : World P) :
    p.run (cs.map (Choice.garbled garbage)) w = p.run cs w :=
  (Effect.Prog.run_map (fun o ch w => handle_garbled garbage o ch w) hp cs w).1

theorem refresh_definite (c : Socket) : (refresh c).Uses Op.Definite := by
  refine .bind (uses_op nofun) fun q => ?_
  cases q with
  | none => trivial
  | some q => exact uses_op nofun

theorem handleHistoryMessages_definite (request : Request) :
    (handleHistoryMessages request).Uses Op.Definite := by
  refine uses_ite trivial (.bind (uses_caught nofun _ _) fun userId1 => ?_)
  cases userId1 with
  | none => trivial
  | some userId1 =>
    refine .bind (uses_caught nofun _ _) fun userId2 => ?_
    cases userId2 with
    | none => trivial
    | some userId2 =>
      refine .bind (uses_caught nofun _ _) fun messages => ?_
      cases messages <;> trivial

theorem map_afterBeat (g : Choice → Choice) (login : Option Str) (cs : List Choice) :
    afterBeat login (cs.map g) = (afterBeat login cs).map g := by
  unfold afterBeat
  cases login <;> simp only [List.map_tail]

theorem map_afterLookups (g : Choice → Choice) (login : Option Str) (cs : List Choice) :
    afterLookups login (cs.map g) = (afterLookups login cs).map g := by
  unfold afterLookups
  cases login with
  | none => simp only [List.map_tail]
  | some u => by_cases hu : u = [] <;> simp only [hu, if_true, if_false, List.map_tail]

theorem countField_free {node : Json} (h : node.member? (bytes "count") = none) (garbage : Int) :
    countField node garbage = (countField node 50).map fun _ => garbage := by
  unfold countField Json.isMember
  cases node with
  | obj members =>
    have hlookup : members.lookup (bytes "count") = none := h
    simp only [hlookup, bind, Except.bind]
    rfl
  | _ => rfl

section Accesses

variable {ε α β γ : Type}

theorem map_of_bind (x : Except ε α) (f : α → Except ε β) (g : β → γ) :
    (x >>= f).map g = x >>= fun a => (f a).map g := by
  cases x <;> rfl

theorem bind_of_map (x : Except ε α) (f : α → β) (g : β → Except ε γ) :
    x.map f >>= g = x >>= fun a => g (f a) := by
  cases x <;> rfl

end Accesses

/-- Without a count, what memory held is the count. -/
theorem readRequest_free {node : Json} (h : node.member? (bytes "count") = none) (type : Str)
    (c : Socket) (garbage : Int) : readRequest type c garbage node =
      (readRequest type c 50 node).map fun request => { request with count := garbage } := by
  unfold readRequest
  rw [countField_free h garbage]
  simp only [map_of_bind, bind_of_map]
  rfl

theorem identified_count (L : Spec.Logins Socket Str) (c : Socket) (request : Request) (n : Int) :
    identified L c { request with count := n } = { identified L c request with count := n } := by
  unfold identified
  split <;> rfl

/-- Two limits of at least one row show the same of a conversation of one message. -/
theorem history_short {db : Database P} {i j : UserId} (h : (db.messagesBetween i j).length ≤ 1)
    (rank : Nat → Nat) (request request' : Request) :
    db.history rank i j (limitOf request) = db.history rank i j (limitOf request') := by
  have hall : ∀ request : Request, db.history rank i j (limitOf request) =
      (Database.bySendTime rank (db.messagesBetween i j)).filterMap db.joined := by
    intro request
    have hpos := one_le_limitOf request
    refine List.take_of_length_le ((List.length_filterMap_le _ _).trans ?_)
    refine (perm_bySendTime rank (db.messagesBetween i j)).length_eq.trans_le (h.trans ?_)
    omega
  rw [hall, hall]

/-- The count of a request does not matter if there is no conversation, or one message. -/
theorem run_handleHistoryMessages_count (request : Request) (n : Int)
    (h : request.targetUsername ≠ [] → ∀ i j, w.db.idOf request.username = some i →
      w.db.idOf request.targetUsername = some j → (w.db.messagesBetween i j).length ≤ 1)
    (cs : List Choice) : ((handleHistoryMessages { request with count := n }).run cs w).1 =
      ((handleHistoryMessages request).run cs w).1 := by
  unfold handleHistoryMessages
  dsimp only
  by_cases htarget : request.targetUsername = []
  · rw [if_pos htarget, if_pos htarget]
  -- both runs look the users up in the same way, and the count comes in after that
  rw [if_neg htarget, if_neg htarget, run_getUserIdByUsername, run_getUserIdByUsername]
  cases hfirst : (if (cs.headD default).dbOk then w.db.idOf request.username else none) with
  | none => rfl
  | some i =>
    dsimp only
    rw [run_getUserIdByUsername, run_getUserIdByUsername]
    cases hsecond : (if (cs.tail.headD default).dbOk then w.db.idOf request.targetUsername
        else none) with
    | none => rfl
    | some j =>
      have hshort : (w.db.messagesBetween i j).length ≤ 1 := by
        refine h htarget i j ?_ ?_
        · exact (Option.ite_none_right_eq_some.mp hfirst).2
        · exact (Option.ite_none_right_eq_some.mp hsecond).2
      dsimp only
      rw [run_getHistoryMessages, run_getHistoryMessages]
      have hsame := history_short hshort (cs.tail.tail.headD default).rank request
        { request with count := n }
      unfold limitOf at hsame
      dsimp only at hsame
      rw [hsame]

/-- A history query that says nothing of how many messages it wants. -/
structure AsksHistory (root : Json) : Prop where
  type : (root.field "type").asString = .ok (bytes "HISTORY_MSG")
  free : (fieldsOf root).member? (bytes "count") = none

theorem AsksHistory.header (h : AsksHistory root) :
    header root = .ok (bytes "HISTORY_MSG", fieldsOf root) := by
  have hmembers : root.hasMembers = true := by
    have htype := h.type
    cases root with
    | null => rfl
    | obj members => rfl
    | _ => exact absurd (Except.ok.inj htype) (by decide)
  rw [header_eq, if_pos hmembers, h.type]
  rfl

/-- It is answered as if it asked for what was left in memory. -/
theorem AsksHistory.answerTo_eq (h : AsksHistory root) (w : World P) (c : Socket)
    (garbage : Int) (cs : List Choice) :
    answerTo w c root (cs.map (Choice.garbled garbage)) =
      (readRequest (bytes "HISTORY_MSG") c 50 (fieldsOf root)).map fun request =>
        some ((handleHistoryMessages { identified w.sessions.logins c request with
            count := (((afterBeat (w.sessions.loginAt c) cs).map
              (Choice.garbled garbage)).headD default).garbage }).run
          (afterLookups (w.sessions.loginAt c) (afterBeat (w.sessions.loginAt c) cs).tail)
          ((refresh c).run cs w).2).1 := by
  rw [LiteChat.answerTo_eq h.header, map_afterBeat, readRequest_free h.free,
    run_garbled (refresh_definite c)]
  cases hread : readRequest (bytes "HISTORY_MSG") c 50 (fieldsOf root) with
  | error e => rfl
  | ok request =>
    have hserve : ∀ n : Int, serve P { identified w.sessions.logins c request with count := n } =
        handleHistoryMessages { identified w.sessions.logins c request with count := n } := by
      intro n
      have htype : (identified w.sessions.logins c request).type = bytes "HISTORY_MSG" := by
        rw [← readRequest_type hread]
        unfold identified
        split <;> rfl
      unfold serve
      dsimp only
      rw [htype]
      rfl
    dsimp only [Except.map]
    rw [identified_count, hserve, ← List.map_tail, map_afterLookups,
      run_garbled (handleHistoryMessages_definite _)]

theorem length_filterMap_joined {db : Database P} {rows : List MessageRow}
    (hrows : ∀ m ∈ rows, m ∈ db.messages) : (rows.filterMap db.joined).length = rows.length := by
  induction rows with
  | nil => rfl
  | cons m rows ih =>
    obtain ⟨msg, hjoined, -⟩ := Database.joined_eq (hrows m List.mem_cons_self)
    rw [List.filterMap_cons_some hjoined, List.length_cons, List.length_cons,
      ih fun n hn => hrows n (List.mem_cons_of_mem _ hn)]

/-- An answer shows as many messages as the limit allows. -/
theorem length_of_data (request : Request) {i j : UserId} {cs : List Choice}
    {messages : List Message} (htarget : request.targetUsername ≠ [])
    (hi : w.db.idOf request.username = some i) (hj : w.db.idOf request.targetUsername = some j)
    (hcs : ∀ ch ∈ cs, ch.dbOk = true)
    (h : ((handleHistoryMessages request).run cs w).1.data = some (historyData messages)) :
    messages.length = min (limitOf request).toNat (w.db.messagesBetween i j).length := by
  rw [data_handleHistoryMessages, historyGiven_eq request htarget hi hj hcs] at h
  obtain ⟨hmember, -⟩ := List.cons.inj (Json.obj.inj (Option.some.inj h))
  have hlength := congrArg List.length (Json.arr.inj (Prod.mk.inj hmember).2)
  rw [List.length_map, List.length_map, length_filterMap_joined, length_historyRows] at hlength
  · exact hlength.symm
  · exact fun m hm => messagesBetween_subset _ i j m (historyRows_subset w request i j _ m hm)

/-- A limit of one message and a limit of 50 tell a conversation of two messages. -/
theorem length_le_one_of_run {request : Request} {i j : UserId} {cs : List Choice}
    (htarget : request.targetUsername ≠ []) (hi : w.db.idOf request.username = some i)
    (hj : w.db.idOf request.targetUsername = some j) (hcs : ∀ ch ∈ cs, ch.dbOk = true)
    (h : ((handleHistoryMessages { request with count := 1 }).run cs w).1 =
      ((handleHistoryMessages { request with count := 50 }).run cs w).1) :
    (w.db.messagesBetween i j).length ≤ 1 := by
  let one : Request := { request with count := 1 }
  let fifty : Request := { request with count := 50 }
  obtain ⟨messages, hone⟩ : ∃ messages, historyGiven w one cs = some messages :=
    ⟨_, historyGiven_eq one htarget hi hj hcs⟩
  have hdata : ((handleHistoryMessages one).run cs w).1.data = some (historyData messages) := by
    rw [data_handleHistoryMessages, hone]
    rfl
  have hshown := length_of_data one htarget hi hj hcs hdata
  have hshown' := length_of_data fifty htarget hi hj hcs
    ((congrArg Response.data h).symm.trans hdata)
  rw [hshown] at hshown'
  have hlimits : (limitOf one).toNat = 1 ∧ (limitOf fifty).toNat = 50 := ⟨rfl, rfl⟩
  rw [hlimits.1, hlimits.2] at hshown'
  omega

/-- All statements go through, and memory is as it may be. -/
def eightOk : List Choice := List.replicate 8 default

theorem garbage_eightOk (login : Option Str) (garbage : Int) :
    (((afterBeat login eightOk).map (Choice.garbled garbage)).headD default).garbage = garbage := by
  cases login <;> rfl

/-- The request, up to what its count is. -/
theorem AsksHistory.requestOf_eq (h : AsksHistory root) (L : Spec.Logins Socket Str) (c : Socket) :
    requestOf L c 50 root =
      (readRequest (bytes "HISTORY_MSG") c 50 (fieldsOf root)).map (identified L c) := by
  rw [Server.requestOf_eq, h.header]
  dsimp only
  cases readRequest (bytes "HISTORY_MSG") c 50 (fieldsOf root) <;> rfl

/-- What memory held shows in a conversation of two messages: with a leftover of 1 one of them is shown,
with one of 50 both. -/
theorem CountIsMoot.length_le_one (hmoot : CountIsMoot w c root) (h : AsksHistory root)
    {request : Request} {i j : UserId}
    (hrequest : requestOf w.sessions.logins c 50 root = .ok request)
    (htarget : request.targetUsername ≠ []) (hi : w.db.idOf request.username = some i)
    (hj : w.db.idOf request.targetUsername = some j) : (w.db.messagesBetween i j).length ≤ 1 := by
  have hanswers := hmoot eightOk 1
  rw [h.requestOf_eq] at hrequest
  rw [h.answerTo_eq, h.answerTo_eq, garbage_eightOk, garbage_eightOk] at hanswers
  cases hread : readRequest (bytes "HISTORY_MSG") c 50 (fieldsOf root) with
  | error e =>
    rw [hread] at hrequest
    cases hrequest
  | ok request₀ =>
    rw [hread] at hrequest hanswers
    obtain rfl := Except.ok.inj hrequest
    rw [← (refreshed_run w c eightOk).db] at hi hj ⊢
    refine length_le_one_of_run htarget hi hj ?_ (Option.some.inj (Except.ok.inj hanswers))
    intro ch hch
    have hmem := mem_of_mem_afterBeat (List.mem_of_mem_tail (mem_of_mem_afterLookups hch))
    rw [List.eq_of_mem_replicate hmem]
    rfl

/-- **A request without a count does not depend on leftover memory** exactly if it never gets to the
query, or the conversation has one message at most. -/
theorem countIsMoot_iff (h : AsksHistory root) (w : World P) (c : Socket) :
    CountIsMoot w c root ↔ ∀ request i j, requestOf w.sessions.logins c 50 root = .ok request →
      request.targetUsername ≠ [] → w.db.idOf request.username = some i →
      w.db.idOf request.targetUsername = some j → (w.db.messagesBetween i j).length ≤ 1 := by
  constructor
  · intro hmoot request i j hrequest htarget hi hj
    exact hmoot.length_le_one h hrequest htarget hi hj
  · intro hshort cs garbage
    rw [h.requestOf_eq] at hshort
    rw [h.answerTo_eq, h.answerTo_eq]
    cases hread : readRequest (bytes "HISTORY_MSG") c 50 (fieldsOf root) with
    | error e => rfl
    | ok request =>
      rw [hread] at hshort
      have hsame := run_handleHistoryMessages_count (w := ((refresh c).run cs w).2)
        (identified w.sessions.logins c request)
      rw [(refreshed_run w c cs).db] at hsame
      have hcount := fun n => hsame n fun htarget i j => hshort _ i j rfl htarget
      exact congrArg (fun response => Except.ok (some response))
        ((hcount _ _).trans (hcount _ _).symm)

/-- The question after Bob, without a count. -/
def historyWithBob : Json :=
  .obj [(bytes "type", .str (bytes "HISTORY_MSG")), (bytes "targetUsername", .str (bytes "bob"))]

theorem asksHistory_historyWithBob : AsksHistory historyWithBob := ⟨rfl, by decide⟩

/-- Alice has written to Bob once. -/
def aliceWroteOnce : World asciiCi :=
  Effect.runAll next (World.start Database.empty)
    (aliceRegisters ++ [bobRegisters, aliceLogsIn, aliceSends "one"])

theorem aliceWroteOnce_rows : aliceWroteOnce.db.idOf (bytes "alice") = some 1 ∧
    aliceWroteOnce.db.idOf (bytes "bob") = some 2 ∧ aliceWroteOnce.db.messagesBetween 1 2 =
      [⟨1, 1, 2, bytes "one", 0, false⟩] := by decide

/-- Her question after Bob is understood and gets to the query. A conversation of one message is shown
whole by every limit. -/
theorem countIsMoot_alice : CountIsMoot aliceWroteOnce 1 historyWithBob := by
  obtain ⟨halice, hbob, hrows⟩ := aliceWroteOnce_rows
  refine (countIsMoot_iff asksHistory_historyWithBob aliceWroteOnce 1).mpr ?_
  intro request i j hrequest _ hi hj
  have hasks : requestOf aliceWroteOnce.sessions.logins 1 50 historyWithBob = .ok (aliceAsks 50) := rfl
  obtain rfl := Except.ok.inj (hasks.symm.trans hrequest)
  obtain rfl := Option.some.inj (halice.symm.trans hi)
  obtain rfl := Option.some.inj (hbob.symm.trans hj)
  rw [hrows]
  exact Nat.le_refl 1

/-- With two messages, leftovers of 1 and of 50 show. -/
theorem not_countIsMoot : ¬ ∀ (w : World asciiCi) (c : Socket) (root : Json), AsksHistory root →
    CountIsMoot w c root := by
  intro h
  obtain ⟨halice, hbob, hrows⟩ := aliceWrote_rows
  have hrequest : requestOf aliceWrote.sessions.logins 1 50 historyWithBob = .ok (aliceAsks 50) := rfl
  have hshort := (h aliceWrote 1 _ asksHistory_historyWithBob).length_le_one
    asksHistory_historyWithBob hrequest (by decide) halice hbob
  rw [hrows] at hshort
  exact absurd hshort (by decide)

end LiteChat
