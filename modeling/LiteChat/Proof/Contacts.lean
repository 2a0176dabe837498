import LiteChat.Proof.Provenance

/-!
# Friendships and mail come and go as clients ask

Where messages come from is settled (LiteChat.Proof.Provenance). This is about where they go, and about
friendships, which come and go the same way: by the threads of clients who ask for it. The first of the two
users is whoever the thread had found logged in on its connection when it did so, or whom the body names if
it had found nobody, and the second is the one that the body is about (`AsksAbout`). A friendship is given
up after it was found, and the mail between two users after they were unfriended. Nothing else removes a
row: in every interleaving, mail that was not deleted so is there, complete and in the order in which it
was stored (`contactsKept_run`).
-/

namespace LiteChat

open LiteChat.Action Effect Server FriendManager

variable {P : Platform} {α : Type}

/-! ## What a thread has done -/

/-- The thread has made the two friends. -/
def Tied (own : List (Call Op Op.Res)) (i j : UserId) : Prop :=
  (⟨.sql (.insertFriend i j), (Except.ok () : Except SQLException Unit)⟩ : Call Op Op.Res) ∈ own

/-- The thread has ended that friendship. -/
def Untied (own : List (Call Op Op.Res)) (i j : UserId) : Prop :=
  (⟨.sql (.deleteFriend i j), (Except.ok () : Except SQLException Unit)⟩ : Call Op Op.Res) ∈ own

/-- The thread has found them to be friends. -/
def FoundFriends (own : List (Call Op Op.Res)) (i j : UserId) : Prop :=
  ∃ n : Nat, 0 < n ∧
    (⟨.sql (.countFriends i j), (Except.ok n : Except SQLException Nat)⟩ : Call Op Op.Res) ∈ own

/-- One of the bodies is a request of that type by `u` about `v`: `u` is whoever acts on the connection, or
is named by the body where nobody does; `v` is the target, or else the name in the body, and `u` himself
only if the body names nobody. -/
def AsksAbout (received : List (Option Json)) (type : String) (acting u v : Str) : Prop :=
  ∃ root node name target, some root ∈ received ∧ header root = .ok (bytes type, node) ∧
    stringField node "username" = .ok name ∧ stringField node "targetUsername" = .ok target ∧
    (acting = [] ∧ u = name ∨ u = acting) ∧
    v = if target ≠ [] then target else if name ≠ [] then name else u

/-- With the calls `own` behind it, a thread that receives these bodies on `c` was asked by `u`, whose number
is `i`, for something about `v`, whose number is `j`. -/
structure AskedAbout (received : List (Option Json)) (c : Socket) (own : List (Call Op Op.Res))
    (type : String) (u v : Str) (i j : UserId) : Prop where
  first : Named own u i
  second : Named own v j
  asks : AsksAbout received type (actingName c own) u v

section Told

variable {own own' : List (Call Op Op.Res)} {received : List (Option Json)} {type : String}
  {c : Socket} {u v : Str} {i j : UserId}

/-- A statement changes nothing about what a thread was asked. -/
theorem AskedAbout.sql (h : AskedAbout received c own type u v i j) (st : Stmt) (r : Op.Res (.sql st)) :
    AskedAbout received c (own ++ [⟨.sql st, r⟩]) type u v i j :=
  ⟨List.mem_append_left _ h.first, List.mem_append_left _ h.second,
    (actingName_sql c own st r).symm ▸ h.asks⟩

end Told

/-- The user that a request is about is named in its body, or is the one who makes it. -/
theorem ReadFrom.asksAbout {received : List (Option Json)} {own : List (Call Op Op.Res)} {c : Socket}
    {root : Json} {request : Request} (h : ReadFrom c own root request) (hmem : some root ∈ received)
    {type : String} (htype : request.type = bytes type) :
    AsksAbout received type (actingName c own) request.username (targetOf request) := by
  obtain ⟨node, garbage, body, hheader, hread, hacts⟩ := h
  obtain ⟨husername, htarget⟩ := readRequest_names hread
  rw [htype] at hheader
  refine ⟨root, node, body.username, body.targetUsername, hmem, hheader, husername, htarget, ?_, ?_⟩
  · rcases hacts with ⟨rfl, hnobody⟩ | rfl
    · exact .inl ⟨hnobody, rfl⟩
    · exact .inr rfl
  · unfold targetOf
    rcases hacts with ⟨rfl, _⟩ | rfl
    · by_cases ht : request.targetUsername = []
      · rw [if_pos ht, if_neg (not_not.mpr ht), ite_self]
      · rw [if_neg ht, if_pos ht]
    · -- a body that names a user, but no target, is about that user
      rw [targetUsername_actingAs]
      by_cases ht : body.targetUsername = []
      · rw [if_pos ht, if_neg (not_not.mpr ht)]
        by_cases hu : body.username = []
        · rw [if_pos hu, if_neg (not_not.mpr hu)]
        · rw [if_neg hu, if_pos hu]
      · rw [if_neg ht, if_neg ht, if_pos ht]

/-! ## What a thread may do -/

/-- A thread makes and ends friendships, and deletes mail, as its client asks. Nobody is made a friend of
himself, so an `ADD_FRIEND` names the friend. -/
def KeepsTies (received : List (Option Json)) (c : Socket) (own : List (Call Op Op.Res)) : Op → Prop
  | .sql (.insertFriend i j) => ∃ u v, u ≠ v ∧ AskedAbout received c own "ADD_FRIEND" u v i j
  | .sql (.deleteFriend i j) =>
      (∃ u v, AskedAbout received c own "DEL_FRIEND" u v i j) ∧ FoundFriends own i j
  | .sql (.deleteMessages i j) =>
      (∃ u v, AskedAbout received c own "DEL_FRIEND" u v i j) ∧ Untied own i j
  | _ => True

/-- The operations that do none of the three. -/
def Op.LeavesTies : Op → Prop
  | .sql (.insertFriend _ _) | .sql (.deleteFriend _ _) | .sql (.deleteMessages _ _) => False
  | _ => True

theorem Op.LeavesTies.keepsTies {received : List (Option Json)} {c : Socket}
    {own : List (Call Op Op.Res)} {o : Op}
    (ho : o.LeavesTies) : KeepsTies received c own o := by
  cases o with
  | sql st =>
    cases st with
    | insertFriend | deleteFriend | deleteMessages => exact absurd ho id
    | _ => trivial
  | _ => trivial

theorem Op.Reads.leavesTies {o : Op} (ho : o.Reads) : o.LeavesTies := by
  cases o with
  | sql st =>
    cases st with
    | insertFriend | deleteFriend | deleteMessages => cases ho
    | _ => trivial
  | _ => trivial

theorem Op.WritesOnly.leavesTies {S : Stmt → Prop} (hS : ∀ st, S st → (Op.sql st).LeavesTies) {o : Op}
    (ho : o.WritesOnly S) : o.LeavesTies := by
  rcases ho with ho | ⟨st, rfl, hst⟩
  · exact ho.leavesTies
  · exact hS st hst

theorem Op.LogsIn.leavesTies {o : Op} (ho : o.LogsIn) : o.LeavesTies := by
  cases ho with
  | reads ho => exact ho.leavesTies
  | _ => trivial

theorem Op.Exits.leavesTies {c : Socket} {o : Op} (ho : o.Exits c) : o.LeavesTies := by
  cases ho with
  | reads ho => exact ho.leavesTies
  | _ => trivial

theorem Op.Accepts.leavesTies {o : Op} (ho : o.Accepts) : o.LeavesTies := by
  cases ho <;> trivial

theorem Op.Dispatches.leavesTies {c : Socket} {o : Op} (ho : o.Dispatches c) : o.LeavesTies := by
  cases ho <;> trivial

section Threads

variable {received : List (Option Json)} {c : Socket} {own : List (Call Op Op.Res)}
  {request : Request}

theorem obeys_leavesTies {p : Action α} (hp : p.Uses Op.LeavesTies) :
    p.Obeys (KeepsTies received c) own :=
  hp.obeys fun _ _ ho _ => ho.keepsTies

/-- Two lookups by name, and the thread knows who asked for what. -/
theorem askedAbout_lookups {type : String} {u v : Str} (i j : UserId)
    (hasks : AsksAbout received type (actingName c own) u v) :
    AskedAbout received c
      (own ++ [⟨.sql (.selectUserId u), (Except.ok (some i) : Except SQLException (Option UserId))⟩] ++
        [⟨.sql (.selectUserId v), (Except.ok (some j) : Except SQLException (Option UserId))⟩])
      type u v i j := by
  refine ⟨List.mem_append_left _ List.mem_concat_self, List.mem_concat_self, ?_⟩
  have hname := (actingName_sql c (own ++ [⟨.sql (.selectUserId u),
    (Except.ok (some i) : Except SQLException (Option UserId))⟩]) (.selectUserId v)
      (Except.ok (some j) : Except SQLException (Option UserId))).trans (actingName_sql c own _ _)
  exact hname.symm ▸ hasks

/-- `HandleAddFriend` makes a friendship between the two users that it was asked about, both looked up,
and no other. -/
theorem handleAddFriend_keepsTies
    (hasks : AsksAbout received "ADD_FRIEND" (actingName c own) request.username (targetOf request)) :
    (handleAddFriend request).Obeys (KeepsTies received c) own := by
  unfold handleAddFriend
  split
  · exact Prog.obeys_pure _
  split
  · exact Prog.obeys_pure _
  rename_i hother
  refine obeys_caught trivial (fun r => ?_) fun _ => Prog.obeys_pure _
  cases r with
  | none => exact Prog.obeys_pure _
  | some i =>
    refine obeys_caught trivial (fun r => ?_) fun _ => Prog.obeys_pure _
    cases r with
    | none => exact Prog.obeys_pure _
    | some j =>
      have hasked := askedAbout_lookups i j hasks
      have insert : ∀ own', AskedAbout received c own' "ADD_FRIEND" request.username (targetOf request)
          i j → (do
            if ¬ (← FriendDAO.insertFriend i j) then
              return ⟨5001, bytes "数据库操作失败", none⟩
            return ⟨0, bytes "添加好友成功", none⟩ : Action Response).Obeys (KeepsTies received c) own' := by
        intro own' hasked
        refine obeys_caught ⟨_, _, hother, hasked⟩ (fun _ => ?_) fun _ => Prog.obeys_pure _
        split
        · exact Prog.obeys_pure _
        · exact Prog.obeys_pure _
      -- a friendship that is known is not made again; one that could not be looked up is
      refine obeys_caught trivial (fun (n : Nat) => ?_) fun e => ?_
      · split
        · exact Prog.obeys_pure _
        · exact insert _ (hasked.sql (.countFriends i j) (Except.ok n : Except SQLException Nat))
      · exact insert _ (hasked.sql (.countFriends i j) (Except.error e : Except SQLException Nat))

/-- `HandleDeleteFriend` ends the friendship that it has found between the two users that it was asked
about, and deletes their messages only after that. -/
theorem handleDeleteFriend_keepsTies
    (hasks : AsksAbout received "DEL_FRIEND" (actingName c own) request.username (targetOf request)) :
    (handleDeleteFriend request).Obeys (KeepsTies received c) own := by
  unfold handleDeleteFriend
  split
  · exact Prog.obeys_pure _
  refine obeys_caught trivial (fun r => ?_) fun _ => Prog.obeys_pure _
  cases r with
  | none => exact Prog.obeys_pure _
  | some i =>
    refine obeys_caught trivial (fun r => ?_) fun _ => Prog.obeys_pure _
    cases r with
    | none => exact Prog.obeys_pure _
    | some j =>
      -- both were looked up before the friendship was
      have hasked := askedAbout_lookups i j hasks
      refine obeys_caught trivial (fun (n : Nat) => ?_) fun _ => Prog.obeys_pure _
      split
      · exact Prog.obeys_pure _
      rename_i hfound
      have hpos : 0 < n := of_decide_eq_true (not_not.mp hfound)
      have hfriends := hasked.sql (.countFriends i j) (Except.ok n : Except SQLException Nat)
      refine obeys_caught ⟨⟨_, _, hfriends⟩, n, hpos, List.mem_concat_self⟩ (fun r => ?_)
        fun _ => Prog.obeys_pure _
      split
      · exact Prog.obeys_pure _
      have huntied := hfriends.sql (.deleteFriend i j) (Except.ok r : Except SQLException Unit)
      refine obeys_caught ⟨⟨_, _, huntied⟩, List.mem_concat_self⟩ (fun _ => ?_) fun _ => ?_
      · exact Prog.obeys_pure _
      · exact Prog.obeys_pure _

/-- Only two requests have to do with friendships. -/
theorem serve_leavesTies (hadd : request.type ≠ bytes "ADD_FRIEND")
    (hdelete : request.type ≠ bytes "DEL_FRIEND") : (serve P request).Uses Op.LeavesTies := by
  have reads : ∀ {p : Action Response}, p.Uses Op.Reads → p.Uses Op.LeavesTies :=
    fun hp => hp.mono fun _ => Op.Reads.leavesTies
  have writes : ∀ {S : Stmt → Prop} {p : Action Response}, (∀ st, S st → (Op.sql st).LeavesTies) →
      p.Uses (Op.WritesOnly S) → p.Uses Op.LeavesTies := fun hS hp => hp.mono fun _ ho => ho.leavesTies hS
  unfold serve
  rw [if_neg hadd, if_neg hdelete]
  refine uses_ite (writes (fun st hst => ?_) (handleRegister_writes request)) ?_
  · obtain ⟨u, h, rfl⟩ := hst
    trivial
  refine uses_ite ((serveLogin_logsIn request).mono fun _ => Op.LogsIn.leavesTies) ?_
  refine uses_ite (writes (fun st hst => ?_) (handleUpdateUser_writes request)) ?_
  · rcases hst with ⟨i, u, rfl⟩ | ⟨i, h, rfl⟩ <;> trivial
  refine uses_ite (reads (handleQueryStatus_reads request)) ?_
  refine uses_ite (reads (handleFriendList_reads request)) ?_
  refine uses_ite (reads (queryTarget_reads request _)) ?_
  refine uses_ite (reads (queryTarget_reads request _)) ?_
  refine uses_ite (writes (fun st hst => ?_) (handleSendMessage_writes request)) ?_
  · rcases hst with ⟨i, j, ⟨content, rfl⟩ | rfl⟩ <;> trivial
  refine uses_ite (reads (handleHistoryMessages_reads request)) ?_
  exact uses_ite trivial trivial

/-- **A request makes and ends friendships as its client asks.** -/
theorem serve_keepsTies {root : Json} (hmem : some root ∈ received)
    (hread : ReadFrom c own root request) : (serve P request).Obeys (KeepsTies received c) own := by
  by_cases hadd : request.type = bytes "ADD_FRIEND"
  · unfold serve
    rw [hadd, if_neg (by decide), if_neg (by decide), if_neg (by decide), if_neg (by decide), if_pos rfl]
    exact handleAddFriend_keepsTies (hread.asksAbout hmem hadd)
  by_cases hdelete : request.type = bytes "DEL_FRIEND"
  · unfold serve
    rw [hdelete, if_neg (by decide), if_neg (by decide), if_neg (by decide), if_neg (by decide),
      if_neg (by decide), if_pos rfl]
    exact handleDeleteFriend_keepsTies (hread.asksAbout hmem hdelete)
  · exact obeys_leavesTies (serve_leavesTies hadd hdelete)

end Threads

/-! ## What a call does -/

/-- Who wrote to whom, and what. -/
def MessageRow.mail (m : MessageRow) : UserId × UserId × Str := (m.senderId, m.receiverId, m.content)

/-- The mail between two users. -/
def Among (i j : UserId) (mail : UserId × UserId × Str) : Bool :=
  (mail.1 = i ∧ mail.2.1 = j) ∨ (mail.1 = j ∧ mail.2.1 = i)

/-- What a call stores. -/
def mailed : Call Op Op.Res → Option (UserId × UserId × Str)
  | ⟨.sql (.insertMessage i j content), (r : Except SQLException Unit)⟩ =>
    r.toOption.map fun _ => (i, j, content)
  | _ => none

/-- What a call does to friendships and mail. -/
structure Changes (c : Call Op Op.Res) (db db' : Database P) : Prop where
  made : ∀ f ∈ db'.friends, f ∈ db.friends ∨
    c = ⟨.sql (.insertFriend f.userId1 f.userId2), (Except.ok () : Except SQLException Unit)⟩
  ended : ∀ f ∈ db.friends, f ∈ db'.friends ∨
    c = ⟨.sql (.deleteFriend f.userId1 f.userId2), (Except.ok () : Except SQLException Unit)⟩
  there : ∀ i j, c = ⟨.sql (.insertFriend i j), (Except.ok () : Except SQLException Unit)⟩ →
    ⟨i, j⟩ ∈ db'.friends
  mail : db'.messages.map MessageRow.mail = db.messages.map MessageRow.mail ++ (mailed c).toList ∨
    ∃ i j, c = ⟨.sql (.deleteMessages i j), (Except.ok () : Except SQLException Unit)⟩ ∧
      db'.messages = db.messages.filter fun m => ¬ Database.MessageRow.between m i j

/-- A call that has to do with neither. -/
theorem Changes.none {c : Call Op Op.Res} {db db' : Database P} (hfriends : db'.friends = db.friends)
    (hmessages : db'.messages.map MessageRow.mail = db.messages.map MessageRow.mail)
    (htied : ∀ i j, c ≠ ⟨.sql (.insertFriend i j), (Except.ok () : Except SQLException Unit)⟩)
    (hmailed : mailed c = none) : Changes c db db' where
  made f hf := .inl (hfriends ▸ hf)
  ended f hf := .inl (hfriends.symm ▸ hf)
  there i j hc := absurd hc (htied i j)
  mail := by
    rw [hmailed, hmessages]
    exact .inl (List.append_nil _).symm

/-- A statement that is executed: of the two tables it touches one, by a row, or by what is between two
users. -/
theorem Database.changes_exec {db db' : Database P} {st : Stmt} {now : Nat} {rank : Nat → Nat}
    {r : st.Res} (hex : db.exec now rank st = some (r, db')) :
    Changes ⟨.sql st, (Except.ok r : Except SQLException st.Res)⟩ db db' := by
  have hdb : (db.exec now rank st).map Prod.snd = some db' := by rw [hex]; rfl
  cases st with
  | insertUser u h =>
    obtain ⟨hfriends, hmessages, _⟩ := tables_of_insertUser (of_tried hdb)
    exact .none hfriends (by rw [hmessages]) nofun rfl
  | updateUsername i u =>
    obtain ⟨hfriends, hmessages, _⟩ := tables_of_updateUsername (of_tried hdb)
    exact .none hfriends (by rw [hmessages]) nofun rfl
  | insertFriend i j =>
    obtain ⟨hfriends, _, hmessages, _⟩ := tables_of_insertFriend (of_tried hdb)
    refine ⟨fun f hf => ?_, fun f hf => .inl ?_, fun a b hc => ?_, .inl ?_⟩
    · rw [hfriends] at hf
      rcases List.mem_append.mp hf with hf | hf
      · exact .inl hf
      · rw [List.mem_singleton.mp hf]
        exact .inr rfl
    · rw [hfriends]
      exact List.mem_append_left _ hf
    · cases congrArg Sigma.fst hc
      rw [hfriends]
      exact List.mem_concat_self
    · rw [hmessages]
      exact (List.append_nil _).symm
  | deleteFriend i j =>
    cases Option.some.inj hdb
    refine ⟨fun f hf => .inl (List.mem_of_mem_filter hf), fun f hf => ?_, nofun, .inl ?_⟩
    · by_cases hij : f.userId1 = i ∧ f.userId2 = j
      · obtain ⟨rfl, rfl⟩ := hij
        exact .inr rfl
      · exact .inl (List.mem_filter.mpr ⟨hf, decide_eq_true hij⟩)
    · exact (List.append_nil _).symm
  | deleteMessages i j =>
    cases Option.some.inj hdb
    exact ⟨fun f hf => .inl hf, fun f hf => .inl hf, nofun, .inr ⟨i, j, rfl, rfl⟩⟩
  | insertMessage i j content =>
    obtain ⟨hmessages, _, hfriends, _⟩ := tables_of_insertMessage (of_tried hdb)
    refine ⟨fun f hf => .inl (hfriends ▸ hf), fun f hf => .inl (hfriends.symm ▸ hf), nofun, .inl ?_⟩
    rw [hmessages, List.map_append]
    rfl
  | markRead i j =>
    cases Option.some.inj hdb
    refine .none rfl ?_ nofun rfl
    show (db.messages.map _).map _ = _
    rw [List.map_map]
    refine List.map_congr_left fun m _ => ?_
    -- the mark of a message is no part of the mail
    show (readRow i j m).mail = m.mail
    unfold readRow
    split <;> rfl
  | _ =>
    cases Option.some.inj hdb
    exact .none rfl rfl nofun rfl

theorem World.changes_handle (o : Op) (ch : Choice) (w : World P) :
    Changes ⟨o, (World.handle o ch w).1⟩ w.db (World.handle o ch w).2.db := by
  by_cases hsql : ∃ st, o = .sql st
  · obtain ⟨st, rfl⟩ := hsql
    rcases w.execute_cases st ch with ⟨r, db, hex, hexec⟩ | hexec
    · show Changes ⟨.sql st, (w.execute st ch).1⟩ w.db (w.execute st ch).2.db
      rw [hexec]
      exact Database.changes_exec hex
    · show Changes ⟨.sql st, (w.execute st ch).1⟩ w.db (w.execute st ch).2.db
      rw [hexec]
      refine .none rfl rfl (fun i j hc => ?_) ?_
      · cases hc
      · cases st <;> rfl
  · rw [World.db_handle_of_ne fun st ho => hsql ⟨st, ho⟩]
    refine .none rfl rfl (fun i j hc => hsql ⟨_, congrArg Sigma.fst hc⟩) ?_
    cases o with
    | sql st => exact absurd ⟨st, rfl⟩ hsql
    | _ => rfl

/-! ## The friendships and the mail there have been -/

section Runs

variable {κ : Type} {work : Work κ} {w₀ w : World P} {calls : List (Worker κ × Call Op Op.Res)}

theorem workers_keepTies (work : Work κ) :
    ∀ k, (workers P work k).Obeys (KeepsTies (work.bodies k) (work.socketOf k)) [] :=
  obeys_workers (fun _ _ ho => ho.leavesTies.keepsTies) (fun _ _ _ ho _ => ho.leavesTies.keepsTies)
    (fun _ _ _ ho => ho.leavesTies.keepsTies) (fun _ _ _ ho _ => ho.leavesTies.keepsTies)
    fun _ _ _ _ => serve_keepsTies

/-- Only a thread that has a client can be asked for anything. -/
theorem AskedAbout.handling {k : Worker κ} {c : Socket} {own : List (Call Op Op.Res)} {type : String}
    {u v : Str} {i j : UserId} (h : AskedAbout (work.bodies k) c own type u v i j) :
    ∃ k', k = .handling k' := by
  obtain ⟨root, node, name, target, hmem, -⟩ := h.asks
  cases k with
  | handling k => exact ⟨k, rfl⟩
  | accepting | checking => exact absurd hmem List.not_mem_nil

/-- The mail that has been stored, in order. -/
def mailSince (calls : List (Worker κ × Call Op Op.Res)) : List (UserId × UserId × Str) :=
  calls.filterMap fun e => mailed e.2

theorem mailSince_concat (k : Worker κ) (c : Call Op Op.Res) :
    mailSince (calls ++ [(k, c)]) = mailSince calls ++ (mailed c).toList := by
  unfold mailSince
  rw [List.filterMap_append]
  cases h : mailed c <;> simp [h]

variable [DecidableEq κ]

/-- The thread of a client that asked for it has made the friendship. -/
def Befriended (work : Work κ) (calls : List (Worker κ × Call Op Op.Res)) (f : FriendRow) : Prop :=
  ∃ k, Made (Pool.own calls (.handling k)) ⟨.sql (.insertFriend f.userId1 f.userId2),
      (Except.ok () : Except SQLException Unit)⟩ fun before => ∃ u v, u ≠ v ∧
    AskedAbout (work.received k) (work.clientSocket k) before "ADD_FRIEND" u v f.userId1 f.userId2

/-- The thread of a client that asked for it has found the friendship, and ended it. -/
def Unfriended (work : Work κ) (calls : List (Worker κ × Call Op Op.Res)) (f : FriendRow) : Prop :=
  ∃ k, Made (Pool.own calls (.handling k)) ⟨.sql (.deleteFriend f.userId1 f.userId2),
      (Except.ok () : Except SQLException Unit)⟩ fun before =>
    (∃ u v, AskedAbout (work.received k) (work.clientSocket k) before "DEL_FRIEND" u v
      f.userId1 f.userId2) ∧ FoundFriends before f.userId1 f.userId2

/-- The thread of a client that asked for it has unfriended the two, and deleted their mail. -/
def Parted (work : Work κ) (calls : List (Worker κ × Call Op Op.Res)) (i j : UserId) : Prop :=
  ∃ k a b, ((a = i ∧ b = j) ∨ (a = j ∧ b = i)) ∧
    Made (Pool.own calls (.handling k)) ⟨.sql (.deleteMessages a b),
        (Except.ok () : Except SQLException Unit)⟩ fun before =>
      (∃ u v, AskedAbout (work.received k) (work.clientSocket k) before "DEL_FRIEND" u v a b) ∧
        Untied before a b

/-- Friendships and mail are those of the beginning and those made and stored since, without those that
were given up as clients asked. -/
structure ContactsKept (work : Work κ) (w₀ w : World P) (calls : List (Worker κ × Call Op Op.Res)) :
    Prop where
  friends : ∀ f ∈ w.db.friends, f ∈ w₀.db.friends ∨ Befriended work calls f
  kept : ∀ f : FriendRow, (f ∈ w₀.db.friends ∨ ∃ k, Tied (Pool.own calls k) f.userId1 f.userId2) →
    f ∈ w.db.friends ∨ Unfriended work calls f
  mail : ∀ i j, (w.db.messages.map MessageRow.mail).filter (Among i j) =
      (w₀.db.messages.map MessageRow.mail ++ mailSince calls).filter (Among i j) ∨
    Parted work calls i j

section Mono

variable {f : FriendRow} {i j : UserId} (e : Worker κ × Call Op Op.Res)

theorem own_grows (calls : List (Worker κ × Call Op Op.Res)) (k : Worker κ) :
    Pool.own calls k <+: Pool.own (calls ++ [e]) k :=
  Pool.own_prefix (List.prefix_append calls [e]) k

theorem Befriended.mono (h : Befriended work calls f) : Befriended work (calls ++ [e]) f := by
  obtain ⟨k, hmade⟩ := h
  exact ⟨k, hmade.mono (own_grows e calls (.handling k))⟩

theorem Unfriended.mono (h : Unfriended work calls f) : Unfriended work (calls ++ [e]) f := by
  obtain ⟨k, hmade⟩ := h
  exact ⟨k, hmade.mono (own_grows e calls (.handling k))⟩

theorem Parted.mono (h : Parted work calls i j) : Parted work (calls ++ [e]) i j := by
  obtain ⟨k, a, b, hab, hmade⟩ := h
  exact ⟨k, a, b, hab, hmade.mono (own_grows e calls (.handling k))⟩

end Mono

/-! A call that changes something was allowed to, so its thread was asked for it. -/

section Calls

variable {k : Worker κ} {o : Op} {r : o.Res}

/-- What the protocol allows of a call, it allowed with what was behind it. -/
theorem made_of_call {Q : List (Call Op Op.Res) → Prop} {c : Call Op Op.Res}
    (hcall : (⟨o, r⟩ : Call Op Op.Res) = c) (h : Q (Pool.own calls k)) :
    Made (Pool.own (calls ++ [(k, ⟨o, r⟩)]) k) c Q := by
  rw [Pool.own_append_self, hcall]
  exact .now h c

theorem allowed_of_call {C : Op → Prop} {c : Call Op Op.Res} (hok : C o)
    (hcall : (⟨o, r⟩ : Call Op Op.Res) = c) : C c.1 := by
  rw [← hcall]
  exact hok

theorem Befriended.of_call {f : FriendRow}
    (hok : KeepsTies (work.bodies k) (work.socketOf k) (Pool.own calls k) o)
    (hcall : (⟨o, r⟩ : Call Op Op.Res) = ⟨.sql (.insertFriend f.userId1 f.userId2),
      (Except.ok () : Except SQLException Unit)⟩) :
    Befriended work (calls ++ [(k, ⟨o, r⟩)]) f := by
  have hasked : ∃ u v, u ≠ v ∧ AskedAbout (work.bodies k) (work.socketOf k) (Pool.own calls k)
      "ADD_FRIEND" u v f.userId1 f.userId2 := allowed_of_call hok hcall
  obtain ⟨k', rfl⟩ := hasked.choose_spec.choose_spec.2.handling
  exact ⟨k', made_of_call hcall hasked⟩

theorem Unfriended.of_call {f : FriendRow}
    (hok : KeepsTies (work.bodies k) (work.socketOf k) (Pool.own calls k) o)
    (hcall : (⟨o, r⟩ : Call Op Op.Res) = ⟨.sql (.deleteFriend f.userId1 f.userId2),
      (Except.ok () : Except SQLException Unit)⟩) :
    Unfriended work (calls ++ [(k, ⟨o, r⟩)]) f := by
  have hasked : (∃ u v, AskedAbout (work.bodies k) (work.socketOf k) (Pool.own calls k)
      "DEL_FRIEND" u v f.userId1 f.userId2) ∧ FoundFriends (Pool.own calls k) f.userId1 f.userId2 :=
    allowed_of_call hok hcall
  obtain ⟨k', rfl⟩ := hasked.1.choose_spec.choose_spec.handling
  exact ⟨k', made_of_call hcall hasked⟩

theorem Parted.of_call {a b : UserId}
    (hok : KeepsTies (work.bodies k) (work.socketOf k) (Pool.own calls k) o)
    (hcall : (⟨o, r⟩ : Call Op Op.Res) = ⟨.sql (.deleteMessages a b),
      (Except.ok () : Except SQLException Unit)⟩) {i j : UserId}
    (hab : (a = i ∧ b = j) ∨ (a = j ∧ b = i)) : Parted work (calls ++ [(k, ⟨o, r⟩)]) i j := by
  have hasked : (∃ u v, AskedAbout (work.bodies k) (work.socketOf k) (Pool.own calls k)
      "DEL_FRIEND" u v a b) ∧ Untied (Pool.own calls k) a b := allowed_of_call hok hcall
  obtain ⟨k', rfl⟩ := hasked.1.choose_spec.choose_spec.handling
  exact ⟨k', a, b, hab, made_of_call hcall hasked⟩

end Calls

/-- Deleting the mail between two users leaves the mail between two others. -/
theorem filter_among {ms : List MessageRow} {i j a b : UserId}
    (hab : ¬ ((a = i ∧ b = j) ∨ (a = j ∧ b = i))) :
    ((ms.filter fun m => ¬ Database.MessageRow.between m a b).map MessageRow.mail).filter (Among i j) =
      (ms.map MessageRow.mail).filter (Among i j) := by
  rw [List.filter_map, List.filter_map, List.filter_filter]
  refine congrArg (List.map MessageRow.mail) (List.filter_congr fun m _ => ?_)
  by_cases hm : Among i j m.mail
  · have hnot : ¬ Database.MessageRow.between m a b := by
      intro hbetween
      have hij := of_decide_eq_true hm
      unfold MessageRow.mail at hij
      rcases hbetween with ⟨rfl, rfl⟩ | ⟨rfl, rfl⟩
      · exact hab (hij.imp (fun h => h) fun h => h)
      · exact hab (hij.symm.imp (fun h => ⟨h.2, h.1⟩) fun h => ⟨h.2, h.1⟩)
    simp [hm, hnot]
  · simp [hm]

/-- A call of any thread. What it changes it was allowed to change, so its thread was asked for it; and
what has been accounted for stays so, since the calls of a thread are only added to. -/
theorem ContactsKept.step (h : ContactsKept work w₀ w calls) {k : Worker κ} {o : Op}
    (hok : KeepsTies (work.bodies k) (work.socketOf k) (Pool.own calls k) o) (ch : Choice) :
    ContactsKept work w₀ (World.handle o ch w).2 (calls ++ [(k, ⟨o, (World.handle o ch w).1⟩)]) := by
  have hchanges := World.changes_handle o ch w
  refine ⟨fun f hf => ?_, fun f hf => ?_, fun i j => ?_⟩
  · rcases hchanges.made f hf with hf | hcall
    · exact (h.friends f hf).imp_right fun hmade => hmade.mono _
    · exact .inr (.of_call hok hcall)
  · have hbefore : (f ∈ w₀.db.friends ∨ ∃ k, Tied (Pool.own calls k) f.userId1 f.userId2) →
        f ∈ (World.handle o ch w).2.db.friends ∨
          Unfriended work (calls ++ [(k, ⟨o, (World.handle o ch w).1⟩)]) f := by
      intro hf
      rcases h.kept f hf with hf | hended
      · exact (hchanges.ended f hf).imp_right fun hcall => .of_call hok hcall
      · exact .inr (hended.mono _)
    rcases hf with hf | ⟨k', htied⟩
    · exact hbefore (.inl hf)
    · rcases Pool.mem_own_concat.mp htied with htied | ⟨rfl, hcall⟩
      · exact hbefore (.inr ⟨k', htied⟩)
      · exact .inl (hchanges.there f.userId1 f.userId2 hcall.symm)
  · rcases h.mail i j with hmail | hparted
    · rcases hchanges.mail with hstored | ⟨a, b, hcall, hdeleted⟩
      · refine .inl ?_
        rw [hstored, mailSince_concat, ← List.append_assoc, List.filter_append, hmail,
          ← List.filter_append]
      · by_cases hab : (a = i ∧ b = j) ∨ (a = j ∧ b = i)
        · exact .inr (.of_call hok hcall hab)
        · refine .inl ?_
          rw [hdeleted, filter_among hab, hmail, mailSince_concat, hcall]
          exact congrArg _ (congrArg _ (List.append_nil _).symm)
    · exact .inr (hparted.mono _)

/-- **Friendships and mail come and go only as clients ask**, in every interleaving of the server's
threads and whatever fails. A friendship was there at first, or was made by the thread of a client that
sent an `ADD_FRIEND` about the second of the two users. One that was there, or was made, is there still,
or the thread of a client that sent a `DEL_FRIEND` has found it and ended it. And the mail between two
users is what it was at first, with all that has been stored since in the order in which it was stored,
unless such a thread has unfriended them and deleted it. -/
theorem contactsKept_run (work : Work κ) (w₀ : World P) (es : List (Worker κ × Choice)) :
    ContactsKept work w₀ (runAll (Pool.step World.handle) (Pool.start (workers P work) w₀) es).shared
      (runAll (Pool.step World.handle) (Pool.start (workers P work) w₀) es).calls := by
  refine Pool.obeys_runAll (workers_keepTies work) ?_ (fun _ _ _ _ ch h hok => h.step hok ch) es
  refine ⟨fun f hf => .inl hf, fun f hf => .inl ?_, fun i j => .inl ?_⟩
  · rcases hf with hf | ⟨k, htied⟩
    · exact hf
    · cases htied
  · exact congrArg _ (List.append_nil _).symm

end Runs

end LiteChat
