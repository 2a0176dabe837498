import Mathlib.Algebra.BigOperators.Group.List.Basic
import LiteChat.Proof.Friends
import LiteChat.Proof.Exits

/-!
# How often a friend is listed, and what a deletion leaves

The join behind `GetFriendList` and `GetFriendsOfUser` gives one result for each row that joins two
users, in either order (`count_friendsOf`). The table may hold both orders, since its key and the check
before an insertion take a pair as it is. So a friend is listed twice exactly if each of the two has
added the other, and is told twice as well (`listsOnce_iff`); and a deletion, which takes one row, ends
the friendship exactly if the other row is not there (`endsFriendship_iff`).
-/

namespace LiteChat

open LiteChat.Action Server UserManager

variable {P : Platform} {E : Env} {w w' : World P}

/-! ## Rows that join two users -/

/-- The row joins the two users, in one order or the other. -/
def FriendRow.joins (f : FriendRow) (i j : UserId) : Prop :=
  f = ⟨i, j⟩ ∨ f = ⟨j, i⟩

instance (f : FriendRow) (i j : UserId) : Decidable (f.joins i j) := by
  unfold FriendRow.joins
  infer_instance

theorem FriendRow.joins_iff {f : FriendRow} {i j : UserId} (hij : j ≠ i) :
    f.joins i j ↔
      (f.userId1 = j ∨ f.userId2 = j) ∧ (f.userId1 = i ∨ f.userId2 = i) ∧ j ≠ i := by
  obtain ⟨x, y⟩ := f
  unfold joins
  simp only [FriendRow.mk.injEq]
  constructor
  · rintro (⟨rfl, rfl⟩ | ⟨rfl, rfl⟩)
    · exact ⟨.inr rfl, .inl rfl, hij⟩
    · exact ⟨.inl rfl, .inr rfl, hij⟩
  · rintro ⟨rfl | rfl, h | h, _⟩
    · exact absurd h hij
    · exact .inr ⟨rfl, h⟩
    · exact .inl ⟨h, rfl⟩
    · exact absurd h hij

/-- **A user is listed once for each row that joins him and the owner of the list.** -/
theorem count_friendsOf {db : Database P} {a b : UserRow} (hb : b ∈ db.users)
    (hab : b.userId ≠ a.userId) : ((db.friendsOf a.userId).map Prod.fst).count b.username =
      (db.friends.filter fun f => f.joins a.userId b.userId).length := by
  have hnodup : db.users.Nodup := List.Nodup.of_map _ db.users_id
  have hrow : ∀ u : UserRow,
      ((db.friends.filter fun f => (f.userId1 = u.userId ∨ f.userId2 = u.userId) ∧
        (f.userId1 = a.userId ∨ f.userId2 = a.userId) ∧ u.userId ≠ a.userId).map
          fun _ => u.username).count b.username =
        if u.username = b.username then
          (db.friends.filter fun f => (f.userId1 = u.userId ∨ f.userId2 = u.userId) ∧
            (f.userId1 = a.userId ∨ f.userId2 = a.userId) ∧ u.userId ≠ a.userId).length
        else 0 := by
    intro u
    rw [List.map_const', List.count_replicate]
    simp only [beq_iff_eq]
  unfold Database.friendsOf
  simp only [List.map_flatMap, List.map_map, Function.comp_def, List.count_flatMap, hrow]
  rw [List.sum_map_eq_nsmul_single b]
  · rw [if_pos rfl, List.count_eq_one_of_mem hnodup hb, one_nsmul]
    congr 2
    funext f
    exact decide_eq_decide.mpr (FriendRow.joins_iff hab).symm
  · intro u hub hu
    refine if_neg fun hname => hub ?_
    exact Database.eq_of_weight hu hb (by rw [hname])

/-- Only users other than the owner are listed. -/
theorem mem_names_friendsOf {db : Database P} {i : UserId} {v : Str}
    (h : v ∈ (db.friendsOf i).map Prod.fst) : ∃ b ∈ db.users, b.userId ≠ i ∧ b.username = v := by
  unfold Database.friendsOf at h
  simp only [List.map_flatMap, List.mem_flatMap, List.map_map, List.mem_map, List.mem_filter,
    Function.comp_apply, decide_eq_true_eq] at h
  obtain ⟨b, hb, f, ⟨_, _, _, hne⟩, rfl⟩ := h
  exact ⟨b, hb, hne, rfl⟩

/-- The table's key leaves at most one row for each order. -/
theorem length_joins {db : Database P} {i j : UserId} (hij : i ≠ j) :
    (db.friends.filter fun f => f.joins i j).length =
      (if ⟨i, j⟩ ∈ db.friends then 1 else 0) + (if ⟨j, i⟩ ∈ db.friends then 1 else 0) := by
  have hne : (⟨i, j⟩ : FriendRow) ≠ ⟨j, i⟩ := fun h => hij (FriendRow.mk.inj h).1
  rw [← db.friends_unique.count, ← db.friends_unique.count]
  exact Effect.length_filter_pair hne db.friends

/-- **A list names nobody twice exactly if no two users have a row in each order.** -/
theorem nodup_friendsOf {db : Database P} {a : UserRow} :
    ((db.friendsOf a.userId).map Prod.fst).Nodup ↔ ∀ b ∈ db.users, b.userId ≠ a.userId →
      ¬ (⟨a.userId, b.userId⟩ ∈ db.friends ∧ ⟨b.userId, a.userId⟩ ∈ db.friends) := by
  have hcount : ∀ b ∈ db.users, b.userId ≠ a.userId →
      (((db.friendsOf a.userId).map Prod.fst).count b.username ≤ 1 ↔
        ¬ (⟨a.userId, b.userId⟩ ∈ db.friends ∧ ⟨b.userId, a.userId⟩ ∈ db.friends)) := by
    intro b hb hab
    rw [count_friendsOf hb hab, length_joins hab.symm]
    split <;> split <;> simp [*]
  rw [List.nodup_iff_count_le_one]
  constructor
  · intro h b hb hab
    exact (hcount b hb hab).mp (h b.username)
  · intro h v
    by_cases hv : v ∈ (db.friendsOf a.userId).map Prod.fst
    · obtain ⟨b, hb, hab, rfl⟩ := mem_names_friendsOf hv
      exact (hcount b hb hab).mpr (h b hb hab)
    · rw [List.count_eq_zero_of_not_mem hv]
      exact Nat.zero_le 1

/-! ## Lists and notices -/

/-- The friend list of `a` names nobody twice, and a change of the status of `a` is told to no
connection twice, whatever the environment does. -/
structure ListsOnce (w : World P) (a : UserRow) : Prop where
  list : ∀ request, w.db.byName request.username = some a →
    wp .any (FriendManager.handleFriendList request) (fun response _ =>
      ∀ friends : List (Str × Bool), response.data =
        some (.obj [(bytes "friends", .arr (friends.map FriendManager.friendJson))]) →
        (friends.map Prod.fst).Nodup) w
  notices : ∀ status, wp .any (notifyFriendsStatusChange a.username status) (fun _ w' =>
    ∃ said, w'.trace = w.trace ++ said ∧ ((statusNotices said).map Prod.fst).Nodup) w

/-- The connection on which the user is told of the status of others. -/
def connectionOf (w : World P) (b : UserRow) : Option Socket :=
  if b.isOnline then
    ((w.sessions.getSessionByUsername b.username).bind w.sessions.heap.lookup).map (·.socket)
  else none

/-- No two of the users are told on one connection. -/
def ToldApart (w : World P) (told : UserRow → Prop) : Prop :=
  ∀ b ∈ w.db.users, ∀ d ∈ w.db.users, told b → told d →
    ∀ c, connectionOf w b = some c → connectionOf w d = some c → b = d

theorem friendJson_injective : Function.Injective FriendManager.friendJson := by
  rintro ⟨u, isOnline⟩ ⟨v, isOnline'⟩ h
  unfold FriendManager.friendJson at h
  simp only [Json.obj.injEq, List.cons.injEq, Prod.mk.injEq, Json.str.injEq, true_and,
    and_true] at h
  obtain ⟨rfl, hstatus⟩ := h
  cases isOnline <;> cases isOnline' <;> first | rfl | exact absurd hstatus (by decide)

theorem mem_friendsOf_pair {db : Database P} {i : UserId} {friend : Str × Bool} :
    friend ∈ db.friendsOf i ↔ ∃ b ∈ db.users, b.userId ≠ i ∧
      (⟨i, b.userId⟩ ∈ db.friends ∨ ⟨b.userId, i⟩ ∈ db.friends) ∧
      friend = (b.username, b.isOnline) := by
  unfold Database.friendsOf
  simp only [List.mem_flatMap, List.mem_map, List.mem_filter, decide_eq_true_eq]
  constructor
  · rintro ⟨b, hb, f, ⟨hf, hjoins⟩, rfl⟩
    refine ⟨b, hb, hjoins.2.2, ?_, rfl⟩
    rcases (FriendRow.joins_iff hjoins.2.2).mpr hjoins with rfl | rfl
    · exact .inl hf
    · exact .inr hf
  · rintro ⟨b, hb, hne, hf | hf, rfl⟩
    · exact ⟨b, hb, _, ⟨hf, (FriendRow.joins_iff hne).mp (.inl rfl)⟩, rfl⟩
    · exact ⟨b, hb, _, ⟨hf, (FriendRow.joins_iff hne).mp (.inr rfl)⟩, rfl⟩

theorem friendsTold_of_mem {a : UserRow} (ha : a ∈ w.db.users) :
    friendsTold w a.username = w.db.friendsOf a.userId := by
  have hid : w.db.idOf a.username = some a.userId := by
    unfold Database.idOf
    rw [Database.byName_self ha]
    rfl
  unfold friendsTold
  rw [hid]

/-- With nobody on the list twice, the notices go to different connections exactly if the friends are
told apart. -/
theorem nodup_notified {i : UserId} (hnodup : ((w.db.friendsOf i).map Prod.fst).Nodup)
    (rank : Nat → Nat) :
    (notified w.sessions (Effect.arrange rank (w.db.friendsOf i))).Nodup ↔
      ToldApart w fun b => b.userId ≠ i ∧
        (⟨i, b.userId⟩ ∈ w.db.friends ∨ ⟨b.userId, i⟩ ∈ w.db.friends) := by
  have hperm := Effect.arrange_perm rank (w.db.friendsOf i)
  unfold notified
  rw [(hperm.filterMap _).nodup_iff, Effect.nodup_filterMap_iff (List.Nodup.of_map _ hnodup)]
  constructor
  · intro h b hb d hd hbi hdi c hbc hdc
    have hpair := h _ (mem_friendsOf_pair.mpr ⟨b, hb, hbi.1, hbi.2, rfl⟩)
      _ (mem_friendsOf_pair.mpr ⟨d, hd, hdi.1, hdi.2, rfl⟩) c hbc hdc
    exact Database.eq_of_weight hb hd (by rw [(Prod.mk.inj hpair).1])
  · intro h x hx y hy c hxc hyc
    obtain ⟨b, hb, hbi, hbf, rfl⟩ := mem_friendsOf_pair.mp hx
    obtain ⟨d, hd, hdi, hdf, rfl⟩ := mem_friendsOf_pair.mp hy
    rw [h b hb d hd ⟨hbi, hbf⟩ ⟨hdi, hdf⟩ c hxc hyc]

/-- The list that `HandleFriendList` answers with. -/
theorem wp_friendList_nodup {request : Request} {a : UserRow}
    (ha : w.db.byName request.username = some a) :
    wp .any (FriendManager.handleFriendList request) (fun response _ =>
      ∀ friends : List (Str × Bool), response.data =
        some (.obj [(bytes "friends", .arr (friends.map FriendManager.friendJson))]) →
        (friends.map Prod.fst).Nodup) w ↔ ((w.db.friendsOf a.userId).map Prod.fst).Nodup := by
  have hnodup : ∀ rank, ((Effect.arrange rank (w.db.friendsOf a.userId)).map Prod.fst).Nodup ↔
      ((w.db.friendsOf a.userId).map Prod.fst).Nodup := fun rank =>
    ((Effect.arrange_perm rank _).map Prod.fst).nodup_iff
  unfold FriendManager.handleFriendList
  simp only [wp_bind, wp_getUserIdByUsername, Database.idOf, ha, Option.map_some, wp_getFriendList,
    wp_pure, reduceCtorEq, false_implies, implies_true, true_and, Option.some.injEq, Json.obj.injEq,
    List.cons.injEq, Prod.mk.injEq, Json.arr.injEq, and_true]
  constructor
  · intro h
    exact (hnodup id).mp (h id _ rfl)
  · intro h rank friends hfriends
    rw [← List.map_injective_iff.mpr friendJson_injective hfriends]
    exact (hnodup rank).mpr h

theorem listsOnce_iff_mem {a : UserRow} (ha : a ∈ w.db.users) :
    ListsOnce w a ↔ ((w.db.friendsOf a.userId).map Prod.fst).Nodup ∧
      ToldApart w fun b => b.userId ≠ a.userId ∧
        (⟨a.userId, b.userId⟩ ∈ w.db.friends ∨ ⟨b.userId, a.userId⟩ ∈ w.db.friends) := by
  have htold := friendsTold_of_mem ha
  constructor
  · rintro ⟨hlist, hnotices⟩
    have hnodup := (wp_friendList_nodup (Database.byName_self ha)).mp
      (hlist ⟨[], a.username, [], [], [], [], [], [], 0, 0⟩ (Database.byName_self ha))
    refine ⟨hnodup, ?_⟩
    -- a run in which nothing fails has told every friend
    obtain ⟨said, rank, hsaid, htelling⟩ :=
      run_of_wp (wp_notify_notices (w := w) (u := a.username) (E := .reliable) id) [] nofun
    obtain ⟨said', hsaid', honce⟩ := run_of_wp (hnotices .online) [] nofun
    rw [hsaid] at hsaid'
    obtain rfl := List.append_cancel_left hsaid'
    rw [htelling, htold, List.map_map] at honce
    exact (nodup_notified hnodup rank).mp (by simpa [Function.comp_def] using honce)
  · rintro ⟨hnodup, hapart⟩
    refine ⟨fun request hrequest => (wp_friendList_nodup hrequest).mpr hnodup, fun status => ?_⟩
    refine wp_mono wp_notify_said fun _ w' ⟨said, hsaid, hnotices⟩ => ⟨said, by rw [hsaid], ?_⟩
    rcases hnotices with ⟨_, hnone⟩ | ⟨rank, hnotices⟩
    · rw [hnone]
      exact List.nodup_nil
    · rw [hnotices, htold, List.map_map]
      simpa [Function.comp_def] using (nodup_notified hnodup rank).mpr hapart

/-- **A friend is listed once, and told once, exactly if no two users have both added each other** (and
the friends that are told have connections of their own). The tables have no friends at first, and the
run is any list of `ADD_FRIEND` and `DEL_FRIEND` requests: which rows are there is which request about
the ordered pair came last. -/
theorem listsOnce_iff (w : World P) (hempty : w.db.friends = []) (hs : List FriendRequest)
    {a : UserRow} (ha : a ∈ w.db.users) :
    ListsOnce (Effect.runAll handleFriends w hs) a ↔
      (∀ b ∈ w.db.users, b ≠ a → ¬ (lastChange w.db a.userId b.userId hs = some .add ∧
        lastChange w.db b.userId a.userId hs = some .add)) ∧
      ToldApart w fun b => b ≠ a ∧ (lastChange w.db a.userId b.userId hs = some .add ∨
        lastChange w.db b.userId a.userId hs = some .add) := by
  have hkeeps := keeps_runAll_handleFriends w hs
  have hid : ∀ {b}, b ∈ w.db.users → (b.userId ≠ a.userId ↔ b ≠ a) := fun hb =>
    not_congr ⟨fun h => Database.eq_of_id hb ha h, fun h => by rw [h]⟩
  have hmem : ∀ {x y : UserId}, x ≠ y → (⟨x, y⟩ ∈ (Effect.runAll handleFriends w hs).db.friends ↔
      lastChange w.db x y hs = some .add) := fun hxy => mem_friends_iff_lastChange hempty hs hxy
  rw [listsOnce_iff_mem (hkeeps.users ▸ ha), nodup_friendsOf]
  refine and_congr ?_ ?_
  · rw [hkeeps.users]
    refine forall₂_congr fun b hb => ?_
    refine imp_congr_ctx (hid hb) fun hba => ?_
    rw [hmem ((hid hb).mpr hba).symm, hmem ((hid hb).mpr hba)]
  · have told : ∀ b ∈ w.db.users, (b.userId ≠ a.userId ∧
        (⟨a.userId, b.userId⟩ ∈ (Effect.runAll handleFriends w hs).db.friends ∨
          ⟨b.userId, a.userId⟩ ∈ (Effect.runAll handleFriends w hs).db.friends)) ↔
        b ≠ a ∧ (lastChange w.db a.userId b.userId hs = some .add ∨
          lastChange w.db b.userId a.userId hs = some .add) := by
      intro b hb
      rw [hid hb]
      refine and_congr_right fun hba => ?_
      rw [hmem ((hid hb).mpr hba).symm, hmem ((hid hb).mpr hba)]
    unfold ToldApart connectionOf
    rw [hkeeps.users, hkeeps.sessions]
    refine forall₂_congr fun b hb => forall₂_congr fun d hd => ?_
    exact imp_congr (told b hb) (imp_congr (told d hd) Iff.rfl)

/-- Alice has added Bob, who has not added her. -/
theorem listsOnce_added :
    ListsOnce (Effect.runAll handleFriends aliceAndBob [addFriend alice bob]) alice := by
  refine (listsOnce_iff aliceAndBob (by decide) _ ?_).mpr ⟨?_, ?_⟩
  · rw [users_aliceAndBob]
    simp
  · rw [users_aliceAndBob]
    decide
  · intro b hb d _ _ _ c hbc _
    have hoff : ∀ u ∈ aliceAndBob.db.users, u.isOnline = false := by
      rw [users_aliceAndBob]
      decide
    exact absurd hbc (by simp [connectionOf, hoff b hb])

/-- Both have added each other: Bob is on Alice's list twice. -/
theorem not_listsOnce :
    ¬ ∀ hs, ListsOnce (Effect.runAll handleFriends aliceAndBob hs) alice := by
  intro h
  have halice : alice ∈ aliceAndBob.db.users := by
    rw [users_aliceAndBob]
    simp
  have hkeeps := keeps_runAll_handleFriends aliceAndBob [addFriend alice bob, addFriend bob alice]
  obtain ⟨honce, _⟩ := (listsOnce_iff_mem (hkeeps.users ▸ halice)).mp
    (h [addFriend alice bob, addFriend bob alice])
  exact absurd honce (by decide)

/-! ## Both lists of a friendship -/

theorem FriendRow.joins_comm (f : FriendRow) (i j : UserId) : f.joins i j ↔ f.joins j i := or_comm

/-- What the lists of two users say of each other. -/
structure ListedAlike (db : Database P) (a b : UserRow) (friendsA friendsB : List (Str × Bool)) :
    Prop where
  left : (friendsA.map Prod.fst).count b.username =
    (db.friends.filter fun f => f.joins a.userId b.userId).length
  right : (friendsB.map Prod.fst).count a.username =
    (db.friends.filter fun f => f.joins a.userId b.userId).length
  joined : ∀ friend ∈ friendsA, ∃ d ∈ db.users, d ≠ a ∧ friend = (d.username, d.isOnline) ∧
    ∃ f ∈ db.friends, f.joins a.userId d.userId

theorem listedAlike_of_perm {db : Database P} {a b : UserRow} {friendsA friendsB : List (Str × Bool)}
    (ha : a ∈ db.users) (hb : b ∈ db.users) (hab : a ≠ b)
    (hA : friendsA.Perm (db.friendsOf a.userId)) (hB : friendsB.Perm (db.friendsOf b.userId)) :
    ListedAlike db a b friendsA friendsB := by
  have hid : a.userId ≠ b.userId := fun h => hab (Database.eq_of_id ha hb h)
  refine ⟨?_, ?_, fun friend hfriend => ?_⟩
  · rw [(hA.map Prod.fst).count_eq, count_friendsOf hb hid.symm]
  · -- the rows that join `b` to `a` are those that join `a` to `b`
    rw [(hB.map Prod.fst).count_eq, count_friendsOf ha hid]
    simp only [FriendRow.joins_comm]
  · obtain ⟨d, hd, hda, hf, rfl⟩ := mem_friendsOf_pair.mp (hA.mem_iff.mp hfriend)
    refine ⟨d, hd, fun h => hda (by rw [h]), rfl, ?_⟩
    rcases hf with hf | hf
    · exact ⟨_, hf, .inl rfl⟩
    · exact ⟨_, hf, .inr rfl⟩

/-- The rows of the query come in an order of the database's choice. -/
theorem run_selectFriends (i : UserId) {cs : List Choice} (hcs : ∀ ch ∈ cs, ch.dbOk = true) :
    (∃ friends, ((FriendDAO.getFriendList i).run cs w).1 = some friends ∧
      friends.Perm (w.db.friendsOf i)) ∧
    ∃ friends, ((UserDAO.getFriendsOfUser i).run cs w).1 = some friends ∧
      friends.Perm (w.db.friendsOf i) := by
  have hok : ∀ ch ∈ cs, Env.reliable.Ok ch := fun ch hch => Env.ok_reliable.mpr (hcs ch hch)
  refine ⟨run_of_wp (Q := fun r _ => ∃ friends, r = some friends ∧ friends.Perm (w.db.friendsOf i))
    (wp_getFriendList.mpr ⟨False.elim, fun rank => ?_⟩) cs hok,
    run_of_wp (Q := fun r _ => ∃ friends, r = some friends ∧ friends.Perm (w.db.friendsOf i))
    (wp_getFriendsOfUser.mpr ⟨False.elim, fun rank => ?_⟩) cs hok⟩
  · exact ⟨_, rfl, Effect.arrange_perm rank _⟩
  · exact ⟨_, rfl, Effect.arrange_perm rank _⟩

/-- **The friend list is symmetric and complete**, in whatever order the rows come: each of two users is
on the list of the other once for each row that joins them, nobody else is on a list, and the two
classes ask the same question. -/
theorem friendList_symmetric {a b : UserRow} (ha : a ∈ w.db.users) (hb : b ∈ w.db.users) (hab : a ≠ b)
    {cs cs' cs'' : List Choice} (hcs : ∀ ch ∈ cs, ch.dbOk = true)
    (hcs' : ∀ ch ∈ cs', ch.dbOk = true) (hcs'' : ∀ ch ∈ cs'', ch.dbOk = true) :
    ∃ friendsA friendsB friends,
      ((FriendDAO.getFriendList a.userId).run cs w).1 = some friendsA ∧
      ((FriendDAO.getFriendList b.userId).run cs' w).1 = some friendsB ∧
      ((UserDAO.getFriendsOfUser a.userId).run cs'' w).1 = some friends ∧
      ListedAlike w.db a b friendsA friendsB ∧ friends.Perm friendsA := by
  obtain ⟨⟨friendsA, hA, hpermA⟩, -⟩ := run_selectFriends (w := w) a.userId hcs
  obtain ⟨⟨friendsB, hB, hpermB⟩, -⟩ := run_selectFriends (w := w) b.userId hcs'
  obtain ⟨-, friends, hfriends, hperm⟩ := run_selectFriends (w := w) a.userId hcs''
  exact ⟨friendsA, friendsB, friends, hA, hB, hfriends,
    listedAlike_of_perm ha hb hab hpermA hpermB, hperm.trans hpermA.symm⟩

/-- Both have added each other, so each is on the list of the other twice. -/
theorem friendList_symmetric_both : ∃ w : World asciiCi,
    (w.db.friends.filter fun f => f.joins alice.userId bob.userId).length = 2 ∧
    ∃ friendsA friendsB friends,
      ((FriendDAO.getFriendList alice.userId).run [] w).1 = some friendsA ∧
      ((FriendDAO.getFriendList bob.userId).run [] w).1 = some friendsB ∧
      ((UserDAO.getFriendsOfUser alice.userId).run [] w).1 = some friends ∧
      ListedAlike w.db alice bob friendsA friendsB ∧ friends.Perm friendsA := by
  have hkeeps := keeps_runAll_handleFriends aliceAndBob [addFriend alice bob, addFriend bob alice]
  refine ⟨Effect.runAll handleFriends aliceAndBob [addFriend alice bob, addFriend bob alice],
    by decide, friendList_symmetric ?_ ?_ (by decide) nofun nofun nofun⟩
  · rw [hkeeps.users, users_aliceAndBob]
    simp
  · rw [hkeeps.users, users_aliceAndBob]
    simp

/-! ## Deletions -/

/-- The two are no friends any more, nothing they wrote to each other is left, and nothing else has
changed. -/
structure EndsFriendship (w w' : World P) (a b : UserRow) : Prop where
  left : ¬ InFriendList w' a b
  right : ¬ InFriendList w' b a
  messages : ∀ m ∈ w'.db.messages, ¬ Database.MessageRow.between m a.userId b.userId
  otherFriends : (w'.db.friends.filter fun f => ¬ f.joins a.userId b.userId) =
    w.db.friends.filter fun f => ¬ f.joins a.userId b.userId
  otherMessages : (w'.db.messages.filter fun m => ¬ Database.MessageRow.between m a.userId b.userId) =
    w.db.messages.filter fun m => ¬ Database.MessageRow.between m a.userId b.userId

/-- A deletion that is answered 0 has found the row it takes, and has taken the messages. -/
theorem wp_handleDeleteFriend_deleted {request : Request} {a b : UserRow}
    (ha : w.db.byName request.username = some a)
    (hb : w.db.byName (FriendManager.targetOf request) = some b) :
    wp .reliable (FriendManager.handleDeleteFriend request) (fun response w' => response.code = 0 →
      w' = { w with
        db := (w.db.deleteFriend a.userId b.userId).deleteMessagesBetween a.userId b.userId }) w := by
  unfold FriendManager.handleDeleteFriend
  refine wp_if (fun _ hcode => absurd hcode (by decide)) fun _ => ?_
  simp only [wp_bind, wp_getUserIdByUsername, Database.idOf, ha, hb, Option.map_some,
    Env.reliable, false_implies, true_and, wp_checkFriendship]
  refine wp_if (fun _ hcode => absurd hcode (by decide)) fun _ => ?_
  simp

/-- **A deletion ends the friendship exactly if the row of the other order is not there.** The statement
deletes the row of the ordered pair of the request, and the list joins both orders. -/
theorem endsFriendship_iff {request : Request} {a b : UserRow}
    (ha : w.db.byName request.username = some a)
    (hb : w.db.byName (FriendManager.targetOf request) = some b) (hab : a ≠ b) (cs : List Choice)
    (hcs : ∀ ch ∈ cs, ch.dbOk = true)
    (hcode : ((FriendManager.handleDeleteFriend request).run cs w).1.code = 0) :
    EndsFriendship w ((FriendManager.handleDeleteFriend request).run cs w).2 a b ↔
      ⟨b.userId, a.userId⟩ ∉ w.db.friends := by
  obtain ⟨ha', _⟩ := Database.byName_iff.mp ha
  obtain ⟨hb', _⟩ := Database.byName_iff.mp hb
  have hid : a.userId ≠ b.userId := fun h => hab (Database.eq_of_id ha' hb' h)
  have hdeleted := run_of_wp (wp_handleDeleteFriend_deleted ha hb) cs
    (fun ch hch => Env.ok_reliable.mpr (hcs ch hch)) hcode
  generalize ((FriendManager.handleDeleteFriend request).run cs w).2 = w' at hdeleted ⊢
  have hafter : a ∈ w'.db.users ∧ b ∈ w'.db.users := by
    rw [hdeleted]
    exact ⟨ha', hb'⟩
  have hrows : ∀ f, f ∈ w'.db.friends ↔ f ∈ w.db.friends ∧ f ≠ ⟨a.userId, b.userId⟩ := by
    rw [hdeleted]
    exact fun f => mem_deleteFriend
  have hback : (⟨b.userId, a.userId⟩ : FriendRow) ≠ ⟨a.userId, b.userId⟩ := fun h =>
    hid (FriendRow.mk.inj h).2
  constructor
  · intro h hrow
    refine h.left ((inFriendList_iff hafter.2 hid.symm).mpr (.inr ?_))
    exact (hrows _).mpr ⟨hrow, hback⟩
  · intro hrow
    -- neither row is left
    have hnone : ∀ f, f.joins a.userId b.userId → f ∉ w'.db.friends := by
      rintro f (rfl | rfl) hf
      · exact ((hrows _).mp hf).2 rfl
      · exact hrow ((hrows _).mp hf).1
    refine ⟨fun hin => ?_, fun hin => ?_, fun m hm => ?_, ?_, ?_⟩
    · rcases (inFriendList_iff hafter.2 hid.symm).mp hin with hf | hf
      · exact hnone _ (.inl rfl) hf
      · exact hnone _ (.inr rfl) hf
    · rcases (inFriendList_iff hafter.1 hid).mp hin with hf | hf
      · exact hnone _ (.inr rfl) hf
      · exact hnone _ (.inl rfl) hf
    · rw [hdeleted] at hm
      simpa using (List.mem_filter.mp hm).2
    · rw [hdeleted]
      show ((w.db.friends.filter _).filter _) = _
      rw [List.filter_filter]
      refine List.filter_congr fun f _ => ?_
      obtain ⟨x, y⟩ := f
      unfold FriendRow.joins
      grind
    · rw [hdeleted]
      show ((w.db.messages.filter _).filter _) = _
      rw [List.filter_filter]
      simp

/-- Alice deletes Bob, whom she has added. -/
def deleteBob : Request := { (addFriend alice bob).request with type := bytes "DEL_FRIEND" }

theorem endsFriendship_added : EndsFriendship
    (Effect.runAll handleFriends aliceAndBob [addFriend alice bob])
    ((FriendManager.handleDeleteFriend deleteBob).run []
      (Effect.runAll handleFriends aliceAndBob [addFriend alice bob])).2 alice bob :=
  (endsFriendship_iff (by decide) (by decide) (by decide) [] nofun (by decide)).mpr (by decide)

/-- Both have added each other: after Alice's deletion Bob is still on her list. -/
theorem not_endsFriendship : ¬ ∀ hs request cs,
    aliceAndBob.db.byName request.username = some alice →
    aliceAndBob.db.byName (FriendManager.targetOf request) = some bob →
    (∀ ch ∈ cs, ch.dbOk = true) →
    ((FriendManager.handleDeleteFriend request).run cs
      (Effect.runAll handleFriends aliceAndBob hs)).1.code = 0 →
    EndsFriendship (Effect.runAll handleFriends aliceAndBob hs)
      ((FriendManager.handleDeleteFriend request).run cs
        (Effect.runAll handleFriends aliceAndBob hs)).2 alice bob := by
  intro h
  have hends := h [addFriend alice bob, addFriend bob alice] deleteBob [] (by decide) (by decide)
    nofun (by decide)
  refine hends.left ((inFriendList_iff ?_ (by decide)).mpr (.inr (by decide)))
  decide

end LiteChat
