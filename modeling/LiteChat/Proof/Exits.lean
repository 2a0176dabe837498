import LiteChat.Proof.Routing

/-!
# The two ends of a connection

`HandleClient` cleans up in two places, after its loop and in its `catch`. The two say the same
except that the second tells no friend and leaves the cached friend list where it is. So they come to
the same exactly if there is nobody to tell and no list (`endsAlike_iff`).
-/

namespace LiteChat

open LiteChat.Action Server UserManager

variable {P : Platform} {E : Env} {w w' : World P}

/-! ## What friends are told -/

/-- The notifications of friends among what was said, and whom they went to. -/
def statusNotices (said : List Obs) : List (Socket × Frame) :=
  said.filterMap fun o => match o with
    | .sent c _ frame _ =>
      if frame.type? = some (bytes "STATUS_NOTIFY") then some (c, frame) else none
    | _ => none

/-- Where the friends on a list are told: those whose flag is set and whose name leads to a session. -/
def notified (m : SessionManager) (friends : List (Str × Bool)) : List Socket :=
  friends.filterMap fun friend =>
    if friend.2 then
      ((m.getSessionByUsername friend.1).bind m.heap.lookup).map (·.socket)
    else none

/-- The loop over the friends writes one notice to each that is online and has a session, in the order
of the list, whether or not the notice gets through. -/
theorem wp_notifyEach_notices {frame : Frame} (hframe : frame.type? = some (bytes "STATUS_NOTIFY"))
    (friends : List (Str × Bool)) : wp E (notifyEach frame friends) (fun _ w' => ∃ said,
      w' = { w with trace := w.trace ++ said } ∧
        statusNotices said = (notified w.sessions friends).map (·, frame)) w := by
  induction friends generalizing w with
  | nil => exact ⟨[], by simp, rfl⟩
  | cons friend friends ih =>
    obtain ⟨friendUsername, isOnline⟩ := friend
    unfold notifyEach
    cases isOnline with
    | false => exact ih
    | true =>
      simp only [if_true, wp_bind, wp_getSessionByUsername]
      cases hp : w.sessions.getSessionByUsername friendUsername with
      | none =>
        refine wp_mono ih fun _ w' h => ?_
        obtain ⟨said, hsaid, hnotices⟩ := h
        refine ⟨said, hsaid, hnotices.trans ?_⟩
        simp [notified, hp]
      | some p =>
        obtain ⟨s, hs, _⟩ := w.live_byUsername hp
        have hcons : notified w.sessions ((friendUsername, true) :: friends) =
            s.socket :: notified w.sessions friends := by
          simp [notified, hp, hs]
        -- the notice counts as said, be it received or not
        have told : ∀ ok, wp E (notifyEach frame friends) (fun _ w' => ∃ said,
            w' = { w with trace := w.trace ++ said } ∧ statusNotices said =
              (notified w.sessions ((friendUsername, true) :: friends)).map (·, frame))
            (w.observe (.sent s.socket (w.accountAt s.socket) frame ok)) := by
          intro ok
          refine wp_mono ih fun _ w' h => ?_
          obtain ⟨said, hsaid, hnotices⟩ := h
          refine ⟨.sent s.socket (w.accountAt s.socket) frame ok :: said, ?_, ?_⟩
          · rw [hsaid]
            simp [World.observe]
          · unfold statusNotices at hnotices ⊢
            rw [hcons, List.filterMap_cons_some (by exact if_pos hframe), hnotices]
            rfl
        simp only [wp_bind, wp_getSocket hs, wp_sendData]
        exact ⟨told true, fun _ => told false⟩

/-- The friends that are told when the user of that name goes offline. -/
def friendsTold (w : World P) (u : Str) : List (Str × Bool) :=
  match w.db.idOf u with
  | none => []
  | some i => w.db.friendsOf i

/-- The friends of the list are told, in some order, unless the list cannot be read. -/
theorem wp_notify_said {u : Str} {status : UserStatus} :
    wp E (notifyFriendsStatusChange u status) (fun _ w' => ∃ said,
      w' = { w with trace := w.trace ++ said } ∧ ((E.dbFails ∧ statusNotices said = []) ∨
        ∃ rank, statusNotices said =
          (notified w.sessions (Effect.arrange rank (friendsTold w u))).map
            (·, statusNotify u status))) w := by
  have silent : E.dbFails → ∃ said, w = { w with trace := w.trace ++ said } ∧
      ((E.dbFails ∧ statusNotices said = []) ∨ ∃ rank, statusNotices said =
        (notified w.sessions (Effect.arrange rank (friendsTold w u))).map
          (·, statusNotify u status)) := fun hf => ⟨[], by simp, .inl ⟨hf, rfl⟩⟩
  unfold notifyFriendsStatusChange friendsTold at *
  simp only [wp_bind, wp_getUserIdByUsername]
  refine ⟨silent, ?_⟩
  cases hi : w.db.idOf u with
  | none => exact ⟨[], by simp, .inr ⟨id, rfl⟩⟩
  | some i =>
    rw [hi] at silent
    simp only [wp_bind, wp_getFriendsOfUser]
    refine ⟨silent, fun rank => ?_⟩
    refine wp_mono (wp_notifyEach_notices rfl _) fun _ w' h => ?_
    obtain ⟨said, hsaid, hnotices⟩ := h
    exact ⟨said, hsaid, .inr ⟨rank, hnotices⟩⟩

/-- A reliable database gives the whole list. -/
theorem wp_notify_notices {u : Str} {status : UserStatus} (hE : ¬ E.dbFails) :
    wp E (notifyFriendsStatusChange u status) (fun _ w' => ∃ said rank,
      w' = { w with trace := w.trace ++ said } ∧ statusNotices said =
        (notified w.sessions (Effect.arrange rank (friendsTold w u))).map
          (·, statusNotify u status)) w := by
  refine wp_mono wp_notify_said fun _ w' ⟨said, hsaid, hnotices⟩ => ?_
  obtain ⟨rank, hnotices⟩ := hnotices.resolve_left fun hf => hE hf.1
  exact ⟨said, rank, hsaid, hnotices⟩

/-! ## What either end does -/

/-- The user's flag is cleared, the session is gone and counted, the descriptor is closed. -/
def cleanedUp (w : World P) (c : Socket) (u : Str) : World P :=
  { w with
    db := w.db.setOnlineWhere (fun r => P.weight r.username = P.weight u) false
    sessions := w.sessions.removeSession c
    currentConnections := w.currentConnections + -1
    openSockets := w.openSockets.filter (· ≠ c) }

/-- Who has no friend but himself to tell is told nothing: the list leaves its own user out. -/
theorem friendsOf_setOnline {db : Database P} {u : Str} {i : UserId} (hi : db.idOf u = some i)
    (isOnline : Bool) :
    (db.setOnlineWhere (fun r => P.weight r.username = P.weight u) isOnline).friendsOf i =
      db.friendsOf i := by
  unfold Database.friendsOf
  show (db.users.map _).flatMap _ = db.users.flatMap _
  rw [List.flatMap_map]
  refine List.flatMap_congr fun r hr => ?_
  by_cases hw : P.weight r.username = P.weight u
  · obtain ⟨s, hs, hsw, rfl⟩ := Database.idOf_iff.mp hi
    obtain rfl := Database.eq_of_weight hr hs (hw.trans hsw.symm)
    simp [hw]
  · rw [if_neg (by simpa using hw)]
    rfl

theorem friendsTold_setOnline (w : World P) (u : Str) (isOnline : Bool) : friendsTold { w with
    db := w.db.setOnlineWhere (fun r => P.weight r.username = P.weight u) isOnline } u =
      friendsTold w u := by
  unfold friendsTold
  have hid : (w.db.setOnlineWhere (fun r => P.weight r.username = P.weight u) isOnline).idOf u =
      w.db.idOf u := Database.idOf_mapUsers u
  dsimp only
  rw [hid]
  cases hi : w.db.idOf u with
  | none => rfl
  | some i => exact friendsOf_setOnline hi isOnline

/-- The end of the stream: friends are told, and the cached list goes. -/
theorem wp_endConnection_cleansUp {c : Socket} {u : Str} (hE : ¬ E.dbFails)
    (hlogin : w.sessions.loginAt c = some u) (hu : u ≠ []) :
    wp E (endConnection c) (fun _ w' => ∃ said rank, w' = { cleanedUp w c u with
        cachedFriendLists := w.cachedFriendLists.erase u
        trace := w.trace ++ said ++ [.close c] } ∧ statusNotices said =
          (notified w.sessions (Effect.arrange rank (friendsTold w u))).map
            (·, statusNotify u .offline)) w := by
  obtain ⟨p, s, hp, hs, rfl⟩ := SessionManager.heap_of_loginAt hlogin
  unfold endConnection farewell
  simp only [wp_bind, wp_getSession, hp, wp_getUsername hs]
  refine wp_if (fun _ => ?_) fun hne => absurd hu hne
  simp only [wp_bind, wp_getUsername hs]
  refine (wp_updateOnlineStatusByUsername).mpr ⟨fun hf => absurd hf hE, ?_⟩
  refine (wp_getUsername (by exact hs)).mpr (wp_mono (wp_notify_notices hE) ?_)
  rintro _ w' ⟨said, rank, rfl, hnotices⟩
  refine (wp_getUsername (by exact hs)).mpr ?_
  simp only [FriendManager.removeFriendCache, wp_cacheErase, wp_removeSession, wp_addConnections,
    wp_close]
  rw [friendsTold_setOnline] at hnotices
  exact ⟨said, rank, rfl, hnotices⟩

/-- An exception: nobody is told, and the cached list stays. -/
theorem wp_failConnection_cleansUp {c : Socket} {u : Str} (hE : ¬ E.dbFails)
    (hlogin : w.sessions.loginAt c = some u) (hu : u ≠ []) :
    wp E (failConnection c) (fun _ w' => w' =
      { cleanedUp w c u with trace := w.trace ++ [.close c] }) w := by
  obtain ⟨p, s, hp, hs, rfl⟩ := SessionManager.heap_of_loginAt hlogin
  unfold failConnection
  simp only [wp_bind, wp_close, wp_getSession]
  have hp' : (w.observe (.close c)).sessions.getSession c = some p := hp
  rw [hp']
  simp only [wp_bind]
  refine (wp_getUsername (by exact hs)).mpr (wp_if (fun _ => ?_) fun hne => absurd hu hne)
  simp only [wp_bind]
  refine (wp_getUsername (by exact hs)).mpr ?_
  refine (wp_updateOnlineStatusByUsername).mpr ⟨fun hf => absurd hf hE, ?_⟩
  simp only [wp_removeSession, wp_addConnections]
  rfl

/-! ## When they come to the same -/

/-- Two ways to end a connection of `w` have come to the same users, sessions, connections, cached
friend lists and notifications. -/
structure SameEnd (w w₁ w₂ : World P) : Prop where
  users : w₂.db.users = w₁.db.users
  getSession : ∀ d, w₂.sessions.getSession d = w₁.sessions.getSession d
  loginAt : ∀ d, w₂.sessions.loginAt d = w₁.sessions.loginAt d
  route : ∀ v, w₂.sessions.route v = w₁.sessions.route v
  currentConnections : w₂.currentConnections = w₁.currentConnections
  cachedFriendLists : ∀ v, w₂.cachedFriendLists.lookup v = w₁.cachedFriendLists.lookup v
  notices : ∃ said₁ said₂, w₁.trace = w.trace ++ said₁ ∧ w₂.trace = w.trace ++ said₂ ∧
    (statusNotices said₂).Perm (statusNotices said₁)

/-- Whatever the environment does, as long as no statement fails, the connection may end by an
exception as well as by the end of its stream. -/
def EndsAlike (w : World P) (c : Socket) : Prop :=
  ∀ cs₁ cs₂ : List Choice, (∀ ch ∈ cs₁, ch.dbOk = true) → (∀ ch ∈ cs₂, ch.dbOk = true) →
    SameEnd w ((endConnection c).run cs₁ w).2 ((failConnection c).run cs₂ w).2

theorem notified_eq_nil {m : SessionManager} {friends : List (Str × Bool)} :
    notified m friends = [] ↔
      ∀ friend ∈ friends, friend.2 = true → m.getSessionByUsername friend.1 = none := by
  unfold notified
  rw [List.filterMap_eq_nil_iff]
  refine forall₂_congr fun friend _ => ?_
  cases friend.2 with
  | false => simp
  | true =>
    cases hp : m.getSessionByUsername friend.1 with
    | none => simp
    | some p =>
      obtain ⟨c, _, hc⟩ := SessionManager.getSession_of_byUsername hp
      obtain ⟨s, hs, _⟩ := SessionManager.heap_of_getSession hc
      simp [hs]

theorem notified_arrange (m : SessionManager) (rank : Nat → Nat) (friends : List (Str × Bool)) :
    notified m (Effect.arrange rank friends) = [] ↔ notified m friends = [] := by
  simp only [notified_eq_nil, Effect.mem_arrange]

/-- A closed descriptor is no notification. -/
theorem statusNotices_concat_close (said : List Obs) (c : Socket) :
    statusNotices (said ++ [.close c]) = statusNotices said := by
  unfold statusNotices
  rw [List.filterMap_append]
  simp

/-- **The two ends of a connection come to the same exactly if there is no cached friend list to drop
and no friend to tell.** After the end of the stream the list is dropped and the friends are told; after
an exception neither happens. All else the two leave alike: the flag, the session, the route, the
counter and the descriptor. -/
theorem endsAlike_iff {c : Socket} {u : Str} (hlogin : w.sessions.loginAt c = some u) (hu : u ≠ []) :
    EndsAlike w c ↔ w.cachedFriendLists.lookup u = none ∧
      ∀ friend ∈ friendsTold w u, friend.2 = true →
        w.sessions.getSessionByUsername friend.1 = none := by
  have reliable : ∀ {cs : List Choice}, (∀ ch ∈ cs, ch.dbOk = true) →
      ∀ ch ∈ cs, Env.reliable.Ok ch := fun hcs ch hch => Env.ok_reliable.mpr (hcs ch hch)
  have ended := fun cs hcs =>
    run_of_wp (wp_endConnection_cleansUp (E := .reliable) id hlogin hu) cs (reliable hcs)
  have failed := fun cs hcs =>
    run_of_wp (wp_failConnection_cleansUp (E := .reliable) id hlogin hu) cs (reliable hcs)
  rw [← notified_eq_nil]
  constructor
  · intro h
    -- that the two are alike when nothing fails is enough
    have hsame := h [] [] nofun nofun
    obtain ⟨said, rank, hended, hnotices⟩ := ended [] nofun
    rw [hended, failed [] nofun] at hsame
    constructor
    · have hcache := hsame.cachedFriendLists u
      rwa [Effect.Map.lookup_erase, if_pos rfl] at hcache
    · obtain ⟨said₁, said₂, h₁, h₂, hperm⟩ := hsame.notices
      rw [List.append_assoc] at h₁
      obtain rfl := List.append_cancel_left h₁
      obtain rfl := List.append_cancel_left h₂
      rw [statusNotices_concat_close, hnotices] at hperm
      have hnil := List.map_eq_nil_iff.mp (List.nil_perm.mp hperm)
      exact (notified_arrange _ _ _).mp hnil
  · rintro ⟨hcache, hnobody⟩ cs₁ cs₂ hcs₁ hcs₂
    obtain ⟨said, rank, hended, hnotices⟩ := ended cs₁ hcs₁
    rw [hended, failed cs₂ hcs₂]
    rw [(notified_arrange _ _ _).mpr hnobody] at hnotices
    refine ⟨rfl, fun _ => rfl, fun _ => rfl, fun _ => rfl, rfl, fun v => ?_, ?_⟩
    · show w.cachedFriendLists.lookup v = (AList.erase u w.cachedFriendLists).lookup v
      rw [Effect.Map.lookup_erase]
      split
      · rename_i hv
        rw [hv, hcache]
      · rfl
    · refine ⟨said ++ [.close c], [.close c], List.append_assoc _ _ _, rfl, ?_⟩
      rw [statusNotices_concat_close, hnotices]
      exact List.Perm.refl _

/-- Alice has logged in, but her friend list could not be read. -/
def aliceUnlisted : World asciiCi :=
  Effect.runAll next (World.start Database.empty) (aliceRegisters ++
    [(aliceLogsIn.1, List.replicate 13 default ++
      List.replicate 4 { (default : Choice) with dbOk := false })])

theorem endsAlike_unlisted : EndsAlike aliceUnlisted 1 :=
  (endsAlike_iff (u := bytes "alice") (by decide) (by decide)).mpr ⟨by decide, by decide⟩

/-- After an exception the friend list of a user who has logged in stays in the cache. -/
theorem not_endsAlike : ¬ ∀ (es : List (Event × List Choice)) (c : Socket) (u : Str),
    (Effect.runAll next (World.start (Database.empty : Database asciiCi)) es).sessions.loginAt c =
      some u → u ≠ [] →
    EndsAlike (Effect.runAll next (World.start (Database.empty : Database asciiCi)) es) c := by
  intro h
  have hsame := h (aliceRegisters ++ [aliceLogsIn]) 1 (bytes "alice") (by decide) (by decide)
    [] [] nofun nofun
  exact absurd (hsame.cachedFriendLists (bytes "alice")) (by decide)

end LiteChat
