import LiteChat.Proof.FriendLists
import LiteChat.Proof.FriendRows
import LiteChat.Proof.Identity
import LiteChat.Proof.Presence

/-!
# The cache of friend lists

A login copies the user's friend list into `cachedFriendLists` and the end of the connection takes it
out again. What an event does to the cache is said once (`CacheChange`, `wp_event_cache`), beside what it
does to users and sessions (`step_happens`) and to the rows of `friends` (`friends_step`).

Nothing else writes to the cache, so the copy of a user who is logged in stays what the tables say as
long as nobody adds or deletes a row of his and nobody on his list is renamed; and the keys stay the
names that are logged in as long as a session and its list go together (`KeepsCache`,
`cacheCoherent_run`).

Coherence is stated twice. `CacheCoherent` says it in the words of the server, of `GetCachedFriendList`
and `GetFriendList`; `CacheFaithful` says it of the tables, and that is what a step keeps. A list is
what `namesIn` computes from the rows of `users` and `friends`, so what is to be shown of a step is that
it leaves `namesIn` alone for everybody who is logged in: it does if each row that comes or goes spares
them (`FriendRow.Spares`) and nobody they are friends with is renamed.

Two things in the source break it, and the condition is about both. The end of a connection drops the
list of a name, even if another session of that name is left; and a connection that is closed by an
exception does not drop the list of a name of which it was the last session.
-/

namespace LiteChat

open LiteChat.Action Spec Server

variable {P : Platform} {E : Env} {w w' : World P}

/-! ## The names on a list -/

/-- The names on the friend list of `i`, one for each row. -/
def namesIn (users : List UserRow) (friends : List FriendRow) (i : UserId) : List Str :=
  users.flatMap fun u => (friends.filter fun f =>
    (f.userId1 = u.userId ∨ f.userId2 = u.userId) ∧ (f.userId1 = i ∨ f.userId2 = i) ∧
      u.userId ≠ i).map fun _ => u.username

/-- The names on the friend list of the account. -/
def Database.friendNames (db : Database P) (i : UserId) : List Str := (db.friendsOf i).map Prod.fst

theorem Database.friendNames_eq (db : Database P) (i : UserId) :
    db.friendNames i = namesIn db.users db.friends i := by
  unfold friendNames friendsOf namesIn
  simp only [List.map_flatMap, List.map_map, Function.comp_def]

/-- The row puts nobody on the list of `i`. -/
def FriendRow.Spares (f : FriendRow) (i : UserId) : Prop :=
  f.userId1 = f.userId2 ∨ (f.userId1 ≠ i ∧ f.userId2 ≠ i)

/-- A row that spares `i` is none of those that the query of the friend list of `i` joins with another
user. -/
theorem FriendRow.Spares.not_lists {f : FriendRow} {i j : UserId} (h : f.Spares i) :
    ¬ ((f.userId1 = j ∨ f.userId2 = j) ∧ (f.userId1 = i ∨ f.userId2 = i) ∧ j ≠ i) := by
  rintro ⟨hj, hi, hne⟩
  rcases h with hself | ⟨h₁, h₂⟩
  · rw [hself, or_self] at hj hi
    exact hne (hj.symm.trans hi)
  · exact hi.elim h₁ h₂

/-- A new row that spares `i` is not seen on the list of `i`. -/
theorem namesIn_append_spares {users : List UserRow} {friends : List FriendRow} {f : FriendRow}
    {i : UserId} (h : f.Spares i) : namesIn users (friends ++ [f]) i = namesIn users friends i := by
  refine List.flatMap_congr fun u _ => ?_
  rw [List.filter_append, List.filter_cons_of_neg (by simpa using h.not_lists), List.filter_nil,
    List.append_nil]

/-- Nor is it missed there when it is deleted. -/
theorem namesIn_filter_spares {users : List UserRow} {friends : List FriendRow} {f : FriendRow}
    {i : UserId} (h : f.Spares i) :
    namesIn users (friends.filter (· ≠ f)) i = namesIn users friends i := by
  refine List.flatMap_congr fun u _ => ?_
  rw [List.filter_filter]
  congr 1
  refine List.filter_congr fun g _ => ?_
  by_cases hg : g = f
  · subst hg
    simpa using h.not_lists
  · simp [hg]

/-- Users who keep their ids, and their names if a row joins them with `i`, are on the list of `i` as
before. -/
theorem namesIn_map {users : List UserRow} {friends : List FriendRow} {i : UserId}
    {f : UserRow → UserRow} (hid : ∀ u ∈ users, (f u).userId = u.userId)
    (hname : ∀ u ∈ users, (f u).username = u.username ∨
      ∀ g ∈ friends, ¬ g.joins i u.userId) :
    namesIn (users.map f) friends i = namesIn users friends i := by
  unfold namesIn
  rw [List.flatMap_map]
  refine List.flatMap_congr fun u hu => ?_
  rw [hid u hu]
  rcases hname u hu with hname | hnone
  · rw [hname]
  · -- no row joins this user with `i`, so the new name is not on the list either
    have hnil : (friends.filter fun g => (g.userId1 = u.userId ∨ g.userId2 = u.userId) ∧
        (g.userId1 = i ∨ g.userId2 = i) ∧ u.userId ≠ i) = [] := by
      refine List.filter_eq_nil_iff.mpr fun g hg => ?_
      simp only [decide_eq_true_eq]
      intro hlists
      exact hnone g hg ((FriendRow.joins_iff hlists.2.2).mpr hlists)
    rw [hnil, List.map_nil, List.map_nil]

/-- A user whom no row mentions is on nobody's list. -/
theorem namesIn_append_user {users : List UserRow} {friends : List FriendRow} {i : UserId}
    {u : UserRow} (h : ∀ g ∈ friends, g.userId1 ≠ u.userId ∧ g.userId2 ≠ u.userId) :
    namesIn (users ++ [u]) friends i = namesIn users friends i := by
  have hnil : (friends.filter fun g => (g.userId1 = u.userId ∨ g.userId2 = u.userId) ∧
      (g.userId1 = i ∨ g.userId2 = i) ∧ u.userId ≠ i) = [] := by
    refine List.filter_eq_nil_iff.mpr fun g hg => ?_
    simp only [decide_eq_true_eq]
    exact fun hlists => hlists.1.elim (h g hg).1 (h g hg).2
  unfold namesIn
  rw [List.flatMap_append, List.flatMap_cons, List.flatMap_nil, hnil, List.map_nil, List.append_nil,
    List.append_nil]

/-! ## What an event does to the cache -/

/-- The operations that leave the cache alone. -/
def Op.SparesCache : Op → Prop
  | .cacheInsert _ _ | .cacheErase _ => False
  | _ => True

theorem Op.Reads.sparesCache {o : Op} (ho : o.Reads) : o.SparesCache := by
  cases o with
  | cacheInsert | cacheErase => exact absurd ho id
  | _ => trivial

theorem Op.WritesOnly.sparesCache {S : Stmt → Prop} {o : Op} (ho : o.WritesOnly S) :
    o.SparesCache := by
  rcases ho with ho | ⟨st, rfl, _⟩
  · exact ho.sparesCache
  · trivial

theorem Op.Enters.sparesCache {o : Op} (ho : o.Enters) : o.SparesCache := by
  cases ho with
  | reads ho => exact ho.sparesCache
  | _ => trivial

theorem Op.Accepts.sparesCache {o : Op} (ho : o.Accepts) : o.SparesCache := by
  cases ho <;> trivial

theorem World.handle_sparesCache {o : Op} (ho : o.SparesCache) (ch : Choice) (w : World P) :
    (World.handle o ch w).2.cachedFriendLists = w.cachedFriendLists := by
  have hfollows := fun ho : World.Follows o => World.handle_follows ho ch w
  cases o with
  | cacheInsert | cacheErase => exact absurd ho id
  | sql st =>
    obtain ⟨db, hw, _⟩ := w.execute_world st ch
    show (w.execute st ch).2.cachedFriendLists = _
    rw [hw]
  | getSocket | getUsername | getLastHeartbeat | getIsConnected | setUsername | updateHeartbeat =>
    obtain ⟨sessions, lost, hw⟩ := hfollows trivial
    rw [hw]
  | _ => rfl

/-- Code that calls only such operations leaves the cache alone. -/
theorem wp_sparesCache {α : Type} {p : Action α} (hp : p.Uses Op.SparesCache) :
    wp E p (fun _ w' => w'.cachedFriendLists = w.cachedFriendLists) w :=
  Effect.Prog.wp_frame hp (fun w w' : World P => w'.cachedFriendLists = w.cachedFriendLists)
    (fun _ => rfl) (fun _ _ _ h h' => h'.trans h) fun _ ch t ho _ => World.handle_sparesCache ho ch t

/-- The request was a login and the answer says that it was accepted. -/
def LoginAccepted (request : Request) (response : Response) : Prop :=
  request.type = bytes "LOGIN" ∧ response.code = 0

/-- What serving a request does to the cache. -/
inductive CacheServed (w : World P) (request : Request) :
    Response → Effect.Map Str (List Str) → Prop
  | same (response : Response) (h : ¬ LoginAccepted request response) :
      CacheServed w request response w.cachedFriendLists
  | listed (response : Response) (i : UserId) (fs : List Str) (h : LoginAccepted request response)
      (hi : w.db.idOf request.username = some i) (hfs : fs.Perm (w.db.friendNames i)) :
      CacheServed w request response (w.cachedFriendLists.insert request.username fs)

theorem OnlyUser.friendNames {i : UserId} {db db' : Database P} (h : OnlyUser i db db')
    (j : UserId) : db'.friendNames j = db.friendNames j := by
  obtain ⟨f, hf, hf'⟩ := h.users
  rw [Database.friendNames_eq, Database.friendNames_eq, hf, h.friends]
  exact namesIn_map (fun r _ => (hf' r).1) fun r _ => .inl (hf' r).2.1

/-- A login that is accepted leaves the cache to what comes after it, and what comes after it will read
the same list: the login touches neither the names nor the friends. -/
theorem wp_handleLogin_cache (request : Request) :
    wp E (UserManager.handleLogin P request) (fun response w' =>
      w'.cachedFriendLists = w.cachedFriendLists ∧ (response.code = 0 →
        ∃ i, w.db.idOf request.username = some i ∧ w'.db.idOf request.username = some i ∧
          w'.db.friendNames i = w.db.friendNames i)) w := by
  have hcache : (UserManager.handleLogin P request).Uses Op.SparesCache :=
    (handleLogin_enters request).mono fun _ => Op.Enters.sparesCache
  refine wp_and (wp_sparesCache hcache) (wp_handleLogin ?_ ?_)
  · exact fun response hcode _ h => absurd h hcode
  · intro r kicks w' haccepts hlogin _
    have hid : w.db.idOf request.username = some r.userId := by
      unfold Database.idOf
      rw [haccepts.2.1]
      rfl
    exact ⟨r.userId, hid, (hlogin.db.idOf _).trans hid, hlogin.db.friendNames _⟩

/-- `CacheFriendList` stores the list of the account that the name selects, in the order in which the
rows come. -/
theorem wp_cacheFriendList (hE : ¬ E.dbFails) {u : Str} {i : UserId} (hi : w.db.idOf u = some i) :
    wp E (FriendManager.cacheFriendList u) (fun _ w' => ∃ fs, fs.Perm (w.db.friendNames i) ∧
      w' = { w with cachedFriendLists := w.cachedFriendLists.insert u fs }) w := by
  unfold FriendManager.cacheFriendList
  simp only [wp_bind, wp_getUserIdByUsername, hi]
  refine ⟨fun hf => absurd hf hE, ?_⟩
  simp only [wp_getFriendList, wp_cacheInsert]
  refine ⟨fun hf => absurd hf hE, fun rank => ⟨_, ?_, rfl⟩⟩
  exact (Effect.arrange_perm rank _).map Prod.fst

/-- Serving a login stores the list exactly if the answer is 0. The push of the messages that wait comes
after it and leaves the cache alone. -/
theorem wp_serveLogin_cache (hE : ¬ E.dbFails) {request : Request}
    (htype : request.type = bytes "LOGIN") : wp E (Server.serveLogin P request)
      (fun response w' => CacheServed w request response w'.cachedFriendLists) w := by
  unfold Server.serveLogin
  rw [wp_bind]
  refine wp_mono (wp_handleLogin_cache request) fun response w₁ h₁ => ?_
  obtain ⟨hcache, hnames⟩ := h₁
  refine wp_if (fun hcode => ?_) fun hcode => ?_
  · obtain ⟨i, hi, hi₁, hnames⟩ := hnames hcode
    simp only [wp_bind, wp_pure]
    refine wp_mono (wp_cacheFriendList hE hi₁) fun _ w₂ h₂ => ?_
    obtain ⟨fs, hfs, hw₂⟩ := h₂
    have hpush : (MessageManager.pushOfflineMessages request.username).Uses Op.SparesCache :=
      (pushOfflineMessages_marks _).mono fun _ => Op.WritesOnly.sparesCache
    refine wp_mono (wp_sparesCache hpush) fun _ w₃ hw₃ => ?_
    rw [hw₃, hw₂, hcache]
    rw [hnames] at hfs
    exact .listed response i fs ⟨htype, hcode⟩ hi hfs
  · rw [wp_pure, hcache]
    exact .same response fun h => hcode h.2

/-- Whatever a request is, it stores a list exactly if it is a login that is answered 0. -/
theorem wp_serve_cache (hE : ¬ E.dbFails) (request : Request) : wp E (Server.serve P request)
    (fun response w' => CacheServed w request response w'.cachedFriendLists) w := by
  by_cases htype : request.type = bytes "LOGIN"
  · rw [serve_login htype]
    exact wp_serveLogin_cache hE htype
  · have hspares : (Server.serve P request).Uses Op.SparesCache :=
      serve_uses (fun _ => Op.Reads.sparesCache) (fun _ => trivial) fun h => absurd h htype
    refine wp_mono (wp_sparesCache hspares) fun response w' hw' => ?_
    rw [hw']
    exact .same response fun h => htype h.1

/-- What an event does to the cache. -/
inductive CacheChange (w : World P) : Event → Option (Request × Response) →
    Effect.Map Str (List Str) → Prop
  | same (e : Event) (served : Option (Request × Response))
      (hserved : ∀ request response, served = some (request, response) →
        ¬ LoginAccepted request response)
      (hend : ∀ c u, e = .hangup c → ¬ w.sessions.logins.At c u) :
      CacheChange w e served w.cachedFriendLists
  | listed (c : Socket) (root : Json) (request : Request) (response : Response) (i : UserId)
      (fs : List Str) (h : LoginAccepted request response)
      (hi : w.db.idOf request.username = some i) (hfs : fs.Perm (w.db.friendNames i)) :
      CacheChange w (.request c (some root)) (some (request, response))
        (w.cachedFriendLists.insert request.username fs)
  | erased (c : Socket) (u : Str) (hat : w.sessions.logins.At c u) :
      CacheChange w (.hangup c) none (w.cachedFriendLists.erase u)

theorem failConnection_sparesCache (c : Socket) :
    (Server.failConnection c).Uses Op.SparesCache := by
  refine .bind (uses_op trivial) fun _ => .bind (uses_op trivial) fun q => ?_
  cases q with
  | none => trivial
  | some q =>
    have rest : (do
        removeSession c
        addConnections (-1) : Action Unit).Uses Op.SparesCache :=
      .bind (uses_op trivial) fun _ => uses_op trivial
    refine .bind (uses_op trivial) fun u => uses_ite ?_ rest
    exact .bind (uses_op trivial) fun u => .bind (uses_caught trivial _ _) fun _ => rest

/-- A connection on which nobody is logged in ends without a word to the cache. -/
theorem wp_endConnection_idle {c : Socket} (h : ∀ u, ¬ w.sessions.logins.At c u) :
    wp E (Server.endConnection c) (fun _ w' => w'.cachedFriendLists = w.cachedFriendLists) w := by
  unfold Server.endConnection
  simp only [wp_bind, wp_getSession]
  cases hp : w.sessions.getSession c with
  | none => exact (wp_close).mpr rfl
  | some p =>
    obtain ⟨s, hs, _, hl⟩ := SessionManager.heap_of_getSession hp
    simp only [wp_bind, wp_getUsername hs]
    refine wp_if (fun hu => ?_) fun _ => ?_
    · exact absurd (SessionManager.at_iff.mpr ⟨hl, hu⟩) (h s.username)
    · simp only [wp_bind, wp_removeSession, wp_addConnections, wp_close]
      rfl

/-- What an event does to the cache, said once: nothing, or it stores the list of the name that logs in,
or it erases the list of the name whose connection ends. Only a heartbeat scan, which drops sessions and
keeps their lists, is left out. -/
theorem wp_event_cache (hE : ¬ E.dbFails) {e : Event} (hscan : e ≠ .heartbeatScan) :
    wp E (e.action P) (fun served w' => CacheChange w e served w'.cachedFriendLists) w := by
  have kept : ∀ {e : Event} {served : Option (Request × Response)} {w' : World P},
      (∀ request response, served = some (request, response) → ¬ LoginAccepted request response) →
      (∀ c u, e = .hangup c → ¬ w.sessions.logins.At c u) →
      w'.cachedFriendLists = w.cachedFriendLists →
      CacheChange w e served w'.cachedFriendLists := by
    intro e served w' hserved hend h
    rw [h]
    exact .same e served hserved hend
  cases e with
  | heartbeatScan => exact absurd rfl hscan
  | accept c =>
    have hp := (acceptConnection_accepts c).mono fun _ => Op.Accepts.sparesCache
    exact (wp_bind _ _).mpr (wp_mono (wp_sparesCache hp) fun _ _ => kept nofun nofun)
  | hangup c =>
    refine (wp_bind _ _).mpr ?_
    by_cases hlogin : ∃ u, w.sessions.logins.At c u
    · obtain ⟨u, hat⟩ := hlogin
      obtain ⟨hl, hu⟩ := SessionManager.at_iff.mp hat
      refine wp_mono (wp_endConnection_cleansUp hE hl hu) fun _ w' ⟨said, rank, hw', _⟩ => ?_
      rw [wp_pure, hw']
      exact .erased c u hat
    · have hidle : ∀ u, ¬ w.sessions.logins.At c u := fun u hat => hlogin ⟨u, hat⟩
      refine wp_mono (wp_endConnection_idle hidle) fun _ _ => kept nofun fun d u hd => ?_
      rw [← Event.hangup.inj hd]
      exact hidle u
  | request c parsed =>
    show wp E (handleData P c parsed) _ w
    unfold handleData
    rw [wp_bind]
    apply Server.wp_dispatchRequest_speaks
    · intro _
      exact wp_mono (wp_sparesCache (uses_op trivial)) fun _ _ => kept nofun nofun
    · -- an exception: the session goes, and its list stays
      intro e root garbage w₁ _ _ hw₁
      dsimp only
      rw [wp_bind]
      refine wp_mono (wp_sparesCache (failConnection_sparesCache c)) fun _ w₂ hw₂ => ?_
      exact kept nofun nofun (hw₂.trans hw₁.cachedFriendLists)
    · rintro root garbage request w₁ rfl _ hw₁
      have hcache₁ := hw₁.cachedFriendLists
      have hdb₁ := hw₁.db
      refine wp_mono (wp_serve_cache hE request) fun response w₂ hw₂ => ?_
      refine wp_mono (wp_sparesCache (uses_op trivial)) fun _ w₃ hw₃ => ?_
      show CacheChange w _ _ w₃.cachedFriendLists
      rw [hw₃]
      generalize w₂.cachedFriendLists = cached at hw₂
      cases hw₂ with
      | same h =>
        rw [hcache₁]
        refine .same _ _ ?_ nofun
        rintro _ _ ⟨⟩
        exact h
      | listed i fs h hi hfs =>
        rw [hcache₁]
        rw [hdb₁] at hi hfs
        exact .listed c root request response i fs h hi hfs

/-! ## Coherence -/

/-- Somebody is logged in under the name. -/
def Present (w : World P) (u : Str) : Prop := ∃ c, w.sessions.logins.At c u

/-- The cache has a list for each name that is logged in and for no other, and each is what
`GetFriendList` returns for the user of that name, up to the order of its rows. -/
structure CacheCoherent (w : World P) : Prop where
  keys : ∀ u, u ∈ w.cachedFriendLists ↔ Present w u
  lists : ∀ u, Present w u → ∃ i, w.db.idOf u = some i ∧
    wp .reliable (FriendDAO.getFriendList i) (fun result _ => ∃ friends, result = some friends ∧
      (FriendManager.getCachedFriendList w u).Perm (friends.map Prod.fst)) w

/-- The same, said of the tables. -/
structure CacheFaithful (w : World P) : Prop where
  list : ∀ u, Present w u → ∃ i fs, w.db.idOf u = some i ∧
    w.cachedFriendLists.lookup u = some fs ∧ fs.Perm (w.db.friendNames i)
  only : ∀ u fs, w.cachedFriendLists.lookup u = some fs → Present w u

/-- What is said of the tables is what is said of the server: `GetFriendList` reads the list off the
tables, in some order. -/
theorem CacheFaithful.coherent (h : CacheFaithful w) : CacheCoherent w := by
  refine ⟨fun u => ?_, fun u hu => ?_⟩
  · rw [← AList.lookup_isSome, Option.isSome_iff_exists]
    constructor
    · rintro ⟨fs, hfs⟩
      exact h.only u fs hfs
    · intro hu
      obtain ⟨i, fs, _, hfs, _⟩ := h.list u hu
      exact ⟨fs, hfs⟩
  · obtain ⟨i, fs, hi, hfs, hperm⟩ := h.list u hu
    refine ⟨i, hi, (wp_getFriendList).mpr ⟨fun hf => absurd hf id, fun rank => ⟨_, rfl, ?_⟩⟩⟩
    unfold FriendManager.getCachedFriendList
    rw [hfs]
    exact hperm.trans ((Effect.arrange_perm rank _).map Prod.fst).symm

/-! ## What keeps the cache coherent -/

/-- The name that is logged in on the connection. -/
def nameAt (w : World P) (c : Socket) : Option Str := (w.sessions.logins.login c).join

theorem nameAt_eq_some {c : Socket} {u : Str} :
    nameAt w c = some u ↔ w.sessions.logins.At c u := Option.join_eq_some_iff

/-- The accounts that the names logged in select. -/
def accountsHere (w : World P) : List UserId :=
  w.sessions.cliSessionMap.keys.filterMap fun c => (nameAt w c).bind w.db.idOf

theorem mem_accountsHere {i : UserId} :
    i ∈ accountsHere w ↔ ∃ u, Present w u ∧ w.db.idOf u = some i := by
  unfold accountsHere
  simp only [List.mem_filterMap, Option.bind_eq_some_iff, nameAt_eq_some]
  constructor
  · rintro ⟨c, _, u, hat, hi⟩
    exact ⟨u, ⟨c, hat⟩, hi⟩
  · rintro ⟨u, ⟨c, hat⟩, hi⟩
    exact ⟨c, SessionManager.mem_keys_of_at hat, u, hat, hi⟩

/-- The row that the names of a request select. -/
def rowOf (db : Database P) (request : Request) : Option FriendRow :=
  (db.idOf request.username).bind fun i =>
    (db.idOf (FriendManager.targetOf request)).map fun j => ⟨i, j⟩

/-- The request adds no row that puts anybody on the list of a user who is logged in, and deletes
none. -/
def SparesRows (w : World P) (request : Request) : Prop :=
  ∀ f ∈ rowOf w.db request, FriendManager.targetOf request ≠ [] →
    (request.type = bytes "ADD_FRIEND" ∧ request.username ≠ FriendManager.targetOf request ∧
        f ∉ w.db.friends ∨
      request.type = bytes "DEL_FRIEND" ∧ f ∈ w.db.friends) →
    ∀ i ∈ accountsHere w, f.Spares i

/-- The row that the request gives another name. -/
def renamedBy (w : World P) (request : Request) : Option UserRow :=
  if request.type = bytes "UPDATE_USER" ∧
      UserManager.validateUsername request.newUsername = true ∧
      w.db.byName request.newUsername = none then
    (w.db.byName request.username).filter fun r => P.md5 request.verifyPassword = r.passwordHash
  else none

/-- The request renames nobody who is logged in and no friend of such a user. -/
def SparesNames (w : World P) (request : Request) : Prop :=
  ∀ r ∈ renamedBy w request, r.userId ∉ accountsHere w ∧
    ∀ i ∈ accountsHere w, ∀ f ∈ w.db.friends, ¬ f.joins i r.userId

/-- A connection that ends is the only one of its name, unless an exception ends it, which leaves the
list: then it is not. And no request changes what is on the list of a user who is logged in. -/
def KeepsCache (w : World P) : Event → Prop
  | .hangup c => ∀ u ∈ nameAt w c, ∀ d ∈ w.sessions.cliSessionMap.keys, nameAt w d = some u → d = c
  | .request c (some root) =>
    match requestIn w (.request c (some root)) with
    | none => ∀ u ∈ nameAt w c, ∃ d ∈ w.sessions.cliSessionMap.keys, d ≠ c ∧ nameAt w d = some u
    | some request => SparesRows w request ∧ SparesNames w request
  | _ => True

instance (f : FriendRow) (i : UserId) : Decidable (f.Spares i) := by
  unfold FriendRow.Spares
  infer_instance

instance (w : World P) (request : Request) : Decidable (SparesRows w request) := by
  unfold SparesRows
  infer_instance

instance (w : World P) (request : Request) : Decidable (SparesNames w request) := by
  unfold SparesNames
  infer_instance

instance (w : World P) (e : Event) : Decidable (KeepsCache w e) := by
  apply Event.casesOn (motive := fun e => Decidable (KeepsCache w e)) e
  case request =>
    intro c parsed
    apply Option.casesOn (motive := fun parsed => Decidable (KeepsCache w (.request c parsed))) parsed
    case some =>
      intro root
      unfold KeepsCache
      dsimp only
      split <;> infer_instance
    all_goals unfold KeepsCache; infer_instance
  all_goals intros; unfold KeepsCache; infer_instance

/-! ## One step -/

/-- Nobody comes or goes and no list changes. -/
theorem CacheFaithful.kept (h : CacheFaithful w)
    (hcache : w'.cachedFriendLists = w.cachedFriendLists)
    (hpresent : ∀ u, Present w' u ↔ Present w u)
    (hid : ∀ u i, Present w u → w.db.idOf u = some i → w'.db.idOf u = some i)
    (hnames : ∀ i ∈ accountsHere w, w'.db.friendNames i = w.db.friendNames i) :
    CacheFaithful w' := by
  constructor
  · intro u hu
    have hu := (hpresent u).mp hu
    obtain ⟨i, fs, hi, hfs, hperm⟩ := h.list u hu
    refine ⟨i, fs, hid u i hu hi, hcache ▸ hfs, ?_⟩
    rw [hnames i (mem_accountsHere.mpr ⟨u, hu, hi⟩)]
    exact hperm
  · intro u fs hfs
    rw [hcache] at hfs
    exact (hpresent u).mpr (h.only u fs hfs)

/-- The name `u` comes, with its list; nobody else comes or goes. -/
theorem CacheFaithful.listed {u : Str} {i : UserId} {fs : List Str} (h : CacheFaithful w)
    (hcache : w'.cachedFriendLists = w.cachedFriendLists.insert u fs)
    (hi : w.db.idOf u = some i) (hfs : fs.Perm (w.db.friendNames i))
    (hpresent : ∀ v, Present w' v ↔ v = u ∨ Present w v)
    (hid : ∀ v, w'.db.idOf v = w.db.idOf v)
    (hnames : ∀ i, w'.db.friendNames i = w.db.friendNames i) : CacheFaithful w' := by
  constructor
  · intro v hv
    rw [hcache, Effect.Map.lookup_insert, hid]
    by_cases hvu : v = u
    · subst hvu
      rw [if_pos rfl]
      exact ⟨i, fs, hi, rfl, (hnames i) ▸ hfs⟩
    · rw [if_neg hvu]
      obtain ⟨j, gs, hj, hgs, hperm⟩ := h.list v (((hpresent v).mp hv).resolve_left hvu)
      exact ⟨j, gs, hj, hgs, (hnames j) ▸ hperm⟩
  · intro v gs hgs
    rw [hcache, Effect.Map.lookup_insert] at hgs
    by_cases hvu : v = u
    · exact (hpresent v).mpr (.inl hvu)
    · rw [if_neg hvu] at hgs
      exact (hpresent v).mpr (.inr (h.only v gs hgs))

/-- The name `u` goes, with its list. -/
theorem CacheFaithful.erased {u : Str} (h : CacheFaithful w)
    (hcache : w'.cachedFriendLists = w.cachedFriendLists.erase u)
    (hpresent : ∀ v, Present w' v ↔ v ≠ u ∧ Present w v)
    (hid : ∀ v, w'.db.idOf v = w.db.idOf v)
    (hnames : ∀ i, w'.db.friendNames i = w.db.friendNames i) : CacheFaithful w' := by
  constructor
  · intro v hv
    obtain ⟨hvu, hv⟩ := (hpresent v).mp hv
    obtain ⟨i, fs, hi, hfs, hperm⟩ := h.list v hv
    rw [hcache, Effect.Map.lookup_erase, if_neg hvu, hid]
    exact ⟨i, fs, hi, hfs, (hnames i) ▸ hperm⟩
  · intro v fs hfs
    rw [hcache, Effect.Map.lookup_erase] at hfs
    by_cases hvu : v = u
    · rw [if_pos hvu] at hfs
      cases hfs
    · rw [if_neg hvu] at hfs
      exact (hpresent v).mpr ⟨hvu, h.only v fs hfs⟩

/-- To mark somebody offline renames nobody, so all lists stay. -/
theorem SignedOff.friendNames {db db' : Database P} {login : Option (Option Str)}
    (h : SignedOff E db db' login) (i : UserId) : db'.friendNames i = db.friendNames i := by
  obtain ⟨f, hid, hname, rfl, _⟩ := h.mapUsers
  rw [Database.friendNames_eq, Database.friendNames_eq]
  exact namesIn_map (fun u _ => hid u) fun u _ => .inl (hname u)

/-- Who is there once a connection is gone. -/
theorem Removed.present {c : Socket} (h : Removed E c w w') (v : Str) :
    Present w' v ↔ ∃ d, d ≠ c ∧ w.sessions.logins.At d v := by
  unfold Present
  simp only [h.logins, Logins.at_drop]

/-- What an event does to the rows of `friends` that are of no list in the cache. -/
theorem namesIn_of_spares {e : Event} {users : List UserRow} {fs : List FriendRow}
    (hrows : FriendsChange w e fs)
    (hcond : ∀ request, requestIn w e = some request → SparesRows w request) {i : UserId}
    (hi : i ∈ accountsHere w) : namesIn users fs i = namesIn users w.db.friends i := by
  have hrow : ∀ {request : Request} {f : FriendRow}, NamesRow w.db request f →
      f ∈ rowOf w.db request := by
    intro request f hnames
    unfold rowOf
    rw [hnames.user, Option.bind_some, hnames.target]
    rfl
  cases hrows with
  | same => rfl
  | added f hadd hnew =>
    obtain ⟨request, hrequest, htype, hself, hnames⟩ := hadd
    refine namesIn_append_spares (hcond request hrequest f (hrow hnames) hnames.asked ?_ i hi)
    exact .inl ⟨htype, hself, hnew⟩
  | deleted f hdel =>
    obtain ⟨request, hrequest, htype, hnames⟩ := hdel
    by_cases hf : f ∈ w.db.friends
    · refine namesIn_filter_spares (hcond request hrequest f (hrow hnames) hnames.asked ?_ i hi)
      exact .inr ⟨htype, hf⟩
    · -- there was no such row to delete
      congr 1
      exact List.filter_eq_self.mpr fun g hg => by simpa using fun hgf : g = f => hf (hgf ▸ hg)

/-- A new user is on no list: the id is a new one, and no row can have mentioned it. -/
theorem namesIn_insertUser {db db' : Database P} {u h : Str} (hinsert : db.insertUser u h = some db')
    (i : UserId) : namesIn db'.users db.friends i = namesIn db.users db.friends i := by
  rw [(Database.users_of_insertUser hinsert).2]
  refine namesIn_append_user fun g hg => ?_
  have hlt : ∀ {j : UserId}, j ∈ db.users.map (·.userId) → j ≠ db.nextUserId := by
    intro j hj
    obtain ⟨r, hr, rfl⟩ := List.mem_map.mp hj
    exact Nat.ne_of_lt (db.users_id_lt r hr)
  exact (db.friends_user g hg).imp hlt hlt

/-- A change of the data of the row `r` keeps the lists that `r` is not on, if it is renamed. -/
theorem namesIn_userUpdated {db db' : Database P} {request : Request} {r : UserRow} {i : UserId}
    (hupdate : UserUpdated E request r.userId db db')
    (hfree : UserManager.validateUsername request.newUsername = true →
      (¬ E.dbFails → db.byName request.newUsername = none) →
      ∀ f ∈ db.friends, ¬ f.joins i r.userId) :
    namesIn db'.users db.friends i = namesIn db.users db.friends i := by
  obtain ⟨db₁, hrename, hpassword⟩ := hupdate
  have h₁ : namesIn db₁.users db.friends i = namesIn db.users db.friends i := by
    rcases hrename with rfl | ⟨_, hvalid, hnone, hupdate⟩
    · rfl
    · rw [(Database.users_of_updateUsername hupdate).2]
      refine namesIn_map (fun u _ => Database.renameRow_userId _ _ u) fun u _ => ?_
      -- only the row `r` gets another name, and then no row joins it with `i`
      by_cases hu : u.userId = r.userId
      · refine .inr fun f hf => ?_
        rw [hu]
        exact hfree hvalid hnone f hf
      · exact .inl (by rw [Database.renameRow, if_neg hu])
  rcases hpassword with rfl | rfl
  · exact h₁
  · refine Eq.trans ?_ h₁
    exact namesIn_map (fun u _ => by split <;> rfl) fun u _ => .inl (by split <;> rfl)

/-- A request that spares the names keeps the ids and lists of the users who are logged in, when it
changes the data of a row. -/
theorem SparesNames.userUpdated {db' : Database P} {request : Request} {r : UserRow}
    (h : SparesNames w request) (htype : request.type = bytes "UPDATE_USER")
    (hr : w.db.byName request.username = some r)
    (hmd5 : P.md5 request.verifyPassword = r.passwordHash)
    (hupdate : UserUpdated .reliable request r.userId w.db db') :
    (∀ u i, Present w u → w.db.idOf u = some i → db'.idOf u = some i) ∧
      ∀ i ∈ accountsHere w, namesIn db'.users w.db.friends i = namesIn w.db.users w.db.friends i := by
  have hrename : UserManager.validateUsername request.newUsername = true →
      w.db.byName request.newUsername = none → r ∈ renamedBy w request := by
    intro hvalid hnone
    unfold renamedBy
    rw [if_pos ⟨htype, hvalid, hnone⟩, hr]
    exact Option.filter_eq_some_iff.mpr ⟨rfl, by simpa using hmd5⟩
  constructor
  · intro u i hu hi
    obtain ⟨s, hs, rfl⟩ := Option.map_eq_some_iff.mp hi
    refine hupdate.idOf (Database.byName_iff.mp hr).1 hs fun hsr hvalid hnone => ?_
    refine (h r (hrename hvalid hnone)).1 (mem_accountsHere.mpr ⟨u, hu, ?_⟩)
    rw [hi, hsr]
  · intro i hi
    refine namesIn_userUpdated hupdate fun hvalid hnone f hf => ?_
    exact (h r (hrename hvalid (hnone id))).2 i hi f hf

/-- Only a login that is accepted changes the cache. -/
theorem CacheChange.eq_of_not_accepted {e : Event} {request : Request} {response : Response}
    {cached : Effect.Map Str (List Str)} (h : CacheChange w e (some (request, response)) cached)
    (hno : ¬ LoginAccepted request response) : cached = w.cachedFriendLists := by
  cases h with
  | same => rfl
  | listed _ _ _ _ _ _ hyes => exact absurd hyes hno

/-- A login that is accepted: its name comes, with the list that was just read, and whoever was kicked
is still there under that name. -/
theorem CacheFaithful.loggedIn {c : Socket} {root : Json} {garbage : Int} {request : Request}
    {i j : UserId} {kicks : Bool} {fs : List Str} {w₁ w₂ w₃ w' : World P} (h : CacheFaithful w)
    (hw : Attached w) (hc : c ∈ w.openSockets)
    (hrequest : requestOf w.sessions.logins c garbage root = .ok request) (hquiet : Quiet w w₁)
    (hlogin : LoggedIn E request.clientSocket request.username j kicks w₁ w₂)
    (hkeeps : Chats w₂ w₃) (hrest : Quiet w₃ w') (hfriends : w'.db.friends = w.db.friends)
    (hcached : w'.cachedFriendLists = w.cachedFriendLists.insert request.username fs)
    (hi : w.db.idOf request.username = some i) (hfs : fs.Perm (w.db.friendNames i)) :
    CacheFaithful w' := by
  have hlogins : w'.sessions.logins = w.sessions.logins.signIn kicks c request.username := by
    rw [hrest.logins, hkeeps.sessions, hlogin.logins, requestOf_clientSocket hrequest, hquiet.logins]
  have hfree : w.sessions.logins.Free c request.username :=
    free_of_requestOf hrequest (hw.hasSession c hc)
  refine h.listed hcached hi hfs (fun v => ?_) (fun v => ?_) fun k => ?_
  · unfold Present
    rw [hlogins]
    -- the name that logs in is there now; who else is there was there before
    by_cases hv : v = request.username
    · subst hv
      refine ⟨fun _ => .inl rfl, fun _ => ⟨c, ?_⟩⟩
      rw [Logins.at_signIn hfree.ne_none, if_pos rfl]
    · simp only [Logins.at_signIn_other hw.sound hfree hv, hv, false_or]
  · rw [hrest.db, hkeeps.idOf, hlogin.db.idOf, hquiet.db]
  · have h₂ : w₂.db.friendNames k = w.db.friendNames k := by
      rw [hlogin.db.friendNames, hquiet.db]
    rw [← h₂, Database.friendNames_eq, Database.friendNames_eq, hfriends, hrest.db, hkeeps.users,
      hlogin.db.friends, hquiet.db]

/-- A request that is served and keeps to the condition keeps the cache, by the kinds of requests: one
that is refused, a registration, a change of user data, a login, and the others. -/
theorem CacheFaithful.served {c : Socket} {root : Json} {garbage : Int} {request : Request}
    {response : Response} {w₁ w₂ w' : World P} (h : CacheFaithful w) (hw : Attached w)
    (hc : c ∈ w.openSockets)
    (hrequest : requestOf w.sessions.logins c garbage root = .ok request) (hquiet : Quiet w w₁)
    (hserves : Serves .reliable request w₁ response w₂) (hrest : Quiet w₂ w')
    (hcache : CacheChange w (.request c (some root)) (some (request, response))
      w'.cachedFriendLists)
    (hrows : FriendsChange w (.request c (some root)) w'.db.friends)
    (hcond : KeepsCache w (.request c (some root))) : CacheFaithful w' := by
  obtain ⟨n, hin⟩ := requestIn_of_ok hrequest
  have hcond : SparesRows w request ∧ SparesNames w request := by
    unfold KeepsCache at hcond
    dsimp only at hcond
    rw [hin] at hcond
    exact hcond
  have hrows' : ∀ {users : List UserRow}, ∀ i ∈ accountsHere w,
      namesIn users w'.db.friends i = namesIn users w.db.friends i := by
    intro users i hi
    refine namesIn_of_spares hrows (fun r hr => ?_) hi
    rw [← Option.some.inj (hin.symm.trans hr)]
    exact hcond.1
  have same : ¬ LoginAccepted request response → w'.cachedFriendLists = w.cachedFriendLists :=
    hcache.eq_of_not_accepted
  have hat₁ : w₁.sessions.logins = w.sessions.logins := hquiet.logins
  have hdb' : w'.db = w₂.db := hrest.db
  -- a request that is no login leaves everybody where he is
  have unmoved : w₂.sessions.logins = w₁.sessions.logins → ∀ u, Present w' u ↔ Present w u := by
    intro hsessions u
    unfold Present
    rw [hrest.logins, hsessions, hat₁]
  have names : (∀ i ∈ accountsHere w,
      namesIn w'.db.users w.db.friends i = namesIn w.db.users w.db.friends i) →
      ∀ i ∈ accountsHere w, w'.db.friendNames i = w.db.friendNames i := by
    intro husers i hi
    rw [Database.friendNames_eq, Database.friendNames_eq, hrows' i hi, husers i hi]
  cases hserves with
  | refused _ hlogin =>
    have hno : ¬ LoginAccepted request response := fun hyes => (hlogin hyes.1).1 hyes.2
    refine h.kept (same hno) (unmoved rfl) (fun u i _ hi => ?_) (names fun i _ => ?_)
    · rw [hdb', hquiet.db]
      exact hi
    · rw [hdb', hquiet.db]
  -- a new user is on no list
  | registered _ db htype _ hinsert =>
    rw [hquiet.db] at hinsert
    have hno : ¬ LoginAccepted request response := fun hyes =>
      absurd (htype.symm.trans hyes.1) (by decide)
    refine h.kept (same hno) (unmoved rfl) (fun u i _ hi => ?_) (names fun i _ => ?_)
    · rw [hdb']
      exact Database.idOf_insertUser hinsert hi
    · rw [hdb']
      exact namesIn_insertUser hinsert i
  | updated _ r db htype hr hmd5 hupdate =>
    rw [hquiet.db] at hr hupdate
    have hno : ¬ LoginAccepted request response := fun hyes =>
      absurd (htype.symm.trans hyes.1) (by decide)
    obtain ⟨hids, hnames⟩ := hcond.2.userUpdated htype hr hmd5 hupdate
    refine h.kept (same hno) (unmoved rfl) (fun u i hu hi => ?_) (names fun i hi => ?_)
    · rw [hdb']
      exact hids u i hu hi
    · rw [hdb']
      exact hnames i hi
  -- rows of `friends` may come and go, as `namesIn_of_spares` allows
  | other _ _ hlogin hkeeps =>
    have hno : ¬ LoginAccepted request response := fun hyes => hlogin hyes.1
    have hid : ∀ u, w'.db.idOf u = w.db.idOf u := fun u => by
      rw [hdb', hkeeps.idOf, hquiet.db]
    refine h.kept (same hno) (unmoved (by rw [hkeeps.sessions])) (fun u i _ hi => ?_)
      (names fun i _ => ?_)
    · exact (hid u).trans hi
    · rw [hdb', hkeeps.users, hquiet.db]
  | loggedIn r kicks w₃ _ htype haccepts hlogin hkeeps =>
    have hyes : LoginAccepted request UserManager.loginAccepted := ⟨htype, rfl⟩
    have hfriends : w'.db.friends = w.db.friends :=
      hrows.eq_of_type hin (by rw [htype]; decide) (by rw [htype]; decide)
    generalize hcached : w'.cachedFriendLists = cached at hcache
    cases hcache with
    | same _ _ hserved => exact absurd hyes (hserved _ _ rfl)
    | listed _ _ _ _ i fs _ hi hfs =>
      exact h.loggedIn hw hc hrequest hquiet hlogin hkeeps hrest hfriends hcached hi hfs

/-- **The cache stays coherent** through an event as `KeepsCache` says. -/
theorem CacheFaithful.next {e : Event} {served : Option (Request × Response)}
    (h : CacheFaithful w) (hw : Attached w) (happens : Happens .reliable w e served w')
    (he : e.Enabled P w) (hcache : CacheChange w e served w'.cachedFriendLists)
    (hrows : FriendsChange w e w'.db.friends) (hscan : e ≠ .heartbeatScan)
    (hcond : KeepsCache w e) : CacheFaithful w' := by
  generalize hcached : w'.cachedFriendLists = cached at hcache
  cases happens with
  | disabled _ hnot => exact absurd he hnot
  | scanned => exact absurd rfl hscan
  | turnedAway c _ _ hdb hsessions =>
    cases hcache
    refine h.kept hcached (fun u => ?_) (fun u i _ hi => hdb ▸ hi) fun i _ => by rw [hdb]
    unfold Present
    rw [hsessions]
  | accepted c _ hc hdb hlogins =>
    cases hcache
    refine h.kept hcached (fun u => ?_) (fun u i _ hi => hdb ▸ hi) fun i _ => by rw [hdb]
    unfold Present
    simp only [hlogins, Logins.at_connect]
    refine exists_congr fun d => and_iff_right_of_imp ?_
    -- the descriptor is new, so nobody is logged in on it
    rintro hat rfl
    exact hc (hw.isOpen d fun hnone => absurd (hat.symm.trans hnone) (by simp))
  | malformed c _ hquiet =>
    cases hcache
    refine h.kept hcached (fun u => ?_) (fun u i _ hi => hquiet.db ▸ hi) fun i _ => by rw [hquiet.db]
    unfold Present
    rw [hquiet.logins]
  -- the catch block keeps the list, so the condition asks for another session of that name
  | thrown c root garbage e w₁ _ herror hquiet hremoved =>
    cases hcache
    have hthrown : requestIn w (.request c (some root)) = none :=
      requestIn_of_error herror
    refine h.kept hcached (fun u => ?_) (fun u i _ hi => ?_) fun i _ => ?_
    · rw [hremoved.present, hquiet.logins]
      constructor
      · rintro ⟨d, _, hat⟩
        exact ⟨d, hat⟩
      · rintro ⟨d, hat⟩
        by_cases hdc : d = c
        · subst hdc
          unfold KeepsCache at hcond
          dsimp only at hcond
          rw [hthrown] at hcond
          obtain ⟨d', _, hd', hat'⟩ := hcond u (nameAt_eq_some.mpr hat)
          exact ⟨d', hd', nameAt_eq_some.mp hat'⟩
        · exact ⟨d, hdc, hat⟩
    · rw [hremoved.db.idOf, hquiet.db]
      exact hi
    · rw [hremoved.db.friendNames, hquiet.db]
  | hungUp c _ hremoved =>
    have hid := hremoved.db.idOf
    have hnames := hremoved.db.friendNames
    cases hcache with
    | same _ _ _ hend =>
      refine h.kept hcached (fun u => ?_) (fun u i _ hi => (hid u).trans hi) fun i _ => hnames i
      rw [hremoved.present]
      refine exists_congr fun d => and_iff_right_of_imp ?_
      rintro hat rfl
      exact hend d u rfl hat
    -- the list goes, so the condition asks that there be no other session of that name
    | erased _ u hat =>
      refine h.erased hcached (fun v => ?_) hid hnames
      rw [hremoved.present]
      constructor
      · rintro ⟨d, hdc, hd⟩
        refine ⟨?_, d, hd⟩
        rintro rfl
        exact hdc (hcond v (nameAt_eq_some.mpr hat) d (SessionManager.mem_keys_of_at hd)
          (nameAt_eq_some.mpr hd))
      · rintro ⟨hvu, d, hd⟩
        refine ⟨d, ?_, hd⟩
        rintro rfl
        exact hvu (Option.some.inj (Option.some.inj (hd.symm.trans hat)))
  | served c root garbage request response w₁ w₂ _ hc hrequest hquiet hserves hrest =>
    exact h.served hw hc hrequest hquiet hserves hrest (hcached ▸ hcache) hrows hcond

/-! ## Runs -/

/-- At first nobody is logged in, and no list is stored. -/
theorem CacheFaithful.start (db : Database P) : CacheFaithful (World.start db) := by
  constructor
  · rintro u ⟨c, hat⟩
    exact absurd hat (by simp [World.start, Logins.At, Logins.empty])
  · intro u fs hfs
    cases hfs

/-- **The cache is coherent** in every run of requests and disconnections that all keep it so. The run
is any list of events without failing statements and without heartbeat scans; what is asked of an event,
in the state before it, is that a connection that ends is the only one of its name, that one which an
exception ends is not, and that no request adds or deletes a row, or gives a name, that is on the list
of somebody who is logged in. -/
theorem cacheCoherent_run (db : Database P) (es : List (Event × List Choice))
    (h : Effect.Meets next (fun w e => (NoDbFailure e ∧ e.1 ≠ .heartbeatScan) ∧
      (e.1.Enabled P w → KeepsCache w e.1)) (World.start db) es) :
    CacheCoherent (Effect.runAll next (World.start db) es) := by
  let Inv : World P → Prop := fun w => Attached w ∧ CacheFaithful w
  have hrun : Inv (Effect.runAll next (World.start db) es) := by
    refine Effect.runAll_inv ⟨.start db, .start db⟩ ?_ h
    rintro w ⟨e, cs⟩ ⟨hw, hcache⟩ ⟨⟨hdb, hscan⟩, hcond⟩
    have hcs : ∀ ch ∈ cs, Env.reliable.Ok ch := fun ch hch => Env.ok_reliable.mpr (hdb ch hch)
    have happens := step_happens .reliable w e cs hcs
    refine ⟨hw.next happens hscan, ?_⟩
    by_cases he : e.Enabled P w
    · have hchange : CacheChange w e (step w e cs).1 (step w e cs).2.cachedFriendLists := by
        unfold step
        rw [if_pos he]
        exact run_of_wp (wp_event_cache id hscan) cs hcs
      exact hcache.next hw happens he hchange (friends_step w e cs) hscan (hcond he)
    · show CacheFaithful (step w e cs).2
      unfold step
      rw [if_neg he]
      exact hcache
  exact hrun.2.coherent

instance (e : Event) : Decidable (e = .heartbeatScan) :=
  match e with
  | .accept _ | .request _ _ | .hangup _ => .isFalse nofun
  | .heartbeatScan => .isTrue rfl

def bobLogsInToo : Event × List Choice :=
  (.request 2 (flatBody [("type", "LOGIN"), ("username", "bob"), ("password", "qwerty")]), [])

/-- Alice has added Bob; both log in and Alice leaves. -/
def bothLogIn : List (Event × List Choice) :=
  aliceAddsBob ++ [aliceLogsIn, (.accept 2, []), bobLogsInToo, (.hangup 1, [])]

instance (e : Event × List Choice) : Decidable (NoDbFailure e) := by
  unfold NoDbFailure
  infer_instance

theorem cacheCoherent_both : CacheCoherent (Effect.runAll next
    (World.start (Database.empty : Database asciiCi)) bothLogIn) :=
  cacheCoherent_run Database.empty bothLogIn (by decide)

/-- Alice logs in and adds Bob: her list has him and her copy of it has not. -/
theorem not_cacheCoherent : ¬ ∀ es : List (Event × List Choice),
    (∀ e ∈ es, NoDbFailure e ∧ e.1 ≠ .heartbeatScan) → CacheCoherent (Effect.runAll next
      (World.start (Database.empty : Database asciiCi)) es) := by
  intro h
  let es := aliceRegisters ++
    [(.request 1 (flatBody [("type", "REGISTER"), ("username", "bob"), ("password", "qwerty")]), []),
      aliceLogsIn, addsFriend "alice" "bob"]
  let w := Effect.runAll next (World.start (Database.empty : Database asciiCi)) es
  have hcoherent : CacheCoherent w := h es (by decide)
  have hat : w.sessions.logins.At 1 (bytes "alice") := by unfold Logins.At; decide
  obtain ⟨i, hi, hlist⟩ := hcoherent.lists (bytes "alice") ⟨1, hat⟩
  have hid : w.db.idOf (bytes "alice") = some 1 := by decide
  obtain rfl := Option.some.inj (hid.symm.trans hi)
  obtain ⟨friends, hfriends, hperm⟩ := run_of_wp hlist [] nofun
  have hread : ((FriendDAO.getFriendList 1).run [] w).1 = some [(bytes "bob", false)] := by decide
  obtain rfl := Option.some.inj (hread.symm.trans hfriends)
  have hcached : FriendManager.getCachedFriendList w (bytes "alice") = [] := by decide
  rw [hcached] at hperm
  exact absurd hperm.nil_eq (by simp)

end LiteChat
