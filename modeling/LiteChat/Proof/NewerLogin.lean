import LiteChat.Proof.OneWinner
import Mathlib.Data.Finset.Insert

/-!
# A connection ends while its user logs in elsewhere

The end of a connection reads the name of its session and then clears the flag, tells the friends,
drops the cached friend list and removes the session, each by that name. A login of the same user on
another connection may set the same things in between. Only the route is safe in every interleaving:
`RemoveSession` looks whose it is. The flag and the cached list stay the login's if the end of the
connection has written them before. And the login may hold a pointer to the session that the other
thread deletes.

The two threads share nothing but four facts about the name: its flag, its route, its session and its
list. The invariant (`Replacing`) says of each that it is as the login has left it, once the login has
got there. The route needs no condition, since `RemoveSession` gives a route up only where it is its
own; flag and list are given up by name, and there the order decides.
-/

namespace LiteChat

open LiteChat.Action Effect UserManager Server

variable {P : Platform} {w w₀ : World P}

/-- The two threads. -/
inductive Side
  | leaving
  | entering
  deriving DecidableEq

instance : Fintype Side := ⟨{.leaving, .entering}, fun side => by cases side <;> decide⟩

def sides (P : Platform) (clientSocket : Socket) (request : Request) : Side → Action Unit
  | .leaving => endConnection clientSocket
  | .entering => do
    let _ ← serveLogin P request

/-- The user is online, reached on that connection, and has a cached friend list. -/
structure LoggedInOn (u : Str) (c : Socket) (w : World P) : Prop where
  flag : (w.db.byName u).map (·.isOnline) = some true
  route : w.sessions.route u = some c
  cached : (w.cachedFriendLists.lookup u).isSome = true

/-! ## The order of the calls -/

/-- The call by which the login sets the flag. -/
def setsFlag : Side × Op → Bool
  | (.entering, .sql (.updateOnline _ isOnline)) => isOnline
  | _ => false

/-- The call by which it caches the friend list of `u`. -/
def fillsCache (u : Str) : Side × Op → Bool
  | (.entering, .cacheInsert v _) => v = u
  | _ => false

/-- The end of the connection clears the flag of `u` before the login sets it, and drops the cached
list before the login fills it; and nobody uses a session that is gone. -/
def LeavesFirst (u : Str) (w : World P) (h : List (Side × Op)) : Op → Prop
  | .sql (.updateOnlineByName v _) =>
      w.db.idOf v = w.db.idOf u → ∀ e ∈ h, setsFlag e = false
  | .cacheErase v => v = u → ∀ e ∈ h, fillsCache u e = false
  | o => o.Live w

instance (u : Str) (w : World P) (h : List (Side × Op)) (o : Op) :
    Decidable (LeavesFirst u w h o) := by
  apply Op.casesOn (motive := fun o => Decidable (LeavesFirst u w h o)) o
  case sql =>
    intro st
    apply Stmt.casesOn (motive := fun st => Decidable (LeavesFirst u w h (.sql st))) st <;> intros <;>
      unfold LeavesFirst <;> try unfold Op.Live
    all_goals infer_instance
  all_goals intros; unfold LeavesFirst; try unfold Op.Live
  all_goals infer_instance

/-! ## What the end of a connection calls -/

def ExitCalls (clientSocket : Socket) : Op → Prop
  | .sql (.updateOnlineByName _ isOnline) => isOnline = false
  | .cacheErase _ => True
  | .removeSession c => c = clientSocket
  | o => o.Harmless

theorem Op.Harmless.exitCalls {c : Socket} {o : Op} (ho : o.Harmless) : ExitCalls c o := by
  cases o with
  | addSession | removeSession | bindUsername | setUsername | updateHeartbeat | cacheInsert
  | cacheErase => exact absurd ho id
  | sql st =>
    cases st with
    | insertUser | updateUsername | updatePassword | updateOnline | updateLastLogin
    | updateOnlineByName => exact absurd ho id
    | _ => trivial
  | _ => trivial

theorem endConnection_exit (c : Socket) : (endConnection c).Uses (ExitCalls c) := by
  refine (endConnection_exits c).mono fun o ho => ?_
  cases ho with
  | reads ho => exact ho.harmless.exitCalls
  | updateOnlineByName => rfl
  | removeSession => rfl
  | _ => trivial

/-! ## The invariant -/

/-- What holds between any two calls of the end of a connection and a login to the account `i`, on
the connection `c` with the session `p`. -/
structure Replacing (w₀ : World P) (u : Str) (i : UserId) (c : Socket) (p : SessionPtr) (w : World P)
    (h : List (Side × Op)) : Prop where
  credentials : ∀ v, w.db.credentials v = w₀.db.credentials v
  session : w.sessions.getSession c = some p
  flag : (.entering, .sql (.updateOnline i true)) ∈ h →
    (w.db.byName u).map (·.isOnline) = some true
  route : (.entering, .bindUsername c u) ∈ h → w.sessions.route u = some c
  cached : ∀ friends, (.entering, .cacheInsert u friends) ∈ h →
    (w.cachedFriendLists.lookup u).isSome = true
  defined : w.undefined = w₀.undefined

section Replacing

variable {u : Str} {i : UserId} {c c₁ : Socket} {p : SessionPtr} {h : List (Side × Op)} {side : Side}
  {o : Op}

/-- A call that leaves users' flags, sessions and the cache alone. -/
theorem Replacing.aside (hr : Replacing w₀ u i c p w h) {w' : World P}
    (hcred : ∀ v, w'.db.credentials v = w.db.credentials v)
    (hflag : (w'.db.byName u).map (·.isOnline) = (w.db.byName u).map (·.isOnline))
    (hsession : w'.sessions.getSession c = w.sessions.getSession c)
    (hroute : w'.sessions.route u = w.sessions.route u)
    (hcache : w'.cachedFriendLists = w.cachedFriendLists) (hdefined : w'.undefined = w.undefined)
    (hset : o ≠ .sql (.updateOnline i true)) (hbind : o ≠ .bindUsername c u)
    (hinsert : ∀ friends, o ≠ .cacheInsert u friends) :
    Replacing w₀ u i c p w' (h ++ [(side, o)]) where
  credentials v := (hcred v).trans (hr.credentials v)
  session := hsession.trans hr.session
  flag hmem := hflag.trans (hr.flag (Pool.mem_of_mem_concat hmem hset.symm))
  route hmem := hroute.trans (hr.route (Pool.mem_of_mem_concat hmem hbind.symm))
  cached friends hmem :=
    hcache ▸ hr.cached friends (Pool.mem_of_mem_concat hmem (hinsert friends).symm)
  defined := hdefined.trans hr.defined

theorem Replacing.harmless (hr : Replacing w₀ u i c p w h) (ho : o.Harmless) (hlive : o.Live w)
    (ch : Choice) : Replacing w₀ u i c p (World.handle o ch w).2 (h ++ [(side, o)]) := by
  have hw := World.handle_harmless ho ch w
  refine hr.aside hw.standing.credentials ?_ (hw.standing.getSession c) (hw.standing.route u)
    hw.cachedFriendLists (World.undefined_handle hlive ch) ?_ ?_ ?_
  · rw [hw.byName]
  · rintro rfl
    exact ho
  · rintro rfl
    exact ho
  · rintro friends rfl
    exact ho

/-- The calls of the end of the connection keep the invariant, if they come first: the flag is cleared
and the list is erased before the login sets them, and the session that is removed is not the one that
the name is routed to. -/
theorem Replacing.leaving (hr : Replacing w₀ u i c p w h) (hne : c ≠ c₁) (hok : ExitCalls c₁ o)
    (hcond : LeavesFirst u w h o) {ch : Choice} (hch : Answers ch) :
    Replacing w₀ u i c p (World.handle o ch w).2 (h ++ [(.leaving, o)]) := by
  have hharmless : o.Harmless → o.Live w →
      Replacing w₀ u i c p (World.handle o ch w).2 (h ++ [(.leaving, o)]) :=
    fun ho hlive => hr.harmless ho hlive ch
  cases o with
  | addSession | bindUsername | setUsername | updateHeartbeat | cacheInsert => exact absurd hok id
  | sql st =>
    cases st with
    | insertUser | updateUsername | updatePassword | updateOnline | updateLastLogin =>
      exact absurd hok id
    | updateOnlineByName v isOnline =>
      have hw : World.handle (.sql (.updateOnlineByName v isOnline)) ch w = (.ok (), { w with
          db := w.db.setOnlineWhere (fun r => P.weight r.username = P.weight v) isOnline }) :=
        execute_reliable hch rfl
      rw [hw]
      -- a row that the name does not select keeps its flag; the other has not been set yet
      by_cases hv : P.weight v = P.weight u
      · have hbefore := hcond (by
          unfold Database.idOf
          rw [Database.byName_congr hv])
        refine ⟨fun x => ?_, hr.session, fun hmem => ?_, fun hmem => ?_, fun friends hmem => ?_,
          hr.defined⟩
        · exact (Database.credentials_setOnlineWhere _ _ _ x).trans (hr.credentials x)
        · have := hbefore _ (Pool.mem_of_mem_concat hmem nofun)
          cases this
        · exact hr.route (Pool.mem_of_mem_concat hmem nofun)
        · exact hr.cached friends (Pool.mem_of_mem_concat hmem nofun)
      · refine hr.aside (fun x => Database.credentials_setOnlineWhere _ _ _ x) ?_ rfl rfl rfl rfl nofun
          nofun nofun
        refine (Database.flag_setOnlineWhere u).trans ?_
        cases hname : w.db.byName u with
        | none => rfl
        | some r =>
          have hrv : P.weight r.username ≠ P.weight v := by
            rw [(Database.byName_iff.mp hname).2]
            exact fun heq => hv heq.symm
          simp [hrv]
    | _ => exact hharmless trivial trivial
  | removeSession d =>
    obtain rfl : d = c₁ := hok
    refine ⟨hr.credentials, ?_, fun hmem => hr.flag (Pool.mem_of_mem_concat hmem nofun),
      fun hmem => ?_, fun friends hmem => hr.cached friends (Pool.mem_of_mem_concat hmem nofun),
      hr.defined⟩
    · show (w.sessions.removeSession d).getSession c = some p
      rw [SessionManager.getSession_removeSession, if_neg hne]
      exact hr.session
    · -- the route is another connection's by now
      have hroute := hr.route (Pool.mem_of_mem_concat hmem nofun)
      show (w.sessions.removeSession d).route u = some c
      rw [SessionManager.route_removeSession, if_neg fun hown => hne ?_]
      · exact hroute
      · exact Option.some.inj (hroute.symm.trans hown.2.2)
  -- another name, or the list of the login is still to come
  | cacheErase v =>
    refine ⟨hr.credentials, hr.session, fun hmem => ?_, fun hmem => ?_, fun friends hmem => ?_,
      hr.defined⟩
    · exact hr.flag (Pool.mem_of_mem_concat hmem nofun)
    · exact hr.route (Pool.mem_of_mem_concat hmem nofun)
    · have hmem' := Pool.mem_of_mem_concat hmem nofun
      have hv : u ≠ v := by
        intro huv
        have := hcond huv.symm _ hmem'
        simp [fillsCache] at this
      show (AList.lookup u (AList.erase v w.cachedFriendLists)).isSome = true
      rw [Map.lookup_erase, if_neg hv]
      exact hr.cached friends hmem'
  | _ => exact hharmless hok hcond

/-- The calls of the login keep the invariant, whenever they come. Each sets one of its four parts, or
leaves all of them alone. -/
theorem Replacing.entering (hr : Replacing w₀ u i c p w h)
    (haccount : ∃ hash, w₀.db.credentials u = some (i, hash))
    (hok : LoginCalls c u i p (Pool.own h .entering) o) (hlive : o.Live w) {ch : Choice}
    (hch : Answers ch) : Replacing w₀ u i c p (World.handle o ch w).2 (h ++ [(.entering, o)]) := by
  have hharmless : o.Harmless → Replacing w₀ u i c p (World.handle o ch w).2 (h ++ [(.entering, o)]) :=
    fun ho => hr.harmless ho hlive ch
  have hdefined := World.undefined_handle hlive ch
  have hfollows := fun ho : World.Follows o => World.handle_follows ho ch w
  cases o with
  | addSession | removeSession | cacheErase => exact absurd hok id
  | sql st =>
    cases st with
    | insertUser | updateUsername | updatePassword | updateOnlineByName => exact absurd hok id
    | updateLastLogin j =>
      have hw : World.handle (.sql (.updateLastLogin j)) ch w =
          (.ok (), { w with db := w.db.updateLastLogin j ch.now }) := execute_reliable hch rfl
      rw [hw]
      exact hr.aside (fun x => Database.credentials_updateLastLogin _ _ _ x)
        (Database.flag_updateLastLogin _ _ _) rfl rfl rfl rfl nofun nofun nofun
    | updateOnline j isOnline =>
      obtain ⟨rfl, hbefore⟩ := hok
      have hw : World.handle (.sql (.updateOnline j isOnline)) ch w =
          (.ok (), { w with db := w.db.setOnlineWhere (fun r => r.userId = j) isOnline }) :=
        execute_reliable hch rfl
      rw [hw]
      refine ⟨fun x => ?_, hr.session, fun hmem => ?_,
        fun hmem => hr.route (Pool.mem_of_mem_concat hmem nofun),
        fun friends hmem => hr.cached friends (Pool.mem_of_mem_concat hmem nofun), hr.defined⟩
      · exact (Database.credentials_setOnlineWhere _ _ _ x).trans (hr.credentials x)
      · cases isOnline with
        -- the login marks the account offline before it marks it online
        | false =>
          have hmem' := Pool.mem_of_mem_concat hmem (by simp)
          exact absurd (Pool.mem_own.mpr hmem') (hbefore rfl)
        | true =>
          obtain ⟨hash, hash₀⟩ := haccount
          have hname := (hr.credentials u).trans hash₀
          obtain ⟨r, hr', hrow⟩ := Option.map_eq_some_iff.mp hname
          refine (Database.flag_setOnlineWhere u).trans ?_
          rw [hr', Option.map_some, (Prod.mk.inj hrow).1]
          simp
    | _ => exact hharmless trivial
  | setUsername q v =>
    have hsessions := World.sessions_setUsername q v ch w
    obtain ⟨_, _, hw⟩ := hfollows trivial
    refine hr.aside (fun x => by rw [hw]) (by rw [hw]) ?_ ?_ (by rw [hw]) hdefined nofun nofun nofun
    · rw [hsessions, SessionManager.getSession_setUsername]
    · rw [hsessions, SessionManager.route_setUsername]
  -- from here on the name is routed to the new connection
  | bindUsername d v =>
    obtain ⟨rfl, rfl⟩ := hok
    refine ⟨hr.credentials, hr.session, fun hmem => hr.flag (Pool.mem_of_mem_concat hmem nofun),
      fun _ => ?_, fun friends hmem => hr.cached friends (Pool.mem_of_mem_concat hmem nofun),
      hr.defined⟩
    exact (SessionManager.route_bindUsername _ _ _ _).trans (if_pos rfl)
  | updateHeartbeat q =>
    have hs := World.handle_updateHeartbeat q ch w
    obtain ⟨_, _, hw⟩ := hfollows trivial
    exact hr.aside hs.credentials (by rw [hw]) (hs.getSession c) (hs.route u) (by rw [hw]) hdefined
      nofun nofun nofun
  -- the list of the name is stored, or the list of another
  | cacheInsert v friends =>
    refine ⟨hr.credentials, hr.session, fun hmem => hr.flag (Pool.mem_of_mem_concat hmem nofun),
      fun hmem => hr.route (Pool.mem_of_mem_concat hmem nofun), fun friends' hmem => ?_, hr.defined⟩
    show (AList.lookup u (AList.insert v friends w.cachedFriendLists)).isSome = true
    rw [Map.lookup_insert]
    by_cases huv : u = v
    · rw [if_pos huv]
      rfl
    · rw [if_neg huv]
      refine hr.cached friends' (Pool.mem_of_mem_concat hmem fun heq => huv ?_)
      exact (Op.cacheInsert.inj heq).1
  | _ => exact hharmless hok

theorem Replacing.start (hsession : w₀.sessions.getSession c = some p) :
    Replacing w₀ u i c p w₀ [] :=
  ⟨fun _ => rfl, hsession, nofun, nofun, nofun, rfl⟩

end Replacing

/-! ## Every interleaving -/

/-- What each side calls, and what it has called when it is done. -/
def sideCalls (clientSocket : Socket) (request : Request) (i : UserId) (p : SessionPtr) :
    Side → List Op → Op → Prop
  | .leaving, _, o => ExitCalls clientSocket o
  | .entering, own, o => LoginCalls request.clientSocket request.username i p own o

def sideDone (request : Request) (i : UserId) (p : SessionPtr) : Side → Unit → List Op → Prop
  | .leaving, _, _ => True
  | .entering, _, own => Cached (fun _ _ => True) request.clientSocket request.username i p own

theorem sides_among {clientSocket : Socket} {request : Request} {i : UserId} {p : SessionPtr}
    (hvalid : validateUsername request.username = true) (side : Side) :
    AmongThreads (P := P) (Relies request i p) (sideCalls clientSocket request i p side)
      (sides P clientSocket request side) (sideDone request i p side) [] := by
  cases side with
  | leaving =>
    exact (endConnection_exit clientSocket).amongOps (fun _ => True) trivial fun _ _ _ ho =>
      ⟨ho, trivial⟩
  | entering =>
    exact (serveLogin_among hvalid (fun _ hw => hw) fun _ _ _ _ _ _ => trivial).seq
      fun _ _ hdone => .pure hdone

/-- **A disconnect does not undo a newer login**, in every interleaving in which the end of the
connection comes first with the flag and with the cached list, and nobody uses a session that is gone.
`sides` are the two threads: the end of the connection `clientSocket`, and a login on another connection
that succeeds. When both are through, the user is online, routed to the new connection and has a cached
list. -/
theorem newerLogin_run {clientSocket : Socket} {request : Request}
    (hvalid : validateUsername request.username = true)
    (haccount : ∃ r, w₀.db.byName request.username = some r ∧
      r.passwordHash = P.md5 request.password)
    (hsession : w₀.sessions.loginAt request.clientSocket ≠ none)
    (hne : request.clientSocket ≠ clientSocket) (es : List (Side × Choice))
    (hes : Meets (Pool.step World.handle)
      (Pool.Allows Answers fun w h _ o => LeavesFirst request.username w h o)
      (Pool.start (sides P clientSocket request) w₀) es)
    (hfin : (runAll (Pool.step World.handle)
      (Pool.start (sides P clientSocket request) w₀) es).Finished) :
    LoggedInOn request.username request.clientSocket (runAll (Pool.step World.handle)
        (Pool.start (sides P clientSocket request) w₀) es).shared ∧
      (runAll (Pool.step World.handle)
        (Pool.start (sides P clientSocket request) w₀) es).shared.undefined = w₀.undefined := by
  obtain ⟨r, hr, hhash⟩ := haccount
  obtain ⟨p, hp⟩ := Option.ne_none_iff_exists'.mp fun hnone =>
    hsession (SessionManager.getSession_eq_none.mp hnone)
  have hcred : w₀.db.credentials request.username = some (r.userId, P.md5 request.password) := by
    unfold Database.credentials
    rw [hr, Option.map_some, hhash]
  obtain ⟨hreplacing, hdone⟩ := Pool.inv_ops
    (J := Replacing w₀ request.username r.userId request.clientSocket p)
    (sides_among (i := r.userId) (p := p) hvalid) (.start hp)
    (fun w h hw => ⟨(hw.credentials _).trans hcred, hw.session⟩)
    (fun w h side o ch hw hok hch hcond => by
      cases side with
      | leaving => exact hw.leaving hne hok hcond hch
      | entering =>
        refine hw.entering ⟨_, hcred⟩ hok ?_ hch
        cases o with
        | sql st => trivial
        | cacheErase v => trivial
        | _ => exact hcond) hes
  -- the login has made its three calls, so the invariant says what is there
  obtain ⟨hin, friends, hfriends⟩ := (hdone .entering (hfin _)).elim fun _ hdone => hdone
  exact ⟨⟨hreplacing.flag (Pool.mem_own.mp hin.flag), hreplacing.route (Pool.mem_own.mp hin.route),
    hreplacing.cached friends (Pool.mem_own.mp hfriends)⟩, hreplacing.defined⟩

/-! ## Alice moves to another connection -/

/-- Alice is logged in on the first of two connections. -/
def aliceOnFirst : World asciiCi :=
  runAll next (World.start Database.empty) (aliceRegisters ++ [aliceLogsIn, (.accept 2, [])])

def aliceMoves (schedule : List (Side × Nat)) : Pool Side Op Op.Res Unit (World asciiCi) :=
  runAll (Pool.step World.handle) (Pool.start (sides asciiCi 1 (aliceLogin 2)) aliceOnFirst)
    (turns schedule)

/-- The first connection clears the flag, then the login begins. -/
theorem newerLogin_after :
    LoggedInOn (aliceLogin 2).username (aliceLogin 2).clientSocket
        (aliceMoves [(.leaving, 4), (.entering, 3), (.leaving, 5), (.entering, 12), (.leaving, 3)]).shared ∧
      (aliceMoves [(.leaving, 4), (.entering, 3), (.leaving, 5), (.entering, 12),
        (.leaving, 3)]).shared.undefined = aliceOnFirst.undefined :=
  newerLogin_run (by decide) ⟨_, rfl, by decide⟩ (by decide) (by decide) _ (by decide) (by decide)

/-- The first connection has read the name when the login begins, and clears the flag when it is
over. -/
theorem not_newerLogin :
    ¬ ∀ (w₀ : World asciiCi) (clientSocket : Socket) (request : Request),
      validateUsername request.username = true →
      (∃ r, w₀.db.byName request.username = some r ∧
        r.passwordHash = asciiCi.md5 request.password) →
      w₀.sessions.loginAt clientSocket = some request.username →
      w₀.sessions.loginAt request.clientSocket = some [] →
      ∀ es : List (Side × Choice), (∀ e ∈ es, e.2.dbOk = true) →
        (runAll (Pool.step World.handle)
          (Pool.start (sides asciiCi clientSocket request) w₀) es).Finished →
        LoggedInOn request.username request.clientSocket (runAll (Pool.step World.handle)
          (Pool.start (sides asciiCi clientSocket request) w₀) es).shared := by
  intro h
  have hflag := (h aliceOnFirst 1 (aliceLogin 2) (by decide) ⟨_, rfl, by decide⟩ (by decide) (by decide)
    (turns [(.leaving, 3), (.entering, 21), (.leaving, 9)]) (by decide) (by decide)).flag
  have hcleared : ((aliceMoves [(.leaving, 3), (.entering, 21), (.leaving, 9)]).shared.db.byName
      (bytes "alice")).map (·.isOnline) = some false := by decide
  exact absurd (hcleared.symm.trans hflag) (by decide)

end LiteChat
