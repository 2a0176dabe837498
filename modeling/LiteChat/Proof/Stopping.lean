import LiteChat.Model.Lifecycle
import LiteChat.Proof.Cache
import LiteChat.Proof.Heartbeat
import LiteChat.Proof.Resources

/-!
# Stopping the server

`Stop` ends no connection: it signs the users off, shuts the sockets down, and leaves the rest to the
threads that read from them. Whatever statements fail, once each of these has come to its end nothing is
left: no descriptor, no session, no object on the heap, and nothing on the counter (`drained_run`). If the
flags agreed with the sessions and no statement of `Stop` fails, nobody is online after it, and no end of
a connection brings anybody back (`offline_run`).

Two facts about single events carry the second result over the events that follow. A flag goes on in an
accepted login and nowhere else, which is read off `Happens`; and a list gets into the cache in an accepted
login and nowhere else, which `Happens` does not say, so it is proved from the operations that the code can
reach (`wp_event_fillsNone`).
-/

namespace LiteChat

open LiteChat.Action Effect Server

variable {P : Platform} {E : Env} {w w' w'' : World P}

/-! ## `Stop` -/

/-- What `Stop` has done to the sessions of these connections. -/
structure Stopped (E : Env) (stopped : List Socket) (w w' : World P) : Prop where
  sessions : w'.sessions = w.sessions
  counted : w'.currentConnections = w.currentConnections
  openSockets : w'.openSockets = w.openSockets
  defined : w'.undefined = w.undefined
  shut : ∀ c ∈ stopped, Shut w' c
  spares : ∀ c, Spares c w w'
  dims : Dims w w'
  offline : ¬ E.dbFails → ∀ c ∈ stopped, ∀ u ≠ [], w.sessions.loginAt c = some u →
    ∀ r ∈ w'.db.users, P.weight r.username = P.weight u → r.isOnline = false
  uncaches : ∀ u, w.cachedFriendLists.lookup u = none → w'.cachedFriendLists.lookup u = none
  uncached : ∀ c ∈ stopped, ∀ u ≠ [], w.sessions.loginAt c = some u →
    w'.cachedFriendLists.lookup u = none

theorem Stopped.nil (w : World P) : Stopped E [] w w where
  sessions := rfl
  counted := rfl
  openSockets := rfl
  defined := rfl
  shut := nofun
  spares _ := .of_trace rfl
  dims := .refl w
  offline _ := nofun
  uncaches _ h := h
  uncached := nofun

/-- One connection, and then the rest. -/
theorem Stopped.cons {c : Socket} {stopped : List Socket} (h : Stopped E [c] w w')
    (h' : Stopped E stopped w' w'') : Stopped E (c :: stopped) w w'' := by
  refine ⟨h'.sessions.trans h.sessions, h'.counted.trans h.counted,
    h'.openSockets.trans h.openSockets, h'.defined.trans h.defined, fun d hd => ?_,
    fun d => (h.spares d).trans (h'.spares d), h.dims.trans h'.dims, fun hE d hd u hu hl r hr hname => ?_,
    fun u hu => h'.uncaches u (h.uncaches u hu), fun d hd u hu hl => ?_⟩
  · rcases List.mem_cons.mp hd with rfl | hd
    · exact (h'.spares d).shut (h.shut d (List.mem_singleton_self d))
    · exact h'.shut d hd
  · rcases List.mem_cons.mp hd with rfl | hd
    · obtain ⟨r', hr', hsame, hoff⟩ := h'.dims r hr
      exact hoff (h.offline hE d (List.mem_singleton_self d) u hu hl r' hr' (hsame ▸ hname))
    · exact h'.offline hE d hd u hu (h.sessions.symm ▸ hl) r hr hname
  · rcases List.mem_cons.mp hd with rfl | hd
    · exact h'.uncaches u (h.uncached d (List.mem_singleton_self d) u hu hl)
    · exact h'.uncached d hd u hu (h.sessions.symm ▸ hl)

/-- A connection that was shut down after its user was signed off, if it had one. -/
theorem Stopped.single {s : ClientSession} {db : Database P} {cache : Map Str (List Str)}
    (hl : w.sessions.loginAt s.socket = some s.username) (hdims : Dims w { w with db := db })
    (hoffline : ¬ E.dbFails → s.username ≠ [] → ∀ r ∈ db.users,
      P.weight r.username = P.weight s.username → r.isOnline = false)
    (huncaches : ∀ u, w.cachedFriendLists.lookup u = none → cache.lookup u = none)
    (huncached : s.username ≠ [] → cache.lookup s.username = none) :
    Stopped E [s.socket] w
      (World.observe { w with db := db, cachedFriendLists := cache } (.shutdown s.socket)) := by
  refine ⟨rfl, rfl, rfl, rfl, fun c hc => ?_, fun c => .said rfl (by simp), hdims, ?_, huncaches, ?_⟩
  · rw [List.mem_singleton.mp hc]
    exact shut_of_trace (w := w) rfl
  · intro hE c hc u hu hlu
    rw [List.mem_singleton.mp hc, hl] at hlu
    cases Option.some.inj hlu
    exact hoffline hE hu
  · intro c hc u hu hlu
    rw [List.mem_singleton.mp hc, hl] at hlu
    cases Option.some.inj hlu
    exact huncached hu

/-- The loop of `Stop`: each session is signed off, its list is dropped, and its descriptor is shut
down. No session is removed, so what is said of the sessions that are still to come stays true. -/
theorem wp_stopEach (sessions : List (Socket × SessionPtr))
    (hlive : ∀ e ∈ sessions, w.sessions.getSession e.1 = some e.2) :
    wp E (stopEach sessions) (fun _ w' => Stopped E (sessions.map Prod.fst) w w') w := by
  induction sessions generalizing w with
  | nil => exact .nil w
  | cons e sessions ih =>
    obtain ⟨c, p⟩ := e
    obtain ⟨s, hs, hsocket, hl⟩ := SessionManager.heap_of_getSession (hlive (c, p) List.mem_cons_self)
    subst hsocket
    -- what is left to do once the user has been signed off
    have rest : ∀ (db : Database P) (cache : Map Str (List Str)), Dims w { w with db := db } →
        (¬ E.dbFails → s.username ≠ [] → ∀ r ∈ db.users, P.weight r.username = P.weight s.username →
          r.isOnline = false) →
        (∀ u, w.cachedFriendLists.lookup u = none → cache.lookup u = none) →
        (s.username ≠ [] → cache.lookup s.username = none) →
        wp E (do
          let socket ← getSocket p
          if (socket : Int) ≠ -1 then
            let socket ← getSocket p
            shutdown socket
          stopEach sessions) (fun _ w' => Stopped E (s.socket :: sessions.map Prod.fst) w w')
          { w with db := db, cachedFriendLists := cache } := by
      intro db cache hdims hoffline huncaches huncached
      rw [wp_bind]
      refine (wp_getSocket (by exact hs)).mpr ?_
      rw [if_pos (by omega), wp_bind]
      refine (wp_getSocket (by exact hs)).mpr ((wp_bind _ _).mpr (wp_shutdown.mpr ?_))
      refine wp_mono (ih fun e he => hlive e (List.mem_cons_of_mem _ he)) fun _ w' h' => ?_
      exact (Stopped.single hl hdims hoffline huncaches huncached).cons h'
    unfold stopEach
    simp only [wp_bind, wp_getUsername hs] at rest ⊢
    refine wp_if (fun hu => ?_) fun hu => ?_
    · simp only [wp_bind, wp_getUsername hs, UserManager.updateUserOnlineStatus,
        wp_updateOnlineStatusByUsername, FriendManager.removeFriendCache]
      have huncaches : ∀ u, w.cachedFriendLists.lookup u = none →
          (w.cachedFriendLists.erase s.username).lookup u = none := by
        intro u hu
        rw [Map.lookup_erase, hu, ite_self]
      have huncached : (w.cachedFriendLists.erase s.username).lookup s.username = none := by
        rw [Map.lookup_erase, if_pos rfl]
      refine ⟨fun hf => wp_cacheErase.mpr ?_, (wp_getUsername (by exact hs)).mpr (wp_cacheErase.mpr ?_)⟩
      · exact rest w.db _ (.refl w) (fun hE => absurd hf hE) huncaches fun _ => huncached
      · exact rest _ _ (dims_setOnlineWhere w _) (fun _ _ => offline_setOnlineWhere w.db s.username)
          huncaches fun _ => huncached
    · refine (wp_bind _ _).mpr ?_
      exact rest w.db _ (.refl w) (fun _ hne => absurd hne hu) (fun _ h => h) fun hne => absurd hne hu

/-- **`Stop`** goes through all sessions, and then closes the socket that it listens on. -/
theorem wp_stop {serverSocket : Option Socket} {Q : Option Socket → World P → Prop}
    (deaf : ∀ stopped w₁, (∀ c, w.sessions.getSession c ≠ none → c ∈ stopped) → Stopped E stopped w w₁ →
      serverSocket = none → Q none w₁)
    (closed : ∀ stopped w₁ s, (∀ c, w.sessions.getSession c ≠ none → c ∈ stopped) →
      Stopped E stopped w w₁ → serverSocket = some s → wp E (close s) (fun _ => Q none)
        (w₁.observe (.shutdown s))) :
    wp E (stop serverSocket) Q w := by
  refine (wp_bind _ _).mpr fun ch _ => ?_
  have hperm := Effect.arrange_perm ch.rank (w.sessions.cliSessionMap.entries.map fun e => (e.1, e.2))
  have hlive : ∀ e ∈ Effect.arrange ch.rank (w.sessions.cliSessionMap.entries.map fun e => (e.1, e.2)),
      w.sessions.getSession e.1 = some e.2 := by
    intro e he
    obtain ⟨e', he', rfl⟩ := List.mem_map.mp (hperm.mem_iff.mp he)
    exact AList.mem_lookup_iff.mpr he'
  have hall : ∀ c, w.sessions.getSession c ≠ none →
      c ∈ (Effect.arrange ch.rank (w.sessions.cliSessionMap.entries.map fun e => (e.1, e.2))).map
        Prod.fst := by
    intro c hc
    obtain ⟨p, hp⟩ := Option.ne_none_iff_exists'.mp hc
    refine List.mem_map.mpr ⟨(c, p), hperm.mem_iff.mpr (List.mem_map.mpr ⟨⟨c, p⟩, ?_, rfl⟩), rfl⟩
    exact AList.mem_lookup_iff.mp hp
  refine (wp_bind _ _).mpr (wp_mono (wp_stopEach _ hlive) fun _ w₁ h₁ => ?_)
  cases serverSocket with
  | none => exact deaf _ w₁ hall h₁ rfl
  | some s =>
    refine (wp_bind _ _).mpr (wp_shutdown.mpr ((wp_bind _ _).mpr ?_))
    exact wp_mono (closed _ w₁ s hall h₁ rfl) fun _ _ hQ => hQ

/-! ## Draining -/

theorem Stopped.same {stopped : List Socket} (h : Stopped E stopped w w') : SameSessions w w' where
  defined := h.defined
  map := by rw [h.sessions]
  heap _ := by rw [h.sessions]
  counted := h.counted
  openSockets := h.openSockets
  spares := h.spares

/-- A connection that is open has a session, which `Stop` shuts down, or was shut down before. -/
theorem Stopped.shutAll {stopped : List Socket} (h' : Stopped E stopped w w')
    (hall : ∀ c, w.sessions.getSession c ≠ none → c ∈ stopped) (h : Tidy w) :
    ∀ c ∈ w.openSockets, Shut w' c := by
  intro c hc
  by_cases hnone : w.sessions.getSession c = none
  · exact (h'.spares c).shut (h.attended c hc hnone)
  · exact h'.shut c (hall c hnone)

/-- Nobody is left to wait for: every connection that is open has been shut down. -/
theorem wp_stop_tidy {serverSocket : Option Socket} (h : Tidy w)
    (hserver : ∀ s, serverSocket = some s → s ∉ w.openSockets) :
    wp E (stop serverSocket) (fun left w' => left = none ∧ Tidy w' ∧ w'.openSockets = w.openSockets ∧
      ∀ c ∈ w.openSockets, Shut w' c) w := by
  apply wp_stop
  · intro stopped w₁ hall h₁ _
    exact ⟨rfl, h.same h₁.same, h₁.openSockets, h₁.shutAll hall h⟩
  · intro stopped w₁ s hall h₁ hs
    have hne : ∀ c ∈ w.openSockets, c ≠ s := by
      rintro c hc rfl
      exact hserver c hs hc
    have hspares : ∀ c, c ≠ s → Spares c w₁ ((w₁.observe (.shutdown s)).observe (.close s)) := by
      intro c hc
      have hsaid : Spares c w₁ (w₁.observe (.shutdown s)) := .said rfl (by simp)
      exact hsaid.trans (.close rfl hc)
    have hnone : w₁.sessions.getSession s = none := by
      by_contra hsome
      have hopen := (h.same h₁.same).isOpen s hsome
      rw [h₁.openSockets] at hopen
      exact hserver s hs hopen
    have hopen : w₁.openSockets.filter (· ≠ s) = w.openSockets := by
      rw [h₁.openSockets]
      exact List.filter_eq_self.mpr fun c hc => decide_eq_true (hne c hc)
    refine wp_close.mpr ⟨rfl, ?_, hopen, fun c hc => (hspares c (hne c hc)).shut (h₁.shutAll hall h c hc)⟩
    exact (h.same h₁.same).closed hnone rfl rfl rfl (fun d => mem_filter_ne_iff) hspares

theorem wp_opensNone {α : Type} {p : Action α} (hp : p.Uses fun o => ∀ c, o ≠ .accept c) :
    wp E p (fun _ w' => w'.openSockets ⊆ w.openSockets) w :=
  Prog.wp_frame hp (fun w w' : World P => w'.openSockets ⊆ w.openSockets)
    (fun _ => List.Subset.refl _) (fun _ _ _ h h' => List.Subset.trans h' h)
    fun _ ch w ho _ => openSockets_handle ho ch w

theorem Op.Requests.opensNone {o : Op} (ho : o.Requests) : ∀ c, o ≠ .accept c := by
  rintro c rfl
  exact ho

theorem Op.Exits.opensNone {c : Socket} {o : Op} (ho : o.Exits c) : ∀ d, o ≠ .accept d := by
  rintro d rfl
  cases ho with
  | reads ho => exact ho

theorem openSockets_next (w : World P) {e : Event × List Choice} (he : ∀ c, e.1 ≠ .accept c) :
    (next w e).openSockets ⊆ w.openSockets := by
  have hwp : wp .any (e.1.action P) (fun _ w' => w'.openSockets ⊆ w.openSockets) w := by
    refine wp_opensNone ?_
    obtain ⟨e, cs⟩ := e
    cases e with
    | accept c => exact absurd rfl (he c)
    | request c parsed =>
      refine .bind ((dispatchRequest_requests c parsed).mono fun _ => Op.Requests.opensNone) fun served => ?_
      cases served with
      | ok served => trivial
      | error e => exact .bind ((failConnection_exits c).mono fun _ => Op.Exits.opensNone) fun _ => trivial
    | hangup c => exact .bind ((endConnection_exits c).mono fun _ => Op.Exits.opensNone) fun _ => trivial
    | heartbeatScan =>
      refine .bind (heartbeatCheck_exits.mono fun o ho => ?_) fun _ => trivial
      obtain ⟨c, ho⟩ := ho
      exact ho.opensNone
  unfold Server.next step
  split
  · exact run_of_wp hwp e.2 fun ch _ => Env.ok_any ch
  · exact List.Subset.refl _

/-- The end of a connection closes its descriptor. -/
theorem closed_hangup (h : Tidy w) (c : Socket) (cs : List Choice) :
    c ∉ (next w (.hangup c, cs)).openSockets := by
  unfold Server.next step
  split
  · have hwp : wp .any (Event.action P (.hangup c)) (fun _ w' => c ∉ w'.openSockets) w := by
      refine (wp_bind _ _).mpr (wp_mono (wp_endConnection_tidy h) fun _ w' h' => ?_)
      show c ∉ w'.openSockets
      rw [h'.2]
      exact fun hc => (mem_filter_ne_iff.mp hc).2 rfl
    exact run_of_wp hwp cs fun ch _ => Env.ok_any ch
  · rename_i hc
    exact hc

/-- Nothing is open, no session is left, in the map or on the heap, and nothing is on the counter. -/
structure Drained (w : World P) : Prop where
  openSockets : w.openSockets = []
  sessions : ∀ c, w.sessions.getSession c = none
  heap : ∀ p, w.sessions.heap.lookup p = none
  counted : w.currentConnections = 0
  defined : w.undefined = false

theorem Tidy.drained (h : Tidy w) (hopen : w.openSockets = []) : Drained w := by
  have hsessions : ∀ c, w.sessions.getSession c = none := by
    intro c
    by_contra hsome
    have hc := h.isOpen c hsome
    rw [hopen] at hc
    cases hc
  refine ⟨hopen, hsessions, fun p => ?_, ?_, h.defined⟩
  · by_contra hsome
    obtain ⟨c, hc⟩ := (h.owned p).mp (Option.isSome_iff_ne_none.mpr hsome)
    exact absurd ((hsessions c).symm.trans hc) nofun
  · have hentries : w.sessions.cliSessionMap.entries = [] := by
      refine List.eq_nil_iff_forall_not_mem.mpr fun e he => ?_
      exact absurd ((hsessions e.1).symm.trans (AList.mem_lookup_iff.mpr he)) nofun
    rw [h.counted]
    unfold SessionManager.count
    rw [hentries]
    rfl

/-- If none is accepted any more and all of them hang up, no connection is left. -/
theorem Tidy.drained_runAll {es : List (Event × List Choice)} (h : Tidy w)
    (hes : ∀ e ∈ es, ∀ c, e.1 ≠ .accept c)
    (hends : ∀ c ∈ w.openSockets, ∃ e ∈ es, e.1 = .hangup c) : Drained (runAll Server.next w es) := by
  induction es generalizing w with
  | nil =>
    refine h.drained (List.eq_nil_iff_forall_not_mem.mpr fun c hc => ?_)
    obtain ⟨e, he, _⟩ := hends c hc
    cases he
  | cons e es ih =>
    refine ih (h.next e) (fun e' he' => hes e' (List.mem_cons_of_mem e he')) fun c hc => ?_
    obtain ⟨e', he', hhangup⟩ := hends c (openSockets_next w (hes e List.mem_cons_self) hc)
    rcases List.mem_cons.mp he' with rfl | he'
    · obtain ⟨e', cs⟩ := e'
      cases hhangup
      exact absurd hc (closed_hangup h c cs)
    · exact ⟨e', he', hhangup⟩

/-- The world that `Stop` leaves. -/
def World.stopped (serverSocket : Option Socket) (cs : List Choice) (w : World P) : World P :=
  ((stop serverSocket).run cs w).2

/-- **A server that is stopped winds down**, whatever has happened before and whatever statements fail.
After `Stop` every open connection has been shut down, so that the `recv` of each thread is about to
return 0. Once each has hung up, whatever requests were still served in the meantime, nothing is left. -/
theorem drained_run (db : Database P) (es es' : List (Event × List Choice))
    (serverSocket : Option Socket) (cs : List Choice)
    (hserver : ∀ s, serverSocket = some s → s ∉ (runAll next (World.start db) es).openSockets)
    (hes : ∀ e ∈ es', ∀ c, e.1 ≠ .accept c)
    (hends : ∀ c ∈ (runAll next (World.start db) es).openSockets, ∃ e ∈ es', e.1 = .hangup c) :
    (∀ c ∈ (runAll next (World.start db) es).openSockets,
      Shut ((runAll next (World.start db) es).stopped serverSocket cs) c) ∧
    Drained (runAll next ((runAll next (World.start db) es).stopped serverSocket cs) es') := by
  obtain ⟨_, htidy, hopen, hshut⟩ := run_of_wp (wp_stop_tidy (E := .any) (tidy_run db es) hserver) cs
    fun ch _ => Env.ok_any ch
  exact ⟨hshut, htidy.drained_runAll hes fun c hc => hends c (hopen ▸ hc)⟩

theorem drained_alice : Drained (runAll next
    ((runAll next (World.start (Database.empty : Database asciiCi))
      (aliceRegisters ++ [aliceLogsIn])).stopped (some 3) []) [(.hangup 1, [])]) := by
  have hopen : (runAll next (World.start (Database.empty : Database asciiCi))
      (aliceRegisters ++ [aliceLogsIn])).openSockets = [1] := by decide
  refine (drained_run _ _ [(.hangup 1, [])] (some 3) [] (fun s hs => ?_) ?_ fun c hc => ?_).2
  · rw [hopen, ← Option.some.inj hs]
    decide
  · intro e he c haccept
    rw [List.mem_singleton.mp he] at haccept
    cases haccept
  · rw [hopen] at hc
    exact ⟨_, List.mem_singleton_self _, by rw [List.mem_singleton.mp hc]⟩

/-! ## The flags -/

/-- Nobody is marked as online. -/
def NobodyOnline (db : Database P) : Prop := ∀ r ∈ db.users, r.isOnline = false

/-- A login that is accepted. -/
def LetsIn (w : World P) (e : Event) : Prop := ∃ request r, LoginFor w request r e

theorem NobodyOnline.map {db db' : Database P} {f : UserRow → UserRow} (h : NobodyOnline db)
    (husers : db'.users = db.users.map f) (hf : ∀ r, r.isOnline = false → (f r).isOnline = false) :
    NobodyOnline db' := by
  intro r' hr'
  rw [husers] at hr'
  obtain ⟨r, hr, rfl⟩ := List.mem_map.mp hr'
  exact hf r (h r hr)

/-- Signing off brings nobody back. -/
theorem NobodyOnline.signedOff {db db' : Database P} {login : Option (Option Str)} (h : NobodyOnline db)
    (hdb : SignedOff E db db' login) : NobodyOnline db' := by
  unfold SignedOff at hdb
  split at hdb
  · rcases hdb with rfl | ⟨-, rfl⟩
    · refine h.map rfl fun r hr => ?_
      split
      · rfl
      · exact hr
    · exact h
  · exact hdb ▸ h

theorem NobodyOnline.scanned (h : NobodyOnline w.db) (hscan : Scanned E w w') :
    NobodyOnline w'.db := by
  induction hscan with
  | done w => exact h
  | expired c u w w₁ w' hat hremoved hopen hrest ih => exact ih (h.signedOff hremoved.db)

/-- A new account is not online. -/
theorem NobodyOnline.registered {db db' : Database P} {u hash : Str} (h : NobodyOnline db)
    (hinsert : db.insertUser u hash = some db') : NobodyOnline db' := by
  intro r hr
  rw [(Database.users_of_insertUser hinsert).2] at hr
  rcases List.mem_append.mp hr with hr | hr
  · exact h r hr
  · rw [List.mem_singleton.mp hr]

theorem NobodyOnline.renamed {db db' : Database P} {i : UserId} {u : Str} (h : NobodyOnline db)
    (hrename : db.updateUsername i u = some db') : NobodyOnline db' := by
  refine h.map (Database.users_of_updateUsername hrename).2 fun r hr => ?_
  unfold Database.renameRow
  split
  · exact hr
  · exact hr

theorem NobodyOnline.repassworded {db : Database P} (h : NobodyOnline db) (i : UserId) (hash : Str) :
    NobodyOnline (db.updatePassword i hash) := by
  refine h.map rfl fun r hr => ?_
  split
  · exact hr
  · exact hr

/-- An event that lets nobody in sets no flag. -/
theorem NobodyOnline.next {e : Event} {served : Option (Request × Response)} (h : NobodyOnline w.db)
    (happens : Happens E w e served w') (hlogin : ¬ LetsIn w e) : NobodyOnline w'.db := by
  have same : ∀ {w w' : World P}, w'.db.users = w.db.users → NobodyOnline w.db → NobodyOnline w'.db :=
    fun husers h r hr => h r (husers ▸ hr)
  cases happens with
  | disabled => exact h
  | turnedAway c _ _ hdb => exact hdb ▸ h
  | accepted c _ _ hdb => exact hdb ▸ h
  | malformed c _ hquiet => exact hquiet.db ▸ h
  | thrown c root _ _ w₁ _ _ hquiet hremoved =>
    have h₁ : NobodyOnline w₁.db := hquiet.db ▸ h
    exact h₁.signedOff hremoved.db
  | hungUp c _ hremoved => exact h.signedOff hremoved.db
  | scanned _ hscan => exact h.scanned hscan
  | served c root garbage request response w₁ w₂ _ _ hrequest hquiet hserves hrest =>
    have h₁ : NobodyOnline w₁.db := hquiet.db ▸ h
    rw [hrest.db]
    cases hserves with
    | refused => exact h₁
    | registered _ db _ _ hinsert => exact h₁.registered hinsert
    | updated _ r db _ _ _ hupdate =>
      obtain ⟨db₁, hrename, hpassword⟩ := hupdate
      have hdb₁ : NobodyOnline db₁ := by
        rcases hrename with rfl | ⟨-, -, -, hrename⟩
        · exact h₁
        · exact h₁.renamed hrename
      rcases hpassword with rfl | rfl
      · exact hdb₁
      · exact hdb₁.repassworded _ _
    | other _ _ _ hkeeps => exact same hkeeps.users h₁
    | loggedIn r kicks w₃ _ htype haccepts _ _ =>
      -- the one event that sets a flag is a login, and none is let in
      exact absurd ⟨request, r, garbage, hrequest, htype, hquiet.db ▸ haccepts⟩ hlogin

theorem NobodyOnline.runAll {es : List (Event × List Choice)} (h : NobodyOnline w.db)
    (hes : Meets Server.next (fun w e => ¬ LetsIn w e.1) w es) :
    NobodyOnline (Effect.runAll Server.next w es).db := by
  induction es generalizing w with
  | nil => exact h
  | cons e es ih =>
    have happens := step_happens .any w e.1 e.2 fun ch _ => Env.ok_any ch
    exact ih (h.next happens hes.1) hes.2

/-! ## The cache -/

/-- The operations that put no list into the cache. -/
def Op.FillsNone (o : Op) : Prop := ∀ u friends, o ≠ .cacheInsert u friends

theorem Op.SparesCache.fillsNone {o : Op} (ho : o.SparesCache) : o.FillsNone := by
  rintro u friends rfl
  exact ho

theorem Op.Exits.fillsNone {c : Socket} {o : Op} (ho : o.Exits c) : o.FillsNone := by
  rintro u friends rfl
  cases ho with
  | reads ho => exact ho

/-- A name that has no list gets none. -/
def FillsNone (w w' : World P) : Prop :=
  ∀ u, w.cachedFriendLists.lookup u = none → w'.cachedFriendLists.lookup u = none

theorem FillsNone.of_eq (h : w'.cachedFriendLists = w.cachedFriendLists) : FillsNone w w' :=
  fun _ hu => h ▸ hu

theorem FillsNone.trans (h : FillsNone w w') (h' : FillsNone w' w'') : FillsNone w w'' :=
  fun u hu => h' u (h u hu)

theorem World.handle_fillsNone {o : Op} (ho : o.FillsNone) (ch : Choice) (w : World P) :
    FillsNone w (World.handle o ch w).2 := by
  cases o with
  | cacheInsert u friends => exact absurd rfl (ho u friends)
  | cacheErase v =>
    intro u hu
    show (w.cachedFriendLists.erase v).lookup u = none
    rw [Map.lookup_erase, hu, ite_self]
  | _ =>
    refine .of_eq (World.handle_sparesCache ?_ ch w)
    trivial

theorem wp_fillsNone {α : Type} {p : Action α} (hp : p.Uses Op.FillsNone) :
    wp E p (fun _ w' => FillsNone w w') w :=
  Prog.wp_frame hp FillsNone (fun _ => .of_eq rfl) (fun _ _ _ => FillsNone.trans)
    fun _ ch w ho _ => World.handle_fillsNone ho ch w

/-- A request that is no accepted login leaves the cache alone: only the LOGIN branch fills it, after
`HandleLogin` has answered 0. -/
theorem wp_serve_unlisted {request : Request}
    (hlogin : request.type = bytes "LOGIN" → ∀ r, ¬ Accepts w.db request r) :
    wp E (Server.serve P request) (fun _ w' => w'.cachedFriendLists = w.cachedFriendLists) w := by
  by_cases htype : request.type = bytes "LOGIN"
  · rw [serve_login htype]
    unfold Server.serveLogin
    have hcache : (UserManager.handleLogin P request).Uses Op.SparesCache :=
      (handleLogin_enters request).mono fun _ => Op.Enters.sparesCache
    have hrefused : wp E (UserManager.handleLogin P request) (fun response _ => response.code ≠ 0) w :=
      wp_handleLogin (fun response hcode _ => hcode) fun r _ _ haccepts _ =>
        absurd haccepts (hlogin htype r)
    rw [wp_bind]
    refine wp_mono (wp_and (wp_sparesCache hcache) hrefused) fun response w₁ h₁ => ?_
    exact wp_if (fun hcode => absurd hcode h₁.2) fun _ => h₁.1
  · exact wp_sparesCache
      (serve_uses (fun _ => Op.Reads.sparesCache) (fun _ => trivial) fun h => absurd h htype)

/-- **An event that lets nobody in** puts no list into the cache: only an accepted login does. -/
theorem wp_event_fillsNone {e : Event} (hlogin : ¬ LetsIn w e) :
    wp E (e.action P) (fun _ w' => FillsNone w w') w := by
  cases e with
  | accept c =>
    have hp := (acceptConnection_accepts c).mono fun _ ho => (Op.Accepts.sparesCache ho).fillsNone
    exact wp_fillsNone (.bind hp fun _ => trivial)
  | hangup c =>
    have hp := (endConnection_exits c).mono fun _ => Op.Exits.fillsNone
    exact wp_fillsNone (.bind hp fun _ => trivial)
  | heartbeatScan =>
    have hp : heartbeatCheck.Uses Op.FillsNone := by
      refine heartbeatCheck_exits.mono fun o ho => ?_
      obtain ⟨c, ho⟩ := ho
      exact ho.fillsNone
    exact wp_fillsNone (.bind hp fun _ => trivial)
  | request c parsed =>
    show wp E (handleData P c parsed) _ w
    unfold handleData
    rw [wp_bind]
    apply Server.wp_dispatchRequest_speaks
    · intro _
      exact wp_mono (wp_sparesCache (uses_op trivial)) fun _ _ => .of_eq
    · intro e root garbage w₁ _ _ hw₁
      dsimp only
      rw [wp_bind]
      refine wp_mono (wp_sparesCache (failConnection_sparesCache c)) fun _ w₂ hw₂ => ?_
      exact .of_eq (hw₂.trans hw₁.cachedFriendLists)
    · rintro root garbage request w₁ rfl hrequest hw₁
      have hcache₁ := hw₁.cachedFriendLists
      have hdb₁ := hw₁.db
      refine wp_mono (wp_serve_unlisted fun htype r haccepts => ?_) fun response w₂ hw₂ => ?_
      · exact hlogin ⟨request, r, garbage, hrequest, htype, hdb₁ ▸ haccepts⟩
      · refine wp_mono (wp_sparesCache (uses_op trivial)) fun _ w₃ hw₃ => ?_
        exact .of_eq (hw₃.trans (hw₂.trans hcache₁))

theorem FillsNone.next {e : Event × List Choice} (hlogin : ¬ LetsIn w e.1) :
    FillsNone w (Server.next w e) := by
  unfold Server.next step
  split
  · exact run_of_wp (wp_event_fillsNone (E := .any) hlogin) e.2 fun ch _ => Env.ok_any ch
  · exact .of_eq rfl

theorem FillsNone.runAll {es : List (Event × List Choice)}
    (hes : Meets Server.next (fun w e => ¬ LetsIn w e.1) w es) :
    FillsNone w (Effect.runAll Server.next w es) := by
  induction es generalizing w with
  | nil => exact .of_eq rfl
  | cons e es ih => exact (FillsNone.next hes.1).trans (ih hes.2)

/-! ## After `Stop` -/

/-- **Flags that agree with the sessions** are all off after `Stop`. -/
theorem Stopped.nobodyOnline {stopped : List Socket} (h : Stopped E stopped w w') (hE : ¬ E.dbFails)
    (hall : ∀ c, w.sessions.getSession c ≠ none → c ∈ stopped) (hagrees : OnlineAgrees w) :
    NobodyOnline w'.db := by
  intro r' hr'
  obtain ⟨r, hr, hname, hoff⟩ := h.dims r' hr'
  cases honline : r.isOnline with
  | false => exact hoff honline
  | true =>
    obtain ⟨c, hat⟩ := (hagrees r hr).mp honline
    obtain ⟨hlogin, hne⟩ := SessionManager.at_iff.mp hat
    have hstopped := hall c (SessionManager.getSession_ne_none hlogin)
    exact h.offline hE c hstopped r.username hne hlogin r' hr' (hname ▸ rfl)

theorem wp_stop_offline {serverSocket : Option Socket} (hE : ¬ E.dbFails) (hagrees : OnlineAgrees w) :
    wp E (stop serverSocket) (fun _ w' => NobodyOnline w'.db ∧
      ∀ c u, w.sessions.logins.At c u → w'.cachedFriendLists.lookup u = none) w := by
  have huncached : ∀ {stopped : List Socket} {w₁ : World P}, Stopped E stopped w w₁ →
      (∀ c, w.sessions.getSession c ≠ none → c ∈ stopped) →
      ∀ c u, w.sessions.logins.At c u → w₁.cachedFriendLists.lookup u = none := by
    intro stopped w₁ h₁ hall c u hat
    obtain ⟨hlogin, hne⟩ := SessionManager.at_iff.mp hat
    exact h₁.uncached c (hall c (SessionManager.getSession_ne_none hlogin)) u hne hlogin
  refine wp_stop (fun stopped w₁ hall h₁ _ => ⟨h₁.nobodyOnline hE hall hagrees, huncached h₁ hall⟩) ?_
  intro stopped w₁ s hall h₁ _
  have hcache := huncached h₁ hall
  exact wp_close.mpr ⟨h₁.nobodyOnline hE hall hagrees, hcache⟩

/-- **Nobody is online after `Stop`**, and nobody's friends are cached, if flags and sessions agreed and
its statements go through. Both stay so while connections end, scans run and requests are served, however
their statements fail, as long as no login gets through: `es'` is any run of that kind, so the last two
parts are about every state from the one that `Stop` leaves on. -/
theorem offline_run (db : Database P) (hoffline : NobodyOnline db) (es es' : List (Event × List Choice))
    (h : Meets next (fun w e => NoDbFailure e ∧ KeepsPresence w e.1) (World.start db) es)
    (serverSocket : Option Socket) (cs : List Choice) (hcs : ∀ ch ∈ cs, ch.dbOk = true)
    (h' : Meets next (fun w e => ¬ LetsIn w e.1)
      ((runAll next (World.start db) es).stopped serverSocket cs) es') :
    (∀ c u, (runAll next (World.start db) es).sessions.logins.At c u →
      ((runAll next (World.start db) es).stopped serverSocket cs).cachedFriendLists.lookup u = none) ∧
    (∀ c u, (runAll next (World.start db) es).sessions.logins.At c u →
      (runAll next ((runAll next (World.start db) es).stopped serverSocket cs) es').cachedFriendLists.lookup
        u = none) ∧
    NobodyOnline (runAll next ((runAll next (World.start db) es).stopped serverSocket cs) es').db := by
  have hpresence : Presence (runAll next (World.start db) es) := presence_run hoffline h
  have hwp : wp .reliable (stop serverSocket) (fun _ w' => NobodyOnline w'.db ∧
      ∀ c u, (runAll next (World.start db) es).sessions.logins.At c u →
        w'.cachedFriendLists.lookup u = none) (runAll next (World.start db) es) :=
    wp_stop_offline id hpresence.agrees
  have hstopped := run_of_wp hwp cs fun ch hch => Env.ok_reliable.mpr (hcs ch hch)
  exact ⟨hstopped.2, fun c u hat => FillsNone.runAll h' u (hstopped.2 c u hat), hstopped.1.runAll h'⟩

/-- alice is logged in when the server stops, and then her connection ends: her list is gone from the
cache, and her flag is off. -/
theorem offline_alice :
    (runAll next ((runAll next (World.start (Database.empty : Database asciiCi))
      (aliceRegisters ++ [aliceLogsIn])).stopped none []) [(.hangup 1, [])]).cachedFriendLists.lookup
        (bytes "alice") = none ∧
    NobodyOnline (runAll next ((runAll next (World.start (Database.empty : Database asciiCi))
      (aliceRegisters ++ [aliceLogsIn])).stopped none []) [(.hangup 1, [])]).db := by
  have hat : (runAll next (World.start (Database.empty : Database asciiCi))
      (aliceRegisters ++ [aliceLogsIn])).sessions.logins.At 1 (bytes "alice") :=
    SessionManager.at_iff.mpr ⟨by decide, by decide⟩
  have hends : ∀ w : World asciiCi, ¬ LetsIn w (.hangup 1) := by
    rintro w ⟨_, _, hfor⟩
    exact hfor
  obtain ⟨-, hcache, hnobody⟩ :=
    offline_run Database.empty (fun r hr => absurd hr (by simp [Database.empty])) _
      [(.hangup 1, [])] meets_aliceLogsIn none [] (by simp) ⟨hends _, trivial⟩
  exact ⟨hcache 1 _ hat, hnobody⟩

end LiteChat
