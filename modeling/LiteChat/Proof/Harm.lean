import LiteChat.Model.Process
import LiteChat.Proof.Cache
import LiteChat.Proof.Counter

/-!
# What one call can do to others

What a connection has of its own are its session, the login in it, the routes that lead to it, and
the flag of the account that is logged in there (`KeepsConnection`). A thread is at work for one
connection at a time, and some of what it does for that one is meant to change others: a login
kicks, takes over a route, and sets a flag (`Op.Addresses`). Everything else that a call does to
somebody else is harm.

Of all the calls that the server's code can make only three kinds can do any (`harmsNobody_iff`). A
frame that is written to a broken connection ends the process, since nothing handles `SIGPIPE`. A
session that is removed from under a descriptor is the session of whoever has that descriptor now.
And a flag that is cleared by name is the flag of everybody who is logged in under that name. Which
of these happen in a run is another question, about the code and not about its calls; it is the
subject of `Proof/Failures.lean`.
-/

namespace LiteChat

open LiteChat.Action Effect Server

variable {P : Platform} {w w' : World P} {s : Process P}

/-! ## What others have -/

/-- The flag of an account. -/
def World.flag (w : World P) (i : UserId) : Option Bool := (w.db.byId i).map (·.isOnline)

/-- The connection `d` has what it had. -/
structure KeepsConnection (d : Socket) (w w' : World P) : Prop where
  session : w'.sessions.getSession d = w.sessions.getSession d
  login : w'.sessions.loginAt d = w.sessions.loginAt d
  route : ∀ u, w.sessions.route u = some d → w'.sessions.route u = some d
  online : ∀ i, w.accountAt d = some i → w'.flag i = w.flag i

/-- What is done to the connection `d` on purpose: it is accepted, or somebody logs in to its account or
under its name, or it is kicked. -/
def Op.Addresses (w : World P) (d : Socket) : Op → Prop
  | .addSession c => c = d
  | .setUsername p _ => w.sessions.getSession d = some p
  | .bindUsername _ u => w.sessions.route u = some d
  | .sql (.updateOnline i _) => w.accountAt d = some i
  | _ => False

/-- The process runs on, and has a defined state. -/
def Process.RunsOn (s : Process P) : Prop := s.alive = true ∧ s.world.undefined = false

/-- After a call the process runs on, and the others keep what they had, but for what is done to them on
purpose. -/
def HarmsNobody (Others : Socket → Prop) (o : Op) (s s' : Process P) : Prop :=
  s'.RunsOn ∧ ∀ d, Others d → ¬ o.Addresses s.world d → KeepsConnection d s.world s'.world

/-! ## One call

Three kinds of calls can do harm: a frame that is written to a broken connection, a session that is
removed, and a flag that is cleared by name. -/

/-- What a call has to heed. -/
def Heeds (Others : Socket → Prop) (e : List Socket × Choice) (s : Process P) : Op → Prop
  | .sendData c _ => ¬ (s.lose e.1).Broken c
  | .removeSession c => Others c → s.world.sessions.getSession c = none
  | .sql (.updateOnlineByName u isOnline) => e.2.dbOk = true → ∀ d, Others d →
      ∀ i, s.world.accountAt d = some i → s.world.db.idOf u = some i →
        s.world.flag i = some isOnline
  | o => o.Live s.world

/-! ### Flags -/

/-- A change of rows that leaves the numbers and the flags alone. -/
theorem Database.flag_of_map {db db' : Database P} {f : UserRow → UserRow}
    (h : db'.users = db.users.map f) (hid : ∀ r, (f r).userId = r.userId)
    (honline : ∀ r, (f r).isOnline = r.isOnline) (i : UserId) :
    (db'.byId i).map (·.isOnline) = (db.byId i).map (·.isOnline) := by
  unfold byId
  rw [h, List.find?_map, Option.map_map]
  congr 1
  · funext r
    exact honline r
  · congr 1
    funext r
    simp only [Function.comp_apply, hid]

/-- A user keeps the flag under every statement that is not about it: an insertion adds a row, an update
of another column leaves the flag in its row, and an update of flags by id is about that id. -/
theorem Database.flag_of_exec {db db' : Database P} {st : Stmt} {now : Nat} {rank : Nat → Nat}
    {r : st.Res} (h : db.exec now rank st = some (r, db')) {i : UserId}
    (honline : ∀ b, st ≠ .updateOnline i b) (hbyName : ∀ u b, st ≠ .updateOnlineByName u b)
    (hi : db.HasUser i) :
    (db'.byId i).map (·.isOnline) = (db.byId i).map (·.isOnline) := by
  have hdb : (db.exec now rank st).map Prod.snd = some db' := by rw [h]; rfl
  have hharmless : st.Harmless → (db'.byId i).map (·.isOnline) = (db.byId i).map (·.isOnline) := by
    intro hst
    unfold byId
    rw [exec_harmless hst h]
  cases st with
  | insertUser u hash =>
    obtain ⟨_, husers⟩ := users_of_insertUser (of_tried hdb)
    obtain ⟨r, hr, hid⟩ := List.mem_map.mp hi
    have hrow := byId_iff.mpr ⟨hr, hid⟩
    have hrow' : db'.byId i = some r := byId_iff.mpr ⟨husers ▸ List.mem_append_left _ hr, hid⟩
    rw [hrow, hrow']
  | updateUsername j u =>
    obtain ⟨_, husers⟩ := users_of_updateUsername (of_tried hdb)
    refine flag_of_map husers (renameRow_userId j u) (fun r => ?_) i
    unfold renameRow
    split <;> rfl
  | updatePassword j hash =>
    rw [← Option.some.inj hdb]
    refine flag_of_map rfl (fun r => ?_) (fun r => ?_) i <;> split <;> rfl
  | updateLastLogin j =>
    rw [← Option.some.inj hdb]
    refine flag_of_map rfl (fun r => ?_) (fun r => ?_) i <;> split <;> rfl
  | updateOnline j b =>
    -- a flag that is set by id: the condition says that the id is another one
    have hji : j ≠ i := by
      rintro rfl
      exact honline b rfl
    obtain ⟨r, hr, hid⟩ := List.mem_map.mp hi
    have hrow := byId_iff.mpr ⟨hr, hid⟩
    rw [← Option.some.inj hdb]
    unfold setOnlineWhere
    rw [byId_mapUsers, hrow, Option.map_map]
    have hother : ¬ decide (r.userId = j) = true := by
      rw [hid]
      simpa using Ne.symm hji
    exact congrArg some (congrArg UserRow.isOnline (if_neg hother))
  | updateOnlineByName u b => exact absurd rfl (hbyName u b)
  | _ => exact hharmless trivial

/-- A statement by name sets the flag of the user with that name. -/
theorem Database.flag_setOnlineByName {db : Database P} {u : Str} {b : Bool} {i : UserId}
    (hi : db.HasUser i) :
    ((db.setOnlineWhere (fun r => P.weight r.username = P.weight u) b).byId i).map (·.isOnline) =
      if db.idOf u = some i then some b else (db.byId i).map (·.isOnline) := by
  obtain ⟨r, hr, hid⟩ := List.mem_map.mp hi
  have hrow := byId_iff.mpr ⟨hr, hid⟩
  have hname : db.idOf u = some i ↔ P.weight r.username = P.weight u := by
    rw [idOf_iff]
    constructor
    · rintro ⟨r', hr', hweight, hid'⟩
      rw [← eq_of_id hr' hr (hid'.trans hid.symm)]
      exact hweight
    · exact fun hweight => ⟨r, hr, hweight, hid⟩
  unfold setOnlineWhere
  rw [byId_mapUsers, hrow, Option.map_map]
  simp only [Option.map_some, Function.comp_apply, hname, decide_eq_true_eq]
  split <;> rfl

theorem World.hasUser_of_accountAt {d : Socket} {i : UserId} (h : w.accountAt d = some i) :
    w.db.HasUser i := by
  obtain ⟨u, _, hu⟩ := Option.bind_eq_some_iff.mp h
  split at hu
  · cases hu
  · exact Database.hasUser_of_idOf hu

/-! ### One call -/

theorem KeepsConnection.of_sessions {d : Socket} (hsessions : w'.sessions = w.sessions)
    (hflag : ∀ i, w.accountAt d = some i → w'.flag i = w.flag i) : KeepsConnection d w w' where
  session := by rw [hsessions]
  login := by rw [hsessions]
  route u hu := by rw [hsessions]; exact hu
  online := hflag

/-- Whatever does not end a connection leaves alone whomever it is not about. What ends one are the two
calls that take a descriptor or a name for a session: the removal, and the clearing of a flag by name. -/
theorem keepsConnection_handle {o : Op} {d : Socket} (ho : ¬ o.Addresses w d)
    (hremove : ∀ c, o ≠ .removeSession c) (hbyName : ∀ u b, o ≠ .sql (.updateOnlineByName u b))
    (ch : Choice) : KeepsConnection d w (World.handle o ch w).2 := by
  have hflag : ∀ i, w.accountAt d = some i → (World.handle o ch w).2.flag i = w.flag i := by
    intro i hi
    unfold World.flag
    rcases World.db_handle o ch w with hdb | ⟨st, r, rfl, hex⟩
    · rw [hdb]
    · refine Database.flag_of_exec hex ?_ ?_ (World.hasUser_of_accountAt hi)
      · rintro b rfl
        exact ho hi
      · rintro u b rfl
        exact hbyName u b rfl
  have hsessions := fun ho : o.KeepsSessions => World.sessions_handle ho ch w
  cases o with
  | addSession c =>
    have hdc : d ≠ c := fun h => ho h.symm
    refine ⟨?_, ?_, fun u hu => hu, hflag⟩
    · exact (SessionManager.getSession_addSession _ _ d).trans (if_neg hdc)
    · exact (SessionManager.loginAt_addSession _ _ d).trans (if_neg hdc)
  -- a route is taken over only from whom the call is about
  | bindUsername c u =>
    refine ⟨rfl, rfl, fun v hv => ?_, hflag⟩
    refine (SessionManager.route_bindUsername w.sessions c u v).trans ?_
    rw [if_neg]
    · exact hv
    · rintro rfl
      exact ho hv
  | setUsername p u =>
    have hnamed := World.sessions_setUsername p u ch w
    refine ⟨?_, ?_, fun v hv => ?_, hflag⟩
    · rw [hnamed, SessionManager.getSession_setUsername]
    · exact (congrArg (·.loginAt d) hnamed).trans
        ((SessionManager.loginAt_setUsername _ _ _ d).trans (if_neg ho))
    · rw [hnamed, SessionManager.route_setUsername]
      exact hv
  | removeSession c => exact absurd rfl (hremove c)
  | updateHeartbeat p =>
    have hstanding := World.handle_updateHeartbeat p ch w
    exact ⟨hstanding.getSession d, hstanding.loginAt d, fun u hu => (hstanding.route u).trans hu,
      hflag⟩
  | _ => exact .of_sessions (hsessions trivial) hflag

theorem keepsConnection_removeSession {c d : Socket} (hne : d ≠ c) (ch : Choice) (w : World P) :
    KeepsConnection d w (World.handle (.removeSession c) ch w).2 where
  session := (SessionManager.getSession_removeSession _ _ _).trans (if_neg hne)
  login := (SessionManager.loginAt_removeSession _ _ _).trans (if_neg hne)
  route u hu := by
    refine (SessionManager.route_removeSession _ _ _).trans ?_
    rw [if_neg]
    · exact hu
    · exact fun hown => hne (Option.some.inj (hu.symm.trans hown.2.2))
  online _ _ := rfl

/-- Where there is no session, none is removed. -/
theorem keepsConnection_removeNone {c : Socket} (h : w.sessions.getSession c = none) (ch : Choice) :
    KeepsConnection c w (World.handle (.removeSession c) ch w).2 := by
  refine .of_sessions ?_ fun _ _ => rfl
  show w.sessions.removeSession c = w.sessions
  unfold SessionManager.removeSession
  unfold SessionManager.getSession at h
  split
  · rfl
  · rename_i p hp
    cases h.symm.trans hp

/-- The clearing of a flag by name leaves a connection alone exactly if that connection is not logged in
to the account of the name, or the flag has that value already. A statement that fails leaves everybody
alone. -/
theorem keepsConnection_updateOnlineByName_iff {u : Str} {b : Bool} {ch : Choice} (w : World P)
    (d : Socket) : KeepsConnection d w (World.handle (.sql (.updateOnlineByName u b)) ch w).2 ↔
      (ch.dbOk = true → ∀ i, w.accountAt d = some i → w.db.idOf u = some i → w.flag i = some b) := by
  cases hch : ch.dbOk with
  | false =>
    have hw : (World.handle (.sql (.updateOnlineByName u b)) ch w).2 = w := by
      show (w.execute _ ch).2 = w
      unfold World.execute
      rw [hch]
      rfl
    rw [hw]
    exact ⟨nofun, fun _ => .of_sessions rfl fun _ _ => rfl⟩
  | true =>
    -- the flags of all rows of that name become what the statement says
    have hflag : ∀ i, w.accountAt d = some i →
        (World.handle (.sql (.updateOnlineByName u b)) ch w).2.flag i =
          if w.db.idOf u = some i then some b else w.flag i := by
      intro i hi
      have hdb : (World.handle (.sql (.updateOnlineByName u b)) ch w).2.db =
          w.db.setOnlineWhere (fun r => P.weight r.username = P.weight u) b := by
        have hw : World.handle (.sql (.updateOnlineByName u b)) ch w = (.ok (), { w with
            db := w.db.setOnlineWhere (fun r => P.weight r.username = P.weight u) b }) :=
          execute_reliable hch rfl
        rw [hw]
      unfold World.flag
      rw [hdb]
      exact Database.flag_setOnlineByName (World.hasUser_of_accountAt hi)
    constructor
    · intro h _ i hi hu
      have hkept := h.online i hi
      rw [hflag i hi, if_pos hu] at hkept
      exact hkept.symm
    · intro h
      refine .of_sessions (World.sessions_execute _ ch w) fun i hi => ?_
      rw [hflag i hi]
      split
      · next hu => exact (h rfl i hi hu).symm
      · rfl

/-- The state stays defined exactly if no session is used that is gone. -/
theorem World.undefined_handle_iff {o : Op} (hw : w.undefined = false) (ch : Choice) :
    (World.handle o ch w).2.undefined = false ↔ o.Live w := by
  refine ⟨fun h => ?_, fun ho => (World.undefined_handle ho ch).trans hw⟩
  have hderef : ∀ {β : Type} (p : SessionPtr) (f : ClientSession → β) (junk : β),
      (w.deref p f junk).2.undefined = false → (w.sessions.heap.lookup p).isSome = true := by
    intro β p f junk hp
    unfold World.deref at hp
    split at hp
    · next s hs => simp [hs]
    · cases hp
  have hwrite : ∀ (p : SessionPtr) (f : SessionManager → SessionManager),
      (w.write p f).undefined = false → (w.sessions.heap.lookup p).isSome = true := by
    intro p f hp
    unfold World.write at hp
    split at hp
    · next s hs => simp [hs]
    · cases hp
  cases o with
  | getSocket p => exact hderef p _ _ h
  | getUsername p => exact hderef p _ _ h
  | getLastHeartbeat p => exact hderef p _ _ h
  | getIsConnected p => exact hderef p _ _ h
  | setUsername p u => exact hwrite p _ h
  | updateHeartbeat p => exact hwrite p _ h
  | _ => trivial

/-! ### The process -/

theorem Process.handle_pipes {o : Op} {e : List Socket × Choice} (hs : s.alive = true)
    (h : (s.lose e.1).Pipes o) : (Process.handle o e s).2.alive = false := by
  obtain ⟨broken, ch⟩ := e
  unfold Process.handle
  dsimp only
  rw [if_neg (by simp [hs]), if_pos h]
  rfl

theorem Process.handle_performs {o : Op} {e : List Socket × Choice} (hs : s.alive = true)
    (h : ¬ (s.lose e.1).Pipes o) : Process.handle o e s = (s.lose e.1).perform o e.2 := by
  obtain ⟨broken, ch⟩ := e
  unfold Process.handle
  dsimp only
  rw [if_neg (by simp [hs]), if_neg h]

/-- **A call harms nobody exactly if it heeds what it has to**: that is what one call does, in any state
in which the process runs on. That the calls of a run heed it is what `Proof/Failures.lean` shows. -/
theorem harmsNobody_iff (hs : s.RunsOn) (Others : Socket → Prop) (o : Op) (e : List Socket × Choice) :
    HarmsNobody Others o s (Process.handle o e s).2 ↔ Heeds Others e s o := by
  obtain ⟨halive, hdefined⟩ := hs
  have hperforms : ∀ hpipes : ¬ (s.lose e.1).Pipes o,
      HarmsNobody Others o s (Process.handle o e s).2 ↔ o.Live s.world ∧
        ∀ d, Others d → ¬ o.Addresses s.world d →
          KeepsConnection d s.world (World.handle o e.2 s.world).2 := by
    intro hpipes
    rw [Process.handle_performs halive hpipes]
    exact and_congr ((and_iff_right halive).trans (World.undefined_handle_iff hdefined e.2)) Iff.rfl
  have haside : ¬ (s.lose e.1).Pipes o → (∀ c, o ≠ .removeSession c) →
      (∀ u b, o ≠ .sql (.updateOnlineByName u b)) →
      (HarmsNobody Others o s (Process.handle o e s).2 ↔ o.Live s.world) := by
    intro hpipes hremove hbyName
    rw [hperforms hpipes]
    exact and_iff_left fun d _ ho => keepsConnection_handle ho hremove hbyName e.2
  cases o with
  | sendData c frame =>
    by_cases hbroken : (s.lose e.1).Broken c
    · refine ⟨fun h => ?_, fun h => absurd hbroken h⟩
      have hdead := Process.handle_pipes (o := .sendData c frame) halive hbroken
      exact absurd (hdead.symm.trans h.1.1) (by decide)
    · exact (haside hbroken nofun nofun).trans ⟨fun _ => hbroken, fun _ => trivial⟩
  | removeSession c =>
    rw [hperforms id]
    constructor
    · -- a session that was there would be gone, and its connection would not have kept it
      rintro ⟨-, h⟩ hother
      have hgone : (World.handle (.removeSession c) e.2 s.world).2.sessions.getSession c = none :=
        (SessionManager.getSession_removeSession _ _ _).trans (if_pos rfl)
      exact (h c hother id).session.symm.trans hgone
    · refine fun h => ⟨trivial, fun d hd _ => ?_⟩
      by_cases hdc : d = c
      · subst hdc
        exact keepsConnection_removeNone (h hd) e.2
      · exact keepsConnection_removeSession hdc e.2 s.world
  | sql st =>
    cases st with
    | updateOnlineByName u b =>
      rw [hperforms id]
      constructor
      · exact fun h hch d hd =>
          (keepsConnection_updateOnlineByName_iff s.world d).mp (h.2 d hd id) hch
      · exact fun h => ⟨trivial, fun d hd _ =>
          (keepsConnection_updateOnlineByName_iff s.world d).mpr fun hch => h hch d hd⟩
    | _ => exact haside id nofun nofun
  | _ => exact haside id nofun nofun

end LiteChat
