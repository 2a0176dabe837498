import LiteChat.Effect.Prog
import LiteChat.Model.Database
import LiteChat.Model.Sessions

/-!
# What the server's threads share

`World` is everything that outlives one call: the database, the session manager, the friend list
cache, the connection counter, the descriptors that are open, and, for the statements about what
clients saw, the `trace` of what left the process. `Op` lists the atomic operations on it. One SQL
statement is one operation, because each runs on its own pooled connection in auto-commit mode;
one function of `SessionManager` is one operation, because it holds the manager's mutex
throughout; one read or write of a `ClientSession` is one operation, and so is one `SendData`
(what the bytes of concurrent calls do to each other is the subject of `Proof/Sending.lean`).

A `Choice` is what the environment decides about one operation: whether a statement or a send
works, what the clock says, in which order rows with no prescribed order come, and what happens
to be in memory that nobody initialised. `Env` says which of these a statement allows to go
wrong.
-/

namespace LiteChat

/-- What the environment decides about one operation. -/
structure Choice where
  dbOk : Bool
  sendOk : Bool
  now : Nat
  rank : Nat → Nat
  garbage : Int

instance : Inhabited Choice := ⟨⟨true, true, 0, id, 0⟩⟩

/-- `sql::SQLException`. -/
inductive SQLException
  | raised
  deriving DecidableEq

/-- What leaves the process. `account` is no data of the program: it is the account of the
session that the frame was written to, at the moment it was written. -/
inductive Obs
  | sent (c : Socket) (account : Option UserId) (frame : Frame) (ok : Bool)
  | shutdown (c : Socket)
  | close (c : Socket)

/-- What all threads share. `undefined` is set once a session is used after its deletion: what
the process does from there on is anybody's guess. -/
structure World (P : Platform) where
  db : Database P
  sessions : SessionManager
  cachedFriendLists : Effect.Map Str (List Str)
  currentConnections : Int
  openSockets : List Socket
  undefined : Bool
  trace : List Obs

/-- The server right after `Start`, over the database `db`. -/
def World.start {P : Platform} (db : Database P) : World P where
  db := db
  sessions := .empty
  cachedFriendLists := ∅
  currentConnections := 0
  openSockets := []
  undefined := false
  trace := []

/-- The atomic operations. -/
inductive Op
  | sql (st : Stmt)
  | getSession (c : Socket)
  | getSessionByUsername (username : Str)
  | getAllSessions
  | addSession (c : Socket)
  | removeSession (c : Socket)
  | bindUsername (c : Socket) (username : Str)
  | getSocket (p : SessionPtr)
  | getUsername (p : SessionPtr)
  | getLastHeartbeat (p : SessionPtr)
  | getIsConnected (p : SessionPtr)
  | setUsername (p : SessionPtr) (username : Str)
  | updateHeartbeat (p : SessionPtr)
  | cacheInsert (username : Str) (friends : List Str)
  | cacheErase (username : Str)
  | accept (c : Socket)
  | sendData (c : Socket) (frame : Frame)
  | shutdown (c : Socket)
  | close (c : Socket)
  | loadConnections
  | addConnections (n : Int)
  | time
  | uninitialised

def Op.Res : Op → Type
  | .sql st => Except SQLException st.Res
  | .getSession _ => Option SessionPtr
  | .getSessionByUsername _ => Option SessionPtr
  | .getAllSessions => List (Socket × SessionPtr)
  | .getSocket _ => Socket
  | .getUsername _ => Str
  | .getLastHeartbeat _ => Nat
  | .getIsConnected _ => Bool
  | .sendData _ _ => Bool
  | .loadConnections => Int
  | .time => Nat
  | .uninitialised => Int
  | _ => Unit

/-- Code of the server. -/
abbrev Action (α : Type) : Type := Effect.Prog Op Op.Res α

namespace World

variable {P : Platform}

/-- The account whose name the session of a descriptor carries. -/
def accountAt (w : World P) (c : Socket) : Option UserId :=
  (w.sessions.loginAt c).bind fun u => if u = [] then none else w.db.idOf u

def observe (w : World P) (o : Obs) : World P := { w with trace := w.trace ++ [o] }

/-- Execute a statement; one that fails, or violates a constraint, changes nothing. -/
def execute (w : World P) (st : Stmt) (ch : Choice) : Except SQLException st.Res × World P :=
  if ch.dbOk then
    match w.db.exec ch.now ch.rank st with
    | some (r, db) => (.ok r, { w with db := db })
    | none => (.error .raised, w)
  else (.error .raised, w)

/-- Read a session through a pointer. -/
def deref {α : Type} (w : World P) (p : SessionPtr) (field : ClientSession → α) (junk : α) :
    α × World P :=
  match w.sessions.heap.lookup p with
  | some s => (field s, w)
  | none => (junk, { w with undefined := true })

/-- Write a session through a pointer. -/
def write (w : World P) (p : SessionPtr) (f : SessionManager → SessionManager) : World P :=
  match w.sessions.heap.lookup p with
  | some _ => { w with sessions := f w.sessions }
  | none => { w with undefined := true }

/-- What each operation answers and does. -/
def handle : Effect.Handler Op Op.Res Choice (World P)
  | .sql st, ch, w => w.execute st ch
  | .getSession c, _, w => (w.sessions.getSession c, w)
  | .getSessionByUsername username, _, w => (w.sessions.getSessionByUsername username, w)
  | .getAllSessions, ch, w =>
      (Effect.arrange ch.rank (w.sessions.cliSessionMap.entries.map fun e => (e.1, e.2)), w)
  | .addSession c, ch, w =>
      ((), { w with sessions := w.sessions.addSession ⟨c, [], ch.now, true⟩ })
  | .removeSession c, _, w => ((), { w with sessions := w.sessions.removeSession c })
  | .bindUsername c username, _, w =>
      ((), { w with sessions := w.sessions.bindUsername c username })
  | .getSocket p, _, w => w.deref p (·.socket) (0 : Nat)
  | .getUsername p, _, w => w.deref p (·.username) []
  | .getLastHeartbeat p, _, w => w.deref p (·.lastHeartbeat) (0 : Nat)
  | .getIsConnected p, _, w => w.deref p (·.isConnected) false
  | .setUsername p username, _, w => ((), w.write p (·.setUsername p username))
  | .updateHeartbeat p, ch, w => ((), w.write p (·.updateHeartbeat p ch.now))
  | .cacheInsert username friends, _, w =>
      ((), { w with cachedFriendLists := w.cachedFriendLists.insert username friends })
  | .cacheErase username, _, w =>
      ((), { w with cachedFriendLists := w.cachedFriendLists.erase username })
  | .accept c, _, w => ((), { w with openSockets := c :: w.openSockets })
  | .sendData c frame, ch, w =>
      (ch.sendOk, w.observe (.sent c (w.accountAt c) frame ch.sendOk))
  | .shutdown c, _, w => ((), w.observe (.shutdown c))
  | .close c, _, w =>
      ((), { w.observe (.close c) with openSockets := w.openSockets.filter (· ≠ c) })
  | .loadConnections, _, w => (w.currentConnections, w)
  | .addConnections n, _, w => ((), { w with currentConnections := w.currentConnections + n })
  | .time, ch, w => (ch.now, w)
  | .uninitialised, ch, w => (ch.garbage, w)

/-! ### What one operation can change -/

/-- A statement changes the database, if it is executed. -/
theorem execute_world (w : World P) (st : Stmt) (ch : Choice) : ∃ db,
    (w.execute st ch).2 = { w with db := db } ∧
      (db = w.db ∨ ∃ r, w.db.exec ch.now ch.rank st = some (r, db)) := by
  unfold execute
  split
  · split
    · rename_i r db hex
      exact ⟨db, rfl, .inr ⟨r, hex⟩⟩
    · exact ⟨w.db, rfl, .inl rfl⟩
  · exact ⟨w.db, rfl, .inl rfl⟩

/-- The operations that read a session through a pointer. -/
def Derefs : Op → Prop
  | .getSocket _ | .getUsername _ | .getLastHeartbeat _ | .getIsConnected _ => True
  | _ => False

/-- Reading a session changes nothing, unless it is gone. -/
theorem handle_derefs {o : Op} (ho : Derefs o) (ch : Choice) (w : World P) :
    ∃ lost, (handle o ch w).2 = { w with undefined := lost } := by
  have hderef : ∀ {α : Type} (p : SessionPtr) (field : ClientSession → α) (junk : α),
      ∃ lost, (w.deref p field junk).2 = { w with undefined := lost } := by
    intro α p field junk
    unfold deref
    split
    · exact ⟨w.undefined, rfl⟩
    · exact ⟨true, rfl⟩
  cases o with
  | getSocket p => exact hderef p _ _
  | getUsername p => exact hderef p _ _
  | getLastHeartbeat p => exact hderef p _ _
  | getIsConnected p => exact hderef p _ _
  | _ => exact absurd ho id

/-- Writing a session changes the session manager, unless the session is gone. -/
theorem write_world (w : World P) (p : SessionPtr) (f : SessionManager → SessionManager) :
    ∃ sessions lost, w.write p f = { w with sessions := sessions, undefined := lost } ∧
      (sessions = w.sessions ∨ sessions = f w.sessions) := by
  unfold write
  split
  · exact ⟨f w.sessions, w.undefined, rfl, .inr rfl⟩
  · exact ⟨w.sessions, true, rfl, .inl rfl⟩

/-- The operations that use a session through a pointer. -/
def Follows : Op → Prop
  | .setUsername _ _ | .updateHeartbeat _ => True
  | o => Derefs o

/-- They change the session manager at most. -/
theorem handle_follows {o : Op} (ho : Follows o) (ch : Choice) (w : World P) :
    ∃ sessions lost, (handle o ch w).2 = { w with sessions := sessions, undefined := lost } := by
  have hderefs := fun ho : Derefs o => handle_derefs ho ch w
  cases o with
  | setUsername p u =>
    obtain ⟨sessions, lost, hw, _⟩ := w.write_world p (·.setUsername p u)
    exact ⟨sessions, lost, hw⟩
  | updateHeartbeat p =>
    obtain ⟨sessions, lost, hw, _⟩ := w.write_world p (·.updateHeartbeat p ch.now)
    exact ⟨sessions, lost, hw⟩
  | getSocket | getUsername | getLastHeartbeat | getIsConnected =>
    obtain ⟨lost, hw⟩ := hderefs trivial
    exact ⟨w.sessions, lost, hw⟩
  | _ => exact absurd ho id

/-- The database changes by statements that are executed, and in no other way. -/
theorem db_handle (o : Op) (ch : Choice) (w : World P) : (handle o ch w).2.db = w.db ∨
    ∃ st r, o = .sql st ∧ w.db.exec ch.now ch.rank st = some (r, (handle o ch w).2.db) := by
  have hfollows := fun ho : Follows o => handle_follows ho ch w
  cases o with
  | sql st =>
    obtain ⟨db, hw, hdb⟩ := w.execute_world st ch
    have hafter : (handle (.sql st) ch w).2.db = db := congrArg World.db hw
    rw [hafter]
    rcases hdb with rfl | ⟨r, hex⟩
    · exact .inl rfl
    · exact .inr ⟨st, r, rfl, hex⟩
  | getSocket | getUsername | getLastHeartbeat | getIsConnected | setUsername | updateHeartbeat =>
    obtain ⟨sessions, lost, hw⟩ := hfollows trivial
    rw [hw]
    exact .inl rfl
  | _ => exact .inl rfl

theorem db_handle_of_ne {o : Op} (ho : ∀ st, o ≠ .sql st) (ch : Choice) (w : World P) :
    (handle o ch w).2.db = w.db := by
  rcases db_handle o ch w with hdb | ⟨st, r, hst, _⟩
  · exact hdb
  · exact absurd hst (ho st)

end World

/-! ## The operations as code calls them -/

namespace Action

def op (o : Op) : Action o.Res := Effect.Prog.op o

def sql (st : Stmt) : Action (Except SQLException st.Res) := op (.sql st)
def getSession (c : Socket) : Action (Option SessionPtr) := op (.getSession c)
def getSessionByUsername (username : Str) : Action (Option SessionPtr) :=
  op (.getSessionByUsername username)
def getAllSessions : Action (List (Socket × SessionPtr)) := op .getAllSessions
def addSession (c : Socket) : Action Unit := op (.addSession c)
def removeSession (c : Socket) : Action Unit := op (.removeSession c)
def bindUsername (c : Socket) (username : Str) : Action Unit := op (.bindUsername c username)
def getSocket (p : SessionPtr) : Action Socket := op (.getSocket p)
def getUsername (p : SessionPtr) : Action Str := op (.getUsername p)
def getLastHeartbeat (p : SessionPtr) : Action Nat := op (.getLastHeartbeat p)
def getIsConnected (p : SessionPtr) : Action Bool := op (.getIsConnected p)
def setUsername (p : SessionPtr) (username : Str) : Action Unit := op (.setUsername p username)
def updateHeartbeat (p : SessionPtr) : Action Unit := op (.updateHeartbeat p)
def cacheInsert (username : Str) (friends : List Str) : Action Unit :=
  op (.cacheInsert username friends)
def cacheErase (username : Str) : Action Unit := op (.cacheErase username)
def accept (c : Socket) : Action Unit := op (.accept c)
def sendData (c : Socket) (frame : Frame) : Action Bool := op (.sendData c frame)
def shutdown (c : Socket) : Action Unit := op (.shutdown c)
def close (c : Socket) : Action Unit := op (.close c)
def loadConnections : Action Int := op .loadConnections
def addConnections (n : Int) : Action Unit := op (.addConnections n)
def time : Action Nat := op .time
def uninitialised : Action Int := op .uninitialised

end Action

/-! ## What may go wrong -/

/-- What a statement lets the environment do: whether SQL statements, and sends, may fail.
Clocks, ranks and garbage are always the environment's. -/
structure Env where
  dbFails : Prop
  sendFails : Prop

namespace Env

/-- Everything may fail. -/
def any : Env := ⟨True, True⟩

/-- No statement fails; sends may. -/
def reliable : Env := ⟨False, True⟩

/-- The choices an environment may make. -/
def Ok (E : Env) (ch : Choice) : Prop :=
  (ch.dbOk = false → E.dbFails) ∧ (ch.sendOk = false → E.sendFails)

theorem ok_default (E : Env) : E.Ok default := ⟨nofun, nofun⟩

theorem ok_any (ch : Choice) : any.Ok ch := ⟨fun _ => trivial, fun _ => trivial⟩

theorem ok_reliable {ch : Choice} : reliable.Ok ch ↔ ch.dbOk = true := by
  simp [Ok, reliable]

end Env

namespace Action

variable {P : Platform} {α β : Type}

/-- From `w`, in the environment `E`, the code ends with an answer and a world that satisfy
`Q`. -/
def wp (E : Env) (p : Action α) (Q : α → World P → Prop) (w : World P) : Prop :=
  Effect.Prog.wp World.handle E.Ok p Q w

/-- Run code alone. -/
def run (p : Action α) (cs : List Choice) (w : World P) : α × World P :=
  Effect.Prog.run World.handle p cs w

variable {E : Env} {Q R : α → World P → Prop} {w : World P}

theorem run_of_wp {p : Action α} (h : p.wp E Q w) (cs : List Choice) (hcs : ∀ ch ∈ cs, E.Ok ch) :
    Q (p.run cs w).1 (p.run cs w).2 :=
  Effect.Prog.run_of_wp E.ok_default h cs hcs

theorem wp_mono {p : Action α} (h : p.wp E Q w) (hQR : ∀ a t, Q a t → R a t) : p.wp E R w :=
  Effect.Prog.wp_mono h hQR

theorem wp_and {p : Action α} (h : p.wp E Q w) (h' : p.wp E R w) :
    p.wp E (fun a t => Q a t ∧ R a t) w :=
  Effect.Prog.wp_and h h'

@[simp] theorem wp_pure (a : α) : wp E (Pure.pure a : Action α) Q w ↔ Q a w := Iff.rfl

@[simp] theorem wp_pure' (a : α) : wp E (Effect.Prog.pure a : Action α) Q w ↔ Q a w := Iff.rfl

@[simp] theorem wp_bind (p : Action α) (f : α → Action β) {Q : β → World P → Prop} :
    wp E (p >>= f) Q w ↔ wp E p (fun a t => wp E (f a) Q t) w :=
  Effect.Prog.wp_bind p f

@[simp] theorem wp_ite {c : Prop} [Decidable c] (p q : Action α) :
    wp E (if c then p else q) Q w ↔ if c then wp E p Q w else wp E q Q w := by
  split <;> rfl

/-- The rule for `if`, with the condition at hand in each branch. -/
theorem wp_if {c : Prop} [Decidable c] {p q : Action α} (hp : c → wp E p Q w)
    (hq : ¬ c → wp E q Q w) : wp E (if c then p else q) Q w := by
  by_cases h : c
  · rw [if_pos h]
    exact hp h
  · rw [if_neg h]
    exact hq h

theorem wp_op (o : Op) {Q : o.Res → World P → Prop} :
    wp E (op o) Q w ↔ ∀ ch, E.Ok ch → Q (World.handle o ch w).1 (World.handle o ch w).2 :=
  Effect.Prog.wp_op o

/-- An operation that answers and does the same whatever the environment chooses. -/
theorem wp_det (o : Op) {Q : Op.Res o → World P → Prop} {r : Op.Res o} {w' : World P}
    (h : ∀ ch, World.handle o ch w = (r, w')) :
    wp E (op o) Q w ↔ Q r w' := by
  refine (wp_op o).trans ⟨fun H => ?_, fun H ch _ => ?_⟩
  · have := H default E.ok_default
    rwa [h default] at this
  · rw [h ch]
    exact H

section Rules

@[simp] theorem wp_getSession {c : Socket} {Q : Option SessionPtr → World P → Prop} :
    wp E (getSession c) Q w ↔ Q (w.sessions.getSession c) w := wp_det (.getSession c) fun _ => rfl

@[simp] theorem wp_getSessionByUsername {u : Str} {Q : Option SessionPtr → World P → Prop} :
    wp E (getSessionByUsername u) Q w ↔ Q (w.sessions.getSessionByUsername u) w :=
  wp_det (.getSessionByUsername u) fun _ => rfl

@[simp] theorem wp_removeSession {c : Socket} {Q : Unit → World P → Prop} :
    wp E (removeSession c) Q w ↔ Q () { w with sessions := w.sessions.removeSession c } :=
  wp_det (.removeSession c) fun _ => rfl

@[simp] theorem wp_bindUsername {c : Socket} {u : Str} {Q : Unit → World P → Prop} :
    wp E (bindUsername c u) Q w ↔ Q () { w with sessions := w.sessions.bindUsername c u } :=
  wp_det (.bindUsername c u) fun _ => rfl

@[simp] theorem wp_cacheInsert {u : Str} {fs : List Str} {Q : Unit → World P → Prop} :
    wp E (cacheInsert u fs) Q w ↔
      Q () { w with cachedFriendLists := w.cachedFriendLists.insert u fs } :=
  wp_det (.cacheInsert u fs) fun _ => rfl

@[simp] theorem wp_cacheErase {u : Str} {Q : Unit → World P → Prop} :
    wp E (cacheErase u) Q w ↔
      Q () { w with cachedFriendLists := w.cachedFriendLists.erase u } := wp_det (.cacheErase u) fun _ => rfl

@[simp] theorem wp_accept {c : Socket} {Q : Unit → World P → Prop} :
    wp E (accept c) Q w ↔ Q () { w with openSockets := c :: w.openSockets } :=
  wp_det (.accept c) fun _ => rfl

@[simp] theorem wp_shutdown {c : Socket} {Q : Unit → World P → Prop} :
    wp E (shutdown c) Q w ↔ Q () (w.observe (.shutdown c)) := wp_det (.shutdown c) fun _ => rfl

@[simp] theorem wp_close {c : Socket} {Q : Unit → World P → Prop} :
    wp E (close c) Q w ↔
      Q () { w.observe (.close c) with openSockets := w.openSockets.filter (· ≠ c) } :=
  wp_det (.close c) fun _ => rfl

@[simp] theorem wp_loadConnections {Q : Int → World P → Prop} :
    wp E loadConnections Q w ↔ Q w.currentConnections w := wp_det .loadConnections fun _ => rfl

@[simp] theorem wp_addConnections {n : Int} {Q : Unit → World P → Prop} :
    wp E (addConnections n) Q w ↔
      Q () { w with currentConnections := w.currentConnections + n } :=
  wp_det (.addConnections n) fun _ => rfl

@[simp] theorem wp_addSession {c : Socket} {Q : Unit → World P → Prop} :
    wp E (addSession c) Q w ↔
      ∀ now, Q () { w with sessions := w.sessions.addSession ⟨c, [], now, true⟩ } :=
  ⟨fun h now => h { (default : Choice) with now := now } E.ok_default,
    fun h ch _ => h ch.now⟩

@[simp] theorem wp_time {Q : Nat → World P → Prop} :
    wp E time Q w ↔ ∀ now, Q now w :=
  ⟨fun h now => h { (default : Choice) with now := now } E.ok_default,
    fun h ch _ => h ch.now⟩

@[simp] theorem wp_uninitialised {Q : Int → World P → Prop} :
    wp E uninitialised Q w ↔ ∀ n, Q n w :=
  ⟨fun h n => h { (default : Choice) with garbage := n } E.ok_default,
    fun h ch _ => h ch.garbage⟩

@[simp] theorem wp_sendData {c : Socket} {frame : Frame} {Q : Bool → World P → Prop} :
    wp E (sendData c frame) Q w ↔
      Q true (w.observe (.sent c (w.accountAt c) frame true)) ∧
        (E.sendFails → Q false (w.observe (.sent c (w.accountAt c) frame false))) := by
  refine (wp_op (.sendData c frame)).trans ?_
  constructor
  · intro h
    exact ⟨h default E.ok_default,
      fun hf => h { (default : Choice) with sendOk := false } ⟨nofun, fun _ => hf⟩⟩
  · rintro ⟨h1, h2⟩ ch hch
    cases hs : ch.sendOk with
    | true => simpa [World.handle, hs] using h1
    | false => simpa [World.handle, hs] using h2 (hch.2 hs)

/-! A session is used through a pointer; the rules are about pointers to live sessions. -/

variable {p : SessionPtr} {s : ClientSession}

theorem wp_getSocket (hs : w.sessions.heap.lookup p = some s) {Q : Socket → World P → Prop} :
    wp E (getSocket p) Q w ↔ Q s.socket w :=
  wp_det (.getSocket p) fun _ => by simp [World.handle, World.deref, hs]

theorem wp_getUsername (hs : w.sessions.heap.lookup p = some s) {Q : Str → World P → Prop} :
    wp E (getUsername p) Q w ↔ Q s.username w :=
  wp_det (.getUsername p) fun _ => by simp [World.handle, World.deref, hs]

theorem wp_getLastHeartbeat (hs : w.sessions.heap.lookup p = some s)
    {Q : Nat → World P → Prop} : wp E (getLastHeartbeat p) Q w ↔ Q s.lastHeartbeat w :=
  wp_det (.getLastHeartbeat p) fun _ => by simp [World.handle, World.deref, hs]

theorem wp_getIsConnected (hs : w.sessions.heap.lookup p = some s)
    {Q : Bool → World P → Prop} : wp E (getIsConnected p) Q w ↔ Q s.isConnected w :=
  wp_det (.getIsConnected p) fun _ => by simp [World.handle, World.deref, hs]

theorem wp_setUsername (hs : w.sessions.heap.lookup p = some s) {u : Str}
    {Q : Unit → World P → Prop} : wp E (setUsername p u) Q w ↔
      Q () { w with sessions := w.sessions.setUsername p u } :=
  wp_det (.setUsername p u) fun _ => by simp [World.handle, World.write, hs]

theorem wp_updateHeartbeat (hs : w.sessions.heap.lookup p = some s)
    {Q : Unit → World P → Prop} : wp E (updateHeartbeat p) Q w ↔
      ∀ now, Q () { w with sessions := w.sessions.updateHeartbeat p now } := by
  refine (wp_op (.updateHeartbeat p)).trans ?_
  constructor
  · intro h now
    simpa [World.handle, World.write, hs] using
      h { (default : Choice) with now := now } E.ok_default
  · intro h ch _
    simpa [World.handle, World.write, hs] using h ch.now

end Rules

end Action

end LiteChat
