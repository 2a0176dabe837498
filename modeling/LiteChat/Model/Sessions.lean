import LiteChat.Effect.Rows
import LiteChat.Model.Json

/-!
# Sessions

`ClientSession` and `SessionManager`. The manager hands out raw pointers, and a caller may hold
one while another thread removes the session, so sessions are objects in a `heap` under an address
that is never used twice, and `cliSessionMap` maps descriptors to addresses. An object is in the
heap as long as it has not been deleted.

Each function of the manager holds `sessionMutex` from its first line to its last, and each getter
and setter of a session is one access; these are the atomic operations of `Model/World.lean`.

What the rest of the development reads is `loginAt`: for a descriptor with a session, the username
of that session (empty until somebody logs in). The lemmas beside each operation say what it does
to `loginAt` and to `usernameToSocket`, and nothing later unfolds the heap.
-/

namespace LiteChat

/-- A file descriptor. -/
abbrev Socket : Type := Nat

/-- The address of a `ClientSession`. -/
abbrev SessionPtr : Type := Nat

structure ClientSession where
  socket : Socket
  username : Str
  lastHeartbeat : Nat
  isConnected : Bool
  deriving DecidableEq

/-- `SessionManager`. `map_wf` says that the map holds live sessions under their own descriptor,
so no session is in it twice. -/
structure SessionManager where
  heap : Effect.Map SessionPtr ClientSession
  cliSessionMap : Effect.Map Socket SessionPtr
  usernameToSocket : Effect.Map Str Socket
  nextPtr : SessionPtr
  heap_lt : ∀ p s, heap.lookup p = some s → p < nextPtr
  map_wf : ∀ c p, cliSessionMap.lookup c = some p → (heap.lookup p).map (·.socket) = some c

namespace SessionManager

open Effect

def empty : SessionManager where
  heap := ∅
  cliSessionMap := ∅
  usernameToSocket := ∅
  nextPtr := 0
  heap_lt := by simp
  map_wf := by simp

/-- Two descriptors never share a session. -/
theorem ptr_inj (m : SessionManager) {c d : Socket} {p : SessionPtr}
    (hc : m.cliSessionMap.lookup c = some p) (hd : m.cliSessionMap.lookup d = some p) : c = d := by
  have := (m.map_wf c p hc).symm.trans (m.map_wf d p hd)
  exact Option.some.inj this

/-- `AddSession`, for a session that was just allocated. -/
def addSession (m : SessionManager) (s : ClientSession) : SessionManager where
  heap := m.heap.insert m.nextPtr s
  cliSessionMap := m.cliSessionMap.insert s.socket m.nextPtr
  usernameToSocket :=
    if s.username ≠ [] then m.usernameToSocket.insert s.username s.socket else m.usernameToSocket
  nextPtr := m.nextPtr + 1
  heap_lt := by
    intro p t hp
    rw [Map.lookup_insert] at hp
    split at hp
    · rename_i h
      exact h ▸ Nat.lt_succ_self m.nextPtr
    · exact Nat.lt_succ_of_lt (m.heap_lt p t hp)
  map_wf := by
    intro c p hc
    rw [Map.lookup_insert] at hc
    rw [Map.lookup_insert]
    split at hc
    · rw [if_pos (Option.some.inj hc).symm]
      simp [*]
    · have h := m.map_wf c p hc
      have hne : p ≠ m.nextPtr := by
        rintro rfl
        cases hp : m.heap.lookup m.nextPtr with
        | none => simp [hp] at h
        | some t => exact absurd (m.heap_lt _ t hp) (Nat.lt_irrefl _)
      rw [if_neg hne]
      exact h

/-- `RemoveSession`: the routing entry goes only if it is this descriptor's own. -/
def removeSession (m : SessionManager) (c : Socket) : SessionManager :=
  match hc : m.cliSessionMap.lookup c with
  | none => m
  | some p =>
    let username := ((m.heap.lookup p).map (·.username)).getD []
    { heap := m.heap.erase p
      cliSessionMap := m.cliSessionMap.erase c
      usernameToSocket :=
        if username ≠ [] ∧ m.usernameToSocket.lookup username = some c then
          m.usernameToSocket.erase username
        else m.usernameToSocket
      nextPtr := m.nextPtr
      heap_lt := by
        intro q t hq
        rw [Map.lookup_erase] at hq
        split at hq
        · exact absurd hq (by simp)
        · exact m.heap_lt q t hq
      map_wf := by
        intro d q hd
        rw [Map.lookup_erase] at hd
        split at hd
        · exact absurd hd (by simp)
        · rename_i hdc
          have hne : q ≠ p := fun h => hdc (m.ptr_inj (h ▸ hd) hc)
          rw [Map.lookup_erase, if_neg hne]
          exact m.map_wf d q hd }

/-- `GetSession`. -/
def getSession (m : SessionManager) (c : Socket) : Option SessionPtr := m.cliSessionMap.lookup c

/-- `GetSessionByUsername`. -/
def getSessionByUsername (m : SessionManager) (username : Str) : Option SessionPtr :=
  (m.usernameToSocket.lookup username).bind m.cliSessionMap.lookup

/-- `BindUsername`. -/
def bindUsername (m : SessionManager) (c : Socket) (username : Str) : SessionManager :=
  { m with usernameToSocket := m.usernameToSocket.insert username c }

/-- A setter of the session at `p`; nothing happens to a session that is not there any more. -/
def modify (m : SessionManager) (p : SessionPtr) (f : ClientSession → ClientSession)
    (hf : ∀ s, (f s).socket = s.socket) : SessionManager :=
  match hp : m.heap.lookup p with
  | none => m
  | some s =>
    { m with
      heap := m.heap.insert p (f s)
      heap_lt := by
        intro q t hq
        rw [Map.lookup_insert] at hq
        split at hq
        · rename_i h
          exact h ▸ m.heap_lt p s hp
        · exact m.heap_lt q t hq
      map_wf := by
        intro c q hc
        rw [Map.lookup_insert]
        split
        · rename_i h
          have := m.map_wf c q hc
          rw [h, hp] at this
          simpa [hf] using this
        · exact m.map_wf c q hc }

/-- `SetUsername`. -/
def setUsername (m : SessionManager) (p : SessionPtr) (username : Str) : SessionManager :=
  m.modify p (fun s => { s with username := username }) fun _ => rfl

/-- `UpdateHeartbeat`. -/
def updateHeartbeat (m : SessionManager) (p : SessionPtr) (now : Nat) : SessionManager :=
  m.modify p (fun s => { s with lastHeartbeat := now }) fun _ => rfl

/-! ## Who is logged in where -/

/-- The session of a descriptor. -/
def session (m : SessionManager) (c : Socket) : Option ClientSession :=
  (m.cliSessionMap.lookup c).bind m.heap.lookup

/-- The username of the session of a descriptor; `none` if it has no session. -/
def loginAt (m : SessionManager) (c : Socket) : Option Str := (m.session c).map (·.username)

/-- The descriptor that messages to a name go to. -/
def route (m : SessionManager) (username : Str) : Option Socket :=
  m.usernameToSocket.lookup username

theorem session_of_ptr (m : SessionManager) {c : Socket} {p : SessionPtr}
    (h : m.cliSessionMap.lookup c = some p) : ∃ s, m.heap.lookup p = some s ∧ s.socket = c := by
  have := m.map_wf c p h
  cases hp : m.heap.lookup p with
  | none => simp [hp] at this
  | some s => exact ⟨s, rfl, by simpa [hp] using this⟩

theorem getSession_eq_none {m : SessionManager} {c : Socket} :
    m.getSession c = none ↔ m.loginAt c = none := by
  unfold getSession loginAt session
  cases h : m.cliSessionMap.lookup c with
  | none => simp
  | some p =>
    obtain ⟨s, hs, _⟩ := m.session_of_ptr h
    simp [hs]

/-- A pointer the manager hands out for a descriptor is good for that descriptor's session. -/
theorem heap_of_getSession {m : SessionManager} {c : Socket} {p : SessionPtr}
    (h : m.getSession c = some p) :
    ∃ s, m.heap.lookup p = some s ∧ s.socket = c ∧ m.loginAt c = some s.username := by
  obtain ⟨s, hs, hc⟩ := m.session_of_ptr h
  refine ⟨s, hs, hc, ?_⟩
  unfold getSession at h
  simp [loginAt, session, h, hs]

theorem heap_of_loginAt {m : SessionManager} {c : Socket} {u : Str} (h : m.loginAt c = some u) :
    ∃ p s, m.getSession c = some p ∧ m.heap.lookup p = some s ∧ s.username = u := by
  obtain ⟨s, hs, hu⟩ := Option.map_eq_some_iff.mp h
  obtain ⟨p, hp, hs⟩ := Option.bind_eq_some_iff.mp hs
  exact ⟨p, s, hp, hs, hu⟩

theorem getSession_of_byUsername {m : SessionManager} {u : Str} {p : SessionPtr}
    (h : m.getSessionByUsername u = some p) :
    ∃ c, m.route u = some c ∧ m.getSession c = some p := by
  unfold getSessionByUsername at h
  exact Option.bind_eq_some_iff.mp h

theorem getSessionByUsername_of_route {m : SessionManager} {u : Str} {c : Socket}
    (h : m.route u = some c) : m.getSessionByUsername u = m.getSession c := by
  show (m.route u).bind m.getSession = m.getSession c
  rw [h]
  rfl

theorem getSessionByUsername_congr {m m' : SessionManager} {u : Str} (hroute : m'.route u = m.route u)
    (hsession : ∀ c, m'.getSession c = m.getSession c) :
    m'.getSessionByUsername u = m.getSessionByUsername u := by
  show (m'.route u).bind m'.getSession = (m.route u).bind m.getSession
  rw [hroute, funext hsession]

/-! ### After each operation -/

@[simp] theorem loginAt_empty (c : Socket) : empty.loginAt c = none := rfl

@[simp] theorem route_empty (u : Str) : empty.route u = none := rfl

@[simp] theorem loginAt_bindUsername (m : SessionManager) (c d : Socket) (u : Str) :
    (m.bindUsername c u).loginAt d = m.loginAt d := rfl

@[simp] theorem getSession_bindUsername (m : SessionManager) (c d : Socket) (u : Str) :
    (m.bindUsername c u).getSession d = m.getSession d := rfl

theorem route_bindUsername (m : SessionManager) (c : Socket) (u v : Str) :
    (m.bindUsername c u).route v = if v = u then some c else m.route v :=
  Map.lookup_insert _ _ _ _

theorem getSession_addSession (m : SessionManager) (s : ClientSession) (c : Socket) :
    (m.addSession s).getSession c = if c = s.socket then some m.nextPtr else m.getSession c :=
  Map.lookup_insert _ _ _ _

theorem heap_addSession (m : SessionManager) (s : ClientSession) {q : SessionPtr}
    (hq : q < m.nextPtr) : (m.addSession s).heap.lookup q = m.heap.lookup q := by
  show (AList.insert m.nextPtr s m.heap).lookup q = _
  rw [Map.lookup_insert, if_neg (Nat.ne_of_lt hq)]

theorem loginAt_addSession (m : SessionManager) (s : ClientSession) (c : Socket) :
    (m.addSession s).loginAt c = if c = s.socket then some s.username else m.loginAt c := by
  unfold loginAt session addSession
  simp only [Map.lookup_insert]
  split
  · simp
  · cases h : m.cliSessionMap.lookup c with
    | none => rfl
    | some p =>
      obtain ⟨t, ht, _⟩ := m.session_of_ptr h
      have hne : p ≠ m.nextPtr := Nat.ne_of_lt (m.heap_lt p t ht)
      simp [hne]

section modify

variable {m : SessionManager} {p : SessionPtr} {f : ClientSession → ClientSession}
  {hf : ∀ s, (f s).socket = s.socket}

theorem cliSessionMap_modify : (m.modify p f hf).cliSessionMap = m.cliSessionMap := by
  unfold modify
  split <;> rfl

@[simp] theorem getSession_modify (c : Socket) : (m.modify p f hf).getSession c = m.getSession c := by
  simp [getSession, cliSessionMap_modify]

@[simp] theorem route_modify (u : Str) : (m.modify p f hf).route u = m.route u := by
  unfold modify
  split <;> rfl

theorem heap_modify (q : SessionPtr) :
    (m.modify p f hf).heap.lookup q = if q = p then (m.heap.lookup p).map f else m.heap.lookup q := by
  unfold modify
  split
  · rename_i hp
    split
    · rename_i h
      rw [h, hp]
      rfl
    · rfl
  · rename_i s hp
    simp only [Map.lookup_insert, hp]
    rfl

theorem loginAt_modify (c : Socket) : (m.modify p f hf).loginAt c =
    if m.getSession c = some p then ((m.session c).map f).map (·.username) else m.loginAt c := by
  unfold loginAt session getSession
  rw [cliSessionMap_modify]
  cases h : m.cliSessionMap.lookup c with
  | none => simp
  | some q =>
    simp only [Option.bind_some, heap_modify, Option.some.injEq]
    by_cases hq : q = p
    · subst hq
      simp
    · simp [hq]

end modify

@[simp] theorem getSession_setUsername (m : SessionManager) (p : SessionPtr) (u : Str) (c : Socket) :
    (m.setUsername p u).getSession c = m.getSession c := getSession_modify c

@[simp] theorem route_setUsername (m : SessionManager) (p : SessionPtr) (u v : Str) :
    (m.setUsername p u).route v = m.route v := route_modify v

theorem loginAt_setUsername (m : SessionManager) (p : SessionPtr) (u : Str) (c : Socket) :
    (m.setUsername p u).loginAt c = if m.getSession c = some p then some u else m.loginAt c := by
  rw [setUsername, loginAt_modify]
  split
  · rename_i h
    obtain ⟨s, hs, _⟩ := m.session_of_ptr h
    unfold getSession at h
    simp [session, h, hs]
  · rfl

@[simp] theorem getSession_updateHeartbeat (m : SessionManager) (p : SessionPtr) (now : Nat)
    (c : Socket) : (m.updateHeartbeat p now).getSession c = m.getSession c := getSession_modify c

@[simp] theorem route_updateHeartbeat (m : SessionManager) (p : SessionPtr) (now : Nat) (v : Str) :
    (m.updateHeartbeat p now).route v = m.route v := route_modify v

@[simp] theorem loginAt_updateHeartbeat (m : SessionManager) (p : SessionPtr) (now : Nat)
    (c : Socket) : (m.updateHeartbeat p now).loginAt c = m.loginAt c := by
  rw [updateHeartbeat, loginAt_modify]
  split
  · rw [Option.map_map]
    rfl
  · rfl

theorem getSession_removeSession (m : SessionManager) (c d : Socket) :
    (m.removeSession c).getSession d = if d = c then none else m.getSession d := by
  unfold removeSession getSession
  split
  · rename_i h
    split
    · rename_i hd
      rw [hd, h]
    · rfl
  · exact Map.lookup_erase _ _ _

theorem nextPtr_removeSession (m : SessionManager) (c : Socket) :
    (m.removeSession c).nextPtr = m.nextPtr := by
  unfold removeSession
  split <;> rfl

/-- Deleting a session leaves the other sessions where they are. -/
theorem heap_removeSession (m : SessionManager) (c : Socket) (q : SessionPtr) :
    (m.removeSession c).heap.lookup q =
      if m.getSession c = some q then none else m.heap.lookup q := by
  unfold removeSession getSession
  split
  · rename_i h
    rw [h, if_neg nofun]
  · rename_i p hp
    simp only [Map.lookup_erase, hp, Option.some.injEq, eq_comm]

theorem session_removeSession (m : SessionManager) (c d : Socket) :
    (m.removeSession c).session d = if d = c then none else m.session d := by
  show ((m.removeSession c).getSession d).bind (m.removeSession c).heap.lookup = _
  rw [getSession_removeSession]
  by_cases hd : d = c
  · rw [if_pos hd, if_pos hd]
    rfl
  · rw [if_neg hd, if_neg hd]
    show (m.getSession d).bind _ = (m.getSession d).bind _
    cases hp : m.getSession d with
    | none => rfl
    | some p =>
      show (m.removeSession c).heap.lookup p = m.heap.lookup p
      rw [heap_removeSession, if_neg]
      exact fun hc => hd (m.ptr_inj hp hc)

theorem loginAt_removeSession (m : SessionManager) (c d : Socket) :
    (m.removeSession c).loginAt d = if d = c then none else m.loginAt d := by
  unfold removeSession loginAt session
  split
  · rename_i h
    split
    · rename_i hd
      rw [hd, h]
      rfl
    · rfl
  · rename_i p hp
    simp only [Map.lookup_erase]
    split
    · rfl
    · rename_i hdc
      cases hq : m.cliSessionMap.lookup d with
      | none => rfl
      | some q =>
        have hne : q ≠ p := fun h => hdc (m.ptr_inj (h ▸ hq) hp)
        simp [hne]

/-- Removing a session takes away the route of its own name, if that leads to it. -/
theorem route_removeSession (m : SessionManager) (c : Socket) (v : Str) :
    (m.removeSession c).route v =
      if m.loginAt c = some v ∧ v ≠ [] ∧ m.route v = some c then none else m.route v := by
  unfold removeSession route loginAt session
  split
  · rename_i h
    simp [h]
  · rename_i p hp
    obtain ⟨s, hs, _⟩ := m.session_of_ptr hp
    have hu : ((m.heap.lookup p).map (·.username)).getD [] = s.username := by simp [hs]
    dsimp only
    rw [hu]
    simp only [hp, hs, Option.map_some, Option.bind_some, Option.some.injEq]
    by_cases hv : s.username = v
    · subst hv
      by_cases hr : s.username ≠ [] ∧ m.usernameToSocket.lookup s.username = some c
      · rw [if_pos hr, if_pos ⟨rfl, hr⟩, Map.lookup_erase, if_pos rfl]
      · rw [if_neg hr, if_neg fun h => hr h.2]
    · have hother : ¬ (s.username = v ∧ v ≠ [] ∧ m.usernameToSocket.lookup v = some c) :=
        fun h => hv h.1
      rw [if_neg hother]
      split
      · rw [Map.lookup_erase, if_neg fun h => hv h.symm]
      · rfl

end SessionManager

end LiteChat
