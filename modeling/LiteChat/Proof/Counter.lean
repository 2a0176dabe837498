import LiteChat.Proof.OneWinner
import Mathlib.Data.Finset.Card

/-!
# The connection counter

The accept loop adds a session and then counts it; the two ends of a connection and the heartbeat
check remove one and then take it off the count. The counter says how many sessions there are, up to
what the threads in between have yet to settle, as long as a session that is removed is there and one
that is added is new. `RemoveSession` does not say whether it removed anything, and so a connection
that ends while the heartbeat check drops it is taken off twice (`not_countsSessions`).

Between `AddSession` and the count of the accept loop the counter is one too small, and between
`RemoveSession` and the count of whoever removes it is one too large. `Tally` keeps the books: who owes
what is read off the calls that the thread has made (`owed`), and the counter is the number of sessions
with what is owed.
-/

namespace LiteChat

open LiteChat.Action Effect Server

variable {P : Platform} {w : World P}

/-! ## How many sessions there are -/

/-- The number of entries of `cliSessionMap`. -/
def SessionManager.count (m : SessionManager) : Nat := m.cliSessionMap.entries.length

theorem SessionManager.count_addSession {m : SessionManager} {s : ClientSession}
    (h : m.getSession s.socket = none) : (m.addSession s).count = m.count + 1 := by
  have hnot : s.socket ∉ m.cliSessionMap := AList.lookup_eq_none.mp h
  show (AList.insert s.socket m.nextPtr m.cliSessionMap).entries.length = _
  rw [AList.insert_of_notMem hnot]
  rfl

theorem SessionManager.count_removeSession {m : SessionManager} {c : Socket}
    (h : m.getSession c ≠ none) : (m.removeSession c).count + 1 = m.count := by
  obtain ⟨p, hp⟩ := Option.ne_none_iff_exists'.mp h
  have hmem : c ∈ m.cliSessionMap.keys :=
    AList.lookup_isSome.mp (Option.isSome_iff_exists.mpr ⟨p, hp⟩)
  have herase : (m.removeSession c).cliSessionMap = m.cliSessionMap.erase c := by
    unfold SessionManager.removeSession
    split
    · rename_i hnone
      exact absurd (hp.symm.trans hnone) nofun
    · rfl
  have hlength : ∀ l : Map Socket SessionPtr, l.keys.length = l.entries.length :=
    fun l => List.length_map _
  unfold SessionManager.count
  rw [herase, ← hlength, ← hlength, AList.keys_erase]
  exact List.length_erase_add_one hmem

theorem SessionManager.count_congr {m m' : SessionManager} (h : m'.cliSessionMap = m.cliSessionMap) :
    m'.count = m.count := by
  unfold SessionManager.count
  rw [h]

/-! ## What a thread owes -/

/-- What a thread that owes `n` to the counter owes after a call. -/
def due (n : Int) : Op → Int
  | .addSession _ => 1
  | .removeSession _ => -1
  | .addConnections _ => 0
  | _ => n

/-- What a thread that has called `own` has yet to add to the counter. -/
def owes (own : List Op) : Int := own.foldl due 0

theorem owes_concat (own : List Op) (o : Op) : owes (own ++ [o]) = due (owes own) o := by
  unfold owes
  rw [List.foldl_append]
  rfl

/-- The operations that neither add nor remove a session nor count. -/
def Op.Uncounted : Op → Prop
  | .addSession _ | .removeSession _ | .addConnections _ => False
  | _ => True

theorem due_uncounted {o : Op} (ho : o.Uncounted) (n : Int) : due n o = n := by
  cases o with
  | addSession | removeSession | addConnections => exact absurd ho id
  | _ => rfl

theorem Op.Reads.uncounted {o : Op} (ho : o.Reads) : o.Uncounted := by
  cases o with
  | addSession | removeSession | addConnections => exact absurd ho id
  | _ => trivial

theorem Op.Requests.uncounted {o : Op} (ho : o.Requests) : o.Uncounted := by
  cases o with
  | addSession | removeSession | addConnections => exact absurd ho id
  | _ => trivial

theorem World.handle_uncounted {o : Op} (ho : o.Uncounted) (ch : Choice) (w : World P) :
    (World.handle o ch w).2.sessions.cliSessionMap = w.sessions.cliSessionMap ∧
      (World.handle o ch w).2.currentConnections = w.currentConnections := by
  have hwrite : ∀ (p : SessionPtr) (f : SessionManager → SessionManager),
      (f w.sessions).cliSessionMap = w.sessions.cliSessionMap →
      (w.write p f).sessions.cliSessionMap = w.sessions.cliSessionMap ∧
        (w.write p f).currentConnections = w.currentConnections := by
    intro p f hf
    obtain ⟨sessions, lost, hw, hsessions⟩ := w.write_world p f
    rw [hw]
    rcases hsessions with rfl | rfl
    · exact ⟨rfl, rfl⟩
    · exact ⟨hf, rfl⟩
  have hderefs := fun ho : World.Derefs o => World.handle_derefs ho ch w
  cases o with
  | addSession | removeSession | addConnections => exact absurd ho id
  | sql st =>
    obtain ⟨db, hw, _⟩ := w.execute_world st ch
    show (w.execute st ch).2.sessions.cliSessionMap = _ ∧ (w.execute st ch).2.currentConnections = _
    rw [hw]
    exact ⟨rfl, rfl⟩
  | getSocket | getUsername | getLastHeartbeat | getIsConnected =>
    obtain ⟨lost, hw⟩ := hderefs trivial
    rw [hw]
    exact ⟨rfl, rfl⟩
  | setUsername p u => exact hwrite p _ SessionManager.cliSessionMap_modify
  | updateHeartbeat p => exact hwrite p _ SessionManager.cliSessionMap_modify
  | _ => exact ⟨rfl, rfl⟩

/-! ## How the threads count -/

/-- What a thread calls that ends connections. -/
def ExitCounts (own : List Op) : Op → Prop
  | .addSession _ => False
  | .removeSession _ => owes own = 0
  | .addConnections n => n = -1 ∧ owes own = -1
  | _ => True

/-- What the accept loop calls: it settles before it goes on, and it adds a session only if it has
just read a counter below the limit. -/
def AcceptCounts (own : List (Call Op Op.Res)) : Op → Prop
  | .addSession _ => owes (Prog.opsOf own) = 0 ∧
      ∃ n : Int, own.getLast? = some ⟨.loadConnections, n⟩ ∧ n < maxConnections
  | .removeSession _ => False
  | .addConnections n => n = 1 ∧ owes (Prog.opsOf own) = 1
  | _ => owes (Prog.opsOf own) = 0

section Threads

variable {α : Type} {H : Handler Op Op.Res Choice (World P)} {A : Choice → Prop}
  {I : World P → Prop} {ops : List Op}

theorem uncounted_among {p : Action α} (hp : p.Uses Op.Uncounted) (h : owes ops = 0) :
    p.AmongOps H A I ExitCounts (fun _ ops' => owes ops' = 0) ops := by
  refine hp.amongOps (fun ops => owes ops = 0) h fun ops o h ho => ⟨?_, ?_⟩
  · cases o with
    | addSession | removeSession | addConnections => exact absurd ho id
    | _ => trivial
  · rw [owes_concat, due_uncounted ho, h]

/-- A session goes, and is taken off the count. -/
theorem remove_among {c : Socket} (rest : Action α) (h : owes ops = 0)
    (hrest : rest.Uses Op.Uncounted) : Prog.AmongOps H A I ExitCounts (do
      removeSession c
      addConnections (-1)
      rest) (fun _ ops' => owes ops' = 0) ops := by
  refine .call_any h fun _ => .call_any ⟨rfl, ?_⟩ fun _ => uncounted_among hrest ?_
  · rw [owes_concat]
    rfl
  · rw [owes_concat]
    rfl

theorem farewell_uncounted (p : SessionPtr) : (farewell p).Uses Op.Uncounted := by
  refine .bind (uses_op trivial) fun u => .bind (uses_caught trivial _ _)
    fun _ => .bind (uses_op trivial) fun u => ?_
  refine .bind ((notify_reads _ _).mono fun _ => Op.Reads.uncounted) fun _ => ?_
  exact .bind (uses_op trivial) fun u => uses_op trivial

theorem asked_owes {o : Op} (ho : o.Uncounted) (h : owes ops = 0) : owes (ops ++ [o]) = 0 := by
  rw [owes_concat, due_uncounted ho, h]

theorem endConnection_among (c : Socket) (h : owes ops = 0) :
    (endConnection c).AmongOps H A I ExitCounts (fun _ ops' => owes ops' = 0) ops := by
  refine .call_any trivial fun session => ?_
  have h₁ := asked_owes (o := .getSession c) trivial h
  cases session with
  | none => exact uncounted_among (uses_op trivial) h₁
  | some p =>
    refine .call_any trivial fun u => ?_
    have h₂ := asked_owes (o := .getUsername p) trivial h₁
    split
    · refine (uncounted_among (farewell_uncounted p) h₂).seq fun _ ops' h' => ?_
      exact remove_among _ h' (uses_op trivial)
    · exact remove_among _ h₂ (uses_op trivial)

theorem failConnection_among (c : Socket) (h : owes ops = 0) :
    (failConnection c).AmongOps H A I ExitCounts (fun _ ops' => owes ops' = 0) ops := by
  refine .call_any trivial fun _ => .call_any trivial fun session => ?_
  have h₁ := asked_owes (o := .getSession c) trivial (asked_owes (o := .close c) trivial h)
  cases session with
  | none => exact .pure h₁
  | some p =>
    refine .call_any trivial fun u => ?_
    have h₂ := asked_owes (o := .getUsername p) trivial h₁
    split
    · refine .call_any trivial fun u => ?_
      have h₃ := asked_owes (o := .getUsername p) trivial h₂
      refine (uncounted_among (uses_caught trivial _ _) h₃).seq fun _ ops' h' => ?_
      exact remove_among (.pure ()) h' trivial
    · exact remove_among (.pure ()) h₂ trivial

theorem expire_among (c : Socket) (p : SessionPtr) (h : owes ops = 0) :
    (expire c p).AmongOps H A I ExitCounts (fun _ ops' => owes ops' = 0) ops := by
  refine (uncounted_among (farewell_uncounted p) h).seq fun _ ops' h' => .call_any trivial fun _ => ?_
  exact remove_among (.pure ()) (asked_owes (o := .shutdown c) trivial h') trivial

theorem heartbeatCheckEach_among (t : Nat) (sessions : List (Socket × SessionPtr))
    (h : owes ops = 0) : (heartbeatCheckEach t sessions).AmongOps H A I ExitCounts
      (fun _ ops' => owes ops' = 0) ops := by
  induction sessions generalizing ops with
  | nil => exact .pure h
  | cons e sessions ih =>
    obtain ⟨c, p⟩ := e
    refine .call_any trivial fun isConnected => ?_
    have h₁ := asked_owes (o := .getIsConnected p) trivial h
    split
    · refine .call_any trivial fun u => ?_
      have h₂ := asked_owes (o := .getUsername p) trivial h₁
      split
      · refine .call_any trivial fun lastHeartbeat => ?_
        have h₃ := asked_owes (o := .getLastHeartbeat p) trivial h₂
        split
        · exact (expire_among c p h₃).seq fun _ ops' h' => ih h'
        · exact ih h₃
      · exact ih h₂
    · exact ih h₁

theorem heartbeatCheckThread_among (rounds : Nat) (h : owes ops = 0) :
    (heartbeatCheckThread rounds).AmongOps H A I ExitCounts (fun _ ops' => owes ops' = 0) ops := by
  induction rounds generalizing ops with
  | zero => exact .pure h
  | succ rounds ih =>
    refine .seq (.call_any trivial fun sessions => .call_any trivial fun t => ?_) fun _ ops' h' => ih h'
    exact heartbeatCheckEach_among t sessions
      (asked_owes (o := .time) trivial (asked_owes (o := .getAllSessions) trivial h))

theorem handleClient_among (c : Socket) (received : List (Option Json)) (h : owes ops = 0) :
    (handleClient P c received).AmongOps H A I ExitCounts (fun _ ops' => owes ops' = 0) ops := by
  induction received generalizing ops with
  | nil => exact endConnection_among c h
  | cons parsed received ih =>
    have hrequest : (dispatchRequest P c parsed).Uses Op.Uncounted :=
      (dispatchRequest_requests c parsed).mono fun _ => Op.Requests.uncounted
    refine (uncounted_among hrequest h).seq fun served ops' h' => ?_
    cases served with
    | ok served => exact ih h'
    | error e => exact failConnection_among c h'

theorem acceptConnection_among (c : Socket) {own : List (Call Op Op.Res)}
    (h : owes (Prog.opsOf own) = 0) : (acceptConnection c).Among H A I AcceptCounts
      (fun _ own' => owes (Prog.opsOf own') = 0) own := by
  have asked : ∀ {own : List (Call Op Op.Res)} {o : Op} (r : Op.Res o), o.Uncounted →
      owes (Prog.opsOf own) = 0 → owes (Prog.opsOf (own ++ [⟨o, r⟩])) = 0 := by
    intro own o r ho h
    rw [Prog.opsOf_append]
    exact asked_owes ho h
  refine .call_any h fun r => ?_
  have h₁ := asked (o := .accept c) r trivial h
  refine .call_any h₁ fun n => ?_
  have h₂ := asked (o := .loadConnections) n trivial h₁
  split
  · refine .call_any h₂ fun ok => ?_
    have h₃ := asked (o := .sendData c busy) ok trivial h₂
    exact ⟨h₃, fun _ _ _ _ => asked (o := .close c) _ trivial h₃⟩
  · rename_i hlt
    refine .call_any ⟨h₂, n, by simp, Int.lt_of_not_ge hlt⟩ fun r => ?_
    refine ⟨⟨rfl, ?_⟩, fun _ _ _ _ => ?_⟩
    · rw [Prog.opsOf_append, owes_concat]
      rfl
    · show owes (Prog.opsOf _) = 0
      rw [Prog.opsOf_append, owes_concat]
      rfl

theorem acceptConnections_among (cs : List Socket) {own : List (Call Op Op.Res)}
    (h : owes (Prog.opsOf own) = 0) : (acceptConnections cs).Among H A I AcceptCounts
      (fun _ own' => owes (Prog.opsOf own') = 0) own := by
  induction cs generalizing own with
  | nil => exact h
  | cons c cs ih =>
    exact (Prog.among_bind _ _).mpr ((acceptConnection_among c h).mono fun _ own' h' => ih h')

end Threads

/-! ## The balance -/

section Balance

variable {κ : Type} [DecidableEq κ] {removing : Finset (Worker κ)}
  {h : List (Worker κ × Call Op Op.Res)} {k : Worker κ}

/-- What a thread owes by what it has called. -/
def owed (h : List (Worker κ × Call Op Op.Res)) (k : Worker κ) : Int :=
  owes (Pool.own (Pool.opsOf h) k)

theorem owed_concat (j : Worker κ) (o : Op) (r : Op.Res o) :
    owed (h ++ [(k, ⟨o, r⟩)]) j = if j = k then due (owed h k) o else owed h j := by
  unfold owed
  rw [Pool.opsOf_append]
  by_cases hj : j = k
  · rw [if_pos hj, hj, Pool.own_append_self, owes_concat]
  · rw [if_neg hj, Pool.own_append_ne fun hk => hj hk.symm]

/-- The session that the accept loop has added and not counted yet. -/
def Adding (h : List (Worker κ × Call Op Op.Res)) (c : Socket) : Prop :=
  (Pool.own (Pool.opsOf h) .accepting).getLast? = some (.addSession c)

/-- The counter is the number of sessions, less the one that is being added, and with those that are
being removed. -/
structure Tally (removing : Finset (Worker κ)) (w : World P)
    (h : List (Worker κ × Call Op Op.Res)) : Prop where
  removing_iff : ∀ k, k ∈ removing ↔ owed h k = -1
  balance : w.currentConnections = w.sessions.count - owed h .accepting + removing.card
  adding : owed h .accepting = 0 ∨
    owed h .accepting = 1 ∧ ∃ c, Adding h c ∧ w.sessions.getSession c ≠ none
  room : ∀ n : Int, (Pool.own h .accepting).getLast? = some ⟨.loadConnections, n⟩ →
    w.sessions.count ≤ n
  bounded : (w.sessions.count : Int) ≤ maxConnections
  defined : w.undefined = false

theorem Tally.start (db : Database P) : Tally (κ := κ) ∅ (World.start db) [] where
  removing_iff k := by simp [owed, owes, Pool.own]
  balance := rfl
  adding := .inl rfl
  room := nofun
  bounded := (by decide : (0 : Int) ≤ maxConnections)
  defined := rfl

/-- The accept loop knows nothing of the calls of others. -/
theorem own_accepting_of_ne {β : Type} {h : List (Worker κ × β)} (hk : k ≠ .accepting) (o : β) :
    Pool.own (h ++ [(k, o)]) .accepting = Pool.own h .accepting := Pool.own_append_ne hk o

theorem Tally.balance_nonneg (ht : Tally removing w h) : 0 ≤ w.currentConnections := by
  have hbalance := ht.balance
  rcases ht.adding with h0 | ⟨h1, c, _, hc⟩
  · omega
  · have hpos := SessionManager.count_removeSession hc
    omega

/-- A call that neither adds nor removes nor counts. The accept loop makes it with nothing owed. -/
theorem Tally.aside (ht : Tally removing w h) {o : Op} (ho : o.Uncounted) (hlive : o.Live w)
    (hk : k = .accepting → owed h k = 0) (ch : Choice) :
    Tally removing (World.handle o ch w).2 (h ++ [(k, ⟨o, (World.handle o ch w).1⟩)]) := by
  obtain ⟨hmap, hcounter⟩ := World.handle_uncounted ho ch w
  have hcount := SessionManager.count_congr hmap
  have howed : ∀ j, owed (h ++ [(k, ⟨o, (World.handle o ch w).1⟩)]) j = owed h j := by
    intro j
    rw [owed_concat, due_uncounted ho]
    split
    · rename_i hj
      rw [hj]
    · rfl
  refine ⟨fun j => ?_, ?_, ?_, fun n hn => ?_, hcount ▸ ht.bounded, ?_⟩
  · rw [howed]
    exact ht.removing_iff j
  · rw [hcounter, hcount, howed]
    exact ht.balance
  · rw [howed]
    by_cases hacc : k = .accepting
    · exact .inl (hacc ▸ hk hacc)
    · -- another thread leaves the accept loop in the middle of its two calls
      refine ht.adding.imp id fun ⟨h1, c, hadding, hc⟩ => ⟨h1, c, ?_, ?_⟩
      · unfold Adding
        rw [Pool.opsOf_append, own_accepting_of_ne hacc]
        exact hadding
      · unfold SessionManager.getSession
        rw [hmap]
        exact hc
  · rw [hcount]
    by_cases hacc : k = .accepting
    · -- the answer is the counter, and nothing is owed that would make it too small
      subst hacc
      rw [Pool.own_append_self, List.getLast?_concat] at hn
      cases Option.some.inj hn
      have hbalance := ht.balance
      have h0 := hk rfl
      show (w.sessions.count : Int) ≤ w.currentConnections
      omega
    · rw [own_accepting_of_ne hacc] at hn
      exact ht.room n hn
  · exact (World.undefined_handle hlive ch).trans ht.defined

/-- The accept loop adds a session for a descriptor that has none, after it has read a counter below the
limit; the count is still to come. -/
theorem Tally.add (ht : Tally removing w h) {c : Socket}
    (hok : AcceptCounts (Pool.own h .accepting) (.addSession c))
    (hnew : w.sessions.getSession c = none) (ch : Choice) (r : Op.Res (.addSession c)) :
    Tally removing (World.handle (.addSession c) ch w).2 (h ++ [(.accepting, ⟨.addSession c, r⟩)]) := by
  obtain ⟨hsettled, n, hread, hlimit⟩ := hok
  rw [Pool.opsOf_own] at hsettled
  have hcount : (w.sessions.addSession ⟨c, [], ch.now, true⟩).count = w.sessions.count + 1 :=
    SessionManager.count_addSession hnew
  have howes : owed h .accepting = 0 := hsettled
  refine ⟨fun j => ?_, ?_, .inr ⟨?_, c, ?_, ?_⟩, fun m hm => ?_, ?_, ht.defined⟩
  · rw [owed_concat]
    split
    · rename_i hj
      rw [ht.removing_iff, hj, howes]
      exact ⟨fun h => absurd h (by decide), fun h => absurd h (by decide : ¬ (1 : Int) = -1)⟩
    · exact ht.removing_iff j
  · have hbalance := ht.balance
    rw [owed_concat, if_pos rfl]
    show w.currentConnections = ((w.sessions.addSession _).count : Int) - 1 + removing.card
    omega
  · rw [owed_concat, if_pos rfl]
    rfl
  · unfold Adding
    rw [Pool.opsOf_append, Pool.own_append_self, List.getLast?_concat]
  · show (w.sessions.addSession ⟨c, [], ch.now, true⟩).getSession c ≠ none
    rw [SessionManager.getSession_addSession, if_pos rfl]
    exact Option.some_ne_none _
  · rw [Pool.own_append_self, List.getLast?_concat] at hm
    cases Option.some.inj hm
  · -- nobody else adds, so there is still room as when the counter was read
    have hroom := ht.room n hread
    show ((w.sessions.addSession _).count : Int) ≤ maxConnections
    omega

/-- A thread removes a session that is there and has been counted; the count is still to come. -/
theorem Tally.remove (ht : Tally removing w h) (hk : k ≠ .accepting) {c : Socket}
    (hsettled : owed h k = 0) (hthere : w.sessions.getSession c ≠ none) (hcounted : ¬ Adding h c)
    (ch : Choice) (r : Op.Res (.removeSession c)) :
    Tally (insert k removing) (World.handle (.removeSession c) ch w).2
      (h ++ [(k, ⟨.removeSession c, r⟩)]) := by
  have hcount := SessionManager.count_removeSession hthere
  -- the thread owes nothing yet, so it is none of those that have still to count down
  have hnew : k ∉ removing := fun hmem => by
    have := (ht.removing_iff k).mp hmem
    omega
  refine ⟨fun j => ?_, ?_, ?_, fun n hn => ?_, ?_, ht.defined⟩
  · rw [owed_concat, Finset.mem_insert]
    by_cases hj : j = k
    · rw [if_pos hj]
      exact ⟨fun _ => rfl, fun _ => .inl hj⟩
    · rw [if_neg hj, ← ht.removing_iff]
      exact or_iff_right hj
  · have hbalance := ht.balance
    rw [owed_concat, if_neg hk.symm, Finset.card_insert_of_notMem hnew]
    show w.currentConnections = ((w.sessions.removeSession c).count : Int) - _ + _
    omega
  · rw [owed_concat, if_neg hk.symm]
    refine ht.adding.imp id fun ⟨h1, d, hadding, hd⟩ => ⟨h1, d, ?_, ?_⟩
    · unfold Adding
      rw [Pool.opsOf_append, own_accepting_of_ne hk]
      exact hadding
    · show (w.sessions.removeSession c).getSession d ≠ none
      rw [SessionManager.getSession_removeSession, if_neg fun hdc : d = c => hcounted (hdc ▸ hadding)]
      exact hd
  · rw [own_accepting_of_ne hk] at hn
    have hroom := ht.room n hn
    show ((w.sessions.removeSession c).count : Int) ≤ n
    omega
  · have hbounded := ht.bounded
    show ((w.sessions.removeSession c).count : Int) ≤ maxConnections
    omega

/-- The accept loop counts the session it has added. -/
theorem Tally.count (ht : Tally removing w h) (howes : owed h .accepting = 1) (ch : Choice)
    (r : Op.Res (.addConnections 1)) :
    Tally removing (World.handle (.addConnections 1) ch w).2
      (h ++ [(.accepting, ⟨.addConnections 1, r⟩)]) := by
  refine ⟨fun j => ?_, ?_, .inl ?_, fun n hn => ?_, ht.bounded, ht.defined⟩
  · rw [owed_concat]
    split
    · rename_i hj
      rw [ht.removing_iff, hj, howes]
      exact ⟨fun h => absurd h (by decide), fun h => absurd h (by decide : ¬ (0 : Int) = -1)⟩
    · exact ht.removing_iff j
  · have hbalance := ht.balance
    rw [owed_concat, if_pos rfl]
    show w.currentConnections + 1 = (w.sessions.count : Int) - 0 + removing.card
    omega
  · rw [owed_concat, if_pos rfl]
    rfl
  · rw [Pool.own_append_self, List.getLast?_concat] at hn
    cases Option.some.inj hn

/-- A thread that has removed a session takes it off the count. -/
theorem Tally.discount (ht : Tally removing w h) (hk : k ≠ .accepting) (howes : owed h k = -1)
    (ch : Choice) (r : Op.Res (.addConnections (-1))) :
    Tally (removing.erase k) (World.handle (.addConnections (-1)) ch w).2
      (h ++ [(k, ⟨.addConnections (-1), r⟩)]) := by
  have hmem := (ht.removing_iff k).mpr howes
  refine ⟨fun j => ?_, ?_, ?_, fun n hn => ?_, ht.bounded, ht.defined⟩
  · rw [owed_concat, Finset.mem_erase]
    by_cases hj : j = k
    · rw [if_pos hj]
      exact ⟨fun h => absurd hj h.1, fun h => absurd h (by decide : ¬ (0 : Int) = -1)⟩
    · rw [if_neg hj, ← ht.removing_iff]
      exact and_iff_right hj
  · have hbalance := ht.balance
    have hcard := Finset.card_erase_add_one hmem
    rw [owed_concat, if_neg hk.symm]
    show w.currentConnections + -1 = (w.sessions.count : Int) - _ + _
    omega
  · rw [owed_concat, if_neg hk.symm]
    refine ht.adding.imp id fun ⟨h1, d, hadding, hd⟩ => ⟨h1, d, ?_, hd⟩
    unfold Adding
    rw [Pool.opsOf_append, own_accepting_of_ne hk]
    exact hadding
  · rw [own_accepting_of_ne hk] at hn
    exact ht.room n hn

/-- The call that adds a session for `c`. -/
def adds (c : Socket) : Op → Bool
  | .addSession d => d = c
  | _ => false

/-- A session that is used is there, one that is added is new, and one that is removed is there and
has been counted. -/
def Accounted (w : World P) (h : List (Worker κ × Op)) : Op → Prop
  | .addSession c => w.sessions.getSession c = none
  | .removeSession c => w.sessions.getSession c ≠ none ∧
      ∀ o ∈ (Pool.own h .accepting).getLast?, adds c o = false
  | o => o.Live w

instance (w : World P) (h : List (Worker κ × Op)) (o : Op) : Decidable (Accounted w h o) := by
  apply Op.casesOn (motive := fun o => Decidable (Accounted w h o)) o <;> intros <;>
    unfold Accounted <;> try unfold Op.Live
  all_goals infer_instance

/-- What each thread calls. -/
def workerCalls : Worker κ → List (Call Op Op.Res) → Op → Prop
  | .accepting, own, o => AcceptCounts own o
  | _, own, o => ExitCounts (Prog.opsOf own) o

theorem Tally.accepting (ht : Tally removing w h) {o : Op}
    (hok : AcceptCounts (Pool.own h .accepting) o) (hcond : Accounted w (Pool.opsOf h) o)
    (ch : Choice) : Tally removing (World.handle o ch w).2
      (h ++ [(.accepting, ⟨o, (World.handle o ch w).1⟩)]) := by
  have haside : o.Uncounted → o.Live w → owes (Prog.opsOf (Pool.own h .accepting)) = 0 →
      Tally removing (World.handle o ch w).2 (h ++ [(.accepting, ⟨o, (World.handle o ch w).1⟩)]) := by
    intro ho hlive h0
    rw [Pool.opsOf_own] at h0
    exact ht.aside ho hlive (fun _ => h0) ch
  cases o with
  | addSession c => exact ht.add hok hcond ch _
  | removeSession c => exact absurd hok id
  | addConnections n =>
    obtain ⟨rfl, howes⟩ := hok
    rw [Pool.opsOf_own] at howes
    exact ht.count howes ch _
  | _ => exact haside trivial hcond hok

theorem Tally.exiting (ht : Tally removing w h) (hk : k ≠ .accepting) {o : Op}
    (hok : ExitCounts (Pool.own (Pool.opsOf h) k) o) (hcond : Accounted w (Pool.opsOf h) o)
    (ch : Choice) : ∃ removing', Tally removing' (World.handle o ch w).2
      (h ++ [(k, ⟨o, (World.handle o ch w).1⟩)]) := by
  have haside : o.Uncounted → o.Live w → ∃ removing', Tally removing' (World.handle o ch w).2
      (h ++ [(k, ⟨o, (World.handle o ch w).1⟩)]) :=
    fun ho hlive => ⟨removing, ht.aside ho hlive (fun hacc => absurd hacc hk) ch⟩
  cases o with
  | addSession c => exact absurd hok id
  | removeSession c =>
    refine ⟨_, ht.remove hk hok hcond.1 (fun hadding => ?_) ch _⟩
    have := hcond.2 _ hadding
    simp [adds] at this
  | addConnections n =>
    obtain ⟨rfl, howes⟩ := hok
    exact ⟨_, ht.discount hk howes ch _⟩
  | _ => exact haside trivial hcond

end Balance

/-! ## Every interleaving -/

section Runs

variable {κ : Type} [DecidableEq κ]

/-- No thread is between what it does to the session map and what it does to the counter. -/
def Settled (t : Pool (Worker κ) Op Op.Res Unit (World P)) : Prop :=
  ∀ k, owes (Pool.own t.history k) = 0

/-- The counter is the number of sessions when all threads are settled; it is never negative, and
there are never more sessions than the limit. -/
structure CountsSessions (t : Pool (Worker κ) Op Op.Res Unit (World P)) : Prop where
  exact : Settled t → t.shared.currentConnections = t.shared.sessions.count
  nonneg : 0 ≤ t.shared.currentConnections
  bounded : (t.shared.sessions.count : Int) ≤ maxConnections
  defined : t.shared.undefined = false

theorem Tally.countsSessions {t : Pool (Worker κ) Op Op.Res Unit (World P)}
    {removing : Finset (Worker κ)} (ht : Tally removing t.shared t.calls) : CountsSessions t where
  exact hsettled := by
    have hnone : removing = ∅ := by
      refine Finset.eq_empty_of_forall_notMem fun k hk => ?_
      have h1 := (ht.removing_iff k).mp hk
      have h0 : owed t.calls k = 0 := hsettled k
      omega
    have hbalance := ht.balance
    have h0 : owed t.calls .accepting = 0 := hsettled .accepting
    rw [hnone, Finset.card_empty] at hbalance
    omega
  nonneg := ht.balance_nonneg
  bounded := ht.bounded
  defined := ht.defined

/-- **The counter is exact** in every state of every run of the whole server in which a session that is
used is there, one that is added is new, and one that is removed is there and has been counted. Whenever
no thread is between its two calls, the counter is the number of sessions in the map; it is never
negative, and there are never more sessions than the limit. -/
theorem countsSessions_run (db : Database P) (work : Work κ) (es : List (Worker κ × Choice))
    (hes : Meets (Pool.step World.handle)
      (Pool.Allows (fun _ => True) fun w h _ o => Accounted w h o)
      (Pool.start (workers P work) (World.start db)) es) :
    CountsSessions (runAll (Pool.step World.handle)
      (Pool.start (workers P work) (World.start db)) es) := by
  have hthreads : ∀ k, (workers P work k).Among World.handle (fun _ => True)
      (fun _ : World P => True) (workerCalls k) (fun _ _ => True) [] := by
    intro k
    cases k with
    | accepting => exact (acceptConnections_among work.accepted rfl).mono fun _ _ _ => trivial
    | handling k =>
      exact (handleClient_among (work.clientSocket k) (work.received k) rfl [] rfl).mono
        fun _ _ _ => trivial
    | checking =>
      exact (heartbeatCheckThread_among work.rounds rfl [] rfl).mono fun _ _ _ => trivial
  have hend := Pool.follows_runAll (J := fun w h => ∃ removing, Tally removing w h) hthreads
    ⟨∅, .start db⟩ hes (fun _ _ _ => trivial) fun w h k o ch hw hok _ hcond => ?_
  · obtain ⟨removing, ht⟩ := hend.inv
    exact ht.countsSessions
  · obtain ⟨removing, ht⟩ := hw
    cases k with
    | accepting => exact ⟨removing, ht.accepting hok hcond ch⟩
    | handling k =>
      exact ht.exiting (k := .handling k) nofun (by rw [← Pool.opsOf_own]; exact hok) hcond ch
    | checking =>
      exact ht.exiting (k := .checking) nofun (by rw [← Pool.opsOf_own]; exact hok) hcond ch

/-- `accept` returns a descriptor that is not in use, and the task for a connection is submitted once
its session has been added and counted. -/
def Scheduled (work : Work κ) (w : World P) (h : List (Worker κ × Op)) : Worker κ → Op → Prop
  | .accepting, .accept c => c ∉ w.openSockets
  | .handling k, _ => ∃ o ∈ (Pool.own h .accepting).dropLast, adds (work.clientSocket k) o = true
  | _, _ => True

instance (work : Work κ) (w : World P) (h : List (Worker κ × Op)) (k : Worker κ) (o : Op) :
    Decidable (Scheduled work w h k o) := by
  apply Worker.casesOn (motive := fun k => Decidable (Scheduled work w h k o)) k <;> intros <;>
    apply Op.casesOn (motive := fun o => Decidable (Scheduled work w h _ o)) o <;> intros <;>
    unfold Scheduled <;> infer_instance

end Runs

/-! ## Alice falls asleep -/

/-- Alice logs in on the only connection and sends nothing else. -/
def aliceWork : Work Unit where
  accepted := [1]
  clientSocket _ := 1
  received _ := [flatBody [("type", "LOGIN"), ("username", "alice"), ("password", "secret")]]
  rounds := 1

def aliceSleeps (es : List (Worker Unit × Choice)) :
    Pool (Worker Unit) Op Op.Res Unit (World asciiCi) :=
  runAll (Pool.step World.handle) (Pool.start (workers asciiCi aliceWork) (World.start aliceHere.db)) es

/-- The heartbeat check begins a round, long after the login. -/
def muchLater : List (Worker Unit × Choice) :=
  [(.checking, default), (.checking, { (default : Choice) with now := 1000 })]

/-- The heartbeat check drops her, and her connection ends after that. -/
theorem countsSessions_dropped : CountsSessions (aliceSleeps
    (turns [(.accepting, 4), (.handling (), 21)] ++ muchLater ++
      turns [(.checking, 14), (.handling (), 2)])) :=
  countsSessions_run aliceHere.db aliceWork _ (by decide)

/-- Her connection ends while the heartbeat check drops her: both have found her session. -/
theorem not_countsSessions : ¬ ∀ (db : Database asciiCi) (work : Work Unit)
    (es : List (Worker Unit × Choice)),
    Meets (Pool.step World.handle) (Pool.Allows Answers (Scheduled work))
      (Pool.start (workers asciiCi work) (World.start db)) es →
    Settled (runAll (Pool.step World.handle) (Pool.start (workers asciiCi work) (World.start db)) es) →
    (runAll (Pool.step World.handle)
        (Pool.start (workers asciiCi work) (World.start db)) es).shared.currentConnections =
      (runAll (Pool.step World.handle)
        (Pool.start (workers asciiCi work) (World.start db)) es).shared.sessions.count := by
  intro h
  have hcounter := h aliceHere.db aliceWork (turns [(.accepting, 4), (.handling (), 30)] ++
    muchLater ++ turns [(.checking, 14), (.handling (), 3)]) (by decide) (by
      intro k
      cases k with
      | accepting => decide
      | handling u =>
        cases u
        decide
      | checking => decide)
  exact absurd hcounter (by decide)

end LiteChat
