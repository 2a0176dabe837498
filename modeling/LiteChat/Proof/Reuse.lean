import LiteChat.Proof.NewerLogin

/-!
# A descriptor that comes back

A connection that fails is closed before its session is looked up, so `accept` may hand its number
to a new client while the old session is still in the map. `failConnection` then cleans up after
whoever has the number when it looks. It cleans up after itself, and only after itself, if the number
comes back no sooner than the old session is gone (`cleansUpItself_run`).
-/

namespace LiteChat

open LiteChat.Action Effect Server

variable {P : Platform} {w w₀ : World P}

/-- The two threads. -/
inductive Ending
  | failing
  | accepting
  deriving DecidableEq

def endings (clientSocket : Socket) (accepted : List Socket) : Ending → Action Unit
  | .failing => failConnection clientSocket
  | .accepting => acceptConnections accepted

/-- The session that has been removed, and whose user has been set offline, is the one that `c` had;
every other session stays, and so does every one that is accepted. -/
structure CleansUpItself (w₀ : World P) (c : Socket)
    (t : Pool Ending Op Op.Res Unit (World P)) : Prop where
  offline : ∀ u isOnline, (.failing, .sql (.updateOnlineByName u isOnline)) ∈ t.history →
    w₀.sessions.loginAt c = some u
  removed : (.failing, .removeSession c) ∈ t.history →
    ∃ p, w₀.sessions.getSession c = some p ∧ t.shared.sessions.heap.lookup p = none
  others : ∀ d p, d ≠ c → w₀.sessions.getSession d = some p →
    t.shared.sessions.getSession d = some p
  accepted : ∀ d, (.accepting, .addSession d) ∈ t.history → t.shared.sessions.getSession d ≠ none
  defined : t.shared.undefined = w₀.undefined

/-! ## The order of the calls -/

/-- The call by which the failing connection looks for its session. -/
def looksUp (c : Socket) : Ending × Op → Bool
  | (.failing, .getSession d) => d = c
  | _ => false

/-- A session that is added is new; and the number `c` gets a new one only when the failing
connection has looked for its own. -/
def NotReused (c : Socket) (w : World P) (h : List (Ending × Op)) : Op → Prop
  | .addSession d => w.sessions.getSession d = none ∧ (d = c → ∃ e ∈ h, looksUp c e = true)
  | _ => True

instance (c : Socket) (w : World P) (h : List (Ending × Op)) (o : Op) :
    Decidable (NotReused c w h o) := by
  apply Op.casesOn (motive := fun o => Decidable (NotReused c w h o)) o <;> intros <;>
    unfold NotReused <;> infer_instance

/-! ## What the failing connection calls -/

/-- It looks once, and asks and removes what it has found. -/
def FailCalls (c : Socket) (own : List (Call Op Op.Res)) : Op → Prop
  | .getSession d => d = c ∧ .getSession c ∉ Prog.opsOf own ∧ .removeSession c ∉ Prog.opsOf own
  | .getUsername p => (⟨.getSession c, some p⟩ : Call Op Op.Res) ∈ own ∧
      .removeSession c ∉ Prog.opsOf own
  | .sql (.updateOnlineByName u _) => ∃ p, (⟨.getUsername p, u⟩ : Call Op Op.Res) ∈ own
  | .removeSession d => d = c ∧ (∃ p, (⟨.getSession c, some p⟩ : Call Op Op.Res) ∈ own) ∧
      .removeSession c ∉ Prog.opsOf own
  | .close _ | .addConnections _ => True
  | _ => False

section Calls

variable {A : Choice → Prop} {I : World P → Prop} {H : Handler Op Op.Res Choice (World P)}

theorem failConnection_calls (c : Socket) : (failConnection c).Among H A I (FailCalls c)
    (fun _ _ => True) [] := by
  refine .call_any trivial fun _ => .call_any ⟨rfl, by simp, by simp⟩ fun session => ?_
  cases session with
  | none => trivial
  | some p =>
    refine .call_any ⟨by simp, by simp⟩ fun u => ?_
    have hrest : ∀ own : List (Call Op Op.Res), (⟨.getSession c, some p⟩ : Call Op Op.Res) ∈ own →
        .removeSession c ∉ Prog.opsOf own → Prog.Among H A I (FailCalls c) (do
          removeSession c
          addConnections (-1)) (fun _ _ => True) own := fun own hp hnot =>
      .call_any ⟨rfl, ⟨p, hp⟩, hnot⟩ fun _ => ⟨trivial, fun _ _ _ _ => trivial⟩
    split
    · refine .call_any ⟨by simp, by simp⟩ fun u => .call_any ⟨p, by simp⟩ fun r => ?_
      cases r <;> exact hrest _ (by simp) (by simp)
    · exact hrest _ (by simp) (by simp)

end Calls

/-! ## The invariant -/

/-- What holds between any two calls. As long as the session has not been removed it is the one that
`c` had at first; if there was none, nothing is known once the failing connection has looked. -/
structure Failing (w₀ : World P) (c : Socket) (w : World P)
    (h : List (Ending × Call Op Op.Res)) : Prop where
  looked : ∀ session : Option SessionPtr, (.failing, ⟨.getSession c, session⟩) ∈ h →
    session = w₀.sessions.getSession c
  named : ∀ p u, (.failing, ⟨.getUsername p, u⟩) ∈ h → w₀.sessions.loginAt c = some u
  there : (.failing, .removeSession c) ∉ Pool.opsOf h →
    (.failing, .getSession c) ∉ Pool.opsOf h ∨ w₀.sessions.getSession c ≠ none →
    w.sessions.getSession c = w₀.sessions.getSession c
  object : ∀ p, w₀.sessions.getSession c = some p → (.failing, .removeSession c) ∉ Pool.opsOf h →
    w.sessions.heap.lookup p = w₀.sessions.heap.lookup p
  again : (.accepting, .addSession c) ∈ Pool.opsOf h → w₀.sessions.getSession c ≠ none →
    (.failing, .removeSession c) ∈ Pool.opsOf h
  older : w₀.sessions.nextPtr ≤ w.sessions.nextPtr
  offline : ∀ u isOnline, (.failing, .sql (.updateOnlineByName u isOnline)) ∈ Pool.opsOf h →
    w₀.sessions.loginAt c = some u
  removed : (.failing, .removeSession c) ∈ Pool.opsOf h →
    ∃ p, w₀.sessions.getSession c = some p ∧ w.sessions.heap.lookup p = none
  others : ∀ d p, d ≠ c → w₀.sessions.getSession d = some p → w.sessions.getSession d = some p
  accepted : ∀ d, (.accepting, .addSession d) ∈ Pool.opsOf h → w.sessions.getSession d ≠ none
  defined : w.undefined = w₀.undefined

section Failing

variable {c : Socket} {h : List (Ending × Call Op Op.Res)} {k : Ending} {o : Op}

theorem Failing.start : Failing w₀ c w₀ [] where
  looked := nofun
  named := nofun
  there _ _ := rfl
  object _ _ _ := rfl
  again := nofun
  older := Nat.le_refl _
  offline := nofun
  removed := nofun
  others _ _ _ hp := hp
  accepted := nofun
  defined := rfl

/-- A call that leaves the sessions alone. What was asked is put on record, and the answer is that of
the start as long as the session is there. -/
theorem Failing.aside (hf : Failing w₀ c w h) (ho : o.KeepsSessions) (hlive : o.Live w) {ch : Choice}
    (hlooked : ∀ session : Option SessionPtr, (k, (⟨o, (World.handle o ch w).1⟩ : Call Op Op.Res)) =
      (.failing, ⟨.getSession c, session⟩) → session = w₀.sessions.getSession c)
    (hnamed : ∀ p u, (k, (⟨o, (World.handle o ch w).1⟩ : Call Op Op.Res)) =
      (.failing, ⟨.getUsername p, u⟩) → w₀.sessions.loginAt c = some u)
    (hoffline : ∀ u isOnline, (k, o) = (.failing, .sql (.updateOnlineByName u isOnline)) →
      w₀.sessions.loginAt c = some u) :
    Failing w₀ c (World.handle o ch w).2 (h ++ [(k, ⟨o, (World.handle o ch w).1⟩)]) := by
  have hsessions := World.sessions_handle ho ch w
  have hremoved : ∀ j d, (j, .removeSession d) ∈ Pool.opsOf (h ++ [(k, ⟨o, (World.handle o ch w).1⟩)]) →
      (j, .removeSession d) ∈ Pool.opsOf h := by
    intro j d hmem
    rw [Pool.opsOf_append] at hmem
    refine Pool.mem_of_mem_concat hmem ?_
    rintro rfl
    exact ho
  have hadded : ∀ j d, (j, .addSession d) ∈ Pool.opsOf (h ++ [(k, ⟨o, (World.handle o ch w).1⟩)]) →
      (j, .addSession d) ∈ Pool.opsOf h := by
    intro j d hmem
    rw [Pool.opsOf_append] at hmem
    refine Pool.mem_of_mem_concat hmem ?_
    rintro rfl
    exact ho
  -- what is on record stays there
  have hkept : ∀ e, e ∈ Pool.opsOf h → e ∈ Pool.opsOf (h ++ [(k, ⟨o, (World.handle o ch w).1⟩)]) := by
    intro e he
    rw [Pool.opsOf_append]
    exact List.mem_append_left _ he
  refine ⟨fun session hmem => ?_, fun p u hmem => ?_, fun hnot hsome => ?_, fun p hp hnot => ?_,
    fun hmem hsome => ?_, ?_, fun u isOnline hmem => ?_, fun hmem => ?_, fun d p hd hp => ?_,
    fun d hmem => ?_, (World.undefined_handle hlive ch).trans hf.defined⟩
  · rcases List.mem_append.mp hmem with hmem | hmem
    · exact hf.looked session hmem
    · exact hlooked session (List.mem_singleton.mp hmem).symm
  · rcases List.mem_append.mp hmem with hmem | hmem
    · exact hf.named p u hmem
    · exact hnamed p u (List.mem_singleton.mp hmem).symm
  · rw [hsessions]
    exact hf.there (fun hmem => hnot (hkept _ hmem)) (hsome.imp_left fun hno hmem => hno (hkept _ hmem))
  · rw [hsessions]
    exact hf.object p hp fun hmem => hnot (hkept _ hmem)
  · exact hkept _ (hf.again (hadded _ _ hmem) hsome)
  · rw [hsessions]
    exact hf.older
  · rw [Pool.opsOf_append] at hmem
    rcases List.mem_append.mp hmem with hmem | hmem
    · exact hf.offline u isOnline hmem
    · exact hoffline u isOnline (List.mem_singleton.mp hmem).symm
  · rw [hsessions]
    exact hf.removed (hremoved _ _ hmem)
  · rw [hsessions]
    exact hf.others d p hd hp
  · rw [hsessions]
    exact hf.accepted d (hadded _ _ hmem)

/-- A new session, for a number that has none. -/
theorem Failing.add (hf : Failing w₀ c w h) {d : Socket} (hnew : w.sessions.getSession d = none)
    (hlooked : d = c → (.failing, .getSession c) ∈ Pool.opsOf h) (ch : Choice)
    (r : Op.Res (.addSession d)) :
    Failing w₀ c (World.handle (.addSession d) ch w).2 (h ++ [(.accepting, ⟨.addSession d, r⟩)]) := by
  have hget : ∀ e, (World.handle (.addSession d) ch w).2.sessions.getSession e =
      if e = d then some w.sessions.nextPtr else w.sessions.getSession e :=
    fun e => SessionManager.getSession_addSession _ _ e
  have hheap : ∀ p, w₀.sessions.getSession c = some p →
      (World.handle (.addSession d) ch w).2.sessions.heap.lookup p = w.sessions.heap.lookup p := by
    intro p hp
    obtain ⟨s, hs, _⟩ := w₀.sessions.session_of_ptr hp
    exact SessionManager.heap_addSession _ _
      (Nat.lt_of_lt_of_le (w₀.sessions.heap_lt p s hs) hf.older)
  -- its own session is still there if it has not been removed, so the number is another
  have hother : (.failing, .removeSession c) ∉ Pool.opsOf h → w₀.sessions.getSession c ≠ none → c ≠ d := by
    intro hnot hsome hcd
    rw [← hcd] at hnew
    exact hsome ((hf.there hnot (.inr hsome)).symm.trans hnew)
  have hmem_of : ∀ {j o}, (j, o) ∈ Pool.opsOf (h ++ [(.accepting, ⟨.addSession d, r⟩)]) →
      o ≠ .addSession d → (j, o) ∈ Pool.opsOf h := by
    intro j o hmem ho
    rw [Pool.opsOf_append] at hmem
    exact Pool.mem_of_mem_concat hmem ho
  have hkept : ∀ e, e ∈ Pool.opsOf h → e ∈ Pool.opsOf (h ++ [(.accepting, ⟨.addSession d, r⟩)]) := by
    intro e he
    rw [Pool.opsOf_append]
    exact List.mem_append_left _ he
  refine ⟨fun session hmem => ?_, fun p u hmem => ?_, fun hnot hsome => ?_, fun p hp hnot => ?_,
    fun hmem hsome => ?_, ?_, fun u isOnline hmem => ?_, fun hmem => ?_, fun e p he hp => ?_,
    fun e hmem => ?_, hf.defined⟩
  · rcases List.mem_append.mp hmem with hmem | hmem
    · exact hf.looked session hmem
    · cases List.mem_singleton.mp hmem
  · rcases List.mem_append.mp hmem with hmem | hmem
    · exact hf.named p u hmem
    · cases List.mem_singleton.mp hmem
  · have hnot' : (.failing, .removeSession c) ∉ Pool.opsOf h := fun hmem => hnot (hkept _ hmem)
    have hsome' := hsome.imp_left fun hno hmem => hno (hkept _ hmem)
    have hcd : c ≠ d := by
      rintro rfl
      rcases hsome' with hno | hsome
      · exact hno (hlooked rfl)
      · exact hother hnot' hsome rfl
    rw [hget, if_neg hcd]
    exact hf.there hnot' hsome'
  · rw [hheap p hp]
    exact hf.object p hp fun hmem => hnot (hkept _ hmem)
  · by_cases hgone : (.failing, .removeSession c) ∈ Pool.opsOf h
    · exact hkept _ hgone
    · refine hkept _ (hf.again (hmem_of hmem fun heq => ?_) hsome)
      exact hother hgone hsome (Op.addSession.inj heq)
  · exact Nat.le_succ_of_le hf.older
  · exact hf.offline u isOnline (hmem_of hmem nofun)
  · obtain ⟨p, hp, hgone⟩ := hf.removed (hmem_of hmem nofun)
    exact ⟨p, hp, (hheap p hp).trans hgone⟩
  · have hthere := hf.others e p he hp
    rw [hget, if_neg]
    · exact hthere
    · rintro rfl
      exact absurd (hthere.symm.trans hnew) nofun
  · rw [hget]
    by_cases hed : e = d
    · rw [if_pos hed]
      exact Option.some_ne_none _
    · rw [if_neg hed]
      exact hf.accepted e (hmem_of hmem fun heq => hed (Op.addSession.inj heq))

/-- The failing connection removes the session it has found, which is its own. -/
theorem Failing.remove (hf : Failing w₀ c w h) {p : SessionPtr}
    (hp : w₀.sessions.getSession c = some p) (hfirst : (.failing, .removeSession c) ∉ Pool.opsOf h)
    (ch : Choice) (r : Op.Res (.removeSession c)) :
    Failing w₀ c (World.handle (.removeSession c) ch w).2
      (h ++ [(.failing, ⟨.removeSession c, r⟩)]) := by
  have hsome : w₀.sessions.getSession c ≠ none := hp ▸ Option.some_ne_none p
  have hthere : w.sessions.getSession c = some p := (hf.there hfirst (.inr hsome)).trans hp
  have hget : ∀ e, (World.handle (.removeSession c) ch w).2.sessions.getSession e =
      if e = c then none else w.sessions.getSession e :=
    fun e => SessionManager.getSession_removeSession _ _ e
  have hgone : (.failing, .removeSession c) ∈
      Pool.opsOf (h ++ [(.failing, ⟨.removeSession c, r⟩)]) := by
    rw [Pool.opsOf_append]
    exact List.mem_append_right _ (List.mem_singleton_self _)
  have hmem_of : ∀ {j o}, (j, o) ∈ Pool.opsOf (h ++ [(.failing, ⟨.removeSession c, r⟩)]) →
      o ≠ .removeSession c → (j, o) ∈ Pool.opsOf h := by
    intro j o hmem ho
    rw [Pool.opsOf_append] at hmem
    exact Pool.mem_of_mem_concat hmem ho
  -- what was learned stays learned, and what was to be there before the removal need not be any more
  refine ⟨fun session hmem => ?_, fun q u hmem => ?_, fun hnot => absurd hgone hnot,
    fun q _ hnot => absurd hgone hnot, fun _ _ => hgone, ?_, fun u isOnline hmem => ?_, fun _ => ?_,
    fun e q he hq => ?_, fun e hmem => ?_, hf.defined⟩
  · rcases List.mem_append.mp hmem with hmem | hmem
    · exact hf.looked session hmem
    · cases List.mem_singleton.mp hmem
  · rcases List.mem_append.mp hmem with hmem | hmem
    · exact hf.named q u hmem
    · cases List.mem_singleton.mp hmem
  · show w₀.sessions.nextPtr ≤ (w.sessions.removeSession c).nextPtr
    rw [SessionManager.nextPtr_removeSession]
    exact hf.older
  · exact hf.offline u isOnline (hmem_of hmem nofun)
  · refine ⟨p, hp, ?_⟩
    show (w.sessions.removeSession c).heap.lookup p = none
    rw [SessionManager.heap_removeSession, if_pos hthere]
  · rw [hget, if_neg he]
    exact hf.others e q he hq
  · -- a descriptor that was accepted is not `c`, which is not used again before this call
    have hmem' := hmem_of hmem nofun
    rw [hget, if_neg]
    · exact hf.accepted e hmem'
    · rintro rfl
      exact hfirst (hf.again hmem' hsome)

/-- Every call of the failing connection. -/
theorem Failing.failing (hf : Failing w₀ c w h) (hok : FailCalls c (Pool.own h .failing) o)
    (ch : Choice) :
    Failing w₀ c (World.handle o ch w).2 (h ++ [(.failing, ⟨o, (World.handle o ch w).1⟩)]) := by
  have hown : ∀ o, o ∉ Prog.opsOf (Pool.own h .failing) → (Ending.failing, o) ∉ Pool.opsOf h := by
    intro o hnot hmem
    rw [Pool.opsOf_own] at hnot
    exact hnot (Pool.mem_own.mpr hmem)
  have hfound : ∀ p, (⟨.getSession c, some p⟩ : Call Op Op.Res) ∈ Pool.own h .failing →
      w₀.sessions.getSession c = some p := fun p hp => (hf.looked _ (Pool.mem_own.mp hp)).symm
  cases o with
  | close d => exact hf.aside (o := .close d) trivial trivial nofun nofun nofun
  | addConnections n => exact hf.aside (o := .addConnections n) trivial trivial nofun nofun nofun
  | getSession d =>
    obtain ⟨rfl, hfirst, hnot⟩ := hok
    refine hf.aside (o := .getSession d) trivial trivial (fun session heq => ?_) nofun nofun
    cases heq
    exact hf.there (hown _ hnot) (.inl (hown _ hfirst))
  | getUsername p =>
    obtain ⟨hp, hnot⟩ := hok
    have hsession := hfound p hp
    obtain ⟨s, hs, _, hlogin⟩ := SessionManager.heap_of_getSession hsession
    -- nothing has written to the object since the start
    have hlive : w.sessions.heap.lookup p = some s :=
      (hf.object p hsession (hown _ hnot)).trans hs
    have hread : (World.handle (.getUsername p) ch w).1 = s.username := by
      show (w.deref p (·.username) []).1 = s.username
      unfold World.deref
      rw [hlive]
    refine hf.aside (o := .getUsername p) trivial (Option.isSome_iff_exists.mpr ⟨s, hlive⟩) nofun
      (fun q u heq => ?_) nofun
    cases heq
    exact hlogin.trans (congrArg some hread.symm)
  | sql st =>
    cases st with
    | updateOnlineByName u isOnline =>
      obtain ⟨p, hp⟩ := hok
      refine hf.aside (o := .sql (.updateOnlineByName u isOnline)) trivial trivial nofun nofun ?_
      intro v isOnline' heq
      cases heq
      exact hf.named p u (Pool.mem_own.mp hp)
    | _ => exact absurd hok id
  | removeSession d =>
    obtain ⟨rfl, ⟨p, hp⟩, hfirst⟩ := hok
    exact hf.remove (hfound p hp) (hown _ hfirst) ch _
  | _ => exact absurd hok id

/-- Every call of the accept loop. -/
theorem Failing.accepting (hf : Failing w₀ c w h) (hok : o.Accepts)
    (hcond : NotReused c w (Pool.opsOf h) o) (ch : Choice) :
    Failing w₀ c (World.handle o ch w).2 (h ++ [(.accepting, ⟨o, (World.handle o ch w).1⟩)]) := by
  cases hok with
  | addSession d =>
    refine hf.add hcond.1 (fun hd => ?_) ch _
    obtain ⟨⟨k, o⟩, hmem, hlooks⟩ := hcond.2 hd
    unfold looksUp at hlooks
    split at hlooks
    · rename_i e heq
      cases heq
      exact (of_decide_eq_true hlooks) ▸ hmem
    · cases hlooks
  | accept d => exact hf.aside (o := .accept d) trivial trivial nofun nofun nofun
  | loadConnections => exact hf.aside (o := .loadConnections) trivial trivial nofun nofun nofun
  | sendData d => exact hf.aside (o := .sendData d busy) trivial trivial nofun nofun nofun
  | close d => exact hf.aside (o := .close d) trivial trivial nofun nofun nofun
  | addConnections => exact hf.aside (o := .addConnections 1) trivial trivial nofun nofun nofun

end Failing

/-! ## Every interleaving -/

/-- What either thread calls. -/
def endingCalls (c : Socket) : Ending → List (Call Op Op.Res) → Op → Prop
  | .failing, own, o => FailCalls c own o
  | .accepting, _, o => o.Accepts

/-- **A failing connection cleans up only itself** in every run in which its number gets a new session
only after the old one. One thread is the exception exit of the connection `c`, the other accepts
connections, and `c` may be among them, since the exit closes the descriptor first. In every such order
of their calls the user that is marked offline is the one of the session that `c` had, the session that
is removed is that one, and all others stay: those of the start, and those that were added meanwhile. -/
theorem cleansUpItself_run (c : Socket) (accepted : List Socket) (es : List (Ending × Choice))
    (hes : Meets (Pool.step World.handle)
      (Pool.Allows (fun _ => True) fun w h _ o => NotReused c w h o)
      (Pool.start (endings c accepted) w₀) es) :
    CleansUpItself w₀ c
      (runAll (Pool.step World.handle) (Pool.start (endings c accepted) w₀) es) := by
  have hthreads : ∀ k, (endings c accepted k).Among World.handle (fun _ => True)
      (fun _ : World P => True) (endingCalls c k) (fun _ _ => True) [] := by
    intro k
    cases k with
    | failing => exact failConnection_calls c
    | accepting =>
      exact (acceptConnections_accepts accepted).among (fun _ => True) trivial fun _ _ _ ho =>
        ⟨ho, fun _ => trivial⟩
  have hend := Pool.follows_runAll (J := Failing w₀ c) hthreads .start hes (fun _ _ _ => trivial)
    fun w h k o ch hf hok _ hcond => ?_
  · exact ⟨hend.inv.offline, hend.inv.removed, hend.inv.others, hend.inv.accepted, hend.inv.defined⟩
  · cases k with
    | failing => exact hf.failing hok ch
    | accepting => exact hf.accepting hok hcond ch

/-! ## Bob gets the number of Alice -/

def aliceFails (schedule : List (Ending × Nat)) : Pool Ending Op Op.Res Unit (World asciiCi) :=
  runAll (Pool.step World.handle) (Pool.start (endings 1 [1]) aliceOnFirst) (turns schedule)

/-- Bob is accepted on the number when the session of Alice is gone. -/
theorem cleansUpItself_after : CleansUpItself aliceOnFirst 1
    (aliceFails [(.failing, 2), (.accepting, 2), (.failing, 4), (.accepting, 2), (.failing, 1)]) :=
  cleansUpItself_run 1 [1] _ (by decide)

/-- Bob is accepted on the number of Alice before her session is looked up. -/
theorem not_cleansUpItself : ¬ ∀ (w₀ : World asciiCi) (c : Socket) (accepted : List Socket)
    (es : List (Ending × Choice)),
    w₀.sessions.getSession c ≠ none →
    Meets (Pool.step World.handle) (Pool.Allows Answers fun w _ _ o => Unused w o)
      (Pool.start (endings c accepted) w₀) es →
    CleansUpItself w₀ c
      (runAll (Pool.step World.handle) (Pool.start (endings c accepted) w₀) es) := by
  intro h
  have hbob := (h aliceOnFirst 1 [1] (turns [(.failing, 1), (.accepting, 4), (.failing, 4)])
    (by decide) (by decide)).accepted 1
  have hadded : (.accepting, .addSession 1) ∈
      (aliceFails [(.failing, 1), (.accepting, 4), (.failing, 4)]).history :=
    List.mem_of_getElem? (i := 3) rfl
  exact hbob hadded (by decide)

end LiteChat
