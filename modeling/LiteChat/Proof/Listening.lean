import LiteChat.Proof.Stopping

/-!
# The descriptor that the server listens on

`Stop` closes it and forgets it, so that the destructor, which stops the server again, finds nothing to
close. `Start`, when it fails, closes it and does not forget it. So over the whole life of a server it is
closed once if the server came up, and twice if it did not (`closings_main`). Nothing else closes it, as no
connection is accepted on it.
-/

namespace LiteChat

open LiteChat.Action Effect Server

variable {P : Platform} {α : Type} {E : Env} {w w' : World P} {s : Socket}

/-- How often the descriptor was closed. -/
def closings (s : Socket) (trace : List Obs) : Nat :=
  trace.countP fun
    | .close c => c = s
    | _ => false

theorem Spares.closings (h : Spares s w w') : closings s w'.trace = closings s w.trace := by
  obtain ⟨said, hsaid, hspared⟩ := h
  have hnone : LiteChat.closings s said = 0 := by
    refine List.countP_eq_zero.mpr fun o ho => ?_
    cases o with
    | close c =>
      intro hc
      rw [of_decide_eq_true hc] at ho
      exact hspared ho
    | sent | shutdown => simp
  rw [hsaid]
  unfold LiteChat.closings at hnone ⊢
  rw [List.countP_append, hnone, Nat.add_zero]

/-- Closing it counts. -/
theorem closings_close (h : w'.trace = w.trace ++ [.close s]) :
    closings s w'.trace = closings s w.trace + 1 := by
  rw [h]
  unfold closings
  simp

/-! ## Events -/

/-- The operations that neither close the descriptor nor take it for a connection. -/
def Op.Foreign (s : Socket) (o : Op) : Prop := o ≠ .close s ∧ o ≠ .accept s

theorem Op.Reads.foreign {o : Op} (ho : o.Reads) : o.Foreign s := by
  constructor <;> rintro rfl <;> exact ho

theorem Op.Requests.foreign {o : Op} (ho : o.Requests) : o.Foreign s := by
  constructor <;> rintro rfl <;> exact ho

theorem Op.Exits.foreign {c : Socket} {o : Op} (ho : o.Exits c) (hc : c ≠ s) : o.Foreign s := by
  constructor
  · rintro rfl
    cases ho with
    | reads ho => exact ho
    | close => exact hc rfl
  · rintro rfl
    cases ho with
    | reads ho => exact ho

theorem farewell_foreign (p : SessionPtr) : (farewell p).Uses (Op.Foreign s) :=
  (farewell_exits (s + 1) p).mono fun _ ho => ho.foreign (Nat.succ_ne_self s)

theorem heartbeatCheckEach_foreign (t : Nat) (sessions : List (Socket × SessionPtr)) :
    (heartbeatCheckEach t sessions).Uses (Op.Foreign s) := by
  induction sessions with
  | nil => trivial
  | cons e sessions ih =>
    obtain ⟨c, p⟩ := e
    have other : ∀ o : Op, (∀ d, o ≠ .close d) → (∀ d, o ≠ .accept d) → o.Foreign s :=
      fun o hclose haccept => ⟨hclose s, haccept s⟩
    have hexpire : (expire c p).Uses (Op.Foreign s) := by
      refine .bind (farewell_foreign p) fun _ => .bind (uses_op (other _ (by simp) (by simp))) fun _ => ?_
      refine .bind (uses_op (other _ (by simp) (by simp))) fun _ => ?_
      exact uses_op (other _ (by simp) (by simp))
    refine .bind (uses_op (other _ (by simp) (by simp))) fun _ => uses_ite ?_ ih
    refine .bind (uses_op (other _ (by simp) (by simp))) fun _ => uses_ite ?_ ih
    refine .bind (uses_op (other _ (by simp) (by simp))) fun _ => uses_ite ?_ ih
    exact .bind hexpire fun _ => ih

theorem acceptConnection_foreign {c : Socket} (hc : c ≠ s) :
    (acceptConnection c).Uses (Op.Foreign s) := by
  have hclose : Op.Foreign s (.close c) := ⟨by simpa using hc, by simp⟩
  have haccept : Op.Foreign s (.accept c) := ⟨by simp, by simpa using hc⟩
  refine .bind (uses_op haccept) fun _ => .bind (uses_op ⟨by simp, by simp⟩) fun n => uses_ite ?_ ?_
  · exact .bind (uses_op ⟨by simp, by simp⟩) fun _ => uses_op hclose
  · exact .bind (uses_op ⟨by simp, by simp⟩) fun _ => uses_op ⟨by simp, by simp⟩

/-- The descriptor is left alone. -/
def LeftAlone (s : Socket) (w w' : World P) : Prop :=
  Spares s w w' ∧ (s ∉ w.openSockets → s ∉ w'.openSockets)

theorem LeftAlone.refl (s : Socket) (w : World P) : LeftAlone s w w := ⟨.of_trace rfl, id⟩

theorem leftAlone_handle {o : Op} (ho : o.Foreign s) (ch : Choice) (w : World P) :
    LeftAlone s w (World.handle o ch w).2 := by
  constructor
  · refine ⟨w.records ch o, World.trace_records o ch w, ?_⟩
    cases o with
    | close c =>
      intro hmem
      cases List.mem_singleton.mp hmem
      exact ho.1 rfl
    | sendData | shutdown =>
      intro hmem
      cases List.mem_singleton.mp hmem
    | _ => exact List.not_mem_nil
  · by_cases haccept : ∃ c, o = .accept c
    · obtain ⟨c, rfl⟩ := haccept
      intro hs hmem
      rcases List.mem_cons.mp hmem with rfl | hmem
      · exact ho.2 rfl
      · exact hs hmem
    · exact fun hs hmem => hs (openSockets_handle (fun c hc => haccept ⟨c, hc⟩) ch w hmem)

theorem wp_foreign {p : Action α} (hp : p.Uses (Op.Foreign s)) :
    wp E p (fun _ w' => LeftAlone s w w') w :=
  Prog.wp_frame hp (LeftAlone s) (LeftAlone.refl s) (fun _ _ _ h h' => ⟨h.1.trans h'.1, h'.2 ∘ h.2⟩)
    fun _ ch w ho _ => leftAlone_handle ho ch w

/-- An event leaves it alone, if it is no connection and is not taken for one. -/
theorem leftAlone_next (hs : s ∉ w.openSockets) {e : Event × List Choice} (he : e.1 ≠ .accept s) :
    LeftAlone s w (next w e) := by
  have hwp : e.1.Enabled P w → wp .any (e.1.action P) (fun _ w' => LeftAlone s w w') w := by
    intro henabled
    refine wp_foreign ?_
    obtain ⟨e, cs⟩ := e
    cases e with
    | accept c =>
      have hc : c ≠ s := fun hc => he (hc ▸ rfl)
      exact .bind (acceptConnection_foreign hc) fun _ => trivial
    | request c parsed =>
      have hc : c ≠ s := fun hc => hs (hc ▸ henabled)
      refine .bind ((dispatchRequest_requests c parsed).mono fun _ ho => ho.foreign) fun served => ?_
      cases served with
      | ok served => trivial
      | error e => exact .bind ((failConnection_exits c).mono fun _ ho => ho.foreign hc) fun _ => trivial
    | hangup c =>
      have hc : c ≠ s := fun hc => hs (hc ▸ henabled)
      exact .bind ((endConnection_exits c).mono fun _ ho => ho.foreign hc) fun _ => trivial
    | heartbeatScan =>
      refine .bind (.bind (uses_op ⟨by simp, by simp⟩) fun t => ?_) fun _ => trivial
      exact .bind (uses_op ⟨by simp, by simp⟩) fun _ => heartbeatCheckEach_foreign _ _
  unfold Server.next step
  split
  · rename_i henabled
    exact run_of_wp (hwp henabled) e.2 fun ch _ => Env.ok_any ch
  · exact .refl s w

theorem leftAlone_runAll {es : List (Event × List Choice)} (hs : s ∉ w.openSockets)
    (hes : ∀ e ∈ es, e.1 ≠ .accept s) : LeftAlone s w (runAll next w es) := by
  induction es generalizing w with
  | nil => exact .refl s w
  | cons e es ih =>
    have hfirst := leftAlone_next hs (hes e List.mem_cons_self)
    have hrest := ih (hfirst.2 hs) fun e' he' => hes e' (List.mem_cons_of_mem e he')
    exact ⟨hfirst.1.trans hrest.1, hrest.2 ∘ hfirst.2⟩

/-! ## From `Start` to the destructor -/

/-- What `Stop` closes, and forgets. -/
theorem wp_stop_closings (serverSocket : Option Socket) :
    wp E (stop serverSocket) (fun left w' => left = none ∧
      closings s w'.trace = closings s w.trace + (if serverSocket = some s then 1 else 0) ∧
      (s ∉ w.openSockets → s ∉ w'.openSockets)) w := by
  apply wp_stop
  · intro stopped w₁ _ h₁ hnone
    rw [hnone]
    exact ⟨rfl, (h₁.spares s).closings, fun hs => h₁.openSockets ▸ hs⟩
  · intro stopped w₁ c _ h₁ hsome
    have hshut : closings s (w₁.observe (.shutdown c)).trace = closings s w.trace := by
      have hsaid : Spares s w₁ (w₁.observe (.shutdown c)) := .said rfl (by simp)
      rw [hsaid.closings, (h₁.spares s).closings]
    rw [hsome]
    refine wp_close.mpr ⟨rfl, ?_, fun hs hmem => hs ?_⟩
    · show closings s ((w₁.observe (.shutdown c)).observe (.close c)).trace = _
      by_cases hc : c = s
      · subst hc
        rw [closings_close rfl, hshut, if_pos rfl]
      · have hclosed : Spares s (w₁.observe (.shutdown c)) ((w₁.observe (.shutdown c)).observe (.close c)) :=
          .close rfl fun h => hc h.symm
        rw [hclosed.closings, hshut, if_neg fun h => hc (Option.some.inj h)]
        rfl
    · rw [← h₁.openSockets]
      exact List.mem_of_mem_filter hmem

theorem wp_destroy_closings (serverSocket : Option Socket) :
    wp E (destroy serverSocket) (fun _ w' =>
      closings s w'.trace = closings s w.trace + (if serverSocket = some s then 1 else 0) ∧
      (s ∉ w.openSockets → s ∉ w'.openSockets)) w :=
  (wp_bind _ _).mpr (wp_mono (wp_stop_closings serverSocket) fun _ _ h => h.2)

/-- The server comes up: the descriptor is open, and kept. -/
theorem run_start_up {sys : Startup} (hs : sys.socket = some s)
    (hup : sys.setsockopt ∧ sys.bind ∧ sys.listen) : (start true sys).run [] w = ((true, some s), w) := by
  obtain ⟨hsetsockopt, hbind, hlisten⟩ := hup
  unfold start
  rw [hs, hsetsockopt, hbind, hlisten]
  rfl

/-- It does not: the descriptor is closed, and kept all the same. -/
theorem run_start_down {sys : Startup} (hs : sys.socket = some s)
    (hdown : ¬ (sys.setsockopt ∧ sys.bind ∧ sys.listen)) : (start true sys).run [] w =
      ((false, some s), { w.observe (.close s) with openSockets := w.openSockets.filter (· ≠ s) }) := by
  unfold start
  rw [hs]
  cases hsetsockopt : sys.setsockopt with
  | false => rfl
  | true =>
    cases hbind : sys.bind with
    | false => rfl
    | true =>
      cases hlisten : sys.listen with
      | false => rfl
      | true => exact absurd ⟨hsetsockopt, hbind, hlisten⟩ hdown

/-- **The descriptor that the server listens on is closed once if the server comes up**, whatever happens
until it is stopped and until it is gone, **and twice if it does not**: by `Start`, which leaves it in
`serverSocket`, and by the destructor. -/
theorem closings_main (db : Database P) (sys : Startup) (hs : sys.socket = some s)
    (es es' es'' : List (Event × List Choice)) (hes : ∀ e ∈ es ++ es' ++ es'', e.1 ≠ .accept s)
    (atSignal atExit : List Choice) :
    closings s (Server.main sys es atSignal es' atExit es'' (World.start db)).trace =
      if sys.setsockopt ∧ sys.bind ∧ sys.listen then 1 else 2 := by
  simp only [List.mem_append, or_imp, forall_and] at hes
  obtain ⟨⟨hes, hes'⟩, hes''⟩ := hes
  unfold Server.main
  by_cases hup : sys.setsockopt ∧ sys.bind ∧ sys.listen
  · rw [run_start_up hs hup, if_pos hup]
    dsimp only
    rw [if_pos rfl]
    -- the three stretches of events leave the descriptor alone, since nobody is accepted on it
    have hserved : LeftAlone s (World.start db) (runAll next (World.start db) es) :=
      leftAlone_runAll List.not_mem_nil hes
    have hstopped := run_of_wp (wp_stop_closings (E := .any) (s := s) (some s)) atSignal
      (fun ch _ => Env.ok_any ch) (w := runAll next (World.start db) es)
    generalize (stop (some s)).run atSignal (runAll next (World.start db) es) = stopped at hstopped ⊢
    obtain ⟨hleft, honce, hopen⟩ := hstopped
    have hclosed := hopen (hserved.2 List.not_mem_nil)
    have hleaving : LeftAlone s stopped.2 (runAll next stopped.2 es') := leftAlone_runAll hclosed hes'
    have hgone := run_of_wp (wp_destroy_closings (E := .any) (s := s) stopped.1) atExit
      (fun ch _ => Env.ok_any ch) (w := runAll next stopped.2 es')
    generalize (destroy stopped.1).run atExit (runAll next stopped.2 es') = destroyed at hgone ⊢
    obtain ⟨hnever, hopen'⟩ := hgone
    have hjoined : LeftAlone s destroyed.2 (runAll next destroyed.2 es'') :=
      leftAlone_runAll (hopen' (hleaving.2 hclosed)) hes''
    rw [hjoined.1.closings, hnever, hleft, if_neg (by simp), hleaving.1.closings, honce, if_pos rfl,
      hserved.1.closings]
    rfl
  · rw [run_start_down hs hup, if_neg hup]
    dsimp only
    rw [if_neg Bool.false_ne_true]
    -- `Start` has closed it, and the destructor closes it again
    generalize hclosed : ({ (World.start db).observe (.close s) with
      openSockets := (World.start db).openSockets.filter (· ≠ s) } : World P) = w₁
    have honce : closings s w₁.trace = 1 := by
      rw [← hclosed]
      exact closings_close (w := World.start db) rfl
    have hgone := run_of_wp (wp_destroy_closings (E := .any) (s := s) (some s)) atExit
      (fun ch _ => Env.ok_any ch) (w := w₁)
    rw [hgone.1, honce, if_pos rfl]

/-- The port is taken. -/
theorem closings_taken : closings 3 (Server.main ⟨some 3, true, false, true⟩ [] [] [] [] []
    (World.start (Database.empty : Database asciiCi))).trace = 2 :=
  closings_main Database.empty ⟨some 3, true, false, true⟩ rfl [] [] [] (by simp) [] []

end LiteChat
