import LiteChat.Proof.Clients
import LiteChat.Proof.Counter

/-!
# Sessions are used while they live, and none is lost

A session is an object on the heap, and what is handed around is its address. As long as events do not
overlap, no address outlives its session, whatever the clients send and however the statements fail: the
process is never undefined. Nor is anything lost: every object on the heap is in `cliSessionMap`, under an
open descriptor, and the counter is their number, within its bound (`tidy_run`).

A request follows no address but those it was given (`UsesGiven`), and as it ends no connection, the
addresses it was given stay good. What is left is the code that ends connections: it follows the address
of its session, and then deletes it.
-/

namespace LiteChat

open LiteChat.Action Effect Server UserManager FriendManager MessageManager

variable {P : Platform} {α β : Type} {E : Env} {w w' w'' : World P}

/-! ## Addresses -/

/-- The code was given that address. -/
def Given (own : List (Call Op Op.Res)) (p : SessionPtr) : Prop :=
  (∃ c, (⟨.getSession c, (some p : Option SessionPtr)⟩ : Call Op Op.Res) ∈ own) ∨
    ∃ u, (⟨.getSessionByUsername u, (some p : Option SessionPtr)⟩ : Call Op Op.Res) ∈ own

/-- A request follows addresses it was given, and neither opens nor ends a connection. -/
def UsesGiven (own : List (Call Op Op.Res)) : Op → Prop
  | .getSocket p | .getUsername p | .getLastHeartbeat p | .getIsConnected p | .setUsername p _
  | .updateHeartbeat p => Given own p
  | o => o.Requests

theorem Op.Asks.usesGiven {S : Stmt → Prop} {own : List (Call Op Op.Res)} {o : Op} (ho : o.Asks S) :
    UsesGiven own o := by
  cases ho with
  | sql => trivial

section Programs

variable {own own' : List (Call Op Op.Res)} {request : Request} {p : SessionPtr}

theorem Given.mono (h : Given own p) (hown : own <+: own') : Given own' p := by
  rcases h with ⟨c, hc⟩ | ⟨u, hu⟩
  · exact .inl ⟨c, hown.subset hc⟩
  · exact .inr ⟨u, hown.subset hu⟩

theorem given_getSession (own : List (Call Op Op.Res)) (p : SessionPtr) (c : Socket) :
    Given (own ++ [⟨.getSession c, (some p : Option SessionPtr)⟩]) p :=
  .inl ⟨c, List.mem_concat_self⟩

theorem given_byUsername (own : List (Call Op Op.Res)) (p : SessionPtr) (u : Str) :
    Given (own ++ [⟨.getSessionByUsername u, (some p : Option SessionPtr)⟩]) p :=
  .inr ⟨u, List.mem_concat_self⟩

theorem asks_usesGiven {S : Stmt → Prop} {q : Action α} (hq : q.Uses (Op.Asks S)) :
    q.Obeys UsesGiven own :=
  hq.obeys fun _ _ ho _ => ho.usesGiven

theorem caught_usesGiven (st : Stmt) (f : st.Res → α) (failed : α) :
    (caught st f failed).Obeys UsesGiven own :=
  asks_usesGiven (S := fun _ => True) (uses_caught (.sql trivial) f failed)

theorem notifyEach_usesGiven (frame : Frame) (friends : List (Str × Bool)) :
    (notifyEach frame friends).Obeys UsesGiven own := by
  induction friends generalizing own with
  | nil => exact Prog.obeys_pure _
  | cons friend friends ih =>
    obtain ⟨friendUsername, isOnline⟩ := friend
    unfold notifyEach
    cases isOnline with
    | false => exact ih
    | true =>
      refine .call trivial fun session => ?_
      cases session with
      | none => exact ih
      | some session => exact .call (given_byUsername _ _ _) fun _ => .call trivial fun _ => ih

theorem notify_usesGiven (u : Str) (status : UserStatus) :
    (notifyFriendsStatusChange u status).Obeys UsesGiven own := by
  refine obeys_caught trivial (fun r => ?_) fun _ => Prog.obeys_pure _
  cases r with
  | none => exact Prog.obeys_pure _
  | some i =>
    refine obeys_caught trivial (fun friends => ?_) fun _ => Prog.obeys_pure _
    exact notifyEach_usesGiven _ friends

theorem kickOld_usesGiven (u : Str) : (kickOld u).Obeys UsesGiven own := by
  refine .call trivial fun session => ?_
  cases session with
  | none => exact Prog.obeys_pure _
  | some session =>
    have hgiven := given_byUsername own session u
    refine .call hgiven fun c => .call trivial fun _ => .call ?_ fun _ => Prog.obeys_op trivial
    exact (hgiven.mono (List.prefix_append _ _)).mono (List.prefix_append _ _)

theorem leave_usesGiven (u : Str) (i : UserId) : (leave u i).Obeys UsesGiven own := by
  refine .seq (caught_usesGiven _ _ _) fun isOnline own₁ _ => ?_
  dsimp only
  split
  · exact .seq (caught_usesGiven _ _ _) fun _ _ _ => kickOld_usesGiven u
  · exact Prog.obeys_pure _

theorem enter_usesGiven (c : Socket) (u : Str) (i : UserId) : (enter c u i).Obeys UsesGiven own := by
  refine .seq (caught_usesGiven _ _ _) fun _ own₁ _ => ?_
  refine .seq (caught_usesGiven _ _ _) fun _ own₂ _ => ?_
  refine .call trivial fun session => ?_
  cases session with
  | none => exact Prog.obeys_pure _
  | some session =>
    have hgiven := given_getSession own₂ session c
    refine .call hgiven fun _ => .call trivial fun _ => Prog.obeys_op ?_
    exact (hgiven.mono (List.prefix_append _ _)).mono (List.prefix_append _ _)

theorem handleLogin_usesGiven : (handleLogin P request).Obeys UsesGiven own := by
  unfold handleLogin
  split
  · exact Prog.obeys_pure _
  refine obeys_caught trivial (fun r => ?_) fun _ => Prog.obeys_pure _
  cases r with
  | none => exact Prog.obeys_pure _
  | some r =>
    dsimp only
    split
    · exact Prog.obeys_pure _
    refine .seq (leave_usesGiven _ _) fun _ own₁ _ => .seq (enter_usesGiven _ _ _) fun _ own₂ _ => ?_
    exact .seq (notify_usesGiven _ _) fun _ _ _ => Prog.obeys_pure _

theorem cacheFriendList_usesGiven (u : Str) : (cacheFriendList u).Obeys UsesGiven own := by
  refine obeys_caught trivial (fun r => ?_) fun _ => Prog.obeys_pure _
  cases r with
  | none => exact Prog.obeys_pure _
  | some i => exact obeys_caught trivial (fun _ => Prog.obeys_op trivial) fun _ => Prog.obeys_pure _

theorem forwardMessage_usesGiven (i : UserId) (u : Str) (j : UserId) (v content sendTime : Str) :
    (forwardMessage i u j v content sendTime).Obeys UsesGiven own := by
  refine .call trivial fun session => ?_
  cases session with
  | none => exact Prog.obeys_pure _
  | some session =>
    refine .call (given_byUsername _ _ v) fun c => .call trivial fun sent => ?_
    dsimp only
    split
    · exact .seq (caught_usesGiven _ _ _) fun _ _ _ => Prog.obeys_pure _
    · exact Prog.obeys_pure _

theorem sendNotification_usesGiven (c : Socket) (u content : Str) :
    (sendNotification c u content).Obeys UsesGiven own :=
  .call trivial fun _ => Prog.obeys_pure _

theorem handleSendMessage_usesGiven : (handleSendMessage request).Obeys UsesGiven own := by
  unfold handleSendMessage
  split
  · exact Prog.obeys_pure _
  split
  · exact Prog.obeys_pure _
  refine obeys_caught trivial (fun r => ?_) fun _ => Prog.obeys_pure _
  cases r with
  | none => exact Prog.obeys_pure _
  | some i =>
    refine obeys_caught trivial (fun r => ?_) fun _ => Prog.obeys_pure _
    cases r with
    | none => exact Prog.obeys_pure _
    | some j =>
      refine .seq (caught_usesGiven _ _ _) fun stored own₁ _ => ?_
      split
      · exact Prog.obeys_pure _
      refine .seq ?_ fun _ _ _ => Prog.obeys_pure _
      refine .seq (caught_usesGiven _ _ _) fun isOnline own₂ _ => ?_
      dsimp only
      split
      · refine .call trivial fun session => ?_
        cases session with
        | none => exact Prog.obeys_pure _
        | some session =>
          have hgiven := given_byUsername own₂ session request.targetUsername
          refine .seq (forwardMessage_usesGiven _ _ _ _ _ _) fun _ own₃ h₃ => ?_
          exact .call (hgiven.mono h₃) fun c => sendNotification_usesGiven c _ _
      · exact Prog.obeys_pure _

theorem pushEach_usesGiven (c : Socket) (messages : List Message) :
    (pushEach c messages).Obeys UsesGiven own := by
  induction messages generalizing own with
  | nil => exact Prog.obeys_pure _
  | cons msg messages ih =>
    refine .seq (forwardMessage_usesGiven _ _ _ _ _ _) fun _ own₁ _ => ?_
    exact .seq (sendNotification_usesGiven _ _ _) fun _ own₂ _ => ih

theorem pushOfflineMessages_usesGiven (u : Str) : (pushOfflineMessages u).Obeys UsesGiven own := by
  refine obeys_caught trivial (fun r => ?_) fun _ => Prog.obeys_pure _
  cases r with
  | none => exact Prog.obeys_pure _
  | some j =>
    refine obeys_caught trivial (fun messages => ?_) fun _ => Prog.obeys_pure _
    dsimp only
    split
    · exact Prog.obeys_pure _
    refine .call trivial fun session => ?_
    cases session with
    | none => exact Prog.obeys_pure _
    | some session => exact .call (given_byUsername _ _ u) fun c => pushEach_usesGiven c messages

theorem serve_usesGiven : (serve P request).Obeys UsesGiven own := by
  have obeys_ite : ∀ {c : Prop} [Decidable c] {p q : Action Response}, p.Obeys UsesGiven own →
      q.Obeys UsesGiven own → (if c then p else q).Obeys UsesGiven own := by
    intro c _ p q hp hq
    split
    · exact hp
    · exact hq
  unfold serve
  refine obeys_ite (asks_usesGiven (handleRegister_asks request)) (obeys_ite ?_ ?_)
  · refine .seq handleLogin_usesGiven fun response own₁ _ => ?_
    split
    · refine .seq (cacheFriendList_usesGiven _) fun _ own₂ _ => ?_
      exact .seq (pushOfflineMessages_usesGiven _) fun _ own₃ _ => Prog.obeys_pure _
    · exact Prog.obeys_pure _
  refine obeys_ite (asks_usesGiven (handleUpdateUser_asks request)) ?_
  refine obeys_ite (asks_usesGiven (handleQueryStatus_asks request)) ?_
  refine obeys_ite (asks_usesGiven (handleAddFriend_asks request)) ?_
  refine obeys_ite (asks_usesGiven (handleDeleteFriend_asks request)) ?_
  refine obeys_ite (asks_usesGiven (handleFriendList_asks request)) ?_
  refine obeys_ite (asks_usesGiven (queryTarget_asks request _)) ?_
  refine obeys_ite (asks_usesGiven (queryTarget_asks request _)) ?_
  refine obeys_ite handleSendMessage_usesGiven ?_
  refine obeys_ite (asks_usesGiven (handleHistoryMessages_asks request)) ?_
  exact obeys_ite (Prog.obeys_pure _) (Prog.obeys_pure _)

theorem dispatchRequest_usesGiven (c : Socket) (parsed : Option Json) :
    (dispatchRequest P c parsed).Obeys UsesGiven own := by
  cases parsed with
  | none => exact .call trivial fun _ => Prog.obeys_pure _
  | some root =>
    unfold dispatchRequest
    dsimp only
    split
    · exact Prog.obeys_pure _
    refine .seq (.call trivial fun session => ?_) fun _ own₁ _ => .call trivial fun garbage => ?_
    · cases session with
      | none => exact Prog.obeys_pure _
      | some session => exact Prog.obeys_op (given_getSession _ _ c)
    split
    · exact Prog.obeys_pure _
    refine .seq (.call trivial fun session => ?_) fun request own₂ _ => ?_
    · cases session with
      | none => exact Prog.obeys_pure _
      | some session =>
        refine .call (given_getSession _ _ c) fun (u : Str) => ?_
        show (if u = [] then pure _ else _ : Action Request).Obeys UsesGiven _
        split
        · exact Prog.obeys_pure _
        · exact .call ((given_getSession _ _ c).mono (List.prefix_append _ _)) fun _ => Prog.obeys_pure _
    · exact .seq serve_usesGiven fun _ own₃ _ => .call trivial fun _ => Prog.obeys_pure _

/-- The user of a session is signed off through its address. -/
theorem farewell_usesGiven (h : Given own p) : (farewell p).Obeys UsesGiven own := by
  refine .call h fun (u : Str) => ?_
  refine .seq (caught_usesGiven _ _ _) fun _ own₁ h₁ => ?_
  have hgiven := (h.mono (List.prefix_append _ _)).mono h₁
  refine .call hgiven fun v => .seq (notify_usesGiven _ _) fun _ own₂ h₂ => ?_
  exact .call ((hgiven.mono (List.prefix_append _ _)).mono h₂) fun v => Prog.obeys_op trivial

end Programs

/-! ## Descriptors that were shut down -/

/-- The socket was shut down, and its descriptor has not been closed since. -/
def Shut (w : World P) (c : Socket) : Prop :=
  ∃ before after, w.trace = before ++ .shutdown c :: after ∧ .close c ∉ after

/-- The descriptor was not closed. -/
def Spares (c : Socket) (w w' : World P) : Prop :=
  ∃ said, w'.trace = w.trace ++ said ∧ .close c ∉ said

theorem Spares.of_trace {c : Socket} (h : w'.trace = w.trace) : Spares c w w' :=
  ⟨[], by rw [h, List.append_nil], nofun⟩

theorem Spares.trans {c : Socket} (h : Spares c w w') (h' : Spares c w' w'') : Spares c w w'' := by
  obtain ⟨said, hsaid, hc⟩ := h
  obtain ⟨said', hsaid', hc'⟩ := h'
  refine ⟨said ++ said', ?_, fun hmem => ?_⟩
  · rw [hsaid', hsaid, List.append_assoc]
  · rcases List.mem_append.mp hmem with hmem | hmem
    · exact hc hmem
    · exact hc' hmem

theorem Spares.shut {c : Socket} (h : Spares c w w') (hc : Shut w c) : Shut w' c := by
  obtain ⟨said, hsaid, hspared⟩ := h
  obtain ⟨before, after, htrace, hafter⟩ := hc
  refine ⟨before, after ++ said, ?_, fun hmem => ?_⟩
  · rw [hsaid, htrace, List.append_assoc, List.cons_append]
  · rcases List.mem_append.mp hmem with hmem | hmem
    · exact hafter hmem
    · exact hspared hmem

theorem Spares.said {c : Socket} {o : Obs} (htrace : w'.trace = w.trace ++ [o]) (h : o ≠ .close c) :
    Spares c w w' :=
  ⟨[o], htrace, fun hmem => h (List.mem_singleton.mp hmem).symm⟩

/-- Closing one descriptor leaves the others. -/
theorem Spares.close {c d : Socket} (htrace : w'.trace = w.trace ++ [.close c]) (hdc : d ≠ c) :
    Spares d w w' :=
  .said htrace fun h => hdc (Obs.close.inj h).symm

theorem shut_of_trace {c : Socket} (htrace : w'.trace = w.trace ++ [.shutdown c]) : Shut w' c :=
  ⟨w.trace, [], htrace, nofun⟩

/-! ## Requests -/

/-- The same connections, with sessions at the same addresses. -/
structure SameSessions (w w' : World P) : Prop where
  defined : w'.undefined = w.undefined
  map : w'.sessions.cliSessionMap = w.sessions.cliSessionMap
  heap : ∀ p, (w'.sessions.heap.lookup p).isSome = (w.sessions.heap.lookup p).isSome
  counted : w'.currentConnections = w.currentConnections
  openSockets : w'.openSockets = w.openSockets
  spares : ∀ c, Spares c w w'

theorem SameSessions.refl (w : World P) : SameSessions w w :=
  ⟨rfl, rfl, fun _ => rfl, rfl, rfl, fun _ => .of_trace rfl⟩

theorem SameSessions.trans (h : SameSessions w w') (h' : SameSessions w' w'') : SameSessions w w'' :=
  ⟨h'.defined.trans h.defined, h'.map.trans h.map, fun p => (h'.heap p).trans (h.heap p),
    h'.counted.trans h.counted, h'.openSockets.trans h.openSockets,
    fun c => (h.spares c).trans (h'.spares c)⟩

theorem SameSessions.getSession (h : SameSessions w w') (c : Socket) :
    w'.sessions.getSession c = w.sessions.getSession c := by
  unfold SessionManager.getSession
  rw [h.map]

theorem isSome_heap_modify (m : SessionManager) (p : SessionPtr) (f : ClientSession → ClientSession)
    (hf : ∀ s, (f s).socket = s.socket) (q : SessionPtr) :
    ((m.modify p f hf).heap.lookup q).isSome = (m.heap.lookup q).isSome := by
  rw [SessionManager.heap_modify]
  split
  · rename_i hq
    rw [hq, Option.isSome_map]
  · rfl

/-- An operation of a request, on an address that is good, adds and removes no session, and none is used
that is gone. -/
theorem World.sameSessions_handle {o : Op} (ho : o.Requests) (hlive : o.Live w) (ch : Choice) :
    SameSessions w (World.handle o ch w).2 := by
  have hdefined := World.undefined_handle hlive ch
  obtain ⟨hmap, hcounted⟩ := World.handle_uncounted ho.uncounted ch w
  have hfollows := fun ho : World.Follows o => World.handle_follows ho ch w
  have hderefs := fun ho : World.Derefs o => World.handle_derefs ho ch w
  refine ⟨hdefined, hmap, fun p => ?_, hcounted, ?_, fun c => ?_⟩
  · cases o with
    | addSession | removeSession | accept | close | addConnections => exact absurd ho id
    | sql st =>
      obtain ⟨db, hw, _⟩ := w.execute_world st ch
      show ((w.execute st ch).2.sessions.heap.lookup p).isSome = _
      rw [hw]
    | getSocket | getUsername | getLastHeartbeat | getIsConnected =>
      obtain ⟨lost, hw⟩ := hderefs trivial
      rw [hw]
    -- the two that write to an object leave it on the heap
    | setUsername q u =>
      rw [World.sessions_setUsername]
      exact isSome_heap_modify _ _ _ _ p
    | updateHeartbeat q =>
      obtain ⟨sessions, lost, hw, hsessions⟩ := w.write_world q (·.updateHeartbeat q ch.now)
      show ((w.write q (·.updateHeartbeat q ch.now)).sessions.heap.lookup p).isSome = _
      rw [hw]
      rcases hsessions with rfl | rfl
      · rfl
      · show ((w.sessions.updateHeartbeat q ch.now).heap.lookup p).isSome = _
        unfold SessionManager.updateHeartbeat
        exact isSome_heap_modify _ _ _ _ p
    | _ => rfl
  · cases o with
    | addSession | removeSession | accept | close | addConnections => exact absurd ho id
    | sql st =>
      obtain ⟨db, hw, _⟩ := w.execute_world st ch
      show (w.execute st ch).2.openSockets = _
      rw [hw]
    | getSocket | getUsername | getLastHeartbeat | getIsConnected | setUsername | updateHeartbeat =>
      obtain ⟨sessions, lost, hw⟩ := hfollows trivial
      rw [hw]
    | _ => rfl
  · refine ⟨w.records ch o, World.trace_records o ch w, ?_⟩
    cases o with
    | close => exact absurd ho id
    | sendData | shutdown => exact fun hmem => nomatch List.mem_singleton.mp hmem
    | _ => exact nofun

/-- Only `accept` opens a connection. -/
theorem openSockets_handle {o : Op} (ho : ∀ c, o ≠ .accept c) (ch : Choice) (w : World P) :
    (World.handle o ch w).2.openSockets ⊆ w.openSockets := by
  have hfollows := fun ho : World.Follows o => World.handle_follows ho ch w
  cases o with
  | accept c => exact absurd rfl (ho c)
  | sql st =>
    obtain ⟨db, hw, _⟩ := w.execute_world st ch
    show (w.execute st ch).2.openSockets ⊆ _
    rw [hw]
    exact List.Subset.refl _
  | getSocket | getUsername | getLastHeartbeat | getIsConnected | setUsername | updateHeartbeat =>
    obtain ⟨sessions, lost, hw⟩ := hfollows trivial
    rw [hw]
    exact List.Subset.refl _
  | close => exact List.filter_subset_self _
  | _ => exact List.Subset.refl _

/-- Addresses that were given are good. -/
def GoodAddresses (own : List (Call Op Op.Res)) (w : World P) : Prop :=
  ∀ p, Given own p → (w.sessions.heap.lookup p).isSome

theorem UsesGiven.requests {own : List (Call Op Op.Res)} {o : Op} (h : UsesGiven own o) : o.Requests := by
  cases o with
  | addSession | removeSession | accept | close | addConnections => exact absurd h id
  | _ => trivial

theorem UsesGiven.live {own : List (Call Op Op.Res)} {o : Op} (h : UsesGiven own o)
    (hgood : GoodAddresses own w) : o.Live w := by
  cases o with
  | getSocket p | getUsername p | getLastHeartbeat p | getIsConnected p | setUsername p _
  | updateHeartbeat p => exact hgood p h
  | _ => trivial

/-- An address that is handed out is good. -/
theorem GoodAddresses.concat {own : List (Call Op Op.Res)} (hgood : GoodAddresses own w)
    {o : Op} {ch : Choice} (hsame : SameSessions w (World.handle o ch w).2) :
    GoodAddresses (own ++ [⟨o, (World.handle o ch w).1⟩]) (World.handle o ch w).2 := by
  intro p hp
  rw [hsame.heap]
  rcases hp with ⟨c, hc⟩ | ⟨u, hu⟩
  · rcases List.mem_append.mp hc with hc | hc
    · exact hgood p (.inl ⟨c, hc⟩)
    · have hc := List.mem_singleton.mp hc
      cases congrArg Sigma.fst hc
      have hp : some p = w.sessions.getSession c := eq_of_heq (Sigma.mk.inj hc).2
      obtain ⟨s, hs, _⟩ := SessionManager.heap_of_getSession hp.symm
      rw [hs]
      rfl
  · rcases List.mem_append.mp hu with hu | hu
    · exact hgood p (.inr ⟨u, hu⟩)
    · have hu := List.mem_singleton.mp hu
      cases congrArg Sigma.fst hu
      have hp : some p = w.sessions.getSessionByUsername u := eq_of_heq (Sigma.mk.inj hu).2
      obtain ⟨s, hs, _⟩ := World.live_byUsername hp.symm
      rw [hs]
      rfl

/-- **A request leaves the sessions where they are**, and is never undefined. -/
theorem wp_usesGiven {q : Action α} {own : List (Call Op Op.Res)} (hq : q.Obeys UsesGiven own)
    (hgood : GoodAddresses own w) : wp E q (fun _ w' => SameSessions w w') w := by
  refine wp_mono (Prog.Obeys.wp (J := fun w' own' => SameSessions w w' ∧ GoodAddresses own' w') hq
    ⟨.refl w, hgood⟩ fun w' own' o ch h ho _ => ?_) fun _ w' h => ?_
  · have hsame := World.sameSessions_handle ho.requests (ho.live h.2) ch
    exact ⟨h.1.trans hsame, h.2.concat hsame⟩
  · obtain ⟨own', _, hsame, _⟩ := h
    exact hsame

/-! ## Between events -/

/-- No session was used after its end, what is on the heap is in the map, under a descriptor that is open,
and the counter is right. An open descriptor that has no session has been shut down, so that the thread
that reads from it is about to end. -/
structure Tidy (w : World P) : Prop where
  defined : w.undefined = false
  owned : ∀ p, (w.sessions.heap.lookup p).isSome = true ↔ ∃ c, w.sessions.getSession c = some p
  isOpen : ∀ c, w.sessions.getSession c ≠ none → c ∈ w.openSockets
  attended : ∀ c ∈ w.openSockets, w.sessions.getSession c = none → Shut w c
  counted : w.currentConnections = w.sessions.count
  bounded : (w.sessions.count : Int) ≤ maxConnections

theorem Tidy.start (db : Database P) : Tidy (World.start db) where
  defined := rfl
  owned p := ⟨fun h => absurd h (by simp [World.start, SessionManager.empty]),
    fun ⟨c, hc⟩ => absurd hc (by simp [World.start, SessionManager.empty, SessionManager.getSession])⟩
  isOpen c h := absurd rfl h
  attended _ := nofun
  counted := rfl
  bounded := (by decide : (0 : Int) ≤ maxConnections)

theorem Tidy.same (h : Tidy w) (hsame : SameSessions w w') : Tidy w' where
  defined := hsame.defined.trans h.defined
  owned p := by
    simp only [hsame.heap, hsame.getSession]
    exact h.owned p
  isOpen c hc := by
    rw [hsame.openSockets]
    exact h.isOpen c (hsame.getSession c ▸ hc)
  attended c hc hnone := by
    rw [hsame.openSockets] at hc
    rw [hsame.getSession] at hnone
    exact (hsame.spares c).shut (h.attended c hc hnone)
  counted := by rw [hsame.counted, h.counted, SessionManager.count_congr hsame.map]
  bounded := by
    rw [SessionManager.count_congr hsame.map]
    exact h.bounded

namespace SessionManager

variable {m : SessionManager} {c : Socket}

/-- The session that is removed from the map is removed from the heap. -/
theorem owned_removeSession {p : SessionPtr}
    (h : ∀ q, (m.heap.lookup q).isSome = true ↔ ∃ d, m.getSession d = some q)
    (hp : m.getSession c = some p) (q : SessionPtr) :
    ((m.removeSession c).heap.lookup q).isSome = true ↔ ∃ d, (m.removeSession c).getSession d = some q := by
  simp only [heap_removeSession, getSession_removeSession, hp]
  by_cases hq : some p = some q
  · rw [if_pos hq]
    refine ⟨nofun, fun ⟨d, hd⟩ => ?_⟩
    -- the address was in the map once, under the descriptor that is gone
    split at hd
    · cases hd
    · rename_i hdc
      exact absurd (m.ptr_inj hd (hp.trans hq)) hdc
  · rw [if_neg hq, h]
    refine ⟨fun ⟨d, hd⟩ => ⟨d, ?_⟩, fun ⟨d, hd⟩ => ⟨d, ?_⟩⟩
    · rw [if_neg, hd]
      rintro rfl
      exact hq (hp.symm.trans hd)
    · split at hd
      · cases hd
      · exact hd

/-- The one that is added to the map is added to the heap, at a new address. -/
theorem owned_addSession {s : ClientSession}
    (h : ∀ q, (m.heap.lookup q).isSome = true ↔ ∃ d, m.getSession d = some q)
    (hnone : m.getSession s.socket = none) (q : SessionPtr) :
    ((m.addSession s).heap.lookup q).isSome = true ↔ ∃ d, (m.addSession s).getSession d = some q := by
  have hheap : (m.addSession s).heap.lookup q =
      if q = m.nextPtr then some s else m.heap.lookup q := Map.lookup_insert _ _ _ _
  rw [hheap]
  simp only [getSession_addSession]
  by_cases hq : q = m.nextPtr
  · rw [if_pos hq]
    refine ⟨fun _ => ⟨s.socket, ?_⟩, fun _ => rfl⟩
    rw [if_pos rfl, hq]
  · rw [if_neg hq, h]
    refine ⟨fun ⟨d, hd⟩ => ⟨d, ?_⟩, fun ⟨d, hd⟩ => ⟨d, ?_⟩⟩
    · rw [if_neg, hd]
      rintro rfl
      exact absurd (hnone.symm.trans hd) nofun
    · split at hd
      · exact absurd (Option.some.inj hd).symm hq
      · exact hd

end SessionManager

/-- A session goes, and its object with it. Its descriptor may go too; if it stays, it was shut down. -/
theorem Tidy.removed {c : Socket} (h : Tidy w) (hc : w.sessions.getSession c ≠ none)
    (hdefined : w'.undefined = w.undefined) (hsessions : w'.sessions = w.sessions.removeSession c)
    (hcounted : w'.currentConnections = w.currentConnections + -1)
    (hopen : ∀ d, d ≠ c → (d ∈ w'.openSockets ↔ d ∈ w.openSockets))
    (hspares : ∀ d, d ≠ c → Spares d w w') (hshut : c ∈ w'.openSockets → Shut w' c) : Tidy w' := by
  obtain ⟨p, hp⟩ := Option.ne_none_iff_exists'.mp hc
  have hcount := SessionManager.count_removeSession hc
  refine ⟨hdefined.trans h.defined, fun q => ?_, fun d hd => ?_, fun d hd hnone => ?_, ?_, ?_⟩
  · rw [hsessions]
    exact SessionManager.owned_removeSession h.owned hp q
  · rw [hsessions, SessionManager.getSession_removeSession] at hd
    split at hd
    · exact absurd rfl hd
    · rename_i hdc
      exact (hopen d hdc).mpr (h.isOpen d hd)
  · by_cases hdc : d = c
    · exact hdc ▸ hshut (hdc ▸ hd)
    · rw [hsessions, SessionManager.getSession_removeSession, if_neg hdc] at hnone
      exact (hspares d hdc).shut (h.attended d ((hopen d hdc).mp hd) hnone)
  · rw [hcounted, h.counted, hsessions]
    omega
  · have hbounded := h.bounded
    rw [hsessions]
    omega

/-- The descriptor of no session is closed. -/
theorem Tidy.closed {c : Socket} (h : Tidy w) (hc : w.sessions.getSession c = none)
    (hdefined : w'.undefined = w.undefined) (hsessions : w'.sessions = w.sessions)
    (hcounted : w'.currentConnections = w.currentConnections)
    (hopen : ∀ d, d ∈ w'.openSockets ↔ d ∈ w.openSockets ∧ d ≠ c)
    (hspares : ∀ d, d ≠ c → Spares d w w') : Tidy w' := by
  refine ⟨hdefined.trans h.defined, ?_, fun d hd => ?_, fun d hd hnone => ?_, ?_, ?_⟩
  · rw [hsessions]
    exact h.owned
  · rw [hsessions] at hd
    refine (hopen d).mpr ⟨h.isOpen d hd, ?_⟩
    rintro rfl
    exact hd hc
  · rw [hsessions] at hnone
    obtain ⟨hd, hdc⟩ := (hopen d).mp hd
    exact (hspares d hdc).shut (h.attended d hd hnone)
  · rw [hcounted, hsessions]
    exact h.counted
  · rw [hsessions]
    exact h.bounded

/-- A session is added, for a descriptor that has none, when there is room for it. -/
theorem Tidy.added {c : Socket} (now : Nat) (h : Tidy w) (hc : w.sessions.getSession c = none)
    (hroom : ¬ maxConnections ≤ w.currentConnections) (hdefined : w'.undefined = w.undefined)
    (hsessions : w'.sessions = w.sessions.addSession ⟨c, [], now, true⟩)
    (hcounted : w'.currentConnections = w.currentConnections + 1)
    (hopen : w'.openSockets = c :: w.openSockets) (htrace : w'.trace = w.trace) : Tidy w' := by
  have hgetSession : ∀ d, w'.sessions.getSession d =
      if d = c then some w.sessions.nextPtr else w.sessions.getSession d := by
    intro d
    rw [hsessions]
    exact SessionManager.getSession_addSession _ _ d
  have hcount : w'.sessions.count = w.sessions.count + 1 := by
    rw [hsessions]
    exact SessionManager.count_addSession hc
  refine ⟨hdefined.trans h.defined, fun q => ?_, fun d hd => ?_, fun d hd hnone => ?_, ?_, ?_⟩
  · rw [hsessions]
    exact SessionManager.owned_addSession h.owned hc q
  · rw [hopen]
    rw [hgetSession] at hd
    by_cases hdc : d = c
    · exact hdc ▸ List.mem_cons_self
    · rw [if_neg hdc] at hd
      exact List.mem_cons_of_mem c (h.isOpen d hd)
  · rw [hgetSession] at hnone
    split at hnone
    · cases hnone
    · rename_i hdc
      rw [hopen] at hd
      exact Spares.shut (.of_trace htrace) (h.attended d (List.mem_of_ne_of_mem hdc hd) hnone)
  · rw [hcounted, h.counted, hcount]
    rfl
  · have hcounted := h.counted
    rw [hcount]
    omega

/-! ## Events -/

theorem mem_filter_ne_iff {l : List Socket} {c d : Socket} : d ∈ l.filter (· ≠ c) ↔ d ∈ l ∧ d ≠ c := by
  rw [List.mem_filter, decide_eq_true_iff]

theorem wp_acceptConnection_tidy {c : Socket} (h : Tidy w) (hc : c ∉ w.openSockets) :
    wp E (acceptConnection c) (fun _ w' => Tidy w') w := by
  have hnone : w.sessions.getSession c = none := by
    by_contra hsome
    exact hc (h.isOpen c hsome)
  have hopen : ∀ d, d ∈ (c :: w.openSockets).filter (· ≠ c) ↔ d ∈ w.openSockets ∧ d ≠ c := by
    intro d
    rw [mem_filter_ne_iff, List.mem_cons]
    refine and_congr_left fun hdc => ?_
    rw [or_iff_right hdc]
  unfold acceptConnection
  simp only [wp_bind, wp_accept, wp_loadConnections]
  refine wp_if (fun _ => ?_) fun hroom => ?_
  · -- it is turned away: told so, and closed again
    have turned : ∀ ok, wp E (close c) (fun _ w' => Tidy w')
        ({ w with openSockets := c :: w.openSockets }.observe
          (.sent c (World.accountAt { w with openSockets := c :: w.openSockets } c) busy ok)) := by
      intro ok
      refine wp_close.mpr (h.closed hnone rfl rfl rfl hopen fun d hdc => ?_)
      have hsaid : Spares d w (w.observe (.sent c (w.accountAt c) busy ok)) := .said rfl (by simp)
      exact hsaid.trans (.close rfl hdc)
    rw [wp_bind, wp_sendData]
    exact ⟨turned true, fun _ => turned false⟩
  · simp only [wp_bind, wp_addSession, wp_addConnections]
    exact fun now => .added now h hnone hroom rfl rfl rfl rfl rfl

/-- The user of a session is signed off. -/
theorem wp_farewell_same {p : SessionPtr} {s : ClientSession} (hs : w.sessions.heap.lookup p = some s) :
    wp E (farewell p) (fun _ w' => SameSessions w w') w := by
  have hgiven : Given [⟨.getSession s.socket, (some p : Option SessionPtr)⟩] p :=
    .inl ⟨s.socket, List.mem_singleton_self _⟩
  refine wp_usesGiven (farewell_usesGiven hgiven) fun q hq => ?_
  rcases hq with ⟨d, hd⟩ | ⟨u, hu⟩
  · cases List.mem_singleton.mp hd
    rw [hs]
    rfl
  · cases List.mem_singleton.mp hu

theorem wp_endConnection_tidy {c : Socket} (h : Tidy w) :
    wp E (endConnection c) (fun _ w' => Tidy w' ∧ w'.openSockets = w.openSockets.filter (· ≠ c)) w := by
  unfold endConnection
  simp only [wp_bind, wp_getSession]
  cases hp : w.sessions.getSession c with
  | none =>
    refine wp_close.mpr ⟨h.closed hp rfl rfl rfl (fun d => mem_filter_ne_iff) fun d hdc => ?_, rfl⟩
    exact .close rfl hdc
  | some p =>
    obtain ⟨s, hs, _⟩ := SessionManager.heap_of_getSession hp
    have rest : ∀ w₁, SameSessions w w₁ → wp E (do
        removeSession c
        addConnections (-1)
        close c) (fun _ w' => Tidy w' ∧ w'.openSockets = w.openSockets.filter (· ≠ c)) w₁ := by
      intro w₁ h₁
      simp only [wp_bind, wp_removeSession, wp_addConnections, wp_close]
      refine ⟨(h.same h₁).removed ?_ rfl rfl rfl (fun d hdc => ?_) (fun d hdc => .close rfl hdc) ?_, ?_⟩
      · rw [h₁.getSession, hp]
        exact Option.some_ne_none p
      · exact mem_filter_ne_iff.trans (and_iff_left hdc)
      · exact fun hc => absurd rfl (mem_filter_ne_iff.mp hc).2
      · rw [← h₁.openSockets]
    simp only [wp_bind, wp_getUsername hs]
    refine wp_if (fun _ => ?_) fun _ => rest w (.refl w)
    rw [wp_bind]
    exact wp_mono (wp_farewell_same hs) fun _ w₁ h₁ => rest w₁ h₁

/-- The exception exit closes the descriptor before it removes the session. With nothing in between that
is of no consequence: when it is through, both are gone. -/
theorem wp_failConnection_tidy {c : Socket} (h : Tidy w) :
    wp E (failConnection c) (fun _ w' => Tidy w') w := by
  unfold failConnection
  simp only [wp_bind, wp_close, wp_getSession]
  cases hp : w.sessions.getSession c with
  | none =>
    have hp' : (w.observe (.close c)).sessions.getSession c = none := hp
    rw [hp']
    exact h.closed hp rfl rfl rfl (fun d => mem_filter_ne_iff) fun d hdc => .close rfl hdc
  | some p =>
    have hp' : (w.observe (.close c)).sessions.getSession c = some p := hp
    rw [hp']
    obtain ⟨s, hs, _⟩ := SessionManager.heap_of_getSession hp
    have hsome : w.sessions.getSession c ≠ none := by
      rw [hp]
      exact Option.some_ne_none p
    have rest : ∀ db : Database P, wp E (do
        removeSession c
        addConnections (-1)) (fun _ w' => Tidy w')
          { w.observe (.close c) with db := db, openSockets := w.openSockets.filter (· ≠ c) } := by
      intro db
      simp only [wp_bind, wp_removeSession, wp_addConnections]
      refine h.removed hsome rfl rfl rfl (fun d hdc => ?_) (fun d hdc => .close rfl hdc) ?_
      · exact mem_filter_ne_iff.trans (and_iff_left hdc)
      · exact fun hc => absurd rfl (mem_filter_ne_iff.mp hc).2
    simp only [wp_bind] at rest ⊢
    refine (wp_getUsername (by exact hs)).mpr (wp_if (fun _ => ?_) fun _ => ?_)
    · rw [wp_bind]
      refine (wp_getUsername (by exact hs)).mpr ?_
      rw [wp_bind]
      exact wp_updateOnlineStatusByUsername.mpr ⟨fun _ => rest _, rest _⟩
    · exact rest _

theorem wp_expire_tidy {c : Socket} {p : SessionPtr} {s : ClientSession} (h : Tidy w)
    (hs : w.sessions.heap.lookup p = some s) (hc : w.sessions.getSession c ≠ none) :
    wp E (expire c p) (fun _ w' => Tidy w') w := by
  unfold expire
  rw [wp_bind]
  refine wp_mono (wp_farewell_same hs) fun _ w₁ h₁ => ?_
  simp only [wp_bind, wp_shutdown, wp_removeSession, wp_addConnections]
  refine (h.same h₁).removed ?_ rfl rfl rfl (fun _ _ => Iff.rfl) (fun _ _ => .said rfl (by simp)) fun _ =>
    shut_of_trace (w := w₁) rfl
  rw [h₁.getSession]
  exact hc

/-- A descriptor with a name has a session. -/
theorem SessionManager.getSession_ne_none {m : SessionManager} {c : Socket} {u : Str}
    (h : m.loginAt c = some u) : m.getSession c ≠ none := by
  intro hnone
  rw [getSession_eq_none.mp hnone] at h
  cases h

theorem wp_heartbeatCheck_tidy (h : Tidy w) : wp E heartbeatCheck (fun _ w' => Tidy w') w := by
  have hexpires : ExpiresEach E (Tidy (P := P)) fun _ _ w' => Tidy w' := by
    intro c p s w hw hs hl _
    have hc : w.sessions.getSession c ≠ none := SessionManager.getSession_ne_none hl
    refine wp_mono (wp_expire_tidy hw hs hc) fun _ w₁ h₁ => ?_
    exact ⟨h₁, fun _ _ _ hrest => hrest⟩
  have hdone : ∀ w : World P, Tidy w → Tidy w := fun _ hw => hw
  refine wp_mono (wp_heartbeatCheck_each (fun _ hch => hch) hdone hexpires h) fun _ w' hw' => ?_
  obtain ⟨_, _, _, _, hw'⟩ := hw'
  exact hw'

/-- **One event leaves the server tidy**, whatever the client sends and whatever fails. -/
theorem Tidy.next (h : Tidy w) (e : Event × List Choice) : Tidy (next w e) := by
  have hwp : e.1.Enabled P w → wp .any (e.1.action P) (fun _ w' => Tidy w') w := by
    intro he
    obtain ⟨e, cs⟩ := e
    cases e with
    | accept c => exact (wp_bind _ _).mpr (wp_mono (wp_acceptConnection_tidy h he) fun _ _ h => h)
    | request c parsed =>
      have hobeys : (dispatchRequest P c parsed).Obeys UsesGiven [] := dispatchRequest_usesGiven c parsed
      refine (wp_bind _ _).mpr (wp_mono (wp_usesGiven hobeys ?_) fun served w₁ h₁ => ?_)
      · rintro p (⟨_, hp⟩ | ⟨_, hp⟩) <;> cases hp
      cases served with
      | ok served => exact h.same h₁
      | error e => exact (wp_bind _ _).mpr (wp_mono (wp_failConnection_tidy (h.same h₁)) fun _ _ h => h)
    | hangup c => exact (wp_bind _ _).mpr (wp_mono (wp_endConnection_tidy h) fun _ _ h => h.1)
    | heartbeatScan => exact (wp_bind _ _).mpr (wp_mono (wp_heartbeatCheck_tidy h) fun _ _ h => h)
  unfold Server.next step
  split
  · rename_i he
    exact run_of_wp (hwp he) e.2 fun ch _ => Env.ok_any ch
  · exact h

/-- **No session is used after its end, and none is lost**, in any run of events that do not overlap:
whatever the clients send, however statements and sends fail, and whatever the clocks say, the process is
never undefined, the heap holds the sessions in `cliSessionMap` and nothing else, each of them under an
open descriptor, every other open descriptor has been shut down, and the counter is the number of sessions,
of which there are never more than `maxConnections`. -/
theorem tidy_run (db : Database P) (es : List (Event × List Choice)) :
    Tidy (runAll next (World.start db) es) :=
  runAll_inv_always (Tidy.start db) (fun _ e h => h.next e) es

end LiteChat
