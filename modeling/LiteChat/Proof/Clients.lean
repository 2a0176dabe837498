import LiteChat.Effect.Obeys
import LiteChat.Proof.Ordinary
import LiteChat.Proof.Requests

/-!
# What clients send and what threads do

The rules for a protocol that the server's threads keep to whatever they are answered
(`Effect/Obeys.lean`). What surrounds the handlers, `DispatchRequest`, `HandleClient`, the accept
loop and the heartbeat check, calls operations of a few kinds; with these allowed, it is the
handlers that are left to look at, each for the requests that are read from the bodies its client
sends.
-/

namespace LiteChat

open LiteChat.Action Effect Server

variable {P : Platform} {α β κ : Type} {Ok : List (Call Op Op.Res) → Op → Prop}
  {own : List (Call Op Op.Res)}

/-- The rule for a statement. -/
theorem obeys_caught {st : Stmt} {f : st.Res → α} {failed : α} {k : α → Action β}
    (hok : Ok own (.sql st))
    (hk : ∀ r, (k (f r)).Obeys Ok (own ++ [⟨.sql st, (Except.ok r : Except SQLException st.Res)⟩]))
    (hfailed : ∀ e, (k failed).Obeys Ok
      (own ++ [⟨.sql st, (Except.error e : Except SQLException st.Res)⟩])) :
    (caught st f failed >>= k).Obeys Ok own := by
  show ((caught st f failed).bind k).Obeys Ok own
  unfold caught
  rw [Prog.bind_eq, Prog.bind_assoc]
  refine .call hok fun r => ?_
  cases r with
  | ok r => exact hk r
  | error e => exact hfailed e

/-! ## What leaves the process -/

/-- What an operation puts on record. -/
def World.records (w : World P) (ch : Choice) : Op → List Obs
  | .sendData c frame => [.sent c (w.accountAt c) frame ch.sendOk]
  | .shutdown c => [.shutdown c]
  | .close c => [.close c]
  | _ => []

theorem World.trace_records (o : Op) (ch : Choice) (w : World P) :
    (World.handle o ch w).2.trace = w.trace ++ w.records ch o := by
  have hfollows := fun ho : World.Follows o => World.handle_follows ho ch w
  cases o with
  | sql st =>
    obtain ⟨db, hw, _⟩ := w.execute_world st ch
    show (w.execute st ch).2.trace = w.trace ++ []
    rw [hw, List.append_nil]
  | getSocket | getUsername | getLastHeartbeat | getIsConnected | setUsername | updateHeartbeat =>
    obtain ⟨sessions, lost, hw⟩ := hfollows trivial
    rw [hw]
    exact (List.append_nil _).symm
  | sendData | shutdown | close => rfl
  | _ => exact (List.append_nil _).symm

/-! ## Bodies -/

/-- One of the bodies is a request of that type in which the field has that value; a field that is
missing counts as empty. -/
def Submits (received : List (Option Json)) (type key : String) (value : Str) : Prop :=
  ∃ root node, some root ∈ received ∧ header root = .ok (bytes type, node) ∧
    stringField node key = .ok value

/-- What a thread has found out about the session of a connection, one call after the other: the session,
and the name that it gave last. A session that has just been looked up has not been asked yet. -/
def sessionSeen (c : Socket) (seen : Option SessionPtr × Str) :
    Call Op Op.Res → Option SessionPtr × Str
  | ⟨.getSession d, session⟩ => if d = c then (session, []) else seen
  | ⟨.getUsername p, u⟩ => if seen.1 = some p then (seen.1, u) else seen
  | _ => seen

/-- Who acts on the connection, as far as the thread knows: empty where nobody is logged in. -/
def actingName (c : Socket) (own : List (Call Op Op.Res)) : Str :=
  (own.foldl (sessionSeen c) (none, [])).2

theorem actingName_concat (c : Socket) (own : List (Call Op Op.Res)) (call : Call Op Op.Res) :
    actingName c (own ++ [call]) = (sessionSeen c (own.foldl (sessionSeen c) (none, [])) call).2 := by
  unfold actingName
  rw [List.foldl_append]
  rfl

/-- A statement tells nothing about sessions. -/
theorem actingName_sql (c : Socket) (own : List (Call Op Op.Res)) (st : Stmt) (r : Op.Res (.sql st)) :
    actingName c (own ++ [⟨.sql st, r⟩]) = actingName c own := actingName_concat c own _

/-- Whoever acts, a name in the body is the target if no other is given. -/
theorem targetUsername_actingAs (body : Request) (u : Str) :
    (actingAs body u).targetUsername =
      if body.targetUsername = [] then body.username else body.targetUsername := by
  unfold actingAs
  dsimp only
  by_cases ht : body.targetUsername = []
  · by_cases hu : body.username = []
    · rw [if_pos ht, if_neg fun h => h.1 hu, ht, hu]
    · rw [if_pos ht, if_pos ⟨hu, ht⟩]
  · rw [if_neg ht, if_neg fun h => ht h.2]

/-- The request is read from the body, and made by whoever the thread has found logged in. -/
def ReadFrom (c : Socket) (own : List (Call Op Op.Res)) (root : Json) (request : Request) : Prop :=
  ∃ node garbage body, header root = .ok (request.type, node) ∧
    readRequest request.type c garbage node = .ok body ∧
    (request = body ∧ actingName c own = [] ∨ request = actingAs body (actingName c own))

theorem bind_eq_ok {ε α β : Type} {x : Except ε α} {f : α → Except ε β} {b : β} :
    (x >>= f) = .ok b ↔ ∃ a, x = .ok a ∧ f a = .ok b := by
  cases x with
  | error e => simp [bind, Except.bind]
  | ok a => simp [bind, Except.bind]

theorem readRequest_fields {type : Str} {c : Socket} {garbage : Int} {node : Json} {request : Request}
    (h : readRequest type c garbage node = .ok request) :
    stringField node "password" = .ok request.password ∧
      stringField node "newPassword" = .ok request.newPassword ∧
      stringField node "verifyPassword" = .ok request.verifyPassword ∧
      stringField node "content" = .ok request.content := by
  unfold readRequest at h
  simp only [bind_eq_ok] at h
  obtain ⟨_, _, password, hpassword, _, _, newPassword, hnew, verify, hverify, _, _, content, hcontent,
    _, _, hrequest⟩ := h
  cases Except.ok.inj hrequest
  exact ⟨hpassword, hnew, hverify, hcontent⟩

/-- The names in the body, of which the session may make others. -/
theorem readRequest_names {type : Str} {c : Socket} {garbage : Int} {node : Json} {request : Request}
    (h : readRequest type c garbage node = .ok request) :
    stringField node "username" = .ok request.username ∧
      stringField node "targetUsername" = .ok request.targetUsername := by
  unfold readRequest at h
  simp only [bind_eq_ok] at h
  obtain ⟨username, husername, _, _, _, _, _, _, _, _, target, htarget, _, _, _, _, hrequest⟩ := h
  cases Except.ok.inj hrequest
  exact ⟨husername, htarget⟩

/-- The passwords and the content of a request are those of its body, whoever makes it. -/
theorem ReadFrom.submits {c : Socket} {root : Json} {request : Request}
    (h : ReadFrom c own root request) {received : List (Option Json)} (hmem : some root ∈ received)
    {type : String} (htype : request.type = bytes type) :
    Submits received type "password" request.password ∧
      Submits received type "newPassword" request.newPassword ∧
      Submits received type "verifyPassword" request.verifyPassword ∧
      Submits received type "content" request.content := by
  obtain ⟨node, garbage, body, hheader, hread, hacts⟩ := h
  obtain ⟨hpassword, hnew, hverify, hcontent⟩ := readRequest_fields hread
  rw [htype] at hheader
  rcases hacts with ⟨rfl, _⟩ | rfl
  · exact ⟨⟨root, node, hmem, hheader, hpassword⟩, ⟨root, node, hmem, hheader, hnew⟩,
      ⟨root, node, hmem, hheader, hverify⟩, ⟨root, node, hmem, hheader, hcontent⟩⟩
  · exact ⟨⟨root, node, hmem, hheader, hpassword⟩, ⟨root, node, hmem, hheader, hnew⟩,
      ⟨root, node, hmem, hheader, hverify⟩, ⟨root, node, hmem, hheader, hcontent⟩⟩

/-! ## Around the handlers -/

/-- The operations of `DispatchRequest` itself. -/
inductive Op.Dispatches (c : Socket) : Op → Prop
  | getSession : Op.Dispatches c (.getSession c)
  | getUsername (p : SessionPtr) : Op.Dispatches c (.getUsername p)
  | updateHeartbeat (p : SessionPtr) : Op.Dispatches c (.updateHeartbeat p)
  | uninitialised : Op.Dispatches c .uninitialised
  | parseError : Op.Dispatches c (.sendData c parseError)
  | response (type : Str) (response : Response) :
      Op.Dispatches c (.sendData c (responseFrame type response))

theorem obeys_identify {c : Socket} {request : Request} {f : Request → Action β}
    (hops : ∀ own' o, o.Dispatches c → Ok own' o)
    (hf : ∀ own' request', (request' = request ∧ actingName c own' = [] ∨
      request' = actingAs request (actingName c own')) → (f request').Obeys Ok own') :
    (identify c request >>= f).Obeys Ok own := by
  -- the first of the three calls looks the session up, so the name is the one that is read after it
  have hseen : ∀ session : Option SessionPtr,
      (own ++ [(⟨.getSession c, session⟩ : Call Op Op.Res)]).foldl (sessionSeen c) (none, []) =
        (session, []) := by
    intro session
    rw [List.foldl_append]
    exact if_pos rfl
  refine .call (hops _ _ .getSession) fun session => ?_
  cases session with
  | none => exact hf _ _ (.inl ⟨rfl, congrArg Prod.snd (hseen none)⟩)
  | some session =>
    have hread : ∀ u : Str, (own ++ [(⟨.getSession c, some session⟩ : Call Op Op.Res)] ++
        [(⟨.getUsername session, u⟩ : Call Op Op.Res)]).foldl (sessionSeen c) (none, []) =
          (some session, u) := by
      intro u
      rw [List.foldl_append, hseen]
      exact if_pos rfl
    refine .call (hops _ _ (.getUsername _)) fun (u : Str) => ?_
    show ((if u = [] then pure request else _ : Action Request).bind f).Obeys Ok _
    by_cases hu : u = []
    · rw [if_pos hu]
      exact hf _ _ (.inl ⟨rfl, (congrArg Prod.snd (hread u)).trans hu⟩)
    · rw [if_neg hu]
      refine .call (hops _ _ (.getUsername _)) fun (u' : Str) => hf _ _ (.inr ?_)
      have hname : actingName c (own ++ [(⟨.getSession c, some session⟩ : Call Op Op.Res)] ++
          [(⟨.getUsername session, u⟩ : Call Op Op.Res)] ++
          [(⟨.getUsername session, u'⟩ : Call Op Op.Res)]) = u' := by
        rw [actingName_concat, hread]
        exact congrArg Prod.snd (if_pos rfl)
      exact congrArg (actingAs request) hname.symm

theorem refresh_dispatches (c : Socket) : (refresh c).Uses (Op.Dispatches c) := by
  refine .bind (uses_op .getSession) fun session => ?_
  cases session with
  | none => trivial
  | some session => exact uses_op (.updateHeartbeat session)

/-- The rule for a request. -/
theorem obeys_dispatchRequest {c : Socket} {parsed : Option Json}
    (hops : ∀ own' o, o.Dispatches c → Ok own' o)
    (hserve : ∀ own' root request, parsed = some root → ReadFrom c own' root request →
      (serve P request).Obeys Ok own') : (dispatchRequest P c parsed).Obeys Ok own := by
  cases parsed with
  | none => exact .call (hops _ _ .parseError) fun _ => Prog.obeys_pure _
  | some root =>
    unfold dispatchRequest
    dsimp only
    split
    · exact Prog.obeys_pure _
    rename_i type node hheader
    refine .seq ((refresh_dispatches c).obeys fun o own' ho _ => hops own' o ho) fun _ own₁ _ => ?_
    refine .call (hops _ _ .uninitialised) fun garbage => ?_
    split
    · exact Prog.obeys_pure _
    rename_i body hread
    refine obeys_identify hops fun own₂ request hacts => ?_
    have htype : request.type = type := by
      have hbody := readRequest_type hread
      rcases hacts with ⟨rfl, _⟩ | rfl
      · exact hbody
      · exact hbody
    subst htype
    refine .seq (hserve own₂ root request rfl ⟨node, garbage, body, hheader, hread, hacts⟩)
      fun response _ _ => ?_
    exact .call (hops _ _ (.response _ _)) fun _ => Prog.obeys_pure _

/-- The rule for a connection. -/
theorem obeys_handleClient {c : Socket} {received : List (Option Json)}
    (hops : ∀ own' o, o.Dispatches c → Ok own' o)
    (hexit : ∀ own' o, o.Exits c → o.Ordinary → Ok own' o)
    (hserve : ∀ own' root request, some root ∈ received → ReadFrom c own' root request →
      (serve P request).Obeys Ok own') : (handleClient P c received).Obeys Ok own := by
  induction received generalizing own with
  | nil =>
    have hend := (endConnection_exits c).and (endConnection_ordinary c)
    exact hend.obeys fun o own' ho _ => hexit own' o ho.1 ho.2
  | cons parsed received ih =>
    refine .seq (obeys_dispatchRequest hops ?_) fun served own' _ => ?_
    · intro own' root request hparsed hread
      exact hserve own' root request (hparsed ▸ List.mem_cons_self) hread
    · cases served with
      | ok served =>
        exact ih fun own' root request hmem => hserve own' root request (List.mem_cons_of_mem _ hmem)
      | error e =>
      have hfail := (failConnection_exits c).and (failConnection_ordinary c)
      exact hfail.obeys fun o own' ho _ => hexit own' o ho.1 ho.2

/-- The rule for the threads of the server. -/
theorem obeys_workers {work : Work κ} {Ok : Worker κ → List (Call Op Op.Res) → Op → Prop}
    (haccept : ∀ own o, o.Accepts → Ok .accepting own o)
    (hcheck : ∀ own o c, o.Exits c → o.Ordinary → Ok .checking own o)
    (hops : ∀ k own o, o.Dispatches (work.clientSocket k) → Ok (.handling k) own o)
    (hexit : ∀ k own o, o.Exits (work.clientSocket k) → o.Ordinary → Ok (.handling k) own o)
    (hserve : ∀ k own root request, some root ∈ work.received k →
      ReadFrom (work.clientSocket k) own root request → (serve P request).Obeys (Ok (.handling k)) own)
    (k : Worker κ) : (workers P work k).Obeys (Ok k) [] := by
  cases k with
  | accepting => exact (acceptConnections_accepts _).obeys fun o own ho _ => haccept own o ho
  | handling k => exact obeys_handleClient (hops k) (hexit k) (hserve k)
  | checking =>
    have hrounds : ∀ n, (heartbeatCheckThread n).Uses fun o => ∃ c, o.Exits c := by
      intro n
      induction n with
      | zero => trivial
      | succ n ih => exact .bind heartbeatCheck_exits fun _ => ih
    refine ((hrounds work.rounds).and (heartbeatCheckThread_ordinary _)).obeys fun o own ho _ => ?_
    obtain ⟨⟨c, hexits⟩, hordinary⟩ := ho
    exact hcheck own o c hexits hordinary

end LiteChat
