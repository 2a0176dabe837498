import LiteChat.Proof.Bodies
import LiteChat.Proof.Routing

/-!
# Every request is answered once, or ends the connection

Nothing that a handler says looks like a response, so there is one answer for each request that is
served. Two things keep a request from being answered, or the connection from living on. The fields
are read outside the `try` block, so a body of another shape than `WellShaped` ends the connection
unanswered. And a login kicks the session that its name is routed to without asking whether that is
the session of the request (`KicksItself`).
-/

namespace LiteChat

open LiteChat.Action Server UserManager

variable {P : Platform} {E : Env} {w w' w'' : World P}

/-! ## What code says -/

/-- All that was said since is in `S`. -/
def Says (S : Obs → Prop) (w w' : World P) : Prop :=
  ∃ said, w'.trace = w.trace ++ said ∧ ∀ o ∈ said, S o

theorem Says.refl (S : Obs → Prop) (w : World P) : Says S w w := ⟨[], by simp, nofun⟩

theorem Says.trans {S : Obs → Prop} (h : Says S w w') (h' : Says S w' w'') : Says S w w'' := by
  obtain ⟨said, hsaid, hS⟩ := h
  obtain ⟨said', hsaid', hS'⟩ := h'
  refine ⟨said ++ said', by rw [hsaid', hsaid, List.append_assoc], fun o ho => ?_⟩
  exact (List.mem_append.mp ho).elim (hS o) (hS' o)

theorem Says.of_trace {S : Obs → Prop} (h : w'.trace = w.trace) : Says S w w' :=
  ⟨[], by simp [h], nofun⟩

theorem Says.observe {S : Obs → Prop} {o : Obs} (ho : S o) : Says S w (w.observe o) :=
  ⟨[o], rfl, by simpa using ho⟩

theorem Says.said_trans {S : Obs → Prop} {o : Obs} (h : Says S w w') (h' : Said o w' w'') :
    Said o w w'' := by
  obtain ⟨said, hsaid, _⟩ := h
  obtain ⟨said', hsaid', ho⟩ := h'
  exact ⟨said ++ said', by rw [hsaid', hsaid, List.append_assoc], List.mem_append_right _ ho⟩

theorem Said.trans_speaks {S : Obs → Prop} {o : Obs} (h : Said o w w') (h' : Says S w' w'') :
    Said o w w'' := by
  obtain ⟨said, hsaid, ho⟩ := h
  obtain ⟨said', hsaid', _⟩ := h'
  exact ⟨said ++ said', by rw [hsaid', hsaid, List.append_assoc], List.mem_append_left _ ho⟩

/-- The operations that say nothing but what is in `S`. -/
def Op.Says (S : Obs → Prop) : Op → Prop
  | .sendData c frame => ∀ account ok, S (.sent c account frame ok)
  | .shutdown c => S (.shutdown c)
  | .close c => S (.close c)
  | _ => True

theorem World.handle_speaks {S : Obs → Prop} {o : Op} (ho : o.Says S) (ch : Choice) (w : World P) :
    LiteChat.Says S w (World.handle o ch w).2 := by
  have hfollows := fun ho : World.Follows o => World.handle_follows ho ch w
  cases o with
  | sql st =>
    obtain ⟨db, hw, _⟩ := w.execute_world st ch
    show LiteChat.Says S w (w.execute st ch).2
    rw [hw]
    exact .of_trace rfl
  | getSocket | getUsername | getLastHeartbeat | getIsConnected | setUsername | updateHeartbeat =>
    obtain ⟨sessions, lost, hw⟩ := hfollows trivial
    rw [hw]
    exact .of_trace rfl
  | sendData c frame => exact .observe (ho _ _)
  | shutdown c => exact .observe ho
  | close c => exact ⟨[.close c], rfl, fun o ho' => List.mem_singleton.mp ho' ▸ ho⟩
  | _ => exact .of_trace rfl

theorem wp_speaks {α : Type} {S : Obs → Prop} {p : Action α} (hp : p.Uses (Op.Says S)) :
    wp E p (fun _ w' => Says S w w') w :=
  Effect.Prog.wp_frame hp (Says S) (Says.refl S) (fun _ _ _ => Says.trans)
    fun _ ch t ho _ => World.handle_speaks ho ch t

/-- Whatever is said stays said. -/
theorem wp_saysOn {α : Type} (p : Action α) : wp E p (fun _ w' => Says (fun _ => True) w w') w := by
  refine wp_speaks (p.uses_of_forall fun o => ?_)
  cases o with
  | sendData => exact fun _ _ => trivial
  | _ => trivial

/-- What may be said on the way to an answer: no response, and nothing that ends the connection. -/
def Aside (c : Socket) : Obs → Prop
  | .sent _ _ frame _ => frame.isResponse = false
  | .shutdown d => d ≠ c
  | .close d => d ≠ c

theorem Op.Reads.speaks {o : Op} (ho : o.Reads) (c : Socket) : o.Says (Aside c) := by
  cases o with
  | sendData d frame => exact fun _ _ => ho
  | shutdown | close => exact absurd ho id
  | _ => trivial

theorem Op.WritesOnly.speaks {S : Stmt → Prop} {o : Op} (ho : o.WritesOnly S) (c : Socket) :
    o.Says (Aside c) := by
  rcases ho with ho | ⟨st, rfl, _⟩
  · exact ho.speaks c
  · trivial

/-! ## What a login says -/

theorem cacheFriendList_speaks {S : Obs → Prop} (u : Str) :
    (FriendManager.cacheFriendList u).Uses (Op.Says S) := by
  refine .bind (uses_caught (by trivial) _ _) fun r => ?_
  cases r with
  | none => trivial
  | some i =>
    refine .bind (uses_caught (by trivial) _ _) fun r => ?_
    cases r with
    | none => trivial
    | some friends => exact uses_op trivial

theorem enter_speaks {S : Obs → Prop} (d : Socket) (u : Str) (i : UserId) :
    (enter d u i).Uses (Op.Says S) := by
  refine .bind (uses_caught (by trivial) _ _) fun _ => .bind (uses_caught (by trivial) _ _) fun _ =>
    .bind (uses_op trivial) fun q => ?_
  cases q with
  | none => trivial
  | some q => exact .bind (uses_op trivial) fun _ => .bind (uses_op trivial) fun _ => uses_op trivial

/-- The name is routed to the connection, and that has a session. -/
def RoutedHere (w : World P) (c : Socket) (u : Str) : Prop :=
  w.sessions.route u = some c ∧ w.sessions.getSession c ≠ none

/-- Then the name leads to that session. -/
theorem RoutedHere.byUsername {c : Socket} {u : Str} (h : RoutedHere w c u) :
    ∃ p s, w.sessions.getSessionByUsername u = some p ∧ w.sessions.heap.lookup p = some s ∧
      s.socket = c := by
  obtain ⟨hroute, hsession⟩ := h
  obtain ⟨p, hp⟩ := Option.ne_none_iff_exists'.mp hsession
  obtain ⟨s, hs, hsocket, -⟩ := SessionManager.heap_of_getSession hp
  exact ⟨p, s, (SessionManager.getSessionByUsername_of_route hroute).trans hp, hs, hsocket⟩

theorem wp_kickOld_speaks {c : Socket} {u : Str} (h : ¬ RoutedHere w c u) :
    wp E (kickOld u) (fun _ w' => Says (Aside c) w w') w := by
  unfold kickOld
  simp only [wp_bind, wp_getSessionByUsername]
  cases hp : w.sessions.getSessionByUsername u with
  | none => exact .refl _ w
  | some p =>
    obtain ⟨s, hs, hroute, hsession, _⟩ := w.live_byUsername hp
    have hne : s.socket ≠ c := by
      rintro rfl
      exact h ⟨hroute, by rw [hsession]; simp⟩
    simp only [wp_bind, wp_getSocket hs]
    refine wp_mono (wp_speaks (S := Aside c) (uses_op fun _ _ => by exact rfl)) fun _ w' hw' => ?_
    refine wp_mono (wp_speaks (S := Aside c) (uses_op trivial)) fun _ w'' hw'' => ?_
    exact (wp_shutdown).mpr ((hw'.trans hw'').trans (.observe hne))

theorem wp_leave_speaks {c : Socket} {u : Str} {r : UserRow} (hr : w.db.byId r.userId = some r)
    (h : ¬ (r.isOnline = true ∧ RoutedHere w c u)) :
    wp E (leave u r.userId) (fun _ w' => Says (Aside c) w w') w := by
  unfold leave
  simp only [wp_bind, wp_getUserOnlineStatus, hr, Option.map_some, Option.getD_some]
  refine ⟨fun _ => wp_if (fun hne => absurd hne (by decide)) fun _ => .refl _ w, ?_⟩
  refine wp_if (fun hon => ?_) fun _ => .refl _ w
  simp only [wp_bind, wp_updateOnlineStatus]
  exact ⟨fun _ => wp_kickOld_speaks fun hc => h ⟨hon, hc⟩, wp_kickOld_speaks fun hc => h ⟨hon, hc⟩⟩

/-- The rest of a login, once the old session has been dealt with. -/
theorem login_speaks (c d : Socket) (u : Str) (i : UserId) : (do
    enter d u i
    notifyFriendsStatusChange u .online
    return loginAccepted : Action Response).Uses (Op.Says (Aside c)) :=
  .bind (enter_speaks d u i) fun _ =>
    .bind ((notify_reads u .online).mono fun _ ho => ho.speaks c) fun _ => trivial

/-- What follows an accepted login. -/
theorem welcome_speaks (c : Socket) (u : Str) (response : Response) : (do
    if response.code = 0 then
      FriendManager.cacheFriendList u
      MessageManager.pushOfflineMessages u
    return response : Action Response).Uses (Op.Says (Aside c)) := by
  refine uses_ite (.bind (cacheFriendList_speaks u) fun _ => ?_) trivial
  exact .bind ((pushOfflineMessages_marks u).mono fun _ ho => ho.speaks c) fun _ => trivial

/-- A login that will kick the connection it comes from. -/
def SelfKick (w : World P) (c : Socket) (request : Request) (r : UserRow) : Prop :=
  Accepts w.db request r ∧ r.isOnline = true ∧ RoutedHere w c request.username

theorem wp_serveLogin_speaks {c : Socket} {request : Request} (h : ∀ r, ¬ SelfKick w c request r) :
    wp E (serveLogin P request) (fun _ w' => Says (Aside c) w w') w := by
  have welcome : ∀ (response : Response) (w₁ : World P), Says (Aside c) w w₁ → wp E (do
      if response.code = 0 then
        FriendManager.cacheFriendList request.username
        MessageManager.pushOfflineMessages request.username
      return response) (fun _ w' => Says (Aside c) w w') w₁ := fun response w₁ h₁ =>
    wp_mono (wp_speaks (welcome_speaks c request.username response)) fun _ _ => h₁.trans
  unfold serveLogin
  rw [wp_bind]
  unfold handleLogin
  refine wp_if (fun _ => welcome _ w (.refl _ w)) fun hname => ?_
  have hvalid : validateUsername request.username = true := by simpa using hname
  simp only [wp_bind, wp_getUserByUsername]
  refine ⟨fun _ => welcome _ w (.refl _ w), ?_⟩
  cases hr : w.db.byName request.username with
  | none => exact welcome _ w (.refl _ w)
  | some r =>
    refine wp_if (fun _ => welcome _ w (.refl _ w)) fun hmd5 => ?_
    have haccepts : Accepts w.db request r := ⟨hvalid, hr, by simpa using hmd5⟩
    rw [wp_bind]
    refine wp_mono (wp_leave_speaks (Database.byId_of_byName hr) fun hkick => h r ⟨haccepts, hkick⟩)
      fun _ w₁ h₁ => ?_
    exact wp_mono (wp_speaks (login_speaks c _ _ _)) fun response w₂ h₂ => welcome _ w₂ (h₁.trans h₂)

/-- If no statement fails, a login that kicks its own connection shuts that down. -/
theorem wp_serveLogin_selfKick {c : Socket} {request : Request} {r : UserRow} (hE : ¬ E.dbFails)
    (h : SelfKick w c request r) :
    wp E (serveLogin P request) (fun _ w' => Said (.shutdown c) w w') w := by
  obtain ⟨⟨hvalid, hr, hmd5⟩, hon, hhere⟩ := h
  have hrow := Database.byId_of_byName hr
  obtain ⟨p, _, hbyName, -, -⟩ := hhere.byUsername
  have leaves : wp E (leave request.username r.userId) (fun _ w' => Said (.shutdown c) w w') w := by
    unfold leave
    simp only [wp_bind, wp_getUserOnlineStatus, hrow, Option.map_some, Option.getD_some, hon]
    refine ⟨fun hf => absurd hf hE, wp_if (fun _ => ?_) fun hne => absurd trivial hne⟩
    simp only [wp_bind, wp_updateOnlineStatus]
    refine ⟨fun hf => absurd hf hE, ?_⟩
    apply wp_kickOld
    · intro hnone
      exact absurd (hbyName.symm.trans hnone) (by simp)
    · intro q d w' hq hd hw'
      obtain rfl := Option.some.inj (hhere.1.symm.trans hd)
      obtain ⟨said, rfl⟩ := hw'
      exact ⟨said ++ [.shutdown c], by simp [World.observe], by simp⟩
  unfold serveLogin
  rw [wp_bind]
  unfold handleLogin
  refine wp_if (fun hname => absurd hvalid hname) fun _ => ?_
  simp only [wp_bind, wp_getUserByUsername, hr, Option.map_some]
  refine ⟨fun hf => absurd hf hE, wp_if (fun hne => absurd hmd5 hne) fun _ => ?_⟩
  rw [wp_bind]
  refine wp_mono leaves fun _ w₁ h₁ => ?_
  refine wp_mono (wp_saysOn _) fun response w₂ h₂ => ?_
  exact wp_mono (wp_saysOn _) fun _ w₃ h₃ => (h₁.trans_speaks h₂).trans_speaks h₃

/-! ## What a request says -/

theorem wp_serve_speaks {c : Socket} {request : Request}
    (h : request.type = bytes "LOGIN" → ∀ r, ¬ SelfKick w c request r) :
    wp E (serve P request) (fun _ w' => Says (Aside c) w w') w := by
  by_cases htype : request.type = bytes "LOGIN"
  · rw [serve_login htype]
    exact wp_serveLogin_speaks (h htype)
  · exact wp_speaks (serve_uses (fun _ ho => ho.speaks c) (fun _ => trivial) fun h => absurd h htype)

/-! ## One answer -/

/-- The responses among what was said to a connection. -/
def responsesTo (c : Socket) (said : List Obs) : List Frame :=
  said.filterMap fun o => match o with
    | .sent d _ frame _ => if d = c ∧ frame.isResponse = true then some frame else none
    | _ => none

/-- The frame is the answer that the body asks for: an error if it is no JSON, a response of its type
if it is. -/
def IsAnswerTo (frame : Frame) : Option Json → Prop
  | none => frame = parseError
  | some root => ∃ type node, header root = .ok (type, node) ∧
      frame.type? = some (type ++ bytes "_RESPONSE")

/-- The request is answered by exactly one response, and its connection is not ended. -/
def AnsweredOnce (w : World P) (c : Socket) (parsed : Option Json) (cs : List Choice) : Prop :=
  ∃ served said frame, ((dispatchRequest P c parsed).run cs w).1 = .ok served ∧
    ((dispatchRequest P c parsed).run cs w).2.trace = w.trace ++ said ∧
    responsesTo c said = [frame] ∧ IsAnswerTo frame parsed ∧ .shutdown c ∉ said ∧ .close c ∉ said

/-- The request is a login that will be accepted, of a user whose flag is set, and the session that it
will kick is the one of its own connection. -/
def KicksItself (w : World P) (c : Socket) (root : Json) : Prop :=
  ∃ request r, LoginFor w request r (.request c (some root)) ∧ r.isOnline = true ∧
    RoutedHere w c request.username

theorem responsesTo_aside {c : Socket} {said : List Obs} (h : ∀ o ∈ said, Aside c o) :
    responsesTo c said = [] := by
  refine List.filterMap_eq_nil_iff.mpr fun o ho => ?_
  cases o with
  | sent d account frame ok =>
    have hframe : frame.isResponse = false := h _ ho
    simp [hframe]
  | _ => rfl

/-- What was said on the way, and then the answer. -/
theorem answered_of_speaks {c : Socket} {parsed : Option Json} {cs : List Choice} {said : List Obs}
    {served : Option (Request × Response)} {account : Option UserId} {frame : Frame} {ok : Bool}
    (hserved : ((dispatchRequest P c parsed).run cs w).1 = .ok served)
    (htrace : ((dispatchRequest P c parsed).run cs w).2.trace =
      w.trace ++ said ++ [.sent c account frame ok]) (hsaid : ∀ o ∈ said, Aside c o)
    (hresponse : frame.isResponse = true) (hframe : IsAnswerTo frame parsed) :
    AnsweredOnce w c parsed cs := by
  refine ⟨served, said ++ [.sent c account frame ok], frame, hserved, ?_, ?_, hframe, ?_, ?_⟩
  · rw [htrace, List.append_assoc]
  · unfold responsesTo
    rw [List.filterMap_append]
    have haside := responsesTo_aside hsaid
    unfold responsesTo at haside
    rw [haside]
    simp [hresponse]
  · simp only [List.mem_append, List.mem_singleton, reduceCtorEq, or_false]
    exact fun hmem => hsaid _ hmem rfl
  · simp only [List.mem_append, List.mem_singleton, reduceCtorEq, or_false]
    exact fun hmem => hsaid _ hmem rfl

theorem Frame.isResponse_of_type {frame : Frame} {type : Str}
    (h : frame.type? = some (type ++ bytes "_RESPONSE")) : frame.isResponse = true := by
  cases frame with
  | text s => cases h
  | json j =>
    unfold isResponse
    dsimp only
    rw [h]
    simp

/-! ## When there is one -/

/-- A login on the connection that its session is routed to, as the code comes to it. -/
theorem kicksItself_iff {c : Socket} {root : Json} :
    KicksItself w c root ↔ ∃ garbage request r,
      requestOf w.sessions.logins c garbage root = .ok request ∧ request.type = bytes "LOGIN" ∧
        SelfKick w c request r := by
  constructor
  · rintro ⟨request, r, ⟨garbage, hrequest, htype, haccepts⟩, hon, hhere⟩
    exact ⟨garbage, request, r, hrequest, htype, haccepts, hon, hhere⟩
  · rintro ⟨garbage, request, r, hrequest, htype, haccepts, hon, hhere⟩
    exact ⟨request, r, ⟨garbage, hrequest, htype, haccepts⟩, hon, hhere⟩

theorem Refreshed.selfKick {c : Socket} {request : Request} {r : UserRow} (h : Refreshed w w') :
    SelfKick w' c request r ↔ SelfKick w c request r := by
  unfold SelfKick RoutedHere
  rw [h.db, h.route, h.getSession]

theorem isAnswerTo_response {L : Spec.Logins Socket Str} {c : Socket} {garbage : Int} {root : Json}
    {request : Request} (h : requestOf L c garbage root = .ok request) (response : Response) :
    IsAnswerTo (responseFrame request.type response) (some root) := by
  cases hh : header root with
  | error e =>
    rw [requestOf_eq, hh] at h
    cases h
  | ok r =>
    obtain ⟨type, node⟩ := r
    exact ⟨type, node, hh, by rw [requestOf_type hh h]; rfl⟩

/-- What is left to say once a request has been served is the answer. -/
theorem wp_answer {c : Socket} {parsed : Option Json} {frame : Frame} (hw' : Says (Aside c) w w')
    (hresponse : frame.isResponse = true) (hframe : IsAnswerTo frame parsed) :
    wp E (sendData c frame) (fun _ w'' => ∃ said account ok,
      w''.trace = w.trace ++ said ++ [.sent c account frame ok] ∧ (∀ o ∈ said, Aside c o) ∧
        frame.isResponse = true ∧ IsAnswerTo frame parsed) w' := by
  obtain ⟨said, hsaid, haside⟩ := hw'
  refine wp_sendData.mpr ⟨?_, fun _ => ?_⟩
  · exact ⟨said, _, true, by rw [← hsaid]; rfl, haside, hresponse, hframe⟩
  · exact ⟨said, _, false, by rw [← hsaid]; rfl, haside, hresponse, hframe⟩

theorem answered {c : Socket} {parsed : Option Json}
    (h : ∀ root, parsed = some root → WellShaped root ∧ ¬ KicksItself w c root) (cs : List Choice) :
    AnsweredOnce w c parsed cs := by
  have hwp : wp .any (dispatchRequest P c parsed) (fun answer w' =>
      ∃ served frame, answer = .ok served ∧ ∃ said account ok,
        w'.trace = w.trace ++ said ++ [.sent c account frame ok] ∧ (∀ o ∈ said, Aside c o) ∧
        frame.isResponse = true ∧ IsAnswerTo frame parsed) w := by
    apply wp_dispatchRequest_speaks
    · rintro rfl
      have hframe : IsAnswerTo parseError none := rfl
      refine wp_mono (wp_answer (.refl _ w) rfl hframe) fun _ w' hw' => ?_
      exact ⟨none, parseError, rfl, hw'⟩
    · rintro e root garbage w' rfl herror _
      obtain ⟨request, hok⟩ := requestOf_ok.mpr (h root rfl).1
      exact absurd (hok.symm.trans herror) (by simp)
    · rintro root garbage request w₁ rfl hrequest hw₁
      have hanswer := isAnswerTo_response hrequest
      refine wp_mono (wp_serve_speaks (c := c) fun htype r hkick => ?_) fun response w₂ h₂ => ?_
      · refine (h root rfl).2 (kicksItself_iff.mpr ⟨garbage, request, r, hrequest, htype, ?_⟩)
        exact hw₁.selfKick.mp hkick
      · have hspeaks : Says (Aside c) w w₂ := (Says.of_trace hw₁.trace).trans h₂
        obtain ⟨type, node, _, hframe⟩ := hanswer response
        refine wp_mono (wp_answer hspeaks (Frame.isResponse_of_type hframe) (hanswer response))
          fun _ w₃ h₃ => ?_
        exact ⟨some (request, response), _, rfl, h₃⟩
  obtain ⟨served, frame, hserved, said, account, ok, htrace, hsaid, hresponse, hframe⟩ :=
    run_of_wp hwp cs fun ch _ => Env.ok_any ch
  exact answered_of_speaks hserved htrace hsaid hresponse hframe

/-- A body of another shape ends in an exception. -/
theorem not_answered_of_shape {c : Socket} {root : Json} (h : ¬ WellShaped root) :
    ¬ AnsweredOnce w c (some root) [] := by
  have hwp : wp .any (dispatchRequest P c (some root)) (fun answer _ => ∃ e, answer = .error e) w := by
    apply wp_dispatchRequest_speaks
    · exact nofun
    · exact fun e root garbage w' _ _ _ => ⟨e, rfl⟩
    · rintro root garbage request w₁ ⟨⟩ hrequest _
      exact absurd (requestOf_ok.mp ⟨request, hrequest⟩) h
  rintro ⟨served, said, frame, hserved, _⟩
  obtain ⟨e, he⟩ := run_of_wp hwp [] nofun
  exact absurd (he.symm.trans hserved) (by simp)

/-- A login that kicks its own connection shuts it down. -/
theorem not_answered_of_kick {c : Socket} {root : Json} (h : KicksItself w c root) :
    ¬ AnsweredOnce w c (some root) [] := by
  obtain ⟨g, request, r, hrequest, htype, hkick⟩ := kicksItself_iff.mp h
  have hwp : wp .reliable (dispatchRequest P c (some root))
      (fun _ w' => Said (.shutdown c) w w') w := by
    apply wp_dispatchRequest_speaks
    · exact nofun
    · rintro e root garbage w' ⟨⟩ herror _
      obtain ⟨n, hn⟩ := requestOf_garbage hrequest garbage
      exact absurd (hn.symm.trans herror) (by simp)
    · rintro root garbage request' w₁ ⟨⟩ hrequest' hw₁
      obtain ⟨n, hn⟩ := requestOf_garbage hrequest garbage
      obtain rfl := Except.ok.inj (hn.symm.trans hrequest')
      rw [serve_login (by exact htype)]
      refine wp_mono (wp_serveLogin_selfKick id (hw₁.selfKick.mpr hkick)) fun _ w₂ h₂ => ?_
      refine wp_mono (wp_saysOn _) fun _ w₃ h₃ => ?_
      exact (Says.of_trace (S := fun _ => True) hw₁.trace).said_trans (h₂.trans_speaks h₃)
  rintro ⟨served, said, frame, _, htrace, _, _, hshutdown, _⟩
  obtain ⟨said', htrace', hmem⟩ := run_of_wp hwp [] nofun
  exact hshutdown (List.append_cancel_left (htrace.symm.trans htrace') ▸ hmem)

/-- **A body is answered once, whatever fails, exactly if it is no JSON, or well shaped and no login
that kicks its own connection.** A member of a wrong type throws where nothing catches it, so that the
connection ends without an answer; and a login that kicks its own connection shuts it down before the
answer is written. -/
theorem answeredOnce_iff (w : World P) (c : Socket) (parsed : Option Json) :
    (∀ cs, AnsweredOnce w c parsed cs) ↔
      ∀ root, parsed = some root → WellShaped root ∧ ¬ KicksItself w c root := by
  refine ⟨fun h root hroot => ⟨?_, ?_⟩, answered⟩
  · by_contra hshape
    exact not_answered_of_shape hshape (hroot ▸ h [])
  · intro hkick
    exact not_answered_of_kick hkick (hroot ▸ h [])

/-- An empty array is a body that ends the connection. -/
theorem not_answeredOnce : ¬ ∀ (es : List (Event × List Choice)) (c : Socket) (parsed : Option Json)
    (cs : List Choice), Event.Enabled asciiCi (Effect.runAll next
      (World.start (Database.empty : Database asciiCi)) es) (.request c parsed) →
    AnsweredOnce (Effect.runAll next (World.start (Database.empty : Database asciiCi)) es) c parsed cs := by
  intro h
  have hanswered := h [(.accept 1, [])] 1 (some (.arr [])) [] (by decide)
  exact not_answered_of_shape (fun hshape => absurd hshape.body (by decide)) hanswered

end LiteChat
