import LiteChat.Proof.Events

/-!
# Who a connection can act as

`DispatchRequest` takes the acting user from the session when somebody is logged in there
(`identified`), and from the body when nobody is. The handlers behind it check that the name exists
and nothing else. So what a connection can do as somebody else depends on its session alone: with
somebody logged in it acts as that user whatever the body says, and with nobody logged in it acts
as whom it likes.
-/

namespace LiteChat

open LiteChat.Action Spec Server

variable {P : Platform} {E : Env} {w : World P} {c : Socket}

/-- The requests that change or read the friends or messages of the user who makes them. -/
def userRequests : List Str :=
  [bytes "ADD_FRIEND", bytes "DEL_FRIEND", bytes "FRIEND_LIST", bytes "SEND_MSG",
   bytes "HISTORY_MSG"]

/-- Somebody is logged in on the connection. -/
def LoggedInAt (w : World P) (c : Socket) : Prop := ∃ u, w.sessions.logins.At c u

/-- Whatever request is carried out for a connection, it is carried out for the user who is logged
in there. -/
def ActsOnlyAsLoggedIn (w : World P) (c : Socket) : Prop :=
  ∀ parsed cs request response,
    (step w (.request c parsed) cs).1 = some (request, response) →
    request.type ∈ userRequests → response.code = 0 → w.sessions.logins.At c request.username

/-! ## With a login -/

/-- A session decides who acts: what the request says of the user's name is overwritten by the name that
the connection has logged in under. -/
theorem requestOf_username {L : Logins Socket Str} {u : Str} (hu : L.At c u) {garbage : Int}
    {root : Json} {request : Request} (h : requestOf L c garbage root = .ok request) :
    request.username = u := by
  rw [requestOf_eq] at h
  split at h
  · cases h
  split at h
  · cases h
  · rw [← Except.ok.inj h]
    unfold identified
    rw [hu]
    rfl

/-! ## Without users -/

/-- With an empty table of users every request that acts for somebody is refused, since no name leads to
an account. -/
theorem wp_serve_noUsers {request : Request} (hw : w.db.users = [])
    (htype : request.type ∈ userRequests) :
    wp E (serve P request) (fun response _ => response.code ≠ 0) w := by
  have hnone : ∀ u, w.db.idOf u = none := by
    intro u
    rw [Database.idOf_eq_none, Database.byName_eq_none, hw]
    simp
  have hadd : wp E (FriendManager.handleAddFriend request) (fun response _ => response.code ≠ 0) w := by
    unfold FriendManager.handleAddFriend
    refine wp_if (fun _ => ?_) fun _ => wp_if (fun _ => ?_) fun _ => ?_
    · simp [FriendManager.noTarget]
    · simp
    · simp [hnone]
  have hdel : wp E (FriendManager.handleDeleteFriend request)
      (fun response _ => response.code ≠ 0) w := by
    unfold FriendManager.handleDeleteFriend
    refine wp_if (fun _ => ?_) fun _ => ?_
    · simp [FriendManager.noTarget]
    · simp [hnone]
  have hlist : wp E (FriendManager.handleFriendList request)
      (fun response _ => response.code ≠ 0) w := by
    simp [FriendManager.handleFriendList, hnone]
  have hsend : wp E (MessageManager.handleSendMessage request)
      (fun response _ => response.code ≠ 0) w := by
    unfold MessageManager.handleSendMessage
    refine wp_if (fun _ => ?_) fun _ => wp_if (fun _ => ?_) fun _ => ?_
    · simp
    · simp
    · simp [hnone]
  have hhistory : wp E (MessageManager.handleHistoryMessages request)
      (fun response _ => response.code ≠ 0) w := by
    unfold MessageManager.handleHistoryMessages
    refine wp_if (fun _ => ?_) fun _ => ?_
    · simp
    · simp [hnone]
  unfold serve
  simp only [userRequests, List.mem_cons, List.not_mem_nil, or_false] at htype
  rcases htype with h | h | h | h | h <;> rw [h]
  · exact hadd
  · exact hdel
  · exact hlist
  · exact hsend
  · exact hhistory

theorem wp_handleData_noUsers (hw : w.db.users = []) (parsed : Option Json) :
    wp E (handleData P c parsed) (fun served _ => ∀ request response,
      served = some (request, response) → request.type ∈ userRequests → response.code ≠ 0) w := by
  unfold handleData
  rw [wp_bind]
  apply wp_dispatchRequest
  · exact fun _ w' _ request response h => absurd h (by simp)
  · intro e root garbage w₁ _ _ _
    rw [wp_bind]
    exact wp_failConnection fun w' _ _ request response h => absurd h (by simp)
  · intro root garbage request w₁ _ _ hquiet
    by_cases htype : request.type ∈ userRequests
    · refine wp_mono (wp_serve_noUsers (hquiet.db ▸ hw) htype) fun response w₂ hcode w₃ _ => ?_
      intro request' response' h _
      obtain ⟨-, rfl⟩ := Prod.mk.inj (Option.some.inj h)
      exact hcode
    · refine wp_mono (wp_serve request) fun response w₂ _ w₃ _ => ?_
      intro request' response' h htype'
      obtain ⟨rfl, -⟩ := Prod.mk.inj (Option.some.inj h)
      exact absurd htype' htype

/-! ## Without a login -/

/-- A body that asks for somebody's friend list. -/
def askFriendList (u : Str) : Json :=
  .obj [(bytes "type", .str (bytes "FRIEND_LIST")), (bytes "username", .str u)]

theorem requestOf_askFriendList {L : Logins Socket Str} (hc : ∀ u, ¬ L.At c u) (garbage : Int)
    (u : Str) : ∃ request, requestOf L c garbage (askFriendList u) = .ok request ∧
      request.type = bytes "FRIEND_LIST" ∧ request.username = u := by
  have hread : ∃ request, readRequest (bytes "FRIEND_LIST") c garbage (askFriendList u) =
      .ok request ∧ request.type = bytes "FRIEND_LIST" ∧ request.username = u :=
    ⟨_, rfl, rfl, rfl⟩
  obtain ⟨request, hread, htype, husername⟩ := hread
  refine ⟨request, ?_, htype, husername⟩
  have hheader : header (askFriendList u) = .ok (bytes "FRIEND_LIST", askFriendList u) := rfl
  simp only [requestOf_eq, hheader, hread]
  unfold identified
  cases hl : L.login c with
  | none => rfl
  | some name =>
    cases name with
    | none => rfl
    | some v => exact absurd hl (hc v)

/-- The answer is the list, whoever asks. -/
theorem wp_askFriendList {r : UserRow} (hr : r ∈ w.db.users) (hE : ¬ E.dbFails)
    (hc : ∀ u, ¬ w.sessions.logins.At c u) :
    wp E (handleData P c (some (askFriendList r.username))) (fun served _ =>
      ∃ request response, served = some (request, response) ∧
        request.type = bytes "FRIEND_LIST" ∧ response.code = 0) w := by
  have hrequest := fun garbage => requestOf_askFriendList (c := c) hc garbage r.username
  unfold handleData
  rw [wp_bind]
  apply wp_dispatchRequest
  · intro h
    exact absurd h (by simp)
  · intro e root garbage w₁ hroot herror _
    obtain ⟨request, hok, _⟩ := hrequest garbage
    rw [← Option.some.inj hroot, hok] at herror
    cases herror
  · intro root garbage request w₁ hroot hok hquiet
    obtain ⟨request', hok', htype, husername⟩ := hrequest garbage
    rw [← Option.some.inj hroot, hok'] at hok
    obtain rfl := Except.ok.inj hok
    have hid : w₁.db.idOf request'.username = some r.userId := by
      rw [hquiet.db, husername, Database.idOf, Database.byName_self hr]
      rfl
    unfold serve
    rw [htype]
    refine wp_mono (Q := fun response _ => response.code = 0) ?_ fun response w₂ hcode w₃ _ => ?_
    · show wp E (FriendManager.handleFriendList request') _ w₁
      simp [FriendManager.handleFriendList, hid, hE]
    · exact ⟨request', response, rfl, htype, hcode⟩

/-! ## The condition -/

/-- **A connection acts only as the user logged in there exactly if there is one.** (Or if it is not a
connection, or if there is no user to act as.) Without a login the name in the body is believed, so that
anybody's friend list can be asked for by writing that name into it. -/
theorem actsOnlyAsLoggedIn_iff (w : World P) (c : Socket) :
    ActsOnlyAsLoggedIn w c ↔ c ∉ w.openSockets ∨ LoggedInAt w c ∨ w.db.users = [] := by
  constructor
  · intro h
    by_contra hnot
    simp only [not_or, not_not] at hnot
    obtain ⟨hopen, hnobody, husers⟩ := hnot
    have hc : ∀ u, ¬ w.sessions.logins.At c u := fun u hu => hnobody ⟨u, hu⟩
    obtain ⟨r, hr⟩ := List.exists_mem_of_ne_nil _ husers
    -- the first user's friend list, asked for by name, is an answer of code 0
    have hwp : wp ⟨False, True⟩ (handleData P c (some (askFriendList r.username))) _ w :=
      wp_askFriendList hr id hc
    obtain ⟨request, response, hserved, htype, hcode⟩ := run_of_wp hwp [] (by simp)
    refine hc request.username (h (some (askFriendList r.username)) [] request response ?_ ?_ hcode)
    · unfold step
      rw [if_pos (show Event.Enabled P w (.request c _) from hopen)]
      exact hserved
    · rw [htype]
      decide
  · intro h parsed cs request response hstep htype hcode
    rcases h with hclosed | ⟨u, hu⟩ | husers
    · unfold step at hstep
      rw [if_neg (show ¬ Event.Enabled P w (.request c parsed) from hclosed)] at hstep
      cases hstep
    · have happens := step_happens .any w (.request c parsed) cs fun ch _ => Env.ok_any ch
      rw [hstep] at happens
      -- only a request that is served is answered
      cases happens with
      | served _ root garbage _ _ w₁ w₂ _ _ hrequest =>
        rw [requestOf_username hu hrequest]
        exact hu
    · unfold step at hstep
      split at hstep
      · have hwp : wp .any (handleData P c parsed) _ w := wp_handleData_noUsers husers parsed
        exact absurd hcode
          (run_of_wp hwp cs (fun ch _ => Env.ok_any ch) request response hstep htype)
      · cases hstep

/-- One user has registered, and a second connection was accepted. -/
def oneRegistered : World asciiCi :=
  Effect.runAll next (World.start Database.empty)
    [(.accept 1, []),
     (.request 1 (flatBody [("type", "REGISTER"), ("username", "alice"), ("password", "secret")]), []),
     (.accept 2, [])]

/-- The second connection, on which nobody is logged in, gets the first user's friend list. -/
theorem not_actsOnlyAsLoggedIn : ¬ ActsOnlyAsLoggedIn oneRegistered 2 := by
  intro h
  have hserved : (step oneRegistered (.request 2 (some (askFriendList (bytes "alice")))) []).1.map
      (fun served => (served.1.type, served.2.code)) = some (bytes "FRIEND_LIST", 0) := by decide
  obtain ⟨⟨request, response⟩, hstep, hvals⟩ := Option.map_eq_some_iff.mp hserved
  obtain ⟨htype, hcode⟩ := Prod.mk.inj hvals
  have hat := h _ [] request response hstep (by rw [htype]; decide) hcode
  have hnobody : oneRegistered.sessions.loginAt 2 = some [] := by decide
  have hname := SessionManager.at_iff.mp hat
  exact hname.2 (Option.some.inj (hname.1.symm.trans hnobody))

end LiteChat
