import LiteChat.Proof.Delivery
import LiteChat.Proof.Layouts

/-!
# The three queries about a user's status

`HandleFriendStatus` and `HandleQueryFriend` look up the target, `HandleQueryStatus` the name of the
request. On a connection that somebody is logged in on that name is his own by then, however the user in
question was named. So the three agree exactly if the one who asks has the same status
(`statusAgrees_iff`).
-/

namespace LiteChat

open LiteChat.Action Server UserManager FriendManager

variable {P : Platform} {E : Env} {w : World P} {c : Socket} {u x : Str}

/-- How a request names a user: by `username` alone, or by `targetUsername`. -/
inductive Naming
  | username
  | targetUsername (name : Option Str)

/-- The fields of a request that names a user and says nothing else. -/
def Naming.fields (naming : Naming) (x : Str) : Fields :=
  { username := match naming with
      | .username => some x
      | .targetUsername name => name
    password := none
    newUsername := none
    newPassword := none
    verifyPassword := none
    targetUsername := match naming with
      | .username => none
      | .targetUsername _ => some x
    content := none
    count := none }

/-- The types of the queries about a user's status. -/
def statusQueries : List Str := [bytes "QUERY_STATUS", bytes "FRIEND_STATUS", bytes "QUERY_FRIEND"]

/-- The status that a response tells. -/
def statusIn (response : Response) : Option Str :=
  (response.data.bind (Json.member? (bytes "status"))).bind Json.str?

/-- A response tells this status. -/
def TellsStatus (isOnline : Bool) (response : Response) : Prop :=
  response.code = 0 ∧ statusIn response = some (statusOf isOnline).text

/-- Asked about `x` in one way, all three queries tell this status. -/
def StatusAgrees (w : World P) (c : Socket) (naming : Naming) (x : Str) (isOnline : Bool) : Prop :=
  ∀ type ∈ statusQueries, ∀ root, (naming.fields x).Body type root →
    ∀ cs : List Choice, (∀ ch ∈ cs, ch.dbOk = true) → ∃ request response,
      ((dispatchRequest P c (some root)).run cs w).1 = .ok (some (request, response)) ∧
      TellsStatus isOnline response

/-- Who asks is in the name, who is asked about in the target. -/
theorem requestOf_naming (hl : w.sessions.logins.At c u) (hx : x ≠ []) {naming : Naming}
    {type : Str} {root : Json} (hroot : (naming.fields x).Body type root) (garbage : Int) :
    ∃ request, requestOf w.sessions.logins c garbage root = .ok request ∧ request.type = type ∧
      request.username = u ∧ targetOf request = x := by
  have hread : ∃ request, readRequest type c garbage (.obj (naming.fields x).members) = .ok request ∧
      request.type = type ∧ targetOf (actingAs request u) = x := by
    cases naming with
    | username =>
      refine ⟨_, rfl, rfl, ?_⟩
      unfold targetOf actingAs
      simp [hx]
    | targetUsername name =>
      cases name with
      | none =>
        refine ⟨_, rfl, rfl, ?_⟩
        unfold targetOf actingAs
        simp [hx]
      | some name =>
        refine ⟨_, rfl, rfl, ?_⟩
        unfold targetOf actingAs
        simp [hx]
  obtain ⟨request, hrequest, htype, htarget⟩ := hread
  refine ⟨actingAs request u, ?_, htype, rfl, htarget⟩
  rw [hroot.requestOf_eq, hrequest]
  unfold identified
  rw [show w.sessions.logins.login c = some (some u) from hl]
  rfl

theorem TellsStatus.unique {b b' : Bool} {response : Response} (h : TellsStatus b response)
    (h' : TellsStatus b' response) : b = b' := by
  have htext := h.2.symm.trans h'.2
  revert htext
  cases b <;> cases b' <;> decide

/-- What a response says about a user, who may not be there. -/
def TellsOf (row : Option UserRow) (response : Response) : Prop :=
  match row with
  | some r => TellsStatus r.isOnline response
  | none => response.code ≠ 0

/-- `QUERY_STATUS` is about whoever asks: the handler looks up `username` and never reads the target. -/
theorem wp_handleQueryStatus (hE : ¬ E.dbFails) (request : Request) :
    wp E (handleQueryStatus request)
      (fun response _ => TellsOf (w.db.byName request.username) response) w := by
  unfold handleQueryStatus
  simp only [wp_bind, wp_getUserByUsername]
  refine ⟨fun hf => absurd hf hE, ?_⟩
  cases hr : w.db.byName request.username with
  | none =>
    show (2003 : Int) ≠ 0
    decide
  | some r =>
    simp only [Option.map_some, wp_bind, wp_getUserOnlineStatus, Database.byId_of_byName hr]
    exact ⟨fun hf => absurd hf hE, rfl, rfl⟩

/-- The other two queries are about the target. -/
theorem wp_queryTarget_status (hE : ¬ E.dbFails) {request : Request} {answer : Str → Bool → Response}
    {r : UserRow} (hx : targetOf request ≠ []) (hr : w.db.byName (targetOf request) = some r)
    (hanswer : ∀ name isOnline, TellsStatus isOnline (answer name isOnline)) :
    wp E (queryTarget request answer) (fun response _ => TellsStatus r.isOnline response) w := by
  unfold queryTarget
  refine wp_if (fun h => absurd h hx) fun _ => ?_
  simp only [wp_bind, wp_getUserIdByUsername]
  refine ⟨fun hf => absurd hf hE, ?_⟩
  unfold Database.idOf
  rw [hr]
  simp only [Option.map_some, wp_bind, wp_getUserOnlineStatus, Database.byId_of_byName hr]
  exact ⟨fun hf => absurd hf hE, hanswer _ _⟩

/-- A query that is served ends with a response to it. -/
theorem wp_dispatch_naming (hl : w.sessions.logins.At c u) (hx : x ≠ []) {naming : Naming}
    {type : Str} {root : Json} (hroot : (naming.fields x).Body type root) {Q : Response → Prop}
    (h : ∀ request (w₁ : World P), w₁.db = w.db → request.type = type →
      request.username = u → targetOf request = x →
      wp E (serve P request) (fun response _ => Q response) w₁) :
    wp E (dispatchRequest P c (some root)) (fun result _ =>
      ∃ request response, result = .ok (some (request, response)) ∧ Q response) w := by
  apply wp_dispatchRequest
  · exact nofun
  · intro e _ garbage w₁ hsame herror _
    obtain ⟨request, hrequest, -⟩ := requestOf_naming hl hx hroot garbage
    rw [← Option.some.inj hsame, hrequest] at herror
    cases herror
  · intro _ garbage request w₁ hsame hok hw₁
    obtain ⟨request', hrequest, htype, hname, htarget⟩ := requestOf_naming hl hx hroot garbage
    rw [← Option.some.inj hsame, hrequest] at hok
    obtain rfl := Except.ok.inj hok
    exact wp_mono (h request' w₁ hw₁.db htype hname htarget) fun response _ hresponse _ _ =>
      ⟨request', response, rfl, hresponse⟩

/-- What `QUERY_STATUS` answers, whoever it is about. -/
theorem run_queryStatus (hl : w.sessions.logins.At c u) (hx : x ≠ []) {naming : Naming} {root : Json}
    (hroot : (naming.fields x).Body (bytes "QUERY_STATUS") root) {cs : List Choice}
    (hcs : ∀ ch ∈ cs, ch.dbOk = true) : ∃ request response,
      ((dispatchRequest P c (some root)).run cs w).1 = .ok (some (request, response)) ∧
      TellsOf (w.db.byName u) response := by
  refine run_of_wp (wp_dispatch_naming (E := .reliable) hl hx hroot ?_) cs
    fun ch hch => Env.ok_reliable.mpr (hcs ch hch)
  intro request w₁ hdb htype hname _
  have hserve : serve P request = handleQueryStatus request := by
    unfold serve
    rw [htype]
    rfl
  rw [hserve, ← hdb, ← hname]
  exact wp_handleQueryStatus id request

/-- What the other two answer. -/
theorem run_queryTarget {r : UserRow} (hl : w.sessions.logins.At c u) (hx : x ≠ [])
    (hr : w.db.byName x = some r) {naming : Naming} {type : Str} {root : Json}
    (hroot : (naming.fields x).Body type root) {answer : Str → Bool → Response}
    (hserve : ∀ request : Request, request.type = type → serve P request = queryTarget request answer)
    (hanswer : ∀ name isOnline, TellsStatus isOnline (answer name isOnline)) {cs : List Choice}
    (hcs : ∀ ch ∈ cs, ch.dbOk = true) : ∃ request response,
      ((dispatchRequest P c (some root)).run cs w).1 = .ok (some (request, response)) ∧
      TellsStatus r.isOnline response := by
  refine run_of_wp (wp_dispatch_naming (E := .reliable) hl hx hroot ?_) cs
    fun ch hch => Env.ok_reliable.mpr (hcs ch hch)
  intro request w₁ hdb htype _ hname
  rw [hserve request htype]
  exact wp_queryTarget_status id (hname ▸ hx) (hname ▸ hdb ▸ hr) hanswer

/-- If the queries agree, then on the status of the one who asks. -/
theorem StatusAgrees.own {isOnline : Bool} {naming : Naming}
    (h : StatusAgrees w c naming x isOnline) (hl : w.sessions.logins.At c u) (hx : x ≠ []) :
    ∃ me, w.db.byName u = some me ∧ me.isOnline = isOnline := by
  have hnone : ∀ ch ∈ ([] : List Choice), ch.dbOk = true := nofun
  obtain ⟨request, response, hresponse, htells⟩ := h (bytes "QUERY_STATUS") (by decide) _ .flat []
    hnone
  obtain ⟨request', response', hresponse', hown⟩ := run_queryStatus hl hx .flat hnone
  obtain ⟨-, rfl⟩ := Prod.mk.inj (Option.some.inj (Except.ok.inj (hresponse.symm.trans hresponse')))
  unfold TellsOf at hown
  cases hme : w.db.byName u with
  | none =>
    rw [hme] at hown
    exact absurd htells.1 hown
  | some me =>
    rw [hme] at hown
    exact ⟨me, rfl, hown.unique htells⟩

/-- **The three status queries agree** exactly if the one who asks has an account, and that has the same
status. `QUERY_STATUS` reads the name of the user, not of the target, so that it tells everybody their
own status. -/
theorem statusAgrees_iff {r : UserRow} (hl : w.sessions.logins.At c u) (hx : x ≠ [])
    (hr : w.db.byName x = some r) (naming : Naming) :
    StatusAgrees w c naming x r.isOnline ↔
      ∃ me, w.db.byName u = some me ∧ me.isOnline = r.isOnline := by
  refine ⟨fun h => h.own hl hx, ?_⟩
  -- two of the queries are about `x` in any case, the third by the assumption
  rintro ⟨me, hme, hsame⟩ type htype root hroot cs hcs
  simp only [statusQueries, List.mem_cons, List.not_mem_nil, or_false] at htype
  rcases htype with rfl | rfl | rfl
  · obtain ⟨request, response, hresponse, hown⟩ := run_queryStatus hl hx hroot hcs
    rw [hme] at hown
    exact ⟨request, response, hresponse, hsame ▸ hown⟩
  · have hserve : ∀ request : Request, request.type = bytes "FRIEND_STATUS" →
        serve P request = handleFriendStatus request := by
      intro request htype
      unfold serve
      rw [htype]
      rfl
    exact run_queryTarget hl hx hr hroot hserve (fun _ _ => ⟨rfl, rfl⟩) hcs
  · have hserve : ∀ request : Request, request.type = bytes "QUERY_FRIEND" →
        serve P request = handleQueryFriend request := by
      intro request htype
      unfold serve
      rw [htype]
      rfl
    exact run_queryTarget hl hx hr hroot hserve (fun _ _ => ⟨rfl, rfl⟩) hcs

/-- Alice is logged in, Bob has never been. -/
def aliceOnline : World asciiCi :=
  Effect.runAll next (World.start Database.empty) (aliceRegisters ++ [bobRegisters, aliceLogsIn])

theorem aliceOnline_at : aliceOnline.sessions.logins.At 1 (bytes "alice") :=
  SessionManager.at_iff.mpr ⟨by decide, by decide⟩

/-- Alice asks about herself. -/
theorem statusAgrees_self : aliceOnline.db.byName (bytes "alice") =
      some ⟨1, bytes "alice", asciiCi.md5 (bytes "secret"), true, some 0⟩ ∧
    StatusAgrees aliceOnline 1 .username (bytes "alice") true := by
  have hrow : aliceOnline.db.byName (bytes "alice") =
      some ⟨1, bytes "alice", asciiCi.md5 (bytes "secret"), true, some 0⟩ := by decide
  exact ⟨hrow, (statusAgrees_iff aliceOnline_at (by decide) hrow .username).mpr ⟨_, hrow, rfl⟩⟩

/-- Asked about Bob, `QUERY_STATUS` tells that Alice is online. -/
theorem not_statusAgrees : ¬ ∀ (w : World asciiCi) (c : Socket) (u x : Str) (r : UserRow)
    (naming : Naming), w.sessions.logins.At c u → x ≠ [] → w.db.byName x = some r →
      StatusAgrees w c naming x r.isOnline := by
  intro h
  have hrow : aliceOnline.db.byName (bytes "bob") =
      some ⟨2, bytes "bob", asciiCi.md5 (bytes "qwerty"), false, none⟩ := by decide
  have hagrees := h aliceOnline 1 _ _ _ .username aliceOnline_at (by decide) hrow
  obtain ⟨me, hme, hoffline⟩ := hagrees.own aliceOnline_at (by decide)
  have honline : (aliceOnline.db.byName (bytes "alice")).map (·.isOnline) = some true := by decide
  rw [hme] at honline
  exact absurd ((Option.some.inj honline).symm.trans hoffline) (by decide)

end LiteChat
