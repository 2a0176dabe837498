import LiteChat.Proof.Routing

/-!
# A refusal changes nothing

Every handler but `HandleUpdateUser` decides before it writes: the statement that may still fail is
the last one the response depends on. So a response with another code than 0 comes with the tables,
the names of the sessions, the routes and the cached friend lists as they were, and the queries never
change any of them. What does change is the time of the session's last heartbeat.
-/

namespace LiteChat

open LiteChat.Action Server

variable {P : Platform} {E : Env} {w w' w'' : World P}

/-- The tables, the names of the sessions, the routes and the cached friend lists are as they were. -/
structure SameData (w w' : World P) : Prop where
  users : w'.db.users = w.db.users
  friends : w'.db.friends = w.db.friends
  messages : w'.db.messages = w.db.messages
  loginAt : ∀ c, w'.sessions.loginAt c = w.sessions.loginAt c
  route : ∀ u, w'.sessions.route u = w.sessions.route u
  cachedFriendLists : w'.cachedFriendLists = w.cachedFriendLists

/-- The types of requests that only ask. -/
def Queries (type : Str) : Prop :=
  type ∈ [bytes "QUERY_STATUS", bytes "FRIEND_LIST", bytes "FRIEND_STATUS", bytes "QUERY_FRIEND",
    bytes "HISTORY_MSG", bytes "HEARTBEAT"]

instance (type : Str) : Decidable (Queries type) := by
  unfold Queries
  infer_instance

theorem SameData.of_eq (hdb : w'.db = w.db) (hsessions : w'.sessions = w.sessions)
    (hcache : w'.cachedFriendLists = w.cachedFriendLists) : SameData w w' := by
  refine ⟨?_, ?_, ?_, fun c => ?_, fun u => ?_, hcache⟩
  · rw [hdb]
  · rw [hdb]
  · rw [hdb]
  · rw [hsessions]
  · rw [hsessions]

theorem SameData.refl (w : World P) : SameData w w := .of_eq rfl rfl rfl

theorem SameData.trans (h : SameData w w') (h' : SameData w' w'') : SameData w w'' where
  users := h'.users.trans h.users
  friends := h'.friends.trans h.friends
  messages := h'.messages.trans h.messages
  loginAt c := (h'.loginAt c).trans (h.loginAt c)
  route u := (h'.route u).trans (h.route u)
  cachedFriendLists := h'.cachedFriendLists.trans h.cachedFriendLists

theorem SameData.of_talks (h : Talks w w') : SameData w w' := by
  obtain ⟨said, rfl⟩ := h
  exact .of_eq rfl rfl rfl

/-! ## Code that reads -/

theorem World.handle_reads {o : Op} (ho : o.Reads) (ch : Choice) (w : World P) :
    SameData w (World.handle o ch w).2 := by
  have hderefs := fun ho : World.Derefs o => World.handle_derefs ho ch w
  cases o with
  | addSession | removeSession | bindUsername | setUsername | updateHeartbeat | accept | shutdown
  | close | addConnections | cacheInsert | cacheErase => exact absurd ho id
  | sql st =>
    obtain ⟨db, hw, hdb⟩ := w.execute_world st ch
    show SameData w (w.execute st ch).2
    rw [hw]
    rcases hdb with rfl | ⟨r, hex⟩
    · exact .refl w
    · rw [Database.exec_reads ho hex]
      exact .refl w
  | getSocket | getUsername | getLastHeartbeat | getIsConnected =>
    obtain ⟨lost, hw⟩ := hderefs trivial
    rw [hw]
    exact .of_eq rfl rfl rfl
  | _ => exact .of_eq rfl rfl rfl

theorem wp_same {α : Type} {p : Action α} (hp : p.Uses Op.Reads) :
    wp E p (fun _ w' => SameData w w') w :=
  Effect.Prog.wp_frame hp SameData SameData.refl (fun _ _ _ => SameData.trans)
    fun _ ch t ho _ => World.handle_reads ho ch t

theorem Refreshed.same (h : Refreshed w w') : SameData w w' := by
  obtain ⟨sessions, hrest⟩ := h.rest
  refine ⟨?_, ?_, ?_, h.loginAt, h.route, ?_⟩
  all_goals rw [hrest]

/-! ## Requests -/

/-- Nothing is promised of an accepted request that is no query. -/
theorem same_of_accepted {type : Str} (htype : ¬ Queries type) {response : Response}
    (hcode : response.code = 0) : response.code ≠ 0 ∨ Queries type → SameData w w' :=
  fun h => h.elim (absurd hcode) fun hq => absurd hq htype

/-- A request that is refused, or that only asks, leaves the data alone. `UPDATE_USER` is left out: it
may have written the name by the time it refuses the password. -/
theorem wp_serve_same {request : Request} (hupdate : request.type ≠ bytes "UPDATE_USER") :
    wp E (serve P request)
      (fun response w' => response.code ≠ 0 ∨ Queries request.type → SameData w w') w := by
  have refused : ∀ response : Response,
      response.code ≠ 0 ∨ Queries request.type → SameData w w := fun _ _ => .refl w
  have reads : ∀ {p : Action Response}, p.Uses Op.Reads →
      wp E p (fun response w' => response.code ≠ 0 ∨ Queries request.type → SameData w w') w :=
    fun hp => wp_mono (wp_same hp) fun _ _ hw _ => hw
  unfold Server.serve
  refine wp_if (fun htype => ?_) fun _ => wp_if (fun htype => ?_) fun _ =>
    wp_if (fun htype => absurd htype hupdate) fun _ =>
    wp_if (fun _ => reads (handleQueryStatus_reads request)) fun _ =>
    wp_if (fun htype => ?_) fun _ => wp_if (fun htype => ?_) fun _ =>
    wp_if (fun _ => reads (handleFriendList_reads request)) fun _ =>
    wp_if (fun _ => reads (queryTarget_reads request _)) fun _ =>
    wp_if (fun _ => reads (queryTarget_reads request _)) fun _ =>
    wp_if (fun htype => ?_) fun _ =>
    wp_if (fun _ => reads (handleHistoryMessages_reads request)) fun _ =>
      reads (uses_ite trivial trivial)
  · refine wp_handleRegister (fun response _ => refused response) fun db _ _ => ?_
    exact same_of_accepted (htype ▸ by decide) rfl
  · refine wp_mono (wp_serveLogin htype) fun response w' hserves => ?_
    cases hserves with
    | refused => exact refused _
    | loggedIn => exact same_of_accepted (htype ▸ by decide) rfl
    | registered _ _ hregister => exact absurd (htype.symm.trans hregister) (by decide)
    | updated _ _ _ htype' => exact absurd htype' hupdate
    | other _ _ hlogin => exact absurd htype hlogin
  · refine wp_of_wpj (wpj_handleAddFriend (fun response _ _ _ => refused response) ?_)
    exact fun i j db _ _ _ => same_of_accepted (htype ▸ by decide) rfl
  · refine wp_of_wpj (wpj_handleDeleteFriend (fun response _ _ _ => refused response) ?_)
    exact fun i j ok db _ _ _ => same_of_accepted (htype ▸ by decide) rfl
  · refine wp_of_wpj (wpj_handleSendMessage (fun response _ _ _ => refused response) ?_)
    intro i j now db said l w₁ w' _ _ _ _ _ _
    exact same_of_accepted (htype ▸ by decide) rfl

theorem wp_dispatchRequest_same (c : Socket) (parsed : Option Json) :
    wp E (dispatchRequest P c parsed) (fun answer w' => ∀ request response,
      answer = .ok (some (request, response)) → request.type ≠ bytes "UPDATE_USER" →
      response.code ≠ 0 ∨ Queries request.type → SameData w w') w := by
  apply wp_dispatchRequest_speaks
  · exact fun _ => wp_say fun _ _ _ => nofun
  · exact fun e root garbage w' _ _ _ => nofun
  · intro root garbage request w₁ _ _ h₁
    by_cases hupdate : request.type = bytes "UPDATE_USER"
    · refine wp_mono (wp_serve _) fun response w₂ _ => wp_say fun _ w₃ _ => ?_
      rintro _ _ ⟨⟩ hne
      exact absurd hupdate hne
    · refine wp_mono (wp_serve_same hupdate) fun response w₂ h₂ => wp_say fun _ w₃ h₃ => ?_
      rintro _ _ ⟨⟩ _ hcode
      exact (h₁.same.trans (h₂ hcode)).trans (.of_talks h₃)

/-- **Errors change nothing**, whatever fails, but for requests to change user data; and the queries
change nothing at all. It is said of every body and state and of every pattern of failing statements: in
the handlers a statement that writes is the last that can make the answer an error. -/
theorem sameData_of_refused (w : World P) (c : Socket) (parsed : Option Json) (cs : List Choice)
    (request : Request) (response : Response)
    (hanswer : ((dispatchRequest P c parsed).run cs w).1 = .ok (some (request, response)))
    (htype : request.type ≠ bytes "UPDATE_USER")
    (hcode : response.code ≠ 0 ∨ Queries request.type) :
    SameData w ((dispatchRequest P c parsed).run cs w).2 :=
  run_of_wp (wp_dispatchRequest_same (E := .any) c parsed) cs (fun ch _ => Env.ok_any ch) request
    response hanswer htype hcode

def aliceMistypes : Option Json :=
  flatBody [("type", "LOGIN"), ("username", "alice"), ("password", "qwerty")]

theorem sameData_mistyped :
    SameData aliceHere ((dispatchRequest asciiCi 1 aliceMistypes).run [] aliceHere).2 :=
  sameData_of_refused aliceHere 1 aliceMistypes [] _ _ rfl (by decide) (.inl (by decide))

end LiteChat
