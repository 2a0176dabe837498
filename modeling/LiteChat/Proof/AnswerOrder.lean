import LiteChat.Effect.Obeys
import LiteChat.Proof.Answers
import LiteChat.Proof.Clients

/-!
# Answers come in the order of the requests

A response carries no number by which a client could tell which of its requests it answers. It can count
them: whatever the threads do in between, and whatever fails, the responses that the thread of a
connection writes go to its own socket and answer the bodies that were received, one each and in their
order; and apart from the accept loop, which turns connections away with `busy`, no other thread writes
one there (`answersInOrder_run`). A thread that has ended has answered everything it received, unless it
came to a body whose fields it could not read.
-/

namespace LiteChat

open LiteChat.Action Effect Server

variable {P : Platform} {α β κ : Type}

/-! ## Responses among calls -/

/-- The response that a call sends, if it does, and where to. -/
def responseOf : Call Op Op.Res → Option (Socket × Frame)
  | ⟨.sendData c frame, _⟩ => if frame.isResponse then some (c, frame) else none
  | _ => none

/-- The responses that a thread has sent. -/
def responsesSent (own : List (Call Op Op.Res)) : List (Socket × Frame) := own.filterMap responseOf

/-- The operation sends no response. -/
def Op.Silent : Op → Prop
  | .sendData _ frame => frame.isResponse = false
  | _ => True

theorem responsesSent_concat (own : List (Call Op Op.Res)) (call : Call Op Op.Res) :
    responsesSent (own ++ [call]) = responsesSent own ++ (responseOf call).toList := by
  unfold responsesSent
  rw [List.filterMap_append]
  cases h : responseOf call <;> simp [h]

theorem responseOf_silent {o : Op} (ho : o.Silent) (r : o.Res) : responseOf ⟨o, r⟩ = none := by
  cases o with
  | sendData c frame => exact if_neg (Bool.eq_false_iff.mp ho)
  | _ => rfl

theorem responseOf_eq_some {o : Op} {r : o.Res} {sent : Socket × Frame}
    (h : responseOf ⟨o, r⟩ = some sent) :
    o = .sendData sent.1 sent.2 ∧ sent.2.isResponse = true := by
  cases o with
  | sendData c frame =>
    obtain ⟨hframe, hsent⟩ := Option.ite_none_right_eq_some.mp h
    cases Option.some.inj hsent
    exact ⟨rfl, hframe⟩
  | _ => cases h

theorem Op.Reads.silent {o : Op} (ho : o.Reads) : o.Silent := by
  cases o with
  | sendData c frame => exact ho
  | _ => trivial

theorem Op.Ordinary.silent {o : Op} (ho : o.Ordinary) : o.Silent := by
  cases o with
  | sendData c frame => exact ho.2
  | _ => trivial

theorem Op.LogsIn.silent {o : Op} (ho : o.LogsIn) : o.Silent := by
  cases ho with
  | reads ho => exact ho.silent
  | _ => trivial

theorem serve_silent (request : Request) : (serve P request).Uses Op.Silent :=
  serve_uses (fun _ ho => ho.silent) (fun _ => trivial) fun _ =>
    (serveLogin_logsIn request).mono fun _ ho => ho.silent

theorem refresh_silent (c : Socket) : (refresh c).Uses Op.Silent := by
  refine .bind (uses_op trivial) fun session => ?_
  cases session with
  | none => trivial
  | some session => exact uses_op trivial

theorem identify_silent (c : Socket) (request : Request) : (identify c request).Uses Op.Silent := by
  refine .bind (uses_op trivial) fun session => ?_
  cases session with
  | none => trivial
  | some session =>
    refine .bind (uses_op trivial) fun (u : Str) => ?_
    show (if u = [] then pure request else _ : Action Request).Uses Op.Silent
    exact uses_ite trivial (.bind (uses_op trivial) fun _ => trivial)

/-! ## One answer after the other -/

/-- A body that gets an answer: it cannot be parsed, or its fields can be read. -/
def Answerable (parsed : Option Json) : Prop := ∀ root, parsed = some root → WellShaped root

instance (parsed : Option Json) : Decidable (Answerable parsed) :=
  match parsed with
  | none => isTrue nofun
  | some root => decidable_of_iff (WellShaped root)
      ⟨fun h _ hroot => Option.some.inj hroot ▸ h, fun h => h root rfl⟩

/-- A response answers the body that is next. -/
def Answering (c : Socket) (received : List (Option Json)) (own : List (Call Op Op.Res)) : Op → Prop
  | .sendData d frame => frame.isResponse = false ∨
      d = c ∧ ∃ parsed, received[(responsesSent own).length]? = some parsed ∧ Answerable parsed ∧
        IsAnswerTo frame parsed
  | _ => True

/-- The thread is done: all it received is answered, or the body that is next has fields that cannot be
read. -/
def AllAnswered (received : List (Option Json)) (own : List (Call Op Op.Res)) : Prop :=
  (responsesSent own).length = received.length ∨
    ∃ root, received[(responsesSent own).length]? = some (some root) ∧ ¬ WellShaped root

section Threads

variable {c : Socket} {received : List (Option Json)} {own : List (Call Op Op.Res)}

theorem Op.Silent.answering {o : Op} (ho : o.Silent) : Answering c received own o := by
  cases o with
  | sendData d frame => exact .inl ho
  | _ => trivial

/-- The rule for code that answers nobody. -/
theorem Uses.silently {p : Action α} (hp : p.Uses Op.Silent) :
    p.Expecting (fun _ => True) (Answering c received)
      (fun _ own' => responsesSent own' = responsesSent own) own := by
  refine hp.expecting (fun own' => responsesSent own' = responsesSent own) rfl fun own' o hown ho => ?_
  refine ⟨ho.answering, fun r _ => ?_⟩
  rw [responsesSent_concat, responseOf_silent ho, hown]
  exact List.append_nil _

/-- The answer to the body that is next. -/
theorem answer_expecting {parsed : Option Json} {frame : Frame} {served : α}
    {Done : α → List (Call Op Op.Res) → Prop}
    (hnext : received[(responsesSent own).length]? = some parsed) (hresponse : frame.isResponse = true)
    (hanswerable : Answerable parsed) (hframe : IsAnswerTo frame parsed)
    (hdone : ∀ own', (responsesSent own').length = (responsesSent own).length + 1 → Done served own') :
    (do
      let _ ← sendData c frame
      return served : Action α).Expecting (fun _ => True) (Answering c received) Done own := by
  refine .call (.inr ⟨rfl, parsed, hnext, hanswerable, hframe⟩) fun r _ => hdone _ ?_
  rw [responsesSent_concat, List.length_append]
  show _ + (if frame.isResponse = true then some (c, frame) else none).toList.length = _
  rw [if_pos hresponse]
  rfl

/-- A body whose fields cannot be read. -/
theorem not_wellShaped {c : Socket} {garbage : Int} {root : Json} {e : JsonException}
    (h : requestOf (.empty : Spec.Logins Socket Str) c garbage root = .error e) : ¬ WellShaped root := by
  intro hshaped
  obtain ⟨request, hok⟩ := requestOf_ok.mpr hshaped
  cases hok.symm.trans h

/-- A body whose fields can be read. -/
theorem wellShaped {c : Socket} {garbage : Int} {root node : Json} {type : Str} {body : Request}
    (hheader : header root = .ok (type, node))
    (hread : readRequest type c garbage node = .ok body) : WellShaped root := by
  have hrequest : requestOf (.empty : Spec.Logins Socket Str) c garbage root =
      .ok (identified .empty c body) := by
    rw [requestOf_eq, hheader]
    dsimp only
    rw [hread]
  exact requestOf_ok.mp ⟨_, hrequest⟩

/-- A request is answered once, by its type, unless its fields cannot be read: then nothing is sent, and
the connection ends. -/
theorem dispatchRequest_expecting {parsed : Option Json}
    (hnext : received[(responsesSent own).length]? = some parsed) :
    (dispatchRequest P c parsed).Expecting (fun _ => True) (Answering c received)
      (fun served own' =>
        (∃ answered, served = .ok answered ∧
          (responsesSent own').length = (responsesSent own).length + 1) ∨
        (∃ e root, served = .error e ∧ responsesSent own' = responsesSent own ∧
          parsed = some root ∧ ¬ WellShaped root)) own := by
  cases parsed with
  | none => exact answer_expecting hnext rfl nofun rfl fun own' hown => .inl ⟨none, rfl, hown⟩
  | some root =>
    unfold dispatchRequest
    dsimp only
    split
    · rename_i e hheader
      have hthrows : requestOf (.empty : Spec.Logins Socket Str) c 0 root = .error e := by
        rw [requestOf_eq, hheader]
      exact .inr ⟨e, root, rfl, rfl, rfl, not_wellShaped hthrows⟩
    rename_i type node hheader
    refine .seq (Uses.silently (refresh_silent c)) fun _ own₁ h₁ => ?_
    refine .call trivial fun (garbage : Int) _ => ?_
    have h₂ : responsesSent (own₁ ++ [⟨.uninitialised, garbage⟩]) = responsesSent own := by
      rw [responsesSent_concat, ← h₁]
      exact List.append_nil _
    split
    · rename_i e hread
      have hthrows : requestOf (.empty : Spec.Logins Socket Str) c garbage root = .error e := by
        rw [requestOf_eq, hheader]
        dsimp only
        rw [hread]
      exact .inr ⟨e, root, rfl, h₂, rfl, not_wellShaped hthrows⟩
    rename_i body hread
    refine .seq (Uses.silently (identify_silent c body)) fun request own₃ h₃ => ?_
    refine .seq (Uses.silently (serve_silent request)) fun response own₄ h₄ => ?_
    -- whatever serving it sends, no response is among it
    have hown : responsesSent own₄ = responsesSent own := (h₄.trans h₃).trans h₂
    have hanswer : IsAnswerTo (responseFrame type response) (some root) := ⟨type, node, hheader, rfl⟩
    have hshaped : Answerable (some root) := by
      rintro _ ⟨⟩
      exact wellShaped hheader hread
    refine answer_expecting (hown ▸ hnext) (Frame.isResponse_of_type rfl) hshaped hanswer
      fun own' hown' => ?_
    exact .inl ⟨_, rfl, hown ▸ hown'⟩

/-- A connection: what is received is answered in its order. -/
theorem handleClient_expecting (before : List (Option Json)) (rest : List (Option Json))
    (hreceived : received = before ++ rest) (hbefore : (responsesSent own).length = before.length) :
    (handleClient P c rest).Expecting (fun _ => True) (Answering c received)
      (fun _ own' => AllAnswered received own') own := by
  induction rest generalizing before own with
  | nil =>
    refine (Uses.silently ((endConnection_ordinary c).mono fun _ ho => ho.silent)).mono fun _ own' h => ?_
    refine .inl ?_
    rw [h, hbefore, hreceived, List.append_nil]
  | cons parsed rest ih =>
    have hnext : received[(responsesSent own).length]? = some parsed := by
      rw [hbefore, hreceived]
      simp
    refine .seq (dispatchRequest_expecting hnext) fun served own' h => ?_
    rcases h with ⟨answered, rfl, hlength⟩ | ⟨e, root, rfl, hsame, rfl, hshape⟩
    · refine ih (before ++ [parsed]) ?_ ?_
      · rw [hreceived, List.append_assoc]
        rfl
      · rw [hlength, hbefore, List.length_append]
        rfl
    · refine (Uses.silently ((failConnection_ordinary c).mono fun _ ho => ho.silent)).mono
        fun _ own'' h => ?_
      refine .inr ⟨root, ?_, hshape⟩
      rw [h, hsame]
      exact hnext

end Threads

/-! ## All threads -/

section Runs

variable {work : Work κ} {w₀ w : World P}

/-- What the threads may answer: a connection what it has received, the accept loop that the server is
busy, and the heartbeat check nothing. -/
def Server.Work.Answering (work : Work κ) : Worker κ → List (Call Op Op.Res) → Op → Prop
  | .handling k => LiteChat.Answering (work.clientSocket k) (work.received k)
  | .accepting => fun _ o => o.Accepts
  | .checking => fun _ o => o.Silent

/-- A connection that is done has answered everything it can. -/
def Server.Work.AllAnswered (work : Work κ) : Worker κ → List (Call Op Op.Res) → Prop
  | .handling k => LiteChat.AllAnswered (work.received k)
  | _ => fun _ => True

theorem workers_expecting (work : Work κ) (k : Worker κ) :
    (workers P work k).Expecting (fun _ => True) (work.Answering k)
      (fun _ own => work.AllAnswered k own) [] := by
  cases k with
  | handling k => exact handleClient_expecting [] (work.received k) rfl rfl
  | accepting =>
    refine (acceptConnections_accepts work.accepted).expecting (fun _ => True) trivial ?_
    exact fun own o _ ho => ⟨ho, fun _ _ => trivial⟩
  | checking =>
    refine (heartbeatCheckThread_ordinary work.rounds).expecting (fun _ => True) trivial ?_
    exact fun own o _ ho => ⟨ho.silent, fun _ _ => trivial⟩

/-- The responses on record. -/
def responsesIn (trace : List Obs) : List (Socket × Frame) :=
  trace.filterMap fun o => match o with
    | .sent c _ frame _ => if frame.isResponse then some (c, frame) else none
    | _ => none

theorem responsesIn_handle (o : Op) (ch : Choice) (w : World P) :
    responsesIn (World.handle o ch w).2.trace =
      responsesIn w.trace ++ (responseOf ⟨o, (World.handle o ch w).1⟩).toList := by
  rw [World.trace_records]
  unfold responsesIn
  rw [List.filterMap_append]
  congr 1
  cases o with
  | sendData c frame =>
    show List.filterMap _ [_] = (if frame.isResponse = true then some (c, frame) else none).toList
    cases h : frame.isResponse <;> simp [h]
  | _ => rfl

theorem forall₂_concat {γ δ : Type} {R : γ → δ → Prop} {xs : List γ} {ys : List δ} {x : γ} {y : δ}
    (h : List.Forall₂ R xs (ys.take xs.length)) (hy : ys[xs.length]? = some y) (hxy : R x y) :
    List.Forall₂ R (xs ++ [x]) (ys.take (xs ++ [x]).length) := by
  rw [List.length_append, List.length_singleton, List.take_add_one, hy]
  exact List.rel_append h (.cons hxy .nil)

variable [DecidableEq κ]

/-- The responses on record are those that were there and those that the threads have sent, in the order
in which they were sent; and those of a connection answer what it has received, in order. -/
structure AnswersInOrder (work : Work κ) (w₀ w : World P) (calls : List (Worker κ × Call Op Op.Res)) :
    Prop where
  said : responsesIn w.trace = responsesIn w₀.trace ++ responsesSent (calls.map Prod.snd)
  inOrder : ∀ k, List.Forall₂
    (fun sent parsed => sent.1 = work.clientSocket k ∧ IsAnswerTo sent.2 parsed)
    (responsesSent (Pool.own calls (.handling k)))
    ((work.received k).take (responsesSent (Pool.own calls (.handling k))).length)
  busy : ∀ sent ∈ responsesSent (Pool.own calls .accepting), sent.2 = Server.busy
  silent : responsesSent (Pool.own calls .checking) = []

variable {calls : List (Worker κ × Call Op Op.Res)}

/-- A call of any thread adds one response to its own list, or none. -/
theorem AnswersInOrder.step (h : AnswersInOrder work w₀ w calls) {k : Worker κ} {o : Op}
    (hok : work.Answering k (Pool.own calls k) o) (ch : Choice) :
    AnswersInOrder work w₀ (World.handle o ch w).2 (calls ++ [(k, ⟨o, (World.handle o ch w).1⟩)]) := by
  generalize hr : (World.handle o ch w).1 = r
  have hother : ∀ j, j ≠ k → Pool.own (calls ++ [(k, ⟨o, r⟩)]) j = Pool.own calls j :=
    fun j hj => Pool.own_append_ne (Ne.symm hj) _
  have hself : responsesSent (Pool.own (calls ++ [(k, ⟨o, r⟩)]) k) =
      responsesSent (Pool.own calls k) ++ (responseOf ⟨o, r⟩).toList := by
    rw [Pool.own_append_self, responsesSent_concat]
  refine ⟨?_, fun j => ?_, ?_, ?_⟩
  · rw [responsesIn_handle, hr, h.said, List.map_append, List.append_assoc, ← responsesSent_concat]
    rfl
  · by_cases hj : .handling j = k
    · subst hj
      rw [hself]
      cases hresponse : responseOf ⟨o, r⟩ with
      | none =>
        rw [Option.toList_none, List.append_nil]
        exact h.inOrder j
      -- the protocol of a connection: the response is to the body whose turn it is
      | some sent =>
        obtain ⟨rfl, hframe⟩ := responseOf_eq_some hresponse
        rcases hok with hsilent | ⟨hsocket, parsed, hnext, _, hanswer⟩
        · cases hframe.symm.trans hsilent
        · exact forall₂_concat (h.inOrder j) hnext ⟨hsocket, hanswer⟩
    · rw [hother _ hj]
      exact h.inOrder j
  · by_cases hj : .accepting = k
    · subst hj
      intro sent hsent
      rw [hself] at hsent
      rcases List.mem_append.mp hsent with hsent | hsent
      · exact h.busy sent hsent
      obtain ⟨c, frame⟩ := sent
      obtain ⟨rfl, _⟩ := responseOf_eq_some (Option.mem_toList.mp hsent)
      cases hok
      rfl
    · rw [hother _ hj]
      exact h.busy
  · by_cases hj : .checking = k
    · subst hj
      rw [hself, responseOf_silent hok, h.silent]
      rfl
    · rw [hother _ hj]
      exact h.silent

/-- **Answers come in the order of the requests.** In every interleaving of the server's threads,
whatever fails, the responses that a connection's thread sends go to its own socket and answer the bodies
it has received, one each and in their order; the accept loop sends none but `busy`, and the heartbeat
check none at all; and a connection whose thread has ended has answered everything it received up to the
first body whose fields cannot be read. -/
theorem answersInOrder_run (work : Work κ) (w₀ : World P) (es : List (Worker κ × Choice)) :
    AnswersInOrder work w₀ (runAll (Pool.step World.handle) (Pool.start (workers P work) w₀) es).shared
        (runAll (Pool.step World.handle) (Pool.start (workers P work) w₀) es).calls ∧
      ∀ k, ((runAll (Pool.step World.handle) (Pool.start (workers P work) w₀) es).threads
          (.handling k)).isPure = true →
        AllAnswered (work.received k)
          (Pool.own (runAll (Pool.step World.handle) (Pool.start (workers P work) w₀) es).calls
            (.handling k)) := by
  have hstart : AnswersInOrder work w₀ w₀ [] := ⟨(List.append_nil _).symm, fun _ => .nil, nofun, rfl⟩
  obtain ⟨hend, hdone⟩ := Pool.ending_runAll (J := AnswersInOrder work w₀) (workers_expecting work)
    hstart (fun _ _ _ _ ch h hok => h.step hok ch) es
  exact ⟨hend, fun k hk => (hdone (.handling k) hk).choose_spec⟩

end Runs

end LiteChat
