import LiteChat.Model.ExceptionHandler
import LiteChat.Proof.Routing

/-!
# Which exceptions `DispatchRequest` catches

Every DAO function catches `sql::SQLException` itself (`server_caught`), and no handler throws anything
else. So the `catch` of `DispatchRequest` is never entered (`serveOrHandle_eq`): the function does what
`Model/Server.lean` says it does, where that `catch` is left out (`run_dispatch`), and a failure of the
database triggers no reconnection (`reconnectsOnFailure_iff`).
-/

namespace LiteChat

open Code Server

variable {P : Platform} {α β : Type} {c : Socket} {parsed : Option Json}

/-! ## The dispatcher with its exceptions -/

theorem server_bind (p : Action α) (f : α → Action β) :
    server (p >>= f) = server p >>= fun a => server (f a) := by
  unfold server
  rw [← Effect.Prog.clear_bind]
  exact congrArg Effect.Prog.clear (Effect.Prog.within_bind p f)

/-- What `Model/Dao.lean` says of a DAO function is what its `try` block does: the `catch` swallows the
exception and returns the value for a failure. -/
theorem server_caught (st : Stmt) (f : st.Res → α) (failed : α) :
    server (caught st f failed) = daoMethod st f failed := by
  unfold server caught daoMethod execute
  refine congrArg (Effect.Prog.call (ServerOp.op (.sql st))) (funext fun r => ?_)
  cases r <;> rfl

/-- The `catch` of `DispatchRequest` is never entered. -/
theorem serveOrHandle_eq (request : Request) :
    serveOrHandle P request = server (serve P request) := Effect.Prog.tryCatch_clear _ _

/-- An exception that is an answer, thrown. -/
def rethrow (answered : Except JsonException α) : Code α :=
  match answered with
  | .ok a => return a
  | .error e => throw (.json e)

/-- The exceptions that leave `DispatchRequest` are those of the JSON library. -/
theorem dispatch_eq (c : Socket) (parsed : Option Json) :
    dispatch P c parsed = server (dispatchRequest P c parsed) >>= rethrow := by
  have hlawful : LawfulMonad (Effect.Prog ServerOp ServerOp.Res) := Effect.Prog.lawfulMonad
  unfold dispatch dispatchRequest
  cases parsed with
  | none =>
    simp only [server_bind, bind_assoc]
    rfl
  | some root =>
    -- what the JSON library throws is an answer on one side and an exception on the other
    dsimp only
    cases header root with
    | error e => rfl
    | ok r =>
      obtain ⟨type, node⟩ := r
      simp only [server_bind, bind_assoc, serveOrHandle_eq]
      refine congrArg _ (funext fun _ => congrArg _ (funext fun garbage => ?_))
      cases readRequest type c garbage node with
      | error e => rfl
      | ok request =>
        simp only [server_bind, bind_assoc]
        rfl

/-- Code of the server does to the world of the pool what it does to a world. -/
theorem run_server (p : Action α) (cs : List PoolChoice) (s : PoolWorld P) :
    (server p).run.run handleOp cs s = (.ok (p.run (cs.map (·.choice)) s.world).1,
      { s with world := (p.run (cs.map (·.choice)) s.world).2 }) := by
  have hwithin : (p.within ServerOp.op fun _ r => r).run handleOp cs s =
      ((p.run (cs.map (·.choice)) s.world).1,
        { s with world := (p.run (cs.map (·.choice)) s.world).2 }) :=
    Effect.Prog.run_within (fun c : PoolChoice => c.choice) (fun s : PoolWorld P => s.world)
      (fun w s => { s with world := w }) rfl (fun _ => rfl) (fun _ _ => rfl) (fun _ _ _ => rfl)
      (fun _ _ _ => ⟨rfl, rfl⟩) p cs s
  unfold server
  rw [Effect.Prog.run_clear, Effect.Prog.run_bind, hwithin]
  rfl

/-- So it does what it does without its `catch`. -/
theorem run_dispatch (c : Socket) (parsed : Option Json) (cs : List PoolChoice) (s : PoolWorld P) :
    (dispatch P c parsed).run.run handleOp cs s =
      (((dispatchRequest P c parsed).run (cs.map (·.choice)) s.world).1.mapError .json,
        { s with world := ((dispatchRequest P c parsed).run (cs.map (·.choice)) s.world).2 }) := by
  rw [dispatch_eq]
  refine (Effect.Prog.run_bind (server (dispatchRequest P c parsed)).run _ cs s).trans ?_
  rw [run_server]
  cases ((dispatchRequest P c parsed).run (cs.map (·.choice)) s.world).1 <;> rfl

/-! ## After a failure -/

/-- A statement has thrown. -/
def Raises (calls : List (Effect.Call ServerOp ServerOp.Res)) : Prop :=
  ∃ st e, ⟨.op (.sql st), Except.error e⟩ ∈ calls

/-- `HandleDBException` was called, and then a response was sent. -/
def HandledFirst (c : Socket) (calls : List (Effect.Call ServerOp ServerOp.Res)) : Prop :=
  ∃ before frame sent after e, frame.isResponse = true ∧
    calls = before ++ ⟨.op (.sendData c frame), sent⟩ :: after ∧ ⟨.dbException e, ()⟩ ∈ before

/-- If a statement throws in this run, it triggers a reconnection before the response. -/
def ReconnectsOnFailure (c : Socket) (parsed : Option Json) (cs : List PoolChoice) (s : PoolWorld P) :
    Prop :=
  Raises ((dispatch P c parsed).run.calls handleOp cs s) →
    HandledFirst c ((dispatch P c parsed).run.calls handleOp cs s)

theorem dispatch_uses (c : Socket) (parsed : Option Json) :
    (dispatch P c parsed).run.Uses fun o => ∃ o', o = .op o' := by
  rw [dispatch_eq]
  refine .bind (.bind (Effect.Prog.uses_within _) fun _ => trivial) fun answered => ?_
  cases answered with
  | error e => trivial
  | ok answered => cases answered <;> trivial

/-- Nothing but operations of the server is called. -/
theorem not_handledFirst (c : Socket) (parsed : Option Json) (cs : List PoolChoice)
    (s : PoolWorld P) : ¬ HandledFirst c ((dispatch P c parsed).run.calls handleOp cs s) := by
  rintro ⟨before, frame, sent, after, e, -, hcalls, hmem⟩
  have hcall : (⟨.dbException e, ()⟩ : Effect.Call ServerOp ServerOp.Res) ∈
      (dispatch P c parsed).run.calls handleOp cs s := by
    rw [hcalls]
    exact List.mem_append_left _ hmem
  obtain ⟨o, ho⟩ := Effect.Prog.mem_calls (dispatch_uses c parsed) hcall
  cases ho

/-- **A failure of the database triggers no reconnection.** What is asked of a run with a failure holds
of the runs without one, and of no other: each DAO function catches the exception of its own statement,
so that none arrives at the `catch` block of `DispatchRequest` that would reconnect. -/
theorem reconnectsOnFailure_iff (c : Socket) (parsed : Option Json) (cs : List PoolChoice)
    (s : PoolWorld P) : ReconnectsOnFailure c parsed cs s ↔
      ¬ Raises ((dispatch P c parsed).run.calls handleOp cs s) := by
  constructor
  · exact fun h hraises => not_handledFirst c parsed cs s (h hraises)
  · exact fun h hraises => absurd hraises h

/-- Nobody is connected to the database, and somebody wants to register. -/
theorem not_reconnectsOnFailure : ¬ ∀ (c : Socket) (parsed : Option Json) (cs : List PoolChoice)
    (s : PoolWorld asciiCi), ReconnectsOnFailure c parsed cs s := by
  intro h
  let away : PoolChoice := { (default : PoolChoice) with
    choice := { (default : Choice) with dbOk := false } }
  refine not_handledFirst _ _ _ _ (h 1 (flatBody [("type", "REGISTER"), ("username", "alice"),
    ("password", "secret")]) (List.replicate 8 away) (.start (World.start Database.empty)) ?_)
  refine ⟨.countUsers (bytes "alice"), .raised, List.mem_of_getElem? (i := 3) rfl⟩

end LiteChat
