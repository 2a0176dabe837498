import LiteChat.Effect.Journal
import LiteChat.Proof.Frame

/-!
# What a request has written

The journal of a run lists the statements that write to the database, in the order in which they
were executed, each with whether it went through. `wpj` is `wp` with the journal at hand. The rules
for the handlers of friends are here; each says of the code of the response which writes it stands
for.
-/

namespace LiteChat

open LiteChat.Action

/-- What the journal notes of a call. -/
def written : Effect.Call Op Op.Res → Option (Stmt × Bool)
  | ⟨.sql st, r⟩ => if st.reads then none else some (st, Except.isOk r)
  | _ => none

variable {P : Platform} {E : Env} {w : World P}

/-- The operations that do not write to the database. -/
def Op.Unwritten : Op → Prop
  | .sql st => st.reads = true
  | _ => True

theorem Op.Reads.unwritten {o : Op} (ho : o.Reads) : o.Unwritten := by
  cases o with
  | sql st => exact ho
  | _ => trivial

theorem written_eq_none {o : Op} (ho : o.Unwritten) (r : Op.Res o) : written ⟨o, r⟩ = none := by
  cases o with
  | sql st => exact if_pos ho
  | _ => rfl

theorem World.db_unwritten {o : Op} (ho : o.Unwritten) (ch : Choice) (w : World P) :
    (World.handle o ch w).2.db = w.db := by
  rcases World.db_handle o ch w with hdb | ⟨st, r, rfl, hex⟩
  · exact hdb
  · exact Database.exec_reads ho hex

namespace Action

variable {α β : Type}

/-- The calls of code that is run alone. -/
def calls (p : Action α) (cs : List Choice) (w : World P) : List (Effect.Call Op Op.Res) :=
  Effect.Prog.calls World.handle p cs w

def journal (p : Action α) (cs : List Choice) (w : World P) : List (Stmt × Bool) :=
  (p.calls cs w).filterMap written

/-- From `w`, in the environment `E`, the code ends with an answer, a journal and a world that
satisfy `Q`. -/
def wpj (E : Env) (p : Action α) (Q : α → List (Stmt × Bool) → World P → Prop) (w : World P) : Prop :=
  Effect.Prog.wpc World.handle E.Ok written p Q w

variable {Q R : α → List (Stmt × Bool) → World P → Prop}

theorem run_of_wpj {p : Action α} (h : p.wpj E Q w) (cs : List Choice) (hcs : ∀ ch ∈ cs, E.Ok ch) :
    Q (p.run cs w).1 (p.journal cs w) (p.run cs w).2 :=
  Effect.Prog.run_of_wpc E.ok_default h cs hcs

theorem wp_of_wpj {p : Action α} {Q : α → World P → Prop} (h : p.wpj E (fun a _ t => Q a t) w) :
    p.wp E Q w := Effect.Prog.wp_of_wpc h

theorem wpj_mono {p : Action α} (h : p.wpj E Q w) (hQR : ∀ a l t, Q a l t → R a l t) :
    p.wpj E R w := Effect.Prog.wpc_mono h hQR

@[simp] theorem wpj_pure (a : α) : wpj E (Pure.pure a : Action α) Q w ↔ Q a [] w := Iff.rfl

@[simp] theorem wpj_bind (p : Action α) (f : α → Action β)
    {Q : β → List (Stmt × Bool) → World P → Prop} :
    wpj E (p >>= f) Q w ↔ wpj E p (fun a l t => wpj E (f a) (fun b l' u => Q b (l ++ l') u) t) w :=
  Effect.Prog.wpc_bind p f

theorem wpj_if {c : Prop} [Decidable c] {p q : Action α} (hp : c → wpj E p Q w)
    (hq : ¬ c → wpj E q Q w) : wpj E (if c then p else q) Q w := by
  by_cases h : c
  · rw [if_pos h]
    exact hp h
  · rw [if_neg h]
    exact hq h

/-- What is not asked of the journal holds with it. -/
theorem wpj_of_wp {p : Action α} {Q : α → World P → Prop} (h : p.wp E Q w) :
    p.wpj E (fun a _ t => Q a t) w :=
  Effect.Prog.wpc_of_wp (S := fun _ => True) (p.uses_of_forall fun _ => trivial)
    (wp_mono h fun _ _ hQ _ _ => hQ)

/-- Code that writes nothing leaves no trace in the journal. -/
theorem wpj_silent {p : Action α} (hp : p.Uses Op.Unwritten) (h : p.wp E (fun a t => Q a [] t) w) :
    p.wpj E Q w :=
  Effect.Prog.wpc_unseen (hp.mono fun _ => written_eq_none) h

theorem wpj_reads {p : Action α} (hp : p.Uses Op.Reads) (h : p.wp E (fun a t => Q a [] t) w) :
    p.wpj E Q w := wpj_silent (hp.mono fun _ => Op.Reads.unwritten) h

/-- Code that writes nothing leaves the database as it is, whatever else it does. -/
theorem wpj_unwritten {p : Action α} (hp : p.Uses Op.Unwritten)
    (h : ∀ a t, t.db = w.db → Q a [] t) : p.wpj E Q w := by
  have hframe : wp E p (fun _ w' => w'.db = w.db) w :=
    Effect.Prog.wp_frame hp (fun w w' : World P => w'.db = w.db) (fun _ => rfl)
      (fun _ _ _ h h' => h'.trans h) fun _ ch t ho _ => World.db_unwritten ho ch t
  exact wpj_silent hp (wp_mono hframe h)

/-- Code that reads, and writes no more than the statements in `S`: each entry of the journal is one of
these. -/
theorem wpj_writesOnly {S : Stmt → Prop} {p : Action α} (hp : p.Uses (Op.WritesOnly S))
    (h : wp E p (fun a t => ∀ l, (∀ e ∈ l, S e.1) → Q a l t) w) : wpj E p Q w := by
  refine Effect.Prog.wpc_of_wp hp (wp_mono h fun a t hQ l hl => hQ l fun e he => ?_)
  obtain ⟨o, r, ho, hsee⟩ := hl e he
  rcases ho with ho | ⟨st, rfl, hst⟩
  · rw [written_eq_none ho.unwritten r] at hsee
    cases hsee
  · have hsee : (if st.reads then none else some (st, Except.isOk r)) = some e := hsee
    split at hsee
    · cases hsee
    · rw [← Option.some.inj hsee]
      exact hst

/-- A statement that writes is noted with the answer of its DAO function. -/
theorem wpj_write {st : Stmt} (hst : st.reads = false)
    {Q : Bool → List (Stmt × Bool) → World P → Prop}
    (h : wp E (caught st (fun _ => true) false) (fun ok t => Q ok [(st, ok)] t) w) :
    wpj E (caught st (fun _ => true) false) Q w := by
  have hsee : ∀ r, written ⟨.sql st, r⟩ = some (st, Except.isOk r) :=
    fun _ => if_neg (ne_true_of_eq_false hst)
  refine (wpj_bind (sql st) _).mpr ((Effect.Prog.wpc_op _).mpr fun ch hch => ?_)
  have hch := (wp_bind (sql st) _).mp h ch hch
  rw [hsee]
  revert hch
  cases (World.handle (.sql st) ch w).1 <;> exact id

end Action

/-! ## Friends -/

/-- Of the statements in `S`, some may have been tried; none went through. -/
def NothingWritten (S : Stmt → Prop) (l : List (Stmt × Bool)) : Prop := ∀ e ∈ l, S e.1 ∧ e.2 = false

theorem NothingWritten.nil (S : Stmt → Prop) : NothingWritten S [] := nofun

theorem NothingWritten.failed {S : Stmt → Prop} {st : Stmt} (hst : S st) :
    NothingWritten S [(st, false)] := by
  intro e he
  rw [List.mem_singleton.mp he]
  exact ⟨hst, rfl⟩

theorem wpj_handleAddFriend {request : Request} {Q : Response → List (Stmt × Bool) → World P → Prop}
    (refused : ∀ response l, response.code ≠ 0 →
      NothingWritten (fun st => ∃ i j, st = .insertFriend i j) l → Q response l w)
    (added : ∀ i j db, w.db.idOf request.username = some i →
      w.db.idOf (FriendManager.targetOf request) = some j → w.db.insertFriend i j = some db →
      Q ⟨0, bytes "添加好友成功", none⟩ [(.insertFriend i j, true)] { w with db := db }) :
    wpj E (FriendManager.handleAddFriend request) Q w := by
  have refuse : ∀ response : Response, response.code ≠ 0 → Q response [] w :=
    fun response hcode => refused response [] hcode (.nil _)
  unfold FriendManager.handleAddFriend
  refine wpj_if (fun _ => refuse _ (by decide)) fun _ => wpj_if (fun _ => refuse _ (by decide))
    fun _ => ?_
  refine (wpj_bind _ _).mpr (wpj_reads (reads_caught rfl _ _) (wp_getUserIdByUsername.mpr ?_))
  refine ⟨fun _ => refuse _ (by decide), ?_⟩
  cases hi : w.db.idOf request.username with
  | none => exact refuse _ (by decide)
  | some i =>
    refine (wpj_bind _ _).mpr (wpj_reads (reads_caught rfl _ _) (wp_getUserIdByUsername.mpr ?_))
    refine ⟨fun _ => refuse _ (by decide), ?_⟩
    cases hj : w.db.idOf (FriendManager.targetOf request) with
    | none => exact refuse _ (by decide)
    | some j =>
      have insert : wpj E (do
          if ¬ (← FriendDAO.insertFriend i j) then
            return ⟨5001, bytes "数据库操作失败", none⟩
          return ⟨0, bytes "添加好友成功", none⟩) Q w := by
        refine (wpj_bind _ _).mpr (wpj_write rfl (wp_insertFriend.mpr ⟨fun _ => ?_, fun db hdb => ?_⟩))
        · exact refused _ _ (by decide) (.failed ⟨i, j, rfl⟩)
        · exact added i j db hi hj hdb
      refine (wpj_bind _ _).mpr (wpj_reads (reads_caught rfl _ _) (wp_checkFriendship.mpr ?_))
      exact ⟨fun _ => insert, wpj_if (fun _ => refuse _ (by decide)) fun _ => insert⟩

/-- A friendship is deleted; its messages are, or that statement failed. -/
theorem wpj_handleDeleteFriend {request : Request}
    {Q : Response → List (Stmt × Bool) → World P → Prop}
    (refused : ∀ response l, response.code ≠ 0 →
      NothingWritten (fun st => ∃ i j, st = .deleteFriend i j) l → Q response l w)
    (deleted : ∀ i j ok db, w.db.idOf request.username = some i →
      w.db.idOf (FriendManager.targetOf request) = some j →
      db = (if ok then (w.db.deleteFriend i j).deleteMessagesBetween i j else w.db.deleteFriend i j) →
      Q ⟨0, bytes "删除好友成功", none⟩ [(.deleteFriend i j, true), (.deleteMessages i j, ok)]
        { w with db := db }) :
    wpj E (FriendManager.handleDeleteFriend request) Q w := by
  have refuse : ∀ response : Response, response.code ≠ 0 → Q response [] w :=
    fun response hcode => refused response [] hcode (.nil _)
  unfold FriendManager.handleDeleteFriend
  refine wpj_if (fun _ => refuse _ (by decide)) fun _ => ?_
  refine (wpj_bind _ _).mpr (wpj_reads (reads_caught rfl _ _) (wp_getUserIdByUsername.mpr ?_))
  refine ⟨fun _ => refuse _ (by decide), ?_⟩
  cases hi : w.db.idOf request.username with
  | none => exact refuse _ (by decide)
  | some i =>
    refine (wpj_bind _ _).mpr (wpj_reads (reads_caught rfl _ _) (wp_getUserIdByUsername.mpr ?_))
    refine ⟨fun _ => refuse _ (by decide), ?_⟩
    cases hj : w.db.idOf (FriendManager.targetOf request) with
    | none => exact refuse _ (by decide)
    | some j =>
      -- the two statements; the result of the second is ignored, so it may go through or not
      have delete : wpj E (do
          if ¬ (← FriendDAO.deleteFriend i j) then
            return ⟨5001, bytes "数据库操作失败", none⟩
          let _ ← FriendDAO.deleteMessagesBetweenUsers i j
          return ⟨0, bytes "删除好友成功", none⟩) Q w := by
        refine (wpj_bind _ _).mpr (wpj_write rfl (wp_deleteFriend.mpr ⟨fun _ => ?_, ?_⟩))
        · exact refused _ _ (by decide) (.failed ⟨i, j, rfl⟩)
        refine (wpj_bind _ _).mpr (wpj_write rfl (wp_deleteMessagesBetweenUsers.mpr ⟨fun _ => ?_, ?_⟩))
        · exact deleted i j false _ hi hj rfl
        · exact deleted i j true _ hi hj rfl
      refine (wpj_bind _ _).mpr (wpj_reads (reads_caught rfl _ _) (wp_checkFriendship.mpr ?_))
      exact ⟨fun _ => refuse _ (by decide), wpj_if (fun _ => refuse _ (by decide)) fun _ => delete⟩

end LiteChat
