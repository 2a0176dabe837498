import LiteChat.Proof.Accounts
import LiteChat.Proof.Counter

/-!
# Nobody logs in without the password

A name is given to a session after the account was looked up, and the account may have been renamed in
the meantime. While nobody sends its password that cannot happen to an account (LiteChat.Proof.Accounts):
its name is the one it had, selects it and no other, and was never answered but with its digest. So no
thread is authorized to give that name to a session, and no session ever speaks for the account.
-/

namespace LiteChat

open LiteChat.Action Effect Server UserManager

variable {P : Platform} {w w₀ : World P}

/-- A session that is logged in was logged in before, or is by the call. -/
theorem World.loginAt_handle {o : Op} {ch : Choice} {c : Socket} {u : Str}
    (h : (World.handle o ch w).2.sessions.loginAt c = some u) :
    w.sessions.loginAt c = some u ∨ u = [] ∨ ∃ p, o = .setUsername p u := by
  have keeps : o.KeepsSessions → w.sessions.loginAt c = some u ∨ u = [] ∨ ∃ p, o = .setUsername p u := by
    intro ho
    rw [World.sessions_handle ho] at h
    exact .inl h
  cases o with
  | addSession d =>
    change (w.sessions.addSession _).loginAt c = some u at h
    rw [SessionManager.loginAt_addSession] at h
    split at h
    · exact .inr (.inl (Option.some.inj h).symm)
    · exact .inl h
  | removeSession d =>
    change (w.sessions.removeSession d).loginAt c = some u at h
    rw [SessionManager.loginAt_removeSession] at h
    split at h
    · cases h
    · exact .inl h
  | bindUsername d v => exact .inl h
  | setUsername p v =>
    rw [World.sessions_setUsername, SessionManager.loginAt_setUsername] at h
    split at h
    · exact .inr (.inr ⟨p, by rw [Option.some.inj h]⟩)
    · exact .inl h
  | updateHeartbeat p =>
    rw [(World.handle_updateHeartbeat p ch w).loginAt] at h
    exact .inl h
  | _ => exact keeps trivial

section Runs

variable {κ : Type} [DecidableEq κ] {work : Work κ} {r : UserRow}
  {calls : List (Worker κ × Call Op Op.Res)}

/-- No client sends a password with that digest. -/
def Unproved (P : Platform) (work : Work κ) (h : Str) : Prop :=
  ∀ k password, Submits (work.received k) "LOGIN" "password" password ∨
    Submits (work.received k) "UPDATE_USER" "verifyPassword" password → P.md5 password ≠ h

/-- The account is as it was, whoever asked for its name was told of it, and no session carries the
name. -/
structure Untouched (work : Work κ) (w₀ : World P) (r : UserRow) (w : World P)
    (calls : List (Worker κ × Call Op Op.Res)) : Prop where
  accounts : AccountsKept work w₀ w calls
  selected : ∀ k u i h, Told (Pool.own calls k) u i h → P.weight u = P.weight r.username → i = r.userId
  nobody : ∀ c u, w.sessions.loginAt c = some u → u = [] ∨ P.weight u ≠ P.weight r.username

/-- Nobody who knows the password changes the account, and so nobody does. -/
theorem AccountsKept.unproved (h : AccountsKept work w₀ w calls) (hr : r ∈ w₀.db.users)
    (hsecret : Unproved P work r.passwordHash) :
    ∃ r' ∈ w.db.users, r'.userId = r.userId ∧ r'.username = r.username ∧
      r'.passwordHash = r.passwordHash := by
  have hfirst : w₀.db.firstAccount (registeredSince calls) r.userId =
      some (r.username, r.passwordHash) := by
    unfold Database.firstAccount
    rw [Database.byId_iff.mpr ⟨hr, rfl⟩]
  obtain ⟨r', hr', hid⟩ := List.mem_map.mp (h.there r.userId _ hfirst)
  obtain ⟨a, ha, hkept⟩ := h.kept r'.userId r'.username r'.passwordHash
    (Database.mem_accounts.mpr ⟨r', hr', rfl, rfl, rfl⟩)
  rw [hid, hfirst] at ha
  cases Option.some.inj ha
  rcases hkept with hkept | ⟨k, password, hsends, hdigest⟩
  · obtain ⟨hname, hhash⟩ := Prod.mk.inj hkept
    exact ⟨r', hr', hid, hname, hhash⟩
  · exact absurd hdigest (hsecret k password (.inr hsends))

/-- Whoever is told of the account is told the digest it had. -/
theorem AccountsKept.told_unproved (h : AccountsKept work w₀ w calls) (hr : r ∈ w₀.db.users)
    (hsecret : Unproved P work r.passwordHash) {k : Worker κ} {u digest : Str}
    (htold : Told (Pool.own calls k) u r.userId digest) : digest = r.passwordHash := by
  obtain ⟨a, ha, hkept⟩ := h.told k u r.userId digest htold
  unfold Database.firstAccount at ha
  rw [Database.byId_iff.mpr ⟨hr, rfl⟩] at ha
  cases Option.some.inj ha
  rcases hkept with hkept | ⟨j, password, hsends, hdigest⟩
  · exact hkept
  · exact absurd hdigest (hsecret j password (.inr hsends))

theorem Untouched.step (h : Untouched work w₀ r w calls) (hr : r ∈ w₀.db.users)
    (hsecret : Unproved P work r.passwordHash) {k : Worker κ} {o : Op}
    (hok : Authorized P (work.submits k) (Pool.own calls k) o) (ch : Choice) :
    Untouched work w₀ r (World.handle o ch w).2 (calls ++ [(k, ⟨o, (World.handle o ch w).1⟩)]) := by
  refine ⟨h.accounts.step hok ch, fun j u i digest htold hweight => ?_, fun c u hlogin => ?_⟩
  · rcases told_concat htold with htold | htold
    · exact h.selected j u i digest htold hweight
    · -- the row that the name selects is the account's, which still has its name
      by_cases ho : ∃ v, o = .sql (.selectUser v)
      · obtain ⟨v, rfl⟩ := ho
        have hcall : Op.sql (.selectUser u) = .sql (.selectUser v) :=
          congrArg Sigma.fst (List.mem_singleton.mp htold)
        cases hcall
        rcases w.execute_cases (.selectUser u) ch with ⟨answer, db, hex, hexec⟩ | hexec
        · obtain ⟨hanswer, _⟩ := Prod.mk.inj (Option.some.inj hex)
          have htold : Told [⟨.sql (.selectUser u), (w.execute (.selectUser u) ch).1⟩] u i digest := htold
          rw [hexec] at htold
          obtain ⟨row, hrow, hvals⟩ := Option.map_eq_some_iff.mp (hanswer.trans (told_selectUser htold))
          obtain ⟨hrow, hname⟩ := Database.byName_iff.mp hrow
          obtain ⟨r', hr', hid, hname', _⟩ := h.accounts.unproved hr hsecret
          have heq : row = r' := Database.eq_of_weight hrow hr' (by rw [hname, hweight, hname'])
          cases hvals
          rw [heq, hid]
        · have htold : Told [⟨.sql (.selectUser u), (w.execute (.selectUser u) ch).1⟩] u i digest := htold
          rw [hexec] at htold
          cases List.mem_singleton.mp htold
      · exact absurd htold (not_told _ (fun v hv => ho ⟨v, hv⟩) u i digest)
  · rcases World.loginAt_handle hlogin with hlogin | hnil | ⟨p, rfl⟩
    · exact h.nobody c u hlogin
    · exact .inl hnil
    · rcases hok with hnil | ⟨i, password, htold, hsent⟩
      · exact .inl hnil
      · refine .inr fun hweight => ?_
        have hi := h.selected k u i _ htold hweight
        subst hi
        have hdigest := h.accounts.told_unproved hr hsecret htold
        cases k with
        | handling k => exact hsecret k password (.inl hsent) hdigest
        | accepting | checking => exact hsent

/-- **No login without the password.** As long as no client sends a password with the digest of an
account, neither to log in nor to change it, no session of any connection is logged in to the account,
in any interleaving of the server's threads and whatever fails. -/
theorem noImpersonation_run (work : Work κ) (w₀ : World P) (r : UserRow) (hr : r ∈ w₀.db.users)
    (hsecret : Unproved P work r.passwordHash) (hstart : ∀ c, w₀.accountAt c ≠ some r.userId)
    (es : List (Worker κ × Choice)) (c : Socket) :
    (runAll (Pool.step World.handle) (Pool.start (workers P work) w₀) es).shared.accountAt c ≠
      some r.userId := by
  have hnobody : ∀ c u, w₀.sessions.loginAt c = some u → u = [] ∨ P.weight u ≠ P.weight r.username := by
    intro c u hlogin
    by_cases hu : u = []
    · exact .inl hu
    · refine .inr fun hweight => hstart c ?_
      unfold World.accountAt
      rw [hlogin, Option.bind_some, if_neg hu]
      exact Database.idOf_iff.mpr ⟨r, hr, hweight.symm, rfl⟩
  have hend := Pool.obeys_runAll (J := Untouched work w₀ r) (workers_authorized work)
    ⟨AccountsKept.start work w₀, nofun, hnobody⟩ (fun _ _ _ _ ch h hok => h.step hr hsecret hok ch) es
  intro haccount
  obtain ⟨u, hlogin, haccount⟩ := Option.bind_eq_some_iff.mp haccount
  split at haccount
  · cases haccount
  rename_i hu
  obtain ⟨row, hrow, hweight, hid⟩ := Database.idOf_iff.mp haccount
  obtain ⟨r', hr', hid', hname, _⟩ := hend.accounts.unproved hr hsecret
  have heq : row = r' := Database.eq_of_id hrow hr' (hid.trans hid'.symm)
  rcases hend.nobody c u hlogin with hnil | hne
  · exact hu hnil
  · exact hne (by rw [← hweight, heq, hname])

end Runs

/-! ## A guess -/

/-- Somebody guesses. -/
def mallory : Work Unit where
  accepted := [1]
  clientSocket _ := 1
  received _ := [flatBody [("type", "LOGIN"), ("username", "alice"), ("password", "guess")]]
  rounds := 0

theorem mallory_unproved : Unproved asciiCi mallory (bytes "5ebe2294ecd0e0f08eab7690d2a6ee69") := by
  rintro k password (⟨root, node, hroot, hheader, hfield⟩ | ⟨root, node, hroot, hheader, hfield⟩)
  · cases List.mem_singleton.mp hroot
    cases hheader
    cases hfield
    decide
  · cases List.mem_singleton.mp hroot
    have htype : some (bytes "LOGIN") = some (bytes "UPDATE_USER") :=
      congrArg (fun r => r.toOption.map Prod.fst) hheader
    exact absurd htype (by decide)

theorem noImpersonation_guess : (runAll (Pool.step World.handle) (Pool.start (workers asciiCi mallory)
    (World.start aliceHere.db)) (turns [(.accepting, 4), (.handling (), 8)])).shared.accountAt 1 ≠
      some 1 :=
  noImpersonation_run mallory (World.start aliceHere.db)
    ⟨1, bytes "alice", bytes "5ebe2294ecd0e0f08eab7690d2a6ee69", false, none⟩ (by decide)
    mallory_unproved (fun _ => (Option.some_ne_none 1).symm) _ 1

end LiteChat
