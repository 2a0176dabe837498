import LiteChat.Proof.Calls
import LiteChat.Proof.Sessions
import LiteChat.Proof.Users

/-!
# What requests leave alone

Most of what the server does for a request leaves users, sessions and connections as they are.
Sending is the smallest case: `Talks` says that a world differs from another in its trace only, and
the notification of friends is no more than that. For the handlers that read, or write to `friends`,
it is a fact about the operations they call and not about what they do with the answers, so it is
proved about operations (`Op.Plain`, `World.handle_plain`), and a handler has it because of what it
calls (`wp_plain`). Those handlers do not write to `messages` either, but for deleting rows.
-/

namespace LiteChat

open LiteChat.Action Spec

variable {P : Platform} {E : Env} {w w' w'' : World P}

/-! ## Worlds that differ in what was said -/

/-- Frames were sent, nothing else happened. -/
def Talks (w w' : World P) : Prop := ∃ said, w' = { w with trace := w.trace ++ said }

theorem Talks.refl (w : World P) : Talks w w := ⟨[], by simp⟩

theorem Talks.trans (h : Talks w w') (h' : Talks w' w'') : Talks w w'' := by
  obtain ⟨said, rfl⟩ := h
  obtain ⟨said', rfl⟩ := h'
  exact ⟨said ++ said', by simp⟩

theorem Talks.observe (w : World P) (o : Obs) : Talks w (w.observe o) := ⟨[o], rfl⟩

theorem Talks.db (h : Talks w w') : w'.db = w.db := by
  obtain ⟨said, rfl⟩ := h
  rfl

theorem Talks.sessions (h : Talks w w') : w'.sessions = w.sessions := by
  obtain ⟨said, rfl⟩ := h
  rfl

theorem Talks.trace (h : Talks w w') : w.trace <+: w'.trace := by
  obtain ⟨said, rfl⟩ := h
  exact List.prefix_append _ _

/-- It was said since. -/
def Said (o : Obs) (w w' : World P) : Prop := ∃ said, w'.trace = w.trace ++ said ∧ o ∈ said

/-- Whatever else is said before and after. -/
theorem Said.around {o : Obs} {w₀ w₁ : World P} (h : Said o w w') (hbefore : w₀.trace <+: w.trace)
    (hafter : w'.trace <+: w₁.trace) : Said o w₀ w₁ := by
  obtain ⟨said, hsaid, ho⟩ := h
  obtain ⟨before, hbefore⟩ := hbefore
  obtain ⟨after, hafter⟩ := hafter
  refine ⟨before ++ said ++ after, ?_, by simp [ho]⟩
  rw [← hafter, hsaid, ← hbefore]
  simp

/-- A send, whatever comes of it, is talk. -/
theorem wp_say {c : Socket} {frame : Frame} {Q : Bool → World P → Prop}
    (h : ∀ ok w', Talks w w' → Q ok w') : wp E (sendData c frame) Q w :=
  wp_sendData.mpr ⟨h true _ (Talks.observe w _), fun _ => h false _ (Talks.observe w _)⟩

/-- A pointer that the session manager hands out is good. -/
theorem World.live_byUsername {u : Str} {p : SessionPtr}
    (h : w.sessions.getSessionByUsername u = some p) :
    ∃ s, w.sessions.heap.lookup p = some s ∧ w.sessions.route u = some s.socket ∧
      w.sessions.getSession s.socket = some p ∧ w.sessions.loginAt s.socket = some s.username := by
  obtain ⟨c, hr, hp⟩ := SessionManager.getSession_of_byUsername h
  obtain ⟨s, hs, rfl, hl⟩ := SessionManager.heap_of_getSession hp
  exact ⟨s, hs, hr, hp, hl⟩

theorem wp_notifyEach (frame : Frame) (friends : List (Str × Bool)) :
    wp E (UserManager.notifyEach frame friends) (fun _ w' => Talks w w') w := by
  induction friends generalizing w with
  | nil => exact Talks.refl w
  | cons friend friends ih =>
    obtain ⟨friendUsername, isOnline⟩ := friend
    unfold UserManager.notifyEach
    cases isOnline with
    | false => exact ih
    | true =>
      simp only [if_true, wp_bind, wp_getSessionByUsername]
      cases hp : w.sessions.getSessionByUsername friendUsername with
      | none => exact ih
      | some p =>
        obtain ⟨s, hs, _⟩ := w.live_byUsername hp
        simp only [wp_bind, wp_getSocket hs]
        exact wp_say fun _ w' hw => wp_mono ih fun _ _ => hw.trans

theorem wp_notify {u : Str} {status : UserStatus} {Q : Unit → World P → Prop}
    (h : ∀ w', Talks w w' → Q () w') :
    wp E (UserManager.notifyFriendsStatusChange u status) Q w := by
  have hrefl : Q () w := h w (Talks.refl w)
  unfold UserManager.notifyFriendsStatusChange
  simp only [wp_bind, wp_getUserIdByUsername]
  refine ⟨fun _ => hrefl, ?_⟩
  cases w.db.idOf u with
  | none => exact hrefl
  | some i =>
    simp only [wp_bind, wp_getFriendsOfUser]
    exact ⟨fun _ => hrefl, fun rank => wp_mono (wp_notifyEach _ _) fun _ => h⟩

/-! ## Handlers that leave users and sessions alone -/

/-- Users, sessions and connections are as they were; what was said stays said. -/
structure KeepsUsers (w w' : World P) : Prop where
  users : w'.db.users = w.db.users
  sessions : w'.sessions = w.sessions
  openSockets : w'.openSockets = w.openSockets
  trace : w.trace <+: w'.trace

theorem KeepsUsers.refl (w : World P) : KeepsUsers w w := ⟨rfl, rfl, rfl, List.prefix_rfl⟩

theorem KeepsUsers.trans (h : KeepsUsers w w') (h' : KeepsUsers w' w'') : KeepsUsers w w'' :=
  ⟨h'.users.trans h.users, h'.sessions.trans h.sessions, h'.openSockets.trans h.openSockets,
    h.trace.trans h'.trace⟩

theorem KeepsUsers.of_talks (h : Talks w w') : KeepsUsers w w' := by
  obtain ⟨said, rfl⟩ := h
  exact ⟨rfl, rfl, rfl, List.prefix_append _ _⟩

theorem KeepsUsers.byName (h : KeepsUsers w w') (u : Str) : w'.db.byName u = w.db.byName u := by
  unfold Database.byName
  rw [h.users]

theorem KeepsUsers.idOf (h : KeepsUsers w w') (u : Str) : w'.db.idOf u = w.db.idOf u := by
  unfold Database.idOf
  rw [h.byName]

/-- Users and sessions are as they were, and no message is new or marked. -/
structure Plain (w w' : World P) : Prop extends KeepsUsers w w' where
  messages : ∀ m ∈ w'.db.messages, m ∈ w.db.messages

theorem Plain.refl (w : World P) : Plain w w := ⟨.refl w, fun _ => id⟩

theorem Plain.trans (h : Plain w w') (h' : Plain w' w'') : Plain w w'' :=
  ⟨h.toKeepsUsers.trans h'.toKeepsUsers, fun m hm => h.messages m (h'.messages m hm)⟩

theorem Plain.of_talks (h : Talks w w') : Plain w w' := by
  refine ⟨.of_talks h, fun m hm => ?_⟩
  rw [h.db] at hm
  exact hm

/-- The statements that do not write to `users`, and to `messages` no more than to delete. -/
def Stmt.Plain : Stmt → Prop
  | .insertUser _ _ | .updateUsername _ _ | .updatePassword _ _ | .updateOnline _ _
  | .updateLastLogin _ | .updateOnlineByName _ _ | .insertMessage _ _ _ | .markRead _ _ => False
  | _ => True

/-- The operations that touch neither users nor sessions nor connections. -/
def Op.Plain : Op → Prop
  | .sql st => st.Plain
  | .addSession _ | .removeSession _ | .bindUsername _ _ | .setUsername _ _ | .updateHeartbeat _
  | .accept _ | .close _ | .addConnections _ => False
  | _ => True

theorem Op.Reads.plain {o : Op} (ho : o.Reads) : o.Plain := by
  cases o with
  | addSession | removeSession | bindUsername | setUsername | updateHeartbeat | accept | close
  | addConnections => exact absurd ho id
  | sql st => cases st <;> trivial
  | _ => trivial

theorem Op.WritesOnly.plain {S : Stmt → Prop} (hS : ∀ st, S st → st.Plain) {o : Op}
    (ho : o.WritesOnly S) : o.Plain := by
  rcases ho with ho | ⟨st, rfl, hst⟩
  · exact ho.plain
  · exact hS st hst

theorem Database.exec_plain {db db' : Database P} {st : Stmt} (hst : st.Plain) {now : Nat}
    {rank : Nat → Nat} {r : st.Res} (h : db.exec now rank st = some (r, db')) :
    db'.users = db.users ∧ ∀ m ∈ db'.messages, m ∈ db.messages := by
  have hdb : (db.exec now rank st).map Prod.snd = some db' := by rw [h]; rfl
  cases st with
  | insertUser | updateUsername | updatePassword | updateOnline | updateLastLogin
  | updateOnlineByName | insertMessage | markRead => exact absurd hst id
  | insertFriend i j =>
    obtain ⟨_, husers, hmessages, _⟩ := tables_of_insertFriend (of_tried hdb)
    exact ⟨husers, fun m hm => hmessages ▸ hm⟩
  | deleteMessages i j =>
    rw [← Option.some.inj hdb]
    exact ⟨rfl, fun m hm => List.mem_of_mem_filter hm⟩
  | _ => exact Option.some.inj hdb ▸ ⟨rfl, fun _ => id⟩

theorem World.handle_plain {o : Op} (ho : o.Plain) (ch : Choice) (w : World P) :
    LiteChat.Plain w (World.handle o ch w).2 := by
  have same : ∀ {w' : World P}, w'.db = w.db → w'.sessions = w.sessions →
      w'.openSockets = w.openSockets → w'.trace = w.trace → LiteChat.Plain w w' :=
    fun hdb hs ho ht => ⟨⟨by rw [hdb], hs, ho, ht ▸ List.prefix_rfl⟩, fun m hm => hdb ▸ hm⟩
  have hderefs := fun ho : World.Derefs o => World.handle_derefs ho ch w
  cases o with
  | addSession | removeSession | bindUsername | setUsername | updateHeartbeat | accept | close
  | addConnections => exact absurd ho id
  | sql st =>
    obtain ⟨db, hw, hdb⟩ := w.execute_world st ch
    show LiteChat.Plain w (w.execute st ch).2
    rw [hw]
    rcases hdb with rfl | ⟨r, hex⟩
    · exact Plain.refl w
    · obtain ⟨husers, hmessages⟩ := Database.exec_plain ho hex
      exact ⟨⟨husers, rfl, rfl, List.prefix_rfl⟩, hmessages⟩
  | getSocket | getUsername | getLastHeartbeat | getIsConnected =>
    obtain ⟨lost, hw⟩ := hderefs trivial
    rw [hw]
    exact same rfl rfl rfl rfl
  | sendData c frame => exact .of_talks (Talks.observe w _)
  | shutdown c => exact .of_talks (Talks.observe w _)
  | cacheInsert | cacheErase => exact same rfl rfl rfl rfl
  | _ => exact Plain.refl w

/-- Code that calls only such operations is plain. -/
theorem wp_plain {α : Type} {p : Action α} (hp : p.Uses Op.Plain) :
    wp E p (fun _ w' => Plain w w') w :=
  Effect.Prog.wp_frame hp Plain Plain.refl (fun _ _ _ => Plain.trans)
    fun _ ch t ho _ => World.handle_plain ho ch t

theorem handleAddFriend_uses (request : Request) :
    (FriendManager.handleAddFriend request).Uses Op.Plain := by
  refine (handleAddFriend_writes request).mono fun _ => Op.WritesOnly.plain ?_
  rintro _ ⟨i, j, rfl⟩
  trivial

theorem handleDeleteFriend_uses (request : Request) :
    (FriendManager.handleDeleteFriend request).Uses Op.Plain := by
  refine (handleDeleteFriend_writes request).mono fun _ => Op.WritesOnly.plain ?_
  rintro _ ⟨i, j, rfl | rfl⟩ <;> trivial

theorem cacheFriendList_uses (username : Str) :
    (FriendManager.cacheFriendList username).Uses Op.Plain := by
  refine .bind (uses_caught (by trivial) _ _) fun r => ?_
  cases r with
  | none => trivial
  | some i =>
    refine .bind (uses_caught (by trivial) _ _) fun r => ?_
    cases r with
    | none => trivial
    | some friends => exact uses_op trivial

end LiteChat
