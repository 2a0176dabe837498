import LiteChat.Proof.Delivery
import LiteChat.Proof.NewerLogin
import Mathlib.Data.Option.Basic

/-!
# Whom a message reaches

The sender of a message looks the receiver's session up twice, reads its descriptor through the
pointer, and writes a frame to that number, each in a step of its own. What it writes reaches the
receiver as long as a lookup by the receiver's name finds the receiver's session, and nobody removes,
replaces or renames a session that the sender has found and has still to write to
(`reachesReceiver_run`). Whatever else other threads do makes no difference.
-/

namespace LiteChat

open LiteChat.Action Effect Server MessageManager

variable {P : Platform} {w w' w₀ : World P}

/-! ## Sessions that others do not touch -/

/-- A descriptor gets a session by `AddSession` and loses it by `RemoveSession`. -/
theorem World.getSession_handle {o : Op} {c : Socket} (hadd : o ≠ .addSession c)
    (hremove : o ≠ .removeSession c) (ch : Choice) (w : World P) :
    (World.handle o ch w).2.sessions.getSession c = w.sessions.getSession c := by
  have hkeeps : o.KeepsSessions →
      (World.handle o ch w).2.sessions.getSession c = w.sessions.getSession c := by
    intro ho
    rw [World.sessions_handle ho ch w]
  cases o with
  | addSession d =>
    refine (SessionManager.getSession_addSession _ _ c).trans (if_neg ?_)
    rintro rfl
    exact hadd rfl
  | removeSession d =>
    refine (SessionManager.getSession_removeSession _ _ c).trans (if_neg ?_)
    rintro rfl
    exact hremove rfl
  | bindUsername d u => rfl
  | setUsername q u => rw [World.sessions_setUsername, SessionManager.getSession_setUsername]
  | updateHeartbeat q => exact (World.handle_updateHeartbeat q ch w).getSession c
  | _ => exact hkeeps trivial

/-- The session at `p` is the one of `c`, and `u` is logged in there. -/
structure BoundTo (u : Str) (p : SessionPtr) (c : Socket) (w : World P) : Prop where
  session : w.sessions.getSession c = some p
  login : w.sessions.loginAt c = some u

section BoundTo

variable {u : Str} {p : SessionPtr} {c : Socket} {o : Op}

/-- Only removing, replacing and renaming it unbinds a session; whatever else is called, it is still the
session of its descriptor and has its name. -/
theorem BoundTo.handle (h : BoundTo u p c w) (hadd : o ≠ .addSession c) (hremove : o ≠ .removeSession c)
    (hname : ∀ v, o = .setUsername p v → v = u) (ch : Choice) : BoundTo u p c (World.handle o ch w).2 := by
  refine ⟨(World.getSession_handle hadd hremove ch w).trans h.session, ?_⟩
  have hkeeps : o.KeepsSessions → (World.handle o ch w).2.sessions.loginAt c = some u := by
    intro ho
    rw [World.sessions_handle ho ch w]
    exact h.login
  cases o with
  | addSession d =>
    refine (SessionManager.loginAt_addSession _ _ c).trans ((if_neg ?_).trans h.login)
    rintro rfl
    exact hadd rfl
  | removeSession d =>
    refine (SessionManager.loginAt_removeSession _ _ c).trans ((if_neg ?_).trans h.login)
    rintro rfl
    exact hremove rfl
  | bindUsername d v => exact h.login
  | setUsername q v =>
    -- the object may be the one at `p`, and then the name is the one it has
    rw [World.sessions_setUsername, SessionManager.loginAt_setUsername, h.session]
    split
    · rename_i hpq
      obtain rfl := Option.some.inj hpq
      rw [hname v rfl]
    · exact h.login
  | updateHeartbeat q => exact ((World.handle_updateHeartbeat q ch w).loginAt c).trans h.login
  | _ => exact hkeeps trivial

theorem BoundTo.live (h : BoundTo u p c w) :
    ∃ s, w.sessions.heap.lookup p = some s ∧ s.socket = c := by
  obtain ⟨s, hs, hc, _⟩ := SessionManager.heap_of_getSession h.session
  exact ⟨s, hs, hc⟩

end BoundTo

/-- Sessions keep their descriptors, and their addresses are not used again. -/
structure KeepsSockets (w w' : World P) : Prop where
  older : w.sessions.nextPtr ≤ w'.sessions.nextPtr
  socket : ∀ p s', p < w.sessions.nextPtr → w'.sessions.heap.lookup p = some s' →
    ∃ s, w.sessions.heap.lookup p = some s ∧ s'.socket = s.socket

theorem KeepsSockets.of_sessions (h : w'.sessions = w.sessions) : KeepsSockets w w' := by
  refine ⟨by rw [h], fun p s' _ hs' => ⟨s', ?_, rfl⟩⟩
  rw [← h]
  exact hs'

theorem KeepsSockets.of_modify {p : SessionPtr} {f : ClientSession → ClientSession}
    (hf : ∀ s, (f s).socket = s.socket) (h : w'.sessions = w.sessions.modify p f hf) :
    KeepsSockets w w' := by
  refine ⟨?_, fun q s' _ hs' => ?_⟩
  · rw [h]
    unfold SessionManager.modify
    split <;> exact Nat.le_refl _
  · rw [h, SessionManager.heap_modify] at hs'
    split at hs'
    · rename_i hq
      obtain ⟨s, hs, rfl⟩ := Option.map_eq_some_iff.mp hs'
      exact ⟨s, hq ▸ hs, hf s⟩
    · exact ⟨s', hs', rfl⟩

theorem World.keepsSockets (o : Op) (ch : Choice) (w : World P) :
    KeepsSockets w (World.handle o ch w).2 := by
  have hwrite : ∀ (p : SessionPtr) (f : ClientSession → ClientSession)
      (hf : ∀ s, (f s).socket = s.socket), KeepsSockets w (w.write p (·.modify p f hf)) := by
    intro p f hf
    unfold World.write
    split
    · exact .of_modify hf rfl
    · exact .of_sessions rfl
  have hkeeps : o.KeepsSessions → KeepsSockets w (World.handle o ch w).2 :=
    fun ho => .of_sessions (World.sessions_handle ho ch w)
  cases o with
  | addSession c =>
    refine ⟨Nat.le_succ _, fun p s' hp hs' => ⟨s', ?_, rfl⟩⟩
    exact (SessionManager.heap_addSession _ _ hp).symm.trans hs'
  | removeSession c =>
    refine ⟨Nat.le_of_eq (SessionManager.nextPtr_removeSession _ _).symm, fun p s' _ hs' => ?_⟩
    have hheap := (SessionManager.heap_removeSession w.sessions c p).symm.trans hs'
    split at hheap
    · cases hheap
    · exact ⟨s', hheap, rfl⟩
  | bindUsername c u => exact ⟨Nat.le_refl _, fun p s' _ hs' => ⟨s', hs', rfl⟩⟩
  | setUsername p u => exact hwrite p _ _
  | updateHeartbeat p => exact hwrite p _ _
  | _ => exact hkeeps trivial

/-! ## What the sender holds -/

/-- What the sender was given for each of its lookups. -/
def found (own : List (Call Op Op.Res)) : List (Option SessionPtr) :=
  own.filterMap fun call => match call with
    | ⟨.getSessionByUsername _, session⟩ => some session
    | _ => none

/-- The sender has written a frame of that type. -/
def hasSent (type : String) (own : List (Call Op Op.Res)) : Bool :=
  own.any fun call => match call with
    | ⟨.sendData _ frame, _⟩ => frame.type? == some (bytes type)
    | _ => false

/-- The sender has found the session and has still to write to it: the first it finds is for the
notification, the second for the message. -/
def InUse (own : List (Call Op Op.Res)) (p : SessionPtr) : Prop :=
  (found own)[0]? = some (some p) ∧ hasSent "MSG_NOTIFY" own = false ∨
    (found own)[1]? = some (some p) ∧ hasSent "FORWARD_MSG" own = false

instance (own : List (Call Op Op.Res)) (p : SessionPtr) : Decidable (InUse own p) := by
  unfold InUse
  infer_instance

theorem found_append (own own' : List (Call Op Op.Res)) :
    found (own ++ own') = found own ++ found own' := List.filterMap_append

/-- A session comes into use by being found. -/
theorem InUse.before {own : List (Call Op Op.Res)} {call : Call Op Op.Res} {p : SessionPtr}
    (h : InUse (own ++ [call]) p) : InUse own p ∨ some p ∈ found [call] := by
  have hsent : ∀ type, hasSent type (own ++ [call]) = false → hasSent type own = false := by
    intro type h
    unfold hasSent at h ⊢
    rw [List.any_append, Bool.or_eq_false_iff] at h
    exact h.1
  have hfound : ∀ i : Nat, (found (own ++ [call]))[i]? = some (some p) →
      (found own)[i]? = some (some p) ∨ some p ∈ found [call] := by
    intro i hi
    rw [found_append] at hi
    rcases Nat.lt_or_ge i (found own).length with hlt | hge
    · rw [List.getElem?_append_left hlt] at hi
      exact .inl hi
    · rw [List.getElem?_append_right hge] at hi
      exact .inr (List.mem_of_getElem? hi)
  rcases h with ⟨h0, hs⟩ | ⟨h1, hs⟩
  · exact (hfound 0 h0).imp_left fun h => .inl ⟨h, hsent _ hs⟩
  · exact (hfound 1 h1).imp_left fun h => .inr ⟨h, hsent _ hs⟩

/-! ## What the sender calls -/

/-- It looks up the receiver, reads the descriptor of what it has found, and writes to that. -/
def SendCalls (u : Str) (own : List (Call Op Op.Res)) : Op → Prop
  | .getSessionByUsername v => v = u
  | .getSocket p => InUse own p
  | .sendData c _ => ∃ p, InUse own p ∧ (⟨.getSocket p, c⟩ : Call Op Op.Res) ∈ own
  | .sql _ => True
  | _ => False

section Calls

variable {A : Choice → Prop} {I : World P → Prop} {H : Handler Op Op.Res Choice (World P)}
  {own : List (Call Op Op.Res)} {α β : Type}

/-- What the sender has found and sent so far. -/
structure SoFar (sessions : List (Option SessionPtr)) (forwarded : Bool)
    (own : List (Call Op Op.Res)) : Prop where
  sessions : found own = sessions
  forwarded : hasSent "FORWARD_MSG" own = forwarded
  notified : hasSent "MSG_NOTIFY" own = false

theorem SoFar.append {sessions : List (Option SessionPtr)} {forwarded : Bool}
    (h : SoFar sessions forwarded own) {o : Op} (r : Op.Res o) (hfound : found [⟨o, r⟩] = [])
    (hsent : ∀ type, hasSent type [⟨o, r⟩] = false) : SoFar sessions forwarded (own ++ [⟨o, r⟩]) := by
  have hany : ∀ type, hasSent type (own ++ [⟨o, r⟩]) = hasSent type own := by
    intro type
    have := hsent type
    unfold hasSent at this ⊢
    rw [List.any_append, this, Bool.or_false]
  refine ⟨?_, (hany _).trans h.forwarded, (hany _).trans h.notified⟩
  rw [found_append, hfound, List.append_nil]
  exact h.sessions

theorem caught_among {st : Stmt} {f : st.Res → α} {failed : α} {k : α → Action β}
    {sessions : List (Option SessionPtr)} {forwarded : Bool} {u : Str}
    {Done : β → List (Call Op Op.Res) → Prop} (h : SoFar sessions forwarded own)
    (hk : ∀ a own', SoFar sessions forwarded own' →
      (k a).Among H A I (SendCalls u) Done own') :
    Prog.Among H A I (SendCalls u) (caught st f failed >>= k) Done own := by
  show Prog.Among _ _ _ _ ((caught st f failed).bind k) _ _
  unfold caught
  rw [Prog.bind_eq, Prog.bind_assoc]
  refine .call_any trivial fun r => ?_
  cases r <;> exact hk _ _ (h.append _ rfl fun _ => rfl)

/-- A lookup. -/
theorem SoFar.lookup {sessions : List (Option SessionPtr)} {forwarded : Bool}
    (h : SoFar sessions forwarded own) (u : Str) (session : Option SessionPtr) :
    SoFar (sessions ++ [session]) forwarded (own ++ [⟨.getSessionByUsername u, session⟩]) := by
  have hany : ∀ type, hasSent type (own ++ [⟨.getSessionByUsername u, session⟩]) =
      hasSent type own := by
    intro type
    unfold hasSent
    rw [List.any_append]
    exact Bool.or_false _
  refine ⟨?_, (hany _).trans h.forwarded, (hany _).trans h.notified⟩
  rw [found_append, h.sessions]
  rfl

theorem forwardMessage_among {p : SessionPtr} (h : SoFar [some p] false own) (i j : UserId)
    (v u content sendTime : Str) :
    (forwardMessage i v j u content sendTime).Among H A I (SendCalls u)
      (fun _ own' => ∃ session forwarded, SoFar [some p, session] forwarded own') own := by
  refine .call_any rfl fun session => ?_
  have h₁ : SoFar [some p, session] false _ := h.lookup u session
  cases session with
  | none => exact ⟨none, false, h₁⟩
  | some q =>
    refine .call_any (.inr ⟨by rw [h₁.sessions]; rfl, h₁.forwarded⟩) fun c => ?_
    have h₂ := h₁.append (o := .getSocket q) c rfl fun _ => rfl
    refine .call_any ⟨q, .inr ⟨by rw [h₂.sessions]; rfl, h₂.forwarded⟩, by simp⟩ fun ok => ?_
    have h₃ : SoFar [some p, some q] true (own ++ [⟨.getSessionByUsername u, some q⟩] ++
        [⟨.getSocket q, c⟩] ++ [⟨.sendData c (forwardMsg v content sendTime), ok⟩]) := by
      refine ⟨?_, ?_, ?_⟩
      · rw [found_append, h₂.sessions]
        rfl
      · unfold hasSent
        rw [List.any_append, Bool.or_eq_true]
        exact .inr rfl
      · unfold hasSent
        rw [List.any_append, Bool.or_eq_false_iff]
        exact ⟨h₂.notified, rfl⟩
    cases (ok : Bool) with
    | false => exact ⟨some q, true, h₃⟩
    | true =>
      exact caught_among h₃ fun _ own' h' => ⟨some q, true, h'⟩

theorem forwardLive_among (h : SoFar [] false own) (request : Request) (i j : UserId) :
    (forwardLive request i j).Among H A I (SendCalls request.targetUsername) (fun _ _ => True) own := by
  refine caught_among h fun isOnline own h => ?_
  cases isOnline.getD false with
  | false => trivial
  | true =>
    refine .call_any rfl fun session => ?_
    cases session with
    | none => trivial
    | some p =>
      have h₁ : SoFar [some p] false _ := h.lookup request.targetUsername (some p)
      refine (Prog.among_bind _ _).mpr ((forwardMessage_among h₁ i j _ _ _ _).mono ?_)
      rintro _ own' ⟨session, forwarded, h₂⟩
      refine .call_any (.inl ⟨by rw [h₂.sessions]; rfl, h₂.notified⟩) fun c => ?_
      have h₃ := h₂.append (o := .getSocket p) c rfl fun _ => rfl
      exact .call_any ⟨p, .inl ⟨by rw [h₃.sessions]; rfl, h₃.notified⟩, by simp⟩ fun _ => trivial

theorem handleSendMessage_among (request : Request) :
    (handleSendMessage request).Among H A I (SendCalls request.targetUsername)
      (fun _ _ => True) [] := by
  have h : SoFar [] false [] := ⟨rfl, rfl, rfl⟩
  unfold handleSendMessage
  split
  · trivial
  split
  · trivial
  refine caught_among h fun r own h => ?_
  cases r with
  | none => trivial
  | some i =>
    refine caught_among h fun r own h => ?_
    cases r with
    | none => trivial
    | some j =>
      refine caught_among h fun stored own h => ?_
      split
      · trivial
      · exact (Prog.among_bind _ _).mpr ((forwardLive_among h request i j).mono fun _ _ _ => trivial)

end Calls

/-! ## Every interleaving -/

/-- The sender, and everybody else. -/
inductive Party (κ : Type)
  | sending
  | other (k : κ)
  deriving DecidableEq

section Parties

variable {κ : Type} [DecidableEq κ]

def parties (request : Request) (others : κ → Action Unit) : Party κ → Action Unit
  | .sending => do
    let _ ← handleSendMessage request
  | .other k => others k

/-- What the sender writes goes to a connection where `u` is logged in. -/
def ReachesReceiver (u : Str) (w : World P) : Party κ → Op → Prop
  | .sending, .sendData c _ => w.sessions.loginAt c = some u
  | _, _ => True

instance (u : Str) (w : World P) (k : Party κ) (o : Op) : Decidable (ReachesReceiver u w k o) := by
  apply Party.casesOn (motive := fun k => Decidable (ReachesReceiver u w k o)) k <;> intros <;>
    apply Op.casesOn (motive := fun o => Decidable (ReachesReceiver u w _ o)) o <;> intros <;>
    unfold ReachesReceiver <;> infer_instance

/-- A lookup of the sender is led to nobody but `u`, and others neither remove nor replace nor rename
a session that it has in use. -/
def Undisturbed (u : Str) (w : World P) (h : List (Party κ × Call Op Op.Res)) : Party κ → Op → Prop
  | .sending, .getSessionByUsername v =>
      ∀ v' ∈ (w.sessions.route v).bind w.sessions.loginAt, v' = u
  | .other _, .addSession c | .other _, .removeSession c =>
      ∀ p ∈ w.sessions.getSession c, ¬ InUse (Pool.own h .sending) p
  | .other _, .setUsername p v => InUse (Pool.own h .sending) p → v = u
  | _, _ => True

instance (u : Str) (w : World P) (h : List (Party κ × Call Op Op.Res)) (k : Party κ) (o : Op) :
    Decidable (Undisturbed u w h k o) := by
  apply Party.casesOn (motive := fun k => Decidable (Undisturbed u w h k o)) k <;> intros <;>
    apply Op.casesOn (motive := fun o => Decidable (Undisturbed u w h _ o)) o <;> intros <;>
    unfold Undisturbed <;> infer_instance

/-- What holds between any two calls: `u` is logged in on every session in use, and a descriptor that
the sender has read is the session's. -/
structure Addressed (u : Str) (w : World P) (h : List (Party κ × Call Op Op.Res)) : Prop where
  held : ∀ p, InUse (Pool.own h .sending) p → ∃ c, BoundTo u p c w
  socket : ∀ p (c : Socket), (.sending, ⟨.getSocket p, c⟩) ∈ h → p < w.sessions.nextPtr ∧
    ∀ s, w.sessions.heap.lookup p = some s → s.socket = c

variable {u : Str} {h : List (Party κ × Call Op Op.Res)} {o : Op}

theorem Addressed.socket_handle (ha : Addressed u w h) (o : Op) (ch : Choice) {p : SessionPtr}
    {c : Socket} (hmem : (.sending, ⟨.getSocket p, c⟩) ∈ h) :
    p < (World.handle o ch w).2.sessions.nextPtr ∧
      ∀ s, (World.handle o ch w).2.sessions.heap.lookup p = some s → s.socket = c := by
  obtain ⟨hp, hc⟩ := ha.socket p c hmem
  have hkeeps := World.keepsSockets o ch w
  refine ⟨Nat.lt_of_lt_of_le hp hkeeps.older, fun s' hs' => ?_⟩
  obtain ⟨s, hs, hsocket⟩ := hkeeps.socket p s' hp hs'
  exact hsocket.trans (hc s hs)

/-- The calls of others. -/
theorem Addressed.other (ha : Addressed u w h) {k : κ} (hcond : Undisturbed u w h (.other k) o)
    (ch : Choice) : Addressed u (World.handle o ch w).2
      (h ++ [(.other k, ⟨o, (World.handle o ch w).1⟩)]) := by
  have hown : Pool.own (h ++ [(Party.other k, (⟨o, (World.handle o ch w).1⟩ : Call Op Op.Res))])
      .sending = Pool.own h .sending :=
    Pool.own_append_ne (i := Party.other k) (j := Party.sending) nofun _
  refine ⟨fun p hp => ?_, fun p c hmem => ?_⟩
  · rw [hown] at hp
    obtain ⟨c, hbound⟩ := ha.held p hp
    refine ⟨c, hbound.handle ?_ ?_ ?_ ch⟩
    · rintro rfl
      exact hcond p hbound.session hp
    · rintro rfl
      exact hcond p hbound.session hp
    · rintro v rfl
      exact hcond hp
  · rcases List.mem_append.mp hmem with hmem | hmem
    · exact ha.socket_handle o ch hmem
    · cases List.mem_singleton.mp hmem

/-- The calls of the sender. It changes no session; what it learns is a session that is routed under the
name, which by the condition has that name, and the descriptor of a session that it has learned of. -/
theorem Addressed.sending (ha : Addressed u w h) (hok : SendCalls u (Pool.own h .sending) o)
    (hcond : Undisturbed u w h .sending o) (ch : Choice) : Addressed u (World.handle o ch w).2
      (h ++ [(.sending, ⟨o, (World.handle o ch w).1⟩)]) := by
  have hsessions : (World.handle o ch w).2.sessions = w.sessions := by
    refine World.sessions_handle ?_ ch w
    cases o with
    | addSession | removeSession | bindUsername | setUsername | updateHeartbeat => exact hok
    | _ => trivial
  have hbound : ∀ {p c}, BoundTo u p c w → BoundTo u p c (World.handle o ch w).2 := by
    intro p c hb
    exact ⟨by rw [hsessions]; exact hb.session, by rw [hsessions]; exact hb.login⟩
  refine ⟨fun p hp => ?_, fun p c hmem => ?_⟩
  · rw [Pool.own_append_self] at hp
    rcases hp.before with hp | hnew
    · exact (ha.held p hp).imp fun _ => hbound
    · -- the session has just been found
      cases o with
      | getSessionByUsername v =>
        obtain rfl := hok
        have hfound : w.sessions.getSessionByUsername v = some p :=
          (List.mem_singleton.mp hnew).symm
        obtain ⟨c, hroute, hsession⟩ := SessionManager.getSession_of_byUsername hfound
        obtain ⟨s, _, _, hlogin⟩ := SessionManager.heap_of_getSession hsession
        have hname : s.username = v := hcond s.username (by
          rw [hroute, Option.bind_some]
          exact hlogin)
        exact ⟨c, hbound ⟨hsession, hname ▸ hlogin⟩⟩
      | _ => exact absurd hnew List.not_mem_nil
  · rcases List.mem_append.mp hmem with hmem | hmem
    · exact ha.socket_handle o ch hmem
    · cases o with
      -- the descriptor that was read is that of a session of the receiver
      | getSocket q =>
        obtain ⟨d, hb⟩ := ha.held q hok
        obtain ⟨s, hs, _⟩ := hb.live
        have hread : (World.handle (.getSocket q) ch w).1 = s.socket := by
          show (w.deref q (·.socket) (0 : Nat)).1 = s.socket
          unfold World.deref
          rw [hs]
        cases List.mem_singleton.mp hmem
        rw [hsessions]
        refine ⟨w.sessions.heap_lt _ s hs, fun s' hs' => ?_⟩
        rw [hread, Option.some.inj (hs.symm.trans hs')]
      | _ => cases List.mem_singleton.mp hmem

/-- What the sender writes to is what it has in use. -/
theorem Addressed.reaches (ha : Addressed u w h) {k : Party κ}
    (hok : k = .sending → SendCalls u (Pool.own h k) o) : ReachesReceiver u w k o := by
  cases k with
  | other k => trivial
  | sending =>
    cases o with
    | sendData c frame =>
      obtain ⟨p, huse, hread⟩ := hok rfl
      obtain ⟨d, hb⟩ := ha.held p huse
      obtain ⟨s, hs, rfl⟩ := hb.live
      obtain ⟨_, hsocket⟩ := ha.socket p c (Pool.mem_own.mp hread)
      exact hsocket s hs ▸ hb.login
    | _ => trivial

/-- **Messages reach only their receiver's connection**, whatever the other threads are, in every run in
which they leave the sessions alone that the sender has in use and its lookups lead to nobody else. One
thread is in `HandleSendMessage`; of the others nothing is assumed but the condition on their calls.
Every frame that passes on the message is written to a descriptor whose session is logged in under the
receiver's name at that moment. -/
theorem reachesReceiver_run (request : Request) (others : κ → Action Unit)
    (es : List (Party κ × Choice))
    (hes : Meets (Pool.step World.handle)
      (Pool.AllowsCalls (fun _ => True) (Undisturbed request.targetUsername))
      (Pool.start (parties request others) w₀) es) :
    Meets (Pool.step World.handle)
      (Pool.Allows (fun _ => True) fun w _ k o => ReachesReceiver request.targetUsername w k o)
      (Pool.start (parties request others) w₀) es := by
  have hstart : Pool.Follows World.handle (fun _ => True) (fun _ => True)
      (fun k own o => k = .sending → SendCalls request.targetUsername own o) (fun _ _ _ => True)
      (Addressed request.targetUsername) (Pool.start (parties request others) w₀) := by
    refine ⟨fun k => ?_, ⟨fun p hp => ?_, nofun⟩⟩
    · cases k with
      | sending =>
        refine (Prog.among_bind _ _).mpr ?_
        exact (handleSendMessage_among request).weaken (fun _ _ hok _ => hok) fun _ _ _ => trivial
      | other k =>
        exact (Prog.uses_of_forall (others k) fun _ => trivial).among (fun _ => True) trivial
          fun _ _ _ _ => ⟨nofun, fun _ => trivial⟩
    · rcases hp with ⟨h, _⟩ | ⟨h, _⟩ <;> cases h
  refine Meets.of_inv hstart (fun t e hf he => hf.step (fun _ _ _ => trivial) ?_ he)
    (fun t e hf he => ?_) hes
  · intro w h k o ch ha hok _ hcond
    cases k with
    | sending => exact ha.sending (hok rfl) hcond ch
    | other k => exact ha.other hcond ch
  · exact hf.allows (D := fun w _ k o => ReachesReceiver request.targetUsername w k o)
      (fun w h k o ha hok _ => ha.reaches hok) he

end Parties

/-! ## Bob leaves while Alice writes to him -/

/-- Alice is logged in on the first connection, Bob on the second. -/
def aliceAndBobOnline : World asciiCi :=
  runAll next (World.start Database.empty)
    (aliceRegisters ++ [bobRegisters, aliceLogsIn] ++ bobLogsIn [])

def aliceToBob (content : String) : Request where
  type := bytes "SEND_MSG"
  username := bytes "alice"
  password := []
  newUsername := []
  newPassword := []
  verifyPassword := []
  targetUsername := bytes "bob"
  content := bytes content
  count := 0
  clientSocket := 1

/-- The connection of Bob ends, and somebody is accepted. -/
def bobLeaves (accepted : Socket) : Work Unit where
  accepted := [accepted]
  clientSocket _ := 2
  received _ := []
  rounds := 0

/-- Somebody else is accepted in the meantime, and Bob leaves when all is said. -/
theorem reachesReceiver_meanwhile :
    Meets (Pool.step World.handle)
      (Pool.Allows (fun _ => True) fun w _ k o => ReachesReceiver (bytes "bob") w k o)
      (Pool.start (parties (aliceToBob "hi") (workers asciiCi (bobLeaves 3))) aliceAndBobOnline)
      (turns [(.sending, 7), (.other .accepting, 4), (.sending, 4), (.other (.handling ()), 12)]) :=
  reachesReceiver_run (aliceToBob "hi") _ _ (by decide)

/-- Bob leaves before the message is written, and somebody else gets the number. -/
theorem not_reachesReceiver : ¬ ∀ (w₀ : World asciiCi) (request : Request) (work : Work Unit)
    (es : List (Party (Worker Unit) × Choice)),
    Meets (Pool.step World.handle) (Pool.Allows Answers fun w _ _ o => Unused w o)
      (Pool.start (parties request (workers asciiCi work)) w₀) es →
    Meets (Pool.step World.handle)
      (Pool.Allows (fun _ => True) fun w _ k o => ReachesReceiver request.targetUsername w k o)
      (Pool.start (parties request (workers asciiCi work)) w₀) es := by
  intro h
  have hreaches := h aliceAndBobOnline (aliceToBob "hi") (bobLeaves 2)
    (turns [(.sending, 7), (.other (.handling ()), 12), (.other .accepting, 4), (.sending, 1)])
    (by decide)
  exact absurd hreaches (by decide)

end LiteChat
