import LiteChat.Proof.Delivery
import LiteChat.Proof.Handover
import LiteChat.Proof.Receiver

/-!
# Exactly once across a login

A message is in the answer of the login's query, and forwarded by the login, exactly if its row is
unread at that moment; and its sender forwards it exactly if it does not find the receiver away. The
two agree if, when the query is made, the sender is in the middle of no message, and if no message
that it has left for the login has been marked with a later one. In every run in which both is so,
each message is forwarded exactly once (`exactlyOnce_run`).
-/

namespace LiteChat

open LiteChat.Action Effect Server UserManager MessageManager

variable {P : Platform} {w : World P} {db db' : Database P}

/-! ## The rows of the messages -/

/-- What holds of the message of that number. It is forwarded at most once by the sender, with its
content, and marked after that. Until the login has made its query, the message has a row that is
marked with it; from then on, it is in the answer exactly if the sender leaves it. -/
structure Fits (C : Correspondence) (firstId : Nat) (db : Database P) (answer : Option (List Message))
    (k : Nat) (m : Handled) (content : Str) : Prop where
  forwarded : m.frames = [] ∧ m.isMarked = false ∨ m.isLeft = false ∧
    ∃ frame : Frame, m.frames = [(C.clientSocket, frame)] ∧ frame.forwarded? = some content
  row : answer = none → ∃ row ∈ db.messages, row.messageId = firstId + k ∧
    row.senderId = C.senderId ∧ row.receiverId = C.receiverId ∧ row.content = content ∧
    row.isRead = m.isMarked
  left : ∀ rows, answer = some rows →
    (m.isLeft = true ↔ ∃ msg ∈ rows, msg.messageId = firstId + k)
  content : ∀ rows, answer = some rows →
    ∀ msg ∈ rows, msg.messageId = firstId + k → msg.content = content

/-- The messages that the sender has stored and what it has done with them, and what the login was
answered. -/
structure Ledger (C : Correspondence) (firstId : Nat) (db : Database P) (ms : List Handled)
    (answer : Option (List Message)) : Prop where
  next : db.nextMessageId = firstId + ms.length
  fits : ∀ k m, ms[k]? = some m →
    ∃ content, C.contents[k]? = some content ∧ Fits C firstId db answer k m content
  nodup : ∀ rows, answer = some rows → (rows.map (·.messageId)).Nodup
  below : ∀ rows, answer = some rows → ∀ msg ∈ rows, msg.messageId < db.nextMessageId

section Ledger

variable {C : Correspondence} {firstId : Nat} {ms past : List Handled} {m m' : Handled}
  {answer : Option (List Message)} {k : Nat} {content : Str}

theorem getElem?_concat_cases {α : Type} {past : List α} {x y : α} {k : Nat}
    (h : (past ++ [x])[k]? = some y) : past[k]? = some y ∨ k = past.length ∧ y = x := by
  rcases Nat.lt_trichotomy k past.length with hlt | heq | hgt
  · rw [List.getElem?_append_left hlt] at h
    exact .inl h
  · rw [heq, List.getElem?_concat_length] at h
    exact .inr ⟨heq, (Option.some.inj h).symm⟩
  · rw [List.getElem?_eq_none (by rw [List.length_append]; exact hgt)] at h
    cases h

/-- A call about the last message. -/
theorem Ledger.last (h : Ledger C firstId db (past ++ [m]) answer)
    (hnext : db'.nextMessageId = db.nextMessageId)
    (hpast : ∀ k x content, x ∈ past → Fits C firstId db answer k x content →
      Fits C firstId db' answer k x content)
    (hlast : ∀ content, C.contents[past.length]? = some content →
      Fits C firstId db answer past.length m content →
      Fits C firstId db' answer past.length m' content) :
    Ledger C firstId db' (past ++ [m']) answer := by
  refine ⟨?_, fun k x hx => ?_, h.nodup, fun rows hrows msg hmsg => ?_⟩
  · rw [hnext, h.next, List.length_append, List.length_append]
    rfl
  · rcases getElem?_concat_cases hx with hx | ⟨rfl, rfl⟩
    · have hold : (past ++ [m])[k]? = some x := by
        rw [List.getElem?_append_left (List.getElem?_eq_some_iff.mp hx).1]
        exact hx
      obtain ⟨content, hcontent, hfits⟩ := h.fits k x hold
      exact ⟨content, hcontent, hpast k x content (List.mem_of_getElem? hx) hfits⟩
    · obtain ⟨content, hcontent, hfits⟩ := h.fits past.length m List.getElem?_concat_length
      exact ⟨content, hcontent, hlast content hcontent hfits⟩
  · rw [hnext]
    exact h.below rows hrows msg hmsg

theorem Fits.congr (h : Fits C firstId db answer k m content) (hmessages : db'.messages = db.messages) :
    Fits C firstId db' answer k m content := by
  refine ⟨h.forwarded, fun hnone => ?_, h.left, h.content⟩
  rw [hmessages]
  exact h.row hnone

theorem Ledger.congr (h : Ledger C firstId db ms answer) (hmessages : db'.messages = db.messages)
    (hnext : db'.nextMessageId = db.nextMessageId) : Ledger C firstId db' ms answer := by
  refine ⟨hnext.trans h.next, fun k m hm => ?_, h.nodup, fun rows hrows msg hmsg => ?_⟩
  · obtain ⟨content, hcontent, hfits⟩ := h.fits k m hm
    exact ⟨content, hcontent, hfits.congr hmessages⟩
  · rw [hnext]
    exact h.below rows hrows msg hmsg

/-- A message is stored. Its number is new, so it is neither in an answer that was given nor any earlier
message's. -/
theorem Ledger.store (h : Ledger C firstId db ms answer) {now : Nat}
    (hstored : db.insertMessage now C.senderId C.receiverId content = some db')
    (hcontent : C.contents[ms.length]? = some content) :
    Ledger C firstId db' (ms ++ [⟨[], false, false⟩]) answer := by
  obtain ⟨hmessages, _, _, hnext⟩ := Database.tables_of_insertMessage hstored
  have hnew : ∀ rows, answer = some rows → ∀ msg ∈ rows, msg.messageId ≠ firstId + ms.length := by
    intro rows hrows msg hmsg
    rw [← h.next]
    exact Nat.ne_of_lt (h.below rows hrows msg hmsg)
  refine ⟨?_, fun k m hm => ?_, h.nodup, fun rows hrows msg hmsg => ?_⟩
  · rw [hnext, h.next, List.length_append]
    rfl
  · -- one of the messages before, whose row is still there, or the one just stored
    rcases getElem?_concat_cases hm with hm | ⟨rfl, rfl⟩
    · obtain ⟨content', hcontent', hfits⟩ := h.fits k m hm
      refine ⟨content', hcontent', hfits.forwarded, fun hnone => ?_, hfits.left, hfits.content⟩
      obtain ⟨row, hrow, hvals⟩ := hfits.row hnone
      refine ⟨row, ?_, hvals⟩
      rw [hmessages]
      exact List.mem_append_left _ hrow
    · refine ⟨content, hcontent, .inl ⟨rfl, rfl⟩, fun _ => ?_, fun rows hrows => ?_,
        fun rows hrows msg hmsg hid => absurd hid (hnew rows hrows msg hmsg)⟩
      · refine ⟨⟨db.nextMessageId, C.senderId, C.receiverId, content, now, false⟩, ?_,
          h.next, rfl, rfl, rfl, rfl⟩
        rw [hmessages]
        exact List.mem_append_right _ (List.mem_singleton_self _)
      · refine ⟨nofun, ?_⟩
        rintro ⟨msg, hmsg, hid⟩
        exact absurd hid (hnew rows hrows msg hmsg)
  · rw [hnext]
    exact Nat.lt_succ_of_lt (h.below rows hrows msg hmsg)

/-- The receiver is found away, which happens only before the query. -/
theorem Ledger.away (h : Ledger C firstId db (past ++ [⟨[], false, false⟩]) none) :
    Ledger C firstId db (past ++ [⟨[], true, false⟩]) none :=
  h.last rfl (fun _ _ _ _ hfits => hfits) fun _ _ hfits =>
    ⟨.inl ⟨rfl, rfl⟩, hfits.row, nofun, nofun⟩

/-- The message is forwarded. -/
theorem Ledger.forward (h : Ledger C firstId db (past ++ [⟨[], false, false⟩]) answer) {frame : Frame}
    (hframe : C.contents[past.length]? = frame.forwarded?) :
    Ledger C firstId db (past ++ [⟨[(C.clientSocket, frame)], false, false⟩]) answer := by
  refine h.last rfl (fun _ _ _ _ hfits => hfits) fun content hcontent hfits => ?_
  exact ⟨.inr ⟨rfl, frame, rfl, hframe.symm.trans hcontent⟩, hfits.row, hfits.left, hfits.content⟩

theorem Fits.readRow (h : Fits C firstId db none k m content) (hm : m'.isMarked = true) :
    ∃ row ∈ (db.markRead C.senderId C.receiverId).messages, row.messageId = firstId + k ∧
      row.senderId = C.senderId ∧ row.receiverId = C.receiverId ∧ row.content = content ∧
      row.isRead = m'.isMarked := by
  obtain ⟨row, hrow, hid, hsender, hreceiver, hcontent, _⟩ := h.row rfl
  refine ⟨{ row with isRead := true }, List.mem_map.mpr ⟨row, hrow, ?_⟩, hid, hsender, hreceiver,
    hcontent, hm.symm⟩
  unfold Database.readRow
  rw [if_pos ⟨hsender, hreceiver⟩]

/-- The pair is marked before the query, with every message of it. -/
theorem Ledger.mark {e : Socket × Frame} (h : Ledger C firstId db (past ++ [⟨[e], false, false⟩]) none)
    (hpast : ∀ m ∈ past, m.isMarked = true) :
    Ledger C firstId (db.markRead C.senderId C.receiverId) (past ++ [⟨[e], false, true⟩]) none := by
  refine h.last rfl (fun k x content hx hfits => ?_) fun content _ hfits => ?_
  · exact ⟨hfits.forwarded, fun _ => hfits.readRow (hpast x hx), hfits.left, hfits.content⟩
  · refine ⟨?_, fun _ => hfits.readRow rfl, nofun, nofun⟩
    rcases hfits.forwarded with ⟨hnone, _⟩ | hsome
    · cases hnone
    · exact .inr hsome

/-- What is marked after the query makes no difference. -/
theorem Ledger.markRead {rows : List Message} (h : Ledger C firstId db ms (some rows)) (i j : UserId) :
    Ledger C firstId (db.markRead i j) ms (some rows) := by
  refine ⟨h.next, fun k m hm => ?_, h.nodup, h.below⟩
  obtain ⟨content, hcontent, hfits⟩ := h.fits k m hm
  exact ⟨content, hcontent, hfits.forwarded, nofun, hfits.left, hfits.content⟩

theorem Ledger.mark_after {e : Socket × Frame} {rows : List Message}
    (h : Ledger C firstId db (past ++ [⟨[e], false, false⟩]) (some rows)) (i j : UserId) :
    Ledger C firstId (db.markRead i j) (past ++ [⟨[e], false, true⟩]) (some rows) := by
  refine (h.markRead i j).last rfl (fun _ _ _ _ hfits => hfits) fun content _ hfits => ?_
  refine ⟨?_, nofun, hfits.left, hfits.content⟩
  rcases hfits.forwarded with ⟨hnone, _⟩ | hsome
  · cases hnone
  · exact .inr hsome

/-! ### The query -/

theorem Database.of_mem_unread {rank : Nat → Nat} {i : UserId} {msg : Message}
    (h : msg ∈ db.unread rank i) : ∃ row ∈ db.messages, row.receiverId = i ∧ row.isRead = false ∧
      msg.messageId = row.messageId ∧ msg.content = row.content := by
  obtain ⟨row, hrow, hjoined⟩ := List.mem_filterMap.mp h
  obtain ⟨hmem, hunread⟩ := List.mem_filter.mp (mem_bySendTime.mp hrow)
  obtain ⟨hreceiver, hread⟩ := of_decide_eq_true hunread
  refine ⟨row, hmem, hreceiver, hread, ?_⟩
  unfold Database.joined at hjoined
  split at hjoined
  · rw [← Option.some.inj hjoined]
    exact ⟨rfl, rfl⟩
  · cases hjoined

/-- The messages in the answer carry the name of the receiver. -/
theorem Database.receiver_of_mem_unread {rank : Nat → Nat} {r : UserRow} {msg : Message}
    (hr : db.byId r.userId = some r) (h : msg ∈ db.unread rank r.userId) :
    msg.receiverUsername = r.username := by
  obtain ⟨row, hrow, hjoined⟩ := List.mem_filterMap.mp h
  obtain ⟨_, hunread⟩ := List.mem_filter.mp (mem_bySendTime.mp hrow)
  obtain ⟨hreceiver, _⟩ := of_decide_eq_true hunread
  unfold Database.joined at hjoined
  rw [hreceiver, hr] at hjoined
  split at hjoined
  · rename_i r' _ hr'
    rw [← Option.some.inj hjoined, Option.some.inj hr']
  · cases hjoined

/-- No message is in the answer twice. -/
theorem Database.nodup_unread (db : Database P) (rank : Nat → Nat) (i : UserId) :
    ((db.unread rank i).map (·.messageId)).Nodup := by
  have hsub : ∀ rows : List MessageRow,
      ((rows.filterMap db.joined).map (·.messageId)).Sublist (rows.map (·.messageId)) := by
    intro rows
    induction rows with
    | nil => exact .slnil
    | cons row rows ih =>
      cases hjoined : db.joined row with
      | none =>
        rw [List.filterMap_cons_none hjoined]
        exact ih.cons _
      | some msg =>
        have hid : msg.messageId = row.messageId := by
          unfold Database.joined at hjoined
          split at hjoined
          · rw [← Option.some.inj hjoined]
          · cases hjoined
        rw [List.filterMap_cons_some hjoined, List.map_cons, List.map_cons, hid]
        exact ih.cons_cons _
  have hperm : ∀ rows : List MessageRow, (Database.bySendTime rank rows).Perm rows := fun rows =>
    (List.perm_insertionSort _ _).trans (arrange_perm rank rows)
  refine .sublist (hsub _) (((hperm _).map _).nodup_iff.mpr ?_)
  exact db.messages_id.sublist (List.filter_sublist.map _)

/-- The login makes its query while the sender is in the middle of no message: every message so far is
marked, or has been left for the login, and those are the ones in the answer. -/
theorem Ledger.query (h : Ledger C firstId db ms none) (hsettled : ∀ m ∈ ms, m.Settled)
    (rank : Nat → Nat) : Ledger C firstId db ms (some (db.unread rank C.receiverId)) := by
  -- a row of the answer that has the number of a message is the row of the message
  have hrow : ∀ {k m content}, Fits C firstId db none k m content →
      ∀ msg ∈ db.unread rank C.receiverId, msg.messageId = firstId + k →
        m.isMarked = false ∧ msg.content = content := by
    intro k m content hfits msg hmsg hid
    obtain ⟨row, hmem, hid', _, _, hcontent, hmarked⟩ := hfits.row rfl
    obtain ⟨row', hmem', _, hread, hid'', hcontent'⟩ := Database.of_mem_unread hmsg
    obtain rfl : row' = row :=
      eq_of_key_eq (fun r : MessageRow => r.messageId) db.messages_id hmem' hmem
        (hid''.symm.trans (hid.trans hid'.symm))
    exact ⟨hmarked.symm.trans hread, hcontent'.trans hcontent⟩
  refine ⟨h.next, fun k m hm => ?_, ?_, ?_⟩
  · obtain ⟨content, hcontent, hfits⟩ := h.fits k m hm
    refine ⟨content, hcontent, hfits.forwarded, nofun, ?_, ?_⟩
    · rintro rows ⟨⟩
      constructor
      · intro hleft
        obtain ⟨row, hmem, hid, _, hreceiver, _, hmarked⟩ := hfits.row rfl
        have hunread : row.isRead = false := by
          rcases hfits.forwarded with ⟨_, hnot⟩ | ⟨hnot, _⟩
          · exact hmarked.trans hnot
          · cases hnot.symm.trans hleft
        obtain ⟨msg, hmsg, hid'⟩ := exists_mem_unread hmem hunread rank
        exact ⟨msg, hreceiver ▸ hmsg, hid'.trans hid⟩
      · rintro ⟨msg, hmsg, hid⟩
        have hnot := (hrow hfits msg hmsg hid).1
        rcases hsettled m (List.mem_of_getElem? hm) with hleft | hmarked
        · exact hleft
        · cases hnot.symm.trans hmarked
    · rintro rows ⟨⟩ msg hmsg hid
      exact (hrow hfits msg hmsg hid).2
  · rintro rows ⟨⟩
    exact db.nodup_unread rank C.receiverId
  · rintro rows ⟨⟩ msg hmsg
    obtain ⟨row, hmem, _, _, hid, _⟩ := Database.of_mem_unread hmsg
    rw [hid]
    exact db.messages_id_lt row hmem

end Ledger

/-! ## Who is there -/

namespace Correspondence

variable (C : Correspondence)

/-- The call that sets the flag. -/
def setsFlag : Op := .sql (.updateOnline C.receiverId true)

/-- The call that binds the name. -/
def bindsName : Op := .bindUsername C.clientSocket C.receiver

end Correspondence

/-- The accounts of the two, and the connection on which the receiver logs in. Its flag is set
exactly if the login has set it, and it is found by its name exactly if the login has bound that. -/
structure Around (C : Correspondence) (w : World P) (ops : List Op) : Prop where
  sender : w.db.idOf C.sender = some C.senderId
  receiver : ∃ r, w.db.byName C.receiver = some r ∧ r.userId = C.receiverId ∧
    r.username = C.receiver ∧ r.passwordHash = C.passwordHash ∧
    (r.isOnline = true ↔ C.setsFlag ∈ ops)
  session : w.sessions.getSession C.clientSocket = some C.session
  found : C.bindsName ∈ ops →
    w.sessions.getSessionByUsername C.receiver = some C.session
  absent : C.bindsName ∉ ops → w.sessions.getSessionByUsername C.receiver = none

section Around

variable {C : Correspondence} {w' : World P} {ops : List Op} {o : Op}

theorem Around.idOf_receiver (h : Around C w ops) : w.db.idOf C.receiver = some C.receiverId := by
  obtain ⟨r, hr, hid, _⟩ := h.receiver
  unfold Database.idOf
  rw [hr, Option.map_some, hid]

theorem mem_concat_of_ne {α : Type} {a b : α} {l : List α} (hne : a ≠ b) : a ∈ l ++ [b] ↔ a ∈ l := by
  rw [List.mem_append, List.mem_singleton]
  exact or_iff_left hne

/-- A call that neither sets the flag nor binds the name, and leaves users and sessions alone. -/
theorem Around.other (h : Around C w ops) (husers : w'.db.users = w.db.users)
    (hsession : ∀ c, w'.sessions.getSession c = w.sessions.getSession c)
    (hroute : ∀ v, w'.sessions.route v = w.sessions.route v) (hflag : C.setsFlag ≠ o)
    (hname : C.bindsName ≠ o) : Around C w' (ops ++ [o]) := by
  have hby : ∀ v, w'.db.byName v = w.db.byName v := by
    intro v
    unfold Database.byName
    rw [husers]
  have hlookup : ∀ v, w'.sessions.getSessionByUsername v = w.sessions.getSessionByUsername v := by
    intro v
    exact SessionManager.getSessionByUsername_congr (hroute v) hsession
  refine ⟨?_, ?_, (hsession _).trans h.session, ?_, ?_⟩
  · unfold Database.idOf
    rw [hby]
    exact h.sender
  · rw [hby, mem_concat_of_ne hflag]
    exact h.receiver
  · rw [mem_concat_of_ne hname, hlookup]
    exact h.found
  · rw [mem_concat_of_ne hname, hlookup]
    exact h.absent

/-- The login sets the flag. -/
theorem Around.flag (h : Around C w ops) : Around C
    { w with db := w.db.setOnlineWhere (fun u => u.userId = C.receiverId) true }
    (ops ++ [C.setsFlag]) := by
  have hname : C.bindsName ≠ C.setsFlag := nofun
  obtain ⟨r, hr, hid, husername, hhash, _⟩ := h.receiver
  refine ⟨?_, ⟨{ r with isOnline := true }, ?_, hid, husername, hhash, ?_⟩, h.session, ?_, ?_⟩
  · rw [Database.idOf_eq_credentials, Database.credentials_setOnlineWhere,
      ← Database.idOf_eq_credentials]
    exact h.sender
  · unfold Database.setOnlineWhere
    rw [Database.byName_mapUsers, hr, Option.map_some, if_pos (decide_eq_true hid)]
  · exact ⟨fun _ => List.mem_append_right _ (List.mem_singleton_self _), fun _ => rfl⟩
  · rw [mem_concat_of_ne hname]
    exact h.found
  · rw [mem_concat_of_ne hname]
    exact h.absent

/-- The login notes its time. -/
theorem Around.lastLogin (h : Around C w ops) (i : UserId) (now : Nat) :
    Around C { w with db := w.db.updateLastLogin i now } (ops ++ [.sql (.updateLastLogin i)]) := by
  have hflag : C.setsFlag ≠ .sql (.updateLastLogin i) := nofun
  have hname : C.bindsName ≠ .sql (.updateLastLogin i) := nofun
  obtain ⟨r, hr, hid, husername, hhash, honline⟩ := h.receiver
  refine ⟨?_, ?_, h.session, ?_, ?_⟩
  · rw [Database.idOf_eq_credentials, Database.credentials_updateLastLogin,
      ← Database.idOf_eq_credentials]
    exact h.sender
  · rw [mem_concat_of_ne hflag]
    unfold Database.updateLastLogin
    rw [Database.byName_mapUsers, hr, Option.map_some]
    refine ⟨_, rfl, ?_⟩
    split <;> exact ⟨hid, husername, hhash, honline⟩
  · rw [mem_concat_of_ne hname]
    exact h.found
  · rw [mem_concat_of_ne hname]
    exact h.absent

/-- The login binds the name. -/
theorem Around.bind (h : Around C w ops) : Around C
    { w with sessions := w.sessions.bindUsername C.clientSocket C.receiver }
    (ops ++ [C.bindsName]) := by
  have hflag : C.setsFlag ≠ C.bindsName := nofun
  refine ⟨h.sender, ?_, h.session, fun _ => ?_, fun hnot => ?_⟩
  · rw [mem_concat_of_ne hflag]
    exact h.receiver
  · show ((w.sessions.bindUsername C.clientSocket C.receiver).route C.receiver).bind
      w.sessions.getSession = _
    rw [SessionManager.route_bindUsername, if_pos rfl]
    exact h.session
  · exact absurd (List.mem_append_right _ (List.mem_singleton_self _)) hnot

/-- Every call of the login leaves the two accounts what they are, and the receiver's session where it
is. Flag and route are set by it, once each. -/
theorem Around.entering {own : List (Call Op Op.Res)} (h : Around C w ops)
    (hok : C.Enters own o) {ch : Choice} (hch : Answers ch) :
    Around C (World.handle o ch w).2 (ops ++ [o]) := by
  -- most calls change neither the accounts nor the sessions, and are none of the two that are counted
  have hharmless : o.Harmless → Around C (World.handle o ch w).2 (ops ++ [o]) := by
    intro ho
    have hw := World.handle_harmless ho ch w
    have hflag : C.setsFlag ≠ o := by
      rintro rfl
      exact ho
    have hname : C.bindsName ≠ o := by
      rintro rfl
      exact ho
    refine h.other hw.users (fun c => ?_) (fun v => ?_) hflag hname <;> rw [hw.sessions]
  cases o with
  | sql st =>
    cases st with
    | updateOnline i isOnline =>
      obtain ⟨rfl, rfl⟩ := hok
      show Around C (w.execute _ ch).2 _
      rw [execute_reliable hch rfl]
      exact h.flag
    | updateLastLogin i =>
      show Around C (w.execute _ ch).2 _
      rw [execute_reliable hch rfl]
      exact h.lastLogin i ch.now
    | insertUser | updateUsername | updatePassword | updateOnlineByName => exact absurd hok id
    | _ => exact hharmless trivial
  | bindUsername c v =>
    obtain ⟨rfl, rfl⟩ := hok
    exact h.bind
  | setUsername p v =>
    refine h.other (by rw [World.db_handle_of_ne (by nofun)]) ?_ ?_ nofun nofun
    · intro c
      rw [World.sessions_setUsername, SessionManager.getSession_setUsername]
    · intro v'
      rw [World.sessions_setUsername, SessionManager.route_setUsername]
  | updateHeartbeat p =>
    have hs := World.handle_updateHeartbeat p ch w
    exact h.other (by rw [World.db_handle_of_ne (by nofun)]) hs.getSession hs.route nofun nofun
  | cacheInsert v friends => exact h.other rfl (fun _ => rfl) (fun _ => rfl) nofun nofun
  | addSession | removeSession | cacheErase => exact absurd hok id
  | _ => exact hharmless trivial

/-- Every call of the sender. -/
theorem Around.sending {own : List (Call Op Op.Res)} (h : Around C w ops) (hok : C.Sends own o)
    (ch : Choice) : Around C (World.handle o ch w).2 ops := by
  have ho : o.Harmless := by
    cases o with
    | sql st => cases st <;> trivial
    | getSessionByUsername | getSocket | sendData => trivial
    | _ => exact absurd hok id
  have hw := World.handle_harmless ho ch w
  have hby : ∀ v, (World.handle o ch w).2.db.byName v = w.db.byName v := hw.byName
  refine ⟨?_, ?_, ?_, ?_, ?_⟩
  · unfold Database.idOf
    rw [hby]
    exact h.sender
  · rw [hby]
    exact h.receiver
  · rw [hw.sessions]
    exact h.session
  · rw [hw.sessions]
    exact h.found
  · rw [hw.sessions]
    exact h.absent

end Around

/-! ## One call -/

/-- Every statement and every send works. -/
def Works (ch : Choice) : Prop := ch.dbOk = true ∧ ch.sendOk = true

instance (ch : Choice) : Decidable (Works ch) := by
  unfold Works
  infer_instance

/-- The query is made while the sender is in the middle of no message, and before it no message is
marked with another that is not. -/
def Orderly (_ : World P) (h : List (Exchange × Call Op Op.Res)) : Exchange → Op → Prop
  | .entering, .sql (.selectUnread _) => ∀ m ∈ handled (Pool.own h .sending), m.Settled
  | .sending, .sql (.markRead _ _) => (queryAnswer (Pool.own h .entering)).isNone →
      ∀ m ∈ (handled (Pool.own h .sending)).dropLast, m.isMarked = true
  | _, _ => True

instance (w : World P) (h : List (Exchange × Call Op Op.Res)) (k : Exchange) (o : Op) :
    Decidable (Orderly w h k o) := by
  unfold Orderly
  split <;> infer_instance

/-- What holds between any two calls. -/
structure Relaying (C : Correspondence) (firstId : Nat) (w : World P)
    (h : List (Exchange × Call Op Op.Res)) : Prop where
  around : Around C w (Prog.opsOf (Pool.own h .entering))
  ledger : Ledger C firstId w.db (handled (Pool.own h .sending)) (queryAnswer (Pool.own h .entering))
  entered : queryAnswer (Pool.own h .entering) ≠ none →
    C.setsFlag ∈ Prog.opsOf (Pool.own h .entering) ∧
      C.bindsName ∈ Prog.opsOf (Pool.own h .entering)
  sent : (handled (Pool.own h .sending)).flatMap (·.frames) = forwardsOf (Pool.own h .sending)

section Calls

variable {C : Correspondence} {firstId : Nat} {h : List (Exchange × Call Op Op.Res)} {o : Op}
  {ch : Choice}

theorem handle_sql (hch : Works ch) {st : Stmt} {r : st.Res} (hexec : w.db.exec ch.now ch.rank st =
    some (r, db)) : World.handle (.sql st) ch w = (.ok r, { w with db := db }) :=
  execute_reliable hch.1 hexec

theorem handle_getSocket (hsession : w.sessions.getSession C.clientSocket = some C.session)
    (ch : Choice) : World.handle (.getSocket C.session) ch w = (C.clientSocket, w) := by
  obtain ⟨s, hs, hsocket, _⟩ := SessionManager.heap_of_getSession hsession
  show w.deref C.session (·.socket) (0 : Nat) = _
  unfold World.deref
  rw [hs]
  exact Prod.ext hsocket rfl

/-- The sender gets the answers that it expects: the numbers of the two users, a row that goes in, and
the session of the receiver or none, according to whether the login has bound the name. -/
theorem Relaying.right_sending (hr : Relaying C firstId w h)
    (hok : C.Sends (Pool.own h .sending) o) (hch : Works ch) :
    C.Right .sending ⟨o, (World.handle o ch w).1⟩ := by
  have hreceiver := hr.around.idOf_receiver
  obtain ⟨hsender, _, hsession, hfound, habsent⟩ := hr.around
  cases o with
  | sql st =>
    cases st with
    | selectUserId v =>
      rw [handle_sql hch rfl]
      refine ⟨?_, ?_⟩
      · rintro rfl
        rw [hsender]
      · rintro rfl
        rw [hreceiver]
    | insertMessage i j content =>
      obtain ⟨rfl, rfl, _⟩ := hok
      obtain ⟨db', hdb'⟩ := Database.exists_insertMessage (Database.hasUser_of_idOf hsender)
        (Database.hasUser_of_idOf hreceiver) ch.now content
      exact congrArg Prod.fst (handle_sql hch (Database.exec_insertMessage hdb' ch.rank))
    | selectOnline | markRead => trivial
    | _ => exact absurd hok id
  | getSessionByUsername v =>
    obtain ⟨rfl, _⟩ := hok
    by_cases hbound : C.bindsName ∈ Prog.opsOf (Pool.own h .entering)
    · exact .inr (hfound hbound)
    · exact .inl (habsent hbound)
  | getSocket p =>
    obtain rfl : p = C.session := hok
    exact congrArg Prod.fst (handle_getSocket hsession ch)
  | sendData c frame => exact hch.2
  | _ => exact absurd hok id

/-- The login gets the answers that it expects: the account is the receiver's and is not online, its
session is the one of the connection, and the rows of its query are addressed to it. -/
theorem Relaying.right_entering (hr : Relaying C firstId w h)
    (hok : C.Enters (Pool.own h .entering) o) (hch : Works ch) :
    C.Right .entering ⟨o, (World.handle o ch w).1⟩ := by
  have hreceiver := hr.around.idOf_receiver
  obtain ⟨_, ⟨r, hby, hid, husername, hhash, honline⟩, hsession, hfound, _⟩ := hr.around
  cases o with
  | sql st =>
    cases st with
    | selectUser v =>
      obtain rfl : v = C.receiver := hok
      rw [handle_sql hch rfl, hby, Option.map_some, hid, hhash]
      rfl
    -- nobody but this login has set the flag, and it has not done so yet
    | selectOnline i =>
      obtain ⟨rfl, hnot⟩ := hok
      have hoff : r.isOnline = false := by
        cases hflag : r.isOnline with
        | false => rfl
        | true => exact absurd (honline.mp hflag) hnot
      rw [handle_sql hch rfl, ← hid, Database.byId_of_byName hby, Option.map_some, hoff]
      rfl
    | selectUserId v =>
      obtain rfl : v = C.receiver := hok
      rw [handle_sql hch rfl, hreceiver]
      rfl
    | selectUnread i =>
      obtain ⟨rfl, _⟩ := hok
      refine ⟨w.db.unread ch.rank C.receiverId, congrArg Prod.fst (handle_sql hch rfl), ?_⟩
      intro msg hmsg
      rw [← hid] at hmsg
      exact (Database.receiver_of_mem_unread (Database.byId_of_byName hby) hmsg).trans husername
    | updateOnline | markRead | updateLastLogin | selectFriends => trivial
    | _ => exact absurd hok id
  | getSession c =>
    obtain rfl : c = C.clientSocket := hok
    exact hsession
  | getSessionByUsername v =>
    rintro rfl
    exact hfound hok
  | getSocket p =>
    rintro rfl
    exact congrArg Prod.fst (handle_getSocket hsession ch)
  | sendData c frame => exact hch.2
  | setUsername | bindUsername | updateHeartbeat | cacheInsert => trivial
  | _ => exact absurd hok id

/-- Once the query is answered, the receiver is online and found. -/
theorem Relaying.here (hr : Relaying C firstId w h)
    (hanswered : queryAnswer (Pool.own h .entering) ≠ none) :
    (∃ r, w.db.byId C.receiverId = some r ∧ r.isOnline = true) ∧
      w.sessions.getSessionByUsername C.receiver = some C.session := by
  obtain ⟨hflag, hbound⟩ := hr.entered hanswered
  obtain ⟨r, hby, hid, _, _, honline⟩ := hr.around.receiver
  exact ⟨⟨r, hid ▸ Database.byId_of_byName hby, honline.mpr hflag⟩, hr.around.found hbound⟩

/-- A call of the sender that finds the receiver away, or does not. -/
theorem Relaying.asked (hr : Relaying C firstId w h) {call : Call Op Op.Res}
    (hhand : Correspondence.InHand (Pool.own h .sending)) (hstores : stores call.1 = false)
    (hframes : forwardsOf [call] = []) (hmarks : marksRead call.1 = false)
    (haway : saysAway call = true → queryAnswer (Pool.own h .entering) = none) :
    Ledger C firstId w.db (handled (Pool.own h .sending ++ [call]))
      (queryAnswer (Pool.own h .entering)) := by
  obtain ⟨past, hown⟩ := hhand
  have hledger := hr.ledger
  rw [hown] at hledger
  rw [handled_after hown hstores]
  unfold Handled.after
  rw [hframes, hmarks]
  cases hspeaks : saysAway call with
  | false => exact hledger
  | true =>
    rw [haway hspeaks] at hledger ⊢
    exact hledger.away

/-- The sender marks the pair. -/
theorem Relaying.marked (hr : Relaying C firstId w h) {r : Except SQLException Unit}
    (hlast : Correspondence.Unmarked (Pool.own h .sending))
    (hcond : Orderly w h .sending (.sql (.markRead C.senderId C.receiverId))) :
    Ledger C firstId (w.db.markRead C.senderId C.receiverId)
      (handled (Pool.own h .sending ++ [⟨.sql (.markRead C.senderId C.receiverId), r⟩]))
      (queryAnswer (Pool.own h .entering)) := by
  obtain ⟨past, e, hown⟩ := hlast
  have hledger := hr.ledger
  rw [hown] at hledger
  rw [handled_after hown rfl]
  cases hanswered : queryAnswer (Pool.own h .entering) with
  | none =>
    -- what was left for the login would be marked with the message
    rw [hanswered] at hledger
    refine hledger.mark fun m hm => hcond (by rw [hanswered]; rfl) m ?_
    rw [hown, List.dropLast_concat]
    exact hm
  | some rows =>
    rw [hanswered] at hledger
    exact hledger.mark_after _ _

/-- The sender writes the message to the receiver. -/
theorem Relaying.forwarded (hr : Relaying C firstId w h) {frame : Frame} {ok : Bool}
    (hhand : Correspondence.InHand (Pool.own h .sending))
    (hcontent : C.contents[(handled (Pool.own h .sending)).length - 1]? = frame.forwarded?)
    (hsome : frame.forwarded?.isSome = true) :
    Ledger C firstId w.db
      (handled (Pool.own h .sending ++ [⟨.sendData C.clientSocket frame, ok⟩]))
      (queryAnswer (Pool.own h .entering)) := by
  obtain ⟨past, hown⟩ := hhand
  have hledger := hr.ledger
  rw [hown] at hledger
  rw [hown, List.length_append, List.length_singleton, Nat.add_sub_cancel] at hcontent
  have hframes : forwardsOf [⟨.sendData C.clientSocket frame, ok⟩] = [(C.clientSocket, frame)] := by
    unfold forwardsOf
    simp [hsome]
  rw [handled_after hown rfl]
  show Ledger C firstId w.db (past ++ [⟨[] ++ forwardsOf [⟨.sendData C.clientSocket frame, ok⟩],
    false, false⟩]) _
  rw [hframes]
  exact hledger.forward hcontent

/-- What the sender does keeps to the ledger: it stores a message, finds the receiver away and leaves
the message, or forwards it and marks it. -/
theorem Relaying.ledger_sending (hr : Relaying C firstId w h)
    (hok : C.Sends (Pool.own h .sending) o) (hcond : Orderly w h .sending o) (hch : Works ch) :
    Ledger C firstId (World.handle o ch w).2.db
      (handled (Pool.own h .sending ++ [⟨o, (World.handle o ch w).1⟩]))
      (queryAnswer (Pool.own h .entering)) := by
  have hidle : Idle ⟨o, (World.handle o ch w).1⟩ → (World.handle o ch w).2.db = w.db →
      Ledger C firstId (World.handle o ch w).2.db
        (handled (Pool.own h .sending ++ [⟨o, (World.handle o ch w).1⟩]))
        (queryAnswer (Pool.own h .entering)) := by
    intro hcall hdb
    rw [hcall.handled, hdb]
    exact hr.ledger
  cases o with
  | sql st =>
    cases st with
    | selectUserId v =>
      refine hidle ⟨rfl, rfl, rfl, rfl⟩ ?_
      rw [handle_sql hch rfl]
    | insertMessage i j content =>
      obtain ⟨rfl, rfl, hcontent⟩ := hok
      obtain ⟨db', hdb'⟩ := Database.exists_insertMessage
        (Database.hasUser_of_idOf hr.around.sender)
        (Database.hasUser_of_idOf hr.around.idOf_receiver) ch.now content
      rw [handle_sql hch (Database.exec_insertMessage hdb' ch.rank), handled_stored rfl]
      exact hr.ledger.store hdb' hcontent
    | selectOnline i =>
      obtain ⟨rfl, hhand⟩ := hok
      rw [handle_sql hch rfl]
      refine hr.asked hhand rfl rfl rfl fun haway => ?_
      -- after the query the flag is set
      by_contra hanswered
      obtain ⟨⟨r, hby, honline⟩, _⟩ := hr.here hanswered
      rw [hby, Option.map_some, honline] at haway
      cases haway
    -- the statement marks every row of the two, so none may be left for the login
    | markRead i j =>
      obtain ⟨rfl, rfl, hlast⟩ := hok
      rw [handle_sql hch rfl]
      exact hr.marked hlast hcond
    | _ => exact absurd hok id
  | getSessionByUsername v =>
    obtain ⟨rfl, hhand⟩ := hok
    refine hr.asked hhand rfl rfl rfl fun haway => ?_
    -- after the query the name is bound
    by_contra hanswered
    have hnone : (w.sessions.getSessionByUsername C.receiver).isNone = true := haway
    rw [(hr.here hanswered).2] at hnone
    cases hnone
  | getSocket p =>
    obtain rfl : p = C.session := hok
    refine hidle ⟨rfl, rfl, rfl, rfl⟩ ?_
    rw [handle_getSocket hr.around.session]
  | sendData c frame =>
    cases hforwarded : frame.forwarded? with
    | none =>
      refine hidle ⟨rfl, ?_, rfl, rfl⟩ rfl
      unfold forwardsOf
      simp [hforwarded]
    | some content =>
      rcases hok with hnone | ⟨rfl, hhand, hcontent⟩
      · cases hforwarded.symm.trans hnone
      · exact hr.forwarded hhand hcontent (by rw [hforwarded]; rfl)
  | _ => exact absurd hok id

/-- What the login does keeps to the ledger: of its calls only the query and the marking are about the
messages. -/
theorem Relaying.ledger_entering (hr : Relaying C firstId w h)
    (hok : C.Enters (Pool.own h .entering) o) (hcond : Orderly w h .entering o) (hch : Works ch) :
    Ledger C firstId (World.handle o ch w).2.db (handled (Pool.own h .sending))
      (queryAnswer (Pool.own h .entering ++ [⟨o, (World.handle o ch w).1⟩])) := by
  have hother : queryAnswer [⟨o, (World.handle o ch w).1⟩] = none →
      (World.handle o ch w).2.db.messages = w.db.messages →
      (World.handle o ch w).2.db.nextMessageId = w.db.nextMessageId →
      Ledger C firstId (World.handle o ch w).2.db (handled (Pool.own h .sending))
        (queryAnswer (Pool.own h .entering ++ [⟨o, (World.handle o ch w).1⟩])) := by
    intro hquery hmessages hnext
    rw [queryAnswer_append, hquery, Option.or_none]
    exact hr.ledger.congr hmessages hnext
  have hdb := fun ho : ∀ st, o ≠ .sql st => World.db_handle_of_ne ho ch w
  cases o with
  | sql st =>
    cases st with
    -- the condition: the sender is in the middle of no message
    | selectUnread i =>
      obtain ⟨rfl, _, _, hfirst⟩ := hok
      have hledger := hr.ledger
      rw [hfirst] at hledger
      rw [handle_sql hch rfl, queryAnswer_append, hfirst]
      exact hledger.query hcond ch.rank
    | markRead i j =>
      obtain ⟨rows, hrows⟩ := Option.ne_none_iff_exists'.mp hok
      have hledger := hr.ledger
      rw [hrows] at hledger
      rw [handle_sql hch rfl, queryAnswer_append, hrows]
      exact hledger.markRead i j
    | selectUser | selectOnline | updateOnline | selectUserId | updateLastLogin | selectFriends =>
      rw [handle_sql hch rfl] at hother ⊢
      exact hother rfl rfl rfl
    | _ => exact absurd hok id
  | setUsername | updateHeartbeat | getSocket =>
    exact hother rfl (by rw [hdb nofun]) (by rw [hdb nofun])
  | getSession | bindUsername | getSessionByUsername | sendData | cacheInsert =>
    exact hother rfl rfl rfl
  | _ => exact absurd hok id

theorem Relaying.sending (hr : Relaying C firstId w h) (hok : C.Sends (Pool.own h .sending) o)
    (hcond : Orderly w h .sending o) (hch : Works ch) :
    Relaying C firstId (World.handle o ch w).2 (h ++ [(.sending, ⟨o, (World.handle o ch w).1⟩)]) := by
  have hown : Pool.own (h ++ [(Exchange.sending, (⟨o, (World.handle o ch w).1⟩ : Call Op Op.Res))])
      .entering = Pool.own h .entering :=
    Pool.own_append_ne (i := Exchange.sending) (j := Exchange.entering) nofun _
  refine ⟨?_, ?_, ?_, ?_⟩
  · rw [hown]
    exact hr.around.sending hok ch
  · rw [hown, Pool.own_append_self]
    exact hr.ledger_sending hok hcond hch
  · rw [hown]
    exact hr.entered
  · rw [Pool.own_append_self, forwardsOf_append, ← hr.sent]
    refine frames_handled (fun hstores => ?_) fun hforwards => ?_
    · cases o with
      | sql => rfl
      | _ => cases hstores
    · cases o with
      | sendData c frame =>
        rcases hok with hnone | ⟨_, ⟨past, hown⟩, _⟩
        · refine absurd ?_ hforwards
          unfold forwardsOf
          simp [hnone]
        · rw [hown]
          exact List.append_ne_nil_of_right_ne_nil _ (List.cons_ne_nil _ _)
      | _ => exact absurd rfl hforwards

theorem Relaying.entering (hr : Relaying C firstId w h) (hok : C.Enters (Pool.own h .entering) o)
    (hcond : Orderly w h .entering o) (hch : Works ch) :
    Relaying C firstId (World.handle o ch w).2 (h ++ [(.entering, ⟨o, (World.handle o ch w).1⟩)]) := by
  have hown : Pool.own (h ++ [(Exchange.entering, (⟨o, (World.handle o ch w).1⟩ : Call Op Op.Res))])
      .sending = Pool.own h .sending :=
    Pool.own_append_ne (i := Exchange.entering) (j := Exchange.sending) nofun _
  refine ⟨?_, ?_, fun hanswered => ?_, ?_⟩
  · rw [Pool.own_append_self, Prog.opsOf_append]
    exact hr.around.entering hok hch.1
  · rw [hown, Pool.own_append_self]
    exact hr.ledger_entering hok hcond hch
  · rw [Pool.own_append_self] at hanswered ⊢
    rw [Prog.opsOf_append]
    have hentered : C.setsFlag ∈ Prog.opsOf (Pool.own h .entering) ∧
        C.bindsName ∈ Prog.opsOf (Pool.own h .entering) := by
      by_cases hbefore : queryAnswer (Pool.own h .entering) = none
      · rw [queryAnswer_append, hbefore, Option.none_or] at hanswered
        cases o with
        | sql st =>
          cases st with
          | selectUnread i => exact ⟨hok.2.1, hok.2.2.1⟩
          | _ => exact absurd rfl hanswered
        | _ => exact absurd rfl hanswered
      · exact hr.entered hbefore
    exact ⟨List.mem_append_left _ hentered.1, List.mem_append_left _ hentered.2⟩
  · rw [hown]
    exact hr.sent

end Calls

/-! ## Every interleaving -/

/-- The frames in which the message of that number was forwarded: by its sender, and by the login. -/
def framesOf (firstId k : Nat) (h : List (Exchange × Call Op Op.Res)) : List (Socket × Frame) :=
  (((handled (Pool.own h .sending))[k]?).map (·.frames)).getD [] ++
    pushedFor (firstId + k) (Pool.own h .entering)

/-- Each message that was stored has been forwarded in one frame, to that connection and with its
content. These are all the frames that the sender forwarded; and the login forwarded what its query
was answered, one frame for each row. -/
structure ExactlyOnce (w₀ : World P) (requests : List Request) (c : Socket)
    (h : List (Exchange × Call Op Op.Res)) : Prop where
  once : ∀ e ∈ (requests.filter Sendable).zipIdx,
    (framesOf w₀.db.nextMessageId e.2 h).map (fun f => (f.1, f.2.forwarded?)) =
      [(c, some e.1.content)]
  sent : (handled (Pool.own h .sending)).flatMap (·.frames) = forwardsOf (Pool.own h .sending)
  pushed : contentsOf (Pool.own h .entering) =
    ((queryAnswer (Pool.own h .entering)).getD []).map fun msg => (c, some msg.content)

/-- The sender writes to a user who has an account, is offline, and is about to log in. -/
structure Away (w₀ : World P) (u : Str) (requests : List Request) (login : Request) : Prop where
  sender : (w₀.db.idOf u).isSome = true
  requests : ∀ request ∈ requests,
    request.username = u ∧ request.targetUsername = login.username
  valid : validateUsername login.username = true
  receiver : (w₀.db.byName login.username).map
    (fun r => (r.username, r.passwordHash, r.isOnline)) =
      some (login.username, P.md5 login.password, false)
  connected : (w₀.sessions.getSession login.clientSocket).isSome = true
  nobody : w₀.sessions.getSessionByUsername login.username = none

namespace Correspondence

variable (C : Correspondence)

/-- What either thread calls. -/
def Calls : Exchange → List (Call Op Op.Res) → Op → Prop
  | .sending => C.Sends
  | .entering => C.Enters

/-- What either thread has done when it has finished. -/
def Ends : Exchange → Unit → List (Call Op Op.Res) → Prop
  | .sending, _, own => DoneWith C.contents.length own
  | .entering, _, own => Pushed C own

end Correspondence

/-- Every call keeps the invariant, and is answered as its thread expects. -/
theorem Relaying.step {C : Correspondence} {firstId : Nat} {h : List (Exchange × Call Op Op.Res)}
    {k : Exchange} {o : Op} {ch : Choice} (hr : Relaying C firstId w h)
    (hok : C.Calls k (Pool.own h k) o) (hcond : Orderly w h k o) (hch : Works ch) :
    C.Right k ⟨o, (World.handle o ch w).1⟩ ∧
      Relaying C firstId (World.handle o ch w).2 (h ++ [(k, ⟨o, (World.handle o ch w).1⟩)]) := by
  cases k with
  | sending => exact ⟨hr.right_sending hok hch, hr.sending hok hcond hch⟩
  | entering => exact ⟨hr.right_entering hok hch, hr.entering hok hcond hch⟩

section Pushed

variable {rows : List Message} {sent : List (Socket × Frame)} {c : Socket} {n : Nat} {content : Str}

theorem pushed_of_not_mem (hnot : ∀ msg ∈ rows, msg.messageId ≠ n) (sent : List (Socket × Frame)) :
    (rows.zip sent).filterMap (fun e => if e.1.messageId = n then some e.2 else none) = [] := by
  refine List.filterMap_eq_nil_iff.mpr fun e he => if_neg ?_
  exact hnot e.1 (List.of_mem_zip he).1

/-- The login has written one frame for a row of its answer, since its rows are all different. -/
theorem pushed_of_mem {msg : Message} (hsent : sent.map (fun f => (f.1, f.2.forwarded?)) =
      rows.map fun msg => (c, some msg.content))
    (hnodup : (rows.map (·.messageId)).Nodup) (hmsg : msg ∈ rows) (hid : msg.messageId = n) :
    ((rows.zip sent).filterMap fun e => if e.1.messageId = n then some e.2 else none).map
      (fun f => (f.1, f.2.forwarded?)) = [(c, some msg.content)] := by
  induction rows generalizing sent with
  | nil => cases hmsg
  | cons row rows ih =>
    cases sent with
    | nil => cases hsent
    | cons f sent =>
      obtain ⟨hf, htail⟩ := List.cons.inj hsent
      have hf : (f.1, f.2.forwarded?) = (c, some row.content) := hf
      obtain ⟨hnew, hnodup⟩ := List.nodup_cons.mp hnodup
      rw [List.zip_cons_cons]
      rcases List.mem_cons.mp hmsg with rfl | hmsg
      · have hrest : ∀ msg' ∈ rows, msg'.messageId ≠ n := fun msg' hmsg' hid' =>
          hnew (List.mem_map.mpr ⟨msg', hmsg', hid'.trans hid.symm⟩)
        rw [List.filterMap_cons]
        dsimp only
        rw [if_pos hid, pushed_of_not_mem hrest sent, List.map_singleton, hf]
      · have hne : row.messageId ≠ n := by
          rintro rfl
          exact hnew (List.mem_map.mpr ⟨msg, hmsg, hid⟩)
        rw [List.filterMap_cons]
        dsimp only
        rw [if_neg hne]
        exact ih htail hnodup hmsg

end Pushed

/-- When both have finished, each message has been forwarded once. -/
theorem Relaying.exactlyOnce {w₀ : World P} {requests : List Request} {C : Correspondence}
    {h : List (Exchange × Call Op Op.Res)} (hr : Relaying C w₀.db.nextMessageId w h)
    (hcontents : C.contents = (requests.filter Sendable).map (·.content))
    (hsending : DoneWith C.contents.length (Pool.own h .sending))
    (hentering : Pushed C (Pool.own h .entering)) :
    ExactlyOnce w₀ requests C.clientSocket h := by
  obtain ⟨rows, hentered⟩ := hentering
  refine ⟨fun e he => ?_, hr.sent, ?_⟩
  · have hrequest : (requests.filter Sendable)[e.2]? = some e.1 := List.mem_zipIdx_iff_getElem?.mp he
    have hlt : e.2 < (handled (Pool.own h .sending)).length := by
      rw [hsending.length, hcontents, List.length_map]
      exact (List.getElem?_eq_some_iff.mp hrequest).1
    have hm : (handled (Pool.own h .sending))[e.2]? = some (handled (Pool.own h .sending))[e.2] :=
      List.getElem?_eq_getElem hlt
    generalize (handled (Pool.own h .sending))[e.2] = m at hm
    obtain ⟨content, hcontent, hfits⟩ := hr.ledger.fits e.2 m hm
    obtain rfl : content = e.1.content := by
      rw [hcontents, List.getElem?_map, hrequest] at hcontent
      exact (Option.some.inj hcontent).symm
    have hsent : (forwardsOf (Pool.own h .entering)).map (fun f => (f.1, f.2.forwarded?)) =
        rows.map fun msg => (C.clientSocket, some msg.content) := hentered.sent
    unfold framesOf pushedFor
    rw [hm, hentered.answered, Option.map_some, Option.getD_some, Option.getD_some, List.map_append]
    have hleft := hfits.left rows hentered.answered
    rcases hfits.forwarded with ⟨hnone, hunmarked⟩ | ⟨hstays, frame, hframes, hforwarded⟩
    · -- the sender has left the message, and the login has found it
      have hsettled : m.isLeft = true := by
        rcases hsending.settled m (List.mem_of_getElem? hm) with hleft | hmarked
        · exact hleft
        · cases hunmarked.symm.trans hmarked
      obtain ⟨msg, hmsg, hid⟩ := hleft.mp hsettled
      rw [hnone, pushed_of_mem hsent (hr.ledger.nodup rows hentered.answered) hmsg hid,
        hfits.content rows hentered.answered msg hmsg hid]
      rfl
    · have hnot : ∀ msg ∈ rows, msg.messageId ≠ w₀.db.nextMessageId + e.2 := by
        intro msg hmsg hid
        cases hstays.symm.trans (hleft.mpr ⟨msg, hmsg, hid⟩)
      rw [hframes, pushed_of_not_mem hnot, List.map_singleton, hforwarded]
      rfl
  · rw [hentered.sent, hentered.answered]
    rfl

/-- **Each message is forwarded exactly once across the login**, in every run in which the login makes
its query while the sender is in the middle of no message, and no message is marked before that which
has been left for the login. -/
theorem exactlyOnce_run {w₀ : World P} {u : Str} {requests : List Request} {login : Request}
    (hw₀ : Away w₀ u requests login) (es : List (Exchange × Choice))
    (hes : Meets (Pool.step World.handle) (Pool.AllowsCalls Works Orderly)
      (Pool.start (exchange P requests login) w₀) es)
    (hfinished : (runAll (Pool.step World.handle)
      (Pool.start (exchange P requests login) w₀) es).Finished) :
    ExactlyOnce w₀ requests login.clientSocket
      (runAll (Pool.step World.handle) (Pool.start (exchange P requests login) w₀) es).calls := by
  obtain ⟨i, hi⟩ := Option.isSome_iff_exists.mp hw₀.sender
  obtain ⟨p, hp⟩ := Option.isSome_iff_exists.mp hw₀.connected
  obtain ⟨r, hr, hvals⟩ := Option.map_eq_some_iff.mp hw₀.receiver
  obtain ⟨husername, hvals⟩ := Prod.mk.inj hvals
  obtain ⟨hhash, hoffline⟩ := Prod.mk.inj hvals
  -- who writes to whom, and what, is settled by the state at the start
  let C : Correspondence := ⟨u, i, login.username, r.userId, P.md5 login.password,
    login.clientSocket, p, (requests.filter Sendable).map (·.content)⟩
  have hstart : Relaying C w₀.db.nextMessageId w₀ [] := by
    refine ⟨⟨hi, ⟨r, hr, rfl, husername, hhash, ?_⟩, hp, nofun, fun _ => hw₀.nobody⟩,
      ⟨rfl, nofun, nofun, nofun⟩, fun hno => absurd rfl hno, rfl⟩
    rw [hoffline]
    exact ⟨nofun, nofun⟩
  have hthreads : ∀ k, (exchange P requests login k).Expecting (C.Right k) (C.Calls k) (C.Ends k) [] := by
    intro k
    cases k with
    | sending =>
      have hnone : DoneWith 0 [] := ⟨rfl, nofun⟩
      have hsend := sendAll_expecting (C := C) requests hw₀.requests hnone rfl
      rw [Nat.zero_add] at hsend
      exact hsend.mono fun _ own hdone => by
        show DoneWith C.contents.length own
        rw [List.length_map]
        exact hdone
    | entering =>
      refine (serveLogin_expecting (P := P) (C := C) hw₀.valid rfl rfl rfl).seq ?_
      exact fun _ own hpushed => hpushed
  -- both threads expect their answers, and the invariant gives them these
  obtain ⟨hinv, hdone⟩ := Pool.expecting_runAll hthreads hstart hes
    fun _ _ _ _ _ hr hok hch hcond => hr.step hok hcond hch
  obtain ⟨_, hsending⟩ := hdone .sending (hfinished .sending)
  obtain ⟨_, hentering⟩ := hdone .entering (hfinished .entering)
  exact hinv.exactlyOnce rfl hsending hentering

/-! ## Bob logs in while Alice writes to him -/

/-- Alice is logged in on the first connection, and Bob has connected. -/
def bobConnected : World asciiCi :=
  runAll next (World.start Database.empty)
    (aliceRegisters ++ [bobRegisters, aliceLogsIn, (.accept 2, [])])

def bobLogin : Request where
  type := bytes "LOGIN"
  username := bytes "bob"
  password := bytes "qwerty"
  newUsername := []
  newPassword := []
  verifyPassword := []
  targetUsername := []
  content := []
  count := 0
  clientSocket := 2

theorem bobConnected_away :
    Away bobConnected (bytes "alice") [aliceToBob "one", aliceToBob "two"] bobLogin where
  sender := by decide
  requests := by decide
  valid := by decide
  receiver := by decide
  connected := by decide
  nobody := by decide

/-- The first message is stored before the login, and the second while the first is pushed. -/
theorem exactlyOnce_meanwhile : ExactlyOnce bobConnected [aliceToBob "one", aliceToBob "two"] 2
    (runAll (Pool.step World.handle)
      (Pool.start (exchange asciiCi [aliceToBob "one", aliceToBob "two"] bobLogin) bobConnected)
      (turns [(.sending, 4), (.entering, 18), (.sending, 7), (.entering, 4), (.sending, 4)])).calls :=
  exactlyOnce_run bobConnected_away _ (by decide) (by decide)

/-- The first message is stored while Bob is away, and marked with the second before he asks. -/
theorem not_exactlyOnce : ¬ ∀ (w₀ : World asciiCi) (u : Str) (requests : List Request)
    (login : Request), Away w₀ u requests login → ∀ es : List (Exchange × Choice),
    (∀ e ∈ es, Works e.2) →
    (runAll (Pool.step World.handle)
      (Pool.start (exchange asciiCi requests login) w₀) es).Finished →
    ExactlyOnce w₀ requests login.clientSocket
      (runAll (Pool.step World.handle) (Pool.start (exchange asciiCi requests login) w₀) es).calls := by
  intro h
  have hexactly := h bobConnected (bytes "alice") [aliceToBob "one", aliceToBob "two"] bobLogin
    bobConnected_away (turns [(.sending, 4), (.entering, 7), (.sending, 11), (.entering, 8)])
    (by decide) (by decide)
  have honce := hexactly.once (aliceToBob "one", 0) (List.mem_zipIdx_iff_getElem?.mpr rfl)
  have hnone : (framesOf bobConnected.db.nextMessageId 0 (runAll (Pool.step World.handle)
      (Pool.start (exchange asciiCi [aliceToBob "one", aliceToBob "two"] bobLogin) bobConnected)
      (turns [(.sending, 4), (.entering, 7), (.sending, 11), (.entering, 8)])).calls).length = 0 := by
    decide +kernel
  rw [List.length_eq_zero_iff.mp hnone] at honce
  cases honce

end LiteChat
