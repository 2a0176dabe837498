import LiteChat.Proof.Presence
import LiteChat.Proof.Threads

/-!
# What a read mark says

A row that is marked as read says that its pair was forwarded. For it to say that the message itself
was, no forward may overtake: when a message goes out, nothing of the same pair may be left behind
that never went out. A live forward leaves the whole backlog of the pair behind, and a push what it
could not send.

A frame does not say which row it is of. What it says is whom it is from, whom it is for, and a content,
and two rows may agree in all of that. So a frame is tied to a row in three ways: by what it says, by the
time, since a row that is not stored yet, or is marked already, is not what is sent, and by number, since
rows that wait for the same push and agree need a frame each (`GetsThrough`).
-/

namespace LiteChat

open LiteChat.Action Spec Server MessageManager

variable {P : Platform} {E : Env} {w w' : World P}

/-- What an event sends. -/
def said (w : World P) (e : Event × List Choice) : List Obs := (next w e).trace.drop w.trace.length

/-- The messages that get through with it. -/
def through (w : World P) (e : Event × List Choice) : List Letter := forwards w.db (said w e)

/-- The messages that wait in an event: those that it finds unread, and the one that it stores. -/
def waiting (w : World P) (e : Event × List Choice) : List MessageRow :=
  (next w e).db.messages.filter fun m =>
    ∀ old ∈ w.db.messages, old.messageId = m.messageId → old.isRead = false

/-- A message gets through in an event: it waits in it, and a frame with its sender's name and its content
goes to its receiver. Rows that were there before share the frames with all that wait and agree with them,
so there is a frame for each of these; a row that the event stores is forwarded alone. -/
def GetsThrough (w : World P) (e : Event × List Choice) (m : MessageRow) : Prop :=
  (∃ row ∈ waiting w e, row.messageId = m.messageId) ∧ m.letter ∈ through w e ∧
    ((∃ old ∈ w.db.messages, old.messageId = m.messageId) →
      ((waiting w e).map MessageRow.letter).count m.letter ≤ (through w e).count m.letter)

instance (w : World P) (e : Event × List Choice) (m : MessageRow) : Decidable (GetsThrough w e m) := by
  unfold GetsThrough
  infer_instance

/-- The message has got through in an event of the run. -/
def Forwarded (db : Database P) (es : List (Event × List Choice)) (m : MessageRow) : Prop :=
  ∃ before e after, es = before ++ e :: after ∧
    GetsThrough (Effect.runAll next (World.start db) before) e m

/-- Every message that is marked as read was sent to its receiver. -/
def ReadIsDelivered (db : Database P) (es : List (Event × List Choice)) : Prop :=
  ∀ m ∈ (Effect.runAll next (World.start db) es).db.messages, m.isRead = true → Forwarded db es m

/-- A frame that carries the content of the message has got through to its receiver. -/
def Obs.Carries (m : MessageRow) : Obs → Prop
  | .sent _ (some receiverId) frame true => receiverId = m.receiverId ∧ frame.forwarded? = some m.content
  | _ => False

instance (m : MessageRow) (o : Obs) : Decidable (o.Carries m) := by
  unfold Obs.Carries
  split <;> infer_instance

/-- The same without the ties: of every message that is marked as read some frame has its content. -/
def ReadIsOnRecord (w : World P) : Prop :=
  ∀ m ∈ w.db.messages, m.isRead = true → ∃ o ∈ w.trace, o.Carries m

/-- A message that was never sent is unread, and the next push of its receiver selects it. -/
def NoneLost (db : Database P) (es : List (Event × List Choice)) : Prop :=
  ∀ m ∈ (Effect.runAll next (World.start db) es).db.messages, ¬ Forwarded db es m →
    m.isRead = false ∧ ∀ rank, ∃ msg ∈
      (Effect.runAll next (World.start db) es).db.unread rank m.receiverId, msg.messageId = m.messageId

/-- In the event a message gets through, and one of the same pair that was unread, and never got through
before, does not. -/
def Overtakes (db : Database P) (past : List (Event × List Choice)) (e : Event × List Choice) : Prop :=
  ∃ m ∈ (Effect.runAll next (World.start db) past).db.messages, m.isRead = false ∧
    ¬ Forwarded db past m ∧
    PairForwarded (Effect.runAll next (World.start db) past).db
      (said (Effect.runAll next (World.start db) past) e) m ∧
    ¬ GetsThrough (Effect.runAll next (World.start db) past) e m

theorem Forwarded.mono {db : Database P} {es es' : List (Event × List Choice)} {m : MessageRow}
    (h : Forwarded db es m) : Forwarded db (es ++ es') m := by
  obtain ⟨before, e, after, rfl, hthrough⟩ := h
  exact ⟨before, e, after ++ es', by simp, hthrough⟩

theorem GetsThrough.forwarded {db : Database P} {past : List (Event × List Choice)}
    {e : Event × List Choice} {m : MessageRow}
    (h : GetsThrough (Effect.runAll next (World.start db) past) e m) : Forwarded db (past ++ [e]) m :=
  ⟨past, e, [], rfl, h⟩

theorem forwarded_iff {db : Database P} {es : List (Event × List Choice)} {m : MessageRow} :
    Forwarded db es m ↔
      ∃ k : Fin es.length, GetsThrough (Effect.runAll next (World.start db) (es.take k)) es[k] m := by
  constructor
  · rintro ⟨before, e, after, rfl, hthrough⟩
    refine ⟨⟨before.length, by simp⟩, ?_⟩
    simpa using hthrough
  · rintro ⟨k, hthrough⟩
    exact ⟨es.take k, es[k], es.drop (k + 1), by simp, hthrough⟩

instance (db : Database P) (es : List (Event × List Choice)) (m : MessageRow) :
    Decidable (Forwarded db es m) := decidable_of_iff _ forwarded_iff.symm

instance (w : World P) : Decidable (ReadIsOnRecord w) := by
  unfold ReadIsOnRecord
  infer_instance

theorem Obs.carries_of_letter {db : Database P} {o : Obs} {m : MessageRow}
    (h : o.letter? db = some m.letter) : o.Carries m := by
  unfold Obs.letter? at h
  split at h
  · split at h
    · rename_i hcontent hsender
      obtain ⟨senderId, _, hletter⟩ := Option.map_eq_some_iff.mp h
      obtain ⟨_, hrest⟩ := Prod.mk.inj hletter
      obtain ⟨rfl, rfl⟩ := Prod.mk.inj hrest
      exact ⟨rfl, hcontent⟩
    · cases h
  · cases h

/-- What was said stays said. -/
theorem trace_next (w : World P) (e : Event × List Choice) : w.trace <+: (next w e).trace := by
  have hkept : wp .any (e.1.action P) (fun _ w' => w.trace <+: w'.trace) w := by
    refine Effect.Prog.wp_frame (Effect.Prog.uses_of_forall _ fun _ => (trivial : True))
      (fun w w' : World P => w.trace <+: w'.trace) (fun _ => List.prefix_rfl)
      (fun _ _ _ h h' => h.trans h') fun o ch w _ _ => ?_
    obtain ⟨said, hsaid, _⟩ := World.trace_handle o ch w
    exact ⟨said, hsaid.symm⟩
  unfold next step
  split
  · exact run_of_wp hkept e.2 fun ch _ => Env.ok_any ch
  · exact List.prefix_rfl

theorem trace_runAll (w : World P) (es : List (Event × List Choice)) :
    w.trace <+: (Effect.runAll next w es).trace := by
  induction es generalizing w with
  | nil => exact List.prefix_rfl
  | cons e es ih => exact (trace_next w e).trans (ih (next w e))

/-- A message that has got through is on record. -/
theorem Forwarded.carried {db : Database P} {es : List (Event × List Choice)} {m : MessageRow}
    (h : Forwarded db es m) : ∃ o ∈ (Effect.runAll next (World.start db) es).trace, o.Carries m := by
  obtain ⟨before, e, after, rfl, _, hsent, _⟩ := h
  obtain ⟨o, ho, hletter⟩ := List.mem_filterMap.mp hsent
  refine ⟨o, ?_, Obs.carries_of_letter hletter⟩
  rw [Effect.runAll_append, Effect.runAll_cons]
  exact (trace_runAll _ after).subset (List.mem_of_mem_drop ho)

theorem ReadIsDelivered.onRecord {db : Database P} {es : List (Event × List Choice)}
    (h : ReadIsDelivered db es) : ReadIsOnRecord (Effect.runAll next (World.start db) es) :=
  fun m hm hread => (h m hm hread).carried

/-! ## What an event marks -/

theorem Removed.settles {c : Socket} (h : Removed E c w w') : Settles w w' := by
  obtain ⟨f, hid, hname, hdb, _⟩ := h.db.mapUsers
  exact .of_messages h.trace fun m hm => by rw [hdb] at hm; exact hm

theorem Settles.trans_messages {w₁ : World P} (hmessages : w₁.db.messages = w.db.messages)
    (hid : ∀ u, w₁.db.idOf u = w.db.idOf u) (htrace : w.trace <+: w₁.trace)
    (h : Settles w₁ w') : Settles w w' :=
  h.around hmessages hid htrace rfl List.prefix_rfl

theorem Scanned.messages_and_trace (h : Scanned E w w') :
    w'.db.messages = w.db.messages ∧ w.trace <+: w'.trace := by
  induction h with
  | done w => exact ⟨rfl, List.prefix_rfl⟩
  | expired c u w w₁ w' _ hremoved _ _ ih =>
    obtain ⟨f, hid, hname, hdb, _⟩ := hremoved.db.mapUsers
    exact ⟨ih.1.trans (by rw [hdb]; rfl), hremoved.trace.trans ih.2⟩

theorem UserUpdated.messages {request : Request} {i : UserId} {db db' : Database P}
    (h : UserUpdated E request i db db') : db'.messages = db.messages := by
  obtain ⟨db₁, hrename, hpassword⟩ := h
  have h₁ : db₁.messages = db.messages := by
    rcases hrename with rfl | ⟨_, _, _, hupdate⟩
    · rfl
    · exact (Database.tables_of_updateUsername hupdate).2.1
  rcases hpassword with rfl | rfl <;> exact h₁

/-- **A message that an event marks is delivered, or of a pair that was forwarded.** -/
theorem Happens.settles {e : Event} {served : Option (Request × Response)} (h : Attached w)
    (happens : Happens E w e served w') : Settles w w' := by
  cases happens with
  | disabled => exact .of_messages List.prefix_rfl fun _ => id
  | turnedAway c _ _ hdb _ _ htrace => exact .of_messages htrace fun m hm => hdb ▸ hm
  | accepted c _ _ hdb _ _ htrace => exact .of_messages (htrace ▸ List.prefix_rfl) fun m hm => hdb ▸ hm
  | malformed c _ hquiet => exact .of_messages hquiet.trace fun m hm => hquiet.db ▸ hm
  | thrown c root _ _ w₁ _ _ hquiet hremoved =>
    exact hremoved.settles.trans_messages (by rw [hquiet.db]) (fun _ => by rw [hquiet.db]) hquiet.trace
  | hungUp c _ hremoved => exact hremoved.settles
  | scanned _ hscan =>
    obtain ⟨hmessages, htrace⟩ := hscan.messages_and_trace
    exact .of_messages htrace fun m hm => hmessages ▸ hm
  | served c root garbage request response w₁ w₂ _ hc hrequest hquiet hserves hrest =>
    have h₁ := h.congr hquiet.logins hquiet.openSockets
    have hserved : Settles w₁ w₂ := by
      cases hserves with
      | refused => exact .of_messages List.prefix_rfl fun _ => id
      | registered _ db _ _ hinsert =>
        exact .of_messages List.prefix_rfl fun m hm =>
          (Database.tables_of_insertUser hinsert).2.1 ▸ hm
      | updated _ r db _ _ _ hupdate =>
        exact .of_messages List.prefix_rfl fun m hm => hupdate.messages ▸ hm
      | other _ _ _ hchats => exact hchats.settles h₁.sound
      | loggedIn r kicks w₃ _ _ _ hlogin hchats =>
        -- the push goes to routes as they are after the login
        have hclient := requestOf_clientSocket hrequest
        have hfree : w₁.sessions.logins.Free c request.username := by
          rw [hquiet.logins]
          exact free_of_requestOf hrequest (h.hasSession c hc)
        rw [hclient] at hlogin
        have h₃ := h₁.toSoundRouting.loggedIn hlogin hfree
        exact (hchats.settles h₃.sound).trans_messages hlogin.db.messages hlogin.db.idOf hlogin.trace
    exact hserved.around (by rw [hquiet.db]) (fun _ => by rw [hquiet.db]) hquiet.trace
      (by rw [hrest.db]) hrest.trace

theorem said_eq {e : Event × List Choice} {after : List Obs} (h : (next w e).trace = w.trace ++ after) :
    said w e = after := by
  unfold said
  rw [h, List.drop_left]

/-- A row that the event stores and that is what was sent has got through. -/
theorem getsThrough_new {e : Event × List Choice} {m : MessageRow} (hm : m ∈ (next w e).db.messages)
    (hnew : ∀ old ∈ w.db.messages, old.messageId ≠ m.messageId) (hsent : m.letter ∈ through w e) :
    GetsThrough w e m := by
  refine ⟨⟨m, List.mem_filter.mpr ⟨hm, ?_⟩, rfl⟩, hsent, ?_⟩
  · exact decide_eq_true fun old hold hid => absurd hid (hnew old hold)
  · rintro ⟨old, hold, hid⟩
    exact absurd hid (hnew old hold)

/-- **What one event marks has got through**, in it or before, if nothing was overtaken. A mark is set
for all rows of a pair of users at once, so that besides the message which was forwarded it may be set
for others. -/
theorem ReadIsDelivered.next {db : Database P} {past : List (Event × List Choice)}
    (h : ReadIsDelivered db past) {e : Event × List Choice}
    (hsettles : Settles (Effect.runAll next (World.start db) past)
      (next (Effect.runAll next (World.start db) past) e)) (hcond : ¬ Overtakes db past e) :
    ReadIsDelivered db (past ++ [e]) := by
  unfold ReadIsDelivered
  rw [Effect.runAll_append, Effect.runAll_cons, Effect.runAll_nil]
  obtain ⟨after, htrace, hrows⟩ := hsettles
  rw [← said_eq htrace] at hrows
  intro m' hm' hread
  rcases hrows m' hm' hread with hold | ⟨hnew, hsent⟩ | ⟨m, hm, rfl, hpair⟩
  · exact (h m' hold hread).mono
  · exact (getsThrough_new hm' hnew hsent).forwarded
  -- which row it is, and what it says, is no matter of its mark
  · show Forwarded db (past ++ [e]) m
    by_cases hmarked : m.isRead = true
    · exact (h m hm hmarked).mono
    · by_cases hforwarded : Forwarded db past m
      · exact hforwarded.mono
      · refine GetsThrough.forwarded ?_
        by_contra hnot
        exact hcond ⟨m, hm, by simpa using hmarked, hforwarded, hpair, hnot⟩

/-! ## Runs -/

theorem mem_bySendTime {rank : Nat → Nat} {rows : List MessageRow} {m : MessageRow} :
    m ∈ Database.bySendTime rank rows ↔ m ∈ rows := by
  unfold Database.bySendTime
  rw [List.mem_insertionSort, Effect.mem_arrange]

/-- An unread message is among those that a push of its receiver selects. -/
theorem exists_mem_unread {db : Database P} {m : MessageRow} (hm : m ∈ db.messages)
    (hunread : m.isRead = false) (rank : Nat → Nat) :
    ∃ msg ∈ db.unread rank m.receiverId, msg.messageId = m.messageId := by
  obtain ⟨hs, hr⟩ := db.messages_user m hm
  obtain ⟨s, hsmem, hsid⟩ := List.mem_map.mp hs
  obtain ⟨r, hrmem, hrid⟩ := List.mem_map.mp hr
  have hjoined : ∃ msg, db.joined m = some msg ∧ msg.messageId = m.messageId := by
    unfold Database.joined
    rw [Database.byId_iff.mpr ⟨hsmem, hsid⟩, Database.byId_iff.mpr ⟨hrmem, hrid⟩]
    exact ⟨_, rfl, rfl⟩
  obtain ⟨msg, hmsg, hid⟩ := hjoined
  refine ⟨msg, List.mem_filterMap.mpr ⟨m, mem_bySendTime.mpr ?_, hmsg⟩, hid⟩
  exact List.mem_filter.mpr ⟨hm, by simp [hunread]⟩

theorem ReadIsDelivered.noneLost {db : Database P} {es : List (Event × List Choice)}
    (h : ReadIsDelivered db es) : NoneLost db es := by
  intro m hm hunsent
  have hunread : m.isRead = false := by
    by_contra hr
    exact hunsent (h m hm (by simpa using hr))
  exact ⟨hunread, exists_mem_unread hm hunread⟩

/-- The steps in which nothing is lost: no scan takes a session, and no forward overtakes. -/
def KeepsUnsent (db : Database P) (past : List (Event × List Choice)) (e : Event × List Choice) : Prop :=
  e.1 ≠ .heartbeatScan ∧ ¬ Overtakes db past e

/-- The invariant of the runs. -/
structure Delivering (db : Database P) (past : List (Event × List Choice)) : Prop where
  attached : Attached (Effect.runAll next (World.start db) past)
  delivered : ReadIsDelivered db past

theorem Delivering.next {db : Database P} {past : List (Event × List Choice)} (h : Delivering db past)
    {e : Event × List Choice} (hcond : KeepsUnsent db past e) : Delivering db (past ++ [e]) := by
  have happens := step_happens .any (Effect.runAll Server.next (World.start db) past) e.1 e.2
    fun ch _ => Env.ok_any ch
  refine ⟨?_, h.delivered.next (happens.settles h.attached) hcond.2⟩
  rw [Effect.runAll_append, Effect.runAll_cons, Effect.runAll_nil]
  exact h.attached.next happens hcond.1

theorem Delivering.start {db : Database P} (hunread : ∀ m ∈ db.messages, m.isRead = false) :
    Delivering db [] :=
  ⟨.start db, fun m hm hread => absurd (hread.symm.trans (hunread m hm)) (by decide)⟩

/-- **A message that is marked as read was sent to its receiver, in every run without scans in
which no forward overtakes.** It got through in an event of the run in which it waited. And what never
got through is still there for the next push. -/
theorem readIsDelivered_run (db : Database P) (hunread : ∀ m ∈ db.messages, m.isRead = false)
    (es : List (Event × List Choice)) (h : Effect.Along (KeepsUnsent db) [] es) :
    ReadIsOnRecord (Effect.runAll next (World.start db) es) ∧ ReadIsDelivered db es ∧ NoneLost db es := by
  have hinv : Delivering db ([] ++ es) := h.inv (.start hunread) fun _ _ hpast hcond => hpast.next hcond
  exact ⟨hinv.delivered.onRecord, hinv.delivered, hinv.delivered.noneLost⟩

/-! ## Two messages to one user -/

/-- Nothing is overtaken where of every pair that is forwarded all that is unread gets through. -/
theorem keepsUnsent_of_all {db : Database P} {past : List (Event × List Choice)} {e : Event × List Choice}
    (hscan : e.1 ≠ .heartbeatScan)
    (hall : ∀ m ∈ (Effect.runAll next (World.start db) past).db.messages, m.isRead = false →
      (∃ letter ∈ through (Effect.runAll next (World.start db) past) e,
        letter.1 = m.senderId ∧ letter.2.1 = m.receiverId) →
      GetsThrough (Effect.runAll next (World.start db) past) e m) : KeepsUnsent db past e := by
  refine ⟨hscan, ?_⟩
  rintro ⟨m, hm, hunread, _, hpair, hnot⟩
  exact hnot (hall m hm hunread hpair)

def bobRegisters : Event × List Choice :=
  (.request 1 (flatBody [("type", "REGISTER"), ("username", "bob"), ("password", "qwerty")]), [])

def bobLogsIn (cs : List Choice) : List (Event × List Choice) :=
  [(.accept 2, []),
   (.request 2 (flatBody [("type", "LOGIN"), ("username", "bob"), ("password", "qwerty")]), cs)]

def aliceSends (content : String) : Event × List Choice :=
  (.request 1 (flatBody [("type", "SEND_MSG"), ("targetUsername", "bob"), ("content", content)]), [])

/-- Alice writes to Bob twice while he is away, the same both times, and once when he is back. -/
def aliceWritesOn : List (Event × List Choice) :=
  aliceRegisters ++ [bobRegisters, aliceLogsIn, aliceSends "hi", aliceSends "hi"] ++ bobLogsIn [] ++
    [aliceSends "two"]

theorem readIsDelivered_backlog :
    (Effect.runAll next (World.start (Database.empty : Database asciiCi)) aliceWritesOn).db.messages.map
      (fun m => (m.content, m.isRead)) =
        [(bytes "hi", true), (bytes "hi", true), (bytes "two", true)] ∧
    ReadIsDelivered (Database.empty : Database asciiCi) aliceWritesOn := by
  refine ⟨by decide +kernel, (readIsDelivered_run Database.empty (by simp [Database.empty]) _ ?_).2.1⟩
  refine ⟨keepsUnsent_of_all ?_ (by decide +kernel), keepsUnsent_of_all ?_ (by decide +kernel),
    keepsUnsent_of_all ?_ (by decide +kernel), keepsUnsent_of_all ?_ (by decide +kernel),
    keepsUnsent_of_all ?_ (by decide +kernel), keepsUnsent_of_all ?_ (by decide +kernel),
    keepsUnsent_of_all ?_ (by decide +kernel), keepsUnsent_of_all ?_ (by decide +kernel),
    keepsUnsent_of_all ?_ (by decide +kernel), trivial⟩
  -- none of them is a scan
  all_goals exact Event.noConfusion

/-- Bob comes back when nothing can be sent to him. -/
def noneSent : List Choice := List.replicate 32 { (default : Choice) with sendOk := false }

/-- Alice writes once before Bob comes back, and once after. -/
def aliceSendsTwice : List (Event × List Choice) :=
  aliceRegisters ++ [bobRegisters, aliceLogsIn, aliceSends "one"] ++ bobLogsIn noneSent ++
    [aliceSends "two"]

/-- The first message is marked as read with the second, and was never sent. -/
theorem not_readIsDelivered :
    ¬ ∀ es : List (Event × List Choice), (∀ e ∈ es, e.1 ≠ .heartbeatScan) →
      ReadIsOnRecord (Effect.runAll next (World.start (Database.empty : Database asciiCi)) es) := by
  intro h
  refine absurd (h aliceSendsTwice ?_) (by decide +kernel)
  simp [aliceSendsTwice, aliceRegisters, aliceLogsIn, bobRegisters, bobLogsIn, aliceSends]

end LiteChat
