import LiteChat.Proof.Bodies

/-!
# Where a body says something, and what it cannot say

`DispatchRequest` has its fields from the body or from its `data`, by two copies of one piece of code
(`readRequest`, on one value or the other). Objects that agree on the names of the fields are read
alike (`readRequest_obj`), so a request means the same in either layout
(`dispatchRequest_flat_nested`).

Who is logged in on the connection acts. All that a name in the body can do then is to stand for a
target that is not given (`actingAs`), so with a target it does nothing (`actsAsItself`).
-/

namespace LiteChat

open LiteChat.Action Server

variable {P : Platform} {w : World P}

/-! ## Reading an object -/

/-- The text that `stringField` finds among members. -/
def textAt (key : String) (members : List (Str × Json)) : Except JsonException Str :=
  match members.lookup (bytes key) with
  | some j => j.asString
  | none => .ok []

/-- The number that `countField` finds among members. -/
def countAt (garbage : Int) (members : List (Str × Json)) : Except JsonException Int :=
  match members.lookup (bytes "count") with
  | some j => j.asInt
  | none => .ok garbage

theorem stringField_obj (members : List (Str × Json)) (key : String) :
    stringField (.obj members) key = textAt key members := by
  unfold stringField textAt
  cases h : members.lookup (bytes key) with
  | none => simp only [Json.isMember, h, bind, Except.bind]; rfl
  | some j => simp only [Json.isMember, Json.get, h, bind, Except.bind]; rfl

theorem countField_obj (members : List (Str × Json)) (garbage : Int) :
    countField (.obj members) garbage = countAt garbage members := by
  unfold countField countAt
  cases h : members.lookup (bytes "count") with
  | none => simp only [Json.isMember, h, bind, Except.bind]; rfl
  | some j => simp only [Json.isMember, Json.get, h, bind, Except.bind]; rfl

/-- The members that `readRequest` asks for. -/
def fieldNames : List String := textFields ++ ["count"]

/-- Nothing but these members matters. -/
theorem readRequest_obj {members members' : List (Str × Json)}
    (h : ∀ key ∈ fieldNames, members.lookup (bytes key) = members'.lookup (bytes key)) (type : Str)
    (c : Socket) (garbage : Int) :
    readRequest type c garbage (.obj members) = readRequest type c garbage (.obj members') := by
  have htext : ∀ key ∈ textFields,
      stringField (.obj members) key = stringField (.obj members') key := by
    intro key hkey
    rw [stringField_obj, stringField_obj]
    unfold textAt
    rw [h key (List.mem_append_left _ hkey)]
  have hcount : countField (.obj members) garbage = countField (.obj members') garbage := by
    rw [countField_obj, countField_obj]
    unfold countAt
    rw [h "count" (by decide)]
  unfold readRequest
  rw [htext "username" (by decide), htext "password" (by decide), htext "newUsername" (by decide),
    htext "newPassword" (by decide), htext "verifyPassword" (by decide),
    htext "targetUsername" (by decide), htext "content" (by decide), hcount]

/-! ## Two layouts -/

/-- The fields of a request, as far as a client gives them. -/
structure Fields where
  username : Option Str
  password : Option Str
  newUsername : Option Str
  newPassword : Option Str
  verifyPassword : Option Str
  targetUsername : Option Str
  content : Option Str
  count : Option Int

namespace Fields

/-- The member for a field, if the field is given. -/
def text (key : String) (value : Option Str) : List (Str × Json) :=
  match value with
  | some s => [(bytes key, .str s)]
  | none => []

def number (key : String) (value : Option Int) : List (Str × Json) :=
  match value with
  | some n => [(bytes key, .int n)]
  | none => []

def members (fields : Fields) : List (Str × Json) :=
  text "username" fields.username ++ text "password" fields.password ++
    text "newUsername" fields.newUsername ++ text "newPassword" fields.newPassword ++
    text "verifyPassword" fields.verifyPassword ++ text "targetUsername" fields.targetUsername ++
    text "content" fields.content ++ number "count" fields.count

/-- The fields beside the type. -/
def flat (fields : Fields) (type : Str) : Json := .obj ((bytes "type", .str type) :: fields.members)

/-- The fields in an object of their own. -/
def nested (fields : Fields) (type : Str) : Json :=
  .obj [(bytes "type", .str type), (bytes "data", .obj fields.members)]

theorem key_of_mem_text {key : String} {value : Option Str} {e : Str × Json}
    (he : e ∈ text key value) : e.1 = bytes key := by
  cases value with
  | none => cases he
  | some s => rw [List.mem_singleton.mp he]

theorem key_of_mem_number {key : String} {value : Option Int} {e : Str × Json}
    (he : e ∈ number key value) : e.1 = bytes key := by
  cases value with
  | none => cases he
  | some n => rw [List.mem_singleton.mp he]

theorem key_of_mem {fields : Fields} {e : Str × Json} (he : e ∈ fields.members) :
    e.1 ∈ fieldNames.map bytes := by
  have hname : ∀ {key : String}, e.1 = bytes key → key ∈ fieldNames → e.1 ∈ fieldNames.map bytes :=
    fun hkey hmem => hkey ▸ List.mem_map_of_mem hmem
  unfold members at he
  simp only [List.mem_append] at he
  rcases he with ((((((he | he) | he) | he) | he) | he) | he) | he
  · exact hname (key_of_mem_text he) (by decide)
  · exact hname (key_of_mem_text he) (by decide)
  · exact hname (key_of_mem_text he) (by decide)
  · exact hname (key_of_mem_text he) (by decide)
  · exact hname (key_of_mem_text he) (by decide)
  · exact hname (key_of_mem_text he) (by decide)
  · exact hname (key_of_mem_text he) (by decide)
  · exact hname (key_of_mem_number he) (by decide)

theorem lookup_data (fields : Fields) : fields.members.lookup (bytes "data") = none := by
  rw [List.lookup_eq_none_iff]
  intro e he
  have hkeys : bytes "data" ∉ fieldNames.map bytes := by decide
  simp only [bne_iff_ne]
  exact fun heq => hkeys (heq ▸ key_of_mem he)

theorem header_flat (fields : Fields) (type : Str) :
    header (fields.flat type) = .ok (type, fields.flat type) := by
  have hne : (bytes "data" == bytes "type") = false := by decide
  have hdata : (fields.flat type).field "data" = .null := by
    unfold flat Json.field Json.member?
    simp only [List.lookup_cons, hne, lookup_data, Option.getD_none]
  rw [header_eq]
  unfold fieldsOf
  rw [hdata]
  unfold flat Json.field Json.member?
  simp only [List.lookup_cons, BEq.rfl]
  rfl

theorem header_nested (fields : Fields) (type : Str) :
    header (fields.nested type) = .ok (type, .obj fields.members) := by
  have hne : (bytes "data" == bytes "type") = false := by decide
  rw [header_eq]
  unfold fieldsOf nested Json.field Json.member?
  simp only [List.lookup_cons, BEq.rfl, hne]
  rfl

theorem readRequest_flat (fields : Fields) (type : Str) (c : Socket) (garbage : Int) :
    readRequest type c garbage (fields.flat type) =
      readRequest type c garbage (.obj fields.members) := by
  apply readRequest_obj
  intro key hkey
  have hne : ∀ key ∈ fieldNames, (bytes key == bytes "type") = false := by decide
  simp only [List.lookup_cons, hne key hkey]

/-- The request that the fields make with this count: a text that is not given is empty. -/
def request (fields : Fields) (type : Str) (c : Socket) (count : Int) : Request where
  type := type
  username := fields.username.getD []
  password := fields.password.getD []
  newUsername := fields.newUsername.getD []
  newPassword := fields.newPassword.getD []
  verifyPassword := fields.verifyPassword.getD []
  targetUsername := fields.targetUsername.getD []
  content := fields.content.getD []
  count := count
  clientSocket := c

theorem lookup_text (key : String) (value : Option Str) :
    (text key value).lookup (bytes key) = value.map .str := by
  cases value with
  | none => rfl
  | some s => exact List.lookup_cons_self

theorem lookup_text_ne {key key' : String} (h : bytes key' ≠ bytes key) (value : Option Str) :
    (text key value).lookup (bytes key') = none := by
  cases value with
  | none => rfl
  | some s =>
    unfold text
    rw [List.lookup_cons, beq_false_of_ne h]
    rfl

theorem lookup_number (key : String) (value : Option Int) :
    (number key value).lookup (bytes key) = value.map .int := by
  cases value with
  | none => rfl
  | some n => exact List.lookup_cons_self

theorem lookup_number_ne {key key' : String} (h : bytes key' ≠ bytes key) (value : Option Int) :
    (number key value).lookup (bytes key') = none := by
  cases value with
  | none => rfl
  | some n =>
    unfold number
    rw [List.lookup_cons, beq_false_of_ne h]
    rfl

/-- A text is found under its key, whatever is under the others. -/
theorem textAt_of_lookup {members : List (Str × Json)} (key : String) (value : Option Str)
    (h : members.lookup (bytes key) = value.map .str) : textAt key members = .ok (value.getD []) := by
  unfold textAt
  rw [h]
  cases value <;> rfl

/-- **What is read of the fields**: all of it, unless the count is no `int`, which `asInt` throws
at. -/
theorem readRequest_members {fields : Fields} {count : Int} (hcount : fields.count = some count)
    (type : Str) (c : Socket) (garbage : Int) :
    readRequest type c garbage (.obj fields.members) =
      if -2147483648 ≤ count ∧ count ≤ 2147483647 then .ok (fields.request type c count)
      else .error .typeMismatch := by
  have hnumber : countField (.obj fields.members) garbage =
      if -2147483648 ≤ count ∧ count ≤ 2147483647 then .ok count else .error .typeMismatch := by
    have hlookup : fields.members.lookup (bytes "count") = some (.int count) := by
      unfold members
      simp (disch := decide) only [List.lookup_append, lookup_text_ne, lookup_number, hcount,
        Option.none_or, Option.map_some]
    rw [countField_obj]
    unfold countAt
    rw [hlookup]
    rfl
  unfold readRequest
  simp only [stringField_obj, hnumber]
  rw [textAt_of_lookup "username" fields.username,
    textAt_of_lookup "password" fields.password,
    textAt_of_lookup "newUsername" fields.newUsername,
    textAt_of_lookup "newPassword" fields.newPassword,
    textAt_of_lookup "verifyPassword" fields.verifyPassword,
    textAt_of_lookup "targetUsername" fields.targetUsername,
    textAt_of_lookup "content" fields.content]
  · split <;> rfl
  all_goals
    unfold members
    simp (disch := decide) only [List.lookup_append, lookup_text, lookup_text_ne, lookup_number_ne,
      Option.none_or, Option.or_none]

/-- A body that gives these fields, in one of the layouts. -/
inductive Body (fields : Fields) (type : Str) : Json → Prop
  | flat : Body fields type (fields.flat type)
  | nested : Body fields type (fields.nested type)

/-- The request of such a body. -/
theorem Body.requestOf_eq {fields : Fields} {type : Str} {root : Json} (h : fields.Body type root)
    (L : Spec.Logins Socket Str) (c : Socket) (garbage : Int) : requestOf L c garbage root =
      (readRequest type c garbage (.obj fields.members)).map (identified L c) := by
  rw [Server.requestOf_eq]
  cases h with
  | flat =>
    rw [header_flat]
    dsimp only
    rw [readRequest_flat]
    cases readRequest type c garbage (.obj fields.members) <;> rfl
  | nested =>
    rw [header_nested]
    dsimp only
    cases readRequest type c garbage (.obj fields.members) <;> rfl

end Fields

/-- **Flat and nested requests mean the same**: the same response, the same frames, the same state, for
every state, every type, all fields and all that may fail. -/
theorem dispatchRequest_flat_nested (w : World P) (c : Socket) (type : Str) (fields : Fields)
    (cs : List Choice) : (dispatchRequest P c (some (fields.flat type))).run cs w =
      (dispatchRequest P c (some (fields.nested type))).run cs w := by
  unfold dispatchRequest
  simp only [fields.header_flat, fields.header_nested, fields.readRequest_flat]

/-! ## Who acts -/

/-- Two objects that differ at most in the string under one key. -/
structure EqualBut (key : String) (members members' : List (Str × Json)) : Prop where
  others : ∀ k ≠ bytes key, members.lookup k = members'.lookup k
  string : ∀ j, members.lookup (bytes key) = some j → ∃ s, j = .str s
  string' : ∀ j, members'.lookup (bytes key) = some j → ∃ s, j = .str s

/-- Two bodies, in one of the layouts, that differ at most in the string `username`. -/
inductive SameButUsername : Json → Json → Prop
  | flat {members members' : List (Str × Json)}
      (hdata : ((Json.obj members).field "data").isNull = true)
      (h : EqualBut "username" members members') : SameButUsername (.obj members) (.obj members')
  | nested {body body' members members' : List (Str × Json)}
      (hbody : ∀ k ≠ bytes "data", k ≠ bytes "username" → body.lookup k = body'.lookup k)
      (hdata : body.lookup (bytes "data") = some (.obj members))
      (hdata' : body'.lookup (bytes "data") = some (.obj members'))
      (h : EqualBut "username" members members') : SameButUsername (.obj body) (.obj body')

/-- The body names a target. -/
def GivesTarget (root : Json) : Prop :=
  ∃ target ≠ [], (fieldsOf root).field "targetUsername" = .str target

theorem EqualBut.stringField {key : String} {members members' : List (Str × Json)}
    (h : EqualBut key members members') : (∃ s, stringField (.obj members) key = .ok s) ∧
      ∃ s, Server.stringField (.obj members') key = .ok s := by
  have hfound : ∀ {ms : List (Str × Json)}, (∀ j, ms.lookup (bytes key) = some j → ∃ s, j = .str s) →
      ∃ s, Server.stringField (.obj ms) key = .ok s := by
    intro ms hstring
    rw [stringField_obj]
    unfold textAt
    cases hlookup : ms.lookup (bytes key) with
    | none => exact ⟨[], rfl⟩
    | some j =>
      obtain ⟨s, rfl⟩ := hstring j hlookup
      exact ⟨s, rfl⟩
  exact ⟨hfound h.string, hfound h.string'⟩

/-- Both bodies have one type, or none, and fields that differ at most in the name: whether the fields
are in the body itself or in its member `data` is the same for both. -/
theorem SameButUsername.headers {root root' : Json} (h : SameButUsername root root') :
    ∃ members members', EqualBut "username" members members' ∧ fieldsOf root = .obj members ∧
      header root = (root.field "type").asString.map (·, .obj members) ∧
      header root' = (root.field "type").asString.map (·, .obj members') := by
  cases h with
  | @flat members members' hdata h =>
    have hfields : fieldsOf (.obj members) = .obj members := if_pos hdata
    have hdata' : fieldsOf (.obj members') = .obj members' := by
      apply if_pos
      unfold Json.field Json.member? at hdata ⊢
      dsimp only at hdata ⊢
      rw [← h.others (bytes "data") (by decide)]
      exact hdata
    refine ⟨members, members', h, hfields, ?_, ?_⟩
    · rw [header_eq, hfields]
      rfl
    · rw [header_eq, hdata']
      unfold Json.field Json.member?
      dsimp only
      rw [h.others (bytes "type") (by decide)]
      rfl
  -- the fields are in `data`, and around them only what the header reads is the same
  | @nested body body' members members' hbody hdata hdata' h =>
    have hfields : ∀ {b ms : List (Str × Json)}, b.lookup (bytes "data") = some (.obj ms) →
        fieldsOf (.obj b) = .obj ms := by
      intro b ms hb
      have hfield : (Json.obj b).field "data" = .obj ms := by
        unfold Json.field Json.member?
        dsimp only
        rw [hb]
        rfl
      unfold fieldsOf
      rw [hfield]
      rfl
    refine ⟨members, members', h, hfields hdata, ?_, ?_⟩
    · rw [header_eq, hfields hdata]
      rfl
    · rw [header_eq, hfields hdata']
      unfold Json.field Json.member?
      dsimp only
      rw [hbody (bytes "type") (by decide) (by decide)]
      rfl

/-- The two requests differ in the name that the client has given. -/
theorem EqualBut.readRequest {members members' : List (Str × Json)}
    (h : EqualBut "username" members members') (type : Str) (c : Socket) (garbage : Int) :
    ∃ username, readRequest type c garbage (.obj members') =
      (readRequest type c garbage (.obj members)).map fun request =>
        { request with username := username } := by
  obtain ⟨⟨s, hs⟩, ⟨s', hs'⟩⟩ := h.stringField
  have htext : ∀ key : String, bytes key ≠ bytes "username" →
      Server.stringField (.obj members') key = Server.stringField (.obj members) key := by
    intro key hkey
    rw [stringField_obj, stringField_obj]
    unfold textAt
    rw [h.others _ hkey]
  have hcount : countField (.obj members') garbage = countField (.obj members) garbage := by
    rw [countField_obj, countField_obj]
    unfold countAt
    rw [h.others _ (by decide)]
  refine ⟨s', ?_⟩
  unfold Server.readRequest
  rw [hs, hs', htext "password" (by decide), htext "newUsername" (by decide),
    htext "newPassword" (by decide), htext "verifyPassword" (by decide),
    htext "targetUsername" (by decide), htext "content" (by decide), hcount]
  simp only [bind, Except.bind, pure, Except.pure]
  repeat' split
  all_goals rfl

theorem readRequest_target {type : Str} {c : Socket} {garbage : Int} {node : Json}
    {request : Request} (h : Server.readRequest type c garbage node = .ok request) :
    stringField node "targetUsername" = .ok request.targetUsername := by
  unfold Server.readRequest at h
  simp only [bind, Except.bind, pure, Except.pure] at h
  repeat' split at h
  all_goals cases h
  assumption

theorem stringField_of_field {members : List (Str × Json)} {key : String} {s : Str}
    (h : (Json.obj members).field key = .str s) : stringField (.obj members) key = .ok s := by
  rw [stringField_obj]
  unfold textAt
  unfold Json.field Json.member? at h
  dsimp only at h
  cases hlookup : members.lookup (bytes key) with
  | none =>
    rw [hlookup] at h
    cases h
  | some j =>
    rw [hlookup] at h
    obtain rfl : j = .str s := h
    rfl

/-- With a target, the name that the client has given is lost. -/
theorem actingAs_username {request : Request} (h : request.targetUsername ≠ []) (u s : Str) :
    actingAs { request with username := s } u = actingAs request u := by
  unfold actingAs
  dsimp only
  rw [if_neg fun hs => h hs.2, if_neg fun hs => h hs.2]

section Runs

variable {α β γ : Type}

theorem bind_bind (p : Action α) (f : α → Action β) (g : β → Action γ) :
    p >>= f >>= g = p >>= fun a => f a >>= g := Effect.Prog.bind_assoc p f g

theorem run_bind (p : Action α) (f : α → Action β) (cs : List Choice) : (p >>= f).run cs w =
    (f (p.run cs w).1).run (Effect.Prog.left World.handle p cs w) (p.run cs w).2 :=
  Effect.Prog.run_bind p f cs w

theorem run_uninitialised (k : Int → Action α) (cs : List Choice) :
    (uninitialised >>= k).run cs w = (k (cs.headD default).garbage).run cs.tail w := rfl

theorem run_getSession (c : Socket) (k : Option SessionPtr → Action α) (cs : List Choice) :
    (getSession c >>= k).run cs w = (k (w.sessions.getSession c)).run cs.tail w := rfl

theorem run_getUsername {p : SessionPtr} {s : ClientSession} (hs : w.sessions.heap.lookup p = some s)
    (k : Str → Action α) (cs : List Choice) :
    (getUsername p >>= k).run cs w = (k s.username).run cs.tail w := by
  show (k (World.handle (.getUsername p) _ w).1).run cs.tail (World.handle (.getUsername p) _ w).2 = _
  simp only [World.handle, World.deref, hs]

theorem refreshed_run (w : World P) (c : Socket) (cs : List Choice) :
    Refreshed w ((refresh c).run cs w).2 :=
  Action.run_of_wp (E := .any) (Q := fun _ w' => Refreshed w w') (wp_refresh fun _ h => h) cs
    fun ch _ => Env.ok_any ch

/-- The request is made by whoever is logged in. -/
theorem run_identify {c : Socket} {u : Str} (hl : w.sessions.loginAt c = some u) (hu : u ≠ [])
    (request : Request) (k : Request → Action α) (cs : List Choice) :
    (identify c request >>= k).run cs w = (k (actingAs request u)).run cs.tail.tail.tail w := by
  obtain ⟨p, s, hp, hs, rfl⟩ := SessionManager.heap_of_loginAt hl
  unfold identify
  rw [bind_bind, run_getSession, hp]
  dsimp only
  rw [bind_bind, run_getUsername hs, if_neg hu, bind_bind, run_getUsername hs]
  rfl

end Runs

/-- **A logged-in connection cannot choose who it acts as**: with a target, the name in the body
changes neither the response nor the frames nor the state. -/
theorem actsAsItself {w : World P} {c : Socket} {u : Str} {root root' : Json}
    (hl : w.sessions.loginAt c = some u) (hu : u ≠ []) (h : SameButUsername root root')
    (htarget : GivesTarget root) (cs : List Choice) :
    (dispatchRequest P c (some root)).run cs w = (dispatchRequest P c (some root')).run cs w := by
  obtain ⟨members, members', hbut, hfields, hheader, hheader'⟩ := h.headers
  obtain ⟨target, hne, htarget⟩ := htarget
  rw [hfields] at htarget
  unfold dispatchRequest
  dsimp only
  rw [hheader, hheader']
  cases (root.field "type").asString with
  | error e => rfl
  | ok type =>
    -- the heartbeat does not depend on the body, so both requests are read in the same state
    have hl₁ := ((refreshed_run w c cs).loginAt c).trans hl
    dsimp only [Except.map]
    rw [run_bind, run_bind (refresh c), run_uninitialised, run_uninitialised]
    generalize ((refresh c).run cs w).2 = w₁ at hl₁ ⊢
    generalize (Effect.Prog.left World.handle (refresh c) cs w) = cs₁
    obtain ⟨username, hread⟩ := hbut.readRequest type c (cs₁.headD default).garbage
    rw [hread]
    cases hrequest : Server.readRequest type c (cs₁.headD default).garbage (.obj members) with
    | error e => rfl
    | ok request =>
      have hgiven : request.targetUsername = target :=
        Except.ok.inj ((readRequest_target hrequest).symm.trans (stringField_of_field htarget))
      dsimp only [Except.map]
      have hsame : actingAs { request with username := username } u = actingAs request u :=
        actingAs_username (hgiven ▸ hne) u username
      rw [run_identify hl₁ hu, run_identify hl₁ hu, hsame]

/-- Another name in front of the members. -/
theorem equalBut_cons {key : String} {members : List (Str × Json)}
    (h : members.lookup (bytes key) = none) (s : Str) :
    EqualBut key members ((bytes key, .str s) :: members) := by
  refine ⟨fun k hk => ?_, fun j hj => ?_, fun j hj => ?_⟩
  · rw [List.lookup_cons, beq_false_of_ne hk]
  · exact absurd (h.symm.trans hj) nofun
  · rw [List.lookup_cons_self] at hj
    exact ⟨s, (Option.some.inj hj).symm⟩

/-- Alice is logged in on the only connection. -/
def aliceAlone : World asciiCi :=
  { World.start Database.empty with
    sessions := SessionManager.empty.addSession ⟨1, bytes "alice", 0, true⟩ }

/-- She cannot write to Bob as somebody else. -/
theorem actsAsItself_alice :
    let members : List (Str × Json) :=
      [(bytes "type", .str (bytes "SEND_MSG")), (bytes "targetUsername", .str (bytes "bob")),
        (bytes "content", .str (bytes "hi"))]
    (dispatchRequest asciiCi 1 (some (.obj members))).run [] aliceAlone =
      (dispatchRequest asciiCi 1
        (some (.obj ((bytes "username", .str (bytes "mallory")) :: members)))).run [] aliceAlone :=
  actsAsItself (u := bytes "alice") rfl (by decide) (.flat rfl (equalBut_cons rfl _))
    ⟨bytes "bob", by decide, rfl⟩ []

end LiteChat
