import LiteChat.Proof.Requests

/-!
# Which bodies are understood

`DispatchRequest` asks the value it has parsed for `type`, `data` and eight fields, and every accessor
may throw. `WellShaped` says of the value, level by level, what they take; `requestOf_ok` is that
nothing else matters.
-/

namespace LiteChat

open Server

/-- A value that may be asked for its members. -/
def Json.hasMembers : Json → Bool
  | .null => true
  | .obj _ => true
  | _ => false

/-- A value that has a text. -/
def Json.hasText : Json → Bool
  | .arr _ => false
  | .obj _ => false
  | _ => true

/-- A value that is a number in the range of `int`, or counts as one. -/
def Json.hasInt : Json → Bool
  | .null => true
  | .bool _ => true
  | .int n => -2147483648 ≤ n ∧ n ≤ 2147483647
  | .real _ n => n.isSome
  | _ => false

/-- The member of that name; there is always a null. -/
def Json.field (key : String) (j : Json) : Json := (j.member? (bytes key)).getD .null

/-- The value that carries the fields of a request. -/
def fieldsOf (root : Json) : Json :=
  if (root.field "data").isNull then root else root.field "data"

def textFields : List String :=
  ["username", "password", "newUsername", "newPassword", "verifyPassword", "targetUsername", "content"]

/-- A body that the accessors of its fields take. -/
structure WellShaped (root : Json) : Prop where
  body : root.hasMembers = true
  type : (root.field "type").hasText = true
  data : (root.field "data").hasMembers = true
  texts : ∀ key ∈ textFields, ((fieldsOf root).field key).hasText = true
  count : ((fieldsOf root).field "count").hasInt = true

instance (root : Json) : Decidable (WellShaped root) :=
  decidable_of_iff (root.hasMembers = true ∧ (root.field "type").hasText = true ∧
      (root.field "data").hasMembers = true ∧
      (∀ key ∈ textFields, ((fieldsOf root).field key).hasText = true) ∧
      ((fieldsOf root).field "count").hasInt = true)
    ⟨fun ⟨hbody, htype, hdata, htexts, hcount⟩ => ⟨hbody, htype, hdata, htexts, hcount⟩,
      fun h => ⟨h.body, h.type, h.data, h.texts, h.count⟩⟩

theorem Json.get_eq (key : String) (j : Json) : j.get (bytes key) =
    if j.hasMembers then .ok (j.field key) else .error .typeMismatch := by
  cases j <;> rfl

theorem Json.asString_ok {j : Json} : (∃ s, j.asString = .ok s) ↔ j.hasText = true := by
  cases j <;> simp [asString, hasText]

theorem Json.asInt_ok {j : Json} : (∃ n, j.asInt = .ok n) ↔ j.hasInt = true := by
  cases j with
  | int n =>
    by_cases hn : -2147483648 ≤ n ∧ n ≤ 2147483647 <;> simp [asInt, hasInt, hn]
  | real text n => cases n <;> simp [asInt, hasInt]
  | _ => simp [asInt, hasInt]

/-- A chain of accesses goes through if each of them does. -/
theorem ok_bind {ε α β : Type} {x : Except ε α} {f : α → Except ε β} :
    (∃ b, (x >>= f) = .ok b) ↔ ∃ a, x = .ok a ∧ ∃ b, f a = .ok b := by
  cases x with
  | error e => simp [bind, Except.bind]
  | ok a => simp [bind, Except.bind]

theorem stringField_ok {node : Json} {key : String} : (∃ s, stringField node key = .ok s) ↔
    node.hasMembers = true ∧ (node.field key).hasText = true := by
  unfold stringField Json.isMember
  cases node with
  | obj members =>
    simp only [Json.get_eq, Json.hasMembers, if_true, true_and, Json.field, Json.member?]
    cases members.lookup (bytes key) with
    | none => simp [bind, Except.bind, Json.hasText, pure, Except.pure]
    | some j => exact Json.asString_ok
  | _ => simp [bind, Except.bind, Json.hasMembers, Json.field, Json.member?, Json.hasText, pure, Except.pure]

theorem countField_ok {node : Json} {garbage : Int} : (∃ n, countField node garbage = .ok n) ↔
    node.hasMembers = true ∧ (node.field "count").hasInt = true := by
  unfold countField Json.isMember
  cases node with
  | obj members =>
    simp only [Json.get_eq, Json.hasMembers, if_true, true_and, Json.field, Json.member?]
    cases members.lookup (bytes "count") with
    | none => simp [bind, Except.bind, Json.hasInt, pure, Except.pure]
    | some j => exact Json.asInt_ok
  | _ => simp [bind, Except.bind, Json.hasMembers, Json.field, Json.member?, Json.hasInt, pure, Except.pure]

theorem header_eq (root : Json) : header root =
    if root.hasMembers then (root.field "type").asString.map (·, fieldsOf root)
    else .error .typeMismatch := by
  unfold header fieldsOf
  simp only [Json.get_eq]
  cases root.hasMembers with
  | false => rfl
  | true =>
    simp only [if_true, bind, Except.bind, pure, Except.pure]
    cases (root.field "type").asString <;> rfl

theorem readRequest_ok {type : Str} {c : Socket} {garbage : Int} {node : Json} :
    (∃ request, readRequest type c garbage node = .ok request) ↔ node.hasMembers = true ∧
      (∀ key ∈ textFields, (node.field key).hasText = true) ∧
      (node.field "count").hasInt = true := by
  unfold readRequest
  simp only [ok_bind, exists_and_right, stringField_ok, countField_ok, pure, Except.pure,
    Except.ok.injEq, exists_eq', and_true]
  simp only [textFields, List.forall_mem_cons, List.not_mem_nil, false_imp_iff, implies_true]
  cases node.hasMembers <;> simp [and_assoc]

theorem fieldsOf_hasMembers {root : Json} (h : root.hasMembers = true) :
    (fieldsOf root).hasMembers = (root.field "data").hasMembers := by
  unfold fieldsOf
  cases root.field "data" with
  | null => exact h
  | _ => rfl

/-- A body is understood exactly if it is well shaped. -/
theorem requestOf_ok {L : Spec.Logins Socket Str} {c : Socket} {garbage : Int} {root : Json} :
    (∃ request, requestOf L c garbage root = .ok request) ↔ WellShaped root := by
  have hparts : (∃ request, requestOf L c garbage root = .ok request) ↔
      ∃ r, header root = .ok r ∧ ∃ request, readRequest r.1 c garbage r.2 = .ok request := by
    unfold requestOf
    simp only [ok_bind, pure, Except.pure, Except.ok.injEq, exists_eq', and_true]
  rw [hparts, header_eq]
  cases hm : root.hasMembers with
  | false =>
    refine ⟨fun ⟨r, hr, _⟩ => absurd hr (by simp), fun h => ?_⟩
    exact absurd (hm.symm.trans h.body) (by decide)
  | true =>
    have hfields := fieldsOf_hasMembers hm
    constructor
    · rintro ⟨⟨type, node⟩, hr, hrequest⟩
      rw [if_pos rfl] at hr
      cases htype : (root.field "type").asString with
      | error e =>
        rw [htype] at hr
        cases hr
      | ok type' =>
        rw [htype] at hr
        obtain ⟨rfl, rfl⟩ := Prod.mk.inj (Except.ok.inj hr)
        rw [readRequest_ok, hfields] at hrequest
        obtain ⟨hdata, htexts, hcount⟩ := hrequest
        exact ⟨hm, Json.asString_ok.mp ⟨_, htype⟩, hdata, htexts, hcount⟩
    · intro h
      obtain ⟨type, htype⟩ := Json.asString_ok.mpr h.type
      refine ⟨(type, fieldsOf root), ?_, readRequest_ok.mpr ⟨hfields.trans h.data, h.texts, h.count⟩⟩
      rw [if_pos rfl, htype]
      rfl

end LiteChat
