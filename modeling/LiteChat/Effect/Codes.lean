import Mathlib.InformationTheory.Coding.UniquelyDecodable
import Mathlib.Data.Set.Function
import Mathlib.Tactic.Common

/-!
# Frames one after the other

A code in which no word is the beginning of another is uniquely decodable. The frames of a header
that has one width, and tells how long the body behind it is, are such a code (`PrefixFree.framed`).
-/

namespace Effect

open InformationTheory

variable {α β : Type}

/-- No word of the code is empty or the beginning of another one. -/
structure PrefixFree (code : Set (List α)) : Prop where
  nil_notMem : [] ∉ code
  eq_of_begins : ∀ w ∈ code, ∀ w' ∈ code, w <+: w' → w = w'

theorem PrefixFree.uniquelyDecodable {code : Set (List α)} (h : PrefixFree code) :
    UniquelyDecodable code := by
  intro ws
  induction ws with
  | nil =>
    intro ws' _ hws' heq
    cases ws' with
    | nil => rfl
    | cons w' ws' =>
      have hnil : w' = [] := (List.append_eq_nil_iff.mp heq.symm).1
      exact absurd (hnil ▸ hws' w' List.mem_cons_self) h.nil_notMem
  | cons w ws ih =>
    intro ws' hws hws' heq
    cases ws' with
    | nil =>
      have hnil : w = [] := (List.append_eq_nil_iff.mp heq).1
      exact absurd (hnil ▸ hws w List.mem_cons_self) h.nil_notMem
    | cons w' ws' =>
      rw [List.flatten_cons, List.flatten_cons] at heq
      have hw := hws w List.mem_cons_self
      have hw' := hws' w' List.mem_cons_self
      -- both words are the beginning of the same text, so one is the beginning of the other
      have hpre : w <+: w' ++ ws'.flatten := heq ▸ List.prefix_append w ws.flatten
      have hword : w = w' := by
        rcases List.prefix_or_prefix_of_prefix hpre (List.prefix_append w' ws'.flatten) with
          hle | hle
        · exact h.eq_of_begins w hw w' hw' hle
        · exact (h.eq_of_begins w' hw' w hw hle).symm
      subst hword
      have hrest := List.append_cancel_left heq
      rw [ih ws' (fun v hv => hws v (List.mem_cons_of_mem w hv))
        (fun v hv => hws' v (List.mem_cons_of_mem w hv)) hrest]

/-- Where words are of one message, so are lists of words. -/
theorem map_eq_map_of_injOn {encode : β → List α} {messages : Set β}
    (hencode : Set.InjOn encode messages) {bs bs' : List β} (hbs : ∀ b ∈ bs, b ∈ messages)
    (hbs' : ∀ b ∈ bs', b ∈ messages) (heq : bs.map encode = bs'.map encode) : bs = bs' := by
  induction bs generalizing bs' with
  | nil => exact (List.map_eq_nil_iff.mp heq.symm).symm
  | cons b bs ih =>
    cases bs' with
    | nil => cases heq
    | cons b' bs' =>
      obtain ⟨hb, heq⟩ := List.cons.inj heq
      rw [hencode (hbs b List.mem_cons_self) (hbs' b' List.mem_cons_self) hb,
        ih (fun c hc => hbs c (List.mem_cons_of_mem b hc))
          (fun c hc => hbs' c (List.mem_cons_of_mem b' hc)) heq]

/-- Lists of messages are read back from their words. -/
theorem PrefixFree.flatten_map_inj {encode : β → List α} {messages : Set β}
    (h : PrefixFree (encode '' messages)) (hencode : Set.InjOn encode messages) {bs bs' : List β}
    (hbs : ∀ b ∈ bs, b ∈ messages) (hbs' : ∀ b ∈ bs', b ∈ messages)
    (heq : (bs.map encode).flatten = (bs'.map encode).flatten) : bs = bs' := by
  have hwords : ∀ bs : List β, (∀ b ∈ bs, b ∈ messages) →
      ∀ w ∈ bs.map encode, w ∈ encode '' messages := by
    intro bs hbs w hw
    obtain ⟨b, hb, rfl⟩ := List.mem_map.mp hw
    exact ⟨b, hbs b hb, rfl⟩
  apply map_eq_map_of_injOn hencode hbs hbs'
  exact h.uniquelyDecodable _ _ (hwords bs hbs) (hwords bs' hbs') heq

/-! ## Headers -/

section Headers

variable {header : List α → List α} {width : Nat} {read : List α → Nat} {bodies : Set (List α)}

/-- A frame that begins another one is that one. -/
theorem framed_eq_of_begins (hwidth : ∀ body, (header body).length = width)
    (hread : ∀ body ∈ bodies, read (header body) = body.length) {body body' : List α}
    (hbody : body ∈ bodies) (hbody' : body' ∈ bodies)
    (hpre : header body ++ body <+: header body' ++ body') : body = body' := by
  obtain ⟨rest, heq⟩ := hpre
  rw [List.append_assoc] at heq
  obtain ⟨hheader, heq⟩ := List.append_inj heq ((hwidth body).trans (hwidth body').symm)
  have hlength : body.length = body'.length := by
    rw [← hread body hbody, ← hread body' hbody', hheader]
  exact (List.append_inj (heq.trans (List.append_nil body').symm) hlength).1

theorem PrefixFree.framed (hwidth : ∀ body, (header body).length = width) (hpos : 0 < width)
    (hread : ∀ body ∈ bodies, read (header body) = body.length) :
    PrefixFree ((fun body => header body ++ body) '' bodies) := by
  constructor
  · rintro ⟨body, _, hnil⟩
    have hlength := congrArg List.length (List.append_eq_nil_iff.mp hnil).1
    rw [hwidth body, List.length_nil] at hlength
    exact Nat.ne_of_gt hpos hlength
  · rintro w ⟨body, hbody, rfl⟩ w' ⟨body', hbody', rfl⟩ hpre
    rw [framed_eq_of_begins hwidth hread hbody hbody' hpre]

theorem framed_injOn (hwidth : ∀ body, (header body).length = width)
    (hread : ∀ body ∈ bodies, read (header body) = body.length) :
    Set.InjOn (fun body => header body ++ body) bodies := by
  intro body hbody body' hbody' heq
  apply framed_eq_of_begins hwidth hread hbody hbody'
  have heq : header body ++ body = header body' ++ body' := heq
  exact heq ▸ List.prefix_rfl

end Headers

end Effect
