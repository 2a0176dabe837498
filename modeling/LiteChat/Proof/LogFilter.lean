import LiteChat.Model.ServerLogger

/-!
# What the filter of the log leaves out

The position after a round is that of the end of the value before it was replaced. `***` is shorter
than most values, so the scan goes on behind the closing quote by as many bytes as the value was
longer, and what is there is not looked at. `scanned` are the pairs as the loop leaves them, by how
many bytes are passed over; that is what it computes (`filterSensitiveInfo_compactText`), one pair
after the other (`filterFrom_pair`).

The text is the one that `FastWriter` makes of an object of strings, in which a quote is neither in a
key nor in a value, so that the keys and values can be told from the text around them (`LogPair`). The
loop is followed pair by pair (`filterFrom_pair`): `passed` is how far the scan is already into the text
of a pair when it gets there, and a pair that it passes over is one whose key it has half behind it.
-/

namespace LiteChat

open Effect

/-! ## The text -/

/-- `'\\'`. -/
def backslash : UInt8 := 92

/-- `','`. -/
def comma : UInt8 := 44

/-- A key and a value that are written as they are. -/
structure LogPair where
  key : Str
  value : Str
  key_plain : quote ∉ key ∧ backslash ∉ key ∧ colon ∉ key
  value_plain : quote ∉ value ∧ backslash ∉ value ∧ ¬ bytes "password" <:+: value
  deriving DecidableEq

namespace LogPair

/-- `"key":"value"`. -/
def text (p : LogPair) : Str :=
  quote :: (p.key ++ quote :: colon :: quote :: (p.value ++ [quote]))

/-- Its value is a password. -/
def Secret (p : LogPair) : Prop := bytes "password" <:+: p.key

instance (p : LogPair) : Decidable p.Secret := inferInstanceAs (Decidable (_ <:+: _))

/-- With the value gone. -/
def starred (p : LogPair) : LogPair where
  key := p.key
  value := stars
  key_plain := p.key_plain
  value_plain := by decide

/-- As it should be in the log. -/
def redacted (p : LogPair) : LogPair := if p.Secret then p.starred else p

theorem length_text (p : LogPair) : p.text.length = p.key.length + p.value.length + 5 := by
  simp [text]
  omega

theorem starred_eq_self {p : LogPair} : p.starred = p ↔ p.value = stars := by
  obtain ⟨key, value, hkey, hvalue⟩ := p
  simp [starred, eq_comm]

end LogPair

/-- The pairs from one on, with the byte in front of the first of them, to the closing brace. -/
def memberText (front : UInt8) : List LogPair → Str
  | [] => bytes "\x7d"
  | p :: ps => front :: (p.text ++ memberText comma ps)

/-- `{"k1":"v1","k2":"v2",...}`. -/
def compactText (ps : List LogPair) : Str :=
  bytes "\x7b" ++ (bytes ",").intercalate (ps.map LogPair.text) ++ bytes "\x7d"

theorem compactText_cons (p : LogPair) (ps : List LogPair) :
    compactText (p :: ps) = memberText 123 (p :: ps) := by
  have h : ∀ (ps : List LogPair) (p : LogPair),
      (bytes ",").intercalate ((p :: ps).map LogPair.text) ++ bytes "\x7d" =
        p.text ++ memberText comma ps := by
    intro ps
    induction ps with
    | nil =>
      intro p
      simp [memberText]
    | cons q ps ih =>
      intro p
      rw [memberText, ← ih q, List.map_cons, List.map_cons, List.intercalate_cons_cons]
      simp [bytes, comma]
      rfl
  unfold compactText
  rw [List.append_assoc, h ps p]
  rfl

/-- The text determines the pairs. -/
theorem memberText_inj {front : UInt8} {ps qs : List LogPair} (hfront : front ≠ 125) :
    memberText front ps = memberText front qs ↔ ps = qs := by
  refine ⟨fun h => ?_, fun h => by rw [h]⟩
  induction ps generalizing front qs with
  | nil =>
    cases qs with
    | nil => rfl
    | cons q qs => exact absurd (List.cons.inj h).1.symm hfront
  | cons p ps ih =>
    cases qs with
    | nil => exact absurd (List.cons.inj h).1 hfront
    | cons q qs =>
      simp only [memberText, LogPair.text, List.cons_append, List.append_assoc, List.cons.injEq,
        true_and] at h
      obtain ⟨hkey, h⟩ := (append_cons_inj p.key_plain.1 q.key_plain.1).mp h
      simp only [List.nil_append, List.cons.injEq, true_and] at h
      obtain ⟨hvalue, h⟩ := (append_cons_inj p.value_plain.1 q.value_plain.1).mp h
      have hpq : p = q := by
        obtain ⟨key, value, hk, hv⟩ := p
        obtain ⟨key', value', hk', hv'⟩ := q
        cases hkey
        cases hvalue
        rfl
      rw [hpq, ih (by decide) h]

theorem compactText_inj {ps qs : List LogPair} : compactText ps = compactText qs ↔ ps = qs := by
  cases ps with
  | nil =>
    cases qs with
    | nil => exact iff_of_true rfl rfl
    | cons q qs =>
      rw [compactText_cons]
      refine iff_of_false (fun h => ?_) (by simp)
      exact absurd (List.cons.inj (List.cons.inj h).2).1 (by decide)
  | cons p ps =>
    cases qs with
    | nil =>
      rw [compactText_cons]
      refine iff_of_false (fun h => ?_) (by simp)
      exact absurd (List.cons.inj (List.cons.inj h).2).1 (by decide)
    | cons q qs => rw [compactText_cons, compactText_cons, memberText_inj (by decide)]

/-! ## A round of the loop -/

theorem filterFrom_eq (result : Str) (pos : Nat) : filterFrom result pos =
    match filterRound result pos with
    | none => result
    | some (result', pos') => filterFrom result' pos' := by
  rw [filterFrom]
  split
  · next h => rw [h]
  · next h => rw [h]

/-- The loop sees its position only through what it finds there. -/
theorem filterFrom_congr {result : Str} {pos pos' : Nat}
    (h : find result (bytes "password") pos = find result (bytes "password") pos') :
    filterFrom result pos = filterFrom result pos' := by
  have hround : filterRound result pos = filterRound result pos' := by
    unfold filterRound
    rw [h]
  rw [filterFrom_eq, filterFrom_eq result pos', hround]

theorem filterFrom_of_none {result : Str} {pos : Nat}
    (h : find result (bytes "password") pos = none) : filterFrom result pos = result := by
  have hround : filterRound result pos = none := by
    unfold filterRound
    rw [h]
  rw [filterFrom_eq, hround]

theorem filterFrom_of_value {result : Str} {pos found valueStart valueEnd : Nat}
    (h : find result (bytes "password") pos = some found)
    (hvalue : sensitiveValue result found = some (valueStart, valueEnd)) :
    filterFrom result pos =
      filterFrom (replace result valueStart (valueEnd - valueStart) stars) (valueEnd + 1) := by
  have hround : filterRound result pos =
      some (replace result valueStart (valueEnd - valueStart) stars, valueEnd + 1) := by
    unfold filterRound
    rw [h]
    dsimp only
    rw [hvalue]
  rw [filterFrom_eq, hround]

/-! ## One pair -/

variable {front : UInt8} {before after : Str}

/-- In the text of a pair, only the key is found: the pattern holds neither quote nor colon, so that it
lies within a key or a value, and no value has it. -/
theorem find_pair (hfront : front ∉ bytes "password") (p : LogPair) (after : Str) (passed : Nat) :
    find (front :: (p.text ++ after)) (bytes "password") passed =
      ((find p.key (bytes "password") (passed - 2)).map (2 + ·)).or
        ((find after (bytes "password") (passed - (p.text.length + 1))).map
          (p.text.length + 1 + ·)) := by
  have hne : bytes "password" ≠ [] := by decide
  have hquote : quote ∉ bytes "password" := by decide
  have hcolon : colon ∉ bytes "password" := by decide
  have hnil : ∀ pos, find [] (bytes "password") pos = none := fun pos =>
    (find_eq_none_iff hne).mpr (by simp [hne])
  have hvalue : ∀ pos, find p.value (bytes "password") pos = none := fun pos =>
    (find_eq_none_iff hne).mpr fun h =>
      p.value_plain.2.2 (h.trans (List.drop_suffix pos p.value).isInfix)
  -- the separators of the text, one by one
  have htext : front :: (p.text ++ after) = [] ++ front :: ([] ++ quote :: (p.key ++ quote ::
      ([] ++ colon :: ([] ++ quote :: (p.value ++ quote :: after))))) := by
    simp [LogPair.text]
  rw [htext, find_append_cons hfront hne, hnil, Option.none_or, find_append_cons hquote hne, hnil,
    Option.none_or, find_append_cons hquote hne, find_append_cons hcolon hne, hnil, Option.none_or,
    find_append_cons hquote hne, hnil, Option.none_or, find_append_cons hquote hne, hvalue,
    Option.none_or, p.length_text]
  simp only [List.length_nil, Nat.sub_sub, Option.map_map]
  rw [show passed - (0 + 1 + (0 + 1)) = passed - 2 from rfl,
    show 0 + 1 + (0 + 1) + (p.key.length + 1) + (0 + 1) + (0 + 1) + (p.value.length + 1) =
      p.key.length + p.value.length + 5 + 1 by omega]
  cases find p.key (bytes "password") (passed - 2) with
  | some i =>
    simp only [Nat.zero_add, Option.some_or, Option.map_some, Function.comp_apply,
      Option.some.injEq]
    omega
  | none =>
    simp only [Option.map_none, Option.none_or, Option.map_map]
    congr 1
    funext i
    simp
    omega

/-- From a place in the key, the value is what is replaced: the next colon is the one behind the key,
and the next two quotes are those around the value. -/
theorem sensitiveValue_pair (front : UInt8) (before : Str) (p : LogPair) (after : Str) {i : Nat}
    (hi : i ≤ p.key.length) :
    sensitiveValue (before ++ front :: (p.text ++ after)) (before.length + (2 + i)) =
      some (before.length + (p.key.length + 5),
        before.length + (p.key.length + 5) + p.value.length) := by
  have htext : before ++ front :: (p.text ++ after) =
      (before ++ front :: quote :: (p.key ++ [quote])) ++
        colon :: quote :: (p.value ++ quote :: after) := by
    simp [LogPair.text]
  have hlen : (before ++ front :: quote :: (p.key ++ [quote])).length =
      before.length + (p.key.length + 3) := by simp
  have hdrop : (before ++ front :: quote :: (p.key ++ [quote])).drop (before.length + (2 + i)) =
      p.key.drop i ++ [quote] := by
    rw [List.drop_append, List.drop_eq_nil_of_le (by omega), Nat.add_sub_cancel_left,
      List.nil_append, Nat.add_comm 2 i]
    exact List.drop_append_of_le_length hi
  -- no colon is in the rest of the key
  have hcolon : find (before ++ front :: (p.text ++ after)) [colon] (before.length + (2 + i)) =
      some (before.length + (p.key.length + 3)) := by
    rw [htext, find_singleton (by omega), hlen]
    rw [hdrop]
    intro hmem
    rcases List.mem_append.mp hmem with hmem | hmem
    · exact p.key_plain.2.2 (List.mem_of_mem_drop hmem)
    · exact absurd hmem (by decide)
  have hat : (before ++ front :: (p.text ++ after))[before.length + (p.key.length + 3) + 1]? =
      some quote := by
    rw [htext, List.getElem?_append_right (by omega), hlen, Nat.add_sub_cancel_left]
    rfl
  have htext' : before ++ front :: (p.text ++ after) =
      (before ++ front :: quote :: (p.key ++ quote :: colon :: quote :: p.value)) ++
        quote :: after := by
    simp [LogPair.text]
  -- and no quote in the value
  have hquote : find (before ++ front :: (p.text ++ after)) [quote]
      (before.length + (p.key.length + 3) + 2) =
        some (before.length + (p.key.length + 5) + p.value.length) := by
    rw [htext', find_singleton (by simp; omega)]
    · simp
      omega
    · have hvalue : before ++ front :: quote :: (p.key ++ quote :: colon :: quote :: p.value) =
          (before ++ front :: quote :: (p.key ++ [quote, colon, quote])) ++ p.value := by simp
      rw [hvalue, List.drop_append_of_le_length (by simp; omega),
        List.drop_eq_nil_of_le (by simp; omega), List.nil_append]
      exact p.value_plain.1
  have hlt : before.length + (p.key.length + 3) + 1 < (before ++ front :: (p.text ++ after)).length :=
    (List.getElem?_eq_some_iff.mp hat).1
  unfold sensitiveValue
  rw [hcolon]
  dsimp only
  rw [if_pos ⟨hlt, hat⟩, hquote]
  simp
  omega

/-- **What the loop does with a pair**, `passed` bytes of whose text are behind its position. -/
theorem filterFrom_pair (hfront : front ∉ bytes "password") (before : Str) (p : LogPair)
    (after : Str) (passed : Nat) :
    filterFrom (before ++ front :: (p.text ++ after)) (before.length + passed) =
      if bytes "password" <:+: p.key.drop (passed - 2) then
        filterFrom (before ++ front :: (p.starred.text ++ after))
          ((before ++ front :: p.starred.text).length + (p.value.length - 3))
      else
        filterFrom (before ++ front :: (p.text ++ after))
          ((before ++ front :: p.text).length + (passed - (p.text.length + 1))) := by
  have hne : bytes "password" ≠ [] := by decide
  -- the position behind a pair, for a text in which nothing more is found in the pair
  have hbehind : ∀ (q : LogPair) (passed : Nat),
      find q.key (bytes "password") (passed - 2) = none →
      filterFrom (before ++ front :: (q.text ++ after)) (before.length + passed) =
        filterFrom (before ++ front :: (q.text ++ after))
          ((before ++ front :: q.text).length + (passed - (q.text.length + 1))) := by
    intro q passed hnone
    apply filterFrom_congr
    have hsplit : before ++ front :: (q.text ++ after) = (before ++ front :: q.text) ++ after := by
      simp
    rw [find_append, find_pair hfront, hnone, Option.map_none, Option.none_or, hsplit, find_append,
      Option.map_map]
    congr 1
    funext i
    simp
    omega
  split
  · next hkey =>
    obtain ⟨i, hi⟩ := Option.ne_none_iff_exists'.mp fun hnone =>
      ((find_eq_none_iff hne).mp hnone) hkey
    have hfind : find (before ++ front :: (p.text ++ after)) (bytes "password")
        (before.length + passed) = some (before.length + (2 + i)) := by
      rw [find_append, find_pair hfront, hi]
      rfl
    have hvalue := sensitiveValue_pair front before p after (find_spec hi).2.1
    -- what is replaced is exactly the value of this pair
    have hreplace : replace (before ++ front :: (p.text ++ after))
        (before.length + (p.key.length + 5)) p.value.length stars =
          before ++ front :: (p.starred.text ++ after) := by
      have h := replace_append (before ++ front :: quote :: (p.key ++ [quote, colon, quote])) p.value
        (quote :: after) stars
      have hlen : (before ++ front :: quote :: (p.key ++ [quote, colon, quote])).length =
          before.length + (p.key.length + 5) := by simp
      rw [hlen] at h
      simpa [LogPair.text, LogPair.starred] using h
    rw [filterFrom_of_value hfind hvalue, Nat.add_sub_cancel_left, hreplace]
    rcases Nat.lt_or_ge p.value.length 3 with hlt | hle
    · -- the value was shorter than what it gives way to
      have hnone : find p.starred.key (bytes "password") (p.key.length + 6 + p.value.length - 2) =
          none := by
        have hdrop : p.starred.key.drop (p.key.length + 6 + p.value.length - 2) = [] :=
          List.drop_eq_nil_of_le (show p.key.length ≤ _ by omega)
        rw [find_eq_none_iff hne, hdrop]
        simp [hne]
      have h := hbehind p.starred (p.key.length + 6 + p.value.length) hnone
      have hlen := p.starred.length_text
      rw [show p.starred.key = p.key from rfl, show p.starred.value.length = 3 from rfl] at hlen
      rw [show before.length + (p.key.length + 5) + p.value.length + 1 =
        before.length + (p.key.length + 6 + p.value.length) by omega, h]
      congr 2
      omega
    · congr 1
      have hlen := p.starred.length_text
      rw [show p.starred.key = p.key from rfl, show p.starred.value.length = 3 from rfl] at hlen
      simp only [List.length_append, List.length_cons]
      omega
  · next hkey => exact hbehind p passed ((find_eq_none_iff hne).mpr hkey)

/-! ## All pairs -/

/-- The pairs as the loop leaves them, when its position is `passed` bytes behind the byte in front
of the first of them. -/
def scanned : Nat → List LogPair → List LogPair
  | _, [] => []
  | passed, p :: ps =>
    if bytes "password" <:+: p.key.drop (passed - 2) then
      p.starred :: scanned (p.value.length - 3) ps
    else p :: scanned (passed - (p.text.length + 1)) ps

theorem filterFrom_memberText (hfront : front ∉ bytes "password") (before : Str)
    (ps : List LogPair) (passed : Nat) :
    filterFrom (before ++ memberText front ps) (before.length + passed) =
      before ++ memberText front (scanned passed ps) := by
  induction ps generalizing front before passed with
  | nil =>
    have hnone : find (bytes "\x7d") (bytes "password") passed = none := by
      rw [find_eq_none_iff (by decide)]
      intro h
      exact absurd (h.trans (List.drop_suffix passed _).isInfix).length_le (by decide)
    apply filterFrom_of_none
    rw [memberText, find_append, hnone, Option.map_none]
  | cons p ps ih =>
    have hcomma : comma ∉ bytes "password" := by decide
    have hafter : ∀ (q : LogPair) (passed : Nat),
        filterFrom (before ++ front :: (q.text ++ memberText comma ps))
          ((before ++ front :: q.text).length + passed) =
            before ++ front :: (q.text ++ memberText comma (scanned passed ps)) := by
      intro q passed
      have h := ih hcomma (before ++ front :: q.text) passed
      simpa only [List.append_assoc, List.cons_append] using h
    unfold scanned memberText
    rw [filterFrom_pair hfront]
    split
    · rw [hafter]
    · rw [hafter]

/-- **What the filter computes.** -/
theorem filterSensitiveInfo_compactText (ps : List LogPair) :
    filterSensitiveInfo (compactText ps) = compactText (scanned 0 ps) := by
  cases ps with
  | nil =>
    have hnone : find (compactText []) (bytes "password") 0 = none := by decide
    exact filterFrom_of_none hnone
  | cons p ps =>
    have hfront : (123 : UInt8) ∉ bytes "password" := by decide
    have h := filterFrom_memberText hfront [] (p :: ps) 0
    have hcons : ∃ q qs, scanned 0 (p :: ps) = q :: qs := by
      unfold scanned
      split
      · exact ⟨_, _, rfl⟩
      · exact ⟨_, _, rfl⟩
    obtain ⟨q, qs, hq⟩ := hcons
    rw [hq] at h ⊢
    rw [compactText_cons, compactText_cons]
    exact h

/-! ## Every password -/

/-- No password is passed over: behind a password that is replaced the scan goes on after as many
bytes as it was longer than `***`, and then each key with a password still has the word in what is
left of it, or the password is `***`. -/
def NothingPassedOver : Nat → List LogPair → Prop
  | _, [] => True
  | passed, p :: ps =>
    if bytes "password" <:+: p.key.drop (passed - 2) then NothingPassedOver (p.value.length - 3) ps
    else (p.Secret → p.value = stars) ∧ NothingPassedOver (passed - (p.text.length + 1)) ps

instance : ∀ (passed : Nat) (ps : List LogPair), Decidable (NothingPassedOver passed ps)
  | _, [] => inferInstanceAs (Decidable True)
  | passed, p :: ps =>
    have := instDecidableNothingPassedOver (p.value.length - 3) ps
    have := instDecidableNothingPassedOver (passed - (p.text.length + 1)) ps
    inferInstanceAs (Decidable (ite _ _ _))

theorem scanned_eq_redacted_iff (passed : Nat) (ps : List LogPair) :
    scanned passed ps = ps.map LogPair.redacted ↔ NothingPassedOver passed ps := by
  induction ps generalizing passed with
  | nil => exact iff_of_true rfl trivial
  | cons p ps ih =>
    unfold scanned NothingPassedOver
    rw [List.map_cons]
    split
    · next hkey =>
      have hsecret : p.Secret := hkey.trans (List.drop_suffix _ _).isInfix
      rw [LogPair.redacted, if_pos hsecret, List.cons.injEq, ih]
      exact and_iff_right rfl
    · rw [List.cons.injEq, ih]
      refine and_congr_left fun _ => ?_
      unfold LogPair.redacted
      split
      · next hsecret => rw [eq_comm, LogPair.starred_eq_self]; simp [hsecret]
      · next hsecret => simp [hsecret]

/-- The filter takes every password out of the text and changes nothing else. -/
def TakesOutPasswords (ps : List LogPair) : Prop :=
  filterSensitiveInfo (compactText ps) = compactText (ps.map LogPair.redacted)

/-- **The filter takes out every password exactly if it passes over none.** Each replacement moves the rest
of the text, but the scan goes on from where it was: what moves forward past that point is not looked at
again. Whether that happens depends on the lengths of the keys and values alone (`NothingPassedOver`). -/
theorem takesOutPasswords_iff (ps : List LogPair) :
    TakesOutPasswords ps ↔ NothingPassedOver 0 ps := by
  unfold TakesOutPasswords
  rw [filterSensitiveInfo_compactText, compactText_inj, scanned_eq_redacted_iff]

/-- A password of twenty bytes, and one behind it. -/
def twoPasswords : List LogPair :=
  [{ key := bytes "password"
     value := bytes "aaaaaaaaaaaaaaaaaaaa"
     key_plain := by decide
     value_plain := by decide },
   { key := bytes "verifypassword"
     value := bytes "secret"
     key_plain := by decide
     value_plain := by decide }]

theorem not_takesOutPasswords : ¬ ∀ ps, TakesOutPasswords ps := by
  intro h
  have hps := h twoPasswords
  unfold TakesOutPasswords at hps
  rw [filterSensitiveInfo_compactText, compactText_inj] at hps
  exact absurd hps (by decide)

end LiteChat
