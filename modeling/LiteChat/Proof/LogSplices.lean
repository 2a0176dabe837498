import LiteChat.Effect.Loops
import LiteChat.Effect.Splices
import LiteChat.Proof.LogFilter

/-!
# The filter of the log ends

A round goes on behind an occurrence of `password`, or behind the end of a value that is now `***`.
The text may be longer than before and the position may be past its end, but there is one occurrence
less behind the position (`filterRound_occurrences`): stars have no letter of the word. For the same
reason the next occurrence is behind the stars, so that no two edits overlap (`Filtered.round`).
-/

namespace LiteChat

open Effect

/-- A round of the loop, or the end of it. -/
def filterBody (s : Str × Nat) : Str ⊕ (Str × Nat) :=
  match filterRound s.1 s.2 with
  | none => .inl s.1
  | some s' => .inr s'

/-- What is behind the position that a round could edit. -/
def passwordsLeft (s : Str × Nat) : Nat := occurrences (bytes "password") (s.1.drop s.2)

/-- The loop is on the way from the message to what the filter makes of it: up to some position the
message is spliced, and every `password` that is found from now on is behind that. -/
structure Filtered (message : Str) (s : Str × Nat) : Prop where
  result : filterFrom s.1 s.2 = filterSensitiveInfo message
  spliced : ∃ n, SplicedUpTo stars message s.1 n ∧
    ∀ i, s.2 ≤ i → bytes "password" <+: s.1.drop i → n ≤ i

theorem password_ne_nil : bytes "password" ≠ [] := by decide

theorem notMem_password_of_mem_stars : ∀ c ∈ stars, c ∉ bytes "password" := by
  intro c hc
  have hstars : stars = List.replicate 3 42 := rfl
  rw [hstars] at hc
  rw [List.eq_of_mem_replicate hc]
  decide

/-! ## A round -/

/-- Everything that a round can do. -/
theorem filterRound_cases {result result' : Str} {pos pos' : Nat}
    (h : filterRound result pos = some (result', pos')) :
    ∃ found, find result (bytes "password") pos = some found ∧
      ((result' = result ∧ pos' = found + 1) ∨ ∃ valueStart valueEnd,
        sensitiveValue result found = some (valueStart, valueEnd) ∧
          result' = replace result valueStart (valueEnd - valueStart) stars ∧
          pos' = valueEnd + 1) := by
  unfold filterRound at h
  split at h
  · cases h
  · next found hfound =>
    refine ⟨found, hfound, ?_⟩
    split at h
    · next valueStart valueEnd hvalue =>
      cases h
      exact .inr ⟨valueStart, valueEnd, hvalue, rfl, rfl⟩
    · cases h
      exact .inl ⟨rfl, rfl⟩

/-- A value ends at a quote, which is in the text. -/
theorem sensitiveValue_lt {result : Str} {found valueStart valueEnd : Nat}
    (h : sensitiveValue result found = some (valueStart, valueEnd)) : valueEnd < result.length := by
  unfold sensitiveValue at h
  split at h
  · cases h
  · split at h
    · obtain ⟨valueEnd', hend, heq⟩ := Option.map_eq_some_iff.mp h
      cases heq
      exact find_lt (List.cons_ne_nil _ _) hend
    · cases h

/-- **There is one `password` less to come.** -/
theorem filterRound_occurrences {result result' : Str} {pos pos' : Nat}
    (h : filterRound result pos = some (result', pos')) :
    passwordsLeft (result', pos') < passwordsLeft (result, pos) := by
  unfold passwordsLeft
  obtain ⟨found, hfound, hround⟩ := filterRound_cases h
  have hlt := occurrences_drop_lt password_ne_nil hfound
  rcases hround with ⟨rfl, rfl⟩ | ⟨valueStart, valueEnd, hvalue, rfl, rfl⟩
  · exact hlt
  · obtain ⟨hstart, hle, hend, -⟩ := sensitiveValue_spec hvalue
    dsimp only
    rw [drop_replace (by omega) (by omega), Nat.add_sub_cancel' hle]
    calc occurrences (bytes "password")
          ((stars ++ result.drop valueEnd).drop (valueEnd + 1 - valueStart))
        ≤ occurrences (bytes "password") (stars ++ result.drop valueEnd) :=
          occurrences_le_of_suffix (List.drop_suffix _ _)
      _ = occurrences (bytes "password") (result.drop valueEnd) :=
          occurrences_append password_ne_nil notMem_password_of_mem_stars _
      _ ≤ occurrences (bytes "password") (result.drop (found + 1)) := by
          apply occurrences_drop_le
          omega
      _ < occurrences (bytes "password") (result.drop pos) := hlt

/-- An edit is behind those before it. -/
theorem Filtered.round {message result result' : Str} {pos pos' : Nat}
    (hs : Filtered message (result, pos)) (h : filterRound result pos = some (result', pos')) :
    Filtered message (result', pos') := by
  obtain ⟨hresult, n, hspliced, hbehind⟩ := hs
  dsimp only at hresult hspliced hbehind
  constructor
  · rw [← hresult, filterFrom_eq result pos, h]
  · obtain ⟨found, hfound, hround⟩ := filterRound_cases h
    obtain ⟨hpos, -, hpre⟩ := find_spec hfound
    have hn := hbehind found hpos hpre
    rcases hround with ⟨rfl, rfl⟩ | ⟨valueStart, valueEnd, hvalue, rfl, rfl⟩
    · exact ⟨n, hspliced, fun i hi => hbehind i (by omega)⟩
    · obtain ⟨hstart, hle, hend, -⟩ := sensitiveValue_spec hvalue
      refine ⟨valueStart + stars.length, hspliced.replace (by omega) hle hend, fun i hi hpre => ?_⟩
      dsimp only at hi hpre
      -- it does not begin in the stars
      rw [drop_replace (by omega) (by omega)] at hpre
      have := le_of_prefix_drop_append password_ne_nil notMem_password_of_mem_stars hpre
      omega

/-! ## The loop -/

theorem filtered_start (message : Str) : Filtered message (message, 0) :=
  ⟨rfl, 0, SplicedUpTo.refl stars message, fun i _ _ => Nat.zero_le i⟩

/-- A round ends the loop with the text that the filter returns, or goes on. -/
theorem Filtered.advance {message : Str} {s : Str × Nat} (hs : Filtered message s) :
    Advance filterBody (Filtered message) passwordsLeft
      (fun r => r = filterSensitiveInfo message ∧ Spliced stars message r) s := by
  obtain ⟨result, pos⟩ := s
  cases h : filterRound result pos with
  | none =>
    refine .done result ?_ ⟨?_, ?_⟩
    · unfold filterBody
      rw [h]
    · rw [← hs.result, filterFrom_eq, h]
    · obtain ⟨n, hspliced, -⟩ := hs.spliced
      exact hspliced.spliced
  | some s' =>
    refine .next s' ?_ (hs.round h) (filterRound_occurrences h)
    unfold filterBody
    rw [h]

/-- **The filter ends, and splices stars.** It ends within as many rounds as the message has
occurrences of `password`, and the test after them. -/
theorem filterSensitiveInfo_ends (message : Str) :
    loop filterBody (occurrences (bytes "password") message + 1) (message, 0) =
        some (filterSensitiveInfo message) ∧
      (∀ rounds result pos, Reached filterBody (message, 0) rounds (result, pos) →
        rounds ≤ occurrences (bytes "password") message ∧
          ∀ found valueStart valueEnd, find result (bytes "password") pos = some found →
            sensitiveValue result found = some (valueStart, valueEnd) →
            valueStart ≤ valueEnd ∧ valueEnd < result.length) ∧
      Spliced stars message (filterSensitiveInfo message) := by
  have hstart := filtered_start message
  obtain ⟨r, hloop, hr, hspliced⟩ := Advance.loop (fun _ => Filtered.advance) hstart
  refine ⟨?_, fun rounds result pos hreached => ⟨?_, ?_⟩, hr ▸ hspliced⟩
  · rw [← hr]
    exact hloop _ (Nat.lt_succ_self _)
  · have hle := (Advance.reached (fun _ => Filtered.advance) hstart hreached).2
    exact Nat.le_trans (Nat.le_add_right _ _) hle
  · intro found valueStart valueEnd _ hvalue
    exact ⟨(sensitiveValue_spec hvalue).2.1, sensitiveValue_lt hvalue⟩

end LiteChat
