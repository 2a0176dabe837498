import LiteChat.Effect.Utf8
import LiteChat.Model.Server

/-!
# What a notification shows of a message

`SendNotification` cuts a long message after 50 bytes, wherever that is. So the summary is a text
exactly if the byte behind the cut begins a character (`summaryKeepsWhole_iff`).

A character of UTF-8 begins with a byte that cannot be inside one, so whether the cut is between two
characters can be read off the one byte behind it.
-/

namespace LiteChat

open LiteChat.Action MessageManager
open Effect (utf8 IsUtf8)

variable {P : Platform}

/-- Some of these characters from the first on, or all of them. -/
def KeepsWhole (chars : List Char) (summary : Str) : Prop :=
  IsUtf8 summary ∧
    (summary = utf8 chars ∨ ∃ shown, shown <+: chars ∧ summary = utf8 shown ++ bytes "...")

/-- The notification of a message that consists of these characters keeps them whole. -/
def SummaryKeepsWhole (w : World P) (c : Socket) (sender : Str) (chars : List Char)
    (cs : List Choice) : Prop :=
  ∃ account sent summary,
    ((sendNotification c sender (utf8 chars)).run cs w).2.trace = w.trace ++
      [.sent c account (.json (.obj
        [(bytes "type", .str (bytes "MSG_NOTIFY")),
         (bytes "data", .obj [(bytes "sender", .str sender), (bytes "summary", .str summary)])]))
        sent] ∧
    KeepsWhole chars summary

theorem trace_sendNotification (w : World P) (c : Socket) (sender content : Str) (cs : List Choice) :
    ((sendNotification c sender content).run cs w).2.trace = w.trace ++
      [.sent c (w.accountAt c) (msgNotify sender content) (cs.headD default).sendOk] := rfl

theorem isUtf8_bytes (s : String) : IsUtf8 (bytes s) := ⟨s.toList, rfl⟩

/-- A message of 50 bytes is shown as it is. -/
theorem keepsWhole_summaryOf (chars : List Char) : KeepsWhole chars (summaryOf (utf8 chars)) ↔
    ∀ b, (utf8 chars)[50]? = some b → b.IsUTF8FirstByte := by
  unfold KeepsWhole summaryOf
  by_cases hlong : 50 < (utf8 chars).length
  · rw [if_pos hlong, ← Effect.take_utf8_iff (Nat.le_of_lt hlong)]
    constructor
    · rintro ⟨-, hwhole | ⟨shown, hshown, hcut⟩⟩
      · -- a message that is its own summary ends with the three dots
        rw [Effect.take_utf8_iff (Nat.le_of_lt hlong)]
        intro b hb
        rw [← hwhole, List.getElem?_append_right (List.length_take_le _ _), List.length_take,
          Nat.min_eq_left (Nat.le_of_lt hlong)] at hb
        have hdots : (utf8 ['.', '.', '.'])[0]? = some b := hb
        exact Effect.isFirst_of_head hdots
      · exact ⟨shown, hshown, List.append_cancel_right hcut⟩
    · rintro ⟨shown, hshown, htake⟩
      rw [htake]
      exact ⟨IsUtf8.append ⟨shown, rfl⟩ (isUtf8_bytes _), .inr ⟨shown, hshown, rfl⟩⟩
  · rw [if_neg hlong]
    refine ⟨fun _ b hb => ?_, fun _ => ⟨⟨chars, rfl⟩, .inl rfl⟩⟩
    rw [List.getElem?_eq_none (Nat.le_of_not_lt hlong)] at hb
    cases hb

theorem SummaryKeepsWhole.keepsWhole {w : World P} {c : Socket} {sender : Str} {chars : List Char}
    {cs : List Choice} (h : SummaryKeepsWhole w c sender chars cs) :
    KeepsWhole chars (summaryOf (utf8 chars)) := by
  obtain ⟨account, sent, summary, htrace, hkeeps⟩ := h
  rw [trace_sendNotification] at htrace
  have hframe := (Obs.sent.inj (List.cons.inj (List.append_cancel_left htrace)).1).2.2.1
  unfold msgNotify at hframe
  simp only [Frame.json.injEq, Json.obj.injEq, List.cons.injEq, Prod.mk.injEq, Json.str.injEq,
    and_true, true_and] at hframe
  exact hframe ▸ hkeeps

/-- **Summaries keep characters whole** exactly if the message has no byte 50, counted from 0, or one
that begins a character. `substr(0, 50)` counts bytes, and the content is UTF-8. -/
theorem summaryKeepsWhole_iff (w : World P) (c : Socket) (sender : Str) (chars : List Char)
    (cs : List Choice) : SummaryKeepsWhole w c sender chars cs ↔
      ∀ b, (utf8 chars)[50]? = some b → b.IsUTF8FirstByte := by
  constructor
  · exact fun h => (keepsWhole_summaryOf chars).mp h.keepsWhole
  · exact fun h => ⟨_, _, _, trace_sendNotification w c sender _ cs, (keepsWhole_summaryOf chars).mpr h⟩

/-- The 51st byte is the second half of a letter. -/
theorem not_summaryKeepsWhole : ¬ ∀ (w : World asciiCi) (c : Socket) (sender : Str)
    (chars : List Char) (cs : List Choice), SummaryKeepsWhole w c sender chars cs := by
  intro h
  have hfirst := (keepsWhole_summaryOf ('a' :: List.replicate 25 'é')).mp
    (h (World.start Database.empty) 1 (bytes "alice") _ []).keepsWhole
  exact absurd (hfirst 0xa9 (by decide)) (by decide)

end LiteChat
