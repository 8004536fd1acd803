import GrowthFault.Proofs.InterposedAllocator
import GrowthFault.Proofs.PrintedText
import GrowthFault.Run.Record

/-!
# Counting reports

A report is one line that begins as reports do, so whoever counts the reports in what the library
has written finds one if the policy reports and its call has been made, and none otherwise.
-/

namespace GrowthFault

namespace Report

/-- The line of a report, without its ending. -/
def content (ordinal size : Nat) : List Char :=
  "failrealloc: injected realloc failure at call #".toList ++ Decimal.digits ordinal ++
    " (size ".toList ++ Decimal.digits size ++ [')']

theorem toList_text (ordinal size : Nat) :
    (text ordinal size).toList = content ordinal size ++ ['\n'] := by
  have hending : ")\n".toList = [')'] ++ ['\n'] := String.toList_ofList
  unfold text content
  -- The literals stay as they are: only the places where they meet matter.
  simp only [String.toList_append, Decimal.toList_text, hending, List.append_assoc,
    -String.reduceToList]

theorem newline_content (ordinal size : Nat) : '\n' ∉ content ordinal size := by
  have hlead : '\n' ∉ "failrealloc: injected realloc failure at call #".toList :=
    Text.newline_ofList (by decide)
  have hlabel : '\n' ∉ " (size ".toList := Text.newline_ofList (by decide)
  have hclose : '\n' ∉ [')'] := by decide
  unfold content
  simp only [List.mem_append, not_or, -String.reduceToList]
  exact ⟨⟨⟨⟨hlead, Decimal.newline_digits ordinal⟩, hlabel⟩, Decimal.newline_digits size⟩, hclose⟩

theorem withoutReturn_content (ordinal size : Nat) :
    Text.withoutReturn (content ordinal size) = content ordinal size := by
  unfold Text.withoutReturn content
  rw [List.getLast?_concat, if_neg (by decide)]

/-- A report is one line, and it counts. -/
theorem lines_text (ordinal size : Nat) :
    Text.lines (text ordinal size).toList = [content ordinal size] := by
  have hwhole : ∀ line ∈ [content ordinal size], '\n' ∉ line := by
    simpa using newline_content ordinal size
  have hlines := Text.lines_join hwhole
  rw [List.map_singleton, withoutReturn_content] at hlines
  rw [toList_text]
  simpa using hlines

theorem isPrefixOf_content (ordinal size : Nat) :
    RunRecord.reportStart.toList.isPrefixOf (content ordinal size) = true := by
  have hopening : "failrealloc: injected realloc failure at call #".toList =
      RunRecord.reportStart.toList ++ " at call #".toList := by
    unfold RunRecord.reportStart
    rw [String.toList_ofList, String.toList_ofList, String.toList_ofList]
    rfl
  unfold content
  rw [List.isPrefixOf_iff_prefix, hopening, List.append_assoc, List.append_assoc,
    List.append_assoc, List.append_assoc]
  exact List.prefix_append _ _

end Report

/-- One report is found if the policy reports and its call is among these. -/
theorem Policy.countP_reported (p : Policy) (sizes : List Nat) :
    (Text.lines (p.reported sizes).lossyText.toList).countP
        (fun line => RunRecord.reportStart.toList.isPrefixOf line) =
      if p.trace ∧ p.ordinal ≠ 0 ∧ p.ordinal.toNat ≤ sizes.length then 1 else 0 := by
  have hempty : Bytes.lossyText [] = "" := Bytes.lossyText_ofText ""
  have hnone : (Text.lines (Bytes.lossyText []).toList).countP
      (fun line => RunRecord.reportStart.toList.isPrefixOf line) = 0 := by
    rw [hempty]
    rfl
  unfold reported
  by_cases hon : p.trace ∧ p.ordinal ≠ 0
  · obtain ⟨htrace, hordinal⟩ := hon
    have hpositive : p.ordinal.toNat ≠ 0 := ordinal_ne_zero_iff.1 hordinal
    rw [if_pos ⟨htrace, hordinal⟩]
    by_cases hmade : p.ordinal.toNat ≤ sizes.length
    · have hlt : p.ordinal.toNat - 1 < sizes.length := by omega
      rw [if_pos ⟨htrace, hordinal, hmade⟩, List.getElem?_eq_getElem hlt]
      dsimp only
      rw [Report.line_eq, Bytes.lossyText_ofText, Report.lines_text, List.countP_singleton,
        Report.isPrefixOf_content]
      rfl
    · have hge : sizes.length ≤ p.ordinal.toNat - 1 := by omega
      rw [if_neg fun h => hmade h.2.2, List.getElem?_eq_none hge]
      exact hnone
  · rw [if_neg hon, if_neg fun h => hon ⟨h.1, h.2.1⟩]
    exact hnone

end GrowthFault
