import GrowthFault.Proofs.DecimalRendering
import GrowthFault.Text.Lines

/-!
# What was printed is read back

Text that a process writes is decoded to the same text, whole lines are cut back into the same
lines, and a number in canonical decimal is read as itself.
-/

namespace GrowthFault

namespace Bytes

theorem text?_ofText (text : String) : (ofText text).text? = some text := by
  have hbytes : List.toByteArray (ofText text) = text.toByteArray := by
    rw [← String.utf8Encode_toList]
    rfl
  have hvalid : text.toByteArray.IsValidUTF8 := text.isValidUTF8
  unfold text?
  rw [hbytes, String.fromUTF8?, dif_pos hvalid]
  rfl

@[simp] theorem lossyText_ofText (text : String) : (ofText text).lossyText = text := by
  rw [lossyText, text?_ofText]

end Bytes

namespace Text

variable {line current rest : List Char} {ls : List (List Char)}

theorem linesAfter_append (hline : '\n' ∉ line) (current rest : List Char) :
    linesAfter current (line ++ rest) = linesAfter (line.reverse ++ current) rest := by
  induction line generalizing current with
  | nil => rfl
  | cons c line ih =>
      rw [List.mem_cons, not_or] at hline
      obtain ⟨hc, hline⟩ := hline
      have hne : c ≠ '\n' := Ne.symm hc
      rw [List.cons_append, linesAfter, if_neg hne, ih hline, List.reverse_cons,
        List.append_assoc, List.singleton_append]

theorem newline_ofList (hline : '\n' ∉ line) : '\n' ∉ (String.ofList line).toList := by
  rwa [String.toList_ofList]

/-- Whole lines are cut where they were joined; a carriage return at the end of one is lost. -/
theorem lines_join (hls : ∀ line ∈ ls, '\n' ∉ line) :
    lines (ls.flatMap (· ++ ['\n'])) = ls.map withoutReturn := by
  unfold lines
  induction ls with
  | nil => rfl
  | cons line ls ih =>
      obtain ⟨hline, hrest⟩ := List.forall_mem_cons.1 hls
      rw [List.flatMap_cons, List.append_assoc, linesAfter_append hline, List.append_nil,
        List.singleton_append, linesAfter, if_pos rfl, List.reverse_reverse, ih hrest,
        List.map_cons]

theorem trim_eq_self (hfirst : ∀ c ∈ line.head?, isBlank c = false)
    (hlast : ∀ c ∈ line.getLast?, isBlank c = false) : trim line = line := by
  have hfront : line.dropWhile isBlank = line := by
    cases line with
    | nil => rfl
    | cons c line =>
        apply List.dropWhile_cons_of_neg
        simpa using hfirst c rfl
  have hback : line.reverse.dropWhile isBlank = line.reverse := by
    cases hreverse : line.reverse with
    | nil => rfl
    | cons c before =>
        have hc : c ∈ line.getLast? := by
          rw [← List.head?_reverse, hreverse]
          rfl
        apply List.dropWhile_cons_of_neg
        simpa using hlast c hc
  rw [trim, hfront, hback, List.reverse_reverse]

theorem trim_append_blank {c : Char} (hc : isBlank c = true) (line : List Char) :
    trim (line ++ [c]) = trim line := by
  unfold trim
  rw [List.dropWhile_append]
  split
  next hempty =>
    have hnil : line.dropWhile isBlank = [] := List.isEmpty_iff.1 hempty
    rw [hnil, List.dropWhile_cons_of_pos hc]
    rfl
  next =>
    rw [List.reverse_append, List.reverse_singleton, List.singleton_append,
      List.dropWhile_cons_of_pos hc]

/-- A text that begins and ends in ink is not cut into. -/
theorem trim_append {lead : List Char} (hfirst : lead.head?.any (!isBlank ·) = true)
    (hlast : lead.getLast?.any (!isBlank ·) = true) (rest : List Char) :
    ∃ left, trim (lead ++ rest) = lead ++ left := by
  obtain ⟨c, hc, hink⟩ := (Option.any_eq_true _ _).1 hfirst
  obtain ⟨d, hd, hink'⟩ := (Option.any_eq_true _ _).1 hlast
  obtain ⟨after, rfl⟩ := List.head?_eq_some_iff.1 hc
  have hfront : (c :: after ++ rest).dropWhile isBlank = c :: after ++ rest := by
    apply List.dropWhile_cons_of_neg
    simpa using hink
  have hback : (c :: after).reverse.dropWhile isBlank = (c :: after).reverse := by
    rw [← List.head?_reverse] at hd
    obtain ⟨before, hreverse⟩ := List.head?_eq_some_iff.1 hd
    rw [hreverse]
    apply List.dropWhile_cons_of_neg
    simpa using hink'
  unfold trim
  rw [hfront, List.reverse_append, List.dropWhile_append]
  split
  next => exact ⟨[], by rw [hback, List.reverse_reverse, List.append_nil]⟩
  next =>
    refine ⟨(rest.reverse.dropWhile isBlank).reverse, ?_⟩
    rw [List.reverse_append, List.reverse_reverse]

theorem trim_withoutReturn (line : List Char) : trim (withoutReturn line) = trim line := by
  unfold withoutReturn
  split
  next hreturn =>
    have hblank : isBlank '\r' = true := by decide
    obtain ⟨before, rfl⟩ := List.getLast?_eq_some_iff.1 hreturn
    rw [List.dropLast_concat, trim_append_blank hblank]
  next => rfl

end Text

namespace Decimal

theorem word?_digits {n : Nat} (hn : n < UInt64.size) :
    word? (digits n) = some (UInt64.ofNat n) := by
  have hdigits : (digits n).all Char.isDigit = true := by
    rw [List.all_eq_true]
    intro c hc
    exact isDigit_of_mem_digits hc
  have hvalue : appendDigits 0 (digits n) = some n :=
    (appendDigits_eq_some_iff (by decide)).2 ⟨hdigits, Nat.ofDigitChars_ten_toDigits, hn⟩
  have hne : digits n ≠ [] := Nat.toDigits_ne_nil
  unfold word?
  split
  next rest hplus =>
    have hmem : '+' ∈ digits n := by
      rw [hplus]
      exact List.mem_cons_self
    have hsign := isDigit_of_mem_digits hmem
    cases hsign
  next => simp [hne, hvalue]

theorem newline_digits (n : Nat) : '\n' ∉ digits n := by
  intro hmem
  cases isDigit_of_mem_digits hmem

/-- A blank is no digit, so nothing is trimmed from a text that ends in a number. -/
theorem trim_text {lead : String} {first : Char} {rest : List Char}
    (hlead : lead.toList = first :: rest) (hfirst : Text.isBlank first = false) (n : Nat) :
    Text.trim (lead ++ text n).toList = lead.toList ++ digits n := by
  have hline : (lead ++ text n).toList = lead.toList ++ digits n := by
    rw [String.toList_append, toList_text]
  rw [hline]
  apply Text.trim_eq_self
  · intro c hc
    rw [hlead] at hc
    cases hc
    exact hfirst
  · intro c hc
    have hne : digits n ≠ [] := Nat.toDigits_ne_nil
    rw [List.getLast?_append, List.getLast?_eq_some_getLast hne] at hc
    cases hc
    have hbounds := bounds_of_mem_digits (List.getLast_mem hne)
    simp [Text.isBlank]
    omega

end Decimal

end GrowthFault
