import GrowthFault.Proofs.PrintedText
import Mathlib.Data.List.TakeWhile

/-!
# Trimmed texts and lines

Taking the blanks off both ends of a text leaves one text, the one that begins and ends in ink.  The
lines of a text are its pieces between newlines, without a last piece that is empty; a carriage
return at the end of a piece is a blank, so it makes no difference once the lines are trimmed.
-/

namespace GrowthFault.Text

/-! ## Trimmed texts -/

section Trimming

variable {α : Type} {whole middle : List α}

/-- A stretch of wanted characters ends where the first other one stands. -/
theorem span_append {wanted : α → Bool} {stretch rest : List α}
    (hstretch : ∀ x ∈ stretch, wanted x = true) (hrest : ∀ x ∈ rest.head?, wanted x = false) :
    (stretch ++ rest).takeWhile wanted = stretch ∧ (stretch ++ rest).dropWhile wanted = rest := by
  rw [List.takeWhile_append_of_pos hstretch, List.dropWhile_append_of_pos hstretch]
  cases rest with
  | nil => exact ⟨List.append_nil stretch, rfl⟩
  | cons x rest =>
      have hx : ¬ wanted x = true := Bool.eq_false_iff.1 (hrest x rfl)
      rw [List.takeWhile_cons_of_neg hx, List.dropWhile_cons_of_neg hx, List.append_nil]
      exact ⟨rfl, rfl⟩

/-- Where the same character ends two stretches, they and what follows them can be told apart. -/
theorem append_cons_inj {wanted : α → Bool} {x : α} {stretch other rest more : List α}
    (hx : wanted x = false) (hstretch : ∀ y ∈ stretch, wanted y = true)
    (hother : ∀ y ∈ other, wanted y = true) (hsame : stretch ++ x :: rest = other ++ x :: more) :
    stretch = other ∧ rest = more := by
  have hstop (behind : List α) : ∀ y ∈ (x :: behind).head?, wanted y = false := by
    rintro y ⟨⟩
    exact hx
  obtain ⟨htaken, hleft⟩ := span_append hstretch (hstop rest)
  obtain ⟨htaken', hleft'⟩ := span_append hother (hstop more)
  rw [hsame] at htaken hleft
  exact ⟨htaken.symm.trans htaken', List.tail_eq_of_cons_eq (hleft.symm.trans hleft')⟩

/-- What is left of a text without the blanks at its ends. -/
structure Trims (blank : α → Prop) (whole middle : List α) : Prop where
  around : ∃ before after, whole = before ++ middle ++ after ∧ ∀ x ∈ before ++ after, blank x
  first : ∀ x ∈ middle.head?, ¬ blank x
  last : ∀ x ∈ middle.getLast?, ¬ blank x

variable (blank : α → Bool)

def trimmed (whole : List α) : List α :=
  ((whole.dropWhile blank).reverse.dropWhile blank).reverse

theorem head?_dropWhile : ∀ x ∈ (whole.dropWhile blank).head?, blank x = false := by
  intro x hx
  have hnot := List.head?_dropWhile_not blank whole
  rw [Option.mem_def.1 hx] at hnot
  exact hnot

theorem trims_trimmed (whole : List α) : Trims (blank · = true) whole (trimmed blank whole) := by
  let rest := whole.dropWhile blank
  have hfront : whole = whole.takeWhile blank ++ rest := List.takeWhile_append_dropWhile.symm
  have hback : rest = trimmed blank whole ++ (rest.reverse.takeWhile blank).reverse := by
    rw [trimmed, ← List.reverse_append, List.takeWhile_append_dropWhile, List.reverse_reverse]
  constructor
  · refine ⟨whole.takeWhile blank, (rest.reverse.takeWhile blank).reverse, ?_, ?_⟩
    · rw [List.append_assoc, ← hback, ← hfront]
    · intro x hx
      rw [List.mem_append, List.mem_reverse] at hx
      rcases hx with hx | hx <;> exact List.mem_takeWhile_imp hx
  · -- What is trimmed begins as the text does when only its front is taken off.
    intro x hx
    have hrest : x ∈ rest.head? := by
      rw [hback, List.head?_append, Option.mem_def.1 hx]
      rfl
    simpa using head?_dropWhile blank x hrest
  · intro x hx
    rw [trimmed, List.getLast?_reverse] at hx
    simpa using head?_dropWhile blank x hx

theorem Trims.eq_trimmed (htrims : Trims (blank · = true) whole middle) :
    middle = trimmed blank whole := by
  obtain ⟨⟨before, after, rfl, hblank⟩, hfirst, hlast⟩ := htrims
  have hbefore : ∀ x ∈ before, blank x = true := fun x hx =>
    hblank x (List.mem_append_left after hx)
  have hafter : ∀ x ∈ after.reverse, blank x = true := fun x hx =>
    hblank x (List.mem_append_right before (List.mem_reverse.1 hx))
  rw [trimmed, List.append_assoc, List.dropWhile_append_of_pos hbefore]
  cases middle with
  | nil =>
      have hnothing : after.dropWhile blank = [] :=
        List.dropWhile_eq_nil_iff.2 fun x hx => hafter x (List.mem_reverse.2 hx)
      rw [List.nil_append, hnothing]
      rfl
  | cons x middle =>
      have hx : ¬ blank x = true := hfirst x rfl
      rw [List.cons_append, List.dropWhile_cons_of_neg hx, ← List.cons_append, List.reverse_append,
        List.dropWhile_append_of_pos hafter]
      obtain ⟨y, hy⟩ : ∃ y, (x :: middle).reverse.head? = some y :=
        Option.isSome_iff_exists.1 (by simp)
      obtain ⟨back, hback⟩ := List.head?_eq_some_iff.1 hy
      have hlastInk : ¬ blank y = true := hlast y (by rwa [← List.head?_reverse])
      rw [hback, List.dropWhile_cons_of_neg hlastInk, ← hback, List.reverse_reverse]

/-- Nothing else is left of a text than what the reader leaves. -/
theorem trims_iff : Trims (blank · = true) whole middle ↔ middle = trimmed blank whole :=
  ⟨Trims.eq_trimmed blank, fun heq => heq ▸ trims_trimmed blank whole⟩

end Trimming

/-! ## Lines -/

/-- The pieces of a text between newlines, without a carriage return at the end, and trimmed. -/
def trimmedLines (text : String) : List (List Char) :=
  (text.toList.splitOn '\n').map fun piece => trim (withoutReturn piece)

theorem trimmedLines_append (text more : String) :
    trimmedLines (text ++ "\n" ++ more) = trimmedLines text ++ trimmedLines more := by
  have hjoined : (text ++ "\n" ++ more).toList = text.toList ++ '\n' :: more.toList := by
    simp only [String.toList_append, List.append_assoc]
    rfl
  rw [trimmedLines, hjoined, List.splitOn_append_cons_self, List.map_append]
  rfl

/-- Pieces are lines, but for a last piece that is empty. -/
theorem map_trim_linesAfter (chars current : List Char) (hcurrent : '\n' ∉ current) :
    ∃ last ∈ [[], [[]]], ((current.reverse ++ chars).splitOn '\n').map
        (fun piece => trim (withoutReturn piece)) =
      (linesAfter current chars).map trim ++ last := by
  have hwhole {piece : List Char} (hpiece : '\n' ∉ piece) :
      piece.reverse.splitOn '\n' = [piece.reverse] :=
    List.splitOn_eq_singleton fun hmem => hpiece (List.mem_reverse.1 hmem)
  induction chars generalizing current with
  | nil =>
      rw [List.append_nil, hwhole hcurrent, linesAfter]
      split
      next hempty =>
        rw [List.isEmpty_iff.1 hempty]
        exact ⟨[[]], by decide, rfl⟩
      next => exact ⟨[], by decide, by simp [trim_withoutReturn]⟩
  | cons c rest ih =>
      rw [linesAfter]
      split
      next hnewline =>
        obtain ⟨last, hlast, hrest⟩ := ih [] List.not_mem_nil
        rw [List.reverse_nil, List.nil_append] at hrest
        refine ⟨last, hlast, ?_⟩
        rw [hnewline, List.splitOn_append_cons_self, hwhole hcurrent, List.map_append, hrest]
        rfl
      next hother =>
        have hmore : '\n' ∉ c :: current := by
          rw [List.mem_cons, not_or]
          exact ⟨Ne.symm hother, hcurrent⟩
        obtain ⟨last, hlast, hrest⟩ := ih (c :: current) hmore
        refine ⟨last, hlast, ?_⟩
        rw [← hrest, List.reverse_cons, List.append_assoc, List.singleton_append]

theorem trimmedLines_eq (text : String) :
    ∃ last ∈ [[], [[]]], trimmedLines text = (lines text.toList).map trim ++ last :=
  map_trim_linesAfter text.toList [] List.not_mem_nil

end GrowthFault.Text
