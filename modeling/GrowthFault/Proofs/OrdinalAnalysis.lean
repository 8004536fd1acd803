import GrowthFault.Stress
import Mathlib.Data.List.Range

/-!
# The analysis of ordinals

The ordinals of all threads are sorted, and equal neighbours are taken for one.  In a sorted list
equal numbers are neighbours, so none is dropped exactly if no ordinal occurs twice; and what is
left counts up from one exactly if the ordinals are these numbers, in whatever order and however
they are split over the threads.
-/

namespace GrowthFault.Stress

variable {numbers : List Nat}

theorem withoutRepeats_sublist (numbers : List Nat) :
    (withoutRepeats numbers).Sublist numbers := by
  fun_induction withoutRepeats numbers with
  | case1 b rest ih => exact ih.cons b
  | case2 a b rest hne ih => exact ih.cons_cons a
  | case3 numbers hshort => exact List.Sublist.refl numbers

theorem withoutRepeats_of_ascending (hascending : numbers.Pairwise (· < ·)) :
    withoutRepeats numbers = numbers := by
  fun_induction withoutRepeats numbers with
  | case1 b rest ih => simp at hascending
  | case2 a b rest hne ih => rw [ih hascending.of_cons]
  | case3 numbers hshort => rfl

theorem ascending_withoutRepeats (hsorted : numbers.Pairwise (· ≤ ·)) :
    (withoutRepeats numbers).Pairwise (· < ·) := by
  fun_induction withoutRepeats numbers with
  | case1 b rest ih => exact ih hsorted.of_cons
  | case2 a b rest hne ih =>
      obtain ⟨hfirst, hrest⟩ := List.pairwise_cons.1 hsorted
      have hab : a < b := Nat.lt_of_le_of_ne (hfirst b List.mem_cons_self) hne
      refine List.pairwise_cons.2 ⟨?_, ih hrest⟩
      intro c hc
      have hmem : c ∈ b :: rest := (withoutRepeats_sublist (b :: rest)).mem hc
      rcases List.mem_cons.1 hmem with rfl | hlater
      · exact hab
      · exact hab.trans_le (List.rel_of_pairwise_cons hrest hlater)
  | case3 numbers hshort =>
      match numbers, hshort with
      | [], _ => exact List.Pairwise.nil
      | [a], _ => exact List.pairwise_singleton _ a
      | a :: b :: rest, hshort => exact absurd rfl (hshort a b rest)

/-- Nothing is dropped from a sorted list exactly if no number occurs twice in it. -/
theorem withoutRepeats_eq_self_iff (hsorted : numbers.Pairwise (· ≤ ·)) :
    withoutRepeats numbers = numbers ↔ numbers.Nodup := by
  constructor
  · intro hself
    have hascending := ascending_withoutRepeats hsorted
    rw [hself] at hascending
    exact hascending.imp Nat.ne_of_lt
  · intro hnodup
    apply withoutRepeats_of_ascending
    exact hsorted.imp₂ (fun _ _ hle hne => Nat.lt_of_le_of_ne hle hne) hnodup

theorem withoutRepeats_eq_self_of_length
    (hlength : (withoutRepeats numbers).length = numbers.length) :
    withoutRepeats numbers = numbers :=
  (withoutRepeats_sublist numbers).eq_of_length hlength

theorem sorted_mergeSort (numbers : List Nat) : numbers.mergeSort.Pairwise (· ≤ ·) := by
  have htrans (a b c : Nat) (hab : decide (a ≤ b)) (hbc : decide (b ≤ c)) : decide (a ≤ c) :=
    decide_eq_true (Nat.le_trans (of_decide_eq_true hab) (of_decide_eq_true hbc))
  have htotal (a b : Nat) : decide (a ≤ b) || decide (b ≤ a) := by
    simpa using Nat.le_total a b
  simpa using List.pairwise_mergeSort htrans htotal numbers

/-- Sorting gives the one ascending list of the same numbers. -/
theorem mergeSort_eq_iff {ascending : List Nat} (hascending : ascending.Pairwise (· ≤ ·)) :
    numbers.mergeSort = ascending ↔ numbers.Perm ascending := by
  have hperm := List.mergeSort_perm numbers (fun a b => decide (a ≤ b))
  constructor
  · intro hsame
    rw [hsame] at hperm
    exact hperm.symm
  · intro hnumbers
    exact (hperm.trans hnumbers).eq_of_pairwise (fun a b _ _ => Nat.le_antisymm)
      (sorted_mergeSort numbers) hascending

theorem unique_analyse_iff (seen : List (List Nat)) :
    (analyse seen).unique = true ↔ seen.flatten.Nodup := by
  have hperm := List.mergeSort_perm seen.flatten (fun a b => decide (a ≤ b))
  have hself := withoutRepeats_eq_self_iff (sorted_mergeSort seen.flatten)
  simp only [analyse, beq_iff_eq]
  rw [← hperm.nodup_iff, ← hself]
  constructor
  · exact withoutRepeats_eq_self_of_length
  · exact congrArg List.length

theorem dense_analyse_iff (seen : List (List Nat)) :
    (analyse seen).dense = true ↔
      seen.flatten.Perm (List.range' 1 seen.flatten.length) := by
  have hlength := (List.mergeSort_perm seen.flatten (fun a b => decide (a ≤ b))).length_eq
  rw [← mergeSort_eq_iff (List.pairwise_le_range' 1)]
  simp only [analyse, beq_iff_eq, hlength]
  constructor
  · intro hdense
    have hkept := congrArg List.length hdense
    rw [List.length_range', ← hlength] at hkept
    rw [← hdense, withoutRepeats_eq_self_of_length hkept]
  · intro hrange
    rw [hrange]
    exact withoutRepeats_of_ascending (List.pairwise_lt_range' 1)

end GrowthFault.Stress
