import GrowthFault.Proofs.OrdinalAnalysis
import Mathlib.Data.List.Nodup

/-!
# What a stress report passes

Here the threads may hold any ordinals, and any ordinals may have been failed, whether a gate that
counts calls could have given them out or not.  The ordinals are held against the numbers up to
their count, and the failed ones against the configured one, if the calls come to it.  A number that
is there twice, one that is lacking and one that is not due are all that can be wrong; a run with
any of these does not pass, and every other run does.
-/

namespace GrowthFault.Stress

/-- What is wrong with numbers that are not those that are due, each of them once. -/
inductive Deviates (due held : List Nat) : Prop where
  | repeated (n : Nat) (twice : 2 ≤ held.count n)
  | lacking (n : Nat) (expected : n ∈ due) (absent : n ∉ held)
  | foreign (n : Nat) (present : n ∈ held) (unexpected : n ∉ due)

/-- The ordinals to be failed: the configured one, if the calls that were counted come to it. -/
def Gathered.due (g : Gathered) : List Nat :=
  if 1 ≤ g.gate.policy.ordinal.toNat ∧ g.gate.policy.ordinal.toNat ≤ g.gate.calls
  then [g.gate.policy.ordinal.toNat] else []

/-- What is wrong with the ordinals of all threads, or with the failed ones. -/
inductive Gathered.Faulty (g : Gathered) : Prop where
  | seen (wrong : Deviates (List.range' 1 g.seen.flatten.length) g.seen.flatten)
  | failed (wrong : Deviates g.due g.failed)

/-! ## Numbers that are due -/

section Deviates

variable {due held : List Nat}

theorem perm_iff_of_nodup (hdue : due.Nodup) :
    held.Perm due ↔ held.Nodup ∧ ∀ n, n ∈ held ↔ n ∈ due := by
  constructor
  · intro hperm
    exact ⟨hperm.nodup_iff.2 hdue, fun _ => hperm.mem_iff⟩
  · rintro ⟨hheld, hsame⟩
    exact (List.perm_ext_iff_of_nodup hheld hdue).2 hsame

theorem Deviates.not_perm (hdue : due.Nodup) (hwrong : Deviates due held) : ¬ held.Perm due := by
  rw [perm_iff_of_nodup hdue]
  rintro ⟨hheld, hsame⟩
  cases hwrong with
  | repeated n twice =>
      have honce := List.nodup_iff_count_le_one.1 hheld n
      omega
  | lacking n expected absent => exact absent ((hsame n).2 expected)
  | foreign n present unexpected => exact unexpected ((hsame n).1 present)

theorem deviates_of_not_perm (hdue : due.Nodup) (hother : ¬ held.Perm due) :
    Deviates due held := by
  -- Without a deviation no number is there twice, and the same numbers are there as are due.
  by_contra hnone
  apply hother
  rw [perm_iff_of_nodup hdue, List.nodup_iff_count_le_one]
  refine ⟨fun n => ?_, fun n => ⟨fun hheld => ?_, fun hexpected => ?_⟩⟩
  · by_contra htwice
    exact hnone (.repeated n (by omega))
  · by_contra hunexpected
    exact hnone (.foreign n hheld hunexpected)
  · by_contra habsent
    exact hnone (.lacking n hexpected habsent)

theorem deviates_iff (hdue : due.Nodup) : Deviates due held ↔ ¬ held.Perm due :=
  ⟨Deviates.not_perm hdue, deviates_of_not_perm hdue⟩

end Deviates

/-! ## Failed ordinals -/

theorem ascending_due (g : Gathered) : g.due.Pairwise (· < ·) := by
  unfold Gathered.due
  split
  · exact List.pairwise_singleton _ _
  · exact List.Pairwise.nil

/-- Numbers that are words are told apart as words. -/
theorem map_ofNat_eq_iff {numbers : List Nat} {words : List UInt64}
    (hfits : ∀ n ∈ numbers, n < UInt64.size) :
    numbers.map UInt64.ofNat = words ↔ numbers = words.map UInt64.toNat := by
  constructor
  · rintro rfl
    have hback : ∀ n ∈ numbers, (UInt64.ofNat n).toNat = n := fun n hn =>
      UInt64.toNat_ofNat_of_lt' (hfits n hn)
    rw [List.map_map]
    exact ((List.map_congr_left hback).trans (List.map_id _)).symm
  · rintro rfl
    have hback : ∀ word ∈ words, UInt64.ofNat word.toNat = word := fun _ _ =>
      UInt64.ofNat_toNat
    rw [List.map_map]
    exact (List.map_congr_left hback).trans (List.map_id _)

/-! ## Reports -/

section Report

variable {g : Gathered} (threads callsPerThread elapsedMs : UInt64)

theorem map_expected (hcalls : g.gate.calls < UInt64.size) :
    (g.report threads callsPerThread elapsedMs).expected.map UInt64.toNat = g.due := by
  have htotal : (UInt64.ofNat g.gate.calls).toNat = g.gate.calls :=
    UInt64.toNat_ofNat_of_lt' hcalls
  have hone : (1 : UInt64).toNat = 1 := rfl
  simp only [StressReport.expected, Gathered.report, Gathered.due, UInt64.le_iff_toNat_le, htotal,
    hone]
  split <;> rfl

theorem passed_report_iff (hcalls : g.gate.calls < UInt64.size)
    (hfailed : ∀ ordinal ∈ g.failed, ordinal < UInt64.size) :
    (g.report threads callsPerThread elapsedMs).passed = true ↔
      g.seen.flatten.Nodup ∧ g.seen.flatten.Perm (List.range' 1 g.seen.flatten.length) ∧
        g.failed.mergeSort = g.due := by
  have hfits : ∀ ordinal ∈ g.failed.mergeSort, ordinal < UInt64.size := by
    intro ordinal hordinal
    exact hfailed ordinal (List.mem_mergeSort.1 hordinal)
  rw [← unique_analyse_iff, ← dense_analyse_iff,
    ← map_expected threads callsPerThread elapsedMs hcalls, ← map_ofNat_eq_iff hfits]
  simp only [StressReport.passed, Bool.and_eq_true, beq_iff_eq, and_assoc]
  rfl

theorem faulty_iff (g : Gathered) :
    g.Faulty ↔ ¬ (g.seen.flatten.Perm (List.range' 1 g.seen.flatten.length) ∧
      g.failed.mergeSort = g.due) := by
  have hdue := ascending_due g
  have hrange : (List.range' 1 g.seen.flatten.length).Nodup := List.nodup_range' 1
  rw [mergeSort_eq_iff (hdue.imp Nat.le_of_lt), not_and_or, ← deviates_iff hrange,
    ← deviates_iff (hdue.imp Nat.ne_of_lt)]
  constructor
  · rintro (hwrong | hwrong)
    · exact .inl hwrong
    · exact .inr hwrong
  · rintro (hwrong | hwrong)
    · exact .seen hwrong
    · exact .failed hwrong

end Report

/-- What a stress report passes, whatever ordinals the threads hold and whichever were failed, the
counter and the failed ordinals being words.  The ordinals are unique if none occurs twice in all
lists together, dense if the lists together are a permutation of the numbers up to their count; the
report passes if they are both and the failed ordinals, sorted, are the configured one if the calls
come to it, and none if they do not.  So it does not pass exactly if an ordinal is there twice, is
skipped or is out of range, or a failure is missing, repeated or misplaced. -/
theorem report_catches_every_fault (g : Gathered) (threads callsPerThread elapsedMs : UInt64)
    (hcalls : g.gate.calls < UInt64.size)
    (hfailed : ∀ ordinal ∈ g.failed, ordinal < UInt64.size) :
    let ordinals := g.seen.flatten
    let report := g.report threads callsPerThread elapsedMs
    (report.uniqueOrdinals = true ↔ ordinals.Nodup) ∧
    (report.denseOrdinals = true ↔ ordinals.Perm (List.range' 1 ordinals.length)) ∧
    (report.passed = true ↔
      ordinals.Nodup ∧ ordinals.Perm (List.range' 1 ordinals.length) ∧
        g.failed.mergeSort =
          if 1 ≤ g.gate.policy.ordinal.toNat ∧ g.gate.policy.ordinal.toNat ≤ g.gate.calls
          then [g.gate.policy.ordinal.toNat] else []) ∧
    (report.passed = false ↔ g.Faulty) := by
  intro ordinals report
  have hpassed := passed_report_iff threads callsPerThread elapsedMs hcalls hfailed
  refine ⟨unique_analyse_iff g.seen, dense_analyse_iff g.seen, hpassed, ?_⟩
  rw [faulty_iff, ← Bool.not_eq_true, hpassed]
  constructor
  · rintro hnot ⟨hperm, hdue⟩
    have hunique : ordinals.Nodup := hperm.nodup_iff.2 (List.nodup_range' 1)
    exact hnot ⟨hunique, hperm, hdue⟩
  · rintro hnot ⟨-, hperm, hdue⟩
    exact hnot ⟨hperm, hdue⟩

/-- A counter that loses an update: both threads get the second ordinal, and both are failed. -/
theorem report_catches_lost_update :
    let g : Gathered := ⟨⟨.failAt 2, ⟨3⟩⟩, [[1, 2], [2, 3]], [2, 2]⟩
    g.Faulty ∧ (g.report 2 2 0).passed = false ∧ (g.report 2 2 0).uniqueOrdinals = false := by
  intro g
  obtain ⟨hunique, -, -, hfails⟩ := report_catches_every_fault g 2 2 0 (by decide) (by decide)
  have hfaulty : g.Faulty := .seen (.repeated 2 (by decide))
  have hrepeated : ¬ g.seen.flatten.Nodup := by decide
  exact ⟨hfaulty, hfails.2 hfaulty, Bool.eq_false_iff.2 (mt hunique.1 hrepeated)⟩

end GrowthFault.Stress
