import GrowthFault.Policy

/-!
# Gates

A gate is a policy with a counter of its own.  Every call it admits takes the next ordinal and
the verdict that the policy has for it.
-/

namespace GrowthFault

/-- Calls are counted without a bound.  A word would start again after as many calls as there are
words, which no run makes. -/
structure Counter where
  observed : Nat := 0
  deriving DecidableEq, Repr

/-- Count a call; it takes the next ordinal. -/
def Counter.next (c : Counter) : Nat × Counter :=
  (c.observed + 1, ⟨c.observed + 1⟩)

/-- The ordinal and the verdict of one call. -/
structure Admission where
  ordinal : Nat
  verdict : Verdict
  deriving DecidableEq, Repr

def Admission.fails (a : Admission) : Bool :=
  a.verdict == .fail

structure Gate where
  policy : Policy := default
  counter : Counter := {}
  deriving DecidableEq, Repr

def Gate.calls (g : Gate) : Nat := g.counter.observed

def Gate.admit (g : Gate) : Admission × Gate :=
  let (ordinal, counter) := g.counter.next
  (⟨ordinal, g.policy.verdict ordinal⟩, { g with counter })

@[simp] theorem Gate.calls_admit (g : Gate) : g.admit.2.calls = g.calls + 1 := rfl

@[simp] theorem Gate.policy_admit (g : Gate) : g.admit.2.policy = g.policy := rfl

theorem Gate.fails_admit_iff (g : Gate) :
    g.admit.1.fails = true ↔ g.policy.ordinal ≠ 0 ∧ g.policy.ordinal.toNat = g.calls + 1 := by
  have h : g.admit.1.verdict = g.policy.verdict (g.calls + 1) := rfl
  simp [Admission.fails, h, Policy.verdict_eq_fail_iff]

/-- Admit a number of calls; the ordinals of those that failed, in order. -/
def Gate.admitMany : (count : Nat) → Gate → List Nat × Gate
  | 0, g => ([], g)
  | count + 1, g =>
    let (a, g) := g.admit
    let (failed, g) := g.admitMany count
    (if a.fails then a.ordinal :: failed else failed, g)

end GrowthFault
