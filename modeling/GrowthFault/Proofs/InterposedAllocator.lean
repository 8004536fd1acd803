import GrowthFault.Heap.Base

/-!
# The allocator behind the library

Every lookup of a process finds the policy of its environment, so the library is a counter with a
verdict from its first call on, whether or not the policy is published yet.  A growth call is
counted first; then it fails, and is reported if the policy says so, or goes to the allocator as
it is.
-/

namespace GrowthFault

namespace Process

/-- The process counts calls under a policy: it is inside no lookup, and nothing is published but
this policy. -/
structure Counts (policy : Policy) (calls : Nat) (p : Process Unit) : Prop where
  outside : p.looking = false
  counted : p.interposer.calls = calls
  settled : p.interposer.phase = .unresolved ∨ p.interposer.peek? = some ⟨0, policy⟩

variable {env : Environment} {calls : Nat} {p : Process Unit}

theorem counts_fresh (policy : Policy) : Counts policy 0 { outside := () } := by
  constructor
  · rfl
  · rfl
  · exact .inl rfl

theorem Counts.resolve (hp : p.Counts env.policy calls) :
    ∃ p', p.resolve (Heap.lookupIn env) = (⟨0, env.policy⟩, p') ∧
      p'.Counts env.policy calls ∧ p'.interposer.peek? = some ⟨0, env.policy⟩ := by
  rcases hp.settled with hunresolved | hready
  · rw [resolve_of_unresolved (Heap.lookupIn env) hunresolved]
    refine ⟨_, rfl, ?_, rfl⟩
    constructor
    · rfl
    · exact hp.counted
    · exact .inr rfl
  · refine ⟨p, ?_, hp, hready⟩
    rw [Process.resolve, hready]

theorem Counts.route (hp : p.Counts env.policy calls) :
    ∃ p', p.route (Heap.lookupIn env) =
        ((⟨0, env.policy⟩ : Resolution).route (calls + 1), p') ∧
      p'.Counts env.policy (calls + 1) := by
  obtain ⟨p', hresolve, hp', hready⟩ := hp.resolve
  rw [route_of_not_looking (Heap.lookupIn env) hp.outside, hresolve, hp'.counted]
  refine ⟨_, rfl, ?_⟩
  constructor
  · exact hp'.outside
  · exact congrArg (· + 1) hp'.counted
  · exact .inr hready

end Process

theorem Policy.ordinal_ne_zero_iff {p : Policy} : p.ordinal ≠ 0 ↔ p.ordinal.toNat ≠ 0 := by
  rw [ne_eq, ← UInt64.toNat_inj]
  rfl

/-- What a policy has reported after growth calls of these sizes, the first call first. -/
def Policy.reported (p : Policy) (sizes : List Nat) : Bytes :=
  if p.trace ∧ p.ordinal ≠ 0 then
    match sizes[p.ordinal.toNat - 1]? with
    | some size => Report.line p.ordinal (UInt64.ofNat size)
    | none => []
  else []

theorem Policy.reported_append (p : Policy) (sizes : List Nat) (size : Nat) :
    p.reported (sizes ++ [size]) = p.reported sizes ++
      if p.verdict (sizes.length + 1) = .fail ∧ p.trace then
        Report.line p.ordinal (UInt64.ofNat size)
      else [] := by
  simp only [verdict_eq_fail_iff]
  by_cases hon : p.trace ∧ p.ordinal ≠ 0
  · obtain ⟨htrace, hordinal⟩ := hon
    have hpositive : p.ordinal.toNat ≠ 0 := ordinal_ne_zero_iff.1 hordinal
    -- The ordinal counts from one and the list from zero.
    rcases Nat.lt_trichotomy p.ordinal.toNat (sizes.length + 1) with hlt | heq | hgt
    · have hbefore : p.ordinal.toNat - 1 < sizes.length := by omega
      have hne : p.ordinal.toNat ≠ sizes.length + 1 := by omega
      simp [reported, htrace, hordinal, hne, List.getElem?_append_left hbefore]
    · have hlast : p.ordinal.toNat - 1 = sizes.length := by omega
      simp [reported, htrace, hordinal, heq]
    · have hafter : sizes.length + 1 ≤ p.ordinal.toNat - 1 := by omega
      have hnone : (sizes ++ [size])[p.ordinal.toNat - 1]? = none := by
        apply List.getElem?_eq_none
        simpa using hafter
      have hnone' : sizes[p.ordinal.toNat - 1]? = none := by
        apply List.getElem?_eq_none
        omega
      have hne : p.ordinal.toNat ≠ sizes.length + 1 := by omega
      simp [reported, hnone, hnone', hne]
  · have hquiet : ¬ ((p.ordinal ≠ 0 ∧ p.ordinal.toNat = sizes.length + 1) ∧ p.trace) := by
      rintro ⟨⟨hordinal, -⟩, htrace⟩
      exact hon ⟨htrace, hordinal⟩
    simp only [reported, if_neg hon, if_neg hquiet, List.append_nil]

namespace Heap.Base

/-- The library stands before the allocator, and growth calls of these sizes have been made. -/
def Preloaded (env : Environment) (sizes : List Nat) (b : Base) : Prop :=
  ∃ process, b.source = .interposed env process (env.policy.reported sizes) ∧
    process.Counts env.policy sizes.length

theorem preloaded_start (env : Environment) (place : Placement) :
    (preloaded env place).Preloaded env [] := by
  refine ⟨{ outside := () }, ?_, Process.counts_fresh env.policy⟩
  simp [preloaded, interposed, Policy.reported]

variable {env : Environment} {sizes : List Nat} {b : Base}

theorem Preloaded.withMemory (hb : b.Preloaded env sizes) (m : Memory) :
    Preloaded env sizes { b with memory := m } :=
  hb

theorem Preloaded.malloc (hb : b.Preloaded env sizes) (size : Nat) :
    b.malloc size = ((b.memory.malloc b.placement size).1,
      { b with memory := (b.memory.malloc b.placement size).2 }) := by
  obtain ⟨process, hsource, -⟩ := hb
  simp [Base.malloc, hsource]

/-- A growth call is counted; it fails or goes to the allocator. -/
theorem Preloaded.realloc (hb : b.Preloaded env sizes) (p : Pointer) (size : Nat) :
    ∃ source, Preloaded env (sizes ++ [size]) { b with source } ∧
      b.realloc p size =
        if env.policy.verdict (sizes.length + 1) = .fail then .ok (none, { b with source })
        else { b with source }.systemRealloc p size := by
  obtain ⟨process, hsource, hcounts⟩ := hb
  obtain ⟨process', hroute, hcounts'⟩ := hcounts.route
  have hcounted : process'.Counts env.policy (sizes ++ [size]).length := by
    rw [List.length_append]
    exact hcounts'
  refine ⟨.interposed env process' (env.policy.reported (sizes ++ [size])),
    ⟨process', rfl, hcounted⟩, ?_⟩
  rw [Base.realloc, hsource]
  dsimp only
  rw [hroute, Policy.reported_append]
  by_cases hfail : env.policy.verdict (sizes.length + 1) = .fail
  · obtain ⟨-, hordinal⟩ := Policy.verdict_eq_fail_iff.1 hfail
    have hline : UInt64.ofNat (sizes.length + 1) = env.policy.ordinal := by
      rw [← hordinal, UInt64.ofNat_toNat]
    simp only [Resolution.route, hfail, hline, true_and, if_true]
    cases env.policy.trace <;> simp
  · have hforward : env.policy.verdict (sizes.length + 1) = .forward := by
      cases hverdict : env.policy.verdict (sizes.length + 1) with
      | forward => rfl
      | fail => exact absurd hverdict hfail
    simp [Resolution.route, hforward]

theorem Preloaded.interposedCalls? (hb : b.Preloaded env sizes) :
    b.interposedCalls? = some sizes.length := by
  obtain ⟨process, hsource, hcounts⟩ := hb
  simp [Base.interposedCalls?, hsource, hcounts.counted]

theorem Preloaded.interposedPolicy? (hb : b.Preloaded env sizes) :
    b.interposedPolicy? = some env.policy := by
  obtain ⟨process, hsource, hcounts⟩ := hb
  obtain ⟨process', hresolve, -⟩ := hcounts.resolve
  simp [Base.interposedPolicy?, hsource, hresolve]

theorem Preloaded.reports? (hb : b.Preloaded env sizes) :
    b.reports? = some (env.policy.reported sizes) := by
  obtain ⟨process, hsource, -⟩ := hb
  simp [Base.reports?, hsource]

end Heap.Base

end GrowthFault
