import GrowthFault.Proofs.ScriptRuns

/-!
# Call accounting

Every growth call of a run goes one of three ways: to the bootstrap allocator, uncounted; to the
allocator of the resolution it uses; or nowhere.  Which one is settled by whether its thread is
inside a lookup, by the ordinal it claims and by the policy it uses.  The run's log holds what
the calls did and nothing else of that kind, and the ordinals claimed are those counted.
-/

namespace GrowthFault.Script

/-- How a growth call is answered.  Without an ordinal it was made inside a lookup and reached
the bootstrap allocator alone, with the interposer as it was.  With the ordinal that its policy
names it answers null and reached no allocator; with another it reached the allocator it
resolved, once. -/
def Taken.Answered (plan : Plan) (allocators : Allocators) (t : Taken) (r : Request) : Prop :=
  match t.ordinal? with
  | none =>
    t.caller.looking = true ∧
      t.own allocators = [.bootstrap r] ∧
      t.answer allocators = .pointer (allocators.bootstrap r) ∧
      (t.finish allocators).interposer = t.start.interposer
  | some ordinal =>
    t.caller.looking = false ∧
      (t.finish allocators).interposer.calls = ordinal ∧
      if ordinal ≠ 0 ∧ (plan.used t.caller).policy.ordinal.toNat = ordinal then
        t.own allocators =
            (if (plan.used t.caller).policy.trace then [.report ordinal r.size] else []) ∧
          t.answer allocators = .pointer 0
      else
        t.own allocators = [.real (plan.used t.caller).target r] ∧
          t.answer allocators = .pointer (allocators.real (plan.used t.caller).target r)

theorem Taken.answered_bootstrap {plan : Plan} {allocators : Allocators} {t : Taken}
    {r : Request} (hr : t.step.request? = some r) (hlooking : t.caller.looking = true) :
    t.Answered plan allocators r := by
  have hordinal : t.ordinal? = none := t.ordinal?_of_looking hlooking
  simp only [Answered, hordinal]
  refine ⟨hlooking, ?_, ?_, ?_⟩
  · rw [t.own_eq allocators hr, t.route_of_looking hlooking]
    rfl
  · rw [t.answer_eq allocators hr, t.route_of_looking hlooking]
    rfl
  · rw [t.finish_of_looking allocators hr hlooking]
    rfl

theorem Taken.answered_counted {plan : Plan} {allocators : Allocators} {t : Taken}
    {r : Request} (hlookup : ∀ p : State, (t.lookup p).1 = plan.answer p.outside.lookups)
    (hr : t.step.request? = some r) (hlooking : t.caller.looking = false) :
    t.Answered plan allocators r := by
  have hused : (t.caller.resolve t.lookup).1 = plan.used t.caller :=
    Plan.fst_resolve hlookup t.caller
  let ordinal := (t.caller.resolve t.lookup).2.interposer.calls + 1
  have hroute : t.route = (plan.used t.caller).route ordinal := by
    rw [t.route_of_not_looking hlooking, hused]
  have hordinal : t.ordinal? = some ordinal := t.ordinal?_of_not_looking hr hlooking
  have hzero : (plan.used t.caller).policy.ordinal ≠ 0 ∧
        (plan.used t.caller).policy.ordinal.toNat = ordinal ↔
      ordinal ≠ 0 ∧ (plan.used t.caller).policy.ordinal.toNat = ordinal := by
    refine and_congr_left fun hequal => ?_
    rw [← hequal, ne_eq, ne_eq, ← UInt64.toNat_inj]
    rfl
  rw [Resolution.route_eq] at hroute
  simp only [Answered, hordinal]
  refine ⟨hlooking, t.calls_finish allocators hr hlooking, ?_⟩
  split
  next hfail =>
      rw [if_pos (hzero.2 hfail)] at hroute
      rw [t.own_eq allocators hr, t.answer_eq allocators hr, hroute]
      refine ⟨?_, rfl⟩
      cases (plan.used t.caller).policy.trace <;> rfl
  next hforward =>
      rw [if_neg fun h => hforward (hzero.1 h)] at hroute
      rw [t.own_eq allocators hr, t.answer_eq allocators hr, hroute]
      exact ⟨rfl, rfl⟩

theorem Plan.answered_of_mem_taken {plan : Plan} {allocators : Allocators}
    {steps : List Step} {s : State} {t : Taken} {r : Request}
    (ht : t ∈ plan.taken allocators steps s) (hr : t.step.request? = some r) :
    t.Answered plan allocators r := by
  cases hlooking : t.caller.looking with
  | true => exact t.answered_bootstrap hr hlooking
  | false => exact t.answered_counted (Plan.fst_lookup_of_mem_taken ht) hr hlooking

/-- The accounts of a run, whatever the lookups answer, the first one does meanwhile and the
allocators return: the outcomes are those of the script's own steps; the log is what the
steps add to it, in the order in which they are answered; the ordinals claimed, in that order,
are one, two and so on to the number of calls; and every growth call is answered in one of three
ways. -/
theorem Plan.run_accounts (plan : Plan) (allocators : Allocators) (steps : List Step) :
    let taken := plan.taken allocators steps .fresh
    plan.run steps allocators =
        (plan.outer allocators steps .fresh).map (Taken.outcome allocators) ∧
      ((plan.run steps allocators).flatMap Outcome.events).filter Event.ofStep =
        taken.flatMap (Taken.logged allocators) ∧
      taken.filterMap Taken.ordinal? =
        List.range' 1 (plan.final allocators steps .fresh).interposer.calls ∧
      ∀ t ∈ taken, ∀ r, t.step.request? = some r → t.Answered plan allocators r := by
  intro taken
  refine ⟨plan.runFrom_eq allocators steps .fresh, plan.filter_events_run allocators steps, ?_, ?_⟩
  · exact (plan.accounts_taken allocators steps .fresh).ordinals
  · intro t ht r hr
    exact plan.answered_of_mem_taken ht hr

end GrowthFault.Script
