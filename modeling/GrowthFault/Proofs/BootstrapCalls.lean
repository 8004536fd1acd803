import GrowthFault.Proofs.ScriptRuns

/-!
# Growth calls inside the first lookup

A growth call that the first lookup makes on its own thread is meant for the bootstrap
allocator.  The thread's mark tells it apart, and a resolve inside the lookup begins and ends a
lookup of its own, which takes the mark away.  So the law holds up to the first resolve: the
growth calls after it resolve, are counted, and push the ordinal of the call around the lookup
up.  `bootstrapLaw_iff` says for which scripts the law holds.
-/

namespace GrowthFault.Script

def Step.here : Step → Bool
  | .grow _ => true
  | _ => false

def Step.elsewhere : Step → Bool
  | .growElsewhere _ => true
  | _ => false

/-- A growth call that the bootstrap allocator answered, and that was not counted. -/
structure Taken.Bootstrapped (allocators : Allocators) (t : Taken) (r : Request) : Prop where
  own : t.own allocators = [.bootstrap r]
  answer : t.answer allocators = .pointer (allocators.bootstrap r)
  calls : (t.finish allocators).interposer.calls = t.start.interposer.calls

/-- The law of the lookup that a step begins: the growth calls it makes on its own thread are
bootstrapped, and the step, if it is a growth call itself, comes after the calls of other
threads alone. -/
def BootstrapLaw (plan : Plan) (allocators : Allocators) (t : Taken) : Prop :=
  (∀ u ∈ plan.inside allocators t, ∀ r, u.step = .grow r → u.Bootstrapped allocators r) ∧
    (t.step.request?.isSome → t.ordinal? = some (1 + plan.during.countP Step.elsewhere))

/-- No growth call of the script's own thread comes after a resolve. -/
def Sheltered (steps : List Step) : Prop :=
  ∀ i r, steps[i]? = some (.grow r) → .resolve ∉ steps.take i

/-- The growth calls of the script's own thread that come after a resolve. -/
def exposed : List Step → Nat
  | [] => 0
  | .resolve :: steps => steps.countP Step.here
  | _ :: steps => exposed steps

theorem Sheltered.tail {step : Step} {steps : List Step} (h : Sheltered (step :: steps)) :
    Sheltered steps := by
  intro i r hi hmem
  exact h (i + 1) r (by simpa using hi) (by simp [hmem])

theorem Sheltered.exposed_eq_zero {steps : List Step} (h : Sheltered steps) :
    exposed steps = 0 := by
  induction steps with
  | nil => rfl
  | cons step steps ih =>
      cases step with
      | resolve =>
          rw [exposed, List.countP_eq_zero]
          intro step hstep hhere
          obtain ⟨i, hi⟩ := List.mem_iff_getElem?.1 hstep
          cases step with
          | grow r => exact h (i + 1) r (by simpa using hi) (by simp)
          | growElsewhere _ | resolve | peek | calls => simp [Step.here] at hhere
      | grow _ | growElsewhere _ | peek | calls => exact ih h.tail

/-! ## Steps inside a lookup -/

namespace Plan

variable (plan : Plan) (allocators : Allocators)

theorem resolve_plainLookup {s : State}
    (hphase : s.interposer.phase = .resolving) :
    (s.resolve plan.plainLookup).2 = { (plan.plainLookup s).2 with looking := false } := by
  rw [s.resolve_of_resolving _ hphase]
  rfl

theorem finish_counted {t : Taken} {r : Request} (hlookup : t.lookup = plan.plainLookup)
    (hphase : t.start.interposer.phase = .resolving) (hr : t.step.request? = some r)
    (hlooking : t.caller.looking = false) :
    (t.finish allocators).interposer =
      { t.start.interposer with counter := t.start.interposer.counter.next.2 } := by
  have hcaller : t.caller.interposer.phase = .resolving := by rwa [t.caller_interposer]
  rw [t.interposer_finish allocators hr hlooking, hlookup, plan.resolve_plainLookup hcaller,
    ← t.caller_interposer]
  rfl

/-- While the first lookup goes on, a step leaves the phase, takes the mark away if it resolves,
and is counted if it is a growth call of an unmarked thread. -/
theorem finish_nested (step : Step) (nested : Bool) {s : State}
    (hphase : s.interposer.phase = .resolving) :
    let t : Taken := ⟨plan.plainLookup, step, s, nested⟩
    (t.finish allocators).interposer.phase = .resolving ∧
      (t.finish allocators).looking = (s.looking && step != .resolve) ∧
      (t.finish allocators).interposer.calls = s.interposer.calls +
        if step.elsewhere || (step.here && !s.looking) then 1 else 0 := by
  intro t
  cases step with
  | grow r =>
      have hmark := t.looking_finish allocators (r := r) rfl
      cases hlooking : s.looking with
      | true =>
          rw [t.finish_of_looking allocators rfl hlooking]
          exact ⟨hphase, hlooking, rfl⟩
      | false =>
          have hfinish : (t.finish allocators).interposer = _ :=
            plan.finish_counted allocators rfl hphase rfl hlooking
          rw [hfinish, hmark]
          exact ⟨hphase, hlooking, rfl⟩
  | growElsewhere r =>
      have hmark := t.looking_finish allocators (r := r) rfl
      have hfinish : (t.finish allocators).interposer = _ :=
        plan.finish_counted allocators rfl hphase rfl rfl
      rw [hfinish, hmark]
      exact ⟨hphase, (Bool.and_true _).symm, rfl⟩
  | resolve =>
      have hfinish : t.finish allocators = { (plan.plainLookup s).2 with looking := false } :=
        plan.resolve_plainLookup hphase
      rw [hfinish]
      exact ⟨hphase, (Bool.and_false _).symm, rfl⟩
  | peek | calls => exact ⟨hphase, (Bool.and_true _).symm, rfl⟩

/-- The thread is marked until the first resolve. -/
theorem start_of_getElem?_nested {steps : List Step} {s : State} {i : Nat} {u : Taken}
    (hphase : s.interposer.phase = .resolving)
    (hu : (plan.nested allocators steps s)[i]? = some u) :
    u.lookup = plan.plainLookup ∧ steps[i]? = some u.step ∧
      u.start.interposer.phase = .resolving ∧
      u.start.looking = (s.looking && decide (.resolve ∉ steps.take i)) := by
  induction steps generalizing s i with
  | nil => simp [nested] at hu
  | cons step steps ih =>
      cases i with
      | zero =>
          obtain rfl : _ = u := by simpa [nested] using hu
          exact ⟨rfl, rfl, hphase, by simp⟩
      | succ i =>
          let t : Taken := ⟨plan.plainLookup, step, s, true⟩
          let next := (t.finish allocators).log (.nested (t.answer allocators))
          obtain ⟨hnext, hlooking, -⟩ :=
            plan.finish_nested allocators step true hphase
          have hrest : (plan.nested allocators steps next)[i]? = some u := by
            simpa [nested, next, t] using hu
          obtain ⟨hlookup, hstep, hresolving, hmark⟩ := ih (s := next) hnext hrest
          refine ⟨hlookup, hstep, hresolving, ?_⟩
          have hnextLooking : next.looking = (s.looking && step != .resolve) := hlooking
          rw [hmark, hnextLooking, List.take_succ_cons, Bool.and_assoc]
          congr 1
          by_cases hresolve : step = .resolve
          · simp [hresolve]
          · have hother : ¬ Step.resolve = step := fun h => hresolve h.symm
            simp [hresolve, hother]

/-- The calls counted inside a lookup: those of other threads, and those of the own thread that
find it unmarked. -/
theorem calls_takeNested (steps : List Step) {s : State}
    (hphase : s.interposer.phase = .resolving) :
    (plan.takeNested allocators steps s).interposer.phase = .resolving ∧
    (plan.takeNested allocators steps s).interposer.calls =
      s.interposer.calls + steps.countP Step.elsewhere +
        if s.looking then exposed steps else steps.countP Step.here := by
  induction steps generalizing s with
  | nil => cases hlooking : s.looking <;> simp [takeNested, exposed, hphase]
  | cons step steps ih =>
      let t : Taken := ⟨plan.plainLookup, step, s, true⟩
      let next := (t.finish allocators).log (.nested (t.answer allocators))
      obtain ⟨hnext, hlooking, hcalls⟩ :=
        plan.finish_nested allocators step true hphase
      obtain ⟨hlast, hlastCalls⟩ := ih (s := next) hnext
      have hnextCalls : next.interposer.calls = _ := hcalls
      have hnextLooking : next.looking = _ := hlooking
      refine ⟨hlast, ?_⟩
      have hrun : plan.takeNested allocators (step :: steps) s =
          plan.takeNested allocators steps next := rfl
      rw [hrun, hlastCalls, hnextCalls, hnextLooking]
      cases s.looking <;> cases step <;>
        simp [Step.elsewhere, Step.here, exposed, List.countP_cons] <;> omega

theorem map_step_nested (steps : List Step) (s : State) :
    (plan.nested allocators steps s).map Taken.step = steps := by
  induction steps generalizing s with
  | nil => rfl
  | cons step steps ih => rw [nested, List.map_cons, ih]

end Plan

/-! ## The first lookup -/

/-- A state between the steps of a script: the thread is in no lookup, and no lookup has begun
before the one that publishes. -/
structure State.Between (s : State) : Prop where
  unmarked : s.looking = false
  begun : s.interposer.phase = .ready ∨
    s.interposer.phase = .unresolved ∧ s.outside.lookups = 0 ∧ s.interposer.calls = 0

theorem State.Between.fresh : State.Between .fresh where
  unmarked := rfl
  begun := .inr ⟨rfl, rfl, rfl⟩

theorem State.Between.resolve {s : State} (h : s.Between) (lookup : Lookup Record) :
    (s.resolve lookup).2.interposer.phase = .ready := by
  rcases h.begun with hready | ⟨hunresolved, -, -⟩
  · rw [s.resolve_of_ready lookup hready]
    exact hready
  · rw [s.resolve_of_unresolved lookup hunresolved]
    rfl

theorem Taken.caller_eq {t : Taken} (h : t.start.Between) : t.caller = t.start := by
  have hunmarked : { t.start with looking := false } = t.start := by
    rw [← h.unmarked]
  unfold Taken.caller
  cases t.step with
  | growElsewhere r => exact hunmarked
  | grow _ | resolve | peek | calls => rfl

theorem Taken.between_finish (allocators : Allocators) {t : Taken} (h : t.start.Between) :
    (t.finish allocators).Between := by
  have hcall {r : Request} (hr : t.step.request? = some r) : (t.finish allocators).Between := by
    have hcaller : t.caller.looking = false := by rw [t.caller_eq h, h.unmarked]
    refine ⟨?_, .inl ?_⟩
    · rw [t.looking_finish allocators hr, h.unmarked]
    · rw [t.interposer_finish allocators hr hcaller, t.caller_eq h]
      exact h.resolve t.lookup
  obtain ⟨lookup, step, start, nested⟩ := t
  cases step with
  | grow r | growElsewhere r => exact hcall rfl
  | resolve => exact ⟨start.looking_resolve lookup h.unmarked, .inl (h.resolve lookup)⟩
  | peek | calls => exact h

def State.begun (s : State) : State :=
  { s with interposer := { s.interposer with phase := .resolving }, looking := true }

/-- A step that begins the first lookup of a run. -/
structure Taken.First (plan : Plan) (allocators : Allocators) (t : Taken) : Prop where
  lookup : t.lookup = plan.lookup allocators
  between : t.start.Between
  unresolved : t.start.interposer.phase = .unresolved
  lookups : t.start.outside.lookups = 0
  calls : t.start.interposer.calls = 0
  begins : t.lookingUp? = some t.start.begun

namespace Plan

variable {plan : Plan} {allocators : Allocators}

theorem between_of_mem_outer {steps : List Step} {s : State} {t : Taken} (hs : s.Between)
    (ht : t ∈ plan.outer allocators steps s) : t.start.Between := by
  induction steps generalizing s with
  | nil => simp [outer] at ht
  | cons step steps ih =>
      rw [outer, List.mem_cons] at ht
      rcases ht with rfl | ht
      · exact hs
      · exact ih (Taken.between_finish allocators hs) ht

/-- The only lookup that a step of a script begins is the first of the run. -/
theorem first_of_mem_outer {steps : List Step} {t : Taken}
    (ht : t ∈ plan.outer allocators steps .fresh) (hlooking : t.lookingUp?.isSome) :
    t.First plan allocators := by
  have hbetween := between_of_mem_outer .fresh ht
  have hstart : t.lookingUp? = t.start.lookingUp? := by
    unfold Taken.lookingUp? at hlooking ⊢
    cases hstep : t.step with
    | grow r => simp [hbetween.unmarked]
    | growElsewhere r | resolve => simp [t.caller_eq hbetween]
    | peek | calls => simp [hstep] at hlooking
  rcases hbetween.begun with hready | ⟨hunresolved, hlookups, hcalls⟩
  · simp [hstart, Process.lookingUp?, hready] at hlooking
  · refine ⟨lookup_eq_of_mem_outer ht, hbetween, hunresolved, hlookups, hcalls, ?_⟩
    rw [hstart]
    simp [Process.lookingUp?, hunresolved, State.begun]

end Plan

namespace Taken

variable {plan : Plan} {allocators : Allocators} {t u : Taken} {r : Request}

theorem bootstrapped_iff (hlookup : u.lookup = plan.plainLookup)
    (hphase : u.start.interposer.phase = .resolving) (hstep : u.step = .grow r) :
    u.Bootstrapped allocators r ↔ u.start.looking = true := by
  have hr : u.step.request? = some r := by simp [hstep, Step.request?]
  have hcaller : u.caller = u.start := by simp [Taken.caller, hstep]
  constructor
  · intro h
    by_contra hlooking
    have hunmarked : u.caller.looking = false := by simpa [hcaller] using hlooking
    have hcalls := h.calls
    rw [plan.finish_counted allocators hlookup hphase hr hunmarked] at hcalls
    exact Nat.succ_ne_self _ hcalls
  · intro hlooking
    have hmarked : u.caller.looking = true := by rw [hcaller, hlooking]
    have hroute := u.route_of_looking hmarked
    refine ⟨?_, ?_, ?_⟩
    · rw [u.own_eq allocators hr, hroute]
      rfl
    · rw [u.answer_eq allocators hr, hroute]
      rfl
    · rw [u.finish_of_looking allocators hr hmarked]
      rfl

theorem First.inside_eq (hfirst : t.First plan allocators) :
    plan.inside allocators t =
      plan.nested allocators plan.during (plan.plainLookup t.start.begun).2 := by
  have hlookups : t.start.begun.outside.lookups = 0 := hfirst.lookups
  simp [Plan.inside, hfirst.begins, Plan.within, hlookups]

theorem First.bootstrapped_iff {i : Nat} (hfirst : t.First plan allocators)
    (hu : (plan.inside allocators t)[i]? = some u) (hstep : u.step = .grow r) :
    u.Bootstrapped allocators r ↔ .resolve ∉ plan.during.take i := by
  have hphase : (plan.plainLookup t.start.begun).2.interposer.phase = .resolving := rfl
  have hmarked : (plan.plainLookup t.start.begun).2.looking = true := rfl
  rw [hfirst.inside_eq] at hu
  obtain ⟨hlookup, -, hresolving, hmark⟩ := plan.start_of_getElem?_nested allocators hphase hu
  rw [Taken.bootstrapped_iff hlookup hresolving hstep, hmark, hmarked, Bool.true_and,
    decide_eq_true_iff]

theorem First.calls_lookup (hfirst : t.First plan allocators) :
    (plan.lookup allocators t.start.begun).2.interposer.calls =
      plan.during.countP Step.elsewhere + exposed plan.during := by
  have hphase : (plan.plainLookup t.start.begun).2.interposer.phase = .resolving := rfl
  have hmarked : (plan.plainLookup t.start.begun).2.looking = true := rfl
  have hcalls : (plan.plainLookup t.start.begun).2.interposer.calls = 0 := hfirst.calls
  have hlookups : t.start.begun.outside.lookups = 0 := hfirst.lookups
  have hlookup : (plan.lookup allocators t.start.begun).2 =
      plan.takeNested allocators plan.during (plan.plainLookup t.start.begun).2 := by
    simp [Plan.lookup, hlookups]
  rw [hlookup, (plan.calls_takeNested allocators plan.during hphase).2, hmarked, hcalls,
    if_pos rfl, Nat.zero_add]

theorem First.ordinal?_eq (hfirst : t.First plan allocators)
    (hrequest : t.step.request?.isSome) :
    t.ordinal? =
      some (1 + plan.during.countP Step.elsewhere + exposed plan.during) := by
  obtain ⟨r, hr⟩ := Option.isSome_iff_exists.1 hrequest
  have hmark : t.caller.looking = false := by
    rw [t.caller_eq hfirst.between, hfirst.between.unmarked]
  have hresolve : (t.start.resolve (plan.lookup allocators)).2.interposer.calls =
      (plan.lookup allocators t.start.begun).2.interposer.calls := by
    rw [Process.resolve_of_unresolved _ hfirst.unresolved]
    rfl
  rw [t.ordinal?_of_not_looking hr hmark, t.caller_eq hfirst.between, hfirst.lookup, hresolve,
    hfirst.calls_lookup]
  congr 1
  omega

end Taken

/-- A growth call that the first lookup makes on its own thread is bootstrapped as long as no
resolve came before it in the lookup; each later one is counted before the call around the
lookup.  So the law holds exactly for the scripts in which no resolve comes first. -/
theorem bootstrapLaw_iff {plan : Plan} {allocators : Allocators} {steps : List Step} {t : Taken}
    (ht : t ∈ plan.outer allocators steps .fresh) (hlooking : t.lookingUp?.isSome) :
    (plan.inside allocators t).map Taken.step = plan.during ∧
    (∀ i u r, (plan.inside allocators t)[i]? = some u → u.step = .grow r →
      (u.Bootstrapped allocators r ↔ .resolve ∉ plan.during.take i)) ∧
    (t.step.request?.isSome → t.ordinal? =
      some (1 + plan.during.countP Step.elsewhere + exposed plan.during)) ∧
    (BootstrapLaw plan allocators t ↔ Sheltered plan.during) := by
  have hfirst := Plan.first_of_mem_outer ht hlooking
  have hsteps : (plan.inside allocators t).map Taken.step = plan.during := by
    rw [hfirst.inside_eq, plan.map_step_nested]
  refine ⟨hsteps, fun i u r hu hstep => hfirst.bootstrapped_iff hu hstep, hfirst.ordinal?_eq,
    ?_, ?_⟩
  · intro hlaw i r hi
    obtain ⟨u, hu, hstep⟩ : ∃ u, (plan.inside allocators t)[i]? = some u ∧
        u.step = .grow r := by
      rw [← hsteps, List.getElem?_map, Option.map_eq_some_iff] at hi
      exact hi
    exact (hfirst.bootstrapped_iff hu hstep).1 (hlaw.1 u (List.mem_of_getElem? hu) r hstep)
  · intro hsheltered
    refine ⟨?_, ?_⟩
    · intro u hu r hstep
      obtain ⟨i, hi⟩ := List.mem_iff_getElem?.1 hu
      refine (hfirst.bootstrapped_iff hi hstep).2 (hsheltered i r ?_)
      rw [← hsteps, List.getElem?_map, hi, Option.map_some, hstep]
    · intro hrequest
      rw [hfirst.ordinal?_eq hrequest, hsheltered.exposed_eq_zero, Nat.add_zero]

/-- Before it resolves, the lookup allocates on its own thread and waits for another one. -/
theorem bootstrapLaw_iff_sheltered_lookup :
    let plan : Plan :=
      ⟨[⟨4096, ⟨1, false⟩⟩], [.grow ⟨16, 8⟩, .growElsewhere ⟨0, 4⟩, .resolve]⟩
    let t : Taken := ⟨plan.lookup .inPlace, .grow ⟨0, 8⟩, .fresh, false⟩
    t ∈ plan.outer .inPlace [.grow ⟨0, 8⟩] .fresh ∧ t.lookingUp?.isSome ∧
      (BootstrapLaw plan .inPlace t ↔ Sheltered plan.during) ∧ t.ordinal? = some 2 := by
  intro plan t
  have ht : t ∈ plan.outer .inPlace [.grow ⟨0, 8⟩] .fresh := List.mem_cons_self
  have hlooking : t.lookingUp?.isSome := rfl
  obtain ⟨-, -, hordinal, hlaw⟩ := bootstrapLaw_iff ht hlooking
  exact ⟨ht, hlooking, hlaw, hordinal rfl⟩

/-- A lookup that resolves before it allocates: its own call is counted, and the call around it
comes second. -/
theorem bootstrapLaw_fails_after_resolve :
    let plan : Plan := ⟨[⟨4096, ⟨0, false⟩⟩], [.resolve, .grow ⟨16, 8⟩]⟩
    let t : Taken := ⟨plan.lookup .inPlace, .grow ⟨0, 8⟩, .fresh, false⟩
    t ∈ plan.outer .inPlace [.grow ⟨0, 8⟩] .fresh ∧ t.lookingUp?.isSome ∧
      t.ordinal? = some 2 ∧ ¬ BootstrapLaw plan .inPlace t := by
  intro plan t
  have hordinal : t.ordinal? = some 2 := rfl
  refine ⟨List.mem_cons_self, rfl, hordinal, ?_⟩
  intro hlaw
  have hfirst : t.ordinal? = some 1 := hlaw.2 rfl
  rw [hordinal] at hfirst
  exact absurd hfirst (by decide)

end GrowthFault.Script
