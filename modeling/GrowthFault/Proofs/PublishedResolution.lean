import GrowthFault.Proofs.BootstrapCalls

/-!
# The published resolution

The first step of a script that resolves publishes what its lookup answers, once the lookup has
ended; until then nothing is published, whatever the steps inside the lookup do.  From then on the
interposer keeps to it: no step looks up again, and what a step comes to depends on the published
resolution and on the number of calls counted before it alone.
-/

namespace GrowthFault.Script

def Step.resolves : Step → Bool
  | .grow _ | .growElsewhere _ | .resolve => true
  | .peek | .calls => false

/-- What a step comes to under a resolution, after so many calls. -/
def Step.outcomeUnder (allocators : Allocators) (r : Resolution) (calls : Nat) : Step → Outcome
  | .grow q | .growElsewhere q =>
    ⟨.pointer (callAddress allocators q (r.route (calls + 1))),
      callEvents q (r.route (calls + 1)), calls + 1⟩
  | .resolve => ⟨.resolved r, [], calls⟩
  | .peek => ⟨.peeked (some r), [], calls⟩
  | .calls => ⟨.count calls, [], calls⟩

/-- A step during which nothing is published. -/
structure Taken.Unpublished (allocators : Allocators) (t : Taken) : Prop where
  start : t.start.interposer.peek? = none
  finish : (t.finish allocators).interposer.peek? = none
  peek : t.step = .peek → t.answer allocators = .peeked none

/-- A step that begins the first lookup and publishes its answer when it has ended.  The step
itself is decided by it, too. -/
structure Taken.Publishes (plan : Plan) (allocators : Allocators) (r : Resolution) (t : Taken) :
    Prop where
  start : t.start.interposer.peek? = none
  begins : t.lookingUp? = some t.start.begun
  inside : ∀ u ∈ plan.inside allocators t, u.Unpublished allocators
  looked : (plan.lookup allocators t.start.begun).1 = r ∧
    (plan.lookup allocators t.start.begun).2.interposer.peek? = none
  finish : (t.finish allocators).interposer.peek? = some r
  resolved : t.step = .resolve → t.answer allocators = .resolved r
  decided : ∀ q, t.step.request? = some q →
    t.route = r.route (t.finish allocators).interposer.calls

/-- A step that a published resolution decides: it begins no lookup. -/
structure Taken.Settled (plan : Plan) (allocators : Allocators) (r : Resolution) (t : Taken) :
    Prop where
  start : t.start.interposer.peek? = some r
  finish : (t.finish allocators).interposer.peek? = some r
  lookups : (t.finish allocators).outside.lookups = t.start.outside.lookups
  inside : plan.inside allocators t = []
  outcome : t.outcome allocators = t.step.outcomeUnder allocators r t.start.interposer.calls

/-! ## After the publication -/

/-- A state between the steps of a script in which a resolution is published. -/
structure State.Published (r : Resolution) (s : State) : Prop where
  unmarked : s.looking = false
  peek? : s.interposer.peek? = some r

section Published

variable {plan : Plan} {allocators : Allocators} {r : Resolution} {s : State} {t : Taken}

theorem State.Published.resolve (h : s.Published r) (lookup : Lookup Record) :
    s.resolve lookup = (r, s) := by
  simp [Process.resolve, h.peek?]

theorem State.Published.ready (h : s.Published r) : s.interposer.phase = .ready := by
  by_contra hphase
  have hnone := Interposer.peek?_eq_none_iff.2 hphase
  rw [h.peek?] at hnone
  cases hnone

theorem State.Published.between (h : s.Published r) : s.Between where
  unmarked := h.unmarked
  begun := .inl h.ready

theorem Taken.inside_of_published (h : t.start.Published r) : plan.inside allocators t = [] := by
  have hstart : t.start.lookingUp? = none := by simp [Process.lookingUp?, h.ready]
  have hnone : t.lookingUp? = none := by
    unfold Taken.lookingUp?
    cases hstep : t.step with
    | grow q => simp [h.unmarked, hstart]
    | growElsewhere q | resolve => simp [t.caller_eq h.between, hstart]
    | peek | calls => rfl
  simp [Plan.inside, hnone]

/-- A step under a published resolution: it stays published, nothing is looked up, and the outcome
is the one that the resolution decides. -/
theorem Taken.finish_of_published (allocators : Allocators) (h : t.start.Published r) :
    (t.finish allocators).Published r ∧
      (t.finish allocators).outside.lookups = t.start.outside.lookups ∧
      t.outcome allocators = t.step.outcomeUnder allocators r t.start.interposer.calls := by
  obtain ⟨lookup, step, start, nested⟩ := t
  have hmark : start.looking = false := h.unmarked
  have hmarked : { start with looking := false } = start := by rw [← hmark]
  have hresolve : start.resolve lookup = (r, start) := h.resolve lookup
  have hroute := start.route_of_not_looking lookup hmark
  rw [hresolve] at hroute
  have hgrow (q : Request) := State.grow_eq allocators lookup q start
  cases step with
  | grow q =>
      simp only [Taken.finish, Taken.outcome, Taken.answer, State.take, hgrow, hroute,
        Step.outcomeUnder]
      refine ⟨⟨hmark, h.peek?⟩, rfl, ?_⟩
      simp [State.logAll, Interposer.calls, Counter.next]
  | growElsewhere q =>
      simp only [Taken.finish, Taken.outcome, Taken.answer, State.take, State.growElsewhere,
        hmarked, hgrow, hroute, Step.outcomeUnder]
      refine ⟨⟨hmark, h.peek?⟩, rfl, ?_⟩
      simp [State.logAll, Interposer.calls, Counter.next]
  | resolve =>
      simp only [Taken.finish, Taken.outcome, Taken.answer, State.take, hresolve,
        Step.outcomeUnder]
      exact ⟨h, trivial, by simp⟩
  | peek =>
      have hpeek : start.interposer.peek? = some r := h.peek?
      refine ⟨h, rfl, ?_⟩
      simp [Taken.outcome, Taken.answer, Taken.finish, State.take, hpeek, Step.outcomeUnder]
  | calls =>
      refine ⟨h, rfl, ?_⟩
      simp [Taken.outcome, Taken.answer, Taken.finish, State.take, Step.outcomeUnder]

theorem Taken.settled_of_published (h : t.start.Published r) : t.Settled plan allocators r := by
  obtain ⟨hfinish, hlookups, houtcome⟩ := t.finish_of_published allocators h
  exact ⟨h.peek?, hfinish.peek?, hlookups, t.inside_of_published h, houtcome⟩

end Published

/-! ## The step that publishes -/

section Publishes

variable {plan : Plan} {allocators : Allocators} {s : State} {t : Taken}

theorem peek?_of_resolving (hphase : s.interposer.phase = .resolving) :
    s.interposer.peek? = none := by
  rw [Interposer.peek?_eq_none_iff, hphase]
  exact Phase.noConfusion

/-- Whatever a step inside the first lookup resolves stays with it. -/
theorem Taken.unpublished_of_resolving (hlookup : t.lookup = plan.plainLookup)
    (hphase : t.start.interposer.phase = .resolving) : t.Unpublished allocators := by
  obtain ⟨lookup, step, start, nested⟩ := t
  obtain rfl : lookup = plan.plainLookup := hlookup
  obtain ⟨hfinish, -, -⟩ := plan.finish_nested allocators step nested hphase
  refine ⟨peek?_of_resolving hphase, peek?_of_resolving hfinish, ?_⟩
  intro hstep
  obtain rfl : step = .peek := hstep
  exact congrArg Answer.peeked (peek?_of_resolving hphase)

theorem Taken.First.unpublished_inside (hfirst : t.First plan allocators) {u : Taken}
    (hu : u ∈ plan.inside allocators t) : u.Unpublished allocators := by
  have hphase : (plan.plainLookup t.start.begun).2.interposer.phase = .resolving := rfl
  rw [hfirst.inside_eq] at hu
  obtain ⟨i, hi⟩ := List.mem_iff_getElem?.1 hu
  obtain ⟨hlookup, -, hresolving, -⟩ := plan.start_of_getElem?_nested allocators hphase hi
  exact Taken.unpublished_of_resolving hlookup hresolving

theorem Taken.First.lookup_eq (hfirst : t.First plan allocators) :
    (plan.lookup allocators t.start.begun).1 = plan.answer 0 ∧
      (plan.lookup allocators t.start.begun).2.interposer.phase = .resolving := by
  have hphase : (plan.plainLookup t.start.begun).2.interposer.phase = .resolving := rfl
  have hlookups : t.start.begun.outside.lookups = 0 := hfirst.lookups
  constructor
  · exact congrArg plan.answer hlookups
  · simp only [Plan.lookup, hlookups, beq_self_eq_true, if_true]
    exact (plan.calls_takeNested allocators plan.during hphase).1

/-- Resolving in a step that begins the first lookup publishes the answer of that lookup. -/
theorem Taken.First.resolve_eq (hfirst : t.First plan allocators) :
    (t.start.resolve t.lookup).1 = plan.answer 0 ∧
      State.Published (plan.answer 0) (t.start.resolve t.lookup).2 := by
  obtain ⟨hanswer, -⟩ := hfirst.lookup_eq
  have hlookup : t.start.resolve t.lookup = t.start.resolve (plan.lookup allocators) := by
    rw [hfirst.lookup]
  rw [hlookup, t.start.resolve_of_unresolved _ hfirst.unresolved]
  have hfound : (Process.guarded (plan.lookup allocators)
      { t.start with interposer := { t.start.interposer with phase := .resolving } }).1 =
        plan.answer 0 := hanswer
  refine ⟨hfound, rfl, ?_⟩
  rw [Interposer.peek?_publish, hfound]

theorem Taken.First.published_finish (hfirst : t.First plan allocators) :
    (t.finish allocators).Published (plan.answer 0) := by
  obtain ⟨-, hpublished⟩ := hfirst.resolve_eq
  have hbetween := t.between_finish allocators hfirst.between
  refine ⟨hbetween.unmarked, ?_⟩
  have hgrowth {q : Request} (hr : t.step.request? = some q) :
      (t.finish allocators).interposer.peek? = some (plan.answer 0) := by
    have hmark : t.caller.looking = false := by
      rw [t.caller_eq hfirst.between, hfirst.between.unmarked]
    rw [t.interposer_finish allocators hr hmark, t.caller_eq hfirst.between]
    exact hpublished.peek?
  have hbegins := hfirst.begins
  obtain ⟨lookup, step, start, nested⟩ := t
  cases step with
  | grow q | growElsewhere q => exact hgrowth rfl
  | resolve => exact hpublished.peek?
  | peek | calls => cases hbegins

theorem Taken.First.publishes (hfirst : t.First plan allocators) :
    t.Publishes plan allocators (plan.answer 0) where
  start := by
    rw [Interposer.peek?_eq_none_iff, hfirst.unresolved]
    exact Phase.noConfusion
  begins := hfirst.begins
  inside _ hu := hfirst.unpublished_inside hu
  looked := ⟨hfirst.lookup_eq.1, peek?_of_resolving hfirst.lookup_eq.2⟩
  finish := hfirst.published_finish.peek?
  resolved := by
    intro hstep
    have hanswer : t.answer allocators = .resolved (t.start.resolve t.lookup).1 := by
      simp [Taken.answer, State.take, hstep]
    rw [hanswer, hfirst.resolve_eq.1]
  decided := by
    intro q hr
    have hmark : t.caller.looking = false := by
      rw [t.caller_eq hfirst.between, hfirst.between.unmarked]
    rw [t.route_of_not_looking hmark, t.calls_finish allocators hr hmark,
      t.caller_eq hfirst.between, hfirst.resolve_eq.1]

end Publishes

/-! ## Whole scripts -/

namespace Plan

variable {plan : Plan} {allocators : Allocators} {r : Resolution} {s : State} {t : Taken}
  {steps : List Step} {i : Nat}

theorem settled_of_mem_outer (hs : s.Published r) (ht : t ∈ plan.outer allocators steps s) :
    t.Settled plan allocators r := by
  induction steps generalizing s with
  | nil => simp [outer] at ht
  | cons step steps ih =>
      rw [outer, List.mem_cons] at ht
      rcases ht with rfl | ht
      · exact Taken.settled_of_published hs
      · exact ih (Taken.finish_of_published allocators hs).1 ht

/-- A step that does not resolve leaves a fresh state as it is. -/
theorem unpublished_of_fresh {step : Step} (hstep : step.resolves = false) :
    let t : Taken := ⟨plan.lookup allocators, step, .fresh, false⟩
    t.finish allocators = .fresh ∧ t.Unpublished allocators := by
  intro t
  cases step with
  | grow q | growElsewhere q | resolve => cases hstep
  | peek => exact ⟨rfl, rfl, rfl, fun _ => rfl⟩
  | calls => exact ⟨rfl, rfl, rfl, Step.noConfusion⟩

theorem first_of_fresh {step : Step} (hstep : step.resolves = true) :
    Taken.First plan allocators ⟨plan.lookup allocators, step, .fresh, false⟩ where
  lookup := rfl
  between := .fresh
  unresolved := rfl
  lookups := rfl
  calls := rfl
  begins := by
    cases step with
    | grow q | growElsewhere q | resolve => rfl
    | peek | calls => cases hstep

theorem outer_phases (ht : (plan.outer allocators steps .fresh)[i]? = some t) :
    (i < steps.findIdx Step.resolves → t.Unpublished allocators) ∧
      (i = steps.findIdx Step.resolves → t.Publishes plan allocators (plan.answer 0)) ∧
      (steps.findIdx Step.resolves < i → t.Settled plan allocators (plan.answer 0)) := by
  induction steps generalizing i with
  | nil => simp [outer] at ht
  | cons step steps ih =>
      let first : Taken := ⟨plan.lookup allocators, step, .fresh, false⟩
      have houter : plan.outer allocators (step :: steps) .fresh =
          first :: plan.outer allocators steps (first.finish allocators) := rfl
      rw [houter] at ht
      rw [List.findIdx_cons]
      cases hresolves : step.resolves with
      | true =>
          have hfirst : first.First plan allocators := first_of_fresh hresolves
          cases i with
          | zero =>
              obtain rfl : first = t := by simpa using ht
              simpa using hfirst.publishes
          | succ i =>
              have hlater : t ∈ plan.outer allocators steps (first.finish allocators) :=
                List.mem_of_getElem? (by simpa using ht)
              simpa using settled_of_mem_outer hfirst.published_finish hlater
      | false =>
          have hfirst : first.finish allocators = .fresh ∧ first.Unpublished allocators :=
            unpublished_of_fresh hresolves
          obtain ⟨hfresh, hunpublished⟩ := hfirst
          cases i with
          | zero =>
              obtain rfl : first = t := by simpa using ht
              simpa using hunpublished
          | succ i =>
              rw [List.getElem?_cons_succ, hfresh] at ht
              simpa using ih ht

/-- The resolution is published once and does not change, whatever the lookups answer and whatever
the first one does meanwhile.  Up to the first step that resolves, and inside its lookup, nothing is
published; that step publishes what the first lookup answers; and every later step leaves it
published, looks nothing up, and is decided by it. -/
theorem resolution_published_once (plan : Plan) (allocators : Allocators) (steps : List Step) :
    plan.run steps allocators =
        (plan.outer allocators steps .fresh).map (Taken.outcome allocators) ∧
      ∀ i t, (plan.outer allocators steps .fresh)[i]? = some t →
        (i < steps.findIdx Step.resolves → t.Unpublished allocators) ∧
          (i = steps.findIdx Step.resolves → t.Publishes plan allocators (plan.answer 0)) ∧
          (steps.findIdx Step.resolves < i → t.Settled plan allocators (plan.answer 0)) :=
  ⟨plan.runFrom_eq allocators steps .fresh, fun _ _ ht => outer_phases ht⟩

end Plan

end GrowthFault.Script
