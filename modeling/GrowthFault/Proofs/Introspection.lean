import GrowthFault.Proofs.PublishedResolution

/-!
# Introspection

A script may ask for the resolution, for what is published, and for the count.  The last two leave
everything as it is, and asking for the resolution settles it, which the next growth call would have
done first.  So a script with such questions is at each growth call where it is without them, or
there and resolved already: no growth call comes to anything else, and the log and the count are the
same.
-/

namespace GrowthFault

namespace Process

variable {ω : Type} {lookup : Lookup ω} {p : Process ω}

/-- A process that has resolved keeps to it. -/
theorem resolve_resolve (hphase : p.interposer.phase ≠ .resolving) :
    (p.resolve lookup).2.resolve lookup = p.resolve lookup := by
  cases hp : p.interposer.phase with
  | unresolved =>
      rw [resolve_of_unresolved lookup hp]
      exact resolve_of_ready lookup rfl
  | resolving => exact absurd hp hphase
  | ready => rw [resolve_of_ready lookup hp, resolve_of_ready lookup hp]

/-- A call begins by resolving, so one before it makes no difference. -/
theorem route_resolve (hphase : p.interposer.phase ≠ .resolving) (hlooking : p.looking = false) :
    (p.resolve lookup).2.route lookup = p.route lookup := by
  rw [route_of_not_looking lookup (looking_resolve lookup hlooking),
    route_of_not_looking lookup hlooking, resolve_resolve hphase]

end Process

namespace Script

def Step.grows (step : Step) : Bool := step.request?.isSome

/-- What is told of a step. -/
structure Told where
  step : Step
  nested : Bool
  ordinal : Option Nat
  answer : Answer
  events : List Event
  /-- The count after the step. -/
  calls : Nat
  deriving DecidableEq, Repr

def Taken.told (allocators : Allocators) (t : Taken) : Told where
  step := t.step
  nested := t.nested
  ordinal := t.ordinal?
  answer := t.answer allocators
  events := t.own allocators
  calls := (t.finish allocators).interposer.calls

/-- What is told of the growth calls of a run, and of all steps inside its lookup. -/
def Plan.told (plan : Plan) (allocators : Allocators) (steps : List Step) (s : State) : List Told :=
  ((plan.taken allocators steps s).filter fun t => t.nested || t.step.grows).map
    (Taken.told allocators)

/-- The growth calls of a script, each with its answer and the count after it. -/
def Plan.growths (plan : Plan) (allocators : Allocators) (steps : List Step) (s : State) :
    List (Step × Answer × Nat) :=
  ((steps.zip (plan.runFrom allocators steps s)).filter fun x => x.1.grows).map fun x =>
    (x.1, x.2.answer, x.2.calls)

/-! ## One step -/

variable {plan : Plan} {allocators : Allocators} {s : State} {t : Taken}

theorem State.Between.not_resolving (hs : s.Between) : s.interposer.phase ≠ .resolving := by
  rcases hs.begun with hready | ⟨hunresolved, -, -⟩
  · rw [hready]
    exact nofun
  · rw [hunresolved]
    exact nofun

theorem State.Between.resolved (hs : s.Between) (lookup : Lookup Record) :
    State.Between (s.resolve lookup).2 where
  unmarked := s.looking_resolve lookup hs.unmarked
  begun := .inl (hs.resolve lookup)

theorem State.resolve_of_settled (hready : s.interposer.phase = .ready) (lookup : Lookup Record) :
    (s.resolve lookup).2 = s := by
  rw [s.resolve_of_ready lookup hready]

theorem Taken.inside_of_between (hbetween : t.start.Between) :
    plan.inside allocators t =
      if t.step.resolves then t.start.lookingUp?.elim [] (plan.within allocators) else [] := by
  unfold Plan.inside Taken.lookingUp?
  cases hstep : t.step with
  | grow q => simp [Step.resolves, hbetween.unmarked]
  | growElsewhere q | resolve => simp [Step.resolves, t.caller_eq hbetween]
  | peek | calls => rfl

theorem Taken.ready_finish (allocators : Allocators) (hgrows : t.step.grows)
    (hbetween : t.start.Between) : (t.finish allocators).interposer.phase = .ready := by
  obtain ⟨r, hr⟩ := Option.isSome_iff_exists.1 hgrows
  have hunmarked : t.caller.looking = false := by
    rw [t.caller_eq hbetween, hbetween.unmarked]
  rw [t.interposer_finish allocators hr hunmarked, t.caller_eq hbetween]
  exact hbetween.resolve t.lookup

/-- A growth call comes to the same after its thread has resolved. -/
theorem Taken.told_resolve (hgrows : t.step.grows) (hbetween : t.start.Between) :
    let u : Taken := { t with start := (t.start.resolve t.lookup).2 }
    u.told allocators = t.told allocators ∧ u.finish allocators = t.finish allocators := by
  intro u
  obtain ⟨r, hr⟩ := Option.isSome_iff_exists.1 hgrows
  have hu : u.step.request? = some r := hr
  have hresolved : u.start.Between := hbetween.resolved t.lookup
  have hcall : u.caller.route u.lookup = t.caller.route t.lookup := by
    rw [u.caller_eq hresolved, t.caller_eq hbetween]
    exact Process.route_resolve hbetween.not_resolving hbetween.unmarked
  have hroute : u.route = t.route := congrArg Prod.fst hcall
  have hfinish : u.finish allocators = t.finish allocators := by
    rw [u.finish_eq allocators hu, t.finish_eq allocators hr, hcall, hroute,
      hresolved.unmarked, hbetween.unmarked]
  refine ⟨?_, hfinish⟩
  rw [Taken.told, Taken.told, hfinish, u.answer_eq allocators hu, t.answer_eq allocators hr,
    u.own_eq allocators hu, t.own_eq allocators hr, Taken.ordinal?, Taken.ordinal?, hroute]

/-! ## Two runs -/

namespace Plan

variable {steps : List Step}

theorem nested_of_mem_nested {u : Taken} (hu : u ∈ plan.nested allocators steps s) : u.nested := by
  induction steps generalizing s with
  | nil => simp [nested] at hu
  | cons step steps ih =>
      rw [nested, List.mem_cons] at hu
      rcases hu with rfl | hu
      · rfl
      · exact ih hu

theorem nested_of_mem_inside {u : Taken} (hu : u ∈ plan.inside allocators t) : u.nested := by
  obtain ⟨s, hs⟩ := mem_nested_of_mem_inside hu
  exact nested_of_mem_nested hs

/-- What is told inside the lookup that resolving begins in a state. -/
def toldInside (plan : Plan) (allocators : Allocators) (s : State) : List Told :=
  (s.lookingUp?.elim [] (plan.within allocators)).map (Taken.told allocators)

theorem toldInside_of_ready (hready : s.interposer.phase = .ready) :
    plan.toldInside allocators s = [] := by
  simp [toldInside, Process.lookingUp?, hready]

theorem told_cons (hs : s.Between) (step : Step) (steps : List Step) :
    let t : Taken := ⟨plan.lookup allocators, step, s, false⟩
    plan.told allocators (step :: steps) s =
      (if step.resolves then plan.toldInside allocators s else []) ++
        ((if step.grows then [t.told allocators] else []) ++
          plan.told allocators steps (t.finish allocators)) := by
  intro t
  have hinside : plan.inside allocators t = _ := t.inside_of_between hs
  have hkept : (plan.inside allocators t).filter (fun u => u.nested || u.step.grows) =
      plan.inside allocators t := by
    apply List.filter_eq_self.2
    intro u hu
    rw [nested_of_mem_inside hu, Bool.true_or]
  have htaken : plan.taken allocators (step :: steps) s =
      plan.inside allocators t ++ [t] ++ plan.taken allocators steps (t.finish allocators) := rfl
  have hown : ([t].filter fun u => u.nested || u.step.grows).map (Taken.told allocators) =
      if step.grows then [t.told allocators] else [] := by
    cases hgrows : step.grows <;> simp [t, hgrows]
  rw [told, htaken, List.filter_append, List.filter_append, hkept, List.map_append,
    List.map_append, hown, hinside, List.append_assoc, told, toldInside]
  cases step.resolves <;> rfl

theorem told_cons_grows {step : Step} (hgrows : step.grows) (hs : s.Between) (steps : List Step) :
    let t : Taken := ⟨plan.lookup allocators, step, s, false⟩
    plan.told allocators (step :: steps) s =
      plan.toldInside allocators s ++
        t.told allocators :: plan.told allocators steps (t.finish allocators) := by
  intro t
  have hresolves : step.resolves = true := by
    cases step with
    | grow q | growElsewhere q | resolve => rfl
    | peek | calls => cases hgrows
  rw [told_cons hs, if_pos hresolves, if_pos hgrows]
  rfl

/-- A run that comes after `earlier` tells what another run tells, and ends in the same state. -/
structure Agree (plan : Plan) (allocators : Allocators) (earlier : List Told) (steps : List Step)
    (s : State) (others : List Step) (s' : State) : Prop where
  told : earlier ++ plan.told allocators steps s = plan.told allocators others s'
  final : plan.final allocators steps s = plan.final allocators others s'

variable {earlier : List Told} {others : List Step} {s' : State}

theorem Agree.refl (plan : Plan) (allocators : Allocators) (steps : List Step) (s : State) :
    plan.Agree allocators [] steps s steps s :=
  ⟨rfl, rfl⟩

/-- A step that neither resolves nor grows can be left out. -/
theorem Agree.cons_idle {step : Step} (h : plan.Agree allocators earlier steps s others s')
    (hs : s.Between) (hresolves : step.resolves = false) :
    plan.Agree allocators earlier (step :: steps) s others s' := by
  cases step with
  | grow q | growElsewhere q | resolve => cases hresolves
  | peek | calls =>
      constructor
      · rw [told_cons hs]
        exact h.told
      · exact h.final

/-- Resolving brings what is told inside its lookup forward. -/
theorem Agree.cons_resolve
    (h : plan.Agree allocators (earlier ++ plan.toldInside allocators s) steps
      (s.resolve (plan.lookup allocators)).2 others s') (hs : s.Between) :
    plan.Agree allocators earlier (.resolve :: steps) s others s' where
  told := by
    rw [told_cons hs, ← h.told, List.append_assoc]
    rfl
  final := h.final

/-- A growth call that both runs take, in a state and in that state resolved. -/
theorem Agree.cons_grows {step : Step} (hgrows : step.grows) (hs : s.Between)
    (h : plan.Agree allocators [] steps (s.take allocators (plan.lookup allocators) step).2
      others (s.take allocators (plan.lookup allocators) step).2) :
    plan.Agree allocators [] (step :: steps) s (step :: others) s ∧
      plan.Agree allocators (plan.toldInside allocators s) (step :: steps)
        (s.resolve (plan.lookup allocators)).2 (step :: others) s := by
  let t : Taken := ⟨plan.lookup allocators, step, s, false⟩
  let u : Taken := { t with start := (s.resolve (plan.lookup allocators)).2 }
  have hsame : plan.told allocators steps (t.finish allocators) =
      plan.told allocators others (t.finish allocators) := h.told
  obtain ⟨htold, hfinish⟩ : u.told allocators = t.told allocators ∧
      u.finish allocators = t.finish allocators := t.told_resolve hgrows hs
  constructor
  · constructor
    · rw [List.nil_append, told_cons_grows hgrows hs, told_cons_grows hgrows hs, hsame]
    · exact h.final
  · have hresolved := hs.resolved (plan.lookup allocators)
    have hready := hs.resolve (plan.lookup allocators)
    constructor
    · rw [told_cons_grows hgrows hresolved, told_cons_grows hgrows hs, toldInside_of_ready hready,
        List.nil_append]
      change _ ++ u.told allocators :: plan.told allocators steps (u.finish allocators) = _
      rw [htold, hfinish, hsame]
    · change plan.final allocators steps (u.finish allocators) = _
      rw [hfinish]
      exact h.final

/-- Leaving out all steps but the growth calls changes nothing, also if the state was resolved
before. -/
theorem agree_filter (hs : s.Between)
    (hsettles : s.interposer.phase = .ready ∨ ∃ step ∈ steps, step.grows) :
    plan.Agree allocators [] steps s (steps.filter Step.grows) s ∧
      plan.Agree allocators (plan.toldInside allocators s) steps
        (s.resolve (plan.lookup allocators)).2 (steps.filter Step.grows) s := by
  -- The longer run is in the state of the other one, or in that state resolved, with what is told
  -- inside the lookup behind it; at the first growth call that both take the states are one.
  induction steps generalizing s with
  | nil =>
      have hready : s.interposer.phase = .ready := by simpa using hsettles
      rw [State.resolve_of_settled hready, toldInside_of_ready hready]
      exact ⟨.refl plan allocators [] s, .refl plan allocators [] s⟩
  | cons step steps ih =>
      cases hgrows : step.grows with
      | true =>
          let t : Taken := ⟨plan.lookup allocators, step, s, false⟩
          have hready := t.ready_finish allocators hgrows hs
          rw [List.filter_cons_of_pos hgrows]
          exact Agree.cons_grows hgrows hs (ih (t.between_finish allocators hs) (.inl hready)).1
      | false =>
          have hlater : s.interposer.phase = .ready ∨ ∃ step ∈ steps, step.grows := by
            simpa [hgrows] using hsettles
          have hresolved := hs.resolved (plan.lookup allocators)
          obtain ⟨hsame, hahead⟩ := ih hs hlater
          rw [List.filter_cons_of_neg (by simp [hgrows])]
          cases hresolves : step.resolves with
          | false => exact ⟨hsame.cons_idle hs hresolves, hahead.cons_idle hresolved hresolves⟩
          | true =>
              obtain rfl : step = .resolve := by
                cases step with
                | grow q | growElsewhere q => cases hgrows
                | resolve => rfl
                | peek | calls => cases hresolves
              refine ⟨hahead.cons_resolve hs, .cons_resolve ?_ hresolved⟩
              rw [toldInside_of_ready (hs.resolve _), List.append_nil,
                Process.resolve_resolve hs.not_resolving]
              exact hahead

/-! ## The answers of a run -/

theorem filter_toldInside (plan : Plan) (allocators : Allocators) (s : State) :
    (plan.toldInside allocators s).filter (fun t => !t.nested) = [] := by
  rw [List.filter_eq_nil_iff]
  intro told htold
  obtain ⟨u, hu, rfl⟩ := List.mem_map.1 htold
  have hinside : u ∈ plan.inside allocators ⟨plan.lookup allocators, .resolve, s, false⟩ := hu
  simp [Taken.told, nested_of_mem_inside hinside]

theorem growths_cons (step : Step) (steps : List Step) (s : State) :
    let t : Taken := ⟨plan.lookup allocators, step, s, false⟩
    plan.growths allocators (step :: steps) s =
      (if step.grows then [(step, t.answer allocators, (t.finish allocators).interposer.calls)]
        else []) ++ plan.growths allocators steps (t.finish allocators) := by
  intro t
  have hrun : plan.runFrom allocators (step :: steps) s =
      t.outcome allocators :: plan.runFrom allocators steps (t.finish allocators) := rfl
  rw [growths, hrun, List.zip_cons_cons, growths]
  cases hgrows : step.grows <;> simp [hgrows, Taken.outcome]

/-- The growth calls are those of which something is told, but not from inside the lookup. -/
theorem growths_eq (hs : s.Between) (steps : List Step) :
    plan.growths allocators steps s =
      ((plan.told allocators steps s).filter fun t => !t.nested).map fun t =>
        (t.step, t.answer, t.calls) := by
  induction steps generalizing s with
  | nil => rfl
  | cons step steps ih =>
      let t : Taken := ⟨plan.lookup allocators, step, s, false⟩
      have hinside : ((if step.resolves then plan.toldInside allocators s else []).filter
          fun t => !t.nested) = [] := by
        split
        · exact plan.filter_toldInside allocators s
        · rfl
      rw [growths_cons, ih (t.between_finish allocators hs), told_cons hs, List.filter_append,
        hinside, List.nil_append, List.filter_append, List.map_append]
      cases step.grows <;> rfl

/-- The questions of a script change nothing for its growth calls, if it has any: they and the steps
inside the lookup have the same ordinals and answers, do the same, and leave the same count as
without the questions, in the same order.  The log is the same, and so is the state in the end. -/
theorem introspection_invisible (plan : Plan) (allocators : Allocators) (steps : List Step)
    (hgrows : ∃ step ∈ steps, step.grows) :
    let bare := steps.filter Step.grows
    plan.growths allocators steps .fresh = plan.growths allocators bare .fresh ∧
      plan.told allocators steps .fresh = plan.told allocators bare .fresh ∧
      (plan.run steps allocators).flatMap Outcome.events =
        (plan.run bare allocators).flatMap Outcome.events ∧
      plan.final allocators steps .fresh = plan.final allocators bare .fresh := by
  intro bare
  have hagree : plan.Agree allocators [] steps .fresh bare .fresh :=
    (agree_filter .fresh (.inr hgrows)).1
  have htold : plan.told allocators steps .fresh = plan.told allocators bare .fresh := hagree.told
  refine ⟨?_, htold, ?_, hagree.final⟩
  · rw [growths_eq .fresh, growths_eq .fresh, htold]
  · have hevents := congrArg (fun s : State => s.outside.events) hagree.final
    simp only [final_events] at hevents
    exact List.append_cancel_left hevents

/-- The first question settles the policy, which takes a lookup with a call of its own. -/
theorem introspection_invisible_early_resolve :
    let plan : Plan := ⟨[⟨4096, ⟨2, true⟩⟩], [.grow ⟨16, 8⟩, .growElsewhere ⟨0, 4⟩, .resolve]⟩
    let steps : List Step := [.peek, .resolve, .growElsewhere ⟨0, 8⟩, .calls, .grow ⟨16, 24⟩]
    let bare : List Step := [.growElsewhere ⟨0, 8⟩, .grow ⟨16, 24⟩]
    (∃ step ∈ steps, step.grows) ∧ steps.filter Step.grows = bare ∧
      plan.growths .inPlace steps .fresh = plan.growths .inPlace bare .fresh ∧
      plan.told .inPlace steps .fresh = plan.told .inPlace bare .fresh ∧
      (plan.final .inPlace steps .fresh).interposer.calls = 3 := by
  intro plan steps bare
  have hgrows : ∃ step ∈ steps, step.grows := ⟨.grow ⟨16, 24⟩, by simp [steps], rfl⟩
  have hbare : steps.filter Step.grows = bare := rfl
  have hcalls : (plan.final .inPlace steps .fresh).interposer.calls = 3 := rfl
  have hinvisible := introspection_invisible plan .inPlace steps hgrows
  rw [hbare] at hinvisible
  obtain ⟨hgrowths, htold, -, -⟩ := hinvisible
  exact ⟨hgrows, hbare, hgrowths, htold, hcalls⟩

end Plan

end Script

end GrowthFault
