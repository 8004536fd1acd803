import GrowthFault.Interposer.Script
import Mathlib.Data.List.Range

/-!
# The steps of a script's run

A run takes its steps one after the other, and the first lookup takes further ones before it
answers.  Here a run is spread out into the steps it takes, each with the lookup it may use and
the state in which it begins; a step comes after those that were taken inside its lookup.

What a stretch of a run adds to the count and to the log is stated as `Accounts`, which holds of
one step, of the steps inside a lookup and so of whole runs.
-/

namespace GrowthFault.Script

def Step.request? : Step → Option Request
  | .grow r | .growElsewhere r => some r
  | _ => none

/-- Whether an event comes from a step: all do but those that say that a lookup begins. -/
def Event.ofStep : Event → Bool
  | .lookup _ => false
  | _ => true

/-- A step that a run takes, on its own or inside a lookup. -/
structure Taken where
  lookup : Lookup Record
  step : Step
  start : State
  nested : Bool := false

namespace Taken

/-- What the thread that takes the step sees: one of its own is inside no lookup. -/
def caller (t : Taken) : State :=
  match t.step with
  | .growElsewhere _ => { t.start with looking := false }
  | _ => t.start

def answer (allocators : Allocators) (t : Taken) : Answer :=
  (t.start.take allocators t.lookup t.step).1

def finish (allocators : Allocators) (t : Taken) : State :=
  (t.start.take allocators t.lookup t.step).2

def route (t : Taken) : Route :=
  (t.caller.route t.lookup).1

/-- The ordinal of a growth call, if it was counted. -/
def ordinal? (t : Taken) : Option Nat :=
  t.step.request?.bind fun _ => t.route.ordinal?

def own (allocators : Allocators) (t : Taken) : List Event :=
  match t.step.request? with
  | some _ =>
    (t.finish allocators).outside.events.drop (t.caller.route t.lookup).2.outside.events.length
  | none => []

/-- What the step adds to the log, the events inside its lookup apart. -/
def logged (allocators : Allocators) (t : Taken) : List Event :=
  t.own allocators ++ if t.nested then [.nested (t.answer allocators)] else []

/-- Where the step begins a lookup, if it does. -/
def lookingUp? (t : Taken) : Option State :=
  match t.step with
  | .grow _ => if t.start.looking then none else t.start.lookingUp?
  | .growElsewhere _ | .resolve => t.caller.lookingUp?
  | .peek | .calls => none

def outcome (allocators : Allocators) (t : Taken) : Outcome :=
  ⟨t.answer allocators,
    (t.finish allocators).outside.events.drop t.start.outside.events.length,
    (t.finish allocators).interposer.calls⟩

end Taken

namespace Plan

def nested (plan : Plan) (allocators : Allocators) : List Step → State → List Taken
  | [], _ => []
  | step :: steps, s =>
    let t : Taken := ⟨plan.plainLookup, step, s, true⟩
    t :: plan.nested allocators steps
      ((t.finish allocators).log (.nested (t.answer allocators)))

/-- The steps inside a lookup that begins in a state: only the first lookup takes any. -/
def within (plan : Plan) (allocators : Allocators) (s : State) : List Taken :=
  if s.outside.lookups = 0 then
    plan.nested allocators plan.during (plan.plainLookup s).2
  else []

/-- The steps inside the lookup of a step. -/
def inside (plan : Plan) (allocators : Allocators) (t : Taken) : List Taken :=
  t.lookingUp?.elim [] (plan.within allocators)

/-- The steps of the script itself. -/
def outer (plan : Plan) (allocators : Allocators) : List Step → State → List Taken
  | [], _ => []
  | step :: steps, s =>
    let t : Taken := ⟨plan.lookup allocators, step, s, false⟩
    t :: plan.outer allocators steps (t.finish allocators)

/-- All steps of a run, in the order in which they are answered. -/
def taken (plan : Plan) (allocators : Allocators) (steps : List Step) (s : State) : List Taken :=
  (plan.outer allocators steps s).flatMap fun t => plan.inside allocators t ++ [t]

def final (plan : Plan) (allocators : Allocators) (steps : List Step) (s : State) : State :=
  steps.foldl (fun s step => (s.take allocators (plan.lookup allocators) step).2) s

/-- The resolution that a call uses: the published one, or that of its own lookup. -/
def used (plan : Plan) (s : State) : Resolution :=
  s.interposer.peek?.getD (plan.answer s.outside.lookups)

end Plan

/-! ## One growth call -/

def callEvents (r : Request) : Route → List Event
  | .bootstrap => [.bootstrap r]
  | .forward _ target => [.real target r]
  | .fail ordinal true => [.report ordinal r.size]
  | .fail _ false => []

def callAddress (allocators : Allocators) (r : Request) : Route → Nat
  | .bootstrap => allocators.bootstrap r
  | .forward _ target => allocators.real target r
  | .fail _ _ => 0

def State.logAll (s : State) (events : List Event) : State :=
  { s with outside := { s.outside with events := s.outside.events ++ events } }

theorem State.grow_eq (allocators : Allocators) (lookup : Lookup Record) (r : Request)
    (s : State) :
    s.grow allocators lookup r =
      (callAddress allocators r (s.route lookup).1,
        State.logAll (s.route lookup).2 (callEvents r (s.route lookup).1)) := by
  unfold State.grow
  rcases hroute : s.route lookup with ⟨route, t⟩
  cases route with
  | bootstrap => rfl
  | forward ordinal target => rfl
  | fail ordinal reported =>
      cases reported with
      | true => rfl
      | false => simp [callAddress, callEvents, State.logAll]

namespace Taken

variable {allocators : Allocators} {t : Taken} {r : Request}

theorem caller_outside (t : Taken) : t.caller.outside = t.start.outside := by
  unfold caller
  cases t.step <;> rfl

theorem caller_interposer (t : Taken) : t.caller.interposer = t.start.interposer := by
  unfold caller
  cases t.step <;> rfl

theorem answer_eq (allocators : Allocators) (hr : t.step.request? = some r) :
    t.answer allocators = .pointer (callAddress allocators r t.route) := by
  obtain ⟨lookup, step, start, nested⟩ := t
  cases step with
  | grow q | growElsewhere q =>
      obtain rfl : q = r := by simpa [Step.request?] using hr
      simp [answer, State.take, State.growElsewhere, State.grow_eq, route, caller]
  | resolve | peek | calls => simp [Step.request?] at hr

theorem finish_eq (allocators : Allocators) (hr : t.step.request? = some r) :
    t.finish allocators =
      { (State.logAll (t.caller.route t.lookup).2 (callEvents r t.route)) with
        looking := (match t.step with
          | .growElsewhere _ => t.start.looking
          | _ => (t.caller.route t.lookup).2.looking) } := by
  obtain ⟨lookup, step, start, nested⟩ := t
  cases step with
  | grow q | growElsewhere q =>
      obtain rfl : q = r := by simpa [Step.request?] using hr
      simp [finish, State.take, State.growElsewhere, State.grow_eq, route, caller,
        State.logAll]
  | resolve | peek | calls => simp [Step.request?] at hr

theorem own_eq (allocators : Allocators) (hr : t.step.request? = some r) :
    t.own allocators = callEvents r t.route := by
  simp [own, hr, finish_eq allocators hr, State.logAll]

/-! A call of a marked thread leaves the interposer. -/

theorem route_of_looking (hlooking : t.caller.looking = true) : t.route = .bootstrap := by
  simp [route, Process.route_of_looking t.lookup hlooking]

theorem ordinal?_of_looking (hlooking : t.caller.looking = true) : t.ordinal? = none := by
  unfold ordinal?
  rw [route_of_looking hlooking]
  cases t.step.request? <;> rfl

theorem finish_of_looking (allocators : Allocators) (hr : t.step.request? = some r)
    (hlooking : t.caller.looking = true) :
    t.finish allocators = State.logAll t.start [.bootstrap r] := by
  rw [finish_eq allocators hr, route_of_looking hlooking,
    Process.route_of_looking t.lookup hlooking]
  obtain ⟨lookup, step, start, nested⟩ := t
  cases step <;> rfl

/-! A call of an unmarked thread resolves, and claims the next ordinal. -/

theorem route_of_not_looking (hlooking : t.caller.looking = false) :
    t.route = (t.caller.resolve t.lookup).1.route
      ((t.caller.resolve t.lookup).2.interposer.calls + 1) := by
  simp [route, Process.route_of_not_looking t.lookup hlooking]

theorem ordinal?_of_not_looking (hr : t.step.request? = some r)
    (hlooking : t.caller.looking = false) :
    t.ordinal? = some ((t.caller.resolve t.lookup).2.interposer.calls + 1) := by
  simp [ordinal?, hr, route_of_not_looking hlooking]

theorem interposer_finish (allocators : Allocators) (hr : t.step.request? = some r)
    (hlooking : t.caller.looking = false) :
    (t.finish allocators).interposer =
      { (t.caller.resolve t.lookup).2.interposer with
        counter := (t.caller.resolve t.lookup).2.interposer.counter.next.2 } := by
  rw [finish_eq allocators hr, Process.route_of_not_looking t.lookup hlooking]
  rfl

theorem calls_finish (allocators : Allocators) (hr : t.step.request? = some r)
    (hlooking : t.caller.looking = false) :
    (t.finish allocators).interposer.calls =
      (t.caller.resolve t.lookup).2.interposer.calls + 1 := by
  rw [interposer_finish allocators hr hlooking]
  rfl

theorem events_finish (allocators : Allocators) (hr : t.step.request? = some r)
    (hlooking : t.caller.looking = false) :
    (t.finish allocators).outside.events =
      (t.caller.resolve t.lookup).2.outside.events ++ callEvents r t.route := by
  rw [finish_eq allocators hr, Process.route_of_not_looking t.lookup hlooking]
  rfl

theorem looking_finish (allocators : Allocators) (hr : t.step.request? = some r) :
    (t.finish allocators).looking = t.start.looking := by
  cases hlooking : t.caller.looking with
  | true =>
      rw [finish_of_looking allocators hr hlooking]
      rfl
  | false =>
      have hresolve := Process.looking_resolve t.lookup hlooking
      rw [finish_eq allocators hr, Process.route_of_not_looking t.lookup hlooking]
      obtain ⟨lookup, step, start, nested⟩ := t
      cases step with
      | grow q => exact hresolve.trans hlooking.symm
      | growElsewhere q => rfl
      | resolve | peek | calls => simp [Step.request?] at hr

end Taken

/-! ## What a stretch of a run adds -/

/-- Between two states of a run the steps taken have claimed the ordinals of the calls counted,
in order, and the log has grown by what they add to it, in order. -/
structure Accounts (allocators : Allocators) (s t : State) (steps : List Taken) : Prop where
  calls_le : s.interposer.calls ≤ t.interposer.calls
  ordinals : steps.filterMap Taken.ordinal? =
    List.range' (s.interposer.calls + 1) (t.interposer.calls - s.interposer.calls)
  log : ∃ added, t.outside.events = s.outside.events ++ added ∧
    added.filter Event.ofStep = steps.flatMap (Taken.logged allocators)

namespace Accounts

variable {allocators : Allocators} {s t u : State} {xs ys : List Taken}

theorem of_quiet {added : List Event} (hcalls : t.interposer.calls = s.interposer.calls)
    (hevents : t.outside.events = s.outside.events ++ added)
    (hquiet : added.filter Event.ofStep = []) : Accounts allocators s t [] where
  calls_le := hcalls.ge
  ordinals := by simp [hcalls]
  log := ⟨added, hevents, hquiet⟩

theorem refl (s : State) : Accounts allocators s s [] :=
  of_quiet rfl (List.append_nil _).symm rfl

theorem append (hxs : Accounts allocators s t xs) (hys : Accounts allocators t u ys) :
    Accounts allocators s u (xs ++ ys) where
  calls_le := hxs.calls_le.trans hys.calls_le
  ordinals := by
    have hst := hxs.calls_le
    have htu := hys.calls_le
    have hend : t.interposer.calls + 1 =
        s.interposer.calls + 1 + (t.interposer.calls - s.interposer.calls) := by omega
    rw [List.filterMap_append, hxs.ordinals, hys.ordinals, hend, List.range'_append_1]
    congr 1
    omega
  log := by
    obtain ⟨xsAdded, hxsEvents, hxsLogged⟩ := hxs.log
    obtain ⟨ysAdded, hysEvents, hysLogged⟩ := hys.log
    refine ⟨xsAdded ++ ysAdded, ?_, ?_⟩
    · rw [hysEvents, hxsEvents, List.append_assoc]
    · rw [List.filter_append, hxsLogged, hysLogged, List.flatMap_append]

end Accounts

theorem filter_callEvents (r : Request) (route : Route) :
    (callEvents r route).filter Event.ofStep = callEvents r route := by
  cases route with
  | bootstrap => rfl
  | forward ordinal target => rfl
  | fail ordinal reported =>
      cases reported with
      | true => rfl
      | false => rfl

section Lookups

variable {allocators : Allocators} {lookup : Lookup Record} {inner : State → List Taken}

/-- Resolving adds what its lookup adds, if it begins one. -/
theorem accounts_resolve
    (hinner : ∀ s : State, Accounts allocators s (lookup s).2 (inner s)) (s : State) :
    Accounts allocators s (s.resolve lookup).2 (s.lookingUp?.elim [] inner) := by
  cases hphase : s.interposer.phase with
  | ready =>
      have hlooking : s.lookingUp? = none := by simp [Process.lookingUp?, hphase]
      rw [s.resolve_of_ready lookup hphase, hlooking]
      exact .refl s
  | resolving =>
      have hlooking : s.lookingUp? = some { s with looking := true } := by
        have hsame : { s.interposer with phase := .resolving } = s.interposer := by
          rw [← hphase]
        simp only [Process.lookingUp?, hphase, hsame]
      have hlookup := hinner { s with looking := true }
      rw [s.resolve_of_resolving lookup hphase, hlooking]
      exact ⟨hlookup.calls_le, hlookup.ordinals, hlookup.log⟩
  | unresolved =>
      let begun : State :=
        { s with interposer := { s.interposer with phase := .resolving }, looking := true }
      have hlooking : s.lookingUp? = some begun := by
        simp [Process.lookingUp?, hphase, begun]
      have hlookup := hinner begun
      rw [s.resolve_of_unresolved lookup hphase, hlooking]
      exact ⟨hlookup.calls_le, hlookup.ordinals, hlookup.log⟩

/-- A growth call that is inside no lookup: it resolves, claims the next ordinal, and then does
what its route says. -/
theorem Taken.accounts_counted (t : Taken) {r : Request}
    (hinner : ∀ s : State, Accounts allocators s (t.lookup s).2 (inner s))
    (hnested : t.nested = false) (hr : t.step.request? = some r)
    (hlooking : t.caller.looking = false) :
    Accounts allocators t.start (t.finish allocators)
      (t.caller.lookingUp?.elim [] inner ++ [t]) := by
  have hresolve : Accounts allocators t.start (t.caller.resolve t.lookup).2
      (t.caller.lookingUp?.elim [] inner) := by
    have h := accounts_resolve hinner t.caller
    exact ⟨t.caller_interposer ▸ h.calls_le, t.caller_interposer ▸ h.ordinals,
      t.caller_outside ▸ h.log⟩
  refine hresolve.append ⟨?_, ?_, _, t.events_finish allocators hr hlooking, ?_⟩
  · rw [t.calls_finish allocators hr hlooking]
    exact Nat.le_succ _
  · rw [t.calls_finish allocators hr hlooking]
    simp [t.ordinal?_of_not_looking hr hlooking]
  · simp [filter_callEvents, Taken.logged, hnested, t.own_eq allocators hr]

/-- A growth call from inside a lookup: it is not counted. -/
theorem Taken.accounts_bootstrap (t : Taken) {r : Request} (hnested : t.nested = false)
    (hr : t.step.request? = some r) (hlooking : t.caller.looking = true) :
    Accounts allocators t.start (t.finish allocators) [t] := by
  rw [t.finish_of_looking allocators hr hlooking]
  refine ⟨le_rfl, ?_, [.bootstrap r], rfl, ?_⟩
  · simp [t.ordinal?_of_looking hlooking, State.logAll]
  · simp [Taken.logged, hnested, t.own_eq allocators hr, t.route_of_looking hlooking,
      callEvents, Event.ofStep]

theorem Accounts.other {s : State} {t : Taken} (hnested : t.nested = false)
    (hr : t.step.request? = none) :
    Accounts allocators s s [t] where
  calls_le := le_rfl
  ordinals := by simp [Taken.ordinal?, hr]
  log := ⟨[], (List.append_nil _).symm, by simp [Taken.logged, Taken.own, hnested, hr]⟩

/-- One step adds what its lookup adds, and then its own. -/
theorem Taken.accounts {t : Taken}
    (hinner : ∀ s : State, Accounts allocators s (t.lookup s).2 (inner s))
    (hnested : t.nested = false) :
    Accounts allocators t.start (t.finish allocators)
      (t.lookingUp?.elim [] inner ++ [t]) := by
  obtain ⟨lookup, step, start, nested⟩ := t
  obtain rfl : nested = false := hnested
  cases step with
  | grow r =>
      cases hlooking : start.looking with
      | true =>
          have h : Accounts allocators start _ [⟨lookup, .grow r, start, false⟩] :=
            Taken.accounts_bootstrap ⟨lookup, .grow r, start, false⟩ rfl rfl hlooking
          simpa [Taken.lookingUp?, Taken.caller, hlooking] using h
      | false =>
          have h : Accounts allocators start _
              (start.lookingUp?.elim [] inner ++ [⟨lookup, .grow r, start, false⟩]) :=
            Taken.accounts_counted ⟨lookup, .grow r, start, false⟩ hinner rfl rfl hlooking
          simpa [Taken.lookingUp?, Taken.caller, hlooking] using h
  | growElsewhere r =>
      exact Taken.accounts_counted ⟨lookup, .growElsewhere r, start, false⟩ hinner rfl rfl rfl
  | resolve => exact (accounts_resolve hinner start).append (.other rfl rfl)
  | peek | calls => exact .other rfl rfl

theorem Accounts.note {s : State} {t : Taken} (hnested : t.nested = false)
    (h : Accounts allocators s (t.finish allocators) [t]) :
    Accounts allocators s ((t.finish allocators).log (.nested (t.answer allocators)))
      [{ t with nested := true }] where
  calls_le := h.calls_le
  ordinals := h.ordinals
  log := by
    obtain ⟨added, hevents, hlogged⟩ := h.log
    refine ⟨added ++ [.nested (t.answer allocators)], ?_, ?_⟩
    · simp [State.log, hevents]
    · have hown : added.filter Event.ofStep = t.own allocators := by
        simpa [Taken.logged, hnested] using hlogged
      rw [List.filter_append, hown, List.flatMap_singleton]
      rfl

end Lookups

/-! ## Whole runs -/

namespace Plan

section Accounts

variable (plan : Plan) (allocators : Allocators)

theorem accounts_plainLookup (s : State) :
    Accounts allocators s (plan.plainLookup s).2 [] :=
  .of_quiet rfl rfl rfl

theorem accounts_nested (steps : List Step) (s : State) :
    Accounts allocators s (plan.takeNested allocators steps s)
      (plan.nested allocators steps s) := by
  induction steps generalizing s with
  | nil => exact .refl s
  | cons step steps ih =>
      let t : Taken := ⟨plan.plainLookup, step, s, false⟩
      have hinner : ∀ s : State, Accounts allocators s (t.lookup s).2 [] :=
        plan.accounts_plainLookup allocators
      have hstep : Accounts allocators s (t.finish allocators) [t] := by
        have h := t.accounts hinner rfl
        cases hlooking : t.lookingUp? <;> simpa [hlooking] using h
      exact (hstep.note rfl).append (ih _)

theorem accounts_lookup (s : State) :
    Accounts allocators s (plan.lookup allocators s).2 (plan.within allocators s) := by
  unfold within lookup
  by_cases hfirst : s.outside.lookups = 0
  · simp only [hfirst, beq_self_eq_true, if_true]
    exact (plan.accounts_plainLookup allocators s).append
      (plan.accounts_nested allocators plan.during _)
  · simp only [hfirst, if_false, beq_eq_false_iff_ne.mpr hfirst, Bool.false_eq_true]
    exact plan.accounts_plainLookup allocators s

theorem accounts_outer (step : Step) (s : State) :
    let t : Taken := ⟨plan.lookup allocators, step, s, false⟩
    Accounts allocators s (t.finish allocators) (plan.inside allocators t ++ [t]) := by
  intro t
  exact t.accounts (plan.accounts_lookup allocators) rfl

/-- A whole run: its steps have claimed all ordinals and filled the log, in order. -/
theorem accounts_taken (steps : List Step) (s : State) :
    Accounts allocators s (plan.final allocators steps s)
      (plan.taken allocators steps s) := by
  induction steps generalizing s with
  | nil => exact .refl s
  | cons step steps ih => exact (plan.accounts_outer allocators step s).append (ih _)

theorem runFrom_eq (steps : List Step) (s : State) :
    plan.runFrom allocators steps s =
      (plan.outer allocators steps s).map (Taken.outcome allocators) := by
  induction steps generalizing s with
  | nil => rfl
  | cons step steps ih =>
      rw [outer, List.map_cons, ← ih]
      rfl

theorem final_events (steps : List Step) (s : State) :
    (plan.final allocators steps s).outside.events =
      s.outside.events ++ (plan.runFrom allocators steps s).flatMap Outcome.events := by
  induction steps generalizing s with
  | nil => simp [final, runFrom]
  | cons step steps ih =>
      let t : Taken := ⟨plan.lookup allocators, step, s, false⟩
      obtain ⟨added, hadded, -⟩ := (plan.accounts_outer allocators step s).log
      have hdrop : (t.finish allocators).outside.events.drop s.outside.events.length = added := by
        rw [hadded, List.drop_left]
      have hrun : plan.runFrom allocators (step :: steps) s =
          t.outcome allocators :: plan.runFrom allocators steps (t.finish allocators) := rfl
      have hfinal : plan.final allocators (step :: steps) s =
          plan.final allocators steps (t.finish allocators) := rfl
      rw [hfinal, ih, hrun, List.flatMap_cons, ← List.append_assoc]
      congr 1
      rw [hadded]
      exact congrArg (s.outside.events ++ ·) hdrop.symm

/-- What a script logs is what its steps add to the log, in order. -/
theorem filter_events_run (steps : List Step) :
    ((plan.run steps allocators).flatMap Outcome.events).filter Event.ofStep =
      (plan.taken allocators steps .fresh).flatMap (Taken.logged allocators) := by
  obtain ⟨added, hadded, hlogged⟩ := (plan.accounts_taken allocators steps .fresh).log
  rw [final_events] at hadded
  rw [← hlogged, ← List.append_cancel_left hadded]
  rfl

end Accounts

/-! ## Lookups and the resolutions they answer -/

variable {plan : Plan} {allocators : Allocators}

theorem lookup_eq_of_mem_outer {steps : List Step} {s : State} {t : Taken}
    (ht : t ∈ plan.outer allocators steps s) : t.lookup = plan.lookup allocators := by
  induction steps generalizing s with
  | nil => simp [outer] at ht
  | cons step steps ih =>
      rw [outer, List.mem_cons] at ht
      rcases ht with rfl | ht
      · rfl
      · exact ih ht

theorem lookup_eq_of_mem_nested {steps : List Step} {s : State} {t : Taken}
    (ht : t ∈ plan.nested allocators steps s) : t.lookup = plan.plainLookup := by
  induction steps generalizing s with
  | nil => simp [nested] at ht
  | cons step steps ih =>
      rw [nested, List.mem_cons] at ht
      rcases ht with rfl | ht
      · rfl
      · exact ih ht

theorem mem_nested_of_mem_inside {t u : Taken} (hu : u ∈ plan.inside allocators t) :
    ∃ s, u ∈ plan.nested allocators plan.during s := by
  unfold inside within at hu
  cases hlooking : t.lookingUp? with
  | none => simp [hlooking] at hu
  | some s =>
      simp only [hlooking, Option.elim_some] at hu
      split at hu
      next hfirst => exact ⟨_, hu⟩
      next hnot => simp at hu

theorem fst_lookup_of_mem_taken {steps : List Step} {s : State} {t : Taken}
    (ht : t ∈ plan.taken allocators steps s) (p : State) :
    (t.lookup p).1 = plan.answer p.outside.lookups := by
  obtain ⟨o, ho, ht⟩ := List.mem_flatMap.1 ht
  rcases List.mem_append.1 ht with ht | ht
  · obtain ⟨s, hs⟩ := mem_nested_of_mem_inside ht
    rw [lookup_eq_of_mem_nested hs]
    rfl
  · rw [List.mem_singleton.1 ht, lookup_eq_of_mem_outer ho]
    rfl

/-- A call uses the published resolution, or that of its own lookup. -/
theorem fst_resolve {lookup : Lookup Record}
    (hlookup : ∀ p : State, (lookup p).1 = plan.answer p.outside.lookups) (s : State) :
    (s.resolve lookup).1 = plan.used s := by
  unfold used
  cases hphase : s.interposer.phase with
  | ready => simp [s.resolve_of_ready lookup hphase, Interposer.peek?, hphase]
  | resolving =>
      simp [s.resolve_of_resolving lookup hphase, Interposer.peek?, hphase,
        Process.guarded, hlookup]
  | unresolved =>
      simp [s.resolve_of_unresolved lookup hphase, Interposer.peek?, hphase,
        Process.guarded, hlookup]

end Plan

end GrowthFault.Script
