import GrowthFault.Interposer.Basic

/-!
# Scripts

A script drives a fresh interposer: a list of steps taken one after the other, the answers of
the successive lookups, and steps that the first lookup takes before it answers.  A step may run
on another thread, which is not inside any lookup.  Every event is recorded in order.
-/

namespace GrowthFault.Script

/-- The arguments of a growth call: an address, zero for null, and a size. -/
structure Request where
  pointer : Nat
  size : Nat
  deriving DecidableEq, Repr

inductive Step where
  | grow (request : Request)
  /-- The same on a thread of its own, which then ends. -/
  | growElsewhere (request : Request)
  | resolve
  | peek
  | calls
  deriving DecidableEq, Repr

inductive Answer where
  | pointer (address : Nat)
  | resolved (r : Resolution)
  | peeked (r : Option Resolution)
  | count (n : Nat)
  deriving DecidableEq, Repr

inductive Event where
  /-- A lookup begins; they are numbered from zero. -/
  | lookup (number : Nat)
  /-- A step that a lookup took was answered. -/
  | nested (answer : Answer)
  | real (target : Nat) (request : Request)
  | bootstrap (request : Request)
  | report (ordinal size : Nat)
  deriving DecidableEq, Repr

structure Record where
  lookups : Nat := 0
  events : List Event := []
  deriving DecidableEq, Repr

abbrev State := Process Record

def State.fresh : State := { outside := {} }

def State.log (s : State) (e : Event) : State :=
  { s with outside := { s.outside with events := s.outside.events ++ [e] } }

def realAddress : Nat := 4096

def bootstrapAddress : Nat := 8192

/-- The address answered for a request: its own, or the given one for null. -/
def Request.answer (r : Request) (fresh : Nat) : Nat :=
  if r.pointer = 0 then fresh else r.pointer

/-- The allocators that a call may reach: those that resolutions name, by their address, and
the bootstrap allocator. -/
structure Allocators where
  real : (target : Nat) → Request → Nat
  bootstrap : Request → Nat

def Allocators.inPlace : Allocators where
  real _ r := r.answer realAddress
  bootstrap r := r.answer bootstrapAddress

def State.grow (allocators : Allocators) (lookup : Lookup Record) (r : Request) (s : State) :
    Nat × State :=
  match s.route lookup with
  | (.bootstrap, s) => (allocators.bootstrap r, State.log s (.bootstrap r))
  | (.forward _ target, s) => (allocators.real target r, State.log s (.real target r))
  | (.fail ordinal true, s) => (0, State.log s (.report ordinal r.size))
  | (.fail _ false, s) => (0, s)

def State.growElsewhere (allocators : Allocators) (lookup : Lookup Record) (r : Request)
    (s : State) : Nat × State :=
  let (address, t) := State.grow allocators lookup r { s with looking := false }
  (address, { t with looking := s.looking })

def State.take (allocators : Allocators) (lookup : Lookup Record) (step : Step) (s : State) :
    Answer × State :=
  match step with
  | .grow r => let (address, s) := s.grow allocators lookup r; (.pointer address, s)
  | .growElsewhere r =>
    let (address, s) := s.growElsewhere allocators lookup r
    (.pointer address, s)
  | .resolve => let (r, s) := s.resolve lookup; (.resolved r, s)
  | .peek => (.peeked s.interposer.peek?, s)
  | .calls => (.count s.interposer.calls, s)

/-- What the successive lookups answer, the last answer over and over, and the steps that the
first lookup takes. -/
structure Plan where
  answers : List Resolution
  during : List Step
  deriving DecidableEq, Repr

def Plan.answer (plan : Plan) (number : Nat) : Resolution :=
  (plan.answers[min number (plan.answers.length - 1)]?).getD ⟨0, default⟩

def Plan.plainLookup (plan : Plan) : Lookup Record := fun (s : State) =>
  let number := s.outside.lookups
  let s := s.log (.lookup number)
  (plan.answer number, { s with outside := { s.outside with lookups := number + 1 } })

def Plan.takeNested (plan : Plan) (allocators : Allocators) : List Step → State → State
  | [], s => s
  | step :: steps, s =>
    let (answer, s) := s.take allocators plan.plainLookup step
    plan.takeNested allocators steps (s.log (.nested answer))

/-- A lookup; the first one takes its steps before it answers. -/
def Plan.lookup (plan : Plan) (allocators : Allocators) : Lookup Record := fun (s : State) =>
  let first := s.outside.lookups == 0
  let (r, s) := plan.plainLookup s
  (r, if first then plan.takeNested allocators plan.during s else s)

/-- The answer to a step, what happened during it, and the calls counted after it. -/
structure Outcome where
  answer : Answer
  events : List Event
  calls : Nat
  deriving DecidableEq, Repr

def Plan.runFrom (plan : Plan) (allocators : Allocators) : List Step → State → List Outcome
  | [], _ => []
  | step :: steps, s =>
    let (answer, t) := s.take allocators (plan.lookup allocators) step
    ⟨answer, t.outside.events.drop s.outside.events.length, t.interposer.calls⟩ ::
      plan.runFrom allocators steps t

def Plan.run (plan : Plan) (steps : List Step) (allocators : Allocators := .inPlace) :
    List Outcome :=
  plan.runFrom allocators steps State.fresh

end GrowthFault.Script
