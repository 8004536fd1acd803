import GrowthFault.Gate

/-!
# The interposed allocator call

A preloaded library stands before the allocator's `realloc`.  On first use it looks up the real
function and the policy, and publishes both field by field under a phase that moves from
unresolved through resolving to ready.  A call that finds another resolution going on looks up
for itself.  A lookup may allocate: a call from a thread that is inside a lookup goes to a
bootstrap allocator and is not counted.
-/

namespace GrowthFault

inductive Phase where
  | unresolved
  | resolving
  | ready
  deriving DecidableEq, Repr

/-- What a lookup finds: the allocator to forward to, by its address, and the policy. -/
structure Resolution where
  target : Nat
  policy : Policy
  deriving DecidableEq, Repr

/-- The state shared by all threads of a process. -/
structure Interposer where
  phase : Phase := .unresolved
  target : Nat := 0
  ordinal : UInt64 := 0
  trace : Bool := false
  counter : Counter := {}
  deriving DecidableEq, Repr

def Interposer.calls (i : Interposer) : Nat := i.counter.observed

def Interposer.peek? (i : Interposer) : Option Resolution :=
  match i.phase with
  | .ready => some ⟨i.target, ⟨i.ordinal, i.trace⟩⟩
  | _ => none

def Interposer.publish (i : Interposer) (r : Resolution) : Interposer :=
  { i with phase := .ready, target := r.target, ordinal := r.policy.ordinal,
           trace := r.policy.trace }

@[simp] theorem Interposer.peek?_publish (i : Interposer) (r : Resolution) :
    (i.publish r).peek? = some r := rfl

@[simp] theorem Interposer.calls_publish (i : Interposer) (r : Resolution) :
    (i.publish r).calls = i.calls := rfl

theorem Interposer.peek?_eq_none_iff {i : Interposer} : i.peek? = none ↔ i.phase ≠ .ready := by
  unfold peek?
  cases i.phase <;> simp

/-- The interposer as a running thread sees it: whether this thread is inside a lookup, and
what else a lookup can reach. -/
structure Process (ω : Type) where
  interposer : Interposer := {}
  looking : Bool := false
  outside : ω

/-- Looking up; it may itself use the interposer. -/
abbrev Lookup (ω : Type) := Process ω → Resolution × Process ω

/-- Look up with the thread marked; the mark is gone afterwards, also that of a lookup around
this one. -/
def Process.guarded {ω : Type} (lookup : Lookup ω) : Lookup ω := fun p =>
  let (r, p) := lookup { p with looking := true }
  (r, { p with looking := false })

/-- The resolution to use: the published one, or that of a lookup.  Only the lookup that finds
nothing begun publishes. -/
def Process.resolve {ω : Type} (lookup : Lookup ω) (p : Process ω) :
    Resolution × Process ω :=
  match p.interposer.peek? with
  | some r => (r, p)
  | none =>
    match p.interposer.phase with
    | .unresolved =>
      let begun := { p with interposer := { p.interposer with phase := .resolving } }
      let (r, p) := begun.guarded lookup
      (r, { p with interposer := p.interposer.publish r })
    | _ => p.guarded lookup

inductive Route where
  /-- To the bootstrap allocator, uncounted. -/
  | bootstrap
  | forward (ordinal target : Nat)
  /-- Nowhere: it is failed. -/
  | fail (ordinal : Nat) (reported : Bool)
  deriving DecidableEq, Repr

def Route.fails : Route → Bool
  | .fail _ _ => true
  | _ => false

def Route.ordinal? : Route → Option Nat
  | .bootstrap => none
  | .forward ordinal _ => some ordinal
  | .fail ordinal _ => some ordinal

def Resolution.route (r : Resolution) (ordinal : Nat) : Route :=
  match r.policy.verdict ordinal with
  | .forward => .forward ordinal r.target
  | .fail => .fail ordinal r.policy.trace

theorem Resolution.route_eq (r : Resolution) (ordinal : Nat) :
    r.route ordinal =
      if r.policy.ordinal ≠ 0 ∧ r.policy.ordinal.toNat = ordinal
      then .fail ordinal r.policy.trace else .forward ordinal r.target := by
  unfold Resolution.route Policy.verdict
  by_cases hfail : r.policy.ordinal ≠ 0 ∧ r.policy.ordinal.toNat = ordinal
  · rw [if_pos hfail, if_pos hfail]
  · rw [if_neg hfail, if_neg hfail]

@[simp] theorem Resolution.ordinal?_route (r : Resolution) (ordinal : Nat) :
    (r.route ordinal).ordinal? = some ordinal := by
  rw [Resolution.route_eq]
  split <;> rfl

def Process.route {ω : Type} (lookup : Lookup ω) (p : Process ω) : Route × Process ω :=
  if p.looking then (.bootstrap, p)
  else
    let (r, p) := p.resolve lookup
    let (ordinal, counter) := p.interposer.counter.next
    (r.route ordinal, { p with interposer := { p.interposer with counter } })

namespace Process

variable {ω : Type}

/-- Where resolving begins a lookup, unless a resolution is published. -/
def lookingUp? (p : Process ω) : Option (Process ω) :=
  match p.interposer.phase with
  | .ready => none
  | _ => some { p with interposer := { p.interposer with phase := .resolving }, looking := true }

theorem resolve_of_ready {p : Process ω} (lookup : Lookup ω)
    (hready : p.interposer.phase = .ready) :
    p.resolve lookup =
      (⟨p.interposer.target, ⟨p.interposer.ordinal, p.interposer.trace⟩⟩, p) := by
  simp [resolve, Interposer.peek?, hready]

theorem resolve_of_resolving {p : Process ω} (lookup : Lookup ω)
    (hresolving : p.interposer.phase = .resolving) :
    p.resolve lookup = p.guarded lookup := by
  simp [resolve, Interposer.peek?, hresolving]

theorem resolve_of_unresolved {p : Process ω} (lookup : Lookup ω)
    (hunresolved : p.interposer.phase = .unresolved) :
    p.resolve lookup =
      let q : Process ω := { p with interposer := { p.interposer with phase := .resolving } }
      ((q.guarded lookup).1, { (q.guarded lookup).2 with
        interposer := (q.guarded lookup).2.interposer.publish (q.guarded lookup).1 }) := by
  simp [resolve, Interposer.peek?, hunresolved]

theorem looking_resolve {p : Process ω} (lookup : Lookup ω) (hlooking : p.looking = false) :
    (p.resolve lookup).2.looking = false := by
  cases hphase : p.interposer.phase with
  | ready => rw [resolve_of_ready lookup hphase, hlooking]
  | resolving => rw [resolve_of_resolving lookup hphase]; rfl
  | unresolved => rw [resolve_of_unresolved lookup hphase]; rfl

theorem route_of_looking {p : Process ω} (lookup : Lookup ω) (hlooking : p.looking = true) :
    p.route lookup = (.bootstrap, p) := by
  simp [route, hlooking]

theorem route_of_not_looking {p : Process ω} (lookup : Lookup ω)
    (hlooking : p.looking = false) :
    p.route lookup =
      ((p.resolve lookup).1.route ((p.resolve lookup).2.interposer.calls + 1),
        { (p.resolve lookup).2 with
          interposer := { (p.resolve lookup).2.interposer with
            counter := (p.resolve lookup).2.interposer.counter.next.2 } }) := by
  simp [route, hlooking, Counter.next, Interposer.calls]

end Process

end GrowthFault
