import GrowthFault.Interposer.Basic

/-!
# Interleaved calls

Threads share one interposer, and each access to its state is a step of its own: loading the
phase, the exchange that begins a resolution, the stores that publish one, and the count.  Steps
of different threads come in any order.  Every lookup finds the same resolution and makes no
calls.
-/

namespace GrowthFault.Interleaving

inductive Point where
  /-- Between two calls. -/
  | idle
  /-- Load the phase; the flag says that the exchange was lost before. -/
  | loadPhase (lost : Bool)
  | loadTarget
  | loadOrdinal (target : Nat)
  | loadTrace (target : Nat) (ordinal : UInt64)
  /-- Move the phase from unresolved to resolving, unless it is another one. -/
  | exchange
  /-- Look up; the flag says that the exchange was won. -/
  | lookup (won : Bool)
  | storeTarget (r : Resolution)
  | storeOrdinal (r : Resolution)
  | storeTrace (r : Resolution)
  | storePhase (r : Resolution)
  /-- Count the call and decide its verdict. -/
  | count (r : Resolution)
  deriving DecidableEq, Repr

/-- A counted call: who made it, its ordinal, and where it went. -/
structure Counted where
  thread : Nat
  ordinal : Nat
  route : Route
  deriving DecidableEq, Repr

/-- The shared state, where every thread stands, and what has happened. -/
structure State where
  shared : Interposer := {}
  point : Nat → Point := fun _ => .idle
  /-- The threads that won the exchange. -/
  winners : List Nat := []
  /-- The resolutions that were loaded from the shared state. -/
  loaded : List Resolution := []
  counted : List Counted := []

namespace State

def goto (s : State) (thread : Nat) (p : Point) : State :=
  { s with point := fun t => if t = thread then p else s.point t }

/-- A thread takes its next step; an idle one begins a call. -/
def step (found : Resolution) (s : State) (thread : Nat) : State :=
  match s.point thread with
  | .idle => s.goto thread (.loadPhase false)
  | .loadPhase lost =>
    if s.shared.phase = .ready then s.goto thread .loadTarget
    else s.goto thread (if lost then .lookup false else .exchange)
  | .loadTarget => s.goto thread (.loadOrdinal s.shared.target)
  | .loadOrdinal target => s.goto thread (.loadTrace target s.shared.ordinal)
  | .loadTrace target ordinal =>
    let r : Resolution := ⟨target, ⟨ordinal, s.shared.trace⟩⟩
    { s.goto thread (.count r) with loaded := r :: s.loaded }
  | .exchange =>
    if s.shared.phase = .unresolved then
      { s.goto thread (.lookup true) with
        shared := { s.shared with phase := .resolving }
        winners := thread :: s.winners }
    else s.goto thread (.loadPhase true)
  | .lookup won => s.goto thread (if won then .storeTarget found else .count found)
  | .storeTarget r =>
    { s.goto thread (.storeOrdinal r) with shared := { s.shared with target := r.target } }
  | .storeOrdinal r =>
    { s.goto thread (.storeTrace r) with
      shared := { s.shared with ordinal := r.policy.ordinal } }
  | .storeTrace r =>
    { s.goto thread (.storePhase r) with shared := { s.shared with trace := r.policy.trace } }
  | .storePhase r =>
    { s.goto thread (.count r) with shared := { s.shared with phase := .ready } }
  | .count r =>
    let (ordinal, counter) := s.shared.counter.next
    { s.goto thread .idle with
      shared := { s.shared with counter }
      counted := ⟨thread, ordinal, r.route ordinal⟩ :: s.counted }

def run (found : Resolution) (s : State) (schedule : List Nat) : State :=
  schedule.foldl (step found) s

def Quiet (s : State) : Prop :=
  ∀ thread, s.point thread = .idle

end State

end GrowthFault.Interleaving
