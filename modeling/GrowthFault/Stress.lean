import GrowthFault.Gate
import GrowthFault.Json.Schema
import GrowthFault.Memory.Basic

/-!
# Stress runs

Several threads admit calls through one gate.  Admissions are atomic, so a run is a schedule:
the threads in the order in which they were admitted.  Afterwards the ordinals that each thread
got are analysed together: none may occur twice, they must be all the numbers from one to their
count, and only the configured one may have failed.  The lists for the ordinals are reserved before
the first admission; a list that would be larger than any block ends the run there.
-/

namespace GrowthFault

structure StressReport where
  threads : UInt64
  callsPerThread : UInt64
  totalCalls : UInt64
  failAfter : UInt64
  uniqueOrdinals : Bool
  denseOrdinals : Bool
  /-- The ordinals that were failed. -/
  injected : List UInt64
  elapsedMs : UInt64
  deriving DecidableEq, Repr

open Json Described in
instance : Described StressReport where
  schema := .record "StressReport"
    (.cons "threads" .required (.integer .size) <|
      .cons "calls_per_thread" .required (.integer .size) <|
      .cons "total_calls" .required (.integer .word64) <|
      .cons "fail_after" .required (.integer .word64) <|
      .cons "unique_ordinals" .required .bool <|
      .cons "dense_ordinals" .required .bool <|
      .cons "injected" .required (.list (.integer .word64)) <|
      .cons "elapsed_ms" .required (.integer .word64) .nil)
  toCarrier r := (r.threads, r.callsPerThread, r.totalCalls, r.failAfter, r.uniqueOrdinals,
    r.denseOrdinals, r.injected, r.elapsedMs, ())
  ofCarrier := fun (threads, callsPerThread, totalCalls, failAfter, uniqueOrdinals,
    denseOrdinals, injected, elapsedMs, ()) =>
    ⟨threads, callsPerThread, totalCalls, failAfter, uniqueOrdinals, denseOrdinals, injected,
      elapsedMs⟩
  ofCarrier_toCarrier _ := rfl

namespace StressReport

def expected (r : StressReport) : List UInt64 :=
  if 1 ≤ r.failAfter ∧ r.failAfter ≤ r.totalCalls then [r.failAfter] else []

def passed (r : StressReport) : Bool :=
  r.uniqueOrdinals && r.denseOrdinals && r.injected == r.expected

end StressReport

namespace Stress

def withoutRepeats : List Nat → List Nat
  | a :: b :: rest =>
    if a = b then withoutRepeats (b :: rest) else a :: withoutRepeats (b :: rest)
  | as => as

/-- What the ordinals of all threads say together. -/
structure Analysis where
  unique : Bool
  dense : Bool
  deriving DecidableEq, Repr

def analyse (seen : List (List Nat)) : Analysis :=
  let sorted := seen.flatten.mergeSort
  let distinct := withoutRepeats sorted
  ⟨distinct.length == sorted.length, distinct == List.range' 1 sorted.length⟩

def admitAll : List Nat → Gate → List (Nat × Admission) × Gate
  | [], g => ([], g)
  | thread :: schedule, g =>
    let (a, g) := g.admit
    let (later, g) := admitAll schedule g
    ((thread, a) :: later, g)

def ordinalsOf (thread : Nat) (admissions : List (Nat × Admission)) : List Nat :=
  (admissions.filter fun e => e.1 == thread).map fun e => e.2.ordinal

def failedOrdinals (admissions : List (Nat × Admission)) : List Nat :=
  (admissions.filter fun e => e.2.fails).map fun e => e.2.ordinal

/-- What the threads have put together when all of them have ended: the gate, the ordinals of each
thread, whichever ended first, and the failed ordinals, whichever was entered first. -/
structure Gathered where
  gate : Gate
  seen : List (List Nat)
  failed : List Nat

/-- Here the threads end in their order, and a failed ordinal is entered at once. -/
def gather (policy : Policy) (threads : Nat) (schedule : List Nat) : Gathered :=
  let (admissions, gate) := admitAll schedule { policy }
  { gate
    seen := (List.range threads).map fun thread => ordinalsOf thread admissions
    failed := failedOrdinals admissions }

def Gathered.report (g : Gathered) (threads callsPerThread elapsedMs : UInt64) : StressReport :=
  let analysis := analyse g.seen
  { threads, callsPerThread
    totalCalls := UInt64.ofNat g.gate.calls
    failAfter := g.gate.policy.ordinal
    uniqueOrdinals := analysis.unique
    denseOrdinals := analysis.dense
    injected := g.failed.mergeSort.map UInt64.ofNat
    elapsedMs }

/-- Every thread in its turn, over and over. -/
def turns (threads callsPerThread : Nat) : List Nat :=
  (List.replicate callsPerThread (List.range threads)).flatten

def emptyText : String := "stress needs at least one thread and one call"

/-- Why a run has no report. -/
inductive Hindrance where
  /-- There is no thread, or there is no call. -/
  | nothingToRun
  /-- A list was to be larger than any block. -/
  | capacityOverflow
  deriving DecidableEq, Repr

/-- A list can have this many ordinals: with eight bytes for each it is no larger than a block
can be. -/
def Representable (count : Nat) : Prop :=
  count * 8 < Memory.limit

instance (count : Nat) : Decidable (Representable count) :=
  inferInstanceAs (Decidable (count * 8 < Memory.limit))

def reserve (count : UInt64) : Except Hindrance Unit :=
  if Representable count.toNat then .ok () else .error .capacityOverflow

/-- What comes before the first admission.  A run has at least one call; the list for all ordinals
is reserved first, for a product of words, and then each thread reserves the one for its own. -/
def prepare (threads callsPerThread : UInt64) : Except Hindrance Unit :=
  if threads = 0 ∨ callsPerThread = 0 then .error .nothingToRun
  else do
    reserve (threads * callsPerThread)
    reserve callsPerThread

def reportOn (policy : Policy) (threads callsPerThread : UInt64) (schedule : List Nat)
    (elapsedMs : UInt64) : StressReport :=
  (gather policy threads.toNat schedule).report threads callsPerThread elapsedMs

def runOn (policy : Policy) (threads callsPerThread : UInt64) (schedule : List Nat)
    (elapsedMs : UInt64) : Except Hindrance StressReport := do
  prepare threads callsPerThread
  .ok (reportOn policy threads callsPerThread schedule elapsedMs)

/-- Run the threads in turn; nobody has a turn before the run is prepared. -/
def run (policy : Policy) (threads callsPerThread : UInt64) (elapsedMs : UInt64) :
    Except Hindrance StressReport := do
  prepare threads callsPerThread
  let schedule := turns threads.toNat callsPerThread.toNat
  .ok (reportOn policy threads callsPerThread schedule elapsedMs)

end Stress

end GrowthFault
