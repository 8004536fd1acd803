import GrowthFault.Scenario.Check

/-!
# Runs inside the process

A seam run drives a subject through the scenarios of a mode on a tracked, injected heap of its
own.  Only the subject's growth calls are counted, and what it leaks is measured.
-/

namespace GrowthFault

structure SeamReport where
  subject : Subject
  mode : Mode
  failAfter : UInt64
  normal : Option NormalOutcome
  /-- The second scenario is left out when the first has failed. -/
  oom : Option OomOutcome
  calls : UInt64
  leakedBlocks : UInt64
  leakedBytes : UInt64
  deriving DecidableEq, Repr

open Json Described in
instance : Described SeamReport where
  schema := .record "SeamReport"
    (.cons "subject" .required (schema Subject) <|
      .cons "mode" .required (schema Mode) <|
      .cons "fail_after" .required (.integer .word64) <|
      .cons "normal" .omittable (schema NormalOutcome) <|
      .cons "oom" .omittable (schema OomOutcome) <|
      .cons "realloc_calls" .required (.integer .word64) <|
      .cons "leaked_blocks" .required (.integer .size) <|
      .cons "leaked_bytes" .required (.integer .size) .nil)
  toCarrier r := (toCarrier r.subject, toCarrier r.mode, r.failAfter, r.normal.map toCarrier,
    r.oom.map toCarrier, r.calls, r.leakedBlocks, r.leakedBytes, ())
  ofCarrier := fun (subject, mode, failAfter, normal, oom, calls, leakedBlocks, leakedBytes,
    ()) =>
    ⟨ofCarrier subject, ofCarrier mode, failAfter, normal.map ofCarrier, oom.map ofCarrier,
      calls, leakedBlocks, leakedBytes⟩
  ofCarrier_toCarrier r := by cases r; simp

namespace SeamReport

def failures (r : SeamReport) : Nat :=
  (if r.normal = some .returnedNull then 1 else 0) + (if r.oom = some .returnedNull then 1 else 0)

/-- The number of blocks that the subject is known to lose: none for the fixed one, one a failure
for the buggy one. -/
def expectedLeaks (r : SeamReport) : Nat :=
  match r.subject with
  | .fixed => 0
  | .buggy => r.failures

def leakFree (r : SeamReport) : Bool :=
  r.leakedBlocks == 0

def matchesSubject (r : SeamReport) : Bool :=
  r.leakedBlocks.toNat == r.expectedLeaks

end SeamReport

namespace Seam

open Heap

/-- The heap of a run; a placement says where its blocks go. -/
def heap (policy : Policy) (place : Placement := .above) : Stack :=
  ⟨[.track, .inject policy], { source := .system, placement := place }⟩

/-- Run the scenarios of a mode; the report, and the heap after what was lost has been given
back. -/
def runOn (subject : Subject) (policy : Policy) (mode : Mode) (h : Stack) :
    Except Misuse (SeamReport × Stack) := do
  let ((normal, oom), h) ← Scenario.runMode subject mode h
  let ledger := h.ledger?.getD .empty
  let calls := (Layers.gateCalls h.layers).foldl (· + ·) 0
  let report : SeamReport :=
    { subject, mode, failAfter := policy.ordinal, normal, oom
      calls := UInt64.ofNat calls
      leakedBlocks := UInt64.ofNat ledger.size
      leakedBytes := UInt64.ofNat ledger.total }
  let (_, h) ← h.release
  .ok (report, h)

def run (subject : Subject) (policy : Policy) (mode : Mode) (place : Placement := .above) :
    Except Misuse SeamReport := do
  let (report, _) ← runOn subject policy mode (heap policy place)
  .ok report

end Seam

end GrowthFault
