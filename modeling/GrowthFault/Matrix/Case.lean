import GrowthFault.Run.Record

/-!
# Matrix cases

A case is a configuration of a checker run with what it should come to.
-/

namespace GrowthFault

inductive OomExpectation where
  /-- It meets the failed growth. -/
  | injected
  /-- It runs and meets no failure. -/
  | inactive
  /-- The run ends before it. -/
  | notReached
  deriving DecidableEq, Repr

instance : Json.Described OomExpectation where
  schema := .choice ["injected", "inactive", "not_reached"]
  toCarrier
    | .injected => ⟨0, by decide⟩
    | .inactive => ⟨1, by decide⟩
    | .notReached => ⟨2, by decide⟩
  ofCarrier i := match i.val with
    | 0 => .injected
    | 1 => .inactive
    | _ => .notReached
  ofCarrier_toCarrier a := by cases a <;> rfl

def OomExpectation.holds (e : OomExpectation) (t : Transcript) : Bool :=
  match e with
  | .injected => t.oomInjected && !t.oomInactive
  | .inactive => t.oomInactive && !t.oomInjected
  | .notReached => !t.oomInjected && !t.oomInactive

/-- A configuration and what is expected of it. -/
structure MatrixCase where
  mode : Mode
  failAfter : Option UInt64
  verdict : RunVerdict
  oom : OomExpectation
  deriving DecidableEq, Repr

open Json Described in
instance : Described MatrixCase where
  schema := .record "MatrixCase"
    (.cons "mode" .required (schema Mode) <|
      .cons "fail_after" .nullable (.integer .word64) <|
      .cons "verdict" .required (schema RunVerdict) <|
      .cons "oom" .required (schema OomExpectation) .nil)
  toCarrier c := (toCarrier c.mode, c.failAfter, toCarrier c.verdict, toCarrier c.oom, ())
  ofCarrier := fun (mode, failAfter, verdict, oom, ()) =>
    ⟨ofCarrier mode, failAfter, ofCarrier verdict, ofCarrier oom⟩
  ofCarrier_toCarrier c := by cases c; simp

namespace MatrixCase

/-- The cases for each subject.  In full mode the growth of the normal scenario is call 1 and
that of the out-of-memory one call 2; otherwise the latter is call 1. -/
def all : List MatrixCase :=
  [⟨.full, none, .passed, .injected⟩,
    ⟨.full, some 2, .passed, .injected⟩,
    ⟨.full, some 1, .contractViolation, .notReached⟩,
    ⟨.full, some 0, .passed, .inactive⟩,
    ⟨.full, some 3, .passed, .inactive⟩,
    ⟨.oomOnly, some 1, .passed, .injected⟩]

def accepts (c : MatrixCase) (r : RunRecord) : Bool :=
  r.verdict == c.verdict && c.oom.holds r.transcript

end MatrixCase

end GrowthFault
