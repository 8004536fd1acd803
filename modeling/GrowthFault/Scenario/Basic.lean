import GrowthFault.Json.Schema

/-!
# Scenarios

A checker run has one or two scenarios.  In the normal one a subject appends `world` to `hello`;
in the out-of-memory one it appends `b` to `a` and is expected to meet a failed growth.
-/

namespace GrowthFault

inductive Mode where
  /-- The normal one, then the out-of-memory one. -/
  | full
  /-- The out-of-memory one only; its growth call is the first. -/
  | oomOnly
  deriving DecidableEq, Repr

def Mode.runsNormal : Mode → Bool
  | .full => true
  | .oomOnly => false

instance : Json.Described Mode where
  schema := .choice ["full", "oom_only"]
  toCarrier
    | .full => ⟨0, by decide⟩
    | .oomOnly => ⟨1, by decide⟩
  ofCarrier i := match i.val with
    | 0 => .full
    | _ => .oomOnly
  ofCarrier_toCarrier a := by cases a <;> rfl

inductive NormalOutcome where
  | passed
  | returnedNull
  /-- The answer was another string. -/
  | mismatch (got : String)
  deriving DecidableEq, Repr

def NormalOutcome.hasPassed (o : NormalOutcome) : Bool :=
  o == .passed

instance : Json.Described NormalOutcome where
  schema := .tagged "NormalOutcome"
    (.cons "passed" .nil
      (.cons "returned_null" .nil
        (.cons "mismatch" (.cons "got" .required .string .nil) .nil)))
  toCarrier
    | .passed => .inl ()
    | .returnedNull => .inr (.inl ())
    | .mismatch got => .inr (.inr (.inl (got, ())))
  ofCarrier
    | .inl () => .passed
    | .inr (.inl ()) => .returnedNull
    | .inr (.inr (.inl (got, ()))) => .mismatch got
  ofCarrier_toCarrier a := by cases a <;> rfl

inductive OomOutcome where
  /-- The subject passed the failure on. -/
  | returnedNull
  /-- No failure reached the subject. -/
  | succeeded (got : String)
  deriving DecidableEq, Repr

instance : Json.Described OomOutcome where
  schema := .tagged "OomOutcome"
    (.cons "returned_null" .nil
      (.cons "succeeded" (.cons "got" .required .string .nil) .nil))
  toCarrier
    | .returnedNull => .inl ()
    | .succeeded got => .inr (.inl (got, ()))
  ofCarrier
    | .inl () => .returnedNull
    | .inr (.inl (got, ())) => .succeeded got
  ofCarrier_toCarrier a := by cases a <;> rfl

end GrowthFault
