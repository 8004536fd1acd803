import GrowthFault.Decimal.Digits
import GrowthFault.Json.Schema
import GrowthFault.Text.Lines
import GrowthFault.Transcript.Wording

/-!
# Transcripts

A transcript is what a checker run printed, reduced to facts.  Each line is trimmed and stands
for at most one fact; a flag once raised stays, and the last line with a number counts.
-/

namespace GrowthFault

structure Transcript where
  normalPassed : Bool := false
  normalFailed : Bool := false
  oomInjected : Bool := false
  oomInactive : Bool := false
  completed : Bool := false
  calls : Option UInt64 := none
  failAfter : Option UInt64 := none
  deriving DecidableEq, Repr

instance : Json.Described Transcript where
  schema := .record "Transcript"
    (.cons "normal_passed" .required .bool <|
      .cons "normal_failed" .required .bool <|
      .cons "oom_injected" .required .bool <|
      .cons "oom_inactive" .required .bool <|
      .cons "completed" .required .bool <|
      .cons "shim_calls" .nullable (.integer .word64) <|
      .cons "shim_fail_after" .nullable (.integer .word64) .nil)
  toCarrier t := (t.normalPassed, t.normalFailed, t.oomInjected, t.oomInactive, t.completed,
    t.calls, t.failAfter, ())
  ofCarrier := fun (normalPassed, normalFailed, oomInjected, oomInactive, completed, calls,
    failAfter, ()) =>
    { normalPassed, normalFailed, oomInjected, oomInactive, completed, calls, failAfter }
  ofCarrier_toCarrier _ := rfl

namespace Transcript

@[inline] def starts (wording : String) (line : List Char) : Bool :=
  wording.toList.isPrefixOf line

/-- The transcript with one more line, trimmed already. -/
def readLine (t : Transcript) (line : List Char) : Transcript :=
  if starts Wording.normalPassed line then { t with normalPassed := true }
  else if starts Wording.normalNull line || starts Wording.normalMismatch line then
    { t with normalFailed := true }
  else if starts Wording.oomPassed line then { t with oomInjected := true }
  else if starts Wording.oomInactive line then { t with oomInactive := true }
  else if line = Wording.completed.toList then { t with completed := true }
  else match Text.after? Wording.calls.toList line with
    | some number => { t with calls := Decimal.word? number }
    | none =>
      match Text.after? Wording.failAfter.toList line with
      | some number => { t with failAfter := Decimal.word? number }
      | none => t

def parse (stdout : String) : Transcript :=
  ((Text.lines stdout.toList).map Text.trim).foldl readLine {}

end Transcript

end GrowthFault
