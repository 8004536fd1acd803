import GrowthFault.Json.Schema
import GrowthFault.Text.Utf8

/-!
# How a process ended

A wait status packs an exit code or a signal into one word.  A checker's exit code says whether
it was content; anything unknown counts as a crash.
-/

namespace GrowthFault

structure Status where
  word : UInt32
  deriving DecidableEq, Repr

namespace Status

def exited (code : UInt8) : Status := ⟨code.toUInt32 <<< 8⟩

def killed (signal : UInt8) : Status := ⟨signal.toUInt32 &&& 0x7F⟩

/-- The low bits: zero for an exit, all ones for a process that only stopped. -/
def low (s : Status) : UInt32 := s.word &&& 0x7F

def code? (s : Status) : Option Int32 :=
  if s.low = 0 then some ((s.word >>> 8) &&& 0xFF).toInt32 else none

def signal? (s : Status) : Option Int32 :=
  if s.low ≠ 0 ∧ s.low ≠ 0x7F then some s.low.toInt32 else none

end Status

def segmentationFault : UInt8 := 11

inductive RunVerdict where
  | passed
  /-- A scenario saw a result it did not expect. -/
  | contractViolation
  /-- The checker rejected its arguments. -/
  | usageError
  /-- A signal, or an unknown exit code. -/
  | crashed
  deriving DecidableEq, Repr

instance : Json.Described RunVerdict where
  schema := .choice ["passed", "contract_violation", "usage_error", "crashed"]
  toCarrier
    | .passed => ⟨0, by decide⟩
    | .contractViolation => ⟨1, by decide⟩
    | .usageError => ⟨2, by decide⟩
    | .crashed => ⟨3, by decide⟩
  ofCarrier i := match i.val with
    | 0 => .passed
    | 1 => .contractViolation
    | 2 => .usageError
    | _ => .crashed
  ofCarrier_toCarrier a := by cases a <;> rfl

namespace RunVerdict

def name : RunVerdict → String
  | .passed => "Passed"
  | .contractViolation => "ContractViolation"
  | .usageError => "UsageError"
  | .crashed => "Crashed"

def classify (s : Status) : RunVerdict :=
  match s.code? with
  | some 0 => .passed
  | some 1 => .contractViolation
  | some 2 => .usageError
  | _ => .crashed

end RunVerdict

/-- A finished process: its status, what it wrote, and how long it took. -/
structure ProcessOutput where
  status : Status
  stdout : Bytes := []
  stderr : Bytes := []
  durationMs : UInt64 := 0
  deriving DecidableEq, Repr

end GrowthFault
