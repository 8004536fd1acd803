import GrowthFault.Text.Utf8

/-!
# Fault policies

A policy names the call to fail by its ordinal, counted from one; zero fails none.  It is read
from two environment values.  The ordinal is read leniently: white space, a sign and digits, and
whatever follows is ignored; without digits, or with a minus sign, it is zero, and a number that
does not fit is the greatest that does.  The switch for reports is one of four words.
-/

namespace GrowthFault

/-- Which call to fail, and whether to report it. -/
structure Policy where
  ordinal : UInt64
  trace : Bool
  deriving DecidableEq, Repr

inductive Verdict where
  | forward
  | fail
  deriving DecidableEq, Repr

namespace Policy

def defaultOrdinal : UInt64 := 2

/-- Fail the call with this ordinal, without a report. -/
def failAt (ordinal : UInt64) : Policy := ⟨ordinal, false⟩

def disabled : Policy := failAt 0

instance : Inhabited Policy := ⟨failAt defaultOrdinal⟩

def armed (p : Policy) : Bool := p.ordinal != 0

def verdict (p : Policy) (ordinal : Nat) : Verdict :=
  if p.ordinal ≠ 0 ∧ p.ordinal.toNat = ordinal then .fail else .forward

theorem verdict_eq_fail_iff {p : Policy} {ordinal : Nat} :
    p.verdict ordinal = .fail ↔ p.ordinal ≠ 0 ∧ p.ordinal.toNat = ordinal := by
  unfold verdict
  split <;> simp_all

@[simp] theorem verdict_disabled (ordinal : Nat) : disabled.verdict ordinal = .forward := by
  simp [verdict, disabled, failAt]

/-! ## Environment values -/

def isBlank (b : UInt8) : Bool :=
  b == 0x20 || (0x09 ≤ b && b ≤ 0x0D)

def isDigit (b : UInt8) : Bool :=
  0x30 ≤ b && b ≤ 0x39

def greatest : Nat := UInt64.size - 1

/-- A number with one more digit, or the greatest one. -/
def appendDigit (n : UInt64) (digit : UInt8) : UInt64 :=
  UInt64.ofNat (min (n.toNat * 10 + (digit.toNat - 0x30)) greatest)

def parseOrdinal (raw : Bytes) : UInt64 :=
  let number := raw.dropWhile isBlank
  let (negative, unsigned) := match number with
    | 0x2D :: rest => (true, rest)
    | 0x2B :: rest => (false, rest)
    | rest => (false, rest)
  let digits := unsigned.takeWhile isDigit
  if digits.isEmpty || negative then 0 else digits.foldl appendDigit 0

/-- The blanks around a switch: all but the vertical tab. -/
def isSwitchBlank (b : UInt8) : Bool :=
  isBlank b && b != 0x0B

def lowerCase (b : UInt8) : UInt8 :=
  if 0x41 ≤ b && b ≤ 0x5A then b + 0x20 else b

def onWords : List String := ["1", "true", "yes", "on"]

/-- Whether a value is one of the words that switch reports on, in any case. -/
def parseFlag (raw : Bytes) : Bool :=
  let trimmed := ((raw.dropWhile isSwitchBlank).reverse.dropWhile isSwitchBlank).reverse
  onWords.any fun word => trimmed.map lowerCase == Bytes.ofText word

end Policy

/-- The two environment values that configure a process. -/
structure Environment where
  failAfter : Option Bytes
  trace : Option Bytes
  deriving DecidableEq, Repr

def Environment.empty : Environment := ⟨none, none⟩

def Environment.policy (env : Environment) : Policy where
  ordinal := match env.failAfter with
    | some raw => Policy.parseOrdinal raw
    | none => Policy.defaultOrdinal
  trace := match env.trace with
    | some raw => Policy.parseFlag raw
    | none => false

end GrowthFault
