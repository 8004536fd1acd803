/-!
# The shortest decimal of a double

A double stands for an interval of reals: those that round to it.  Its text uses the fewest
digits with which some decimal lies in that interval and, of the decimals with that many
digits, the one nearest to the double itself.  All arithmetic is exact, on ratios of natural
numbers.
-/

namespace GrowthFault.Decimal

structure Scaled where
  coefficient : Nat
  exponent : Int
  deriving DecidableEq, Repr

/-- The magnitude `mantissa · 2 ^ exponent` of a finite double. -/
structure Binary where
  mantissa : Nat
  exponent : Int
  deriving DecidableEq, Repr

def ofBits (bits : UInt64) : Bool × Binary :=
  let n := bits.toNat
  let fraction : Nat := n % 0x10000000000000
  let biased : Nat := n / 0x10000000000000 % 0x800
  (n ≥ 0x8000000000000000,
    if biased = 0 then ⟨fraction, -1074⟩ else ⟨0x10000000000000 + fraction, (biased : Int) - 1075⟩)

structure Ratio where
  numerator : Nat
  denominator : Nat

def Ratio.ofBinary (n : Nat) (e : Int) : Ratio :=
  if 0 ≤ e then ⟨n * Nat.pow 2 e.toNat, 1⟩ else ⟨n, Nat.pow 2 (-e).toNat⟩

def Ratio.ofDecimal (n : Nat) (e : Int) : Ratio :=
  if 0 ≤ e then ⟨n * Nat.pow 10 e.toNat, 1⟩ else ⟨n, Nat.pow 10 (-e).toNat⟩

def Ratio.le (a b : Ratio) : Bool :=
  a.numerator * b.denominator ≤ b.numerator * a.denominator

def Ratio.lt (a b : Ratio) : Bool :=
  !b.le a

def Ratio.distance (a b : Ratio) : Ratio :=
  let x := a.numerator * b.denominator
  let y := b.numerator * a.denominator
  ⟨(x - y) + (y - x), a.denominator * b.denominator⟩

def Ratio.floorAt (r : Ratio) (e : Int) : Nat :=
  if 0 ≤ e then r.numerator / (r.denominator * Nat.pow 10 e.toNat)
  else r.numerator * Nat.pow 10 (-e).toNat / r.denominator

def Ratio.magnitude (r : Ratio) : Int :=
  let guess := ((r.numerator.log2 : Int) - (r.denominator.log2 : Int)) * 30103 / 100000
  if r.lt (.ofDecimal 1 guess) then guess - 1
  else if r.lt (.ofDecimal 1 (guess + 1)) then guess
  else guess + 1

/-- Whether a ratio rounds to the double: it lies within half a unit of the last place, half of
that below a power of two, and on the bounds themselves only if the mantissa is even. -/
def Binary.rounds (b : Binary) (r : Ratio) : Bool :=
  let below := if b.mantissa = 0x10000000000000 ∧ -1074 < b.exponent then 1 else 2
  let least := Ratio.ofBinary (4 * b.mantissa - below) (b.exponent - 2)
  let greatest := Ratio.ofBinary (4 * b.mantissa + 2) (b.exponent - 2)
  if b.mantissa % 2 = 0 then least.le r && r.le greatest else least.lt r && r.lt greatest

/-- The decimal with `count` digits nearest to the double among those that round to it. -/
def Binary.withDigits? (b : Binary) (count : Nat) : Option Scaled :=
  let value := Ratio.ofBinary b.mantissa b.exponent
  let e := value.magnitude - (count : Int) + 1
  let low := value.floorAt e
  let lower := Ratio.ofDecimal low e
  let upper := Ratio.ofDecimal (low + 1) e
  match b.rounds lower, b.rounds upper with
  | true, true =>
    let below := value.distance lower
    let above := value.distance upper
    some ⟨if below.lt above || (below.le above && low % 2 == 0) then low else low + 1, e⟩
  | true, false => some ⟨low, e⟩
  | false, true => some ⟨low + 1, e⟩
  | false, false => none

/-- The same decimal with `count` digits, when rounding up has carried into one more. -/
def Scaled.carried (count : Nat) (s : Scaled) : Scaled :=
  if s.coefficient = Nat.pow 10 count then ⟨Nat.pow 10 (count - 1), s.exponent + 1⟩ else s

/-- The first hit among `count`, `count + 1`, … digits, `tries` of them. -/
def Binary.shortestFrom (b : Binary) : (tries count : Nat) → Option Scaled
  | 0, _ => none
  | tries + 1, count =>
    match b.withDigits? count with
    | some s => some (s.carried count)
    | none => b.shortestFrom tries (count + 1)

/-- The shortest decimal that rounds to a positive double; seventeen digits always suffice. -/
def Binary.shortest (b : Binary) : Scaled :=
  (b.shortestFrom 17 1).getD ⟨0, 0⟩

end GrowthFault.Decimal
