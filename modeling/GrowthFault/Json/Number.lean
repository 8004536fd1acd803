import GrowthFault.Decimal.Digits
import GrowthFault.Decimal.Shortest

/-!
# JSON numbers

A number is exact when it is an integer that fits 64 bits, unsigned or, if negative, signed;
every other number is a double, kept by its bits.
-/

namespace GrowthFault.Json

inductive Number where
  | natural (n : UInt64)
  /-- The negative integer `-(k + 1)`. -/
  | negative (k : Fin 0x8000000000000000)
  | double (bits : UInt64)
  deriving DecidableEq, Repr

def Number.int? : Number → Option Int
  | .natural n => some n.toNat
  | .negative k => some (-(k.val : Int) - 1)
  | .double _ => none

structure Notation where
  /-- Positional from this exponent of the leading digit … -/
  least : Int
  /-- … up to this one, otherwise with an exponent. -/
  greatest : Int

def Notation.json : Notation := ⟨-5, 15⟩

/-- The exponent mark, its sign and its digits. -/
def exponentPart (e : Int) : List Char :=
  ['e', if e < 0 then '-' else '+'] ++ Decimal.digits e.natAbs

/-- A positive decimal in this notation; a whole number keeps a zero after the point. -/
def Notation.write (style : Notation) (s : Decimal.Scaled) : List Char :=
  let ds := Decimal.digits s.coefficient
  let lead : Int := s.exponent + ds.length - 1
  if style.least ≤ lead ∧ lead ≤ style.greatest then
    if 0 ≤ s.exponent then ds ++ List.replicate s.exponent.toNat '0' ++ ['.', '0']
    else if 0 ≤ lead then ds.take (lead.toNat + 1) ++ '.' :: ds.drop (lead.toNat + 1)
    else '0' :: '.' :: List.replicate (-lead - 1).toNat '0' ++ ds
  else
    match ds with
    | [] => exponentPart lead
    | [d] => d :: exponentPart lead
    | d :: more => d :: '.' :: more ++ exponentPart lead

def doubleText (bits : UInt64) : List Char :=
  let (negative, magnitude) := Decimal.ofBits bits
  let body :=
    if magnitude.mantissa = 0 then ['0', '.', '0'] else Notation.json.write magnitude.shortest
  if negative then '-' :: body else body

def Number.text : Number → List Char
  | .natural n => Decimal.digits n.toNat
  | .negative k => '-' :: Decimal.digits (k.val + 1)
  | .double bits => doubleText bits

end GrowthFault.Json
