/-!
# Decimal digits

Numbers are written in canonical decimal: no sign, no leading zero.  Fixed-width fields are
padded with zeros on the left.  A digit reader accepts an optional plus sign and digits only.
-/

namespace GrowthFault.Decimal

def digits (n : Nat) : List Char :=
  Nat.toDigits 10 n

/-- The canonical decimal of a number, as text. -/
def text (n : Nat) : String :=
  String.ofList (digits n)

/-- The canonical decimal of an integer, a minus sign before the negative ones. -/
def signed (i : Int) : List Char :=
  if i < 0 then '-' :: digits i.natAbs else digits i.natAbs

/-- The decimal of a number, with zeros before it up to `width` characters. -/
def padded (width n : Nat) : List Char :=
  let ds := digits n
  List.replicate (width - ds.length) '0' ++ ds

/-- The number `n` with a run of decimal digits behind it, if every number on the way is below
2⁶⁴. -/
def appendDigits (n : Nat) : List Char → Option Nat
  | [] => some n
  | c :: rest =>
    let m := 10 * n + (c.toNat - '0'.toNat)
    if c.isDigit ∧ m < UInt64.size then appendDigits m rest else none

theorem le_ofDigitChars (chars : List Char) (n : Nat) : n ≤ Nat.ofDigitChars 10 chars n := by
  rw [Nat.ofDigitChars_eq_ofDigitChars_zero]
  have : 1 * n ≤ 10 ^ chars.length * n := Nat.mul_le_mul_right n (Nat.pow_pos (by decide))
  omega

theorem appendDigits_eq_some_iff {n m : Nat} {chars : List Char} (h : n < UInt64.size) :
    appendDigits n chars = some m ↔
      chars.all Char.isDigit = true ∧ Nat.ofDigitChars 10 chars n = m ∧ m < UInt64.size := by
  induction chars generalizing n with
  | nil =>
    simp only [appendDigits, Option.some.injEq, List.all_nil, Nat.ofDigitChars_nil, true_and]
    omega
  | cons c rest ih =>
    have bound := le_ofDigitChars rest (10 * n + (c.toNat - '0'.toNat))
    simp only [appendDigits, List.all_cons, Bool.and_eq_true, Nat.ofDigitChars_cons]
    split
    · next step => rw [ih step.2, step.1]; simp only [true_and]
    · next step =>
      simp only [reduceCtorEq, false_iff]
      intro ⟨⟨digit, _⟩, value, small⟩
      exact step ⟨digit, by omega⟩

/-- A number below 2⁶⁴, written with an optional plus sign and at least one digit. -/
def word? (chars : List Char) : Option UInt64 :=
  let unsigned := match chars with
    | '+' :: rest => rest
    | _ => chars
  if unsigned.isEmpty then none else (appendDigits 0 unsigned).map UInt64.ofNat

end GrowthFault.Decimal
