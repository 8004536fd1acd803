import GrowthFault.Decimal.Buffer

/-!
# Reports of failed calls

A failed call is reported in one line, composed without allocating: the two numbers go through
one digit buffer, one after the other.
-/

namespace GrowthFault.Report

def opening : Bytes := Bytes.ofText "failrealloc: injected realloc failure at call #"

def sizeLabel : Bytes := Bytes.ofText " (size "

def ending : Bytes := Bytes.ofText ")\n"

/-- The longest report: both numbers at their longest. -/
def lineCapacity : Nat :=
  opening.length + sizeLabel.length + ending.length + 2 * Decimal.capacity

/-- The report for the call with this ordinal, which asked for this size. -/
def line (ordinal size : UInt64) : Bytes :=
  let first := Decimal.render ordinal (List.replicate Decimal.capacity 0)
  let second := Decimal.render size first.buffer
  opening ++ first.digits ++ sizeLabel ++ second.digits ++ ending

end GrowthFault.Report
