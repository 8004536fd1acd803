import GrowthFault.Text.Utf8

/-!
# Rendering into a fixed buffer

Inside an allocator nothing can be allocated, so a number is rendered from its last digit
backwards into a buffer that the caller owns.  Twenty places hold every 64-bit number; the
digits are the tail of the buffer and what stands before them is left alone.
-/

namespace GrowthFault.Decimal

def capacity : Nat := 20

/-- A buffer and the place where its digits begin. -/
structure Rendering where
  buffer : Bytes
  start : Nat
  deriving DecidableEq, Repr

/-- The digits of a rendering: the tail of its buffer. -/
def Rendering.digits (r : Rendering) : Bytes :=
  r.buffer.drop r.start

/-- Write `value` backwards into `buffer`, its last digit just before place `stop`. -/
def renderBefore : (stop : Nat) → (value : UInt64) → (buffer : Bytes) → Rendering
  | 0, _, buffer => ⟨buffer, 0⟩
  | place + 1, value, buffer =>
    let buffer := buffer.set place (0x30 + (value % 10).toUInt8)
    if value / 10 = 0 then ⟨buffer, place⟩ else renderBefore place (value / 10) buffer

def render (value : UInt64) (buffer : Bytes) : Rendering :=
  renderBefore capacity value buffer

end GrowthFault.Decimal
