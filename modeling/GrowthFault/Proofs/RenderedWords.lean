import GrowthFault.Proofs.EnvironmentReading
import GrowthFault.Proofs.ReportLines

/-!
# Words rendered and read back

A word is rendered by counting down from the end of a buffer, one place for each digit.  Twenty
places are enough for every word, so the countdown stops at the first digit and never has to go on
below the first place.  The buffer then ends with the canonical decimal of the word, and is as it
was before that.  Whoever reads an ordinal there gets the word back.
-/

namespace GrowthFault.Decimal

variable {value : UInt64} {stop : Nat} {buffer : Bytes}

/-- Put a byte at a place of a buffer, if there is such a place. -/
def put? (buffer : Bytes) (place : Nat) (byte : UInt8) : Option Bytes :=
  if place < buffer.length then some (buffer.set place byte) else none

/-- The countdown.  Each digit goes into the place below the one before; there is no answer if that
would be below the first place, or is outside the buffer. -/
def countDown : (stop : Nat) → (rest : UInt64) → (buffer : Bytes) → Option Rendering
  | 0, _, _ => none
  | place + 1, rest, buffer => do
    let buffer ← put? buffer place (0x30 + (rest % 10).toUInt8)
    if rest / 10 = 0 then some ⟨buffer, place⟩ else countDown place (rest / 10) buffer

/-- Where there is room for the digits, the countdown gets to its end. -/
theorem countDown_eq (hroom : (digits value.toNat).length ≤ stop)
    (hbuffer : stop ≤ buffer.length) :
    countDown stop value buffer = some (renderBefore stop value buffer) := by
  induction stop generalizing value buffer with
  | zero =>
      have hempty : digits value.toNat = [] := List.length_eq_zero_iff.1 (by omega)
      exact absurd hempty Nat.toDigits_ne_nil
  | succ place ih =>
      have hinside : place < buffer.length := by omega
      simp only [countDown, renderBefore, put?, if_pos hinside, Option.bind_eq_bind,
        Option.bind_some]
      split
      next => rfl
      next hne =>
        have hmore := length_digits_of_div_ne_zero hne
        exact ih (by omega) (by rw [List.length_set]; omega)

/-- A word is rendered and read back.  In a buffer of twenty bytes, whatever they are, the countdown
gets to its end; the digits are the tail of the buffer, and what stands before them is left as it
was.  They are the canonical decimal of the word, between one and twenty of them, and the reader of
ordinals gets the word back from them, also behind white space and a plus sign, and whatever follows
them that is no digit. -/
theorem rendered_word_read_back (value : UInt64) (buffer : Vector UInt8 20) :
    let r := render value buffer.toList
    countDown 20 value buffer.toList = some r ∧
    r.buffer.length = 20 ∧ r.buffer = buffer.toList.take r.start ++ r.digits ∧
    1 ≤ r.digits.length ∧ r.digits.length ≤ 20 ∧
    (∃ chars, Canonical value.toNat chars ∧ r.digits = Bytes.ofChars chars) ∧
    ∀ blanks plus rest : Bytes, (∀ b ∈ blanks, b ∈ Policy.whiteSpace) →
      plus = [] ∨ plus = [0x2B] →
      (∀ b ∈ rest.head?, ¬ (0x30 ≤ b.toNat ∧ b.toNat ≤ 0x39)) →
      Policy.parseOrdinal (blanks ++ (plus ++ (r.digits ++ rest))) = value := by
  intro r
  have hbuffer : buffer.toList.length = capacity := buffer.length_toList
  have hroom := length_digits_le value
  obtain ⟨hdigits, hlength⟩ : r.digits = Bytes.ofChars (digits value.toNat) ∧
      r.buffer.length = capacity := digits_render value hbuffer
  have hcount : r.digits.length = (digits value.toNat).length := by
    rw [hdigits, ofChars_digits, List.length_map]
  have hsome : 1 ≤ (digits value.toNat).length :=
    List.length_pos_iff.2 (canonical_digits value.toNat).nonempty
  have hlayout : r.buffer = buffer.toList.take r.start ++ r.digits := by
    rw [hdigits]
    simp only [r, render_eq value hbuffer]
  refine ⟨countDown_eq hroom (Nat.le_of_eq hbuffer.symm), hlength, hlayout,
    hcount.symm ▸ hsome, hcount.symm ▸ hroom, ⟨_, canonical_digits value.toNat, hdigits⟩, ?_⟩
  intro blanks plus rest hblanks hplus hrest
  have hblank : ∀ b ∈ blanks, Policy.isBlank b = true := fun b hb =>
    Policy.isBlank_iff_mem.2 (hblanks b hb)
  have hend : ∀ b ∈ rest.head?, Policy.isDigit b = false := by
    intro b hb
    rw [← Bool.not_eq_true, Policy.isDigit_iff]
    exact hrest b hb
  rw [hdigits]
  exact Policy.parseOrdinal_append_digits hblank hplus hend value

/-- The greatest word fills the buffer; it is read back behind a tab, a space and a plus sign, and in
front of a point. -/
theorem rendered_word_read_back_greatest :
    let buffer := Vector.replicate 20 (0xFF : UInt8)
    let r := render 18446744073709551615 buffer.toList
    r.start = 0 ∧ countDown 20 18446744073709551615 buffer.toList = some r ∧
    Policy.parseOrdinal ([0x09, 0x20] ++ ([0x2B] ++ (r.digits ++ [0x2E, 0x31]))) =
      18446744073709551615 := by
  intro buffer r
  obtain ⟨hends, -, -, -, -, -, hread⟩ :=
    rendered_word_read_back 18446744073709551615 buffer
  have hblanks : ∀ b ∈ ([0x09, 0x20] : Bytes), b ∈ Policy.whiteSpace := by
    simp [Policy.whiteSpace]
  have hpoint : ∀ b ∈ ([0x2E, 0x31] : Bytes).head?, ¬ (0x30 ≤ b.toNat ∧ b.toNat ≤ 0x39) := by
    simp
  exact ⟨by decide +kernel, hends, hread _ _ _ hblanks (.inr rfl) hpoint⟩

end GrowthFault.Decimal
