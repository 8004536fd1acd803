import GrowthFault.Decimal.Digits
import GrowthFault.Interposer.Report

/-!
# Numbers in reports

A number that is rendered backwards into a buffer stands there in canonical decimal.  Both numbers
of a report go through the same buffer, each read before the next is rendered, so the report is
the text that names them.
-/

namespace GrowthFault

namespace Bytes

theorem ofText_append (text more : String) :
    ofText (text ++ more) = ofText text ++ ofText more := by
  unfold ofText ofChars
  rw [String.toList_append, List.flatMap_append]

/-- An ASCII character is one byte. -/
theorem ofChars_of_ascii {chars : List Char} (hascii : ∀ c ∈ chars, c.toNat < 0x80) :
    ofChars chars = chars.map fun c => UInt8.ofNat c.toNat := by
  unfold ofChars
  induction chars with
  | nil => rfl
  | cons c chars ih =>
      obtain ⟨hc, hrest⟩ := List.forall_mem_cons.1 hascii
      have hle : c.toNat ≤ 0x7F := Nat.le_of_lt_succ hc
      have hone : String.utf8EncodeChar c = [UInt8.ofNat c.toNat] := by
        simp [String.utf8EncodeChar, hle]
      rw [List.flatMap_cons, hone, ih hrest]
      rfl

end Bytes

namespace Decimal

variable {n stop : Nat} {value : UInt64} {buffer : Bytes}

/-- The last digit comes off the end. -/
theorem digits_eq (n : Nat) :
    digits n = (if n < 10 then [] else digits (n / 10)) ++ [Nat.digitChar (n % 10)] := by
  unfold digits
  rw [Nat.toDigits_eq_if (by decide)]
  split
  next hlt => rw [Nat.mod_eq_of_lt hlt, List.nil_append]
  next => rfl

theorem isDigit_of_mem_digits {c : Char} (hc : c ∈ digits n) : c.isDigit :=
  Nat.isDigit_of_mem_toDigits (by decide) (by decide) hc

theorem bounds_of_mem_digits {c : Char} (hc : c ∈ digits n) : 0x30 ≤ c.toNat ∧ c.toNat ≤ 0x39 := by
  have hdigit := isDigit_of_mem_digits hc
  simpa [Char.isDigit, UInt32.le_iff_toNat_le] using hdigit

theorem toList_text (n : Nat) : (text n).toList = digits n :=
  String.toList_ofList

theorem ofText_text (n : Nat) : Bytes.ofText (text n) = Bytes.ofChars (digits n) := by
  rw [Bytes.ofText, toList_text]

theorem ofChars_digits (n : Nat) :
    Bytes.ofChars (digits n) = (digits n).map fun c => UInt8.ofNat c.toNat := by
  apply Bytes.ofChars_of_ascii
  intro c hc
  have hbounds := bounds_of_mem_digits hc
  omega

theorem last_byte (value : UInt64) :
    0x30 + (value % 10).toUInt8 = UInt8.ofNat (Nat.digitChar (value.toNat % 10)).toNat := by
  have hlt : value.toNat % 10 < 10 := Nat.mod_lt _ (by decide)
  rw [Nat.toNat_digitChar_of_lt_ten hlt]
  apply UInt8.toNat_inj.1
  simp

theorem length_digits_le (value : UInt64) : (digits value.toNat).length ≤ capacity := by
  have hfits : value.toNat < 10 ^ capacity := by
    have hlt := value.toNat_lt
    unfold capacity
    omega
  exact (Nat.length_toDigits_le_iff (by decide) (by decide)).2 hfits

theorem div_ten_eq_zero_iff : value / 10 = 0 ↔ value.toNat < 10 := by
  rw [← UInt64.toNat_inj, UInt64.toNat_div]
  change value.toNat / 10 = 0 ↔ value.toNat < 10
  omega

/-- A word with more than one digit has one digit more than what is left of it. -/
theorem length_digits_of_div_ne_zero (hne : value / 10 ≠ 0) :
    (digits value.toNat).length = (digits (value / 10).toNat).length + 1 := by
  rw [digits_eq, if_neg (mt div_ten_eq_zero_iff.2 hne), List.length_append, UInt64.toNat_div]
  rfl

/-- A rendering puts the digits before the place where it stops, and leaves the rest alone. -/
theorem renderBefore_eq (hroom : (digits value.toNat).length ≤ stop)
    (hbuffer : stop ≤ buffer.length) :
    renderBefore stop value buffer =
      ⟨buffer.take (stop - (digits value.toNat).length) ++ Bytes.ofChars (digits value.toNat) ++
        buffer.drop stop, stop - (digits value.toNat).length⟩ := by
  induction stop generalizing value buffer with
  | zero =>
      have hempty : digits value.toNat = [] := List.length_eq_zero_iff.1 (by omega)
      exact absurd hempty Nat.toDigits_ne_nil
  | succ place ih =>
      -- The last digit is put in first, so the digits before it are rendered into a buffer that
      -- already holds it, and leave it alone.
      have hset (byte : UInt8) :
          buffer.set place byte = buffer.take place ++ byte :: buffer.drop (place + 1) := by
        rw [List.set_eq_take_append_cons_drop, if_pos (by omega)]
      have hdigits := digits_eq value.toNat
      have hrest : (value / 10).toNat = value.toNat / 10 := by simp
      unfold renderBefore
      dsimp only
      rw [last_byte, hset]
      by_cases hlt : value.toNat < 10
      · have hzero : value / 10 = 0 := div_ten_eq_zero_iff.2 hlt
        rw [if_pos hlt, List.nil_append] at hdigits
        rw [if_pos hzero, ofChars_digits, hdigits]
        simp
      · have hne : value / 10 ≠ 0 := mt div_ten_eq_zero_iff.1 hlt
        have hmore := length_digits_of_div_ne_zero hne
        rw [if_neg hlt, ← hrest] at hdigits
        have htake : (buffer.take place).length = place := by
          rw [List.length_take]
          omega
        rw [if_neg hne, ih (by omega) (by simp; omega), hmore, Nat.add_sub_add_right,
          ofChars_digits, ofChars_digits value.toNat, hdigits, List.drop_left' htake,
          List.take_append_of_le_length (by omega), List.take_take]
        simp

/-- A rendering leaves the digits at the end of the buffer, and the rest as it was. -/
theorem render_eq (value : UInt64) (hbuffer : buffer.length = capacity) :
    render value buffer =
      ⟨buffer.take (capacity - (digits value.toNat).length) ++ Bytes.ofChars (digits value.toNat),
        capacity - (digits value.toNat).length⟩ := by
  have hbehind : buffer.drop capacity = [] := by
    rw [← hbuffer, List.drop_length]
  unfold render
  rw [renderBefore_eq (length_digits_le value) (Nat.le_of_eq hbuffer.symm), hbehind,
    List.append_nil]

theorem digits_render (value : UInt64) (hbuffer : buffer.length = capacity) :
    (render value buffer).digits = Bytes.ofChars (digits value.toNat) ∧
      (render value buffer).buffer.length = capacity := by
  have hroom := length_digits_le value
  have htake : (buffer.take (capacity - (digits value.toNat).length)).length =
      capacity - (digits value.toNat).length := by
    rw [List.length_take]
    omega
  rw [render_eq value hbuffer]
  constructor
  · exact List.drop_left' htake
  · rw [List.length_append, htake, ofChars_digits, List.length_map]
    omega

end Decimal

namespace Report

/-- The text of a report. -/
def text (ordinal size : Nat) : String :=
  "failrealloc: injected realloc failure at call #" ++ Decimal.text ordinal ++ " (size " ++
    Decimal.text size ++ ")\n"

theorem line_eq (ordinal size : UInt64) :
    line ordinal size = Bytes.ofText (text ordinal.toNat size.toNat) := by
  have hblank : (List.replicate Decimal.capacity (0 : UInt8)).length = Decimal.capacity :=
    List.length_replicate
  obtain ⟨hfirst, hleft⟩ := Decimal.digits_render ordinal hblank
  obtain ⟨hsecond, -⟩ := Decimal.digits_render size hleft
  unfold line text
  dsimp only
  rw [hfirst, hsecond]
  simp only [Bytes.ofText_append, Decimal.ofText_text]
  rfl

end Report

end GrowthFault
