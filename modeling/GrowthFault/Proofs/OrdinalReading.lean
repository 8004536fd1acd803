import GrowthFault.Policy
import GrowthFault.Proofs.DecimalRendering
import Mathlib.Data.List.Basic

/-!
# Reading an ordinal

The reader of ordinals passes over white space and a sign, and adds up the digits that follow.  What
it has read so far is the number that these digits stand for, or the greatest word once that number
is beyond it; no later digit brings it back.  So every word is read back from its decimal text.
-/

namespace GrowthFault.Policy

/-- The number that digits stand for. -/
def number (digits : Bytes) : Nat :=
  digits.foldl (fun n digit => 10 * n + (digit.toNat - 0x30)) 0

theorem toNat_appendDigit {n : UInt64} {m : Nat} (hn : n.toNat = min m greatest) (digit : UInt8) :
    (appendDigit n digit).toNat = min (10 * m + (digit.toNat - 0x30)) greatest := by
  have hfits : min (n.toNat * 10 + (digit.toNat - 0x30)) greatest < 2 ^ 64 :=
    Nat.lt_of_le_of_lt (Nat.min_le_right _ _) (by decide)
  rw [appendDigit, UInt64.toNat_ofNat', Nat.mod_eq_of_lt hfits, hn]
  omega

theorem foldl_appendDigit (digits : Bytes) :
    digits.foldl appendDigit 0 = .ofNat (min (number digits) greatest) := by
  -- The word and the number go along together, so both are generalized.
  have hgo (n : UInt64) (m : Nat) (hn : n.toNat = min m greatest) :
      (digits.foldl appendDigit n).toNat =
        min (digits.foldl (fun n digit => 10 * n + (digit.toNat - 0x30)) m) greatest := by
    induction digits generalizing n m with
    | nil => exact hn
    | cons digit digits ih => exact ih _ _ (toNat_appendDigit hn digit)
  rw [number, ← hgo 0 0 rfl, UInt64.ofNat_toNat]

variable {blanks sign digits rest : Bytes}

theorem isDigit_iff {b : UInt8} : isDigit b ↔ 0x30 ≤ b.toNat ∧ b.toNat ≤ 0x39 := by
  simp [isDigit, UInt8.le_iff_toNat_le]

theorem isBlank_eq_false {b : UInt8} (hb : 0x20 < b.toNat) : isBlank b = false := by
  simp only [isBlank, Bool.or_eq_false_iff, beq_eq_false_iff_ne, Bool.and_eq_false_iff,
    decide_eq_false_iff_not, UInt8.le_iff_toNat_le, ne_eq, ← UInt8.toNat_inj]
  constructor
  · exact Nat.ne_of_gt hb
  · right
    exact Nat.not_le_of_lt (Nat.lt_trans (by decide) hb)

theorem takeWhile_isDigit (hdigits : ∀ d ∈ digits, isDigit d)
    (hrest : ∀ d ∈ rest.head?, isDigit d = false) :
    (digits ++ rest).takeWhile isDigit = digits := by
  rw [List.takeWhile_append_of_pos hdigits]
  cases rest with
  | nil => simp
  | cons d rest =>
      have hd : isDigit d = false := hrest d rfl
      rw [List.takeWhile_cons_of_neg (by simp [hd]), List.append_nil]

/-- Digits after white space and a sign are read, whatever follows them. -/
theorem parseOrdinal_append (hblanks : ∀ b ∈ blanks, isBlank b)
    (hsign : sign = [] ∨ sign = [0x2B] ∨ sign = [0x2D]) (hdigits : ∀ d ∈ digits, isDigit d)
    (hsome : digits ≠ []) (hrest : ∀ d ∈ rest.head?, isDigit d = false) :
    parseOrdinal (blanks ++ (sign ++ (digits ++ rest))) =
      if sign = [0x2D] then 0 else .ofNat (min (number digits) greatest) := by
  obtain ⟨d, ds, rfl⟩ := List.exists_cons_of_ne_nil hsome
  have htake : (d :: (ds ++ rest)).takeWhile isDigit = d :: ds := takeWhile_isDigit hdigits hrest
  have hd := isDigit_iff.1 (hdigits d List.mem_cons_self)
  have hskip (b : UInt8) (hb : 0x20 < b.toNat) (bytes : Bytes) :
      (blanks ++ b :: bytes).dropWhile isBlank = b :: bytes := by
    rw [List.dropWhile_append_of_pos hblanks,
      List.dropWhile_cons_of_neg (by simp [isBlank_eq_false hb])]
  unfold parseOrdinal
  rcases hsign with rfl | rfl | rfl
  · have hminus : d ≠ 0x2D := by
      rintro rfl
      simp at hd
    have hplus : d ≠ 0x2B := by
      rintro rfl
      simp at hd
    rw [List.nil_append, List.cons_append, hskip d (by omega)]
    simp [hminus, hplus, htake, ← foldl_appendDigit]
  · rw [List.singleton_append, hskip 0x2B (by decide)]
    simp [htake, ← foldl_appendDigit]
  · rw [List.singleton_append, hskip 0x2D (by decide)]
    simp

theorem toNat_byte_of_mem_digits {n : Nat} {c : Char} (hc : c ∈ Decimal.digits n) :
    (UInt8.ofNat c.toNat).toNat = c.toNat := by
  have hbounds := Decimal.bounds_of_mem_digits hc
  exact Nat.mod_eq_of_lt (by omega)

theorem isDigit_of_mem_digits (n : Nat) : ∀ d ∈ Bytes.ofChars (Decimal.digits n), isDigit d := by
  rw [Decimal.ofChars_digits]
  intro d hd
  obtain ⟨c, hc, rfl⟩ := List.mem_map.1 hd
  rw [isDigit_iff, toNat_byte_of_mem_digits hc]
  exact Decimal.bounds_of_mem_digits hc

theorem number_digits (n : Nat) : number (Bytes.ofChars (Decimal.digits n)) = n := by
  calc number (Bytes.ofChars (Decimal.digits n))
    _ = Nat.ofDigitChars 10 (Decimal.digits n) 0 := by
        rw [Decimal.ofChars_digits, number, List.foldl_map, Nat.ofDigitChars_eq_foldl]
        apply List.foldl_ext
        intro m c hc
        rw [toNat_byte_of_mem_digits hc]
        rfl
    _ = n := Nat.ofDigitChars_toDigits (by decide) (by decide)

/-- A word is read back from its decimal text, behind white space and a plus sign, and whatever
follows it. -/
theorem parseOrdinal_append_digits (hblanks : ∀ b ∈ blanks, isBlank b)
    (hsign : sign = [] ∨ sign = [0x2B]) (hrest : ∀ d ∈ rest.head?, isDigit d = false) (n : UInt64) :
    parseOrdinal (blanks ++ (sign ++ (Bytes.ofChars (Decimal.digits n.toNat) ++ rest))) = n := by
  have hsome : Bytes.ofChars (Decimal.digits n.toNat) ≠ [] := by
    rw [Decimal.ofChars_digits]
    exact fun hnil => Nat.toDigits_ne_nil (List.map_eq_nil_iff.1 hnil)
  have hplus : sign ≠ [0x2D] := by
    rcases hsign with rfl | rfl <;> decide
  have hfits : n.toNat ≤ greatest := Nat.le_pred_of_lt n.toNat_lt
  rw [parseOrdinal_append hblanks (hsign.imp_right .inl) (isDigit_of_mem_digits n.toNat) hsome hrest,
    if_neg hplus, number_digits, Nat.min_eq_left hfits, UInt64.ofNat_toNat]

theorem parseOrdinal_digits (n : UInt64) :
    parseOrdinal (Bytes.ofChars (Decimal.digits n.toNat)) = n := by
  have hblanks : ∀ b ∈ ([] : Bytes), isBlank b := nofun
  have hrest : ∀ d ∈ ([] : Bytes).head?, isDigit d = false := nofun
  have hparse := parseOrdinal_append_digits hblanks (.inl rfl) hrest n
  rwa [List.append_nil] at hparse

end GrowthFault.Policy
