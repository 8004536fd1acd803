import GrowthFault.Json.Document
import GrowthFault.Proofs.PrintedText

/-!
# Written strings and numbers are read back

Strings are read one character after the other: an escape stands for one character, and the reader
takes as many characters as the escape has.  A number is read up to the first character that cannot
belong to it, so what follows a written number must not go on with it.
-/

namespace GrowthFault.Json

/-! ## Strings -/

theorem hexValue?_digitChar {k : Nat} (hk : k < 16) : hexValue? (Nat.digitChar k) = some k := by
  revert k
  decide

theorem hexUnit_control {c : Char} (hc : c.toNat < 0x20) (rest : List Char) :
    hexUnit ('0' :: '0' :: Nat.digitChar (c.toNat / 16) :: Nat.digitChar (c.toNat % 16) :: rest) =
      .ok (c.toNat, rest) := by
  have hzero : hexValue? '0' = some 0 := by decide
  have hhigh := hexValue?_digitChar (k := c.toNat / 16) (by omega)
  have hlow := hexValue?_digitChar (k := c.toNat % 16) (by omega)
  have hvalue : ((0 * 16 + 0) * 16 + c.toNat / 16) * 16 + c.toNat % 16 = c.toNat := by omega
  simp only [hexUnit, hzero, hhigh, hlow, hvalue]

theorem readEscape_control {c : Char} (hc : c.toNat < 0x20) (rest : List Char) :
    readEscape ('u' :: '0' :: '0' :: Nat.digitChar (c.toNat / 16) ::
      Nat.digitChar (c.toNat % 16) :: rest) = .ok (c, 5) := by
  have hsimple : simpleEscape? 'u' = none := by decide
  have hpaired : ¬ (0xDC00 ≤ c.toNat ∧ c.toNat ≤ 0xDFFF) := by omega
  have hsingle : c.toNat < 0xD800 ∨ 0xDBFF < c.toNat := by omega
  simp only [readEscape, hsimple, unicodeEscape, hexUnit_control hc, hpaired, hsingle, if_true,
    if_false, bind, Except.bind, Char.ofNat_toNat, Except.map]

theorem skipEscape_control {c : Char} (hc : c.toNat < 0x20) (rest : List Char) :
    skipEscape ('u' :: '0' :: '0' :: Nat.digitChar (c.toNat / 16) ::
      Nat.digitChar (c.toNat % 16) :: rest) = .ok 5 := by
  have hsimple : simpleEscape? 'u' = none := by decide
  simp only [skipEscape, hsimple, hexUnit_control hc, if_true, Except.map]

/-- The body of an escape: what is behind the backslash. -/
structure EscapeBody (c : Char) (body : List Char) : Prop where
  read : ∀ rest, readEscape (body ++ rest) = .ok (c, body.length)
  skip : ∀ rest, skipEscape (body ++ rest) = .ok body.length
  line : '\n' ∉ body

theorem EscapeBody.simple {c e : Char} (h : simpleEscape? e = some c) : EscapeBody c [e] where
  read rest := by simp [readEscape, h]
  skip rest := by simp [skipEscape, h]
  line hline := by
    rw [← List.mem_singleton.1 hline] at h
    cases h

theorem EscapeBody.control {c : Char} (hc : c.toNat < 0x20) :
    EscapeBody c
      ['u', '0', '0', Nat.digitChar (c.toNat / 16), Nat.digitChar (c.toNat % 16)] where
  read := readEscape_control hc
  skip := skipEscape_control hc
  line := by
    have hdigit {k : Nat} (hk : k < 16) : Nat.digitChar k ≠ '\n' := by
      revert k
      decide
    have hhigh := (hdigit (k := c.toNat / 16) (by omega)).symm
    have hlow := (hdigit (k := c.toNat % 16) (by omega)).symm
    simp [hhigh, hlow]

/-- A character inside a string stands for itself, or it is written as an escape. -/
theorem escape_cases (c : Char) :
    (escape c = [c] ∧ c ≠ '"' ∧ c ≠ '\\' ∧ ¬ c.toNat < 0x20) ∨
      ∃ body, escape c = '\\' :: body ∧ EscapeBody c body := by
  by_cases hcontrol : c.toNat < 0x20
  · right
    have hquote : c ≠ '"' := by
      rintro rfl
      revert hcontrol
      decide
    have hbackslash : c ≠ '\\' := by
      rintro rfl
      revert hcontrol
      decide
    rw [escape, if_neg hquote, if_neg hbackslash, if_pos hcontrol]
    split
    next h => exact ⟨_, rfl, .simple (by rw [h]; rfl)⟩
    next =>
      split
      next h => exact ⟨_, rfl, .simple (by rw [h]; rfl)⟩
      next =>
        split
        next h => exact ⟨_, rfl, .simple (by rw [h]; rfl)⟩
        next =>
          split
          next h => exact ⟨_, rfl, .simple (by rw [h]; rfl)⟩
          next =>
            split
            next h => exact ⟨_, rfl, .simple (by rw [h]; rfl)⟩
            next => exact ⟨_, rfl, .control hcontrol⟩
  · by_cases hquote : c = '"'
    · exact .inr ⟨_, if_pos hquote, .simple (by rw [hquote]; rfl)⟩
    · by_cases hbackslash : c = '\\'
      · refine .inr ⟨['\\'], ?_, .simple (by rw [hbackslash]; rfl)⟩
        rw [escape, if_neg hquote, if_pos hbackslash]
      · left
        rw [escape, if_neg hquote, if_neg hbackslash, if_neg hcontrol]
        exact ⟨rfl, hquote, hbackslash, hcontrol⟩

theorem readString_taken (body rest : List Char) :
    readString body.length (body ++ rest) = readString 0 rest := by
  induction body with
  | nil => rfl
  | cons c body ih => exact ih

theorem skipString_taken (body rest : List Char) :
    skipString body.length (body ++ rest) = skipString 0 rest := by
  induction body with
  | nil => rfl
  | cons c body ih => exact ih

theorem readString_escape (c : Char) (rest : List Char) :
    readString 0 (escape c ++ rest) = (readString 0 rest).map (c :: ·) := by
  rcases escape_cases c with ⟨hplain, hquote, hbackslash, hcontrol⟩ | ⟨body, hbody, hescape⟩
  · rw [hplain, List.singleton_append, readString, if_neg hquote, if_neg hbackslash,
      if_neg hcontrol]
    cases readString 0 rest <;> rfl
  · rw [hbody, List.cons_append, readString, if_neg (by decide), if_pos rfl, hescape.read rest]
    simp only [bind, Except.bind, readString_taken]
    cases readString 0 rest <;> rfl

theorem skipString_escape (c : Char) (rest : List Char) :
    skipString 0 (escape c ++ rest) = skipString 0 rest := by
  rcases escape_cases c with ⟨hplain, hquote, hbackslash, hcontrol⟩ | ⟨body, hbody, hescape⟩
  · rw [hplain, List.singleton_append, skipString, if_neg hquote, if_neg hbackslash,
      if_neg hcontrol]
  · rw [hbody, List.cons_append, skipString, if_neg (by decide), if_pos rfl, hescape.skip rest]
    exact skipString_taken body rest

theorem readString_escaped (chars rest : List Char) :
    readString 0 (chars.flatMap escape ++ '"' :: rest) = .ok chars := by
  induction chars with
  | nil => rfl
  | cons c chars ih =>
      rw [List.flatMap_cons, List.append_assoc, readString_escape, ih]
      rfl

theorem skipString_escaped (chars rest : List Char) :
    skipString 0 (chars.flatMap escape ++ '"' :: rest) = .ok rest := by
  induction chars with
  | nil => rfl
  | cons c chars ih => rw [List.flatMap_cons, List.append_assoc, skipString_escape, ih]

theorem newline_escape (c : Char) : '\n' ∉ escape c := by
  rcases escape_cases c with ⟨hplain, -, -, hcontrol⟩ | ⟨body, hbody, hescape⟩
  · rw [hplain, List.mem_singleton]
    rintro rfl
    exact hcontrol (by decide)
  · rw [hbody, List.mem_cons, not_or]
    exact ⟨by decide, hescape.line⟩

/-- A line ending inside a string is escaped. -/
theorem newline_quoted (text : String) : '\n' ∉ quoted text := by
  intro hmem
  rcases List.mem_append.1 hmem with hmem | hmem
  · rcases List.mem_cons.1 hmem with hquote | hmem
    · cases hquote
    · obtain ⟨c, -, hc⟩ := List.mem_flatMap.1 hmem
      exact newline_escape c hc
  · cases List.mem_singleton.1 hmem

/-! ## Numbers -/

open Decimal

variable {c : Char} {rest : List Char}

/-- A text that does not go on with a number before it. -/
structure Ends (rest : List Char) : Prop where
  digit : ∀ c ∈ rest.head?, c.isDigit = false
  mark : continues rest = false

theorem Ends.nil : Ends [] := ⟨nofun, rfl⟩

theorem Ends.cons (hdigit : c.isDigit = false) (hmark : continues [c] = false)
    (rest : List Char) : Ends (c :: rest) where
  digit d hd := by
    cases hd
    exact hdigit
  mark := hmark

theorem head?_digits_ne {n : Nat} (hn : n ≠ 0) : (digits n).head? ≠ some '0' := by
  induction n using Nat.strongRecOn with
  | ind n ih =>
      rw [digits_eq]
      split
      next hsmall =>
        rw [Nat.mod_eq_of_lt hsmall]
        have hdigit : ∀ k < 10, k ≠ 0 → [Nat.digitChar k].head? ≠ some '0' := by decide
        exact hdigit n hsmall hn
      next hlarge =>
        have hne : digits (n / 10) ≠ [] := Nat.toDigits_ne_nil
        rw [List.head?_append, List.head?_eq_some_head hne, Option.some_or,
          ← List.head?_eq_some_head hne]
        exact ih (n / 10) (by omega) (by omega)

/-- Written digits begin with a digit, which is zero for zero only. -/
theorem exists_digits (n : Nat) :
    ∃ d ds, digits n = d :: ds ∧ d.isDigit = true ∧ (n ≠ 0 → d ≠ '0') := by
  cases hdigits : digits n with
  | nil => exact absurd hdigits Nat.toDigits_ne_nil
  | cons d ds =>
      refine ⟨d, ds, rfl, isDigit_of_mem_digits (hdigits ▸ List.mem_cons_self), fun hn hd => ?_⟩
      exact head?_digits_ne hn (by rw [hdigits, hd]; rfl)

theorem ne_minus_of_isDigit (hc : c.isDigit = true) : c ≠ '-' := by
  rintro rfl
  cases hc

theorem spanDigits_digits (hends : Ends rest) (n : Nat) :
    spanDigits (digits n ++ rest) = (digits n, rest) := by
  have hdigits : ∀ c ∈ digits n, c.isDigit = true := fun c hc => isDigit_of_mem_digits hc
  have hrest : rest.takeWhile Char.isDigit = [] ∧ rest.dropWhile Char.isDigit = rest := by
    cases rest with
    | nil => exact ⟨rfl, rfl⟩
    | cons c rest =>
        have hc := hends.digit c rfl
        simp [hc]
  rw [spanDigits, List.takeWhile_append_of_pos hdigits, List.dropWhile_append_of_pos hdigits,
    hrest.1, hrest.2, List.append_nil]

theorem accumulate_eq {ds : List Char} {m : Nat}
    (hfits : Nat.ofDigitChars 10 ds m < UInt64.size) :
    accumulate m ds = (Nat.ofDigitChars 10 ds m, []) := by
  induction ds generalizing m with
  | nil => rfl
  | cons d ds ih =>
      have hle := le_ofDigitChars ds (10 * m + (d.toNat - '0'.toNat))
      rw [Nat.ofDigitChars_cons] at hfits ⊢
      have hvalue : m * 10 + (d.toNat - '0'.toNat) = 10 * m + (d.toNat - '0'.toNat) := by
        omega
      rw [accumulate, hvalue, if_pos (by omega), ih hfits]

theorem readUnsigned_digits (negative : Bool) {n : Nat} (hn : n < UInt64.size)
    (hends : Ends rest) : readUnsigned negative (digits n ++ rest) = .ok (exact negative n) := by
  by_cases hzero : n = 0
  · subst hzero
    have hdigits : digits 0 = ['0'] := rfl
    rw [hdigits, List.singleton_append]
    cases rest with
    | nil => rfl
    | cons c rest =>
        have hc := hends.digit c rfl
        simp [readUnsigned, hc, hends.mark]
  · have hspan := spanDigits_digits hends n
    have haccumulate : accumulate 0 (digits n) = (n, []) := by
      have hvalue : Nat.ofDigitChars 10 (digits n) 0 = n := Nat.ofDigitChars_ten_toDigits
      rw [accumulate_eq (by rw [hvalue]; exact hn), hvalue]
    obtain ⟨d, ds, hdigits, -, hd⟩ := exists_digits n
    have hd := hd hzero
    rw [hdigits] at hspan haccumulate ⊢
    rw [List.cons_append] at hspan ⊢
    simp [readUnsigned, hspan, haccumulate, hends.mark]

theorem Ends.skipTail_eq (hends : Ends rest) : skipTail rest = .ok rest := by
  have hmark := hends.mark
  unfold skipTail
  split
  next => cases hmark
  next => cases hmark
  next => cases hmark
  next => rfl

theorem skipNumber_digits (n : Nat) (hends : Ends rest) :
    skipNumber (digits n ++ rest) = .ok rest ∧ skipNumber ('-' :: digits n ++ rest) = .ok rest := by
  by_cases hzero : n = 0
  · subst hzero
    have hdigits : digits 0 = ['0'] := rfl
    rw [hdigits, List.singleton_append]
    cases rest with
    | nil => exact ⟨rfl, rfl⟩
    | cons c rest =>
        have hc := hends.digit c rfl
        simp [skipNumber, hc, hends.skipTail_eq]
  · have hspan := spanDigits_digits hends n
    obtain ⟨d, ds, hdigits, hdigit, hd⟩ := exists_digits n
    have hsign := ne_minus_of_isDigit hdigit
    have hd := hd hzero
    rw [hdigits] at hspan ⊢
    rw [List.cons_append] at hspan ⊢
    simp [skipNumber, hsign, hd, hspan, hends.skipTail_eq]

theorem readNumber_digits {n : Nat} (hn : n < UInt64.size) (hends : Ends rest) :
    readNumber (digits n ++ rest) = .ok (.natural (UInt64.ofNat n)) := by
  have hread : readUnsigned false (digits n ++ rest) = .ok (.natural (UInt64.ofNat n)) :=
    readUnsigned_digits false hn hends
  obtain ⟨d, ds, hdigits, hdigit, -⟩ := exists_digits n
  have hsign := ne_minus_of_isDigit hdigit
  rw [hdigits] at hread ⊢
  rw [List.cons_append] at hread ⊢
  simpa [readNumber, hsign] using hread

/-- What a whole number is written as is read as the number, up to what follows it. -/
theorem written_number {n : Number} (h : n.int?.isSome) :
    (∃ c cs, n.text = c :: cs ∧ (c = '-' ∨ c.isDigit = true)) ∧
      ∀ rest, Ends rest →
        readNumber (n.text ++ rest) = .ok n ∧ skipNumber (n.text ++ rest) = .ok rest := by
  cases n with
  | double bits => cases h
  | natural n =>
      obtain ⟨d, ds, hdigits, hdigit, -⟩ := exists_digits n.toNat
      refine ⟨⟨d, ds, hdigits, .inr hdigit⟩, fun rest hends => ?_⟩
      have hread := readNumber_digits n.toNat_lt hends
      rw [UInt64.ofNat_toNat] at hread
      exact ⟨hread, (skipNumber_digits n.toNat hends).1⟩
  | negative k =>
      have hk := k.isLt
      have hfits : k.val + 1 < UInt64.size := by
        have : (0x8000000000000000 : Nat) < UInt64.size := by decide
        omega
      refine ⟨⟨'-', _, rfl, .inl rfl⟩, fun rest hends => ⟨?_, (skipNumber_digits _ hends).2⟩⟩
      have hread := readUnsigned_digits true hfits hends
      have hexact : exact true (k.val + 1) = .negative k := by
        have hbounds : 0 < k.val + 1 ∧ k.val + 1 ≤ 0x8000000000000000 := by omega
        simp [exact, hbounds]
      rw [hexact] at hread
      exact hread

theorem newline_text {n : Number} (h : n.int?.isSome) : '\n' ∉ n.text := by
  cases n with
  | double bits => cases h
  | natural n => exact newline_digits n.toNat
  | negative k =>
      rw [Number.text, List.mem_cons, not_or]
      exact ⟨by decide, newline_digits (k.val + 1)⟩

end GrowthFault.Json
