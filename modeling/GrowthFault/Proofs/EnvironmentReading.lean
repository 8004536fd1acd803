import GrowthFault.Proofs.OrdinalReading
import GrowthFault.Proofs.TextLines
import Mathlib.Data.List.Forall2

/-!
# Reading the environment

A value that gives an ordinal is divided into white space, a sign or none, digits, and what follows,
each part as long as it can be.  There is one way to divide it, and the ordinal is the number of the
digits, or the greatest word.  A value that switches reports on is one of four words, in any case
and between blanks.

The reader goes through the value place by place.  It looks at no place outside it, and its
arithmetic, done in words, saturates and does not wrap.
-/

namespace GrowthFault

namespace Policy

/-! ## Ordinals -/

/-- White space in front of an ordinal: space, tab, newline, vertical tab, form feed, return. -/
def whiteSpace : Bytes := [0x20, 0x09, 0x0A, 0x0B, 0x0C, 0x0D]

theorem isBlank_iff_mem {b : UInt8} : isBlank b = true ↔ b ∈ whiteSpace := by
  simp only [isBlank, whiteSpace, Bool.or_eq_true, Bool.and_eq_true, beq_iff_eq, decide_eq_true_eq,
    UInt8.le_iff_toNat_le, List.mem_cons, List.not_mem_nil, or_false, ← UInt8.toNat_inj]
  simp only [UInt8.reduceToNat]
  omega

inductive Sign where
  | absent
  | plus
  | minus
  deriving DecidableEq

def Sign.bytes : Sign → Bytes
  | .absent => []
  | .plus => [0x2B]
  | .minus => [0x2D]

/-- A value divided for reading.  No byte that begins the next part would go on with the one before
it, so every part is as long as it can be. -/
@[ext]
structure OrdinalText where
  blanks : Bytes
  sign : Sign
  digits : Bytes
  rest : Bytes
  blanks_space : ∀ b ∈ blanks, b ∈ whiteSpace
  blanks_end : ∀ b ∈ (sign.bytes ++ (digits ++ rest)).head?, b ∉ whiteSpace
  sign_end : sign = .absent → ∀ b ∈ (digits ++ rest).head?, b ≠ 0x2B ∧ b ≠ 0x2D
  digits_digit : ∀ b ∈ digits, 0x30 ≤ b.toNat ∧ b.toNat ≤ 0x39
  digits_end : ∀ b ∈ rest.head?, ¬ (0x30 ≤ b.toNat ∧ b.toNat ≤ 0x39)

namespace OrdinalText

def bytes (text : OrdinalText) : Bytes :=
  text.blanks ++ (text.sign.bytes ++ (text.digits ++ text.rest))

/-- The ordinal that a value stands for: none without digits or below zero, and no more than the
greatest word. -/
def value (text : OrdinalText) : Nat :=
  if text.digits = [] ∨ text.sign = .minus then 0 else min (number text.digits) (UInt64.size - 1)

end OrdinalText

/-- A sign that stands in front of a text, if there is one. -/
theorem exists_sign (number : Bytes) : ∃ sign unsigned, number = Sign.bytes sign ++ unsigned ∧
    (sign = .absent → ∀ b ∈ unsigned.head?, b ≠ 0x2B ∧ b ≠ 0x2D) := by
  cases number with
  | nil => exact ⟨.absent, [], rfl, nofun⟩
  | cons b rest =>
      by_cases hplus : b = 0x2B
      · exact ⟨.plus, rest, by rw [hplus]; rfl, nofun⟩
      · by_cases hminus : b = 0x2D
        · exact ⟨.minus, rest, by rw [hminus]; rfl, nofun⟩
        · refine ⟨.absent, b :: rest, rfl, fun _ c hc => ?_⟩
          cases hc
          exact ⟨hplus, hminus⟩

/-- The sign that a text begins with. -/
def signOf : Bytes → Sign
  | 0x2B :: _ => .plus
  | 0x2D :: _ => .minus
  | _ => .absent

theorem signOf_append {sign : Sign} {unsigned : Bytes}
    (hsign : sign = .absent → ∀ b ∈ unsigned.head?, b ≠ 0x2B ∧ b ≠ 0x2D) :
    signOf (sign.bytes ++ unsigned) = sign := by
  cases sign with
  | absent =>
      cases unsigned with
      | nil => rfl
      | cons b rest =>
          obtain ⟨hplus, hminus⟩ := hsign rfl b rfl
          simp [Sign.bytes, signOf, hplus, hminus]
  | plus => rfl
  | minus => rfl

namespace OrdinalText

variable (text : OrdinalText)

theorem isBlank_of_mem : ∀ b ∈ text.blanks, isBlank b = true := by
  intro b hb
  exact isBlank_iff_mem.2 (text.blanks_space b hb)

theorem isBlank_behind :
    ∀ b ∈ (text.sign.bytes ++ (text.digits ++ text.rest)).head?, isBlank b = false := by
  intro b hb
  rw [← Bool.not_eq_true, isBlank_iff_mem]
  exact text.blanks_end b hb

theorem isDigit_of_mem : ∀ b ∈ text.digits, isDigit b = true := by
  intro b hb
  exact isDigit_iff.2 (text.digits_digit b hb)

theorem isDigit_behind : ∀ b ∈ text.rest.head?, isDigit b = false := by
  intro b hb
  rw [← Bool.not_eq_true, isDigit_iff]
  exact text.digits_end b hb

theorem span_blanks : text.bytes.takeWhile isBlank = text.blanks ∧
    text.bytes.dropWhile isBlank = text.sign.bytes ++ (text.digits ++ text.rest) :=
  Text.span_append text.isBlank_of_mem text.isBlank_behind

theorem span_digits : (text.digits ++ text.rest).takeWhile isDigit = text.digits ∧
    (text.digits ++ text.rest).dropWhile isDigit = text.rest :=
  Text.span_append text.isDigit_of_mem text.isDigit_behind

theorem bytes_injective : Function.Injective bytes := by
  intro text other hsame
  have hblanks : text.blanks = other.blanks := by
    rw [← text.span_blanks.1, ← other.span_blanks.1, hsame]
  have hnumber : text.sign.bytes ++ (text.digits ++ text.rest) =
      other.sign.bytes ++ (other.digits ++ other.rest) := by
    rw [← text.span_blanks.2, ← other.span_blanks.2, hsame]
  have hsign : text.sign = other.sign := by
    rw [← signOf_append text.sign_end, ← signOf_append other.sign_end, hnumber]
  have hunsigned : text.digits ++ text.rest = other.digits ++ other.rest := by
    rw [hsign] at hnumber
    exact List.append_cancel_left hnumber
  have hdigits : text.digits = other.digits := by
    rw [← text.span_digits.1, ← other.span_digits.1, hunsigned]
  have hrest : text.rest = other.rest := by
    rw [← text.span_digits.2, ← other.span_digits.2, hunsigned]
  exact OrdinalText.ext hblanks hsign hdigits hrest

theorem bytes_surjective : Function.Surjective bytes := by
  intro raw
  obtain ⟨sign, unsigned, hnumber, hsign⟩ := exists_sign (raw.dropWhile isBlank)
  have hraw : raw = raw.takeWhile isBlank ++ (sign.bytes ++ unsigned) := by
    rw [← hnumber, List.takeWhile_append_dropWhile]
  have hunsigned : unsigned.takeWhile isDigit ++ unsigned.dropWhile isDigit = unsigned :=
    List.takeWhile_append_dropWhile
  refine ⟨⟨raw.takeWhile isBlank, sign, unsigned.takeWhile isDigit, unsigned.dropWhile isDigit,
    ?_, ?_, ?_, ?_, ?_⟩, ?_⟩
  · intro b hb
    exact isBlank_iff_mem.1 (List.mem_takeWhile_imp hb)
  · intro b hb
    rw [hunsigned, ← hnumber] at hb
    rw [← isBlank_iff_mem, Text.head?_dropWhile isBlank b hb]
    exact Bool.false_ne_true
  · rwa [hunsigned]
  · intro b hb
    exact isDigit_iff.1 (List.mem_takeWhile_imp hb)
  · intro b hb
    rw [← isDigit_iff, Text.head?_dropWhile isDigit b hb]
    exact Bool.false_ne_true
  · change raw.takeWhile isBlank ++
      (sign.bytes ++ (unsigned.takeWhile isDigit ++ unsigned.dropWhile isDigit)) = raw
    rw [hunsigned, ← hraw]

theorem parseOrdinal_bytes : parseOrdinal text.bytes =
    if text.digits = [] ∨ text.sign = .minus then 0 else text.digits.foldl appendDigit 0 := by
  have hsign := text.sign_end
  have hdigits := text.span_digits.1
  unfold parseOrdinal
  rw [text.span_blanks.2]
  generalize text.digits ++ text.rest = unsigned at *
  cases htext : text.sign with
  | absent =>
      have hnone := hsign htext
      cases unsigned with
      | nil => simp [Sign.bytes, ← hdigits]
      | cons b rest =>
          obtain ⟨hplus, hminus⟩ := hnone b rfl
          simp [Sign.bytes, hplus, hminus, hdigits]
  | plus => simp [Sign.bytes, hdigits]
  | minus => simp [Sign.bytes]

theorem toNat_parseOrdinal : (parseOrdinal text.bytes).toNat = text.value := by
  rw [parseOrdinal_bytes, value]
  split
  next => rfl
  next =>
    have hfits : min (number text.digits) greatest < 2 ^ 64 :=
      Nat.lt_of_le_of_lt (Nat.min_le_right _ _) (by decide)
    rw [foldl_appendDigit, UInt64.toNat_ofNat', Nat.mod_eq_of_lt hfits]
    rfl

end OrdinalText

/-! ## Place by place -/

/-- Go on from a place while the bytes are wanted, and use each of them.  The answer is what has come
of it, and the place behind them; there is none once a place outside the value is looked at. -/
def scan {α : Type} (wanted : UInt8 → Bool) (use : α → UInt8 → Option α) (raw : Bytes) (place : Nat)
    (found : α) : Option (α × Nat) :=
  if place < raw.length then do
    let b ← raw[place]?
    if wanted b then do
      let found ← use found b
      scan wanted use raw (place + 1) found
    else some (found, place)
  else some (found, place)
termination_by raw.length - place

/-- Whether there is a minus sign at a place, and the place behind a sign. -/
def scanSign (raw : Bytes) (place : Nat) : Option (Bool × Nat) :=
  if place < raw.length then do
    let b ← raw[place]?
    if b = 0x2D ∨ b = 0x2B then some (b = 0x2D, place + 1) else some (false, place)
  else some (false, place)

/-- What a digit is worth, if the subtraction does not go below zero. -/
def worth? (b : UInt8) : Option UInt64 :=
  if 0x30 ≤ b then some (b - 0x30).toUInt64 else none

/-- A product in words, or the greatest word if it is too large for one. -/
def saturatingMul (m n : UInt64) : UInt64 :=
  if m.toNat * n.toNat < UInt64.size then m * n else UInt64.ofNat greatest

/-- A sum in words, or the greatest word if it is too large for one. -/
def saturatingAdd (m n : UInt64) : UInt64 :=
  if m.toNat + n.toNat < UInt64.size then m + n else UInt64.ofNat greatest

/-- The number read so far, and whether there has been a digit, with one more digit. -/
def useDigit (found : UInt64 × Bool) (b : UInt8) : Option (UInt64 × Bool) := do
  let digit ← worth? b
  some (saturatingAdd (saturatingMul found.1 10) digit, true)

def passOver (_ : Unit) (_ : UInt8) : Option Unit :=
  some ()

/-- Read an ordinal place by place: the ordinal, and the place where reading stops. -/
def scanOrdinal (raw : Bytes) : Option (UInt64 × Nat) := do
  let (_, place) ← scan isBlank passOver raw 0 ()
  let (negative, place) ← scanSign raw place
  let ((value, any), place) ← scan isDigit useDigit raw place (0, false)
  some (if !any || negative then 0 else value, place)

theorem getElem?_between (before after : Bytes) : (before ++ after)[before.length]? = after.head? := by
  rw [List.getElem?_append_right (Nat.le_refl _), Nat.sub_self, List.head?_eq_getElem?]

theorem scan_append {α : Type} {wanted : UInt8 → Bool} {use : α → UInt8 → Option α}
    {next : α → UInt8 → α} (huse : ∀ found b, wanted b = true → use found b = some (next found b))
    {stretch rest : Bytes} (hstretch : ∀ b ∈ stretch, wanted b = true)
    (hrest : ∀ b ∈ rest.head?, wanted b = false) (before : Bytes) (found : α) :
    scan wanted use (before ++ (stretch ++ rest)) before.length found =
      some (stretch.foldl next found, before.length + stretch.length) := by
  induction stretch generalizing before found with
  | nil =>
      rw [scan, List.nil_append, getElem?_between]
      cases rest with
      | nil => simp
      | cons b rest =>
          have hb : wanted b = false := hrest b rfl
          simp [hb]
  | cons b stretch ih =>
      obtain ⟨hb, hmore⟩ := List.forall_mem_cons.1 hstretch
      have hnext := ih hmore (before ++ [b]) (next found b)
      rw [List.length_append, List.length_singleton, List.append_assoc, List.singleton_append] at hnext
      have hinside : before.length < (before ++ (b :: stretch ++ rest)).length := by
        simp
      rw [scan, if_pos hinside, getElem?_between]
      simp only [List.cons_append, List.head?_cons, Option.bind_eq_bind, Option.bind_some, hb, if_true,
        huse found b hb, hnext, List.foldl_cons, List.length_cons]
      congr 2
      omega

theorem scanSign_append (before : Bytes) (sign : Sign) (unsigned : Bytes)
    (hsign : sign = .absent → ∀ b ∈ unsigned.head?, b ≠ 0x2B ∧ b ≠ 0x2D) :
    scanSign (before ++ (sign.bytes ++ unsigned)) before.length =
      some (decide (sign = .minus), before.length + sign.bytes.length) := by
  rw [scanSign, getElem?_between]
  cases sign with
  | absent =>
      cases unsigned with
      | nil => simp [Sign.bytes]
      | cons b rest =>
          obtain ⟨hplus, hminus⟩ := hsign rfl b rfl
          simp [Sign.bytes, hplus, hminus]
  | plus => simp [Sign.bytes]
  | minus => simp [Sign.bytes]

theorem toNat_saturatingMul (m n : UInt64) :
    (saturatingMul m n).toNat = min (m.toNat * n.toNat) greatest := by
  have hgreatest : greatest = UInt64.size - 1 := rfl
  unfold saturatingMul
  split
  next hfits => rw [UInt64.toNat_mul, Nat.mod_eq_of_lt hfits, Nat.min_eq_left (by omega)]
  next hlarge =>
    rw [Nat.min_eq_right (by omega)]
    rfl

theorem toNat_saturatingAdd (m n : UInt64) :
    (saturatingAdd m n).toNat = min (m.toNat + n.toNat) greatest := by
  have hgreatest : greatest = UInt64.size - 1 := rfl
  unfold saturatingAdd
  split
  next hfits => rw [UInt64.toNat_add, Nat.mod_eq_of_lt hfits, Nat.min_eq_left (by omega)]
  next hlarge =>
    rw [Nat.min_eq_right (by omega)]
    rfl

/-- The subtraction of a digit stays above zero, and saturating twice comes to the same as once. -/
theorem useDigit_eq (found : UInt64 × Bool) (b : UInt8) (hb : isDigit b = true) :
    useDigit found b = some (appendDigit found.1 b, true) := by
  have hlow : (0x30 : UInt8) ≤ b := UInt8.le_iff_toNat_le.2 (isDigit_iff.1 hb).1
  have hworth : (b - 0x30).toUInt64.toNat = b.toNat - 0x30 := UInt8.toNat_sub_of_le b 0x30 hlow
  have hgreatest : found.1.toNat ≤ greatest := Nat.le_pred_of_lt found.1.toNat_lt
  have happend := toNat_appendDigit (Nat.min_eq_left hgreatest).symm b
  have hsame : saturatingAdd (saturatingMul found.1 10) (b - 0x30).toUInt64 =
      appendDigit found.1 b := by
    apply UInt64.toNat_inj.1
    have hten : (10 : UInt64).toNat = 10 := rfl
    rw [toNat_saturatingAdd, toNat_saturatingMul, hworth, happend, hten]
    omega
  rw [useDigit, worth?, if_pos hlow, ← hsame]
  rfl

theorem foldl_useDigit (digits : Bytes) (value : UInt64) (any : Bool) :
    digits.foldl (fun found b => (appendDigit found.1 b, true)) (value, any) =
      (digits.foldl appendDigit value, any || !digits.isEmpty) := by
  induction digits generalizing value any with
  | nil => simp
  | cons b digits ih => simp [ih]

/-- Reading place by place gives the ordinal, and stops behind the digits. -/
theorem scanOrdinal_bytes (text : OrdinalText) : scanOrdinal text.bytes =
    some (parseOrdinal text.bytes,
      text.blanks.length + text.sign.bytes.length + text.digits.length) := by
  have hpass (found : Unit) (b : UInt8) (_ : isBlank b = true) : passOver found b = some found := rfl
  have hblanks := scan_append hpass text.isBlank_of_mem text.isBlank_behind [] ()
  have hsign := scanSign_append text.blanks text.sign (text.digits ++ text.rest) text.sign_end
  have hdigits := scan_append useDigit_eq text.isDigit_of_mem text.isDigit_behind
    (text.blanks ++ text.sign.bytes) (0, false)
  rw [List.length_append, List.append_assoc, foldl_useDigit] at hdigits
  simp only [List.nil_append, List.length_nil, Nat.zero_add] at hblanks
  rw [text.parseOrdinal_bytes]
  unfold scanOrdinal OrdinalText.bytes
  rw [hblanks]
  simp [hsign, hdigits]

/-! ## Switches -/

/-- White space around a switch: space, tab, newline, form feed, return. -/
def switchSpace : Bytes := [0x20, 0x09, 0x0A, 0x0C, 0x0D]

theorem isSwitchBlank_iff_mem {b : UInt8} : isSwitchBlank b = true ↔ b ∈ switchSpace := by
  rw [isSwitchBlank, Bool.and_eq_true, isBlank_iff_mem]
  simp only [whiteSpace, switchSpace, bne_iff_ne, List.mem_cons, List.not_mem_nil, or_false, ne_eq,
    ← UInt8.toNat_inj, UInt8.reduceToNat]
  omega

def Capital (b : UInt8) : Prop :=
  0x41 ≤ b.toNat ∧ b.toNat ≤ 0x5A

instance (b : UInt8) : Decidable (Capital b) :=
  inferInstanceAs (Decidable (0x41 ≤ b.toNat ∧ b.toNat ≤ 0x5A))

/-- A byte, or the capital of a letter. -/
def SameLetter (b w : UInt8) : Prop :=
  b = w ∨ Capital b ∧ w.toNat = b.toNat + 0x20

/-- A text that differs from a word in lower case at most by capitals. -/
def SameButCase (bytes word : Bytes) : Prop :=
  List.Forall₂ SameLetter bytes word

/-- A value that switches on: one of the words, in any case and between white space. -/
def SwitchesOn (raw : Bytes) : Prop :=
  ∃ middle, Text.Trims (· ∈ switchSpace) raw middle ∧
    ∃ word ∈ ["1", "true", "yes", "on"], SameButCase middle (Bytes.ofText word)

theorem lowerCase_eq_iff {b w : UInt8} (hw : ¬ Capital w) :
    lowerCase b = w ↔ SameLetter b w := by
  have hcapital : (0x41 ≤ b && b ≤ 0x5A) = true ↔ Capital b := by
    simp [Capital, UInt8.le_iff_toNat_le]
  unfold lowerCase SameLetter
  by_cases hb : Capital b
  · have hne : b ≠ w := fun heq => hw (heq ▸ hb)
    have hshift : (b + 0x20).toNat = b.toNat + 0x20 := by
      obtain ⟨-, hlast⟩ := hb
      rw [UInt8.toNat_add]
      exact Nat.mod_eq_of_lt (Nat.lt_of_le_of_lt (Nat.add_le_add_right hlast _) (by decide))
    rw [if_pos (hcapital.2 hb), ← UInt8.toNat_inj, hshift]
    simp only [hne, hb, false_or, true_and]
    exact eq_comm
  · rw [if_neg fun h => hb (hcapital.1 h)]
    simp only [hb, false_and, or_false]

theorem map_lowerCase_eq_iff {bytes word : Bytes} (hword : ∀ w ∈ word, ¬ Capital w) :
    bytes.map lowerCase = word ↔ SameButCase bytes word := by
  induction bytes generalizing word with
  | nil =>
      rw [List.map_nil, SameButCase, List.forall₂_nil_left_iff]
      exact eq_comm
  | cons b bytes ih =>
      cases word with
      | nil => simp [SameButCase]
      | cons w word =>
          obtain ⟨hw, hrest⟩ := List.forall_mem_cons.1 hword
          rw [List.map_cons, List.cons_eq_cons, lowerCase_eq_iff hw, ih hrest]
          unfold SameButCase
          exact List.forall₂_cons.symm

theorem not_capital_of_mem_words :
    ∀ word ∈ onWords, ∀ w ∈ Bytes.ofText word, ¬ Capital w := by
  have hwords : onWords.all fun word => (Bytes.ofText word).all fun w => ¬ Capital w := by decide
  simpa only [List.all_eq_true, decide_eq_true_iff] using hwords

theorem parseFlag_iff (raw : Bytes) : parseFlag raw = true ↔ SwitchesOn raw := by
  have hspace : (isSwitchBlank · = true) = (· ∈ switchSpace) :=
    funext fun _ => propext isSwitchBlank_iff_mem
  unfold parseFlag SwitchesOn
  simp only [← hspace, Text.trims_iff, exists_eq_left, List.any_eq_true, beq_iff_eq]
  change (∃ word ∈ onWords, (Text.trimmed isSwitchBlank raw).map lowerCase = Bytes.ofText word) ↔
    ∃ word ∈ onWords, SameButCase (Text.trimmed isSwitchBlank raw) (Bytes.ofText word)
  refine exists_congr fun word => and_congr_right fun hword => ?_
  exact map_lowerCase_eq_iff (not_capital_of_mem_words word hword)

end Policy

namespace Environment

open Policy

/-- How the two values are read.  Every value is divided in exactly one way, and its ordinal is the
number of its digits, whatever follows them; without a value it is two.  The place-by-place reader
comes to the same ordinal: it looks at nothing outside the value, and no step of it wraps.  Reports
are on exactly for a value that switches on. -/
theorem policy_reads_values :
    Function.Bijective OrdinalText.bytes ∧
    (∀ trace, (policy ⟨none, trace⟩).ordinal = 2) ∧
    (∀ (text : OrdinalText) trace,
      (policy ⟨some text.bytes, trace⟩).ordinal.toNat = text.value ∧
      scanOrdinal text.bytes = some ((policy ⟨some text.bytes, trace⟩).ordinal,
        text.blanks.length + text.sign.bytes.length + text.digits.length)) ∧
    (∀ failAfter, (policy ⟨failAfter, none⟩).trace = false) ∧
    ∀ failAfter raw, (policy ⟨failAfter, some raw⟩).trace = true ↔ SwitchesOn raw :=
  ⟨⟨OrdinalText.bytes_injective, OrdinalText.bytes_surjective⟩, fun _ => rfl,
    fun text _ => ⟨text.toNat_parseOrdinal, scanOrdinal_bytes text⟩, fun _ => rfl,
    fun _ => parseFlag_iff⟩

/-- One digit more than the greatest word has, between white space and a letter. -/
example : policy ⟨some (Bytes.ofText "\t +184467440737095516150x"), some (Bytes.ofText " Yes\n")⟩ =
    ⟨18446744073709551615, true⟩ := by decide +kernel

end Environment

end GrowthFault
