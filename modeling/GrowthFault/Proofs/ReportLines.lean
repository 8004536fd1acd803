import GrowthFault.Proofs.ReportCounting
import GrowthFault.Proofs.TextLines
import GrowthFault.Proofs.WrittenScalars

/-!
# The line of a report

A report is composed in a buffer of fixed size, part behind part.  The buffer is large enough for
any two numbers, and what is put into it is the line that names them in canonical decimal.  Other
numbers make another line.  Whoever counts the reports in an error output finds each of them,
whatever other lines stand between them.
-/

namespace GrowthFault

/-! ## Canonical decimals -/

namespace Decimal

/-- The canonical decimal of a number: digits, of which the first is a zero only if it is alone. -/
structure Canonical (n : Nat) (chars : List Char) : Prop where
  nonempty : chars ≠ []
  digit : ∀ c ∈ chars, c.isDigit = true
  leading : chars.head? = some '0' → chars = ['0']
  value : Nat.ofDigitChars 10 chars 0 = n

theorem canonical_digits (n : Nat) : Canonical n (digits n) where
  nonempty := Nat.toDigits_ne_nil
  digit _ hc := isDigit_of_mem_digits hc
  leading hzero := by
    by_cases hn : n = 0
    · rw [hn]
      rfl
    · exact absurd hzero (Json.head?_digits_ne hn)
  value := Nat.ofDigitChars_ten_toDigits

/-- A number can be told from its digits, and what follows them as well. -/
theorem digits_append_inj {m n : Nat} {c : Char} {rest more : List Char} (hc : c.isDigit = false)
    (hsame : digits m ++ c :: rest = digits n ++ c :: more) : m = n ∧ rest = more := by
  obtain ⟨hdigits, hbehind⟩ := Text.append_cons_inj hc (fun _ hd => isDigit_of_mem_digits hd)
    (fun _ hd => isDigit_of_mem_digits hd) hsame
  refine ⟨?_, hbehind⟩
  calc
    m = Nat.ofDigitChars 10 (digits m) 0 := (canonical_digits m).value.symm
    _ = Nat.ofDigitChars 10 (digits n) 0 := by rw [hdigits]
    _ = n := (canonical_digits n).value

end Decimal

namespace Report

/-! ## The buffer -/

/-- A buffer, and how many of its bytes are filled. -/
structure Filling where
  buffer : Bytes
  filled : Nat
  deriving DecidableEq, Repr

/-- Put bytes behind those that are there, if there is room for them in the buffer. -/
def Filling.push (f : Filling) (bytes : Bytes) : Option Filling :=
  if f.filled + bytes.length ≤ f.buffer.length then
    some ⟨f.buffer.take f.filled ++ bytes ++ f.buffer.drop (f.filled + bytes.length),
      f.filled + bytes.length⟩
  else none

/-- Compose a report in a buffer; one digit buffer serves both numbers. -/
def compose (ordinal size : UInt64) (buffer : Bytes) : Option Filling := do
  let f ← Filling.push ⟨buffer, 0⟩ opening
  let first := Decimal.render ordinal (List.replicate Decimal.capacity 0)
  let f ← f.push first.digits
  let f ← f.push sizeLabel
  let second := Decimal.render size first.buffer
  let f ← f.push second.digits
  f.push ending

/-- A buffer whose first bytes are these, and whose others are as before. -/
def Filling.filledWith (front buffer : Bytes) : Filling :=
  ⟨front ++ buffer.drop front.length, front.length⟩

theorem push_filledWith {front bytes buffer : Bytes}
    (hroom : (front ++ bytes).length ≤ buffer.length) :
    (Filling.filledWith front buffer).push bytes =
      some (Filling.filledWith (front ++ bytes) buffer) := by
  rw [List.length_append] at hroom
  have hlength : (front ++ buffer.drop front.length).length = buffer.length := by
    rw [List.length_append, List.length_drop]
    omega
  have hdrop : (front ++ buffer.drop front.length).drop (front.length + bytes.length) =
      buffer.drop (front.length + bytes.length) := by
    rw [List.drop_append, List.drop_drop, List.drop_eq_nil_of_le (by omega), List.nil_append]
    congr 1
    omega
  unfold Filling.filledWith Filling.push
  dsimp only
  rw [hlength, if_pos hroom, List.take_left, hdrop, List.length_append]

theorem foldlM_push {parts : List Bytes} {front buffer : Bytes}
    (hroom : (front ++ parts.flatten).length ≤ buffer.length) :
    parts.foldlM Filling.push (Filling.filledWith front buffer) =
      some (Filling.filledWith (front ++ parts.flatten) buffer) := by
  induction parts generalizing front with
  | nil => simp
  | cons part parts ih =>
      rw [List.flatten_cons, ← List.append_assoc] at hroom ⊢
      have hpart : (front ++ part).length ≤ buffer.length := by
        rw [List.length_append] at hroom
        omega
      rw [List.foldlM_cons, push_filledWith hpart]
      exact ih hroom

theorem length_digits_render (value : UInt64) {buffer : Bytes}
    (hbuffer : buffer.length = Decimal.capacity) :
    (Decimal.render value buffer).digits.length ≤ Decimal.capacity := by
  rw [(Decimal.digits_render value hbuffer).1, Decimal.ofChars_digits, List.length_map]
  exact Decimal.length_digits_le value

theorem length_line_le (ordinal size : UInt64) : (line ordinal size).length ≤ lineCapacity := by
  have hblank : (List.replicate Decimal.capacity (0 : UInt8)).length = Decimal.capacity :=
    List.length_replicate
  have hfirst := length_digits_render ordinal hblank
  have hsecond := length_digits_render size (Decimal.digits_render ordinal hblank).2
  unfold line lineCapacity
  simp only [List.length_append]
  omega

/-- Every part has its room, and the parts make up the line. -/
theorem compose_eq (ordinal size : UInt64) {buffer : Bytes}
    (hbuffer : buffer.length = lineCapacity) :
    compose ordinal size buffer = some (Filling.filledWith (line ordinal size) buffer) := by
  let first := Decimal.render ordinal (List.replicate Decimal.capacity 0)
  let second := Decimal.render size first.buffer
  let parts := [opening, first.digits, sizeLabel, second.digits, ending]
  have hline : [] ++ parts.flatten = line ordinal size := by
    simp [parts, line, first, second]
  have hroom : ([] ++ parts.flatten).length ≤ buffer.length := by
    rw [hline, hbuffer]
    exact length_line_le ordinal size
  have hcompose : compose ordinal size buffer =
      parts.foldlM Filling.push (Filling.filledWith [] buffer) := by
    simp [compose, parts, first, second, Filling.filledWith]
  rw [hcompose, foldlM_push hroom, hline]

/-! ## The line -/

theorem line_eq_content (ordinal size : UInt64) :
    line ordinal size = Bytes.ofChars (content ordinal.toNat size.toNat ++ ['\n']) := by
  rw [line_eq, Bytes.ofText, toList_text]

theorem content_inj {ordinal size ordinal' size' : Nat}
    (hsame : content ordinal size = content ordinal' size') : ordinal = ordinal' ∧ size = size' := by
  have hblank : (' ').isDigit = false := rfl
  have hclose : (')').isDigit = false := rfl
  have hlabel : " (size ".toList = ' ' :: "(size ".toList := by decide
  unfold content at hsame
  simp only [List.append_assoc, hlabel, List.cons_append, -String.reduceToList] at hsame
  obtain ⟨hordinal, hrest⟩ := Decimal.digits_append_inj hblank (List.append_cancel_left hsame)
  obtain ⟨hsize, -⟩ := Decimal.digits_append_inj hclose (List.append_cancel_left hrest)
  exact ⟨hordinal, hsize⟩

end Report

namespace Bytes

theorem ofText_injective : Function.Injective ofText := by
  intro text other hsame
  rw [← lossyText_ofText text, hsame, lossyText_ofText]

end Bytes

namespace Report

theorem line_injective : Function.Injective fun pair : UInt64 × UInt64 => line pair.1 pair.2 := by
  intro pair other hsame
  have htext := Bytes.ofText_injective ((line_eq _ _).symm.trans (hsame.trans (line_eq _ _)))
  have hchars := congrArg String.toList htext
  rw [toList_text, toList_text] at hchars
  obtain ⟨hordinal, hsize⟩ := content_inj (List.append_cancel_right hchars)
  exact Prod.ext (UInt64.toNat_inj.1 hordinal) (UInt64.toNat_inj.1 hsize)

theorem ascii_content (ordinal size : Nat) : ∀ c ∈ content ordinal size, c.toNat < 0x80 := by
  have hdigits (n : Nat) : ∀ c ∈ Decimal.digits n, c.toNat < 0x80 := by
    intro c hc
    have hbounds := Decimal.bounds_of_mem_digits hc
    omega
  have hlead : "failrealloc: injected realloc failure at call #".toList.all (·.toNat < 0x80) := by
    decide
  have hlabel : " (size ".toList.all (·.toNat < 0x80) := by decide
  have hclose : [')'].all (·.toNat < 0x80) := by decide
  simp only [List.all_eq_true, decide_eq_true_iff, -String.reduceToList] at hlead hlabel hclose
  unfold content
  simp only [List.forall_mem_append, -String.reduceToList]
  exact ⟨⟨⟨⟨hlead, hdigits ordinal⟩, hlabel⟩, hdigits size⟩, hclose⟩

/-- The only newline of a line is its last byte. -/
theorem exists_line_eq (ordinal size : UInt64) :
    ∃ front, line ordinal size = front ++ [0x0A] ∧ 0x0A ∉ front := by
  have hascii := ascii_content ordinal.toNat size.toNat
  refine ⟨Bytes.ofChars (content ordinal.toNat size.toNat), ?_, ?_⟩
  · rw [line_eq_content, Bytes.ofChars, List.flatMap_append]
    rfl
  · rw [Bytes.ofChars_of_ascii hascii]
    intro hmem
    obtain ⟨c, hc, hnewline⟩ := List.mem_map.1 hmem
    have hcode : c.toNat = ('\n').toNat := by
      have hsmall := hascii c hc
      have hcodes := congrArg UInt8.toNat hnewline
      rw [UInt8.toNat_ofNat', Nat.mod_eq_of_lt (by omega)] at hcodes
      exact hcodes
    rw [Char.toNat_inj.1 hcode] at hc
    exact newline_content _ _ hc

end Report

/-! ## Error outputs -/

/-- A complete line of an error output: a report, or a line that does not begin as reports do. -/
inductive ErrorLine where
  | report (ordinal size : UInt64)
  | other (chars : List Char) (whole : '\n' ∉ chars)
    (plain : ¬ RunRecord.reportStart.toList <+: chars)

namespace ErrorLine

def bytes : ErrorLine → Bytes
  | .report ordinal size => Report.line ordinal size
  | .other chars _ _ => Bytes.ofChars (chars ++ ['\n'])

/-- The numbers of a report. -/
def reported? : ErrorLine → Option (UInt64 × UInt64)
  | .report ordinal size => some (ordinal, size)
  | .other _ _ _ => none

/-- A line without its ending. -/
def content : ErrorLine → List Char
  | .report ordinal size => Report.content ordinal.toNat size.toNat
  | .other chars _ _ => chars

theorem bytes_eq (line : ErrorLine) : line.bytes = Bytes.ofChars (line.content ++ ['\n']) := by
  cases line with
  | report ordinal size => exact Report.line_eq_content ordinal size
  | other => rfl

theorem newline_content (line : ErrorLine) : '\n' ∉ line.content := by
  cases line with
  | report => exact Report.newline_content _ _
  | other _ whole _ => exact whole

theorem prefix_withoutReturn (chars : List Char) : Text.withoutReturn chars <+: chars := by
  unfold Text.withoutReturn
  split
  next => exact List.dropLast_prefix chars
  next => exact List.prefix_rfl

/-- A line counts exactly if it is a report. -/
theorem isPrefixOf_content (line : ErrorLine) :
    RunRecord.reportStart.toList.isPrefixOf (Text.withoutReturn line.content) =
      line.reported?.isSome := by
  cases line with
  | report ordinal size =>
      rw [content, Report.withoutReturn_content, Report.isPrefixOf_content]
      rfl
  | other chars _ plain =>
      change RunRecord.reportStart.toList.isPrefixOf (Text.withoutReturn chars) = false
      rw [← Bool.not_eq_true, List.isPrefixOf_iff_prefix]
      intro hstarts
      exact plain (hstarts.trans (prefix_withoutReturn chars))

theorem toList_lossyText (lines : List ErrorLine) :
    (Bytes.lossyText (lines.flatMap bytes)).toList =
      (lines.map content).flatMap (· ++ ['\n']) := by
  have hbytes : lines.flatMap bytes =
      Bytes.ofText (String.ofList ((lines.map content).flatMap (· ++ ['\n']))) := by
    rw [funext bytes_eq, Bytes.ofText, String.toList_ofList, Bytes.ofChars, List.flatMap_assoc,
      List.flatMap_map]
    rfl
  rw [hbytes, Bytes.lossyText_ofText, String.toList_ofList]

theorem reports_eq (record : RunRecord) (lines : List ErrorLine) :
    { record with stderr := Bytes.lossyText (lines.flatMap bytes) }.reports =
      (lines.filterMap reported?).length := by
  have hwhole : ∀ chars ∈ lines.map content, '\n' ∉ chars := by
    intro chars hchars
    obtain ⟨line, -, rfl⟩ := List.mem_map.1 hchars
    exact line.newline_content
  unfold RunRecord.reports
  dsimp only
  rw [toList_lossyText, Text.lines_join hwhole, List.countP_map, List.countP_map,
    List.length_filterMap_eq_countP]
  exact List.countP_congr fun line _ => by simp [isPrefixOf_content]

end ErrorLine

/-- Reports fit, are exact and are counted.  No two numbers make a report leave the buffer of 96
bytes, whose other bytes stay as they are; the report names the numbers in canonical decimal, is
one line, and is the report of no other numbers.  Of an error output made of reports and other
complete lines, as many lines are counted as there are reports. -/
theorem reports_exact_and_counted :
    (∀ (ordinal size : UInt64) (buffer : Vector UInt8 96),
      (Report.line ordinal size).length ≤ 96 ∧
      Report.compose ordinal size buffer.toList = some
        ⟨Report.line ordinal size ++ buffer.toList.drop (Report.line ordinal size).length,
          (Report.line ordinal size).length⟩) ∧
    (∀ ordinal size : UInt64, ∃ first second,
      Decimal.Canonical ordinal.toNat first ∧ Decimal.Canonical size.toNat second ∧
      Report.line ordinal size = Bytes.ofText
        ("failrealloc: injected realloc failure at call #" ++ String.ofList first ++ " (size " ++
          String.ofList second ++ ")\n")) ∧
    (∀ ordinal size : UInt64, ∃ front, Report.line ordinal size = front ++ [0x0A] ∧
      0x0A ∉ front) ∧
    (Function.Injective fun numbers : UInt64 × UInt64 => Report.line numbers.1 numbers.2) ∧
    ∀ (record : RunRecord) (lines : List ErrorLine),
      { record with stderr := Bytes.lossyText (lines.flatMap ErrorLine.bytes) }.reports =
        (lines.filterMap ErrorLine.reported?).length := by
  refine ⟨fun ordinal size buffer => ⟨Report.length_line_le ordinal size, ?_⟩, ?_,
    Report.exists_line_eq, Report.line_injective, ErrorLine.reports_eq⟩
  · exact Report.compose_eq ordinal size buffer.length_toList
  · intro ordinal size
    exact ⟨_, _, Decimal.canonical_digits _, Decimal.canonical_digits _, Report.line_eq _ _⟩

end GrowthFault
