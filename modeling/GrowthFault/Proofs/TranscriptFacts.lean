import GrowthFault.Proofs.TextLines
import GrowthFault.Proofs.TranscriptReading
import Mathlib.Data.List.Forall2

/-!
# What a transcript tells

The lines of a transcript are read one by one, each for at most one fact.  No fact hides another:
a flag is raised exactly if some line raises it, wherever it stands and whatever the other lines
are, and a figure is the number of the last line that gives it, if that is a number.
-/

namespace GrowthFault

/-! ## Numbers -/

namespace Decimal

/-- A number as a line may give it: digits, and a plus sign before them or not. -/
def Spells (chars : List Char) (n : UInt64) : Prop :=
  ∃ digits, (chars = digits ∨ chars = '+' :: digits) ∧ digits ≠ [] ∧
    (∀ c ∈ digits, c.isDigit = true) ∧ Nat.ofDigitChars 10 digits 0 = n.toNat

theorem map_appendDigits_eq_some_iff {digits : List Char} {n : UInt64} :
    (appendDigits 0 digits).map UInt64.ofNat = some n ↔
      (∀ c ∈ digits, c.isDigit = true) ∧ Nat.ofDigitChars 10 digits 0 = n.toNat := by
  constructor
  · intro hmap
    obtain ⟨m, hread, rfl⟩ := Option.map_eq_some_iff.1 hmap
    obtain ⟨hdigits, hvalue, hm⟩ := (appendDigits_eq_some_iff (by decide)).1 hread
    refine ⟨List.all_eq_true.1 hdigits, ?_⟩
    rw [hvalue, UInt64.toNat_ofNat_of_lt' hm]
  · rintro ⟨hdigits, hvalue⟩
    have hread : appendDigits 0 digits = some n.toNat :=
      (appendDigits_eq_some_iff (by decide)).2
        ⟨List.all_eq_true.2 hdigits, hvalue, n.toNat_lt⟩
    rw [hread, Option.map_some, UInt64.ofNat_toNat]

theorem word?_eq_some_iff {chars : List Char} {n : UInt64} :
    word? chars = some n ↔ Spells chars n := by
  have hsigned : '+'.isDigit = false := by decide
  have hread (digits : List Char) :
      (if digits.isEmpty then none else (appendDigits 0 digits).map UInt64.ofNat) = some n ↔
        digits ≠ [] ∧ (∀ c ∈ digits, c.isDigit = true) ∧
          Nat.ofDigitChars 10 digits 0 = n.toNat := by
    cases digits with
    | nil => simp
    | cons c rest =>
        rw [List.isEmpty_cons, if_neg Bool.false_ne_true, map_appendDigits_eq_some_iff]
        exact (and_iff_right (List.cons_ne_nil c rest)).symm
  unfold word? Spells
  split
  next rest =>
    rw [hread]
    constructor
    · exact fun hdigits => ⟨rest, .inr rfl, hdigits⟩
    · rintro ⟨digits, rfl | hplus, hdigits⟩
      · rw [hdigits.2.1 '+' List.mem_cons_self] at hsigned
        cases hsigned
      · rw [(List.cons.inj hplus).2]
        exact hdigits
  next hunsigned =>
    rw [hread]
    constructor
    · exact fun hdigits => ⟨chars, .inl rfl, hdigits⟩
    · rintro ⟨digits, rfl | hplus, hdigits⟩
      · exact hdigits
      · exact absurd hplus (hunsigned digits)

end Decimal

namespace Transcript

variable {t : Transcript} {line : List Char}

/-! ## Flags and figures -/

/-- What no later line takes back. -/
inductive Flag where
  | normalPassed
  | normalFailed
  | oomInjected
  | oomInactive
  | completed

def raised (t : Transcript) : Flag → Bool
  | .normalPassed => t.normalPassed
  | .normalFailed => t.normalFailed
  | .oomInjected => t.oomInjected
  | .oomInactive => t.oomInactive
  | .completed => t.completed

/-- The lines that raise a flag. -/
def Flag.RaisedBy (line : List Char) : Flag → Prop
  | .normalPassed => Wording.normalPassed.toList <+: line
  | .normalFailed => Wording.normalNull.toList <+: line ∨ Wording.normalMismatch.toList <+: line
  | .oomInjected => Wording.oomPassed.toList <+: line
  | .oomInactive => Wording.oomInactive.toList <+: line
  | .completed => line = Wording.completed.toList

/-- What the last line that gives it decides. -/
inductive Figure where
  | calls
  | failAfter

def figure (t : Transcript) : Figure → Option UInt64
  | .calls => t.calls
  | .failAfter => t.failAfter

/-- What a line that gives a figure begins with. -/
def Figure.lead : Figure → String
  | .calls => Wording.calls
  | .failAfter => Wording.failAfter

/-! ## Marks -/

namespace Mark

/-- A line is marked by what it begins with; the closing line is nothing but its words. -/
def Borne (line : List Char) (mark : Mark) : Prop :=
  starts mark.wording line = true ∧ (mark = .completed → line = mark.wording.toList)

def flag? : Mark → Option Flag
  | .normalPassed => some .normalPassed
  | .normalNull | .normalMismatch => some .normalFailed
  | .oomPassed => some .oomInjected
  | .oomInactive => some .oomInactive
  | .completed => some .completed
  | .calls | .failAfter => none

theorem Borne.eq {mark mark' : Mark} (hmark : mark.Borne line) (hmark' : mark'.Borne line) :
    mark' = mark := by
  by_contra hne
  have hfalse := Mark.starts_eq_false hmark.1 hne
  rw [hmark'.1] at hfalse
  cases hfalse

theorem raised_tell (rest : List Char) (mark : Mark) (flag : Flag) :
    (mark.tell t rest).raised flag = true ↔ t.raised flag = true ∨ mark.flag? = some flag := by
  cases mark <;> cases flag <;> simp [tell, raised, flag?]

theorem readLine_eq_tell (t : Transcript) {mark : Mark} (hmark : mark.Borne line) :
    ∃ rest, line = mark.wording.toList ++ rest ∧ t.readLine line = mark.tell t rest := by
  obtain ⟨rest, rfl⟩ := List.isPrefixOf_iff_prefix.1 hmark.1
  refine ⟨rest, rfl, t.readLine_mark mark rest fun hcompleted => ?_⟩
  exact List.append_right_eq_self.1 (hmark.2 hcompleted)

theorem readLine_eq_self (t : Transcript) (hline : ∀ mark : Mark, ¬ mark.Borne line) :
    t.readLine line = t := by
  apply t.readLine_plainly
  · intro mark hmark
    exact Bool.eq_false_iff.2 fun hstarts => hline mark ⟨hstarts, fun heq => absurd heq hmark⟩
  · rintro rfl
    exact hline .completed ⟨List.isPrefixOf_iff_prefix.2 List.prefix_rfl, fun _ => rfl⟩

end Mark

/-! ## One line -/

theorem Flag.raisedBy_iff {flag : Flag} :
    flag.RaisedBy line ↔ ∃ mark : Mark, mark.Borne line ∧ mark.flag? = some flag := by
  have hborne {mark : Mark} (hmark : mark ≠ .completed) :
      mark.wording.toList <+: line → mark.Borne line := fun hprefix =>
    ⟨List.isPrefixOf_iff_prefix.2 hprefix, fun heq => absurd heq hmark⟩
  constructor
  · intro hraised
    cases flag with
    | normalPassed => exact ⟨.normalPassed, hborne nofun hraised, rfl⟩
    | normalFailed =>
        rcases hraised with hnull | hmismatch
        · exact ⟨.normalNull, hborne nofun hnull, rfl⟩
        · exact ⟨.normalMismatch, hborne nofun hmismatch, rfl⟩
    | oomInjected => exact ⟨.oomPassed, hborne nofun hraised, rfl⟩
    | oomInactive => exact ⟨.oomInactive, hborne nofun hraised, rfl⟩
    | completed =>
        have hwhole : line = Wording.completed.toList := hraised
        refine ⟨.completed, ⟨?_, fun _ => hwhole⟩, rfl⟩
        rw [hwhole]
        exact List.isPrefixOf_iff_prefix.2 List.prefix_rfl
  · rintro ⟨mark, ⟨hstarts, hwhole⟩, hflag⟩
    have hprefix : mark.wording.toList <+: line := List.isPrefixOf_iff_prefix.1 hstarts
    cases mark with
    | completed => cases hflag; exact hwhole rfl
    | normalNull => cases hflag; exact .inl hprefix
    | normalMismatch => cases hflag; exact .inr hprefix
    | normalPassed | oomPassed | oomInactive => cases hflag; exact hprefix
    | calls | failAfter => cases hflag

theorem raised_readLine {flag : Flag} :
    (t.readLine line).raised flag = true ↔ t.raised flag = true ∨ flag.RaisedBy line := by
  rw [Flag.raisedBy_iff]
  by_cases hline : ∃ mark : Mark, mark.Borne line
  · obtain ⟨mark, hmark⟩ := hline
    obtain ⟨rest, -, hread⟩ := Mark.readLine_eq_tell t hmark
    rw [hread, Mark.raised_tell]
    constructor
    · rintro (hraised | hflag)
      · exact .inl hraised
      · exact .inr ⟨mark, hmark, hflag⟩
    · rintro (hraised | ⟨mark', hmark', hflag⟩)
      · exact .inl hraised
      · rw [hmark.eq hmark'] at hflag
        exact .inr hflag
  · rw [Mark.readLine_eq_self t (not_exists.1 hline)]
    constructor
    · exact .inl
    · rintro (hraised | ⟨mark, hmark, -⟩)
      · exact hraised
      · exact absurd ⟨mark, hmark⟩ hline

theorem figure_readLine_lead (t : Transcript) (figure : Figure) (rest : List Char) :
    (t.readLine (figure.lead.toList ++ rest)).figure figure = Decimal.word? rest := by
  cases figure with
  | calls =>
      have hread := t.readLine_mark .calls rest nofun
      rw [Mark.wording] at hread
      rw [Figure.lead, hread]
      rfl
  | failAfter =>
      have hread := t.readLine_mark .failAfter rest nofun
      rw [Mark.wording] at hread
      rw [Figure.lead, hread]
      rfl

theorem figure_readLine_other {figure : Figure} (hline : ¬ figure.lead.toList <+: line) :
    (t.readLine line).figure figure = t.figure figure := by
  by_cases hmarked : ∃ mark : Mark, mark.Borne line
  · obtain ⟨mark, hmark⟩ := hmarked
    obtain ⟨rest, rfl, hread⟩ := Mark.readLine_eq_tell t hmark
    have hlead : mark.wording ≠ figure.lead := by
      intro heq
      rw [heq] at hline
      exact hline (List.prefix_append figure.lead.toList rest)
    rw [hread]
    cases mark <;> cases figure <;> first | rfl | exact absurd rfl hlead
  · rw [Mark.readLine_eq_self t (not_exists.1 hmarked)]

/-! ## All lines -/

theorem raised_foldl {flag : Flag} (lines : List (List Char)) (t : Transcript) :
    (lines.foldl readLine t).raised flag = true ↔
      t.raised flag = true ∨ ∃ line ∈ lines, flag.RaisedBy line := by
  induction lines generalizing t with
  | nil => simp
  | cons line rest ih =>
      rw [List.foldl_cons, ih, raised_readLine, or_assoc]
      simp only [List.mem_cons, exists_eq_or_imp]

/-- The last line with this lead goes on like this. -/
def LastBehind (lead : List Char) (lines : List (List Char)) (rest : List Char) : Prop :=
  ∃ before after, lines = before ++ (lead ++ rest) :: after ∧ ∀ line ∈ after, ¬ lead <+: line

theorem figure_foldl_other {figure : Figure} {lines : List (List Char)}
    (hlines : ∀ line ∈ lines, ¬ figure.lead.toList <+: line) (t : Transcript) :
    (lines.foldl readLine t).figure figure = t.figure figure := by
  induction lines generalizing t with
  | nil => rfl
  | cons line rest ih =>
      obtain ⟨hline, hrest⟩ := List.forall_mem_cons.1 hlines
      rw [List.foldl_cons, ih hrest, figure_readLine_other hline]

theorem figure_foldl_last {figure : Figure} {lines : List (List Char)} {rest : List Char}
    (hlast : LastBehind figure.lead.toList lines rest) (t : Transcript) :
    (lines.foldl readLine t).figure figure = Decimal.word? rest := by
  obtain ⟨before, after, rfl, hafter⟩ := hlast
  rw [List.foldl_append, List.foldl_cons, figure_foldl_other hafter, figure_readLine_lead]

theorem exists_lastBehind (lead : List Char) (lines : List (List Char)) :
    (∀ line ∈ lines, ¬ lead <+: line) ∨ ∃ rest, LastBehind lead lines rest := by
  induction lines with
  | nil => exact .inl nofun
  | cons line lines ih =>
      rcases ih with hnone | ⟨rest, before, after, rfl, hafter⟩
      · by_cases hline : lead <+: line
        · obtain ⟨rest, rfl⟩ := hline
          exact .inr ⟨rest, [], lines, rfl, hnone⟩
        · exact .inl (List.forall_mem_cons.2 ⟨hline, hnone⟩)
      · exact .inr ⟨rest, line :: before, after, rfl, hafter⟩

theorem figure_foldl_eq_some_iff {figure : Figure} {n : UInt64} {lines : List (List Char)}
    (ht : t.figure figure = none) :
    (lines.foldl readLine t).figure figure = some n ↔
      ∃ rest, LastBehind figure.lead.toList lines rest ∧ Decimal.Spells rest n := by
  constructor
  · intro hsome
    rcases exists_lastBehind figure.lead.toList lines with hnone | ⟨rest, hlast⟩
    · rw [figure_foldl_other hnone, ht] at hsome
      cases hsome
    · rw [figure_foldl_last hlast] at hsome
      exact ⟨rest, hlast, Decimal.word?_eq_some_iff.1 hsome⟩
  · rintro ⟨rest, hlast, hspells⟩
    rw [figure_foldl_last hlast]
    exact Decimal.word?_eq_some_iff.2 hspells

theorem figure_foldl_eq_none_iff {figure : Figure} {lines : List (List Char)}
    (ht : t.figure figure = none) :
    (lines.foldl readLine t).figure figure = none ↔
      (∀ line ∈ lines, ¬ figure.lead.toList <+: line) ∨
        ∃ rest, LastBehind figure.lead.toList lines rest ∧ ∀ n, ¬ Decimal.Spells rest n := by
  constructor
  · intro hnone
    refine (exists_lastBehind figure.lead.toList lines).imp_right ?_
    rintro ⟨rest, hlast⟩
    rw [figure_foldl_last hlast] at hnone
    refine ⟨rest, hlast, fun n hspells => ?_⟩
    rw [Decimal.word?_eq_some_iff.2 hspells] at hnone
    cases hnone
  · rintro (hlines | ⟨rest, hlast, hspells⟩)
    · rw [figure_foldl_other hlines, ht]
    · rw [figure_foldl_last hlast, Option.eq_none_iff_forall_ne_some]
      exact fun n hsome => hspells n (Decimal.word?_eq_some_iff.1 hsome)

/-! ## Transcripts -/

/-- The empty piece behind a last newline tells nothing. -/
theorem parse_eq (stdout : String) :
    parse stdout = (Text.trimmedLines stdout).foldl readLine {} := by
  obtain ⟨last, hlast, hlines⟩ := Text.trimmedLines_eq stdout
  have hnothing (t : Transcript) : last.foldl readLine t = t := by
    simp only [List.mem_cons, List.not_mem_nil, or_false] at hlast
    rcases hlast with rfl | rfl
    · rfl
    · have hhead : ([] : List Char).head? ∉ [some '✓', some 'E', some 'I', some 'A', some 's'] := by
        decide
      rw [List.foldl_cons, List.foldl_nil, t.readLine_of_head hhead]
  rw [hlines, List.foldl_append, hnothing]
  rfl

theorem Flag.not_raisedBy_nil (flag : Flag) : ¬ flag.RaisedBy [] := by
  cases flag <;> simp only [Flag.RaisedBy] <;> decide

theorem raised_parse {flag : Flag} {stdout : String} :
    (parse stdout).raised flag = true ↔ ∃ line ∈ Text.trimmedLines stdout, flag.RaisedBy line := by
  rw [parse_eq, raised_foldl]
  exact or_iff_right (by cases flag <;> exact Bool.false_ne_true)

/-- Empty lines raise nothing. -/
theorem raised_parse_inked {flag : Flag} {stdout : String} :
    (parse stdout).raised flag = true ↔
      ∃ line ∈ (Text.trimmedLines stdout).filter (!·.isEmpty), flag.RaisedBy line := by
  rw [raised_parse]
  constructor
  · rintro ⟨line, hmem, hraised⟩
    refine ⟨line, List.mem_filter.2 ⟨hmem, ?_⟩, hraised⟩
    cases line with
    | nil => exact absurd hraised flag.not_raisedBy_nil
    | cons c rest => rfl
  · rintro ⟨line, hmem, hraised⟩
    exact ⟨line, (List.mem_filter.1 hmem).1, hraised⟩

theorem raised_parse_perm {flag : Flag} {stdout other : String}
    (hperm : ((Text.trimmedLines other).filter (!·.isEmpty)).Perm
      ((Text.trimmedLines stdout).filter (!·.isEmpty))) :
    (parse other).raised flag = (parse stdout).raised flag := by
  rw [Bool.eq_iff_iff, raised_parse_inked, raised_parse_inked]
  simp only [hperm.mem_iff]

theorem raised_parse_append (stdout more : String) (flag : Flag) :
    (parse (stdout ++ "\n" ++ more)).raised flag =
      ((parse stdout).raised flag || (parse more).raised flag) := by
  rw [Bool.eq_iff_iff, Bool.or_eq_true, raised_parse, raised_parse, raised_parse,
    Text.trimmedLines_append]
  simp only [List.mem_append, or_and_right, exists_or]

/-- What a transcript tells is told by its lines.  A flag is raised exactly if some line raises it;
a figure is the number that stands behind the last lead, and is missing if there is no lead or no
number behind the last one.  So the order of the lines makes no difference to the flags, nor do
empty lines, and two texts raise together what either of them raises. -/
theorem parse_reads_lines (stdout : String) :
    List.Forall₂ (fun piece line => Text.Trims (Text.isBlank · = true)
      (Text.withoutReturn piece) line)
      (stdout.toList.splitOn '\n') (Text.trimmedLines stdout) ∧
    (∀ flag : Flag, (parse stdout).raised flag = true ↔
      ∃ line ∈ Text.trimmedLines stdout, flag.RaisedBy line) ∧
    (∀ (figure : Figure) n, (parse stdout).figure figure = some n ↔
      ∃ rest, LastBehind figure.lead.toList (Text.trimmedLines stdout) rest ∧
        Decimal.Spells rest n) ∧
    (∀ figure : Figure, (parse stdout).figure figure = none ↔
      (∀ line ∈ Text.trimmedLines stdout, ¬ figure.lead.toList <+: line) ∨
        ∃ rest, LastBehind figure.lead.toList (Text.trimmedLines stdout) rest ∧
          ∀ n, ¬ Decimal.Spells rest n) ∧
    (∀ (other : String) (flag : Flag),
      ((Text.trimmedLines other).filter (!·.isEmpty)).Perm
        ((Text.trimmedLines stdout).filter (!·.isEmpty)) →
      (parse other).raised flag = (parse stdout).raised flag) ∧
    ∀ (more : String) (flag : Flag), (parse (stdout ++ "\n" ++ more)).raised flag =
      ((parse stdout).raised flag || (parse more).raised flag) := by
  have hfigure (figure : Figure) : ({} : Transcript).figure figure = none := by
    cases figure <;> rfl
  refine ⟨?_, fun flag => raised_parse, ?_, ?_, fun other flag => raised_parse_perm,
    raised_parse_append stdout⟩
  · rw [Text.trimmedLines, List.forall₂_map_right_iff, List.forall₂_same]
    exact fun piece _ => Text.trims_trimmed Text.isBlank (Text.withoutReturn piece)
  · intro figure n
    rw [parse_eq]
    exact figure_foldl_eq_some_iff (hfigure figure)
  · intro figure
    rw [parse_eq]
    exact figure_foldl_eq_none_iff (hfigure figure)

/-- Two lines the other way round, with other blanks around them. -/
theorem parse_reads_lines_reordered :
    ((Text.trimmedLines "All tests completed.\r\n\n✓ OOM test passed: ab\n").filter
        (!·.isEmpty)).Perm
      ((Text.trimmedLines "  ✓ OOM test passed: ab\nAll tests completed.").filter
        (!·.isEmpty)) ∧
    (parse "All tests completed.\r\n\n✓ OOM test passed: ab\n").raised .oomInjected =
      (parse "  ✓ OOM test passed: ab\nAll tests completed.").raised .oomInjected := by
  have hperm : ((Text.trimmedLines "All tests completed.\r\n\n✓ OOM test passed: ab\n").filter
      (!·.isEmpty)).Perm
      ((Text.trimmedLines "  ✓ OOM test passed: ab\nAll tests completed.").filter
        (!·.isEmpty)) := by
    decide +kernel
  exact ⟨hperm, (parse_reads_lines "  ✓ OOM test passed: ab\nAll tests completed.").2.2.2.2.1
    "All tests completed.\r\n\n✓ OOM test passed: ab\n" .oomInjected hperm⟩

end Transcript

end GrowthFault
