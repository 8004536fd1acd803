import GrowthFault.Proofs.PrintedText
import GrowthFault.Transcript.Basic

/-!
# Reading a transcript

Each wording that stands for a fact can be told from every other by its characters, so a line
raises the flag of the wording it starts with and no other, and a line that starts with none of
them is passed over.
-/

namespace GrowthFault.Transcript

variable {t : Transcript} {line chars other : List Char} {text : String}

/-- A line that starts with one text does not start with another, unless one continues the
other. -/
theorem starts_eq_false_of_starts (hother : starts (String.ofList other) line = true)
    (hapart : (chars.isPrefixOf other || other.isPrefixOf chars) = false) :
    starts (String.ofList chars) line = false := by
  rw [Bool.or_eq_false_iff] at hapart
  rw [starts, String.toList_ofList, List.isPrefixOf_iff_prefix] at hother
  rw [starts, String.toList_ofList, ← Bool.not_eq_true, List.isPrefixOf_iff_prefix]
  intro hchars
  rcases List.prefix_or_prefix_of_prefix hchars hother with hprefix | hprefix
  · rw [List.isPrefixOf_iff_prefix.2 hprefix] at hapart
    cases hapart.1
  · rw [List.isPrefixOf_iff_prefix.2 hprefix] at hapart
    cases hapart.2

theorem starts_eq_false {first : Char} (hchars : chars.head? = some first)
    (hline : line.head? ≠ some first) : starts (String.ofList chars) line = false := by
  obtain ⟨after, rfl⟩ := List.head?_eq_some_iff.1 hchars
  rw [starts, String.toList_ofList, ← Bool.not_eq_true, List.isPrefixOf_iff_prefix]
  rintro ⟨rest, rfl⟩
  exact hline rfl

theorem ne_of_starts_eq_false (hstarts : starts text line = false) :
    line ≠ text.toList := by
  rintro rfl
  rw [starts, ← Bool.not_eq_true, List.isPrefixOf_iff_prefix] at hstarts
  exact hstarts List.prefix_rfl

theorem after?_eq_none (hstarts : starts text line = false) :
    Text.after? text.toList line = none := by
  rw [starts] at hstarts
  rw [Text.after?, hstarts]
  rfl

/-- The wordings that stand for a fact. -/
inductive Mark where
  | normalPassed
  | normalNull
  | normalMismatch
  | oomPassed
  | oomInactive
  | completed
  | calls
  | failAfter
  deriving DecidableEq

namespace Mark

def wording : Mark → String
  | .normalPassed => Wording.normalPassed
  | .normalNull => Wording.normalNull
  | .normalMismatch => Wording.normalMismatch
  | .oomPassed => Wording.oomPassed
  | .oomInactive => Wording.oomInactive
  | .completed => Wording.completed
  | .calls => Wording.calls
  | .failAfter => Wording.failAfter

/-- The transcript with the fact of a line that goes on like this. -/
def tell (t : Transcript) (rest : List Char) : Mark → Transcript
  | .normalPassed => { t with normalPassed := true }
  | .normalNull | .normalMismatch => { t with normalFailed := true }
  | .oomPassed => { t with oomInjected := true }
  | .oomInactive => { t with oomInactive := true }
  | .completed => { t with completed := true }
  | .calls => { t with calls := Decimal.word? rest }
  | .failAfter => { t with failAfter := Decimal.word? rest }

/-- A line has at most one mark. -/
theorem starts_eq_false {mark : Mark} (hmark : starts mark.wording line = true) {mark' : Mark}
    (hne : mark' ≠ mark) : starts mark'.wording line = false := by
  cases mark <;> cases mark' <;>
    first
    | exact absurd rfl hne
    | exact starts_eq_false_of_starts hmark (by decide)

end Mark

theorem after?_append (text : String) (rest : List Char) :
    Text.after? text.toList (text.toList ++ rest) = some rest := by
  have hprefix : text.toList.isPrefixOf (text.toList ++ rest) = true :=
    List.isPrefixOf_iff_prefix.2 (List.prefix_append text.toList rest)
  rw [Text.after?, if_pos hprefix, List.drop_left]

/-- A mark decides what a line tells, whatever the transcript held before. -/
theorem readLine_mark (t : Transcript) (mark : Mark) (rest : List Char)
    (hrest : mark = .completed → rest = []) :
    t.readLine (mark.wording.toList ++ rest) = mark.tell t rest := by
  have hmark : starts mark.wording (mark.wording.toList ++ rest) = true :=
    List.isPrefixOf_iff_prefix.2 (List.prefix_append mark.wording.toList rest)
  have hafter := after?_append mark.wording rest
  have hother (mark' : Mark) (hne : mark' ≠ mark) := Mark.starts_eq_false hmark hne
  -- From here on only the checks count that the line passes and fails, not its characters.
  generalize hline : mark.wording.toList ++ rest = line at *
  have hpassed (hne : .normalPassed ≠ mark) : starts Wording.normalPassed line = false :=
    hother .normalPassed hne
  have hnull (hne : .normalNull ≠ mark) : starts Wording.normalNull line = false :=
    hother .normalNull hne
  have hmismatch (hne : .normalMismatch ≠ mark) : starts Wording.normalMismatch line = false :=
    hother .normalMismatch hne
  have hinjected (hne : .oomPassed ≠ mark) : starts Wording.oomPassed line = false :=
    hother .oomPassed hne
  have hinactive (hne : .oomInactive ≠ mark) : starts Wording.oomInactive line = false :=
    hother .oomInactive hne
  have hcompleted (hne : .completed ≠ mark) : line ≠ Wording.completed.toList :=
    ne_of_starts_eq_false (hother .completed hne)
  have hcalls (hne : .calls ≠ mark) : Text.after? Wording.calls.toList line = none :=
    after?_eq_none (hother .calls hne)
  cases mark with
  | normalPassed =>
      have htrue : starts Wording.normalPassed line = true := hmark
      simp [readLine, htrue, Mark.tell]
  | normalNull =>
      have htrue : starts Wording.normalNull line = true := hmark
      simp [readLine, hpassed, htrue, Mark.tell]
  | normalMismatch =>
      have htrue : starts Wording.normalMismatch line = true := hmark
      simp [readLine, hpassed, hnull, htrue, Mark.tell]
  | oomPassed =>
      have htrue : starts Wording.oomPassed line = true := hmark
      simp [readLine, hpassed, hnull, hmismatch, htrue, Mark.tell]
  | oomInactive =>
      have htrue : starts Wording.oomInactive line = true := hmark
      simp [readLine, hpassed, hnull, hmismatch, hinjected, htrue, Mark.tell]
  | completed =>
      have hwhole : line = Wording.completed.toList := by
        rw [← hline, hrest rfl, List.append_nil]
        rfl
      rw [readLine]
      simp only [hpassed, hnull, hmismatch, hinjected, hinactive, ne_eq, reduceCtorEq,
        not_false_eq_true, Bool.or_self, Bool.false_eq_true, if_false, if_pos hwhole, Mark.tell]
  | calls =>
      have hsome : Text.after? Wording.calls.toList line = some rest := hafter
      simp [readLine, hpassed, hnull, hmismatch, hinjected, hinactive, hcompleted, hsome, Mark.tell]
  | failAfter =>
      have hsome : Text.after? Wording.failAfter.toList line = some rest := hafter
      simp [readLine, hpassed, hnull, hmismatch, hinjected, hinactive, hcompleted, hcalls, hsome,
        Mark.tell]

/-- A line that goes on behind the closing line's words is no closing line. -/
theorem readLine_plainly (t : Transcript)
    (hline : ∀ mark : Mark, mark ≠ .completed → starts mark.wording line = false)
    (hcompleted : line ≠ Wording.completed.toList) : t.readLine line = t := by
  have hpassed : starts Wording.normalPassed line = false := hline .normalPassed nofun
  have hnull : starts Wording.normalNull line = false := hline .normalNull nofun
  have hmismatch : starts Wording.normalMismatch line = false := hline .normalMismatch nofun
  have hinjected : starts Wording.oomPassed line = false := hline .oomPassed nofun
  have hinactive : starts Wording.oomInactive line = false := hline .oomInactive nofun
  have hcalls : Text.after? Wording.calls.toList line = none := after?_eq_none (hline .calls nofun)
  have hfailAfter : Text.after? Wording.failAfter.toList line = none :=
    after?_eq_none (hline .failAfter nofun)
  simp [readLine, hpassed, hnull, hmismatch, hinjected, hinactive, hcompleted, hcalls, hfailAfter]

theorem readLine_unmarked (t : Transcript)
    (hline : ∀ mark : Mark, starts mark.wording line = false) : t.readLine line = t :=
  t.readLine_plainly (fun mark _ => hline mark) (ne_of_starts_eq_false (hline .completed))

theorem readLine_of_head (t : Transcript)
    (hline : line.head? ∉ [some '✓', some 'E', some 'I', some 'A', some 's']) :
    t.readLine line = t := by
  simp only [List.mem_cons, List.not_mem_nil, or_false, not_or] at hline
  obtain ⟨hcheck, herror, hinfo, hall, hshim⟩ := hline
  apply readLine_unmarked
  intro mark
  cases mark with
  | normalPassed | oomPassed => exact starts_eq_false rfl hcheck
  | normalNull | normalMismatch => exact starts_eq_false rfl herror
  | oomInactive => exact starts_eq_false rfl hinfo
  | completed => exact starts_eq_false rfl hall
  | calls | failAfter => exact starts_eq_false rfl hshim

/-- A mark that begins and ends in ink is still there when the line has been trimmed. -/
theorem readLine_trim_append (t : Transcript) (mark : Mark) (hmark : mark ≠ .completed)
    (hchars : mark.wording = String.ofList chars)
    (hink : (chars.head?.any (!Text.isBlank ·) && chars.getLast?.any (!Text.isBlank ·)) = true)
    (more : String) :
    ∃ rest, t.readLine (Text.trim (mark.wording ++ more).toList) = mark.tell t rest := by
  rw [Bool.and_eq_true] at hink
  obtain ⟨rest, htrim⟩ := Text.trim_append hink.1 hink.2 more.toList
  refine ⟨rest, ?_⟩
  have hread := t.readLine_mark mark rest (absurd · hmark)
  rw [hchars, String.toList_ofList] at hread
  rw [String.toList_append, hchars, String.toList_ofList, htrim, hread]

theorem readLine_plain (t : Transcript)
    (hchars : (Text.trim chars).head? ∉ [some '✓', some 'E', some 'I', some 'A', some 's']) :
    t.readLine (Text.trim (String.ofList chars).toList) = t := by
  rw [String.toList_ofList]
  exact t.readLine_of_head hchars

theorem readLine_calls (t : Transcript) {n : Nat} (hn : n < UInt64.size) :
    t.readLine (Text.trim (Wording.calls ++ Decimal.text n).toList) =
      { t with calls := some (UInt64.ofNat n) } := by
  have hcalls := t.readLine_mark .calls (Decimal.digits n) nofun
  rw [Decimal.trim_text rfl rfl, ← Decimal.word?_digits hn]
  exact hcalls

theorem readLine_failAfter (t : Transcript) {n : Nat} (hn : n < UInt64.size) :
    t.readLine (Text.trim (Wording.failAfter ++ Decimal.text n).toList) =
      { t with failAfter := some (UInt64.ofNat n) } := by
  have hfailAfter := t.readLine_mark .failAfter (Decimal.digits n) nofun
  rw [Decimal.trim_text rfl rfl, ← Decimal.word?_digits hn]
  exact hfailAfter

/-- The transcript with the facts of more lines, as they were printed. -/
def readPrinted (t : Transcript) (printed : List String) : Transcript :=
  (printed.map fun line => Text.trim line.toList).foldl readLine t

theorem readPrinted_cons (t : Transcript) (line : String) (printed : List String) :
    t.readPrinted (line :: printed) = (t.readLine (Text.trim line.toList)).readPrinted printed :=
  rfl

theorem readPrinted_append (t : Transcript) (printed more : List String) :
    t.readPrinted (printed ++ more) = (t.readPrinted printed).readPrinted more := by
  unfold readPrinted
  rw [List.map_append, List.foldl_append]

theorem parse_printed {printed : List String} (hprinted : ∀ line ∈ printed, '\n' ∉ line.toList) :
    parse (String.join (printed.map (· ++ "\n"))) = readPrinted {} printed := by
  have hjoin : (String.join (printed.map (· ++ "\n"))).toList =
      (printed.map String.toList).flatMap (· ++ ['\n']) := by
    simp [String.toList_join, List.flatMap_map]
  have hlines : ∀ line ∈ printed.map String.toList, '\n' ∉ line := by
    simpa using hprinted
  have htrim : Text.trim ∘ Text.withoutReturn = Text.trim :=
    funext Text.trim_withoutReturn
  rw [parse, hjoin, Text.lines_join hlines, List.map_map, htrim, List.map_map]
  rfl

end GrowthFault.Transcript
