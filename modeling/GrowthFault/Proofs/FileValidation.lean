import GrowthFault.Files.Basic
import GrowthFault.Log.Validation
import GrowthFault.Proofs.TextLines
import Mathlib.Data.List.Basic

/-!
# Validating line by line

A file is as good as its lines: what is found on a line does not depend on what stands before it,
but for the number of the line.  So the survey of a text that is cut behind a newline is made of the
surveys of both parts, and its findings are those of the rejected lines, in order.
-/

namespace GrowthFault

/-! ## Texts in front of texts -/

namespace Text

theorem linesAfter_newline (current front rest : List Char) :
    linesAfter current (front ++ '\n' :: rest) =
        linesAfter current (front ++ ['\n']) ++ lines rest ∧
      (linesAfter current (front ++ ['\n'])).length = front.count '\n' + 1 := by
  induction front generalizing current with
  | nil => exact ⟨rfl, rfl⟩
  | cons c front ih =>
      by_cases hc : c = '\n'
      · subst hc
        obtain ⟨hlines, hlength⟩ := ih []
        simp only [List.cons_append, linesAfter, if_true, List.length_cons, List.count_cons_self]
        exact ⟨congrArg _ hlines, congrArg (· + 1) hlength⟩
      · simp only [List.cons_append, linesAfter, hc, if_false, ne_eq, not_false_eq_true,
          List.count_cons_of_ne]
        exact ih (c :: current)

variable {text : List Char}

/-- A text that ends with a newline, or that there is nothing of, has whole lines. -/
theorem lines_append (htext : text = [] ∨ text.getLast? = some '\n') (more : List Char) :
    lines (text ++ more) = lines text ++ lines more ∧ (lines text).length = text.count '\n' := by
  rcases htext with rfl | hlast
  · exact ⟨rfl, rfl⟩
  · obtain ⟨front, rfl⟩ := List.getLast?_eq_some_iff.1 hlast
    obtain ⟨hlines, hlength⟩ := linesAfter_newline [] front more
    rw [List.append_assoc, List.singleton_append, List.count_append, List.count_singleton_self]
    exact ⟨hlines, hlength⟩

end Text

namespace Log

/-! ## Surveys in front of surveys -/

/-- The finding, when so many lines come in front. -/
def Finding.behind (n : Nat) (f : Finding) : Finding :=
  { f with line := f.line + n }

/-- The survey of a text of `n` lines and of a text behind it. -/
def Survey.followedBy (s : Survey) (n : Nat) (t : Survey) : Survey :=
  ⟨s.lines + t.lines, s.findings ++ t.findings.map (Finding.behind n)⟩

variable {content text more : String} {line : List Char} {number : Nat}

theorem findingsIn_add (number n : Nat) (line : List Char) :
    findingsIn (number + n) line = (findingsIn number line).map (Finding.behind n) := by
  unfold findingsIn
  split
  next => rfl
  next => rw [List.map_map]; rfl

theorem numberedLines_append (htext : text.toList = [] ∨ text.toList.getLast? = some '\n') :
    numberedLines (text ++ more) = numberedLines text ++
      (numberedLines more).map fun m => (m.1 + text.toList.count '\n', m.2) := by
  obtain ⟨hlines, hlength⟩ := Text.lines_append htext more.toList
  unfold numberedLines
  rw [String.toList_append, hlines, List.map_append, List.zipIdx_append, List.filterMap_append,
    List.length_map, hlength, Nat.add_comm 1, ← List.map_snd_add_zipIdx_eq_zipIdx,
    List.filterMap_map, List.map_filterMap]
  refine congrArg _ (List.filterMap_congr fun m _ => ?_)
  obtain ⟨line, number⟩ := m
  cases line <;> rfl

theorem validate_append (htext : text.toList = [] ∨ text.toList.getLast? = some '\n') :
    validate (text ++ more) =
      (validate text).followedBy (text.toList.count '\n') (validate more) := by
  simp only [validate, Survey.followedBy, numberedLines_append htext, List.length_append,
    List.length_map, List.flatMap_append, List.flatMap_map, List.map_flatMap, findingsIn_add]

/-! ## What a survey says -/

/-- A line is blank where nothing is left of it when it is trimmed. -/
theorem numberedLines_eq (content : String) :
    numberedLines content = ((Text.trimmedLines content).zipIdx 1).filterMap
      fun m => if m.1.isEmpty then none else some (m.2, m.1) := by
  obtain ⟨last, hlast, hpieces⟩ := Text.trimmedLines_eq content
  rw [hpieces, List.zipIdx_append, List.filterMap_append]
  have hblank (number : Nat) : (last.zipIdx number).filterMap
      (fun m => if m.1.isEmpty then none else some (m.2, m.1)) = [] := by
    simp only [List.mem_cons, List.not_mem_nil, or_false] at hlast
    rcases hlast with rfl | rfl <;> rfl
  rw [hblank, List.append_nil]
  rfl

theorem mem_numberedLines :
    (number, line) ∈ numberedLines content ↔
      1 ≤ number ∧ (Text.trimmedLines content)[number - 1]? = some line ∧ line ≠ [] := by
  rw [numberedLines_eq, List.mem_filterMap]
  constructor
  · rintro ⟨⟨line', number'⟩, hmem, hsome⟩
    obtain ⟨hnumber, hfound⟩ := List.mk_mem_zipIdx_iff_le_and_getElem?_sub.1 hmem
    split at hsome
    next => cases hsome
    next hink =>
      cases hsome
      exact ⟨hnumber, hfound, fun hempty => hink (List.isEmpty_iff.2 hempty)⟩
  · rintro ⟨hnumber, hfound, hink⟩
    refine ⟨(line, number), List.mk_mem_zipIdx_iff_le_and_getElem?_sub.2 ⟨hnumber, hfound⟩, ?_⟩
    rw [if_neg (mt List.isEmpty_iff.1 hink)]

theorem length_numberedLines (content : String) :
    (numberedLines content).length = (Text.trimmedLines content).countP (!·.isEmpty) := by
  have hpieces : Text.trimmedLines content =
      ((Text.trimmedLines content).zipIdx 1).map Prod.fst := (List.zipIdx_map_fst ..).symm
  rw [numberedLines_eq, List.length_filterMap_eq_countP, hpieces, List.countP_map,
    List.zipIdx_map_fst]
  refine List.countP_congr fun m _ => ?_
  cases hblank : m.1.isEmpty <;> simp [hblank]

theorem pairwise_numberedLines (content : String) :
    (numberedLines content).Pairwise (·.1 < ·.1) := by
  rw [numberedLines_eq, List.pairwise_filterMap]
  have hnumbers : ((Text.trimmedLines content).zipIdx 1).Pairwise (·.2 < ·.2) := by
    rw [← List.pairwise_map (f := Prod.snd) (R := (· < ·)), List.zipIdx_map_snd]
    exact List.pairwise_lt_range'
  refine hnumbers.imp fun {m m'} hlt b hb b' hb' => ?_
  split at hb
  next => cases hb
  next =>
    split at hb'
    next => cases hb'
    next =>
      cases hb
      cases hb'
      exact hlt

/-- A rejected line has defects. -/
theorem ne_nil_of_validateLine {text : String} {defects : List Defect}
    (hrejected : validateLine text = .error defects) : defects ≠ [] := by
  rw [validateLine] at hrejected
  split at hrejected
  next => cases hrejected; simp
  next =>
    dsimp only at hrejected
    split at hrejected
    next =>
      split at hrejected
      next =>
        split at hrejected
        next => cases hrejected
        next => cases hrejected; simp
      next hshape => cases hrejected; exact hshape
    next => cases hrejected; simp

theorem mem_findingsIn {f : Finding} :
    f ∈ findingsIn number line ↔
      ∃ defects, validateLine (String.ofList line) = .error defects ∧ f.line = number ∧
        f.defect ∈ defects := by
  rw [findingsIn]
  split
  next e haccepted => simp [haccepted]
  next defects hrejected =>
    obtain ⟨number', defect⟩ := f
    simp only [hrejected, List.mem_map, Finding.mk.injEq, Except.error.injEq, exists_eq_left']
    constructor
    · rintro ⟨defect, hmem, rfl, rfl⟩
      exact ⟨rfl, hmem⟩
    · rintro ⟨rfl, hmem⟩
      exact ⟨defect, hmem, rfl, rfl⟩

/-- What the survey of a text says: how many lines are not blank, and what is wrong with which of
them.  Lines are counted from one, blank ones too. -/
structure Survey.Describes (content : String) (s : Survey) : Prop where
  lines : s.lines = (Text.trimmedLines content).countP (!·.isEmpty)
  /-- What is found is a defect of a line that is not blank. -/
  found : ∀ f ∈ s.findings, 1 ≤ f.line ∧ ∃ line defects,
    (Text.trimmedLines content)[f.line - 1]? = some line ∧ line ≠ [] ∧
      validateLine (String.ofList line) = .error defects ∧ f.defect ∈ defects
  /-- No rejected line is left out, and no defect of it. -/
  complete : ∀ n line defects, (Text.trimmedLines content)[n]? = some line → line ≠ [] →
    validateLine (String.ofList line) = .error defects →
      defects ≠ [] ∧ ∀ defect ∈ defects, ⟨n + 1, defect⟩ ∈ s.findings
  ordered : s.findings.Pairwise (·.line ≤ ·.line)

theorem describes_validate (content : String) : (validate content).Describes content where
  lines := length_numberedLines content
  found := by
    intro f hf
    obtain ⟨⟨number, line⟩, hline, hfound⟩ := List.mem_flatMap.1 hf
    obtain ⟨defects, hrejected, rfl, hdefect⟩ := mem_findingsIn.1 hfound
    obtain ⟨hnumber, hpiece, hink⟩ := mem_numberedLines.1 hline
    exact ⟨hnumber, line, defects, hpiece, hink, hrejected, hdefect⟩
  complete := by
    intro n line defects hpiece hink hrejected
    refine ⟨ne_nil_of_validateLine hrejected, fun defect hdefect => ?_⟩
    have hline : (n + 1, line) ∈ numberedLines content :=
      mem_numberedLines.2 ⟨Nat.le_add_left 1 n, hpiece, hink⟩
    exact List.mem_flatMap.2 ⟨_, hline, mem_findingsIn.2 ⟨defects, hrejected, rfl, hdefect⟩⟩
  ordered := by
    refine List.pairwise_flatMap.2 ⟨fun m _ => ?_, ?_⟩
    · -- The findings on one line all have its number.
      refine List.pairwise_of_forall_mem_list fun f hf f' hf' => ?_
      obtain ⟨-, -, hline, -⟩ := mem_findingsIn.1 hf
      obtain ⟨-, -, hline', -⟩ := mem_findingsIn.1 hf'
      rw [hline, hline']
    · refine (pairwise_numberedLines content).imp fun hlt f hf f' hf' => ?_
      obtain ⟨-, -, hline, -⟩ := mem_findingsIn.1 hf
      obtain ⟨-, -, hline', -⟩ := mem_findingsIn.1 hf'
      rw [hline, hline']
      exact hlt.le

/-- What is validated is the text of the file. -/
theorem validate_readText {fs : Files} {path : Path}
    (hread : fs.read path = .ok (Bytes.ofText content)) :
    (fs.readText path).map validate = .ok (validate content) := by
  rw [Files.readText, hread]
  simp only [bind, Except.bind, Bytes.text?_ofText, Except.map]

/-- Validating goes line by line.  Behind a text of whole lines, a text has the findings that it has
alone, only so many lines further down; and every survey tells the lines that are rejected. -/
theorem validate_linewise (htext : text = "" ∨ text.toList.getLast? = some '\n') :
    validate (text ++ more) =
        (validate text).followedBy (text.toList.count '\n') (validate more) ∧
      (∀ content, (validate content).Describes content) ∧
      ∀ (fs : Files) (path : Path) content, fs.read path = .ok (Bytes.ofText content) →
        (fs.readText path).map validate = .ok (validate content) :=
  ⟨validate_append (htext.imp_left (congrArg String.toList)), describes_validate,
    fun _ _ _ => validate_readText⟩

/-- A line with a carriage return and a blank line, in front of a line that never ends. -/
theorem validate_linewise_blank_between :
    let text := "[\r\n \t\n"
    let fs : Files := { nodes := [([Bytes.ofText "log"], .data (Bytes.ofText (text ++ "[")))] }
    text.toList.getLast? = some '\n' ∧
      (fs.readText (Bytes.ofText "log")).map validate =
        .ok ((validate text).followedBy 2 (validate "[")) ∧
      (validate (text ++ "[")).lines = 2 ∧
      (validate (text ++ "[")).findings.map (·.line) = [1, 3] := by
  intro text fs
  have hlast : text.toList.getLast? = some '\n' := by decide
  have hcount : text.toList.count '\n' = 2 := by decide
  have hread : fs.read (Bytes.ofText "log") = .ok (Bytes.ofText (text ++ "[")) := rfl
  obtain ⟨happend, hdescribes, hfile⟩ := @validate_linewise text "[" (.inr hlast)
  rw [hcount] at happend
  refine ⟨hlast, happend ▸ hfile fs _ _ hread, ?_, by decide +kernel⟩
  rw [(hdescribes _).lines]
  decide

end Log

end GrowthFault
