import GrowthFault.Checker
import GrowthFault.Proofs.ReportCounting
import GrowthFault.Proofs.ScenarioOutcomes
import GrowthFault.Proofs.TranscriptReading

/-!
# The checker and the seam agree

A checker process with the library before its allocator, and a run on an injected heap inside the
process, go through the same scenarios in the same way, whatever the environment holds.  What the
checker prints is read back as just that: its transcript, its exit code and the reports on its
error output are those of the seam run.
-/

namespace GrowthFault

open Heap

/-- What is told of scenarios that went like this, and of a library with these numbers: the calls
that it counted and the ordinal that it followed. -/
def Transcript.ofOutcomes (normal : Option NormalOutcome) (oom : Option OomOutcome)
    (numbers : Option (UInt64 × UInt64)) : Transcript where
  normalPassed := normal == some .passed
  normalFailed := normal == some .returnedNull
  oomInjected := oom == some .returnedNull
  oomInactive := match oom with
    | some (.succeeded _) => true
    | _ => false
  completed := oom.isSome
  calls := if oom.isSome then numbers.map Prod.fst else none
  failAfter := if oom.isSome then numbers.map Prod.snd else none

namespace Checker

open Transcript

variable {env : Environment} {sizes : List Nat} {b : Base}

/-- The lines about the scenarios. -/
def scenarioLines (s : Subject) (normal : Option NormalOutcome) (oom : Option OomOutcome) :
    List String :=
  (normal.map normalLines).getD [] ++
    match oom with
    | some outcome => oomLines s outcome ++ ["", Wording.completed]
    | none => []

theorem lines_eq (s : Subject) (normal : Option NormalOutcome) (oom : Option OomOutcome)
    (b : Base) :
    lines s normal oom b =
      scenarioLines s normal oom ++ if oom.isSome then libraryLines b else [] := by
  cases oom <;> simp [lines, scenarioLines]

theorem readPrinted_passed (t : Transcript) :
    t.readPrinted (normalLines .passed) = { t with normalPassed := true } := by
  have hbanner : t.readLine (Text.trim Wording.normalBanner.toList) = t :=
    t.readLine_plain (by decide)
  have hpassed : t.readLine (Text.trim
      (Wording.normalPassed ++ ": '" ++ Scenario.normalExpected ++ "'").toList) =
        { t with normalPassed := true } := by
    rw [String.append_assoc, String.append_assoc]
    obtain ⟨rest, hread⟩ := t.readLine_trim_append .normalPassed nofun rfl (by decide)
      (": '" ++ (Scenario.normalExpected ++ "'"))
    exact hread
  have hblank (t : Transcript) : t.readLine (Text.trim "".toList) = t :=
    t.readLine_plain (by decide)
  rw [normalLines, readPrinted_cons, hbanner, readPrinted_cons, hpassed, readPrinted_cons, hblank]
  rfl

theorem readPrinted_returnedNull (t : Transcript) :
    t.readPrinted (normalLines .returnedNull) = { t with normalFailed := true } := by
  have hbanner : t.readLine (Text.trim Wording.normalBanner.toList) = t :=
    t.readLine_plain (by decide)
  have hnull : t.readLine (Text.trim (Wording.normalNull ++ "").toList) =
      { t with normalFailed := true } := by
    obtain ⟨rest, hread⟩ := t.readLine_trim_append .normalNull nofun rfl (by decide) ""
    exact hread
  rw [String.append_empty] at hnull
  rw [normalLines, readPrinted_cons, hbanner, readPrinted_cons, hnull]
  rfl

theorem readPrinted_injected (t : Transcript) (s : Subject) :
    t.readPrinted (oomLines s .returnedNull) = { t with oomInjected := true } := by
  have hbanner : t.readLine (Text.trim Wording.oomBanner.toList) = t :=
    t.readLine_plain (by decide)
  have hinjected : t.readLine (Text.trim
      (Wording.oomPassed ++ ": append_str correctly returned NULL on realloc failure").toList) =
        { t with oomInjected := true } := by
    obtain ⟨rest, hread⟩ := t.readLine_trim_append .oomPassed nofun rfl (by decide)
      ": append_str correctly returned NULL on realloc failure"
    exact hread
  have hloss (t : Transcript) : t.readLine (Text.trim (lossLine s).toList) = t := by
    cases s <;> exact t.readLine_plain (by decide)
  rw [oomLines, readPrinted_cons, hbanner, readPrinted_cons, hinjected, readPrinted_cons, hloss]
  rfl

theorem readPrinted_inactive (t : Transcript) (s : Subject) :
    t.readPrinted (oomLines s (.succeeded "ab")) = { t with oomInactive := true } := by
  have hbanner : t.readLine (Text.trim Wording.oomBanner.toList) = t :=
    t.readLine_plain (by decide)
  have hinactive : t.readLine (Text.trim (Wording.oomInactive ++ "").toList) =
      { t with oomInactive := true } := by
    obtain ⟨rest, hread⟩ := t.readLine_trim_append .oomInactive nofun rfl (by decide) ""
    exact hread
  have hresult (t : Transcript) :
      t.readLine (Text.trim ("  Result: '" ++ "ab" ++ "'").toList) = t := by
    rw [String.toList_append, String.toList_append]
    repeat rw [String.toList_ofList]
    exact t.readLine_of_head (by decide)
  rw [String.append_empty] at hinactive
  rw [oomLines, readPrinted_cons, hbanner, readPrinted_cons, hinactive, readPrinted_cons, hresult]
  rfl

theorem readPrinted_completed (t : Transcript) :
    t.readPrinted ["", Wording.completed] = { t with completed := true } := by
  have hblank : t.readLine (Text.trim "".toList) = t :=
    t.readLine_plain (by decide)
  have htrim : Text.trim Wording.completed.toList = Wording.completed.toList := by
    unfold Wording.completed
    rw [String.toList_ofList]
    decide
  have hread := t.readLine_mark .completed [] fun _ => rfl
  rw [List.append_nil] at hread
  have hcompleted : t.readLine Wording.completed.toList = { t with completed := true } := hread
  rw [readPrinted_cons, hblank, readPrinted_cons, htrim, hcompleted]
  rfl

theorem readPrinted_scenarioLines (s : Subject) (p : Policy) (mode : Mode) :
    Transcript.readPrinted {} (scenarioLines s (p.outcomes mode).1 (p.outcomes mode).2) =
      .ofOutcomes (p.outcomes mode).1 (p.outcomes mode).2 none := by
  unfold scenarioLines
  -- One case a run: a full run ends with its first scenario if that fails.
  cases mode with
  | full =>
      by_cases hfirst : p.verdict 1 = .fail
      · simp only [Policy.outcomes, hfirst, if_true, Option.map_some, Option.getD_some,
          List.append_nil, readPrinted_returnedNull]
        rfl
      · by_cases hsecond : p.verdict 2 = .fail
        · simp only [Policy.outcomes, Policy.oomOutcome, hfirst, hsecond, if_true, if_false,
            Option.map_some, Option.getD_some, readPrinted_append, readPrinted_passed,
            readPrinted_injected, readPrinted_completed]
          rfl
        · simp only [Policy.outcomes, Policy.oomOutcome, hfirst, hsecond, if_false,
            Option.map_some, Option.getD_some, readPrinted_append, readPrinted_passed,
            readPrinted_inactive, readPrinted_completed]
          rfl
  | oomOnly =>
      by_cases hfirst : p.verdict 1 = .fail
      · simp only [Policy.outcomes, Policy.oomOutcome, hfirst, if_true, Option.map_none,
          Option.getD_none, List.nil_append, readPrinted_append, readPrinted_injected,
          readPrinted_completed]
        rfl
      · simp only [Policy.outcomes, Policy.oomOutcome, hfirst, if_false, Option.map_none,
          Option.getD_none, List.nil_append, readPrinted_append, readPrinted_inactive,
          readPrinted_completed]
        rfl

theorem whole_normalLines :
    ∀ line ∈ normalLines .passed ++ normalLines .returnedNull, '\n' ∉ line.toList := by
  unfold normalLines Wording.normalBanner Wording.normalPassed Scenario.normalExpected
    Wording.normalNull
  simp only [List.cons_append, List.nil_append, List.forall_mem_cons, String.toList_append]
  repeat rw [String.toList_ofList]
  decide

theorem whole_oomLines (s : Subject) :
    ∀ line ∈ oomLines s .returnedNull ++ oomLines s (.succeeded "ab") ++ ["", Wording.completed],
      '\n' ∉ line.toList := by
  unfold oomLines Wording.oomBanner Wording.oomPassed Wording.oomInactive Wording.completed lossLine
  simp only [List.cons_append, List.nil_append, List.forall_mem_cons, String.toList_append]
  cases s <;> repeat rw [String.toList_ofList]
  · decide
  · decide

theorem whole_scenarioLines (s : Subject) (p : Policy) (mode : Mode) :
    ∀ line ∈ scenarioLines s (p.outcomes mode).1 (p.outcomes mode).2, '\n' ∉ line.toList := by
  have hnormal := whole_normalLines
  have hoom := whole_oomLines s
  rw [List.forall_mem_append] at hnormal
  rw [List.forall_mem_append, List.forall_mem_append] at hoom
  have hsecond (ordinal : Nat) :
      ∀ line ∈ oomLines s (p.oomOutcome ordinal) ++ ["", Wording.completed],
        '\n' ∉ line.toList := by
    rw [List.forall_mem_append]
    unfold Policy.oomOutcome
    split
    next => exact ⟨hoom.1.1, hoom.2⟩
    next => exact ⟨hoom.1.2, hoom.2⟩
  unfold scenarioLines
  cases mode with
  | full =>
      by_cases hfirst : p.verdict 1 = .fail
      · simpa [Policy.outcomes, hfirst] using hnormal.2
      · simp only [Policy.outcomes, hfirst, if_false, Option.map_some, Option.getD_some]
        rw [List.forall_mem_append]
        exact ⟨hnormal.1, hsecond 2⟩
  | oomOnly => exact hsecond 1

/-- The lines about a library that has counted, under the policy of its environment. -/
theorem libraryLines_eq (hb : b.Preloaded env sizes) :
    libraryLines b = [Wording.calls ++ Decimal.text sizes.length,
      Wording.failAfter ++ Decimal.text env.policy.ordinal.toNat] := by
  rw [libraryLines, hb.interposedCalls?, hb.interposedPolicy?]
  rfl

theorem libraryLines_of_system (hsource : b.source = .system) :
    libraryLines b = [] := by
  simp [libraryLines, Base.interposedCalls?, Base.interposedPolicy?, hsource]

theorem whole_number {lead : String} (hlead : '\n' ∉ lead.toList) (n : Nat) :
    '\n' ∉ (lead ++ Decimal.text n).toList := by
  rw [String.toList_append, Decimal.toList_text, List.mem_append, not_or]
  exact ⟨hlead, Decimal.newline_digits n⟩

theorem whole_libraryLines (hb : b.Preloaded env sizes) :
    ∀ line ∈ libraryLines b, '\n' ∉ line.toList := by
  have hcalls : '\n' ∉ Wording.calls.toList := Text.newline_ofList (by decide)
  have hfailAfter : '\n' ∉ Wording.failAfter.toList := Text.newline_ofList (by decide)
  rw [libraryLines_eq hb, List.forall_mem_cons, List.forall_mem_singleton]
  exact ⟨whole_number hcalls _, whole_number hfailAfter _⟩

theorem readPrinted_libraryLines (hb : b.Preloaded env sizes) (hfew : sizes.length < UInt64.size)
    (t : Transcript) :
    t.readPrinted (libraryLines b) =
      { t with calls := some (UInt64.ofNat sizes.length)
               failAfter := some env.policy.ordinal } := by
  rw [libraryLines_eq hb, readPrinted_cons, readPrinted_cons, t.readLine_calls hfew,
    readLine_failAfter _ env.policy.ordinal.toNat_lt, UInt64.ofNat_toNat]
  rfl

/-! ## Runs of the checker -/

theorem parseArguments_arguments (p : Preload) :
    parseArguments p.arguments = some (p.subject, p.mode) := by
  have hsubject : Subject.ofWord? p.subject.name = some p.subject := by
    cases p.subject <;> decide
  unfold Preload.arguments parseArguments
  cases p.mode with
  | full => simp [Bytes.text?_ofText, hsubject]
  | oomOnly => simp [Bytes.text?_ofText, hsubject]

/-- With the library the checker's growth calls are the subject's, and the policy decides. -/
theorem run_interposed {place : Placement} (hgranted : Scenario.Granted place) (s : Subject)
    (mode : Mode) (env : Environment) :
    ∃ sizes b, sizes.length = env.policy.growths mode ∧ b.Preloaded env sizes ∧
      run s mode (.preloaded env place) =
        { status := .exited (exitCode (env.policy.outcomes mode).2)
          stdout := Bytes.ofText (String.join ((lines s (env.policy.outcomes mode).1
            (env.policy.outcomes mode).2 b).map (· ++ "\n")))
          stderr := env.policy.reported sizes } := by
  have hfollows := Stack.follows_bare place (Base.follows_preloaded env)
  have hstart : Stack.Bare place
      (fun n b => ∃ sizes : List Nat, sizes.length = n ∧ b.Preloaded env sizes)
      0 ⟨[], .preloaded env place⟩ :=
    ⟨rfl, rfl, [], rfl, Base.preloaded_start env place⟩
  obtain ⟨h, hrun, hseen⟩ := Scenario.runMode_follows Stack.contract hfollows
    hgranted hstart s mode
  obtain ⟨sizes, hlength, hb⟩ := hseen.base
  refine ⟨sizes, h.base, hlength, hb, ?_⟩
  rw [run, hrun]
  simp only [hb.reports?, Option.getD_some]

theorem run_system {place : Placement} (hgranted : Scenario.Granted place) (s : Subject)
    (mode : Mode) :
    ∃ b : Base, b.source = .system ∧
      run s mode { source := .system, placement := place } =
        { status := .exited (exitCode (Policy.disabled.outcomes mode).2)
          stdout := Bytes.ofText (String.join ((lines s (Policy.disabled.outcomes mode).1
            (Policy.disabled.outcomes mode).2 b).map (· ++ "\n")))
          stderr := [] } := by
  have hfollows := Stack.follows_bare place Base.follows_system
  have hstart : Stack.Bare place (fun _ b => b.source = .system) 0
      ⟨[], { source := .system, placement := place }⟩ :=
    ⟨rfl, rfl, rfl⟩
  obtain ⟨h, hrun, hseen⟩ := Scenario.runMode_follows Stack.contract hfollows
    hgranted hstart s mode
  have hsource : h.base.source = .system := hseen.base
  refine ⟨h.base, hsource, ?_⟩
  rw [run, hrun]
  simp [Base.reports?, hsource]

theorem parse_lines_interposed (s : Subject) (mode : Mode) (hb : b.Preloaded env sizes)
    (hlength : sizes.length = env.policy.growths mode) :
    parse (String.join ((lines s (env.policy.outcomes mode).1 (env.policy.outcomes mode).2 b).map
      (· ++ "\n"))) =
        .ofOutcomes (env.policy.outcomes mode).1 (env.policy.outcomes mode).2
          (some (UInt64.ofNat (env.policy.growths mode), env.policy.ordinal)) := by
  have hfew : sizes.length < UInt64.size := by
    have hle := env.policy.growths_le mode
    rw [hlength]
    exact Nat.lt_of_le_of_lt hle (by decide)
  have hwhole := whole_scenarioLines s env.policy mode
  have hscenarios := readPrinted_scenarioLines s env.policy mode
  rw [lines_eq]
  -- The lines about the library are printed only when the scenarios were completed.
  by_cases hcompleted : (env.policy.outcomes mode).2.isSome
  · rw [if_pos hcompleted, parse_printed, readPrinted_append, hscenarios,
      readPrinted_libraryLines hb hfew, hlength]
    · simp [ofOutcomes, hcompleted]
    · rw [List.forall_mem_append]
      exact ⟨hwhole, whole_libraryLines hb⟩
  · rw [if_neg hcompleted, List.append_nil, parse_printed hwhole, hscenarios]
    simp [ofOutcomes, hcompleted]

theorem parse_lines_system (s : Subject) (p : Policy) (mode : Mode)
    (hsource : b.source = .system) :
    parse (String.join ((lines s (p.outcomes mode).1 (p.outcomes mode).2 b).map (· ++ "\n"))) =
      .ofOutcomes (p.outcomes mode).1 (p.outcomes mode).2 none := by
  have hwhole := whole_scenarioLines s p mode
  rw [lines_eq, libraryLines_of_system hsource, ite_self, List.append_nil, parse_printed hwhole,
    readPrinted_scenarioLines]

end Checker

namespace RunRecord

variable {place : Placement}

theorem ofOutput_interposed (hgranted : Scenario.Granted place) (p : Preload)
    (env : Environment) :
    let record := ofOutput p (Checker.process p.arguments (some env) place)
    let outcomes := env.policy.outcomes p.mode
    record.transcript = .ofOutcomes outcomes.1 outcomes.2
        (some (UInt64.ofNat (env.policy.growths p.mode), env.policy.ordinal)) ∧
      record.verdict = (if outcomes.2.isSome then .passed else .contractViolation) ∧
      record.reports = if env.policy.trace ∧ env.policy.ordinal ≠ 0 ∧
        env.policy.ordinal.toNat ≤ env.policy.growths p.mode then 1 else 0 := by
  obtain ⟨sizes, b, hlength, hb, hrun⟩ := Checker.run_interposed hgranted p.subject p.mode env
  have hprocess : Checker.process p.arguments (some env) place =
      Checker.run p.subject p.mode (.preloaded env place) := by
    rw [Checker.process, Checker.parseArguments_arguments]
    rfl
  have htranscript := Checker.parse_lines_interposed p.subject p.mode hb hlength
  have hreports := env.policy.countP_reported sizes
  rw [hlength] at hreports
  dsimp only
  rw [hprocess, hrun]
  refine ⟨?_, ?_, hreports⟩
  · simpa only [ofOutput, Bytes.lossyText_ofText] using htranscript
  · simp only [ofOutput, Checker.exitCode]
    split <;> rfl

theorem ofOutput_system (hgranted : Scenario.Granted place) (p : Preload) :
    let record := ofOutput p (Checker.process p.arguments none place)
    let outcomes := Policy.disabled.outcomes p.mode
    record.transcript = .ofOutcomes outcomes.1 outcomes.2 none ∧ record.verdict = .passed ∧
      record.reports = 0 := by
  obtain ⟨b, hsource, hrun⟩ := Checker.run_system hgranted p.subject p.mode
  have hprocess : Checker.process p.arguments none place =
      Checker.run p.subject p.mode { source := .system, placement := place } := by
    rw [Checker.process, Checker.parseArguments_arguments]
    rfl
  have htranscript := Checker.parse_lines_system p.subject .disabled p.mode hsource
  have hcompleted : (Policy.disabled.outcomes p.mode).2.isSome := by
    cases p.mode <;> rfl
  dsimp only
  rw [hprocess, hrun]
  refine ⟨?_, ?_, ?_⟩
  · simpa only [ofOutput, Bytes.lossyText_ofText] using htranscript
  · simp only [ofOutput, Checker.exitCode, hcompleted, if_true]
    rfl
  · exact Policy.disabled.countP_reported []

end RunRecord

/-- The checker with the library, in whatever environment, and the seam run of the policy that the
environment configures tell the same story; without the library it is the story of a seam run that
fails nothing.  The two heaps may put their blocks where they like. -/
theorem checker_agrees_with_seam {place place' : Placement} (hgranted : Scenario.Granted place)
    (hgranted' : Scenario.Granted place') (p : Preload) (env : Environment) :
    (∃ S, Seam.run p.subject env.policy p.mode place = .ok S ∧
      let record := RunRecord.ofOutput p (Checker.process p.arguments (some env) place')
      record.transcript = .ofOutcomes S.normal S.oom (some (S.calls, env.policy.ordinal)) ∧
      record.verdict = (if S.oom.isSome then .passed else .contractViolation) ∧
      record.reports = if env.policy.trace ∧ S.failures = 1 then 1 else 0) ∧
    (∃ S, Seam.run p.subject .disabled p.mode place = .ok S ∧
      let record := RunRecord.ofOutput p (Checker.process p.arguments none place')
      record.transcript = .ofOutcomes S.normal S.oom none ∧
      record.verdict = .passed ∧ record.reports = 0) := by
  constructor
  · obtain ⟨S, hseam, hnormal, hoom, hcalls, -⟩ :=
      Seam.run_follows hgranted p.subject env.policy p.mode
    obtain ⟨htranscript, hverdict, hreports⟩ := RunRecord.ofOutput_interposed hgranted' p env
    refine ⟨S, hseam, ?_⟩
    simp only [SeamReport.failures_eq_one_iff hnormal hoom]
    rw [hnormal, hoom, hcalls]
    exact ⟨htranscript, hverdict, hreports⟩
  · obtain ⟨S, hseam, hnormal, hoom, -⟩ :=
      Seam.run_follows hgranted p.subject .disabled p.mode
    refine ⟨S, hseam, ?_⟩
    rw [hnormal, hoom]
    exact RunRecord.ofOutput_system hgranted' p

/-- The seam run moves its blocks and the checker keeps them in place.  Both have the first growth
call failed, and the library reports it. -/
theorem checker_agrees_with_seam_traced :
    let env : Environment := ⟨some (Bytes.ofText "1"), some (Bytes.ofText "1")⟩
    let p : Preload := { library := [], checker := [], subject := .buggy }
    let record := RunRecord.ofOutput p (Checker.process p.arguments (some env) .inPlace)
    Scenario.Granted .above ∧ Scenario.Granted .inPlace ∧
      record.transcript = .ofOutcomes (some .returnedNull) none (some (1, 1)) ∧
      record.verdict = .contractViolation ∧ record.reports = 1 := by
  intro env p record
  have hpolicy : env.policy = ⟨1, true⟩ := by decide
  obtain ⟨⟨S, hseam, htranscript, hverdict, hreports⟩, -⟩ :=
    checker_agrees_with_seam Scenario.granted_above Scenario.granted_inPlace p env
  obtain ⟨S', hseam', hnormal, hoom, hcalls, -⟩ :=
    Seam.run_follows Scenario.granted_above .buggy env.policy .full
  obtain rfl : S = S' := Except.ok.inj (hseam.symm.trans hseam')
  rw [hpolicy] at hnormal hoom hcalls htranscript hreports
  have hfailures : S.failures = 1 := by
    rw [SeamReport.failures, hnormal, hoom]
    rfl
  refine ⟨Scenario.granted_above, Scenario.granted_inPlace, ?_, ?_, ?_⟩
  · rw [hnormal, hoom, hcalls] at htranscript
    exact htranscript
  · rw [hoom] at hverdict
    exact hverdict
  · rw [hfailures] at hreports
    exact hreports

end GrowthFault
