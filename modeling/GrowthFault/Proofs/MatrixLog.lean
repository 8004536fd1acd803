import GrowthFault.Matrix.Run
import GrowthFault.Proofs.CheckerAgreement
import GrowthFault.Proofs.TraceIds

/-!
# What the matrix log tells of the report

Each row of a finished matrix has one entry in the log, in the order of the plan, between the
entries for the start and the end.  A row is judged by its verdict and by its transcript, its entry
by the verdict alone.  So the entry tells whether the row met its case, unless the run ended as
expected while the out-of-memory scenario went otherwise.
-/

namespace GrowthFault

namespace MatrixRow

/-- The entry is about the run of the row and has its verdict measured by the case. -/
structure LoggedAs (row : MatrixRow) (e : LogEntry) : Prop where
  event : e.event = "checker_run"
  subject : e.subject = some row.record.subject
  mode : e.mode = some row.record.mode
  failAfter : e.failAfter = row.record.failAfter
  outcome : e.outcome = some (row.record.outcome (some row.case.verdict))
  level : e.level = RunRecord.levelFor (row.record.outcome (some row.case.verdict))

/-- The entry tells whether the row met its case. -/
structure ToldBy (row : MatrixRow) (e : LogEntry) : Prop where
  met : row.met = true ↔ e.outcome = some .pass ∧ e.level = .info
  unmet : row.met = false ↔ e.outcome = some .fail ∧ e.level = .error

/-- If the run ended as expected, the out-of-memory scenario went as expected, too. -/
def EndsAlike (row : MatrixRow) : Prop :=
  row.record.verdict = row.case.verdict → row.case.oom.holds row.record.transcript = true

variable {row : MatrixRow} {e : LogEntry}

theorem LoggedAs.of_verdict (h : row.LoggedAs e)
    (hverdict : row.record.verdict = row.case.verdict) :
    e.outcome = some .pass ∧ e.level = .info := by
  have houtcome : row.record.outcome (some row.case.verdict) = .pass := if_pos hverdict
  rw [h.outcome, h.level, houtcome]
  exact ⟨rfl, rfl⟩

theorem LoggedAs.of_other_verdict (h : row.LoggedAs e)
    (hverdict : row.record.verdict ≠ row.case.verdict) :
    e.outcome = some .fail ∧ e.level = .error := by
  have houtcome : row.record.outcome (some row.case.verdict) = .fail := if_neg hverdict
  rw [h.outcome, h.level, houtcome]
  exact ⟨rfl, rfl⟩

/-- An entry tells whether the row met its case just when the transcript adds nothing to the
verdict. -/
theorem LoggedAs.toldBy_iff (h : row.LoggedAs e) (hmet : row.met = row.case.accepts row.record) :
    row.ToldBy e ↔ row.EndsAlike := by
  have haccepts : row.met = true ↔ row.record.verdict = row.case.verdict ∧
      row.case.oom.holds row.record.transcript = true := by
    rw [hmet, MatrixCase.accepts, Bool.and_eq_true, beq_iff_eq]
  by_cases hverdict : row.record.verdict = row.case.verdict
  · obtain ⟨houtcome, hlevel⟩ := h.of_verdict hverdict
    constructor
    · intro htold _
      exact (haccepts.1 (htold.met.2 ⟨houtcome, hlevel⟩)).2
    · intro halike
      have hrow : row.met = true := haccepts.2 ⟨hverdict, halike hverdict⟩
      constructor
      · simp [hrow, houtcome, hlevel]
      · simp [hrow, houtcome]
  · obtain ⟨houtcome, hlevel⟩ := h.of_other_verdict hverdict
    have hrow : row.met = false := by
      rw [← Bool.not_eq_true, haccepts]
      exact fun hboth => hverdict hboth.1
    constructor
    · intro _ hsame
      exact absurd hsame hverdict
    · intro _
      constructor
      · simp [hrow, houtcome]
      · simp [hrow, houtcome, hlevel]

end MatrixRow

theorem Preload.execute_eq_ok {p : Preload} {fs : Files} {start : Launcher} {record : RunRecord}
    (hexecute : p.execute fs start = .ok record) : ∃ output, record = .ofOutput p output := by
  unfold execute at hexecute
  split at hexecute
  next => cases hexecute
  next =>
    split at hexecute
    next =>
      split at hexecute
      next output _ =>
        cases hexecute
        exact ⟨output, rfl⟩
      next => cases hexecute
    next => cases hexecute

namespace Matrix

variable {u : Setup} {clock : Clock} {s : Subject} {c : MatrixCase} {m m' : Emitter}

/-- The row is that of a run of its case, judged by the case, and the entry is about the row. -/
structure Finished (u : Setup) (row : MatrixRow) (e : LogEntry) : Prop where
  executed : (u.preload row.record.subject row.case).execute u.files u.start = .ok row.record
  met : row.met = row.case.accepts row.record
  logged : row.LoggedAs e

theorem subject_of_execute {record : RunRecord}
    (hexecute : (u.preload s c).execute u.files u.start = .ok record) :
    record.subject = s := by
  obtain ⟨output, rfl⟩ := Preload.execute_eq_ok hexecute
  rfl

/-- A case takes one number for its entry, and the entry is written at once. -/
theorem runCase_eq_ok {row : MatrixRow} (hrun : runCase u clock s c m = .ok (row, m')) :
    ∃ record, (u.preload s c).execute u.files u.start = .ok record ∧
      row = ⟨c, record, c.accepts record⟩ ∧
      m' = { m with
        sequence := m.sequence + 1
        written := m.written ++ [(record.logEntry m (m.reading clock) (some c.verdict)).1] } := by
  unfold runCase at hrun
  cases hexecute : (u.preload s c).execute u.files u.start with
  | error failure => simp [hexecute, bind, Except.bind] at hrun
  | ok record =>
      let e := (record.logEntry m (m.reading clock) (some c.verdict)).1
      have hcampaign : e.campaign.isSome := rfl
      have hid : e.traceId ≠ "" := Emitter.traceId_ne_empty m.campaign m.runId (m.sequence + 1)
      simp only [hexecute, bind, Except.bind, Except.ok.injEq, Prod.mk.injEq] at hrun
      obtain ⟨rfl, rfl⟩ := hrun
      exact ⟨record, rfl, rfl, Emitter.emitEntry_of_identified hid hcampaign⟩

/-- A finished case leaves its row, and an entry for the row at the end of the log. -/
theorem runCase_finished {row : MatrixRow} (hrun : runCase u clock s c m = .ok (row, m')) :
    ∃ e, m'.written = m.written ++ [e] ∧ row.record.subject = s ∧ row.case = c ∧
      Finished u row e := by
  obtain ⟨record, hexecute, rfl, rfl⟩ := runCase_eq_ok hrun
  have hsubject := subject_of_execute hexecute
  refine ⟨_, rfl, hsubject, rfl, ?_, rfl, rfl, rfl, rfl, rfl, rfl, rfl⟩
  rw [hsubject]
  exact hexecute

/-- The rows of finished cases, their entries and the cases go side by side. -/
theorem runCases_finished {cases : List (Subject × MatrixCase)} {rows : List MatrixRow}
    (hrun : runCases u clock cases m = (.ok rows, m')) :
    ∃ entries, m'.written = m.written ++ entries ∧
      rows.map (fun row => (row.record.subject, row.case)) = cases ∧
      List.Forall₂ (Finished u) rows entries := by
  induction cases generalizing m rows with
  | nil =>
      cases hrun
      exact ⟨[], (List.append_nil _).symm, rfl, .nil⟩
  | cons planned rest ih =>
      obtain ⟨s, c⟩ := planned
      rw [runCases] at hrun
      split at hrun
      next => cases hrun
      next row m₁ hfirst =>
        obtain ⟨e, hwritten, rfl, rfl, hfinished⟩ := runCase_finished hfirst
        cases hrest : (runCases u clock rest m₁).1 with
        | error failure => simp [hrest, Except.map] at hrun
        | ok others =>
            simp only [hrest, Except.map, Prod.mk.injEq, Except.ok.injEq] at hrun
            obtain ⟨rfl, hlast⟩ := hrun
            obtain ⟨entries, hentries, hplanned, hothers⟩ := ih (Prod.ext hrest hlast)
            refine ⟨e :: entries, ?_, ?_, .cons hfinished hothers⟩
            · rw [hentries, hwritten, List.append_assoc, List.singleton_append]
            · rw [List.map_cons, hplanned]

/-- Cases that can all be started are finished. -/
theorem exists_runCases {cases : List (Subject × MatrixCase)}
    (hstarts : ∀ planned ∈ cases,
      ∃ record, (u.preload planned.1 planned.2).execute u.files u.start = .ok record)
    (m : Emitter) : ∃ rows m', runCases u clock cases m = (.ok rows, m') := by
  induction cases generalizing m with
  | nil => exact ⟨[], m, rfl⟩
  | cons planned rest ih =>
      obtain ⟨⟨record, hrecord⟩, hrest⟩ := List.forall_mem_cons.1 hstarts
      obtain ⟨rows, m', hrows⟩ := ih hrest
        ((record.logEntry m (m.reading clock) (some planned.2.verdict)).2.emitEntry
          (record.logEntry m (m.reading clock) (some planned.2.verdict)).1)
      refine ⟨⟨planned.2, record, planned.2.accepts record⟩ :: rows, m', ?_⟩
      simp only [runCases, runCase, hrecord, bind, Except.bind, hrows, Except.map]

/-- The entry at the end of a matrix. -/
def lastEntry (clock : Clock) (rows : List MatrixRow) (m : Emitter) : LogEntry :=
  (m.entry (m.reading clock) (levelFor (.ofRows rows)) "matrix_done").1.withDetails
    (Json.toValue (MatrixSummary.ofRows rows))

/-- A finished matrix has finished its plan, and the entry about the end has the next number. -/
theorem run_eq_ok {report : MatrixReport} (hrun : run u clock m = (.ok report, m')) :
    ∃ m₁, runCases u clock plan (m.emit (m.reading clock) .info "matrix_start").2 =
        (.ok report.rows, m₁) ∧
      report.summary = .ofRows report.rows ∧
      m' = { m₁ with
        sequence := m₁.sequence + 1
        written := m₁.written ++ [lastEntry clock report.rows m₁] } := by
  cases hcases : runCases u clock plan (m.emit (m.reading clock) .info "matrix_start").2 with
  | mk answer m₁ =>
      cases answer with
      | error failure => simp only [run, hcases, Prod.mk.injEq, reduceCtorEq, false_and] at hrun
      | ok rows =>
          simp only [run, hcases, Prod.mk.injEq, Except.ok.injEq] at hrun
          obtain ⟨rfl, rfl⟩ := hrun
          have hid : (lastEntry clock rows m₁).traceId ≠ "" :=
            Emitter.traceId_ne_empty m₁.campaign m₁.runId (m₁.sequence + 1)
          exact ⟨m₁, rfl, rfl, Emitter.emitEntry_of_identified hid rfl⟩

/-- A finished matrix has finished its plan, and its last entry is about the end. -/
theorem run_finished {report : MatrixReport} (hrun : run u clock m = (.ok report, m')) :
    ∃ m₁ last, runCases u clock plan (m.emit (m.reading clock) .info "matrix_start").2 =
        (.ok report.rows, m₁) ∧
      m'.written = m₁.written ++ [last] ∧ last.event = "matrix_done" := by
  obtain ⟨m₁, hcases, -, rfl⟩ := run_eq_ok hrun
  exact ⟨m₁, lastEntry clock report.rows m₁, hcases, rfl, rfl⟩

theorem exists_run
    (hstarts : ∀ s c, ∃ record, (u.preload s c).execute u.files u.start = .ok record)
    (clock : Clock) (m : Emitter) : ∃ report m', run u clock m = (.ok report, m') := by
  obtain ⟨rows, m', hrows⟩ : ∃ rows m',
      runCases u clock plan (m.emit (m.reading clock) .info "matrix_start").2 = (.ok rows, m') :=
    exists_runCases (fun planned _ => hstarts planned.1 planned.2) _
  unfold run
  simp only [hrows]
  exact ⟨_, _, rfl⟩

/-! ## Log and report -/

/-- In a finished matrix, each row has its entry, and the entry tells whether the row met its case
just when the transcript adds nothing to the verdict.  So log and report tell the same story
exactly if every run that ended as expected had the expected out-of-memory scenario. -/
theorem log_tells_report_iff {report : MatrixReport} (hrun : run u clock m = (.ok report, m')) :
    ∃ first entries last, m'.written = m.written ++ first :: entries ++ [last] ∧
      first.event = "matrix_start" ∧ last.event = "matrix_done" ∧
      report.rows.map (fun row => (row.record.subject, row.case)) = plan ∧
      List.Forall₂ (Finished u) report.rows entries ∧
      List.Forall₂ (fun row e => row.ToldBy e ↔ row.EndsAlike) report.rows entries ∧
      (List.Forall₂ MatrixRow.ToldBy report.rows entries ↔
        ∀ row ∈ report.rows, row.EndsAlike) := by
  obtain ⟨m₁, last, hcases, hwritten, hlast⟩ := run_finished hrun
  obtain ⟨entries, hentries, hplanned, hrows⟩ := runCases_finished hcases
  have hstart : (m.emit (m.reading clock) .info "matrix_start").2.written =
      m.written ++ [(m.emit (m.reading clock) .info "matrix_start").1] := rfl
  have htold : List.Forall₂ (fun row e => row.ToldBy e ↔ row.EndsAlike) report.rows entries :=
    hrows.imp fun row e hrow => hrow.logged.toldBy_iff hrow.met
  refine ⟨(m.emit (m.reading clock) .info "matrix_start").1, entries, last, ?_, rfl, hlast,
    hplanned, hrows, htold, ?_⟩
  · rw [hwritten, hentries, hstart, List.append_assoc m.written, List.singleton_append]
  · constructor
    · intro hall
      have hboth := hall.mp (fun row e hrow hiff => And.intro (hiff.1 hrow) hrow) htold
      exact ((List.forall₂_and_left _ _).1 hboth).1
    · intro halike
      exact ((List.forall₂_and_left _ _).2 ⟨halike, htold⟩).imp fun row e hrow => hrow.2.2 hrow.1

/-- The library `l` is taken for the checker, too: no run gets anywhere. -/
def crashing : Setup where
  files := { nodes := [([[0x6C]], .library)] }
  start := Checker.launcher { nodes := [([[0x6C]], .library)] } []
  library := [Path.dot, Path.slash, 0x6C]
  checker := [Path.dot, Path.slash, 0x6C]

theorem execute_crashing (s : Subject) (c : MatrixCase) :
    (crashing.preload s c).execute crashing.files crashing.start =
      .ok (.ofOutput (crashing.preload s c) { status := .killed segmentationFault }) := rfl

/-- When every run crashes, no row meets its case, and the log says so. -/
theorem log_tells_report_crashing :
    ∃ report m',
      run crashing (fun n => ⟨n, 0⟩) { campaign := "matrix", runId := "r" } = (.ok report, m') ∧
      ∃ first entries last, m'.written = first :: entries ++ [last] ∧
        List.Forall₂ MatrixRow.ToldBy report.rows entries := by
  obtain ⟨report, m', hrun⟩ := exists_run (fun s c => ⟨_, execute_crashing s c⟩) (fun n => ⟨n, 0⟩)
    { campaign := "matrix", runId := "r" }
  obtain ⟨first, entries, last, hwritten, -, -, hplanned, hfinished, -, hstory⟩ :=
    log_tells_report_iff hrun
  have hcrashed : ∀ row ∈ report.rows, row.record.verdict = .crashed := by
    refine ((List.forall₂_and_left _ _).1 (hfinished.imp fun row e hrow => ⟨?_, hrow⟩)).1
    have hexecuted := hrow.executed
    rw [execute_crashing] at hexecuted
    rw [← Except.ok.inj hexecuted]
    rfl
  have hexpected : ∀ planned ∈ plan, planned.2.verdict ≠ .crashed := by decide
  refine ⟨report, m', hrun, first, entries, last, hwritten, hstory.2 fun row hrow hverdict => ?_⟩
  have hcase := hexpected (row.record.subject, row.case)
    (hplanned ▸ List.mem_map_of_mem hrow)
  exact absurd (hverdict.symm.trans (hcrashed row hrow)) hcase

/-- A file `l` without code is taken for the library: the checker `c` runs, but nothing fails. -/
def unpreloaded : Setup where
  files := { nodes := [([[0x63]], .checker), ([[0x6C]], .data [])] }
  start := Checker.launcher { nodes := [([[0x63]], .checker), ([[0x6C]], .data [])] } []
  library := [Path.dot, Path.slash, 0x6C]
  checker := [Path.dot, Path.slash, 0x63]

theorem execute_unpreloaded (s : Subject) (c : MatrixCase) :
    (unpreloaded.preload s c).execute unpreloaded.files unpreloaded.start =
      .ok (.ofOutput (unpreloaded.preload s c)
        (Checker.process (unpreloaded.preload s c).arguments none)) := rfl

/-- Without a library the runs exit as expected and their out-of-memory scenario meets no failure:
the first row does not meet its case, but its entry is that of a pass. -/
theorem log_hides_unmet_row :
    ∃ report m',
      run unpreloaded (fun n => ⟨n, 0⟩) { campaign := "matrix", runId := "r" } = (.ok report, m') ∧
      ∃ first row rows e entries last, report.rows = row :: rows ∧
        m'.written = first :: e :: entries ++ [last] ∧ Finished unpreloaded row e ∧
        row.met = false ∧ e.outcome = some .pass ∧ e.level = .info ∧ ¬ row.ToldBy e := by
  obtain ⟨⟨library, rows, summary⟩, m', hrun⟩ :=
    exists_run (fun s c => ⟨_, execute_unpreloaded s c⟩) (fun n => ⟨n, 0⟩)
      { campaign := "matrix", runId := "r" }
  refine ⟨⟨library, rows, summary⟩, m', hrun, ?_⟩
  obtain ⟨m₁, last, hcases, hwritten, -⟩ := run_finished hrun
  obtain ⟨entries, hentries, hplanned, hfinished⟩ := runCases_finished hcases
  rw [hentries] at hwritten
  cases hfinished with
  | nil => cases hplanned
  | @cons row e rows entries hrow hrest =>
      have hfirst : row.case = ⟨.full, none, .passed, .injected⟩ :=
        congrArg Prod.snd (List.cons.inj hplanned).1
      have hrecord := Except.ok.inj ((execute_unpreloaded _ _).symm.trans hrow.executed)
      obtain ⟨htranscript, hverdict, -⟩ :=
        RunRecord.ofOutput_system Scenario.granted_above
          (unpreloaded.preload row.record.subject row.case)
      rw [hrecord] at htranscript hverdict
      have hunmet : row.met = false := by
        rw [hrow.met, MatrixCase.accepts, htranscript, hfirst]
        exact Bool.and_false _
      obtain ⟨houtcome, hlevel⟩ := hrow.logged.of_verdict (by rw [hverdict, hfirst])
      refine ⟨_, row, rows, e, entries, last, rfl, hwritten, hrow, hunmet, houtcome, hlevel, ?_⟩
      intro htold
      have hmet := htold.met.2 ⟨houtcome, hlevel⟩
      rw [hunmet] at hmet
      cases hmet

end Matrix

end GrowthFault
