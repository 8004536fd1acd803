import GrowthFault.Proofs.EmittedLog
import GrowthFault.Proofs.MatrixLog
import GrowthFault.Proofs.TextReading

/-!
# What a matrix reports

A finished matrix has a row for every case of every subject, in the order of the plan, and its
figures are those of the rows.  The matrix writes every entry as soon as it has numbered it, so the
entries of a fresh emitter are numbered from one on, line by line.
-/

namespace GrowthFault

/-! ## Entries written as soon as they are numbered -/

theorem RunRecord.sound_logEntry (r : RunRecord) (m : Emitter) (now : Instant)
    (expected : Option RunVerdict) : (r.logEntry m now expected).1.Sound := by
  -- Neither the campaign nor the run matters, so the entry may be one of an unnamed emitter.
  have hmade : (r.logEntry ⟨"", "", 0, []⟩ now expected).1.Made "" "" :=
    .recorded (m := ⟨"", "", 0, []⟩) rfl rfl r now expected
  have hsound := (hmade.sound (by decide) (by decide)).1
  exact ⟨hsound.named, hsound.settled, hsound.plain⟩

theorem MatrixSummary.loggable_toValue (s : MatrixSummary) : (Json.toValue s).Loggable := by
  have hclosed : (Json.Described.schema MatrixSummary).closed = true := rfl
  have hplain : (Json.toValue s).Plain 1 :=
    Json.Schema.plain_write (n := 0) (Json.Schema.free_of_closed hclosed _)
  exact ⟨nofun, hplain.whole, Nat.le_trans hplain.shallow (by decide)⟩

namespace Emitter

variable {campaign runId : String} {m : Emitter} {e : LogEntry}

/-- Every number that was given out stands in the log, in order. -/
structure Steady (campaign runId : String) (m : Emitter) : Prop where
  numbered : m.written.map (·.traceId) =
    (List.range' 1 m.sequence).map (traceId campaign runId)
  sound : ∀ e ∈ m.written, e.Sound
  campaign : m.campaign = campaign
  runId : m.runId = runId

theorem steady_fresh (campaign runId : String) : Steady campaign runId ⟨campaign, runId, 0, []⟩ :=
  ⟨rfl, List.forall_mem_nil _, rfl, rfl⟩

theorem Steady.next (h : m.Steady campaign runId)
    (hid : e.traceId = traceId m.campaign m.runId (m.sequence + 1)) (he : e.Sound) :
    Steady campaign runId
      { m with sequence := m.sequence + 1, written := m.written ++ [e] } where
  numbered := by
    rw [List.map_append, h.numbered, List.range'_1_concat, List.map_append, List.map_singleton,
      List.map_singleton, hid, h.campaign, h.runId, Nat.add_comm 1]
  sound := by
    rw [List.forall_mem_append, List.forall_mem_singleton]
    exact ⟨h.sound, he⟩
  campaign := h.campaign
  runId := h.runId

theorem Steady.emit (h : m.Steady campaign runId) (now : Instant) (level : Level)
    (event : String) : Steady campaign runId (m.emit now level event).2 :=
  h.next rfl ((LogEntry.sound_make now _ level event).add (.campaign m.campaign) nofun)

/-- As many entries were written as numbers were given out. -/
theorem Steady.length_written (h : m.Steady campaign runId) : m.written.length = m.sequence := by
  have hlength := congrArg List.length h.numbered
  rwa [List.length_map, List.length_map, List.length_range'] at hlength

end Emitter

namespace Matrix

variable {u : Setup} {clock : Clock} {m m' : Emitter} {campaign runId : String}

theorem steady_runCases {cases : List (Subject × MatrixCase)} {rows : List MatrixRow}
    (h : m.Steady campaign runId) (hrun : runCases u clock cases m = (.ok rows, m')) :
    m'.Steady campaign runId := by
  induction cases generalizing m rows with
  | nil =>
      cases hrun
      exact h
  | cons planned rest ih =>
      obtain ⟨s, c⟩ := planned
      rw [runCases] at hrun
      split at hrun
      next => cases hrun
      next row m₁ hfirst =>
        obtain ⟨record, -, -, rfl⟩ := runCase_eq_ok hfirst
        have hnext := h.next rfl (record.sound_logEntry m (m.reading clock) (some c.verdict))
        cases hrest : runCases u clock rest _ with
        | mk answer last =>
            rw [hrest] at hrun
            cases answer with
            | error failure => cases hrun
            | ok others =>
                obtain ⟨-, rfl⟩ := Prod.mk.inj hrun
                exact ih hnext hrest

theorem steady_run {report : MatrixReport} (h : m.Steady campaign runId)
    (hrun : run u clock m = (.ok report, m')) : m'.Steady campaign runId := by
  obtain ⟨m₁, hcases, -, rfl⟩ := run_eq_ok hrun
  have hdone := (LogEntry.sound_make (m₁.reading clock)
    (Emitter.traceId m₁.campaign m₁.runId (m₁.sequence + 1)) (levelFor (.ofRows report.rows))
    "matrix_done").add (.campaign m₁.campaign) nofun
  refine (steady_runCases (h.emit (m.reading clock) .info "matrix_start") hcases).next rfl
    (hdone.add (.details _) ?_)
  rintro _ ⟨⟩
  exact MatrixSummary.loggable_toValue _

end Matrix

/-! ## Figures -/

namespace MatrixSummary

variable {rows : List MatrixRow}

theorem total_ofRows (hrows : rows.length < UInt64.size) :
    (ofRows rows).total.toNat = rows.length :=
  UInt64.toNat_ofNat_of_lt' hrows

theorem met_ofRows (hrows : rows.length < UInt64.size) :
    (ofRows rows).met.toNat = rows.countP MatrixRow.met :=
  UInt64.toNat_ofNat_of_lt' (Nat.lt_of_le_of_lt List.countP_le_length hrows)

theorem met_add_unmet (rows : List MatrixRow) :
    rows.countP MatrixRow.met + rows.countP (!·.met) = rows.length := by
  have hothers : rows.countP (fun row => ¬ row.met = true) = rows.countP (!·.met) :=
    List.countP_congr fun row _ => by simp
  rw [List.length_eq_countP_add_countP MatrixRow.met, hothers]

theorem unmet_ofRows (hrows : rows.length < UInt64.size) :
    (ofRows rows).unmet.toNat = rows.countP (!·.met) := by
  have hsum := met_add_unmet rows
  have hunmet : rows.length - rows.countP MatrixRow.met = rows.countP (!·.met) := by omega
  rw [ofRows, hunmet]
  exact UInt64.toNat_ofNat_of_lt' (by omega)

theorem unmet_ofRows_eq_zero_iff (hrows : rows.length < UInt64.size) :
    (ofRows rows).unmet = 0 ↔ ∀ row ∈ rows, row.met = true := by
  rw [← UInt64.toNat_inj, unmet_ofRows hrows]
  simp [List.countP_eq_zero]

end MatrixSummary

namespace MatrixReport

/-- The figures of a report are counted from its rows, and so is what becomes of the report. -/
structure Counted (r : MatrixReport) : Prop where
  total : r.summary.total.toNat = r.rows.length
  met : r.summary.met.toNat = r.rows.countP MatrixRow.met
  sum : r.summary.met.toNat + r.summary.unmet.toNat = r.summary.total.toNat
  allMet_iff : r.allMet = true ↔ ∀ row ∈ r.rows, row.met = true
  result_of_met : (∀ row ∈ r.rows, row.met = true) → r.result = .ok r
  result_of_unmet : (∃ row ∈ r.rows, row.met = false) →
    ∃ failed total, r.result = .error (.expectationsFailed failed total) ∧
      failed.toNat = r.rows.countP (!·.met) ∧ total.toNat = r.rows.length

theorem counted_of_summary {r : MatrixReport} (hsummary : r.summary = .ofRows r.rows)
    (hrows : r.rows.length < UInt64.size) : r.Counted := by
  have htotal := MatrixSummary.total_ofRows hrows
  have hmet := MatrixSummary.met_ofRows hrows
  have hunmet := MatrixSummary.unmet_ofRows hrows
  have hall : r.allMet = true ↔ ∀ row ∈ r.rows, row.met = true := by
    rw [allMet, hsummary, beq_iff_eq]
    exact MatrixSummary.unmet_ofRows_eq_zero_iff hrows
  constructor
  · rw [hsummary, htotal]
  · rw [hsummary, hmet]
  · rw [hsummary, htotal, hmet, hunmet, MatrixSummary.met_add_unmet]
  · exact hall
  · intro hevery
    rw [result, if_pos (hall.2 hevery)]
  · rintro ⟨row, hrow, hmissed⟩
    have hnot : ¬ r.allMet = true := by
      intro hevery
      rw [hall.1 hevery row hrow] at hmissed
      cases hmissed
    refine ⟨r.summary.unmet, r.summary.total, if_neg hnot, ?_, ?_⟩
    · rw [hsummary, hunmet]
    · rw [hsummary, htotal]

end MatrixReport

/-! ## Report and log -/

namespace Matrix

variable {u : Setup} {clock : Clock} {m m' : Emitter} {campaign runId : String}

/-- A record tells in what configuration its case was run. -/
theorem Finished.configured {row : MatrixRow} {e : LogEntry} (h : Finished u row e) :
    row.record.mode = row.case.mode ∧ row.record.failAfter = row.case.failAfter := by
  obtain ⟨output, hrecord⟩ := Preload.execute_eq_ok h.executed
  rw [hrecord]
  exact ⟨rfl, rfl⟩

theorem level_lastEntry_eq_error_iff {rows : List MatrixRow} (hrows : rows.length < UInt64.size) :
    (lastEntry clock rows m).level = .error ↔ ∃ row ∈ rows, row.met = false := by
  have hlevel : (lastEntry clock rows m).level = levelFor (.ofRows rows) := rfl
  rw [hlevel, levelFor, ite_eq_right_iff, MatrixSummary.unmet_ofRows_eq_zero_iff hrows]
  simp

/-- A matrix on a fresh emitter, once it has a report, has run every case of every subject in order;
its figures are those of its rows, and its log has the start, every row and the end, numbered line
by line. -/
theorem report_consistent {report : MatrixReport}
    (hrun : run u clock ⟨campaign, runId, 0, []⟩ = (.ok report, m')) :
    report.rows.map (fun row => (row.record.subject, row.case)) =
        Subject.all.flatMap (fun s => MatrixCase.all.map fun c => (s, c)) ∧
      (∀ row ∈ report.rows, row.record.mode = row.case.mode ∧
        row.record.failAfter = row.case.failAfter ∧ row.met = row.case.accepts row.record) ∧
      report.Counted ∧
      ∃ first entries last, m'.written = first :: entries ++ [last] ∧
        first.event = "matrix_start" ∧ List.Forall₂ (Finished u) report.rows entries ∧
        last.event = "matrix_done" ∧
        (last.level = .error ↔ ∃ row ∈ report.rows, row.met = false) ∧
        m'.written.map (·.traceId) =
          (List.range' 1 (report.rows.length + 2)).map (Emitter.traceId campaign runId) ∧
        Text.lines m'.text.toList = m'.written.map (·.line.toList) := by
  have hsteady := steady_run (Emitter.steady_fresh campaign runId) hrun
  obtain ⟨m₁, hcases, hsummary, rfl⟩ := run_eq_ok hrun
  obtain ⟨entries, hentries, hplanned, hfinished⟩ := runCases_finished hcases
  have hlength : report.rows.length = plan.length := by
    rw [← hplanned, List.length_map]
  have hrows : report.rows.length < UInt64.size := by
    rw [hlength]
    decide
  let first := (Emitter.emit ⟨campaign, runId, 0, []⟩ (clock 1) .info "matrix_start").1
  let last := lastEntry clock report.rows m₁
  have hwritten : m₁.written ++ [last] = first :: entries ++ [last] := by
    rw [hentries]
    rfl
  refine ⟨hplanned, ?_, MatrixReport.counted_of_summary hsummary hrows, first, entries, last,
    hwritten, rfl, hfinished, rfl, level_lastEntry_eq_error_iff hrows, ?_,
    Emitter.lines_of_sound hsteady.sound⟩
  · refine ((List.forall₂_and_left _ _).1 (hfinished.imp fun row e hrow => ⟨?_, hrow⟩)).1
    exact ⟨hrow.configured.1, hrow.configured.2, hrow.met⟩
  · have hnumbers : m₁.sequence + 1 = report.rows.length + 2 := by
      have hwhole := hsteady.length_written
      dsimp only at hwhole
      rw [← hwhole, hwritten, hfinished.length_eq]
      simp
    rw [← hnumbers]
    exact hsteady.numbered

/-- Without a library the four cases that expect no failure are met, and the eight others are
not. -/
theorem report_consistent_unpreloaded :
    ∃ report m', run unpreloaded (fun n => ⟨n, 0⟩) ⟨"matrix", "r", 0, []⟩ = (.ok report, m') ∧
      report.result = .error (.expectationsFailed 8 12) ∧
      m'.written.map (·.traceId) =
        (List.range' 1 14).map (Emitter.traceId "matrix" "r") := by
  obtain ⟨report, m', hrun⟩ := exists_run (fun s c => ⟨_, execute_unpreloaded s c⟩)
    (fun n => ⟨n, 0⟩) ⟨"matrix", "r", 0, []⟩
  obtain ⟨hplanned, -, hcounted, first, entries, last, -, -, hfinished, -, -, hnumbers, -⟩ :=
    report_consistent hrun
  have hmet : ∀ row ∈ report.rows,
      row.met = (row.case.verdict == .passed && row.case.oom == .inactive) := by
    refine ((List.forall₂_and_left _ _).1 (hfinished.imp fun row e hrow => ⟨?_, hrow⟩)).1
    have hrecord := Except.ok.inj ((execute_unpreloaded _ _).symm.trans hrow.executed)
    obtain ⟨htranscript, hverdict, -⟩ :=
      RunRecord.ofOutput_system Scenario.granted_above
        (unpreloaded.preload row.record.subject row.case)
    rw [hrecord] at htranscript hverdict
    rw [hrow.met, MatrixCase.accepts, htranscript, hverdict]
    cases row.case with
    | mk mode failAfter verdict oom => cases mode <;> cases verdict <;> cases oom <;> rfl
  have hlength : report.rows.length = 12 := by
    have hplan := congrArg List.length hplanned
    rw [List.length_map] at hplan
    exact hplan
  have hunmet : report.rows.countP (!·.met) = 8 := by
    have hcases : report.rows.countP (!·.met) =
        (report.rows.map fun row => (row.record.subject, row.case)).countP fun planned =>
          !(planned.2.verdict == .passed && planned.2.oom == .inactive) := by
      rw [List.countP_map]
      exact List.countP_congr fun row hrow => by simp [hmet row hrow]
    rw [hcases, hplanned]
    decide
  have hmissed : ∃ row ∈ report.rows, row.met = false := by
    have hsome : 0 < report.rows.countP (!·.met) := hunmet ▸ Nat.succ_pos 7
    simpa using List.countP_pos_iff.1 hsome
  obtain ⟨failed, total, hresult, hfailed, htotal⟩ := hcounted.result_of_unmet hmissed
  rw [hunmet] at hfailed
  rw [hlength] at htotal hnumbers
  obtain rfl : failed = 8 := UInt64.toNat_inj.1 hfailed
  obtain rfl : total = 12 := UInt64.toNat_inj.1 htotal
  exact ⟨report, m', hrun, hresult, hnumbers⟩

end Matrix

end GrowthFault
