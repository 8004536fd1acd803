import GrowthFault.Matrix.Report
import GrowthFault.Run.Execute

/-!
# Running the matrix

Every case is run for every subject.  The log gets an entry at the start, one for each run, and
one at the end with the summary, each with a reading of the clock; a run that cannot be started ends
the matrix.
-/

namespace GrowthFault.Matrix

/-- The runs in order: all cases of one subject, then those of the next. -/
def plan : List (Subject × MatrixCase) :=
  Subject.all.flatMap fun s => MatrixCase.all.map fun c => (s, c)

/-- Where the binaries are, and how a process is started. -/
structure Setup where
  files : Files
  start : Launcher
  library : Path
  checker : Path

def Setup.preload (u : Setup) (s : Subject) (c : MatrixCase) : Preload where
  library := u.library
  checker := u.checker
  subject := s
  mode := c.mode
  failAfter := c.failAfter

def runCase (u : Setup) (clock : Clock) (s : Subject) (c : MatrixCase) (m : Emitter) :
    Except Failure (MatrixRow × Emitter) := do
  let record ← (u.preload s c).execute u.files u.start
  let (entry, m) := record.logEntry m (m.reading clock) (some c.verdict)
  .ok (⟨c, record, c.accepts record⟩, m.emitEntry entry)

/-- Run cases one after the other; the emitter has what was logged until the end. -/
def runCases (u : Setup) (clock : Clock) :
    List (Subject × MatrixCase) → Emitter → Except Failure (List MatrixRow) × Emitter
  | [], m => (.ok [], m)
  | (s, c) :: rest, m =>
    match runCase u clock s c m with
    | .error failure => (.error failure, m)
    | .ok (row, m) =>
      let (rows, m) := runCases u clock rest m
      (rows.map (row :: ·), m)

def levelFor (s : MatrixSummary) : Level :=
  if s.unmet = 0 then .info else .error

def run (u : Setup) (clock : Clock) (m : Emitter) : Except Failure MatrixReport × Emitter :=
  let (_, m) := m.emit (m.reading clock) .info "matrix_start"
  match runCases u clock plan m with
  | (.error failure, m) => (.error failure, m)
  | (.ok rows, m) =>
    let summary := MatrixSummary.ofRows rows
    let (entry, m) := m.entry (m.reading clock) (levelFor summary) "matrix_done"
    let m := m.emitEntry (entry.withDetails (Json.toValue summary))
    (.ok ⟨u.library.display, rows, summary⟩, m)

end GrowthFault.Matrix
