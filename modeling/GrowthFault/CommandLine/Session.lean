import GrowthFault.Checker
import GrowthFault.CommandLine.Command
import GrowthFault.Log.Artifact
import GrowthFault.Log.Validation
import GrowthFault.Matrix.Run
import GrowthFault.Seam
import GrowthFault.Stress

/-!
# Command sessions

A session carries out one command: it writes to the console and to files, and stops at the first
complaint.  What was written before a complaint stays.
-/

namespace GrowthFault.CommandLine

/-- What the program finds: its own path, the variables, the clock and the name of the run. -/
structure Setting where
  program : Path
  «variables» : Variables
  clock : Clock
  runId : String

/-- What a session has written, and the files as they are. -/
structure Console where
  files : Files
  stdout : String := ""
  stderr : String := ""

inductive Stop where
  /-- What went wrong, in full. -/
  | complaint (text : String)
  /-- Memory was misused. -/
  | misuse
  /-- A list was to be larger than any block. -/
  | capacityOverflow
  deriving DecidableEq, Repr

def Stop.ofHindrance : Stress.Hindrance → Stop
  | .nothingToRun => .complaint (Failure.invalidArgument Stress.emptyText).inspect
  | .capacityOverflow => .capacityOverflow

abbrev Session := ExceptT Stop (StateM Console)

namespace Session

def print (text : String) : Session Unit :=
  modify fun c => { c with stdout := c.stdout ++ text }

def report (text : String) : Session Unit :=
  modify fun c => { c with stderr := c.stderr ++ text }

/-- Go on with a result, or stop with the failure. -/
def orFail {α : Type} : Except Failure α → Session α
  | .ok a => pure a
  | .error failure => throw (.complaint failure.inspect)

/-- Go on with a result, or stop with the fault of a file. -/
def orFault {α : Type} : Except FileFault α → Session α
  | .ok a => pure a
  | .error fault => throw (.complaint fault.inspect)

/-- Go on with a result, or stop with a failure for the fault of a file. -/
def orIo {α : Type} (r : Except FileFault α) : Session α :=
  orFail (r.mapError .io)

def complain {α : Type} (message : String) : Session α :=
  throw (.complaint (Text.quoted message))

def writeFile (path : Path) (text : String) : Session (Except FileFault Unit) := do
  let c ← get
  match c.files.write path (Bytes.ofText text) with
  | .ok files => do
    set { c with files }
    pure (.ok ())
  | .error fault => pure (.error fault)

/-- Empty the file for the log, if there is one. -/
def openLog (log : Option Path) : Session Unit := do
  match log with
  | some path => do
    let done ← writeFile path ""
    orFault done
  | none => pure ()

/-- Write what was logged into the file for the log, if there is one. -/
def closeLog (log : Option Path) (m : Emitter) : Session Unit := do
  match log with
  | some path => do
    let done ← writeFile path m.text
    orFault done
  | none => pure ()

end Session

open Session

def binaries (s : Setting) (library checker : Option Path) : Session (Path × Path) := do
  let c ← get
  let checker ← match checker with
    | some path => pure path
    | none => orFail (Preload.locateChecker c.files s.program)
  pure (library.getD (Preload.libraryBeside checker), checker)

def inspectCode : Option Int32 → String
  | none => "None"
  | some i => "Some(" ++ String.ofList (Decimal.signed i.toInt) ++ ")"

def runOnce (s : Setting) (o : RunOptions) : Session Unit := do
  let (library, checker) ← binaries s o.library o.checker
  openLog o.log
  let m : Emitter := { campaign := "run", runId := s.runId }
  let c ← get
  let p : Preload :=
    { library, checker, subject := o.subject, mode := modeFor o.oomOnly
      failAfter := o.failAfter, trace := o.trace }
  let record ← orFail (p.execute c.files (Checker.launcher c.files s.variables))
  let (entry, m) := record.logEntry m (m.reading s.clock) (some o.expected)
  closeLog o.log (m.emitEntry entry)
  print record.stdout
  report record.stderr
  if record.verdict = o.expected then
    report ("OK: " ++ o.subject.name ++ " ended with " ++ record.verdict.name ++ "\n")
  else
    complain ("run ended with " ++ record.verdict.name ++ " (exit " ++
      inspectCode record.exitCode ++ ", signal " ++ inspectCode record.signal ++
      "), expected " ++ o.expected.name)

/-- Enter the log and the report into an index, as far as they are files. -/
def indexArtifacts (s : Setting) (now : Instant) (o : MatrixOptions) (fs : Files) :
    Except FileFault ArtifactIndex := do
  let index := ArtifactIndex.make s.runId "matrix" now
  let index ← match o.log with
    | some path => index.addFile fs path "log"
    | none => .ok index
  match o.output with
    | some path => index.addFile fs path "report"
    | none => .ok index

/-- Write the report of a matrix, and the index if one is wanted. -/
def writeReport (s : Setting) (now : Instant) (o : MatrixOptions) (r : MatrixReport) :
    Session Unit := do
  match o.output with
  | some path => do
    let done ← writeFile path (Json.pretty r)
    orIo done
  | none => print (Json.pretty r ++ "\n")
  match o.artifactIndex with
  | some path => do
    let c ← get
    let index ← orIo (indexArtifacts s now o c.files)
    let done ← writeFile path (Json.pretty index)
    orIo done
  | none => pure ()

def runMatrix (s : Setting) (o : MatrixOptions) : Session Unit := do
  let (library, checker) ← binaries s o.library o.checker
  openLog o.log
  let m : Emitter := { campaign := "matrix", runId := s.runId }
  let c ← get
  let setup : Matrix.Setup :=
    { files := c.files, start := Checker.launcher c.files s.variables, library, checker }
  let (outcome, m) := Matrix.run setup s.clock m
  closeLog o.log m
  let r ← orFail outcome
  writeReport s (m.reading s.clock) o r
  let r ← orFail r.result
  report ("OK: " ++ Decimal.text r.summary.total.toNat ++ " matrix runs met expectations\n")

def subjectsFor (word : String) : Except Failure (List Subject) :=
  if word.toList.map Char.toLower = "both".toList then .ok Subject.all
  else match Subject.ofWord? word with
    | some s => .ok [s]
    | none => .error (.unknownSubject word)

def seamLine (r : SeamReport) : String :=
  r.subject.name ++ ": " ++ Decimal.text r.calls.toNat ++ " realloc call(s), " ++
    Decimal.text r.leakedBlocks.toNat ++ " leaked block(s), " ++
    Decimal.text r.leakedBytes.toNat ++ " leaked byte(s)\n"

def runSeam (o : SeamOptions) : Session Unit := do
  let subjects ← orFail (subjectsFor o.subject)
  let policy : Policy := (o.failAfter.map Policy.failAt).getD default
  match subjects.mapM fun s => Seam.run s policy (modeFor o.oomOnly) with
  | .error _ => throw .misuse
  | .ok reports => do
    print ((Json.Value.array (reports.map Json.toValue)).pretty ++ "\n")
    let unexpected := reports.countP fun r => !r.matchesSubject
    if unexpected = 0 then report (String.join (reports.map seamLine))
    else
      orFail (.error (.expectationsFailed (UInt64.ofNat unexpected)
        (UInt64.ofNat reports.length)))

def runStress (o : StressOptions) : Session Unit := do
  match Stress.run (.failAt o.failAfter) o.threads o.callsPerThread 0 with
  | .error hindrance => throw (.ofHindrance hindrance)
  | .ok r => do
    print (Json.pretty r ++ "\n")
    if r.passed then
      report ("OK: " ++ Decimal.text r.totalCalls.toNat ++ " calls across " ++
        Decimal.text r.threads.toNat ++ " threads in " ++ Decimal.text r.elapsedMs.toNat ++
        " ms\n")
    else orFail (.error (.expectationsFailed 1 1))

def runValidation (log : Path) : Session Unit := do
  let c ← get
  let content ← orFault (c.files.readText log)
  let survey := Log.validate content
  report (String.join (survey.findings.map fun f => f.text ++ "\n"))
  if survey.findings.isEmpty then
    report ("OK: " ++ Decimal.text survey.lines ++ " line(s) in " ++ log.display ++
      " are valid\n")
  else
    complain (Decimal.text survey.findings.length ++ " schema error(s) in " ++
      Decimal.text survey.lines ++ " line(s) of " ++ log.display)

def Command.carryOut (s : Setting) : Command → Session Unit
  | .run o => runOnce s o
  | .matrix o => runMatrix s o
  | .seam o => runSeam o
  | .stress o => runStress o
  | .validateLog log => runValidation log

/-- How a session ended, and what it left behind. -/
structure Ending where
  status : Status
  console : Console

/-- Carry out what the arguments ask for.  Arguments that are not in order end the program with
code 2, a complaint with code 1, and a list that is too large with code 101; what the runtime itself
says of the list is left out. -/
def respond (s : Setting) (arguments : List Bytes) (files : Files) : Ending :=
  match Command.parse arguments with
  | none => ⟨.exited 2, { files }⟩
  | some command =>
    match (command.carryOut s).run.run { files } with
    | (.ok (), console) => ⟨.exited 0, console⟩
    | (.error (.complaint text), console) =>
      ⟨.exited 1, { console with stderr := console.stderr ++ "Error: " ++ text ++ "\n" }⟩
    | (.error .misuse, console) => ⟨.killed segmentationFault, console⟩
    | (.error .capacityOverflow, console) => ⟨.exited 101, console⟩

end GrowthFault.CommandLine
