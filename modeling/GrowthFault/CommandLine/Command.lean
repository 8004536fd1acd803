import GrowthFault.CommandLine.Options
import GrowthFault.Files.Path
import GrowthFault.Run.Status
import GrowthFault.Scenario.Basic
import GrowthFault.Subject.Basic

/-!
# Commands

The harness has five commands: one checker run, the matrix, the scenarios inside the process, a
stress run, and the validation of a log.
-/

namespace GrowthFault.CommandLine

structure RunOptions where
  library : Option Path
  checker : Option Path
  subject : Subject
  failAfter : Option UInt64
  oomOnly : Bool
  trace : Bool
  expected : RunVerdict
  log : Option Path
  deriving DecidableEq, Repr

structure MatrixOptions where
  library : Option Path
  checker : Option Path
  log : Option Path
  /-- Where the report goes. -/
  output : Option Path
  artifactIndex : Option Path
  deriving DecidableEq, Repr

def MatrixOptions.outputs (o : MatrixOptions) : List Path :=
  o.log.toList ++ o.output.toList ++ o.artifactIndex.toList

structure SeamOptions where
  /-- A subject, or both. -/
  subject : String
  failAfter : Option UInt64
  oomOnly : Bool
  deriving DecidableEq, Repr

structure StressOptions where
  threads : UInt64
  callsPerThread : UInt64
  failAfter : UInt64
  deriving DecidableEq, Repr

inductive Command where
  | run (o : RunOptions)
  | matrix (o : MatrixOptions)
  | seam (o : SeamOptions)
  | stress (o : StressOptions)
  | validateLog (log : Path)
  deriving DecidableEq, Repr

def readSubject (bytes : Bytes) : Option Subject := do
  let text ← bytes.text?
  Subject.ofWord? text

def readExpected (bytes : Bytes) : Option RunVerdict :=
  if bytes = Bytes.ofText "passed" then some .passed
  else if bytes = Bytes.ofText "contract-violation" then some .contractViolation
  else none

def modeFor (oomOnly : Bool) : Mode :=
  if oomOnly then .oomOnly else .full

namespace Command

def parseRun (arguments : List Bytes) : Option Command := do
  let given ← options
    [.valued "shim", .valued "checker", .valued "subject", .valued "fail-after",
      .flag "oom-only", .flag "trace", .valued "expect", .valued "log"] arguments
  let library ← optional readPath given "shim"
  let checker ← optional readPath given "checker"
  let subject ← required readSubject given "subject"
  let failAfter ← optional readNumber given "fail-after"
  let expected ← defaulted .passed readExpected given "expect"
  let log ← optional readPath given "log"
  some (.run
    { library, checker, subject, failAfter
      oomOnly := isGiven given "oom-only"
      trace := isGiven given "trace"
      expected, log })

def parseMatrix (arguments : List Bytes) : Option Command := do
  let given ← options
    [.valued "shim", .valued "checker", .valued "log", .valued "output",
      .valued "artifact-index"] arguments
  let library ← optional readPath given "shim"
  let checker ← optional readPath given "checker"
  let log ← optional readPath given "log"
  let output ← optional readPath given "output"
  let artifactIndex ← optional readPath given "artifact-index"
  some (.matrix { library, checker, log, output, artifactIndex })

def parseSeam (arguments : List Bytes) : Option Command := do
  let given ← options [.valued "subject", .valued "fail-after", .flag "oom-only"] arguments
  let subject ← defaulted "both" Bytes.text? given "subject"
  let failAfter ← optional readNumber given "fail-after"
  some (.seam { subject, failAfter, oomOnly := isGiven given "oom-only" })

def parseStress (arguments : List Bytes) : Option Command := do
  let given ← options [.valued "threads", .valued "calls", .valued "fail-after"] arguments
  let threads ← defaulted 8 readNumber given "threads"
  let callsPerThread ← defaulted 1000 readNumber given "calls"
  let failAfter ← defaulted 2 readNumber given "fail-after"
  some (.stress { threads, callsPerThread, failAfter })

def parseValidateLog (arguments : List Bytes) : Option Command := do
  let given ← options [.valued "log"] arguments
  let log ← required readPath given "log"
  some (.validateLog log)

/-- What the arguments ask for, if they are in order. -/
def parse : List Bytes → Option Command
  | [] => none
  | word :: arguments =>
    if word = Bytes.ofText "run" then parseRun arguments
    else if word = Bytes.ofText "matrix" then parseMatrix arguments
    else if word = Bytes.ofText "seam" then parseSeam arguments
    else if word = Bytes.ofText "stress" then parseStress arguments
    else if word = Bytes.ofText "validate-log" then parseValidateLog arguments
    else none

def inputs : Command → List Path
  | .run o => o.library.toList ++ o.checker.toList ++ o.log.toList
  | .matrix o => o.library.toList ++ o.checker.toList ++ o.outputs
  | .validateLog log => [log]
  | .seam _ | .stress _ => []

def outputs : Command → List Path
  | .run o => o.log.toList
  | .matrix o => o.outputs
  | .validateLog _ | .seam _ | .stress _ => []

end Command

end GrowthFault.CommandLine
