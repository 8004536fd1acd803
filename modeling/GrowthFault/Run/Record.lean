import GrowthFault.Interposer.Report
import GrowthFault.Log.Emitter
import GrowthFault.Run.Launch
import GrowthFault.Transcript.Basic

/-!
# Run records

A record keeps what was run, how it ended and what it printed, and can be entered into a log.
-/

namespace GrowthFault

structure RunRecord where
  subject : Subject
  mode : Mode
  failAfter : Option UInt64
  verdict : RunVerdict
  exitCode : Option Int32
  signal : Option Int32
  transcript : Transcript
  stdout : String
  stderr : String
  durationMs : UInt64
  deriving DecidableEq, Repr

open Json Described in
instance : Described RunRecord where
  schema := .record "RunRecord"
    (.cons "subject" .required (schema Subject) <|
      .cons "mode" .required (schema Mode) <|
      .cons "fail_after" .nullable (.integer .word64) <|
      .cons "verdict" .required (schema RunVerdict) <|
      .cons "exit_code" .nullable (.integer .int32) <|
      .cons "signal" .nullable (.integer .int32) <|
      .cons "transcript" .required (schema Transcript) <|
      .cons "stdout" .required .string <|
      .cons "stderr" .required .string <|
      .cons "duration_ms" .required (.integer .word64) .nil)
  toCarrier r := (toCarrier r.subject, toCarrier r.mode, r.failAfter, toCarrier r.verdict,
    r.exitCode, r.signal, toCarrier r.transcript, r.stdout, r.stderr, r.durationMs, ())
  ofCarrier := fun (subject, mode, failAfter, verdict, exitCode, signal, transcript, stdout,
    stderr, durationMs, ()) =>
    ⟨ofCarrier subject, ofCarrier mode, failAfter, ofCarrier verdict, exitCode, signal,
      ofCarrier transcript, stdout, stderr, durationMs⟩
  ofCarrier_toCarrier r := by cases r; simp

namespace RunRecord

def ofOutput (p : Preload) (o : ProcessOutput) : RunRecord :=
  let stdout := o.stdout.lossyText
  { subject := p.subject
    mode := p.mode
    failAfter := p.failAfter
    verdict := .classify o.status
    exitCode := o.status.code?
    signal := o.status.signal?
    transcript := .parse stdout
    stdout
    stderr := o.stderr.lossyText
    durationMs := o.durationMs }

def reportStart : String := "failrealloc: injected realloc failure"

def reports (r : RunRecord) : Nat :=
  (Text.lines r.stderr.toList).countP fun line => reportStart.toList.isPrefixOf line

/-- Whether a run ended as expected; without an expectation it should have passed. -/
def outcome (r : RunRecord) (expected : Option RunVerdict) : Outcome :=
  if r.verdict = expected.getD .passed then .pass else .fail

def levelFor : Outcome → Level
  | .pass => .info
  | _ => .error

def details (r : RunRecord) (expected : Option RunVerdict) : Json.Value :=
  .object
    [("verdict", Json.toValue r.verdict),
      ("expected", Json.Value.optional Json.toValue expected),
      ("oom_injected", .bool r.transcript.oomInjected),
      ("oom_inactive", .bool r.transcript.oomInactive),
      ("stderr", .string r.stderr)]

def logEntry (r : RunRecord) (m : Emitter) (now : Instant) (expected : Option RunVerdict) :
    LogEntry × Emitter :=
  let outcome := r.outcome expected
  let (entry, m) := m.entry now (levelFor outcome) "checker_run"
  (entry.withRun r.subject r.mode r.failAfter
    |>.withOutcome outcome
    |>.withExit r.exitCode r.signal
    |>.withCalls r.transcript.calls
    |>.withDuration r.durationMs
    |>.withDetails (r.details expected), m)

end RunRecord

end GrowthFault
