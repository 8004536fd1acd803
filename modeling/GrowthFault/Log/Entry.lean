import GrowthFault.Calendar
import GrowthFault.Json.Schema
import GrowthFault.Scenario.Basic
import GrowthFault.Subject.Basic

/-!
# Log entries

A log is a text with one entry a line, each a JSON object.  An entry names when and where it was
made, how grave it is and what happened; an entry about a checker run also tells what was run
and how it ended.
-/

namespace GrowthFault

inductive Level where
  | debug
  | info
  | warn
  | error
  deriving DecidableEq, Repr

instance : Json.Described Level where
  schema := .choice ["debug", "info", "warn", "error"]
  toCarrier
    | .debug => ⟨0, by decide⟩
    | .info => ⟨1, by decide⟩
    | .warn => ⟨2, by decide⟩
    | .error => ⟨3, by decide⟩
  ofCarrier i := match i.val with
    | 0 => .debug
    | 1 => .info
    | 2 => .warn
    | _ => .error
  ofCarrier_toCarrier a := by cases a <;> rfl

/-- How a run ended, measured by what was expected of it. -/
inductive Outcome where
  | pass
  | fail
  | skip
  | error
  deriving DecidableEq, Repr

instance : Json.Described Outcome where
  schema := .choice ["pass", "fail", "skip", "error"]
  toCarrier
    | .pass => ⟨0, by decide⟩
    | .fail => ⟨1, by decide⟩
    | .skip => ⟨2, by decide⟩
    | .error => ⟨3, by decide⟩
  ofCarrier i := match i.val with
    | 0 => .pass
    | 1 => .fail
    | 2 => .skip
    | _ => .error
  ofCarrier_toCarrier a := by cases a <;> rfl

structure LogEntry where
  timestamp : String
  traceId : String
  level : Level
  event : String
  campaign : Option String := none
  subject : Option Subject := none
  mode : Option Mode := none
  /-- The ordinal that the run was configured to fail. -/
  failAfter : Option UInt64 := none
  outcome : Option Outcome := none
  exitCode : Option Int32 := none
  /-- The signal that ended the run. -/
  signal : Option Int32 := none
  /-- The growth calls that the library counted in the run. -/
  calls : Option UInt64 := none
  durationMs : Option UInt64 := none
  artifacts : Option (List String) := none
  details : Option Json.Value := none
  deriving Repr

open Json Described in
instance : Described LogEntry where
  schema := .record "LogEntry"
    (.cons "timestamp" .required .string <|
      .cons "trace_id" .required .string <|
      .cons "level" .required (schema Level) <|
      .cons "event" .required .string <|
      .cons "campaign" .omittable .string <|
      .cons "subject" .omittable (schema Subject) <|
      .cons "mode" .omittable (schema Mode) <|
      .cons "fail_after" .omittable (.integer .word64) <|
      .cons "outcome" .omittable (schema Outcome) <|
      .cons "exit_code" .omittable (.integer .int32) <|
      .cons "signal" .omittable (.integer .int32) <|
      .cons "shim_calls" .omittable (.integer .word64) <|
      .cons "duration_ms" .omittable (.integer .word64) <|
      .cons "artifact_refs" .omittable (.list .string) <|
      .cons "details" .omittable .any .nil)
  toCarrier e := (e.timestamp, e.traceId, toCarrier e.level, e.event, e.campaign,
    e.subject.map toCarrier, e.mode.map toCarrier, e.failAfter, e.outcome.map toCarrier,
    e.exitCode, e.signal, e.calls, e.durationMs, e.artifacts, e.details, ())
  ofCarrier := fun (timestamp, traceId, level, event, campaign, subject, mode, failAfter,
    outcome, exitCode, signal, calls, durationMs, artifacts, details, ()) =>
    { timestamp, traceId, level := ofCarrier level, event, campaign
      subject := subject.map ofCarrier
      mode := mode.map ofCarrier
      failAfter
      outcome := outcome.map ofCarrier
      exitCode, signal, calls, durationMs, artifacts, details }
  ofCarrier_toCarrier e := by cases e; simp

namespace LogEntry

/-- An entry made at some time, about nothing yet. -/
def make (now : Instant) (traceId : String) (level : Level) (event : String) : LogEntry :=
  { timestamp := now.timestamp, traceId, level, event }

def withCampaign (e : LogEntry) (campaign : String) : LogEntry :=
  { e with campaign := some campaign }

def withRun (e : LogEntry) (subject : Subject) (mode : Mode) (failAfter : Option UInt64) :
    LogEntry :=
  { e with subject := some subject, mode := some mode, failAfter }

def withOutcome (e : LogEntry) (outcome : Outcome) : LogEntry :=
  { e with outcome := some outcome }

def withExit (e : LogEntry) (exitCode signal : Option Int32) : LogEntry :=
  { e with exitCode, signal }

def withCalls (e : LogEntry) (calls : Option UInt64) : LogEntry :=
  { e with calls }

def withDuration (e : LogEntry) (durationMs : UInt64) : LogEntry :=
  { e with durationMs := some durationMs }

def withArtifacts (e : LogEntry) (artifacts : List String) : LogEntry :=
  { e with artifacts := some artifacts }

/-- The entry with details; their objects lose their order. -/
def withDetails (e : LogEntry) (details : Json.Value) : LogEntry :=
  { e with details := some details.canonical }

def line (e : LogEntry) : String :=
  Json.compact e

end LogEntry

end GrowthFault
