import GrowthFault.Json.Schema.Text
import GrowthFault.Json.Schema.Value
import GrowthFault.Log.Entry
import GrowthFault.Text.Lines

/-!
# Validating logs

A line is read as a JSON value first, and its shape is checked: every defect of the shape is
found.  Only a line without such defects is read as an entry.  A file is validated line by line;
blank lines do not count.
-/

namespace GrowthFault.Log

inductive Defect where
  | notJson (reason : String)
  | notObject
  | missing (field : String)
  | invalidWord (field word : String)
  | traceId (id : String)
  /-- The record of a run in some mode does not name its subject. -/
  | unnamedSubject
  | undecodable (reason : Json.Message)
  deriving DecidableEq, Repr

def Defect.field : Defect → String
  | .notJson _ => "<json>"
  | .notObject => "<root>"
  | .missing field => field
  | .invalidWord field _ => field
  | .traceId _ => "trace_id"
  | .unnamedSubject => "subject"
  | .undecodable _ => "<deserialization>"

def Defect.message : Defect → String
  | .notJson reason => "invalid JSON: " ++ reason
  | .notObject => "expected JSON object"
  | .missing _ => "required field missing"
  | .invalidWord field word => "invalid " ++ field ++ ": '" ++ word ++ "'"
  | .traceId id =>
    "trace_id should follow <campaign>::<run_id>::<seq> format, got: '" ++ id ++ "'"
  | .unnamedSubject => "run records with a mode must name their subject"
  | .undecodable reason => "failed to deserialize: " ++ reason.text

def requiredFields : List String := ["timestamp", "trace_id", "level", "event"]

/-- The fields that hold one of some words, with the words. -/
def wordFields : List (String × List String) :=
  [("level", ["debug", "info", "warn", "error"]),
    ("outcome", ["pass", "fail", "skip", "error"]),
    ("subject", ["fixed", "buggy"]),
    ("mode", ["full", "oom_only"])]

def has (object : Json.Value) (field : String) : Bool :=
  (object.get? field).isSome

def textIn? (object : Json.Value) (field : String) : Option String :=
  (object.get? field).bind Json.Value.string?

def missingFields (object : Json.Value) : List Defect :=
  (requiredFields.filter fun field => !has object field).map .missing

def invalidWords (object : Json.Value) : List Defect :=
  wordFields.filterMap fun (field, words) =>
    match textIn? object field with
    | some word => if words.contains word then none else some (.invalidWord field word)
    | none => none

def threeParts (id : String) : Bool :=
  Text.countDoubled ':' id.toList == 2

/-- The trace id, if its shape is wrong. -/
def malformedTraceId (object : Json.Value) : List Defect :=
  match textIn? object "trace_id" with
  | some id => if threeParts id then [] else [.traceId id]
  | none => []

def namelessRun (object : Json.Value) : List Defect :=
  if has object "outcome" && has object "mode" && !has object "subject" then
    [.unnamedSubject]
  else []

def shapeDefects (object : Json.Value) : List Defect :=
  missingFields object ++ invalidWords object ++ malformedTraceId object ++ namelessRun object

def isObject : Json.Value → Bool
  | .object _ => true
  | _ => false

/-- The entry on a line, or what is wrong with the line. -/
def validateLine (line : String) : Except (List Defect) LogEntry :=
  match Json.parse line.toList with
  | .error fault =>
    .error [.notJson ((Json.Refusal.ofFault fault).text (Bytes.ofText line))]
  | .ok value =>
    let value := value.canonical
    if isObject value then
      match shapeDefects value with
      | [] =>
        match Json.ofValue LogEntry value with
        | .ok entry => .ok entry
        | .error reason => .error [.undecodable reason]
      | defects => .error defects
    else .error [.notObject]

/-- A defect with the number of its line, counted from one. -/
structure Finding where
  line : Nat
  defect : Defect
  deriving DecidableEq, Repr

def Finding.text (f : Finding) : String :=
  "line " ++ Decimal.text f.line ++ ": field '" ++ f.defect.field ++ "': " ++ f.defect.message

structure Survey where
  /-- The lines that are not blank. -/
  lines : Nat
  findings : List Finding
  deriving DecidableEq, Repr

def findingsIn (number : Nat) (line : List Char) : List Finding :=
  match validateLine (String.ofList line) with
  | .ok _ => []
  | .error defects => defects.map fun defect => ⟨number, defect⟩

/-- The lines of a text that are not blank, trimmed and with their numbers. -/
def numberedLines (content : String) : List (Nat × List Char) :=
  (((Text.lines content.toList).map Text.trim).zipIdx 1).filterMap fun (line, number) =>
    if line.isEmpty then none else some (number, line)

def validate (content : String) : Survey :=
  let lines := numberedLines content
  ⟨lines.length, lines.flatMap fun (number, line) => findingsIn number line⟩

end GrowthFault.Log
