import GrowthFault.Failure
import GrowthFault.Matrix.Case

/-!
# Matrix reports

A report has a row for each run, and counts the rows that met their case.
-/

namespace GrowthFault

/-- A run, its case, and whether it met the case. -/
structure MatrixRow where
  case : MatrixCase
  record : RunRecord
  met : Bool
  deriving DecidableEq, Repr

open Json Described in
instance : Described MatrixRow where
  schema := .record "MatrixRow"
    (.cons "case" .required (schema MatrixCase) <|
      .cons "record" .required (schema RunRecord) <|
      .cons "met" .required .bool .nil)
  toCarrier r := (toCarrier r.case, toCarrier r.record, r.met, ())
  ofCarrier := fun (case, record, met, ()) => ⟨ofCarrier case, ofCarrier record, met⟩
  ofCarrier_toCarrier r := by cases r; simp

structure MatrixSummary where
  total : UInt64
  met : UInt64
  unmet : UInt64
  deriving DecidableEq, Repr

open Json Described in
instance : Described MatrixSummary where
  schema := .record "MatrixSummary"
    (.cons "total" .required (.integer .size) <|
      .cons "met" .required (.integer .size) <|
      .cons "unmet" .required (.integer .size) .nil)
  toCarrier s := (s.total, s.met, s.unmet, ())
  ofCarrier := fun (total, met, unmet, ()) => ⟨total, met, unmet⟩
  ofCarrier_toCarrier _ := rfl

def MatrixSummary.ofRows (rows : List MatrixRow) : MatrixSummary :=
  let met := rows.countP MatrixRow.met
  ⟨UInt64.ofNat rows.length, UInt64.ofNat met, UInt64.ofNat (rows.length - met)⟩

structure MatrixReport where
  /-- The library, as a text. -/
  library : String
  rows : List MatrixRow
  summary : MatrixSummary
  deriving DecidableEq, Repr

open Json Described in
instance : Described MatrixReport where
  schema := .record "MatrixReport"
    (.cons "shim" .required .string <|
      .cons "rows" .required (.list (schema MatrixRow)) <|
      .cons "summary" .required (schema MatrixSummary) .nil)
  toCarrier r := (r.library, r.rows.map toCarrier, toCarrier r.summary, ())
  ofCarrier := fun (library, rows, summary, ()) =>
    ⟨library, rows.map ofCarrier, ofCarrier summary⟩
  ofCarrier_toCarrier r := by cases r; simp

namespace MatrixReport

def allMet (r : MatrixReport) : Bool :=
  r.summary.unmet == 0

/-- The report, or the failure if a row has not met its case. -/
def result (r : MatrixReport) : Except Failure MatrixReport :=
  if r.allMet then .ok r else .error (.expectationsFailed r.summary.unmet r.summary.total)

end MatrixReport

end GrowthFault
