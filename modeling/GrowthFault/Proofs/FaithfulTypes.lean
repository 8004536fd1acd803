import GrowthFault.Log.Artifact
import GrowthFault.Matrix.Report
import GrowthFault.Proofs.EmittedLog
import GrowthFault.Proofs.ReadRecords
import GrowthFault.Seam

/-!
# The written types are read back

Every type that is written and read is described by a schema, so one look at each schema is enough:
its names are told apart, it has no free-form values, and it does not nest too deep.  Entries of a
log have free-form details.  These are read back if they have no doubles, and are not null, which is
read as no details; what is read from a text is so from the start.
-/

namespace GrowthFault

open Json (Faithful Restored)

namespace LogEntry

variable {e : LogEntry}

theorem restored_of_details
    (hdetails : ∀ details, e.details = some details → details.Settled ∧ details.Plain 100) :
    Restored e :=
  Json.restored_of_plain wellNamed_schema
    (free_of_details fun details h => (hdetails details h).1)
    (free_of_details fun details h => (hdetails details h).2) (by decide)

/-- Details that were read from a text are in order, and are not null. -/
theorem settled_of_ofText {text : String} (hread : Json.ofText LogEntry text = .ok e) :
    ∀ details, e.details = some details → details.Settled := by
  obtain ⟨x, hx, rfl⟩ := map_eq_ok.1 hread
  obtain ⟨rest, hnode⟩ := Json.Schema.exists_of_ofChars hx
  have hguarded : (Json.Described.schema LogEntry).fields.guarded = true := by decide
  have hfree := Json.Fields.free_of_ofNode hguarded hnode
  obtain ⟨-, -, -, -, -, -, -, -, -, -, -, -, -, -, hdetails, -⟩ := hfree
  exact hdetails

end LogEntry

/-- The details of an entry are settled if they are kept as free-form values are, the members of
each object in order, and are not null. -/
theorem written_types_faithful :
    Faithful Subject ∧ Faithful Mode ∧ Faithful NormalOutcome ∧ Faithful OomOutcome ∧
    Faithful Transcript ∧ Faithful RunVerdict ∧ Faithful OomExpectation ∧ Faithful Level ∧
    Faithful Outcome ∧ Faithful ArtifactEntry ∧ Faithful ArtifactIndex ∧ Faithful MatrixCase ∧
    Faithful MatrixSummary ∧ Faithful SeamReport ∧ Faithful RunRecord ∧ Faithful MatrixReport ∧
    (∀ e : LogEntry,
      (∀ details, e.details = some details → details.Settled ∧ details.Plain 100) → Restored e) ∧
    ∀ (text : String) (e : LogEntry), Json.ofText LogEntry text = .ok e →
      (∀ details, e.details = some details → details.Plain 100) → Restored e := by
  have hreread (text : String) (e : LogEntry) (hread : Json.ofText LogEntry text = .ok e)
      (hplain : ∀ details, e.details = some details → details.Plain 100) : Restored e := by
    have hsettled := LogEntry.settled_of_ofText hread
    exact LogEntry.restored_of_details fun details h => ⟨hsettled details h, hplain details h⟩
  refine ⟨?_, ?_, ?_, ?_, ?_, ?_, ?_, ?_, ?_, ?_, ?_, ?_, ?_, ?_, ?_, ?_,
    fun e => LogEntry.restored_of_details, hreread⟩
  all_goals exact Json.faithful_of_restores (by decide)

/-- An entry with the greatest and the least numbers, control characters and nested details. -/
theorem written_types_faithful_hostile_entry :
    let e : LogEntry :=
      { timestamp := "\x00\x7f"
        traceId := ""
        level := .warn
        event := "\n\x22\x7d"
        exitCode := some (-2147483648)
        calls := some 18446744073709551615
        artifacts := some []
        details := some (.array [.object [("k", .null)], .bool true]) }
    Json.ofText LogEntry (Json.compact e) = .ok e ∧
      Json.ofText LogEntry (Json.pretty e) = .ok e := by
  intro e
  have hdetails : ∀ details, e.details = some details →
      details.Settled ∧ details.Plain 100 := by
    rintro _ ⟨⟩
    refine ⟨⟨rfl, nofun⟩, .array ?_, by decide⟩
    simp only [List.forall_mem_cons, List.not_mem_nil, false_imp_iff, implies_true, and_true]
    refine ⟨.object ?_, .bool⟩
    simpa using Json.Value.Whole.null
  obtain ⟨-, -, -, -, -, -, -, -, -, -, -, -, -, -, -, -, hentries, -⟩ := written_types_faithful
  exact ⟨(hentries e hdetails).compact, (hentries e hdetails).pretty⟩

end GrowthFault
