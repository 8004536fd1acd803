import GrowthFault.Proofs.AcceptedLines
import GrowthFault.Proofs.ReaderAgreement

/-!
# Decoded lines

An entry can be decoded from a line without any checks of the line's shape.  Decoding finds
what the checks look for, but for two rules that are not about the entry's type: how a trace id is
made up, and that the record of a run names its subject.  So an accepted line is decoded to the same
entry, and only these two rules reject a line that can be decoded.
-/

namespace GrowthFault.Log

open Json (Value)

variable {line : String} {e : LogEntry} {members : List (String × Value)}

/-! ## What decoding finds -/

section SlotRead

variable {α : Type} {name word : String} {read : Value → Except Json.Message α} {a : α}

theorem has_of_required (hslot : Json.SlotRead name read .required a (members.lookup name)) :
    has (.object members) name = true := by
  obtain ⟨v, hfound, -⟩ := hslot.exists_of_required
  rw [has, Value.get?, hfound]
  rfl

theorem lookup_of_textIn (htext : textIn? (.object members) name = some word) :
    members.lookup name = some (.string word) := by
  obtain ⟨v, hfound, hv⟩ := Option.bind_eq_some_iff.1 htext
  cases v with
  | string text =>
      cases hv
      exact hfound
  | null | bool | number | array | object => cases hv

/-- A word that was read is one of the names. -/
theorem contains_of_slotRead {names : List String} {presence : Json.Presence}
    {x : presence.Slot (Fin names.length)}
    (hslot : Json.SlotRead name (Json.Schema.choice names).ofValue presence x (members.lookup name))
    (htext : textIn? (.object members) name = some word) : names.contains word = true := by
  have hmem {i : Fin names.length} (hread : Json.readChoice names word = .ok i) :
      names.contains word = true := by
    rw [List.contains_iff_mem, ← Json.get_of_readChoice hread]
    exact List.get_mem names i
  rw [lookup_of_textIn htext] at hslot
  cases presence with
  | required => exact hmem hslot
  | nullable | omittable =>
      obtain ⟨i, hread, -⟩ := map_eq_ok.1 hslot
      exact hmem hread

end SlotRead

/-- The required fields are there, and every word is one of those that its field may have. -/
theorem shapeDefects_of_ofValue (hread : Json.ofValue LogEntry (.object members) = .ok e) :
    shapeDefects (.object members) =
      malformedTraceId (.object members) ++ namelessRun (.object members) := by
  obtain ⟨x, hx, rfl⟩ := map_eq_ok.1 hread
  have hnames : (Json.Described.schema LogEntry).fields.names.Nodup := by decide
  obtain ⟨htimestamp, hid, hlevel, hevent, -, hsubject, hmode, -, houtcome, -⟩ :=
    Json.Schema.read_of_ofValue hnames hx
  have hmissing : missingFields (.object members) = [] := by
    refine missingFields_eq_nil ?_
    simp [requiredFields, has_of_required htimestamp, has_of_required hid, has_of_required hlevel,
      has_of_required hevent]
  have hwords : invalidWords (.object members) = [] := by
    refine invalidWords_eq_nil ?_
    simp only [wordFields, List.forall_mem_cons, List.not_mem_nil, false_imp_iff, implies_true,
      and_true]
    exact ⟨fun _ => contains_of_slotRead hlevel, fun _ => contains_of_slotRead houtcome,
      fun _ => contains_of_slotRead hsubject, fun _ => contains_of_slotRead hmode⟩
  rw [shapeDefects, hmissing, hwords]
  rfl

/-! ## Accepting and decoding -/

/-- A line whose object is in order but for these defects. -/
theorem validateLine_of_ofValue (hparse : Json.parse line.toList = .ok (.object members))
    (hread : Json.ofValue LogEntry (.object members) = .ok e) :
    validateLine line =
      match malformedTraceId (.object members) ++ namelessRun (.object members) with
      | [] => .ok e
      | defects => .error defects := by
  have hobject : isObject (.object members) = true := rfl
  have hordered := (Json.parse_eq_ok hparse).1
  have hshape := shapeDefects_of_ofValue hread
  cases hdefects : malformedTraceId (.object members) ++ namelessRun (.object members) with
  | nil =>
      rw [hdefects] at hshape
      simp only [validateLine, hparse, hordered, hobject, if_true, hshape, hread]
  | cons defect defects =>
      rw [hdefects] at hshape
      simp only [validateLine, hparse, hordered, hobject, if_true, hshape]

theorem of_mem_malformedTraceId (h : ReadFrom members e) {defect : Defect}
    (hdefect : defect ∈ malformedTraceId (.object members)) :
    defect = .traceId e.traceId ∧ threeParts e.traceId = false := by
  rw [h.malformedTraceId] at hdefect
  split at hdefect
  next => cases hdefect
  next hid => exact ⟨List.mem_singleton.1 hdefect, Bool.eq_false_iff.2 hid⟩

theorem of_mem_namelessRun {defect : Defect} (hdefect : defect ∈ namelessRun (.object members)) :
    defect = .unnamedSubject ∧ members.lookup "subject" = none := by
  rw [namelessRun] at hdefect
  split at hdefect
  next hrun =>
    simp only [has, Value.get?, Bool.and_eq_true, Bool.not_eq_true', Option.isSome_eq_false_iff,
      Option.isNone_iff_eq_none] at hrun
    exact ⟨List.mem_singleton.1 hdefect, hrun.2⟩
  next => cases hdefect

/-- The checks of a line and its decoding agree where no key comes twice: an accepted line is
decoded to the same entry, and an object that is decoded is only rejected for the shape of its trace
id, or because it is the record of a run and has no member for the subject. -/
theorem validateLine_agrees (hkeys : Json.keysApart line.toList = true) :
    (∀ e, validateLine line = .ok e → Json.ofText LogEntry line = .ok e) ∧
      ∀ e members defects, Json.ofText LogEntry line = .ok e →
        Json.parse line.toList = .ok (.object members) → validateLine line = .error defects →
          defects ≠ [] ∧ ∀ defect ∈ defects,
            defect = .traceId e.traceId ∧ threeParts e.traceId = false ∨
              defect = .unnamedSubject ∧ members.lookup "subject" = none := by
  have hsame {members : List (String × Value)}
      (hparse : Json.parse line.toList = .ok (.object members)) :
      SameResult (Json.ofText LogEntry line) (Json.ofValue LogEntry (.object members)) :=
    Json.sameResult_ofText LogEntry.wellNamed_schema hkeys hparse
  constructor
  · intro e haccepted
    obtain ⟨members, hparse, -, hread⟩ := exists_of_validateLine haccepted
    exact (hsame hparse e).2 hread
  · intro e members defects hdecoded hparse hrejected
    have hread := (hsame hparse e).1 hdecoded
    rw [validateLine_of_ofValue hparse hread] at hrejected
    split at hrejected
    next => cases hrejected
    next hdefects =>
      cases hrejected
      refine ⟨hdefects, fun defect hdefect => ?_⟩
      rcases List.mem_append.1 hdefect with hid | hrun
      · exact .inl (of_mem_malformedTraceId (readFrom_of_ofValue hread) hid)
      · exact .inr (of_mem_namelessRun hrun)

/-- The level as the only key of an object, and nested details. -/
def keyedLevelLine : String :=
  "\x7b\"details\":\x7b\"k\":[\x7b\"b\":1,\"a\":null\x7d]\x7d,\"level\":\x7b\"warn\":null\x7d," ++
    "\"timestamp\":\"t\",\"trace_id\":\"a::b::c\",\"event\":\"x\",\"extra\":\x7b\x7d\x7d"

/-- The record of a full run that passed, without its subject and with two parts in its trace id. -/
def unnamedRunLine : String :=
  "\x7b\"timestamp\":\"t\",\"trace_id\":\"a::b\",\"level\":\"info\",\"event\":\"x\"," ++
    "\"outcome\":\"pass\",\"mode\":\"full\"\x7d"

/-- One line is accepted and decoded, the other one is decoded only. -/
theorem validateLine_agrees_keyed_level :
    Json.keysApart keyedLevelLine.toList = true ∧ Json.keysApart unnamedRunLine.toList = true ∧
      (∃ e, validateLine keyedLevelLine = .ok e ∧ Json.ofText LogEntry keyedLevelLine = .ok e) ∧
      ∃ e members defects, Json.ofText LogEntry unnamedRunLine = .ok e ∧
        Json.parse unnamedRunLine.toList = .ok (.object members) ∧
        validateLine unnamedRunLine = .error defects ∧ defects ≠ [] ∧ ∀ defect ∈ defects,
          defect = .traceId e.traceId ∧ threeParts e.traceId = false ∨
            defect = .unnamedSubject ∧ members.lookup "subject" = none := by
  have hkeyed : Json.keysApart keyedLevelLine.toList = true := by decide +kernel
  have hunnamed : Json.keysApart unnamedRunLine.toList = true := by decide +kernel
  obtain ⟨entry, haccepted⟩ : ∃ e, validateLine keyedLevelLine = .ok e :=
    exists_eq_ok (by decide +kernel)
  obtain ⟨e, hdecoded⟩ : ∃ e, Json.ofText LogEntry unnamedRunLine = .ok e :=
    exists_eq_ok (by decide +kernel)
  obtain ⟨defects, hrejected⟩ : ∃ defects, validateLine unnamedRunLine = .error defects :=
    exists_eq_error (by decide +kernel)
  have hobject : (Json.parse unnamedRunLine.toList).toOption.any isObject = true := by
    decide +kernel
  obtain ⟨members, hparse⟩ :
      ∃ members, Json.parse unnamedRunLine.toList = .ok (.object members) := by
    cases hvalue : Json.parse unnamedRunLine.toList with
    | error fault =>
        rw [hvalue] at hobject
        cases hobject
    | ok v =>
        rw [hvalue] at hobject
        cases v with
        | object members => exact ⟨members, rfl⟩
        | null | bool | number | string | array => cases hobject
  obtain ⟨hsome, hwhy⟩ := (validateLine_agrees hunnamed).2 e members defects hdecoded hparse
    hrejected
  exact ⟨hkeyed, hunnamed, ⟨entry, haccepted, (validateLine_agrees hkeyed).1 entry haccepted⟩,
    e, members, defects, hdecoded, hparse, hrejected, hsome, hwhy⟩

end GrowthFault.Log
