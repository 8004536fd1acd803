import GrowthFault.Proofs.EmittedLog
import GrowthFault.Proofs.ReadRecords

/-!
# Accepted lines

An accepted line is an object whose shape has no defects, and the entry is read from its members.
Null is read as an empty field, and an empty field is left out where the entry is written anew.
The checks of the shape only ask whether a member is there; so the one entry that is written on a
line which is not accepted is the record of a run whose subject is null.
-/

namespace GrowthFault.Log

open Json (Value toValue)

variable {line : String} {e : LogEntry} {members : List (String × Value)}

/-- An accepted line has an object that is in order, and an entry was read from it. -/
theorem exists_of_validateLine (haccepted : validateLine line = .ok e) :
    ∃ members, Json.parse line.toList = .ok (.object members) ∧
      shapeDefects (.object members) = [] ∧ Json.ofValue LogEntry (.object members) = .ok e := by
  rw [validateLine] at haccepted
  split at haccepted
  next => cases haccepted
  next value hparse =>
    rw [(Json.parse_eq_ok hparse).1] at haccepted
    cases value with
    | object members =>
        refine ⟨members, hparse, ?_⟩
        have hobject : isObject (.object members) = true := rfl
        simp only [hobject, if_true] at haccepted
        split at haccepted
        next hshape =>
          split at haccepted
          next entry hread =>
            cases haccepted
            exact ⟨hshape, hread⟩
          next => cases haccepted
        next => cases haccepted
    | null | bool | number | string | array => cases haccepted

section SlotRead

variable {α β : Type} {name : String} {read : Value → Except Json.Message α} {a : Option α}
  {f : α → β}

/-- A field that is not empty has a member. -/
theorem has_of_slotRead (hslot : Json.SlotRead name read .omittable a (members.lookup name))
    (ha : (a.map f).isSome) : has (.object members) name = true := by
  rw [Option.isSome_map] at ha
  obtain ⟨a, rfl⟩ := Option.isSome_iff_exists.1 ha
  obtain ⟨v, hfound, -⟩ := hslot.exists_of_some
  rw [has, Value.get?, hfound]
  rfl

/-- A field that has a member is empty if the member is null. -/
theorem eq_none_iff_of_slotRead
    (hslot : Json.SlotRead name read .omittable a (members.lookup name))
    (hhas : has (.object members) name = true) :
    a.map f = none ↔ members.lookup name = some .null := by
  obtain ⟨v, hfound⟩ := Option.isSome_iff_exists.1 hhas
  have hfound : members.lookup name = some v := hfound
  cases a with
  | none => simp [hfound, hslot.eq_null hfound]
  | some a =>
      obtain ⟨w, hw, hpresent, -⟩ := hslot.exists_of_some
      simp [hw, hpresent]

end SlotRead

/-- What an entry was read from. -/
structure ReadFrom (members : List (String × Value)) (e : LogEntry) : Prop where
  traceId : members.lookup "trace_id" = some (.string e.traceId)
  outcome : e.outcome.isSome → has (.object members) "outcome" = true
  mode : e.mode.isSome → has (.object members) "mode" = true
  subject : has (.object members) "subject" = true →
    (e.subject = none ↔ members.lookup "subject" = some .null)
  details : ∀ details, e.details = some details →
    ∃ value, members.lookup "details" = some value ∧ value ≠ .null ∧ details = value.canonical

theorem readFrom_of_ofValue (hread : Json.ofValue LogEntry (.object members) = .ok e) :
    ReadFrom members e := by
  obtain ⟨x, hx, rfl⟩ := map_eq_ok.1 hread
  have hnames : (Json.Described.schema LogEntry).fields.names.Nodup := by decide
  have hfields := Json.Schema.read_of_ofValue hnames hx
  obtain ⟨-, hid, -, -, -, hsubject, hmode, -, houtcome, -, -, -, -, -, hdetails, -⟩ := hfields
  refine ⟨?_, ?_, ?_, ?_, ?_⟩
  · obtain ⟨v, hfound, htext⟩ := hid.exists_of_required
    cases v with
    | string text =>
        cases htext
        exact hfound
    | null | bool | number | array | object => cases htext
  · exact has_of_slotRead houtcome
  · exact has_of_slotRead hmode
  · exact eq_none_iff_of_slotRead hsubject
  · intro details hsome
    have hslot : Json.SlotRead "details" Json.Schema.any.ofValue .omittable (some details)
        (members.lookup "details") := hsome ▸ hdetails
    obtain ⟨v, hfound, hpresent, ⟨⟩⟩ := hslot.exists_of_some
    exact ⟨v, hfound, hpresent, rfl⟩

theorem ReadFrom.settled (h : ReadFrom members e) :
    ∀ details, e.details = some details → details.Settled := by
  intro details hdetails
  obtain ⟨value, -, hpresent, rfl⟩ := h.details details hdetails
  exact ⟨value.canonical_canonical, mt Value.canonical_eq_null_iff.1 hpresent⟩

/-- An entry is not nested deeper than the line that it was read from, but for its artifacts. -/
theorem ReadFrom.plain_toValue (h : ReadFrom members e)
    (hdepth : (Value.object members).depth < Json.depthLimit)
    (hwhole : ∀ details, e.details = some details → details.Whole) : (toValue e).Plain 127 := by
  have hmembers : ∀ m ∈ members, m.2.depth ≤ 126 :=
    Value.depth_object_le_iff.1 (Nat.le_of_lt_succ hdepth)
  have hdetails : ∀ details, e.details = some details → details.Plain 126 := by
    intro details hdetails
    obtain ⟨value, hfound, -, rfl⟩ := h.details details hdetails
    exact ⟨hwhole _ hdetails,
      Value.depth_canonical_le (hmembers _ (Json.mem_of_lookup hfound))⟩
  exact (Json.Schema.plain_write_over (LogEntry.free_of_details hdetails)).mono (by decide)

/-- The trace id that is checked is the one that was read. -/
theorem ReadFrom.malformedTraceId (h : ReadFrom members e) :
    malformedTraceId (.object members) =
      if threeParts e.traceId then [] else [.traceId e.traceId] := by
  have htext : textIn? (.object members) "trace_id" = some e.traceId := by
    rw [textIn?, Value.get?, h.traceId]
    rfl
  rw [Log.malformedTraceId, htext]

theorem ReadFrom.threeParts (h : ReadFrom members e)
    (hshape : Log.malformedTraceId (.object members) = []) : threeParts e.traceId = true := by
  rw [h.malformedTraceId] at hshape
  split at hshape
  next hid => exact hid
  next => cases hshape

/-- The record of a run in some mode has a member for its subject, which may be null. -/
theorem ReadFrom.has_subject (h : ReadFrom members e) (hshape : namelessRun (.object members) = [])
    (houtcome : e.outcome.isSome) (hmode : e.mode.isSome) :
    has (.object members) "subject" = true := by
  rw [namelessRun, h.outcome houtcome, h.mode hmode] at hshape
  split at hshape
  next => cases hshape
  next hsubject => simpa using hsubject

/-- The line of a run record in some mode without a subject is rejected for that alone. -/
theorem validateLine_line_of_unnamed (hwhole : (toValue e).Whole)
    (hdepth : (toValue e).depth < Json.depthLimit) (hid : threeParts e.traceId = true)
    (houtcome : e.outcome.isSome) (hmode : e.mode.isSome) (hsubject : e.subject = none) :
    validateLine e.line = .error [.unnamedSubject] := by
  have hshows := shows_canonical e
  have hnameless : namelessRun (toValue e).canonical = [.unnamedSubject] := by
    simp [namelessRun, has, hshows.outcome, hshows.mode, hshows.subject, houtcome, hmode, hsubject]
  have hshape : shapeDefects (toValue e).canonical = [.unnamedSubject] := by
    rw [shapeDefects, hshows.missingFields, hshows.invalidWords, hshows.malformedTraceId hid,
      hnameless]
    rfl
  have hobject : isObject (toValue e).canonical = true := rfl
  simp only [validateLine, parse_line hwhole hdepth, Value.canonical_canonical, hobject, hshape,
    if_true]

/-- The entry of an accepted line names its subject if it tells the outcome of a run in some mode,
and its own line is accepted with the same entry, unless the subject of such a run is null on the
line.  Then the entry's own line is rejected. -/
theorem accepted_again_iff (haccepted : validateLine line = .ok e)
    (hwhole : ∀ details, e.details = some details → details.Whole) :
    ∃ members, Json.parse line.toList = .ok (.object members) ∧
      (((e.outcome.isSome → e.mode.isSome → e.subject.isSome) ∧ validateLine e.line = .ok e) ↔
        ¬ (e.outcome.isSome ∧ e.mode.isSome ∧ members.lookup "subject" = some .null)) ∧
      (e.outcome.isSome → e.mode.isSome → members.lookup "subject" = some .null →
        validateLine e.line = .error [.unnamedSubject]) := by
  obtain ⟨members, hparse, hshape, hread⟩ := exists_of_validateLine haccepted
  have hfrom := readFrom_of_ofValue hread
  have hplain := hfrom.plain_toValue (Json.parse_eq_ok hparse).2 hwhole
  have hdepth : (toValue e).depth < Json.depthLimit := Nat.lt_succ_of_le hplain.shallow
  obtain ⟨⟨-, hmalformed⟩, hnameless⟩ : (_ ∧ malformedTraceId (.object members) = []) ∧
      namelessRun (.object members) = [] := by
    rw [shapeDefects, List.append_eq_nil_iff, List.append_eq_nil_iff] at hshape
    exact hshape
  have hid := hfrom.threeParts hmalformed
  have hnull (houtcome : e.outcome.isSome) (hmode : e.mode.isSome) :
      e.subject = none ↔ members.lookup "subject" = some .null :=
    hfrom.subject (hfrom.has_subject hnameless houtcome hmode)
  refine ⟨members, hparse, ⟨?_, ?_⟩, ?_⟩
  · rintro ⟨hnamed, -⟩ ⟨houtcome, hmode, hsubject⟩
    have hnone := (hnull houtcome hmode).2 hsubject
    rw [hnone] at hnamed
    cases hnamed houtcome hmode
  · intro hother
    have hnamed (houtcome : e.outcome.isSome) (hmode : e.mode.isSome) : e.subject.isSome := by
      rw [← Option.ne_none_iff_isSome]
      exact fun hnone => hother ⟨houtcome, hmode, (hnull houtcome hmode).1 hnone⟩
    exact ⟨hnamed, validateLine_line hplain.whole hdepth hfrom.settled hid hnamed⟩
  · intro houtcome hmode hsubject
    exact validateLine_line_of_unnamed hplain.whole hdepth hid houtcome hmode
      ((hnull houtcome hmode).2 hsubject)

/-- The record of a full run that passed, with null for its subject. -/
def nullSubjectLine : String :=
  "\x7b\"timestamp\":\"t\",\"trace_id\":\"a::b::c\",\"level\":\"info\",\"event\":\"x\"," ++
    "\"outcome\":\"pass\",\"mode\":\"full\",\"subject\":null\x7d"

theorem exists_validateLine_nullSubjectLine :
    ∃ e, validateLine nullSubjectLine = .ok e ∧ e.outcome.isSome ∧ e.mode.isSome ∧
      e.subject = none ∧ ∀ details, e.details = some details → details.Whole := by
  have hchecked : (validateLine nullSubjectLine).toOption.any (fun e =>
      e.outcome.isSome && e.mode.isSome && e.subject.isNone && e.details.isNone) = true := by
    decide +kernel
  cases haccepted : validateLine nullSubjectLine with
  | error defects =>
      rw [haccepted] at hchecked
      cases hchecked
  | ok e =>
      rw [haccepted] at hchecked
      simp only [Except.toOption, Option.any_some, Bool.and_eq_true, Option.isNone_iff_eq_none]
        at hchecked
      obtain ⟨⟨⟨houtcome, hmode⟩, hsubject⟩, hdetails⟩ := hchecked
      exact ⟨e, rfl, houtcome, hmode, hsubject, hdetails ▸ nofun⟩

theorem accepted_again_iff_null_subject :
    ∃ e members, validateLine nullSubjectLine = .ok e ∧
      Json.parse nullSubjectLine.toList = .ok (.object members) ∧
      members.lookup "subject" = some .null ∧ validateLine e.line = .error [.unnamedSubject] := by
  obtain ⟨e, haccepted, houtcome, hmode, hsubject, hwhole⟩ := exists_validateLine_nullSubjectLine
  obtain ⟨members, hparse, hagain, hrejected⟩ := accepted_again_iff haccepted hwhole
  have hnull : members.lookup "subject" = some .null := by
    by_contra hother
    obtain ⟨hnamed, -⟩ := hagain.2 fun h => hother h.2.2
    rw [hsubject] at hnamed
    cases hnamed houtcome hmode
  exact ⟨e, members, haccepted, hparse, hnull, hrejected houtcome hmode hnull⟩

/-- An accepted line may hold the record of a run without a subject. -/
theorem null_subject_not_accepted_again :
    ¬ ∀ line e, validateLine line = .ok e →
      (∀ details, e.details = some details → details.Whole) →
        (e.outcome.isSome → e.mode.isSome → e.subject.isSome) ∧ validateLine e.line = .ok e := by
  intro halways
  obtain ⟨e, haccepted, houtcome, hmode, hsubject, hwhole⟩ := exists_validateLine_nullSubjectLine
  obtain ⟨hnamed, -⟩ := halways nullSubjectLine e haccepted hwhole
  rw [hsubject] at hnamed
  cases hnamed houtcome hmode

end GrowthFault.Log
