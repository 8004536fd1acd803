import GrowthFault.Files.Basic
import GrowthFault.Log.Validation
import GrowthFault.Proofs.PrintedText
import GrowthFault.Proofs.SchemaReading
import GrowthFault.Proofs.TraceIds
import GrowthFault.Proofs.WrittenValues
import GrowthFault.Run.Record

/-!
# The log of an emitter

What an emitter writes, the validator accepts, and it reads every line as the entry that was
written there.  An entry is sound from the moment it is made: its mode does not come without a
subject, and its details are in order, have no doubles and are not nested too deep.  A sound entry
with a three-part id is written on a line that has no defects of shape, whatever its texts hold.
-/

namespace GrowthFault

open Json (Value toValue)

/-! ## Sound entries -/

/-- Details for an entry: they are not null, have no doubles, and a hundred containers at most are
nested in them. -/
structure Json.Value.Loggable (v : Value) : Prop where
  present : v ≠ .null
  whole : v.Whole
  shallow : v.depth ≤ 100

namespace LogEntry

/-- What is added to an entry once it is made. -/
inductive Part where
  | campaign (campaign : String)
  | run (subject : Subject) (mode : Mode) (failAfter : Option UInt64)
  | outcome (outcome : Outcome)
  | exit (exitCode signal : Option Int32)
  | calls (calls : Option UInt64)
  | duration (durationMs : UInt64)
  | artifacts (artifacts : List String)
  | details (details : Value)

def add (e : LogEntry) : Part → LogEntry
  | .campaign campaign => e.withCampaign campaign
  | .run subject mode failAfter => e.withRun subject mode failAfter
  | .outcome outcome => e.withOutcome outcome
  | .exit exitCode signal => e.withExit exitCode signal
  | .calls calls => e.withCalls calls
  | .duration durationMs => e.withDuration durationMs
  | .artifacts artifacts => e.withArtifacts artifacts
  | .details details => e.withDetails details

/-- How an entry comes about for an emitter of a campaign and a run.  It may have been numbered at
any time, and need not have been written at once. -/
inductive Made (campaign runId : String) : LogEntry → Prop where
  | unnumbered (now : Instant) (level : Level) (event : String) :
    Made campaign runId (make now "" level event)
  | numbered {m : Emitter} (hcampaign : m.campaign = campaign) (hrunId : m.runId = runId)
    (now : Instant) (level : Level) (event : String) :
    Made campaign runId (m.entry now level event).1
  | recorded {m : Emitter} (hcampaign : m.campaign = campaign) (hrunId : m.runId = runId)
    (r : RunRecord) (now : Instant) (expected : Option RunVerdict) :
    Made campaign runId (r.logEntry m now expected).1
  | add {e : LogEntry} (h : Made campaign runId e) (part : Part)
    (hdetails : ∀ details, part = .details details → details.Loggable) :
    Made campaign runId (e.add part)

/-- What holds of an entry from the moment it is made. -/
structure Sound (e : LogEntry) : Prop where
  named : e.mode.isSome → e.subject.isSome
  settled : ∀ details, e.details = some details → details.Settled
  plain : ∀ details, e.details = some details → details.Plain 100

variable {e : LogEntry} {campaign runId : String}

theorem sound_make (now : Instant) (traceId : String) (level : Level) (event : String) :
    (make now traceId level event).Sound :=
  ⟨nofun, nofun, nofun⟩

theorem Sound.add (h : e.Sound) (part : Part)
    (hdetails : ∀ details, part = .details details → details.Loggable) : (e.add part).Sound := by
  cases part with
  | campaign => exact ⟨h.named, h.settled, h.plain⟩
  | run => exact ⟨fun _ => rfl, h.settled, h.plain⟩
  | outcome => exact ⟨h.named, h.settled, h.plain⟩
  | exit => exact ⟨h.named, h.settled, h.plain⟩
  | calls => exact ⟨h.named, h.settled, h.plain⟩
  | duration => exact ⟨h.named, h.settled, h.plain⟩
  | artifacts => exact ⟨h.named, h.settled, h.plain⟩
  | details details =>
      obtain ⟨hpresent, hwhole, hshallow⟩ := hdetails details rfl
      refine ⟨h.named, ?_, ?_⟩
      · rintro _ ⟨⟩
        exact ⟨details.canonical_canonical, mt Value.canonical_eq_null_iff.1 hpresent⟩
      · rintro _ ⟨⟩
        exact (Value.Plain.mk hwhole hshallow).canonical

end LogEntry

/-- The details of a run record are an object of names, truths and text. -/
theorem RunRecord.loggable_details (r : RunRecord) (expected : Option RunVerdict) :
    (r.details expected).Loggable := by
  have hscalars : ∀ m ∈ [("verdict", toValue r.verdict),
      ("expected", Value.optional toValue expected),
      ("oom_injected", .bool r.transcript.oomInjected),
      ("oom_inactive", .bool r.transcript.oomInactive),
      ("stderr", .string r.stderr)], m.2.Plain 0 := by
    have hverdict (verdict : RunVerdict) : (toValue verdict).Plain 0 := ⟨.string, Nat.le_refl 0⟩
    simp only [List.forall_mem_cons, List.not_mem_nil, false_imp_iff, implies_true, and_true]
    refine ⟨hverdict r.verdict, ?_, ⟨.bool, Nat.le_refl 0⟩, ⟨.bool, Nat.le_refl 0⟩,
      ⟨.string, Nat.le_refl 0⟩⟩
    cases expected with
    | none => exact ⟨.null, Nat.le_refl 0⟩
    | some verdict => exact hverdict verdict
  have hplain := Value.Plain.object hscalars
  exact ⟨nofun, hplain.whole, Nat.le_trans hplain.shallow (by decide)⟩

namespace LogEntry

variable {e : LogEntry} {campaign runId : String}

/-- An entry that was made for an emitter is sound, and its id is missing or has three parts. -/
theorem Made.sound (h : e.Made campaign runId) (hcampaign : ':' ∉ campaign.toList)
    (hrunId : ':' ∉ runId.toList) :
    e.Sound ∧ (e.traceId = "" ∨ Log.threeParts e.traceId = true) := by
  have hparts {m : Emitter} (hm : m.campaign = campaign) (hm' : m.runId = runId) (number : Nat) :
      Log.threeParts (Emitter.traceId m.campaign m.runId number) = true := by
    rw [hm, hm']
    exact Emitter.threeParts_traceId hcampaign hrunId number
  have hnumbered (m : Emitter) (now : Instant) (level : Level) (event : String) :
      (m.entry now level event).1.Sound :=
    (sound_make now _ level event).add (.campaign m.campaign) nofun
  induction h with
  | unnumbered now level event => exact ⟨sound_make now "" level event, .inl rfl⟩
  | @numbered m hm hm' now level event =>
      exact ⟨hnumbered m now level event, .inr (hparts hm hm' _)⟩
  | @recorded m hm hm' r now expected =>
      have hrun := ((hnumbered m now (RunRecord.levelFor (r.outcome expected)) "checker_run").add
        (.run r.subject r.mode r.failAfter) nofun).add (.outcome (r.outcome expected)) nofun
      have hended := ((hrun.add (.exit r.exitCode r.signal) nofun).add
        (.calls r.transcript.calls) nofun).add (.duration r.durationMs) nofun
      refine ⟨hended.add (.details (r.details expected)) ?_, .inr (hparts hm hm' _)⟩
      rintro _ ⟨⟩
      exact r.loggable_details expected
  | @add e h part hdetails ih =>
      refine ⟨ih.1.add part hdetails, ?_⟩
      cases part with
      | campaign | run | outcome | exit | calls | duration | artifacts | details => exact ih.2

theorem wellNamed_schema : (Json.Described.schema LogEntry).wellNamed = true := by
  decide

theorem depth_schema : (Json.Described.schema LogEntry).depth = 2 := by
  decide

/-- The only free-form value of an entry is its details. -/
theorem free_of_details {P : Value → Prop} (h : ∀ details, e.details = some details → P details) :
    (Json.Described.schema LogEntry).Free P (Json.Described.toCarrier e) := by
  simp only [Json.Described.schema, Json.Described.toCarrier, Json.Schema.Free, Json.Fields.Free,
    Json.SlotHolds]
  simpa using h

theorem Sound.plain_toValue (h : e.Sound) : (toValue e).Plain 102 := by
  have hplain := Json.Schema.plain_write (free_of_details h.plain)
  rwa [depth_schema] at hplain

/-- An entry is read back from its object, if its details are in order and not null. -/
theorem ofValue_canonical (hsettled : ∀ details, e.details = some details → details.Settled) :
    Json.ofValue LogEntry (toValue e).canonical = .ok e := by
  have hread := Json.Schema.ofValue_write wellNamed_schema (free_of_details hsettled)
  rw [Json.ofValue, toValue, hread, Except.map, Json.Described.ofCarrier_toCarrier]

end LogEntry

/-! ## Shapes -/

namespace Log

/-- What the checks of the shape look for in an object is what an entry has. -/
structure Shows (object : Value) (e : LogEntry) : Prop where
  timestamp : object.get? "timestamp" = some (.string e.timestamp)
  traceId : object.get? "trace_id" = some (.string e.traceId)
  level : object.get? "level" = some (toValue e.level)
  event : object.get? "event" = some (.string e.event)
  subject : object.get? "subject" = e.subject.map toValue
  mode : object.get? "mode" = e.mode.map toValue
  outcome : object.get? "outcome" = e.outcome.map toValue

theorem shows_canonical (e : LogEntry) : Shows (toValue e).canonical e := by
  let x : (Json.Described.schema LogEntry).fields.Carrier := Json.Described.toCarrier e
  have hnames : (Json.Described.schema LogEntry).fields.names.Nodup := by decide
  have hkeys := (Json.Fields.keys_sublist _ x).nodup hnames
  have hget {key : String} {value : Option Value}
      (hlookup : (Json.Fields.write _ x).lookup key = value) :
      (toValue e).canonical.get? key = value.map Value.canonical := by
    rw [← hlookup]
    exact Value.get?_canonical hkeys key
  obtain ⟨htimestamp, hid, hlevel, hevent, -, hsubject, hmode, -, houtcome, -⟩ :=
    Json.Fields.shown_write _ x hnames
  refine ⟨hget htimestamp, hget hid, hget hlevel, hget hevent, (hget hsubject).trans ?_,
    (hget hmode).trans ?_, (hget houtcome).trans ?_⟩
  · cases e.subject <;> rfl
  · cases e.mode <;> rfl
  · cases e.outcome <;> rfl

variable {object : Value} {e : LogEntry}

theorem missingFields_eq_nil (h : ∀ field ∈ requiredFields, has object field = true) :
    missingFields object = [] := by
  rw [missingFields, List.map_eq_nil_iff, List.filter_eq_nil_iff]
  intro field hfield
  simp [h field hfield]

theorem invalidWords_eq_nil (h : ∀ f ∈ wordFields, ∀ word, textIn? object f.1 = some word →
    f.2.contains word = true) : invalidWords object = [] := by
  rw [invalidWords, List.filterMap_eq_nil_iff]
  rintro ⟨field, words⟩ hfield
  dsimp only
  split
  next word hword => rw [if_pos (h _ hfield word hword)]
  next => rfl

theorem Shows.missingFields (h : Shows object e) : missingFields object = [] := by
  refine missingFields_eq_nil ?_
  simp [requiredFields, has, h.timestamp, h.traceId, h.level, h.event]

/-- The words that are written are the words that are looked for. -/
theorem Shows.words (h : Shows object e) : ∀ f ∈ wordFields, ∀ word,
    textIn? object f.1 = some word → f.2.contains word = true := by
  have hwritten {α : Type} [Json.Described α] {field : String} {words : List String} {x : Option α}
      (hwords : ∀ a : α, ∃ word ∈ words, toValue a = .string word)
      (hget : object.get? field = x.map toValue) (word : String) :
      textIn? object field = some word → words.contains word = true := by
    rw [textIn?, hget]
    cases x with
    | none => exact nofun
    | some a =>
        obtain ⟨written, hmem, ha⟩ := hwords a
        rw [Option.map_some, ha]
        rintro ⟨⟩
        exact List.contains_iff_mem.2 hmem
  have hlevel : object.get? "level" = (some e.level).map toValue := h.level
  simp only [wordFields, List.forall_mem_cons, List.not_mem_nil, false_imp_iff, implies_true,
    and_true]
  refine ⟨hwritten ?_ hlevel, hwritten ?_ h.outcome, hwritten ?_ h.subject, hwritten ?_ h.mode⟩
  all_goals exact fun a => ⟨_, List.get_mem _ _, rfl⟩

theorem Shows.invalidWords (h : Shows object e) : invalidWords object = [] :=
  invalidWords_eq_nil h.words

theorem Shows.malformedTraceId (h : Shows object e) (hid : threeParts e.traceId = true) :
    malformedTraceId object = [] := by
  have htext : textIn? object "trace_id" = some e.traceId := by
    rw [textIn?, h.traceId]
    rfl
  simp only [Log.malformedTraceId, htext, hid, if_true]

theorem Shows.namelessRun (h : Shows object e)
    (hnamed : e.outcome.isSome → e.mode.isSome → e.subject.isSome) : namelessRun object = [] := by
  rw [Log.namelessRun, if_neg]
  simp only [has, h.outcome, h.mode, h.subject, Option.isSome_map, Bool.and_eq_true,
    Bool.not_eq_true', not_and, Bool.not_eq_false]
  exact fun h => hnamed h.1 h.2

theorem Shows.shapeDefects (h : Shows object e) (hid : threeParts e.traceId = true)
    (hnamed : e.outcome.isSome → e.mode.isSome → e.subject.isSome) : shapeDefects object = [] := by
  rw [Log.shapeDefects, h.missingFields, h.invalidWords, h.malformedTraceId hid,
    h.namelessRun hnamed]
  rfl

theorem parse_line (hwhole : (toValue e).Whole) (hdepth : (toValue e).depth < Json.depthLimit) :
    Json.parse e.line.toList = .ok (toValue e).canonical := by
  rw [LogEntry.line, Json.compact, Value.compact, String.toList_ofList]
  exact hwhole.parse_compact hdepth

/-- An entry is read back from its line, if its shape is in order and it is not nested too deep. -/
theorem validateLine_line (hwhole : (toValue e).Whole)
    (hdepth : (toValue e).depth < Json.depthLimit)
    (hsettled : ∀ details, e.details = some details → details.Settled)
    (hid : threeParts e.traceId = true)
    (hnamed : e.outcome.isSome → e.mode.isSome → e.subject.isSome) :
    validateLine e.line = .ok e := by
  have hparse := parse_line hwhole hdepth
  have hobject : isObject (toValue e).canonical = true := rfl
  have hshape := (shows_canonical e).shapeDefects hid hnamed
  simp only [validateLine, hparse, Value.canonical_canonical, hobject, hshape, if_true,
    LogEntry.ofValue_canonical hsettled]

theorem validateLine_of_sound (h : e.Sound) (hid : threeParts e.traceId = true) :
    validateLine e.line = .ok e := by
  have hdepth : (toValue e).depth < Json.depthLimit :=
    Nat.lt_of_le_of_lt h.plain_toValue.shallow (by decide)
  exact validateLine_line h.plain_toValue.whole hdepth h.settled hid fun _ => h.named

/-! ## Lines -/

theorem newline_line (hwhole : (toValue e).Whole) : '\n' ∉ e.line.toList := by
  rw [LogEntry.line, Json.compact, Value.compact, String.toList_ofList]
  exact hwhole.newline_compactChars

theorem exists_line (e : LogEntry) : ∃ inner, e.line.toList = '\x7b' :: inner ++ ['\x7d'] := by
  rw [LogEntry.line, Json.compact, Value.compact, String.toList_ofList]
  exact Value.exists_compactChars_object _

theorem withoutReturn_line (e : LogEntry) : Text.withoutReturn e.line.toList = e.line.toList := by
  obtain ⟨inner, hline⟩ := exists_line e
  rw [hline, Text.withoutReturn, List.getLast?_append, if_neg]
  simp

theorem trim_line (e : LogEntry) : Text.trim e.line.toList = e.line.toList := by
  obtain ⟨inner, hline⟩ := exists_line e
  rw [hline]
  apply Text.trim_eq_self
  · rintro c ⟨⟩
    decide
  · intro c hc
    rw [List.getLast?_append] at hc
    cases hc
    decide

variable {es : List LogEntry}

theorem numberedLines_of_lines {content : String}
    (hlines : Text.lines content.toList = es.map (·.line.toList)) :
    numberedLines content = ((es.map (·.line.toList)).zipIdx 1).map Prod.swap := by
  have htrim : (es.map (·.line.toList)).map Text.trim = es.map (·.line.toList) := by
    simp only [List.map_map, Function.comp_def, trim_line]
  rw [numberedLines, hlines, htrim]
  refine (List.filterMap_congr fun entry hmem => ?_).trans (congrFun List.filterMap_eq_map _)
  obtain ⟨e, -, hline⟩ := List.mem_map.1 (List.fst_mem_of_mem_zipIdx hmem)
  obtain ⟨inner, hinner⟩ := exists_line e
  obtain ⟨line, number⟩ := entry
  obtain rfl : '\x7b' :: inner ++ ['\x7d'] = line := hinner.symm.trans hline
  rfl

/-- A text with an entry on every line has as many lines and no findings. -/
theorem validate_of_lines {content : String}
    (hlines : Text.lines content.toList = es.map (·.line.toList))
    (hes : ∀ e ∈ es, validateLine e.line = .ok e) : validate content = ⟨es.length, []⟩ := by
  have hfindings : ∀ entry ∈ ((es.map (·.line.toList)).zipIdx 1).map Prod.swap,
      findingsIn entry.1 entry.2 = [] := by
    rw [List.forall_mem_map]
    intro entry hmem
    obtain ⟨e, he, hline⟩ := List.mem_map.1 (List.fst_mem_of_mem_zipIdx hmem)
    rw [Prod.fst_swap, Prod.snd_swap, findingsIn, ← hline, String.ofList_toList, hes e he]
  rw [validate, numberedLines_of_lines hlines]
  exact congrArg₂ Survey.mk (by simp) (List.flatMap_eq_nil_iff.2 hfindings)

end Log

/-! ## Sessions with an emitter -/

namespace Emitter

/-- An entry as an emitter writes it: with an id and a campaign, if it had none. -/
def filledIn (m : Emitter) (e : LogEntry) : LogEntry :=
  { e with
    traceId := if e.traceId = "" then traceId m.campaign m.runId (m.sequence + 1) else e.traceId
    campaign := e.campaign.or (some m.campaign) }

/-- A session with an emitter of a campaign and a run, and the entries it wrote.  An entry, that of
a run record as well, is numbered when it is made; it may be written later, or not at all. -/
inductive Session (campaign runId : String) : Emitter → List LogEntry → Prop where
  | fresh : Session campaign runId ⟨campaign, runId, 0, []⟩ []
  | number {m : Emitter} {es : List LogEntry} (h : Session campaign runId m es) (now : Instant)
    (level : Level) (event : String) : Session campaign runId (m.entry now level event).2 es
  | emit {m : Emitter} {es : List LogEntry} (h : Session campaign runId m es) (now : Instant)
    (level : Level) (event : String) :
    Session campaign runId (m.emit now level event).2 (es ++ [(m.emit now level event).1])
  | emitEntry {m : Emitter} {es : List LogEntry} (h : Session campaign runId m es) {e : LogEntry}
    (he : e.Made campaign runId) : Session campaign runId (m.emitEntry e) (es ++ [m.filledIn e])

variable {campaign runId : String} {m : Emitter} {es : List LogEntry}

theorem emitEntry_eq (m : Emitter) (e : LogEntry) :
    (m.emitEntry e).campaign = m.campaign ∧ (m.emitEntry e).runId = m.runId ∧
      (m.emitEntry e).written = m.written ++ [m.filledIn e] := by
  unfold emitEntry filledIn
  by_cases hid : e.traceId = ""
  · simp only [hid, if_true]
    exact ⟨rfl, rfl, rfl⟩
  · simp only [hid, if_false]
    exact ⟨rfl, rfl, rfl⟩

/-- What holds throughout a session. -/
structure Keeps (campaign runId : String) (m : Emitter) (es : List LogEntry) : Prop where
  campaign : m.campaign = campaign
  runId : m.runId = runId
  written : m.written = es
  sound : ∀ e ∈ es, e.Sound
  identified : ∀ e ∈ es, Log.threeParts e.traceId = true

theorem Keeps.write {m' : Emitter} {e : LogEntry} (h : Keeps campaign runId m es)
    (hcampaign : m'.campaign = m.campaign) (hrunId : m'.runId = m.runId)
    (hwritten : m'.written = m.written ++ [e]) (he : e.Sound)
    (hid : Log.threeParts e.traceId = true) : Keeps campaign runId m' (es ++ [e]) where
  campaign := hcampaign.trans h.campaign
  runId := hrunId.trans h.runId
  written := by rw [hwritten, h.written]
  sound := by
    rw [List.forall_mem_append, List.forall_mem_singleton]
    exact ⟨h.sound, he⟩
  identified := by
    rw [List.forall_mem_append, List.forall_mem_singleton]
    exact ⟨h.identified, hid⟩

theorem Session.keeps (h : Session campaign runId m es) (hcampaign : ':' ∉ campaign.toList)
    (hrunId : ':' ∉ runId.toList) : Keeps campaign runId m es := by
  induction h with
  | fresh => exact ⟨rfl, rfl, rfl, List.forall_mem_nil _, List.forall_mem_nil _⟩
  | number h now level event ih =>
      exact ⟨ih.campaign, ih.runId, ih.written, ih.sound, ih.identified⟩
  | @emit m es h now level event ih =>
      have hmade : (m.entry now level event).1.Made campaign runId :=
        .numbered ih.campaign ih.runId now level event
      obtain ⟨hsound, hempty | hid⟩ := hmade.sound hcampaign hrunId
      · exact absurd hempty (traceId_ne_empty _ _ _)
      · exact ih.write rfl rfl rfl hsound hid
  | @emitEntry m es h e he ih =>
      obtain ⟨hcampaign', hrunId', hwritten⟩ := emitEntry_eq m e
      obtain ⟨hsound, hid⟩ := he.sound hcampaign hrunId
      refine ih.write hcampaign' hrunId' hwritten ⟨hsound.named, hsound.settled, hsound.plain⟩ ?_
      rw [filledIn]
      split
      next =>
        rw [ih.campaign, ih.runId]
        exact threeParts_traceId hcampaign hrunId _
      next hnamed => exact hid.resolve_left hnamed

/-- Every sound entry has a line of its own. -/
theorem lines_of_sound (hsound : ∀ e ∈ m.written, e.Sound) :
    Text.lines m.text.toList = m.written.map (·.line.toList) := by
  have hjoin : m.text.toList = (m.written.map (·.line.toList)).flatMap (· ++ ['\n']) := by
    simp [text, String.toList_join, List.flatMap_map]
  have hwhole : ∀ line ∈ m.written.map (·.line.toList), '\n' ∉ line := by
    rw [List.forall_mem_map]
    exact fun e he => Log.newline_line (hsound e he).plain_toValue.whole
  rw [hjoin, Text.lines_join hwhole]
  simp only [List.map_map, Function.comp_def, Log.withoutReturn_line]

theorem Keeps.lines (h : Keeps campaign runId m es) :
    Text.lines m.text.toList = es.map (·.line.toList) := by
  rw [lines_of_sound (h.written ▸ h.sound), h.written]

/-- Whatever a session wrote is accepted: a file with its text has a line for each entry and no
findings, and each line is read as the entry that was written there. -/
theorem Session.log_valid (h : Session campaign runId m es) (hcampaign : ':' ∉ campaign.toList)
    (hrunId : ':' ∉ runId.toList) :
    (∀ (fs : Files) (path : Path), fs.read path = .ok (Bytes.ofText m.text) →
      (fs.readText path).map Log.validate = .ok ⟨es.length, []⟩) ∧
      List.Forall₂ (fun line e => Log.validateLine (String.ofList line) = .ok e)
        (Text.lines m.text.toList) es := by
  have hkeeps := h.keeps hcampaign hrunId
  have hread (e : LogEntry) (he : e ∈ es) : Log.validateLine e.line = .ok e :=
    Log.validateLine_of_sound (hkeeps.sound e he) (hkeeps.identified e he)
  constructor
  · intro fs path hbytes
    have htext : fs.readText path = .ok m.text := by
      rw [Files.readText, hbytes]
      simp only [bind, Except.bind, Bytes.text?_ofText]
    rw [htext, Except.map, Log.validate_of_lines hkeeps.lines hread]
  · rw [hkeeps.lines, List.forall₂_map_left_iff, List.forall₂_same]
    intro e he
    rw [String.ofList_toList]
    exact hread e he

/-- An entry with a line break, a quote and a brace in its event and with nested details, behind
one that was emitted at once. -/
theorem Session.log_valid_hostile_event :
    let note := (LogEntry.make .epoch "" .warn "\n\x22\x7d").add
      (.details (.array [.object [("k", .null), ("j", .bool true)]]))
    let started := Emitter.emit ⟨"nightly", "42", 0, []⟩ .epoch .info "start"
    let m := started.2.emitEntry note
    let es := [started.1, started.2.filledIn note]
    let fs : Files := { nodes := [([Bytes.ofText "log"], .data (Bytes.ofText m.text))] }
    Session "nightly" "42" m es ∧ ':' ∉ "nightly".toList ∧ ':' ∉ "42".toList ∧
      fs.read (Bytes.ofText "log") = .ok (Bytes.ofText m.text) ∧
      (fs.readText (Bytes.ofText "log")).map Log.validate = .ok ⟨2, []⟩ ∧
      List.Forall₂ (fun line e => Log.validateLine (String.ofList line) = .ok e)
        (Text.lines m.text.toList) es := by
  intro note started m es fs
  have hmade : note.Made "nightly" "42" := by
    refine .add (.unnumbered .epoch .warn _) _ ?_
    rintro _ ⟨⟩
    refine ⟨nofun, .array ?_, by decide⟩
    simp only [List.forall_mem_singleton]
    refine .object ?_
    simp only [List.forall_mem_cons, List.not_mem_nil, false_imp_iff, implies_true, and_true]
    exact ⟨.null, .bool⟩
  have hsession : Session "nightly" "42" m es :=
    (Session.fresh.emit .epoch .info "start").emitEntry hmade
  have hcampaign : ':' ∉ "nightly".toList := by decide
  have hrunId : ':' ∉ "42".toList := by decide
  have hread : fs.read (Bytes.ofText "log") = .ok (Bytes.ofText m.text) := rfl
  obtain ⟨hfile, hlines⟩ := hsession.log_valid hcampaign hrunId
  exact ⟨hsession, hcampaign, hrunId, hread, hfile fs _ hread, hlines⟩

end Emitter

end GrowthFault
