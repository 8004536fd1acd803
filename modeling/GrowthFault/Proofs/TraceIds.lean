import GrowthFault.Log.Emitter
import GrowthFault.Log.Validation
import GrowthFault.Proofs.DecimalRendering
import GrowthFault.Proofs.TextLines

/-!
# Trace ids

An id joins three parts by doubled colons.  If the campaign and the name of the run have no colon,
a reader that cuts at doubled colons finds exactly these parts.  An id is never empty, so an entry
that has been given one keeps it.  An emitter gives out its numbers one after the other, whichever
call asks for one, so no two entries are ever given the same id.
-/

namespace GrowthFault

namespace Text

variable {c : Char} {chars : List Char}

theorem countDoubled_of_not_mem (h : c ∉ chars) : countDoubled c chars = 0 := by
  induction chars with
  | nil => rfl
  | cons a rest ih =>
      rw [List.mem_cons, not_or] at h
      obtain ⟨ha, hrest⟩ := h
      have hne : ¬ a = c := Ne.symm ha
      cases rest with
      | nil => rfl
      | cons b rest => rw [countDoubled, if_neg fun hab => hne hab.1, ih hrest]

/-- A separator behind text without its character is one cut more. -/
theorem countDoubled_append (h : c ∉ chars) (rest : List Char) :
    countDoubled c (chars ++ c :: c :: rest) = countDoubled c rest + 1 := by
  induction chars with
  | nil => rw [List.nil_append, countDoubled, if_pos ⟨rfl, rfl⟩]
  | cons a chars ih =>
      rw [List.mem_cons, not_or] at h
      obtain ⟨ha, hchars⟩ := h
      have hne : ¬ a = c := Ne.symm ha
      have hskip (tail : List Char) (htail : tail ≠ []) :
          countDoubled c (a :: tail) = countDoubled c tail := by
        cases tail with
        | nil => exact absurd rfl htail
        | cons b tail => rw [countDoubled, if_neg fun hab => hne hab.1]
      rw [List.cons_append, hskip _ (by simp), ih hchars]

end Text

namespace Decimal

theorem colon_padded (width n : Nat) : ':' ∉ padded width n := by
  unfold padded
  intro hmem
  rcases List.mem_append.1 hmem with hzero | hdigit
  · cases List.eq_of_mem_replicate hzero
  · cases isDigit_of_mem_digits hdigit

/-- Zeros before a number do not hide it. -/
theorem padded_injective (width : Nat) : Function.Injective (padded width) := by
  have hvalue (n : Nat) : Nat.ofDigitChars 10 (padded width n) 0 = n := by
    rw [padded, Nat.ofDigitChars_append, Nat.ofDigitChars_replicate_zero, Nat.mul_zero]
    exact Nat.ofDigitChars_ten_toDigits
  intro m n hsame
  calc
    m = Nat.ofDigitChars 10 (padded width m) 0 := (hvalue m).symm
    _ = Nat.ofDigitChars 10 (padded width n) 0 := by rw [hsame]
    _ = n := hvalue n

end Decimal

namespace Emitter

theorem toList_traceId (campaign runId : String) (number : Nat) :
    (traceId campaign runId number).toList =
      campaign.toList ++ ':' :: ':' :: (runId.toList ++ ':' :: ':' :: Decimal.padded 3 number) := by
  simp [traceId]

theorem traceId_ne_empty (campaign runId : String) (number : Nat) :
    traceId campaign runId number ≠ "" := by
  intro hempty
  have htext := congrArg String.toList hempty
  rw [toList_traceId] at htext
  simp at htext

theorem threeParts_traceId {campaign runId : String} (hcampaign : ':' ∉ campaign.toList)
    (hrunId : ':' ∉ runId.toList) (number : Nat) :
    Log.threeParts (traceId campaign runId number) = true := by
  have hnumber := Text.countDoubled_of_not_mem (Decimal.colon_padded 3 number)
  rw [Log.threeParts, toList_traceId, Text.countDoubled_append hcampaign,
    Text.countDoubled_append hrunId, hnumber]
  rfl

/-- Parts without colons can be told from the id that they make. -/
theorem traceId_inj {campaign campaign' runId runId' : String} {number number' : Nat}
    (hcampaign : ':' ∉ campaign.toList) (hcampaign' : ':' ∉ campaign'.toList)
    (hrunId : ':' ∉ runId.toList) (hrunId' : ':' ∉ runId'.toList)
    (hsame : traceId campaign runId number = traceId campaign' runId' number') :
    campaign = campaign' ∧ runId = runId' ∧ number = number' := by
  have hplain {part : String} (hpart : ':' ∉ part.toList) : ∀ c ∈ part.toList, (c != ':') = true :=
    fun c hc => bne_iff_ne.2 fun hcolon => hpart (hcolon ▸ hc)
  have htext := congrArg String.toList hsame
  rw [toList_traceId, toList_traceId] at htext
  obtain ⟨hfirst, hbehind⟩ :=
    Text.append_cons_inj rfl (hplain hcampaign) (hplain hcampaign') htext
  obtain ⟨hsecond, hnumber⟩ := Text.append_cons_inj rfl (hplain hrunId) (hplain hrunId')
    (List.cons.inj hbehind).2
  exact ⟨String.toList_inj.1 hfirst, String.toList_inj.1 hsecond,
    Decimal.padded_injective 3 (List.cons.inj hnumber).2⟩

/-- An entry with an id keeps it and takes no number; it keeps its campaign, if it has one. -/
theorem emitEntry_of_named {m : Emitter} {e : LogEntry} (hid : e.traceId ≠ "") :
    m.emitEntry e = m.write { e with campaign := e.campaign.or (some m.campaign) } := by
  simp only [emitEntry, hid, if_false]

/-- An entry with an id and a campaign is written as it is. -/
theorem emitEntry_of_identified {m : Emitter} {e : LogEntry} (hid : e.traceId ≠ "")
    (hcampaign : e.campaign.isSome) : m.emitEntry e = m.write e := by
  obtain ⟨campaign, hcampaign⟩ := Option.isSome_iff_exists.1 hcampaign
  have hkept : { e with campaign := e.campaign.or (some m.campaign) } = e := by
    rw [hcampaign, Option.some_or, ← hcampaign]
  rw [emitEntry_of_named hid, hkept]

theorem emitEntry_of_unnamed {m : Emitter} {e : LogEntry} (hid : e.traceId = "") :
    m.emitEntry e = { m with sequence := m.sequence + 1 }.write { e with
      traceId := traceId m.campaign m.runId (m.sequence + 1)
      campaign := e.campaign.or (some m.campaign) } := by
  simp only [emitEntry, hid, if_true]
  rfl

/-! ## Ids that were given out -/

/-- A call on an emitter that may give an entry an id. -/
inductive Call where
  | entry (now : Instant) (level : Level) (event : String)
  | emit (now : Instant) (level : Level) (event : String)
  | emitEntry (e : LogEntry)

/-- The id that an entry has been given by a call, as it stands in the entry, and the emitter after
the call. -/
def call (m : Emitter) : Call → Option String × Emitter
  | .entry now level event =>
    let (e, m) := m.entry now level event
    (some e.traceId, m)
  | .emit now level event =>
    let (e, m) := m.emit now level event
    (some e.traceId, m)
  | .emitEntry e =>
    let m := m.emitEntry e
    (if e.traceId = "" then m.written.getLast?.map (·.traceId) else none, m)

/-- The ids that entries have been given by calls, in order. -/
def assigned : Emitter → List Call → List String
  | _, [] => []
  | m, c :: calls => (m.call c).1.toList ++ assigned (m.call c).2 calls

variable {m : Emitter} {campaign runId : String} {calls : List Call}

/-- A call gives the id with the next number, or takes no number. -/
theorem call_numbers (m : Emitter) (c : Call) :
    (m.call c).2.campaign = m.campaign ∧ (m.call c).2.runId = m.runId ∧
      ((m.call c).1 = some (traceId m.campaign m.runId (m.sequence + 1)) ∧
          (m.call c).2.sequence = m.sequence + 1 ∨
        (m.call c).1 = none ∧ (m.call c).2.sequence = m.sequence) := by
  cases c with
  | entry now level event => exact ⟨rfl, rfl, .inl ⟨rfl, rfl⟩⟩
  | emit now level event => exact ⟨rfl, rfl, .inl ⟨rfl, rfl⟩⟩
  | emitEntry e =>
      unfold call
      dsimp only
      by_cases hid : e.traceId = ""
      · rw [emitEntry_of_unnamed hid, if_pos hid, write, List.getLast?_concat]
        exact ⟨rfl, rfl, .inl ⟨rfl, rfl⟩⟩
      · rw [emitEntry_of_named hid, if_neg hid]
        exact ⟨rfl, rfl, .inr ⟨rfl, rfl⟩⟩

/-- However an emitter is used, it gives out the ids of successive numbers. -/
theorem assigned_eq (m : Emitter) (calls : List Call) :
    assigned m calls = (List.range' (m.sequence + 1) (assigned m calls).length).map
      (traceId m.campaign m.runId) := by
  induction calls generalizing m with
  | nil => rfl
  | cons c calls ih =>
      obtain ⟨hcampaign, hrunId, ⟨hid, hnext⟩ | ⟨hnone, hsame⟩⟩ := m.call_numbers c
      · have hrest := ih (m.call c).2
        rw [hnext, hcampaign, hrunId] at hrest
        rw [assigned, hid, Option.toList_some, List.singleton_append, List.length_cons,
          List.range'_succ, List.map_cons, ← hrest]
      · have hrest := ih (m.call c).2
        rw [hsame, hcampaign, hrunId] at hrest
        rw [assigned, hnone, Option.toList_none, List.nil_append]
        exact hrest

/-- The `n`-th id that a fresh emitter gives out has the number `n`. -/
theorem eq_traceId_of_assigned {n : Nat} {id : String}
    (hid : (assigned ⟨campaign, runId, 0, []⟩ calls)[n]? = some id) :
    id = traceId campaign runId (n + 1) := by
  rw [assigned_eq, List.getElem?_map, Option.map_eq_some_iff] at hid
  obtain ⟨number, hnumber, rfl⟩ := hid
  obtain ⟨hn, hvalue⟩ := List.getElem?_eq_some_iff.1 hnumber
  rw [List.getElem_range', Nat.one_mul, Nat.zero_add, Nat.add_comm] at hvalue
  rw [hvalue]

/-- The ids that an emitter gives out have the numbers from one on.  An entry that has an id takes
no number and keeps its id and its campaign.  An id that is given out twice, be it by one emitter or
by two whose campaigns and runs have no colon, is of one campaign, one run and one number. -/
theorem assigned_identifies (campaign runId : String) (calls : List Call) :
    (∀ n id, (assigned ⟨campaign, runId, 0, []⟩ calls)[n]? = some id →
        id = traceId campaign runId (n + 1)) ∧
      (∀ (m : Emitter) (e : LogEntry), e.traceId ≠ "" →
        (m.emitEntry e).sequence = m.sequence ∧
          ∃ w, (m.emitEntry e).written = m.written ++ [w] ∧ w.traceId = e.traceId ∧
            ∀ own, e.campaign = some own → w.campaign = some own) ∧
      ∀ (campaign' runId' : String) (calls' : List Call) (n n' : Nat) (id : String),
        ':' ∉ campaign.toList → ':' ∉ runId.toList →
          ':' ∉ campaign'.toList → ':' ∉ runId'.toList →
            (assigned ⟨campaign, runId, 0, []⟩ calls)[n]? = some id →
              (assigned ⟨campaign', runId', 0, []⟩ calls')[n']? = some id →
                campaign = campaign' ∧ runId = runId' ∧ n = n' := by
  refine ⟨fun n id => eq_traceId_of_assigned, ?_, ?_⟩
  · intro m e hid
    rw [emitEntry_of_named hid]
    refine ⟨rfl, _, rfl, rfl, fun own hown => ?_⟩
    rw [hown, Option.some_or]
  · intro campaign' runId' calls' n n' id hcampaign hrunId hcampaign' hrunId' hid hid'
    have hsame := (eq_traceId_of_assigned hid).symm.trans (eq_traceId_of_assigned hid')
    obtain ⟨hfirst, hsecond, hnumber⟩ := traceId_inj hcampaign hcampaign' hrunId hrunId' hsame
    exact ⟨hfirst, hsecond, Nat.succ.inj hnumber⟩

/-- The second id of two emitters of one run, one of which has also written an entry with an id of
its own. -/
theorem assigned_identifies_second :
    let kept := LogEntry.make .epoch "kept" .info "x"
    let calls : List Call := [.emit .epoch .info "start", .emitEntry kept,
      .emitEntry (.make .epoch "" .warn "y")]
    let others : List Call := [.entry .epoch .info "start", .entry .epoch .error "z"]
    (assigned ⟨"a", "b", 0, []⟩ calls)[1]? = some "a::b::002" ∧
      (assigned ⟨"a", "b", 0, []⟩ others)[1]? = some "a::b::002" ∧
      "a::b::002" = traceId "a" "b" 2 ∧ (emitEntry ⟨"a", "b", 1, []⟩ kept).sequence = 1 ∧
      ("a" = "a" ∧ "b" = "b" ∧ 1 = 1) := by
  intro kept calls others
  have hid : (assigned ⟨"a", "b", 0, []⟩ calls)[1]? = some "a::b::002" := by decide +kernel
  have hid' : (assigned ⟨"a", "b", 0, []⟩ others)[1]? = some "a::b::002" := by decide +kernel
  obtain ⟨hnumbers, hkeeps, hsame⟩ := assigned_identifies "a" "b" calls
  exact ⟨hid, hid', hnumbers 1 _ hid, (hkeeps ⟨"a", "b", 1, []⟩ kept (by decide)).1,
    hsame "a" "b" others 1 1 _ (by decide) (by decide) (by decide) (by decide) hid hid'⟩

end Emitter

end GrowthFault
