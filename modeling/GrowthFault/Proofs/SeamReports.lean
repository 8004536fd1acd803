import GrowthFault.Proofs.AppendCampaigns
import GrowthFault.Proofs.SuccessfulSteps

/-!
# What a seam run reports

The ordinal of the policy alone decides a seam run: which scenarios are run, how they end and how
many growth calls are counted.  What is leaked follows from how the scenarios ended: one block for
each failed growth of the buggy subject, the copy of the first operand with its terminator, and
nothing for the fixed one.  After the report nothing is left live.
-/

namespace GrowthFault

open Heap

/-- What a subject loses when its growth has failed. -/
def Subject.lostBlocks (s : Subject) (base : CString) (failed : Bool) : List Bytes :=
  match s with
  | .fixed => []
  | .buggy => if failed then [base.terminated] else []

namespace Scenario

/-- The blocks that a subject has lost when the scenarios have ended like this. -/
def lostBlocks (s : Subject) (normal : Option NormalOutcome) (oom : Option OomOutcome) :
    List Bytes :=
  s.lostBlocks normalBase (normal == some .returnedNull) ++
    s.lostBlocks oomBase (oom == some .returnedNull)

variable {place : Placement} {policy : Policy} {n : Nat} {h h' : Stack} {s : Subject}
  {base addition : CString} {string : Option Bytes}

theorem Granted.normal (hgranted : Granted place) :
    Subject.Call.Granted place ⟨s, normalBase, normalAddition, .drop⟩ :=
  ⟨hgranted _ (by simp [requests]), hgranted _ (by simp [requests])⟩

theorem Granted.oom (hgranted : Granted place) :
    Subject.Call.Granted place ⟨s, oomBase, oomAddition, .drop⟩ :=
  ⟨hgranted _ (by simp [requests]), hgranted _ (by simp [requests])⟩

/-- A string that is asked for on the heap of a seam run is given back, so only a lost block is
left. -/
theorem appended_seamed (hgranted : Subject.Call.Granted place ⟨s, base, addition, .drop⟩)
    (hseen : h.Seamed place policy n)
    (happended : appended s h base addition = .ok (string, h')) :
    h'.Seamed place policy (n + 1) ∧ h'.base.memory.contents.Perm
      (s.lostBlocks base string.isNone ++ h.base.memory.contents) := by
  obtain ⟨held, h₁, hcarry, hseen', hanswer, hleft⟩ :=
    Subject.Call.carryOut_seamed hgranted hseen
  simp only [appended, hcarry, bind, Except.bind, Except.ok.injEq, Prod.mk.injEq] at happended
  obtain ⟨rfl, rfl⟩ := happended
  refine ⟨hseen', ?_⟩
  have hlost : ((Subject.Call.mk s base addition .drop).leaves policy.ordinal.toNat
      (n + 1)).toList = s.lostBlocks base (held.map Subject.Held.bytes).isNone := by
    rw [hanswer, Subject.Call.answer, Subject.Call.leaves]
    by_cases hfailed : n + 1 = policy.ordinal.toNat
    · cases s <;> simp [hfailed, Subject.lostBlocks]
    · cases s <;> simp [hfailed, Subject.lostBlocks, Subject.Disposal.frees]
  rw [← hlost]
  exact hleft

theorem judgeNormal_eq_returnedNull_iff :
    judgeNormal string = .returnedNull ↔ string.isNone := by
  cases string with
  | none => simp [judgeNormal]
  | some bytes =>
      simp only [judgeNormal, Option.isNone_some, Bool.false_eq_true, iff_false]
      split <;> simp

theorem judgeOom_eq_returnedNull_iff : judgeOom string = .returnedNull ↔ string.isNone := by
  cases string <;> simp [judgeOom]

theorem checkNormal_seamed {outcome : NormalOutcome} (hgranted : Granted place)
    (hseen : h.Seamed place policy n) (hcheck : checkNormal s h = .ok (outcome, h')) :
    h'.Seamed place policy (n + 1) ∧ h'.base.memory.contents.Perm
      (s.lostBlocks normalBase (outcome == .returnedNull) ++ h.base.memory.contents) := by
  obtain ⟨⟨string, h₁⟩, happended, hjudged⟩ := bind_eq_ok.1 hcheck
  cases hjudged
  have hnull : (judgeNormal string == .returnedNull) = string.isNone := by
    rw [Bool.eq_iff_iff, beq_iff_eq, judgeNormal_eq_returnedNull_iff]
  rw [hnull]
  exact appended_seamed hgranted.normal hseen happended

theorem checkOom_seamed {outcome : OomOutcome} (hgranted : Granted place)
    (hseen : h.Seamed place policy n) (hcheck : checkOom s h = .ok (outcome, h')) :
    h'.Seamed place policy (n + 1) ∧ h'.base.memory.contents.Perm
      (s.lostBlocks oomBase (outcome == .returnedNull) ++ h.base.memory.contents) := by
  obtain ⟨⟨string, h₁⟩, happended, hjudged⟩ := bind_eq_ok.1 hcheck
  cases hjudged
  have hnull : (judgeOom string == .returnedNull) = string.isNone := by
    rw [Bool.eq_iff_iff, beq_iff_eq, judgeOom_eq_returnedNull_iff]
  rw [hnull]
  exact appended_seamed hgranted.oom hseen happended

/-- The scenarios of a mode leave the blocks that the subject has lost in them. -/
theorem runMode_seamed {mode : Mode} {normal : Option NormalOutcome} {oom : Option OomOutcome}
    (hgranted : Granted place) (hseen : h.Seamed place policy 0)
    (hrun : runMode s mode h = .ok ((normal, oom), h')) :
    (∃ calls, h'.Seamed place policy calls) ∧
      h'.base.memory.contents.Perm (lostBlocks s normal oom ++ h.base.memory.contents) := by
  have hnothing (base : CString) : s.lostBlocks base false = [] := by
    cases s <;> rfl
  cases mode with
  | oomOnly =>
      obtain ⟨⟨outcome, h₁⟩, hcheck, hreturned⟩ := bind_eq_ok.1 hrun
      cases hreturned
      obtain ⟨hseen₁, hleft⟩ := checkOom_seamed hgranted hseen hcheck
      refine ⟨⟨1, hseen₁⟩, ?_⟩
      have hfirst : s.lostBlocks normalBase (none == some NormalOutcome.returnedNull) = [] :=
        hnothing _
      rw [lostBlocks, hfirst]
      exact hleft
  | full =>
      obtain ⟨⟨first, h₁⟩, hcheck, hrest⟩ := bind_eq_ok.1 hrun
      obtain ⟨hseen₁, hleft₁⟩ := checkNormal_seamed hgranted hseen hcheck
      dsimp only at hrest
      split at hrest
      next hpassed =>
        obtain ⟨⟨second, h₂⟩, hcheck₂, hreturned⟩ := bind_eq_ok.1 hrest
        cases hreturned
        obtain ⟨hseen₂, hleft₂⟩ := checkOom_seamed hgranted hseen₁ hcheck₂
        refine ⟨⟨2, hseen₂⟩, ?_⟩
        rw [lostBlocks, List.append_assoc]
        exact (hleft₂.trans (hleft₁.append_left _)).trans (List.perm_append_comm_assoc _ _ _)
      next hpassed =>
        cases hrest
        refine ⟨⟨1, hseen₁⟩, ?_⟩
        have hsecond : s.lostBlocks oomBase (none == some OomOutcome.returnedNull) = [] :=
          hnothing _
        rw [lostBlocks, hsecond, List.append_nil]
        exact hleft₁

end Scenario

/-- What a seam run still holds when it is over can all be given back. -/
theorem Heap.Stack.Seamed.release {place : Placement} {policy : Policy} {n : Nat} {h : Stack}
    {left : List Bytes} (hseen : h.Seamed place policy n)
    (hleft : h.base.memory.contents.Perm left) :
    ∃ l h', h.ledger? = some l ∧ l.size = left.length ∧
      l.total = (left.map List.length).sum ∧
      h.release = .ok (some left.length, h') ∧ h'.base.memory.blocks = .empty := by
  obtain ⟨-, -, l, hlayers, hexact⟩ := hseen
  have hsizes := hexact.perm_sizes.trans (hleft.map List.length)
  have hledgers : Layers.ledgers h.layers = [l] := by
    rw [hlayers]
    rfl
  have hledger : ∀ l ∈ Layers.ledgers h.layers, l.Exact h.base.memory := by
    simpa [hledgers] using hexact
  have htracker : (Layers.ledger? h.layers).isSome := by
    rw [hlayers]
    rfl
  obtain ⟨freed, layers, base, hrelease, hfreed, -, hempty, -⟩ :=
    Layers.release_spec hledger htracker
  have hcount : freed.length = left.length := by
    rw [hfreed.length_eq, ← hleft.length_eq, Table.addresses, Memory.contents, List.length_map,
      List.length_map]
  refine ⟨l, ⟨layers, base⟩, ?_, ?_, ?_, ?_, hempty⟩
  · rw [Stack.ledger?, hlayers]
    rfl
  · have hlength := hsizes.length_eq
    rwa [List.length_map, List.length_map] at hlength
  · rw [Ledger.total_eq_sum]
    exact hsizes.sum_nat
  · rw [Stack.release, hrelease, ← hcount]
    rfl

namespace SeamReport

/-- The scenarios that were run. -/
def scenarios (r : SeamReport) : Nat :=
  r.normal.toList.length + r.oom.toList.length

/-- The bytes that the subject is known to lose: with each failed growth a buggy one loses its
copy of the first operand, terminator included. -/
def expectedBytes (r : SeamReport) : Nat :=
  match r.subject with
  | .fixed => 0
  | .buggy =>
    (if r.normal = some .returnedNull then Scenario.normalBase.length + 1 else 0) +
      (if r.oom = some .returnedNull then Scenario.oomBase.length + 1 else 0)

theorem length_lostBlocks (r : SeamReport) :
    (Scenario.lostBlocks r.subject r.normal r.oom).length = r.expectedLeaks := by
  unfold Scenario.lostBlocks Subject.lostBlocks expectedLeaks failures
  cases r.subject with
  | fixed => rfl
  | buggy =>
      simp only [List.length_append, beq_iff_eq]
      congr 1 <;> split <;> rfl

theorem sum_lostBlocks (r : SeamReport) :
    ((Scenario.lostBlocks r.subject r.normal r.oom).map List.length).sum = r.expectedBytes := by
  unfold Scenario.lostBlocks Subject.lostBlocks expectedBytes
  cases r.subject with
  | fixed => rfl
  | buggy =>
      simp only [List.map_append, List.sum_append, beq_iff_eq]
      congr 1 <;> split <;> simp

theorem expectedLeaks_le (r : SeamReport) : r.expectedLeaks ≤ 2 := by
  unfold expectedLeaks failures
  cases r.subject with
  | fixed => exact Nat.zero_le 2
  | buggy =>
      dsimp only
      split <;> split <;> decide

theorem expectedBytes_le (r : SeamReport) : r.expectedBytes ≤ 8 := by
  unfold expectedBytes
  cases r.subject with
  | fixed => exact Nat.zero_le 8
  | buggy =>
      dsimp only
      split <;> split <;> decide

/-- What the report of a seam run says.  The first scenario makes the first growth call, the second
the next one, and each ends with null if its call is the one that the policy fails. -/
structure Tells (policy : Policy) (mode : Mode) (r : SeamReport) : Prop where
  normal : r.normal =
    if mode = .full then some (if policy.ordinal = 1 then .returnedNull else .passed) else none
  oom : r.oom =
    if mode = .oomOnly ∨ r.normal = some .passed then
      some (if policy.ordinal.toNat = r.normal.toList.length + 1 then .returnedNull
        else .succeeded "ab")
    else none
  calls : r.calls.toNat = r.scenarios
  leakedBlocks : r.leakedBlocks.toNat = r.expectedLeaks
  leakedBytes : r.leakedBytes.toNat = r.expectedBytes

end SeamReport

namespace Seam

variable (policy : Policy) (mode : Mode)

theorem verdict_one_iff : policy.verdict 1 = .fail ↔ policy.ordinal = 1 := by
  rw [Subject.Call.verdict_succ_iff (n := 0), ← UInt64.toNat_inj]
  exact eq_comm

theorem normal_outcomes : (policy.outcomes mode).1 =
    if mode = .full then some (if policy.ordinal = 1 then .returnedNull else .passed)
    else none := by
  cases mode with
  | oomOnly => rfl
  | full =>
      simp only [Policy.outcomes, verdict_one_iff]
      split <;> rfl

theorem oom_outcomes : (policy.outcomes mode).2 =
    if mode = .oomOnly ∨ (policy.outcomes mode).1 = some .passed then
      some (if policy.ordinal.toNat = (policy.outcomes mode).1.toList.length + 1 then .returnedNull
        else .succeeded "ab")
    else none := by
  cases mode with
  | oomOnly =>
      simp [Policy.outcomes, Policy.oomOutcome, Subject.Call.verdict_succ_iff (n := 0), eq_comm]
  | full =>
      simp only [Policy.outcomes, Policy.oomOutcome, verdict_one_iff,
        Subject.Call.verdict_succ_iff (n := 1)]
      split
      next hfirst => simp
      next hfirst => simp [eq_comm]

theorem growths_eq : policy.growths mode =
    (policy.outcomes mode).1.toList.length + (policy.outcomes mode).2.toList.length := by
  cases mode with
  | oomOnly => rfl
  | full =>
      simp only [Policy.growths, Policy.outcomes]
      split <;> rfl

/-- Wherever blocks are put, a seam run ends with a report that tells how the scenarios went and
what was leaked, which is what its subject is known to lose, and then nothing is live. -/
theorem run_reports {place : Placement} (hgranted : Scenario.Granted place) (subject : Subject) :
    ∃ r h, runOn subject policy mode (heap policy place) = .ok (r, h) ∧
      run subject policy mode place = .ok r ∧
      r.subject = subject ∧ r.mode = mode ∧ r.failAfter = policy.ordinal ∧
      r.Tells policy mode ∧ r.matchesSubject = true ∧ h.base.memory.blocks = .empty := by
  have hstart : Stack.Seamed place policy 0 (heap policy place) :=
    ⟨rfl, rfl, .empty, rfl, fun _ => rfl⟩
  obtain ⟨h₁, hmode, hseen⟩ :=
    Scenario.runMode_follows Stack.contract (Stack.follows_seamed place policy)
      hgranted hstart subject mode
  obtain ⟨-, hleft⟩ := Scenario.runMode_seamed hgranted hstart hmode
  rw [show (heap policy place).base.memory.contents = [] from rfl, List.append_nil] at hleft
  obtain ⟨l, h, hledger, hsize, htotal, hrelease, hempty⟩ := hseen.release hleft
  have hgates : (Layers.gateCalls h₁.layers).foldl (· + ·) 0 = policy.growths mode := by
    obtain ⟨-, -, l', hlayers, -⟩ := hseen
    rw [hlayers]
    exact Nat.zero_add _
  let r : SeamReport :=
    { subject, mode, failAfter := policy.ordinal, normal := (policy.outcomes mode).1
      oom := (policy.outcomes mode).2, calls := UInt64.ofNat (policy.growths mode)
      leakedBlocks := UInt64.ofNat l.size, leakedBytes := UInt64.ofNat l.total }
  have hrunOn : runOn subject policy mode (heap policy place) = .ok (r, h) := by
    simp only [runOn, hmode, hledger, hrelease, hgates, bind, Except.bind, Option.getD_some, r]
  have hblocks : r.leakedBlocks.toNat = r.expectedLeaks := by
    have hfew := r.expectedLeaks_le
    have hcount : l.size = r.expectedLeaks := hsize.trans r.length_lostBlocks
    change (UInt64.ofNat l.size).toNat = _
    rw [UInt64.toNat_ofNat', hcount]
    omega
  have hbytes : r.leakedBytes.toNat = r.expectedBytes := by
    have hfew := r.expectedBytes_le
    have hcount : l.total = r.expectedBytes := htotal.trans r.sum_lostBlocks
    change (UInt64.ofNat l.total).toNat = _
    rw [UInt64.toNat_ofNat', hcount]
    omega
  have hcalls : r.calls.toNat = r.scenarios := by
    have hfew := policy.growths_le mode
    change (UInt64.ofNat (policy.growths mode)).toNat = _
    rw [UInt64.toNat_ofNat', Nat.mod_eq_of_lt (by omega)]
    exact growths_eq policy mode
  refine ⟨r, h, hrunOn, ?_, rfl, rfl, rfl, ?_, ?_, hempty⟩
  · rw [run, hrunOn]
    rfl
  · exact ⟨normal_outcomes policy mode, oom_outcomes policy mode, hcalls, hblocks, hbytes⟩
  · rw [SeamReport.matchesSubject, hblocks, beq_self_eq_true]

/-- On a heap that grows blocks in place, the buggy subject has its second growth failed and loses
the copy of one letter. -/
theorem run_reports_second_lost :
    Scenario.Granted .inPlace ∧ ∃ r, run .buggy (.failAt 2) .full .inPlace = .ok r ∧
      r.normal = some .passed ∧ r.oom = some .returnedNull ∧ r.leakedBlocks.toNat = 1 ∧
      r.leakedBytes.toNat = 2 := by
  obtain ⟨r, h, -, hrun, hsubject, -, -, htells, -, -⟩ :=
    run_reports (.failAt 2) .full Scenario.granted_inPlace .buggy
  have hnormal : r.normal = some .passed := htells.normal
  have hoom : r.oom = some .returnedNull := by
    rw [htells.oom, hnormal]
    rfl
  refine ⟨Scenario.granted_inPlace, r, hrun, hnormal, hoom, ?_, ?_⟩
  · rw [htells.leakedBlocks, SeamReport.expectedLeaks, SeamReport.failures, hsubject, hnormal, hoom]
    rfl
  · rw [htells.leakedBytes, SeamReport.expectedBytes, hsubject, hnormal, hoom]
    rfl

end Seam

end GrowthFault
