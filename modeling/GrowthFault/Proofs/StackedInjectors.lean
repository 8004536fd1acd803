import GrowthFault.Proofs.LayeredCalls
import Mathlib.Data.List.Chain

/-!
# Stacked injectors

Every injector counts the resizing calls that the injectors around it let through.  The outermost
one counts all of them, and each of the others one less than the one around it as soon as that one
has failed its call.  One injector at most fails a call; then nothing below it hears of the call,
and otherwise the base answers it.
-/

namespace GrowthFault

/-- How many of the calls that it counted a gate let through: all but the one that it failed. -/
def Gate.letThrough (g : Gate) : Nat :=
  g.calls - if g.policy.ordinal ≠ 0 ∧ g.policy.ordinal.toNat ≤ g.calls then 1 else 0

theorem Gate.letThrough_of_disarmed {g : Gate} (h : g.policy.ordinal = 0) :
    g.letThrough = g.calls := by
  simp [letThrough, h]

theorem Gate.letThrough_of_armed {g : Gate} (h : g.policy.ordinal ≠ 0) :
    g.letThrough = g.calls - if g.policy.ordinal.toNat ≤ g.calls then 1 else 0 := by
  simp [letThrough, h]

theorem Gate.letThrough_admit_of_fails {g : Gate} (hfails : g.admit.1.fails = true) :
    g.admit.2.letThrough = g.letThrough := by
  obtain ⟨harmed, hordinal⟩ := g.fails_admit_iff.1 hfails
  have hafter : g.admit.2.letThrough = g.calls + 1 - if g.policy.ordinal.toNat ≤ g.calls + 1
      then 1 else 0 := letThrough_of_armed harmed
  rw [hafter, letThrough_of_armed harmed, hordinal, if_pos (Nat.le_refl _),
    if_neg (Nat.not_succ_le_self _)]
  rfl

theorem Gate.letThrough_admit_of_passes {g : Gate} (hpasses : g.admit.1.fails = false) :
    g.admit.2.letThrough = g.letThrough + 1 := by
  by_cases harmed : g.policy.ordinal = 0
  · have hafter : g.admit.2.letThrough = g.calls + 1 := letThrough_of_disarmed harmed
    rw [hafter, letThrough_of_disarmed harmed]
  · have hafter : g.admit.2.letThrough = g.calls + 1 - if g.policy.ordinal.toNat ≤ g.calls + 1
        then 1 else 0 := letThrough_of_armed harmed
    have hother : g.policy.ordinal.toNat ≠ g.calls + 1 := by
      intro hordinal
      exact Bool.false_ne_true (hpasses.symm.trans (g.fails_admit_iff.2 ⟨harmed, hordinal⟩))
    have hpositive : g.policy.ordinal.toNat ≠ 0 := fun h => harmed (UInt64.toNat_inj.1 h)
    rw [hafter, letThrough_of_armed harmed]
    split <;> split <;> omega

namespace Heap

/-! ## Counting -/

namespace Layers

/-- The first of these gates has counted so many calls, and each of the others those that the one
before it let through. -/
def Tallied : Nat → List Gate → Prop
  | _, [] => True
  | count, g :: gs => g.calls = count ∧ Tallied g.letThrough gs

variable {count : Nat} {gs above below : List Gate} {g : Gate}

theorem tallied_fresh (hfresh : ∀ g ∈ gs, g.calls = 0) : Tallied 0 gs := by
  induction gs with
  | nil => trivial
  | cons g gs ih =>
      obtain ⟨hg, hgs⟩ := List.forall_mem_cons.1 hfresh
      have hnone : g.letThrough = 0 := by
        rw [Gate.letThrough, hg, Nat.zero_sub]
      exact ⟨hg, hnone ▸ ih hgs⟩

/-- A call that every gate lets through is counted by all. -/
theorem Tallied.passes (htallied : Tallied count gs)
    (hpasses : ∀ g ∈ gs, g.admit.1.fails = false) :
    Tallied (count + 1) (gs.map (fun g => g.admit.2)) := by
  induction gs generalizing count with
  | nil => trivial
  | cons g gs ih =>
      obtain ⟨hcount, hrest⟩ := htallied
      obtain ⟨hg, hgs⟩ := List.forall_mem_cons.1 hpasses
      refine ⟨by rw [Gate.calls_admit, hcount], ?_⟩
      rw [Gate.letThrough_admit_of_passes hg]
      exact ih hrest hgs

/-- A call that a gate fails is counted down to that gate, which lets through what it did before. -/
theorem Tallied.fails (htallied : Tallied count (above ++ g :: below))
    (habove : ∀ g ∈ above, g.admit.1.fails = false) (hfails : g.admit.1.fails = true) :
    Tallied (count + 1) (above.map (fun g => g.admit.2) ++ g.admit.2 :: below) := by
  induction above generalizing count with
  | nil =>
      obtain ⟨hcount, hrest⟩ := htallied
      refine ⟨by rw [Gate.calls_admit, hcount], ?_⟩
      rw [Gate.letThrough_admit_of_fails hfails]
      exact hrest
  | cons outer above ih =>
      obtain ⟨hcount, hrest⟩ := htallied
      obtain ⟨houter, habove⟩ := List.forall_mem_cons.1 habove
      refine ⟨by rw [Gate.calls_admit, hcount], ?_⟩
      rw [Gate.letThrough_admit_of_passes houter]
      exact ih hrest habove

theorem Tallied.isChain (htallied : Tallied count gs) :
    (∀ g ∈ gs.head?, g.calls = count) ∧
      gs.IsChain fun outer inner => inner.calls = outer.letThrough := by
  induction gs generalizing count with
  | nil => exact ⟨nofun, .nil⟩
  | cons g gs ih =>
      obtain ⟨hcount, hrest⟩ := htallied
      obtain ⟨hhead, hchain⟩ := ih hrest
      refine ⟨by simpa using hcount, List.isChain_cons.2 ⟨hhead, hchain⟩⟩

/-- How many gates fail a call, going by the gates before and after it: those that were to fail
the next call and have counted one more. -/
def failures (before after : List Gate) : Nat :=
  (before.zip after).countP fun (g, g') => g.admit.1.fails && g'.calls == g.calls + 1

theorem failures_of_passes (gs' : List Gate) (hpasses : ∀ g ∈ gs, g.admit.1.fails = false) :
    failures gs gs' = 0 := by
  rw [failures, List.countP_eq_zero]
  rintro ⟨g, g'⟩ hmem
  simp [hpasses g (List.of_mem_zip hmem).1]

theorem failures_same (gs : List Gate) : failures gs gs = 0 := by
  induction gs with
  | nil => rfl
  | cons g gs ih =>
      rw [failures] at ih ⊢
      rw [List.zip_cons_cons, List.countP_cons_of_neg (by simp), ih]

theorem failures_of_fails (habove : ∀ g ∈ above, g.admit.1.fails = false)
    (hfails : g.admit.1.fails = true) :
    failures (above ++ g :: below) (above.map (fun g => g.admit.2) ++ g.admit.2 :: below) = 1 := by
  have hlength : above.length = (above.map (fun g => g.admit.2)).length := (List.length_map _).symm
  have hpassed := failures_of_passes (above.map (fun g => g.admit.2)) habove
  have hbelow := failures_same below
  rw [failures] at hpassed hbelow ⊢
  rw [List.zip_append hlength, List.countP_append, hpassed, List.zip_cons_cons,
    List.countP_cons_of_pos (by simp [hfails]), hbelow]

end Layers

/-! ## The way of a call -/

/-- What is answered to a resizing call that an injector fails. -/
def Call.failure : Call → Answer
  | .resize _ _ => .resized .failed
  | _ => .pointer none

namespace Stack

open Layers

/-- The way of a call through a stack, and what comes of it. -/
inductive Passage (h : Stack) (c : Call) : Except Misuse (Answer × Stack) → Prop where
  /-- An injector fails the call.  The injectors above it have counted the call and let it through;
  the layers below it and the base are as they were. -/
  | failed {above below : List Layer} {gate : Gate} (hgrows : c.grows = true)
      (hlayers : h.layers = above ++ .injector gate :: below)
      (habove : ∀ g ∈ gates above, g.admit.1.fails = false)
      (hfails : gate.admit.1.fails = true) {above' : List Layer}
      (hcounted : gates above' = (gates above).map (fun g => g.admit.2)) :
      Passage h c (.ok (c.failure, ⟨above' ++ .injector gate.admit.2 :: below, h.base⟩))
  /-- The call comes to the base as it was made, and the base's answer is the answer. -/
  | answered {layers : List Layer} {base : Base} {answer : Answer}
      (hpasses : c.grows = true → ∀ g ∈ gates h.layers, g.admit.1.fails = false)
      (hanswer : perform ⟨[], h.base⟩ c = .ok (answer, ⟨[], base⟩))
      (hcounted : gates layers =
        if c.grows then (gates h.layers).map (fun g => g.admit.2) else gates h.layers) :
      Passage h c (.ok (answer, ⟨layers, base⟩))
  /-- The call comes to the base as it was made, and means nothing there. -/
  | misused {m : Misuse}
      (hpasses : c.grows = true → ∀ g ∈ gates h.layers, g.admit.1.fails = false)
      (hmisuse : perform ⟨[], h.base⟩ c = .error m) : Passage h c (.error m)

variable {h h' : Stack} {c : Call}

theorem resize_bare (base : Base) (p : Pointer) (size : Nat) :
    resize ⟨[], base⟩ p size =
      (base.resize p size).map fun (outcome, base) => (outcome, ⟨[], base⟩) := by
  rw [resize, Layers.resize]
  cases base.resize p size <;> rfl

theorem passage_malloc (h : Stack) (size : Nat) :
    h.Passage (.malloc size) (h.perform (.malloc size)) := by
  rw [perform, malloc, malloc_eq]
  refine .answered nofun ?_ (gates_afterMalloc h.layers size _)
  rw [perform, malloc, malloc_eq]
  rfl

theorem passage_free (h : Stack) (p : Pointer) : h.Passage (.free p) (h.perform (.free p)) := by
  have hbare : perform ⟨[], h.base⟩ (.free p) =
      (h.base.free p).map fun base => (.freed, ⟨[], base⟩) := by
    rw [perform, free, free_eq]
    cases h.base.free p <;> rfl
  rw [perform, free, free_eq]
  cases hbase : h.base.free p with
  | error m => exact .misused nofun (by rw [hbare, hbase]; rfl)
  | ok base =>
      exact .answered nofun (by rw [hbare, hbase]; rfl) (gates_afterFree h.layers p)

/-- A resizing call, whatever is answered for its outcome. -/
theorem passage_resize (p : Pointer) (size : Nat) (answer : Resize → Answer)
    (hgrows : c.grows = true)
    (hfailure : c.failure = answer .failed)
    (hperform : ∀ h : Stack, h.perform c =
      (h.resize p size).map fun (outcome, h) => (answer outcome, h)) :
    h.Passage c (h.perform c) := by
  have hbare := hperform ⟨[], h.base⟩
  rw [resize_bare] at hbare
  rw [hperform, resize]
  rcases exists_first_failing h.layers with
    ⟨above, gate, below, hlayers, habove, hfails⟩ | hpasses
  · have hfailed : h.Passage c _ :=
      .failed hgrows hlayers habove hfails (gates_afterResize above p size .failed)
    rw [hlayers, resize_of_fails habove hfails]
    rw [hfailure] at hfailed
    exact hfailed
  · rw [resize_of_passes hpasses]
    cases hbase : h.base.resize p size with
    | error m =>
        rw [hbase] at hbare
        exact .misused (fun _ => hpasses) hbare
    | ok result =>
        rw [hbase] at hbare
        refine .answered (fun _ => hpasses) hbare ?_
        rw [gates_afterResize, if_pos hgrows]

theorem passage (h : Stack) (c : Call) : h.Passage c (h.perform c) := by
  cases c with
  | malloc size => exact passage_malloc h size
  | free p => exact passage_free h p
  | realloc p size =>
      refine passage_resize p size (.pointer ·.pointer) rfl rfl fun h => ?_
      rw [perform, realloc]
      cases h.resize p size <;> rfl
  | resize p size =>
      refine passage_resize p size .resized rfl rfl fun h => ?_
      rw [perform]
      cases h.resize p size <;> rfl

/-- A call adds one to the tally if it asks for another size, and no policy changes. -/
theorem Passage.tallied {answer : Answer} {count : Nat}
    (hpassage : h.Passage c (.ok (answer, h'))) (htallied : Tallied count (gates h.layers)) :
    Tallied (count + if c.grows then 1 else 0) (gates h'.layers) ∧
      (gates h'.layers).map Gate.policy = (gates h.layers).map Gate.policy := by
  have hpolicy (gs : List Gate) :
      (gs.map (fun g => g.admit.2)).map Gate.policy = gs.map Gate.policy := by
    simp [List.map_map, Function.comp_def]
  cases hpassage with
  | failed hgrows hlayers habove hfails hcounted =>
      rw [hlayers, gates_append, gates_injector] at htallied
      rw [hlayers, if_pos hgrows]
      simp only [gates_append, gates_injector, hcounted]
      refine ⟨htallied.fails habove hfails, ?_⟩
      simp [hpolicy]
  | answered hpasses hanswer hcounted =>
      dsimp only
      rw [hcounted]
      split
      next hgrows => exact ⟨htallied.passes (hpasses hgrows), hpolicy _⟩
      next => exact ⟨htallied, rfl⟩

/-- Of a call that is answered, one injector at most counts a failure. -/
theorem Passage.failures_le {answer : Answer} (hpassage : h.Passage c (.ok (answer, h'))) :
    failures (gates h.layers) (gates h'.layers) ≤ 1 := by
  cases hpassage with
  | failed hgrows hlayers habove hfails hcounted =>
      rw [hlayers]
      simp only [gates_append, gates_injector, hcounted]
      exact Nat.le_of_eq (failures_of_fails habove hfails)
  | answered hpasses hanswer hcounted =>
      dsimp only
      rw [hcounted]
      split
      next hgrows =>
        rw [failures_of_passes _ (hpasses hgrows)]
        exact Nat.zero_le 1
      next =>
        rw [failures_same]
        exact Nat.zero_le 1

theorem tallied_performAll {calls : List Call} {answers : List Answer} {count : Nat}
    (htallied : Tallied count (gates h.layers)) (hrun : h.performAll calls = .ok (answers, h')) :
    Tallied (count + calls.countP Call.grows) (gates h'.layers) ∧
      (gates h'.layers).map Gate.policy = (gates h.layers).map Gate.policy := by
  induction calls generalizing h count answers with
  | nil =>
      cases hrun
      exact ⟨htallied, rfl⟩
  | cons c calls ih =>
      obtain ⟨answer, h₁, rest, hperform, hrest, -⟩ := performAll_cons_eq_ok hrun
      have hpassage := h.passage c
      rw [hperform] at hpassage
      obtain ⟨htallied₁, hpolicies₁⟩ := hpassage.tallied htallied
      obtain ⟨htallied', hpolicies'⟩ := ih htallied₁ hrest
      refine ⟨?_, hpolicies'.trans hpolicies₁⟩
      have hcount : count + (c :: calls).countP Call.grows =
          count + (if c.grows then 1 else 0) + calls.countP Call.grows := by
        rw [List.countP_cons]
        omega
      rw [hcount]
      exact htallied'

/-- After any calls through a stack whose injectors began at zero, the outermost injector has
counted the resizing calls, and each of the others as many as the one around it let through.  The
next call is failed by one injector at most, and nothing below it hears of the call; or else it
comes to the base as it was made, and the base answers it. -/
theorem injectors_stacked {calls : List Call} {answers : List Answer}
    (hfresh : ∀ g ∈ gates h.layers, g.calls = 0)
    (hrun : h.performAll calls = .ok (answers, h')) :
    (gates h'.layers).map Gate.policy = (gates h.layers).map Gate.policy ∧
    (∀ g ∈ (gates h'.layers).head?, g.calls = calls.countP Call.grows) ∧
    (gates h'.layers).IsChain (fun outer inner => inner.calls = outer.letThrough) ∧
    ∀ c, h'.Passage c (h'.perform c) ∧
      ∀ answer next, h'.perform c = .ok (answer, next) →
        failures (gates h'.layers) (gates next.layers) ≤ 1 := by
  obtain ⟨htallied, hpolicies⟩ := tallied_performAll (tallied_fresh hfresh) hrun
  rw [Nat.zero_add] at htallied
  obtain ⟨hhead, hchain⟩ := htallied.isChain
  refine ⟨hpolicies, hhead, hchain, fun c => ⟨h'.passage c, fun answer next hperform => ?_⟩⟩
  have hpassage := h'.passage c
  rw [hperform] at hpassage
  exact hpassage.failures_le

/-- Three injectors fail a call each, the innermost first; the fourth call reaches the base. -/
theorem injectors_stacked_innermost_first :
    let h : Stack := ⟨[.inject (.failAt 2), .track, .inject (.failAt 2), .inject (.failAt 1)],
      .system⟩
    let calls : List Call := [.malloc 8, .realloc (some 1) 16, .resize (some 1) 32,
      .realloc (some 1) 0, .realloc (some 1) 32, .free (some 2)]
    ∃ h', h.performAll calls = .ok ([.pointer (some 1), .pointer none, .resized .failed,
        .pointer none, .pointer (some 2), .freed], h') ∧
      gateCalls h'.layers = [4, 3, 2] ∧ (∀ g ∈ gates h.layers, g.calls = 0) ∧
      (∀ g ∈ (gates h'.layers).head?, g.calls = calls.countP Call.grows) ∧
      (gates h'.layers).IsChain (fun outer inner => inner.calls = outer.letThrough) ∧
      h'.Passage (.resize none 8) (h'.perform (.resize none 8)) := by
  intro h calls
  have hfresh : ∀ g ∈ gates h.layers, g.calls = 0 := by
    simp [h, Layer.inject, Layer.track, Gate.calls]
  obtain ⟨h', hrun, hcalls⟩ : ∃ h', h.performAll calls = .ok ([.pointer (some 1), .pointer none,
      .resized .failed, .pointer none, .pointer (some 2), .freed], h') ∧
      gateCalls h'.layers = [4, 3, 2] := ⟨_, rfl, rfl⟩
  obtain ⟨-, hhead, hchain, hnext⟩ := injectors_stacked hfresh hrun
  exact ⟨h', hrun, hcalls, hfresh, hhead, hchain, (hnext _).1⟩

end Stack

end Heap

end GrowthFault
