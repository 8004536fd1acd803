import GrowthFault.Proofs.AppendOutcomes
import GrowthFault.Proofs.InjectorEquivalence
import GrowthFault.Proofs.PrintedText
import GrowthFault.Seam

/-!
# Scenarios when only growth fails

A heap follows a policy when it grants every request for a new block and fails exactly the growth
call that the policy names.  The process allocator does, with the library before it or without it,
and so does the heap of a seam run.  An append makes one growth call on such a heap and answers
null exactly when that call is failed, so the policy alone decides how the scenarios go.
-/

namespace GrowthFault

open Heap

namespace Policy

def normalOutcome (p : Policy) (ordinal : Nat) : NormalOutcome :=
  if p.verdict ordinal = .fail then .returnedNull else .passed

def oomOutcome (p : Policy) (ordinal : Nat) : OomOutcome :=
  if p.verdict ordinal = .fail then .returnedNull else .succeeded "ab"

/-- How the scenarios of a mode go, each with the next growth call. -/
def outcomes (p : Policy) : Mode → Option NormalOutcome × Option OomOutcome
  | .full =>
    if p.verdict 1 = .fail then (some .returnedNull, none)
    else (some .passed, some (p.oomOutcome 2))
  | .oomOnly => (none, some (p.oomOutcome 1))

/-- The growth calls of the scenarios of a mode. -/
def growths (p : Policy) : Mode → Nat
  | .full => if p.verdict 1 = .fail then 1 else 2
  | .oomOnly => 1

theorem growths_le (p : Policy) (mode : Mode) : p.growths mode ≤ 2 := by
  cases mode with
  | full =>
      rw [growths]
      split <;> omega
  | oomOnly => exact Nat.le_succ 1

end Policy

variable {σ : Type} [Allocator σ]

/-- Heaps that have seen `n` growth calls, of which they have failed those that a policy names.
They grant every other request for a size that is granted at all. -/
structure Heap.Allocator.Follows (Good : σ → Prop) (granted : Nat → Prop) (policy : Policy)
    (seen : Nat → σ → Prop) : Prop where
  good : ∀ {n : Nat} {h : σ}, seen n h → Good h
  write : ∀ {n : Nat} {h h' : σ} {a : Address} {offset : Nat} {data : Bytes},
    seen n h → Allocator.write h a offset data = .ok h' → seen n h'
  malloc : ∀ {n : Nat} {h : σ} {size : Nat}, seen n h → granted size →
    ∃ a h', Allocator.malloc h size = (some a, h') ∧ seen n h'
  realloc : ∀ {n : Nat} {h h' : σ} {a : Address} {q : Pointer} {size : Nat},
    seen n h → 0 < size → granted size →
      Allocator.realloc h (some a) size = .ok (q, h') →
        seen (n + 1) h' ∧ (q = none ↔ policy.verdict (n + 1) = .fail)
  free : ∀ {n : Nat} {h h' : σ} {a : Address},
    seen n h → Allocator.free h (some a) = .ok h' → seen n h'

section Follows

variable {Good : σ → Prop} {granted : Nat → Prop} {policy : Policy} {seen : Nat → σ → Prop}
  {n : Nat} {h h' : σ} {s : Subject} {q : Pointer} {base addition : CString}

/-- An append makes one growth call, and answers null exactly when that is failed. -/
theorem Heap.Allocator.Follows.append (hfollows : Allocator.Follows Good granted policy seen)
    (hseen : seen n h) (hfirst : granted (base.length + 1))
    (hroom : granted (base.length + addition.length + 1))
    (happends : Subject.Appends base addition h s q h') :
    seen (n + 1) h' ∧ (q = none ↔ policy.verdict (n + 1) = .fail) := by
  obtain ⟨a, h₁, hgranted, hseen₁⟩ := hfollows.malloc hseen hfirst
  have hsize : 0 < base.length + addition.length + 1 := Nat.succ_pos _
  cases happends with
  | refused hmalloc hleft =>
      rw [hgranted] at hmalloc
      cases hmalloc
  | grown hmalloc hcopy hgrowth hbehind hleft =>
      rw [hgranted] at hmalloc
      cases hmalloc
      obtain ⟨hseen₃, hanswer⟩ :=
        hfollows.realloc (hfollows.write hseen₁ hcopy) hsize hroom hgrowth
      refine ⟨hfollows.write hseen₃ hbehind, ?_⟩
      simpa using hanswer
  | freed hmalloc hcopy hgrowth hfree hleft =>
      rw [hgranted] at hmalloc
      cases hmalloc
      obtain ⟨hseen₃, hanswer⟩ :=
        hfollows.realloc (hfollows.write hseen₁ hcopy) hsize hroom hgrowth
      exact ⟨hfollows.free hseen₃ hfree, hanswer⟩
  | lost hmalloc hcopy hgrowth hleft =>
      rw [hgranted] at hmalloc
      cases hmalloc
      exact hfollows.realloc (hfollows.write hseen₁ hcopy) hsize hroom hgrowth

namespace Scenario

/-- The sizes that the scenarios ask for: a block for the first operand, and one for the string. -/
def requests : List Nat :=
  [normalBase.length + 1, normalBase.length + normalAddition.length + 1,
    oomBase.length + 1, oomBase.length + oomAddition.length + 1]

theorem appended_follows (hcontract : Allocator.Contract σ Good)
    (hfollows : Allocator.Follows Good granted policy seen) (hseen : seen n h) (s : Subject)
    (hfirst : granted (base.length + 1)) (hroom : granted (base.length + addition.length + 1)) :
    ∃ h', appended s h base addition =
        .ok (if policy.verdict (n + 1) = .fail then none else some (base.bytes ++ addition.bytes),
          h') ∧
      seen (n + 1) h' := by
  obtain ⟨q, h', happends, hgood'⟩ :=
    Subject.exists_appends hcontract (hfollows.good hseen) s base addition
  obtain ⟨hseen', hanswer⟩ := hfollows.append hseen hfirst hroom happends
  cases q with
  | none =>
      have hcarry := Subject.carryOut_of_null happends .drop
      refine ⟨h', ?_, hseen'⟩
      rw [if_pos (hanswer.1 rfl), appended]
      simp [hcarry, bind, Except.bind]
  | some b =>
      obtain ⟨h'', hcarry, hfree, -⟩ := Subject.carryOut_of_block hcontract hgood' happends .drop
      have hforward : ¬ policy.verdict (n + 1) = .fail := by
        intro hfail
        cases hanswer.2 hfail
      refine ⟨h'', ?_, hfollows.free hseen' hfree⟩
      rw [if_neg hforward, appended]
      simp [hcarry, bind, Except.bind]

theorem checkNormal_follows (hcontract : Allocator.Contract σ Good)
    (hfollows : Allocator.Follows Good granted policy seen)
    (hgranted : ∀ size ∈ requests, granted size) (hseen : seen n h) (s : Subject) :
    ∃ h', checkNormal s h = .ok (policy.normalOutcome (n + 1), h') ∧ seen (n + 1) h' := by
  have hfirst := hgranted (normalBase.length + 1) (by simp [requests])
  have hroom := hgranted (normalBase.length + normalAddition.length + 1) (by simp [requests])
  have hwhole : normalBase.bytes ++ normalAddition.bytes = Bytes.ofText normalExpected := by decide
  obtain ⟨h', happended, hseen'⟩ := appended_follows hcontract hfollows hseen s hfirst hroom
  refine ⟨h', ?_, hseen'⟩
  unfold checkNormal Policy.normalOutcome
  rw [happended, hwhole]
  split <;> rfl

theorem checkOom_follows (hcontract : Allocator.Contract σ Good)
    (hfollows : Allocator.Follows Good granted policy seen)
    (hgranted : ∀ size ∈ requests, granted size) (hseen : seen n h) (s : Subject) :
    ∃ h', checkOom s h = .ok (policy.oomOutcome (n + 1), h') ∧ seen (n + 1) h' := by
  have hfirst := hgranted (oomBase.length + 1) (by simp [requests])
  have hroom := hgranted (oomBase.length + oomAddition.length + 1) (by simp [requests])
  have hwhole : oomBase.bytes ++ oomAddition.bytes = Bytes.ofText "ab" := by decide
  obtain ⟨h', happended, hseen'⟩ := appended_follows hcontract hfollows hseen s hfirst hroom
  refine ⟨h', ?_, hseen'⟩
  unfold checkOom Policy.oomOutcome
  rw [happended, hwhole]
  split
  next => rfl
  next => simp [judgeOom, bind, Except.bind]

/-- From the first growth call on, the policy decides which scenarios run and how they end. -/
theorem runMode_follows (hcontract : Allocator.Contract σ Good)
    (hfollows : Allocator.Follows Good granted policy seen)
    (hgranted : ∀ size ∈ requests, granted size) (hseen : seen 0 h) (s : Subject)
    (mode : Mode) :
    ∃ h', runMode s mode h = .ok (policy.outcomes mode, h') ∧ seen (policy.growths mode) h' := by
  cases mode with
  | oomOnly =>
      obtain ⟨h', hoom, hseen'⟩ := checkOom_follows hcontract hfollows hgranted hseen s
      refine ⟨h', ?_, hseen'⟩
      simp [runMode, Mode.runsNormal, hoom, bind, Except.bind, Policy.outcomes]
  | full =>
      obtain ⟨h₁, hnormal, hseen₁⟩ := checkNormal_follows hcontract hfollows hgranted hseen s
      by_cases hfail : policy.verdict 1 = .fail
      · refine ⟨h₁, ?_, ?_⟩
        · simp [runMode, Mode.runsNormal, hnormal, bind, Except.bind, Policy.outcomes,
            Policy.normalOutcome, NormalOutcome.hasPassed, hfail]
        · simpa [Policy.growths, hfail] using hseen₁
      · -- The second scenario goes on with the heap that the first left: its growth call is the
        -- second one.
        obtain ⟨h₂, hoom, hseen₂⟩ := checkOom_follows hcontract hfollows hgranted hseen₁ s
        refine ⟨h₂, ?_, ?_⟩
        · simp [runMode, Mode.runsNormal, hnormal, hoom, bind, Except.bind, Policy.outcomes,
            Policy.normalOutcome, NormalOutcome.hasPassed, hfail]
        · simpa [Policy.growths, hfail] using hseen₂

end Scenario

end Follows

/-- A request for this size is never refused. -/
def Placement.Grants (place : Placement) (size : Nat) : Prop :=
  ∀ m, place.refuses m size = false

/-- Above the live blocks there is room for every size that is not absurd. -/
theorem Placement.grants_above (size : Nat) (hsize : size < Memory.limit) :
    Placement.above.Grants size := by
  intro m
  have hgranted : ¬ Memory.limit ≤ size := by omega
  simp [Placement.above, hgranted]

/-- Whatever the scenarios ask for is never refused. -/
def Scenario.Granted (place : Placement) : Prop :=
  ∀ size ∈ requests, place.Grants size

theorem Scenario.granted_above : Granted .above := by
  have hsmall : ∀ size ∈ requests, size < Memory.limit := by decide
  intro size hsize
  exact Placement.grants_above size (hsmall size hsize)

theorem Scenario.granted_inPlace : Granted .inPlace :=
  granted_above

namespace Heap

variable {m m' : Memory} {place : Placement} {p q : Pointer} {a : Address} {size n : Nat}
  {l : Ledger} {b b' : Base} {h h' : Stack} {env : Environment} {policy : Policy}

theorem permitted_of_realloc (hrealloc : m.realloc place p size = .ok (q, m')) :
    Permitted m p := by
  rintro a rfl
  cases hblock : m.block? a with
  | none => simp [Memory.realloc, hblock] at hrealloc
  | some bytes => simp [Memory.live, hblock]

theorem permitted_of_free (hfree : m.free p = .ok m') : Permitted m p := by
  rintro a rfl
  by_cases hlive : m.live a
  · exact hlive
  · simp [Memory.free, hlive] at hfree

theorem malloc_granted (m : Memory) (hgrants : place.Grants size) :
    m.malloc place size =
      (some (place.site m size), ⟨m.blocks.insert (place.site m size) (Memory.zeros size)⟩) := by
  simp [Memory.malloc, hgrants m]

theorem realloc_granted (hpositive : 0 < size) (hgrants : place.Grants size)
    (hrealloc : m.realloc place (some a) size = .ok (q, m')) : q ≠ none := by
  have hne : size ≠ 0 := by omega
  cases hblock : m.block? a with
  | none => simp [Memory.realloc, hblock] at hrealloc
  | some bytes =>
      simp only [Memory.realloc, hblock, hne, if_false, hgrants m, Bool.false_eq_true] at hrealloc
      cases hrealloc
      simp

theorem Ledger.Exact.afterWrite {offset : Nat} {data : Bytes} (hexact : l.Exact m)
    (hwrite : m.write a offset data = .ok m') : l.Exact m' := by
  intro c
  cases hblock : m.block? a with
  | none => simp [Memory.write, hblock] at hwrite
  | some old =>
      have hroom : offset + data.length ≤ old.length := by
        by_contra hroom
        simp [Memory.write, hblock, hroom] at hwrite
      rw [hexact c, Memory.block?_write hblock hwrite]
      split
      next hc => simp [hc, hblock, Memory.length_overwrite hroom]
      next => rfl

theorem Stack.write_eq {offset : Nat} {data : Bytes}
    (hwrite : Allocator.write h a offset data = .ok h') :
    ∃ m, h.base.memory.write a offset data = .ok m ∧
      h' = ⟨h.layers, { h.base with memory := m }⟩ := by
  have hmemory : Allocator.memory h = h.base.memory := rfl
  rw [Allocator.write, hmemory] at hwrite
  cases hm : h.base.memory.write a offset data with
  | error fault => simp [hm, bind, Except.bind] at hwrite
  | ok m =>
      simp only [hm, bind, Except.bind, Except.ok.injEq] at hwrite
      exact ⟨m, rfl, hwrite.symm⟩

/-! ## The process allocator -/

theorem systemRealloc_eq (hrealloc : b.systemRealloc p size = .ok (q, b')) :
    ∃ m, b.memory.realloc b.placement p size = .ok (q, m) ∧ b' = { b with memory := m } := by
  unfold Base.systemRealloc at hrealloc
  rcases hmemory : b.memory.realloc b.placement p size with fault | ⟨q', m⟩
  · simp [hmemory, bind, Except.bind] at hrealloc
  · simp only [hmemory, bind, Except.bind] at hrealloc
    cases hrealloc
    exact ⟨m, rfl, rfl⟩

theorem realloc_bare_eq (hrealloc : (⟨[], b⟩ : Stack).realloc p size = .ok (q, h)) :
    ∃ b', b.realloc p size = .ok (q, b') ∧ h = ⟨[], b'⟩ := by
  rcases hbase : b.realloc p size with fault | ⟨q', b'⟩
  · simp [Stack.realloc, Stack.resize, Layers.resize, Base.resize, hbase, bind, Except.bind]
      at hrealloc
  · rw [realloc_bare hbase] at hrealloc
    cases hrealloc
    exact ⟨b', rfl, rfl⟩

theorem free_bare_eq (hfree : (⟨[], b⟩ : Stack).free p = .ok h) :
    ∃ m, b.memory.free p = .ok m ∧ h = ⟨[], { b with memory := m }⟩ := by
  unfold Stack.free Layers.free Base.free at hfree
  rcases hmemory : b.memory.free p with fault | m
  · simp [hmemory, bind, Except.bind] at hfree
  · simp only [hmemory, bind, Except.bind] at hfree
    cases hfree
    exact ⟨m, rfl, rfl⟩

/-- Base allocators that have seen `n` growth calls, of which they have failed those that a policy
names. -/
structure Base.Follows (policy : Policy) (seen : Nat → Base → Prop) : Prop where
  honest : ∀ {n : Nat} {b : Base}, seen n b → b.source.Honest
  memory : ∀ {n : Nat} {b : Base}, seen n b → ∀ m, seen n { b with memory := m }
  malloc : ∀ {n : Nat} {b : Base}, seen n b → ∀ size,
    b.malloc size = ((b.memory.malloc b.placement size).1,
      { b with memory := (b.memory.malloc b.placement size).2 })
  realloc : ∀ {n : Nat} {b : Base}, seen n b → ∀ p size,
    ∃ source, seen (n + 1) { b with source } ∧
      b.realloc p size =
        if policy.verdict (n + 1) = .fail then .ok (none, { b with source })
        else { b with source }.systemRealloc p size

theorem Base.realloc_of_system (hsource : b.source = .system) (p : Pointer) (size : Nat) :
    b.realloc p size = b.systemRealloc p size := by
  simp [Base.realloc, hsource]

theorem Base.follows_system :
    Base.Follows .disabled fun _ b => b.source = .system where
  honest := by
    rintro n b hsource
    rw [hsource]
    trivial
  memory hsource _ := hsource
  malloc hsource size := Base.malloc_of_system hsource size
  realloc := by
    intro n b hsource p size
    refine ⟨b.source, hsource, ?_⟩
    rw [Policy.verdict_disabled, if_neg (by decide), Base.realloc_of_system hsource]

theorem Base.follows_preloaded (env : Environment) :
    Base.Follows env.policy fun n b =>
      ∃ sizes : List Nat, sizes.length = n ∧ b.Preloaded env sizes where
  honest := by
    rintro n b ⟨sizes, -, process, hsource, -⟩
    rw [hsource]
    trivial
  memory := by
    rintro n b ⟨sizes, hlength, hb⟩ m
    exact ⟨sizes, hlength, hb.withMemory m⟩
  malloc := by
    rintro n b ⟨sizes, -, hb⟩ size
    exact hb.malloc size
  realloc := by
    rintro n b ⟨sizes, rfl, hb⟩ p size
    obtain ⟨source, hcounted, hrealloc⟩ := hb.realloc p size
    refine ⟨source, ⟨sizes ++ [size], ?_, hcounted⟩, hrealloc⟩
    rw [List.length_append]
    rfl

/-- A base allocator without layers. -/
structure Stack.Bare (place : Placement) (seen : Nat → Base → Prop) (n : Nat) (h : Stack) :
    Prop where
  layers : h.layers = []
  place : h.base.placement = place
  base : seen n h.base

theorem Stack.follows_bare {seen : Nat → Base → Prop} (place : Placement)
    (hfollows : Base.Follows policy seen) :
    Allocator.Follows (fun h : Stack => h.base.source.Honest) place.Grants policy
      (Stack.Bare place seen) where
  good hseen := hfollows.honest hseen.base
  write := by
    intro n h h' a offset data hseen hwrite
    obtain ⟨m, -, rfl⟩ := write_eq hwrite
    exact ⟨hseen.layers, hseen.place, hfollows.memory hseen.base m⟩
  malloc := by
    rintro n ⟨layers, b⟩ size ⟨hlayers, hplace, hseen⟩ hgrants
    obtain rfl : layers = [] := hlayers
    let a := place.site b.memory size
    let m : Memory := ⟨b.memory.blocks.insert a (Memory.zeros size)⟩
    have hmalloc : b.malloc size = (some a, { b with memory := m }) := by
      rw [hfollows.malloc hseen, show b.placement = place from hplace,
        malloc_granted b.memory hgrants]
    refine ⟨a, ⟨[], { b with memory := m }⟩, ?_, rfl, hplace, hfollows.memory hseen m⟩
    change Stack.malloc ⟨[], b⟩ size = _
    rw [Stack.malloc, Layers.malloc, hmalloc]
  realloc := by
    rintro n ⟨layers, b⟩ h' a q size ⟨hlayers, hplace, hseen⟩ hpositive hgrants hrealloc
    obtain rfl : layers = [] := hlayers
    obtain ⟨source, hseen', hbase⟩ := hfollows.realloc hseen (some a) size
    obtain ⟨b', hb', rfl⟩ := realloc_bare_eq hrealloc
    rw [hbase] at hb'
    by_cases hfail : policy.verdict (n + 1) = .fail
    · rw [if_pos hfail] at hb'
      cases hb'
      exact ⟨⟨rfl, hplace, hseen'⟩, iff_of_true rfl hfail⟩
    · rw [if_neg hfail] at hb'
      obtain ⟨m, hmemory, rfl⟩ := systemRealloc_eq hb'
      rw [show Base.placement { b with source } = place from hplace] at hmemory
      have hgranted : q ≠ none := realloc_granted hpositive hgrants hmemory
      exact ⟨⟨rfl, hplace, hfollows.memory hseen' m⟩, iff_of_false hgranted hfail⟩
  free := by
    rintro n ⟨layers, b⟩ h' a ⟨hlayers, hplace, hseen⟩ hfree
    obtain rfl : layers = [] := hlayers
    obtain ⟨m, -, rfl⟩ := free_bare_eq hfree
    exact ⟨rfl, hplace, hfollows.memory hseen m⟩

/-! ## The heap of a seam run -/

/-- A tracker with an exact ledger over an injector over the process allocator. -/
structure Stack.Seamed (place : Placement) (policy : Policy) (n : Nat) (h : Stack) : Prop where
  source : h.base.source = .system
  place : h.base.placement = place
  layers : ∃ l : Ledger, h.layers = [.tracker l, .injector ⟨policy, ⟨n⟩⟩] ∧ l.Exact h.base.memory

theorem realloc_seamed_of_fail (hfail : policy.verdict (n + 1) = .fail) :
    (⟨[.tracker l, .injector ⟨policy, ⟨n⟩⟩], b⟩ : Stack).realloc p size =
      .ok (none, ⟨[.tracker l, .injector ⟨policy, ⟨n + 1⟩⟩], b⟩) := by
  simp [Stack.realloc, Stack.resize, Layers.resize, Gate.admit, Counter.next, Admission.fails,
    hfail, Resize.pointer, Ledger.afterResize, bind, Except.bind]

theorem realloc_seamed_of_forward (hforward : policy.verdict (n + 1) ≠ .fail)
    (hrealloc : (⟨[.tracker l, .injector ⟨policy, ⟨n⟩⟩], b⟩ : Stack).realloc p size =
      .ok (q, h)) :
    ∃ b', b.realloc p size = .ok (q, b') ∧
      h = ⟨[.tracker (l.afterResize p size (.ofAnswer p size q)),
        .injector ⟨policy, ⟨n + 1⟩⟩], b'⟩ := by
  rcases hbase : b.realloc p size with fault | ⟨q', b'⟩
  · simp [Stack.realloc, Stack.resize, Layers.resize, Base.resize, Gate.admit, Counter.next,
      Admission.fails, hforward, hbase, bind, Except.bind] at hrealloc
  · simp only [Stack.realloc, Stack.resize, Layers.resize, Base.resize, Gate.admit, Counter.next,
      Admission.fails, hforward, hbase, Resize.pointer_ofAnswer, bind, Except.bind, beq_iff_eq,
      if_false] at hrealloc
    cases hrealloc
    exact ⟨b', rfl, rfl⟩

theorem free_seamed (hfree : (⟨[.tracker l, .injector ⟨policy, ⟨n⟩⟩], b⟩ : Stack).free p = .ok h) :
    ∃ m, b.memory.free p = .ok m ∧
      h = ⟨[.tracker (l.afterFree p), .injector ⟨policy, ⟨n⟩⟩], { b with memory := m }⟩ := by
  rcases hmemory : b.memory.free p with fault | m
  · simp [Stack.free, Layers.free, Base.free, hmemory, bind, Except.bind] at hfree
  · simp only [Stack.free, Layers.free, Base.free, hmemory, bind, Except.bind] at hfree
    cases hfree
    exact ⟨m, rfl, rfl⟩

theorem Stack.follows_seamed (place : Placement) (policy : Policy) :
    Allocator.Follows (fun h : Stack => h.base.source.Honest) place.Grants policy
      (Stack.Seamed place policy) where
  good := by
    intro n h hseen
    rw [hseen.source]
    trivial
  write := by
    rintro n h h' a offset data ⟨hsource, hplace, l, hlayers, hexact⟩ hwrite
    obtain ⟨m, hmemory, rfl⟩ := write_eq hwrite
    exact ⟨hsource, hplace, l, hlayers, hexact.afterWrite hmemory⟩
  malloc := by
    rintro n ⟨layers, b⟩ size ⟨hsource, hplace, l, hlayers, hexact⟩ hgrants
    obtain rfl : layers = _ := hlayers
    let a := place.site b.memory size
    let m : Memory := ⟨b.memory.blocks.insert a (Memory.zeros size)⟩
    have hmemory := malloc_granted b.memory hgrants
    have hmalloc : b.malloc size = (some a, { b with memory := m }) := by
      rw [Base.malloc_of_system hsource, show b.placement = place from hplace, hmemory]
    have hdescribes := describes_malloc b.memory place size
    rw [hmemory] at hdescribes
    refine ⟨a, ⟨[.tracker (l.insert a size), .injector ⟨policy, ⟨n⟩⟩],
      { b with memory := m }⟩, ?_, hsource, hplace, _, rfl, hexact.afterResize hdescribes⟩
    change Stack.malloc _ size = _
    simp only [Stack.malloc, Layers.malloc, hmalloc]
    rfl
  realloc := by
    rintro n ⟨layers, b⟩ h' a q size ⟨hsource, hplace, l, hlayers, hexact⟩ hpositive hgrants
      hrealloc
    obtain rfl : layers = _ := hlayers
    change Stack.realloc _ _ _ = _ at hrealloc
    -- A failed call stops at the injector, which tells the tracker so; the ledger stays as it is.
    by_cases hfail : policy.verdict (n + 1) = .fail
    · rw [realloc_seamed_of_fail hfail] at hrealloc
      cases hrealloc
      exact ⟨⟨hsource, hplace, l, rfl, hexact⟩, iff_of_true rfl hfail⟩
    · obtain ⟨b', hbase, rfl⟩ := realloc_seamed_of_forward hfail hrealloc
      rw [Base.realloc_of_system hsource] at hbase
      obtain ⟨m, hmemory, rfl⟩ := systemRealloc_eq hbase
      obtain ⟨q', m', hmemory', hdescribes⟩ :=
        describes_realloc size b.placement (permitted_of_realloc hmemory)
      rw [hmemory] at hmemory'
      cases hmemory'
      rw [show b.placement = place from hplace] at hmemory
      have hgranted : q ≠ none := realloc_granted hpositive hgrants hmemory
      exact ⟨⟨hsource, hplace, _, rfl, hexact.afterResize hdescribes⟩, iff_of_false hgranted hfail⟩
  free := by
    rintro n ⟨layers, b⟩ h' a ⟨hsource, hplace, l, hlayers, hexact⟩ hfree
    obtain rfl : layers = _ := hlayers
    obtain ⟨m, hmemory, rfl⟩ := free_seamed hfree
    obtain ⟨m', hmemory', hblock⟩ := describes_free (permitted_of_free hmemory)
    rw [hmemory] at hmemory'
    cases hmemory'
    exact ⟨hsource, hplace, _, rfl, hexact.afterFree hblock⟩

end Heap

namespace Seam

open Heap

/-- The policy alone decides what a seam run reports of the scenarios and of the growth calls. -/
theorem run_follows {place : Placement} (hgranted : Scenario.Granted place) (subject : Subject)
    (policy : Policy) (mode : Mode) :
    ∃ report, run subject policy mode place = .ok report ∧
      report.normal = (policy.outcomes mode).1 ∧ report.oom = (policy.outcomes mode).2 ∧
      report.calls = UInt64.ofNat (policy.growths mode) ∧ report.failAfter = policy.ordinal := by
  have hstart : Stack.Seamed place policy 0 (heap policy place) :=
    ⟨rfl, rfl, .empty, rfl, fun _ => rfl⟩
  obtain ⟨h, hrun, hsource, hplace, l, hlayers, hexact⟩ :=
    Scenario.runMode_follows Stack.contract (Stack.follows_seamed place policy)
      hgranted hstart subject mode
  have hledgers : ∀ l' ∈ Layers.ledgers h.layers, l'.Exact h.base.memory := by
    intro l' hl'
    rw [hlayers] at hl'
    obtain rfl : l' = l := by simpa [Layers.ledgers] using hl'
    exact hexact
  have htracker : (Layers.ledger? h.layers).isSome := by
    rw [hlayers]
    rfl
  obtain ⟨freed, layers, base, hrelease, -⟩ := Layers.release_spec hledgers htracker
  have hgates : (Layers.gateCalls h.layers).foldl (· + ·) 0 = policy.growths mode := by
    rw [hlayers]
    exact Nat.zero_add _
  have hreleased : h.release = .ok (some freed.length, ⟨layers, base⟩) := by
    rw [Stack.release, hrelease]
    rfl
  let report : SeamReport :=
    { subject, mode, failAfter := policy.ordinal, normal := (policy.outcomes mode).1
      oom := (policy.outcomes mode).2, calls := UInt64.ofNat (policy.growths mode)
      leakedBlocks := UInt64.ofNat (h.ledger?.getD .empty).size
      leakedBytes := UInt64.ofNat (h.ledger?.getD .empty).total }
  refine ⟨report, ?_, rfl, rfl, rfl, rfl⟩
  simp only [run, runOn, hrun, hreleased, hgates, bind, Except.bind, report]

end Seam

/-- A seam run meets a failure if the policy names one of its growth calls, and no other. -/
theorem SeamReport.failures_eq_one_iff {r : SeamReport} {p : Policy} {mode : Mode}
    (hnormal : r.normal = (p.outcomes mode).1) (hoom : r.oom = (p.outcomes mode).2) :
    r.failures = 1 ↔ p.ordinal ≠ 0 ∧ p.ordinal.toNat ≤ p.growths mode := by
  have hfirst : p.verdict 1 = .fail ↔ p.ordinal ≠ 0 ∧ p.ordinal.toNat = 1 :=
    Policy.verdict_eq_fail_iff
  have hsecond : p.verdict 2 = .fail ↔ p.ordinal ≠ 0 ∧ p.ordinal.toNat = 2 :=
    Policy.verdict_eq_fail_iff
  unfold failures
  rw [hnormal, hoom]
  -- The number of growth calls depends on how the first scenario ended, so the cases are the runs.
  rw [Policy.ordinal_ne_zero_iff] at hfirst hsecond ⊢
  cases mode with
  | full =>
      by_cases hfail : p.verdict 1 = .fail
      · have hordinal := hfirst.1 hfail
        simp [Policy.outcomes, Policy.growths, hfail]
        omega
      · by_cases hfail' : p.verdict 2 = .fail
        · have hordinal := hsecond.1 hfail'
          simp [Policy.outcomes, Policy.oomOutcome, Policy.growths, hfail, hfail']
          omega
        · have hnot := mt hfirst.2 hfail
          have hnot' := mt hsecond.2 hfail'
          simp [Policy.outcomes, Policy.oomOutcome, Policy.growths, hfail, hfail']
          omega
  | oomOnly =>
      by_cases hfail : p.verdict 1 = .fail
      · have hordinal := hfirst.1 hfail
        simp [Policy.outcomes, Policy.oomOutcome, Policy.growths, hfail]
        omega
      · have hnot := mt hfirst.2 hfail
        simp [Policy.outcomes, Policy.oomOutcome, Policy.growths, hfail]
        omega

end GrowthFault
