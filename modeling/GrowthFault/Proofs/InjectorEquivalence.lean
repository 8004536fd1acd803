import GrowthFault.Proofs.DecimalRendering
import GrowthFault.Proofs.InterposedAllocator
import GrowthFault.Proofs.LedgerExactness

/-!
# The injector and the library

An injector knows its policy from the start and counts on a gate of its own; the library reads
the policy from its environment on the first call, keeps it in fields and counts beside them.
Used alike, a heap under the one and a heap over the other cannot be told apart: `Base.injected`
is the heap on the other side, and every use that the memory permits is answered alike on both
and leaves one the other's counterpart.  Only the library reports, and only the call that it fails.
-/

namespace GrowthFault

/-- The size of the growth call that a policy fails, if there are that many. -/
def Policy.failedSize? (p : Policy) (sizes : List UInt64) : Option UInt64 :=
  if p.ordinal = 0 then none else sizes[p.ordinal.toNat - 1]?

theorem Policy.reported_eq (p : Policy) (sizes : List UInt64) :
    p.reported (sizes.map UInt64.toNat) =
      match p.failedSize? sizes with
      | some size =>
        if p.trace then Bytes.ofText (Report.text p.ordinal.toNat size.toNat) else []
      | none => [] := by
  unfold reported failedSize?
  by_cases hordinal : p.ordinal = 0
  · simp [hordinal]
  · cases hsize : sizes[p.ordinal.toNat - 1]? with
    | none => simp [hordinal, hsize]
    | some size => simp [hordinal, hsize, Report.line_eq]

namespace Heap

/-- What a program does with a heap.  A size is a word. -/
inductive Use where
  | malloc (size : UInt64)
  | realloc (p : Pointer) (size : UInt64)
  | free (p : Pointer)
  | write (a : Address) (offset : Nat) (data : Bytes)
  deriving DecidableEq, Repr

/-- The sizes of the growth calls among some uses. -/
def Use.growths : List Use → List UInt64
  | [] => []
  | .realloc _ size :: uses => size :: growths uses
  | _ :: uses => growths uses

/-- A live block, or null, is handed in, and nothing is written outside a live block. -/
def Use.Permitted (m : Memory) : Use → Prop
  | .malloc _ => True
  | .realloc p _ => Heap.Permitted m p
  | .free p => Heap.Permitted m p
  | .write a offset data => ∃ m', m.write a offset data = .ok m'

/-- What can be told of a heap after a use: the pointer that was answered, the memory, and the
growth calls counted so far. -/
structure Seen where
  answer : Pointer
  memory : Memory
  calls : List Nat

namespace Stack

/-- The growth calls that injectors have counted, or a library. -/
def growthCalls (h : Stack) : List Nat :=
  Layers.gateCalls h.layers ++ h.base.interposedCalls?.toList

def use (h : Stack) : Use → Except Misuse (Pointer × Stack)
  | .malloc size => .ok (h.malloc size.toNat)
  | .realloc p size => h.realloc p size.toNat
  | .free p => do
    let h ← h.free p
    .ok (none, h)
  | .write a offset data => do
    let h ← h.write a offset data
    .ok (none, h)

/-- Use a heap again and again; what is seen after each use, and the heap at the end. -/
def watch (h : Stack) : List Use → Except Misuse (List Seen × Stack)
  | [] => .ok ([], h)
  | u :: uses => do
    let (answer, h) ← h.use u
    let (seen, h') ← h.watch uses
    .ok (⟨answer, h.base.memory, h.growthCalls⟩ :: seen, h')

/-- Every use is permitted when it is made. -/
def Admits (h : Stack) : List Use → Prop
  | [] => True
  | u :: uses => u.Permitted h.base.memory ∧
      ∀ answer h', h.use u = .ok (answer, h') → h'.Admits uses

theorem Admits.cons {h h' : Stack} {u : Use} {uses : List Use} {answer : Pointer}
    (hu : u.Permitted h.base.memory) (huse : h.use u = .ok (answer, h'))
    (hrest : h'.Admits uses) : h.Admits (u :: uses) := by
  refine ⟨hu, ?_⟩
  intro answer' h'' huse'
  rw [huse] at huse'
  cases huse'
  exact hrest

end Stack

/-- The heap under an injector instead of over the library. -/
def Base.injected (b : Base) (policy : Policy) (calls : Nat) : Stack :=
  ⟨[.injector ⟨policy, ⟨calls⟩⟩], { b with source := .system }⟩

section Lockstep

variable {env : Environment} {sizes : List Nat} {b b' : Base} {p q : Pointer} {size calls : Nat}
  {policy : Policy} {m : Memory}

theorem realloc_bare (hbase : b.realloc p size = .ok (q, b')) :
    (⟨[], b⟩ : Stack).realloc p size = .ok (q, ⟨[], b'⟩) := by
  simp [Stack.realloc, Stack.resize, Layers.resize, Base.resize, hbase, Resize.pointer_ofAnswer,
    bind, Except.bind]

theorem realloc_injected_of_fail (hfail : policy.verdict (calls + 1) = .fail) :
    (b.injected policy calls).realloc p size = .ok (none, b.injected policy (calls + 1)) := by
  simp [Base.injected, Stack.realloc, Stack.resize, Layers.resize, Gate.admit, Counter.next,
    Admission.fails, hfail, Resize.pointer, bind, Except.bind]

theorem realloc_injected_of_forward (hforward : policy.verdict (calls + 1) ≠ .fail)
    (hmemory : b.memory.realloc b.placement p size = .ok (q, m)) :
    (b.injected policy calls).realloc p size =
      .ok (q, Base.injected { b with memory := m } policy (calls + 1)) := by
  simp [Base.injected, Stack.realloc, Stack.resize, Layers.resize, Base.resize, Base.realloc,
    Base.systemRealloc, Gate.admit, Counter.next, Admission.fails, hforward, hmemory,
    Resize.pointer_ofAnswer, bind, Except.bind]

theorem malloc_lockstep (hb : b.Preloaded env sizes) (size : Nat) :
    ∃ answer b', (⟨[], b⟩ : Stack).malloc size = (answer, ⟨[], b'⟩) ∧
      (b.injected env.policy sizes.length).malloc size =
        (answer, b'.injected env.policy sizes.length) ∧ b'.Preloaded env sizes := by
  let answer := (b.memory.malloc b.placement size).1
  let b' : Base := { b with memory := (b.memory.malloc b.placement size).2 }
  have hover : (⟨[], b⟩ : Stack).malloc size = (answer, ⟨[], b'⟩) := by
    simp only [Stack.malloc, Layers.malloc, hb.malloc, answer, b']
  exact ⟨answer, b', hover, rfl, hb.withMemory _⟩

/-- Each growth call is counted on both sides, and the same one is failed. -/
theorem realloc_lockstep (hb : b.Preloaded env sizes) (hp : Permitted b.memory p) (size : Nat) :
    ∃ answer b', (⟨[], b⟩ : Stack).realloc p size = .ok (answer, ⟨[], b'⟩) ∧
      (b.injected env.policy sizes.length).realloc p size =
        .ok (answer, b'.injected env.policy (sizes.length + 1)) ∧
      b'.Preloaded env (sizes ++ [size]) := by
  obtain ⟨source, hcounted, hrealloc⟩ := hb.realloc p size
  -- Both sides count first; the verdict comes before the memory is looked at.
  by_cases hfail : env.policy.verdict (sizes.length + 1) = .fail
  · rw [if_pos hfail] at hrealloc
    exact ⟨none, { b with source }, realloc_bare hrealloc, realloc_injected_of_fail hfail,
      hcounted⟩
  · obtain ⟨q, m, hmemory, -⟩ := describes_realloc size b.placement hp
    have hsystem : Base.systemRealloc { b with source } p size =
        .ok (q, { b with source, memory := m }) := by
      rw [Base.systemRealloc, hmemory]
      rfl
    rw [if_neg hfail, hsystem] at hrealloc
    exact ⟨q, { b with source, memory := m }, realloc_bare hrealloc,
      realloc_injected_of_forward hfail hmemory, hcounted⟩

theorem free_lockstep (hb : b.Preloaded env sizes) (hp : Permitted b.memory p) (calls : Nat) :
    ∃ b', (⟨[], b⟩ : Stack).free p = .ok ⟨[], b'⟩ ∧
      (b.injected env.policy calls).free p = .ok (b'.injected env.policy calls) ∧
      b'.Preloaded env sizes := by
  obtain ⟨m, hmemory, -⟩ := describes_free hp
  refine ⟨{ b with memory := m }, ?_, ?_, hb.withMemory m⟩
  · simp [Stack.free, Layers.free, Base.free, hmemory, bind, Except.bind]
  · simp [Base.injected, Stack.free, Layers.free, Base.free, hmemory, bind, Except.bind]

theorem write_lockstep {a : Address} {offset : Nat} {data : Bytes}
    (hmemory : b.memory.write a offset data = .ok m) (policy : Policy) (calls : Nat) :
    (⟨[], b⟩ : Stack).write a offset data = .ok ⟨[], { b with memory := m }⟩ ∧
      (b.injected policy calls).write a offset data =
        .ok (Base.injected { b with memory := m } policy calls) := by
  constructor
  · simp [Stack.write, hmemory, bind, Except.bind]
  · simp [Base.injected, Stack.write, hmemory, bind, Except.bind]

theorem Use.growths_cons (u : Use) (uses : List Use) :
    growths (u :: uses) = growths [u] ++ growths uses := by
  cases u <;> rfl

theorem use_lockstep {u : Use} (hb : b.Preloaded env sizes) (hu : u.Permitted b.memory) :
    ∃ answer b', (⟨[], b⟩ : Stack).use u = .ok (answer, ⟨[], b'⟩) ∧
      (b.injected env.policy sizes.length).use u = .ok (answer,
        b'.injected env.policy (sizes ++ (Use.growths [u]).map UInt64.toNat).length) ∧
      b'.Preloaded env (sizes ++ (Use.growths [u]).map UInt64.toNat) := by
  cases u with
  | malloc size =>
      obtain ⟨answer, b', hover, hunder, hb'⟩ := malloc_lockstep hb size.toNat
      refine ⟨answer, b', ?_, ?_, ?_⟩
      · rw [Stack.use, hover]
      · rw [Stack.use, hunder]
        simp [Use.growths]
      · simpa [Use.growths] using hb'
  | realloc p size =>
      have hp : Permitted b.memory p := hu
      obtain ⟨answer, b', hover, hunder, hb'⟩ := realloc_lockstep hb hp size.toNat
      refine ⟨answer, b', hover, ?_, hb'⟩
      rw [Stack.use, hunder]
      simp [Use.growths]
  | free p =>
      have hp : Permitted b.memory p := hu
      obtain ⟨b', hover, hunder, hb'⟩ := free_lockstep hb hp sizes.length
      refine ⟨none, b', ?_, ?_, ?_⟩
      · rw [Stack.use, hover]
        rfl
      · rw [Stack.use, hunder]
        simp [Use.growths, bind, Except.bind]
      · simpa [Use.growths] using hb'
  | write a offset data =>
      obtain ⟨m, hmemory⟩ := hu
      obtain ⟨hover, hunder⟩ := write_lockstep hmemory env.policy sizes.length
      refine ⟨none, { b with memory := m }, ?_, ?_, ?_⟩
      · rw [Stack.use, hover]
        rfl
      · rw [Stack.use, hunder]
        simp [Use.growths, bind, Except.bind]
      · simpa [Use.growths] using hb.withMemory m

theorem Stack.watch_cons {h h₁ h' : Stack} {u : Use} {uses : List Use} {answer : Pointer}
    {seen : List Seen} (huse : h.use u = .ok (answer, h₁))
    (hwatch : h₁.watch uses = .ok (seen, h')) :
    h.watch (u :: uses) = .ok (⟨answer, h₁.base.memory, h₁.growthCalls⟩ :: seen, h') := by
  simp [Stack.watch, huse, hwatch, bind, Except.bind]

theorem growthCalls_injected (b : Base) (policy : Policy) (calls : Nat) :
    (b.injected policy calls).growthCalls = [calls] := rfl

theorem growthCalls_bare (hb : b.Preloaded env sizes) :
    (⟨[], b⟩ : Stack).growthCalls = [sizes.length] := by
  rw [Stack.growthCalls, hb.interposedCalls?]
  rfl

theorem watch_lockstep {uses : List Use} (hb : b.Preloaded env sizes)
    (hadmits : (b.injected env.policy sizes.length).Admits uses) :
    ∃ seen b', (⟨[], b⟩ : Stack).watch uses = .ok (seen, ⟨[], b'⟩) ∧
      (b.injected env.policy sizes.length).watch uses = .ok (seen,
        b'.injected env.policy (sizes ++ (Use.growths uses).map UInt64.toNat).length) ∧
      b'.Preloaded env (sizes ++ (Use.growths uses).map UInt64.toNat) := by
  -- Both heaps go through the uses together, and `Preloaded` carries the sizes counted so far.
  induction uses generalizing b sizes with
  | nil =>
      refine ⟨[], b, rfl, ?_, ?_⟩
      · simp [Stack.watch, Use.growths]
      · simpa [Use.growths] using hb
  | cons u uses ih =>
      obtain ⟨hu, hrest⟩ := hadmits
      obtain ⟨answer, b₁, hover, hunder, hb₁⟩ := use_lockstep hb hu
      obtain ⟨seen, b', hovers, hunders, hb'⟩ := ih hb₁ (hrest answer _ hunder)
      -- One heap shows the count of its gate and the other that of the library.
      have hover' := Stack.watch_cons hover hovers
      have hunder' := Stack.watch_cons hunder hunders
      rw [growthCalls_bare hb₁] at hover'
      rw [growthCalls_injected] at hunder'
      rw [List.append_assoc, ← List.map_append, ← Use.growths_cons] at hunder' hb'
      exact ⟨_, b', hover', hunder', hb'⟩

end Lockstep

namespace Stack

/-- Under every environment, an injector that follows the policy of the environment and the
library started in it are seen to do the same after each permitted use; the library has reported
the call that was failed, if it was to, and nothing else. -/
theorem injector_matches_library (env : Environment) (place : Placement) (uses : List Use)
    (hadmits : Admits ⟨[.inject env.policy], { source := .system, placement := place }⟩ uses) :
    ∃ seen s t,
      watch ⟨[.inject env.policy], { source := .system, placement := place }⟩ uses =
        .ok (seen, s) ∧
      watch ⟨[], .preloaded env place⟩ uses = .ok (seen, t) ∧
      t.growthCalls = [(Use.growths uses).length] ∧
      t.base.reports? = some (
        match env.policy.failedSize? (Use.growths uses) with
        | some size =>
          if env.policy.trace then
            Bytes.ofText (Report.text env.policy.ordinal.toNat size.toNat)
          else []
        | none => []) := by
  have hstart := Base.preloaded_start env place
  obtain ⟨seen, b, hover, hunder, hb⟩ := watch_lockstep hstart hadmits
  rw [List.nil_append] at hb
  refine ⟨seen, _, ⟨[], b⟩, hunder, hover, ?_, ?_⟩
  · rw [growthCalls_bare hb, List.length_map]
  · rw [← Policy.reported_eq]
    exact hb.reports?

/-- The second growth call asks for no bytes and is failed: the block stays, and the report says
so. -/
theorem injector_matches_library_zero_size :
    let env : Environment := ⟨some (Bytes.ofText " +2x"), some (Bytes.ofText "Yes")⟩
    let uses : List Use := [.malloc 2, .write 1 0 [0x61, 0], .realloc (some 1) 8,
      .realloc (some 2) 0, .free (some 2)]
    Admits ⟨[.inject env.policy], .system⟩ uses ∧
      ∃ seen s t, watch ⟨[.inject env.policy], .system⟩ uses = .ok (seen, s) ∧
        watch ⟨[], .interposed env⟩ uses = .ok (seen, t) ∧
        seen.map Seen.answer = [some 1, none, some 2, none, none] ∧
        t.base.reports? = some (Bytes.ofText
          "failrealloc: injected realloc failure at call #2 (size 0)\n") := by
  intro env uses
  have hlive {m : Memory} (a : Address) (ha : m.live a) : Heap.Permitted m (some a) := by
    rintro _ ⟨⟩
    exact ha
  have hadmits : Admits ⟨[.inject env.policy], .system⟩ uses :=
    .cons trivial rfl <| .cons ⟨_, rfl⟩ rfl <| .cons (hlive 1 rfl) rfl <|
      .cons (hlive 2 rfl) rfl <| .cons (hlive 2 rfl) rfl trivial
  obtain ⟨seen, s, t, hunder, hover, -, hreports⟩ :=
    injector_matches_library env .above uses hadmits
  have hanswers : (watch ⟨[.inject env.policy], .system⟩ uses).map
      (fun r => r.1.map Seen.answer) = .ok [some 1, none, some 2, none, none] := rfl
  rw [show watch ⟨[.inject env.policy], .system⟩ uses = .ok (seen, s) from hunder] at hanswers
  refine ⟨hadmits, seen, s, t, hunder, hover, Except.ok.inj hanswers, ?_⟩
  have hfailed : env.policy.failedSize? (Use.growths uses) = some 0 := by decide
  have htrace : env.policy.trace = true := by decide
  have hordinal : env.policy.ordinal.toNat = 2 := by decide
  have htext : Report.text 2 0 =
      "failrealloc: injected realloc failure at call #2 (size 0)\n" := by decide
  rw [hreports, hfailed, hordinal]
  simp only [htrace, if_true, UInt64.toNat_zero, htext]

end Stack

end Heap

end GrowthFault
