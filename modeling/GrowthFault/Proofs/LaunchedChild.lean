import GrowthFault.Heap.Call
import GrowthFault.Proofs.CheckerAgreement
import GrowthFault.Proofs.OrdinalReading
import GrowthFault.Proofs.SuccessfulSteps

/-!
# What a launched checker sees

A preloaded run is written down as arguments and variables, and read back by the checker and by the
library inside it.  Whatever the parent's variables are, what is read back is the run: the policy
that it is configured for, at every moment of the child, and its subject and mode.
-/

namespace GrowthFault

/-! ## The library's policy in a process -/

namespace Heap

variable {env : Environment} {h h' : Stack} {c : Call} {answer : Answer}

/-- The allocator of a process with the library, at some moment of the process. -/
structure Stack.InProcess (env : Environment) (h : Stack) : Prop where
  layers : h.layers = []
  base : ∃ sizes, h.base.Preloaded env sizes

theorem Base.Preloaded.resize {b b' : Base} {sizes : List Nat} {p : Pointer} {size : Nat}
    {outcome : Resize} (hb : b.Preloaded env sizes)
    (hresize : b.resize p size = .ok (outcome, b')) : b'.Preloaded env (sizes ++ [size]) := by
  obtain ⟨source, hcounted, hrealloc⟩ := hb.realloc p size
  rw [Base.resize, hrealloc] at hresize
  obtain ⟨answered, hanswered, ⟨⟩⟩ := bind_eq_ok.1 hresize
  split at hanswered
  · cases hanswered
    exact hcounted
  · obtain ⟨found, -, ⟨⟩⟩ := bind_eq_ok.1 hanswered
    exact hcounted.withMemory found.2

namespace Stack

theorem InProcess.start (env : Environment) (place : Placement) :
    InProcess env ⟨[], .preloaded env place⟩ where
  layers := rfl
  base := ⟨[], Base.preloaded_start env place⟩

theorem InProcess.resize {p : Pointer} {size : Nat} {outcome : Resize} (hh : h.InProcess env)
    (hresize : h.resize p size = .ok (outcome, h')) : h'.InProcess env := by
  obtain ⟨hlayers, sizes, hb⟩ := hh
  rw [Stack.resize, hlayers] at hresize
  obtain ⟨below, hbelow, ⟨⟩⟩ := bind_eq_ok.1 hresize
  obtain ⟨found, hfound, ⟨⟩⟩ := bind_eq_ok.1 hbelow
  exact ⟨rfl, sizes ++ [size], hb.resize hfound⟩

theorem InProcess.perform (hh : h.InProcess env) (hperform : h.perform c = .ok (answer, h')) :
    h'.InProcess env := by
  cases c with
  | malloc size =>
      obtain ⟨hlayers, sizes, hb⟩ := hh
      cases hperform
      simp only [hlayers, Layers.malloc, hb.malloc]
      exact ⟨rfl, sizes, hb.withMemory _⟩
  | realloc p size =>
      obtain ⟨⟨q, k⟩, hrealloc, ⟨⟩⟩ := bind_eq_ok.1 hperform
      obtain ⟨⟨outcome, k⟩, hresize, ⟨⟩⟩ := bind_eq_ok.1 hrealloc
      exact hh.resize hresize
  | resize p size =>
      obtain ⟨⟨outcome, k⟩, hresize, ⟨⟩⟩ := bind_eq_ok.1 hperform
      exact hh.resize hresize
  | free p =>
      obtain ⟨k, hfree, ⟨⟩⟩ := bind_eq_ok.1 hperform
      obtain ⟨hlayers, sizes, hb⟩ := hh
      rw [Stack.free, hlayers] at hfree
      obtain ⟨below, hbelow, ⟨⟩⟩ := bind_eq_ok.1 hfree
      obtain ⟨base, hbase, ⟨⟩⟩ := bind_eq_ok.1 hbelow
      obtain ⟨memory, -, ⟨⟩⟩ := bind_eq_ok.1 hbase
      exact ⟨rfl, sizes, hb.withMemory memory⟩

theorem InProcess.performAll {calls : List Call} {answers : List Answer} (hh : h.InProcess env)
    (hperform : h.performAll calls = .ok (answers, h')) : h'.InProcess env := by
  induction calls generalizing h answers with
  | nil =>
      cases hperform
      exact hh
  | cons c calls ih =>
      obtain ⟨⟨answer, k⟩, hfirst, hmore⟩ := bind_eq_ok.1 hperform
      obtain ⟨⟨later, k'⟩, hrest, ⟨⟩⟩ := bind_eq_ok.1 hmore
      exact ih (hh.perform hfirst) hrest

end Stack

end Heap

/-! ## The variables and the arguments -/

namespace Preload

/-- The policy that a run is configured for: without an ordinal it is the default one. -/
def policy (p : Preload) : Policy :=
  { p.failAfter.elim default Policy.failAt with trace := p.trace }

variable (p : Preload) (library : Path) (parent : Variables)

theorem lookup_launch (name : String) :
    ((p.launch library).variables parent).lookup name =
      if name = Variables.preload then some library
      else if name = Variables.trace then if p.trace then some (Bytes.ofText "1") else none
      else if name = Variables.failAfter then
        p.failAfter.map fun n => Bytes.ofChars (Decimal.digits n.toNat)
      else parent.lookup name := by
  simp only [launch, Launch.variables, List.foldl_cons, List.foldl_nil, Variables.lookup_edit]

theorem environment_launch :
    ((p.launch library).variables parent).environment =
      ⟨p.failAfter.map fun n => Bytes.ofChars (Decimal.digits n.toNat),
        if p.trace then some (Bytes.ofText "1") else none⟩ := by
  have htrace : Variables.trace ≠ Variables.preload := by decide
  have hfailAfter : Variables.failAfter ≠ Variables.preload ∧
      Variables.failAfter ≠ Variables.trace := by decide
  simp only [Variables.environment, lookup_launch, if_neg htrace, if_neg hfailAfter.1,
    if_neg hfailAfter.2, if_true]

/-- The policy is read back from its text. -/
theorem policy_launch :
    ((p.launch library).variables parent).environment.policy = p.policy := by
  have hword : Policy.parseFlag (Bytes.ofText "1") = true := by decide
  rw [environment_launch]
  unfold Environment.policy policy
  congr 1
  · cases p.failAfter with
    | none => rfl
    | some n => exact Policy.parseOrdinal_digits n
  · cases p.trace with
    | false => rfl
    | true => exact hword

/-- Whatever the parent's variables are, the library in the child finds the policy of the run, from
the first lookup on and after any calls; the checker finds the subject and the mode of the run in
its arguments.  The library is named to the loader, and no other variable is changed. -/
theorem launched_child_sees_run (p : Preload) (library : Path) (parent : Variables) :
    let l := p.launch library
    let vs := l.variables parent
    (∀ place calls answers h,
      (⟨[], .preloaded vs.environment place⟩ : Heap.Stack).performAll calls = .ok (answers, h) →
        h.base.interposedPolicy? = some p.policy) ∧
    Checker.parseArguments l.arguments = some (p.subject, p.mode) ∧
    (∀ place, Checker.process l.arguments (some vs.environment) place =
      Checker.run p.subject p.mode (.preloaded vs.environment place)) ∧
    vs.lookup Variables.preload = some library ∧
    ∀ name, name ∉ [Variables.failAfter, Variables.trace, Variables.preload] →
      vs.lookup name = parent.lookup name := by
  have harguments := Checker.parseArguments_arguments p
  refine ⟨?_, harguments, ?_, ?_, ?_⟩
  · intro place calls answers h hperform
    have hstart := Heap.Stack.InProcess.start ((p.launch library).variables parent).environment place
    obtain ⟨sizes, hb⟩ := (hstart.performAll hperform).base
    rw [hb.interposedPolicy?, policy_launch]
  · intro place
    change Checker.process p.arguments _ _ = _
    rw [Checker.process, harguments]
    rfl
  · rw [lookup_launch, if_pos rfl]
  · intro name hname
    simp only [List.mem_cons, List.not_mem_nil, or_false, not_or] at hname
    obtain ⟨hfailAfter, htrace, hpreload⟩ := hname
    rw [lookup_launch, if_neg hpreload, if_neg htrace, if_neg hfailAfter]

end Preload

end GrowthFault
