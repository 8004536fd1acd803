import GrowthFault.Proofs.LayeredCalls
import Mathlib.Data.List.InsertIdx

/-!
# Trackers are transparent

A tracker put into a stack, at any place, sees the outcome of every call that reaches it and changes
none, so the stack answers as it did without.  A call that an injector fails is seen as a failure
above the injector and not at all below it, and neither changes a ledger: what a tracker knows does
not depend on where it is.
-/

namespace GrowthFault.Heap

/-! ## One more tracker -/

namespace Layers

theorem malloc_insertIdx (layers : List Layer) (base : Base) (size i : Nat) (l : Ledger) :
    malloc (layers.insertIdx i (.tracker l)) base size =
      let (p, layers, base) := malloc layers base size
      (p, layers.insertIdx i (.tracker (l.afterMalloc size p)), base) := by
  rw [malloc_eq, malloc_eq, List.map_insertIdx]
  rfl

theorem free_insertIdx (layers : List Layer) (base : Base) (p : Pointer) (i : Nat) (l : Ledger) :
    free (layers.insertIdx i (.tracker l)) base p =
      (free layers base p).map fun (layers, base) =>
        (layers.insertIdx i (.tracker (l.afterFree p)), base) := by
  rw [free_eq, free_eq, List.map_insertIdx]
  cases base.free p <;> rfl

theorem resize_insertIdx (layers : List Layer) (base : Base) (p : Pointer) (size i : Nat)
    (l : Ledger) :
    resize (layers.insertIdx i (.tracker l)) base p size =
      (resize layers base p size).map fun (outcome, layers, base) =>
        (outcome, layers.insertIdx i (.tracker (l.afterResize p size outcome)), base) := by
  induction layers generalizing i with
  | nil =>
      cases i with
      | zero =>
          rw [List.insertIdx_zero, resize]
          cases resize [] base p size <;> rfl
      | succ i =>
          rw [List.insertIdx_succ_nil, resize]
          cases base.resize p size <;> rfl
  | cons layer layers ih =>
      cases i with
      | zero =>
          rw [List.insertIdx_zero, resize]
          cases resize (layer :: layers) base p size <;> rfl
      | succ i =>
          rw [List.insertIdx_succ_cons]
          cases layer with
          | tracker ledger =>
              rw [resize, resize, ih]
              cases resize layers base p size <;> rfl
          | injector gate =>
              cases hfails : gate.admit.1.fails with
              | true => simp [resize, hfails, Except.map, Ledger.afterResize]
              | false =>
                  simp only [resize, hfails, ih]
                  cases resize layers base p size <;> rfl

@[simp] theorem gates_insertIdx (layers : List Layer) (i : Nat) (l : Ledger) :
    gates (layers.insertIdx i (.tracker l)) = gates layers := by
  induction layers generalizing i with
  | nil => cases i <;> rfl
  | cons layer layers ih =>
      cases i with
      | zero => rfl
      | succ i =>
          rw [List.insertIdx_succ_cons]
          cases layer with
          | tracker ledger => exact ih i
          | injector gate => exact congrArg (gate :: ·) (ih i)

end Layers

namespace Stack

/-- The stack with a tracker put in. -/
def withTracker (h : Stack) (i : Nat) (l : Ledger) : Stack :=
  { h with layers := h.layers.insertIdx i (.tracker l) }

/-- What a ledger becomes in a call, be its tracker wherever it may in the stack. -/
def ledgerAfter (h : Stack) (l : Ledger) : Call → Ledger
  | .malloc size => l.afterMalloc size (h.malloc size).1
  | .free p => l.afterFree p
  | .realloc p size | .resize p size =>
    match h.resize p size with
    | .ok (outcome, _) => l.afterResize p size outcome
    | .error _ => l

def ledgerAfterAll (h : Stack) (l : Ledger) : List Call → Ledger
  | [] => l
  | c :: calls =>
    match h.perform c with
    | .ok (_, h') => h'.ledgerAfterAll (h.ledgerAfter l c) calls
    | .error _ => l

theorem malloc_withTracker (h : Stack) (i : Nat) (l : Ledger) (size : Nat) :
    (h.withTracker i l).malloc size =
      let (p, h) := h.malloc size
      (p, h.withTracker i (l.afterMalloc size p)) := by
  rw [malloc, withTracker, Layers.malloc_insertIdx]
  rfl

theorem free_withTracker (h : Stack) (i : Nat) (l : Ledger) (p : Pointer) :
    (h.withTracker i l).free p = (h.free p).map (·.withTracker i (l.afterFree p)) := by
  rw [free, withTracker, Layers.free_insertIdx, free]
  cases Layers.free h.layers h.base p <;> rfl

theorem resize_withTracker (h : Stack) (i : Nat) (l : Ledger) (p : Pointer) (size : Nat) :
    (h.withTracker i l).resize p size = (h.resize p size).map fun (outcome, h) =>
      (outcome, h.withTracker i (l.afterResize p size outcome)) := by
  rw [resize, withTracker, Layers.resize_insertIdx, resize]
  cases Layers.resize h.layers h.base p size <;> rfl

/-- A call is answered as without the tracker, and does to the stack what it did without. -/
theorem perform_withTracker (h : Stack) (i : Nat) (l : Ledger) (c : Call) :
    (h.withTracker i l).perform c = (h.perform c).map fun (answer, h') =>
      (answer, h'.withTracker i (h.ledgerAfter l c)) := by
  cases c with
  | malloc size =>
      rw [perform, malloc_withTracker]
      rfl
  | free p =>
      rw [perform, free_withTracker, perform]
      cases h.free p <;> rfl
  | realloc p size =>
      rw [perform, realloc, resize_withTracker, perform, realloc, ledgerAfter]
      cases h.resize p size <;> rfl
  | resize p size =>
      rw [perform, resize_withTracker, perform, ledgerAfter]
      cases h.resize p size <;> rfl

theorem performAll_withTracker (h : Stack) (i : Nat) (l : Ledger) (calls : List Call) :
    (h.withTracker i l).performAll calls = (h.performAll calls).map fun (answers, h') =>
      (answers, h'.withTracker i (h.ledgerAfterAll l calls)) := by
  induction calls generalizing h l with
  | nil => rfl
  | cons c calls ih =>
      rw [performAll, perform_withTracker, performAll, ledgerAfterAll]
      cases h.perform c with
      | error m => rfl
      | ok result =>
          obtain ⟨answer, h'⟩ := result
          simp only [Except.map, bind, Except.bind, ih]
          cases h'.performAll calls <;> rfl

/-! ## All the trackers -/

variable {h h' : Stack} {calls : List Call} {answers : List Answer}

/-- The layers stay in their places, and every ledger becomes what the call makes of it. -/
theorem spread_perform {c : Call} {answer : Answer} (hperform : h.perform c = .ok (answer, h')) :
    h'.layers.length = h.layers.length ∧
      Layers.ledgers h'.layers = (Layers.ledgers h.layers).map (h.ledgerAfter · c) := by
  have hresized {p : Pointer} {size : Nat} {outcome : Resize} {h' : Stack}
      (hresize : h.resize p size = .ok (outcome, h')) :
      h'.layers.length = h.layers.length ∧
        Layers.ledgers h'.layers =
          (Layers.ledgers h.layers).map (·.afterResize p size outcome) := by
    obtain ⟨⟨outcome, layers, base⟩, hlayers, ⟨⟩⟩ := bind_eq_ok.1 hresize
    exact Layers.spread_resize hlayers
  cases c with
  | malloc size =>
      cases hperform
      simp [malloc, Layers.malloc_eq, ledgerAfter]
  | free p =>
      obtain ⟨h₁, hfree, ⟨⟩⟩ := bind_eq_ok.1 hperform
      obtain ⟨⟨layers, base⟩, hlayers, ⟨⟩⟩ := bind_eq_ok.1 hfree
      rw [Layers.free_eq] at hlayers
      obtain ⟨base', -, ⟨⟩⟩ := map_eq_ok.1 hlayers
      simp [ledgerAfter]
  | realloc p size =>
      obtain ⟨⟨q, h₁⟩, hrealloc, ⟨⟩⟩ := bind_eq_ok.1 hperform
      obtain ⟨⟨outcome, h₂⟩, hresize, ⟨⟩⟩ := bind_eq_ok.1 hrealloc
      simpa only [ledgerAfter, hresize] using hresized hresize
  | resize p size =>
      obtain ⟨⟨outcome, h₁⟩, hresize, ⟨⟩⟩ := bind_eq_ok.1 hperform
      simpa only [ledgerAfter, hresize] using hresized hresize

theorem spread_performAll (hrun : h.performAll calls = .ok (answers, h')) :
    h'.layers.length = h.layers.length ∧
      Layers.ledgers h'.layers = (Layers.ledgers h.layers).map (h.ledgerAfterAll · calls) := by
  induction calls generalizing h answers with
  | nil =>
      cases hrun
      exact ⟨rfl, (List.map_id _).symm⟩
  | cons c calls ih =>
      obtain ⟨answer, h₁, rest, hperform, hrest, -⟩ := performAll_cons_eq_ok hrun
      obtain ⟨hlength₁, hledgers₁⟩ := spread_perform hperform
      obtain ⟨hlength, hledgers⟩ := ih hrest
      refine ⟨hlength.trans hlength₁, ?_⟩
      simp only [hledgers, hledgers₁, List.map_map, ledgerAfterAll, hperform]
      rfl

/-! ## Taking a tracker out, and putting it elsewhere -/

def without (h : Stack) (i : Nat) : Stack :=
  { h with layers := h.layers.eraseIdx i }

/-- The stack with the tracker at one place put at another; an injector stays where it is. -/
def moveTracker (h : Stack) (i j : Nat) : Stack :=
  match h.layers[i]? with
  | some (.tracker l) => (h.without i).withTracker j l
  | _ => h

variable {i : Nat} {l : Ledger}

theorem withTracker_without (htracker : h.layers[i]? = some (.tracker l)) :
    (h.without i).withTracker i l = h := by
  obtain ⟨hi, hlayer⟩ := List.getElem?_eq_some_iff.1 htracker
  have hlayers := List.insertIdx_eraseIdx_getElem hi
  rw [hlayer] at hlayers
  rw [withTracker, without, hlayers]

theorem without_withTracker (h : Stack) (i : Nat) (l : Ledger) :
    (h.withTracker i l).without i = h := by
  rw [without, withTracker, List.eraseIdx_insertIdx_self]

theorem getElem?_withTracker (hi : i ≤ h.layers.length) :
    (h.withTracker i l).layers[i]? = some (.tracker l) := by
  rw [withTracker, List.getElem?_insertIdx_self, if_pos hi]

theorem moveTracker_withTracker (hi : i ≤ h.layers.length) (j : Nat) :
    (h.withTracker i l).moveTracker i j = h.withTracker j l := by
  rw [moveTracker, getElem?_withTracker hi]
  dsimp only
  rw [without_withTracker]

theorem gateCalls_withTracker (h : Stack) (i : Nat) (l : Ledger) :
    Layers.gateCalls (h.withTracker i l).layers = Layers.gateCalls h.layers := by
  rw [Layers.gateCalls_eq, Layers.gateCalls_eq, withTracker, Layers.gates_insertIdx]

/-- A stack with a tracker is one without it, into which the tracker was put. -/
theorem exists_withTracker_eq (htracker : h.layers[i]? = some (.tracker l)) :
    ∃ g : Stack, i ≤ g.layers.length ∧ g.withTracker i l = h := by
  obtain ⟨hi, -⟩ := List.getElem?_eq_some_iff.1 htracker
  refine ⟨h.without i, ?_, withTracker_without htracker⟩
  rw [without, List.length_eraseIdx_of_lt hi]
  omega

/-- Trackers that begin alike stay alike.  A tracker that is taken out, or put elsewhere, is missed
by no caller and by no other layer: every call is answered as before, and the stack it leads to is
the one that it led to before with the tracker taken out, or put elsewhere, there. -/
theorem trackers_transparent (h : Stack) (calls : List Call) :
    (∀ l, (∀ l' ∈ Layers.ledgers h.layers, l' = l) →
      ∀ answers h', h.performAll calls = .ok (answers, h') →
        ∃ l', Layers.ledgers h'.layers = List.replicate (Layers.ledgers h.layers).length l') ∧
    ∀ i l, h.layers[i]? = some (.tracker l) →
      (h.without i).performAll calls = (h.performAll calls).map (fun (answers, h') =>
        (answers, h'.without i)) ∧
      (∀ j, (h.moveTracker i j).performAll calls = (h.performAll calls).map (fun (answers, h') =>
        (answers, h'.moveTracker i j))) ∧
      ∀ answers h', h.performAll calls = .ok (answers, h') →
        (∃ l', h'.layers[i]? = some (.tracker l')) ∧
        Layers.gateCalls (h'.without i).layers = Layers.gateCalls h'.layers ∧
        ∀ j, Layers.gateCalls (h'.moveTracker i j).layers = Layers.gateCalls h'.layers := by
  constructor
  · intro l hsame answers h' hrun
    obtain ⟨-, hledgers⟩ := spread_performAll hrun
    refine ⟨h.ledgerAfterAll l calls, ?_⟩
    rw [hledgers, List.eq_replicate_of_mem hsame, List.map_replicate, List.length_replicate]
  · intro i l htracker
    obtain ⟨g, hi, rfl⟩ := exists_withTracker_eq htracker
    rw [without_withTracker, performAll_withTracker]
    cases hrun : g.performAll calls with
    | error m =>
        refine ⟨rfl, fun j => ?_, nofun⟩
        rw [moveTracker_withTracker hi, performAll_withTracker, hrun]
        rfl
    | ok result =>
        obtain ⟨answers, g'⟩ := result
        have hi' : i ≤ g'.layers.length := (spread_performAll hrun).1 ▸ hi
        simp only [Except.map, without_withTracker, moveTracker_withTracker hi,
          moveTracker_withTracker hi', performAll_withTracker, hrun]
        refine ⟨trivial, fun j => trivial, ?_⟩
        rintro answers' h' hrun'
        cases hrun'
        refine ⟨⟨_, getElem?_withTracker hi'⟩, ?_, fun j => ?_⟩
        · rw [without_withTracker, gateCalls_withTracker]
        · rw [moveTracker_withTracker hi', gateCalls_withTracker, gateCalls_withTracker]

/-- The injector fails a call that the lower tracker would have seen, the base fails the next, and
the call after that spoils a byte. -/
theorem trackers_transparent_scripted :
    let h : Stack := ⟨[.track, .inject (.failAt 1), .track],
      .scripted { reallocs := [1], corruptions := [(2, 0, 90)] }⟩
    let calls : List Call := [.malloc 4, .realloc (some 1) 8, .resize (some 1) 8,
      .realloc (some 1) 8]
    ∃ h', h.performAll calls =
        .ok ([.pointer (some 1), .pointer none, .resized .failed, .pointer (some 2)], h') ∧
      (∃ l, Layers.ledgers h'.layers = List.replicate 2 l) ∧
      (h.without 2).performAll calls = (h.performAll calls).map (fun (answers, h') =>
        (answers, h'.without 2)) ∧
      (h.moveTracker 0 1).performAll calls = (h.performAll calls).map (fun (answers, h') =>
        (answers, h'.moveTracker 0 1)) := by
  intro h calls
  obtain ⟨h', hrun⟩ : ∃ h', h.performAll calls = .ok ([.pointer (some 1), .pointer none,
    .resized .failed, .pointer (some 2)], h') := ⟨_, rfl⟩
  obtain ⟨halike, htracker⟩ := trackers_transparent h calls
  have hempty : ∀ l ∈ Layers.ledgers h.layers, l = .empty := by
    simp [h, Layer.inject, Layer.track]
  exact ⟨h', hrun, halike _ hempty _ _ hrun, (htracker 2 _ rfl).1, (htracker 0 _ rfl).2.1 1⟩

end Stack

end GrowthFault.Heap
