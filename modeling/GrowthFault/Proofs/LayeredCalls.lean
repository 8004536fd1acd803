import GrowthFault.Heap.Call
import GrowthFault.Proofs.SuccessfulSteps

/-!
# Calls through layers

What a call does to a stack, layer by layer.  A new block and a block given back pass every layer.
A request for another size passes the layers down to the first injector that fails it; the base
hears of it only if no injector does.
-/

namespace GrowthFault.Heap

/-- A layer behind which a block was asked for, with the answer. -/
def Layer.afterMalloc (size : Nat) (p : Pointer) : Layer → Layer
  | .injector gate => .injector gate
  | .tracker ledger => .tracker (ledger.afterMalloc size p)

def Layer.afterFree (p : Pointer) : Layer → Layer
  | .injector gate => .injector gate
  | .tracker ledger => .tracker (ledger.afterFree p)

/-- A layer that let a resizing call through, with what became of the block. -/
def Layer.afterResize (p : Pointer) (size : Nat) (outcome : Resize) : Layer → Layer
  | .injector gate => .injector gate.admit.2
  | .tracker ledger => .tracker (ledger.afterResize p size outcome)

namespace Layers

/-- The gates of the injectors, outside in. -/
def gates (layers : List Layer) : List Gate :=
  layers.filterMap fun
    | .injector gate => some gate
    | .tracker _ => none

variable {layers above below : List Layer} {base : Base} {p : Pointer} {size : Nat} {gate : Gate}
  {ledger : Ledger}

@[simp] theorem gates_nil : gates [] = [] := rfl

@[simp] theorem gates_injector : gates (.injector gate :: layers) = gate :: gates layers := rfl

@[simp] theorem gates_tracker : gates (.tracker ledger :: layers) = gates layers := rfl

@[simp] theorem gates_append : gates (above ++ below) = gates above ++ gates below :=
  List.filterMap_append

@[simp] theorem ledgers_nil : ledgers [] = [] := rfl

@[simp] theorem ledgers_injector : ledgers (.injector gate :: layers) = ledgers layers := rfl

@[simp] theorem ledgers_tracker :
    ledgers (.tracker ledger :: layers) = ledger :: ledgers layers := rfl

@[simp] theorem ledgers_append : ledgers (above ++ below) = ledgers above ++ ledgers below :=
  List.filterMap_append

theorem gateCalls_eq (layers : List Layer) : gateCalls layers = (gates layers).map Gate.calls := by
  rw [gates, List.map_filterMap, gateCalls]
  congr 1
  funext layer
  cases layer <;> rfl

theorem gates_cons (layer : Layer) (layers : List Layer) :
    gates (layer :: layers) = gates [layer] ++ gates layers := by
  rw [← gates_append, List.singleton_append]

theorem ledgers_cons (layer : Layer) (layers : List Layer) :
    ledgers (layer :: layers) = ledgers [layer] ++ ledgers layers := by
  rw [← ledgers_append, List.singleton_append]

/-- A change of every layer changes the gates as it changes the gate of each layer. -/
theorem gates_map {f : Layer → Layer} {change : Gate → Gate}
    (hf : ∀ layer, gates [f layer] = (gates [layer]).map change) (layers : List Layer) :
    gates (layers.map f) = (gates layers).map change := by
  induction layers with
  | nil => rfl
  | cons layer layers ih =>
      rw [List.map_cons, gates_cons, hf, ih, gates_cons layer layers, List.map_append]

theorem ledgers_map {f : Layer → Layer} {change : Ledger → Ledger}
    (hf : ∀ layer, ledgers [f layer] = (ledgers [layer]).map change) (layers : List Layer) :
    ledgers (layers.map f) = (ledgers layers).map change := by
  induction layers with
  | nil => rfl
  | cons layer layers ih =>
      rw [List.map_cons, ledgers_cons, hf, ih, ledgers_cons layer layers, List.map_append]

@[simp] theorem gates_afterMalloc (layers : List Layer) (size : Nat) (p : Pointer) :
    gates (layers.map (.afterMalloc size p)) = gates layers := by
  have hsame : ∀ layer, gates [Layer.afterMalloc size p layer] = (gates [layer]).map id := by
    rintro (_ | _) <;> rfl
  rw [gates_map hsame, List.map_id]

@[simp] theorem gates_afterFree (layers : List Layer) (p : Pointer) :
    gates (layers.map (.afterFree p)) = gates layers := by
  have hsame : ∀ layer, gates [Layer.afterFree p layer] = (gates [layer]).map id := by
    rintro (_ | _) <;> rfl
  rw [gates_map hsame, List.map_id]

@[simp] theorem gates_afterResize (layers : List Layer) (p : Pointer) (size : Nat)
    (outcome : Resize) :
    gates (layers.map (.afterResize p size outcome)) = (gates layers).map (fun g => g.admit.2) :=
  gates_map (by rintro (_ | _) <;> rfl) layers

@[simp] theorem ledgers_afterMalloc (layers : List Layer) (size : Nat) (p : Pointer) :
    ledgers (layers.map (.afterMalloc size p)) = (ledgers layers).map (·.afterMalloc size p) :=
  ledgers_map (by rintro (_ | _) <;> rfl) layers

@[simp] theorem ledgers_afterFree (layers : List Layer) (p : Pointer) :
    ledgers (layers.map (.afterFree p)) = (ledgers layers).map (·.afterFree p) :=
  ledgers_map (by rintro (_ | _) <;> rfl) layers

@[simp] theorem ledgers_afterResize (layers : List Layer) (p : Pointer) (size : Nat)
    (outcome : Resize) :
    ledgers (layers.map (.afterResize p size outcome)) =
      (ledgers layers).map (·.afterResize p size outcome) :=
  ledgers_map (by rintro (_ | _) <;> rfl) layers

/-! ## What a call does -/

theorem malloc_eq (layers : List Layer) (base : Base) (size : Nat) :
    malloc layers base size = ((base.malloc size).1,
      layers.map (.afterMalloc size (base.malloc size).1), (base.malloc size).2) := by
  induction layers with
  | nil => rfl
  | cons layer layers ih =>
      cases layer with
      | injector gate =>
          rw [malloc, ih]
          rfl
      | tracker ledger =>
          rw [malloc, ih]
          rfl

theorem free_eq (layers : List Layer) (base : Base) (p : Pointer) :
    free layers base p = (base.free p).map fun base => (layers.map (.afterFree p), base) := by
  induction layers with
  | nil =>
      rw [free]
      cases base.free p <;> rfl
  | cons layer layers ih =>
      cases layer with
      | injector gate =>
          rw [free, ih]
          cases base.free p <;> rfl
      | tracker ledger =>
          rw [free, ih]
          cases base.free p <;> rfl

/-- Some injector is the outermost to fail the next resizing call, or none fails it. -/
theorem exists_first_failing (layers : List Layer) :
    (∃ above gate below, layers = above ++ .injector gate :: below ∧
      (∀ g ∈ gates above, g.admit.1.fails = false) ∧ gate.admit.1.fails = true) ∨
    ∀ g ∈ gates layers, g.admit.1.fails = false := by
  induction layers with
  | nil => exact .inr nofun
  | cons layer layers ih =>
      cases layer with
      | tracker ledger =>
          rcases ih with ⟨above, gate, below, rfl, habove, hfails⟩ | hnone
          · exact .inl ⟨.tracker ledger :: above, gate, below, rfl, habove, hfails⟩
          · exact .inr hnone
      | injector outer =>
          cases houter : outer.admit.1.fails with
          | true => exact .inl ⟨[], outer, layers, rfl, nofun, houter⟩
          | false =>
              rcases ih with ⟨above, gate, below, rfl, habove, hfails⟩ | hnone
              · exact .inl ⟨.injector outer :: above, gate, below, rfl,
                  List.forall_mem_cons.2 ⟨houter, habove⟩, hfails⟩
              · exact .inr (List.forall_mem_cons.2 ⟨houter, hnone⟩)

/-- An injector fails the call; no layer below it is asked. -/
theorem resize_of_fails (habove : ∀ g ∈ gates above, g.admit.1.fails = false)
    (hfails : gate.admit.1.fails = true) :
    resize (above ++ .injector gate :: below) base p size =
      .ok (.failed, above.map (.afterResize p size .failed) ++ .injector gate.admit.2 :: below,
        base) := by
  induction above with
  | nil => simp [resize, hfails]
  | cons layer above ih =>
      cases layer with
      | tracker ledger =>
          rw [List.cons_append, resize, ih habove]
          rfl
      | injector outer =>
          obtain ⟨houter, habove⟩ := List.forall_mem_cons.1 habove
          simp only [List.cons_append, resize, houter, ih habove]
          rfl

/-- No injector fails the call, so the base decides it. -/
theorem resize_of_passes (hpasses : ∀ g ∈ gates layers, g.admit.1.fails = false) :
    resize layers base p size = (base.resize p size).map fun (outcome, base) =>
      (outcome, layers.map (.afterResize p size outcome), base) := by
  induction layers with
  | nil =>
      rw [resize]
      cases base.resize p size <;> rfl
  | cons layer layers ih =>
      cases layer with
      | tracker ledger =>
          rw [resize, ih hpasses]
          cases base.resize p size <;> rfl
      | injector gate =>
          obtain ⟨hgate, hpasses⟩ := List.forall_mem_cons.1 hpasses
          simp only [resize, hgate, ih hpasses]
          cases base.resize p size <;> rfl

/-- All the trackers see one outcome, also those below an injector that fails the call. -/
theorem spread_resize {outcome : Resize} {layers' : List Layer} {base' : Base}
    (hresize : resize layers base p size = .ok (outcome, layers', base')) :
    layers'.length = layers.length ∧
      ledgers layers' = (ledgers layers).map (·.afterResize p size outcome) := by
  rcases exists_first_failing layers with ⟨above, gate, below, rfl, habove, hfails⟩ | hpasses
  · rw [resize_of_fails habove hfails] at hresize
    cases hresize
    have hfailed (ls : List Ledger) : ls.map (·.afterResize p size .failed) = ls := List.map_id ls
    simp [hfailed]
  · rw [resize_of_passes hpasses] at hresize
    obtain ⟨result, -, ⟨⟩⟩ := map_eq_ok.1 hresize
    simp

end Layers

theorem Stack.performAll_cons_eq_ok {h h' : Stack} {c : Call} {calls : List Call}
    {answers : List Answer} (hrun : h.performAll (c :: calls) = .ok (answers, h')) :
    ∃ answer h₁ rest, h.perform c = .ok (answer, h₁) ∧
      h₁.performAll calls = .ok (rest, h') ∧ answers = answer :: rest := by
  rw [performAll] at hrun
  obtain ⟨⟨answer, h₁⟩, hperform, hrun⟩ := bind_eq_ok.1 hrun
  obtain ⟨⟨rest, h₂⟩, hrest, ⟨⟩⟩ := bind_eq_ok.1 hrun
  exact ⟨answer, h₁, rest, hperform, hrest, rfl⟩

end GrowthFault.Heap
