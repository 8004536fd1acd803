import GrowthFault.Heap.Base

/-!
# Heap stacks

A heap is a base allocator under layers.  An injector counts the resizing calls on a gate of its
own and fails the configured one before any layer below sees it.  A tracker keeps a ledger of the
blocks that the heap below has handed out, so that blocks whose last pointer was dropped can be
counted and given back.
-/

namespace GrowthFault.Heap

abbrev Ledger := Table Nat

namespace Ledger

def afterMalloc (l : Ledger) (size : Nat) : Pointer → Ledger
  | some a => l.insert a size
  | none => l

def afterFree (l : Ledger) : Pointer → Ledger
  | some a => l.erase a
  | none => l

def afterResize (l : Ledger) (p : Pointer) (size : Nat) : Resize → Ledger
  | .moved b => (l.afterFree p).insert b size
  | .released => l.afterFree p
  | .failed => l

theorem get?_afterMalloc (l : Ledger) (size : Nat) (a b : Address) :
    (l.afterMalloc size (some a)).get? b = if b = a then some size else l.get? b :=
  Table.get?_insert l a size b

theorem get?_afterFree (l : Ledger) (a b : Address) :
    (l.afterFree (some a)).get? b = if b = a then none else l.get? b :=
  Table.get?_erase l a b

def total (l : Ledger) : Nat :=
  l.entries.foldr (fun e n => e.2 + n) 0

end Ledger

inductive Layer where
  | injector (gate : Gate)
  | tracker (ledger : Ledger)

def Layer.inject (policy : Policy) : Layer := .injector { policy }

def Layer.track : Layer := .tracker .empty

/-- A base allocator under layers, the outermost first. -/
structure Stack where
  layers : List Layer
  base : Base

namespace Layers

def malloc : List Layer → Base → Nat → Pointer × List Layer × Base
  | [], base, size =>
    let (p, base) := base.malloc size
    (p, [], base)
  | .injector gate :: layers, base, size =>
    let (p, layers, base) := malloc layers base size
    (p, .injector gate :: layers, base)
  | .tracker ledger :: layers, base, size =>
    let (p, layers, base) := malloc layers base size
    (p, .tracker (ledger.afterMalloc size p) :: layers, base)

/-- Resize a block, and say what became of it. -/
def resize : List Layer → Base → Pointer → Nat → Except Misuse (Resize × List Layer × Base)
  | [], base, p, size => do
    let (outcome, base) ← base.resize p size
    .ok (outcome, [], base)
  | .injector gate :: layers, base, p, size =>
    let (admission, gate) := gate.admit
    if admission.fails then .ok (.failed, .injector gate :: layers, base)
    else do
      let (outcome, layers, base) ← resize layers base p size
      .ok (outcome, .injector gate :: layers, base)
  | .tracker ledger :: layers, base, p, size => do
    let (outcome, layers, base) ← resize layers base p size
    .ok (outcome, .tracker (ledger.afterResize p size outcome) :: layers, base)

def free : List Layer → Base → Pointer → Except Misuse (List Layer × Base)
  | [], base, p => do
    let base ← base.free p
    .ok ([], base)
  | .injector gate :: layers, base, p => do
    let (layers, base) ← free layers base p
    .ok (.injector gate :: layers, base)
  | .tracker ledger :: layers, base, p => do
    let (layers, base) ← free layers base p
    .ok (.tracker (ledger.afterFree p) :: layers, base)

def freeAll : List Layer → Base → List Address → Except Misuse (List Layer × Base)
  | layers, base, [] => .ok (layers, base)
  | layers, base, a :: rest => do
    let (layers, base) ← free layers base (some a)
    freeAll layers base rest

/-- Give back every block in the ledger of the outermost tracker, and say how many they were. -/
def release : List Layer → Base → Except Misuse (Option Nat × List Layer × Base)
  | [], base => .ok (none, [], base)
  | .injector gate :: layers, base => do
    let (count, layers, base) ← release layers base
    .ok (count, .injector gate :: layers, base)
  | .tracker ledger :: layers, base => do
    let (layers, base) ← freeAll layers base ledger.addresses
    .ok (some ledger.size, .tracker .empty :: layers, base)

def ledger? : List Layer → Option Ledger
  | [] => none
  | .injector _ :: layers => ledger? layers
  | .tracker ledger :: _ => some ledger

/-- The calls that the injectors have counted, outside in. -/
def gateCalls (layers : List Layer) : List Nat :=
  layers.filterMap fun
    | .injector gate => some gate.calls
    | .tracker _ => none

def ledgers (layers : List Layer) : List Ledger :=
  layers.filterMap fun
    | .injector _ => none
    | .tracker ledger => some ledger

end Layers

namespace Stack

def malloc (h : Stack) (size : Nat) : Pointer × Stack :=
  let (p, layers, base) := Layers.malloc h.layers h.base size
  (p, ⟨layers, base⟩)

/-- Resize a block, and say what became of it. -/
def resize (h : Stack) (p : Pointer) (size : Nat) : Except Misuse (Resize × Stack) := do
  let (outcome, layers, base) ← Layers.resize h.layers h.base p size
  .ok (outcome, ⟨layers, base⟩)

/-- Resize a block; null says that it failed or that the block was released. -/
def realloc (h : Stack) (p : Pointer) (size : Nat) : Except Misuse (Pointer × Stack) := do
  let (outcome, h) ← h.resize p size
  .ok (outcome.pointer, h)

def free (h : Stack) (p : Pointer) : Except Misuse Stack := do
  let (layers, base) ← Layers.free h.layers h.base p
  .ok ⟨layers, base⟩

def release (h : Stack) : Except Misuse (Option Nat × Stack) := do
  let (count, layers, base) ← Layers.release h.layers h.base
  .ok (count, ⟨layers, base⟩)

def write (h : Stack) (a : Address) (offset : Nat) (data : Bytes) : Except Misuse Stack := do
  let memory ← h.base.memory.write a offset data
  .ok { h with base := { h.base with memory } }

def read (h : Stack) (a : Address) (offset length : Nat) : Except Misuse Bytes :=
  h.base.memory.read a offset length

def ledger? (h : Stack) : Option Ledger :=
  Layers.ledger? h.layers

end Stack

/-! ## Figures -/

/-- What a tracker shows: how many blocks are live, their sizes added up, and for each block its
size and its first bytes, in order. -/
structure TrackerFigures where
  outstanding : Nat
  leakedBytes : Nat
  live : List (Nat × Bytes)
  deriving DecidableEq, Repr

/-- What a stack shows, its layers inside out. -/
structure Figures where
  calls : List Nat
  trackers : List TrackerFigures
  interposedCalls : Option Nat
  deriving DecidableEq, Repr

def shownBytes : Nat := 24

def shownBefore (a b : Nat × Bytes) : Bool :=
  a.1 < b.1 || (a.1 == b.1 && a.2 ≤ b.2)

def Ledger.figures (m : Memory) (l : Ledger) : TrackerFigures where
  outstanding := l.size
  leakedBytes := l.total
  live := (l.entries.map fun e =>
    (e.2, ((m.block? e.1).getD []).take (min e.2 shownBytes))).mergeSort shownBefore

def Stack.figures (h : Stack) : Figures where
  calls := (Layers.gateCalls h.layers).reverse
  trackers := ((Layers.ledgers h.layers).map (Ledger.figures h.base.memory)).reverse
  interposedCalls := h.base.interposedCalls?

end GrowthFault.Heap
