import GrowthFault.Heap.Stack

/-!
# Interleaved callers of a tracker

Threads share one tracker.  A call is two steps: the heap below and the ledger, in that order,
except that freeing takes the block out of the ledger first.  Between the two steps of one
thread, others may take any of theirs, and the heap below may hand an address out again.
-/

namespace GrowthFault.Heap.Interleaving

inductive Request where
  | malloc (size : Nat)
  | resize (p : Pointer) (size : Nat)
  | free (p : Pointer)
  deriving DecidableEq, Repr

def Request.pointer : Request → Pointer
  | .malloc _ => none
  | .resize p _ => p
  | .free p => p

inductive Half where
  /-- Enter a new block into the ledger. -/
  | enter (p : Pointer) (size : Nat)
  /-- Enter what became of a block. -/
  | settle (p : Pointer) (size : Nat) (outcome : Resize)
  /-- Give a block back to the heap below. -/
  | give (p : Pointer)
  deriving DecidableEq, Repr

/-- The memory below, the ledger, the second steps that are due, and the blocks that callers
hold. -/
structure State where
  memory : Memory := {}
  ledger : Ledger := .empty
  due : Nat → Option Half := fun _ => none
  held : List Address := []

namespace State

def setDue (s : State) (thread : Nat) (half : Option Half) : State :=
  { s with due := fun t => if t = thread then half else s.due t }

def handIn (s : State) : Pointer → State
  | some a => { s with held := s.held.erase a }
  | none => s

def handOut (s : State) : Pointer → State
  | some a => { s with held := a :: s.held }
  | none => s

/-- Whether a thread may begin a call: it has none under way, and hands in null or a block that
is held. -/
def Permits (s : State) (thread : Nat) (r : Request) : Prop :=
  s.due thread = none ∧ ∀ a, r.pointer = some a → a ∈ s.held

/-- Take the first step of a call; the heap below may refuse any request for memory. -/
def first (place : Placement) (refused : Bool) (s : State) (thread : Nat) :
    Request → Except Misuse State
  | .malloc size =>
    let (p, memory) := if refused then (none, s.memory) else s.memory.malloc place size
    .ok ({ s with memory }.setDue thread (some (.enter p size)))
  | .resize p size => do
    if refused then .ok ((s.handIn p).setDue thread (some (.settle p size .failed)))
    else
      let (q, memory) ← s.memory.realloc place p size
      let outcome := Resize.ofAnswer p size q
      .ok (({ s with memory }.handIn p).setDue thread (some (.settle p size outcome)))
  | .free p =>
    .ok (({ s with ledger := s.ledger.afterFree p }.handIn p).setDue thread (some (.give p)))

/-- Take the second step of a call, if one is due. -/
def second (s : State) (thread : Nat) : Except Misuse State :=
  match s.due thread with
  | none => .ok s
  | some (.enter p size) =>
    .ok (({ s with ledger := s.ledger.afterMalloc size p }.handOut p).setDue thread none)
  | some (.settle p size outcome) =>
    let s := { s with ledger := s.ledger.afterResize p size outcome }
    let back := match outcome with
      | .moved a => some a
      | .failed => p
      | .released => none
    .ok ((s.handOut back).setDue thread none)
  | some (.give p) => do
    let memory ← s.memory.free p
    .ok ({ s with memory }.setDue thread none)

def Quiet (s : State) : Prop :=
  ∀ thread, s.due thread = none

end State

/-- The states that threads reach by permitted calls. -/
inductive Reaches (place : Placement) : State → Prop where
  | start : Reaches place {}
  | first {s t : State} {thread : Nat} {r : Request} {refused : Bool} :
      Reaches place s → s.Permits thread r → s.first place refused thread r = .ok t →
      Reaches place t
  | second {s t : State} {thread : Nat} :
      Reaches place s → s.second thread = .ok t → Reaches place t

end GrowthFault.Heap.Interleaving
