import GrowthFault.Heap.Stack

/-!
# Heap sessions

A session works a heap through named slots.  A slot holds a handle to a block, or null.  Handles
may be copied between slots; once their block is freed, or moved by a call that succeeds, they
are dead, and a dead handle is refused before the heap sees it.  New bytes of a block are set to
zero.
-/

namespace GrowthFault.Heap

structure Handle where
  address : Address
  size : Nat
  alive : Bool := true
  deriving DecidableEq, Repr

/-- A heap, the handles given out so far, and for each slot that is not null the number of its
handle. -/
structure Bench where
  heap : Stack
  handles : List Handle := []
  slots : List (String × Nat) := []

/-- One use of the heap, on named slots. -/
inductive Action where
  | malloc (into : String) (size : Nat)
  | realloc (slot into : String) (size : Nat)
  | resize (slot into : String) (size : Nat)
  | free (slot : String)
  | copy (slot into : String)
  | write (slot : String) (offset : Nat) (data : Bytes)
  | read (slot : String) (offset length : Nat)
  /-- Give back every block that the outermost tracker knows. -/
  | release
  deriving DecidableEq, Repr

inductive Reply where
  | pointer (p : Pointer)
  | resized (outcome : Resize)
  | freed
  | written
  | bytes (data : Bytes)
  | released (count : Option Nat)
  deriving DecidableEq, Repr

inductive Complaint where
  | deadPointer
  | outOfBounds
  deriving DecidableEq, Repr

def Complaint.text : Complaint → String
  | .deadPointer => "dead pointer"
  | .outOfBounds => "out of bounds"

def Complaint.ofMisuse : Misuse → Complaint
  | .dead _ => .deadPointer
  | .outOfBounds _ _ _ => .outOfBounds

namespace Bench

/-- A session on a heap, its slots all null. -/
def on (heap : Stack) : Bench := { heap }

/-- The number and the handle in a slot, or null; dead ones as well. -/
def handle? (b : Bench) (slot : String) : Option (Nat × Handle) := do
  let id ← b.slots.lookup slot
  let h ← b.handles[id]?
  return (id, h)

/-- The number and the handle in a slot, or null, unless it is dead. -/
def living (b : Bench) (slot : String) : Except Complaint (Option (Nat × Handle)) :=
  match b.handle? slot with
  | none => .ok none
  | some (id, h) => if h.alive then .ok (some (id, h)) else .error .deadPointer

/-- Put a handle, or null, into a slot. -/
def assign (b : Bench) (slot : String) (id : Option Nat) : Bench :=
  let others := b.slots.filter fun s => s.1 != slot
  { b with slots := match id with
      | some id => (slot, id) :: others
      | none => others }

/-- Give out a handle for a block, into a slot. -/
def adopt (b : Bench) (slot : String) (a : Address) (size : Nat) : Bench :=
  assign { b with handles := b.handles ++ [⟨a, size, true⟩] } slot (some b.handles.length)

def retire (b : Bench) : Option (Nat × Handle) → Bench
  | none => b
  | some (id, h) => { b with handles := b.handles.set id { h with alive := false } }

def address : Option (Nat × Handle) → Pointer :=
  Option.map fun entry => entry.2.address

def orComplain {α : Type} : Except Misuse α → Except Complaint α
  | .ok a => .ok a
  | .error m => .error (.ofMisuse m)

/-- Take over the block that a resizing call answered: the old handle is dead, and the bytes
beyond the old size are zero. -/
def moved (b : Bench) (old : Option (Nat × Handle)) (slot : String) (a : Address)
    (size : Nat) : Except Complaint Bench := do
  let kept := (old.map fun entry => entry.2.size).getD 0
  let heap ← orComplain (b.heap.write a (min kept size) (Memory.zeros (size - kept)))
  .ok ({ b.retire old with heap }.adopt slot a size)

/-- Whether a block is still its caller's after a call that answered null: always, unless no
bytes were asked for; then the outermost tracker has to list it. -/
def survives (heap : Stack) (p : Pointer) (size : Nat) : Bool :=
  size != 0 ||
    match p, heap.ledger? with
    | some a, some ledger => (ledger.get? a).isSome
    | _, _ => false

def take (b : Bench) : Action → Except Complaint (Reply × Bench)
  | .malloc into size =>
    match b.heap.malloc size with
    | (some a, heap) => .ok (.pointer (some a), { b with heap }.adopt into a size)
    | (none, heap) => .ok (.pointer none, { b with heap }.assign into none)
  | .realloc slot into size => do
    let old ← b.living slot
    let (p, heap) ← orComplain (b.heap.realloc (address old) size)
    let b := { b with heap }
    match p with
    | some a => do
      let b ← b.moved old into a size
      .ok (.pointer (some a), b)
    | none =>
      let b := if survives heap (address old) size then b else b.retire old
      .ok (.pointer none, b.assign into none)
  | .resize slot into size => do
    let old ← b.living slot
    let (outcome, heap) ← orComplain (b.heap.resize (address old) size)
    let b := { b with heap }
    match outcome with
    | .moved a => do
      let b ← b.moved old into a size
      .ok (.resized outcome, b)
    | .failed => .ok (.resized outcome, b.assign into none)
    | .released => .ok (.resized outcome, (b.retire old).assign into none)
  | .free slot => do
    let old ← b.living slot
    let heap ← orComplain (b.heap.free (address old))
    .ok (.freed, { b.retire old with heap })
  | .copy slot into =>
    let id := b.slots.lookup slot
    .ok (.pointer (address (b.handle? slot)), b.assign into id)
  | .write slot offset data => do
    let some (_, h) ← b.living slot | .error .outOfBounds
    let heap ← orComplain (b.heap.write h.address offset data)
    .ok (.written, { b with heap })
  | .read slot offset length => do
    let some (_, h) ← b.living slot | .error .outOfBounds
    let data ← orComplain (b.heap.read h.address offset length)
    .ok (.bytes data, b)
  | .release => do
    let (count, heap) ← orComplain b.heap.release
    let handles := b.handles.map fun h => { h with alive := false }
    .ok (.released count, { b with heap, handles })

end Bench

end GrowthFault.Heap
