import GrowthFault.Heap.Stack

/-!
# Heap calls

A heap is used by calls of four kinds.  A list of calls runs from a heap to the heap after it,
unless one of them misuses memory.
-/

namespace GrowthFault.Heap

inductive Call where
  | malloc (size : Nat)
  | realloc (p : Pointer) (size : Nat)
  | resize (p : Pointer) (size : Nat)
  | free (p : Pointer)
  deriving DecidableEq, Repr

inductive Answer where
  | pointer (p : Pointer)
  | resized (outcome : Resize)
  | freed
  deriving DecidableEq, Repr

def Call.grows : Call → Bool
  | .malloc _ | .free _ => false
  | .realloc _ _ | .resize _ _ => true

namespace Stack

def perform (h : Stack) : Call → Except Misuse (Answer × Stack)
  | .malloc size =>
    let (p, h) := h.malloc size
    .ok (.pointer p, h)
  | .realloc p size => do
    let (q, h) ← h.realloc p size
    .ok (.pointer q, h)
  | .resize p size => do
    let (outcome, h) ← h.resize p size
    .ok (.resized outcome, h)
  | .free p => do
    let h ← h.free p
    .ok (.freed, h)

def performAll (h : Stack) : List Call → Except Misuse (List Answer × Stack)
  | [] => .ok ([], h)
  | c :: calls => do
    let (answer, h) ← h.perform c
    let (answers, h) ← h.performAll calls
    .ok (answer :: answers, h)

end Stack

end GrowthFault.Heap
