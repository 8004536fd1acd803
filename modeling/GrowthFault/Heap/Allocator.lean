import GrowthFault.Heap.Stack

/-!
# Heaps as their callers see them

A caller has three calls, and reads and writes the memory in which the blocks lie.  What is built
on a heap asks for no more, so that it runs on every stack and on every other heap.
-/

namespace GrowthFault.Heap

class Allocator (σ : Type) where
  memory : σ → Memory
  withMemory : σ → Memory → σ
  malloc : σ → Nat → Pointer × σ
  /-- Resize a block; null says that it failed or that the block was released. -/
  realloc : σ → Pointer → Nat → Except Misuse (Pointer × σ)
  free : σ → Pointer → Except Misuse σ

namespace Allocator

variable {σ : Type} [Allocator σ]

def write (h : σ) (a : Address) (offset : Nat) (data : Bytes) : Except Misuse σ := do
  let m ← (memory h).write a offset data
  .ok (withMemory h m)

def readString (h : σ) (a : Address) : Except Misuse Bytes :=
  (memory h).readString a

end Allocator

instance : Allocator Stack where
  memory h := h.base.memory
  withMemory h m := { h with base := { h.base with memory := m } }
  malloc := Stack.malloc
  realloc := Stack.realloc
  free := Stack.free

end GrowthFault.Heap
