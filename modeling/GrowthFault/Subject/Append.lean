import GrowthFault.Heap.Allocator
import GrowthFault.Subject.Basic
import GrowthFault.Text.CString
import GrowthFault.Text.Quoted

/-!
# Appending on a heap

A subject copies its first operand into a new block, grows the block and copies the second
operand behind the first.  When the growth fails, the fixed subject gives the first block back;
the buggy one has lost it.  The answer is null or the caller's to free.
-/

namespace GrowthFault.Subject

open Heap

variable {σ : Type} [Allocator σ]

/-- Append on a heap; the answer is null when a request failed. -/
def append (s : Subject) (h : σ) (base addition : CString) : Except Misuse (Pointer × σ) :=
  match Allocator.malloc h (base.length + 1) with
  | (none, h) => .ok (none, h)
  | (some a, h) => do
    let h ← Allocator.write h a 0 base.terminated
    let (grown, h) ← Allocator.realloc h (some a) (base.length + addition.length + 1)
    match grown, s with
    | some b, _ => do
      let h ← Allocator.write h b base.length addition.terminated
      .ok (some b, h)
    | none, .fixed => do
      let h ← Allocator.free h (some a)
      .ok (none, h)
    | none, .buggy => .ok (none, h)

/-- What the caller does with an answer that is not null. -/
inductive Disposal where
  /-- Read it and free it. -/
  | free
  /-- Read it and never free it. -/
  | keep
  /-- Own it, and give it back when the owner ends. -/
  | drop
  /-- Own it, then give up the ownership and leave it live. -/
  | forget
  deriving DecidableEq, Repr

def Disposal.owns : Disposal → Bool
  | .free | .keep => false
  | .drop | .forget => true

def Disposal.frees : Disposal → Bool
  | .free | .drop => true
  | .keep | .forget => false

structure Call where
  subject : Subject
  base : CString
  addition : CString
  disposal : Disposal

def ownerText (bytes : Bytes) : String :=
  "HeapCString(" ++ Text.quotedBytes bytes ++ ")"

/-- What a call that succeeded leaves with its caller: the string, and the heap while the caller
holds it. -/
structure Held (σ : Type) where
  bytes : Bytes
  heap : σ

/-- Append, read the answer and dispose of it. -/
def Call.carryOut (c : Call) (h : σ) : Except Misuse (Option (Held σ) × σ) := do
  let (p, h) ← c.subject.append h c.base c.addition
  match p with
  | none => .ok (none, h)
  | some a => do
    let bytes ← Allocator.readString h a
    let held : Held σ := ⟨bytes, h⟩
    if c.disposal.frees then do
      let h ← Allocator.free h (some a)
      .ok (some held, h)
    else .ok (some held, h)

/-- What a call shows: the string, and the figures of the heap while it was held. -/
structure Shown where
  bytes : Bytes
  held : Figures
  deriving DecidableEq, Repr

def Call.run (c : Call) (h : Stack) : Except Misuse (Option Shown × Stack) := do
  let (held, h) ← c.carryOut h
  .ok (held.map fun s => ⟨s.bytes, s.heap.figures⟩, h)

end GrowthFault.Subject
