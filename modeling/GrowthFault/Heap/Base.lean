import GrowthFault.Interposer.Basic
import GrowthFault.Interposer.Report
import GrowthFault.Memory.Basic

/-!
# Base allocators

The innermost heap is the process allocator, as it is, or following a script of failures and
single-byte corruptions, or with the interposed library before its `realloc`.
-/

namespace GrowthFault.Heap

/-- The calls, counted from one, that fail without doing anything, and bytes to spoil: `(n, offset,
byte)` writes one byte into the result of the `n`-th resizing call. -/
structure Trouble where
  mallocs : List Nat := []
  reallocs : List Nat := []
  corruptions : List (Nat × Nat × UInt8) := []
  deriving DecidableEq, Repr

/-- What stands between the heap and the process allocator. -/
inductive Source where
  | system
  /-- `mallocs` and `reallocs` calls have been made. -/
  | scripted (trouble : Trouble) (mallocs reallocs : Nat)
  /-- `reports` is what the library has written. -/
  | interposed (environment : Environment) (process : Process Unit) (reports : Bytes)

structure Base where
  source : Source
  memory : Memory := {}
  placement : Placement := .above

def Base.system : Base := { source := .system }

def Base.scripted (trouble : Trouble) : Base := { source := .scripted trouble 0 0 }

def Base.interposed (env : Environment) : Base :=
  { source := .interposed env { outside := () } [] }

/-- The allocator of a process that was started with the library. -/
def Base.preloaded (env : Environment) (place : Placement) : Base :=
  { interposed env with placement := place }

/-- What became of a block that was to be resized. -/
inductive Resize where
  /-- The block is at this address. -/
  | moved (a : Address)
  /-- The block is still the caller's. -/
  | failed
  /-- The request for no bytes freed the block. -/
  | released
  deriving DecidableEq, Repr

def Resize.pointer : Resize → Pointer
  | .moved a => some a
  | .failed => none
  | .released => none

/-- What an answer means: null for no bytes of a block is taken for a release. -/
def Resize.ofAnswer (p : Pointer) (size : Nat) : Pointer → Resize
  | some a => .moved a
  | none => if size = 0 ∧ p.isSome then .released else .failed

def corrupt (call : Nat) (size : Nat) (a : Address) (m : Memory) :
    List (Nat × Nat × UInt8) → Except Misuse Memory
  | [] => .ok m
  | (n, offset, byte) :: rest =>
    if n = call ∧ offset < size then do
      let m ← m.write a offset [byte]
      corrupt call size a m rest
    else corrupt call size a m rest

def lookupIn (env : Environment) : Lookup Unit := fun p =>
  (⟨0, env.policy⟩, p)

namespace Base

def malloc (b : Base) (size : Nat) : Pointer × Base :=
  match b.source with
  | .scripted trouble mallocs reallocs =>
    let b := { b with source := .scripted trouble (mallocs + 1) reallocs }
    if trouble.mallocs.contains (mallocs + 1) then (none, b)
    else
      let (p, memory) := b.memory.malloc b.placement size
      (p, { b with memory })
  | _ =>
    let (p, memory) := b.memory.malloc b.placement size
    (p, { b with memory })

def systemRealloc (b : Base) (p : Pointer) (size : Nat) : Except Misuse (Pointer × Base) := do
  let (q, memory) ← b.memory.realloc b.placement p size
  .ok (q, { b with memory })

def realloc (b : Base) (p : Pointer) (size : Nat) : Except Misuse (Pointer × Base) :=
  match b.source with
  | .system => b.systemRealloc p size
  | .scripted trouble mallocs reallocs =>
    let call := reallocs + 1
    let b := { b with source := .scripted trouble mallocs call }
    if trouble.reallocs.contains call then .ok (none, b)
    else do
      let (q, b) ← b.systemRealloc p size
      match q with
      | none => .ok (none, b)
      | some a => do
        let memory ← corrupt call size a b.memory trouble.corruptions
        .ok (some a, { b with memory })
  | .interposed env process reports =>
    match process.route (lookupIn env) with
    | (.fail ordinal reported, process) =>
      let line := Report.line (UInt64.ofNat ordinal) (UInt64.ofNat size)
      let reports := if reported then reports ++ line else reports
      .ok (none, { b with source := .interposed env process reports })
    | (_, process) =>
      { b with source := .interposed env process reports }.systemRealloc p size

/-- Resize a block, and say what became of it. -/
def resize (b : Base) (p : Pointer) (size : Nat) : Except Misuse (Resize × Base) := do
  let (q, b) ← b.realloc p size
  .ok (.ofAnswer p size q, b)

def free (b : Base) (p : Pointer) : Except Misuse Base := do
  let memory ← b.memory.free p
  .ok { b with memory }

/-- The calls that the library has counted, if one is loaded. -/
def interposedCalls? (b : Base) : Option Nat :=
  match b.source with
  | .interposed _ process _ => some process.interposer.calls
  | _ => none

/-- The policy that the library follows, if one is loaded; asking for it settles it. -/
def interposedPolicy? (b : Base) : Option Policy :=
  match b.source with
  | .interposed env process _ => some (process.resolve (lookupIn env)).1.policy
  | _ => none

/-- What the library has written, if one is loaded. -/
def reports? (b : Base) : Option Bytes :=
  match b.source with
  | .interposed _ _ reports => some reports
  | _ => none

end Base

end GrowthFault.Heap
