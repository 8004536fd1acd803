import GrowthFault.Proofs.SeamReports

/-!
# Scenarios on a heap with a script

A script names calls that fail and single bytes that are spoiled in grown blocks.  On a tracked heap
with a script, a run of a scenario gets no block, gets no room, or gets its string, whose first part
may be spoiled; what is spoiled behind that part is written over.  The endings of any list of runs
follow from the script and from what the allocator refuses, and from them follow what the runs
answer and what they leave in the ledger.
-/

namespace GrowthFault

open Heap

/-! ## One address of a table -/

namespace Table

variable {β : Type} {t : Table β} {a : Address}

theorem erase_insert (t : Table β) (a : Address) (x : β) : (t.insert a x).erase a = t.erase a := by
  ext1
  simp [insert, erase, List.filter_filter]

theorem insert_insert (t : Table β) (a : Address) (x y : β) :
    (t.insert a x).insert a y = t.insert a y := by
  have herased := congrArg entries (erase_insert t a x)
  ext1
  exact congrArg ((a, y) :: ·) herased

theorem erase_of_fresh (hfresh : t.get? a = none) : t.erase a = t := by
  ext1
  refine List.filter_eq_self.2 ?_
  rintro ⟨b, x⟩ hmem
  have hne : b ≠ a := by
    rintro rfl
    rw [mem_entries_iff.1 hmem] at hfresh
    cases hfresh
  simpa using hne

theorem erase_insert_of_fresh (hfresh : t.get? a = none) (x : β) : (t.insert a x).erase a = t := by
  rw [erase_insert, erase_of_fresh hfresh]

end Table

/-- Where a block goes that gets another size. -/
def Placement.grownSite (place : Placement) (m : Memory) (a : Address) (size : Nat) : Address :=
  if place.stays m a size then a else place.site m size

namespace Memory

/-- A memory with one more block. -/
def withBlock (m : Memory) (a : Address) (bytes : Bytes) : Memory :=
  ⟨m.blocks.insert a bytes⟩

variable {m : Memory} {a : Address} {bytes data : Bytes} {offset : Nat}

theorem block?_withBlock (m : Memory) (a c : Address) (bytes : Bytes) :
    (m.withBlock a bytes).block? c = if c = a then some bytes else m.block? c :=
  m.block?_insert a c bytes

theorem withBlock_gains (hfresh : m.block? a = none) : m.Gains (m.withBlock a bytes) a bytes :=
  ⟨hfresh, fun c => m.block?_withBlock a c bytes⟩

theorem write_withBlock (hroom : offset + data.length ≤ bytes.length) :
    (m.withBlock a bytes).write a offset data =
      .ok (m.withBlock a (overwrite bytes offset data)) := by
  have hinserted := Table.insert_insert m.blocks a bytes (overwrite bytes offset data)
  simp only [write, block?_withBlock, if_true, hroom]
  rw [withBlock, hinserted]
  rfl

theorem realloc_withBlock (place : Placement) (bytes : Bytes) {size : Nat} (hpositive : 0 < size)
    (hfresh : m.block? a = none) :
    (m.withBlock a bytes).realloc place (some a) size =
      if place.refuses (m.withBlock a bytes) size then .ok (none, m.withBlock a bytes)
      else .ok (some (place.grownSite (m.withBlock a bytes) a size),
        m.withBlock (place.grownSite (m.withBlock a bytes) a size)
          (resized bytes size)) := by
  have hne : size ≠ 0 := by omega
  have hblock : (m.withBlock a bytes).block? a = some bytes := by
    rw [block?_withBlock, if_pos rfl]
  have herased : (m.withBlock a bytes).blocks.erase a = m.blocks :=
    Table.erase_insert_of_fresh hfresh bytes
  simp only [realloc, hblock, if_neg hne, herased]
  rfl

theorem free_withBlock (bytes : Bytes) (hfresh : m.block? a = none) :
    (m.withBlock a bytes).free (some a) = .ok m := by
  have hlive : (m.withBlock a bytes).live a := by
    rw [live, block?_withBlock, if_pos rfl]
    rfl
  have herased : (m.withBlock a bytes).blocks.erase a = m.blocks :=
    Table.erase_insert_of_fresh hfresh bytes
  rw [free, if_pos hlive, herased]

theorem overwrite_one {byte : UInt8} (hroom : offset < bytes.length) :
    overwrite bytes offset [byte] = bytes.set offset byte := by
  rw [overwrite, List.set_eq_take_append_cons_drop, if_pos hroom]
  simp

end Memory

/-! ## Calls of a heap with a script -/

namespace Heap

/-- The bytes of a block that one call has grown, after the corruptions for that call. -/
def spoiled (call : Nat) (bytes : Bytes) : List (Nat × Nat × UInt8) → Bytes
  | [] => bytes
  | (n, offset, byte) :: rest =>
    if n = call then spoiled call (bytes.set offset byte) rest else spoiled call bytes rest

section Spoiled

variable (call : Nat) (corruptions : List (Nat × Nat × UInt8))

@[simp] theorem length_spoiled (bytes : Bytes) :
    (spoiled call bytes corruptions).length = bytes.length := by
  induction corruptions generalizing bytes with
  | nil => rfl
  | cons c rest ih =>
      rw [spoiled]
      split
      next => rw [ih, List.length_set]
      next => exact ih bytes

theorem take_spoiled (bytes : Bytes) (n : Nat) :
    (spoiled call bytes corruptions).take n = spoiled call (bytes.take n) corruptions := by
  induction corruptions generalizing bytes with
  | nil => rfl
  | cons c rest ih =>
      rw [spoiled, spoiled]
      split
      next => rw [ih, List.take_set]
      next => exact ih bytes

variable {call corruptions}

/-- Corruptions for other calls, or behind the last byte, change nothing. -/
theorem spoiled_filter {seen : Nat × Nat × UInt8 → Bool} {bytes : Bytes}
    (hseen : ∀ c : Nat × Nat × UInt8, c.1 = call → c.2.1 < bytes.length → seen c = true) :
    spoiled call bytes (corruptions.filter seen) = spoiled call bytes corruptions := by
  induction corruptions generalizing bytes with
  | nil => rfl
  | cons c rest ih =>
      obtain ⟨n, offset, byte⟩ := c
      have hset : ∀ c : Nat × Nat × UInt8, c.1 = call →
          c.2.1 < (bytes.set offset byte).length → seen c = true := by
        simpa using hseen
      by_cases hkept : seen (n, offset, byte)
      · rw [List.filter_cons_of_pos hkept, spoiled, spoiled, ih hseen, ih hset]
      · rw [List.filter_cons_of_neg hkept, spoiled, ih hseen]
        split
        next hcall =>
          have hbehind : bytes.length ≤ offset :=
            Nat.le_of_not_lt fun hlt => hkept (hseen (n, offset, byte) hcall hlt)
          rw [List.set_eq_of_length_le hbehind]
        next => rfl

theorem corrupt_withBlock (call : Nat) (corruptions : List (Nat × Nat × UInt8)) (m : Memory)
    (a : Address) {size : Nat} {bytes : Bytes} (hsize : bytes.length = size) :
    corrupt call size a (m.withBlock a bytes) corruptions =
      .ok (m.withBlock a (spoiled call bytes corruptions)) := by
  induction corruptions generalizing bytes with
  | nil => rfl
  | cons c rest ih =>
      obtain ⟨n, offset, byte⟩ := c
      rw [corrupt, spoiled]
      by_cases hcall : n = call
      · rw [if_pos hcall]
        by_cases hinside : offset < size
        · have hroom : offset < bytes.length := hsize ▸ hinside
          rw [if_pos ⟨hcall, hinside⟩, Memory.write_withBlock hroom, Memory.overwrite_one hroom]
          exact ih (by rw [List.length_set, hsize])
        · rw [if_neg (fun hboth => hinside hboth.2), List.set_eq_of_length_le (by omega)]
          exact ih hsize
      · rw [if_neg hcall, if_neg (fun hboth => hcall hboth.1)]
        exact ih hsize

end Spoiled

/-- The next call is one that fails, or the allocator refuses it. -/
def denied (calls : List Nat) (place : Placement) (made : Nat) (m : Memory) (size : Nat) : Bool :=
  calls.contains (made + 1) || place.refuses m size

variable (t : Trouble) (place : Placement) (mallocs reallocs : Nat) {size n : Nat} {m : Memory}
  {l : Ledger} {a : Address} {bytes : Bytes}

/-- An allocator with a script, after some calls. -/
def Base.playing (t : Trouble) (place : Placement) (mallocs reallocs : Nat) (memory : Memory) :
    Base :=
  { source := .scripted t mallocs reallocs, memory, placement := place }

theorem Base.malloc_playing :
    (Base.playing t place mallocs reallocs m).malloc size =
      if denied t.mallocs place mallocs m size then
        (none, .playing t place (mallocs + 1) reallocs m)
      else (some (place.site m size), .playing t place (mallocs + 1) reallocs
        (m.withBlock (place.site m size) (Memory.zeros size))) := by
  unfold Base.malloc denied
  simp only [playing, Bool.or_eq_true]
  by_cases hlisted : t.mallocs.contains (mallocs + 1) = true
  · rw [if_pos hlisted, if_pos (.inl hlisted)]
  · rw [if_neg hlisted, Memory.malloc]
    by_cases hrefused : place.refuses m size
    · rw [if_pos hrefused, if_pos (.inr hrefused)]
    · rw [if_neg hrefused, if_neg (not_or.2 ⟨hlisted, hrefused⟩)]
      rfl

theorem Base.realloc_playing (bytes : Bytes) (hpositive : 0 < size) (hmemory : m.block? a = none) :
    (Base.playing t place mallocs reallocs (m.withBlock a bytes)).realloc (some a) size =
      if denied t.reallocs place reallocs (m.withBlock a bytes) size then
        .ok (none, .playing t place mallocs (reallocs + 1) (m.withBlock a bytes))
      else
        .ok (some (place.grownSite (m.withBlock a bytes) a size),
          .playing t place mallocs (reallocs + 1)
            (m.withBlock (place.grownSite (m.withBlock a bytes) a size)
              (spoiled (reallocs + 1) (Memory.resized bytes size) t.corruptions))) := by
  have hmoved := Memory.realloc_withBlock place bytes hpositive hmemory
  have hspoiled := corrupt_withBlock (reallocs + 1) t.corruptions m
    (place.grownSite (m.withBlock a bytes) a size) (Memory.length_resized bytes size)
  unfold Base.realloc denied
  simp only [playing, Bool.or_eq_true]
  by_cases hlisted : t.reallocs.contains (reallocs + 1) = true
  · rw [if_pos hlisted, if_pos (.inl hlisted)]
  · rw [if_neg hlisted, Base.systemRealloc, hmoved]
    by_cases hrefused : place.refuses (m.withBlock a bytes) size
    · rw [if_pos hrefused, if_pos (.inr hrefused)]
      rfl
    · rw [if_neg hrefused, if_neg (not_or.2 ⟨hlisted, hrefused⟩)]
      simp only [bind, Except.bind, hspoiled]

theorem Base.free_playing (hmemory : m.block? a = none) :
    (Base.playing t place mallocs reallocs (m.withBlock a bytes)).free (some a) =
      .ok (.playing t place mallocs reallocs m) := by
  have hfreed := Memory.free_withBlock bytes hmemory
  unfold Base.free
  simp only [playing, hfreed]
  rfl

/-- A tracker over an allocator with a script. -/
def Stack.scripted (t : Trouble) (place : Placement) (mallocs reallocs : Nat) (memory : Memory)
    (l : Ledger) : Stack :=
  ⟨[.tracker l], .playing t place mallocs reallocs memory⟩

theorem malloc_scripted :
    Allocator.malloc (Stack.scripted t place mallocs reallocs m l) size =
      if denied t.mallocs place mallocs m size then
        (none, .scripted t place (mallocs + 1) reallocs m l)
      else
        (some (place.site m size), .scripted t place (mallocs + 1) reallocs
          (m.withBlock (place.site m size) (Memory.zeros size))
          (l.insert (place.site m size) size)) := by
  change Stack.malloc _ size = _
  simp only [Stack.scripted, Stack.malloc, Layers.malloc, Base.malloc_playing]
  split <;> rfl

theorem write_scripted {offset : Nat} {data : Bytes}
    (hroom : offset + data.length ≤ bytes.length) :
    Allocator.write (Stack.scripted t place mallocs reallocs (m.withBlock a bytes) l) a offset
        data =
      .ok (.scripted t place mallocs reallocs
        (m.withBlock a (Memory.overwrite bytes offset data)) l) := by
  have hwrite := Memory.write_withBlock (m := m) (a := a) hroom
  rw [Allocator.write]
  change (m.withBlock a bytes).write a offset data >>= _ = _
  rw [hwrite]
  rfl

theorem realloc_scripted (bytes : Bytes) (hpositive : 0 < size) (hmemory : m.block? a = none)
    (hledger : l.get? a = none) :
    Allocator.realloc
        (Stack.scripted t place mallocs reallocs (m.withBlock a bytes) (l.insert a n)) (some a)
        size =
      if denied t.reallocs place reallocs (m.withBlock a bytes) size then
        .ok (none, .scripted t place mallocs (reallocs + 1) (m.withBlock a bytes) (l.insert a n))
      else
        .ok (some (place.grownSite (m.withBlock a bytes) a size),
          .scripted t place mallocs (reallocs + 1)
            (m.withBlock (place.grownSite (m.withBlock a bytes) a size)
              (spoiled (reallocs + 1) (Memory.resized bytes size) t.corruptions))
            (l.insert (place.grownSite (m.withBlock a bytes) a size) size)) := by
  have herased : Table.erase (l.insert a n) a = l := Table.erase_insert_of_fresh hledger n
  change Stack.realloc _ (some a) size = _
  simp only [Stack.scripted, Stack.realloc, Stack.resize, Layers.resize, Base.resize,
    Base.realloc_playing _ _ _ _ bytes hpositive hmemory]
  split
  next hdenied =>
    have hfailed : Resize.ofAnswer (some a) size none = .failed :=
      if_neg fun hreleased => absurd hreleased.1 (by omega)
    simp only [bind, Except.bind, hfailed]
    rfl
  next hgranted =>
    simp only [bind, Except.bind, Resize.ofAnswer, Ledger.afterResize, Ledger.afterFree, herased]
    rfl

theorem free_scripted (hmemory : m.block? a = none) (hledger : l.get? a = none) :
    Allocator.free (Stack.scripted t place mallocs reallocs (m.withBlock a bytes) (l.insert a n))
        (some a) = .ok (.scripted t place mallocs reallocs m l) := by
  have herased : Table.erase (l.insert a n) a = l := Table.erase_insert_of_fresh hledger n
  change Stack.free _ (some a) = _
  simp only [Stack.scripted, Stack.free, Layers.free, Base.free_playing _ _ _ _ hmemory, bind,
    Except.bind, Ledger.afterFree, herased]

end Heap

namespace Heap.Ledger

variable {l : Ledger} {m : Memory} {a : Address}

theorem Exact.get?_of_fresh (hexact : l.Exact m) (hfresh : m.block? a = none) :
    l.get? a = none := by
  rw [hexact, hfresh]
  rfl

theorem Exact.withBlock (hexact : l.Exact m) (a : Address) (bytes : Bytes) :
    Ledger.Exact (l.insert a bytes.length) (m.withBlock a bytes) := by
  intro c
  rw [Table.get?_insert, Memory.block?_withBlock, hexact]
  split <;> rfl

end Heap.Ledger

/-! ## How an append ends -/

/-- An append gets no block, or its first block gets no room, or the string is in a block of these
bytes. -/
inductive Subject.Ending where
  | noBlock
  | noRoom (first : Address)
  | answered (b : Address) (block : Bytes)

namespace Subject

namespace Ending

def growths : Ending → Nat
  | .noBlock => 0
  | .noRoom _ | .answered _ _ => 1

/-- The bytes up to the first NUL. -/
def string : Ending → Option Bytes
  | .noBlock | .noRoom _ => none
  | .answered _ block => some (block.takeWhile (· != 0))

/-- The memory after a run that gives its string back. -/
def left (s : Subject) (base : CString) (m : Memory) : Ending → Memory
  | .noRoom first => match s with
    | .fixed => m
    | .buggy => m.withBlock first base.terminated
  | .noBlock | .answered _ _ => m

/-- The size of the block that the run has lost. -/
def lostSize? (s : Subject) (base : CString) : Ending → Option Nat
  | .noRoom _ => match s with
    | .fixed => none
    | .buggy => some (base.length + 1)
  | .noBlock | .answered _ _ => none

end Ending

/-- How an append goes whose answer is given back: its calls with their answers, and what is live
in the end. -/
inductive Ends (base addition : CString) (h : Stack) : Subject → Ending → Stack → Prop where
  | noBlock {s : Subject} {h' : Stack}
      (hmalloc : Allocator.malloc h (base.length + 1) = (none, h'))
      (hleft : h'.base.memory = h.base.memory) : Ends base addition h s .noBlock h'
  /-- The fixed subject gives its first block back. -/
  | freed {a : Address} {h₁ h₂ h₃ h' : Stack}
      (hmalloc : Allocator.malloc h (base.length + 1) = (some a, h₁))
      (hcopy : Allocator.write h₁ a 0 base.terminated = .ok h₂)
      (hgrowth : Allocator.realloc h₂ (some a) (base.length + addition.length + 1) =
        .ok (none, h₃))
      (hfree : Allocator.free h₃ (some a) = .ok h')
      (hleft : h'.base.memory = h.base.memory) : Ends base addition h .fixed (.noRoom a) h'
  /-- The buggy one has lost it. -/
  | lost {a : Address} {h₁ h₂ h' : Stack}
      (hmalloc : Allocator.malloc h (base.length + 1) = (some a, h₁))
      (hcopy : Allocator.write h₁ a 0 base.terminated = .ok h₂)
      (hgrowth : Allocator.realloc h₂ (some a) (base.length + addition.length + 1) =
        .ok (none, h'))
      (hleft : h.base.memory.Gains h'.base.memory a base.terminated) :
      Ends base addition h .buggy (.noRoom a) h'
  /-- The string ends inside its block, which is given back once. -/
  | answered {s : Subject} {a b : Address} {block : Bytes} {h₁ h₂ h₃ h₄ h' : Stack}
      (hmalloc : Allocator.malloc h (base.length + 1) = (some a, h₁))
      (hcopy : Allocator.write h₁ a 0 base.terminated = .ok h₂)
      (hgrowth : Allocator.realloc h₂ (some a) (base.length + addition.length + 1) =
        .ok (some b, h₃))
      (hbehind : Allocator.write h₃ b base.length addition.terminated = .ok h₄)
      (hblock : h₄.base.memory.block? b = some block) (hnul : (0 : UInt8) ∈ block)
      (hfree : Allocator.free h₄ (some b) = .ok h')
      (hleft : h'.base.memory = h.base.memory) : Ends base addition h s (.answered b block) h'

variable {s : Subject} {base addition : CString} {h h' : Stack} {e : Ending}

theorem Ends.appended_eq (hends : Ends base addition h s e h') :
    Scenario.appended s h base addition = .ok (e.string, h') := by
  cases hends with
  | noBlock hmalloc hleft =>
      simp [Scenario.appended, Call.carryOut, append, hmalloc, bind, Except.bind, Ending.string]
  | freed hmalloc hcopy hgrowth hfree hleft =>
      simp [Scenario.appended, Call.carryOut, append, hmalloc, hcopy, hgrowth, hfree, bind,
        Except.bind, Ending.string]
  | lost hmalloc hcopy hgrowth hleft =>
      simp [Scenario.appended, Call.carryOut, append, hmalloc, hcopy, hgrowth, bind, Except.bind,
        Ending.string]
  | @answered s a b block h₁ h₂ h₃ h₄ h' hmalloc hcopy hgrowth hbehind hblock hnul hfree hleft =>
      have hread : Allocator.readString h₄ b = .ok (block.takeWhile (· != 0)) := by
        change h₄.base.memory.readString b = _
        simp [Memory.readString, hblock, hnul]
      simp [Scenario.appended, Call.carryOut, append, hmalloc, hcopy, hgrowth, hbehind, hread,
        Disposal.frees, hfree, bind, Except.bind, Ending.string]

variable {t : Trouble} {place : Placement} {mallocs reallocs : Nat} {m : Memory} {l : Ledger}
  {a : Address}

theorem block?_grownSite (place : Placement) (bytes : Bytes) (size : Nat)
    (hfresh : m.block? a = none) :
    m.block? (place.grownSite (m.withBlock a bytes) a size) = none := by
  unfold Placement.grownSite
  split
  next hstays => exact hfresh
  next hmoves =>
    have hfree := place.site_free (m.withBlock a bytes) size
    rw [Memory.block?_withBlock] at hfree
    split at hfree
    next => cases hfree
    next => exact hfree

theorem length_spoiled_resized (base addition : CString) (call : Nat)
    (corruptions : List (Nat × Nat × UInt8)) :
    (spoiled call (Memory.resized base.terminated (base.length + addition.length + 1))
      corruptions).length = base.length + addition.terminated.length := by
  rw [length_spoiled, Memory.length_resized, addition.length_terminated]
  omega

/-- The copy of the second operand covers what is behind the first. -/
theorem overwrite_spoiled (base addition : CString) (call : Nat)
    (corruptions : List (Nat × Nat × UInt8)) :
    Memory.overwrite (spoiled call
        (Memory.resized base.terminated (base.length + addition.length + 1)) corruptions)
      base.length addition.terminated =
    spoiled call base.bytes corruptions ++ addition.terminated := by
  have hlength : base.terminated.length ≤ base.length + addition.length + 1 := by
    rw [base.length_terminated]
    omega
  have hfirst : (Memory.resized base.terminated (base.length + addition.length + 1)).take
      base.length = base.bytes := by
    rw [Memory.resized, List.take_of_length_le hlength, CString.terminated, List.append_assoc]
    exact List.take_left
  rw [Memory.overwrite_tail (length_spoiled_resized base addition call corruptions), take_spoiled,
    hfirst]

end Subject

/-- How an append ends under a script, after some calls. -/
def Heap.Trouble.ending (t : Trouble) (place : Placement) (mallocs reallocs : Nat) (m : Memory)
    (base addition : CString) : Subject.Ending :=
  let first := place.site m (base.length + 1)
  let copied := m.withBlock first base.terminated
  let size := base.length + addition.length + 1
  if denied t.mallocs place mallocs m (base.length + 1) then .noBlock
  else if denied t.reallocs place reallocs copied size then .noRoom first
  else .answered (place.grownSite copied first size)
    (spoiled (reallocs + 1) base.bytes t.corruptions ++ addition.terminated)

namespace Subject

variable {t : Trouble} {place : Placement} {mallocs reallocs : Nat} {m : Memory} {l : Ledger}

/-- A first block that is granted takes the copy of the first operand. -/
theorem first_scripted (reallocs : Nat) (l : Ledger) (base : CString)
    (hgranted : ¬ denied t.mallocs place mallocs m (base.length + 1) = true) :
    ∃ h₁, Allocator.malloc (Stack.scripted t place mallocs reallocs m l) (base.length + 1) =
        (some (place.site m (base.length + 1)), h₁) ∧
      Allocator.write h₁ (place.site m (base.length + 1)) 0 base.terminated =
        .ok (.scripted t place (mallocs + 1) reallocs
          (m.withBlock (place.site m (base.length + 1)) base.terminated)
          (l.insert (place.site m (base.length + 1)) (base.length + 1))) := by
  have hroom : (Memory.zeros (base.length + 1)).length = 0 + base.terminated.length := by
    rw [Memory.length_zeros, base.length_terminated]
    omega
  refine ⟨_, by rw [malloc_scripted, if_neg hgranted], ?_⟩
  rw [write_scripted _ _ _ _ (Nat.le_of_eq hroom.symm), Memory.overwrite_tail hroom]
  rfl

/-- Under a script an append ends as the script and the allocator have it, and the ledger stays
exact. -/
theorem ends_scripted (t : Trouble) (place : Placement) (mallocs reallocs : Nat)
    (hexact : l.Exact m) (s : Subject) (base addition : CString) :
    let e := t.ending place mallocs reallocs m base addition
    ∃ l', Ends base addition (.scripted t place mallocs reallocs m l) s e
        (.scripted t place (mallocs + 1) (reallocs + e.growths) (e.left s base m) l') ∧
      l'.Exact (e.left s base m) ∧ (l'.entries.map Prod.snd).Perm
        ((e.lostSize? s base).toList ++ l.entries.map Prod.snd) := by
  intro e
  -- The cases are those of the ending: each says which of the two requests is denied.
  have hending : t.ending place mallocs reallocs m base addition = e := rfl
  unfold Trouble.ending at hending
  dsimp only at hending
  split at hending
  next hdenied =>
    rw [← hending]
    refine ⟨l, .noBlock ?_ rfl, hexact, .refl _⟩
    rw [malloc_scripted, if_pos hdenied]
    rfl
  next hgranted =>
    generalize hfirst : place.site m (base.length + 1) = first at hending
    have hfresh : m.block? first = none := hfirst ▸ place.site_free m (base.length + 1)
    have hunknown := hexact.get?_of_fresh hfresh
    obtain ⟨h₁, hmalloc, hcopy⟩ := first_scripted reallocs l base hgranted
    rw [hfirst] at hmalloc hcopy
    have hgrowth := realloc_scripted t place (mallocs + 1) reallocs (n := base.length + 1)
      base.terminated (Nat.succ_pos (base.length + addition.length)) hfresh hunknown
    split at hending
    next hdenied =>
      rw [if_pos hdenied] at hgrowth
      rw [← hending]
      cases s with
      | fixed =>
          exact ⟨l, .freed hmalloc hcopy hgrowth (free_scripted t place _ _ hfresh hunknown) rfl,
            hexact, .refl _⟩
      | buggy =>
          refine ⟨l.insert first (base.length + 1),
            .lost hmalloc hcopy hgrowth (Memory.withBlock_gains hfresh), ?_, ?_⟩
          · exact base.length_terminated ▸ hexact.withBlock first base.terminated
          · exact (Table.perm_cons_entries hunknown (Table.get?_insert l first _)).map Prod.snd
    next hroom =>
      rw [if_neg hroom] at hgrowth
      rw [← hending]
      -- The block may have moved, but only to where nothing else is.
      have hfresh' := block?_grownSite place base.terminated (base.length + addition.length + 1)
        hfresh
      generalize place.grownSite (m.withBlock first base.terminated) first
        (base.length + addition.length + 1) = b at hgrowth hfresh'
      have hunknown' := hexact.get?_of_fresh hfresh'
      have hbehind := write_scripted t place (mallocs + 1) (reallocs + 1) (m := m) (a := b)
        (l := l.insert b (base.length + addition.length + 1))
        (Nat.le_of_eq (length_spoiled_resized base addition (reallocs + 1) t.corruptions).symm)
      rw [overwrite_spoiled] at hbehind
      refine ⟨l, .answered hmalloc hcopy hgrowth hbehind ?_ ?_
        (free_scripted t place _ _ hfresh' hunknown') rfl, hexact, .refl _⟩
      · exact (m.block?_withBlock b b _).trans (if_pos rfl)
      · simp [CString.terminated]

end Subject

/-! ## Runs of scenarios -/

theorem Scenario.judgeNormal_eq_passed_iff {string : Option Bytes} :
    judgeNormal string = .passed ↔ string = some (Bytes.ofText normalExpected) := by
  cases string with
  | none => simp [judgeNormal]
  | some bytes =>
      rw [judgeNormal, Option.some_inj]
      split
      next hsame => exact iff_of_true rfl hsame
      next hother => exact iff_of_false (by simp) hother

/-- A run of a scenario. -/
inductive Scenario.Trial where
  | normal (s : Subject)
  | oom (s : Subject)

namespace Scenario.Trial

open Subject (Ending)

abbrev Outcome := NormalOutcome ⊕ OomOutcome

def subject : Trial → Subject
  | .normal s | .oom s => s

def base : Trial → CString
  | .normal _ => normalBase
  | .oom _ => oomBase

def addition : Trial → CString
  | .normal _ => normalAddition
  | .oom _ => oomAddition

/-- Check the scenario. -/
def run (c : Trial) (h : Stack) : Except Misuse (Outcome × Stack) :=
  match c with
  | .normal s => do
    let (outcome, h) ← checkNormal s h
    .ok (.inl outcome, h)
  | .oom s => do
    let (outcome, h) ← checkOom s h
    .ok (.inr outcome, h)

def runAll : List Trial → Stack → Except Misuse (List Outcome × Stack)
  | [], h => .ok ([], h)
  | c :: trials, h => do
    let (outcome, h) ← c.run h
    let (others, h) ← runAll trials h
    .ok (outcome :: others, h)

/-- What a run tells of its string. -/
def judge (c : Trial) (string : Option Bytes) : Outcome :=
  match c with
  | .normal _ => .inl (judgeNormal string)
  | .oom _ => .inr (judgeOom string)

/-- The size of the block that a run has lost. -/
def lostSize? : Trial → Ending → Option Nat
  | .normal .buggy, .noRoom _ => some 6
  | .oom .buggy, .noRoom _ => some 2
  | _, _ => none

/-- The sizes of the blocks that a list of runs has lost. -/
def lostSizes (trials : List Trial) (endings : List Ending) : List Nat :=
  (trials.zip endings).filterMap fun (c, e) => c.lostSize? e

/-- How the runs of a list end under a script, after some calls. -/
def endings (t : Trouble) (place : Placement) : List Trial → Nat → Nat → Memory → List Ending
  | [], _, _, _ => []
  | c :: trials, mallocs, reallocs, m =>
    let e := t.ending place mallocs reallocs m c.base c.addition
    e :: endings t place trials (mallocs + 1) (reallocs + e.growths) (e.left c.subject c.base m)

/-- The first operands of the runs that make a growth call, in the order of these calls. -/
def grown (trials : List Trial) (endings : List Ending) : List CString :=
  (trials.zip endings).filterMap fun
    | (_, .noBlock) => none
    | (c, _) => some c.base

/-- Whether a corruption falls on the first operand of the run that makes its growth call; `calls`
growth calls have been made before. -/
def shows (bases : List CString) (calls : Nat) (c : Nat × Nat × UInt8) : Bool :=
  (bases.zipIdx (calls + 1)).any fun (base, call) => c.1 == call && decide (c.2.1 < base.length)

/-- A run that ends in one of the ways, and what it tells. -/
structure Plays (c : Trial) (h : Stack) (e : Ending) (outcome : Outcome) (h' : Stack) : Prop where
  ends : Subject.Ends c.base c.addition h c.subject e h'
  run : c.run h = .ok (outcome, h')
  told : outcome = c.judge e.string
  null_iff : outcome = .inl .returnedNull ∨ outcome = .inr .returnedNull ↔
    e = .noBlock ∨ ∃ a, e = .noRoom a
  passed_iff : outcome = .inl .passed ↔
    (∃ s, c = .normal s) ∧ e.string = some (Bytes.ofText "helloworld")

inductive PlaysAll : List Trial → Stack → List Ending → List Outcome → Stack → Prop where
  | nil {h : Stack} : PlaysAll [] h [] [] h
  | cons {c : Trial} {trials : List Trial} {h h₁ h' : Stack} {e : Ending} {es : List Ending}
      {outcome : Outcome} {outcomes : List Outcome} :
      c.Plays h e outcome h₁ → PlaysAll trials h₁ es outcomes h' →
      PlaysAll (c :: trials) h (e :: es) (outcome :: outcomes) h'

variable {c : Trial} {trials : List Trial} {h h' : Stack} {e : Ending} {es : List Ending}
  {outcomes : List Outcome}

theorem plays_of_ends (hends : Subject.Ends c.base c.addition h c.subject e h') :
    c.Plays h e (c.judge e.string) h' := by
  have happended := hends.appended_eq
  have hnull : e.string = none ↔ e = .noBlock ∨ ∃ a, e = .noRoom a := by
    cases e <;> simp [Ending.string]
  refine ⟨hends, ?_, rfl, ?_, ?_⟩
  · cases c with
    | normal s =>
        change appended s h normalBase normalAddition = _ at happended
        simp only [run, checkNormal, happended, bind, Except.bind]
        rfl
    | oom s =>
        change appended s h oomBase oomAddition = _ at happended
        simp only [run, checkOom, happended, bind, Except.bind]
        rfl
  · rw [← hnull, ← Option.isNone_iff_eq_none]
    cases c with
    | normal s => simp [judge, judgeNormal_eq_returnedNull_iff]
    | oom s => simp [judge, judgeOom_eq_returnedNull_iff]
  · cases c with
    | normal s => simp [judge, judgeNormal_eq_passed_iff, normalExpected]
    | oom s => simp [judge]

theorem PlaysAll.runAll_eq (hplays : PlaysAll trials h es outcomes h') :
    runAll trials h = .ok (outcomes, h') := by
  induction hplays with
  | nil => rfl
  | cons hplays hrest ih =>
      rw [runAll, hplays.run]
      simp only [bind, Except.bind, ih]

variable {t t' : Trouble} {place : Placement} {mallocs reallocs : Nat} {m : Memory} {l : Ledger}

theorem lostSize?_eq (c : Trial) (e : Ending) : e.lostSize? c.subject c.base = c.lostSize? e := by
  cases c with
  | normal s => cases s <;> cases e <;> rfl
  | oom s => cases s <;> cases e <;> rfl

theorem lostSizes_cons (c : Trial) (trials : List Trial) (e : Ending) (es : List Ending) :
    lostSizes (c :: trials) (e :: es) = (c.lostSize? e).toList ++ lostSizes trials es := by
  cases hlost : c.lostSize? e with
  | none => simp [lostSizes, hlost]
  | some size => simp [lostSizes, hlost]

/-- A list of runs from any calls on. -/
theorem playsAll_scripted (t : Trouble) (place : Placement) (mallocs reallocs : Nat)
    (hexact : l.Exact m) (trials : List Trial) :
    let es := endings t place trials mallocs reallocs m
    ∃ mallocs' reallocs' m' l', PlaysAll trials (.scripted t place mallocs reallocs m l) es
        (List.zipWith (fun c e => c.judge e.string) trials es)
        (.scripted t place mallocs' reallocs' m' l') ∧
      l'.Exact m' ∧ (l'.entries.map Prod.snd).Perm
        (lostSizes trials es ++ l.entries.map Prod.snd) := by
  induction trials generalizing mallocs reallocs m l with
  | nil => exact ⟨mallocs, reallocs, m, l, .nil, hexact, .refl _⟩
  | cons c trials ih =>
      obtain ⟨l₁, hends, hexact₁, hsizes₁⟩ :=
        Subject.ends_scripted t place mallocs reallocs hexact c.subject c.base c.addition
      obtain ⟨mallocs', reallocs', m', l', hplays, hexact', hsizes'⟩ := ih _ _ hexact₁
      refine ⟨mallocs', reallocs', m', l', .cons (plays_of_ends hends) hplays, hexact', ?_⟩
      rw [lostSize?_eq] at hsizes₁
      rw [endings, lostSizes_cons, List.append_assoc]
      exact (hsizes'.trans (hsizes₁.append_left _)).trans (List.perm_append_comm_assoc _ _ _)

/-! ## What is spoiled where no run looks -/

theorem shows_cons (base : CString) (bases : List CString) (calls : Nat)
    (c : Nat × Nat × UInt8) : shows (base :: bases) calls c =
      (c.1 == calls + 1 && decide (c.2.1 < base.length) || shows bases (calls + 1) c) := by
  simp [shows, List.zipIdx_cons]

theorem filter_eq_of_imp {α : Type} {p q : α → Bool} {xs ys : List α}
    (hsame : xs.filter p = ys.filter p) (himp : ∀ x, q x = true → p x = true) :
    xs.filter q = ys.filter q := by
  have hfilter (zs : List α) : (zs.filter p).filter q = zs.filter q := by
    rw [List.filter_filter]
    refine List.filter_congr ?_
    intro x hx
    cases hq : q x with
    | false => rfl
    | true => simp [himp x hq]
  rw [← hfilter xs, hsame, hfilter]

theorem ending_congr {base addition : CString} (hmallocs : t'.mallocs = t.mallocs)
    (hreallocs : t'.reallocs = t.reallocs)
    (hspoiled : t.ending place mallocs reallocs m base addition ≠ .noBlock →
      spoiled (reallocs + 1) base.bytes t'.corruptions =
        spoiled (reallocs + 1) base.bytes t.corruptions) :
    t'.ending place mallocs reallocs m base addition =
      t.ending place mallocs reallocs m base addition := by
  unfold Trouble.ending at hspoiled ⊢
  rw [hmallocs, hreallocs]
  dsimp only at hspoiled ⊢
  split
  next hdenied => rfl
  next hgranted =>
    rw [if_neg hgranted] at hspoiled
    split
    next hdenied => rfl
    next hroom =>
      rw [if_neg hroom] at hspoiled
      rw [hspoiled (by simp)]

theorem grown_cons (c : Trial) (trials : List Trial) {e : Ending} (es : List Ending)
    (hblock : e ≠ .noBlock) : grown (c :: trials) (e :: es) = c.base :: grown trials es := by
  cases e with
  | noBlock => exact absurd rfl hblock
  | noRoom a => rfl
  | answered b block => rfl

/-- The endings follow from the calls that fail and the corruptions that fall on a first
operand. -/
theorem endings_congr (hmallocs : t'.mallocs = t.mallocs) (hreallocs : t'.reallocs = t.reallocs)
    (trials : List Trial)
    (hsame : t'.corruptions.filter
        (shows (grown trials (endings t place trials mallocs reallocs m)) reallocs) =
      t.corruptions.filter
        (shows (grown trials (endings t place trials mallocs reallocs m)) reallocs)) :
    endings t' place trials mallocs reallocs m = endings t place trials mallocs reallocs m := by
  induction trials generalizing mallocs reallocs m with
  | nil => rfl
  | cons c trials ih =>
      simp only [endings] at hsame ⊢
      have hending : t'.ending place mallocs reallocs m c.base c.addition =
          t.ending place mallocs reallocs m c.base c.addition := by
        -- A run that makes a growth call is the next one that the corruptions are looked at for.
        refine ending_congr hmallocs hreallocs ?_
        intro hblock
        rw [grown_cons c trials _ hblock] at hsame
        have hseen : ∀ x : Nat × Nat × UInt8, x.1 = reallocs + 1 → x.2.1 < c.base.bytes.length →
            ∀ bases, shows (c.base :: bases) reallocs x = true := by
          intro x hcall hinside bases
          rw [shows_cons]
          simp [hcall, CString.length, hinside]
        rw [← spoiled_filter fun x hcall hinside => hseen x hcall hinside _, hsame,
          spoiled_filter fun x hcall hinside => hseen x hcall hinside _]
      rw [hending, ih]
      generalize t.ending place mallocs reallocs m c.base c.addition = e at hsame ⊢
      by_cases hblock : e = .noBlock
      · subst hblock
        exact hsame
      · have hgrowths : e.growths = 1 := by
          cases e with
          | noBlock => exact absurd rfl hblock
          | noRoom a => rfl
          | answered b block => rfl
        rw [grown_cons c trials _ hblock] at hsame
        refine filter_eq_of_imp hsame ?_
        intro x hshows
        rw [hgrowths] at hshows ⊢
        rw [shows_cons, hshows, Bool.or_true]

/-- On a tracked heap with any script, over any allocator, every list of runs goes through.  Each
run ends as the script has it: a string ends inside its block and is given back once, and a run
answers null when it got no block or no room and at no other time.  The ledger is exact, with one
block left for each run of the buggy subject that got no room.  Corruptions that do not fall on a
first operand change no outcome. -/
theorem playsAll_of_script (t : Trouble) (place : Placement) (trials : List Trial) :
    let es := endings t place trials 0 0 {}
    ∃ outcomes h' l,
      runAll trials ⟨[.track], { source := .scripted t 0 0, placement := place }⟩ =
        .ok (outcomes, h') ∧
      PlaysAll trials ⟨[.track], { source := .scripted t 0 0, placement := place }⟩ es outcomes
        h' ∧
      h'.ledger? = some l ∧ l.Exact h'.base.memory ∧
      (l.entries.map Prod.snd).Perm (lostSizes trials es) ∧
      ∀ t' : Trouble, t'.mallocs = t.mallocs → t'.reallocs = t.reallocs →
        t'.corruptions.filter (shows (grown trials es) 0) =
          t.corruptions.filter (shows (grown trials es) 0) →
        ∃ h'', runAll trials ⟨[.track], { source := .scripted t' 0 0, placement := place }⟩ =
          .ok (outcomes, h'') := by
  intro es
  have hfresh : Ledger.Exact .empty {} := fun _ => rfl
  obtain ⟨mallocs, reallocs, m, l, hplays, hexact, hsizes⟩ :=
    playsAll_scripted t place 0 0 hfresh trials
  refine ⟨_, .scripted t place mallocs reallocs m l, l, hplays.runAll_eq, hplays, rfl, hexact, ?_,
    ?_⟩
  · rw [← List.append_nil (lostSizes trials es)]
    exact hsizes
  · intro t' hmallocs hreallocs hsame
    obtain ⟨mallocs', reallocs', m', l', hplays', -⟩ :=
      playsAll_scripted t' place 0 0 hfresh trials
    rw [endings_congr hmallocs hreallocs trials hsame] at hplays'
    exact ⟨_, hplays'.runAll_eq⟩

/-- A spoiled byte can end the string early; one that the second operand is copied over is not
seen. -/
example : (endings { corruptions := [(1, 2, 0), (1, 7, 0)] } .above [.normal .fixed] 0 0 {}).map
    Ending.string = [some (Bytes.ofText "he")] := by
  decide

end Scenario.Trial

end GrowthFault
