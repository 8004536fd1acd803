import GrowthFault.Heap.Allocator
import GrowthFault.Proofs.LedgerExactness

/-!
# The contract of an allocator

What C promises about the three calls, said of the live blocks before and after a call.  A call
that fails changes nothing, and any call may fail; a block that is handed out was not live before,
and nothing is promised about its new bytes.

Every stack keeps this contract, whatever its layers are and whichever calls its base fails, as
long as the base spoils no bytes.
-/

namespace GrowthFault

namespace Memory

/-- The same blocks are live, with the same bytes. -/
def Same (m m' : Memory) : Prop :=
  ∀ c, m'.block? c = m.block? c

/-- One more block is live, with these bytes. -/
def Gains (m m' : Memory) (a : Address) (bytes : Bytes) : Prop :=
  m.block? a = none ∧ ∀ c, m'.block? c = if c = a then some bytes else m.block? c

def Loses (m m' : Memory) (a : Address) : Prop :=
  ∀ c, m'.block? c = if c = a then none else m.block? c

/-- What an answer says about a request for a new block. -/
def Allots (m m' : Memory) (size : Nat) : Pointer → Prop
  | none => m.Same m'
  | some a => ∃ bytes, bytes.length = size ∧ m.Gains m' a bytes

/-- What an answer says about a request for another size of the block at an address, which held
these bytes. -/
def Regrows (m m' : Memory) (a : Address) (old : Bytes) (size : Nat) : Pointer → Prop
  | none => m.Same m'
  | some b => (b = a ∨ m.block? b = none) ∧
      ∃ bytes, bytes.length = size ∧ bytes.take old.length = old.take size ∧
        ∀ c, m'.block? c = if c = b then some bytes else if c = a then none else m.block? c

end Memory

namespace Heap

/-- The C contract, in the states of a kind that no call leaves. -/
structure Allocator.Contract (σ : Type) [Allocator σ] (Good : σ → Prop) : Prop where
  write : ∀ {h : σ} {m : Memory} {a : Address} {offset : Nat} {data : Bytes},
    Good h → (memory h).write a offset data = .ok m →
      Good (withMemory h m) ∧ memory (withMemory h m) = m
  malloc : ∀ {h : σ} (size : Nat), Good h →
    Good (Allocator.malloc h size).2 ∧
      (memory h).Allots (memory (Allocator.malloc h size).2) size (Allocator.malloc h size).1
  realloc : ∀ {h : σ} {a : Address} {old : Bytes} {size : Nat},
    Good h → (memory h).block? a = some old → 0 < size →
      ∃ q h', Allocator.realloc h (some a) size = .ok (q, h') ∧ Good h' ∧
        (memory h).Regrows (memory h') a old size q
  free : ∀ {h : σ} {a : Address}, Good h → (memory h).live a →
    ∃ h', Allocator.free h (some a) = .ok h' ∧ Good h' ∧ (memory h).Loses (memory h') a

/-! ## The process allocator -/

section Memory

variable {m : Memory} {a : Address} {old : Bytes} {size : Nat}

theorem allots_malloc (m : Memory) (place : Placement) (size : Nat) :
    m.Allots (m.malloc place size).2 size (m.malloc place size).1 := by
  unfold Memory.malloc
  split
  · intro c
    rfl
  · refine ⟨Memory.zeros size, Memory.length_zeros size, place.site_free m size, ?_⟩
    intro c
    exact m.block?_insert _ c _

theorem take_resized (bytes : Bytes) (size : Nat) :
    (Memory.resized bytes size).take bytes.length = bytes.take size := by
  unfold Memory.resized
  rcases Nat.le_total size bytes.length with hle | hle
  · have hnone : size - bytes.length = 0 := by omega
    rw [hnone]
    simp [Memory.zeros, List.take_take, hle]
  · rw [List.take_of_length_le hle]
    simp

theorem regrows_realloc (place : Placement) (hblock : m.block? a = some old) (hsize : 0 < size) :
    ∃ q m', m.realloc place (some a) size = .ok (q, m') ∧ m.Regrows m' a old size q := by
  have hne : size ≠ 0 := by omega
  by_cases hrefused : place.refuses m size
  · refine ⟨none, m, by simp [Memory.realloc, hblock, hne, hrefused], ?_⟩
    intro c
    rfl
  · let b := if place.stays m a size then a else place.site m size
    refine ⟨some b, ⟨(m.blocks.erase a).insert b (Memory.resized old size)⟩,
      by simp [Memory.realloc, hblock, hne, hrefused, b], ?_, _, Memory.length_resized old size,
      take_resized old size, ?_⟩
    · by_cases hstays : place.stays m a size
      · exact .inl (by simp [b, hstays])
      · right
        simpa [b, hstays] using place.site_free m size
    · intro c
      rw [Memory.block?_insert ⟨m.blocks.erase a⟩, Memory.block?_erase]

theorem loses_free (hlive : m.live a) : ∃ m', m.free (some a) = .ok m' ∧ m.Loses m' a :=
  ⟨⟨m.blocks.erase a⟩, by simp [Memory.free, hlive], m.block?_erase a⟩

end Memory

/-! ## Base allocators -/

/-- No bytes are spoiled. -/
def Source.Honest : Source → Prop
  | .scripted trouble _ _ => trouble.corruptions = []
  | _ => True

namespace Base

variable {b : Base} {a : Address} {old : Bytes} {size : Nat}

theorem allots_malloc (hhonest : b.source.Honest) (size : Nat) :
    (b.malloc size).2.source.Honest ∧
      b.memory.Allots (b.malloc size).2.memory size (b.malloc size).1 := by
  have hmemory := Heap.allots_malloc b.memory b.placement size
  unfold Base.malloc
  split
  next trouble mallocs reallocs hsource =>
    rw [hsource] at hhonest
    split
    · exact ⟨hhonest, fun _ => rfl⟩
    · exact ⟨hhonest, hmemory⟩
  next => exact ⟨hhonest, hmemory⟩

theorem regrows_systemRealloc (hhonest : b.source.Honest)
    (hblock : b.memory.block? a = some old) (hsize : 0 < size) :
    ∃ q b', b.systemRealloc (some a) size = .ok (q, b') ∧ b'.source.Honest ∧
      b.memory.Regrows b'.memory a old size q := by
  obtain ⟨q, m, hrealloc, hregrows⟩ := regrows_realloc b.placement hblock hsize
  refine ⟨q, { b with memory := m }, ?_, hhonest, hregrows⟩
  rw [systemRealloc, hrealloc]
  rfl

theorem regrows_realloc (hhonest : b.source.Honest)
    (hblock : b.memory.block? a = some old) (hsize : 0 < size) :
    ∃ q b', b.realloc (some a) size = .ok (q, b') ∧ b'.source.Honest ∧
      b.memory.Regrows b'.memory a old size q := by
  have hfailed : b.memory.Regrows b.memory a old size none := fun _ => rfl
  unfold Base.realloc
  split
  next => exact regrows_systemRealloc hhonest hblock hsize
  next trouble mallocs reallocs hsource =>
    rw [hsource] at hhonest
    have hcorruptions : trouble.corruptions = [] := hhonest
    let b₁ : Base := { b with source := .scripted trouble mallocs (reallocs + 1) }
    have hhonest₁ : b₁.source.Honest := hhonest
    dsimp only
    split
    · exact ⟨none, b₁, rfl, hhonest, hfailed⟩
    · obtain ⟨q, b', hrealloc, hhonest', hregrows⟩ :=
        @regrows_systemRealloc b₁ a old size hhonest₁ hblock hsize
      refine ⟨q, b', ?_, hhonest', hregrows⟩
      have hspoil (a' : Address) :
          corrupt (reallocs + 1) size a' b'.memory trouble.corruptions = .ok b'.memory := by
        rw [hcorruptions, corrupt]
      rw [hrealloc]
      cases q with
      | none => rfl
      | some a' => simp [bind, Except.bind, hspoil]
  next env process reports hsource =>
    split
    next => exact ⟨none, _, rfl, trivial, hfailed⟩
    next => exact regrows_systemRealloc trivial hblock hsize

end Base

/-! ## Stacks -/

theorem Stack.contract : Allocator.Contract Stack fun h => h.base.source.Honest where
  write hhonest _ := ⟨hhonest, rfl⟩
  malloc := by
    intro h size hhonest
    obtain ⟨layers, hmalloc, -⟩ := Layers.malloc_spec h.layers h.base size
    have hstack : Allocator.malloc h size =
        ((h.base.malloc size).1, ⟨layers, (h.base.malloc size).2⟩) := by
      change Stack.malloc h size = _
      rw [Stack.malloc, hmalloc]
    rw [hstack]
    exact Base.allots_malloc hhonest size
  realloc := by
    intro h a old size hhonest hblock hsize
    obtain ⟨q, base, hbase, hhonest', hregrows⟩ := Base.regrows_realloc hhonest hblock hsize
    have hresize : h.base.resize (some a) size = .ok (.ofAnswer (some a) size q, base) := by
      rw [Base.resize, hbase]
      rfl
    obtain ⟨outcome, layers, base', hlayers, hdecided, -⟩ :=
      Layers.resize_spec h.layers hresize
    refine ⟨outcome.pointer, ⟨layers, base'⟩, ?_, ?_⟩
    · change Stack.realloc h (some a) size = _
      rw [Stack.realloc, Stack.resize, hlayers]
      rfl
    · rcases hdecided with ⟨rfl, rfl⟩ | ⟨rfl, rfl⟩
      · rw [Resize.pointer_ofAnswer]
        exact ⟨hhonest', hregrows⟩
      · exact ⟨hhonest, fun _ => rfl⟩
  free := by
    intro h a hhonest hlive
    have hmemory : h.base.memory.live a := hlive
    obtain ⟨m, hfree, hloses⟩ := loses_free hmemory
    have hbase : h.base.free (some a) = .ok { h.base with memory := m } := by
      rw [Base.free, hfree]
      rfl
    obtain ⟨layers, hlayers, -⟩ := Layers.free_spec h.layers hbase
    refine ⟨⟨layers, { h.base with memory := m }⟩, ?_, hhonest, hloses⟩
    change Stack.free h (some a) = _
    rw [Stack.free, hlayers]
    rfl

end Heap

end GrowthFault
