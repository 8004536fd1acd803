import GrowthFault.Memory.Table
import GrowthFault.Text.Utf8

/-!
# Memory

A memory is its live blocks.  The allocator answers as C asks: a refused request changes
nothing, a block that grows keeps its bytes, a request to resize a block to nothing frees it and
answers null.  Where a block goes and which requests are refused is left to a placement, which may
reuse an address as soon as it is free and may leave a block where it is.  Using an address that
is not live, or bytes beyond a block, is a misuse and has no result.
-/

namespace GrowthFault

structure Memory where
  blocks : Table Bytes := .empty

/-- A use of memory that has no meaning. -/
inductive Misuse where
  | dead (a : Address)
  | outOfBounds (a : Address) (offset length : Nat)
  deriving DecidableEq, Repr

namespace Memory

def block? (m : Memory) (a : Address) : Option Bytes :=
  m.blocks.get? a

def live (m : Memory) (a : Address) : Bool :=
  (m.block? a).isSome

def limit : Nat := 0x8000000000000000

def zeros (size : Nat) : Bytes :=
  List.replicate size 0

/-- A block's bytes at another size; what is new is zero. -/
def resized (bytes : Bytes) (size : Nat) : Bytes :=
  bytes.take size ++ zeros (size - bytes.length)

def overwrite (bytes : Bytes) (offset : Nat) (data : Bytes) : Bytes :=
  bytes.take offset ++ data ++ bytes.drop (offset + data.length)

def read (m : Memory) (a : Address) (offset length : Nat) : Except Misuse Bytes :=
  match m.block? a with
  | none => .error (.dead a)
  | some bytes =>
    if offset + length ≤ bytes.length then .ok ((bytes.drop offset).take length)
    else .error (.outOfBounds a offset length)

def write (m : Memory) (a : Address) (offset : Nat) (data : Bytes) : Except Misuse Memory :=
  match m.block? a with
  | none => .error (.dead a)
  | some bytes =>
    if offset + data.length ≤ bytes.length then
      .ok ⟨m.blocks.insert a (overwrite bytes offset data)⟩
    else .error (.outOfBounds a offset data.length)

/-- The bytes of a block before its first zero; there must be one. -/
def readString (m : Memory) (a : Address) : Except Misuse Bytes :=
  match m.block? a with
  | none => .error (.dead a)
  | some bytes =>
    if bytes.contains 0 then .ok (bytes.takeWhile (· != 0))
    else .error (.outOfBounds a 0 (bytes.length + 1))

end Memory

/-- Where blocks go: `site` is the address for a new block of a size, and `stays` says whether a
block is resized where it is.  A request for a size may be refused. -/
structure Placement where
  site : Memory → Nat → Address
  stays : Memory → Address → Nat → Bool
  refuses : Memory → Nat → Bool := fun _ size => Memory.limit ≤ size
  site_free : ∀ (m : Memory) (n : Nat), m.block? (site m n) = none

def Memory.top (m : Memory) : Address :=
  m.blocks.addresses.foldr (fun a t => max (a + 1) t) 1

theorem Memory.lt_top {m : Memory} {a : Address} (h : a ∈ m.blocks.addresses) : a < m.top := by
  unfold Memory.top
  revert h
  induction m.blocks.addresses with
  | nil => simp
  | cons b bs ih =>
    intro h
    rcases List.mem_cons.1 h with rfl | h
    · exact Nat.lt_of_lt_of_le (Nat.lt_succ_self _) (Nat.le_max_left _ _)
    · exact Nat.lt_of_lt_of_le (ih h) (Nat.le_max_right _ _)

/-- Every new block goes above the live ones, and a resized block is a new one. -/
def Placement.above : Placement where
  site m _ := m.top
  stays _ _ _ := false
  site_free m _ := by
    by_cases h : m.top ∈ m.blocks.addresses
    · exact absurd (Memory.lt_top h) (Nat.lt_irrefl _)
    · have := m.blocks.mem_addresses_iff m.top
      simp_all [Memory.block?]

/-- New blocks go above the live ones, and a resized block stays where it is. -/
def Placement.inPlace : Placement :=
  { above with stays := fun _ _ _ => true }

namespace Memory

def malloc (m : Memory) (place : Placement) (size : Nat) : Pointer × Memory :=
  if place.refuses m size then (none, m)
  else
    let a := place.site m size
    (some a, ⟨m.blocks.insert a (zeros size)⟩)

/-- Ask for another size of a block, or for a new block. -/
def realloc (m : Memory) (place : Placement) (p : Pointer) (size : Nat) :
    Except Misuse (Pointer × Memory) :=
  match p with
  | none => .ok (m.malloc place size)
  | some a =>
    match m.block? a with
    | none => .error (.dead a)
    | some bytes =>
      if size = 0 then .ok (none, ⟨m.blocks.erase a⟩)
      else if place.refuses m size then .ok (none, m)
      else
        let b := if place.stays m a size then a else place.site m size
        .ok (some b, ⟨(m.blocks.erase a).insert b (resized bytes size)⟩)

/-- Give a block back; null is no block. -/
def free (m : Memory) (p : Pointer) : Except Misuse Memory :=
  match p with
  | none => .ok m
  | some a => if m.live a then .ok ⟨m.blocks.erase a⟩ else .error (.dead a)

theorem block?_insert (m : Memory) (a b : Address) (bytes : Bytes) :
    Memory.block? ⟨m.blocks.insert a bytes⟩ b = if b = a then some bytes else m.block? b :=
  m.blocks.get?_insert a bytes b

theorem block?_erase (m : Memory) (a b : Address) :
    Memory.block? ⟨m.blocks.erase a⟩ b = if b = a then none else m.block? b :=
  m.blocks.get?_erase a b

theorem block?_malloc {m m' : Memory} {place : Placement} {size : Nat} {a : Address}
    (h : m.malloc place size = (some a, m')) (b : Address) :
    m'.block? b = if b = a then some (zeros size) else m.block? b := by
  unfold malloc at h
  split at h
  · cases h
  · cases h; exact block?_insert m _ b _

theorem malloc_eq_of_refused {m m' : Memory} {place : Placement} {size : Nat}
    (h : m.malloc place size = (none, m')) : m' = m := by
  unfold malloc at h
  split at h <;> cases h
  rfl

theorem block?_write {m m' : Memory} {a : Address} {offset : Nat} {data old : Bytes}
    (live : m.block? a = some old) (h : m.write a offset data = .ok m') (b : Address) :
    m'.block? b = if b = a then some (overwrite old offset data) else m.block? b := by
  simp only [write, live] at h
  split at h <;> cases h
  exact block?_insert m a b _

@[simp] theorem length_zeros (size : Nat) : (zeros size).length = size := by
  simp [zeros]

@[simp] theorem length_resized (bytes : Bytes) (size : Nat) :
    (resized bytes size).length = size := by
  simp [resized]
  omega

theorem length_overwrite {bytes : Bytes} {offset : Nat} {data : Bytes}
    (h : offset + data.length ≤ bytes.length) :
    (overwrite bytes offset data).length = bytes.length := by
  simp [overwrite]
  omega

end Memory

end GrowthFault
