import GrowthFault.Heap.Call
import Mathlib.Data.List.Nodup

/-!
# Trackers and the blocks that are live

The trackers of a heap stack over the process allocator keep exact ledgers: whatever calls are
made, and whichever of them the allocator refuses or an injector fails, each ledger holds the
live blocks with the sizes last asked for.

One statement, `Resize.Describes`, says what an outcome tells about the memory.  It is proved for
the allocator, kept by every layer, and enough for a ledger that follows outcomes to stay exact.
-/

namespace GrowthFault.Heap

/-- What an outcome tells about the memory before and after. -/
def Resize.Describes (p : Pointer) (size : Nat) (m m' : Memory) : Resize → Prop
  | .moved b => (m'.block? b).map List.length = some size ∧
      ∀ c, c ≠ b → m'.block? c = if p = some c then none else m.block? c
  | .failed => m' = m
  | .released => size = 0 ∧ p.isSome ∧
      ∀ c, m'.block? c = if p = some c then none else m.block? c

/-- A ledger holds the live blocks, with their sizes. -/
def Ledger.Exact (l : Ledger) (m : Memory) : Prop :=
  ∀ a, l.get? a = (m.block? a).map List.length

/-- A pointer that may be handed in: null, or that of a live block. -/
def Permitted (m : Memory) (p : Pointer) : Prop :=
  ∀ a, p = some a → m.live a

theorem Resize.pointer_ofAnswer (p : Pointer) (size : Nat) (q : Pointer) :
    (Resize.ofAnswer p size q).pointer = q := by
  cases q with
  | none =>
      rw [Resize.ofAnswer]
      split <;> rfl
  | some a => rfl

/-! ## The process allocator -/

section Allocator

variable {m : Memory} {p : Pointer} {size : Nat}

theorem block?_erase_pointer (m : Memory) (a c : Address) :
    Memory.block? ⟨m.blocks.erase a⟩ c = if some a = some c then none else m.block? c := by
  rw [m.block?_erase]
  simp [eq_comm]

theorem describes_malloc (m : Memory) (place : Placement) (size : Nat) :
    (Resize.ofAnswer none size (m.malloc place size).1).Describes none size m
      (m.malloc place size).2 := by
  rcases hmalloc : m.malloc place size with ⟨p, m'⟩
  cases p with
  | none =>
      have hfailed : Resize.ofAnswer none size none = .failed := by simp [Resize.ofAnswer]
      rw [hfailed]
      exact Memory.malloc_eq_of_refused hmalloc
  | some a =>
      have hblock := Memory.block?_malloc hmalloc
      refine ⟨by simp [hblock], ?_⟩
      intro c hc
      simp [hblock, hc]

theorem describes_realloc (size : Nat) (place : Placement) (hp : Permitted m p) :
    ∃ q m', m.realloc place p size = .ok (q, m') ∧
      (Resize.ofAnswer p size q).Describes p size m m' := by
  cases p with
  | none => exact ⟨_, _, rfl, describes_malloc m place size⟩
  | some a =>
      obtain ⟨bytes, hbytes⟩ := Option.isSome_iff_exists.1 (hp a rfl)
      by_cases hzero : size = 0
      · refine ⟨none, ⟨m.blocks.erase a⟩, by simp [Memory.realloc, hbytes, hzero], ?_⟩
        rw [Resize.ofAnswer, if_pos ⟨hzero, rfl⟩]
        exact ⟨hzero, rfl, block?_erase_pointer m a⟩
      · by_cases hrefused : place.refuses m size
        · refine ⟨none, m, by simp [Memory.realloc, hbytes, hzero, hrefused], ?_⟩
          rw [Resize.ofAnswer, if_neg (fun h => hzero h.1)]
          rfl
        · let b := if place.stays m a size then a else place.site m size
          refine ⟨some b, ⟨(m.blocks.erase a).insert b (Memory.resized bytes size)⟩,
            by simp [Memory.realloc, hbytes, hzero, hrefused, b], ?_⟩
          have hblock (c : Address) :=
            Memory.block?_insert ⟨m.blocks.erase a⟩ b c (Memory.resized bytes size)
          refine ⟨by simp [hblock], ?_⟩
          intro c hc
          rw [hblock, if_neg hc, block?_erase_pointer]

theorem describes_free (hp : Permitted m p) :
    ∃ m', m.free p = .ok m' ∧ ∀ c, m'.block? c = if p = some c then none else m.block? c := by
  cases p with
  | none => exact ⟨m, rfl, by simp⟩
  | some a =>
      exact ⟨⟨m.blocks.erase a⟩, by simp [Memory.free, hp a rfl], block?_erase_pointer m a⟩

variable {base : Base}

theorem Base.malloc_of_system (hsource : base.source = .system) (size : Nat) :
    base.malloc size = ((base.memory.malloc base.placement size).1,
      { base with memory := (base.memory.malloc base.placement size).2 }) := by
  simp [Base.malloc, hsource]

theorem Base.resize_of_system (size : Nat) (hsource : base.source = .system)
    (hp : Permitted base.memory p) :
    ∃ outcome m', base.resize p size = .ok (outcome, { base with memory := m' }) ∧
      outcome.Describes p size base.memory m' := by
  obtain ⟨q, m', hrealloc, hdescribes⟩ := describes_realloc size base.placement hp
  refine ⟨_, m', ?_, hdescribes⟩
  simp [Base.resize, Base.realloc, Base.systemRealloc, hsource, hrealloc, bind, Except.bind]

theorem Base.free_of_permitted (hp : Permitted base.memory p) :
    ∃ m', base.free p = .ok { base with memory := m' } ∧
      ∀ c, m'.block? c = if p = some c then none else base.memory.block? c := by
  obtain ⟨m', hfree, hblock⟩ := describes_free hp
  exact ⟨m', by simp [Base.free, hfree, bind, Except.bind], hblock⟩

end Allocator

/-! ## Ledgers -/

namespace Ledger

variable {l : Ledger} {m m' : Memory} {p : Pointer} {size : Nat}

theorem get?_afterFree_pointer (l : Ledger) (p : Pointer) (c : Address) :
    (l.afterFree p).get? c = if p = some c then none else l.get? c := by
  cases p with
  | none => rfl
  | some a =>
      rw [get?_afterFree]
      simp [eq_comm]

/-- A new block is a null pointer resized. -/
theorem afterMalloc_eq (l : Ledger) (size : Nat) (q : Pointer) :
    l.afterMalloc size q = l.afterResize none size (.ofAnswer none size q) := by
  cases q with
  | none => simp [afterMalloc, afterResize, Resize.ofAnswer]
  | some a => rfl

theorem Exact.afterFree (hexact : l.Exact m)
    (hblock : ∀ c, m'.block? c = if p = some c then none else m.block? c) :
    (l.afterFree p).Exact m' := by
  intro c
  rw [get?_afterFree_pointer, hblock, hexact]
  split <;> rfl

theorem Exact.afterResize {outcome : Resize} (hexact : l.Exact m)
    (hdescribes : outcome.Describes p size m m') :
    (l.afterResize p size outcome).Exact m' := by
  cases outcome with
  | failed =>
      obtain rfl : m' = m := hdescribes
      exact hexact
  | released =>
      obtain ⟨-, -, hblock⟩ := hdescribes
      exact hexact.afterFree hblock
  | moved b =>
      obtain ⟨hsize, hothers⟩ := hdescribes
      intro c
      have hget : (l.afterResize p size (.moved b)).get? c =
          if c = b then some size else (l.afterFree p).get? c :=
        Table.get?_insert (l.afterFree p) b size c
      rw [hget]
      split
      next hc => rw [hc, hsize]
      next hc =>
        rw [get?_afterFree_pointer, hothers c hc, hexact]
        split <;> rfl

theorem Exact.perm_addresses (hexact : l.Exact m) :
    l.addresses.Perm m.blocks.addresses := by
  refine (List.perm_ext_iff_of_nodup l.nodup m.blocks.nodup).2 ?_
  intro a
  have hl := l.mem_addresses_iff a
  have hm := m.blocks.mem_addresses_iff a
  have hget : (l.get? a).isSome = (m.blocks.get? a).isSome := by
    rw [hexact a, Option.isSome_map]
    rfl
  rw [hget] at hl
  exact hl.trans hm.symm

end Ledger

/-! ## Layers -/

namespace Layers

variable {layers : List Layer} {base base' : Base} {p : Pointer} {size : Nat}

theorem malloc_spec (layers : List Layer) (base : Base) (size : Nat) :
    ∃ layers', malloc layers base size =
        ((base.malloc size).1, layers', (base.malloc size).2) ∧
      ledgers layers' = (ledgers layers).map (·.afterMalloc size (base.malloc size).1) := by
  induction layers with
  | nil => exact ⟨[], rfl, rfl⟩
  | cons layer layers ih =>
      obtain ⟨layers', hmalloc, hledgers⟩ := ih
      cases layer with
      | injector gate =>
          exact ⟨.injector gate :: layers', by rw [malloc, hmalloc], hledgers⟩
      | tracker ledger =>
          refine ⟨.tracker (ledger.afterMalloc size (base.malloc size).1) :: layers',
            by rw [malloc, hmalloc], ?_⟩
          exact congrArg (_ :: ·) hledgers

/-- Either the allocator decides the outcome, or an injector fails the call before it gets
there. -/
theorem resize_spec {outcome : Resize} (layers : List Layer)
    (hbase : base.resize p size = .ok (outcome, base')) :
    ∃ outcome' layers' base'', resize layers base p size = .ok (outcome', layers', base'') ∧
      (outcome' = outcome ∧ base'' = base' ∨ outcome' = .failed ∧ base'' = base) ∧
      ledgers layers' = (ledgers layers).map (·.afterResize p size outcome') := by
  induction layers with
  | nil => exact ⟨outcome, [], base', by rw [resize, hbase]; rfl, .inl ⟨rfl, rfl⟩, rfl⟩
  | cons layer layers ih =>
      obtain ⟨outcome', layers', base'', hresize, hdecided, hledgers⟩ := ih
      cases layer with
      | injector gate =>
          by_cases hfails : gate.admit.1.fails
          · refine ⟨.failed, .injector gate.admit.2 :: layers, base,
              by simp [resize, hfails], .inr ⟨rfl, rfl⟩, ?_⟩
            exact (List.map_id (ledgers layers)).symm
          · refine ⟨outcome', .injector gate.admit.2 :: layers', base'', ?_, hdecided, hledgers⟩
            simp [resize, hfails, hresize, bind, Except.bind]
      | tracker ledger =>
          refine ⟨outcome', .tracker (ledger.afterResize p size outcome') :: layers', base'',
            ?_, hdecided, congrArg (_ :: ·) hledgers⟩
          rw [resize, hresize]
          rfl

theorem free_spec (layers : List Layer) (hbase : base.free p = .ok base') :
    ∃ layers', free layers base p = .ok (layers', base') ∧
      ledgers layers' = (ledgers layers).map (·.afterFree p) := by
  induction layers with
  | nil => exact ⟨[], by rw [free, hbase]; rfl, rfl⟩
  | cons layer layers ih =>
      obtain ⟨layers', hfree, hledgers⟩ := ih
      cases layer with
      | injector gate => exact ⟨.injector gate :: layers', by rw [free, hfree]; rfl, hledgers⟩
      | tracker ledger =>
          exact ⟨.tracker (ledger.afterFree p) :: layers', by rw [free, hfree]; rfl,
            congrArg (_ :: ·) hledgers⟩

theorem freeAll_spec {addresses : List Address} (hnodup : addresses.Nodup)
    (hlive : ∀ a ∈ addresses, base.memory.live a)
    (hexact : ∀ l ∈ ledgers layers, l.Exact base.memory) :
    ∃ layers' base', freeAll layers base addresses = .ok (layers', base') ∧
      addresses.foldlM (fun b a => b.free (some a)) base = .ok base' ∧
      (∀ c, base'.memory.block? c = if c ∈ addresses then none else base.memory.block? c) ∧
      ∀ l ∈ ledgers layers', l.Exact base'.memory := by
  induction addresses generalizing layers base with
  | nil => exact ⟨layers, base, rfl, rfl, by simp, hexact⟩
  | cons a rest ih =>
      obtain ⟨hfresh, hrest⟩ := List.nodup_cons.1 hnodup
      have hp : Permitted base.memory (some a) := by
        rintro _ ⟨⟩
        exact hlive a List.mem_cons_self
      obtain ⟨m, hbase, hblock⟩ := Base.free_of_permitted hp
      obtain ⟨layers₁, hfree, hledgers⟩ := free_spec layers hbase
      have hstill : ∀ b ∈ rest, m.live b := by
        intro b hb
        have hne : a ≠ b := by
          rintro rfl
          exact hfresh hb
        rw [Memory.live, hblock, if_neg (by simpa using hne)]
        exact hlive b (List.mem_cons_of_mem a hb)
      have hexact₁ : ∀ l ∈ ledgers layers₁, l.Exact m := by
        rw [hledgers, List.forall_mem_map]
        exact fun l hl => (hexact l hl).afterFree hblock
      obtain ⟨layers', base', hall, hfold, hblock', hexact'⟩ :=
        @ih layers₁ { base with memory := m } hrest hstill hexact₁
      refine ⟨layers', base', ?_, ?_, ?_, hexact'⟩
      · rw [freeAll, hfree]
        exact hall
      · rw [List.foldlM_cons, hbase]
        exact hfold
      · intro c
        rw [hblock', hblock]
        by_cases hc : c = a
        · simp [hc]
        · have hca : ¬ a = c := fun h => hc h.symm
          simp [hc, hca]

theorem ledger?_eq_head? (layers : List Layer) : ledger? layers = (ledgers layers).head? := by
  induction layers with
  | nil => rfl
  | cons layer layers ih =>
      cases layer with
      | injector gate => exact ih
      | tracker ledger => rfl

/-- The outermost tracker gives back what is live, and nothing is left for the trackers below. -/
theorem release_spec (hexact : ∀ l ∈ ledgers layers, l.Exact base.memory)
    (htracker : (ledger? layers).isSome) :
    ∃ (freed : List Address) (layers' : List Layer) (base' : Base),
      release layers base = .ok (some freed.length, layers', base') ∧
      freed.Perm base.memory.blocks.addresses ∧
      freed.foldlM (fun b a => b.free (some a)) base = .ok base' ∧
      base'.memory.blocks = .empty ∧ ∀ l ∈ ledgers layers', l = .empty := by
  induction layers with
  | nil => simp [ledger?] at htracker
  | cons layer layers ih =>
      cases layer with
      | injector gate =>
          obtain ⟨freed, layers', base', hrelease, hfreed⟩ := ih hexact htracker
          refine ⟨freed, .injector gate :: layers', base', ?_, hfreed⟩
          rw [release, hrelease]
          rfl
      | tracker ledger =>
          have hperm := (hexact ledger List.mem_cons_self).perm_addresses
          have hnodup : ledger.addresses.Nodup := ledger.nodup
          have hlive : ∀ a ∈ ledger.addresses, base.memory.live a := by
            intro a ha
            exact (base.memory.blocks.mem_addresses_iff a).1 (hperm.mem_iff.1 ha)
          have hbelow : ∀ l ∈ ledgers layers, l.Exact base.memory :=
            fun l hl => hexact l (List.mem_cons_of_mem ledger hl)
          obtain ⟨layers', base', hall, hfold, hblock, hexact'⟩ :=
            freeAll_spec hnodup hlive hbelow
          have hempty : ∀ a, base'.memory.block? a = none := by
            intro a
            rw [hblock]
            split
            next hmem => rfl
            next hmem =>
              have hdead := mt (base.memory.blocks.mem_addresses_iff a).2
                (mt hperm.mem_iff.2 hmem)
              simpa [Memory.block?] using hdead
          refine ⟨ledger.addresses, .tracker .empty :: layers', base', ?_, hperm, hfold,
            Table.eq_empty hempty, ?_⟩
          · have hcount : ledger.size = ledger.addresses.length := (List.length_map _).symm
            rw [release, hall, hcount]
            rfl
          · intro l hl
            rcases List.mem_cons.1 hl with rfl | hl
            · rfl
            · refine Table.eq_empty ?_
              intro a
              rw [hexact' l hl, hempty]
              rfl

end Layers

/-! ## Calls -/

def Call.pointer : Call → Pointer
  | .malloc _ => none
  | .realloc p _ | .resize p _ | .free p => p

def Call.size? : Call → Option Nat
  | .malloc size | .realloc _ size | .resize _ size => some size
  | .free _ => none

def Answer.block : Answer → Pointer
  | .pointer p => p
  | .resized outcome => outcome.pointer
  | .freed => none

def Answer.Describes (m m' : Memory) : Call → Answer → Prop
  | .malloc size, .pointer q =>
    ∃ outcome : Resize, outcome.pointer = q ∧ outcome.Describes none size m m'
  | .realloc p size, .pointer q =>
    ∃ outcome : Resize, outcome.pointer = q ∧ outcome.Describes p size m m'
  | .resize p size, .resized outcome => outcome.Describes p size m m'
  | .free p, .freed => ∀ c, m'.block? c = if p = some c then none else m.block? c
  | _, _ => False

/-- The size asked for by the last call that handed a block out at an address; the latest call
comes first. -/
def requested : List (Call × Answer) → Address → Option Nat
  | [], _ => none
  | (c, answer) :: earlier, a => if answer.block = some a then c.size? else requested earlier a

theorem block?_of_kept {m m' : Memory} {p : Pointer} {a : Address} {bytes : Bytes}
    (hblock : m'.block? a = if p = some a then none else m.block? a)
    (hbytes : m'.block? a = some bytes) : m.block? a = some bytes := by
  rw [hblock] at hbytes
  split at hbytes
  next hgone => cases hbytes
  next hkept => exact hbytes

namespace Stack

/-- The stacks that permitted calls lead to, with the calls and their answers. -/
inductive Run (start : Stack) : List (Call × Answer) → Stack → Prop where
  | start : Run start [] start
  | call {history : List (Call × Answer)} {h h' : Stack} {c : Call} {answer : Answer} :
      Run start history h → Permitted h.base.memory c.pointer →
      h.perform c = .ok (answer, h') → Run start ((c, answer) :: history) h'

/-- Over the process allocator, the trackers that a stack began with and the calls so far know
what is live. -/
structure Sound (start : Stack) (history : List (Call × Answer)) (h : Stack) : Prop where
  source : h.base.source = .system
  trackers : (Layers.ledgers h.layers).length = (Layers.ledgers start.layers).length
  exact : ∀ l ∈ Layers.ledgers h.layers, l.Exact h.base.memory
  sizes : ∀ a bytes, h.base.memory.block? a = some bytes →
    requested history a = some bytes.length

variable {start h : Stack} {history : List (Call × Answer)} {c : Call} {answer : Answer}
  {p : Pointer} {size : Nat} {layers : List Layer} {m : Memory}

theorem Sound.afterResize {outcome : Resize} (hsound : start.Sound history h)
    (hdescribes : outcome.Describes p size h.base.memory m)
    (hledgers : Layers.ledgers layers =
      (Layers.ledgers h.layers).map (·.afterResize p size outcome))
    (hblock : answer.block = outcome.pointer) (hsize : c.size? = some size) :
    start.Sound ((c, answer) :: history) ⟨layers, { h.base with memory := m }⟩ where
  source := hsound.source
  trackers := by rw [hledgers, List.length_map, hsound.trackers]
  exact := by
    rw [hledgers, List.forall_mem_map]
    exact fun l hl => (hsound.exact l hl).afterResize hdescribes
  sizes := by
    intro a bytes hbytes
    rw [requested, hblock, hsize]
    cases outcome with
    | failed =>
        obtain rfl : m = h.base.memory := hdescribes
        exact hsound.sizes a bytes hbytes
    | released =>
        obtain ⟨-, -, hothers⟩ := hdescribes
        exact hsound.sizes a bytes (block?_of_kept (hothers a) hbytes)
    | moved b =>
        obtain ⟨hmoved, hothers⟩ := hdescribes
        have hpointer : (Resize.moved b).pointer = some b := rfl
        rw [hpointer]
        by_cases hb : b = a
        · rw [hb, hbytes] at hmoved
          rw [if_pos (congrArg some hb)]
          exact hmoved.symm
        · have hother := hothers a (fun hab => hb hab.symm)
          rw [if_neg (fun hab => hb (Option.some.inj hab))]
          exact hsound.sizes a bytes (block?_of_kept hother hbytes)

theorem Sound.afterFree (hsound : start.Sound history h)
    (hblock : ∀ c, m.block? c = if p = some c then none else h.base.memory.block? c)
    (hledgers : Layers.ledgers layers = (Layers.ledgers h.layers).map (·.afterFree p)) :
    start.Sound ((.free p, .freed) :: history) ⟨layers, { h.base with memory := m }⟩ where
  source := hsound.source
  trackers := by rw [hledgers, List.length_map, hsound.trackers]
  exact := by
    rw [hledgers, List.forall_mem_map]
    exact fun l hl => (hsound.exact l hl).afterFree hblock
  sizes := by
    intro a bytes hbytes
    exact hsound.sizes a bytes (block?_of_kept (hblock a) hbytes)

theorem malloc_spec (hsource : h.base.source = .system) (size : Nat) :
    ∃ outcome layers m,
      h.malloc size = (outcome.pointer, ⟨layers, { h.base with memory := m }⟩) ∧
      outcome.Describes none size h.base.memory m ∧
      Layers.ledgers layers =
        (Layers.ledgers h.layers).map (·.afterResize none size outcome) := by
  obtain ⟨layers, hmalloc, hledgers⟩ := Layers.malloc_spec h.layers h.base size
  rw [Base.malloc_of_system hsource] at hmalloc hledgers
  refine ⟨_, layers, _, ?_, describes_malloc h.base.memory h.base.placement size, ?_⟩
  · rw [malloc, hmalloc, Resize.pointer_ofAnswer]
  · simp only [hledgers, Ledger.afterMalloc_eq]

theorem resize_spec (hsource : h.base.source = .system) (size : Nat)
    (hp : Permitted h.base.memory p) :
    ∃ outcome layers m,
      h.resize p size = .ok (outcome, ⟨layers, { h.base with memory := m }⟩) ∧
      outcome.Describes p size h.base.memory m ∧
      Layers.ledgers layers =
        (Layers.ledgers h.layers).map (·.afterResize p size outcome) := by
  obtain ⟨outcome, m, hbase, hdescribes⟩ := Base.resize_of_system size hsource hp
  obtain ⟨outcome', layers, base, hresize, hdecided, hledgers⟩ :=
    Layers.resize_spec h.layers hbase
  rcases hdecided with ⟨rfl, rfl⟩ | ⟨rfl, rfl⟩
  · exact ⟨outcome', layers, m, by rw [resize, hresize]; rfl, hdescribes, hledgers⟩
  · exact ⟨.failed, layers, h.base.memory, by rw [resize, hresize]; rfl, rfl, hledgers⟩

/-- A permitted call is answered, its answer is true, and what is known stays sound. -/
theorem perform_spec (hsound : start.Sound history h) (hp : Permitted h.base.memory c.pointer) :
    ∃ answer h', h.perform c = .ok (answer, h') ∧
      answer.Describes h.base.memory h'.base.memory c ∧
      start.Sound ((c, answer) :: history) h' := by
  cases c with
  | malloc size =>
      obtain ⟨outcome, layers, m, hmalloc, hdescribes, hledgers⟩ :=
        malloc_spec hsound.source size
      refine ⟨.pointer outcome.pointer, ⟨layers, { h.base with memory := m }⟩, ?_,
        ⟨outcome, rfl, hdescribes⟩, hsound.afterResize hdescribes hledgers rfl rfl⟩
      rw [perform, hmalloc]
  | realloc p size =>
      have hpermitted : Permitted h.base.memory p := hp
      obtain ⟨outcome, layers, m, hresize, hdescribes, hledgers⟩ :=
        resize_spec hsound.source size hpermitted
      refine ⟨.pointer outcome.pointer, ⟨layers, { h.base with memory := m }⟩, ?_,
        ⟨outcome, rfl, hdescribes⟩, hsound.afterResize hdescribes hledgers rfl rfl⟩
      rw [perform, realloc, hresize]
      rfl
  | resize p size =>
      have hpermitted : Permitted h.base.memory p := hp
      obtain ⟨outcome, layers, m, hresize, hdescribes, hledgers⟩ :=
        resize_spec hsound.source size hpermitted
      refine ⟨.resized outcome, ⟨layers, { h.base with memory := m }⟩, ?_, hdescribes,
        hsound.afterResize hdescribes hledgers rfl rfl⟩
      rw [perform, hresize]
      rfl
  | free p =>
      have hpermitted : Permitted h.base.memory p := hp
      obtain ⟨m, hbase, hblock⟩ := Base.free_of_permitted hpermitted
      obtain ⟨layers, hfree, hledgers⟩ := Layers.free_spec h.layers hbase
      refine ⟨.freed, ⟨layers, { h.base with memory := m }⟩, ?_, hblock,
        hsound.afterFree hblock hledgers⟩
      rw [perform, free, hfree]
      rfl

theorem Run.sound (hstart : start.Sound [] start) (hrun : start.Run history h) :
    start.Sound history h := by
  induction hrun with
  | start => exact hstart
  | call hrun hp hperform ih =>
      obtain ⟨answer, h', hperformed, -, hsound⟩ := perform_spec ih hp
      obtain ⟨rfl, rfl⟩ : answer = _ ∧ h' = _ := by
        simpa using hperformed.symm.trans hperform
      exact hsound

/-- What a tracker knows of an address: the size last asked for, while a block is live there. -/
theorem Sound.get?_eq (hsound : start.Sound history h) {l : Ledger}
    (hl : l ∈ Layers.ledgers h.layers) (a : Address) :
    l.get? a = if h.base.memory.live a then requested history a else none := by
  rw [hsound.exact l hl a]
  cases hblock : h.base.memory.block? a with
  | none => simp [Memory.live, hblock]
  | some bytes =>
      rw [hsound.sizes a bytes hblock]
      simp [Memory.live, hblock]

theorem release_spec (hsound : start.Sound history h)
    (htrackers : Layers.ledgers start.layers ≠ []) :
    ∃ (freed : List Address) (h' : Stack), h.release = .ok (some freed.length, h') ∧
      freed.Perm h.base.memory.blocks.addresses ∧
      freed.foldlM (fun b a => b.free (some a)) h.base = .ok h'.base ∧
      h'.base.memory.blocks = .empty ∧ ∀ l ∈ Layers.ledgers h'.layers, l = .empty := by
  have hlength : (Layers.ledgers h.layers).length ≠ 0 := by
    rw [hsound.trackers]
    exact mt List.length_eq_zero_iff.1 htrackers
  have htracker : (Layers.ledger? h.layers).isSome := by
    rw [Layers.ledger?_eq_head?, List.isSome_head?]
    exact mt (congrArg List.length) hlength
  obtain ⟨freed, layers, base, hrelease, hfreed⟩ := Layers.release_spec hsound.exact htracker
  refine ⟨freed, ⟨layers, base⟩, ?_, hfreed⟩
  rw [release, hrelease]
  rfl

/-- After any permitted calls, each tracker knows exactly the live blocks, with the size last
asked for; every further permitted call is answered, and truthfully; and the outermost tracker
gives every live block back, each once. -/
theorem run_ledgers_exact {place : Placement} {layers : List Layer}
    (hlayers : ∀ l ∈ Layers.ledgers layers, l = .empty)
    (hrun : Run ⟨layers, { source := .system, placement := place }⟩ history h) :
    (Layers.ledgers h.layers).length = (Layers.ledgers layers).length ∧
    (∀ l ∈ Layers.ledgers h.layers, l.Exact h.base.memory ∧
      ∀ a, l.get? a = if h.base.memory.live a then requested history a else none) ∧
    (∀ c, Permitted h.base.memory c.pointer → ∃ answer h', h.perform c = .ok (answer, h') ∧
      answer.Describes h.base.memory h'.base.memory c) ∧
    (Layers.ledgers layers ≠ [] → ∃ (freed : List Address) (h' : Stack),
      h.release = .ok (some freed.length, h') ∧
      freed.Perm h.base.memory.blocks.addresses ∧
      freed.foldlM (fun b a => b.free (some a)) h.base = .ok h'.base ∧
      h'.base.memory.blocks = .empty ∧ ∀ l ∈ Layers.ledgers h'.layers, l = .empty) := by
  let start : Stack := ⟨layers, { source := .system, placement := place }⟩
  have hstart : start.Sound [] start := by
    refine ⟨rfl, rfl, ?_, ?_⟩
    · intro l hl a
      rw [hlayers l hl]
      rfl
    · intro a bytes hbytes
      cases hbytes
  have hsound : start.Sound history h := hrun.sound hstart
  refine ⟨hsound.trackers, ?_, ?_, release_spec hsound⟩
  · intro l hl
    exact ⟨hsound.exact l hl, hsound.get?_eq hl⟩
  · intro c hp
    obtain ⟨answer, h', hperform, hdescribes, -⟩ := perform_spec hsound hp
    exact ⟨answer, h', hperform, hdescribes⟩

/-- An injector fails a request for no bytes: its block stays live, and both trackers know. -/
theorem run_ledgers_exact_injected :
    let layers := [.track, .inject ⟨2, false⟩, .track]
    ∃ h : Stack,
      Run ⟨layers, { source := .system, placement := .above }⟩
        [(.resize (some 2) 0, .resized .failed), (.realloc (some 1) 16, .pointer (some 2)),
          (.malloc 8, .pointer (some 1))] h ∧
      (∀ l ∈ Layers.ledgers h.layers, l.get? 1 = none ∧ l.get? 2 = some 16) ∧
      ∃ h', h.release = .ok (some 1, h') := by
  intro layers
  have hlayers : ∀ l ∈ Layers.ledgers layers, l = .empty := by
    intro l hl
    simpa [layers, Layers.ledgers, Layer.track, Layer.inject] using hl
  have hone {m : Memory} (a : Address) (hlive : m.live a) : Permitted m (some a) := by
    rintro _ ⟨⟩
    exact hlive
  have hrun : Run ⟨layers, { source := .system, placement := .above }⟩ _ _ :=
    .call (c := .resize (some 2) 0) (.call (c := .realloc (some 1) 16)
      (.call (c := .malloc 8) .start (by rintro _ ⟨⟩) rfl) (hone 1 rfl) rfl) (hone 2 rfl) rfl
  obtain ⟨-, hledgers, -, hrelease⟩ := run_ledgers_exact hlayers hrun
  have htrackers : Layers.ledgers layers ≠ [] := by simp [layers, Layers.ledgers, Layer.track]
  obtain ⟨freed, h', hreleased, hperm, -⟩ := hrelease htrackers
  refine ⟨_, hrun, ?_, h', ?_⟩
  · intro l hl
    obtain ⟨-, hget⟩ := hledgers l hl
    exact ⟨hget 1, hget 2⟩
  · rw [hreleased, hperm.length_eq]
    rfl

end Stack

end GrowthFault.Heap
