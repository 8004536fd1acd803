import GrowthFault.Proofs.AllocatorContract
import GrowthFault.Proofs.LayeredCalls
import Mathlib.Data.List.Forall2

/-!
# Growth that fails and growth that succeeds

A request for another size of a block is failed by an injector, denied by the base before the
process allocator hears of it, or decided by the process allocator.  `Stack.Resizes` says what is
left in each of these cases, for every state of a stack.  A failure leaves the memory, the ledgers
and the policies as they were, so that the block can be used as if the request had not been made;
a success carries the bytes of the block over and touches no other block.
-/

namespace GrowthFault

namespace Memory

/-- The bytes that a pointer leads to; null leads to none. -/
def held (m : Memory) (p : Pointer) : Bytes :=
  (p.bind m.block?).getD []

/-- What a pointer led to is now a block of the size asked for, which begins with as much of the
old bytes as it has room for.  It takes the place of no other block, and these are as they were. -/
structure Grows (m m' : Memory) (p : Pointer) (size : Nat) (a : Address) : Prop where
  block : ∃ bytes, m'.block? a = some bytes ∧ bytes.length = size ∧
    (m.held p).take size <+: bytes
  place : p = some a ∨ m.block? a = none
  others : ∀ c, c ≠ a → m'.block? c = if p = some c then none else m.block? c

variable {m m' : Memory} {place : Placement} {p : Pointer} {size : Nat} {a : Address}

theorem realloc_eq_of_null (hrealloc : m.realloc place p size = .ok (none, m'))
    (hsize : size ≠ 0) : m' = m := by
  cases p with
  | none => exact malloc_eq_of_refused (Except.ok.inj hrealloc)
  | some b =>
      simp only [realloc, hsize, if_false] at hrealloc
      split at hrealloc
      · cases hrealloc
      · split at hrealloc
        · exact (Prod.mk.inj (Except.ok.inj hrealloc)).2.symm
        · cases hrealloc

theorem grows_malloc (hmalloc : m.malloc place size = (some a, m')) :
    m.Grows m' none size a := by
  have hallots := Heap.allots_malloc m place size
  rw [hmalloc] at hallots
  obtain ⟨bytes, hlength, hfresh, hblock⟩ := hallots
  constructor
  · have hheld : m.held none = [] := rfl
    refine ⟨bytes, ?_, hlength, ?_⟩
    · rw [hblock, if_pos rfl]
    · rw [hheld, List.take_nil]
      exact List.nil_prefix
  · exact .inr hfresh
  · intro c hc
    rw [hblock, if_neg hc, if_neg nofun]

theorem grows_realloc (hrealloc : m.realloc place p size = .ok (some a, m')) :
    m.Grows m' p size a := by
  cases p with
  | none => exact grows_malloc (Except.ok.inj hrealloc)
  | some b =>
      cases hold : m.block? b with
      | none =>
          simp only [realloc, hold] at hrealloc
          cases hrealloc
      | some old =>
          have hpositive : 0 < size := by
            by_contra hzero
            obtain rfl : size = 0 := Nat.eq_zero_of_not_pos hzero
            simp only [realloc, hold, if_true] at hrealloc
            cases hrealloc
          have hheld : m.held (some b) = old := by simp [held, hold]
          obtain ⟨q, m₁, hrealloc₁, hregrows⟩ := Heap.regrows_realloc place hold hpositive
          obtain ⟨rfl, rfl⟩ : some a = q ∧ m' = m₁ := by
            simpa using hrealloc.symm.trans hrealloc₁
          obtain ⟨hplace, bytes, hlength, hprefix, hblock⟩ := hregrows
          constructor
          · refine ⟨bytes, ?_, hlength, ?_⟩
            · rw [hblock, if_pos rfl]
            · rw [hheld, ← hprefix]
              exact List.take_prefix old.length bytes
          · rcases hplace with rfl | hfresh
            · exact .inl rfl
            · exact .inr hfresh
          · intro c hc
            rw [hblock, if_neg hc]
            simp only [Option.some.injEq, eq_comm]

end Memory

namespace Heap

/-! ## What may differ after a failure -/

/-- The same source later on: a script has seen more resizing calls, or the library has counted
calls, has resolved, and has written reports. -/
def Source.Later : Source → Source → Prop
  | .system, .system => True
  | .scripted trouble mallocs _, .scripted trouble' mallocs' _ =>
    trouble' = trouble ∧ mallocs' = mallocs
  | .interposed env process reports, .interposed env' process' reports' =>
    env' = env ∧ process'.looking = process.looking ∧ reports <+: reports'
  | _, _ => False

/-- The same layer later on: an injector has counted calls. -/
def Layer.Later : Layer → Layer → Prop
  | .injector gate, .injector gate' => gate'.policy = gate.policy
  | .tracker ledger, .tracker ledger' => ledger' = ledger
  | _, _ => False

/-- A stack in which nothing has changed but what gates and sources count, and what the library has
resolved and written. -/
structure Stack.Undisturbed (h h' : Stack) : Prop where
  layers : List.Forall₂ Layer.Later h.layers h'.layers
  source : h.base.source.Later h'.base.source
  memory : h'.base.memory = h.base.memory
  placement : h'.base.placement = h.base.placement

theorem Source.later_refl (s : Source) : s.Later s := by
  cases s with
  | system => trivial
  | scripted trouble mallocs reallocs => exact ⟨rfl, rfl⟩
  | interposed env process reports => exact ⟨rfl, rfl, List.prefix_refl reports⟩

theorem Source.Later.honest {s s' : Source} (hlater : s.Later s') (hhonest : s.Honest) :
    s'.Honest := by
  cases s' with
  | system | interposed env' process' reports' => trivial
  | scripted trouble' mallocs' reallocs' =>
      cases s with
      | scripted trouble mallocs reallocs =>
          obtain ⟨rfl, -⟩ := hlater
          exact hhonest
      | system | interposed env process reports => exact hlater.elim

theorem Layer.later_refl (layer : Layer) : layer.Later layer := by
  cases layer <;> exact rfl

theorem Layer.later_afterResize_failed (p : Pointer) (size : Nat) (layer : Layer) :
    layer.Later (layer.afterResize p size .failed) := by
  cases layer <;> exact rfl

theorem Layer.Later.afterFree {layer layer' : Layer} (hlater : layer.Later layer') (p : Pointer) :
    (layer.afterFree p).Later (layer'.afterFree p) := by
  cases layer with
  | injector gate =>
      cases layer' with
      | injector gate' => exact hlater
      | tracker ledger' => exact hlater.elim
  | tracker ledger =>
      cases layer' with
      | injector gate' => exact hlater.elim
      | tracker ledger' =>
          obtain rfl : ledger' = ledger := hlater
          exact rfl

theorem Layers.later_map {f : Layer → Layer} (hf : ∀ layer, Layer.Later layer (f layer))
    (layers : List Layer) : List.Forall₂ Layer.Later layers (layers.map f) := by
  rw [List.forall₂_map_right_iff, List.forall₂_same]
  exact fun layer _ => hf layer

/-! ## The base -/

theorem looking_route {ω : Type} (lookup : Lookup ω) (process : Process ω) :
    (process.route lookup).2.looking = process.looking := by
  cases hlooking : process.looking with
  | true => rw [process.route_of_looking lookup hlooking, hlooking]
  | false =>
      rw [process.route_of_not_looking lookup hlooking]
      exact process.looking_resolve lookup hlooking

theorem Base.systemRealloc_eq_map (b : Base) (p : Pointer) (size : Nat) :
    b.systemRealloc p size = (b.memory.realloc b.placement p size).map fun (q, memory) =>
      (q, { b with memory }) := by
  unfold Base.systemRealloc
  cases b.memory.realloc b.placement p size <;> rfl

/-- The base denies a resizing call before the process allocator hears of it, or leaves the call to
it; its source goes on either way. -/
theorem Base.exists_realloc {b : Base} (hhonest : b.source.Honest) (p : Pointer) (size : Nat) :
    ∃ source, b.source.Later source ∧
      (b.realloc p size = .ok (none, { b with source }) ∨
        b.realloc p size = Base.systemRealloc { b with source } p size) := by
  unfold Base.realloc
  split
  next hsource => exact ⟨b.source, b.source.later_refl, .inr rfl⟩
  next trouble mallocs reallocs hsource =>
    have hcorruptions : trouble.corruptions = [] := by
      rw [hsource] at hhonest
      exact hhonest
    refine ⟨.scripted trouble mallocs (reallocs + 1), ?_, ?_⟩
    · rw [hsource]
      exact ⟨rfl, rfl⟩
    · dsimp only
      split
      · exact .inl rfl
      · right
        rw [systemRealloc_eq_map]
        cases hmemory : b.memory.realloc b.placement p size with
        | error misuse => rfl
        | ok answer =>
            obtain ⟨q, memory⟩ := answer
            cases q with
            | none => rfl
            | some a => simp [Except.map, bind, Except.bind, hcorruptions, corrupt]
  next env process reports hsource =>
    have hlooking := looking_route (lookupIn env) process
    split
    next ordinal reported process' hroute =>
      rw [hroute] at hlooking
      refine ⟨_, ?_, .inl rfl⟩
      rw [hsource]
      refine ⟨rfl, hlooking, ?_⟩
      split
      · exact List.prefix_append reports _
      · exact List.prefix_refl reports
    next route process' hnot hroute =>
      rw [hroute] at hlooking
      refine ⟨.interposed env process' reports, ?_, .inr rfl⟩
      rw [hsource]
      exact ⟨rfl, hlooking, List.prefix_refl reports⟩

/-! ## The way of a resizing call -/

namespace Stack

open Layers

/-- How a stack answers a resizing call, and what it is then. -/
inductive Resizes (h : Stack) (p : Pointer) (size : Nat) :
    Except Misuse (Resize × Stack) → Prop where
  /-- An injector fails the call. -/
  | injected {layers : List Layer} (hfails : ∃ g ∈ gates h.layers, g.admit.1.fails = true)
      (hlayers : List.Forall₂ Layer.Later h.layers layers) :
      Resizes h p size (.ok (.failed, ⟨layers, h.base⟩))
  /-- The base denies the call by itself. -/
  | denied {source : Source} (hpasses : ∀ g ∈ gates h.layers, g.admit.1.fails = false)
      (hsource : h.base.source.Later source) :
      Resizes h p size (.ok (.ofAnswer p size none,
        ⟨h.layers.map (.afterResize p size (.ofAnswer p size none)), { h.base with source }⟩))
  /-- The process allocator answers the call. -/
  | allocated {source : Source} {q : Pointer} {memory : Memory}
      (hpasses : ∀ g ∈ gates h.layers, g.admit.1.fails = false)
      (hsource : h.base.source.Later source)
      (hmemory : h.base.memory.realloc h.base.placement p size = .ok (q, memory)) :
      Resizes h p size (.ok (.ofAnswer p size q,
        ⟨h.layers.map (.afterResize p size (.ofAnswer p size q)),
          { h.base with source, memory }⟩))
  /-- The call means nothing to the process allocator. -/
  | misused {misuse : Misuse}
      (hmemory : h.base.memory.realloc h.base.placement p size = .error misuse) :
      Resizes h p size (.error misuse)

variable {h h' : Stack} {p : Pointer} {size : Nat} {outcome : Resize}

theorem resizes (hhonest : h.base.source.Honest) (p : Pointer) (size : Nat) :
    h.Resizes p size (h.resize p size) := by
  rw [resize]
  rcases exists_first_failing h.layers with
    ⟨above, gate, below, hlayers, habove, hfails⟩ | hpasses
  · have hsome : ∃ g ∈ gates h.layers, g.admit.1.fails = true := by
      rw [hlayers, gates_append, gates_injector]
      exact ⟨gate, by simp, hfails⟩
    have hlater : List.Forall₂ Layer.Later h.layers
        (above.map (.afterResize p size .failed) ++ .injector gate.admit.2 :: below) := by
      rw [hlayers]
      apply List.rel_append (later_map (Layer.later_afterResize_failed p size) above)
      exact .cons gate.policy_admit (List.forall₂_same.2 fun layer _ => layer.later_refl)
    rw [hlayers, resize_of_fails habove hfails]
    exact .injected hsome hlater
  · obtain ⟨source, hsource, hrealloc⟩ := Base.exists_realloc hhonest p size
    rw [resize_of_passes hpasses, Base.resize]
    rcases hrealloc with hdenied | hleft
    · rw [hdenied]
      exact .denied hpasses hsource
    · rw [hleft, Base.systemRealloc_eq_map]
      cases hmemory : h.base.memory.realloc h.base.placement p size with
      | error misuse => exact .misused hmemory
      | ok answer => exact .allocated hpasses hsource hmemory

/-- A call with null or a live block is answered. -/
theorem exists_resize (hhonest : h.base.source.Honest) (hp : Permitted h.base.memory p)
    (size : Nat) : ∃ outcome h', h.resize p size = .ok (outcome, h') := by
  have hresizes := resizes hhonest p size
  cases hresize : h.resize p size with
  | ok answer => exact ⟨answer.1, answer.2, rfl⟩
  | error misuse =>
      rw [hresize] at hresizes
      cases hresizes with
      | misused hmemory =>
          obtain ⟨q, memory, hrealloc, -⟩ := describes_realloc size h.base.placement hp
          rw [hmemory] at hrealloc
          cases hrealloc

theorem undisturbed_of_denied {source : Source} (hsource : h.base.source.Later source) :
    h.Undisturbed ⟨h.layers.map (.afterResize p size .failed), { h.base with source }⟩ where
  layers := later_map (Layer.later_afterResize_failed p size) h.layers
  source := hsource
  memory := rfl
  placement := rfl

theorem ofAnswer_none_of_size (p : Pointer) (hsize : size ≠ 0) :
    Resize.ofAnswer p size none = .failed := by
  rw [Resize.ofAnswer, if_neg fun hzero => hsize hzero.1]

/-- A call that an injector fails, and one with a size that is answered with null, disturb
nothing. -/
theorem undisturbed_of_failed (hhonest : h.base.source.Honest)
    (hresize : h.resize p size = .ok (outcome, h'))
    (hfailed : (∃ g ∈ gates h.layers, g.admit.1.fails = true) ∨
      outcome.pointer = none ∧ size ≠ 0) :
    outcome = .failed ∧ h.Undisturbed h' := by
  have hresizes := resizes hhonest p size
  have hnull (hpasses : ∀ g ∈ gates h.layers, g.admit.1.fails = false) :
      outcome.pointer = none ∧ size ≠ 0 := by
    rcases hfailed with ⟨g, hg, hfails⟩ | hnull
    · rw [hpasses g hg] at hfails
      cases hfails
    · exact hnull
  rw [hresize] at hresizes
  cases hresizes with
  | injected hfails hlayers => exact ⟨rfl, hlayers, h.base.source.later_refl, rfl, rfl⟩
  | denied hpasses hsource =>
      rw [ofAnswer_none_of_size p (hnull hpasses).2]
      exact ⟨rfl, undisturbed_of_denied hsource⟩
  | allocated hpasses hsource hmemory =>
      obtain ⟨hpointer, hsize⟩ := hnull hpasses
      rw [Resize.pointer_ofAnswer] at hpointer
      rw [hpointer] at hmemory
      rw [hpointer, ofAnswer_none_of_size p hsize, Memory.realloc_eq_of_null hmemory hsize]
      exact ⟨rfl, undisturbed_of_denied hsource⟩

theorem grows_of_moved {a : Address} (hhonest : h.base.source.Honest)
    (hresize : h.resize p size = .ok (outcome, h')) (hmoved : outcome.pointer = some a) :
    h.base.memory.Grows h'.base.memory p size a := by
  have hresizes := resizes hhonest p size
  rw [hresize] at hresizes
  cases hresizes with
  | injected hfails hlayers => cases hmoved
  | denied hpasses hsource =>
      rw [Resize.pointer_ofAnswer] at hmoved
      cases hmoved
  | allocated hpasses hsource hmemory =>
      rw [Resize.pointer_ofAnswer] at hmoved
      rw [hmoved] at hmemory
      exact Memory.grows_realloc hmemory

/-! ## After a failure -/

/-- A pointer can be used on a stack as it could on the one before: reading finds the same bytes,
freeing leaves the same, and a resizing call is failed once more or does to the memory what it would
have done before. -/
structure ServesAlike (h h' : Stack) (p : Pointer) : Prop where
  read : ∀ a offset length, h'.read a offset length = h.read a offset length
  free : ∃ k k', h.free p = .ok k ∧ h'.free p = .ok k' ∧ k.Undisturbed k'
  resize : ∀ size, ∃ outcome k, h'.resize p size = .ok (outcome, k) ∧
    (outcome.pointer = none ∧ k.base.memory = h.base.memory ∨
      h.base.memory.realloc h.base.placement p size = .ok (outcome.pointer, k.base.memory))

theorem Undisturbed.free (hundisturbed : h.Undisturbed h') (hp : Permitted h.base.memory p) :
    ∃ k k', h.free p = .ok k ∧ h'.free p = .ok k' ∧ k.Undisturbed k' := by
  obtain ⟨memory, hfree, -⟩ := describes_free hp
  have hfree' : h'.base.memory.free p = .ok memory := by
    rw [hundisturbed.memory]
    exact hfree
  refine ⟨⟨h.layers.map (.afterFree p), { h.base with memory }⟩,
    ⟨h'.layers.map (.afterFree p), { h'.base with memory }⟩, ?_, ?_, ?_⟩
  · rw [Stack.free, free_eq, Base.free, hfree]
    rfl
  · rw [Stack.free, free_eq, Base.free, hfree']
    rfl
  · constructor
    · rw [List.forall₂_map_left_iff, List.forall₂_map_right_iff]
      exact hundisturbed.layers.imp fun _ _ hlater => hlater.afterFree p
    · exact hundisturbed.source
    · rfl
    · exact hundisturbed.placement

theorem Undisturbed.servesAlike (hundisturbed : h.Undisturbed h')
    (hhonest : h.base.source.Honest) (hp : Permitted h.base.memory p) : h.ServesAlike h' p where
  read a offset length := by
    rw [Stack.read, Stack.read, hundisturbed.memory]
  free := hundisturbed.free hp
  resize := by
    intro size
    have hhonest' : h'.base.source.Honest := hundisturbed.source.honest hhonest
    have hp' : Permitted h'.base.memory p := by
      rw [hundisturbed.memory]
      exact hp
    obtain ⟨outcome, k, hresize⟩ := exists_resize hhonest' hp' size
    refine ⟨outcome, k, hresize, ?_⟩
    have hresizes := resizes hhonest' p size
    rw [hresize] at hresizes
    cases hresizes with
    | injected hfails hlayers => exact .inl ⟨rfl, hundisturbed.memory⟩
    | denied hpasses hsource =>
        exact .inl ⟨Resize.pointer_ofAnswer p size none, hundisturbed.memory⟩
    | allocated hpasses hsource hmemory =>
        rw [hundisturbed.memory, hundisturbed.placement] at hmemory
        right
        rw [Resize.pointer_ofAnswer]
        exact hmemory

/-- Over every base that spoils no bytes, in every state and with any layers, a request for another
size of null or of a live block is answered.  One that an injector fails, and one for some bytes
that is answered with null, leaves everything but counters and the library's own state as it was,
and the block serves as before.  One that is answered with an address has carried the bytes over,
and has touched no other block. -/
theorem failed_growth_disturbs_nothing {h : Stack} (hhonest : h.base.source.Honest) (p : Pointer)
    (size : Nat) :
    (Permitted h.base.memory p → ∃ outcome h', h.resize p size = .ok (outcome, h')) ∧
    ∀ outcome h', h.resize p size = .ok (outcome, h') →
      h.realloc p size = .ok (outcome.pointer, h') ∧
      ((∃ g ∈ gates h.layers, g.admit.1.fails = true) ∨ outcome.pointer = none ∧ size ≠ 0 →
        outcome = .failed ∧ h.Undisturbed h' ∧
          (Permitted h.base.memory p → h.ServesAlike h' p)) ∧
      ∀ a, outcome.pointer = some a → h.base.memory.Grows h'.base.memory p size a := by
  refine ⟨fun hp => exists_resize hhonest hp size, ?_⟩
  intro outcome h' hresize
  refine ⟨?_, ?_, ?_⟩
  · rw [realloc, hresize]
    rfl
  · intro hfailed
    obtain ⟨houtcome, hundisturbed⟩ := undisturbed_of_failed hhonest hresize hfailed
    exact ⟨houtcome, hundisturbed, hundisturbed.servesAlike hhonest⟩
  · intro a hmoved
    exact grows_of_moved hhonest hresize hmoved

/-- A tracked block of eight bytes under an injector that fails the first resizing call. -/
def guarded : Stack :=
  (malloc ⟨[.inject (.failAt 1), .track], .scripted {}⟩ 8).2

/-- The injector fails a request for no bytes, which leaves the block where it is; the next call
moves it. -/
theorem failed_growth_disturbs_nothing_guarded :
    ∃ h₁ h₂, guarded.resize (some 1) 0 = .ok (.failed, h₁) ∧ guarded.Undisturbed h₁ ∧
      guarded.ServesAlike h₁ (some 1) ∧ h₁.realloc (some 1) 16 = .ok (some 2, h₂) ∧
      h₁.base.memory.Grows h₂.base.memory (some 1) 16 2 := by
  have hhonest : guarded.base.source.Honest := rfl
  have hlive : Permitted guarded.base.memory (some 1) := by
    rintro a ⟨⟩
    rfl
  obtain ⟨hserved, hstep⟩ := failed_growth_disturbs_nothing hhonest (some 1) 0
  obtain ⟨outcome, h₁, hresize⟩ := hserved hlive
  obtain ⟨-, hfailed, -⟩ := hstep outcome h₁ hresize
  obtain ⟨rfl, hundisturbed, hserves⟩ := hfailed (.inl ⟨_, List.mem_singleton_self _, by decide⟩)
  have hlater : h₁.base.source.Honest := hundisturbed.source.honest hhonest
  obtain ⟨h₂, hmoved⟩ : ∃ h₂, h₁.resize (some 1) 16 = .ok (.moved 2, h₂) := by
    obtain rfl : _ = h₁ := congrArg Prod.snd (Except.ok.inj hresize)
    exact ⟨_, rfl⟩
  obtain ⟨hrealloc, -, hgrows⟩ :=
    (failed_growth_disturbs_nothing hlater (some 1) 16).2 (.moved 2) h₂ hmoved
  exact ⟨h₁, h₂, hresize, hundisturbed, hserves hlive, hrealloc, hgrows 2 rfl⟩

end Stack

end Heap

end GrowthFault
