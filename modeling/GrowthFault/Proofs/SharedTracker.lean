import GrowthFault.Heap.Interleaving
import GrowthFault.Proofs.LedgerExactness

/-!
# A tracker that threads share

Between the two steps of a resizing call its old block is gone while the ledger still has the entry.
If the heap below hands the address out again and the new owner enters it before the second step is
taken, then that step erases the entry of the new owner.  This is the only way in which the ledger
of a shared tracker comes to differ from the blocks that are live: whenever no call is under way, it
misses the blocks whose entries were overtaken, and is exact otherwise.

The invariant says who owns each live block, the callers or one thread between its steps, and of the
blocks that have been entered what the ledger says.
-/

namespace GrowthFault.Heap

theorem Ledger.not_exact_of_live {l : Ledger} {m : Memory} {a : Address} (hlive : m.live a)
    (hnone : l.get? a = none) : ¬ l.Exact m := by
  intro hexact
  rw [hexact a, Option.map_eq_none_iff] at hnone
  rw [Memory.live, hnone] at hlive
  cases hlive

namespace Interleaving

/-! ## What a second step does -/

/-- How the block stands that is a thread's until its second step. -/
inductive Claim where
  /-- The step enters it, with this size. -/
  | entering (size : Nat)
  /-- It is in the ledger and stays there. -/
  | keeping
  /-- The step gives it back. -/
  | giving
  deriving DecidableEq

namespace Half

/-- The block that is the thread's until its second step. -/
def claim : Half → Option (Address × Claim)
  | .enter p size => p.map fun a => (a, .entering size)
  | .settle p size outcome => match outcome with
    | .moved b => some (b, .entering size)
    | .failed => p.map fun a => (a, .keeping)
    | .released => none
  | .give p => p.map fun a => (a, .giving)

/-- The address whose entry the step erases. -/
def drops : Half → Pointer
  | .enter _ _ | .give _ => none
  | .settle p _ outcome => match outcome with
    | .moved _ | .released => p
    | .failed => none

def update (l : Ledger) : Half → Ledger
  | .enter p size => l.afterMalloc size p
  | .settle p size outcome => l.afterResize p size outcome
  | .give _ => l

/-- The block that goes back to the callers. -/
def back (half : Half) : Pointer :=
  match half.claim with
  | some (_, .giving) | none => none
  | some (a, _) => some a

variable {half : Half} {a : Address} {n : Nat} {l : Ledger}

theorem back_eq_some_iff : half.back = some a ↔
    ∃ q, half.claim = some (a, q) ∧ q ≠ .giving := by
  unfold back
  rcases half.claim with _ | ⟨b, _ | _ | _⟩ <;> simp

theorem get?_update_of_entering (hclaim : half.claim = some (a, .entering n)) :
    (half.update l).get? a = some n := by
  cases half with
  | give p => cases p <;> cases hclaim
  | enter p size =>
      cases p with
      | none => cases hclaim
      | some b =>
          cases hclaim
          rw [update, Ledger.get?_afterMalloc, if_pos rfl]
  | settle p size outcome =>
      cases outcome with
      | failed => cases p <;> cases hclaim
      | released => cases hclaim
      | moved b =>
          cases hclaim
          exact (Table.get?_insert (l.afterFree p) a n a).trans (if_pos rfl)

theorem get?_update_of_not (hclaim : ∀ n, half.claim ≠ some (a, .entering n)) :
    (half.update l).get? a = if half.drops = some a then none else l.get? a := by
  cases half with
  | give p => rfl
  | enter p size =>
      cases p with
      | none => rfl
      | some b =>
          have hne : a ≠ b := by
            rintro rfl
            exact hclaim size rfl
          rw [update, Ledger.get?_afterMalloc, if_neg hne]
          rfl
  | settle p size outcome =>
      cases outcome with
      | failed => rfl
      | released => exact l.get?_afterFree_pointer p a
      | moved b =>
          have hne : a ≠ b := by
            rintro rfl
            exact hclaim size rfl
          refine (Table.get?_insert (l.afterFree p) b size a).trans ?_
          rw [if_neg hne]
          exact l.get?_afterFree_pointer p a

end Half

namespace State

/-! ## Owners -/

/-- Who owns an address: the callers, or a thread between its steps. -/
def Owns (s : State) (a : Address) : Option Nat → Prop
  | none => a ∈ s.held
  | some thread => ∃ half q, s.due thread = some half ∧ half.claim = some (a, q)

/-- A block at the address has been entered into the ledger, and has not been given up since. -/
def Known (s : State) (a : Address) : Prop :=
  a ∈ s.held ∨ ∃ thread half, s.due thread = some half ∧ half.claim = some (a, .keeping)

/-- The second step of a thread erases the entry of a block that others have entered. -/
def Overtakes (s : State) (thread : Nat) (a : Address) : Prop :=
  s.Known a ∧ ∃ half, s.due thread = some half ∧ half.drops = some a

/-- What holds between any two steps when the entries of the lost addresses have been erased by
steps that came too late. -/
structure Sound (lost : Address → Prop) (s : State) : Prop where
  live : ∀ a, s.memory.live a ↔ ∃ o, s.Owns a o
  alone : ∀ {a o o'}, s.Owns a o → s.Owns a o' → o = o'
  nodup : s.held.Nodup
  sizes : ∀ {thread half a n}, s.due thread = some half → half.claim = some (a, .entering n) →
    (s.memory.block? a).map List.length = some n
  known : ∀ {a}, s.Known a → ¬ lost a →
    s.ledger.get? a = (s.memory.block? a).map List.length
  lost : ∀ {a}, lost a → s.Known a ∧ s.ledger.get? a = none
  stale : ∀ {a}, s.ledger.get? a ≠ none →
    s.Known a ∨ ∃ thread half, s.due thread = some half ∧ half.drops = some a

theorem sound_start : ({} : State).Sound fun _ => False where
  live := by
    intro a
    refine iff_of_false (by simp [Memory.live, Memory.block?]) ?_
    rintro ⟨_ | thread, howns⟩ <;> simp [Owns] at howns
  alone := by
    rintro a (_ | thread) o' howns <;> simp [Owns] at howns
  nodup := List.nodup_nil
  sizes := by simp
  known := by simp [Known]
  lost := False.elim
  stale := by simp

variable {s : State} {lost : Address → Prop} {thread : Nat} {half : Half} {a : Address}
  {o : Option Nat} {p : Pointer} {m : Memory} {l : Ledger}

theorem Known.owned (hknown : s.Known a) : ∃ o, s.Owns a o := by
  rcases hknown with hheld | ⟨thread, half, hdue, hclaim⟩
  · exact ⟨none, hheld⟩
  · exact ⟨some thread, half, _, hdue, hclaim⟩

/-- A thread that owns a known block keeps it. -/
theorem Sound.keeping_of_known (hs : s.Sound lost) (hknown : s.Known a)
    (hdue : s.due thread = some half) {q : Claim} (hclaim : half.claim = some (a, q)) :
    q = .keeping := by
  have hthread : s.Owns a (some thread) := ⟨half, q, hdue, hclaim⟩
  rcases hknown with hheld | ⟨thread', half', hdue', hclaim'⟩
  · have hcallers : s.Owns a none := hheld
    cases hs.alone hcallers hthread
  · have hother : s.Owns a (some thread') := ⟨half', _, hdue', hclaim'⟩
    cases hs.alone hother hthread
    rw [hdue] at hdue'
    cases hdue'
    rw [hclaim] at hclaim'
    cases hclaim'
    rfl

/-! ## First steps -/

/-- What a first step does that hands in a pointer and leaves a second step due. -/
structure Begins (p : Pointer) (half : Half) (m m' : Memory) (l l' : Ledger) : Prop where
  live : ∀ {a q}, half.claim = some (a, q) → m'.live a ∧ (p = some a ∨ m.block? a = none)
  gone : ∀ {a}, p = some a → (∀ q, half.claim ≠ some (a, q)) → m'.block? a = none
  others : ∀ {a}, p ≠ some a → (∀ q, half.claim ≠ some (a, q)) → m'.block? a = m.block? a
  sizes : ∀ {a n}, half.claim = some (a, .entering n) → (m'.block? a).map List.length = some n
  keeps : ∀ {a}, half.claim = some (a, .keeping) →
    p = some a ∧ m'.block? a = m.block? a ∧ l'.get? a = l.get? a
  entries : ∀ {a}, p ≠ some a → l'.get? a = l.get? a
  stale : ∀ {a}, l'.get? a ≠ none → l.get? a ≠ none ∧
    (p = some a → half.claim = some (a, .keeping) ∨ half.drops = some a)

/-- The state after a first step. -/
def began (s : State) (thread : Nat) (p : Pointer) (half : Half) (m : Memory) (l : Ledger) :
    State :=
  (({ s with memory := m, ledger := l } : State).handIn p).setDue thread (some half)

theorem memory_began : (s.began thread p half m l).memory = m := by
  cases p <;> rfl

theorem ledger_began : (s.began thread p half m l).ledger = l := by
  cases p <;> rfl

theorem due_began (other : Nat) : (s.began thread p half m l).due other =
    if other = thread then some half else s.due other := by
  cases p <;> rfl

theorem mem_held_began (hnodup : s.held.Nodup) :
    a ∈ (s.began thread p half m l).held ↔ a ∈ s.held ∧ p ≠ some a := by
  cases p with
  | none => simp [began, handIn, setDue]
  | some b =>
      have herase : a ∈ s.held.erase b ↔ a ≠ b ∧ a ∈ s.held := hnodup.mem_erase_iff
      simp only [began, handIn, setDue, herase, ne_eq, Option.some.injEq]
      rw [and_comm, eq_comm]

theorem owns_began (hnodup : s.held.Nodup) (hidle : s.due thread = none) :
    (s.began thread p half m l).Owns a o ↔
      (o = some thread ∧ ∃ q, half.claim = some (a, q)) ∨
        (s.Owns a o ∧ (o = none → p ≠ some a)) := by
  cases o with
  | none => simp [Owns, mem_held_began hnodup]
  | some other =>
      by_cases hother : other = thread
      · subst hother
        simp [Owns, due_began, hidle]
      · simp [Owns, due_began, hother]

section First

variable (hs : s.Sound lost) (hidle : s.due thread = none)
  (hheld : ∀ a, p = some a → a ∈ s.held) (hbegins : Begins p half s.memory m s.ledger l)

include hs hheld hbegins

/-- A block of others is neither handed in nor handed to the thread. -/
theorem Sound.bystander (howns : s.Owns a o) (hkept : o = none → p ≠ some a) :
    p ≠ some a ∧ ∀ q, half.claim ≠ some (a, q) := by
  have hp : p ≠ some a := by
    intro hp
    have hcallers : s.Owns a none := hheld a hp
    exact hkept (hs.alone howns hcallers) hp
  refine ⟨hp, ?_⟩
  intro q hclaim
  rcases (hbegins.live hclaim).2 with hsame | hfresh
  · exact hp hsame
  · have hlive := (hs.live a).2 ⟨o, howns⟩
    rw [Memory.live, hfresh] at hlive
    cases hlive

include hidle

theorem Sound.known_began : (s.began thread p half m l).Known a ↔
    half.claim = some (a, .keeping) ∨ (s.Known a ∧ p ≠ some a) := by
  constructor
  · rintro (hmem | ⟨other, half', hdue, hclaim⟩)
    · rw [mem_held_began hs.nodup] at hmem
      exact .inr ⟨.inl hmem.1, hmem.2⟩
    · rw [due_began] at hdue
      split at hdue
      next hsame =>
        cases hdue
        exact .inl hclaim
      next hother =>
        have howns : s.Owns a (some other) := ⟨half', _, hdue, hclaim⟩
        exact .inr ⟨.inr ⟨other, half', hdue, hclaim⟩,
          (hs.bystander hheld hbegins howns (by simp)).1⟩
  · rintro (hclaim | ⟨hmem | ⟨other, half', hdue, hclaim⟩, hp⟩)
    · exact .inr ⟨thread, half, by rw [due_began, if_pos rfl], hclaim⟩
    · exact .inl ((mem_held_began hs.nodup).2 ⟨hmem, hp⟩)
    · have hother : other ≠ thread := by
        rintro rfl
        rw [hidle] at hdue
        cases hdue
      exact .inr ⟨other, half', by rw [due_began, if_neg hother, hdue], hclaim⟩

theorem Sound.began : (s.began thread p half m l).Sound
    fun a => lost a ∧ (s.began thread p half m l).Known a where
  live := by
    intro a
    rw [memory_began]
    simp only [owns_began hs.nodup hidle]
    constructor
    · intro hlive
      -- The block is the thread's now, or it was not handed in and has its old owner.
      by_cases hclaim : ∃ q, half.claim = some (a, q)
      · exact ⟨some thread, .inl ⟨rfl, hclaim⟩⟩
      · have hnot : ∀ q, half.claim ≠ some (a, q) := not_exists.1 hclaim
        have hp : p ≠ some a := by
          intro hp
          rw [Memory.live, hbegins.gone hp hnot] at hlive
          cases hlive
        rw [Memory.live, hbegins.others hp hnot] at hlive
        obtain ⟨o, howns⟩ := (hs.live a).1 hlive
        exact ⟨o, .inr ⟨howns, fun _ => hp⟩⟩
    · rintro ⟨o, ⟨-, q, hclaim⟩ | ⟨howns, hkept⟩⟩
      · exact (hbegins.live hclaim).1
      · obtain ⟨hp, hnot⟩ := hs.bystander hheld hbegins howns hkept
        rw [Memory.live, hbegins.others hp hnot]
        exact (hs.live a).2 ⟨o, howns⟩
  alone := by
    intro a o o' ho ho'
    rw [owns_began hs.nodup hidle] at ho ho'
    rcases ho with ⟨rfl, q, hclaim⟩ | ⟨howns, hkept⟩
    · rcases ho' with ⟨rfl, -⟩ | ⟨howns', hkept'⟩
      · rfl
      · exact absurd hclaim ((hs.bystander hheld hbegins howns' hkept').2 q)
    · rcases ho' with ⟨rfl, q, hclaim⟩ | ⟨howns', -⟩
      · exact absurd hclaim ((hs.bystander hheld hbegins howns hkept).2 q)
      · exact hs.alone howns howns'
  nodup := by
    cases p with
    | none => exact hs.nodup
    | some b => exact hs.nodup.erase b
  sizes := by
    intro other half' a n hdue hclaim
    rw [memory_began]
    rw [due_began] at hdue
    split at hdue
    next hsame =>
      cases hdue
      exact hbegins.sizes hclaim
    next hother =>
      have howns : s.Owns a (some other) := ⟨half', _, hdue, hclaim⟩
      obtain ⟨hp, hnot⟩ := hs.bystander hheld hbegins howns (by simp)
      rw [hbegins.others hp hnot]
      exact hs.sizes hdue hclaim
  known := by
    intro a hknown hlost
    have hstill : ¬ lost a := fun hlost' => hlost ⟨hlost', hknown⟩
    rw [memory_began, ledger_began]
    rw [hs.known_began hidle hheld hbegins] at hknown
    rcases hknown with hclaim | ⟨hknown, hp⟩
    · obtain ⟨hp, hblock, hentry⟩ := hbegins.keeps hclaim
      rw [hblock, hentry]
      exact hs.known (.inl (hheld a hp)) hstill
    · obtain ⟨o, howns⟩ := hknown.owned
      obtain ⟨-, hnot⟩ := hs.bystander hheld hbegins howns fun _ => hp
      rw [hbegins.others hp hnot, hbegins.entries hp]
      exact hs.known hknown hstill
  lost := by
    rintro a ⟨hlost, hknown⟩
    refine ⟨hknown, ?_⟩
    obtain ⟨-, hnone⟩ := hs.lost hlost
    rw [ledger_began]
    by_contra hentry
    exact (hbegins.stale hentry).1 hnone
  stale := by
    intro a hentry
    rw [ledger_began] at hentry
    obtain ⟨hold, hhanded⟩ := hbegins.stale hentry
    rw [hs.known_began hidle hheld hbegins]
    by_cases hp : p = some a
    · rcases hhanded hp with hclaim | hdrops
      · exact .inl (.inl hclaim)
      · exact .inr ⟨thread, half, by rw [due_began, if_pos rfl], hdrops⟩
    · rcases hs.stale hold with hknown | ⟨other, half', hdue, hdrops⟩
      · exact .inl (.inr ⟨hknown, hp⟩)
      · have hother : other ≠ thread := by
          rintro rfl
          rw [hidle] at hdue
          cases hdue
        exact .inr ⟨other, half', by rw [due_began, if_neg hother, hdue], hdrops⟩

end First

/-! ## Second steps -/

/-- The state after a second step. -/
def finished (s : State) (thread : Nat) (half : Half) (m : Memory) : State :=
  (({ s with memory := m, ledger := half.update s.ledger } : State).handOut half.back).setDue thread
    none

theorem memory_finished : (s.finished thread half m).memory = m := by
  unfold finished
  cases half.back <;> rfl

theorem ledger_finished : (s.finished thread half m).ledger = half.update s.ledger := by
  unfold finished
  cases half.back <;> rfl

theorem due_finished (other : Nat) : (s.finished thread half m).due other =
    if other = thread then none else s.due other := by
  unfold finished
  cases half.back <;> rfl

theorem mem_held_finished : a ∈ (s.finished thread half m).held ↔
    half.back = some a ∨ a ∈ s.held := by
  unfold finished
  cases half.back with
  | none => simp [handOut, setDue]
  | some b => simp [handOut, setDue, eq_comm]

theorem owns_finished : (s.finished thread half m).Owns a o ↔
    (o = none ∧ half.back = some a) ∨ (s.Owns a o ∧ o ≠ some thread) := by
  cases o with
  | none => simp [Owns, mem_held_finished]
  | some other =>
      by_cases hother : other = thread
      · simp [Owns, due_finished, hother]
      · simp [Owns, due_finished, hother]

theorem known_finished (hdue : s.due thread = some half) :
    (s.finished thread half m).Known a ↔ half.back = some a ∨ s.Known a := by
  constructor
  · rintro (hmem | ⟨other, half', hdue', hclaim⟩)
    · rcases mem_held_finished.1 hmem with hback | hheld
      · exact .inl hback
      · exact .inr (.inl hheld)
    · rw [due_finished] at hdue'
      split at hdue'
      next => cases hdue'
      next => exact .inr (.inr ⟨other, half', hdue', hclaim⟩)
  · rintro (hback | hheld | ⟨other, half', hdue', hclaim⟩)
    · exact .inl (mem_held_finished.2 (.inl hback))
    · exact .inl (mem_held_finished.2 (.inr hheld))
    · by_cases hother : other = thread
      · subst hother
        rw [hdue] at hdue'
        cases hdue'
        exact .inl (mem_held_finished.2 (.inl (Half.back_eq_some_iff.2 ⟨_, hclaim, by simp⟩)))
      · exact .inr ⟨other, half', by rw [due_finished, if_neg hother, hdue'], hclaim⟩

section Second

variable (hs : s.Sound lost) (hdue : s.due thread = some half)
  (hmemory : ∀ a, m.block? a =
    if half.claim = some (a, .giving) then none else s.memory.block? a)

include hs hdue

theorem Sound.owner_of_claim {q : Claim} (hclaim : half.claim = some (a, q)) (howns : s.Owns a o) :
    o = some thread := by
  have hthread : s.Owns a (some thread) := ⟨half, q, hdue, hclaim⟩
  exact hs.alone howns hthread

include hmemory

theorem Sound.finished : (s.finished thread half m).Sound
    fun a => lost a ∨ s.Overtakes thread a where
  live := by
    intro a
    rw [memory_finished, Memory.live, hmemory]
    simp only [owns_finished]
    constructor
    · intro hlive
      split at hlive
      next => cases hlive
      next hkept =>
        obtain ⟨o, howns⟩ := (hs.live a).1 hlive
        by_cases ho : o = some thread
        · subst ho
          obtain ⟨half', q, hdue', hclaim⟩ := howns
          rw [hdue] at hdue'
          cases hdue'
          have hgiving : q ≠ .giving := by
            rintro rfl
            exact hkept hclaim
          exact ⟨none, .inl ⟨rfl, Half.back_eq_some_iff.2 ⟨q, hclaim, hgiving⟩⟩⟩
        · exact ⟨o, .inr ⟨howns, ho⟩⟩
    · rintro ⟨o, ⟨-, hback⟩ | ⟨howns, ho⟩⟩
      · obtain ⟨q, hclaim, hgiving⟩ := Half.back_eq_some_iff.1 hback
        rw [if_neg (by simp [hclaim, hgiving])]
        exact (hs.live a).2 ⟨some thread, half, q, hdue, hclaim⟩
      · rw [if_neg fun hclaim => ho (hs.owner_of_claim hdue hclaim howns)]
        exact (hs.live a).2 ⟨o, howns⟩
  alone := by
    intro a o o' ho ho'
    rw [owns_finished] at ho ho'
    rcases ho with ⟨rfl, hback⟩ | ⟨howns, hne⟩
    · rcases ho' with ⟨rfl, -⟩ | ⟨howns', hne'⟩
      · rfl
      · obtain ⟨q, hclaim, -⟩ := Half.back_eq_some_iff.1 hback
        exact absurd (hs.owner_of_claim hdue hclaim howns') hne'
    · rcases ho' with ⟨rfl, hback⟩ | ⟨howns', -⟩
      · obtain ⟨q, hclaim, -⟩ := Half.back_eq_some_iff.1 hback
        exact absurd (hs.owner_of_claim hdue hclaim howns) hne
      · exact hs.alone howns howns'
  nodup := by
    unfold State.finished
    cases hback : half.back with
    | none => exact hs.nodup
    | some b =>
        obtain ⟨q, hclaim, -⟩ := Half.back_eq_some_iff.1 hback
        refine List.nodup_cons.2 ⟨?_, hs.nodup⟩
        intro hmem
        have hcallers : s.Owns b none := hmem
        cases hs.owner_of_claim hdue hclaim hcallers
  sizes := by
    intro other half' a n hdue' hclaim
    rw [due_finished] at hdue'
    split at hdue'
    next => cases hdue'
    next hother =>
      have howns : s.Owns a (some other) := ⟨half', _, hdue', hclaim⟩
      rw [memory_finished, hmemory, if_neg]
      · exact hs.sizes hdue' hclaim
      · intro hgiving
        cases hs.owner_of_claim hdue hgiving howns
        exact hother rfl
  known := by
    intro a hknown hlost
    rw [not_or] at hlost
    rw [memory_finished, ledger_finished, hmemory]
    by_cases hentering : ∃ n, half.claim = some (a, .entering n)
    · obtain ⟨n, hclaim⟩ := hentering
      rw [Half.get?_update_of_entering hclaim, if_neg (by simp [hclaim])]
      exact (hs.sizes hdue hclaim).symm
    · have hknown' : s.Known a := by
        rcases (known_finished hdue).1 hknown with hback | hknown'
        · obtain ⟨q, hclaim, hgiving⟩ := Half.back_eq_some_iff.1 hback
          cases q with
          | entering n => exact absurd ⟨n, hclaim⟩ hentering
          | giving => exact absurd rfl hgiving
          | keeping => exact .inr ⟨thread, half, hdue, hclaim⟩
        · exact hknown'
      -- The step erases no entry here: that would be an overtaken one.
      have hdrops : half.drops ≠ some a :=
        fun hdrops => hlost.2 ⟨hknown', half, hdue, hdrops⟩
      have hgiving : half.claim ≠ some (a, .giving) := by
        intro hclaim
        cases hs.keeping_of_known hknown' hdue hclaim
      rw [Half.get?_update_of_not (not_exists.1 hentering), if_neg hdrops, if_neg hgiving]
      exact hs.known hknown' hlost.1
  lost := by
    intro a hlost
    have hbefore : s.Known a ∧ (half.drops = some a ∨ s.ledger.get? a = none) := by
      rcases hlost with hlost | ⟨hknown, half', hdue', hdrops⟩
      · exact ⟨(hs.lost hlost).1, .inr (hs.lost hlost).2⟩
      · rw [hdue] at hdue'
        cases hdue'
        exact ⟨hknown, .inl hdrops⟩
    obtain ⟨hknown, hgone⟩ := hbefore
    have hentering : ∀ n, half.claim ≠ some (a, .entering n) := by
      intro n hclaim
      cases hs.keeping_of_known hknown hdue hclaim
    refine ⟨(known_finished hdue).2 (.inr hknown), ?_⟩
    rw [ledger_finished, Half.get?_update_of_not hentering]
    split
    next => rfl
    next hdrops => exact hgone.resolve_left hdrops
  stale := by
    intro a hentry
    rw [ledger_finished] at hentry
    rw [known_finished hdue]
    by_cases hentering : ∃ n, half.claim = some (a, .entering n)
    · obtain ⟨n, hclaim⟩ := hentering
      exact .inl (.inl (Half.back_eq_some_iff.2 ⟨_, hclaim, by simp⟩))
    · rw [Half.get?_update_of_not (not_exists.1 hentering)] at hentry
      split at hentry
      next => exact absurd rfl hentry
      next hkept =>
        rcases hs.stale hentry with hknown | ⟨other, half', hdue', hdrops⟩
        · exact .inl (.inr hknown)
        · have hother : other ≠ thread := by
            rintro rfl
            rw [hdue] at hdue'
            cases hdue'
            exact hkept hdrops
          exact .inr ⟨other, half', by rw [due_finished, if_neg hother, hdue'], hdrops⟩

end Second

end State

/-! ## The steps of the calls -/

section Calls

variable {place : Placement} {m m' : Memory} {l : Ledger} {p q : Pointer} {size : Nat}
  {outcome : Resize}

theorem fresh_of_malloc {b : Address} (hmalloc : m.malloc place size = (some b, m')) :
    m.block? b = none := by
  unfold Memory.malloc at hmalloc
  split at hmalloc
  next => cases hmalloc
  next =>
    cases hmalloc
    exact place.site_free m size

theorem fresh_of_realloc {b : Address} (hrealloc : m.realloc place p size = .ok (some b, m')) :
    p = some b ∨ m.block? b = none := by
  cases p with
  | none => exact .inr (fresh_of_malloc (Except.ok.inj hrealloc))
  | some a =>
      cases hblock : m.block? a with
      | none => simp [Memory.realloc, hblock] at hrealloc
      | some bytes =>
          simp only [Memory.realloc, hblock] at hrealloc
          split at hrealloc
          next => cases hrealloc
          next =>
            split at hrealloc
            next => cases hrealloc
            next =>
              cases hrealloc
              split
              next => exact .inl rfl
              next => exact .inr (place.site_free m size)

/-- The inner step of a resizing call, its outcome still to be entered. -/
theorem begins_settle (hpermitted : Permitted m p) (hdescribes : outcome.Describes p size m m')
    (hfresh : ∀ b, outcome = .moved b → p = some b ∨ m.block? b = none) :
    State.Begins p (.settle p size outcome) m m' l l := by
  cases outcome with
  | failed =>
      obtain rfl : m' = m := hdescribes
      cases p with
      | none => constructor <;> simp [Half.claim]
      | some a =>
          refine ⟨?_, ?_, fun _ _ => rfl, ?_, ?_, fun _ => rfl, fun hentry => ⟨hentry, ?_⟩⟩
          · rintro c q ⟨⟩
            exact ⟨hpermitted a rfl, .inl rfl⟩
          · rintro c ⟨⟩ hclaim
            exact absurd rfl (hclaim .keeping)
          · rintro c n ⟨⟩
          · rintro c ⟨⟩
            exact ⟨rfl, rfl, rfl⟩
          · rintro ⟨⟩
            exact .inl rfl
  | released =>
      obtain ⟨-, -, hblock⟩ := hdescribes
      constructor <;> simp +contextual [Half.claim, Half.drops, hblock]
  | moved b =>
      obtain ⟨hsize, hothers⟩ := hdescribes
      have hlive : m'.live b := by
        obtain ⟨bytes, hbytes, -⟩ := Option.map_eq_some_iff.1 hsize
        rw [Memory.live, hbytes]
        rfl
      have hother {c : Address}
          (hclaim : ∀ q, (Half.settle p size (.moved b)).claim ≠ some (c, q)) : c ≠ b := by
        rintro rfl
        exact hclaim _ rfl
      refine ⟨?_, ?_, ?_, ?_, ?_, fun _ => rfl, fun hentry => ⟨hentry, .inr⟩⟩
      · rintro c q ⟨⟩
        exact ⟨hlive, hfresh b rfl⟩
      · intro c hp hclaim
        rw [hothers c (hother hclaim), if_pos hp]
      · intro c hp hclaim
        rw [hothers c (hother hclaim), if_neg hp]
      · rintro c n ⟨⟩
        exact hsize
      · rintro c ⟨⟩

theorem begins_refused (size : Nat) : State.Begins none (.enter none size) m m l l := by
  constructor <;> simp [Half.claim]

/-- A new block is a null pointer resized. -/
theorem begins_enter (hmalloc : m.malloc place size = (q, m')) :
    State.Begins none (.enter q size) m m' l l := by
  cases q with
  | none =>
      obtain rfl := Memory.malloc_eq_of_refused hmalloc
      exact begins_refused size
  | some a =>
      have hdescribes := describes_malloc m place size
      rw [hmalloc] at hdescribes
      have hbegins := begins_settle (l := l) (by rintro _ ⟨⟩) hdescribes (by
        rintro b ⟨⟩
        exact .inr (fresh_of_malloc hmalloc))
      exact ⟨hbegins.live, hbegins.gone, hbegins.others, hbegins.sizes, hbegins.keeps,
        hbegins.entries, hbegins.stale⟩

theorem begins_give (hpermitted : Permitted m p) :
    State.Begins p (.give p) m m l (l.afterFree p) := by
  cases p with
  | none => constructor <;> simp [Half.claim, Ledger.afterFree]
  | some a =>
      refine ⟨?_, ?_, fun _ _ => rfl, ?_, ?_, ?_, ?_⟩
      · rintro c q ⟨⟩
        exact ⟨hpermitted a rfl, .inl rfl⟩
      · rintro c ⟨⟩ hclaim
        exact absurd rfl (hclaim .giving)
      · rintro c n ⟨⟩
      · rintro c ⟨⟩
      · intro c hp
        rw [l.get?_afterFree_pointer, if_neg hp]
      · intro c hentry
        rw [l.get?_afterFree_pointer] at hentry
        split at hentry
        next => exact absurd rfl hentry
        next hother => exact ⟨hentry, fun hp => absurd hp hother⟩

end Calls

namespace State

variable {s : State} {lost : Address → Prop} {place : Placement} {thread : Nat} {r : Request}

theorem Sound.permitted (hs : s.Sound lost) (hpermits : s.Permits thread r) :
    Permitted s.memory r.pointer := by
  intro a hp
  exact (hs.live a).2 ⟨none, hpermits.2 a hp⟩

theorem Sound.first_spec (hs : s.Sound lost) (place : Placement) (refused : Bool)
    (hpermits : s.Permits thread r) :
    ∃ half m l, s.first place refused thread r = .ok (s.began thread r.pointer half m l) ∧
      Begins r.pointer half s.memory m s.ledger l := by
  have hpermitted := hs.permitted hpermits
  cases r with
  | malloc size =>
      cases refused with
      | true => exact ⟨.enter none size, s.memory, s.ledger, rfl, begins_refused size⟩
      | false => exact ⟨_, _, s.ledger, rfl, begins_enter rfl⟩
  | resize p size =>
      have hp : Permitted s.memory p := hpermitted
      cases refused with
      | true =>
          refine ⟨.settle p size .failed, s.memory, s.ledger, rfl, begins_settle hp rfl ?_⟩
          rintro b ⟨⟩
      | false =>
          obtain ⟨q, m, hrealloc, hdescribes⟩ := describes_realloc size place hp
          refine ⟨.settle p size (.ofAnswer p size q), m, s.ledger, ?_,
            begins_settle hp hdescribes ?_⟩
          · simp only [first, hrealloc, bind, Except.bind]
            rfl
          · intro b hmoved
            have hq : q = some b := by
              rw [← Resize.pointer_ofAnswer p size q, hmoved]
              rfl
            rw [hq] at hrealloc
            exact fresh_of_realloc hrealloc
  | free p => exact ⟨.give p, s.memory, s.ledger.afterFree p, rfl, begins_give hpermitted⟩

theorem Sound.second_spec (hs : s.Sound lost) {half : Half} (hdue : s.due thread = some half) :
    ∃ m, s.second thread = .ok (s.finished thread half m) ∧ ∀ a, m.block? a =
      if half.claim = some (a, .giving) then none else s.memory.block? a := by
  cases half with
  | enter p size =>
      refine ⟨s.memory, ?_, ?_⟩
      · rw [second, hdue]
        cases p <;> rfl
      · intro a
        rw [if_neg (by simp [Half.claim])]
  | settle p size outcome =>
      refine ⟨s.memory, ?_, ?_⟩
      · rw [second, hdue]
        cases outcome <;> cases p <;> rfl
      · intro a
        rw [if_neg (by cases outcome <;> simp [Half.claim])]
  | give p =>
      have hp : Permitted s.memory p := by
        rintro a rfl
        exact (hs.live a).2 ⟨some thread, .give (some a), .giving, hdue, rfl⟩
      obtain ⟨m, hfree, hblock⟩ := describes_free hp
      refine ⟨m, ?_, ?_⟩
      · simp only [second, hdue, hfree, bind, Except.bind]
        cases p <;> rfl
      · intro a
        rw [hblock]
        cases p <;> simp [Half.claim]

/-! ## Whole runs -/

/-- A state that threads reach, with the addresses whose entries were erased by steps that came too
late.  Such an address is forgotten when its block is given up. -/
inductive History (place : Placement) : (Address → Prop) → State → Prop where
  | start : History place (fun _ => False) {}
  | first {lost : Address → Prop} {s t : State} {thread : Nat} {r : Request} {refused : Bool} :
      History place lost s → s.Permits thread r → s.first place refused thread r = .ok t →
      History place (fun a => lost a ∧ t.Known a) t
  | second {lost : Address → Prop} {s t : State} {thread : Nat} :
      History place lost s → s.second thread = .ok t →
      History place (fun a => lost a ∨ s.Overtakes thread a) t

theorem History.sound (hhistory : History place lost s) : s.Sound lost := by
  induction hhistory with
  | start => exact sound_start
  | @first lost s t thread r refused hhistory hpermits hfirst ih =>
      obtain ⟨half, m, l, hbegan, hbegins⟩ := ih.first_spec place refused hpermits
      rw [hfirst] at hbegan
      cases hbegan
      exact ih.began hpermits.1 hpermits.2 hbegins
  | @second lost s t thread hhistory hsecond ih =>
      cases hdue : s.due thread with
      | none =>
          rw [State.second, hdue] at hsecond
          cases hsecond
          have hnone : (fun a => lost a ∨ s.Overtakes thread a) = lost := by
            funext a
            simp [Overtakes, hdue]
          rw [hnone]
          exact ih
      | some half =>
          obtain ⟨m, hfinished, hmemory⟩ := ih.second_spec hdue
          rw [hsecond] at hfinished
          cases hfinished
          exact ih.finished hdue hmemory

theorem exists_history (hreaches : Reaches place s) : ∃ lost, History place lost s := by
  induction hreaches with
  | start => exact ⟨_, .start⟩
  | first hreaches hpermits hfirst ih =>
      obtain ⟨lost, hhistory⟩ := ih
      exact ⟨_, hhistory.first hpermits hfirst⟩
  | second hreaches hsecond ih =>
      obtain ⟨lost, hhistory⟩ := ih
      exact ⟨_, hhistory.second hsecond⟩

/-- When no call is under way, the ledger has the blocks that are live but for the lost ones. -/
theorem Sound.quiet (hs : s.Sound lost) (hquiet : s.Quiet) (a : Address) :
    (lost a → s.memory.live a ∧ s.ledger.get? a = none) ∧
      (¬ lost a → s.ledger.get? a = (s.memory.block? a).map List.length) := by
  constructor
  · intro hlost
    obtain ⟨hknown, hnone⟩ := hs.lost hlost
    exact ⟨(hs.live a).2 hknown.owned, hnone⟩
  · intro hkept
    by_cases hknown : s.Known a
    · exact hs.known hknown hkept
    · -- Nobody owns the address, and no second step is due that would erase a stale entry.
      have hdead : s.memory.block? a = none := by
        rw [← Option.not_isSome_iff_eq_none]
        intro hlive
        obtain ⟨_ | thread, howns⟩ := (hs.live a).1 hlive
        · exact hknown (.inl howns)
        · obtain ⟨half, q, hdue, -⟩ := howns
          rw [hquiet thread] at hdue
          cases hdue
      rw [hdead]
      by_contra hentry
      rcases hs.stale hentry with hknown' | ⟨thread, half, hdue, -⟩
      · exact hknown hknown'
      · rw [hquiet thread] at hdue
        cases hdue

/-- Threads that share a tracker never misuse memory.  Whenever no call is under way, the ledger
misses exactly the live blocks whose entries were overtaken, so it is exact if and only if there is
none. -/
theorem quiet_ledger_exact_iff (hreaches : Reaches place s) :
    (∀ thread r refused, s.Permits thread r → ∃ t, s.first place refused thread r = .ok t) ∧
    (∀ thread, ∃ t, s.second thread = .ok t) ∧
    (∃ lost, History place lost s) ∧
    ∀ lost, History place lost s → s.Quiet →
      (s.ledger.Exact s.memory ↔ ∀ a, ¬ lost a) ∧
      ∀ a, (lost a → s.memory.live a ∧ s.ledger.get? a = none) ∧
        (¬ lost a → s.ledger.get? a = (s.memory.block? a).map List.length) := by
  obtain ⟨lost, hhistory⟩ := exists_history hreaches
  have hs := hhistory.sound
  refine ⟨?_, ?_, ⟨lost, hhistory⟩, ?_⟩
  · intro thread r refused hpermits
    obtain ⟨half, m, l, hfirst, -⟩ := hs.first_spec place refused hpermits
    exact ⟨_, hfirst⟩
  · intro thread
    cases hdue : s.due thread with
    | none => exact ⟨s, by rw [second, hdue]⟩
    | some half =>
        obtain ⟨m, hsecond, -⟩ := hs.second_spec hdue
        exact ⟨_, hsecond⟩
  · intro lost hhistory hquiet
    have hledger := hhistory.sound.quiet hquiet
    refine ⟨⟨?_, fun hkept a => (hledger a).2 (hkept a)⟩, hledger⟩
    intro hexact a hlost
    obtain ⟨hlive, hnone⟩ := (hledger a).1 hlost
    exact Ledger.not_exact_of_live hlive hnone hexact

/-- New blocks go to the first address when it is free, and a resized block is a new one. -/
def reusing : Placement where
  site m _ := if m.live 1 then m.top else 1
  stays _ _ _ := false
  site_free m size := by
    split
    next hlive => exact Placement.above.site_free m size
    next hfree => simpa [Memory.live] using hfree

/-- The first thread moves its block away, the second is given the address and enters its block, and
then the first erases that entry. -/
theorem exists_reaches_overtaken : ∃ s, Reaches reusing s ∧ s.Quiet ∧
    s.memory.live 1 ∧ s.ledger.get? 1 = none := by
  have hgiven := @Reaches.first reusing _ _ 0 (.malloc 8) false .start ⟨rfl, by rintro _ ⟨⟩⟩ rfl
  have hentered := @Reaches.second reusing _ _ 0 hgiven rfl
  have hheld : ∀ a, (Request.resize (some 1) 16).pointer = some a → a ∈ [1] := by
    rintro a ⟨⟩
    exact List.mem_cons_self
  have hmoved := @Reaches.first reusing _ _ 0 (.resize (some 1) 16) false hentered ⟨rfl, hheld⟩ rfl
  have hreused := @Reaches.first reusing _ _ 1 (.malloc 4) false hmoved ⟨rfl, by rintro _ ⟨⟩⟩ rfl
  have hovertaken := @Reaches.second reusing _ _ 1 hreused rfl
  refine ⟨_, @Reaches.second reusing _ _ 0 hovertaken rfl, ?_, rfl, rfl⟩
  intro thread
  match thread with
  | 0 => rfl
  | 1 => rfl
  | _ + 2 => rfl

theorem quiet_ledger_exact_iff_overtaken : ∃ s, Reaches reusing s ∧ s.Quiet ∧
    ¬ s.ledger.Exact s.memory ∧ ∃ lost a, History reusing lost s ∧ lost a := by
  obtain ⟨s, hreaches, hquiet, hlive, hnone⟩ := exists_reaches_overtaken
  obtain ⟨-, -, ⟨lost, hhistory⟩, hledger⟩ := quiet_ledger_exact_iff hreaches
  obtain ⟨hexact, -⟩ := hledger lost hhistory hquiet
  have hnot := Ledger.not_exact_of_live hlive hnone
  obtain ⟨a, hlost⟩ := not_forall_not.1 (mt hexact.2 hnot)
  exact ⟨s, hreaches, hquiet, hnot, lost, a, hhistory, hlost⟩

/-- An entry can be overtaken, so the ledger is not always exact when no call is under way. -/
theorem quiet_ledger_not_exact : ¬ ∀ (place : Placement) (s : State), Reaches place s → s.Quiet →
    s.ledger.Exact s.memory := by
  intro hlaw
  obtain ⟨s, hreaches, hquiet, hlive, hnone⟩ := exists_reaches_overtaken
  exact Ledger.not_exact_of_live hlive hnone (hlaw reusing s hreaches hquiet)

end State

end Interleaving

end GrowthFault.Heap
