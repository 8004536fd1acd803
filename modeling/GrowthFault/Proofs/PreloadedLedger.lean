import GrowthFault.Proofs.AllocatorContract
import GrowthFault.Proofs.InterposedAllocator

/-!
# A tracker before the library

A tracker over an allocator with the library before it learns what became of a block from the
answer alone, and takes null for a request of no bytes for a release.  When the library has failed
that request the block is still live, and the ledger has lost it.

So the ledger holds the live blocks but at most one.  The run decides which one: `strayed` names
it, and it is found again when it is freed, moved or released.
-/

namespace GrowthFault.Heap

/-- A ledger holds the live blocks, with their sizes, but for one of them. -/
structure Ledger.ExactBut (stray : Pointer) (l : Ledger) (m : Memory) : Prop where
  get? : ∀ a, l.get? a = if stray = some a then none else (m.block? a).map List.length
  live : ∀ a, stray = some a → m.live a

/-- What is still astray when the block that was handed in is gone or known again. -/
def found (p stray : Pointer) : Pointer :=
  if p = stray then none else stray

theorem found_none (stray : Pointer) : found none stray = stray := by
  cases stray <;> rfl

namespace Ledger

variable {l : Ledger} {m m' : Memory} {stray p : Pointer} {size : Nat}

theorem exact_iff_of_exactBut (hl : l.ExactBut stray m) : l.Exact m ↔ stray = none := by
  constructor
  · intro hexact
    cases stray with
    | none => rfl
    | some a =>
        obtain ⟨bytes, hblock⟩ := Option.isSome_iff_exists.1 (hl.live a rfl)
        have hlost := hl.get? a
        rw [hexact a, hblock] at hlost
        simp at hlost
  · rintro rfl a
    simpa using hl.get? a

theorem ExactBut.afterMalloc {q : Pointer} (hl : l.ExactBut stray m)
    (hallots : m.Allots m' size q) : (l.afterMalloc size q).ExactBut stray m' := by
  cases q with
  | none =>
      constructor
      · intro c
        rw [hallots c]
        exact hl.get? c
      · intro a ha
        rw [Memory.live, hallots a]
        exact hl.live a ha
  | some b =>
      obtain ⟨bytes, hlength, hfresh, hblocks⟩ := hallots
      have hother : stray ≠ some b := by
        intro hb
        have hlive := hl.live b hb
        simp [Memory.live, hfresh] at hlive
      constructor
      · intro c
        rw [get?_afterMalloc, hblocks, hl.get? c]
        by_cases hc : c = b
        · simp [hc, hother, hlength]
        · simp [hc]
      · intro a ha
        rw [Memory.live, hblocks]
        split
        next => rfl
        next => exact hl.live a ha

theorem ExactBut.afterFree (hl : l.ExactBut stray m)
    (hblocks : ∀ c, m'.block? c = if p = some c then none else m.block? c) :
    (l.afterFree p).ExactBut (found p stray) m' := by
  unfold found
  constructor
  · intro c
    rw [get?_afterFree_pointer, hblocks, hl.get? c]
    by_cases hc : p = some c
    · simp [hc]
    · by_cases hp : p = stray
      · simp [hp, show stray ≠ some c from hp ▸ hc]
      · simp [hc, hp]
  · intro a ha
    split at ha
    next => cases ha
    next hp =>
      have hne : p ≠ some a := fun h => hp (h.trans ha.symm)
      rw [Memory.live, hblocks, if_neg hne]
      exact hl.live a ha

/-- A block that moves is freed and handed out again; what the allocator refuses stays as it is. -/
theorem ExactBut.afterResize {q : Pointer} (hl : l.ExactBut stray m)
    (hdescribes : (Resize.ofAnswer p size q).Describes p size m m')
    (hplace : ∀ b, q = some b → p = some b ∨ m.block? b = none) :
    (l.afterResize p size (.ofAnswer p size q)).ExactBut
      (if q = none ∧ size ≠ 0 then stray else found p stray) m' := by
  cases q with
  | some b =>
      obtain ⟨hsize, hothers⟩ := hdescribes
      obtain ⟨bytes, hblock, hlength⟩ := Option.map_eq_some_iff.1 hsize
      -- Between the two steps lies a memory without the old block.
      obtain ⟨m₁, hgone⟩ : ∃ m₁ : Memory,
          ∀ c, m₁.block? c = if p = some c then none else m.block? c := by
        cases p with
        | none => exact ⟨m, fun c => by simp⟩
        | some a => exact ⟨⟨m.blocks.erase a⟩, block?_erase_pointer m a⟩
      have hfresh : m₁.block? b = none := by
        rw [hgone]
        split
        next => rfl
        next hp => exact (hplace b rfl).resolve_left hp
      have hallots : m₁.Allots m' size (some b) := by
        refine ⟨bytes, hlength, hfresh, ?_⟩
        intro c
        by_cases hc : c = b
        · rw [if_pos hc, hc, hblock]
        · rw [if_neg hc, hothers c hc, hgone]
      have hindex : (if some b = none ∧ size ≠ 0 then stray else found p stray) =
          found p stray := by simp
      rw [hindex]
      exact (hl.afterFree hgone).afterMalloc hallots
  | none =>
      by_cases hreleased : size = 0 ∧ p.isSome
      · rw [Resize.ofAnswer, if_pos hreleased] at hdescribes ⊢
        obtain ⟨-, -, hgone⟩ := hdescribes
        rw [if_neg (fun h => h.2 hreleased.1)]
        exact hl.afterFree hgone
      · rw [Resize.ofAnswer, if_neg hreleased] at hdescribes ⊢
        obtain rfl : m' = m := hdescribes
        by_cases hzero : size = 0
        · have hnull : p = none := by
            cases p with
            | none => rfl
            | some a => exact absurd ⟨hzero, rfl⟩ hreleased
          simpa [hzero, hnull, found_none, afterResize] using hl
        · simpa [hzero, afterResize] using hl

/-- The answer reads as a release that never happened. -/
theorem ExactBut.afterNothing {a : Address} (hl : l.ExactBut none m) (hlive : m.live a) :
    (l.afterFree (some a)).ExactBut (some a) m := by
  constructor
  · intro c
    rw [get?_afterFree, hl.get? c]
    simp [eq_comm]
  · rintro _ ⟨⟩
    exact hlive

end Ledger

/-! ## Runs -/

theorem place_of_realloc {m m' : Memory} {place : Placement} {p : Pointer} {size : Nat}
    {b : Address} (hrealloc : m.realloc place p size = .ok (some b, m')) :
    p = some b ∨ m.block? b = none := by
  cases p with
  | none =>
      have hallots := allots_malloc m place size
      rw [Memory.realloc] at hrealloc
      rw [Except.ok.inj hrealloc] at hallots
      obtain ⟨bytes, -, hfresh, -⟩ := hallots
      exact .inr hfresh
  | some a =>
      have hlive : m.block? a ≠ none := by
        intro hnone
        simp [Memory.realloc, hnone] at hrealloc
      obtain ⟨bytes, hbytes⟩ := Option.ne_none_iff_exists'.1 hlive
      have hsize : 0 < size := by
        apply Nat.pos_of_ne_zero
        intro hzero
        simp [Memory.realloc, hbytes, hzero] at hrealloc
      obtain ⟨q, m₁, hrealloc₁, hregrows⟩ := regrows_realloc place hbytes hsize
      obtain ⟨rfl, rfl⟩ : q = some b ∧ m₁ = m' := by
        simpa using hrealloc₁.symm.trans hrealloc
      obtain ⟨hplace, -⟩ := hregrows
      rcases hplace with rfl | hfresh
      · exact .inl rfl
      · exact .inr hfresh

/-- A growth call that asks for no bytes. -/
def Call.empties : Call → Bool
  | .realloc _ size | .resize _ size => size = 0
  | .malloc _ | .free _ => false

def growths (history : List (Call × Answer)) : Nat :=
  history.countP fun e => e.1.grows

/-- The live block that the tracker does not know, the latest call first. -/
def strayed (policy : Policy) : List (Call × Answer) → Pointer
  | [] => none
  | (c, answer) :: earlier =>
    if c.empties ∧ policy.verdict (growths earlier + 1) = .fail then c.pointer
    else if c.grows ∧ answer.block = none ∧ ¬ c.empties then strayed policy earlier
    else found c.pointer (strayed policy earlier)

/-- The library fails a request for no bytes of a block. -/
def Lapses (policy : Policy) (history : List (Call × Answer)) : Prop :=
  ∃ later c answer earlier, history = later ++ (c, answer) :: earlier ∧
    c.empties ∧ c.pointer ≠ none ∧ policy.verdict (growths earlier + 1) = .fail

theorem Lapses.of_suffix {policy : Policy} {earlier history : List (Call × Answer)}
    (hlapses : Lapses policy earlier) (hsuffix : earlier <:+ history) : Lapses policy history := by
  obtain ⟨later, c, answer, before, rfl, hlapse⟩ := hlapses
  obtain ⟨after, rfl⟩ := hsuffix
  exact ⟨after ++ later, c, answer, before, by simp, hlapse⟩

theorem strayed_eq_none {policy : Policy} {history : List (Call × Answer)}
    (hlapses : ¬ Lapses policy history) : strayed policy history = none := by
  induction history with
  | nil => rfl
  | cons e earlier ih =>
      obtain ⟨c, answer⟩ := e
      have hearlier : strayed policy earlier = none := by
        apply ih
        intro hlapse
        exact hlapses (hlapse.of_suffix (List.suffix_cons _ _))
      simp only [strayed, hearlier]
      split
      next hfailed =>
        by_contra hpointer
        exact hlapses ⟨[], c, answer, earlier, rfl, hfailed.1, hpointer, hfailed.2⟩
      next => simp [found]

namespace Stack

/-- One tracker over the library, after the calls so far. -/
structure Tracks (env : Environment) (history : List (Call × Answer)) (h : Stack) : Prop where
  base : ∃ sizes, h.base.Preloaded env sizes ∧ sizes.length = growths history
  ledger : ∃ l, h.layers = [.tracker l] ∧
    l.ExactBut (strayed env.policy history) h.base.memory
  passed : strayed env.policy history ≠ none → env.policy.ordinal.toNat ≤ growths history

variable {env : Environment} {place : Placement} {history : List (Call × Answer)} {h : Stack}
  {c : Call} {answer : Answer} {p : Pointer}

theorem tracks_start (env : Environment) (place : Placement) :
    Tracks env [] ⟨[.track], .preloaded env place⟩ := by
  constructor
  · exact ⟨[], Base.preloaded_start env place, rfl⟩
  · refine ⟨.empty, rfl, ?_⟩
    constructor
    · intro a
      rfl
    · rintro a ⟨⟩
  · intro hstray
    exact absurd rfl hstray

theorem Tracks.malloc (ht : h.Tracks env history) (size : Nat) :
    Tracks env ((.malloc size, .pointer (h.malloc size).1) :: history) (h.malloc size).2 := by
  obtain ⟨⟨sizes, hbase, hlength⟩, ⟨l, hlayers, hl⟩, hpassed⟩ := ht
  have hmalloc : h.malloc size = ((h.base.memory.malloc h.base.placement size).1,
      ⟨[.tracker (l.afterMalloc size (h.base.memory.malloc h.base.placement size).1)],
        { h.base with memory := (h.base.memory.malloc h.base.placement size).2 }⟩) := by
    simp [Stack.malloc, hlayers, Layers.malloc, hbase.malloc]
  have hstrayed (q : Pointer) :
      strayed env.policy ((.malloc size, .pointer q) :: history) = strayed env.policy history := by
    simp [strayed, Call.empties, Call.grows, Call.pointer, found_none]
  have hgrowths (q : Pointer) : growths ((.malloc size, .pointer q) :: history) = growths history :=
    List.countP_cons_of_neg (by simp [Call.grows])
  rw [hmalloc]
  constructor
  · exact ⟨sizes, hbase.withMemory _, by rw [hgrowths, hlength]⟩
  · refine ⟨_, rfl, ?_⟩
    rw [hstrayed]
    exact hl.afterMalloc (allots_malloc _ _ size)
  · rw [hstrayed, hgrowths]
    exact hpassed

theorem Tracks.free (ht : h.Tracks env history) (hp : Permitted h.base.memory p) :
    ∃ h', h.free p = .ok h' ∧ h'.Tracks env ((.free p, .freed) :: history) := by
  obtain ⟨⟨sizes, hbase, hlength⟩, ⟨l, hlayers, hl⟩, hpassed⟩ := ht
  obtain ⟨m, hfree, hgone⟩ := Base.free_of_permitted hp
  have hstrayed : strayed env.policy ((.free p, .freed) :: history) =
      found p (strayed env.policy history) := by
    simp [strayed, Call.empties, Call.grows, Call.pointer]
  have hgrowths : growths ((.free p, .freed) :: history) = growths history :=
    List.countP_cons_of_neg (by simp [Call.grows])
  refine ⟨⟨[.tracker (l.afterFree p)], { h.base with memory := m }⟩, ?_, ?_⟩
  · simp [Stack.free, hlayers, Layers.free, hfree, bind, Except.bind]
  · constructor
    · exact ⟨sizes, hbase.withMemory m, by rw [hgrowths, hlength]⟩
    · refine ⟨_, rfl, ?_⟩
      rw [hstrayed]
      exact hl.afterFree hgone
    · rw [hstrayed, hgrowths]
      intro hstray
      apply hpassed
      intro hnone
      rw [hnone, found] at hstray
      split at hstray <;> exact hstray rfl

/-- A growth call that the library fails: the allocator is not asked. -/
theorem Tracks.resize_failed (ht : h.Tracks env history) (hp : Permitted h.base.memory p)
    (size : Nat) (hfail : env.policy.verdict (growths history + 1) = .fail) :
    ∃ h', h.resize p size = .ok (.ofAnswer p size none, h') ∧
      ∀ {c answer}, c.grows → c.pointer = p → (c.empties ↔ size = 0) → answer.block = none →
        h'.Tracks env ((c, answer) :: history) := by
  obtain ⟨⟨sizes, hbase, hlength⟩, ⟨l, hlayers, hl⟩, hpassed⟩ := ht
  obtain ⟨source, hbase', hrealloc⟩ := hbase.realloc p size
  rw [hlength, if_pos hfail] at hrealloc
  obtain ⟨-, hordinal⟩ := Policy.verdict_eq_fail_iff.1 hfail
  -- A policy fails one call, so nothing is astray before it.
  have hnone : strayed env.policy history = none := by
    by_contra hstray
    have hle := hpassed hstray
    omega
  refine ⟨⟨[.tracker (l.afterResize p size (.ofAnswer p size none))], { h.base with source }⟩,
    ?_, ?_⟩
  · simp [Stack.resize, hlayers, Layers.resize, Base.resize, hrealloc, bind, Except.bind]
  · intro c answer hgrows hpointer hempties hanswer
    have hgrowths : growths ((c, answer) :: history) = growths history + 1 :=
      List.countP_cons_of_pos hgrows
    have hstrayed : strayed env.policy ((c, answer) :: history) =
        if size = 0 then p else none := by
      by_cases hzero : size = 0
      · simp [strayed, hempties.2 hzero, hfail, hzero, hpointer]
      · simp [strayed, mt hempties.1 hzero, hgrows, hanswer, hzero, hnone]
    rw [hnone] at hl
    constructor
    · exact ⟨_, hbase', by simp [hgrowths, hlength]⟩
    · refine ⟨_, rfl, ?_⟩
      rw [hstrayed, Resize.ofAnswer]
      cases p with
      | none => simpa [Ledger.afterResize] using hl
      | some a =>
          by_cases hzero : size = 0
          · simpa [hzero, Ledger.afterResize] using hl.afterNothing (hp a rfl)
          · simpa [hzero, Ledger.afterResize] using hl
    · intro hstray
      omega

/-- A growth call that goes to the allocator. -/
theorem Tracks.resize_forwarded (ht : h.Tracks env history) (hp : Permitted h.base.memory p)
    (size : Nat) (hforward : env.policy.verdict (growths history + 1) ≠ .fail) :
    ∃ q h', h.resize p size = .ok (.ofAnswer p size q, h') ∧
      ∀ {c answer}, c.grows → c.pointer = p → (c.empties ↔ size = 0) → answer.block = q →
        h'.Tracks env ((c, answer) :: history) := by
  obtain ⟨⟨sizes, hbase, hlength⟩, ⟨l, hlayers, hl⟩, hpassed⟩ := ht
  obtain ⟨source, hbase', hrealloc⟩ := hbase.realloc p size
  rw [hlength, if_neg hforward] at hrealloc
  obtain ⟨q, m, hmemory, hdescribes⟩ := describes_realloc size h.base.placement hp
  have hplace (b : Address) (hb : q = some b) : p = some b ∨ h.base.memory.block? b = none := by
    subst hb
    exact place_of_realloc hmemory
  refine ⟨q, ⟨[.tracker (l.afterResize p size (.ofAnswer p size q))],
    { h.base with source, memory := m }⟩, ?_, ?_⟩
  · simp [Stack.resize, hlayers, Layers.resize, Base.resize, hrealloc, Base.systemRealloc,
      hmemory, bind, Except.bind]
  · intro c answer hgrows hpointer hempties hanswer
    have hgrowths : growths ((c, answer) :: history) = growths history + 1 :=
      List.countP_cons_of_pos hgrows
    have hstrayed : strayed env.policy ((c, answer) :: history) =
        if q = none ∧ size ≠ 0 then strayed env.policy history
        else found p (strayed env.policy history) := by
      have hkept : (c.grows = true ∧ answer.block = none ∧ ¬ c.empties = true) ↔
          (q = none ∧ size ≠ 0) := by
        rw [hanswer, hempties]
        simp [hgrows]
      simp only [strayed, hforward, and_false, if_false, hkept, hpointer]
    constructor
    · exact ⟨_, hbase'.withMemory m, by simp [hgrowths, hlength]⟩
    · refine ⟨_, rfl, ?_⟩
      rw [hstrayed]
      exact hl.afterResize hdescribes hplace
    · intro hstray
      have hearlier : strayed env.policy history ≠ none := by
        intro hnone
        rw [hstrayed, hnone, found] at hstray
        simp at hstray
      have hle := hpassed hearlier
      omega

theorem Tracks.resize (ht : h.Tracks env history) (hp : Permitted h.base.memory p) (size : Nat) :
    ∃ q h', h.resize p size = .ok (.ofAnswer p size q, h') ∧
      ∀ {c answer}, c.grows → c.pointer = p → (c.empties ↔ size = 0) → answer.block = q →
        h'.Tracks env ((c, answer) :: history) := by
  by_cases hfail : env.policy.verdict (growths history + 1) = .fail
  · exact ⟨none, ht.resize_failed hp size hfail⟩
  · exact ht.resize_forwarded hp size hfail

theorem Tracks.perform (ht : h.Tracks env history) (hp : Permitted h.base.memory c.pointer) :
    ∃ answer h', h.perform c = .ok (answer, h') ∧ h'.Tracks env ((c, answer) :: history) := by
  cases c with
  | malloc size => exact ⟨_, _, rfl, ht.malloc size⟩
  | free p =>
      have hpermitted : Permitted h.base.memory p := hp
      obtain ⟨h', hfree, ht'⟩ := ht.free hpermitted
      exact ⟨.freed, h', by rw [perform, hfree]; rfl, ht'⟩
  | realloc p size =>
      have hpermitted : Permitted h.base.memory p := hp
      obtain ⟨q, h', hresize, hnext⟩ := ht.resize hpermitted size
      refine ⟨.pointer q, h', ?_, hnext rfl rfl (by simp [Call.empties]) rfl⟩
      rw [perform, realloc, hresize]
      simp [bind, Except.bind, Resize.pointer_ofAnswer]
  | resize p size =>
      have hpermitted : Permitted h.base.memory p := hp
      obtain ⟨q, h', hresize, hnext⟩ := ht.resize hpermitted size
      refine ⟨.resized (.ofAnswer p size q), h', by rw [perform, hresize]; rfl,
        hnext rfl rfl (by simp [Call.empties]) ?_⟩
      exact Resize.pointer_ofAnswer p size q

theorem Run.tracks (hrun : Run ⟨[.track], .preloaded env place⟩ history h) :
    h.Tracks env history := by
  induction hrun with
  | start => exact tracks_start env place
  | call hrun hp hperform ih =>
      obtain ⟨answer, h', hperformed, ht⟩ := ih.perform hp
      obtain ⟨rfl, rfl⟩ : answer = _ ∧ h' = _ := by
        simpa using hperformed.symm.trans hperform
      exact ht

theorem Run.exists_of_suffix {start : Stack} {earlier : List (Call × Answer)}
    (hrun : Run start history h) (hsuffix : earlier <:+ history) : ∃ h₀, Run start earlier h₀ := by
  induction hrun with
  | start =>
      obtain rfl := List.suffix_nil.1 hsuffix
      exact ⟨_, .start⟩
  | call hrun hp hperform ih =>
      rcases List.suffix_cons_iff.1 hsuffix with rfl | hbefore
      · exact ⟨_, .call hrun hp hperform⟩
      · exact ih hbefore

/-- The ledger is exact after every call of a run unless the library has failed a request for no
bytes of a block.  Then that block is the one that the ledger may miss; every other live block is
in it, with its size, and nothing else is. -/
theorem preloaded_ledger_exact_iff (hrun : Run ⟨[.track], .preloaded env place⟩ history h) :
    ((∀ earlier h₀, earlier <:+ history → Run ⟨[.track], .preloaded env place⟩ earlier h₀ →
        ∀ l ∈ Layers.ledgers h₀.layers, l.Exact h₀.base.memory) ↔
      ¬ Lapses env.policy history) ∧
    (∃ l, h.layers = [.tracker l] ∧
      (∀ a, l.get? a = if strayed env.policy history = some a then none
        else (h.base.memory.block? a).map List.length) ∧
      ∀ a, strayed env.policy history = some a → h.base.memory.live a) ∧
    ∀ c, Permitted h.base.memory c.pointer → ∃ answer h', h.perform c = .ok (answer, h') := by
  refine ⟨⟨?_, ?_⟩, ?_, ?_⟩
  · -- Right after the lapse the block is astray, so the ledger is not exact there.
    rintro hexact ⟨later, c, answer, earlier, rfl, hempties, hpointer, hfail⟩
    have hsuffix : (c, answer) :: earlier <:+ later ++ (c, answer) :: earlier :=
      List.suffix_append later _
    obtain ⟨h₀, hrun₀⟩ := hrun.exists_of_suffix hsuffix
    obtain ⟨l, hlayers, hl⟩ := hrun₀.tracks.ledger
    have hexact₀ := hexact _ h₀ hsuffix hrun₀ l (by simp [hlayers, Layers.ledgers])
    have hstray := (Ledger.exact_iff_of_exactBut hl).1 hexact₀
    apply hpointer
    rw [strayed, if_pos ⟨hempties, hfail⟩] at hstray
    exact hstray
  · intro hlapses earlier h₀ hsuffix hrun₀ l' hl'
    obtain ⟨l, hlayers, hl⟩ := hrun₀.tracks.ledger
    obtain rfl : l' = l := by simpa [hlayers, Layers.ledgers] using hl'
    have hnone := strayed_eq_none (mt (fun hlapse => hlapse.of_suffix hsuffix) hlapses)
    exact (Ledger.exact_iff_of_exactBut hl).2 hnone
  · obtain ⟨l, hlayers, hl⟩ := hrun.tracks.ledger
    exact ⟨l, hlayers, hl.get?, hl.live⟩
  · intro c hp
    obtain ⟨answer, h', hperform, -⟩ := hrun.tracks.perform hp
    exact ⟨answer, h', hperform⟩

/-- Without a setting the second growth call fails.  Asked for no bytes of a block, it reads as a
release. -/
theorem preloaded_ledger_exact_iff_released :
    ∃ h, Run ⟨[.track], .preloaded .empty .above⟩
        [(.resize (some 2) 0, .resized .released), (.realloc (some 1) 16, .pointer (some 2)),
          (.malloc 8, .pointer (some 1))] h ∧
      h.base.memory.live 2 ∧ ∃ l, h.layers = [.tracker l] ∧ l.get? 2 = none := by
  have hlive {m : Memory} (a : Address) (ha : m.live a) : Permitted m (some a) := by
    rintro _ ⟨⟩
    exact ha
  obtain ⟨h, hrun⟩ : ∃ h, Run ⟨[.track], .preloaded .empty .above⟩
      [(.resize (some 2) 0, .resized .released), (.realloc (some 1) 16, .pointer (some 2)),
        (.malloc 8, .pointer (some 1))] h :=
    ⟨_, .call (c := .resize (some 2) 0) (.call (c := .realloc (some 1) 16)
      (.call (c := .malloc 8) .start (by rintro _ ⟨⟩) rfl) (hlive 1 rfl) rfl) (hlive 2 rfl) rfl⟩
  obtain ⟨-, ⟨l, hlayers, hget, hstray⟩, -⟩ := preloaded_ledger_exact_iff hrun
  exact ⟨h, hrun, hstray 2 rfl, l, hlayers, (hget 2).trans rfl⟩

/-- With the first growth call failed, a request for no bytes takes a live block out of the
ledger. -/
theorem preloaded_ledger_misses_failed_release :
    ¬ ∀ (env : Environment) (place : Placement) (history : List (Call × Answer)) (h : Stack),
      Run ⟨[.track], .preloaded env place⟩ history h →
        ∀ l ∈ Layers.ledgers h.layers, l.Exact h.base.memory := by
  intro hlaw
  let env : Environment := ⟨some (Bytes.ofText "1"), none⟩
  have hlive {m : Memory} (a : Address) (ha : m.live a) : Permitted m (some a) := by
    rintro _ ⟨⟩
    exact ha
  obtain ⟨h, hrun⟩ : ∃ h, Run ⟨[.track], .preloaded env .above⟩
      [(.realloc (some 1) 0, .pointer none), (.malloc 8, .pointer (some 1))] h :=
    ⟨_, .call (c := .realloc (some 1) 0) (.call (c := .malloc 8) .start (by rintro _ ⟨⟩) rfl)
      (hlive 1 rfl) rfl⟩
  obtain ⟨l, hlayers, hl⟩ := hrun.tracks.ledger
  have hexact := hlaw env .above _ h hrun l (by simp [hlayers, Layers.ledgers])
  have hstray := (Ledger.exact_iff_of_exactBut hl).1 hexact
  cases hstray

end Stack

end GrowthFault.Heap
