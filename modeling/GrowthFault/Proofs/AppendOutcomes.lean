import GrowthFault.Proofs.AllocatorContract
import GrowthFault.Subject.Append

/-!
# Appending on any heap

Whatever heap keeps the contract, and whichever of its calls fail: an append asks for a block,
copies the first operand into it, asks for more room and copies the second operand behind the
first.  Each copy is a write that memory accepts, so it stays inside a live block at its current
size.  `Appends` lists the four ways in which this can go; every append goes one of them.
-/

namespace GrowthFault

open Heap

theorem Memory.overwrite_tail {bytes data : Bytes} {offset : Nat}
    (hlength : bytes.length = offset + data.length) :
    overwrite bytes offset data = bytes.take offset ++ data := by
  simp [overwrite, ← hlength]

theorem Memory.write_of_block? {m : Memory} {a : Address} {offset : Nat} {data bytes : Bytes}
    (hblock : m.block? a = some bytes) (hroom : offset + data.length ≤ bytes.length) :
    ∃ m', m.write a offset data = .ok m' ∧
      ∀ c, m'.block? c = if c = a then some (overwrite bytes offset data) else m.block? c := by
  have hwrite : m.write a offset data = .ok ⟨m.blocks.insert a (overwrite bytes offset data)⟩ := by
    simp [write, hblock, hroom]
  exact ⟨_, hwrite, block?_write hblock hwrite⟩

/-- Reading from the front finds a string that was stored with its terminator. -/
theorem Memory.readString_of_block? {m : Memory} {a : Address} {bytes : Bytes}
    (hblock : m.block? a = some (bytes ++ [0])) (hnul : (0 : UInt8) ∉ bytes) :
    m.readString a = .ok bytes := by
  have hstring : ∀ b ∈ bytes, (b != 0) = true := by
    intro b hb
    have hne : b ≠ 0 := by
      rintro rfl
      exact hnul hb
    simpa using hne
  simp [readString, hblock, List.takeWhile_append_of_pos hstring]

theorem Memory.Gains.loses {m m' m'' : Memory} {a : Address} {bytes : Bytes}
    (hgains : m.Gains m' a bytes) (hloses : m'.Loses m'' a) : m.Same m'' := by
  intro c
  rw [hloses]
  split
  next hc => rw [hc, hgains.1]
  next hc => rw [hgains.2, if_neg hc]

namespace Subject

variable {σ : Type} [Allocator σ] {Good : σ → Prop} {h h' h₁ h₂ h₃ : σ} {a b : Address}
  {q : Pointer} {s : Subject} {base addition : CString}

open Allocator (memory)

/-- How an append on a heap goes: the calls it makes with their answers, and what it leaves. -/
inductive Appends (base addition : CString) (h : σ) : Subject → Pointer → σ → Prop where
  /-- Without a block nothing else is asked for. -/
  | refused {s : Subject} {h' : σ} (hmalloc : Allocator.malloc h (base.length + 1) = (none, h'))
      (hleft : (memory h).Same (memory h')) : Appends base addition h s none h'
  | grown {s : Subject} {a b : Address} {h₁ h₂ h₃ h' : σ}
      (hmalloc : Allocator.malloc h (base.length + 1) = (some a, h₁))
      (hcopy : Allocator.write h₁ a 0 base.terminated = .ok h₂)
      (hgrowth : Allocator.realloc h₂ (some a) (base.length + addition.length + 1) =
        .ok (some b, h₃))
      (hbehind : Allocator.write h₃ b base.length addition.terminated = .ok h')
      (hleft : (memory h).Gains (memory h') b (base.bytes ++ addition.terminated)) :
      Appends base addition h s (some b) h'
  /-- Without more room the fixed subject gives the first block back. -/
  | freed {a : Address} {h₁ h₂ h₃ h' : σ}
      (hmalloc : Allocator.malloc h (base.length + 1) = (some a, h₁))
      (hcopy : Allocator.write h₁ a 0 base.terminated = .ok h₂)
      (hgrowth : Allocator.realloc h₂ (some a) (base.length + addition.length + 1) =
        .ok (none, h₃))
      (hfree : Allocator.free h₃ (some a) = .ok h')
      (hleft : (memory h).Same (memory h')) : Appends base addition h .fixed none h'
  /-- The buggy one loses it. -/
  | lost {a : Address} {h₁ h₂ h' : σ}
      (hmalloc : Allocator.malloc h (base.length + 1) = (some a, h₁))
      (hcopy : Allocator.write h₁ a 0 base.terminated = .ok h₂)
      (hgrowth : Allocator.realloc h₂ (some a) (base.length + addition.length + 1) =
        .ok (none, h'))
      (hleft : (memory h).Gains (memory h') a base.terminated) :
      Appends base addition h .buggy none h'

theorem Appends.append_eq (happends : Appends base addition h s q h') :
    s.append h base addition = .ok (q, h') := by
  cases happends with
  | refused hmalloc hleft => simp only [append, hmalloc]
  | grown hmalloc hcopy hgrowth hbehind hleft =>
      simp [append, hmalloc, hcopy, hgrowth, hbehind, bind, Except.bind]
  | freed hmalloc hcopy hgrowth hfree hleft =>
      simp [append, hmalloc, hcopy, hgrowth, hfree, bind, Except.bind]
  | lost hmalloc hcopy hgrowth hleft =>
      simp [append, hmalloc, hcopy, hgrowth, bind, Except.bind]

/-- A copy that fits is accepted, and the heap stays one that keeps the contract. -/
theorem copied (hcontract : Allocator.Contract σ Good) (hgood : Good h) {offset : Nat}
    {data bytes : Bytes} (hblock : (memory h).block? a = some bytes)
    (hroom : offset + data.length ≤ bytes.length) :
    ∃ h', Allocator.write h a offset data = .ok h' ∧ Good h' ∧ ∀ c, (memory h').block? c =
      if c = a then some (Memory.overwrite bytes offset data) else (memory h).block? c := by
  obtain ⟨m, hwrite, hblocks⟩ := Memory.write_of_block? hblock hroom
  obtain ⟨hgood', hmemory⟩ := hcontract.write hgood hwrite
  refine ⟨Allocator.withMemory h m, ?_, hgood', ?_⟩
  · rw [Allocator.write, hwrite]
    rfl
  · rw [hmemory]
    exact hblocks

/-- The first block holds the first operand. -/
theorem first_block (hcontract : Allocator.Contract σ Good) (hgood : Good h) (base : CString)
    (hmalloc : Allocator.malloc h (base.length + 1) = (some a, h₁)) :
    ∃ h₂, Allocator.write h₁ a 0 base.terminated = .ok h₂ ∧ Good h₂ ∧
      (memory h).Gains (memory h₂) a base.terminated := by
  have hallots := hcontract.malloc (base.length + 1) hgood
  rw [hmalloc] at hallots
  obtain ⟨hgood₁, bytes, hlength, hfresh, hblocks₁⟩ := hallots
  have hblock : (memory h₁).block? a = some bytes := by
    rw [hblocks₁, if_pos rfl]
  have hwhole : bytes.length = 0 + base.terminated.length := by
    rw [hlength, base.length_terminated]
    omega
  obtain ⟨h₂, hcopy, hgood₂, hblocks₂⟩ :=
    copied hcontract hgood₁ hblock (Nat.le_of_eq hwhole.symm)
  refine ⟨h₂, hcopy, hgood₂, hfresh, ?_⟩
  intro c
  rw [hblocks₂, Memory.overwrite_tail hwhole, List.take_zero, List.nil_append]
  split
  next hc => rfl
  next hc => rw [hblocks₁, if_neg hc]

/-- With more room the second operand goes behind the first. -/
theorem second_operand (hcontract : Allocator.Contract σ Good) (hgood : Good h₃)
    (base addition : CString) {m : Memory} (hgains : m.Gains (memory h₂) a base.terminated)
    (hregrows : (memory h₂).Regrows (memory h₃) a base.terminated
      (base.length + addition.length + 1) (some b)) :
    ∃ h', Allocator.write h₃ b base.length addition.terminated = .ok h' ∧ Good h' ∧
      m.Gains (memory h') b (base.bytes ++ addition.terminated) := by
  obtain ⟨hfresh₂, hblocks₂⟩ := hgains
  obtain ⟨hplace, bytes, hlength, hkept, hblocks₃⟩ := hregrows
  have hblock : (memory h₃).block? b = some bytes := by
    rw [hblocks₃, if_pos rfl]
  have hwhole : bytes.length = base.length + addition.terminated.length := by
    rw [hlength, addition.length_terminated]
    omega
  have hfirst : bytes.take base.length = base.bytes := by
    have hroom : base.terminated.length ≤ base.length + addition.length + 1 := by
      rw [base.length_terminated]
      omega
    rw [List.take_of_length_le hroom, base.length_terminated] at hkept
    have htake := congrArg (List.take base.length) hkept
    rw [List.take_take, Nat.min_eq_left (by omega)] at htake
    rw [htake]
    exact List.take_left
  obtain ⟨h', hcopy, hgood', hblocks'⟩ := copied hcontract hgood hblock (Nat.le_of_eq hwhole.symm)
  refine ⟨h', hcopy, hgood', ?_, ?_⟩
  · -- If the block has moved, it lies where nothing was live while the first block still was.
    rcases hplace with rfl | hfree
    · exact hfresh₂
    · rw [hblocks₂] at hfree
      split at hfree
      next => cases hfree
      next => exact hfree
  · intro c
    rw [hblocks', Memory.overwrite_tail hwhole, hfirst]
    split
    next hc => rfl
    next hc =>
      rw [hblocks₃, if_neg hc]
      split
      next hca => rw [hca, hfresh₂]
      next hca => rw [hblocks₂, if_neg hca]

theorem exists_appends (hcontract : Allocator.Contract σ Good) (hgood : Good h) (s : Subject)
    (base addition : CString) : ∃ q h', Appends base addition h s q h' ∧ Good h' := by
  have hallots := hcontract.malloc (base.length + 1) hgood
  -- Only the two requests can fail: their answers, and the subject, decide which way it goes.
  rcases hmalloc : Allocator.malloc h (base.length + 1) with ⟨_ | a, h₁⟩
  · rw [hmalloc] at hallots
    obtain ⟨hgood₁, hsame⟩ := hallots
    exact ⟨none, h₁, .refused hmalloc hsame, hgood₁⟩
  · obtain ⟨h₂, hcopy, hgood₂, hgains⟩ := first_block hcontract hgood base hmalloc
    have hblock : (memory h₂).block? a = some base.terminated := by
      rw [hgains.2, if_pos rfl]
    obtain ⟨q, h₃, hgrowth, hgood₃, hregrows⟩ :=
      hcontract.realloc hgood₂ hblock (Nat.succ_pos (base.length + addition.length))
    cases q with
    | some b =>
        obtain ⟨h', hbehind, hgood', hleft⟩ :=
          second_operand hcontract hgood₃ base addition hgains hregrows
        exact ⟨some b, h', .grown hmalloc hcopy hgrowth hbehind hleft, hgood'⟩
    | none =>
        have hstill : (memory h).Gains (memory h₃) a base.terminated :=
          ⟨hgains.1, fun c => (hregrows c).trans (hgains.2 c)⟩
        cases s with
        | buggy => exact ⟨none, h₃, .lost hmalloc hcopy hgrowth hstill, hgood₃⟩
        | fixed =>
            have hlive : (memory h₃).live a := by
              rw [Memory.live, hstill.2, if_pos rfl]
              rfl
            obtain ⟨h', hfree, hgood', hloses⟩ := hcontract.free hgood₃ hlive
            exact ⟨none, h', .freed hmalloc hcopy hgrowth hfree (hstill.loses hloses), hgood'⟩

theorem carryOut_of_null (happends : Appends base addition h s none h') (d : Disposal) :
    Call.carryOut ⟨s, base, addition, d⟩ h = .ok (none, h') := by
  simp [Call.carryOut, happends.append_eq, bind, Except.bind]

/-- The string is read as it was put together; giving it back leaves what was there before. -/
theorem carryOut_of_block (hcontract : Allocator.Contract σ Good) (hgood : Good h')
    (happends : Appends base addition h s (some b) h') (d : Disposal) :
    ∃ h'', Call.carryOut ⟨s, base, addition, d⟩ h =
        .ok (some ⟨base.bytes ++ addition.bytes, h'⟩, h'') ∧
      if d.frees then
        Allocator.free h' (some b) = .ok h'' ∧ (memory h).Same (memory h'')
      else h'' = h' := by
  have hgains : (memory h).Gains (memory h') b (base.bytes ++ addition.terminated) := by
    cases happends with
    | grown hmalloc hcopy hgrowth hbehind hleft => exact hleft
  have hblock : (memory h').block? b = some (base.bytes ++ addition.bytes ++ [0]) := by
    rw [hgains.2, if_pos rfl, CString.terminated, List.append_assoc]
  have hnul : (0 : UInt8) ∉ base.bytes ++ addition.bytes := by
    simp [base.nul_free, addition.nul_free]
  have hread : Allocator.readString h' b = .ok (base.bytes ++ addition.bytes) :=
    Memory.readString_of_block? hblock hnul
  by_cases hfrees : d.frees
  · have hlive : (memory h').live b := by
      rw [Memory.live, hblock]
      rfl
    obtain ⟨h'', hfree, -, hloses⟩ := hcontract.free hgood hlive
    refine ⟨h'', ?_, ?_⟩
    · simp [Call.carryOut, happends.append_eq, hread, hfrees, hfree, bind, Except.bind]
    · rw [if_pos hfrees]
      exact ⟨hfree, hgains.loses hloses⟩
  · refine ⟨h', ?_, ?_⟩
    · simp [Call.carryOut, happends.append_eq, hread, hfrees, bind, Except.bind]
    · rw [if_neg hfrees]

/-- On a heap that keeps the contract every append is carried out, goes one of the four ways, and
answers null in three of them.  An owner of the answer who gives it back restores the live blocks;
one who gives it up leaves the new block live. -/
theorem append_outcomes (hcontract : Allocator.Contract σ Good) (hgood : Good h) (s : Subject)
    (base addition : CString) :
    ∃ q h', s.append h base addition = .ok (q, h') ∧ Appends base addition h s q h' ∧ Good h' ∧
      ∀ d : Disposal, match q with
        | none => Call.carryOut ⟨s, base, addition, d⟩ h = .ok (none, h')
        | some _ => ∃ h'', Call.carryOut ⟨s, base, addition, d⟩ h =
            .ok (some ⟨base.bytes ++ addition.bytes, h'⟩, h'') ∧
          if d.frees then (memory h).Same (memory h'') else h'' = h' := by
  obtain ⟨q, h', happends, hgood'⟩ := exists_appends hcontract hgood s base addition
  refine ⟨q, h', happends.append_eq, happends, hgood', ?_⟩
  intro d
  cases q with
  | none => exact carryOut_of_null happends d
  | some b =>
      obtain ⟨h'', hcarry, hleft⟩ := carryOut_of_block hcontract hgood' happends d
      refine ⟨h'', hcarry, ?_⟩
      by_cases hfrees : d.frees
      · rw [if_pos hfrees] at hleft ⊢
        exact hleft.2
      · rw [if_neg hfrees] at hleft ⊢
        exact hleft

/-- An injector fails the growth of the buggy subject: the block with `a` in it stays. -/
theorem append_outcomes_lost_block :
    let h : Stack := ⟨[.track, .inject ⟨1, false⟩], .system⟩
    let base : CString := ⟨[0x61], by decide⟩
    let addition : CString := ⟨[0x62], by decide⟩
    h.base.source.Honest ∧
      ∃ h', Subject.buggy.append h base addition = .ok (none, h') ∧
        Appends base addition h .buggy none h' ∧ (memory h').block? 1 = some [0x61, 0] := by
  intro h base addition
  have hhonest : h.base.source.Honest := trivial
  obtain ⟨q, h', happend, happends, -⟩ :=
    append_outcomes Stack.contract hhonest .buggy base addition
  have hlost : ∃ h'', Subject.buggy.append h base addition = .ok (none, h'') ∧
      (memory h'').block? 1 = some [0x61, 0] := ⟨_, rfl, rfl⟩
  obtain ⟨h'', hnull, hblock⟩ := hlost
  obtain ⟨rfl, rfl⟩ : q = none ∧ h' = h'' := by
    simpa using happend.symm.trans hnull
  exact ⟨hhonest, h', happend, happends, hblock⟩

end Subject

end GrowthFault
