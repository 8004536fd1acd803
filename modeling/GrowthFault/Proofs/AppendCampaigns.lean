import GrowthFault.Proofs.ScenarioOutcomes
import Mathlib

/-!
# Campaigns of appends

A campaign carries out any number of appends, one after the other, on one tracked heap with an
injector below the tracker.  Each append makes one growth call, so the injector fails the one whose
number it has; the others answer the appended string.  What is live in the end are the strings that
were kept and, if the failed append lost its first block, that block.
-/

namespace GrowthFault

open Heap

/-! ## Entries of tables and their views -/

namespace Table

variable {β γ : Type} {t : Table β} {a : Address} {b : β}

theorem nodup_entries (t : Table β) : t.entries.Nodup :=
  .of_map Prod.fst t.nodup

theorem mem_entries_iff : (a, b) ∈ t.entries ↔ t.get? a = some b := by
  obtain ⟨entries, hnodup⟩ := t
  change (a, b) ∈ entries ↔ entries.lookup a = some b
  induction entries with
  | nil => simp
  | cons e entries ih =>
      obtain ⟨hfresh, hrest⟩ := List.nodup_cons.1 hnodup
      rw [lookup_entry, List.mem_cons, ih hrest]
      split
      next hhead =>
        subst hhead
        have hnone : ¬ entries.lookup e.1 = some b :=
          fun hlookup => hfresh (List.mem_map.2 ⟨(e.1, b), (ih hrest).2 hlookup, rfl⟩)
        simp [hnone, Prod.ext_iff, eq_comm]
      next hother =>
        have hne : (a, b) ≠ e := by
          rintro rfl
          exact hother rfl
        simp [hne]

/-- A table that looks like another one with its values changed has the same entries but for that
change. -/
theorem perm_map_entries {u : Table γ} {f : β → γ} (hview : ∀ a, u.get? a = (t.get? a).map f) :
    u.entries.Perm (t.entries.map fun e => (e.1, f e.2)) := by
  have hnodup : (t.entries.map fun e => (e.1, f e.2)).Nodup := by
    refine .of_map Prod.fst ?_
    rw [List.map_map]
    exact t.nodup
  refine (List.perm_ext_iff_of_nodup u.nodup_entries hnodup).2 ?_
  rintro ⟨a, c⟩
  rw [mem_entries_iff, hview, Option.map_eq_some_iff, List.mem_map]
  constructor
  · rintro ⟨b, hb, rfl⟩
    exact ⟨(a, b), mem_entries_iff.2 hb, rfl⟩
  · rintro ⟨⟨a, b⟩, hb, heq⟩
    cases heq
    exact ⟨b, mem_entries_iff.1 hb, rfl⟩

/-- One more value for a new address is one more entry. -/
theorem perm_cons_entries {u : Table β} (hnew : t.get? a = none)
    (hview : ∀ c, u.get? c = if c = a then some b else t.get? c) :
    u.entries.Perm ((a, b) :: t.entries) := by
  have hnodup : ((a, b) :: t.entries).Nodup := by
    refine List.nodup_cons.2 ⟨fun hmem => ?_, t.nodup_entries⟩
    rw [mem_entries_iff.1 hmem] at hnew
    cases hnew
  refine (List.perm_ext_iff_of_nodup u.nodup_entries hnodup).2 ?_
  rintro ⟨c, b'⟩
  rw [mem_entries_iff, hview, List.mem_cons, mem_entries_iff, Prod.mk.injEq]
  split
  next hc =>
    rw [hc, hnew]
    simp [eq_comm]
  next hc => simp [hc]

end Table

/-! ## What a campaign leaves -/

namespace Memory

/-- The bytes of the live blocks. -/
def contents (m : Memory) : List Bytes :=
  m.blocks.entries.map Prod.snd

variable {m m' : Memory} {a : Address} {bytes : Bytes}

theorem Same.perm_contents (hsame : m.Same m') : m'.contents.Perm m.contents := by
  have hentries := Table.perm_map_entries (t := m.blocks) (u := m'.blocks) (f := id)
    fun a => by rw [Option.map_id, id]; exact hsame a
  simpa [contents] using hentries.map Prod.snd

theorem Gains.perm_contents (hgains : m.Gains m' a bytes) :
    m'.contents.Perm (bytes :: m.contents) :=
  (Table.perm_cons_entries hgains.1 hgains.2).map Prod.snd

end Memory

namespace Heap.Ledger

variable {l : Ledger} {m : Memory}

/-- An exact ledger has the sizes of the live blocks. -/
theorem Exact.perm_sizes (hexact : l.Exact m) :
    (l.entries.map Prod.snd).Perm (m.contents.map List.length) := by
  have hentries := (Table.perm_map_entries (t := m.blocks) hexact).map Prod.snd
  simpa [Memory.contents, Function.comp_def] using hentries

theorem total_eq_sum (l : Ledger) : l.total = (l.entries.map Prod.snd).sum := by
  unfold total
  induction l.entries with
  | nil => rfl
  | cons e entries ih => rw [List.foldr_cons, ih, List.map_cons, List.sum_cons]

end Heap.Ledger

namespace Subject

/-- Carry out some calls, one after the other; each answers what it shows. -/
def Call.runAll : List Call → Stack → Except Misuse (List (Option Shown) × Stack)
  | [], h => .ok ([], h)
  | c :: calls, h => do
    let (shown, h) ← c.run h
    let (others, h) ← runAll calls h
    .ok (shown :: others, h)

namespace Call

/-- The answer of a call when the growth call with number `ordinal` is failed, if its own is
number `k`. -/
def answer (ordinal : Nat) (c : Call) (k : Nat) : Option Bytes :=
  if k = ordinal then none else some (c.base.bytes ++ c.addition.bytes)

/-- What such a call leaves live.  If its growth is failed, that is what the subject loses;
otherwise it is the string, unless it is given back. -/
def leaves (ordinal : Nat) (c : Call) (k : Nat) : Option Bytes :=
  if k = ordinal then
    match c.subject with
    | .fixed => none
    | .buggy => some c.base.terminated
  else if c.disposal.frees then none
  else some (c.base.bytes ++ c.addition.terminated)

/-- What the calls of a campaign leave live, counted from the one with number `k` on. -/
def leftBehind (ordinal : Nat) (calls : List Call) (k : Nat) : List Bytes :=
  (calls.zipIdx k).filterMap fun (c, k) => c.leaves ordinal k

theorem leftBehind_cons (ordinal : Nat) (c : Call) (calls : List Call) (k : Nat) :
    leftBehind ordinal (c :: calls) k =
      (c.leaves ordinal k).toList ++ leftBehind ordinal calls (k + 1) := by
  cases hleaves : c.leaves ordinal k with
  | none => simp [leftBehind, hleaves]
  | some bytes => simp [leftBehind, hleaves]

/-- Both requests of the call are for sizes that are never refused. -/
structure Granted (place : Placement) (c : Call) : Prop where
  first : place.Grants (c.base.length + 1)
  growth : place.Grants (c.base.length + c.addition.length + 1)

variable {place : Placement} {policy : Policy} {N : UInt64} {n : Nat} {h : Stack} {c : Call}

theorem verdict_succ_iff : policy.verdict (n + 1) = .fail ↔ n + 1 = policy.ordinal.toNat := by
  rw [Policy.verdict_eq_fail_iff, Policy.ordinal_ne_zero_iff]
  omega

section OneCall

variable {s : Subject} {base addition : CString} {h₁ : Stack} {ordinal k : Nat}

/-- An append that got its first block and no growth leaves what its subject loses. -/
theorem perm_contents_of_failed (d : Disposal) (hfailed : k = ordinal)
    (happends : Appends base addition h s none h₁)
    (hfirst : ∃ a h₂, Allocator.malloc h (base.length + 1) = (some a, h₂)) :
    h₁.base.memory.contents.Perm
      (((Call.mk s base addition d).leaves ordinal k).toList ++ h.base.memory.contents) := by
  rw [leaves, if_pos hfailed]
  cases happends with
  | refused hmalloc hleft =>
      obtain ⟨a, h₂, hallotted⟩ := hfirst
      rw [hmalloc] at hallotted
      cases hallotted
  | freed hmalloc hcopy hgrowth hfree hleft => exact hleft.perm_contents
  | lost hmalloc hcopy hgrowth hleft => exact hleft.perm_contents

/-- An append that was answered is carried out, and leaves its string unless it is given back. -/
theorem exists_carryOut_of_grown (d : Disposal) (hgrown : ¬ k = ordinal) {b : Address}
    (happends : Appends base addition h s (some b) h₁) (hseen : h₁.Seamed place policy n) :
    ∃ h₂, carryOut ⟨s, base, addition, d⟩ h =
        .ok (some ⟨base.bytes ++ addition.bytes, h₁⟩, h₂) ∧
      h₂.Seamed place policy n ∧ h₂.base.memory.contents.Perm
        (((Call.mk s base addition d).leaves ordinal k).toList ++ h.base.memory.contents) := by
  have hfollows := Stack.follows_seamed place policy
  obtain ⟨h₂, hcarry, hleft⟩ :=
    carryOut_of_block Stack.contract (hfollows.good hseen) happends d
  rw [leaves, if_neg hgrown]
  refine ⟨h₂, hcarry, ?_⟩
  by_cases hfrees : d.frees
  · rw [if_pos hfrees] at hleft ⊢
    exact ⟨hfollows.free hseen hleft.1, hleft.2.perm_contents⟩
  · rw [if_neg hfrees] at hleft ⊢
    rw [hleft]
    cases happends with
    | grown hmalloc hcopy hgrowth hbehind hgains => exact ⟨hseen, hgains.perm_contents⟩

end OneCall

/-- One call of a campaign, under any policy. -/
theorem carryOut_seamed (hgranted : c.Granted place) (hseen : h.Seamed place policy n) :
    ∃ held h', c.carryOut h = .ok (held, h') ∧ h'.Seamed place policy (n + 1) ∧
      held.map Held.bytes = c.answer policy.ordinal.toNat (n + 1) ∧
      h'.base.memory.contents.Perm
        ((c.leaves policy.ordinal.toNat (n + 1)).toList ++ h.base.memory.contents) := by
  have hfollows := Stack.follows_seamed place policy
  obtain ⟨s, base, addition, d⟩ := c
  obtain ⟨q, h₁, happends, -⟩ := exists_appends Stack.contract (hfollows.good hseen) s base addition
  obtain ⟨hseen₁, hanswer⟩ := hfollows.append hseen hgranted.first hgranted.growth happends
  rw [verdict_succ_iff] at hanswer
  cases q with
  | none =>
      have hfailed := hanswer.1 rfl
      obtain ⟨a, h₂, hallotted, -⟩ := hfollows.malloc hseen hgranted.first
      refine ⟨none, h₁, carryOut_of_null happends d, hseen₁, ?_,
        perm_contents_of_failed d hfailed happends ⟨a, h₂, hallotted⟩⟩
      rw [answer, if_pos hfailed]
      rfl
  | some b =>
      have hgrown : ¬ n + 1 = policy.ordinal.toNat := fun hfailed => nomatch hanswer.2 hfailed
      obtain ⟨h₂, hcarry, hseen₂, hleft⟩ := exists_carryOut_of_grown d hgrown happends hseen₁
      refine ⟨some ⟨base.bytes ++ addition.bytes, h₁⟩, h₂, hcarry, hseen₂, ?_, hleft⟩
      rw [answer, if_neg hgrown]
      rfl

theorem run_seamed (hgranted : c.Granted place) (hseen : h.Seamed place (.failAt N) n) :
    ∃ shown h', c.run h = .ok (shown, h') ∧ h'.Seamed place (.failAt N) (n + 1) ∧
      shown.map Shown.bytes = c.answer N.toNat (n + 1) ∧
      h'.base.memory.contents.Perm
        ((c.leaves N.toNat (n + 1)).toList ++ h.base.memory.contents) := by
  obtain ⟨held, h', hcarry, hseen', hanswer, hleft⟩ := carryOut_seamed hgranted hseen
  refine ⟨held.map fun s => ⟨s.bytes, s.heap.figures⟩, h', ?_, hseen', ?_, hleft⟩
  · rw [run, hcarry]
    rfl
  · rw [Option.map_map]
    exact hanswer

/-- The calls of a campaign from the one with number `n + 1` on. -/
theorem runAll_seamed {calls : List Call} (hgranted : ∀ c ∈ calls, c.Granted place)
    (hseen : h.Seamed place (.failAt N) n) :
    ∃ shown h', runAll calls h = .ok (shown, h') ∧
      h'.Seamed place (.failAt N) (n + calls.length) ∧
      shown.map (Option.map Shown.bytes) =
        (calls.zipIdx (n + 1)).map (fun (c, k) => c.answer N.toNat k) ∧
      h'.base.memory.contents.Perm
        (leftBehind N.toNat calls (n + 1) ++ h.base.memory.contents) := by
  induction calls generalizing n h with
  | nil => exact ⟨[], h, rfl, hseen, rfl, .refl _⟩
  | cons c calls ih =>
      obtain ⟨hfirst, hrest⟩ := List.forall_mem_cons.1 hgranted
      obtain ⟨shown, h₁, hrun, hseen₁, hanswer, hleft⟩ := run_seamed hfirst hseen
      obtain ⟨others, h', hothers, hseen', hanswers, hleft'⟩ := ih hrest hseen₁
      refine ⟨shown :: others, h', ?_, ?_, ?_, ?_⟩
      · rw [runAll, hrun]
        simp only [bind, Except.bind, hothers]
      · rw [List.length_cons, Nat.add_comm calls.length, ← Nat.add_assoc]
        exact hseen'
      · rw [List.map_cons, hanswer, hanswers]
        rfl
      · rw [leftBehind_cons, List.append_assoc]
        exact (hleft'.trans (hleft.append_left _)).trans (List.perm_append_comm_assoc _ _ _)

/-- A campaign on a fresh heap.  The call with the injector's number answers null, every other one
the appended string, and the gate has counted them all.  The ledger is exact; live are the strings
that were not given back and the block that a buggy subject lost.  A release gives all of them
back. -/
theorem runAll_tracked (N : UInt64) {calls : List Call} (hgranted : ∀ c ∈ calls, c.Granted place) :
    ∃ shown h' l,
      runAll calls ⟨[.track, .inject (.failAt N)], { source := .system, placement := place }⟩ =
        .ok (shown, h') ∧
      shown.map (Option.map Shown.bytes) =
        (calls.zipIdx 1).map (fun (c, k) => c.answer N.toNat k) ∧
      Layers.gateCalls h'.layers = [calls.length] ∧
      h'.ledger? = some l ∧ l.Exact h'.base.memory ∧
      h'.base.memory.contents.Perm (leftBehind N.toNat calls 1) ∧
      (l.entries.map Prod.snd).Perm ((leftBehind N.toNat calls 1).map List.length) ∧
      l.total = ((leftBehind N.toNat calls 1).map List.length).sum ∧
      ∃ h'', h'.release = .ok (some (leftBehind N.toNat calls 1).length, h'') ∧
        h''.base.memory.blocks = .empty := by
  have hstart : Stack.Seamed place (.failAt N) 0
      ⟨[.track, .inject (.failAt N)], { source := .system, placement := place }⟩ :=
    ⟨rfl, rfl, .empty, rfl, fun _ => rfl⟩
  obtain ⟨shown, h', hrun, hseen, hanswers, hleft⟩ := runAll_seamed hgranted hstart
  obtain ⟨-, -, l, hlayers, hexact⟩ := hseen
  have hcontents : h'.base.memory.contents.Perm (leftBehind N.toNat calls 1) := by
    rw [← List.append_nil (leftBehind N.toNat calls 1)]
    exact hleft
  have hsizes := hexact.perm_sizes.trans (hcontents.map List.length)
  have hledgers : Layers.ledgers h'.layers = [l] := by
    rw [hlayers]
    rfl
  have hledger : ∀ l ∈ Layers.ledgers h'.layers, l.Exact h'.base.memory := by
    simpa [hledgers] using hexact
  have htracker : (Layers.ledger? h'.layers).isSome := by
    rw [hlayers]
    rfl
  obtain ⟨freed, layers, base, hrelease, hfreed, -, hempty, -⟩ :=
    Layers.release_spec hledger htracker
  have hcount : freed.length = (leftBehind N.toNat calls 1).length := by
    rw [hfreed.length_eq, ← hcontents.length_eq, Table.addresses, Memory.contents,
      List.length_map, List.length_map]
  refine ⟨shown, h', l, hrun, hanswers, ?_, ?_, hexact, hcontents, hsizes, ?_, ⟨layers, base⟩, ?_,
    hempty⟩
  · rw [hlayers, Nat.zero_add]
    rfl
  · rw [Stack.ledger?, hlayers]
    rfl
  · rw [Ledger.total_eq_sum]
    exact hsizes.sum_nat
  · rw [Stack.release, hrelease, ← hcount]
    rfl

/-- The second of three calls fails and loses its first block; the third is given back. -/
theorem runAll_tracked_second_lost :
    let calls : List Call :=
      [⟨.fixed, ⟨[0x61], by decide⟩, ⟨[0x62, 0x63], by decide⟩, .keep⟩,
        ⟨.buggy, ⟨[0x64], by decide⟩, ⟨[0x65], by decide⟩, .forget⟩,
        ⟨.buggy, ⟨[0x66], by decide⟩, ⟨[], by decide⟩, .drop⟩]
    (∀ c ∈ calls, c.Granted .above) ∧
      ∃ shown h' l, runAll calls ⟨[.track, .inject (.failAt 2)], .system⟩ = .ok (shown, h') ∧
        shown.map (Option.map Shown.bytes) =
          [some [0x61, 0x62, 0x63], none, some [0x66]] ∧
        h'.ledger? = some l ∧ h'.base.memory.contents.Perm [[0x61, 0x62, 0x63, 0], [0x64, 0]] ∧
        l.total = 6 ∧ ∃ h'', h'.release = .ok (some 2, h'') := by
  intro calls
  have hgranted : ∀ c ∈ calls, c.Granted .above := by
    intro c hc
    have hsmall : c.base.length + c.addition.length + 1 < Memory.limit := by
      revert c
      decide
    exact ⟨Placement.grants_above _ (by omega), Placement.grants_above _ hsmall⟩
  obtain ⟨shown, h', l, hrun, hanswers, -, hledger, -, hcontents, -, htotal, h'', hrelease, -⟩ :=
    runAll_tracked 2 hgranted
  exact ⟨hgranted, shown, h', l, hrun, hanswers, hledger, hcontents, htotal, h'', hrelease⟩

end Call

end Subject

end GrowthFault
