import GrowthFault.Interposer.Interleaving
import Mathlib.Data.List.Nodup

/-!
# Concurrent first calls

Any number of threads call one fresh interposer, and their steps come in any order.  A thread
that has won the exchange is alone between the exchange and the store of the phase, so the
fields it stores one by one are never seen half written: a thread loads them only once the
phase is ready.  The count is one step, so the ordinals have no gap and no repeat.

The invariant says for every thread what its next step relies on; `State.Sound.step` keeps it
over one step of one thread, and the statements about whole schedules follow by induction.
-/

namespace GrowthFault.Interleaving

/-- A change of phase that one step may make. -/
inductive PhaseMove : Phase → Phase → Prop where
  | stay (p : Phase) : PhaseMove p p
  | begin : PhaseMove .unresolved .resolving
  | finish : PhaseMove .resolving .ready

/-- The three stored fields are those of a resolution. -/
structure Stores (i : Interposer) (r : Resolution) : Prop where
  target : i.target = r.target
  ordinal : i.ordinal = r.policy.ordinal
  trace : i.trace = r.policy.trace

/-- Between a won exchange and the store of the ready phase. -/
def Point.publishing : Point → Bool
  | .lookup won => won
  | .storeTarget _ | .storeOrdinal _ | .storeTrace _ | .storePhase _ => true
  | _ => false

/-- What the next step of a thread relies on. -/
def Point.Holds (found : Resolution) (i : Interposer) : Point → Prop
  | .idle | .loadPhase _ | .exchange => True
  | .loadTarget => i.phase = .ready
  | .loadOrdinal target => i.phase = .ready ∧ target = found.target
  | .loadTrace target ordinal =>
    i.phase = .ready ∧ target = found.target ∧ ordinal = found.policy.ordinal
  | .lookup won => won = true → i.phase = .resolving
  | .storeTarget r => i.phase = .resolving ∧ r = found
  | .storeOrdinal r => i.phase = .resolving ∧ r = found ∧ i.target = found.target
  | .storeTrace r =>
    i.phase = .resolving ∧ r = found ∧ i.target = found.target ∧
      i.ordinal = found.policy.ordinal
  | .storePhase r => i.phase = .resolving ∧ r = found ∧ Stores i found
  | .count r => r = found

theorem Point.Holds.resolving {found : Resolution} {i : Interposer} {p : Point}
    (hp : p.Holds found i) (hpublishing : p.publishing = true) :
    i.phase = .resolving := by
  cases p <;> simp_all [Point.Holds, Point.publishing]

/-- A point keeps what it relies on when the phase is not taken back from ready and, for a
publishing thread, nothing but the counter has changed. -/
theorem Point.Holds.frame {found : Resolution} {i j : Interposer} {p : Point}
    (hp : p.Holds found i)
    (hready : i.phase = .ready → j.phase = .ready)
    (hsame : p.publishing = true → j = { i with counter := j.counter }) :
    p.Holds found j := by
  cases p with
  | idle | loadPhase _ | exchange => trivial
  | loadTarget => exact hready hp
  | loadOrdinal target => exact ⟨hready hp.1, hp.2⟩
  | loadTrace target ordinal => exact ⟨hready hp.1, hp.2⟩
  | lookup won =>
      intro hwon
      rw [hsame hwon]
      exact hp hwon
  | storeTarget r | storeOrdinal r | storeTrace r =>
      rw [hsame rfl]
      exact hp
  | storePhase r =>
      rw [hsame rfl]
      exact ⟨hp.1, hp.2.1, hp.2.2.target, hp.2.2.ordinal, hp.2.2.trace⟩
  | count r => exact hp

namespace State

@[simp] theorem point_goto_self (s : State) (thread : Nat) (p : Point) :
    (s.goto thread p).point thread = p := by
  simp [goto]

theorem point_goto_of_ne (s : State) {thread other : Nat} (p : Point)
    (hne : other ≠ thread) : (s.goto thread p).point other = s.point other := by
  simp [goto, hne]

/-! ## Threads and the fields they share -/

/-- Every thread finds what it relies on, and at most one is publishing. -/
structure Settled (found : Resolution) (s : State) : Prop where
  holds : ∀ thread, (s.point thread).Holds found s.shared
  alone : ∀ thread other, (s.point thread).publishing = true →
    (s.point other).publishing = true → thread = other

/-- One thread moves and the shared state changes: the moving thread has to find what it relies
on next, and the others what they relied on before. -/
theorem Settled.move {found : Resolution} {s t : State} {thread : Nat} {p : Point}
    (hs : s.Settled found) (hself : t.point thread = p)
    (hothers : ∀ other, other ≠ thread → t.point other = s.point other)
    (hp : p.Holds found t.shared)
    (hready : s.shared.phase = .ready → t.shared.phase = .ready)
    (hsame : ∀ other, other ≠ thread → (s.point other).publishing = true →
      p.publishing = false ∧ t.shared = { s.shared with counter := t.shared.counter }) :
    t.Settled found := by
  have hpublishing : ∀ other, other ≠ thread → (t.point other).publishing = true →
      p.publishing = false := by
    intro other hne hother
    rw [hothers other hne] at hother
    exact (hsame other hne hother).1
  constructor
  · intro other
    by_cases hne : other = thread
    · rw [hne, hself]
      exact hp
    · rw [hothers other hne]
      exact (hs.holds other).frame hready fun hother => (hsame other hne hother).2
  · intro a b ha hb
    by_cases hane : a = thread <;> by_cases hbne : b = thread
    · rw [hane, hbne]
    · rw [hane, hself, hpublishing b hbne hb] at ha
      contradiction
    · rw [hbne, hself, hpublishing a hane ha] at hb
      contradiction
    · rw [hothers a hane] at ha
      rw [hothers b hbne] at hb
      exact hs.alone a b ha hb

theorem Settled.goto {found : Resolution} {s : State} {thread : Nat} {p : Point}
    (hs : s.Settled found) (hp : p.Holds found s.shared)
    (hpublishing : p.publishing = true → (s.point thread).publishing = true) :
    (s.goto thread p).Settled found := by
  refine hs.move (s.point_goto_self thread p) (fun other hne => s.point_goto_of_ne p hne)
    hp id ?_
  intro other hne hother
  refine ⟨?_, rfl⟩
  rw [Bool.eq_false_iff]
  intro hpp
  exact hne (hs.alone other thread hother (hpublishing hpp))

/-- The publishing thread may change any field: no other thread is publishing. -/
theorem Settled.store {found : Resolution} {s : State} {thread : Nat} {p : Point}
    {i : Interposer} (hs : s.Settled found)
    (hthread : (s.point thread).publishing = true) (hp : p.Holds found i) :
    ({ s.goto thread p with shared := i } : State).Settled found := by
  refine hs.move (s.point_goto_self thread p) (fun other hne => s.point_goto_of_ne p hne)
    hp ?_ ?_
  · intro hready
    rw [(hs.holds thread).resolving hthread] at hready
    contradiction
  · intro other hne hother
    exact absurd (hs.alone other thread hother hthread) hne

theorem settled_fresh (found : Resolution) : ({} : State).Settled found := by
  constructor
  · intro thread
    trivial
  · intro thread other hthread
    simp [Point.publishing] at hthread

/-! ## One step -/

/-- Everything that is kept: the threads and their fields, one winner from the exchange on,
the published fields, what was loaded, and the counted calls. -/
structure Sound (found : Resolution) (s : State) : Prop extends s.Settled found where
  winners : s.winners.length = if s.shared.phase = .unresolved then 0 else 1
  published : s.shared.phase = .ready → Stores s.shared found
  loaded : ∀ r ∈ s.loaded, r = found
  ordinals : s.counted.map Counted.ordinal = (List.range' 1 s.shared.calls).reverse
  routes : ∀ c ∈ s.counted, c.route = found.route c.ordinal

theorem sound_fresh (found : Resolution) : ({} : State).Sound found where
  toSettled := settled_fresh found
  winners := rfl
  published := by simp
  loaded := by simp
  ordinals := rfl
  routes := by simp

theorem Sound.goto {found : Resolution} {s : State} {thread : Nat} {p : Point}
    (hs : s.Sound found) (hp : p.Holds found s.shared)
    (hpublishing : p.publishing = true → (s.point thread).publishing = true) :
    (s.goto thread p).Sound found where
  toSettled := hs.toSettled.goto hp hpublishing
  winners := hs.winners
  published := hs.published
  loaded := hs.loaded
  ordinals := hs.ordinals
  routes := hs.routes

/-- The publishing thread stores, still resolving or at last ready. -/
theorem Sound.store {found : Resolution} {s : State} {thread : Nat} {p : Point}
    {i : Interposer} (hs : s.Sound found)
    (hthread : (s.point thread).publishing = true) (hp : p.Holds found i)
    (hphase : i.phase ≠ .unresolved) (hpublished : i.phase = .ready → Stores i found)
    (hcalls : i.calls = s.shared.calls) :
    ({ s.goto thread p with shared := i } : State).Sound found where
  toSettled := hs.toSettled.store hthread hp
  winners := by
    have hresolving := (hs.holds thread).resolving hthread
    have hwinners := hs.winners
    rw [hresolving] at hwinners
    rw [if_neg hphase]
    exact hwinners
  published := hpublished
  loaded := hs.loaded
  ordinals := by
    rw [show ({ s.goto thread p with shared := i } : State).shared.calls = s.shared.calls
      from hcalls]
    exact hs.ordinals
  routes := hs.routes

/-- A won exchange: nobody was publishing, since the phase was unresolved. -/
theorem Sound.exchange {found : Resolution} {s : State} {thread : Nat}
    (hs : s.Sound found) (hphase : s.shared.phase = .unresolved) :
    ({ s.goto thread (.lookup true) with
        shared := { s.shared with phase := .resolving }
        winners := thread :: s.winners } : State).Sound found where
  toSettled := by
    refine hs.toSettled.move (s.point_goto_self thread _)
      (fun other hne => s.point_goto_of_ne _ hne) (fun _ => rfl) ?_ ?_
    · intro hready
      rw [hphase] at hready
      contradiction
    · intro other hne hother
      have hresolving := (hs.holds other).resolving hother
      rw [hphase] at hresolving
      contradiction
  winners := by
    have hwinners := hs.winners
    rw [if_pos hphase] at hwinners
    simp [hwinners]
  published := by simp
  loaded := hs.loaded
  ordinals := hs.ordinals
  routes := hs.routes

/-- A counted call takes the next ordinal and the route it has under what was found. -/
theorem Sound.count {found : Resolution} {s : State} {thread : Nat}
    (hs : s.Sound found) :
    ({ s.goto thread .idle with
        shared := { s.shared with counter := s.shared.counter.next.2 }
        counted := ⟨thread, s.shared.counter.next.1,
          found.route s.shared.counter.next.1⟩ :: s.counted } : State).Sound found where
  toSettled := by
    refine hs.toSettled.move (s.point_goto_self thread _)
      (fun other hne => s.point_goto_of_ne _ hne) trivial id ?_
    intro other hne hother
    exact ⟨rfl, rfl⟩
  winners := hs.winners
  published := fun hready =>
    ⟨(hs.published hready).target, (hs.published hready).ordinal, (hs.published hready).trace⟩
  loaded := hs.loaded
  ordinals := by
    have hordinals := hs.ordinals
    simp only [List.map_cons, hordinals]
    simp [Interposer.calls, Counter.next, List.range'_concat, Nat.add_comm]
  routes := by
    intro c hc
    rcases List.mem_cons.1 hc with rfl | hc
    · rfl
    · exact hs.routes c hc

theorem Sound.step {found : Resolution} {s : State} (hs : s.Sound found) (thread : Nat) :
    (s.step found thread).Sound found := by
  have hholds := hs.holds thread
  unfold State.step
  cases hpoint : s.point thread with
  | idle => exact hs.goto trivial (by simp [Point.publishing])
  | loadPhase lost =>
      simp only
      split
      next hready => exact hs.goto hready (by simp [Point.publishing])
      next hnot =>
        cases lost with
        | false => exact hs.goto trivial (by simp [Point.publishing])
        | true => exact hs.goto (by simp [Point.Holds]) (by simp [Point.publishing])
  | loadTarget =>
      rw [hpoint] at hholds
      exact hs.goto ⟨hholds, (hs.published hholds).target⟩ (by simp [Point.publishing])
  | loadOrdinal target =>
      rw [hpoint] at hholds
      exact hs.goto ⟨hholds.1, hholds.2, (hs.published hholds.1).ordinal⟩
        (by simp [Point.publishing])
  | loadTrace target ordinal =>
      rw [hpoint] at hholds
      obtain ⟨hready, htarget, hordinal⟩ := hholds
      have hfound : (⟨target, ⟨ordinal, s.shared.trace⟩⟩ : Resolution) = found := by
        rw [htarget, hordinal, (hs.published hready).trace]
      have hgoto : (s.goto thread (.count found)).Sound found :=
        hs.goto rfl (by simp [Point.publishing])
      simp only [hfound]
      exact { hgoto with
        loaded := fun r hr => (List.mem_cons.1 hr).elim id (hs.loaded r) }
  | exchange =>
      simp only
      split
      next hphase => exact hs.exchange hphase
      next hnot => exact hs.goto trivial (by simp [Point.publishing])
  | lookup won =>
      rw [hpoint] at hholds
      cases won with
      | false => exact hs.goto rfl (by simp [Point.publishing])
      | true => exact hs.goto ⟨hholds rfl, rfl⟩ (by simp [hpoint, Point.publishing])
  | storeTarget r =>
      rw [hpoint] at hholds
      obtain ⟨hphase, rfl⟩ := hholds
      exact hs.store (by simp [hpoint, Point.publishing]) ⟨hphase, rfl, rfl⟩
        (by simp [hphase]) (by simp [hphase]) rfl
  | storeOrdinal r =>
      rw [hpoint] at hholds
      obtain ⟨hphase, rfl, htarget⟩ := hholds
      exact hs.store (by simp [hpoint, Point.publishing]) ⟨hphase, rfl, htarget, rfl⟩
        (by simp [hphase]) (by simp [hphase]) rfl
  | storeTrace r =>
      rw [hpoint] at hholds
      obtain ⟨hphase, rfl, htarget, hordinal⟩ := hholds
      exact hs.store (by simp [hpoint, Point.publishing])
        ⟨hphase, rfl, htarget, hordinal, rfl⟩ (by simp [hphase]) (by simp [hphase]) rfl
  | storePhase r =>
      rw [hpoint] at hholds
      obtain ⟨hphase, rfl, hstores⟩ := hholds
      exact hs.store (by simp [hpoint, Point.publishing]) rfl (by simp)
        (fun _ => ⟨hstores.target, hstores.ordinal, hstores.trace⟩) rfl
  | count r =>
      rw [hpoint] at hholds
      obtain rfl := hholds
      exact hs.count

theorem Sound.run {found : Resolution} {s : State} (hs : s.Sound found)
    (schedule : List Nat) : (s.run found schedule).Sound found := by
  induction schedule generalizing s with
  | nil => exact hs
  | cons thread schedule ih => exact ih (hs.step thread)

theorem Settled.phaseMove_step {found : Resolution} {s : State}
    (hs : s.Settled found) (thread : Nat) :
    PhaseMove s.shared.phase (s.step found thread).shared.phase := by
  have hholds := hs.holds thread
  unfold State.step
  cases hpoint : s.point thread with
  | idle | loadTarget | loadOrdinal _ | loadTrace _ _ | lookup _ | storeTarget _
  | storeOrdinal _ | storeTrace _ | count _ => exact .stay _
  | loadPhase lost =>
      simp only
      split <;> exact .stay _
  | exchange =>
      simp only
      split
      next hphase =>
        simp only [hphase]
        exact .begin
      next hnot => exact .stay _
  | storePhase r =>
      rw [hpoint] at hholds
      simp only [hholds.1]
      exact .finish

/-! ## Failed calls -/

theorem fails_route (r : Resolution) (ordinal : Nat) :
    (r.route ordinal).fails =
      (decide (1 ≤ r.policy.ordinal.toNat) && (ordinal == r.policy.ordinal.toNat)) := by
  have hzero : r.policy.ordinal ≠ 0 ↔ 1 ≤ r.policy.ordinal.toNat := by
    rw [Nat.one_le_iff_ne_zero, ne_eq, ne_eq, ← UInt64.toNat_inj]
    rfl
  rw [Resolution.route_eq]
  split
  next hfail =>
      obtain ⟨harmed, rfl⟩ := hfail
      simp [Route.fails, hzero.1 harmed]
  next hforward =>
      rw [hzero] at hforward
      simp only [Route.fails]
      grind

theorem route_eq_forward {r : Resolution} {ordinal : Nat}
    (hroute : (r.route ordinal).fails = false) :
    r.route ordinal = .forward ordinal r.target := by
  rw [Resolution.route_eq] at hroute ⊢
  split at hroute
  next hfail => simp [Route.fails] at hroute
  next hforward => rw [if_neg hforward]

/-- The failed calls, by their ordinals: the configured one as soon as it has been reached. -/
theorem Sound.failed_ordinals {found : Resolution} {s : State} (hs : s.Sound found) :
    (s.counted.filter fun c => c.route.fails).map Counted.ordinal =
      if 1 ≤ found.policy.ordinal.toNat ∧ found.policy.ordinal.toNat ≤ s.shared.calls
      then [found.policy.ordinal.toNat] else [] := by
  have hfilter : (s.counted.filter fun c => c.route.fails) =
      s.counted.filter fun c => (found.route c.ordinal).fails := by
    apply List.filter_congr
    intro c hc
    rw [hs.routes c hc]
  have hmap : (s.counted.filter fun c => c.route.fails).map Counted.ordinal =
      (s.counted.map Counted.ordinal).filter fun n => (found.route n).fails := by
    rw [hfilter, List.filter_map]
    rfl
  rw [hmap, hs.ordinals]
  simp only [fails_route]
  by_cases harmed : 1 ≤ found.policy.ordinal.toNat
  · simp only [harmed, decide_true, Bool.true_and, true_and, List.filter_reverse,
      List.filter_beq, (List.nodup_range' 1).count, List.mem_range'_1]
    split <;> split <;> first | rfl | omega
  · simp [harmed]

/-! ## Calls begun and calls counted -/

/-- The calls of a thread that were counted, and the one under way. -/
def callsOf (s : State) (thread : Nat) : Nat :=
  s.counted.countP (fun c => c.thread = thread) +
    if s.point thread = .idle then 0 else 1

/-- The calls that a thread begins under a schedule: the steps it takes while idle. -/
def begun (found : Resolution) : State → List Nat → Nat → Nat
  | _, [], _ => 0
  | s, next :: schedule, thread =>
      (if next = thread ∧ s.point next = .idle then 1 else 0) +
        begun found (s.step found next) schedule thread

theorem callsOf_step_of_ne (found : Resolution) (s : State) {thread other : Nat}
    (hne : other ≠ thread) :
    (s.step found thread).callsOf other = s.callsOf other := by
  have hthread : ¬ thread = other := fun h => hne h.symm
  unfold State.step
  cases s.point thread with
  | loadPhase _ | exchange =>
      simp only
      split <;> simp [callsOf, goto, hne]
  | _ => simp [callsOf, goto, hne, hthread]

theorem callsOf_step_self (found : Resolution) (s : State) (thread : Nat) :
    (s.step found thread).callsOf thread =
      s.callsOf thread + if s.point thread = .idle then 1 else 0 := by
  unfold State.step
  cases hpoint : s.point thread with
  | loadPhase lost =>
      simp only
      split
      · simp [callsOf, goto, hpoint]
      · cases lost <;> simp [callsOf, goto, hpoint]
  | exchange =>
      simp only
      split <;> simp [callsOf, goto, hpoint]
  | lookup won => cases won <;> simp [callsOf, goto, hpoint]
  | _ => simp [callsOf, goto, hpoint]

theorem callsOf_run (found : Resolution) (s : State) (schedule : List Nat) (thread : Nat) :
    (s.run found schedule).callsOf thread =
      s.callsOf thread + begun found s schedule thread := by
  induction schedule generalizing s with
  | nil => rfl
  | cons next schedule ih =>
      have hrun : s.run found (next :: schedule) = (s.step found next).run found schedule := rfl
      rw [hrun, ih, begun]
      by_cases hnext : next = thread
      · subst hnext
        rw [callsOf_step_self]
        simp only [true_and, Nat.add_assoc]
      · rw [callsOf_step_of_ne found s (Ne.symm hnext)]
        simp [hnext]

theorem Quiet.begun_eq {found : Resolution} {schedule : List Nat}
    (hquiet : (State.run found {} schedule).Quiet) (thread : Nat) :
    begun found {} schedule thread =
      (State.run found {} schedule).counted.countP fun c => c.thread = thread := by
  have hrun := callsOf_run found {} schedule thread
  have hidle := hquiet thread
  simp only [callsOf, hidle, if_true] at hrun
  simpa using hrun.symm

/-! ## Whole schedules -/

/-- Concurrent first calls, over every schedule of any number of threads: the exchange is won at
most once and the phase only moves on; what is published, and so what is loaded, is what the
lookups find; the counted calls have the ordinals from one on; and once no call is under way,
every call that was begun has been counted, the configured one failed and the others forwarded
to the target found. -/
theorem run_publishes_once_and_fails_once (found : Resolution) (schedule : List Nat) :
    let s := State.run found {} schedule
    s.winners.length ≤ 1 ∧
      (∀ thread, PhaseMove s.shared.phase (s.step found thread).shared.phase) ∧
      (s.shared.phase = .ready → Stores s.shared found) ∧
      (∀ r ∈ s.loaded, r = found) ∧
      (s.counted.map Counted.ordinal).Nodup ∧
      (∀ n, n ∈ s.counted.map Counted.ordinal ↔ 1 ≤ n ∧ n ≤ s.shared.calls) ∧
      (s.Quiet →
        (∀ thread, begun found {} schedule thread =
          s.counted.countP fun c => c.thread = thread) ∧
        s.counted.length = s.shared.calls ∧
        (s.counted.filter fun c => c.route.fails).map Counted.ordinal =
          (if 1 ≤ found.policy.ordinal.toNat ∧ found.policy.ordinal.toNat ≤ s.shared.calls
            then [found.policy.ordinal.toNat] else []) ∧
        ∀ c ∈ s.counted, c.route.fails = false → c.route = .forward c.ordinal found.target) := by
  intro s
  have hs : s.Sound found := (sound_fresh found).run schedule
  have hlength : s.counted.length = s.shared.calls := by
    simpa using congrArg List.length hs.ordinals
  refine ⟨?_, hs.toSettled.phaseMove_step, hs.published, hs.loaded, ?_, ?_, ?_⟩
  · rw [hs.winners]
    split <;> omega
  · rw [hs.ordinals, List.nodup_reverse]
    exact List.nodup_range' 1
  · intro n
    rw [hs.ordinals, List.mem_reverse, List.mem_range'_1]
    omega
  · intro hquiet
    refine ⟨hquiet.begun_eq, hlength, hs.failed_ordinals, ?_⟩
    intro c hc hforward
    rw [hs.routes c hc] at hforward ⊢
    exact route_eq_forward hforward

end State

end GrowthFault.Interleaving
