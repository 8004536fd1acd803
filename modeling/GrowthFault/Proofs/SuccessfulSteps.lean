/-!
# Steps that succeed

A computation that may fail has come to a result only if each of its steps has.  So what is known
of a result is taken apart step by step, and no step is unfolded for that.  Two computations that
fail for reasons of their own are compared by their results alone, and that step by step, too.
-/

namespace GrowthFault

variable {ε ε' ε'' α β : Type}

theorem bind_eq_ok {x : Except ε α} {next : α → Except ε β} {b : β} :
    x >>= next = .ok b ↔ ∃ a, x = .ok a ∧ next a = .ok b := by
  cases x <;> simp [bind, Except.bind]

theorem map_eq_ok {x : Except ε α} {f : α → β} {b : β} :
    x.map f = .ok b ↔ ∃ a, x = .ok a ∧ f a = b := by
  cases x <;> simp [Except.map]

theorem map_map {γ : Type} (x : Except ε α) (f : α → β) (g : β → γ) :
    (x.map f).map g = x.map fun a => g (f a) := by
  cases x <;> rfl

theorem map_eq_bind (x : Except ε α) (f : α → β) : x.map f = x >>= fun a => .ok (f a) := by
  cases x <;> rfl

theorem map_bind {γ : Type} (x : Except ε α) (next : α → Except ε β) (f : β → γ) :
    (x >>= next).map f = x >>= fun a => (next a).map f := by
  cases x <;> rfl

theorem exists_eq_ok {x : Except ε α} (h : x.toOption.isSome = true) : ∃ a, x = .ok a := by
  cases x with
  | ok a => exact ⟨a, rfl⟩
  | error e => cases h

theorem exists_eq_error {x : Except ε α} (h : x.toOption.isNone = true) : ∃ e, x = .error e := by
  cases x with
  | ok a => cases h
  | error e => exact ⟨e, rfl⟩

/-- Both computations come to the same result, or both fail, for whatever reasons. -/
def SameResult (x : Except ε α) (y : Except ε' α) : Prop :=
  ∀ a, x = .ok a ↔ y = .ok a

namespace SameResult

variable {x : Except ε α} {y : Except ε' α} {z : Except ε'' α}

theorem refl (x : Except ε α) : SameResult x x :=
  fun _ => Iff.rfl

theorem symm (h : SameResult x y) : SameResult y x :=
  fun a => (h a).symm

theorem trans (hxy : SameResult x y) (hyz : SameResult y z) : SameResult x z :=
  fun a => (hxy a).trans (hyz a)

theorem ok (a : α) : SameResult (.ok a : Except ε α) (.ok a : Except ε' α) :=
  fun b => by rw [Except.ok.injEq, Except.ok.injEq]

theorem error (e : ε) (e' : ε') : SameResult (.error e : Except ε α) (.error e') :=
  fun _ => ⟨nofun, nofun⟩

theorem map (f : α → β) (h : SameResult x y) : SameResult (x.map f) (y.map f) := by
  intro b
  rw [map_eq_ok, map_eq_ok]
  exact exists_congr fun a => and_congr_left' (h a)

theorem bind {f : α → Except ε β} {g : α → Except ε' β} (h : SameResult x y)
    (hnext : ∀ a, y = .ok a → SameResult (f a) (g a)) : SameResult (x >>= f) (y >>= g) := by
  intro b
  rw [bind_eq_ok, bind_eq_ok]
  constructor
  · rintro ⟨a, hx, hb⟩
    have hy := (h a).1 hx
    exact ⟨a, hy, (hnext a hy b).1 hb⟩
  · rintro ⟨a, hy, hb⟩
    exact ⟨a, (h a).2 hy, (hnext a hy b).2 hb⟩

section More

variable {α' β' : Type} {x : Except ε α'} {f : α' → Except ε β'} {more : α → α'}

/-- One computation tells more in a step than the other one, the same for the same result. -/
theorem bind_map {g : α → Except ε' β'} (h : SameResult x (y.map more))
    (hnext : ∀ a, y = .ok a → SameResult (f (more a)) (g a)) :
    SameResult (x >>= f) (y >>= g) := by
  cases y with
  | ok a =>
      have hx : x = .ok (more a) := (h (more a)).2 rfl
      rw [hx]
      exact hnext a rfl
  | error e' =>
      cases x with
      | ok a => cases (h a).1 rfl
      | error e => exact .error e e'

/-- One computation tells more in every step than the other one. -/
theorem step {g : α → Except ε' β} {more' : β → β'} (h : SameResult x (y.map more))
    (hnext : ∀ a, y = .ok a → SameResult (f (more a)) ((g a).map more')) :
    SameResult (x >>= f) ((y >>= g).map more') := by
  rw [map_bind]
  exact h.bind_map hnext

end More

end SameResult

end GrowthFault
