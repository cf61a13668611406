import Mathlib.Tactic

/-!
# Computations that may fail

A computation in `Except ε` `Succeeds` when it has a value. This is built up along the binds of a
computation: a part is asked for what the parts before it have left.
-/

namespace TradingInfrastructure

universe u v

/-- The computation has a value. -/
def Succeeds {ε : Type u} {α : Type v} (x : Except ε α) : Prop := ∃ a, x = .ok a

section

variable {ε : Type u} {α β : Type v} {x : Except ε α} {f : α → Except ε β}

theorem bind_eq_ok {b : β} : x >>= f = .ok b ↔ ∃ a, x = .ok a ∧ f a = .ok b := by
  cases x with
  | error e => exact iff_of_false (fun h => by cases h) fun ⟨a, h, _⟩ => by cases h
  | ok a => exact ⟨fun h => ⟨a, rfl, h⟩, fun ⟨a', h, hf⟩ => by cases h; exact hf⟩

@[simp] theorem ok_bind (a : α) : (.ok a : Except ε α) >>= f = f a := rfl

@[simp] theorem error_bind (e : ε) : (.error e : Except ε α) >>= f = .error e := rfl

/-! ## Success -/

@[simp] theorem succeeds_ok (a : α) : Succeeds (.ok a : Except ε α) := ⟨a, rfl⟩

@[simp] theorem succeeds_pure (a : α) : Succeeds (pure a : Except ε α) := ⟨a, rfl⟩

@[simp] theorem not_succeeds_error (e : ε) : ¬ Succeeds (.error e : Except ε α) := by
  rintro ⟨a, h⟩
  cases h

theorem succeeds_bind : Succeeds (x >>= f) ↔ ∃ a, x = .ok a ∧ Succeeds (f a) := by
  constructor
  · rintro ⟨b, h⟩
    obtain ⟨a, ha, hb⟩ := bind_eq_ok.mp h
    exact ⟨a, ha, b, hb⟩
  · rintro ⟨a, rfl, h⟩
    exact h

theorem exists_eq_ok : (∃ a, x = .ok a) ↔ Succeeds x := Iff.rfl

/-- The rest needs the same of whatever it starts from. -/
theorem succeeds_bind_iff {P : Prop} (h : ∀ a, x = .ok a → (Succeeds (f a) ↔ P)) :
    Succeeds (x >>= f) ↔ Succeeds x ∧ P := by
  rw [succeeds_bind]
  constructor
  · rintro ⟨a, hx, hf⟩
    exact ⟨⟨a, hx⟩, (h a hx).mp hf⟩
  · rintro ⟨⟨a, hx⟩, hp⟩
    exact ⟨a, hx, (h a hx).mpr hp⟩

/-- The rest always succeeds. -/
theorem succeeds_bind_of_total (h : ∀ a, Succeeds (f a)) : Succeeds (x >>= f) ↔ Succeeds x :=
  (succeeds_bind_iff fun a _ => iff_of_true (h a) trivial).trans (and_iff_left trivial)

@[simp] theorem succeeds_map {F : α → β} : Succeeds (F <$> x) ↔ Succeeds x := by
  cases x with
  | error e => exact iff_of_false (not_succeeds_error e) (not_succeeds_error e)
  | ok a => exact iff_of_true (succeeds_ok _) (succeeds_ok _)

end

end TradingInfrastructure
