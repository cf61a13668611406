import Mathlib.Tactic

/-!
# Retries

Attempts that work on a state are made one after another: `again` tells from the result of an
attempt whether another one follows, while there are attempts left (`retry`). What comes out is what
the last attempt that is made returns (`retry_eq_last`).
-/

namespace TradingInfrastructure

variable {ρ σ : Type} (again : ρ → Bool) (spent : ρ)

/-- The result of the attempts from some number on, and the state that they leave. -/
def retry (attempt : ℕ → σ → ρ × σ) : ℕ → ℕ → σ → ρ × σ
  | 0, _, s => (spent, s)
  | left + 1, n, s =>
    let (result, s) := attempt n s
    if again result && left != 0 then retry attempt left (n + 1) s else (result, s)

/-- The attempts that are made: their numbers, and the states that they start from. -/
def attemptsMade (attempt : ℕ → σ → ρ × σ) : ℕ → ℕ → σ → List (ℕ × σ)
  | 0, _, _ => []
  | left + 1, n, s =>
    (n, s) ::
      if again (attempt n s).1 && left != 0 then attemptsMade attempt left (n + 1) (attempt n s).2
      else []

variable {again spent} {attempt : ℕ → σ → ρ × σ}

theorem retry_succ (left n : ℕ) (s : σ) :
    retry again spent attempt (left + 1) n s =
      if again (attempt n s).1 && left != 0 then
        retry again spent attempt left (n + 1) (attempt n s).2
      else attempt n s := rfl

theorem attemptsMade_ne_nil (left n : ℕ) (s : σ) :
    attemptsMade again attempt (left + 1) n s ≠ [] :=
  List.cons_ne_nil _ _

/-- **The outcome** is that of the last attempt. -/
theorem retry_eq_last (left n : ℕ) (s : σ) :
    retry again spent attempt (left + 1) n s =
      attempt ((attemptsMade again attempt (left + 1) n s).getLast
          (attemptsMade_ne_nil left n s)).1
        ((attemptsMade again attempt (left + 1) n s).getLast (attemptsMade_ne_nil left n s)).2 := by
  induction left generalizing n s with
  | zero => simp [retry_succ, attemptsMade]
  | succ left ih =>
    rw [retry_succ]
    by_cases hagain : again (attempt n s).1 = true
    · have hmore : (again (attempt n s).1 && left + 1 != 0) = true := by simp [hagain]
      rw [if_pos hmore, ih]
      simp only [attemptsMade.eq_def again attempt (left + 1 + 1) n s, hmore, if_true]
      rw [List.getLast_cons]
    · simp [attemptsMade, hagain]

/-- Only the last attempt is not followed by another one. -/
theorem again_or_last {left n : ℕ} {s : σ} {x : ℕ × σ}
    (h : x ∈ attemptsMade again attempt (left + 1) n s) :
    again (attempt x.1 x.2).1 = true ∨
      x = (attemptsMade again attempt (left + 1) n s).getLast (attemptsMade_ne_nil left n s) := by
  induction left generalizing n s with
  | zero =>
    simp only [attemptsMade, bne_self_eq_false, Bool.and_false, Bool.false_eq_true, if_false,
      List.mem_singleton] at h
    exact Or.inr (by simp [attemptsMade, h])
  | succ left ih =>
    by_cases hagain : again (attempt n s).1 = true
    · have hmore : (again (attempt n s).1 && left + 1 != 0) = true := by simp [hagain]
      simp only [attemptsMade.eq_def again attempt (left + 1 + 1) n s, hmore, if_true] at h ⊢
      rcases List.mem_cons.mp h with rfl | h
      · exact Or.inl hagain
      · rw [List.getLast_cons]
        exact ih h
    · simp only [attemptsMade, hagain, Bool.false_and, Bool.false_eq_true, if_false,
        List.mem_singleton] at h
      exact Or.inr (by simp [attemptsMade, hagain, h])

/-- What an attempt that is followed by another one keeps holds where each attempt starts. -/
theorem forall_attemptsMade {I : σ → Prop}
    (hattempt : ∀ n s, I s → again (attempt n s).1 = true → I (attempt n s).2) :
    ∀ left n s, I s → ∀ x ∈ attemptsMade again attempt left n s, I x.2 := by
  intro left
  induction left with
  | zero => exact fun _ _ _ x hx => absurd hx List.not_mem_nil
  | succ left ih =>
    intro n s h x hx
    rw [attemptsMade] at hx
    rcases List.mem_cons.mp hx with rfl | hx
    · exact h
    · split_ifs at hx with hmore
      · exact ih (n + 1) _ (hattempt n s h (by simp_all)) x hx
      · exact absurd hx List.not_mem_nil

end TradingInfrastructure
