import Mathlib.Tactic
import Mathlib.Data.List.GetD

/-!
# Shifting a window of cells

An array of cells stands for the part of an unbounded line of cells that a window of `n` cells
shows. Moving the window by some ticks copies the cells that stay in view to their new indices,
over an array that is otherwise blank (`getD_shiftCells`).
-/

namespace TradingInfrastructure

variable {α : Type*}

/-- Copy the cell `i` of `src` to the index `shift` further on, if that is in the window. -/
def copyCell (n : ℕ) (shift : ℤ) (blank : α) (src : List α) (i : ℕ) (dst : List α) : List α :=
  if (i : ℤ) + shift < 0 ∨ n ≤ ((i : ℤ) + shift).toNat then dst
  else dst.set ((i : ℤ) + shift).toNat (src.getD i blank)

/-- The cells after the first `k` have been copied. -/
def copyCells (n : ℕ) (shift : ℤ) (blank : α) (src dst : List α) : ℕ → List α
  | 0 => dst
  | k + 1 => copyCell n shift blank src k (copyCells n shift blank src dst k)

/-- Copy the first `n` cells of `src` to the indices `shift` further on in `dst`, those that stay
in the window. -/
def shiftCells (n : ℕ) (shift : ℤ) (blank : α) (src dst : List α) : List α :=
  copyCells n shift blank src dst n

@[simp] theorem length_copyCell (n : ℕ) (shift : ℤ) (blank : α) (src : List α) (i : ℕ)
    (dst : List α) : (copyCell n shift blank src i dst).length = dst.length := by
  unfold copyCell
  split <;> simp

@[simp] theorem length_copyCells (n : ℕ) (shift : ℤ) (blank : α) (src dst : List α) (k : ℕ) :
    (copyCells n shift blank src dst k).length = dst.length := by
  induction k with
  | zero => rfl
  | succ k ih => rw [copyCells, length_copyCell, ih]

@[simp] theorem length_shiftCells (n : ℕ) (shift : ℤ) (blank : α) (src dst : List α) :
    (shiftCells n shift blank src dst).length = dst.length :=
  length_copyCells ..

/-- A cell of the window after the first `k` cells have been copied: the cell of `src` that has
come into view there, if it was copied, and what was there before otherwise. -/
theorem getD_copyCells (n : ℕ) (shift : ℤ) (blank : α) (src : List α) {dst : List α} {j : ℕ}
    (hj : j < n) (hdst : j < dst.length) (k : ℕ) :
    (copyCells n shift blank src dst k).getD j blank =
      if 0 ≤ (j : ℤ) - shift ∧ (j : ℤ) - shift < k then src.getD ((j : ℤ) - shift).toNat blank
      else dst.getD j blank := by
  induction k with
  | zero =>
    have : ¬ (0 ≤ (j : ℤ) - shift ∧ (j : ℤ) - shift < (0 : ℕ)) := by omega
    rw [copyCells, if_neg this]
  | succ k ih =>
    rw [copyCells]
    by_cases hk : (k : ℤ) + shift = j
    · -- the cell copied in this step is the one asked for
      have hcopy : ¬ ((k : ℤ) + shift < 0 ∨ n ≤ ((k : ℤ) + shift).toNat) := by omega
      have hj' : ((k : ℤ) + shift).toNat = j := by omega
      have hview : 0 ≤ (j : ℤ) - shift ∧ (j : ℤ) - shift < (k + 1 : ℕ) := by omega
      have hsrc : ((j : ℤ) - shift).toNat = k := by omega
      rw [copyCell, if_neg hcopy, if_pos hview, hj', hsrc]
      rw [List.getD_eq_getElem _ _ (by simpa using hdst)]
      simp
    · have hother : (copyCell n shift blank src k (copyCells n shift blank src dst k)).getD j
        blank =
          (copyCells n shift blank src dst k).getD j blank := by
        unfold copyCell
        split
        · rfl
        · have hne : ((k : ℤ) + shift).toNat ≠ j := by omega
          simp [List.getD_eq_getElem?_getD, hne]
      rw [hother, ih]
      exact if_congr (by omega) rfl rfl

/-- **A cell after the shift**: the cell of `src` that has come into view, or blank. -/
theorem getD_shiftCells (n : ℕ) (shift : ℤ) (blank : α) (src : List α) {dst : List α} {j : ℕ}
    (hj : j < n) (hdst : j < dst.length) :
    (shiftCells n shift blank src dst).getD j blank =
      if 0 ≤ (j : ℤ) - shift ∧ (j : ℤ) - shift < n then src.getD ((j : ℤ) - shift).toNat blank
      else dst.getD j blank :=
  getD_copyCells n shift blank src hj hdst n

end TradingInfrastructure
