import Mathlib.Tactic

/-!
# Drawdowns

The values of a series fall short of the largest value before them, or of zero. The deepest of these
drops (`IsMaxDrawdown`) is found in one pass that keeps the peak and the deepest drop so far
(`isMaxDrawdown_maxDrawdown`). The series of a total is the `cumulative` one of its changes.
-/

namespace TradingInfrastructure

variable {α : Type*}

/-- The sums of the first values of a series. -/
def cumulative [AddMonoid α] (series : List α) : List α := series.inits.tail.map List.sum

theorem cumulative_concat [AddMonoid α] {series : List α} {x : α} :
    cumulative (series ++ [x]) = cumulative series ++ [series.sum + x] := by
  have hne : series.inits ≠ [] := by
    rw [ne_eq, ← List.length_eq_zero_iff, List.length_inits]
    exact Nat.succ_ne_zero _
  rw [cumulative, List.inits_append, List.tail_append_of_ne_nil hne, List.map_append]
  simp [cumulative]

variable [AddCommGroup α] [LinearOrder α]

/-- The largest value of a series that begins at zero. -/
def peak (series : List α) : α := series.foldl max 0

/-- **The deepest drop** of a series below its peak. -/
def IsMaxDrawdown (series : List α) (d : α) : Prop :=
  IsLeast {y | y = 0 ∨ ∃ before x, before ++ [x] <+: series ∧ y = x - peak (before ++ [x])} d

/-- One value: the peak and the deepest drop. -/
def drawdownStep (s : α × α) (x : α) : α × α := (max s.1 x, min s.2 (x - max s.1 x))

/-- The deepest drop in one pass. -/
def maxDrawdown (series : List α) : α := (series.foldl drawdownStep (0, 0)).2

variable {series other : List α} {x : α}

theorem peak_concat : peak (series ++ [x]) = max (peak series) x := by
  rw [peak, List.foldl_append]
  rfl

theorem foldl_drawdownStep_fst : (series.foldl drawdownStep (0, 0)).1 = peak series := by
  induction series using List.reverseRecOn with
  | nil => rfl
  | append_singleton series x ih =>
    rw [List.foldl_append, peak_concat, ← ih]
    rfl

theorem maxDrawdown_concat :
    maxDrawdown (series ++ [x]) = min (maxDrawdown series) (x - peak (series ++ [x])) := by
  rw [maxDrawdown, List.foldl_append, peak_concat, ← foldl_drawdownStep_fst]
  rfl

/-- **The pass finds the deepest drop.** -/
theorem isMaxDrawdown_maxDrawdown (series : List α) :
    IsMaxDrawdown series (maxDrawdown series) := by
  induction series using List.reverseRecOn with
  | nil =>
    refine ⟨.inl rfl, ?_⟩
    rintro y (rfl | ⟨before, x, hprefix, -⟩)
    · exact le_rfl
    · exact absurd (List.prefix_nil.mp hprefix) (by simp)
  | append_singleton series x ih =>
    rw [maxDrawdown_concat]
    constructor
    · rcases min_choice (maxDrawdown series) (x - peak (series ++ [x])) with h | h
      · rw [h]
        refine ih.1.imp_right ?_
        rintro ⟨before, y, hprefix, hy⟩
        exact ⟨before, y, hprefix.trans (List.prefix_append ..), hy⟩
      · exact .inr ⟨series, x, List.prefix_rfl, h⟩
    · rintro y (rfl | ⟨before, z, hprefix, rfl⟩)
      · exact (min_le_left ..).trans (ih.2 (.inl rfl))
      · rcases List.prefix_concat_iff.mp hprefix with heq | hprefix
        · obtain ⟨rfl, hz⟩ := List.append_inj' heq rfl
          cases hz
          exact min_le_right ..
        · exact (min_le_left ..).trans (ih.2 (.inr ⟨before, z, hprefix, rfl⟩))

theorem IsMaxDrawdown.eq {d : α} (h : IsMaxDrawdown series d) : d = maxDrawdown series :=
  h.unique (isMaxDrawdown_maxDrawdown series)

end TradingInfrastructure
