import Mathlib.Tactic

/-!
# Allocations within capacities

A quantity is spread over places, to each no more than its capacity. When no place that has a part
of it costs more than one with room left, nothing is gained by moving any of it, and no allocation
of the same total is cheaper (`NoExchange.cost_le`). To fill the cheapest place that is left keeps
this (`NoExchange.update`).
-/

namespace TradingInfrastructure

variable {ι 𝕜 : Type*} [Field 𝕜] [LinearOrder 𝕜] {capacity cost x y : ι → 𝕜} {k : ι}

/-- Each place has a part within its capacity. -/
def IsAllocation (capacity x : ι → 𝕜) : Prop := ∀ i, 0 ≤ x i ∧ x i ≤ capacity i

/-- No part can move to a cheaper place. -/
def NoExchange (capacity cost x : ι → 𝕜) : Prop :=
  ∀ i j, 0 < x i → x j < capacity j → cost i ≤ cost j

/-- Nothing is allocated. -/
theorem noExchange_zero : NoExchange capacity cost fun _ => 0 :=
  fun _ _ hi => absurd hi (lt_irrefl _)

section Update

variable [DecidableEq ι]

/-- **To fill the cheapest**: a place that is empty and no more expensive than the others with room
left can be given any part. -/
theorem NoExchange.update (h : NoExchange capacity cost x) (hempty : x k = 0)
    (hroom : 0 < capacity k) (hcheapest : ∀ j, x j < capacity j → cost k ≤ cost j) (q : 𝕜) :
    NoExchange capacity cost (Function.update x k q) := by
  intro i j hi hj
  -- the others hold what they held, and the place itself had room
  have hroomOf : x j < capacity j := by
    by_cases hjk : j = k
    · rwa [hjk, hempty]
    · simpa [hjk] using hj
  by_cases hik : i = k
  · rw [hik]
    exact hcheapest j hroomOf
  · exact h i j (by simpa [hik] using hi) hroomOf

end Update

variable [Fintype ι]

/-- A cost that separates the places with a part from those with room. -/
theorem NoExchange.exists_threshold (h : NoExchange capacity cost x) (hx : IsAllocation capacity x)
    (hroom : ∃ j, x j < capacity j) :
    ∃ θ, ∀ i, (cost i < θ → x i = capacity i) ∧ (θ < cost i → x i = 0) := by
  obtain ⟨j, hj, hleast⟩ := Finset.exists_min_image
    (Finset.univ.filter fun j => x j < capacity j) cost (by simpa [Finset.Nonempty] using hroom)
  replace hj : x j < capacity j := by simpa using hj
  refine ⟨cost j, fun i => ⟨fun hi => ?_, fun hi => ?_⟩⟩
  · by_contra hne
    have := hleast i (by simpa using lt_of_le_of_ne (hx i).2 hne)
    exact absurd hi (not_lt.mpr this)
  · by_contra hne
    have := h i j (lt_of_le_of_ne (hx i).1 (Ne.symm hne)) hj
    exact absurd hi (not_lt.mpr this)

variable [IsStrictOrderedRing 𝕜]

/-- A full allocation is the only one of its total. -/
theorem IsAllocation.eq_of_full (hy : IsAllocation capacity y)
    (hsum : ∑ i, y i = ∑ i, capacity i) : y = capacity := by
  have hle : ∀ i ∈ Finset.univ, y i ≤ capacity i := fun i _ => (hy i).2
  funext i
  exact (Finset.sum_eq_sum_iff_of_le hle).mp hsum i (Finset.mem_univ i)

/-- **Optimality**: without an exchange no allocation of the same total is cheaper. -/
theorem NoExchange.cost_le (h : NoExchange capacity cost x) (hx : IsAllocation capacity x)
    (hy : IsAllocation capacity y) (hsum : ∑ i, y i = ∑ i, x i) :
    ∑ i, x i * cost i ≤ ∑ i, y i * cost i := by
  by_cases hroom : ∃ j, x j < capacity j
  · obtain ⟨θ, hθ⟩ := h.exists_threshold hx hroom
    -- what moves in costs at least the threshold, what moves out at most that
    have hmove : ∀ i, x i * cost i + (y i - x i) * θ ≤ y i * cost i := by
      intro i
      have hterm : 0 ≤ (y i - x i) * (cost i - θ) := by
        rcases lt_trichotomy (cost i) θ with hlt | heq | hgt
        · rw [(hθ i).1 hlt]
          exact mul_nonneg_of_nonpos_of_nonpos (sub_nonpos.mpr (hy i).2) (sub_nonpos.mpr hlt.le)
        · rw [heq, sub_self, mul_zero]
        · rw [(hθ i).2 hgt, sub_zero]
          exact mul_nonneg (hy i).1 (sub_nonneg.mpr hgt.le)
      linarith
    calc ∑ i, x i * cost i = ∑ i, (x i * cost i + (y i - x i) * θ) := by
          rw [Finset.sum_add_distrib, ← Finset.sum_mul, Finset.sum_sub_distrib, hsum, sub_self,
            zero_mul, add_zero]
      _ ≤ ∑ i, y i * cost i := Finset.sum_le_sum fun i _ => hmove i
  · have hfull : x = capacity := funext fun i =>
      le_antisymm (hx i).2 (not_lt.mp fun hlt => hroom ⟨i, hlt⟩)
    rw [hfull] at hsum ⊢
    rw [hy.eq_of_full hsum]

end TradingInfrastructure
