import Mathlib.Tactic
import Mathlib.Algebra.Order.Field.Basic
import Mathlib.Algebra.BigOperators.Group.List.Basic

/-!
# Average-cost accounting

The average-cost method for a signed position, over any ordered field: a fill in the direction
of the position moves the average entry cost towards its price, a fill against it realizes the
difference between its price and the average cost on the quantity it closes, and a fill that
passes through zero starts a new position at its own price.

The two facts an implementation is judged by are proved once, here:

* `CostBasis.balanced_fills`: the realized profit is the value of the position at its average
  cost less everything that was paid, whatever the order of the fills;
* `CostBasis.wellPriced_fills`: there is an average cost exactly when there is a position.
-/

namespace TradingInfrastructure

/-- A signed position, its average entry cost and the profit realized so far. -/
structure CostBasis (K : Type*) where
  position : K
  avgCost : K
  realized : K
  deriving DecidableEq

namespace CostBasis

variable {K : Type*}

@[ext] theorem ext' {a b : CostBasis K} (hp : a.position = b.position)
    (hc : a.avgCost = b.avgCost) (hr : a.realized = b.realized) : a = b := by
  cases a; cases b; simp_all

variable [Field K]

/-- No position and no history. -/
def flat : CostBasis K := ⟨0, 0, 0⟩

/-- The realized profit is the position at its average cost less the `cost` paid for it. -/
def Balanced (b : CostBasis K) (cost : K) : Prop :=
  b.realized = b.position * b.avgCost - cost

/-- The cost of a sequence of fills. -/
def cost (l : List (K × K)) : K := (l.map fun f => f.1 * f.2).sum

/-- The profit of the open position at the price `mid`. -/
def unrealized (b : CostBasis K) (mid : K) : K := (mid - b.avgCost) * b.position

theorem balanced_flat : (flat : CostBasis K).Balanced 0 := by
  simp [Balanced, flat]

@[simp] theorem cost_nil : cost ([] : List (K × K)) = 0 := rfl

@[simp] theorem cost_cons (f : K × K) (l : List (K × K)) :
    cost (f :: l) = f.1 * f.2 + cost l := by
  simp [cost]

theorem cost_append (l m : List (K × K)) : cost (l ++ m) = cost l + cost m := by
  simp [cost]

/-- Realized and unrealized profit together are the position at `mid` less what was paid. -/
theorem Balanced.realized_add_unrealized {b : CostBasis K} {c : K} (hb : b.Balanced c) (mid : K) :
    b.realized + b.unrealized mid = b.position * mid - c := by
  rw [hb, unrealized]
  ring

/-! ## Fills -/

variable [LinearOrder K]

/-- The quantity that a fill of `q` against a position `x` closes, with the sign of `x`. -/
def closed (x q : K) : K := if |q| ≤ |x| then -q else x

/-- A fill of the signed quantity `q` at price `p`. -/
def fill (b : CostBasis K) (q p : K) : CostBasis K :=
  if 0 ≤ b.position * q then
    { position := b.position + q
      avgCost := (b.avgCost * |b.position| + p * |q|) / (|b.position| + |q|)
      realized := b.realized }
  else
    { position := b.position + q
      avgCost :=
        if b.position + q = 0 then 0
        else if 0 < b.position * (b.position + q) then b.avgCost else p
      realized := b.realized + (p - b.avgCost) * closed b.position q }

/-- A sequence of fills, each a signed quantity and a price. -/
def fills (b : CostBasis K) (l : List (K × K)) : CostBasis K :=
  l.foldl (fun b f => b.fill f.1 f.2) b

@[simp] theorem fills_nil (b : CostBasis K) : b.fills [] = b := rfl

@[simp] theorem fills_cons (b : CostBasis K) (f : K × K) (l : List (K × K)) :
    b.fills (f :: l) = (b.fill f.1 f.2).fills l := rfl

theorem fills_append (b : CostBasis K) (l m : List (K × K)) :
    b.fills (l ++ m) = (b.fills l).fills m := by
  simp [fills]

/-! ## The position -/

@[simp] theorem fill_position (b : CostBasis K) (q p : K) :
    (b.fill q p).position = b.position + q := by
  unfold fill; split <;> rfl

theorem fills_position (b : CostBasis K) (l : List (K × K)) :
    (b.fills l).position = b.position + (l.map Prod.fst).sum := by
  induction l generalizing b with
  | nil => simp
  | cons f l ih => simp [ih, add_assoc]

/-- There is an average cost exactly when there is a position. -/
def WellPriced (b : CostBasis K) : Prop := 0 < b.avgCost ↔ b.position ≠ 0

theorem wellPriced_flat : (flat : CostBasis K).WellPriced := by
  simp [WellPriced, flat]

/-! ## The signs of a fill and a position -/

variable [IsStrictOrderedRing K]

/-- A fill in the direction of the position: both non-negative or both non-positive. -/
theorem same_side_cases {x q : K} (h : 0 ≤ x * q) :
    (0 ≤ x ∧ 0 ≤ q) ∨ (x ≤ 0 ∧ q ≤ 0) :=
  mul_nonneg_iff.mp h

/-- A fill against the position. -/
theorem opposite_cases {x q : K} (h : ¬ 0 ≤ x * q) :
    (0 < x ∧ q < 0) ∨ (x < 0 ∧ 0 < q) :=
  mul_neg_iff.mp (not_le.mp h)

/-- What a fill against a long position closes. -/
theorem closed_of_long {x q : K} (hx : 0 < x) (hq : q < 0) : closed x q = min |x| |q| := by
  unfold closed
  split
  · rename_i h
    rw [min_eq_right h, abs_of_neg hq]
  · rename_i h
    rw [min_eq_left (not_le.mp h).le, abs_of_pos hx]

/-- What a fill against a short position closes. -/
theorem closed_of_short {x q : K} (hx : x < 0) (hq : 0 < q) : closed x q = -min |x| |q| := by
  unfold closed
  split
  · rename_i h
    rw [min_eq_right h, abs_of_pos hq]
  · rename_i h
    rw [min_eq_left (not_le.mp h).le, abs_of_neg hx, neg_neg]

/-! ## Conservation of value -/

/-- In the direction of the position, the cost of the position grows by the cost of the fill. -/
theorem fill_cost_of_same_side {b : CostBasis K} {q p : K} (hq : q ≠ 0)
    (h : 0 ≤ b.position * q) :
    (b.fill q p).position * (b.fill q p).avgCost = b.position * b.avgCost + q * p := by
  simp only [fill, h, if_true]
  rcases same_side_cases h with ⟨hx, hy⟩ | ⟨hx, hy⟩
  · have hpos : b.position + q ≠ 0 := (add_pos_of_nonneg_of_pos hx (hy.lt_of_ne' hq)).ne'
    rw [abs_of_nonneg hx, abs_of_nonneg hy]
    field_simp
  · have hneg : b.position + q < 0 := add_neg_of_nonpos_of_neg hx (hy.lt_of_ne hq)
    have hne : -b.position + -q ≠ 0 := by
      rw [← neg_add]; exact neg_ne_zero.mpr hneg.ne
    rw [abs_of_nonpos hx, abs_of_nonpos hy, mul_div_assoc', div_eq_iff hne]
    ring

/-- **A fill keeps the balance**, the cost growing by the price of what was filled. -/
theorem Balanced.fill {b : CostBasis K} {cost q p : K} (hb : b.Balanced cost) (hq : q ≠ 0) :
    (b.fill q p).Balanced (cost + q * p) := by
  unfold Balanced at hb ⊢
  by_cases h : 0 ≤ b.position * q
  · rw [fill_cost_of_same_side hq h, add_sub_add_right_eq_sub, ← hb]
    simp [CostBasis.fill, h]
  · simp only [CostBasis.fill, h, if_false, hb]
    by_cases h0 : b.position + q = 0
    · have hx : b.position = -q := eq_neg_of_add_eq_zero_left h0
      simp only [if_true, closed, hx, abs_neg, le_refl, neg_add_cancel]
      ring
    · by_cases hkeep : 0 < b.position * (b.position + q)
      · -- the fill closes a part of the position, whose average cost stays
        have hle : |q| ≤ |b.position| := by
          rcases opposite_cases h with ⟨hx, hy⟩ | ⟨hx, hy⟩
          · have := (mul_pos_iff_of_pos_left hx).mp hkeep
            rw [abs_of_pos hx, abs_of_neg hy]; linarith
          · have := neg_of_mul_pos_right hkeep hx.le
            rw [abs_of_neg hx, abs_of_pos hy]; linarith
        simp only [h0, if_false, hkeep, if_true, closed, hle]
        ring
      · -- the fill closes all of the position and opens the rest at its own price
        have hlt : ¬ |q| ≤ |b.position| := by
          intro hle
          apply hkeep
          rcases opposite_cases h with ⟨hx, hy⟩ | ⟨hx, hy⟩
          · rw [abs_of_pos hx, abs_of_neg hy] at hle
            exact mul_pos hx (lt_of_le_of_ne (by linarith) (Ne.symm h0))
          · rw [abs_of_neg hx, abs_of_pos hy] at hle
            exact mul_pos_of_neg_of_neg hx (lt_of_le_of_ne (by linarith) h0)
        simp only [h0, if_false, hkeep, closed, hlt]
        ring

/-- **Conservation of value** over any sequence of non-empty fills. -/
theorem Balanced.fills {b : CostBasis K} {c : K} (hb : b.Balanced c) {l : List (K × K)}
    (hl : ∀ f ∈ l, f.1 ≠ 0) : (b.fills l).Balanced (c + cost l) := by
  induction l generalizing b c with
  | nil => simpa using hb
  | cons f l ih =>
    have hstep := hb.fill (p := f.2) (hl f (by simp))
    have := ih hstep fun g hg => hl g (by simp [hg])
    rw [fills_cons, cost_cons, ← add_assoc]
    exact this

/-! ## The average cost -/

/-- A well-priced basis stays so under a non-empty fill at a positive price. -/
theorem WellPriced.fill {b : CostBasis K} {q p : K} (hb : b.WellPriced) (hq : q ≠ 0)
    (hp : 0 < p) : (b.fill q p).WellPriced := by
  unfold WellPriced at hb ⊢
  rw [fill_position]
  by_cases h : 0 ≤ b.position * q
  · have hne : b.position + q ≠ 0 := by
      rcases same_side_cases h with ⟨hx, hy⟩ | ⟨hx, hy⟩
      · exact (add_pos_of_nonneg_of_pos hx (hy.lt_of_ne' hq)).ne'
      · exact (add_neg_of_nonpos_of_neg hx (hy.lt_of_ne hq)).ne
    have hq' : 0 < |q| := abs_pos.mpr hq
    have hold : 0 ≤ b.avgCost * |b.position| := by
      by_cases hx : b.position = 0
      · simp [hx]
      · exact mul_nonneg (hb.mpr hx).le (abs_nonneg _)
    have hnum : 0 < b.avgCost * |b.position| + p * |q| :=
      add_pos_of_nonneg_of_pos hold (mul_pos hp hq')
    have hden : 0 < |b.position| + |q| := add_pos_of_nonneg_of_pos (abs_nonneg _) hq'
    simp only [CostBasis.fill, h, if_true]
    exact iff_of_true (div_pos hnum hden) hne
  · simp only [CostBasis.fill, h, if_false]
    have hx : b.position ≠ 0 := fun hx => h (by simp [hx])
    by_cases h0 : b.position + q = 0
    · simp [h0]
    · simp only [h0, if_false]
      refine iff_of_true ?_ h0
      split
      · exact hb.mpr hx
      · exact hp

theorem WellPriced.fills {b : CostBasis K} (hb : b.WellPriced) {l : List (K × K)}
    (hl : ∀ f ∈ l, f.1 ≠ 0 ∧ 0 < f.2) : (b.fills l).WellPriced := by
  induction l generalizing b with
  | nil => exact hb
  | cons f l ih =>
    obtain ⟨hq, hp⟩ := hl f (by simp)
    exact ih (hb.fill hq hp) fun g hg => hl g (by simp [hg])

/-- The basis after a sequence of non-empty fills from flat. -/
theorem balanced_fills {l : List (K × K)} (hl : ∀ f ∈ l, f.1 ≠ 0) :
    (flat.fills l).Balanced (cost l) := by
  simpa using balanced_flat.fills hl

theorem wellPriced_fills {l : List (K × K)} (hl : ∀ f ∈ l, f.1 ≠ 0 ∧ 0 < f.2) :
    (flat.fills l).WellPriced :=
  wellPriced_flat.fills hl

end CostBasis

end TradingInfrastructure
