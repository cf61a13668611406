import Mathlib.Algebra.Order.Field.Basic
import Mathlib.Order.Interval.Set.UnorderedInterval
import Mathlib.Tactic.Linarith
import Mathlib.Tactic.Ring

/-!
# Smoothing with limited steps

A value follows its samples: it goes a fraction of the way to a sample, but no further than a
limit, and stays in a range (`smooth`). So it is never outside the range (`smooth_mem`), moves by
at most the limit (`abs_smooth_sub_le`), towards the sample and not past it (`smooth_mem_uIcc`),
and a higher sample leaves a higher value (`smooth_le_smooth`), strictly except where the limit or
the range leaves no room (`smooth_eq_smooth_iff`).
-/

namespace TradingInfrastructure

variable {K : Type*} [LinearOrder K] {alpha limit lo hi v w s t : K}

/-! ## Ranges -/

/-- A value within a range. -/
def bounded (lo hi v : K) : K := max lo (min v hi)

theorem bounded_mem (h : lo ≤ hi) (v : K) : bounded lo hi v ∈ Set.Icc lo hi :=
  ⟨le_max_left .., max_le h (min_le_right ..)⟩

theorem bounded_of_mem (h : v ∈ Set.Icc lo hi) : bounded lo hi v = v := by
  rw [bounded, min_eq_left h.2, max_eq_right h.1]

theorem bounded_mono (h : v ≤ w) : bounded lo hi v ≤ bounded lo hi w :=
  max_le_max le_rfl (min_le_min h le_rfl)

/-- A range within a range. -/
theorem bounded_bounded {lo' hi' : K} (h : lo' ≤ hi) :
    bounded lo hi (bounded lo' hi' v) = bounded (max lo lo') (min hi' hi) v := by
  rw [bounded, bounded, bounded, min_max_distrib_right, min_eq_left h, ← max_assoc, min_assoc]

/-- Two values within a range are the same exactly when they were, or when the range leaves no
other value for them. -/
theorem bounded_eq_bounded_iff (hrange : lo ≤ hi) (hvw : v ≤ w) :
    bounded lo hi v = bounded lo hi w ↔ v = w ∨ lo = hi ∨ hi ≤ v ∨ w ≤ lo := by
  constructor
  · intro h
    by_contra hne
    obtain ⟨hvw', hlohi, hv, hw⟩ := not_or.mp hne |>.imp_right fun h =>
      (not_or.mp h).imp_right not_or.mp
    have hlt : v < w := lt_of_le_of_ne hvw hvw'
    rw [not_le] at hv hw
    have hleft : bounded lo hi v = max lo v := by rw [bounded, min_eq_left hv.le]
    have hright : bounded lo hi w = min w hi := max_eq_right (le_min hw.le hrange)
    rw [hleft, hright] at h
    have hless : max lo v < min w hi :=
      max_lt (lt_min hw (lt_of_le_of_ne hrange hlohi)) (lt_min hlt hv)
    exact absurd h hless.ne
  · rintro (rfl | rfl | h | h)
    · rfl
    · exact (le_antisymm (bounded_mem le_rfl v).2 (bounded_mem le_rfl v).1).trans
        (le_antisymm (bounded_mem le_rfl w).2 (bounded_mem le_rfl w).1).symm
    · rw [bounded, bounded, min_eq_right h, min_eq_right (h.trans hvw)]
    · rw [bounded, bounded, max_eq_left ((min_le_left ..).trans h),
        max_eq_left ((min_le_left ..).trans (hvw.trans h))]

variable [Field K]

/-! ## One sample -/

/-- The value after a sample: the share `alpha` of the distance, at most `limit` of it. -/
def smooth (alpha limit lo hi v sample : K) : K :=
  bounded lo hi (v + bounded (-limit) limit (alpha * (sample - v)))

theorem smooth_mem (h : lo ≤ hi) : smooth alpha limit lo hi v s ∈ Set.Icc lo hi :=
  bounded_mem h _

variable [IsStrictOrderedRing K]

/-- A limit on a sum is a limit that moves with the other summand. -/
theorem add_bounded (u : K) : u + bounded lo hi v = bounded (u + lo) (u + hi) (u + v) := by
  rw [bounded, bounded, min_add_add_left, max_add_add_left]

/-- What lies between zero and `v` still does with a limit on it. -/
theorem bounded_limit_mem_uIcc (h : 0 ≤ limit) (v : K) :
    bounded (-limit) limit v ∈ Set.uIcc 0 v := by
  rcases le_total 0 v with hv | hv
  · rw [Set.uIcc_of_le hv]
    refine ⟨le_max_of_le_right (le_min hv h), ?_⟩
    exact max_le ((neg_nonpos.mpr h).trans hv) (min_le_left ..)
  · rw [Set.uIcc_of_ge hv]
    refine ⟨le_max_of_le_right (le_min le_rfl (hv.trans h)), ?_⟩
    exact max_le (neg_nonpos.mpr h) ((min_le_left ..).trans hv)

/-- A value moves by at most the limit. -/
theorem abs_smooth_sub_le (hlimit : 0 ≤ limit) (hv : v ∈ Set.Icc lo hi) :
    |smooth alpha limit lo hi v s - v| ≤ limit := by
  have hstep := bounded_mem (neg_le_self hlimit) (alpha * (s - v))
  rw [abs_le]
  constructor
  · have hlow : min (v + -limit) hi ≤ smooth alpha limit lo hi v s :=
      le_max_of_le_right (min_le_min (add_le_add_right hstep.1 v) le_rfl)
    rw [min_eq_left (by linarith [hv.2])] at hlow
    linarith
  · have hhigh : smooth alpha limit lo hi v s ≤ max lo (v + limit) :=
      max_le_max le_rfl ((min_le_left ..).trans (add_le_add_right hstep.2 v))
    rw [max_eq_right (by linarith [hv.1])] at hhigh
    linarith

/-- **A value moves towards the sample**, as far as that is in the range, and not past it. -/
theorem smooth_mem_uIcc (halpha : alpha ∈ Set.Icc 0 1) (hlimit : 0 ≤ limit)
    (hv : v ∈ Set.Icc lo hi) :
    smooth alpha limit lo hi v s ∈ Set.uIcc v (bounded lo hi s) := by
  have hstep := bounded_limit_mem_uIcc hlimit (alpha * (s - v))
  have hself : bounded lo hi v = v := bounded_of_mem hv
  rcases le_total v s with hvs | hvs
  · have hshare : 0 ≤ alpha * (s - v) := mul_nonneg halpha.1 (sub_nonneg.mpr hvs)
    have hpast : alpha * (s - v) ≤ s - v := mul_le_of_le_one_left (sub_nonneg.mpr hvs) halpha.2
    rw [Set.uIcc_of_le hshare] at hstep
    rw [Set.uIcc_of_le (hself.symm.trans_le (bounded_mono hvs))]
    exact ⟨hself.symm.trans_le (bounded_mono (by linarith [hstep.1])),
      bounded_mono (by linarith [hstep.2])⟩
  · have hshare : alpha * (s - v) ≤ 0 :=
      mul_nonpos_of_nonneg_of_nonpos halpha.1 (sub_nonpos.mpr hvs)
    have hpast : s - v ≤ alpha * (s - v) := by
      have := mul_le_of_le_one_left (sub_nonneg.mpr hvs) halpha.2
      linarith
    rw [Set.uIcc_of_ge hshare] at hstep
    rw [Set.uIcc_of_ge ((bounded_mono hvs).trans_eq hself)]
    exact ⟨bounded_mono (by linarith [hstep.1]),
      (bounded_mono (by linarith [hstep.2])).trans_eq hself⟩

/-! ## Two histories -/

/-- A higher value and a higher sample leave a higher value. -/
theorem smooth_le_smooth (halpha : alpha ∈ Set.Icc 0 1) (hvw : v ≤ w) (hst : s ≤ t) :
    smooth alpha limit lo hi v s ≤ smooth alpha limit lo hi w t := by
  have hshare : v + alpha * (s - v) ≤ w + alpha * (t - w) :=
    calc v + alpha * (s - v) = (1 - alpha) * v + alpha * s := by ring
      _ ≤ (1 - alpha) * w + alpha * t :=
        add_le_add (mul_le_mul_of_nonneg_left hvw (sub_nonneg.mpr halpha.2))
          (mul_le_mul_of_nonneg_left hst halpha.1)
      _ = w + alpha * (t - w) := by ring
  refine bounded_mono ?_
  rw [add_bounded, add_bounded]
  exact max_le_max (add_le_add_left hvw _) (min_le_min hshare (add_le_add_left hvw _))

/-- The limit and the range together limit the way that a value goes. -/
theorem smooth_eq_add (hlimit : 0 ≤ limit) (hv : v ∈ Set.Icc lo hi) :
    smooth alpha limit lo hi v s =
      v + bounded (max (lo - v) (-limit)) (min limit (hi - v)) (alpha * (s - v)) := by
  have hlo : lo = v + (lo - v) := by ring
  have hhi : hi = v + (hi - v) := by ring
  have hroom : -limit ≤ hi - v := (neg_nonpos.mpr hlimit).trans (sub_nonneg.mpr hv.2)
  rw [smooth]
  nth_rewrite 1 [hlo, hhi]
  rw [← add_bounded, bounded_bounded hroom]

/-- A higher sample moves a value as far as a lower one exactly when it is no higher, or when the
lower one already moves it up as far as it goes, or the higher one still down as far as it goes. -/
theorem smooth_eq_smooth_iff (halpha : 0 ≤ alpha) (hlimit : 0 ≤ limit) (hrange : lo < hi)
    (hv : v ∈ Set.Icc lo hi) (hst : s ≤ t) :
    smooth alpha limit lo hi v s = smooth alpha limit lo hi v t ↔
      s = t ∨ alpha = 0 ∨ limit = 0 ∨ min limit (hi - v) ≤ alpha * (s - v) ∨
        alpha * (t - v) ≤ max (lo - v) (-limit) := by
  have hleast : max (lo - v) (-limit) ≤ 0 :=
    max_le (sub_nonpos.mpr hv.1) (neg_nonpos.mpr hlimit)
  have hmost : 0 ≤ min limit (hi - v) := le_min hlimit (sub_nonneg.mpr hv.2)
  have hshare : alpha * (s - v) ≤ alpha * (t - v) :=
    mul_le_mul_of_nonneg_left (sub_le_sub_right hst v) halpha
  have hsame : alpha * (s - v) = alpha * (t - v) ↔ s = t ∨ alpha = 0 := by
    rw [mul_eq_mul_left_iff, sub_left_inj]
  have hstuck : max (lo - v) (-limit) = min limit (hi - v) ↔ limit = 0 := by
    constructor
    · intro h
      have hzero : min limit (hi - v) = 0 := le_antisymm (h ▸ hleast) hmost
      rcases min_choice limit (hi - v) with hmin | hmin
      · exact hmin.symm.trans hzero
      · have hlow : max (lo - v) (-limit) = 0 := h.trans hzero
        rcases max_choice (lo - v) (-limit) with hmax | hmax
        · linarith
        · linarith
    · rintro rfl
      rw [min_eq_left (sub_nonneg.mpr hv.2), neg_zero, max_eq_right (sub_nonpos.mpr hv.1)]
  rw [smooth_eq_add hlimit hv, smooth_eq_add hlimit hv, add_right_inj,
    bounded_eq_bounded_iff (hleast.trans hmost) hshare, hsame, hstuck]
  rw [or_assoc]

end TradingInfrastructure
