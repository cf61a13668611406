import Mathlib.Analysis.Real.Sqrt
import TradingInfrastructure.Foundations.Argsort

/-!
# The separation of the fitted spreads

`_enforce_spread_separation` of `research/regime/regime.py` pushes the fitted means of the spread
apart, each at least a floor behind the one before it. The training then looks for a collapsed fit,
whose spread means deviate less than the same floor, and anchors it to the calm regime.

Four means that are the floor apart always deviate by more than that, so with four regimes no fit
is ever found collapsed (`lt_variance_of_four`). With three, a collapsed fit stays one exactly if
the upper two means are the floor apart already or the lower two are close enough
(`enforceSpreadSeparation_std_lt_iff`).
-/

namespace TradingInfrastructure

section

variable {K : Type*} [Field K] [LinearOrder K]

/-- `_SPREAD_FEAT_IDX`. -/
def spreadFeatIdx : ℕ := 1

/-- The column of the spreads. -/
def spreadColumn (means : List (List K)) : List K := means.map (·.getD spreadFeatIdx 0)

/-- The loop over the sorted spreads, behind one of them. -/
def pushApart (minSep : K) : K → List K → List K
  | _, [] => []
  | before, s :: rest =>
    let s := if s - before < minSep then before + minSep else s
    s :: pushApart minSep s rest

/-- The loop over the sorted spreads. -/
def separated (minSep : K) : List K → List K
  | [] => []
  | s :: rest => s :: pushApart minSep s rest

/-- `_enforce_spread_separation`. -/
def enforceSpreadSeparation (means : List (List K)) (minSep : K) : List (List K) :=
  let spread := spreadColumn means
  let order := argsort 0 spread
  let s := separated minSep (order.map (spread.getD · 0))
  (order.zip s).foldl (fun out p => out.modify p.1 (·.set spreadFeatIdx p.2)) means

/-- The variance of a population. -/
def variance (xs : List K) : K :=
  (xs.map fun x => (x - xs.sum / xs.length) ^ 2).sum / xs.length

/-! ## The column -/

omit [Field K] [LinearOrder K] in
theorem lt_length_of_mem_modify {out : List (List K)} {i : ℕ} {v : K}
    (hcolumn : ∀ row ∈ out, spreadFeatIdx < row.length) :
    ∀ row ∈ out.modify i (·.set spreadFeatIdx v), spreadFeatIdx < row.length := by
  intro row hrow
  obtain ⟨j, hj, rfl⟩ := List.mem_iff_getElem.mp hrow
  rw [List.getElem_modify]
  split
  · rw [List.length_set]
    exact hcolumn _ (List.getElem_mem _)
  · exact hcolumn _ (List.getElem_mem _)

omit [LinearOrder K] in
theorem spreadColumn_modify {out : List (List K)} {i : ℕ} {v : K}
    (hcolumn : ∀ row ∈ out, spreadFeatIdx < row.length) :
    spreadColumn (out.modify i (·.set spreadFeatIdx v)) = (spreadColumn out).set i v := by
  refine List.ext_getElem (by simp [spreadColumn]) fun j hj _ => ?_
  have hlt : j < out.length := by simpa [spreadColumn] using hj
  have hrow := hcolumn _ (List.getElem_mem hlt)
  simp only [spreadColumn, List.getElem_map, List.getElem_modify, List.getElem_set]
  split
  · rw [List.getD_eq_getElem?_getD, List.getElem?_set_self hrow, Option.getD_some]
  · rfl

omit [LinearOrder K] in
/-- Writing into the matrix is writing into the column. -/
theorem spreadColumn_foldl {order : List ℕ} {values : List K} {out : List (List K)}
    (hcolumn : ∀ row ∈ out, spreadFeatIdx < row.length) :
    spreadColumn ((order.zip values).foldl
        (fun out p => out.modify p.1 (·.set spreadFeatIdx p.2)) out) =
      scatter order values (spreadColumn out) := by
  unfold scatter
  induction order.zip values generalizing out with
  | nil => rfl
  | cons p rest ih =>
    rw [List.foldl_cons, List.foldl_cons, ih (lt_length_of_mem_modify hcolumn),
      spreadColumn_modify hcolumn]

omit [LinearOrder K] in
@[simp] theorem length_spreadColumn (means : List (List K)) :
    (spreadColumn means).length = means.length :=
  List.length_map _

theorem length_pushApart {minSep before : K} {xs : List K} :
    (pushApart minSep before xs).length = xs.length := by
  induction xs generalizing before with
  | nil => rfl
  | cons s rest ih => exact congrArg (· + 1) ih

theorem length_separated {minSep : K} {xs : List K} :
    (separated minSep xs).length = xs.length := by
  cases xs with
  | nil => rfl
  | cons s rest => exact congrArg (· + 1) length_pushApart

/-- The fitted spreads after the separation, in some order. -/
theorem spreadColumn_enforceSpreadSeparation_perm {means : List (List K)} {minSep : K}
    (hcolumn : ∀ row ∈ means, spreadFeatIdx < row.length) :
    (spreadColumn (enforceSpreadSeparation means minSep)).Perm
      (separated minSep ((spreadColumn means).insertionSort (· ≤ ·))) := by
  rw [enforceSpreadSeparation, spreadColumn_foldl hcolumn, map_argsort]
  refine scatter_perm 0 (argsort_perm 0 _) ?_
  rw [length_separated, List.length_insertionSort, length_argsort]

omit [LinearOrder K] in
/-- The variance does not depend on the order. -/
theorem variance_perm {xs ys : List K} (h : xs.Perm ys) : variance xs = variance ys := by
  rw [variance, variance, h.sum_eq, h.length_eq, (h.map _).sum_eq]

/-- What has been pushed is the floor apart. -/
theorem isChain_pushApart [IsStrictOrderedRing K] {minSep before : K} {xs : List K} :
    (before :: pushApart minSep before xs).IsChain (fun x y => minSep ≤ y - x) := by
  induction xs generalizing before with
  | nil => exact List.isChain_singleton _
  | cons s rest ih =>
    refine List.isChain_cons_cons.mpr ⟨?_, ih⟩
    split_ifs with hclose
    · exact (add_sub_cancel_left before minSep).ge
    · exact not_lt.mp hclose

theorem isChain_separated [IsStrictOrderedRing K] {minSep : K} {xs : List K} :
    (separated minSep xs).IsChain fun x y => minSep ≤ y - x := by
  cases xs with
  | nil => exact List.isChain_nil
  | cons s rest => exact isChain_pushApart

/-! ## The variance, from the gaps -/

variable [IsStrictOrderedRing K]

theorem variance_three (a b c : K) :
    variance [a, b, c] = 2 * ((b - a) ^ 2 + (b - a) * (c - b) + (c - b) ^ 2) / 9 := by
  simp only [variance, List.map_cons, List.map_nil, List.sum_cons, List.sum_nil, List.length_cons,
    List.length_nil]
  push_cast
  field_simp
  ring

theorem variance_four (a b c e : K) :
    variance [a, b, c, e] =
      (3 * (b - a) ^ 2 + 4 * (c - b) ^ 2 + 3 * (e - c) ^ 2 + 4 * (b - a) * (c - b) +
        2 * (b - a) * (e - c) + 4 * (c - b) * (e - c)) / 16 := by
  simp only [variance, List.map_cons, List.map_nil, List.sum_cons, List.sum_nil, List.length_cons,
    List.length_nil]
  push_cast
  field_simp
  ring

/-- Four means that are the floor apart. -/
theorem lt_variance_of_four {d : K} (hd : 0 < d) {xs : List K} (hlength : xs.length = 4)
    (hapart : xs.IsChain fun x y => d ≤ y - x) : d ^ 2 < variance xs := by
  rcases xs with _ | ⟨a, _ | ⟨b, _ | ⟨c, _ | ⟨e, _ | ⟨_, _⟩⟩⟩⟩⟩ <;>
    simp only [List.length_cons, List.length_nil] at hlength <;> try omega
  simp only [List.isChain_cons_cons, List.isChain_singleton, and_true] at hapart
  obtain ⟨hab, hbc, hce⟩ := hapart
  rw [variance_four, lt_div_iff₀ (by norm_num)]
  nlinarith [mul_le_mul hab hbc hd.le (hd.le.trans hab), mul_le_mul hab hce hd.le (hd.le.trans hab),
    mul_le_mul hbc hce hd.le (hd.le.trans hbc), mul_self_le_mul_self hd.le hab,
    mul_self_le_mul_self hd.le hbc, mul_self_le_mul_self hd.le hce, mul_pos hd hd]

/-- Three means that deviate little, lowest first: they still do when they have been pushed apart,
unless only the uppermost is pushed, away from two that are far apart. -/
theorem variance_separated_lt_iff {a b c d : K} (hd : 0 < d) (hab : a ≤ b)
    (hnarrow : variance [a, b, c] < d ^ 2) :
    variance (separated d [a, b, c]) < d ^ 2 ↔
      d ≤ c - b ∨ (b - a) * (b - a + d) < 3.5 * d ^ 2 := by
  rw [variance_three, div_lt_iff₀ (by norm_num)] at hnarrow
  simp only [separated, pushApart]
  by_cases hlow : b - a < d
  · -- the lower two are pushed to the floor, and the uppermost only up to twice the floor
    have hright : (b - a) * (b - a + d) < 3.5 * d ^ 2 := by
      nlinarith [mul_nonneg (sub_nonneg.mpr hab) hd.le]
    refine iff_of_true ?_ (Or.inr hright)
    rw [if_pos hlow, variance_three, div_lt_iff₀ (by norm_num)]
    by_cases hhigh : c - (a + d) < d
    · rw [if_pos hhigh]
      nlinarith [mul_pos hd hd]
    · rw [if_neg hhigh]
      have hspread : 0 ≤ (d - (b - a)) * ((c - a) - d - (b - a)) :=
        mul_nonneg (by linarith) (by linarith)
      nlinarith
  · rw [if_neg hlow]
    by_cases hhigh : c - b < d
    · rw [if_pos hhigh, variance_three, div_lt_iff₀ (by norm_num),
        or_iff_right (not_le.mpr hhigh)]
      constructor
      · intro h
        linarith
      · intro h
        linarith
    · rw [if_neg hhigh, variance_three, div_lt_iff₀ (by norm_num)]
      exact iff_of_true hnarrow (Or.inl (not_lt.mp hhigh))

/-- The condition on the sorted means: three of them, the upper two the floor apart or the lower two
close enough. -/
def StaysNarrow (d : K) : List K → Prop
  | [a, b, c] => d ≤ c - b ∨ (b - a) * (b - a + d) < 3.5 * d ^ 2
  | _ => False

omit [IsStrictOrderedRing K] in
theorem StaysNarrow.length_eq {d : K} {s : List K} (h : StaysNarrow d s) : s.length = 3 := by
  unfold StaysNarrow at h
  split at h
  · rfl
  · exact h.elim

end

/-! ## The guard -/

/-- `np.std`. -/
noncomputable def populationStd (xs : List ℝ) : ℝ := Real.sqrt (variance xs)

theorem populationStd_lt_iff {xs : List ℝ} {d : ℝ} (hd : 0 < d) :
    populationStd xs < d ↔ variance xs < d ^ 2 :=
  Real.sqrt_lt' hd

/-- **A collapsed fit is still found** behind the separation exactly if it has three regimes, and
the upper two of its means are the floor apart or the lower two close enough. -/
theorem enforceSpreadSeparation_std_lt_iff {means : List (List ℝ)} {d : ℝ}
    (hn : means.length = 3 ∨ means.length = 4)
    (hcolumn : ∀ row ∈ means, spreadFeatIdx < row.length) (hd : 0 < d)
    (hnarrow : populationStd (spreadColumn means) < d) :
    populationStd (spreadColumn (enforceSpreadSeparation means d)) < d ↔
      StaysNarrow d ((spreadColumn means).insertionSort (· ≤ ·)) := by
  rw [populationStd_lt_iff hd] at hnarrow ⊢
  rw [variance_perm (spreadColumn_enforceSpreadSeparation_perm hcolumn)]
  rw [← variance_perm (List.perm_insertionSort (· ≤ ·) (spreadColumn means))] at hnarrow
  have hsorted := List.pairwise_insertionSort (· ≤ ·) (spreadColumn means)
  have hlength : ((spreadColumn means).insertionSort (· ≤ ·)).length = means.length := by
    rw [List.length_insertionSort, length_spreadColumn]
  generalize (spreadColumn means).insertionSort (· ≤ ·) = s at hnarrow hsorted hlength ⊢
  rcases hn with hthree | hfour
  · obtain ⟨a, b, c, rfl⟩ := List.length_eq_three.mp (hlength.trans hthree)
    simp only [List.pairwise_cons, List.mem_cons, List.not_mem_nil, or_false] at hsorted
    exact variance_separated_lt_iff hd (hsorted.1 b (Or.inl rfl)) hnarrow
  · have hwide := lt_variance_of_four hd (length_separated.trans (hlength.trans hfour))
      isChain_separated
    refine iff_of_false (not_lt.mpr hwide.le) fun h => ?_
    have hthree := h.length_eq
    omega

/-- Three means that are half a floor apart. -/
theorem enforceSpreadSeparation_std_lt_half :
    populationStd (spreadColumn [[0, 0], [0, 1], [0, 2]]) < 2 ∧
      populationStd (spreadColumn (enforceSpreadSeparation [[0, 0], [0, 1], [0, 2]] 2)) < 2 := by
  have hnarrow : populationStd (spreadColumn [[0, 0], [0, 1], [0, 2]]) < 2 := by
    rw [populationStd_lt_iff (by norm_num)]
    change variance [0, 1, 2] < 2 ^ 2
    rw [variance_three]
    norm_num
  refine ⟨hnarrow, (enforceSpreadSeparation_std_lt_iff (Or.inl rfl) (by simp [spreadFeatIdx])
    (by norm_num) hnarrow).mpr ?_⟩
  change StaysNarrow 2 (List.insertionSort (· ≤ ·) [0, 1, 2])
  rw [List.Pairwise.insertionSort_eq (by norm_num)]
  exact Or.inr (by norm_num)

/-- Four means that are all the same are pushed too far apart. -/
theorem enforceSpreadSeparation_disarms :
    populationStd (spreadColumn [[0, 0], [0, 0], [0, 0], [0, 0]]) < 1 ∧
      ¬ populationStd (spreadColumn
        (enforceSpreadSeparation [[0, 0], [0, 0], [0, 0], [0, 0]] 1)) < 1 := by
  rw [populationStd_lt_iff one_pos, populationStd_lt_iff one_pos,
    variance_perm (spreadColumn_enforceSpreadSeparation_perm (by simp [spreadFeatIdx]))]
  constructor
  · change variance [0, 0, 0, 0] < 1 ^ 2
    rw [variance_four]
    norm_num
  · refine not_lt.mpr (lt_variance_of_four one_pos ?_ isChain_separated).le
    rw [length_separated, List.length_insertionSort, length_spreadColumn]
    rfl

end TradingInfrastructure
