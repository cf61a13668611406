import TradingInfrastructure.Foundations.DecimalText
import Mathlib.Data.List.Range

/-!
# The folds of a frame

`split_walk_forward` and `split_train_validation` of `research/neural_alpha/data/dataset.py`. A frame
is cut into folds of the same size. A fold is tested on the last of its rows, and trained on all rows
of the frame before these; the last of the rows to train on validate it.

Folds without enough rows are dropped. Later folds have more rows before their tests and as many in
them, so the folds that are left are the last ones (`splitWalkForward_eq`). The rows to fit and those
to validate are enough of both, or there are none to validate (`splitTrainValidation_cases`), and more
rows only make it easier (`HasValidation.mono`).
-/

namespace TradingInfrastructure

/-! ## Slices -/

section Slices

variable {α : Type*}

/-- `int` of a number, which rounds towards zero. -/
def roundToZero (x : ℚ) : ℤ := if 0 ≤ x then ⌊x⌋ else ⌈x⌉

/-- An index of a slice, where a negative one counts from the end. -/
def sliceIndex (length : ℕ) (i : ℤ) : ℕ := if i < 0 then (length + i).toNat else min i.toNat length

/-- `rows[start:stop]`. -/
def sliceRows (rows : List α) (start stop : ℤ) : List α :=
  (rows.take (sliceIndex rows.length stop)).drop (sliceIndex rows.length start)

theorem sliceRows_natCast (rows : List α) {start stop : ℕ} (hstop : stop ≤ rows.length)
    (hstart : start ≤ stop) : sliceRows rows start stop = (rows.take stop).drop start := by
  have hindex : ∀ i : ℕ, i ≤ rows.length → sliceIndex rows.length i = i := by
    intro i hi
    rw [sliceIndex, if_neg (by omega), Int.toNat_natCast, Nat.min_eq_left hi]
  rw [sliceRows, hindex stop hstop, hindex start (hstart.trans hstop)]

end Slices

/-! ## Folds -/

section Folds

variable {α : Type*}

/-- Where the test of a fold starts and ends. -/
def foldBounds (foldSize : ℕ) (trainFrac : ℚ) (i : ℕ) : ℤ × ℤ :=
  let endTest := (i + 1) * foldSize
  (roundToZero (endTest - foldSize * (1 - trainFrac)), endTest)

/-- `_fold_slices`. Without folds the division raises. -/
def foldSlices (totalTicks nFolds : ℕ) (trainFrac : ℚ) : Option (List (ℤ × ℤ)) :=
  if nFolds = 0 then none
  else some ((List.range nFolds).map (foldBounds (totalTicks / nFolds) trainFrac))

/-- `split_walk_forward`: the rows to train on and the rows to test on, for each fold that has
enough of them. -/
def splitWalkForward (df : List α) (nFolds : ℕ) (trainFrac : ℚ) (minSamples : ℕ) :
    Option (List (List α × List α)) :=
  (foldSlices df.length nFolds trainFrac).map fun slices =>
    (slices.map fun bounds => (sliceRows df 0 bounds.1, sliceRows df bounds.1 bounds.2)).filter
      fun split => decide (minSamples ≤ split.1.length ∧ minSamples ≤ split.2.length)

/-- `split_train_validation`. -/
def splitTrainValidation (train : List α) (validationFrac : ℚ) (minSamples : ℕ) :
    Option (List α × List α) :=
  if train = [] then some (train, [])
  else if ¬ (0 < validationFrac ∧ validationFrac < 1) then none
  else
    let valSize := max (minSamples : ℤ) (DecimalText.roundHalfEven (train.length * validationFrac))
    if train.length - valSize < minSamples then some (train, [])
    else
      let splitIdx := train.length - valSize
      some (sliceRows train 0 splitIdx, sliceRows train splitIdx train.length)

/-- How many rows the test of a fold has. -/
def testSize (foldSize : ℕ) (trainFrac : ℚ) : ℕ := ⌈foldSize * (1 - trainFrac)⌉.toNat

variable {trainFrac : ℚ} {foldSize i : ℕ}

theorem testSize_le (h0 : 0 ≤ trainFrac) : testSize foldSize trainFrac ≤ foldSize := by
  have hle : (foldSize : ℚ) * (1 - trainFrac) ≤ foldSize := by
    have := mul_nonneg (Nat.cast_nonneg foldSize : (0 : ℚ) ≤ foldSize) h0
    linarith
  have hceil : ⌈(foldSize : ℚ) * (1 - trainFrac)⌉ ≤ (foldSize : ℤ) :=
    Int.ceil_le.mpr (by exact_mod_cast hle)
  unfold testSize
  omega

/-- Where the test of a fold starts. -/
def testStart (foldSize : ℕ) (trainFrac : ℚ) (i : ℕ) : ℕ :=
  (i + 1) * foldSize - testSize foldSize trainFrac

theorem foldSize_le (i : ℕ) : foldSize ≤ (i + 1) * foldSize := Nat.le_mul_of_pos_left _ i.succ_pos

/-- What is rounded towards zero when a number is taken from a larger whole one. -/
theorem roundToZero_sub {n : ℕ} {x : ℚ} (h : x ≤ n) : roundToZero (n - x) = n - ⌈x⌉ := by
  rw [roundToZero, if_pos (sub_nonneg.mpr h), sub_eq_add_neg, Int.floor_natCast_add, Int.floor_neg,
    ← sub_eq_add_neg]

theorem foldBounds_eq (h0 : 0 ≤ trainFrac) (h1 : trainFrac ≤ 1) (foldSize i : ℕ) :
    foldBounds foldSize trainFrac i =
      ((testStart foldSize trainFrac i : ℤ), (((i + 1) * foldSize : ℕ) : ℤ)) := by
  have hsize := @testSize_le trainFrac foldSize h0
  have hfold := @foldSize_le foldSize i
  have hnonneg : (0 : ℚ) ≤ foldSize * (1 - trainFrac) :=
    mul_nonneg (Nat.cast_nonneg _) (by linarith)
  have hceil : 0 ≤ ⌈(foldSize : ℚ) * (1 - trainFrac)⌉ := Int.ceil_nonneg hnonneg
  have hle : (foldSize : ℚ) * (1 - trainFrac) ≤ ((i + 1) * foldSize : ℕ) := by
    have hmul : (foldSize : ℚ) * trainFrac ≥ 0 := mul_nonneg (Nat.cast_nonneg _) h0
    have hcast : (foldSize : ℚ) ≤ ((i + 1) * foldSize : ℕ) := by exact_mod_cast hfold
    linarith
  have hround : roundToZero (((i + 1) * foldSize : ℕ) - (foldSize : ℚ) * (1 - trainFrac)) =
      testStart foldSize trainFrac i := by
    rw [roundToZero_sub hle, testStart, Nat.cast_sub (hsize.trans hfold), testSize,
      Int.toNat_of_nonneg hceil]
  exact Prod.ext hround rfl

/-- What is kept of a list, when with an item all later ones are kept, is its end. -/
theorem filter_eq_drop {β : Type*} {p : β → Bool} {l : List β}
    (h : l.Pairwise fun a b => p a = true → p b = true) :
    l.filter p = l.drop (l.countP fun a => !p a) := by
  induction l with
  | nil => rfl
  | cons a l ih =>
    obtain ⟨ha, hl⟩ := List.pairwise_cons.mp h
    cases hp : p a with
    | true =>
      have hall : ∀ b ∈ a :: l, p b = true := List.forall_mem_cons.mpr ⟨hp, fun b hb => ha b hb hp⟩
      have hcount : (a :: l).countP (fun a => !p a) = 0 :=
        List.countP_eq_zero.mpr fun b hb => by simp [hall b hb]
      rw [hcount, List.drop_zero, List.filter_eq_self]
      exact hall
    | false =>
      rw [List.filter_cons_of_neg (by simp [hp]), List.countP_cons_of_pos (by simp [hp]), ih hl,
        List.drop_succ_cons]

/-- The numbers that are kept are those from the count of the others on. -/
theorem countP_not_le_iff {p : ℕ → Bool} (hp : ∀ i j, i ≤ j → p i = true → p j = true) {n i : ℕ}
    (hi : i < n) : (List.range n).countP (fun i => !p i) ≤ i ↔ p i = true := by
  induction n with
  | zero => exact absurd hi (Nat.not_lt_zero i)
  | succ n ih =>
    rw [List.range_succ, List.countP_append, List.countP_singleton]
    cases hlast : p n with
    | true =>
      rcases Nat.lt_succ_iff_lt_or_eq.mp hi with hlt | rfl
      · simpa using ih hlt
      · have hle : (List.range i).countP (fun i => !p i) ≤ i := by
          simpa using List.countP_le_length (p := fun i => !p i) (l := List.range i)
        simpa [hlast] using hle
    | false =>
      have hnone : ∀ j ≤ n, p j = false := fun j hj =>
        Bool.eq_false_iff.mpr fun hj' => by simp [hp j n hj hj'] at hlast
      have hcount : (List.range n).countP (fun i => !p i) = n := by
        have : (List.range n).countP (fun i => !p i) = (List.range n).length :=
          List.countP_eq_length.mpr fun j hj => by simp [hnone j (List.mem_range.mp hj).le]
        simpa using this
      rw [hcount, hnone i (Nat.lt_succ_iff.mp hi)]
      simp
      omega

/-- The rows of a fold: those before its test, and those of its test. -/
def foldRows (rows : List α) (foldSize : ℕ) (trainFrac : ℚ) (i : ℕ) : List α × List α :=
  let start := testStart foldSize trainFrac i
  (rows.take start, (rows.take ((i + 1) * foldSize)).drop start)

variable {rows : List α} {n minSamples : ℕ} {splits : List (List α × List α)}

/-- There are enough rows in the test of a fold and before it. -/
def hasRows (foldSize : ℕ) (trainFrac : ℚ) (minSamples i : ℕ) : Bool :=
  decide (minSamples ≤ testStart foldSize trainFrac i ∧ minSamples ≤ testSize foldSize trainFrac)

theorem testStart_mono {i j : ℕ} (h : i ≤ j) :
    testStart foldSize trainFrac i ≤ testStart foldSize trainFrac j :=
  Nat.sub_le_sub_right (Nat.mul_le_mul_right _ (by omega)) _

theorem hasRows_mono (i j : ℕ) (h : i ≤ j) (hi : hasRows foldSize trainFrac minSamples i = true) :
    hasRows foldSize trainFrac minSamples j = true := by
  rw [hasRows, decide_eq_true_eq] at hi ⊢
  exact ⟨hi.1.trans (testStart_mono h), hi.2⟩

/-- How many folds are dropped for want of rows. -/
def droppedFolds (foldSize n : ℕ) (trainFrac : ℚ) (minSamples : ℕ) : ℕ :=
  (List.range n).countP fun i => !hasRows foldSize trainFrac minSamples i

theorem length_foldRows (h0 : 0 ≤ trainFrac) (hrows : (i + 1) * foldSize ≤ rows.length) :
    (foldRows rows foldSize trainFrac i).1.length = testStart foldSize trainFrac i ∧
      (foldRows rows foldSize trainFrac i).2.length = testSize foldSize trainFrac := by
  have hsize := (@testSize_le trainFrac foldSize h0).trans (@foldSize_le foldSize i)
  simp only [foldRows, List.length_take, List.length_drop, testStart]
  omega

theorem foldEnd_le (hi : i < n) : (i + 1) * (rows.length / n) ≤ rows.length :=
  (Nat.mul_le_mul_right _ hi).trans (Nat.mul_div_le _ _)

/-- **The splits are the last folds**: those in whose test and before it there are enough rows. -/
theorem splitWalkForward_eq (h0 : 0 ≤ trainFrac) (h1 : trainFrac ≤ 1)
    (h : splitWalkForward rows n trainFrac minSamples = some splits) :
    splits = ((List.range n).drop
      (droppedFolds (rows.length / n) n trainFrac minSamples)).map
        (foldRows rows (rows.length / n) trainFrac) := by
  unfold splitWalkForward foldSlices at h
  by_cases hn : n = 0
  · rw [if_pos hn] at h
    cases h
  rw [if_neg hn, Option.map_some, Option.some_inj] at h
  subst h
  set foldSize := rows.length / n with hfoldSize
  have hslices : ((List.range n).map (foldBounds foldSize trainFrac)).map
      (fun bounds => (sliceRows rows 0 bounds.1, sliceRows rows bounds.1 bounds.2)) =
      (List.range n).map (foldRows rows foldSize trainFrac) := by
    rw [List.map_map]
    refine List.map_congr_left fun i hi => ?_
    have hend : (i + 1) * foldSize ≤ rows.length := foldEnd_le (List.mem_range.mp hi)
    have hstart : testStart foldSize trainFrac i ≤ (i + 1) * foldSize := Nat.sub_le _ _
    rw [Function.comp_apply, foldBounds_eq h0 h1, foldRows]
    refine Prod.ext ?_ (sliceRows_natCast rows hend hstart)
    have := sliceRows_natCast rows (hstart.trans hend) (Nat.zero_le _)
    rwa [Nat.cast_zero, List.drop_zero] at this
  have hkept : ∀ i ∈ List.range n, ((fun split : List α × List α =>
      decide (minSamples ≤ split.1.length ∧ minSamples ≤ split.2.length)) ∘
        foldRows rows foldSize trainFrac) i = hasRows foldSize trainFrac minSamples i := by
    intro i hi
    obtain ⟨htrain, htest⟩ := @length_foldRows α trainFrac foldSize i rows h0
      (foldEnd_le (List.mem_range.mp hi))
    rw [Function.comp_apply, htrain, htest, hasRows]
  -- a later fold has more rows before its test, and as many in it
  have hlater : (List.range n).Pairwise fun i j =>
      hasRows foldSize trainFrac minSamples i = true →
        hasRows foldSize trainFrac minSamples j = true :=
    List.pairwise_lt_range.imp fun hij => hasRows_mono _ _ hij.le
  rw [hslices, List.filter_map, List.filter_congr hkept, filter_eq_drop hlater]
  rfl

/-! ### The validation -/

variable {train fitTrain val : List α} {validationFrac : ℚ}

theorem roundHalfEven_add_le {x y : ℚ} (h : y < x + 1) :
    DecimalText.roundHalfEven y ≤ DecimalText.roundHalfEven x + 1 := by
  have hx := (abs_le.mp (DecimalText.abs_sub_roundHalfEven_le x)).2
  have hy := (abs_le.mp (DecimalText.abs_sub_roundHalfEven_le y)).1
  have hlt : (DecimalText.roundHalfEven y : ℚ) < DecimalText.roundHalfEven x + 2 := by linarith
  have : DecimalText.roundHalfEven y < DecimalText.roundHalfEven x + 2 := by exact_mod_cast hlt
  omega

/-- More rows leave more of them to fit. -/
theorem sub_valSize_mono (hfrac : validationFrac < 1) (minSamples : ℤ) {n m : ℕ} (h : n ≤ m) :
    (n : ℤ) - max minSamples (DecimalText.roundHalfEven (n * validationFrac)) ≤
      m - max minSamples (DecimalText.roundHalfEven (m * validationFrac)) := by
  induction m, h using Nat.le_induction with
  | base => exact le_rfl
  | succ m _ ih =>
    have hstep : DecimalText.roundHalfEven ((m + 1 : ℕ) * validationFrac) ≤
        DecimalText.roundHalfEven (m * validationFrac) + 1 := by
      refine roundHalfEven_add_le ?_
      push_cast
      linarith
    push_cast at hstep ⊢
    omega

/-- There are rows to validate: enough of them, and enough others to fit. -/
def HasValidation (length : ℕ) (validationFrac : ℚ) (minSamples : ℕ) : Prop :=
  0 < validationFrac ∧ validationFrac < 1 ∧ (minSamples : ℤ) ≤
    length - max (minSamples : ℤ) (DecimalText.roundHalfEven (length * validationFrac))

theorem HasValidation.mono {length length' : ℕ}
    (h : HasValidation length validationFrac minSamples) (hle : length ≤ length') :
    HasValidation length' validationFrac minSamples :=
  ⟨h.1, h.2.1, h.2.2.trans (sub_valSize_mono h.2.1 minSamples hle)⟩

/-- **The rows to fit and those to validate**: the first ones and the last ones, enough of both, or
none to validate. -/
theorem splitTrainValidation_cases (hmin : 0 < minSamples)
    (h : splitTrainValidation train validationFrac minSamples = some (fitTrain, val)) :
    (val ≠ [] ∧ HasValidation train.length validationFrac minSamples ∧ fitTrain ++ val = train ∧
      minSamples ≤ fitTrain.length ∧ minSamples ≤ val.length) ∨
    (val = [] ∧ ¬ HasValidation train.length validationFrac minSamples) := by
  unfold splitTrainValidation at h
  by_cases hnil : train = []
  · rw [if_pos hnil, Option.some_inj, Prod.mk.injEq] at h
    refine .inr ⟨h.2.symm, fun hvalid => ?_⟩
    have hlength := hvalid.2.2
    rw [hnil, List.length_nil] at hlength
    omega
  rw [if_neg hnil] at h
  by_cases hfrac : 0 < validationFrac ∧ validationFrac < 1
  · rw [if_neg (not_not.mpr hfrac)] at h
    dsimp only at h
    set valSize := max (minSamples : ℤ) (DecimalText.roundHalfEven (train.length * validationFrac))
      with hvalSize
    by_cases hshort : (train.length : ℤ) - valSize < minSamples
    · rw [if_pos hshort, Option.some_inj, Prod.mk.injEq] at h
      exact .inr ⟨h.2.symm, fun hvalid => absurd hvalid.2.2 (not_le.mpr hshort)⟩
    · rw [if_neg hshort, Option.some_inj, Prod.mk.injEq] at h
      have hvalLe : (minSamples : ℤ) ≤ valSize := le_max_left _ _
      obtain ⟨splitIdx, hsplitIdx⟩ := Int.eq_ofNat_of_zero_le
        (show 0 ≤ (train.length : ℤ) - valSize by omega)
      have hsplitLe : splitIdx ≤ train.length := by omega
      rw [hsplitIdx] at h
      have hfit : fitTrain = train.take splitIdx := by
        rw [← h.1]
        exact sliceRows_natCast train hsplitLe (Nat.zero_le _)
      have hval : val = train.drop splitIdx := by
        rw [← h.2, sliceRows_natCast train le_rfl hsplitLe, List.take_length]
      have hvalLength : minSamples ≤ val.length := by
        rw [hval, List.length_drop]
        omega
      refine .inl ⟨List.ne_nil_of_length_pos (hmin.trans_le hvalLength),
        ⟨hfrac.1, hfrac.2, not_lt.mp hshort⟩, ?_, ?_, hvalLength⟩
      · rw [hfit, hval, List.take_append_drop]
      · rw [hfit, List.length_take]
        omega
  · rw [if_pos hfrac] at h
    cases h

end Folds

end TradingInfrastructure
