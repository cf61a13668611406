import TradingInfrastructure.OrderBook.Bounds

/-!
# Deletes

A delta with size zero deletes the level at its price. When the price is in the grid, the readers
return what they returned before without the level of its slot. When it is not, there is nothing to
delete, but the delta may still move the grid: then levels of both sides may leave it, and the
others may change their prices. It deletes one level at most exactly when it does not move the
grid, or no level leaves it and the prices stay (`deletesOne_iff`).
-/

namespace TradingInfrastructure

/-- A slot of a side is visited before another one. -/
def Side.Before : Side → ℕ → ℕ → Prop
  | .bid, i, j => j < i
  | .ask, i, j => i < j

instance (side : Side) : Std.Irrefl side.Before :=
  ⟨fun i h => by cases side <;> exact lt_irrefl i h⟩

instance (side : Side) : Std.Antisymm side.Before :=
  ⟨fun i j h h' => by cases side <;> exact absurd h' (lt_asymm h)⟩

namespace OrderBook

variable {b b' : OrderBook} {d : Delta} {side : Side} {anchor : ℚ} {i j : ℕ}

/-- What the readers return after the delta is what they returned before, without the level of the
slot of its price on its side, if that. -/
def DeletesOne (b : OrderBook) (d : Delta) : Prop :=
  ∀ side, ∃ rest : List PriceLevel,
    (rest = b.levels side ∨ side = d.side ∧ ∃ i, b.priceToIndex d.price = some i ∧
      rest = (b.levels side).filter fun level => level.price ≠ b.indexToPrice i) ∧
    ∀ n, (b.applyDelta d).2.topLevels side n = rest.take n

/-- Moving the grid changes no level: each slot that has something stays, and the anchor is on a
tick of the grid, unless both sides are empty. -/
def KeepsLevels (b : OrderBook) (anchor : ℚ) : Prop :=
  (∀ side, ∀ i ∈ b.filled side, b.Stays anchor i) ∧
    (b.offset anchor = 0 ∨ ∀ side, b.filled side = [])

theorem forall_take_iff {xs ys : List PriceLevel} :
    (∀ n, xs.take n = ys.take n) ↔ xs = ys := by
  refine ⟨fun h => ?_, fun h n => by rw [h]⟩
  have hall := h (max xs.length ys.length)
  rwa [List.take_of_length_le (le_max_left _ _), List.take_of_length_le (le_max_right _ _)] at hall

/-- **Where the price has no slot**, nothing may change. -/
theorem deletesOne_iff_of_none (h : b.priceToIndex d.price = none) :
    b.DeletesOne d ↔ ∀ side, (b.applyDelta d).2.levels side = b.levels side := by
  unfold DeletesOne
  refine forall_congr' fun side => ?_
  simp only [h, topLevels_eq, reduceCtorEq, false_and, exists_false, and_false, or_false,
    exists_eq_left]
  exact forall_take_iff

/-! ## Books of the same levels -/

/-- Books with the same window and the same sizes and counts have the same levels. -/
theorem levels_congr (hw : SameWindow b' b)
    (hcell : ∀ i < b.activeLevels, (b'.grid side).cell i = (b.grid side).cell i) :
    b'.levels side = b.levels side := by
  have hslots : b'.slotsFromTouch side = b.slotsFromTouch side := by
    cases side <;> simp only [slotsFromTouch, hw.activeLevels]
  have hsize : ∀ i ∈ b.slotsFromTouch side, (b'.grid side).size i = (b.grid side).size i :=
    fun i hi => congrArg Prod.fst (hcell i (mem_slotsFromTouch.mp hi))
  have hfilled : b'.filled side = b.filled side := by
    rw [filled, filled, hslots]
    exact List.filter_congr fun i hi => by rw [hsize i hi]
  rw [levels, levels, hfilled]
  refine List.map_congr_left fun i hi => ?_
  have hi' := hcell i (mem_filled.mp hi).1
  rw [levelAt, levelAt, hw.indexToPrice]
  exact congrArg₂ (PriceLevel.mk _) (congrArg Prod.fst hi') (congrArg Prod.snd hi')

theorem Fitted.indexToPrice_inj (h : b.Fitted) : b.indexToPrice i = b.indexToPrice j ↔ i = j := by
  rw [indexToPrice, indexToPrice, add_right_inj, mul_left_inj' h.tick_pos.ne', Nat.cast_inj]

theorem slotsFromTouch_congr (hw : SameWindow b' b) (side : Side) :
    b'.slotsFromTouch side = b.slotsFromTouch side := by
  cases side <;> simp only [slotsFromTouch, hw.activeLevels]

/-- **A slot with nothing** is as good as none. -/
theorem Fitted.levels_storeDelta_zero (h : b.Fitted) (hsize : d.size = 0)
    (hi : i < b.activeLevels) : (b.storeDelta d i).levels d.side =
      (b.levels d.side).filter fun level => level.price ≠ b.indexToPrice i := by
  have hw := b.sameWindow_storeDelta d i
  have hcell := h.cell_storeDelta d hi d.side
  have hfilled : (b.storeDelta d i).filled d.side = (b.filled d.side).filter (· ≠ i) := by
    rw [filled, filled, slotsFromTouch_congr hw, List.filter_filter]
    refine List.filter_congr fun j _ => ?_
    have hj := congrArg Prod.fst (hcell j)
    rcases eq_or_ne j i with rfl | hne
    · rw [if_pos ⟨rfl, rfl⟩] at hj
      have hzero : ((b.storeDelta d j).grid d.side).size j = 0 := hj.trans hsize
      simp [hzero]
    · rw [if_neg fun hboth => hne hboth.2] at hj
      have hsame : ((b.storeDelta d i).grid d.side).size j = (b.grid d.side).size j := hj
      simp [hsame, hne]
  rw [levels, levels, hfilled, List.filter_map]
  have hprice : (b.filled d.side).filter (· ≠ i) = (b.filled d.side).filter
      ((fun level : PriceLevel => decide (level.price ≠ b.indexToPrice i)) ∘ b.levelAt d.side) :=
    List.filter_congr fun j _ => by simp [levelAt, h.indexToPrice_inj]
  rw [← hprice]
  refine List.map_congr_left fun j hj => ?_
  have hne : j ≠ i := by simpa using (List.mem_filter.mp hj).2
  have hj' := hcell j
  rw [if_neg fun hboth => hne hboth.2] at hj'
  rw [levelAt, levelAt, hw.indexToPrice]
  exact congrArg₂ (PriceLevel.mk _) (congrArg Prod.fst hj') (congrArg Prod.snd hj')

/-! ## The levels of a moved grid -/

theorem filled_pairwise (b : OrderBook) (side : Side) : (b.filled side).Pairwise side.Before := by
  refine List.Pairwise.filter _ ?_
  cases side
  · rw [slotsFromTouch, List.pairwise_reverse]
    exact List.pairwise_lt_range
  · exact List.pairwise_lt_range

/-- **The slots of the moved grid** that have something are those that stay. -/
theorem Fitted.filled_recenterGrid (h : b.Fitted) (hinit : b.initialized = true)
    (hout : b.priceToIndex anchor = none) (side : Side) :
    (b.recenterGrid anchor).filled side =
      ((b.filled side).filter fun i => b.Stays anchor i).map fun i =>
        (b.moveSlot anchor i).toNat := by
  refine ((b.recenterGrid anchor).filled_pairwise side).eq_of_mem_iff ?_ fun j => ?_
  · rw [List.pairwise_map]
    have hstays : ((b.filled side).filter fun i => b.Stays anchor i).Pairwise side.Before :=
      (b.filled_pairwise side).filter _
    refine hstays.imp_of_mem fun {i j} hi hj hbefore => ?_
    have hi' : b.Stays anchor i := of_decide_eq_true (List.mem_filter.mp hi).2
    have hj' : b.Stays anchor j := of_decide_eq_true (List.mem_filter.mp hj).2
    unfold Stays moveSlot at hi' hj'
    unfold moveSlot
    cases side <;> simp only [Side.Before] at hbefore ⊢ <;> omega
  · rw [h.mem_filled_recenterGrid hinit hout, List.mem_map]
    simp only [List.mem_filter, decide_eq_true_eq, and_assoc]

/-- **The levels of the moved grid** are those that stay, at prices that have moved by what the
anchor is off the ticks. -/
theorem Fitted.levels_recenterGrid (h : b.Fitted) (hinit : b.initialized = true)
    (hout : b.priceToIndex anchor = none) (side : Side) :
    (b.recenterGrid anchor).levels side =
      ((b.filled side).filter fun i => b.Stays anchor i).map fun i =>
        { b.levelAt side i with price := b.indexToPrice i + b.offset anchor } := by
  rw [levels, h.filled_recenterGrid hinit hout, List.map_map]
  refine List.map_congr_left fun i hi => ?_
  obtain ⟨hfilled, hstays⟩ := List.mem_filter.mp hi
  have hstays' : b.Stays anchor i := of_decide_eq_true hstays
  have hcell := h.cell_moveSlot hinit hout side (mem_filled.mp hfilled).1 hstays'
  rw [Function.comp_apply, levelAt, indexToPrice_moveSlot b hstays']
  exact congrArg₂ (PriceLevel.mk _) (congrArg Prod.fst hcell) (congrArg Prod.snd hcell)

/-- Storing a delete in the middle of the moved grid changes no level: there is nothing. -/
theorem Recenters.levels_applyDelta (hmoves : b.Recenters d) (h : b.Fitted) (hsize : d.size = 0)
    (side : Side) :
    (b.applyDelta d).2.levels side = (b.recenterGrid d.price).levels side := by
  have hmid : b.activeLevels / 2 < b.activeLevels := Nat.div_lt_self h.active_pos (by omega)
  have hmoved : (b.recenterGrid d.price).Fitted := ⟨h.recenterGrid d.price, h.active_le⟩
  rw [hmoves.applyDelta h.toSized, moveAndStore]
  by_cases hside : side = d.side
  · subst hside
    rw [hmoved.levels_storeDelta_zero hsize hmid, List.filter_eq_self]
    intro level hlevel
    obtain ⟨j, hj, rfl⟩ := List.mem_map.mp hlevel
    rw [h.filled_recenterGrid hmoves.initialized hmoves.outside] at hj
    obtain ⟨i, hi, rfl⟩ := List.mem_map.mp hj
    obtain ⟨hfilled, hstays⟩ := List.mem_filter.mp hi
    have hstays' : b.Stays d.price i := of_decide_eq_true hstays
    refine decide_eq_true fun hprice => moveSlot_ne_middle hmoves.initialized hmoves.outside
      (mem_filled.mp hfilled).1 ?_
    rw [← hmoved.indexToPrice_inj.mp hprice, Int.toNat_of_nonneg hstays'.1]
  · refine levels_congr (sameWindow_storeDelta _ d _) fun j _ => ?_
    rw [hmoved.cell_storeDelta d hmid, if_neg fun hboth => hside hboth.1]

/-- **Moving the grid keeps all levels** exactly when no slot with something leaves it and the
anchor is on a tick. -/
theorem Recenters.levels_eq_iff (hmoves : b.Recenters d) (h : b.Fitted) (hsize : d.size = 0) :
    (∀ side, (b.applyDelta d).2.levels side = b.levels side) ↔ b.KeepsLevels d.price := by
  simp only [hmoves.levels_applyDelta h hsize,
    h.levels_recenterGrid hmoves.initialized hmoves.outside]
  constructor
  · intro hsame
    have hstays : ∀ side, ∀ i ∈ b.filled side, b.Stays d.price i := by
      intro side i hi
      have hlength := congrArg List.length (hsame side)
      rw [List.length_map, levels, List.length_map, List.length_filter_eq_length_iff] at hlength
      exact of_decide_eq_true (hlength i hi)
    refine ⟨hstays, ?_⟩
    by_contra hneither
    obtain ⟨hoff, hempty⟩ := not_or.mp hneither
    obtain ⟨side, hside⟩ := not_forall.mp hempty
    obtain ⟨i, hi⟩ := List.exists_mem_of_ne_nil _ hside
    have hall : ((b.filled side).filter fun i => b.Stays d.price i) = b.filled side :=
      List.filter_eq_self.mpr fun i hi => decide_eq_true (hstays side i hi)
    have hmap := hsame side
    rw [hall, levels, List.map_inj_left] at hmap
    have hprice := congrArg PriceLevel.price (hmap i hi)
    exact hoff (left_eq_add.mp hprice.symm)
  · rintro ⟨hstays, hoff⟩ side
    have hall : ((b.filled side).filter fun i => b.Stays d.price i) = b.filled side :=
      List.filter_eq_self.mpr fun i hi => decide_eq_true (hstays side i hi)
    rw [hall, levels]
    rcases hoff with hoff | hempty
    · refine List.map_congr_left fun i _ => ?_
      rw [hoff, add_zero]
      rfl
    · rw [hempty side]
      rfl

theorem Fitted.deletesOne_initialized_iff (h : b.Fitted) (hinit : b.initialized = true) (hsize : d.size = 0) :
    b.DeletesOne d ↔ (b.Recenters d → b.KeepsLevels d.price) := by
  rcases h.applyDelta_cases hinit d with ⟨hskip, he⟩ | ⟨hadmits, i, hi, he⟩ |
    ⟨hadmits, hout, hstays, he⟩ | ⟨hmoves, he⟩
  · refine iff_of_true (fun side => ⟨_, Or.inl rfl, fun n => ?_⟩)
      fun hmoves => absurd hmoves.toAdmits hskip
    rw [he, topLevels_eq]
  · refine iff_of_true (fun side => ?_) fun hmoves => ?_
    · have hi' := ((priceToIndex_eq_some_iff hinit).mp hi).2
      by_cases hside : side = d.side
      · subst hside
        refine ⟨_, Or.inr ⟨rfl, i, hi, rfl⟩, fun n => ?_⟩
        rw [he, topLevels_eq, h.levels_storeDelta_zero hsize hi']
      · refine ⟨_, Or.inl rfl, fun n => ?_⟩
        rw [he, topLevels_eq, levels_congr (b.sameWindow_storeDelta d i) fun j _ => by
          rw [h.cell_storeDelta d hi', if_neg fun hboth => hside hboth.1]]
    · rw [hmoves.outside] at hi
      cases hi
  · refine iff_of_true (fun side => ⟨_, Or.inl rfl, fun n => ?_⟩) fun hmoves => absurd hmoves hstays
    obtain ⟨hw, hg⟩ := b.sameWindow_skipDelta d
    rw [he, topLevels_eq, levels_congr hw fun i _ => by rw [hg]]
  · rw [deletesOne_iff_of_none hmoves.outside, hmoves.levels_eq_iff h hsize, imp_iff_right hmoves]

/-- **A delete removes one level at most** exactly when it does not move the grid, or the move
changes no level: in every book that a run reaches whose levels have room. -/
theorem deletesOne_iff (bytesOf : ℚ → List UInt8) {tick : ℚ} {maxLevels : ℕ} (ht : 0 < tick)
    (hmax : 1 ≤ maxLevels) {calls : List BookCall}
    (hroom : AllSteps (call bytesOf) (RoomFor bytesOf) (new tick maxLevels) calls)
    (hinit : (calls.foldl (call bytesOf) (new tick maxLevels)).initialized = true)
    (hsize : d.size = 0) :
    (calls.foldl (call bytesOf) (new tick maxLevels)).DeletesOne d ↔
      ((calls.foldl (call bytesOf) (new tick maxLevels)).Recenters d →
        (calls.foldl (call bytesOf) (new tick maxLevels)).KeepsLevels d.price) :=
  (fitted_run ht hmax hroom).deletesOne_initialized_iff hinit hsize

/-! ## A delete beyond the grid -/

/-- The bid at 100 is deleted, and nothing else. -/
theorem deletesOne_atTouch : ([BookCall.snapshot touchSnapshot].foldl (call fun _ => [])
    (new 1 4)).DeletesOne { farDelta with price := 100, size := 0 } := by
  have hroom : AllSteps (call fun _ => []) (RoomFor fun _ => []) (new 1 4)
      [.snapshot touchSnapshot] := And.intro (fun _ => Or.inl (by decide : 2 ≤ 4)) trivial
  refine (deletesOne_iff (fun _ => []) (by norm_num) (by decide) hroom
    (by decide +kernel) rfl).mpr fun hmoves => ?_
  exact absurd hmoves.outside (by decide +kernel)

/-- **A delete far above the grid** moves it, and the bid at 100 and the ask at 101 are gone. -/
theorem farDelete_clears : atTouchBook.getTopLevels 5 = ([⟨100, 1, 1⟩], [⟨101, 2, 1⟩]) ∧
    (atTouchBook.applyDelta { farDelta with size := 0 }).2.getTopLevels 5 = ([], []) ∧
    ¬ atTouchBook.DeletesOne { farDelta with size := 0 } := by
  have hbefore : atTouchBook.getTopLevels 5 = ([⟨100, 1, 1⟩], [⟨101, 2, 1⟩]) := by decide +kernel
  have hafter : (atTouchBook.applyDelta { farDelta with size := 0 }).2.getTopLevels 5 =
    ([], []) := by decide +kernel
  refine ⟨hbefore, hafter, fun h => ?_⟩
  rw [deletesOne_iff_of_none (by decide +kernel)] at h
  have hlevels := topLevels_eq (atTouchBook.applyDelta { farDelta with size := 0 }).2 .bid 5
  rw [h .bid, ← topLevels_eq] at hlevels
  exact absurd ((congrArg Prod.fst hafter).symm.trans
    (hlevels.trans (congrArg Prod.fst hbefore))) (List.cons_ne_nil _ _).symm

end OrderBook

end TradingInfrastructure
