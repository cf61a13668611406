import TradingInfrastructure.Router.ChildOrderScheduler

/-!
# The price of reference

`best_reference_price` scans the venues for the best price of a style: the lowest where the order
waits to sell or takes to buy, and else the highest.
-/

namespace TradingInfrastructure

namespace ChildOrderScheduler

variable {side : Side} {style : ChildExecutionStyle} {venues : VenueQuotes} {i : Fin 4}

/-- A venue counts for the price of reference of a style. -/
def Counts (side : Side) (style : ChildExecutionStyle) (v : VenueQuote) : Prop :=
  v.healthy = true ∧ 0 < v.depthQty ∧ 0 < quotePriceForStyle v side style

/-- A price is at least as good as another for a style. -/
def AsGood (side : Side) (style : ChildExecutionStyle) (px other : ℚ) : Prop :=
  if lowerPriceIsBetter side style then px ≤ other else other ≤ px

theorem AsGood.refl (px : ℚ) : AsGood side style px px := by
  unfold AsGood
  split_ifs <;> exact le_rfl

theorem AsGood.trans {a b c : ℚ} (hab : AsGood side style a b) (hbc : AsGood side style b c) :
    AsGood side style a c := by
  unfold AsGood at *
  split_ifs at * with hlower
  · exact hab.trans hbc
  · exact hbc.trans hab

theorem AsGood.antisymm {a b : ℚ} (hab : AsGood side style a b) (hba : AsGood side style b a) :
    a = b := by
  unfold AsGood at *
  split_ifs at * with hlower
  · exact le_antisymm hab hba
  · exact le_antisymm hba hab

/-- The scan of `best_reference_price` at one venue. -/
def referenceStep (side : Side) (style : ChildExecutionStyle) (venues : VenueQuotes)
    (best : Option ℚ) (i : Fin 4) : Option ℚ :=
  let px := quotePriceForStyle (venues i) side style
  if (venues i).healthy = false ∨ (venues i).depthQty ≤ 0 ∨ px ≤ 0 then best
  else
    match best with
    | none => some px
    | some best => if lowerPriceIsBetter side style then some (min px best) else some (max px best)

theorem bestReferencePrice_eq : bestReferencePrice side style venues =
    ((List.finRange 4).foldl (referenceStep side style venues) none).getD 0 := rfl

theorem referenceStep_of_not_counts (h : ¬Counts side style (venues i)) (best : Option ℚ) :
    referenceStep side style venues best i = best := by
  unfold referenceStep
  refine if_pos ?_
  by_contra hnot
  push Not at hnot
  exact h ⟨by simpa using hnot.1, hnot.2.1, hnot.2.2⟩

/-- At a venue that counts the scan keeps the better of two prices. -/
theorem referenceStep_of_counts (h : Counts side style (venues i)) (best : Option ℚ) :
    ∃ px, referenceStep side style venues best i = some px ∧
      AsGood side style px (quotePriceForStyle (venues i) side style) ∧
      (∀ old ∈ best, AsGood side style px old) ∧
      (px = quotePriceForStyle (venues i) side style ∨ best = some px) := by
  have hcounts : ¬((venues i).healthy = false ∨ (venues i).depthQty ≤ 0 ∨
      quotePriceForStyle (venues i) side style ≤ 0) := by
    rintro (hhealthy | hdepth | hprice)
    · exact absurd h.1 (by simp [hhealthy])
    · exact absurd h.2.1 (not_lt.mpr hdepth)
    · exact absurd h.2.2 (not_lt.mpr hprice)
  unfold referenceStep
  rw [if_neg hcounts]
  cases best with
  | none => exact ⟨_, rfl, AsGood.refl _, by simp, .inl rfl⟩
  | some old =>
    simp only [Option.mem_some_iff, forall_eq', Option.some_inj]
    cases hlower : lowerPriceIsBetter side style with
    | true =>
      refine ⟨_, if_pos rfl, ?_, ?_, ?_⟩
      · simp [AsGood, hlower]
      · simp [AsGood, hlower]
      · exact (min_choice _ _).imp_right Eq.symm
    | false =>
      refine ⟨_, if_neg Bool.false_ne_true, ?_, ?_, ?_⟩
      · simp [AsGood, hlower]
      · simp [AsGood, hlower]
      · exact (max_choice _ _).imp_right Eq.symm

/-- What the scan ends with is at least as good as all that it has seen, and one of them. -/
theorem foldl_referenceStep {l : List (Fin 4)} {best : Option ℚ} :
    let last := l.foldl (referenceStep side style venues) best
    (last = best ∨ ∃ i ∈ l, Counts side style (venues i) ∧
      last = some (quotePriceForStyle (venues i) side style)) ∧
    (∀ old ∈ best, ∃ px ∈ last, AsGood side style px old) ∧
    ∀ i ∈ l, Counts side style (venues i) →
      ∃ px ∈ last, AsGood side style px (quotePriceForStyle (venues i) side style) := by
  induction l generalizing best with
  | nil => exact ⟨.inl rfl, fun old hold => ⟨old, hold, AsGood.refl old⟩, fun i hi => by cases hi⟩
  | cons z l ih =>
    obtain ⟨hlast, hbest, hrest⟩ := @ih (referenceStep side style venues best z)
    simp only [List.foldl_cons]
    by_cases hz : Counts side style (venues z)
    · obtain ⟨px, hstep, hpx, hold, hchoice⟩ := referenceStep_of_counts hz best
      obtain ⟨final, hfinal, hgood⟩ := hbest px hstep
      refine ⟨?_, fun old h => ⟨final, hfinal, hgood.trans (hold old h)⟩, fun i hi hcounts => ?_⟩
      · rcases hlast with hsame | ⟨i, hi, hcounts, heq⟩
        · rw [hsame, hstep]
          rcases hchoice with hnew | hold
          · exact .inr ⟨z, List.mem_cons_self, hz, by rw [hnew]⟩
          · exact .inl hold.symm
        · exact .inr ⟨i, List.mem_cons_of_mem z hi, hcounts, heq⟩
      · rcases List.mem_cons.mp hi with rfl | hi
        · exact ⟨final, hfinal, hgood.trans hpx⟩
        · exact hrest i hi hcounts
    · rw [referenceStep_of_not_counts hz] at hlast hbest hrest ⊢
      refine ⟨?_, hbest, fun i hi hcounts => ?_⟩
      · rcases hlast with hsame | ⟨i, hi, hcounts, heq⟩
        · exact .inl hsame
        · exact .inr ⟨i, List.mem_cons_of_mem z hi, hcounts, heq⟩
      · rcases List.mem_cons.mp hi with rfl | hi
        · exact absurd hcounts hz
        · exact hrest i hi hcounts

/-- **The price of reference** is the best price of the venues that count. -/
theorem eq_bestReferencePrice_iff (h : Counts side style (venues i)) :
    quotePriceForStyle (venues i) side style = bestReferencePrice side style venues ↔
      ∀ j, Counts side style (venues j) → AsGood side style
        (quotePriceForStyle (venues i) side style) (quotePriceForStyle (venues j) side style) := by
  obtain ⟨hlast, -, hall⟩ := @foldl_referenceStep side style venues (List.finRange 4) none
  obtain ⟨px, hpx, hgood⟩ := hall i (List.mem_finRange i) h
  have hbest : bestReferencePrice side style venues = px := by
    rw [bestReferencePrice_eq, Option.mem_def.mp hpx]
    rfl
  rw [hbest]
  constructor
  · intro heq j hj
    obtain ⟨px', hpx', hgood'⟩ := hall j (List.mem_finRange j) hj
    obtain rfl := Option.mem_unique hpx hpx'
    rwa [heq]
  · intro hbetter
    rcases hlast with hnone | ⟨j, -, hj, heq⟩
    · rw [hnone] at hpx
      cases hpx
    · obtain rfl : px = quotePriceForStyle (venues j) side style :=
        Option.mem_unique hpx (by rw [heq]; rfl)
      exact (hbetter j hj).antisymm hgood

/-- There is a price of reference where a venue counts. -/
theorem bestReferencePrice_pos_iff :
    0 < bestReferencePrice side style venues ↔ ∃ i, Counts side style (venues i) := by
  obtain ⟨hlast, -, hall⟩ := @foldl_referenceStep side style venues (List.finRange 4) none
  rw [bestReferencePrice_eq]
  constructor
  · intro hpos
    rcases hlast with hnone | ⟨i, -, hi, -⟩
    · rw [hnone] at hpos
      exact absurd hpos (lt_irrefl _)
    · exact ⟨i, hi⟩
  · rintro ⟨i, hi⟩
    obtain ⟨px, hpx, -⟩ := hall i (List.mem_finRange i) hi
    rcases hlast with hnone | ⟨j, -, hj, heq⟩
    · rw [hnone] at hpx
      cases hpx
    · rw [heq]
      exact hj.2.2

end ChildOrderScheduler

end TradingInfrastructure
