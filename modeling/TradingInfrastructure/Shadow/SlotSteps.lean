import TradingInfrastructure.Shadow.Connector

/-!
# What the connector does to a slot

Every operation of the shadow connector visits its slots one by one, and each visit does one of
four things (`SlotStep`): it leaves the accounts and the filled quantity alone, books a fill, or
cancels or rejects the order. A limit order is never rejected, as it is only visited when the
other side of the book has a price, and then the other side has a size at that price.
-/

namespace TradingInfrastructure

/-- Booking a fill emits nothing. -/
@[simp] theorem ShadowAccounts.updates_bookFill (a : ShadowAccounts) (f : ShadowFill)
    (opened : Bool) (now : ℤ) : (a.bookFill f opened now).updates = a.updates := by
  simp only [ShadowAccounts.bookFill, ShadowAccounts.applyPositionFill]
  split_ifs <;> rfl

namespace ShadowOrder

theorem fillTolerance_pos : 0 < fillTolerance := by
  norm_num [fillTolerance]

/-- The quantity that `fill_passive_or_cross` finds for an order: its share of the size at the
best price of the other side, less what the queue ahead of the order takes. -/
def matchableQty (cfg : ShadowConfig) (book : OrderBook) (s : ShadowOrder) : ℚ :=
  let available := topOppositeSize book s.side * cfg.queueMatchFractionPerCheck
  available - s.consumedByQueue available

/-- What a visit to the slot `s` does, with the accounts `a`. It cancels the order only if
`cancels` holds, and fills a part of it only if `crosses` does. -/
inductive SlotStep (cfg : ShadowConfig) (book : OrderBook) (now : ℤ) (cancels crosses : Prop)
    (a : ShadowAccounts) (s : ShadowOrder) : ShadowAccounts × ShadowOrder → Prop
  /-- Nothing is emitted, and the order is dropped only when nothing of it remains. -/
  | quiet (queueAhead : ℚ) (maker active : Bool) (hactive : active = true → s.active = true)
      (hdrop : s.active = true → active = true ∨ s.quantity - s.filledQty ≤ 0) :
      SlotStep cfg book now cancels crosses a s
        (a, { s with queueAheadQty := queueAhead, isMaker := maker, active := active })
  /-- A fill of an active order, of all that remains or of what the book offers. -/
  | fill (queueAhead fillPx fillQty : ℚ) (hactive : s.active = true) (hpos : 0 < fillQty)
      (hle : fillQty ≤ s.quantity - s.filledQty)
      (hqty : fillQty = s.quantity - s.filledQty ∨
        (crosses ∧ s.type ≠ .market ∧ fillQty = s.matchableQty cfg book)) :
      SlotStep cfg book now cancels crosses a s
        ({ s with queueAheadQty := queueAhead }.applyFill cfg now a fillPx fillQty)
  /-- A cancel of an active order. -/
  | cancel (hactive : s.active = true) (hcancels : cancels) :
      SlotStep cfg book now cancels crosses a s (s.cancelAt now a)
  /-- A reject of an active market order, or of an order at its submission. -/
  | reject (reason : CString) (hactive : s.active = true)
      (hmarket : s.type = .market ∨ s.filledQty = 0) :
      SlotStep cfg book now cancels crosses a s (s.rejectWith reason now a)

variable {cfg : ShadowConfig} {book : OrderBook} {now : ℤ} {cancels crosses : Prop}
  {a : ShadowAccounts}
  {s : ShadowOrder}

theorem SlotStep.refl : SlotStep cfg book now cancels crosses a s (a, s) :=
  .quiet s.queueAheadQty s.isMaker s.active id Or.inl

/-- Where the other side has a price, it has a size at that price. -/
theorem topOppositeSize_pos (h : 0 < oppositeBest book s.side) :
    0 < topOppositeSize book s.side := by
  have hside : ∀ side, 0 < book.bestPrice side →
      0 < ((book.topLevels side 1).head?.map PriceLevel.size).getD 0 := by
    intro side hbest
    unfold OrderBook.bestPrice at hbest
    split at hbest
    · next i hi =>
      have hsize : 0 < (book.grid side).size i := by
        simpa using List.find?_some hi
      simpa [OrderBook.topLevels, List.head?_map, List.head?_take, List.head?_filter, hi,
        OrderBook.levelAt] using hsize
    · exact absurd hbest (lt_irrefl 0)
  unfold oppositeBest at h
  unfold topOppositeSize
  cases hs : s.side with
  | bid =>
    rw [hs] at h
    exact hside .ask h
  | ask =>
    rw [hs] at h
    exact hside .bid h

/-- An order that is not a market order is fillable only where the other side has a price. -/
theorem oppositeBest_pos (htype : s.type ≠ .market) (h : s.isImmediatelyFillable book = true) :
    0 < oppositeBest book s.side := by
  unfold isImmediatelyFillable at h
  unfold oppositeBest
  cases ht : s.type with
  | market => exact absurd ht htype
  | limit => cases hs : s.side <;> simp [ht, hs] at h <;> exact h.1
  | stopLimit => cases hs : s.side <;> simp [ht, hs] at h <;> exact h.1

/-- `fill_at_best` with all that remains. -/
theorem fillAtBest_step (hactive : s.active = true)
    (hreject : s.type = .market ∨ s.filledQty = 0) :
    SlotStep cfg book now cancels crosses a s
      (s.fillAtBest cfg book now a (s.quantity - s.filledQty)) := by
  unfold fillAtBest
  split
  · exact .refl
  · next hpos =>
    split
    · exact .reject _ hactive hreject
    · exact .fill s.queueAheadQty _ _ hactive (not_le.mp hpos) le_rfl (Or.inl rfl)

/-- `fill_passive_or_cross` of an order that is fillable. -/
theorem fillPassiveOrCross_step (hactive : s.active = true) (htype : s.type ≠ .market)
    (hbest : 0 < oppositeBest book s.side) (hcrosses : crosses) :
    SlotStep cfg book now cancels crosses a s (s.fillPassiveOrCross cfg book now a) := by
  have htop := not_le.mpr (topOppositeSize_pos hbest)
  simp only [fillPassiveOrCross, htop, if_false]
  split
  · next hrem =>
    exact .quiet s.queueAheadQty s.isMaker false (fun h => by cases h) fun _ => Or.inr hrem
  · next hrem =>
    split
    · exact .quiet _ s.isMaker s.active id Or.inl
    · next hav =>
      have hqty : ∀ qty : ℚ, 0 < qty → qty ≤ s.quantity - s.filledQty →
          (qty = s.quantity - s.filledQty ∨ qty = s.matchableQty cfg book) → ∀ queueAhead,
          SlotStep cfg book now cancels crosses a s
            ({ s with queueAheadQty := queueAhead }.fillAtBest cfg book now a qty) := by
        intro qty hpos hle hq queueAhead
        simp only [fillAtBest, not_le.mpr hpos, not_le.mpr hbest, if_false]
        exact .fill queueAhead _ qty hactive hpos hle (hq.imp id fun h => ⟨hcrosses, htype, h⟩)
      split
      · exact hqty _ (not_le.mp hrem) le_rfl (Or.inl rfl) _
      · next hlt => exact hqty _ (not_le.mp hav) (not_lt.mp hlt) (Or.inr rfl) _

/-! ## The loops -/

/-- The orders that `check_fills` cancels. -/
def ExpiresAt (book : OrderBook) (now : ℤ) (s : ShadowOrder) : Prop :=
  s.releaseTsNs ≤ now ∧ s.type ≠ .market ∧ s.tif = .ioc ∧ s.isImmediatelyFillable book = false

/-- The orders that `check_fills` matches with the book. -/
def CrossesAt (book : OrderBook) (now : ℤ) (s : ShadowOrder) : Prop :=
  s.releaseTsNs ≤ now ∧ s.type ≠ .market ∧ s.isImmediatelyFillable book = true

instance (s : ShadowOrder) (book : OrderBook) (now : ℤ) : Decidable (s.ExpiresAt book now) :=
  inferInstanceAs (Decidable (_ ∧ _ ∧ _ ∧ _))

instance (s : ShadowOrder) (book : OrderBook) (now : ℤ) : Decidable (s.CrossesAt book now) :=
  inferInstanceAs (Decidable (_ ∧ _ ∧ _))

theorem checkFill_step : SlotStep cfg book now (s.ExpiresAt book now) (s.CrossesAt book now) a s
    (s.checkFill cfg book now a) := by
  unfold checkFill
  split
  · exact .refl
  · next hskip =>
    simp only [Bool.or_eq_true, Bool.not_eq_true', decide_eq_true_eq, not_or, Bool.not_eq_false,
      not_lt] at hskip
    obtain ⟨hactive, hreleased⟩ := hskip
    split
    · next htype => exact fillAtBest_step hactive (Or.inl htype)
    · next htype =>
      simp only
      split
      · next hioc =>
        simp only [Bool.and_eq_true, decide_eq_true_eq, Bool.not_eq_true'] at hioc
        exact .cancel hactive ⟨hreleased, htype, hioc⟩
      · split
        · next hfillable =>
          exact fillPassiveOrCross_step hactive htype (oppositeBest_pos htype hfillable)
            ⟨hreleased, htype, hfillable⟩
        · exact .refl

theorem cancelMatching_step (symbol : CString) :
    SlotStep cfg book now (strncmpEq 15 s.symbol.chars symbol = true) False a s
      (s.cancelMatching symbol now a) := by
  unfold cancelMatching
  split
  · next h =>
    rw [Bool.and_eq_true] at h
    exact .cancel h.1 h.2
  · exact .refl

end ShadowOrder

namespace ShadowConnector

theorem placeOrder_step {cfg : ShadowConfig} {book : OrderBook} {now : ℤ} {a : ShadowAccounts}
    {s : ShadowOrder} (hactive : s.active = true) (hfresh : s.filledQty = 0) :
    s.SlotStep cfg book now False False a (placeOrder cfg book now a s) := by
  unfold placeOrder
  simp only
  split
  · have h : s.SlotStep cfg book now False False a
        (s.fillAtBest cfg book now a (s.quantity - s.filledQty)) :=
      ShadowOrder.fillAtBest_step hactive (Or.inr hfresh)
    rwa [hfresh, sub_zero] at h
  · exact .quiet s.queueAheadQty true s.active id Or.inl

end ShadowConnector

end TradingInfrastructure
