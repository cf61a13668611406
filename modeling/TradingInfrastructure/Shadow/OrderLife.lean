import TradingInfrastructure.Shadow.Lifecycle

/-!
# The visits to one order

`submit_order` places an order in a slot, and every `check_fills` visits the slot. What a visit
does to the slot, and what it emits and logs, depends on the slot, the book and the time only, so
an order has a life of its own (`ShadowOrder.life`), whatever the other slots hold and whatever the
other calls do (`ShadowConnector.slot_life`).
-/

namespace TradingInfrastructure

/-- A visit to the slot of an order. -/
structure ShadowVisit where
  book : OrderBook
  now : ℤ
  before : ShadowOrder
  after : ShadowOrder
  /-- The quantity that is taken to the best price of the other side. -/
  matched : ℚ
  emitted : List FillUpdate
  logged : List ShadowFill

/-- The visit comes to an active order, at its release or later. -/
def ShadowVisit.Released (v : ShadowVisit) : Prop :=
  v.before.active = true ∧ v.before.releaseTsNs ≤ v.now

/-- The order has a price, which crosses the best price of the other side. -/
def ShadowVisit.Crosses (v : ShadowVisit) : Prop :=
  v.before.type ≠ .market ∧ v.before.isImmediatelyFillable v.book = true

/-- The visit fills something. -/
def ShadowVisit.Fills (v : ShadowVisit) : Prop :=
  0 < v.matched ∧ 0 < ShadowOrder.oppositeBest v.book v.before.side

instance (v : ShadowVisit) : Decidable v.Released := inferInstanceAs (Decidable (_ ∧ _))

instance (v : ShadowVisit) : Decidable v.Crosses := inferInstanceAs (Decidable (_ ∧ _))

instance (v : ShadowVisit) : Decidable v.Fills := inferInstanceAs (Decidable (_ ∧ _))

namespace ShadowOrder

variable (cfg : ShadowConfig)

/-- The quantity that `check_fills` takes to the best price. -/
def matchedQty (book : OrderBook) (now : ℤ) (s : ShadowOrder) : ℚ :=
  if s.active = true ∧ s.releaseTsNs ≤ now then
    if s.type = .market then s.quantity - s.filledQty
    else if s.isImmediatelyFillable book then
      min (s.quantity - s.filledQty) (s.matchableQty cfg book)
    else 0
  else 0

/-- The quantity that `submit_order` takes to the best price. -/
def placedQty (book : OrderBook) (s : ShadowOrder) : ℚ :=
  if s.releaseTsNs ≤ s.submitTsNs ∧ s.isImmediatelyFillable book = true then s.quantity else 0

/-- The visit of `submit_order`. -/
def placement (book : OrderBook) (now : ℤ) (order : Order) : ShadowVisit :=
  let s := ShadowConnector.newOrder cfg book now order
  let r := ShadowConnector.placeOrder cfg book now {} s
  { book, now, before := s, after := r.2, matched := s.placedQty book, emitted := r.1.updates
    logged := r.1.fillLog }

/-- A visit of `check_fills`. -/
def check (s : ShadowOrder) (x : OrderBook × ℤ) : ShadowVisit :=
  let r := s.checkFill cfg x.1 x.2 {}
  { book := x.1, now := x.2, before := s, after := r.2, matched := s.matchedQty cfg x.1 x.2
    emitted := r.1.updates, logged := r.1.fillLog }

/-- The visits of some calls of `check_fills`. -/
def checks : ShadowOrder → List (OrderBook × ℤ) → List ShadowVisit
  | _, [] => []
  | s, x :: xs => s.check cfg x :: checks (s.check cfg x).after xs

/-- The visits to an order: its submission, and the calls of `check_fills` after it. -/
def life (book : OrderBook) (now : ℤ) (order : Order) (xs : List (OrderBook × ℤ)) :
    List ShadowVisit :=
  placement cfg book now order :: checks cfg (placement cfg book now order).after xs

end ShadowOrder

/-! ## What a visit does -/

/-- The slot with another queue ahead of the order. -/
def ShadowOrder.withQueue (s : ShadowOrder) (queueAhead : ℚ) : ShadowOrder :=
  { s with queueAheadQty := queueAhead }

/-- The slot with other marks: whether the order is a maker, and whether it is active. -/
def ShadowOrder.withMarks (s : ShadowOrder) (maker active : Bool) : ShadowOrder :=
  { s with isMaker := maker, active := active }

/-- What a visit does, from what it matches. -/
structure ShadowVisit.Spec (cfg : ShadowConfig) (v : ShadowVisit) : Prop where
  /-- What is matched is filled. -/
  fills : v.Fills → ∃ queueAhead,
    let s := v.before.withQueue queueAhead
    let px := ShadowOrder.applySlippage cfg v.book (ShadowOrder.oppositeBest v.book v.before.side)
      v.matched v.before.side
    v.after = s.filledBy px v.matched ∧
      v.emitted = [(s.filledBy px v.matched).fillUpdate px v.matched v.now] ∧
      v.logged = [⟨v.before.side, px, v.matched,
        v.before.feeFor cfg / 10000 * px * v.matched⟩]
  /-- Nothing is filled. -/
  idle : ¬ v.Fills → (∀ u ∈ v.emitted, u.fillQty = 0) ∧ v.logged = [] ∧
    ∃ queueAhead maker active, (active = true → v.before.active = true) ∧
      v.after = (v.before.withQueue queueAhead).withMarks maker active

namespace ShadowOrder

variable {cfg : ShadowConfig} {book : OrderBook} {now : ℤ} {s : ShadowOrder} {a : ShadowAccounts}

/-- What `fill_at_best` does with a positive quantity, where the other side has a price. -/
theorem fillAtBest_of_pos {qty : ℚ} (hqty : 0 < qty) (hbest : 0 < oppositeBest book s.side) :
    s.fillAtBest cfg book now a qty =
      ((a.bookFill ⟨s.side, applySlippage cfg book (oppositeBest book s.side) qty s.side, qty,
          s.feeFor cfg / 10000 * applySlippage cfg book (oppositeBest book s.side) qty s.side *
            qty⟩ (s.filledQty ≤ fillTolerance) now).emit
        ((s.filledBy (applySlippage cfg book (oppositeBest book s.side) qty s.side) qty).fillUpdate
          (applySlippage cfg book (oppositeBest book s.side) qty s.side) qty now),
        s.filledBy (applySlippage cfg book (oppositeBest book s.side) qty s.side) qty) := by
  simp only [fillAtBest, applyFill, not_le.mpr hqty, not_le.mpr hbest, if_false]
  rfl

/-- What `fill_at_best` does else: nothing, or a reject. -/
theorem fillAtBest_of_not (cfg : ShadowConfig) (now : ℤ) (a : ShadowAccounts) {qty : ℚ}
    (h : ¬ (0 < qty ∧ 0 < oppositeBest book s.side)) :
    (qty ≤ 0 ∧ s.fillAtBest cfg book now a qty = (a, s)) ∨
      (0 < qty ∧ s.fillAtBest cfg book now a qty =
        s.rejectWith "no_liquidity".toList now a) := by
  rw [fillAtBest]
  split
  · next hqty => exact Or.inl ⟨hqty, rfl⟩
  · next hqty =>
    rw [if_pos (not_lt.mp fun hbest => h ⟨not_le.mp hqty, hbest⟩)]
    exact Or.inr ⟨not_le.mp hqty, rfl⟩

/-- What `fill_passive_or_cross` does where the other side has a price. -/
theorem fillPassiveOrCross_cases (cfg : ShadowConfig) (now : ℤ) (a : ShadowAccounts)
    (hbest : 0 < oppositeBest book s.side) :
    (s.quantity - s.filledQty ≤ 0 ∧
        s.fillPassiveOrCross cfg book now a = (a, s.withMarks s.isMaker false)) ∨
      (0 < s.quantity - s.filledQty ∧ ∃ queueAhead,
        (s.matchableQty cfg book ≤ 0 ∧
          s.fillPassiveOrCross cfg book now a = (a, s.withQueue queueAhead)) ∨
        (0 < s.matchableQty cfg book ∧ s.fillPassiveOrCross cfg book now a =
          (s.withQueue queueAhead).fillAtBest cfg book now a
            (min (s.quantity - s.filledQty) (s.matchableQty cfg book)))) := by
  simp only [fillPassiveOrCross, not_le.mpr (topOppositeSize_pos hbest), if_false]
  split
  · next hrem => exact Or.inl ⟨hrem, rfl⟩
  · next hrem =>
    refine Or.inr ⟨not_le.mp hrem, s.queueAheadQty - s.consumedByQueue
      (topOppositeSize book s.side * cfg.queueMatchFractionPerCheck), ?_⟩
    split
    · next hnone => exact Or.inl ⟨hnone, rfl⟩
    · next hsome =>
      refine Or.inr ⟨not_le.mp hsome, ?_⟩
      rw [matchableQty]
      split
      · next hlt =>
        rw [min_eq_left (le_of_lt hlt)]
        rfl
      · next hle =>
        rw [min_eq_right (not_lt.mp hle)]
        rfl

/-- What `check_fills` does to an order that is released. -/
theorem checkFill_released (hactive : s.active = true) (hreleased : s.releaseTsNs ≤ now) :
    s.checkFill cfg book now a =
      if s.type = .market then s.fillAtBest cfg book now a (s.quantity - s.filledQty)
      else if s.isImmediatelyFillable book = true then s.fillPassiveOrCross cfg book now a
      else if s.tif = .ioc then s.cancelAt now a
      else (a, s) := by
  have hskip : (!s.active || decide (now < s.releaseTsNs)) = false := by
    simp [hactive, hreleased]
  rw [checkFill, hskip]
  by_cases hfillable : s.isImmediatelyFillable book = true <;> simp [hfillable]

/-- What `check_fills` does to an order that has ended or is not released. -/
theorem checkFill_waiting (h : ¬ (s.active = true ∧ s.releaseTsNs ≤ now)) :
    s.checkFill cfg book now a = (a, s) := by
  have hskip : (!s.active || decide (now < s.releaseTsNs)) = true := by
    rw [not_and_or, not_le] at h
    simpa using h
  rw [checkFill, hskip, if_pos rfl]

/-- What a visit leaves of the accounts and the slot that it ends with. -/
def visitResult (r : ShadowAccounts × ShadowOrder) :
    ShadowOrder × List FillUpdate × List ShadowFill :=
  (r.2, r.1.updates, r.1.fillLog)

variable {v : ShadowVisit}

/-- A fill of what is matched. -/
theorem spec_of_fill (queueAhead : ℚ) (hfills : v.Fills)
    (hr : (v.after, v.emitted, v.logged) = visitResult
      ((v.before.withQueue queueAhead).fillAtBest cfg v.book v.now {} v.matched)) :
    v.Spec cfg := by
  have hbest : 0 < oppositeBest v.book (v.before.withQueue queueAhead).side := hfills.2
  rw [fillAtBest_of_pos hfills.1 hbest] at hr
  simp only [visitResult, Prod.mk.injEq, ShadowAccounts.emit, ShadowAccounts.updates_bookFill] at hr
  obtain ⟨hafter, hemitted, hlogged⟩ := hr
  exact ⟨fun _ => ⟨queueAhead, hafter, hemitted, hlogged⟩, fun h => absurd hfills h⟩

/-- A visit that emits nothing. -/
theorem spec_of_quiet (queueAhead : ℚ) (maker active : Bool) (hidle : ¬ v.Fills)
    (hactive : active = true → v.before.active = true) (hr : (v.after, v.emitted, v.logged) =
      ((v.before.withQueue queueAhead).withMarks maker active, [], [])) : v.Spec cfg := by
  simp only [Prod.mk.injEq] at hr
  obtain ⟨hafter, hemitted, hlogged⟩ := hr
  refine ⟨fun h => absurd h hidle, fun _ => ⟨fun u hu => ?_, hlogged, queueAhead, maker, active,
    hactive, hafter⟩⟩
  rw [hemitted] at hu
  cases hu

/-- A visit that ends the order without a fill. -/
theorem spec_of_ended {u : FillUpdate} (hidle : ¬ v.Fills) (hu : u.fillQty = 0)
    (hr : (v.after, v.emitted, v.logged) =
      (v.before.withMarks v.before.isMaker false, [u], [])) : v.Spec cfg := by
  simp only [Prod.mk.injEq] at hr
  obtain ⟨hafter, hemitted, hlogged⟩ := hr
  refine ⟨fun h => absurd h hidle, fun _ => ⟨fun u' hu' => ?_, hlogged, v.before.queueAheadQty,
    v.before.isMaker, false, Bool.noConfusion, hafter⟩⟩
  rw [hemitted] at hu'
  rwa [List.mem_singleton.mp hu']

/-- `fill_at_best` with what is matched. -/
theorem spec_fillAtBest (hr : (v.after, v.emitted, v.logged) = visitResult
    (v.before.fillAtBest cfg v.book v.now {} v.matched)) : v.Spec cfg := by
  by_cases hfills : v.Fills
  · exact spec_of_fill v.before.queueAheadQty hfills hr
  · rcases fillAtBest_of_not cfg v.now {} hfills with ⟨-, heq⟩ | ⟨-, heq⟩
    · rw [heq] at hr
      exact spec_of_quiet v.before.queueAheadQty v.before.isMaker v.before.active hfills id hr
    · rw [heq] at hr
      exact spec_of_ended hfills rfl hr

/-- **What a visit of `check_fills` does.** -/
theorem check_spec (s : ShadowOrder) (x : OrderBook × ℤ) : (s.check cfg x).Spec cfg := by
  obtain ⟨book, now⟩ := x
  have hvisit : ((s.check cfg (book, now)).after, (s.check cfg (book, now)).emitted,
      (s.check cfg (book, now)).logged) = visitResult (s.checkFill cfg book now {}) := rfl
  have hmatched : (s.check cfg (book, now)).matched = s.matchedQty cfg book now := rfl
  by_cases hreleased : s.active = true ∧ s.releaseTsNs ≤ now
  · rw [checkFill_released hreleased.1 hreleased.2] at hvisit
    rw [matchedQty, if_pos hreleased] at hmatched
    by_cases htype : s.type = .market
    · rw [if_pos htype] at hvisit hmatched
      rw [← hmatched] at hvisit
      exact spec_fillAtBest hvisit
    · rw [if_neg htype] at hvisit hmatched
      by_cases hfillable : s.isImmediatelyFillable book = true
      · rw [if_pos hfillable] at hvisit hmatched
        have hbest := oppositeBest_pos htype hfillable
        rcases fillPassiveOrCross_cases cfg now {} hbest with
          ⟨hrem, heq⟩ | ⟨hrem, queueAhead, ⟨hnone, heq⟩ | ⟨hsome, heq⟩⟩
        · rw [heq] at hvisit
          refine spec_of_quiet s.queueAheadQty s.isMaker false (fun h => ?_) Bool.noConfusion hvisit
          exact absurd (hmatched ▸ h.1) (not_lt.mpr (min_le_of_left_le hrem))
        · rw [heq] at hvisit
          refine spec_of_quiet queueAhead s.isMaker s.active (fun h => ?_) id hvisit
          exact absurd (hmatched ▸ h.1) (not_lt.mpr (min_le_of_right_le hnone))
        · rw [heq, ← hmatched] at hvisit
          exact spec_of_fill queueAhead ⟨hmatched ▸ lt_min hrem hsome, hbest⟩ hvisit
      · rw [if_neg hfillable] at hvisit hmatched
        have hidle : ¬ (s.check cfg (book, now)).Fills := fun h => by
          rw [ShadowVisit.Fills, hmatched] at h
          exact lt_irrefl 0 h.1
        by_cases hioc : s.tif = .ioc
        · rw [if_pos hioc] at hvisit
          exact spec_of_ended hidle rfl hvisit
        · rw [if_neg hioc] at hvisit
          exact spec_of_quiet s.queueAheadQty s.isMaker s.active hidle id hvisit
  · rw [checkFill_waiting hreleased] at hvisit
    rw [matchedQty, if_neg hreleased] at hmatched
    refine spec_of_quiet s.queueAheadQty s.isMaker s.active (fun h => ?_) id hvisit
    rw [ShadowVisit.Fills, hmatched] at h
    exact lt_irrefl 0 h.1

theorem placeOrder_eq (s : ShadowOrder) : ShadowConnector.placeOrder cfg book now a s =
    if s.releaseTsNs ≤ s.submitTsNs ∧ s.isImmediatelyFillable book = true then
      s.fillAtBest cfg book now a s.quantity
    else (a, s.withMarks true s.active) := by
  have hmarket : s.type = .market → s.isImmediatelyFillable book = true := by
    intro htype
    rw [isImmediatelyFillable, htype]
  by_cases hreleased : s.releaseTsNs ≤ s.submitTsNs
  · by_cases hfillable : s.isImmediatelyFillable book = true
    · simp [ShadowConnector.placeOrder, hreleased, hfillable]
    · have htype : s.type ≠ .market := fun h => hfillable (hmarket h)
      simp [ShadowConnector.placeOrder, hfillable, htype, withMarks]
  · simp [ShadowConnector.placeOrder, hreleased, withMarks]

/-- **What the visit of `submit_order` does.** -/
theorem placement_spec (order : Order) : (placement cfg book now order).Spec cfg := by
  have hvisit : ((placement cfg book now order).after, (placement cfg book now order).emitted,
      (placement cfg book now order).logged) = visitResult (ShadowConnector.placeOrder cfg book now
        {} (ShadowConnector.newOrder cfg book now order)) := rfl
  have hmatched : (placement cfg book now order).matched =
      (ShadowConnector.newOrder cfg book now order).placedQty book := rfl
  rw [placeOrder_eq] at hvisit
  rw [placedQty] at hmatched
  split at hvisit
  · next h =>
    rw [if_pos h] at hmatched
    rw [← hmatched] at hvisit
    exact spec_fillAtBest hvisit
  · next h =>
    rw [if_neg h] at hmatched
    refine spec_of_quiet _ true true (fun hfills => ?_) id hvisit
    rw [ShadowVisit.Fills, hmatched] at hfills
    exact lt_irrefl 0 hfills.1

/-! ## The terms of the order -/

/-- Two slots hold an order with the same terms. -/
structure SameTerms (s t : ShadowOrder) : Prop where
  clientOrderId : t.clientOrderId = s.clientOrderId
  symbol : t.symbol = s.symbol
  exchange : t.exchange = s.exchange
  side : t.side = s.side
  type : t.type = s.type
  tif : t.tif = s.tif
  price : t.price = s.price
  quantity : t.quantity = s.quantity
  releaseTsNs : t.releaseTsNs = s.releaseTsNs

theorem SameTerms.refl (s : ShadowOrder) : s.SameTerms s :=
  ⟨rfl, rfl, rfl, rfl, rfl, rfl, rfl, rfl, rfl⟩

theorem SameTerms.trans {s t u : ShadowOrder} (h : s.SameTerms t) (h' : t.SameTerms u) :
    s.SameTerms u :=
  ⟨h'.clientOrderId.trans h.clientOrderId, h'.symbol.trans h.symbol, h'.exchange.trans h.exchange,
    h'.side.trans h.side, h'.type.trans h.type, h'.tif.trans h.tif, h'.price.trans h.price,
    h'.quantity.trans h.quantity, h'.releaseTsNs.trans h.releaseTsNs⟩

/-- A visit keeps the terms. -/
theorem sameTerms_after (h : v.Spec cfg) : v.before.SameTerms v.after := by
  by_cases hfills : v.Fills
  · obtain ⟨queueAhead, hafter, -⟩ := h.fills hfills
    rw [hafter]
    exact ⟨rfl, rfl, rfl, rfl, rfl, rfl, rfl, rfl, rfl⟩
  · obtain ⟨-, -, queueAhead, maker, active, -, hafter⟩ := h.idle hfills
    rw [hafter]
    exact ⟨rfl, rfl, rfl, rfl, rfl, rfl, rfl, rfl, rfl⟩

/-- What every visit that meets a condition keeps of the slot gives what holds of every visit. -/
theorem forall_checks {P : ShadowOrder → Prop} {Ok Q : ShadowVisit → Prop}
    (hstep : ∀ s x, P s → Ok (s.check cfg x) → Q (s.check cfg x) ∧ P (s.check cfg x).after)
    {xs : List (OrderBook × ℤ)} : ∀ {s : ShadowOrder}, P s → (∀ v ∈ checks cfg s xs, Ok v) →
      ∀ v ∈ checks cfg s xs, Q v := by
  induction xs with
  | nil => exact fun _ _ v hv => absurd hv List.not_mem_nil
  | cons x xs ih =>
    intro s hs hok
    obtain ⟨hv, hafter⟩ := hstep s x hs (hok _ (by simp [checks]))
    intro v hmem
    rcases List.mem_cons.mp hmem with rfl | hmem
    · exact hv
    · exact ih hafter (fun w hw => hok w (List.mem_cons_of_mem _ hw)) v hmem

/-- What every visit of `check_fills` does, and that it comes to the same terms. -/
theorem checks_spec {xs : List (OrderBook × ℤ)} :
    ∀ v ∈ checks cfg s xs, v.Spec cfg ∧ s.SameTerms v.before := by
  have hstep : ∀ (t : ShadowOrder) x, s.SameTerms t → True →
      ((t.check cfg x).Spec cfg ∧ s.SameTerms (t.check cfg x).before) ∧
        s.SameTerms (t.check cfg x).after :=
    fun t x ht _ => ⟨⟨check_spec t x, ht⟩, ht.trans (sameTerms_after (check_spec t x))⟩
  exact forall_checks (Q := fun v => v.Spec cfg ∧ s.SameTerms v.before) hstep (.refl s)
    fun _ _ => trivial

/-- **Every visit to an order is one to its terms.** -/
theorem life_spec {order : Order} {xs : List (OrderBook × ℤ)} :
    ∀ v ∈ life cfg book now order xs, v.Spec cfg ∧
      (ShadowConnector.newOrder cfg book now order).SameTerms v.before := by
  intro v hv
  rcases List.mem_cons.mp hv with rfl | hv
  · exact ⟨placement_spec order, .refl _⟩
  · obtain ⟨hspec, hterms⟩ := checks_spec v hv
    exact ⟨hspec, (sameTerms_after (placement_spec order)).trans hterms⟩

/-! ## Accounts of any content -/

/-- The result with some accounts is that with empty ones, added to them. -/
structure AddsTo (a : ShadowAccounts) (r r₀ : ShadowAccounts × ShadowOrder) : Prop where
  slot : r.2 = r₀.2
  updates : r.1.updates = a.updates ++ r₀.1.updates
  fillLog : r.1.fillLog = a.fillLog ++ r₀.1.fillLog

theorem AddsTo.quiet : AddsTo a (a, s) ({}, s) :=
  ⟨rfl, (List.append_nil _).symm, (List.append_nil _).symm⟩

theorem fillAtBest_addsTo (qty : ℚ) :
    AddsTo a (s.fillAtBest cfg book now a qty) (s.fillAtBest cfg book now {} qty) := by
  simp only [fillAtBest, applyFill]
  split_ifs
  · exact .quiet
  · exact ⟨rfl, rfl, (List.append_nil _).symm⟩
  · refine ⟨rfl, ?_, rfl⟩
    simp only [ShadowAccounts.emit, ShadowAccounts.updates_bookFill]
    rfl

theorem fillPassiveOrCross_addsTo :
    AddsTo a (s.fillPassiveOrCross cfg book now a) (s.fillPassiveOrCross cfg book now {}) := by
  simp only [fillPassiveOrCross]
  split_ifs
  · exact .quiet
  · exact ⟨rfl, rfl, (List.append_nil _).symm⟩
  · exact .quiet
  · exact fillAtBest_addsTo _
  · exact fillAtBest_addsTo _

theorem checkFill_addsTo :
    AddsTo a (s.checkFill cfg book now a) (s.checkFill cfg book now {}) := by
  simp only [checkFill]
  split_ifs
  · exact .quiet
  · exact fillAtBest_addsTo _
  · exact ⟨rfl, rfl, (List.append_nil _).symm⟩
  · exact fillPassiveOrCross_addsTo
  · exact .quiet

theorem placeOrder_addsTo : AddsTo a (ShadowConnector.placeOrder cfg book now a s)
    (ShadowConnector.placeOrder cfg book now {} s) := by
  simp only [placeOrder_eq]
  split
  · exact fillAtBest_addsTo _
  · exact .quiet

end ShadowOrder

/-! ## The slot of the order -/

namespace ShadowConnector

open ShadowOrder

variable {c : ShadowConnector} {i : ℕ} {s : ShadowOrder} {book : OrderBook} {now : ℤ}

/-- **`submit_order` is the first visit to the slot that it finds.** -/
theorem submitOrder_slot (hi : c.orders.findIdx? (fun s => !s.active) = some i) (order : Order) :
    (c.submitOrder book now order).2.orders[i]? = some (placement c.cfg book now order).after ∧
      (c.submitOrder book now order).2.accounts.updates =
        c.accounts.updates ++ (placement c.cfg book now order).emitted ∧
      (c.submitOrder book now order).2.accounts.fillLog =
        c.accounts.fillLog ++ (placement c.cfg book now order).logged := by
  obtain ⟨t, ht, -, -⟩ := SlotPool.getElem?_of_findIdx? hi
  have hi' : i < c.orders.length := (List.getElem?_eq_some_iff.mp ht).1
  obtain ⟨hslot, hupdates, hlog⟩ : AddsTo c.accounts
      (placeOrder c.cfg book now c.accounts (newOrder c.cfg book now order))
      (placeOrder c.cfg book now {} (newOrder c.cfg book now order)) := placeOrder_addsTo
  unfold submitOrder
  rw [hi]
  refine ⟨?_, hupdates, hlog⟩
  rw [← show (placeOrder c.cfg book now c.accounts (newOrder c.cfg book now order)).2 =
    (placement c.cfg book now order).after from hslot]
  exact List.getElem?_set_self hi'

/-- **`check_fills` visits every slot.** -/
theorem checkFills_slot (c : ShadowConnector) (book : OrderBook) (now : ℤ) :
    (c.checkFills book now).orders = c.orders.map (fun s => (s.check c.cfg (book, now)).after) ∧
      (c.checkFills book now).accounts.updates = c.accounts.updates ++
        c.orders.flatMap (fun s => (s.check c.cfg (book, now)).emitted) ∧
      (c.checkFills book now).accounts.fillLog = c.accounts.fillLog ++
        c.orders.flatMap (fun s => (s.check c.cfg (book, now)).logged) := by
  simp only [checkFills]
  generalize c.accounts = a
  generalize c.orders = slots
  induction slots generalizing a with
  | nil => simp [SlotPool.sweep]
  | cons s slots ih =>
    obtain ⟨hslot, hupdates, hlog⟩ : AddsTo a (s.checkFill c.cfg book now a)
      (s.checkFill c.cfg book now {}) := checkFill_addsTo
    obtain ⟨hslots, hupdates', hlog'⟩ := ih (s.checkFill c.cfg book now a).1
    simp only [SlotPool.sweep, List.map_cons, List.flatMap_cons]
    rw [hslot, hslots, hupdates', hupdates, hlog', hlog, List.append_assoc, List.append_assoc]
    exact ⟨rfl, rfl, rfl⟩

/-- The call cancels the order, or replaces it. -/
def Call.Names (s : ShadowOrder) : Call → Prop
  | .cancel clientId => clientId = s.clientOrderId
  | .replace clientId _ => clientId = s.clientOrderId
  | .cancelAll symbol => strncmpEq 15 s.symbol.chars symbol = true
  | .submit _ | .checkFills => False

/-- The visit that a call makes to the order. -/
def Call.visit? (x : OrderBook × ℤ × Call) : Option (OrderBook × ℤ) :=
  match x with
  | (book, now, .checkFills) => some (book, now)
  | (_, _, .submit _) | (_, _, .cancel _) | (_, _, .replace _ _) | (_, _, .cancelAll _) => none

theorem submitOrder_other (hi : c.orders[i]? = some s) (hactive : s.active = true)
    (order : Order) : (c.submitOrder book now order).2.orders[i]? = some s := by
  unfold submitOrder
  split
  · exact hi
  · next j hj =>
    obtain ⟨t, ht, hidle, -⟩ := SlotPool.getElem?_of_findIdx? hj
    have hne : j ≠ i := by
      rintro rfl
      obtain rfl : t = s := Option.some.inj (ht.symm.trans hi)
      rw [hactive] at hidle
      cases hidle
    exact (List.getElem?_set_ne hne).trans hi

theorem cancelOrder_other (hi : c.orders[i]? = some s) (now : ℤ) {clientId : ℕ}
    (hne : clientId ≠ s.clientOrderId) : (c.cancelOrder now clientId).2.orders[i]? = some s := by
  unfold cancelOrder
  split
  · exact hi
  · next j hj =>
    obtain ⟨t, ht, hfound, -⟩ := SlotPool.getElem?_of_findIdx? hj
    have hne' : j ≠ i := by
      rintro rfl
      obtain rfl : t = s := Option.some.inj (ht.symm.trans hi)
      rw [Bool.and_eq_true, beq_iff_eq] at hfound
      exact hne hfound.2.symm
    exact (List.getElem?_set_ne hne').trans hi

theorem sweep_cancelMatching (symbol : CString) (a : ShadowAccounts) (slots : List ShadowOrder) :
    (SlotPool.sweep (ShadowOrder.cancelMatching symbol now) a slots).2 =
      slots.map fun s => (s.cancelMatching symbol now {}).2 := by
  induction slots generalizing a with
  | nil => rfl
  | cons s slots ih =>
    rw [SlotPool.sweep, List.map_cons, ih]
    simp only [ShadowOrder.cancelMatching]
    split <;> rfl

/-- **A call visits an active order, or leaves it alone, unless it names the order.** -/
theorem call_slot (hi : c.orders[i]? = some s) (hactive : s.active = true)
    (x : OrderBook × ℤ × Call) (hnames : ¬ x.2.2.Names s) : (c.call x).orders[i]? =
      some ((Call.visit? x).elim s fun visit => (s.check c.cfg visit).after) := by
  obtain ⟨book, now, op⟩ := x
  cases op with
  | submit order => exact submitOrder_other hi hactive order
  | cancel clientId => exact cancelOrder_other hi now hnames
  | replace clientId replacement =>
    have hcanceled := cancelOrder_other hi now hnames
    rcases c.replaceOrder_cases book now clientId replacement with ⟨-, heq⟩ | ⟨-, heq⟩
    · rw [call, heq]
      exact submitOrder_other hcanceled hactive replacement
    · rw [call, heq]
      exact hcanceled
  | cancelAll symbol =>
    have hother : ¬ (s.active && strncmpEq 15 s.symbol.chars symbol) = true := fun h =>
      hnames (Bool.and_eq_true _ _ ▸ h).2
    have hstays : s.cancelMatching symbol now {} = ({}, s) := if_neg hother
    simp only [call, cancelAll, sweep_cancelMatching, List.getElem?_map, hi,
      Option.map_some, hstays]
    rfl
  | checkFills =>
    rw [call, (c.checkFills_slot book now).1, List.getElem?_map, hi]
    rfl

/-- The slot after some visits. -/
def afterChecks (cfg : ShadowConfig) (s : ShadowOrder) (xs : List (OrderBook × ℤ)) : ShadowOrder :=
  xs.foldl (fun s x => (s.check cfg x).after) s

/-- An order that has ended stays so. -/
theorem inactive_afterChecks {cfg : ShadowConfig} (hidle : s.active = false)
    (xs : List (OrderBook × ℤ)) : (afterChecks cfg s xs).active = false := by
  refine foldl_induction (P := fun s : ShadowOrder => s.active = false)
    (fun t x ht (_ : True) => ?_) hidle fun _ _ => trivial
  have hwaits : t.checkFill cfg x.1 x.2 {} = ({}, t) :=
    checkFill_waiting fun h => Bool.noConfusion (h.1.symm.trans ht)
  rw [check, hwaits]
  exact ht

/-- A call leaves the configuration alone. -/
theorem cfg_call (c : ShadowConnector) (x : OrderBook × ℤ × Call) : (c.call x).cfg = c.cfg := by
  have hsubmit : ∀ (c : ShadowConnector) book now order,
      (c.submitOrder book now order).2.cfg = c.cfg := by
    intro c book now order
    unfold submitOrder
    split <;> rfl
  have hcancel : ∀ now clientId, (c.cancelOrder now clientId).2.cfg = c.cfg := by
    intro now clientId
    unfold cancelOrder
    split <;> rfl
  obtain ⟨book, now, op⟩ := x
  cases op with
  | submit order => exact hsubmit c book now order
  | cancel clientId => exact hcancel now clientId
  | replace clientId replacement =>
    rcases c.replaceOrder_cases book now clientId replacement with ⟨-, heq⟩ | ⟨-, heq⟩
    · rw [call, heq, hsubmit, hcancel]
    · rw [call, heq, hcancel]
  | cancelAll symbol => rfl
  | checkFills => rfl

/-- A call names an order by its terms. -/
theorem Call.names_congr {t : ShadowOrder} (h : s.SameTerms t) (op : Call) :
    op.Names t ↔ op.Names s := by
  cases op <;> simp only [Call.Names, h.clientOrderId, h.symbol]

/-- **An order has a life of its own.** Whatever the calls after its submission are, if none of them
names the order, then as long as it is active its slot holds what the visits of `check_fills` make
of it. -/
theorem slot_life (calls : List (OrderBook × ℤ × Call)) : ∀ {c : ShadowConnector} {s : ShadowOrder},
    c.orders[i]? = some s → (∀ x ∈ calls, ¬ x.2.2.Names s) →
      (afterChecks c.cfg s (calls.filterMap Call.visit?)).active = true →
        (calls.foldl call c).orders[i]? =
          some (afterChecks c.cfg s (calls.filterMap Call.visit?)) := by
  induction calls with
  | nil => exact fun hi _ _ => hi
  | cons x calls ih =>
    intro c s hi hnames hlive
    have hactive : s.active = true := by
      by_contra hidle
      rw [inactive_afterChecks (Bool.not_eq_true _ ▸ hidle)] at hlive
      cases hlive
    have hslot := call_slot hi hactive x (hnames x (by simp))
    have hrest : ∀ y ∈ calls, ¬ y.2.2.Names s := fun y hy => hnames y (List.mem_cons_of_mem _ hy)
    rw [List.filterMap_cons] at hlive ⊢
    cases hvisit : Call.visit? x with
    | none =>
      rw [hvisit] at hslot hlive
      rw [← cfg_call c x] at hlive ⊢
      exact ih hslot hrest hlive
    | some visit =>
      rw [hvisit] at hslot hlive
      rw [← cfg_call c x] at hlive hslot ⊢
      refine ih hslot (fun y hy h => hrest y hy ?_) hlive
      exact (Call.names_congr (sameTerms_after (check_spec s visit)) _).mp h

/-- A bid below the market. -/
def waitingBid (clientOrderId : ℕ) : Order where
  clientOrderId := clientOrderId
  exchange := .binance
  price := 99
  quantity := 1

/-- The bid waits while another one comes and goes. -/
theorem slot_life_waitingBid :
    let c := (new flatFees).call (.atTouchBook, 5, .submit (waitingBid 1))
    (c.orders.getD 0 {}).clientOrderId = 1 ∧
      ([(.atTouchBook, 6, .submit (waitingBid 2)), (.atTouchBook, 7, .checkFills),
        (.atTouchBook, 8, .cancel 2)].foldl call c).orders[0]? =
          some (afterChecks c.cfg (c.orders.getD 0 {}) [(.atTouchBook, 7)]) := by
  refine ⟨by decide +kernel, slot_life _ (by rfl) (fun x hx => ?_) (by decide +kernel)⟩
  simp only [List.mem_cons, List.not_mem_nil, or_false] at hx
  rcases hx with rfl | rfl | rfl
  · exact id
  · exact id
  · exact fun h : 2 = _ => absurd h (by decide +kernel)

end ShadowConnector

end TradingInfrastructure
