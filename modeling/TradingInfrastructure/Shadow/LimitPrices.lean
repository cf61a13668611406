import TradingInfrastructure.Shadow.OrderLife

/-!
# Fill prices and limits

A shadow fill is priced at the best price of the other side, moved by the impact of the quantity
filled (`apply_slippage`). Nothing holds the moved price to the limit of the order: a fill respects
the limit exactly when the impact is at most the distance from the best price to the limit
(`ShadowOrder.respects_iff`).
-/

namespace TradingInfrastructure

/-- The price of a fill of the order is positive, and a limit order's is no worse than its limit. -/
def Order.Respects (o : Order) (u : FillUpdate) : Prop :=
  0 < u.fillPrice ∧ (o.type = .limit → 0 < o.price →
    (o.side = .bid → u.fillPrice ≤ o.price) ∧ (o.side = .ask → o.price ≤ u.fillPrice))

instance (o : Order) (u : FillUpdate) : Decidable (o.Respects u) :=
  inferInstanceAs (Decidable (_ ∧ (_ → _ → (_ → _) ∧ (_ → _))))

namespace ShadowVisit

variable (cfg : ShadowConfig) (v : ShadowVisit)

/-- The best price of the other side. -/
def touch : ℚ := ShadowOrder.oppositeBest v.book v.before.side

/-- By how much what is matched moves the price. -/
def impact : ℚ :=
  v.touch * (cfg.impactSlippagePerNotionalBps *
    (v.matched / ShadowOrder.topOppositeSize v.book v.before.side) / 10000)

/-- The impact leaves the price positive, and is at most the distance of the best price from the
limit of a limit order. -/
def WithinLimit (o : Order) : Prop :=
  (o.side = .ask → v.impact cfg < v.touch) ∧ (o.type = .limit → 0 < o.price →
    (o.side = .bid → v.impact cfg ≤ o.price - v.touch) ∧
      (o.side = .ask → v.impact cfg ≤ v.touch - o.price))

instance (o : Order) : Decidable (v.WithinLimit cfg o) :=
  inferInstanceAs (Decidable ((_ → _) ∧ (_ → _ → (_ → _) ∧ (_ → _))))

end ShadowVisit

namespace ShadowOrder

variable {cfg : ShadowConfig} {book : OrderBook} {now : ℤ} {order : Order}
  {xs : List (OrderBook × ℤ)} {v : ShadowVisit}

/-- The price of a fill. -/
theorem applySlippage_eq (cfg : ShadowConfig) (hfills : v.Fills) :
    applySlippage cfg v.book (oppositeBest v.book v.before.side) v.matched v.before.side =
      match v.before.side with
      | .bid => v.touch + v.impact cfg
      | .ask => v.touch - v.impact cfg := by
  have htop := topOppositeSize_pos hfills.2
  rw [applySlippage, ShadowVisit.impact, ShadowVisit.touch]
  simp only [not_le.mpr htop, if_false]
  cases v.before.side
  · simp only [if_true]
    ring
  · simp only [reduceCtorEq, if_false]
    ring

/-- **A visit that fills within the limit respects it, and no other.** -/
theorem respects_visit_iff (himpact : 0 ≤ cfg.impactSlippagePerNotionalBps) (hv : v.Spec cfg)
    (hterms : (ShadowConnector.newOrder cfg book now order).SameTerms v.before) :
    (∀ u ∈ v.emitted, 0 < u.fillQty → order.Respects u) ↔ (v.Fills → v.WithinLimit cfg order) := by
  by_cases hfills : v.Fills
  · obtain ⟨queueAhead, -, hemitted, -⟩ := hv.fills hfills
    have hside : v.before.side = order.side := hterms.side
    have hprice := applySlippage_eq cfg hfills
    have htouch : 0 < v.touch := hfills.2
    have hmoved : 0 ≤ v.impact cfg := by
      have htop := topOppositeSize_pos hfills.2
      have hmatched := hfills.1
      rw [ShadowVisit.impact]
      positivity
    rw [hemitted, List.forall_mem_singleton, hprice, hside]
    simp only [hfills, hfills.1, true_imp_iff, Order.Respects, fillUpdate, ShadowVisit.WithinLimit]
    cases order.side with
    | bid =>
      refine and_congr (iff_of_true (by linarith) Side.noConfusion) (imp_congr_right fun _ =>
        imp_congr_right fun _ => and_congr (imp_congr_right fun _ => ?_)
          (iff_of_true Side.noConfusion Side.noConfusion))
      rw [le_sub_iff_add_le, add_comm]
    | ask =>
      refine and_congr (sub_pos.trans (imp_iff_right rfl).symm) (imp_congr_right fun _ =>
        imp_congr_right fun _ => and_congr (iff_of_true Side.noConfusion Side.noConfusion)
          (imp_congr_right fun _ => ?_))
      rw [le_sub_comm]
  · refine iff_of_true (fun u hu hpos => ?_) fun h => absurd h hfills
    rw [(hv.idle hfills).1 u hu] at hpos
    exact absurd hpos (lt_irrefl 0)

/-- **The fills of an order respect its limit exactly when every fill is within it.** -/
theorem respects_iff (himpact : 0 ≤ cfg.impactSlippagePerNotionalBps) (book : OrderBook) (now : ℤ)
    (order : Order) (xs : List (OrderBook × ℤ)) :
    (∀ v ∈ life cfg book now order xs, ∀ u ∈ v.emitted, 0 < u.fillQty → order.Respects u) ↔
      ∀ v ∈ life cfg book now order xs, v.Fills → v.WithinLimit cfg order :=
  forall₂_congr fun v hv =>
    respects_visit_iff himpact (life_spec v hv).1 (life_spec v hv).2

/-- A limit order to buy one at 101, where the ask is. -/
def touchOrder : Order where
  clientOrderId := 7
  exchange := .binance
  price := 101
  quantity := 1

/-- Without impact the order is filled at its limit. -/
theorem respects_without_impact :
    (∃ v ∈ life ShadowConnector.flatFees .atTouchBook 5 touchOrder [], v.emitted ≠ []) ∧
      ∀ v ∈ life ShadowConnector.flatFees .atTouchBook 5 touchOrder [],
        ∀ u ∈ v.emitted, 0 < u.fillQty → touchOrder.Respects u :=
  ⟨by decide +kernel,
    (respects_iff (by decide) .atTouchBook 5 touchOrder []).mpr (by decide +kernel)⟩

/-- With an impact of one basis point for the size of the ask it is filled above its limit. -/
theorem impact_beyond_limit : ¬ ∀ v ∈ life
    { ShadowConnector.flatFees with impactSlippagePerNotionalBps := 1 } .atTouchBook 5 touchOrder
    [],
    ∀ u ∈ v.emitted, 0 < u.fillQty → touchOrder.Respects u := by
  decide +kernel

end ShadowOrder

end TradingInfrastructure
