import TradingInfrastructure.Shadow.TimeInForce

/-!
# Fees and liquidity

A fill of an order that takes liquidity is to be charged the taker's fee: one of a market order, of
an immediate-or-cancel order, or of an order that crosses the best price of the other side when it
is released. `submit_order` makes a maker of every order that it does not fill at once, so all that
`check_fills` fills is charged the maker's fee. The taker's fee is charged when `check_fills` finds
nothing for such an order (`ShadowOrder.charged_of_submitted`).
-/

namespace TradingInfrastructure

/-- An order that takes liquidity: it has no price to rest at, or may not rest, or crosses at the
first visit at its release or later. -/
def Order.Takes (o : Order) (vs : List ShadowVisit) : Prop :=
  o.type = .market ∨ o.tif = .ioc ∨
    ∃ v, vs.find? (·.Released) = some v ∧ v.before.isImmediatelyFillable v.book = true

/-- The visit of `check_fills` finds something for the order. -/
def ShadowVisit.Offers (cfg : ShadowConfig) (v : ShadowVisit) : Prop :=
  v.Released ∧ 0 < ShadowOrder.oppositeBest v.book v.before.side ∧
    (v.before.type = .market ∨
      (v.before.isImmediatelyFillable v.book = true ∧ 0 < v.before.matchableQty cfg v.book))

instance (cfg : ShadowConfig) (v : ShadowVisit) : Decidable (v.Offers cfg) :=
  inferInstanceAs (Decidable (_ ∧ _ ∧ (_ ∨ (_ ∧ _))))

/-- The fee of a taker at the venue of the order. -/
def Order.takerFeeBps (cfg : ShadowConfig) (o : Order) : ℚ :=
  ShadowOrder.feeFor cfg { exchange := o.exchange, isMaker := false }

/-- The fee of a maker at the venue of the order. -/
def Order.makerFeeBps (cfg : ShadowConfig) (o : Order) : ℚ :=
  ShadowOrder.feeFor cfg { exchange := o.exchange, isMaker := true }

/-- The fills of an order that takes liquidity are charged the taker's fee. -/
def Order.ChargedByLiquidity (cfg : ShadowConfig) (o : Order) (vs : List ShadowVisit) : Prop :=
  o.Takes vs → ∀ v ∈ vs, ∀ f ∈ v.logged, f.fee = o.takerFeeBps cfg / 10000 * f.fillPx * f.fillQty

namespace ShadowOrder

variable {cfg : ShadowConfig} {book : OrderBook} {now : ℤ} {s : ShadowOrder} {order : Order}
  {x : OrderBook × ℤ} {xs : List (OrderBook × ℤ)}

/-- The fee depends on the venue, and on whether the order is a maker. -/
theorem feeFor_eq (hexchange : s.exchange = order.exchange) :
    s.feeFor cfg = if s.isMaker then order.makerFeeBps cfg else order.takerFeeBps cfg := by
  rw [feeFor, hexchange, Order.makerFeeBps, Order.takerFeeBps, feeFor, feeFor]
  cases order.exchange <;> rfl

/-- What `check_fills` fills, it found. -/
theorem offers_of_fills (hfills : (s.check cfg x).Fills) : (s.check cfg x).Offers cfg := by
  have hmatched : (s.check cfg x).matched = s.matchedQty cfg x.1 x.2 := rfl
  have hpos := hfills.1
  rw [hmatched, matchedQty] at hpos
  split_ifs at hpos with hreleased hmarket hfillable
  · exact ⟨hreleased, hfills.2, Or.inl hmarket⟩
  · exact ⟨hreleased, hfills.2, Or.inr ⟨hfillable, (lt_min_iff.mp hpos).2⟩⟩
  · exact absurd hpos (lt_irrefl 0)
  · exact absurd hpos (lt_irrefl 0)

/-- Every fill that `check_fills` makes, it found. -/
theorem offers_of_mem_checks : ∀ v ∈ checks cfg s xs, v.Fills → v.Offers cfg :=
  forall_checks (P := fun _ => True) (Q := fun v => v.Fills → v.Offers cfg)
    (fun _ _ _ (_ : True) => ⟨offers_of_fills, trivial⟩) trivial fun _ _ => trivial

/-- The fee of a fill at a visit. -/
theorem fee_of_mem_logged {v : ShadowVisit} (hv : v.Spec cfg) {f : ShadowFill} (hf : f ∈ v.logged) :
    v.Fills ∧ f.fee = v.before.feeFor cfg / 10000 * f.fillPx * f.fillQty := by
  by_cases hfills : v.Fills
  · obtain ⟨queueAhead, -, -, hlogged⟩ := hv.fills hfills
    rw [hlogged] at hf
    rw [List.mem_singleton.mp hf]
    exact ⟨hfills, rfl⟩
  · rw [(hv.idle hfills).2.1] at hf
    cases hf

/-- **An order that takes liquidity is charged the taker's fee when the fees are equal, or
`check_fills` finds nothing for it.** -/
theorem charged_of_submitted (cfg : ShadowConfig) (book : OrderBook) (now : ℤ) (order : Order)
    (xs : List (OrderBook × ℤ))
    (h : order.Takes (life cfg book now order xs) →
      order.makerFeeBps cfg = order.takerFeeBps cfg ∨
        ∀ v ∈ checks cfg (placement cfg book now order).after xs, ¬ v.Offers cfg) :
    order.ChargedByLiquidity cfg (life cfg book now order xs) := by
  intro htakes v hmem f hf
  obtain ⟨hspec, hterms⟩ := life_spec v hmem
  obtain ⟨hfills, hfee⟩ := fee_of_mem_logged hspec hf
  have hexchange : v.before.exchange = order.exchange := hterms.exchange
  rw [hfee, feeFor_eq hexchange]
  rcases h htakes with hequal | hnone
  · rw [hequal, ite_self]
  · rcases List.mem_cons.mp hmem with rfl | hmem
    · rfl
    · exact absurd (offers_of_mem_checks v hmem hfills) (hnone v hmem)

/-- Taker fees of twenty basis points, and maker fees of ten. -/
def dearConfig : ShadowConfig :=
  { slowConfig with
    binanceTakerFeeBps := 20, krakenTakerFeeBps := 20, okxTakerFeeBps := 20
    coinbaseTakerFeeBps := 20 }

/-- A market order to buy one. -/
def marketOrder : Order where
  clientOrderId := 7
  exchange := .binance
  type := .market
  quantity := 1

/-- A market order that is released at its submission. -/
theorem charged_marketOrder : marketOrder.ChargedByLiquidity { dearConfig with baseLatencyNs := 0 }
    (life { dearConfig with baseLatencyNs := 0 } .atTouchBook 5 marketOrder
      [(.atTouchBook, 6)]) :=
  charged_of_submitted _ .atTouchBook 5 marketOrder [(.atTouchBook, 6)]
    fun _ => Or.inr (by decide +kernel)

/-- A market order that waits for its release pays the maker's fee. -/
theorem marketOrder_charged_as_maker : ¬ marketOrder.ChargedByLiquidity dearConfig
    (life dearConfig .atTouchBook 5 marketOrder [(.atTouchBook, 6)]) := fun h =>
  absurd (h (Or.inl rfl)) (by decide +kernel)

end ShadowOrder

end TradingInfrastructure
