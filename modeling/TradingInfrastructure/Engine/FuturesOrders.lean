import TradingInfrastructure.Connectors.BinanceFuturesConnector
import TradingInfrastructure.Engine.CommittedExposure

/-!
# Futures orders

What `submit_decision` puts into an order for the futures connector: the position side follows from
the side of the order alone, in either position mode, and the reduce-only flag from the signs of the
current and the target position. The validator wants no position side in one-way mode, and a hedged
position is reduced on its own side. So an order is right exactly in hedge mode, when it does not
reduce the position (`futuresRight_iff`).
-/

namespace TradingInfrastructure

namespace DecisionCall

variable (call : DecisionCall)

/-- An order of the call sells out of a long position. -/
def SellsLong : Prop := 0 < call.currentPosition ∧ call.side = .ask

/-- An order of the call buys a short position back. -/
def BuysShort : Prop := call.currentPosition < 0 ∧ call.side = .bid

/-- However much of the quantity is executed, the position does not become larger. -/
def CannotIncrease (quantity : ℚ) : Prop :=
  ∀ executed, 0 ≤ executed → executed ≤ quantity →
    |call.currentPosition + call.side.signed executed| ≤ |call.currentPosition|

/-- The order passes the validator, names the position side that it reduces, and has the reduce-only
flag exactly when it cannot increase the position. -/
structure FuturesRight (order : Order) : Prop where
  valid : BinanceFuturesConnector.validateOrderRequest order = .ok
  long : order.futuresPositionMode = .hedge → call.SellsLong →
    order.futuresPositionSide = .long
  short : order.futuresPositionMode = .hedge → call.BuysShort →
    order.futuresPositionSide = .short
  reduceOnly : order.reduceOnly = true ↔ call.CannotIncrease order.quantity

variable {call}

/-- An order that does not reduce the position increases it. -/
theorem not_cannotIncrease {quantity : ℚ} (hquantity : 0 < quantity) (hlong : ¬ call.SellsLong)
    (hshort : ¬ call.BuysShort) : ¬ call.CannotIncrease quantity := by
  intro h
  have hall := h quantity hquantity.le le_rfl
  unfold SellsLong at hlong
  unfold BuysShort at hshort
  cases hside : call.side with
  | bid =>
    have hcurrent : 0 ≤ call.currentPosition := by
      by_contra hneg
      exact hshort ⟨not_le.mp hneg, hside⟩
    rw [hside, Side.signed_bid, abs_of_nonneg hcurrent, abs_of_nonneg (by linarith)] at hall
    linarith
  | ask =>
    have hcurrent : call.currentPosition ≤ 0 := by
      by_contra hpos
      exact hlong ⟨not_le.mp hpos, hside⟩
    rw [hside, Side.signed_ask, abs_of_nonpos hcurrent, abs_of_nonpos (by linarith)] at hall
    linarith

end DecisionCall

namespace EngineOptions

variable {o : EngineOptions} {call : DecisionCall} {child : ChildOrder} {env : ChildEnvironment}
  {id : ℕ}

/-- The validator looks at the symbol and at the position mode, of an order with a quantity and a
price. -/
theorem validate_orderOf (hfutures : o.futuresOnlyMode = true) (hquantity : 0 < child.quantity)
    (hprice : 0 < child.limitPrice) :
    BinanceFuturesConnector.validateOrderRequest (o.orderOf call child env id) =
      if o.symbol = [] then .errorInvalidOrder
      else if o.hedgeMode then .ok else .errorFuturesPositionSideInvalid := by
  have hsymbol : (copySymbol o.symbol).chars = [] ↔ o.symbol = [] := by
    simp [copySymbol, strncpyBuf]
  simp only [orderOf, makeChildOrder, hfutures, if_true,
    BinanceFuturesConnector.validateOrderRequest, not_le.mpr hquantity, not_le.mpr hprice]
  cases o.hedgeMode <;> cases call.side <;> simp [hsymbol]

/-- **A futures order is right** exactly in hedge mode, for a symbol, when it does not reduce the
position. -/
theorem futuresRight_iff (hfutures : o.futuresOnlyMode = true) (hquantity : 0 < child.quantity)
    (hprice : 0 < child.limitPrice) :
    call.FuturesRight (o.orderOf call child env id) ↔
      o.hedgeMode = true ∧ o.symbol ≠ [] ∧ ¬ call.SellsLong ∧ ¬ call.BuysShort := by
  have hvalidate := @validate_orderOf o call child env id hfutures hquantity hprice
  have hsell : call.side = .ask → (o.orderOf call child env id).futuresPositionSide = .short := by
    intro hcall
    simp [orderOf, hfutures, hcall]
  have hbuy : call.side = .bid → (o.orderOf call child env id).futuresPositionSide = .long := by
    intro hcall
    simp [orderOf, hfutures, hcall]
  constructor
  · intro h
    have hvalid := hvalidate.symm.trans h.valid
    split_ifs at hvalid with hsymbol hhedge
    have hmode : (o.orderOf call child env id).futuresPositionMode = .hedge := by
      simp [orderOf, hfutures, hhedge]
    refine ⟨hhedge, hsymbol, fun hsells => ?_, fun hbuys => ?_⟩
    · have hlong := h.long hmode hsells
      rw [hsell hsells.2] at hlong
      cases hlong
    · have hshort := h.short hmode hbuys
      rw [hbuy hbuys.2] at hshort
      cases hshort
  · rintro ⟨hhedge, hsymbol, hlong, hshort⟩
    refine ⟨?_, fun _ h => absurd h hlong, fun _ h => absurd h hshort, ?_⟩
    · rw [hvalidate, if_neg hsymbol, if_pos hhedge]
    · have hordered : (o.orderOf call child env id).quantity = child.quantity := by
        simp [orderOf, makeChildOrder, hfutures]
      rw [hordered]
      refine iff_of_false (fun hflag => ?_) (DecisionCall.not_cannotIncrease hquantity hlong hshort)
      simp only [orderOf, hfutures, if_true, Bool.or_eq_true, Bool.and_eq_true,
        decide_eq_true_eq, beq_iff_eq] at hflag
      rcases hflag with ⟨⟨hcurrent, hask⟩, -⟩ | ⟨⟨hcurrent, hbid⟩, -⟩
      · exact hlong ⟨hcurrent, hask⟩
      · exact hshort ⟨hcurrent, hbid⟩

/-- A session with futures at Binance, in either position mode. -/
def futuresSession (hedgeMode : Bool) : EngineOptions :=
  { SubmitEngine.liveBinance with
    binanceFuturesEnabled := true, futuresOnlyMode := true, hedgeMode }

/-- An order for one at a hundred, with this position. -/
def moveBy (side : Side) (currentPosition targetPosition : ℚ) : DecisionCall :=
  { SubmitEngine.refusedBid with side, currentPosition, targetPosition }

/-- In hedge mode, a purchase that opens a position is right. -/
theorem futuresRight_opening :
    (moveBy .bid 0 1).FuturesRight
      ((futuresSession true).orderOf (moveBy .bid 0 1) ⟨.binance, 1, 100, .ioc⟩
        SubmitEngine.refusing 1) :=
  (futuresRight_iff rfl (by norm_num) (by norm_num)).mpr
    ⟨rfl, by decide, fun h => absurd h.1 (by decide +kernel),
      fun h => absurd h.1 (by decide +kernel)⟩

/-- **In one-way mode no order is valid**, and in hedge mode an order that sells out of a long names
the short side. -/
theorem futuresOrders_wrong :
    ¬ (moveBy .bid 0 1).FuturesRight
        ((futuresSession false).orderOf (moveBy .bid 0 1) ⟨.binance, 1, 100, .ioc⟩
          SubmitEngine.refusing 1) ∧
      ¬ (moveBy .ask 2 1).FuturesRight
        ((futuresSession true).orderOf (moveBy .ask 2 1) ⟨.binance, 1, 100, .ioc⟩
          SubmitEngine.refusing 1) := by
  constructor
  · intro h
    exact absurd h.valid (by decide +kernel)
  · intro h
    exact absurd (h.long rfl ⟨by decide +kernel, rfl⟩) (by decide +kernel)

end EngineOptions

end TradingInfrastructure
