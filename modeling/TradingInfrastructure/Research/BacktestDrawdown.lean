import TradingInfrastructure.Foundations.Drawdown
import TradingInfrastructure.Research.Backtest

/-!
# The drawdown of the backtest

`max_drawdown_usd` of `NeuralAlphaBacktest` is kept by `_close_position`, from the profit once the
trade is settled. It is the deepest drop of the cumulative net profit of the closed trades
(`NeuralAlphaBacktest.run_maxDrawdownUsd`), and not that of the equity curve, which has the value of
the open position at each tick (`NeuralAlphaBacktest.run_maxDrawdownUsd_dip`).
-/

namespace TradingInfrastructure

variable {K : Type} [Field K]

namespace Trade

/-- The cumulative net profit after each of the closed trades. -/
def realizedCurve (trades : List (Trade K)) : List K :=
  cumulative ((trades.filter fun tr => tr.closeTs.isSome).map fun tr => tr.netPnl.getD 0)

variable {trades : List (Trade K)} {tr : Trade K}

theorem realizedCurve_concat_open (h : tr.closeTs = none) :
    realizedCurve (trades ++ [tr]) = realizedCurve trades := by
  simp [realizedCurve, h]

/-- A trade that is closed adds its profit to that of the others. -/
theorem realizedCurve_concat_closed (h : tr.Closed) :
    realizedCurve (trades ++ [tr]) =
      realizedCurve trades ++ [closedPnl trades + tr.netPnl.getD 0] := by
  have hlast : ((trades ++ [tr]).filter fun tr => tr.closeTs.isSome) =
      (trades.filter fun tr => tr.closeTs.isSome) ++ [tr] := by
    simp [h.1]
  rw [realizedCurve, hlast, List.map_append, List.map_singleton, cumulative_concat]
  rfl

end Trade

variable [LinearOrder K]

namespace NeuralAlphaBacktest

/-! ## What is reported -/

/-- `_build_trades_df`. -/
def buildTradesDf (s : NeuralAlphaBacktest K) : List (Trade K) :=
  s.trades.filter fun tr => tr.closeTs.isSome

/-- `_build_equity_df`: the column of the cumulative profit. -/
def buildEquityDf (s : NeuralAlphaBacktest K) : List K := s.equity.map Prod.snd

/-- `max_drawdown_usd` of `_compute_metrics`. Without a closed trade the metrics are an error. -/
def maxDrawdownUsd (s : NeuralAlphaBacktest K) : Option K :=
  if s.buildTradesDf.isEmpty then none else some s.maxDd

/-! ## Steps of the run -/

/-- **The drawdown is that of the closed trades.** The profit is theirs, less the fee that has been
paid to enter the trade that is open. -/
structure Realizes (s : NeuralAlphaBacktest K) : Prop where
  peakPnl : s.peakPnl = peak (Trade.realizedCurve s.trades)
  maxDd : s.maxDd = maxDrawdown (Trade.realizedCurve s.trades)
  flat : s.position = 0 → s.pnl = Trade.closedPnl s.trades
  holding : s.position ≠ 0 → ∃ trades tr, s.trades = trades ++ [tr] ∧ tr.closeTs = none ∧
    s.pnl = Trade.closedPnl trades - tr.entryFee

variable {cfg : BacktestConfig K} {w : BacktestWorld K} {f : BacktestFrame K} {signals : List K}
  {s s' final : NeuralAlphaBacktest K} {bid ask sig : K} {ts : ℤ}

namespace Realizes

theorem init : Realizes ({} : NeuralAlphaBacktest K) where
  peakPnl := rfl
  maxDd := rfl
  flat _ := rfl
  holding h := absurd rfl h

theorem record (h : s.Realizes) (ts : ℤ) (value : K) : (s.record ts value).Realizes where
  peakPnl := h.peakPnl
  maxDd := h.maxDd
  flat := h.flat
  holding := h.holding

/-- **Closing the open trade** adds one value to the curve, and the drawdown follows it. -/
theorem closePosition (h : s.Realizes) (hposition : s.position ≠ 0) (bid ask : K) (ts : ℤ)
    (feeRate : K) (reason : CloseReason) :
    (s.closePosition bid ask ts feeRate reason).Realizes := by
  obtain ⟨trades, tr, htrades, hopen, hpnl⟩ := h.holding hposition
  obtain ⟨fillPx, fee, gross, heq⟩ : ∃ fillPx fee gross,
      s.closePosition bid ask ts feeRate reason =
        { s with
          pnl := s.pnl + (gross - fee)
          peakPnl := max s.peakPnl (s.pnl + (gross - fee))
          maxDd := min s.maxDd (s.pnl + (gross - fee) - max s.peakPnl (s.pnl + (gross - fee)))
          trades := trades ++ [tr.close ts fillPx fee gross reason]
          position := 0 } := by
    simp only [NeuralAlphaBacktest.closePosition, htrades, List.getLast?_concat, hopen,
      Option.isSome_none, Bool.false_eq_true, if_false, List.dropLast_concat]
    exact ⟨_, _, _, rfl⟩
  have hclosed : (tr.close ts fillPx fee gross reason).Closed := ⟨rfl, rfl⟩
  -- the profit is that of the closed trades, this one with them
  have hnet : Trade.closedPnl trades + (tr.close ts fillPx fee gross reason).netPnl.getD 0 =
      s.pnl + (gross - fee) := by
    have hvalue : (tr.close ts fillPx fee gross reason).netPnl.getD 0 =
        gross - fee - tr.entryFee := rfl
    rw [hvalue, hpnl]
    ring
  have hcurve : Trade.realizedCurve (trades ++ [tr.close ts fillPx fee gross reason]) =
      Trade.realizedCurve s.trades ++ [s.pnl + (gross - fee)] := by
    rw [Trade.realizedCurve_concat_closed hclosed, hnet, htrades,
      Trade.realizedCurve_concat_open hopen]
  rw [heq]
  exact {
    peakPnl := by rw [hcurve, peak_concat, h.peakPnl]
    maxDd := by rw [hcurve, maxDrawdown_concat, peak_concat, h.peakPnl, h.maxDd]
    flat := fun _ => by rw [Trade.closedPnl_concat_closed hclosed, hnet]
    holding := fun hne => absurd rfl hne }

variable [IsStrictOrderedRing K]

/-- An order without a quantity costs nothing, and leaves the position flat. -/
theorem openPosition (h : s.Realizes) (hposition : s.position = 0) (fillPx qty : K)
    (side : TradeSide) (ts : ℤ) (feeRate : K) :
    (s.openPosition fillPx qty side ts feeRate).Realizes where
  peakPnl := by rw [NeuralAlphaBacktest.openPosition, Trade.realizedCurve_concat_open rfl, h.peakPnl]
  maxDd := by rw [NeuralAlphaBacktest.openPosition, Trade.realizedCurve_concat_open rfl, h.maxDd]
  flat hqty := by
    change s.pnl - |qty| * fillPx * feeRate = Trade.closedPnl (s.trades ++ [_])
    rw [show qty = 0 from hqty, abs_zero, zero_mul, zero_mul, sub_zero,
      Trade.closedPnl_concat_open rfl, h.flat hposition]
  holding _ := by
    refine ⟨s.trades, _, rfl, rfl, ?_⟩
    rw [← h.flat hposition]
    rfl

theorem tryEnter (h : s.Realizes) (hposition : s.position = 0) {level qty : K} {side : TradeSide}
    (henter : s.tryEnter cfg w ts level qty side = some s') : s'.Realizes := by
  simp only [NeuralAlphaBacktest.tryEnter] at henter
  split at henter
  · obtain ⟨fillPx, -, rfl⟩ := Option.map_eq_some_iff.mp henter
    exact openPosition (s := { s with drawn := s.drawn + 1 }) ⟨h.1, h.2, h.3, h.4⟩ hposition ..
  · cases henter
    exact ⟨h.1, h.2, h.3, h.4⟩

/-- **A tick of the loop.** -/
theorem onQuote (h : s.Realizes) (hquote : s.onQuote cfg w bid ask ts sig = some s') :
    s'.Realizes := by
  have hrecorded : ∀ value, (s.record ts value).Realizes := h.record ts
  simp only [NeuralAlphaBacktest.onQuote] at hquote
  split at hquote
  · next hposition =>
    split at hquote
    · cases hquote
      exact (hrecorded _).closePosition hposition ..
    · split at hquote
      · cases hquote
        exact (hrecorded _).closePosition hposition ..
      · cases hquote
        exact hrecorded _
  · next hposition =>
    rw [not_not] at hposition
    split at hquote
    · exact (hrecorded _).tryEnter hposition hquote
    · split at hquote
      · exact (hrecorded _).tryEnter hposition hquote
      · cases hquote
        exact hrecorded _

/-- **The ticks**, one after the other. -/
theorem ticks {n : ℕ} (h : ticks cfg w f signals n = some s) : s.Realizes := by
  induction n generalizing s with
  | zero =>
    cases h
    exact init
  | succ n ih =>
    rw [ticks_succ] at h
    obtain ⟨before, hbefore, htick⟩ := Option.bind_eq_some_iff.mp h
    simp only [tick, Option.bind_eq_bind, Option.bind_eq_some_iff] at htick
    obtain ⟨bid, -, ask, -, ts, -, sig, -, hquote⟩ := htick
    exact (ih hbefore).onQuote hquote

/-- **The run**, with the position that the end of the data closes. -/
theorem run (h : run cfg w f signals = some final) : final.Realizes := by
  obtain ⟨s, hticks, hend⟩ := Option.bind_eq_some_iff.mp h
  split at hend
  · next hposition =>
    simp only [Option.bind_eq_bind, Option.bind_eq_some_iff] at hend
    obtain ⟨bid, -, ask, -, ts, -, hclose⟩ := hend
    cases hclose
    exact (ticks hticks).closePosition hposition.1 ..
  · cases hend
    exact ticks hticks

end Realizes

/-! ## The reported drawdown -/

variable (cfg w f signals) [IsStrictOrderedRing K]

/-- **The drawdown of the backtest is that of its closed trades.** For every configuration, frame,
signals and draws of a run with a closed trade, `max_drawdown_usd` is the deepest drop of the
cumulative net profit of the reported trades below its peak, or below zero. -/
theorem run_maxDrawdownUsd (hrun : NeuralAlphaBacktest.run cfg w f signals = some final)
    (hclosed : final.buildTradesDf ≠ []) : ∃ d, final.maxDrawdownUsd = some d ∧
      IsMaxDrawdown (cumulative (final.buildTradesDf.map fun tr => tr.netPnl.getD 0)) d := by
  refine ⟨final.maxDd, ?_, ?_⟩
  · rw [maxDrawdownUsd, if_neg (by rwa [List.isEmpty_iff])]
  · rw [(Realizes.run hrun).maxDd]
    exact isMaxDrawdown_maxDrawdown _

/-- Three rows whose price falls and then rises over where it began. -/
def dip : BacktestFrame ℚ where
  timestampNs := [1, 2, 3]
  bestBid := some [100, 999 / 10, 102]
  bestAsk := some [100, 999 / 10, 102]
  bidPrice1 := none
  askPrice1 := none
  length_eq := by decide +kernel

/-- What the run over these rows reports. -/
theorem run_dip : ∃ final,
    NeuralAlphaBacktest.run plainConfig ⟨fun _ => 0, fun _ => 0, fun _ => 0⟩ dip [1, 1, 0] =
        some final ∧
      final.maxDrawdownUsd = some 0 ∧ final.buildTradesDf ≠ [] ∧
      final.buildEquityDf = [0, -1 / 5, 19 / 10] := by
  have hsome : (NeuralAlphaBacktest.run plainConfig ⟨fun _ => 0, fun _ => 0, fun _ => 0⟩ dip
      [1, 1, 0]).any fun final => decide (final.maxDrawdownUsd = some 0 ∧
        final.buildTradesDf ≠ [] ∧ final.buildEquityDf = [0, -1 / 5, 19 / 10]) := by
    decide +kernel
  obtain ⟨final, hrun, h⟩ := (Option.any_eq_true _ _).mp hsome
  exact ⟨final, hrun, of_decide_eq_true h⟩

/-- One trade, bought at 100 and sold at 102: its profit does not fall below zero. -/
theorem run_maxDrawdownUsd_closed : ∃ final,
    NeuralAlphaBacktest.run plainConfig ⟨fun _ => 0, fun _ => 0, fun _ => 0⟩ dip [1, 1, 0] =
        some final ∧
      IsMaxDrawdown (cumulative (final.buildTradesDf.map fun tr => tr.netPnl.getD 0)) 0 := by
  obtain ⟨final, hrun, hreported, hclosed, -⟩ := run_dip
  obtain ⟨d, hd, hdrawdown⟩ := run_maxDrawdownUsd plainConfig
    ⟨fun _ => 0, fun _ => 0, fun _ => 0⟩ dip [1, 1, 0] hrun hclosed
  rw [hreported, Option.some_inj] at hd
  exact ⟨final, hrun, hd ▸ hdrawdown⟩

/-- The equity curve falls by the fee and by the loss while the trade is open, and the reported
drawdown is zero. -/
theorem run_maxDrawdownUsd_dip :
    (∀ bid ∈ dip.bids, 0 < bid) ∧ (∀ ask ∈ dip.asks, 0 < ask) ∧ ∃ final d,
      NeuralAlphaBacktest.run plainConfig ⟨fun _ => 0, fun _ => 0, fun _ => 0⟩ dip [1, 1, 0] =
          some final ∧
        final.buildTradesDf ≠ [] ∧ final.maxDrawdownUsd = some d ∧
        ¬ IsMaxDrawdown final.buildEquityDf d := by
  refine ⟨by decide +kernel, by decide +kernel, ?_⟩
  obtain ⟨final, hrun, hreported, hclosed, hequity⟩ := run_dip
  refine ⟨final, 0, hrun, hclosed, hreported, fun h => ?_⟩
  rw [hequity] at h
  exact absurd h.eq (by decide +kernel)

end NeuralAlphaBacktest

end TradingInfrastructure
