import Mathlib.Tactic

/-!
# The backtest

`NeuralAlphaBacktest` of `research/neural_alpha/evaluation/backtest.py`, over the numbers of an
ordered field. The square root and the exponential, which prices and fill probabilities use, and the
draws of the random generator are parameters. The metrics that the result is made into are left out.

The profit that the backtest keeps is that of its trades, at every tick and at the end
(`NeuralAlphaBacktest.run_settles`).
-/

namespace TradingInfrastructure

/-! ## Configuration and data -/

structure BacktestConfig (K : Type) where
  entryThresholdBps : K
  exitThresholdBps : K
  takerFeeBps : K
  tradeQty : K
  maxPosition : K
  latencyTicks : ℕ
  stopLossBps : K
  advUsd : K
  impactCoeff : K
  impactSquareRoot : Bool
  queueDecayLambda : K
  queueMinFillProb : K
  queueMaxFillProb : K

/-- The functions of the mathematical library, and the draws of the generator. -/
structure BacktestWorld (K : Type) where
  sqrt : K → K
  exp : K → K
  draw : ℕ → K

/-- The columns of the data that are read, of one length. -/
structure BacktestFrame (K : Type) where
  timestampNs : List ℤ
  bestBid : Option (List K)
  bestAsk : Option (List K)
  bidPrice1 : Option (List K)
  askPrice1 : Option (List K)
  length_eq : ∀ column ∈ [bestBid, bestAsk, bidPrice1, askPrice1].filterMap id,
    column.length = timestampNs.length

inductive TradeSide
  | long
  | short
  deriving DecidableEq

inductive CloseReason
  | stop
  | exit
  | eod
  deriving DecidableEq

structure Trade (K : Type) where
  openTs : ℤ
  closeTs : Option ℤ := none
  side : TradeSide
  entryPrice : K
  exitPrice : Option K := none
  qty : K
  entryFee : K
  exitFee : Option K := none
  grossPnl : Option K := none
  netPnl : Option K := none
  reason : Option CloseReason := none
  deriving DecidableEq

/-- The members that `_reset` clears, and the number of draws made. -/
structure NeuralAlphaBacktest (K : Type) [Zero K] where
  position : K := 0
  entryPrice : K := 0
  pnl : K := 0
  peakPnl : K := 0
  maxDd : K := 0
  trades : List (Trade K) := []
  equity : List (ℤ × K) := []
  drawn : ℕ := 0
  deriving DecidableEq

variable {K : Type} [Field K]

namespace BacktestFrame

/-- `_get_col`: the column, the one of the first level in its place, or zeros. -/
def getCol (f : BacktestFrame K) (column level1 : Option (List K)) : List K :=
  (column.or level1).getD (List.replicate f.timestampNs.length 0)

def bids (f : BacktestFrame K) : List K := f.getCol f.bestBid f.bidPrice1

def asks (f : BacktestFrame K) : List K := f.getCol f.bestAsk f.askPrice1

/-- The columns that are read are as long as the frame. -/
theorem length_getCol {f : BacktestFrame K} {column level1 : Option (List K)}
    (h : ∀ c ∈ [column, level1].filterMap id,
      c ∈ [f.bestBid, f.bestAsk, f.bidPrice1, f.askPrice1].filterMap id) :
    (f.getCol column level1).length = f.timestampNs.length := by
  cases column with
  | some c => exact f.length_eq c (h c (by simp))
  | none =>
    cases level1 with
    | some c => exact f.length_eq c (h c (by simp))
    | none => exact List.length_replicate

theorem length_bids (f : BacktestFrame K) : f.bids.length = f.timestampNs.length := by
  refine length_getCol fun c hc => ?_
  simp only [List.mem_filterMap, List.mem_cons] at hc ⊢
  obtain ⟨a, rfl | rfl | ha, hac⟩ := hc
  · exact ⟨f.bestBid, by simp, hac⟩
  · exact ⟨f.bidPrice1, by simp, hac⟩
  · cases ha

theorem length_asks (f : BacktestFrame K) : f.asks.length = f.timestampNs.length := by
  refine length_getCol fun c hc => ?_
  simp only [List.mem_filterMap, List.mem_cons] at hc ⊢
  obtain ⟨a, rfl | rfl | ha, hac⟩ := hc
  · exact ⟨f.bestAsk, by simp, hac⟩
  · exact ⟨f.askPrice1, by simp, hac⟩
  · cases ha

end BacktestFrame

variable [LinearOrder K]

namespace BacktestConfig

def feeRate (cfg : BacktestConfig K) : K := cfg.takerFeeBps / 10000

/-- `_apply_market_impact`. The square root of a negative number is an error. -/
def applyMarketImpact (cfg : BacktestConfig K) (w : BacktestWorld K) (fillPx qty : K) : Option K :=
  let notional := |qty| * fillPx
  let adv := max cfg.advUsd (1 / 10 ^ 9)
  let participation := notional / adv
  let signed : K → K := fun impact => if qty > 0 then impact else -impact
  if cfg.impactSquareRoot then
    if participation < 0 then none
    else some (fillPx * (1 + signed (cfg.impactCoeff * w.sqrt participation)))
  else some (fillPx * (1 + signed (cfg.impactCoeff * participation)))

/-- `_queue_fill_probability`. -/
def queueFillProbability (cfg : BacktestConfig K) (w : BacktestWorld K) (levelPrice qty : K) : K :=
  let queueDepth := max (levelPrice * qty) (1 / 10 ^ 9)
  let expectedFlow := cfg.queueDecayLambda * (cfg.tradeQty * levelPrice)
  let prob := 1 - w.exp (-(expectedFlow / queueDepth))
  min (max prob cfg.queueMinFillProb) cfg.queueMaxFillProb

end BacktestConfig

/-- `x / y < bound` of floating point numbers, where a quotient by zero is infinite. -/
def QuotientBelow (x y bound : K) : Prop := if y = 0 then x < 0 else x / y < bound

instance (x y bound : K) : Decidable (QuotientBelow x y bound) :=
  inferInstanceAs (Decidable (if y = 0 then x < 0 else x / y < bound))

/-- The trade after it is closed. -/
def Trade.close (tr : Trade K) (ts : ℤ) (fillPx fee gross : K) (reason : CloseReason) : Trade K :=
  { tr with
    closeTs := some ts
    exitPrice := some fillPx
    exitFee := some fee
    grossPnl := some gross
    netPnl := some (gross - fee - tr.entryFee)
    reason := some reason }

/-! ## The run -/

namespace NeuralAlphaBacktest

/-- `_open_position`. -/
def openPosition (s : NeuralAlphaBacktest K) (fillPx qty : K) (side : TradeSide) (ts : ℤ)
    (feeRate : K) : NeuralAlphaBacktest K :=
  let fee := |qty| * fillPx * feeRate
  { s with
    pnl := s.pnl - fee
    position := qty
    entryPrice := fillPx
    trades := s.trades ++
      [{ openTs := ts, side := side, entryPrice := fillPx, qty := qty, entryFee := fee }] }

/-- `_close_position`. -/
def closePosition (s : NeuralAlphaBacktest K) (bid ask : K) (ts : ℤ) (feeRate : K)
    (reason : CloseReason) : NeuralAlphaBacktest K :=
  match s.trades.getLast? with
  | none => { s with position := 0 }
  | some last =>
    if last.closeTs.isSome then { s with position := 0 }
    else
      let fillPx := if s.position > 0 then bid else ask
      let fee := |s.position| * fillPx * feeRate
      let gross := s.position * (fillPx - s.entryPrice)
      let pnl := s.pnl + (gross - fee)
      let peakPnl := max s.peakPnl pnl
      { s with
        pnl := pnl
        peakPnl := peakPnl
        maxDd := min s.maxDd (pnl - peakPnl)
        trades := s.trades.dropLast ++ [last.close ts fillPx fee gross reason]
        position := 0 }

/-- An entry of the equity curve. -/
def record (s : NeuralAlphaBacktest K) (ts : ℤ) (value : K) : NeuralAlphaBacktest K :=
  { s with equity := s.equity ++ [(ts, value)] }

/-- An order at a level of the book: a draw says whether it is filled. -/
def tryEnter (cfg : BacktestConfig K) (w : BacktestWorld K) (s : NeuralAlphaBacktest K) (ts : ℤ)
    (level qty : K) (side : TradeSide) : Option (NeuralAlphaBacktest K) :=
  let fillProb := cfg.queueFillProbability w level |qty|
  let draw := w.draw s.drawn
  let s := { s with drawn := s.drawn + 1 }
  if draw ≤ fillProb then
    (cfg.applyMarketImpact w level qty).map fun fillPx =>
      s.openPosition fillPx qty side ts cfg.feeRate
  else some s

/-- The body of the loop of `run`, on what it reads. -/
def onQuote (cfg : BacktestConfig K) (w : BacktestWorld K) (s : NeuralAlphaBacktest K) (bid ask : K)
    (ts : ℤ) (sig : K) : Option (NeuralAlphaBacktest K) :=
  let entryThresh := cfg.entryThresholdBps / 10000
  let exitThresh := cfg.exitThresholdBps / 10000
  let stopLoss := cfg.stopLossBps / 10000
  let mid := (bid + ask) / 2
  if s.position ≠ 0 then
    let currentVal := s.position * (mid - s.entryPrice)
    let s := s.record ts (s.pnl + currentVal)
    if QuotientBelow currentVal (|s.position| * s.entryPrice + 1 / 10 ^ 9) (-stopLoss) then
      some (s.closePosition bid ask ts cfg.feeRate .stop)
    else if (s.position > 0 ∧ sig < exitThresh) ∨ (s.position < 0 ∧ sig > -exitThresh) then
      some (s.closePosition bid ask ts cfg.feeRate .exit)
    else some s
  else
    let s := s.record ts s.pnl
    let netLongSig := sig - cfg.feeRate * 2
    let netShortSig := -sig - cfg.feeRate * 2
    let qty := min cfg.tradeQty cfg.maxPosition
    if netLongSig > entryThresh then s.tryEnter cfg w ts bid qty .long
    else if netShortSig > entryThresh then s.tryEnter cfg w ts ask (-qty) .short
    else some s

variable (cfg : BacktestConfig K) (w : BacktestWorld K) (f : BacktestFrame K) (signals : List K)

/-- The body of the loop of `run`. Reading beyond the end of the signals is an error. -/
def tick (s : NeuralAlphaBacktest K) (t : ℕ) : Option (NeuralAlphaBacktest K) := do
  let bid ← f.bids[t]?
  let ask ← f.asks[t]?
  let ts ← f.timestampNs[t]?
  let sig ← (List.replicate cfg.latencyTicks 0 ++ signals)[t]?
  s.onQuote cfg w bid ask ts sig

/-- The first ticks. -/
def ticks (n : ℕ) : Option (NeuralAlphaBacktest K) :=
  (List.range n).foldlM (tick cfg w f signals) {}

/-- `run`, up to the result that it returns. -/
def run : Option (NeuralAlphaBacktest K) := do
  let s ← ticks cfg w f signals f.timestampNs.length
  if s.position ≠ 0 ∧ 0 < f.timestampNs.length then
    let bid ← f.bids[f.timestampNs.length - 1]?
    let ask ← f.asks[f.timestampNs.length - 1]?
    let ts ← f.timestampNs[f.timestampNs.length - 1]?
    some (s.closePosition bid ask ts cfg.feeRate .eod)
  else some s

end NeuralAlphaBacktest

/-! ## The accounts of the trades -/

namespace Trade

variable {R : Type}

/-- A trade that is closed has a profit. -/
def Closed (tr : Trade R) : Prop := tr.closeTs.isSome ∧ tr.netPnl.isSome

/-- No trade is lost, and what is closed stays as it is. -/
def Keeps (trades trades' : List (Trade R)) : Prop :=
  ∀ (i : ℕ) (tr : Trade R), trades[i]? = some tr →
    ∃ tr', trades'[i]? = some tr' ∧ (tr.Closed → tr' = tr)

variable {trades trades' trades'' : List (Trade R)} {tr tr' : Trade R}

theorem Keeps.refl : Keeps trades trades := fun _ tr h => ⟨tr, h, fun _ => rfl⟩

theorem keeps_append : Keeps trades (trades ++ [tr]) := by
  intro i old hold
  obtain ⟨hi, -⟩ := List.getElem?_eq_some_iff.mp hold
  exact ⟨old, by rwa [List.getElem?_append_left hi], fun _ => rfl⟩

/-- The last trade, which is open, may change. -/
theorem keeps_concat_open (h : tr.closeTs = none) : Keeps (trades ++ [tr]) (trades ++ [tr']) := by
  intro i old hold
  by_cases hi : i < trades.length
  · rw [List.getElem?_append_left hi] at hold
    exact ⟨old, by rwa [List.getElem?_append_left hi], fun _ => rfl⟩
  · obtain ⟨hlt, -⟩ := List.getElem?_eq_some_iff.mp hold
    obtain rfl : i = trades.length := by
      rw [List.length_append, List.length_singleton] at hlt
      omega
    rw [List.getElem?_concat_length, Option.some_inj] at hold
    subst hold
    refine ⟨tr', List.getElem?_concat_length, fun hclosed => ?_⟩
    rw [Closed, h] at hclosed
    cases hclosed.1

variable [Ring R]

/-- The profit of the closed trades. -/
def closedPnl (trades : List (Trade R)) : R :=
  ((trades.filter fun tr => tr.closeTs.isSome).map fun tr => tr.netPnl.getD 0).sum

/-- What the open trades are worth at a price, less their entry fees. -/
def openValue (trades : List (Trade R)) (mid : R) : R :=
  ((trades.filter fun tr => tr.closeTs.isNone).map fun tr =>
    tr.qty * (mid - tr.entryPrice) - tr.entryFee).sum

theorem closedPnl_of_closed (h : ∀ tr ∈ trades, tr.Closed) :
    closedPnl trades = (trades.map fun tr => tr.netPnl.getD 0).sum := by
  rw [closedPnl, List.filter_eq_self.mpr fun tr htr => (h tr htr).1]

theorem closedPnl_concat_open (h : tr.closeTs = none) :
    closedPnl (trades ++ [tr]) = closedPnl trades := by
  simp [closedPnl, h]

theorem closedPnl_concat_closed (h : tr.Closed) :
    closedPnl (trades ++ [tr]) = closedPnl trades + tr.netPnl.getD 0 := by
  simp [closedPnl, h.1]

theorem openValue_of_closed (h : ∀ tr ∈ trades, tr.Closed) (mid : R) :
    openValue trades mid = 0 := by
  have hnone : (trades.filter fun tr => tr.closeTs.isNone) = [] := by
    rw [List.filter_eq_nil_iff]
    intro tr htr hopen
    rw [Option.isNone_iff_eq_none] at hopen
    have := (h tr htr).1
    rw [hopen] at this
    cases this
  rw [openValue, hnone, List.map_nil, List.sum_nil]

theorem openValue_concat (hclosed : ∀ tr ∈ trades, tr.Closed) (h : tr.closeTs = none) (mid : R) :
    openValue (trades ++ [tr]) mid = tr.qty * (mid - tr.entryPrice) - tr.entryFee := by
  have hrest : openValue trades mid = 0 := openValue_of_closed hclosed mid
  rw [openValue] at hrest ⊢
  rw [List.filter_append, List.map_append, List.sum_append, hrest]
  simp [h]

end Trade

/-! ## One tick -/

namespace NeuralAlphaBacktest

/-- **The books of the backtest.** Either all trades are closed, the position is flat and the profit
is theirs, or one more is open, the position is its quantity and its entry fee is paid. -/
inductive Accounted (maxPosition : K) (s : NeuralAlphaBacktest K) : Prop
  | flat (hposition : s.position = 0) (hclosed : ∀ tr ∈ s.trades, tr.Closed)
      (hpnl : s.pnl = Trade.closedPnl s.trades)
  | holding (closed : List (Trade K)) (tr : Trade K) (htrades : s.trades = closed ++ [tr])
      (hclosed : ∀ tr ∈ closed, tr.Closed) (hopen : tr.closeTs = none)
      (hposition : s.position = tr.qty) (hqty : tr.qty ≠ 0) (hle : |tr.qty| ≤ maxPosition)
      (hentry : s.entryPrice = tr.entryPrice)
      (hpnl : s.pnl = Trade.closedPnl closed - tr.entryFee)

/-- **What a tick may do**: it opens a trade when there is none, closes one that is open, keeps the
position bounded, and records the profit of the closed trades and the value of the open one. -/
structure TickAccounts (maxPosition : K) (ts : ℤ) (mid : K) (s s' : NeuralAlphaBacktest K) :
    Prop where
  opensFlat : s'.trades.length ≠ s.trades.length →
    s.position = 0 ∧ ∀ tr ∈ s.trades, tr.Closed
  keeps : Trade.Keeps s.trades s'.trades
  bound : |s'.position| ≤ maxPosition
  equity : s'.equity =
    s.equity ++ [(ts, Trade.closedPnl s.trades + Trade.openValue s.trades mid)]

variable {cfg : BacktestConfig K} {w : BacktestWorld K} {s s' : NeuralAlphaBacktest K}
  {bid ask sig : K} {ts : ℤ} {reason : CloseReason} {maxPosition : K}

/-- Closing the open trade. -/
theorem closePosition_eq {closed : List (Trade K)} {tr : Trade K} (h : s.trades = closed ++ [tr])
    (hopen : tr.closeTs = none) :
    ∃ fillPx fee gross peakPnl maxDd, s.closePosition bid ask ts cfg.feeRate reason =
      { s with
        pnl := s.pnl + (gross - fee), peakPnl := peakPnl, maxDd := maxDd
        trades := closed ++ [tr.close ts fillPx fee gross reason], position := 0 } := by
  simp only [closePosition, h, List.getLast?_concat, hopen, Option.isSome_none, Bool.false_eq_true,
    if_false, List.dropLast_concat]
  exact ⟨_, _, _, _, _, rfl⟩

/-- **Closing settles the books.** -/
theorem Accounted.closePosition (h : s.Accounted maxPosition) :
    ∀ s', s' = s.closePosition bid ask ts cfg.feeRate reason →
      s'.Accounted maxPosition ∧ s'.position = 0 ∧ s'.trades.length = s.trades.length ∧
        Trade.Keeps s.trades s'.trades ∧ s'.equity = s.equity := by
  rintro s' rfl
  cases h with
  | flat hposition hclosed hpnl =>
    have heq : s.closePosition bid ask ts cfg.feeRate reason = { s with position := 0 } := by
      unfold NeuralAlphaBacktest.closePosition
      split
      · rfl
      · next last hlast => rw [if_pos (hclosed last (List.mem_of_getLast? hlast)).1]
    rw [heq]
    exact ⟨.flat rfl hclosed hpnl, rfl, rfl, .refl, rfl⟩
  | holding closed tr htrades hclosed hopen hposition hqty hle hentry hpnl =>
    obtain ⟨fillPx, fee, gross, peakPnl, maxDd, heq⟩ : ∃ _ _ _ _ _, _ :=
      closePosition_eq htrades hopen
    have hnow : (tr.close ts fillPx fee gross reason).Closed := ⟨rfl, rfl⟩
    rw [heq]
    refine ⟨.flat rfl ?_ ?_, rfl, by simp [htrades], ?_, rfl⟩
    · intro tr' htr'
      rcases List.mem_append.mp htr' with htr' | htr'
      · exact hclosed tr' htr'
      · rw [List.mem_singleton.mp htr']
        exact hnow
    · have hnet : (tr.close ts fillPx fee gross reason).netPnl.getD 0 =
          gross - fee - tr.entryFee := rfl
      rw [Trade.closedPnl_concat_closed hnow, hnet, hpnl]
      ring
    · rw [htrades]
      exact Trade.keeps_concat_open hopen

variable [IsStrictOrderedRing K]

/-- **An order opens a trade where there is none, or nothing.** -/
theorem Accounted.tryEnter {r : NeuralAlphaBacktest K} {level qty : K} {side : TradeSide}
    (hposition : r.position = 0) (hclosed : ∀ tr ∈ r.trades, tr.Closed)
    (hpnl : r.pnl = Trade.closedPnl r.trades) (hqty : qty ≠ 0) (hle : |qty| ≤ maxPosition)
    (h : r.tryEnter cfg w ts level qty side = some s') :
    s'.Accounted maxPosition ∧ |s'.position| ≤ maxPosition ∧ Trade.Keeps r.trades s'.trades ∧
      s'.equity = r.equity := by
  have hmax : 0 ≤ maxPosition := (abs_nonneg qty).trans hle
  simp only [NeuralAlphaBacktest.tryEnter] at h
  split at h
  · obtain ⟨fillPx, -, rfl⟩ := Option.map_eq_some_iff.mp h
    refine ⟨.holding r.trades _ rfl hclosed rfl rfl hqty hle rfl ?_, hle, Trade.keeps_append, rfl⟩
    rw [← hpnl]
    rfl
  · cases h
    refine ⟨.flat hposition hclosed hpnl, ?_, .refl, rfl⟩
    rwa [hposition, abs_zero]

/-- The quantity of an order. -/
theorem min_qty (hqty : 0 < cfg.tradeQty) (hmax : 0 < cfg.maxPosition) :
    0 < min cfg.tradeQty cfg.maxPosition ∧
      |min cfg.tradeQty cfg.maxPosition| ≤ cfg.maxPosition := by
  have hpos : 0 < min cfg.tradeQty cfg.maxPosition := lt_min hqty hmax
  refine ⟨hpos, ?_⟩
  rw [abs_of_pos hpos]
  exact min_le_right ..

/-- **A tick keeps the books.** -/
theorem Accounted.onQuote (hqty : 0 < cfg.tradeQty) (hmax : 0 < cfg.maxPosition)
    (hs : s.Accounted cfg.maxPosition) (h : s.onQuote cfg w bid ask ts sig = some s') :
    s'.Accounted cfg.maxPosition ∧ TickAccounts cfg.maxPosition ts ((bid + ask) / 2) s s' := by
  obtain ⟨hpos, hle⟩ := min_qty hqty hmax
  cases hs with
  | holding closed tr htrades hclosed hopen hposition hne hbound hentry hpnl =>
    -- the entry of the curve, after which the books are as before
    have hvalue : s.pnl + s.position * ((bid + ask) / 2 - s.entryPrice) =
        Trade.closedPnl s.trades + Trade.openValue s.trades ((bid + ask) / 2) := by
      rw [htrades, Trade.closedPnl_concat_open hopen, Trade.openValue_concat hclosed hopen, hpnl,
        hposition, hentry]
      ring
    have hrecorded : ∀ value, (s.record ts value).Accounted cfg.maxPosition := fun value =>
      .holding closed tr htrades hclosed hopen hposition hne hbound hentry hpnl
    have hclose : ∀ reason s',
        s' = (s.record ts (s.pnl + s.position * ((bid + ask) / 2 - s.entryPrice))).closePosition
          bid ask ts cfg.feeRate reason →
        s'.Accounted cfg.maxPosition ∧ TickAccounts cfg.maxPosition ts ((bid + ask) / 2) s s' := by
      intro reason s' hs'
      obtain ⟨hbooks, hflat, hlength, hkeeps, hequity⟩ := (hrecorded _).closePosition s' hs'
      refine ⟨hbooks, fun hne => absurd hlength hne, hkeeps, ?_, ?_⟩
      · rw [hflat, abs_zero]
        exact hmax.le
      · rw [hequity, ← hvalue]
        rfl
    have hne' : s.position ≠ 0 := hposition ▸ hne
    simp only [NeuralAlphaBacktest.onQuote, if_pos hne'] at h
    split at h
    · exact hclose .stop s' (Option.some.inj h).symm
    · split at h
      · exact hclose .exit s' (Option.some.inj h).symm
      · cases h
        refine ⟨hrecorded _, fun hne => absurd rfl hne, .refl, ?_, ?_⟩
        · exact (congrArg abs hposition).trans_le hbound
        · rw [← hvalue]
          rfl
  | flat hposition hclosed hpnl =>
    have hvalue : s.pnl =
        Trade.closedPnl s.trades + Trade.openValue s.trades ((bid + ask) / 2) := by
      rw [Trade.openValue_of_closed hclosed, add_zero, hpnl]
    have henter : ∀ {level qty : K} {side : TradeSide}, qty ≠ 0 → |qty| ≤ cfg.maxPosition →
        (s.record ts s.pnl).tryEnter cfg w ts level qty side = some s' →
        s'.Accounted cfg.maxPosition ∧ TickAccounts cfg.maxPosition ts ((bid + ask) / 2) s s' := by
      intro level qty side hqty hle henter
      obtain ⟨hbooks, hbound, hkeeps, hequity⟩ :=
        Accounted.tryEnter (r := s.record ts s.pnl) hposition hclosed hpnl hqty hle henter
      refine ⟨hbooks, fun _ => ⟨hposition, hclosed⟩, hkeeps, hbound, ?_⟩
      rw [hequity, ← hvalue]
      rfl
    simp only [NeuralAlphaBacktest.onQuote, hposition, ne_eq, not_true_eq_false, if_false] at h
    split at h
    · exact henter hpos.ne' hle h
    · split at h
      · exact henter (neg_ne_zero.mpr hpos.ne') (by rwa [abs_neg]) h
      · cases h
        refine ⟨.flat hposition hclosed hpnl, fun hne => absurd rfl hne, .refl, ?_, ?_⟩
        · change |s.position| ≤ _
          rw [hposition, abs_zero]
          exact hmax.le
        · rw [← hvalue]
          rfl

/-! ## The run returns -/

variable (cfg w)

/-- At a positive price the impact is a number. -/
theorem applyMarketImpact_isSome {fillPx : K} (h : 0 < fillPx) (qty : K) :
    (cfg.applyMarketImpact w fillPx qty).isSome := by
  have hadv : (0 : K) < max cfg.advUsd (1 / 10 ^ 9) := lt_max_of_lt_right (by positivity)
  have hparticipation : ¬ |qty| * fillPx / max cfg.advUsd (1 / 10 ^ 9) < 0 :=
    not_lt.mpr (div_nonneg (mul_nonneg (abs_nonneg _) h.le) hadv.le)
  simp only [BacktestConfig.applyMarketImpact, hparticipation, if_false]
  split_ifs <;> rfl

theorem onQuote_isSome (s : NeuralAlphaBacktest K) (hbid : 0 < bid) (hask : 0 < ask) (ts : ℤ)
    (sig : K) : (s.onQuote cfg w bid ask ts sig).isSome := by
  have henter : ∀ (s : NeuralAlphaBacktest K) (level qty : K) (side : TradeSide), 0 < level →
      (s.tryEnter cfg w ts level qty side).isSome := by
    intro s level qty side hlevel
    simp only [NeuralAlphaBacktest.tryEnter]
    split_ifs
    · rw [Option.isSome_map]
      exact applyMarketImpact_isSome cfg w hlevel qty
    · rfl
  simp only [NeuralAlphaBacktest.onQuote]
  split_ifs
  · rfl
  · rfl
  · rfl
  · exact henter _ _ _ _ hbid
  · exact henter _ _ _ _ hask
  · rfl

variable {f : BacktestFrame K} {signals : List K}

omit [IsStrictOrderedRing K] in
/-- What a tick of the frame reads. -/
theorem tick_eq {t : ℕ} (ht : t < f.timestampNs.length)
    (hsignals : f.timestampNs.length ≤ cfg.latencyTicks + signals.length) :
    ∃ bid ask ts sig, f.bids[t]? = some bid ∧ f.asks[t]? = some ask ∧
      f.timestampNs[t]? = some ts ∧ ∀ s, tick cfg w f signals s t =
        s.onQuote cfg w bid ask ts sig := by
  have hbids : t < f.bids.length := by rwa [f.length_bids]
  have hasks : t < f.asks.length := by rwa [f.length_asks]
  have hpadded : t < (List.replicate cfg.latencyTicks 0 ++ signals).length := by
    rw [List.length_append, List.length_replicate]
    omega
  refine ⟨_, _, _, (List.replicate cfg.latencyTicks 0 ++ signals)[t],
    List.getElem?_eq_getElem hbids, List.getElem?_eq_getElem hasks,
    List.getElem?_eq_getElem ht, fun s => ?_⟩
  rw [tick, List.getElem?_eq_getElem hbids, List.getElem?_eq_getElem hasks,
    List.getElem?_eq_getElem ht, List.getElem?_eq_getElem hpadded]
  rfl

omit [IsStrictOrderedRing K] in
theorem ticks_succ (n : ℕ) :
    ticks cfg w f signals (n + 1) = (ticks cfg w f signals n).bind (tick cfg w f signals · n) := by
  rw [ticks, List.range_succ, List.foldlM_append]
  exact bind_congr fun s => by simp

/-- The ticks go through, and the books are right after each. -/
theorem ticks_spec (hqty : 0 < cfg.tradeQty) (hmax : 0 < cfg.maxPosition)
    (hbids : ∀ bid ∈ f.bids, 0 < bid) (hasks : ∀ ask ∈ f.asks, 0 < ask)
    (hsignals : f.timestampNs.length ≤ cfg.latencyTicks + signals.length) {n : ℕ}
    (hn : n ≤ f.timestampNs.length) :
    ∃ s, ticks cfg w f signals n = some s ∧ s.Accounted cfg.maxPosition := by
  induction n with
  | zero => exact ⟨{}, rfl, .flat rfl (fun tr htr => (by cases htr)) rfl⟩
  | succ n ih =>
    obtain ⟨s, hs, hbooks⟩ := ih (by omega)
    obtain ⟨bid, ask, ts, sig, hbid, hask, -, htick⟩ :=
      tick_eq cfg w hn hsignals
    obtain ⟨s', hs'⟩ := Option.isSome_iff_exists.mp
      (onQuote_isSome cfg w s (hbids bid (List.mem_of_getElem? hbid))
        (hasks ask (List.mem_of_getElem? hask)) ts sig)
    refine ⟨s', ?_, (hbooks.onQuote hqty hmax hs').1⟩
    rw [ticks_succ, hs, Option.bind_some, htick, hs']

variable (f signals)

/-- **The accounts of the backtest.** For every frame of positive prices, with signals that reach to
its end, and every draws: the run returns; each tick opens a trade only where there is none, leaves
the closed ones as they are, keeps the position bounded, and records the profit of the closed trades
and the value of the open one less its entry fee; at the end every trade is closed, and the profit
is the sum of theirs. -/
theorem run_settles (hqty : 0 < cfg.tradeQty) (hmax : 0 < cfg.maxPosition)
    (hbids : ∀ bid ∈ f.bids, 0 < bid) (hasks : ∀ ask ∈ f.asks, 0 < ask)
    (hsignals : f.timestampNs.length ≤ cfg.latencyTicks + signals.length) :
    ∃ (states : ℕ → NeuralAlphaBacktest K) (final : NeuralAlphaBacktest K),
      (∀ t ≤ f.timestampNs.length, ticks cfg w f signals t = some (states t)) ∧
      (∀ t < f.timestampNs.length, ∃ bid ∈ f.bids[t]?, ∃ ask ∈ f.asks[t]?,
        ∃ ts ∈ f.timestampNs[t]?,
          TickAccounts cfg.maxPosition ts ((bid + ask) / 2) (states t) (states (t + 1))) ∧
      run cfg w f signals = some final ∧
      final.trades.length = (states f.timestampNs.length).trades.length ∧
      Trade.Keeps (states f.timestampNs.length).trades final.trades ∧
      final.equity = (states f.timestampNs.length).equity ∧ final.position = 0 ∧
      (∀ tr ∈ final.trades, tr.Closed) ∧
      final.pnl = (final.trades.map fun tr => tr.netPnl.getD 0).sum := by
  have hspec : ∀ n ≤ f.timestampNs.length,
      ∃ s, ticks cfg w f signals n = some s ∧ s.Accounted cfg.maxPosition :=
    fun n hn => ticks_spec cfg w hqty hmax hbids hasks hsignals hn
  have hstates : ∀ t ≤ f.timestampNs.length,
      ticks cfg w f signals t = some ((ticks cfg w f signals t).getD {}) := by
    intro t ht
    obtain ⟨s, hs, -⟩ := hspec t ht
    rw [hs, Option.getD_some]
  obtain ⟨last, hlast, hbooks⟩ := hspec _ le_rfl
  -- the end of the data
  obtain ⟨final, hrun, hflat, hlength, hkeeps, hequity, hfinal⟩ : ∃ final,
      run cfg w f signals = some final ∧ final.position = 0 ∧
        final.trades.length = last.trades.length ∧ Trade.Keeps last.trades final.trades ∧
        final.equity = last.equity ∧ final.Accounted cfg.maxPosition := by
    by_cases hend : last.position ≠ 0 ∧ 0 < f.timestampNs.length
    · obtain ⟨bid, ask, ts, sig, hbid, hask, hts, -⟩ :=
        tick_eq cfg w (Nat.sub_lt hend.2 one_pos) hsignals
      obtain ⟨hfinal, hflat, hlength, hkeeps, hequity⟩ := hbooks.closePosition
        (last.closePosition bid ask ts cfg.feeRate .eod) rfl
      refine ⟨_, ?_, hflat, hlength, hkeeps, hequity, hfinal⟩
      rw [run, hlast]
      simp only [Option.bind_eq_bind, Option.bind_some, hend, ne_eq, not_false_eq_true, and_self,
        if_true, hbid, hask, hts]
    · have hflat : last.position = 0 := by
        by_contra hne
        have hempty : f.timestampNs.length = 0 := by
          by_contra hpos
          exact hend ⟨hne, Nat.pos_of_ne_zero hpos⟩
        rw [hempty] at hlast
        cases hlast
        exact hne rfl
      refine ⟨last, ?_, hflat, rfl, .refl, rfl, hbooks⟩
      rw [run, hlast]
      simp only [Option.bind_eq_bind, Option.bind_some, hend, if_false]
  refine ⟨fun t => (ticks cfg w f signals t).getD {}, final, hstates, ?_, hrun, ?_⟩
  · intro t ht
    obtain ⟨bid, ask, ts, sig, hbid, hask, hts, htick⟩ :=
      tick_eq cfg w ht hsignals
    obtain ⟨s, hs, hs'⟩ := hspec t ht.le
    obtain ⟨s', hnext, -⟩ := hspec (t + 1) ht
    refine ⟨bid, hbid, ask, hask, ts, hts, ?_⟩
    simp only [hs, hnext, Option.getD_some]
    rw [ticks_succ, hs, Option.bind_some, htick] at hnext
    exact (hs'.onQuote hqty hmax hnext).2
  · simp only [hlast, Option.getD_some]
    refine ⟨hlength, hkeeps, hequity, hflat, ?_⟩
    cases hfinal with
    | flat _ hclosed hpnl => exact ⟨hclosed, hpnl.trans (Trade.closedPnl_of_closed hclosed)⟩
    | holding closed tr _ _ _ hposition hne => exact absurd (hposition.symm.trans hflat) hne

/-- Two rows, a signal to buy and its end. -/
def roundTrip : BacktestFrame ℚ where
  timestampNs := [1, 2]
  bestBid := some [100, 102]
  bestAsk := some [101, 103]
  bidPrice1 := none
  askPrice1 := none
  length_eq := by decide

/-- No impact, and a fee of ten basis points. -/
def plainConfig : BacktestConfig ℚ where
  entryThresholdBps := 5
  exitThresholdBps := 1
  takerFeeBps := 10
  tradeQty := 1
  maxPosition := 10
  latencyTicks := 0
  stopLossBps := 20
  advUsd := 1
  impactCoeff := 0
  impactSquareRoot := false
  queueDecayLambda := 1
  queueMinFillProb := 1
  queueMaxFillProb := 1

/-- The purchase at 100 and the sale at 102 leave the difference less two fees. -/
theorem run_settles_roundTrip : ∃ final,
    run plainConfig ⟨fun _ => 0, fun _ => 0, fun _ => 0⟩ roundTrip [1, 0] = some final ∧
      final.pnl = (final.trades.map fun tr => tr.netPnl.getD 0).sum ∧
      final.pnl = 2 - 1 / 10 - 102 / 1000 := by
  obtain ⟨states, final, -, -, hrun, -, -, -, -, -, hpnl⟩ :=
    run_settles plainConfig ⟨fun _ => 0, fun _ => 0, fun _ => 0⟩ roundTrip [1, 0]
      (by norm_num [plainConfig]) (by norm_num [plainConfig]) (by decide +kernel)
        (by decide +kernel) (by decide +kernel)
  refine ⟨final, hrun, hpnl, ?_⟩
  have hvalue : (run plainConfig ⟨fun _ => 0, fun _ => 0, fun _ => 0⟩ roundTrip [1, 0]).map
      NeuralAlphaBacktest.pnl = some (2 - 1 / 10 - 102 / 1000) := by
    decide +kernel
  rw [hrun] at hvalue
  exact Option.some.inj hvalue

end NeuralAlphaBacktest

end TradingInfrastructure
