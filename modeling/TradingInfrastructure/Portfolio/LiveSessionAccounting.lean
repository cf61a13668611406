import TradingInfrastructure.Reconciliation.Snapshot
import TradingInfrastructure.Risk.GlobalRiskControls

/-!
# The capital of a live session

`core/execution/common/portfolio/live_session_accounting.hpp`: what the session takes from the
snapshots of its venues, whether a venue can afford an order, and what the session has gained or
lost. A venue is counted once it is configured. The clock is an argument. -/

namespace TradingInfrastructure

/-- `LiveSessionVenueMetrics`. -/
structure LiveSessionVenueMetrics where
  exchange : Exchange := .unknown
  configured : Bool := false
  startEquity : ℚ := 0
  endEquity : ℚ := 0
  realizedPnl : ℚ := 0
  unrealizedPnl : ℚ := 0
  fees : ℚ := 0
  netPnl : ℚ := 0
  returnPct : ℚ := 0
  freeCollateral : ℚ := 0
  minFreeCollateralBuffer : ℚ := 0
  hasReconciledEquity : Bool := false

/-- `LiveSessionGlobalMetrics`. -/
structure LiveSessionGlobalMetrics where
  startEquity : ℚ := 0
  endEquity : ℚ := 0
  realizedPnl : ℚ := 0
  unrealizedPnl : ℚ := 0
  fees : ℚ := 0
  netPnl : ℚ := 0
  returnPct : ℚ := 0

/-- `SeenFillKey`. -/
structure SeenFillKey where
  venueTradeId : CString := []
  exchangeTsNs : ℤ := 0
  active : Bool := false
  deriving DecidableEq

/-- `VenueState` of the accounting. -/
structure AccountingVenue where
  metrics : LiveSessionVenueMetrics := {}
  lastSnapshot : ReconciliationSnapshot := .empty
  seenFillKeys : List SeenFillKey := List.replicate 4096 {}
  seenFillCursor : ℕ := 0

/-- `LiveSessionAccounting`. -/
structure LiveSessionAccounting where
  venues : Fin 4 → AccountingVenue
  lastUpdateTsNs : ℤ := 0

namespace AccountingVenue

/-- `is_fill_seen`. -/
def isFillSeen (state : AccountingVenue) (fill : ReconciledFill) : Bool :=
  state.seenFillKeys.any fun key =>
    key.active && key.exchangeTsNs == fill.exchangeTsNs &&
      strncmpEq 64 key.venueTradeId fill.venueTradeId

/-- `remember_fill`. -/
def rememberFill (state : AccountingVenue) (fill : ReconciledFill) : AccountingVenue :=
  { state with
    seenFillKeys := state.seenFillKeys.set (state.seenFillCursor % 4096)
      { venueTradeId := strncpyBuf 64 fill.venueTradeId
        exchangeTsNs := fill.exchangeTsNs
        active := true }
    seenFillCursor := state.seenFillCursor + 1 }

end AccountingVenue

namespace LiveSessionAccounting

/-- `venue_index`, which takes an unknown exchange for Binance. -/
def venueIndex (exchange : Exchange) : Fin 4 :=
  (GlobalRiskControls.venueIndex exchange).getD ⟨0, by decide⟩

/-- `index_to_exchange`. -/
def indexToExchange : ℕ → Exchange
  | 0 => .binance
  | 1 => .okx
  | 2 => .coinbase
  | 3 => .kraken
  | _ => .unknown

/-- The constructor. -/
def new : LiveSessionAccounting where
  venues i := { metrics := { exchange := indexToExchange i } }

/-- `update_derived`. -/
def updateDerived (metrics : LiveSessionVenueMetrics) : LiveSessionVenueMetrics :=
  let netPnl := metrics.endEquity - metrics.startEquity
  { metrics with
    netPnl := netPnl
    realizedPnl := netPnl - metrics.unrealizedPnl + metrics.fees
    returnPct := if metrics.startEquity > 0 then netPnl / metrics.startEquity * 100 else 0 }

/-- `configure_venue`. -/
def configureVenue (a : LiveSessionAccounting) (exchange : Exchange)
    (startEquity minFreeCollateralBuffer : ℚ) : LiveSessionAccounting :=
  let state := a.venues (venueIndex exchange)
  { a with
    venues := Function.update a.venues (venueIndex exchange)
      { state with
        metrics := updateDerived
          { state.metrics with
            configured := true
            startEquity := max 0 startEquity
            endEquity := max 0 startEquity
            minFreeCollateralBuffer := max 0 minFreeCollateralBuffer } } }

/-- `sum_total`. -/
def sumTotal (snapshot : ReconciliationSnapshot) : ℚ :=
  (snapshot.balances.items.map fun balance => max 0 balance.total).sum

/-- `sum_available`. -/
def sumAvailable (snapshot : ReconciliationSnapshot) : ℚ :=
  (snapshot.balances.items.map fun balance => max 0 balance.available).sum

/-- `is_stable_quote`. -/
def isStableQuote (asset : CString) : Bool :=
  asset == "USDT".toList || asset == "USD".toList || asset == "USDC".toList

/-- What a position has gained at a mark price. -/
def unrealizedOf (position : ReconciledPosition) (markPrice : ℚ) : ℚ :=
  if position.quantity > 0 then (markPrice - position.avgEntryPrice) * position.quantity
  else (position.avgEntryPrice - markPrice) * -position.quantity

/-- `compute_unrealized`. An empty symbol stands for every symbol, as a null pointer does. -/
def computeUnrealized (snapshot : ReconciliationSnapshot) (symbol : CString) (markPrice : ℚ) : ℚ :=
  if markPrice ≤ 0 then 0
  else
    ((snapshot.positions.items.filter fun position =>
      (symbol == [] || position.symbol == symbol) && decide (0 < position.avgEntryPrice)).map
        fun position => unrealizedOf position markPrice).sum

/-- `fee_to_usd`. -/
def feeToUsd (fill : ReconciledFill) : ℚ :=
  if fill.fee ≤ 0 then 0
  else if isStableQuote fill.feeAsset then fill.fee
  else if fill.feeAsset.length ≤ fill.symbol.length ∧ fill.feeAsset ≠ [] then
    fill.fee * max 0 fill.price
  else fill.fee

/-- The loop of `collect_new_fees`: the fees of the fills not seen before, and the venue that has
seen them. -/
def collectLoop : AccountingVenue → List ReconciledFill → ℚ × AccountingVenue
  | state, [] => (0, state)
  | state, fill :: fills =>
    if state.isFillSeen fill then collectLoop state fills
    else
      let rest := collectLoop (state.rememberFill fill) fills
      (feeToUsd fill + rest.1, rest.2)

/-- `collect_new_fees`. -/
def collectNewFees (state : AccountingVenue) (snapshot : ReconciliationSnapshot) :
    ℚ × AccountingVenue :=
  let collected := collectLoop state snapshot.fills.items
  (collected.1, { collected.2 with lastSnapshot := snapshot })

/-- `ingest_reconciliation`, on the state of the venue. -/
def ingestVenue (state : AccountingVenue) (snapshot : ReconciliationSnapshot) (symbol : CString)
    (markPrice : ℚ) : AccountingVenue :=
  let collected := collectNewFees state snapshot
  { collected.2 with
    metrics := updateDerived
      { state.metrics with
        freeCollateral := sumAvailable snapshot
        endEquity := sumTotal snapshot
        hasReconciledEquity := true
        unrealizedPnl := computeUnrealized snapshot symbol markPrice
        fees := state.metrics.fees + collected.1 } }

/-- `ingest_reconciliation`. -/
def ingestReconciliation (a : LiveSessionAccounting) (exchange : Exchange)
    (snapshot : ReconciliationSnapshot) (symbol : CString) (markPrice : ℚ) (now : ℤ) :
    LiveSessionAccounting where
  venues := Function.update a.venues (venueIndex exchange)
    (ingestVenue (a.venues (venueIndex exchange)) snapshot symbol markPrice)
  lastUpdateTsNs := now

/-- `infer_quote_asset`. -/
def inferQuoteAsset (symbol : CString) : CString :=
  if "USDT".toList.isSuffixOf symbol then "USDT".toList
  else if "USDC".toList.isSuffixOf symbol then "USDC".toList
  else if "USD".toList.isSuffixOf symbol then "USD".toList
  else []

/-- `infer_base_asset`. -/
def inferBaseAsset (symbol quoteAsset : CString) : CString :=
  if quoteAsset = [] ∨ symbol.length ≤ quoteAsset.length then symbol
  else symbol.take (symbol.length - quoteAsset.length)

/-- `find_available_asset`. -/
def findAvailableAsset (snapshot : ReconciliationSnapshot) (asset : CString) : ℚ :=
  if asset = [] then 0
  else
    match snapshot.balances.items.find? fun balance => balance.asset == asset with
    | some balance => max 0 balance.available
    | none => 0

/-- `can_afford_spot_order`. -/
def canAffordSpotOrder (a : LiveSessionAccounting) (exchange : Exchange)
    (symbol : CString) (side : Side)
    (quantity price feeBps : ℚ) : Bool :=
  let state := a.venues (venueIndex exchange)
  let quoteAsset := inferQuoteAsset symbol
  if quantity ≤ 0 ∨ price ≤ 0 ∨ state.metrics.configured = false then false
  else
    match side with
    | .bid =>
      let buyNotional := quantity * price
      let fee := buyNotional * max 0 feeBps / 10000
      let available := findAvailableAsset state.lastSnapshot quoteAsset
      let availableQuote :=
        if available ≤ 0 ∧ isStableQuote quoteAsset = true then state.metrics.startEquity
        else available
      availableQuote ≥ buyNotional + fee + state.metrics.minFreeCollateralBuffer
    | .ask => findAvailableAsset state.lastSnapshot (inferBaseAsset symbol quoteAsset) ≥ quantity

/-- `can_afford_futures_order`. -/
def canAffordFuturesOrder (a : LiveSessionAccounting) (exchange : Exchange)
    (quantity price feeBps leverage : ℚ) : Bool :=
  let metrics := (a.venues (venueIndex exchange)).metrics
  if quantity ≤ 0 ∨ price ≤ 0 ∨ metrics.configured = false then false
  else
    let notional := quantity * price
    let required := notional / max 1 leverage + notional * max 0 feeBps / 10000 +
      metrics.minFreeCollateralBuffer
    let available :=
      if metrics.freeCollateral > 0 then metrics.freeCollateral else metrics.startEquity
    available ≥ required

/-- `venue_metrics`. -/
def venueMetrics (a : LiveSessionAccounting) (exchange : Exchange) : LiveSessionVenueMetrics :=
  (a.venues (venueIndex exchange)).metrics

/-- `global_metrics`. -/
def globalMetrics (a : LiveSessionAccounting) : LiveSessionGlobalMetrics :=
  let configured := ((List.finRange 4).map fun i => (a.venues i).metrics).filter (·.configured)
  let startEquity := (configured.map (·.startEquity)).sum
  let endEquity := (configured.map (·.endEquity)).sum
  let unrealizedPnl := (configured.map (·.unrealizedPnl)).sum
  let fees := (configured.map (·.fees)).sum
  let netPnl := endEquity - startEquity
  { startEquity, endEquity, unrealizedPnl, fees, netPnl
    realizedPnl := netPnl - unrealizedPnl + fees
    returnPct := if startEquity > 0 then netPnl / startEquity * 100 else 0 }

end LiveSessionAccounting

/-! ## Runs -/

/-- A call of the accounting. -/
inductive AccountingCall
  | configureVenue (exchange : Exchange) (startEquity minFreeCollateralBuffer : ℚ)
  | ingestReconciliation (exchange : Exchange) (snapshot : ReconciliationSnapshot)
    (symbol : CString) (markPrice : ℚ) (now : ℤ)

/-- The snapshot of a venue that a call brings. -/
def AccountingCall.snapshotOf (exchange : Exchange) :
    AccountingCall → Option ReconciliationSnapshot
  | configureVenue _ _ _ => none
  | ingestReconciliation exchange' snapshot _ _ _ =>
    if LiveSessionAccounting.venueIndex exchange' = LiveSessionAccounting.venueIndex exchange then
      some snapshot
    else none

namespace LiveSessionAccounting

/-- What a call makes of the accounting. -/
def call (a : LiveSessionAccounting) : AccountingCall → LiveSessionAccounting
  | .configureVenue exchange startEquity minFreeCollateralBuffer =>
    a.configureVenue exchange startEquity minFreeCollateralBuffer
  | .ingestReconciliation exchange snapshot symbol markPrice now =>
    a.ingestReconciliation exchange snapshot symbol markPrice now

/-- The snapshots of a venue that a run of calls brings. -/
def snapshotsOf (exchange : Exchange) (calls : List AccountingCall) :
    List ReconciliationSnapshot :=
  calls.filterMap (·.snapshotOf exchange)

variable {exchange : Exchange}

theorem venues_ingestReconciliation (a : LiveSessionAccounting) {exchange' : Exchange}
    (h : venueIndex exchange' = venueIndex exchange) (snapshot : ReconciliationSnapshot)
    (symbol : CString) (markPrice : ℚ) (now : ℤ) :
    (a.ingestReconciliation exchange' snapshot symbol markPrice now).venues (venueIndex exchange) =
      ingestVenue (a.venues (venueIndex exchange)) snapshot symbol markPrice := by
  rw [ingestReconciliation, h]
  exact Function.update_self ..

theorem venues_ingestReconciliation_of_ne (a : LiveSessionAccounting) {exchange' : Exchange}
    {i : Fin 4} (h : i ≠ venueIndex exchange') (snapshot : ReconciliationSnapshot)
    (symbol : CString) (markPrice : ℚ) (now : ℤ) :
    (a.ingestReconciliation exchange' snapshot symbol markPrice now).venues i = a.venues i :=
  Function.update_of_ne h ..

/-- What a configuration makes of a venue. -/
def configuredVenue (state : AccountingVenue) (startEquity buffer : ℚ) : AccountingVenue :=
  { state with
    metrics := updateDerived
      { state.metrics with
        configured := true
        startEquity := max 0 startEquity
        endEquity := max 0 startEquity
        minFreeCollateralBuffer := max 0 buffer } }

/-- **What a call does to a venue**: it configures the venue, or takes a snapshot of it in, or
leaves it. -/
theorem venues_call_cases (a : LiveSessionAccounting) (c : AccountingCall) (exchange : Exchange) :
    (c.snapshotOf exchange = none ∧
        (a.call c).venues (venueIndex exchange) = a.venues (venueIndex exchange)) ∨
      (c.snapshotOf exchange = none ∧ ∃ startEquity buffer,
        (a.call c).venues (venueIndex exchange) =
          configuredVenue (a.venues (venueIndex exchange)) startEquity buffer) ∨
      ∃ snapshot symbol markPrice, c.snapshotOf exchange = some snapshot ∧
        (a.call c).venues (venueIndex exchange) =
          ingestVenue (a.venues (venueIndex exchange)) snapshot symbol markPrice := by
  cases c with
  | configureVenue exchange' startEquity buffer =>
    by_cases hsame : venueIndex exchange = venueIndex exchange'
    · refine Or.inr (Or.inl ⟨rfl, startEquity, buffer, ?_⟩)
      rw [call, configureVenue, hsame]
      exact Function.update_self ..
    · exact Or.inl ⟨rfl, Function.update_of_ne hsame ..⟩
  | ingestReconciliation exchange' snapshot symbol markPrice now =>
    by_cases hsame : venueIndex exchange' = venueIndex exchange
    · exact Or.inr (Or.inr ⟨snapshot, symbol, markPrice, if_pos hsame,
        venues_ingestReconciliation a hsame snapshot symbol markPrice now⟩)
    · exact Or.inl ⟨if_neg hsame,
        venues_ingestReconciliation_of_ne a (Ne.symm hsame) snapshot symbol markPrice now⟩

end LiveSessionAccounting

end TradingInfrastructure
