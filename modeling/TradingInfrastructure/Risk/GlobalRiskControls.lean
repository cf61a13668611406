import TradingInfrastructure.Common.Types
import TradingInfrastructure.Foundations.SlotPool

/-!
# The global risk controls

`GlobalRiskControls` of `core/risk/global_risk_controls.hpp`: every order is checked against caps
on its gross and net notional, its venue and its symbol, and is then added to the totals that the
next check reads. A futures order passes a gate first, which may scale it down.

The search for a symbol runs over the `next_slot_` first entries of a table of 32. Once more slots
have been asked for than there are, a search that finds nothing reads past the table
(`RiskFault`).
-/

namespace TradingInfrastructure

inductive KillReason
  | manual | drawdown | circuitBreaker | heartbeatMissed | bookCorrupted
  deriving DecidableEq, Inhabited, Repr

/-- `KillSwitch`, without the heartbeat that the risk controls do not use. -/
structure KillSwitch where
  active : Bool := false
  reason : KillReason := .manual
  deriving DecidableEq, Inhabited

/-- `trigger`. -/
def KillSwitch.trigger (_ : KillSwitch) (reason : KillReason) : KillSwitch := ⟨true, reason⟩

structure GlobalRiskConfig where
  maxGrossNotional : ℚ
  maxNetNotional : ℚ
  maxSymbolConcentration : ℚ
  maxVenueNotional : ℚ
  maxCrossVenueNetNotional : ℚ
  killOnBreach : Bool

structure FuturesRiskGateSymbolConfig where
  symbol : Symbol := default
  maxLeverage : ℚ := 0

/-- `FuturesRiskGateConfig`, with the `symbol_limit_count` entries of `symbol_limits` in use. -/
structure FuturesRiskGateConfig where
  enabled : Bool := false
  maxProjectedFundingCostBps : ℚ := 0
  fundingCostScaleStartBps : ℚ := 0
  minFundingScale : ℚ := 1
  maxMarkIndexDivergenceBps : ℚ := 0
  maxMaintenanceMarginRatio : ℚ := 0
  defaultMaxLeverage : ℚ := 0
  symbolLimits : List FuturesRiskGateSymbolConfig := []
  symbolLimits_length_le : symbolLimits.length ≤ 16 := by decide

/-- The gate is off. -/
def FuturesRiskGateConfig.off : FuturesRiskGateConfig := {}

structure FuturesRiskContext where
  collateralNotional : ℚ := 0
  currentAbsNotional : ℚ := 0
  maintenanceMarginRatio : ℚ := 0
  markPrice : ℚ := 0
  indexPrice : ℚ := 0
  fundingRateBps : ℚ := 0
  hoursToFunding : ℚ := 8

inductive GlobalRiskCheckResult
  | ok | invalidInput | grossNotionalCap | netNotionalCap | concentrationCap | venueCap
  | crossVenueNettingCap | futuresLeverageCap | futuresMaintenanceMarginCap
  | futuresMarkIndexDivergenceCap | futuresFundingCostCap
  deriving DecidableEq, Inhabited, Repr

structure SymbolState where
  active : Bool := false
  symbol : Symbol := default
  grossNotional : ℚ := 0
  netNotional : ℚ := 0
  deriving DecidableEq, Inhabited

/-- The state answers to this symbol. -/
def SymbolState.isFor (symbol : CString) (s : SymbolState) : Bool :=
  s.active && strncmpEq 16 s.symbol.chars symbol

structure GlobalRiskControls where
  cfg : GlobalRiskConfig
  futuresCfg : FuturesRiskGateConfig
  killSwitch : KillSwitch
  grossNotional : ℚ
  netNotional : ℚ
  venueGrossNotional : Fin 4 → ℚ
  symbolStates : List SymbolState
  nextSlot : ℕ

/-- A read or a write outside an array. -/
inductive RiskFault
  | symbolStates | venueGrossNotional
  deriving DecidableEq, Repr

/-! ## The futures gate -/

namespace FuturesRiskGateConfig

/-- `max_leverage_for_symbol`. -/
def maxLeverageForSymbol (cfg : FuturesRiskGateConfig) (symbol : CString) : ℚ :=
  match cfg.symbolLimits.find? fun l => strncmpEq 16 l.symbol.chars symbol with
  | some l => l.maxLeverage
  | none => cfg.defaultMaxLeverage

/-- What the gate makes of the notional of an order that it lets pass. -/
def scale (cfg : FuturesRiskGateConfig) (signedNotional projectedFundingCostBps : ℚ) : ℚ :=
  if cfg.fundingCostScaleStartBps > 0 ∧
      cfg.maxProjectedFundingCostBps > cfg.fundingCostScaleStartBps ∧
      projectedFundingCostBps > cfg.fundingCostScaleStartBps then
    let span := cfg.maxProjectedFundingCostBps - cfg.fundingCostScaleStartBps
    let t := clamp ((projectedFundingCostBps - cfg.fundingCostScaleStartBps) / span) 0 1
    let scale := 1 - t * (1 - cfg.minFundingScale)
    signedNotional * clamp scale cfg.minFundingScale 1
  else signedNotional

/-- `check_futures_gate`, with the notional as it leaves the gate. -/
def checkFuturesGate (cfg : FuturesRiskGateConfig) (symbol : Option CString) (signedNotional : ℚ)
    (ctx : FuturesRiskContext) : GlobalRiskCheckResult × ℚ :=
  let divergenceBps := |ctx.markPrice - ctx.indexPrice| / ctx.indexPrice * 10000
  let maxLeverage := cfg.maxLeverageForSymbol (symbol.getD [])
  let projectedLeverage := (ctx.currentAbsNotional + |signedNotional|) / ctx.collateralNotional
  let projectedFundingCostBps := |ctx.fundingRateBps| * (ctx.hoursToFunding / 8)
  if !cfg.enabled then (.ok, signedNotional)
  else if symbol.getD [] = [] then (.invalidInput, signedNotional)
  else if ctx.collateralNotional ≤ 0 ∨ ctx.currentAbsNotional < 0 ∨ ctx.markPrice ≤ 0 ∨
      ctx.indexPrice ≤ 0 ∨ ctx.maintenanceMarginRatio < 0 ∨ ctx.hoursToFunding < 0 then
    (.invalidInput, signedNotional)
  else if cfg.maxMaintenanceMarginRatio > 0 ∧
      ctx.maintenanceMarginRatio > cfg.maxMaintenanceMarginRatio then
    (.futuresMaintenanceMarginCap, signedNotional)
  else if cfg.maxMarkIndexDivergenceBps > 0 ∧ divergenceBps > cfg.maxMarkIndexDivergenceBps then
    (.futuresMarkIndexDivergenceCap, signedNotional)
  else if maxLeverage > 0 ∧ projectedLeverage > maxLeverage then
    (.futuresLeverageCap, signedNotional)
  else if cfg.maxProjectedFundingCostBps > 0 ∧
      projectedFundingCostBps > cfg.maxProjectedFundingCostBps then
    (.futuresFundingCostCap, signedNotional)
  else (.ok, cfg.scale signedNotional projectedFundingCostBps)

end FuturesRiskGateConfig

/-! ## Checks and commits -/

namespace GlobalRiskControls

/-- `MAX_SYMBOLS`. -/
def maxSymbols : ℕ := 32

/-- The constructor. -/
def new (cfg : GlobalRiskConfig) (futuresCfg : FuturesRiskGateConfig) (killSwitch : KillSwitch) :
    GlobalRiskControls where
  cfg := cfg
  futuresCfg := futuresCfg
  killSwitch := killSwitch
  grossNotional := 0
  netNotional := 0
  venueGrossNotional := fun _ => 0
  symbolStates := List.replicate maxSymbols {}
  nextSlot := 0

/-- `venue_index`. -/
def venueIndex : Exchange → Option (Fin 4)
  | .binance => some 0
  | .okx => some 1
  | .coinbase => some 2
  | .kraken => some 3
  | .unknown => none

/-- `find_symbol`, and the same search in `get_or_create_symbol`: the index of the state. -/
def findSymbol (r : GlobalRiskControls) (symbol : CString) : Except RiskFault (Option ℕ) :=
  match (r.symbolStates.take r.nextSlot).findIdx? (SymbolState.isFor symbol) with
  | some i => .ok (some i)
  | none => if r.nextSlot ≤ maxSymbols then .ok none else .error .symbolStates

/-- The part of `check_order` that looks at the symbol, given its state. -/
def checkSymbol (r : GlobalRiskControls) (state : Option SymbolState) (signedNotional : ℚ) :
    GlobalRiskCheckResult :=
  let grossAfter := r.grossNotional + |signedNotional|
  let symbolGrossBefore := (state.map (·.grossNotional)).getD 0
  let symbolGrossAfter := symbolGrossBefore + |signedNotional|
  let symbolNetAfter := (state.map (·.netNotional)).getD 0 + signedNotional
  let otherSymbolGrossBefore := r.grossNotional - symbolGrossBefore
  if r.cfg.maxSymbolConcentration > 0 ∧ otherSymbolGrossBefore > 0 ∧ grossAfter > 0 ∧
      symbolGrossAfter / grossAfter > r.cfg.maxSymbolConcentration then .concentrationCap
  else if r.cfg.maxCrossVenueNetNotional > 0 ∧ symbolGrossBefore > 0 ∧
      |symbolNetAfter| > r.cfg.maxCrossVenueNetNotional then .crossVenueNettingCap
  else .ok

/-- `check_order`. -/
def checkOrder (r : GlobalRiskControls) (exchange : Exchange) (symbol : Option CString)
    (signedNotional : ℚ) : Except RiskFault GlobalRiskCheckResult :=
  if symbol.getD [] = [] ∨ signedNotional = 0 then .ok .invalidInput
  else if r.cfg.maxGrossNotional > 0 ∧
      r.grossNotional + |signedNotional| > r.cfg.maxGrossNotional then .ok .grossNotionalCap
  else if r.cfg.maxNetNotional > 0 ∧ |r.netNotional + signedNotional| > r.cfg.maxNetNotional then
    .ok .netNotionalCap
  else
    match venueIndex exchange with
    | none => .ok .invalidInput
    | some v =>
      if r.cfg.maxVenueNotional > 0 ∧
          r.venueGrossNotional v + |signedNotional| > r.cfg.maxVenueNotional then .ok .venueCap
      else do
        let found ← r.findSymbol (symbol.getD [])
        return r.checkSymbol (found.map fun i => r.symbolStates.getD i {}) signedNotional

/-- `get_or_create_symbol`. -/
def getOrCreateSymbol (r : GlobalRiskControls) (symbol : CString) :
    Except RiskFault (Option ℕ × GlobalRiskControls) := do
  match ← r.findSymbol symbol with
  | some i => return (some i, r)
  | none =>
    let idx := r.nextSlot
    if idx ≥ maxSymbols then return (none, { r with nextSlot := idx + 1 })
    else
      return (some idx, { r with
        nextSlot := idx + 1
        symbolStates := r.symbolStates.modify idx fun s =>
          { s with symbol := copySymbol symbol, active := true } })

/-- The kill switch of a call that is turned down. -/
def breach (r : GlobalRiskControls) : GlobalRiskControls :=
  if r.cfg.killOnBreach then { r with killSwitch := r.killSwitch.trigger .circuitBreaker } else r

/-- The additions at the end of `commit_order`. -/
def addNotional (r : GlobalRiskControls) (v : Fin 4) (i : ℕ) (signedNotional : ℚ) :
    GlobalRiskControls :=
  { r with
    grossNotional := r.grossNotional + |signedNotional|
    netNotional := r.netNotional + signedNotional
    venueGrossNotional :=
      Function.update r.venueGrossNotional v (r.venueGrossNotional v + |signedNotional|)
    symbolStates := r.symbolStates.modify i fun s =>
      { s with
        grossNotional := s.grossNotional + |signedNotional|
        netNotional := s.netNotional + signedNotional } }

/-- `commit_order`. -/
def commitOrder (r : GlobalRiskControls) (exchange : Exchange) (symbol : Option CString)
    (signedNotional : ℚ) : Except RiskFault (GlobalRiskCheckResult × GlobalRiskControls) := do
  let check ← r.checkOrder exchange symbol signedNotional
  if check ≠ .ok then return (check, r.breach)
  else
    match ← r.getOrCreateSymbol (symbol.getD []), venueIndex exchange with
    | (none, r), _ => return (.invalidInput, r)
    | (some _, _), none => .error .venueGrossNotional
    | (some i, r), some v => return (.ok, r.addNotional v i signedNotional)

/-- `check_futures_order`, with the notional that it has scaled. -/
def checkFuturesOrder (r : GlobalRiskControls) (exchange : Exchange) (symbol : Option CString)
    (signedNotional : ℚ) (ctx : FuturesRiskContext) :
    Except RiskFault (GlobalRiskCheckResult × ℚ) :=
  match r.futuresCfg.checkFuturesGate symbol signedNotional ctx with
  | (.ok, scaled) => do return (← r.checkOrder exchange symbol scaled, scaled)
  | (gate, scaled) => .ok (gate, scaled)

/-- `commit_futures_order`, with the notional that it has scaled. -/
def commitFuturesOrder (r : GlobalRiskControls) (exchange : Exchange) (symbol : Option CString)
    (signedNotional : ℚ) (ctx : FuturesRiskContext) :
    Except RiskFault (GlobalRiskCheckResult × ℚ × GlobalRiskControls) := do
  let (check, scaled) ← r.checkFuturesOrder exchange symbol signedNotional ctx
  if check ≠ .ok then return (check, scaled, r.breach)
  else
    let (result, r) ← r.commitOrder exchange symbol scaled
    return (result, scaled, r)

end GlobalRiskControls

end TradingInfrastructure
