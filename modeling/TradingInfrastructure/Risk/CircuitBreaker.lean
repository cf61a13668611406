import TradingInfrastructure.Risk.GlobalRiskControls

/-!
# The circuit breaker

The two checks of `core/risk/circuit_breaker.hpp` that stand between an order and its venue. The
clock is an argument, and so is the kill switch that a breach triggers.
-/

namespace TradingInfrastructure

/-- What `CircuitBreakerConfig` says of orders. -/
structure CircuitBreakerConfig where
  maxOrdersPerSecond : ℤ := 10
  maxOrdersPerMinute : ℤ := 200
  maxDrawdownUsd : ℚ := -5000
  deriving DecidableEq

/-- `CircuitCheckResult`, as far as orders are concerned. -/
inductive CircuitCheckResult
  | ok | rateLimitSec | rateLimitMin | drawdown
  deriving DecidableEq, Inhabited, Repr

/-- `CircuitBreaker`: the order counts and the starts of their windows, and the last profit
checked. -/
structure CircuitBreaker where
  cfg : CircuitBreakerConfig
  orderCountSec : ℤ := 0
  secWindowStartNs : ℤ := 0
  orderCountMin : ℤ := 0
  minWindowStartNs : ℤ := 0
  realizedPnl : ℚ := 0
  deriving DecidableEq

namespace CircuitBreaker

/-- A window that has lasted long enough starts again, with its count. -/
def rollSec (b : CircuitBreaker) (now : ℤ) : CircuitBreaker :=
  if now - b.secWindowStartNs ≥ 10 ^ 9 then { b with secWindowStartNs := now, orderCountSec := 0 }
  else b

/-- The same for the minute. -/
def rollMin (b : CircuitBreaker) (now : ℤ) : CircuitBreaker :=
  if now - b.minWindowStartNs ≥ 60 * 10 ^ 9 then
    { b with minWindowStartNs := now, orderCountMin := 0 }
  else b

/-- `fetch_add(1)` of a counter, an `int32_t` that wraps. -/
def fetchAddOne (count : ℤ) : ℤ := (count + 1).bmod (2 ^ 32)

/-- `check_order_rate`. An order over the limit of the second does not count for the minute. -/
def checkOrderRate (b : CircuitBreaker) (now : ℤ) : CircuitCheckResult × CircuitBreaker :=
  let sec := b.rollSec now
  let counted := { sec with orderCountSec := fetchAddOne sec.orderCountSec }
  if sec.orderCountSec ≥ b.cfg.maxOrdersPerSecond then (.rateLimitSec, counted)
  else
    let minute := counted.rollMin now
    let all := { minute with orderCountMin := fetchAddOne minute.orderCountMin }
    if minute.orderCountMin ≥ b.cfg.maxOrdersPerMinute then (.rateLimitMin, all) else (.ok, all)

/-- `check_drawdown`. -/
def checkDrawdown (b : CircuitBreaker) (killSwitch : KillSwitch) (realizedPnl : ℚ) :
    CircuitCheckResult × CircuitBreaker × KillSwitch :=
  let stored := { b with realizedPnl }
  if realizedPnl ≤ b.cfg.maxDrawdownUsd then (.drawdown, stored, killSwitch.trigger .drawdown)
  else (.ok, stored, killSwitch)

theorem checkDrawdown_ok_iff {b : CircuitBreaker} {killSwitch : KillSwitch} {pnl : ℚ} :
    (b.checkDrawdown killSwitch pnl).1 = .ok ↔ b.cfg.maxDrawdownUsd < pnl := by
  unfold checkDrawdown
  by_cases h : pnl ≤ b.cfg.maxDrawdownUsd
  · simp [h, not_lt.mpr h]
  · simp [h, not_le.mp h]

end CircuitBreaker

end TradingInfrastructure
