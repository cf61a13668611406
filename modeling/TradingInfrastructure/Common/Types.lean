import Mathlib.Tactic
import Mathlib.Algebra.Order.Field.Rat

/-!
# The shared data types

The value types of `core/common/types.hpp`, which every subsystem exchanges. A `double` is an
exact rational: the properties proved in this development are about the arithmetic the code
means, not about rounding. Times are integers of nanoseconds.

A `const char *` is the list of its characters before the terminating NUL, of any length
(`CString`). A `char[16]` field is a `Symbol`, which carries the proof that the terminator fits.
-/

namespace TradingInfrastructure

/-! ## C strings -/

/-- A `const char *`: the characters before the terminating NUL. -/
abbrev CString := List Char

/-- `std::strncmp(a, b, n) == 0`. -/
def strncmpEq (n : ℕ) (a b : CString) : Bool := a.take n == b.take n

/-- `std::strncpy(dst, src, sizeof(dst) - 1)` followed by `dst[sizeof(dst) - 1] = '\0'`, for a
buffer of `size` bytes. -/
def strncpyBuf (size : ℕ) (src : CString) : CString := src.take (size - 1)

theorem strncmpEq_iff {n : ℕ} {a b : CString} : strncmpEq n a b = true ↔ a.take n = b.take n := by
  simp [strncmpEq]

theorem strncmpEq_refl (n : ℕ) (a : CString) : strncmpEq n a a = true := by
  simp [strncmpEq]

/-- Strings that fit their buffers are compared as a whole. -/
theorem strncmpEq_of_length_lt {n : ℕ} {a b : CString} (ha : a.length < n) (hb : b.length < n) :
    strncmpEq n a b = true ↔ a = b := by
  rw [strncmpEq_iff, List.take_of_length_le ha.le, List.take_of_length_le hb.le]

/-- A string that fits its buffer is copied whole. -/
theorem strncpyBuf_of_length_lt {size : ℕ} {a : CString} (ha : a.length < size) :
    strncpyBuf size a = a :=
  List.take_of_length_le (by omega)

/-- A copy into a larger buffer in between changes nothing. -/
theorem strncpyBuf_strncpyBuf {size size' : ℕ} (h : size ≤ size') (a : CString) :
    strncpyBuf size (strncpyBuf size' a) = strncpyBuf size a := by
  rw [strncpyBuf, strncpyBuf, strncpyBuf, List.take_take, min_eq_left (by omega)]

/-- A `char[16]` with its terminator: at most fifteen characters. -/
structure Symbol where
  chars : CString
  length_lt : chars.length < 16
  deriving DecidableEq

@[ext] theorem Symbol.ext' {a b : Symbol} (h : a.chars = b.chars) : a = b := by
  cases a; cases b; simpa using h

/-- `copy_symbol`: the first fifteen characters of the source. -/
def copySymbol (src : CString) : Symbol where
  chars := strncpyBuf 16 src
  length_lt := by simp only [strncpyBuf, List.length_take]; omega

@[simp] theorem copySymbol_chars (s : Symbol) : copySymbol s.chars = s :=
  Symbol.ext' (strncpyBuf_of_length_lt s.length_lt)

theorem strncmpEq_symbol {a b : Symbol} : strncmpEq 16 a.chars b.chars = true ↔ a = b := by
  rw [strncmpEq_of_length_lt a.length_lt b.length_lt]
  exact ⟨Symbol.ext', fun h => h ▸ rfl⟩

instance : Inhabited Symbol := ⟨⟨[], by decide⟩⟩

/-! ## Arithmetic -/

/-- `std::clamp(v, lo, hi)`. -/
def clamp (v lo hi : ℚ) : ℚ := if v < lo then lo else if hi < v then hi else v

theorem clamp_eq_max_min {lo hi : ℚ} (h : lo ≤ hi) (v : ℚ) :
    clamp v lo hi = max lo (min v hi) := by
  unfold clamp
  split_ifs with hlo hhi
  · rw [min_eq_left (hlo.le.trans h), max_eq_left hlo.le]
  · rw [min_eq_right hhi.le, max_eq_right h]
  · rw [min_eq_left (not_lt.mp hhi), max_eq_right (not_lt.mp hlo)]

theorem le_clamp {lo hi : ℚ} (h : lo ≤ hi) (v : ℚ) : lo ≤ clamp v lo hi :=
  (le_max_left ..).trans_eq (clamp_eq_max_min h v).symm

theorem clamp_le {lo hi : ℚ} (h : lo ≤ hi) (v : ℚ) : clamp v lo hi ≤ hi :=
  (clamp_eq_max_min h v).trans_le (max_le h (min_le_right ..))

theorem clamp_of_mem {v lo hi : ℚ} (hlo : lo ≤ v) (hhi : v ≤ hi) : clamp v lo hi = v := by
  rw [clamp, if_neg (not_lt.mpr hlo), if_neg (not_lt.mpr hhi)]

/-- A symmetric range: the clamp of a negated value is the negated clamp. -/
theorem clamp_neg {m : ℚ} (h : 0 ≤ m) (v : ℚ) : clamp (-v) (-m) m = -clamp v (-m) m := by
  unfold clamp
  rcases lt_trichotomy v (-m) with hlow | rfl | hlow
  · rw [if_pos hlow, if_neg (by linarith), if_pos (by linarith), neg_neg]
  · simp [h, not_lt.mpr]
  · by_cases hhigh : m < v
    · rw [if_pos (by linarith), if_neg (by linarith), if_pos hhigh]
    · rw [if_neg (by linarith), if_neg (by linarith), if_neg (by linarith), if_neg hhigh]

/-! ## Enumerations -/

inductive Exchange
  | binance | okx | coinbase | kraken | unknown
  deriving DecidableEq, Inhabited, Repr

inductive Side
  | bid | ask
  deriving DecidableEq, Inhabited, Repr

/-- The sign of a fill on a side: a bid adds to the position, an ask takes from it. -/
def Side.sign : Side → ℚ
  | .bid => 1
  | .ask => -1

@[simp] theorem Side.sign_bid : Side.bid.sign = 1 := rfl

@[simp] theorem Side.sign_ask : Side.ask.sign = -1 := rfl

inductive Result
  | success | errorInvalidSequence | errorInvalidPrice | errorInvalidSize | errorSequenceGap
  | errorBookCorrupted | errorConnectionLost
  deriving DecidableEq, Inhabited, Repr

inductive OrderType
  | market | limit | stopLimit
  deriving DecidableEq, Inhabited, Repr

inductive TimeInForce
  | gtc | ioc | fok | gtx
  deriving DecidableEq, Inhabited, Repr

inductive FuturesPositionMode
  | oneWay | hedge
  deriving DecidableEq, Inhabited, Repr

inductive FuturesPositionSide
  | unspecified | long | short
  deriving DecidableEq, Inhabited, Repr

inductive FuturesWorkingType
  | contractPrice | markPrice
  deriving DecidableEq, Inhabited, Repr

inductive OrderState
  | pending | open_ | partiallyFilled | filled | canceled | rejected
  deriving DecidableEq, Inhabited, Repr

/-- The states after which `OrderManager::apply_fill` frees the slot of the order. -/
def OrderState.terminal : OrderState → Bool
  | .filled | .canceled | .rejected => true
  | .pending | .open_ | .partiallyFilled => false

inductive ConnectorResult
  | ok | errorRateLimit | errorInsufficientFunds | errorInvalidOrder | errorRestFailure
  | authFailed | errorFuturesPositionSideRequired | errorFuturesPositionSideInvalid
  | errorFuturesClosePositionConflict | errorFuturesFiltersUnavailable
  | errorFuturesPriceFilterViolation | errorFuturesQtyFilterViolation
  | errorFuturesMinNotionalViolation | errorFuturesTriggerConstraintViolation | errorUnknown
  deriving DecidableEq, Inhabited, Repr

/-! ## Market data -/

structure PriceLevel where
  price : ℚ := 0
  size : ℚ := 0
  orderCount : ℕ := 0
  deriving DecidableEq, Inhabited

structure Delta where
  side : Side := .bid
  price : ℚ := 0
  size : ℚ := 0
  orderCount : ℕ := 0
  sequence : ℕ := 0
  deriving DecidableEq, Inhabited

structure Snapshot where
  sequence : ℕ := 0
  bids : List PriceLevel := []
  asks : List PriceLevel := []
  checksum : UInt32 := 0
  checksumPresent : Bool := false
  deriving DecidableEq, Inhabited

/-! ## Orders and fills -/

structure Order where
  clientOrderId : ℕ := 0
  symbol : Symbol := default
  exchange : Exchange := .unknown
  side : Side := .bid
  type : OrderType := .limit
  tif : TimeInForce := .gtc
  price : ℚ := 0
  stopPrice : ℚ := 0
  quantity : ℚ := 0
  futuresPositionMode : FuturesPositionMode := .oneWay
  futuresPositionSide : FuturesPositionSide := .unspecified
  futuresWorkingType : FuturesWorkingType := .contractPrice
  reduceOnly : Bool := false
  closePosition : Bool := false
  submitTsNs : ℤ := 0
  deriving DecidableEq, Inhabited

structure FillUpdate where
  clientOrderId : ℕ := 0
  fillPrice : ℚ := 0
  fillQty : ℚ := 0
  cumulativeFilledQty : ℚ := 0
  avgFillPrice : ℚ := 0
  newState : OrderState := .pending
  localTsNs : ℤ := 0
  rejectReason : CString := []
  deriving DecidableEq, Inhabited

/-- The quantity of a fill with the sign of its side. -/
def Side.signed (side : Side) (qty : ℚ) : ℚ :=
  match side with
  | .bid => qty
  | .ask => -qty

@[simp] theorem Side.signed_bid (q : ℚ) : Side.bid.signed q = q := rfl

@[simp] theorem Side.signed_ask (q : ℚ) : Side.ask.signed q = -q := rfl

end TradingInfrastructure
