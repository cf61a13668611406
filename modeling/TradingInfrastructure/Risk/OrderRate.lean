import TradingInfrastructure.Foundations.FixedWindow
import TradingInfrastructure.Risk.CircuitBreaker

/-!
# The order rate

What `check_order_rate` says of a run of calls stands in a log (`rateLog`). The second counts every
call and the minute those that the second admits, each in a fixed window. The counters are 32 bits
wide. While no call finds one that has wrapped, no more orders than the limits are let through
between two starts of a window, nor twice as many in any interval of its width
(`rateLimited_run`). A counter that has wrapped is negative, and the limit is open again
(`flood_not_rateLimited`).
-/

namespace TradingInfrastructure

/-- A call of `check_order_rate`: when it was made, the windows that it starts again, and what it
returned. -/
structure RateCall where
  now : ℤ
  opensSec : Bool
  opensMin : Bool
  result : CircuitCheckResult
  deriving DecidableEq

/-- The order is let through. -/
def RateCall.isOk (c : RateCall) : Bool := decide (c.result = .ok)

/-- The second admits the order, so the minute counts it. -/
def RateCall.inMinute (c : RateCall) : Bool := decide (c.result ≠ .rateLimitSec)

/-- What the window of the second reads of a call. -/
def secWindow : WindowLog RateCall where
  time := RateCall.now
  counted := fun _ => true
  opens := RateCall.opensSec
  admitted := RateCall.inMinute

/-- What the window of the minute reads of a call. -/
def minWindow : WindowLog RateCall where
  time := RateCall.now
  counted := RateCall.inMinute
  opens := RateCall.opensMin
  admitted := RateCall.isOk

/-- **The limits of the rate**: what is let through between two starts of a window and in any
interval of its width, and what a refused call finds counted. A negative limit lets nothing
through. -/
structure RateLimited (cfg : CircuitBreakerConfig) (log : List RateCall) : Prop where
  perSecond : ∀ stretch, stretch <:+: log → (∀ c ∈ stretch.tail, c.opensSec = false) →
    stretch.countP RateCall.isOk ≤ cfg.maxOrdersPerSecond.toNat
  perMinute : ∀ stretch, stretch <:+: log → (∀ c ∈ stretch.tail, c.opensMin = false) →
    stretch.countP RateCall.isOk ≤ cfg.maxOrdersPerMinute.toNat
  inSecond : ∀ t, log.countP (fun c => decide (t ≤ c.now ∧ c.now ≤ t + 10 ^ 9) && c.isOk) ≤
    2 * cfg.maxOrdersPerSecond.toNat
  inMinute : ∀ t, log.countP (fun c => decide (t ≤ c.now ∧ c.now ≤ t + 60 * 10 ^ 9) && c.isOk) ≤
    2 * cfg.maxOrdersPerMinute.toNat
  secRefused : ∀ before c rest, log = before ++ c :: rest → c.result = .rateLimitSec →
    cfg.maxOrdersPerSecond ≤ (sinceReset RateCall.opensSec (before ++ [c])).dropLast.length
  minRefused : ∀ before c rest, log = before ++ c :: rest → c.result = .rateLimitMin →
    cfg.maxOrdersPerMinute ≤
      (sinceReset RateCall.opensMin (before ++ [c])).dropLast.countP RateCall.inMinute

namespace CircuitBreaker

variable {b : CircuitBreaker} {now : ℤ}

/-- What a call writes into the log. -/
def rateCall (b : CircuitBreaker) (now : ℤ) : RateCall :=
  let result := (b.checkOrderRate now).1
  { now := now
    opensSec := decide (10 ^ 9 ≤ now - b.secWindowStartNs)
    opensMin := decide (result ≠ .rateLimitSec) && decide (60 * 10 ^ 9 ≤ now - b.minWindowStartNs)
    result := result }

/-- The breaker after a call. -/
def afterCall (b : CircuitBreaker) (now : ℤ) : CircuitBreaker := (b.checkOrderRate now).2

/-- **The log of a run** of calls at the times given. -/
def rateLog : CircuitBreaker → List ℤ → List RateCall
  | _, [] => []
  | b, now :: times => b.rateCall now :: rateLog (b.afterCall now) times

/-- The call finds no counter that has wrapped. -/
def Unwrapped (b : CircuitBreaker) (now : ℤ) : Prop :=
  0 ≤ (b.rollSec now).orderCountSec ∧
    ((b.rollSec now).orderCountSec < b.cfg.maxOrdersPerSecond →
      0 ≤ (b.rollMin now).orderCountMin)

instance (b : CircuitBreaker) (now : ℤ) : Decidable (b.Unwrapped now) :=
  inferInstanceAs (Decidable (_ ∧ (_ → _)))

/-! ## The counters -/

/-- A counter that is not negative shows what has been counted. -/
def Shows (counter : ℤ) (count : ℕ) : Prop := 0 ≤ counter → counter = count ∧ count < 2 ^ 31

theorem shows_zero : Shows 0 0 := fun _ => ⟨rfl, by norm_num⟩

theorem fetchAddOne_natCast {count : ℕ} (h : count + 1 < 2 ^ 31) :
    fetchAddOne count = (count + 1 : ℕ) := by
  rw [fetchAddOne, Int.bmod_eq_of_le (by omega) (by omega)]
  norm_cast

/-- The largest count wraps. -/
theorem fetchAddOne_last : fetchAddOne (2 ^ 31 - 1) = -2 ^ 31 := by decide

theorem Shows.fetchAddOne {counter : ℤ} {count : ℕ} (h : Shows counter count)
    (hcounter : 0 ≤ counter) : Shows (fetchAddOne counter) (count + 1) := by
  obtain ⟨rfl, hcount⟩ := h hcounter
  intro hnext
  by_cases hlast : count + 1 < 2 ^ 31
  · exact ⟨fetchAddOne_natCast hlast, hlast⟩
  · have hwraps : (count : ℤ) = 2 ^ 31 - 1 := by omega
    rw [hwraps, fetchAddOne_last] at hnext
    exact absurd hnext (by decide)

/-- A breaker whose counters show what its two windows have counted. -/
structure Windows (cfg : CircuitBreakerConfig) (b : CircuitBreaker) (sec minute : FixedWindow) :
    Prop where
  cfg : b.cfg = cfg
  secStart : b.secWindowStartNs = sec.start
  secCount : Shows b.orderCountSec sec.count
  minStart : b.minWindowStartNs = minute.start
  minCount : Shows b.orderCountMin minute.count

variable {cfg : CircuitBreakerConfig} {sec minute : FixedWindow}

theorem Windows.rollSec (h : Windows cfg b sec minute) (now : ℤ) :
    Windows cfg (b.rollSec now) (sec.current (10 ^ 9) now) minute := by
  unfold CircuitBreaker.rollSec FixedWindow.current
  rw [← h.secStart]
  by_cases hover : 10 ^ 9 ≤ now - b.secWindowStartNs
  · rw [if_pos hover, if_pos hover]
    exact { h with secStart := rfl, secCount := shows_zero }
  · rw [if_neg hover, if_neg hover]
    exact h

theorem Windows.rollMin (h : Windows cfg b sec minute) (now : ℤ) :
    Windows cfg (b.rollMin now) sec (minute.current (60 * 10 ^ 9) now) := by
  unfold CircuitBreaker.rollMin FixedWindow.current
  rw [← h.minStart]
  by_cases hover : 60 * 10 ^ 9 ≤ now - b.minWindowStartNs
  · rw [if_pos hover, if_pos hover]
    exact { h with minStart := rfl, minCount := shows_zero }
  · rw [if_neg hover, if_neg hover]
    exact h

/-- A call that the second counts. -/
theorem Windows.countSec (h : Windows cfg b sec minute) (hcounter : 0 ≤ b.orderCountSec) :
    Windows cfg { b with orderCountSec := CircuitBreaker.fetchAddOne b.orderCountSec }
      ⟨sec.start, sec.count + 1⟩ minute :=
  { h with secCount := h.secCount.fetchAddOne hcounter }

/-- A call that the minute counts. -/
theorem Windows.countMin (h : Windows cfg b sec minute) (hcounter : 0 ≤ b.orderCountMin) :
    Windows cfg { b with orderCountMin := CircuitBreaker.fetchAddOne b.orderCountMin } sec
      ⟨minute.start, minute.count + 1⟩ :=
  { h with minCount := h.minCount.fetchAddOne hcounter }

/-- The minute starts again on its own. -/
theorem orderCountMin_rollMin (counter : ℤ) :
    ({ b.rollSec now with orderCountSec := counter }.rollMin now).orderCountMin =
      (b.rollMin now).orderCountMin := by
  unfold rollSec rollMin
  split <;> split <;> rfl

theorem Shows.lt_toNat_iff {counter limit : ℤ} {count : ℕ} (h : Shows counter count)
    (hcounter : 0 ≤ counter) : count < limit.toNat ↔ counter < limit := by
  rw [(h hcounter).1]
  exact Int.lt_toNat

/-! ## A run -/

/-- The two windows after a call, and what the call returned. -/
inductive Windows.Called (cfg : CircuitBreakerConfig) (b : CircuitBreaker) (now : ℤ)
    (sec minute : FixedWindow) : Prop
  | refused (hresult : (b.checkOrderRate now).1 = .rateLimitSec)
      (hsec : ¬ (sec.current (10 ^ 9) now).count < cfg.maxOrdersPerSecond.toNat)
      (hafter : Windows cfg (b.afterCall now)
        ⟨(sec.current (10 ^ 9) now).start, (sec.current (10 ^ 9) now).count + 1⟩ minute)
  | admitted (hresult : (b.checkOrderRate now).1 ≠ .rateLimitSec)
      (hsec : (sec.current (10 ^ 9) now).count < cfg.maxOrdersPerSecond.toNat)
      (hmin : (b.checkOrderRate now).1 = .ok ↔
        (minute.current (60 * 10 ^ 9) now).count < cfg.maxOrdersPerMinute.toNat)
      (hafter : Windows cfg (b.afterCall now)
        ⟨(sec.current (10 ^ 9) now).start, (sec.current (10 ^ 9) now).count + 1⟩
        ⟨(minute.current (60 * 10 ^ 9) now).start,
          (minute.current (60 * 10 ^ 9) now).count + 1⟩)

theorem Windows.called (h : Windows cfg b sec minute) (hcall : b.Unwrapped now) :
    Windows.Called cfg b now sec minute := by
  obtain ⟨hfound, hfound'⟩ := hcall
  have hrolled := h.rollSec now
  have hcounted := hrolled.countSec hfound
  have hsec := @Shows.lt_toNat_iff _ cfg.maxOrdersPerSecond _ hrolled.secCount hfound
  rw [h.cfg] at hfound'
  by_cases hfull : (b.rollSec now).orderCountSec < cfg.maxOrdersPerSecond
  · have hminute := hcounted.rollMin now
    have hnonneg := hfound' hfull
    rw [← orderCountMin_rollMin (fetchAddOne (b.rollSec now).orderCountSec)] at hnonneg
    have hpass : ¬ (b.rollSec now).orderCountSec ≥ b.cfg.maxOrdersPerSecond := by
      rw [h.cfg]
      exact not_le.mpr hfull
    have hcheck : b.checkOrderRate now = _ := if_neg hpass
    generalize ({ b.rollSec now with
      orderCountSec := fetchAddOne (b.rollSec now).orderCountSec }.rollMin now) = rolled
      at hminute hnonneg hcheck
    have hmin := @Shows.lt_toNat_iff _ cfg.maxOrdersPerMinute _ hminute.minCount hnonneg
    have hall := hminute.countMin hnonneg
    rw [h.cfg] at hcheck
    by_cases hover : rolled.orderCountMin < cfg.maxOrdersPerMinute
    · rw [if_neg (not_le.mpr hover)] at hcheck
      refine .admitted (by simp [hcheck]) (hsec.mpr hfull) ?_ ?_
      · rw [hcheck]
        exact iff_of_true rfl (hmin.mpr hover)
      rw [afterCall, hcheck]
      exact hall
    · rw [if_pos (not_lt.mp hover)] at hcheck
      refine .admitted (by simp [hcheck]) (hsec.mpr hfull) ?_ ?_
      · rw [hcheck]
        exact iff_of_false (fun h => by cases h) fun h => hover (hmin.mp h)
      rw [afterCall, hcheck]
      exact hall
  · have hcheck : b.checkOrderRate now = (.rateLimitSec,
        { b.rollSec now with orderCountSec := fetchAddOne (b.rollSec now).orderCountSec }) := by
      rw [← h.cfg] at hfull
      exact if_pos (not_lt.mp hfull)
    refine .refused (by rw [hcheck]) (hsec.not.mpr hfull) ?_
    rw [afterCall, hcheck]
    exact hcounted

/-- **A call is what the two windows do**: the log says so, and the counters still show it. -/
theorem Windows.call (h : Windows cfg b sec minute) (hcall : b.Unwrapped now) :
    FixedWindow.Logs secWindow (10 ^ 9) cfg.maxOrdersPerSecond.toNat sec (b.rateCall now) ∧
      FixedWindow.Logs minWindow (60 * 10 ^ 9) cfg.maxOrdersPerMinute.toNat minute
        (b.rateCall now) ∧
      Windows cfg (b.afterCall now) (sec.after secWindow (10 ^ 9) (b.rateCall now))
        (minute.after minWindow (60 * 10 ^ 9) (b.rateCall now)) := by
  have hopens : (b.rateCall now).opensSec = decide (10 ^ 9 ≤ now - sec.start) := by
    rw [← h.secStart]
    rfl
  cases h.called hcall with
  | refused hresult hsec hafter =>
    have hminute : (b.rateCall now).inMinute = false := by
      simp [RateCall.inMinute, rateCall, hresult]
    have hopensMin : (b.rateCall now).opensMin = false := by simp [rateCall, hresult]
    have hok : (b.rateCall now).isOk = false := by simp [RateCall.isOk, rateCall, hresult]
    refine ⟨⟨hopens, hminute.trans (decide_eq_false hsec).symm⟩, ⟨?_, ?_⟩, ?_⟩
    · show (b.rateCall now).opensMin = ((b.rateCall now).inMinute && _)
      rw [hminute, hopensMin, Bool.false_and]
    · show (b.rateCall now).isOk = ((b.rateCall now).inMinute && _)
      rw [hminute, hok, Bool.false_and]
    · have hpasses : minute.after minWindow (60 * 10 ^ 9) (b.rateCall now) = minute :=
        if_neg (by simp [minWindow, hminute])
      rw [hpasses]
      exact hafter
  | admitted hresult hsec hmin hafter =>
    have hminute : (b.rateCall now).inMinute = true := by
      simp [RateCall.inMinute, rateCall, hresult]
    have hopensMin : (b.rateCall now).opensMin = decide (60 * 10 ^ 9 ≤ now - minute.start) := by
      simp [rateCall, hresult, h.minStart]
    have hok : (b.rateCall now).isOk =
        decide ((minute.current (60 * 10 ^ 9) now).count < cfg.maxOrdersPerMinute.toNat) :=
      decide_eq_decide.mpr hmin
    refine ⟨⟨hopens, hminute.trans (decide_eq_true hsec).symm⟩, ⟨?_, ?_⟩, ?_⟩
    · show (b.rateCall now).opensMin = ((b.rateCall now).inMinute && _)
      rw [hminute, hopensMin, Bool.true_and]
      rfl
    · show (b.rateCall now).isOk = ((b.rateCall now).inMinute && _)
      rw [hminute, hok, Bool.true_and]
      rfl
    · have hcounts : minute.after minWindow (60 * 10 ^ 9) (b.rateCall now) =
          ⟨(minute.current (60 * 10 ^ 9) now).start,
            (minute.current (60 * 10 ^ 9) now).count + 1⟩ := if_pos hminute
      rw [hcounts]
      exact hafter

/-- The log of a run is one of what the two windows do. -/
theorem Windows.logsAll {times : List ℤ} (h : Windows cfg b sec minute)
    (htimes : AllSteps afterCall Unwrapped b times) :
    FixedWindow.LogsAll secWindow (10 ^ 9) cfg.maxOrdersPerSecond.toNat sec (rateLog b times) ∧
      FixedWindow.LogsAll minWindow (60 * 10 ^ 9) cfg.maxOrdersPerMinute.toNat minute
        (rateLog b times) := by
  induction times generalizing b sec minute with
  | nil => exact ⟨trivial, trivial⟩
  | cons now times ih =>
    obtain ⟨hsec, hmin, hafter⟩ := h.call htimes.1
    obtain ⟨hsecs, hmins⟩ := ih hafter htimes.2
    exact ⟨⟨hsec, hsecs⟩, hmin, hmins⟩

theorem map_now_rateLog (b : CircuitBreaker) (times : List ℤ) :
    (rateLog b times).map RateCall.now = times := by
  induction times generalizing b with
  | nil => rfl
  | cons now times ih => exact congrArg (now :: ·) (ih (b.afterCall now))

/-- A breaker that has seen no order. -/
def start (cfg : CircuitBreakerConfig) : CircuitBreaker where
  cfg := cfg

/-- **No more orders than the limits are let through**, in any run at times that do not go back in
which no call finds a counter that has wrapped. -/
theorem rateLimited_run (cfg : CircuitBreakerConfig) (times : List ℤ)
    (hsorted : times.Pairwise (· ≤ ·))
    (hunwrapped : AllSteps afterCall Unwrapped (start cfg) times) :
    RateLimited cfg (rateLog (start cfg) times) := by
  have hstart : Windows cfg (start cfg) ⟨0, 0⟩ ⟨0, 0⟩ :=
    ⟨rfl, rfl, shows_zero, rfl, shows_zero⟩
  obtain ⟨hsec, hmin⟩ := hstart.logsAll hunwrapped
  have hlog : (rateLog (start cfg) times).Pairwise fun c c' => c.now ≤ c'.now := by
    rw [← List.pairwise_map (f := RateCall.now), map_now_rateLog]
    exact hsorted
  have hadmitted : ∀ c : RateCall, c.isOk = true → c.inMinute = true := by
    intro c hc
    have hresult : c.result = .ok := by simpa [RateCall.isOk] using hc
    simp [RateCall.inMinute, hresult]
  constructor
  case perSecond =>
    intro stretch hstretch hopens
    exact (List.countP_mono_left fun c _ => hadmitted c).trans
      (hsec.countP_admitted_le rfl hstretch hopens)
  case perMinute => exact fun stretch hstretch hopens => hmin.countP_admitted_le rfl hstretch hopens
  case inSecond =>
    intro t
    refine le_trans (List.countP_mono_left fun c _ hc => ?_)
      (hsec.countP_interval_le (by norm_num) hlog t)
    obtain ⟨hin, hok⟩ := Bool.and_eq_true_iff.mp hc
    exact Bool.and_eq_true_iff.mpr ⟨hin, hadmitted c hok⟩
  case inMinute => exact fun t => hmin.countP_interval_le (by norm_num) hlog t
  case secRefused =>
    intro before c rest hsplit hresult
    rw [hsplit] at hsec
    have hcounted := hsec.limit_le_counted rfl rfl (by simp [secWindow, RateCall.inMinute, hresult])
    have hall := hcounted.trans List.countP_le_length
    exact Int.toNat_le.mp hall
  case minRefused =>
    intro before c rest hsplit hresult
    rw [hsplit] at hmin
    have hcounted := hmin.limit_le_counted rfl (by simp [minWindow, RateCall.inMinute, hresult])
      (by simp [minWindow, RateCall.isOk, hresult])
    exact Int.toNat_le.mp hcounted

/-- One order a second. -/
def onePerSecond : CircuitBreakerConfig := { maxOrdersPerSecond := 1 }

/-- An order let through and two refused, and one more in the next second. -/
theorem rateLimited_fourCalls :
    [0, 1, 2, 10 ^ 9].Pairwise (· ≤ ·) ∧
      AllSteps afterCall Unwrapped (start onePerSecond) [0, 1, 2, 10 ^ 9] ∧
      RateLimited onePerSecond (rateLog (start onePerSecond) [0, 1, 2, 10 ^ 9]) :=
  ⟨by decide, by decide +kernel,
    rateLimited_run onePerSecond [0, 1, 2, 10 ^ 9] (by decide) (by decide +kernel)⟩

/-! ## A counter that wraps -/

/-- A breaker that has counted in the first second of its clock, with one order let through. -/
def counting (counter : ℤ) : CircuitBreaker where
  cfg := onePerSecond
  orderCountSec := counter
  orderCountMin := 1

/-- A call that the second refuses. -/
def refused : RateCall := ⟨0, false, false, .rateLimitSec⟩

/-- A call that is let through. -/
def letThrough : RateCall := ⟨0, false, false, .ok⟩

theorem call_counting {counter : ℤ} (h : 1 ≤ counter) :
    (counting counter).rateCall 0 = refused ∧
      (counting counter).afterCall 0 = counting (fetchAddOne counter) := by
  have hcheck : (counting counter).checkOrderRate 0 =
      (.rateLimitSec, counting (fetchAddOne counter)) := by
    simp [checkOrderRate, rollSec, counting, onePerSecond, h]
  constructor
  · rw [rateCall, hcheck]
    rfl
  · rw [afterCall, hcheck]

theorem rateLog_counting (times : List ℤ) {n count : ℕ} (hcount : 1 ≤ count)
    (hn : count + n < 2 ^ 31) :
    rateLog (counting count) (List.replicate n 0 ++ times) =
      List.replicate n refused ++ rateLog (counting (count + n : ℕ)) times := by
  induction n generalizing count with
  | zero => rfl
  | succ n ih =>
    obtain ⟨hcall, hafter⟩ := call_counting (by exact_mod_cast hcount : (1 : ℤ) ≤ count)
    rw [List.replicate_succ, List.cons_append, rateLog, hcall, hafter,
      fetchAddOne_natCast (by omega), ih (by omega) (by omega), List.replicate_succ,
      List.cons_append]
    congr 4
    omega

/-- The last of `2 ^ 31 + 1` calls at once is let through again. -/
theorem rateLog_flood {n : ℕ} (hn : n + 2 = 2 ^ 31) :
    rateLog (start onePerSecond) (List.replicate (1 + (n + 2)) 0) =
      letThrough :: (List.replicate n refused ++ [refused, letThrough]) := by
  have hfirst : (start onePerSecond).afterCall 0 = counting (1 : ℕ) := by decide
  have hfull : ((1 + n : ℕ) : ℤ) = 2 ^ 31 - 1 := by omega
  obtain ⟨hcall, hafter⟩ := call_counting (by norm_num : (1 : ℤ) ≤ 2 ^ 31 - 1)
  rw [List.replicate_add, List.replicate_add, List.replicate_one, List.singleton_append, rateLog,
    hfirst, rateLog_counting _ le_rfl (by omega), hfull]
  have hlast : rateLog (counting (2 ^ 31 - 1)) (List.replicate 2 0) = [refused, letThrough] := by
    rw [List.replicate_succ, rateLog, hcall, hafter, fetchAddOne_last]
    decide
  rw [hlast]
  rfl

/-- **A counter that wraps opens the limit again**: of `2 ^ 31 + 1` calls at once, two are let
through where one may be. -/
theorem flood_not_rateLimited :
    (List.replicate (2 ^ 31 + 1) (0 : ℤ)).Pairwise (· ≤ ·) ∧
      ¬ RateLimited onePerSecond
        (rateLog (start onePerSecond) (List.replicate (2 ^ 31 + 1) 0)) := by
  obtain ⟨n, hn⟩ : ∃ n : ℕ, n + 2 = 2 ^ 31 := ⟨2 ^ 31 - 2, by norm_num⟩
  have hcalls : 2 ^ 31 + 1 = 1 + (n + 2) := by omega
  rw [hcalls, rateLog_flood hn]
  refine ⟨List.pairwise_replicate.mpr (Or.inr le_rfl), fun h => ?_⟩
  have hopens : ∀ c ∈ (letThrough :: (List.replicate n refused ++ [refused, letThrough])).tail,
      c.opensSec = false := by
    intro c hc
    rcases List.mem_append.mp hc with hc | hc
    · rw [List.eq_of_mem_replicate hc]
      rfl
    · rcases List.mem_pair.mp hc with rfl | rfl <;> rfl
  have hcount := h.perSecond _ (List.infix_refl _) hopens
  rw [List.countP_cons, List.countP_append, List.countP_replicate] at hcount
  simp [RateCall.isOk, refused, letThrough, onePerSecond] at hcount

end CircuitBreaker

end TradingInfrastructure
