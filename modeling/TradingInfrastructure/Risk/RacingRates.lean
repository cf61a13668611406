import TradingInfrastructure.Foundations.RacingWindow
import TradingInfrastructure.Risk.OrderRate

/-!
# The rates under racing threads

`check_order_rate` and `check_message_rate` of `core/risk/circuit_breaker.hpp`, called by any number
of threads at once on one breaker. Each atomic operation is a step, and the threads take their steps
in any order. Every counter and every start of a window has its own order of values: an operation
that writes reads the last of them, and a load reads any that there has been.

Each of the three windows is one that the calls race for (`simulates`). A call that has found its
window over may set the count back at any time later, which lets the limit through once more for
every call under way; without such calls no more go through than the limits for each width of the
window (`racing_rates`).
-/

namespace TradingInfrastructure

/-- `CircuitBreakerConfig`, with the limit of the messages. -/
structure RateLimitConfig extends CircuitBreakerConfig where
  maxMessagesPerSecond : ℤ := 1000
  deriving DecidableEq

/-- The windows of the orders and of the messages. -/
inductive RateWindow
  | sec | minute | message
  deriving DecidableEq

/-- How long a window lasts. -/
def RateWindow.width : RateWindow → ℤ
  | .sec | .message => 10 ^ 9
  | .minute => 60 * 10 ^ 9

/-- What a window admits. -/
def RateWindow.limit (cfg : RateLimitConfig) : RateWindow → ℤ
  | .sec => cfg.maxOrdersPerSecond
  | .minute => cfg.maxOrdersPerMinute
  | .message => cfg.maxMessagesPerSecond

/-- The atomics of a window: its start, what the start has been before, and its count. -/
structure RateCells where
  windowStartNs : ℤ := 0
  earlierStarts : List ℤ := []
  count : ℤ := 0

/-- A load of the start, which may be one of those before. -/
def RateCells.loadStart (c : RateCells) (back : ℕ) : ℤ :=
  (c.windowStartNs :: c.earlierStarts).getD back c.windowStartNs

/-- The operation that a call does next: the load of the start, the exchange of it for the time of
the call, the store of a count of zero, or the addition. -/
inductive RateOperation
  | load
  | exchange (seen : ℤ)
  | store
  | fetchAdd
  deriving DecidableEq

/-- Where a thread is: in no call, or in one of a time, at an operation of a window. -/
inductive RateCallState
  | idle
  | running (window : RateWindow) (now : ℤ) (operation : RateOperation)
  deriving DecidableEq

/-- Whether a call is in a window. -/
def RateCallState.inWindow (window : RateWindow) : RateCallState → ℕ
  | .idle => 0
  | .running w _ _ => if w = window then 1 else 0

/-- What a call returns. -/
inductive RateAnswer
  | order (result : CircuitCheckResult)
  | message (admitted : Bool)
  deriving DecidableEq

/-- A breaker and the threads that call it. -/
structure RacingBreaker (ι : Type*) where
  cfg : RateLimitConfig
  clock : ℤ
  cells : RateWindow → RateCells := fun _ => {}
  calls : ι → RateCallState := fun _ => .idle

/-- What happens next: the clock goes on, an idle thread calls one of the functions, or a thread in
a call does its operation. -/
inductive RateMove (ι : Type*)
  | tick (now : ℤ)
  | checkOrderRate (i : ι)
  | checkMessageRate (i : ι)
  | operate (i : ι) (back : ℕ)

/-- Where a call goes when a window has counted it. -/
def RateWindow.counted (now : ℤ) : RateWindow → Bool → RateCallState × Option RateAnswer
  | .sec, true => (.running .minute now .load, none)
  | .sec, false => (.idle, some (.order .rateLimitSec))
  | .minute, true => (.idle, some (.order .ok))
  | .minute, false => (.idle, some (.order .rateLimitMin))
  | .message, admitted => (.idle, some (.message admitted))

namespace RacingBreaker

variable {ι : Type*} [DecidableEq ι]

/-- A thread goes on. -/
def goes (b : RacingBreaker ι) (i : ι) (call : RateCallState) : RacingBreaker ι :=
  { b with calls := Function.update b.calls i call }

/-- The atomics of a window change. -/
def puts (b : RacingBreaker ι) (window : RateWindow) (c : RateCells) : RacingBreaker ι :=
  { b with cells := Function.update b.cells window c }

/-- The operation of a thread. -/
def operate (b : RacingBreaker ι) (i : ι) (back : ℕ) : RacingBreaker ι × Option RateAnswer :=
  match b.calls i with
  | .idle => (b, none)
  | .running window now operation =>
    let c := b.cells window
    match operation with
    | .load =>
      let seen := c.loadStart back
      let next := if now - seen ≥ window.width then .exchange seen else .fetchAdd
      (b.goes i (.running window now next), none)
    | .exchange seen =>
      if c.windowStartNs = seen then
        let swapped :=
          { c with windowStartNs := now, earlierStarts := c.windowStartNs :: c.earlierStarts }
        ((b.puts window swapped).goes i (.running window now .store), none)
      else (b.goes i (.running window now .fetchAdd), none)
    | .store =>
      ((b.puts window { c with count := 0 }).goes i (.running window now .fetchAdd), none)
    | .fetchAdd =>
      let next := window.counted now (decide (c.count < window.limit b.cfg))
      ((b.puts window { c with count := CircuitBreaker.fetchAddOne c.count }).goes i next.1, next.2)

/-- A thread that is in no call calls one of the functions, which takes the time. -/
def call (b : RacingBreaker ι) (i : ι) (window : RateWindow) : RacingBreaker ι :=
  if b.calls i = .idle then b.goes i (.running window b.clock .load) else b

/-- **One step.** -/
def step (b : RacingBreaker ι) : RateMove ι → RacingBreaker ι × Option RateAnswer
  | .tick now => (if b.clock ≤ now then { b with clock := now } else b, none)
  | .checkOrderRate i => (b.call i .sec, none)
  | .checkMessageRate i => (b.call i .message, none)
  | .operate i back => b.operate i back

/-- The breaker after a move. -/
def next (b : RacingBreaker ι) (move : RateMove ι) : RacingBreaker ι := (b.step move).1

/-- The breaker after some moves. -/
def after (b : RacingBreaker ι) (moves : List (RateMove ι)) : RacingBreaker ι := moves.foldl next b

/-- **What the calls of a run return**, in the order in which they do. -/
def answers (b : RacingBreaker ι) : List (RateMove ι) → List RateAnswer
  | [] => []
  | move :: moves => (b.step move).2.toList ++ (b.next move).answers moves

/-- The threads in a window. -/
def inWindow [Fintype ι] (b : RacingBreaker ι) (window : RateWindow) : ℕ :=
  ∑ i, (b.calls i).inWindow window

/-- No counter has wrapped. -/
def Unwrapped (b : RacingBreaker ι) : Prop := ∀ window, 0 ≤ (b.cells window).count

instance (b : RacingBreaker ι) : Decidable b.Unwrapped :=
  decidable_of_iff (0 ≤ (b.cells .sec).count ∧ 0 ≤ (b.cells .minute).count ∧
      0 ≤ (b.cells .message).count)
    ⟨fun h window => by cases window <;> [exact h.1; exact h.2.1; exact h.2.2],
      fun h => ⟨h .sec, h .minute, h .message⟩⟩

end RacingBreaker

/-! ## Each window is raced for -/

/-- The phase of a call at an operation. -/
def RateOperation.phase (now : ℤ) : RateOperation → RacePhase
  | .load => .ready now
  | .exchange seen => .due now seen
  | .store => .won
  | .fetchAdd => .counting

/-- Where a call is for a window. The minute sees a call that the second has not counted yet as one
that has taken its time. -/
def RateCallState.phase (window : RateWindow) : RateCallState → RacePhase
  | .idle => .away
  | .running w now operation =>
    if w = window then operation.phase now
    else if w = .sec ∧ window = .minute then .ready now else .away

theorem RateCallState.phase_running (window w : RateWindow) (now : ℤ) (operation : RateOperation) :
    (RateCallState.running w now operation).phase window =
      if w = window then operation.phase now
      else if w = .sec ∧ window = .minute then .ready now else .away := rfl

/-- A window has no more to do with a call that it has counted, and a call that the minute has not
seen leaves or goes on to it. -/
theorem RateWindow.counted_phase (now : ℤ) (w window : RateWindow) (admitted : Bool)
    (h : ¬ (w = .sec ∧ window = .minute)) : (w.counted now admitted).1.phase window = .away := by
  revert h
  cases w <;> cases window <;> cases admitted <;> simp [RateWindow.counted, RateCallState.phase]

namespace RacingBreaker

variable {ι : Type*} [DecidableEq ι] {b : RacingBreaker ι} {window : RateWindow} {count : ℕ}

/-- What a window is, when its count is given. -/
def view (b : RacingBreaker ι) (window : RateWindow) (count : ℕ) : RacingWindow ι where
  clock := b.clock
  start := (b.cells window).windowStartNs
  count := count
  phase := fun i => (b.calls i).phase window

theorem view_goes (b : RacingBreaker ι) (window : RateWindow) (count : ℕ) (i : ι)
    (call : RateCallState) :
    (b.goes i call).view window count = (b.view window count).moves i (call.phase window) := by
  have hphase : (fun j => (Function.update b.calls i call j).phase window) =
      Function.update (fun j => (b.calls j).phase window) i (call.phase window) := by
    funext j
    by_cases hj : j = i
    · rw [hj, Function.update_self, Function.update_self]
    · rw [Function.update_of_ne hj, Function.update_of_ne hj]
  simp only [view, goes, RacingWindow.moves, hphase]

/-- A thread that goes on where the window does not see it. -/
theorem view_goes_same {i : ι} {call : RateCallState}
    (h : (b.calls i).phase window = call.phase window) :
    (b.goes i call).view window count = b.view window count := by
  rw [view_goes]
  exact RacingWindow.moves_of_phase_eq _ h

omit [DecidableEq ι] in
theorem view_puts_of_ne {w : RateWindow} (c : RateCells) (h : window ≠ w) :
    (b.puts w c).view window count = b.view window count := by
  simp only [view, puts, Function.update_of_ne h]

omit [DecidableEq ι] in
theorem view_puts_self (b : RacingBreaker ι) (window : RateWindow) (c : RateCells)
    (count count' : ℕ) :
    (b.puts window c).view window count' =
      { b.view window count with start := c.windowStartNs, count := count' } := by
  simp only [view, puts, Function.update_self]

/-- Whether a move has a window count a call that it admits. -/
def admits (b : RacingBreaker ι) (window : RateWindow) : RateMove ι → Bool
  | .operate i _ =>
    match b.calls i with
    | .running w _ .fetchAdd =>
      decide (w = window ∧ (b.cells window).count < window.limit b.cfg)
    | _ => false
  | _ => false

/-- What a step has to do with a window: it is a step of it, and the count is shown after it. -/
def Simulates (b : RacingBreaker ι) (window : RateWindow) (count : ℕ) (admitted : Bool)
    (b' : RacingBreaker ι) : Prop :=
  ∃ count', CircuitBreaker.Shows (b'.cells window).count count' ∧
    RacingWindow.Step window.width (window.limit b.cfg).toNat (b.view window count) admitted
      (b'.view window count')

/-- A call begins. -/
theorem simulates_call (hshown : CircuitBreaker.Shows (b.cells window).count count) (i : ι)
    (w : RateWindow) : b.Simulates window count false (b.call i w) := by
  unfold call
  by_cases hidle : b.calls i = .idle
  · rw [if_pos hidle]
    have haway : (b.view window count).phase i = .away := by
      show (b.calls i).phase window = .away
      rw [hidle]
      rfl
    refine ⟨count, hshown, ?_⟩
    rw [view_goes]
    by_cases hsees : w = window ∨ (w = .sec ∧ window = .minute)
    · have hphase : (RateCallState.running w b.clock .load).phase window = .ready b.clock := by
        rw [RateCallState.phase_running]
        split_ifs with h h'
        · rfl
        · rfl
        · exact absurd hsees (not_or.mpr ⟨h, h'⟩)
      rw [hphase]
      exact .enter i haway
    · obtain ⟨h, h'⟩ := not_or.mp hsees
      have hphase : (RateCallState.running w b.clock .load).phase window = .away := by
        rw [RateCallState.phase_running, if_neg h, if_neg h']
      rw [hphase, RacingWindow.moves_of_phase_eq _ haway]
      exact .stay
  · rw [if_neg hidle]
    exact ⟨count, hshown, .stay⟩

/-- A call does an operation of a window, other than the addition. -/
theorem simulates_puts (hshown : CircuitBreaker.Shows (b.cells window).count count) {i : ι}
    {w : RateWindow} {now : ℤ} {operation next : RateOperation} {c : RateCells} {count' : ℕ}
    (hcall : b.calls i = .running w now operation)
    (hcount : w = window → CircuitBreaker.Shows c.count count')
    (hstep : w = window → RacingWindow.Step window.width (window.limit b.cfg).toNat
      (b.view window count) false
      ({ b.view window count with start := c.windowStartNs, count := count' }.moves i
        (next.phase now))) :
    b.Simulates window count false ((b.puts w c).goes i (.running w now next)) := by
  by_cases hw : w = window
  · subst hw
    have hphase : (RateCallState.running w now next).phase w = next.phase now := if_pos rfl
    refine ⟨count', ?_, ?_⟩
    · simpa only [goes, puts, Function.update_self] using hcount rfl
    · rw [view_goes, view_puts_self b w _ count, hphase]
      exact hstep rfl
  · -- the window sees the call at the same place as before
    refine ⟨count, ?_, ?_⟩
    · simpa only [goes, puts, Function.update_of_ne (Ne.symm hw)] using hshown
    · have hsame : (b.calls i).phase window = (RateCallState.running w now next).phase window := by
        rw [hcall, RateCallState.phase_running, RateCallState.phase_running, if_neg hw, if_neg hw]
      have hview : ((b.puts w c).goes i (.running w now next)).view window count =
          b.view window count :=
        (view_goes_same (b := b.puts w c) hsame).trans (view_puts_of_ne c (Ne.symm hw))
      rw [hview]
      exact .stay

omit [DecidableEq ι] in
/-- The atomics of a window as they are. -/
theorem puts_self (b : RacingBreaker ι) (w : RateWindow) : b.puts w (b.cells w) = b := by
  show { b with cells := Function.update b.cells w (b.cells w) } = b
  rw [Function.update_eq_self]

/-- The atomics do not change. -/
theorem simulates_goes (hshown : CircuitBreaker.Shows (b.cells window).count count) {i : ι}
    {w : RateWindow} {now : ℤ} {operation next : RateOperation}
    (hcall : b.calls i = .running w now operation)
    (hstep : w = window → RacingWindow.Step window.width (window.limit b.cfg).toNat
      (b.view window count) false ((b.view window count).moves i (next.phase now))) :
    b.Simulates window count false (b.goes i (.running w now next)) := by
  have hsimulates : b.Simulates window count false
      ((b.puts w (b.cells w)).goes i (.running w now next)) := by
    refine simulates_puts hshown hcall (fun hw => hw ▸ hshown) fun hw => ?_
    subst hw
    exact hstep rfl
  rwa [puts_self] at hsimulates

omit [DecidableEq ι] in
/-- What a thread in the window is at. -/
theorem view_phase (count : ℕ) {i : ι} {now : ℤ} {operation : RateOperation}
    (hcall : b.calls i = .running window now operation) :
    (b.view window count).phase i = operation.phase now := by
  show (b.calls i).phase window = _
  rw [hcall]
  exact if_pos rfl

/-- A call leaves a window. -/
theorem simulates_fetchAdd (hwrap : b.Unwrapped)
    (hshown : CircuitBreaker.Shows (b.cells window).count count) {i : ι} {w : RateWindow} {now : ℤ}
    (hcall : b.calls i = .running w now .fetchAdd) (back : ℕ) :
    b.Simulates window count (decide (w = window ∧ (b.cells window).count < window.limit b.cfg))
      (b.operate i back).1 := by
  have hoperate : (b.operate i back).1 =
      (b.puts w { b.cells w with
        count := CircuitBreaker.fetchAddOne (b.cells w).count }).goes i
          (w.counted now (decide ((b.cells w).count < w.limit b.cfg))).1 := by
    rw [operate, hcall]
  rw [hoperate]
  by_cases hw : w = window
  · subst hw
    obtain ⟨hcount, -⟩ := hshown (hwrap w)
    refine ⟨count + 1, ?_, ?_⟩
    · simp only [goes, puts, Function.update_self]
      exact hshown.fetchAddOne (hwrap w)
    · have haway := w.counted_phase now w (decide ((b.cells w).count < w.limit b.cfg))
        (by rintro ⟨rfl, h⟩; cases h)
      have hadmits : decide (w = w ∧ (b.cells w).count < w.limit b.cfg) =
          decide (count < (w.limit b.cfg).toNat) := by
        rw [hcount]
        exact decide_eq_decide.mpr ⟨fun h => by omega, fun h => ⟨rfl, by omega⟩⟩
      rw [view_goes, view_puts_self b w _ count, haway, hadmits]
      exact .add i (view_phase count hcall)
  · have hfalse : decide (w = window ∧ (b.cells window).count < window.limit b.cfg) = false :=
      decide_eq_false fun h => hw h.1
    refine ⟨count, ?_, ?_⟩
    · simpa only [goes, puts, Function.update_of_ne (Ne.symm hw)] using hshown
    · rw [hfalse, view_goes, view_puts_of_ne _ (Ne.symm hw)]
      have hbefore : (b.view window count).phase i =
          if w = .sec ∧ window = .minute then .ready now else .away := by
        show (b.calls i).phase window = _
        rw [hcall]
        exact if_neg hw
      by_cases hsec : w = .sec ∧ window = .minute
      · rw [if_pos hsec] at hbefore
        obtain ⟨rfl, rfl⟩ := hsec
        -- the second lets the call go on to the minute, or it leaves
        cases hadmitted : decide ((b.cells .sec).count < RateWindow.sec.limit b.cfg) with
        | true =>
          have hsame : (RateWindow.sec.counted now true).1.phase .minute = .ready now := rfl
          rw [hsame, RacingWindow.moves_of_phase_eq _ hbefore]
          exact .stay
        | false => exact .leave i now hbefore
      · rw [if_neg hsec] at hbefore
        rw [w.counted_phase now window _ hsec, RacingWindow.moves_of_phase_eq _ hbefore]
        exact .stay

/-- **Each step is one of the window**, while the counters have not wrapped. -/
theorem simulates (hwrap : b.Unwrapped)
    (hshown : CircuitBreaker.Shows (b.cells window).count count) (move : RateMove ι) :
    b.Simulates window count (b.admits window move) (b.step move).1 := by
  cases move with
  | tick now =>
    by_cases hnow : b.clock ≤ now
    · have hstep : (b.step (.tick now)).1 = { b with clock := now } := if_pos hnow
      rw [hstep]
      exact ⟨count, hshown, .tick now hnow⟩
    · have hstep : (b.step (.tick now)).1 = b := if_neg hnow
      rw [hstep]
      exact ⟨count, hshown, .stay⟩
  | checkOrderRate i => exact simulates_call hshown i _
  | checkMessageRate i => exact simulates_call hshown i _
  | operate i back =>
    cases hcall : b.calls i with
    | idle =>
      have hstep : (b.step (.operate i back)).1 = b := by rw [step, operate, hcall]
      have hadmits : b.admits window (.operate i back) = false := by simp only [admits, hcall]
      rw [hstep, hadmits]
      exact ⟨count, hshown, .stay⟩
    | running w now operation =>
      cases operation with
      | load =>
        have hadmits : b.admits window (.operate i back) = false := by simp only [admits, hcall]
        rw [hadmits]
        simp only [step, operate, hcall]
        refine simulates_goes hshown hcall fun hw => ?_
        subst hw
        have hload := @RacingWindow.Step.load ι _ w.width (w.limit b.cfg).toNat _ i now
          ((b.cells w).loadStart back) (view_phase count hcall)
        by_cases hover : w.width ≤ now - (b.cells w).loadStart back
        · rw [if_pos hover] at hload
          rwa [if_pos hover]
        · rw [if_neg hover] at hload
          rwa [if_neg hover]
      | exchange seen =>
        have hadmits : b.admits window (.operate i back) = false := by simp only [admits, hcall]
        have hswap := fun hw : w = window => @RacingWindow.Step.swap ι _ window.width
          (window.limit b.cfg).toNat _ i now seen (view_phase count (hw ▸ hcall))
        rw [hadmits]
        simp only [step, operate, hcall]
        by_cases hseen : (b.cells w).windowStartNs = seen
        · rw [if_pos hseen]
          refine simulates_puts hshown hcall (fun hw => hw ▸ hshown) fun hw => ?_
          have hstep := hswap hw
          subst hw
          rwa [if_pos (by exact hseen)] at hstep
        · rw [if_neg hseen]
          refine simulates_goes hshown hcall fun hw => ?_
          have hstep := hswap hw
          subst hw
          rwa [if_neg (by exact hseen)] at hstep
      | store =>
        have hadmits : b.admits window (.operate i back) = false := by simp only [admits, hcall]
        rw [hadmits]
        simp only [step, operate, hcall]
        refine simulates_puts hshown hcall (fun _ => CircuitBreaker.shows_zero) fun hw => ?_
        subst hw
        exact .reset i (view_phase count hcall)
      | fetchAdd =>
        have hadmits : b.admits window (.operate i back) =
            decide (w = window ∧ (b.cells window).count < window.limit b.cfg) := by
          simp only [admits, hcall]
        rw [hadmits]
        exact simulates_fetchAdd hwrap hshown hcall back

/-- What a thread in a call does: it goes on in the window, or it is counted. -/
theorem operate_cases {i : ι} {w : RateWindow} {now : ℤ} {operation : RateOperation}
    (hcall : b.calls i = .running w now operation) (back : ℕ) :
    (operation ≠ .fetchAdd ∧ ∃ c following,
      b.operate i back = ((b.puts w c).goes i (.running w now following), none)) ∨
    (operation = .fetchAdd ∧ ∃ c, b.operate i back =
      ((b.puts w c).goes i (w.counted now (decide ((b.cells w).count < w.limit b.cfg))).1,
        (w.counted now (decide ((b.cells w).count < w.limit b.cfg))).2)) := by
  cases operation with
  | load =>
    refine .inl ⟨by simp, b.cells w, if now - (b.cells w).loadStart back ≥ w.width then
      .exchange ((b.cells w).loadStart back) else .fetchAdd, ?_⟩
    rw [puts_self]
    simp only [operate, hcall]
  | exchange seen =>
    simp only [operate, hcall]
    split_ifs with hseen
    · exact .inl ⟨by simp, _, _, rfl⟩
    · refine .inl ⟨by simp, b.cells w, .fetchAdd, ?_⟩
      rw [puts_self]
  | store =>
    simp only [operate, hcall]
    exact .inl ⟨by simp, _, _, rfl⟩
  | fetchAdd =>
    refine .inr ⟨rfl, { b.cells w with
      count := CircuitBreaker.fetchAddOne (b.cells w).count }, ?_⟩
    simp only [operate, hcall]

/-! ## Runs -/

/-- How many calls a window admits in a run. -/
def admissions (window : RateWindow) : RacingBreaker ι → List (RateMove ι) → ℕ
  | _, [] => 0
  | b, move :: moves => (b.admits window move).toNat + admissions window (b.next move) moves

theorem cfg_next (b : RacingBreaker ι) (move : RateMove ι) : (b.next move).cfg = b.cfg := by
  cases move with
  | tick now =>
    simp only [next, step]
    split_ifs <;> rfl
  | checkOrderRate i =>
    simp only [next, step, call]
    split_ifs <;> rfl
  | checkMessageRate i =>
    simp only [next, step, call]
    split_ifs <;> rfl
  | operate i back =>
    cases hcall : b.calls i with
    | idle => simp only [next, step, operate, hcall]
    | running w now operation =>
      rcases operate_cases hcall back with ⟨-, c, following, h⟩ | ⟨-, c, h⟩ <;>
        rw [next, step, h] <;> rfl

theorem cfg_after (b : RacingBreaker ι) (moves : List (RateMove ι)) : (b.after moves).cfg = b.cfg := by
  induction moves generalizing b with
  | nil => rfl
  | cons move moves ih => exact (ih (b.next move)).trans (cfg_next b move)

/-- **Each run is one of the window**, while the counters have not wrapped. -/
theorem simulates_run (window : RateWindow) {moves : List (RateMove ι)}
    (hwrap : AllSteps next (fun b _ => b.Unwrapped) b moves)
    (hshown : CircuitBreaker.Shows (b.cells window).count count) :
    ∃ count', CircuitBreaker.Shows ((b.after moves).cells window).count count' ∧
      RacingWindow.Run window.width (window.limit b.cfg).toNat (b.view window count)
        (admissions window b moves) ((b.after moves).view window count') := by
  induction moves generalizing b count with
  | nil => exact ⟨count, hshown, .refl⟩
  | cons move moves ih =>
    obtain ⟨hfirst, hrest⟩ := hwrap
    obtain ⟨count', hshown', hstep⟩ := simulates hfirst hshown move
    obtain ⟨count'', hshown'', hrun⟩ := ih hrest hshown'
    rw [cfg_next] at hrun
    exact ⟨count'', hshown'', .head hstep hrun⟩

/-! ## What is let through -/

/-- What a move returns is what the last window of the call makes of it. -/
theorem toList_step (b : RacingBreaker ι) (move : RateMove ι) :
    ((b.step move).2.toList.count (.order .ok) = (b.admits .minute move).toNat) ∧
      (b.step move).2.toList.count (.message true) = (b.admits .message move).toNat := by
  cases move with
  | tick now => exact ⟨rfl, rfl⟩
  | checkOrderRate i => exact ⟨rfl, rfl⟩
  | checkMessageRate i => exact ⟨rfl, rfl⟩
  | operate i back =>
    cases hcall : b.calls i with
    | idle => simp [step, operate, admits, hcall]
    | running w now operation =>
      rcases operate_cases hcall back with ⟨hne, c, following, h⟩ | ⟨rfl, c, h⟩
      · cases operation <;> simp_all [step, admits]
      · rw [step, h]
        simp only [admits, hcall]
        by_cases hlimit : (b.cells w).count < w.limit b.cfg <;> cases w <;>
          simp [RateWindow.counted, hlimit]

theorem count_ok_answers (b : RacingBreaker ι) (moves : List (RateMove ι)) :
    (b.answers moves).count (.order .ok) = admissions .minute b moves := by
  induction moves generalizing b with
  | nil => rfl
  | cons move moves ih => rw [answers, List.count_append, ih, (toList_step b move).1, admissions]

theorem count_message_answers (b : RacingBreaker ι) (moves : List (RateMove ι)) :
    (b.answers moves).count (.message true) = admissions .message b moves := by
  induction moves generalizing b with
  | nil => rfl
  | cons move moves ih => rw [answers, List.count_append, ih, (toList_step b move).2, admissions]

variable [Fintype ι]

theorem inWindow_goes (b : RacingBreaker ι) (window : RateWindow) (i : ι) (call : RateCallState) :
    (b.goes i call).inWindow window + (b.calls i).inWindow window =
      b.inWindow window + call.inWindow window :=
  sum_update_add (RateCallState.inWindow window) b.calls i call

/-- The minute lets through what the second has let on to it. -/
theorem admits_minute_le (b : RacingBreaker ι) (move : RateMove ι) :
    (b.admits .minute move).toNat + (b.next move).inWindow .minute ≤
      b.inWindow .minute + (b.admits .sec move).toNat := by
  have hcalled : ∀ (i : ι) (w : RateWindow), w ≠ .minute →
      (b.call i w).inWindow .minute = b.inWindow .minute := by
    intro i w hw
    unfold call
    by_cases hidle : b.calls i = .idle
    · have hgoes := inWindow_goes b .minute i (.running w b.clock .load)
      rw [if_pos hidle]
      simpa [hidle, RateCallState.inWindow, hw] using hgoes
    · rw [if_neg hidle]
  cases move with
  | tick now =>
    have htick : (b.next (.tick now)).inWindow .minute = b.inWindow .minute := by
      simp only [next, step]
      split_ifs <;> rfl
    rw [htick]
    simp [admits]
  | checkOrderRate i =>
    have hcheck : (b.next (.checkOrderRate i)).inWindow .minute = b.inWindow .minute :=
      hcalled i .sec (by decide)
    rw [hcheck]
    simp [admits]
  | checkMessageRate i =>
    have hcheck : (b.next (.checkMessageRate i)).inWindow .minute = b.inWindow .minute :=
      hcalled i .message (by decide)
    rw [hcheck]
    simp [admits]
  | operate i back =>
    cases hcall : b.calls i with
    | idle => simp [next, step, operate, admits, hcall]
    | running w now operation =>
      have hgoes : ∀ c call, ((b.puts w c).goes i call).inWindow .minute +
          (b.calls i).inWindow .minute = b.inWindow .minute + call.inWindow .minute :=
        fun c call => inWindow_goes (b.puts w c) .minute i call
      rcases operate_cases hcall back with ⟨hne, c, following, h⟩ | ⟨rfl, c, h⟩
      · have hadmits : ∀ window, b.admits window (.operate i back) = false := by
          intro window
          cases operation <;> simp_all [admits]
        have hsame := hgoes c (.running w now following)
        rw [hcall] at hsame
        rw [next, step, h, hadmits, hadmits]
        exact (Nat.zero_add _).trans_le (Nat.add_right_cancel hsame).le
      · have hcounted := hgoes c
          (w.counted now (decide ((b.cells w).count < w.limit b.cfg))).1
        rw [next, step, h]
        rw [hcall] at hcounted
        simp only [admits, hcall]
        by_cases hlimit : (b.cells w).count < w.limit b.cfg <;> cases w <;>
          simp [RateWindow.counted, RateCallState.inWindow, hlimit] at hcounted ⊢ <;> omega

theorem admissions_minute_le (b : RacingBreaker ι) (moves : List (RateMove ι)) :
    admissions .minute b moves + (b.after moves).inWindow .minute ≤
      b.inWindow .minute + admissions .sec b moves := by
  induction moves generalizing b with
  | nil => exact (Nat.zero_add _).le
  | cons move moves ih =>
    have hstep := admits_minute_le b move
    have hrest := ih (b.next move)
    have hafter : b.after (move :: moves) = (b.next move).after moves := rfl
    rw [hafter, admissions, admissions]
    omega

omit [DecidableEq ι] in
/-- The calls that may set a window back are in it, or on the way to it. -/
theorem underWay_view_le (b : RacingBreaker ι) (since : ℤ) (count : ℕ) :
    (b.view .sec count).underWay since ≤ b.inWindow .sec ∧
      (b.view .minute count).underWay since ≤ b.inWindow .sec + b.inWindow .minute ∧
      (b.view .message count).underWay since ≤ b.inWindow .message := by
  have hphase : ∀ (call : RateCallState) (window : RateWindow),
      (call.phase window).underWay since ≤
        call.inWindow window + if window = .minute then call.inWindow .sec else 0 := by
    intro call window
    cases call with
    | idle => exact Nat.zero_le _
    | running w now operation =>
      have hone := fun p => RacePhase.underWay_le_one since p
      rw [RateCallState.phase_running]
      by_cases hw : w = window
      · rw [if_pos hw]
        refine (hone _).trans ?_
        simp [RateCallState.inWindow, hw]
      · rw [if_neg hw]
        by_cases hsec : w = .sec ∧ window = .minute
        · rw [if_pos hsec]
          refine (hone _).trans ?_
          simp [RateCallState.inWindow, hsec]
        · rw [if_neg hsec]
          exact Nat.zero_le _
  have hsum : ∀ window, (b.view window count).underWay since ≤
      b.inWindow window + if window = .minute then b.inWindow .sec else 0 := by
    intro window
    calc (b.view window count).underWay since
        = ∑ i, ((b.calls i).phase window).underWay since := rfl
      _ ≤ ∑ i, ((b.calls i).inWindow window +
            if window = .minute then (b.calls i).inWindow .sec else 0) :=
          Finset.sum_le_sum fun i _ => hphase (b.calls i) window
      _ = b.inWindow window + if window = .minute then b.inWindow .sec else 0 := by
          rw [Finset.sum_add_distrib]
          split_ifs
          · rfl
          · rw [Finset.sum_const_zero]
            rfl
  exact ⟨hsum .sec, (hsum .minute).trans (Nat.add_comm ..).le, hsum .message⟩

/-- A breaker that nobody has called. -/
def start (cfg : RateLimitConfig) (clock : ℤ) : RacingBreaker ι := { cfg, clock }

variable {cfg : RateLimitConfig} {clock : ℤ} {before moves : List (RateMove ι)}

/-- What a window admits in a stretch of a run. -/
theorem admissions_le (hwrap : AllSteps next (fun b _ => b.Unwrapped) (start cfg clock)
      (before ++ moves)) (hb : b = (start cfg clock).after before) (window : RateWindow) :
    ∃ count, admissions window b moves ≤ (window.limit cfg).toNat *
      (2 + (b.view window count).underWay b.clock +
        (((b.after moves).clock - b.clock) / window.width).toNat) := by
  subst hb
  obtain ⟨hbefore, hmoves⟩ := allSteps_append.mp hwrap
  have hwidth : 0 < window.width := by cases window <;> decide
  have hsound : ((start cfg clock : RacingBreaker ι).view window 0).Sound window.width :=
    fun _ => trivial
  obtain ⟨count, hshown, hrun⟩ := simulates_run window hbefore CircuitBreaker.shows_zero
  obtain ⟨count', -, hrun'⟩ := simulates_run window hmoves hshown
  have hcfg : (before.foldl next (start cfg clock : RacingBreaker ι)).cfg = cfg := cfg_after _ before
  rw [hcfg] at hrun'
  exact ⟨count, hrun'.admitted_le hwidth (hrun.sound hsound)⟩

/-- **The rates under racing threads.** In any stretch of a run of any number of threads, no more
orders are let through than the limits for each second and each minute of it that has begun, for the
window that it finds, and for each call that is at the window at its beginning; the calls that have
passed the second by then come on top for the second. The same holds of the messages. No counter
must have wrapped. -/
theorem racing_rates (hwrap : AllSteps next (fun b _ => b.Unwrapped) (start cfg clock)
      (before ++ moves)) (hb : b = (start cfg clock).after before) :
    let time := (b.after moves).clock - b.clock
    (b.answers moves).count (.order .ok) ≤
        cfg.maxOrdersPerSecond.toNat * (2 + b.inWindow .sec + (time / 10 ^ 9).toNat) +
          b.inWindow .minute ∧
      (b.answers moves).count (.order .ok) ≤
        cfg.maxOrdersPerMinute.toNat *
          (2 + (b.inWindow .sec + b.inWindow .minute) + (time / (60 * 10 ^ 9)).toNat) ∧
      (b.answers moves).count (.message true) ≤
        cfg.maxMessagesPerSecond.toNat * (2 + b.inWindow .message + (time / 10 ^ 9).toNat) := by
  intro time
  have hbound : ∀ {window : RateWindow} {bound : ℕ},
      (∀ count, (b.view window count).underWay b.clock ≤ bound) →
      admissions window b moves ≤
        (window.limit cfg).toNat * (2 + bound + (time / window.width).toNat) := by
    intro window bound hunder
    obtain ⟨count, hadmitted⟩ := admissions_le hwrap hb window
    exact hadmitted.trans (Nat.mul_le_mul_left _
      (Nat.add_le_add_right (Nat.add_le_add_left (hunder count) 2) _))
  have hunder := underWay_view_le b b.clock
  refine ⟨?_, ?_, ?_⟩
  · have hsec := @hbound .sec _ fun count => (hunder count).1
    have hpassed := admissions_minute_le b moves
    rw [count_ok_answers]
    calc admissions .minute b moves
        ≤ admissions .sec b moves + b.inWindow .minute := by omega
      _ ≤ _ := Nat.add_le_add_right hsec _
  · rw [count_ok_answers]
    exact @hbound .minute _ fun count => (hunder count).2.1
  · rw [count_message_answers]
    exact @hbound .message _ fun count => (hunder count).2.2

/-- Two threads that call at once. The one that is too late to set the window back is counted before
the other one sets it back. -/
def twoThreads : List (RateMove (Fin 2)) :=
  [.checkOrderRate 0, .checkOrderRate 1, .operate 0 0, .operate 1 0, .operate 0 0, .operate 1 0,
    .operate 1 0, .operate 0 0, .operate 0 0, .operate 1 0, .operate 1 0, .operate 1 0,
    .operate 1 0, .operate 0 0, .operate 0 0, .operate 0 0]

/-- With a limit of one order a second, both go through in one instant. -/
theorem racing_rates_two :
    let b : RacingBreaker (Fin 2) := start { maxOrdersPerSecond := 1 } (10 ^ 12)
    (b.answers twoThreads).count (.order .ok) = 2 ∧
      (b.answers twoThreads).count (.order .ok) ≤ 1 * (2 + 0 + 0) + 0 :=
  ⟨by decide, (@racing_rates (Fin 2) _ _ _ { maxOrdersPerSecond := 1 } (10 ^ 12) [] twoThreads
    (by decide) rfl).1⟩

end RacingBreaker

end TradingInfrastructure
