import TradingInfrastructure.Engine.CommittedExposure
import TradingInfrastructure.Engine.EngineBooks
import TradingInfrastructure.Engine.MainLoop
import TradingInfrastructure.Engine.VenueQuotes
import TradingInfrastructure.Portfolio.IntentConsistency

/-!
# Stale books

The feeds call the books at any time between the steps of the main loop. `check_book_age` is asked
by the market maker, but not in `trading_engine_main.cpp`: once a book has been initialized and has
depth, its venue is quoted healthy and traded however old the book is (`oldBook_is_traded`).

An order goes to a venue that was quoted healthy when the iteration began. So the venues that are
traded have fresh books where each venue that can be quoted has one when the quotes are made, and
each venue that was quoted healthy has one when a child comes up (`tradesFresh_of_fed`).
-/

namespace TradingInfrastructure

/-- Where the engine is: in its loop, after it, or selling what is left. -/
inductive LoopPhase
  | looping | left | exiting
  deriving DecidableEq, Inhabited, Repr

/-- The engine between two steps: the submissions, the books, and what `submit_decision` still has
to do. -/
structure QuotingEngine where
  submit : SubmitEngine
  books : Exchange → TimedBook
  quotes : VenueQuotes := fun _ => {}
  call : DecisionCall
  pending : List ChildOrder := []
  phase : LoopPhase := .looping

/-- A step. -/
inductive QuotingStep
  /-- The feed of a venue calls its book. -/
  | feed (exchange : Exchange) (p : Publication) (now : ℤ)
  /-- An iteration begins: quotes, intent, plan and children. -/
  | turn (x : LoopReads)
  /-- The next child comes up. -/
  | child (env : ChildEnvironment)
  /-- The loop is over, and what is left of the position is to be sold. -/
  | exit (planMemory : ParentExecutionPlan) (schedulerMemory : SchedulerMemory) (finalPosition : ℚ)

/-- The order that was submitted. -/
def ChildOutcome.order : ChildOutcome → Option Order
  | .submitted order _ => some order
  | .skipped | .halted => none

namespace QuotingEngine

variable (c : QuotingConfig)

/-- An exception or a fault has ended the engine, or a decision is not done yet. -/
def busy (e : QuotingEngine) : Bool :=
  !e.pending.isEmpty || e.submit.cancels.ended || e.submit.fault.isSome

/-- The next child, and the order that is submitted for it. What is sold at the end passes no
check but that of its price. -/
def nextChild (e : QuotingEngine) (env : ChildEnvironment) : QuotingEngine × Option Order :=
  match e.pending with
  | [] => (e, none)
  | child :: pending =>
    let e := { e with pending }
    if e.phase = .exiting then
      if child.limitPrice ≤ 0 then (e, none)
      else
        ({ e with submit.nextId := e.submit.nextId + 1 },
          some { makeChildOrder c.options.symbol child.exchange .ask child.quantity
            child.limitPrice child.tif e.submit.nextId with submitTsNs := env.systemNowNs })
    else if e.submit.stopped then (e, none)
    else
      let processed := e.submit.processChild c.options e.call child env
      ({ e with submit := processed.1 }, processed.2.order)

/-- One step. -/
def step (e : QuotingEngine) : QuotingStep → QuotingEngine
  | .feed exchange p now =>
    { e with
      books := Function.update e.books exchange ((e.books exchange).receive c.bytesOf p now) }
  | .turn x =>
    if e.busy ∨ e.phase ≠ .looping then e
    else if e.submit.risk.killSwitch.active then { e with phase := .left }
    else
      let decision := c.decide e.books x
      { e with
        submit := e.submit.start, quotes := decision.quotes, call := decision.call
        pending := decision.children }
  | .child env => (e.nextChild c env).1
  | .exit planMemory schedulerMemory finalPosition =>
    if e.busy ∨ e.phase = .exiting then e
    else
      { e with
        phase := .exiting, quotes := c.quotesOf e.books .ask
        pending := c.exitChildren e.books planMemory schedulerMemory finalPosition }

/-- The engine before its first iteration. -/
def start (cfg : BookConfig) (submit : SubmitEngine) : QuotingEngine where
  submit
  books exchange := ⟨⟨engineBook cfg exchange⟩, 0⟩
  call := ⟨.bid, [], .new, 0, 0⟩

/-! ## The property -/

/-- The venue that a step submits an order to, and the time. -/
def submits (e : QuotingEngine) : QuotingStep → Option (Exchange × ℤ)
  | .child env => (e.nextChild c env).2.map fun order => (order.exchange, env.nowNs)
  | .feed .. | .turn .. | .exit .. => none

/-- The book of the venue has applied a call that is not older than the limit. -/
def AppliedWithin (e : QuotingEngine) (before : List QuotingStep) (exchange : Exchange) (now : ℤ) :
    Prop :=
  ∃ early p t late, before = early ++ .feed exchange p t :: late ∧
    ((early.foldl (step c) e).books exchange).resultOf c.bytesOf p = some .success ∧
    (now - t).tdiv 1000000 ≤ c.maxBookAgeMs

/-- **Only fresh books are traded**: an order goes to a venue whose book has applied a call within
the limit, and a venue is quoted healthy only then. -/
structure TradesFresh (e : QuotingEngine) (steps : List QuotingStep) : Prop where
  orders : ∀ before s after, steps = before ++ s :: after → ∀ exchange now,
    (before.foldl (step c) e).submits c s = some (exchange, now) →
      e.AppliedWithin c before exchange now
  quotes : ∀ before x after, steps = before ++ .turn x :: after → ∀ side i,
    (c.adjustedQuotes (before.foldl (step c) e).books x.quality side i).healthy = true →
      e.AppliedWithin c before (quotedVenue i) x.nowNs

/-- The feeds keep the books fresh: each venue that can be quoted has a fresh book when an iteration
begins, and each venue that was quoted healthy has one when a child comes up. -/
def Fed (e : QuotingEngine) : QuotingStep → Prop
  | .turn x => ∀ side i, c.Quotable e.books side i →
    (e.books (quotedVenue i)).Fresh c.maxBookAgeMs x.nowNs
  | .child env => e.pending ≠ [] → ∀ i, (e.quotes i).healthy = true →
    (e.books (quotedVenue i)).Fresh c.maxBookAgeMs env.nowNs
  | .feed .. | .exit .. => True

end QuotingEngine

/-! ## The venue of an order -/

namespace SubmitEngine

variable {o : EngineOptions} {call : DecisionCall} {e : SubmitEngine} {child : ChildOrder}
  {env : ChildEnvironment} {order : Order} {result : ConnectorResult}

/-- What is submitted is the order of the child. -/
theorem submitted_processChild
    (h : (e.processChild o call child env).2 = .submitted order result) :
    ∃ id, order = o.orderOf call child env id := by
  have hhalt : ∀ e : SubmitEngine, (e.halt o env).2 ≠ .submitted order result :=
    fun _ h => ChildOutcome.noConfusion h
  have hdeliver : ∀ (e : SubmitEngine) order',
      (e.deliver o call child env order').2 = .submitted order result → order = order' := by
    intro e order' h
    unfold deliver at h
    dsimp only at h
    split_ifs at h
    · exact absurd h (hhalt _)
    · exact (ChildOutcome.submitted.inj h).1.symm
  rw [processChild_eq] at h
  split_ifs at h
  · exact absurd h (hhalt _)
  · exact absurd h (hhalt _)
  · refine ⟨(e.rated env).nextId, ?_⟩
    unfold commitAndDeliver at h
    dsimp only at h
    split_ifs at h
    split at h
    · cases h
    · split_ifs at h
      exact hdeliver _ _ h

end SubmitEngine

/-- The order of a child that the session's venues are quoted for goes to the venue of the child. -/
theorem EngineOptions.exchange_orderOf {o : EngineOptions} {call : DecisionCall}
    {child : ChildOrder}
    {env : ChildEnvironment} {id : ℕ} (hruns : o.runs child.exchange = true) :
    (o.orderOf call child env id).exchange = child.exchange := by
  cases hfutures : o.futuresOnlyMode with
  | false => simp [EngineOptions.orderOf, hfutures, makeChildOrder]
  | true =>
    -- in the futures mode only Binance is run
    cases hexchange : child.exchange with
    | binance => simp [EngineOptions.orderOf, hfutures]
    | kraken | okx | coinbase | unknown => simp [hexchange, EngineOptions.runs, hfutures] at hruns

namespace QuotingEngine

variable {c : QuotingConfig} {e : QuotingEngine} {env : ChildEnvironment} {s : QuotingStep}

/-! ## What the steps keep -/

/-- What is left to submit is for venues that are quoted healthy, and only venues that the session
runs are. -/
structure Sound (c : QuotingConfig) (e : QuotingEngine) : Prop where
  sourced : Sourced e.quotes e.pending
  runs : ∀ i, (e.quotes i).healthy = true → c.options.runs (quotedVenue i) = true

/-- A child that comes up changes neither the books nor the quotes, and leaves the others. -/
theorem nextChild_keeps (e : QuotingEngine) (env : ChildEnvironment) :
    (e.nextChild c env).1.books = e.books ∧ (e.nextChild c env).1.quotes = e.quotes ∧
      (e.nextChild c env).1.pending = e.pending.tail := by
  unfold nextChild
  cases hpending : e.pending with
  | nil => exact ⟨rfl, rfl, hpending⟩
  | cons child pending =>
    dsimp only
    split_ifs <;> exact ⟨rfl, rfl, rfl⟩

/-- Only a feed changes a book. -/
theorem books_step (hfeed : ∀ exchange p now, s ≠ .feed exchange p now) :
    (e.step c s).books = e.books := by
  cases s with
  | feed exchange p now => exact absurd rfl (hfeed exchange p now)
  | turn x =>
    simp only [step]
    split_ifs <;> rfl
  | child env => exact (nextChild_keeps e env).1
  | exit planMemory schedulerMemory finalPosition =>
    simp only [step]
    split_ifs <;> rfl

theorem Sound.step (h : e.Sound c) (s : QuotingStep) : (e.step c s).Sound c := by
  cases s with
  | feed exchange p now => exact ⟨h.sourced, h.runs⟩
  | turn x =>
    simp only [QuotingEngine.step]
    split_ifs
    · exact h
    · exact ⟨h.sourced, h.runs⟩
    · exact ⟨QuotingConfig.sourced_decide x, fun i hi =>
        ((QuotingConfig.healthy_adjustedQuotes x.quality).mp hi).1⟩
  | child env =>
    obtain ⟨-, hquotes, hpending⟩ := @nextChild_keeps c e env
    refine ⟨fun child hchild => ?_, fun i hi => h.runs i ?_⟩
    · have hmem : child ∈ e.pending.tail := hpending ▸ hchild
      have hsourced := h.sourced child (List.mem_of_mem_tail hmem)
      rwa [← hquotes] at hsourced
    · rwa [← hquotes]
  | exit planMemory schedulerMemory finalPosition =>
    simp only [QuotingEngine.step]
    split_ifs
    · exact h
    · exact ⟨QuotingConfig.sourced_exitChildren _ _ _, fun i hi =>
        (QuotingConfig.healthy_quotesOf.mp hi).1⟩

/-- **An order goes to a venue that was quoted healthy.** -/
theorem Sound.submits_healthy (h : e.Sound c) {exchange : Exchange} {now : ℤ}
    (hsubmits : e.submits c s = some (exchange, now)) :
    ∃ env i, s = .child env ∧ e.pending ≠ [] ∧ (e.quotes i).healthy = true ∧
      exchange = quotedVenue i ∧ now = env.nowNs := by
  cases s with
  | feed | turn | exit => cases hsubmits
  | child env =>
    obtain ⟨order, horder, hpair⟩ := Option.map_eq_some_iff.mp hsubmits
    obtain ⟨rfl, rfl⟩ := Prod.mk.inj hpair
    unfold nextChild at horder
    cases hpending : e.pending with
    | nil =>
      rw [hpending] at horder
      cases horder
    | cons child pending =>
      obtain ⟨i, hhealthy, hexchange⟩ := h.sourced child (by simp [hpending])
      refine ⟨env, i, rfl, List.cons_ne_nil _ _, hhealthy, ?_, rfl⟩
      rw [← hexchange]
      simp only [hpending] at horder
      split_ifs at horder
      · cases horder
        rfl
      · cases houtcome : (e.submit.processChild c.options e.call child env).2 with
        | skipped | halted =>
          rw [houtcome] at horder
          cases horder
        | submitted order' result =>
          rw [houtcome] at horder
          cases horder
          obtain ⟨id, rfl⟩ := SubmitEngine.submitted_processChild houtcome
          exact EngineOptions.exchange_orderOf (hexchange ▸ h.runs i hhealthy)

/-! ## Runs -/

/-- **The time that a book keeps is that of a call that it has applied.** -/
theorem updated_of_run (hstart : ∀ exchange, (e.books exchange).lastUpdateSteadyNs = 0)
    (before : List QuotingStep) (exchange : Exchange) :
    let book := (before.foldl (step c) e).books exchange
    book.lastUpdateSteadyNs ≠ 0 → ∃ early p late,
      before = early ++ .feed exchange p book.lastUpdateSteadyNs :: late ∧
        ((early.foldl (step c) e).books exchange).resultOf c.bytesOf p = some .success := by
  induction before using List.reverseRecOn with
  | nil => exact fun h => absurd (hstart exchange) h
  | append_singleton before s ih =>
    intro book hbook
    -- what was applied before the last step
    have hold : book.lastUpdateSteadyNs =
        ((before.foldl (step c) e).books exchange).lastUpdateSteadyNs →
        ∃ early p late, before ++ [s] = early ++ .feed exchange p book.lastUpdateSteadyNs :: late ∧
          ((early.foldl (step c) e).books exchange).resultOf c.bytesOf p = some .success := by
      intro hsame
      obtain ⟨early, p, late, hsplit, hresult⟩ := ih (hsame ▸ hbook)
      refine ⟨early, p, late ++ [s], ?_, hresult⟩
      rw [hsame, ← List.cons_append, ← List.append_assoc, ← hsplit]
    have hlast : book = (((before.foldl (step c) e).step c s).books exchange) := by
      simp only [book, List.foldl_append, List.foldl_cons, List.foldl_nil]
    cases s with
    | feed exchange' p now =>
      by_cases hexchange : exchange' = exchange
      · subst hexchange
        have hreceived : book =
            ((before.foldl (step c) e).books exchange').receive c.bytesOf p now := by
          rw [hlast]
          exact Function.update_self ..
        by_cases hresult :
            ((before.foldl (step c) e).books exchange').resultOf c.bytesOf p = some .success
        · refine ⟨before, p, [], ?_, hresult⟩
          rw [hreceived, TimedBook.receive, if_pos hresult]
        · refine hold ?_
          rw [hreceived, TimedBook.receive, if_neg hresult]
      · refine hold (congrArg TimedBook.lastUpdateSteadyNs (hlast.trans ?_))
        exact Function.update_of_ne (Ne.symm hexchange) ..
    | turn | child | exit =>
      refine hold (congrArg TimedBook.lastUpdateSteadyNs (hlast.trans ?_))
      rw [books_step fun _ _ _ h => QuotingStep.noConfusion h]

/-- A book that is fresh has applied a call within the limit. -/
theorem appliedWithin_of_fresh (hstart : ∀ exchange, (e.books exchange).lastUpdateSteadyNs = 0)
    {before : List QuotingStep} {exchange : Exchange} {now : ℤ}
    (hfresh : ((before.foldl (step c) e).books exchange).Fresh c.maxBookAgeMs now) :
    e.AppliedWithin c before exchange now := by
  obtain ⟨hupdated, hage⟩ := hfresh
  obtain ⟨early, p, late, hsplit, hresult⟩ := updated_of_run hstart before exchange hupdated
  refine ⟨early, p, _, late, hsplit, hresult, ?_⟩
  rwa [TimedBook.ageMs, if_neg hupdated] at hage

/-- **Fresh books are traded where the feeds keep them fresh**, in every run of the engine and for
all timings of the feeds. -/
theorem tradesFresh_of_fed (c : QuotingConfig) (cfg : BookConfig) (submit : SubmitEngine)
    (steps : List QuotingStep) (hfed : AllSteps (step c) (Fed c) (start cfg submit) steps) :
    (start cfg submit).TradesFresh c steps := by
  have hstart : ∀ exchange, ((start cfg submit).books exchange).lastUpdateSteadyNs = 0 :=
    fun _ => rfl
  have hsound : ∀ before : List QuotingStep,
      (before.foldl (step c) (start cfg submit)).Sound c := fun before =>
    foldl_induction (P := Sound c) (fun e s h (_ : True) => h.step s)
      ⟨sourced_nil _, fun i hi => Bool.noConfusion hi⟩ fun _ _ => trivial
  rw [allSteps_iff_forall_split] at hfed
  constructor
  · intro before s after hsplit exchange now hsubmits
    obtain ⟨env, i, rfl, hpending, hhealthy, rfl, rfl⟩ := (hsound before).submits_healthy hsubmits
    exact appliedWithin_of_fresh hstart (hfed before _ after hsplit hpending i hhealthy)
  · intro before x after hsplit side i hhealthy
    have hquotable := (QuotingConfig.healthy_adjustedQuotes x.quality).mp hhealthy
    exact appliedWithin_of_fresh hstart (hfed before _ after hsplit side i hquotable)

/-! ## An old book -/

/-- A shadow session at Binance. -/
def shadowBinance : QuotingConfig where
  options := { SubmitEngine.liveBinance with shadow := true }
  quoteDefaults := ⟨0, 0, 1 / 2, 0, 0⟩
  childScheduler := (LoopInputs.oneUnit 1).childScheduler
  bytesOf _ := []

/-- The venue publishes five units on each side, one second after the start of its clock. -/
def published : QuotingStep :=
  .feed .binance (.snapshot { bids := [⟨99, 5, 1⟩], asks := [⟨101, 5, 1⟩] }) (10 ^ 9)

/-- An iteration at a time, in seconds, with a signal for an entry. -/
def entryAt (seconds : ℤ) : QuotingStep :=
  .turn
    { nowNs := seconds * 10 ^ 9
      alphaSignal := ⟨20, 0, 1, 10⟩
      regimeSignal := ⟨0, 0⟩
      ledger := ⟨0, 0⟩
      futuresMarkPrice := 0
      signalAgeMs := 0
      intentMemory := PortfolioIntentEngine.withTarget 0
      planMemory := ⟨.none, false, false, 0⟩
      schedulerMemory := ⟨.ioc, 0, ⟨0, 0, 0⟩⟩
      quality := ⟨{}, fun _ => {}⟩
      intentEngine := PortfolioIntentEngine.unitCap
      parentManager := { nextPlanId := 1 }
      accounting := .new }

/-- The next child comes up at a time, in seconds. -/
def childAt (seconds : ℤ) : QuotingStep :=
  .child { SubmitEngine.refusing with nowNs := seconds * 10 ^ 9, submit := fun _ _ => .ok }

/-- The run of an iteration at a time, in seconds, after the one call of the feed. -/
def tradedAt (seconds : ℤ) : List QuotingStep := [published, entryAt seconds, childAt seconds]

/-- At once, the book is fresh. -/
theorem tradesFresh_atOnce :
    (start {} SubmitEngine.liveEngine).TradesFresh shadowBinance (tradedAt 1) :=
  tradesFresh_of_fed shadowBinance {} SubmitEngine.liveEngine (tradedAt 1)
    ⟨trivial, fun side => by cases side <;> decide +kernel, fun _ => by decide +kernel, trivial⟩

/-- **An old book is traded**: ten seconds after the feed has stopped, an order goes to its
venue. -/
theorem oldBook_is_traded :
    ¬ (start {} SubmitEngine.liveEngine).TradesFresh shadowBinance (tradedAt 11) := by
  intro h
  obtain ⟨early, p, t, late, hsplit, -, hage⟩ := h.orders [published, entryAt 11] (childAt 11) []
    rfl .binance (11 * 10 ^ 9) (by decide +kernel)
  cases early with
  | nil =>
    cases hsplit
    exact absurd hage (by decide)
  | cons s early =>
    -- only the first step is a call of a feed
    cases early with
    | nil => cases hsplit
    | cons s early => cases early <;> cases hsplit

end QuotingEngine

end TradingInfrastructure
