import TradingInfrastructure.Engine.SubmitDecision
import TradingInfrastructure.Feeds.BookManager
import TradingInfrastructure.Portfolio.PortfolioIntentEngine
import TradingInfrastructure.Router.ChildOrderScheduler
import TradingInfrastructure.Router.VenueQualityModel

/-!
# The quotes of an iteration

What `core/engine/trading_engine_main.cpp` makes of the books in an iteration: the quotes of the
venues, the portfolio intent, the plan and the children that are scheduled. A `BookManager` keeps
the time of the last call that its book applied, and `check_book_age` limits its age.

A quote looks at the session, the book and its depth. The age of the book is not among them
(`healthy_makeQuote`), and a child goes to a venue that is quoted healthy (`sourced_schedule`).
-/

namespace TradingInfrastructure

/-! ## The age of a book -/

/-- `BookManager` with `last_update_steady_ns_`. -/
structure TimedBook where
  manager : BookManager
  lastUpdateSteadyNs : ℤ := 0
  deriving DecidableEq

namespace TimedBook

variable (bytesOf : ℚ → List UInt8) (m : TimedBook)

/-- The result of the book for a call. A trade has none. -/
def resultOf : Publication → Option Result
  | .snapshot s => some (m.manager.book.applySnapshot bytesOf s).1
  | .delta d => some (m.manager.book.applyDelta d).1
  | .trade _ => none

/-- A call at a time, which is kept when the book returns success. -/
def receive (p : Publication) (now : ℤ) : TimedBook where
  manager := m.manager.receive bytesOf p
  lastUpdateSteadyNs :=
    if m.resultOf bytesOf p = some .success then now else m.lastUpdateSteadyNs

/-- `is_ready`. -/
def isReady : Bool := m.manager.book.initialized

/-- `age_ms`, where `INT64_MAX` stands for a book that was never updated. -/
def ageMs (now : ℤ) : ℤ :=
  if m.lastUpdateSteadyNs = 0 then 2 ^ 63 - 1 else (now - m.lastUpdateSteadyNs).tdiv 1000000

/-- The book was updated, and passes `check_book_age`. -/
def Fresh (maxBookAgeMs now : ℤ) : Prop :=
  m.lastUpdateSteadyNs ≠ 0 ∧ m.ageMs now ≤ maxBookAgeMs

instance (maxBookAgeMs now : ℤ) : Decidable (m.Fresh maxBookAgeMs now) := by
  unfold Fresh
  infer_instance

/-- `top_opposite_depth`. -/
def topOppositeDepth : Side → ℚ
  | .bid => ((m.manager.book.topLevels .ask 1).head?.map (·.size)).getD 0
  | .ask => ((m.manager.book.topLevels .bid 1).head?.map (·.size)).getD 0

end TimedBook

/-! ## Quotes -/

/-- `VenueQuoteDefaults`. -/
structure VenueQuoteDefaults where
  latencyPenaltyBps : ℚ
  riskPenaltyBps : ℚ
  fillProbability : ℚ
  queueAheadQty : ℚ
  toxicityBps : ℚ

/-- `make_quote`. -/
def makeQuote (exchange : Exchange) (book : TimedBook) (enabled : Bool) (side : Side)
    (takerFeeBps : ℚ) (defaults : VenueQuoteDefaults) : VenueQuote :=
  if !enabled then { exchange, healthy := false, enabled := false }
  else if !book.isReady then { exchange, healthy := false, enabled := true }
  else
    let sideDepth := book.topOppositeDepth side
    { exchange
      bestBid := book.manager.book.getBestBid
      bestAsk := book.manager.book.getBestAsk
      depthQty := sideDepth
      takerFeeBps
      latencyPenaltyBps := defaults.latencyPenaltyBps
      riskPenaltyBps := defaults.riskPenaltyBps
      fillProbability := defaults.fillProbability
      queueAheadQty := defaults.queueAheadQty
      toxicityBps := defaults.toxicityBps
      healthy := decide (sideDepth > 0)
      enabled := true }

/-- The venues of the quotes, in their order. -/
def quotedVenue : Fin 4 → Exchange := ![.binance, .kraken, .okx, .coinbase]

/-- The session runs the venue. Only Binance runs in the futures mode. -/
def EngineOptions.runs (o : EngineOptions) : Exchange → Bool
  | .binance => o.runBinance
  | .kraken => o.runKraken && !o.futuresOnlyMode
  | .okx => o.runOkx && !o.futuresOnlyMode
  | .coinbase => o.runCoinbase && !o.futuresOnlyMode
  | .unknown => false

/-- What an engine is configured with. The bytes of a number are those that a checksum hashes. -/
structure QuotingConfig where
  options : EngineOptions
  maxBookAgeMs : ℤ := 500
  quoteDefaults : VenueQuoteDefaults
  childScheduler : ChildOrderScheduler
  bytesOf : ℚ → List UInt8

/-- `bid_quotes` or `ask_quotes`. -/
def QuotingConfig.quotesOf (c : QuotingConfig) (books : Exchange → TimedBook) (side : Side) :
    VenueQuotes := fun i =>
  makeQuote (quotedVenue i) (books (quotedVenue i)) (c.options.runs (quotedVenue i)) side
    (c.options.feeBps (quotedVenue i)) c.quoteDefaults

/-- The health of the venues that are enabled is observed. -/
def VenueQualityModel.observeQuotes (m : VenueQualityModel) (quotes : VenueQuotes) :
    VenueQualityModel :=
  (List.finRange 4).foldl (fun m i =>
    if (quotes i).enabled then m.observeHealth (quotes i).exchange (quotes i).healthy else m) m

/-- `apply` on an array of quotes. -/
def VenueQualityModel.applyAll (m : VenueQualityModel) (quotes : VenueQuotes) : VenueQuotes :=
  fun i => m.apply (quotes i)

/-! ## An iteration -/

/-- What an iteration reads besides the books: the clock, the signals, the position, memory that is
not initialized, and the objects that the iterations and the fills before have left. -/
structure LoopReads where
  nowNs : ℤ
  alphaSignal : AlphaSignal
  regimeSignal : RegimeSignal
  ledger : PositionLedgerSnapshot
  futuresMarkPrice : ℚ
  signalAgeMs : ℤ
  intentMemory : PortfolioIntent
  planMemory : PlanMemory
  schedulerMemory : SchedulerMemory
  quality : VenueQualityModel
  intentEngine : PortfolioIntentEngine
  parentManager : ParentOrderManager
  accounting : LiveSessionAccounting

/-- What an iteration decides: the quotes that it used, the arguments of `submit_decision` and the
children. -/
structure QuotedDecision where
  quotes : VenueQuotes
  call : DecisionCall
  children : List ChildOrder

namespace QuotingConfig

variable (c : QuotingConfig) (books : Exchange → TimedBook)

/-- The quotes of a side with what is known of the quality of the venues. The health is observed on
the quotes of the bids. -/
def adjustedQuotes (quality : VenueQualityModel) (side : Side) : VenueQuotes :=
  (quality.observeQuotes (c.quotesOf books .bid)).applyAll (c.quotesOf books side)

/-- `evaluate` of the intent engine, on the quotes of the bids. -/
def intentOf (x : LoopReads) : PortfolioIntent :=
  (x.intentEngine.evaluate x.intentMemory
    { alphaSignal := x.alphaSignal
      regimeSignal := x.regimeSignal
      ledger := x.ledger
      venues := c.adjustedQuotes books x.quality .bid
      ctx :=
        { spotMidPrice := (books .binance).manager.book.getMidPrice
          futuresMidPrice := if c.options.futuresOnlyMode then x.futuresMarkPrice else 0
          signalAgeMs := x.signalAgeMs } }).2

/-- From the quotes to the children. No children are submitted unless the plan has changed, is
active and leaves enough. -/
def decide (x : LoopReads) : QuotedDecision :=
  let intent := c.intentOf books x
  let planUpdate :=
    (x.parentManager.updateTarget x.planMemory intent.positionDelta intent.urgency x.nowNs 0).2
  let activePlan := planUpdate.plan
  let quotes := c.adjustedQuotes books x.quality activePlan.side
  { quotes
    call :=
      { side := activePlan.side
        children := []
        accounting := x.accounting
        currentPosition := x.ledger.globalPosition
        targetPosition := intent.targetGlobalPosition }
    children :=
      if planUpdate.action ≠ .none ∧ activePlan.active = true ∧
          activePlan.remainingQty > 1 / 10 ^ 6 then
        (c.childScheduler.schedule x.schedulerMemory activePlan x.alphaSignal.horizonTicks
          x.ledger.oldestInventoryAgeMs quotes).children
      else [] }

/-- `exit_plan`, which sells the position. Its other fields are what memory holds. -/
def exitPlan (memory : ParentExecutionPlan) (finalPosition : ℚ) : ParentExecutionPlan :=
  { memory with
    side := .ask
    totalQty := finalPosition
    remainingQty := finalPosition
    urgency := .aggressive
    allowAggressive := true
    state := .working }

/-- The children that sell the position after the loop, in the shadow mode. The quotes are used as
they are made. -/
def exitChildren (planMemory : ParentExecutionPlan) (schedulerMemory : SchedulerMemory)
    (finalPosition : ℚ) : List ChildOrder :=
  if c.options.shadow ∧ finalPosition > 1 / 10 ^ 9 then
    (c.childScheduler.schedule schedulerMemory (exitPlan planMemory finalPosition) 1 0
      (c.quotesOf books .ask)).children
  else []

end QuotingConfig

/-! ## What a child comes from -/

/-- **A quote is healthy** when the venue is enabled and its book has been initialized and has
depth, whatever its age is. -/
theorem healthy_makeQuote {exchange : Exchange} {book : TimedBook} {enabled : Bool} {side : Side}
    {takerFeeBps : ℚ} {defaults : VenueQuoteDefaults} :
    (makeQuote exchange book enabled side takerFeeBps defaults).healthy = true ↔
      enabled = true ∧ book.isReady = true ∧ 0 < book.topOppositeDepth side := by
  unfold makeQuote
  cases enabled <;> cases book.isReady <;> simp

theorem bestBid_makeQuote {exchange : Exchange} {book : TimedBook} {enabled : Bool} {side : Side}
    {takerFeeBps : ℚ} {defaults : VenueQuoteDefaults}
    (h : (makeQuote exchange book enabled side takerFeeBps defaults).healthy = true) :
    (makeQuote exchange book enabled side takerFeeBps defaults).bestBid =
      book.manager.book.getBestBid := by
  obtain ⟨henabled, hready, -⟩ := healthy_makeQuote.mp h
  simp [makeQuote, henabled, hready]

theorem exchange_makeQuote (exchange : Exchange) (book : TimedBook) (enabled : Bool) (side : Side)
    (takerFeeBps : ℚ) (defaults : VenueQuoteDefaults) :
    (makeQuote exchange book enabled side takerFeeBps defaults).exchange = exchange := by
  unfold makeQuote
  cases enabled <;> cases book.isReady <;> rfl

/-- The quality of a venue changes neither whose quote it is nor whether it is healthy. -/
theorem VenueQualityModel.apply_keeps (m : VenueQualityModel) (venue : VenueQuote) :
    (m.apply venue).exchange = venue.exchange ∧ (m.apply venue).healthy = venue.healthy := by
  unfold VenueQualityModel.apply
  split_ifs <;> exact ⟨rfl, rfl⟩

/-- Each child is for a venue that is quoted healthy. -/
def Sourced (venues : VenueQuotes) (children : List ChildOrder) : Prop :=
  ∀ child ∈ children, ∃ i, (venues i).healthy = true ∧ child.exchange = quotedVenue i

theorem sourced_nil (venues : VenueQuotes) : Sourced venues [] :=
  fun _ hchild => absurd hchild List.not_mem_nil

/-- **A child goes to a venue that is quoted healthy.** -/
theorem sourced_schedule {scheduler : ChildOrderScheduler} {memory : SchedulerMemory}
    {plan : ParentExecutionPlan} {horizonTicks inventoryAgeMs : ℤ} {venues : VenueQuotes}
    (hvenues : ∀ i, (venues i).exchange = quotedVenue i) :
    Sourced venues
      (scheduler.schedule memory plan horizonTicks inventoryAgeMs venues).children := by
  have hloop : ∀ side style shortfall fuel s, Sourced venues s.children →
      Sourced venues (scheduler.scheduleLoop side style shortfall venues fuel s).children := by
    intro side style shortfall fuel s hs
    refine ChildOrderScheduler.scheduleLoop_induction (P := fun s => Sourced venues s.children)
      (fun _ _ hs _ => hs) (fun s i hs _ hselect _ child hchild => ?_) hs
    rcases List.mem_append.mp hchild with hold | hnew
    · exact hs child hold
    · obtain ⟨-, hhealthy, -⟩ := ChildOrderScheduler.selectBestVenue_some hselect
      rw [List.mem_singleton.mp hnew]
      exact ⟨i, hhealthy, hvenues i⟩
  unfold ChildOrderScheduler.schedule
  dsimp only
  split_ifs
  all_goals first
    | exact sourced_nil venues
    | exact hloop _ _ _ _ { remaining := plan.remainingQty } (sourced_nil venues)

namespace QuotingConfig

variable {c : QuotingConfig} {books : Exchange → TimedBook} {side : Side} {i : Fin 4}

/-- The venue can be traded on a side, as far as its quote goes: the session runs it, and its book
has been initialized and has depth. -/
def Quotable (c : QuotingConfig) (books : Exchange → TimedBook) (side : Side) (i : Fin 4) : Prop :=
  c.options.runs (quotedVenue i) = true ∧ (books (quotedVenue i)).isReady = true ∧
    0 < (books (quotedVenue i)).topOppositeDepth side

instance (c : QuotingConfig) (books : Exchange → TimedBook) (side : Side) (i : Fin 4) :
    Decidable (c.Quotable books side i) := by
  unfold Quotable
  infer_instance

theorem healthy_quotesOf : (c.quotesOf books side i).healthy = true ↔ c.Quotable books side i :=
  healthy_makeQuote

theorem healthy_adjustedQuotes (quality : VenueQualityModel) :
    (c.adjustedQuotes books quality side i).healthy = true ↔ c.Quotable books side i := by
  rw [← healthy_quotesOf, ← (VenueQualityModel.apply_keeps _ (c.quotesOf books side i)).2]
  rfl

/-- The children of an iteration. -/
theorem sourced_decide (x : LoopReads) :
    Sourced (c.decide books x).quotes (c.decide books x).children := by
  unfold decide
  dsimp only
  split_ifs
  · refine sourced_schedule fun i => ?_
    exact (VenueQualityModel.apply_keeps _ (c.quotesOf books _ i)).1.trans (exchange_makeQuote ..)
  · exact sourced_nil _

/-- The children that sell the position after the loop. -/
theorem sourced_exitChildren (planMemory : ParentExecutionPlan) (schedulerMemory : SchedulerMemory)
    (finalPosition : ℚ) :
    Sourced (c.quotesOf books .ask)
      (c.exitChildren books planMemory schedulerMemory finalPosition) := by
  unfold exitChildren
  split_ifs
  · exact sourced_schedule fun i => exchange_makeQuote ..
  · exact sourced_nil _

end QuotingConfig

end TradingInfrastructure
