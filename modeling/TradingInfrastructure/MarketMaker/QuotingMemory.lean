import TradingInfrastructure.Foundations.Runs
import TradingInfrastructure.MarketMaker.PositionLimit
import TradingInfrastructure.Risk.CircuitBreaker

/-!
# What quoting reads of memory

No constructor sets the ids of the quotes and of the stop, the middle and the signal of the last
quotes, the entry price and the injected signal of the market maker, nor the position of the order
manager, nor the totals of a snapshot of the ledger, of which the circuit breaker is told the
profit. Two runs that start with the same position and agree, at each step, on the members that the
step reads submit and cancel the same orders and report the same positions
(`outputs_congr_quoting`). What a step does not read may differ from the one run to the other, as
long as it is not read.

The circuit breaker is a part of the state here: a stop that fills tells it of a leg whose result
depends on the entry price.
-/

namespace TradingInfrastructure

/-! ## The circuit breaker -/

/-- `CircuitBreaker`, with what the market maker asks of it beyond the order rate and the
drawdown. -/
structure MakerBreaker extends CircuitBreaker where
  consecutiveLossCount : ℤ := 5
  maxBookAgeMs : ℤ := 500
  maxPriceDeviationBps : ℚ := 300
  priceEmaAlpha : ℚ := 1 / 100
  perLegLossUsd : ℚ := -50
  consecLosses : ℤ := 0
  refPrice : ℚ := 0
  deriving DecidableEq

namespace MakerBreaker

variable (b : MakerBreaker) (killSwitch : KillSwitch)

/-- `check_price_deviation`: whether the price passes, the breaker and the kill switch. -/
def checkPriceDeviation (price : ℚ) : Bool × MakerBreaker × KillSwitch :=
  if price ≤ 0 then (true, b, killSwitch)
  else if b.refPrice = 0 then (true, { b with refPrice := price }, killSwitch)
  else
    let moved := { b with refPrice := b.refPrice + b.priceEmaAlpha * (price - b.refPrice) }
    if |price - b.refPrice| / b.refPrice * 10000 > b.maxPriceDeviationBps then
      (false, moved, killSwitch.trigger .circuitBreaker)
    else (true, moved, killSwitch)

/-- `record_leg_result`. -/
def recordLegResult (legPnl : ℚ) : MakerBreaker × KillSwitch :=
  if legPnl ≤ b.perLegLossUsd then
    let n := CircuitBreaker.fetchAddOne b.consecLosses
    ({ b with consecLosses := n },
      if n ≥ b.consecutiveLossCount then killSwitch.trigger .circuitBreaker else killSwitch)
  else ({ b with consecLosses := 0 }, killSwitch)

/-- `run_pre_submit_checks`, with a breaker: the order rate, the age of the book, the drawdown, the
price and the losses, up to the first that fails. -/
def runPreSubmitChecks (now bookAgeMs : ℤ) (realizedPnl price : ℚ) :
    Bool × MakerBreaker × KillSwitch :=
  let rate := b.toCircuitBreaker.checkOrderRate now
  let rated : MakerBreaker := { b with toCircuitBreaker := rate.2 }
  if rate.1 ≠ .ok then (false, rated, killSwitch)
  else if bookAgeMs > b.maxBookAgeMs then (false, rated, killSwitch.trigger .bookCorrupted)
  else
    let drawdown := rate.2.checkDrawdown killSwitch realizedPnl
    let drawn : MakerBreaker := { b with toCircuitBreaker := drawdown.2.1 }
    if drawdown.1 ≠ .ok then (false, drawn, drawdown.2.2)
    else
      let deviation := drawn.checkPriceDeviation drawdown.2.2 price
      if !deviation.1 then deviation
      else
        (decide (deviation.2.1.consecLosses < deviation.2.1.consecutiveLossCount), deviation.2)

/-- The checks come to the drawdown. -/
def ReachesDrawdown (now bookAgeMs : ℤ) : Prop :=
  (b.toCircuitBreaker.checkOrderRate now).1 = .ok ∧ bookAgeMs ≤ b.maxBookAgeMs

/-- The profit matters to the checks that come to the drawdown. -/
theorem runPreSubmitChecks_congr {b : MakerBreaker} {killSwitch : KillSwitch} {now bookAgeMs : ℤ}
    {pnl pnl' : ℚ} (price : ℚ) (h : b.ReachesDrawdown now bookAgeMs → pnl = pnl') :
    b.runPreSubmitChecks killSwitch now bookAgeMs pnl price =
      b.runPreSubmitChecks killSwitch now bookAgeMs pnl' price := by
  by_cases hrate : (b.toCircuitBreaker.checkOrderRate now).1 = .ok
  · by_cases hage : bookAgeMs ≤ b.maxBookAgeMs
    · rw [h ⟨hrate, hage⟩]
    · simp only [runPreSubmitChecks, hrate, not_le.mp hage, ne_eq, not_true_eq_false, if_false,
        if_true]
  · simp only [runPreSubmitChecks, ne_eq, hrate, not_false_eq_true, if_true]

end MakerBreaker

/-! ## The market maker with its breaker -/

/-- What a task of the market maker reads from outside: the clock of the breaker and the age of the
book too. Whether the checks pass is the breaker's to say. -/
structure MakerReading extends Reading where
  steadyNs : ℤ := 0
  bookAgeMs : ℤ := 0

/-- The market maker with its manager, the breaker that it may have, and the kill switch. -/
structure MakerState where
  quoting : Quoting
  breaker : Option MakerBreaker
  killSwitch : KillSwitch

/-- What happens in a run: the events of the market maker, where any update may come from the
connector, and between its calls a `submit` or a `drain_fills` of the manager. -/
inductive MakerEvent
  | onBookUpdate (killed : Bool)
  | proceed (r : MakerReading)
  | update (u : FillUpdate)
  | setAlphaSignal (signalBps riskScore : ℚ)
  | submit (order : Order) (now : ℤ) (connector : Order → ConnectorResult × List FillUpdate)
  | drainFills

/-- What is seen in a step: the order that the connector is given, the id that is canceled, and the
position afterwards. -/
structure MakerAnswer where
  submitted : Option Order := none
  canceled : Option ℕ := none
  position : ℚ
  deriving DecidableEq

namespace MakerState

variable (pow : ℚ → ℚ → ℚ) (s : MakerState)

/-- The profit that the snapshot reports, in what memory holds for it. -/
def realizedPnl (memory : PositionLedger.Snapshot) (r : MakerReading) : ℚ :=
  (s.quoting.manager.ledger.snapshot memory r.steadyNs).realizedPnl

/-- `run_pre_submit_checks`: they pass without a breaker. -/
def preSubmitChecks (memory : PositionLedger.Snapshot) (r : MakerReading) (price : ℚ) :
    Bool × Option MakerBreaker × KillSwitch :=
  match s.breaker with
  | none => (true, none, s.killSwitch)
  | some b =>
    let checked := b.runPreSubmitChecks s.killSwitch r.steadyNs r.bookAgeMs
      (s.realizedPnl memory r) price
    (checked.1, some checked.2.1, checked.2.2)

/-- The order that the next update in the queue is about, with the update. -/
def nextUpdate : Option (FillUpdate × Order) :=
  match s.quoting.manager.fillQueue.pop with
  | none => none
  | some (u, _) =>
    (s.quoting.manager.findOrder u.clientOrderId).map fun i =>
      (u, (s.quoting.manager.slots.getD i {}).order)

/-- The end of `on_fill`: the breaker is told the result of the leg that a stop has ended, against
the entry price before the fill. -/
def recordLeg : Option MakerBreaker × KillSwitch :=
  match s.breaker, s.nextUpdate with
  | some b, some (u, order) =>
    if u.newState = .filled ∧ order.clientOrderId = s.quoting.maker.stopId then
      let entryPrice := s.quoting.maker.entryPrice
      let recorded := b.recordLegResult s.killSwitch
        (if order.side = .ask then (u.fillPrice - entryPrice) * u.fillQty
        else (entryPrice - u.fillPrice) * u.fillQty)
      (some recorded.1, recorded.2)
    else (some b, s.killSwitch)
  | breaker, _ => (breaker, s.killSwitch)

/-- What is seen of a step to a state. -/
def seen (submitted : Option Order) (canceled : Option ℕ) : MakerState × MakerAnswer :=
  (s, ⟨submitted, canceled, s.quoting.position⟩)

/-- The order that `OrderManager::submit` hands to the connector, if a slot is free. -/
def handed (order : Order) (now : ℤ) : Option Order :=
  if s.quoting.manager.findFreeSlot.isSome then some (s.quoting.manager.numbered order now)
  else none

/-- The next task. -/
def proceed (memory : PositionLedger.Snapshot) (r : MakerReading) : MakerState × MakerAnswer :=
  match s.quoting.tasks with
  | .submit _ order :: _ =>
    let checked := s.preSubmitChecks memory r order.price
    seen ⟨s.quoting.step pow (.proceed { r.toReading with checksPass := checked.1 }), checked.2.1,
      checked.2.2⟩ (if checked.1 then s.handed order r.now else none) none
  | .drainFills :: _ =>
    seen ⟨s.quoting.step pow (.proceed r.toReading), s.recordLeg.1, s.recordLeg.2⟩ none none
  | .cancel side :: _ =>
    let id := s.quoting.maker.orderId (.quote side)
    seen { s with quoting := s.quoting.step pow (.proceed r.toReading) } none
      (if id = 0 then none else some id)
  | _ => seen { s with quoting := s.quoting.step pow (.proceed r.toReading) } none none

/-- One step, with what memory holds for a snapshot of the ledger. -/
def step (memory : PositionLedger.Snapshot) : MakerEvent → MakerState × MakerAnswer
  | .onBookUpdate killed =>
    seen { s with
      quoting := s.quoting.step pow (.onBookUpdate (killed || s.killSwitch.active)) } none none
  | .proceed r => s.proceed pow memory r
  | .update u =>
    seen { s with quoting := { s.quoting with manager := s.quoting.manager.receive u } } none none
  | .setAlphaSignal signalBps riskScore =>
    seen { s with quoting := s.quoting.step pow (.setAlphaSignal signalBps riskScore) } none none
  | .submit order now connector =>
    if s.quoting.tasks = [] then
      seen { s with
        quoting := { s.quoting with manager := (s.quoting.manager.submit order now connector).2 } }
        (s.handed order now) none
    else s.seen none none
  | .drainFills =>
    if s.quoting.tasks = [] then
      seen { s with quoting := { s.quoting with tasks := [.drainFills] } } none none
    else s.seen none none

end MakerState

/-! ## What the steps read -/

namespace NeuralAlphaMarketMaker

variable {mm mm' : NeuralAlphaMarketMaker}

/-- No stop is asked for: one is out, or there is no entry price. -/
def Unstopped (mm : NeuralAlphaMarketMaker) : Prop := mm.stopId ≠ 0 ∨ mm.entryPrice ≤ 0

/-- What `check_stop` reads agrees. -/
def SameStop (mm mm' : NeuralAlphaMarketMaker) (pos : ℚ) : Prop :=
  pos = 0 ∨ (mm.Unstopped ∧ mm'.Unstopped) ∨
    (mm.stopId = 0 ∧ mm'.stopId = 0 ∧ mm.entryPrice = mm'.entryPrice)

/-- No quote is out. -/
def Unquoted (mm : NeuralAlphaMarketMaker) : Prop := mm.bidId = 0 ∧ mm.askId = 0

/-- What the choice between quoting and quoting again reads agrees. -/
def SameQuoted (mm mm' : NeuralAlphaMarketMaker) : Prop :=
  (mm.Unquoted ∧ mm'.Unquoted) ∨
    (¬mm.Unquoted ∧ ¬mm'.Unquoted ∧ mm.lastQuotedMid = mm'.lastQuotedMid ∧
      mm.lastSignalBps = mm'.lastSignalBps)

/-- What `post_quotes` reads of the injected signal agrees, unless the signal is stale. -/
def SameSignal (mm mm' : NeuralAlphaMarketMaker) (sig : StampedAlphaSignal) (now : ℤ) : Prop :=
  mm.isStale sig now = true ∨ mm.injectedSignalSet = mm'.injectedSignalSet ∧
    (mm.injectedSignalSet = true → mm.injectedSignalBps = mm'.injectedSignalBps ∧
      mm.injectedRiskScore = mm'.injectedRiskScore)

theorem stopOrder_of_unstopped {pos : ℚ} (mid : ℚ) (h : pos = 0 ∨ mm.Unstopped) :
    mm.stopOrder pos mid = none := by
  rw [stopOrder, if_pos]
  exact h

theorem stopOrder_congr (hcfg : mm.cfg = mm'.cfg) {pos : ℚ} (h : mm.SameStop mm' pos) (mid : ℚ) :
    mm.stopOrder pos mid = mm'.stopOrder pos mid := by
  rcases h with hpos | ⟨hmm, hmm'⟩ | ⟨hstop, hstop', hentry⟩
  · rw [stopOrder_of_unstopped mid (.inl hpos), stopOrder_of_unstopped mid (.inl hpos)]
  · rw [stopOrder_of_unstopped mid (.inr hmm), stopOrder_of_unstopped mid (.inr hmm')]
  · simp only [stopOrder, stopLimitOrder, hcfg, hstop, hstop', hentry]

theorem requotes_congr (hcfg : mm.cfg = mm'.cfg) (hmid : mm.lastQuotedMid = mm'.lastQuotedMid)
    (hsignal : mm.lastSignalBps = mm'.lastSignalBps) : mm.requotes = mm'.requotes := by
  funext mid sig
  simp only [requotes, hcfg, hmid, hsignal]

theorem quotes_congr (hcfg : mm.cfg = mm'.cfg) {sig : StampedAlphaSignal} {now : ℤ}
    (h : mm.SameSignal mm' sig now) (pow : ℚ → ℚ → ℚ) (netPos mid : ℚ)
    (regime : StampedRegimeSignal) (nowRegime : ℤ) :
    quotes pow mm netPos mid sig regime now nowRegime =
      quotes pow mm' netPos mid sig regime now nowRegime := by
  have hstale : mm'.isStale sig now = mm.isStale sig now := by simp only [isStale, hcfg]
  have hsignal : (if mm.isStale sig now then 0 else
        if mm.injectedSignalSet then mm.injectedSignalBps else sig.signalBps) =
      if mm.isStale sig now then 0 else
        if mm'.injectedSignalSet then mm'.injectedSignalBps else sig.signalBps := by
    rcases h with hst | ⟨hset, hvalues⟩
    · rw [if_pos hst, if_pos hst]
    · cases hinjected : mm.injectedSignalSet with
      | true => rw [← hset, hinjected, (hvalues hinjected).1]
      | false => rw [← hset, hinjected]; rfl
  have hrisk : (if mm.isStale sig now then 0 else
        if mm.injectedSignalSet then mm.injectedRiskScore else sig.riskScore) =
      if mm.isStale sig now then 0 else
        if mm'.injectedSignalSet then mm'.injectedRiskScore else sig.riskScore := by
    rcases h with hst | ⟨hset, hvalues⟩
    · rw [if_pos hst, if_pos hst]
    · cases hinjected : mm.injectedSignalSet with
      | true => rw [← hset, hinjected, (hvalues hinjected).2]
      | false => rw [← hset, hinjected]; rfl
  simp only [quotes, hstale, hsignal, hrisk, hcfg]

end NeuralAlphaMarketMaker

namespace Quoting

variable {t t' : Quoting} {pow : ℚ → ℚ → ℚ} {r : Reading}

/-- The runs differ only in the members of the market maker. -/
structure SameRun (t t' : Quoting) : Prop where
  cfg : t.maker.cfg = t'.maker.cfg
  manager : t.manager = t'.manager
  tasks : t.tasks = t'.tasks

/-- What a task reads of the members agrees. -/
def TaskReads (t t' : Quoting) (r : Reading) : Task → Prop
  | .checkStop _ => t.maker.SameStop t'.maker t.position
  | .considerQuotes _ _ _ => t.maker.SameQuoted t'.maker
  | .cancel side => t.maker.orderId (.quote side) = t'.maker.orderId (.quote side)
  | .postQuotes _ sig _ => t.maker.SameSignal t'.maker sig r.now
  | _ => True

theorem SameRun.position (h : SameRun t t') : t.position = t'.position := by
  rw [Quoting.position, Quoting.position, h.manager]

/-- The callback is the only part of `apply_fill` that sees the members. -/
theorem SameRun.applyFill (h : SameRun t t') (now : ℤ) (u : FillUpdate) :
    SameRun (t.applyFill now u) (t'.applyFill now u) := by
  obtain ⟨hmanager, -, -, htasks, hcfg⟩ := position_applyFill_maker t now u
  obtain ⟨hmanager', -, -, htasks', hcfg'⟩ := position_applyFill_maker t' now u
  exact ⟨hcfg.trans (h.cfg.trans hcfg'.symm), by rw [hmanager, hmanager', h.manager],
    htasks.trans (h.tasks.trans htasks'.symm)⟩

theorem SameRun.send (h : SameRun t t') (role : OrderRole) (order : Order) :
    SameRun (t.send r role order) (t'.send r role order) := by
  have hzero : SameRun { t with maker := t.maker.setOrderId role 0 }
      { t' with maker := t'.maker.setOrderId role 0, manager := t.manager } :=
    ⟨by simp only [NeuralAlphaMarketMaker.cfg_setOrderId, h.cfg], rfl, h.tasks⟩
  rw [Quoting.send, Quoting.send, ← h.manager]
  by_cases hchecks : (!r.checksPass) = true
  · rw [if_pos hchecks, if_pos hchecks]
    exact hzero
  · rw [if_neg hchecks, if_neg hchecks]
    cases t.manager.beginSubmit order r.now with
    | none => exact hzero
    | some opened =>
      obtain ⟨i, m⟩ := opened
      exact ⟨h.cfg, rfl, congrArg (List.cons _) h.tasks⟩

/-- **One task** of two runs that agree on what it reads. -/
theorem SameRun.run (h : SameRun t t') {task : Task} (hreads : TaskReads t t' r task) :
    SameRun (t.run pow r task) (t'.run pow r task) := by
  cases task with
  | drainFills =>
    rw [Quoting.run, Quoting.run, ← h.manager]
    cases t.manager.fillQueue.pop with
    | none => exact h
    | some popped =>
      obtain ⟨u, q⟩ := popped
      have hpopped : SameRun { t with manager := { t.manager with fillQueue := q } }
          { t' with manager := { t.manager with fillQueue := q } } := ⟨h.cfg, rfl, h.tasks⟩
      obtain ⟨hcfg, hmanager, htasks⟩ := hpopped.applyFill r.now u
      exact ⟨hcfg, hmanager, by simp only [htasks]⟩
  | readMarket =>
    rw [Quoting.run, Quoting.run]
    split_ifs
    · exact h
    · exact ⟨h.cfg, by simp only [h.manager, h.cfg], by simp only [h.tasks]⟩
  | checkStop mid =>
    rw [Quoting.run, Quoting.run, ← h.position,
      NeuralAlphaMarketMaker.stopOrder_congr h.cfg hreads mid]
    cases t'.maker.stopOrder t.position mid with
    | none => exact h
    | some order => exact ⟨h.cfg, h.manager, by simp only [h.tasks]⟩
  | considerQuotes mid sig regime =>
    rw [Quoting.run, Quoting.run]
    unfold TaskReads NeuralAlphaMarketMaker.SameQuoted NeuralAlphaMarketMaker.Unquoted at hreads
    rcases hreads with ⟨hquotes, hquotes'⟩ | ⟨hquotes, hquotes', hmid, hsignal⟩
    · rw [if_pos hquotes, if_pos hquotes']
      exact ⟨h.cfg, h.manager, by simp only [h.tasks]⟩
    · rw [if_neg hquotes, if_neg hquotes',
        NeuralAlphaMarketMaker.requotes_congr h.cfg hmid hsignal]
      split_ifs
      · exact ⟨h.cfg, h.manager, by simp only [h.tasks]⟩
      · exact h
  | cancel side =>
    rw [Quoting.run, Quoting.run, Quoting.cancel, Quoting.cancel]
    simp only [TaskReads] at hreads
    simp only [hreads]
    split_ifs
    · exact h
    · exact ⟨by simp only [NeuralAlphaMarketMaker.cfg_setOrderId, h.cfg], h.manager, h.tasks⟩
    · exact ⟨by simp only [NeuralAlphaMarketMaker.cfg_setOrderId, h.cfg], h.manager, h.tasks⟩
  | postQuotes mid sig regime =>
    refine ⟨h.cfg, h.manager, ?_⟩
    simp only [Quoting.run, Quoting.postQuotes, ← h.position,
      NeuralAlphaMarketMaker.quotes_congr h.cfg hreads, NeuralAlphaMarketMaker.limitOrder, h.cfg,
      h.tasks]
  | submit role order => exact h.send role order
  | answered role i order result =>
    exact ⟨by simp only [Quoting.run, NeuralAlphaMarketMaker.cfg_setOrderId, h.cfg],
      by simp only [Quoting.run, h.manager], h.tasks⟩
  | rememberQuotes mid signalBps => exact ⟨h.cfg, h.manager, h.tasks⟩

end Quoting

/-! ## Two runs -/

namespace MakerState

variable {pow : ℚ → ℚ → ℚ} {s t : MakerState} {m n : PositionLedger.Snapshot} {e : MakerEvent}

/-- The runs differ only in the members of the market maker. -/
structure Alike (s t : MakerState) : Prop where
  quoting : s.quoting.SameRun t.quoting
  breaker : s.breaker = t.breaker
  killSwitch : s.killSwitch = t.killSwitch

/-- What a breaker is told of a leg agrees: whether the order was the stop, and if it was, the entry
price. -/
def LegReads (mm mm' : NeuralAlphaMarketMaker) : Option (FillUpdate × Order) → Prop
  | none => True
  | some (u, order) => u.newState = .filled →
    (order.clientOrderId = mm.stopId ↔ order.clientOrderId = mm'.stopId) ∧
      (order.clientOrderId = mm.stopId → mm.entryPrice = mm'.entryPrice)

/-- The profit in the memories of the snapshots agrees, where the checks of a breaker come to the
drawdown. -/
def ProfitReads (m n : PositionLedger.Snapshot) (r : MakerReading) : Option MakerBreaker → Prop
  | none => True
  | some b => b.ReachesDrawdown r.steadyNs r.bookAgeMs → m.realizedPnl = n.realizedPnl

/-- What the next task reads agrees. -/
def HeadReads (s t : MakerState) (m n : PositionLedger.Snapshot) (r : MakerReading) :
    List Task → Prop
  | [] => True
  | .submit _ _ :: _ => ProfitReads m n r s.breaker
  | .drainFills :: _ =>
    s.breaker.isSome = true → LegReads s.quoting.maker t.quoting.maker s.nextUpdate
  | task :: _ => Quoting.TaskReads s.quoting t.quoting r.toReading task

/-- **What a step reads agrees.** -/
def SameReads (s t : MakerState) (m n : PositionLedger.Snapshot) : MakerEvent → Prop
  | .proceed r => HeadReads s t m n r s.quoting.tasks
  | _ => True

instance (mm mm' : NeuralAlphaMarketMaker) :
    (next : Option (FillUpdate × Order)) → Decidable (LegReads mm mm' next)
  | none => isTrue trivial
  | some _ => inferInstanceAs (Decidable (_ → _ ∧ _))

instance (m n : PositionLedger.Snapshot) (r : MakerReading) :
    (breaker : Option MakerBreaker) → Decidable (ProfitReads m n r breaker)
  | none => isTrue trivial
  | some _ => inferInstanceAs (Decidable (_ ∧ _ → _))

instance (s t : MakerState) (m n : PositionLedger.Snapshot) (r : MakerReading) :
    (tasks : List Task) → Decidable (HeadReads s t m n r tasks)
  | [] => isTrue trivial
  | .submit _ _ :: _ => inferInstanceAs (Decidable (ProfitReads m n r s.breaker))
  | .drainFills :: _ => inferInstanceAs (Decidable (_ → LegReads _ _ _))
  | .readMarket :: _ => isTrue trivial
  | .checkStop _ :: _ => inferInstanceAs (Decidable (_ ∨ (_ ∨ _) ∧ (_ ∨ _) ∨ _ ∧ _ ∧ _))
  | .considerQuotes _ _ _ :: _ =>
    inferInstanceAs (Decidable ((_ ∧ _) ∧ (_ ∧ _) ∨ ¬(_ ∧ _) ∧ ¬(_ ∧ _) ∧ _ ∧ _))
  | .cancel _ :: _ => inferInstanceAs (Decidable (_ = _))
  | .postQuotes _ _ _ :: _ => inferInstanceAs (Decidable (_ ∨ _ ∧ (_ → _ ∧ _)))
  | .answered _ _ _ _ :: _ => isTrue trivial
  | .rememberQuotes _ _ :: _ => isTrue trivial

instance (s t : MakerState) (m n : PositionLedger.Snapshot) :
    (e : MakerEvent) → Decidable (SameReads s t m n e)
  | .proceed r => inferInstanceAs (Decidable (HeadReads s t m n r s.quoting.tasks))
  | .onBookUpdate _ => isTrue trivial
  | .update _ => isTrue trivial
  | .setAlphaSignal _ _ => isTrue trivial
  | .submit _ _ _ => isTrue trivial
  | .drainFills => isTrue trivial

/-- The profit of a snapshot is what memory holds, and the profits of the venues. -/
theorem realizedPnl_foldl_addVenue (now : ℤ) (venues : List VenuePosition)
    {out out' : PositionLedger.Snapshot} (h : out.realizedPnl = out'.realizedPnl) :
    (venues.foldl (PositionLedger.addVenue now) out).realizedPnl =
      (venues.foldl (PositionLedger.addVenue now) out').realizedPnl := by
  induction venues generalizing out out' with
  | nil => exact h
  | cons v venues ih =>
    refine ih ?_
    unfold PositionLedger.addVenue
    by_cases hactive : (!v.active) = true
    · rw [if_pos hactive, if_pos hactive]
      exact h
    · rw [if_neg hactive, if_neg hactive]
      exact congrArg (· + v.realizedPnl) h

theorem Alike.preSubmitChecks (h : Alike s t) {r : MakerReading}
    (hprofit : ProfitReads m n r s.breaker)
    (price : ℚ) : s.preSubmitChecks m r price = t.preSubmitChecks n r price := by
  unfold MakerState.preSubmitChecks
  rw [← h.breaker, ← h.killSwitch]
  cases hb : s.breaker with
  | none => rfl
  | some b =>
    have hpnl : b.ReachesDrawdown r.steadyNs r.bookAgeMs →
        s.realizedPnl m r = t.realizedPnl n r := by
      intro hreaches
      simp only [realizedPnl, PositionLedger.snapshot, h.quoting.manager]
      rw [hb] at hprofit
      exact realizedPnl_foldl_addVenue _ _ (hprofit hreaches)
    simp only [MakerBreaker.runPreSubmitChecks_congr price hpnl]

theorem Alike.nextUpdate (h : Alike s t) : s.nextUpdate = t.nextUpdate := by
  unfold MakerState.nextUpdate
  rw [h.quoting.manager]

theorem Alike.recordLeg (h : Alike s t)
    (hleg : s.breaker.isSome = true → LegReads s.quoting.maker t.quoting.maker s.nextUpdate) :
    s.recordLeg = t.recordLeg := by
  unfold MakerState.recordLeg
  rw [← h.nextUpdate, ← h.breaker, ← h.killSwitch]
  cases hb : s.breaker with
  | none => rfl
  | some b =>
    cases hnext : s.nextUpdate with
    | none => rfl
    | some next =>
      obtain ⟨u, order⟩ := next
      simp only
      by_cases hfilled : u.newState = .filled
      · rw [hb, hnext] at hleg
        obtain ⟨hiff, hentry⟩ := hleg rfl hfilled
        by_cases hstop : order.clientOrderId = s.quoting.maker.stopId
        · have hs : u.newState = .filled ∧ order.clientOrderId = s.quoting.maker.stopId :=
            ⟨hfilled, hstop⟩
          have ht : u.newState = .filled ∧ order.clientOrderId = t.quoting.maker.stopId :=
            ⟨hfilled, hiff.mp hstop⟩
          rw [if_pos hs, if_pos ht, hentry hstop]
        · rw [if_neg fun h => hstop h.2, if_neg fun h => hstop (hiff.mpr h.2)]
      · rw [if_neg fun h => hfilled h.1, if_neg fun h => hfilled h.1]

theorem Alike.handed (h : Alike s t) : s.handed = t.handed := by
  funext order now
  simp only [MakerState.handed, h.quoting.manager]

theorem seen_congr {q q' : Quoting} (h : q.SameRun q') (breaker : Option MakerBreaker)
    (killSwitch : KillSwitch) (submitted : Option Order) (canceled : Option ℕ) :
    Alike (seen ⟨q, breaker, killSwitch⟩ submitted canceled).1
        (seen ⟨q', breaker, killSwitch⟩ submitted canceled).1 ∧
      (seen ⟨q, breaker, killSwitch⟩ submitted canceled).2 =
        (seen ⟨q', breaker, killSwitch⟩ submitted canceled).2 :=
  ⟨⟨h, rfl, rfl⟩, by simp only [MakerState.seen, h.position]⟩

/-- The next task, taken from the list. -/
theorem next_congr {q q' : Quoting} (h : q.SameRun q') {r : Reading} {task : Task}
    {rest : List Task} (htasks : q.tasks = task :: rest) (hreads : Quoting.TaskReads q q' r task) :
    Quoting.SameRun (q.step pow (.proceed r)) (q'.step pow (.proceed r)) := by
  have htasks' : q'.tasks = task :: rest := h.tasks ▸ htasks
  have hrest : Quoting.SameRun { q with tasks := rest } { q' with tasks := rest } :=
    ⟨h.cfg, h.manager, rfl⟩
  simp only [Quoting.step, htasks, htasks']
  refine hrest.run ?_
  cases task <;> exact hreads

theorem Alike.proceed (h : Alike s t) {r : MakerReading} (hreads : SameReads s t m n (.proceed r)) :
    Alike (s.proceed pow m r).1 (t.proceed pow n r).1 ∧
      (s.proceed pow m r).2 = (t.proceed pow n r).2 := by
  have hchecks : ∀ order : Order, ProfitReads m n r s.breaker →
      s.preSubmitChecks m r order.price = t.preSubmitChecks n r order.price :=
    fun order hprofit => h.preSubmitChecks hprofit order.price
  have hrecord := h.recordLeg
  have hhanded := h.handed
  obtain ⟨q, breaker, killSwitch⟩ := s
  obtain ⟨q', breaker', killSwitch'⟩ := t
  obtain ⟨hq, hbreaker, hkill⟩ := h
  simp only at hq hbreaker hkill
  subst hbreaker hkill
  have htasks : q.tasks = q'.tasks := hq.tasks
  unfold MakerState.proceed
  unfold SameReads at hreads
  simp only [← htasks]
  simp only at hreads
  cases hs : q.tasks with
  | nil =>
    have hidle : Quoting.SameRun (q.step pow (.proceed r.toReading))
        (q'.step pow (.proceed r.toReading)) := by
      simp only [Quoting.step, hs, ← htasks]
      exact hq
    exact seen_congr hidle _ _ _ _
  | cons task rest =>
    simp only [hs] at hreads
    cases task with
    | submit role order =>
      simp only [← hchecks order hreads, ← hhanded]
      exact seen_congr (next_congr hq hs trivial) _ _ _ _
    | drainFills =>
      simp only [← hrecord hreads]
      exact seen_congr (next_congr hq hs trivial) _ _ _ _
    | cancel side =>
      simp only [← show q.maker.orderId (.quote side) = _ from hreads]
      exact seen_congr (next_congr hq hs hreads) _ _ _ _
    | readMarket | checkStop _ | considerQuotes _ _ _ | postQuotes _ _ _ | answered _ _ _ _
      | rememberQuotes _ _ =>
      exact seen_congr (next_congr hq hs hreads) _ _ _ _

/-- **One step** of two runs that agree on what it reads. -/
theorem step_congr (h : Alike s t) (hreads : SameReads s t m n e) :
    Alike (s.step pow m e).1 (t.step pow n e).1 ∧ (s.step pow m e).2 = (t.step pow n e).2 := by
  have hhanded := h.handed
  have hproceed := fun r => @Alike.proceed pow s t m n h r
  obtain ⟨q, breaker, killSwitch⟩ := s
  obtain ⟨q', breaker', killSwitch'⟩ := t
  obtain ⟨⟨hcfg, hmanager, htasks⟩, hbreaker, hkill⟩ := h
  simp only at hcfg hmanager htasks hbreaker hkill
  subst hbreaker hkill
  cases e with
  | onBookUpdate killed =>
    refine seen_congr ?_ _ _ _ _
    simp only [Quoting.step, htasks]
    split_ifs
    · exact ⟨hcfg, hmanager, rfl⟩
    · exact ⟨hcfg, hmanager, htasks⟩
  | proceed r => exact hproceed r hreads
  | update u =>
    refine seen_congr ?_ _ _ _ _
    exact ⟨hcfg, congrArg (OrderManager.receive · u) hmanager, htasks⟩
  | setAlphaSignal signalBps riskScore =>
    refine seen_congr ?_ _ _ _ _
    exact ⟨hcfg, hmanager, htasks⟩
  | submit order now connector =>
    simp only [step, ← htasks, ← hhanded]
    split_ifs
    · refine seen_congr ?_ _ _ _ _
      exact ⟨hcfg, by simp only [hmanager], rfl⟩
    · exact seen_congr ⟨hcfg, hmanager, htasks⟩ _ _ _ _
  | drainFills =>
    simp only [step, ← htasks]
    split_ifs
    · refine seen_congr ?_ _ _ _ _
      exact ⟨hcfg, hmanager, rfl⟩
    · exact seen_congr ⟨hcfg, hmanager, htasks⟩ _ _ _ _

end MakerState

/-! ## A new market maker -/

/-- What memory holds of the members that no constructor sets. -/
structure MakerMembers where
  bidId : ℕ
  askId : ℕ
  stopId : ℕ
  lastQuotedMid : ℚ
  lastSignalBps : ℚ
  entryPrice : ℚ
  injectedSignalBps : ℚ
  injectedRiskScore : ℚ
  injectedSignalSet : Bool
  position : ℚ

namespace MakerState

/-- A new market maker on a new manager, as their members are found. -/
def found (cfg : MarketMakerConfig) (breaker : Option MakerBreaker) (killSwitch : KillSwitch)
    (f : MakerMembers) : MakerState where
  quoting :=
    { maker :=
        { cfg, bidId := f.bidId, askId := f.askId, stopId := f.stopId
          lastQuotedMid := f.lastQuotedMid, lastSignalBps := f.lastSignalBps
          entryPrice := f.entryPrice, injectedSignalBps := f.injectedSignalBps
          injectedRiskScore := f.injectedRiskScore, injectedSignalSet := f.injectedSignalSet }
      manager := .new f.position
      tasks := []
      working := []
      sideOf := fun _ => .bid }
  breaker
  killSwitch

/-- **Quoting on two memories** with one position, which agree at each step on what it reads,
submits and cancels the same orders and reports the same positions. -/
theorem outputs_congr_quoting (pow : ℚ → ℚ → ℚ) (cfg : MarketMakerConfig)
    (breaker : Option MakerBreaker) (killSwitch : KillSwitch) {f g : MakerMembers}
    (hposition : f.position = g.position)
    {events : List (PositionLedger.Snapshot × PositionLedger.Snapshot × MakerEvent)}
    (h : AllSteps (bothStep (step pow)) (fun p x => SameReads p.1 p.2 x.1 x.2.1 x.2.2)
      (found cfg breaker killSwitch f, found cfg breaker killSwitch g) events) :
    outputs (step pow) (found cfg breaker killSwitch f) (firstRun events) =
      outputs (step pow) (found cfg breaker killSwitch g) (secondRun events) :=
  @outputs_congr_both _ _ _ _ (step pow) Alike SameReads (fun _ _ _ _ _ => step_congr) events _ _
    ⟨⟨rfl, by simp only [found, hposition], rfl⟩, rfl, rfl⟩ h

/-! ## An id that is found -/

/-- Members that are found zero. -/
def zeroMembers : MakerMembers := ⟨0, 0, 0, 0, 0, 0, 0, 0, false, 0⟩

/-- A call of `on_book_update` with the middle at 100, in ten tasks. -/
def quotingCall : List MakerEvent :=
  .onBookUpdate false :: List.replicate 10 (.proceed { book := Quoting.bookAround 100 })

/-- The orders that a market maker of one unit submits in a call, as its members are found. -/
def submittedFrom (f : MakerMembers) : List Order :=
  (outputs (step fun _ _ => 1) (found Quoting.oneUnit.cfg none {} f)
    (quotingCall.map fun e => (default, e))).filterMap (·.submitted)

/-- **The id in memory** decides on quoting: where there is one, no quote is posted. -/
theorem quotingCall_differs :
    (submittedFrom zeroMembers).map (·.side) = [.bid, .ask] ∧
      submittedFrom { zeroMembers with bidId := 7, lastQuotedMid := 100 } = [] := by
  decide +kernel

/-- The last quotes are not read as long as there are none, nor an injected signal as long as the
signal is stale. -/
theorem outputs_congr_quotingCall :
    outputs (step fun _ _ => 1) (found Quoting.oneUnit.cfg none {} zeroMembers)
        (quotingCall.map fun e => (default, e)) =
      outputs (step fun _ _ => 1) (found Quoting.oneUnit.cfg none {}
        { zeroMembers with lastQuotedMid := 100, entryPrice := 7, injectedSignalSet := true })
        (quotingCall.map fun e => (default, e)) := by
  have h := @outputs_congr_quoting (fun _ _ => 1) Quoting.oneUnit.cfg none {} zeroMembers
    { zeroMembers with lastQuotedMid := 100, entryPrice := 7, injectedSignalSet := true } rfl
    (quotingCall.map fun e => (default, default, e)) (by decide +kernel)
  simpa [firstRun, secondRun, Function.comp_def] using h

end MakerState

end TradingInfrastructure
