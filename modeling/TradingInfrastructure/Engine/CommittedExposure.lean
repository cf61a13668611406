import TradingInfrastructure.Engine.SubmitDecision
import TradingInfrastructure.Foundations.Runs

/-!
# The exposure that is committed

An order is added to the totals of the risk controls before the last check and before its connector
is asked, and nothing takes it back. So the totals are those of the orders that were accepted
exactly when each order that is committed also passes the drawdown check and is accepted by its
connector (`exposed_run_iff`).
-/

namespace TradingInfrastructure

open GlobalRiskControls (Sound venueIndex maxSymbols)

namespace GlobalRiskControls

variable {r r' : GlobalRiskControls} {exchange : Exchange} {symbol : CString} {x : ℚ}

/-- The totals with one more order of the given notional, under its venue and its symbol. -/
def Adds (r r' : GlobalRiskControls) (exchange : Exchange) (symbol : CString) (x : ℚ) : Prop :=
  ∃ v i s, venueIndex exchange = some v ∧ r'.symbolStates[i]? = some s ∧ s.isFor symbol = true ∧
    r'.totals = (r.addNotional v i x).totals

theorem totals_breach (r : GlobalRiskControls) : r.breach.totals = r.totals := by
  obtain ⟨k, hk⟩ := r.breach_eq
  rw [hk]
  rfl

/-- An order of some notional shows in the totals. -/
theorem Adds.totals_ne (h : r.Adds r' exchange symbol x) (hx : x ≠ 0) : r'.totals ≠ r.totals := by
  obtain ⟨v, i, s, -, -, -, htotals⟩ := h
  intro hsame
  have hgross : r.grossNotional + |x| = r.grossNotional :=
    congrArg Prod.fst (htotals.symm.trans hsame)
  exact hx (abs_eq_zero.mp (by linarith))

/-- A commit that returns OK adds the order. -/
theorem adds_of_commitOrder (hlength : r.symbolStates.length = maxSymbols)
    (hlen : symbol.length < 16)
    (h : r.commitOrder exchange (some symbol) x = .ok (.ok, r')) :
    x ≠ 0 ∧ r.Adds r' exchange symbol x := by
  rcases commitOrder_cases h with
    ⟨hne, -⟩ | ⟨-, hx, v, i, hv, ⟨s, hfind, hs, -, rfl⟩ | ⟨-, rfl, hlt, rfl⟩⟩
  · exact absurd rfl hne
  · obtain ⟨s', hs', hfor, -⟩ := findSymbol_eq_some hfind
    obtain rfl : s = s' := Option.some.inj (hs.symm.trans hs')
    refine ⟨hx, v, i,
      { s with grossNotional := s.grossNotional + |x|, netNotional := s.netNotional + x },
      hv, ?_, hfor, rfl⟩
    rw [addNotional, List.getElem?_modify, hs]
    simp
  · -- the state that is taken has the symbol now, and its totals are those it had
    obtain ⟨s, hs⟩ : ∃ s, r.symbolStates[r.nextSlot]? = some s :=
      ⟨_, List.getElem?_eq_getElem (hlength ▸ hlt)⟩
    refine ⟨hx, v, r.nextSlot,
      { active := true, symbol := copySymbol symbol, grossNotional := s.grossNotional + |x|
        netNotional := s.netNotional + x }, hv, ?_, ?_, ?_⟩
    · rw [addNotional, List.getElem?_modify, List.getElem?_modify, hs]
      simp
    · simp only [SymbolState.isFor, copySymbol, strncpyBuf_of_length_lt hlen, strncmpEq_refl,
        Bool.and_self]
    · have hlist : ∀ f g : SymbolState → SymbolState,
          (∀ a, ((f (g a)).grossNotional, (f (g a)).netNotional) =
            ((f a).grossNotional, (f a).netNotional)) →
          ((r.symbolStates.modify r.nextSlot g).modify r.nextSlot f).map
              (fun s => (s.grossNotional, s.netNotional)) =
            (r.symbolStates.modify r.nextSlot f).map fun s => (s.grossNotional, s.netNotional) := by
        intro f g hfg
        refine List.ext_getElem? fun j => ?_
        simp only [List.getElem?_map, List.getElem?_modify]
        by_cases hj : r.nextSlot = j
        · cases r.symbolStates[j]? <;> simp [hj, hfg]
        · simp [hj]
      simp only [totals, addNotional]
      rw [hlist]
      exact fun a => rfl

/-- Without a funding rate the gate does not scale. -/
theorem scaled_of_noFunding (cfg : FuturesRiskGateConfig) (symbol : Option CString) (x : ℚ)
    {ctx : FuturesRiskContext} (h : ctx.fundingRateBps = 0) :
    (cfg.checkFuturesGate symbol x ctx).2 = x := by
  have hscale : cfg.scale x (|ctx.fundingRateBps| * (ctx.hoursToFunding / 8)) = x := by
    unfold FuturesRiskGateConfig.scale
    rw [h, abs_zero, zero_mul, if_neg]
    rintro ⟨hstart, -, hcost⟩
    exact absurd hcost hstart.le.not_gt
  unfold FuturesRiskGateConfig.checkFuturesGate
  simp only [hscale]
  split_ifs <;> rfl

theorem scaled_of_checkFuturesOrder {symbol : Option CString} {ctx : FuturesRiskContext}
    {result : GlobalRiskCheckResult} {scaled : ℚ} (hfunding : ctx.fundingRateBps = 0)
    (h : r.checkFuturesOrder exchange symbol x ctx = .ok (result, scaled)) : scaled = x := by
  have hgate := scaled_of_noFunding r.futuresCfg symbol x hfunding
  unfold checkFuturesOrder at h
  split at h
  · next scaled' heq =>
    rw [heq] at hgate
    cases hcheck : r.checkOrder exchange symbol scaled' with
    | error fault =>
      rw [hcheck] at h
      cases h
    | ok check =>
      rw [hcheck] at h
      exact (Prod.mk.inj (Except.ok.inj h)).2.symm.trans hgate
  · next heq =>
    rw [heq] at hgate
    exact (Prod.mk.inj (Except.ok.inj h)).2.symm.trans hgate

end GlobalRiskControls

/-! ## The commit of a child order -/

namespace EngineOptions

variable (o : EngineOptions) {call : DecisionCall} {r : GlobalRiskControls} {child : ChildOrder}
  {env : ChildEnvironment}

/-- The symbol of the orders. -/
def orderSymbol : CString := (copySymbol o.symbol).chars

/-- The check that a commit makes: `check_order` or `check_futures_order`. -/
def check (call : DecisionCall) (risk : GlobalRiskControls) (child : ChildOrder)
    (env : ChildEnvironment) : Except RiskFault GlobalRiskCheckResult :=
  if o.futuresOnlyMode then
    (risk.checkFuturesOrder child.exchange (some o.orderSymbol) (signedNotional call.side child)
      (futuresContext call risk child env)).map Prod.fst
  else risk.checkOrder child.exchange (some o.orderSymbol) (signedNotional call.side child)

/-- **The commit of a child order** has a result, which is that of the check, and when it is OK the
notional of the order is added as it is. -/
theorem commit_spec (h : Sound {o.orderSymbol} r) :
    ∃ result r', o.check call r child env = .ok result ∧
      o.commit call r child env = .ok (result, r') ∧
      Sound {o.orderSymbol} r' ∧ (result ≠ .ok → r'.totals = r.totals) ∧
      (result = .ok → signedNotional call.side child ≠ 0 ∧
        r.Adds r' child.exchange o.orderSymbol (signedNotional call.side child)) := by
  have hcard : ({o.orderSymbol} : Finset CString).card ≤ maxSymbols := by
    rw [Finset.card_singleton]
    decide
  have hlen : o.orderSymbol.length < 16 := (copySymbol o.symbol).length_lt
  have hsymbol : ∀ s, some o.orderSymbol = some s → s.length < 16 ∧
    s ∈ ({o.orderSymbol} : Finset _) := by
    rintro s hs
    rw [← Option.some.inj hs]
    exact ⟨hlen, Finset.mem_singleton_self _⟩
  have hadds : ∀ {result r'},
      r.commitOrder child.exchange (some o.orderSymbol) (signedNotional call.side child) =
        .ok (result, r') → result = .ok → signedNotional call.side child ≠ 0 ∧
          r.Adds r' child.exchange o.orderSymbol (signedNotional call.side child) := by
    rintro result r' hcommit rfl
    exact GlobalRiskControls.adds_of_commitOrder h.tabled.length_eq hlen hcommit
  have hkept : ∀ {result r'}, GlobalRiskControls.Keeps {o.orderSymbol} r result r' →
      result ≠ .ok → r'.totals = r.totals := by
    rintro result r' hkeeps hne
    rw [hkeeps.2 hne, GlobalRiskControls.totals_breach]
  cases hmode : o.futuresOnlyMode with
  | true =>
    obtain ⟨result, scaled, r', hcheck, hcommit, hkeeps, hok⟩ :=
      h.commitFuturesOrder hcard child.exchange
      hsymbol (signedNotional call.side child) (futuresContext call r child env)
    have hscaled : scaled = signedNotional call.side child :=
      GlobalRiskControls.scaled_of_checkFuturesOrder rfl hcheck
    subst hscaled
    refine ⟨result, r', ?_, ?_, hkeeps.1, hkept hkeeps, fun hres => hadds (hok hres) hres⟩
    · simp only [check, hmode, if_true, hcheck]
      rfl
    · unfold orderSymbol at hcommit
      simp only [commit, hmode, if_true, hcommit]
      rfl
  | false =>
    obtain ⟨result, r', hcheck, hcommit, hkeeps⟩ := h.commitOrder hcard child.exchange hsymbol
      (signedNotional call.side child)
    refine ⟨result, r', ?_, ?_, hkeeps.1, hkept hkeeps, hadds hcommit⟩
    · simpa only [check, hmode, Bool.false_eq_true, if_false] using hcheck
    · simp only [commit, hmode, Bool.false_eq_true, if_false]
      exact hcommit

end EngineOptions

/-! ## A child order -/

namespace SubmitEngine

variable (o : EngineOptions) (call : DecisionCall) (e : SubmitEngine) (child : ChildOrder)
  (env : ChildEnvironment)

/-- The child order is committed: it passes everything up to the risk controls, and them too. -/
structure Commits : Prop where
  running : (e.observe env).risk.killSwitch.active = false
  rate : (e.breaker.checkOrderRate env.nowNs).1 = .ok
  price : 0 < child.limitPrice
  affordable : o.affordable call child = true
  check : o.check call (e.observe env).risk child env = .ok .ok

/-- **The exposure is that of the orders that are accepted**: an order that a connector accepts is
added with the notional of the quantity submitted, and any other child leaves the totals as they
were. -/
def Exposed (e : SubmitEngine) (child : ChildOrder × ChildEnvironment) : Prop :=
  e.stopped = false →
    match (e.processChild o call child.1 child.2).2 with
    | .submitted order .ok =>
      e.risk.Adds (e.processChild o call child.1 child.2).1.risk child.1.exchange order.symbol.chars
        (order.quantity * order.price * order.side.sign)
    | _ => (e.processChild o call child.1 child.2).1.risk.totals = e.risk.totals

/-- **An order that is committed is accepted**: the drawdown is within its limit, and the connector
returns OK. -/
def Delivered (e : SubmitEngine) (child : ChildOrder × ChildEnvironment) : Prop :=
  e.stopped = false → e.Commits o call child.1 child.2 →
    e.breaker.cfg.maxDrawdownUsd < call.accounting.globalMetrics.netPnl ∧
      o.submitResult child.1 child.2 (o.orderOf call child.1 child.2 e.nextId) = .ok

variable {o call e child env}

theorem observe_eq (e : SubmitEngine) (env : ChildEnvironment) :
    ∃ k, e.observe env = { e with risk := { e.risk with killSwitch := k } } := by
  unfold observe
  cases env.killed with
  | none => exact ⟨e.risk.killSwitch, rfl⟩
  | some reason => exact ⟨_, rfl⟩

/-- The drawdown and the connector of an order that is committed. -/
theorem deliver_spec (order : Order) :
    let after := e.deliver o call child env order
    (∃ k, after.1.risk = { e.risk with killSwitch := k }) ∧
      ((call.accounting.globalMetrics.netPnl ≤ e.breaker.cfg.maxDrawdownUsd ∧ after.2 = .halted) ∨
        (e.breaker.cfg.maxDrawdownUsd < call.accounting.globalMetrics.netPnl ∧
          after.2 = .submitted order (o.submitResult child env order))) := by
  intro after
  refine ⟨?_, ?_⟩
  · simp only [after, deliver]
    split_ifs <;> exact ⟨_, rfl⟩
  · by_cases hpnl : e.breaker.cfg.maxDrawdownUsd < call.accounting.globalMetrics.netPnl
    · refine Or.inr ⟨hpnl, ?_⟩
      have hcheck := (@CircuitBreaker.checkDrawdown_ok_iff e.breaker e.risk.killSwitch _).mpr hpnl
      simp only [after, deliver, hcheck, ne_eq, not_true_eq_false, if_false]
    · refine Or.inl ⟨not_lt.mp hpnl, ?_⟩
      have hcheck := mt (@CircuitBreaker.checkDrawdown_ok_iff e.breaker e.risk.killSwitch _).mp hpnl
      simp only [after, deliver, ne_eq, hcheck, not_false_eq_true, if_true, halt]

/-- What becomes of a child order from the capital check on. -/
theorem commitAndDeliver_cases (h : Sound {o.orderSymbol} e.risk) :
    let after := e.commitAndDeliver o call child env
    let committed := o.affordable call child = true ∧ o.check call e.risk child env = .ok .ok
    Sound {o.orderSymbol} after.1.risk ∧
      ((¬ committed ∧ after.2 = .skipped ∧ after.1.risk.totals = e.risk.totals) ∨
        (committed ∧ EngineOptions.signedNotional call.side child ≠ 0 ∧
          e.risk.Adds after.1.risk child.exchange o.orderSymbol
            (EngineOptions.signedNotional call.side child) ∧
          ((call.accounting.globalMetrics.netPnl ≤ e.breaker.cfg.maxDrawdownUsd ∧
            after.2 = .halted) ∨
            (e.breaker.cfg.maxDrawdownUsd < call.accounting.globalMetrics.netPnl ∧
              after.2 = .submitted (o.orderOf call child env e.nextId)
                (o.submitResult child env (o.orderOf call child env e.nextId)))))) := by
  intro after committed
  obtain ⟨result, r', hcheck, hcommit, hsound, hkept, hadds⟩ :=
    @EngineOptions.commit_spec o call e.risk child env h
  cases haffordable : o.affordable call child with
  | false =>
    have hafter : after = ({ e with nextId := e.nextId + 1 }, .skipped) := by
      simp only [after, commitAndDeliver, haffordable, Bool.not_false, if_true]
    rw [hafter]
    exact ⟨h, Or.inl ⟨fun hc => Bool.false_ne_true (haffordable.symm.trans hc.1), rfl, rfl⟩⟩
  | true =>
    by_cases hok : result = .ok
    · subst hok
      let e' : SubmitEngine := { e with nextId := e.nextId + 1, risk := r' }
      have hafter : after = e'.deliver o call child env (o.orderOf call child env e.nextId) := by
        simp only [after, commitAndDeliver, haffordable, Bool.not_true,
          Bool.false_eq_true, if_false,
          hcommit, ne_eq, not_true_eq_false, e']
      obtain ⟨⟨k, hk⟩, houtcome⟩ :=
        @deliver_spec o call e' child env (o.orderOf call child env e.nextId)
      obtain ⟨hx, v, i, s, hv, hs, hfor, htotals⟩ := hadds rfl
      rw [hafter, hk]
      exact ⟨hsound.withKillSwitch k, Or.inr ⟨⟨haffordable, hcheck⟩, hx,
        ⟨v, i, s, hv, hs, hfor, htotals⟩, houtcome⟩⟩
    · have hafter : after = ({ e with nextId := e.nextId + 1, risk := r' }, .skipped) := by
        simp only [after, commitAndDeliver, haffordable, Bool.not_true,
          Bool.false_eq_true, if_false,
          hcommit, ne_eq, hok, not_false_eq_true, if_true]
      rw [hafter]
      refine ⟨hsound, Or.inl ⟨fun hc => hok ?_, rfl, hkept hok⟩⟩
      exact Except.ok.inj (hcheck.symm.trans hc.2)

theorem cfg_checkOrderRate (b : CircuitBreaker) (now : ℤ) :
    (b.checkOrderRate now).2.cfg = b.cfg := by
  have hsec : (b.rollSec now).cfg = b.cfg := by
    unfold CircuitBreaker.rollSec
    split_ifs <;> rfl
  have hmin : ∀ b' : CircuitBreaker, (b'.rollMin now).cfg = b'.cfg := by
    intro b'
    unfold CircuitBreaker.rollMin
    split_ifs <;> rfl
  unfold CircuitBreaker.checkOrderRate
  simp only
  split_ifs
  · exact hsec
  · exact (hmin _).trans hsec
  · exact (hmin _).trans hsec

/-- The engine after the order rate is checked. -/
def rated (e : SubmitEngine) (env : ChildEnvironment) : SubmitEngine :=
  { e.observe env with breaker := (e.breaker.checkOrderRate env.nowNs).2 }

theorem rated_eq (e : SubmitEngine) (env : ChildEnvironment) :
    ∃ k, e.rated env =
      { e with
        risk := { e.risk with killSwitch := k }
        breaker := (e.breaker.checkOrderRate env.nowNs).2 } := by
  obtain ⟨k, hk⟩ := e.observe_eq env
  refine ⟨k, ?_⟩
  rw [rated, hk]

/-- The checks before the capital check. -/
theorem processChild_eq :
    e.processChild o call child env =
      if (e.observe env).risk.killSwitch.active then (e.observe env).halt o env
      else if (e.breaker.checkOrderRate env.nowNs).1 ≠ .ok then (e.rated env).halt o env
      else if child.limitPrice ≤ 0 then (e.rated env, .skipped)
      else (e.rated env).commitAndDeliver o call child env := by
  have hbreaker : (e.observe env).breaker = e.breaker := by
    obtain ⟨k, hk⟩ := e.observe_eq env
    rw [hk]
  simp only [processChild, hbreaker, rated]

/-- **What becomes of a child order.** Either it is not committed, and the totals stay as they were,
or it is, and goes on to the drawdown check and its connector. -/
theorem processChild_cases (h : Sound {o.orderSymbol} e.risk) :
    let after := e.processChild o call child env
    Sound {o.orderSymbol} after.1.risk ∧
      ((¬ e.Commits o call child env ∧ (∀ order result, after.2 ≠ .submitted order result) ∧
          after.1.risk.totals = e.risk.totals) ∨
        (e.Commits o call child env ∧ EngineOptions.signedNotional call.side child ≠ 0 ∧
          e.risk.Adds after.1.risk child.exchange o.orderSymbol
            (EngineOptions.signedNotional call.side child) ∧
          ((call.accounting.globalMetrics.netPnl ≤ e.breaker.cfg.maxDrawdownUsd ∧
            after.2 = .halted) ∨
            (e.breaker.cfg.maxDrawdownUsd < call.accounting.globalMetrics.netPnl ∧
              after.2 = .submitted (o.orderOf call child env e.nextId)
                (o.submitResult child env (o.orderOf call child env e.nextId)))))) := by
  obtain ⟨k, hk⟩ := e.rated_eq env
  have hsound : Sound {o.orderSymbol} (e.rated env).risk := by
    rw [hk]
    exact h.withKillSwitch k
  have htotals : (e.rated env).risk.totals = e.risk.totals := by
    rw [hk]
    rfl
  rw [processChild_eq]
  split_ifs with hactive hrate hprice
  · exact ⟨hsound, Or.inl ⟨fun hc => Bool.false_ne_true (hc.running.symm.trans hactive),
      fun _ _ hc => ChildOutcome.noConfusion hc, htotals⟩⟩
  · exact ⟨hsound, Or.inl ⟨fun hc => hrate hc.rate, fun _ _ hc => ChildOutcome.noConfusion hc,
      htotals⟩⟩
  · exact ⟨hsound, Or.inl ⟨fun hc => absurd hc.price (not_lt.mpr hprice),
      fun _ _ hc => ChildOutcome.noConfusion hc, htotals⟩⟩
  · obtain ⟨hsound', hcases⟩ := @commitAndDeliver_cases o call (e.rated env) child env hsound
    refine ⟨hsound', ?_⟩
    rcases hcases with ⟨hnot, hskipped, hsame⟩ | ⟨⟨haffordable, hcheck⟩, hx, hadds, houtcome⟩
    · refine Or.inl ⟨fun hc => hnot ⟨hc.affordable, hc.check⟩, fun order result hc => ?_,
        hsame.trans htotals⟩
      rw [hskipped] at hc
      exact ChildOutcome.noConfusion hc
    · have hcommits : e.Commits o call child env :=
        ⟨Bool.eq_false_iff.mpr hactive, not_not.mp hrate, not_le.mp hprice, haffordable, hcheck⟩
      refine Or.inr ⟨hcommits, hx, ?_, ?_⟩
      · obtain ⟨v, i, s, hv, hs, hfor, htot⟩ := hadds
        refine ⟨v, i, s, hv, hs, hfor, htot.trans ?_⟩
        rw [hk]
        rfl
      · have hcfg : (e.rated env).breaker.cfg = e.breaker.cfg :=
          cfg_checkOrderRate e.breaker env.nowNs
        have hid : (e.rated env).nextId = e.nextId := by rw [hk]
        rwa [hcfg, hid] at houtcome

theorem symbol_orderOf (o : EngineOptions) (call : DecisionCall) (child : ChildOrder)
    (env : ChildEnvironment) (id : ℕ) : (o.orderOf call child env id).symbol.chars =
    o.orderSymbol := by
  unfold EngineOptions.orderOf
  simp only
  split_ifs <;> rfl

/-- The notional that is committed is that of the order. -/
theorem notional_orderOf (o : EngineOptions) (call : DecisionCall) (child : ChildOrder)
    (env : ChildEnvironment) (id : ℕ) :
    (o.orderOf call child env id).quantity * (o.orderOf call child env id).price *
      (o.orderOf call child env id).side.sign = EngineOptions.signedNotional call.side child := by
  unfold EngineOptions.orderOf
  simp only
  split_ifs <;> rfl

/-- **One child order** leaves the totals those of the accepted orders exactly when it is accepted
if it is committed. -/
theorem exposed_iff (h : Sound {o.orderSymbol} e.risk) :
    e.Exposed o call (child, env) ↔ e.Delivered o call (child, env) := by
  refine imp_congr_right fun _ => ?_
  obtain ⟨-, hcases⟩ := @processChild_cases o call e child env h
  rcases hcases with ⟨hnot, houtcome, hsame⟩ |
    ⟨hcommits, hx, hadds, ⟨hpnl, houtcome⟩ | ⟨hpnl, houtcome⟩⟩
  · refine iff_of_true ?_ fun hc => absurd hc hnot
    cases hafter : (e.processChild o call child env).2 with
    | skipped | halted => exact hsame
    | submitted order result => exact absurd hafter (houtcome order result)
  · refine iff_of_false ?_ fun hc => absurd (hc hcommits).1 (not_lt.mpr hpnl)
    simp only [houtcome]
    exact hadds.totals_ne hx
  · simp only [houtcome]
    by_cases hres : o.submitResult child env (o.orderOf call child env e.nextId) = .ok
    · simp only [hres, symbol_orderOf, notional_orderOf]
      exact iff_of_true hadds fun _ => ⟨hpnl, trivial⟩
    · refine iff_of_false (fun hc => ?_) fun hc => hres (hc hcommits).2
      split at hc
      · next order heq => exact hres (ChildOutcome.submitted.inj heq).2
      · exact hadds.totals_ne hx hc

/-! ## Runs -/

/-- The engine at its start. -/
def new (cfg : GlobalRiskConfig) (futuresCfg : FuturesRiskGateConfig) (killSwitch : KillSwitch)
    (breaker : CircuitBreakerConfig) : SubmitEngine where
  risk := .new cfg futuresCfg killSwitch
  breaker := { cfg := breaker }

theorem sound_submitChild (h : Sound {o.orderSymbol} e.risk) (c : ChildOrder × ChildEnvironment) :
    Sound {o.orderSymbol} (e.submitChild o call c).risk := by
  unfold submitChild
  cases e.stopped with
  | true => exact h
  | false => exact (@processChild_cases o call e c.1 c.2 h).1

theorem sound_submitDecision (h : Sound {o.orderSymbol} e.risk) (call : DecisionCall) :
    Sound {o.orderSymbol} (e.submitDecision o call).risk := by
  have hstep : ∀ (e : SubmitEngine) c, Sound {o.orderSymbol} e.risk → True →
      Sound {o.orderSymbol} (e.submitChild o call c).risk := fun _ c h _ => sound_submitChild h c
  exact @foldl_induction _ _ _ _ _ hstep call.children e.start h fun _ _ => trivial

/-- **The committed exposure is the exposure taken**: in every run of `submit_decision` the totals
follow the orders that are accepted exactly when every order that is committed is. -/
theorem exposed_run_iff (o : EngineOptions) (cfg : GlobalRiskConfig)
    (futuresCfg : FuturesRiskGateConfig)
    (killSwitch : KillSwitch) (breaker : CircuitBreakerConfig) (calls : List DecisionCall) :
    AllSteps (submitDecision o)
        (fun e call => AllSteps (submitChild o call) (Exposed o call) e.start call.children)
        (new cfg futuresCfg killSwitch breaker) calls ↔
      AllSteps (submitDecision o)
        (fun e call => AllSteps (submitChild o call) (Delivered o call) e.start call.children)
        (new cfg futuresCfg killSwitch breaker) calls := by
  have hchild : ∀ (call : DecisionCall) (e : SubmitEngine) (c : ChildOrder × ChildEnvironment),
      Sound {o.orderSymbol} e.risk → (e.Exposed o call c ↔ e.Delivered o call c) := by
    rintro call e ⟨child, env⟩ h
    exact exposed_iff h
  exact allSteps_congr (P := fun e => Sound {o.orderSymbol} e.risk)
    (fun _ call h => sound_submitDecision h call)
    (fun _ call h => allSteps_congr (P := fun e => Sound {o.orderSymbol} e.risk)
      (fun _ c h => sound_submitChild h c) (hchild call) h)
    (GlobalRiskControls.sound_new cfg futuresCfg killSwitch)

/-- A live session at Binance, with a thousand to start from, no caps and the default limits. -/
def liveBinance : EngineOptions where
  runBinance := true
  binanceFuturesEnabled := false
  runKraken := false
  runOkx := false
  runCoinbase := false
  symbol := "BTCUSDT".toList
  shadow := false
  futuresOnlyMode := false
  hedgeMode := false
  defaultLeverageCap := 0
  futuresDefaultMaxLeverage := 0
  binanceTakerFeeBps := 10
  krakenTakerFeeBps := 0
  okxTakerFeeBps := 0
  coinbaseTakerFeeBps := 0

/-- The engine of that session. -/
def liveEngine : SubmitEngine :=
  new ⟨0, 0, 0, 0, 0, false⟩ { GlobalRiskControls.halvingGate with enabled := false } {} {}

/-- Connectors that take no order. -/
def refusing : ChildEnvironment where
  nowNs := 10 ^ 9
  replies _ := KillSwitchEngine.success
  submit _ _ := .errorRestFailure

/-- A bid for one at a hundred, which Binance does not take. -/
def refusedBid : DecisionCall where
  side := .bid
  children := [(⟨.binance, 1, 100, .ioc⟩, refusing)]
  accounting :=
    { venues := fun i =>
        if i.val = 0 then
          { metrics := { configured := true, startEquity := 1000, endEquity := 1000 } }
        else {} }
  currentPosition := 0
  targetPosition := 1

/-- **An order that is refused stays in the totals.** -/
theorem refusedBid_not_exposed :
    ¬ AllSteps (submitDecision liveBinance)
      (fun e call => AllSteps (submitChild liveBinance call) (Exposed liveBinance call) e.start
        call.children) liveEngine [refusedBid] := by
  rintro ⟨⟨hexposed, -⟩, -⟩
  have hdelivered := (exposed_iff (GlobalRiskControls.sound_new _ _ _)).mp hexposed rfl
    ⟨rfl, by decide +kernel, by norm_num, by decide +kernel, by decide +kernel⟩
  exact absurd hdelivered.2 (by decide)

end SubmitEngine

end TradingInfrastructure
