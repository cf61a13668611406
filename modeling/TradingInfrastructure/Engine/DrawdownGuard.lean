import TradingInfrastructure.Engine.LiveLoop

/-!
# The drawdown guard

The drawdown is checked for a child order that has passed everything else, and nowhere else. So the
first iteration that finds the net profit at the limit, or below it, acts on it exactly when one of
its children gets that far (`LiveEngine.guarded_iff`).
-/

namespace TradingInfrastructure

open GlobalRiskControls (Sound)

namespace KillSwitchEngine

/-- The first call with an active kill switch sets the flag. -/
theorem cancelIssued_issue {v : EngineVenues} {e : KillSwitchEngine}
    (h : e.ended = true → e.cancelIssued = true) (replies : LiveVenue → HttpResponse) :
    (issueKillSwitchCancels v e (true, replies)).cancelIssued = true := by
  by_cases hissued : e.cancelIssued = true
  · simp [issueKillSwitchCancels, hissued]
  · have hended : ¬ e.ended = true := mt h hissued
    simp [issueKillSwitchCancels, hissued, hended, cancelIssued_attemptAll]

/-- With an inactive one nothing happens. -/
theorem issue_of_inactive {v : EngineVenues} {e : KillSwitchEngine}
    (replies : LiveVenue → HttpResponse) : issueKillSwitchCancels v e (false, replies) = e := by
  simp [issueKillSwitchCancels]

end KillSwitchEngine

/-! ## A child order -/

namespace SubmitEngine

variable (o : EngineOptions) (call : DecisionCall)

/-- Cancels are issued when the kill switch is active only. -/
structure Consistent (e : SubmitEngine) : Prop where
  risk : Sound {o.orderSymbol} e.risk
  issued : e.cancels.cancelIssued = true → e.risk.killSwitch.active = true
  ended : e.cancels.ended = true → e.cancels.cancelIssued = true

/-- The net profit is at the limit or below it. -/
def Breached (e : SubmitEngine) : Prop :=
  call.accounting.globalMetrics.netPnl ≤ e.breaker.cfg.maxDrawdownUsd

/-- The child order finds the kill switch active, or gets to the drawdown check. -/
def Reaches (e : SubmitEngine) (child : ChildOrder × ChildEnvironment) : Prop :=
  (e.observe child.2).risk.killSwitch.active = true ∨ e.Commits o call child.1 child.2

/-- **Some child order gets there**, before the decision has ended. -/
def Trips : SubmitEngine → List (ChildOrder × ChildEnvironment) → Prop
  | _, [] => False
  | e, child :: children =>
    e.stopped = false ∧
      (e.Reaches o call child ∨ Trips (e.submitChild o call child) children)

variable {o call} {e : SubmitEngine} {child : ChildOrder} {env : ChildEnvironment}

/-- The kill switch that a child finds is active when it was before. -/
theorem active_observe (h : (e.observe env).risk.killSwitch.active = false) :
    e.observe env = e ∧ e.risk.killSwitch.active = false := by
  unfold observe at h ⊢
  cases hkilled : env.killed with
  | none =>
    rw [hkilled] at h
    exact ⟨rfl, h⟩
  | some reason =>
    rw [hkilled] at h
    cases h

/-- Halting with the kill switch as it is. -/
theorem Consistent.halt (h : e.Consistent o) (env : ChildEnvironment) :
    (e.halt o env).1.Consistent o ∧ (e.halt o env).1.stopped = true ∧
      (e.halt o env).1.breaker = e.breaker ∧
      (e.halt o env).1.cancels.cancelIssued = e.risk.killSwitch.active := by
  have hstopped : (e.halt o env).1.stopped = true := by simp [SubmitEngine.halt, stopped]
  cases hactive : e.risk.killSwitch.active with
  | true =>
    have hissued : (e.halt o env).1.cancels.cancelIssued = true := by
      simp only [SubmitEngine.halt, hactive]
      exact KillSwitchEngine.cancelIssued_issue h.ended env.replies
    exact ⟨⟨h.risk, fun _ => hactive, fun _ => hissued⟩, hstopped, rfl, hissued⟩
  | false =>
    have hsame : (e.halt o env).1.cancels = e.cancels := by
      simp only [SubmitEngine.halt, hactive]
      exact KillSwitchEngine.issue_of_inactive env.replies
    have hissued : e.cancels.cancelIssued = false := by
      by_contra hissued
      rw [h.issued (Bool.not_eq_false _ ▸ hissued)] at hactive
      cases hactive
    refine ⟨⟨h.risk, ?_, ?_⟩, hstopped, rfl, hsame ▸ hissued⟩
    · rw [hsame]
      exact h.issued
    · rw [hsame]
      exact h.ended

/-- A state with other risk controls and no kill switch, before any cancel. -/
theorem Consistent.withRisk (h : e.Consistent o) (hactive : e.risk.killSwitch.active = false)
    (e' : SubmitEngine) (hrisk : Sound {o.orderSymbol} e'.risk)
    (hcancels : e'.cancels = e.cancels) :
    e'.Consistent o ∧ e'.cancels.cancelIssued = false := by
  have hissued : e'.cancels.cancelIssued = false := by
    rw [hcancels]
    by_contra hissued
    rw [h.issued (Bool.not_eq_false _ ▸ hissued)] at hactive
    cases hactive
  refine ⟨⟨hrisk, fun h' => ?_, ?_⟩, hissued⟩
  · rw [hissued] at h'
    cases h'
  · rw [hcancels]
    exact h.ended

/-- The drawdown check. -/
theorem Consistent.deliver (h : e.Consistent o) (call : DecisionCall) (child : ChildOrder)
    (env : ChildEnvironment) (order : Order) :
    let after := (e.deliver o call child env order).1
    after.Consistent o ∧ after.breaker.cfg = e.breaker.cfg ∧
      (e.Breached call → after.cancels.cancelIssued = true ∧ after.stopped = true) := by
  intro after
  by_cases hbreached : call.accounting.globalMetrics.netPnl ≤ e.breaker.cfg.maxDrawdownUsd
  · let e' : SubmitEngine := { e with
      breaker := { e.breaker with realizedPnl := call.accounting.globalMetrics.netPnl }
      risk := { e.risk with killSwitch := e.risk.killSwitch.trigger .drawdown } }
    have hafter : after = (e'.halt o env).1 := by
      simp [after, SubmitEngine.deliver, CircuitBreaker.checkDrawdown, hbreached, e']
    have hconsistent : e'.Consistent o := ⟨h.risk.withKillSwitch _, fun _ => rfl, h.ended⟩
    obtain ⟨hhalt, hstopped, hbreaker, hissued⟩ := hconsistent.halt env
    rw [hafter]
    exact ⟨hhalt, by rw [hbreaker], fun _ => ⟨hissued, hstopped⟩⟩
  · have hafter : after = { e with
        breaker := { e.breaker with realizedPnl := call.accounting.globalMetrics.netPnl } } := by
      simp [after, SubmitEngine.deliver, CircuitBreaker.checkDrawdown, hbreached]
    rw [hafter]
    exact ⟨⟨h.risk, h.issued, h.ended⟩, rfl, fun hb => absurd hb hbreached⟩

/-- **What a child order does to the cancels**: where the limit is breached, they are issued exactly
when the child finds the kill switch active or gets to the drawdown check. -/
theorem Consistent.processChild (h : e.Consistent o) (call : DecisionCall) (child : ChildOrder)
    (env : ChildEnvironment) :
    let after := (e.processChild o call child env).1
    after.Consistent o ∧ after.breaker.cfg = e.breaker.cfg ∧
      (e.Breached call → e.Reaches o call (child, env) →
        after.cancels.cancelIssued = true ∧ after.stopped = true) ∧
      (¬ e.Reaches o call (child, env) → after.cancels.cancelIssued = false) := by
  intro after
  have hcases := @processChild_eq o call e child env
  obtain ⟨k, hk⟩ := e.observe_eq env
  by_cases hactive : (e.observe env).risk.killSwitch.active = true
  · have hobserved : (e.observe env).Consistent o := by
      rw [hk] at hactive ⊢
      exact ⟨h.risk.withKillSwitch k, fun _ => hactive, h.ended⟩
    obtain ⟨hhalt, hstopped, hbreaker, hissued⟩ := hobserved.halt env
    have hafter : after = ((e.observe env).halt o env).1 := by
      simp only [after, hcases, hactive, if_true]
    rw [hafter]
    refine ⟨hhalt, ?_, fun _ _ => ⟨hissued.trans hactive, hstopped⟩, fun hnot => ?_⟩
    · rw [hbreaker, hk]
    · exact absurd (.inl hactive) hnot
  · rw [Bool.not_eq_true] at hactive
    obtain ⟨hsame, hinactive⟩ := active_observe hactive
    -- the engine after the rate check is the same but for the counts
    have hrated : (e.rated env).risk = e.risk ∧ (e.rated env).cancels = e.cancels ∧
        (e.rated env).breaker.cfg = e.breaker.cfg := by
      rw [rated, hsame]
      exact ⟨rfl, rfl, cfg_checkOrderRate e.breaker env.nowNs⟩
    have hratedActive : (e.rated env).risk.killSwitch.active = false := by rwa [hrated.1]
    obtain ⟨hratedConsistent, hratedIssued⟩ :=
      h.withRisk hinactive (e.rated env) (by rw [hrated.1]; exact h.risk) hrated.2.1
    have hrunning : ¬ e.Commits o call child env → ¬ e.Reaches o call (child, env) := by
      rintro hnot (hreaches | hreaches)
      · rw [hactive] at hreaches
        cases hreaches
      · exact hnot hreaches
    simp only [hactive, Bool.false_eq_true, if_false] at hcases
    by_cases hrate : (e.breaker.checkOrderRate env.nowNs).1 = .ok
    · by_cases hprice : child.limitPrice ≤ 0
      · have hafter : after = e.rated env := by simp [after, hcases, hrate, hprice]
        rw [hafter]
        refine ⟨hratedConsistent, hrated.2.2, fun _ hreaches => absurd hreaches ?_,
          fun _ => hratedIssued⟩
        exact hrunning fun hc => absurd hc.price (not_lt.mpr hprice)
      · have hafter : after = ((e.rated env).commitAndDeliver o call child env).1 := by
          simp [after, hcases, hrate, hprice]
        obtain ⟨result, r', hcheck, hcommit, hsound, -, -⟩ :=
          @EngineOptions.commit_spec o call (e.rated env).risk child env hratedConsistent.risk
        have hskipped : ∀ e' : SubmitEngine, after = e' → Sound {o.orderSymbol} e'.risk →
            e'.cancels = e.cancels → e'.breaker = (e.rated env).breaker →
            ¬ e.Commits o call child env →
            after.Consistent o ∧ after.breaker.cfg = e.breaker.cfg ∧
              (e.Breached call → e.Reaches o call (child, env) →
                after.cancels.cancelIssued = true ∧ after.stopped = true) ∧
              (¬ e.Reaches o call (child, env) → after.cancels.cancelIssued = false) := by
          intro e' heq hrisk hcancels hbreaker hnot
          obtain ⟨hconsistent, hissued⟩ := h.withRisk hinactive e' hrisk hcancels
          rw [heq, hbreaker]
          exact ⟨hconsistent, hrated.2.2, fun _ hreaches => absurd hreaches (hrunning hnot),
            fun _ => hissued⟩
        have hchecked : o.check call (e.observe env).risk child env = .ok result := by
          rw [hsame, ← hrated.1]
          exact hcheck
        cases haffordable : o.affordable call child with
        | false =>
          refine hskipped { e.rated env with nextId := (e.rated env).nextId + 1 } ?_
            hratedConsistent.risk hrated.2.1 rfl fun hc => ?_
          · simp [hafter, commitAndDeliver, haffordable]
          · rw [hc.affordable] at haffordable
            cases haffordable
        | true =>
          by_cases hok : result = .ok
          · subst hok
            let e' : SubmitEngine :=
              { e.rated env with nextId := (e.rated env).nextId + 1, risk := r' }
            have hafter' : after =
                (e'.deliver o call child env
                  (o.orderOf call child env (e.rated env).nextId)).1 := by
              simp [hafter, commitAndDeliver, haffordable, hcommit, e']
            obtain ⟨hconsistent, -⟩ := h.withRisk hinactive e' hsound hrated.2.1
            obtain ⟨hdelivered, hbreaker, hissued⟩ := hconsistent.deliver call child
              env (o.orderOf call child env (e.rated env).nextId)
            have hreaches : e.Reaches o call (child, env) :=
              .inr ⟨hactive, hrate, not_le.mp hprice, haffordable, hchecked⟩
            rw [hafter']
            refine ⟨hdelivered, hbreaker.trans hrated.2.2, fun hbreached _ => hissued ?_,
              fun hnot => absurd hreaches hnot⟩
            exact hbreached.trans_eq (congrArg CircuitBreakerConfig.maxDrawdownUsd hrated.2.2.symm)
          · refine hskipped { e.rated env with nextId := (e.rated env).nextId + 1, risk := r' } ?_
              hsound hrated.2.1 rfl fun hc => ?_
            · simp [hafter, commitAndDeliver, haffordable, hcommit, hok]
            · rw [hc.check] at hchecked
              exact hok (Except.ok.inj hchecked).symm
    · have hafter : after = ((e.rated env).halt o env).1 := by simp [after, hcases, hrate]
      obtain ⟨hhalt, hstopped, hbreaker, hissued⟩ := hratedConsistent.halt env
      rw [hafter]
      refine ⟨hhalt, ?_, fun _ hreaches => absurd hreaches (hrunning fun hc => hrate hc.rate),
        fun _ => hissued.trans hratedActive⟩
      rw [hbreaker, hrated.2.2]

/-! ## A decision -/

theorem submitChild_of_stopped (h : e.stopped = true) (c : ChildOrder × ChildEnvironment) :
    e.submitChild o call c = e := by
  rw [submitChild, if_pos h]

theorem submitChild_of_running (h : e.stopped = false) (c : ChildOrder × ChildEnvironment) :
    e.submitChild o call c = (e.processChild o call c.1 c.2).1 := by
  rw [submitChild, h]
  rfl

theorem foldl_of_stopped (h : e.stopped = true) (children : List (ChildOrder × ChildEnvironment)) :
    children.foldl (submitChild o call) e = e := by
  induction children with
  | nil => rfl
  | cons c children ih => rw [List.foldl_cons, submitChild_of_stopped h, ih]

theorem Consistent.submitChild (h : e.Consistent o) (call : DecisionCall)
    (c : ChildOrder × ChildEnvironment) :
    (e.submitChild o call c).Consistent o ∧
      (e.submitChild o call c).breaker.cfg = e.breaker.cfg := by
  cases hstopped : e.stopped with
  | true =>
    rw [submitChild_of_stopped hstopped]
    exact ⟨h, rfl⟩
  | false =>
    rw [submitChild_of_running hstopped]
    exact ⟨(h.processChild call c.1 c.2).1, (h.processChild call c.1 c.2).2.1⟩

theorem Consistent.submitDecision (h : e.Consistent o) (call : DecisionCall) :
    (e.submitDecision o call).Consistent o ∧
      (e.submitDecision o call).breaker.cfg = e.breaker.cfg := by
  refine foldl_induction
    (P := fun e' : SubmitEngine => e'.Consistent o ∧ e'.breaker.cfg = e.breaker.cfg)
    (fun e' c he' (_ : True) => ?_) ⟨⟨h.risk, h.issued, h.ended⟩, rfl⟩ fun _ _ => trivial
  obtain ⟨hnext, hcfg⟩ := he'.1.submitChild call c
  exact ⟨hnext, hcfg.trans he'.2⟩

/-- **A decision under a breach issues the cancels** exactly when one of its children gets to the
check, or finds the kill switch active. -/
theorem Consistent.issued_iff_trips (h : e.Consistent o) (call : DecisionCall)
    (children : List (ChildOrder × ChildEnvironment)) (hbreached : e.Breached call)
    (hnone : e.cancels.cancelIssued = false) :
    (children.foldl (SubmitEngine.submitChild o call) e).cancels.cancelIssued = true ↔
      e.Trips o call children := by
  induction children generalizing e with
  | nil => exact iff_of_false (by simp [hnone]) id
  | cons c children ih =>
    rw [List.foldl_cons]
    cases hstopped : e.stopped with
    | true =>
      rw [submitChild_of_stopped hstopped, foldl_of_stopped hstopped, hnone]
      exact iff_of_false Bool.false_ne_true fun ht => by
        rw [ht.1] at hstopped
        cases hstopped
    | false =>
      obtain ⟨hnext, hcfg, hreaches, hnot⟩ := h.processChild call c.1 c.2
      have hsame : e.submitChild o call c = _ := submitChild_of_running hstopped c
      by_cases hc : e.Reaches o call c
      · obtain ⟨hissued, hend⟩ := hreaches hbreached hc
        rw [hsame, foldl_of_stopped hend]
        exact iff_of_true hissued ⟨hstopped, .inl hc⟩
      · have hbreached' : (e.submitChild o call c).Breached call := by
          rw [hsame]
          exact hbreached.trans_eq (congrArg CircuitBreakerConfig.maxDrawdownUsd hcfg.symm)
        rw [ih (hsame ▸ hnext) hbreached' (hsame ▸ hnot hc)]
        exact ⟨fun ht => ⟨hstopped, .inr ht⟩, fun ht => ht.2.resolve_left hc⟩

end SubmitEngine

/-! ## Iterations -/

namespace LiveEngine

variable (o : EngineOptions)

/-- The net profit of the accounting is at the limit or below it. -/
def Breached (e : LiveEngine) : Prop :=
  e.accounting.globalMetrics.netPnl ≤ e.submit.breaker.cfg.maxDrawdownUsd

/-- The kill switch is active and the cancels are issued after the iteration. -/
def Guards (e : LiveEngine) (t : LoopTurn) : Prop :=
  (e.turn o t).submit.risk.killSwitch.active = true ∧
    (e.turn o t).submit.cancels.cancelIssued = true

/-- The kill switch is active already, or a child order of the iteration finds it active or gets to
the drawdown check: the earlier children are turned down by the checks before it, and by none that
ends the decision. -/
def Trips (e : LiveEngine) (t : LoopTurn) : Prop :=
  e.submit.risk.killSwitch.active = true ∨
    ∃ call, t.decision = some call ∧
      ((t.woken.toList.map LiveStep.trigger).foldl (step o) e).submit.start.Trips o
        { call with accounting := e.accounting } call.children

/-- What holds of the first iteration that finds the net profit at the limit or below it. -/
def AtFirstBreach (P : LiveEngine → LoopTurn → Prop) (e : LiveEngine) (turns : List LoopTurn) :
    Prop :=
  ∀ before t after, turns = before ++ t :: after →
    (∀ earlier, earlier <+: before → earlier ≠ before → ¬ (earlier.foldl (turn o) e).Breached) →
    (before.foldl (turn o) e).stopped = false → (before.foldl (turn o) e).Breached →
    P (before.foldl (turn o) e) t

variable {o} {e : LiveEngine} {t : LoopTurn}

/-- The steps that reconcile leave the orders alone. -/
theorem submit_reconcile {s : LiveStep}
    (hs : (∃ exchanges answers, s = .reconnect exchanges answers) ∨
      ∃ answers markPrice now, s = .reconcile answers markPrice now) :
    (e.step o s).submit = e.submit := by
  unfold step
  split
  · rfl
  · rcases hs with ⟨exchanges, answers, rfl⟩ | ⟨answers, markPrice, now, rfl⟩ <;> rfl

theorem foldl_submit {steps : List LiveStep}
    (hsteps : ∀ s ∈ steps, (∃ exchanges answers, s = .reconnect exchanges answers) ∨
      ∃ answers markPrice now, s = .reconcile answers markPrice now) :
    (steps.foldl (step o) e).submit = e.submit := by
  induction steps generalizing e with
  | nil => rfl
  | cons s steps ih =>
    rw [List.foldl_cons, ih fun s' hs' => hsteps s' (List.mem_cons_of_mem _ hs'),
      submit_reconcile (hsteps s List.mem_cons_self)]

/-- What the engine has submitted after the iteration is what it has after the decision. -/
theorem submit_steps : (t.steps.foldl (step o) e).submit =
    ((t.decision.toList.map LiveStep.decide).foldl (step o)
      ((t.woken.toList.map LiveStep.trigger).foldl (step o) e)).submit := by
  rw [LoopTurn.steps, List.foldl_append, List.foldl_append]
  refine foldl_submit fun s hs => ?_
  rcases List.mem_append.mp hs with hs | hs
  · obtain ⟨r, -, rfl⟩ := List.mem_map.mp hs
    exact .inl ⟨_, _, rfl⟩
  · obtain ⟨r, -, rfl⟩ := List.mem_map.mp hs
    exact .inr ⟨_, _, _, rfl⟩

/-- The engine after it is woken is the same but for the kill switch. -/
theorem woken_eq (hstopped : e.stopped = false) :
    ∃ k : KillSwitch, (e.submit.risk.killSwitch.active = true → k.active = true) ∧
      (t.woken.toList.map LiveStep.trigger).foldl (step o) e =
        { e with submit.risk.killSwitch := k } := by
  cases t.woken with
  | none => exact ⟨e.submit.risk.killSwitch, id, rfl⟩
  | some reason =>
    refine ⟨e.submit.risk.killSwitch.trigger reason, fun _ => rfl, ?_⟩
    simp only [Option.toList_some, List.map_cons, List.map_nil, List.foldl_cons, List.foldl_nil,
      step, hstopped, Bool.false_eq_true, if_false]

theorem consistent_step (h : e.submit.Consistent o) (s : LiveStep) :
    (e.step o s).submit.Consistent o := by
  cases hstopped : e.stopped with
  | true =>
    unfold step
    rw [if_pos hstopped]
    exact h
  | false =>
    cases s with
    | trigger reason =>
      simp only [step, hstopped, Bool.false_eq_true, if_false]
      exact ⟨h.risk.withKillSwitch _, fun _ => rfl, h.ended⟩
    | decide call =>
      simp only [step, hstopped, Bool.false_eq_true, if_false]
      exact (h.submitDecision _).1
    | reconnect exchanges answers =>
      rw [submit_reconcile (.inl ⟨_, _, rfl⟩)]
      exact h
    | reconcile answers markPrice now =>
      rw [submit_reconcile (.inr ⟨_, _, _, rfl⟩)]
      exact h

theorem consistent_turn (h : e.submit.Consistent o) (t : LoopTurn) :
    (e.turn o t).submit.Consistent o := by
  unfold turn
  split_ifs with hstopped hactive
  · exact h
  · have hissued := KillSwitchEngine.cancelIssued_issue (v := o.toEngineVenues) h.ended t.replies
    exact ⟨h.risk, fun _ => hactive, fun _ => hissued⟩
  · exact foldl_induction (P := fun e : LiveEngine => e.submit.Consistent o)
      (fun e s he (_ : True) => consistent_step he s) h fun _ _ => trivial

theorem consistent_start (o : EngineOptions) (setup : Setup) (exchanges : List Exchange)
    (answers : ℕ → VenueAnswers) : (start o setup exchanges answers).submit.Consistent o := by
  refine ⟨GlobalRiskControls.sound_new _ _ _, fun h => ?_, fun h => ?_⟩
  · cases h
  · cases h

/-- **An iteration under a breach guards** exactly when a child order of it gets to the check. -/
theorem guards_iff_trips (h : e.submit.Consistent o) (hstopped : e.stopped = false)
    (hbreached : e.Breached) : e.Guards o t ↔ e.Trips o t := by
  unfold Guards Trips turn
  rw [if_neg (by simp [hstopped])]
  by_cases hactive : e.submit.risk.killSwitch.active = true
  · rw [if_pos hactive]
    exact iff_of_true ⟨hactive, KillSwitchEngine.cancelIssued_issue h.ended t.replies⟩
      (.inl hactive)
  · rw [if_neg hactive, submit_steps]
    obtain ⟨k, -, hwoken⟩ := woken_eq (o := o) (t := t) hstopped
    have hnone : e.submit.cancels.cancelIssued = false := by
      by_contra hissued
      exact hactive (h.issued (Bool.not_eq_false _ ▸ hissued))
    have hconsistent :
        ((t.woken.toList.map LiveStep.trigger).foldl (step o) e).submit.Consistent o :=
      foldl_induction (P := fun e : LiveEngine => e.submit.Consistent o)
        (fun e s he (_ : True) => consistent_step he s) h fun _ _ => trivial
    rw [hwoken] at hconsistent ⊢
    cases hdecision : t.decision with
    | none =>
      refine iff_of_false (fun hg => ?_) ?_
      · have hissued : e.submit.cancels.cancelIssued = true := hg.2
        rw [hnone] at hissued
        cases hissued
      · rintro (hk | ⟨call, hcall, -⟩)
        · exact hactive hk
        · cases hcall
    | some call =>
      have hstart : { e with submit.risk.killSwitch := k }.stopped = false := hstopped
      simp only [Option.toList_some, List.map_cons, List.map_nil, List.foldl_cons, List.foldl_nil,
        step, hstart, Bool.false_eq_true, if_false]
      have hafter := (hconsistent.submitDecision { call with accounting := e.accounting }).1
      let begun : SubmitEngine :=
        { e.submit.start with risk := { e.submit.risk with killSwitch := k } }
      have hbegun : begun.Consistent o :=
        ⟨hconsistent.risk, hconsistent.issued, hconsistent.ended⟩
      have htrips := hbegun.issued_iff_trips { call with accounting := e.accounting } call.children
        hbreached hnone
      constructor
      · rintro ⟨-, hissued⟩
        exact .inr ⟨call, rfl, htrips.mp hissued⟩
      · rintro (hk | ⟨call', hcall, ht⟩)
        · exact absurd hk hactive
        · cases hcall
          have hissued := htrips.mpr ht
          exact ⟨hafter.issued hissued, hissued⟩

/-- **The drawdown guard.** In every live run, the first iteration that finds the net profit at the
limit or below it leaves the kill switch active and the cancels issued exactly when one of its child
orders gets to the drawdown check, or the kill switch is active for another reason. -/
theorem guarded_iff (o : EngineOptions) (setup : Setup) (exchanges : List Exchange)
    (answers : ℕ → VenueAnswers) (turns : List LoopTurn) :
    AtFirstBreach o (Guards o) (start o setup exchanges answers) turns ↔
      AtFirstBreach o (Trips o) (start o setup exchanges answers) turns := by
  have hrun : ∀ before : List LoopTurn,
      (before.foldl (turn o) (start o setup exchanges answers)).submit.Consistent o :=
    fun before => foldl_induction (P := fun e : LiveEngine => e.submit.Consistent o)
      (fun e t he (_ : True) => consistent_turn he t)
        (consistent_start o setup exchanges answers) fun _ _ => trivial
  have hiff : ∀ (before : List LoopTurn) (t : LoopTurn),
      (before.foldl (turn o) (start o setup exchanges answers)).stopped = false →
      (before.foldl (turn o) (start o setup exchanges answers)).Breached →
      (Guards o (before.foldl (turn o) (start o setup exchanges answers)) t ↔
        Trips o (before.foldl (turn o) (start o setup exchanges answers)) t) :=
    fun before t hstopped hbreached => guards_iff_trips (hrun before) hstopped hbreached
  constructor
  · intro h before t after hturns hfirst hstopped hbreached
    exact (hiff before t hstopped hbreached).mp (h before t after hturns hfirst hstopped hbreached)
  · intro h before t after hturns hfirst hstopped hbreached
    exact (hiff before t hstopped hbreached).mpr (h before t after hturns hfirst hstopped hbreached)

/-- A session at Binance that starts with ten thousand, and the default drawdown limit. -/
def tenThousand : Setup where
  risk := ⟨0, 0, 0, 0, 0, false⟩
  futuresRisk := .off
  breaker := {}
  service := ⟨⟨0, 0, 0, 0, 0⟩, ⟨0, 0, 0⟩⟩
  log := { incidentCount := 0, droppedIncidentCount := 0 }
  capital _ := (10000, 0)

/-- Binance answers that nothing is left. -/
def nothingLeft : VenueAnswers where
  reconcile := .ok
  fetch := (.ok, .empty)
  canonical := none
  nowNs := 0
  nowSystem := 0
  nowSteady := 0
  memory := DriftDecision.zero

/-- An iteration that reconciles, and one without a child order. -/
def freeFall : List LoopTurn :=
  [{ reconcile := some (fun _ => nothingLeft, fun _ => 100, 0)
     replies := fun _ => KillSwitchEngine.success },
    { replies := fun _ => KillSwitchEngine.success }]

/-- **A loss without a child order is not acted on.** -/
theorem freeFall_unguarded :
    ¬ AtFirstBreach SubmitEngine.liveBinance (Guards SubmitEngine.liveBinance)
      (start SubmitEngine.liveBinance tenThousand [] fun _ => nothingLeft) freeFall := by
  intro h
  have hguards := h (freeFall.take 1) { replies := fun _ => KillSwitchEngine.success } [] rfl
    (fun earlier hprefix hne => ?_) (by decide +kernel) ?_
  · exact absurd hguards.1 (by decide +kernel)
  · -- nothing is lost before the first iteration
    have hempty : earlier = [] := by
      have hlength := hprefix.length_le
      have hshort : earlier.length ≠ 1 := fun heq => hne (List.IsPrefix.eq_of_length hprefix heq)
      refine List.eq_nil_of_length_eq_zero ?_
      have htake : (freeFall.take 1).length = 1 := rfl
      omega
    subst hempty
    unfold Breached
    decide +kernel
  · unfold Breached
    decide +kernel

end LiveEngine

end TradingInfrastructure
