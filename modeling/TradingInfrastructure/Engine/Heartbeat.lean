import TradingInfrastructure.Engine.QuarantinedVenues

/-!
# The heartbeat

`KillSwitch` of `core/risk/kill_switch.hpp` keeps the time of the last heartbeat, and is triggered
when a check finds it too old. The main loop records a heartbeat and checks it in the next statement
(`WatchedEngine.turn`), so that what is measured is the time between the two calls, and not the time
since the iteration before. An iteration that comes too late is stopped exactly when there is as
much time between the two calls, or another thread triggers the kill switch (`watched_iff`).
-/

namespace TradingInfrastructure

/-- The live engine, with the heartbeat of its kill switch and the times of the heartbeats that the
loop has recorded. -/
structure WatchedEngine where
  engine : LiveEngine
  heartbeatTimeoutNs : ℤ
  lastHeartbeatNs : ℤ
  beats : List ℤ := []

/-- An iteration, with the clock as the heartbeat and its check read it. -/
structure WatchedTurn where
  beatNs : ℤ
  checkNs : ℤ
  turn : LoopTurn

namespace WatchedEngine

/-- `heartbeat`. -/
def heartbeat (w : WatchedEngine) (now : ℤ) : WatchedEngine :=
  { w with lastHeartbeatNs := now, beats := w.beats ++ [now] }

/-- `check_heartbeat`. -/
def checkHeartbeat (w : WatchedEngine) (now : ℤ) : WatchedEngine :=
  if now - w.lastHeartbeatNs > w.heartbeatTimeoutNs then
    { w with
      engine.submit.risk.killSwitch :=
        w.engine.submit.risk.killSwitch.trigger .heartbeatMissed }
  else w

variable (o : EngineOptions)

/-- The loop is not left at the start of the iteration. -/
def goesOn (w : WatchedEngine) : Bool :=
  !w.engine.stopped && !w.engine.submit.risk.killSwitch.active

/-- One iteration. -/
def turn (w : WatchedEngine) (t : WatchedTurn) : WatchedEngine :=
  if w.goesOn then
    let w := (w.heartbeat t.beatNs).checkHeartbeat t.checkNs
    { w with engine := t.turn.steps.foldl (LiveEngine.step o) w.engine }
  else { w with engine := w.engine.turn o t.turn }

/-- The engine when the iteration comes to its orders. -/
def beforeOrders (w : WatchedEngine) (t : WatchedTurn) : LiveEngine :=
  (t.turn.woken.toList.map LiveStep.trigger).foldl (LiveEngine.step o)
    ((w.heartbeat t.beatNs).checkHeartbeat t.checkNs).engine

/-- The iteration records a heartbeat that comes too long after the one before. -/
def Overdue (w : WatchedEngine) (t : WatchedTurn) : Prop :=
  w.goesOn = true ∧ ∃ last, w.beats.getLast? = some last ∧
    w.heartbeatTimeoutNs < t.beatNs - last

/-- Each iteration that is overdue has an active kill switch before it submits an order. -/
def Watched (w : WatchedEngine) (turns : List WatchedTurn) : Prop :=
  AllSteps (turn o) (fun w t => w.Overdue t →
    (w.beforeOrders o t).submit.risk.killSwitch.active = true) w turns

/-- The kill switch is triggered in the iteration all the same: there was as much time between the
heartbeat and its check, or another thread has triggered it. -/
def Caught (w : WatchedEngine) (t : WatchedTurn) : Prop :=
  w.heartbeatTimeoutNs < t.checkNs - t.beatNs ∨ t.turn.woken.isSome = true

variable {o} {w : WatchedEngine} {t : WatchedTurn}

theorem active_checkHeartbeat (h : w.goesOn = true) :
    ((w.heartbeat t.beatNs).checkHeartbeat t.checkNs).engine.stopped = false ∧
      (((w.heartbeat t.beatNs).checkHeartbeat t.checkNs).engine.submit.risk.killSwitch.active = true
        ↔ w.heartbeatTimeoutNs < t.checkNs - t.beatNs) := by
  simp only [goesOn, Bool.and_eq_true, Bool.not_eq_true'] at h
  obtain ⟨hrunning, hinactive⟩ := h
  unfold checkHeartbeat
  by_cases hlate : t.checkNs - t.beatNs > w.heartbeatTimeoutNs
  · have hcheck : t.checkNs - (w.heartbeat t.beatNs).lastHeartbeatNs >
        (w.heartbeat t.beatNs).heartbeatTimeoutNs := hlate
    rw [if_pos hcheck]
    exact ⟨hrunning, iff_of_true rfl hlate⟩
  · have hcheck : ¬ t.checkNs - (w.heartbeat t.beatNs).lastHeartbeatNs >
        (w.heartbeat t.beatNs).heartbeatTimeoutNs := hlate
    rw [if_neg hcheck]
    exact ⟨hrunning, iff_of_false (Bool.eq_false_iff.mp hinactive) hlate⟩

/-- **What an iteration finds**: the kill switch is active before its orders exactly when it is
caught. -/
theorem active_beforeOrders (h : w.goesOn = true) :
    (w.beforeOrders o t).submit.risk.killSwitch.active = true ↔ w.Caught t := by
  obtain ⟨hrunning, hactive⟩ := active_checkHeartbeat (t := t) h
  unfold beforeOrders Caught
  rw [← hactive]
  cases t.turn.woken with
  | none => simp
  | some reason =>
    refine iff_of_true ?_ (Or.inr rfl)
    simp only [Option.toList_some, List.map_cons, List.map_nil, List.foldl_cons, List.foldl_nil,
      LiveEngine.step, hrunning, Bool.false_eq_true, if_false]
    rfl

/-- **The watchdog.** In a run of the loop, every iteration that is overdue has an active kill
switch before it submits an order exactly when every such iteration is caught by the check of its
own heartbeat, or by another thread. -/
theorem watched_iff (w : WatchedEngine) (turns : List WatchedTurn) :
    Watched o w turns ↔ AllSteps (turn o) (fun w t => w.Overdue t → w.Caught t) w turns :=
  allSteps_congr (P := fun _ => True) (fun _ _ _ => trivial)
    (fun _ _ _ => forall_congr' fun hoverdue => active_beforeOrders hoverdue.1) trivial

/-- An engine at Binance, with a timeout of three seconds. -/
def threeSeconds : WatchedEngine where
  engine := LiveEngine.start SubmitEngine.liveBinance LiveEngine.tenThousand [] fun _ =>
    LiveEngine.nothingLeft
  heartbeatTimeoutNs := 3 * 10 ^ 9
  lastHeartbeatNs := 0

/-- An iteration without orders, and one that submits an order an hour later. -/
def hourLater : List WatchedTurn :=
  [{ beatNs := 10 ^ 9, checkNs := 10 ^ 9 + 100
     turn := { replies := fun _ => KillSwitchEngine.success } },
    { beatNs := 3600 * 10 ^ 9, checkNs := 3600 * 10 ^ 9 + 100
      turn :=
        { decision := some LiveEngine.acceptedBid, replies := fun _ => KillSwitchEngine.success } }]

/-- **An iteration that is an hour late commits its order**, with an inactive kill switch. -/
theorem hourLater_not_watched :
    ¬ Watched SubmitEngine.liveBinance threeSeconds hourLater ∧
      (hourLater.foldl (turn SubmitEngine.liveBinance)
        threeSeconds).engine.submit.risk.grossNotional = 100 ∧
      (hourLater.foldl (turn SubmitEngine.liveBinance)
        threeSeconds).engine.submit.risk.killSwitch.active = false := by
  refine ⟨?_, by decide +kernel, by decide +kernel⟩
  rw [watched_iff]
  rintro ⟨-, hsecond, -⟩
  have hcaught := hsecond ⟨by decide +kernel, 10 ^ 9, by decide +kernel, by decide +kernel⟩
  rcases hcaught with hlate | hwoken
  · exact absurd hlate (by decide +kernel)
  · cases hwoken

end WatchedEngine

end TradingInfrastructure
