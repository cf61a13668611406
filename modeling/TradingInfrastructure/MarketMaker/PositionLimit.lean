import TradingInfrastructure.MarketMaker.NeuralAlphaMarketMaker
import TradingInfrastructure.Foundations.Runs

/-!
# The position limit of the market maker

The check of `post_quotes` looks at the position and at one new order. What it does not see is an
earlier order on the same side that still works, because its cancellation has failed, and a fill
that waits in the queue. The exposure of a side takes both in: the position in its direction, the
fills queued and the quantity working. A fill moves quantity from the venue to the queue and from
there to the position, so nothing raises the exposure but an order that the venue takes up
(`Covered`). With an order of its own size it stays within the limit as long as the order is alone
on its side, which is what the check supposes, or the earlier ones leave room for it.
-/

namespace TradingInfrastructure

namespace Quoting

/-! ## Exposure -/

/-- What an update that waits in the queue will add to the position of a side. -/
def fillFor (sideOf : ℕ → Side) (side : Side) (u : FillUpdate) : ℚ :=
  if sideOf u.clientOrderId = side ∧ 0 < u.fillQty then u.fillQty else 0

/-- The fills of a side in the queue. -/
def queued (sideOf : ℕ → Side) (items : List FillUpdate) (side : Side) : ℚ :=
  (items.map (fillFor sideOf side)).sum

/-- The quantity of a side that can still fill. -/
def unfilledQty (working : List WorkingOrder) (side : Side) : ℚ :=
  (working.map fun o => if o.side = side then o.unfilled else 0).sum

/-- The fills of a side that wait in the queue of the manager. -/
def queuedQty (t : Quoting) (side : Side) : ℚ := queued t.sideOf t.manager.fillQueue.items side

/-- The position in the direction of a side, with all that can still join it. -/
def exposure (t : Quoting) (side : Side) : ℚ :=
  side.signed t.position + t.queuedQty side + t.workingQty side

variable {sideOf : ℕ → Side} {side : Side} {u : FillUpdate} {items : List FillUpdate}
variable {working working' : List WorkingOrder} {m m' : OrderManager} {limit : ℚ}

theorem fillFor_nonneg : 0 ≤ fillFor sideOf side u := by
  rw [fillFor]
  split_ifs with h
  · exact h.2.le
  · exact le_rfl

theorem fillFor_of_nonpos (h : u.fillQty ≤ 0) : fillFor sideOf side u = 0 :=
  if_neg fun hpos => absurd hpos.2 (not_lt.mpr h)

theorem queued_nonneg : 0 ≤ queued sideOf items side := by
  refine List.sum_nonneg fun x hx => ?_
  obtain ⟨u, -, rfl⟩ := List.mem_map.mp hx
  exact fillFor_nonneg

theorem queued_cons : queued sideOf (u :: items) side =
    fillFor sideOf side u + queued sideOf items side := List.sum_cons

theorem queued_concat : queued sideOf (items ++ [u]) side =
    queued sideOf items side + fillFor sideOf side u := by
  rw [queued, List.map_append, List.sum_append, List.map_singleton, List.sum_singleton]
  rfl

/-- An order that the queue has no fills of may get a side. -/
theorem queued_update {k : ℕ} (s : Side)
    (h : ∀ u ∈ items, 0 < u.fillQty → u.clientOrderId < k) :
    queued (Function.update sideOf k s) items side = queued sideOf items side := by
  refine congrArg List.sum (List.map_congr_left fun u hu => ?_)
  rw [fillFor, fillFor]
  by_cases hpos : 0 < u.fillQty
  · rw [Function.update_of_ne (h u hu hpos).ne]
  · rw [if_neg fun h => hpos h.2, if_neg fun h => hpos h.2]

/-- Orders that end take their quantity with them. -/
theorem unfilledQty_le_of_sublist (hnonneg : ∀ o ∈ working, 0 ≤ o.unfilled)
    (hsub : working'.Sublist working) : unfilledQty working' side ≤ unfilledQty working side := by
  refine (hsub.map _).sum_le_sum fun x hx => ?_
  obtain ⟨o, ho, rfl⟩ := List.mem_map.mp hx
  split_ifs
  · exact hnonneg o ho
  · exact le_rfl

/-! ## What the orders of a run keep -/

/-- **The invariant of the orders**: the sides recorded are those of the orders, and the exposure of
both sides is within the limit. -/
structure Covered (limit : ℚ) (m : OrderManager) (working : List WorkingOrder)
    (sideOf : ℕ → Side) : Prop where
  numbered : m.WellNumbered
  side_eq : ∀ mo ∈ m.slots, ∀ k, mo.key = some k → mo.order.side = sideOf k
  queued_lt : ∀ u ∈ m.fillQueue.items, 0 < u.fillQty → u.clientOrderId < m.nextId
  working_lt : ∀ o ∈ working, o.clientOrderId < m.nextId
  working_side : ∀ o ∈ working, o.side = sideOf o.clientOrderId
  unfilled_nonneg : ∀ o ∈ working, 0 ≤ o.unfilled
  exposure_le : ∀ side, side.signed m.position + queued sideOf m.fillQueue.items side +
    unfilledQty working side ≤ limit

namespace Covered

theorem new (hlimit : 0 ≤ limit) : Covered limit (.new 0) [] fun _ => .bid where
  numbered := OrderManager.wellNumbered_new 0
  side_eq mo hmem k hk := by
    rw [List.eq_of_mem_replicate hmem] at hk
    cases hk
  queued_lt u hu := by simp [OrderManager.new] at hu
  working_lt o ho := absurd ho List.not_mem_nil
  working_side o ho := absurd ho List.not_mem_nil
  unfilled_nonneg o ho := absurd ho List.not_mem_nil
  exposure_le side := by cases side <;> simpa [OrderManager.new, queued, unfilledQty] using hlimit

/-- A change of the ledger is of no concern here. -/
theorem withLedger (h : Covered limit m working sideOf) (ledger : PositionLedger) :
    Covered limit { m with ledger } working sideOf :=
  ⟨⟨h.numbered.unique, h.numbered.lt⟩, h.side_eq, h.queued_lt, h.working_lt, h.working_side,
    h.unfilled_nonneg, h.exposure_le⟩

/-- Orders may end. -/
theorem sublist (h : Covered limit m working sideOf) (hsub : working'.Sublist working) :
    Covered limit m working' sideOf where
  numbered := h.numbered
  side_eq := h.side_eq
  queued_lt := h.queued_lt
  working_lt o ho := h.working_lt o (hsub.subset ho)
  working_side o ho := h.working_side o (hsub.subset ho)
  unfilled_nonneg o ho := h.unfilled_nonneg o (hsub.subset ho)
  exposure_le side := by
    have hle : unfilledQty working' side ≤ unfilledQty working side :=
      unfilledQty_le_of_sublist h.unfilled_nonneg hsub
    linarith [h.exposure_le side]

theorem filter (h : Covered limit m working sideOf) (p : WorkingOrder → Bool) :
    Covered limit m (working.filter p) sideOf := h.sublist List.filter_sublist

theorem ended (h : Covered limit m working sideOf) (u : FillUpdate) :
    Covered limit m (Quoting.ended u working) sideOf := by
  rw [Quoting.ended]
  split_ifs
  · exact h.filter _
  · exact h

/-! ### Applying an update -/

/-- A fill that is applied moves the position of its side by no more than what waited in the
queue. -/
theorem signed_position_applyFill (h : Covered limit m working sideOf) (now : ℤ) :
    side.signed (m.applyFill now u).position ≤ side.signed m.position + fillFor sideOf side u := by
  cases hopen : m.isOpen u.clientOrderId with
  | false =>
    rw [OrderManager.applyFill_of_closed hopen]
    exact le_add_of_nonneg_right fillFor_nonneg
  | true =>
    obtain ⟨j, mo, hget, hkey, happly⟩ := OrderManager.applyFill_of_open now hopen
    have hside : mo.order.side = sideOf u.clientOrderId :=
      h.side_eq mo (List.mem_of_getElem? hget) _ hkey
    rw [happly, OrderManager.applyFillAt]
    by_cases hpos : 0 < u.fillQty
    · rw [fillFor, ← hside]
      cases side <;> cases mo.order.side <;> simp [hpos] <;> linarith
    · rw [fillFor_of_nonpos (not_lt.mp hpos), add_zero]
      simp [hpos]

theorem applyFill (h : Covered limit m working sideOf) {q : SpscQueue FillUpdate 7}
    (hpop : m.fillQueue.pop = some (u, q)) (now : ℤ) :
    Covered limit (({ m with fillQueue := q } : OrderManager).applyFill now u) working sideOf := by
  have hitems : m.fillQueue.items = u :: q.items := by
    obtain ⟨-, hnone⟩ | ⟨u', q', hsome, hitems⟩ := m.fillQueue.pop_spec
    · rw [hnone] at hpop
      cases hpop
    · rw [hsome] at hpop
      cases hpop
      exact hitems
  have hqueue : ∀ v ∈ q.items, v ∈ m.fillQueue.items := by
    intro v hv
    rw [hitems]
    exact List.mem_cons_of_mem u hv
  -- the manager with the update popped and not yet applied
  have hm : OrderManager.WellNumbered { m with fillQueue := q } :=
    ⟨h.numbered.unique, h.numbered.lt⟩
  have hpopped : ∀ side, side.signed m.position + fillFor sideOf side u +
      queued sideOf q.items side + unfilledQty working side ≤ limit := by
    intro side
    have hle := h.exposure_le side
    rw [hitems, queued_cons] at hle
    linarith
  have hbefore : Covered limit { m with fillQueue := q } working sideOf :=
    ⟨hm, h.side_eq, fun v hv => h.queued_lt v (hqueue v hv), h.working_lt, h.working_side,
      h.unfilled_nonneg, fun side => by
        have hnonneg : 0 ≤ fillFor sideOf side u := fillFor_nonneg
        have hle := hpopped side
        simp only
        linarith⟩
  refine ⟨hm.applyFill now u, fun mo hmem k hk => ?_, ?_, ?_, h.working_side, h.unfilled_nonneg,
    fun side => ?_⟩
  · obtain hmem | ⟨old, hold, rfl⟩ := OrderManager.mem_slots_applyFill hmem
    · exact h.side_eq mo hmem k hk
    · rw [OrderManager.key_updatedBy] at hk
      split_ifs at hk
      exact h.side_eq old hold k hk
  · rw [OrderManager.fillQueue_applyFill, OrderManager.nextId_applyFill]
    exact hbefore.queued_lt
  · rw [OrderManager.nextId_applyFill]
    exact h.working_lt
  · rw [OrderManager.fillQueue_applyFill]
    have hmove : side.signed (({ m with fillQueue := q } : OrderManager).applyFill now u).position ≤
        side.signed m.position + fillFor sideOf side u := hbefore.signed_position_applyFill now
    have hle := hpopped side
    linarith

/-! ### A report of the venue -/

/-- An update that is received may join the queue. -/
theorem queued_receive (m : OrderManager) (u : FillUpdate) :
    (m.receive u = m ∨ ∃ q : SpscQueue FillUpdate 7, m.receive u = { m with fillQueue := q } ∧
      q.items = m.fillQueue.items ++ [u]) := by
  obtain ⟨-, hfull⟩ | ⟨-, q, hq, hitems⟩ := m.fillQueue.push_spec u
  · exact .inl (by simp [OrderManager.receive, hfull])
  · exact .inr ⟨q, by simp [OrderManager.receive, hq], hitems⟩

/-- An update is received when the working orders have made room for what it adds to the queue. -/
theorem receive (h : Covered limit m working sideOf)
    (hid : 0 < u.fillQty → u.clientOrderId < m.nextId)
    (hroom : ∀ side, side.signed m.position + queued sideOf m.fillQueue.items side +
      fillFor sideOf side u + unfilledQty working side ≤ limit) :
    Covered limit (m.receive u) working sideOf := by
  obtain hsame | ⟨q, hq, hitems⟩ := queued_receive m u
  · rw [hsame]
    exact h
  · rw [hq]
    refine ⟨⟨h.numbered.unique, h.numbered.lt⟩, h.side_eq, fun v hv hpos => ?_, h.working_lt,
      h.working_side, h.unfilled_nonneg, fun side => ?_⟩
    · simp only [hitems, List.mem_append, List.mem_singleton] at hv
      obtain hv | rfl := hv
      · exact h.queued_lt v hv hpos
      · exact hid hpos
    · simp only [hitems, queued_concat]
      linarith [hroom side]

theorem report {t : Quoting} (h : Covered limit t.manager t.working t.sideOf) (u : FillUpdate) :
    Covered limit (t.report u).manager (t.report u).working (t.report u).sideOf := by
  rw [Quoting.report]
  by_cases hpos : u.fillQty ≤ 0
  · rw [if_pos hpos]
    refine (h.receive (fun h => absurd h (not_lt.mpr hpos)) fun side => ?_).ended u
    rw [fillFor_of_nonpos hpos, add_zero]
    exact h.exposure_le side
  · rw [if_neg hpos]
    cases hcan : t.canFill u with
    | none => exact h
    | some i =>
      obtain ⟨o, ho, hfits, -⟩ := SlotPool.getElem?_of_findIdx? hcan
      rw [Bool.and_eq_true, beq_iff_eq, decide_eq_true_eq] at hfits
      have hmem := List.mem_of_getElem? ho
      -- the fill moves from the order to the queue
      have hmoved : ∀ side, unfilledQty (t.working.modify i fun o =>
          { o with unfilled := o.unfilled - u.fillQty }) side + fillFor t.sideOf side u =
            unfilledQty t.working side := by
        intro side
        have hsum := SlotPool.sum_map_modify ho
          (fun o => { o with unfilled := o.unfilled - u.fillQty })
          fun o => if o.side = side then o.unfilled else 0
        rw [unfilledQty, hsum, unfilledQty, fillFor, ← hfits.1, ← h.working_side o hmem]
        by_cases hside : o.side = side <;> simp [hside, not_le.mp hpos]
      have hfilled : Covered limit t.manager (t.working.modify i fun o =>
          { o with unfilled := o.unfilled - u.fillQty }) t.sideOf := by
        refine ⟨h.numbered, h.side_eq, h.queued_lt, ?_, ?_, ?_, fun side => ?_⟩
        · exact SlotPool.forall_mem_modify h.working_lt fun o ho =>
            h.working_lt o (List.mem_of_getElem? ho)
        · exact SlotPool.forall_mem_modify h.working_side fun o ho =>
            h.working_side o (List.mem_of_getElem? ho)
        · refine SlotPool.forall_mem_modify h.unfilled_nonneg fun o' ho' => ?_
          cases ho.symm.trans ho'
          exact sub_nonneg.mpr hfits.2
        · have hnonneg : 0 ≤ fillFor t.sideOf side u := fillFor_nonneg
          linarith [h.exposure_le side, hmoved side]
      refine (hfilled.receive (fun _ => ?_) fun side => ?_).ended u
      · rw [← hfits.1]
        exact h.working_lt o hmem
      · linarith [h.exposure_le side, hmoved side]

/-! ### A submission -/

/-- A submission opens a slot for its order. -/
theorem opened (h : Covered limit m working sideOf) {order : Order} {now : ℤ} {i : ℕ}
    (hbegin : m.beginSubmit order now = some (i, m')) :
    Covered limit m' working (Function.update sideOf m.nextId order.side) := by
  obtain ⟨hnumbered, hid, -, -, hm'⟩ := OrderManager.beginSubmit_spec h.numbered hbegin
  have hqueue : m'.fillQueue = m.fillQueue := by rw [hm']
  have hposition : m'.position = m.position := by rw [hm']
  have hslots : m'.slots = m.slots.modify i fun _ =>
      { order := m.numbered order now, state := .pending, filledQty := 0, avgFillPrice := 0,
        active := true } := by rw [hm']
  have hlt : ∀ k, k < m.nextId → k < m'.nextId := fun k hk => by omega
  refine ⟨hnumbered, fun mo hmem k hk => ?_, fun u hu hpos => ?_, fun o ho => ?_, fun o ho => ?_,
    h.unfilled_nonneg, fun side => ?_⟩
  · rw [hslots] at hmem
    obtain hmem | ⟨-, -, rfl⟩ := SlotPool.mem_modify hmem
    · rw [Function.update_of_ne (h.numbered.lt mo hmem k hk).ne]
      exact h.side_eq mo hmem k hk
    · obtain ⟨-, rfl⟩ := ManagedOrder.key_eq_some.mp hk
      simp [OrderManager.numbered]
  · rw [hqueue] at hu
    exact hlt _ (h.queued_lt u hu hpos)
  · exact hlt _ (h.working_lt o ho)
  · rw [Function.update_of_ne (h.working_lt o ho).ne]
    exact h.working_side o ho
  · rw [hqueue, hposition, queued_update order.side h.queued_lt]
    exact h.exposure_le side

/-- The venue takes up an order for which there is room. -/
theorem taken (h : Covered limit m working sideOf) {o : WorkingOrder}
    (hid : o.clientOrderId < m.nextId)
    (hside : o.side = sideOf o.clientOrderId) (hunfilled : 0 ≤ o.unfilled)
    (hroom : o.side.signed m.position + queued sideOf m.fillQueue.items o.side +
      unfilledQty working o.side + o.unfilled ≤ limit) :
    Covered limit m (o :: working) sideOf where
  numbered := h.numbered
  side_eq := h.side_eq
  queued_lt := h.queued_lt
  working_lt := List.forall_mem_cons.mpr ⟨hid, h.working_lt⟩
  working_side := List.forall_mem_cons.mpr ⟨hside, h.working_side⟩
  unfilled_nonneg := List.forall_mem_cons.mpr ⟨hunfilled, h.unfilled_nonneg⟩
  exposure_le side := by
    rw [unfilledQty, List.map_cons, List.sum_cons]
    by_cases heq : o.side = side
    · rw [if_pos heq, ← heq]
      rw [unfilledQty] at hroom
      linarith
    · rw [if_neg heq, zero_add]
      exact h.exposure_le side

/-- The answer of the connector frees the slot or enters the order in the ledger. -/
theorem finished (h : Covered limit m working sideOf) (i : ℕ) (order : Order)
    (result : ConnectorResult) : Covered limit
    (m.finishSubmit i order result).2 working sideOf := by
  rw [OrderManager.finishSubmit]
  split_ifs
  · refine ⟨h.numbered.modify (fun _ _ => .inr (by simp [ManagedOrder.key])) rfl rfl,
      fun mo hmem k hk => ?_, h.queued_lt, h.working_lt, h.working_side, h.unfilled_nonneg,
      h.exposure_le⟩
    obtain hmem | ⟨old, -, rfl⟩ := SlotPool.mem_modify hmem
    · exact h.side_eq mo hmem k hk
    · simp [ManagedOrder.key] at hk
  · exact h.withLedger _

end Covered

theorem position_finishSubmit (m : OrderManager) (i : ℕ) (order : Order)
    (result : ConnectorResult) : (m.finishSubmit i order result).2.position = m.position := by
  rw [OrderManager.finishSubmit]
  split_ifs <;> rfl

end Quoting

/-! ## What the tasks of a call keep -/

/-- An order that is about to be sent fits the limit at this position, with nothing else on its
side. No draining, which moves the position, lies ahead. -/
def Task.Fits (limit position : ℚ) : Task → Prop
  | .drainFills => False
  | .submit _ order => 0 ≤ order.quantity ∧ order.side.signed position + order.quantity ≤ limit
  | _ => True

namespace Quoting

open NeuralAlphaMarketMaker

variable {position mid limit : ℚ} {sig : StampedAlphaSignal} {regime : StampedRegimeSignal}
  {cfg : MarketMakerConfig}
variable {t : Quoting} {r : Reading} {pow : ℚ → ℚ → ℚ}

/-- The tasks of a call that still drains, or of one that fits. -/
def Planned (limit position : ℚ) (tasks : List Task) : Prop :=
  tasks = [.drainFills, .readMarket] ∨ ∀ task ∈ tasks, task.Fits limit position

theorem fits_cancelQuotes : ∀ task ∈ cancelQuotes, task.Fits limit position := by
  intro task htask
  obtain rfl | rfl : task = .cancel .bid ∨ task = .cancel .ask := by
    simpa [cancelQuotes] using htask
  · trivial
  · trivial

/-- A stop order takes the position to zero. -/
theorem fits_stopOrder {mm : NeuralAlphaMarketMaker} {order : Order}
    (h : mm.stopOrder position mid = some order) (hlimit : 0 ≤ limit) :
    0 ≤ order.quantity ∧ order.side.signed position + order.quantity ≤ limit := by
  rw [stopOrder] at h
  by_cases hlong : position > 0
  · simp only [if_pos hlong, Option.ite_none_left_eq_some, Option.ite_none_right_eq_some,
      Option.some.injEq] at h
    obtain ⟨-, -, rfl⟩ := h
    refine ⟨abs_nonneg position, ?_⟩
    simpa [stopLimitOrder, abs_of_pos hlong] using hlimit
  · simp only [if_neg hlong, Option.ite_none_left_eq_some, Option.ite_none_right_eq_some,
      Option.some.injEq] at h
    obtain ⟨-, -, rfl⟩ := h
    refine ⟨abs_nonneg position, ?_⟩
    simpa [stopLimitOrder, abs_of_nonpos (not_lt.mp hlong)] using hlimit

/-- The orders of `post_quotes` fit, because it checks them. -/
theorem fits_postQuotes (hqty : 0 ≤ t.maker.cfg.orderQty) :
    ∀ task ∈ t.postQuotes pow r mid sig regime,
      task.Fits t.maker.cfg.maxPosition t.position := by
  intro task htask
  rw [postQuotes] at htask
  cases hquotes : t.maker.quotes pow t.position mid sig regime r.now r.nowRegime with
  | none =>
    rw [hquotes] at htask
    exact fits_cancelQuotes task htask
  | some quotes =>
    simp only [hquotes, List.mem_append, List.mem_singleton] at htask
    obtain (hbid | hask) | rfl := htask
    · split_ifs at hbid with hcheck
      · obtain rfl := List.mem_singleton.mp hbid
        exact ⟨hqty, hcheck⟩
      · cases hbid
    · split_ifs at hask with hcheck
      · obtain rfl := List.mem_singleton.mp hask
        refine ⟨hqty, ?_⟩
        simp only [limitOrder, Side.signed_ask]
        linarith
      · cases hask
    · trivial

/-- **The invariant of a run.** -/
structure Sound (cfg : MarketMakerConfig) (t : Quoting) : Prop where
  cfg_eq : t.maker.cfg = cfg
  covered : Covered cfg.maxPosition t.manager t.working t.sideOf
  planned : Planned cfg.maxPosition t.position t.tasks

/-- The order that the venue takes up at an event. -/
def takenUp (t : Quoting) : Event → Option WorkingOrder
  | .proceed r =>
    match t.tasks with
    | .submit _ order :: _ => t.taking r order
    | _ => none
  | _ => none

/-- **When the limit is kept**: an order that the venue takes up is alone on its side, with no order
that works and no fill in the queue, or what is there leaves room for it. -/
def LeavesRoom (t : Quoting) (e : Event) : Prop :=
  ∀ o ∈ t.takenUp e, (t.workingQty o.side = 0 ∧ t.queuedQty o.side = 0) ∨
    t.exposure o.side + o.unfilled ≤ t.maker.cfg.maxPosition

instance (t : Quoting) (e : Event) : Decidable (t.LeavesRoom e) :=
  inferInstanceAs (Decidable (∀ o ∈ t.takenUp e, _ ∨ _))

theorem position_applyFill_maker (t : Quoting) (now : ℤ) (u : FillUpdate) :
    (t.applyFill now u).manager = t.manager.applyFill now u ∧
      (t.applyFill now u).working = t.working ∧ (t.applyFill now u).sideOf = t.sideOf ∧
      (t.applyFill now u).tasks = t.tasks ∧ (t.applyFill now u).maker.cfg = t.maker.cfg := by
  cases hfind : t.manager.findOrder u.clientOrderId with
  | none => simp [applyFill, OrderManager.applyFill, hfind]
  | some i =>
    simp only [applyFill, hfind, true_and]
    split_ifs
    · exact cfg_onFill _ _ _ _
    · rfl

/-- Popping and applying one update. -/
theorem Sound.drain (h : Sound cfg t) {rest : List Task} (htasks : t.tasks = .drainFills :: rest)
    (r : Reading) : Sound cfg ({ t with tasks := rest }.run pow r .drainFills) := by
  have hrest : rest = [.readMarket] := by
    obtain hdrain | hfits := h.planned
    · rw [htasks] at hdrain
      exact (List.cons.inj hdrain).2
    · exact (hfits .drainFills (htasks ▸ List.mem_cons_self)).elim
  subst hrest
  rw [run]
  cases hpop : t.manager.fillQueue.pop with
  | none =>
    refine ⟨h.cfg_eq, h.covered, .inr fun task htask => ?_⟩
    obtain rfl := List.mem_singleton.mp htask
    trivial
  | some popped =>
    obtain ⟨u, q⟩ := popped
    obtain ⟨hmanager, hworking, hsideOf, hleft, hcfg⟩ := position_applyFill_maker
      { t with manager := { t.manager with fillQueue := q }, tasks := [.readMarket] } r.now u
    refine ⟨hcfg.trans h.cfg_eq, ?_, .inl (congrArg _ hleft)⟩
    simp only [hmanager, hworking, hsideOf]
    exact h.covered.applyFill hpop r.now

theorem Sound.send (h : Sound cfg t)
    (hfits : ∀ task ∈ t.tasks, task.Fits cfg.maxPosition t.position)
    (role : OrderRole) {order : Order}
    (horder : (Task.submit role order).Fits cfg.maxPosition t.position)
    (hroom : ∀ o ∈ t.taking r order, (t.workingQty o.side = 0 ∧ t.queuedQty o.side = 0) ∨
      t.exposure o.side + o.unfilled ≤ cfg.maxPosition) :
    Sound cfg (t.send r role order) := by
  have hzero : Sound cfg { t with maker := t.maker.setOrderId role 0 } :=
    ⟨(cfg_setOrderId _ _ _).trans h.cfg_eq, h.covered, h.planned⟩
  rw [Quoting.send]
  by_cases hchecks : r.checksPass = true
  · rw [hchecks, Bool.not_true, if_neg Bool.false_ne_true]
    cases hbegin : t.manager.beginSubmit order r.now with
    | none => exact hzero
    | some opened =>
      obtain ⟨i, m⟩ := opened
      obtain ⟨-, hid, -, -, hm⟩ := OrderManager.beginSubmit_spec h.covered.numbered hbegin
      have hposition : m.position = t.position := by rw [hm]; rfl
      have hqueue : m.fillQueue = t.manager.fillQueue := by rw [hm]
      have hopened := h.covered.opened hbegin
      refine ⟨h.cfg_eq, ?_, .inr fun task htask => ?_⟩
      · cases htaking : t.taking r order with
        | none => exact hopened
        | some o =>
          have ho : o = ⟨t.manager.nextId, order.side, order.quantity⟩ := by
            rw [taking] at htaking
            split_ifs at htaking
            exact (Option.some.inj htaking).symm
          subst ho
          refine hopened.taken (by simp [hid]) (by simp) horder.1 ?_
          -- alone on its side the order is within the limit as it was checked
          have hle : t.exposure order.side + order.quantity ≤ cfg.maxPosition := by
            obtain ⟨hworking, hqueued⟩ | hleft := hroom _ htaking
            · rw [exposure, hworking, hqueued, add_zero, add_zero]
              exact horder.2
            · exact hleft
          rw [hqueue, hposition, queued_update order.side h.covered.queued_lt]
          exact hle
      · obtain rfl | htask := List.mem_cons.mp htask
        · trivial
        · rw [position, hposition]
          exact hfits task htask
  · rw [Bool.not_eq_true] at hchecks
    rw [hchecks, Bool.not_false, if_pos rfl]
    exact hzero

/-- **What one task keeps**, from a state whose tasks fit. -/
theorem Sound.run (h : Sound cfg t) (hqty : 0 ≤ cfg.orderQty) (hlimit : 0 ≤ cfg.maxPosition)
    (hfits : ∀ task ∈ t.tasks, task.Fits cfg.maxPosition t.position) {task : Task}
    (htask : task.Fits cfg.maxPosition t.position)
    (hroom : ∀ role order, task = .submit role order → ∀ o ∈ t.taking r order,
      (t.workingQty o.side = 0 ∧ t.queuedQty o.side = 0) ∨
        t.exposure o.side + o.unfilled ≤ cfg.maxPosition) :
    Sound cfg (t.run pow r task) := by
  -- tasks that fit may be put in front
  have hpush : ∀ tasks : List Task, (∀ task ∈ tasks, task.Fits cfg.maxPosition t.position) →
      Sound cfg { t with tasks := tasks ++ t.tasks } := fun tasks htasks =>
    ⟨h.cfg_eq, h.covered, .inr (List.forall_mem_append.mpr ⟨htasks, hfits⟩)⟩
  cases task with
  | drainFills => exact htask.elim
  | readMarket =>
    rw [Quoting.run]
    split_ifs
    · exact h
    · have hread := hpush [.checkStop r.book.midPrice,
        .considerQuotes r.book.midPrice r.signal r.regime] (by simp [Task.Fits])
      exact ⟨h.cfg_eq, h.covered.withLedger _, hread.planned⟩
  | checkStop mid =>
    rw [Quoting.run]
    cases hstop : t.maker.stopOrder t.position mid with
    | none => exact h
    | some order =>
      refine hpush _ (List.forall_mem_append.mpr ⟨fits_cancelQuotes, fun task htask => ?_⟩)
      obtain rfl := List.mem_singleton.mp htask
      exact fits_stopOrder hstop hlimit
  | considerQuotes mid sig regime =>
    rw [Quoting.run]
    split_ifs
    · exact hpush [.postQuotes mid sig regime] (by simp [Task.Fits])
    · exact hpush _ (List.forall_mem_append.mpr ⟨fits_cancelQuotes, by simp [Task.Fits]⟩)
    · exact h
  | cancel side =>
    rw [Quoting.run, cancel]
    split_ifs
    · exact h
    · exact ⟨(cfg_setOrderId _ _ _).trans h.cfg_eq, h.covered.filter _, h.planned⟩
    · exact ⟨(cfg_setOrderId _ _ _).trans h.cfg_eq, h.covered, h.planned⟩
  | postQuotes mid sig regime =>
    refine hpush _ fun task htask => ?_
    have hquote := fits_postQuotes (h.cfg_eq ▸ hqty) task htask
    rwa [h.cfg_eq] at hquote
  | submit role order => exact h.send hfits role htask (hroom role order rfl)
  | answered role i order result =>
    refine ⟨(cfg_setOrderId _ _ _).trans h.cfg_eq, h.covered.finished i order result, ?_⟩
    rw [Quoting.run, position, position_finishSubmit]
    exact h.planned
  | rememberQuotes mid signalBps => exact ⟨h.cfg_eq, h.covered, h.planned⟩

/-- **What one event keeps.** -/
theorem Sound.step (h : Sound cfg t) (hqty : 0 ≤ cfg.orderQty) (hlimit : 0 ≤ cfg.maxPosition)
    {e : Event} (hroom : t.LeavesRoom e) : Sound cfg (t.step pow e) := by
  cases e with
  | onBookUpdate killed =>
    rw [Quoting.step]
    split_ifs
    · exact ⟨h.cfg_eq, h.covered, .inl rfl⟩
    · exact h
  | report u =>
    have hcovered := h.covered.report u
    have hrest : (t.report u).maker = t.maker ∧ (t.report u).position = t.position ∧
        (t.report u).tasks = t.tasks := by
      have hposition : (t.manager.receive u).position = t.manager.position := by
        obtain hsame | ⟨q, hq, -⟩ := Covered.queued_receive t.manager u
        · rw [hsame]
        · rw [hq]
      rw [Quoting.report]
      split_ifs
      · exact ⟨rfl, hposition, rfl⟩
      · cases t.canFill u with
        | none => exact ⟨rfl, rfl, rfl⟩
        | some i => exact ⟨rfl, hposition, rfl⟩
    obtain ⟨hmaker, hposition, htasks⟩ := hrest
    refine ⟨?_, hcovered, ?_⟩
    · rw [Quoting.step, hmaker]
      exact h.cfg_eq
    · rw [Quoting.step, hposition, htasks]
      exact h.planned
  | setAlphaSignal signalBps riskScore => exact ⟨h.cfg_eq, h.covered, h.planned⟩
  | proceed r =>
    rw [Quoting.step]
    cases htasks : t.tasks with
    | nil => exact h
    | cons task rest =>
      obtain hdrain | hfits := h.planned
      · obtain ⟨rfl, -⟩ := List.cons.inj (htasks.symm.trans hdrain)
        exact h.drain htasks r
      · rw [htasks, List.forall_mem_cons] at hfits
        have hrest : Sound cfg { t with tasks := rest } := ⟨h.cfg_eq, h.covered, .inr hfits.2⟩
        refine hrest.run hqty hlimit hfits.2 hfits.1 fun role order htask o ho => ?_
        subst htask
        rw [← h.cfg_eq]
        have htaken : o ∈ t.taking r order := ho
        refine hroom o ?_
        rw [takenUp, htasks]
        exact htaken

/-- The exposure covers the position and the orders that work. -/
theorem Sound.within (h : Sound cfg t) :
    t.position + t.workingQty .bid ≤ cfg.maxPosition ∧
      -cfg.maxPosition ≤ t.position - t.workingQty .ask := by
  have hqueued : ∀ side, 0 ≤ queued t.sideOf t.manager.fillQueue.items side :=
    fun side => queued_nonneg
  have hbid := h.covered.exposure_le .bid
  have hask := h.covered.exposure_le .ask
  simp only [Side.signed_bid, Side.signed_ask] at hbid hask
  simp only [position, workingQty]
  simp only [unfilledQty] at hbid hask
  constructor
  · linarith [hqueued .bid]
  · linarith [hqueued .ask]

/-- **The position limit.** From a flat start, in every run in which each order that the venue takes
up has room, the position with all working bids stays below the limit, and the position without all
working asks above its negative. -/
theorem position_limit_run (pow : ℚ → ℚ → ℚ) (maker : NeuralAlphaMarketMaker)
    (hqty : 0 < maker.cfg.orderQty) (hmax : maker.cfg.orderQty ≤ maker.cfg.maxPosition)
    (events : List Event) (hroom : AllSteps (Quoting.step pow) LeavesRoom (start maker) events) :
    let t := events.foldl (Quoting.step pow) (start maker)
    t.position + t.workingQty .bid ≤ maker.cfg.maxPosition ∧
      -maker.cfg.maxPosition ≤ t.position - t.workingQty .ask := by
  have hlimit : 0 ≤ maker.cfg.maxPosition := hqty.le.trans hmax
  have hstart : Sound maker.cfg (start maker) :=
    ⟨rfl, Covered.new hlimit, .inr fun task htask => absurd htask List.not_mem_nil⟩
  have hstep : ∀ (t : Quoting) (e : Event), Sound maker.cfg t → t.LeavesRoom e →
      Sound maker.cfg (t.step pow e) := fun t e ht he => ht.step hqty.le hlimit he
  exact (AllSteps.foldl hstep hstart hroom).within

/-! ## Runs -/

/-- A market maker that quotes one unit and may hold one. -/
def oneUnit : NeuralAlphaMarketMaker where
  cfg :=
    { halfSpreadBps := 5, orderQty := 1, maxPosition := 1, requoteBps := 1, requoteSignal := 1
      shockBlockThreshold := 1, illiquidBlockThreshold := 1 }
  bidId := 0
  askId := 0
  stopId := 0
  lastQuotedMid := 0
  lastSignalBps := 0
  entryPrice := 0
  injectedSignalBps := 0
  injectedRiskScore := 0
  injectedSignalSet := false

/-- A book with a level on both sides of this price. -/
def bookAround (mid : ℚ) : BookManager :=
  ⟨{ OrderBook.new 1 4 with
      basePrice := mid - 2, initialized := true
      bids := ⟨[0, 1, 0, 0], [0, 1, 0, 0]⟩, asks := ⟨[0, 0, 0, 1], [0, 0, 0, 1]⟩ }⟩

/-- A call of `on_book_update` with the middle at a price. -/
def callAt (mid : ℚ) (cancelled : Bool) (tasks : ℕ) : List Event :=
  .onBookUpdate false ::
    List.replicate tasks (.proceed { book := bookAround mid, cancelled := cancelled })

/-- The first bid fills at the venue. -/
def bidFilled : FillUpdate where
  clientOrderId := 1
  fillPrice := 100
  fillQty := 1
  cumulativeFilledQty := 1
  avgFillPrice := 100
  newState := .filled

/-- Both quotes are posted, the bid fills, and the next call cancels the ask and quotes again. -/
def filledQuotes : List Event :=
  callAt 100 true 10 ++ [.report bidFilled] ++ callAt 110 true 12

theorem position_limit_run_filledQuotes :
    let t := filledQuotes.foldl (Quoting.step fun _ _ => 1) (start oneUnit)
    (t.position = 1 ∧ t.workingQty .ask = 1) ∧
      t.position + t.workingQty .bid ≤ oneUnit.cfg.maxPosition ∧
      -oneUnit.cfg.maxPosition ≤ t.position - t.workingQty .ask :=
  ⟨by decide +kernel, position_limit_run (fun _ _ => 1) oneUnit (by decide +kernel)
    (by decide +kernel) filledQuotes (by decide +kernel)⟩

/-- The middle moves, the cancellation of the bid fails, and a second bid is posted. -/
theorem failed_cancel_breaks_limit :
    ¬ ∀ (pow : ℚ → ℚ → ℚ) (maker : NeuralAlphaMarketMaker), 0 < maker.cfg.orderQty →
      maker.cfg.orderQty ≤ maker.cfg.maxPosition → ∀ events : List Event,
      let t := events.foldl (Quoting.step pow) (start maker)
      t.position + t.workingQty .bid ≤ maker.cfg.maxPosition ∧
        -maker.cfg.maxPosition ≤ t.position - t.workingQty .ask := by
  intro hlimit
  have hbid := (hlimit (fun _ _ => 1) oneUnit (by decide +kernel) (by decide +kernel)
    (callAt 100 true 10 ++ callAt 110 false 9)).1
  exact absurd hbid (by decide +kernel)

end Quoting

end TradingInfrastructure
