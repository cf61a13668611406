import TradingInfrastructure.Engine.VenueQualityRuntime
import TradingInfrastructure.Foundations.SlotPool
import TradingInfrastructure.Foundations.Runs

/-!
# Which orders the engine tracks

The engine starts to track an order when its submission has returned (`on_submit`), and stops when
a terminal update of it arrives (`on_fill`). A connector may hand over updates while `submit_order`
runs. A terminal update that arrives then finds no slot to release, and the order takes one
afterwards that nothing releases; a fill that arrives then is not scored. When no accepted order
gets a fill or a terminal update inside its own submission, the slots are those of the orders that
are live, and every fill of them is scored (`tracking_sound`).
-/

namespace TradingInfrastructure

open SlotPool

/-- An order, by its venue and its id. -/
abbrev OrderKey := Exchange × ℕ

/-- The order in a slot. -/
def TrackedOrder.key (tracked : TrackedOrder) : Option OrderKey :=
  if tracked.active then some (tracked.exchange, tracked.clientOrderId) else none

/-- The key of the order that an update is about. -/
def FillUpdate.key (u : FillUpdate) (exchange : Exchange) : OrderKey := (exchange, u.clientOrderId)

/-- The update ends its order. -/
def FillUpdate.Terminal (u : FillUpdate) : Prop :=
  u.newState = .filled ∨ u.newState = .canceled ∨ u.newState = .rejected

instance (u : FillUpdate) : Decidable u.Terminal := inferInstanceAs (Decidable (_ ∨ _))

/-- The update reports a fill. -/
def FillUpdate.IsFill (u : FillUpdate) : Prop := 0 < u.fillQty ∧ u.newState ≠ .rejected

instance (u : FillUpdate) : Decidable u.IsFill := inferInstanceAs (Decidable (_ ∧ _))

namespace VenueQualityRuntime

variable {r : VenueQualityRuntime} {k : OrderKey} {id i : ℕ} {exchange : Exchange}
  {update : FillUpdate} {now : ℤ} {mid : Exchange → ℚ} {order : Order} {result : ConnectorResult}

/-! ## The slots -/

/-- The order holds a slot. -/
def Holds (r : VenueQualityRuntime) (k : OrderKey) : Prop :=
  HasKey TrackedOrder.key r.trackedOrders k

/-- No order holds two slots. -/
def Unique (r : VenueQualityRuntime) : Prop := KeysUnique TrackedOrder.key r.trackedOrders

theorem isKey_iff (tracked : TrackedOrder) :
    (tracked.active && tracked.clientOrderId == id && tracked.exchange == exchange) = true ↔
      tracked.key = some (exchange, id) := by
  unfold TrackedOrder.key
  split_ifs with hactive
  · simp [hactive, and_comm]
  · simp [hactive]

/-- The slot that `find` returns. -/
theorem find_spec (h : r.find id exchange = some i) :
    ∃ tracked, r.trackedOrders[i]? = some tracked ∧ tracked.key = some (exchange, id) ∧
      r.tracked i = tracked := by
  obtain ⟨tracked, hi, hp, -⟩ := getElem?_of_findIdx? h
  refine ⟨tracked, hi, (isKey_iff tracked).mp hp, ?_⟩
  rw [VenueQualityRuntime.tracked, List.getD_eq_getElem?_getD, hi, Option.getD_some]

theorem find_eq_none_iff : r.find id exchange = none ↔ ¬ r.Holds (exchange, id) := by
  constructor
  · rintro h ⟨tracked, hmem, hkey⟩
    have hp := not_of_findIdx?_eq_none h hmem
    rw [(isKey_iff tracked).mpr hkey] at hp
    cases hp
  · intro h
    cases hfind : r.find id exchange with
    | none => rfl
    | some i =>
      obtain ⟨tracked, hi, hkey, -⟩ := find_spec hfind
      exact absurd ⟨tracked, List.mem_of_getElem? hi, hkey⟩ h

theorem trackedOrders_setTracked (r : VenueQualityRuntime) (i : ℕ) (tracked : TrackedOrder) :
    (r.setTracked i tracked).trackedOrders = r.trackedOrders.modify i fun _ => tracked :=
  List.set_eq_modify tracked i r.trackedOrders

/-- **A release** takes the slot from the order, if it has one. -/
theorem Unique.release (h : r.Unique) (id : ℕ) (exchange : Exchange) :
    (r.release id exchange).Unique ∧
      ((r.release id exchange).Holds k ↔ r.Holds k ∧ k ≠ (exchange, id)) := by
  unfold VenueQualityRuntime.release
  cases hfind : r.find id exchange with
  | none =>
    refine ⟨h, (and_iff_left_of_imp fun hk hne => ?_).symm⟩
    rw [hne] at hk
    exact find_eq_none_iff.mp hfind hk
  | some i =>
    obtain ⟨tracked, hi, hkey, -⟩ := find_spec hfind
    dsimp only
    rw [Unique, Holds, trackedOrders_setTracked]
    exact ⟨h.modify_of_key_eq fun _ _ => Or.inr rfl, h.hasKey_modify_of_drop hi hkey rfl⟩

theorem Unique.release_model (h : r.Unique) (model : VenueQualityModel) (id : ℕ)
    (exchange : Exchange) : ({ r with model := model }.release id exchange).Unique ∧
      (({ r with model := model }.release id exchange).Holds k ↔
        r.Holds k ∧ k ≠ (exchange, id)) :=
  Unique.release (r := { r with model := model }) h id exchange

/-- A fill leaves the slots with their orders. -/
theorem Unique.recordFill (h : r.Unique) (hfind : r.find id exchange = some i) :
    (r.recordFill i exchange update mid).Unique ∧
      ((r.recordFill i exchange update mid).Holds k ↔ r.Holds k) := by
  obtain ⟨tracked, hi, hkey, htracked⟩ := find_spec hfind
  unfold VenueQualityRuntime.recordFill
  split_ifs
  · dsimp only [Unique, Holds]
    rw [trackedOrders_setTracked, htracked]
    refine ⟨h.modify_of_key_eq fun a ha => Or.inl ?_, hasKey_modify_of_same hi rfl⟩
    rw [Option.some.inj (ha.symm.trans hi)]
    rfl
  · exact ⟨h, Iff.rfl⟩

/-- **An update** takes the slot from its order when it is terminal. -/
theorem Unique.onFill (h : r.Unique) :
    (r.onFill exchange update now mid).Unique ∧
      ((r.onFill exchange update now mid).Holds k ↔
        r.Holds k ∧ ¬ (k = update.key exchange ∧ update.Terminal)) := by
  unfold VenueQualityRuntime.onFill FillUpdate.Terminal
  split_ifs with hrejected
  · refine (h.release_model _ _ _).imp_right fun hholds => hholds.trans ?_
    simp only [hrejected, or_true, and_true]
    rfl
  · cases hfind : r.find update.clientOrderId exchange with
    | none =>
      refine ⟨h, (and_iff_left_of_imp fun hk hboth => ?_).symm⟩
      rw [hboth.1] at hk
      exact find_eq_none_iff.mp hfind hk
    | some i =>
      have hfill : (r.recordFill i exchange update mid).Unique ∧
          ((r.recordFill i exchange update mid).Holds k ↔ r.Holds k) := h.recordFill hfind
      obtain ⟨hunique, hholds⟩ := hfill
      dsimp only
      unfold recordState
      dsimp only
      split_ifs with hcanceled hfilled
      · refine (hunique.release_model _ _ _).imp_right fun hrelease => hrelease.trans ?_
        simp only [hcanceled, or_true, true_or, and_true]
        exact and_congr_left' hholds
      · refine (hunique.release_model _ _ _).imp_right fun hrelease => hrelease.trans ?_
        simp only [hfilled, true_or, and_true]
        exact and_congr_left' hholds
      · refine ⟨hunique, hholds.trans (and_iff_left fun hboth => ?_).symm⟩
        rcases hboth.2 with hterminal | hterminal | hterminal
        · exact hfilled hterminal
        · exact hcanceled hterminal
        · exact hrejected hterminal

/-- An order that is not accepted holds no slot. -/
theorem Unique.onSubmit_rejected (h : r.Unique) (hresult : result ≠ .ok) :
    (r.onSubmit order result now).Unique ∧ ((r.onSubmit order result now).Holds k ↔
      r.Holds k ∧ k ≠ (order.exchange, order.clientOrderId)) := by
  rw [VenueQualityRuntime.onSubmit, if_pos hresult]
  exact h.release_model _ _ _

/-- A slot without an order, unless all have one. -/
theorem acquire_spec (h : r.acquire = some i) :
    ∃ tracked, r.trackedOrders[i]? = some tracked ∧ tracked.key = none := by
  obtain ⟨tracked, hi, hp, -⟩ := getElem?_of_findIdx? h
  exact ⟨tracked, hi, if_neg (by simpa using hp)⟩

theorem acquire_eq_none (h : r.acquire = none) : ∀ tracked ∈ r.trackedOrders,
    tracked.key ≠ none := by
  intro tracked hmem
  have hactive : tracked.active = true := by simpa using not_of_findIdx?_eq_none h hmem
  rw [TrackedOrder.key, if_pos hactive]
  exact Option.some_ne_none _

/-- **An accepted order** that holds no slot takes a free one, when there is one. -/
theorem Unique.onSubmit_ok (h : r.Unique)
    (hnew : ¬ r.Holds (order.exchange, order.clientOrderId)) :
    (r.onSubmit order .ok now).Unique ∧
      ((r.onSubmit order .ok now).Holds k ↔
        r.Holds k ∨ (r.acquire ≠ none ∧ k = (order.exchange, order.clientOrderId))) := by
  have hfind : ({ r with model := r.model.observeReject order.exchange false }
      : VenueQualityRuntime).find order.clientOrderId order.exchange = none :=
    find_eq_none_iff.mpr hnew
  have hacquire : ({ r with model := r.model.observeReject order.exchange false }
      : VenueQualityRuntime).acquire = r.acquire := rfl
  simp only [VenueQualityRuntime.onSubmit, ne_eq, not_true_eq_false, if_false, hfind, hacquire,
    Option.none_or]
  cases hfree : r.acquire with
  | none => exact ⟨h, (or_iff_left fun hboth => hboth.1 rfl).symm⟩
  | some i =>
    obtain ⟨tracked, hi, hkey⟩ := acquire_spec hfree
    dsimp only [Unique, Holds]
    rw [trackedOrders_setTracked]
    refine ⟨h.modify fun a k' _ hk' j b hj hb hkb => ?_, ?_⟩
    · -- no other slot has the key of the new order
      have hk : (order.exchange, order.clientOrderId) = k' := Option.some.inj hk'
      rw [← hk] at hkb
      exact hnew ⟨b, List.mem_of_getElem? hb, hkb⟩
    · rw [hasKey_modify_of_take hi hkey rfl]
      simp

theorem length_setTracked (r : VenueQualityRuntime) (i : ℕ) (tracked : TrackedOrder) :
    (r.setTracked i tracked).trackedOrders.length = r.trackedOrders.length :=
  List.length_set

theorem length_release (r : VenueQualityRuntime) (id : ℕ) (exchange : Exchange) :
    (r.release id exchange).trackedOrders.length = r.trackedOrders.length := by
  unfold VenueQualityRuntime.release
  split
  · rfl
  · exact length_setTracked _ _ _

theorem length_onFill (r : VenueQualityRuntime) (exchange : Exchange) (update : FillUpdate)
    (now : ℤ) (mid : Exchange → ℚ) :
    (r.onFill exchange update now mid).trackedOrders.length = r.trackedOrders.length := by
  have hrecord : ∀ i, (r.recordFill i exchange update mid).trackedOrders.length =
      r.trackedOrders.length := by
    intro i
    unfold VenueQualityRuntime.recordFill
    split_ifs
    · exact length_setTracked _ _ _
    · rfl
  unfold VenueQualityRuntime.onFill
  split_ifs
  · exact length_release _ _ _
  · split
    · rfl
    · next i _ =>
      unfold VenueQualityRuntime.recordState
      dsimp only
      split_ifs
      · exact (length_release _ _ _).trans (hrecord i)
      · exact (length_release _ _ _).trans (hrecord i)
      · exact hrecord i

theorem length_onSubmit (r : VenueQualityRuntime) (order : Order) (result : ConnectorResult)
    (now : ℤ) : (r.onSubmit order result now).trackedOrders.length = r.trackedOrders.length := by
  unfold VenueQualityRuntime.onSubmit
  split_ifs
  · exact length_release _ _ _
  · dsimp only
    split
    · rfl
    · exact length_setTracked _ _ _

end VenueQualityRuntime

/-! ## Runs -/

/-- A call of a connector's `on_fill`. -/
structure Emission where
  exchange : Exchange
  update : FillUpdate
  now : ℤ := 0
  mid : Exchange → ℚ := fun _ => 0

/-- The key of the order that the call is about. -/
def Emission.key (e : Emission) : OrderKey := e.update.key e.exchange

/-- A child order with an id that is not submitted; a submission, with the updates that arrive while
it runs and its result; or an update that arrives at another time. -/
inductive SubmissionEvent
  | unsent
  | submission (order : Order) (during : List Emission) (result : ConnectorResult) (now : ℤ)
  | later (e : Emission)

/-- The runtime, the next id of `main`, and what has happened: which orders have been submitted and
accepted, which have had their terminal update, which were accepted while fewer than 256 others
were live, and which had a fill before their terminal update that found no slot. -/
structure QualityRun where
  runtime : VenueQualityRuntime
  nextId : ℕ := 1
  submitted : List OrderKey := []
  accepted : List OrderKey := []
  ended : List OrderKey := []
  watched : List OrderKey := []
  missed : List OrderKey := []

namespace QualityRun

variable {t : QualityRun} {e : Emission} {order : Order} {during : List Emission}
  {result : ConnectorResult} {now : ℤ} {k : OrderKey}

/-- The accepted orders that have not had their terminal update. -/
def live (t : QualityRun) : List OrderKey := t.accepted.filter (· ∉ t.ended)

/-- A call of `on_fill`. -/
def emit (t : QualityRun) (e : Emission) : QualityRun :=
  { t with
    runtime := t.runtime.onFill e.exchange e.update e.now e.mid
    ended := if e.update.Terminal ∧ e.key ∈ t.submitted then e.key :: t.ended else t.ended
    missed :=
      if e.update.IsFill ∧ e.key ∈ t.submitted ∧ e.key ∉ t.ended ∧
        t.runtime.find e.update.clientOrderId e.exchange = none then e.key :: t.missed
      else t.missed }

/-- The order of a submission is on its way. -/
def send (t : QualityRun) (exchange : Exchange) : QualityRun :=
  { t with nextId := t.nextId + 1, submitted := (exchange, t.nextId) :: t.submitted }

/-- The submission returns, and `on_submit` is called. -/
def settle (t : QualityRun) (order : Order) (result : ConnectorResult) (now : ℤ) : QualityRun :=
  let key : OrderKey := (order.exchange, order.clientOrderId)
  let returned := { t with runtime := t.runtime.onSubmit order result now }
  if result = .ok then
    { returned with
      accepted := key :: t.accepted
      watched := if t.live.length < 256 then key :: t.watched else t.watched }
  else returned

/-- A submission: `submit_order`, with the updates that it hands over, and then `on_submit`. -/
def submit (t : QualityRun) (order : Order) (during : List Emission) (result : ConnectorResult)
    (now : ℤ) : QualityRun :=
  (during.foldl emit (t.send order.exchange)).settle { order with clientOrderId := t.nextId }
    result now

/-- The run after an event. -/
def step (t : QualityRun) : SubmissionEvent → QualityRun
  | .unsent => { t with nextId := t.nextId + 1 }
  | .submission order during result now => t.submit order during result now
  | .later e => t.emit e

/-- **Nothing leaks**: an order whose terminal update has been emitted holds no slot, an order
accepted while fewer than 256 were live is tracked until its terminal update, and all its fills are
scored. -/
structure Sound (t : QualityRun) : Prop where
  released : ∀ k ∈ t.ended, t.runtime.find k.2 k.1 = none
  tracked : ∀ k ∈ t.watched, k ∉ t.ended → t.runtime.find k.2 k.1 ≠ none
  scored : ∀ k ∈ t.missed, k ∉ t.watched

/-- An order that is accepted gets no fill and no terminal update inside its own submission. -/
def Quiet (t : QualityRun) : SubmissionEvent → Prop
  | .submission order during result _ => result = .ok →
      ∀ e ∈ during, e.key = (order.exchange, t.nextId) → ¬ e.update.Terminal ∧ ¬ e.update.IsFill
  | _ => True

/-- What a run keeps: the slots are those of live orders, and those of all orders watched. -/
structure Consistent (t : QualityRun) : Prop where
  unique : t.runtime.Unique
  length : t.runtime.trackedOrders.length = 256
  live_of_holds : ∀ k, t.runtime.Holds k → k ∈ t.accepted ∧ k ∉ t.ended
  submitted_of_accepted : ∀ k ∈ t.accepted, k ∈ t.submitted
  lt_of_submitted : ∀ k ∈ t.submitted, k.2 < t.nextId
  submitted_of_ended : ∀ k ∈ t.ended, k ∈ t.submitted
  submitted_of_missed : ∀ k ∈ t.missed, k ∈ t.submitted
  holds_of_watched : ∀ k ∈ t.watched, k ∉ t.ended → t.runtime.Holds k
  not_watched_of_missed : ∀ k ∈ t.missed, k ∉ t.watched

theorem Consistent.sound (h : t.Consistent) : t.Sound where
  released k hk := VenueQualityRuntime.find_eq_none_iff.mpr fun hholds =>
    (h.live_of_holds k hholds).2 hk
  tracked k hk hended hfind :=
    VenueQualityRuntime.find_eq_none_iff.mp hfind (h.holds_of_watched k hk hended)
  scored := h.not_watched_of_missed

theorem mem_ended_emit : k ∈ (t.emit e).ended ↔
    (k = e.key ∧ e.update.Terminal ∧ e.key ∈ t.submitted) ∨ k ∈ t.ended := by
  unfold emit
  dsimp only
  split_ifs with hterminal
  · rw [List.mem_cons, and_iff_left hterminal]
  · exact (or_iff_right fun hboth => hterminal hboth.2).symm

theorem mem_missed_emit : k ∈ (t.emit e).missed ↔
    (k = e.key ∧ e.update.IsFill ∧ e.key ∈ t.submitted ∧ e.key ∉ t.ended ∧
      ¬ t.runtime.Holds e.key) ∨ k ∈ t.missed := by
  have hfind : t.runtime.find e.update.clientOrderId e.exchange = none ↔ ¬ t.runtime.Holds e.key :=
    VenueQualityRuntime.find_eq_none_iff
  unfold emit
  dsimp only
  split_ifs with hmissed
  · rw [hfind] at hmissed
    rw [List.mem_cons, and_iff_left hmissed]
  · rw [hfind] at hmissed
    exact (or_iff_right fun hboth => hmissed hboth.2).symm

/-- **An update** keeps the slots those of the live orders. -/
theorem Consistent.emit (h : t.Consistent) (e : Emission) : (t.emit e).Consistent := by
  have hruntime : (t.emit e).runtime.Unique ∧ ∀ k, (t.emit e).runtime.Holds k ↔
      t.runtime.Holds k ∧ ¬ (k = e.key ∧ e.update.Terminal) :=
    ⟨(h.unique.onFill (k := e.key)).1, fun k => h.unique.onFill.2⟩
  obtain ⟨hunique, hholds⟩ := hruntime
  refine {
    unique := hunique
    length := (t.runtime.length_onFill _ _ _ _).trans h.length
    live_of_holds := fun k hk => ?_
    submitted_of_accepted := h.submitted_of_accepted
    lt_of_submitted := h.lt_of_submitted
    submitted_of_ended := fun k hk => ?_
    submitted_of_missed := fun k hk => ?_
    holds_of_watched := fun k hk hended => ?_
    not_watched_of_missed := fun k hk hwatched => ?_ }
  · obtain ⟨hbefore, hkeeps⟩ := (hholds k).mp hk
    obtain ⟨haccepted, hended⟩ := h.live_of_holds k hbefore
    refine ⟨haccepted, fun hk' => ?_⟩
    rcases mem_ended_emit.mp hk' with ⟨hkey, hterminal, -⟩ | hk'
    · exact hkeeps ⟨hkey, hterminal⟩
    · exact hended hk'
  · rcases mem_ended_emit.mp hk with ⟨rfl, -, hsubmitted⟩ | hk
    · exact hsubmitted
    · exact h.submitted_of_ended k hk
  · rcases mem_missed_emit.mp hk with ⟨rfl, -, hsubmitted, -⟩ | hk
    · exact hsubmitted
    · exact h.submitted_of_missed k hk
  · have hbefore := h.holds_of_watched k hk fun hk' => hended (mem_ended_emit.mpr (Or.inr hk'))
    refine (hholds k).mpr ⟨hbefore, fun hboth => hended (mem_ended_emit.mpr (Or.inl ?_))⟩
    have hsubmitted := h.submitted_of_accepted k (h.live_of_holds k hbefore).1
    exact ⟨hboth.1, hboth.2, hboth.1 ▸ hsubmitted⟩
  · rcases mem_missed_emit.mp hk with ⟨rfl, -, -, hended, hfree⟩ | hk
    · exact hfree (h.holds_of_watched _ hwatched hended)
    · exact h.not_watched_of_missed k hk hwatched

/-- What the updates inside a submission leave alone. -/
theorem foldl_emit (during : List Emission) :
    (during.foldl emit t).nextId = t.nextId ∧ (during.foldl emit t).submitted = t.submitted ∧
      (during.foldl emit t).accepted = t.accepted ∧
      (during.foldl emit t).watched = t.watched := by
  induction during generalizing t with
  | nil => exact ⟨rfl, rfl, rfl, rfl⟩
  | cons e rest ih => exact ih (t := t.emit e)

/-- An order whose own updates are no fills and not terminal is neither ended nor missed. -/
theorem foldl_emit_quiet
    (hquiet : ∀ e ∈ during, e.key = k → ¬ e.update.Terminal ∧ ¬ e.update.IsFill)
    (hended : k ∉ t.ended) (hmissed : k ∉ t.missed) :
    k ∉ (during.foldl emit t).ended ∧ k ∉ (during.foldl emit t).missed := by
  refine foldl_induction (P := fun t : QualityRun => k ∉ t.ended ∧ k ∉ t.missed)
    (fun t e h he => ⟨fun hk => ?_, fun hk => ?_⟩) ⟨hended, hmissed⟩ hquiet
  · rcases mem_ended_emit.mp hk with ⟨hkey, hterminal, -⟩ | hk
    · exact (he hkey.symm).1 hterminal
    · exact h.1 hk
  · rcases mem_missed_emit.mp hk with ⟨hkey, hfill, -⟩ | hk
    · exact (he hkey.symm).2 hfill
    · exact h.2 hk

/-- While fewer than 256 orders are live, a slot is free. -/
theorem Consistent.acquire_ne_none (h : t.Consistent) (hlive : t.live.length < 256) :
    t.runtime.acquire ≠ none := by
  intro hfull
  have hkeys : ∀ tracked ∈ t.runtime.trackedOrders, ∀ k, tracked.key = some k → k ∈ t.live := by
    intro tracked hmem k hk
    obtain ⟨haccepted, hended⟩ := h.live_of_holds k ⟨tracked, hmem, hk⟩
    exact List.mem_filter.mpr ⟨haccepted, decide_eq_true hended⟩
  have hle := h.unique.length_le (VenueQualityRuntime.acquire_eq_none hfull) hkeys
  rw [h.length] at hle
  omega

theorem Consistent.not_submitted (h : t.Consistent) (exchange : Exchange) :
    (exchange, t.nextId) ∉ t.submitted := fun hk => lt_irrefl _ (h.lt_of_submitted _ hk)

theorem Consistent.send (h : t.Consistent) (exchange : Exchange) :
    (t.send exchange).Consistent :=
  { h with
    submitted_of_accepted := fun k hk => List.mem_cons_of_mem _ (h.submitted_of_accepted k hk)
    lt_of_submitted := fun k hk => by
      rcases List.mem_cons.mp hk with rfl | hk
      · exact Nat.lt_succ_self _
      · exact (h.lt_of_submitted k hk).trans (Nat.lt_succ_self _)
    submitted_of_ended := fun k hk => List.mem_cons_of_mem _ (h.submitted_of_ended k hk)
    submitted_of_missed := fun k hk => List.mem_cons_of_mem _ (h.submitted_of_missed k hk) }

/-- **When a submission is accepted**, its order, which has not ended and has missed no fill, takes a
slot while one is free. -/
theorem Consistent.settle_ok (h : t.Consistent) (hk : k = (order.exchange, order.clientOrderId))
    (hsubmitted : k ∈ t.submitted) (hnew : k ∉ t.accepted) (hended : k ∉ t.ended)
    (hmissed : k ∉ t.missed) : (t.settle order .ok now).Consistent := by
  have hfree : ¬ t.runtime.Holds k := fun hholds => hnew (h.live_of_holds k hholds).1
  have hslots : (t.runtime.onSubmit order .ok now).Unique ∧
      ∀ k', (t.runtime.onSubmit order .ok now).Holds k' ↔
        t.runtime.Holds k' ∨ (t.runtime.acquire ≠ none ∧ k' = k) := by
    rw [hk] at hfree ⊢
    exact ⟨(h.unique.onSubmit_ok (k := k) hfree).1, fun k' => (h.unique.onSubmit_ok hfree).2⟩
  obtain ⟨hunique, hholds⟩ := hslots
  unfold QualityRun.settle
  rw [if_pos rfl]
  dsimp only
  rw [← hk]
  exact {
    unique := hunique
    length := (t.runtime.length_onSubmit order .ok now).trans h.length
    live_of_holds := fun k' hk' => by
      rcases (hholds k').mp hk' with hk' | ⟨-, rfl⟩
      · exact ⟨List.mem_cons_of_mem _ (h.live_of_holds k' hk').1, (h.live_of_holds k' hk').2⟩
      · exact ⟨List.mem_cons_self, hended⟩
    submitted_of_accepted := fun k' hk' => by
      rcases List.mem_cons.mp hk' with rfl | hk'
      · exact hsubmitted
      · exact h.submitted_of_accepted k' hk'
    lt_of_submitted := h.lt_of_submitted
    submitted_of_ended := h.submitted_of_ended
    submitted_of_missed := h.submitted_of_missed
    holds_of_watched := fun k' hk' hended' => by
      dsimp only at hk' hended'
      split_ifs at hk' with hlive
      · rcases List.mem_cons.mp hk' with rfl | hk'
        · exact (hholds k').mpr (Or.inr ⟨h.acquire_ne_none hlive, rfl⟩)
        · exact (hholds k').mpr (Or.inl (h.holds_of_watched k' hk' hended'))
      · exact (hholds k').mpr (Or.inl (h.holds_of_watched k' hk' hended'))
    not_watched_of_missed := fun k' hk' hwatched' => by
      dsimp only at hk' hwatched'
      split_ifs at hwatched'
      · rcases List.mem_cons.mp hwatched' with rfl | hwatched'
        · exact hmissed hk'
        · exact h.not_watched_of_missed k' hk' hwatched'
      · exact h.not_watched_of_missed k' hk' hwatched' }

/-- When a submission is refused, its order holds no slot. -/
theorem Consistent.settle_refused (h : t.Consistent)
    (hk : k = (order.exchange, order.clientOrderId)) (hnew : k ∉ t.accepted)
    (hresult : result ≠ .ok) : (t.settle order result now).Consistent := by
  have hfree : ¬ t.runtime.Holds k := fun hholds => hnew (h.live_of_holds k hholds).1
  have hslots : (t.runtime.onSubmit order result now).Unique ∧
      ∀ k', (t.runtime.onSubmit order result now).Holds k' ↔ t.runtime.Holds k' ∧ k' ≠ k := by
    rw [hk]
    exact ⟨(h.unique.onSubmit_rejected (k := k) hresult).1,
      fun k' => (h.unique.onSubmit_rejected hresult).2⟩
  obtain ⟨hunique, hholds⟩ := hslots
  unfold QualityRun.settle
  rw [if_neg hresult]
  exact { h with
    unique := hunique
    length := (t.runtime.length_onSubmit order result now).trans h.length
    live_of_holds := fun k' hk' => h.live_of_holds k' ((hholds k').mp hk').1
    holds_of_watched := fun k' hk' hended => by
      have hholds' := h.holds_of_watched k' hk' hended
      refine (hholds k').mpr ⟨hholds', ?_⟩
      rintro rfl
      exact hfree hholds' }

/-- **A submission** keeps the slots those of the live orders, when the order, if accepted, gets no
fill and no terminal update while it runs. -/
theorem Consistent.submit (h : t.Consistent)
    (hquiet : t.Quiet (.submission order during result now)) :
    (t.submit order during result now).Consistent := by
  have hnew := h.not_submitted order.exchange
  have hheard := foldl_induction (P := Consistent) (fun t e h (_ : True) => h.emit e)
    (h.send order.exchange) fun _ (_ : _ ∈ during) => trivial
  have hkept := foldl_emit (t := t.send order.exchange) during
  have hsubmitted : (order.exchange, t.nextId) ∈
      (during.foldl QualityRun.emit (t.send order.exchange)).submitted := by
    rw [hkept.2.1]
    exact List.mem_cons_self
  have haccepted : (order.exchange, t.nextId) ∉
      (during.foldl QualityRun.emit (t.send order.exchange)).accepted := by
    rw [hkept.2.2.1]
    exact fun hk => hnew (h.submitted_of_accepted _ hk)
  by_cases hok : result = .ok
  · subst hok
    obtain ⟨hended, hmissed⟩ := foldl_emit_quiet (t := t.send order.exchange) (hquiet rfl)
      (fun hk => hnew (h.submitted_of_ended _ hk)) fun hk => hnew (h.submitted_of_missed _ hk)
    exact hheard.settle_ok rfl hsubmitted haccepted hended hmissed
  · exact hheard.settle_refused rfl haccepted hok

/-- The run at the start: nothing is tracked. -/
def start (model : VenueQualityModel) : QualityRun := { runtime := { model := model } }

theorem consistent_start (model : VenueQualityModel) : (start model).Consistent := by
  have hnone : ∀ tracked ∈ (start model).runtime.trackedOrders, tracked.key = none := by
    intro tracked hmem
    rw [List.eq_of_mem_replicate hmem]
    rfl
  have hfree : ∀ k, ¬ (start model).runtime.Holds k := by
    rintro k ⟨tracked, hmem, hk⟩
    rw [hnone tracked hmem] at hk
    cases hk
  refine {
    unique := fun i j a b k ha _ hk _ => ?_
    length := List.length_replicate
    live_of_holds := fun k hk => absurd hk (hfree k)
    submitted_of_accepted := fun k hk => by cases hk
    lt_of_submitted := fun k hk => by cases hk
    submitted_of_ended := fun k hk => by cases hk
    submitted_of_missed := fun k hk => by cases hk
    holds_of_watched := fun k hk => by cases hk
    not_watched_of_missed := fun k hk => by cases hk }
  rw [hnone a (List.mem_of_getElem? ha)] at hk
  cases hk

theorem Consistent.step (h : t.Consistent) {event : SubmissionEvent} (hquiet : t.Quiet event) :
    (t.step event).Consistent := by
  cases event with
  | unsent =>
    exact { h with lt_of_submitted := fun k hk =>
      (h.lt_of_submitted k hk).trans (Nat.lt_succ_self _) }
  | submission order during result now => exact h.submit hquiet
  | later e => exact h.emit e

/-- **Nothing leaks** along a run in which no accepted order gets a fill or a terminal update inside
its own submission. -/
theorem tracking_sound (model : VenueQualityModel) {events : List SubmissionEvent}
    (hquiet : AllSteps step Quiet (start model) events) :
    ∀ pre, pre <+: events → (pre.foldl step (start model)).Sound := by
  rintro pre ⟨rest, rfl⟩
  refine Consistent.sound ?_
  exact (allSteps_append.mp hquiet).1.foldl (fun t event h hq => h.step hq) (consistent_start model)

/-! ## Two runs -/

/-- The first order, at Binance, is filled. -/
def filledFirst : Emission where
  exchange := .binance
  update := { clientOrderId := 1, fillPrice := 100, fillQty := 1, newState := .filled }

/-- It is filled after its submission. -/
def filledLater : List SubmissionEvent :=
  [.submission { exchange := .binance, quantity := 1 } [] .ok 0, .later filledFirst]

/-- Then nothing leaks. -/
theorem sound_filledLater : (filledLater.foldl step (start { cfg := {} })).Sound := by
  have hquiet : AllSteps step Quiet (start { cfg := {} }) filledLater :=
    And.intro (fun _ _ he => by cases he) (And.intro trivial trivial)
  exact tracking_sound _ hquiet _ (List.prefix_refl _)

/-- It is filled inside its submission. -/
def filledInside : List SubmissionEvent :=
  [.submission { exchange := .binance, quantity := 1 } [filledFirst] .ok 0]

/-- **The filled order holds a slot** afterwards, and its fill is not scored. -/
theorem filledInside_leaks :
    (filledInside.foldl step (start { cfg := {} })).ended = [(.binance, 1)] ∧
      (filledInside.foldl step (start { cfg := {} })).runtime.find 1 .binance = some 0 ∧
      (filledInside.foldl step (start { cfg := {} })).missed = [(.binance, 1)] ∧
      ¬ (filledInside.foldl step (start { cfg := {} })).Sound := by
  have hended : (filledInside.foldl step (start { cfg := {} })).ended = [(.binance, 1)] := by
    decide +kernel
  have hfind : (filledInside.foldl step (start { cfg := {} })).runtime.find 1 .binance =
      some 0 := by decide +kernel
  refine ⟨hended, hfind, by decide +kernel, fun h => ?_⟩
  have hnone := h.released (.binance, 1) (by rw [hended]; exact List.mem_cons_self)
  rw [hfind] at hnone
  cases hnone

end QualityRun

end TradingInfrastructure
