import TradingInfrastructure.Foundations.SlotPool
import TradingInfrastructure.Engine.VenueQualityRuntime
import TradingInfrastructure.Router.VenueQualityBounds

/-!
# Better executions and the rank of a venue

Two venues with the same history but for the prices of their fills, where each fill of the first is
at least as good for us as that of the second. Everything that the router reads of them is the
same but the taker markout, which is higher for the first (`Alike.call`). The score adds it to the
cost, so the first venue ranks no worse along the whole history exactly when no taker fill of its
that is better counts for more (`shortfall_run_iff`).
-/

namespace TradingInfrastructure

/-- What happens to a venue. -/
inductive VenueEvent
  | submit (order : Order) (result : ConnectorResult) (now : ℤ)
  | fill (update : FillUpdate) (now : ℤ) (midPrice : ℚ)
  | health (healthy : Bool)
  deriving DecidableEq

/-- A price that is at least as good for us on a side. -/
def Side.NoWorse : Side → ℚ → ℚ → Prop
  | .bid, price, price' => price ≤ price'
  | .ask, price, price' => price' ≤ price

instance (side : Side) (price price' : ℚ) : Decidable (side.NoWorse price price') :=
  match side with
  | .bid => inferInstanceAs (Decidable (price ≤ price'))
  | .ask => inferInstanceAs (Decidable (price' ≤ price))

/-- An observation that is the same, or a markout that is no lower. -/
inductive VenueObservation.NoWorse : VenueObservation → VenueObservation → Prop
  | same (o : VenueObservation) : NoWorse o o
  | markout (passive : Bool) {bps bps' : ℚ} (h : bps' ≤ bps) :
      NoWorse (.markout passive bps) (.markout passive bps')

theorem TrackedOrder.quality_le_quality {tracked : TrackedOrder} {price price' midPrice : ℚ}
    (hmid : 0 < midPrice) (hprice : 0 < price) (hprice' : 0 < price')
    (h : tracked.side.NoWorse price price') :
    tracked.realizedFillQualityBps price' midPrice ≤
      tracked.realizedFillQualityBps price midPrice := by
  rw [realizedFillQualityBps, realizedFillQualityBps, if_neg (by simp [hmid, hprice']),
    if_neg (by simp [hmid, hprice])]
  cases hside : tracked.side with
  | bid =>
    rw [hside] at h
    have : midPrice - price' ≤ midPrice - price := sub_le_sub_left h midPrice
    exact mul_le_mul_of_nonneg_right (div_le_div_of_nonneg_right this hmid.le) (by norm_num)
  | ask =>
    rw [hside] at h
    have : price' - midPrice ≤ price - midPrice := sub_le_sub_right h midPrice
    exact mul_le_mul_of_nonneg_right (div_le_div_of_nonneg_right this hmid.le) (by norm_num)

/-! ## Two models -/

/-- The configurations that are compared: no penalty on what is apart, and a share and a step of
the markouts that are in their bounds. -/
structure VenueQualityConfig.Comparable (cfg : VenueQualityConfig) : Prop where
  stability : cfg.stabilityPenaltyScale = 0
  markoutAlpha_mem : cfg.markoutAlpha ∈ Set.Icc (0 : ℚ) 1
  maxMarkoutStep_nonneg : 0 ≤ cfg.maxMarkoutStepBps

/-- **Two states alike**: the same but for the markouts, and the taker markout of the first is no
lower. -/
structure VenueQualityState.Alike (s s' : VenueQualityState) : Prop where
  get : ∀ c, c ≠ .passiveMarkout → c ≠ .takerMarkout → s'.get c = s.get c
  penalty : s'.snapshot.compositePenaltyBps = s.snapshot.compositePenaltyBps
  fill : s'.snapshot.compositeFillProbability = s.snapshot.compositeFillProbability
  shown : s.snapshot.takerMarkoutBps = s.takerMarkoutBps
  shown' : s'.snapshot.takerMarkoutBps = s'.takerMarkoutBps
  le : s'.takerMarkoutBps ≤ s.takerMarkoutBps
  mem : s.takerMarkoutBps ∈ Set.Icc (-10 : ℚ) 10

namespace VenueQualityModel

variable {e e' : Exchange} {m m' : VenueQualityModel} {o o' : VenueObservation}

/-- Two models alike, each at its venue. -/
structure Alike (e e' : Exchange) (m m' : VenueQualityModel) : Prop where
  cfg : m'.cfg = m.cfg
  state : (m.stateFor e).Alike (m'.stateFor e')

/-- Markouts apart, without a penalty on that the snapshots are alike. -/
theorem refreshSnapshot_alike {cfg : VenueQualityConfig} (hcfg : cfg.Comparable)
    {s s' : VenueQualityState}
    (hget : ∀ c, c ≠ .passiveMarkout → c ≠ .takerMarkout → s'.get c = s.get c)
    (hle : s'.takerMarkoutBps ≤ s.takerMarkoutBps)
    (hmem : s.takerMarkoutBps ∈ Set.Icc (-10 : ℚ) 10) :
    (cfg.refreshSnapshot s e).Alike (cfg.refreshSnapshot s' e') := by
  have hfill : s'.fillProbability = s.fillProbability :=
    hget .fillProbability (by decide) (by decide)
  have hreject : s'.rejectRate = s.rejectRate := hget .rejectRate (by decide) (by decide)
  have hcancel : s'.cancelLatencyPenaltyBps = s.cancelLatencyPenaltyBps :=
    hget .cancelLatency (by decide) (by decide)
  have hhealth : s'.healthPenaltyBps = s.healthPenaltyBps := hget .health (by decide) (by decide)
  exact
    { get := hget
      penalty := by
        simp only [VenueQualityConfig.refreshSnapshot, hfill, hreject, hcancel, hhealth,
          hcfg.stability, mul_zero]
      fill := by simp only [VenueQualityConfig.refreshSnapshot, hfill, hreject, hhealth]
      shown := rfl
      shown' := rfl
      le := hle
      mem := hmem }

/-- A taker markout is smoothed. -/
theorem takerMarkout_take (hcfg : m.cfg.Comparable) (h : o.component = .takerMarkout) :
    ((m.take e o).stateFor e).takerMarkoutBps =
      smooth m.cfg.markoutAlpha m.cfg.maxMarkoutStepBps (-10) 10 (m.stateFor e).takerMarkoutBps
        o.sample := by
  have hself := @get_take_self m e o
  rw [h] at hself
  exact hself.trans (updateClamped_eq_smooth hcfg.maxMarkoutStep_nonneg
    (by norm_num [VenueQualityConfig.least, VenueQualityConfig.most]))

theorem takerMarkout_take_of_ne (h : o.component ≠ .takerMarkout) :
    ((m.take e o).stateFor e).takerMarkoutBps = (m.stateFor e).takerMarkoutBps :=
  get_take_of_ne h.symm

/-- **Observations that are no worse** leave models alike. -/
theorem Alike.take (h : Alike e e' m m') (hcfg : m.cfg.Comparable) (ho : o.NoWorse o') :
    Alike e e' (m.take e o) (m'.take e' o') := by
  have hcfg' : m'.cfg.Comparable := h.cfg.symm ▸ hcfg
  have hcomponent : o'.component = o.component := by
    cases ho with
    | same => rfl
    | markout passive _ => rfl
  have hsample : o'.sample ≤ o.sample := by
    cases ho with
    | same => exact le_rfl
    | markout passive hle => exact hle
  have hsame : o.component ≠ .passiveMarkout → o.component ≠ .takerMarkout →
      o'.sample = o.sample := by
    cases ho with
    | same => exact fun _ _ => rfl
    | markout passive hle => cases passive <;> simp [VenueObservation.component]
  have hget : ∀ c, c ≠ .passiveMarkout → c ≠ .takerMarkout →
      ((m'.take e' o').stateFor e').get c = ((m.take e o).stateFor e).get c := by
    intro c hpassive htaker
    have hold := h.state.get c hpassive htaker
    by_cases hc : c = o.component
    · subst hc
      rw [get_take_self, ← hcomponent, get_take_self, hcomponent, hold, h.cfg,
        hsame hpassive htaker]
    · rw [get_take_of_ne hc, get_take_of_ne (hcomponent.symm ▸ hc), hold]
  have hmem : ((m.take e o).stateFor e).takerMarkoutBps ∈ Set.Icc (-10 : ℚ) 10 := by
    by_cases hc : o.component = .takerMarkout
    · exact (takerMarkout_take hcfg hc).symm ▸ smooth_mem (by norm_num)
    · exact (takerMarkout_take_of_ne hc).symm ▸ h.state.mem
  have hle : ((m'.take e' o').stateFor e').takerMarkoutBps ≤
      ((m.take e o).stateFor e).takerMarkoutBps := by
    by_cases hc : o.component = .takerMarkout
    · rw [takerMarkout_take hcfg hc, takerMarkout_take hcfg' (hcomponent.trans hc), h.cfg]
      exact smooth_le_smooth hcfg.markoutAlpha_mem h.state.le hsample
    · rw [takerMarkout_take_of_ne hc, takerMarkout_take_of_ne (hcomponent.symm ▸ hc)]
      exact h.state.le
  obtain ⟨update, htake, -⟩ := exists_update m e o
  obtain ⟨update', htake', -⟩ := exists_update m' e' o'
  refine ⟨(cfg_take o').trans (h.cfg.trans (cfg_take o).symm), ?_⟩
  rw [htake, stateFor_observe] at hget hmem hle ⊢
  rw [htake', stateFor_observe, h.cfg] at hget hle ⊢
  simp only [get_refreshSnapshot] at hget
  exact refreshSnapshot_alike hcfg hget hle hmem

end VenueQualityModel

/-! ## Two runtimes -/

/-- Two tracked orders alike: the same but for the venue, if they are active. -/
structure TrackedOrder.Alike (e e' : Exchange) (t t' : TrackedOrder) : Prop where
  same : t' = { t with exchange := t'.exchange }
  own : t.active = true → t.exchange = e ∧ t'.exchange = e'

theorem TrackedOrder.Alike.quality {e e' : Exchange} {t t' : TrackedOrder} (h : t.Alike e e' t')
    (fillPrice midPrice : ℚ) :
    t'.realizedFillQualityBps fillPrice midPrice = t.realizedFillQualityBps fillPrice midPrice := by
  rw [h.same]
  rfl

theorem TrackedOrder.alike_default (e e' : Exchange) : TrackedOrder.Alike e e' {} {} :=
  ⟨rfl, fun h => by cases h⟩

namespace VenueQualityRuntime

variable {e e' : Exchange} {r r' : VenueQualityRuntime}

/-- **Two runtimes alike**: their models are, and their orders slot by slot. -/
structure Alike (e e' : Exchange) (r r' : VenueQualityRuntime) : Prop where
  model : r.model.Alike e e' r'.model
  orders : List.Forall₂ (TrackedOrder.Alike e e') r.trackedOrders r'.trackedOrders

theorem Alike.find (h : r.Alike e e' r') (id : ℕ) : r'.find id e' = r.find id e := by
  refine (SlotPool.findIdx?_eq_of_forall₂ h.orders fun t t' ht => ?_).symm
  rw [ht.same]
  cases hactive : t.active with
  | false => rfl
  | true => simp [ht.own hactive]

theorem Alike.acquire (h : r.Alike e e' r') : r'.acquire = r.acquire := by
  refine (SlotPool.findIdx?_eq_of_forall₂ h.orders fun t t' ht => ?_).symm
  rw [ht.same]

theorem Alike.tracked (h : r.Alike e e' r') (i : ℕ) : (r.tracked i).Alike e e' (r'.tracked i) :=
  SlotPool.forall₂_getD h.orders (TrackedOrder.alike_default e e') i

theorem Alike.setTracked (h : r.Alike e e' r') {t t' : TrackedOrder} (ht : t.Alike e e' t')
    (i : ℕ) : (r.setTracked i t).Alike e e' (r'.setTracked i t') :=
  ⟨h.model, SlotPool.forall₂_set h.orders ht i⟩

theorem Alike.withModel (h : r.Alike e e' r') {m m' : VenueQualityModel} (hm : m.Alike e e' m') :
    ({ r with model := m }).Alike e e' { r' with model := m' } :=
  ⟨hm, h.orders⟩

theorem Alike.release (h : r.Alike e e' r') (id : ℕ) :
    (r.release id e).Alike e e' (r'.release id e') := by
  unfold VenueQualityRuntime.release
  rw [h.find]
  cases r.find id e with
  | none => exact h
  | some i => exact h.setTracked (TrackedOrder.alike_default e e') i

theorem alike_observeFilled {m m' : VenueQualityModel} (h : m.Alike e e' m')
    (hcfg : m.cfg.Comparable) (quantity share : ℚ) :
    (observeFilled m e quantity share).Alike e e' (observeFilled m' e' quantity share) := by
  unfold observeFilled
  by_cases hquantity : quantity > 0
  · simp only [hquantity, if_true]
    exact h.take hcfg (.same (.fillProbability share))
  · simpa only [hquantity, if_false] using h

theorem cfg_observeFilled {m : VenueQualityModel} (quantity share : ℚ) :
    (observeFilled m e quantity share).cfg = m.cfg := by
  unfold observeFilled
  split <;> rfl

theorem cfg_observePrice {m : VenueQualityModel} (t : TrackedOrder) (fillPrice midPrice : ℚ) :
    (observePrice m e t fillPrice midPrice).cfg = m.cfg := by
  unfold observePrice
  split <;> rfl

/-- The price of a fill of the order `t`, and one that is no better. -/
def PriceNoWorse (t : TrackedOrder) (price price' : ℚ) : Prop :=
  price' = price ∨ 0 < price ∧ 0 < price' ∧ t.side.NoWorse price price'

instance (t : TrackedOrder) (price price' : ℚ) : Decidable (PriceNoWorse t price price') :=
  inferInstanceAs (Decidable (_ ∨ _ ∧ _ ∧ _))

theorem alike_observePrice {m m' : VenueQualityModel} (h : m.Alike e e' m')
    (hcfg : m.cfg.Comparable) {t t' : TrackedOrder} (ht : t.Alike e e' t') {price price' : ℚ}
    (hprice : PriceNoWorse t price price') (midPrice : ℚ) :
    (observePrice m e t price midPrice).Alike e e' (observePrice m' e' t' price' midPrice) := by
  have htif : t'.tif = t.tif := by rw [ht.same]
  have hpositive : price' > 0 ↔ price > 0 := by
    rcases hprice with rfl | ⟨hprice, hprice', -⟩
    · rfl
    · exact iff_of_true hprice' hprice
  unfold observePrice
  by_cases hpriced : midPrice > 0 ∧ price > 0
  · rw [if_pos hpriced, if_pos ⟨hpriced.1, hpositive.mpr hpriced.2⟩, htif, ht.quality]
    refine h.take hcfg (.markout (decide (t.tif = .gtx)) ?_)
    rcases hprice with rfl | ⟨hprice, hprice', hside⟩
    · exact le_rfl
    · exact TrackedOrder.quality_le_quality hpriced.1 hprice hprice' hside
  · rw [if_neg hpriced, if_neg fun hpriced' => hpriced ⟨hpriced'.1, hpositive.mp hpriced'.2⟩]
    exact h

/-- A fill, and one that differs in its prices and is no better for the order it is for. -/
structure FillNoWorse (e : Exchange) (r : VenueQualityRuntime) (u u' : FillUpdate) : Prop where
  same : u' = { u with fillPrice := u'.fillPrice, avgFillPrice := u'.avgFillPrice }
  price : ∀ i ∈ r.find u.clientOrderId e, PriceNoWorse (r.tracked i) u.fillPrice u'.fillPrice

instance (e : Exchange) (r : VenueQualityRuntime) (u u' : FillUpdate) :
    Decidable (FillNoWorse e r u u') :=
  decidable_of_iff
    (u' = { u with fillPrice := u'.fillPrice, avgFillPrice := u'.avgFillPrice } ∧
      ∀ i ∈ r.find u.clientOrderId e, PriceNoWorse (r.tracked i) u.fillPrice u'.fillPrice)
    ⟨fun h => ⟨h.1, h.2⟩, fun h => ⟨h.same, h.price⟩⟩

theorem TrackedOrder.Alike.filledBy {t t' : TrackedOrder} (h : t.Alike e e' t')
    {u u' : FillUpdate}
    (hu : u' = { u with fillPrice := u'.fillPrice, avgFillPrice := u'.avgFillPrice }) :
    (t.filledBy u).Alike e e' (t'.filledBy u') := by
  refine ⟨?_, h.own⟩
  rw [hu, h.same]
  rfl

theorem Alike.recordFill (h : r.Alike e e' r') (hcfg : r.model.cfg.Comparable) {u u' : FillUpdate}
    (hu : u' = { u with fillPrice := u'.fillPrice, avgFillPrice := u'.avgFillPrice }) {i : ℕ}
    (hprice : PriceNoWorse (r.tracked i) u.fillPrice u'.fillPrice) (midPrice : ℚ) :
    (r.recordFill i e u fun _ => midPrice).Alike e e'
      (r'.recordFill i e' u' fun _ => midPrice) := by
  have hqty : u'.fillQty = u.fillQty := by rw [hu]
  unfold VenueQualityRuntime.recordFill
  rw [hqty]
  by_cases hfill : u.fillQty > 0
  · simp only [hfill, if_true]
    have hfilled := TrackedOrder.Alike.filledBy (h.tracked i) hu
    have hquantity : ((r'.tracked i).filledBy u').quantity =
      ((r.tracked i).filledBy u).quantity := by
      rw [hfilled.same]
    have hshare : ((r'.tracked i).filledBy u').filledShare =
        ((r.tracked i).filledBy u).filledShare := by
      rw [hfilled.same]
      rfl
    rw [hquantity, hshare]
    exact (h.setTracked hfilled i).withModel (alike_observePrice
      (alike_observeFilled h.model hcfg _ _) ((cfg_observeFilled _ _).symm ▸ hcfg) hfilled hprice
      midPrice)
  · simpa only [hfill, if_false] using h

theorem Alike.recordState (h : r.Alike e e' r') (hcfg : r.model.cfg.Comparable)
    {u u' : FillUpdate}
    (hu : u' = { u with fillPrice := u'.fillPrice, avgFillPrice := u'.avgFillPrice }) (i : ℕ)
    (now : ℤ) : (r.recordState i e u now).Alike e e' (r'.recordState i e' u' now) := by
  have hid : u'.clientOrderId = u.clientOrderId := by rw [hu]
  have hnew : u'.newState = u.newState := by rw [hu]
  have htracked := h.tracked i
  have hquantity : (r'.tracked i).quantity = (r.tracked i).quantity := by rw [htracked.same]
  have hsubmitted : (r'.tracked i).submittedAt = (r.tracked i).submittedAt := by
    rw [htracked.same]
  have hshare : (r'.tracked i).filledShare = (r.tracked i).filledShare := by
    rw [htracked.same]
    rfl
  unfold VenueQualityRuntime.recordState
  simp only [hid, hnew, hquantity, hsubmitted, hshare]
  by_cases hcanceled : u.newState = .canceled
  · simp only [hcanceled, if_true]
    have hlate := h.model.take hcfg
      (.same (.cancelLatency ((now - (r.tracked i).submittedAt).tdiv 1000)))
    exact (h.withModel (alike_observeFilled hlate (by rwa [VenueQualityModel.cfg_take])
      _ _)).release _
  · by_cases hfilled : u.newState = .filled
    · simp only [hfilled, if_true]
      exact (h.withModel (alike_observeFilled h.model hcfg _ _)).release _
    · simpa only [hcanceled, hfilled, if_false] using h

theorem cfg_recordFill {u : FillUpdate} {i : ℕ} {lookup : Exchange → ℚ} :
    (r.recordFill i e u lookup).model.cfg = r.model.cfg := by
  unfold recordFill
  split
  · exact (cfg_observePrice ..).trans (cfg_observeFilled ..)
  · rfl

theorem Alike.onFill (h : r.Alike e e' r') (hcfg : r.model.cfg.Comparable) {u u' : FillUpdate}
    (hu : FillNoWorse e r u u') (now : ℤ) (midPrice : ℚ) :
    (r.onFill e u now fun _ => midPrice).Alike e e' (r'.onFill e' u' now fun _ => midPrice) := by
  have hid : u'.clientOrderId = u.clientOrderId := by rw [hu.same]
  have hnew : u'.newState = u.newState := by rw [hu.same]
  unfold VenueQualityRuntime.onFill
  rw [hid, hnew, h.find]
  by_cases hrejected : u.newState = .rejected
  · simp only [hrejected, if_true]
    exact (h.withModel (h.model.take hcfg (.same (.reject true)))).release _
  · simp only [hrejected, if_false]
    cases hfind : r.find u.clientOrderId e with
    | none => exact h
    | some i =>
      exact (h.recordFill hcfg hu.same (hu.price i hfind) midPrice).recordState
        (cfg_recordFill.symm ▸ hcfg) hu.same i now

theorem Alike.onSubmit (h : r.Alike e e' r') (hcfg : r.model.cfg.Comparable) (order : Order)
    (result : ConnectorResult) (now : ℤ) :
    (r.onSubmit { order with exchange := e } result now).Alike e e'
      (r'.onSubmit { order with exchange := e' } result now) := by
  unfold VenueQualityRuntime.onSubmit
  by_cases hresult : result ≠ .ok
  · rw [if_pos hresult, if_pos hresult]
    exact (h.withModel (h.model.take hcfg (.same (.reject true)))).release _
  · rw [if_neg hresult, if_neg hresult]
    have hcounted := h.withModel (h.model.take hcfg (.same (.reject false)))
    have hslot := congrArg₂ Option.or (hcounted.find order.clientOrderId) hcounted.acquire
    simp only [VenueQualityModel.take] at hslot hcounted ⊢
    rw [hslot]
    cases (VenueQualityRuntime.find _ order.clientOrderId e).or _ with
    | none => exact hcounted
    | some i => exact hcounted.setTracked ⟨rfl, fun _ => ⟨rfl, rfl⟩⟩ i

/-- What an event of the venue makes of the runtime. -/
def call (e : Exchange) (r : VenueQualityRuntime) : VenueEvent → VenueQualityRuntime
  | .submit order result now => r.onSubmit { order with exchange := e } result now
  | .fill update now midPrice => r.onFill e update now fun _ => midPrice
  | .health healthy => { r with model := r.model.observeHealth e healthy }

/-- **The same event but for the prices of a fill**, which is at least as good as the other. -/
def NoWorse (e : Exchange) (r : VenueQualityRuntime) : VenueEvent → VenueEvent → Prop
  | .fill u now midPrice, .fill u' now' midPrice' =>
    now' = now ∧ midPrice' = midPrice ∧ FillNoWorse e r u u'
  | x, x' => x' = x

instance (e : Exchange) (r : VenueQualityRuntime) (x x' : VenueEvent) :
    Decidable (NoWorse e r x x') :=
  match x, x' with
  | .fill u now midPrice, .fill u' now' midPrice' =>
    inferInstanceAs (Decidable (now' = now ∧ midPrice' = midPrice ∧ FillNoWorse e r u u'))
  | .submit .., x' | .health .., x' => inferInstanceAs (Decidable (x' = _))
  | .fill .., .submit .. | .fill .., .health .. => isFalse fun h => by cases h

/-- **A step of both venues** keeps them alike. -/
theorem Alike.call (h : r.Alike e e' r') (hcfg : r.model.cfg.Comparable) {x x' : VenueEvent}
    (hx : NoWorse e r x x') : (r.call e x).Alike e e' (r'.call e' x') := by
  cases x with
  | submit order result now =>
    cases x' with
    | submit => cases hx; exact h.onSubmit hcfg order result now
    | fill | health => cases hx
  | fill u now midPrice =>
    cases x' with
    | fill u' now' midPrice' =>
      obtain ⟨rfl, rfl, hu⟩ := hx
      exact h.onFill hcfg hu now' midPrice'
    | submit | health => cases hx
  | health healthy =>
    cases x' with
    | health => cases hx; exact h.withModel (h.model.take hcfg (.same (.health healthy)))
    | submit | fill => cases hx

/-! ## The taker markout -/

/-- The taker markout of a venue. -/
def takerMarkoutBps (e : Exchange) (r : VenueQualityRuntime) : ℚ :=
  (r.model.stateFor e).takerMarkoutBps

/-- The quality of the taker fill that an event is, if it is one of a tracked order, with a price
and a mid. -/
def takerFill (e : Exchange) (r : VenueQualityRuntime) : VenueEvent → Option ℚ
  | .fill u _ midPrice =>
    if u.newState = .rejected then none
    else
      (r.find u.clientOrderId e).bind fun i =>
        if u.fillQty > 0 ∧ (midPrice > 0 ∧ u.fillPrice > 0) ∧ (r.tracked i).tif ≠ .gtx then
          some ((r.tracked i).realizedFillQualityBps u.fillPrice midPrice)
        else none
  | _ => none

@[simp] theorem model_release (id : ℕ) : (r.release id e).model = r.model := by
  unfold release
  split <;> rfl

theorem takerMarkout_observeFilled (m : VenueQualityModel) (quantity share : ℚ) :
    ((observeFilled m e quantity share).stateFor e).takerMarkoutBps =
      (m.stateFor e).takerMarkoutBps := by
  unfold observeFilled
  by_cases hquantity : quantity > 0
  · simp only [hquantity, if_true]
    exact VenueQualityModel.takerMarkout_take_of_ne (o := .fillProbability share)
      fun h => by cases h
  · simp only [hquantity, if_false]

theorem takerMarkout_recordState (u : FillUpdate) (i : ℕ) (now : ℤ) :
    (r.recordState i e u now).takerMarkoutBps e = r.takerMarkoutBps e := by
  unfold recordState takerMarkoutBps
  by_cases hcanceled : u.newState = .canceled
  · simp only [hcanceled, if_true, model_release]
    rw [takerMarkout_observeFilled]
    exact VenueQualityModel.takerMarkout_take_of_ne (o := .cancelLatency _) fun h => by cases h
  · by_cases hfilled : u.newState = .filled
    · simp only [hfilled, reduceCtorEq, if_true, if_false, model_release]
      exact takerMarkout_observeFilled ..
    · simp only [hcanceled, hfilled, if_false]

theorem takerMarkout_recordFill (hcfg : r.model.cfg.Comparable) (u : FillUpdate) (i : ℕ)
    (midPrice : ℚ) :
    (r.recordFill i e u fun _ => midPrice).takerMarkoutBps e =
      if u.fillQty > 0 ∧ (midPrice > 0 ∧ u.fillPrice > 0) ∧ (r.tracked i).tif ≠ .gtx then
        smooth r.model.cfg.markoutAlpha r.model.cfg.maxMarkoutStepBps (-10) 10
          (r.takerMarkoutBps e) ((r.tracked i).realizedFillQualityBps u.fillPrice midPrice)
      else r.takerMarkoutBps e := by
  unfold recordFill takerMarkoutBps
  by_cases hfill : u.fillQty > 0
  · simp only [hfill, if_true, true_and]
    generalize hfilled : (r.tracked i).filledBy u = t
    have htif : t.tif = (r.tracked i).tif := by rw [← hfilled]; rfl
    have hquality : (r.tracked i).realizedFillQualityBps u.fillPrice midPrice =
        t.realizedFillQualityBps u.fillPrice midPrice := by
      rw [← hfilled]
      rfl
    rw [hquality, ← htif]
    have hcfg' : (observeFilled r.model e t.quantity t.filledShare).cfg.Comparable :=
      (cfg_observeFilled _ _).symm ▸ hcfg
    unfold observePrice
    by_cases hpriced : midPrice > 0 ∧ u.fillPrice > 0
    · rw [if_pos hpriced]
      by_cases hgtx : t.tif = .gtx
      · rw [if_neg fun h => h.2 hgtx]
        refine Eq.trans ?_ (takerMarkout_observeFilled r.model t.quantity t.filledShare)
        exact VenueQualityModel.takerMarkout_take_of_ne (o := .markout _ _)
          (by simp [VenueObservation.component, hgtx])
      · rw [if_pos ⟨hpriced, hgtx⟩]
        refine (VenueQualityModel.takerMarkout_take (o := .markout _ _) hcfg'
          (by simp [VenueObservation.component, hgtx])).trans ?_
        rw [takerMarkout_observeFilled, cfg_observeFilled]
        rfl
    · rw [if_neg hpriced, if_neg fun h => hpriced h.1]
      exact takerMarkout_observeFilled ..
  · simp only [hfill, if_false, false_and]

/-- **A taker fill smooths the taker markout**, and no other event moves it. -/
theorem takerMarkout_call (hcfg : r.model.cfg.Comparable) (x : VenueEvent) :
    (r.call e x).takerMarkoutBps e =
      (r.takerFill e x).elim (r.takerMarkoutBps e)
        (smooth r.model.cfg.markoutAlpha r.model.cfg.maxMarkoutStepBps (-10) 10
          (r.takerMarkoutBps e)) := by
  cases x with
  | submit order result now =>
    have hreject (rejected : Bool) :
        ((r.model.observeReject e rejected).stateFor e).takerMarkoutBps =
          (r.model.stateFor e).takerMarkoutBps :=
      VenueQualityModel.takerMarkout_take_of_ne (o := .reject rejected) fun h => by cases h
    simp only [call, takerFill, Option.elim_none]
    unfold onSubmit takerMarkoutBps
    by_cases hresult : result ≠ .ok
    · rw [if_pos hresult, model_release]
      exact hreject true
    · rw [if_neg hresult]
      refine Eq.trans ?_ (hreject false)
      simp only
      split <;> rfl
  | health healthy =>
    exact VenueQualityModel.takerMarkout_take_of_ne (o := .health healthy) fun h => by cases h
  | fill u now midPrice =>
    unfold call onFill takerFill
    by_cases hrejected : u.newState = .rejected
    · simp only [hrejected, if_true, Option.elim_none]
      rw [takerMarkoutBps, model_release]
      exact VenueQualityModel.takerMarkout_take_of_ne (o := .reject true) fun h => by cases h
    · simp only [hrejected, if_false]
      cases r.find u.clientOrderId e with
      | none => rfl
      | some i =>
        simp only [Option.bind_some, takerMarkout_recordState, takerMarkout_recordFill hcfg]
        split <;> rfl

/-- Two fills that are no worse are both taker fills or neither. -/
theorem Alike.takerFill (h : r.Alike e e' r') {x x' : VenueEvent} (hx : NoWorse e r x x') :
    (r.takerFill e x = none ∧ r'.takerFill e' x' = none) ∨
      ∃ q q', r.takerFill e x = some q ∧ r'.takerFill e' x' = some q' ∧ q' ≤ q := by
  cases x with
  | submit => cases x' <;> first | exact Or.inl ⟨rfl, rfl⟩ | cases hx
  | health => cases x' <;> first | exact Or.inl ⟨rfl, rfl⟩ | cases hx
  | fill u now midPrice =>
    cases x' with
    | submit | health => cases hx
    | fill u' now' midPrice' =>
      obtain ⟨rfl, rfl, hsame, hprice⟩ := hx
      have hid : u'.clientOrderId = u.clientOrderId := by rw [hsame]
      have hnew : u'.newState = u.newState := by rw [hsame]
      have hqty : u'.fillQty = u.fillQty := by rw [hsame]
      unfold VenueQualityRuntime.takerFill
      simp only [hid, hnew, hqty, h.find]
      by_cases hrejected : u.newState = .rejected
      · exact Or.inl (by simp [hrejected])
      · simp only [hrejected, if_false]
        cases hfind : r.find u.clientOrderId e with
        | none => exact Or.inl ⟨rfl, rfl⟩
        | some i =>
          have htif : (r'.tracked i).tif = (r.tracked i).tif := by rw [(h.tracked i).same]
          simp only [Option.bind_some, htif, (h.tracked i).quality]
          rcases hprice i hfind with hprice | ⟨hpos, hpos', hside⟩
          · rw [hprice]
            split
            · exact Or.inr ⟨_, _, rfl, rfl, le_rfl⟩
            · exact Or.inl ⟨rfl, rfl⟩
          · have hpositive : u'.fillPrice > 0 ↔ u.fillPrice > 0 := iff_of_true hpos' hpos
            simp only [hpositive]
            split
            · rename_i hcounted
              exact Or.inr ⟨_, _, rfl, rfl,
                TrackedOrder.quality_le_quality hcounted.2.1.1 hpos hpos' hside⟩
            · exact Or.inl ⟨rfl, rfl⟩

/-! ## The rank -/

/-- The expected shortfall of the venue at a quote that the model decorates. -/
def shortfallBps (e : Exchange) (r : VenueQualityRuntime) (quote : VenueQuote) (side : Side)
    (regime : RoutingRegime) (bestPx inventoryAgePenaltyBps minFillProbability : ℚ) : ℚ :=
  SmartOrderRouter.expectedShortfallBps (r.model.apply { quote with exchange := e }) side regime
    bestPx inventoryAgePenaltyBps minFillProbability

/-- The first venue ranks no worse than the second. -/
def RanksNoWorse (e e' : Exchange) (quote : VenueQuote) (side : Side) (regime : RoutingRegime)
    (bestPx inventoryAgePenaltyBps minFillProbability : ℚ) (r r' : VenueQualityRuntime) : Prop :=
  r.shortfallBps e quote side regime bestPx inventoryAgePenaltyBps minFillProbability ≤
    r'.shortfallBps e' quote side regime bestPx inventoryAgePenaltyBps minFillProbability

instance (e e' : Exchange) (quote : VenueQuote) (side : Side) (regime : RoutingRegime)
    (bestPx inventoryAgePenaltyBps minFillProbability : ℚ) (r r' : VenueQualityRuntime) :
    Decidable (RanksNoWorse e e' quote side regime bestPx inventoryAgePenaltyBps
      minFillProbability r r') :=
  inferInstanceAs (Decidable (_ ≤ _))

/-- No price to trade at on the side, or to compare it with. -/
def Unpriced (quote : VenueQuote) (side : Side) (bestPx : ℚ) : Prop :=
  SmartOrderRouter.quotePriceForSide quote side ≤ 0 ∨ bestPx ≤ 0

section Rank

variable {quote : VenueQuote} {side : Side} {regime : RoutingRegime}
  {bestPx inventoryAgePenaltyBps minFillProbability : ℚ}

theorem quotePriceForSide_apply (m : VenueQualityModel) (e : Exchange) :
    SmartOrderRouter.quotePriceForSide (m.apply { quote with exchange := e }) side =
      SmartOrderRouter.quotePriceForSide quote side := by
  unfold VenueQualityModel.apply
  split <;> cases side <;> rfl

theorem shortfallBps_of_unpriced (h : Unpriced quote side bestPx) :
    r.shortfallBps e quote side regime bestPx inventoryAgePenaltyBps minFillProbability =
      SmartOrderRouter.infinitePrice := by
  unfold Unpriced at h
  simp only [shortfallBps, SmartOrderRouter.expectedShortfallBps, quotePriceForSide_apply, h,
    if_true]

/-- **The taker markout decides the rank**: it is added to the cost. -/
theorem Alike.ranks_iff (h : r.Alike e e' r') (he : e ≠ .unknown) (he' : e' ≠ .unknown)
    (hpriced : ¬ Unpriced quote side bestPx) :
    RanksNoWorse e e' quote side regime bestPx inventoryAgePenaltyBps minFillProbability r r' ↔
      r.takerMarkoutBps e ≤ r'.takerMarkoutBps e' := by
  have hstate := h.model.state
  unfold Unpriced at hpriced
  unfold RanksNoWorse shortfallBps SmartOrderRouter.expectedShortfallBps
  simp only [quotePriceForSide_apply, hpriced, if_false, add_le_add_iff_right]
  unfold SmartOrderRouter.scoreVenueBps SmartOrderRouter.effectivePriceBps
    SmartOrderRouter.effectiveFillProbability
  simp only [quotePriceForSide_apply]
  simp only [VenueQualityModel.apply, he, he', if_false, VenueQualityModel.snapshot,
    hstate.penalty, hstate.fill, hstate.shown, hstate.shown', add_le_add_iff_right,
    add_le_add_iff_left]
  exact Iff.rfl

end Rank

theorem cfg_call (x : VenueEvent) : (r.call e x).model.cfg = r.model.cfg := by
  cases x with
  | health => rfl
  | submit order result now =>
    simp only [call]
    unfold onSubmit
    by_cases hresult : result ≠ .ok
    · rw [if_pos hresult, model_release]
      rfl
    · rw [if_neg hresult]
      simp only
      split <;> rfl
  | fill u now midPrice =>
    simp only [call]
    unfold onFill recordState
    by_cases hrejected : u.newState = .rejected
    · rw [if_pos hrejected, model_release]
      rfl
    · rw [if_neg hrejected]
      cases r.find u.clientOrderId e with
      | none => rfl
      | some i =>
        simp only
        split
        · rw [model_release]
          exact (cfg_observeFilled ..).trans cfg_recordFill
        · split
          · rw [model_release]
            exact (cfg_observeFilled ..).trans cfg_recordFill
          · exact cfg_recordFill

end VenueQualityRuntime

/-- **A better fill counts no more than a worse one**: they are the same, or markouts do not move,
or the worse one already moves the markout up as far as it goes, or the better one still down as
far as it goes. -/
def VenueQualityConfig.CountsAlike (cfg : VenueQualityConfig) (markout better worse : ℚ) : Prop :=
  worse = better ∨ cfg.markoutAlpha = 0 ∨ cfg.maxMarkoutStepBps = 0 ∨
    min cfg.maxMarkoutStepBps (10 - markout) ≤ cfg.markoutAlpha * (worse - markout) ∨
      cfg.markoutAlpha * (better - markout) ≤ max (-10 - markout) (-cfg.maxMarkoutStepBps)

instance (cfg : VenueQualityConfig) (markout better worse : ℚ) :
    Decidable (cfg.CountsAlike markout better worse) :=
  inferInstanceAs (Decidable (_ ∨ _ ∨ _ ∨ _ ∨ _))

namespace VenueQualityRuntime

variable {e e' : Exchange} {r r' : VenueQualityRuntime}

/-- An event of each venue. -/
def callBoth (e e' : Exchange) (s : VenueQualityRuntime × VenueQualityRuntime)
    (x : VenueEvent × VenueEvent) : VenueQualityRuntime × VenueQualityRuntime :=
  (s.1.call e x.1, s.2.call e' x.2)

/-- If the events are taker fills, that of the first venue counts no more. -/
def CountsAlike (e e' : Exchange) (s : VenueQualityRuntime × VenueQualityRuntime)
    (x : VenueEvent × VenueEvent) : Prop :=
  ∀ better ∈ s.1.takerFill e x.1, ∀ worse ∈ s.2.takerFill e' x.2,
    s.1.model.cfg.CountsAlike (s.1.takerMarkoutBps e) better worse

instance (e e' : Exchange) (s : VenueQualityRuntime × VenueQualityRuntime)
    (x : VenueEvent × VenueEvent) : Decidable (CountsAlike e e' s x) :=
  inferInstanceAs (Decidable (∀ better ∈ s.1.takerFill e x.1, ∀ worse ∈ s.2.takerFill e' x.2,
    s.1.model.cfg.CountsAlike (s.1.takerMarkoutBps e) better worse))

/-- After taker markouts that are the same, the first is still no higher exactly when the fills
count alike. -/
theorem Alike.takerMarkout_call_le_iff (h : r.Alike e e' r') (hcfg : r.model.cfg.Comparable)
    {x x' : VenueEvent} (hx : NoWorse e r x x')
    (hle : r.takerMarkoutBps e ≤ r'.takerMarkoutBps e') :
    (r.call e x).takerMarkoutBps e ≤ (r'.call e' x').takerMarkoutBps e' ↔
      CountsAlike e e' (r, r') (x, x') := by
  have hsame : r'.takerMarkoutBps e' = r.takerMarkoutBps e := le_antisymm h.model.state.le hle
  have hcfg' : r'.model.cfg.Comparable := h.model.cfg.symm ▸ hcfg
  rw [takerMarkout_call hcfg, takerMarkout_call hcfg', hsame, h.model.cfg]
  unfold CountsAlike
  simp only
  rcases h.takerFill hx with ⟨hnone, hnone'⟩ | ⟨better, worse, hbetter, hworse, hle⟩
  · rw [hnone, hnone']
    simp
  · rw [hbetter, hworse]
    simp only [Option.elim_some, Option.mem_def, Option.some.injEq, forall_eq']
    have hmem : r.takerMarkoutBps e ∈ Set.Icc (-10 : ℚ) 10 := h.model.state.mem
    rw [VenueQualityConfig.CountsAlike, ← smooth_eq_smooth_iff hcfg.markoutAlpha_mem.1
      hcfg.maxMarkoutStep_nonneg (by norm_num) hmem hle]
    constructor
    · exact fun hsmooth =>
        le_antisymm (smooth_le_smooth hcfg.markoutAlpha_mem le_rfl hle) hsmooth
    · exact fun hsmooth => hsmooth.ge

/-- A runtime that has seen nothing. -/
def start (cfg : VenueQualityConfig) : VenueQualityRuntime where
  model := { cfg := cfg }

/-- The runtime after the history of a venue. -/
def run (cfg : VenueQualityConfig) (e : Exchange) (history : List VenueEvent) :
    VenueQualityRuntime :=
  history.foldl (call e) (start cfg)

theorem foldl_callBoth (cfg : VenueQualityConfig) (histories : List (VenueEvent × VenueEvent)) :
    histories.foldl (callBoth e e') (start cfg, start cfg) =
      (run cfg e (histories.map Prod.fst), run cfg e' (histories.map Prod.snd)) := by
  rw [run, run, List.foldl_map, List.foldl_map]
  generalize start cfg = r
  suffices h : ∀ r r' : VenueQualityRuntime, histories.foldl (callBoth e e') (r, r') =
      (histories.foldl (fun r x => r.call e x.1) r,
        histories.foldl (fun r x => r.call e' x.2) r') from h r r
  induction histories with
  | nil => exact fun _ _ => rfl
  | cons x histories ih => exact fun r r' => ih (r.call e x.1) (r'.call e' x.2)

/-- Two runtimes under a configuration are alike. -/
structure Together (cfg : VenueQualityConfig) (e e' : Exchange)
    (s : VenueQualityRuntime × VenueQualityRuntime) : Prop where
  cfg : s.1.model.cfg = cfg
  alike : s.1.Alike e e' s.2

theorem together_start (cfg : VenueQualityConfig) : Together cfg e e' (start cfg, start cfg) where
  cfg := rfl
  alike :=
    { model := ⟨rfl, fun _ _ _ => rfl, rfl, rfl, rfl, rfl, le_rfl,
        by norm_num [start, VenueQualityModel.stateFor]⟩
      orders := List.forall₂_same.mpr fun t ht => by
        rw [List.eq_of_mem_replicate ht]
        exact TrackedOrder.alike_default e e' }

/-- **Better executions do not make a venue rank worse**, anywhere along two histories, exactly
when the venues have no price, or no taker fill that is better than the other counts for more. -/
theorem shortfall_run_iff (cfg : VenueQualityConfig) (hcfg : cfg.Comparable)
    (he : e ≠ .unknown) (he' : e' ≠ .unknown) (histories : List (VenueEvent × VenueEvent))
    (hbetter : AllSteps (callBoth e e') (fun s x => NoWorse e s.1 x.1 x.2) (start cfg, start cfg)
      histories) (quote : VenueQuote) (side : Side) (regime : RoutingRegime)
    (bestPx inventoryAgePenaltyBps minFillProbability : ℚ) :
    (∀ pre, pre <+: histories →
      RanksNoWorse e e' quote side regime bestPx inventoryAgePenaltyBps minFillProbability
        (run cfg e (pre.map Prod.fst)) (run cfg e' (pre.map Prod.snd))) ↔
      Unpriced quote side bestPx ∨
        AllSteps (callBoth e e') (CountsAlike e e') (start cfg, start cfg) histories := by
  by_cases hpriced : Unpriced quote side bestPx
  · simp only [RanksNoWorse, shortfallBps_of_unpriced hpriced, hpriced, true_or, le_refl,
      implies_true]
  · have hinv : ∀ s x, Together cfg e e' s → NoWorse e s.1 x.1 x.2 →
        Together cfg e e' (callBoth e e' s x) :=
      fun s x h hx => ⟨(cfg_call x.1).trans h.cfg, h.alike.call (h.cfg.symm ▸ hcfg) hx⟩
    have hstep : ∀ s x, Together cfg e e' s → NoWorse e s.1 x.1 x.2 →
        RanksNoWorse e e' quote side regime bestPx inventoryAgePenaltyBps minFillProbability
          s.1 s.2 →
        (RanksNoWorse e e' quote side regime bestPx inventoryAgePenaltyBps minFillProbability
          (callBoth e e' s x).1 (callBoth e e' s x).2 ↔ CountsAlike e e' s x) := by
      intro s x h hx hranks
      rw [(hinv s x h hx).alike.ranks_iff he he' hpriced]
      exact h.alike.takerMarkout_call_le_iff (h.cfg.symm ▸ hcfg) hx
        ((h.alike.ranks_iff he he' hpriced).mp hranks)
    have hstart : RanksNoWorse e e' quote side regime bestPx inventoryAgePenaltyBps
        minFillProbability (start cfg, start cfg).1 (start cfg, start cfg).2 :=
      ((together_start cfg).alike.ranks_iff he he' hpriced).mpr le_rfl
    have hruns := hbetter.forall_prefix_iff hinv hstep (together_start cfg)
    rw [and_iff_right hstart] at hruns
    rw [or_iff_right hpriced, ← hruns]
    simp only [foldl_callBoth]

/-- No penalty on what is apart. -/
def unscaled : VenueQualityConfig := { stabilityPenaltyScale := 0 }

theorem comparable_unscaled : unscaled.Comparable :=
  ⟨rfl, by norm_num [unscaled], by norm_num [unscaled]⟩

/-- A quote of 99 to 101. -/
def quoted : VenueQuote := { bestBid := 99, bestAsk := 101, healthy := true }

/-- An order to buy, filled at 99 at one venue and at 101 at the other, with the mid at 100. -/
def bought (tif : TimeInForce) : List (VenueEvent × VenueEvent) :=
  let order : Order := { clientOrderId := 1, tif := tif, quantity := 1 }
  let update : FillUpdate := { clientOrderId := 1, fillQty := 1, newState := .filled }
  [(.submit order .ok 0, .submit order .ok 0),
    (.fill { update with fillPrice := 99 } 1 100, .fill { update with fillPrice := 101 } 1 100)]

/-- **The venue that filled better ranks worse**: its markout is added to its cost. -/
theorem better_fill_ranks_worse :
    unscaled.Comparable ∧
      AllSteps (callBoth .okx .kraken) (fun s x => NoWorse .okx s.1 x.1 x.2)
        (start unscaled, start unscaled) (bought .ioc) ∧
      ¬ ∀ pre, pre <+: bought .ioc →
        RanksNoWorse .okx .kraken quoted .bid ⟨0, 0, 0⟩ 101 0 0
          (run unscaled .okx (pre.map Prod.fst)) (run unscaled .kraken (pre.map Prod.snd)) := by
  refine ⟨comparable_unscaled, by decide +kernel, fun h => ?_⟩
  exact absurd (h _ (List.prefix_refl _)) (by decide +kernel)

/-- A passive fill counts for nothing. -/
theorem passive_fill_ranks :
    AllSteps (callBoth .okx .kraken) (fun s x => NoWorse .okx s.1 x.1 x.2)
        (start unscaled, start unscaled) (bought .gtx) ∧
      ∀ pre, pre <+: bought .gtx →
        RanksNoWorse .okx .kraken quoted .bid ⟨0, 0, 0⟩ 101 0 0
          (run unscaled .okx (pre.map Prod.fst)) (run unscaled .kraken (pre.map Prod.snd)) := by
  have hbetter : AllSteps (callBoth .okx .kraken) (fun s x => NoWorse .okx s.1 x.1 x.2)
      (start unscaled, start unscaled) (bought .gtx) := by decide +kernel
  exact ⟨hbetter, (shortfall_run_iff unscaled comparable_unscaled (by decide) (by decide)
    (bought .gtx) hbetter quoted .bid ⟨0, 0, 0⟩ 101 0 0).mpr (Or.inr (by decide +kernel))⟩

end VenueQualityRuntime

end TradingInfrastructure
