import TradingInfrastructure.Shadow.Checks

/-!
# Time in force of shadow orders

What the time in force of an order asks for: an immediate-or-cancel order ends at the first visit
at its release or later, a fill-or-kill order is filled as a whole or not at all, and a post-only
order whose price crosses when it is released is never filled.

The connector cancels an immediate-or-cancel order that `check_fills` finds not to cross, and looks
at the time in force nowhere else. So the life of an order honors its time in force exactly when
what the book offers happens to be enough (`ShadowOrder.honored_iff`).
-/

namespace TradingInfrastructure

/-- The fills that some visits emit. -/
def ShadowVisit.fillsOf (vs : List ShadowVisit) : List FillUpdate :=
  (vs.flatMap ShadowVisit.emitted).filter (0 < ·.fillQty)

/-- The visits honor the time in force of the order. -/
structure Order.HonoredBy (o : Order) (vs : List ShadowVisit) : Prop where
  ioc : o.tif = .ioc → ∀ v ∈ vs, v.Released → v.after.active = false
  fok : o.tif = .fok → ShadowVisit.fillsOf vs = [] ∨
    ∃ u, ShadowVisit.fillsOf vs = [u] ∧ u.fillQty = o.quantity
  gtx : o.tif = .gtx → ∀ v, vs.find? (·.Released) = some v → v.Crosses →
    ShadowVisit.fillsOf vs = []

/-- The book offers what the time in force asks for: at the submission `p`, and at the visits `vs`
of `check_fills`. -/
structure Order.Offered (cfg : ShadowConfig) (o : Order) (p : ShadowVisit)
    (vs : List ShadowVisit) : Prop where
  /-- The order crosses if it is released at once, and `check_fills` finds enough for what
  remains. -/
  ioc : o.tif = .ioc → (p.Released → p.before.isImmediatelyFillable p.book = true) ∧
    ∀ v ∈ vs, v.Released → v.Crosses →
      0 < v.before.matchableQty cfg v.book ∧ v.before.quantity - v.before.filledQty -
        ShadowOrder.fillTolerance ≤ v.before.matchableQty cfg v.book
  /-- `check_fills` finds enough for the whole order, or nothing. -/
  fok : o.tif = .fok → ∀ v ∈ vs, v.Released → v.Crosses →
    v.before.matchableQty cfg v.book ≤ 0 ∨ v.before.quantity ≤ v.before.matchableQty cfg v.book
  /-- An order that crosses at its release is not released at once, and `check_fills` finds
  nothing. -/
  gtx : o.tif = .gtx → ∀ v, (p :: vs).find? (·.Released) = some v → v.Crosses →
    ¬ p.Released ∧ ∀ w ∈ vs, w.Released → w.Crosses → w.before.matchableQty cfg w.book ≤ 0

namespace ShadowOrder

variable {cfg : ShadowConfig} {book : OrderBook} {now : ℤ} {s : ShadowOrder} {v : ShadowVisit}
  {a : ShadowAccounts} {x : OrderBook × ℤ}

/-- Something remains of an active order. -/
def Remains (s : ShadowOrder) : Prop := s.active = true → 0 < s.quantity - s.filledQty

/-- A fill leaves more than the tolerance, or ends the order. -/
theorem remains_filledBy (s : ShadowOrder) (px qty : ℚ) : (s.filledBy px qty).Remains := by
  intro hactive
  have htolerance := fillTolerance_pos
  by_cases hcomplete : s.quantity - fillTolerance ≤ s.filledQty + qty
  · simp [filledBy, hcomplete] at hactive
  · have hfilled : (s.filledBy px qty).filledQty = s.filledQty + qty := by
      simp [filledBy, hcomplete]
    have hquantity : (s.filledBy px qty).quantity = s.quantity := rfl
    rw [hfilled, hquantity]
    linarith

/-- A visit leaves something of an order that it leaves active. -/
theorem remains_after (hv : v.Spec cfg) (h : v.before.Remains) : v.after.Remains := by
  by_cases hfills : v.Fills
  · obtain ⟨queueAhead, hafter, -⟩ := hv.fills hfills
    rw [hafter]
    exact remains_filledBy _ _ _
  · obtain ⟨-, -, queueAhead, maker, active, hkept, hafter⟩ := hv.idle hfills
    rw [hafter]
    exact fun hactive => h (hkept hactive)

/-- A visit of `check_fills` fills an order with a price when it is released, crosses and finds
something. -/
theorem check_fills_iff (hremains : s.Remains) (htype : s.type ≠ .market) :
    (s.check cfg x).Fills ↔ (s.check cfg x).Released ∧ (s.check cfg x).Crosses ∧
      0 < s.matchableQty cfg x.1 := by
  have hmatched : (s.check cfg x).matched = s.matchedQty cfg x.1 x.2 := rfl
  rw [ShadowVisit.Fills, hmatched, matchedQty, if_neg htype]
  constructor
  · rintro ⟨hpos, -⟩
    split_ifs at hpos with hreleased hfillable
    · exact ⟨hreleased, ⟨htype, hfillable⟩, (lt_min_iff.mp hpos).2⟩
    · exact absurd hpos (lt_irrefl 0)
    · exact absurd hpos (lt_irrefl 0)
  · rintro ⟨hreleased, ⟨-, hfillable⟩, hpos⟩
    have hreleased' : s.active = true ∧ s.releaseTsNs ≤ x.2 := hreleased
    have hfillable' : s.isImmediatelyFillable x.1 = true := hfillable
    rw [if_pos hreleased', if_pos hfillable']
    exact ⟨lt_min (hremains hreleased'.1) hpos, oppositeBest_pos htype hfillable'⟩

/-! ## Immediate or cancel -/

/-- **When a visit of `check_fills` ends an immediate-or-cancel order.** -/
theorem check_ends_iff (hremains : s.Remains) (htif : s.tif = .ioc)
    (hreleased : (s.check cfg x).Released) : (s.check cfg x).after.active = false ↔
      ((s.check cfg x).Crosses → 0 < s.matchableQty cfg x.1 ∧
        s.quantity - s.filledQty - fillTolerance ≤ s.matchableQty cfg x.1) := by
  have hrem := hremains hreleased.1
  have hafter : (s.check cfg x).after = (s.checkFill cfg x.1 x.2 {}).2 := rfl
  have hcrosses : (s.check cfg x).Crosses ↔
    s.type ≠ .market ∧ s.isImmediatelyFillable x.1 = true := Iff.rfl
  have hrelease : s.active = true ∧ s.releaseTsNs ≤ x.2 := hreleased
  rw [hafter, hcrosses, inactive_checkFill_iff, EndsAt, imp_iff_right hrelease.1,
    and_iff_right hrelease.2]
  by_cases htype : s.type = .market
  · rw [if_pos htype]
    exact iff_of_true hrem fun h => absurd htype h.1
  · rw [if_neg htype]
    by_cases hfillable : s.isImmediatelyFillable x.1 = true
    · rw [if_pos hfillable, imp_iff_right ⟨htype, hfillable⟩,
        or_iff_right (not_le.mpr hrem)]
    · rw [if_neg hfillable]
      exact iff_of_true htif fun h => absurd h.2 hfillable

/-- When the submission ends an immediate-or-cancel order. -/
theorem placement_ends_iff {order : Order} (hquantity : 0 < order.quantity)
    (hreleased : (placement cfg book now order).Released) :
    (placement cfg book now order).after.active = false ↔
      (ShadowConnector.newOrder cfg book now order).isImmediatelyFillable book = true := by
  have hrelease : (ShadowConnector.newOrder cfg book now order).releaseTsNs ≤
    (ShadowConnector.newOrder cfg book now order).submitTsNs := hreleased.2
  have hafter : (placement cfg book now order).after = (ShadowConnector.placeOrder cfg book now {}
    (ShadowConnector.newOrder cfg book now order)).2 := rfl
  have hlive : (ShadowConnector.newOrder cfg book now order).active = true := rfl
  rw [hafter, placeOrder_eq]
  by_cases hfillable :
    (ShadowConnector.newOrder cfg book now order).isImmediatelyFillable book = true
  · rw [if_pos ⟨hrelease, hfillable⟩]
    have hwhole : (ShadowConnector.newOrder cfg book now order).quantity =
      (ShadowConnector.newOrder cfg book now order).quantity -
        (ShadowConnector.newOrder cfg book now order).filledQty := (sub_zero _).symm
    rw [hwhole]
    exact iff_of_true (fillAtBest_ends hlive (hwhole ▸ hquantity)) hfillable
  · rw [if_neg fun h => hfillable h.2]
    exact iff_of_false Bool.noConfusion hfillable

/-- The visits of `check_fills` to an order come to slots with its terms, of which something
remains while they are active. -/
theorem mem_checks {xs : List (OrderBook × ℤ)} (h : s.Remains) : ∀ v ∈ checks cfg s xs,
    ∃ t x, v = t.check cfg x ∧ t.Remains ∧ s.SameTerms t := by
  have hstep : ∀ (t : ShadowOrder) x, t.Remains ∧ s.SameTerms t → True →
      (∃ t' x', t.check cfg x = t'.check cfg x' ∧ t'.Remains ∧ s.SameTerms t') ∧
        ((t.check cfg x).after.Remains ∧ s.SameTerms (t.check cfg x).after) :=
    fun t x ht _ => ⟨⟨t, x, rfl, ht⟩, remains_after (check_spec t x) ht.1,
      ht.2.trans (sameTerms_after (check_spec t x))⟩
  exact forall_checks (P := fun t => t.Remains ∧ s.SameTerms t)
    (Q := fun v => ∃ t x, v = t.check cfg x ∧ t.Remains ∧ s.SameTerms t) hstep ⟨h, .refl s⟩
    fun _ _ => trivial

/-! ## Fills -/

/-- The fills of a visit. -/
theorem fillsOf_visit (hv : v.Spec cfg) :
    (v.Fills ∧ ∃ u, ShadowVisit.fillsOf [v] = [u] ∧ u.fillQty = v.matched) ∨
      (¬ v.Fills ∧ ShadowVisit.fillsOf [v] = []) := by
  by_cases hfills : v.Fills
  · obtain ⟨u, hemitted, hqty⟩ : ∃ u, v.emitted = [u] ∧ u.fillQty = v.matched := by
      obtain ⟨queueAhead, -, hemitted, -⟩ := hv.fills hfills
      exact ⟨_, hemitted, rfl⟩
    refine Or.inl ⟨hfills, u, ?_, hqty⟩
    rw [ShadowVisit.fillsOf, List.flatMap_singleton, hemitted]
    exact List.filter_cons_of_pos (decide_eq_true (hqty ▸ hfills.1))
  · refine Or.inr ⟨hfills, ?_⟩
    rw [ShadowVisit.fillsOf, List.flatMap_singleton, List.filter_eq_nil_iff]
    intro u hu
    simp [(hv.idle hfills).1 u hu]

theorem fillsOf_cons (v : ShadowVisit) (vs : List ShadowVisit) :
    ShadowVisit.fillsOf (v :: vs) = ShadowVisit.fillsOf [v] ++ ShadowVisit.fillsOf vs := by
  simp [ShadowVisit.fillsOf]

/-- Visits that fill nothing. -/
theorem fillsOf_eq_nil_iff {vs : List ShadowVisit} (hvs : ∀ v ∈ vs, v.Spec cfg) :
    ShadowVisit.fillsOf vs = [] ↔ ∀ v ∈ vs, ¬ v.Fills := by
  induction vs with
  | nil => exact iff_of_true rfl fun _ h => absurd h List.not_mem_nil
  | cons v vs ih =>
    rw [fillsOf_cons, List.append_eq_nil_iff, List.forall_mem_cons,
      ih fun w hw => hvs w (List.mem_cons_of_mem _ hw)]
    refine and_congr_left' ?_
    rcases fillsOf_visit (hvs v (by simp)) with ⟨hfills, u, heq, -⟩ | ⟨hfills, heq⟩
    · rw [heq]
      exact iff_of_false (List.cons_ne_nil _ _) (not_not_intro hfills)
    · exact iff_of_true heq hfills

/-- An order that has ended is not visited any more. -/
theorem checks_inactive {xs : List (OrderBook × ℤ)} (hidle : s.active = false) :
    ∀ v ∈ checks cfg s xs, ¬ v.Released ∧ ¬ v.Fills := by
  have hstep : ∀ (t : ShadowOrder) x, t.active = false → True →
      (¬ (t.check cfg x).Released ∧ ¬ (t.check cfg x).Fills) ∧
        (t.check cfg x).after.active = false := by
    intro t x ht _
    have hreleased : ¬ (t.active = true ∧ t.releaseTsNs ≤ x.2) := fun h =>
      Bool.noConfusion (h.1.symm.trans ht)
    have hmatched : (t.check cfg x).matched = t.matchedQty cfg x.1 x.2 := rfl
    have hafter : (t.check cfg x).after = (t.checkFill cfg x.1 x.2 {}).2 := rfl
    rw [matchedQty, if_neg hreleased] at hmatched
    rw [checkFill_waiting hreleased] at hafter
    refine ⟨⟨hreleased, fun hfills => ?_⟩, hafter ▸ ht⟩
    exact lt_irrefl 0 (hmatched ▸ hfills.1)
  exact forall_checks (P := fun t => t.active = false)
    (Q := fun v => ¬ v.Released ∧ ¬ v.Fills) hstep hidle fun _ _ => trivial

/-! ## Fill or kill -/

/-- What `check_fills` matches for an order that it fills. -/
theorem check_matched (hfills : (s.check cfg x).Fills) : (s.check cfg x).matched =
    if s.type = .market then s.quantity - s.filledQty
    else min (s.quantity - s.filledQty) (s.matchableQty cfg x.1) := by
  have hmatched : (s.check cfg x).matched = s.matchedQty cfg x.1 x.2 := rfl
  have hpos := hfills.1
  rw [hmatched, matchedQty] at hpos ⊢
  split_ifs at hpos ⊢ with hreleased hmarket hfillable
  · rfl
  · rfl
  · exact absurd hpos (lt_irrefl 0)
  · exact absurd hpos (lt_irrefl 0)
  · exact absurd hpos (lt_irrefl 0)

/-- A fill of the whole order ends it. -/
theorem after_of_whole (hv : v.Spec cfg) (hfills : v.Fills) (hnone : v.before.filledQty = 0)
    (hwhole : v.matched = v.before.quantity) : v.after.active = false := by
  obtain ⟨queueAhead, hafter, -⟩ := hv.fills hfills
  have htolerance := fillTolerance_pos
  have hcomplete : (v.before.withQueue queueAhead).quantity - fillTolerance ≤
      (v.before.withQueue queueAhead).filledQty + v.matched := by
    change v.before.quantity - fillTolerance ≤ v.before.filledQty + v.matched
    rw [hnone, hwhole]
    linarith
  rw [hafter]
  simp [filledBy, hcomplete]

/-- **When the visits of `check_fills` fill an order as a whole or not at all.** -/
theorem checks_whole_iff (xs : List (OrderBook × ℤ)) : ∀ {s : ShadowOrder}, 0 < s.quantity →
    (s.active = true → s.filledQty = 0) →
      ((ShadowVisit.fillsOf (checks cfg s xs) = [] ∨
          ∃ u, ShadowVisit.fillsOf (checks cfg s xs) = [u] ∧ u.fillQty = s.quantity) ↔
        ∀ v ∈ checks cfg s xs, v.Released → v.Crosses →
          v.before.matchableQty cfg v.book ≤ 0 ∨
            v.before.quantity ≤ v.before.matchableQty cfg v.book) := by
  have hended : ∀ {t : ShadowOrder} (ys : List (OrderBook × ℤ)), t.active = false →
      ShadowVisit.fillsOf (checks cfg t ys) = [] ∧ ∀ v ∈ checks cfg t ys, ¬ v.Released :=
    fun ys ht => ⟨(fillsOf_eq_nil_iff fun v hv => (checks_spec v hv).1).mpr fun v hv =>
      (checks_inactive ht v hv).2, fun v hv => (checks_inactive ht v hv).1⟩
  induction xs with
  | nil => exact fun _ _ => iff_of_true (Or.inl rfl) fun _ h => absurd h List.not_mem_nil
  | cons x xs ih =>
    intro s hquantity hnone
    cases hactive : s.active with
    | false =>
      obtain ⟨hnil, hwaits⟩ := hended (x :: xs) hactive
      exact iff_of_true (Or.inl hnil) fun v hv hreleased => absurd hreleased (hwaits v hv)
    | true =>
      have hzero := hnone hactive
      have hremains : s.Remains := fun _ => by rwa [hzero, sub_zero]
      have hspec : (s.check cfg x).Spec cfg := check_spec s x
      have hterms := sameTerms_after hspec
      rw [checks, fillsOf_cons, List.forall_mem_cons]
      rcases fillsOf_visit hspec with ⟨hfills, u, hu, hqty⟩ | ⟨hidle, hnil⟩
      · rw [hu]
        by_cases hwhole : (s.check cfg x).matched = s.quantity
        · -- the whole order is filled, and nothing happens after it
          obtain ⟨hnil, hwaits⟩ := hended xs (after_of_whole hspec hfills hzero hwhole)
          rw [hnil]
          refine iff_of_true (Or.inr ⟨u, rfl, hqty.trans hwhole⟩) ⟨fun _ hcrosses => Or.inr ?_,
            fun v hv hreleased => absurd hreleased (hwaits v hv)⟩
          have htype : s.type ≠ .market := hcrosses.1
          rw [check_matched hfills, if_neg htype] at hwhole
          exact hwhole ▸ min_le_right _ _
        · -- a part is filled
          refine iff_of_false ?_ fun h => hwhole ?_
          · rintro (hfalse | ⟨u', heq, hqty'⟩)
            · exact List.cons_ne_nil _ _ hfalse
            · obtain ⟨rfl, -⟩ := List.cons.inj heq
              exact hwhole (hqty.symm.trans hqty')
          · have hmatched := check_matched hfills
            by_cases htype : s.type = .market
            · rw [hmatched, if_pos htype, hzero, sub_zero]
            · obtain ⟨hreleased, hcrosses, hpos⟩ := (check_fills_iff hremains htype).mp hfills
              rw [hmatched, if_neg htype, hzero, sub_zero]
              exact min_eq_left ((h.1 hreleased hcrosses).resolve_left (not_le.mpr hpos))
      · rw [hnil, List.nil_append]
        obtain ⟨-, -, queueAhead, maker, active, -, hafter⟩ := hspec.idle hidle
        have hrest := ih (s := (s.check cfg x).after) (hterms.quantity.symm ▸ hquantity)
          fun _ => by rw [hafter]; exact hzero
        rw [hterms.quantity] at hrest
        refine hrest.trans (iff_and_self.mpr fun _ hreleased hcrosses => Or.inl ?_)
        exact not_lt.mp fun hpos =>
          hidle ((check_fills_iff hremains hcrosses.1).mpr ⟨hreleased, hcrosses, hpos⟩)

/-! ## Lives -/

variable {order : Order} {xs : List (OrderBook × ℤ)}

/-- Something remains of an order behind its submission. -/
theorem remains_placement (hquantity : 0 < order.quantity) :
    (placement cfg book now order).after.Remains := by
  refine remains_after (placement_spec order) fun _ => ?_
  change 0 < order.quantity - 0
  rwa [sub_zero]

/-- The submission fills the whole order, or nothing of it. -/
theorem placement_matched (hfills : (placement cfg book now order).Fills) :
    (placement cfg book now order).Released ∧
      (placement cfg book now order).before.isImmediatelyFillable book = true ∧
      (placement cfg book now order).matched = order.quantity := by
  have hmatched : (placement cfg book now order).matched =
    (ShadowConnector.newOrder cfg book now order).placedQty book := rfl
  have hpos := hfills.1
  rw [hmatched, placedQty] at hpos ⊢
  split_ifs at hpos ⊢ with h
  · exact ⟨⟨rfl, h.1⟩, h.2, rfl⟩
  · exact absurd hpos (lt_irrefl 0)

/-- **The fills of a life are one fill of the whole order or none, exactly when `check_fills` always
finds enough for it or nothing.** -/
theorem life_whole_iff (hquantity : 0 < order.quantity) :
    (ShadowVisit.fillsOf (life cfg book now order xs) = [] ∨
        ∃ u, ShadowVisit.fillsOf (life cfg book now order xs) = [u] ∧ u.fillQty = order.quantity) ↔
      ∀ v ∈ checks cfg (placement cfg book now order).after xs, v.Released → v.Crosses →
        v.before.matchableQty cfg v.book ≤ 0 ∨
          v.before.quantity ≤ v.before.matchableQty cfg v.book := by
  have hspec : (placement cfg book now order).Spec cfg := placement_spec order
  have hterms := sameTerms_after hspec
  have hsame : (placement cfg book now order).after.quantity = order.quantity := hterms.quantity
  rw [life, fillsOf_cons, ← hsame]
  rcases fillsOf_visit hspec with ⟨hfills, u, hu, hqty⟩ | ⟨hidle, hnil⟩
  · have hwhole := (placement_matched hfills).2.2
    have hended := after_of_whole hspec hfills rfl hwhole
    have hrest : ShadowVisit.fillsOf (checks cfg (placement cfg book now order).after xs) = [] :=
      (fillsOf_eq_nil_iff fun v hv => (checks_spec v hv).1).mpr fun v hv =>
        (checks_inactive hended v hv).2
    rw [hu, hrest, hsame]
    refine iff_of_true (Or.inr ⟨u, rfl, hqty.trans hwhole⟩) fun v hv hreleased => ?_
    exact absurd hreleased (checks_inactive hended v hv).1
  · rw [hnil, List.nil_append]
    obtain ⟨-, -, queueAhead, maker, active, -, hafter⟩ := hspec.idle hidle
    exact checks_whole_iff xs (hsame.symm ▸ hquantity) fun _ => by rw [hafter]; rfl

/-- **A life has no fill exactly when the submission fills nothing and `check_fills` finds
nothing**, for an order with a price. -/
theorem life_unfilled_iff (hquantity : 0 < order.quantity) (htype : order.type ≠ .market) :
    ShadowVisit.fillsOf (life cfg book now order xs) = [] ↔
      ¬ (placement cfg book now order).Fills ∧
        ∀ v ∈ checks cfg (placement cfg book now order).after xs, v.Released → v.Crosses →
          v.before.matchableQty cfg v.book ≤ 0 := by
  rw [fillsOf_eq_nil_iff fun v hv => (life_spec v hv).1, life, List.forall_mem_cons]
  refine and_congr_right fun _ => forall₂_congr fun v hv => ?_
  obtain ⟨t, x, rfl, hremains, hterms⟩ := mem_checks (remains_placement hquantity) v hv
  have hplaced : (placement cfg book now order).Spec cfg := placement_spec order
  have htype' : t.type ≠ .market := ((sameTerms_after hplaced).trans hterms).type.trans_ne htype
  rw [check_fills_iff hremains htype', not_and, ← not_lt]
  exact forall_congr' fun _ => not_and

/-- An order with a price that crosses at its submission, released, is filled there. -/
theorem placement_fills (hquantity : 0 < order.quantity)
    (hreleased : (placement cfg book now order).Released)
    (hcrosses : (placement cfg book now order).Crosses) : (placement cfg book now order).Fills := by
  have hmatched : (placement cfg book now order).matched =
    (ShadowConnector.newOrder cfg book now order).placedQty book := rfl
  have hboth : (ShadowConnector.newOrder cfg book now order).releaseTsNs ≤
      (ShadowConnector.newOrder cfg book now order).submitTsNs ∧
    (ShadowConnector.newOrder cfg book now order).isImmediatelyFillable book = true :=
      ⟨hreleased.2, hcrosses.2⟩
  rw [placedQty, if_pos hboth] at hmatched
  exact ⟨hmatched ▸ hquantity, oppositeBest_pos hcrosses.1 hcrosses.2⟩

/-- **The life of an order honors its time in force exactly when the book offers what the time in
force asks for.** -/
theorem honored_iff (cfg : ShadowConfig) (book : OrderBook) (now : ℤ) {order : Order}
    (hquantity : 0 < order.quantity) (xs : List (OrderBook × ℤ)) :
    order.HonoredBy (life cfg book now order xs) ↔
      order.Offered cfg (placement cfg book now order)
        (checks cfg (placement cfg book now order).after xs) := by
  have hplaced : (placement cfg book now order).Spec cfg := placement_spec order
  have hioc : order.tif = .ioc →
      ((∀ v ∈ life cfg book now order xs, v.Released → v.after.active = false) ↔
        ((placement cfg book now order).Released →
          (placement cfg book now order).before.isImmediatelyFillable
            (placement cfg book now order).book = true) ∧
        ∀ v ∈ checks cfg (placement cfg book now order).after xs, v.Released → v.Crosses →
          0 < v.before.matchableQty cfg v.book ∧ v.before.quantity - v.before.filledQty -
            fillTolerance ≤ v.before.matchableQty cfg v.book) := by
    intro htif
    rw [life, List.forall_mem_cons]
    refine and_congr (forall_congr' fun hreleased => placement_ends_iff hquantity hreleased)
      (forall₂_congr fun v hv => forall_congr' fun hreleased => ?_)
    obtain ⟨t, x, rfl, hremains, hterms⟩ := mem_checks (remains_placement hquantity) v hv
    exact check_ends_iff hremains (((sameTerms_after hplaced).trans hterms).tif.trans htif)
      hreleased
  have hgtx : ∀ v, (life cfg book now order xs).find? (·.Released) = some v → v.Crosses →
      (ShadowVisit.fillsOf (life cfg book now order xs) = [] ↔
        ¬ (placement cfg book now order).Released ∧
          ∀ w ∈ checks cfg (placement cfg book now order).after xs, w.Released → w.Crosses →
            w.before.matchableQty cfg w.book ≤ 0) := by
    intro v hfirst hcrosses
    have hterms := (life_spec v (List.mem_of_find?_eq_some hfirst)).2
    have htype : order.type ≠ .market := fun h => hcrosses.1 (hterms.type.trans h)
    rw [life_unfilled_iff hquantity htype]
    refine and_congr_left' (not_congr ⟨fun hfills => (placement_matched hfills).1, fun hreleased =>
      placement_fills hquantity hreleased ?_⟩)
    simp only [life, List.find?_cons, hreleased, decide_true] at hfirst
    exact Option.some.inj hfirst ▸ hcrosses
  constructor
  · intro h
    refine ⟨fun htif => (hioc htif).mp (h.ioc htif), fun htif => ?_,
      fun htif v hfirst hcrosses => ?_⟩
    · exact (life_whole_iff hquantity).mp (h.fok htif)
    · exact (hgtx v hfirst hcrosses).mp (h.gtx htif v hfirst hcrosses)
  · intro h
    refine ⟨fun htif => (hioc htif).mpr (h.ioc htif), fun htif => ?_,
      fun htif v hfirst hcrosses => ?_⟩
    · exact (life_whole_iff hquantity).mpr (h.fok htif)
    · exact (hgtx v hfirst hcrosses).mpr (h.gtx htif v hfirst hcrosses)

/-- A fee of ten basis points, and a latency of one nanosecond. -/
def slowConfig : ShadowConfig := { ShadowConnector.flatFees with baseLatencyNs := 1 }

/-- A limit order to buy at 101, where two are offered. -/
def sweepingOrder (tif : TimeInForce) (quantity : ℚ) : Order where
  clientOrderId := 7
  exchange := .binance
  tif := tif
  price := 101
  quantity := quantity

/-- A fill-or-kill order for all that is offered. -/
theorem honored_sweepingOrder : (sweepingOrder .fok 2).HonoredBy
    (life slowConfig .atTouchBook 5 (sweepingOrder .fok 2) [(.atTouchBook, 6)]) :=
  (honored_iff slowConfig .atTouchBook 5 (by decide) [(.atTouchBook, 6)]).mpr
    ⟨TimeInForce.noConfusion, fun _ => by decide +kernel, TimeInForce.noConfusion⟩

/-- A check at the release fills two of three, whatever the time in force is. -/
theorem sweepingOrder_not_honored :
    ¬ (sweepingOrder .ioc 3).HonoredBy
        (life slowConfig .atTouchBook 5 (sweepingOrder .ioc 3) [(.atTouchBook, 6)]) ∧
      ¬ (sweepingOrder .fok 3).HonoredBy
          (life slowConfig .atTouchBook 5 (sweepingOrder .fok 3) [(.atTouchBook, 6)]) ∧
        ¬ (sweepingOrder .gtx 3).HonoredBy
          (life slowConfig .atTouchBook 5 (sweepingOrder .gtx 3) [(.atTouchBook, 6)]) := by
  have hfills : ∀ tif, (ShadowVisit.fillsOf (life slowConfig .atTouchBook 5 (sweepingOrder tif 3)
      [(.atTouchBook, 6)])).map FillUpdate.fillQty = [2] := by
    intro tif
    cases tif <;> decide +kernel
  refine ⟨fun h => ?_, fun h => ?_, fun h => ?_⟩
  · exact absurd (h.ioc rfl) (by decide +kernel)
  · rcases h.fok rfl with hnil | ⟨u, heq, hqty⟩
    · exact absurd (hnil ▸ hfills .fok) (by decide)
    · have htwo := hfills .fok
      rw [heq, List.map_singleton, hqty] at htwo
      exact absurd htwo (by decide)
  · have hsome : ((life slowConfig .atTouchBook 5 (sweepingOrder .gtx 3)
        [(.atTouchBook, 6)]).find? (·.Released)).isSome = true := by decide +kernel
    have hall : ∀ v ∈ life slowConfig .atTouchBook 5 (sweepingOrder .gtx 3) [(.atTouchBook, 6)],
        v.Crosses := by decide +kernel
    obtain ⟨v, hv⟩ := Option.isSome_iff_exists.mp hsome
    have hnil := h.gtx rfl v hv (hall v (List.mem_of_find?_eq_some hv))
    exact absurd (hnil ▸ hfills .gtx) (by decide)

end ShadowOrder

end TradingInfrastructure
