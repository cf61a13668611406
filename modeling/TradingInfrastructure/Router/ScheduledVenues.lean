import TradingInfrastructure.Router.ReferencePrice

/-!
# What each venue is given

A sweep takes the venues in the order of their shortfall: a venue is given a child exactly when
those ahead of it leave enough (`mem_picks_sweep_iff`). The other styles give one child, to the
cheapest venue that is not too shallow.

The venue is chosen by the price on the side taken, and a passive child is placed at the price of
its own side, which the venue need not quote. The children are sound exactly when the venues that
are reached have the price that their children are placed at (`allocated_iff`).
-/

namespace TradingInfrastructure

namespace ChildOrderScheduler

variable (cfg : ChildOrderScheduler)

/-- The venues that `schedule` gives a child to, with the quantities. -/
def givenTo (memory : SchedulerMemory) (plan : ParentExecutionPlan)
    (horizonTicks inventoryAgeMs : ℤ) (venues : VenueQuotes) : List (Fin 4 × ℚ) :=
  if plan.active = true ∧ 0 < plan.remainingQty ∧
      0 < (cfg.styleAndPrice plan horizonTicks venues).2 then
    cfg.picks plan.side (cfg.styleAndPrice plan horizonTicks venues).1
      (cfg.shortfallOf memory plan horizonTicks inventoryAgeMs venues) venues
      SmartOrderRouter.maxVenues { remaining := plan.remainingQty }
  else []

/-- A venue that a sweep takes from if it comes to it, whether it has a price or not. -/
def Deep (shortfall : VenueQuote → ℚ) (v : VenueQuote) : Prop :=
  v.healthy = true ∧ qtyEpsilon < v.depthQty ∧ shortfall v < 10 ^ 18

/-- The order in which a sweep comes to the venues. -/
def Ahead (shortfall : VenueQuote → ℚ) (venues : VenueQuotes) (i j : Fin 4) : Prop :=
  shortfall (venues i) < shortfall (venues j) ∨
    shortfall (venues i) = shortfall (venues j) ∧ i < j

instance (shortfall : VenueQuote → ℚ) (v : VenueQuote) : Decidable (Deep shortfall v) := by
  unfold Deep
  infer_instance

instance (shortfall : VenueQuote → ℚ) (venues : VenueQuotes) (i j : Fin 4) :
    Decidable (Ahead shortfall venues i j) := by
  unfold Ahead
  infer_instance

/-- The depth of the venues of a kind that are left. -/
def depthLeft (venues : VenueQuotes) (used : Fin 4 → Bool) (P : Fin 4 → Prop) [DecidablePred P] :
    ℚ :=
  ∑ j, if used j = false ∧ P j then (venues j).depthQty else 0

/-- The depth of the venues that are left and that a sweep takes from before it comes to this
one. -/
def depthAhead (shortfall : VenueQuote → ℚ) (venues : VenueQuotes) (used : Fin 4 → Bool)
    (z : Fin 4) : ℚ :=
  depthLeft venues used fun j => Deep shortfall (venues j) ∧ Ahead shortfall venues j z

/-- The depth of the healthy venues that quote the price to be taken. -/
def quotedDepth (side : Side) (venues : VenueQuotes) : ℚ :=
  ∑ i, if (venues i).healthy = true ∧ 0 < (venues i).depthQty ∧
    0 < SmartOrderRouter.quotePriceForSide (venues i) side then (venues i).depthQty else 0

variable {cfg} {side : Side} {style : ChildExecutionStyle} {shortfall : VenueQuote → ℚ}
  {venues : VenueQuotes} {used : Fin 4 → Bool} {i z : Fin 4} {s : ScheduleState} {fuel : ℕ}

/-! ## Depth that is left -/

theorem depthLeft_nonneg {P : Fin 4 → Prop} [DecidablePred P]
    (hP : ∀ j, P j → 0 ≤ (venues j).depthQty) : 0 ≤ depthLeft venues used P := by
  refine Finset.sum_nonneg fun j _ => ?_
  split_ifs with h
  · exact hP j h.2
  · exact le_rfl

/-- Taking a venue takes its depth. -/
theorem depthLeft_update {P : Fin 4 → Prop} [DecidablePred P] (hi : used i = false) :
    depthLeft venues used P = depthLeft venues (Function.update used i true) P +
      if P i then (venues i).depthQty else 0 := by
  have hadd : ∀ j, (if used j = false ∧ P j then (venues j).depthQty else 0) =
      (if Function.update used i true j = false ∧ P j then (venues j).depthQty else 0) +
        if j = i then (if P j then (venues j).depthQty else 0) else 0 := by
    intro j
    by_cases hj : j = i
    · subst hj
      simp [hi]
    · simp [hj]
  unfold depthLeft
  rw [Finset.sum_congr rfl fun j _ => hadd j, Finset.sum_add_distrib, Finset.sum_ite_eq']
  simp

theorem Deep.depth_pos {v : VenueQuote} (h : Deep shortfall v) : 0 < v.depthQty :=
  qtyEpsilon_pos.trans h.2.1

theorem depthAhead_nonneg : 0 ≤ depthAhead shortfall venues used z :=
  depthLeft_nonneg fun _ h => h.1.depth_pos.le

/-- Nothing is ahead of the venue that is chosen. -/
theorem ahead_of_select (h : selectBestVenue used shortfall venues = some i)
    (hz : used z = false) (hdeep : Deep shortfall (venues z)) :
    i = z ∨ Ahead shortfall venues i z := by
  have hcandidate : (!used z && (venues z).healthy && decide (0 < (venues z).depthQty)) = true := by
    simp [hz, hdeep.1, hdeep.depth_pos]
  have hle := firstMin_le h (List.mem_finRange z) hcandidate
  rcases hle.lt_or_eq with hlt | heq
  · exact .inr (.inl hlt)
  · rcases firstMin_first (List.pairwise_lt_finRange 4) h (List.mem_finRange z) hcandidate heq
      with hiz | hiz
    · exact .inl hiz
    · exact .inr (.inr ⟨heq, hiz⟩)

theorem Ahead.asymm {i j : Fin 4} (h : Ahead shortfall venues i j) :
    ¬Ahead shortfall venues j i := by
  rintro (hlt | ⟨heq, hlt⟩)
  · rcases h with h | ⟨h, -⟩
    · exact lt_asymm h hlt
    · exact hlt.ne h.symm
  · rcases h with h | ⟨-, h⟩
    · exact h.ne heq.symm
    · exact lt_asymm h hlt

theorem Ahead.irrefl (i : Fin 4) : ¬Ahead shortfall venues i i := fun h => h.asymm h

theorem depthAhead_of_select (h : selectBestVenue used shortfall venues = some i) :
    depthAhead shortfall venues used i = 0 := by
  unfold depthAhead depthLeft
  refine Finset.sum_eq_zero fun j _ => if_neg ?_
  rintro ⟨hj, hdeep, hahead⟩
  rcases ahead_of_select h hj hdeep with rfl | hij
  · exact Ahead.irrefl _ hahead
  · exact hij.asymm hahead

/-- Without a choice no venue is left to take from. -/
theorem not_deep_of_select_none (h : selectBestVenue used shortfall venues = none)
    (hz : used z = false) : ¬Deep shortfall (venues z) := by
  intro hdeep
  have hle := firstMin_none h (List.mem_finRange z) (by simp [hz, hdeep.1, hdeep.depth_pos])
  exact absurd hdeep.2.2 (not_lt.mpr hle)

/-! ## The venues picked -/

/-- The loop is over. -/
def Stops (style : ChildExecutionStyle) (s : ScheduleState) : Prop :=
  s.remaining ≤ qtyEpsilon ∨ s.children.length ≥ maxChildren ∨
    s.children.length ≥ maxVenueCount style

/-- **What a turn picks**: nothing at the end, and otherwise the venue that is chosen, unless it is
skipped. -/
theorem picks_succ :
    (cfg.picks side style shortfall venues (fuel + 1) s = [] ∧
      (Stops style s ∨ selectBestVenue s.used shortfall venues = none)) ∨
    (qtyEpsilon < s.remaining ∧ ∃ i, selectBestVenue s.used shortfall venues = some i ∧
      (clip venues s i ≤ qtyEpsilon ∧ cfg.picks side style shortfall venues (fuel + 1) s =
          cfg.picks side style shortfall venues fuel (skipVenue s i) ∨
        qtyEpsilon < clip venues s i ∧ cfg.picks side style shortfall venues (fuel + 1) s =
          (i, clip venues s i) :: if style = .sweep then cfg.picks side style shortfall venues fuel
            (cfg.giveVenue side style shortfall venues s i) else [])) := by
  rw [picks]
  by_cases hstop : Stops style s
  · exact .inl ⟨if_pos hstop, .inl hstop⟩
  · rw [if_neg (by exact hstop)]
    cases hselect : selectBestVenue s.used shortfall venues with
    | none => exact .inl ⟨rfl, .inr rfl⟩
    | some i =>
      refine .inr ⟨not_le.mp fun h => hstop (.inl h), i, rfl, ?_⟩
      by_cases hclip : clip venues s i ≤ qtyEpsilon
      · exact .inl ⟨hclip, if_pos hclip⟩
      · refine .inr ⟨not_le.mp hclip, ?_⟩
        simp only [hclip, if_false]
        split_ifs <;> rfl

/-- Each venue picked is left and healthy, and is given a part of its depth. -/
theorem of_mem_picks {p : Fin 4 × ℚ} (h : p ∈ cfg.picks side style shortfall venues fuel s) :
    s.used p.1 = false ∧ (venues p.1).healthy = true ∧ qtyEpsilon < p.2 ∧
      p.2 ≤ (venues p.1).depthQty ∧ shortfall (venues p.1) < 10 ^ 18 := by
  induction fuel generalizing s with
  | zero => cases h
  | succ fuel ih =>
    rcases @picks_succ cfg side style shortfall venues s fuel with
      ⟨hnil, -⟩ | ⟨-, i, hselect, hturn⟩
    · rw [hnil] at h
      cases h
    · obtain ⟨hi, hhealthy, -, hfinite⟩ := selectBestVenue_some hselect
      have hlater : Function.update s.used i true p.1 = false → s.used p.1 = false := by
        intro hp
        by_cases hpi : p.1 = i
        · rwa [hpi]
        · simpa [hpi] using hp
      rcases hturn with ⟨-, hskip⟩ | ⟨hclip, hgive⟩
      · rw [hskip] at h
        obtain ⟨hp, hrest⟩ := ih h
        exact ⟨hlater hp, hrest⟩
      · rw [hgive] at h
        rcases List.mem_cons.mp h with rfl | h
        · exact ⟨hi, hhealthy, hclip, min_le_right _ _, hfinite⟩
        · split_ifs at h
          · obtain ⟨hp, hrest⟩ := ih h
            exact ⟨hlater hp, hrest⟩
          · cases h

/-- No venue is picked twice. -/
theorem nodup_picks :
    ((cfg.picks side style shortfall venues fuel s).map Prod.fst).Nodup := by
  induction fuel generalizing s with
  | zero => exact List.nodup_nil
  | succ fuel ih =>
    rcases @picks_succ cfg side style shortfall venues s fuel with
      ⟨hnil, -⟩ | ⟨-, i, -, ⟨-, hskip⟩ | ⟨-, hgive⟩⟩
    · rw [hnil]
      exact List.nodup_nil
    · rw [hskip]
      exact ih
    · rw [hgive]
      split_ifs
      · refine List.nodup_cons.mpr ⟨fun hmem => ?_, ih⟩
        obtain ⟨p, hp, hpi⟩ := List.mem_map.mp hmem
        have hleft := (of_mem_picks hp).1
        simp only [giveVenue] at hpi hleft
        rw [hpi, Function.update_self] at hleft
        cases hleft
      · exact List.nodup_singleton i

/-- The quantities are parts of what remains. -/
theorem sum_picks_le (h : 0 ≤ s.remaining) :
    ((cfg.picks side style shortfall venues fuel s).map Prod.snd).sum ≤ s.remaining := by
  induction fuel generalizing s with
  | zero => exact h
  | succ fuel ih =>
    rcases @picks_succ cfg side style shortfall venues s fuel with
      ⟨hnil, -⟩ | ⟨-, i, -, ⟨-, hskip⟩ | ⟨-, hgive⟩⟩
    · rwa [hnil]
    · rw [hskip]
      exact @ih (skipVenue s i) h
    · have hclip : clip venues s i ≤ s.remaining := min_le_left _ _
      rw [hgive, List.map_cons, List.sum_cons]
      split_ifs
      · have hrest := @ih (cfg.giveVenue side style shortfall venues s i) (sub_nonneg.mpr hclip)
        simp only [giveVenue] at hrest ⊢
        linarith
      · simpa using hclip

/-- There is room for a child for each venue that is left. -/
def Roomy (s : ScheduleState) (fuel : ℕ) : Prop :=
  s.children.length + venuesLeft s.used ≤ SmartOrderRouter.maxVenues ∧ venuesLeft s.used ≤ fuel

theorem Roomy.skipVenue (h : Roomy s (fuel + 1)) (hi : s.used i = false) :
    Roomy (skipVenue s i) fuel := by
  have hless : venuesLeft (ChildOrderScheduler.skipVenue s i).used < venuesLeft s.used :=
    venuesLeft_update hi
  obtain ⟨hroom, hfuel⟩ := h
  refine ⟨?_, by omega⟩
  simp only [ChildOrderScheduler.skipVenue] at hless ⊢
  omega

theorem Roomy.giveVenue (h : Roomy s (fuel + 1)) (hi : s.used i = false) :
    Roomy (cfg.giveVenue side style shortfall venues s i) fuel := by
  have hless : venuesLeft (cfg.giveVenue side style shortfall venues s i).used <
      venuesLeft s.used := venuesLeft_update hi
  obtain ⟨hroom, hfuel⟩ := h
  refine ⟨?_, by omega⟩
  simp only [ChildOrderScheduler.giveVenue, List.length_append, List.length_singleton] at hless ⊢
  omega

/-- With room a sweep stops only when too little remains, or when no venue is left. -/
theorem Roomy.stops (h : Roomy s fuel) (hstop : Stops .sweep s) :
    s.remaining ≤ qtyEpsilon ∨ venuesLeft s.used = 0 := by
  have hroom := h.1
  simp only [Stops, maxChildren, maxVenueCount, SmartOrderRouter.maxVenues] at hstop hroom
  rcases hstop with hremaining | hmany | hmany
  · exact .inl hremaining
  · exact .inr (by omega)
  · exact .inr (by omega)

theorem used_of_noneLeft (h : venuesLeft used = 0) (z : Fin 4) : used z = true := by
  by_contra hz
  have hmem : z ∈ Finset.univ.filter fun i => used i = false := by simpa using hz
  rw [Finset.card_eq_zero.mp h] at hmem
  cases hmem

/-- A venue that a sweep skips is not one that it takes from. -/
theorem not_deep_of_clip (hremaining : qtyEpsilon < s.remaining)
    (hclip : clip venues s i ≤ qtyEpsilon) : ¬Deep shortfall (venues i) := fun hdeep =>
  absurd (of_decide_eq_true (shallow_of_clip hremaining hclip)) (not_le.mpr hdeep.2.1)

theorem deep_of_clip (hselect : selectBestVenue s.used shortfall venues = some i)
    (hclip : qtyEpsilon < clip venues s i) : Deep shortfall (venues i) := by
  obtain ⟨-, hhealthy, -, hfinite⟩ := selectBestVenue_some hselect
  exact ⟨hhealthy, hclip.trans_le (min_le_right _ _), hfinite⟩

/-- **Who is given a child**: a sweep comes to a venue with what those ahead of it leave. -/
theorem mem_picks_sweep_iff (hroomy : Roomy s fuel) (hz : s.used z = false)
    (hdeep : Deep shortfall (venues z)) :
    z ∈ (cfg.picks side .sweep shortfall venues fuel s).map Prod.fst ↔
      qtyEpsilon < s.remaining - depthAhead shortfall venues s.used z := by
  induction fuel generalizing s with
  | zero => exact absurd (used_of_noneLeft (Nat.le_zero.mp hroomy.2) z) (by simp [hz])
  | succ fuel ih =>
    rcases @picks_succ cfg side .sweep shortfall venues s fuel with
      ⟨hnil, hstop | hnone⟩ | ⟨hremaining, i, hselect, hturn⟩
    · have hahead := @depthAhead_nonneg shortfall venues s.used z
      rcases hroomy.stops hstop with hremaining | hnone
      · rw [hnil]
        simp only [List.map_nil, List.not_mem_nil, false_iff, not_lt]
        linarith
      · exact absurd (used_of_noneLeft hnone z) (by simp [hz])
    · exact absurd hdeep (not_deep_of_select_none hnone hz)
    · have hi := (selectBestVenue_some hselect).1
      rcases hturn with ⟨hclip, hskip⟩ | ⟨hclip, hgive⟩
      · -- a shallow venue is skipped, which changes nothing for this one
        have hshallow := @not_deep_of_clip shortfall venues i s hremaining hclip
        have hzi : z ≠ i := fun h => hshallow (h ▸ hdeep)
        have hleft : (skipVenue s i).used z = false := by simpa [skipVenue, hzi] using hz
        have hsame : depthAhead shortfall venues s.used z =
            depthAhead shortfall venues (skipVenue s i).used z := by
          rw [depthAhead, depthLeft_update hi, if_neg fun h => hshallow h.1, add_zero]
          rfl
        rw [hskip, hsame]
        exact ih (hroomy.skipVenue hi) hleft
      · rw [hgive, if_pos rfl, List.map_cons, List.mem_cons]
        have hideep := deep_of_clip hselect hclip
        rcases ahead_of_select hselect hz hdeep with rfl | hiz
        · simp only [true_or, true_iff, depthAhead_of_select hselect, sub_zero]
          exact hremaining
        · -- the venue ahead takes its depth, or all that remains
          have hzi : z ≠ i := fun h => Ahead.irrefl i (h ▸ hiz)
          have hleft : (cfg.giveVenue side .sweep shortfall venues s i).used z = false := by
            simpa [giveVenue, hzi] using hz
          have hsplit : depthAhead shortfall venues s.used z =
              depthAhead shortfall venues
                (cfg.giveVenue side .sweep shortfall venues s i).used z +
                (venues i).depthQty := by
            rw [depthAhead, depthLeft_update hi, if_pos ⟨hideep, hiz⟩]
            rfl
          have hnonneg := @depthAhead_nonneg shortfall venues
            (cfg.giveVenue side .sweep shortfall venues s i).used z
          have hih := ih (@Roomy.giveVenue cfg side .sweep shortfall venues i s fuel hroomy hi) hleft
          rw [hsplit]
          simp only [hzi, false_or, hih]
          simp only [giveVenue, clip] at hnonneg ⊢
          have heps := qtyEpsilon_pos
          rcases le_total s.remaining (venues i).depthQty with hle | hle
          · rw [min_eq_left hle]
            constructor <;> intro h <;> linarith
          · rw [min_eq_right hle, sub_sub, add_comm (venues i).depthQty]

theorem depthLeft_eq_zero (h : ∀ j, used j = false → ¬Deep shortfall (venues j)) :
    (depthLeft venues used fun j => Deep shortfall (venues j)) = 0 :=
  Finset.sum_eq_zero fun j _ => if_neg fun hj => h j hj.1 hj.2

theorem depthLeft_of_noneLeft (h : venuesLeft used = 0) :
    (depthLeft venues used fun j => Deep shortfall (venues j)) = 0 :=
  depthLeft_eq_zero fun j hj => absurd (used_of_noneLeft h j) (by simp [hj])

/-- The quantities are not negative. -/
theorem sum_picks_nonneg :
    0 ≤ ((cfg.picks side style shortfall venues fuel s).map Prod.snd).sum := by
  refine List.sum_nonneg fun q hq => ?_
  obtain ⟨p, hp, rfl⟩ := List.mem_map.mp hq
  exact (qtyEpsilon_pos.trans (of_mem_picks hp).2.2.1).le

/-- **How much a sweep gives**: all but what is too little to go on for, or all the depth that it
takes from. -/
theorem sum_picks_sweep_ge (hroomy : Roomy s fuel) (hremaining : 0 ≤ s.remaining) :
    s.remaining - qtyEpsilon ≤
        ((cfg.picks side .sweep shortfall venues fuel s).map Prod.snd).sum ∨
      (depthLeft venues s.used fun j => Deep shortfall (venues j)) ≤
        ((cfg.picks side .sweep shortfall venues fuel s).map Prod.snd).sum := by
  induction fuel generalizing s with
  | zero => exact .inr (depthLeft_of_noneLeft (Nat.le_zero.mp hroomy.2)).le
  | succ fuel ih =>
    rcases @picks_succ cfg side .sweep shortfall venues s fuel with
      ⟨hnil, hstop | hnone⟩ | ⟨hgoes, i, hselect, hturn⟩
    · rw [hnil]
      rcases hroomy.stops hstop with hless | hnone
      · exact .inl (by simpa using hless)
      · exact .inr (depthLeft_of_noneLeft hnone).le
    · rw [hnil]
      exact .inr (depthLeft_eq_zero fun j hj => not_deep_of_select_none hnone hj).le
    · have hi := (selectBestVenue_some hselect).1
      rcases hturn with ⟨hclip, hskip⟩ | ⟨hclip, hgive⟩
      · rw [hskip, depthLeft_update hi, if_neg (not_deep_of_clip hgoes hclip), add_zero]
        exact @ih (skipVenue s i) (hroomy.skipVenue hi) hremaining
      · have hle : clip venues s i ≤ s.remaining := min_le_left _ _
        have hih := @ih (cfg.giveVenue side .sweep shortfall venues s i) (hroomy.giveVenue hi)
          (sub_nonneg.mpr hle)
        have hrest := @sum_picks_nonneg cfg side .sweep shortfall venues
          (cfg.giveVenue side .sweep shortfall venues s i) fuel
        rw [hgive, if_pos rfl, List.map_cons, List.sum_cons, depthLeft_update hi,
          if_pos (deep_of_clip hselect hclip)]
        simp only [giveVenue] at hih hrest ⊢
        have heps := qtyEpsilon_pos
        rcases le_total s.remaining (venues i).depthQty with hall | hall
        · have hclipEq : clip venues s i = s.remaining := min_eq_left hall
          exact .inl (by linarith)
        · have hclipEq : clip venues s i = (venues i).depthQty := min_eq_right hall
          rcases hih with hih | hih
          · exact .inl (by linarith)
          · exact .inr (by linarith)

/-! ## The children of a plan -/

variable {memory : SchedulerMemory} {plan : ParentExecutionPlan} {horizonTicks inventoryAgeMs : ℤ}

/-- The children of a decision are those of the venues that are given one. -/
theorem children_schedule_eq :
    (cfg.schedule memory plan horizonTicks inventoryAgeMs venues).children =
      (cfg.givenTo memory plan horizonTicks inventoryAgeMs venues).map fun p =>
        cfg.childOf (venues p.1) plan.side (cfg.chooseStyle plan horizonTicks) p.2 := by
  rw [children_schedule, givenTo]
  split_ifs
  · exact children_scheduleLoop
  · rfl

/-- What is sound in the children of a plan: they go to distinct healthy venues, each takes more
than the epsilon and no more than the depth, each has a price, all together take no more than
remains, and a sweep takes what remains or what is quoted. -/
structure Allocated (cfg : ChildOrderScheduler) (plan : ParentExecutionPlan)
    (style : ChildExecutionStyle) (venues : VenueQuotes) (children : List ChildOrder)
    (given : List (Fin 4 × ℚ)) : Prop where
  children_eq : children = given.map fun p => cfg.childOf (venues p.1) plan.side style p.2
  distinct : (given.map Prod.fst).Nodup
  healthy : ∀ p ∈ given, (venues p.1).healthy = true
  quantity : ∀ p ∈ given, qtyEpsilon < p.2 ∧ p.2 ≤ (venues p.1).depthQty
  limitPrice_pos : ∀ child ∈ children, 0 < child.limitPrice
  total_le : totalQuantity children ≤ plan.remainingQty
  swept : style = .sweep →
    |totalQuantity children - min plan.remainingQty (quotedDepth plan.side venues)| ≤
      4 * qtyEpsilon

/-- When the children are sound. Without a price of reference there are none. A sweep must not come
to a venue without a price, and the quoted venues that it does not take from, because they are too
shallow or cost too much, must not be missed. The cheapest venue deep enough must have the price
that the other styles place their child at. -/
def PricesReached (cfg : ChildOrderScheduler) (plan : ParentExecutionPlan)
    (style : ChildExecutionStyle) (shortfall : VenueQuote → ℚ) (venues : VenueQuotes) : Prop :=
  0 < bestReferencePrice plan.side style venues →
    if style = .sweep then
      (∀ z, Deep shortfall (venues z) → cfg.limitPriceForStyle (venues z) plan.side style ≤ 0 →
        plan.remainingQty - qtyEpsilon ≤ depthAhead shortfall venues (fun _ => false) z) ∧
      min plan.remainingQty (quotedDepth plan.side venues) ≤
        cfg.depthFor plan.side style shortfall venues + 4 * qtyEpsilon
    else
      ∀ i, selectBestVenue (shallow venues) shortfall venues = some i →
        0 < cfg.limitPriceForStyle (venues i) plan.side style

/-- A sweep gives no child without a price exactly when it comes to no venue without one. -/
theorem picks_sweep_priced_iff {total : ℚ} :
    (∀ p ∈ cfg.picks side .sweep shortfall venues SmartOrderRouter.maxVenues
        { remaining := total }, 0 < cfg.limitPriceForStyle (venues p.1) side .sweep) ↔
      ∀ z, Deep shortfall (venues z) → cfg.limitPriceForStyle (venues z) side .sweep ≤ 0 →
        total - qtyEpsilon ≤ depthAhead shortfall venues (fun _ => false) z := by
  have hmem := fun z hdeep => @mem_picks_sweep_iff cfg side shortfall venues z
    { remaining := total } SmartOrderRouter.maxVenues ⟨by simp [venuesLeft_le], venuesLeft_le _⟩ rfl
    hdeep
  constructor
  · intro hpriced z hdeep hprice
    by_contra hless
    have hlt : qtyEpsilon < total - depthAhead shortfall venues (fun _ => false) z := by
      linarith [not_le.mp hless]
    obtain ⟨p, hp, rfl⟩ := List.mem_map.mp ((hmem z hdeep).mpr hlt)
    exact absurd (hpriced p hp) (not_lt.mpr hprice)
  · intro hahead p hp
    obtain ⟨-, hhealthy, hquantity, hdepth, hfinite⟩ := of_mem_picks hp
    have hdeep : Deep shortfall (venues p.1) := ⟨hhealthy, hquantity.trans_le hdepth, hfinite⟩
    by_contra hprice
    have hlt := (hmem p.1 hdeep).mp (List.mem_map.mpr ⟨p, hp, rfl⟩)
    have hle := hahead p.1 hdeep (not_lt.mp hprice)
    simp only at hlt
    linarith

theorem totalQuantity_map_childOf (given : List (Fin 4 × ℚ)) :
    totalQuantity (given.map fun p => cfg.childOf (venues p.1) side style p.2) =
      (given.map Prod.snd).sum := by
  simp only [totalQuantity, List.map_map]
  rfl

/-- The venues that a sweep gives a priced child to quote a price. -/
theorem depthFor_sweep_le : cfg.depthFor side .sweep shortfall venues ≤ quotedDepth side venues := by
  rw [depthFor, if_pos rfl, quotedDepth]
  refine Finset.sum_le_sum fun i _ => ?_
  split_ifs with hsweepable hquoted hquoted
  · exact le_rfl
  · exact absurd ⟨hsweepable.1, qtyEpsilon_pos.trans hsweepable.2.1, hsweepable.2.2.2⟩ hquoted
  · exact hquoted.2.1.le
  · exact le_rfl

theorem depthFor_sweep_le_depthLeft :
    cfg.depthFor side .sweep shortfall venues ≤
      depthLeft venues (fun _ => false) fun j => Deep shortfall (venues j) := by
  rw [depthFor, if_pos rfl, depthLeft]
  refine Finset.sum_le_sum fun i _ => ?_
  split_ifs with hsweepable hdeep hdeep
  · exact le_rfl
  · exact absurd ⟨rfl, hsweepable.1, hsweepable.2.1, hsweepable.2.2.1⟩ hdeep
  · exact hdeep.2.depth_pos.le
  · exact le_rfl

/-- With priced children, a sweep takes what it should exactly when it misses too little of what is
quoted. -/
theorem picks_sweep_total_iff {total : ℚ} (htotal : 0 ≤ total)
    (hpriced : ∀ p ∈ cfg.picks side .sweep shortfall venues SmartOrderRouter.maxVenues
      { remaining := total }, 0 < cfg.limitPriceForStyle (venues p.1) side .sweep) :
    |((cfg.picks side .sweep shortfall venues SmartOrderRouter.maxVenues
        { remaining := total }).map Prod.snd).sum - min total (quotedDepth side venues)| ≤
        4 * qtyEpsilon ↔
      min total (quotedDepth side venues) ≤
        cfg.depthFor side .sweep shortfall venues + 4 * qtyEpsilon := by
  have hle := @sum_picks_le cfg side .sweep shortfall venues { remaining := total }
    SmartOrderRouter.maxVenues htotal
  have hge := @sum_picks_sweep_ge cfg side shortfall venues { remaining := total }
    SmartOrderRouter.maxVenues ⟨by simp [venuesLeft_le], venuesLeft_le _⟩ htotal
  have hdepth : ((cfg.picks side .sweep shortfall venues SmartOrderRouter.maxVenues
      { remaining := total }).map Prod.snd).sum ≤ cfg.depthFor side .sweep shortfall venues := by
    have hpricedLe := @priced_scheduleLoop_le_depthFor cfg side shortfall venues
      SmartOrderRouter.maxVenues total
    rw [children_scheduleLoop, List.nil_append, pricedChildren, List.filter_eq_self.mpr] at hpricedLe
    · rwa [totalQuantity_map_childOf] at hpricedLe
    · intro child hchild
      obtain ⟨p, hp, rfl⟩ := List.mem_map.mp hchild
      exact decide_eq_true (hpriced p hp)
  have hquoted := @depthFor_sweep_le cfg side shortfall venues
  have hleft := @depthFor_sweep_le_depthLeft cfg side shortfall venues
  have hmin := le_min hle (hdepth.trans hquoted)
  have hminLe := min_le_left total (quotedDepth side venues)
  have heps := qtyEpsilon_pos
  simp only at hle hge hmin
  rw [abs_of_nonpos (by linarith)]
  constructor
  · intro h
    linarith
  · intro h
    rcases hge with hge | hge
    · linarith
    · linarith

/-- Without a price of reference nothing is quoted to a sweep. -/
theorem quotedDepth_eq_zero (h : ¬0 < bestReferencePrice side .sweep venues) :
    quotedDepth side venues = 0 := by
  rw [bestReferencePrice_pos_iff] at h
  exact Finset.sum_eq_zero fun i _ => if_neg fun hquoted => h ⟨i, hquoted⟩

/-- The venues given a child are healthy, and the quantities in bounds. -/
theorem of_mem_givenTo {p : Fin 4 × ℚ}
    (hp : p ∈ cfg.givenTo memory plan horizonTicks inventoryAgeMs venues) :
    (venues p.1).healthy = true ∧ qtyEpsilon < p.2 ∧ p.2 ≤ (venues p.1).depthQty := by
  unfold givenTo at hp
  split_ifs at hp
  · obtain ⟨-, hhealthy, hquantity, hdepth, -⟩ := of_mem_picks hp
    exact ⟨hhealthy, hquantity, hdepth⟩
  · cases hp

/-- No venue is given two children. -/
theorem nodup_givenTo :
    ((cfg.givenTo memory plan horizonTicks inventoryAgeMs venues).map Prod.fst).Nodup := by
  unfold givenTo
  split_ifs
  · exact nodup_picks
  · exact List.nodup_nil

/-- What is always sound: the venues are distinct and healthy, and the quantities are in bounds. -/
theorem allocated_givenTo (hremaining : 0 ≤ plan.remainingQty)
    (hpriced : ∀ p ∈ cfg.givenTo memory plan horizonTicks inventoryAgeMs venues,
      0 < cfg.limitPriceForStyle (venues p.1) plan.side (cfg.chooseStyle plan horizonTicks))
    (hswept : cfg.chooseStyle plan horizonTicks = .sweep →
      |((cfg.givenTo memory plan horizonTicks inventoryAgeMs venues).map Prod.snd).sum -
        min plan.remainingQty (quotedDepth plan.side venues)| ≤ 4 * qtyEpsilon) :
    Allocated cfg plan (cfg.chooseStyle plan horizonTicks) venues
      (cfg.schedule memory plan horizonTicks inventoryAgeMs venues).children
      (cfg.givenTo memory plan horizonTicks inventoryAgeMs venues) := by
  refine ⟨children_schedule_eq, nodup_givenTo, fun p hp => (of_mem_givenTo hp).1,
    fun p hp => (of_mem_givenTo hp).2, ?_, (quantity_schedule_le hremaining).1, ?_⟩
  · rw [children_schedule_eq]
    intro child hchild
    obtain ⟨p, hp, rfl⟩ := List.mem_map.mp hchild
    exact hpriced p hp
  · rwa [children_schedule_eq, totalQuantity_map_childOf]

/-- **When the children are sound**: exactly when the venues that are reached have the price that
their children are placed at. -/
theorem allocated_iff (hactive : plan.active = true) (hremaining : qtyEpsilon < plan.remainingQty) :
    (∃ given, Allocated cfg plan (cfg.chooseStyle plan horizonTicks) venues
      (cfg.schedule memory plan horizonTicks inventoryAgeMs venues).children given) ↔
      PricesReached cfg plan (cfg.chooseStyle plan horizonTicks)
        (cfg.shortfallOf memory plan horizonTicks inventoryAgeMs venues) venues := by
  have hpos : 0 < plan.remainingQty := qtyEpsilon_pos.trans hremaining
  -- the soundness is about the venues that are given a child
  have hsound : (∃ given, Allocated cfg plan (cfg.chooseStyle plan horizonTicks) venues
      (cfg.schedule memory plan horizonTicks inventoryAgeMs venues).children given) ↔
      (∀ p ∈ cfg.givenTo memory plan horizonTicks inventoryAgeMs venues,
        0 < cfg.limitPriceForStyle (venues p.1) plan.side (cfg.chooseStyle plan horizonTicks)) ∧
      (cfg.chooseStyle plan horizonTicks = .sweep →
        |((cfg.givenTo memory plan horizonTicks inventoryAgeMs venues).map Prod.snd).sum -
          min plan.remainingQty (quotedDepth plan.side venues)| ≤ 4 * qtyEpsilon) := by
    constructor
    · rintro ⟨given, h⟩
      have hprices := h.limitPrice_pos
      have hswept := h.swept
      rw [children_schedule_eq] at hprices hswept
      rw [totalQuantity_map_childOf] at hswept
      exact ⟨fun p hp => hprices _ (List.mem_map.mpr ⟨p, hp, rfl⟩), hswept⟩
    · rintro ⟨hpriced, hswept⟩
      exact ⟨_, allocated_givenTo hpos.le hpriced hswept⟩
  rw [hsound, PricesReached, givenTo]
  by_cases hprice : 0 < bestReferencePrice plan.side (cfg.chooseStyle plan horizonTicks) venues
  · rw [if_pos ⟨hactive, hpos, hprice⟩]
    simp only [hprice, true_imp_iff, styleAndPrice]
    by_cases hsweep : cfg.chooseStyle plan horizonTicks = .sweep
    · simp only [hsweep, if_true, true_imp_iff]
      rw [← picks_sweep_priced_iff]
      exact and_congr_right fun hpriced => picks_sweep_total_iff hpos.le hpriced
    · have hpicks := @picks_of_not_sweep cfg plan.side (cfg.chooseStyle plan horizonTicks)
        (cfg.shortfallOf memory plan horizonTicks inventoryAgeMs venues) venues hsweep
        SmartOrderRouter.maxVenues { remaining := plan.remainingQty } rfl hremaining
        (fun i hi => by cases hi) (venuesLeft_le _)
      rw [hpicks]
      simp [hsweep]
  · rw [if_neg fun h => hprice h.2.2]
    simp only [List.not_mem_nil, false_imp_iff, implies_true, true_and, List.map_nil, List.sum_nil,
      hprice, iff_true]
    intro hsweep
    rw [hsweep] at hprice
    rw [quotedDepth_eq_zero hprice, min_eq_right hpos.le, sub_zero, abs_zero]
    exact mul_nonneg (by norm_num) qtyEpsilon_pos.le

/-- A scheduler with no costs, which joins the touch when it has fifty ticks. -/
def plainScheduler : ChildOrderScheduler :=
  ⟨10, 5, 50, 0, 0, 0, 1 / 4, 1 / 100, ⟨1, 0, 1, ⟨0, 0, 0⟩, ⟨0, 0, 0⟩, ⟨0, 0, 0⟩, 0⟩⟩

/-- What memory holds, all zero. -/
def zeroMemory : SchedulerMemory := ⟨.passiveJoin, 0, ⟨0, 0, 0⟩⟩

/-- One venue has no bid and the lowest ask. -/
def oneSided : VenueQuotes := fun i =>
  match i with
  | 0 => { bestAsk := 100, depthQty := 1, healthy := true }
  | 1 => { bestBid := 99, bestAsk := 101, depthQty := 1, healthy := true, exchange := .kraken }
  | 2 => {}
  | 3 => {}

/-- A plan to buy one, which may wait. -/
def patientBuy : ParentExecutionPlan := { totalQty := 1, remainingQty := 1, state := .working }

/-- A plan to sweep the venues for three halves. -/
def sweepingBuy : ParentExecutionPlan :=
  { totalQty := 3 / 2, remainingQty := 3 / 2, state := .working, urgency := .aggressive }

/-- **A child without a price**: the passive order waits at the bid of a venue that has none. -/
theorem oneSided_child_without_price :
    ¬∃ given, Allocated plainScheduler patientBuy (plainScheduler.chooseStyle patientBuy 50)
      oneSided (plainScheduler.schedule zeroMemory patientBuy 50 0 oneSided).children given := by
  rintro ⟨given, h⟩
  have hchildren : (plainScheduler.schedule zeroMemory patientBuy 50 0 oneSided).children =
      [⟨.binance, 1, 0, .gtx⟩] := by decide +kernel
  have hprice := h.limitPrice_pos ⟨.binance, 1, 0, .gtx⟩ (by rw [hchildren]; simp)
  exact lt_irrefl _ hprice

theorem allocated_sweepingBuy :
    PricesReached plainScheduler sweepingBuy (plainScheduler.chooseStyle sweepingBuy 0)
        (plainScheduler.shortfallOf zeroMemory sweepingBuy 0 0 oneSided) oneSided ∧
      ∃ given, Allocated plainScheduler sweepingBuy (plainScheduler.chooseStyle sweepingBuy 0)
        oneSided (plainScheduler.schedule zeroMemory sweepingBuy 0 0 oneSided).children given := by
  have hreached : PricesReached plainScheduler sweepingBuy
      (plainScheduler.chooseStyle sweepingBuy 0)
      (plainScheduler.shortfallOf zeroMemory sweepingBuy 0 0 oneSided) oneSided := by
    intro _
    rw [show plainScheduler.chooseStyle sweepingBuy 0 = .sweep by decide, if_pos rfl]
    constructor
    · decide +kernel
    · decide +kernel
  exact ⟨hreached, (allocated_iff (by decide) (by decide +kernel)).mpr hreached⟩

end ChildOrderScheduler

end TradingInfrastructure
