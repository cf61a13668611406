import Mathlib.Tactic

/-!
# The first of the cheapest

A scan of a list keeps the best candidate so far and takes another one only when it is strictly
cheaper, so it ends with the first of the cheapest candidates below a bound (`firstMin_le`). Fewer
candidates give the same result, unless the result is no longer one (`firstMin_restrict`).
-/

namespace TradingInfrastructure

variable {α β : Type*} [LinearOrder β]

/-- The scan at one element. -/
def minStep (candidate : α → Bool) (cost : α → β) (best : Option α × β) (x : α) : Option α × β :=
  if candidate x = true ∧ cost x < best.2 then (some x, cost x) else best

/-- The first of the cheapest candidates, if one costs less than the bound. -/
def firstMin (candidate : α → Bool) (cost : α → β) (bound : β) (l : List α) : Option α :=
  (l.foldl (minStep candidate cost) (none, bound)).1

variable {candidate fewer : α → Bool} {cost : α → β} {bound : β} {l : List α} {x : α}

/-- What the scan keeps is a candidate below the bound. -/
theorem foldl_minStep_some {best : Option α × β} (hle : best.2 ≤ bound)
    (hbest : ∀ y, best.1 = some y → candidate y = true ∧ cost y < bound) :
    ∀ y, (l.foldl (minStep candidate cost) best).1 = some y → candidate y = true ∧
      cost y < bound := by
  induction l generalizing best with
  | nil => exact hbest
  | cons z l ih =>
    rw [List.foldl_cons, minStep]
    split_ifs with hz
    · refine ih (hz.2.le.trans hle) fun y hy => ?_
      obtain rfl : z = y := Option.some_injective _ hy
      exact ⟨hz.1, hz.2.trans_le hle⟩
    · exact ih hle hbest

/-- The result is a candidate below the bound. -/
theorem firstMin_some (h : firstMin candidate cost bound l = some x) :
    candidate x = true ∧ cost x < bound :=
  foldl_minStep_some le_rfl (fun y hy => by cases hy) x h

/-- What the scan keeps costs no more than any candidate. -/
theorem foldl_minStep_le {best : Option α × β} :
    (l.foldl (minStep candidate cost) best).2 ≤ best.2 ∧
      ∀ y ∈ l, candidate y = true → (l.foldl (minStep candidate cost) best).2 ≤ cost y := by
  induction l generalizing best with
  | nil => exact ⟨le_rfl, fun y hy => by cases hy⟩
  | cons z l ih =>
    obtain ⟨hbest, hrest⟩ := @ih (minStep candidate cost best z)
    have hstep : (minStep candidate cost best z).2 ≤ best.2 ∧
        (candidate z = true → (minStep candidate cost best z).2 ≤ cost z) := by
      unfold minStep
      split_ifs with hz
      · exact ⟨hz.2.le, fun _ => le_rfl⟩
      · exact ⟨le_rfl, fun hcandidate => not_lt.mp fun hlt => hz ⟨hcandidate, hlt⟩⟩
    rw [List.foldl_cons]
    refine ⟨hbest.trans hstep.1, fun y hy hcandidate => ?_⟩
    rcases List.mem_cons.mp hy with rfl | hy
    · exact hbest.trans (hstep.2 hcandidate)
    · exact hrest y hy hcandidate

/-- What the scan ends with is what it began with, or an element of the list with its cost, and
then a candidate that costs the same does not come before it. -/
theorem foldl_minStep_mem {before : α → α → Prop} (hl : l.Pairwise before) {best : Option α × β} :
    l.foldl (minStep candidate cost) best = best ∨
      ∃ x ∈ l, l.foldl (minStep candidate cost) best = (some x, cost x) ∧ cost x < best.2 ∧
        ∀ y ∈ l, candidate y = true → cost x = cost y → x = y ∨ before x y := by
  induction l generalizing best with
  | nil => exact .inl rfl
  | cons z l ih =>
    obtain ⟨hz, hl⟩ := List.pairwise_cons.mp hl
    rw [List.foldl_cons]
    rcases @ih hl (minStep candidate cost best z) with hsame | ⟨x, hx, hlast, hless, hfirst⟩
    · rw [hsame, minStep]
      split_ifs with hstep
      · refine .inr ⟨z, List.mem_cons_self, rfl, hstep.2, fun y hy _ _ => ?_⟩
        rcases List.mem_cons.mp hy with rfl | hy
        · exact .inl rfl
        · exact .inr (hz y hy)
      · exact .inl rfl
    · obtain ⟨hle, hstep⟩ := @foldl_minStep_le _ _ _ candidate cost [z] best
      refine .inr ⟨x, List.mem_cons_of_mem z hx, hlast, hless.trans_le hle, fun y hy hcy hxy => ?_⟩
      rcases List.mem_cons.mp hy with rfl | hy
      · exact absurd hxy (hless.trans_le (hstep y List.mem_cons_self hcy)).ne
      · exact hfirst y hy hcy hxy

/-- The scan keeps the cost of what it keeps. -/
theorem snd_foldl_minStep :
    (l.foldl (minStep candidate cost) (none, bound)).2 =
      (l.foldl (minStep candidate cost) (none, bound)).1.elim bound cost := by
  rcases @foldl_minStep_mem _ _ _ candidate cost l _ (List.pairwise_of_forall fun _ _ => trivial)
    (none, bound) with hsame | ⟨x, -, hlast, -⟩
  · rw [hsame, Option.elim_none]
  · rw [hlast, Option.elim_some]

/-- One more element. -/
theorem firstMin_concat : firstMin candidate cost bound (l ++ [x]) =
    if candidate x = true ∧ cost x < (firstMin candidate cost bound l).elim bound cost then some x
    else firstMin candidate cost bound l := by
  rw [firstMin, List.foldl_concat, minStep, snd_foldl_minStep]
  split_ifs with h h' h'
  · rfl
  · exact absurd h h'
  · exact absurd h' h
  · rfl

/-- The result is one of the elements. -/
theorem mem_of_firstMin (h : firstMin candidate cost bound l = some x) : x ∈ l := by
  rcases @foldl_minStep_mem _ _ _ candidate cost l _ (List.pairwise_of_forall fun _ _ => trivial)
    (none, bound) with hsame | ⟨z, hz, hlast, -⟩
  · rw [firstMin, hsame] at h
    cases h
  · rw [firstMin, hlast] at h
    exact Option.some_injective _ h ▸ hz

/-- **The cheapest**: no candidate costs less than the result. -/
theorem firstMin_le (h : firstMin candidate cost bound l = some x) {y : α} (hy : y ∈ l)
    (hcandidate : candidate y = true) : cost x ≤ cost y := by
  have hle := (@foldl_minStep_le _ _ _ candidate cost l (none, bound)).2 y hy hcandidate
  rcases @foldl_minStep_mem _ _ _ candidate cost l _ (List.pairwise_of_forall fun _ _ => trivial)
    (none, bound) with hsame | ⟨z, -, hlast, -⟩
  · rw [firstMin, hsame] at h
    cases h
  · rw [firstMin, hlast] at h
    obtain rfl : z = x := Option.some_injective _ h
    rwa [hlast] at hle

/-- **The first**: no other candidate of the same cost comes before the result. -/
theorem firstMin_first {before : α → α → Prop} (hl : l.Pairwise before)
    (h : firstMin candidate cost bound l = some x) {y : α} (hy : y ∈ l)
    (hcandidate : candidate y = true) (hcost : cost x = cost y) : x = y ∨ before x y := by
  rcases @foldl_minStep_mem _ _ _ candidate cost l before hl (none, bound)
    with hsame | ⟨z, -, hlast, -, hfirst⟩
  · rw [firstMin, hsame] at h
    cases h
  · rw [firstMin, hlast] at h
    obtain rfl : z = x := Option.some_injective _ h
    exact hfirst y hy hcandidate hcost

/-- Without a result no candidate is below the bound. -/
theorem firstMin_none (h : firstMin candidate cost bound l = none) {y : α} (hy : y ∈ l)
    (hcandidate : candidate y = true) : bound ≤ cost y := by
  have hle := (@foldl_minStep_le _ _ _ candidate cost l (none, bound)).2 y hy hcandidate
  rcases @foldl_minStep_mem _ _ _ candidate cost l _ (List.pairwise_of_forall fun _ _ => trivial)
    (none, bound) with hsame | ⟨z, -, hlast, -⟩
  · rwa [hsame] at hle
  · rw [firstMin, hlast] at h
    cases h

/-- Two scans agree, or the first has the lower cost, of an element that is no candidate of the
other. -/
def ScanAhead (fewer : α → Bool) (a b : Option α × β) : Prop :=
  b = a ∨ a.2 ≤ b.2 ∧ ∃ x, a.1 = some x ∧ fewer x = false

theorem ScanAhead.minStep (hfewer : ∀ x, fewer x = true → candidate x = true) {a b : Option α × β}
    (h : ScanAhead fewer a b) (y : α) :
    ScanAhead fewer (minStep candidate cost a y) (minStep fewer cost b y) := by
  have hle : a.2 ≤ b.2 := by
    rcases h with rfl | ⟨hle, -⟩
    · exact le_rfl
    · exact hle
  cases hy : fewer y with
  | true =>
    simp only [TradingInfrastructure.minStep, hy, hfewer y hy, true_and]
    split_ifs with ha hb hb
    · exact .inl rfl
    · exact absurd (ha.trans_le hle) hb
    · rcases h with rfl | ⟨-, hx⟩
      · exact absurd hb ha
      · exact .inr ⟨not_lt.mp ha, hx⟩
    · exact h
  | false =>
    simp only [TradingInfrastructure.minStep, hy, Bool.false_eq_true, false_and, if_false]
    split_ifs with ha
    · exact .inr ⟨ha.2.le.trans hle, y, rfl, hy⟩
    · exact h

theorem ScanAhead.foldl (hfewer : ∀ x, fewer x = true → candidate x = true) {a b : Option α × β}
    (h : ScanAhead fewer a b) :
    ScanAhead fewer (l.foldl (TradingInfrastructure.minStep candidate cost) a)
      (l.foldl (TradingInfrastructure.minStep fewer cost) b) := by
  induction l generalizing a b with
  | nil => exact h
  | cons y l ih => exact ih (h.minStep hfewer y)

/-- **Fewer candidates** give the same result, unless the result is no longer a candidate. -/
theorem firstMin_restrict (hfewer : ∀ x, fewer x = true → candidate x = true) :
    firstMin fewer cost bound l = firstMin candidate cost bound l ∨
      ∃ x, firstMin candidate cost bound l = some x ∧ fewer x = false := by
  have hstart : ScanAhead fewer ((none, bound) : Option α × β) (none, bound) := .inl rfl
  rcases hstart.foldl hfewer with h | ⟨-, h⟩
  · exact .inl (congrArg Prod.fst h)
  · exact .inr h

end TradingInfrastructure
