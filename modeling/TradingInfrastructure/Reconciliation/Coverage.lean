import TradingInfrastructure.Foundations.Runs
import TradingInfrastructure.Reconciliation.Service

/-!
# Which venues a cycle reconciles

A cycle returns at the first venue with a failure, so the venues behind it are not visited, and it
takes the reconnect mark of a venue away before the local reconcile has answered. So the cycles of a
run reconcile every venue, and keep every mark that they should, exactly when in each of them every
venue before the last that is visited passes, and the last one gets as far as its check
(`reconciles_run_iff`).
-/

namespace TradingInfrastructure

namespace VenueSlot

variable (slot : VenueSlot) (answers : VenueAnswers) (reconnectPhase : Bool)

/-- The local reconcile succeeds, if one is due. -/
def Prepared : Prop :=
  reconnectPhase = true → slot.reconnectRequired = true → answers.reconcile = .ok

/-- There is something to check the snapshot against, if there should be. -/
def HasCanonical : Prop := slot.hasFetcher = true → answers.canonical.isSome = true

/-- No mismatch is found in the snapshot. -/
def Matches (config : ServiceConfig) : Prop :=
  (config.thresholds.evaluate answers.memory answers.fetch.2
    (if slot.hasFetcher then answers.canonical else slot.canonicalSnapshot)).mismatch = false

/-- The venue passes its visit. -/
structure Passes (config : ServiceConfig) : Prop where
  prepared : slot.Prepared answers reconnectPhase
  fetched : answers.fetch.1 = .ok
  canonical : slot.HasCanonical answers
  matched : slot.Matches answers config

/-- **A cycle has reconciled the venue** in slot `j`: its snapshot has been fetched, and checked
when there was one, unless it was quarantined, and its reconnect mark is still there unless its
local reconcile has succeeded. -/
structure Reconciled (j : ℕ) (after : Option VenueSlot) (calls : List CycleCall) : Prop where
  fetched : slot.state.quarantined = false → .fetch j ∈ calls
  checked : slot.state.quarantined = false → answers.fetch.1 = .ok → .check j ∈ calls
  marked : slot.reconnectRequired = true →
    (∃ slot', after = some slot' ∧ slot'.reconnectRequired = true) ∨
      (.reconcile j ∈ calls ∧ answers.reconcile = .ok)

end VenueSlot

/-- A cycle from slot `i` on has reconciled all the venues. -/
def Cycle.Reconciles (c : Cycle) (i : ℕ) (slots : List VenueSlot)
    (answers : ℕ → VenueAnswers) : Prop :=
  ∀ (k : ℕ) (slot : VenueSlot), slots[k]? = some slot →
    slot.Reconciled (answers (i + k)) (i + k) c.slots[k]? c.calls

/-- **Nothing keeps a cycle** from slot `i` on from a venue: each one that is not quarantined gets
as far as its check, and passes when another one follows. -/
def ServiceConfig.NoneStarves (config : ServiceConfig) (reconnectPhase : Bool)
    (answers : ℕ → VenueAnswers) : ℕ → List VenueSlot → Prop
  | _, [] => True
  | i, slot :: slots =>
    (slot.state.quarantined = false →
      slot.Prepared (answers i) reconnectPhase ∧
        ((answers i).fetch.1 = .ok → slot.HasCanonical (answers i)) ∧
        ((∃ slot' ∈ slots, slot'.state.quarantined = false) →
          slot.Passes (answers i) reconnectPhase config)) ∧
      config.NoneStarves reconnectPhase answers (i + 1) slots

/-! ## One visit -/

/-- A call that is not through a hook. -/
def CycleCall.isVisit : CycleCall → Bool
  | .reconcile _ | .fetch _ | .check _ => true
  | .cancelAllHook .. | .riskHaltHook .. => false

/-- What a visit does: the calls of the connector, whether it is passed, and the mark afterwards. -/
structure Visit.Does (v : Visit) (visits : List CycleCall) (passed marked : Bool) : Prop where
  visits : v.calls.filter CycleCall.isVisit = visits
  passed : v.returned.isNone = passed
  marked : v.slot.reconnectRequired = marked

theorem Visit.Does.mem {v : Visit} {visits : List CycleCall} {passed marked : Bool}
    (h : v.Does visits passed marked) {call : CycleCall} (hcall : call.isVisit = true) :
    call ∈ v.calls ↔ call ∈ visits := by
  rw [← h.visits, List.mem_filter]
  simp [hcall]

namespace ServiceConfig

variable {config : ServiceConfig} {slot : VenueSlot} {log : ServiceLog}
  {calls : List CycleCall} {i : ℕ}
  {answers : VenueAnswers} {reconnectPhase : Bool}

theorem filter_fireHook (exchange : Exchange) (decision : DriftDecision) :
    (fireHook exchange decision).filter CycleCall.isVisit = [] := by
  unfold fireHook
  cases decision.action <;> rfl

theorem applyDecision_does (hcalls : calls.filter CycleCall.isVisit = calls)
    (decision : DriftDecision)
    (now : ℤ) (res : ConnectorResult) :
    (config.applyDecision slot log calls decision reconnectPhase now res).Does calls false
      slot.reconnectRequired where
  visits := by
    simp only [applyDecision, List.filter_append, filter_fireHook, List.append_nil, hcalls]
  passed := rfl
  marked := rfl

theorem checkVisit_of_missing (hcalls : calls.filter CycleCall.isVisit = calls)
    (h : ¬ slot.HasCanonical answers) :
    (config.checkVisit slot log calls i answers reconnectPhase).Does calls false
      slot.reconnectRequired := by
  unfold VenueSlot.HasCanonical at h
  push Not at h
  have hguard : (slot.hasFetcher && answers.canonical.isNone) = true := by
    rw [h.1, Bool.true_and, ← Option.not_isSome, Bool.eq_false_iff.mpr h.2, Bool.not_false]
  simp only [checkVisit, hguard, if_true]
  exact applyDecision_does hcalls _ _ _

theorem guard_of_hasCanonical (h : slot.HasCanonical answers) :
    (slot.hasFetcher && answers.canonical.isNone) = false := by
  cases hfetcher : slot.hasFetcher with
  | false => rfl
  | true => rw [Bool.true_and, ← Option.not_isSome, h hfetcher, Bool.not_true]

theorem checkVisit_of_mismatch (hcalls : calls.filter CycleCall.isVisit = calls)
    (hcanonical : slot.HasCanonical answers) (h : ¬ slot.Matches answers config) :
    (config.checkVisit slot log calls i answers reconnectPhase).Does (calls ++ [.check i]) false
      slot.reconnectRequired := by
  have hmismatch := Bool.eq_true_of_not_eq_false h
  simp only [checkVisit, guard_of_hasCanonical hcanonical, hmismatch, Bool.false_eq_true,
    if_false, if_true]
  exact applyDecision_does (by simp [hcalls, CycleCall.isVisit]) _ _ _

theorem checkVisit_of_matches (hcalls : calls.filter CycleCall.isVisit = calls)
    (hcanonical : slot.HasCanonical answers) (h : slot.Matches answers config) :
    (config.checkVisit slot log calls i answers reconnectPhase).Does (calls ++ [.check i]) true
      slot.reconnectRequired := by
  unfold VenueSlot.Matches at h
  simp only [checkVisit, guard_of_hasCanonical hcanonical, h, Bool.false_eq_true, if_false]
  exact ⟨by simp [passVisit, hcalls, CycleCall.isVisit], rfl, rfl⟩

/-- The local reconcile that is due. -/
def due (slot : VenueSlot) (i : ℕ) (reconnectPhase : Bool) : List CycleCall :=
  if reconnectPhase && slot.reconnectRequired then [.reconcile i] else []

theorem filter_due : (due slot i reconnectPhase).filter CycleCall.isVisit =
    due slot i reconnectPhase := by
  unfold due
  cases reconnectPhase && slot.reconnectRequired <;> rfl

/-- A visit without a local reconcile that fails is a fetch. -/
theorem visit_of_prepared (h : slot.Prepared answers reconnectPhase) :
    config.visit slot log i answers reconnectPhase =
      config.fetchVisit
        { slot with reconnectRequired := slot.reconnectRequired && !reconnectPhase } log
        (due slot i reconnectPhase) i answers reconnectPhase := by
  cases hphase : reconnectPhase with
  | false => simp [visit, due]
  | true =>
    cases hrequired : slot.reconnectRequired with
    | false =>
      simp only [visit, due, hrequired, Bool.and_false, Bool.false_eq_true, if_false,
        Bool.false_and]
      rw [← hrequired]
    | true =>
      simp [visit, due, hrequired, h hphase hrequired]

/-- How a visit ends: after a local reconcile or a fetch that fails, without a canonical snapshot,
with a check that fails, or passed. -/
inductive VisitEnd (config : ServiceConfig) (slot : VenueSlot) (i : ℕ) (answers : VenueAnswers)
    (reconnectPhase : Bool) (v : Visit) : Prop
  | unprepared (prepared : ¬ slot.Prepared answers reconnectPhase)
      (does : v.Does (due slot i reconnectPhase) false (slot.reconnectRequired && !reconnectPhase))
  | unfetched (prepared : slot.Prepared answers reconnectPhase) (fetched : answers.fetch.1 ≠ .ok)
      (does : v.Does (due slot i reconnectPhase ++ [.fetch i]) false
        (slot.reconnectRequired && !reconnectPhase))
  | uncompared (prepared : slot.Prepared answers reconnectPhase) (fetched : answers.fetch.1 = .ok)
      (canonical : ¬ slot.HasCanonical answers)
      (does : v.Does (due slot i reconnectPhase ++ [.fetch i]) false
        (slot.reconnectRequired && !reconnectPhase))
  | mismatched (prepared : slot.Prepared answers reconnectPhase) (fetched : answers.fetch.1 = .ok)
      (canonical : slot.HasCanonical answers) (matched : ¬ slot.Matches answers config)
      (does : v.Does (due slot i reconnectPhase ++ [.fetch i, .check i]) false
        (slot.reconnectRequired && !reconnectPhase))
  | passed (passes : slot.Passes answers reconnectPhase config)
      (does : v.Does (due slot i reconnectPhase ++ [.fetch i, .check i]) true
        (slot.reconnectRequired && !reconnectPhase))

/-- **The ends of a visit**. -/
theorem visit_end (config : ServiceConfig) (slot : VenueSlot) (log : ServiceLog) (i : ℕ)
    (answers : VenueAnswers) (reconnectPhase : Bool) :
    VisitEnd config slot i answers reconnectPhase
      (config.visit slot log i answers reconnectPhase) := by
  by_cases hprepared : slot.Prepared answers reconnectPhase
  · have hvisit := @visit_of_prepared config slot log i answers reconnectPhase hprepared
    have hcalls : (due slot i reconnectPhase ++ [CycleCall.fetch i]).filter CycleCall.isVisit =
        due slot i reconnectPhase ++ [.fetch i] := by
      rw [List.filter_append, filter_due]
      rfl
    by_cases hfetch : answers.fetch.1 = .ok
    · have hcheck : config.visit slot log i answers reconnectPhase = config.checkVisit
          { slot with reconnectRequired := slot.reconnectRequired && !reconnectPhase } log
          (due slot i reconnectPhase ++ [.fetch i]) i answers reconnectPhase := by
        rw [hvisit, fetchVisit]
        simp only [hfetch, ne_eq, not_true_eq_false, if_false]
      have hsplit : due slot i reconnectPhase ++ [CycleCall.fetch i, .check i] =
          due slot i reconnectPhase ++ [.fetch i] ++ [.check i] := by simp
      rw [hcheck]
      by_cases hcanonical : slot.HasCanonical answers
      · by_cases hmatches : slot.Matches answers config
        · refine .passed ⟨hprepared, hfetch, hcanonical, hmatches⟩ ?_
          rw [hsplit]
          exact checkVisit_of_matches hcalls hcanonical hmatches
        · refine .mismatched hprepared hfetch hcanonical hmatches ?_
          rw [hsplit]
          exact checkVisit_of_mismatch hcalls hcanonical hmatches
      · exact .uncompared hprepared hfetch hcanonical (checkVisit_of_missing hcalls hcanonical)
    · refine .unfetched hprepared hfetch ?_
      simp only [hvisit, fetchVisit, hfetch, ne_eq, not_false_eq_true, if_true, failVisit]
      exact applyDecision_does hcalls _ _ _
  · refine .unprepared hprepared ?_
    unfold VenueSlot.Prepared at hprepared
    push Not at hprepared
    obtain ⟨hphase, hrequired, hreconcile⟩ := hprepared
    simp only [visit, due, hphase, hrequired, Bool.and_true, if_true, hreconcile, ne_eq,
      not_false_eq_true, failVisit, Bool.not_true, Bool.and_false]
    exact applyDecision_does rfl _ _ _

/-! ## A cycle -/

/-- What holds of the rows of a list holds of its first row and of the others. -/
theorem forall_getElem?_cons {α : Type} {P : ℕ → α → Prop} {a : α} {l : List α} :
    (∀ (k : ℕ) x, (a :: l)[k]? = some x → P k x) ↔
      P 0 a ∧ ∀ (k : ℕ) x, l[k]? = some x → P (k + 1) x := by
  constructor
  · intro h
    exact ⟨h 0 a rfl, fun k x hx => h (k + 1) x hx⟩
  · rintro ⟨hhead, htail⟩ (_ | k) x hx
    · exact Option.some.inj hx ▸ hhead
    · exact htail k x hx

theorem reconciles_succ {c : Cycle} {slots : List VenueSlot} {answers : ℕ → VenueAnswers} :
    c.Reconciles (i + 1) slots answers ↔ ∀ (k : ℕ) (slot : VenueSlot), slots[k]? = some slot →
      slot.Reconciled (answers (i + (k + 1))) (i + (k + 1)) c.slots[k]? c.calls := by
  simp only [Cycle.Reconciles, Nat.add_assoc, Nat.add_comm 1]

/-- When a cycle stops, it has reconciled the venues behind only if they are quarantined. -/
theorem reconciled_behind {slots : List VenueSlot} {answers : ℕ → VenueAnswers}
    (hfetch : ∀ j, CycleCall.fetch j ∈ calls → j = i) :
    (∀ (k : ℕ) (slot : VenueSlot), slots[k]? = some slot →
      slot.Reconciled (answers (i + (k + 1))) (i + (k + 1)) slots[k]? calls) ↔
      ∀ slot ∈ slots, slot.state.quarantined = true := by
  constructor
  · intro h slot hmem
    obtain ⟨k, hk⟩ := List.mem_iff_getElem?.mp hmem
    by_contra hactive
    have hindex := hfetch _ ((h k slot hk).fetched (Bool.eq_false_iff.mpr hactive))
    omega
  · intro h k slot hk
    have hquarantined := h slot (List.mem_of_getElem? hk)
    refine ⟨fun hactive => ?_, fun hactive => ?_, fun hrequired => Or.inl ⟨slot, hk, hrequired⟩⟩
    · rw [hquarantined] at hactive
      cases hactive
    · rw [hquarantined] at hactive
      cases hactive

theorem noneStarves_of_quarantined {slots : List VenueSlot} {answers : ℕ → VenueAnswers}
    (h : ∀ slot ∈ slots, slot.state.quarantined = true) :
    config.NoneStarves reconnectPhase answers i slots := by
  induction slots generalizing i with
  | nil => trivial
  | cons slot slots ih =>
    refine ⟨fun hactive => ?_, ih fun slot' hmem => h slot' (List.mem_cons_of_mem _ hmem)⟩
    rw [h slot List.mem_cons_self] at hactive
    cases hactive

/-- What a visit that is prepared leaves of the mark. -/
theorem marked_of_prepared (hprepared : slot.Prepared answers reconnectPhase)
    (hdue : ∀ call ∈ due slot i reconnectPhase, call ∈ calls) {after : VenueSlot}
    (hafter : after.reconnectRequired = (slot.reconnectRequired && !reconnectPhase))
    (hrequired : slot.reconnectRequired = true) :
    (∃ slot', some after = some slot' ∧ slot'.reconnectRequired = true) ∨
      (.reconcile i ∈ calls ∧ answers.reconcile = .ok) := by
  cases hphase : reconnectPhase with
  | false => exact Or.inl ⟨after, rfl, by rw [hafter, hrequired, hphase]; rfl⟩
  | true => exact Or.inr ⟨hdue _ (by simp [due, hphase, hrequired]), hprepared hphase hrequired⟩

theorem mem_due {call : CycleCall} (h : call ∈ due slot i reconnectPhase) :
    call = .reconcile i := by
  unfold due at h
  cases hreq : reconnectPhase && slot.reconnectRequired <;> simp_all

/-- A visit fetches only at its own venue. -/
theorem eq_of_fetch_mem {visits : List CycleCall} {v : Visit} {passed marked : Bool}
    (h : v.Does (due slot i reconnectPhase ++ visits) passed marked)
    (hvisits : ∀ j, CycleCall.fetch j ∈ visits → j = i) (j : ℕ) (hj : CycleCall.fetch j ∈ v.calls) :
    j = i := by
  rcases List.mem_append.mp ((h.mem rfl).mp hj) with hdue | hmem
  · cases mem_due hdue
  · exact hvisits j hmem

/-- A visit that is passed says nothing of the venues behind. -/
theorem reconciled_append {answers : VenueAnswers} {after : Option VenueSlot} {v : Visit} {j : ℕ}
    {slot' : VenueSlot} {rest : List CycleCall} {passed marked : Bool}
    (h : v.Does (due slot i reconnectPhase ++ [.fetch i, .check i]) passed marked) (hj : j ≠ i) :
    slot'.Reconciled answers j after (v.calls ++ rest) ↔ slot'.Reconciled answers j after rest := by
  have hmem : ∀ call : CycleCall, call = .reconcile j ∨ call = .fetch j ∨ call = .check j →
      (call ∈ v.calls ++ rest ↔ call ∈ rest) := by
    intro call hcall
    rw [List.mem_append, or_iff_right]
    have hvisit : call.isVisit = true := by rcases hcall with rfl | rfl | rfl <;> rfl
    rw [h.mem hvisit, List.mem_append]
    rintro (hdue | hmem)
    · have hreconcile := mem_due hdue
      rcases hcall with rfl | rfl | rfl <;> simp_all
    · rcases hcall with rfl | rfl | rfl <;> simp_all
  constructor
  · intro hrec
    exact ⟨fun hactive => (hmem _ (by simp)).mp (hrec.fetched hactive),
      fun hactive hok => (hmem _ (by simp)).mp (hrec.checked hactive hok),
      fun hrequired => (hrec.marked hrequired).imp_right (And.imp_left (hmem _ (by simp)).mp)⟩
  · intro hrec
    exact ⟨fun hactive => (hmem _ (by simp)).mpr (hrec.fetched hactive),
      fun hactive hok => (hmem _ (by simp)).mpr (hrec.checked hactive hok),
      fun hrequired => (hrec.marked hrequired).imp_right (And.imp_left (hmem _ (by simp)).mpr)⟩

/-- A visit that fetches, and checks what it has fetched, has reconciled its venue. -/
theorem reconciled_visit {answers : VenueAnswers} {v : Visit} {visits rest : List CycleCall}
    {passed : Bool} (hprepared : slot.Prepared answers reconnectPhase)
    (hv : v.Does (due slot i reconnectPhase ++ visits) passed
    (slot.reconnectRequired && !reconnectPhase))
    (hfetch : CycleCall.fetch i ∈ visits)
    (hcheck : answers.fetch.1 = .ok → CycleCall.check i ∈ visits) :
    slot.Reconciled answers i (some v.slot) (v.calls ++ rest) := by
  have hmem : ∀ call ∈ due slot i reconnectPhase ++ visits, call.isVisit = true →
      call ∈ v.calls ++ rest :=
    fun call hcall hvisit => List.mem_append_left _ ((hv.mem hvisit).mpr hcall)
  refine ⟨fun _ => hmem _ (by simp [hfetch]) rfl, fun _ hok => hmem _ (by simp [hcheck hok]) rfl,
    marked_of_prepared hprepared (fun call hcall => ?_) hv.marked⟩
  exact hmem call (List.mem_append_left _ hcall) (by rw [mem_due hcall]; rfl)

/-- A visit that stops the cycle after the check, or without a snapshot, has reconciled all venues
if those behind are quarantined. -/
theorem stopped_iff {answers : ℕ → VenueAnswers} {slots : List VenueSlot} {v : Visit}
    {visits : List CycleCall} {passed : Bool} (hactive : slot.state.quarantined = false)
    (hprepared : slot.Prepared (answers i) reconnectPhase)
    (hcanonical : (answers i).fetch.1 = .ok → slot.HasCanonical (answers i))
    (hpasses : ¬ slot.Passes (answers i) reconnectPhase config)
    (hv : v.Does (due slot i reconnectPhase ++ visits) passed
    (slot.reconnectRequired && !reconnectPhase))
    (hvisits : ∀ j, CycleCall.fetch j ∈ visits → j = i) (hfetch : CycleCall.fetch i ∈ visits)
    (hcheck : (answers i).fetch.1 = .ok → CycleCall.check i ∈ visits) {c : Cycle}
    (hslots : c.slots = v.slot :: slots) (hcalls : c.calls = v.calls) :
    c.Reconciles i (slot :: slots) answers ↔
      config.NoneStarves reconnectPhase answers i (slot :: slots) := by
  have hhead : slot.Reconciled (answers i) i (some v.slot) v.calls := by
    rw [← List.append_nil v.calls]
    exact reconciled_visit hprepared hv hfetch hcheck
  unfold Cycle.Reconciles
  rw [forall_getElem?_cons, hslots, hcalls, NoneStarves]
  simp only [List.getElem?_cons_succ, reconciled_behind (eq_of_fetch_mem hv hvisits)]
  constructor
  · rintro ⟨-, hbehind⟩
    refine ⟨fun _ => ⟨hprepared, hcanonical, ?_⟩, noneStarves_of_quarantined hbehind⟩
    rintro ⟨slot', hslot', hactive'⟩
    rw [hbehind slot' hslot'] at hactive'
    cases hactive'
  · rintro ⟨hcond, -⟩
    refine ⟨hhead, fun slot' hslot' => ?_⟩
    by_contra hquarantined
    exact hpasses ((hcond hactive).2.2 ⟨slot', hslot', Bool.eq_false_iff.mpr hquarantined⟩)

theorem cycleFrom_of_quarantined {answers : ℕ → VenueAnswers} {slots : List VenueSlot}
    (h : slot.state.quarantined = true) :
    config.cycleFrom reconnectPhase answers i (slot :: slots) log =
      { config.cycleFrom reconnectPhase answers (i + 1) slots log with
        slots := slot :: (config.cycleFrom reconnectPhase answers (i + 1) slots log).slots } := by
  rw [cycleFrom]
  simp only [h, if_true]

/-- A visit that is not passed ends the cycle. -/
theorem cycleFrom_of_stopped {answers : ℕ → VenueAnswers} {slots : List VenueSlot}
    {visits : List CycleCall} {marked : Bool} (h : slot.state.quarantined = false)
    (hdoes : (config.visit slot log i (answers i) reconnectPhase).Does visits false marked) :
    (config.cycleFrom reconnectPhase answers i (slot :: slots) log).slots =
        (config.visit slot log i (answers i) reconnectPhase).slot :: slots ∧
      (config.cycleFrom reconnectPhase answers i (slot :: slots) log).calls =
        (config.visit slot log i (answers i) reconnectPhase).calls := by
  cases hreturned : (config.visit slot log i (answers i) reconnectPhase).returned with
  | none =>
    have hpassed := hdoes.passed
    rw [hreturned] at hpassed
    cases hpassed
  | some result =>
    rw [cycleFrom]
    simp only [h, Bool.false_eq_true, if_false, hreturned, and_self]

/-- After a visit that is passed the cycle goes on. -/
theorem cycleFrom_of_passed {answers : ℕ → VenueAnswers} {slots : List VenueSlot}
    {visits : List CycleCall} {marked : Bool} (h : slot.state.quarantined = false)
    (hdoes : (config.visit slot log i (answers i) reconnectPhase).Does visits true marked) :
    let v := config.visit slot log i (answers i) reconnectPhase
    let rest := config.cycleFrom reconnectPhase answers (i + 1) slots v.log
    config.cycleFrom reconnectPhase answers i (slot :: slots) log =
      { rest with slots := v.slot :: rest.slots, calls := v.calls ++ rest.calls } := by
  intro v rest
  have hreturned := Option.isNone_iff_eq_none.mp hdoes.passed
  rw [cycleFrom]
  simp only [h, Bool.false_eq_true, if_false, hreturned, v, rest]

/-- **A cycle reconciles its venues** exactly when nothing keeps it from one. -/
theorem reconciles_iff {answers : ℕ → VenueAnswers} {slots : List VenueSlot} :
    (config.cycleFrom reconnectPhase answers i slots log).Reconciles i slots answers ↔
      config.NoneStarves reconnectPhase answers i slots := by
  induction slots generalizing i log with
  | nil => simp [Cycle.Reconciles, NoneStarves]
  | cons slot slots ih =>
    cases hactive : slot.state.quarantined with
    | true =>
      let rest := config.cycleFrom reconnectPhase answers (i + 1) slots log
      have hhead : slot.Reconciled (answers i) i (some slot) rest.calls :=
        ⟨by simp [hactive], by simp [hactive], fun hrequired => Or.inl ⟨slot, rfl, hrequired⟩⟩
      unfold Cycle.Reconciles
      rw [forall_getElem?_cons, cycleFrom_of_quarantined hactive, NoneStarves]
      simp only [List.getElem?_cons_succ, List.getElem?_cons_zero, Nat.add_zero]
      exact and_congr (iff_of_true hhead (by simp [hactive])) (reconciles_succ.symm.trans ih)
    | false =>
      cases visit_end config slot log i (answers i) reconnectPhase with
      | unprepared hprepared hdoes =>
        -- the mark is gone
        obtain ⟨hslots, -⟩ := @cycleFrom_of_stopped _ _ _ _ _ _ slots _ _ hactive hdoes
        refine iff_of_false (fun h => ?_) fun h => hprepared (h.1 hactive).1
        unfold VenueSlot.Prepared at hprepared
        push Not at hprepared
        obtain ⟨hphase, hrequired, hreconcile⟩ := hprepared
        rcases (h 0 slot rfl).marked hrequired with ⟨slot', hslot', hmarked⟩ | ⟨-, hok⟩
        · rw [hslots, List.getElem?_cons_zero] at hslot'
          rw [← Option.some.inj hslot', hdoes.marked, hphase, Bool.not_true,
            Bool.and_false] at hmarked
          cases hmarked
        · exact hreconcile hok
      | unfetched hprepared hfetch hdoes =>
        obtain ⟨hslots, hcalls⟩ := @cycleFrom_of_stopped _ _ _ _ _ _ slots _ _ hactive hdoes
        exact stopped_iff hactive hprepared (fun hok => absurd hok hfetch)
          (fun hpasses => hfetch hpasses.fetched) hdoes (by simp) (by simp)
          (fun hok => absurd hok hfetch) hslots hcalls
      | uncompared hprepared hfetch hcanonical hdoes =>
        -- the snapshot is never checked
        obtain ⟨-, hcalls⟩ := @cycleFrom_of_stopped _ _ _ _ _ _ slots _ _ hactive hdoes
        refine iff_of_false (fun h => ?_) fun h => hcanonical ((h.1 hactive).2.1 hfetch)
        have hcheck := (h 0 slot rfl).checked hactive hfetch
        rw [hcalls, Nat.add_zero, hdoes.mem rfl, List.mem_append, List.mem_singleton] at hcheck
        rcases hcheck with hdue | hcheck
        · cases mem_due hdue
        · cases hcheck
      | mismatched hprepared hfetch hcanonical hmatches hdoes =>
        obtain ⟨hslots, hcalls⟩ := @cycleFrom_of_stopped _ _ _ _ _ _ slots _ _ hactive hdoes
        exact stopped_iff hactive hprepared (fun _ => hcanonical)
          (fun hpasses => hmatches hpasses.matched) hdoes (by simp) (by simp)
            (by simp) hslots hcalls
      | passed hpasses hdoes =>
        -- the cycle goes on
        unfold Cycle.Reconciles
        rw [forall_getElem?_cons, cycleFrom_of_passed hactive hdoes, NoneStarves]
        simp only [List.getElem?_cons_succ, List.getElem?_cons_zero, Nat.add_zero]
        refine and_congr (iff_of_true ?_ fun _ => ?_) (Iff.trans ?_ (@ih
          (config.visit slot log i (answers i) reconnectPhase).log (i + 1)))
        · exact reconciled_visit hpasses.prepared hdoes (by simp) (by simp)
        · exact ⟨hpasses.prepared, fun _ => hpasses.canonical, fun _ => hpasses⟩
        · rw [reconciles_succ]
          exact forall_congr' fun k => forall_congr' fun slot' => imp_congr_right fun _ =>
            reconciled_append hdoes (by omega)

end ServiceConfig

/-! ## Runs of the service -/

/-- A call of the service. -/
inductive ServiceCall
  | registerConnector (connector : ℕ) (exchange : Exchange)
  | setCanonicalSnapshot (exchange : Exchange) (snapshot : ReconciliationSnapshot)
  | setCanonicalSnapshotFetcher (exchange : Exchange) (hasFetcher : Bool)
  | bindPositionLedger (ledger : Option PositionLedger)
  | markReconnectRequired (exchange : Exchange)
  | runReconciliationCycle (reconnectPhase : Bool) (answers : ℕ → VenueAnswers)

namespace ReconciliationService

/-- What a call makes of the service. -/
def call (s : ReconciliationService) : ServiceCall → ReconciliationService
  | .registerConnector connector exchange => (s.registerConnector connector exchange).1
  | .setCanonicalSnapshot exchange snapshot => (s.setCanonicalSnapshot exchange snapshot).1
  | .setCanonicalSnapshotFetcher exchange hasFetcher =>
    (s.setCanonicalSnapshotFetcher exchange hasFetcher).1
  | .bindPositionLedger ledger => s.bindPositionLedger ledger
  | .markReconnectRequired exchange => (s.markReconnectRequired exchange).1
  | .runReconciliationCycle reconnectPhase answers =>
    (s.runReconciliationCycle reconnectPhase answers).1

/-- The marks stay. -/
def KeepsMarks (s s' : ReconciliationService) : Prop :=
  ∀ (k : ℕ) (slot : VenueSlot), s.slots[k]? = some slot → slot.reconnectRequired = true →
    ∃ slot', s'.slots[k]? = some slot' ∧ slot'.reconnectRequired = true

/-- **A call leaves no venue out**: a cycle reconciles all of them, and other calls keep the
marks. -/
def Reconciles (s : ReconciliationService) : ServiceCall → Prop
  | .runReconciliationCycle reconnectPhase answers =>
    (s.cycle reconnectPhase answers).Reconciles 0 s.slots answers
  | c => s.KeepsMarks (s.call c)

/-- Nothing keeps the cycles from a venue. -/
def NoneStarves (s : ReconciliationService) : ServiceCall → Prop
  | .runReconciliationCycle reconnectPhase answers =>
    s.config.NoneStarves reconnectPhase answers 0 s.slots
  | _ => True

variable {s : ReconciliationService}

theorem keepsMarks_registerConnector (connector : ℕ) (exchange : Exchange) :
    s.KeepsMarks (s.registerConnector connector exchange).1 := by
  intro k slot hk hrequired
  unfold registerConnector
  split_ifs
  · exact ⟨slot, hk, hrequired⟩
  · exact ⟨slot, hk, hrequired⟩
  · exact ⟨slot, List.getElem?_append_left (List.getElem?_eq_some_iff.mp hk).1 ▸ hk, hrequired⟩

theorem keepsMarks_modifySlot (exchange : Exchange) {f : VenueSlot → VenueSlot}
    (hf : ∀ slot : VenueSlot, slot.reconnectRequired = true → (f slot).reconnectRequired = true) :
    s.KeepsMarks (s.modifySlot exchange f).1 := by
  intro k slot hk hrequired
  unfold modifySlot
  cases s.indexFor exchange with
  | none => exact ⟨slot, hk, hrequired⟩
  | some i =>
    simp only [List.getElem?_modify, hk]
    by_cases hi : i = k
    · exact ⟨f slot, by simp [hi], hf slot hrequired⟩
    · exact ⟨slot, by simp [hi], hrequired⟩

/-- **One call** leaves no venue out exactly when nothing keeps it from one. -/
theorem reconciles_call_iff (c : ServiceCall) : s.Reconciles c ↔ s.NoneStarves c := by
  cases c with
  | registerConnector connector exchange =>
    exact iff_of_true (keepsMarks_registerConnector connector exchange) trivial
  | setCanonicalSnapshot exchange snapshot =>
    exact iff_of_true (keepsMarks_modifySlot exchange fun _ h => h) trivial
  | setCanonicalSnapshotFetcher exchange hasFetcher =>
    exact iff_of_true (keepsMarks_modifySlot exchange fun _ h => h) trivial
  | bindPositionLedger ledger => exact iff_of_true (fun _ slot hk h => ⟨slot, hk, h⟩) trivial
  | markReconnectRequired exchange =>
    exact iff_of_true (keepsMarks_modifySlot exchange fun _ _ => rfl) trivial
  | runReconciliationCycle reconnectPhase answers => exact ServiceConfig.reconciles_iff

/-- **Every cycle of a run reconciles every venue**, and keeps the marks that it should, exactly
when in each cycle no venue but the last that is visited fails, and that one not before its
check. -/
theorem reconciles_run_iff (s : ReconciliationService) (calls : List ServiceCall) :
    AllSteps call Reconciles s calls ↔ AllSteps call NoneStarves s calls :=
  allSteps_congr (P := fun _ => True) (fun _ _ _ => trivial) (fun _ c _ => reconciles_call_iff c)
    trivial

/-- A service without connectors. -/
def new : ReconciliationService where
  config := ⟨⟨0, 0, 0, 0, 0⟩, ⟨3, 3, 3⟩⟩
  log := { incidentCount := 0, droppedIncidentCount := 0 }

/-- A venue whose fetch fails, in slot 0, and one with an empty snapshot. -/
def firstFails (slot : ℕ) : VenueAnswers where
  reconcile := .ok
  fetch := (if slot = 0 then .errorRestFailure else .ok, .empty)
  canonical := none
  nowNs := 0
  nowSystem := 0
  nowSteady := 0
  memory := ⟨false, .none, .none, .info, 0, false, []⟩

/-- **One venue starves another**: the second one is never asked. -/
theorem firstFails_not_reconciles :
    ¬ AllSteps call Reconciles new [.registerConnector 0 .binance, .registerConnector 1 .kraken,
      .runReconciliationCycle false firstFails] := by
  rintro ⟨-, -, hcycle, -⟩
  exact absurd ((hcycle 1 _ rfl).fetched rfl) (by decide)

end ReconciliationService

end TradingInfrastructure
