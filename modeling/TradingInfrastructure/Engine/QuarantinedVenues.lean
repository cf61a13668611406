import TradingInfrastructure.Engine.DrawdownGuard

/-!
# Quarantined venues

The reconciliation service never visits a quarantined venue again, but nothing outside the service
asks whether a venue is quarantined, and the service keeps the snapshot that it has quarantined the
venue for. So orders stop, and the snapshots are sound, exactly where the checks of the orders stop
them and every snapshot fetched is sane (`LiveEngine.stopsTrading_iff`).
-/

namespace TradingInfrastructure

/-- The snapshot passes the check of a live run. -/
def DriftThresholds.Sane (t : DriftThresholds) (snapshot : ReconciliationSnapshot) : Prop :=
  (t.evaluateSnapshotSanity .zero snapshot).mismatch = false

/-- What is in memory does not matter to the check. -/
theorem DriftThresholds.sanity_of_memory (t : DriftThresholds) (out : DriftDecision)
    (snapshot : ReconciliationSnapshot) :
    (t.Sane snapshot ∧ t.evaluateSnapshotSanity out snapshot = out) ∨
      (¬ t.Sane snapshot ∧ ∃ reason, t.evaluateSnapshotSanity out snapshot =
        out.insane reason) := by
  unfold Sane evaluateSnapshotSanity
  cases snapshot.openOrders.items.findSome? t.orderSanity with
  | some reason =>
    exact .inr ⟨by simp [DriftDecision.insane, DriftDecision.mismatchOf], reason, rfl⟩
  | none =>
  cases snapshot.balances.items.findSome? t.balanceSanity with
  | some reason =>
    exact .inr ⟨by simp [DriftDecision.insane, DriftDecision.mismatchOf], reason, rfl⟩
  | none =>
  cases snapshot.positions.items.findSome? t.positionSanity with
  | some reason =>
    exact .inr ⟨by simp [DriftDecision.insane, DriftDecision.mismatchOf], reason, rfl⟩
  | none =>
  cases snapshot.fills.items.findSome? t.fillSanity with
  | some reason =>
    exact .inr ⟨by simp [DriftDecision.insane, DriftDecision.mismatchOf], reason, rfl⟩
  | none => exact .inl ⟨rfl, rfl⟩

/-! ## A visit -/

namespace VenueSlot

/-- A visit comes to a snapshot of the venue. -/
def Fetches (slot : VenueSlot) (reconnectPhase : Bool) (answers : VenueAnswers) : Prop :=
  ((reconnectPhase && slot.reconnectRequired) = true → answers.reconcile = .ok) ∧
    answers.fetch.1 = .ok

/-- The venue is the same, and stays quarantined. -/
structure Follows (slot slot' : VenueSlot) : Prop where
  exchange : slot'.state.exchange = slot.state.exchange
  hasFetcher : slot'.hasFetcher = slot.hasFetcher
  canonicalSnapshot : slot'.canonicalSnapshot = slot.canonicalSnapshot
  quarantined : slot.state.quarantined = true → slot'.state.quarantined = true

theorem Follows.refl (slot : VenueSlot) : slot.Follows slot := ⟨rfl, rfl, rfl, id⟩

/-- The snapshot of the venue is sane. -/
def LatestSane (t : DriftThresholds) (slot : VenueSlot) : Prop :=
  ∀ snapshot, slot.latestSnapshot = some snapshot → t.Sane snapshot

/-- **A venue of a live run** is compared with nothing, and its snapshot is sane as long as it is
not quarantined. -/
structure Live (t : DriftThresholds) (slot : VenueSlot) : Prop where
  hasFetcher : slot.hasFetcher = false
  canonicalSnapshot : slot.canonicalSnapshot = none
  sane : slot.state.quarantined = false → slot.LatestSane t

end VenueSlot

namespace ServiceConfig

variable {config : ServiceConfig} {slot : VenueSlot} {log : ServiceLog} {calls : List CycleCall}
  {i : ℕ} {answers : VenueAnswers} {reconnectPhase : Bool}

/-- A decision is applied to the state of the venue. -/
theorem applyDecision_follows (decision : DriftDecision) (now : ℤ) (res : ConnectorResult) :
    let v := config.applyDecision slot log calls decision reconnectPhase now res
    slot.Follows v.slot ∧ v.slot.latestSnapshot = slot.latestSnapshot ∧ v.returned = some res ∧
      (decision.quarantine = true → v.slot.state.quarantined = true) := by
  have hcounted : (config.policy.countRetries slot.state decision).1.exchange =
    slot.state.exchange ∧
      (config.policy.countRetries slot.state decision).1.quarantined = slot.state.quarantined ∧
      (decision.quarantine = true →
        (config.policy.countRetries slot.state decision).2.quarantine = true) := by
    unfold RemediationPolicy.countRetries
    split
    · dsimp only
      split_ifs <;> exact ⟨rfl, rfl, fun h => by first | rfl | exact h⟩
    · dsimp only
      refine ⟨rfl, rfl, fun h => ?_⟩
      split_ifs
      · rfl
      · exact h
    · dsimp only
      refine ⟨rfl, rfl, fun h => ?_⟩
      split_ifs
      · rfl
      · exact h
    · exact ⟨rfl, rfl, id⟩
    · exact ⟨rfl, rfl, id⟩
    · exact ⟨rfl, rfl, id⟩
  obtain ⟨hexchange, hstays, hquarantine⟩ := hcounted
  refine ⟨⟨?_, rfl, rfl, fun h => ?_⟩, rfl, rfl, fun h => ?_⟩
  · simp only [applyDecision]
    split_ifs <;> exact hexchange
  · simp only [applyDecision]
    split_ifs
    · rfl
    · exact hstays.trans h
  · simp only [applyDecision, hquarantine h, Bool.true_or, if_true]

/-- **A visit in a live run**: the venue has the snapshot that was fetched, is quarantined for one
that is not sane, and the cycle goes on when the snapshot is sane. -/
structure Visits (t : DriftThresholds) (slot : VenueSlot) (reconnectPhase : Bool)
    (answers : VenueAnswers) (v : Visit) : Prop where
  follows : slot.Follows v.slot
  latest : v.slot.LatestSane t ↔ (slot.Fetches reconnectPhase answers → t.Sane answers.fetch.2)
  quarantined : ¬ v.slot.LatestSane t → v.slot.state.quarantined = true
  returned : v.returned = none ↔ slot.Fetches reconnectPhase answers ∧ t.Sane answers.fetch.2 ∧
    answers.memory.mismatch = false

variable {t : DriftThresholds}

/-- A local reconcile or a fetch that fails leaves the snapshot alone. -/
theorem failVisit_visits (hlive : slot.Live config.thresholds)
    (hactive : slot.state.quarantined = false) (slot' : VenueSlot) (hfollows : slot.Follows slot')
    (hlatest : slot'.latestSnapshot = slot.latestSnapshot)
    (hfetch : ¬ slot.Fetches reconnectPhase answers) (res : ConnectorResult) (reason : String) :
    Visits config.thresholds slot reconnectPhase answers
      (config.failVisit slot' log calls answers reconnectPhase res reason) := by
  have hsane := hlive.sane hactive
  obtain ⟨retries, hclassified⟩ : ∃ retries : UInt32,
      (config.policy.classifySnapshotFailure answers.memory slot'.state res reason).1 =
        { slot'.state with snapshotFailureRetries := retries } :=
    ⟨_, rfl⟩
  unfold failVisit
  simp only [hclassified]
  obtain ⟨happlied, hsnapshot, hreturned, -⟩ :=
    @applyDecision_follows config
      { slot' with
        state := { slot'.state with snapshotFailureRetries := retries } }
      log calls reconnectPhase
      (config.policy.classifySnapshotFailure answers.memory slot'.state res reason).2
      answers.nowNs res
  have hafter : ∀ v : Visit, v.slot.latestSnapshot = slot'.latestSnapshot →
      v.slot.LatestSane config.thresholds := by
    intro v hv snapshot hsome
    exact hsane snapshot (hlatest ▸ hv ▸ hsome)
  refine ⟨⟨?_, ?_, ?_, ?_⟩, iff_of_true (hafter _ hsnapshot) fun h => absurd h hfetch,
    fun h => absurd (hafter _ hsnapshot) h, iff_of_false ?_ fun h => hfetch h.1⟩
  · exact happlied.exchange.trans hfollows.exchange
  · exact happlied.hasFetcher.trans hfollows.hasFetcher
  · exact happlied.canonicalSnapshot.trans hfollows.canonicalSnapshot
  · intro h
    exact happlied.quarantined (hfollows.quarantined h)
  · rw [hreturned]
    exact Option.some_ne_none _

/-- A snapshot that is fetched is kept, whatever the check says. -/
theorem checkVisit_visits (hlive : slot.Live config.thresholds) {slot' : VenueSlot}
    (hfollows : slot.Follows slot') (hfetch : slot.Fetches reconnectPhase answers) :
    Visits config.thresholds slot reconnectPhase answers
      (config.checkVisit slot' log calls i answers reconnectPhase) := by
  have hfetcher : slot'.hasFetcher = false := hfollows.hasFetcher.trans hlive.hasFetcher
  have hcanonical : slot'.canonicalSnapshot = none :=
    hfollows.canonicalSnapshot.trans hlive.canonicalSnapshot
  let fetched : VenueSlot := { slot' with
    latestSnapshot := some answers.fetch.2
    state := { slot'.state with snapshotFailureRetries := 0 } }
  have hlatest : ∀ v : Visit, v.slot.latestSnapshot = some answers.fetch.2 →
      (v.slot.LatestSane config.thresholds ↔ config.thresholds.Sane answers.fetch.2) := by
    intro v hv
    constructor
    · exact fun h => h _ hv
    · intro h snapshot hsome
      rw [hv] at hsome
      exact Option.some.inj hsome ▸ h
  have hchecked : config.checkVisit slot' log calls i answers reconnectPhase =
      if (config.thresholds.evaluateSnapshotSanity answers.memory answers.fetch.2).mismatch then
        config.applyDecision fetched log (calls ++ [.check i])
          (config.thresholds.evaluateSnapshotSanity answers.memory answers.fetch.2) reconnectPhase
          answers.nowNs .errorUnknown
      else passVisit fetched log (calls ++ [.check i]) answers reconnectPhase := by
    simp only [checkVisit, hfetcher, Bool.false_and, Bool.false_eq_true, if_false, hcanonical,
      DriftThresholds.evaluate, fetched]
  have happlied : ∀ decision : DriftDecision,
      (¬ config.thresholds.Sane answers.fetch.2 → decision.quarantine = true) →
      ¬ (config.thresholds.Sane answers.fetch.2 ∧ answers.memory.mismatch = false) →
      Visits config.thresholds slot reconnectPhase answers
        (config.applyDecision fetched log (calls ++ [.check i]) decision reconnectPhase
          answers.nowNs .errorUnknown) := by
    intro decision hquarantine hnot
    obtain ⟨happlied, hsnapshot, hreturned, hq⟩ :=
      @applyDecision_follows config fetched log (calls ++ [.check i]) reconnectPhase decision
        answers.nowNs .errorUnknown
    have hiff := hlatest _ hsnapshot
    refine ⟨⟨happlied.exchange.trans hfollows.exchange,
      happlied.hasFetcher.trans hfollows.hasFetcher,
      happlied.canonicalSnapshot.trans hfollows.canonicalSnapshot,
      fun h => happlied.quarantined (hfollows.quarantined h)⟩, ?_, fun h => hq (hquarantine ?_),
      iff_of_false ?_ fun h => hnot h.2⟩
    · rw [hiff]
      exact ⟨fun h _ => h, fun h => h hfetch⟩
    · exact mt hiff.mpr h
    · rw [hreturned]
      exact Option.some_ne_none _
  rw [hchecked]
  rcases config.thresholds.sanity_of_memory answers.memory answers.fetch.2 with
    ⟨hsane, hsame⟩ | ⟨hinsane, reason, hreason⟩
  · rw [hsame]
    cases hmemory : answers.memory.mismatch with
    | true =>
      rw [if_pos rfl]
      exact happlied _ (fun h => absurd hsane h) fun h => by
        rw [hmemory] at h
        cases h.2
    | false =>
      rw [if_neg Bool.false_ne_true]
      have hiff := hlatest (passVisit fetched log (calls ++ [.check i]) answers reconnectPhase) rfl
      refine ⟨⟨?_, hfollows.hasFetcher, hfollows.canonicalSnapshot, fun h => ?_⟩, ?_,
        fun h => absurd (hiff.mpr hsane) h, iff_of_true rfl ⟨hfetch, hsane, hmemory⟩⟩
      · unfold passVisit
        cases reconnectPhase <;> exact hfollows.exchange
      · unfold passVisit
        cases reconnectPhase <;> exact hfollows.quarantined h
      · exact iff_of_true (hiff.mpr hsane) fun _ => hsane
  · have hmismatch : (answers.memory.insane reason).mismatch = true := rfl
    rw [hreason, if_pos hmismatch]
    exact happlied _ (fun _ => rfl) fun h => hinsane h.1

/-- **One visit** of a venue that is not quarantined. -/
theorem visit_visits (hlive : slot.Live config.thresholds)
    (hactive : slot.state.quarantined = false) :
    Visits config.thresholds slot reconnectPhase answers
      (config.visit slot log i answers reconnectPhase) := by
  have hfetched : ∀ (slot' : VenueSlot) (calls : List CycleCall), slot.Follows slot' →
      slot'.latestSnapshot = slot.latestSnapshot →
      ((reconnectPhase && slot.reconnectRequired) = true → answers.reconcile = .ok) →
      Visits config.thresholds slot reconnectPhase answers
        (config.fetchVisit slot' log calls i answers reconnectPhase) := by
    intro slot' calls hfollows hlatest hreconcile
    unfold fetchVisit
    by_cases hok : answers.fetch.1 = .ok
    · rw [if_neg (by simp [hok])]
      exact checkVisit_visits hlive hfollows ⟨hreconcile, hok⟩
    · rw [if_pos hok]
      exact failVisit_visits hlive hactive slot' hfollows hlatest (fun h => hok h.2) _ _
  unfold visit
  cases hdue : reconnectPhase && slot.reconnectRequired with
  | false =>
    exact hfetched slot [] (.refl slot) rfl fun h => by
      rw [hdue] at h
      cases h
  | true =>
    simp only [if_true]
    by_cases hreconcile : answers.reconcile = .ok
    · rw [if_neg (by simp [hreconcile])]
      exact hfetched { slot with reconnectRequired := false } _ ⟨rfl, rfl, rfl, id⟩ rfl
        fun _ => hreconcile
    · rw [if_pos hreconcile]
      exact failVisit_visits hlive hactive { slot with reconnectRequired := false }
        ⟨rfl, rfl, rfl, id⟩ rfl (fun h => hreconcile (h.1 hdue)) _ _

/-! ## A cycle -/

/-- Every snapshot that a cycle fetches from slot `i` on is sane. The cycle ends with a venue whose
snapshot it does not get, and goes on when nothing is left in the memory of a decision. -/
def SaneCycle (t : DriftThresholds) (reconnectPhase : Bool) (answers : ℕ → VenueAnswers) :
    ℕ → List VenueSlot → Prop
  | _, [] => True
  | i, slot :: slots =>
    if slot.state.quarantined then SaneCycle t reconnectPhase answers (i + 1) slots
    else
      slot.Fetches reconnectPhase (answers i) →
        t.Sane (answers i).fetch.2 ∧
          ((answers i).memory.mismatch = false →
            SaneCycle t reconnectPhase answers (i + 1) slots)

theorem Visits.live {v : Visit} (h : Visits t slot reconnectPhase answers v)
    (hlive : slot.Live t) : v.slot.Live t where
  hasFetcher := h.follows.hasFetcher.trans hlive.hasFetcher
  canonicalSnapshot := h.follows.canonicalSnapshot.trans hlive.canonicalSnapshot
  sane hactive := by
    by_contra hinsane
    rw [h.quarantined hinsane] at hactive
    cases hactive

/-- **A cycle** keeps the venues, and leaves them with sane snapshots exactly when they had sane
snapshots and it has fetched none that is not. -/
theorem cycleFrom_live {answers : ℕ → VenueAnswers} {slots : List VenueSlot}
    (hlive : ∀ slot ∈ slots, slot.Live config.thresholds) :
    let after := (config.cycleFrom reconnectPhase answers i slots log).slots
    List.Forall₂ VenueSlot.Follows slots after ∧
      (∀ slot ∈ after, slot.Live config.thresholds) ∧
      ((∀ slot ∈ after, slot.LatestSane config.thresholds) ↔
        (∀ slot ∈ slots, slot.LatestSane config.thresholds) ∧
          SaneCycle config.thresholds reconnectPhase answers i slots) := by
  induction slots generalizing i log with
  | nil => exact ⟨.nil, hlive, by simp [cycleFrom, SaneCycle]⟩
  | cons slot slots ih =>
    obtain ⟨hslot, hslots⟩ := List.forall_mem_cons.mp hlive
    cases hquarantined : slot.state.quarantined with
    | true =>
      obtain ⟨hfollows, hafter, hiff⟩ := @ih log (i + 1) hslots
      simp only [cycleFrom, SaneCycle, hquarantined, if_true, List.forall_mem_cons]
      refine ⟨.cons (.refl slot) hfollows, ⟨hslot, hafter⟩, ?_⟩
      rw [hiff, and_assoc]
    | false =>
      have hvisit := @visit_visits config slot log i (answers i) reconnectPhase hslot hquarantined
      have hsane := hslot.sane hquarantined
      simp only [cycleFrom, SaneCycle, hquarantined, Bool.false_eq_true, if_false]
      cases hreturned : (config.visit slot log i (answers i) reconnectPhase).returned with
      | some result =>
        -- the cycle ends here, so nothing is asked of the rest
        have hended : ¬ (slot.Fetches reconnectPhase (answers i) ∧
            config.thresholds.Sane (answers i).fetch.2 ∧
            (answers i).memory.mismatch = false) := by
          rw [← hvisit.returned, hreturned]
          exact Option.some_ne_none _
        simp only [List.forall_mem_cons]
        refine ⟨.cons hvisit.follows (List.forall₂_same.mpr fun slot _ => .refl slot),
          ⟨hvisit.live hslot, hslots⟩, ?_⟩
        rw [hvisit.latest]
        tauto
      | none =>
        obtain ⟨hfollows, hafter, hiff⟩ :=
          @ih (config.visit slot log i (answers i) reconnectPhase).log (i + 1) hslots
        obtain ⟨hfetches, hfetched, hmemory⟩ := hvisit.returned.mp hreturned
        simp only [List.forall_mem_cons]
        refine ⟨.cons hvisit.follows hfollows, ⟨hvisit.live hslot, hafter⟩, ?_⟩
        rw [hvisit.latest, hiff]
        tauto

end ServiceConfig

/-! ## The service -/

namespace ReconciliationService

variable {s s' : ReconciliationService} {t : DriftThresholds} {exchange : Exchange}

/-- The slot of an exchange. -/
def slotFor (s : ReconciliationService) (exchange : Exchange) : Option VenueSlot :=
  s.slots.find? fun slot => slot.state.exchange == exchange

theorem bind_indexFor : (s.indexFor exchange).bind (s.slots[·]?) = s.slotFor exchange :=
  List.find?_eq_bind_findIdx?_getElem?.symm

theorem isQuarantined_iff : s.isQuarantined exchange = true ↔
    ∃ slot, s.slotFor exchange = some slot ∧ slot.state.quarantined = true := by
  unfold isQuarantined
  rw [bind_indexFor]
  cases s.slotFor exchange with
  | none => simp
  | some slot => simp

theorem latestSnapshotFor_eq :
    s.latestSnapshotFor exchange = (s.slotFor exchange).bind VenueSlot.latestSnapshot := by
  rw [← bind_indexFor, Option.bind_assoc]
  rfl

/-- **A service of a live run**: every exchange has one slot, and no canonical snapshot. -/
structure Live (t : DriftThresholds) (s : ReconciliationService) : Prop where
  thresholds : s.config.thresholds = t
  distinct : (s.slots.map fun slot => slot.state.exchange).Nodup
  slots : ∀ slot ∈ s.slots, slot.Live t

/-- The snapshots of the quarantined venues are sane. -/
def SoundSnapshots (t : DriftThresholds) (s : ReconciliationService) : Prop :=
  ∀ exchange snapshot, s.isQuarantined exchange = true →
    s.latestSnapshotFor exchange = some snapshot → t.Sane snapshot

theorem slotFor_of_mem (hdistinct : (s.slots.map fun slot => slot.state.exchange).Nodup)
    {slot : VenueSlot} (hslot : slot ∈ s.slots) : s.slotFor slot.state.exchange = some slot := by
  unfold slotFor
  generalize s.slots = slots at hdistinct hslot
  induction slots with
  | nil => cases hslot
  | cons first slots ih =>
    rw [List.map_cons, List.nodup_cons] at hdistinct
    rcases List.mem_cons.mp hslot with rfl | hmem
    · simp only [List.find?_cons, beq_self_eq_true]
    · have hne : first.state.exchange ≠ slot.state.exchange := fun heq =>
        hdistinct.1 (heq ▸ List.mem_map_of_mem hmem)
      simp only [List.find?_cons, beq_eq_false_iff_ne.mpr hne]
      exact ih hdistinct.2 hmem

/-- In a live run that is so exactly when all snapshots are sane. -/
theorem Live.soundSnapshots_iff (h : s.Live t) :
    s.SoundSnapshots t ↔ ∀ slot ∈ s.slots, slot.LatestSane t := by
  constructor
  · intro hsound slot hslot
    have hfor := slotFor_of_mem h.distinct hslot
    cases hquarantined : slot.state.quarantined with
    | false => exact (h.slots slot hslot).sane hquarantined
    | true =>
      intro snapshot hsnapshot
      refine hsound slot.state.exchange snapshot (isQuarantined_iff.mpr ⟨slot, hfor, hquarantined⟩)
        ?_
      rw [latestSnapshotFor_eq, hfor]
      exact hsnapshot
  · intro hsane exchange snapshot hquarantined hsnapshot
    obtain ⟨slot, hfor, -⟩ := isQuarantined_iff.mp hquarantined
    rw [latestSnapshotFor_eq, hfor] at hsnapshot
    exact hsane slot (List.mem_of_find?_eq_some hfor) snapshot hsnapshot

theorem find?_follows {slots slots' : List VenueSlot} {slot : VenueSlot}
    (h : List.Forall₂ VenueSlot.Follows slots slots')
    (hfind : (slots.find? fun slot => slot.state.exchange == exchange) = some slot) :
    ∃ slot', (slots'.find? fun slot => slot.state.exchange == exchange) = some slot' ∧
      slot.Follows slot' := by
  induction h with
  | nil => cases hfind
  | @cons first first' slots slots' hfirst _ ih =>
    simp only [List.find?_cons, hfirst.exchange] at hfind ⊢
    cases hthis : first.state.exchange == exchange with
    | true =>
      rw [hthis] at hfind
      obtain rfl := Option.some.inj hfind
      exact ⟨first', rfl, hfirst⟩
    | false =>
      rw [hthis] at hfind
      exact ih hfind

/-- **A quarantined venue stays quarantined.** -/
theorem isQuarantined_follows (h : List.Forall₂ VenueSlot.Follows s.slots s'.slots)
    (hquarantined : s.isQuarantined exchange = true) : s'.isQuarantined exchange = true := by
  obtain ⟨slot, hfor, hslot⟩ := isQuarantined_iff.mp hquarantined
  obtain ⟨slot', hfor', hfollows⟩ := find?_follows h hfor
  exact isQuarantined_iff.mpr ⟨slot', hfor', hfollows.quarantined hslot⟩

/-- **What becomes of a service of a live run**, whose snapshots stay sane exactly when `P`
holds. -/
structure Becomes (t : DriftThresholds) (P : Prop) (s s' : ReconciliationService) : Prop where
  stays : ∀ exchange, s.isQuarantined exchange = true → s'.isQuarantined exchange = true
  live : s'.Live t
  sound : (∀ slot ∈ s'.slots, slot.LatestSane t) ↔ (∀ slot ∈ s.slots, slot.LatestSane t) ∧ P

theorem exchanges_follows {slots slots' : List VenueSlot}
    (hfollows : List.Forall₂ VenueSlot.Follows slots slots') :
    (slots'.map fun slot => slot.state.exchange) = slots.map fun slot => slot.state.exchange := by
  induction hfollows with
  | nil => rfl
  | cons hfirst _ ih => rw [List.map_cons, List.map_cons, hfirst.exchange, ih]

/-- A cycle. -/
theorem Live.runReconciliationCycle (h : s.Live t) (reconnectPhase : Bool)
    (answers : ℕ → VenueAnswers) :
    s.Becomes t (ServiceConfig.SaneCycle t reconnectPhase answers 0 s.slots)
      (s.runReconciliationCycle reconnectPhase answers).1 := by
  have hslots : ∀ slot ∈ s.slots, slot.Live s.config.thresholds := by
    rw [h.thresholds]
    exact h.slots
  obtain ⟨hfollows, hlive, hsound⟩ :=
    @ServiceConfig.cycleFrom_live s.config s.log 0 reconnectPhase answers s.slots hslots
  rw [h.thresholds] at hlive hsound
  have hdistinct := exchanges_follows hfollows ▸ h.distinct
  exact ⟨fun _ => isQuarantined_follows hfollows, ⟨h.thresholds, hdistinct, hlive⟩, hsound⟩

/-- A mark changes nothing of the venues but itself. -/
theorem Live.markReconnectRequired (h : s.Live t) (exchange : Exchange) :
    s.Becomes t True (s.markReconnectRequired exchange).1 := by
  unfold ReconciliationService.markReconnectRequired modifySlot
  cases s.indexFor exchange with
  | none => exact ⟨fun _ => id, h, (and_iff_left trivial).symm⟩
  | some i =>
    have hmodified : ∀ (slots : List VenueSlot) (i : ℕ),
        List.Forall₂ VenueSlot.Follows slots
            (slots.modify i fun slot => { slot with reconnectRequired := true }) ∧
          ((∀ slot ∈ slots, slot.Live t) →
            ∀ slot ∈ slots.modify i fun slot => { slot with reconnectRequired := true },
              slot.Live t) ∧
          ((∀ slot ∈ slots.modify i fun slot => { slot with reconnectRequired := true },
            slot.LatestSane t) ↔ ∀ slot ∈ slots, slot.LatestSane t) := by
      intro slots
      induction slots with
      | nil => exact fun i => by rw [List.modify_nil]; exact ⟨.nil, id, Iff.rfl⟩
      | cons slot slots ih =>
        intro i
        cases i with
        | zero =>
          simp only [List.modify_zero_cons, List.forall_mem_cons]
          refine ⟨.cons ⟨rfl, rfl, rfl, id⟩ (List.forall₂_same.mpr fun slot _ => .refl slot), ?_,
            Iff.rfl⟩
          exact fun hl => ⟨⟨hl.1.hasFetcher, hl.1.canonicalSnapshot, hl.1.sane⟩, hl.2⟩
        | succ i =>
          obtain ⟨hfollows, hlive, hsane⟩ := ih i
          simp only [List.modify_succ_cons, List.forall_mem_cons]
          exact ⟨.cons (.refl slot) hfollows, fun hl => ⟨hl.1, hlive hl.2⟩,
            and_congr_right fun _ => hsane⟩
    obtain ⟨hfollows, hlive, hsane⟩ := hmodified s.slots i
    have hdistinct := exchanges_follows hfollows ▸ h.distinct
    exact ⟨fun _ => isQuarantined_follows hfollows, ⟨h.thresholds, hdistinct, hlive h.slots⟩,
      hsane.trans (and_iff_left trivial).symm⟩

theorem Becomes.trans {P Q : Prop} {s'' : ReconciliationService} (h : s.Becomes t P s')
    (h' : s'.Becomes t Q s'') : s.Becomes t (P ∧ Q) s'' where
  stays exchange hq := h'.stays exchange (h.stays exchange hq)
  live := h'.live
  sound := by rw [h'.sound, h.sound, and_assoc]

/-- Several marks. -/
theorem Live.marks (h : s.Live t) (exchanges : List Exchange) :
    s.Becomes t True
      (exchanges.foldl (fun s exchange => (s.markReconnectRequired exchange).1) s) := by
  induction exchanges generalizing s with
  | nil => exact ⟨fun _ => id, h, (and_iff_left trivial).symm⟩
  | cons exchange exchanges ih =>
    have hfirst := h.markReconnectRequired exchange
    have hall := hfirst.trans (ih hfirst.live)
    exact ⟨hall.stays, hall.live, hall.sound.trans (by rw [and_true])⟩

end ReconciliationService

/-! ## A live run -/

namespace LiveEngine

open ReconciliationService

/-- The service with the marks of the venues that are connected again. -/
def marked (s : ReconciliationService) (exchanges : List Exchange) : ReconciliationService :=
  exchanges.foldl (fun s exchange => (s.markReconnectRequired exchange).1) s

/-- Every snapshot is sane that the cycle fetches which a reconnect runs. -/
def SaneReconnect (t : DriftThresholds) (s : ReconciliationService) (exchanges : List Exchange)
    (answers : ℕ → VenueAnswers) : Prop :=
  exchanges ≠ [] → ServiceConfig.SaneCycle t true answers 0 (marked s exchanges).slots

variable {t : DriftThresholds} {s : ReconciliationService}

theorem becomes_reconnected (h : s.Live t) (exchanges : List Exchange)
    (answers : ℕ → VenueAnswers) :
    s.Becomes t (SaneReconnect t s exchanges answers) (reconnected s exchanges answers) := by
  have hmarked := h.marks exchanges
  unfold reconnected SaneReconnect
  by_cases hnone : exchanges = []
  · rw [if_pos hnone]
    exact ⟨hmarked.stays, hmarked.live, hmarked.sound.trans (by simp [hnone])⟩
  · rw [if_neg hnone]
    have hall := hmarked.trans (hmarked.live.runReconciliationCycle true answers)
    exact ⟨hall.stays, hall.live, hall.sound.trans (by simp [hnone, marked])⟩

variable (o : EngineOptions)

/-- A child order is submitted to a venue. -/
def SubmitsTo (call : DecisionCall) (e : SubmitEngine) (child : ChildOrder × ChildEnvironment)
    (exchange : Exchange) : Prop :=
  e.stopped = false ∧ ∃ order result,
    (e.processChild o call child.1 child.2).2 = .submitted order result ∧ order.exchange = exchange

/-- **Quarantine stops trading**: no decision submits an order to a venue that was quarantined
before it, and the snapshots of the quarantined venues have passed the check. -/
structure StopsTrading (t : DriftThresholds) (e : LiveEngine) (steps : List LiveStep) : Prop where
  orders : ∀ before call after, steps = before ++ .decide call :: after →
    (before.foldl (step o) e).stopped = false →
    ∀ earlier, earlier <+: before → ∀ exchange,
      (earlier.foldl (step o) e).reconciliation.isQuarantined exchange = true →
      AllSteps (SubmitEngine.submitChild o
          { call with accounting := (before.foldl (step o) e).accounting })
        (fun submit child => ¬ SubmitsTo o
          { call with accounting := (before.foldl (step o) e).accounting } submit child exchange)
        (before.foldl (step o) e).submit.start call.children
  snapshots : ∀ before, before <+: steps →
    (before.foldl (step o) e).reconciliation.SoundSnapshots t

/-- The venue of a child order. -/
def venueOf (child : ChildOrder) : Exchange :=
  if o.futuresOnlyMode then .binance else child.exchange

/-- The checks of the orders hold back what is for a quarantined venue: it is not committed, or
finds the drawdown at its limit. -/
def HoldsBack (e : LiveEngine) (s : LiveStep) : Prop :=
  e.stopped = false → ∀ call, s = .decide call →
    AllSteps (SubmitEngine.submitChild o { call with accounting := e.accounting })
      (fun submit child => submit.stopped = false →
        e.reconciliation.isQuarantined (venueOf o child.1) = true →
        submit.Commits o { call with accounting := e.accounting } child.1 child.2 →
        submit.Breached { call with accounting := e.accounting })
      e.submit.start call.children

/-- Every snapshot is sane that the step fetches. -/
def FetchesSane (t : DriftThresholds) (e : LiveEngine) (s : LiveStep) : Prop :=
  e.stopped = false →
    match s with
    | .trigger _ | .decide _ => True
    | .reconnect exchanges answers => SaneReconnect t e.reconciliation exchanges answers
    | .reconcile answers _ _ => ServiceConfig.SaneCycle t false answers 0 e.reconciliation.slots

variable {o} {e : LiveEngine}

/-- An order goes to the venue of its child order, if it is committed within the drawdown limit. -/
theorem submitsTo_iff {call : DecisionCall} {submit : SubmitEngine}
    {child : ChildOrder × ChildEnvironment} {exchange : Exchange}
    (h : GlobalRiskControls.Sound {o.orderSymbol} submit.risk) :
    SubmitsTo o call submit child exchange ↔ submit.stopped = false ∧
      submit.Commits o call child.1 child.2 ∧ ¬ submit.Breached call ∧
      venueOf o child.1 = exchange := by
  have hvenue : (o.orderOf call child.1 child.2 submit.nextId).exchange = venueOf o child.1 := by
    unfold EngineOptions.orderOf venueOf
    simp only
    split_ifs <;> rfl
  refine and_congr_right fun _ => ?_
  obtain ⟨-, hcases⟩ := @SubmitEngine.processChild_cases o call submit child.1 child.2 h
  rcases hcases with ⟨hnot, houtcome, -⟩ | ⟨hcommits, -, -, ⟨hpnl, houtcome⟩ | ⟨hpnl, houtcome⟩⟩
  · refine iff_of_false ?_ fun hc => hnot hc.1
    rintro ⟨order, result, hsubmitted, -⟩
    exact houtcome order result hsubmitted
  · refine iff_of_false ?_ fun hc => hc.2.1 hpnl
    rintro ⟨order, result, hsubmitted, -⟩
    rw [houtcome] at hsubmitted
    cases hsubmitted
  · rw [houtcome]
    constructor
    · rintro ⟨order, result, hsubmitted, hexchange⟩
      obtain ⟨rfl, -⟩ := ChildOutcome.submitted.inj hsubmitted
      exact ⟨hcommits, not_le.mpr hpnl, hvenue.symm.trans hexchange⟩
    · rintro ⟨-, -, hexchange⟩
      exact ⟨_, _, rfl, hvenue.trans hexchange⟩

/-- What holds of every state of a live run. -/
structure Sound (o : EngineOptions) (t : DriftThresholds) (e : LiveEngine) : Prop where
  submit : e.submit.Consistent o
  reconciliation : e.reconciliation.Live t

/-- **A step** fetches what is sane, or leaves a quarantined venue with a snapshot that is not. -/
theorem Sound.step_becomes (h : e.Sound o t) (s : LiveStep) :
    e.reconciliation.Becomes t (FetchesSane t e s) (e.step o s).reconciliation := by
  have hsame : FetchesSane t e s →
    e.reconciliation.Becomes t (FetchesSane t e s) e.reconciliation :=
    fun hs => ⟨fun _ => id, h.reconciliation, (and_iff_left hs).symm⟩
  cases hstopped : e.stopped with
  | true =>
    have hstep : e.step o s = e := by
      unfold step
      rw [if_pos hstopped]
    rw [hstep]
    exact hsame fun hrunning => by
      rw [hstopped] at hrunning
      cases hrunning
  | false =>
    cases s with
    | trigger reason | decide call =>
      simp only [step, hstopped, Bool.false_eq_true, if_false]
      exact hsame fun _ => trivial
    | reconnect exchanges answers =>
      simp only [step, hstopped, Bool.false_eq_true, if_false]
      obtain ⟨hstays, hlive, hsound⟩ := becomes_reconnected h.reconciliation exchanges answers
      exact ⟨hstays, hlive, by simpa [FetchesSane, hstopped] using hsound⟩
    | reconcile answers markPrice now =>
      simp only [step, hstopped, Bool.false_eq_true, if_false]
      obtain ⟨hstays, hlive, hsound⟩ := h.reconciliation.runReconciliationCycle false answers
      exact ⟨hstays, hlive, by simpa [FetchesSane, hstopped] using hsound⟩

theorem Sound.step (h : e.Sound o t) (s : LiveStep) : (e.step o s).Sound o t :=
  ⟨consistent_step h.submit s, (h.step_becomes s).live⟩

theorem Sound.run (h : e.Sound o t) (steps : List LiveStep) :
    (steps.foldl (LiveEngine.step o) e).Sound o t :=
  foldl_induction (P := fun e : LiveEngine => e.Sound o t) (fun _ s he (_ : True) => he.step s) h
    fun _ _ => trivial

theorem Sound.isQuarantined_run (h : e.Sound o t) (steps : List LiveStep) {exchange : Exchange}
    (hquarantined : e.reconciliation.isQuarantined exchange = true) :
    (steps.foldl (LiveEngine.step o) e).reconciliation.isQuarantined exchange = true :=
  (foldl_induction
    (P := fun e : LiveEngine => e.Sound o t ∧ e.reconciliation.isQuarantined exchange = true)
    (fun _ s he (_ : True) => ⟨he.1.step s, (he.1.step_becomes s).stays exchange he.2⟩)
    ⟨h, hquarantined⟩ fun _ _ => trivial).2

/-- **A decision** spares the quarantined venues exactly when the checks hold its orders back. -/
theorem Sound.spares_iff (h : e.Sound o t) (hrunning : e.stopped = false) (call : DecisionCall) :
    (∀ exchange, e.reconciliation.isQuarantined exchange = true →
      AllSteps (SubmitEngine.submitChild o { call with accounting := e.accounting })
        (fun submit child => ¬ SubmitsTo o { call with accounting := e.accounting } submit child
          exchange) e.submit.start call.children) ↔ HoldsBack o e (.decide call) := by
  have hsound : ∀ children : List (ChildOrder × ChildEnvironment),
      GlobalRiskControls.Sound {o.orderSymbol}
        (children.foldl (SubmitEngine.submitChild o { call with accounting := e.accounting })
          e.submit.start).risk :=
    fun children => foldl_induction
      (P := fun submit : SubmitEngine => GlobalRiskControls.Sound {o.orderSymbol} submit.risk)
      (fun _ c hs (_ : True) => SubmitEngine.sound_submitChild hs c) h.submit.risk
      fun _ _ => trivial
  simp only [HoldsBack, LiveStep.decide.injEq, forall_eq', hrunning, forall_const,
    allSteps_iff_forall_split]
  constructor
  · intro hspares before child after hsplit hgoing hquarantined hcommits
    by_contra hwithin
    exact hspares _ hquarantined before child after hsplit
      ((submitsTo_iff (hsound before)).mpr ⟨hgoing, hcommits, hwithin, rfl⟩)
  · rintro hholds exchange hquarantined before child after hsplit hsubmits
    obtain ⟨hgoing, hcommits, hwithin, rfl⟩ := (submitsTo_iff (hsound before)).mp hsubmits
    exact hwithin (hholds before child after hsplit hgoing hquarantined hcommits)

/-- **When quarantine stops trading.** From every state of a live run, for every interleaving of
decisions, reconnects and reconciliations. -/
theorem Sound.stops_trading_run (h : e.Sound o t) (steps : List LiveStep) :
    StopsTrading o t e steps ↔ e.reconciliation.SoundSnapshots t ∧
      AllSteps (LiveEngine.step o) (fun e s => HoldsBack o e s ∧ FetchesSane t e s) e steps := by
  have hsnapshots : (∀ before, before <+: steps →
      (before.foldl (LiveEngine.step o) e).reconciliation.SoundSnapshots t) ↔
      e.reconciliation.SoundSnapshots t ∧ AllSteps (LiveEngine.step o) (FetchesSane t) e steps := by
    refine forall_prefix_iff_allSteps
      (P := fun e : LiveEngine => e.reconciliation.SoundSnapshots t)
      (fun e s (he : e.Sound o t) (_ : True) => he.step s) (fun e s he _ hsound => ?_) h
      fun _ _ => trivial
    have hbecomes := he.step_becomes s
    rw [hbecomes.live.soundSnapshots_iff, hbecomes.sound, ← he.reconciliation.soundSnapshots_iff]
    exact and_iff_right hsound
  have horders : (∀ before call after, steps = before ++ .decide call :: after →
      (before.foldl (LiveEngine.step o) e).stopped = false →
      HoldsBack o (before.foldl (LiveEngine.step o) e) (.decide call)) ↔
      AllSteps (LiveEngine.step o) (HoldsBack o) e steps := by
    rw [allSteps_iff_forall_split]
    constructor
    · rintro hall before s after hsplit hrunning call rfl
      exact hall before call after hsplit hrunning hrunning call rfl
    · intro hall before call after hsplit _
      exact hall before _ after hsplit
  constructor
  · intro hstops
    obtain ⟨hstart, hfetches⟩ := hsnapshots.mp hstops.snapshots
    refine ⟨hstart, (horders.mp fun before call after hsplit hrunning => ?_).and hfetches⟩
    exact ((h.run before).spares_iff hrunning call).mp
      (hstops.orders before call after hsplit hrunning before List.prefix_rfl)
  · rintro ⟨hstart, hall⟩
    obtain ⟨hholds, hfetches⟩ := allSteps_and.mp hall
    refine ⟨fun before call after hsplit hrunning earlier hearlier exchange hquarantined => ?_,
      hsnapshots.mpr ⟨hstart, hfetches⟩⟩
    -- what was quarantined earlier still is
    obtain ⟨between, rfl⟩ := hearlier
    have hnow := (h.run earlier).isQuarantined_run between hquarantined
    rw [← List.foldl_append] at hnow
    refine ((h.run (earlier ++ between)).spares_iff hrunning call).mpr ?_ exchange hnow
    exact horders.mpr hholds _ call after hsplit hrunning

/-- The service, as its connectors are registered. -/
theorem live_registered (o : EngineOptions) (config : ServiceConfig) (log : ServiceLog) :
    (registered o config log).Live config.thresholds ∧
      ∀ slot ∈ (registered o config log).slots, slot.latestSnapshot = none := by
  have hslots : (registered o config log).config = config ∧
      (registered o config log).slots.map (fun slot => slot.state.exchange) = o.reconciled ∧
      ∀ slot ∈ (registered o config log).slots,
        slot.hasFetcher = false ∧ slot.canonicalSnapshot = none ∧ slot.latestSnapshot = none := by
    unfold registered EngineOptions.reconciled
    cases o.runBinance <;> cases o.runKraken <;> cases o.runOkx <;> cases o.runCoinbase <;>
      simp [registerConnector, ofConfig, maxConnectors]
  obtain ⟨hconfig, hexchanges, hnone⟩ := hslots
  refine ⟨⟨by rw [hconfig], ?_, fun slot hslot => ?_⟩, fun slot hslot => (hnone slot hslot).2.2⟩
  · rw [hexchanges]
    unfold EngineOptions.reconciled
    cases o.runBinance <;> cases o.runKraken <;> cases o.runOkx <;> cases o.runCoinbase <;> decide
  · obtain ⟨hfetcher, hcanonical, hlatest⟩ := hnone slot hslot
    refine ⟨hfetcher, hcanonical, fun _ snapshot hsnapshot => ?_⟩
    rw [hlatest] at hsnapshot
    cases hsnapshot

/-- **Quarantine and trading.** In every live run, for every interleaving of decisions, reconnects
and reconciliations, no order goes to a venue that was quarantined before, and the snapshots of the
quarantined venues have passed the check, exactly when the other checks hold back every order for a
quarantined venue and every snapshot that is fetched is sane. -/
theorem stopsTrading_iff (o : EngineOptions) (setup : Setup) (exchanges : List Exchange)
    (answers : ℕ → VenueAnswers) (steps : List LiveStep) :
    StopsTrading o setup.service.thresholds (start o setup exchanges answers) steps ↔
      SaneReconnect setup.service.thresholds (registered o setup.service setup.log) exchanges
          answers ∧
        AllSteps (step o) (fun e s => HoldsBack o e s ∧ FetchesSane setup.service.thresholds e s)
          (start o setup exchanges answers) steps := by
  obtain ⟨hlive, hnone⟩ := live_registered o setup.service setup.log
  have hbecomes := becomes_reconnected hlive exchanges answers
  have hsound : (start o setup exchanges answers).Sound o setup.service.thresholds :=
    ⟨consistent_start o setup exchanges answers, hbecomes.live⟩
  rw [hsound.stops_trading_run]
  refine and_congr_left fun _ => ?_
  have hstart : (start o setup exchanges answers).reconciliation =
      reconnected (registered o setup.service setup.log) exchanges answers := rfl
  rw [hstart, hbecomes.live.soundSnapshots_iff, hbecomes.sound]
  refine and_iff_right fun slot hslot snapshot hsnapshot => ?_
  rw [hnone slot hslot] at hsnapshot
  cases hsnapshot

theorem step_of_stopped (h : e.stopped = true) (s : LiveStep) : e.step o s = e := by
  unfold step
  rw [if_pos h]

theorem turn_of_stopped (h : e.stopped = true) (t : LoopTurn) : e.turn o t = e := by
  unfold turn
  rw [if_pos h]

theorem foldl_of_unmoved {ι : Type} {f : LiveEngine → ι → LiveEngine} (h : ∀ x, f e x = e)
    (xs : List ι) : xs.foldl f e = e := by
  induction xs with
  | nil => rfl
  | cons x xs ih => rw [List.foldl_cons, h, ih]

/-- **The iterations of the loop take their steps** one after another, until it is left. -/
theorem turns_eq_steps {turns : List LoopTurn} (h : (turns.foldl (turn o) e).left = false) :
    turns.foldl (turn o) e = (turns.flatMap LoopTurn.steps).foldl (step o) e := by
  induction turns generalizing e with
  | nil => rfl
  | cons t turns ih =>
    rw [List.foldl_cons] at h ⊢
    have hturn : e.turn o t = t.steps.foldl (step o) e := by
      by_cases hstopped : e.stopped = true
      · rw [turn_of_stopped hstopped, foldl_of_unmoved (step_of_stopped hstopped)]
      · by_cases hactive : e.submit.risk.killSwitch.active = true
        · -- the kill switch would have ended the loop
          have hleft : (e.turn o t).left = true := by
            unfold turn
            rw [if_neg hstopped, if_pos hactive]
          rw [foldl_of_unmoved fun t' => turn_of_stopped (by simp [stopped, hleft]) t', hleft] at h
          cases h
        · unfold turn
          rw [if_neg hstopped, if_neg hactive]
    rw [ih h, hturn, List.flatMap_cons, List.foldl_append]

/-- A snapshot with an order of a negative quantity. -/
def negativeOrder : ReconciliationSnapshot :=
  { ReconciliationSnapshot.empty with openOrders := ⟨[{ quantity := -1 }], by decide⟩ }

/-- Binance answers with that snapshot. -/
def insaneAnswer : VenueAnswers :=
  { nothingLeft with fetch := (.ok, negativeOrder) }

/-- A bid for one at a hundred, which Binance would take. -/
def acceptedBid : DecisionCall :=
  { SubmitEngine.refusedBid with
    children := [(⟨.binance, 1, 100, .ioc⟩,
      { SubmitEngine.refusing with submit := fun _ _ => .ok })] }

/-- **A quarantined venue is traded on**: Binance is quarantined when the engine starts, for the
snapshot that stays its latest one, and the first decision submits an order to it. -/
theorem quarantined_is_traded :
    ¬ StopsTrading SubmitEngine.liveBinance tenThousand.service.thresholds
      (start SubmitEngine.liveBinance tenThousand [.binance] fun _ => insaneAnswer)
      [.decide acceptedBid] := by
  intro h
  have hspared := h.orders [] acceptedBid [] rfl (by decide +kernel) [] List.prefix_rfl .binance
    (by decide +kernel)
  refine hspared.1 ((submitsTo_iff ?_).mpr ⟨by decide +kernel, ?_, ?_, by decide +kernel⟩)
  · exact (consistent_start SubmitEngine.liveBinance tenThousand [.binance] fun _ =>
      insaneAnswer).risk
  · exact ⟨by decide +kernel, by decide +kernel, by decide +kernel, by decide +kernel,
      by decide +kernel⟩
  · unfold SubmitEngine.Breached
    decide +kernel

end LiveEngine

end TradingInfrastructure
