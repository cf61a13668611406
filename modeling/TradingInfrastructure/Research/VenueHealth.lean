import TradingInfrastructure.Foundations.Lockout
import TradingInfrastructure.Research.ShadowSession

/-!
# The health of the venues of the shadow session

`_fetch_tick`, `_rest_fallback_tick` and `_transition_venue_health` of
`research/neural_alpha/runtime/shadow_session.py`: each poll hands the ticks of the bridge to their
venues, and asks the REST fetcher of every venue without one.

What a venue is taken for depends on its last ten polls alone: it is healthy when one of them has
brought a tick, and degraded otherwise (`venue_health`). Its counters are counts of the polls, and
every transition that is counted is a change of the state, under the cause that goes with it
(`venue_transitions`).
-/

namespace TradingInfrastructure

/-- `health_state`. -/
inductive VenueHealth
  | starting | healthy | degraded
  deriving DecidableEq, Repr

/-- The keys of `health_transition_root_causes`. -/
inductive HealthRootCause
  | snapshotRejection | resnapshotLoop | bridgeGap | recovered
  deriving DecidableEq, Repr

/-- `last_source`. -/
inductive TickSource
  | none | bridge | bridgeUnavailable | bridgeResnapshot | restFallback
  deriving DecidableEq, Repr

/-- `VenueRuntimeStats`. -/
structure VenueRuntimeStats where
  ticksReceived : ℕ := 0
  ticksUsed : ℕ := 0
  missingVenueIncidents : ℕ := 0
  restFallbackUsage : ℕ := 0
  resnapshotCount : ℕ := 0
  startupConfirmed : Bool := false
  consecutiveMissingPolls : ℕ := 0
  lastSource : TickSource := .none
  healthState : VenueHealth := .starting
  healthTransitionCount : ℕ := 0
  healthTransitionRootCauses : HealthRootCause → ℕ := fun _ => 0

namespace VenueRuntimeStats

/-- `_transition_venue_health`. -/
def transition (stats : VenueRuntimeStats) (newState : VenueHealth) (rootCause : HealthRootCause) :
    VenueRuntimeStats :=
  if stats.healthState = newState then stats
  else
    { stats with
      healthState := newState
      healthTransitionCount := stats.healthTransitionCount + 1
      healthTransitionRootCauses := Function.update stats.healthTransitionRootCauses rootCause
        (stats.healthTransitionRootCauses rootCause + 1) }

/-- The loop of `_fetch_tick` at a venue to which the bridge has brought `n` ticks, up to the
fallback. -/
def poll (stats : VenueRuntimeStats) (n : ℕ) : VenueRuntimeStats :=
  if n ≠ 0 then
    { stats with
      ticksReceived := stats.ticksReceived + n
      startupConfirmed := true
      consecutiveMissingPolls := 0
      lastSource := .bridge }.transition .healthy .recovered
  else
    let stats := { stats with
      missingVenueIncidents := stats.missingVenueIncidents + 1
      consecutiveMissingPolls := stats.consecutiveMissingPolls + 1
      lastSource := if !stats.startupConfirmed then .bridgeUnavailable else .bridgeResnapshot }
    if stats.startupConfirmed then
      if 10 ≤ stats.consecutiveMissingPolls then
        { stats with resnapshotCount := stats.resnapshotCount + 1 }.transition .degraded
          .resnapshotLoop
      else stats
    else stats.transition .degraded .snapshotRejection

/-- The entries of `_rest_fallback_tick`, when the fetcher has a row. -/
def restFallback (stats : VenueRuntimeStats) (fetched : Bool) : VenueRuntimeStats :=
  if fetched then
    { stats with
      restFallbackUsage := stats.restFallbackUsage + 1
      lastSource := .restFallback }
  else stats

end VenueRuntimeStats

/-! ## A poll of all venues -/

section Fetch

variable {K : Type*}

/-- `_venue_stats`, by the venues in upper case. -/
abbrev VenueStats := List (CString × VenueRuntimeStats)

/-- The venue of a tick of the bridge. -/
def FetchedTick.venue (tick : FetchedTick K) : CString :=
  (tick.exchange.getD "UNKNOWN".toList).map Char.toUpper

/-- The ticks of a poll that belong to a venue. -/
def bridgeCount (bridge : List (FetchedTick K)) (venue : CString) : ℕ :=
  bridge.countP fun tick => tick.venue = venue

/-- What a poll finds: the new ticks of the bridge, and what the fetcher of a venue returns when it
is asked in the loop and when it is asked again. -/
structure VenuePoll (K : Type*) where
  bridge : List (FetchedTick K)
  fetched : CString → Option (FetchedTick K)
  fetchedAgain : CString → Option (FetchedTick K)

namespace VenuePoll

variable (p : VenuePoll K)

/-- The fallback row of a venue in the loop, which is asked for without a tick of the bridge. -/
def fallback (venue : CString) : Option (FetchedTick K) :=
  if bridgeCount p.bridge venue ≠ 0 then none
  else (p.fetched venue).map fun row => { row with exchange := some venue }

/-- The fallback row of a venue when nothing else has brought any. -/
def fallbackAgain (venue : CString) : Option (FetchedTick K) :=
  (p.fetchedAgain venue).map fun row => { row with exchange := some venue }

/-- The rows of the loop. -/
def restTicks (venues : List CString) : List (FetchedTick K) := venues.filterMap p.fallback

/-- Whether all fetchers are asked again. -/
def empty (venues : List CString) : Bool := p.bridge.isEmpty && (p.restTicks venues).isEmpty

/-- What `_fetch_tick` makes of the entries of a venue. -/
def pollVenue (venues : List CString) (venue : CString) (stats : VenueRuntimeStats) :
    VenueRuntimeStats :=
  let stats := (stats.poll (bridgeCount p.bridge venue)).restFallback (p.fallback venue).isSome
  if p.empty venues then stats.restFallback (p.fallbackAgain venue).isSome else stats

/-- `_fetch_tick`: the entries of the venues, and the ticks. -/
def fetchTick (stats : VenueStats) : VenueStats × List (FetchedTick K) :=
  let venues := stats.map Prod.fst
  (stats.map fun entry => (entry.1, p.pollVenue venues entry.1 entry.2),
    if p.empty venues then venues.filterMap p.fallbackAgain
    else p.bridge ++ p.restTicks venues)

end VenuePoll

/-- What the venues see of a session: a poll, or a record of `_log` with its exchange. -/
inductive VenueStatsEvent (K : Type*)
  | poll (p : VenuePoll K)
  | logged (exchange : CString)

/-- The entries after an event. -/
def VenueStatsEvent.apply (stats : VenueStats) : VenueStatsEvent K → VenueStats
  | .poll p => (p.fetchTick stats).1
  | .logged exchange => stats.map fun entry =>
      (entry.1, if entry.1 = exchange.map Char.toUpper then
        { entry.2 with ticksUsed := entry.2.ticksUsed + 1 } else entry.2)

/-- The entries of `__init__`, for venues in upper case. -/
def initialVenueStats (venues : List CString) : VenueStats := venues.map fun venue => (venue, {})

end Fetch

/-! ## What the polls say -/

/-- The state of a venue after polls with these numbers of ticks: it looks at the last ten. -/
def healthAfter (counts : List ℕ) : VenueHealth :=
  if counts = [] then .starting
  else if ∃ n ∈ counts.rtake 10, n ≠ 0 then .healthy else .degraded

theorem healthAfter_concat (counts : List ℕ) (n : ℕ) :
    healthAfter (counts ++ [n]) = if 0 < left 10 (counts ++ [n]) then .healthy else .degraded := by
  rw [healthAfter, if_neg (by simp)]
  exact if_congr (@lt_left_iff 10 0 (counts ++ [n])).symm rfl rfl

/-- A venue is healthy while its counter runs. -/
theorem healthAfter_eq_healthy_iff {counts : List ℕ} :
    healthAfter counts = .healthy ↔ 0 < left 10 counts := by
  rcases List.eq_nil_or_concat counts with rfl | ⟨counts, n, rfl⟩
  · simp [healthAfter]
  · rw [List.concat_eq_append, healthAfter_concat]
    split_ifs with h <;> simp [h]

/-- The changes of the state along the polls. -/
def changes (state : VenueHealth) (counts : List ℕ) : ℕ :=
  countEach (fun before n => decide (healthAfter before ≠ state ∧ healthAfter (before ++ [n]) = state))
    counts

theorem changes_concat (state : VenueHealth) (counts : List ℕ) (n : ℕ) :
    changes state (counts ++ [n]) = changes state counts +
      if healthAfter counts ≠ state ∧ healthAfter (counts ++ [n]) = state then 1 else 0 := by
  rw [changes, countEach_concat, ← changes]
  by_cases h : healthAfter counts ≠ state ∧ healthAfter (counts ++ [n]) = state <;> simp [h]

/-- Whether the first poll has missed the venue. -/
def firstMissed (counts : List ℕ) : ℕ := if counts.head? = some 0 then 1 else 0

/-- The state of a venue and its transitions are those of its polls. -/
structure HealthSeen (counts : List ℕ) (stats : VenueRuntimeStats) : Prop where
  healthState : stats.healthState = healthAfter counts
  recovered : stats.healthTransitionRootCauses .recovered = changes .healthy counts
  snapshotRejection : stats.healthTransitionRootCauses .snapshotRejection = firstMissed counts
  resnapshotLoop :
    stats.healthTransitionRootCauses .resnapshotLoop + firstMissed counts =
      changes .degraded counts
  bridgeGap : stats.healthTransitionRootCauses .bridgeGap = 0
  healthTransitionCount :
    stats.healthTransitionCount = changes .healthy counts + changes .degraded counts

variable {counts : List ℕ} {n : ℕ} {stats : VenueRuntimeStats}

/-- The health is in three entries. -/
theorem HealthSeen.congr {s : VenueRuntimeStats} (h : HealthSeen counts stats)
    (hstate : s.healthState = stats.healthState)
    (hcauses : s.healthTransitionRootCauses = stats.healthTransitionRootCauses)
    (hcount : s.healthTransitionCount = stats.healthTransitionCount) : HealthSeen counts s where
  healthState := hstate.trans h.healthState
  recovered := by rw [hcauses]; exact h.recovered
  snapshotRejection := by rw [hcauses]; exact h.snapshotRejection
  resnapshotLoop := by rw [hcauses]; exact h.resnapshotLoop
  bridgeGap := by rw [hcauses]; exact h.bridgeGap
  healthTransitionCount := hcount.trans h.healthTransitionCount

theorem firstMissed_concat (h : counts ≠ []) : firstMissed (counts ++ [n]) = firstMissed counts := by
  cases counts with
  | nil => exact absurd rfl h
  | cons c counts => rfl

/-- A poll after which the venue is healthy. -/
theorem HealthSeen.healthy (h : HealthSeen counts stats)
    (hnext : healthAfter (counts ++ [n]) = .healthy) (hn : n ≠ 0 ∨ counts ≠ []) :
    HealthSeen (counts ++ [n]) (stats.transition .healthy .recovered) := by
  have hfirst : firstMissed (counts ++ [n]) = firstMissed counts := by
    cases counts with
    | nil => simpa [firstMissed] using hn
    | cons c counts => rfl
  have hhealthy := changes_concat .healthy counts n
  have hdegraded := changes_concat .degraded counts n
  rw [hnext] at hhealthy hdegraded
  unfold VenueRuntimeStats.transition
  by_cases hsame : healthAfter counts = .healthy
  · rw [if_pos (h.healthState.trans hsame)]
    simp only [hsame, ne_eq, not_true_eq_false, false_and, if_false, Nat.add_zero, reduceCtorEq,
      and_false] at hhealthy hdegraded
    exact ⟨by rw [h.healthState, hsame, hnext], by rw [h.recovered, hhealthy],
      by rw [h.snapshotRejection, hfirst], by rw [hfirst, h.resnapshotLoop, hdegraded],
      h.bridgeGap, by rw [h.healthTransitionCount, hhealthy, hdegraded]⟩
  · rw [if_neg fun heq => hsame (h.healthState.symm.trans heq)]
    simp only [hsame, ne_eq, not_false_eq_true, true_and, if_true, Nat.add_zero, reduceCtorEq,
      and_false, if_false] at hhealthy hdegraded
    refine ⟨hnext.symm, ?_, ?_, ?_, ?_, ?_⟩
    · simp [h.recovered, hhealthy]
    · simp [h.snapshotRejection, hfirst]
    · simp [h.resnapshotLoop, hfirst, hdegraded]
    · simp [h.bridgeGap]
    · simp [h.healthTransitionCount, hhealthy, hdegraded]
      omega

/-- A poll after which the venue is degraded. -/
theorem HealthSeen.degraded (h : HealthSeen counts stats)
    (hnext : healthAfter (counts ++ [0]) = .degraded) :
    HealthSeen (counts ++ [0]) (stats.transition .degraded
      (if counts = [] then .snapshotRejection else .resnapshotLoop)) := by
  have hhealthy := changes_concat .healthy counts 0
  have hdegraded := changes_concat .degraded counts 0
  rw [hnext] at hhealthy hdegraded
  simp only [reduceCtorEq, and_false, if_false, Nat.add_zero] at hhealthy
  unfold VenueRuntimeStats.transition
  by_cases hsame : healthAfter counts = .degraded
  · have hne : counts ≠ [] := by
      rintro rfl
      simp [healthAfter] at hsame
    have hfirst := @firstMissed_concat counts 0 hne
    rw [if_pos (h.healthState.trans hsame)]
    simp only [hsame, ne_eq, not_true_eq_false, false_and, if_false, Nat.add_zero] at hdegraded
    exact ⟨by rw [h.healthState, hsame, hnext], by rw [h.recovered, hhealthy],
      by rw [h.snapshotRejection, hfirst], by rw [hfirst, h.resnapshotLoop, hdegraded],
      h.bridgeGap, by rw [h.healthTransitionCount, hhealthy, hdegraded]⟩
  · rw [if_neg fun heq => hsame (h.healthState.symm.trans heq)]
    simp only [hsame, ne_eq, not_false_eq_true, true_and, if_true] at hdegraded
    by_cases hnil : counts = []
    · subst hnil
      have hstart : changes .degraded [] = 0 ∧ firstMissed [] = 0 ∧ firstMissed ([] ++ [0]) = 1 :=
        ⟨rfl, rfl, rfl⟩
      have hloop := h.resnapshotLoop
      refine ⟨hnext.symm, ?_, ?_, ?_, ?_, ?_⟩
      · rw [hhealthy]
        simp [h.recovered]
      · rw [hstart.2.2]
        simp [h.snapshotRejection, hstart.2.1]
      · simp only [if_true, ne_eq, reduceCtorEq, not_false_eq_true, Function.update_of_ne]
        omega
      · simp [h.bridgeGap]
      · simp only [h.healthTransitionCount, hhealthy, hdegraded]
        omega
    · have hfirst := @firstMissed_concat counts 0 hnil
      have hloop := h.resnapshotLoop
      refine ⟨hnext.symm, ?_, ?_, ?_, ?_, ?_⟩
      · simp [hnil, h.recovered, hhealthy]
      · simp [hnil, h.snapshotRejection, hfirst]
      · simp only [hnil, if_false, Function.update_self, hfirst, hdegraded]
        omega
      · simp [hnil, h.bridgeGap]
      · simp only [h.healthTransitionCount, hhealthy, hdegraded]
        omega

/-- What the entries of a venue say of its polls. -/
structure PollsSeen (counts : List ℕ) (stats : VenueRuntimeStats) : Prop
    extends HealthSeen counts stats where
  ticksReceived : stats.ticksReceived = counts.sum
  missingVenueIncidents : stats.missingVenueIncidents = counts.countP (· == 0)
  startupConfirmed : stats.startupConfirmed = true ↔ ∃ n ∈ counts, n ≠ 0
  consecutiveMissingPolls : stats.consecutiveMissingPolls = runLength (· == 0) counts

theorem transition_fields (s : VenueRuntimeStats) (newState : VenueHealth)
    (rootCause : HealthRootCause) :
    (s.transition newState rootCause).ticksReceived = s.ticksReceived ∧
      (s.transition newState rootCause).missingVenueIncidents = s.missingVenueIncidents ∧
      (s.transition newState rootCause).startupConfirmed = s.startupConfirmed ∧
      (s.transition newState rootCause).consecutiveMissingPolls = s.consecutiveMissingPolls := by
  unfold VenueRuntimeStats.transition
  split_ifs <;> exact ⟨rfl, rfl, rfl, rfl⟩

/-- A transition touches the health alone. -/
theorem PollsSeen.of_transition {s : VenueRuntimeStats} {newState : VenueHealth}
    {rootCause : HealthRootCause} (hhealth : HealthSeen counts (s.transition newState rootCause))
    (hreceived : s.ticksReceived = counts.sum)
    (hmissing : s.missingVenueIncidents = counts.countP (· == 0))
    (hconfirmed : s.startupConfirmed = true ↔ ∃ n ∈ counts, n ≠ 0)
    (hconsecutive : s.consecutiveMissingPolls = runLength (· == 0) counts) :
    PollsSeen counts (s.transition newState rootCause) := by
  obtain ⟨h₁, h₂, h₃, h₄⟩ := transition_fields s newState rootCause
  exact ⟨hhealth, h₁.trans hreceived, h₂.trans hmissing, by rw [h₃]; exact hconfirmed,
    h₄.trans hconsecutive⟩

/-- A poll that misses the venue. -/
theorem PollsSeen.pollMissing (h : PollsSeen counts stats) :
    PollsSeen (counts ++ [0]) (stats.poll 0) := by
  have hleft := left_eq 10 (counts ++ [0])
  have hany : (∃ m ∈ counts ++ [0], m ≠ 0) ↔ ∃ m ∈ counts, m ≠ 0 := by simp
  have hrun : runLength (· == 0) (counts ++ [0]) = runLength (· == 0) counts + 1 := by
    rw [runLength_concat, if_pos (by rfl)]
  have hreceived : stats.ticksReceived = (counts ++ [0]).sum := by simp [h.ticksReceived]
  have hmissing : stats.missingVenueIncidents + 1 = (counts ++ [0]).countP (· == 0) := by
    simp [h.missingVenueIncidents]
  have hconfirmed : stats.startupConfirmed = true ↔ ∃ m ∈ counts ++ [0], m ≠ 0 :=
    h.startupConfirmed.trans hany.symm
  have hconsecutive : stats.consecutiveMissingPolls + 1 = runLength (· == 0) (counts ++ [0]) := by
    rw [hrun, h.consecutiveMissingPolls]
  rw [VenueRuntimeStats.poll, if_neg (by simp)]
  dsimp only
  by_cases hticks : ∃ m ∈ counts ++ [0], m ≠ 0
  · have hne : counts ≠ [] := by
      rintro rfl
      simp at hticks
    rw [if_pos hticks, ← hconsecutive] at hleft
    rw [if_pos (hconfirmed.mpr hticks)]
    by_cases hten : 10 ≤ stats.consecutiveMissingPolls + 1
    · -- the last ten polls have brought nothing
      have hnext : healthAfter (counts ++ [0]) = .degraded := by
        rw [healthAfter_concat, hleft, Nat.sub_eq_zero_of_le hten]
        rfl
      rw [if_pos hten]
      refine PollsSeen.of_transition ?_ hreceived hmissing hconfirmed hconsecutive
      have hdegraded : ∀ s, HealthSeen counts s →
          HealthSeen (counts ++ [0]) (s.transition .degraded .resnapshotLoop) := fun s hs => by
        have := hs.degraded hnext
        rwa [if_neg hne] at this
      exact hdegraded _ (h.toHealthSeen.congr rfl rfl rfl)
    · have hnext : healthAfter (counts ++ [0]) = .healthy := by
        rw [healthAfter_concat, hleft, if_pos (Nat.sub_pos_of_lt (not_le.mp hten))]
      have hbefore : stats.healthState = .healthy := by
        rw [h.healthState, healthAfter_eq_healthy_iff]
        have := healthAfter_eq_healthy_iff.mp hnext
        rw [left_concat, if_pos rfl] at this
        exact this.trans_le (Nat.sub_le _ _)
      rw [if_neg hten]
      have hhealthy := @HealthSeen.healthy counts 0 _ h.toHealthSeen hnext (.inr hne)
      rw [VenueRuntimeStats.transition, if_pos hbefore] at hhealthy
      exact ⟨hhealthy.congr rfl rfl rfl, hreceived, hmissing, hconfirmed, hconsecutive⟩
  · have hnext : healthAfter (counts ++ [0]) = .degraded := by
      rw [healthAfter_concat, hleft, if_neg hticks]
      rfl
    rw [if_neg (hconfirmed.not.mpr hticks)]
    refine PollsSeen.of_transition ?_ hreceived hmissing hconfirmed hconsecutive
    have hdegraded : ∀ s, HealthSeen counts s →
        HealthSeen (counts ++ [0]) (s.transition .degraded .snapshotRejection) := fun s hs => by
      have hnext' := hs.degraded hnext
      by_cases hnil : counts = []
      · rwa [if_pos hnil] at hnext'
      · -- a venue that has never brought a tick is degraded already
        have hsame : s.healthState = .degraded := by
          have hnone : ¬ 0 < left 10 counts := by
            rw [left_eq, if_neg (hany.not.mp hticks)]
            exact lt_irrefl 0
          rw [hs.healthState, healthAfter, if_neg hnil]
          exact if_neg fun hex => hnone ((@lt_left_iff 10 0 counts).mpr hex)
        rw [VenueRuntimeStats.transition, if_pos hsame] at hnext' ⊢
        exact hnext'
    exact hdegraded _ (h.toHealthSeen.congr rfl rfl rfl)

/-- A poll that brings ticks. -/
theorem PollsSeen.pollTicks (h : PollsSeen counts stats) (hn : n ≠ 0) :
    PollsSeen (counts ++ [n]) (stats.poll n) := by
  have hnext : healthAfter (counts ++ [n]) = .healthy := by
    rw [healthAfter_concat, left_concat, if_neg hn]
    rfl
  rw [VenueRuntimeStats.poll, if_pos hn]
  refine PollsSeen.of_transition ?_ ?_ ?_ ?_ ?_
  · exact HealthSeen.healthy (h.toHealthSeen.congr rfl rfl rfl) hnext (.inl hn)
  · simp [h.ticksReceived]
  · simp [h.missingVenueIncidents, hn]
  · exact iff_of_true rfl ⟨n, by simp, hn⟩
  · rw [runLength_concat, if_neg (by simpa using hn)]

theorem PollsSeen.poll (h : PollsSeen counts stats) (n : ℕ) :
    PollsSeen (counts ++ [n]) (stats.poll n) := by
  by_cases hn : n = 0
  · rw [hn]
    exact h.pollMissing
  · exact h.pollTicks hn

/-! ## A session -/

variable {K : Type*}

/-- The numbers of ticks that the polls have brought a venue. -/
def pollCounts (venue : CString) (events : List (VenueStatsEvent K)) : List ℕ :=
  events.filterMap fun
    | .poll p => some (bridgeCount p.bridge venue)
    | .logged _ => none

/-- The records of a venue. -/
def recordCount (venue : CString) (events : List (VenueStatsEvent K)) : ℕ :=
  events.countP fun
    | .poll _ => false
    | .logged exchange => decide (venue = exchange.map Char.toUpper)

/-- The entries after some events. -/
def venueStatsAfter (venues : List CString) (events : List (VenueStatsEvent K)) : VenueStats :=
  events.foldl VenueStatsEvent.apply (initialVenueStats venues)

theorem PollsSeen.pollVenue (h : PollsSeen counts stats) (p : VenuePoll K)
    (venues : List CString) (venue : CString) :
    PollsSeen (counts ++ [bridgeCount p.bridge venue]) (p.pollVenue venues venue stats) := by
  have hfallback : ∀ (fetched : Bool) {counts} {stats : VenueRuntimeStats},
      PollsSeen counts stats → PollsSeen counts (stats.restFallback fetched) := by
    intro fetched counts stats h
    cases fetched with
    | false => exact h
    | true =>
      exact ⟨h.toHealthSeen.congr rfl rfl rfl, h.ticksReceived, h.missingVenueIncidents,
        h.startupConfirmed, h.consecutiveMissingPolls⟩
  have hpoll := hfallback (p.fallback venue).isSome (h.poll (bridgeCount p.bridge venue))
  unfold VenuePoll.pollVenue
  dsimp only
  split_ifs
  · exact hfallback _ hpoll
  · exact hpoll

theorem pollVenue_ticksUsed (p : VenuePoll K) (venues : List CString) (venue : CString)
    (stats : VenueRuntimeStats) :
    (p.pollVenue venues venue stats).ticksUsed = stats.ticksUsed := by
  have htransition : ∀ (s : VenueRuntimeStats) newState rootCause,
      (s.transition newState rootCause).ticksUsed = s.ticksUsed := by
    intro s newState rootCause
    unfold VenueRuntimeStats.transition
    split_ifs <;> rfl
  have hfallback : ∀ (s : VenueRuntimeStats) fetched,
      (s.restFallback fetched).ticksUsed = s.ticksUsed := by
    intro s fetched
    cases fetched <;> rfl
  have hpoll : ∀ n, (stats.poll n).ticksUsed = stats.ticksUsed := by
    intro n
    unfold VenueRuntimeStats.poll
    dsimp only
    split_ifs <;> simp only [htransition]
  unfold VenuePoll.pollVenue
  dsimp only
  split_ifs <;> simp only [hfallback, hpoll]

/-- What the entries say, along every session. -/
theorem pollsSeen_venueStatsAfter (venues : List CString) (events : List (VenueStatsEvent K)) :
    ∀ entry ∈ venueStatsAfter venues events,
      PollsSeen (pollCounts entry.1 events) entry.2 ∧
        entry.2.ticksUsed = recordCount entry.1 events := by
  induction events using List.reverseRecOn with
  | nil =>
    intro entry hentry
    obtain ⟨venue, -, rfl⟩ := List.mem_map.mp hentry
    exact ⟨⟨⟨rfl, rfl, rfl, rfl, rfl, rfl⟩, rfl, rfl, by simp [pollCounts], rfl⟩, rfl⟩
  | append_singleton events event ih =>
    intro entry hentry
    rw [venueStatsAfter, List.foldl_concat] at hentry
    cases event with
    | poll p =>
      obtain ⟨before, hbefore, rfl⟩ := List.mem_map.mp hentry
      obtain ⟨hpolls, hused⟩ := ih before hbefore
      have hcounts : pollCounts before.1 (events ++ [.poll p]) =
          pollCounts before.1 events ++ [bridgeCount p.bridge before.1] := by
        simp [pollCounts]
      refine ⟨?_, ?_⟩
      · rw [hcounts]
        exact hpolls.pollVenue p _ before.1
      · rw [pollVenue_ticksUsed, hused]
        simp [recordCount]
    | logged exchange =>
      obtain ⟨before, hbefore, rfl⟩ := List.mem_map.mp hentry
      obtain ⟨hpolls, hused⟩ := ih before hbefore
      have hcounts : pollCounts before.1 (events ++ [.logged exchange]) =
          pollCounts before.1 events := by
        simp [pollCounts]
      dsimp only
      rw [hcounts]
      by_cases hvenue : before.1 = exchange.map Char.toUpper
      · rw [if_pos hvenue]
        refine ⟨⟨hpolls.toHealthSeen.congr rfl rfl rfl, hpolls.ticksReceived,
          hpolls.missingVenueIncidents, hpolls.startupConfirmed,
          hpolls.consecutiveMissingPolls⟩, ?_⟩
        simp [hused, recordCount, hvenue]
      · rw [if_neg hvenue]
        refine ⟨hpolls, ?_⟩
        simp [hused, recordCount, hvenue]

/-- **The health of a venue.** Along every session the entries of a venue say of its polls what they
are: the venue is healthy exactly when one of its last ten polls has brought a tick and degraded
otherwise, once it has been polled; and its counters are counts of its polls and of its records. -/
theorem venue_health (venues : List CString) (events : List (VenueStatsEvent K)) :
    ∀ entry ∈ venueStatsAfter venues events,
      let counts := pollCounts entry.1 events
      entry.2.healthState =
          (if counts = [] then .starting
            else if ∃ n ∈ counts.rtake 10, n ≠ 0 then .healthy else .degraded) ∧
        entry.2.ticksReceived = counts.sum ∧
        entry.2.missingVenueIncidents = counts.countP (· == 0) ∧
        (entry.2.startupConfirmed = true ↔ ∃ n ∈ counts, n ≠ 0) ∧
        entry.2.consecutiveMissingPolls = runLength (· == 0) counts ∧
        entry.2.ticksUsed = recordCount entry.1 events := by
  intro entry hentry
  obtain ⟨h, hused⟩ := pollsSeen_venueStatsAfter venues events entry hentry
  exact ⟨h.healthState, h.ticksReceived, h.missingVenueIncidents, h.startupConfirmed,
    h.consecutiveMissingPolls, hused⟩

/-- A poll that brings nothing. -/
def silentPoll : List (VenueStatsEvent ℚ) := [.poll ⟨[], fun _ => none, fun _ => none⟩]

/-- A venue is degraded by it. -/
theorem venue_health_silentPoll : ∃ entry ∈ venueStatsAfter ["OKX".toList] silentPoll,
    entry.2.healthState = .degraded ∧ entry.2.missingVenueIncidents = 1 := by
  have hmem : (venueStatsAfter ["OKX".toList] silentPoll).head (by decide) ∈
      venueStatsAfter ["OKX".toList] silentPoll := List.head_mem _
  have h := venue_health ["OKX".toList] silentPoll _ hmem
  exact ⟨_, hmem, h.1.trans (by decide), h.2.2.1.trans (by decide)⟩

/-- A venue gets well once more than it falls ill again, or as often. -/
theorem changes_healthy (counts : List ℕ) :
    changes .healthy counts + firstMissed counts =
      changes .degraded counts + if healthAfter counts = .healthy then 1 else 0 := by
  induction counts using List.reverseRecOn with
  | nil => rfl
  | append_singleton counts n ih =>
    rw [changes_concat, changes_concat]
    by_cases hnil : counts = []
    · subst hnil
      by_cases hn : n = 0 <;> simp [healthAfter, firstMissed, changes, hn, List.rtake]
    · rw [firstMissed_concat hnil]
      have hbefore : healthAfter counts = .healthy ∨ healthAfter counts = .degraded := by
        rw [healthAfter, if_neg hnil]
        split_ifs <;> simp
      have hafter : healthAfter (counts ++ [n]) = .healthy ∨
          healthAfter (counts ++ [n]) = .degraded := by
        rw [healthAfter_concat]
        split_ifs <;> simp
      rcases hbefore with hb | hb <;> rcases hafter with ha | ha <;>
        simp [hb, ha] at ih ⊢ <;> omega

/-- **The transitions of a venue.** Along every session the transitions that are counted are those
under their causes. A venue has recovered as often as it has been caught in a resnapshot loop, and
once more while it is healthy; its snapshot has been rejected at most once, by the first poll; and
no transition is put down to a gap of the bridge. -/
theorem venue_transitions (venues : List CString) (events : List (VenueStatsEvent K)) :
    ∀ entry ∈ venueStatsAfter venues events,
      let causes := entry.2.healthTransitionRootCauses
      entry.2.healthTransitionCount =
          causes .recovered + causes .resnapshotLoop + causes .snapshotRejection ∧
        causes .recovered =
          causes .resnapshotLoop + (if entry.2.healthState = .healthy then 1 else 0) ∧
        causes .snapshotRejection =
          (if (pollCounts entry.1 events).head? = some 0 then 1 else 0) ∧
        causes .bridgeGap = 0 := by
  intro entry hentry
  dsimp only
  have h := (pollsSeen_venueStatsAfter venues events entry hentry).1
  have hchanges := changes_healthy (pollCounts entry.1 events)
  have hrecovered := h.recovered
  have hrejected := h.snapshotRejection
  have hloop := h.resnapshotLoop
  have hcount := h.healthTransitionCount
  rw [h.healthState]
  exact ⟨by omega, by omega, hrejected, h.bridgeGap⟩

/-- A first poll that brings nothing is put down to a rejected snapshot. -/
theorem venue_transitions_silentPoll : ∃ entry ∈ venueStatsAfter ["OKX".toList] silentPoll,
    entry.2.healthTransitionRootCauses .snapshotRejection = 1 := by
  have hmem : (venueStatsAfter ["OKX".toList] silentPoll).head (by decide) ∈
      venueStatsAfter ["OKX".toList] silentPoll := List.head_mem _
  have h := venue_transitions ["OKX".toList] silentPoll _ hmem
  exact ⟨_, hmem, h.2.2.1.trans (by decide)⟩

end TradingInfrastructure
