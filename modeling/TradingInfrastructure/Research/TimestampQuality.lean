import TradingInfrastructure.Common.Types
import TradingInfrastructure.Foundations.Runs

/-!
# The quality of timestamps

`analyse_timestamp_quality` of `research/backtest/shadow_metrics.py` and
`_summarise_timestamp_quality` of `research/neural_alpha/runtime/shadow_session.py`: two scans of
the records of a session. Their counters agree, but the first one takes every positive entry for an
issue, and the largest jump and the largest gap are entries. So they agree on whether there are
issues exactly when there are some, or no timestamp moves (`verdicts_agree_iff`).

A record has the fields that the scans read, and the dictionaries of the last timestamps are
functions.
-/

namespace TradingInfrastructure

/-- A record of a signal. -/
structure SignalRecord where
  timestampExchangeNs : ℤ
  timestampLocalNs : ℤ
  eventIndex : ℤ
  sessionElapsedNs : ℤ := 0
  exchange : CString

/-- `_MAX_EXCHANGE_JUMP_NS`, which both modules read from the configuration. -/
def maxExchangeJumpNs : ℤ := 60000000000

/-- The entries that both scans have. -/
structure TimestampDiagnostics where
  exchangeMissing : ℕ := 0
  localMissing : ℕ := 0
  exchangeNonMonotonic : ℕ := 0
  localNonMonotonic : ℕ := 0
  eventIndexNonMonotonic : ℕ := 0
  /-- `cross_venue_timestamp_jumps`, or `cross_venue_exchange_jumps`. -/
  crossVenueJumps : ℕ := 0
  maxExchangeJumpNs : ℤ := 0
  maxLocalGapNs : ℤ := 0
  deriving DecidableEq

namespace TimestampDiagnostics

variable (d : TimestampDiagnostics) (row : SignalRecord)

/-- The timestamps that are missing. -/
def checkMissing : TimestampDiagnostics :=
  { d with
    exchangeMissing := d.exchangeMissing + if row.timestampExchangeNs ≤ 0 then 1 else 0
    localMissing := d.localMissing + if row.timestampLocalNs ≤ 0 then 1 else 0 }

/-- The local timestamp, after the last one. -/
def checkLocal (prevLocal : Option ℤ) : TimestampDiagnostics :=
  match prevLocal with
  | some prev =>
    if row.timestampLocalNs > 0 then
      { d with
        maxLocalGapNs := max d.maxLocalGapNs |row.timestampLocalNs - prev|
        localNonMonotonic := d.localNonMonotonic + if row.timestampLocalNs < prev then 1 else 0 }
    else d
  | none => d

/-- The event index, after the last one. -/
def checkEventIndex (prevEventIndex : Option ℤ) : TimestampDiagnostics :=
  match prevEventIndex with
  | some prev =>
    { d with
      eventIndexNonMonotonic :=
        d.eventIndexNonMonotonic + if row.eventIndex ≤ prev then 1 else 0 }
  | none => d

/-- The timestamp of the exchange, after the last one of the same exchange. -/
def checkExchange (prevExchange : Option ℤ) : TimestampDiagnostics :=
  match prevExchange with
  | some prev =>
    if row.timestampExchangeNs > 0 then
      let jump := |row.timestampExchangeNs - prev|
      { d with
        maxExchangeJumpNs := max d.maxExchangeJumpNs jump
        exchangeNonMonotonic :=
          d.exchangeNonMonotonic + if row.timestampExchangeNs < prev then 1 else 0
        crossVenueJumps :=
          d.crossVenueJumps + if row.timestampExchangeNs < prev then 0
            else if jump > TradingInfrastructure.maxExchangeJumpNs then 1 else 0 }
    else d
  | none => d

/-- A counter counts something. -/
def counted : Bool :=
  decide (d.exchangeMissing > 0) || decide (d.localMissing > 0) ||
    decide (d.exchangeNonMonotonic > 0) || decide (d.localNonMonotonic > 0) ||
    decide (d.eventIndexNonMonotonic > 0) || decide (d.crossVenueJumps > 0)

/-- Some entry is positive. -/
def anyPositive : Bool :=
  d.counted || decide (d.maxExchangeJumpNs > 0) || decide (d.maxLocalGapNs > 0)

end TimestampDiagnostics

/-- What a scan remembers of the records before. -/
structure LastTimestamps where
  prevLocal : Option ℤ := none
  prevEventIndex : Option ℤ := none
  prevByExchange : CString → Option ℤ := fun _ => none

/-- The memory after a record. -/
def LastTimestamps.after (last : LastTimestamps) (row : SignalRecord) : LastTimestamps where
  prevLocal := if row.timestampLocalNs > 0 then some row.timestampLocalNs else last.prevLocal
  prevEventIndex := some row.eventIndex
  prevByExchange :=
    if row.timestampExchangeNs > 0 then
      Function.update last.prevByExchange row.exchange (some row.timestampExchangeNs)
    else last.prevByExchange

/-! ## The first scan -/

/-- The body of the loop of `analyse_timestamp_quality`. -/
def analyseRow (s : TimestampDiagnostics × LastTimestamps) (row : SignalRecord) :
    TimestampDiagnostics × LastTimestamps :=
  ((((s.1.checkMissing row).checkLocal row s.2.prevLocal).checkEventIndex row
    s.2.prevEventIndex).checkExchange row (s.2.prevByExchange row.exchange), s.2.after row)

/-- `analyse_timestamp_quality`: the entries, and `has_timestamp_issues`. -/
def analyseTimestampQuality (rows : List SignalRecord) : TimestampDiagnostics × Bool :=
  let diagnostics := (rows.foldl analyseRow ({}, {})).1
  (diagnostics, diagnostics.anyPositive)

/-! ## The second scan -/

/-- The diagnostics of `_summarise_timestamp_quality`. -/
structure TimestampSummary extends TimestampDiagnostics where
  records : ℕ
  exchangeMonotonic : Bool := true
  localMonotonic : Bool := true
  eventIndexMonotonic : Bool := true

/-- The body of the loop of `_summarise_timestamp_quality`. It also tests that the last timestamp of
the venue is positive. -/
def summariseRecord (s : TimestampSummary × LastTimestamps) (record : SignalRecord) :
    TimestampSummary × LastTimestamps :=
  let prevVenue := (s.2.prevByExchange record.exchange).filter fun prev => 0 < prev
  let falls (prev : Option ℤ) (value : ℤ) : Bool := prev.any fun prev => value < prev
  ({ toTimestampDiagnostics :=
       (((s.1.checkMissing record).checkLocal record s.2.prevLocal).checkEventIndex record
         s.2.prevEventIndex).checkExchange record prevVenue
     records := s.1.records
     exchangeMonotonic := s.1.exchangeMonotonic &&
       !(decide (record.timestampExchangeNs > 0) && falls prevVenue record.timestampExchangeNs)
     localMonotonic := s.1.localMonotonic &&
       !(decide (record.timestampLocalNs > 0) && falls s.2.prevLocal record.timestampLocalNs)
     eventIndexMonotonic := s.1.eventIndexMonotonic &&
       !(s.2.prevEventIndex.any fun prev => record.eventIndex ≤ prev) },
    s.2.after record)

/-- `_ordered_records`, and the order of `analyse_signals`. -/
def orderedRecords (records : List SignalRecord) : List SignalRecord :=
  records.mergeSort fun a b => decide (a.eventIndex < b.eventIndex ∨
    (a.eventIndex = b.eventIndex ∧ a.sessionElapsedNs ≤ b.sessionElapsedNs))

/-- `_summarise_timestamp_quality`: the diagnostics, and `has_timestamp_issues`. -/
def summariseTimestampQuality (records : List SignalRecord) : TimestampSummary × Bool :=
  let diagnostics :=
    ((orderedRecords records).foldl summariseRecord ({ records := records.length }, {})).1
  (diagnostics, diagnostics.counted)

/-- Both have the same entries and the same verdict, on the same order of the records. -/
def VerdictsAgree (records : List SignalRecord) : Prop :=
  (analyseTimestampQuality (orderedRecords records)).1 =
      (summariseTimestampQuality records).1.toTimestampDiagnostics ∧
    (analyseTimestampQuality (orderedRecords records)).2 = (summariseTimestampQuality records).2

/-! ## The entries agree -/

/-- The timestamps that are remembered are positive. -/
theorem after_positive {last : LastTimestamps} {row : SignalRecord}
    (h : ∀ venue, ∀ prev ∈ last.prevByExchange venue, 0 < prev) :
    ∀ venue, ∀ prev ∈ (last.after row).prevByExchange venue, 0 < prev := by
  intro venue prev hprev
  simp only [LastTimestamps.after] at hprev
  split_ifs at hprev with hpos
  · by_cases hvenue : venue = row.exchange
    · subst hvenue
      rw [Function.update_self] at hprev
      exact Option.mem_some_iff.mp hprev ▸ hpos
    · rw [Function.update_of_ne hvenue] at hprev
      exact h venue prev hprev
  · exact h venue prev hprev

/-- **The entries of both scans are the same.** -/
theorem entries_agree (rows : List SignalRecord) (records : ℕ) :
    (rows.foldl analyseRow ({}, {})).1 =
      (rows.foldl summariseRecord ({ records }, {})).1.toTimestampDiagnostics := by
  have hrel := List.foldl_rel (l := rows) (f := analyseRow) (g := summariseRecord)
    (a := ({}, {})) (b := ({ records }, {}))
    (r := fun s s' => s.1 = s'.1.toTimestampDiagnostics ∧ s.2 = s'.2 ∧
      ∀ venue, ∀ prev ∈ s'.2.prevByExchange venue, 0 < prev)
    ⟨rfl, rfl, fun _ _ h => by cases h⟩ fun row _ s s' ⟨hentries, hlast, hpositive⟩ => by
      have hguard : (s'.2.prevByExchange row.exchange).filter (fun prev => decide (0 < prev)) =
          s'.2.prevByExchange row.exchange := by
        cases hprev : s'.2.prevByExchange row.exchange with
        | none => rfl
        | some prev => simp [hpositive row.exchange prev hprev]
      refine ⟨?_, by rw [analyseRow, summariseRecord, hlast], after_positive hpositive⟩
      simp only [analyseRow, summariseRecord, hguard, hentries, hlast]
  exact hrel.1

/-! ## The verdicts -/

/-- The memory of a scan whose records all have their timestamps. -/
def LastTimestamps.of (before : List SignalRecord) : LastTimestamps where
  prevLocal := before.getLast?.map SignalRecord.timestampLocalNs
  prevEventIndex := before.getLast?.map SignalRecord.eventIndex
  prevByExchange venue :=
    (before.filter (·.exchange = venue)).getLast?.map SignalRecord.timestampExchangeNs

/-- A record that no counter counts, with the records before it. -/
def CleanAfter (before : List SignalRecord) (row : SignalRecord) : Prop :=
  0 < row.timestampExchangeNs ∧ 0 < row.timestampLocalNs ∧
    (∀ prev ∈ (LastTimestamps.of before).prevLocal, prev ≤ row.timestampLocalNs) ∧
    (∀ prev ∈ (LastTimestamps.of before).prevEventIndex, prev < row.eventIndex) ∧
    ∀ prev ∈ (LastTimestamps.of before).prevByExchange row.exchange,
      prev ≤ row.timestampExchangeNs ∧ row.timestampExchangeNs - prev ≤ maxExchangeJumpNs

/-- A record with the timestamps of the record before it, and of the one of its exchange. -/
def StillAfter (before : List SignalRecord) (row : SignalRecord) : Prop :=
  (∀ prev ∈ (LastTimestamps.of before).prevLocal, row.timestampLocalNs = prev) ∧
    ∀ prev ∈ (LastTimestamps.of before).prevByExchange row.exchange,
      row.timestampExchangeNs = prev

/-- A record that has its timestamps is remembered. -/
theorem LastTimestamps.of_concat {before : List SignalRecord} {row : SignalRecord}
    (hexchange : 0 < row.timestampExchangeNs) (hlocal : 0 < row.timestampLocalNs) :
    (LastTimestamps.of before).after row = LastTimestamps.of (before ++ [row]) := by
  have hvenues : (LastTimestamps.of (before ++ [row])).prevByExchange =
      Function.update (LastTimestamps.of before).prevByExchange row.exchange
        (some row.timestampExchangeNs) := by
    funext venue
    by_cases hvenue : venue = row.exchange
    · subst hvenue
      simp [LastTimestamps.of]
    · rw [Function.update_of_ne hvenue]
      simp [LastTimestamps.of, Ne.symm hvenue]
  rw [LastTimestamps.after, if_pos hlocal, if_pos hexchange, ← hvenues]
  simp [LastTimestamps.of]

namespace TimestampDiagnostics

variable {d : TimestampDiagnostics} {row : SignalRecord}

/-- Nothing is counted when every counter is zero. -/
theorem counted_eq_false : d.counted = false ↔
    d.exchangeMissing = 0 ∧ d.localMissing = 0 ∧ d.exchangeNonMonotonic = 0 ∧
      d.localNonMonotonic = 0 ∧ d.eventIndexNonMonotonic = 0 ∧ d.crossVenueJumps = 0 := by
  simp [counted, and_assoc]

theorem counted_checkMissing : (d.checkMissing row).counted = false ↔
    d.counted = false ∧ 0 < row.timestampExchangeNs ∧ 0 < row.timestampLocalNs := by
  simp only [counted_eq_false, checkMissing]
  grind

theorem counted_checkLocal {prevLocal : Option ℤ} : (d.checkLocal row prevLocal).counted = false ↔
    d.counted = false ∧
      (0 < row.timestampLocalNs → ∀ prev ∈ prevLocal, prev ≤ row.timestampLocalNs) := by
  cases prevLocal with
  | none => simp [checkLocal]
  | some prev =>
    by_cases hlocal : 0 < row.timestampLocalNs
    · simp only [counted_eq_false, checkLocal, if_pos hlocal, Option.mem_some_iff, forall_eq']
      grind
    · simp [checkLocal, hlocal]

theorem counted_checkEventIndex {prevEventIndex : Option ℤ} :
    (d.checkEventIndex row prevEventIndex).counted = false ↔
      d.counted = false ∧ ∀ prev ∈ prevEventIndex, prev < row.eventIndex := by
  cases prevEventIndex with
  | none => simp [checkEventIndex]
  | some prev =>
    simp only [counted_eq_false, checkEventIndex, Option.mem_some_iff, forall_eq']
    grind

theorem counted_checkExchange {prevExchange : Option ℤ} :
    (d.checkExchange row prevExchange).counted = false ↔
      d.counted = false ∧ (0 < row.timestampExchangeNs →
        ∀ prev ∈ prevExchange, prev ≤ row.timestampExchangeNs ∧
          row.timestampExchangeNs - prev ≤ TradingInfrastructure.maxExchangeJumpNs) := by
  cases prevExchange with
  | none => simp [checkExchange]
  | some prev =>
    by_cases hexchange : 0 < row.timestampExchangeNs
    · simp only [counted_eq_false, checkExchange, if_pos hexchange, Option.mem_some_iff, forall_eq']
      rcases lt_or_ge row.timestampExchangeNs prev with hfalls | hrises
      · simp [if_pos hfalls, hfalls.not_ge, hexchange]
      · rw [abs_of_nonneg (sub_nonneg.mpr hrises)]
        grind
    · simp [checkExchange, hexchange]

/-- Neither maximum has moved. -/
def Unmoved (d : TimestampDiagnostics) : Prop := d.maxExchangeJumpNs ≤ 0 ∧ d.maxLocalGapNs ≤ 0

theorem anyPositive_eq_false : d.anyPositive = false ↔ d.counted = false ∧ d.Unmoved := by
  simp [anyPositive, Unmoved, and_assoc]

theorem unmoved_checkMissing : (d.checkMissing row).Unmoved ↔ d.Unmoved := Iff.rfl

theorem unmoved_checkLocal {prevLocal : Option ℤ} (hlocal : 0 < row.timestampLocalNs) :
    (d.checkLocal row prevLocal).Unmoved ↔
      d.Unmoved ∧ ∀ prev ∈ prevLocal, row.timestampLocalNs = prev := by
  cases prevLocal with
  | none => simp [checkLocal]
  | some prev =>
    simp only [Unmoved, checkLocal, if_pos hlocal, max_le_iff, abs_nonpos_iff, sub_eq_zero,
      Option.mem_some_iff, forall_eq', and_assoc]

theorem unmoved_checkEventIndex {prevEventIndex : Option ℤ} :
    (d.checkEventIndex row prevEventIndex).Unmoved ↔ d.Unmoved := by
  cases prevEventIndex <;> exact Iff.rfl

theorem unmoved_checkExchange {prevExchange : Option ℤ} (hexchange : 0 < row.timestampExchangeNs) :
    (d.checkExchange row prevExchange).Unmoved ↔
      d.Unmoved ∧ ∀ prev ∈ prevExchange, row.timestampExchangeNs = prev := by
  cases prevExchange with
  | none => simp [checkExchange]
  | some prev =>
    simp only [Unmoved, checkExchange, if_pos hexchange, max_le_iff, abs_nonpos_iff, sub_eq_zero,
      Option.mem_some_iff, forall_eq']
    tauto

end TimestampDiagnostics

open TimestampDiagnostics

variable {d : TimestampDiagnostics} {before rows : List SignalRecord} {row : SignalRecord}

/-- The counters stay at zero exactly through a record that is clean. -/
theorem counted_analyseRow : (analyseRow (d, LastTimestamps.of before) row).1.counted = false ↔
    d.counted = false ∧ CleanAfter before row := by
  rw [analyseRow, CleanAfter, counted_checkExchange, counted_checkEventIndex, counted_checkLocal,
    counted_checkMissing]
  constructor
  · rintro ⟨⟨⟨⟨hd, hexchange, hlocal⟩, hlocals⟩, hindices⟩, hexchanges⟩
    exact ⟨hd, hexchange, hlocal, hlocals hlocal, hindices, hexchanges hexchange⟩
  · rintro ⟨hd, hexchange, hlocal, hlocals, hindices, hexchanges⟩
    exact ⟨⟨⟨⟨hd, hexchange, hlocal⟩, fun _ => hlocals⟩, hindices⟩, fun _ => hexchanges⟩

/-- The maxima stay where they are exactly through a record that is still. -/
theorem unmoved_analyseRow (hclean : CleanAfter before row) :
    (analyseRow (d, LastTimestamps.of before) row).1.Unmoved ↔
      d.Unmoved ∧ StillAfter before row := by
  rw [analyseRow, StillAfter, unmoved_checkExchange hclean.1, unmoved_checkEventIndex,
    unmoved_checkLocal hclean.2.1, unmoved_checkMissing, and_assoc]

/-- A counter that counts something goes on to. -/
theorem counted_analyseRow_of_counted {last : LastTimestamps} (h : d.counted = true) :
    (analyseRow (d, last) row).1.counted = true := by
  rw [← Bool.not_eq_false] at h ⊢
  rw [analyseRow, counted_checkExchange, counted_checkEventIndex, counted_checkLocal,
    counted_checkMissing]
  tauto

/-- **The first scan of some records.** Nothing is counted exactly when every record is clean, and
then the scan remembers the last records, and the maxima are zero exactly when every record is
still. -/
theorem foldl_analyseRow (rows : List SignalRecord) :
    ((rows.foldl analyseRow ({}, {})).1.counted = false ↔ AtEach CleanAfter rows) ∧
      (AtEach CleanAfter rows →
        (rows.foldl analyseRow ({}, {})).2 = LastTimestamps.of rows ∧
          ((rows.foldl analyseRow ({}, {})).1.Unmoved ↔ AtEach StillAfter rows)) := by
  induction rows using List.reverseRecOn with
  | nil => exact ⟨iff_of_true rfl atEach_nil,
    fun _ => ⟨rfl, iff_of_true ⟨le_rfl, le_rfl⟩ atEach_nil⟩⟩
  | append_singleton before row ih =>
    rw [List.foldl_append, List.foldl_cons, List.foldl_nil, atEach_concat, atEach_concat]
    generalize before.foldl analyseRow ({}, {}) = s at ih ⊢
    obtain ⟨d, last⟩ := s
    obtain ⟨hcounted, hmemory⟩ := ih
    by_cases hbefore : AtEach CleanAfter before
    · obtain ⟨rfl, hunmoved⟩ := hmemory hbefore
      refine ⟨counted_analyseRow.trans (and_congr_left' hcounted), fun ⟨_, hrow⟩ => ⟨?_, ?_⟩⟩
      · exact LastTimestamps.of_concat hrow.1 hrow.2.1
      · exact (unmoved_analyseRow hrow).trans (and_congr_left' hunmoved)
    · have hcount : d.counted = true := Bool.not_eq_false _ ▸ mt hcounted.mp hbefore
      refine ⟨iff_of_false ?_ fun h => hbefore h.1, fun h => absurd h.1 hbefore⟩
      rw [counted_analyseRow_of_counted hcount]
      exact Bool.noConfusion

/-- **The two scans agree on the timestamps exactly when some timestamp is an issue, or none
moves.** -/
theorem verdicts_agree_iff (records : List SignalRecord) : VerdictsAgree records ↔
    (AtEach CleanAfter (orderedRecords records) → AtEach StillAfter (orderedRecords records)) := by
  have hentries := entries_agree (orderedRecords records) records.length
  rw [VerdictsAgree, summariseTimestampQuality, analyseTimestampQuality]
  simp only [← hentries, true_and]
  obtain ⟨hcounted, hmemory⟩ := foldl_analyseRow (orderedRecords records)
  generalize (orderedRecords records).foldl analyseRow ({}, {}) = s at hcounted hmemory ⊢
  by_cases hclean : AtEach CleanAfter (orderedRecords records)
  · rw [hcounted.mpr hclean, anyPositive_eq_false, (hmemory hclean).2]
    exact ⟨fun h _ => h.2, fun h => ⟨hcounted.mpr hclean, h hclean⟩⟩
  · have hcount : s.1.counted = true := Bool.not_eq_false _ ▸ mt hcounted.mp hclean
    exact iff_of_true (by rw [anyPositive, hcount]; rfl) fun h => absurd h hclean

/-- Two records of one exchange, a second apart. -/
def secondApart : List SignalRecord :=
  [{ timestampExchangeNs := 1000000000, timestampLocalNs := 1000000000, eventIndex := 1,
     exchange := "BINANCE".toList },
   { timestampExchangeNs := 2000000000, timestampLocalNs := 2000000000, eventIndex := 2,
     sessionElapsedNs := 1000000000, exchange := "BINANCE".toList }]

/-- Nothing is wrong with the two records, and only the first scan reports issues. -/
theorem secondApart_not_agree : ¬ VerdictsAgree secondApart := by
  have hordered : orderedRecords secondApart = secondApart :=
    List.mergeSort_of_pairwise (by decide)
  rw [VerdictsAgree, summariseTimestampQuality, hordered]
  decide +kernel

end TradingInfrastructure
