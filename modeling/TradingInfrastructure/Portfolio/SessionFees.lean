import TradingInfrastructure.Foundations.RecentWrites
import TradingInfrastructure.Portfolio.LiveSessionAccounting

/-!
# The fees of a session

The snapshots of a venue show windows of one stream of fills, and a window never starts before the
one of the last snapshot. The accounting keeps the keys of the last 4096 fills it has counted. Two
windows that overlap are less than 1024 fills apart, so a fill that is shown again is still among
them, and its fee is counted once (`fees_run`).
-/

namespace TradingInfrastructure

/-- What tells the fills of a venue apart. -/
def ReconciledFill.key (fill : ReconciledFill) : CString × ℤ :=
  (fill.venueTradeId, fill.exchangeTsNs)

/-- **A stream of fills** of a venue: no two with the same key, and every trade identity fits its
field. -/
structure FillStream (stream : List ReconciledFill) : Prop where
  keys : (stream.map ReconciledFill.key).Nodup
  fits : ∀ fill ∈ stream, fill.venueTradeId.length < 64

/-- **The snapshots show windows** of the stream, which start at `s` or later and never move
back. -/
def ShowWindows (stream : List ReconciledFill) : ℕ → List ReconciliationSnapshot → Prop
  | _, [] => True
  | s, snapshot :: snapshots =>
    ∃ s', s ≤ s' ∧ snapshot.fills.items <+: stream.drop s' ∧ ShowWindows stream s' snapshots

variable {stream : List ReconciledFill}

theorem FillStream.nodup (h : FillStream stream) : stream.Nodup := h.keys.of_map _

/-- The key that is kept of a fill. -/
def keptKey (fill : ReconciledFill) : SeenFillKey :=
  ⟨strncpyBuf 64 fill.venueTradeId, fill.exchangeTsNs, true⟩

/-- The fill at a position of the stream. -/
def fillAt (stream : List ReconciledFill) (k : ℕ) : ReconciledFill := stream.getD k {}

theorem fillAt_of_getElem? {k : ℕ} {fill : ReconciledFill} (h : stream[k]? = some fill) :
    fillAt stream k = fill := by
  rw [fillAt, List.getD_eq_getElem?_getD, h]
  rfl

/-- A part of a window, one fill on. -/
theorem of_cons_prefix_drop {fill : ReconciledFill} {fills : List ReconciledFill} {p : ℕ}
    (h : fill :: fills <+: stream.drop p) :
    p < stream.length ∧ fillAt stream p = fill ∧ fills <+: stream.drop (p + 1) := by
  have hp : p < stream.length := by
    by_contra hp
    rw [List.drop_eq_nil_of_le (not_lt.mp hp)] at h
    exact absurd (List.prefix_nil.mp h) (List.cons_ne_nil _ _)
  rw [List.drop_eq_getElem_cons hp, List.cons_prefix_cons] at h
  exact ⟨hp, (fillAt_of_getElem? (List.getElem?_eq_getElem hp)).trans h.1.symm, h.2⟩

theorem FillStream.fillAt_inj (h : FillStream stream) {j k : ℕ} (hj : j < stream.length)
    (hk : k < stream.length) (hkey : (fillAt stream j).key = (fillAt stream k).key) : j = k := by
  rw [fillAt_of_getElem? (List.getElem?_eq_getElem hj),
    fillAt_of_getElem? (List.getElem?_eq_getElem hk)] at hkey
  have hj' : j < (stream.map ReconciledFill.key).length := by rwa [List.length_map]
  have hk' : k < (stream.map ReconciledFill.key).length := by rwa [List.length_map]
  refine (@List.Nodup.getElem_inj_iff _ _ h.keys j hj' k hk').mp ?_
  rwa [List.getElem_map, List.getElem_map]

/-- What a window shows. -/
theorem FillStream.mem_window_iff (h : FillStream stream) {fills : List ReconciledFill} {k p : ℕ}
    (hfills : fills <+: stream.drop p) (hk : k < stream.length) :
    fillAt stream k ∈ fills ↔ p ≤ k ∧ k < p + fills.length := by
  induction fills generalizing p with
  | nil =>
    refine iff_of_false (List.not_mem_nil) ?_
    rw [List.length_nil]
    omega
  | cons fill fills ih =>
    obtain ⟨hp, rfl, hrest⟩ := of_cons_prefix_drop hfills
    have hfirst : fillAt stream k = fillAt stream p ↔ k = p :=
      ⟨fun hsame => h.fillAt_inj hk hp (congrArg _ hsame), fun hsame => hsame ▸ rfl⟩
    rw [List.mem_cons, hfirst, ih hrest, List.length_cons]
    omega

/-! ## The keys of a venue -/

namespace AccountingVenue

/-- **The keys that a venue keeps**: of the fills at the positions noted, which a window that now
starts at `s` has shown. -/
structure Remembers (stream : List ReconciledFill) (s : ℕ) (noted : List ℕ)
    (state : AccountingVenue) : Prop where
  trails : Trails 512 s noted
  within : ∀ k ∈ noted, k < stream.length
  ring : RingHolds 4096 {} state.seenFillKeys (noted.map fun k => keptKey (fillAt stream k))
  cursor : state.seenFillCursor = noted.length

variable {s : ℕ} {noted : List ℕ} {state : AccountingVenue}

theorem Remembers.advance (h : Remembers stream s noted state) {s' : ℕ} (hs : s ≤ s') :
    Remembers stream s' noted state :=
  { h with trails := h.trails.advance hs }

theorem isFillSeen_iff_mem {fill : ReconciledFill} :
    state.isFillSeen fill = true ↔ ∃ key ∈ state.seenFillKeys, key.active = true ∧
      key.exchangeTsNs = fill.exchangeTsNs ∧
        strncmpEq 64 key.venueTradeId fill.venueTradeId = true := by
  simp [isFillSeen, and_assoc]

/-- **A fill that the window shows is seen exactly when it was noted**. -/
theorem Remembers.isFillSeen_iff (h : Remembers stream s noted state) (hstream : FillStream stream)
    {k : ℕ} (hk : k < stream.length) (hshown : s ≤ k) :
    state.isFillSeen (fillAt stream k) = true ↔ k ∈ noted := by
  have hfits : ∀ j, j < stream.length → (fillAt stream j).venueTradeId.length < 64 := by
    intro j hj
    rw [fillAt_of_getElem? (List.getElem?_eq_getElem hj)]
    exact hstream.fits _ (List.getElem_mem hj)
  rw [isFillSeen_iff_mem]
  constructor
  · rintro ⟨key, hkey, hactive, htime, hid⟩
    rcases h.ring.only key hkey with rfl | hkept
    · exact absurd hactive (by decide)
    · obtain ⟨j, hj, rfl⟩ := List.mem_map.mp hkept
      have hjs := h.within j hj
      rw [keptKey, strncpyBuf_of_length_lt (hfits j hjs)] at hid
      have hsame := (strncmpEq_of_length_lt (hfits j hjs) (hfits k hk)).mp hid
      exact hstream.fillAt_inj hjs hk (Prod.ext hsame htime) ▸ hj
  · intro hnoted
    obtain ⟨before, after, hsplit⟩ := List.append_of_mem hnoted
    have hafter := h.trails.length_lt hsplit hshown
    have hwritten : noted.map (fun k => keptKey (fillAt stream k)) =
        before.map (fun k => keptKey (fillAt stream k)) ++ keptKey (fillAt stream k) ::
          after.map fun k => keptKey (fillAt stream k) := by
      rw [hsplit, List.map_append, List.map_cons]
    refine ⟨keptKey (fillAt stream k), ?_, rfl, rfl, ?_⟩
    · exact h.ring.mem_of_recent hwritten (by rw [List.length_map]; omega)
    · rw [keptKey, strncpyBuf_of_length_lt (hfits k hk)]
      exact strncmpEq_refl ..

/-- A fill that the window shows and that was not noted is noted. -/
theorem Remembers.rememberFill (h : Remembers stream s noted state) {k : ℕ}
    (hk : k < stream.length) (hlow : s ≤ k) (hhigh : k < s + 512) (hnew : k ∉ noted) :
    Remembers stream s (noted ++ [k]) (state.rememberFill (fillAt stream k)) where
  trails := h.trails.note hlow hhigh hnew
  within := List.forall_mem_append.mpr ⟨h.within, List.forall_mem_singleton.mpr hk⟩
  ring := by
    have hwrite := h.ring.write (by norm_num) (keptKey (fillAt stream k))
    rw [List.length_map, ← h.cursor] at hwrite
    rw [List.map_append]
    exact hwrite
  cursor := by
    rw [List.length_append, ← h.cursor]
    rfl

/-- The fees of the fills at the positions noted. -/
def feesAt (stream : List ReconciledFill) (noted : List ℕ) : ℚ :=
  (noted.map fun k => LiveSessionAccounting.feeToUsd (fillAt stream k)).sum

/-- **The loop over a part of a window** notes the positions that were not noted, and counts their
fees. -/
theorem Remembers.collectLoop (h : Remembers stream s noted state) (hstream : FillStream stream)
    {fills : List ReconciledFill} {p : ℕ} (hfills : fills <+: stream.drop p) (hlow : s ≤ p)
    (hhigh : p + fills.length ≤ s + 512) :
    ∃ noted', Remembers stream s noted' (LiveSessionAccounting.collectLoop state fills).2 ∧
      (∀ k, k ∈ noted' ↔ k ∈ noted ∨ p ≤ k ∧ k < p + fills.length) ∧
      feesAt stream noted + (LiveSessionAccounting.collectLoop state fills).1 =
        feesAt stream noted' := by
  induction fills generalizing state noted p with
  | nil =>
    refine ⟨noted, h, fun k => (or_iff_left ?_).symm, add_zero _⟩
    rw [List.length_nil]
    omega
  | cons fill fills ih =>
    obtain ⟨hp, rfl, hrest⟩ := of_cons_prefix_drop hfills
    have hseen := h.isFillSeen_iff hstream hp hlow
    rw [List.length_cons] at hhigh ⊢
    have hpart : ∀ k, p ≤ k ∧ k < p + (fills.length + 1) ↔
        k = p ∨ p + 1 ≤ k ∧ k < p + 1 + fills.length := by omega
    rw [LiveSessionAccounting.collectLoop]
    by_cases hnoted : p ∈ noted
    · rw [if_pos (hseen.mpr hnoted)]
      obtain ⟨noted', hnoted', hmem, hfees⟩ := ih h hrest (by omega) (by omega)
      refine ⟨noted', hnoted', fun k => ?_, hfees⟩
      have hold : k = p → k ∈ noted := fun hk => hk ▸ hnoted
      rw [hmem, hpart, ← or_assoc, or_iff_left_of_imp hold]
    · rw [if_neg (hseen.not.mpr hnoted)]
      obtain ⟨noted', hnoted', hmem, hfees⟩ :=
        ih (h.rememberFill hp hlow (by omega) hnoted) hrest (by omega) (by omega)
      refine ⟨noted', hnoted', fun k => ?_, ?_⟩
      · rw [hmem, hpart, List.mem_append, List.mem_singleton, or_assoc]
      · rw [← hfees, feesAt, feesAt, List.map_append, List.sum_append, List.map_singleton,
          List.sum_singleton, add_assoc]

/-- A part of a window whose positions are all noted changes nothing. -/
theorem Remembers.collectLoop_of_noted (h : Remembers stream s noted state)
    (hstream : FillStream stream) {fills : List ReconciledFill} {p : ℕ}
    (hfills : fills <+: stream.drop p) (hlow : s ≤ p)
    (hnoted : ∀ k, p ≤ k ∧ k < p + fills.length → k ∈ noted) :
    LiveSessionAccounting.collectLoop state fills = (0, state) := by
  induction fills generalizing p with
  | nil => rfl
  | cons fill fills ih =>
    obtain ⟨hp, rfl, hrest⟩ := of_cons_prefix_drop hfills
    rw [List.length_cons] at hnoted
    have hseen := (h.isFillSeen_iff hstream hp hlow).mpr (hnoted p (by omega))
    rw [LiveSessionAccounting.collectLoop, if_pos hseen]
    exact ih hrest (by omega) fun k hk => hnoted k (by omega)

/-- **A venue that has taken in snapshots**: its fees are those of the fills that they show, each
once. -/
structure Accounted (stream : List ReconciledFill) (s : ℕ)
    (snapshots : List ReconciliationSnapshot) (noted : List ℕ) (state : AccountingVenue) :
    Prop where
  remembers : Remembers stream s noted state
  fees : state.metrics.fees = feesAt stream noted
  shown : ∀ k, k < stream.length →
    (k ∈ noted ↔ ∃ snapshot ∈ snapshots, fillAt stream k ∈ snapshot.fills.items)

variable {snapshots : List ReconciliationSnapshot} {snapshot : ReconciliationSnapshot}

theorem fees_ingestVenue (state : AccountingVenue) (snapshot : ReconciliationSnapshot)
    (symbol : CString) (markPrice : ℚ) :
    (LiveSessionAccounting.ingestVenue state snapshot symbol markPrice).metrics.fees =
      state.metrics.fees + (LiveSessionAccounting.collectLoop state snapshot.fills.items).1 :=
  rfl

/-- **One more snapshot**. -/
theorem Accounted.ingest (h : Accounted stream s snapshots noted state)
    (hstream : FillStream stream) {s' : ℕ} (hs : s ≤ s')
    (hfills : snapshot.fills.items <+: stream.drop s') (symbol : CString) (markPrice : ℚ) :
    ∃ noted', Accounted stream s' (snapshots ++ [snapshot]) noted'
        (LiveSessionAccounting.ingestVenue state snapshot symbol markPrice) ∧
      ∀ k, s' ≤ k ∧ k < s' + snapshot.fills.items.length → k ∈ noted' := by
  have hbound := snapshot.fills.bound
  obtain ⟨noted', hremembers, hmem, hfees⟩ :=
    (h.remembers.advance hs).collectLoop hstream hfills le_rfl (by omega)
  refine ⟨noted', ⟨?_, ?_, fun k hk => ?_⟩, fun k hk => (hmem k).mpr (Or.inr hk)⟩
  · exact ⟨hremembers.trails, hremembers.within, hremembers.ring, hremembers.cursor⟩
  · rw [fees_ingestVenue, h.fees, hfees]
  · rw [hmem, h.shown k hk, ← hstream.mem_window_iff hfills hk]
    simp only [List.mem_append, List.mem_singleton, or_and_right, exists_or, exists_eq_left]

/-- **The same snapshot again** changes nothing of the venue. -/
theorem Accounted.ingest_again (h : Accounted stream s snapshots noted state)
    (hstream : FillStream stream) {s' : ℕ} (hs : s ≤ s')
    (hfills : snapshot.fills.items <+: stream.drop s') (symbol : CString) (markPrice : ℚ) :
    LiveSessionAccounting.ingestVenue
        (LiveSessionAccounting.ingestVenue state snapshot symbol markPrice) snapshot symbol
        markPrice =
      LiveSessionAccounting.ingestVenue state snapshot symbol markPrice := by
  obtain ⟨noted', haccounted, hnoted⟩ := h.ingest hstream hs hfills symbol markPrice
  have hloop := haccounted.remembers.collectLoop_of_noted hstream hfills le_rfl hnoted
  rw [LiveSessionAccounting.ingestVenue, LiveSessionAccounting.collectNewFees, hloop]
  simp only [add_zero]
  rfl

end AccountingVenue

/-! ## A session -/

namespace LiveSessionAccounting

variable {a : LiveSessionAccounting} {exchange : Exchange}

/-- A configuration leaves the fees and the keys of a venue. -/
theorem accounted_configuredVenue {s : ℕ} {snapshots : List ReconciliationSnapshot}
    {noted : List ℕ} {state : AccountingVenue}
    (h : AccountingVenue.Accounted stream s snapshots noted state) (startEquity buffer : ℚ) :
    AccountingVenue.Accounted stream s snapshots noted
      (configuredVenue state startEquity buffer) where
  remembers :=
    ⟨h.remembers.trails, h.remembers.within, h.remembers.ring, h.remembers.cursor⟩
  fees := h.fees
  shown := h.shown

/-- **A run of calls** keeps the account of the snapshots that it brings. -/
theorem accounted_run (hstream : FillStream stream) {calls : List AccountingCall}
    {rest : List ReconciliationSnapshot} :
    ∀ {a : LiveSessionAccounting} {s : ℕ} {snapshots : List ReconciliationSnapshot}
      {noted : List ℕ},
      AccountingVenue.Accounted stream s snapshots noted (a.venues (venueIndex exchange)) →
      ShowWindows stream s (snapshotsOf exchange calls ++ rest) →
      ∃ s' noted',
        AccountingVenue.Accounted stream s' (snapshots ++ snapshotsOf exchange calls) noted'
          ((calls.foldl call a).venues (venueIndex exchange)) ∧
        ShowWindows stream s' rest := by
  induction calls with
  | nil =>
    intro a s snapshots noted h hshow
    exact ⟨s, noted, (List.append_nil snapshots).symm ▸ h, hshow⟩
  | cons c calls ih =>
    intro a s snapshots noted h hshow
    rw [List.foldl_cons]
    rcases venues_call_cases a c exchange with ⟨hc, hvenue⟩ | ⟨hc, startEquity, buffer, hvenue⟩ |
      ⟨snapshot, symbol, markPrice, hc, hvenue⟩
    · rw [snapshotsOf, List.filterMap_cons_none hc] at hshow ⊢
      rw [← hvenue] at h
      exact ih h hshow
    · rw [snapshotsOf, List.filterMap_cons_none hc] at hshow ⊢
      have hkept := accounted_configuredVenue h startEquity buffer
      rw [← hvenue] at hkept
      exact ih hkept hshow
    · rw [snapshotsOf, List.filterMap_cons_some hc] at hshow ⊢
      obtain ⟨s', hs, hfills, hlater⟩ := hshow
      obtain ⟨noted', haccounted, -⟩ := h.ingest hstream hs hfills symbol markPrice
      rw [← hvenue] at haccounted
      rw [List.append_cons]
      exact ih haccounted hlater

theorem accounted_new (stream : List ReconciledFill) (i : Fin 4) :
    AccountingVenue.Accounted stream 0 [] [] (new.venues i) where
  remembers := ⟨trails_nil 512 0, by simp, ringHolds_replicate 4096 ({} : SeenFillKey), rfl⟩
  fees := rfl
  shown := by simp

/-- The fills of a stream that some snapshot shows. -/
def shownFills (stream : List ReconciledFill) (snapshots : List ReconciliationSnapshot) :
    List ReconciledFill :=
  stream.filter fun fill => snapshots.any fun snapshot => decide (fill ∈ snapshot.fills.items)

/-- The positions noted are those of the fills shown. -/
theorem feesAt_eq (hstream : FillStream stream) {s : ℕ} {snapshots : List ReconciliationSnapshot}
    {noted : List ℕ} {state : AccountingVenue}
    (h : AccountingVenue.Accounted stream s snapshots noted state) :
    AccountingVenue.feesAt stream noted = ((shownFills stream snapshots).map feeToUsd).sum := by
  have hinj : ∀ j ∈ noted, ∀ k ∈ noted, fillAt stream j = fillAt stream k → j = k :=
    fun j hj k hk hsame =>
      hstream.fillAt_inj (h.remembers.within j hj) (h.remembers.within k hk) (congrArg _ hsame)
  have hperm : (noted.map (fillAt stream)).Perm (shownFills stream snapshots) := by
    refine (List.perm_ext_iff_of_nodup (h.remembers.trails.nodup.map_on hinj)
      (hstream.nodup.filter _)).mpr fun fill => ?_
    simp only [ List.mem_map, List.mem_filter, List.any_eq_true, decide_eq_true_eq]
    constructor
    · rintro ⟨k, hk, rfl⟩
      have hlt := h.remembers.within k hk
      refine ⟨?_, (h.shown k hlt).mp hk⟩
      rw [fillAt_of_getElem? (List.getElem?_eq_getElem hlt)]
      exact List.getElem_mem hlt
    · rintro ⟨hfill, hshown⟩
      obtain ⟨k, hk, rfl⟩ := List.getElem_of_mem hfill
      have hat : fillAt stream k = stream[k] :=
        fillAt_of_getElem? (List.getElem?_eq_getElem hk)
      exact ⟨k, (h.shown k hk).mpr (hat.symm ▸ hshown), hat⟩
  rw [AccountingVenue.feesAt, ← (hperm.map feeToUsd).sum_eq, List.map_map]
  rfl

/-- **The fees of a venue are those of the fills shown, each counted once**, and the last snapshot
taken in again changes no metric. -/
theorem fees_run (hstream : FillStream stream) (exchange : Exchange) (calls : List AccountingCall)
    (hshow : ShowWindows stream 0 (snapshotsOf exchange calls)) :
    ((calls.foldl call new).venueMetrics exchange).fees =
        ((shownFills stream (snapshotsOf exchange calls)).map feeToUsd).sum ∧
      ∀ snapshot symbol markPrice now now',
        calls.getLast? = some (.ingestReconciliation exchange snapshot symbol markPrice now) →
        (∀ other, (((calls.foldl call new).ingestReconciliation exchange snapshot symbol markPrice
          now').venueMetrics other) = (calls.foldl call new).venueMetrics other) ∧
        ((calls.foldl call new).ingestReconciliation exchange snapshot symbol markPrice
          now').globalMetrics = (calls.foldl call new).globalMetrics := by
  constructor
  · rw [← List.append_nil (snapshotsOf exchange calls)] at hshow
    obtain ⟨s', noted', haccounted, -⟩ := accounted_run hstream (accounted_new stream _) hshow
    rw [venueMetrics, haccounted.fees, feesAt_eq hstream haccounted, List.nil_append]
  · intro snapshot symbol markPrice now now' hlast
    obtain ⟨before, rfl⟩ := List.getLast?_eq_some_iff.mp hlast
    have hsplit : snapshotsOf exchange (before ++
        [.ingestReconciliation exchange snapshot symbol markPrice now]) =
          snapshotsOf exchange before ++ [snapshot] := by
      simp [snapshotsOf, AccountingCall.snapshotOf]
    rw [hsplit] at hshow
    obtain ⟨s', noted', haccounted, s'', hs, hfills, -⟩ :=
      accounted_run hstream (accounted_new stream _) hshow
    have hsame := haccounted.ingest_again hstream hs hfills symbol markPrice
    rw [List.foldl_append, List.foldl_cons, List.foldl_nil, call]
    generalize before.foldl call new = b at hsame
    have hvenues : ((b.ingestReconciliation exchange snapshot symbol markPrice
        now).ingestReconciliation exchange snapshot symbol markPrice now').venues =
          (b.ingestReconciliation exchange snapshot symbol markPrice now).venues := by
      simp only [ingestReconciliation, Function.update_self, Function.update_idem, hsame]
    constructor
    · intro other
      rw [venueMetrics, venueMetrics, hvenues]
    · rw [globalMetrics, globalMetrics, hvenues]

/-- A fill with a fee of two dollars. -/
def twoDollarFill (venueTradeId : CString) (exchangeTsNs : ℤ) : ReconciledFill :=
  { venueTradeId := venueTradeId, symbol := "BTCUSDT".toList, price := 50000, fee := 2,
    feeAsset := "USDT".toList, exchangeTsNs := exchangeTsNs }

/-- Three fills. -/
def threeFills : List ReconciledFill :=
  [twoDollarFill "t1".toList 10, twoDollarFill "t2".toList 10, twoDollarFill "t3".toList 20]

/-- A snapshot that shows two of them. -/
def showsTwo (first : ℕ) : ReconciliationSnapshot :=
  { ReconciliationSnapshot.empty with
    fills := ⟨((threeFills.drop first).take 2).take 512, List.length_take_le ..⟩ }

/-- Two windows that overlap. -/
def overlapping : List AccountingCall :=
  [.ingestReconciliation .binance (showsTwo 0) "BTCUSDT".toList 50000 1,
    .ingestReconciliation .binance (showsTwo 1) "BTCUSDT".toList 50000 2]

theorem fillStream_threeFills : FillStream threeFills := ⟨by decide, by decide⟩

theorem showWindows_overlapping :
    ShowWindows threeFills 0 (snapshotsOf .binance overlapping) :=
  ⟨0, le_rfl, by decide, 1, zero_le_one, by decide, trivial⟩

/-- Their three fees are counted once each. -/
theorem fees_overlapping :
    FillStream threeFills ∧ ShowWindows threeFills 0 (snapshotsOf .binance overlapping) ∧
      ((overlapping.foldl call new).venueMetrics .binance).fees = 6 :=
  ⟨fillStream_threeFills, showWindows_overlapping,
    (fees_run fillStream_threeFills .binance overlapping showWindows_overlapping).1.trans
      (by decide +kernel)⟩

end LiveSessionAccounting

end TradingInfrastructure
