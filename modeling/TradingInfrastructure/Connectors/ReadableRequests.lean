import TradingInfrastructure.Connectors.ReadableReplies

/-!
# Requests that return

An attempt at a request throws where its symbol cannot be mapped, or where a reply cannot be read
(`ReadableAttempt`). The attempts before the last one have returned, so an operation returns exactly
when all the attempts that it makes do (`VenueConnector.succeeds_serve`).
-/

namespace TradingInfrastructure

namespace LiveVenue

variable (lib : VenueLibrary)

/-! ## Before the request -/

/-- The filters of the first symbol of a reply tell their types. -/
def FiltersRead (reply : VenueReply) : Prop :=
  reply.ok = true → Reads lib reply.body fun json => ∀ symbol symbols filters,
    json.find "symbols".toList = some (.array (symbol :: symbols)) →
    symbol.find "filters".toList = some (.array filters) →
      ∀ filter ∈ filters, filter.Fits [(.text, "filterType")]

/-- The symbol of a futures order has a name, and its filters are known or can be read. -/
def FuturesPrepares (exchangeInfo : VenueReply) (filters : SymbolFilters) (symbol : CString) :
    Prop :=
  ∃ mapped, SymbolMapper.mapForBinanceUsdmFutures symbol = some mapped ∧
    (filters.lookup mapped = none → FiltersRead lib exchangeInfo)

/-- What stands before a request does not throw: the symbol that it maps is not empty, and the
filters that it wants can be read. -/
def Prepares (venue : LiveVenue) (request : VenueRequest) (exchangeInfo : VenueReply)
    (filters : SymbolFilters) : Prop :=
  match venue, request with
  | binance, .cancel entry | binance, .query entry _ => entry.symbol.chars ≠ []
  | binanceFutures, .submit order =>
    FuturesPrepares lib exchangeInfo filters order.symbol.chars
  | binanceFutures, .replace entry replacement => entry.symbol = replacement.symbol →
    FuturesPrepares lib exchangeInfo filters replacement.symbol.chars
  | binanceFutures, .cancel entry | binanceFutures, .query entry _ =>
    SymbolMapper.normalizeBinanceFuturesSymbol entry.symbol.chars ≠ []
  | binanceFutures, .cancelAll symbol =>
    symbol ≠ [] → SymbolMapper.normalizeBinanceFuturesSymbol symbol ≠ []
  | kraken, .submit order => order.symbol.chars ≠ []
  | okx, .submit order | coinbase, .submit order =>
    order.type ≠ .stopLimit → order.symbol.chars ≠ []
  | okx, .replace entry replacement => replacement.type ≠ .stopLimit → entry.symbol.chars ≠ []
  | okx, .cancel entry | okx, .query entry _ => entry.symbol.chars ≠ []
  | _, _ => True

/-- What a connector wants of the body of a success. -/
def BodyReads (venue : LiveVenue) (request : VenueRequest) (body : CString) : Prop :=
  match venue, request with
  | binance, .cancel _ | binance, .replace _ _ => Reads lib body BinanceConnector.CancelReads
  | binance, .query _ _ | binanceFutures, .query _ _ =>
    Reads lib body fun json => json.Fits [(.text, "status")]
  | binanceFutures, .cancel _ =>
    Reads lib body fun json => json.has "orderId" = false → json.Fits [(.text, "status")]
  | kraken, .submit _ => Reads lib body KrakenConnector.OrderReads
  | kraken, .cancel _ => Reads lib body fun json => json.Under "result" fun result =>
      result.Fits [(.number, "count")]
  | kraken, .query _ _ => Reads lib body fun json => json.Under "result" KrakenConnector.StatusReads
  | okx, .submit _ => Reads lib body OkxConnector.OrderReads
  | okx, .replace _ _ => Reads lib body fun json => json.FirstFits "data" [(.text, "ordId")]
  | okx, .cancel _ => Reads lib body fun json => json.FirstFits "data" [(.text, "sCode")]
  | okx, .query _ _ => Reads lib body fun json =>
      json.FirstFits "data" [(.number, "accFillSz"), (.number, "avgPx"), (.text, "state")]
  | coinbase, .submit _ | coinbase, .replace _ _ => Reads lib body CoinbaseConnector.OrderReads
  | coinbase, .cancel _ => Reads lib body fun json => json.FirstFits "results" [(.flag, "success")]
  | coinbase, .query _ _ => Reads lib body fun json =>
      json.Under "order" fun order => order.isObject = true → order.Fits
        [(.number, "filled_size"), (.number, "average_filled_price"), (.text, "status")]
  | _, _ => True

/-- **An attempt that can be read**: it can be prepared, and so can the body of a success. -/
structure ReadableAttempt (venue : LiveVenue) (request : VenueRequest) (replies : FuturesReplies)
    (s : RequestState) : Prop where
  prepares : venue.Prepares lib request replies.exchangeInfo s.filters
  reads : venue.sends lib request replies s = true → replies.order.ok = true →
    venue.BodyReads lib request replies.order.body

variable {lib} {venue : LiveVenue} {request : VenueRequest} {exchangeInfo : VenueReply}
  {filters : SymbolFilters} {symbol : CString} {body : CString} {s : RequestState}
  {replies : FuturesReplies}

theorem succeeds_mapSymbol {exchange : Exchange} : Succeeds (mapSymbol exchange symbol) ↔
    symbol ≠ [] := by
  rw [mapSymbol, ne_eq, ← @SymbolMapper.mapForExchange_eq_none exchange]
  cases SymbolMapper.mapForExchange exchange symbol <;> simp

theorem succeeds_mapBinanceFuturesSymbol :
    Succeeds (BinanceFuturesConnector.mapBinanceFuturesSymbol symbol) ↔
      SymbolMapper.normalizeBinanceFuturesSymbol symbol ≠ [] := by
  rw [BinanceFuturesConnector.mapBinanceFuturesSymbol, SymbolMapper.mapForBinanceUsdmFutures,
    ne_eq, ← @SymbolMapper.mapForExchange_eq_none .binance]
  cases SymbolMapper.mapForExchange .binance (SymbolMapper.normalizeBinanceFuturesSymbol symbol) <;>
    simp

theorem succeeds_applyFilter {filter : Json} {out : BinanceFuturesSymbolFilters} :
    Succeeds (BinanceFuturesConnector.applyFilter lib filter out) ↔
      filter.Fits [(.text, "filterType")] := by
  refine Iff.trans (succeeds_bind_of_total fun filterType => ?_) Json.succeeds_text
  split_ifs <;> exact succeeds_pure _

theorem succeeds_applyFilters {rows : List Json} {out : BinanceFuturesSymbolFilters} :
    Succeeds (rows.foldlM (fun out filter => BinanceFuturesConnector.applyFilter lib filter out)
      out) ↔ ∀ filter ∈ rows, filter.Fits [(.text, "filterType")] := by
  induction rows generalizing out with
  | nil => simp
  | cons filter rows ih =>
    rw [List.foldlM_cons, List.forall_mem_cons, ← @succeeds_applyFilter lib filter out]
    exact succeeds_bind_iff fun out' _ => ih

theorem succeeds_parseSymbolFilters :
    Succeeds (BinanceFuturesConnector.parseSymbolFilters lib body) ↔
      Reads lib body fun json => ∀ symbol symbols filters,
        json.find "symbols".toList = some (.array (symbol :: symbols)) →
        symbol.find "filters".toList = some (.array filters) →
          ∀ filter ∈ filters, filter.Fits [(.text, "filterType")] := by
  unfold BinanceFuturesConnector.parseSymbolFilters Reads
  cases lib.parse body with
  | none => simp
  | some json =>
    simp only [Option.bind_some, Option.some.injEq, forall_eq']
    split
    · next symbol symbols hsymbols =>
      rw [hsymbols]
      split
      · next rows hrows =>
        rw [succeeds_bind_of_total, succeeds_applyFilters]
        · constructor
          · rintro h symbol' symbols' rows' heq hrows'
            cases heq
            cases hrows.symm.trans hrows'
            exact h
          · exact fun h => h symbol symbols rows rfl hrows
        · intro out
          split_ifs <;> exact succeeds_pure _
      · next hother =>
        refine iff_of_true (succeeds_pure _) fun symbol' symbols' rows heq hrows => ?_
        cases heq
        exact absurd hrows (hother rows)
    · next hother =>
      exact iff_of_true (succeeds_pure _) fun symbol symbols _ heq =>
        absurd heq (hother symbol symbols)

theorem succeeds_getSymbolFilters :
    Succeeds (BinanceFuturesConnector.getSymbolFilters lib filters symbol exchangeInfo) ↔
      (filters.lookup symbol = none → FiltersRead lib exchangeInfo) := by
  unfold BinanceFuturesConnector.getSymbolFilters FiltersRead
  cases filters.lookup symbol with
  | some cached => simp
  | none =>
    cases hok : exchangeInfo.ok with
    | false => simp
    | true =>
      simp only [Bool.not_true, Bool.false_eq_true, if_false, forall_const,
        ← succeeds_parseSymbolFilters]
      refine succeeds_bind_of_total fun parsed => ?_
      cases parsed <;> exact succeeds_pure _

theorem succeeds_prepareFutures {order : Order} :
    Succeeds (BinanceFuturesConnector.prepare lib filters order exchangeInfo) ↔
      FuturesPrepares lib exchangeInfo filters order.symbol.chars := by
  unfold BinanceFuturesConnector.prepare FuturesPrepares
    BinanceFuturesConnector.mapBinanceFuturesSymbol
  cases SymbolMapper.mapForBinanceUsdmFutures order.symbol.chars with
  | none => simp
  | some mapped =>
    simp only [Option.some.injEq, exists_eq_left', ok_bind, ← succeeds_getSymbolFilters]
    refine succeeds_bind_of_total fun x => ?_
    obtain ⟨result | found, cache⟩ := x
    · exact succeeds_pure _
    · dsimp only
      split_ifs <;> exact succeeds_pure _

/-- A request that maps its symbol before anything else. -/
theorem succeeds_mapped {exchange : Exchange} : Succeeds (do
    let _ ← mapSymbol exchange symbol
    return (ConnectorResult.ok, filters) : Except ReplyFault (ConnectorResult × SymbolFilters)) ↔
      symbol ≠ [] :=
  (succeeds_bind_of_total fun _ => succeeds_pure _).trans succeeds_mapSymbol

@[inherit_doc succeeds_mapped]
theorem succeeds_mappedFutures : Succeeds (do
    let _ ← BinanceFuturesConnector.mapBinanceFuturesSymbol symbol
    return (ConnectorResult.ok, filters) : Except ReplyFault (ConnectorResult × SymbolFilters)) ↔
      SymbolMapper.normalizeBinanceFuturesSymbol symbol ≠ [] :=
  (succeeds_bind_of_total fun _ => succeeds_pure _).trans succeeds_mapBinanceFuturesSymbol

/-- An order that passes the test of the Binance connector has a symbol. -/
theorem ne_nil_of_validateOrderRequest {order : Order}
    (h : BinanceConnector.validateOrderRequest order = true) : order.symbol.chars ≠ [] := by
  simp only [BinanceConnector.validateOrderRequest, Bool.and_eq_true, Bool.not_eq_true',
    List.isEmpty_eq_false_iff] at h
  exact h.1.1.1

theorem succeeds_prepare : Succeeds (venue.prepare lib request exchangeInfo filters) ↔
    venue.Prepares lib request exchangeInfo filters := by
  cases venue with
  | binance =>
    cases request with
    | submit order =>
      simp only [prepare, Prepares, iff_true]
      cases hvalid : BinanceConnector.validateOrderRequest order with
      | false => exact succeeds_pure _
      | true => exact succeeds_mapped.mpr (ne_nil_of_validateOrderRequest hvalid)
    | cancel entry => exact succeeds_mapped
    | replace entry replacement =>
      simp only [prepare, Prepares, iff_true]
      cases hvalid : BinanceConnector.validateOrderRequest replacement with
      | false => exact succeeds_pure _
      | true =>
        by_cases hsymbol : entry.symbol = replacement.symbol
        · simp only [hsymbol, ne_eq, not_true_eq_false, Bool.not_true, Bool.false_eq_true, if_false]
          exact succeeds_mapped.mpr (ne_nil_of_validateOrderRequest hvalid)
        · simp [hsymbol]
    | query entry nowNs => exact succeeds_mapped
    | cancelAll symbol =>
      simp only [prepare, Prepares, iff_true]
      by_cases hsymbol : symbol = []
      · simp [hsymbol]
      · rw [if_neg hsymbol]
        exact succeeds_mapped.mpr hsymbol
  | binanceFutures =>
    cases request with
    | submit order => exact succeeds_prepareFutures
    | cancel entry => exact succeeds_mappedFutures
    | replace entry replacement =>
      simp only [prepare, Prepares]
      by_cases hsymbol : entry.symbol = replacement.symbol
      · simp only [hsymbol, ne_eq, not_true_eq_false, if_false, forall_const]
        exact succeeds_prepareFutures
      · simp [hsymbol]
    | query entry nowNs => exact succeeds_mappedFutures
    | cancelAll symbol =>
      simp only [prepare, Prepares]
      by_cases hsymbol : symbol = []
      · simp [hsymbol]
      · simp only [hsymbol, if_false, ne_eq, not_false_eq_true, forall_const]
        exact succeeds_mappedFutures
  | kraken =>
    cases request with
    | submit order => exact succeeds_mapped
    | _ => exact iff_of_true (succeeds_pure _) trivial
  | okx =>
    cases request with
    | submit order =>
      simp only [prepare, Prepares]
      by_cases htype : order.type = .stopLimit
      · simp [htype]
      · simp only [htype, if_false, ne_eq, not_false_eq_true, forall_const]
        exact succeeds_mapped
    | cancel entry => exact succeeds_mapped
    | replace entry replacement =>
      simp only [prepare, Prepares]
      by_cases htype : replacement.type = .stopLimit
      · simp [htype]
      · simp only [htype, if_false, ne_eq, not_false_eq_true, forall_const]
        exact succeeds_mapped
    | query entry nowNs => exact succeeds_mapped
    | cancelAll symbol => exact iff_of_true (succeeds_pure _) trivial
  | coinbase =>
    cases request with
    | submit order =>
      simp only [prepare, Prepares]
      by_cases htype : order.type = .stopLimit
      · simp [htype]
      · simp only [htype, if_false, ne_eq, not_false_eq_true, forall_const]
        exact succeeds_mapped
    | replace entry replacement =>
      simp only [prepare, Prepares, iff_true]
      split_ifs <;> exact succeeds_pure _
    | _ => exact iff_of_true (succeeds_pure _) trivial

/-! ## The body of a success -/

theorem succeeds_readBody : Succeeds (venue.readBody lib request body s) ↔
    venue.BodyReads lib request body := by
  cases venue with
  | binance =>
    cases request with
    | submit order => exact iff_of_true (succeeds_pure _) trivial
    | cancel entry =>
      exact (succeeds_bind_of_total fun _ => succeeds_pure _).trans
        BinanceConnector.succeeds_parseCancelResult
    | replace entry replacement =>
      refine (succeeds_bind_of_total fun cancelled => ?_).trans
        BinanceConnector.succeeds_parseCancelResult
      split_ifs <;> exact succeeds_pure _
    | query entry nowNs =>
      exact (succeeds_bind_of_total fun _ => succeeds_pure _).trans
        BinanceConnector.succeeds_parseQueryStatus
    | cancelAll symbol =>
      refine iff_of_true ?_ trivial
      unfold readBody
      dsimp only
      split <;> exact succeeds_pure _
  | binanceFutures =>
    cases request with
    | cancel entry =>
      exact (succeeds_bind_of_total fun _ => succeeds_pure _).trans
        BinanceFuturesConnector.succeeds_parseCancelResult
    | query entry nowNs =>
      exact (succeeds_bind_of_total fun _ => succeeds_pure _).trans
        BinanceFuturesConnector.succeeds_parseQueryStatus
    | _ => exact iff_of_true (succeeds_pure _) trivial
  | kraken =>
    cases request with
    | submit order =>
      exact KrakenConnector.succeeds_order (f := fun id => (.ok, { s with venueOrderId := id }))
        (g := fun id result => (result, { s with venueOrderId := id }))
    | cancel entry =>
      exact (succeeds_bind_of_total fun _ => succeeds_pure _).trans
        KrakenConnector.succeeds_parseCancelResult
    | query entry nowNs =>
      exact (succeeds_bind_of_total fun _ => succeeds_pure _).trans
        KrakenConnector.succeeds_parseQueryStatus
    | _ => exact iff_of_true (succeeds_pure _) trivial
  | okx =>
    cases request with
    | submit order =>
      exact OkxConnector.succeeds_order (f := fun id => (.ok, { s with venueOrderId := id }))
        (g := fun id result => (result, { s with venueOrderId := id }))
    | cancel entry =>
      exact (succeeds_bind_of_total fun _ => succeeds_pure _).trans
        OkxConnector.succeeds_parseCancelResult
    | replace entry replacement =>
      exact (succeeds_bind_of_total fun _ => succeeds_pure _).trans
        OkxConnector.succeeds_parseOrderId
    | query entry nowNs =>
      exact (succeeds_bind_of_total fun _ => succeeds_pure _).trans
        OkxConnector.succeeds_parseQueryStatus
    | cancelAll symbol => exact iff_of_true (succeeds_pure _) trivial
  | coinbase =>
    cases request with
    | submit order =>
      exact (succeeds_bind_of_total fun _ => succeeds_pure _).trans
        CoinbaseConnector.succeeds_parseOrderId
    | cancel entry =>
      exact (succeeds_bind_of_total fun _ => succeeds_pure _).trans
        CoinbaseConnector.succeeds_parseCancelResult
    | replace entry replacement =>
      exact (succeeds_bind_of_total fun _ => succeeds_pure _).trans
        CoinbaseConnector.succeeds_parseOrderId
    | query entry nowNs =>
      exact (succeeds_bind_of_total fun _ => succeeds_pure _).trans
        CoinbaseConnector.succeeds_parseQueryStatus
    | cancelAll symbol => exact iff_of_true (succeeds_pure _) trivial

/-! ## Attempts -/

theorem succeeds_attempt : Succeeds (venue.attempt lib request replies s) ↔
    venue.ReadableAttempt lib request replies s := by
  have hprepare := @succeeds_prepare lib venue request replies.exchangeInfo s.filters
  have hsends : venue.sends lib request replies s = true ↔
      ∃ filters, venue.prepare lib request replies.exchangeInfo s.filters = .ok (.ok, filters) := by
    unfold sends
    split
    · next filters heq => exact iff_of_true rfl ⟨filters, heq⟩
    · next hother =>
      exact iff_of_false Bool.false_ne_true fun ⟨filters, heq⟩ => hother filters heq
  rw [attempt_eq lib venue request replies s]
  cases heq : venue.prepare lib request replies.exchangeInfo s.filters with
  | error fault =>
    rw [heq] at hprepare
    refine iff_of_false (not_succeeds_error _) fun h => ?_
    exact not_succeeds_error _ (hprepare.mpr h.prepares)
  | ok x =>
    obtain ⟨result, filters⟩ := x
    rw [heq] at hprepare hsends
    simp only [Except.ok.injEq, Prod.mk.injEq, exists_and_left, exists_eq', and_true] at hsends
    have hprepares := hprepare.mp (succeeds_ok _)
    simp only [ok_bind]
    by_cases hok : result = .ok
    · simp only [hok, ne_eq, not_true_eq_false, if_false, read]
      have hsent := hsends.mpr hok
      cases hreply : replies.order.ok with
      | false =>
        exact iff_of_true (succeeds_pure _)
          ⟨hprepares, fun _ h => absurd (hreply.symm.trans h) Bool.false_ne_true⟩
      | true =>
        simp only [Bool.not_true, Bool.false_eq_true, if_false, succeeds_readBody]
        exact ⟨fun h => ⟨hprepares, fun _ _ => h⟩, fun h => h.reads hsent hreply⟩
    · simp only [hok, ne_eq, not_false_eq_true, if_true]
      exact iff_of_true (succeeds_pure _)
        ⟨hprepares, fun h => absurd (hsends.mp h) hok⟩

end LiveVenue

/-! ## Operations -/

namespace VenueConnector

variable {lib : VenueLibrary} {c : VenueConnector} {operation : VenueOperation}
  {replies : ℕ → FuturesReplies} {opened opened' : Bool}

theorem succeeds_reading {request : VenueRequest} {x : ℕ × RequestState} :
    Succeeds (c.reading lib request replies x) ↔
      c.venue.ReadableAttempt lib request (replies x.1) x.2 := by
  rw [← LiveVenue.succeeds_attempt, reading, LiveVenue.attemptAt]
  cases c.venue.attempt lib request (replies x.1) x.2 with
  | error fault => exact iff_of_false (not_succeeds_error _) (not_succeeds_error _)
  | ok y => exact iff_of_true (succeeds_ok _) (succeeds_ok _)

/-- **An operation returns** exactly when the attempts that it makes can be read. -/
theorem succeeds_serve : Succeeds (c.serve lib operation replies opened opened').1 ↔
    ∀ request base, c.asks operation opened opened' = some (request, base) →
      ∀ x ∈ c.made lib operation replies opened opened',
        c.venue.ReadableAttempt lib request (replies x.1) x.2 := by
  cases hasks : c.asks operation opened opened' with
  | none =>
    refine iff_of_true ?_ fun request base h => by cases h
    exact serve_of_not_asks hasks
  | some asked =>
    obtain ⟨request, base⟩ := asked
    refine Iff.trans ?_ (b := ∀ x ∈ c.made lib operation replies opened opened',
      c.venue.ReadableAttempt lib request (replies x.1) x.2)
      ⟨fun h _ _ heq => by cases heq; exact h, fun h => h request base rfl⟩
    rcases @serve_of_made lib c operation replies opened opened' request base hasks with
      ⟨hmade, hcomes⟩ | ⟨x, hlast, hmore, hcomes⟩
    · refine iff_of_true ?_ fun y hy => ?_
      · rw [hcomes.result]
        exact succeeds_ok _
      · rw [hmade] at hy
        cases hy
    · -- the attempts before the last one have returned something that another one follows
      have hlastReads : Succeeds (c.serve lib operation replies opened opened').1 ↔
          c.venue.ReadableAttempt lib request (replies x.1) x.2 := by
        rw [hcomes.result, ← succeeds_reading, reading]
        cases (c.venue.attemptAt lib request replies x.1 x.2).1 with
        | error fault => exact iff_of_false (not_succeeds_error _) (not_succeeds_error _)
        | ok result => exact iff_of_true (succeeds_ok _) (succeeds_ok _)
      rw [hlastReads]
      refine ⟨fun h y hy => ?_, fun h => h x (List.mem_of_getLast? hlast)⟩
      rcases hmore y hy with hretried | rfl
      · rw [← succeeds_reading]
        cases hreading : c.reading lib request replies y with
        | error fault =>
          rw [hreading] at hretried
          cases hretried
        | ok result => exact succeeds_ok _
      · exact h

end VenueConnector

end TradingInfrastructure
