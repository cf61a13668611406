import TradingInfrastructure.Common.SymbolMapper
import TradingInfrastructure.Connectors.LiveConnectorBase
import TradingInfrastructure.Foundations.Runs

/-!
# The cancels of the kill switch

`issue_kill_switch_cancels` of `core/engine/trading_engine_main.cpp` and the five
`cancel_all_at_venue` that it calls. The engine calls it wherever it finds the kill switch active,
and sets a flag the first time, so each enabled venue is asked once, whatever comes of it. The
connectors of OKX and Coinbase return an error without a request. So every order is covered, and no
failed attempt left alone, exactly when the one attempt at each enabled venue succeeds and covers
all its orders (`covered_iff`).

The replies of the venues are arguments. An exception of the symbol mapper ends the engine.
-/

namespace TradingInfrastructure

/-! ## Replies of the venues -/

/-- A value of `nlohmann::json`. -/
inductive JsonValue
  | string (s : CString)
  | integer (n : ℤ)
  | array (items : List JsonValue)
  | object (fields : List (CString × JsonValue))
  | other

namespace JsonValue

/-- `find`, which finds nothing in a value that is no object. -/
def find (key : CString) : JsonValue → Option JsonValue
  | object fields => (fields.find? fun field => field.1 == key).map Prod.snd
  | _ => none

/-- `json_string`. -/
def textAt (key : CString) (json : JsonValue) : CString :=
  match json.find key with
  | some (string s) => s
  | some (integer n) => (toString n).toList
  | _ => []

end JsonValue

/-- `http::HttpResponse`, with its body as `nlohmann::json::parse` reads it, if it can. -/
structure HttpResponse where
  status : ℤ
  json : Option JsonValue

namespace HttpResponse

/-- `ok`. -/
def ok (response : HttpResponse) : Bool := 200 ≤ response.status && response.status < 300

/-- `classify_http_error`. -/
def classifyHttpError (status : ℤ) : ConnectorResult :=
  if status = 401 ∨ status = 403 then .authFailed
  else if status = 429 then .errorRateLimit
  else if status ≥ 500 then .errorRestFailure
  else if status ≥ 400 then .errorInvalidOrder
  else .errorUnknown

/-- The text contains the word. -/
def contains (text word : CString) : Bool := text.tails.any word.isPrefixOf

/-- `classify_order_response` of the Binance connector. -/
def classifyOrderResponse (response : HttpResponse) : ConnectorResult :=
  let insufficient := match response.json with
    | some json =>
      let message := json.textAt "msg".toList
      contains message "insufficient".toList || contains message "Insufficient".toList
    | none => false
  if insufficient then .errorInsufficientFunds else classifyHttpError response.status

/-- `classify_response` of the Binance futures connector. -/
def classifyResponse (response : HttpResponse) : ConnectorResult :=
  match response.json.bind (·.find "code".toList) with
  | some (.integer code) =>
    if code = -2015 ∨ code = -2014 then .authFailed
    else if code = -1003 ∨ code = -1008 ∨ code = -1015 then .errorRateLimit
    else if code = -1021 then .errorRestFailure
    else if code = -2022 then .errorInvalidOrder
    else classifyHttpError response.status
  | _ => classifyHttpError response.status

end HttpResponse

/-! ## Cancelling everything at a venue -/

/-- The connectors of the engine. -/
inductive LiveVenue
  | binance | binanceFutures | kraken | okx | coinbase
  deriving DecidableEq, Repr

/-- The request for a symbol, or for the account. -/
inductive CancelAllRequest
  | openOrders (symbol : CString)
  | allOpenOrders (symbol : CString)
  | cancelAll
  deriving DecidableEq

/-- An attempt to cancel everything at a venue: what was requested, if anything, and what the
connector returned. -/
structure CancelAttempt where
  venue : LiveVenue
  request : Option CancelAllRequest
  result : ConnectorResult
  deriving DecidableEq

namespace LiveVenue

/-- What the connector makes of the reply to its request. -/
def readReply (venue : LiveVenue) (reply : HttpResponse) : ConnectorResult :=
  match venue with
  | binance =>
    if !reply.ok then reply.classifyOrderResponse
    else match reply.json with
      | some (.array _) => .ok
      | _ => .errorUnknown
  | binanceFutures =>
    if !reply.ok then reply.classifyResponse
    else match reply.json with
      | some _ => .ok
      | none => .errorUnknown
  | kraken =>
    if !reply.ok then HttpResponse.classifyHttpError reply.status
    else match reply.json.bind (·.find "result".toList) with
      | some _ => .ok
      | none => .errorUnknown
  | okx | coinbase => .errorInvalidOrder

/-- `cancel_all` of the connector. It throws when a symbol cannot be mapped. -/
def cancelAll (venue : LiveVenue) (symbol : CString) (reply : HttpResponse) :
    Option CancelAttempt :=
  match venue with
  | binance =>
    if symbol = [] then some ⟨venue, none, .errorInvalidOrder⟩
    else (SymbolMapper.mapForExchange .binance symbol).map fun mapped =>
      ⟨venue, some (.openOrders mapped), venue.readReply reply⟩
  | binanceFutures =>
    if symbol = [] then some ⟨venue, none, .errorInvalidOrder⟩
    else (SymbolMapper.mapForBinanceUsdmFutures symbol).map fun mapped =>
      ⟨venue, some (.allOpenOrders mapped), venue.readReply reply⟩
  | kraken => some ⟨venue, some .cancelAll, venue.readReply reply⟩
  | okx | coinbase => some ⟨venue, none, venue.readReply reply⟩

end LiveVenue

/-- The request cancels an order that is mapped at the venue. -/
def CancelAllRequest.Covers (request : CancelAllRequest) (entry : VenueOrderEntry) : Prop :=
  match request with
  | openOrders symbol => SymbolMapper.mapForExchange .binance entry.symbol.chars = some symbol
  | allOpenOrders symbol => SymbolMapper.mapForBinanceUsdmFutures entry.symbol.chars = some symbol
  | cancelAll => True

instance (request : CancelAllRequest) (entry : VenueOrderEntry) : Decidable
    (request.Covers entry) := by
  cases request <;> unfold CancelAllRequest.Covers <;> infer_instance

/-! ## The engine -/

/-- What the engine was started with. -/
structure EngineVenues where
  runBinance : Bool
  binanceFuturesEnabled : Bool
  runKraken : Bool
  runOkx : Bool
  runCoinbase : Bool
  symbol : CString

namespace EngineVenues

/-- The enabled venues, in the order in which they are asked. -/
def enabled (v : EngineVenues) : List LiveVenue :=
  [(v.runBinance, LiveVenue.binance), (v.binanceFuturesEnabled, .binanceFutures),
    (v.runKraken, .kraken), (v.runOkx, .okx), (v.runCoinbase, .coinbase)].filterMap
      fun venue => if venue.1 then some venue.2 else none

end EngineVenues

/-- The engine: its flag, whether an exception has ended it, and the attempts so far. -/
structure KillSwitchEngine where
  cancelIssued : Bool := false
  ended : Bool := false
  attempts : List CancelAttempt := []

namespace KillSwitchEngine

/-- One venue after another is asked, until one throws. -/
def attemptAll (symbol : CString) (replies : LiveVenue → HttpResponse) :
    List LiveVenue → KillSwitchEngine → KillSwitchEngine
  | [], e => e
  | venue :: venues, e =>
    match venue.cancelAll symbol (replies venue) with
    | none => { e with ended := true }
    | some attempt =>
      attemptAll symbol replies venues { e with attempts := e.attempts ++ [attempt] }

/-- `issue_kill_switch_cancels`, for the kill switch as it is and the replies of the venues. -/
def issueKillSwitchCancels (v : EngineVenues) (e : KillSwitchEngine)
    (call : Bool × (LiveVenue → HttpResponse)) : KillSwitchEngine :=
  if e.ended || e.cancelIssued || !call.1 then e
  else attemptAll v.symbol call.2 v.enabled { e with cancelIssued := true }

/-- What is left when the engine exits, after any number of calls. -/
def run (v : EngineVenues) (calls : List (Bool × (LiveVenue → HttpResponse))) : KillSwitchEngine :=
  calls.foldl (issueKillSwitchCancels v) {}

/-- **Every order is covered**: for each order that is mapped at an enabled venue a cancel has been
sent to it, each attempt that has failed is followed by another one at its venue, and none has
thrown, which ends the engine. -/
structure Covered (v : EngineVenues) (maps : LiveVenue → VenueOrderMap) (e : KillSwitchEngine) :
    Prop where
  sent : ∀ venue ∈ v.enabled, ∀ entry ∈ maps venue, entry.active = true →
    ∃ a ∈ e.attempts, a.venue = venue ∧ ∃ request, a.request = some request ∧ request.Covers entry
  retried : ∀ (i : ℕ) a, e.attempts[i]? = some a → a.result ≠ .ok →
    ∃ (j : ℕ) (b : CancelAttempt), i < j ∧ e.attempts[j]? = some b ∧ b.venue = a.venue
  running : e.ended = false

end KillSwitchEngine

namespace LiveVenue

/-- A success, with the body that the venue has for it. -/
def Accepts (venue : LiveVenue) (reply : HttpResponse) : Prop :=
  reply.ok = true ∧
    match venue with
    | binance => ∃ items, reply.json = some (.array items)
    | binanceFutures => ∃ json, reply.json = some json
    | kraken => ∃ result, reply.json.bind (·.find "result".toList) = some result
    | okx | coinbase => True

/-- The one request of the connector is made, accepted, and cancels all orders that are mapped. -/
def CancelsAll (venue : LiveVenue) (symbol : CString) (reply : HttpResponse) (m : VenueOrderMap) :
    Prop :=
  match venue with
  | binance => symbol ≠ [] ∧ venue.Accepts reply ∧ ∀ entry ∈ m, entry.active = true →
      SymbolMapper.mapForExchange .binance entry.symbol.chars =
        SymbolMapper.mapForExchange .binance symbol
  | binanceFutures => SymbolMapper.mapForBinanceUsdmFutures symbol ≠ none ∧ venue.Accepts reply ∧
      ∀ entry ∈ m, entry.active = true →
        SymbolMapper.mapForBinanceUsdmFutures entry.symbol.chars =
          SymbolMapper.mapForBinanceUsdmFutures symbol
  | kraken => venue.Accepts reply
  | okx | coinbase => False

/-! ## One attempt -/

theorem classifyHttpError_ne_ok (status : ℤ) : HttpResponse.classifyHttpError status ≠ .ok := by
  unfold HttpResponse.classifyHttpError
  split_ifs <;> decide

theorem classifyOrderResponse_ne_ok (reply : HttpResponse) : reply.classifyOrderResponse ≠ .ok := by
  unfold HttpResponse.classifyOrderResponse
  simp only
  split_ifs
  · decide
  · exact classifyHttpError_ne_ok _

theorem classifyResponse_ne_ok (reply : HttpResponse) : reply.classifyResponse ≠ .ok := by
  unfold HttpResponse.classifyResponse
  split
  · split_ifs
    · decide
    · decide
    · decide
    · decide
    · exact classifyHttpError_ne_ok _
  · exact classifyHttpError_ne_ok _

variable {venue : LiveVenue} {symbol : CString} {reply : HttpResponse} {m : VenueOrderMap}
  {a : CancelAttempt}

theorem venue_of_cancelAll (h : venue.cancelAll symbol reply = some a) : a.venue = venue := by
  cases venue with
  | binance | binanceFutures =>
    unfold cancelAll at h
    simp only at h
    split_ifs at h
    · rw [← Option.some.inj h]
    · obtain ⟨mapped, -, rfl⟩ := Option.map_eq_some_iff.mp h
      rfl
  | kraken | okx | coinbase => rw [← Option.some.inj h]

/-- A reply is read as OK when it is a success with the right body. -/
theorem readReply_eq_ok (hokx : venue ≠ .okx) (hcoinbase : venue ≠ .coinbase) :
    venue.readReply reply = .ok ↔ venue.Accepts reply := by
  cases venue with
  | binance =>
    unfold readReply Accepts
    cases hok : reply.ok with
    | false => simpa using classifyOrderResponse_ne_ok reply
    | true =>
      simp only [Bool.not_true, Bool.false_eq_true, if_false, true_and]
      split
      · next items hjson => simp [hjson]
      · next hne =>
        refine iff_of_false (by decide) ?_
        rintro ⟨items, hjson⟩
        exact hne items hjson
  | binanceFutures =>
    unfold readReply Accepts
    cases hok : reply.ok with
    | false => simpa using classifyResponse_ne_ok reply
    | true =>
      simp only [Bool.not_true, Bool.false_eq_true, if_false, true_and]
      cases reply.json <;> simp
  | kraken =>
    unfold readReply Accepts
    cases hok : reply.ok with
    | false =>
      simp only [Bool.not_false, if_true]
      exact iff_of_false (classifyHttpError_ne_ok reply.status) fun h => absurd h.1 (by decide)
    | true =>
      simp only [Bool.not_true, Bool.false_eq_true, if_false, true_and]
      cases reply.json.bind (·.find "result".toList) <;> simp
  | okx => exact absurd rfl hokx
  | coinbase => exact absurd rfl hcoinbase

/-- The normalised futures symbol of an empty one is empty. -/
theorem mapForBinanceUsdmFutures_nil : SymbolMapper.mapForBinanceUsdmFutures [] = none := by
  decide

/-- **One attempt is enough** exactly when the request is made, accepted, and about all orders. -/
theorem cancelsAll_iff :
    venue.CancelsAll symbol reply m ↔ ∃ a, venue.cancelAll symbol reply = some a ∧ a.result = .ok ∧
      ∀ entry ∈ m, entry.active = true → ∃ request, a.request = some request ∧
        request.Covers entry := by
  cases venue with
  | binance =>
    have hread := @readReply_eq_ok .binance reply (by decide) (by decide)
    by_cases hsymbol : symbol = []
    · simp [CancelsAll, cancelAll, hsymbol]
    · obtain ⟨mapped, hmapped⟩ := Option.ne_none_iff_exists'.mp
        (mt (@SymbolMapper.mapForExchange_eq_none .binance symbol).mp hsymbol)
      simp [CancelsAll, cancelAll, hsymbol, hmapped, hread, CancelAllRequest.Covers]
  | binanceFutures =>
    have hread := @readReply_eq_ok .binanceFutures reply (by decide) (by decide)
    by_cases hsymbol : symbol = []
    · simp [CancelsAll, cancelAll, hsymbol, mapForBinanceUsdmFutures_nil]
    · cases hmapped : SymbolMapper.mapForBinanceUsdmFutures symbol with
      | none => simp [CancelsAll, cancelAll, hsymbol, hmapped]
      | some mapped =>
        simp [CancelsAll, cancelAll, hsymbol, hmapped, hread, CancelAllRequest.Covers]
  | kraken =>
    have hread := @readReply_eq_ok .kraken reply (by decide) (by decide)
    simp [CancelsAll, cancelAll, hread, CancelAllRequest.Covers]
  | okx | coinbase => simp [CancelsAll, cancelAll, readReply]

end LiveVenue

/-! ## Runs of the engine -/

namespace KillSwitchEngine

variable {v : EngineVenues} {symbol : CString} {replies : LiveVenue → HttpResponse}
  {venues : List LiveVenue} {e : KillSwitchEngine} {maps : LiveVenue → VenueOrderMap}

theorem nodup_enabled (v : EngineVenues) : v.enabled.Nodup := by
  unfold EngineVenues.enabled
  cases v.runBinance <;> cases v.binanceFuturesEnabled <;> cases v.runKraken <;> cases v.runOkx <;>
    cases v.runCoinbase <;> decide

/-- **The attempts**, when none of them throws: one at each venue. -/
theorem attemptAll_of_some {attempt : LiveVenue → CancelAttempt}
    (h : ∀ venue ∈ venues, venue.cancelAll symbol (replies venue) = some (attempt venue)) :
    attemptAll symbol replies venues e =
      { e with attempts := e.attempts ++ venues.map attempt } := by
  induction venues generalizing e with
  | nil => simp [attemptAll]
  | cons venue venues ih =>
    rw [attemptAll, h venue (by simp)]
    simp only
    rw [ih fun venue' hmem => h venue' (by simp [hmem])]
    simp

/-- An attempt that throws ends the engine. -/
theorem ended_attemptAll {venue : LiveVenue} (hmem : venue ∈ venues)
    (h : venue.cancelAll symbol (replies venue) = none) :
    (attemptAll symbol replies venues e).ended = true := by
  induction venues generalizing e with
  | nil => cases hmem
  | cons venue' venues ih =>
    rw [attemptAll]
    cases hattempt : venue'.cancelAll symbol (replies venue') with
    | none => rfl
    | some a =>
      rcases List.mem_cons.mp hmem with rfl | hmem
      · rw [h] at hattempt
        cases hattempt
      · exact ih hmem

theorem cancelIssued_attemptAll : (attemptAll symbol replies venues e).cancelIssued =
    e.cancelIssued := by
  induction venues generalizing e with
  | nil => rfl
  | cons venue venues ih =>
    rw [attemptAll]
    cases venue.cancelAll symbol (replies venue) with
    | none => rfl
    | some a => exact ih

/-- **Only the first call with an active kill switch does anything.** -/
theorem run_eq {quiet later : List (Bool × (LiveVenue → HttpResponse))}
    (hquiet : ∀ call ∈ quiet, call.1 = false) :
    run v (quiet ++ (true, replies) :: later) =
      attemptAll v.symbol replies v.enabled { cancelIssued := true } := by
  have hinactive : ∀ (e : KillSwitchEngine) (call : Bool × (LiveVenue → HttpResponse)),
      e = {} → call.1 = false → issueKillSwitchCancels v e call = {} := by
    rintro e call rfl hcall
    simp [issueKillSwitchCancels, hcall]
  have hstart : quiet.foldl (issueKillSwitchCancels v) {} = {} :=
    foldl_induction hinactive rfl hquiet
  have hdone : ∀ (e : KillSwitchEngine) (call : Bool × (LiveVenue → HttpResponse)),
      (e.cancelIssued = true ∧ e = attemptAll v.symbol replies v.enabled { cancelIssued := true }) →
      True → (issueKillSwitchCancels v e call).cancelIssued = true ∧
        issueKillSwitchCancels v e call =
          attemptAll v.symbol replies v.enabled { cancelIssued := true } := by
    rintro e call ⟨hissued, he⟩ -
    have hsame : issueKillSwitchCancels v e call = e := by
      simp [issueKillSwitchCancels, hissued]
    rw [hsame]
    exact ⟨hissued, he⟩
  have hfirst : issueKillSwitchCancels v {} (true, replies) =
      attemptAll v.symbol replies v.enabled { cancelIssued := true } := by
    simp [issueKillSwitchCancels]
  rw [run, List.foldl_append, hstart, List.foldl_cons, hfirst]
  have hrest := @foldl_induction _ _ _ _ _ hdone later _ ⟨cancelIssued_attemptAll, rfl⟩
    fun _ _ => trivial
  exact hrest.2

/-- The attempt at a venue, unless it throws. -/
def attemptAt (symbol : CString) (replies : LiveVenue → HttpResponse) (venue : LiveVenue) :
    CancelAttempt :=
  (venue.cancelAll symbol (replies venue)).getD ⟨venue, none, .errorUnknown⟩

theorem attemptAt_eq {venue : LiveVenue} {a : CancelAttempt}
    (h : venue.cancelAll symbol (replies venue) = some a) : attemptAt symbol replies venue = a := by
  rw [attemptAt, h, Option.getD_some]

/-- An engine that has not ended has made every attempt. -/
theorem cancelAll_of_running (h : (attemptAll symbol replies venues e).ended = false) :
    ∀ venue ∈ venues,
      venue.cancelAll symbol (replies venue) = some (attemptAt symbol replies venue) := by
  intro venue hmem
  cases hcancel : venue.cancelAll symbol (replies venue) with
  | none =>
    rw [ended_attemptAll hmem hcancel] at h
    cases h
  | some a => rw [attemptAt_eq hcancel]

/-- Each attempt names the venue of its place. -/
theorem venue_of_getElem? {j : ℕ} {a : CancelAttempt}
    (h : ∀ venue ∈ venues,
      venue.cancelAll symbol (replies venue) = some (attemptAt symbol replies venue))
    (hj : (venues.map (attemptAt symbol replies))[j]? = some a) :
    venues[j]? = some a.venue ∧ a = attemptAt symbol replies a.venue := by
  rw [List.getElem?_map] at hj
  obtain ⟨venue, hvenue, rfl⟩ := Option.map_eq_some_iff.mp hj
  rw [LiveVenue.venue_of_cancelAll (h venue (List.mem_of_getElem? hvenue))]
  exact ⟨hvenue, rfl⟩

/-- **The kill switch covers every order** exactly when the one attempt at each enabled venue is
made, accepted, and about all its orders; it is never made at OKX and Coinbase. -/
theorem covered_iff {quiet later : List (Bool × (LiveVenue → HttpResponse))}
    (hquiet : ∀ call ∈ quiet, call.1 = false) :
    (run v (quiet ++ (true, replies) :: later)).Covered v maps ↔
      ∀ venue ∈ v.enabled, venue.CancelsAll v.symbol (replies venue) (maps venue) := by
  rw [run_eq hquiet]
  simp only [LiveVenue.cancelsAll_iff]
  constructor
  · intro h
    have hattempt := cancelAll_of_running h.running
    rw [attemptAll_of_some hattempt, List.nil_append] at h
    intro venue hmem
    have hself := LiveVenue.venue_of_cancelAll (hattempt venue hmem)
    refine ⟨_, hattempt venue hmem, ?_, fun entry hentry hactive => ?_⟩
    · -- a failed attempt would be followed by another one at the same venue
      by_contra hfailed
      obtain ⟨i, hi⟩ := List.mem_iff_getElem?.mp hmem
      obtain ⟨j, b, hij, hj, hb⟩ :=
        h.retried i (attemptAt v.symbol replies venue) (by simp [hi]) hfailed
      have hvenue := (venue_of_getElem? hattempt hj).1
      rw [hb, hself] at hvenue
      have hlt : i < v.enabled.length := (List.getElem?_eq_some_iff.mp hi).1
      have hsame := (List.getElem?_inj hlt (nodup_enabled v)).mp (hi.trans hvenue.symm)
      omega
    · obtain ⟨a, ha, hvenue, hcovers⟩ := h.sent venue hmem entry hentry hactive
      obtain ⟨j, hj⟩ := List.mem_iff_getElem?.mp ha
      rw [(venue_of_getElem? hattempt hj).2, hvenue] at hcovers
      exact hcovers
  · intro h
    have hattempt : ∀ venue ∈ v.enabled,
        venue.cancelAll v.symbol (replies venue) = some (attemptAt v.symbol replies venue) ∧
          (attemptAt v.symbol replies venue).result = .ok ∧
          ∀ entry ∈ maps venue, entry.active = true →
            ∃ request, (attemptAt v.symbol replies venue).request = some request ∧
              request.Covers entry := by
      intro venue hmem
      obtain ⟨a, ha, hrest⟩ := h venue hmem
      rw [attemptAt_eq ha]
      exact ⟨ha, hrest⟩
    rw [attemptAll_of_some fun venue hmem => (hattempt venue hmem).1, List.nil_append]
    refine ⟨fun venue hmem entry hentry hactive => ?_, fun i a hi hfailed => ?_, rfl⟩
    · obtain ⟨hcancel, -, hcovers⟩ := hattempt venue hmem
      exact ⟨attemptAt v.symbol replies venue, List.mem_map_of_mem hmem,
        LiveVenue.venue_of_cancelAll hcancel, hcovers entry hentry hactive⟩
    · obtain ⟨venue, hmem, rfl⟩ := List.mem_map.mp (List.mem_of_getElem? hi)
      exact absurd (hattempt venue hmem).2.1 hfailed

/-- A success with an array, which is what Binance answers. -/
def success : HttpResponse := ⟨200, some (.array [])⟩

/-- An order of the engine that rests at a venue. -/
def resting : VenueOrderMap :=
  [{ clientOrderId := 1, venueOrderId := "V1".toList, symbol := copySymbol "BTCUSDT".toList,
     active := true }]

/-- On Binance alone the kill switch covers the order. -/
theorem covered_binance :
    (run ⟨true, false, false, false, false, "BTCUSDT".toList⟩ [(true, fun _ => success)]).Covered
      ⟨true, false, false, false, false, "BTCUSDT".toList⟩ fun _ => resting := by
  refine (@covered_iff ⟨true, false, false, false, false, "BTCUSDT".toList⟩ (fun _ => success)
    (fun _ => resting) [] [] fun call hmem => absurd hmem List.not_mem_nil).mpr ?_
  intro venue hmem
  obtain rfl : venue = .binance := List.mem_singleton.mp hmem
  refine ⟨by decide, ⟨by decide, [], rfl⟩, fun entry hentry _ => ?_⟩
  obtain rfl := List.mem_singleton.mp hentry
  rfl

/-- **On OKX** nothing is sent, whatever the venue answers. -/
theorem uncovered_okx :
    ¬ (run ⟨false, false, false, true, false, "BTCUSDT".toList⟩ [(true, fun _ => success)]).Covered
      ⟨false, false, false, true, false, "BTCUSDT".toList⟩ fun _ => resting := by
  intro h
  obtain ⟨a, ha, -, request, hrequest, -⟩ :=
    h.sent .okx (by decide) _ (List.mem_singleton_self _) rfl
  obtain rfl : a = ⟨.okx, none, .errorInvalidOrder⟩ := List.mem_singleton.mp ha
  cases hrequest

end KillSwitchEngine

end TradingInfrastructure
