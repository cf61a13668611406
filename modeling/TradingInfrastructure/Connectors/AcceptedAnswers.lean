import TradingInfrastructure.Connectors.VenueConnectors

/-!
# Answers that accept

Some venues tell a failure in the body of a success: Kraken in an array of errors, OKX in the codes
of the answer and of its first row, Coinbase in a flag. The connectors look elsewhere, each
operation for the one thing that it needs (`LooksDone`). So an operation returns OK, acknowledges
the journal or changes the venue order map after an answer that is a failure exactly when that thing
is in the answer all the same (`okMeansAccepted_iff`).
-/

namespace TradingInfrastructure

open JournalTable (entryOf)

/-- There is a code under the key, and it is not "0". -/
def Json.CodeFails (json : Json) (key : String) : Prop :=
  ∃ code, json.find key.toList = some code ∧ code ≠ .string "0".toList

/-- The value is the first of an array under the key. -/
def Json.FirstUnder (json : Json) (key : String) (item : Json) : Prop :=
  ∃ items, json.find key.toList = some (.array (item :: items))

/-- The request is not a query. -/
def VenueRequest.Commits : VenueRequest → Prop
  | .query _ _ => False
  | _ => True

namespace LiveVenue

/-- The body of a success tells a failure. -/
def ReportsFailure (venue : LiveVenue) (json : Json) : Prop :=
  match venue with
  | binance | binanceFutures => False
  | kraken => ∃ error, json.FirstUnder "error" error
  | okx => json.CodeFails "code" ∨ ∃ item, json.FirstUnder "data" item ∧ item.CodeFails "sCode"
  | coinbase => json.find "success".toList = some (.boolean false)

/-- What the connector tests in the body of a success, for an operation that is not a query. -/
def LooksDone (venue : LiveVenue) (request : VenueRequest) (json : Json) : Prop :=
  match venue, request with
  | kraken, .submit _ => ∃ result id ids, json.find "result".toList = some result ∧
      result.find "txid".toList = some (.array (.string id :: ids)) ∧ id ≠ []
  | kraken, .cancel _ => ∃ result count, json.find "result".toList = some result ∧
      result.int64 "count" = .ok count ∧ 0 < count
  | kraken, .replace _ _ => True
  | kraken, .cancelAll _ => json.has "result" = true
  | okx, .submit _ | okx, .replace _ _ => ∃ item id, json.FirstUnder "data" item ∧
      item.text "ordId" = .ok id ∧ id ≠ []
  | okx, .cancel _ => ∃ item, json.FirstUnder "data" item ∧ item.text "sCode" = .ok "0".toList
  | coinbase, .submit _ | coinbase, .replace _ _ => ∃ holder id,
      (json.find "success_response".toList = some holder ∨
        (json.find "success_response".toList = none ∧ json.has "order_id" = true ∧ holder = json)) ∧
      holder.text "order_id" = .ok id ∧ id ≠ []
  | coinbase, .cancel _ => ∃ item, json.FirstUnder "results" item ∧ item.flag "success" = .ok true
  | _, _ => False

/-- The answer is a failure. -/
def Fails (lib : VenueLibrary) (venue : LiveVenue) (reply : VenueReply) : Prop :=
  reply.ok = false ∨ ∃ json, lib.parse reply.body = some json ∧ venue.ReportsFailure json

variable {lib : VenueLibrary} {body : CString} {json : Json} {s : RequestState}

/-! ## What is read as OK -/


theorem classifyKraken_ne_ok : KrakenConnector.classifyKrakenBusinessError lib body ≠ .ok .ok := by
  unfold KrakenConnector.classifyKrakenBusinessError
  cases lib.parse body with
  | none => decide
  | some json =>
    simp only
    cases json.member "error" with
    | error e => exact fun h => by cases h
    | ok v =>
      simp only [bind, Except.bind]
      split
      · split_ifs <;> exact fun h => by cases h
      · exact fun h => by cases h

/-- A connector that looks for an error when it has found no order id. -/
theorem found_iff {parsed : Except ReplyFault (Bool × CString)}
    {rest : Except ReplyFault ConnectorResult} (hrest : rest ≠ .ok .ok) :
    (∃ s', (do
        let (found, venueOrderId) ← parsed
        let s := { s with venueOrderId }
        if found then return (ConnectorResult.ok, s)
        return (← rest, s) : Except ReplyFault (ConnectorResult × RequestState)) = .ok (.ok, s')) ↔
      ∃ id, parsed = .ok (true, id) := by
  cases parsed with
  | error e => exact iff_of_false (fun ⟨_, h⟩ => by cases h) fun ⟨_, h⟩ => by cases h
  | ok x =>
    obtain ⟨found, id⟩ := x
    cases found with
    | true => exact iff_of_true ⟨_, rfl⟩ ⟨id, rfl⟩
    | false =>
      refine iff_of_false ?_ fun ⟨_, h⟩ => by cases h
      rintro ⟨s', h⟩
      obtain ⟨_, hx, h⟩ := bind_eq_ok.mp h
      cases hx
      obtain ⟨result, hresult, heq⟩ := bind_eq_ok.mp h
      cases heq
      exact hrest hresult

/-- A connector that returns an unknown error when it has found no order id. -/
theorem foundOr_iff {parsed : Except ReplyFault (Bool × CString)} :
    (∃ s', (do
        let (found, venueOrderId) ← parsed
        return (if found then .ok else .errorUnknown, { s with venueOrderId }) :
          Except ReplyFault (ConnectorResult × RequestState)) = .ok (.ok, s')) ↔
      ∃ id, parsed = .ok (true, id) := by
  cases parsed with
  | error e => exact iff_of_false (fun ⟨_, h⟩ => by cases h) fun ⟨_, h⟩ => by cases h
  | ok x =>
    obtain ⟨found, id⟩ := x
    cases found with
    | true => exact iff_of_true ⟨_, rfl⟩ ⟨id, rfl⟩
    | false => exact iff_of_false (fun ⟨_, h⟩ => by cases h) fun ⟨_, h⟩ => by cases h

/-- A connector that asks for nothing but a flag. -/
theorem done_iff {parsed : Except ReplyFault Bool} :
    (∃ s', (do return (if ← parsed then .ok else .errorUnknown, s) :
      Except ReplyFault (ConnectorResult × RequestState)) = .ok (.ok, s')) ↔ parsed = .ok true := by
  cases parsed with
  | error e => exact iff_of_false (fun ⟨_, h⟩ => by cases h) fun h => by cases h
  | ok x =>
    cases x with
    | true => exact iff_of_true ⟨_, rfl⟩ rfl
    | false => exact iff_of_false (fun ⟨_, h⟩ => by cases h) fun h => by cases h

/-- An order id is found when it is not empty. -/
theorem named_iff {id v : CString} :
    (pure (!id.isEmpty, id) : Except ReplyFault (Bool × CString)) = .ok (true, v) ↔
      id ≠ [] ∧ v = id := by
  cases id with
  | nil => exact iff_of_false (fun h => by cases h) fun h => h.1 rfl
  | cons a id =>
    exact ⟨fun h => ⟨List.cons_ne_nil _ _, (Prod.mk.inj (Except.ok.inj h)).2.symm⟩,
      fun h => by rw [h.2]; rfl⟩

theorem kraken_parseOrderId_iff (hparse : lib.parse body = some json) {v : CString} :
    (∃ id, KrakenConnector.parseOrderId lib body v = .ok (true, id)) ↔
      ∃ result id ids, json.find "result".toList = some result ∧
      result.find "txid".toList = some (.array (.string id :: ids)) ∧ id ≠ [] := by
  simp only [KrakenConnector.parseOrderId, hparse]
  constructor
  · rintro ⟨id, h⟩
    obtain ⟨result, hresult, h⟩ := bind_eq_ok.mp h
    obtain ⟨txids, htxids, h⟩ := bind_eq_ok.mp h
    split at h
    · next id' ids =>
      exact ⟨result, id', ids, Json.member_eq_ok.mp hresult, Json.member_eq_ok.mp htxids,
        (named_iff.mp h).1⟩
    · cases h
  · rintro ⟨result, id, ids, hresult, htxid, hid⟩
    refine ⟨id, bind_eq_ok.mpr ⟨result, Json.member_eq_ok.mpr hresult, bind_eq_ok.mpr
      ⟨_, Json.member_eq_ok.mpr htxid, ?_⟩⟩⟩
    exact named_iff.mpr ⟨hid, rfl⟩

theorem firstOf_eq_some {item : Json} : OkxConnector.firstOf json = .ok (some item) ↔
    json.FirstUnder "data" item := by
  unfold OkxConnector.firstOf Json.FirstUnder
  constructor
  · intro h
    obtain ⟨data, hdata, h⟩ := bind_eq_ok.mp h
    split at h
    · next item' items =>
      cases h
      exact ⟨items, Json.member_eq_ok.mp hdata⟩
    · cases h
  · rintro ⟨items, h⟩
    exact bind_eq_ok.mpr ⟨_, Json.member_eq_ok.mpr h, rfl⟩

theorem okx_parseOrderId_iff (hparse : lib.parse body = some json) {v : CString} :
    (∃ id, OkxConnector.parseOrderId lib body v = .ok (true, id)) ↔
      ∃ item id, json.FirstUnder "data" item ∧ item.text "ordId" = .ok id ∧ id ≠ [] := by
  simp only [OkxConnector.parseOrderId, hparse]
  constructor
  · rintro ⟨id, h⟩
    obtain ⟨data, hdata, h⟩ := bind_eq_ok.mp h
    cases data with
    | none => cases h
    | some item =>
      obtain ⟨id', htext, h⟩ := bind_eq_ok.mp h
      exact ⟨item, id', firstOf_eq_some.mp hdata, htext, (named_iff.mp h).1⟩
  · rintro ⟨item, id, hdata, htext, hid⟩
    exact ⟨id, bind_eq_ok.mpr ⟨_, firstOf_eq_some.mpr hdata, bind_eq_ok.mpr ⟨id, htext,
      named_iff.mpr ⟨hid, rfl⟩⟩⟩⟩

theorem classifyOkx_ne_ok : OkxConnector.classifyOkxBusinessError lib body ≠ .ok .ok := by
  have hcode : ∀ code insufficient, OkxConnector.classifyCode code insufficient ≠ .ok := by
    intro code insufficient
    unfold OkxConnector.classifyCode
    split_ifs <;> decide
  unfold OkxConnector.classifyOkxBusinessError
  cases lib.parse body with
  | none => exact fun h => by cases h
  | some json =>
    intro h
    obtain ⟨topCode, -, h⟩ := bind_eq_ok.mp h
    split_ifs at h
    · exact hcode _ _ (Except.ok.inj h)
    · obtain ⟨data, -, h⟩ := bind_eq_ok.mp h
      cases data with
      | none => cases h
      | some item =>
        obtain ⟨subCode, -, h⟩ := bind_eq_ok.mp h
        split_ifs at h
        · cases h
        · exact hcode _ _ (Except.ok.inj h)

theorem coinbase_parseOrderId_iff (hparse : lib.parse body = some json)
    (hsuccess : json.find "success".toList = some (.boolean false)) :
    (∃ id, CoinbaseConnector.parseOrderId lib body [] = .ok (true, id)) ↔ ∃ holder id,
      (json.find "success_response".toList = some holder ∨
        (json.find "success_response".toList = none ∧ json.has "order_id" = true ∧ holder = json)) ∧
      holder.text "order_id" = .ok id ∧ id ≠ [] := by
  have hflag : json.flag "success" = .ok false := by
    unfold Json.flag Json.valueAs
    rw [if_pos (Json.isObject_of_find hsuccess), hsuccess]
    rfl
  simp only [CoinbaseConnector.parseOrderId, hparse, hflag]
  constructor
  · rintro ⟨id, h⟩
    obtain ⟨success, hx, hread⟩ := bind_eq_ok.mp h
    cases hx
    clear h
    cases hresponse : json.find "success_response".toList with
    | some holder =>
      have hhas : json.has "success_response" = true := by rw [Json.has, hresponse]; rfl
      simp only [hhas, Bool.or_true, if_true] at hread
      obtain ⟨holder', hholder, hrest⟩ := bind_eq_ok.mp hread
      obtain ⟨id', htext, hid⟩ := bind_eq_ok.mp hrest
      obtain rfl : holder = holder' := Option.some.inj (hresponse ▸ Json.member_eq_ok.mp hholder)
      exact ⟨holder, id', Or.inl rfl, htext, (named_iff.mp hid).1⟩
    | none =>
      have hhas : json.has "success_response" = false := by rw [Json.has, hresponse]; rfl
      simp only [hhas, Bool.or_false, Bool.false_eq_true, if_false] at hread
      by_cases hid : json.has "order_id" = true
      · rw [if_pos hid] at hread
        obtain ⟨id', htext, hname⟩ := bind_eq_ok.mp hread
        exact ⟨json, id', Or.inr ⟨rfl, hid, rfl⟩, htext, (named_iff.mp hname).1⟩
      · rw [if_neg hid] at hread
        cases hread
  · rintro ⟨holder, id, hholder | ⟨hnone, hid, rfl⟩, htext, hne⟩
    · have hhas : json.has "success_response" = true := by rw [Json.has, hholder]; rfl
      refine ⟨id, bind_eq_ok.mpr ⟨false, rfl, ?_⟩⟩
      simp only [hhas, Bool.or_true, if_true]
      exact bind_eq_ok.mpr ⟨holder, Json.member_eq_ok.mpr hholder, bind_eq_ok.mpr ⟨id, htext,
        named_iff.mpr ⟨hne, rfl⟩⟩⟩
    · have hhas : holder.has "success_response" = false := by rw [Json.has, hnone]; rfl
      refine ⟨id, bind_eq_ok.mpr ⟨false, rfl, ?_⟩⟩
      simp only [hhas, Bool.or_false, Bool.false_eq_true, if_false, hid, if_true]
      exact bind_eq_ok.mpr ⟨id, htext, named_iff.mpr ⟨hne, rfl⟩⟩

theorem okx_parseCancelResult_iff (hparse : lib.parse body = some json) :
    OkxConnector.parseCancelResult lib body = .ok true ↔
      ∃ item, json.FirstUnder "data" item ∧ item.text "sCode" = .ok "0".toList := by
  simp only [OkxConnector.parseCancelResult, hparse]
  constructor
  · intro h
    obtain ⟨data, hdata, h⟩ := bind_eq_ok.mp h
    cases data with
    | none => cases h
    | some item =>
      obtain ⟨code, htext, h⟩ := bind_eq_ok.mp h
      have hcode := beq_iff_eq.mp (Except.ok.inj h)
      exact ⟨item, firstOf_eq_some.mp hdata, hcode ▸ htext⟩
  · rintro ⟨item, hdata, htext⟩
    exact bind_eq_ok.mpr ⟨_, firstOf_eq_some.mpr hdata, bind_eq_ok.mpr ⟨_, htext,
      congrArg Except.ok (beq_self_eq_true _)⟩⟩

theorem kraken_parseCancelResult_iff (hparse : lib.parse body = some json) :
    KrakenConnector.parseCancelResult lib body = .ok true ↔
      ∃ result count, json.find "result".toList = some result ∧
        result.int64 "count" = .ok count ∧ 0 < count := by
  simp only [KrakenConnector.parseCancelResult, hparse]
  constructor
  · intro h
    obtain ⟨result, hresult, h⟩ := bind_eq_ok.mp h
    obtain ⟨count, hcount, h⟩ := bind_eq_ok.mp h
    exact ⟨result, count, Json.member_eq_ok.mp hresult, hcount, of_decide_eq_true (Except.ok.inj h)⟩
  · rintro ⟨result, count, hresult, hcount, hpos⟩
    exact bind_eq_ok.mpr ⟨_, Json.member_eq_ok.mpr hresult, bind_eq_ok.mpr ⟨_, hcount,
      congrArg Except.ok (decide_eq_true hpos)⟩⟩

theorem coinbase_parseCancelResult_iff (hparse : lib.parse body = some json) :
    CoinbaseConnector.parseCancelResult lib body = .ok true ↔
      ∃ item, json.FirstUnder "results" item ∧ item.flag "success" = .ok true := by
  simp only [CoinbaseConnector.parseCancelResult, hparse]
  constructor
  · intro h
    obtain ⟨results, hresults, h⟩ := bind_eq_ok.mp h
    split at h
    · next item items => exact ⟨item, ⟨items, Json.member_eq_ok.mp hresults⟩, h⟩
    · cases h
  · rintro ⟨item, ⟨items, hitems⟩, hflag⟩
    exact bind_eq_ok.mpr ⟨_, Json.member_eq_ok.mpr hitems, hflag⟩

/-- Another result is not OK. -/
theorem not_isOk_error {result : ConnectorResult} (hresult : result ≠ .ok) {s : RequestState} :
    ¬∃ s', (.ok (result, s) : Except ReplyFault (ConnectorResult × RequestState)) =
      .ok (.ok, s') := by
  rintro ⟨s', h⟩
  exact hresult (Prod.mk.inj (Except.ok.inj h)).1

/-- **A body that tells a failure** is read as OK exactly when it looks done. -/
theorem readBody_eq_ok_iff {venue : LiveVenue} {request : VenueRequest}
    (hcommits : request.Commits) (hparse : lib.parse body = some json)
    (hfails : venue.ReportsFailure json) (hs : venue = .coinbase → s.venueOrderId = []) :
    (∃ s', venue.readBody lib request body s = .ok (.ok, s')) ↔
      venue.LooksDone request json := by
  cases venue with
  | binance | binanceFutures => exact hfails.elim
  | kraken =>
    cases request with
    | submit order =>
      exact (found_iff classifyKraken_ne_ok).trans (kraken_parseOrderId_iff hparse)
    | cancel entry => exact done_iff.trans (kraken_parseCancelResult_iff hparse)
    | replace entry replacement => exact iff_of_true ⟨_, rfl⟩ trivial
    | query entry nowNs => exact hcommits.elim
    | cancelAll symbol =>
      simp only [readBody, LooksDone, hparse, Option.map_some, Option.some.injEq]
      cases json.has "result" with
      | true => exact iff_of_true ⟨s, rfl⟩ rfl
      | false => exact iff_of_false (not_isOk_error (by decide)) (by decide)
  | okx =>
    cases request with
    | submit order => exact (found_iff classifyOkx_ne_ok).trans (okx_parseOrderId_iff hparse)
    | cancel entry => exact done_iff.trans (okx_parseCancelResult_iff hparse)
    | replace entry replacement => exact foundOr_iff.trans (okx_parseOrderId_iff hparse)
    | query entry nowNs => exact hcommits.elim
    | cancelAll symbol => exact iff_of_false (not_isOk_error (by decide)) id
  | coinbase =>
    cases request with
    | submit order =>
      refine foundOr_iff.trans ?_
      rw [hs rfl]
      exact coinbase_parseOrderId_iff hparse hfails
    | cancel entry => exact done_iff.trans (coinbase_parseCancelResult_iff hparse)
    | replace entry replacement =>
      refine foundOr_iff.trans ?_
      rw [hs rfl]
      exact coinbase_parseOrderId_iff hparse hfails
    | query entry nowNs => exact hcommits.elim
    | cancelAll symbol => exact iff_of_false (not_isOk_error (by decide)) id

/-! ## One attempt -/

section

variable {venue : LiveVenue} {request : VenueRequest} {replies : ℕ → FuturesReplies} {n : ℕ}

theorem classify_ne_ok (venue : LiveVenue) (reply : VenueReply) :
    venue.classify lib reply ≠ .ok := by
  cases venue with
  | binance =>
    simp only [classify, BinanceConnector.classifyOrderResponse]
    split_ifs
    · decide
    · exact classifyHttpError_ne_ok _
  | binanceFutures =>
    simp only [classify, BinanceFuturesConnector.classifyResponse]
    cases (lib.parse reply.body).bind BinanceFuturesConnector.codeOf with
    | none => exact classifyHttpError_ne_ok _
    | some code =>
      simp only
      split_ifs
      · decide
      · decide
      · decide
      · decide
      · exact classifyHttpError_ne_ok _
  | kraken | okx | coinbase => exact classifyHttpError_ne_ok _

theorem attemptAt_eq_ok : (venue.attemptAt lib request replies n s).1 = .ok .ok ↔
    ∃ s', venue.attempt lib request (replies n) s = .ok (.ok, s') := by
  unfold attemptAt
  cases venue.attempt lib request (replies n) s with
  | error fault => exact iff_of_false (fun h => by cases h) fun ⟨_, h⟩ => by cases h
  | ok x => exact ⟨fun h => ⟨x.2, by rw [← Except.ok.inj h]⟩, fun ⟨_, h⟩ => by cases h; rfl⟩

/-- An attempt that goes out comes to what the connector makes of the reply. -/
theorem attempt_of_sends (h : venue.sends lib request (replies n) s = true) :
    ∃ filters, venue.attempt lib request (replies n) s =
      venue.read lib request (replies n).order { s with filters } := by
  rw [attempt_eq]
  unfold sends at h
  split at h
  · next filters hprepare =>
    rw [hprepare]
    exact ⟨filters, rfl⟩
  · cases h

/-- A failure is no OK. -/
theorem attemptAt_ne_ok (h : venue.sends lib request (replies n) s = true)
    (hok : (replies n).order.ok = false) :
    (venue.attemptAt lib request replies n s).1 ≠ .ok .ok := by
  obtain ⟨filters, hattempt⟩ := attempt_of_sends h
  rw [ne_eq, attemptAt_eq_ok, hattempt, read, hok]
  rintro ⟨s', hs'⟩
  exact classify_ne_ok venue (replies n).order (Prod.mk.inj (Except.ok.inj hs')).1

/-- **A success whose body tells a failure** is read as OK exactly when it looks done. -/
theorem attemptAt_eq_ok_iff (h : venue.sends lib request (replies n) s = true)
    (hok : (replies n).order.ok = true) (hcommits : request.Commits)
    (hparse : lib.parse (replies n).order.body = some json) (hfails : venue.ReportsFailure json)
    (hs : venue = .coinbase → s.venueOrderId = []) :
    (venue.attemptAt lib request replies n s).1 = .ok .ok ↔ venue.LooksDone request json := by
  obtain ⟨filters, hattempt⟩ := attempt_of_sends h
  rw [attemptAt_eq_ok, hattempt, read, hok, ← readBody_eq_ok_iff hcommits hparse hfails]
  · rfl
  · exact hs

/-- Coinbase does not write an order id unless it has found one. -/
theorem coinbase_unnamed {id : CString}
    (h : CoinbaseConnector.parseOrderId lib body [] = .ok (false, id)) : id = [] := by
  have hnamed : ∀ {v : CString}, (pure (!v.isEmpty, v) : Except ReplyFault (Bool × CString)) =
      .ok (false, id) → id = [] := by
    intro v hv
    cases v with
    | nil => exact (Prod.mk.inj (Except.ok.inj hv)).2.symm
    | cons a v => cases hv
  unfold CoinbaseConnector.parseOrderId at h
  cases hparse : lib.parse body with
  | none =>
    rw [hparse] at h
    exact (Prod.mk.inj (Except.ok.inj h)).2.symm
  | some json =>
    rw [hparse] at h
    obtain ⟨success, -, h⟩ := bind_eq_ok.mp h
    split_ifs at h
    · obtain ⟨response, -, h⟩ := bind_eq_ok.mp h
      obtain ⟨v, -, h⟩ := bind_eq_ok.mp h
      exact hnamed h
    · obtain ⟨v, -, h⟩ := bind_eq_ok.mp h
      exact hnamed h
    · exact hnamed h

/-- **So no attempt at Coinbase** starts with an order id. -/
theorem coinbase_unnamed_attemptAt (hs : s.venueOrderId = [])
    (hagain : retriesAfter (coinbase.attemptAt lib request replies n s).1 = true) :
    (coinbase.attemptAt lib request replies n s).2.venueOrderId = [] := by
  have hparsed : ∀ {body : CString} {t : RequestState}, t.venueOrderId = [] →
      ∀ {result : ConnectorResult} {s' : RequestState}, (do
        let (found, venueOrderId) ← CoinbaseConnector.parseOrderId lib body t.venueOrderId
        return (if found then .ok else .errorUnknown, { t with venueOrderId }) :
          Except ReplyFault (ConnectorResult × RequestState)) = .ok (result, s') →
      result ≠ .ok → s'.venueOrderId = [] := by
    intro body t ht result s' h hresult
    rw [ht] at h
    obtain ⟨⟨found, id⟩, hid, h⟩ := bind_eq_ok.mp h
    cases found with
    | true => exact absurd (Prod.mk.inj (Except.ok.inj h)).1.symm hresult
    | false =>
      obtain ⟨-, rfl⟩ := Prod.mk.inj (Except.ok.inj h)
      exact coinbase_unnamed hid
  unfold attemptAt at hagain ⊢
  cases hattempt : coinbase.attempt lib request (replies n) s with
  | error fault => exact hs
  | ok x =>
    obtain ⟨result, s'⟩ := x
    rw [hattempt] at hagain
    have hresult : result ≠ .ok := by
      rintro rfl
      cases hagain
    rw [attempt_eq] at hattempt
    obtain ⟨⟨prepared, filters⟩, -, hread⟩ := bind_eq_ok.mp hattempt
    simp only at hread ⊢
    split_ifs at hread
    · obtain ⟨-, rfl⟩ := Prod.mk.inj (Except.ok.inj hread)
      exact hs
    · unfold read at hread
      split_ifs at hread
      · obtain ⟨-, rfl⟩ := Prod.mk.inj (Except.ok.inj hread)
        exact hs
      · cases request with
        | submit order | replace entry replacement =>
          exact @hparsed _ { s with filters } hs _ _ hread hresult
        | cancel entry =>
          obtain ⟨done, -, h⟩ := bind_eq_ok.mp hread
          cases h
          exact hs
        | query entry nowNs =>
          obtain ⟨parsed, -, h⟩ := bind_eq_ok.mp hread
          cases h
          exact hs
        | cancelAll symbol =>
          cases hread
          exact hs

end

end LiveVenue

/-! ## Operations -/

/-- The operation is not a query. -/
def VenueOperation.Commits : VenueOperation → Prop
  | .query _ _ _ => False
  | _ => True

/-- The entry of the journal that the operation has, if it has one. -/
def VenueOperation.entry : VenueOperation → Option (JournalOperation × ℕ)
  | .submit order => some (.submit, order.clientOrderId)
  | .cancel k => some (.cancel, k)
  | .replace k _ => some (.replace, k)
  | .query _ _ _ | .cancelAll _ => none

namespace VenueConnector

variable (lib : VenueLibrary) (c : VenueConnector) (operation : VenueOperation)
  (replies : ℕ → FuturesReplies) (opened opened' : Bool)

/-- The journal has acknowledged the operation. -/
def Acked (base : LiveConnectorBase) : Prop :=
  ∃ op k e, operation.entry = some (op, k) ∧ entryOf base.journal.entries op k = some e ∧
    e.state = .acked

/-- The operation does not return OK, its entry is not acked, and the map is as it was. -/
structure Uncommitted : Prop where
  result : (c.serve lib operation replies opened opened').1 ≠ .ok .ok
  journal : ¬ Acked operation (c.serve lib operation replies opened opened').2.base
  map : (c.serve lib operation replies opened opened').2.base.venueOrderMap =
    c.base.venueOrderMap

/-- The request of the operation, and the last attempt at it, whose reply is the last answer. -/
def LastAnswer (request : VenueRequest) (x : ℕ × RequestState) : Prop :=
  (∃ base, c.asks operation opened opened' = some (request, base)) ∧
    (c.made lib operation replies opened opened').getLast? = some x ∧
    c.venue.sends lib request (replies x.1) x.2 = true

/-- **OK means that the venue has accepted**: nothing is committed when the last answer is a
failure. -/
def OkMeansAccepted : Prop :=
  ∀ request x, c.LastAnswer lib operation replies opened opened' request x →
    c.venue.Fails lib (replies x.1).order → c.Uncommitted lib operation replies opened opened'

/-- The last answer, if it is a success whose body tells a failure, does not look done. -/
def TellsTheTruth : Prop :=
  ∀ request x json, c.LastAnswer lib operation replies opened opened' request x →
    (replies x.1).order.ok = true → lib.parse (replies x.1).order.body = some json →
    c.venue.ReportsFailure json → ¬ c.venue.LooksDone request json

variable {lib c operation replies opened opened'} {request : VenueRequest}
  {base : LiveConnectorBase} {result : ConnectorResult}

/-- The stores when an operation gets to the venue: the map is as it was, and the entry of the
operation is in flight. -/
structure Asking (c : VenueConnector) (operation : VenueOperation) (request : VenueRequest)
    (base : LiveConnectorBase) : Prop where
  map : base.venueOrderMap = c.base.venueOrderMap
  commits : operation.Commits → request.Commits
  cancels : ∀ k, operation = .cancel k → ∃ mapped, request = .cancel mapped
  entry : ∀ op k, operation.entry = some (op, k) →
    ∃ e, entryOf base.journal.entries op k = some e ∧ e.state = .inFlight

theorem asking_of_asks (htidy : c.base.Tidy)
    (h : c.asks operation opened opened' = some (request, base)) :
    Asking c operation request base := by
  have hflight : ∀ {op k related d j}, c.base.journal.begin op k related opened = (d, j) →
      ¬ (!d.shouldSendToVenue) = true → ∃ e, entryOf j.entries op k = some e ∧
        e.state = .inFlight := by
    intro op k related d j hbegin hsend
    have h := @IdempotencyJournal.begin_inFlight c.base.journal op k related opened htidy.table.idle
    rw [hbegin] at h
    exact h (by simpa using hsend)
  cases operation with
  | submit order =>
    obtain ⟨d, j, hbegin⟩ : ∃ d j,
      c.base.journal.begin .submit order.clientOrderId 0 opened = (d, j) := ⟨_, _, rfl⟩
    simp only [asks, LiveConnectorBase.beginSubmit, hbegin] at h
    split_ifs at h with hacked hhas hsend
    cases h
    refine ⟨rfl, fun _ => trivial, fun k hk => (by cases hk), fun op k hentry => ?_⟩
    cases hentry
    exact hflight hbegin hsend
  | cancel k =>
    obtain ⟨d, j, hbegin⟩ : ∃ d j, c.base.journal.begin .cancel k 0 opened = (d, j) := ⟨_, _, rfl⟩
    simp only [asks, LiveConnectorBase.beginCancel, hbegin] at h
    cases hget : c.base.venueOrderMap.get k with
    | none =>
      simp only [hget] at h
      split_ifs at h
    | some mapped =>
      simp only [hget] at h
      split_ifs at h with hreplace hacked hsend
      cases h
      refine ⟨rfl, fun _ => trivial, fun k' _ => ⟨mapped, rfl⟩, fun op k hentry => ?_⟩
      cases hentry
      exact hflight hbegin hsend
  | replace k replacement =>
    obtain ⟨d, j, hbegin⟩ : ∃ d j,
      c.base.journal.begin .replace k replacement.clientOrderId opened = (d, j) := ⟨_, _, rfl⟩
    simp only [asks, LiveConnectorBase.beginReplace, hbegin] at h
    cases hget : c.base.venueOrderMap.get k with
    | none =>
      simp only [hget] at h
      split_ifs at h
    | some mapped =>
      simp only [hget] at h
      split_ifs at h with hcancel hacked hhas hsend
      cases h
      refine ⟨rfl, fun _ => trivial, fun k' hk => (by cases hk), fun op k hentry => ?_⟩
      cases hentry
      exact hflight hbegin hsend
  | query k status nowNs =>
    obtain ⟨mapped, -, heq⟩ := Option.map_eq_some_iff.mp h
    cases heq
    exact ⟨rfl, fun hc => hc.elim, fun k' hk => (by cases hk), fun op k hentry => (by cases hentry)⟩
  | cancelAll symbol =>
    cases h
    exact ⟨rfl, fun _ => trivial, fun k' hk => (by cases hk), fun op k hentry => (by cases hentry)⟩

/-- What an operation leaves when it was not accepted. -/
theorem Asking.finish_failed (h : Asking c operation request base) (hne : result ≠ .ok)
    (v : CString) (opened' : Bool) :
    (finish operation request base result v opened').1 ≠ .ok ∧
      ¬ Acked operation (finish operation request base result v opened').2 ∧
      (finish operation request base result v opened').2.venueOrderMap = c.base.venueOrderMap := by
  have hfail : ∀ {op k related} {base' : LiveConnectorBase}, operation.entry = some (op, k) →
      base'.journal = base.journal.fail op k related opened' → ¬ Acked operation base' := by
    rintro op k related base' hentry hjournal ⟨op', k', e', hentry', he', hstate⟩
    cases hentry.symm.trans hentry'
    obtain ⟨e, he, -⟩ := h.entry op k hentry
    rw [hjournal, (IdempotencyJournal.fail_puts he related opened').writes.self] at he'
    cases he'
    cases hstate
  cases operation with
  | submit order =>
    have hfinish : base.finishSubmit order result v opened' = (result, { base with
        journal := base.journal.fail .submit order.clientOrderId 0 opened' }) := if_neg hne
    rw [finish, hfinish]
    exact ⟨hne, hfail rfl rfl, h.map⟩
  | cancel k =>
    obtain ⟨mapped, rfl⟩ := h.cancels k rfl
    have hfinish : base.finishCancel k mapped result opened' = (result, { base with
        journal := base.journal.fail .cancel k 0 opened' }) := if_neg hne
    rw [finish, hfinish]
    exact ⟨hne, hfail rfl rfl, h.map⟩
  | replace k replacement =>
    have hfinish : base.finishReplace k replacement result v opened' = (result, { base with
        journal := base.journal.fail .replace k replacement.clientOrderId opened' }) := if_pos hne
    rw [finish, hfinish]
    exact ⟨hne, hfail rfl rfl, h.map⟩
  | query k status nowNs =>
    exact ⟨hne, fun ⟨_, _, _, hentry, _⟩ => (by cases hentry), h.map⟩
  | cancelAll symbol =>
    exact ⟨hne, fun ⟨_, _, _, hentry, _⟩ => (by cases hentry), h.map⟩

/-- An operation that was accepted returns OK, or its entry is acked. -/
theorem Asking.finish_ok (h : Asking c operation request base) (v : CString) (opened' : Bool) :
    (finish operation request base .ok v opened').1 = .ok ∨
      Acked operation (finish operation request base .ok v opened').2 := by
  cases operation with
  | submit order =>
    obtain ⟨e, he, -⟩ := h.entry _ _ rfl
    simp only [finish, LiveConnectorBase.finishSubmit, if_true, LiveConnectorBase.mapOrder_snd]
    exact Or.inr ⟨_, _, _, rfl, (IdempotencyJournal.ack_puts he v 0 opened').writes.self, rfl⟩
  | cancel k =>
    obtain ⟨mapped, rfl⟩ := h.cancels k rfl
    exact Or.inl rfl
  | replace k replacement =>
    obtain ⟨e, he, -⟩ := h.entry _ _ rfl
    simp only [finish, LiveConnectorBase.finishReplace, ne_eq, not_true_eq_false, if_false,
      LiveConnectorBase.mapOrder_snd]
    exact Or.inr ⟨_, _, _, rfl,
      (IdempotencyJournal.ack_puts he v replacement.clientOrderId opened').writes.self, rfl⟩
  | query k status nowNs => exact Or.inl rfl
  | cancelAll symbol => exact Or.inl rfl

/-- **Nothing is committed** exactly when the last answer is not read as OK. -/
theorem uncommitted_iff (htidy : c.base.Tidy) {x : ℕ × RequestState}
    (h : c.LastAnswer lib operation replies opened opened' request x) :
    c.Uncommitted lib operation replies opened opened' ↔
      c.reading lib request replies x ≠ .ok .ok := by
  obtain ⟨⟨base, hasks⟩, hlast, -⟩ := h
  have hasking := asking_of_asks htidy hasks
  rcases @serve_of_made lib c operation replies opened opened' request base hasks with
    ⟨hmade, -⟩ | ⟨y, hy, -, hcomes⟩
  · rw [hmade] at hlast
    cases hlast
  · obtain rfl : x = y := Option.some.inj (hlast.symm.trans hy)
    obtain ⟨hresult, hbase⟩ := hcomes
    unfold reading
    cases hreading : (c.venue.attemptAt lib request replies x.1 x.2).1 with
    | error fault =>
      rw [hreading] at hresult hbase
      refine iff_of_true ⟨?_, ?_, ?_⟩ fun hc => by cases hc
      · rw [hresult]
        exact fun hc => by cases hc
      · rintro ⟨op, k, e, hentry, he, hstate⟩
        obtain ⟨e', he', hflight⟩ := hasking.entry op k hentry
        rw [hbase, he'] at he
        cases he
        rw [hflight] at hstate
        cases hstate
      · rw [hbase]
        exact hasking.map
    | ok result =>
      rw [hreading] at hresult hbase
      simp only at hbase
      by_cases hok : result = .ok
      · subst hok
        refine iff_of_false (fun hun => ?_) fun hc => hc rfl
        rcases hasking.finish_ok (c.venue.attemptAt lib request replies x.1 x.2).2.venueOrderId
          opened' with hdone | hacked
        · exact hun.result (by rw [hresult]; exact congrArg Except.ok hdone)
        · exact hun.journal (by rw [hbase]; exact hacked)
      · obtain ⟨hne, hacked, hmap⟩ := hasking.finish_failed hok
          (c.venue.attemptAt lib request replies x.1 x.2).2.venueOrderId opened'
        refine iff_of_true ⟨?_, ?_, ?_⟩ fun hc => hok (Except.ok.inj hc)
        · rw [hresult]
          exact fun hc => hne (Except.ok.inj hc)
        · rwa [hbase]
        · rwa [hbase]

/-- No attempt at Coinbase starts with an order id. -/
theorem unnamed_of_made (h : c.asks operation opened opened' = some (request, base))
    (hvenue : c.venue = .coinbase) {x : ℕ × RequestState}
    (hx : x ∈ c.made lib operation replies opened opened') : x.2.venueOrderId = [] := by
  rw [made, h, hvenue] at hx
  refine forall_attemptsMade (I := fun s => s.venueOrderId = [])
    (fun n s hs hagain => LiveVenue.coinbase_unnamed_attemptAt hs hagain) _ _ _ ?_ x hx
  cases operation <;> rfl

/-- **OK means that the venue has accepted** exactly when no last answer that tells a failure looks
done. -/
theorem okMeansAccepted_iff (htidy : c.base.Tidy) (hcommits : operation.Commits) :
    c.OkMeansAccepted lib operation replies opened opened' ↔
      c.TellsTheTruth lib operation replies opened opened' := by
  have hread : ∀ {request x json}, c.LastAnswer lib operation replies opened opened' request x →
      (replies x.1).order.ok = true → lib.parse (replies x.1).order.body = some json →
      c.venue.ReportsFailure json →
      (c.reading lib request replies x = .ok .ok ↔ c.venue.LooksDone request json) := by
    intro request x json hlast hok hparse hfails
    obtain ⟨⟨base, hasks⟩, hmade, hsends⟩ := hlast
    exact LiveVenue.attemptAt_eq_ok_iff hsends hok ((asking_of_asks htidy hasks).commits hcommits)
      hparse hfails fun hvenue => unnamed_of_made hasks hvenue (List.mem_of_getLast? hmade)
  constructor
  · intro h request x json hlast hok hparse hfails hdone
    exact (uncommitted_iff htidy hlast).mp (h request x hlast (Or.inr ⟨json, hparse, hfails⟩))
      ((hread hlast hok hparse hfails).mpr hdone)
  · intro h request x hlast hfails
    refine (uncommitted_iff htidy hlast).mpr fun hreading => ?_
    cases hok : (replies x.1).order.ok with
    | false => exact LiveVenue.attemptAt_ne_ok hlast.2.2 hok hreading
    | true =>
      rcases hfails with hfailed | ⟨json, hparse, hfails⟩
      · rw [hok] at hfailed
        cases hfailed
      · exact h request x json hlast hok hparse hfails
          ((hread hlast hok hparse hfails).mp hreading)

/-- A library that reads one text, as an answer of Kraken with an error. -/
def errorLibrary : VenueLibrary where
  parse text :=
    if text = "error".toList then
      some (.object [("error".toList, .array [.string "EOrder:Unknown order".toList])])
    else none
  strtod _ := none
  formatDecimal _ := []

/-- A submission that is accepted. -/
def oneSubmission : List ConnectorCall :=
  [.request (.submit (LiveConnectorBase.bid 1)) LiveConnectorBase.accepted true true]

/-- A connector of Kraken with one order. -/
def oneOrder : VenueConnector where
  venue := .kraken
  base := (LiveConnectorBase.new .kraken ⟨3⟩ []).run oneSubmission

/-- Every request is answered with the error, under status 200. -/
def errorReplies : ℕ → FuturesReplies :=
  fun _ => { exchangeInfo := ⟨0, []⟩, order := ⟨200, "error".toList⟩ }

theorem tidy_oneOrder : oneOrder.base.Tidy := by
  have h := (LiveConnectorBase.tidy_new .kraken ⟨3⟩ []).run oneSubmission
  simp only [oneOrder]
  exact h

/-- A cancel that is answered with the error is not taken for done. -/
theorem okMeansAccepted_cancel :
    oneOrder.OkMeansAccepted errorLibrary (.cancel 1) errorReplies true true := by
  have hcommits : (VenueOperation.cancel 1).Commits := trivial
  refine (okMeansAccepted_iff tidy_oneOrder hcommits).mpr fun request x json hlast _ hparse _ => ?_
  obtain ⟨⟨base, hasks⟩, -, -⟩ := hlast
  obtain ⟨mapped, rfl⟩ := (asking_of_asks tidy_oneOrder hasks).cancels 1 rfl
  obtain rfl : _ = json := Option.some.inj hparse
  rintro ⟨result, count, hresult, -⟩
  cases hresult

/-- **An amendment that is answered with the error** returns OK, and the order is replaced in the
stores. -/
theorem amendment_unaccepted :
    LiveVenue.Fails errorLibrary .kraken (errorReplies 1).order ∧
      (oneOrder.serve errorLibrary (.replace 1 (LiveConnectorBase.bid 2)) errorReplies true
        true).1 = .ok .ok ∧
      ¬ oneOrder.OkMeansAccepted errorLibrary (.replace 1 (LiveConnectorBase.bid 2)) errorReplies
        true true := by
  have hfails : LiveVenue.Fails errorLibrary .kraken (errorReplies 1).order :=
    Or.inr ⟨_, rfl, _, _, rfl⟩
  have hok : (oneOrder.serve errorLibrary (.replace 1 (LiveConnectorBase.bid 2)) errorReplies true
      true).1 = .ok .ok := by decide +kernel
  have hsends : ((oneOrder.asks (.replace 1 (LiveConnectorBase.bid 2)) true true).map fun asked =>
      oneOrder.venue.sends errorLibrary asked.1 (errorReplies 1) {}) = some true := by
    decide +kernel
  obtain ⟨⟨request, base⟩, hasks, hsends⟩ := Option.map_eq_some_iff.mp hsends
  have hlast : (oneOrder.made errorLibrary (.replace 1 (LiveConnectorBase.bid 2)) errorReplies true
      true).getLast? = some (1, {}) := by decide +kernel
  exact ⟨hfails, hok, fun hall =>
    (hall request (1, {}) ⟨⟨base, hasks⟩, hlast, hsends⟩ hfails).result hok⟩

end VenueConnector

end TradingInfrastructure
