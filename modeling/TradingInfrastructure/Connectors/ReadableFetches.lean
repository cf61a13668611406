import TradingInfrastructure.Connectors.AcceptedAnswers
import TradingInfrastructure.Connectors.AccountSize
import TradingInfrastructure.Connectors.ReadableRequests
import TradingInfrastructure.Connectors.ReadableSnapshots

/-!
# Fetches that return

What each connector wants of the replies to a fetch. A part of the fetch looks for its rows at a
place of its reply (`ReplyPart`); it does not throw when the rows are there and those that it reads
have members of the right kinds. With the requests, this is what a connector wants of its venue
(`LiveVenue.calls_return_iff`).
-/

namespace TradingInfrastructure

/-! ## Parts of a reply -/

/-- A step into a value. -/
inductive JsonStep
  | key (key : String)
  | first

def Json.step? (json : Json) : JsonStep → Option Json
  | .key key => json.find key.toList
  | .first => json.items.head?

/-- The value at a place. -/
def Json.at? (json : Json) (place : List JsonStep) : Option Json := place.foldlM Json.step? json

/-- A part of a fetch: where its rows stand in the reply, what they are like, and the table that
they go to. -/
structure ReplyPart (ι : Type) where
  place : List JsonStep
  rows : Json → Option (List ι)
  table : SnapshotTable
  Fits : ι → Prop

namespace ReplyPart

variable {ι : Type} (part : ReplyPart ι) (lib : VenueLibrary) (reply : VenueReply)

/-- There is something at the place, and the rows there that are read fit. -/
def Wants (room : ℕ) (json : Json) : Prop :=
  ∃ value, json.at? part.place = some value ∧ RowsRead part.Fits room (part.rows value)

/-- There are rows at the place, and there is room for them. -/
def Goes (room : ℕ) (json : Json) : Prop :=
  ∃ value, json.at? part.place = some value ∧ RowsFit room (part.rows value)

/-- The body of a success is parsed, and what it is parsed to can be read. -/
def Reads (room : ℕ) : Prop :=
  reply.ok = true → ∃ json, lib.parse reply.body = some json ∧ part.Wants room json

/-- A body that is not parsed is not read. -/
def ReadsParsed (room : ℕ) : Prop :=
  reply.ok = true → TradingInfrastructure.Reads lib reply.body (part.Wants room)

/-- The next part of the fetch runs. -/
def Completes (room : ℕ) : Prop :=
  reply.ok = true ∧ ∃ json, lib.parse reply.body = some json ∧ part.Goes room json

/-- The rows at the value that is found go into the table. -/
def pour (rows : List ι → FetchStep) (value : Json) : FetchStep := fun s =>
  match part.rows value with
  | some items => rows items s
  | none => return (.errorUnknown, s)

/-- The part, in a reply whose value is located. -/
def step (rows : List ι → FetchStep) (failure : ConnectorResult)
    (locate : Except ReplyFault Json) : FetchStep := fun s =>
  if reply.ok = false then return (failure, s)
  else locate >>= fun value => part.pour rows value s

variable {part lib reply} {rows : List ι → FetchStep} {failure : ConnectorResult}

/-- A part that reads what is parsed. -/
theorem fills {locate : Except ReplyFault Json}
    (hrows : ∀ items, (rows items).FillsRows part.table part.Fits items) (hfailure : failure ≠ .ok)
    (hlocate : ∀ value, locate = .ok value ↔
      ∃ json, lib.parse reply.body = some json ∧ json.at? part.place = some value) :
    (part.step reply rows failure locate).Fills part.table (part.Reads lib reply)
      (part.Completes lib reply) := by
  have hsame : ∀ {Q : Json → Prop}, (∃ value, locate = .ok value ∧ Q value) ↔
      ∃ json, lib.parse reply.body = some json ∧ ∃ value, json.at? part.place = some value ∧
        Q value := by
    intro Q
    simp only [hlocate]
    exact ⟨fun ⟨value, ⟨json, hjson, hvalue⟩, hq⟩ => ⟨json, hjson, value, hvalue, hq⟩,
      fun ⟨json, hjson, value, hvalue, hq⟩ => ⟨value, ⟨json, hjson, hvalue⟩, hq⟩⟩
  have hlocated : FetchStep.Fills (fun s => locate >>= fun value => part.pour rows value s)
      part.table
      (fun room => ∃ value, locate = .ok value ∧ RowsRead part.Fits room (part.rows value))
      (fun room => ∃ value, locate = .ok value ∧ RowsFit room (part.rows value)) :=
    FetchStep.fills_located hrows fun s => rfl
  have hguarded : (part.step reply rows failure locate).Fills part.table
      (fun room => reply.ok = true →
        ∃ value, locate = .ok value ∧ RowsRead part.Fits room (part.rows value))
      (fun room => reply.ok = true ∧
        ∃ value, locate = .ok value ∧ RowsFit room (part.rows value)) := by
    refine hlocated.guarded (fun hok => funext fun s => ?_)
      fun hfails => ⟨failure, hfailure, funext fun s => ?_⟩
    · rw [step, if_neg (by simp [hok])]
    · rw [step, if_pos (by simpa using hfails)]
      rfl
  simp only [hsame] at hguarded
  exact hguarded

/-- A body that is not parsed is an error. -/
theorem fillsParsed {step : FetchStep} {locate : Json → Except ReplyFault Json}
    (hrows : ∀ items, (rows items).FillsRows part.table part.Fits items) (hfailure : failure ≠ .ok)
    (hlocate : ∀ json value, locate json = .ok value ↔ json.at? part.place = some value)
    (hnone : lib.parse reply.body = none → ∀ s, ∃ result ≠ .ok, step s = .ok (result, s))
    (hsome : ∀ json, lib.parse reply.body = some json →
      step = part.step reply rows failure (locate json)) :
    step.Fills part.table (part.ReadsParsed lib reply) (part.Completes lib reply) := by
  cases hparse : lib.parse reply.body with
  | none =>
    refine ⟨fun s => ?_, fun s s' result h => ?_, fun s s' result h other _ => ?_⟩
    · obtain ⟨result, -, heq⟩ := hnone hparse s
      refine iff_of_true ⟨_, heq⟩ fun _ json hjson => ?_
      cases hparse.symm.trans hjson
    · obtain ⟨result', hne, heq⟩ := hnone hparse s
      cases heq.symm.trans h
      refine iff_of_false hne fun ⟨_, json, hjson, _⟩ => ?_
      cases hparse.symm.trans hjson
    · obtain ⟨result', -, heq⟩ := hnone hparse s
      cases heq.symm.trans h
      rfl
  | some json =>
    have hfills : step.Fills part.table (part.Reads lib reply) (part.Completes lib reply) := by
      rw [hsome json hparse]
      refine fills hrows hfailure fun value => ?_
      simp only [hparse, Option.some.injEq, exists_eq_left', hlocate]
    refine ⟨fun s => (hfills.succeeds s).trans ?_, hfills.goesOn, hfills.others⟩
    simp [ReplyPart.Reads, ReadsParsed, TradingInfrastructure.Reads, hparse]

/-- A part that the venue may not have. -/
theorem fillsOptional {optional step : FetchStep}
    (hfills : step.Fills part.table (part.Reads lib reply) (part.Completes lib reply))
    (hoptional : ∀ s, optional s = if reply.unavailable then return (.ok, s) else step s) :
    optional.Fills part.table (part.Reads lib reply)
      (fun room => reply.unavailable = true ∨ part.Completes lib reply room) := by
  have hchecked : optional.Fills part.table
      (fun room => ¬ reply.unavailable = true → part.Reads lib reply room)
      (fun room => reply.unavailable = true ∨ part.Completes lib reply room) := by
    refine hfills.optional (fun habsent => funext fun s => ?_) fun hpresent => funext fun s => ?_
    · rw [hoptional, if_pos habsent]
      rfl
    · rw [hoptional, if_neg hpresent]
  refine ⟨fun s => (hchecked.succeeds s).trans ?_, hchecked.goesOn, hchecked.others⟩
  refine ⟨fun h hok => h (by simp [VenueReply.not_unavailable hok]) hok, fun h _ => h⟩

end ReplyPart

/-! ## Places -/

section

variable {parsed : Option Json} {place : List JsonStep} {step : JsonStep} {value : Json}
  {key : String}

theorem Json.first_eq_ok {json : Json} : json.first = .ok value ↔
    json.step? .first = some value := by
  cases json with
  | array items => cases items <;> simp [Json.first, Json.step?, Json.items]
  | _ => exact iff_of_false (fun h => by cases h) fun h => by cases h

theorem memberOf_eq_ok : memberOf parsed key = .ok value ↔
    ∃ json, parsed = some json ∧ json.at? [.key key] = some value := by
  cases parsed with
  | none => exact iff_of_false (fun h => by cases h) fun ⟨_, h, _⟩ => by cases h
  | some json => simp [memberOf, Json.member_eq_ok, Json.at?, Json.step?]

/-- One more step. -/
theorem bind_eq_ok_at {x : Except ReplyFault Json} {f : Json → Except ReplyFault Json}
    (hx : ∀ value, x = .ok value ↔ ∃ json, parsed = some json ∧ json.at? place = some value)
    (hf : ∀ json value, f json = .ok value ↔ json.step? step = some value) :
    x >>= f = .ok value ↔ ∃ json, parsed = some json ∧ json.at? (place ++ [step]) = some value := by
  simp only [bind_eq_ok, hx, hf, Json.at?, List.foldlM_append, List.foldlM_cons, List.foldlM_nil,
    bind_pure, Option.bind_eq_bind, Option.bind_eq_some_iff]
  exact ⟨fun ⟨value, ⟨json, hjson, hvalue⟩, hstep⟩ => ⟨json, hjson, value, hvalue, hstep⟩,
    fun ⟨json, hjson, value, hvalue, hstep⟩ => ⟨value, ⟨json, hjson, hvalue⟩, hstep⟩⟩

end

/-! ## Kraken -/

namespace KrakenConnector

def OrderFits (row : CString × Json) : Prop :=
  row.2.Fits [(.number, "vol"), (.number, "vol_exec"), (.text, "status")] ∧
    row.2.Under "descr" fun descr =>
      descr.Fits [(.text, "pair"), (.text, "type"), (.number, "price")]

def TradeFits (row : CString × Json) : Prop :=
  row.2.Fits [(.text, "ordertxid"), (.text, "pair"), (.text, "type"), (.number, "vol"),
    (.number, "price"), (.number, "cost"), (.number, "fee"), (.text, "fee_ccy"), (.number, "time")]

def ordersPart : ReplyPart (CString × Json) :=
  ⟨[.key "result", .key "open"], Json.fields?, .openOrders, OrderFits⟩

def balancesPart : ReplyPart (CString × Json) :=
  ⟨[.key "result"], Json.fields?, .balances, fun row => JsonKind.number.Holds row.2⟩

def tradesPart : ReplyPart (CString × Json) :=
  ⟨[.key "result", .key "trades"], Json.fields?, .fills, TradeFits⟩

/-- What a fetch wants of its replies. -/
def FetchReads (lib : VenueLibrary) (replies : KrakenReplies) : Prop :=
  ordersPart.Reads lib replies.openOrders 128 ∧
    (ordersPart.Completes lib replies.openOrders 128 →
      balancesPart.Reads lib replies.balance 64 ∧
        (balancesPart.Completes lib replies.balance 64 → tradesPart.Reads lib replies.trades 512))

variable {lib : VenueLibrary} {replies : KrakenReplies} {reply : VenueReply}

theorem succeeds_readOrder {row : CString × Json} : Succeeds (readOrder row) ↔ OrderFits row := by
  rw [readOrder, Json.succeeds_member_bind, OrderFits, Json.and_under]
  refine Json.under_congr fun descr => ?_
  simp only [succeeds_bind, exists_eq_ok, Json.fits_cons_cons, Json.succeeds_number,
    Json.succeeds_text, succeeds_pure, and_true, exists_and_right]
  tauto

theorem succeeds_readBalance {row : CString × Json} :
    Succeeds (readBalance row) ↔ JsonKind.number.Holds row.2 := by
  refine (succeeds_bind_of_total fun _ => succeeds_pure _).trans ?_
  unfold Json.getNumber JsonKind.Holds
  cases row.2.toNumber? with
  | none => exact iff_of_false (not_succeeds_error _) fun ⟨_, h⟩ => by cases h
  | some x => exact iff_of_true (succeeds_ok _) ⟨x, rfl⟩

theorem succeeds_readFill {row : CString × Json} : Succeeds (readFill row) ↔ TradeFits row := by
  unfold readFill TradeFits
  simp only [succeeds_bind, exists_eq_ok, Json.fits_cons_cons, Json.succeeds_number,
    Json.succeeds_text, succeeds_pure, and_true, exists_and_right]

theorem fetchOrders_eq : fetchOrders lib reply = ordersPart.step reply (FetchStep.orders readOrder)
    (HttpResponse.classifyHttpError reply.status)
    (memberOf (lib.parse reply.body) "result" >>= (·.member "open")) := by
  funext s
  rw [fetchOrders, ReplyPart.step]
  cases reply.ok with
  | false => rfl
  | true =>
    simp only [Bool.not_true, Bool.false_eq_true, if_false, Bool.true_eq_false, bind_assoc]
    refine bind_congr fun result => bind_congr fun value => ?_
    cases value <;> rfl

theorem fetchBalances_eq : fetchBalances lib reply = balancesPart.step reply
    (FetchStep.balances readBalance) (HttpResponse.classifyHttpError reply.status)
    (memberOf (lib.parse reply.body) "result") := by
  funext s
  rw [fetchBalances, ReplyPart.step]
  cases reply.ok with
  | false => rfl
  | true =>
    refine bind_congr fun result => ?_
    cases result <;> rfl

/-- Trades that the venue does not have are none. -/
theorem fetchTrades_eq (s : ReconciliationSnapshot) : fetchTrades lib reply s =
    if reply.unavailable then return (.ok, s)
    else tradesPart.step reply (FetchStep.fills readFill)
      (HttpResponse.classifyHttpError reply.status)
      (memberOf (lib.parse reply.body) "result" >>= (·.member "trades")) s := by
  rw [fetchTrades, ReplyPart.step]
  cases reply.unavailable with
  | true => rfl
  | false =>
    cases reply.ok with
    | false => rfl
    | true =>
      simp only [Bool.not_true, Bool.false_eq_true, if_false, Bool.true_eq_false, bind_assoc]
      refine bind_congr fun result => bind_congr fun value => ?_
      cases value <;> rfl

/-- **A fetch of the Kraken connector.** -/
theorem succeeds_fetch :
    Succeeds (fetchReconciliationSnapshot lib replies) ↔ FetchReads lib replies := by
  have horders : (fetchOrders lib replies.openOrders).Fills ordersPart.table
      (ordersPart.Reads lib replies.openOrders) (ordersPart.Completes lib replies.openOrders) := by
    rw [fetchOrders_eq]
    exact ReplyPart.fills (fun _ => FetchStep.fillsRows_orders fun _ => succeeds_readOrder)
      (LiveVenue.classifyHttpError_ne_ok _)
      fun _ => bind_eq_ok_at (fun _ => memberOf_eq_ok) fun _ _ => Json.member_eq_ok
  have hbalances : (fetchBalances lib replies.balance).Fills balancesPart.table
      (balancesPart.Reads lib replies.balance) (balancesPart.Completes lib replies.balance) := by
    rw [fetchBalances_eq]
    exact ReplyPart.fills (fun _ => FetchStep.fillsRows_balances fun _ => succeeds_readBalance)
      (LiveVenue.classifyHttpError_ne_ok _) fun _ => memberOf_eq_ok
  refine horders.succeeds_andThen rfl fun s₁ _ h₁ => ?_
  have htrades := ReplyPart.fillsOptional (ReplyPart.fills
    (fun _ => FetchStep.fillsRows_fills fun _ => succeeds_readFill)
    (LiveVenue.classifyHttpError_ne_ok _)
    fun _ => bind_eq_ok_at (fun _ => memberOf_eq_ok) fun _ _ => Json.member_eq_ok)
    (@fetchTrades_eq lib replies.trades)
  refine hbalances.succeeds_andThen (h₁ .balances (by decide)) fun s₂ _ h₂ => ?_
  have hroom : s₂.room tradesPart.table = 512 :=
    (h₂ .fills (by decide)).trans (h₁ .fills (by decide))
  rw [htrades.succeeds, hroom]

end KrakenConnector

/-! ## OKX and Coinbase -/

section

variable {ι : Type} {part : ReplyPart ι} {lib : VenueLibrary} {reply : VenueReply}
  {append : CString → FetchStep} {rows : List ι → FetchStep} {locate : Except ReplyFault Json}

/-- A part that appends the rows of a body. -/
theorem fills_fetchPart (hrows : ∀ items, (rows items).FillsRows part.table part.Fits items)
    (hlocate : ∀ value, locate = .ok value ↔
      ∃ json, lib.parse reply.body = some json ∧ json.at? part.place = some value)
    (happend : ∀ s, append reply.body s = locate >>= fun value => part.pour rows value s) :
    (OkxConnector.fetchPart reply append).Fills part.table (part.Reads lib reply)
      (part.Completes lib reply) := by
  have hstep : OkxConnector.fetchPart reply append =
      part.step reply rows (HttpResponse.classifyHttpError reply.status) locate := by
    funext s
    rw [OkxConnector.fetchPart, ReplyPart.step, happend]
    cases reply.ok <;> rfl
  rw [hstep]
  exact ReplyPart.fills hrows (LiveVenue.classifyHttpError_ne_ok _) hlocate

/-- A fetch of four parts. -/
theorem succeeds_fourParts {orders balances positions fills : FetchStep}
    {reads₁ reads₂ reads₃ reads₄ completes₁ completes₂ completes₃ completes₄ : ℕ → Prop}
    (horders : orders.Fills .openOrders reads₁ completes₁)
    (hbalances : balances.Fills .balances reads₂ completes₂)
    (hpositions : positions.Fills .positions reads₃ completes₃)
    (hfills : fills.Fills .fills reads₄ completes₄) :
    Succeeds (orders.andThen (balances.andThen (positions.andThen fills)) .empty) ↔
      reads₁ 128 ∧ (completes₁ 128 → reads₂ 64 ∧ (completes₂ 64 →
        reads₃ 64 ∧ (completes₃ 64 → reads₄ 512))) := by
  refine horders.succeeds_andThen rfl fun s₁ _ h₁ => ?_
  refine hbalances.succeeds_andThen (h₁ .balances (by decide)) fun s₂ _ h₂ => ?_
  have hroom : s₂.room .positions = 64 :=
    (h₂ .positions (by decide)).trans (h₁ .positions (by decide))
  refine hpositions.succeeds_andThen hroom fun s₃ _ h₃ => ?_
  have hroom' : s₃.room .fills = 512 :=
    (h₃ .fills (by decide)).trans ((h₂ .fills (by decide)).trans (h₁ .fills (by decide)))
  rw [hfills.succeeds, hroom']

end

namespace OkxConnector

def ordersPart : ReplyPart Json :=
  ⟨[.key "data"], Json.elements?, .openOrders, fun item => item.Fits [(.text, "ordId"),
    (.text, "instId"), (.text, "side"), (.number, "sz"), (.number, "accFillSz"), (.number, "px"),
    (.text, "state")]⟩

def balancesPart : ReplyPart Json :=
  ⟨[.key "data", .first, .key "details"], Json.elements?, .balances, fun item =>
    item.Fits [(.text, "ccy"), (.number, "eq"), (.number, "availEq")]⟩

def positionsPart : ReplyPart Json :=
  ⟨[.key "data"], Json.elements?, .positions, fun item =>
    item.Fits [(.text, "instId"), (.number, "pos"), (.number, "avgPx")]⟩

def fillsPart : ReplyPart Json :=
  ⟨[.key "data"], Json.elements?, .fills, fun item => item.Fits [(.text, "tradeId"),
    (.text, "ordId"), (.text, "instId"), (.text, "side"), (.number, "fillSz"), (.number, "fillPx"),
    (.number, "fee"), (.text, "feeCcy"), (.number, "ts")]⟩

/-- What a fetch wants of its replies. -/
def FetchReads (lib : VenueLibrary) (replies : AccountReplies) : Prop :=
  ordersPart.Reads lib replies.openOrders 128 ∧ (ordersPart.Completes lib replies.openOrders 128 →
    balancesPart.Reads lib replies.account 64 ∧ (balancesPart.Completes lib replies.account 64 →
      positionsPart.Reads lib replies.positions 64 ∧
        (positionsPart.Completes lib replies.positions 64 →
          fillsPart.Reads lib replies.fills 512)))

variable {lib : VenueLibrary} {replies : AccountReplies} {item : Json}

theorem succeeds_readOrder : Succeeds (readOrder item) ↔ ordersPart.Fits item := by
  unfold readOrder ordersPart
  simp only [succeeds_bind, exists_eq_ok, Json.fits_cons_cons, Json.succeeds_number,
    Json.succeeds_text, succeeds_pure, and_true, exists_and_right]

theorem succeeds_readBalance : Succeeds (readBalance item) ↔ balancesPart.Fits item := by
  unfold readBalance balancesPart
  simp only [succeeds_bind, exists_eq_ok, Json.fits_cons_cons, Json.succeeds_number,
    Json.succeeds_text, succeeds_pure, and_true, exists_and_right]

theorem succeeds_readPosition : Succeeds (readPosition item) ↔ positionsPart.Fits item := by
  unfold readPosition positionsPart
  simp only [succeeds_bind, exists_eq_ok, Json.fits_cons_cons, Json.succeeds_number,
    Json.succeeds_text, succeeds_pure, and_true, exists_and_right]

theorem succeeds_readFill : Succeeds (readFill item) ↔ fillsPart.Fits item := by
  unfold readFill fillsPart
  simp only [succeeds_bind, exists_eq_ok, Json.fits_cons_cons, Json.succeeds_number,
    Json.succeeds_text, Json.succeeds_int64, succeeds_pure, and_true, exists_and_right]

theorem appendOpenOrders_eq (body : CString) (s : ReconciliationSnapshot) :
    appendOpenOrders lib body s = memberOf (lib.parse body) "data" >>= fun value =>
      ordersPart.pour (FetchStep.orders readOrder) value s :=
  bind_congr fun value => by cases value <;> rfl

theorem appendBalances_eq (body : CString) (s : ReconciliationSnapshot) :
    appendBalances lib body s =
      ((memberOf (lib.parse body) "data" >>= (·.first)) >>= (·.member "details")) >>= fun value =>
        balancesPart.pour (FetchStep.balances readBalance) value s := by
  rw [appendBalances, bind_assoc, bind_assoc]
  refine bind_congr fun data => bind_congr fun account => bind_congr fun value => ?_
  cases value <;> rfl

theorem appendPositions_eq (body : CString) (s : ReconciliationSnapshot) :
    appendPositions lib body s = memberOf (lib.parse body) "data" >>= fun value =>
      positionsPart.pour (FetchStep.positions readPosition) value s :=
  bind_congr fun value => by cases value <;> rfl

theorem appendFills_eq (body : CString) (s : ReconciliationSnapshot) :
    appendFills lib body s = memberOf (lib.parse body) "data" >>= fun value =>
      fillsPart.pour (FetchStep.fills readFill) value s :=
  bind_congr fun value => by cases value <;> rfl

/-- **A fetch of the OKX connector.** -/
theorem succeeds_fetch :
    Succeeds (fetchReconciliationSnapshot lib replies) ↔ FetchReads lib replies := by
  have horders := fills_fetchPart (fun _ => FetchStep.fillsRows_orders fun _ => succeeds_readOrder)
    (fun _ => memberOf_eq_ok) (@appendOpenOrders_eq lib replies.openOrders.body)
  have hbalances := @fills_fetchPart _ balancesPart _ _ _ _ _
    (fun _ => FetchStep.fillsRows_balances fun _ => succeeds_readBalance)
    (fun _ => bind_eq_ok_at (fun _ => bind_eq_ok_at (fun _ => memberOf_eq_ok)
      fun _ _ => Json.first_eq_ok) fun _ _ => Json.member_eq_ok)
    (@appendBalances_eq lib replies.account.body)
  have hpositions := fills_fetchPart
    (fun _ => FetchStep.fillsRows_positions fun _ => succeeds_readPosition)
    (fun _ => memberOf_eq_ok) (@appendPositions_eq lib replies.positions.body)
  have hfills := fills_fetchPart (fun _ => FetchStep.fillsRows_fills fun _ => succeeds_readFill)
    (fun _ => memberOf_eq_ok) (@appendFills_eq lib replies.fills.body)
  exact succeeds_fourParts horders hbalances hpositions
    (ReplyPart.fillsOptional hfills fun _ => rfl)

end OkxConnector

namespace CoinbaseConnector

/-- The configuration of an order that has the limit price: the first of three. -/
def limitConfiguration (item : Json) : Option Json :=
  match item.find "order_configuration".toList with
  | some (.object fields) =>
    ((Json.object fields).find "limit_limit_gtc".toList).or
      (((Json.object fields).find "sor_limit_ioc".toList).or
        ((Json.object fields).find "limit_limit_fok".toList))
  | _ => none

/-- The configuration has a limit price. -/
def Priced (item : Json) : Prop :=
  ∃ configuration value price, limitConfiguration item = some configuration ∧
    configuration.find "limit_price".toList = some value ∧ value.toNumber? = some price ∧ 0 < price

def ordersPart : ReplyPart Json :=
  ⟨[.key "orders"], Json.elements?, .openOrders, fun item =>
    item.Fits [(.text, "order_id"), (.text, "product_id"), (.text, "side"), (.number, "base_size"),
      (.number, "filled_size"), (.text, "status")] ∧
    (∀ configuration, limitConfiguration item = some configuration →
      configuration.Fits [(.number, "limit_price")]) ∧
    (¬ Priced item → item.Fits [(.number, "limit_price")])⟩

def balancesPart : ReplyPart Json :=
  ⟨[.key "accounts"], Json.elements?, .balances, fun item => item.Fits [(.text, "currency")] ∧
    (item.Under "available_balance" fun amount => amount.Fits [(.number, "value")]) ∧
    item.Under "hold" fun amount => amount.Fits [(.number, "value")]⟩

def positionsPart : ReplyPart Json :=
  ⟨[.key "positions"], Json.elements?, .positions, fun item => item.Fits [(.text, "product_id"),
    (.number, "number_of_contracts"), (.number, "size"), (.number, "avg_entry_price"),
    (.number, "average_entry_price")]⟩

def fillsPart : ReplyPart Json :=
  ⟨[.key "fills"], Json.elements?, .fills, fun item => item.Fits [(.text, "trade_id"),
    (.text, "order_id"), (.text, "product_id"), (.text, "side"), (.number, "size"),
    (.number, "price"), (.number, "commission"), (.text, "commission_currency"),
    (.number, "trade_time_ns")]⟩

/-- What a fetch wants of its replies. The venue may have no positions. -/
def FetchReads (lib : VenueLibrary) (replies : AccountReplies) : Prop :=
  ordersPart.Reads lib replies.openOrders 128 ∧ (ordersPart.Completes lib replies.openOrders 128 →
    balancesPart.Reads lib replies.account 64 ∧ (balancesPart.Completes lib replies.account 64 →
      positionsPart.Reads lib replies.positions 64 ∧
        (replies.positions.unavailable = true ∨
            positionsPart.Completes lib replies.positions 64 →
          fillsPart.Reads lib replies.fills 512)))

variable {lib : VenueLibrary} {replies : AccountReplies} {item : Json}

theorem configuredPrice_eq : configuredPrice item =
    (limitConfiguration item).elim (.ok 0) (·.number "limit_price") := by
  have hfirst : ∀ (cfg : Json) (key : String) (rest : Option Json) (other : Except ReplyFault ℚ),
      other = rest.elim (.ok 0) (·.number "limit_price") →
      (if cfg.has key then do (← cfg.member key).number "limit_price" else other) =
        ((cfg.find key.toList).or rest).elim (.ok 0) (·.number "limit_price") := by
    intro cfg key rest other hother
    unfold Json.has
    cases hfind : cfg.find key.toList with
    | none => exact hother
    | some value =>
      rw [Json.member_eq_ok.mpr hfind]
      rfl
  unfold configuredPrice limitConfiguration
  cases item.find "order_configuration".toList with
  | none => rfl
  | some value =>
    cases value with
    | object fields =>
      exact hfirst _ _ _ _ (hfirst _ _ _ _ ((hfirst _ _ none _ rfl).trans (by rw [Option.or_none])))
    | _ => rfl

theorem succeeds_configuredPrice : Succeeds (configuredPrice item) ↔
    ∀ configuration, limitConfiguration item = some configuration →
      configuration.Fits [(.number, "limit_price")] := by
  rw [configuredPrice_eq]
  cases limitConfiguration item with
  | none => exact iff_of_true (succeeds_ok _) fun _ h => by cases h
  | some configuration => simp [Json.succeeds_number]

/-- The price that is configured. -/
theorem configuredPrice_pos {price : ℚ} (h : configuredPrice item = .ok price) :
    0 < price ↔ Priced item := by
  rw [configuredPrice_eq] at h
  unfold Priced
  cases hfound : limitConfiguration item with
  | none =>
    rw [hfound] at h
    cases h
    exact iff_of_false (lt_irrefl _) fun ⟨_, _, _, h, _⟩ => by cases h
  | some configuration =>
    rw [hfound] at h
    simp only [Option.some.injEq, exists_and_left, exists_eq_left']
    rcases Json.number_eq_ok h with ⟨value, hfind, hprice⟩ | ⟨hfind, rfl⟩
    · exact ⟨fun hpos => ⟨value, hfind, price, hprice, hpos⟩, fun ⟨value', hfind', price', hprice',
        hpos⟩ => by cases hfind.symm.trans hfind'; cases hprice.symm.trans hprice'; exact hpos⟩
    · refine iff_of_false (lt_irrefl _) fun ⟨value, hfind', _⟩ => ?_
      cases hfind.symm.trans hfind'

/-- The price of an order, and what comes after it. -/
theorem succeeds_price {α : Type} {configured : ℚ} {g : ℚ → CString → α} :
    Succeeds (if configured ≤ 0 then do
        let price ← item.number "limit_price"
        let status ← item.text "status"
        pure (g price status)
      else do
        let price ← pure configured
        let status ← item.text "status"
        pure (g price status)) ↔
      (configured ≤ 0 → item.Fits [(.number, "limit_price")]) ∧ item.Fits [(.text, "status")] := by
  split_ifs with hconfigured <;>
    simp [succeeds_bind, exists_eq_ok, hconfigured, Json.succeeds_number, Json.succeeds_text]

theorem succeeds_readOrder : Succeeds (readOrder item) ↔ ordersPart.Fits item := by
  have hprice : (∃ configured, configuredPrice item = .ok configured ∧
      (configured ≤ 0 → item.Fits [(.number, "limit_price")]) ∧ item.Fits [(.text, "status")]) ↔
      (∀ configuration, limitConfiguration item = some configuration →
        configuration.Fits [(.number, "limit_price")]) ∧
      (¬ Priced item → item.Fits [(.number, "limit_price")]) ∧ item.Fits [(.text, "status")] := by
    rw [← succeeds_configuredPrice]
    cases hconfigured : configuredPrice item with
    | error fault => simp
    | ok configured => simp [← configuredPrice_pos hconfigured]
  unfold readOrder ordersPart
  simp only [succeeds_bind, succeeds_price, exists_and_right, exists_eq_ok, hprice,
    Json.fits_cons_cons, Json.succeeds_number, Json.succeeds_text]
  tauto

theorem succeeds_readBalance : Succeeds (readBalance item) ↔ balancesPart.Fits item := by
  unfold readBalance balancesPart
  simp only [succeeds_bind, exists_and_right, exists_eq_ok, Json.succeeds_text,
    Json.succeeds_number, succeeds_pure, Json.member_eq_ok, Json.Under, and_true]
  simp only [← and_assoc, exists_and_right]

theorem succeeds_readPosition : Succeeds (readPosition item) ↔ positionsPart.Fits item := by
  unfold readPosition positionsPart
  simp only [succeeds_bind, exists_eq_ok, Json.fits_cons_cons, Json.succeeds_number,
    Json.succeeds_text, succeeds_pure, and_true, exists_and_right]

theorem succeeds_readFill : Succeeds (readFill item) ↔ fillsPart.Fits item := by
  unfold readFill fillsPart
  simp only [succeeds_bind, exists_eq_ok, Json.fits_cons_cons, Json.succeeds_number,
    Json.succeeds_text, Json.succeeds_int64, succeeds_pure, and_true, exists_and_right]

theorem appendOpenOrders_eq (body : CString) (s : ReconciliationSnapshot) :
    appendOpenOrders lib body s = memberOf (lib.parse body) "orders" >>= fun value =>
      ordersPart.pour (FetchStep.orders readOrder) value s :=
  bind_congr fun value => by cases value <;> rfl

theorem appendBalances_eq (body : CString) (s : ReconciliationSnapshot) :
    appendBalances lib body s = memberOf (lib.parse body) "accounts" >>= fun value =>
      balancesPart.pour (FetchStep.balances readBalance) value s :=
  bind_congr fun value => by cases value <;> rfl

theorem appendPositions_eq (body : CString) (s : ReconciliationSnapshot) :
    appendPositions lib body s = memberOf (lib.parse body) "positions" >>= fun value =>
      positionsPart.pour (FetchStep.positions readPosition) value s :=
  bind_congr fun value => by cases value <;> rfl

theorem appendFills_eq (body : CString) (s : ReconciliationSnapshot) :
    appendFills lib body s = memberOf (lib.parse body) "fills" >>= fun value =>
      fillsPart.pour (FetchStep.fills readFill) value s :=
  bind_congr fun value => by cases value <;> rfl

/-- **A fetch of the Coinbase connector.** -/
theorem succeeds_fetch :
    Succeeds (fetchReconciliationSnapshot lib replies) ↔ FetchReads lib replies := by
  have horders := fills_fetchPart (fun _ => FetchStep.fillsRows_orders fun _ => succeeds_readOrder)
    (fun _ => memberOf_eq_ok) (@appendOpenOrders_eq lib replies.openOrders.body)
  have hbalances := fills_fetchPart
    (fun _ => FetchStep.fillsRows_balances fun _ => succeeds_readBalance)
    (fun _ => memberOf_eq_ok) (@appendBalances_eq lib replies.account.body)
  have hpositions := fills_fetchPart
    (fun _ => FetchStep.fillsRows_positions fun _ => succeeds_readPosition)
    (fun _ => memberOf_eq_ok) (@appendPositions_eq lib replies.positions.body)
  have hfills := fills_fetchPart (fun _ => FetchStep.fillsRows_fills fun _ => succeeds_readFill)
    (fun _ => memberOf_eq_ok) (@appendFills_eq lib replies.fills.body)
  exact succeeds_fourParts horders hbalances
    (ReplyPart.fillsOptional hpositions fun _ => rfl)
    (ReplyPart.fillsOptional hfills fun _ => rfl)

end CoinbaseConnector

/-! ## Binance -/

namespace BinanceConnector

def balancesPart : ReplyPart Json :=
  ⟨[.key "balances"], Json.elements?, .balances, fun item => item.Fits [(.text, "asset")]⟩

def ordersPart : ReplyPart Json :=
  ⟨[], Json.elements?, .openOrders, fun item => item.Fits [(.text, "side"), (.text, "status")]⟩

def TradeFits (item : Json) : Prop :=
  item.Fits [(.number, "orderId"), (.number, "id"), (.text, "symbol"), (.flag, "isBuyer"),
    (.text, "commissionAsset"), (.number, "time")]

/-- What the trades of one symbol after another want, with some room left in the table. -/
def TradesRead (lib : VenueLibrary) (trades : CString → VenueReply) : List CString → ℕ → Prop
  | [], _ => True
  | symbol :: symbols, room =>
    if (trades symbol).unavailable then TradesRead lib trades symbols room
    else (trades symbol).ok = true → ∀ items, lib.parse (trades symbol).body = some (.array items) →
      (∀ item ∈ items.take (room + 1), TradeFits item) ∧
        (items.length ≤ room → TradesRead lib trades symbols (room - items.length))

/-- What a fetch wants of its replies. -/
def FetchReads (lib : VenueLibrary) (map : VenueOrderMap) (replies : BinanceReplies) : Prop :=
  balancesPart.ReadsParsed lib replies.account 64 ∧
    (balancesPart.Completes lib replies.account 64 →
      ordersPart.ReadsParsed lib replies.openOrders 128 ∧
        (ordersPart.Completes lib replies.openOrders 128 →
          TradesRead lib replies.trades (tradedSymbols lib map replies) 512))

variable {lib : VenueLibrary} {map : VenueOrderMap} {replies : BinanceReplies} {item : Json}

theorem succeeds_readBalance : Succeeds (readBalance lib item) ↔ balancesPart.Fits item := by
  unfold readBalance balancesPart
  simp [Json.succeeds_text]

theorem succeeds_readOrder : Succeeds (readOrder lib item) ↔ ordersPart.Fits item := by
  unfold readOrder ordersPart
  simp [succeeds_bind, exists_eq_ok, Json.fits_cons_cons, Json.succeeds_text]

theorem succeeds_readFill : Succeeds (readFill lib item) ↔ TradeFits item := by
  unfold readFill TradeFits
  simp [succeeds_bind, exists_eq_ok, Json.fits_cons_cons, Json.succeeds_text,
    Json.succeeds_uint64, Json.succeeds_flag, Json.succeeds_int64]

theorem succeeds_fetchTrades {trades : CString → VenueReply} {symbols : List CString}
    {s : ReconciliationSnapshot} :
    Succeeds (fetchTrades lib trades symbols s) ↔
      TradesRead lib trades symbols (s.room .fills) := by
  induction symbols generalizing s with
  | nil => exact iff_of_true (succeeds_pure _) trivial
  | cons symbol symbols ih =>
    rw [fetchTrades, TradesRead]
    by_cases habsent : (trades symbol).unavailable = true
    · simp only [habsent, if_true]
      exact ih
    · simp only [habsent, Bool.false_eq_true, if_false]
      cases hok : (trades symbol).ok with
      | false => exact iff_of_true (succeeds_pure _) fun h => by cases h
      | true =>
        simp only [Bool.not_true, Bool.false_eq_true, if_false, forall_const]
        split
        · next items hparse =>
          rw [hparse]
          simp only [Option.some.injEq, Json.array.injEq, forall_eq']
          have hfills := @FetchStep.fillsRows_fills Json TradeFits items (readFill lib)
            fun _ => succeeds_readFill
          refine (hfills.toFills.succeeds_andThen
            (Q := TradesRead lib trades symbols (s.room .fills - items.length)) rfl
              fun s' hs' _ => ?_).trans ?_
          · rw [ih, hfills.room s s' hs']
          · simp [RowsRead, RowsFit]
        · next hother =>
          exact iff_of_true (succeeds_pure _) fun items h => absurd h (hother items)

/-- The open orders alone. -/
def ordersStep (lib : VenueLibrary) (reply : VenueReply) : FetchStep := fun s =>
  if reply.ok = false then return (classifyOrderResponse lib reply, s)
  else
    match lib.parse reply.body with
    | some json => ordersPart.pour (FetchStep.orders (readOrder lib)) json s
    | none => return (.errorUnknown, s)

theorem fetchOrders_eq : fetchOrders lib map replies =
    (ordersStep lib replies.openOrders).andThen
      (fetchTrades lib replies.trades (tradedSymbols lib map replies)) := by
  have hfails : classifyOrderResponse lib replies.openOrders ≠ .ok :=
    @LiveVenue.classify_ne_ok lib .binance replies.openOrders
  funext s
  rw [fetchOrders, FetchStep.andThen, ordersStep, tradedSymbols, BinanceFuturesConnector.rowsOf]
  cases replies.openOrders.ok with
  | false =>
    simp only [Bool.not_false, if_true, pure_bind, if_neg hfails]
  | true =>
    simp only [Bool.not_true, Bool.false_eq_true, Bool.true_eq_false, if_false]
    cases lib.parse replies.openOrders.body with
    | none => rfl
    | some json => cases json <;> rfl

/-- **A fetch of the Binance connector.** -/
theorem succeeds_fetch :
    Succeeds (fetchReconciliationSnapshot lib map replies) ↔ FetchReads lib map replies := by
  have hfails : ∀ reply, classifyOrderResponse lib reply ≠ .ok := fun reply =>
    @LiveVenue.classify_ne_ok lib .binance reply
  have hbalances : (fetchBalances lib replies.account).Fills balancesPart.table
      (balancesPart.ReadsParsed lib replies.account)
      (balancesPart.Completes lib replies.account) := by
    refine @ReplyPart.fillsParsed _ _ _ _ (FetchStep.balances (readBalance lib)) _ _
      (fun json => json.member "balances")
      (fun _ => FetchStep.fillsRows_balances fun _ => succeeds_readBalance)
      (hfails replies.account)
      (fun json value => by simp [Json.member_eq_ok, balancesPart, Json.at?, Json.step?])
      (fun hnone s => ?_) fun json hjson => funext fun s => ?_
    · rw [fetchBalances, hnone]
      cases replies.account.ok with
      | false => exact ⟨_, hfails replies.account, rfl⟩
      | true => exact ⟨_, by decide, rfl⟩
    · rw [fetchBalances, ReplyPart.step, hjson]
      cases replies.account.ok with
      | false => rfl
      | true =>
        refine bind_congr fun value => ?_
        cases value <;> rfl
  have horders : (ordersStep lib replies.openOrders).Fills ordersPart.table
      (ordersPart.ReadsParsed lib replies.openOrders)
      (ordersPart.Completes lib replies.openOrders) := by
    refine @ReplyPart.fillsParsed _ _ _ _ (FetchStep.orders (readOrder lib)) _ _
      (fun json => .ok json)
      (fun _ => FetchStep.fillsRows_orders fun _ => succeeds_readOrder)
      (hfails replies.openOrders)
      (fun json value => by simp [ordersPart, Json.at?]) (fun hnone s => ?_)
      fun json hjson => funext fun s => ?_
    · rw [ordersStep, hnone]
      cases replies.openOrders.ok with
      | false => exact ⟨_, hfails replies.openOrders, rfl⟩
      | true => exact ⟨_, by decide, rfl⟩
    · rw [ordersStep, ReplyPart.step, hjson]
      rfl
  rw [fetchReconciliationSnapshot, fetchOrders_eq]
  refine hbalances.succeeds_andThen rfl fun s₁ _ h₁ => ?_
  refine horders.succeeds_andThen (h₁ .openOrders (by decide)) fun s₂ _ h₂ => ?_
  have hroom : s₂.room .fills = 512 := (h₂ .fills (by decide)).trans (h₁ .fills (by decide))
  rw [succeeds_fetchTrades, hroom]

end BinanceConnector

/-! ## Binance futures -/

namespace BinanceFuturesConnector

variable {lib : VenueLibrary} {replies : FuturesFetchReplies}

/-- A step that does not throw. -/
def Total (step : FetchStep) : Prop := ∀ s, Succeeds (step s)

theorem Total.andThen {step next : FetchStep} (hstep : Total step) (hnext : Total next) :
    Total (step.andThen next) := by
  intro s
  refine succeeds_bind.mpr ?_
  obtain ⟨x, hx⟩ := hstep s
  refine ⟨x, hx, ?_⟩
  dsimp only
  split_ifs
  · exact hnext _
  · exact succeeds_pure _

theorem total_fetchRows {reply : VenueReply} {rows : List Json → FetchStep}
    (hrows : ∀ items, Total (rows items)) : Total (fetchRows lib reply rows) := by
  intro s
  unfold fetchRows
  split_ifs
  · exact succeeds_pure _
  · split
    · exact hrows _ s
    · exact succeeds_pure _

/-- Rows whose members are all converted. -/
theorem total_of_fillsRows {rows : FetchStep} {table : SnapshotTable} {items : List Json}
    (h : rows.FillsRows table (fun _ => True) items) : Total rows :=
  fun s => (h.succeeds s).mpr fun _ _ _ _ => trivial

theorem total_fetchTrades {trades : CString → VenueReply} {symbols : List CString} :
    Total (fetchTrades lib trades symbols) := by
  induction symbols with
  | nil => exact fun s => succeeds_pure _
  | cons symbol symbols ih =>
    intro s
    rw [fetchTrades]
    dsimp only
    split_ifs
    · exact ih s
    · exact (total_fetchRows fun _ => total_of_fillsRows (FetchStep.fillsRows_fills fun _ =>
        iff_of_true (succeeds_pure _) trivial)).andThen ih s

/-- **A fetch of the futures connector** never throws. -/
theorem succeeds_fetch : Succeeds (fetchReconciliationSnapshot lib replies) := by
  refine Total.andThen (total_fetchRows fun _ => total_of_fillsRows
    (FetchStep.fillsRows_balances fun _ => iff_of_true (succeeds_pure _) trivial)) ?_ .empty
  refine Total.andThen (total_fetchRows fun _ => total_of_fillsRows
    (FetchStep.fillsRows_orders fun _ => iff_of_true (succeeds_pure _) trivial)) ?_
  refine Total.andThen (total_fetchRows fun _ => total_of_fillsRows
    (FetchStep.fillsRows_positions fun _ => iff_of_true (succeeds_pure _) trivial)) ?_
  exact total_fetchTrades

end BinanceFuturesConnector

/-! ## The calls of a connector -/

namespace LiveVenue

/-- The replies to a fetch of the connector of the venue. -/
def FetchReplies : LiveVenue → Type
  | binance => BinanceReplies
  | binanceFutures => FuturesFetchReplies
  | kraken => KrakenReplies
  | okx | coinbase => AccountReplies

variable (lib : VenueLibrary) (map : VenueOrderMap)

/-- `fetch_reconciliation_snapshot` of the connector of the venue. -/
def fetch (venue : LiveVenue) (replies : venue.FetchReplies) :
    Except ReplyFault (ConnectorResult × ReconciliationSnapshot) :=
  match venue with
  | binance => BinanceConnector.fetchReconciliationSnapshot lib map replies
  | binanceFutures => BinanceFuturesConnector.fetchReconciliationSnapshot lib replies
  | kraken => KrakenConnector.fetchReconciliationSnapshot lib replies
  | okx => OkxConnector.fetchReconciliationSnapshot lib replies
  | coinbase => CoinbaseConnector.fetchReconciliationSnapshot lib replies

/-- What a fetch wants of its replies. -/
def FetchReads (venue : LiveVenue) (replies : venue.FetchReplies) : Prop :=
  match venue with
  | binance => BinanceConnector.FetchReads lib map replies
  | binanceFutures => True
  | kraken => KrakenConnector.FetchReads lib replies
  | okx => OkxConnector.FetchReads lib replies
  | coinbase => CoinbaseConnector.FetchReads lib replies

end LiveVenue

/-- **When the calls of a connector return.** An operation returns exactly when at each attempt that
it makes the symbol is mapped and the replies can be read, and a fetch exactly when the replies that
it gets to can. -/
theorem VenueConnector.calls_return_iff (lib : VenueLibrary) (c : VenueConnector) :
    (∀ operation replies opened opened',
      Succeeds (c.serve lib operation replies opened opened').1 ↔
        ∀ request base, c.asks operation opened opened' = some (request, base) →
          ∀ x ∈ c.made lib operation replies opened opened',
            c.venue.ReadableAttempt lib request (replies x.1) x.2) ∧
    ∀ replies : c.venue.FetchReplies,
      Succeeds (c.venue.fetch lib c.base.venueOrderMap replies) ↔
        c.venue.FetchReads lib c.base.venueOrderMap replies := by
  refine ⟨fun operation replies opened opened' => succeeds_serve, fun replies => ?_⟩
  obtain ⟨venue, base, filters⟩ := c
  cases venue with
  | binance => exact BinanceConnector.succeeds_fetch
  | binanceFutures => exact iff_of_true BinanceFuturesConnector.succeeds_fetch trivial
  | kraken => exact KrakenConnector.succeeds_fetch
  | okx => exact OkxConnector.succeeds_fetch
  | coinbase => exact CoinbaseConnector.succeeds_fetch

/-- A parser that discards every text. -/
def discarding : VenueLibrary := ⟨fun _ => none, fun _ => none, fun _ => []⟩

/-- A success without a body ends a fetch of the Kraken connector with an exception. -/
theorem fetch_throws_discarded :
    LiveVenue.fetch discarding .empty .kraken ⟨⟨200, []⟩, ⟨200, []⟩, ⟨200, []⟩⟩ =
      .error (.thrown .typeError) := rfl

end TradingInfrastructure
