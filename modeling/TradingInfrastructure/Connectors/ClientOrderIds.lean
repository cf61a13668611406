import TradingInfrastructure.Connectors.AccountSize

/-!
# Client order ids at the Binance connectors

The text of a client order id, `make_idempotency_key`, is read back by `parse_client_order_id`. But
the parser takes the digits of any text, so another text is told apart only if it has none that
count. And what a fetch makes of a trade has its id from another member than that of an open order:
at spot from the order id of the venue, at the futures from a member that a trade need not have
(`clientOrderIds_iff`).
-/

namespace TradingInfrastructure

/-! ## Texts -/

/-- The decimal number that the digits of a text make. -/
def digitsValue (text : CString) : ℕ := Nat.ofDigitChars 10 (text.filter Char.isDigit) 0

theorem parseClientOrderId_eq (text : CString) :
    parseClientOrderId text = digitsValue text % 2 ^ 64 := rfl

theorem parseClientOrderId_eq_zero_iff (text : CString) :
    parseClientOrderId text = 0 ↔ 2 ^ 64 ∣ digitsValue text :=
  (Nat.dvd_iff_mod_eq_zero ..).symm

namespace LiveConnectorBase

/-- The text is that of a client order id. -/
def Produces (c : LiveConnectorBase) (text : CString) : Prop :=
  ∃ id : UInt64, text = c.makeIdempotencyKey id.toNat

theorem digitsValue_makeIdempotencyKey (c : LiveConnectorBase) (n : ℕ) :
    digitsValue (c.makeIdempotencyKey n) = n := by
  have hdigits : (Nat.toDigits 10 n).filter Char.isDigit = Nat.toDigits 10 n :=
    List.filter_eq_self.mpr fun d hd => Nat.isDigit_of_mem_toDigits (by norm_num) (by norm_num) hd
  have hname : c.exchange.toCString.filter Char.isDigit = [] := by
    cases c.exchange <;> rfl
  have hprefix : "TRT-".toList.filter Char.isDigit = [] := rfl
  have hdash : ['-'].filter Char.isDigit = [] := rfl
  rw [digitsValue, makeIdempotencyKey, List.filter_append, List.filter_append, List.filter_append,
    hdigits, hname, hprefix, hdash, List.append_nil, List.append_nil, List.nil_append,
    Nat.ofDigitChars_ten_toDigits]

/-- **An id is read back.** -/
theorem parse_makeIdempotencyKey (c : LiveConnectorBase) (id : UInt64) :
    parseClientOrderId (c.makeIdempotencyKey id.toNat) = id.toNat := by
  rw [parseClientOrderId_eq, digitsValue_makeIdempotencyKey, Nat.mod_eq_of_lt id.toNat_lt]

end LiveConnectorBase

/-! ## Rows and the elements they are read of -/

section

variable {α : Type} {lib : VenueLibrary} {read : Json → Except ReplyFault α}

/-- The elements of the answers on trades. -/
def tradeElements (lib : VenueLibrary) (trades : CString → VenueReply) (symbols : List CString) :
    List Json :=
  symbols.flatMap fun symbol => BinanceFuturesConnector.rowsOf lib (trades symbol)

theorem VenueReply.Lists.readsAs {reply : VenueReply} {rows : List α}
    (h : reply.Lists lib read rows) :
    ReadsAs read (BinanceFuturesConnector.rowsOf lib reply) rows := by
  obtain ⟨-, items, hparse, hitems⟩ := h
  rw [BinanceFuturesConnector.rowsOf, hparse]
  exact hitems

theorem readsAs_flatMap {trades : CString → VenueReply} {symbols : List CString}
    {rows : CString → List α}
    (h : ∀ symbol ∈ symbols, (trades symbol).Lists lib read (rows symbol)) :
    ReadsAs read (tradeElements lib trades symbols) (symbols.flatMap rows) := by
  induction symbols with
  | nil => exact .nil
  | cons symbol symbols ih =>
    exact List.rel_append (h symbol List.mem_cons_self).readsAs
      (ih fun symbol hsymbol => h symbol (List.mem_cons_of_mem _ hsymbol))

/-- What holds of the rows is what holds of the elements. -/
theorem ReadsAs.forall₂_iff {P : Json → α → Prop} {Q : Json → Prop} {elements : List Json}
    {rows : List α} (h : ReadsAs read elements rows)
    (hP : ∀ element row, read element = .ok row → (P element row ↔ Q element)) :
    List.Forall₂ P elements rows ↔ ∀ element ∈ elements, Q element := by
  induction h with
  | nil => simp
  | cons hread _ ih => rw [List.forall₂_cons, List.forall_mem_cons, hP _ _ hread, ih]

end

/-! ## The ids of a snapshot -/

/-- Each open order of the engine carries its id. The engine's orders are those under its keys. -/
def OrdersCarryIds (lib : VenueLibrary) (c : LiveConnectorBase) (elements : List Json)
    (s : ReconciliationSnapshot) : Prop :=
  List.Forall₂ (fun element order => ∀ id : UInt64,
    element.jsonString "clientOrderId" lib = c.makeIdempotencyKey id.toNat →
      order.clientOrderId = id.toNat) elements s.openOrders.items

/-- Each fill of an order of the engine carries the id of the order. -/
def FillsCarryIds (owner : Json → Option UInt64) (elements : List Json)
    (s : ReconciliationSnapshot) : Prop :=
  List.Forall₂ (fun element fill => ∀ id ∈ owner element, fill.clientOrderId = id.toNat)
    elements s.fills.items

theorem BinanceConnector.clientOrderId_readFill {lib : VenueLibrary} {element : Json}
    {fill : ReconciledFill} (h : BinanceConnector.readFill lib element = .ok fill) :
    ∃ orderId, element.uint64 "orderId" = .ok orderId ∧ fill.clientOrderId = orderId.toNat := by
  obtain ⟨orderId, hid, h⟩ := bind_eq_ok.mp h
  obtain ⟨_, -, h⟩ := bind_eq_ok.mp h
  obtain ⟨_, -, h⟩ := bind_eq_ok.mp h
  obtain ⟨_, -, h⟩ := bind_eq_ok.mp h
  obtain ⟨_, -, h⟩ := bind_eq_ok.mp h
  obtain ⟨_, -, h⟩ := bind_eq_ok.mp h
  cases h
  exact ⟨orderId, hid, rfl⟩

theorem BinanceConnector.clientOrderId_readOrder {lib : VenueLibrary} {element : Json}
    {order : ReconciledOrder} (h : BinanceConnector.readOrder lib element = .ok order) :
    order.clientOrderId = parseClientOrderId (element.jsonString "clientOrderId" lib) := by
  obtain ⟨_, -, h⟩ := bind_eq_ok.mp h
  obtain ⟨_, -, h⟩ := bind_eq_ok.mp h
  cases h
  rfl

theorem BinanceFuturesConnector.clientOrderId_readFill {lib : VenueLibrary} {element : Json}
    {fill : ReconciledFill} (h : BinanceFuturesConnector.readFill lib element = .ok fill) :
    fill.clientOrderId = parseClientOrderId (element.jsonString "clientOrderId" lib) := by
  cases h
  rfl

theorem BinanceFuturesConnector.clientOrderId_readOrder {lib : VenueLibrary} {element : Json}
    {order : ReconciledOrder} (h : BinanceFuturesConnector.readOrder lib element = .ok order) :
    order.clientOrderId = parseClientOrderId (element.jsonString "clientOrderId" lib) := by
  cases h
  rfl

/-- Orders that are read by their key carry their ids. -/
theorem ordersCarryIds {lib : VenueLibrary} {read : Json → Except ReplyFault ReconciledOrder}
    (hread : ∀ element order, read element = .ok order →
      order.clientOrderId = parseClientOrderId (element.jsonString "clientOrderId" lib))
    (c : LiveConnectorBase) {elements : List Json} {s : ReconciliationSnapshot}
    (h : ReadsAs read elements s.openOrders.items) : OrdersCarryIds lib c elements s :=
  h.imp fun element order horder id hkey => by
    rw [hread element order horder, hkey, c.parse_makeIdempotencyKey id]

/-- **Client order ids** are read back, and open orders carry them. A text that is none counts as
none exactly when the number of its digits does, and the fills of a snapshot carry the ids of their
orders exactly when the member says so that they are read of. -/
theorem clientOrderIds_iff (lib : VenueLibrary) (c : LiveConnectorBase)
    (owner : Json → Option UInt64) (account : VenueAccount) (s : ReconciliationSnapshot) :
    (∀ id : UInt64, parseClientOrderId (c.makeIdempotencyKey id.toNat) = id.toNat) ∧
    (∀ text, (¬ c.Produces text → parseClientOrderId text = 0) ↔
      c.Produces text ∨ 2 ^ 64 ∣ digitsValue text) ∧
    (∀ map replies, BinanceConnector.Truthful lib map replies account →
      BinanceConnector.fetchReconciliationSnapshot lib map replies = .ok (.ok, s) →
      OrdersCarryIds lib c (BinanceFuturesConnector.rowsOf lib replies.openOrders) s ∧
      (FillsCarryIds owner (tradeElements lib replies.trades
          (BinanceConnector.tradedSymbols lib map replies)) s ↔
        ∀ element ∈ tradeElements lib replies.trades
          (BinanceConnector.tradedSymbols lib map replies),
          ∀ id ∈ owner element, element.uint64 "orderId" = .ok id)) ∧
    ∀ replies, BinanceFuturesConnector.Truthful lib replies account →
      BinanceFuturesConnector.fetchReconciliationSnapshot lib replies = .ok (.ok, s) →
      OrdersCarryIds lib c (BinanceFuturesConnector.rowsOf lib replies.openOrders) s ∧
      (FillsCarryIds owner (tradeElements lib replies.trades
          (BinanceFuturesConnector.tradedSymbols lib replies)) s ↔
        ∀ element ∈ tradeElements lib replies.trades
          (BinanceFuturesConnector.tradedSymbols lib replies),
          ∀ id ∈ owner element,
            digitsValue (element.jsonString "clientOrderId" lib) % 2 ^ 64 = id.toNat) := by
  refine ⟨c.parse_makeIdempotencyKey, fun text => ?_, fun map replies h hfetch => ?_,
    fun replies h hfetch => ?_⟩
  · rw [parseClientOrderId_eq_zero_iff, or_iff_not_imp_left]
  · have hrows := (BinanceConnector.fetch_eq_ok_iff h s).mp hfetch
    have horders : s.openOrders.items = account.openOrders := congrArg SnapshotRows.openOrders hrows
    have hfills : s.fills.items = _ := congrArg SnapshotRows.fills hrows
    refine ⟨ordersCarryIds (fun _ _ => BinanceConnector.clientOrderId_readOrder) c
      (horders ▸ h.openOrders.readsAs), ?_⟩
    rw [FillsCarryIds, hfills]
    refine (readsAs_flatMap h.fills).forall₂_iff fun element fill hread => ?_
    obtain ⟨orderId, hid, hfill⟩ := BinanceConnector.clientOrderId_readFill hread
    simp only [hid, hfill, Except.ok.injEq, UInt64.toNat_inj]
  · have hrows := (BinanceFuturesConnector.fetch_eq_ok_iff h s).mp hfetch
    have horders : s.openOrders.items = account.openOrders := congrArg SnapshotRows.openOrders hrows
    have hfills : s.fills.items = _ := congrArg SnapshotRows.fills hrows
    refine ⟨ordersCarryIds (fun _ _ => BinanceFuturesConnector.clientOrderId_readOrder) c
      (horders ▸ h.openOrders.readsAs), ?_⟩
    rw [FillsCarryIds, hfills]
    refine (readsAs_flatMap h.fills).forall₂_iff fun element fill hread => ?_
    rw [BinanceFuturesConnector.clientOrderId_readFill hread, parseClientOrderId_eq]

/-! ## A trade at spot -/

namespace SpotTrade

/-- An open order of the engine, under the id 7. -/
def order : Json :=
  .object [("symbol".toList, .string "BTCUSDT".toList), ("orderId".toList, .unsigned 28),
    ("clientOrderId".toList, .string "TRT-7-BINANCE".toList)]

/-- A trade of it. -/
def trade : Json :=
  .object [("symbol".toList, .string "BTCUSDT".toList), ("id".toList, .unsigned 457),
    ("orderId".toList, .unsigned 28)]

/-- The text of the open orders. -/
def orderText : CString :=
  "[\x7b\"symbol\":\"BTCUSDT\",\"orderId\":28,\"clientOrderId\":\"TRT-7-BINANCE\"\x7d]".toList

/-- The text of the trades. -/
def tradeText : CString :=
  "[\x7b\"symbol\":\"BTCUSDT\",\"id\":457,\"orderId\":28\x7d]".toList

/-- The text of an account without balances. -/
def accountText : CString := "\x7b\"balances\":[]\x7d".toList

/-- The parser, for these texts. -/
def parse (text : CString) : Option Json :=
  if text = orderText then some (.array [order])
  else if text = tradeText then some (.array [trade])
  else if text = accountText then some (.object [("balances".toList, .array [])])
  else none

/-- A library with this parser. -/
def library : VenueLibrary := ⟨parse, fun _ => none, fun _ => []⟩

/-- The replies to a fetch. -/
def replies : BinanceReplies := ⟨⟨200, accountText⟩, ⟨200, orderText⟩, fun _ => ⟨200, tradeText⟩⟩

/-- The account. -/
def account : VenueAccount where
  openOrders := [{ clientOrderId := 7, venueOrderId := "28".toList, symbol := "BTCUSDT".toList }]
  fills _ := [{ clientOrderId := 28, venueOrderId := "28".toList, venueTradeId := "457".toList
                symbol := "BTCUSDT".toList, exchange := .binance, notional := 0 * 0 }]

theorem parse_orders : parse orderText = some (.array [order]) := if_pos rfl

theorem parse_trades : parse tradeText = some (.array [trade]) :=
  (if_neg (by decide)).trans (if_pos rfl)

theorem parse_account : parse accountText = some (.object [("balances".toList, .array [])]) :=
  (if_neg (by decide)).trans ((if_neg (by decide)).trans (if_pos rfl))

theorem truthful : BinanceConnector.Truthful library [] replies account where
  answered := rfl
  balances := ⟨_, [], parse_account, rfl, .nil⟩
  positions := rfl
  openOrders := ⟨rfl, [order], parse_orders, .cons rfl .nil⟩
  fills _ _ := ⟨rfl, [trade], parse_trades, .cons rfl .nil⟩

theorem length_openOrders_le : account.openOrders.length ≤ 128 := by decide

theorem length_fills_le : (account.fills []).length ≤ 512 := by decide

/-- The snapshot. -/
def snapshot : ReconciliationSnapshot :=
  { ReconciliationSnapshot.empty with
    openOrders := ⟨account.openOrders, length_openOrders_le⟩
    fills := ⟨account.fills [], length_fills_le⟩ }

theorem rows_orders : BinanceFuturesConnector.rowsOf library replies.openOrders = [order] := by
  change ((parse orderText).map Json.items).getD [] = [order]
  rw [parse_orders]
  rfl

theorem tradedSymbols_eq :
    BinanceConnector.tradedSymbols library [] replies = ["BTCUSDT".toList] := by
  have htexts : (([order].map fun item => item.jsonString "symbol" library).filter
      fun symbol => !symbol.isEmpty) = ["BTCUSDT".toList] := rfl
  have hdedup : ["BTCUSDT".toList].dedup = ["BTCUSDT".toList] := by decide
  rw [BinanceConnector.tradedSymbols, rows_orders, BinanceConnector.symbolsOf, textSet, htexts]
  exact (congrArg (List.mergeSort · _) hdedup).trans (List.mergeSort_singleton _)

theorem fetch_eq : BinanceConnector.fetchReconciliationSnapshot library [] replies =
    .ok (.ok, snapshot) := by
  rw [BinanceConnector.fetch_eq_ok_iff truthful, tradedSymbols_eq]
  rfl

/-- The engine's order, where a trade is of it. -/
def owner : Json → Option UInt64 := fun _ => some 7

theorem elements_eq : tradeElements library replies.trades
    (BinanceConnector.tradedSymbols library [] replies) = [trade] := by
  have hrows : BinanceFuturesConnector.rowsOf library ⟨200, tradeText⟩ = [trade] := by
    change ((parse tradeText).map Json.items).getD [] = [trade]
    rw [parse_trades]
    rfl
  rw [tradedSymbols_eq, tradeElements]
  exact (List.flatMap_singleton ..).trans hrows

/-- The open order has the id of the engine's order, and the trade of it another one. -/
theorem clientOrderIds_spot :
    OrdersCarryIds library (.new .binance ⟨3⟩ []) [order] snapshot ∧
      ¬ FillsCarryIds owner [trade] snapshot := by
  have h := (clientOrderIds_iff library (.new .binance ⟨3⟩ []) owner account snapshot).2.2.1
    [] replies truthful fetch_eq
  rw [rows_orders, elements_eq] at h
  refine ⟨h.1, fun hcarry => ?_⟩
  have hid := h.2.mp hcarry trade (List.mem_singleton_self _) 7 rfl
  cases hid

/-- **Ids that are none**: a text that the engine does not write, a trade at spot, and a trade at
the futures without the member. -/
theorem foreign_ids :
    parseClientOrderId "web_1".toList = 1 ∧
    (∀ c : LiveConnectorBase, ¬ c.Produces "web_1".toList) ∧
    (BinanceConnector.readFill library trade).map (·.clientOrderId) = .ok 28 ∧
    (BinanceFuturesConnector.readFill library trade).map (·.clientOrderId) = .ok 0 := by
  refine ⟨by decide +kernel, fun c => ?_, rfl, rfl⟩
  rintro ⟨id, h⟩
  cases h

end SpotTrade

end TradingInfrastructure
