import TradingInfrastructure.Connectors.OrderPayload

/-!
# What a payload tells of its order

The quantity and the price of a limit order are decimals of at most eight places below ten million,
kept as doubles. A payload is faithful when the texts of its numbers are plain decimals that denote
just these, and when it tells orders apart that differ in side, time in force, quantity or price.

Fifteen significant digits tell every such number apart, but write a number below a ten thousandth
with an exponent. Coinbase is given six decimals, and the same configuration for an order that is
only to be posted as for one that is not. Together with the filters of the futures these are all the
exceptions (`LiveVenue.faithful_iff`).
-/

namespace TradingInfrastructure

open DecimalText

/-! ## The property -/

/-- A limit order for a quantity and a price, in units of `10 ^ (-8)`. Below ten million there are
at most fifteen digits. -/
structure Order.LimitOf (order : Order) (q p : ℕ) : Prop where
  type : order.type = .limit
  quantity_pos : 0 < q
  quantity_lt : q < 10 ^ 15
  price_pos : 0 < p
  price_lt : p < 10 ^ 15
  quantity : NearDouble order.quantity (q / 10 ^ 8)
  price : NearDouble order.price (p / 10 ^ 8)

instance (order : Order) (q p : ℕ) : Decidable (order.LimitOf q p) :=
  decidable_of_iff
    (order.type = .limit ∧ 0 < q ∧ q < 10 ^ 15 ∧ 0 < p ∧ p < 10 ^ 15 ∧
      NearDouble order.quantity (q / 10 ^ 8) ∧ NearDouble order.price (p / 10 ^ 8))
    ⟨fun ⟨a, b, c, d, e, f, g⟩ => ⟨a, b, c, d, e, f, g⟩,
      fun h => ⟨h.1, h.2, h.3, h.4, h.5, h.6, h.7⟩⟩

namespace LiveVenue

/-- The texts of the numbers are plain decimals that denote the quantity and the price. -/
def WritesPlainly (venue : LiveVenue) (r : SubmitRequest) (q p : ℕ) : Prop :=
  ∀ sent ∈ venue.sentOrder r,
    PlainDecimal (venue.numberText sent.order.quantity) (q / 10 ^ 8) ∧
      PlainDecimal (venue.numberText sent.order.price) (p / 10 ^ 8)

/-- What is sent for two orders that differ in side, time in force, quantity or price differs. -/
def TellsApart (venue : LiveVenue) (r r' : SubmitRequest) (q p q' p' : ℕ) : Prop :=
  r.order.side ≠ r'.order.side ∨ r.order.tif ≠ r'.order.tif ∨ q ≠ q' ∨ p ≠ p' →
    ∀ sent ∈ venue.sentOrder r, ∀ sent' ∈ venue.sentOrder r', sent.payload ≠ sent'.payload

/-- The number can be written for the venue: for Coinbase with six decimals, for the others without
an exponent, and for the futures after the filters. -/
def NumberFits (venue : LiveVenue) (submitted : ℚ) (n : ℕ) : Prop :=
  match venue with
  | binance | kraken | okx => 10 ^ 4 ≤ n
  | binanceFutures => roundedTo 15 submitted = n / 10 ^ 8 ∧ 10 ^ 4 ≤ n
  | coinbase => 100 ∣ n

/-- The quantity and the price of what is sent can be written for the venue. -/
def Fits (venue : LiveVenue) (r : SubmitRequest) (q p : ℕ) : Prop :=
  ∀ sent ∈ venue.sentOrder r,
    venue.NumberFits sent.order.quantity q ∧ venue.NumberFits sent.order.price p

/-- Two orders for Coinbase under the same client order id that differ only in being GTC or GTX. -/
structure Twins (venue : LiveVenue) (r r' : SubmitRequest) (q p q' p' : ℕ) : Prop where
  coinbase : venue = .coinbase
  clientOrderId : r.order.clientOrderId = r'.order.clientOrderId
  product : ∃ productId, SymbolMapper.mapForExchange .coinbase r.order.symbol.chars =
      some productId ∧
    SymbolMapper.mapForExchange .coinbase r'.order.symbol.chars = some productId
  side : r.order.side = r'.order.side
  quantity : q = q'
  price : p = p'
  posted : (r.order.tif = .gtc ∧ r'.order.tif = .gtx) ∨ (r.order.tif = .gtx ∧ r'.order.tif = .gtc)

/-! ## Numbers -/

theorem fifteenDigits_of_pos {v : ℚ} (hv : 0 < v) : fifteenDigits v = generalText 15 v :=
  if_neg hv.not_gt

/-- **Fifteen digits are plain** from a ten thousandth on. -/
theorem plain_fifteenDigits_iff {v : ℚ} {n : ℕ} (hv : 0 < v) (hlt : n < 10 ^ 15) :
    PlainDecimal (fifteenDigits v) (n / 10 ^ 8) ↔ roundedTo 15 v = n / 10 ^ 8 ∧ 10 ^ 4 ≤ n := by
  have hn : (n : ℚ) < 10 ^ 15 := by exact_mod_cast hlt
  have hbound : (n : ℚ) / 10 ^ 8 < 10 ^ 15 := by
    rw [div_lt_iff₀ (by norm_num)]
    exact hn.trans (by norm_num)
  rw [fifteenDigits_of_pos hv, plain_generalText_iff (by norm_num) hv hbound]
  refine and_congr_right fun _ => ?_
  rw [div_le_div_iff₀ (by norm_num) (by norm_num)]
  constructor
  · intro h
    have : ((10 ^ 4 : ℕ) : ℚ) ≤ n := by
      push_cast
      linarith
    exact_mod_cast this
  · intro h
    have : ((10 ^ 4 : ℕ) : ℚ) ≤ n := by exact_mod_cast h
    push_cast at this
    linarith

/-- A double of the decimal is rounded to it. -/
theorem roundedTo_decimal {v : ℚ} {n : ℕ} (hn : 0 < n) (hlt : n < 10 ^ 15)
    (h : NearDouble v (n / 10 ^ 8)) : roundedTo 15 v = n / 10 ^ 8 := by
  have hvalue : (n : ℚ) / 10 ^ 8 = n * 10 ^ (-8 : ℤ) := by
    rw [zpow_neg, div_eq_mul_inv]
    norm_num
  rw [hvalue] at h ⊢
  exact roundedTo_near hn hlt h

/-- A multiple of a millionth, rounded to six decimals. -/
theorem round_sixDecimals {v : ℚ} {k : ℕ} (hlt : 100 * k < 10 ^ 15)
    (h : NearDouble v ((100 * k : ℕ) / 10 ^ 8)) : (roundHalfEven (v * 10 ^ 6)).toNat = k := by
  have hscaled : (((100 * k : ℕ) : ℚ) / 10 ^ 8) * 10 ^ 6 = k := by
    push_cast
    ring
  exact h.round (by norm_num) hscaled (by omega)

/-- **Six decimals are right** for a multiple of a millionth. -/
theorem plain_decimalString_iff {v : ℚ} {n : ℕ} (hn : 0 < n) (hlt : n < 10 ^ 15)
    (h : NearDouble v (n / 10 ^ 8)) :
    PlainDecimal (CoinbaseConnector.decimalString v) (n / 10 ^ 8) ↔ 100 ∣ n := by
  have hv : 0 < v := h.pos (by positivity)
  have hplain : PlainDecimal (CoinbaseConnector.decimalString v)
      ((roundHalfEven (v * 10 ^ 6)).toNat / 10 ^ 6) := by
    have htext : PlainDecimal (trimZeros (signed (fixedText 6) v))
        ((roundHalfEven (v * 10 ^ 6)).toNat / 10 ^ 6) := by
      rw [signed, if_neg hv.not_gt]
      exact (plain_decimalText _ 6).trimZeros (point_mem_decimalText (by norm_num))
    have hne : trimZeros (signed (fixedText 6) v) ≠ [] := by
      obtain ⟨whole, frac, hwhole, -, htrim, -⟩ := htext
      rw [htrim]
      exact fun hnil => hwhole.1 (List.append_eq_nil_iff.mp hnil).1
    simpa only [CoinbaseConnector.decimalString, if_neg hne] using htext
  rw [hplain.iff]
  constructor
  · intro hvalue
    refine ⟨(roundHalfEven (v * 10 ^ 6)).toNat, ?_⟩
    have : (n : ℚ) = 100 * (roundHalfEven (v * 10 ^ 6)).toNat := by
      rw [← hvalue]
      ring
    exact_mod_cast this
  · rintro ⟨k, rfl⟩
    rw [round_sixDecimals hlt h]
    push_cast
    ring

/-- Doubles of one multiple of a millionth have one text. -/
theorem decimalString_eq {v v' : ℚ} {n : ℕ} (hn : 0 < n) (hlt : n < 10 ^ 15) (hdvd : 100 ∣ n)
    (h : NearDouble v (n / 10 ^ 8)) (h' : NearDouble v' (n / 10 ^ 8)) :
    CoinbaseConnector.decimalString v = CoinbaseConnector.decimalString v' := by
  have hpos : (0 : ℚ) < n / 10 ^ 8 := by positivity
  have htext : signed (fixedText 6) v = signed (fixedText 6) v' := by
    obtain ⟨k, rfl⟩ := hdvd
    rw [signed, signed, if_neg (h.pos hpos).not_gt, if_neg (h'.pos hpos).not_gt, fixedText,
      fixedText, round_sixDecimals hlt h, round_sixDecimals hlt h']
  simp only [CoinbaseConnector.decimalString, htext]

end LiveVenue

/-! ## Forms -/

section Forms

variable {p p' k k' v v' : CString} {xs ys : List (CString × CString)} {c : Char}

theorem appendField_ne_nil : appendField p k v ≠ [] := by
  simp [appendField]

/-- The value of the last field of a form can be told. -/
theorem appendField_value (hv : '=' ∉ v) (hv' : '=' ∉ v')
    (h : appendField p k v = appendField p' k' v') : v = v' :=
  (append_cons_inj_last hv hv' h).2

/-- The last field of a form can be taken off. -/
theorem appendField_inj (hp : p ≠ []) (hp' : p' ≠ []) (hv : '=' ∉ v) (hv' : '=' ∉ v')
    (h : appendField p k v = appendField p' k v') : p = p' ∧ v = v' := by
  obtain ⟨hhead, hvalue⟩ := append_cons_inj_last hv hv' h
  rw [if_neg hp, if_neg hp'] at hhead
  exact ⟨List.append_cancel_right (List.append_cancel_right hhead), hvalue⟩

theorem hexDigit_ne {n : ℕ} (hn : n < 16) : hexDigit n ≠ '=' := by
  interval_cases n <;> decide

/-- An encoded value has no sign of equality. -/
theorem not_mem_encodeComponent (v : CString) : '=' ∉ encodeComponent v := by
  intro hmem
  obtain ⟨c, -, hc⟩ := List.mem_flatMap.mp hmem
  split_ifs at hc with hunreserved
  · rw [List.mem_singleton] at hc
    subst hc
    exact absurd hunreserved (by decide)
  · simp only [List.mem_cons, List.not_mem_nil, or_false] at hc
    rcases hc with hc | hc | hc
    · exact absurd hc (by decide)
    · exact hexDigit_ne (Nat.mod_lt _ (by norm_num)) hc.symm
    · exact hexDigit_ne (Nat.mod_lt _ (by norm_num)) hc.symm

theorem encodeComponent_of_unreserved (h : ∀ c ∈ v, unreserved c = true) :
    encodeComponent v = v := by
  induction v with
  | nil => rfl
  | cons c v ih =>
    have hrest := ih fun d hd => h d (List.mem_cons_of_mem c hd)
    unfold encodeComponent at hrest ⊢
    rw [List.flatMap_cons, if_pos (h c List.mem_cons_self), hrest]
    rfl

theorem percentEncodeParams_concat (xs : List (CString × CString)) (param : CString × CString) :
    percentEncodeParams (xs ++ [param]) =
      appendField (percentEncodeParams xs) (encodeComponent param.1) (encodeComponent param.2) := by
  simp [percentEncodeParams]

theorem percentEncodeParams_ne_nil (h : xs ≠ []) : percentEncodeParams xs ≠ [] := by
  obtain ⟨xs, param, rfl⟩ := List.eq_nil_or_concat xs |>.resolve_left h
  rw [List.concat_eq_append, percentEncodeParams_concat]
  exact appendField_ne_nil

/-- The value of the last parameter can be told. -/
theorem encoded_value (h : percentEncodeParams (xs ++ [(k, v)]) =
    percentEncodeParams (ys ++ [(k', v')])) : encodeComponent v = encodeComponent v' := by
  rw [percentEncodeParams_concat, percentEncodeParams_concat] at h
  exact appendField_value (not_mem_encodeComponent v) (not_mem_encodeComponent v') h

/-- The last parameter can be taken off. -/
theorem encoded_inj (hxs : xs ≠ []) (hys : ys ≠ []) (h : percentEncodeParams (xs ++ [(k, v)]) =
    percentEncodeParams (ys ++ [(k, v')])) :
    percentEncodeParams xs = percentEncodeParams ys ∧ encodeComponent v = encodeComponent v' := by
  rw [percentEncodeParams_concat, percentEncodeParams_concat] at h
  exact appendField_inj (percentEncodeParams_ne_nil hxs) (percentEncodeParams_ne_nil hys)
    (not_mem_encodeComponent v) (not_mem_encodeComponent v') h

end Forms

theorem DecimalText.PlainDecimal.encoded {s : CString} {q : ℚ} (h : PlainDecimal s q) :
    encodeComponent s = s := by
  refine encodeComponent_of_unreserved fun c hc => ?_
  rcases h.mem hc with hdigit | rfl
  · simp [unreserved, Char.isAlphanum, hdigit]
  · rfl

theorem DecimalText.PlainDecimal.not_mem_equals {s : CString} {q : ℚ} (h : PlainDecimal s q) :
    '=' ∉ s := h.not_mem (by decide) (by decide)

theorem DecimalText.PlainDecimal.not_mem_quote {s : CString} {q : ℚ} (h : PlainDecimal s q) :
    '"' ∉ s := h.not_mem (by decide) (by decide)

/-! ## What each payload tells -/

/-- The texts of the numbers of an order are plain. -/
def LiveVenue.Plain (venue : LiveVenue) (order : Order) : Prop :=
  (∃ q, PlainDecimal (venue.numberText order.quantity) q) ∧
    ∃ p, PlainDecimal (venue.numberText order.price) p

/-- Two orders have the same side, time in force and texts of their numbers. -/
structure LiveVenue.Agree (venue : LiveVenue) (a b : Order) : Prop where
  side : a.side = b.side
  tif : a.tif = b.tif
  quantity : venue.numberText a.quantity = venue.numberText b.quantity
  price : venue.numberText a.price = venue.numberText b.price

namespace BinanceConnector

/-- What tells the time in force of a limit order. -/
def tifWord (tif : TimeInForce) : CString :=
  if tif = .gtx then "LIMIT_MAKER".toList else tifString tif

theorem tifWord_inj {t t' : TimeInForce}
    (h : encodeComponent (tifWord t) = encodeComponent (tifWord t')) : t = t' := by
  revert h
  cases t <;> cases t' <;> decide

theorem sideString_inj {s s' : Side}
    (h : encodeComponent (sideString s) = encodeComponent (sideString s')) : s = s' := by
  revert h
  cases s <;> cases s' <;> decide

/-- The parameters of every order. -/
def commonParams (order : Order) (symbol clientOrderId : CString) : List (CString × CString) :=
  [("symbol".toList, symbol)] ++ [("side".toList, sideString order.side)] ++
    [("newClientOrderId".toList, clientOrderId)]

/-- The parameters of a limit order before its quantity and its price. -/
def leadParams (order : Order) (symbol clientOrderId : CString) : List (CString × CString) :=
  (if order.tif = .gtx then commonParams order symbol clientOrderId
    else commonParams order symbol clientOrderId ++ [("type".toList, "LIMIT".toList)]) ++
    [(if order.tif = .gtx then "type".toList else "timeInForce".toList, tifWord order.tif)]

/-- The parameters of a limit order. -/
theorem buildOrderParams_limit {order : Order} {clientOrderId : CString}
    {params : List (CString × CString)} (hlimit : order.type = .limit)
    (h : buildOrderParams order clientOrderId = some params) : ∃ symbol,
      params = leadParams order symbol clientOrderId ++
        [("quantity".toList, formatDecimal order.quantity)] ++
        [("price".toList, formatDecimal order.price)] := by
  unfold buildOrderParams at h
  simp only [Option.bind_eq_bind, Option.bind_eq_some_iff, hlimit, reduceCtorEq, if_false,
    Option.pure_def] at h
  obtain ⟨-, -, symbol, -, h⟩ := h
  refine ⟨symbol, ?_⟩
  unfold leadParams tifWord
  split_ifs at h ⊢ <;> exact (Option.some.inj h).symm

theorem commonParams_ne_nil {order : Order} {symbol clientOrderId : CString} :
    commonParams order symbol clientOrderId ≠ [] := List.concat_ne_nil _ _

/-- The side can be told from the parameters of every order. -/
theorem side_of_commonParams {a b : Order} {symbol symbol' ida idb : CString}
    (h : percentEncodeParams (commonParams a symbol ida) =
      percentEncodeParams (commonParams b symbol' idb)) : a.side = b.side := by
  obtain ⟨hside, -⟩ := encoded_inj (List.concat_ne_nil _ _) (List.concat_ne_nil _ _) h
  exact sideString_inj (encoded_value hside)

/-- **The payload tells the order.** -/
theorem agree_of_payload {a b : Order} {ida idb payload : CString} (ha : a.type = .limit)
    (hb : b.type = .limit) (hplain : LiveVenue.binance.Plain a)
    (hplain' : LiveVenue.binance.Plain b)
    (h : (buildOrderParams a ida).map percentEncodeParams = some payload)
    (h' : (buildOrderParams b idb).map percentEncodeParams = some payload) :
    LiveVenue.binance.Agree a b := by
  obtain ⟨params, hparams, rfl⟩ := Option.map_eq_some_iff.mp h
  obtain ⟨params', hparams', hsame⟩ := Option.map_eq_some_iff.mp h'
  obtain ⟨symbol, rfl⟩ := buildOrderParams_limit ha hparams
  obtain ⟨symbol', rfl⟩ := buildOrderParams_limit hb hparams'
  obtain ⟨⟨q, hq⟩, p, hp⟩ := hplain
  obtain ⟨⟨q', hq'⟩, p', hp'⟩ := hplain'
  obtain ⟨hrest, hprice⟩ :=
    encoded_inj (List.concat_ne_nil _ _) (List.concat_ne_nil _ _) hsame.symm
  obtain ⟨hlead, hquantity⟩ :=
    encoded_inj (List.concat_ne_nil _ _) (List.concat_ne_nil _ _) hrest
  have htif : a.tif = b.tif := tifWord_inj (encoded_value hlead)
  have hside : a.side = b.side := by
    rw [htif] at hlead
    by_cases hpost : b.tif = .gtx
    · simp only [if_pos hpost] at hlead
      exact side_of_commonParams (encoded_inj commonParams_ne_nil commonParams_ne_nil hlead).1
    · simp only [if_neg hpost] at hlead
      obtain ⟨htype, -⟩ := encoded_inj (List.concat_ne_nil _ _) (List.concat_ne_nil _ _) hlead
      exact side_of_commonParams (encoded_inj commonParams_ne_nil commonParams_ne_nil htype).1
  exact ⟨hside, htif, hq.encoded.symm.trans (hquantity.trans hq'.encoded),
    hp.encoded.symm.trans (hprice.trans hp'.encoded)⟩

end BinanceConnector

namespace BinanceFuturesConnector

theorem positionSideString_ne (s : FuturesPositionSide) :
    encodeComponent "true".toList ≠ encodeComponent (positionSideString s) := by
  cases s <;> decide

theorem tifString_inj {t t' : TimeInForce}
    (h : encodeComponent (tifString t) = encodeComponent (tifString t')) : t = t' := by
  revert h
  cases t <;> cases t' <;> decide

theorem commonParams_ne_nil {order : Order} {symbol clientOrderId : CString} :
    commonParams order symbol clientOrderId ≠ [] :=
  List.append_ne_nil_of_left_ne_nil (List.cons_ne_nil _ _) _

/-- The parameters of a limit order. -/
theorem buildOrderParams_limit {order : Order} {clientOrderId : CString}
    {params : List (CString × CString)} (hlimit : order.type = .limit)
    (h : buildOrderParams order clientOrderId = some params) : ∃ symbol,
      params = commonParams order symbol clientOrderId ++ [("type".toList, "LIMIT".toList)] ++
        [("timeInForce".toList, tifString order.tif)] ++
        [("quantity".toList, formatDecimal order.quantity)] ++
        [("price".toList, formatDecimal order.price)] := by
  unfold buildOrderParams at h
  simp only [Option.bind_eq_bind, Option.bind_eq_some_iff, hlimit, Option.pure_def] at h
  obtain ⟨-, -, symbol, -, h⟩ := h
  refine ⟨symbol, (Option.some.inj h).symm.trans ?_⟩
  simp only [List.append_assoc, List.cons_append, List.nil_append]

/-- The side can be told from the parameters of every order. -/
theorem side_of_commonParams {a b : Order} {symbol symbol' ida idb : CString}
    (h : percentEncodeParams (commonParams a symbol ida) =
      percentEncodeParams (commonParams b symbol' idb)) : a.side = b.side := by
  -- the parameters without that of an order that only reduces
  have hside : ∀ {mode mode' : CString},
      percentEncodeParams ([("symbol".toList, symbol)] ++ [("side".toList, sideString a.side)] ++
          [("newClientOrderId".toList, ida)] ++ [("positionSide".toList, mode)]) =
        percentEncodeParams ([("symbol".toList, symbol')] ++ [("side".toList, sideString b.side)] ++
          [("newClientOrderId".toList, idb)] ++ [("positionSide".toList, mode')]) →
      a.side = b.side := fun h => BinanceConnector.side_of_commonParams
    (encoded_inj BinanceConnector.commonParams_ne_nil BinanceConnector.commonParams_ne_nil h).1
  unfold commonParams at h
  cases hreduce : a.reduceOnly <;> cases hreduce' : b.reduceOnly <;>
    simp only [hreduce, hreduce', if_true, if_false, Bool.false_eq_true, List.append_nil] at h
  · exact hside h
  · exact absurd (@encoded_value _ _ _ _ [_, _, _] _ h).symm (positionSideString_ne _)
  · exact absurd (@encoded_value _ _ _ _ _ [_, _, _] h) (positionSideString_ne _)
  · exact hside (encoded_inj (List.cons_ne_nil _ _) (List.cons_ne_nil _ _) h).1

/-- **The payload tells the order.** -/
theorem agree_of_payload {a b : Order} {ida idb payload : CString} (ha : a.type = .limit)
    (hb : b.type = .limit) (hplain : LiveVenue.binanceFutures.Plain a)
    (hplain' : LiveVenue.binanceFutures.Plain b)
    (h : (buildOrderParams a ida).map percentEncodeParams = some payload)
    (h' : (buildOrderParams b idb).map percentEncodeParams = some payload) :
    LiveVenue.binanceFutures.Agree a b := by
  obtain ⟨params, hparams, rfl⟩ := Option.map_eq_some_iff.mp h
  obtain ⟨params', hparams', hsame⟩ := Option.map_eq_some_iff.mp h'
  obtain ⟨symbol, rfl⟩ := buildOrderParams_limit ha hparams
  obtain ⟨symbol', rfl⟩ := buildOrderParams_limit hb hparams'
  obtain ⟨⟨q, hq⟩, p, hp⟩ := hplain
  obtain ⟨⟨q', hq'⟩, p', hp'⟩ := hplain'
  obtain ⟨hrest, hprice⟩ :=
    encoded_inj (List.concat_ne_nil _ _) (List.concat_ne_nil _ _) hsame.symm
  obtain ⟨hlead, hquantity⟩ :=
    encoded_inj (List.concat_ne_nil _ _) (List.concat_ne_nil _ _) hrest
  obtain ⟨htype, htif⟩ := encoded_inj (List.concat_ne_nil _ _) (List.concat_ne_nil _ _) hlead
  obtain ⟨hcommon, -⟩ := encoded_inj commonParams_ne_nil commonParams_ne_nil htype
  exact ⟨side_of_commonParams hcommon, tifString_inj htif,
    hq.encoded.symm.trans (hquantity.trans hq'.encoded),
    hp.encoded.symm.trans (hprice.trans hp'.encoded)⟩

end BinanceFuturesConnector

namespace KrakenConnector

theorem sideString_inj {s s' : Side} (h : sideString s = sideString s') : s = s' := by
  revert h
  cases s <;> cases s' <;> decide

theorem tifString_inj {t t' : TimeInForce} (h : tifString t = tifString t') : t = t' := by
  revert h
  cases t <;> cases t' <;> decide

theorem not_mem_sideString (s : Side) : '=' ∉ sideString s := by
  cases s <;> decide

theorem post_ne_tifString (t : TimeInForce) : "post".toList ≠ tifString t := by
  cases t <;> decide

theorem not_mem_tifString (t : TimeInForce) : '=' ∉ tifString t := by
  cases t <;> decide

/-- The form of a limit order up to its time in force. -/
def limitForm (order : Order) (pair : CString) : CString :=
  appendField (appendField (appendField (appendField (appendField
    (appendField [] "ordertype".toList "limit".toList) "pair".toList pair)
    "type".toList (sideString order.side)) "volume".toList (decimalString order.quantity))
    "price".toList (decimalString order.price)) "timeinforce".toList (tifString order.tif)

theorem buildOrderPayload_limit {order : Order} {payload : CString} (hlimit : order.type = .limit)
    (h : buildOrderPayload order = some payload) : ∃ pair,
      payload = if order.tif = .gtx then
        appendField (limitForm order pair) "oflags".toList "post".toList
        else limitForm order pair := by
  unfold buildOrderPayload at h
  simp only [Option.bind_eq_bind, Option.bind_eq_some_iff, hlimit, reduceCtorEq, ne_eq,
    not_false_eq_true, if_true, if_false, Option.pure_def] at h
  obtain ⟨pair, -, h⟩ := h
  exact ⟨pair, (Option.some.inj h).symm⟩

/-- **The payload tells the order.** -/
theorem agree_of_payload {a b : Order} {payload : CString} (ha : a.type = .limit)
    (hb : b.type = .limit) (hplain : LiveVenue.kraken.Plain a) (hplain' : LiveVenue.kraken.Plain b)
    (h : buildOrderPayload a = some payload) (h' : buildOrderPayload b = some payload) :
    LiveVenue.kraken.Agree a b := by
  obtain ⟨pair, rfl⟩ := buildOrderPayload_limit ha h
  obtain ⟨pair', hsame⟩ := buildOrderPayload_limit hb h'
  obtain ⟨⟨q, hq⟩, p, hp⟩ := hplain
  obtain ⟨⟨q', hq'⟩, p', hp'⟩ := hplain'
  have hform : limitForm a pair = limitForm b pair' := by
    split_ifs at hsame with hpost hpost' hpost'
    · exact (appendField_inj appendField_ne_nil appendField_ne_nil (by decide) (by decide) hsame).1
    · exact absurd (appendField_value (by decide) (not_mem_tifString b.tif) hsame)
        (post_ne_tifString _)
    · exact absurd (appendField_value (not_mem_tifString a.tif) (by decide) hsame).symm
        (post_ne_tifString _)
    · exact hsame
  obtain ⟨hprices, htif⟩ := appendField_inj appendField_ne_nil appendField_ne_nil
    (not_mem_tifString _) (not_mem_tifString _) hform
  obtain ⟨hvolumes, hprice⟩ := appendField_inj appendField_ne_nil appendField_ne_nil
    hp.not_mem_equals hp'.not_mem_equals hprices
  obtain ⟨hsides, hquantity⟩ := appendField_inj appendField_ne_nil appendField_ne_nil
    hq.not_mem_equals hq'.not_mem_equals hvolumes
  have hside := appendField_value (not_mem_sideString _) (not_mem_sideString _) hsides
  exact ⟨sideString_inj hside, tifString_inj htif, hquantity, hprice⟩

end KrakenConnector

/-! ## Objects -/

section Objects

variable {x y v w : CString} {key : String}

/-- The last member of an object can be taken off. -/
theorem append_textMember_inj (hv : '"' ∉ v) (hw : '"' ∉ w)
    (h : x ++ ",".toList ++ textMember key v = y ++ ",".toList ++ textMember key w) :
    x = y ∧ v = w := by
  unfold textMember at h
  simp only [← List.append_assoc] at h
  obtain ⟨hhead, hvalue⟩ := append_cons_inj_last hv hw (List.append_cancel_right h)
  refine ⟨?_, hvalue⟩
  exact List.append_cancel_right (List.append_cancel_right (List.append_cancel_right hhead))

end Objects

namespace OkxConnector

theorem not_mem_sideString (s : Side) : '"' ∉ sideString s := by
  cases s <;> decide

/-- The type of a limit order. -/
theorem okxOrderType_limit {order : Order} (hlimit : order.type = .limit) :
    okxOrderType order = match order.tif with
      | .ioc => "ioc".toList
      | .fok => "fok".toList
      | .gtx => "post_only".toList
      | .gtc => "limit".toList := by
  rw [okxOrderType, hlimit]
  rfl

theorem not_mem_okxOrderType {order : Order} (hlimit : order.type = .limit) :
    '"' ∉ okxOrderType order := by
  rw [okxOrderType_limit hlimit]
  cases order.tif <;> decide

theorem okxOrderType_inj {a b : Order} (ha : a.type = .limit) (hb : b.type = .limit)
    (h : okxOrderType a = okxOrderType b) : a.tif = b.tif := by
  rw [okxOrderType_limit ha, okxOrderType_limit hb] at h
  revert h
  cases a.tif <;> cases b.tif <;> decide

theorem buildOrderPayload_limit {order : Order} {payload : CString} (hlimit : order.type = .limit)
    (h : buildOrderPayload order = some payload) : ∃ lead,
      payload = lead ++ ",".toList ++ textMember "side" (sideString order.side) ++
        ",".toList ++ textMember "ordType" (okxOrderType order) ++
        ",".toList ++ textMember "sz" (formatNumber order.quantity) ++
        ",".toList ++ textMember "px" (formatNumber order.price) ++ "\x7d".toList := by
  unfold buildOrderPayload at h
  simp only [Option.bind_eq_bind, Option.bind_eq_some_iff, hlimit, reduceCtorEq, ne_eq,
    not_false_eq_true, if_true, Option.pure_def] at h
  obtain ⟨-, -, instId, -, h⟩ := h
  exact ⟨_, (Option.some.inj h).symm⟩

/-- **The payload tells the order.** -/
theorem agree_of_payload {a b : Order} {payload : CString} (ha : a.type = .limit)
    (hb : b.type = .limit) (hplain : LiveVenue.okx.Plain a) (hplain' : LiveVenue.okx.Plain b)
    (h : buildOrderPayload a = some payload) (h' : buildOrderPayload b = some payload) :
    LiveVenue.okx.Agree a b := by
  obtain ⟨lead, rfl⟩ := buildOrderPayload_limit ha h
  obtain ⟨lead', hsame⟩ := buildOrderPayload_limit hb h'
  obtain ⟨⟨q, hq⟩, p, hp⟩ := hplain
  obtain ⟨⟨q', hq'⟩, p', hp'⟩ := hplain'
  obtain ⟨hsizes, hprice⟩ := append_textMember_inj hp.not_mem_quote hp'.not_mem_quote
    (List.append_cancel_right hsame)
  obtain ⟨htypes, hquantity⟩ := append_textMember_inj hq.not_mem_quote hq'.not_mem_quote hsizes
  obtain ⟨hsides, htype⟩ :=
    append_textMember_inj (not_mem_okxOrderType ha) (not_mem_okxOrderType hb) htypes
  obtain ⟨-, hside⟩ :=
    append_textMember_inj (not_mem_sideString _) (not_mem_sideString _) hsides
  exact ⟨KrakenConnector.sideString_inj hside, okxOrderType_inj ha hb htype, hquantity, hprice⟩

end OkxConnector

namespace CoinbaseConnector

variable {a b order : Order} {payload : CString}

theorem not_mem_sideString (s : Side) : '"' ∉ sideString s := by
  cases s <;> decide

theorem sideString_inj {s s' : Side} (h : sideString s = sideString s') : s = s' := by
  revert h
  cases s <;> cases s' <;> decide

theorem not_mem_limitConfig (t : TimeInForce) : '"' ∉ (limitConfig t).1.toList := by
  cases t <;> decide

/-- A configuration for orders that are not posted only ends with the price. -/
theorem limitConfig_end (t : TimeInForce) :
    (limitConfig t).2 = [] ∨ (limitConfig t).2 = ",\"post_only\":false".toList := by
  cases t <;> simp [limitConfig]

/-- The times in force that have one configuration. -/
def SameConfig (t t' : TimeInForce) : Prop :=
  t = t' ∨ (t = .gtc ∧ t' = .gtx) ∨ (t = .gtx ∧ t' = .gtc)

theorem sameConfig_of_name {t t' : TimeInForce}
    (h : (limitConfig t).1.toList = (limitConfig t').1.toList) : SameConfig t t' := by
  unfold SameConfig
  revert h
  cases t <;> cases t' <;> decide

theorem SameConfig.limitConfig_eq {t t' : TimeInForce} (h : SameConfig t t') :
    limitConfig t = limitConfig t' := by
  rcases h with rfl | ⟨rfl, rfl⟩ | ⟨rfl, rfl⟩ <;> rfl

/-- What stands before the configuration. -/
def head (order : Order) (productId : CString) : CString :=
  "\x7b".toList ++ textMember "client_order_id" (Nat.toDigits 10 order.clientOrderId) ++
    ",".toList ++ textMember "product_id" productId ++
    ",".toList ++ textMember "side" (sideString order.side) ++
      ",\"order_configuration\":\x7b".toList

/-- What stands before the end of the configuration. -/
def priced (order : Order) (productId : CString) : CString :=
  head order productId ++
    '"' :: (limitConfig order.tif).1.toList ++ "\":\x7b\"base_size\":".toList ++
    '"' :: decimalString order.quantity ++ "\"".toList ++ ",".toList ++
    textMember "limit_price" (decimalString order.price)

/-- The payload of a limit order. -/
theorem buildOrderPayload_limit (hlimit : order.type = .limit) (productId : CString)
    (hproduct : SymbolMapper.mapForExchange .coinbase order.symbol.chars = some productId) :
    buildOrderPayload order = some (priced order productId ++ (limitConfig order.tif).2 ++
      "\x7d\x7d\x7d".toList) := by
  simp only [buildOrderPayload, hproduct, orderConfig, hlimit, priced, head, textMember]
  simp

theorem exists_product (h : buildOrderPayload order = some payload) :
    ∃ productId, SymbolMapper.mapForExchange .coinbase order.symbol.chars = some productId := by
  unfold buildOrderPayload at h
  obtain ⟨productId, hproduct, -⟩ := Option.bind_eq_some_iff.mp h
  exact ⟨productId, hproduct⟩

/-- What stands before the configuration tells the order id, the product and the side. -/
theorem head_inj {product product' : CString} (h : head a product = head b product') :
    a.clientOrderId = b.clientOrderId ∧ product = product' ∧ a.side = b.side := by
  have hdigits : ∀ n : ℕ, '"' ∉ Nat.toDigits 10 n := fun n hmem =>
    absurd (Nat.isDigit_of_mem_toDigits (by decide) le_rfl hmem) (by decide)
  obtain ⟨hfront, hside⟩ := append_textMember_inj (not_mem_sideString _) (not_mem_sideString _)
    (List.append_cancel_right h)
  -- the number of the order is what stands before the next quote
  have hopened : Nat.toDigits 10 a.clientOrderId ++ '"' :: (",".toList ++
        textMember "product_id" product) =
      Nat.toDigits 10 b.clientOrderId ++ '"' :: (",".toList ++
        textMember "product_id" product') := by
    have hwhole : ("\x7b\"client_order_id\":".toList ++ ['"']) ++
        (Nat.toDigits 10 a.clientOrderId ++ '"' :: (",".toList ++
          textMember "product_id" product)) =
      ("\x7b\"client_order_id\":".toList ++ ['"']) ++
        (Nat.toDigits 10 b.clientOrderId ++ '"' :: (",".toList ++
          textMember "product_id" product')) := by
      simpa [textMember] using hfront
    exact List.append_cancel_left hwhole
  obtain ⟨hid, hproduct⟩ := append_cons_inj_first (hdigits _) (hdigits _) hopened
  refine ⟨?_, ?_, sideString_inj hside⟩
  · rw [← @Nat.ofDigitChars_ten_toDigits a.clientOrderId, hid, Nat.ofDigitChars_ten_toDigits]
  · have hvalue := List.append_cancel_left hproduct
    unfold textMember at hvalue
    exact (List.cons.inj (List.append_cancel_left (List.append_cancel_right hvalue))).2

/-- The end of the payload tells whether the configuration goes on after the price. -/
theorem end_of_payload {product product' : CString} {t t' : TimeInForce}
    (h : priced a product ++ (limitConfig t).2 ++ "\x7d\x7d\x7d".toList =
      priced b product' ++ (limitConfig t').2 ++ "\x7d\x7d\x7d".toList) :
    (limitConfig t).2 = (limitConfig t').2 := by
  -- what follows the last quote
  have hends : ∀ {a b : Order} {product product' : CString},
      priced a product ++ [] ++ "\x7d\x7d\x7d".toList ≠
        priced b product' ++ ",\"post_only\":false".toList ++ "\x7d\x7d\x7d".toList := by
    intro a b product product' hsame
    obtain ⟨front, hfront⟩ : ∃ front, priced a product = front ++ ['"'] :=
      ⟨_, (List.append_assoc _ _ ['"']).symm⟩
    have hquotes : front ++ '"' :: "\x7d\x7d\x7d".toList =
        (priced b product' ++ ",\"post_only".toList) ++ '"' :: ":false\x7d\x7d\x7d".toList := by
      rw [hfront] at hsame
      simpa using hsame
    have hrest := (append_cons_inj_last (by decide) (by decide) hquotes).2
    exact absurd hrest (by decide)
  rcases limitConfig_end t with ht | ht <;> rcases limitConfig_end t' with ht' | ht' <;>
    rw [ht, ht'] at h
  · rw [ht, ht']
  · exact absurd h hends
  · exact absurd h.symm hends
  · rw [ht, ht']

/-- **The payload tells the order**, but not whether it is to be posted only. -/
theorem agree_of_payload (ha : a.type = .limit) (hb : b.type = .limit)
    (hplain : LiveVenue.coinbase.Plain a) (hplain' : LiveVenue.coinbase.Plain b)
    (h : buildOrderPayload a = some payload) (h' : buildOrderPayload b = some payload) :
    a.clientOrderId = b.clientOrderId ∧
      (∃ productId, SymbolMapper.mapForExchange .coinbase a.symbol.chars = some productId ∧
        SymbolMapper.mapForExchange .coinbase b.symbol.chars = some productId) ∧
      a.side = b.side ∧ SameConfig a.tif b.tif ∧
      decimalString a.quantity = decimalString b.quantity ∧
      decimalString a.price = decimalString b.price := by
  obtain ⟨product, hproduct⟩ := exists_product h
  obtain ⟨product', hproduct'⟩ := exists_product h'
  have hsame : priced a product ++ (limitConfig a.tif).2 ++ "\x7d\x7d\x7d".toList =
      priced b product' ++ (limitConfig b.tif).2 ++ "\x7d\x7d\x7d".toList := by
    rw [buildOrderPayload_limit ha product hproduct] at h
    rw [buildOrderPayload_limit hb product' hproduct'] at h'
    exact Option.some.inj (h.trans h'.symm)
  obtain ⟨⟨q, hq⟩, p, hp⟩ := hplain
  obtain ⟨⟨q', hq'⟩, p', hp'⟩ := hplain'
  rw [end_of_payload hsame] at hsame
  obtain ⟨hsizes, hprice⟩ := append_textMember_inj hp.not_mem_quote hp'.not_mem_quote
    (List.append_cancel_right (List.append_cancel_right hsame))
  obtain ⟨hnames, hquantity⟩ := append_cons_inj_last hq.not_mem_quote hq'.not_mem_quote
    (List.append_cancel_right hsizes)
  obtain ⟨hhead, hname⟩ := append_cons_inj_last (not_mem_limitConfig _) (not_mem_limitConfig _)
    (List.append_cancel_right hnames)
  obtain ⟨hid, rfl, hside⟩ := head_inj hhead
  exact ⟨hid, ⟨product, hproduct, hproduct'⟩, hside, sameConfig_of_name hname, hquantity, hprice⟩

end CoinbaseConnector

/-! ## What is sent -/

namespace BinanceFuturesConnector

/-- The filters change the quantity and the prices of an order only. -/
theorem normalized_eq {filters : BinanceFuturesSymbolFilters} {order order' : Order}
    {result : ConnectorResult} (h : normalizeAndValidateOrder filters order = (result, order')) :
    ∃ quantity price stopPrice, order' = { order with quantity, price, stopPrice } := by
  have hprice : ∀ o : Order, ∃ price, (normalizePrice filters o).2 = { o with price } := by
    intro o
    unfold normalizePrice
    dsimp only
    split_ifs <;> exact ⟨_, rfl⟩
  have hstop : ∀ o : Order, ∃ stopPrice, (normalizeStop filters o).2 = { o with stopPrice } := by
    intro o
    unfold normalizeStop
    dsimp only
    split_ifs <;> exact ⟨_, rfl⟩
  have hquantity : ∀ o : Order, ∃ quantity, (normalizeQuantity filters o).2 =
    { o with quantity } := by
    intro o
    unfold normalizeQuantity
    dsimp only
    split_ifs <;> exact ⟨_, rfl⟩
  obtain ⟨price, hprice⟩ := hprice order
  obtain ⟨stopPrice, hstop⟩ := hstop { order with price }
  obtain ⟨quantity, hquantity⟩ := hquantity { order with price, stopPrice }
  unfold normalizeAndValidateOrder at h
  simp only [hprice, hstop] at h
  split_ifs at h
  · exact ⟨_, _, _, ((Prod.mk.inj h).2).symm⟩
  · exact ⟨_, _, _, ((Prod.mk.inj h).2).symm⟩
  · rw [h] at hquantity
    exact ⟨_, _, _, hquantity⟩

theorem positive_of_valid {order : Order} (hlimit : order.type = .limit)
    (h : validateOrderRequest order = .ok) : 0 < order.quantity ∧ 0 < order.price := by
  unfold validateOrderRequest at h
  split_ifs at h with hsymbol hclose hquantity hprice <;>
    (rw [hlimit] at hclose hprice
     refine ⟨?_, not_le.mp fun hle => hprice ⟨rfl, hle⟩⟩
     by_contra hle
     exact hclose ⟨by by_contra hopen; exact hquantity ⟨hopen, not_lt.mp hle⟩, Or.inl (by decide)⟩)

end BinanceFuturesConnector

namespace LiveVenue

variable {venue : LiveVenue} {r r' : SubmitRequest} {sent sent' : SentOrder} {q p q' p' : ℕ}

/-- What a connector has made of an order when it sends it. Only the futures connector changes the
quantity and the price, and it sends none that is not positive. -/
structure Sends (venue : LiveVenue) (r : SubmitRequest) (sent : SentOrder) : Prop where
  side : sent.order.side = r.order.side
  type : sent.order.type = r.order.type
  tif : sent.order.tif = r.order.tif
  payload : venue.payloadOf r.idempotencyKey sent.order = some sent.payload
  same : venue ≠ binanceFutures → sent.order = r.order
  positive : venue = binanceFutures → r.order.type = .limit →
    0 < sent.order.quantity ∧ 0 < sent.order.price

theorem sends_of_mem (h : sent ∈ venue.sentOrder r) : venue.Sends r sent := by
  simp only [sentOrder, Option.mem_def, Option.bind_eq_bind, Option.bind_eq_some_iff,
    Option.pure_def] at h
  obtain ⟨order, horder, payload, hpayload, h⟩ := h
  cases h
  by_cases hfutures : venue = binanceFutures
  · subst hfutures
    simp only [orderFor] at horder
    split at horder
    · next normalized hnormal =>
      obtain ⟨quantity, price, stopPrice, rfl⟩ := BinanceFuturesConnector.normalized_eq hnormal
      obtain rfl := Option.some.inj horder
      refine ⟨rfl, rfl, rfl, hpayload, fun h => absurd rfl h, fun _ hlimit => ?_⟩
      -- what is sent has passed the check of the order
      obtain ⟨params, hparams, -⟩ := Option.map_eq_some_iff.mp hpayload
      obtain ⟨_, hguard, -⟩ := Option.bind_eq_some_iff.mp hparams
      refine BinanceFuturesConnector.positive_of_valid hlimit ?_
      by_contra hinvalid
      simp only [guard, hinvalid, if_false] at hguard
      cases hguard
    · cases horder
  · have hsame : r.order = order := by
      cases venue with
      | binanceFutures => exact absurd rfl hfutures
      | binance | kraken | okx | coinbase => exact Option.some.inj horder
    subst hsame
    exact ⟨rfl, rfl, rfl, hpayload, fun _ => rfl, fun h => absurd h hfutures⟩

theorem Sends.limit (h : venue.Sends r sent) (hr : r.order.LimitOf q p) :
    sent.order.type = .limit := h.type.trans hr.type

/-- **The text of a number is right** exactly when the number can be written for the venue. -/
theorem plain_numberText_iff {venue : LiveVenue} {v : ℚ} {n : ℕ} (hn : 0 < n) (hlt : n < 10 ^ 15)
    (hnear : venue ≠ binanceFutures → NearDouble v (n / 10 ^ 8))
    (hpos : venue = binanceFutures → 0 < v) :
    PlainDecimal (venue.numberText v) (n / 10 ^ 8) ↔ venue.NumberFits v n := by
  have hfifteen : NearDouble v (n / 10 ^ 8) →
      (PlainDecimal (fifteenDigits v) (n / 10 ^ 8) ↔ 10 ^ 4 ≤ n) := fun h =>
    (plain_fifteenDigits_iff (h.pos (by positivity)) hlt).trans
      (and_iff_right (roundedTo_decimal hn hlt h))
  cases venue with
  | binance | kraken | okx => exact hfifteen (hnear (by decide))
  | binanceFutures => exact plain_fifteenDigits_iff (hpos rfl) hlt
  | coinbase => exact plain_decimalString_iff hn hlt (hnear (by decide))

theorem Sends.plain_iff (h : venue.Sends r sent) (hr : r.order.LimitOf q p) :
    (PlainDecimal (venue.numberText sent.order.quantity) (q / 10 ^ 8) ↔
        venue.NumberFits sent.order.quantity q) ∧
      (PlainDecimal (venue.numberText sent.order.price) (p / 10 ^ 8) ↔
        venue.NumberFits sent.order.price p) :=
  ⟨plain_numberText_iff hr.quantity_pos hr.quantity_lt (fun hv => h.same hv ▸ hr.quantity)
      fun hv => (h.positive hv hr.type).1,
    plain_numberText_iff hr.price_pos hr.price_lt (fun hv => h.same hv ▸ hr.price)
      fun hv => (h.positive hv hr.type).2⟩

/-- **The numbers are right** exactly when they can be written for the venue. -/
theorem writesPlainly_iff (hr : r.order.LimitOf q p) :
    venue.WritesPlainly r q p ↔ venue.Fits r q p :=
  forall₂_congr fun _ hsent => and_congr ((sends_of_mem hsent).plain_iff hr).1
    ((sends_of_mem hsent).plain_iff hr).2

/-- Plain texts that are the same denote the same number. -/
theorem eq_of_plain {s s' : CString} {n n' : ℕ} (h : PlainDecimal s (n / 10 ^ 8))
    (h' : PlainDecimal s' (n' / 10 ^ 8)) (hsame : s = s') : n = n' := by
  subst hsame
  have hvalue := h.unique h'
  field_simp at hvalue
  exact_mod_cast hvalue

/-- What is sent tells the order, except at Coinbase. -/
theorem Sends.agree (hne : venue ≠ coinbase) (h : venue.Sends r sent) (h' : venue.Sends r' sent')
    (hlimit : sent.order.type = .limit) (hlimit' : sent'.order.type = .limit)
    (hplain : venue.Plain sent.order) (hplain' : venue.Plain sent'.order)
    (hsame : sent.payload = sent'.payload) : venue.Agree sent.order sent'.order := by
  have hpayload' := hsame ▸ h'.payload
  cases venue with
  | binance =>
    exact BinanceConnector.agree_of_payload hlimit hlimit' hplain hplain' h.payload hpayload'
  | binanceFutures =>
    exact BinanceFuturesConnector.agree_of_payload hlimit hlimit' hplain hplain' h.payload hpayload'
  | kraken =>
    exact KrakenConnector.agree_of_payload hlimit hlimit' hplain hplain' h.payload hpayload'
  | okx => exact OkxConnector.agree_of_payload hlimit hlimit' hplain hplain' h.payload hpayload'
  | coinbase => exact absurd rfl hne

/-- Twins are sent with one payload. -/
theorem Twins.same_payload (h : venue.Twins r r' q p q' p') (hr : r.order.LimitOf q p)
    (hr' : r'.order.LimitOf q' p') (hq : 100 ∣ q) (hp : 100 ∣ p) :
    ∃ sent ∈ venue.sentOrder r, ∃ sent' ∈ venue.sentOrder r', sent.payload = sent'.payload := by
  obtain ⟨rfl, hid, ⟨product, hproduct, hproduct'⟩, hside, rfl, rfl, hposted⟩ := h
  have hconfig := CoinbaseConnector.SameConfig.limitConfig_eq (Or.inr hposted)
  have hquantity := decimalString_eq hr.quantity_pos hr.quantity_lt hq hr.quantity hr'.quantity
  have hprice := decimalString_eq hr.price_pos hr.price_lt hp hr.price hr'.price
  have hpayload : CoinbaseConnector.buildOrderPayload r.order =
      CoinbaseConnector.buildOrderPayload r'.order := by
    rw [CoinbaseConnector.buildOrderPayload_limit hr.type product hproduct,
      CoinbaseConnector.buildOrderPayload_limit hr'.type product hproduct']
    simp only [CoinbaseConnector.priced, CoinbaseConnector.head, hid, hside, hconfig, hquantity,
      hprice]
  obtain ⟨payload, hmade⟩ : ∃ payload,
      CoinbaseConnector.buildOrderPayload r.order = some payload :=
    ⟨_, CoinbaseConnector.buildOrderPayload_limit hr.type product hproduct⟩
  refine ⟨⟨r.order, payload⟩, ?_, ⟨r'.order, payload⟩, ?_, rfl⟩
  · simp [sentOrder, orderFor, payloadOf, hmade]
  · simp [sentOrder, orderFor, payloadOf, ← hpayload, hmade]

/-- The numbers of twins that are written plainly are multiples of a millionth. -/
theorem Twins.dvd (h : venue.Twins r r' q p q' p') (hr : r.order.LimitOf q p)
    (hplain : venue.WritesPlainly r q p) : 100 ∣ q ∧ 100 ∣ p := by
  obtain ⟨rfl, -, ⟨product, hproduct, -⟩, -⟩ := h
  have hsent : (⟨r.order, CoinbaseConnector.priced r.order product ++
      (CoinbaseConnector.limitConfig r.order.tif).2 ++ "\x7d\x7d\x7d".toList⟩ : SentOrder) ∈
      sentOrder .coinbase r := by
    simp [sentOrder, orderFor, payloadOf,
      CoinbaseConnector.buildOrderPayload_limit hr.type product hproduct]
  exact (writesPlainly_iff hr).mp hplain _ hsent

/-- **Orders are told apart** by plain payloads unless they are twins. -/
theorem tellsApart_iff (hr : r.order.LimitOf q p) (hr' : r'.order.LimitOf q' p')
    (hplain : venue.WritesPlainly r q p) (hplain' : venue.WritesPlainly r' q' p') :
    venue.TellsApart r r' q p q' p' ↔ ¬ venue.Twins r r' q p q' p' := by
  constructor
  · intro happart htwins
    obtain ⟨hq, hp⟩ := htwins.dvd hr hplain
    obtain ⟨sent, hsent, sent', hsent', hsame⟩ := htwins.same_payload hr hr' hq hp
    refine happart (Or.inr (Or.inl fun htif => ?_)) sent hsent sent' hsent' hsame
    rcases htwins.posted with ⟨h, h'⟩ | ⟨h, h'⟩ <;> rw [h, h'] at htif <;> cases htif
  · intro htwins hdiffer sent hsent sent' hsent' hsame
    have hs := sends_of_mem hsent
    have hs' := sends_of_mem hsent'
    obtain ⟨hquantity, hprice⟩ := hplain sent hsent
    obtain ⟨hquantity', hprice'⟩ := hplain' sent' hsent'
    have hplains : venue.Plain sent.order := ⟨⟨_, hquantity⟩, _, hprice⟩
    have hplains' : venue.Plain sent'.order := ⟨⟨_, hquantity'⟩, _, hprice'⟩
    by_cases hcoinbase : venue = coinbase
    · subst hcoinbase
      obtain ⟨hid, hproduct, hside, hconfig, hquantities, hprices⟩ :=
        CoinbaseConnector.agree_of_payload (hs.limit hr) (hs'.limit hr') hplains hplains'
          hs.payload (hsame ▸ hs'.payload)
      rw [hs.same (by decide), hs'.same (by decide)] at hid hproduct
      rw [hs.side, hs'.side] at hside
      rw [hs.tif, hs'.tif] at hconfig
      have hq := eq_of_plain hquantity hquantity' hquantities
      have hp := eq_of_plain hprice hprice' hprices
      rcases hconfig with htif | hposted
      · rcases hdiffer with h | h | h | h
        · exact h hside
        · exact h htif
        · exact h hq
        · exact h hp
      · exact htwins ⟨rfl, hid, hproduct, hside, hq, hp, hposted⟩
    · have hagree := Sends.agree hcoinbase hs hs' (hs.limit hr) (hs'.limit hr') hplains hplains'
        hsame
      rcases hdiffer with h | h | h | h
      · exact h (hs.side.symm.trans (hagree.side.trans hs'.side))
      · exact h (hs.tif.symm.trans (hagree.tif.trans hs'.tif))
      · exact h (eq_of_plain hquantity hquantity' hagree.quantity)
      · exact h (eq_of_plain hprice hprice' hagree.price)

/-- **Payloads are faithful**: for every venue and any two limit orders, the numbers are written as
plain decimals and the orders are told apart, exactly when the numbers can be written for the venue
and the orders are no twins. -/
theorem faithful_iff (venue : LiveVenue) (hr : r.order.LimitOf q p) (hr' : r'.order.LimitOf q' p') :
    venue.WritesPlainly r q p ∧ venue.WritesPlainly r' q' p' ∧ venue.TellsApart r r' q p q' p' ↔
      venue.Fits r q p ∧ venue.Fits r' q' p' ∧ ¬ venue.Twins r r' q p q' p' := by
  rw [← writesPlainly_iff hr, ← writesPlainly_iff hr']
  exact and_congr_right fun hplain => and_congr_right fun hplain' =>
    tellsApart_iff hr hr' hplain hplain'

/-- A limit order for half a coin. -/
def halfCoin (side : Side) : SubmitRequest where
  order :=
    { symbol := copySymbol "BTCUSDT".toList, side, quantity := 1 / 2, price := 123456789 / 1000,
      clientOrderId := 7 }
  idempotencyKey := []

theorem faithful_halfCoin :
    (∃ sent, sent ∈ binance.sentOrder (halfCoin .bid)) ∧
      binance.WritesPlainly (halfCoin .bid) 50000000 12345678900000 ∧
      binance.WritesPlainly (halfCoin .ask) 50000000 12345678900000 ∧
      binance.TellsApart (halfCoin .bid) (halfCoin .ask) 50000000 12345678900000 50000000
        12345678900000 :=
  ⟨Option.isSome_iff_exists.mp (by decide +kernel),
    (faithful_iff .binance (by decide +kernel) (by decide +kernel)).mpr
      ⟨fun _ _ => ⟨(by decide : 10 ^ 4 ≤ 50000000), (by decide : 10 ^ 4 ≤ 12345678900000)⟩,
        fun _ _ => ⟨(by decide : 10 ^ 4 ≤ 50000000), (by decide : 10 ^ 4 ≤ 12345678900000)⟩,
        fun h => absurd h.coinbase (by decide)⟩⟩

/-- A limit order for a hundred thousandth of a coin. -/
def dust : SubmitRequest where
  order :=
    { symbol := copySymbol "BTCUSDT".toList, side := .bid, quantity := 1 / 100000, price := 100,
      clientOrderId := 7 }
  idempotencyKey := []

/-- Binance is sent an exponent. -/
theorem dust_has_exponent :
    dust.order.LimitOf 1000 (100 * 10 ^ 8) ∧
      (∃ sent ∈ binance.sentOrder dust,
        binance.numberText sent.order.quantity = "1e-05".toList) ∧
      ¬ binance.WritesPlainly dust 1000 (100 * 10 ^ 8) := by
  have hsent : ∃ sent ∈ binance.sentOrder dust,
      binance.numberText sent.order.quantity = "1e-05".toList := by
    refine ⟨(binance.sentOrder dust).get (by decide +kernel), ?_, ?_⟩ <;> decide +kernel
  refine ⟨by decide +kernel, hsent, fun hplain => ?_⟩
  obtain ⟨sent, hmem, htext⟩ := hsent
  have hdecimal := (hplain sent hmem).1
  rw [htext] at hdecimal
  exact @PlainDecimal.not_mem _ _ 'e' hdecimal (by decide) (by decide) (by decide)

end LiveVenue

end TradingInfrastructure
