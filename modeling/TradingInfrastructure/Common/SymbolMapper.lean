import TradingInfrastructure.Common.Types

/-!
# The symbols of the venues

`SymbolMapper` of `core/common/symbol_mapper.hpp`: a symbol is taken apart into its base and its
quote currency, and put together as each venue writes it. The mapper throws at an empty symbol; here
it gives nothing.
-/

namespace TradingInfrastructure

/-- `VenueSymbols`. -/
structure VenueSymbols where
  binance : CString
  okx : CString
  coinbase : CString
  krakenWs : CString
  krakenRest : CString

/-- `for_exchange`. -/
def VenueSymbols.forExchange (s : VenueSymbols) : Exchange → CString
  | .binance => s.binance
  | .okx => s.okx
  | .coinbase => s.coinbase
  | .kraken => s.krakenRest
  | .unknown => s.binance

namespace SymbolMapper

/-- `ParsedSymbol`. -/
structure ParsedSymbol where
  base : CString
  quote : CString

/-- The parts before and after the first separator, when neither is empty. -/
def splitAt (symbol : CString) (sep : Char) : Option ParsedSymbol :=
  match symbol.findIdx? (· == sep) with
  | some pos => if 0 < pos ∧ pos + 1 < symbol.length then
      some ⟨symbol.take pos, symbol.drop (pos + 1)⟩ else none
  | none => none

/-- The symbol without a suffix that is not all of it. -/
def splitSuffix (symbol suffix : CString) : Option ParsedSymbol :=
  if suffix.length < symbol.length ∧ suffix.isSuffixOf symbol then
    some ⟨symbol.take (symbol.length - suffix.length), suffix⟩
  else none

/-- `separators`. -/
def separators : List Char := ['-', '/', '_']

/-- `quote_suffixes`. -/
def quoteSuffixes : List CString :=
  ["FDUSD", "USDT", "USDC", "USDK", "TUSD", "BUSD", "DAI", "USD", "EUR", "GBP", "JPY", "TRY", "AUD",
    "CAD", "CHF", "BTC", "ETH"].map String.toList

/-- `parse_symbol`. -/
def parseSymbol (symbol : CString) : Option ParsedSymbol :=
  if symbol = [] then none
  else
    let symbol := symbol.map Char.toUpper
    match separators.findSome? (splitAt symbol) with
    | some parsed => some parsed
    | none =>
      match quoteSuffixes.findSome? (splitSuffix symbol) with
      | some parsed => some parsed
      | none =>
        if 3 < symbol.length then
          some ⟨symbol.take (symbol.length - 3), symbol.drop (symbol.length - 3)⟩
        else some ⟨symbol, []⟩

/-- `map_all`. -/
def mapAll (symbol : CString) : Option VenueSymbols :=
  (parseSymbol symbol).map fun parsed =>
    { binance := parsed.base ++ parsed.quote
      okx := parsed.base ++ ['-'] ++ parsed.quote
      coinbase := parsed.base ++ ['-'] ++ parsed.quote
      krakenWs := parsed.base ++ ['/'] ++ parsed.quote
      krakenRest := parsed.base ++ ['/'] ++ parsed.quote }

/-- `map_for_exchange`. -/
def mapForExchange (exchange : Exchange) (symbol : CString) : Option CString :=
  (mapAll symbol).map fun symbols => symbols.forExchange exchange

/-- The symbol without the first of the suffixes that it has. -/
def dropSuffix (symbol : CString) : CString :=
  match ["_PERP", "-PERP", "PERP"].find? fun suffix => suffix.toList.isSuffixOf symbol with
  | some suffix => symbol.take (symbol.length - suffix.toList.length)
  | none => symbol

/-- `normalize_binance_futures_symbol`. -/
def normalizeBinanceFuturesSymbol (symbol : CString) : CString :=
  ((dropSuffix (symbol.map Char.toUpper)).reverse.dropWhile fun c =>
    c == '-' || c == '_' || c == '/').reverse

/-- `map_for_binance_usdm_futures`. -/
def mapForBinanceUsdmFutures (symbol : CString) : Option CString :=
  mapForExchange .binance (normalizeBinanceFuturesSymbol symbol)

/-- **A symbol is mapped** unless it is empty. -/
theorem mapForExchange_eq_none {exchange : Exchange} {symbol : CString} :
    mapForExchange exchange symbol = none ↔ symbol = [] := by
  unfold mapForExchange mapAll parseSymbol
  by_cases h : symbol = []
  · simp [h]
  · simp only [h, if_false, Option.map_eq_none_iff, iff_false]
    intro hc
    split at hc
    · cases hc
    · split at hc
      · cases hc
      · split at hc <;> cases hc

/-! ## The parts of a symbol -/

variable {symbol suffix : CString} {sep : Char} {p : ParsedSymbol}

theorem splitAt_eq_some_iff : splitAt symbol sep = some p ↔
    symbol = p.base ++ sep :: p.quote ∧ sep ∉ p.base ∧ p.base ≠ [] ∧ p.quote ≠ [] := by
  rw [splitAt]
  constructor
  · intro h
    split at h
    · next pos hpos =>
      obtain ⟨hlt, hsep, hbefore⟩ := List.findIdx?_eq_some_iff_getElem.mp hpos
      split_ifs at h with hbounds
      cases h
      refine ⟨?_, fun hmem => ?_, ?_, ?_⟩
      · rw [← beq_iff_eq.mp hsep, ← List.drop_eq_getElem_cons, List.take_append_drop]
      · obtain ⟨j, hj, hget⟩ := List.mem_take_iff_getElem.mp hmem
        exact hbefore j (by omega) (beq_iff_eq.mpr hget)
      · exact List.ne_nil_of_length_pos (by rw [List.length_take]; omega)
      · exact List.ne_nil_of_length_pos (by rw [List.length_drop]; omega)
    · cases h
  · rintro ⟨rfl, hnot, hbase, hquote⟩
    have hfind : (p.base ++ sep :: p.quote).findIdx? (· == sep) = some p.base.length := by
      have hnone : p.base.findIdx? (· == sep) = none := by
        refine List.findIdx?_eq_none_iff.mpr fun c hc => ?_
        exact beq_eq_false_iff_ne.mpr fun heq => hnot (heq ▸ hc)
      simp [List.findIdx?_append, List.findIdx?_cons, hnone]
    rw [hfind]
    have hbase' := List.length_pos_of_ne_nil hbase
    have hquote' := List.length_pos_of_ne_nil hquote
    dsimp only
    rw [if_pos ⟨hbase', by rw [List.length_append, List.length_cons]; omega⟩]
    simp

theorem splitSuffix_eq_some_iff : splitSuffix symbol suffix = some p ↔
    symbol = p.base ++ suffix ∧ p.quote = suffix ∧ p.base ≠ [] := by
  rw [splitSuffix]
  constructor
  · intro h
    split_ifs at h with hsuffix
    cases h
    obtain ⟨hlt, hsuffix⟩ := hsuffix
    obtain ⟨base, rfl⟩ := List.isSuffixOf_iff_suffix.mp hsuffix
    rw [List.length_append] at hlt
    refine ⟨by simp, rfl, List.ne_nil_of_length_pos ?_⟩
    rw [List.length_take, List.length_append]
    omega
  · rintro ⟨rfl, rfl, hbase⟩
    have hpos := List.length_pos_of_ne_nil hbase
    rw [if_pos ⟨by rw [List.length_append]; omega,
      List.isSuffixOf_iff_suffix.mpr (List.suffix_append ..)⟩]
    simp

end SymbolMapper

end TradingInfrastructure
