import TradingInfrastructure.Common.SymbolMapper
import Mathlib.Data.List.DropRight
import Mathlib.Data.List.TakeWhile

/-!
# The two parsers of a symbol

`parse_symbol_parts` of `research/neural_alpha/common/symbols.py` stands in for
`SymbolMapper::parse_symbol` where the C++ module is missing. Both split a symbol at a separator, or
else before a known quote currency, or else before its last three characters.

They differ in what they do first and last: the Python parser strips white space, and it takes a
name of up to three characters for the quote, not for the base. So they agree exactly on the texts
that have neither (`parseSymbol_eq_parseSymbolParts_iff`). The texts are ASCII.
-/

namespace TradingInfrastructure

namespace SymbolParts

open SymbolMapper

/-- `str.isspace` of an ASCII character. -/
def isSpace (c : Char) : Bool :=
  c.val == 32 || (9 ≤ c.val && c.val ≤ 13) || (28 ≤ c.val && c.val ≤ 31)

/-- `str.strip`. -/
def strip (symbol : CString) : CString :=
  ((symbol.dropWhile isSpace).reverse.dropWhile isSpace).reverse

/-- The separators. -/
def separators : List Char := ['-', '/', '_']

/-- The quote currencies. -/
def suffixes : List CString :=
  ["FDUSD", "USDT", "USDC", "USDK", "TUSD", "BUSD", "DAI", "USD", "EUR", "GBP", "JPY", "TRY", "AUD",
    "CAD", "CHF", "BTC", "ETH"].map String.toList

/-- `symbol.split(separator, maxsplit=1)`, when it gives two parts that are not empty. -/
def splitFirst (symbol : CString) (separator : Char) : Option ParsedSymbol :=
  if separator ∈ symbol then
    let base := symbol.takeWhile (· ≠ separator)
    let quote := (symbol.dropWhile (· ≠ separator)).drop 1
    if base ≠ [] ∧ quote ≠ [] then some ⟨base, quote⟩ else none
  else none

/-- The symbol without a suffix that is not all of it. -/
def splitEnd (symbol suffix : CString) : Option ParsedSymbol :=
  if suffix.isSuffixOf symbol ∧ suffix.length < symbol.length then
    some ⟨symbol.take (symbol.length - suffix.length), suffix⟩
  else none

/-- `parse_symbol_parts`, which raises at a symbol without characters. -/
def parseSymbolParts (symbol : CString) : Option ParsedSymbol :=
  let clean := (strip symbol).map Char.toUpper
  if clean = [] then none
  else
    match separators.findSome? (splitFirst clean) with
    | some parsed => some parsed
    | none =>
      match suffixes.findSome? (splitEnd clean) with
      | some parsed => some parsed
      | none => some ⟨clean.take (clean.length - 3), clean.drop (clean.length - 3)⟩

variable {symbol u : CString} {sep c : Char} {p : ParsedSymbol}

/-! ## What the parsers share -/

theorem eq_takeWhile_append_cons (h : sep ∈ u) :
    u = u.takeWhile (· ≠ sep) ++ sep :: (u.dropWhile (· ≠ sep)).drop 1 := by
  induction u with
  | nil => exact absurd h List.not_mem_nil
  | cons c rest ih =>
    by_cases hc : c = sep
    · subst hc
      simp
    · have hrest := ih ((List.mem_cons.mp h).resolve_left (Ne.symm hc))
      rw [List.takeWhile_cons_of_pos (by simpa using hc),
        List.dropWhile_cons_of_pos (by simpa using hc), List.cons_append]
      exact congrArg (c :: ·) hrest

theorem splitFirst_eq_splitAt : splitFirst u = splitAt u := by
  funext sep
  ext p
  rw [splitAt_eq_some_iff, splitFirst]
  dsimp only
  constructor
  · intro h
    split_ifs at h with hmem hparts
    cases h
    refine ⟨eq_takeWhile_append_cons hmem, fun hsep => ?_, hparts⟩
    have hother : decide (sep ≠ sep) = true :=
      List.mem_takeWhile_imp (p := fun c => decide (c ≠ sep)) hsep
    exact absurd rfl (of_decide_eq_true hother)
  · rintro ⟨rfl, hnot, hbase, hquote⟩
    have hall : ∀ c ∈ p.base, decide (c ≠ sep) = true :=
      fun c hc => decide_eq_true fun heq => hnot (heq ▸ hc)
    rw [if_pos (by simp), List.takeWhile_append_of_pos hall, List.dropWhile_append_of_pos hall,
      List.takeWhile_cons_of_neg (by simp), List.dropWhile_cons_of_neg (by simp), List.append_nil,
      List.drop_one, List.tail_cons, if_pos ⟨hbase, hquote⟩]

theorem splitEnd_eq_splitSuffix : splitEnd u = splitSuffix u := by
  funext suffix
  rw [splitEnd, splitSuffix]
  exact if_congr and_comm rfl rfl

/-- What both parsers look for: a separator, or else a quote currency. -/
def recognise (u : CString) : Option ParsedSymbol :=
  (SymbolMapper.separators.findSome? (splitAt u)).or (quoteSuffixes.findSome? (splitSuffix u))

theorem parseSymbol_eq (h : symbol ≠ []) :
    parseSymbol symbol = (recognise (symbol.map Char.toUpper)).or
      (if 3 < symbol.length then
        some ⟨(symbol.map Char.toUpper).take (symbol.length - 3),
          (symbol.map Char.toUpper).drop (symbol.length - 3)⟩
      else some ⟨symbol.map Char.toUpper, []⟩) := by
  rw [parseSymbol, if_neg h, recognise]
  dsimp only
  rw [List.length_map]
  cases SymbolMapper.separators.findSome? (splitAt (symbol.map Char.toUpper)) with
  | some parsed => rfl
  | none =>
    cases quoteSuffixes.findSome? (splitSuffix (symbol.map Char.toUpper)) with
    | some parsed => rfl
    | none => rfl

theorem parseSymbolParts_eq (h : strip symbol ≠ []) :
    parseSymbolParts symbol = (recognise ((strip symbol).map Char.toUpper)).or
      (some ⟨((strip symbol).map Char.toUpper).take ((strip symbol).length - 3),
        ((strip symbol).map Char.toUpper).drop ((strip symbol).length - 3)⟩) := by
  have hclean : (strip symbol).map Char.toUpper ≠ [] := by simpa using h
  rw [parseSymbolParts, if_neg hclean, recognise, splitFirst_eq_splitAt, splitEnd_eq_splitSuffix,
    List.length_map]
  have hseparators : separators = SymbolMapper.separators := rfl
  have hsuffixes : suffixes = quoteSuffixes := rfl
  rw [hseparators, hsuffixes]
  cases SymbolMapper.separators.findSome? (splitAt ((strip symbol).map Char.toUpper)) with
  | some parsed => rfl
  | none =>
    cases quoteSuffixes.findSome? (splitSuffix ((strip symbol).map Char.toUpper)) with
    | some parsed => rfl
    | none => rfl

/-! ## Texts with white space -/

theorem toNat_toUpper (h : 97 ≤ c.val.toNat ∧ c.val.toNat ≤ 122) :
    c.toUpper.val.toNat = c.val.toNat - 32 := by
  have hlower : 'a'.val ≤ c.val ∧ c.val ≤ 'z'.val := h
  rw [show c.toUpper = _ from dif_pos hlower]
  change (c.val + ('A'.val - 'a'.val)).toNat = _
  rw [UInt32.toNat_add]
  change (c.val.toNat + 4294967264) % 4294967296 = _
  omega

theorem toUpper_of_not_lower (h : ¬ (97 ≤ c.val.toNat ∧ c.val.toNat ≤ 122)) : c.toUpper = c := by
  have hlower : ¬ ('a'.val ≤ c.val ∧ c.val ≤ 'z'.val) := h
  exact dif_neg hlower

theorem isSpace_iff : isSpace c = true ↔
    c.val.toNat = 32 ∨ 9 ≤ c.val.toNat ∧ c.val.toNat ≤ 13 ∨
      28 ≤ c.val.toNat ∧ c.val.toNat ≤ 31 := by
  simp only [isSpace, Bool.or_eq_true, Bool.and_eq_true, beq_iff_eq, decide_eq_true_eq, or_assoc,
    UInt32.le_iff_toNat_le, ← UInt32.toNat_inj]
  exact Iff.rfl

theorem isSpace_toUpper (c : Char) : isSpace c.toUpper = isSpace c := by
  by_cases hlower : 97 ≤ c.val.toNat ∧ c.val.toNat ≤ 122
  · rw [Bool.eq_iff_iff, isSpace_iff, isSpace_iff, toNat_toUpper hlower]
    omega
  · rw [toUpper_of_not_lower hlower]

theorem toUpper_eq_separator (hsep : sep ∈ SymbolMapper.separators) :
    c.toUpper = sep ↔ c = sep := by
  have hrange : sep.val.toNat < 65 ∨ 90 < sep.val.toNat ∧ sep.val.toNat < 97 := by
    simp only [SymbolMapper.separators, List.mem_cons, List.not_mem_nil, or_false] at hsep
    obtain rfl | rfl | rfl := hsep <;> decide
  by_cases hlower : 97 ≤ c.val.toNat ∧ c.val.toNat ≤ 122
  · have hupper := toNat_toUpper hlower
    constructor
    · rintro rfl
      omega
    · rintro rfl
      omega
  · rw [toUpper_of_not_lower hlower]

theorem strip_eq_self (hhead : ∀ c ∈ symbol.head?, isSpace c = false)
    (hlast : ∀ c ∈ symbol.getLast?, isSpace c = false) : strip symbol = symbol := by
  cases symbol with
  | nil => rfl
  | cons a rest =>
    rw [strip, List.dropWhile_cons_of_neg (by simp [hhead a rfl])]
    refine List.rdropWhile_eq_self_iff.mpr fun hne => ?_
    rw [hlast _ (List.getLast?_eq_getLast_of_ne_nil hne)]
    exact Bool.false_ne_true

theorem isSpace_of_head?_strip (h : (strip symbol).head? = some c) : isSpace c = false := by
  have hprefix : strip symbol <+: symbol.dropWhile isSpace := List.rdropWhile_prefix ..
  have hhead : (symbol.dropWhile isSpace).head? = some c := by
    obtain ⟨more, hmore⟩ := hprefix
    rw [← hmore, List.head?_append, h]
    rfl
  have hstop := List.head?_dropWhile_not isSpace symbol
  rw [hhead] at hstop
  exact hstop

theorem isSpace_of_getLast?_strip (h : (strip symbol).getLast? = some c) : isSpace c = false := by
  rw [strip, List.getLast?_reverse] at h
  have hstop := List.head?_dropWhile_not isSpace (symbol.dropWhile isSpace).reverse
  rw [h] at hstop
  exact hstop

/-- The parts begin and end as the text does. -/
def SameEnds (u : CString) (p : ParsedSymbol) : Prop :=
  (p.base ++ p.quote).head? = u.head? ∧ (p.base ++ p.quote).getLast? = u.getLast?

theorem sameEnds_of_recognise (h : recognise u = some p) : SameEnds u p := by
  rcases Option.or_eq_some_iff.mp h with h | ⟨-, h⟩
  · obtain ⟨sep, -, hsplit⟩ := List.exists_of_findSome?_eq_some h
    obtain ⟨rfl, -, hbase, hquote⟩ := splitAt_eq_some_iff.mp hsplit
    constructor
    · rw [List.head?_append_of_ne_nil _ hbase, List.head?_append_of_ne_nil _ hbase]
    · rw [List.getLast?_append_of_ne_nil _ hquote,
        List.getLast?_append_of_ne_nil _ (by simp), List.getLast?_cons_of_ne_nil hquote]
  · obtain ⟨suffix, -, hsplit⟩ := List.exists_of_findSome?_eq_some h
    obtain ⟨rfl, hquote, -⟩ := splitSuffix_eq_some_iff.mp hsplit
    rw [SameEnds, hquote]
    exact ⟨rfl, rfl⟩

theorem sameEnds_parseSymbol (h : parseSymbol symbol = some p) :
    SameEnds (symbol.map Char.toUpper) p := by
  have hne : symbol ≠ [] := by
    rintro rfl
    cases h
  rw [parseSymbol_eq hne] at h
  rcases Option.or_eq_some_iff.mp h with h | ⟨-, h⟩
  · exact sameEnds_of_recognise h
  · split_ifs at h
    · cases h
      rw [SameEnds, List.take_append_drop]
      exact ⟨rfl, rfl⟩
    · cases h
      rw [SameEnds, List.append_nil]
      exact ⟨rfl, rfl⟩

theorem sameEnds_parseSymbolParts (h : parseSymbolParts symbol = some p) :
    SameEnds ((strip symbol).map Char.toUpper) p := by
  have hne : strip symbol ≠ [] := by
    intro hnil
    rw [parseSymbolParts, hnil] at h
    cases h
  rw [parseSymbolParts_eq hne] at h
  rcases Option.or_eq_some_iff.mp h with h | ⟨-, h⟩
  · exact sameEnds_of_recognise h
  · cases h
    rw [SameEnds, List.take_append_drop]
    exact ⟨rfl, rfl⟩

/-- **White space at an end** keeps the parsers apart. -/
theorem strip_eq_self_of_parseSymbol_eq (hne : symbol ≠ [])
    (h : parseSymbol symbol = parseSymbolParts symbol) : strip symbol = symbol := by
  obtain ⟨p, hp⟩ : ∃ p, parseSymbol symbol = some p := by
    rw [parseSymbol_eq hne, ← Option.isSome_iff_exists, Option.isSome_or]
    split_ifs <;> simp
  obtain ⟨hhead, hlast⟩ := sameEnds_parseSymbol hp
  obtain ⟨hhead', hlast'⟩ := sameEnds_parseSymbolParts (h ▸ hp)
  rw [hhead, List.head?_map, List.head?_map] at hhead'
  rw [hlast, List.getLast?_map, List.getLast?_map] at hlast'
  refine strip_eq_self (fun c hc => ?_) fun c hc => ?_
  · rw [hc, Option.map_some] at hhead'
    obtain ⟨d, hd, hupper⟩ := Option.map_eq_some_iff.mp hhead'.symm
    rw [← isSpace_toUpper, ← hupper, isSpace_toUpper]
    exact isSpace_of_head?_strip hd
  · rw [hc, Option.map_some] at hlast'
    obtain ⟨d, hd, hupper⟩ := Option.map_eq_some_iff.mp hlast'.symm
    rw [← isSpace_toUpper, ← hupper, isSpace_toUpper]
    exact isSpace_of_getLast?_strip hd

/-! ## Short names -/

/-- A separator between two characters. -/
def Parted (symbol : CString) : Prop :=
  ∃ a sep b, symbol = [a, sep, b] ∧ sep ∈ SymbolMapper.separators ∧ a ≠ sep

theorem three_le_length_suffix {suffix : CString} (h : suffix ∈ quoteSuffixes) :
    3 ≤ suffix.length := by
  revert suffix
  decide

/-- **A short name is recognised** only by a separator. -/
theorem recognise_isSome_iff (hlength : u.length ≤ 3) : (recognise u).isSome ↔ Parted u := by
  constructor
  · intro h
    obtain ⟨p, hp⟩ := Option.isSome_iff_exists.mp h
    rcases Option.or_eq_some_iff.mp hp with hp | ⟨-, hp⟩
    · obtain ⟨sep, hsep, hsplit⟩ := List.exists_of_findSome?_eq_some hp
      obtain ⟨rfl, hnot, hbase, hquote⟩ := splitAt_eq_some_iff.mp hsplit
      have hbase' := List.length_pos_of_ne_nil hbase
      have hquote' := List.length_pos_of_ne_nil hquote
      rw [List.length_append, List.length_cons] at hlength
      obtain ⟨a, ha⟩ := List.length_eq_one_iff.mp (show p.base.length = 1 by omega)
      obtain ⟨b, hb⟩ := List.length_eq_one_iff.mp (show p.quote.length = 1 by omega)
      refine ⟨a, sep, b, by rw [ha, hb]; rfl, hsep, fun heq => hnot ?_⟩
      rw [ha, heq]
      exact List.mem_singleton_self _
    · obtain ⟨suffix, hsuffix, hsplit⟩ := List.exists_of_findSome?_eq_some hp
      obtain ⟨rfl, -, hbase⟩ := splitSuffix_eq_some_iff.mp hsplit
      have hbase' := List.length_pos_of_ne_nil hbase
      have hthree := three_le_length_suffix hsuffix
      rw [List.length_append] at hlength
      omega
  · rintro ⟨a, sep, b, rfl, hsep, hne⟩
    have hsplit : splitAt [a, sep, b] sep = some ⟨[a], [b]⟩ :=
      splitAt_eq_some_iff.mpr ⟨rfl, by simpa using hne.symm, by simp, by simp⟩
    rw [recognise, Option.isSome_or, List.findSome?_isSome_iff.mpr ⟨sep, hsep, by rw [hsplit]; rfl⟩]
    rfl

/-- Letters of either case are no separators. -/
theorem parted_map_toUpper : Parted (symbol.map Char.toUpper) ↔ Parted symbol := by
  constructor
  · rintro ⟨a, sep, b, h, hsep, hne⟩
    obtain ⟨a', symbol, rfl, ha, h⟩ := List.map_eq_cons_iff.mp h
    obtain ⟨sep', symbol, rfl, hsep', h⟩ := List.map_eq_cons_iff.mp h
    obtain ⟨b', symbol, rfl, -, h⟩ := List.map_eq_cons_iff.mp h
    obtain rfl := List.map_eq_nil_iff.mp h
    obtain rfl := (toUpper_eq_separator hsep).mp hsep'
    exact ⟨a', sep', b', rfl, hsep, fun heq => hne (ha ▸ (toUpper_eq_separator hsep).mpr heq)⟩
  · rintro ⟨a, sep, b, rfl, hsep, hne⟩
    refine ⟨a.toUpper, sep, b.toUpper, ?_, hsep,
      fun heq => hne ((toUpper_eq_separator hsep).mp heq)⟩
    rw [List.map_cons, List.map_cons, (toUpper_eq_separator hsep).mpr rfl]
    rfl

/-- **The two parsers agree** on a symbol, apart from the empty one at which both fail, exactly when
no white space is at its ends and it has more than three characters or a separator in the middle. -/
theorem parseSymbol_eq_parseSymbolParts_iff (symbol : CString) :
    parseSymbol symbol = parseSymbolParts symbol ↔
      symbol = [] ∨ strip symbol = symbol ∧ (3 < symbol.length ∨ Parted symbol) := by
  by_cases hne : symbol = []
  · subst hne
    exact iff_of_true rfl (.inl rfl)
  rw [or_iff_right hne]
  constructor
  · intro h
    have hstrip := strip_eq_self_of_parseSymbol_eq hne h
    refine ⟨hstrip, or_iff_not_imp_left.mpr fun hlength => ?_⟩
    have hshort : (symbol.map Char.toUpper).length ≤ 3 := by
      rw [List.length_map]
      exact Nat.le_of_not_lt hlength
    rw [← parted_map_toUpper, ← recognise_isSome_iff hshort]
    by_contra hnone
    rw [parseSymbol_eq hne, parseSymbolParts_eq (hstrip.trans_ne hne), hstrip,
      Option.not_isSome_iff_eq_none.mp hnone, if_neg hlength] at h
    have hquote : [] = (symbol.map Char.toUpper).drop (symbol.length - 3) :=
      congrArg ParsedSymbol.quote (Option.some.inj h)
    have hdrop := List.drop_eq_nil_iff.mp hquote.symm
    rw [List.length_map] at hdrop
    have := List.length_pos_of_ne_nil hne
    omega
  · rintro ⟨hstrip, hcase⟩
    rw [parseSymbol_eq hne, parseSymbolParts_eq (hstrip.trans_ne hne), hstrip]
    rcases Nat.lt_or_ge 3 symbol.length with hlength | hlength
    · rw [if_pos hlength]
    · have hsome : (recognise (symbol.map Char.toUpper)).isSome := by
        rw [recognise_isSome_iff (by rwa [List.length_map]), parted_map_toUpper]
        exact hcase.resolve_left (Nat.not_lt_of_le hlength)
      obtain ⟨p, hp⟩ := Option.isSome_iff_exists.mp hsome
      rw [hp]
      rfl

/-- Three letters: the base of one parser is the quote of the other. -/
theorem parsers_differ_at_btc :
    ¬ ∀ symbol : CString, symbol ≠ [] → (∀ c ∈ symbol, c.toNat < 128) →
      parseSymbol symbol = parseSymbolParts symbol := by
  intro h
  have hbase := congrArg (Option.map ParsedSymbol.base) (h ['B', 'T', 'C'] (by simp) (by simp))
  revert hbase
  decide

end SymbolParts

end TradingInfrastructure
