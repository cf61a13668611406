import TradingInfrastructure.Common.SymbolMapper

/-!
# Round trips of the venue symbols

A symbol that `map_all` has written for a venue is mapped again. With a delimiter it always comes
back. Without one, as Binance writes it, the first quote currency wins at which the text can end,
and three of them end in `USD`: `DOT-USD` becomes `DOTUSD`, which is read as `DO` in `TUSD`, and
could be nothing else, since `DO-TUSD` is written the same (`mapAll_round_trip`).
-/

namespace TradingInfrastructure

namespace SymbolMapper

variable {base quote symbol : CString} {sep c : Char} {p : ParsedSymbol}

/-- Upper-case letters and digits. -/
def Plain (symbol : CString) : Prop := ∀ c ∈ symbol, c.isUpper ∨ c.isDigit

/-- A currency that ends in another, behind the rest of a base. -/
def Ambiguous (base quote : CString) : Prop :=
  quote = ['U', 'S', 'D'] ∧ ∃ rest, rest ≠ [] ∧
    (base = rest ++ ['F', 'D'] ∨ base = rest ++ ['T'] ∨ base = rest ++ ['B'])

/-! ## Plain texts -/

theorem toUpper_of_plain (h : c.isUpper ∨ c.isDigit) : c.toUpper = c := by
  have hupper : c.isUpper = decide (c.val ≥ 'A'.val ∧ c.val ≤ 'Z'.val) := rfl
  refine dif_neg ?_
  rintro ⟨hlow, hhigh⟩
  simp only [hupper, Char.isDigit, Bool.and_eq_true, decide_eq_true_eq,
    UInt32.le_iff_toNat_le] at h hlow hhigh
  simp at h hlow hhigh
  omega

theorem not_mem_separators_of_plain (h : c.isUpper ∨ c.isDigit) : c ∉ separators := by
  intro hc
  simp only [separators, List.mem_cons, List.not_mem_nil, or_false] at hc
  obtain rfl | rfl | rfl := hc <;> revert h <;> decide

theorem plain_iff_all : Plain symbol ↔ symbol.all (fun c => c.isUpper || c.isDigit) = true := by
  simp only [Plain, List.all_eq_true, Bool.or_eq_true]

theorem plain_quote (h : quote ∈ quoteSuffixes) : Plain quote := by
  revert quote
  simp only [plain_iff_all]
  decide

theorem Plain.map_toUpper (h : Plain symbol) : symbol.map Char.toUpper = symbol :=
  (List.map_congr_left fun c hc => toUpper_of_plain (h c hc)).trans (List.map_id' symbol)

theorem Plain.not_mem (h : Plain symbol) (hsep : sep ∈ separators) : sep ∉ symbol :=
  fun hmem => not_mem_separators_of_plain (h sep hmem) hsep

theorem Plain.append (hbase : Plain base) (hquote : Plain quote) : Plain (base ++ quote) :=
  List.forall_mem_append.mpr ⟨hbase, hquote⟩

theorem quote_ne_nil (h : quote ∈ quoteSuffixes) : quote ≠ [] := by
  revert quote
  decide

/-! ## With a delimiter -/

theorem separators_findSome?_delimited (hbase : Plain base) (hquote : Plain quote)
    (hne : base ≠ []) (hne' : quote ≠ []) (hsep : sep ∈ separators) :
    separators.findSome? (splitAt (base ++ sep :: quote)) = some ⟨base, quote⟩ := by
  have hsplit : splitAt (base ++ sep :: quote) sep = some ⟨base, quote⟩ :=
    splitAt_eq_some_iff.mpr ⟨rfl, hbase.not_mem hsep, hne, hne'⟩
  have hsome : (separators.findSome? (splitAt (base ++ sep :: quote))).isSome :=
    List.findSome?_isSome_iff.mpr ⟨sep, hsep, by rw [hsplit]; rfl⟩
  obtain ⟨p, hp⟩ := Option.isSome_iff_exists.mp hsome
  obtain ⟨sep', hsep', hp'⟩ := List.exists_of_findSome?_eq_some hp
  -- no other separator occurs
  have hmem : sep' ∈ base ++ sep :: quote := by
    rw [(splitAt_eq_some_iff.mp hp').1]
    simp
  rcases List.mem_append.mp hmem with hmem | hmem
  · exact absurd hmem (hbase.not_mem hsep')
  · rcases List.mem_cons.mp hmem with rfl | hmem
    · rw [hp, ← hp', hsplit]
    · exact absurd hmem (hquote.not_mem hsep')

/-- **A symbol with a delimiter** is read back. -/
theorem parseSymbol_delimited (hbase : Plain base) (hquote : Plain quote) (hne : base ≠ [])
    (hne' : quote ≠ []) (hsep : sep ∈ separators) :
    parseSymbol (base ++ sep :: quote) = some ⟨base, quote⟩ := by
  have hupper : (base ++ sep :: quote).map Char.toUpper = base ++ sep :: quote := by
    rw [List.map_append, List.map_cons, hbase.map_toUpper, hquote.map_toUpper]
    congr 2
    simp only [separators, List.mem_cons, List.not_mem_nil, or_false] at hsep
    obtain rfl | rfl | rfl := hsep <;> decide
  rw [parseSymbol, if_neg (by simp), hupper]
  dsimp only
  rw [separators_findSome?_delimited hbase hquote hne hne' hsep]

/-! ## Without a delimiter -/

/-- A currency that ends in an earlier or later one is one of three that end in `USD`, and comes
before it. -/
theorem quoteSuffixes_pairwise : quoteSuffixes.Pairwise fun earlier later =>
    ¬ earlier <:+ later ∧ (later <:+ earlier → later = ['U', 'S', 'D'] ∧
      (earlier = ['F', 'D', 'U', 'S', 'D'] ∨ earlier = ['T', 'U', 'S', 'D'] ∨
        earlier = ['B', 'U', 'S', 'D'])) := by
  decide

/-- What precedes and follows the first currency that fits. -/
theorem quoteSuffixes_split (h : quoteSuffixes.findSome? (splitSuffix symbol) = some p) :
    symbol = p.base ++ p.quote ∧ p.base ≠ [] ∧ ∀ q ∈ quoteSuffixes,
      splitSuffix symbol q = none ∨ q = p.quote ∨
        ¬ p.quote <:+ q ∧ (q <:+ p.quote → q = ['U', 'S', 'D'] ∧
          (p.quote = ['F', 'D', 'U', 'S', 'D'] ∨ p.quote = ['T', 'U', 'S', 'D'] ∨
            p.quote = ['B', 'U', 'S', 'D'])) := by
  obtain ⟨before, suffix, after, heq, hsuffix, hbefore⟩ := List.findSome?_eq_some_iff.mp h
  obtain ⟨hsymbol, rfl, hbase⟩ := splitSuffix_eq_some_iff.mp hsuffix
  refine ⟨hsymbol, hbase, fun q hq => ?_⟩
  have hpairs := quoteSuffixes_pairwise
  rw [heq] at hq hpairs
  rcases List.mem_append.mp hq with hq | hq
  · exact .inl (hbefore q hq)
  · rcases List.mem_cons.mp hq with rfl | hq
    · exact .inr (.inl rfl)
    · exact .inr (.inr ((List.pairwise_cons.mp (List.pairwise_append.mp hpairs).2.1).1 q hq))

/-- A longer currency that ends the text of an ambiguous one. -/
theorem Ambiguous.exists_longer (h : Ambiguous base quote) : ∃ rest longer,
    longer ∈ quoteSuffixes ∧ longer ≠ quote ∧ quote <:+ longer ∧
      splitSuffix (base ++ quote) longer = some ⟨rest, longer⟩ := by
  obtain ⟨rfl, rest, hrest, rfl | rfl | rfl⟩ := h
  · exact ⟨rest, ['F', 'D', 'U', 'S', 'D'], by decide, by decide, by decide,
      splitSuffix_eq_some_iff.mpr ⟨by simp, rfl, hrest⟩⟩
  · exact ⟨rest, ['T', 'U', 'S', 'D'], by decide, by decide, by decide,
      splitSuffix_eq_some_iff.mpr ⟨by simp, rfl, hrest⟩⟩
  · exact ⟨rest, ['B', 'U', 'S', 'D'], by decide, by decide, by decide,
      splitSuffix_eq_some_iff.mpr ⟨by simp, rfl, hrest⟩⟩

theorem splitSuffix_append (hne : base ≠ []) :
    splitSuffix (base ++ quote) quote = some ⟨base, quote⟩ :=
  splitSuffix_eq_some_iff.mpr ⟨rfl, rfl, hne⟩

theorem exists_findSome?_append (hne : base ≠ []) (hquote : quote ∈ quoteSuffixes) :
    ∃ p, quoteSuffixes.findSome? (splitSuffix (base ++ quote)) = some p := by
  refine Option.isSome_iff_exists.mp (List.findSome?_isSome_iff.mpr ⟨quote, hquote, ?_⟩)
  rw [splitSuffix_append hne]
  rfl

/-- **The first currency that fits** is the quote, unless it is a longer one. -/
theorem quoteSuffixes_findSome?_iff (hne : base ≠ []) (hquote : quote ∈ quoteSuffixes) :
    quoteSuffixes.findSome? (splitSuffix (base ++ quote)) = some ⟨base, quote⟩ ↔
      ¬ Ambiguous base quote := by
  constructor
  · intro h hambiguous
    obtain ⟨rest, longer, hlonger, hother, hends, hfits⟩ := hambiguous.exists_longer
    rcases (quoteSuffixes_split h).2.2 longer hlonger with hnone | heq | ⟨hnot, -⟩
    · rw [hfits] at hnone
      cases hnone
    · exact hother heq
    · exact hnot hends
  · intro h
    obtain ⟨⟨base', quote'⟩, hp⟩ := exists_findSome?_append hne hquote
    obtain ⟨hsymbol, hbase', hothers⟩ := quoteSuffixes_split hp
    dsimp only at hsymbol hbase' hothers
    rcases hothers quote hquote with hnone | rfl | ⟨hnot, hends⟩
    · rw [splitSuffix_append hne] at hnone
      cases hnone
    · rw [hp, List.append_cancel_right hsymbol]
    · -- of two ends of one text, one is the end of the other
      have hsuffix : quote <:+ quote' := by
        refine (List.suffix_or_suffix_of_suffix ⟨base, hsymbol⟩ ⟨base', rfl⟩).resolve_right ?_
        exact hnot
      obtain ⟨rfl, hlonger⟩ := hends hsuffix
      refine absurd ⟨rfl, base', hbase', ?_⟩ h
      refine hlonger.imp ?_ (Or.imp ?_ ?_)
      · rintro rfl
        exact List.append_cancel_right (hsymbol.trans (by simp))
      · rintro rfl
        exact List.append_cancel_right (hsymbol.trans (by simp))
      · rintro rfl
        exact List.append_cancel_right (hsymbol.trans (by simp))

theorem separators_findSome?_plain (h : Plain symbol) :
    separators.findSome? (splitAt symbol) = none := by
  refine List.findSome?_eq_none_iff.mpr fun sep hsep => ?_
  by_contra hsome
  obtain ⟨p, hp⟩ := Option.ne_none_iff_exists'.mp hsome
  refine h.not_mem hsep ?_
  rw [(splitAt_eq_some_iff.mp hp).1]
  simp

/-- **A symbol without a delimiter** is read back unless it is ambiguous. -/
theorem parseSymbol_plain_iff (hbase : Plain base) (hne : base ≠ [])
    (hquote : quote ∈ quoteSuffixes) :
    parseSymbol (base ++ quote) = some ⟨base, quote⟩ ↔ ¬ Ambiguous base quote := by
  have hplain := hbase.append (plain_quote hquote)
  obtain ⟨p, hp⟩ := exists_findSome?_append hne hquote
  rw [← quoteSuffixes_findSome?_iff hne hquote, parseSymbol, if_neg (by simp [hne]),
    hplain.map_toUpper]
  dsimp only
  rw [separators_findSome?_plain hplain, hp]

/-- The parts of a symbol without a delimiter make it up. -/
theorem parseSymbol_plain (h : Plain symbol) (hp : parseSymbol symbol = some p) :
    p.base ++ p.quote = symbol := by
  rw [parseSymbol] at hp
  split_ifs at hp
  dsimp only at hp
  rw [h.map_toUpper, separators_findSome?_plain h] at hp
  dsimp only at hp
  cases hfind : quoteSuffixes.findSome? (splitSuffix symbol) with
  | some parsed =>
    rw [hfind] at hp
    cases hp
    exact (quoteSuffixes_split hfind).1.symm
  | none =>
    rw [hfind] at hp
    dsimp only at hp
    split_ifs at hp
    · cases hp
      exact List.take_append_drop ..
    · cases hp
      exact List.append_nil _

theorem takeWhile_delimited (hsep : sep ∉ base) (quote : CString) :
    (base ++ [sep] ++ quote).takeWhile (· ≠ sep) = base := by
  have hall : ∀ c ∈ base, decide (c ≠ sep) = true :=
    fun c hc => decide_eq_true fun heq => hsep (heq ▸ hc)
  rw [List.append_assoc, List.takeWhile_append_of_pos hall, List.singleton_append,
    List.takeWhile_cons_of_neg (by simp), List.append_nil]

/-! ## All venues -/

/-- What the venues write. -/
def formsOf (base quote : CString) : VenueSymbols :=
  { binance := base ++ quote
    okx := base ++ ['-'] ++ quote
    coinbase := base ++ ['-'] ++ quote
    krakenWs := base ++ ['/'] ++ quote
    krakenRest := base ++ ['/'] ++ quote }

theorem mapAll_eq (h : parseSymbol symbol = some p) :
    mapAll symbol = some (formsOf p.base p.quote) := by
  rw [mapAll, h]
  rfl

/-- **Round trips**: the symbols of OKX, Coinbase and Kraken are read back and mapped to themselves,
and so is that of Binance unless it is ambiguous. -/
theorem mapAll_round_trip (hne : base ≠ []) (hbase : ∀ c ∈ base, c.isUpper ∨ c.isDigit)
    (hquote : quote ∈ quoteSuffixes) :
    ∃ forms, mapAll (base ++ ['-'] ++ quote) = some forms ∧
      (∀ form ∈ [forms.okx, forms.coinbase, forms.krakenWs, forms.krakenRest],
        parseSymbol form = some ⟨base, quote⟩ ∧ mapAll form = some forms) ∧
      (parseSymbol forms.binance = some ⟨base, quote⟩ ↔ ¬ Ambiguous base quote) ∧
      (mapAll forms.binance = some forms ↔ ¬ Ambiguous base quote) := by
  have hdelimited : ∀ sep ∈ separators, parseSymbol (base ++ [sep] ++ quote) =
      some ⟨base, quote⟩ := by
    intro sep hsep
    rw [List.append_assoc, List.singleton_append]
    exact parseSymbol_delimited hbase (plain_quote hquote) hne (quote_ne_nil hquote) hsep
  have hdash := hdelimited '-' (by decide)
  have hslash := hdelimited '/' (by decide)
  refine ⟨formsOf base quote, mapAll_eq hdash, ?_, parseSymbol_plain_iff hbase hne hquote, ?_⟩
  · intro form hform
    simp only [formsOf, List.mem_cons, List.not_mem_nil, or_false] at hform
    obtain rfl | rfl | rfl | rfl := hform
    · exact ⟨hdash, mapAll_eq hdash⟩
    · exact ⟨hdash, mapAll_eq hdash⟩
    · exact ⟨hslash, mapAll_eq hslash⟩
    · exact ⟨hslash, mapAll_eq hslash⟩
  · rw [← parseSymbol_plain_iff hbase hne hquote]
    refine ⟨fun h => ?_, fun h => mapAll_eq h⟩
    obtain ⟨⟨base', quote'⟩, hp, hforms⟩ := Option.map_eq_some_iff.mp h
    have hplain := Plain.append hbase (plain_quote hquote)
    have hparts : base' ++ quote' = base ++ quote := parseSymbol_plain hplain hp
    have hokx : base' ++ ['-'] ++ quote' = base ++ ['-'] ++ quote :=
      congrArg VenueSymbols.okx hforms
    have hdash' : '-' ∈ separators := by decide
    have hnot : '-' ∉ base' := fun hmem =>
      hplain.not_mem hdash' (hparts ▸ List.mem_append_left _ hmem)
    obtain rfl : base' = base := by
      rw [← takeWhile_delimited hnot quote', hokx,
        takeWhile_delimited (Plain.not_mem hbase hdash') quote]
    obtain rfl := List.append_cancel_left hparts
    exact hp

/-- The symbol of bitcoin in tethers. -/
theorem mapAll_round_trip_btc_usdt : ∃ forms,
    mapAll (['B', 'T', 'C'] ++ ['-'] ++ ['U', 'S', 'D', 'T']) = some forms ∧
      mapAll forms.binance = some forms := by
  obtain ⟨forms, hforms, -, -, hbinance⟩ :=
    @mapAll_round_trip ['B', 'T', 'C'] ['U', 'S', 'D', 'T'] (by decide)
      (plain_iff_all.mpr (by decide)) (by decide)
  exact ⟨forms, hforms, hbinance.mpr fun hambiguous => absurd hambiguous.1 (by decide)⟩

/-- A base that ends in the first letter of a longer currency. -/
theorem dot_usd_lost :
    ¬ ∀ base quote : CString, base ≠ [] → (∀ c ∈ base, c.isUpper ∨ c.isDigit) →
      quote ∈ quoteSuffixes → ∀ forms, mapAll (base ++ ['-'] ++ quote) = some forms →
        ∀ form ∈ [forms.binance, forms.okx, forms.coinbase, forms.krakenRest],
          parseSymbol form = some ⟨base, quote⟩ := by
  intro h
  have hdot := h ['D', 'O', 'T'] ['U', 'S', 'D'] (by decide) (plain_iff_all.mpr (by decide)) (by decide)
    (formsOf ['D', 'O', 'T'] ['U', 'S', 'D']) (by rfl)
    ['D', 'O', 'T', 'U', 'S', 'D'] (by simp [formsOf])
  have hbase := congrArg (Option.map ParsedSymbol.base) hdot
  revert hbase
  decide

end SymbolMapper

end TradingInfrastructure
