import TradingInfrastructure.Connectors.OrderEncoding

/-!
# What a signed query says

A venue reads a query by splitting it at each `&` and each field at its first `=`, and by undoing
the percent encoding of the two parts. The signature covers the text of the query, so the order that
was signed is the order that is read only if no two lists of parameters have one text.

A byte string of the source is a list of bytes here, and the character of a byte is the one with its
number.
-/

namespace TradingInfrastructure

/-- `encode_params` of the futures connector. -/
def BinanceFuturesConnector.encodeParams : List (CString × CString) → CString :=
  percentEncodeParams

namespace Form

/-- The character of a byte. -/
def byteChar (b : UInt8) : Char := Char.ofNat b.toNat

/-- The text of a byte string. -/
def text (bytes : List UInt8) : CString := bytes.map byteChar

/-- Parameters given as byte strings. -/
def texts (params : List (List UInt8 × List UInt8)) : List (CString × CString) :=
  params.map fun param => (text param.1, text param.2)

/-! ## The reader -/

/-- The value of a hexadecimal digit. -/
def hexValue (c : Char) : Option ℕ := "0123456789ABCDEF".toList.idxOf? c

/-- Undo `%XX`. What is no such triple stands for itself. -/
def decodeComponent : CString → List UInt8
  | [] => []
  | '%' :: high :: low :: rest =>
    match hexValue high, hexValue low with
    | some h, some l => UInt8.ofNat (16 * h + l) :: decodeComponent rest
    | _, _ => UInt8.ofNat '%'.toNat :: decodeComponent (high :: low :: rest)
  | c :: rest => UInt8.ofNat c.toNat :: decodeComponent rest

/-- A field, split at the first `=`. -/
def decodeField (field : CString) : List UInt8 × List UInt8 :=
  (decodeComponent (field.takeWhile (· ≠ '=')),
    decodeComponent ((field.dropWhile (· ≠ '=')).drop 1))

/-- The parameters of a query. -/
def decode (query : CString) : List (List UInt8 × List UInt8) :=
  (query.splitOn '&').map decodeField

/-! ## Characters -/

variable {b : UInt8} {c : Char} {rest : CString}

@[simp] theorem toNat_byteChar (b : UInt8) : (byteChar b).toNat = b.toNat := by
  have hvalid : b.toNat.isValidChar := Or.inl (b.toNat_lt.trans (by norm_num))
  have hchar : Char.ofNat b.toNat = Char.ofNatAux b.toNat hvalid := dif_pos hvalid
  rw [byteChar, hchar]
  rfl

theorem hexValue_hexDigit {n : ℕ} (hn : n < 16) : hexValue (hexDigit n) = some n := by
  interval_cases n <;> decide

theorem unreserved_hexDigit {n : ℕ} (hn : n < 16) : unreserved (hexDigit n) = true := by
  interval_cases n <;> decide

theorem ne_of_unreserved {d : Char} (h : unreserved c = true) (hd : unreserved d = false) :
    c ≠ d := by
  rintro rfl
  rw [h] at hd
  exact Bool.noConfusion hd

/-! ## Components -/

/-- The text of one byte of a component. -/
def encodeByte (b : UInt8) : CString :=
  if unreserved (byteChar b) then [byteChar b]
  else ['%', hexDigit (b.toNat / 16 % 16), hexDigit (b.toNat % 16)]

theorem encodeComponent_text_cons (b : UInt8) (bytes : List UInt8) :
    encodeComponent (text (b :: bytes)) = encodeByte b ++ encodeComponent (text bytes) := by
  simp only [encodeComponent, text, List.map_cons, List.flatMap_cons, toNat_byteChar, encodeByte]

theorem decodeComponent_triple {h l : ℕ} (hh : h < 16) (hl : l < 16) :
    decodeComponent ('%' :: hexDigit h :: hexDigit l :: rest) =
      UInt8.ofNat (16 * h + l) :: decodeComponent rest := by
  rw [decodeComponent, hexValue_hexDigit hh, hexValue_hexDigit hl]

theorem decodeComponent_plain (hc : c ≠ '%') :
    decodeComponent (c :: rest) = UInt8.ofNat c.toNat :: decodeComponent rest := by
  rw [decodeComponent]
  rintro - - - rfl
  exact absurd rfl hc

/-- **A byte is read back.** -/
theorem decodeComponent_encodeByte (b : UInt8) (rest : CString) :
    decodeComponent (encodeByte b ++ rest) = b :: decodeComponent rest := by
  rw [encodeByte]
  split_ifs with hplain
  · rw [List.singleton_append, decodeComponent_plain (ne_of_unreserved hplain (by decide)),
      toNat_byteChar, UInt8.ofNat_toNat]
  · have hlt := b.toNat_lt
    have hhigh : b.toNat / 16 % 16 < 16 := Nat.mod_lt _ (by norm_num)
    have hlow : b.toNat % 16 < 16 := Nat.mod_lt _ (by norm_num)
    have hvalue : 16 * (b.toNat / 16 % 16) + b.toNat % 16 = b.toNat := by omega
    rw [List.cons_append, List.cons_append, List.singleton_append,
      decodeComponent_triple hhigh hlow, hvalue, UInt8.ofNat_toNat]

/-- **A component is read back.** -/
theorem decodeComponent_encodeComponent (bytes : List UInt8) :
    decodeComponent (encodeComponent (text bytes)) = bytes := by
  induction bytes with
  | nil => rfl
  | cons b bytes ih => rw [encodeComponent_text_cons, decodeComponent_encodeByte, ih]

/-- A component has only characters that are not encoded, and `%`. -/
theorem mem_encodeComponent {value : CString} (h : c ∈ encodeComponent value) :
    unreserved c = true ∨ c = '%' := by
  obtain ⟨d, -, hd⟩ := List.mem_flatMap.mp h
  split_ifs at hd with hplain
  · exact Or.inl (List.mem_singleton.mp hd ▸ hplain)
  · simp only [List.mem_cons, List.not_mem_nil, or_false] at hd
    rcases hd with rfl | rfl | rfl
    · exact Or.inr rfl
    · exact Or.inl (unreserved_hexDigit (Nat.mod_lt _ (by norm_num)))
    · exact Or.inl (unreserved_hexDigit (Nat.mod_lt _ (by norm_num)))

theorem not_mem_component {value : CString} (hc : unreserved c = false) (hpercent : c ≠ '%') :
    c ∉ encodeComponent value := by
  intro hmem
  rcases mem_encodeComponent hmem with h | h
  · rw [h] at hc
    exact Bool.noConfusion hc
  · exact hpercent h

/-! ## Fields -/

/-- The field of a parameter. -/
def encodeField (param : CString × CString) : CString :=
  encodeComponent param.1 ++ '=' :: encodeComponent param.2

theorem decodeField_encodeField (param : List UInt8 × List UInt8) :
    decodeField (encodeField (text param.1, text param.2)) = param := by
  have hkey : ∀ c ∈ encodeComponent (text param.1), decide (c ≠ '=') = true := by
    rintro c hc
    exact decide_eq_true fun h => not_mem_encodeComponent _ (h ▸ hc)
  rw [decodeField, encodeField, List.takeWhile_append_of_pos hkey,
    List.dropWhile_append_of_pos hkey]
  simp [decodeComponent_encodeComponent]

theorem not_mem_encodeField (param : CString × CString) : '&' ∉ encodeField param := by
  simp only [encodeField, List.mem_append, List.mem_cons, not_or]
  exact ⟨not_mem_component (by decide) (by decide), by decide,
    not_mem_component (by decide) (by decide)⟩

theorem intercalate_concat {sep field : CString} {fields : List CString} (h : fields ≠ []) :
    sep.intercalate (fields ++ [field]) = sep.intercalate fields ++ sep ++ field := by
  induction fields with
  | nil => exact absurd rfl h
  | cons first fields ih =>
    cases fields with
    | nil => simp [List.intercalate_cons_cons]
    | cons second fields =>
      have hrest := ih (List.cons_ne_nil _ _)
      simp only [List.cons_append, List.intercalate_cons_cons, List.append_assoc] at hrest ⊢
      rw [hrest]

/-- **A query is its fields, with `&` between them.** -/
theorem percentEncodeParams_eq_intercalate (params : List (CString × CString)) :
    percentEncodeParams params = ['&'].intercalate (params.map encodeField) := by
  induction params using List.reverseRecOn with
  | nil => rfl
  | append_singleton params param ih =>
    rw [percentEncodeParams_concat, appendField, List.map_append]
    rcases eq_or_ne params [] with rfl | hparams
    · simp [percentEncodeParams, encodeField]
    · have hfields : params.map encodeField ≠ [] := by simpa using hparams
      rw [if_neg (percentEncodeParams_ne_nil hparams), ih, List.map_singleton,
        intercalate_concat hfields]
      simp only [encodeField, List.append_assoc]

/-- The characters of a query. -/
theorem mem_percentEncodeParams {params : List (CString × CString)}
    (h : c ∈ percentEncodeParams params) :
    unreserved c = true ∨ c = '%' ∨ c = '&' ∨ c = '=' := by
  induction params using List.reverseRecOn with
  | nil => exact absurd h List.not_mem_nil
  | append_singleton params param ih =>
    rw [percentEncodeParams_concat, appendField] at h
    have hcomponent : ∀ value, c ∈ encodeComponent value →
        unreserved c = true ∨ c = '%' ∨ c = '&' ∨ c = '=' := fun value hc =>
      (mem_encodeComponent hc).imp_right Or.inl
    simp only [List.mem_append, List.mem_cons] at h
    rcases h with (h | h) | rfl | h
    · split_ifs at h with hempty
      · exact absurd h List.not_mem_nil
      · rw [List.mem_append, List.mem_singleton] at h
        exact h.elim ih fun h => Or.inr (Or.inr (Or.inl h))
    · exact hcomponent _ h
    · exact Or.inr (Or.inr (Or.inr rfl))
    · exact hcomponent _ h

/-- **A query is read back.** -/
theorem decode_percentEncodeParams {params : List (List UInt8 × List UInt8)} (h : params ≠ []) :
    decode (percentEncodeParams (texts params)) = params := by
  have hfields : (texts params).map encodeField ≠ [] := by simpa [texts] using h
  have hsplit : ∀ field ∈ (texts params).map encodeField, '&' ∉ field := by
    intro field hfield
    obtain ⟨param, -, rfl⟩ := List.mem_map.mp hfield
    exact not_mem_encodeField param
  rw [percentEncodeParams_eq_intercalate, decode, List.splitOn_intercalate '&' hsplit hfields]
  simp [texts, decodeField_encodeField, Function.comp_def]

/-- **A signed query is unambiguous.** Both connectors write a list of parameters so that it is read
back, two lists that are not empty are written differently, and a query has only characters that are
not encoded, `%`, `&` and `=`. -/
theorem query_unambiguous (params : List (List UInt8 × List UInt8)) :
    ∀ encode ∈ [percentEncodeParams, BinanceFuturesConnector.encodeParams],
      (params ≠ [] → decode (encode (texts params)) = params) ∧
      (∀ params', params ≠ [] → params' ≠ [] → params ≠ params' →
        encode (texts params) ≠ encode (texts params')) ∧
      ∀ c ∈ encode (texts params), unreserved c = true ∨ c = '%' ∨ c = '&' ∨ c = '=' := by
  intro encode hencode
  have hsame : encode = percentEncodeParams := by
    simpa [BinanceFuturesConnector.encodeParams] using hencode
  subst hsame
  refine ⟨decode_percentEncodeParams, fun params' h h' hne heq => hne ?_,
    fun c => mem_percentEncodeParams⟩
  calc params = decode (percentEncodeParams (texts params)) :=
        (decode_percentEncodeParams h).symm
    _ = decode (percentEncodeParams (texts params')) := by rw [heq]
    _ = params' := decode_percentEncodeParams h'

/-- An empty key, and a value of reserved bytes. -/
theorem query_unambiguous_reserved :
    decode (percentEncodeParams (texts [([], [38, 61, 37, 255])])) = [([], [38, 61, 37, 255])] ∧
      percentEncodeParams (texts [([], [38, 61, 37, 255])]) ≠
        percentEncodeParams (texts [([38, 61, 37, 255], [])]) :=
  ⟨(query_unambiguous _ _ List.mem_cons_self).1 (List.cons_ne_nil _ _),
    (query_unambiguous _ _ List.mem_cons_self).2.1 _ (List.cons_ne_nil _ _) (List.cons_ne_nil _ _)
      (by decide)⟩

end Form

end TradingInfrastructure
