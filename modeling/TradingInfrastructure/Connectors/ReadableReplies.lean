import TradingInfrastructure.Connectors.VenueConnectors

/-!
# Replies that can be read

An accessor throws on a member of another kind, and on a value that is no object. Here stands what
the parsers of each connector want of the bodies of its replies, as shapes of the value that a body
is parsed to: a parser succeeds exactly on these.
-/

namespace TradingInfrastructure

/-! ## Shapes of values -/

/-- The kinds of members that the accessors ask for. -/
inductive JsonKind
  | text | number | flag

def JsonKind.Holds (kind : JsonKind) (json : Json) : Prop :=
  match kind with
  | text => ∃ s, json = .string s
  | number => ∃ x, json.toNumber? = some x
  | flag => ∃ b, json = .boolean b

namespace Json

/-- An object that has a member of the kind under each key, or none. -/
def Fits (json : Json) (fields : List (JsonKind × String)) : Prop :=
  json.isObject = true ∧
    ∀ field ∈ fields, ∀ value, json.find field.2.toList = some value → field.1.Holds value

/-- There is a member under the key, with the property. -/
def Under (json : Json) (key : String) (P : Json → Prop) : Prop :=
  ∃ value, json.find key.toList = some value ∧ P value

/-- The first element under the key, where there is one, fits. -/
def FirstFits (json : Json) (key : String) (fields : List (JsonKind × String)) : Prop :=
  json.Under key fun rows => ∀ item items, rows = .array (item :: items) → item.Fits fields

variable {json : Json} {key : String} {fields : List (JsonKind × String)}

theorem under_congr {P Q : Json → Prop} (h : ∀ value, P value ↔ Q value) :
    json.Under key P ↔ json.Under key Q :=
  exists_congr fun value => and_congr_right fun _ => h value

theorem and_under {p : Prop} {P : Json → Prop} :
    p ∧ json.Under key P ↔ json.Under key fun value => p ∧ P value := by
  unfold Under
  exact ⟨fun ⟨hp, value, hvalue, h⟩ => ⟨value, hvalue, hp, h⟩,
    fun ⟨value, hvalue, hp, h⟩ => ⟨hp, value, hvalue, h⟩⟩

theorem fits_cons_cons {field field' : JsonKind × String} :
    json.Fits (field :: field' :: fields) ↔ json.Fits [field] ∧ json.Fits (field' :: fields) := by
  simp only [Fits, List.forall_mem_cons, List.not_mem_nil, false_imp_iff, implies_true, and_true]
  tauto

theorem succeeds_valueAs {α : Type} {get : Json → Except CxxException α} {kind : JsonKind}
    (hget : ∀ value, Succeeds (get value) ↔ kind.Holds value) (default : α) :
    Succeeds (json.valueAs key get default) ↔ json.Fits [(kind, key)] := by
  unfold valueAs Fits
  simp only [List.mem_singleton, forall_eq]
  cases hobject : json.isObject with
  | false => exact iff_of_false (not_succeeds_error _) fun h => by cases h.1
  | true =>
    simp only [if_true, true_and]
    cases hfind : json.find key.toList with
    | none => exact iff_of_true (succeeds_ok _) fun _ h => by cases h
    | some value =>
      simp only [Option.some.injEq, forall_eq', ← hget]
      cases get value with
      | error e => exact iff_of_false (not_succeeds_error _) (not_succeeds_error _)
      | ok a => exact iff_of_true (succeeds_ok _) (succeeds_ok _)

theorem succeeds_text {default : String} :
    Succeeds (json.text key default) ↔ json.Fits [(.text, key)] := by
  refine succeeds_valueAs (fun value => ?_) _
  cases value <;> simp [getString, JsonKind.Holds]

theorem succeeds_flag {default : Bool} :
    Succeeds (json.flag key default) ↔ json.Fits [(.flag, key)] := by
  refine succeeds_valueAs (fun value => ?_) _
  cases value <;> simp [getBool, JsonKind.Holds]

theorem succeeds_number {default : ℚ} :
    Succeeds (json.number key default) ↔ json.Fits [(.number, key)] := by
  refine succeeds_valueAs (fun value => ?_) _
  cases value <;> simp [getNumber, toNumber?, JsonKind.Holds]

/-- The text that is read is that of the member, or the default. -/
theorem text_eq_ok {default : String} {s : CString} (h : json.text key default = .ok s) :
    json.find key.toList = some (.string s) ∨
      json.find key.toList = none ∧ s = default.toList := by
  unfold text valueAs at h
  split_ifs at h
  cases hfind : json.find key.toList with
  | none =>
    rw [hfind] at h
    exact Or.inr ⟨rfl, (Except.ok.inj h).symm⟩
  | some value =>
    rw [hfind] at h
    cases value <;> simp_all [getString, Except.mapError]

/-- The flag that is read is that of the member, or the default. -/
theorem flag_eq_ok {default b : Bool} (h : json.flag key default = .ok b) :
    json.find key.toList = some (.boolean b) ∨ json.find key.toList = none ∧ b = default := by
  unfold flag valueAs at h
  split_ifs at h
  cases hfind : json.find key.toList with
  | none =>
    rw [hfind] at h
    exact Or.inr ⟨rfl, (Except.ok.inj h).symm⟩
  | some value =>
    rw [hfind] at h
    cases value <;> simp_all [getBool, Except.mapError]

/-- The number that is read is that of the member, or zero. -/
theorem number_eq_ok {x : ℚ} (h : json.number key = .ok x) :
    (∃ value, json.find key.toList = some value ∧ value.toNumber? = some x) ∨
      json.find key.toList = none ∧ x = 0 := by
  unfold number valueAs at h
  split_ifs at h
  cases hfind : json.find key.toList with
  | none =>
    rw [hfind] at h
    exact Or.inr ⟨rfl, (Except.ok.inj h).symm⟩
  | some value =>
    rw [hfind] at h
    refine Or.inl ⟨value, rfl, ?_⟩
    simp only [getNumber] at h
    cases hnumber : value.toNumber? with
    | none =>
      rw [hnumber] at h
      cases h
    | some y =>
      rw [hnumber] at h
      cases h
      rfl

theorem succeeds_int64 : Succeeds (json.int64 key) ↔ json.Fits [(.number, key)] := by
  refine succeeds_valueAs (fun value => ?_) _
  cases value <;> simp [getInt64, toInt?, toNumber?, JsonKind.Holds]

theorem succeeds_uint64 : Succeeds (json.uint64 key) ↔ json.Fits [(.number, key)] := by
  refine succeeds_valueAs (fun value => ?_) _
  cases value <;> simp [getUInt64, toInt?, toNumber?, JsonKind.Holds]

/-- What goes on from a member. -/
theorem succeeds_member_bind {α : Type} {f : Json → Except ReplyFault α} :
    Succeeds (json.member key >>= f) ↔ json.Under key fun value => Succeeds (f value) := by
  rw [succeeds_bind]
  exact exists_congr fun value => and_congr_left fun _ => member_eq_ok

end Json

/-- What a body is parsed to, if it is, has the property. -/
def Reads (lib : VenueLibrary) (body : CString) (P : Json → Prop) : Prop :=
  ∀ json, lib.parse body = some json → P json

/-! ## What the connectors want of a body -/

section

variable {lib : VenueLibrary} {body : CString}

namespace BinanceConnector

/-- What `parse_cancel_result` wants. -/
def CancelReads (json : Json) : Prop :=
  (json.has "cancelResult" = true → json.Fits [(.text, "cancelResult")]) ∧
    (json.has "cancelResult" = false → json.has "orderId" = false → json.Fits [(.text, "status")])

theorem succeeds_parseCancelResult :
    Succeeds (parseCancelResult lib body) ↔ Reads lib body CancelReads := by
  unfold parseCancelResult Reads
  cases lib.parse body with
  | none => simp
  | some json =>
    simp only [Option.some.injEq, forall_eq', CancelReads]
    cases json.has "cancelResult" with
    | true => simp [Json.succeeds_text]
    | false => cases json.has "orderId" <;> simp [Json.succeeds_text]

theorem succeeds_parseQueryStatus {status : FillUpdate} {nowNs : ℤ} :
    Succeeds (parseQueryStatus lib body status nowNs) ↔
      Reads lib body fun json => json.Fits [(.text, "status")] := by
  unfold parseQueryStatus Reads
  cases lib.parse body with
  | none => simp
  | some json => simp [Json.succeeds_text]

end BinanceConnector

namespace BinanceFuturesConnector

theorem succeeds_parseCancelResult : Succeeds (parseCancelResult lib body) ↔
    Reads lib body fun json => json.has "orderId" = false → json.Fits [(.text, "status")] := by
  unfold parseCancelResult Reads
  cases lib.parse body with
  | none => simp
  | some json =>
    simp only [Option.some.injEq, forall_eq']
    cases json.has "orderId" <;> simp [Json.succeeds_text]

theorem succeeds_parseQueryStatus {status : FillUpdate} {nowNs : ℤ} :
    Succeeds (parseQueryStatus lib body status nowNs) ↔
      Reads lib body fun json => json.Fits [(.text, "status")] := by
  unfold parseQueryStatus Reads
  cases lib.parse body with
  | none => simp
  | some json => simp [Json.succeeds_text]

end BinanceFuturesConnector

namespace KrakenConnector

/-- The order ids start with one that is not empty. -/
def TellsId (txids : Json) : Prop := ∃ id ids, txids = .array (.string id :: ids) ∧ id ≠ []

/-- What `submit_to_venue` wants: an order id, or the errors. -/
def OrderReads (json : Json) : Prop :=
  json.Under "result" fun result => result.Under "txid" fun txids =>
    ¬ TellsId txids → json.Under "error" fun _ => True

/-- What `parse_query_status` wants of the first order. -/
def StatusReads (result : Json) : Prop :=
  ∀ row rows, result = .object (row :: rows) →
    row.2.Fits [(.number, "vol_exec"), (.number, "price"), (.text, "status")]

theorem succeeds_classify : Succeeds (classifyKrakenBusinessError lib body) ↔
    Reads lib body fun json => json.Under "error" fun _ => True := by
  unfold classifyKrakenBusinessError Reads
  cases lib.parse body with
  | none => simp
  | some json =>
    simp only [Option.some.injEq, forall_eq', Json.succeeds_member_bind]
    refine Json.under_congr fun error => iff_true_intro ?_
    split
    · split_ifs <;> exact succeeds_pure _
    · exact succeeds_pure _

theorem succeeds_order {venueOrderId : CString}
    {f : CString → ConnectorResult × RequestState}
    {g : CString → ConnectorResult → ConnectorResult × RequestState} :
    Succeeds (do
      let (found, venueOrderId) ← parseOrderId lib body venueOrderId
      if found then return f venueOrderId
      return g venueOrderId (← classifyKrakenBusinessError lib body)) ↔
    Reads lib body OrderReads := by
  cases hparse : lib.parse body with
  | none =>
    simp [parseOrderId, classifyKrakenBusinessError, Reads, hparse]
  | some json =>
    simp only [parseOrderId, bind_assoc, Reads, hparse, Option.some.injEq, forall_eq',
      Json.succeeds_member_bind, OrderReads]
    refine Json.under_congr fun result => Json.under_congr fun txids => ?_
    have herror : Succeeds (classifyKrakenBusinessError lib body) ↔
        json.Under "error" fun _ => True := by
      rw [succeeds_classify, Reads, hparse]
      simp
    split
    · next id ids =>
      cases id with
      | nil => simp [TellsId, herror]
      | cons c id => simp [TellsId]
    · next hother =>
      have hnone : ¬ TellsId txids := fun ⟨id, ids, heq, _⟩ => hother id ids heq
      simp [hnone, herror]

theorem succeeds_parseQueryStatus {status : FillUpdate} {nowNs : ℤ} :
    Succeeds (parseQueryStatus lib body status nowNs) ↔
      Reads lib body fun json => json.Under "result" StatusReads := by
  unfold parseQueryStatus Reads
  cases lib.parse body with
  | none => simp
  | some json =>
    simp only [Option.some.injEq, forall_eq', Json.succeeds_member_bind]
    refine Json.under_congr fun result => ?_
    unfold StatusReads
    split
    · simp [succeeds_bind, exists_eq_ok, Json.fits_cons_cons, Json.succeeds_number,
        Json.succeeds_text]
    · next hother =>
      exact iff_of_true (succeeds_pure _) fun row rows heq => absurd heq (hother row.1 row.2 rows)

theorem succeeds_parseCancelResult : Succeeds (parseCancelResult lib body) ↔
    Reads lib body fun json => json.Under "result" fun result =>
      result.Fits [(.number, "count")] := by
  unfold parseCancelResult Reads
  cases lib.parse body with
  | none => simp
  | some json => simp [Json.succeeds_member_bind, Json.succeeds_int64]

end KrakenConnector

namespace OkxConnector

/-- The first element has an order id that is not empty. -/
def TellsId (json : Json) : Prop :=
  ∃ item items id, json.find "data".toList = some (.array (item :: items)) ∧
    item.find "ordId".toList = some (.string id) ∧ id ≠ []

/-- The code is that of a success, or there is none. -/
def TellsNoCode (json : Json) : Prop :=
  ∀ code, json.find "code".toList = some (.string code) → code = [] ∨ code = "0".toList

/-- What `submit_to_venue` wants: an order id, or the codes. -/
def OrderReads (json : Json) : Prop :=
  json.FirstFits "data" [(.text, "ordId")] ∧
    (¬ TellsId json → json.Fits [(.text, "code")] ∧
      (TellsNoCode json → json.FirstFits "data" [(.text, "sCode")]))

variable {json : Json} {fields : List (JsonKind × String)}

theorem succeeds_firstOf_bind {α : Type} {f : Option Json → Except ReplyFault α}
    (hnone : Succeeds (f none)) (hsome : ∀ item, Succeeds (f (some item)) ↔ item.Fits fields) :
    Succeeds (firstOf json >>= f) ↔ json.FirstFits "data" fields := by
  simp only [firstOf, bind_assoc, Json.succeeds_member_bind, Json.FirstFits]
  refine Json.under_congr fun rows => ?_
  split
  · next item items => simp [hsome]
  · next hother =>
    exact iff_of_true (by simpa using hnone) fun item items heq => absurd heq (hother item items)

theorem succeeds_parseOrderId {venueOrderId : CString} :
    Succeeds (parseOrderId lib body venueOrderId) ↔
      Reads lib body fun json => json.FirstFits "data" [(.text, "ordId")] := by
  unfold parseOrderId Reads
  cases lib.parse body with
  | none => simp
  | some json =>
    simp only [Option.some.injEq, forall_eq']
    exact succeeds_firstOf_bind (succeeds_pure _) fun item => by simp [Json.succeeds_text]

theorem succeeds_classify : Succeeds (classifyOkxBusinessError lib body) ↔
    Reads lib body fun json => json.Fits [(.text, "code")] ∧
      (TellsNoCode json → json.FirstFits "data" [(.text, "sCode")]) := by
  unfold classifyOkxBusinessError Reads
  cases lib.parse body with
  | none => simp
  | some json =>
    simp only [Option.some.injEq, forall_eq']
    rw [succeeds_bind_iff, Json.succeeds_text]
    intro code hcode
    have htells : TellsNoCode json ↔ ¬ (code ≠ [] ∧ code ≠ "0".toList) := by
      unfold TellsNoCode
      rcases Json.text_eq_ok hcode with hfind | ⟨hfind, rfl⟩ <;> rw [hfind]
      · simp only [Option.some.injEq, Json.string.injEq, forall_eq']
        tauto
      · simp
    by_cases hgoes : code ≠ [] ∧ code ≠ "0".toList
    · rw [if_pos hgoes]
      exact iff_of_true (succeeds_pure _) fun h => absurd hgoes (htells.mp h)
    · rw [if_neg hgoes]
      refine Iff.trans ?_ ⟨fun h _ => h, fun h => h (htells.mpr hgoes)⟩
      refine succeeds_firstOf_bind (succeeds_pure _) fun item => ?_
      refine Iff.trans (succeeds_bind_of_total fun code => ?_) Json.succeeds_text
      split_ifs <;> exact succeeds_pure _

/-- An order id is found when the first element has one. -/
theorem found_iff {venueOrderId id : CString} {found : Bool} (hparse : lib.parse body = some json)
    (h : parseOrderId lib body venueOrderId = .ok (found, id)) :
    found = true ↔ TellsId json := by
  simp only [parseOrderId, hparse] at h
  obtain ⟨first, hfirst, h⟩ := bind_eq_ok.mp h
  obtain ⟨data, hdata, hfirst⟩ := bind_eq_ok.mp hfirst
  rw [Json.member_eq_ok] at hdata
  split at hfirst
  · next item items =>
    cases hfirst
    obtain ⟨id', hid, h⟩ := bind_eq_ok.mp h
    cases h
    unfold TellsId
    simp only [hdata, Option.some.injEq, Json.array.injEq, List.cons.injEq, Bool.not_eq_true',
      List.isEmpty_eq_false_iff]
    constructor
    · intro hne
      rcases Json.text_eq_ok hid with hfind | ⟨-, rfl⟩
      · exact ⟨item, items, id, ⟨rfl, rfl⟩, hfind, hne⟩
      · exact absurd rfl hne
    · rintro ⟨item', items', id', ⟨rfl, rfl⟩, hfind, hne⟩
      rcases Json.text_eq_ok hid with hfind' | ⟨hnone, -⟩
      · cases hfind.symm.trans hfind'
        exact hne
      · cases hfind.symm.trans hnone
  · next hother =>
    cases hfirst
    cases h
    refine iff_of_false Bool.false_ne_true ?_
    rintro ⟨item, items, _, hdata', -⟩
    exact hother item items (Option.some.inj (hdata.symm.trans hdata'))

theorem succeeds_order {venueOrderId : CString}
    {f : CString → ConnectorResult × RequestState}
    {g : CString → ConnectorResult → ConnectorResult × RequestState} :
    Succeeds (do
      let (found, venueOrderId) ← parseOrderId lib body venueOrderId
      if found then return f venueOrderId
      return g venueOrderId (← classifyOkxBusinessError lib body)) ↔
    Reads lib body OrderReads := by
  cases hparse : lib.parse body with
  | none => simp [parseOrderId, classifyOkxBusinessError, Reads, hparse]
  | some json =>
    have hclassify := @succeeds_classify lib body
    have hid := @succeeds_parseOrderId lib body venueOrderId
    simp only [Reads, hparse, Option.some.injEq, forall_eq'] at hclassify hid ⊢
    unfold OrderReads
    rw [← hclassify, ← hid]
    refine succeeds_bind_iff fun x hx => ?_
    obtain ⟨found, id⟩ := x
    rw [← found_iff hparse hx]
    cases found <;> simp

theorem succeeds_parseQueryStatus {status : FillUpdate} {nowNs : ℤ} :
    Succeeds (parseQueryStatus lib body status nowNs) ↔ Reads lib body fun json =>
      json.FirstFits "data" [(.number, "accFillSz"), (.number, "avgPx"), (.text, "state")] := by
  unfold parseQueryStatus Reads
  cases lib.parse body with
  | none => simp
  | some json =>
    simp only [Option.some.injEq, forall_eq']
    refine succeeds_firstOf_bind (succeeds_pure _) fun item => ?_
    simp [succeeds_bind, exists_eq_ok, Json.fits_cons_cons, Json.succeeds_number,
      Json.succeeds_text]

theorem succeeds_parseCancelResult : Succeeds (parseCancelResult lib body) ↔
    Reads lib body fun json => json.FirstFits "data" [(.text, "sCode")] := by
  unfold parseCancelResult Reads
  cases lib.parse body with
  | none => simp
  | some json =>
    simp only [Option.some.injEq, forall_eq']
    exact succeeds_firstOf_bind (succeeds_pure _) fun item => by simp [Json.succeeds_text]

end OkxConnector

namespace CoinbaseConnector

/-- The answer is that of a success. -/
def Succeeded (json : Json) : Prop :=
  json.find "success".toList = some (.boolean true) ∨ json.has "success_response" = true

/-- What `parse_order_id` wants. -/
def OrderReads (json : Json) : Prop :=
  json.Fits [(.flag, "success")] ∧
    (Succeeded json →
      json.Under "success_response" fun response => response.Fits [(.text, "order_id")]) ∧
    (¬ Succeeded json → json.Fits [(.text, "order_id")])

theorem succeeds_parseOrderId {venueOrderId : CString} :
    Succeeds (parseOrderId lib body venueOrderId) ↔ Reads lib body OrderReads := by
  unfold parseOrderId Reads
  cases lib.parse body with
  | none => simp
  | some json =>
    simp only [Option.some.injEq, forall_eq', OrderReads]
    refine Iff.trans (succeeds_bind_iff fun success hsuccess => ?_)
      (and_congr_left fun _ => Json.succeeds_flag)
    have hobject : json.isObject = true := (Json.succeeds_flag.mp ⟨_, hsuccess⟩).1
    have htells : Succeeded json ↔ (success || json.has "success_response") = true := by
      unfold Succeeded
      rcases Json.flag_eq_ok hsuccess with hfind | ⟨hfind, rfl⟩ <;> rw [hfind] <;> simp
    rw [htells]
    by_cases htrue : (success || json.has "success_response") = true
    · simp only [htrue, if_true, forall_const, not_true_eq_false, false_imp_iff, and_true,
        Json.succeeds_member_bind]
      exact Json.under_congr fun response => by simp [Json.succeeds_text]
    · simp only [htrue, Bool.false_eq_true, if_false, not_false_eq_true, forall_const,
        false_imp_iff, true_and]
      cases hid : json.find "order_id".toList with
      | none =>
        have hhas : json.has "order_id" = false := by rw [Json.has, hid]; rfl
        refine iff_of_true ?_ ⟨hobject, fun field hfield value hvalue => ?_⟩
        · rw [if_neg (by rw [hhas]; decide)]
          exact succeeds_pure _
        · obtain rfl := List.mem_singleton.mp hfield
          cases hid.symm.trans hvalue
      | some id =>
        have hhas : json.has "order_id" = true := by rw [Json.has, hid]; rfl
        rw [if_pos hhas]
        simp [Json.succeeds_text]

theorem succeeds_parseQueryStatus {status : FillUpdate} {nowNs : ℤ} :
    Succeeds (parseQueryStatus lib body status nowNs) ↔ Reads lib body fun json =>
      json.Under "order" fun order => order.isObject = true →
        order.Fits [(.number, "filled_size"), (.number, "average_filled_price"),
          (.text, "status")] := by
  unfold parseQueryStatus Reads
  cases lib.parse body with
  | none => simp
  | some json =>
    simp only [Option.some.injEq, forall_eq', Json.succeeds_member_bind]
    refine Json.under_congr fun order => ?_
    cases order.isObject <;> simp [succeeds_bind, exists_eq_ok, Json.fits_cons_cons,
      Json.succeeds_number, Json.succeeds_text]

theorem succeeds_parseCancelResult : Succeeds (parseCancelResult lib body) ↔
    Reads lib body fun json => json.FirstFits "results" [(.flag, "success")] := by
  unfold parseCancelResult Reads
  cases lib.parse body with
  | none => simp
  | some json =>
    simp only [Option.some.injEq, forall_eq', Json.succeeds_member_bind, Json.FirstFits]
    refine Json.under_congr fun results => ?_
    split
    · simp [Json.succeeds_flag]
    · next hother =>
      exact iff_of_true (succeeds_pure _) fun item items heq => absurd heq (hother item items)

end CoinbaseConnector

end

end TradingInfrastructure
