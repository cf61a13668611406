import TradingInfrastructure.Engine.KillSwitchCancels
import TradingInfrastructure.Feeds.Json
import TradingInfrastructure.Foundations.Fallible
import TradingInfrastructure.Reconciliation.Snapshot

/-!
# Replies of the venues

What the connectors of `core/execution` use of `nlohmann::json` and of the conversions of the
standard library to read the replies of their venues. What can go wrong in an accessor is a
`ReplyFault`, so a parser is a function into `Except ReplyFault`.

The parser of the JSON library, `strtod` and `snprintf` are outside the sources: they are the fields
of `VenueLibrary`. The members of an object stand in the order in which the library goes over them.
-/

namespace TradingInfrastructure

/-- What goes wrong in an accessor. -/
inductive ReplyFault
  /-- An exception. -/
  | thrown (e : CxxException)
  /-- `operator[]` of a constant value, for a member or an element that is not there: an assertion
  of the library that fails, and undefined where assertions are left out. -/
  | missing
  deriving DecidableEq, Inhabited, Repr

/-- What the connectors call that is not in the sources. -/
structure VenueLibrary where
  /-- `nlohmann::json::parse(text, nullptr, false)`; `none` is a discarded value. -/
  parse : CString → Option Json
  /-- `strtod`, where it reads something. -/
  strtod : CString → Option ℚ
  /-- `snprintf` with `"%.15g"`. -/
  formatDecimal : ℚ → CString

/-- `http::HttpResponse`. -/
structure VenueReply where
  status : ℤ
  body : CString

/-- `ok`. -/
def VenueReply.ok (reply : VenueReply) : Bool := 200 ≤ reply.status && reply.status < 300

/-- The venue does not have what was asked for. -/
def VenueReply.unavailable (reply : VenueReply) : Bool :=
  reply.status == 404 || reply.status == 405 || reply.status == 501

/-! ## Accessors -/

namespace Json

/-- The number, of a value that is one. -/
def toNumber? : Json → Option ℚ
  | unsigned n => some n.toNat
  | integer n => some n
  | float x => some x
  | _ => none

/-- `get<double>`. -/
def getNumber (json : Json) : Except CxxException ℚ :=
  match json.toNumber? with
  | some x => .ok x
  | none => .error .typeError

section

variable (json : Json) (key : String)

/-- `value(key, default)`, for the `get` of the type of the default. -/
def valueAs {α : Type} (get : Json → Except CxxException α) (default : α) : Except ReplyFault α :=
  if json.isObject then
    match json.find key.toList with
    | some member => (get member).mapError .thrown
    | none => .ok default
  else .error (.thrown .typeError)

/-- `value(key, 0.0)`, or another number. -/
def number (default : ℚ := 0) : Except ReplyFault ℚ := json.valueAs key getNumber default

/-- `value(key, std::string(...))`. -/
def text (default : String := "") : Except ReplyFault CString :=
  json.valueAs key getString default.toList

/-- `value(key, false)`, or `true`. -/
def flag (default : Bool := false) : Except ReplyFault Bool := json.valueAs key getBool default

/-- `value(key, static_cast<int64_t>(0))`. -/
def int64 : Except ReplyFault ℤ := json.valueAs key getInt64 0

/-- `value(key, static_cast<uint64_t>(0))`. -/
def uint64 : Except ReplyFault UInt64 := json.valueAs key getUInt64 0

/-- `operator[]` of a constant value. -/
def member : Except ReplyFault Json :=
  if json.isObject then
    match json.find key.toList with
    | some member => .ok member
    | none => .error .missing
  else .error (.thrown .typeError)

/-- `operator[](0)` of a constant value. -/
def first : Except ReplyFault Json :=
  match json with
  | array (item :: _) => .ok item
  | array [] => .error .missing
  | _ => .error (.thrown .typeError)

/-- `find(key) != end()`. -/
def has : Bool := (json.find key.toList).isSome

/-- `json_string`. -/
def jsonString (lib : VenueLibrary) : CString :=
  match json.find key.toList with
  | some (string s) => s
  | some (unsigned n) => (toString n.toNat).toList
  | some (integer n) => (toString n).toList
  | some (float x) => lib.formatDecimal x
  | _ => []

/-- `json_number`. -/
def jsonNumber (lib : VenueLibrary) : ℚ :=
  match json.find key.toList with
  | some (string s) => (lib.strtod s).getD 0
  | some member => member.toNumber?.getD 0
  | none => 0

end

/-- A member is there when it is found. -/
theorem member_eq_ok {json value : Json} {key : String} :
    json.member key = .ok value ↔ json.find key.toList = some value := by
  unfold member
  constructor
  · intro h
    split_ifs at h
    split at h
    · next found hfound =>
      cases h
      exact hfound
    · cases h
  · intro h
    rw [if_pos (isObject_of_find h), h]

end Json

/-- `operator[]` of what was parsed, which may be a discarded value. -/
def memberOf (json : Option Json) (key : String) : Except ReplyFault Json :=
  match json with
  | some json => json.member key
  | none => .error (.thrown .typeError)

/-- `SymbolMapper::map_for_exchange`, with its exception. -/
def mapSymbol (exchange : Exchange) (symbol : CString) : Except ReplyFault CString :=
  match SymbolMapper.mapForExchange exchange symbol with
  | some mapped => .ok mapped
  | none => .error (.thrown .invalidArgument)

/-- What a `std::set` of texts goes over. -/
def textSet (texts : List CString) : List CString :=
  texts.dedup.mergeSort fun a b => decide (List.instLE.le a b)

/-- `parse_client_order_id` of the Binance connectors: the digits of the text, modulo `2 ^ 64`. -/
def parseClientOrderId (clientOrderId : CString) : ℕ :=
  Nat.ofDigitChars 10 (clientOrderId.filter Char.isDigit) 0 % 2 ^ 64

/-! ## Tables -/

/-- `push`: nothing when the table is full. -/
def FixedTable.push {α : Type} {capacity : ℕ} (t : FixedTable α capacity) (row : α) :
    Option (FixedTable α capacity) :=
  if h : t.items.length < capacity then some ⟨t.items ++ [row], by simpa using h⟩ else none

/-- A loop that reads one row after another and pushes it, until the table is full. -/
def appendRows {ι α : Type} {capacity : ℕ} (read : ι → Except ReplyFault α) :
    List ι → FixedTable α capacity → Except ReplyFault (Bool × FixedTable α capacity)
  | [], t => .ok (true, t)
  | item :: items, t => do
    match t.push (← read item) with
    | some t => appendRows read items t
    | none => return (false, t)

/-! ## Fetching a snapshot -/

/-- A part of `fetch_reconciliation_snapshot`: what it returns, and the snapshot that it leaves. -/
abbrev FetchStep :=
  ReconciliationSnapshot → Except ReplyFault (ConnectorResult × ReconciliationSnapshot)

namespace FetchStep

/-- The fetch ends here. -/
def stop (result : ConnectorResult) : FetchStep := fun s => return (result, s)

/-- The next part runs after one that is OK. -/
def andThen (f g : FetchStep) : FetchStep := fun s => do
  let (result, s) ← f s
  if result = .ok then g s else return (result, s)

/-- The rows of a table. -/
def orders {ι : Type} (read : ι → Except ReplyFault ReconciledOrder) (rows : List ι) : FetchStep :=
  fun s => do
    let (done, table) ← appendRows read rows s.openOrders
    return (if done then .ok else .errorUnknown, { s with openOrders := table })

@[inherit_doc orders]
def balances {ι : Type} (read : ι → Except ReplyFault ReconciledBalance) (rows : List ι) :
    FetchStep := fun s => do
  let (done, table) ← appendRows read rows s.balances
  return (if done then .ok else .errorUnknown, { s with balances := table })

@[inherit_doc orders]
def positions {ι : Type} (read : ι → Except ReplyFault ReconciledPosition) (rows : List ι) :
    FetchStep := fun s => do
  let (done, table) ← appendRows read rows s.positions
  return (if done then .ok else .errorUnknown, { s with positions := table })

@[inherit_doc orders]
def fills {ι : Type} (read : ι → Except ReplyFault ReconciledFill) (rows : List ι) : FetchStep :=
  fun s => do
    let (done, table) ← appendRows read rows s.fills
    return (if done then .ok else .errorUnknown, { s with fills := table })

end FetchStep

end TradingInfrastructure
