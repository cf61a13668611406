import TradingInfrastructure.Common.Types
import TradingInfrastructure.Foundations.Fields
import Mathlib.Data.Rat.Floor
import Mathlib.Logic.Function.Iterate

/-!
# The messages of the venues

What the feed handlers of `core/feeds` use of `nlohmann::json` and of the conversions of the
standard library. A conversion that throws returns its exception (`CxxException`), so that a
handler is a function into `Except CxxException`.

The parser and the printer of the JSON library, `std::stod` and the calendar functions are outside
the sources: they are the fields of `FeedLibrary`. A text is the list of its bytes, each as a
character.
-/

namespace TradingInfrastructure

/-- The exceptions of the conversions. -/
inductive CxxException
  /-- `std::invalid_argument`. -/
  | invalidArgument
  /-- `std::out_of_range`. -/
  | outOfRange
  /-- `nlohmann::json::type_error`. -/
  | typeError
  deriving DecidableEq, Inhabited, Repr

/-- A computation that goes through has a first part that does. -/
theorem of_bind_eq_ok {ε α β : Type} {x : Except ε α} {f : α → Except ε β} {b : β}
    (h : x >>= f = .ok b) : ∃ a, x = .ok a ∧ f a = .ok b := by
  cases x with
  | error e => cases h
  | ok a => exact ⟨a, rfl, h⟩

/-- A computation in a `try` block whose handler only logs. -/
def guarded {α : Type*} (x : Except CxxException α) : Option α := x.toOption

@[simp] theorem guarded_ok {α : Type*} (a : α) : guarded (.ok a) = some a := rfl

@[simp] theorem guarded_error {α : Type*} (e : CxxException) :
    guarded (.error e : Except CxxException α) = none := rfl

/-! ## Values -/

/-- A value of `nlohmann::json`: a number is unsigned, a negative integer, or a float. -/
inductive Json
  | null
  | boolean (b : Bool)
  | unsigned (n : UInt64)
  | integer (n : ℤ)
  | float (x : ℚ)
  | string (s : CString)
  | array (items : List Json)
  | object (fields : List (CString × Json))
  deriving Inhabited

namespace Json

/-- `find`, which finds nothing in a value that is no object. -/
def find (json : Json) (key : CString) : Option Json :=
  match json with
  | object fields => (fields.find? fun field => field.1 == key).map Prod.snd
  | _ => none

/-- `is_object`. -/
def isObject : Json → Bool
  | object _ => true
  | _ => false

/-- The elements of an array, and none of anything else: the loops over a value that is tested to
be an array first. -/
def items : Json → List Json
  | array items => items
  | _ => []

/-- `get<std::string>`. -/
def getString : Json → Except CxxException CString
  | string s => .ok s
  | _ => .error .typeError

/-- `get<bool>`. -/
def getBool : Json → Except CxxException Bool
  | boolean b => .ok b
  | _ => .error .typeError

/-- A float cast to an integer loses its fraction. -/
def truncate (x : ℚ) : ℤ := if 0 ≤ x then ⌊x⌋ else -⌊-x⌋

/-- The number, of a value that is one, as an integer. -/
def toInt? : Json → Option ℤ
  | unsigned n => some n.toNat
  | integer n => some n
  | float x => some (truncate x)
  | _ => none

/-- `get<uint64_t>`: any number, cast. -/
def getUInt64 (json : Json) : Except CxxException UInt64 :=
  match json.toInt? with
  | some n => .ok (UInt64.ofNat (n % 2 ^ 64).toNat)
  | none => .error .typeError

/-- `get<int64_t>`: any number, cast. -/
def getInt64 (json : Json) : Except CxxException ℤ :=
  match json.toInt? with
  | some n => .ok (n.bmod (2 ^ 64))
  | none => .error .typeError

/-- `get<uint32_t>`: any number, or a boolean, cast. -/
def getUInt32 : Json → Except CxxException UInt32
  | boolean b => .ok (if b then 1 else 0)
  | json =>
    match json.toInt? with
    | some n => .ok (UInt32.ofNat (n % 2 ^ 32).toNat)
    | none => .error .typeError

/-- `value(key, default)` for a default that is an array: a copy of the member, or the default. -/
def valueArray (json : Json) (key : CString) : Except CxxException Json :=
  if json.isObject then .ok ((json.find key).getD (array [])) else .error .typeError

/-- `value(key, default)` for a default that is a string. -/
def valueString (json : Json) (key default : CString) : Except CxxException CString :=
  if json.isObject then
    match json.find key with
    | some member => member.getString
    | none => .ok default
  else .error .typeError

/-- `value(key, default)` for a default that is a boolean. -/
def valueBool (json : Json) (key : CString) (default : Bool) : Except CxxException Bool :=
  if json.isObject then
    match json.find key with
    | some member => member.getBool
    | none => .ok default
  else .error .typeError

/-- A value in which something is found is an object. -/
theorem isObject_of_find {json member : Json} {key : CString} (h : json.find key = some member) :
    json.isObject = true := by
  cases json with
  | object fields => rfl
  | _ => cases h

theorem valueArray_of_isObject {json : Json} (h : json.isObject = true) (key : CString) :
    json.valueArray key = .ok ((json.find key).getD (array [])) := by
  rw [valueArray, if_pos h]

end Json

/-! ## Numerals -/

/-- The sign and the digits that `std::stoull` and `std::stoll` read: blanks are skipped, a sign
may stand before the digits, and what follows them is ignored. -/
def readDigits (text : CString) : Except CxxException (Bool × ℕ) :=
  let text := text.dropWhile Fields.isBlank
  let negative := text.head? = some '-'
  let text := if negative ∨ text.head? = some '+' then text.tail else text
  let digits := text.takeWhile Char.isDigit
  if digits = [] then .error .invalidArgument
  else .ok (negative, Nat.ofDigitChars 10 digits 0)

/-- `std::stoull`, which is `std::stoul` as well: a numeral with a minus sign is negated modulo
`2 ^ 64`. -/
def stoull (text : CString) : Except CxxException UInt64 := do
  let (negative, n) ← readDigits text
  if 2 ^ 64 ≤ n then throw .outOfRange
  return if negative then -UInt64.ofNat n else UInt64.ofNat n

/-- `std::stoll`. -/
def stoll (text : CString) : Except CxxException ℤ := do
  let (negative, n) ← readDigits text
  let value : ℤ := if negative then -n else n
  if value < -2 ^ 63 ∨ 2 ^ 63 ≤ value then throw .outOfRange
  return value

/-- The sequence number at a key: a numeral in a string, a number, or zero when there is none. -/
def Json.sequenceAt (json : Json) (key : CString) : Except CxxException UInt64 :=
  match json.find key with
  | none => .ok 0
  | some (.string text) => stoull text
  | some member => member.getUInt64

/-! ## Checksums -/

/-- One bit of `crc32_bytes`. -/
def crc32Bit (crc : UInt32) : UInt32 := (crc >>> 1) ^^^ (0xEDB88320 &&& (0 - (crc &&& 1)))

/-- `crc32_bytes`. -/
def crc32Bytes (data : CString) : UInt32 :=
  ~~~ (data.foldl (fun crc byte => crc32Bit^[8] (crc ^^^ UInt32.ofNat (byte.toNat % 256)))
    0xFFFFFFFF)

/-! ## The library -/

/-- What the handlers call that is not in the sources. -/
structure FeedLibrary where
  /-- `nlohmann::json::parse(text, nullptr, false)`; `none` is a discarded value. -/
  parse : CString → Option Json
  /-- `dump`. -/
  dump : Json → CString
  /-- `std::stod`. -/
  stod : CString → Except CxxException ℚ
  /-- `std::get_time` and `timegm` on the first nineteen characters of a time stamp: seconds since
  the epoch, if the text is one. -/
  getTime : CString → Option ℤ

namespace FeedLibrary

/-- `std::stod(json.get<std::string>())`. -/
def numberIn (lib : FeedLibrary) (json : Json) : Except CxxException ℚ := do
  lib.stod (← json.getString)

/-- A library that knows the texts and the numerals of two tables. -/
def ofTables (texts : List (CString × Json)) (numerals : List (CString × ℚ)) : FeedLibrary where
  parse text := texts.lookup text
  dump _ := []
  stod text := ((numerals.lookup text).map Except.ok).getD (.error .invalidArgument)
  getTime _ := none

end FeedLibrary

/-- `TradeFlow`, with the fields that the handlers fill: the direction is 0 for a buy, 1 for a sell
and 255 when it is not known. -/
structure TradeFlow where
  lastTradePrice : ℚ
  lastTradeSize : ℚ
  tradeDirection : UInt8 := 255
  deriving DecidableEq

end TradingInfrastructure
