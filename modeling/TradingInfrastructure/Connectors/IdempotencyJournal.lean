import TradingInfrastructure.Common.Types
import TradingInfrastructure.Foundations.SlotPool
import TradingInfrastructure.Foundations.Fields

/-!
# The idempotency journal

`core/execution/common/connectors/idempotency_journal.hpp`: a table of at most 256 entries, one for
each operation and client order id, and a text file to which every change of an entry appends a
line. `recover` builds the table from the file again.

The file at `path_` is a field of the journal. An append may fail to open it, and then leaves it
alone; whether it does is an argument of the operation. The numerals of the file are read without a
sign, which no line has.
-/

namespace TradingInfrastructure

open Fields (readWord readNumeral)

/-- `JournalOperation`. A code from the file that names no operation is kept. -/
inductive JournalOperation
  | submit | cancel | replace | other (code : ℕ)
  deriving DecidableEq, Inhabited, Repr

namespace JournalOperation

def code : JournalOperation → ℕ
  | submit => 0
  | cancel => 1
  | replace => 2
  | other code => code

/-- `static_cast<JournalOperation>`: the code as a byte. -/
def ofCode (n : ℕ) : JournalOperation :=
  match n % 256 with
  | 0 => submit
  | 1 => cancel
  | 2 => replace
  | code => other code

end JournalOperation

/-- `JournalState`. A code from the file that names no state is kept. -/
inductive JournalState
  | none | inFlight | acked | failed | other (code : ℕ)
  deriving DecidableEq, Inhabited, Repr

namespace JournalState

def code : JournalState → ℕ
  | none => 0
  | inFlight => 1
  | acked => 2
  | failed => 3
  | other code => code

/-- `static_cast<JournalState>`: the code as a byte. -/
def ofCode (n : ℕ) : JournalState :=
  match n % 256 with
  | 0 => none
  | 1 => inFlight
  | 2 => acked
  | 3 => failed
  | code => other code

end JournalState

/-- `JournalDecision`. -/
structure JournalDecision where
  state : JournalState := .none
  attempt : ℕ := 0
  relatedClientOrderId : ℕ := 0
  venueOrderId : CString := []
  deriving DecidableEq, Inhabited

/-- `should_send_to_venue`. -/
def JournalDecision.shouldSendToVenue (d : JournalDecision) : Bool := d.state == .inFlight

/-- `already_acked`. -/
def JournalDecision.alreadyAcked (d : JournalDecision) : Bool := d.state == .acked

/-- `IdempotencyJournal::Entry`. -/
structure JournalEntry where
  used : Bool := false
  op : JournalOperation := .submit
  clientOrderId : ℕ := 0
  relatedClientOrderId : ℕ := 0
  attempt : ℕ := 0
  state : JournalState := .none
  venueOrderId : CString := []
  deriving DecidableEq, Inhabited

/-- `saturating_add`. -/
def saturatingAdd (value delta : ℕ) : ℕ :=
  if value > 2 ^ 64 - 1 - delta then 2 ^ 64 - 1 else value + delta

namespace JournalEntry

/-- The entry of an operation on an order. -/
def isFor (op : JournalOperation) (clientOrderId : ℕ) (e : JournalEntry) : Bool :=
  e.used && e.op == op && e.clientOrderId == clientOrderId

/-- `populate_decision`. -/
def decision (e : JournalEntry) : JournalDecision where
  state := e.state
  attempt := e.attempt
  relatedClientOrderId := e.relatedClientOrderId
  venueOrderId := strncpyBuf 64 e.venueOrderId

/-- What stands for the venue order id in the file. -/
def venueText (e : JournalEntry) : CString := if e.venueOrderId ≠ [] then e.venueOrderId else ['-']

/-- A field and the blank that ends it. -/
def field (n : ℕ) : CString := Nat.toDigits 10 n ++ [' ']

/-- The line that `append_record` writes. It always fits the buffer. -/
def line (e : JournalEntry) : CString :=
  field 1 ++ field e.op.code ++ field e.clientOrderId ++ field e.relatedClientOrderId ++
    field e.attempt ++ field e.state.code ++ e.venueText ++ ['\n']

end JournalEntry

/-! ## The table -/

/-- `entries_`. -/
abbrev JournalTable := List JournalEntry

namespace JournalTable

/-- `MAX_RECORDS`. -/
def maxRecords : ℕ := 256

/-- A table of unused entries. -/
def empty : JournalTable := List.replicate maxRecords {}

/-- `find`. -/
def find (t : JournalTable) (op : JournalOperation) (clientOrderId : ℕ) : Option ℕ :=
  t.findIdx? (JournalEntry.isFor op clientOrderId)

/-- `find_or_create`: the entry, and the table with it, or nothing when the table is full. -/
def findOrCreate (t : JournalTable) (op : JournalOperation) (clientOrderId : ℕ) :
    Option (ℕ × JournalTable) :=
  match t.find op clientOrderId with
  | some i => some (i, t)
  | none =>
    match t.findIdx? fun e => !e.used with
    | some i => some (i, t.modify i fun e => { e with used := true, op, clientOrderId })
    | none => none

end JournalTable

/-! ## The file -/

/-- A record of the file, as `recover` reads it. -/
structure JournalRecord where
  version : ℕ
  op : ℕ
  clientOrderId : ℕ
  relatedClientOrderId : ℕ
  attempt : ℕ
  state : ℕ
  venueOrderId : CString

/-- The seven extractions of `recover`, and what follows them. -/
def readRecord (text : CString) : Option (JournalRecord × CString) := do
  let (version, text) ← readNumeral (2 ^ 32) text
  let (op, text) ← readNumeral (2 ^ 32) text
  let (clientOrderId, text) ← readNumeral (2 ^ 64) text
  let (relatedClientOrderId, text) ← readNumeral (2 ^ 64) text
  let (attempt, text) ← readNumeral (2 ^ 64) text
  let (state, text) ← readNumeral (2 ^ 32) text
  let (venueOrderId, text) ← readWord text
  return (⟨version, op, clientOrderId, relatedClientOrderId, attempt, state, venueOrderId⟩, text)

namespace JournalTable

/-- What `recover` does with a record of version one. -/
def applyRecord (t : JournalTable) (r : JournalRecord) : JournalTable :=
  match t.findOrCreate (.ofCode r.op) r.clientOrderId with
  | none => t
  | some (i, t) =>
    t.modify i fun e =>
      { e with
        state := .ofCode r.state
        attempt := r.attempt
        relatedClientOrderId := r.relatedClientOrderId
        venueOrderId := strncpyBuf 64 r.venueOrderId }

/-- The loop of `recover`, for some records. A record that the file ends with, without a character
after it, has set the end of the stream and is dropped. -/
def recoverLoop : ℕ → CString → JournalTable → JournalTable
  | 0, _, t => t
  | n + 1, text, t =>
    match readRecord text with
    | none => t
    | some (r, rest) =>
      if rest = [] then t else recoverLoop n rest (if r.version ≠ 1 then t else t.applyRecord r)

/-- The table that `recover` builds. A file has no more records than characters. -/
def recover (file : CString) : JournalTable := recoverLoop file.length file empty

end JournalTable

/-! ## The journal -/

/-- `IdempotencyJournal`, with the file at its path. -/
structure IdempotencyJournal where
  entries : JournalTable
  duplicateAckCount : ℕ
  file : CString

namespace IdempotencyJournal

/-- The constructor, for a file that is there. -/
def load (file : CString) : IdempotencyJournal := ⟨.recover file, 0, file⟩

/-- `append_record`. -/
def appendRecord (j : IdempotencyJournal) (opened : Bool) (e : JournalEntry) : IdempotencyJournal :=
  if opened then { j with file := j.file ++ e.line } else j

/-- The entry at an index takes a new value, which is appended to the file. -/
def put (j : IdempotencyJournal) (opened : Bool) (i : ℕ) (e : JournalEntry) : IdempotencyJournal :=
  { j with entries := j.entries.modify i fun _ => e }.appendRecord opened e

/-- The count of duplicate acks, one higher when the entry is acked. -/
def countDuplicate (j : IdempotencyJournal) (e : JournalEntry) : IdempotencyJournal :=
  if e.state = .acked then { j with duplicateAckCount := saturatingAdd j.duplicateAckCount 1 }
  else j

/-- `begin`. -/
def begin (j : IdempotencyJournal) (op : JournalOperation) (clientOrderId relatedClientOrderId : ℕ)
    (opened : Bool) : JournalDecision × IdempotencyJournal :=
  match j.entries.findOrCreate op clientOrderId with
  | none => ({}, j)
  | some (i, entries) =>
    let e := entries.getD i {}
    let j := { j with entries := entries }.countDuplicate e
    if e.state = .acked ∨ e.state = .inFlight then (e.decision, j)
    else
      let e := { e with
        state := .inFlight
        attempt := saturatingAdd e.attempt 1
        relatedClientOrderId := relatedClientOrderId }
      (e.decision, j.put opened i e)

/-- `ack`. -/
def ack (j : IdempotencyJournal) (op : JournalOperation) (clientOrderId : ℕ)
    (venueOrderId : CString)
    (relatedClientOrderId : ℕ) (opened : Bool) : IdempotencyJournal :=
  match j.entries.findOrCreate op clientOrderId with
  | none => j
  | some (i, entries) =>
    let e := entries.getD i {}
    ({ j with entries := entries }.countDuplicate e).put opened i
      { e with
        state := .acked
        relatedClientOrderId := relatedClientOrderId
        venueOrderId := strncpyBuf 64 venueOrderId }

/-- `fail`. -/
def fail (j : IdempotencyJournal) (op : JournalOperation) (clientOrderId relatedClientOrderId : ℕ)
    (opened : Bool) : IdempotencyJournal :=
  match j.entries.findOrCreate op clientOrderId with
  | none => j
  | some (i, entries) =>
    { j with entries := entries }.put opened i
      { entries.getD i {} with state := .failed, relatedClientOrderId := relatedClientOrderId }

/-- `lookup`. -/
def lookup (j : IdempotencyJournal) (op : JournalOperation) (clientOrderId : ℕ) : JournalDecision :=
  match j.entries.find op clientOrderId with
  | some i => (j.entries.getD i {}).decision
  | none => {}

/-- `in_flight_count`. -/
def inFlightCount (j : IdempotencyJournal) : ℕ :=
  j.entries.countP fun e => e.used && e.state == .inFlight

/-- `recover`, when the connector reconciles. -/
def recover (j : IdempotencyJournal) : IdempotencyJournal := load j.file

end IdempotencyJournal

end TradingInfrastructure
