import TradingInfrastructure.Ipc.LobPublisher
import Mathlib.Data.Fin.VecNotation

/-!
# The reader of the ring

`CoreBridge` of `research/neural_alpha/runtime/core_bridge.py` reads the mapped file of one
`LobPublisher`. `read_new_ticks` opens the file when it is not open yet, loads the header and copies
the slots from the last sequence that it has seen up to the one in the header. `open` of the
publisher clears the file and writes its header anew.

Each load of a field by the reader is one step, and so is each store by the publisher.
-/

namespace TradingInfrastructure

namespace LobPublisher

/-! ## The file -/

/-- The fields of the header that the reader looks at, the magic by bytes. -/
inductive HeaderField
  | magic (i : Fin 8)
  | slotSize
  | capacity
  | writeSeq
  deriving DecidableEq

/-- Their types. -/
abbrev HeaderField.Value : HeaderField → Type
  | .magic _ => Char
  | .slotSize => UInt32
  | .capacity => UInt32
  | .writeSeq => UInt64

/-- The header. -/
abbrev LobHeader : Type := ∀ f : HeaderField, f.Value

/-- The mapped file. -/
structure LobFile extends Ring where
  magic : Fin 8 → Char
  slotSize : UInt32
  capacity : UInt32

/-- `EXPECTED_MAGIC`. -/
def expectedMagic : Fin 8 → Char := !['T', 'R', 'T', 'L', 'O', 'B', '0', '1']

/-- `k_slot_size`, and `SLOT_SIZE`. -/
def kSlotSize : UInt32 := 440

/-- The file that `ftruncate` has just made. -/
def LobFile.zeros : LobFile :=
    { Ring.opened with magic := fun _ => '\x00', slotSize := 0, capacity := 0 }

/-- The file behind `open`. -/
def LobFile.opened : LobFile :=
  { Ring.opened with magic := expectedMagic, slotSize := kSlotSize, capacity := 10000 }

/-- What a load of the header finds. -/
def LobFile.header (file : LobFile) : LobHeader
  | .magic i => file.magic i
  | .slotSize => file.slotSize
  | .capacity => file.capacity
  | .writeSeq => file.writeSeq

/-- A header of zeros. -/
def zeroHeader : LobHeader
  | .magic _ => '\x00'
  | .slotSize => 0
  | .capacity => 0
  | .writeSeq => 0

/-- The fields of the header in the order of the file. -/
def headerFields : List HeaderField :=
  (List.finRange 8).map .magic ++ [.slotSize, .capacity, .writeSeq]

/-- The fields of a slot in the order of the file. -/
def slotFields : List LobField :=
  .exchangeId :: (List.finRange 15).map .symbol ++ .timestampNs :: .midPrice ::
    (List.finRange 10).map .bidPrice ++ (List.finRange 10).map .bidSize ++
    (List.finRange 10).map .askPrice ++ (List.finRange 10).map .askSize ++
    (List.finRange 10).map .bidOrderCount ++ (List.finRange 10).map .askOrderCount ++
    [.tradeDirection]

theorem mem_headerFields (f : HeaderField) : f ∈ headerFields := by
  cases f <;> simp [headerFields]

theorem mem_slotFields (f : LobField) : f ∈ slotFields := by
  cases f <;> simp [slotFields]

/-- A store of `init_header`. -/
inductive FileStore
  | magic (i : Fin 8) (c : Char)
  | slotSize (n : UInt32)
  | capacity (n : UInt32)
  | writeSeq (n : UInt64)
  | slot (i : ℕ) (store : Σ f : LobField, f.Value)

/-- Its effect. -/
def LobFile.apply (file : LobFile) : FileStore → LobFile
  | .magic i c => { file with magic := Function.update file.magic i c }
  | .slotSize n => { file with slotSize := n }
  | .capacity n => { file with capacity := n }
  | .writeSeq n => { file with writeSeq := n }
  | .slot i store => { file with toRing := file.toRing.write i store }

/-- The stores of zeros in a slot. -/
def zeroStores : List (Σ f : LobField, f.Value) := slotFields.map fun f => ⟨f, zeroSlot f⟩

/-- `std::memset` of the slots. -/
def memsetSlots (n : ℕ) : List FileStore := (List.range n).flatMap fun i => zeroStores.map (.slot i)

/-- `init_header`: `std::memset` of the file, and the stores in the header. -/
def initHeader : List FileStore :=
  (List.finRange 8).map (.magic · '\x00') ++ [.slotSize 0, .capacity 0, .writeSeq 0] ++
    memsetSlots kCapacity ++
    ((List.finRange 8).map (fun i => .magic i (expectedMagic i)) ++
      [.slotSize kSlotSize, .capacity 10000, .writeSeq 0])

end LobPublisher

open LobPublisher

/-! ## The reader -/

/-- A row that `read_new_ticks` returns. -/
structure Tick where
  timestampNs : ℤ
  exchange : String
  symbol : String
  bestBid : ℚ
  bestAsk : ℚ
  tradeDirection : UInt8
  bidPrice : Fin 10 → ℚ
  bidSize : Fin 10 → ℚ
  askPrice : Fin 10 → ℚ
  askSize : Fin 10 → ℚ
  bidOc : Fin 10 → ℕ
  askOc : Fin 10 → ℕ

namespace CoreBridge

/-- `_EXCHANGE_MAP.get(exchange_id, "UNKNOWN")`. -/
def exchangeName (id : UInt8) : String :=
  if id = 0 then "BINANCE"
  else if id = 1 then "OKX"
  else if id = 2 then "COINBASE"
  else if id = 3 then "KRAKEN"
  else "UNKNOWN"

/-- The row of a slot, unless its top of book is not valid. `decode` is that of the bytes of the
symbol. -/
def readRow (decode : CString → String) (slot : LobSlot) : Option Tick :=
  let bestBid := slot (.bidPrice 0)
  let bestAsk := slot (.askPrice 0)
  if bestBid ≤ 0 ∨ bestAsk ≤ 0 ∨ bestAsk ≤ bestBid then none
  else some {
    timestampNs := slot .timestampNs
    exchange := exchangeName (slot .exchangeId)
    symbol := decode (((List.finRange 15).map fun i => slot (.symbol i)).takeWhile (· ≠ '\x00'))
    bestBid := bestBid
    bestAsk := bestAsk
    tradeDirection := slot .tradeDirection
    bidPrice := fun i => slot (.bidPrice i)
    bidSize := fun i => slot (.bidSize i)
    askPrice := fun i => slot (.askPrice i)
    askSize := fun i => slot (.askSize i)
    bidOc := fun i => slot (.bidOrderCount i)
    askOc := fun i => slot (.askOrderCount i) }

/-- The header is that of a ring. -/
def Recognised (header : LobHeader) : Prop :=
  (∀ i, header (.magic i) = expectedMagic i) ∧ header .slotSize = kSlotSize ∧ header .capacity ≠ 0

instance (header : LobHeader) : Decidable (Recognised header) :=
  inferInstanceAs (Decidable (_ ∧ _))

/-- Where `read_new_ticks` stands. -/
inductive Phase
  | idle
  /-- `open` has loaded a part of the header, and these fields remain. -/
  | opening (header : LobHeader) (left : List HeaderField)
  /-- A part of the header has been loaded, and these fields remain. -/
  | checking (header : LobHeader) (left : List HeaderField)
  /-- A part of the slot of a sequence has been loaded, these fields remain, and so do the sequences
  behind it up to the last. -/
  | reading (seq stop capacity : ℕ) (slot : LobSlot) (left : List LobField) (rows : List Tick)

end CoreBridge

open CoreBridge

/-- A `CoreBridge`: `_last_seq` while the file is open, and where `read_new_ticks` stands. -/
structure CoreBridge where
  lastSeq : Option ℕ
  phase : Phase

/-! ## Steps -/

namespace RingSession

/-- Where the publisher stands. -/
inductive Writer
  | closed
  | idle
  | publishing (call : Call)
  /-- These stores of `init_header` remain. -/
  | opening (left : List FileStore)

/-- The calls of the publisher. -/
inductive WriterCall
  | open_
  | close
  | publish (u : LobUpdate)

/-- What the reader has returned, and how many publications there were when the call under way began
and when it loaded the sequence, when `open` did, and when the last call that returned began and
loaded it. -/
structure ReadLog where
  returned : List Tick := []
  begun : ℕ := 0
  loaded : ℕ := 0
  opened : ℕ := 0
  seen : ℕ := 0
  past : ℕ := 0

end RingSession

open RingSession

/-- A file with its publisher and a reader, and the publications that are complete: those before
the publisher was last opened, and those since. -/
structure RingSession where
  file : LobFile
  writer : Writer
  reader : CoreBridge
  earlier : List LobUpdate
  recent : List LobUpdate
  log : ReadLog

namespace RingSession

/-- A new file that neither has opened. -/
def start : RingSession where
  file := .zeros
  writer := .closed
  reader := ⟨none, .idle⟩
  earlier := []
  recent := []
  log := { }

/-- All publications. -/
def published (s : RingSession) : List LobUpdate := s.earlier ++ s.recent

/-- The next step of the publisher, which begins this call when none is under way. -/
def writerStep (s : RingSession) (c : WriterCall) : RingSession :=
  match s.writer, c with
  | .closed, .open_ =>
    { s with writer := .opening initHeader, earlier := s.published, recent := [] }
  | .closed, .close => s
  | .closed, .publish _ => s
  | .idle, .open_ => s
  | .idle, .close => { s with writer := .closed }
  | .idle, .publish u => { s with writer := .publishing (s.file.load u) }
  | .publishing call, _ =>
    match s.file.store call with
    | (ring, some call) =>
      { s with file := { s.file with toRing := ring }, writer := .publishing call }
    | (ring, none) =>
      { s with
        file := { s.file with toRing := ring }
        writer := .idle
        recent := s.recent ++ [call.update] }
  | .opening (store :: left), _ => { s with file := s.file.apply store, writer := .opening left }
  | .opening [], _ => { s with writer := .idle }

/-- **What the publisher may do**: open, rest, begin a call, store in its slot, return, clear the
file, be done with that. -/
theorem writerStep_cases (s : RingSession) (c : WriterCall) :
    (s.writer = .closed ∧ c = .open_ ∧ s.writerStep c =
      { s with writer := .opening initHeader, earlier := s.published, recent := [] }) ∨
    (∃ w, (s.writer = .closed ∧ w = .closed ∨ s.writer = .idle ∧ (w = .closed ∨ w = .idle)) ∧
      s.writerStep c = { s with writer := w }) ∨
    (∃ u, s.writer = .idle ∧ s.writerStep c = { s with writer := .publishing (s.file.load u) }) ∨
    (∃ call store remaining, s.writer = .publishing call ∧ call.remaining = store :: remaining ∧
      s.writerStep c =
        { s with
          file := { s.file with toRing := s.file.write call.index store }
          writer := .publishing { call with remaining := remaining } }) ∨
    (∃ call, s.writer = .publishing call ∧ call.remaining = [] ∧
      s.writerStep c =
        { s with
          file := { s.file with writeSeq := call.seq + 1 }
          writer := .idle
          recent := s.recent ++ [call.update] }) ∨
    (∃ store left, s.writer = .opening (store :: left) ∧
      s.writerStep c = { s with file := s.file.apply store, writer := .opening left }) ∨
    s.writer = .opening [] ∧ s.writerStep c = { s with writer := .idle } := by
  obtain ⟨file, writer, reader, earlier, recent, log⟩ := s
  cases writer with
  | closed =>
    cases c with
    | open_ => exact .inl ⟨rfl, rfl, rfl⟩
    | _ => exact .inr (.inl ⟨.closed, .inl ⟨rfl, rfl⟩, rfl⟩)
  | idle =>
    cases c with
    | open_ => exact .inr (.inl ⟨.idle, .inr ⟨rfl, .inr rfl⟩, rfl⟩)
    | close => exact .inr (.inl ⟨.closed, .inr ⟨rfl, .inl rfl⟩, rfl⟩)
    | publish u => exact .inr (.inr (.inl ⟨u, rfl, rfl⟩))
  | publishing call =>
    obtain ⟨seq, u, remaining⟩ := call
    cases remaining with
    | cons store remaining => exact .inr (.inr (.inr (.inl ⟨_, store, remaining, rfl, rfl, rfl⟩)))
    | nil => exact .inr (.inr (.inr (.inr (.inl ⟨_, rfl, rfl, rfl⟩))))
  | opening left =>
    cases left with
    | cons store left => exact .inr (.inr (.inr (.inr (.inr (.inl ⟨store, left, rfl, rfl⟩)))))
    | nil => exact .inr (.inr (.inr (.inr (.inr (.inr ⟨rfl, rfl⟩)))))

/-- The number of publications, noted when the field that is loaded is the sequence. -/
def noteLoad (s : RingSession) (f : HeaderField) : ReadLog :=
  if f = .writeSeq then { s.log with loaded := s.published.length } else s.log

/-- `read_new_ticks` returns. -/
def return_ (s : RingSession) (lastSeq : ℕ) (rows : List Tick) : RingSession :=
  { s with
    reader := ⟨some lastSeq, .idle⟩
    log := { s.log with
      returned := s.log.returned ++ rows, seen := s.log.begun, past := s.log.loaded } }

/-- The slot of the next sequence, or the end. -/
def readOn (s : RingSession) (seq stop capacity : ℕ) (rows : List Tick) : RingSession :=
  if seq < stop then
    { s with
      reader := { s.reader with phase := .reading seq stop capacity zeroSlot slotFields rows } }
  else s.return_ stop rows

variable (decode : CString → String)

/-- The next step of `read_new_ticks`, which begins when it is not under way. -/
def readerStep (s : RingSession) : RingSession :=
  match s.reader.phase, s.reader.lastSeq with
  | .idle, none =>
    { s with
      reader := ⟨none, .opening zeroHeader headerFields⟩
      log := { s.log with begun := s.published.length } }
  | .idle, some lastSeq =>
    { s with
      reader := ⟨some lastSeq, .checking zeroHeader headerFields⟩
      log := { s.log with begun := s.published.length } }
  | .opening header (f :: left), lastSeq =>
    { s with
      reader := ⟨lastSeq, .opening (copyField s.file.header header f) left⟩
      log := s.noteLoad f }
  | .opening header [], lastSeq =>
    if Recognised header then
      { s with
        reader := ⟨some (header .writeSeq).toNat, .checking zeroHeader headerFields⟩
        log := { s.log with opened := s.log.loaded } }
    else { s with reader := ⟨lastSeq, .idle⟩ }
  | .checking header (f :: left), lastSeq =>
    { s with
      reader := ⟨lastSeq, .checking (copyField s.file.header header f) left⟩
      log := s.noteLoad f }
  | .checking header [], lastSeq =>
    let start := lastSeq.getD 0
    if Recognised header then
      let stop := (header .writeSeq).toNat
      let capacity := (header .capacity).toNat
      s.readOn (max start (stop - capacity)) stop capacity []
    else s.return_ start []
  | .reading seq stop capacity slot (f :: left) rows, lastSeq =>
    let source := s.file.slots.getD (seq % capacity) zeroSlot
    { s with reader := ⟨lastSeq, .reading seq stop capacity (copyField source slot f) left rows⟩ }
  | .reading seq stop capacity slot [] rows, _ =>
    s.readOn (seq + 1) stop capacity (rows ++ (readRow decode slot).toList)

/-- A step of the publisher or of the reader. -/
inductive Event
  | writer (c : WriterCall)
  | reader

/-- One step. -/
def step (s : RingSession) : Event → RingSession
  | .writer c => s.writerStep c
  | .reader => s.readerStep decode

/-! ## What the reader is for -/

/-- The row of a publication, if its top of book is valid. -/
def tickAt (published : List LobUpdate) (i : ℕ) : Option Tick :=
  published[i]?.bind fun u => readRow decode (slotOf u)

/-- **What a reader is for**: the rows are those of publications in their order, without duplicates,
and a publication since the file was opened is among them when a call has returned that began after
it, unless its slot was overwritten before that call loaded the sequence. -/
def Delivered (s : RingSession) : Prop :=
  ∃ picks : List ℕ, picks.Pairwise (· < ·) ∧
    s.log.returned.map some = picks.map (tickAt decode s.published) ∧
    ∀ i, s.log.opened ≤ i → i < s.log.seen → (tickAt decode s.published i).isSome →
      i ∈ picks ∨ i + kCapacity < s.log.past

/-- The number of publications that have begun since the publisher was opened. -/
def begunSeq (s : RingSession) : ℕ :=
  match s.writer with
  | .publishing _ => s.file.writeSeq.toNat + 1
  | _ => s.file.writeSeq.toNat

/-- The reader has loaded the sequence. -/
def Holds : CoreBridge → Prop
  | ⟨some _, _⟩ => True
  | ⟨none, .idle⟩ => False
  | ⟨none, .opening _ left⟩ => .writeSeq ∉ left
  | ⟨none, .checking _ _⟩ => True
  | ⟨none, .reading _ _ _ _ _ _⟩ => True

/-- The publisher is about to clear the file. -/
def Writer.Clearing : Writer → Prop
  | .closed => False
  | .idle => False
  | .publishing _ => False
  | .opening _ => True

/-- The publisher is not opened again, once it has published, while the reader has loaded the
sequence, and the sequence does not overflow. -/
def WriterUndisturbing (s : RingSession) (c : WriterCall) : Prop :=
  match s.writer, c with
  | .closed, .open_ => Holds s.reader → s.file.writeSeq = 0
  | .closed, .close => True
  | .closed, .publish _ => True
  | .idle, _ => True
  | .publishing call, _ => call.remaining = [] → call.seq.toNat + 1 < 2 ^ 64
  | .opening _, _ => True

/-- The sequence that `open` loads is not one that is about to be cleared, and the slot of which a
field is loaded is not being overwritten. -/
def ReaderUndisturbed (s : RingSession) : Prop :=
  match s.reader.phase with
  | .idle => True
  | .opening _ [] => True
  | .opening _ (f :: _) => f = .writeSeq → s.writer.Clearing → s.file.writeSeq = 0
  | .checking _ _ => True
  | .reading _ _ _ _ [] _ => True
  | .reading seq _ _ _ (_ :: _) _ => s.begunSeq ≤ seq + kCapacity

/-- **What the reader depends on.** -/
def Undisturbed (s : RingSession) : Event → Prop
  | .writer c => s.WriterUndisturbing c
  | .reader => s.ReaderUndisturbed

instance : DecidablePred Holds
  | ⟨some _, _⟩ => inferInstanceAs (Decidable True)
  | ⟨none, .idle⟩ => inferInstanceAs (Decidable False)
  | ⟨none, .opening _ left⟩ => inferInstanceAs (Decidable (.writeSeq ∉ left))
  | ⟨none, .checking _ _⟩ => inferInstanceAs (Decidable True)
  | ⟨none, .reading _ _ _ _ _ _⟩ => inferInstanceAs (Decidable True)

instance : ∀ w : Writer, Decidable (w = .closed)
  | .closed => isTrue rfl
  | .idle => isFalse fun h => (by cases h)
  | .publishing _ => isFalse fun h => (by cases h)
  | .opening _ => isFalse fun h => (by cases h)

instance : DecidablePred Writer.Clearing
  | .closed => inferInstanceAs (Decidable False)
  | .idle => inferInstanceAs (Decidable False)
  | .publishing _ => inferInstanceAs (Decidable False)
  | .opening _ => inferInstanceAs (Decidable True)

instance : ∀ (s : RingSession) (c : WriterCall), Decidable (s.WriterUndisturbing c)
  | ⟨_, .closed, _, _, _, _⟩, .open_ => inferInstanceAs (Decidable (_ → _))
  | ⟨_, .closed, _, _, _, _⟩, .close => inferInstanceAs (Decidable True)
  | ⟨_, .closed, _, _, _, _⟩, .publish _ => inferInstanceAs (Decidable True)
  | ⟨_, .idle, _, _, _, _⟩, _ => inferInstanceAs (Decidable True)
  | ⟨_, .publishing call, _, _, _, _⟩, _ =>
    inferInstanceAs (Decidable (call.remaining = [] → call.seq.toNat + 1 < 2 ^ 64))
  | ⟨_, .opening _, _, _, _, _⟩, _ => inferInstanceAs (Decidable True)

instance : ∀ s : RingSession, Decidable s.ReaderUndisturbed
  | ⟨_, _, ⟨_, .idle⟩, _, _, _⟩ => inferInstanceAs (Decidable True)
  | ⟨_, _, ⟨_, .opening _ []⟩, _, _, _⟩ => inferInstanceAs (Decidable True)
  | ⟨_, _, ⟨_, .opening _ (_ :: _)⟩, _, _, _⟩ => inferInstanceAs (Decidable (_ → _ → _))
  | ⟨_, _, ⟨_, .checking _ _⟩, _, _, _⟩ => inferInstanceAs (Decidable True)
  | ⟨_, _, ⟨_, .reading _ _ _ _ [] _⟩, _, _, _⟩ => inferInstanceAs (Decidable True)
  | ⟨_, _, ⟨_, .reading _ _ _ _ (_ :: _) _⟩, _, _, _⟩ => inferInstanceAs (Decidable (_ ≤ _))

instance (s : RingSession) : ∀ e : Event, Decidable (s.Undisturbed e)
  | .writer c => inferInstanceAs (Decidable (s.WriterUndisturbing c))
  | .reader => inferInstanceAs (Decidable s.ReaderUndisturbed)

variable {s : RingSession} {c : WriterCall}

theorem writerStep_open (hw : s.writer = .closed) : s.writerStep .open_ =
    { s with writer := .opening initHeader, earlier := s.published, recent := [] } := by
  obtain ⟨file, writer, reader, earlier, recent, log⟩ := s
  cases hw
  rfl

theorem writerStep_opening_cons {store : FileStore} {left : List FileStore}
    (hw : s.writer = .opening (store :: left)) :
    s.writerStep c = { s with file := s.file.apply store, writer := .opening left } := by
  obtain ⟨file, writer, reader, earlier, recent, log⟩ := s
  cases hw
  rfl

theorem writerStep_opening_nil (hw : s.writer = .opening []) :
    s.writerStep c = { s with writer := .idle } := by
  obtain ⟨file, writer, reader, earlier, recent, log⟩ := s
  cases hw
  rfl

theorem writerUndisturbing_opening {left : List FileStore} (hw : s.writer = .opening left) :
    s.WriterUndisturbing c := by
  obtain ⟨file, writer, reader, earlier, recent, log⟩ := s
  cases hw
  trivial

theorem writerUndisturbing_open (hw : s.writer = .closed) :
    s.WriterUndisturbing .open_ ↔ (Holds s.reader → s.file.writeSeq = 0) := by
  obtain ⟨file, writer, reader, earlier, recent, log⟩ := s
  cases hw
  rfl

theorem writerUndisturbing_publishing {call : Call} (hw : s.writer = .publishing call) :
    s.WriterUndisturbing c ↔ (call.remaining = [] → call.seq.toNat + 1 < 2 ^ 64) := by
  obtain ⟨file, writer, reader, earlier, recent, log⟩ := s
  cases hw
  rfl

end RingSession

end TradingInfrastructure
