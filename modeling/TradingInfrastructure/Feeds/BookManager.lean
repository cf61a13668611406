import TradingInfrastructure.Feeds.Json
import TradingInfrastructure.Foundations.SortedMap
import TradingInfrastructure.OrderBook.Basic
import TradingInfrastructure.OrderBook.Grid

/-!
# What the feed handlers publish

A feed handler of `core/feeds` hands snapshots, deltas and trades to its callbacks, which the
engine wires to a `BookManager`. The calls of a handler are kept as the list of its publications,
and the book of the manager is the result of that list.

The handlers of OKX and Kraken also keep a book of their own for the checksums: `std::map`s from
prices to the texts of the price and the size, with the bids in descending order.
-/

namespace TradingInfrastructure

/-- A call of `snapshot_callback_`, `delta_callback_` or `trade_callback_`. -/
inductive Publication
  | snapshot (s : Snapshot)
  | delta (d : Delta)
  | trade (t : TradeFlow)
  deriving DecidableEq

/-- `BookManager`, without the statistics that only the monitoring reads. -/
structure BookManager where
  book : OrderBook
  deriving DecidableEq

namespace BookManager

/-- `snapshot_handler`: the result of the book is logged and not returned. -/
def snapshotHandler (bytesOf : ℚ → List UInt8) (m : BookManager) (s : Snapshot) : BookManager :=
  ⟨(m.book.applySnapshot bytesOf s).2⟩

/-- `delta_handler`. -/
def deltaHandler (m : BookManager) (d : Delta) : BookManager := ⟨(m.book.applyDelta d).2⟩

/-- One call. A trade does not touch the book. -/
def receive (bytesOf : ℚ → List UInt8) (m : BookManager) : Publication → BookManager
  | .snapshot s => m.snapshotHandler bytesOf s
  | .delta d => m.deltaHandler d
  | .trade _ => m

/-- The manager after a list of calls. -/
def receiveAll (bytesOf : ℚ → List UInt8) (m : BookManager) (calls : List Publication) :
    BookManager :=
  calls.foldl (receive bytesOf) m

end BookManager

/-- The book of the manager that the engine wires to a handler, after these calls. -/
def bookAfter (bytesOf : ℚ → List UInt8) (b₀ : OrderBook) (calls : List Publication) : OrderBook :=
  (BookManager.receiveAll bytesOf ⟨b₀⟩ calls).book

theorem bookAfter_append {bytesOf : ℚ → List UInt8} {b₀ : OrderBook}
    (calls more : List Publication) :
    bookAfter bytesOf b₀ (calls ++ more) = bookAfter bytesOf (bookAfter bytesOf b₀ calls) more := by
  rw [bookAfter, BookManager.receiveAll, List.foldl_append]
  rfl

/-! ## Local books -/

/-- A side of a local book: the price and the size as texts, by price. -/
abbrev LocalSide := List (ℚ × (CString × CString))

/-- The order of the keys of a side: from the touch. -/
instance (side : Side) : DecidableRel side.Ahead :=
  match side with
  | .bid => fun p q => inferInstanceAs (Decidable (q < p))
  | .ask => fun p q => inferInstanceAs (Decidable (p < q))

/-- `bids_` and `asks_`. -/
structure LocalBook where
  bids : LocalSide := []
  asks : LocalSide := []
  deriving DecidableEq

/-- A side of the book. -/
def LocalBook.side (book : LocalBook) : Side → LocalSide
  | .bid => book.bids
  | .ask => book.asks

end TradingInfrastructure
