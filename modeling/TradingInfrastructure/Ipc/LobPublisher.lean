import TradingInfrastructure.Feeds.Json
import TradingInfrastructure.Foundations.FieldCopies
import TradingInfrastructure.Foundations.RecentWrites

/-!
# The publisher of the books

`LobPublisher` of `core/ipc/lob_publisher.hpp`: a mapped file with a header and a ring of slots.
`publish` loads the sequence of the header, stores the fields of the slot that the sequence names,
and stores the next sequence. Each load and each store is one step here, that of the symbol one a
byte. The mapped file is open.
-/

namespace TradingInfrastructure

/-- The fields of `LobPublisher::LobSlot` that `publish` stores: the symbol by bytes, and the arrays
by elements. -/
inductive LobField
  | exchangeId
  | symbol (i : Fin 15)
  | timestampNs
  | midPrice
  | bidPrice (i : Fin 10)
  | bidSize (i : Fin 10)
  | askPrice (i : Fin 10)
  | askSize (i : Fin 10)
  | bidOrderCount (i : Fin 10)
  | askOrderCount (i : Fin 10)
  | tradeDirection
  deriving DecidableEq

/-- Their types. -/
abbrev LobField.Value : LobField → Type
  | .exchangeId => UInt8
  | .symbol _ => Char
  | .timestampNs => ℤ
  | .midPrice => ℚ
  | .bidPrice _ => ℚ
  | .bidSize _ => ℚ
  | .askPrice _ => ℚ
  | .askSize _ => ℚ
  | .bidOrderCount _ => ℕ
  | .askOrderCount _ => ℕ
  | .tradeDirection => UInt8

/-- `LobSlot`. -/
abbrev LobSlot : Type := ∀ f : LobField, f.Value

/-- The arguments of `publish`. -/
structure LobUpdate where
  exchange : Exchange := .unknown
  symbol : CString := []
  timestampNs : ℤ := 0
  midPrice : ℚ := 0
  bids : List PriceLevel := []
  asks : List PriceLevel := []
  tradeDirection : UInt8 := 255

namespace LobPublisher

/-- `k_capacity`. -/
def kCapacity : ℕ := 10000

theorem kCapacity_pos : 0 < kCapacity := by decide

/-- `static_cast<uint8_t>(exchange)`. -/
def exchangeCode : Exchange → UInt8
  | .binance => 0
  | .okx => 1
  | .coinbase => 2
  | .kraken => 3
  | .unknown => 255

/-- A slot of zeros, as `init_header` leaves it. -/
def zeroSlot : LobSlot
  | .exchangeId => 0
  | .symbol _ => '\x00'
  | .timestampNs => 0
  | .midPrice => 0
  | .bidPrice _ => 0
  | .bidSize _ => 0
  | .askPrice _ => 0
  | .askSize _ => 0
  | .bidOrderCount _ => 0
  | .askOrderCount _ => 0
  | .tradeDirection => 0

/-- The price of a level, or zero. -/
def priceAt (levels : List PriceLevel) (i : Fin 10) : ℚ :=
  if h : i < levels.length then levels[i].price else 0

/-- The size of a level, or zero. -/
def sizeAt (levels : List PriceLevel) (i : Fin 10) : ℚ :=
  if h : i < levels.length then levels[i].size else 0

/-- The order count of a level, or zero. -/
def orderCountAt (levels : List PriceLevel) (i : Fin 10) : ℕ :=
  if h : i < levels.length then levels[i].orderCount else 0

/-- The stores of the symbol: `std::memset`, and `std::strncpy` of one byte less unless the symbol
is empty. -/
def symbolStores (symbol : CString) : List (Σ f : LobField, f.Value) :=
  (List.finRange 15).map (fun i => ⟨.symbol i, '\x00'⟩) ++
    if symbol = [] then []
    else (List.finRange 14).map fun i => ⟨.symbol i.castSucc, symbol.getD i '\x00'⟩

/-- The stores of a level, on both sides. -/
def levelStores (u : LobUpdate) (i : Fin 10) : List (Σ f : LobField, f.Value) :=
  [⟨.bidPrice i, priceAt u.bids i⟩, ⟨.bidSize i, sizeAt u.bids i⟩,
    ⟨.askPrice i, priceAt u.asks i⟩, ⟨.askSize i, sizeAt u.asks i⟩,
    ⟨.bidOrderCount i, orderCountAt u.bids i⟩, ⟨.askOrderCount i, orderCountAt u.asks i⟩]

/-- The stores of `publish` in a slot, in their order. -/
def publishStores (u : LobUpdate) : List (Σ f : LobField, f.Value) :=
  ⟨.exchangeId, exchangeCode u.exchange⟩ :: symbolStores u.symbol ++
    ⟨.timestampNs, u.timestampNs⟩ :: ⟨.midPrice, u.midPrice⟩ ::
    (List.finRange 10).flatMap (levelStores u) ++ [⟨.tradeDirection, u.tradeDirection⟩]

/-- What a slot holds that one call has written. -/
def slotOf (u : LobUpdate) : LobSlot
  | .exchangeId => exchangeCode u.exchange
  | .symbol i => if (i : ℕ) < 14 then u.symbol.getD i '\x00' else '\x00'
  | .timestampNs => u.timestampNs
  | .midPrice => u.midPrice
  | .bidPrice i => priceAt u.bids i
  | .bidSize i => sizeAt u.bids i
  | .askPrice i => priceAt u.asks i
  | .askSize i => sizeAt u.asks i
  | .bidOrderCount i => orderCountAt u.bids i
  | .askOrderCount i => orderCountAt u.asks i
  | .tradeDirection => u.tradeDirection

variable {u : LobUpdate} {slot : LobSlot}

theorem symbolStores_symbol (i : Fin 15) :
    applyStores (symbolStores u.symbol) slot (.symbol i) = slotOf u (.symbol i) := by
  have hmemset : ∀ target : LobSlot, applyStores ((List.finRange 15).map fun i =>
      (⟨.symbol i, '\x00'⟩ : Σ f : LobField, f.Value)) target (.symbol i) = '\x00' := by
    intro target
    rw [@applyStores_eq_copyFields _ _ _ zeroSlot, copyFields_apply, if_pos]
    · rfl
    · simp
    · simp [zeroSlot]
  rw [symbolStores, applyStores_append]
  split_ifs with hempty
  · rw [applyStores_nil, hmemset, slotOf, hempty]
    simp
  · rw [@applyStores_eq_copyFields _ _ _ (slotOf u), copyFields_apply]
    · split_ifs with hmem
      · rfl
      · rw [hmemset, slotOf, if_neg]
        intro hlt
        refine hmem ?_
        simp only [List.map_map, List.mem_map, List.mem_finRange, true_and, Function.comp_apply]
        exact ⟨⟨i, hlt⟩, rfl⟩
    · intro store hstore
      obtain ⟨j, -, rfl⟩ := List.mem_map.mp hstore
      simp [slotOf]

theorem symbolStores_other {f : LobField} (hf : ∀ i, f ≠ .symbol i) :
    applyStores (symbolStores u.symbol) slot f = slot f := by
  refine applyStores_of_forall_ne fun store hstore => ?_
  rw [symbolStores] at hstore
  obtain hstore | hstore := List.mem_append.mp hstore
  · obtain ⟨i, -, rfl⟩ := List.mem_map.mp hstore
    exact (hf i).symm
  · split_ifs at hstore
    · exact absurd hstore List.not_mem_nil
    · obtain ⟨i, -, rfl⟩ := List.mem_map.mp hstore
      exact (hf _).symm

/-- The stores behind the symbol. -/
def restStores (u : LobUpdate) : List (Σ f : LobField, f.Value) :=
  ⟨.timestampNs, u.timestampNs⟩ :: ⟨.midPrice, u.midPrice⟩ ::
    (List.finRange 10).flatMap (levelStores u) ++ [⟨.tradeDirection, u.tradeDirection⟩]

theorem restStores_agree : ∀ store ∈ restStores u, store.2 = slotOf u store.1 := by
  intro store hstore
  simp only [restStores, levelStores, List.cons_append, List.mem_cons, List.mem_append,
    List.mem_flatMap, List.mem_finRange, true_and, List.not_mem_nil, or_false] at hstore
  obtain rfl | rfl | ⟨i, rfl | rfl | rfl | rfl | rfl | rfl⟩ | rfl := hstore <;> rfl

/-- The fields that are neither the exchange nor of the symbol are all behind it. -/
theorem mem_restStores {f : LobField} (hexchange : f ≠ .exchangeId) (hsymbol : ∀ i, f ≠ .symbol i) :
    f ∈ (restStores u).map Sigma.fst := by
  cases f with
  | exchangeId => exact absurd rfl hexchange
  | symbol i => exact absurd rfl (hsymbol i)
  | _ => simp [restStores, levelStores, List.mem_flatMap]

/-- **The stores of a call write all fields**, whatever the slot held before. -/
theorem applyStores_publishStores (u : LobUpdate) (slot : LobSlot) :
    applyStores (publishStores u) slot = slotOf u := by
  have hsplit : publishStores u =
      ⟨.exchangeId, exchangeCode u.exchange⟩ :: symbolStores u.symbol ++ restStores u := by
    rw [publishStores, restStores, List.append_assoc]
  funext f
  rw [hsplit, applyStores_append, applyStores_cons, applyStores_eq_copyFields restStores_agree,
    copyFields_apply]
  split_ifs with hrest
  · rfl
  · cases f with
    | exchangeId =>
      rw [symbolStores_other fun i h => (by cases h), applyStore, Function.update_self]
      rfl
    | symbol i => exact symbolStores_symbol i
    | _ => exact absurd (mem_restStores (by simp) (by simp)) hrest

/-! ## Steps -/

/-- The part of the mapped file that `publish` uses. -/
structure Ring where
  writeSeq : UInt64
  slots : List LobSlot

/-- A file that has just been opened. -/
def Ring.opened : Ring := ⟨0, List.replicate kCapacity zeroSlot⟩

/-- A store in a slot. -/
def Ring.write (ring : Ring) (i : ℕ) (store : Σ f : LobField, f.Value) : Ring :=
  { ring with slots := ring.slots.set i (applyStore (ring.slots.getD i zeroSlot) store) }

/-- A call of `publish` under way: the sequence it has loaded, and the stores in its slot that are
left. -/
structure Call where
  seq : UInt64
  update : LobUpdate
  remaining : List (Σ f : LobField, f.Value)

/-- The slot of a call. -/
def Call.index (call : Call) : ℕ := call.seq.toNat % kCapacity

/-- The first step of a call, the load of the sequence. -/
def Ring.load (ring : Ring) (u : LobUpdate) : Call := ⟨ring.writeSeq, u, publishStores u⟩

/-- The next step of a call: a store in its slot, or that of the sequence, with which it returns. -/
def Ring.store (ring : Ring) (call : Call) : Ring × Option Call :=
  match call.remaining with
  | store :: remaining => (ring.write call.index store, some { call with remaining := remaining })
  | [] => ({ ring with writeSeq := call.seq + 1 }, none)

/-! ## What the ring holds -/

/-- The sequence is the number of the publications, and the slots hold the last of them. -/
structure Ring.Holds (ring : Ring) (published : List LobUpdate) : Prop where
  seq : ring.writeSeq.toNat = published.length
  cells : RingHolds kCapacity zeroSlot ring.slots (published.map slotOf)

/-- The ring during a call: it holds the last publications once the slot of the call is put back,
and the stores that are left complete the new one. -/
structure Ring.HoldsBut (ring : Ring) (call : Call) (published : List LobUpdate) : Prop where
  seq : ring.writeSeq.toNat = published.length
  loaded : call.seq = ring.writeSeq
  stores : applyStores call.remaining (ring.slots.getD call.index zeroSlot) = slotOf call.update
  cells : ∃ old, RingHolds kCapacity zeroSlot (ring.slots.set call.index old)
    (published.map slotOf)

variable {ring : Ring} {call : Call} {published : List LobUpdate}

theorem Ring.holds_opened : Ring.opened.Holds [] := ⟨rfl, ringHolds_replicate ..⟩

theorem Call.index_lt (call : Call) : call.index < kCapacity := Nat.mod_lt _ kCapacity_pos

/-- A call begins. -/
theorem Ring.Holds.load (h : ring.Holds published) (u : LobUpdate) :
    ring.HoldsBut (ring.load u) published where
  seq := h.seq
  loaded := rfl
  stores := applyStores_publishStores ..
  cells := by
    have hindex : (ring.load u).index < ring.slots.length :=
      (Call.index_lt _).trans_eq h.cells.length.symm
    exact ⟨ring.slots[(ring.load u).index], by
      rw [List.set_getElem_self]
      exact h.cells⟩

theorem Ring.HoldsBut.index_lt (h : ring.HoldsBut call published) :
    call.index < ring.slots.length := by
  obtain ⟨old, hcells⟩ := h.cells
  exact (Call.index_lt call).trans_eq (hcells.length.symm.trans (List.length_set ..))

/-- A store of a call. -/
theorem Ring.HoldsBut.write (h : ring.HoldsBut call published) {store : Σ f : LobField, f.Value}
    {remaining : List (Σ f : LobField, f.Value)}
    (hremaining : call.remaining = store :: remaining) :
    (ring.write call.index store).HoldsBut { call with remaining := remaining } published where
  seq := h.seq
  loaded := h.loaded
  stores := by
    have hslot : (ring.write call.index store).slots.getD call.index zeroSlot =
        applyStore (ring.slots.getD call.index zeroSlot) store := by
      rw [Ring.write, List.getD_eq_getElem?_getD, List.getElem?_set_self h.index_lt]
      rfl
    have hstores := h.stores
    rw [hremaining, applyStores_cons] at hstores
    exact hslot ▸ hstores
  cells := by
    obtain ⟨old, hcells⟩ := h.cells
    have hback : (ring.write call.index store).slots.set call.index old =
        ring.slots.set call.index old := List.set_set ..
    exact ⟨old, hback ▸ hcells⟩

/-- **A call returns.** -/
theorem Ring.HoldsBut.return_ (h : ring.HoldsBut call published) (hremaining : call.remaining = [])
    (hfits : published.length + 1 < 2 ^ 64) :
    Ring.Holds { ring with writeSeq := call.seq + 1 } (published ++ [call.update]) where
  seq := by
    rw [h.loaded, UInt64.toNat_add, h.seq, List.length_append]
    exact Nat.mod_eq_of_lt hfits
  cells := by
    obtain ⟨old, hcells⟩ := h.cells
    have hstores := h.stores
    rw [hremaining, applyStores_nil] at hstores
    have hwrite := hcells.write kCapacity_pos (slotOf call.update)
    have hplace : (published.map slotOf).length % kCapacity = call.index := by
      rw [List.length_map, Call.index, h.loaded, h.seq]
    have hindex := h.index_lt
    have hslot : ring.slots[call.index] = slotOf call.update := by
      rw [← hstores, List.getD_eq_getElem?_getD, List.getElem?_eq_getElem hindex]
      rfl
    rw [hplace, List.set_set, ← hslot, List.set_getElem_self, hslot] at hwrite
    rw [List.map_append]
    exact hwrite

end LobPublisher

end TradingInfrastructure
