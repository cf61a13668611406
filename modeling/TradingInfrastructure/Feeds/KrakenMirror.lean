import TradingInfrastructure.Feeds.KrakenFeedHandler
import TradingInfrastructure.Foundations.Runs
import TradingInfrastructure.OrderBook.Steps

/-!
# The book that Kraken publishes

The Kraken handler keeps its book by the texts of a message, and publishes the numbers of the parsed
message. What its callbacks have been given, folded into a map from prices to sizes, is a mirror of
the local book. The two views part in two places. The book is cut to the subscribed depth after an
update, and the levels that fall out of it are not published as deleted. And the texts are paired
with the levels by position, so that a level that the pattern does not find shifts the texts of
those behind it.

The mirror is exact after every accepted message of a run whose updates leave no more levels than
the depth, and whose texts stand at the place of their level (`mirror_run`).
-/

namespace TradingInfrastructure

namespace KrakenFeedHandler

/-! ## Maps from prices to sizes -/

/-- A price takes a size; a size of zero takes it out. -/
def put (m : ℚ → Option ℚ) (price size : ℚ) : ℚ → Option ℚ :=
  Function.update m price (if size = 0 then none else some size)

/-- The maps of both sides after one call of a callback. -/
def mirrorStep (m : Side → ℚ → Option ℚ) : Publication → Side → ℚ → Option ℚ
  | .snapshot s => fun side =>
    (s.levels side).foldl (fun m level => put m level.price level.size) fun _ => none
  | .delta d => Function.update m d.side (put (m d.side) d.price d.size)
  | .trade _ => m

/-- The calls of the callbacks folded into maps. -/
def mirror (calls : List Publication) : Side → ℚ → Option ℚ :=
  calls.foldl mirrorStep fun _ _ => none

/-- A side of the local book as a map: the sizes are those that its texts read. -/
def localMap (lib : FeedLibrary) (book : LocalSide) (price : ℚ) : Option ℚ :=
  (book.lookup price).bind fun texts => (lib.stod texts.2).toOption

/-! ## What a message has written -/

/-- The key of a side in a message. -/
def sideKey : Side → CString
  | .bid => "bids".toList
  | .ask => "asks".toList

/-- The levels of a side in the data of a message. -/
def levelsOf (data : Json) (side : Side) : List Json :=
  ((data.find (sideKey side)).getD (.array [])).items

/-- The number of a value that is one. -/
def number? : Json → Option ℚ
  | .unsigned n => some n.toNat
  | .integer n => some n
  | .float x => some x
  | _ => none

/-- The decimal that a member of a level has: a number, or the numeral in a string. -/
def decimal (lib : FeedLibrary) : Json → Option ℚ
  | .string s => (lib.stod s).toOption
  | json => number? json

/-- A message has a level with this price and this size. -/
def Writes (lib : FeedLibrary) (text : CString) (side : Side) (price size : ℚ) : Prop :=
  ∃ json data level p q, lib.parse text = some json ∧ dataOf json = some data ∧
    level ∈ levelsOf data side ∧ levelMembers level = some (p, q) ∧ decimal lib p = some price ∧
    decimal lib q = some size

/-- What is assumed of the JSON library: dumping a number that it has parsed keeps its value, and
what is neither a number nor a numeral does not read as one. -/
def DumpKeepsNumbers (lib : FeedLibrary) : Prop :=
  ∀ text, ∀ json ∈ lib.parse text, ∀ data ∈ dataOf json, ∀ side, ∀ level ∈ levelsOf data side,
    ∀ members ∈ levelMembers level,
      (lib.stod (jsonNumberToWireString lib members.1)).toOption = decimal lib members.1 ∧
      (lib.stod (jsonNumberToWireString lib members.2)).toOption = decimal lib members.2

/-! ## The conditions -/

/-- The texts that the levels of a side are paired with read as the numbers of their level. -/
def Aligned (lib : FeedLibrary) : List Json → List (CString × CString) → Prop
  | [], _ => True
  | level :: rest, raw =>
    (∀ members ∈ levelMembers level,
      lib.stod (levelTexts lib raw.head? members.1 members.2).1 =
        lib.stod (jsonNumberToWireString lib members.1) ∧
      lib.stod (levelTexts lib raw.head? members.1 members.2).2 =
        lib.stod (jsonNumberToWireString lib members.2)) ∧
      Aligned lib rest raw.tail

instance decidableAligned (lib : FeedLibrary) : ∀ items raw, Decidable (Aligned lib items raw)
  | [], _ => isTrue trivial
  | _ :: rest, raw =>
    have := decidableAligned lib rest raw.tail
    inferInstanceAs (Decidable (_ ∧ _))

/-- The texts of a message stand at the place of their level, on both sides. -/
def TextsAligned (lib : FeedLibrary) (message : CString) (data : Json) : Prop :=
  Aligned lib (levelsOf data .bid) (extractLevelsFromMessage message "bids".toList) ∧
    Aligned lib (levelsOf data .ask) (extractLevelsFromMessage message "asks".toList)

instance (lib : FeedLibrary) (message : CString) (data : Json) :
    Decidable (TextsAligned lib message data) := inferInstanceAs (Decidable (_ ∧ _))

/-- The book with the levels of a message, before it is cut. -/
def appliedBook (lib : FeedLibrary) (book : LocalBook) (message : CString) (data : Json) :
    Option LocalBook :=
  (applyLocalBookLevels lib book data message).toOption

/-- The cut book, when its checksum is right. -/
def nextBook (lib : FeedLibrary) (depth : ℕ) (book : LocalBook) (message : CString) (data : Json) :
    Option LocalBook := do
  let cut := truncateBook depth (← appliedBook lib book message data)
  if (validateChecksum cut data).toOption = some true then some cut else none

/-- The updates that a replay applies, each with the book it finds. -/
def replayed (lib : FeedLibrary) (depth : ℕ) :
    LocalBook → List CString → List (LocalBook × CString × Json)
  | _, [] => []
  | book, message :: rest =>
    match lib.parse message with
    | none => replayed lib depth book rest
    | some json =>
      match dataOf json with
      | none => []
      | some data => (book, message, data) ::
        match nextBook lib depth book message data with
        | none => []
        | some book => replayed lib depth book rest

/-- An update with the right checksum keeps the mirror: its texts are aligned, and the cut takes no
level. -/
def Kept (lib : FeedLibrary) (depth : ℕ) (update : LocalBook × CString × Json) : Prop :=
  ∀ _book ∈ nextBook lib depth update.1 update.2.1 update.2.2,
    TextsAligned lib update.2.1 update.2.2 ∧
      ∀ applied ∈ appliedBook lib update.1 update.2.1 update.2.2,
        applied.bids.length ≤ depth ∧ applied.asks.length ≤ depth

instance (lib : FeedLibrary) (depth : ℕ) (update : LocalBook × CString × Json) :
    Decidable (Kept lib depth update) :=
  inferInstanceAs (Decidable (∀ _ ∈ _, _ ∧ _))

/-- The data of an update, and of a snapshot. -/
def updateData (lib : FeedLibrary) (text : CString) : Option Json :=
  match readMessage lib text with
  | .ok (.update json) => dataOf json
  | _ => none

def snapshotData (lib : FeedLibrary) (text : CString) : Option Json :=
  match readMessage lib text with
  | .ok (.snapshot json) => dataOf json
  | _ => none

/-- **When the mirror is kept** by a message: an update that is not buffered keeps it, and a
snapshot with the right checksum has aligned texts and all updates that it replays keep it. -/
def Keeps (lib : FeedLibrary) (h : KrakenFeedHandler) (text : CString) : Prop :=
  (h.state ≠ .buffering → ∀ data ∈ updateData lib text,
    Kept lib h.subscribedDepth (h.book, text, data)) ∧
  ∀ data ∈ snapshotData lib text, ∀ book ∈ nextBook lib h.subscribedDepth {} text data,
    TextsAligned lib text data ∧
      ∀ update ∈ replayed lib h.subscribedDepth book h.deltaBuffer,
        Kept lib h.subscribedDepth update

instance (lib : FeedLibrary) (h : KrakenFeedHandler) (text : CString) :
    Decidable (h.Keeps lib text) := inferInstanceAs (Decidable ((_ → _) ∧ ∀ _ ∈ _, _))

/-- The same for an event of the stream. -/
def KeepsMirror (lib : FeedLibrary) (h : KrakenFeedHandler) : StreamEvent → Prop
  | .message text => h.Keeps lib text
  | .established => True

instance (lib : FeedLibrary) (h : KrakenFeedHandler) : ∀ e, Decidable (h.KeepsMirror lib e)
  | .message text => inferInstanceAs (Decidable (h.Keeps lib text))
  | .established => isTrue trivial

/-! ## One level -/

variable {lib : FeedLibrary} {side : Side} {book book' : LocalSide} {heard : CString → Prop}
variable {price qty : ℚ} {texts : CString × CString} {m : ℚ → Option ℚ}

theorem localMap_writeLocal (hqty : lib.stod texts.2 = .ok qty) :
    localMap lib (writeLocal side book price qty texts) = put (localMap lib book) price qty := by
  funext p
  by_cases hprice : p = price
  · subst hprice
    by_cases hzero : qty = 0
    · simp [localMap, writeLocal, put, hzero, SortedMap.lookup_erase]
    · simp [localMap, writeLocal, put, hzero, SortedMap.lookup_upsert, hqty, Except.toOption]
  · by_cases hzero : qty = 0
    · simp [localMap, writeLocal, put, hzero, SortedMap.lookup_erase, hprice]
    · simp [localMap, writeLocal, put, hzero, SortedMap.lookup_upsert, hprice]

/-- **The invariant of a side of the local book**: its prices are in order, and every entry reads as
a level, not of size zero, that a message heard has written. -/
structure Genuine (lib : FeedLibrary) (heard : CString → Prop) (side : Side) (book : LocalSide) :
    Prop where
  sorted : SortedMap.Sorted side.Ahead book
  written : ∀ entry ∈ book, ∃ size, lib.stod entry.2.2 = .ok size ∧ size ≠ 0 ∧
    ∃ text, heard text ∧ Writes lib text side entry.1 size

theorem genuine_nil : Genuine lib heard side [] where
  sorted := List.Pairwise.nil
  written _ hentry := absurd hentry List.not_mem_nil

theorem Genuine.take (h : Genuine lib heard side book) (n : ℕ) :
    Genuine lib heard side (book.take n) where
  sorted := h.sorted.sublist (List.take_sublist n book)
  written entry hentry := h.written entry (List.mem_of_mem_take hentry)

theorem Genuine.writeLocal (h : Genuine lib heard side book) (hqty : lib.stod texts.2 = .ok qty)
    (hwritten : ∃ text, heard text ∧ Writes lib text side price qty) :
    Genuine lib heard side (writeLocal side book price qty texts) := by
  rw [KrakenFeedHandler.writeLocal]
  split_ifs with hzero
  · exact ⟨h.sorted.erase, fun entry hentry => h.written entry (List.mem_of_mem_filter hentry)⟩
  · refine ⟨?_, fun entry hentry => ?_⟩
    · have htotal : ∀ a b : ℚ, a ≠ b → side.Ahead a b ∨ side.Ahead b a := by
        cases side
        · exact fun a b hne => (lt_or_gt_of_ne hne).symm
        · exact fun a b hne => lt_or_gt_of_ne hne
      exact h.sorted.upsert htotal
    · obtain rfl | hentry := SortedMap.mem_upsert hentry
      · exact ⟨qty, hqty, hzero, hwritten⟩
      · exact h.written entry hentry

/-! ## The levels of a side -/

variable {items : List Json} {raw : List (CString × CString)} {seq : UInt64} {deltas : List Delta}

/-- The numbers of a level that can be read are decimals that the message has written. -/
theorem writes_of_level {text : CString} {json data level p q : Json} (hlib : DumpKeepsNumbers lib)
    (hparse : lib.parse text = some json) (hdata : dataOf json = some data)
    (hlevel : level ∈ levelsOf data side) (hmembers : levelMembers level = some (p, q))
    (hprice : lib.stod (jsonNumberToWireString lib p) = .ok price)
    (hqty : lib.stod (jsonNumberToWireString lib q) = .ok qty) :
    Writes lib text side price qty := by
  obtain ⟨hp, hq⟩ := hlib text json hparse data hdata side level hlevel (p, q) hmembers
  rw [hprice] at hp
  rw [hqty] at hq
  exact ⟨json, data, level, p, q, hparse, hdata, hlevel, hmembers, hp.symm, hq.symm⟩

/-- **A side with the levels of a message**: it stays genuine, when the levels are those of a
message heard. -/
theorem applySide_genuine (h : Genuine lib heard side book) (haligned : Aligned lib items raw)
    (hwrites : ∀ level ∈ items, ∀ p q price qty, levelMembers level = some (p, q) →
      lib.stod (jsonNumberToWireString lib p) = .ok price →
      lib.stod (jsonNumberToWireString lib q) = .ok qty →
      ∃ text, heard text ∧ Writes lib text side price qty)
    (happly : applySide lib side book items raw = .ok book') : Genuine lib heard side book' := by
  induction items generalizing book raw with
  | nil =>
    cases happly
    exact h
  | cons level rest ih =>
    have hrest := fun l hl => hwrites l (List.mem_cons_of_mem level hl)
    rw [applySide] at happly
    cases hmembers : levelMembers level with
    | none =>
      rw [hmembers] at happly
      exact ih h haligned.2 hrest happly
    | some members =>
      obtain ⟨p, q⟩ := members
      rw [hmembers] at happly
      obtain ⟨price, hprice, happly⟩ := of_bind_eq_ok happly
      obtain ⟨qty, hqty, happly⟩ := of_bind_eq_ok happly
      obtain ⟨hp, hq⟩ := haligned.1 (p, q) hmembers
      have hwritten := hwrites level List.mem_cons_self p q price qty hmembers
        (hp.symm.trans hprice) (hq.symm.trans hqty)
      exact ih (h.writeLocal hqty hwritten) haligned.2 hrest happly

/-- **The deltas of the levels follow the local side**, when the texts are aligned. -/
theorem applySide_deltas (haligned : Aligned lib items raw)
    (happly : applySide lib side book items raw = .ok book')
    (hemit : emitLevels lib seq side items = .ok deltas) :
    deltas.foldl (fun m d => put m d.price d.size) (localMap lib book) = localMap lib book' := by
  induction items generalizing book raw deltas with
  | nil =>
    cases happly
    cases hemit
    rfl
  | cons level rest ih =>
    rw [applySide] at happly
    rw [emitLevels] at hemit
    cases hmembers : levelMembers level with
    | none =>
      rw [hmembers] at happly hemit
      exact ih haligned.2 happly hemit
    | some members =>
      obtain ⟨p, q⟩ := members
      rw [hmembers] at happly hemit
      obtain ⟨price, hprice, happly⟩ := of_bind_eq_ok happly
      obtain ⟨qty, hqty, happly⟩ := of_bind_eq_ok happly
      obtain ⟨delta, hdelta, hemit⟩ := of_bind_eq_ok hemit
      obtain ⟨others, hothers, hemit⟩ := of_bind_eq_ok hemit
      obtain ⟨price', hprice', hdelta⟩ := of_bind_eq_ok hdelta
      obtain ⟨qty', hqty', hdelta⟩ := of_bind_eq_ok hdelta
      cases hemit
      cases hdelta
      obtain ⟨hp, hq⟩ := haligned.1 (p, q) hmembers
      -- the texts of the level and its parsed members read as the same numbers
      obtain rfl : price = price' := Except.ok.inj (hprice.symm.trans (hp.trans hprice'))
      obtain rfl : qty = qty' := Except.ok.inj (hqty.symm.trans (hq.trans hqty'))
      rw [List.foldl_cons, ← localMap_writeLocal hqty]
      exact ih haligned.2 happly hothers

/-- The deltas of a side are for that side. -/
theorem side_of_mem_emitLevels (hemit : emitLevels lib seq side items = .ok deltas) :
    ∀ d ∈ deltas, d.side = side := by
  induction items generalizing deltas with
  | nil =>
    cases hemit
    exact fun d hd => absurd hd List.not_mem_nil
  | cons level rest ih =>
    rw [emitLevels] at hemit
    cases hmembers : levelMembers level with
    | none =>
      rw [hmembers] at hemit
      exact ih hemit
    | some members =>
      rw [hmembers] at hemit
      obtain ⟨delta, hdelta, hemit⟩ := of_bind_eq_ok hemit
      obtain ⟨others, hothers, hemit⟩ := of_bind_eq_ok hemit
      obtain ⟨price, -, hdelta⟩ := of_bind_eq_ok hdelta
      obtain ⟨qty, -, hdelta⟩ := of_bind_eq_ok hdelta
      cases hemit
      cases hdelta
      exact List.forall_mem_cons.mpr ⟨rfl, ih hothers⟩

/-- Deltas of one side fold into the map of that side. -/
theorem foldl_deltas {maps : Side → ℚ → Option ℚ} (hside : ∀ d ∈ deltas, d.side = side) :
    (deltas.map Publication.delta).foldl mirrorStep maps =
      Function.update maps side
        (deltas.foldl (fun m d => put m d.price d.size) (maps side)) := by
  induction deltas generalizing maps with
  | nil => exact (Function.update_eq_self side maps).symm
  | cons d rest ih =>
    obtain ⟨rfl, hrest⟩ := List.forall_mem_cons.mp hside
    rw [List.map_cons, List.foldl_cons, ih hrest, mirrorStep, Function.update_self,
      Function.update_idem, List.foldl_cons]

/-- The levels that a snapshot publishes fold into the map of the side. -/
theorem foldl_publishedLevels {levels : List PriceLevel} (h : Genuine lib heard side book)
    (hpublish : publishedLevels lib book = .ok levels) :
    levels.foldl (fun m level => put m level.price level.size) m =
      fun price => (localMap lib book price).or (m price) := by
  induction book generalizing levels m with
  | nil =>
    cases hpublish
    rfl
  | cons entry rest ih =>
    obtain ⟨price, texts⟩ := entry
    obtain ⟨hhead, hsorted⟩ := List.pairwise_cons.mp h.sorted
    obtain ⟨size, hsize, hpublish⟩ := of_bind_eq_ok hpublish
    obtain ⟨others, hothers, hpublish⟩ := of_bind_eq_ok hpublish
    cases hpublish
    obtain ⟨size', hread, hzero, -⟩ := h.written (price, texts) List.mem_cons_self
    obtain rfl : size = size' := Except.ok.inj (hsize.symm.trans hread)
    have hrest : Genuine lib heard side rest :=
      ⟨hsorted, fun entry hentry => h.written entry (List.mem_cons_of_mem _ hentry)⟩
    rw [List.foldl_cons, ih hrest hothers]
    funext p
    by_cases hp : p = price
    · subst hp
      -- the keys are different, so the price stands only here
      have hnone : rest.lookup p = none := by
        rw [List.lookup_eq_none_iff]
        intro entry hentry
        rw [bne_iff_ne]
        rintro rfl
        have hahead : side.Ahead entry.1 entry.1 := hhead entry hentry
        cases side <;> exact lt_irrefl _ hahead
      simp [localMap, SortedMap.lookup_cons, hnone, put, hzero, hread, Except.toOption]
    · simp [localMap, SortedMap.lookup_cons, put, hp]

/-! ## The local book and its mirror -/

variable {h h' : KrakenFeedHandler} {message : CString} {json data : Json} {result : Result}
variable {applied local₀ : LocalBook}

theorem applyLocalBookLevels_sides
    (happly : applyLocalBookLevels lib local₀ data message = .ok applied) :
    data.isObject = true ∧
      applySide lib .bid local₀.bids (levelsOf data .bid)
        (extractLevelsFromMessage message "bids".toList) = .ok applied.bids ∧
      applySide lib .ask local₀.asks (levelsOf data .ask)
        (extractLevelsFromMessage message "asks".toList) = .ok applied.asks := by
  obtain ⟨bidLevels, hbidLevels, happly⟩ := of_bind_eq_ok happly
  obtain ⟨bids, hbids, happly⟩ := of_bind_eq_ok happly
  obtain ⟨askLevels, haskLevels, happly⟩ := of_bind_eq_ok happly
  obtain ⟨asks, hasks, happly⟩ := of_bind_eq_ok happly
  cases happly
  rw [Json.valueArray] at hbidLevels haskLevels
  split_ifs at hbidLevels haskLevels with hobject
  cases hbidLevels
  cases haskLevels
  exact ⟨hobject, hbids, hasks⟩

/-- **The local book and its mirror.** -/
structure Mirrors (lib : FeedLibrary) (heard : CString → Prop) (h : KrakenFeedHandler) : Prop where
  genuine : ∀ side, Genuine lib heard side (h.book.side side)
  fits : ∀ side, (h.book.side side).length ≤ h.subscribedDepth
  mirror_eq : ∀ side, mirror h.published side = localMap lib (h.book.side side)

/-- The book with the levels of a message heard is genuine. -/
theorem genuine_applied (hlib : DumpKeepsNumbers lib) (hheard : heard message)
    (hparse : lib.parse message = some json) (hdata : dataOf json = some data)
    (hgenuine : ∀ side, Genuine lib heard side (local₀.side side))
    (haligned : TextsAligned lib message data)
    (happly : applyLocalBookLevels lib local₀ data message = .ok applied) :
    ∀ side, Genuine lib heard side (applied.side side) := by
  obtain ⟨-, hbids, hasks⟩ := applyLocalBookLevels_sides happly
  intro side
  have hwrites : ∀ level ∈ levelsOf data side, ∀ p q price qty, levelMembers level = some (p, q) →
      lib.stod (jsonNumberToWireString lib p) = .ok price →
      lib.stod (jsonNumberToWireString lib q) = .ok qty →
      ∃ text, heard text ∧ Writes lib text side price qty :=
    fun level hlevel p q price qty hmembers hprice hqty =>
      ⟨message, hheard, writes_of_level hlib hparse hdata hlevel hmembers hprice hqty⟩
  cases side with
  | bid => exact applySide_genuine (hgenuine .bid) haligned.1 hwrites hbids
  | ask => exact applySide_genuine (hgenuine .ask) haligned.2 hwrites hasks

theorem truncateBook_side (depth : ℕ) (book : LocalBook) (side : Side) :
    (truncateBook depth book).side side = (book.side side).take depth := by
  cases side <;> rfl

/-- What `process_delta` does: it publishes the levels of a message and writes them, or it stops
without either, and then the book starts again unless the message has no data. -/
theorem processDelta_cases (hrun : h.processDelta lib message json seq = .ok (result, h')) :
    (result ≠ .success ∧ (h' = h ∨ ∃ book, h' = { h with book := book }.triggerResnapshot)) ∨
    (result = .success ∧ ∃ data applied bids asks, dataOf json = some data ∧
      applyLocalBookLevels lib h.book data message = .ok applied ∧
      validateChecksum (truncateBook h.subscribedDepth applied) data = .ok true ∧
      emitLevels lib seq .bid (levelsOf data .bid) = .ok bids ∧
      emitLevels lib seq .ask (levelsOf data .ask) = .ok asks ∧
      h' = { h with
        book := truncateBook h.subscribedDepth applied
        lastSequence := seq
        published := h.published ++ (bids ++ asks).map .delta }) := by
  rw [processDelta] at hrun
  cases hdata : dataOf json with
  | none =>
    rw [hdata] at hrun
    cases hrun
    exact .inl ⟨by decide, .inl rfl⟩
  | some data =>
    rw [hdata] at hrun
    obtain ⟨applied, happly, hrun⟩ := of_bind_eq_ok hrun
    obtain ⟨valid, hvalid, hrun⟩ := of_bind_eq_ok hrun
    cases valid with
    | false =>
      cases hrun
      exact .inl ⟨by decide, .inr ⟨_, rfl⟩⟩
    | true =>
      obtain ⟨timestamp, -, hrun⟩ := of_bind_eq_ok hrun
      obtain ⟨time, -, hrun⟩ := of_bind_eq_ok hrun
      obtain ⟨bidLevels, hbidLevels, hrun⟩ := of_bind_eq_ok hrun
      obtain ⟨bids, hbids, hrun⟩ := of_bind_eq_ok hrun
      obtain ⟨askLevels, haskLevels, hrun⟩ := of_bind_eq_ok hrun
      obtain ⟨asks, hasks, hrun⟩ := of_bind_eq_ok hrun
      cases hrun
      obtain ⟨hobject, -, -⟩ := applyLocalBookLevels_sides happly
      rw [Json.valueArray_of_isObject hobject] at hbidLevels haskLevels
      cases hbidLevels
      cases haskLevels
      exact .inr ⟨rfl, data, applied, bids, asks, rfl, happly, hvalid, hbids, hasks, rfl⟩

/-- **An accepted update keeps the mirror**, when its texts are aligned and the cut takes no
level. -/
theorem Mirrors.processDelta (hm : Mirrors lib heard h) (hlib : DumpKeepsNumbers lib)
    (hheard : heard message) (hparse : lib.parse message = some json)
    (hkept : ∀ data ∈ dataOf json, Kept lib h.subscribedDepth (h.book, message, data))
    (hrun : h.processDelta lib message json seq = .ok (.success, h')) :
    Mirrors lib heard h' ∧ h'.state = h.state ∧ h'.deltaBuffer = h.deltaBuffer ∧
      h'.subscribedDepth = h.subscribedDepth ∧
      ∃ data, dataOf json = some data ∧
        nextBook lib h.subscribedDepth h.book message data = some h'.book := by
  obtain ⟨hne, -⟩ | ⟨-, data, applied, bids, asks, hdata, happly, hvalid, hbids, hasks, rfl⟩ :=
    processDelta_cases hrun
  · exact absurd rfl hne
  · have happlied : appliedBook lib h.book message data = some applied := by
      rw [appliedBook, happly]
      rfl
    have hnext : nextBook lib h.subscribedDepth h.book message data =
        some (truncateBook h.subscribedDepth applied) := by
      simp [nextBook, happlied, hvalid, Except.toOption]
    obtain ⟨haligned, hfits⟩ := hkept data hdata _ hnext
    obtain ⟨hfitsBids, hfitsAsks⟩ := hfits applied happlied
    have hcut : truncateBook h.subscribedDepth applied = applied := by
      rw [truncateBook, List.take_of_length_le hfitsBids, List.take_of_length_le hfitsAsks]
    refine ⟨⟨?_, fun side => ?_, fun side => ?_⟩, rfl, rfl, rfl, data, hdata, hnext⟩
    · simp only [hcut]
      exact genuine_applied hlib hheard hparse hdata hm.genuine haligned happly
    · simp only [hcut]
      cases side
      · exact hfitsBids
      · exact hfitsAsks
    · obtain ⟨-, happlyBids, happlyAsks⟩ := applyLocalBookLevels_sides happly
      have hbidMap := applySide_deltas haligned.1 happlyBids hbids
      have haskMap := applySide_deltas haligned.2 happlyAsks hasks
      have hstart := hm.mirror_eq
      simp only [hcut]
      rw [mirror, List.map_append, List.foldl_append, List.foldl_append,
        foldl_deltas (side_of_mem_emitLevels hbids), foldl_deltas (side_of_mem_emitLevels hasks)]
      rw [mirror] at hstart
      cases side with
      | bid =>
        rw [Function.update_of_ne (by decide), Function.update_self, hstart]
        exact hbidMap
      | ask =>
        rw [Function.update_self, Function.update_of_ne (by decide), hstart]
        exact haskMap

/-- **A replay that goes through keeps the mirror.** -/
theorem Mirrors.replayDeltas (hlib : DumpKeepsNumbers lib) {messages : List CString}
    (hm : Mirrors lib heard h) (hheard : ∀ message ∈ messages, heard message)
    (hkept : ∀ update ∈ replayed lib h.subscribedDepth h.book messages,
      Kept lib h.subscribedDepth update)
    (hrun : h.replayDeltas lib seq messages = .ok (true, h')) :
    Mirrors lib heard h' ∧ h'.subscribedDepth = h.subscribedDepth := by
  induction messages generalizing h seq with
  | nil =>
    cases hrun
    exact ⟨hm, rfl⟩
  | cons message rest ih =>
    obtain ⟨hhead, hrest⟩ := List.forall_mem_cons.mp hheard
    rw [KrakenFeedHandler.replayDeltas] at hrun
    rw [replayed] at hkept
    cases hparse : lib.parse message with
    | none =>
      rw [hparse] at hrun hkept
      exact ih hm hrest hkept hrun
    | some json =>
      rw [hparse] at hrun hkept
      obtain ⟨⟨result, h₁⟩, hdelta, hrun⟩ := of_bind_eq_ok hrun
      cases result with
      | success =>
        have hfirst : ∀ data ∈ dataOf json, Kept lib h.subscribedDepth (h.book, message, data) := by
          intro data hdata
          refine hkept _ ?_
          simp only [Option.mem_def.mp hdata]
          exact List.mem_cons_self
        obtain ⟨hm₁, -, -, hdepth, data, hdata, hnext⟩ :=
          hm.processDelta hlib hhead hparse hfirst hdelta
        have hkept₁ : ∀ update ∈ replayed lib h₁.subscribedDepth h₁.book rest,
            Kept lib h₁.subscribedDepth update := by
          intro update hupdate
          rw [hdepth] at hupdate ⊢
          refine hkept update ?_
          simp only [hdata, hnext]
          exact List.mem_cons_of_mem _ hupdate
        obtain ⟨hm', hdepth'⟩ := ih hm₁ hrest hkept₁ hrun
        exact ⟨hm', hdepth'.trans hdepth⟩
      | _ => cases hrun

/-! ## Messages -/

/-- **The invariant of a run**: what is buffered has been heard, and the mirror is exact unless the
handler waits for a snapshot. -/
structure Mirrored (lib : FeedLibrary) (heard : CString → Prop) (h : KrakenFeedHandler) : Prop where
  buffered : ∀ text ∈ h.deltaBuffer, heard text
  exact_unless : h.state ≠ .buffering → Mirrors lib heard h

theorem mirrored_triggerResnapshot : Mirrored lib heard h.triggerResnapshot where
  buffered _ htext := absurd htext List.not_mem_nil
  exact_unless hstate := absurd rfl hstate

theorem Mirrors.acceptSnapshot {snap : Snapshot} (hlib : DumpKeepsNumbers lib)
    (hm : Mirrors lib heard { h with
      lastSequence := 0, published := h.published ++ [.snapshot snap] })
    (hheard : ∀ text ∈ h.deltaBuffer, heard text)
    (hkept : ∀ update ∈ replayed lib h.subscribedDepth h.book h.deltaBuffer,
      Kept lib h.subscribedDepth update)
    (hrun : h.acceptSnapshot lib snap = .ok (result, h')) : Mirrored lib heard h' := by
  obtain ⟨⟨done, h₁⟩, hbuffered, hrun⟩ := of_bind_eq_ok hrun
  obtain ⟨⟨done', h₂⟩, hreplay, hbuffered⟩ := of_bind_eq_ok hbuffered
  cases hbuffered
  cases done with
  | false =>
    cases hrun
    exact mirrored_triggerResnapshot
  | true =>
    cases hrun
    obtain ⟨hm₂, -⟩ := hm.replayDeltas hlib hheard hkept hreplay
    exact ⟨fun _ htext => absurd htext List.not_mem_nil,
      fun _ => ⟨hm₂.genuine, hm₂.fits, hm₂.mirror_eq⟩⟩

/-- **A snapshot starts the mirror again.** -/
theorem Mirrored.processSnapshot (hm : Mirrored lib heard h) (hlib : DumpKeepsNumbers lib)
    (hheard : heard message) (hparse : lib.parse message = some json)
    (hkept : ∀ data ∈ dataOf json, ∀ book ∈ nextBook lib h.subscribedDepth {} message data,
      TextsAligned lib message data ∧
        ∀ update ∈ replayed lib h.subscribedDepth book h.deltaBuffer,
          Kept lib h.subscribedDepth update)
    (hrun : h.processSnapshot lib message json = .ok (result, h')) : Mirrored lib heard h' := by
  rw [KrakenFeedHandler.processSnapshot] at hrun
  cases hdata : dataOf json with
  | none =>
    rw [hdata] at hrun
    cases hrun
    exact mirrored_triggerResnapshot
  | some data =>
    rw [hdata] at hrun
    obtain ⟨applied, happly, hrun⟩ := of_bind_eq_ok hrun
    obtain ⟨valid, hvalid, hrun⟩ := of_bind_eq_ok hrun
    cases valid with
    | false =>
      cases hrun
      exact mirrored_triggerResnapshot
    | true =>
      obtain ⟨timestamp, -, hrun⟩ := of_bind_eq_ok hrun
      obtain ⟨time, -, hrun⟩ := of_bind_eq_ok hrun
      obtain ⟨snap, hsnap, hrun⟩ := of_bind_eq_ok hrun
      split_ifs at hrun
      · cases hrun
        exact mirrored_triggerResnapshot
      · have happlied : appliedBook lib {} message data = some applied := by
          rw [appliedBook, happly]
          rfl
        have hnext : nextBook lib h.subscribedDepth {} message data =
            some (truncateBook h.subscribedDepth applied) := by
          simp [nextBook, happlied, hvalid, Except.toOption]
        obtain ⟨haligned, hreplay⟩ := hkept data hdata _ hnext
        have hempty : ∀ side, Genuine lib heard side (({} : LocalBook).side side) := by
          intro side
          cases side <;> exact genuine_nil
        have hgenuine : ∀ side, Genuine lib heard side
            ((truncateBook h.subscribedDepth applied).side side) := by
          intro side
          rw [truncateBook_side]
          exact (genuine_applied hlib hheard hparse hdata hempty haligned happly side).take _
        obtain ⟨bids, hbids, hsnap⟩ := of_bind_eq_ok hsnap
        obtain ⟨asks, hasks, hsnap⟩ := of_bind_eq_ok hsnap
        cases hsnap
        have hstart : Mirrors lib heard { h with
            book := truncateBook h.subscribedDepth applied
            lastSequence := 0
            published := h.published ++ [.snapshot ⟨0, bids, asks, 0, false⟩] } := by
          refine ⟨hgenuine, fun side => ?_, fun side => ?_⟩
          · simp only [truncateBook_side]
            exact List.length_take_le _ _
          · simp only [mirror, List.foldl_append, List.foldl_cons, List.foldl_nil]
            cases side with
            | bid =>
              refine (foldl_publishedLevels (hgenuine .bid) hbids).trans ?_
              funext price
              exact Option.or_none
            | ask =>
              refine (foldl_publishedLevels (hgenuine .ask) hasks).trans ?_
              funext price
              exact Option.or_none
        exact Mirrors.acceptSnapshot
          (h := { h with book := truncateBook h.subscribedDepth applied })
          hlib hstart hm.buffered hreplay hrun

theorem Mirrored.processUpdate (hm : Mirrored lib heard h) (hlib : DumpKeepsNumbers lib)
    (hheard : heard message) (hparse : lib.parse message = some json)
    (hkept : h.state ≠ .buffering → ∀ data ∈ dataOf json,
      Kept lib h.subscribedDepth (h.book, message, data))
    (hrun : h.processUpdate lib message json = .ok (result, h')) : Mirrored lib heard h' := by
  rw [KrakenFeedHandler.processUpdate] at hrun
  split_ifs at hrun with hstate
  · cases hrun
    refine ⟨fun text htext => ?_, fun hne => absurd hstate hne⟩
    obtain htext | htext := List.mem_append.mp htext
    · exact hm.buffered text htext
    · rwa [List.mem_singleton.mp htext]
  · cases hrun
    exact mirrored_triggerResnapshot
  · cases result with
    | success =>
      obtain ⟨hm', -, hbuffer, -⟩ :=
        (hm.exact_unless hstate).processDelta hlib hheard hparse (hkept hstate) hrun
      exact ⟨fun text htext => hm.buffered text (hbuffer ▸ htext), fun _ => hm'⟩
    | _ =>
      obtain ⟨-, rfl | ⟨book, rfl⟩⟩ | ⟨hsuccess, -⟩ := processDelta_cases hrun
      · exact hm
      · exact mirrored_triggerResnapshot
      · cases hsuccess

/-- Trades are no concern of the mirror. -/
theorem mirror_trades (calls : List Publication) (trades : List TradeFlow) :
    mirror (calls ++ trades.map .trade) = mirror calls := by
  rw [mirror, List.foldl_append]
  induction trades with
  | nil => rfl
  | cons trade rest ih => exact ih

/-- The JSON value of a message of the book. -/
def bookMessage : Incoming → Option Json
  | .update json => some json
  | .snapshot json => some json
  | _ => none

/-- The message of an update or of a snapshot has been parsed. -/
theorem parse_of_readMessage {incoming : Incoming} (hread : readMessage lib message = .ok incoming)
    (hbook : bookMessage incoming = some json) : lib.parse message = some json := by
  rw [readMessage] at hread
  cases hparse : lib.parse message with
  | none =>
    rw [hparse] at hread
    cases hread
    cases hbook
  | some parsed =>
    rw [hparse] at hread
    simp only at hread
    split at hread
    · rw [readReply] at hread
      split_ifs at hread
      · split at hread
        · obtain ⟨text, -, hread⟩ := of_bind_eq_ok hread
          cases hread
          cases hbook
        · cases hread
          cases hbook
      · cases hread
        cases hbook
    · split at hread
      · split_ifs at hread
        · cases hread
          cases hbook
        · obtain ⟨type, -, hread⟩ := of_bind_eq_ok hread
          cases hread
          split_ifs at hbook <;> cases hbook <;> rfl
        · cases hread
          cases hbook
      · cases hread
        cases hbook

/-- **What an event of the stream keeps.** -/
theorem Mirrored.streamStep (hm : Mirrored lib heard h) (hlib : DumpKeepsNumbers lib)
    {e : StreamEvent} (hheard : ∀ text, e = .message text → heard text)
    (hkept : h.KeepsMirror lib e) (hrun : h.streamStep lib e = .ok h') : Mirrored lib heard h' := by
  cases e with
  | established =>
    cases hrun
    exact ⟨fun _ htext => absurd htext List.not_mem_nil, fun hstate => absurd rfl hstate⟩
  | message text =>
    have hheard := hheard text rfl
    obtain ⟨⟨result, h₁⟩, hprocess, hrun⟩ := of_bind_eq_ok hrun
    cases hrun
    obtain ⟨incoming, hread, hprocess⟩ := of_bind_eq_ok hprocess
    cases incoming with
    | ignored =>
      cases hprocess
      exact hm
    | rejected =>
      cases hprocess
      exact mirrored_triggerResnapshot
    | trades trades =>
      cases hprocess
      refine ⟨hm.buffered, fun hstate => ?_⟩
      obtain ⟨hgenuine, hfits, hmirror⟩ := hm.exact_unless hstate
      exact ⟨hgenuine, hfits, fun side => by rw [mirror_trades]; exact hmirror side⟩
    | snapshot json =>
      refine hm.processSnapshot hlib hheard (parse_of_readMessage hread rfl)
        (fun data hdata => ?_) hprocess
      exact hkept.2 data (by rwa [snapshotData, hread])
    | update json =>
      refine hm.processUpdate hlib hheard (parse_of_readMessage hread rfl)
        (fun hstate data hdata => ?_) hprocess
      exact hkept.1 hstate data (by rwa [updateData, hread])

/-! ## Runs -/

/-- **An exact mirror** of a side: the calls fold into the local map, with the same prices, no more
than the depth, and every price and size is a decimal that a message of the run has written. -/
structure ExactMirror (lib : FeedLibrary) (events : List StreamEvent) (h : KrakenFeedHandler)
    (side : Side) : Prop where
  sizes : mirror h.published side = localMap lib (h.book.side side)
  prices : ∀ price, (mirror h.published side price).isSome =
    ((h.book.side side).lookup price).isSome
  fits : (h.book.side side).length ≤ h.subscribedDepth
  written : ∀ price size, mirror h.published side price = some size →
    ∃ text, .message text ∈ events ∧ Writes lib text side price size

theorem Genuine.of_lookup (hgenuine : Genuine lib heard side book)
    (hlookup : book.lookup price = some texts) : ∃ size, localMap lib book price = some size ∧
      ∃ text, heard text ∧ Writes lib text side price size := by
  obtain ⟨before, after, hbook, -⟩ := List.lookup_eq_some_iff.mp hlookup
  have hmem : (price, texts) ∈ book := by
    rw [hbook]
    exact List.mem_append_right before List.mem_cons_self
  obtain ⟨size, hsize, -, hwritten⟩ := hgenuine.written (price, texts) hmem
  refine ⟨size, ?_, hwritten⟩
  simp only [localMap, hlookup, Option.bind_some]
  rw [hsize]
  rfl

/-- A handler that waits for its first snapshot. -/
def waiting (depth : ℕ) : KrakenFeedHandler := { state := .buffering, subscribedDepth := depth }

/-- **Kraken publishes its local book.** In every run whose accepted messages keep the mirror, after
every message that the handler has accepted, which leaves it in a state in which it does not wait
for a snapshot, the mirror of both sides is exact. -/
theorem mirror_run (lib : FeedLibrary) (hlib : DumpKeepsNumbers lib) (depth : ℕ)
    (events : List StreamEvent)
    (hkept : AllSteps (stepOrEnd (streamStep lib)) (fun o e => ∀ h ∈ o, h.KeepsMirror lib e)
      (some (waiting depth)) events) (h : KrakenFeedHandler)
    (hrun : events.foldl (stepOrEnd (streamStep lib)) (some (waiting depth)) = some h)
    (hstate : h.state ≠ .buffering) (side : Side) : ExactMirror lib events h side := by
  have hstart : Mirrored lib (fun text => .message text ∈ events) (waiting depth) :=
    ⟨fun _ htext => absurd htext List.not_mem_nil, fun hne => absurd rfl hne⟩
  have hboth : AllSteps (stepOrEnd (streamStep lib)) (fun o e => ∀ h ∈ o,
      h.KeepsMirror lib e ∧ e ∈ events) (some (waiting depth)) events :=
    AllSteps.imp_of_invariant (P := fun _ => True) (fun _ _ _ he hk =>
      ⟨trivial, fun h hh => ⟨hk h hh, he⟩⟩) hkept trivial fun _ he => he
  have hstep : ∀ (h : KrakenFeedHandler) (e : StreamEvent) (h' : KrakenFeedHandler),
      Mirrored lib (fun text => .message text ∈ events) h → h.KeepsMirror lib e ∧ e ∈ events →
      h.streamStep lib e = .ok h' → Mirrored lib (fun text => .message text ∈ events) h' :=
    fun h e h' hm he hstep => hm.streamStep hlib (fun text htext => htext ▸ he.2) he.1 hstep
  have hm := (AllSteps.foldl_stepOrEnd hstep hstart hboth hrun).exact_unless hstate
  have hlookup : ∀ price texts, (h.book.side side).lookup price = some texts →
      ∃ size, localMap lib (h.book.side side) price = some size ∧
        ∃ text, .message text ∈ events ∧ Writes lib text side price size :=
    fun _ _ => (hm.genuine side).of_lookup
  refine ⟨hm.mirror_eq side, fun price => ?_, hm.fits side, fun price size hsize => ?_⟩
  · rw [hm.mirror_eq]
    cases hfind : (h.book.side side).lookup price with
    | none => simp [localMap, hfind]
    | some texts =>
      obtain ⟨size, hsize, -⟩ := hlookup price texts hfind
      rw [hsize]
      rfl
  · rw [hm.mirror_eq] at hsize
    cases hfind : (h.book.side side).lookup price with
    | none => simp [localMap, hfind] at hsize
    | some texts =>
      obtain ⟨size', hsize', hwritten⟩ := hlookup price texts hfind
      obtain rfl : size = size' := Option.some.inj (hsize.symm.trans hsize')
      exact hwritten

/-! ### A book of one level -/

/-- A level as a text. -/
def levelText (price qty : ℕ) : CString :=
  "\x7b\"price\":".toList ++ Nat.toDigits 10 price ++ ",\"qty\":".toList ++ Nat.toDigits 10 qty ++
    "\x7d".toList

/-- A level as a value. -/
def levelJson (price qty : ℕ) : Json :=
  .object [("price".toList, .unsigned (.ofNat price)), ("qty".toList, .unsigned (.ofNat qty))]

/-- The text of a message of the book with one bid and at most one ask at 11. -/
def bookText (type : String) (price qty : ℕ) (asks : Bool) (checksum : ℕ) : CString :=
  "\x7b\"channel\":\"book\",\"type\":\"".toList ++ type.toList ++
    "\",\"data\":[\x7b\"bids\":[".toList ++ levelText price qty ++ "],\"asks\":[".toList ++
    (if asks then levelText 11 1 else []) ++ "],\"checksum\":".toList ++
    Nat.toDigits 10 checksum ++ "\x7d]\x7d".toList

/-- The parsed message. -/
def bookJson (type : String) (price qty : ℕ) (asks : Bool) (checksum : ℕ) : Json :=
  .object [("channel".toList, .string "book".toList),
    ("data".toList, .array [.object [
      ("asks".toList, .array (if asks then [levelJson 11 1] else [])),
      ("bids".toList, .array [levelJson price qty]),
      ("checksum".toList, .unsigned (.ofNat checksum))]]),
    ("type".toList, .string type.toList)]

/-- A snapshot with a bid at 10, an update of its quantity, and an update with a better bid; the
checksums are those of a book of one level. -/
def oneLevelTexts : List (CString × Json) :=
  [(bookText "snapshot" 10 1 true 17023543, bookJson "snapshot" 10 1 true 17023543),
    (bookText "update" 10 2 false 2550829965, bookJson "update" 10 2 false 2550829965),
    (bookText "update" 12 1 false 859152565, bookJson "update" 12 1 false 859152565)]

/-- The library on these texts. -/
def oneLevelLibrary : FeedLibrary :=
  { FeedLibrary.ofTables oneLevelTexts
      [("1".toList, 1), ("2".toList, 2), ("10".toList, 10), ("11".toList, 11),
        ("12".toList, 12)] with
    dump := fun json =>
      match json with
      | .unsigned n => Nat.toDigits 10 n.toNat
      | _ => [] }

theorem dumpKeepsNumbers_oneLevelLibrary : DumpKeepsNumbers oneLevelLibrary := by
  intro text json hjson data hdata side
  obtain ⟨before, after, htexts, -⟩ := List.lookup_eq_some_iff.mp hjson
  have hmem : (text, json) ∈ oneLevelTexts := by
    rw [htexts]
    exact List.mem_append_right before List.mem_cons_self
  have hall : ∀ entry ∈ oneLevelTexts, ∀ data ∈ dataOf entry.2, ∀ side ∈ [Side.bid, Side.ask],
      ∀ level ∈ levelsOf data side, ∀ members ∈ levelMembers level,
        (oneLevelLibrary.stod (jsonNumberToWireString oneLevelLibrary members.1)).toOption =
          decimal oneLevelLibrary members.1 ∧
        (oneLevelLibrary.stod (jsonNumberToWireString oneLevelLibrary members.2)).toOption =
          decimal oneLevelLibrary members.2 := by decide +kernel
  exact hall (text, json) hmem data hdata side (by cases side <;> decide)

/-- The snapshot and the update of the quantity. -/
def sameLevel : List StreamEvent :=
  [.message (bookText "snapshot" 10 1 true 17023543),
    .message (bookText "update" 10 2 false 2550829965)]

theorem mirror_run_sameLevel : ∃ h, sameLevel.foldl (stepOrEnd (streamStep oneLevelLibrary))
      (some (waiting 1)) = some h ∧
    (h.state ≠ .buffering ∧ mirror h.published .bid 10 = some 2) ∧
      ExactMirror oneLevelLibrary sameLevel h .bid := by
  have hreached : (sameLevel.foldl (stepOrEnd (streamStep oneLevelLibrary)) (some (waiting 1))).any
      (fun h => h.state ≠ .buffering ∧ mirror h.published .bid 10 = some 2) = true := by
    decide +kernel
  obtain ⟨h, hrun, hh⟩ := (Option.any_eq_true _ _).mp hreached
  have hh := of_decide_eq_true hh
  exact ⟨h, hrun, hh, mirror_run oneLevelLibrary dumpKeepsNumbers_oneLevelLibrary 1 sameLevel
    (by decide +kernel) h hrun hh.1 .bid⟩

/-- The snapshot and the better bid. -/
def betterLevel : List StreamEvent :=
  [.message (bookText "snapshot" 10 1 true 17023543),
    .message (bookText "update" 12 1 false 859152565)]

/-- The bid at 10 falls out of the book of one level, and stays in the mirror. -/
theorem cut_level_stays :
    ¬ ∀ lib : FeedLibrary, DumpKeepsNumbers lib → ∀ (depth : ℕ) (events : List StreamEvent)
      (h : KrakenFeedHandler), events.foldl (stepOrEnd (streamStep lib)) (some (waiting depth)) =
        some h → h.state ≠ .buffering → ∀ side, ExactMirror lib events h side := by
  intro hexact
  have hreached : (betterLevel.foldl (stepOrEnd (streamStep oneLevelLibrary))
    (some (waiting 1))).any
      (fun h => h.state ≠ .buffering ∧ mirror h.published .bid 10 = some 1 ∧
        (h.book.side .bid).lookup 10 = none) = true := by
    decide +kernel
  obtain ⟨h, hrun, hh⟩ := (Option.any_eq_true _ _).mp hreached
  obtain ⟨hstate, hmirror, hbook⟩ := of_decide_eq_true hh
  have hprices := (hexact oneLevelLibrary dumpKeepsNumbers_oneLevelLibrary 1 betterLevel h hrun
    hstate .bid).prices 10
  rw [hmirror, hbook] at hprices
  cases hprices

end KrakenFeedHandler

end TradingInfrastructure
