import TradingInfrastructure.Connectors.BinanceFuturesConnector

/-!
# Accounts that fit into a snapshot

A fetch puts every row of the venue's answers into a table of the snapshot, the rows with nothing in
them as well, and gives up when a table is full. So what a fetch leaves is the rows of all answers
together (`FetchStep.Delivers`), and a truthful account is fetched exactly when its rows fit
(`account_complete_iff`).

A row is what the connector reads of an element of an answer.
-/

namespace TradingInfrastructure

/-! ## The rows of a snapshot -/

/-- Rows for the tables of a snapshot. -/
@[ext] structure SnapshotRows where
  openOrders : List ReconciledOrder := []
  fills : List ReconciledFill := []
  balances : List ReconciledBalance := []
  positions : List ReconciledPosition := []

namespace SnapshotRows

instance : Append SnapshotRows where
  append r r' := ⟨r.openOrders ++ r'.openOrders, r.fills ++ r'.fills, r.balances ++ r'.balances,
    r.positions ++ r'.positions⟩

variable (r r' r'' : SnapshotRows)

@[simp] theorem openOrders_append : (r ++ r').openOrders = r.openOrders ++ r'.openOrders := rfl

@[simp] theorem fills_append : (r ++ r').fills = r.fills ++ r'.fills := rfl

@[simp] theorem balances_append : (r ++ r').balances = r.balances ++ r'.balances := rfl

@[simp] theorem positions_append : (r ++ r').positions = r.positions ++ r'.positions := rfl

theorem append_assoc : r ++ r' ++ r'' = r ++ (r' ++ r'') := by
  ext1 <;> simp

theorem append_nothing : r ++ {} = r := by
  ext1 <;> simp

/-- The rows fit into the tables. -/
structure Fits : Prop where
  openOrders : r.openOrders.length ≤ 128
  fills : r.fills.length ≤ 512
  balances : r.balances.length ≤ 64
  positions : r.positions.length ≤ 64

variable {r r'}

theorem Fits.left (h : (r ++ r').Fits) : r.Fits := by
  constructor
  · exact (by simp : r.openOrders.length ≤ (r ++ r').openOrders.length).trans h.openOrders
  · exact (by simp : r.fills.length ≤ (r ++ r').fills.length).trans h.fills
  · exact (by simp : r.balances.length ≤ (r ++ r').balances.length).trans h.balances
  · exact (by simp : r.positions.length ≤ (r ++ r').positions.length).trans h.positions

end SnapshotRows

namespace ReconciliationSnapshot

/-- The rows of a snapshot. -/
def contents (s : ReconciliationSnapshot) : SnapshotRows :=
  ⟨s.openOrders.items, s.fills.items, s.balances.items, s.positions.items⟩

theorem fits_contents (s : ReconciliationSnapshot) : s.contents.Fits :=
  ⟨s.openOrders.bound, s.fills.bound, s.balances.bound, s.positions.bound⟩

/-- Rows that fit are those of a snapshot. -/
theorem exists_contents {r : SnapshotRows} (h : r.Fits) :
    ∃ s : ReconciliationSnapshot, s.contents = r :=
  ⟨⟨⟨r.openOrders, h.openOrders⟩, ⟨r.fills, h.fills⟩, ⟨r.balances, h.balances⟩,
    ⟨r.positions, h.positions⟩⟩, rfl⟩

theorem ext_contents {s s' : ReconciliationSnapshot} (h : s.contents = s'.contents) : s = s' := by
  obtain ⟨⟨_, _⟩, ⟨_, _⟩, ⟨_, _⟩, ⟨_, _⟩⟩ := s
  obtain ⟨⟨_, _⟩, ⟨_, _⟩, ⟨_, _⟩, ⟨_, _⟩⟩ := s'
  cases h
  rfl

end ReconciliationSnapshot

/-! ## Tables -/

section

variable {ι α : Type} {capacity : ℕ} {read : ι → Except ReplyFault α} {items : List ι}
  {rows : List α} {t t' : FixedTable α capacity}

/-- The elements are read as the rows. -/
def ReadsAs (read : ι → Except ReplyFault α) : List ι → List α → Prop :=
  List.Forall₂ fun item row => read item = .ok row

theorem FixedTable.ext_items (h : t.items = t'.items) : t = t' := by
  cases t
  cases t'
  cases h
  rfl

theorem FixedTable.push_eq_some_iff {row : α} : t.push row = some t' ↔
    t'.items = t.items ++ [row] := by
  unfold push
  split_ifs with hroom
  · rw [Option.some.injEq]
    exact ⟨fun h => h ▸ rfl, fun h => FixedTable.ext_items h.symm⟩
  · refine iff_of_false (fun h => by cases h) fun h => hroom ?_
    have hbound := t'.bound
    rw [h, List.length_append, List.length_singleton] at hbound
    omega

theorem FixedTable.full_of_push_eq_none {row : α} (h : t.push row = none) :
    capacity ≤ t.items.length := by
  unfold push at h
  split_ifs at h with hroom
  exact not_lt.mp hroom

theorem appendRows_cons_some {item : ι} {row : α} {next : FixedTable α capacity}
    (hread : read item = .ok row) (hpush : t.push row = some next) :
    appendRows read (item :: items) t = appendRows read items next := by
  rw [appendRows, hread]
  simp only [bind, Except.bind, hpush]

theorem appendRows_cons_none {item : ι} {row : α} (hread : read item = .ok row)
    (hpush : t.push row = none) : appendRows read (item :: items) t = .ok (false, t) := by
  rw [appendRows, hread]
  simp only [bind, Except.bind, hpush]
  rfl

/-- **A loop over rows ends well** exactly when it leaves a table with all of them. -/
theorem appendRows_eq_done_iff (h : ReadsAs read items rows) :
    appendRows read items t = .ok (true, t') ↔ t'.items = t.items ++ rows := by
  induction h generalizing t with
  | nil =>
    rw [appendRows, List.append_nil, Except.ok.injEq, Prod.mk.injEq, and_iff_right rfl]
    exact ⟨fun h => h ▸ rfl, fun h => FixedTable.ext_items h.symm⟩
  | @cons item row items rows hread _ ih =>
    cases hpush : t.push row with
    | some next =>
      rw [appendRows_cons_some hread hpush, ih, FixedTable.push_eq_some_iff.mp hpush,
        List.append_assoc, List.singleton_append]
    | none =>
      rw [appendRows_cons_none hread hpush]
      refine iff_of_false (fun h => by cases h) fun h => ?_
      have hfull := FixedTable.full_of_push_eq_none hpush
      have hbound := t'.bound
      rw [h, List.length_append, List.length_cons] at hbound
      omega

end

/-! ## The parts of a fetch -/

namespace FetchStep

variable {step next : FetchStep} {rows rows' : SnapshotRows}

/-- What the part leaves when it ends well. -/
def Delivers (step : FetchStep) (rows : SnapshotRows) : Prop :=
  ∀ s s', step s = .ok (.ok, s') ↔ s'.contents = s.contents ++ rows

theorem delivers_stop : (stop .ok).Delivers {} := by
  intro s s'
  rw [SnapshotRows.append_nothing]
  constructor
  · intro h
    cases h
    rfl
  · intro h
    rw [ReconciliationSnapshot.ext_contents h]
    rfl

/-- **Parts one after another** deliver their rows together. -/
theorem Delivers.andThen (hstep : step.Delivers rows) (hnext : next.Delivers rows') :
    (step.andThen next).Delivers (rows ++ rows') := by
  intro s s'
  unfold FetchStep.andThen
  constructor
  · intro h
    obtain ⟨⟨result, s₁⟩, hfirst, h⟩ := bind_eq_ok.mp h
    dsimp only at h
    split_ifs at h with hok
    · subst hok
      rw [(hnext s₁ s').mp h, (hstep s s₁).mp hfirst, SnapshotRows.append_assoc]
    · cases h
      exact absurd rfl hok
  · intro h
    rw [← SnapshotRows.append_assoc] at h
    have hfits := h ▸ s'.fits_contents
    obtain ⟨s₁, hs₁⟩ := ReconciliationSnapshot.exists_contents hfits.left
    refine bind_eq_ok.mpr ⟨(.ok, s₁), (hstep s s₁).mpr hs₁, ?_⟩
    exact (hnext s₁ s').mpr (by rw [hs₁, h])

section

variable {ι : Type} {items : List ι}

/-- Reading rows into one table. -/
theorem delivers_append {α : Type} {capacity : ℕ} {read : ι → Except ReplyFault α} {table : List α}
    (get : ReconciliationSnapshot → FixedTable α capacity)
    (put : ReconciliationSnapshot → FixedTable α capacity → ReconciliationSnapshot)
    (single : List α → SnapshotRows)
    (hput : ∀ s t table, t.items = (get s).items ++ table →
      (put s t).contents = s.contents ++ single table)
    (hget : ∀ s s' table, s'.contents = s.contents ++ single table →
      (get s').items = (get s).items ++ table)
    (h : ReadsAs read items table) :
    Delivers (fun s => do
      let (done, t) ← appendRows read items (get s)
      return (if done then .ok else .errorUnknown, put s t)) (single table) := by
  intro s s'
  constructor
  · intro hstep
    obtain ⟨⟨done, t⟩, happend, hstep⟩ := bind_eq_ok.mp hstep
    cases done <;> cases hstep
    exact hput s t table ((appendRows_eq_done_iff h).mp happend)
  · intro hrows
    have hitems := hget s s' table hrows
    have hsame : s' = put s (get s') :=
      ReconciliationSnapshot.ext_contents (hrows.trans (hput s (get s') table hitems).symm)
    rw [hsame]
    exact bind_eq_ok.mpr ⟨(true, get s'), (appendRows_eq_done_iff h).mpr hitems, rfl⟩

theorem delivers_orders {read : ι → Except ReplyFault ReconciledOrder}
    {table : List ReconciledOrder} (h : ReadsAs read items table) :
    (orders read items).Delivers { openOrders := table } :=
  delivers_append (·.openOrders) (fun s t => { s with openOrders := t })
    (fun table => { openOrders := table })
    (fun s t table ht => by ext1 <;> simp [ReconciliationSnapshot.contents, ht])
    (fun _ _ _ => congrArg SnapshotRows.openOrders) h

theorem delivers_balances {read : ι → Except ReplyFault ReconciledBalance}
    {table : List ReconciledBalance} (h : ReadsAs read items table) :
    (balances read items).Delivers { balances := table } :=
  delivers_append (·.balances) (fun s t => { s with balances := t })
    (fun table => { balances := table })
    (fun s t table ht => by ext1 <;> simp [ReconciliationSnapshot.contents, ht])
    (fun _ _ _ => congrArg SnapshotRows.balances) h

theorem delivers_positions {read : ι → Except ReplyFault ReconciledPosition}
    {table : List ReconciledPosition} (h : ReadsAs read items table) :
    (positions read items).Delivers { positions := table } :=
  delivers_append (·.positions) (fun s t => { s with positions := t })
    (fun table => { positions := table })
    (fun s t table ht => by ext1 <;> simp [ReconciliationSnapshot.contents, ht])
    (fun _ _ _ => congrArg SnapshotRows.positions) h

theorem delivers_fills {read : ι → Except ReplyFault ReconciledFill}
    {table : List ReconciledFill} (h : ReadsAs read items table) :
    (fills read items).Delivers { fills := table } :=
  delivers_append (·.fills) (fun s t => { s with fills := t })
    (fun table => { fills := table })
    (fun s t table ht => by ext1 <;> simp [ReconciliationSnapshot.contents, ht])
    (fun _ _ _ => congrArg SnapshotRows.fills) h

end

end FetchStep

/-! ## Truthful answers -/

/-- A request succeeds, with a list that the connector reads as the rows. -/
structure VenueReply.Lists {α : Type} (lib : VenueLibrary) (read : Json → Except ReplyFault α)
    (reply : VenueReply) (rows : List α) : Prop where
  ok : reply.ok = true
  body : ∃ items, lib.parse reply.body = some (.array items) ∧ ReadsAs read items rows

theorem VenueReply.not_unavailable {reply : VenueReply} (h : reply.ok = true) :
    reply.unavailable = false := by
  simp only [VenueReply.ok, Bool.and_eq_true, decide_eq_true_eq] at h
  simp only [VenueReply.unavailable, Bool.or_eq_false_iff, beq_eq_false_iff_ne]
  omega

/-- An account at a venue, as rows of a snapshot. -/
structure VenueAccount where
  openOrders : List ReconciledOrder := []
  balances : List ReconciledBalance := []
  positions : List ReconciledPosition := []
  /-- The trades of a symbol. -/
  fills : CString → List ReconciledFill := fun _ => []

/-- The rows of an account, with the trades of the symbols. -/
def VenueAccount.rows (account : VenueAccount) (symbols : List CString) : SnapshotRows where
  openOrders := account.openOrders
  balances := account.balances
  positions := account.positions
  fills := symbols.flatMap account.fills

namespace BinanceConnector

variable {lib : VenueLibrary} {map : VenueOrderMap} {replies : BinanceReplies}
  {account : VenueAccount}

/-- The symbols that trades are fetched of. -/
def tradedSymbols (lib : VenueLibrary) (map : VenueOrderMap) (replies : BinanceReplies) :
    List CString :=
  symbolsOf lib map (BinanceFuturesConnector.rowsOf lib replies.openOrders)

/-- Every request of a fetch succeeds, with a well-formed answer on the account. -/
structure Truthful (lib : VenueLibrary) (map : VenueOrderMap) (replies : BinanceReplies)
    (account : VenueAccount) : Prop where
  answered : replies.account.ok = true
  balances : ∃ json items, lib.parse replies.account.body = some json ∧
    json.member "balances" = .ok (.array items) ∧ ReadsAs (readBalance lib) items account.balances
  positions : account.positions = []
  openOrders : replies.openOrders.Lists lib (readOrder lib) account.openOrders
  fills : ∀ symbol ∈ tradedSymbols lib map replies,
    (replies.trades symbol).Lists lib (readFill lib) (account.fills symbol)

theorem delivers_fetchTrades {trades : CString → VenueReply} {symbols : List CString}
    {fills : CString → List ReconciledFill}
    (h : ∀ symbol ∈ symbols, (trades symbol).Lists lib (readFill lib) (fills symbol)) :
    (fetchTrades lib trades symbols).Delivers { fills := symbols.flatMap fills } := by
  induction symbols with
  | nil => exact FetchStep.delivers_stop
  | cons symbol symbols ih =>
    obtain ⟨hok, items, hparse, hitems⟩ := h symbol List.mem_cons_self
    have hstep : fetchTrades lib trades (symbol :: symbols) =
        (FetchStep.fills (readFill lib) items).andThen (fetchTrades lib trades symbols) := by
      funext s
      simp [fetchTrades, VenueReply.not_unavailable hok, hok, hparse]
    rw [hstep]
    exact (FetchStep.delivers_fills hitems).andThen
      (ih fun symbol hsymbol => h symbol (List.mem_cons_of_mem _ hsymbol))

/-- **A fetch of a truthful account** leaves its rows, or gives up. -/
theorem fetch_eq_ok_iff (h : Truthful lib map replies account) (s : ReconciliationSnapshot) :
    fetchReconciliationSnapshot lib map replies = .ok (.ok, s) ↔
      s.contents = account.rows (tradedSymbols lib map replies) := by
  obtain ⟨json, items, hjson, hmember, hbalances⟩ := h.balances
  obtain ⟨hok, orders, hparse, horders⟩ := h.openOrders
  have hfirst : fetchBalances lib replies.account =
      FetchStep.balances (readBalance lib) items := by
    funext s
    simp [fetchBalances, h.answered, hjson, hmember, bind, Except.bind]
  have hsymbols : symbolsOf lib map orders = tradedSymbols lib map replies := by
    simp [tradedSymbols, BinanceFuturesConnector.rowsOf, hparse, Json.items]
  have hsecond : fetchOrders lib map replies = (FetchStep.orders (readOrder lib) orders).andThen
      (fetchTrades lib replies.trades (tradedSymbols lib map replies)) := by
    funext s
    simp [fetchOrders, hok, hparse, hsymbols]
  rw [fetchReconciliationSnapshot, hfirst, hsecond]
  have hdelivers := (FetchStep.delivers_balances hbalances).andThen
    ((FetchStep.delivers_orders horders).andThen (delivers_fetchTrades h.fills))
  refine (hdelivers .empty s).trans (Eq.congr_right ?_)
  ext1 <;> simp [VenueAccount.rows, ReconciliationSnapshot.empty, ReconciliationSnapshot.contents,
    h.positions]

end BinanceConnector

namespace BinanceFuturesConnector

variable {lib : VenueLibrary} {replies : FuturesFetchReplies} {account : VenueAccount}

/-- The symbols that trades are fetched of. -/
def tradedSymbols (lib : VenueLibrary) (replies : FuturesFetchReplies) : List CString :=
  symbolsOf lib (rowsOf lib replies.openOrders) (rowsOf lib replies.positions)

@[inherit_doc BinanceConnector.Truthful]
structure Truthful (lib : VenueLibrary) (replies : FuturesFetchReplies) (account : VenueAccount) :
    Prop where
  balances : replies.balance.Lists lib (readBalance lib) account.balances
  openOrders : replies.openOrders.Lists lib (readOrder lib) account.openOrders
  positions : replies.positions.Lists lib (readPosition lib) account.positions
  fills : ∀ symbol ∈ tradedSymbols lib replies,
    (replies.trades symbol).Lists lib (readFill lib) (account.fills symbol)

/-- The rows of an answer. -/
theorem delivers_fetchRows {α : Type} {read : Json → Except ReplyFault α} {reply : VenueReply}
    {table : List α} {rows : List Json → FetchStep} {delivered : SnapshotRows}
    (h : reply.Lists lib read table)
    (hrows : ∀ items, ReadsAs read items table → (rows items).Delivers delivered) :
    (fetchRows lib reply rows).Delivers delivered := by
  obtain ⟨hok, items, hparse, hitems⟩ := h
  have hstep : fetchRows lib reply rows = rows items := by
    funext s
    simp [fetchRows, hok, hparse]
  rw [hstep]
  exact hrows items hitems

theorem delivers_fetchTrades {trades : CString → VenueReply} {symbols : List CString}
    {fills : CString → List ReconciledFill}
    (h : ∀ symbol ∈ symbols, (trades symbol).Lists lib (readFill lib) (fills symbol)) :
    (fetchTrades lib trades symbols).Delivers { fills := symbols.flatMap fills } := by
  induction symbols with
  | nil => exact FetchStep.delivers_stop
  | cons symbol symbols ih =>
    have hsymbol := h symbol List.mem_cons_self
    have hstep : fetchTrades lib trades (symbol :: symbols) =
        (fetchRows lib (trades symbol) (FetchStep.fills (readFill lib))).andThen
          (fetchTrades lib trades symbols) := by
      funext s
      simp [fetchTrades, VenueReply.not_unavailable hsymbol.ok]
    rw [hstep]
    exact (delivers_fetchRows hsymbol fun _ => FetchStep.delivers_fills).andThen
      (ih fun symbol hsymbol => h symbol (List.mem_cons_of_mem _ hsymbol))

@[inherit_doc BinanceConnector.fetch_eq_ok_iff]
theorem fetch_eq_ok_iff (h : Truthful lib replies account) (s : ReconciliationSnapshot) :
    fetchReconciliationSnapshot lib replies = .ok (.ok, s) ↔
      s.contents = account.rows (tradedSymbols lib replies) := by
  have hdelivers := (delivers_fetchRows h.balances fun _ => FetchStep.delivers_balances).andThen
    ((delivers_fetchRows h.openOrders fun _ => FetchStep.delivers_orders).andThen
      ((delivers_fetchRows h.positions fun _ => FetchStep.delivers_positions).andThen
        (delivers_fetchTrades h.fills)))
  refine (hdelivers .empty s).trans (Eq.congr_right ?_)
  ext1 <;> simp [VenueAccount.rows, ReconciliationSnapshot.empty, ReconciliationSnapshot.contents]

end BinanceFuturesConnector

/-! ## What is fetched is complete -/

/-- The fetch is OK, and has everything that is not zero, and every order and trade. -/
def FetchComplete (outcome : Except ReplyFault (ConnectorResult × ReconciliationSnapshot))
    (rows : SnapshotRows) : Prop :=
  ∃ s, outcome = .ok (.ok, s) ∧
    (∀ balance ∈ rows.balances, balance.total ≠ 0 ∨ balance.available ≠ 0 →
      balance ∈ s.balances.items) ∧
    (∀ position ∈ rows.positions, position.quantity ≠ 0 → position ∈ s.positions.items) ∧
    (∀ order ∈ rows.openOrders, order ∈ s.openOrders.items) ∧
    ∀ fill ∈ rows.fills, fill ∈ s.fills.items

theorem fetchComplete_iff {outcome : Except ReplyFault (ConnectorResult × ReconciliationSnapshot)}
    {rows : SnapshotRows} (h : ∀ s, outcome = .ok (.ok, s) ↔ s.contents = rows) :
    FetchComplete outcome rows ↔ rows.Fits := by
  constructor
  · rintro ⟨s, hs, -⟩
    exact (h s).mp hs ▸ s.fits_contents
  · intro hfits
    obtain ⟨s, rfl⟩ := ReconciliationSnapshot.exists_contents hfits
    exact ⟨s, (h s).mpr rfl, fun _ hmem _ => hmem, fun _ hmem _ => hmem, fun _ => id, fun _ => id⟩

/-- **A truthful account is fetched** exactly when its rows fit into the tables, those of the zero
balances and positions as well. -/
theorem account_complete_iff (lib : VenueLibrary) (account : VenueAccount) :
    (∀ map replies, BinanceConnector.Truthful lib map replies account →
      (FetchComplete (BinanceConnector.fetchReconciliationSnapshot lib map replies)
          (account.rows (BinanceConnector.tradedSymbols lib map replies)) ↔
        (account.rows (BinanceConnector.tradedSymbols lib map replies)).Fits)) ∧
    ∀ replies, BinanceFuturesConnector.Truthful lib replies account →
      (FetchComplete (BinanceFuturesConnector.fetchReconciliationSnapshot lib replies)
          (account.rows (BinanceFuturesConnector.tradedSymbols lib replies)) ↔
        (account.rows (BinanceFuturesConnector.tradedSymbols lib replies)).Fits) :=
  ⟨fun _ _ h => fetchComplete_iff (BinanceConnector.fetch_eq_ok_iff h),
    fun _ h => fetchComplete_iff (BinanceFuturesConnector.fetch_eq_ok_iff h)⟩

/-! ## An account of many assets -/

namespace ListedAssets

/-- The name of an asset. -/
def asset (i : ℕ) : CString := 'A' :: Nat.toDigits 10 i

/-- The element of an asset that the account has nothing of. -/
def element (i : ℕ) : Json :=
  .object [("asset".toList, .string (asset i)), ("free".toList, .string "0".toList),
    ("locked".toList, .string "0".toList)]

/-- Its text. -/
def elementText (i : ℕ) : CString :=
  "\x7b\"asset\":\"".toList ++ asset i ++ "\",\"free\":\"0\",\"locked\":\"0\"\x7d".toList

/-- The answer on an account with that many assets. -/
def answer (n : ℕ) : CString :=
  "\x7b\"balances\":[".toList ++ [','].intercalate ((List.range n).map elementText) ++
    "]\x7d".toList

/-- The parser, for such an answer and an empty list. -/
def parse (n : ℕ) (text : CString) : Option Json :=
  if text = "[]".toList then some (.array [])
  else if text = answer n then
    some (.object [("balances".toList, .array ((List.range n).map element))])
  else none

/-- A library with this parser. -/
def library (n : ℕ) : VenueLibrary where
  parse := parse n
  strtod text := if text = "0".toList then some 0 else none
  formatDecimal _ := []

/-- The replies to a fetch: the assets, and no orders. -/
def replies (n : ℕ) : BinanceReplies where
  account := ⟨200, answer n⟩
  openOrders := ⟨200, "[]".toList⟩
  trades _ := ⟨200, "[]".toList⟩

/-- The account: nothing of each asset. -/
def account (n : ℕ) : VenueAccount where
  balances := (List.range n).map fun i => ⟨strncpyBuf 16 (asset i), 0, 0⟩

theorem parse_answer (n : ℕ) : parse n (answer n) =
    some (.object [("balances".toList, .array ((List.range n).map element))]) :=
  (if_neg fun h => by cases h).trans (if_pos rfl)

theorem parse_nothing (n : ℕ) : parse n "[]".toList = some (.array []) := if_pos rfl

theorem lists_nothing {α : Type} (n : ℕ) (read : Json → Except ReplyFault α) :
    VenueReply.Lists (library n) read ⟨200, "[]".toList⟩ [] where
  ok := rfl
  body := ⟨[], parse_nothing n, .nil⟩

theorem reads_element (n i : ℕ) : BinanceConnector.readBalance (library n) (element i) =
    .ok ⟨strncpyBuf 16 (asset i), 0, 0⟩ := by
  have hfree : (element i).jsonNumber "free" (library n) = 0 := by
    simp [Json.jsonNumber, element, Json.find, library]
  have hlocked : (element i).jsonNumber "locked" (library n) = 0 := by
    simp [Json.jsonNumber, element, Json.find, library]
  have hasset : (element i).text "asset" = .ok (asset i) := rfl
  rw [BinanceConnector.readBalance, hasset, hfree, hlocked, add_zero]
  rfl

theorem truthful (n : ℕ) : BinanceConnector.Truthful (library n) [] (replies n) (account n) where
  answered := rfl
  balances := by
    refine ⟨_, (List.range n).map element, parse_answer n, rfl, ?_⟩
    exact List.forall₂_map_left_iff.mpr (List.forall₂_map_right_iff.mpr
      (List.forall₂_same.mpr fun i _ => reads_element n i))
  positions := rfl
  openOrders := lists_nothing n _
  fills _ _ := lists_nothing n _

/-- **Too many assets**, of which the account has nothing. -/
theorem zeroAssets_not_complete : ¬ FetchComplete
    (BinanceConnector.fetchReconciliationSnapshot (library 65) [] (replies 65))
    ((account 65).rows (BinanceConnector.tradedSymbols (library 65) [] (replies 65))) := by
  rw [fetchComplete_iff (BinanceConnector.fetch_eq_ok_iff (truthful 65))]
  intro h
  have hbalances := h.balances
  simp [VenueAccount.rows, account] at hbalances

/-- Few assets are fetched. -/
theorem account_complete_few : FetchComplete
    (BinanceConnector.fetchReconciliationSnapshot (library 2) [] (replies 2))
    ((account 2).rows (BinanceConnector.tradedSymbols (library 2) [] (replies 2))) :=
  (((account_complete_iff (library 2) (account 2)).1 [] (replies 2) (truthful 2))).mpr
    ⟨by decide, by simp [VenueAccount.rows, account], by decide, by decide⟩

end ListedAssets

end TradingInfrastructure
