import TradingInfrastructure.Foundations.Runs
import TradingInfrastructure.Ipc.CoreBridge

/-!
# What the reader of the ring returns

A reader and the publisher of a ring take their steps in any order. As long as the publisher is not
opened again under the reader and does not overwrite the slot that the reader is at, the reader
returns every publication with a valid top of book once and in order, except those that were
overwritten before it came to them (`RingSession.delivered_run`).

Nothing in the reader looks for the two: a publisher that starts again counts from zero, and what
it publishes up to the old sequence is never read (`RingSession.restart_hides_publication`).
-/

namespace TradingInfrastructure

open LobPublisher CoreBridge

/-! ## The clearing of the file -/

namespace LobPublisher

variable {file : LobFile}

theorem foldl_slot (i : ℕ) (stores : List (Σ f : LobField, f.Value)) :
    ∀ file : LobFile, i < file.slots.length →
      (stores.map (FileStore.slot i)).foldl LobFile.apply file =
        { file with
          slots := file.slots.set i (applyStores stores (file.slots.getD i zeroSlot)) } := by
  induction stores with
  | nil =>
    intro file hi
    rw [applyStores_nil, List.getD_eq_getElem?_getD, List.getElem?_eq_getElem hi]
    simp
  | cons store rest ih =>
    intro file hi
    rw [List.map_cons, List.foldl_cons, ih]
    · simp [LobFile.apply, Ring.write, List.getD_eq_getElem?_getD, hi]
    · simpa [LobFile.apply, Ring.write] using hi

theorem applyStores_zeroStores (slot : LobSlot) : applyStores zeroStores slot = zeroSlot := by
  rw [applyStores_eq_copyFields, copyFields_of_forall_mem]
  · intro f
    simpa [zeroStores] using mem_slotFields f
  · intro store hstore
    obtain ⟨f, -, rfl⟩ := List.mem_map.mp hstore
    rfl

theorem foldl_memsetSlots (n : ℕ) (hn : n ≤ file.slots.length) :
    (memsetSlots n).foldl LobFile.apply file =
      { file with slots := List.replicate n zeroSlot ++ file.slots.drop n } := by
  induction n with
  | zero => rfl
  | succ n ih =>
    rw [memsetSlots, List.range_succ, List.flatMap_append, List.foldl_append, ← memsetSlots,
      ih (by omega)]
    have hlength : n < (List.replicate n zeroSlot ++ file.slots.drop n).length := by
      simp
      omega
    rw [List.flatMap_singleton, foldl_slot n _ _ hlength, applyStores_zeroStores,
      List.set_append_right _ _ (by simp), List.length_replicate, Nat.sub_self,
      List.drop_eq_getElem_cons hn, List.set_cons_zero, List.replicate_succ', List.append_assoc]
    rfl

theorem foldl_magic (m : Fin 8 → Char) (l : List (Fin 8)) :
    ∀ file : LobFile, (l.map fun i => FileStore.magic i (m i)).foldl LobFile.apply file =
      { file with magic := copyFields m l file.magic } := by
  induction l with
  | nil => exact fun _ => rfl
  | cons i rest ih =>
    intro file
    rw [List.map_cons, List.foldl_cons, ih]
    rfl

/-- **`init_header` leaves an empty ring**, whatever was in the file. -/
theorem foldl_initHeader (h : file.slots.length = kCapacity) :
    initHeader.foldl LobFile.apply file = .opened := by
  have hmagic : ∀ m file, ((List.finRange 8).map fun i => FileStore.magic i (m i)).foldl
      LobFile.apply file = { file with magic := m } := by
    intro m file
    rw [foldl_magic, copyFields_of_forall_mem List.mem_finRange]
  have hslots : ∀ file : LobFile, file.slots.length = kCapacity →
      (memsetSlots kCapacity).foldl LobFile.apply file =
        { file with slots := List.replicate kCapacity zeroSlot } := by
    intro file h
    rw [foldl_memsetSlots _ h.ge, ← h, List.drop_length, List.append_nil]
  rw [initHeader, List.foldl_append, List.foldl_append, List.foldl_append, List.foldl_append,
    hmagic (fun _ => '\x00'), hslots, hmagic expectedMagic]
  · rfl
  · exact h

/-! ## The publisher -/

/-- The header of an open publisher. -/
def LobFile.Headed (file : LobFile) : Prop :=
  file.magic = expectedMagic ∧ file.slotSize = kSlotSize ∧ file.capacity = 10000

end LobPublisher

namespace RingSession

/-- What the file holds, depending on where the publisher stands. A publisher that was never opened
has left it as it was. -/
def WriterSound (s : RingSession) : Prop :=
  match s.writer with
  | .closed => s.file.Holds s.recent ∧ (s.file.Headed ∨ s.file = .zeros)
  | .idle => s.file.Holds s.recent ∧ s.file.Headed
  | .publishing call => s.file.HoldsBut call s.recent ∧ s.file.Headed
  | .opening left => s.recent = [] ∧ (∀ store ∈ left, store ∈ initHeader) ∧
      (s.file.capacity = 0 ∨ s.file.capacity = 10000) ∧ left.foldl LobFile.apply s.file = .opened

variable {s : RingSession} {c : WriterCall}

theorem writerSound_start : start.WriterSound := ⟨Ring.holds_opened, .inr rfl⟩

theorem capacity_of_mem_initHeader {n : UInt32} (h : FileStore.capacity n ∈ initHeader) :
    n = 0 ∨ n = 10000 := by
  simp [initHeader, memsetSlots] at h
  exact h

theorem writeSeq_of_mem_initHeader {n : UInt64} (h : FileStore.writeSeq n ∈ initHeader) :
    n = 0 := by
  simp [initHeader, memsetSlots] at h
  exact h

/-- **A step of the publisher.** -/
theorem WriterSound.step (h : s.WriterSound)
    (hfits : ∀ call, s.writer = .publishing call → call.remaining = [] →
      call.seq.toNat + 1 < 2 ^ 64) : (s.writerStep c).WriterSound := by
  rw [WriterSound] at h
  obtain ⟨hw, -, hstep⟩ | ⟨w, hw, hstep⟩ | ⟨u, hw, hstep⟩ |
    ⟨call, store, remaining, hw, hremaining, hstep⟩ | ⟨call, hw, hremaining, hstep⟩ |
    ⟨store, left, hw, hstep⟩ | ⟨hw, hstep⟩ := s.writerStep_cases c
  · rw [hw] at h
    rw [hstep]
    obtain ⟨hring, hheader⟩ := h
    refine ⟨rfl, fun _ => id, ?_, foldl_initHeader hring.cells.length⟩
    obtain hheader | hzeros := hheader
    · exact .inr hheader.2.2
    · exact .inl (congrArg LobFile.capacity hzeros)
  · rw [hstep]
    obtain ⟨hw, rfl⟩ | ⟨hw, rfl | rfl⟩ := hw
    · rw [hw] at h
      exact h
    · rw [hw] at h
      exact ⟨h.1, .inl h.2⟩
    · rw [hw] at h
      exact h
  · rw [hw] at h
    rw [hstep]
    exact ⟨h.1.load u, h.2⟩
  · rw [hw] at h
    rw [hstep]
    exact ⟨h.1.write hremaining, h.2⟩
  · rw [hw] at h
    rw [hstep]
    refine ⟨h.1.return_ hremaining ?_, h.2⟩
    rw [← h.1.seq, ← h.1.loaded]
    exact hfits call hw hremaining
  · rw [hw] at h
    rw [hstep]
    obtain ⟨hrecent, hinit, hcapacity, hleft⟩ := h
    obtain ⟨hstore, hinit⟩ := List.forall_mem_cons.mp hinit
    refine ⟨hrecent, hinit, ?_, hleft⟩
    cases store with
    | capacity n => exact capacity_of_mem_initHeader hstore
    | _ => exact hcapacity
  · rw [hw] at h
    rw [hstep]
    obtain ⟨hrecent, -, -, hfile⟩ := h
    change s.file = .opened at hfile
    rw [WriterSound, hrecent, hfile]
    exact ⟨Ring.holds_opened, rfl, rfl, rfl⟩

/-! ## Loads -/

/-- The sequence is the number of the publications, unless it is about to be cleared. -/
theorem WriterSound.writeSeq (h : s.WriterSound)
    (hclear : ∀ left, s.writer = .opening left → s.file.writeSeq = 0) :
    s.file.writeSeq.toNat = s.recent.length := by
  rw [WriterSound] at h
  cases hw : s.writer with
  | closed =>
    rw [hw] at h
    exact h.1.seq
  | idle =>
    rw [hw] at h
    exact h.1.seq
  | publishing call =>
    rw [hw] at h
    exact h.1.seq
  | opening left =>
    rw [hw] at h
    rw [hclear left hw, h.1]
    rfl

theorem WriterSound.length_slots (h : s.WriterSound) (hw : s.writer = .closed) :
    s.file.slots.length = kCapacity := by
  rw [WriterSound, hw] at h
  exact h.1.cells.length

theorem WriterSound.capacity (h : s.WriterSound) :
    s.file.capacity = 0 ∨ s.file.capacity = 10000 := by
  rw [WriterSound] at h
  cases hw : s.writer with
  | closed =>
    rw [hw] at h
    exact h.2.elim (fun hheader => .inr hheader.2.2) fun hzeros => .inl (hzeros ▸ rfl)
  | idle =>
    rw [hw] at h
    exact .inr h.2.2.2
  | publishing call =>
    rw [hw] at h
    exact .inr h.2.2.2
  | opening left =>
    rw [hw] at h
    exact h.2.2.1

/-- Once something has been published, the header is there. -/
theorem WriterSound.headed (h : s.WriterSound) (hrecent : s.recent ≠ []) : s.file.Headed := by
  rw [WriterSound] at h
  cases hw : s.writer with
  | closed =>
    rw [hw] at h
    refine h.2.resolve_right fun hzeros => hrecent (List.length_eq_zero_iff.mp ?_)
    rw [← h.1.seq, hzeros]
    rfl
  | idle =>
    rw [hw] at h
    exact h.2
  | publishing call =>
    rw [hw] at h
    exact h.2
  | opening left =>
    rw [hw] at h
    exact absurd h.1 hrecent

theorem header_of_headed {file : LobFile} (h : file.Headed) {f : HeaderField}
    (hf : f ≠ .writeSeq) : file.header f = LobFile.opened.header f := by
  cases f with
  | magic i => exact congrFun h.1 i
  | slotSize => exact h.2.1
  | capacity => exact h.2.2
  | writeSeq => exact absurd rfl hf

/-- **A slot that is not being overwritten** holds its publication. -/
theorem WriterSound.slot (h : s.WriterSound) {seq : ℕ} {u : LobUpdate}
    (hu : s.recent[seq]? = some u) (hbegun : s.begunSeq ≤ seq + kCapacity) :
    s.file.slots.getD (seq % kCapacity) zeroSlot = slotOf u := by
  have hslot : (s.recent.map slotOf)[seq]? = some (slotOf u) := by rw [List.getElem?_map, hu]; rfl
  rw [WriterSound] at h
  rw [begunSeq] at hbegun
  rw [List.getD_eq_getElem?_getD]
  cases hw : s.writer with
  | closed =>
    rw [hw] at h hbegun
    rw [h.1.cells.recent seq _ hslot (by rw [List.length_map, ← h.1.seq]; exact hbegun)]
    rfl
  | idle =>
    rw [hw] at h hbegun
    rw [h.1.cells.recent seq _ hslot (by rw [List.length_map, ← h.1.seq]; exact hbegun)]
    rfl
  | publishing call =>
    rw [hw] at h hbegun
    obtain ⟨old, hcells⟩ := h.1.cells
    have hlt : seq < s.recent.length := (List.getElem?_eq_some_iff.mp hu).1
    have hle : s.file.writeSeq.toNat + 1 ≤ seq + kCapacity := hbegun
    have hother : call.index ≠ seq % kCapacity := by
      rw [Call.index, h.1.loaded, h.1.seq]
      rw [h.1.seq] at hle
      simp only [kCapacity] at hle ⊢
      omega
    have hcell := hcells.recent seq _ hslot (by rw [List.length_map, ← h.1.seq]; omega)
    rw [List.getElem?_set_ne hother] at hcell
    rw [hcell]
    rfl
  | opening left =>
    rw [hw] at h
    rw [h.1] at hu
    cases hu

/-! ## Rows -/

/-- The rows are those of publications below `upto`, in order and without duplicates, and no valid
one is missing unless so many have followed it. -/
def Covers (decode : CString → String) (published : List LobUpdate) (opened upto past : ℕ)
    (rows : List Tick) : Prop :=
  ∃ picks : List ℕ, picks.Pairwise (· < ·) ∧ (∀ i ∈ picks, i < upto) ∧
    rows.map some = picks.map (tickAt decode published) ∧
    ∀ i, opened ≤ i → i < upto → (tickAt decode published i).isSome →
      i ∈ picks ∨ i + kCapacity < past

variable {decode : CString → String} {published : List LobUpdate} {opened upto past : ℕ}
  {rows : List Tick}

theorem covers_nil : Covers decode published opened opened past [] :=
  ⟨[], .nil, by simp, rfl, fun i hi hi' => absurd hi' (Nat.not_lt_of_le hi)⟩

theorem tickAt_append {i : ℕ} (hi : i < published.length) (more : List LobUpdate) :
    tickAt decode (published ++ more) i = tickAt decode published i := by
  rw [tickAt, tickAt, List.getElem?_append_left hi]

theorem Covers.append (h : Covers decode published opened upto past rows)
    (hupto : upto ≤ published.length) (more : List LobUpdate) :
    Covers decode (published ++ more) opened upto past rows := by
  obtain ⟨picks, hsorted, hbelow, hrows, hcomplete⟩ := h
  refine ⟨picks, hsorted, hbelow, hrows.trans (List.map_congr_left fun i hi => ?_), ?_⟩
  · exact (tickAt_append ((hbelow i hi).trans_le hupto) more).symm
  · intro i hi hi' htick
    rw [tickAt_append (hi'.trans_le hupto)] at htick
    exact hcomplete i hi hi' htick

/-- Publications that are left out because so many have followed them. -/
theorem Covers.skip (h : Covers decode published opened upto past rows) {upto' past' : ℕ}
    (hupto : upto ≤ upto') (hpast : past ≤ past')
    (hskip : ∀ i, upto ≤ i → i < upto' → i + kCapacity < past') :
    Covers decode published opened upto' past' rows := by
  obtain ⟨picks, hsorted, hbelow, hrows, hcomplete⟩ := h
  refine ⟨picks, hsorted, fun i hi => (hbelow i hi).trans_le hupto, hrows, ?_⟩
  intro i hi hi' htick
  rcases Nat.lt_or_ge i upto with hlt | hge
  · exact (hcomplete i hi hlt htick).imp_right fun hpassed => hpassed.trans_le hpast
  · exact .inr (hskip i hge hi')

/-- The next publication. -/
theorem Covers.next (h : Covers decode published opened upto past rows) :
    Covers decode published opened (upto + 1) past
      (rows ++ (tickAt decode published upto).toList) := by
  obtain ⟨picks, hsorted, hbelow, hrows, hcomplete⟩ := h
  cases htick : tickAt decode published upto with
  | none =>
    refine ⟨picks, hsorted, fun i hi => (hbelow i hi).trans (Nat.lt_succ_self _), ?_, ?_⟩
    · rw [Option.toList_none, List.append_nil]
      exact hrows
    · intro i hi hi' hsome
      rcases Nat.lt_succ_iff_lt_or_eq.mp hi' with hlt | rfl
      · exact hcomplete i hi hlt hsome
      · rw [htick] at hsome
        cases hsome
  | some row =>
    refine ⟨picks ++ [upto], ?_, ?_, ?_, ?_⟩
    · refine List.pairwise_append.mpr ⟨hsorted, List.pairwise_singleton .., fun i hi j hj => ?_⟩
      rw [List.mem_singleton.mp hj]
      exact hbelow i hi
    · intro i hi
      rcases List.mem_append.mp hi with hi | hi
      · exact (hbelow i hi).trans (Nat.lt_succ_self _)
      · rw [List.mem_singleton.mp hi]
        exact Nat.lt_succ_self _
    · rw [List.map_append, List.map_append, hrows, List.map_singleton, htick]
      rfl
    · intro i hi hi' hsome
      rcases Nat.lt_succ_iff_lt_or_eq.mp hi' with hlt | rfl
      · exact (hcomplete i hi hlt hsome).imp_left (List.mem_append_left _)
      · exact .inl (by simp)

/-! ## The reader -/

/-- A reader that has not opened the file. -/
def Unopened (log : ReadLog) : Prop := log.returned = [] ∧ log.seen = 0

/-- A reader that has returned what stands before a sequence. -/
structure Caught (decode : CString → String) (earlier recent : List LobUpdate) (log : ReadLog)
    (lastSeq : ℕ) : Prop where
  covers : Covers decode (earlier ++ recent) log.opened (earlier.length + lastSeq)
    (earlier.length + lastSeq) log.returned
  opened : earlier.length ≤ log.opened
  last : lastSeq ≤ recent.length
  seen : log.seen ≤ log.opened ∨
    log.seen ≤ earlier.length + lastSeq ∧ earlier.length + lastSeq ≤ log.past

/-- The sequence that the reader has loaded. -/
structure Loaded (earlier recent : List LobUpdate) (log : ReadLog) (seq : ℕ) : Prop where
  begun : log.begun ≤ log.loaded
  count : log.loaded = earlier.length + seq
  last : seq ≤ recent.length

/-- **What the reader knows**, depending on where it stands. -/
def ReaderSound (decode : CString → String) (reader : CoreBridge) (earlier recent : List LobUpdate)
    (log : ReadLog) : Prop :=
  match reader.lastSeq, reader.phase with
  | none, .idle => Unopened log
  | none, .opening header left =>
    Unopened log ∧ log.begun ≤ (earlier ++ recent).length ∧
      (.writeSeq ∉ left → Loaded earlier recent log (header .writeSeq).toNat)
  | some lastSeq, .idle => Caught decode earlier recent log lastSeq
  | some lastSeq, .checking header left =>
    Caught decode earlier recent log lastSeq ∧ log.begun ≤ (earlier ++ recent).length ∧
      (earlier.length < log.begun →
        ∀ f, f ∉ left → f ≠ .writeSeq → header f = LobFile.opened.header f) ∧
      (.capacity ∉ left → header .capacity = 0 ∨ header .capacity = 10000) ∧
      (.writeSeq ∉ left → Loaded earlier recent log (header .writeSeq).toNat ∧
        lastSeq ≤ (header .writeSeq).toNat)
  | some lastSeq, .reading seq stop capacity slot left rows =>
    Caught decode earlier recent log lastSeq ∧ Loaded earlier recent log stop ∧
      capacity = kCapacity ∧ seq < stop ∧
      Covers decode (earlier ++ recent) log.opened (earlier.length + seq) (earlier.length + stop)
        (log.returned ++ rows) ∧
      ∀ u, recent[seq]? = some u → ∀ f, f ∉ left → slot f = slotOf u f
  | none, .checking _ _ => False
  | none, .reading _ _ _ _ _ _ => False
  | some _, .opening _ _ => False

variable {reader : CoreBridge} {earlier recent : List LobUpdate} {log : ReadLog} {lastSeq seq : ℕ}

theorem Caught.publish (h : Caught decode earlier recent log lastSeq) (u : LobUpdate) :
    Caught decode earlier (recent ++ [u]) log lastSeq where
  covers := by
    rw [← List.append_assoc]
    refine h.covers.append ?_ _
    rw [List.length_append]
    exact Nat.add_le_add_left h.last _
  opened := h.opened
  last := h.last.trans (by simp)
  seen := h.seen

theorem Loaded.publish (h : Loaded earlier recent log seq) (u : LobUpdate) :
    Loaded earlier (recent ++ [u]) log seq :=
  ⟨h.begun, h.count, h.last.trans (by simp)⟩

/-- **The reader while a publication completes.** -/
theorem ReaderSound.publish (h : ReaderSound decode reader earlier recent log) (u : LobUpdate) :
    ReaderSound decode reader earlier (recent ++ [u]) log := by
  have hlength : (earlier ++ recent).length ≤ (earlier ++ (recent ++ [u])).length := by simp
  obtain ⟨lastSeq, phase⟩ := reader
  cases lastSeq with
  | none =>
    cases phase with
    | idle => exact h
    | opening header left =>
      exact ⟨h.1, h.2.1.trans hlength, fun hleft => (h.2.2 hleft).publish u⟩
    | checking header left => exact h
    | reading seq stop capacity slot left rows => exact h
  | some lastSeq =>
    cases phase with
    | idle => exact Caught.publish h u
    | opening header left => exact h
    | checking header left =>
      obtain ⟨hcaught, hbegun, hheader, hcapacity, hseq⟩ := h
      exact ⟨hcaught.publish u, hbegun.trans hlength, hheader, hcapacity,
        fun hleft => ⟨(hseq hleft).1.publish u, (hseq hleft).2⟩⟩
    | reading seq stop capacity slot left rows =>
      obtain ⟨hcaught, hloaded, hcapacity, hlt, hcovers, hslot⟩ := h
      refine ⟨hcaught.publish u, hloaded.publish u, hcapacity, hlt, ?_, fun v hv => hslot v ?_⟩
      · rw [← List.append_assoc]
        refine hcovers.append ?_ _
        rw [List.length_append]
        exact Nat.add_le_add_left (hlt.le.trans hloaded.last) _
      · exact (List.getElem?_append_left (hlt.trans_le hloaded.last)).symm.trans hv

/-- **The reader while the publisher is opened again.** -/
theorem ReaderSound.reopen (h : ReaderSound decode reader earlier recent log)
    (hholds : Holds reader → recent = []) :
    ReaderSound decode reader (earlier ++ recent) [] log := by
  by_cases hrecent : recent = []
  · rw [hrecent, List.append_nil]
    exact hrecent ▸ h
  · have hnot : ¬ Holds reader := fun hh => hrecent (hholds hh)
    obtain ⟨lastSeq, phase⟩ := reader
    cases lastSeq with
    | some lastSeq => exact absurd trivial hnot
    | none =>
      cases phase with
      | idle => exact h
      | opening header left =>
        refine ⟨h.1, ?_, fun hleft => absurd hleft hnot⟩
        rw [List.append_nil]
        exact h.2.1
      | checking header left => exact h
      | reading seq stop capacity slot left rows => exact h

theorem length_published : s.published.length = s.earlier.length + s.recent.length :=
  List.length_append

/-! ## The invariant -/

/-- The invariant of a file, its publisher and a reader. -/
structure Sound (decode : CString → String) (s : RingSession) : Prop where
  writer : s.WriterSound
  reader : ReaderSound decode s.reader s.earlier s.recent s.log
  clear : Holds s.reader → ∀ left, s.writer = .opening left → s.file.writeSeq = 0

theorem sound_start : start.Sound decode where
  writer := writerSound_start
  reader := ⟨rfl, rfl⟩
  clear := fun _ left h => by cases h

/-- **A step of the publisher.** -/
theorem Sound.writerStep (h : s.Sound decode) (hok : s.Undisturbed (.writer c)) :
    (s.writerStep c).Sound decode := by
  rw [Undisturbed] at hok
  have hwriter : (s.writerStep c).WriterSound :=
    h.writer.step fun call hw => (writerUndisturbing_publishing hw).mp hok
  obtain ⟨hw, hc, hstep⟩ | ⟨w, hw, hstep⟩ | ⟨u, hw, hstep⟩ |
    ⟨call, store, remaining, hw, hremaining, hstep⟩ | ⟨call, hw, hremaining, hstep⟩ |
    ⟨store, left, hw, hstep⟩ | ⟨hw, hstep⟩ := s.writerStep_cases c
  · rw [hstep] at hwriter ⊢
    subst hc
    have hok := (writerUndisturbing_open hw).mp hok
    refine ⟨hwriter, h.reader.reopen fun hholds => List.length_eq_zero_iff.mp ?_,
      fun hholds _ _ => hok hholds⟩
    rw [← h.writer.writeSeq (h.clear hholds), hok hholds]
    rfl
  · rw [hstep] at hwriter ⊢
    refine ⟨hwriter, h.reader, fun _ left hleft => ?_⟩
    obtain ⟨-, rfl⟩ | ⟨-, rfl | rfl⟩ := hw <;> cases hleft
  · rw [hstep] at hwriter ⊢
    exact ⟨hwriter, h.reader, fun _ left hleft => by cases hleft⟩
  · rw [hstep] at hwriter ⊢
    exact ⟨hwriter, h.reader, fun _ left hleft => by cases hleft⟩
  · rw [hstep] at hwriter ⊢
    exact ⟨hwriter, h.reader.publish call.update, fun _ left hleft => by cases hleft⟩
  · rw [hstep] at hwriter ⊢
    refine ⟨hwriter, h.reader, fun hholds _ _ => ?_⟩
    have hzero := h.clear hholds _ hw
    have hsound := h.writer
    rw [WriterSound, hw] at hsound
    cases store with
    | writeSeq n => exact writeSeq_of_mem_initHeader (hsound.2.1 _ List.mem_cons_self)
    | _ => exact hzero
  · rw [hstep] at hwriter ⊢
    exact ⟨hwriter, h.reader, fun _ left hleft => by cases hleft⟩

theorem holds_of_open (h : reader.lastSeq = some lastSeq) : Holds reader := by
  obtain ⟨_, phase⟩ := reader
  cases h
  trivial

theorem holds_opening {header : LobHeader} {left : List HeaderField} (h : reader.lastSeq = none)
    (hphase : reader.phase = .opening header left) : Holds reader ↔ .writeSeq ∉ left := by
  obtain ⟨_, _⟩ := reader
  cases h
  cases hphase
  rfl

/-- The reader goes on to a sequence, or returns. -/
theorem Sound.readOn (h : s.Sound decode) {stop : ℕ} (hlast : s.reader.lastSeq = some lastSeq)
    (hcaught : Caught decode s.earlier s.recent s.log lastSeq)
    (hloaded : Loaded s.earlier s.recent s.log stop) (hle : seq ≤ stop)
    (hcovers : Covers decode s.published s.log.opened (s.earlier.length + seq)
      (s.earlier.length + stop) (s.log.returned ++ rows)) :
    (s.readOn seq stop kCapacity rows).Sound decode := by
  have hholds := holds_of_open hlast
  rw [RingSession.readOn]
  split_ifs with hlt
  · refine ⟨h.writer, ?_, fun _ => h.clear hholds⟩
    rw [ReaderSound, hlast]
    exact ⟨hcaught, hloaded, rfl, hlt, hcovers, fun u _ f hf => absurd (mem_slotFields f) hf⟩
  · refine ⟨h.writer, ?_, fun _ => h.clear hholds⟩
    obtain rfl : seq = stop := hle.antisymm (Nat.le_of_not_lt hlt)
    refine ⟨hcovers, hcaught.opened, hloaded.last, .inr ⟨?_, hloaded.count.ge⟩⟩
    exact hloaded.begun.trans hloaded.count.le

/-- What a load of the header tells. -/
theorem Sound.load (h : s.Sound decode) {f : HeaderField} {left : List HeaderField}
    {header : LobHeader} (hbegun : s.log.begun ≤ s.published.length)
    (hclear : f = .writeSeq → ∀ left, s.writer = .opening left → s.file.writeSeq = 0)
    (hseq : .writeSeq ∉ f :: left →
      Loaded s.earlier s.recent s.log (header .writeSeq).toNat) (hleft : .writeSeq ∉ left) :
    Loaded s.earlier s.recent (s.noteLoad f)
      (copyField s.file.header header f .writeSeq).toNat := by
  rw [noteLoad, copyField]
  split_ifs with hf
  · subst hf
    have hcount := h.writer.writeSeq (hclear rfl)
    have hcopy : Function.update header .writeSeq (s.file.header .writeSeq) .writeSeq =
        s.file.writeSeq := Function.update_self ..
    rw [hcopy, hcount]
    exact ⟨hbegun, length_published, le_rfl⟩
  · rw [Function.update_of_ne (Ne.symm hf)]
    refine hseq fun hmem => ?_
    rcases List.mem_cons.mp hmem with hmem | hmem
    · exact hf hmem.symm
    · exact hleft hmem

theorem noteLoad_begun (f : HeaderField) : (s.noteLoad f).begun = s.log.begun := by
  rw [noteLoad]
  split_ifs <;> rfl

theorem Caught.noteLoad (h : Caught decode s.earlier s.recent s.log lastSeq) (f : HeaderField) :
    Caught decode s.earlier s.recent (s.noteLoad f) lastSeq := by
  rw [RingSession.noteLoad]
  split_ifs
  · exact ⟨h.covers, h.opened, h.last, h.seen⟩
  · exact h

theorem Unopened.noteLoad (h : Unopened s.log) (f : HeaderField) : Unopened (s.noteLoad f) := by
  rw [RingSession.noteLoad]
  split_ifs <;> exact h

theorem recognised_of_eq_opened {header : LobHeader}
    (h : ∀ f, f ≠ .writeSeq → header f = LobFile.opened.header f) : Recognised header := by
  refine ⟨fun i => h (.magic i) (by simp), h .slotSize (by simp), ?_⟩
  rw [h .capacity (by simp)]
  decide

/-- A call of `read_new_ticks` begins. -/
theorem Sound.begin (h : s.Sound decode) (hphase : s.reader.phase = .idle) :
    (s.readerStep decode).Sound decode := by
  have hreader := h.reader
  cases hlast : s.reader.lastSeq with
  | none =>
    rw [ReaderSound, hlast, hphase] at hreader
    rw [RingSession.readerStep, hlast, hphase]
    exact ⟨h.writer, ⟨hreader, le_rfl, fun hleft => absurd (mem_headerFields _) hleft⟩,
      fun hholds => absurd (mem_headerFields _) hholds⟩
  | some lastSeq =>
    rw [ReaderSound, hlast, hphase] at hreader
    rw [RingSession.readerStep, hlast, hphase]
    exact ⟨h.writer, ⟨⟨hreader.covers, hreader.opened, hreader.last, hreader.seen⟩, le_rfl,
      fun _ f hf => absurd (mem_headerFields f) hf, fun hf => absurd (mem_headerFields _) hf,
      fun hf => absurd (mem_headerFields _) hf⟩, fun _ => h.clear (holds_of_open hlast)⟩

/-- A step of `open`. -/
theorem Sound.opening (h : s.Sound decode) (hok : s.Undisturbed .reader) {header : LobHeader}
    {left : List HeaderField} (hphase : s.reader.phase = .opening header left) :
    (s.readerStep decode).Sound decode := by
  have hreader := h.reader
  cases hlast : s.reader.lastSeq with
  | some lastSeq =>
    rw [ReaderSound, hlast, hphase] at hreader
    exact hreader.elim
  | none =>
    rw [ReaderSound, hlast, hphase] at hreader
    obtain ⟨hunopened, hbegun, hseq⟩ := hreader
    rw [Undisturbed, ReaderUndisturbed, hphase] at hok
    have hholds := holds_opening hlast hphase
    cases left with
    | cons f left =>
      have hclear : f = .writeSeq → ∀ left, s.writer = .opening left → s.file.writeSeq = 0 :=
        fun hf stores hw => hok hf (by rw [hw]; trivial)
      rw [RingSession.readerStep, hlast, hphase]
      refine ⟨h.writer, ⟨hunopened.noteLoad f, (noteLoad_begun f).trans_le hbegun,
        h.load hbegun hclear hseq⟩, fun hleft => ?_⟩
      by_cases hf : f = .writeSeq
      · exact hclear hf
      · exact h.clear (hholds.mpr (by simp [Ne.symm hf, show .writeSeq ∉ left from hleft]))
    | nil =>
      rw [RingSession.readerStep, hlast, hphase]
      dsimp only
      split_ifs with hrecognised
      · have hloaded := hseq List.not_mem_nil
        refine ⟨h.writer, ⟨⟨?_, ?_, hloaded.last, ?_⟩, hbegun,
          fun _ f hf => absurd (mem_headerFields f) hf, fun hf => absurd (mem_headerFields _) hf,
          fun hf => absurd (mem_headerFields _) hf⟩,
          fun _ => h.clear (hholds.mpr List.not_mem_nil)⟩
        · change Covers decode s.published s.log.loaded _ _ s.log.returned
          rw [hunopened.1, ← hloaded.count]
          exact covers_nil
        · exact (Nat.le_add_right ..).trans_eq hloaded.count.symm
        · exact .inl (hunopened.2.trans_le (Nat.zero_le _))
      · exact ⟨h.writer, hunopened, fun hidle => hidle.elim⟩

/-- A step at the header. -/
theorem Sound.checking (h : s.Sound decode) {header : LobHeader} {left : List HeaderField}
    (hphase : s.reader.phase = .checking header left) : (s.readerStep decode).Sound decode := by
  have hreader := h.reader
  cases hlast : s.reader.lastSeq with
  | none =>
    rw [ReaderSound, hlast, hphase] at hreader
    exact hreader.elim
  | some lastSeq =>
    rw [ReaderSound, hlast, hphase] at hreader
    obtain ⟨hcaught, hbegun, hheader, hcapacity, hseq⟩ := hreader
    have hholds := holds_of_open hlast
    cases left with
    | cons f left =>
      rw [RingSession.readerStep, hlast, hphase]
      refine ⟨h.writer, ⟨hcaught.noteLoad f, (noteLoad_begun f).trans_le hbegun,
        fun hnew g hg hne => ?_, fun hleft => ?_, fun hleft => ⟨?_, ?_⟩⟩, fun _ => h.clear hholds⟩
      · have hnew : s.earlier.length < s.log.begun := (noteLoad_begun f).symm ▸ hnew
        rcases copyField_cases hg with heq | ⟨hg, heq⟩
        · have hrecent : s.recent ≠ [] := by
            intro hnil
            rw [hnil, List.append_nil] at hbegun
            exact absurd hbegun (Nat.not_le_of_lt hnew)
          exact heq.trans (header_of_headed (h.writer.headed hrecent) hne)
        · exact heq.trans (hheader hnew g hg hne)
      · rcases copyField_cases hleft with heq | ⟨hleft, heq⟩
        · rw [heq]
          exact h.writer.capacity
        · rw [heq]
          exact hcapacity hleft
      · exact h.load hbegun (fun _ => h.clear hholds) (fun hleft => (hseq hleft).1) hleft
      · rcases copyField_cases hleft with heq | ⟨hleft, heq⟩
        · rw [heq]
          exact hcaught.last.trans_eq (h.writer.writeSeq (h.clear hholds)).symm
        · rw [heq]
          exact (hseq hleft).2
    | nil =>
      rw [RingSession.readerStep, hlast, hphase]
      dsimp only
      obtain ⟨hloaded, hle⟩ := hseq List.not_mem_nil
      split_ifs with hrecognised
      · have hkCapacity : (header .capacity).toNat = kCapacity := by
          rw [(hcapacity List.not_mem_nil).resolve_left hrecognised.2.2]
          rfl
        rw [hkCapacity, Option.getD_some]
        refine h.readOn hlast hcaught hloaded (max_le hle (Nat.sub_le ..)) ?_
        rw [List.append_nil]
        exact hcaught.covers.skip (by omega) (by omega) (by omega)
      · -- a call that finds no header began before anything was published
        have hold : s.log.begun ≤ s.earlier.length := by
          by_contra hnew
          exact hrecognised (recognised_of_eq_opened fun f hf =>
            hheader (Nat.lt_of_not_le hnew) f List.not_mem_nil hf)
        refine ⟨h.writer, ⟨?_, hcaught.opened, hcaught.last, .inl (hold.trans hcaught.opened)⟩,
          fun _ => h.clear hholds⟩
        change Covers decode _ _ _ _ (s.log.returned ++ [])
        rw [List.append_nil]
        exact hcaught.covers

/-- A step at a slot. -/
theorem Sound.reading (h : s.Sound decode) (hok : s.Undisturbed .reader) {stop capacity : ℕ}
    {slot : LobSlot} {left : List LobField}
    (hphase : s.reader.phase = .reading seq stop capacity slot left rows) :
    (s.readerStep decode).Sound decode := by
  have hreader := h.reader
  cases hlast : s.reader.lastSeq with
  | none =>
    rw [ReaderSound, hlast, hphase] at hreader
    exact hreader.elim
  | some lastSeq =>
    rw [ReaderSound, hlast, hphase] at hreader
    obtain ⟨hcaught, hloaded, rfl, hlt, hcovers, hslot⟩ := hreader
    rw [Undisturbed, ReaderUndisturbed, hphase] at hok
    have hholds := holds_of_open hlast
    cases left with
    | cons f left =>
      rw [RingSession.readerStep, hlast, hphase]
      refine ⟨h.writer, ⟨hcaught, hloaded, rfl, hlt, hcovers, fun u hu g hg => ?_⟩,
        fun _ => h.clear hholds⟩
      rcases copyField_cases hg with heq | ⟨hg, heq⟩
      · rw [heq, h.writer.slot hu hok]
      · exact heq.trans (hslot u hu g hg)
    | nil =>
      rw [RingSession.readerStep, hlast, hphase]
      dsimp only
      obtain ⟨u, hu⟩ : ∃ u, s.recent[seq]? = some u :=
        ⟨_, List.getElem?_eq_getElem (hlt.trans_le hloaded.last)⟩
      have hwhole : slot = slotOf u := funext fun f => hslot u hu f List.not_mem_nil
      have htick : tickAt decode s.published (s.earlier.length + seq) = readRow decode slot := by
        rw [tickAt, published, List.getElem?_append_right (Nat.le_add_right ..),
          Nat.add_sub_cancel_left, hu, hwhole]
        rfl
      refine h.readOn hlast hcaught hloaded hlt ?_
      rw [← List.append_assoc, ← htick]
      exact hcovers.next

/-- **A step of the reader.** -/
theorem Sound.readerStep (h : s.Sound decode) (hok : s.Undisturbed .reader) :
    (s.readerStep decode).Sound decode := by
  cases hphase : s.reader.phase with
  | idle => exact h.begin hphase
  | opening header left => exact h.opening hok hphase
  | checking header left => exact h.checking hphase
  | reading seq stop capacity slot left rows => exact h.reading hok hphase

theorem Caught.delivered (h : Caught decode s.earlier s.recent s.log lastSeq) :
    s.Delivered decode := by
  obtain ⟨picks, hsorted, -, hrows, hcomplete⟩ := h.covers
  refine ⟨picks, hsorted, hrows, fun i hi hseen htick => ?_⟩
  obtain hnone | ⟨hseen', hpast⟩ := h.seen
  · exact absurd hi (Nat.not_le_of_lt (hseen.trans_le hnone))
  · exact (hcomplete i hi (hseen.trans_le hseen') htick).imp_right (·.trans_le hpast)

theorem Unopened.delivered (h : Unopened s.log) : s.Delivered decode := by
  refine ⟨[], .nil, by rw [h.1]; rfl, fun i _ hseen => ?_⟩
  rw [h.2] at hseen
  exact absurd hseen (Nat.not_lt_zero i)

theorem Sound.delivered (h : s.Sound decode) : s.Delivered decode := by
  have hreader := h.reader
  rw [ReaderSound] at hreader
  cases hlast : s.reader.lastSeq with
  | none =>
    cases hphase : s.reader.phase with
    | idle =>
      rw [hlast, hphase] at hreader
      exact Unopened.delivered hreader
    | opening header left =>
      rw [hlast, hphase] at hreader
      exact hreader.1.delivered
    | checking header left =>
      rw [hlast, hphase] at hreader
      exact hreader.elim
    | reading seq stop capacity slot left rows =>
      rw [hlast, hphase] at hreader
      exact hreader.elim
  | some lastSeq =>
    cases hphase : s.reader.phase with
    | idle =>
      rw [hlast, hphase] at hreader
      exact Caught.delivered hreader
    | opening header left =>
      rw [hlast, hphase] at hreader
      exact hreader.elim
    | checking header left =>
      rw [hlast, hphase] at hreader
      exact hreader.1.delivered
    | reading seq stop capacity slot left rows =>
      rw [hlast, hphase] at hreader
      exact hreader.1.delivered

/-- Along every undisturbed run. -/
theorem sound_run (events : List Event) (h : AllSteps (step decode) Undisturbed start events) :
    (events.foldl (step decode) start).Sound decode := by
  refine AllSteps.foldl (P := Sound decode) (fun s e hs he => ?_) sound_start h
  cases e with
  | writer c => exact hs.writerStep he
  | reader => exact hs.readerStep he

/-- **Reading of a ring**: whatever the order of the steps of the publisher and of the reader, the
reader delivers as long as every step is undisturbed. -/
theorem delivered_run (decode : CString → String) (events : List Event)
    (h : AllSteps (step decode) Undisturbed start events) :
    (events.foldl (step decode) start).Delivered decode := (sound_run events h).delivered

/-! ## Runs -/

theorem foldl_opening (c : WriterCall) (left : List FileStore) :
    ∀ s : RingSession, s.writer = .opening left →
      (List.replicate (left.length + 1) (Event.writer c)).foldl (step decode) s =
        { s with file := left.foldl LobFile.apply s.file, writer := .idle } := by
  induction left with
  | nil => exact fun s hw => writerStep_opening_nil hw
  | cons store left ih =>
    intro s hw
    rw [List.length_cons, List.replicate_succ, List.foldl_cons, step, writerStep_opening_cons hw,
      ih _ rfl]
    rfl

theorem allSteps_opening (c : WriterCall) (left : List FileStore) :
    ∀ s : RingSession, s.writer = .opening left →
      AllSteps (step decode) Undisturbed s
        (List.replicate (left.length + 1) (Event.writer c)) := by
  induction left with
  | nil => exact fun s hw => ⟨writerUndisturbing_opening hw, trivial⟩
  | cons store left ih =>
    intro s hw
    rw [List.length_cons, List.replicate_succ, AllSteps, step, writerStep_opening_cons hw]
    exact ⟨writerUndisturbing_opening hw, ih _ rfl⟩

/-- The steps of `open`. -/
def openSteps : List Event :=
  .writer .open_ :: List.replicate (initHeader.length + 1) (.writer .open_)

/-- **A publisher opens**, while the reader rests. -/
theorem foldl_openSteps (hw : s.writer = .closed) (hslots : s.file.slots.length = kCapacity) :
    openSteps.foldl (step decode) s =
      { s with file := .opened, writer := .idle, earlier := s.published, recent := [] } := by
  rw [openSteps, List.foldl_cons, step, writerStep_open hw,
    foldl_opening .open_ initHeader _ rfl, foldl_initHeader hslots]

theorem allSteps_openSteps (hw : s.writer = .closed)
    (hholds : Holds s.reader → s.file.writeSeq = 0) :
    AllSteps (step decode) Undisturbed s openSteps := by
  rw [openSteps, AllSteps, step, writerStep_open hw]
  refine ⟨(writerUndisturbing_open hw).mpr hholds, ?_⟩
  generalize initHeader = left
  exact allSteps_opening .open_ left _ rfl

/-- A publisher opens again. -/
theorem Sound.foldl_openSteps (h : s.Sound decode) (hw : s.writer = .closed) :
    openSteps.foldl (step decode) s =
      { s with file := .opened, writer := .idle, earlier := s.published, recent := [] } :=
  RingSession.foldl_openSteps hw (h.writer.length_slots hw)

/-- A publication with a valid top of book. -/
def oneTick : LobUpdate :=
  { bids := [{ price := 100, size := 1 }], asks := [{ price := 101, size := 1 }] }

/-- The steps of a publication of it. -/
def publishSteps : List Event := List.replicate 81 (.writer (.publish oneTick))

/-- The steps of `read_new_ticks` that finds the file not open and nothing to read. -/
def firstRead : List Event := List.replicate 25 .reader

/-- Those of a call that reads one slot. -/
def lastRead : List Event := List.replicate 93 .reader

/-- A publication that is read. -/
theorem delivered_one :
    ((openSteps ++ (firstRead ++ publishSteps ++ lastRead)).foldl (step String.ofList)
      start).Delivered String.ofList := by
  refine delivered_run _ _ (allSteps_append.mpr ⟨allSteps_openSteps rfl fun h => h.elim, ?_⟩)
  rw [foldl_openSteps rfl (List.length_replicate ..)]
  decide +kernel

/-- The file behind the first `open`. -/
def afterOpen : RingSession := { start with file := .opened, writer := .idle }

/-- A publication, a reader that opens the file behind it, and the end of the publisher. -/
def beforeRestart : List Event := publishSteps ++ firstRead ++ [.writer .close]

/-- The second publication, and the call of the reader that follows it. -/
def afterRestart : List Event := publishSteps ++ firstRead

/-- **A restart hides a publication**: the call that follows it begins at the old sequence. -/
theorem restart_hides_publication :
    ¬ ∀ events : List Event,
      (events.foldl (step String.ofList) start).Delivered String.ofList := by
  intro h
  have hfirst : openSteps.foldl (step String.ofList) start = afterOpen :=
    foldl_openSteps rfl (List.length_replicate ..)
  have hsound : (openSteps ++ beforeRestart).foldl (step String.ofList) start |>.Sound
      String.ofList := by
    refine sound_run _ (allSteps_append.mpr ⟨allSteps_openSteps rfl fun h => h.elim, ?_⟩)
    rw [hfirst]
    decide +kernel
  have hdelivered := h (openSteps ++ beforeRestart ++ openSteps ++ afterRestart)
  rw [List.foldl_append, List.foldl_append, List.foldl_append, hfirst] at hdelivered
  rw [List.foldl_append, hfirst] at hsound
  have hclosed : (beforeRestart.foldl (step String.ofList) afterOpen).writer = .closed := by
    decide +kernel
  rw [hsound.foldl_openSteps hclosed] at hdelivered
  obtain ⟨picks, -, hrows, hcomplete⟩ := hdelivered
  have hlength := congrArg List.length hrows
  rw [List.length_map, List.length_map] at hlength
  obtain hpick | hpassed := hcomplete 1 (by decide +kernel) (by decide +kernel) (by decide +kernel)
  · refine absurd (List.length_pos_of_mem hpick) (Nat.not_lt_of_le ?_)
    rw [← hlength]
    decide +kernel
  · revert hpassed
    decide +kernel

end RingSession

end TradingInfrastructure
