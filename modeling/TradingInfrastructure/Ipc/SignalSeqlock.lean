import TradingInfrastructure.Common.Types
import TradingInfrastructure.Foundations.FieldCopies
import TradingInfrastructure.Foundations.Runs

/-!
# The signal files

The alpha and the regime signal come from Python processes through mapped files of six words, a
sequence and the five fields of the signal. `publish` makes the sequence odd, stores the fields and
makes the sequence even again. `read` (`core/ipc/alpha_signal.hpp`, `core/ipc/regime_signal.hpp`)
loads the sequence, the fields and the sequence again, and retries when a publication was under way.

Each load and each store of a word is one step. Whatever the order of the steps of the publisher and
of a reader, a read gives the zero signal or all fields of one completed publication
(`signal_read_whole`).
-/

namespace TradingInfrastructure

/-- The fields of `AlphaSignal`. -/
inductive AlphaField
  | signalBps | riskScore | sizeFraction | horizonTicks | tsNs
  deriving DecidableEq

/-- Their types. -/
abbrev AlphaField.Value : AlphaField → Type
  | .signalBps | .riskScore | .sizeFraction => ℚ
  | .horizonTicks | .tsNs => ℤ

/-- The fields of `RegimeSignal`. -/
inductive RegimeField
  | pCalm | pTrending | pShock | pIlliquid | tsNs
  deriving DecidableEq

/-- Their types. -/
abbrev RegimeField.Value : RegimeField → Type
  | .pCalm | .pTrending | .pShock | .pIlliquid => ℚ
  | .tsNs => ℤ

namespace SignalIpc

variable {F : Type} {V : F → Type}

/-- What tells the readers of the two signals apart. -/
structure Format (V : F → Type) where
  /-- The fields in the order of the file, in which they are stored and loaded. -/
  order : List F
  /-- The value of `{}`. -/
  zero : ∀ f, V f
  /-- The test of the two sequences. -/
  accepts : UInt64 → UInt64 → Bool
  /-- `read` opens a file that is not open yet. -/
  opensOnRead : Bool

/-- `AlphaSignalReader`. -/
def alphaSignal : Format AlphaField.Value where
  order := [.signalBps, .riskScore, .sizeFraction, .horizonTicks, .tsNs]
  zero
    | .signalBps => 0
    | .riskScore => 0
    | .sizeFraction => 0
    | .horizonTicks => 0
    | .tsNs => 0
  accepts seq1 seq2 := seq1 == seq2
  opensOnRead := false

/-- `RegimeSignalReader`. -/
def regimeSignal : Format RegimeField.Value where
  order := [.pCalm, .pTrending, .pShock, .pIlliquid, .tsNs]
  zero
    | .pCalm => 0
    | .pTrending => 0
    | .pShock => 0
    | .pIlliquid => 0
    | .tsNs => 0
  accepts seq1 seq2 := seq1 == seq2 && !(seq2 &&& 1 == 1)
  opensOnRead := true

/-- `k_max_retries`. -/
def maxRetries : ℕ := 16

/-! ## Steps -/

/-- The mapped file. -/
structure SignalFile (V : F → Type) where
  seq : UInt64
  payload : ∀ f, V f

/-- Where `publish` stands. -/
inductive Publishing (V : F → Type)
  | idle
  /-- The sequence has been loaded. -/
  | loaded (payload : ∀ f, V f) (seq : UInt64)
  /-- The odd sequence has been stored, and these fields remain. -/
  | storing (payload : ∀ f, V f) (seq : UInt64) (remaining : List F)

/-- Where `read` stands. -/
inductive Reading (V : F → Type)
  | idle
  /-- Before a try, of so many that are left. -/
  | attempt (left : ℕ)
  /-- The first sequence and some fields have been loaded, and these fields remain. -/
  | loading (left : ℕ) (seq1 : UInt64) (remaining : List F) (signal : ∀ f, V f)

/-- A file with its publisher and a reader, the publications that are complete and the signals that
`read` has returned. -/
structure Channel (V : F → Type) where
  file : SignalFile V
  publishing : Publishing V
  mapped : Bool
  reading : Reading V
  completed : List (∀ f, V f)
  returned : List (∀ f, V f)

namespace Channel

/-- A zeroed file, which the reader has mapped or not. -/
def start (format : Format V) (mapped : Bool) : Channel V where
  file := ⟨0, format.zero⟩
  publishing := .idle
  mapped := mapped
  reading := .idle
  completed := []
  returned := []

/-- `read` returns. -/
def return_ (c : Channel V) (signal : ∀ f, V f) : Channel V :=
  { c with reading := .idle, returned := c.returned ++ [signal] }

variable [DecidableEq F]

/-- The next step of `publish`, which begins with a payload when none is under way. A sequence that
does not fit in its word makes `struct.pack_into` throw. -/
def publish (format : Format V) (c : Channel V) (payload : ∀ f, V f) : Channel V :=
  match c.publishing with
  | .idle => { c with publishing := .loaded payload c.file.seq }
  | .loaded payload seq =>
    if seq.toNat + 1 < 2 ^ 64 then
      { c with
        file := { c.file with seq := seq + 1 }
        publishing := .storing payload seq format.order }
    else { c with publishing := .idle }
  | .storing payload seq (f :: remaining) =>
    { c with
      file := { c.file with payload := copyField payload c.file.payload f }
      publishing := .storing payload seq remaining }
  | .storing payload seq [] =>
    if seq.toNat + 2 < 2 ^ 64 then
      { c with
        file := { c.file with seq := seq + 2 }
        publishing := .idle
        completed := c.completed ++ [payload] }
    else { c with publishing := .idle }

/-- The next step of `read`. `opens` is whether the file can be opened and mapped now, `local_` what
the memory of the local signal holds. -/
def read (format : Format V) (c : Channel V) (opens : Bool) (local_ : ∀ f, V f) : Channel V :=
  match c.reading with
  | .idle =>
    if c.mapped then { c with reading := .attempt maxRetries }
    else if format.opensOnRead && opens then
      { c with mapped := true, reading := .attempt maxRetries }
    else c.return_ format.zero
  | .attempt 0 => c.return_ format.zero
  | .attempt (left + 1) =>
    if c.file.seq &&& 1 = 1 then { c with reading := .attempt left }
    else { c with reading := .loading left c.file.seq format.order local_ }
  | .loading left seq1 (f :: remaining) signal =>
    { c with reading := .loading left seq1 remaining (copyField c.file.payload signal f) }
  | .loading left seq1 [] signal =>
    if format.accepts seq1 c.file.seq then c.return_ signal
    else { c with reading := .attempt left }

/-- A step of the publisher or of the reader. -/
inductive Event (V : F → Type)
  | publish (payload : ∀ f, V f)
  | read (opens : Bool) (local_ : ∀ f, V f)

/-- One step. -/
def step (format : Format V) (c : Channel V) : Event V → Channel V
  | .publish payload => c.publish format payload
  | .read opens local_ => c.read format opens local_

/-! ## The invariant -/

/-- The sequence when nothing is being stored: even, or the last, after which nothing fits. -/
def Settled (seq : UInt64) : Prop := Even seq.toNat ∨ seq.toNat + 1 = 2 ^ 64

/-- The file as the publisher has left it. -/
def PublishingSound (c : Channel V) : Prop :=
  match c.publishing with
  | .idle => Settled c.file.seq
  | .loaded _ seq => c.file.seq = seq ∧ Settled seq
  | .storing payload seq remaining =>
    seq.toNat = 2 * c.completed.length ∧ c.file.seq.toNat = seq.toNat + 1 ∧
      copyFields payload remaining c.file.payload = payload

/-- What the reader has loaded belongs to the version that the first sequence names, as long as the
sequence is the same. -/
def ReadingSound (format : Format V) (c : Channel V) : Prop :=
  match c.reading with
  | .loading _ seq1 remaining signal =>
    Glimpse format.zero c.completed c.file.seq.toNat seq1.toNat
      fun contents => copyFields contents remaining signal = contents
  | _ => True

/-- The invariant of a file, its publisher and a reader. -/
structure Sound (format : Format V) (c : Channel V) : Prop where
  versioned : Versioned format.zero c.completed c.file.seq.toNat c.file.payload
  publishing : c.PublishingSound
  reading : c.ReadingSound format
  returned : ∀ signal ∈ c.returned, signal = format.zero ∨ signal ∈ c.completed

variable {format : Format V} {c : Channel V} {payload local_ : ∀ f, V f} {opens : Bool}

theorem sound_start (mapped : Bool) : Sound format (start format mapped) where
  versioned := ⟨Nat.zero_le _, fun _ => ⟨rfl, rfl⟩⟩
  publishing := .inl ⟨0, rfl⟩
  reading := trivial
  returned _ hsignal := absurd hsignal List.not_mem_nil

/-- The reader when the publisher has moved on. -/
theorem ReadingSound.mono {c' : Channel V} (hc : c.ReadingSound format)
    (hreading : c'.reading = c.reading) (hcompleted : c'.completed = c.completed)
    (hle : c.file.seq.toNat ≤ c'.file.seq.toNat) : c'.ReadingSound format := by
  rw [ReadingSound] at hc ⊢
  rw [hreading]
  cases hr : c.reading with
  | loading left seq1 remaining signal =>
    rw [hr] at hc
    rw [hcompleted]
    exact Glimpse.mono hc hle
  | _ => trivial

/-- The reader when the publisher has completed a publication. -/
theorem ReadingSound.outdated {c' : Channel V} (hc : c.ReadingSound format)
    (hreading : c'.reading = c.reading) (hlt : c.file.seq.toNat < c'.file.seq.toNat) :
    c'.ReadingSound format := by
  rw [ReadingSound] at hc ⊢
  rw [hreading]
  cases hr : c.reading with
  | loading left seq1 remaining signal =>
    rw [hr] at hc
    exact Glimpse.outdated hc hlt
  | _ => trivial

theorem toNat_add_of_lt {a b : UInt64} (h : a.toNat + b.toNat < 2 ^ 64) :
    (a + b).toNat = a.toNat + b.toNat := by
  rw [UInt64.toNat_add, Nat.mod_eq_of_lt h]

/-- **A step of the publisher.** -/
theorem Sound.publish (hc : c.Sound format) (hcover : ∀ f, f ∈ format.order) :
    (c.publish format payload).Sound format := by
  have hpublishing := hc.publishing
  rw [PublishingSound] at hpublishing
  rw [Channel.publish]
  cases hp : c.publishing with
  | idle =>
    rw [hp] at hpublishing
    exact ⟨hc.versioned, ⟨rfl, hpublishing⟩, hc.reading, hc.returned⟩
  | loaded new seq =>
    rw [hp] at hpublishing
    obtain ⟨rfl, hsettled⟩ := hpublishing
    dsimp only
    split_ifs with hfits
    · have heven : Even c.file.seq.toNat := hsettled.resolve_right (by omega)
      obtain ⟨hcounter, hcontents⟩ := hc.versioned.complete heven
      have hnext : (c.file.seq + 1).toNat = c.file.seq.toNat + 1 := toNat_add_of_lt hfits
      refine ⟨⟨?_, fun hodd => ?_⟩, ⟨hcounter, hnext, copyFields_of_forall_mem hcover⟩,
        hc.reading.mono rfl rfl ?_, hc.returned⟩
      · exact (hnext.trans (congrArg (· + 1) hcounter)).le
      · rw [hnext] at hodd
        exact absurd hodd (Nat.not_even_iff_odd.mpr heven.add_one)
      · exact (Nat.le_succ _).trans_eq hnext.symm
    · exact ⟨hc.versioned, hsettled, hc.reading, hc.returned⟩
  | storing new seq remaining =>
    rw [hp] at hpublishing
    obtain ⟨hseq, hodd, hcopy⟩ := hpublishing
    have hnot : ¬ Even c.file.seq.toNat := by
      rw [hodd, hseq]
      exact Nat.not_even_iff_odd.mpr (even_two_mul _).add_one
    cases remaining with
    | cons f remaining =>
      exact ⟨⟨hc.versioned.bound, fun heven => absurd heven hnot⟩, ⟨hseq, hodd, hcopy⟩,
        hc.reading.mono rfl rfl le_rfl, hc.returned⟩
    | nil =>
      dsimp only
      split_ifs with hfits
      · have htwo : (seq + 2).toNat = seq.toNat + 2 := toNat_add_of_lt hfits
        have hnext : (seq + 2).toNat = 2 * (c.completed ++ [new]).length := by
          rw [htwo, hseq, List.length_append]
          rfl
        refine ⟨⟨?_, fun _ => ⟨hnext, ?_⟩⟩, .inl ?_, hc.reading.outdated rfl ?_,
          fun signal hs => ?_⟩
        · exact hnext.le.trans (Nat.le_succ _)
        · exact hcopy.trans version_last.symm
        · exact ⟨_, hnext.trans (two_mul _)⟩
        · rw [hodd]
          exact (Nat.lt_succ_self _).trans_eq htwo.symm
        · exact (hc.returned signal hs).imp_right (List.mem_append_left _)
      · have hlast : c.file.seq.toNat + 1 = 2 ^ 64 := by
          have := c.file.seq.toNat_lt
          omega
        exact ⟨hc.versioned, .inr hlast, hc.reading, hc.returned⟩

theorem even_of_and_one_ne {seq : UInt64} (h : ¬ seq &&& 1 = 1) : Even seq.toNat := by
  rw [Nat.even_iff]
  by_contra hodd
  refine h (UInt64.toNat_inj.mp ?_)
  rw [UInt64.toNat_and]
  change seq.toNat &&& 1 = 1
  rw [Nat.and_one_is_mod]
  omega

/-- A read returns the zero signal or a completed publication. -/
theorem Sound.return_ (hc : c.Sound format) {signal : ∀ f, V f}
    (hsignal : signal = format.zero ∨ signal ∈ c.completed) : (c.return_ signal).Sound format where
  versioned := hc.versioned
  publishing := hc.publishing
  reading := trivial
  returned other hother := by
    obtain hother | hother := List.mem_append.mp hother
    · exact hc.returned other hother
    · rw [List.mem_singleton.mp hother]
      exact hsignal

/-- **A step of the reader.** -/
theorem Sound.read (hc : c.Sound format) (hcover : ∀ f, f ∈ format.order)
    (haccepts : ∀ seq1 seq2, format.accepts seq1 seq2 = true → seq1 = seq2) :
    (c.read format opens local_).Sound format := by
  have hreading := hc.reading
  rw [ReadingSound] at hreading
  rw [Channel.read]
  cases hr : c.reading with
  | idle =>
    dsimp only
    split_ifs
    · exact ⟨hc.versioned, hc.publishing, trivial, hc.returned⟩
    · exact ⟨hc.versioned, hc.publishing, trivial, hc.returned⟩
    · exact hc.return_ (.inl rfl)
  | attempt left =>
    cases left with
    | zero => exact hc.return_ (.inl rfl)
    | succ left =>
      dsimp only
      split_ifs with hodd
      · exact ⟨hc.versioned, hc.publishing, trivial, hc.returned⟩
      · exact ⟨hc.versioned, hc.publishing,
          Versioned.glimpse (even_of_and_one_ne hodd) fun _ => copyFields_of_forall_mem hcover,
          hc.returned⟩
  | loading left seq1 remaining signal =>
    rw [hr] at hreading
    cases remaining with
    | cons f remaining =>
      exact ⟨hc.versioned, hc.publishing, Glimpse.look hreading hc.versioned id, hc.returned⟩
    | nil =>
      dsimp only
      split_ifs with haccept
      · obtain rfl := haccepts _ _ haccept
        obtain ⟨contents, heq, hcontents⟩ := Glimpse.eq_version hreading hc.versioned.bound rfl
        rw [copyFields_nil] at heq
        exact hc.return_ (heq ▸ hcontents)
      · exact ⟨hc.versioned, hc.publishing, trivial, hc.returned⟩

/-- Along every run of the publisher and of a reader whose test asks for equal sequences. -/
theorem sound_run (hcover : ∀ f, f ∈ format.order)
    (haccepts : ∀ seq1 seq2, format.accepts seq1 seq2 = true → seq1 = seq2) (mapped : Bool)
    (events : List (Event V)) :
    (events.foldl (step format) (start format mapped)).Sound format := by
  refine foldl_induction (fun c e hc (_ : True) => ?_) (sound_start mapped) fun _ _ => trivial
  cases e with
  | publish payload => exact hc.publish hcover
  | read opens local_ => exact hc.read hcover haccepts

end Channel

/-- **A read is whole**: whatever the order of the steps, `AlphaSignalReader::read` and
`RegimeSignalReader::read` return the zero signal or exactly one completed publication. -/
theorem signal_read_whole (mapped : Bool) :
    (∀ (events : List (Channel.Event AlphaField.Value)),
      ∀ signal ∈ (events.foldl (Channel.step alphaSignal) (.start alphaSignal mapped)).returned,
        signal = alphaSignal.zero ∨ signal ∈
          (events.foldl (Channel.step alphaSignal) (.start alphaSignal mapped)).completed) ∧
    ∀ (events : List (Channel.Event RegimeField.Value)),
      ∀ signal ∈ (events.foldl (Channel.step regimeSignal) (.start regimeSignal mapped)).returned,
        signal = regimeSignal.zero ∨ signal ∈
          (events.foldl (Channel.step regimeSignal) (.start regimeSignal mapped)).completed := by
  refine ⟨fun events => (Channel.sound_run ?_ ?_ mapped events).returned,
    fun events => (Channel.sound_run ?_ ?_ mapped events).returned⟩
  · intro f
    cases f <;> decide
  · exact fun seq1 seq2 h => beq_iff_eq.mp h
  · intro f
    cases f <;> decide
  · exact fun seq1 seq2 h => beq_iff_eq.mp (Bool.and_eq_true_iff.mp h).1

/-- A signal of three basis points for one tick, published and then read. -/
example :
    let signal : ∀ f, AlphaField.Value f := fun
      | .signalBps => 3
      | .riskScore => 0
      | .sizeFraction => 1
      | .horizonTicks => 1
      | .tsNs => 7
    let events := List.replicate 8 (Channel.Event.publish signal) ++
      List.replicate 8 (.read true alphaSignal.zero)
    (events.foldl (Channel.step alphaSignal) (.start alphaSignal true)).returned.map
      (fun s => (s .signalBps, s .tsNs)) = [((3 : ℚ), (7 : ℤ))] := by
  decide +kernel

end SignalIpc

end TradingInfrastructure
