import TradingInfrastructure.Foundations.Runs
import Mathlib.Data.Finset.Card
import Mathlib.Algebra.BigOperators.Fin

/-!
# A fixed window that calls race for

A fixed window whose start and count are two cells, used by many threads at once. A call takes the
time and reads the start; when the window is over it swaps the start for its own time, and if no
other call has been faster it sets the count back; then it adds itself to the count, and is admitted
if it has found less than the limit. The threads take these steps in any order, and what a call
reads of the start may be out of date.

A call that has swapped the start may set the count back as late as it likes, and so may a call that
has taken its time long ago. Each of them opens the limit once more: in any stretch of a run no more
are admitted than the limit for each width of it, and for each call that is under way at its
beginning (`Run.admitted_le`).
-/

namespace TradingInfrastructure

/-- A sum over the threads, when what one of them has is replaced. -/
theorem sum_update_add {ι β : Type*} [DecidableEq ι] [Fintype ι] (f : β → ℕ) (g : ι → β) (i : ι)
    (x : β) : ∑ j, f (Function.update g i x j) + f (g i) = ∑ j, f (g j) + f x := by
  have hrest : ∑ j ∈ Finset.univ.erase i, f (Function.update g i x j) =
      ∑ j ∈ Finset.univ.erase i, f (g j) := by
    refine Finset.sum_congr rfl fun j hj => ?_
    rw [Function.update_of_ne (Finset.ne_of_mem_erase hj)]
  have hnew := Finset.add_sum_erase Finset.univ (fun j => f (Function.update g i x j))
    (Finset.mem_univ i)
  have hold := Finset.add_sum_erase Finset.univ (fun j => f (g j)) (Finset.mem_univ i)
  simp only [Function.update_self, hrest] at hnew
  omega

/-- Where a call is: it has taken the time, found the window over, swapped the start, or is about to
be counted. -/
inductive RacePhase
  | away
  | ready (now : ℤ)
  | due (now seen : ℤ)
  | won
  | counting
  deriving DecidableEq

namespace RacePhase

/-- A call that may still set the count back, and has not taken its time since a time. -/
def underWay (since : ℤ) : RacePhase → ℕ
  | .away | .counting => 0
  | .ready now | .due now _ => if now < since then 1 else 0
  | .won => 1

theorem underWay_le_one (since : ℤ) (p : RacePhase) : p.underWay since ≤ 1 := by
  cases p with
  | away => exact Nat.zero_le 1
  | counting => exact Nat.zero_le 1
  | won => exact le_rfl
  | ready now =>
    change (if now < since then 1 else 0) ≤ 1
    split_ifs <;> omega
  | due now seen =>
    change (if now < since then 1 else 0) ≤ 1
    split_ifs <;> omega

/-- What a call has found out is so: its time is not ahead of the clock, and the start that it has
seen is a width before its time. -/
def Sound (width clock : ℤ) : RacePhase → Prop
  | .away | .won | .counting => True
  | .ready now => now ≤ clock
  | .due now seen => now ≤ clock ∧ width ≤ now - seen

theorem Sound.mono {width clock clock' : ℤ} {p : RacePhase} (h : p.Sound width clock)
    (hclock : clock ≤ clock') : p.Sound width clock' := by
  cases p with
  | away => trivial
  | won => trivial
  | counting => trivial
  | ready now => exact le_trans h hclock
  | due now seen => exact ⟨h.1.trans hclock, h.2⟩

end RacePhase

/-- The window, the clock, and where the call of each thread is. -/
structure RacingWindow (ι : Type*) where
  clock : ℤ
  start : ℤ
  count : ℕ
  phase : ι → RacePhase

namespace RacingWindow

variable {ι : Type*} [DecidableEq ι]

/-- A thread moves. -/
def moves (w : RacingWindow ι) (i : ι) (phase : RacePhase) : RacingWindow ι :=
  { w with phase := Function.update w.phase i phase }

theorem moves_phase_self (w : RacingWindow ι) (i : ι) (p : RacePhase) : (w.moves i p).phase i = p :=
  Function.update_self ..

theorem moves_phase_of_ne (w : RacingWindow ι) {i j : ι} (p : RacePhase) (h : j ≠ i) :
    (w.moves i p).phase j = w.phase j :=
  Function.update_of_ne h ..

/-- A thread that is where it moves to. -/
theorem moves_of_phase_eq (w : RacingWindow ι) {i : ι} {p : RacePhase} (h : w.phase i = p) :
    w.moves i p = w := by
  subst h
  show { w with phase := Function.update w.phase i (w.phase i) } = w
  rw [Function.update_eq_self]

/-- **One step** of a thread or of the clock, and whether it admits a call. -/
inductive Step (width : ℤ) (limit : ℕ) (w : RacingWindow ι) : Bool → RacingWindow ι → Prop
  | stay : Step width limit w false w
  | tick (now : ℤ) (h : w.clock ≤ now) : Step width limit w false { w with clock := now }
  | enter (i : ι) (h : w.phase i = .away) : Step width limit w false (w.moves i (.ready w.clock))
  | leave (i : ι) (now : ℤ) (h : w.phase i = .ready now) : Step width limit w false (w.moves i .away)
  | load (i : ι) (now seen : ℤ) (h : w.phase i = .ready now) :
      Step width limit w false
        (w.moves i (if width ≤ now - seen then .due now seen else .counting))
  | swap (i : ι) (now seen : ℤ) (h : w.phase i = .due now seen) :
      Step width limit w false
        (if w.start = seen then { w with start := now }.moves i .won else w.moves i .counting)
  | reset (i : ι) (h : w.phase i = .won) :
      Step width limit w false ({ w with count := 0 }.moves i .counting)
  | add (i : ι) (h : w.phase i = .counting) :
      Step width limit w (decide (w.count < limit)) ({ w with count := w.count + 1 }.moves i .away)

/-- A run, and how many calls it admits. -/
inductive Run (width : ℤ) (limit : ℕ) (w : RacingWindow ι) : ℕ → RacingWindow ι → Prop
  | refl : Run width limit w 0 w
  | tail {n : ℕ} {v v' : RacingWindow ι} {admitted : Bool} (h : Run width limit w n v)
      (hstep : Step width limit v admitted v') : Run width limit w (n + admitted.toNat) v'

/-- A run with one more step before it. -/
theorem Run.head {width : ℤ} {limit n : ℕ} {w v v' : RacingWindow ι} {admitted : Bool}
    (hstep : Step width limit w admitted v) (h : Run width limit v n v') :
    Run width limit w (admitted.toNat + n) v' := by
  induction h with
  | refl =>
    rw [Nat.add_comm]
    exact .tail .refl hstep
  | tail _ hnext ih =>
    rw [← Nat.add_assoc]
    exact .tail ih hnext

/-! ## The calls under way -/

variable [Fintype ι]

/-- The calls under way. -/
def underWay (since : ℤ) (w : RacingWindow ι) : ℕ := ∑ i, (w.phase i).underWay since

/-- A thread that moves changes the calls under way by its own. -/
theorem underWay_moves (since : ℤ) (w : RacingWindow ι) (i : ι) (p : RacePhase) :
    (w.moves i p).underWay since + (w.phase i).underWay since =
      w.underWay since + p.underWay since :=
  sum_update_add (RacePhase.underWay since) w.phase i p

/-! ## One step -/

/-- All calls have found out what is so. -/
def Sound (width : ℤ) (w : RacingWindow ι) : Prop := ∀ i, (w.phase i).Sound width w.clock

variable {width : ℤ} {limit n : ℕ} {w v v' : RacingWindow ι} {admitted : Bool}

omit [Fintype ι] in
theorem Sound.moves (h : v.Sound width) {i : ι} {p : RacePhase} (hp : p.Sound width v.clock) :
    (v.moves i p).Sound width := by
  intro j
  by_cases hj : j = i
  · rw [hj, moves_phase_self]
    exact hp
  · rw [moves_phase_of_ne v p hj]
    exact h j

omit [Fintype ι] in
theorem Step.sound (hstep : Step width limit v admitted v') (h : v.Sound width) :
    v'.Sound width := by
  cases hstep with
  | stay => exact h
  | tick now hnow => exact fun i => (h i).mono hnow
  | enter i hi => exact h.moves le_rfl
  | leave i now hi => exact h.moves trivial
  | load i now seen hi =>
    have hready := h i
    rw [hi] at hready
    apply h.moves
    split_ifs with hover
    · exact ⟨hready, hover⟩
    · trivial
  | swap i now seen hi =>
    split_ifs
    · exact Sound.moves (v := { v with start := now }) h trivial
    · exact h.moves trivial
  | reset i hi => exact Sound.moves (v := { v with count := 0 }) h trivial
  | add i hi => exact Sound.moves (v := { v with count := v.count + 1 }) h trivial

/-! ## A stretch of a run -/

/-- What is known after a stretch that began at a time with some calls under way and has admitted
some: how often the count has been set back and how often a call of the stretch has swapped the
start. -/
structure Stretch (width : ℤ) (limit : ℕ) (since : ℤ) (before n : ℕ) (w : RacingWindow ι)
    (resets swaps : ℕ) : Prop where
  sound : w.Sound width
  clock : since ≤ w.clock
  admitted : n ≤ limit * resets + min w.count limit
  resets : resets + w.underWay since ≤ before + swaps
  start : 0 < swaps → since + (swaps - 1) * width ≤ w.start ∧ w.start ≤ w.clock

variable {since : ℤ} {before resets swaps : ℕ}

/-- A step of a thread that changes neither the start nor the count. -/
theorem Stretch.moves (h : Stretch width limit since before n v resets swaps) {i : ι} {p : RacePhase}
    (hsound : p.Sound width v.clock) (hp : p.underWay since ≤ (v.phase i).underWay since) :
    Stretch width limit since before n (v.moves i p) resets swaps := by
  have hmoves := underWay_moves since v i p
  have hresets := h.resets
  exact ⟨h.sound.moves hsound, h.clock, h.admitted, by omega, h.start⟩

/-- A call swaps the start: a call of the stretch, or one that was under way. -/
theorem Stretch.swap (h : Stretch width limit since before n v resets swaps) (hwidth : 0 < width)
    {i : ι} {now seen : ℤ} (hi : v.phase i = .due now seen) (hseen : v.start = seen) :
    ∃ swaps', Stretch width limit since before n ({ v with start := now }.moves i .won) resets
      swaps' := by
  have hmoves := underWay_moves since { v with start := now } i .won
  have hsame : underWay since { v with start := now } = v.underWay since := rfl
  have hresets := h.resets
  have hdue := h.sound i
  rw [hi] at hdue
  obtain ⟨hnow, hover⟩ := hdue
  have hsound : ({ v with start := now }.moves i .won).Sound width :=
    Sound.moves (v := { v with start := now }) h.sound trivial
  simp only [hi, hsame, RacePhase.underWay] at hmoves
  by_cases hlate : now < since
  · -- its time is before the stretch, so it has been counted
    rw [if_pos hlate] at hmoves
    refine ⟨swaps, hsound, h.clock, h.admitted, by omega, fun hpos => ⟨?_, hnow⟩⟩
    have hstart := (h.start hpos).1
    show since + (swaps - 1) * width ≤ now
    omega
  · rw [if_neg hlate] at hmoves
    refine ⟨swaps + 1, hsound, h.clock, h.admitted, by omega, fun _ => ⟨?_, hnow⟩⟩
    show since + ((swaps + 1 : ℕ) - 1) * width ≤ now
    rcases Nat.eq_zero_or_pos swaps with rfl | hpos
    · simpa using not_lt.mp hlate
    · have hstart := (h.start hpos).1
      have hnext : since + ((swaps + 1 : ℕ) - 1) * width =
          since + (swaps - 1) * width + width := by
        push_cast
        ring
      omega

/-- **One step of a stretch.** -/
theorem Stretch.step (h : Stretch width limit since before n v resets swaps) (hwidth : 0 < width)
    (hstep : Step width limit v admitted v') :
    ∃ resets' swaps', Stretch width limit since before (n + admitted.toNat) v' resets' swaps' := by
  cases hstep with
  | stay => exact ⟨resets, swaps, h⟩
  | tick now hnow =>
    exact ⟨resets, swaps, fun i => (h.sound i).mono hnow, h.clock.trans hnow, h.admitted,
      h.resets, fun hpos => ⟨(h.start hpos).1, (h.start hpos).2.trans hnow⟩⟩
  | enter i hi =>
    refine ⟨resets, swaps, h.moves le_rfl ?_⟩
    show (if v.clock < since then 1 else 0) ≤ _
    rw [if_neg (not_lt.mpr h.clock)]
    exact Nat.zero_le _
  | leave i now hi => exact ⟨resets, swaps, h.moves trivial (Nat.zero_le _)⟩
  | load i now seen hi =>
    have hready := h.sound i
    rw [hi] at hready
    refine ⟨resets, swaps, ?_⟩
    by_cases hover : width ≤ now - seen
    · rw [if_pos hover]
      refine h.moves ⟨hready, hover⟩ ?_
      rw [hi]
      exact le_rfl
    · rw [if_neg hover]
      exact h.moves trivial (Nat.zero_le _)
  | swap i now seen hi =>
    by_cases hseen : v.start = seen
    · rw [if_pos hseen]
      exact ⟨resets, h.swap hwidth hi hseen⟩
    · rw [if_neg hseen]
      exact ⟨resets, swaps, h.moves trivial (Nat.zero_le _)⟩
  | reset i hi =>
    have hmoves := underWay_moves since { v with count := 0 } i .counting
    have hsame : underWay since { v with count := 0 } = v.underWay since := rfl
    simp only [hi, hsame, RacePhase.underWay] at hmoves
    have hresets := h.resets
    have hsound : ({ v with count := 0 }.moves i .counting).Sound width :=
      Sound.moves (v := { v with count := 0 }) h.sound trivial
    refine ⟨resets + 1, swaps, hsound, h.clock, ?_, by omega, h.start⟩
    calc n ≤ limit * resets + min v.count limit := h.admitted
      _ ≤ limit * resets + limit := Nat.add_le_add_left (min_le_right _ _) _
      _ = limit * (resets + 1) + min 0 limit := by rw [Nat.zero_min, Nat.mul_succ, Nat.add_zero]
  | add i hi =>
    have hmoves := underWay_moves since { v with count := v.count + 1 } i .away
    have hsame : underWay since { v with count := v.count + 1 } = v.underWay since := rfl
    simp only [hi, hsame, RacePhase.underWay] at hmoves
    have hresets := h.resets
    have hadmitted := h.admitted
    have hsound : ({ v with count := v.count + 1 }.moves i .away).Sound width :=
      Sound.moves (v := { v with count := v.count + 1 }) h.sound trivial
    refine ⟨resets, swaps, hsound, h.clock, ?_, by omega, h.start⟩
    change n + _ ≤ limit * resets + min (v.count + 1) limit
    by_cases hlimit : v.count < limit
    · rw [decide_eq_true hlimit]
      simp only [Bool.toNat_true]
      omega
    · rw [decide_eq_false hlimit]
      simp only [Bool.toNat_false]
      omega

/-- Along every run from a state whose calls have found out what is so. -/
theorem Run.stretch (hrun : Run width limit w n v) (hwidth : 0 < width) (h : w.Sound width) :
    ∃ resets swaps, Stretch width limit w.clock (w.underWay w.clock) n v resets swaps := by
  induction hrun with
  | refl =>
    exact ⟨0, 0, h, le_rfl, Nat.zero_le _, by omega, fun hpos => absurd hpos (lt_irrefl 0)⟩
  | tail _ hstep ih =>
    obtain ⟨resets, swaps, hstretch⟩ := ih
    exact hstretch.step hwidth hstep

omit [Fintype ι] in
theorem Run.sound (hrun : Run width limit w n v) (h : w.Sound width) : v.Sound width := by
  induction hrun with
  | refl => exact h
  | tail _ hstep ih => exact hstep.sound ih

/-- **What a stretch of a run admits**: the limit for each width of it that has begun, once for the
window that it finds, and once for each call under way. -/
theorem Run.admitted_le (hrun : Run width limit w n v) (hwidth : 0 < width) (h : w.Sound width) :
    n ≤ limit * (2 + w.underWay w.clock + ((v.clock - w.clock) / width).toNat) := by
  obtain ⟨resets, swaps, hstretch⟩ := hrun.stretch hwidth h
  have hswaps : swaps ≤ 1 + ((v.clock - w.clock) / width).toNat := by
    rcases Nat.eq_zero_or_pos swaps with rfl | hpos
    · exact Nat.zero_le _
    · obtain ⟨hstart, hclock⟩ := hstretch.start hpos
      have hdiv : (swaps : ℤ) - 1 ≤ (v.clock - w.clock) / width :=
        (Int.le_ediv_iff_mul_le hwidth).mpr (by omega)
      omega
  have hresets := hstretch.resets
  calc n ≤ limit * resets + min v.count limit := hstretch.admitted
    _ ≤ limit * resets + limit := Nat.add_le_add_left (min_le_right _ _) _
    _ = limit * (resets + 1) := (Nat.mul_succ _ _).symm
    _ ≤ limit * (2 + w.underWay w.clock + ((v.clock - w.clock) / width).toNat) :=
        Nat.mul_le_mul_left _ (by omega)

end RacingWindow

end TradingInfrastructure
