import Mathlib.Data.List.DropRight
import TradingInfrastructure.Foundations.Runs
import TradingInfrastructure.Foundations.Streaks

/-!
# Holds with a cool-down

A request holds a system for some rounds, and no other request is granted until a cool-down of some
rounds is over. Each round first counts both down and then brings its requests.

The two counters are functions of what has been granted in the rounds so far (`left`): a round is
held exactly when one of the last `hold` rounds has granted something (`lt_left_iff`), and a request is
granted exactly when none of the last `coolDown` rounds has, the round itself included
(`granted_concat`). So granting rounds are `coolDown` rounds apart (`granted_apart`), and each of
them costs at most `hold` rounds, exactly that many when the cool-down is no shorter
(`held_add_left`).
-/

namespace TradingInfrastructure

/-! ## A counter that is set and counts down -/

/-- What is left of a counter that some rounds set to `n` and all others count down. -/
def left (n : ℕ) (granted : List ℕ) : ℕ :=
  granted.foldl (fun k g => if g = 0 then k - 1 else n) 0

@[simp] theorem left_nil (n : ℕ) : left n [] = 0 := rfl

theorem left_concat (n : ℕ) (granted : List ℕ) (g : ℕ) :
    left n (granted ++ [g]) = if g = 0 then left n granted - 1 else n :=
  List.foldl_concat ..

theorem left_le (n : ℕ) (granted : List ℕ) : left n granted ≤ n := by
  induction granted using List.reverseRecOn with
  | nil => exact Nat.zero_le n
  | append_singleton granted g ih =>
    rw [left_concat]
    split_ifs <;> omega

/-- A shorter counter is at zero when a longer one is. -/
theorem left_mono {m n : ℕ} (h : m ≤ n) (granted : List ℕ) : left m granted ≤ left n granted := by
  induction granted using List.reverseRecOn with
  | nil => exact le_rfl
  | append_singleton granted g ih =>
    rw [left_concat, left_concat]
    split_ifs <;> omega

/-- **What is left** is more than `k` when the counter has been set in all but the oldest `k` of the
last `n` rounds. -/
theorem lt_left_iff {n k : ℕ} {granted : List ℕ} :
    k < left n granted ↔ ∃ g ∈ granted.rtake (n - k), g ≠ 0 := by
  induction granted using List.reverseRecOn generalizing k with
  | nil => simp [List.rtake_nil]
  | append_singleton granted g ih =>
    rw [left_concat]
    split_ifs with hg
    · subst hg
      rw [show k < left n granted - 1 ↔ k + 1 < left n granted by omega, ih]
      rcases Nat.eq_zero_or_eq_succ_pred (n - k) with hzero | hsucc
      · rw [hzero, show n - (k + 1) = 0 by omega, List.rtake_zero, List.rtake_zero]
      · rw [hsucc, List.rtake_concat_succ, show n - (k + 1) = (n - k).pred by omega]
        simp
    · constructor
      · intro hk
        refine ⟨g, ?_, hg⟩
        rw [show n - k = n - k - 1 + 1 by omega, List.rtake_concat_succ]
        simp
      · rintro ⟨g', hg', -⟩
        by_contra hk
        rw [show n - k = 0 by omega, List.rtake_zero] at hg'
        cases hg'

/-- What is left, by the rounds since the last one that has set the counter. -/
theorem left_eq (n : ℕ) (granted : List ℕ) :
    left n granted =
      if ∃ g ∈ granted, g ≠ 0 then n - runLength (fun g => g == 0) granted else 0 := by
  induction granted using List.reverseRecOn with
  | nil => simp
  | append_singleton granted g ih =>
    rw [left_concat, ih, runLength_concat]
    by_cases hg : g = 0
    · by_cases hany : ∃ g ∈ granted, g ≠ 0
      · have hany' : ∃ h ∈ granted ++ [g], h ≠ 0 :=
          hany.imp fun h hh => ⟨List.mem_append_left _ hh.1, hh.2⟩
        rw [if_pos hg, if_pos hany, if_pos hany', if_pos (by simp [hg])]
        omega
      · have hnone : ¬ ∃ h ∈ granted ++ [g], h ≠ 0 := by
          rintro ⟨h, hmem, hne⟩
          rcases List.mem_append.mp hmem with hmem | hmem
          · exact hany ⟨h, hmem, hne⟩
          · exact hne ((List.mem_singleton.mp hmem).trans hg)
        rw [if_pos hg, if_neg hany, if_neg hnone]
    · rw [if_neg hg, if_pos ⟨g, by simp, hg⟩, if_neg (by simp [hg]), Nat.sub_zero]

/-- The last `n` rounds have granted nothing. -/
def Quiet (n : ℕ) (granted : List ℕ) : Prop := ∀ g ∈ granted.rtake n, g = 0

instance (n : ℕ) (granted : List ℕ) : Decidable (Quiet n granted) := by
  unfold Quiet
  infer_instance

theorem left_le_iff {n k : ℕ} {granted : List ℕ} :
    left n granted ≤ k ↔ Quiet (n - k) granted := by
  rw [← not_lt, lt_left_iff]
  simp [Quiet]

theorem Quiet.mono {m n : ℕ} {granted : List ℕ} (h : Quiet n granted) (hle : m ≤ n) :
    Quiet m granted := by
  have hn : left n granted ≤ 0 := left_le_iff.mpr h
  exact left_le_iff.mp ((left_mono hle granted).trans hn)

/-! ## The rounds -/

/-- How long a request holds, and how long no other one is granted. -/
structure Lockout where
  hold : ℕ
  coolDown : ℕ

/-- The two counters. -/
structure LockoutState where
  holdLeft : ℕ := 0
  coolLeft : ℕ := 0
  deriving DecidableEq

/-- A round passes. -/
def LockoutState.tick (s : LockoutState) : LockoutState := ⟨s.holdLeft - 1, s.coolLeft - 1⟩

namespace Lockout

variable (l : Lockout)

/-- A request, and whether it is granted. -/
def request (s : LockoutState) : LockoutState × Bool :=
  if 0 < s.coolLeft then (s, false) else (⟨max s.holdLeft l.hold, l.coolDown⟩, true)

/-- Some requests, and how many of them are granted. -/
def requests (s : LockoutState) : ℕ → LockoutState × ℕ
  | 0 => (s, 0)
  | n + 1 =>
    let r := requests s n
    ((l.request r.1).1, r.2 + (l.request r.1).2.toNat)

/-- A round with its requests. -/
def round (s : LockoutState) (n : ℕ) : LockoutState × ℕ := l.requests s.tick n

/-- The counters after some rounds. -/
def after (rounds : List ℕ) : LockoutState := (transcript l.round {} rounds).1

/-- What has been granted in each round. -/
def granted (rounds : List ℕ) : List ℕ := (transcript l.round {} rounds).2

/-- The counters that the granted requests leave. -/
def counters (granted : List ℕ) : LockoutState := ⟨left l.hold granted, left l.coolDown granted⟩

variable {l} {granted rounds : List ℕ} {n : ℕ}

theorem tick_counters : (l.counters granted).tick = l.counters (granted ++ [0]) := by
  rw [LockoutState.tick, counters, counters, left_concat, left_concat, if_pos rfl, if_pos rfl]

/-- Requests in two goes. -/
theorem requests_add (s : LockoutState) (j k : ℕ) :
    l.requests s (j + k) = ((l.requests (l.requests s j).1 k).1,
      (l.requests s j).2 + (l.requests (l.requests s j).1 k).2) := by
  induction k with
  | zero => rfl
  | succ k ih =>
    rw [← Nat.add_assoc, requests, ih, requests]
    simp only [Nat.add_assoc]

/-- What the requests of a round are granted. -/
def grants (l : Lockout) (granted : List ℕ) (n : ℕ) : ℕ :=
  if l.coolDown = 0 then n
  else if n ≠ 0 ∧ Quiet (l.coolDown - 1) granted then 1 else 0

/-- A round begins without a cool-down when none of those before it has granted anything. -/
theorem coolLeft_eq_zero_iff :
    left l.coolDown (granted ++ [0]) = 0 ↔ Quiet (l.coolDown - 1) granted := by
  rw [left_concat, if_pos rfl, ← left_le_iff]
  omega

theorem request_counters (k : ℕ) :
    l.request (l.counters (granted ++ [k])) =
      if 0 < left l.coolDown (granted ++ [k]) then (l.counters (granted ++ [k]), false)
      else (l.counters (granted ++ [k + 1]), true) := by
  have hmax : max (left l.hold (granted ++ [k])) l.hold = l.hold := max_eq_right (left_le _ _)
  rw [request, counters, hmax]
  simp only [left_concat l.hold granted (k + 1), left_concat l.coolDown granted (k + 1), counters,
    Nat.succ_ne_zero, if_false]

/-- **The requests of a round**: what is granted, and the counters after it. -/
theorem round_counters :
    l.round (l.counters granted) n = (l.counters (granted ++ [l.grants granted n]),
      l.grants granted n) := by
  have hcool := @coolLeft_eq_zero_iff l granted
  rw [round, tick_counters]
  induction n with
  | zero => simp [requests, grants]
  | succ n ih =>
    rw [requests, ih]
    show ((l.request _).1, _) = _
    rw [request_counters]
    by_cases hzero : l.coolDown = 0
    · -- without a cool-down every request is granted
      have hnever : ¬ 0 < left l.coolDown (granted ++ [l.grants granted n]) := by
        have := left_le l.coolDown (granted ++ [l.grants granted n])
        omega
      rw [if_neg hnever]
      simp [grants, hzero]
    · by_cases hfirst : n = 0 ∧ Quiet (l.coolDown - 1) granted
      · have hgrants : l.grants granted n = 0 := by simp [grants, hzero, hfirst.1]
        rw [hgrants, if_neg (hcool.mpr hfirst.2).not_gt]
        simp [grants, hzero, hfirst.2]
      · -- the cool-down of an earlier round or request goes on
        have hlater : 0 < left l.coolDown (granted ++ [l.grants granted n]) := by
          rw [Nat.pos_iff_ne_zero]
          intro hleft
          rw [left_concat] at hleft
          have hquiet : ¬ (n ≠ 0 ∧ Quiet (l.coolDown - 1) granted) := fun h => by
            simp [grants, hzero, h] at hleft
          simp only [grants, hzero, if_false, hquiet, if_true] at hleft
          rw [left_concat, if_pos rfl] at hcool
          exact hquiet ⟨fun hn => hfirst ⟨hn, hcool.mp hleft⟩, hcool.mp hleft⟩
        rw [if_pos hlater]
        have hsame : l.grants granted (n + 1) = l.grants granted n := by
          by_cases hopen : Quiet (l.coolDown - 1) granted
          · simp [grants, hzero, hopen, show n ≠ 0 from fun hn => hfirst ⟨hn, hopen⟩]
          · simp [grants, hzero, hopen]
        simp [hsame]

theorem counters_run (rounds : List ℕ) :
    transcript l.round {} rounds = (l.counters (l.granted rounds), l.granted rounds) := by
  refine Prod.ext ?_ rfl
  rw [Lockout.granted]
  exact transcript_induction (P := fun s os => s = l.counters os)
    (fun s os n hs (_ : True) => by rw [hs, round_counters]) rfl fun _ _ => trivial

theorem after_eq (rounds : List ℕ) : l.after rounds = l.counters (l.granted rounds) :=
  congrArg Prod.fst (counters_run rounds)

/-- **What the requests of the next round are granted.** -/
theorem granted_concat (rounds : List ℕ) (n : ℕ) :
    l.granted (rounds ++ [n]) = l.granted rounds ++ [l.grants (l.granted rounds) n] := by
  rw [Lockout.granted, transcript_concat, counters_run, round_counters]

@[simp] theorem granted_nil : l.granted [] = [] := rfl

/-- **Granting rounds are apart**: none of the `coolDown - 1` rounds before one has granted
anything. -/
theorem granted_apart (rounds : List ℕ) :
    AtEach (fun before g => g ≠ 0 → Quiet (l.coolDown - 1) before) (l.granted rounds) := by
  induction rounds using List.reverseRecOn with
  | nil => exact atEach_nil
  | append_singleton rounds n ih =>
    rw [granted_concat]
    refine atEach_concat.mpr ⟨ih, fun hn => ?_⟩
    by_cases hzero : l.coolDown = 0
    · simp [Quiet, hzero]
    · by_contra hquiet
      exact hn (by simp [grants, hzero, hquiet])

end Lockout

/-! ## What the holds cost -/

/-- In a log of rounds, each held or not and with what it has granted, the counter of the holds
decides which are held. -/
def HeldByCounter (n : ℕ) : List (Bool × ℕ) → Prop :=
  AtEach fun before round => round.1 = decide (0 < left n (before.map Prod.snd))

variable {n : ℕ} {log : List (Bool × ℕ)}

/-- **What the holds cost**: when a round grants something only at the end of a hold, exactly `n`
held rounds for each granting round, up to what is left. -/
theorem held_add_left (h : HeldByCounter n log)
    (hend : AtEach (fun before round => round.2 ≠ 0 → Quiet (n - 1) (before.map Prod.snd)) log) :
    log.countP Prod.fst + left n (log.map Prod.snd) = n * log.countP fun round => round.2 ≠ 0 := by
  induction log using List.reverseRecOn with
  | nil => simp
  | append_singleton log round ih =>
    obtain ⟨hlog, hround⟩ := atEach_concat.mp h
    obtain ⟨hlog', hround'⟩ := atEach_concat.mp hend
    have := ih hlog hlog'
    rw [List.countP_append, List.countP_append, List.map_append, List.map_singleton, left_concat,
      mul_add, List.countP_singleton, List.countP_singleton, hround]
    generalize n * log.countP (fun round => decide (round.2 ≠ 0)) = cost at this ⊢
    by_cases hgrant : round.2 = 0
    · by_cases hleft : 0 < left n (log.map Prod.snd) <;> simp [hgrant, hleft] <;> omega
    · have hlast : left n (log.map Prod.snd) ≤ 1 := left_le_iff.mpr (hround' hgrant)
      by_cases hleft : 0 < left n (log.map Prod.snd) <;> simp [hgrant, hleft] <;> omega

end TradingInfrastructure
