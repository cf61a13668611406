import Mathlib.Tactic
import Mathlib.Logic.Function.Basic

/-!
# Messages to receivers that close

Messages wait in line for receivers, each named by a key. A message is taken by its receiver when
that is still open, and a last message closes its receiver; what comes for a closed receiver is
discarded. `taken` is what the messages in line will have delivered once all are out, and `after`
the receivers that will then be open.

The rules say how both change when a message joins the line, when a receiver opens for which none
is in line, and when a receiver is closed from outside.
-/

namespace TradingInfrastructure

namespace Inbox

variable {κ μ : Type*} [DecidableEq κ] (dest : μ → κ) (last : μ → Bool)

/-- The open receivers after a message. -/
def close (isOpen : κ → Bool) (u : μ) : κ → Bool :=
  if last u then Function.update isOpen (dest u) false else isOpen

/-- The open receivers after all messages. -/
def after (isOpen : κ → Bool) (us : List μ) : κ → Bool := us.foldl (close dest last) isOpen

/-- The messages that are taken. -/
def taken : (κ → Bool) → List μ → List μ
  | _, [] => []
  | isOpen, u :: us =>
    if isOpen (dest u) then u :: taken (close dest last isOpen u) us
    else taken (close dest last isOpen u) us

variable {dest last} {isOpen : κ → Bool} {k : κ}

@[simp] theorem after_nil : after dest last isOpen [] = isOpen := rfl

@[simp] theorem taken_nil : taken dest last isOpen [] = [] := rfl

theorem after_append (us vs : List μ) :
    after dest last isOpen (us ++ vs) = after dest last (after dest last isOpen us) vs :=
  List.foldl_append ..

/-- A message for a closed receiver closes none. -/
theorem close_of_closed {u : μ} (h : isOpen (dest u) = false) :
    close dest last isOpen u = isOpen := by
  unfold close
  split
  · rw [← h, Function.update_eq_self]
  · rfl

theorem taken_append (us vs : List μ) :
    taken dest last isOpen (us ++ vs) =
      taken dest last isOpen us ++ taken dest last (after dest last isOpen us) vs := by
  induction us generalizing isOpen with
  | nil => rfl
  | cons u us ih =>
    simp only [List.cons_append, taken, after, List.foldl_cons]
    rw [ih]
    split <;> rfl

/-- A message that joins the line is taken when its receiver will then be open. -/
theorem taken_append_singleton (us : List μ) (u : μ) :
    taken dest last isOpen (us ++ [u]) =
      taken dest last isOpen us ++ if after dest last isOpen us (dest u) then [u] else [] := by
  rw [taken_append]
  rfl

theorem close_update_of_ne {u : μ} (h : dest u ≠ k) (v : Bool) :
    close dest last (Function.update isOpen k v) u =
      Function.update (close dest last isOpen u) k v := by
  unfold close
  split
  · exact Function.update_comm h.symm _ _ _
  · rfl

/-- A receiver that opens while no message for it is in line. -/
theorem after_open {us : List μ} (h : ∀ u ∈ us, dest u ≠ k) (v : Bool) :
    after dest last (Function.update isOpen k v) us =
      Function.update (after dest last isOpen us) k v := by
  induction us generalizing isOpen with
  | nil => rfl
  | cons u us ih =>
    simp only [after, List.foldl_cons]
    rw [close_update_of_ne (h u (by simp))]
    exact ih fun w hw => h w (by simp [hw])

theorem taken_open {us : List μ} (h : ∀ u ∈ us, dest u ≠ k) (v : Bool) :
    taken dest last (Function.update isOpen k v) us = taken dest last isOpen us := by
  induction us generalizing isOpen with
  | nil => rfl
  | cons u us ih =>
    have hu : dest u ≠ k := h u (by simp)
    simp only [taken, Function.update_of_ne hu, close_update_of_ne hu]
    rw [ih fun w hw => h w (by simp [hw])]

/-- A receiver closed from outside stays closed. -/
theorem after_shut (us : List μ) :
    after dest last (Function.update isOpen k false) us =
      Function.update (after dest last isOpen us) k false := by
  induction us generalizing isOpen with
  | nil => rfl
  | cons u us ih =>
    simp only [after, List.foldl_cons]
    rw [← after, ← after, ← ih]
    congr 1
    unfold close
    split
    · by_cases hk : dest u = k
      · subst hk
        simp
      · exact Function.update_comm (Ne.symm hk) _ _ _
    · rfl

/-- What is in line for a receiver closed from outside is discarded. -/
theorem taken_shut (us : List μ) :
    taken dest last (Function.update isOpen k false) us =
      (taken dest last isOpen us).filter fun u => dest u ≠ k := by
  induction us generalizing isOpen with
  | nil => rfl
  | cons u us ih =>
    have hclose : close dest last (Function.update isOpen k false) u =
        Function.update (close dest last isOpen u) k false :=
      after_shut [u]
    simp only [taken, hclose, ih]
    by_cases hk : dest u = k
    · subst hk
      split <;> split <;> simp_all
    · rw [Function.update_of_ne hk]
      split <;> simp [hk]

end Inbox

end TradingInfrastructure
