import Mathlib.Tactic

/-!
# Ways around a ring

The positions of a ring of `k` nodes are numbered from zero.  From one position
to another there is a way up, which may pass the end of the numbers, and a way
down.  A step in the shorter direction makes the way one shorter and does not
change the direction.
-/

namespace SstElements.Library.Ring

open Nat

/-- The number of steps upward from one position to another. -/
def distUp (k x q : Nat) : Nat := if x ≤ q then q - x else q + k - x

/-- The number of steps of the shorter way. -/
def dist (k x q : Nat) : Nat := min (distUp k x q) (distUp k q x)

/-- The way up is no longer than the way down. -/
def GoesUp (k x q : Nat) : Prop := distUp k x q ≤ distUp k q x

def next (k x : Nat) : Nat := (x + 1) % k

def prev (k x : Nat) : Nat := (x + k - 1) % k

variable {k x q : Nat}

theorem next_of_lt (h : x + 1 < k) : next k x = x + 1 :=
  mod_eq_of_lt h

theorem next_last (h : x + 1 = k) : next k x = 0 := by
  rw [next, h, mod_self]

theorem prev_of_pos (h : 0 < x) (hx : x < k) : prev k x = x - 1 := by
  have hsum : x + k - 1 = x - 1 + k := by omega
  rw [prev, hsum, add_mod_right, mod_eq_of_lt (by omega)]

theorem prev_zero (h : 0 < k) : prev k 0 = k - 1 := by
  rw [prev, zero_add, mod_eq_of_lt (by omega)]

theorem prev_next (hx : x < k) : prev k (next k x) = x := by
  rcases lt_or_ge (x + 1) k with h | h
  · rw [next_of_lt h, prev_of_pos (succ_pos x) h, succ_sub_one]
  · rw [next_last (by omega), prev_zero (by omega)]
    omega

theorem next_prev (hx : x < k) : next k (prev k x) = x := by
  rcases Nat.eq_zero_or_pos x with rfl | h
  · rw [prev_zero hx, next_last (by omega)]
  · rw [prev_of_pos h hx, next_of_lt (by omega)]
    omega

theorem next_ne (hx : x < k) (hk : 2 ≤ k) : next k x ≠ x := by
  rcases lt_or_ge (x + 1) k with h | h
  · rw [next_of_lt h]
    omega
  · rw [next_last (by omega)]
    omega

theorem prev_ne (hx : x < k) (hk : 2 ≤ k) : prev k x ≠ x := by
  rcases Nat.eq_zero_or_pos x with rfl | h
  · rw [prev_zero hx]
    omega
  · rw [prev_of_pos h hx]
    omega

@[simp]
theorem dist_self : dist k x x = 0 := by
  simp [dist, distUp]

section

variable (hx : x < k) (hq : q < k) (hne : x ≠ q)
include hx hq hne

theorem goesUp_next (hup : GoesUp k x q) : GoesUp k (next k x) q := by
  unfold GoesUp distUp at hup ⊢
  rcases lt_or_ge (x + 1) k with h | h
  · rw [next_of_lt h]
    split at hup <;> split at hup <;> split <;> split <;> omega
  · rw [next_last (by omega)]
    split at hup <;> split at hup <;> split <;> split <;> omega

end

theorem not_goesUp_prev (hx : x < k) (hq : q < k) (hdown : ¬ GoesUp k x q) (hne : prev k x ≠ q) :
    ¬ GoesUp k (prev k x) q := by
  unfold GoesUp distUp at hdown ⊢
  rcases Nat.eq_zero_or_pos x with rfl | h
  · rw [prev_zero hx] at hne ⊢
    split at hdown <;> split at hdown <;> split <;> split <;> omega
  · rw [prev_of_pos h hx] at hne ⊢
    split at hdown <;> split at hdown <;> split <;> split <;> omega

end SstElements.Library.Ring
