import Mathlib.Data.List.GetD
import Mathlib.Tactic

/-!
# Numbers in a mixed radix

The digits of a number in a list of radices, the least significant first, and
the number that a list of digits stands for.  The numbers below the product of
the radices correspond to the lists of digits below their radices.
-/

namespace SstElements.Library.MixedRadix

open List Nat

def digits : List Nat → Nat → List Nat
  | [], _ => []
  | s :: ss, n => n % s :: digits ss (n / s)

def value : List Nat → List Nat → Nat
  | s :: ss, x :: xs => x + s * value ss xs
  | _, _ => 0

/-- There is a digit for each radix, and it is below it. -/
def Fits (sizes xs : List Nat) : Prop := List.Forall₂ (fun x s => x < s) xs sizes

variable {sizes xs : List Nat} {d n s : Nat}

theorem Fits.length_eq (h : Fits sizes xs) : xs.length = sizes.length :=
  List.Forall₂.length_eq h

theorem Fits.getD_lt (h : Fits sizes xs) (hd : d < sizes.length) :
    xs.getD d 0 < sizes.getD d 0 := by
  have hd' : d < xs.length := h.length_eq ▸ hd
  rw [getD_eq_getElem _ _ hd, getD_eq_getElem _ _ hd']
  exact List.Forall₂.get h hd' hd

theorem Fits.set (h : Fits sizes xs) {v : Nat} (hv : v < sizes.getD d 0) :
    Fits sizes (xs.set d v) := by
  induction h generalizing d with
  | nil => simp at hv
  | @cons x s xs ss hx hxs ih =>
    cases d with
    | zero => exact .cons (by simpa using hv) hxs
    | succ d => exact .cons hx (ih (by simpa using hv))

theorem digits_fits (hpos : ∀ s ∈ sizes, 0 < s) (n : Nat) : Fits sizes (digits sizes n) := by
  induction sizes generalizing n with
  | nil => exact .nil
  | cons s ss ih =>
    exact .cons (mod_lt _ (hpos s (by simp)))
      (ih (fun t ht => hpos t (by simp [ht])) _)

/-- The digits of a number have its value. -/
theorem value_digits (hn : n < sizes.prod) : value sizes (digits sizes n) = n := by
  induction sizes generalizing n with
  | nil =>
    rw [prod_nil] at hn
    simp only [value]
    omega
  | cons s ss ih =>
    rw [digits, value, ih (Nat.div_lt_of_lt_mul hn)]
    exact mod_add_div n s

theorem value_lt (h : Fits sizes xs) : value sizes xs < sizes.prod := by
  induction h with
  | nil => simp [value]
  | @cons x s xs ss hx _ ih =>
    rw [value, prod_cons]
    have hmul := mul_le_mul_left s ih
    rw [Nat.mul_succ] at hmul
    omega

/-- The value of digits that fit has these digits. -/
theorem digits_value (h : Fits sizes xs) : digits sizes (value sizes xs) = xs := by
  induction h with
  | nil => rfl
  | @cons x s xs ss hx _ ih =>
    have hs : 0 < s := by omega
    rw [value, digits, add_mul_mod_self_left, mod_eq_of_lt hx,
      add_mul_div_left _ _ hs, div_eq_of_lt hx, zero_add, ih]

theorem digits_concat (sizes : List Nat) (s n : Nat) :
    digits (sizes ++ [s]) n = digits sizes n ++ [n / sizes.prod % s] := by
  induction sizes generalizing n with
  | nil => simp [digits]
  | cons t ts ih =>
    simp only [cons_append, digits, ih, prod_cons, Nat.div_div_eq_div_mul]

theorem digits_mod (sizes : List Nat) (n : Nat) :
    digits sizes (n % sizes.prod) = digits sizes n := by
  induction sizes generalizing n with
  | nil => rfl
  | cons s ss ih =>
    rw [digits, digits, prod_cons, mod_mul_right_mod, mod_mul_right_div_self, ih]

theorem eq_digit_add_iff {x q : Nat} (hx : x < s) : n = x + s * q ↔ n % s = x ∧ n / s = q := by
  constructor
  · rintro rfl
    rw [add_mul_mod_self_left, mod_eq_of_lt hx, add_mul_div_left _ _ (by omega),
      div_eq_of_lt hx, zero_add]
    exact ⟨rfl, rfl⟩
  · rintro ⟨rfl, rfl⟩
    exact (mod_add_div n s).symm

theorem succ_div_eq (hs : 0 < s) (n : Nat) :
    (n + 1) / s = if n % s + 1 = s then n / s + 1 else n / s := by
  have hlt := mod_lt n hs
  have hn := mod_add_div n s
  split
  next hwrap =>
      refine ((eq_digit_add_iff hs).1 ?_).2
      rw [Nat.mul_succ]
      omega
  next hwrap =>
      refine ((eq_digit_add_iff (x := n % s + 1) (by omega)).1 ?_).2
      omega

end SstElements.Library.MixedRadix
