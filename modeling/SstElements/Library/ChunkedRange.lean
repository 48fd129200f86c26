import Mathlib.Tactic

/-!
# Chunked ranges of natural numbers

From zero on, every `step` numbers a chunk of `size` numbers is selected.
`rank` counts the selected numbers below a selected number, `unrank` lists the
selected numbers in order, and `countBelow` counts those below any bound.  The chunk
starts the step, or is any aligned window of it.
-/

namespace SstElements.Library.Chunked

open Nat

/-- The number lies in the selected part of its step. -/
def InChunk (size step x : Nat) : Prop := x % step < size

/-- Position of a selected number among the selected ones. -/
def rank (size step x : Nat) : Nat := x / step * size + x % step

/-- The selected number at a position. -/
def unrank (size step k : Nat) : Nat := k / size * step + k % size

/-- Number of selected numbers below a bound. -/
def countBelow (size step n : Nat) : Nat := n / step * size + min (n % step) size

variable {x : Nat}

section Chunks

variable {size step : Nat}

section

variable (hsize : 0 < size) (hstep : size ≤ step)
include hsize hstep

theorem unrank_mod_lt (k : Nat) : k % size < step :=
  lt_of_lt_of_le (mod_lt k hsize) hstep

theorem unrank_div (k : Nat) : unrank size step k / step = k / size := by
  have hpos : 0 < step := lt_of_lt_of_le hsize hstep
  unfold unrank
  rw [mul_comm, mul_add_div hpos, div_eq_of_lt (unrank_mod_lt hsize hstep k), add_zero]

theorem unrank_mod (k : Nat) : unrank size step k % step = k % size := by
  unfold unrank
  rw [mul_comm, mul_add_mod, mod_eq_of_lt (unrank_mod_lt hsize hstep k)]

theorem inChunk_unrank (k : Nat) : InChunk size step (unrank size step k) := by
  unfold InChunk
  rw [unrank_mod hsize hstep]
  exact mod_lt k hsize

theorem rank_unrank (k : Nat) : rank size step (unrank size step k) = k := by
  unfold rank
  rw [unrank_div hsize hstep, unrank_mod hsize hstep, mul_comm]
  exact div_add_mod k size

end

/-- Ranks number the addresses inside chunks. -/
theorem unrank_rank (hx : InChunk size step x) :
    unrank size step (rank size step x) = x := by
  have hsize : 0 < size := zero_lt_of_lt hx
  unfold unrank rank
  rw [mul_comm (x / step) size, mul_add_div hsize, mul_add_mod,
    div_eq_of_lt hx, mod_eq_of_lt hx, add_zero, mul_comm]
  exact div_add_mod x step

/-- The addresses below a bound are those of the first ranks. -/
theorem unrank_lt_iff (hsize : 0 < size) (hstep : size ≤ step) (k n : Nat) :
    unrank size step k < n ↔ k < countBelow size step n := by
  have hpos : 0 < step := lt_of_lt_of_le hsize hstep
  have hk := mod_lt k hsize
  have hn := mod_lt n hpos
  have hk' : k / size * size + k % size = k := by
    rw [mul_comm]
    exact div_add_mod k size
  have hn' : n / step * step + n % step = n := by
    rw [mul_comm]
    exact div_add_mod n step
  unfold unrank countBelow
  rcases lt_trichotomy (k / size) (n / step) with hlt | heq | hgt
  · -- The position lies in an earlier step than the bound.
    have h₁ : (k / size + 1) * step ≤ n / step * step := mul_le_mul_right step hlt
    have h₂ : (k / size + 1) * size ≤ n / step * size := mul_le_mul_right size hlt
    rw [Nat.succ_mul] at h₁ h₂
    constructor <;> intro _ <;> omega
  · rw [← heq] at hn' ⊢
    constructor <;> intro _ <;> omega
  · have h₁ : (n / step + 1) * step ≤ k / size * step := mul_le_mul_right step hgt
    have h₂ : (n / step + 1) * size ≤ k / size * size := mul_le_mul_right size hgt
    rw [Nat.succ_mul] at h₁ h₂
    constructor <;> intro _ <;> omega

theorem rank_lt_countBelow_iff (hsize : 0 < size) (hstep : size ≤ step) (hx : InChunk size step x)
    (n : Nat) :
    rank size step x < countBelow size step n ↔ x < n := by
  rw [← unrank_lt_iff hsize hstep, unrank_rank hx]

theorem countBelow_eq_rank (hx : InChunk size step x) :
    countBelow size step x = rank size step x := by
  unfold countBelow rank
  rw [min_eq_left (le_of_lt hx)]

theorem rank_lt_rank_iff (hsize : 0 < size) (hstep : size ≤ step) {x y : Nat}
    (hx : InChunk size step x) (hy : InChunk size step y) :
    rank size step x < rank size step y ↔ x < y := by
  rw [← countBelow_eq_rank hy, rank_lt_countBelow_iff hsize hstep hx]

theorem countBelow_mono (hsize : 0 < size) (hstep : size ≤ step) {m n : Nat} (h : m ≤ n) :
    countBelow size step m ≤ countBelow size step n := by
  by_contra hlt
  have hbelow := (unrank_lt_iff hsize hstep _ _).2 (not_le.1 hlt)
  exact lt_irrefl _
    ((unrank_lt_iff hsize hstep _ _).1 (lt_of_lt_of_le hbelow h))

theorem rank_le (hstep : size ≤ step) (x : Nat) : rank size step x ≤ x := by
  unfold rank
  calc
    x / step * size + x % step ≤ x / step * step + x % step :=
        Nat.add_le_add_right (mul_le_mul_left _ hstep) _
    _ = x := by
        rw [mul_comm]
        exact div_add_mod x step

theorem countBelow_mul (hpos : 0 < step) (k : Nat) :
    countBelow size step (k * step) = k * size := by
  unfold countBelow
  rw [Nat.mul_div_cancel k hpos, mul_mod_left, Nat.zero_min, add_zero]

theorem mod_add_of_chunk (hstep : size ≤ step) {x i : Nat} (h : x % step + i < size) :
    (x + i) % step = x % step + i := by
  have hi : i % step = i := mod_eq_of_lt (by omega)
  rw [add_mod_of_add_mod_lt (by omega), hi]

theorem rank_add_of_chunk (hstep : size ≤ step) {x i : Nat} (h : x % step + i < size) :
    rank size step (x + i) = rank size step x + i := by
  have hi : i % step = i := mod_eq_of_lt (by omega)
  have hdiv : i / step = 0 := div_eq_of_lt (by omega)
  unfold rank
  rw [mod_add_of_chunk hstep h, add_div_eq_of_add_mod_lt (by omega), hdiv,
    add_zero, add_assoc]

end Chunks

/-- The number lies in the aligned window `w` of `size` numbers of its step. -/
def InWindow (size step w x : Nat) : Prop := x % step / size = w
deriving Decidable

section Windows

variable {size step w : Nat}

theorem inWindow_iff (hsize : 0 < size) :
    InWindow size step w x ↔ w * size ≤ x % step ∧ x % step < (w + 1) * size := by
  unfold InWindow
  rw [Nat.div_eq_iff hsize, Nat.succ_mul]
  omega

theorem inWindow_add_mul (q x : Nat) :
    InWindow size step w (q * step + x) ↔ InWindow size step w x := by
  unfold InWindow
  rw [mul_comm, mul_add_mod]

theorem count_inWindow_of_le (hsize : 0 < size) {r : Nat} (hr : r ≤ step) :
    Nat.count (InWindow size step w) r = min (r - w * size) size := by
  induction r with
  | zero =>
    simp
  | succ r ih =>
    have hmod : r % step = r := mod_eq_of_lt hr
    have hcount := ih (by omega)
    simp only [count_succ, hcount, inWindow_iff hsize, hmod, Nat.succ_mul]
    split <;> omega

theorem count_inWindow_mul (hsize : 0 < size) (hw : (w + 1) * size ≤ step) (q : Nat) :
    Nat.count (InWindow size step w) (q * step) = q * size := by
  induction q with
  | zero =>
    simp
  | succ q ih =>
    have hone :
        Nat.count (fun x => InWindow size step w (q * step + x)) step =
          size := by
      simp only [inWindow_add_mul]
      rw [count_inWindow_of_le hsize le_rfl]
      rw [Nat.succ_mul] at hw
      omega
    rw [Nat.succ_mul, Nat.count_add, ih, hone, Nat.succ_mul]

/-- How many addresses below a bound a window has. -/
theorem count_inWindow (hsize : 0 < size) (hw : (w + 1) * size ≤ step) (n : Nat) :
    Nat.count (InWindow size step w) n = n / step * size + min (n % step - w * size) size := by
  have hpos : 0 < step := lt_of_lt_of_le (Nat.mul_pos (succ_pos w) hsize) hw
  have hsplit : n / step * step + n % step = n := by
    rw [mul_comm]
    exact div_add_mod n step
  have hrest :
      Nat.count
          (fun x => InWindow size step w (n / step * step + x)) (n % step) =
        min (n % step - w * size) size := by
    simp only [inWindow_add_mul]
    exact count_inWindow_of_le hsize (mod_lt n hpos).le
  calc
    Nat.count (InWindow size step w) n =
        Nat.count (InWindow size step w) (n / step * step + n % step) := by
        rw [hsplit]
    _ = n / step * size + min (n % step - w * size) size := by
        rw [Nat.count_add, count_inWindow_mul hsize hw, hrest]

theorem window_le_of_mem (hdvd : size ∣ step) (hpos : 0 < step) (hx : InWindow size step w x) :
    (w + 1) * size ≤ step := by
  obtain ⟨k, rfl⟩ := hdvd
  have hlt : x % (size * k) / size < k := Nat.div_lt_of_lt_mul (mod_lt x hpos)
  rw [mul_comm size k]
  exact mul_le_mul_right size (hx ▸ hlt)

/--
Quotient by the step and remainder by the size, without the remainder by the
step, give the position of a number in its window.
-/
theorem count_inWindow_eq (hsize : 0 < size) (hdvd : size ∣ step) (hpos : 0 < step)
    (hx : InWindow size step w x) :
    Nat.count (InWindow size step w) x = x / step * size + x % size := by
  have hmem := (inWindow_iff hsize).1 hx
  have hmod : x % size = x % step - w * size := by
    rw [← mod_mod_of_dvd x hdvd, mod_eq_sub_mul_div, hx, mul_comm]
  rw [count_inWindow hsize (window_le_of_mem hdvd hpos hx), hmod]
  rw [Nat.succ_mul] at hmem
  rw [min_eq_left (by omega)]

end Windows
end SstElements.Library.Chunked
