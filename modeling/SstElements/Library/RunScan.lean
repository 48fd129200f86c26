import Mathlib.Tactic

/-!
# Maximal runs of a predicate on an interval

`runsFrom p n i start size` scans `p` over `[i, i + n)` and lists the maximal
runs as pairs of a first element and a length.  The pair `(start, size)` is the
run that is still open when the scan reaches `i`; `size = 0` means that no run
is open.

The second half treats predicates that are periodic between two bounds: such a
predicate is determined by one window of a period, so the runs of the window,
repeated with that period, describe it completely.
-/

namespace SstElements.Library

open Nat

section RunScan

variable (p : Nat → Bool)

def runsFrom : Nat → Nat → Nat → Nat → List (Nat × Nat)
  | 0, _, start, size =>
    if size = 0 then [] else [(start, size)]
  | n + 1, i, start, size =>
    if p i then
      runsFrom n (i + 1) (if size = 0 then i else start) (size + 1)
    else if size = 0 then
      runsFrom n (i + 1) start 0
    else
      (start, size) :: runsFrom n (i + 1) start 0

def OpenRun (i start size : Nat) : Prop := size = 0 ∨ start + size = i

variable {p}

theorem OpenRun.extend {i start size : Nat} (h : OpenRun i start size) :
    OpenRun (i + 1) (if size = 0 then i else start) (size + 1) := by
  right
  rcases h with h | h
  · simp [h]
  · split <;> omega

theorem runsFrom_succ_of_mem {i : Nat} (n start size : Nat) (hp : p i = true) :
    runsFrom p (n + 1) i start size =
      runsFrom p n (i + 1) (if size = 0 then i else start) (size + 1) := by
  simp [runsFrom, hp]

theorem runsFrom_succ_of_not_mem_closed {i : Nat} (n start : Nat) (hp : p i = false) :
    runsFrom p (n + 1) i start 0 = runsFrom p n (i + 1) start 0 := by
  simp [runsFrom, hp]

theorem runsFrom_succ_of_not_mem_open {i size : Nat} (n start : Nat) (hp : p i = false)
    (hsize : size ≠ 0) :
    runsFrom p (n + 1) i start size = (start, size) :: runsFrom p n (i + 1) start 0 := by
  simp [runsFrom, hp, hsize]

/-- A scan's runs are made of the positions that satisfy the test. -/
theorem mem_runsFrom_iff (n i start size j : Nat) (hopen : OpenRun i start size) :
    (∃ r ∈ runsFrom p n i start size, r.1 ≤ j ∧ j < r.1 + r.2)
      ↔ (size ≠ 0 ∧ start ≤ j ∧ j < i) ∨ (i ≤ j ∧ j < i + n ∧ p j = true) := by
  induction n generalizing i start size with
  | zero =>
    unfold OpenRun at hopen
    by_cases hsize : size = 0
    · simp [runsFrom, hsize]
      omega
    · simp [runsFrom, hsize]
      omega
  | succ n ih =>
    -- the element scanned now is the only one on which both sides can differ
    have hnext :
        ∀ q : Prop, (j = i → (q ↔ p i = true)) →
          ((i ≤ j ∧ j < i + (n + 1) ∧ p j = true) ↔
            (j = i ∧ q) ∨ (i + 1 ≤ j ∧ j < i + 1 + n ∧ p j = true)) := by
      intro q hq
      by_cases hji : j = i
      · subst hji
        simp [hq rfl]
      · have h₁ : i ≤ j ↔ i + 1 ≤ j := by omega
        have h₂ : j < i + (n + 1) ↔ j < i + 1 + n := by omega
        simp [hji, h₁, h₂]
    cases hp : p i with
    | true =>
      rw [runsFrom_succ_of_mem n start size hp, ih _ _ _ hopen.extend,
        hnext True (by simp [hp])]
      have hleft :
          (size + 1 ≠ 0 ∧ (if size = 0 then i else start) ≤ j ∧ j < i + 1)
            ↔
          (size ≠ 0 ∧ start ≤ j ∧ j < i) ∨ j = i := by
        unfold OpenRun at hopen
        split <;> omega
      rw [hleft, and_true, or_assoc]
    | false =>
      rw [hnext False (by simp [hp])]
      by_cases hsize : size = 0
      · subst hsize
        rw [runsFrom_succ_of_not_mem_closed n start hp, ih _ _ _ (.inl rfl)]
        simp
      · have hend : start + size = i := hopen.resolve_left hsize
        rw [runsFrom_succ_of_not_mem_open n start hp hsize]
        simp only [List.mem_cons, exists_eq_or_imp, ih _ _ _ (.inl rfl), hend]
        simp [hsize]

theorem mem_runsFrom_closed_iff (n i start j : Nat) :
    (∃ r ∈ runsFrom p n i start 0, r.1 ≤ j ∧ j < r.1 + r.2)
      ↔ i ≤ j ∧ j < i + n ∧ p j = true := by
  rw [mem_runsFrom_iff n i start 0 j (.inl rfl)]
  simp

theorem bounds_of_mem_runsFrom {n i start size : Nat} {r : Nat × Nat} (hopen : OpenRun i start size)
    (hr : r ∈ runsFrom p n i start size) :
    (if size = 0 then i else start) ≤ r.1 ∧ r.2 ≠ 0 ∧ r.1 + r.2 ≤ i + n := by
  induction n generalizing i start size with
  | zero =>
    by_cases hsize : size = 0
    · simp [runsFrom, hsize] at hr
    · have hend : start + size = i := hopen.resolve_left hsize
      simp only [runsFrom, hsize, if_false, List.mem_singleton] at hr
      subst hr
      simp only [hsize, if_false]
      omega
  | succ n ih =>
    cases hp : p i with
    | true =>
      rw [runsFrom_succ_of_mem n start size hp] at hr
      have h := ih hopen.extend hr
      simp only [succ_ne_zero, if_false] at h
      omega
    | false =>
      by_cases hsize : size = 0
      · subst hsize
        rw [runsFrom_succ_of_not_mem_closed n start hp] at hr
        have h := ih (.inl rfl) hr
        simp only [if_true] at h ⊢
        omega
      · have hend : start + size = i := hopen.resolve_left hsize
        rw [runsFrom_succ_of_not_mem_open n start hp hsize, List.mem_cons] at hr
        rcases hr with rfl | hr
        · simp only [hsize, if_false]
          omega
        · have h := ih (.inl rfl) hr
          simp only [hsize, if_true, if_false] at h ⊢
          omega

end RunScan

section PeriodicWindow

variable {P : Nat → Prop} {lo hi L : Nat}

/-- `P` lives on `[lo, hi]` and repeats with period `L` inside it. -/
structure PeriodicOn (P : Nat → Prop) (lo hi L : Nat) : Prop where
  bounds : ∀ x, P x → lo ≤ x ∧ x ≤ hi
  shift : ∀ x k, lo ≤ x → x + k * L ≤ hi → (P (x + k * L) ↔ P x)

section

variable (h : PeriodicOn P lo hi L)
include h

theorem PeriodicOn.exists_window (hL : 0 < L) {x : Nat} (hx : P x) :
    P (lo + (x - lo) % L) ∧ lo + (x - lo) % L < lo + L := by
  have hb := h.bounds x hx
  have hmod : (x - lo) % L < L := mod_lt _ hL
  have hdiv : (x - lo) % L + (x - lo) / L * L = x - lo := mod_add_div' (x - lo) L
  have hsplit : lo + (x - lo) % L + (x - lo) / L * L = x := by omega
  refine ⟨?_, by omega⟩
  refine (h.shift _ ((x - lo) / L) (by omega) (by omega)).1 ?_
  rwa [hsplit]

/--
A run `[s, s + l)` of the first window, repeated with the period up to the end
of the predicate, consists of elements of the predicate.
-/
theorem PeriodicOn.mem_of_run {s l x : Nat} (hrun : ∀ j, s ≤ j → j < s + l → P j)
    (hsx : s ≤ x) (hxhi : x ≤ hi) (hmod : (x - s) % L < l) :
    P x := by
  have hdiv : (x - s) % L + (x - s) / L * L = x - s := mod_add_div' (x - s) L
  have hsplit : s + (x - s) % L + (x - s) / L * L = x := by omega
  have hbase : P (s + (x - s) % L) := hrun _ (by omega) (by omega)
  have hlo := (h.bounds _ hbase).1
  rw [← hsplit]
  exact (h.shift _ _ hlo (by omega)).2 hbase

/--
A periodic predicate is the union of the runs of its first window, each
repeated with the period.
-/
theorem PeriodicOn.iff_exists_run (hL : 0 < L) {p : Nat → Bool} (hp : ∀ x, p x = true ↔ P x)
    (start x : Nat) :
    (∃ r ∈ runsFrom p L lo start 0, r.1 ≤ x ∧ x ≤ hi ∧ (x - r.1) % L < r.2)
      ↔ P x := by
  constructor
  · rintro ⟨r, hr, hle, hhi, hmod⟩
    refine h.mem_of_run (s := r.1) (l := r.2) ?_ hle hhi hmod
    intro j hj₁ hj₂
    have hj := (mem_runsFrom_closed_iff L lo start j).1 ⟨r, hr, hj₁, hj₂⟩
    exact (hp j).1 hj.2.2
  · intro hx
    have hb := h.bounds x hx
    obtain ⟨hwin, hlt⟩ := h.exists_window hL hx
    obtain ⟨r, hr, hr₁, hr₂⟩ :=
      (mem_runsFrom_closed_iff L lo start (lo + (x - lo) % L)).2
        ⟨by omega, hlt, (hp _).2 hwin⟩
    have hr₃ := bounds_of_mem_runsFrom (.inl rfl) hr
    simp only [if_true] at hr₃
    have hdiv : (x - lo) % L + (x - lo) / L * L = x - lo := mod_add_div' (x - lo) L
    -- the distance to the run's start is the offset in the run plus whole periods
    have hdist :
        x - r.1 = (lo + (x - lo) % L - r.1) + (x - lo) / L * L := by
      omega
    refine ⟨r, hr, by omega, hb.2, ?_⟩
    rw [hdist, add_mul_mod_self_right, mod_eq_of_lt (by omega)]
    omega

theorem PeriodicOn.exists_iff_window (hL : 0 < L) :
    (∃ x, P x) ↔ ∃ j, lo ≤ j ∧ j < lo + L ∧ P j := by
  constructor
  · rintro ⟨x, hx⟩
    obtain ⟨hwin, hlt⟩ := h.exists_window hL hx
    exact ⟨_, by omega, hlt, hwin⟩
  · rintro ⟨j, -, -, hj⟩
    exact ⟨j, hj⟩

end

end PeriodicWindow

end SstElements.Library
