import Mathlib.Tactic.Common

/-!
# Links from one to all others

One of several numbered peers numbers the others by leaving itself out, and it
has a fixed number of links to each of them, one after the other.
-/

namespace SstElements.Library.AllToAll

open Nat

/-- The number of a peer among all peers but one. -/
def slot (my v : Nat) : Nat := v - (if my < v then 1 else 0)

@[simp]
theorem slot_zero (my : Nat) : slot my 0 = 0 :=
  Nat.zero_sub _

theorem slot_succ (my v : Nat) : slot my (v + 1) = if v = my then slot my v else slot my v + 1 := by
  unfold slot
  split <;> split <;> split <;> omega

theorem slot_lt {k my v : Nat} (hmy : my < k) (hv : v < k) (hne : v ≠ my) : slot my v < k - 1 := by
  unfold slot
  split <;> omega

/-- Two others of a row have two slots. -/
theorem slot_inj {my v v' : Nat} (hne : v ≠ my) (hne' : v' ≠ my) (heq : slot my v = slot my v') :
    v = v' := by
  unfold slot at heq
  split at heq <;> split at heq <;> omega

theorem exists_slot_eq {k my o : Nat} (ho : o < k - 1) : ∃ v < k, v ≠ my ∧ slot my v = o := by
  rcases Nat.lt_or_ge o my with hlt | hge
  · refine ⟨o, by omega, by omega, ?_⟩
    simp [slot, Nat.not_lt_of_gt hlt]
  · refine ⟨o + 1, by omega, by omega, ?_⟩
    simp [slot, lt_succ_of_le hge]

/-- The number of a link of the given width to a peer. -/
def linkIndex (width my v num : Nat) : Nat := slot my v * width + num

theorem linkIndex_lt {k width my v num : Nat} (hmy : my < k) (hv : v < k) (hne : v ≠ my)
    (hnum : num < width) :
    linkIndex width my v num < (k - 1) * width := by
  have hmul := mul_le_mul_right width (slot_lt hmy hv hne)
  rw [Nat.succ_mul] at hmul
  unfold linkIndex
  omega

/-- Two links of a member have two indices. -/
theorem linkIndex_inj {width my v v' num num' : Nat} (hne : v ≠ my) (hnum : num < width)
    (hne' : v' ≠ my) (hnum' : num' < width)
    (heq : linkIndex width my v num = linkIndex width my v' num') :
    v = v' ∧ num = num' := by
  unfold linkIndex at heq
  have hpos : 0 < width := zero_lt_of_lt hnum
  have hdiv := congrArg (· / width) heq
  simp only [Nat.mul_comm _ width, mul_add_div hpos,
    div_eq_of_lt hnum, div_eq_of_lt hnum', Nat.add_zero] at hdiv
  rw [hdiv] at heq
  exact ⟨slot_inj hne hne' hdiv, Nat.add_left_cancel heq⟩

section Listing

variable {α : Type}

/-- Links that are listed peer by peer, on ports counted up, get the ports of their numbers. -/
theorem mem_links (width my : Nat) (link : Nat → Nat → Nat → α) {links : Nat → Nat → Nat → List α}
    (hzero : ∀ v p, links 0 v p = [])
    (hsucc : ∀ n v p, links (n + 1) v p =
      if v ≠ my then
        (List.range width).map (fun num => link v num (p + num)) ++ links n (v + 1) (p + width)
      else
        links n (v + 1) p)
    {n v first : Nat} {a : α} :
    a ∈ links n v (first + slot my v * width) ↔
      ∃ w num, v ≤ w ∧ w < v + n ∧ w ≠ my ∧ num < width ∧
        a = link w num (first + linkIndex width my w num) := by
  induction n generalizing v with
  | zero =>
    simp only [hzero, List.not_mem_nil, false_iff]
    rintro ⟨w, num, h1, h2, -⟩
    omega
  | succ n ih =>
    have hrest := @ih (v + 1)
    rw [hsucc]
    split
    · rename_i hne
      rw [slot_succ, if_neg hne, Nat.succ_mul, ← Nat.add_assoc] at hrest
      rw [List.mem_append, hrest, List.mem_map]
      constructor
      · rintro (⟨num, hnum, rfl⟩ | ⟨w, num, h1, h2, hw⟩)
        · refine ⟨v, num, Nat.le_refl _, by omega, hne, List.mem_range.mp hnum, ?_⟩
          rw [linkIndex, Nat.add_assoc]
        · exact ⟨w, num, by omega, by omega, hw⟩
      · rintro ⟨w, num, h1, h2, hw, hnum, rfl⟩
        rcases Nat.eq_or_lt_of_le h1 with rfl | hlt
        · refine .inl ⟨num, List.mem_range.mpr hnum, ?_⟩
          rw [linkIndex, Nat.add_assoc]
        · exact .inr ⟨w, num, hlt, by omega, hw, hnum, rfl⟩
    · rename_i heq
      rw [slot_succ, if_pos (not_not.mp heq)] at hrest
      rw [hrest]
      constructor
      · rintro ⟨w, num, h1, h2, hw⟩
        exact ⟨w, num, by omega, by omega, hw⟩
      · rintro ⟨w, num, h1, h2, hw, hnum⟩
        exact ⟨w, num, by omega, by omega, hw, hnum⟩

end Listing

end SstElements.Library.AllToAll
