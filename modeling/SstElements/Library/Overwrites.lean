import Mathlib.Algebra.BigOperators.Group.Finset.Basic
import Mathlib.Algebra.Order.BigOperators.Group.Finset
import Mathlib.Tactic.Abel

/-!
# Tables under a sequence of writes

A table is a function from keys to values.  A list of writes replaces values one
after the other; what the table holds and what the writes displaced is together
what the table held and what was written.  Sums over a table follow the entry
that changes.
-/

namespace SstElements.Library

section Tables

open Function List

universe u v

section Overwrites

variable {κ : Type u} {α : Type v}
variable [DecidableEq κ]

/-- The table after the writes. -/
def overwrite (table : κ → α) : List (κ × α) → κ → α
  | [] => table
  | w :: rest => overwrite (update table w.1 w.2) rest

/-- The values that the writes replace. -/
def displaced (table : κ → α) : List (κ × α) → List α
  | [] => []
  | w :: rest => table w.1 :: displaced (update table w.1 w.2) rest

variable {table table' : κ → α} {writes writes' : List (κ × α)}

@[simp] theorem overwrite_nil : overwrite table [] = table := by rfl

theorem overwrite_append :
    overwrite table (writes ++ writes') = overwrite (overwrite table writes) writes' := by
  induction writes generalizing table with
  | nil =>
    rfl
  | cons w rest ih =>
    exact ih

variable {k : κ}

theorem overwrite_of_notMem (hk : k ∉ writes.map Prod.fst) :
    overwrite table writes k = table k := by
  induction writes generalizing table with
  | nil =>
    rfl
  | cons w rest ih =>
    rw [map_cons, mem_cons, not_or] at hk
    rw [overwrite, ih hk.2, update_of_ne hk.1]

/-- What is written does not depend on the table. -/
theorem overwrite_of_mem (hk : k ∈ writes.map Prod.fst) :
    ∃ v, (k, v) ∈ writes ∧ ∀ table : κ → α, overwrite table writes k = v := by
  induction writes with
  | nil =>
    simp at hk
  | cons w rest ih =>
    by_cases hrest : k ∈ rest.map Prod.fst
    · obtain ⟨v, hv, hall⟩ := ih hrest
      exact ⟨v, mem_cons_of_mem _ hv, fun table => hall _⟩
    · have hw : w.1 = k := by
        rcases mem_cons.1 hk with hw | hw
        · exact hw.symm
        · exact absurd hw hrest
      subst hw
      refine ⟨w.2, by simp, fun table => ?_⟩
      rw [overwrite, overwrite_of_notMem hrest, update_self]

theorem overwrite_comm (hdisjoint : ∀ k ∈ writes.map Prod.fst, k ∉ writes'.map Prod.fst) :
    overwrite (overwrite table writes) writes' = overwrite (overwrite table writes') writes := by
  funext k
  by_cases hk : k ∈ writes.map Prod.fst
  · obtain ⟨v, -, hall⟩ := overwrite_of_mem hk
    rw [overwrite_of_notMem (hdisjoint k hk), hall, hall]
  · have hlast : overwrite (overwrite table writes') writes k =
        overwrite table writes' k := overwrite_of_notMem hk
    rw [hlast]
    by_cases hk' : k ∈ writes'.map Prod.fst
    · obtain ⟨v, -, hall⟩ := overwrite_of_mem hk'
      rw [hall, hall]
    · rw [overwrite_of_notMem hk', overwrite_of_notMem hk', overwrite_of_notMem hk]

theorem overwrite_overwrite_self :
    overwrite (overwrite table writes) writes = overwrite table writes := by
  funext k
  by_cases hk : k ∈ writes.map Prod.fst
  · obtain ⟨v, -, hall⟩ := overwrite_of_mem hk
    rw [hall, hall]
  · rw [overwrite_of_notMem hk]

theorem exists_overwrite_of_ne_nil (hne : writes ≠ []) :
    ∃ w ∈ writes, overwrite table writes w.1 = w.2 := by
  obtain ⟨w, rest, rfl⟩ := exists_cons_of_ne_nil hne
  have hw : w.1 ∈ (w :: rest).map Prod.fst := by simp
  obtain ⟨v, hv, hall⟩ := overwrite_of_mem hw
  exact ⟨(w.1, v), hv, hall table⟩

theorem map_update_add {keys : Multiset κ} {k : κ} {v : α} (hnodup : keys.Nodup) (hk : k ∈ keys) :
    keys.map (update table k v) + {table k} = keys.map table + {v} := by
  obtain ⟨rest, rfl⟩ := Multiset.exists_cons_of_mem hk
  have hrest : rest.map (update table k v) = rest.map table := by
    refine Multiset.map_congr rfl fun x hx => update_of_ne ?_ _ _
    rintro rfl
    exact (Multiset.nodup_cons.1 hnodup).1 hx
  rw [Multiset.map_cons, Multiset.map_cons, update_self, hrest,
    ← Multiset.singleton_add, ← Multiset.singleton_add]
  abel

/-- Writes to distinct keys trade the displaced values for the new ones. -/
theorem map_overwrite_add {keys : Multiset κ} (hnodup : keys.Nodup)
    (hkeys : ∀ w ∈ writes, w.1 ∈ keys) :
    keys.map (overwrite table writes) + (displaced table writes : Multiset α) =
      keys.map table + (writes.map Prod.snd : Multiset α) := by
  induction writes generalizing table with
  | nil =>
    rfl
  | cons w rest ih =>
    have hrest := @ih (update table w.1 w.2)
      (fun x hx => hkeys x (mem_cons_of_mem _ hx))
    have hw := @map_update_add _ _ _ table keys w.1 w.2 hnodup
      (hkeys w mem_cons_self)
    calc
      keys.map (overwrite table (w :: rest)) +
          (displaced table (w :: rest) : Multiset α)
        = (keys.map (overwrite (update table w.1 w.2) rest) +
            (displaced (update table w.1 w.2) rest : Multiset α)) +
            {table w.1} := by
          rw [displaced, ← Multiset.cons_coe, ← Multiset.singleton_add, overwrite]
          abel
      _ = keys.map table + ((w :: rest).map Prod.snd : Multiset α) := by
          rw [hrest, add_right_comm, hw, map_cons, ← Multiset.cons_coe,
            ← Multiset.singleton_add, add_assoc]

theorem overwrite_map {β : Type*} (g : α → β) (k : κ) :
    overwrite (fun x => g (table x)) (writes.map fun w => (w.1, g w.2)) k =
      g (overwrite table writes k) := by
  induction writes generalizing table with
  | nil =>
    rfl
  | cons w rest ih =>
    have hupdate : update (fun x => g (table x)) w.1 (g w.2) =
        fun x => g (update table w.1 w.2 x) := by
      funext x
      by_cases hx : x = w.1
      · subst hx
        simp
      · simp [update_of_ne hx]
    rw [map_cons, overwrite, overwrite, hupdate]
    exact ih

theorem overwrite_filter {p : κ → Bool} (hk : p k = true) :
    overwrite table (writes.filter fun w => p w.1) k = overwrite table writes k := by
  induction writes generalizing table with
  | nil =>
    rfl
  | cons w rest ih =>
    rw [filter_cons]
    by_cases hw : p w.1 = true
    · rw [if_pos hw, overwrite, overwrite, ih]
    · rw [if_neg hw, overwrite, ih]
      have hne : k ≠ w.1 := fun heq => hw (heq ▸ hk)
      by_cases hmem : k ∈ rest.map Prod.fst
      · obtain ⟨v, -, hall⟩ := overwrite_of_mem hmem
        rw [hall, hall]
      · rw [overwrite_of_notMem hmem, overwrite_of_notMem hmem, update_of_ne hne]

theorem overwrite_zip_congr {keys : List κ} {vs vs' : List α} (htable : table k = table' k)
    (hlen : vs.length = keys.length) (hlen' : vs'.length = keys.length)
    (h : ∀ (i : Nat) v v', keys[i]? = some k → vs[i]? = some v → vs'[i]? = some v' → v = v') :
    overwrite table (keys.zip vs) k = overwrite table' (keys.zip vs') k := by
  induction keys generalizing table table' vs vs' with
  | nil =>
    exact htable
  | cons key keys ih =>
    obtain ⟨v, vs, rfl⟩ := exists_cons_of_length_eq_add_one hlen
    obtain ⟨v', vs', rfl⟩ := exists_cons_of_length_eq_add_one hlen'
    rw [zip_cons_cons, zip_cons_cons, overwrite, overwrite]
    refine ih ?_ (Nat.succ.inj hlen) (Nat.succ.inj hlen') fun i => h (i + 1)
    by_cases hk : k = key
    · subst hk
      simpa using h 0 v v' rfl rfl rfl
    · rw [update_of_ne hk, update_of_ne hk, htable]

end Overwrites

section Written

variable {κ : Type u} {α : Type v}

/-- The values that there are, for the keys at their places. -/
def written (keys : List κ) (values : List (Option α)) : List (κ × α) :=
  (keys.zip values).filterMap fun p => p.2.map fun v => (p.1, v)

theorem mem_written_iff {keys : List κ} {values : List (Option α)} {k : κ} {v : α} :
    (k, v) ∈ written keys values ↔ ∃ i : Nat, keys[i]? = some k ∧ values[i]? = some (some v) := by
  simp only [written, mem_filterMap, Prod.exists, Option.map_eq_some_iff, Prod.mk.injEq]
  constructor
  · rintro ⟨k', o, hmem, v', rfl, rfl, rfl⟩
    obtain ⟨i, hi⟩ := mem_iff_getElem?.1 hmem
    exact ⟨i, getElem?_zip_eq_some.1 hi⟩
  · rintro ⟨i, hk, hv⟩
    exact ⟨k, some v, mem_iff_getElem?.2 ⟨i, getElem?_zip_eq_some.2 ⟨hk, hv⟩⟩, v, rfl, rfl, rfl⟩

variable {keys : List κ} {values : List (Option α)}

theorem written_unique {i : Nat} {k : κ} {v v' : α} (hnodup : keys.Nodup) (hk : keys[i]? = some k)
    (hv : values[i]? = some (some v)) (hmem : (k, v') ∈ written keys values) :
    v' = v := by
  obtain ⟨j, hk', hv'⟩ := mem_written_iff.1 hmem
  obtain ⟨hi, hki⟩ := List.getElem?_eq_some_iff.1 hk
  obtain ⟨hj, hkj⟩ := List.getElem?_eq_some_iff.1 hk'
  obtain rfl : j = i := (hnodup.getElem_inj_iff).1 (hkj.trans hki.symm)
  rw [hv] at hv'
  exact (Option.some.inj (Option.some.inj hv')).symm

theorem written_of_length_eq (h : (written keys values).length = keys.length) :
    ∃ vs, vs.length = keys.length ∧ written keys values = keys.zip vs ∧
      ∀ (i : Nat) v, vs[i]? = some v → values[i]? = some (some v) := by
  induction keys generalizing values with
  | nil =>
    exact ⟨[], rfl, rfl, by simp⟩
  | cons key keys ih =>
    have hle : ∀ (ks : List κ) (os : List (Option α)),
        (written ks os).length ≤ ks.length := by
      intro ks os
      refine (length_filterMap_le _ _).trans ?_
      rw [length_zip]
      exact min_le_left _ _
    cases values with
    | nil => simp [written] at h
    | cons o values =>
      cases o with
      | none =>
        have := hle keys values
        simp only [written, zip_cons_cons, filterMap_cons_none, Option.map_none,
          length_cons] at h this
        omega
      | some v =>
        have hcons : written (key :: keys) (some v :: values) =
            (key, v) :: written keys values := by
          simp [written]
        rw [hcons, length_cons, length_cons, Nat.add_right_cancel_iff] at h
        obtain ⟨vs, hlen, hzip, hval⟩ := ih h
        refine ⟨v :: vs, by rw [length_cons, length_cons, hlen], ?_, ?_⟩
        · rw [hcons, hzip, zip_cons_cons]
        · intro i w hw
          cases i with
          | zero => simpa using hw
          | succ i => exact hval i w (by simpa using hw)

end Written

section Shares

variable {ι : Type u} {α : Type v} {M : Type*}
variable [Fintype ι] [DecidableEq ι] [AddCommMonoid M]

/-- One holder's share changes, the others keep theirs. -/
theorem sum_update_add (share : α → M) (holders : ι → α) (i : ι) (a : α) :
    (∑ j, share (update holders i a j)) + share (holders i) =
      (∑ j, share (holders j)) + share a := by
  have hothers :
      ∑ j ∈ Finset.univ.erase i, share (update holders i a j) =
        ∑ j ∈ Finset.univ.erase i, share (holders j) :=
    Finset.sum_congr rfl fun j hj => by rw [update_of_ne (Finset.ne_of_mem_erase hj)]
  rw [← Finset.add_sum_erase _ _ (Finset.mem_univ i),
    ← Finset.add_sum_erase _ (fun j => share (holders j)) (Finset.mem_univ i), hothers, update_self]
  abel

end Shares

end Tables

section Sums

open Function List Finset

universe u

section UpdatedSum

variable {α : Type u} {n i : Nat}

theorem sum_range_update (table : Nat → α) (weight : α → Nat) (value : α) (hi : i < n) :
    ∑ j ∈ range n, weight (update table i value j) + weight (table i) =
      ∑ j ∈ range n, weight (table j) + weight value := by
  have hmem := Finset.mem_range.2 hi
  rw [← sum_erase_add _ _ hmem, ← sum_erase_add _ _ hmem, update_self,
    sum_congr rfl fun j hj => by rw [update_of_ne (ne_of_mem_erase hj)]]
  omega

theorem sum_count_pos_iff [DecidableEq α] {lists : Nat → List α} {a : α} :
    0 < ∑ j ∈ Finset.range n, (lists j).count a ↔ ∃ j < n, a ∈ lists j := by
  rw [Nat.pos_iff_ne_zero, Ne, Finset.sum_eq_zero_iff]
  simp only [Finset.mem_range, count_eq_zero, not_forall, not_not, exists_prop]

theorem count_concat [DecidableEq α] (list : List α) (a b : α) :
    (list ++ [a]).count b = list.count b + if b = a then 1 else 0 := by
  rw [count_append, count_singleton]
  by_cases heq : b = a
  · simp [heq]
  · simp [heq, Ne.symm heq]

theorem count_first [DecidableEq α] (list : List α) (a b : α) :
    (a :: list).count b = list.count b + if b = a then 1 else 0 := by
  by_cases heq : b = a
  · simp [heq]
  · simp [heq, count_cons_of_ne (Ne.symm heq)]

end UpdatedSum

end Sums

end SstElements.Library
