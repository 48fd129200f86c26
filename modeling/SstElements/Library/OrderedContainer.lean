import Mathlib.Tactic

/-!
# Ordered containers with unique keys

The C++ standard containers `std::set` and `std::map` keep their elements
sorted by a comparison and refuse a second element that is equivalent to one
already stored.  They are modelled by sorted lists.

* `setInsert lt` is the insertion of `std::set` for an arbitrary comparison
  `lt`, lawful or not: the position is found with `lt` alone.
* `OrderedMap` is `std::map` over a linear order.  Sortedness is a field, so
  every map value has unique keys.  Lookups after the mutators are described by
  the `find?_*` lemmas, and `total` sums a weight over all stored values.
-/

namespace SstElements.Library

open List

universe u v w

section SetInsert

variable {α : Type u}

/-- Insertion into a sorted list; an equivalent element suppresses the new one. -/
def setInsert (lt : α → α → Bool) (x : α) : List α → List α
  | [] => [x]
  | y :: ys =>
    if lt y x then y :: setInsert lt x ys
    else if lt x y then x :: y :: ys
    else y :: ys

variable {lt : α → α → Bool} {x : α} {s : List α}

theorem setInsert_of_forall_lt (h : ∀ y ∈ s, lt y x = true) : setInsert lt x s = s ++ [x] := by
  induction s with
  | nil =>
    rfl
  | cons y ys ih =>
    have hy : lt y x = true := h y (by simp)
    have hys : ∀ z ∈ ys, lt z x = true := fun z hz => h z (by simp [hz])
    simp [setInsert, hy, ih hys]

theorem mem_of_mem_setInsert {y : α} (hy : y ∈ setInsert lt x s) : y = x ∨ y ∈ s := by
  induction s with
  | nil =>
    simpa [setInsert] using hy
  | cons z zs ih =>
    simp only [setInsert] at hy
    split at hy
    · rcases mem_cons.1 hy with rfl | hy
      · simp
      · exact (ih hy).imp_right (mem_cons_of_mem z)
    · split at hy
      · exact mem_cons.1 hy
      · exact .inr hy

section Keyed

variable {κ : Type v} [LinearOrder κ] {lt : α → α → Bool} {key : α → κ}

theorem mem_setInsert_iff (hlt : ∀ a b, lt a b = true ↔ key a < key b) {x y : α} {s : List α}
    (hkey : ∀ z ∈ s, key z = key x → z = x) :
    y ∈ setInsert lt x s ↔ y = x ∨ y ∈ s := by
  induction s with
  | nil =>
    simp [setInsert]
  | cons z zs ih =>
    have hz := hkey z (by simp)
    have hrec := ih (fun w hw => hkey w (by simp [hw]))
    simp only [setInsert]
    split
    · simp only [mem_cons, hrec]
      tauto
    · split
      · simp
      · rename_i hzx hxz
        rw [hlt] at hzx hxz
        have heq : z = x := hz (le_antisymm (not_lt.1 hxz) (not_lt.1 hzx))
        subst heq
        simp

theorem setInsert_pairwise (hlt : ∀ a b, lt a b = true ↔ key a < key b) (x : α) {s : List α}
    (hs : s.Pairwise (fun a b => key a < key b)) :
    (setInsert lt x s).Pairwise (fun a b => key a < key b) := by
  induction s with
  | nil =>
    simp [setInsert]
  | cons z zs ih =>
    obtain ⟨hz, hzs⟩ := pairwise_cons.1 hs
    simp only [setInsert]
    split
    · rename_i hzx
      refine pairwise_cons.2 ⟨?_, ih hzs⟩
      intro y hy
      rcases mem_of_mem_setInsert hy with rfl | hy
      · exact (hlt z y).1 hzx
      · exact hz y hy
    · split
      · rename_i hxz
        refine pairwise_cons.2 ⟨?_, hs⟩
        intro y hy
        rcases mem_cons.1 hy with rfl | hy
        · exact (hlt x y).1 hxz
        · exact lt_trans ((hlt x z).1 hxz) (hz y hy)
      · exact hs

end Keyed

end SetInsert

/-- A finite map with keys in increasing order. -/
structure OrderedMap (κ : Type u) (α : Type v) [LinearOrder κ] where
  entries : List (κ × α)
  sorted : entries.Pairwise (fun a b => a.1 < b.1)
deriving DecidableEq

namespace OrderedMap

variable {κ : Type u} {α : Type v} [LinearOrder κ]

@[ext] theorem ext {m n : OrderedMap κ α}
    (h : m.entries = n.entries) : m = n := by
  cases m
  cases n
  simpa using h

def empty : OrderedMap κ α := ⟨[], List.Pairwise.nil⟩

def findEntry (k : κ) : List (κ × α) → Option α
  | [] => none
  | (k', a) :: rest => if k' = k then some a else findEntry k rest

/-- The value stored under a key. -/
def find? (m : OrderedMap κ α) (k : κ) : Option α := findEntry k m.entries

/-- Write a value into a sorted list of entries. -/
def insertEntry (k : κ) (a : α) : List (κ × α) → List (κ × α)
  | [] => [(k, a)]
  | (k', b) :: rest =>
    if k < k' then (k, a) :: (k', b) :: rest
    else if k = k' then (k, a) :: rest
    else (k', b) :: insertEntry k a rest

variable {k : κ} {l : List (κ × α)}

theorem mem_insertEntry {a : α} {e : κ × α} (he : e ∈ insertEntry k a l) : e = (k, a) ∨ e ∈ l := by
  induction l with
  | nil =>
    simpa [insertEntry] using he
  | cons hd rest ih =>
    simp only [insertEntry] at he
    split at he
    · simpa using he
    · split at he
      · rcases mem_cons.1 he with he | he
        · exact .inl he
        · exact .inr (by simp [he])
      · rcases mem_cons.1 he with he | he
        · exact .inr (by simp [he])
        · rcases ih he with he | he
          · exact .inl he
          · exact .inr (by simp [he])

theorem insertEntry_sorted (k : κ) (a : α) {l : List (κ × α)}
    (h : l.Pairwise (fun x y => x.1 < y.1)) :
    (insertEntry k a l).Pairwise (fun x y => x.1 < y.1) := by
  induction l with
  | nil =>
    simp [insertEntry]
  | cons hd rest ih =>
    obtain ⟨hhd, hrest⟩ := pairwise_cons.1 h
    simp only [insertEntry]
    split
    · rename_i hlt
      refine pairwise_cons.2 ⟨?_, h⟩
      intro e he
      rcases mem_cons.1 he with rfl | he
      · exact hlt
      · exact lt_trans hlt (hhd e he)
    · split
      · rename_i heq
        subst heq
        exact pairwise_cons.2 ⟨hhd, hrest⟩
      · rename_i hnlt hne
        refine pairwise_cons.2 ⟨?_, ih hrest⟩
        intro e he
        rcases mem_insertEntry he with rfl | he
        · exact lt_of_le_of_ne (not_lt.1 hnlt) (Ne.symm hne)
        · exact hhd e he

/-- Write a value under a key. -/
def insert (m : OrderedMap κ α) (k : κ) (a : α) : OrderedMap κ α :=
  ⟨insertEntry k a m.entries, insertEntry_sorted k a m.sorted⟩

/-- Remove a key. -/
def erase (m : OrderedMap κ α) (k : κ) : OrderedMap κ α :=
  ⟨m.entries.filter (fun e => decide (e.1 ≠ k)), m.sorted.filter _⟩

@[simp] theorem find?_empty (k : κ) : (empty : OrderedMap κ α).find? k = none := by
  rfl

theorem findEntry_eq_none_of_lt (h : ∀ e ∈ l, k < e.1) : findEntry k l = none := by
  induction l with
  | nil =>
    rfl
  | cons hd rest ih =>
    obtain ⟨k', b⟩ := hd
    have hlt : k < k' := h (k', b) (by simp)
    simp [findEntry, hlt.ne', ih (fun e he => h e (by simp [he]))]

/-- The lookup law of an insertion. -/
theorem findEntry_insertEntry (k k' : κ) (a : α) (l : List (κ × α)) :
    findEntry k' (insertEntry k a l) = if k' = k then some a else findEntry k' l := by
  induction l with
  | nil =>
    simp [insertEntry, findEntry, eq_comm]
  | cons hd rest ih =>
    obtain ⟨k₀, b⟩ := hd
    simp only [insertEntry]
    split
    · simp [findEntry, eq_comm]
    · split
      · rename_i heq
        subst heq
        by_cases hk : k' = k
        · simp [findEntry, hk]
        · simp [findEntry, hk, Ne.symm hk]
      · rename_i hne
        by_cases hk : k' = k
        · subst hk
          simp [findEntry, Ne.symm hne, ih]
        · simp [findEntry, ih, hk]

section

variable (m : OrderedMap κ α)

theorem find?_insert (k k' : κ) (a : α) :
    (m.insert k a).find? k' = if k' = k then some a else m.find? k' :=
  findEntry_insertEntry k k' a m.entries

@[simp] theorem find?_insert_self (k : κ) (a : α) : (m.insert k a).find? k = some a := by
  simp [find?_insert]

theorem find?_insert_of_ne {k k' : κ} (a : α) (h : k' ≠ k) :
    (m.insert k a).find? k' = m.find? k' := by
  simp [find?_insert, h]

theorem find?_erase (k k' : κ) : (m.erase k).find? k' = if k' = k then none else m.find? k' := by
  show findEntry k' (m.entries.filter _) = if k' = k then none else findEntry k' m.entries
  induction m.entries with
  | nil =>
    simp [findEntry]
  | cons hd rest ih =>
    obtain ⟨k₀, b⟩ := hd
    by_cases h₀ : k₀ = k
    · subst h₀
      by_cases hk : k' = k₀
      · simpa [findEntry, hk] using ih
      · simpa [findEntry, hk, Ne.symm hk] using ih
    · by_cases hk : k' = k
      · subst hk
        simpa [findEntry, h₀] using ih
      · simp only [ne_eq, decide_not, if_neg hk] at ih ⊢
        simp [findEntry, h₀, ih]

@[simp] theorem find?_erase_self (k : κ) : (m.erase k).find? k = none := by
  simp [find?_erase]

theorem find?_erase_of_ne {k k' : κ} (h : k' ≠ k) : (m.erase k).find? k' = m.find? k' := by
  simp [find?_erase, h]

theorem mem_entries_iff (k : κ) (a : α) : (k, a) ∈ m.entries ↔ m.find? k = some a := by
  obtain ⟨l, hl⟩ := m
  show (k, a) ∈ l ↔ findEntry k l = some a
  induction l with
  | nil =>
    simp [findEntry]
  | cons hd rest ih =>
    obtain ⟨k₀, b⟩ := hd
    obtain ⟨hhd, hrest⟩ := pairwise_cons.1 hl
    by_cases hk : k₀ = k
    · subst hk
      have hnot : (k₀, a) ∉ rest := fun hmem => lt_irrefl k₀ (hhd (k₀, a) hmem)
      simp [findEntry, hnot, eq_comm]
    · simp [findEntry, hk, Ne.symm hk, ih hrest]

end

section MapValues

variable {β : Type w}

theorem entries_nodup (m : OrderedMap κ α) : m.entries.Nodup :=
  m.sorted.imp fun h heq => absurd (heq ▸ h) (lt_irrefl _)

/-- A map is what its lookups give. -/
theorem eq_of_find? {m m' : OrderedMap κ α} (h : ∀ k, m.find? k = m'.find? k) : m = m' := by
  have hperm : m.entries.Perm m'.entries := by
    rw [perm_ext_iff_of_nodup (entries_nodup _) (entries_nodup _)]
    rintro ⟨k, a⟩
    rw [mem_entries_iff, mem_entries_iff, h]
  have hanti : ∀ x y : κ × α, x ∈ m.entries → y ∈ m'.entries → x.1 < y.1 → y.1 < x.1 → x = y :=
    fun x y _ _ hxy hyx => absurd (hxy.trans hyx) (lt_irrefl _)
  exact OrderedMap.ext (hperm.eq_of_pairwise hanti m.sorted m'.sorted)

theorem insert_entries_perm (m : OrderedMap κ α) {k : κ} (a : α) (h : m.find? k = none) :
    (m.insert k a).entries.Perm ((k, a) :: m.entries) := by
  have hnew : (k, a) ∉ m.entries := by
    rw [mem_entries_iff, h]
    exact (Option.some_ne_none a).symm
  rw [perm_ext_iff_of_nodup (entries_nodup _) (nodup_cons.2 ⟨hnew, entries_nodup _⟩)]
  rintro ⟨k', b⟩
  rw [mem_cons, mem_entries_iff, mem_entries_iff, find?_insert]
  by_cases hk : k' = k
  · simp [hk, h, eq_comm]
  · simp [hk]

theorem entries_perm_cons_erase (m : OrderedMap κ α) {k : κ} {a : α} (h : m.find? k = some a) :
    m.entries.Perm ((k, a) :: (m.erase k).entries) := by
  have hgone : (k, a) ∉ (m.erase k).entries := by
    rw [mem_entries_iff, find?_erase_self]
    exact (Option.some_ne_none a).symm
  rw [perm_ext_iff_of_nodup (entries_nodup _) (nodup_cons.2 ⟨hgone, entries_nodup _⟩)]
  rintro ⟨k', b⟩
  rw [mem_cons, mem_entries_iff, mem_entries_iff, find?_erase]
  by_cases hk : k' = k
  · simp [hk, h, eq_comm]
  · simp [hk]

/-- Apply a function to every stored value. -/
def mapValues (f : α → β) (m : OrderedMap κ α) : OrderedMap κ β where
  entries := m.entries.map (fun e => (e.1, f e.2))
  sorted := by simpa [pairwise_map] using m.sorted

theorem find?_mapValues (f : α → β) (m : OrderedMap κ α) (k : κ) :
    (m.mapValues f).find? k = (m.find? k).map f := by
  obtain ⟨l, hl⟩ := m
  show findEntry k (l.map _) = (findEntry k l).map f
  clear hl
  induction l with
  | nil =>
    rfl
  | cons hd rest ih =>
    simp only [map_cons, findEntry, ih]
    split <;> rfl

theorem mapValues_insert (f : α → β) (m : OrderedMap κ α) (k : κ) (a : α) :
    (m.insert k a).mapValues f = (m.mapValues f).insert k (f a) := by
  obtain ⟨l, hl⟩ := m
  apply OrderedMap.ext
  show (insertEntry k a l).map _ = insertEntry k (f a) (l.map _)
  clear hl
  induction l with
  | nil =>
    rfl
  | cons hd rest ih =>
    simp only [insertEntry, map_cons]
    split
    · rfl
    · split
      · rfl
      · simp [ih]

theorem mapValues_erase (f : α → β) (m : OrderedMap κ α) (k : κ) :
    (m.erase k).mapValues f = (m.mapValues f).erase k := by
  apply OrderedMap.ext
  simp [mapValues, erase, List.filter_map, Function.comp_def]

end MapValues

section Total

variable (w : α → Nat)

/-- Sum of a weight over the stored values. -/
def total (m : OrderedMap κ α) : Nat := (m.entries.map (fun e => w e.2)).sum

/-- Weight of an optional value. -/
def weight : Option α → Nat
  | none => 0
  | some a => w a

/-- An insertion trades the old weight for the new one. -/
theorem total_insert (m : OrderedMap κ α) (k : κ) (a : α) :
    total w (m.insert k a) + weight w (m.find? k) = total w m + w a := by
  obtain ⟨l, hl⟩ := m
  show ((insertEntry k a l).map (fun e => w e.2)).sum +
      weight w (findEntry k l) = (l.map (fun e => w e.2)).sum + w a
  induction l with
  | nil =>
    simp [insertEntry, findEntry, weight]
  | cons hd rest ih =>
    obtain ⟨hhd, hrest⟩ := pairwise_cons.1 hl
    simp only [insertEntry, findEntry]
    split
    · rename_i hlt
      have hnone : findEntry k rest = none :=
        findEntry_eq_none_of_lt (fun e he => lt_trans hlt (hhd e he))
      simp only [map_cons, sum_cons, hlt.ne', if_false, hnone, weight]
      omega
    · split
      · rename_i heq
        subst heq
        simp only [map_cons, sum_cons, if_true, weight]
        omega
      · rename_i hne
        have := ih hrest
        simp only [map_cons, sum_cons, Ne.symm hne, if_false]
        omega

theorem total_erase (m : OrderedMap κ α) (k : κ) :
    total w (m.erase k) + weight w (m.find? k) = total w m := by
  obtain ⟨l, hl⟩ := m
  show ((l.filter (fun e => decide (e.1 ≠ k))).map (fun e => w e.2)).sum +
      weight w (findEntry k l) = (l.map (fun e => w e.2)).sum
  induction l with
  | nil =>
    simp [findEntry, weight]
  | cons hd rest ih =>
    obtain ⟨k₀, b⟩ := hd
    obtain ⟨hhd, hrest⟩ := pairwise_cons.1 hl
    by_cases hk : k₀ = k
    · subst hk
      have hnone : findEntry k₀ rest = none := findEntry_eq_none_of_lt hhd
      have hrec := ih hrest
      simp only [hnone, weight, ne_eq, decide_not] at hrec
      simp only [findEntry, ne_eq, decide_not, if_true, weight,
        map_cons, sum_cons, decide_true, Bool.not_true,
        Bool.false_eq_true, not_false_eq_true, filter_cons_of_neg]
      omega
    · have hrec := ih hrest
      simp only [ne_eq, decide_not] at hrec
      simp only [findEntry, hk, if_false, ne_eq, decide_not, decide_false,
        Bool.not_false, filter_cons_of_pos, map_cons, sum_cons]
      omega

theorem total_congr {w w' : α → Nat} {m : OrderedMap κ α} (h : ∀ e ∈ m.entries, w e.2 = w' e.2) :
    total w m = total w' m :=
  congrArg List.sum (map_congr_left h)

theorem total_le_total {w w' : α → Nat} (h : ∀ a, w a ≤ w' a) (m : OrderedMap κ α) :
    total w m ≤ total w' m :=
  sum_le_sum (fun e _ => h e.2)

theorem weight_le_total (m : OrderedMap κ α) (k : κ) : weight w (m.find? k) ≤ total w m := by
  have h := total_erase w m k
  omega

end Total

section SumOf

variable {β : Type w} [AddCommGroup β] (f : α → β)

/-- Sum of a signed weight over the stored values. -/
def sumOf (m : OrderedMap κ α) : β := (m.entries.map (fun e => f e.2)).sum

variable {m : OrderedMap κ α} {k : κ} {a : α}

theorem sumOf_erase (h : m.find? k = some a) : sumOf f (m.erase k) = sumOf f m - f a := by
  have hsum := ((entries_perm_cons_erase m h).map (fun e => f e.2)).sum_eq
  rw [map_cons, sum_cons] at hsum
  rw [sumOf, sumOf, hsum, add_sub_cancel_left]

theorem sumOf_insert_new (a : α) (h : m.find? k = none) :
    sumOf f (m.insert k a) = sumOf f m + f a := by
  have hsum := ((insert_entries_perm m a h).map (fun e => f e.2)).sum_eq
  rw [map_cons, sum_cons] at hsum
  rw [sumOf, sumOf, hsum, add_comm]

theorem sumOf_insert (b : α) (h : m.find? k = some a) :
    sumOf f (m.insert k b) = sumOf f m - f a + f b := by
  have hnew := entries_perm_cons_erase (m.insert k b) (find?_insert_self m k b)
  have hrest : (m.insert k b).erase k = m.erase k := by
    refine eq_of_find? fun k' => ?_
    rw [find?_erase, find?_erase, find?_insert]
    split <;> rfl
  rw [hrest] at hnew
  have hsum := (hnew.map (fun e => f e.2)).sum_eq
  rw [map_cons, sum_cons] at hsum
  rw [sumOf, hsum, ← sumOf, sumOf_erase f h, add_comm]

theorem sumOf_mapValues {γ : Type v} (g : γ → α) (m : OrderedMap κ γ) :
    sumOf f (m.mapValues g) = sumOf (fun c => f (g c)) m := by
  simp [sumOf, mapValues, Function.comp_def]

end SumOf

end OrderedMap

end SstElements.Library
