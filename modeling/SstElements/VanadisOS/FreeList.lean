import SstElements.Library.RangeCover

/-!
# The list of free address ranges

Free ranges are kept in a map by their start.  An allocation takes the first range that
has room, and a release joins the range with its neighbours.
-/

namespace SstElements.VanadisOS

open Library List Option

structure FreeEntry where
  start : Nat
  «end» : Nat
  deriving DecidableEq

/-- Addresses have 64 bits. -/
def addAddress (addr length : Nat) : Nat := (addr + length) % 2 ^ 64

abbrev FreeList := OrderedMap Nat FreeEntry

namespace FreeList

def initial (start stop : Nat) : FreeList := OrderedMap.empty.insert start ⟨start, stop⟩

/-- The first entry that contains the range; `none` is the failed assertion about the key
of an entry. -/
def scanAt (addr len : Nat) : List (Nat × FreeEntry) → Option (Option FreeEntry)
  | [] => some none
  | (key, entry) :: rest =>
    if key ≠ entry.start then
      none
    else if entry.start ≤ addr ∧ addAddress addr len ≤ entry.end then
      some (some entry)
    else
      scanAt addr len rest

/-- Take a range at a given address; the list, if there is room. -/
def allocAt (free : FreeList) (addr len : Nat) : Option (Option FreeList) :=
  (scanAt addr len free.entries).map fun found => found.map fun entry =>
    if addr = entry.start then
      if addAddress addr len < entry.end then
        OrderedMap.insert (OrderedMap.erase free entry.start) (addAddress addr len)
          ⟨addAddress addr len, entry.end⟩
      else
        OrderedMap.erase free entry.start
    else if addAddress addr len = entry.end then
      OrderedMap.insert free entry.start ⟨entry.start, addr⟩
    else
      OrderedMap.insert (OrderedMap.insert free entry.start ⟨entry.start, addr⟩)
        (addAddress addr len) ⟨addAddress addr len, entry.end⟩

/-- Take the first range of a given length; its start is zero if there is none. -/
def allocFirst (free : FreeList) (wantLen : Nat) : Nat × FreeList :=
  match free.entries.find? fun kv => wantLen ≤ kv.2.end - kv.2.start with
  | none => (0, free)
  | some (key, entry) =>
    if wantLen = entry.end - entry.start then
      (entry.start, OrderedMap.erase free key)
    else
      (entry.start,
        OrderedMap.insert (OrderedMap.erase free key) (entry.start + wantLen)
          ⟨entry.start + wantLen, entry.end⟩)

/-- Join each range with the next one, and with the one behind that. -/
def mergeEntries : List (Nat × FreeEntry) → List (Nat × FreeEntry)
  | [] => []
  | [x] => [x]
  | [x, y] =>
    if x.2.end = y.2.start then [(x.1, ⟨x.2.start, y.2.end⟩)] else x :: mergeEntries [y]
  | x :: y :: z :: rest =>
    if x.2.end = y.2.start then
      if y.2.end = z.2.start then
        (x.1, ⟨x.2.start, z.2.end⟩) :: mergeEntries rest
      else
        (x.1, ⟨x.2.start, y.2.end⟩) :: mergeEntries (z :: rest)
    else
      x :: mergeEntries (y :: z :: rest)

theorem mergeEntries_rec {motive : List (Nat × FreeEntry) → List (Nat × FreeEntry) → Prop}
    (hnil : motive [] []) (hkeep : ∀ x xs ys, motive xs ys → motive (x :: xs) (x :: ys))
    (hjoin : ∀ x y xs ys, x.2.end = y.2.start →
      motive ((x.1, ⟨x.2.start, y.2.end⟩) :: xs) ys → motive (x :: y :: xs) ys)
    (entries : List (Nat × FreeEntry)) :
    motive entries (mergeEntries entries) := by
  induction entries using mergeEntries.induct with
  | case1 => exact hnil
  | case2 x => exact hkeep x _ _ hnil
  | case3 x y h =>
    rw [mergeEntries, if_pos h]
    exact hjoin x y _ _ h (hkeep _ _ _ hnil)
  | case4 x y h ih =>
    rw [mergeEntries, if_neg h]
    exact hkeep x _ _ ih
  | case5 x y z rest h h' ih =>
    rw [mergeEntries, if_pos h, if_pos h']
    exact hjoin x y _ _ h (hjoin _ z _ _ h' (hkeep _ _ _ ih))
  | case6 x y z rest h h' ih =>
    rw [mergeEntries, if_pos h, if_neg h']
    exact hjoin x y _ _ h (hkeep _ _ _ ih)
  | case7 x y z rest h ih =>
    rw [mergeEntries, if_neg h]
    exact hkeep x _ _ ih

theorem mergeEntries_keys (entries : List (Nat × FreeEntry)) :
    ((mergeEntries entries).map Prod.fst).Sublist (entries.map Prod.fst) :=
  mergeEntries_rec (motive := fun xs ys => (ys.map Prod.fst).Sublist (xs.map Prod.fst))
    (List.Sublist.refl _) (fun x _ _ h => h.cons_cons x.1)
    (fun x y _ _ _ h => h.trans (((List.Sublist.refl _).cons y.1).cons_cons x.1)) entries

def merge (free : FreeList) : FreeList where
  entries := mergeEntries free.entries
  sorted := by
    have hkeys := (pairwise_map.2 free.sorted).sublist (mergeEntries_keys free.entries)
    exact pairwise_map.1 hkeys

/-- Give a range back. -/
def free (list : FreeList) (addr length : Nat) : FreeList :=
  merge (OrderedMap.insert list addr ⟨addr, addAddress addr length⟩)

section Coverage

/-- The entries are at their keys and not empty. -/
def Keyed (free : FreeList) : Prop :=
  ∀ k e, free.find? k = some e → k = e.start ∧ e.start < e.end ∧ e.end < 2 ^ 64

/-- How often an address is free. -/
def cover (free : FreeList) : Nat → Int := coverage FreeEntry.start FreeEntry.end free

variable {list list' : FreeList} {addr len : Nat}

theorem addAddress_eq (h : addr + len < 2 ^ 64) : addAddress addr len = addr + len :=
  Nat.mod_eq_of_lt h

variable {entries : List (Nat × FreeEntry)}

theorem scanAt_spec {entry : FreeEntry} (h : scanAt addr len entries = some (some entry)) :
    (entry.start, entry) ∈ entries ∧ entry.start ≤ addr ∧ addAddress addr len ≤ entry.end := by
  induction entries with
  | nil => cases h
  | cons e rest ih =>
    rw [scanAt] at h
    split at h
    · cases h
    · rename_i hkey
      split at h
      · rename_i hfits
        cases some.inj h
        refine ⟨?_, hfits⟩
        rw [← not_not.1 hkey]
        exact mem_cons_self
      · obtain ⟨hmem, hrest⟩ := ih h
        exact ⟨mem_cons_of_mem _ hmem, hrest⟩

section

variable (h : list.Keyed)
include h

theorem Keyed.erase (k : Nat) : Keyed (OrderedMap.erase list k) := by
  intro k' e hfind
  rw [OrderedMap.find?_erase] at hfind
  split at hfind
  · cases hfind
  · exact h k' e hfind

theorem Keyed.insert {e : FreeEntry} (he : e.start < e.end) (hbound : e.end < 2 ^ 64) :
    Keyed (OrderedMap.insert list e.start e) := by
  intro k' e' hfind
  rw [OrderedMap.find?_insert] at hfind
  split at hfind
  case isTrue hk =>
    cases hfind
    exact ⟨hk, he, hbound⟩
  case isFalse => exact h k' e' hfind

theorem find?_eq_none_inside {e : FreeEntry} {b : Nat} (hdisjoint : ∀ b, list.cover b ≤ 1)
    (he : list.find? e.start = some e) (hb : e.start < b ∧ b < e.end) :
    list.find? b = none := by
  cases hfind : list.find? b with
  | none => rfl
  | some e' =>
    obtain ⟨hkey, hlt, -⟩ := h b e' hfind
    have htwo := two_le_coverage (show b ≠ e.start by omega) he hfind
      (show e.start ≤ b ∧ b < e.end by omega) (show e'.start ≤ b ∧ b < e'.end by omega)
    have hone := hdisjoint b
    unfold cover at hone
    omega

theorem allocAt_spec (hdisjoint : ∀ b, list.cover b ≤ 1) (hlen : 0 < len)
    (hbound : addr + len < 2 ^ 64) (halloc : list.allocAt addr len = some (some list')) :
    list'.Keyed ∧ list'.cover = list.cover - rangeIndicator addr (addr + len) ∧
      ∃ e, list.find? e.start = some e ∧ e.start ≤ addr ∧ addr + len ≤ e.end := by
  obtain ⟨found, hscan, hfound⟩ := map_eq_some_iff.1 halloc
  obtain ⟨e, rfl, hlist⟩ := map_eq_some_iff.1 hfound
  obtain ⟨hmem, hstart, hend⟩ := scanAt_spec hscan
  rw [addAddress_eq hbound] at hend hlist
  have hfind := (OrderedMap.mem_entries_iff list _ _).1 hmem
  obtain ⟨-, hlt, hebound⟩ := h _ e hfind
  refine ⟨?_, ?_, e, hfind, hstart, hend⟩
  · subst hlist
    split
    · split
      · exact (h.erase _).insert (e := ⟨addr + len, e.end⟩) ‹_› hebound
      · exact h.erase _
    · split
      · exact h.insert (e := ⟨e.start, addr⟩) (show e.start < addr by omega)
          (show addr < 2 ^ 64 by omega)
      · exact (h.insert (e := ⟨e.start, addr⟩) (show e.start < addr by omega)
          (show addr < 2 ^ 64 by omega)).insert (e := ⟨addr + len, e.end⟩)
            (show addr + len < e.end by omega) hebound
  · subst hlist
    unfold cover
    split
    case isTrue heq =>
      split
      case isTrue hinside =>
        rw [coverage_insert_new, coverage_erase hfind, ← heq]
        · have hsplit := @rangeIndicator_split addr (addr + len) e.end (by omega) (by omega)
          rw [hsplit]
          abel
        · rw [OrderedMap.find?_erase_of_ne list (show addr + len ≠ e.start by omega)]
          exact find?_eq_none_inside h hdisjoint hfind (by omega)
      case isFalse hwhole =>
        rw [coverage_erase hfind, ← heq, show e.end = addr + len by omega]
    case isFalse hne =>
      split
      case isTrue hlast =>
        rw [coverage_insert _ hfind, ← hlast]
        have hsplit := @rangeIndicator_split e.start addr (addr + len) hstart (by omega)
        rw [hsplit]
        abel
      case isFalse hmiddle =>
        rw [coverage_insert_new, coverage_insert _ hfind]
        · have hsplit := @rangeIndicator_split e.start addr e.end hstart (by omega)
          have hsplit' := @rangeIndicator_split addr (addr + len) e.end (by omega) hend
          rw [hsplit, hsplit']
          abel
        · rw [OrderedMap.find?_insert_of_ne list _ (show addr + len ≠ e.start by omega)]
          exact find?_eq_none_inside h hdisjoint hfind (by omega)

theorem allocFirst_spec {start : Nat} (hdisjoint : ∀ b, list.cover b ≤ 1) (hlen : 0 < len)
    (halloc : list.allocFirst len = (start, list')) (hstart : start ≠ 0) :
    list'.Keyed ∧ list'.cover = list.cover - rangeIndicator start (start + len) ∧
      ∃ e, list.find? e.start = some e ∧ e.start ≤ start ∧ start + len ≤ e.end := by
  unfold allocFirst at halloc
  split at halloc
  case h_1 => exact absurd (Prod.mk.inj halloc).1.symm hstart
  case h_2 key e hscan =>
    have hfind := (OrderedMap.mem_entries_iff list _ _).1 (mem_of_find?_eq_some hscan)
    have hfits := find?_some hscan
    have hroom : len ≤ e.end - e.start := of_decide_eq_true hfits
    obtain ⟨rfl, hlt, hebound⟩ := h key e hfind
    split at halloc
    case isTrue hwhole =>
      cases halloc
      refine ⟨h.erase _, ?_, e, hfind, le_rfl, by omega⟩
      unfold cover
      rw [coverage_erase hfind, show e.start + len = e.end by omega]
    case isFalse hpart =>
      cases halloc
      refine ⟨(h.erase _).insert (e := ⟨e.start + len, e.end⟩)
        (show e.start + len < e.end by omega) hebound, ?_, e, hfind, le_rfl, by omega⟩
      unfold cover
      rw [coverage_insert_new, coverage_erase hfind]
      · have hsplit := @rangeIndicator_split e.start (e.start + len) e.end (by omega) (by omega)
        rw [hsplit]
        abel
      · rw [OrderedMap.find?_erase_of_ne list (show e.start + len ≠ e.start by omega)]
        exact find?_eq_none_inside h hdisjoint hfind (by omega)

end

theorem mergeEntries_cover (h : ∀ e ∈ entries, e.2.start ≤ e.2.end) :
    ((mergeEntries entries).map fun e => rangeIndicator e.2.start e.2.end).sum =
      (entries.map fun e => rangeIndicator e.2.start e.2.end).sum := by
  revert h
  refine mergeEntries_rec (motive := fun xs ys => (∀ e ∈ xs, e.2.start ≤ e.2.end) →
    (ys.map fun e => rangeIndicator e.2.start e.2.end).sum =
      (xs.map fun e => rangeIndicator e.2.start e.2.end).sum)
    (fun _ => rfl) (fun x xs ys ih h => ?_) (fun x y xs ys hxy ih h => ?_) entries
  · rw [map_cons, sum_cons, ih (forall_mem_cons.1 h).2]
    rfl
  · simp only [forall_mem_cons] at h ih
    rw [ih ⟨h.1.trans (hxy ▸ h.2.1), h.2.2⟩]
    simp only [map_cons, sum_cons]
    rw [rangeIndicator_split (hxy ▸ h.1) h.2.1, hxy, add_assoc]

theorem mergeEntries_keyed
    (h : ∀ e ∈ entries, e.1 = e.2.start ∧ e.2.start < e.2.end ∧ e.2.end < 2 ^ 64) :
    ∀ e ∈ mergeEntries entries, e.1 = e.2.start ∧ e.2.start < e.2.end ∧ e.2.end < 2 ^ 64 := by
  revert h
  refine mergeEntries_rec (motive := fun xs ys =>
    (∀ e ∈ xs, e.1 = e.2.start ∧ e.2.start < e.2.end ∧ e.2.end < 2 ^ 64) →
      ∀ e ∈ ys, e.1 = e.2.start ∧ e.2.start < e.2.end ∧ e.2.end < 2 ^ 64)
    id (fun x xs ys ih h => ?_) (fun x y xs ys hxy ih h => ?_) entries
  · obtain ⟨hx, hxs⟩ := forall_mem_cons.1 h
    exact forall_mem_cons.2 ⟨hx, ih hxs⟩
  · simp only [forall_mem_cons] at h ih
    exact ih ⟨⟨h.1.1, by omega, h.2.1.2.2⟩, h.2.2⟩

theorem keyed_iff :
    list.Keyed ↔ ∀ e ∈ list.entries, e.1 = e.2.start ∧ e.2.start < e.2.end ∧ e.2.end < 2 ^ 64 :=
  ⟨fun h e he => h e.1 e.2 ((OrderedMap.mem_entries_iff list _ _).1 he),
    fun h k e hfind => h (k, e) ((OrderedMap.mem_entries_iff list _ _).2 hfind)⟩

theorem free_spec (h : list.Keyed) (hnew : list.find? addr = none) (hlen : 0 < len)
    (hbound : addr + len < 2 ^ 64) :
    (list.free addr len).Keyed ∧
      (list.free addr len).cover = list.cover + rangeIndicator addr (addr + len) := by
  have hkeyed := h.insert (e := ⟨addr, addr + len⟩) (show addr < addr + len by omega) hbound
  rw [free, addAddress_eq hbound]
  constructor
  · rw [keyed_iff]
    exact mergeEntries_keyed (keyed_iff.1 hkeyed)
  · have hmerge := mergeEntries_cover fun e he => (keyed_iff.1 hkeyed e he).2.1.le
    unfold cover
    rw [← @coverage_insert_new _ FreeEntry.start FreeEntry.end list addr ⟨addr, addr + len⟩ hnew]
    exact hmerge

end Coverage

end FreeList

end SstElements.VanadisOS
