import Mathlib.Order.Interval.Finset.Nat
import SstElements.Library.Transition
import SstElements.VanadisOS.FreeList

/-!
# Runs of the list of free ranges

Allocations, releases and updates follow one another.  The free ranges stay apart from each
other and are what is left of the initial range, as long as no update takes a part of a
free range and no address wraps.
-/

namespace SstElements.VanadisOS

open Library List Option

namespace FreeList

/-- Take a range off the start of a free one; what is left stays at its key. -/
def update (list : FreeList) (start length : Nat) : Bool × FreeList :=
  match list.find? start with
  | none => (false, list)
  | some entry =>
    if addAddress entry.start length < entry.end then
      (true, OrderedMap.insert list start ⟨addAddress entry.start length, entry.end⟩)
    else if addAddress entry.start length = entry.end then
      (true, OrderedMap.erase list start)
    else
      (false, list)

/-- The calls of a list, each with the length of its range. -/
inductive Op where
  | allocAt (addr len : Nat)
  | allocFirst (len : Nat)
  | free (addr len : Nat)
  | update (start len : Nat)

/-- Lengths have 64 bits and are not zero. -/
def Op.Proper : Op → Prop
  | .allocAt _ len | .allocFirst len | .free _ len | .update _ len => 0 < len ∧ len < 2 ^ 64

/-- The list and the addresses that were taken from it and not given back. -/
structure Run where
  list : FreeList
  allocated : Finset Nat

/-- Only allocated ranges are given back; a failed assertion leaves everything as it is. -/
def step (s : Run) : Op → Option Run
  | .allocAt addr len =>
    match s.list.allocAt addr len with
    | some (some list) => some ⟨list, s.allocated ∪ Finset.Ico addr (addr + len)⟩
    | _ => some s
  | .allocFirst len =>
    let r := s.list.allocFirst len
    some ⟨r.2, if r.1 = 0 then s.allocated else s.allocated ∪ Finset.Ico r.1 (r.1 + len)⟩
  | .free addr len =>
    if Finset.Ico addr (addr + len) ⊆ s.allocated then
      some ⟨s.list.free addr len, s.allocated \ Finset.Ico addr (addr + len)⟩
    else none
  | .update start len =>
    let r := s.list.update start len
    some ⟨r.2, if r.1 then s.allocated ∪ Finset.Ico start (start + len) else s.allocated⟩

/-- Free ranges are at their keys, not empty, disjoint and not adjacent, and what is free is
what is not allocated of the initial range. -/
structure Canonical (first stop : Nat) (s : Run) : Prop where
  keyed : s.list.Keyed
  cover : ∀ b, s.list.cover b = if first ≤ b ∧ b < stop ∧ b ∉ s.allocated then 1 else 0
  apart : ∀ k e, s.list.find? k = some e → s.list.cover e.end = 0

/-- A range is allocated exactly if all of it is free, and a length exactly if some free
range has room for it. -/
def Answers (s : Run) : Op → Prop
  | .allocAt addr len => ∃ found, s.list.allocAt addr len = some found ∧
      (found.isSome ↔ ∀ b, addr ≤ b → b < addr + len → s.list.cover b = 1)
  | .allocFirst len => (s.list.allocFirst len).1 = 0 ↔
      ∀ k e, s.list.find? k = some e → e.end - e.start < len
  | .free _ _ | .update _ _ => True

/-- A range that wraps is not taken for a part of a free one, a free range at address zero
has no room, and an update takes no part of a free range. -/
def Unwrapped (s : Run) : Op → Prop
  | .allocAt addr len => 2 ^ 64 ≤ addr + len →
      ∀ k e, s.list.find? k = some e → e.start ≤ addr → e.end < addAddress addr len
  | .allocFirst len => ∀ e, s.list.find? 0 = some e → e.end < len
  | .free _ _ => True
  | .update start len => ∀ e, s.list.find? start = some e → e.end ≤ addAddress start len

section Ranges

variable {list list' : FreeList} {addr len b : Nat}

theorem exists_of_cover (h : list.cover b ≠ 0) :
    ∃ k e, list.find? k = some e ∧ e.start ≤ b ∧ b < e.end := by
  rw [cover, coverage_eq_countP, Nat.cast_ne_zero, ← Nat.pos_iff_ne_zero, countP_pos_iff] at h
  obtain ⟨⟨k, e⟩, hmem, hb⟩ := h
  exact ⟨k, e, (OrderedMap.mem_entries_iff list k e).1 hmem, of_decide_eq_true hb⟩

/-- Nothing starts where nothing is free. -/
theorem Keyed.find?_eq_none (h : list.Keyed) (hb : list.cover b = 0) : list.find? b = none := by
  cases hfind : list.find? b with
  | none => rfl
  | some e =>
    obtain ⟨hkey, hlt, -⟩ := h b e hfind
    have hone := one_le_coverage hfind (show e.start ≤ b ∧ b < e.end by omega)
    unfold cover at hb
    omega

theorem entry_unique {k k' : Nat} {e e' : FreeEntry} (hdisjoint : ∀ b, list.cover b ≤ 1)
    (he : list.find? k = some e) (he' : list.find? k' = some e') (hb : e.start ≤ b ∧ b < e.end)
    (hb' : e'.start ≤ b ∧ b < e'.end) :
    e = e' := by
  by_cases hkey : k' = k
  · exact some.inj (he.symm.trans (hkey ▸ he'))
  · have htwo := two_le_coverage hkey he he' hb hb'
    have hone := hdisjoint b
    unfold cover at hone
    omega

variable {entries : List (Nat × FreeEntry)}

theorem scanAt_eq (h : ∀ x ∈ entries, x.1 = x.2.start) :
    scanAt addr len entries = some ((entries.find? fun x =>
      x.2.start ≤ addr ∧ addAddress addr len ≤ x.2.end).map Prod.snd) := by
  induction entries with
  | nil => rfl
  | cons x rest ih =>
    rw [scanAt, if_neg (not_not.2 (h x mem_cons_self)), find?_cons]
    split
    case isTrue hfits => simp [hfits]
    case isFalse hfits =>
      rw [ih fun y hy => h y (mem_cons_of_mem x hy)]
      simp [hfits]

theorem Keyed.exists_allocAt (h : list.Keyed) :
    ∃ found, list.allocAt addr len = some found ∧ (found.isSome ↔
      ∃ k e, list.find? k = some e ∧ e.start ≤ addr ∧ addAddress addr len ≤ e.end) := by
  refine ⟨_, by rw [allocAt, scanAt_eq fun x hx => (keyed_iff.1 h x hx).1]; rfl, ?_⟩
  rw [isSome_map, isSome_map, find?_isSome]
  constructor
  · rintro ⟨⟨k, e⟩, hmem, hfits⟩
    exact ⟨k, e, (OrderedMap.mem_entries_iff list k e).1 hmem, of_decide_eq_true hfits⟩
  · rintro ⟨k, e, hfind, hfits⟩
    exact ⟨(k, e), (OrderedMap.mem_entries_iff list k e).2 hfind, decide_eq_true hfits⟩

/-- An address where an entry ends. -/
def Ends (list : FreeList) (b : Nat) : Prop := ∃ k e, list.find? k = some e ∧ e.end = b

theorem Ends.of_erase {k : Nat} (h : Ends (OrderedMap.erase list k) b) : list.Ends b := by
  obtain ⟨k', e, hfind, hend⟩ := h
  rw [OrderedMap.find?_erase] at hfind
  exact ⟨k', e, (ite_none_left_eq_some.1 hfind).2, hend⟩

theorem Ends.of_insert {k : Nat} {e : FreeEntry} (h : Ends (OrderedMap.insert list k e) b) :
    b = e.end ∨ list.Ends b := by
  obtain ⟨k', e', hfind, hend⟩ := h
  rw [OrderedMap.find?_insert] at hfind
  split at hfind
  · cases hfind
    exact Or.inl hend.symm
  · exact Or.inr ⟨k', e', hfind, hend⟩

theorem ends_allocAt (halloc : list.allocAt addr len = some (some list')) (hend : list'.Ends b) :
    b = addr ∨ list.Ends b := by
  obtain ⟨found, hscan, hfound⟩ := map_eq_some_iff.1 halloc
  obtain ⟨e, rfl, rfl⟩ := map_eq_some_iff.1 hfound
  have hmem := (OrderedMap.mem_entries_iff list _ _).1 (scanAt_spec hscan).1
  have hold : list.Ends e.end := ⟨_, e, hmem, rfl⟩
  split at hend
  · split at hend
    · rcases hend.of_insert with rfl | hend
      · exact Or.inr hold
      · exact Or.inr hend.of_erase
    · exact Or.inr hend.of_erase
  · split at hend
    · exact hend.of_insert
    · rcases hend.of_insert with rfl | hend
      · exact Or.inr hold
      · exact hend.of_insert

theorem ends_allocFirst {start : Nat} (halloc : list.allocFirst len = (start, list'))
    (hend : list'.Ends b) :
    list.Ends b := by
  unfold allocFirst at halloc
  split at halloc
  case h_1 => exact (Prod.mk.inj halloc).2 ▸ hend
  case h_2 key e hscan =>
    have hmem := (OrderedMap.mem_entries_iff list _ _).1 (mem_of_find?_eq_some hscan)
    split at halloc
    · exact ((Prod.mk.inj halloc).2 ▸ hend).of_erase
    · rcases ((Prod.mk.inj halloc).2 ▸ hend).of_insert with rfl | hend
      · exact ⟨key, e, hmem, rfl⟩
      · exact hend.of_erase

theorem apart_cons {x : Nat × FreeEntry} (hx : ∀ b ∈ entries, x.2.end < b.1)
    (h : (mergeEntries entries).Pairwise fun a b => a.2.end < b.1) :
    (x :: mergeEntries entries).Pairwise fun a b => a.2.end < b.1 := by
  refine pairwise_cons.2 ⟨fun b hb => ?_, h⟩
  obtain ⟨b', hb', hkey⟩ :=
    List.mem_map.1 ((mergeEntries_keys entries).subset (List.mem_map_of_mem hb))
  exact hkey ▸ hx b' hb'

/-- Joining one range to its neighbours leaves no two ranges adjacent. -/
theorem mergeEntries_apart {n : Nat}
    (h : entries.Pairwise fun a b => a.1 < b.1 ∧
      (a.2.end < b.1 ∨ a.2.end = b.1 ∧ (a.1 = n ∨ b.1 = n)))
    (hkeys : ∀ e ∈ entries, e.1 = e.2.start) :
    (mergeEntries entries).Pairwise fun a b => a.2.end < b.1 := by
  induction entries using mergeEntries.induct with
  | case1 => exact List.Pairwise.nil
  | case2 x => exact pairwise_singleton _ _
  | case3 x y hxy =>
    rw [mergeEntries, if_pos hxy]
    exact pairwise_singleton _ _
  | case4 x y hxy ih =>
    rw [mergeEntries, if_neg hxy]
    simp only [pairwise_cons, forall_mem_cons] at h hkeys
    refine apart_cons (fun b hb => ?_) (pairwise_singleton _ _)
    rw [mem_singleton.1 hb]
    omega
  | case5 x y z rest hxy hyz ih =>
    rw [mergeEntries, if_pos hxy, if_pos hyz]
    simp only [pairwise_cons, forall_mem_cons] at h hkeys
    obtain ⟨⟨hxy', -⟩, ⟨hyz', -⟩, hz, hrest⟩ := h
    refine apart_cons (fun b hb => ?_) (ih hrest hkeys.2.2.2)
    -- the middle one is the new range, so the ones behind are apart
    have hzb := hz b hb
    dsimp only
    omega
  | case6 x y z rest hxy hyz ih =>
    rw [mergeEntries, if_pos hxy, if_neg hyz]
    simp only [pairwise_cons, forall_mem_cons] at h hkeys ih
    obtain ⟨-, ⟨hyz', -⟩, hz, hrest⟩ := h
    refine apart_cons (forall_mem_cons.2 ⟨?_, fun b hb => ?_⟩)
      (ih ⟨hz, hrest⟩ hkeys.2.2)
    · dsimp only
      omega
    · have hzb := (hz b hb).1
      dsimp only
      omega
  | case7 x y z rest hxy ih =>
    rw [mergeEntries, if_neg hxy]
    simp only [pairwise_cons, forall_mem_cons] at h hkeys ih
    obtain ⟨⟨hxy', -⟩, ⟨hyz', hy⟩, hz, hrest⟩ := h
    refine apart_cons (forall_mem_cons.2 ⟨by omega,
      forall_mem_cons.2 ⟨by omega, fun b hb => ?_⟩⟩)
      (ih ⟨⟨hyz', hy⟩, hz, hrest⟩ hkeys.2)
    have hyb := (hy b hb).1
    omega

theorem ends_free (h : list.Keyed) (hdisjoint : ∀ b, list.cover b ≤ 1)
    (hapart : ∀ b, list.Ends b → list.cover b = 0) (hlen : 0 < len) (hbound : addr + len < 2 ^ 64)
    (htaken : ∀ b, addr ≤ b → b < addr + len → list.cover b = 0)
    (hend : (list.free addr len).Ends b) :
    (list.free addr len).cover b = 0 := by
  have hkeyed := h.insert (e := ⟨addr, addr + len⟩) (show addr < addr + len by omega) hbound
  have hnew := h.find?_eq_none (htaken addr le_rfl (by omega))
  have hcovers {k c : Nat} {e : FreeEntry} (he : list.find? k = some e)
      (hc : e.start ≤ c ∧ c < e.end) : list.cover c = 1 :=
    le_antisymm (hdisjoint c) (one_le_coverage he hc)
  -- only the new range can be adjacent to another one
  have hpairs : (OrderedMap.insert list addr ⟨addr, addr + len⟩).entries.Pairwise fun x y =>
      x.1 < y.1 ∧ (x.2.end < y.1 ∨ x.2.end = y.1 ∧ (x.1 = addr ∨ y.1 = addr)) := by
    refine (OrderedMap.insert list addr ⟨addr, addr + len⟩).sorted.imp_of_mem ?_
    rintro ⟨k, e⟩ ⟨k', e'⟩ hmem hmem' hlt
    refine ⟨hlt, ?_⟩
    rw [OrderedMap.mem_entries_iff, OrderedMap.find?_insert] at hmem hmem'
    dsimp only at hlt ⊢
    split at hmem
    case isTrue hk =>
      cases hmem
      rw [if_neg (by omega)] at hmem'
      obtain ⟨rfl, hlt', -⟩ := h k' e' hmem'
      by_contra hno
      have hzero := htaken e'.start (by omega) (by dsimp only at hno; omega)
      have hone := hcovers hmem' ⟨le_rfl, hlt'⟩
      omega
    case isFalse hk =>
      obtain ⟨rfl, hlt', -⟩ := h k e hmem
      by_contra hno
      split at hmem'
      case isTrue hk' =>
        have hzero := htaken addr le_rfl (by omega)
        have hone := hcovers hmem (show e.start ≤ addr ∧ addr < e.end by omega)
        omega
      case isFalse hk' =>
        obtain ⟨rfl, hlt'', -⟩ := h k' e' hmem'
        by_cases hin : e'.start < e.end
        · have heq := entry_unique hdisjoint hmem hmem' (b := e'.start) (by omega) (by omega)
          rw [heq] at hlt
          exact lt_irrefl _ hlt
        · have hzero := hapart e.end ⟨_, e, hmem, rfl⟩
          have hone := hcovers hmem' (show e'.start ≤ e.end ∧ e.end < e'.end by omega)
          omega
  have hentries : (list.free addr len).entries.Pairwise fun x y => x.2.end < y.1 := by
    rw [free, addAddress_eq hbound]
    exact mergeEntries_apart hpairs fun e he => (keyed_iff.1 hkeyed e he).1
  have hbehind : ∀ x ∈ (list.free addr len).entries, ∀ y ∈ (list.free addr len).entries,
      x.1 < y.1 → x.2.end < y.1 := by
    refine fun x hx y hy => List.Pairwise.forall_of_forall_of_flip
      (R := fun x y => x.1 < y.1 → x.2.end < y.1) (fun z _ hlt => absurd hlt (lt_irrefl _)) ?_ ?_
      hx hy
    · exact hentries.imp fun {x y} hlt (_ : x.1 < y.1) => hlt
    · exact (list.free addr len).sorted.imp fun hlt hlt' => absurd hlt' hlt.not_gt
  have hfree := keyed_iff.1 (free_spec h hnew hlen hbound).1
  obtain ⟨k, e, hfind, rfl⟩ := hend
  by_contra hne
  obtain ⟨k', e', hfind', hb⟩ := exists_of_cover hne
  have hmem := (OrderedMap.mem_entries_iff _ _ _).2 hfind
  have hmem' := (OrderedMap.mem_entries_iff _ _ _).2 hfind'
  have he := hfree _ hmem
  have he' := hfree _ hmem'
  dsimp only at he he'
  rcases lt_trichotomy k k' with hlt | rfl | hlt
  · have hlt' := hbehind _ hmem _ hmem' hlt
    dsimp only at hlt'
    omega
  · cases hfind.symm.trans hfind'
    exact lt_irrefl _ hb.2
  · have hlt' := hbehind _ hmem' _ hmem hlt
    dsimp only at hlt'
    omega

end Ranges

section Runs

variable {first stop : Nat} {s t : Run} {op : Op}

theorem Canonical.le_one (h : Canonical first stop s) (b : Nat) : s.list.cover b ≤ 1 := by
  rw [h.cover]
  split <;> decide

theorem Canonical.start (hrange : first < stop) (hstop : stop < 2 ^ 64) :
    Canonical first stop ⟨initial first stop, ∅⟩ := by
  have hempty : Keyed OrderedMap.empty := fun k e he => by cases he
  have hcover (b : Nat) : FreeList.cover (initial first stop) b = rangeIndicator first stop b := by
    rw [FreeList.cover, initial, coverage_insert_new _ (OrderedMap.find?_empty first)]
    exact zero_add _
  refine ⟨hempty.insert (e := ⟨first, stop⟩) hrange hstop, fun b => ?_, fun k e he => ?_⟩
  · rw [hcover, rangeIndicator]
    simp
  · rw [initial, OrderedMap.find?_insert] at he
    obtain rfl := some.inj (ite_none_right_eq_some.1 he).2
    rw [hcover]
    exact if_neg fun hb => lt_irrefl _ hb.2

variable {addr len : Nat}

theorem Canonical.giveBack (h : Canonical first stop s) (hstop : stop < 2 ^ 64) (hlen : 0 < len)
    (hbelow : ∀ b ∈ s.allocated, first ≤ b ∧ b < stop)
    (htaken : Finset.Ico addr (addr + len) ⊆ s.allocated) :
    Canonical first stop ⟨s.list.free addr len, s.allocated \ Finset.Ico addr (addr + len)⟩ := by
  have hmem (b : Nat) (haddr : addr ≤ b) (hb : b < addr + len) : b ∈ s.allocated :=
    htaken (Finset.mem_Ico.2 ⟨haddr, hb⟩)
  have hzero (b : Nat) (haddr : addr ≤ b) (hb : b < addr + len) : s.list.cover b = 0 :=
    (h.cover b).trans (if_neg fun hfree => hfree.2.2 (hmem b haddr hb))
  have hlast := (hbelow _ (hmem (addr + len - 1) (by omega) (by omega))).2
  have hbound : addr + len < 2 ^ 64 := by omega
  obtain ⟨hkeyed, hcover⟩ :=
    free_spec h.keyed (h.keyed.find?_eq_none (hzero addr le_rfl (by omega))) hlen hbound
  refine ⟨hkeyed, fun b => ?_, fun k e he => ?_⟩
  · rw [hcover, Pi.add_apply, rangeIndicator]
    simp only [Finset.mem_sdiff, Finset.mem_Ico]
    split
    case isTrue hb =>
      have hin := hbelow b (hmem b hb.1 hb.2)
      rw [hzero b hb.1 hb.2, if_pos ⟨hin.1, hin.2, fun hno => hno.2 hb⟩, zero_add]
    case isFalse hb => simp only [hb, not_false_eq_true, and_true, add_zero, h.cover]
  · refine ends_free h.keyed h.le_one (fun b hb => ?_) hlen hbound hzero ⟨k, e, he, rfl⟩
    obtain ⟨k', e', he', rfl⟩ := hb
    exact h.apart k' e' he'

/-- What every call keeps. -/
structure Sound (first stop : Nat) (s : Run) : Prop where
  canonical : Canonical first stop s
  below : ∀ b ∈ s.allocated, first ≤ b ∧ b < stop

theorem Sound.take {list : FreeList} (h : Sound first stop s)
    (hlist : list.Keyed ∧ list.cover = s.list.cover - rangeIndicator addr (addr + len) ∧
      ∃ e, s.list.find? e.start = some e ∧ e.start ≤ addr ∧ addr + len ≤ e.end)
    (hends : ∀ b, list.Ends b → b = addr ∨ s.list.Ends b) (hlen : 0 < len) :
    Sound first stop ⟨list, s.allocated ∪ Finset.Ico addr (addr + len)⟩ := by
  obtain ⟨hkeyed, hcover, e, hfind, haddr, hend⟩ := hlist
  have hone (b : Nat) (hb : addr ≤ b ∧ b < addr + len) : s.list.cover b = 1 :=
    le_antisymm (h.canonical.le_one b) (one_le_coverage hfind (by omega))
  have hleft (b : Nat) : list.cover b = if addr ≤ b ∧ b < addr + len then 0
      else s.list.cover b := by
    rw [hcover, Pi.sub_apply, rangeIndicator]
    split
    case isTrue hb => rw [hone b hb, sub_self]
    case isFalse => exact sub_zero _
  refine ⟨⟨hkeyed, fun b => ?_, fun k e' hfind' => ?_⟩, fun b hb => ?_⟩
  · rw [hleft, h.canonical.cover]
    simp only [Finset.mem_union, Finset.mem_Ico, not_or]
    split
    case isTrue hb => exact (if_neg fun hfree => hfree.2.2.2 hb).symm
    case isFalse hb => simp only [hb, not_false_eq_true, and_true]
  · rw [hleft]
    rcases hends _ ⟨k, e', hfind', rfl⟩ with heq | ⟨k₀, e₀, hfind₀, heq⟩
    · exact if_pos ⟨heq.ge, by omega⟩
    · split
      · rfl
      · exact heq ▸ h.canonical.apart k₀ e₀ hfind₀
  · refine (Finset.mem_union.1 hb).elim (h.below b) fun hb => ?_
    by_contra hout
    have hzero := (h.canonical.cover b).trans (if_neg fun hin => hout ⟨hin.1, hin.2.1⟩)
    have hcovered := hone b (Finset.mem_Ico.1 hb)
    omega

theorem Canonical.free_iff (h : Canonical first stop s) (hlen : 0 < len) :
    (∀ b, addr ≤ b → b < addr + len → s.list.cover b = 1) ↔
      ∃ k e, s.list.find? k = some e ∧ e.start ≤ addr ∧ addr + len ≤ e.end := by
  constructor
  · intro hfree
    obtain ⟨k, e, hfind, hb⟩ := exists_of_cover
      (hfree addr le_rfl (by omega) ▸ one_ne_zero : s.list.cover addr ≠ 0)
    refine ⟨k, e, hfind, hb.1, not_lt.1 fun hlt => ?_⟩
    have hone := hfree e.end (by omega) (by omega)
    have hzero := h.apart k e hfind
    omega
  · rintro ⟨k, e, hfind, haddr, hend⟩ b hle hlt
    exact le_antisymm (h.le_one b) (one_le_coverage hfind (by omega))

theorem answers_allocAt_iff (h : Canonical first stop s) (hlen : 0 < len) :
    Answers s (.allocAt addr len) ↔ Unwrapped s (.allocAt addr len) := by
  obtain ⟨found, halloc, hfound⟩ := @Keyed.exists_allocAt s.list addr len h.keyed
  simp only [Answers, Unwrapped, halloc, Option.some.injEq, exists_eq_left', hfound,
    h.free_iff hlen]
  by_cases hwrap : addr + len < 2 ^ 64
  · simp only [addAddress_eq hwrap, true_iff]
    exact fun hno => absurd hno (not_le.2 hwrap)
  · have hnone : ¬∃ k e, s.list.find? k = some e ∧ e.start ≤ addr ∧ addr + len ≤ e.end := by
      rintro ⟨k, e, hfind, -, hend⟩
      have hbound := (h.keyed k e hfind).2.2
      omega
    simp only [hnone, iff_false, not_exists, not_and, not_le]
    exact ⟨fun hno _ => hno, fun hno => hno (not_lt.1 hwrap)⟩

theorem allocFirst_cases {list : FreeList} (h : list.Keyed) (len : Nat) :
    (∀ k e, list.find? k = some e → e.end - e.start < len) ∧ list.allocFirst len = (0, list) ∨
      ∃ e, list.find? e.start = some e ∧ len ≤ e.end - e.start ∧ (list.allocFirst len).1 = e.start ∧
        ∀ e', list.find? 0 = some e' → len ≤ e'.end → e.start = 0 := by
  unfold allocFirst
  split
  case h_1 hscan =>
    refine Or.inl ⟨fun k e hfind => ?_, rfl⟩
    have hno := List.find?_eq_none.1 hscan (k, e) ((OrderedMap.mem_entries_iff _ k e).2 hfind)
    simpa using hno
  case h_2 key e hscan =>
    have hfind := (OrderedMap.mem_entries_iff list _ _).1 (mem_of_find?_eq_some hscan)
    have hfits := find?_some hscan
    have hroom : len ≤ e.end - e.start := of_decide_eq_true hfits
    obtain ⟨rfl, -⟩ := h key e hfind
    refine Or.inr ⟨e, hfind, hroom, by split <;> rfl, fun e' hfind' hroom' => ?_⟩
    have hzero := (h 0 e' hfind').1
    have hmem := (OrderedMap.mem_entries_iff list 0 e').2 hfind'
    have hsorted := list.sorted
    -- the entry at address zero is the first one
    cases hentries : list.entries with
    | nil =>
      rw [hentries] at hmem
      cases hmem
    | cons x rest =>
      rw [hentries] at hmem hsorted hscan
      rcases mem_cons.1 hmem with rfl | hmem
      · have hfits' : len ≤ e'.end - e'.start := by omega
        simp only [find?_cons, hfits', decide_true] at hscan
        exact (congrArg Prod.fst (some.inj hscan)).symm
      · exact absurd ((pairwise_cons.1 hsorted).1 _ hmem) (Nat.not_lt_zero _)

theorem answers_allocFirst_iff {len : Nat} (h : Canonical first stop s) :
    Answers s (.allocFirst len) ↔ Unwrapped s (.allocFirst len) := by
  simp only [Answers, Unwrapped]
  rcases allocFirst_cases h.keyed len with ⟨hnone, heq⟩ | ⟨e, hfind, hroom, heq, hfirst⟩
  · refine iff_of_true (iff_of_true (by rw [heq]) hnone) fun e hfind => ?_
    have hroom := hnone 0 e hfind
    rwa [← (h.keyed 0 e hfind).1, Nat.sub_zero] at hroom
  · have hfits : ¬∀ k e, s.list.find? k = some e → e.end - e.start < len :=
      fun hall => absurd (hall _ e hfind) (not_lt.2 hroom)
    rw [heq, iff_false_right hfits]
    refine ⟨fun hne e' hfind' => not_le.1 fun hle => hne (hfirst e' hfind' hle),
      fun hnone hzero => ?_⟩
    have hlt := hnone e (hzero ▸ hfind)
    omega

/-- A proper call keeps the free list exact. -/
theorem Sound.step (h : Sound first stop s) (hstop : stop < 2 ^ 64) (hproper : op.Proper)
    (hstep : step s op = some t) (hok : Unwrapped s op) :
    Sound first stop t := by
  cases op with
  | allocAt addr len =>
    dsimp only [FreeList.step] at hstep
    split at hstep
    case h_1 list halloc =>
      cases hstep
      obtain ⟨found, halloc', hfound⟩ := @Keyed.exists_allocAt s.list addr len h.canonical.keyed
      cases halloc.symm.trans halloc'
      obtain ⟨k, e, hfind, haddr, hend⟩ := hfound.1 rfl
      have hbound : addr + len < 2 ^ 64 := not_le.1 fun hwrap =>
        absurd hend (not_le.2 (hok hwrap k e hfind haddr))
      exact h.take (allocAt_spec h.canonical.keyed h.canonical.le_one hproper.1 hbound halloc)
        (fun b => ends_allocAt halloc) hproper.1
    case h_2 =>
      cases hstep
      exact h
  | allocFirst len =>
    cases hstep
    split
    case isTrue hzero =>
      rcases allocFirst_cases h.canonical.keyed len with ⟨-, heq⟩ | ⟨e, hfind, hroom, heq, -⟩
      · rw [heq]
        exact h
      · have hzero' : e.start = 0 := heq.symm.trans hzero
        have hlt := hok e (hzero' ▸ hfind)
        omega
    case isFalse hne =>
      exact h.take (allocFirst_spec h.canonical.keyed h.canonical.le_one hproper.1 rfl hne)
        (fun b hend => Or.inr (ends_allocFirst rfl hend)) hproper.1
  | free addr len =>
    obtain ⟨htaken, ht⟩ := ite_none_right_eq_some.1 hstep
    cases ht
    exact ⟨h.canonical.giveBack hstop hproper.1 h.below htaken,
      fun b hb => h.below b (Finset.mem_sdiff.1 hb).1⟩
  | update start len =>
    cases hstep
    have hcases : s.list.update start len = (false, s.list) ∨
        ∃ e, s.list.find? start = some e ∧ addAddress start len = e.end ∧
          s.list.update start len = (true, OrderedMap.erase s.list start) := by
      unfold update
      split
      case h_1 => exact Or.inl rfl
      case h_2 e hfind =>
        rw [← (h.canonical.keyed start e hfind).1, if_neg (not_lt.2 (hok e hfind))]
        split
        case isTrue hend => exact Or.inr ⟨e, hfind, hend, rfl⟩
        case isFalse => exact Or.inl rfl
    rcases hcases with heq | ⟨e, hfind, hend, heq⟩
    · rw [heq]
      exact h
    · obtain ⟨rfl, hlt, -⟩ := h.canonical.keyed start e hfind
      have hlen := hproper.2
      unfold addAddress at hend
      have hwhole : e.end = e.start + len := by omega
      rw [heq]
      refine h.take ⟨h.canonical.keyed.erase _, ?_, e, hfind, le_rfl, hwhole.ge⟩
        (fun b hend => Or.inr hend.of_erase) hproper.1
      rw [← hwhole]
      exact coverage_erase hfind

theorem unwrapped_of_canonical (h : Sound first stop s) (hproper : op.Proper)
    (hstep : step s op = some t) (hcanonical : Canonical first stop t) (hanswers : Answers s op) :
    Unwrapped s op := by
  cases op with
  | allocAt addr len => exact (answers_allocAt_iff h.canonical hproper.1).1 hanswers
  | allocFirst len => exact (answers_allocFirst_iff h.canonical).1 hanswers
  | free addr len => trivial
  | update start len =>
    intro e hfind
    by_contra hpart
    cases hstep
    obtain ⟨rfl, hlt, -⟩ := h.canonical.keyed start e hfind
    have hlen : 0 < len ∧ len < 2 ^ 64 := hproper
    -- what is left of the entry is not at its key
    have hleft : (s.list.update e.start len).2.find? e.start =
        some ⟨addAddress e.start len, e.end⟩ := by
      rw [update, hfind]
      dsimp only
      rw [if_pos (not_le.1 hpart)]
      exact OrderedMap.find?_insert_self _ _ _
    have hkey : e.start = (e.start + len) % 2 ^ 64 := (hcanonical.keyed _ _ hleft).1
    omega

/-- The list stays canonical and answers as it should, exactly if the initial range is not
empty and the calls meet the condition. -/
theorem canonical_run_iff {ops : List Op}
    (hstop : stop < 2 ^ 64)
    (hproper : ∀ op ∈ ops, op.Proper)
    (hrun : runOps FreeList.step ⟨initial first stop, ∅⟩ ops = some t) :
    Throughout FreeList.step (Canonical first stop) ⟨initial first stop, ∅⟩ ops ∧
        StepsMeet FreeList.step Answers ⟨initial first stop, ∅⟩ ops ↔
      first < stop ∧ StepsMeet FreeList.step Unwrapped ⟨initial first stop, ∅⟩ ops := by
  by_cases hrange : first < stop
  · rw [and_iff_right hrange]
    refine throughout_and_stepsMeet_iff (I := Sound first stop) (q := Op.Proper)
      (fun _ hs => hs.canonical) (fun _ op _ hs hop hstep hok => ⟨hs.step hstop hop hstep hok, ?_⟩)
      (fun _ _ _ hs hop hstep hcanonical => unwrapped_of_canonical hs hop hstep hcanonical)
      ⟨.start hrange hstop, fun b hb => absurd hb (Finset.notMem_empty b)⟩ hproper hrun
    cases op with
    | allocAt addr len => exact (answers_allocAt_iff hs.canonical hop.1).2 hok
    | allocFirst len => exact (answers_allocFirst_iff hs.canonical).2 hok
    | free addr len => trivial
    | update start len => trivial
  · refine iff_of_false (fun h => ?_) fun h => hrange h.1
    have hkeyed := (h.1 [] _ nil_prefix (runOps_nil _ _)).keyed
    exact hrange (hkeyed first ⟨first, stop⟩ (OrderedMap.find?_insert_self _ _ _)).2.1

theorem canonical_run_iff_two_calls :
    Throughout FreeList.step (Canonical 1 9) ⟨initial 1 9, ∅⟩ [.allocAt 2 3, .free 2 3] ∧
        StepsMeet FreeList.step Answers ⟨initial 1 9, ∅⟩ [.allocAt 2 3, .free 2 3] ↔
      1 < 9 ∧ StepsMeet FreeList.step Unwrapped ⟨initial 1 9, ∅⟩ [.allocAt 2 3, .free 2 3] :=
  canonical_run_iff (by decide) (by simp [Op.Proper]) rfl

/-- After an update the rest of a free range is at the key of the whole. -/
theorem not_canonical_update :
    ¬(Throughout FreeList.step (Canonical 1 9) ⟨initial 1 9, ∅⟩ [.update 1 2] ∧
        StepsMeet FreeList.step Answers ⟨initial 1 9, ∅⟩ [.update 1 2]) := by
  intro h
  have hkeyed := (h.1 _ _ prefix_rfl rfl).keyed
  exact absurd (hkeyed 1 ⟨3, 9⟩ rfl).1 (by decide)

theorem Canonical.find?_of_eq (hs : Canonical first stop s) (ht : Canonical first stop t)
    (hsame : s.allocated = t.allocated) {k : Nat} {e : FreeEntry} (he : s.list.find? k = some e) :
    t.list.find? k = some e := by
  have hcover (b : Nat) : t.list.cover b = s.list.cover b := by rw [hs.cover, ht.cover, hsame]
  have hin {s : Run} {k b : Nat} {e : FreeEntry} (he : s.list.find? k = some e)
      (hb : e.start ≤ b ∧ b < e.end) : s.list.cover b ≠ 0 :=
    (Int.lt_of_lt_of_le Int.one_pos (one_le_coverage he hb)).ne'
  obtain ⟨rfl, hlt, -⟩ := hs.keyed k e he
  obtain ⟨k', e', he', hlo, hhi⟩ :=
    exists_of_cover (hcover e.start ▸ hin he ⟨le_rfl, hlt⟩ : t.list.cover e.start ≠ 0)
  obtain ⟨rfl, hlt', -⟩ := ht.keyed k' e' he'
  have hstart : e'.start = e.start := by
    by_contra hne
    -- the place before the range is free, in a range that ends where this one starts
    obtain ⟨k₀, e₀, he₀, hlo₀, hhi₀⟩ := exists_of_cover
      (hcover (e.start - 1) ▸ hin he' ⟨by omega, by omega⟩ : s.list.cover (e.start - 1) ≠ 0)
    by_cases hend : e₀.end = e.start
    · exact hin he ⟨le_rfl, hlt⟩ (hend ▸ hs.apart k₀ e₀ he₀)
    · obtain rfl := entry_unique hs.le_one he₀ he (b := e.start) ⟨by omega, by omega⟩ ⟨le_rfl, hlt⟩
      omega
  have hend : e'.end = e.end := by
    rcases lt_trichotomy e'.end e.end with hless | heq | hmore
    · exact absurd (hcover e'.end ▸ ht.apart _ e' he') (hin he ⟨by omega, hless⟩)
    · exact heq
    · exact absurd (hcover e.end ▸ hs.apart _ e he) (hin he' ⟨by omega, hmore⟩)
  rw [← hstart, he']
  cases e
  cases e'
  simp_all

/-- The list does not tell in which order the addresses were taken and given back. -/
theorem list_eq_of_allocated_eq {ops ops' : List Op} (hrange : first < stop) (hstop : stop < 2 ^ 64)
    (hok : StepsMeet FreeList.step (fun s op => op.Proper ∧ Unwrapped s op)
      ⟨initial first stop, ∅⟩ ops)
    (hok' : StepsMeet FreeList.step (fun s op => op.Proper ∧ Unwrapped s op)
      ⟨initial first stop, ∅⟩ ops')
    (hrun : runOps FreeList.step ⟨initial first stop, ∅⟩ ops = some s)
    (hrun' : runOps FreeList.step ⟨initial first stop, ∅⟩ ops' = some t)
    (hsame : s.allocated = t.allocated) :
    s.list = t.list := by
  have hstart : Sound first stop ⟨initial first stop, ∅⟩ :=
    ⟨.start hrange hstop, fun b hb => absurd hb (Finset.notMem_empty b)⟩
  have hsound {ops : List Op} {s : Run} := @runOps_invariant_of_stepsMeet _ _ FreeList.step
    (Sound first stop) (fun s op => op.Proper ∧ Unwrapped s op)
    (fun _ _ _ hs hok hstep => hs.step hstop hok.1 hstep hok.2) _ s ops hstart
  have hs := (hsound hok hrun).canonical
  have ht := (hsound hok' hrun').canonical
  refine OrderedMap.eq_of_find? fun k => Option.ext fun e => ?_
  exact ⟨hs.find?_of_eq ht hsame, ht.find?_of_eq hs hsame.symm⟩

theorem list_eq_of_allocated_eq_round_trip :
    ∃ t, runOps FreeList.step ⟨initial 1 9, ∅⟩ [.allocAt 2 3, .free 2 3] = some t ∧
      t.list = initial 1 9 := by
  have hrun : runOps FreeList.step ⟨initial 1 9, ∅⟩ [.allocAt 2 3, .free 2 3] = some _ := rfl
  refine ⟨_, hrun, list_eq_of_allocated_eq (by decide : 1 < 9) (by decide) ?_ ?_ hrun
    (runOps_nil _ _) (by decide)⟩
  · exact ⟨⟨by simp [Op.Proper], fun hwrap => by omega⟩,
      fun _ _ => ⟨⟨by simp [Op.Proper], trivial⟩, fun _ _ => trivial⟩⟩
  · exact trivial

end Runs

end FreeList

end SstElements.VanadisOS
