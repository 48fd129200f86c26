import SstElements.VanadisOS.PageOwnership

/-!
# The pages of regions

What the calls on a memory map do to the mappings in its regions: how often a page occurs,
and which page an address has.
-/

namespace SstElements.VanadisOS

open Library List Option

section Count

variable {κ : Type} [LinearOrder κ]

theorem count_flatMap_entries {α : Type} (f : α → List Nat) (m : OrderedMap κ α) (y : Nat) :
    (m.entries.flatMap fun kv => f kv.2).count y = m.total fun a => (f a).count y := by
  rw [count_flatMap]
  rfl

theorem count_values (m : OrderedMap κ Nat) (y : Nat) :
    (m.entries.map Prod.snd).count y = m.total fun p => if p = y then 1 else 0 := by
  have hsingle : m.entries.map Prod.snd = m.entries.flatMap fun kv => [kv.2] := map_eq_flatMap
  rw [hsingle]
  refine (count_flatMap_entries (fun p => [p]) m y).trans (OrderedMap.total_congr fun e _ => ?_)
  rw [count_singleton]
  simp only [beq_iff_eq]

end Count

namespace VirtMemMap

variable {map map' : VirtMemMap MemoryBacking} {region : MemoryRegion MemoryBacking}
  {addr length vpn id page y : Nat}

/-- The page of an address in one of the regions. -/
def Mapped (map : VirtMemMap MemoryBacking) (vpn id : Nat) : Prop :=
  ∃ k region, map.regionMap.find? k = some region ∧ region.virtToPhysMap.find? vpn = some id

/-- No region has a page twice. -/
def Once (map : VirtMemMap MemoryBacking) : Prop :=
  ∀ k region, map.regionMap.find? k = some region → region.pages.Nodup

theorem count_pages (map : VirtMemMap MemoryBacking) (y : Nat) :
    map.pages.count y = map.regionMap.total fun region => region.pages.count y :=
  count_flatMap_entries MemoryRegion.pages map.regionMap y

theorem mem_pages_iff : id ∈ map.pages ↔ ∃ vpn, map.Mapped vpn id := by
  unfold VirtMemMap.pages MemoryRegion.pages Mapped
  rw [mem_flatMap]
  constructor
  · rintro ⟨⟨k, region⟩, hentry, hmem⟩
    obtain ⟨⟨vpn, id'⟩, hpage, rfl⟩ := mem_map.1 hmem
    exact ⟨vpn, k, region, (OrderedMap.mem_entries_iff _ _ _).1 hentry,
      (OrderedMap.mem_entries_iff _ _ _).1 hpage⟩
  · rintro ⟨vpn, k, region, hfind, hpage⟩
    exact ⟨(k, region), (OrderedMap.mem_entries_iff _ _ _).2 hfind,
      mem_map.2 ⟨(vpn, id), (OrderedMap.mem_entries_iff _ _ _).2 hpage, rfl⟩⟩

theorem count_setMapping (hfind : map.regionMap.find? region.addr = some region) :
    (map.setMapping region vpn page).pages.count y +
        (if region.virtToPhysMap.find? vpn = some y then 1 else 0) =
      map.pages.count y + if page = y then 1 else 0 := by
  rw [count_pages, count_pages]
  have houter := OrderedMap.total_insert (fun r : MemoryRegion MemoryBacking => r.pages.count y)
    map.regionMap region.addr
    { region with virtToPhysMap := region.virtToPhysMap.insert vpn page }
  have hinner := OrderedMap.total_insert (fun p : Nat => if p = y then 1 else 0)
    region.virtToPhysMap vpn page
  rw [hfind] at houter
  dsimp only [OrderedMap.weight] at houter
  unfold MemoryRegion.pages at houter
  rw [count_values, count_values] at houter
  have hold : OrderedMap.weight (fun p : Nat => if p = y then 1 else 0)
      (region.virtToPhysMap.find? vpn) =
      if region.virtToPhysMap.find? vpn = some y then 1 else 0 := by
    cases region.virtToPhysMap.find? vpn with
    | none => rfl
    | some old => simp [OrderedMap.weight]
  unfold setMapping MemoryRegion.pages
  dsimp only at houter ⊢
  omega

theorem mapped_setMapping {vpn' : Nat} (hfind : map.regionMap.find? region.addr = some region) :
    (map.setMapping region vpn page).Mapped vpn page ∧
      (vpn' ≠ vpn → map.Mapped vpn' id → (map.setMapping region vpn page).Mapped vpn' id) := by
  refine ⟨⟨region.addr, _, OrderedMap.find?_insert_self .., OrderedMap.find?_insert_self ..⟩, ?_⟩
  rintro hne ⟨k, region', hfind', hpage⟩
  by_cases hk : k = region.addr
  · subst hk
    cases hfind.symm.trans hfind'
    refine ⟨_, _, OrderedMap.find?_insert_self .., ?_⟩
    rw [OrderedMap.find?_insert_of_ne _ _ hne]
    exact hpage
  · exact ⟨k, region', (OrderedMap.find?_insert_of_ne _ _ hk).trans hfind', hpage⟩

theorem Once.setMapping (h : map.Once) (hfind : map.regionMap.find? region.addr = some region)
    (hnew : page ∉ map.pages) :
    (map.setMapping region vpn page).Once := by
  intro k region' hfind'
  unfold VirtMemMap.setMapping at hfind'
  rw [OrderedMap.find?_insert] at hfind'
  split at hfind'
  case isFalse => exact h k region' hfind'
  case isTrue =>
    cases hfind'
    rw [nodup_iff_count_le_one]
    intro y
    have hold := nodup_iff_count_le_one.1 (h _ _ hfind) y
    have hinsert := OrderedMap.total_insert (fun p : Nat => if p = y then 1 else 0)
      region.virtToPhysMap vpn page
    unfold MemoryRegion.pages at hold ⊢
    rw [count_values] at hold ⊢
    by_cases hy : page = y
    · have hzero : (region.virtToPhysMap.total fun p : Nat => if p = y then 1 else 0) = 0 := by
        rw [← count_values, count_eq_zero]
        rintro hmem
        obtain ⟨⟨vpn', y'⟩, hentry, rfl⟩ := mem_map.1 hmem
        refine hnew (mem_pages_iff.2 ⟨vpn', region.addr, region, hfind, ?_⟩)
        rw [hy]
        exact (OrderedMap.mem_entries_iff _ _ _).1 hentry
      rw [if_pos hy] at hinsert
      dsimp only
      omega
    · rw [if_neg hy] at hinsert
      dsimp only
      omega

theorem Arranged.setMapping (h : map.Arranged)
    (hfind : map.regionMap.find? region.addr = some region) :
    (map.setMapping region vpn page).Arranged := by
  have hreplaced : Replaced map (map.setMapping region vpn page) region
      { region with virtToPhysMap := region.virtToPhysMap.insert vpn page }
      { region with virtToPhysMap := region.virtToPhysMap.insert vpn page } :=
    h.replaced_whole hfind rfl rfl rfl rfl
  exact hreplaced.arranged h

/-- What a change of the regions keeps of their pages. -/
structure PagesKept (map map' : VirtMemMap MemoryBacking) : Prop where
  arranged : map'.Arranged
  count : ∀ y, map'.pages.count y = map.pages.count y
  mapped : ∀ vpn id, map.Mapped vpn id → map'.Mapped vpn id
  once : map.Once → map'.Once

section

variable (h : map.Arranged)
include h

theorem Arranged.addRegion_kept
    {name : String} {start perms added : Nat} {backing : Option MemoryBacking} (hpos : 0 < length)
    (hwrap : start ≠ 0 → start + length < 2 ^ 64)
    (hadd : map.addRegion name start length perms backing = some (added, map')) :
    PagesKept map map' := by
  obtain ⟨-, harranged, hfree, -⟩ := h.addRegion hpos hwrap hadd
  have hregions := addRegion_regionMap hadd
  have hnone : map.regionMap.find? added = none := by
    obtain ⟨k, e, hentry, hstart, hend⟩ := hfree added le_rfl (by omega)
    obtain rfl := (h.freeKeys k e hentry).1
    exact h.region_eq_none hentry ⟨hstart, hend⟩
  refine ⟨harranged, fun y => ?_, ?_, fun honce k region hfind => ?_⟩
  · have htotal := OrderedMap.total_insert
      (fun r : MemoryRegion MemoryBacking => r.pages.count y) map.regionMap added
      (.create name added length perms backing)
    rw [hnone] at htotal
    rw [count_pages, count_pages, hregions]
    exact htotal
  · rintro vpn id ⟨k, region, hfind, hpage⟩
    refine ⟨k, region, ?_, hpage⟩
    have hne : k ≠ added := by
      rintro rfl
      exact absurd (hnone.symm.trans hfind) nofun
    rw [hregions, OrderedMap.find?_insert_of_ne _ _ hne]
    exact hfind
  · rw [hregions, OrderedMap.find?_insert] at hfind
    split at hfind
    case isTrue =>
      cases hfind
      exact nodup_nil
    case isFalse => exact honce k region hfind

theorem Arranged.mprotect_kept {prot : Nat} (hlength : length < 2 ^ 64)
    (hregular : ∀ region ∈ map.findRegion addr, addr = region.addr → length = 0 → region.pages = [])
    (hprotect : map.mprotect addr length prot = some map') :
    PagesKept map map' := by
  obtain ⟨region, first, second, hfound, hr, hcases⟩ := h.mprotect_cases hlength hprotect
  -- the first part has the pages, the second part is the first one or has none
  have hparts : first.virtToPhysMap = region.virtToPhysMap ∧
      (second = first ∨ second.addr ≠ region.addr ∧ second.virtToPhysMap = .empty) := by
    rcases hcases with ⟨-, -, rfl, rfl⟩ | ⟨haddr, hzero, rfl, rfl⟩ | ⟨haddr, hpos, -, rfl, rfl⟩ |
      ⟨hlt, -, -, rfl, rfl⟩
    · exact ⟨rfl, .inl rfl⟩
    · refine ⟨?_, .inl rfl⟩
      have hnil := hregular region hfound haddr hzero
      exact OrderedMap.ext (map_eq_nil_iff.1 hnil).symm
    · refine ⟨rfl, .inr ⟨?_, rfl⟩⟩
      show addr + length ≠ region.addr
      omega
    · exact ⟨rfl, .inr ⟨hlt.ne', rfl⟩⟩
  obtain ⟨hfirst, hsecond⟩ := hparts
  have hregions : map'.regionMap = if second.addr = region.addr then
      map.regionMap.insert region.addr first
      else (map.regionMap.insert region.addr first).insert second.addr second := by
    refine OrderedMap.eq_of_find? fun k => ?_
    split
    case isTrue hsame =>
      rw [OrderedMap.find?_insert]
      split
      case isTrue hk =>
        rw [hk]
        exact hr.first_find
      case isFalse hk => exact hr.rest k hk (hsame ▸ hk)
    case isFalse hother =>
      rw [OrderedMap.find?_insert, OrderedMap.find?_insert]
      split
      case isTrue hk =>
        rw [hk]
        exact hr.second_find
      case isFalse hk =>
        split
        case isTrue hk' =>
          rw [hk']
          exact hr.first_find
        case isFalse hk' => exact hr.rest k hk' hk
  have hfirstPages : first.pages = region.pages := by
    unfold MemoryRegion.pages
    rw [hfirst]
  have hcount (y : Nat) : (map.regionMap.insert region.addr first).total
      (fun r : MemoryRegion MemoryBacking => r.pages.count y) =
      map.regionMap.total fun r => r.pages.count y := by
    have htotal := OrderedMap.total_insert
      (fun r : MemoryRegion MemoryBacking => r.pages.count y) map.regionMap region.addr first
    rw [hr.old] at htotal
    dsimp only [OrderedMap.weight] at htotal
    rw [hfirstPages] at htotal
    omega
  refine ⟨hr.arranged h, fun y => ?_, ?_, fun honce k region' hfind => ?_⟩
  · rw [count_pages, count_pages, hregions]
    split
    case isTrue => exact hcount y
    case isFalse hother =>
      have hempty := hsecond.resolve_left fun heq => hother (heq ▸ hr.first_addr)
      have htotal := OrderedMap.total_insert
        (fun r : MemoryRegion MemoryBacking => r.pages.count y)
        (map.regionMap.insert region.addr first) second.addr second
      rw [OrderedMap.find?_insert_of_ne _ _ hother, hr.other hother, hcount] at htotal
      have hnil : second.pages = [] := by
        unfold MemoryRegion.pages
        rw [hempty.2]
        rfl
      rw [hnil] at htotal
      exact htotal
  · rintro vpn id ⟨k, region', hfind, hpage⟩
    by_cases hk : k = region.addr
    · subst hk
      cases hr.old.symm.trans hfind
      exact ⟨region.addr, first, hr.first_find, hfirst ▸ hpage⟩
    · refine ⟨k, region', ?_, hpage⟩
      rw [hr.rest k hk]
      · exact hfind
      · rintro rfl
        exact absurd ((hr.other hk).symm.trans hfind) nofun
  · by_cases hk : k = region.addr
    · rw [hk, hr.first_find] at hfind
      cases hfind
      rw [hfirstPages]
      exact honce _ _ hr.old
    · by_cases hk' : k = second.addr
      · have hempty := hsecond.resolve_left fun heq => hk (hk'.trans (heq ▸ hr.first_addr))
        rw [hk', hr.second_find] at hfind
        cases hfind
        unfold MemoryRegion.pages
        rw [hempty.2]
        exact nodup_nil
      · rw [hr.rest k hk hk'] at hfind
        exact honce k region' hfind

variable {found : List (MemoryRegion MemoryBacking)}

theorem Arranged.unmapScan_regions (hscan : unmapScan map addr length = .regions found) :
    (∀ region ∈ found, map.regionMap.find? region.addr = some region) ∧
      (found.map MemoryRegion.addr).Nodup := by
  have htiles {addr length : Nat} {found : List (MemoryRegion MemoryBacking)}
      (htile : map.Tiles addr length found) :
      (∀ region ∈ found, map.regionMap.find? region.addr = some region ∧ addr ≤ region.addr) ∧
        (found.map MemoryRegion.addr).Nodup := by
    induction found generalizing addr length with
    | nil => exact ⟨nofun, nodup_nil⟩
    | cons region rest ih =>
      obtain ⟨rfl, hfind, -, hrest⟩ := htile
      have hpos := (h.keys _ _ hfind).2
      obtain ⟨hin, hnodup⟩ := ih hrest
      refine ⟨fun region' hmem => ?_, nodup_cons.2 ⟨fun hmem => ?_, hnodup⟩⟩
      · rcases mem_cons.1 hmem with rfl | hmem'
        · exact ⟨hfind, le_rfl⟩
        · have hle := (hin region' hmem').2
          exact ⟨(hin region' hmem').1, by omega⟩
      · obtain ⟨region', hmem', heq⟩ := mem_map.1 hmem
        have hle := (hin region' hmem').2
        omega
  by_cases hregular : ∀ region, map.findRegion addr = some region →
      region.addr = addr ∨ region.length ≠ length
  · obtain ⟨hin, hnodup⟩ := htiles (h.tiles_of_unmapScan hregular hscan)
    exact ⟨fun region hmem => (hin region hmem).1, hnodup⟩
  · -- the range has the length of a region that it begins inside of
    push Not at hregular
    obtain ⟨region, hfound, hne, hlen⟩ := hregular
    rw [unmapScan, hfound] at hscan
    dsimp only at hscan
    rw [if_pos (.inr hlen.symm), if_pos (by omega)] at hscan
    injection hscan with hscan
    subst hscan
    refine ⟨fun region' hmem => ?_, nodup_singleton _⟩
    obtain rfl := mem_singleton.1 hmem
    exact (h.findRegion_spec hfound).1

theorem Arranged.rmRegions_pages
    (hin : ∀ region ∈ found, map.regionMap.find? region.addr = some region)
    (hnodup : (found.map MemoryRegion.addr).Nodup) :
    (found.foldl VirtMemMap.rmRegion map).Arranged ∧
      (∀ y, map.pages.count y = (found.foldl VirtMemMap.rmRegion map).pages.count y +
        (found.flatMap MemoryRegion.pages).count y) ∧
      ∀ k region, (found.foldl VirtMemMap.rmRegion map).regionMap.find? k = some region ↔
        map.regionMap.find? k = some region ∧ region ∉ found := by
  induction found generalizing map with
  | nil => exact ⟨h, fun y => rfl,
      fun k region => ⟨fun hfind => ⟨hfind, nofun⟩, fun hfind => hfind.1⟩⟩
  | cons region rest ih =>
    obtain ⟨hnotMem, hnodup'⟩ := nodup_cons.1 hnodup
    have hfind := hin region mem_cons_self
    have hne {region' : MemoryRegion MemoryBacking} (hmem : region' ∈ rest) :
        region'.addr ≠ region.addr :=
      fun heq => hnotMem (heq ▸ mem_map_of_mem hmem)
    obtain ⟨harranged, hcount, hleft⟩ := ih (h.rmRegion hfind).1 (fun region' hmem =>
      (OrderedMap.find?_erase_of_ne _ (hne hmem)).trans
        (hin region' (mem_cons_of_mem _ hmem))) hnodup'
    refine ⟨harranged, fun y => ?_, fun k region' => ?_⟩
    · have htotal := OrderedMap.total_erase
        (fun r : MemoryRegion MemoryBacking => r.pages.count y) map.regionMap region.addr
      rw [hfind] at htotal
      have hrest := hcount y
      rw [count_pages] at hrest
      rw [foldl_cons, flatMap_cons, count_append, count_pages]
      dsimp only [OrderedMap.weight] at htotal
      unfold VirtMemMap.rmRegion at hrest ⊢
      dsimp only at hrest
      omega
    · rw [foldl_cons, hleft]
      unfold VirtMemMap.rmRegion
      rw [OrderedMap.find?_erase, mem_cons, not_or]
      split
      case isTrue hk =>
        subst hk
        refine ⟨nofun, fun hsame => absurd ?_ hsame.2.1⟩
        exact (some.inj (hfind.symm.trans hsame.1)).symm
      case isFalse hk =>
        refine and_congr_right fun hfind' => ⟨fun hmem => ⟨?_, hmem⟩, fun hmem => hmem.2⟩
        rintro rfl
        exact hk (h.keys _ _ hfind').1.symm

theorem Arranged.unmap_pages {code : Nat} (hunmap : map.unmap addr length = some (code, map')) :
    map'.Arranged ∧ (∀ y, map.pages.count y = map'.pages.count y +
        ((map.unmapped addr length).flatMap MemoryRegion.pages).count y) ∧
      ∀ k region, map'.regionMap.find? k = some region ↔
        map.regionMap.find? k = some region ∧ region ∉ map.unmapped addr length := by
  unfold VirtMemMap.unmap at hunmap
  unfold unmapped
  split at hunmap
  case h_1 hscan =>
    cases hunmap
    rw [hscan]
    exact ⟨h, fun y => rfl, fun k region => ⟨fun hfind => ⟨hfind, nofun⟩, fun hfind => hfind.1⟩⟩
  case h_2 => cases hunmap
  case h_3 found hscan =>
    cases hunmap
    rw [hscan]
    obtain ⟨hin, hnodup⟩ := h.unmapScan_regions hscan
    exact h.rmRegions_pages hin hnodup

end

end VirtMemMap

namespace LoadedProgram

/-- A program without regions. -/
def empty : LoadedProgram where
  map := .initial MemoryBacking
  arranged := VirtMemMap.initial_arranged
  pages_eq_nil := rfl

def addRegion
    (program : LoadedProgram)
    (name : String) (start length perms : Nat) (backing : Option MemoryBacking)
    (hpos : 0 < length)
    (hwrap : start ≠ 0 → start + length < 2 ^ 64) :
    LoadedProgram :=
  match h : program.map.addRegion name start length perms backing with
  | none => program
  | some (_, map) =>
    { map := map
      arranged := (program.arranged.addRegion_kept hpos hwrap h).arranged
      pages_eq_nil := by
        refine eq_nil_iff_forall_not_mem.2 fun id hmem => ?_
        have hcount := (program.arranged.addRegion_kept hpos hwrap h).count id
        rw [program.pages_eq_nil, count_nil] at hcount
        exact count_eq_zero.1 hcount hmem }

end LoadedProgram

end SstElements.VanadisOS
