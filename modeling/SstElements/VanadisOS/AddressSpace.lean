import SstElements.VanadisOS.VirtMemMap

/-!
# The partition of the address space

Regions and free ranges cover each address once.  A call moves ranges between them, and
the partition stays as long as no range is empty.
-/

namespace SstElements.VanadisOS.VirtMemMap

open Library Option

universe u

variable {Backing : Type u}

section Arrangement

/-- How often an address belongs to a region. -/
def regionCover (regions : OrderedMap Nat (MemoryRegion Backing)) : Nat → Int :=
  coverage MemoryRegion.addr MemoryRegion.end regions

/-- The partition, with what the free list keeps. -/
structure Arranged (map : VirtMemMap Backing) : Prop where
  keys : ∀ k region, map.regionMap.find? k = some region → region.addr = k ∧ 0 < region.length
  freeKeys : map.freeList.Keyed
  cover : regionCover map.regionMap + map.freeList.cover =
    rangeIndicator firstAddress lastAddress

theorem owners_eq (map : VirtMemMap Backing) (b : Nat) :
    (map.owners b : Int) = regionCover map.regionMap b + map.freeList.cover b := by
  unfold regionCover FreeList.cover
  rw [coverage_eq_countP, coverage_eq_countP, ← Nat.cast_add]
  rfl

theorem Arranged.partitioned {map : VirtMemMap Backing} (h : map.Arranged) : map.Partitioned where
  keys := h.keys
  owners b := by
    have howners := map.owners_eq b
    have hcover := congrFun h.cover b
    rw [Pi.add_apply] at hcover
    unfold rangeIndicator at hcover
    split at hcover <;> split <;> omega

theorem initial_arranged : (initial Backing).Arranged where
  keys k region h := by exact absurd h (by rw [initial, OrderedMap.find?_empty]; exact nofun)
  freeKeys k e h := by
    rw [initial, FreeList.initial, OrderedMap.find?_insert] at h
    split at h
    case isTrue hk =>
      cases h
      exact ⟨hk, by decide, by decide⟩
    case isFalse =>
      cases h
  cover := by
    unfold regionCover FreeList.cover initial FreeList.initial
    rw [coverage_insert_new _ (OrderedMap.find?_empty _)]
    funext b
    simp only [Pi.add_apply, coverage_apply, OrderedMap.empty, List.map_nil, List.sum_nil]
    omega

variable {map : VirtMemMap Backing} {region : MemoryRegion Backing} {k b : Nat}

section

variable (h : map.Arranged)
include h

theorem Arranged.free_le_one (b : Nat) : map.freeList.cover b ≤ 1 := by
  have hcover := congrFun h.cover b
  have hnonneg := @coverage_nonneg _ MemoryRegion.addr MemoryRegion.end map.regionMap b
  rw [Pi.add_apply] at hcover
  unfold rangeIndicator at hcover
  unfold regionCover at hcover
  split at hcover <;> omega

section

variable (hfind : map.regionMap.find? k = some region)
include hfind

theorem Arranged.cover_of_mem
    (hb : region.addr ≤ b ∧ b < region.end) :
    regionCover map.regionMap b = 1 ∧ map.freeList.cover b = 0 ∧
      firstAddress ≤ b ∧ b < lastAddress := by
  have hone := one_le_coverage hfind hb
  have hcover := congrFun h.cover b
  have hnonneg := @coverage_nonneg _ FreeEntry.start FreeEntry.end map.freeList b
  rw [Pi.add_apply] at hcover
  unfold rangeIndicator at hcover
  unfold regionCover FreeList.cover at *
  split at hcover
  case isTrue hin => exact ⟨by omega, by omega, hin⟩
  case isFalse => omega

theorem Arranged.region_end_le : region.end ≤ lastAddress := by
  have hpos := (h.keys k region hfind).2
  have hend := region.end_eq
  have hlast := (h.cover_of_mem hfind (b := region.end - 1) ⟨by omega, by omega⟩).2.2.2
  omega

theorem Arranged.region_unique {k' : Nat} {region' : MemoryRegion Backing}
    (hfind' : map.regionMap.find? k' = some region')
    (hb : region.addr ≤ b ∧ b < region.end) (hb' : region'.addr ≤ b ∧ b < region'.end) :
    k' = k ∧ region' = region := by
  have hk : k' = k := by
    by_contra hne
    have htwo := two_le_coverage hne hfind hfind' hb hb'
    have hone := (h.cover_of_mem hfind hb).1
    unfold regionCover at hone
    omega
  rw [hk] at hfind'
  exact ⟨hk, some.inj (hfind'.symm.trans hfind)⟩

theorem Arranged.free_eq_none
    (hb : region.addr ≤ b ∧ b < region.end) :
    map.freeList.find? b = none := by
  cases hfree : map.freeList.find? b with
  | none => rfl
  | some e =>
    obtain ⟨hkey, hlt, -⟩ := h.freeKeys b e hfree
    have hone := @one_le_coverage _ FreeEntry.start FreeEntry.end _ _ _ _ hfree
      (show e.start ≤ b ∧ b < e.end by omega)
    have hzero := (h.cover_of_mem hfind hb).2.1
    unfold FreeList.cover at hzero
    omega

end

theorem Arranged.region_eq_none {e : FreeEntry} (hfree : map.freeList.find? e.start = some e)
    (hb : e.start ≤ b ∧ b < e.end) :
    map.regionMap.find? b = none := by
  cases hfind : map.regionMap.find? b with
  | none => rfl
  | some region =>
    obtain ⟨hkey, hpos⟩ := h.keys b region hfind
    have hone := @one_le_coverage _ FreeEntry.start FreeEntry.end _ _ _ _ hfree hb
    have hend := region.end_eq
    have hzero := (h.cover_of_mem hfind (b := b) (by omega)).2.1
    unfold FreeList.cover at hzero
    omega

theorem Arranged.findRegion_spec {addr : Nat} (hfound : map.findRegion addr = some region) :
    map.regionMap.find? region.addr = some region ∧ region.addr ≤ addr ∧ addr < region.end := by
  obtain ⟨⟨k, hfind⟩, hle, hlt⟩ := findRegion_bounds hfound
  obtain ⟨rfl, hpos⟩ := h.keys k region hfind
  have hend := region.end_eq
  unfold addAddress at hlt
  exact ⟨hfind, hle, by omega⟩

end

end Arrangement

section Contents

variable {map : VirtMemMap Backing} {region : MemoryRegion Backing} {b : Nat}

theorem holds_iff (map : VirtMemMap Backing) (b : Nat) (info : ByteInfo Backing) :
    map.Holds b info ↔ ∃ k region, map.regionMap.find? k = some region ∧
      (region.addr ≤ b ∧ b < region.end) ∧ region.info = info :=
  Iff.rfl

variable {map' : VirtMemMap Backing} {k : Nat} {info : ByteInfo Backing}

theorem holds_of_insert (hnew : map.regionMap.find? k = none)
    (hmap' : map'.regionMap = map.regionMap.insert k region) :
    map'.Holds b info ↔
      map.Holds b info ∨ (region.addr ≤ b ∧ b < region.end) ∧ region.info = info := by
  rw [holds_iff, hmap']
  constructor
  · rintro ⟨k', region', hfind, hb, hinfo⟩
    rw [OrderedMap.find?_insert] at hfind
    split at hfind
    case isTrue =>
      cases hfind
      exact .inr ⟨hb, hinfo⟩
    case isFalse => exact .inl ⟨k', region', hfind, hb, hinfo⟩
  · rintro (⟨k', region', hfind, hb, hinfo⟩ | ⟨hb, hinfo⟩)
    · refine ⟨k', region', ?_, hb, hinfo⟩
      rw [OrderedMap.find?_insert_of_ne]
      · exact hfind
      · rintro rfl
        rw [hnew] at hfind
        cases hfind
    · exact ⟨k, region, OrderedMap.find?_insert_self _ _ _, hb, hinfo⟩

section

variable (h : map.Arranged) (hfind : map.regionMap.find? k = some region)
include h hfind

theorem Arranged.holds_of_erase (hmap' : map'.regionMap = map.regionMap.erase k) :
    map'.Holds b info ↔ map.Holds b info ∧ ¬(region.addr ≤ b ∧ b < region.end) := by
  rw [holds_iff, hmap']
  constructor
  · rintro ⟨k', region', hfind', hb, hinfo⟩
    rw [OrderedMap.find?_erase] at hfind'
    split at hfind'
    case isTrue => cases hfind'
    case isFalse hne =>
      exact ⟨⟨k', region', hfind', hb, hinfo⟩,
        fun hin => hne (h.region_unique hfind hfind' hin hb).1⟩
  · rintro ⟨⟨k', region', hfind', hb, hinfo⟩, hnot⟩
    refine ⟨k', region', ?_, hb, hinfo⟩
    rw [OrderedMap.find?_erase_of_ne]
    · exact hfind'
    · rintro rfl
      exact hnot (some.inj (hfind'.symm.trans hfind) ▸ hb)

theorem Arranged.holds_in (hb : region.addr ≤ b ∧ b < region.end) :
    map.Holds b info ↔ region.info = info := by
  constructor
  · rintro ⟨k', region', hfind', hb', rfl⟩
    rw [(h.region_unique hfind hfind' hb hb').2]
  · rintro rfl
    exact ⟨k, region, hfind, hb, rfl⟩

end

end Contents

section Adding

variable {map map' : VirtMemMap Backing} {name : String} {start length perms added : Nat}
  {backing : Option Backing}

theorem addRegion_regionMap
    (hadd : map.addRegion name start length perms backing = some (added, map')) :
    map'.regionMap = map.regionMap.insert added (.create name added length perms backing) := by
  unfold addRegion at hadd
  dsimp only at hadd
  split at hadd
  · split at hadd
    · cases hadd
    · cases hadd
      rfl
  · split at hadd
    · cases hadd
      rfl
    · cases hadd

theorem Arranged.insert {e : FreeEntry} (h : map.Arranged) (hpos : 0 < length)
    (hkeys : map'.freeList.Keyed)
    (hcover : map'.freeList.cover = map.freeList.cover - rangeIndicator added (added + length))
    (hfree : map.freeList.find? e.start = some e) (hstart : e.start ≤ added)
    (hend : added + length ≤ e.end)
    (hregions : map'.regionMap =
      map.regionMap.insert added (.create name added length perms backing)) :
    map'.Arranged ∧ map.Free added length ∧ ∀ b info, map'.Holds b info ↔ map.Holds b info ∨
        (added ≤ b ∧ b < added + length) ∧ info = ⟨name, perms, backing⟩ := by
  have hnew := h.region_eq_none hfree (b := added) (by omega)
  refine ⟨⟨?_, hkeys, ?_⟩, ?_, fun b info => ?_⟩
  · intro k region hfind
    rw [hregions, OrderedMap.find?_insert] at hfind
    split at hfind
    case isTrue hk =>
      cases hfind
      exact ⟨hk.symm, hpos⟩
    case isFalse => exact h.keys k region hfind
  · have hregionCover : regionCover map'.regionMap =
        regionCover map.regionMap + rangeIndicator added (added + length) := by
      rw [hregions]
      exact coverage_insert_new _ hnew
    rw [hregionCover, hcover, ← h.cover]
    abel
  · intro b hlo hhi
    exact ⟨e.start, e, hfree, by omega, by omega⟩
  · rw [holds_of_insert hnew hregions, @eq_comm _ info]
    rfl

theorem Arranged.addRegion (h : map.Arranged) (hpos : 0 < length)
    (hwrap : start ≠ 0 → start + length < 2 ^ 64)
    (hadd : map.addRegion name start length perms backing = some (added, map')) :
    (start ≠ 0 → added = start) ∧ map'.Arranged ∧ map.Free added length ∧
      ∀ b info, map'.Holds b info ↔ map.Holds b info ∨
        (added ≤ b ∧ b < added + length) ∧ info = ⟨name, perms, backing⟩ := by
  have hregions := addRegion_regionMap hadd
  unfold VirtMemMap.addRegion at hadd
  dsimp only at hadd
  by_cases hstart : start = 0
  · rw [if_pos hstart] at hadd
    split at hadd
    case isTrue => cases hadd
    case isFalse hroom =>
      cases hadd
      obtain ⟨hkeys, hcover, e, hfree, hlo, hhi⟩ :=
        FreeList.allocFirst_spec h.freeKeys h.free_le_one hpos rfl hroom
      exact ⟨fun hne => absurd hstart hne, h.insert hpos hkeys hcover hfree hlo hhi hregions⟩
  · rw [if_neg hstart] at hadd
    split at hadd
    case h_1 freeList halloc =>
      cases hadd
      obtain ⟨hkeys, hcover, e, hfree, hlo, hhi⟩ :=
        FreeList.allocAt_spec h.freeKeys h.free_le_one hpos (hwrap hstart) halloc
      exact ⟨fun _ => rfl, h.insert hpos hkeys hcover hfree hlo hhi hregions⟩
    case h_2 => cases hadd

theorem Arranged.addRegion_regular (h : map.Arranged) (h' : map'.Partitioned)
    (hadd : map.addRegion name start length perms backing = some (added, map'))
    (hfree : map.Free added length) :
    0 < length ∧ added + length < 2 ^ 64 := by
  have hpos : 0 < length := by
    refine (h'.keys added (.create name added length perms backing) ?_).2
    rw [addRegion_regionMap hadd]
    exact OrderedMap.find?_insert_self _ _ _
  obtain ⟨k, e, hfind, hlo, hhi⟩ := hfree (added + length - 1) (by omega) (by omega)
  have hbound := (h.freeKeys k e hfind).2.2
  exact ⟨hpos, by omega⟩

end Adding

section Removing

variable {map map' : VirtMemMap Backing} {region : MemoryRegion Backing} {addr length : Nat}

theorem Arranged.rmRegion (h : map.Arranged)
    (hfind : map.regionMap.find? region.addr = some region) :
    (map.rmRegion region).Arranged ∧ ∀ b info, (map.rmRegion region).Holds b info ↔
        map.Holds b info ∧ ¬(region.addr ≤ b ∧ b < region.end) := by
  have hpos := (h.keys _ _ hfind).2
  have hend := region.end_eq
  have hlast : region.end ≤ 0x80000000 := h.region_end_le hfind
  obtain ⟨hkeys, hcover⟩ := FreeList.free_spec h.freeKeys
    (h.free_eq_none hfind (b := region.addr) (by omega)) hpos (by omega)
  refine ⟨⟨?_, hkeys, ?_⟩, fun b info => h.holds_of_erase hfind rfl⟩
  · intro k region' hfind'
    have hold : (map.regionMap.erase region.addr).find? k = some region' := hfind'
    rw [OrderedMap.find?_erase] at hold
    split at hold
    · cases hold
    · exact h.keys k region' hold
  · have hregions : regionCover (map.rmRegion region).regionMap =
        regionCover map.regionMap - rangeIndicator region.addr region.end :=
      coverage_erase hfind
    have hlist : (map.rmRegion region).freeList.cover =
        map.freeList.cover + rangeIndicator region.addr region.end := hcover
    rw [hregions, hlist, ← h.cover]
    abel

/-- Regions of the map that follow each other and make up a range. -/
def Tiles (map : VirtMemMap Backing) : Nat → Nat → List (MemoryRegion Backing) → Prop
  | _, length, [] => length = 0
  | addr, length, region :: rest =>
    region.addr = addr ∧ map.regionMap.find? addr = some region ∧ region.length ≤ length ∧
      Tiles map (addr + region.length) (length - region.length) rest

theorem Tiles.congr {found : List (MemoryRegion Backing)}
    (hsame : ∀ k, addr ≤ k → map'.regionMap.find? k = map.regionMap.find? k)
    (h : map.Tiles addr length found) :
    map'.Tiles addr length found := by
  induction found generalizing addr length with
  | nil => exact h
  | cons region rest ih =>
    exact ⟨h.1, (hsame addr le_rfl).trans h.2.1, h.2.2.1,
      ih (fun k hk => hsame k (by omega)) h.2.2.2⟩

variable {found : List (MemoryRegion Backing)} {code : Nat}

section

variable (h : map.Arranged)
include h

theorem Arranged.rmRegions (htiles : map.Tiles addr length found) :
    (found.foldl VirtMemMap.rmRegion map).Arranged ∧
      ∀ b info, (found.foldl VirtMemMap.rmRegion map).Holds b info ↔
        map.Holds b info ∧ ¬(addr ≤ b ∧ b < addr + length) := by
  induction found generalizing map addr length with
  | nil =>
    obtain rfl : length = 0 := htiles
    exact ⟨h, fun b info => ⟨fun hb => ⟨hb, by omega⟩, fun hb => hb.1⟩⟩
  | cons region rest ih =>
    obtain ⟨rfl, hfind, hle, hrest⟩ := htiles
    have hpos := (h.keys _ _ hfind).2
    have hend := region.end_eq
    obtain ⟨harranged, hholds⟩ := h.rmRegion hfind
    obtain ⟨hthen, hthenHolds⟩ := ih harranged
      (hrest.congr fun k hk => OrderedMap.find?_erase_of_ne map.regionMap (by omega))
    refine ⟨hthen, fun b info => ?_⟩
    rw [List.foldl_cons, hthenHolds, hholds, and_assoc]
    exact and_congr_right fun _ => by omega

theorem Arranged.tiles_of_unmapScan
    (hregular : ∀ region, map.findRegion addr = some region →
      region.addr = addr ∨ region.length ≠ length)
    (hscan : unmapScan map addr length = .regions found) :
    map.Tiles addr length found := by
  induction length using Nat.strong_induction_on generalizing addr found with
  | _ length ih =>
    rw [unmapScan] at hscan
    split at hscan
    case h_1 => cases hscan
    case h_2 region hfound =>
      obtain ⟨hfind, hle, hlt⟩ := h.findRegion_spec hfound
      have hend := region.end_eq
      split at hscan
      case isFalse => cases hscan
      case isTrue hcond =>
        have haddr : region.addr = addr := by
          rcases hregular region hfound with heq | hne
          · exact heq
          · rcases hcond with hfirst | hlen
            · exact hfirst.1.symm
            · exact absurd hlen.symm hne
        split at hscan
        case isTrue hlast =>
          injection hscan with hscan
          subst hscan
          exact ⟨haddr, haddr ▸ hfind, by omega, hlast⟩
        case isFalse hmore =>
          cases hnext : unmapScan map (addr + region.length) (length - region.length) with
          | invalid =>
            rw [hnext] at hscan
            cases hscan
          | unsupported =>
            rw [hnext] at hscan
            cases hscan
          | regions rest =>
            rw [hnext] at hscan
            injection hscan with hscan
            subst hscan
            refine ⟨haddr, haddr ▸ hfind, by omega, ih _ (by omega) ?_ hnext⟩
            -- a region that began before would share the address before with this one
            intro region' hfound'
            obtain ⟨hfind', hle', hlt'⟩ := h.findRegion_spec hfound'
            refine .inl (by_contra fun hne => ?_)
            obtain ⟨-, rfl⟩ := h.region_unique hfind hfind' (b := region.end - 1)
              (by omega) (by omega)
            omega

/-- A regular range is removed as a whole, or nothing is. -/
theorem Arranged.unmap
    (hregular : ∀ region, map.findRegion addr = some region →
      region.addr = addr ∨ region.length ≠ length)
    (hunmap : map.unmap addr length = some (code, map')) :
    map'.Arranged ∧ ((code = 0 ∧ ∀ b info, map'.Holds b info ↔
          map.Holds b info ∧ ¬(addr ≤ b ∧ b < addr + length)) ∨ (code ≠ 0 ∧ map' = map)) := by
  unfold VirtMemMap.unmap at hunmap
  split at hunmap
  case h_1 =>
    cases hunmap
    exact ⟨h, .inr ⟨by decide, rfl⟩⟩
  case h_2 => cases hunmap
  case h_3 found hscan =>
    cases hunmap
    obtain ⟨harranged, hholds⟩ := h.rmRegions (h.tiles_of_unmapScan hregular hscan)
    exact ⟨harranged, .inl ⟨rfl, hholds⟩⟩

theorem Arranged.unmap_regular (hunmap : map.unmap addr length = some (code, map'))
    (hkeeps : (code = 0 ∧ ∀ b info, map'.Holds b info ↔
        map.Holds b info ∧ ¬(addr ≤ b ∧ b < addr + length)) ∨ (code ≠ 0 ∧ map' = map)) :
    ∀ region, map.findRegion addr = some region → region.addr = addr ∨ region.length ≠ length := by
  intro region hfound
  by_contra hnot
  rw [not_or, not_not] at hnot
  obtain ⟨hne, rfl⟩ := hnot
  obtain ⟨hfind, hle, hlt⟩ := h.findRegion_spec hfound
  have hscan : unmapScan map addr region.length = .regions [region] := by
    rw [unmapScan]
    split
    case h_1 hnone => rw [hfound] at hnone; cases hnone
    case h_2 region' hsome =>
      rw [hfound] at hsome
      cases hsome
      rw [if_pos (.inr rfl), if_pos (Nat.sub_self _)]
  rw [VirtMemMap.unmap, hscan] at hunmap
  cases hunmap
  rcases hkeeps with ⟨-, hkeeps⟩ | ⟨hcode, -⟩
  · have hheld := (h.holds_in hfind (b := region.addr) (by omega)).2 rfl
    have hgone := ((h.rmRegion hfind).2 region.addr region.info).1
      ((hkeeps _ _).2 ⟨hheld, by omega⟩)
    exact hgone.2 ⟨le_rfl, by omega⟩
  · exact hcode rfl

end

end Removing

section Splitting

/-- In place of a region there are one or two others. -/
structure Replaced
    (map map' : VirtMemMap Backing) (region first second : MemoryRegion Backing) : Prop where
  old : map.regionMap.find? region.addr = some region
  other : second.addr ≠ region.addr → map.regionMap.find? second.addr = none
  first_addr : first.addr = region.addr
  first_pos : 0 < first.length
  first_find : map'.regionMap.find? region.addr = some first
  second_pos : 0 < second.length
  second_find : map'.regionMap.find? second.addr = some second
  rest : ∀ k, k ≠ region.addr → k ≠ second.addr →
    map'.regionMap.find? k = map.regionMap.find? k
  cover : regionCover map'.regionMap = regionCover map.regionMap
  free : map'.freeList = map.freeList

variable {map map' : VirtMemMap Backing} {region first second : MemoryRegion Backing}
  {addr length prot : Nat}

theorem Replaced.arranged (hr : Replaced map map' region first second) (h : map.Arranged) :
    map'.Arranged where
  keys k region' hfind := by
    by_cases hk : k = region.addr
    · subst hk
      cases hfind.symm.trans hr.first_find
      exact ⟨hr.first_addr, hr.first_pos⟩
    · by_cases hk₂ : k = second.addr
      · subst hk₂
        cases hfind.symm.trans hr.second_find
        exact ⟨rfl, hr.second_pos⟩
      · exact h.keys k region' ((hr.rest k hk hk₂).symm.trans hfind)
  freeKeys := hr.free ▸ h.freeKeys
  cover := by rw [hr.cover, hr.free, h.cover]

variable {b : Nat} {info : ByteInfo Backing}

theorem Replaced.holds_iff (hr : Replaced map map' region first second) (h : map.Arranged) :
    map'.Holds b info ↔ map.Holds b info ∧ ¬(region.addr ≤ b ∧ b < region.end) ∨
      (first.addr ≤ b ∧ b < first.end) ∧ first.info = info ∨
      (second.addr ≤ b ∧ b < second.end) ∧ second.info = info := by
  constructor
  · rintro ⟨k, region', hfind, hb, hinfo⟩
    by_cases hk : k = region.addr
    · subst hk
      cases hfind.symm.trans hr.first_find
      exact .inr (.inl ⟨hb, hinfo⟩)
    · by_cases hk₂ : k = second.addr
      · subst hk₂
        cases hfind.symm.trans hr.second_find
        exact .inr (.inr ⟨hb, hinfo⟩)
      · rw [hr.rest k hk hk₂] at hfind
        exact .inl ⟨⟨k, region', hfind, hb, hinfo⟩,
          fun hin => hk (h.region_unique hr.old hfind hin hb).1⟩
  · rintro (⟨⟨k, region', hfind, hb, hinfo⟩, hnot⟩ | ⟨hb, hinfo⟩ | ⟨hb, hinfo⟩)
    · have hk : k ≠ region.addr := by
        rintro rfl
        exact hnot (some.inj (hfind.symm.trans hr.old) ▸ hb)
      have hk₂ : k ≠ second.addr := by
        rintro rfl
        rw [hr.other hk] at hfind
        cases hfind
      exact ⟨k, region', (hr.rest k hk hk₂).trans hfind, hb, hinfo⟩
    · exact ⟨region.addr, first, hr.first_find, hb, hinfo⟩
    · exact ⟨second.addr, second, hr.second_find, hb, hinfo⟩

section

variable (h : map.Arranged)
variable (hfind : map.regionMap.find? region.addr = some region)
variable (haddr : first.addr = region.addr)
include h hfind haddr

theorem Arranged.replaced_whole (hlength : first.length = region.length)
    (hregions : map'.regionMap = map.regionMap.insert region.addr first)
    (hfree : map'.freeList = map.freeList) :
    Replaced map map' region first first where
  old := hfind
  other hne := absurd haddr hne
  first_addr := haddr
  first_pos := hlength ▸ (h.keys _ _ hfind).2
  first_find := by rw [hregions, OrderedMap.find?_insert_self]
  second_pos := hlength ▸ (h.keys _ _ hfind).2
  second_find := by rw [hregions, haddr, OrderedMap.find?_insert_self]
  rest k hk _ := by rw [hregions, OrderedMap.find?_insert_of_ne _ _ hk]
  cover := by
    have hend : first.end = region.end := by
      unfold MemoryRegion.end
      rw [haddr, hlength]
    rw [hregions, regionCover, coverage_insert _ hfind, haddr, hend]
    exact sub_add_cancel _ _
  free := hfree

theorem Arranged.replaced_split (hmid : first.end = second.addr) (hend : second.end = region.end)
    (hfirst : 0 < first.length) (hsecond : 0 < second.length)
    (hregions : map'.regionMap =
        (map.regionMap.insert region.addr first).insert second.addr second ∨
      map'.regionMap = (map.regionMap.insert second.addr second).insert region.addr first)
    (hfree : map'.freeList = map.freeList) :
    Replaced map map' region first second := by
  have hfirstEnd := first.end_eq
  have hsecondEnd := second.end_eq
  have hne : second.addr ≠ region.addr := by omega
  have hnone : map.regionMap.find? second.addr = none := by
    cases hother : map.regionMap.find? second.addr with
    | none => rfl
    | some region' =>
      obtain ⟨hkey, hpos⟩ := h.keys _ _ hother
      have hend' := region'.end_eq
      exact absurd (h.region_unique hfind hother (b := second.addr) (by omega) (by omega)).1 hne
  have hsplit := @rangeIndicator_split region.addr second.addr region.end (by omega) (by omega)
  refine ⟨hfind, fun _ => hnone, haddr, hfirst, ?_, hsecond, ?_, fun k hk hk₂ => ?_, ?_, hfree⟩
  · rcases hregions with heq | heq
    · rw [heq, OrderedMap.find?_insert_of_ne _ _ hne.symm, OrderedMap.find?_insert_self]
    · rw [heq, OrderedMap.find?_insert_self]
  · rcases hregions with heq | heq
    · rw [heq, OrderedMap.find?_insert_self]
    · rw [heq, OrderedMap.find?_insert_of_ne _ _ hne, OrderedMap.find?_insert_self]
  · rcases hregions with heq | heq
    · rw [heq, OrderedMap.find?_insert_of_ne _ _ hk₂, OrderedMap.find?_insert_of_ne _ _ hk]
    · rw [heq, OrderedMap.find?_insert_of_ne _ _ hk, OrderedMap.find?_insert_of_ne _ _ hk₂]
  · rcases hregions with heq | heq
    · rw [heq, regionCover, coverage_insert_new, coverage_insert _ hfind, haddr, hmid, hend,
        hsplit, regionCover]
      · abel
      · rw [OrderedMap.find?_insert_of_ne _ _ hne, hnone]
    · have hkept : (map.regionMap.insert second.addr second).find? region.addr = some region := by
        rw [OrderedMap.find?_insert_of_ne _ _ hne.symm, hfind]
      rw [heq, regionCover, coverage_insert _ hkept, coverage_insert_new _ hnone, haddr, hmid,
        hend, hsplit, regionCover]
      abel

end

theorem Arranged.mprotect_cases (h : map.Arranged) (hlength : length < 2 ^ 64)
    (hprotect : map.mprotect addr length prot = some map') :
    ∃ region first second, map.findRegion addr = some region ∧
      Replaced map map' region first second ∧ (addr = region.addr ∧ length = region.length ∧
          first = { region with perms := prot } ∧ second = first ∨
        addr = region.addr ∧ length = 0 ∧
          first = .create region.name addr region.length region.perms none ∧ second = first ∨
        addr = region.addr ∧ 0 < length ∧ length < region.length ∧
          first = { region with length := length, perms := prot } ∧
          second = .create region.name (addr + length) (region.length - length)
            region.perms none ∨
        region.addr < addr ∧ addr + length = region.end ∧ 0 < length ∧
          first = { region with length := region.length - length } ∧
          second = .create region.name addr length prot none) := by
  unfold VirtMemMap.mprotect at hprotect
  split at hprotect
  case h_1 => cases hprotect
  case h_2 region hfound =>
    obtain ⟨hfind, hle, hlt⟩ := h.findRegion_spec hfound
    have hend := region.end_eq
    have hlast : region.end ≤ 0x80000000 := h.region_end_le hfind
    split at hprotect
    case isTrue haddr =>
      subst haddr
      split at hprotect
      case isTrue hpart =>
        have hmid : addAddress region.addr length = region.addr + length :=
          FreeList.addAddress_eq (by omega)
        rw [hmid] at hprotect
        split at hprotect
        case isTrue hzero =>
          cases hprotect
          subst hzero
          refine ⟨region, .create region.name region.addr region.length region.perms none, _,
            hfound, h.replaced_whole hfind rfl rfl rfl rfl, .inr (.inl ⟨rfl, rfl, rfl, rfl⟩)⟩
        case isFalse hpos =>
          cases hprotect
          refine ⟨region, { region with length := length, perms := prot },
            .create region.name (region.addr + length) (region.length - length)
              region.perms none, hfound,
            h.replaced_split hfind rfl rfl ?_ (pos_of_ne_zero hpos) ?_ (.inr rfl) rfl,
            .inr (.inr (.inl ⟨rfl, pos_of_ne_zero hpos, hpart, rfl, rfl⟩))⟩
          · unfold MemoryRegion.end MemoryRegion.create
            dsimp only
            omega
          · unfold MemoryRegion.create
            dsimp only
            omega
      case isFalse hnot =>
        split at hprotect
        case isTrue hwhole =>
          cases hprotect
          exact ⟨region, { region with perms := prot }, _, hfound,
            h.replaced_whole hfind rfl rfl rfl rfl, .inl ⟨rfl, hwhole, rfl, rfl⟩⟩
        case isFalse => cases hprotect
    case isFalse hinside =>
      split at hprotect
      case isTrue hcond =>
        cases hprotect
        have hmod : (addr + length) % 2 ^ 64 = region.end := hcond.2
        have hlastPart : addr + length = region.end := by omega
        refine ⟨region, { region with length := region.length - length },
          .create region.name addr length prot none, hfound,
          h.replaced_split hfind rfl ?_ hlastPart ?_ ?_ (.inl rfl) rfl,
          .inr (.inr (.inr ⟨by omega, hlastPart, by omega, rfl, rfl⟩))⟩
        · unfold MemoryRegion.end MemoryRegion.create
          dsimp only
          omega
        · dsimp only
          omega
        · unfold MemoryRegion.create
          dsimp only
          omega
      case isFalse => cases hprotect

theorem Replaced.protects (hr : Replaced map map' region first second) (h : map.Arranged)
    (hrange : addr ≤ b ∧ b < addr + length → region.addr ≤ b ∧ b < region.end)
    (hparts : (first.addr ≤ b ∧ b < first.end) ∧ first.info = info ∨
        (second.addr ≤ b ∧ b < second.end) ∧ second.info = info ↔
      (region.addr ≤ b ∧ b < region.end) ∧ info = if addr ≤ b ∧ b < addr + length then
            { region.info with perms := prot }
          else region.info) :
    map'.Holds b info ↔
      if addr ≤ b ∧ b < addr + length then
        ∃ old, map.Holds b old ∧ info = { old with perms := prot }
      else
        map.Holds b info := by
  rw [hr.holds_iff h, hparts]
  by_cases hb : region.addr ≤ b ∧ b < region.end
  · have hin (old : ByteInfo Backing) : map.Holds b old ↔ region.info = old := h.holds_in hr.old hb
    simp only [hb, and_self, not_true_eq_false, and_false, false_or, true_and, hin, exists_eq_left']
    split
    · rfl
    · exact eq_comm
  · rw [and_iff_left hb, or_iff_left fun hin => hb hin.1, if_neg fun hin => hb (hrange hin)]

theorem parts_iff {P Q R T : Prop} {α : Type u} {x y z : α} [Decidable Q] (hP : P ↔ R ∧ Q)
    (hT : T ↔ R ∧ ¬Q) :
    (P ∧ x = z ∨ T ∧ y = z) ↔ R ∧ z = if Q then x else y := by
  rw [hP, hT]
  by_cases hQ : Q
  · simp only [hQ, and_true, not_true_eq_false, and_false, false_and, or_false, if_true,
      @eq_comm _ z]
  · simp only [hQ, and_false, false_and, not_false_eq_true, and_true, false_or, if_false,
      @eq_comm _ z]

theorem Arranged.mprotect (h : map.Arranged) (hlength : length < 2 ^ 64)
    (hregular : ∀ region, map.findRegion addr = some region →
      addr = region.addr ∧ length = region.length ∨ region.backing = none)
    (hprotect : map.mprotect addr length prot = some map') :
    map'.Arranged ∧ ∀ b info, map'.Holds b info ↔ if addr ≤ b ∧ b < addr + length then
        ∃ old, map.Holds b old ∧ info = { old with perms := prot }
      else
        map.Holds b info := by
  obtain ⟨region, first, second, hfound, hr, hcases⟩ := h.mprotect_cases hlength hprotect
  refine ⟨hr.arranged h, fun b info => ?_⟩
  have hend := region.end_eq
  have hpos := findRegion_length_pos hfound
  rcases hcases with ⟨rfl, rfl, rfl, rfl⟩ | ⟨rfl, rfl, rfl, rfl⟩ | ⟨rfl, hlo, hhi, rfl, rfl⟩ |
    ⟨hlo, hlast, hlen, rfl, rfl⟩
  · refine hr.protects h id ?_
    rw [or_self_iff]
    refine and_congr_right fun hin => ?_
    have hrange : region.addr ≤ b ∧ b < region.addr + region.length := hin
    rw [if_pos hrange, eq_comm]
    rfl
  · have hbacking : region.backing = none := by
      rcases hregular region hfound with ⟨-, hzero⟩ | hnone
      · omega
      · exact hnone
    refine hr.protects h (fun hin => by omega) ?_
    rw [or_self_iff]
    refine and_congr_right fun hin => ?_
    rw [if_neg (by omega), eq_comm, MemoryRegion.info, MemoryRegion.info, hbacking]
    rfl
  · have hbacking : region.backing = none := by
      rcases hregular region hfound with ⟨-, hwhole⟩ | hnone
      · omega
      · exact hnone
    refine hr.protects h (fun hin => by omega) ?_
    have hsecond : (MemoryRegion.create region.name (region.addr + length)
        (region.length - length) region.perms none).info = region.info := by
      rw [MemoryRegion.info, MemoryRegion.info, hbacking]
      rfl
    rw [hsecond]
    exact parts_iff (by unfold MemoryRegion.end; dsimp only; omega)
      (by unfold MemoryRegion.end MemoryRegion.create; dsimp only; omega)
  · have hbacking : region.backing = none := by
      rcases hregular region hfound with ⟨hfirst, -⟩ | hnone
      · omega
      · exact hnone
    refine hr.protects h (fun hin => by omega) ?_
    have hsecond : (MemoryRegion.create region.name addr length prot none).info =
        { region.info with perms := prot } := by
      rw [MemoryRegion.info, MemoryRegion.info, hbacking]
      rfl
    rw [hsecond, or_comm]
    exact parts_iff (by unfold MemoryRegion.end MemoryRegion.create; dsimp only; omega)
      (by unfold MemoryRegion.end; dsimp only; omega)

theorem Arranged.mprotect_regular (h : map.Arranged) (hlength : length < 2 ^ 64)
    (hprotect : map.mprotect addr length prot = some map')
    (hkeeps : ∀ b info, map'.Holds b info ↔ if addr ≤ b ∧ b < addr + length then
        ∃ old, map.Holds b old ∧ info = { old with perms := prot }
      else
        map.Holds b info) :
    ∀ region, map.findRegion addr = some region →
      addr = region.addr ∧ length = region.length ∨ region.backing = none := by
  intro region hfound
  obtain ⟨region, first, second, hsame, hr, hcases⟩ := h.mprotect_cases hlength hprotect
  cases hfound.symm.trans hsame
  have hend := region.end_eq
  have hsecondEnd := second.end_eq
  have hsecond := hr.second_pos
  have hheld := (hkeeps second.addr second.info).1
    ⟨second.addr, second, hr.second_find, ⟨le_rfl, by omega⟩, rfl⟩
  have hin (hb : region.addr ≤ second.addr ∧ second.addr < region.end)
      {old : ByteInfo Backing} (hold : map.Holds second.addr old) :
      region.backing = old.backing := by
    rw [← (h.holds_in hr.old hb).1 hold]
    rfl
  rcases hcases with ⟨rfl, rfl, -, -⟩ | ⟨rfl, rfl, rfl, rfl⟩ | ⟨rfl, hlo, hhi, -, rfl⟩ |
    ⟨hlo, hlast, hlen, -, rfl⟩
  · exact .inl ⟨rfl, rfl⟩
  · rw [if_neg (by omega)] at hheld
    exact .inr (hin ⟨le_rfl, by rw [hend]; exact Nat.lt_add_of_pos_right hsecond⟩ hheld)
  · rw [if_neg (by unfold MemoryRegion.create; dsimp only; omega)] at hheld
    exact .inr (hin (by unfold MemoryRegion.create; dsimp only; omega) hheld)
  · rw [if_pos (by unfold MemoryRegion.create; dsimp only; omega)] at hheld
    obtain ⟨old, hold, heq⟩ := hheld
    have hbacking := hin (by unfold MemoryRegion.create; dsimp only; omega) hold
    exact .inr (hbacking.trans (congrArg ByteInfo.backing heq).symm)

end Splitting

section Runs

variable {map map' : VirtMemMap Backing} {op : MapOp Backing}

theorem Arranged.congr (h : map.Arranged) (hregions : map'.regionMap = map.regionMap)
    (hfree : map'.freeList = map.freeList) :
    map'.Arranged where
  keys := hregions ▸ h.keys
  freeKeys := hfree ▸ h.freeKeys
  cover := by rw [hregions, hfree, h.cover]

theorem initBrk_eq {addr : Nat} (hbrk : map.initBrk addr = some map') :
    ∃ next, map.addRegion "heap" addr 0x10000000 0x6 none = some (addr, next) ∧
      map' = { next with brk := addr, heapRegion := some addr } := by
  obtain ⟨added, hadd, hmap'⟩ := bind_eq_some_iff.1 hbrk
  split at hmap'
  case isTrue haddr =>
    exact ⟨added.2, haddr ▸ hadd, (some.inj hmap').symm⟩
  case isFalse => cases hmap'

theorem setBrk_eq {brk : Nat} (hbrk : map.setBrk brk = some map') :
    map' = { map with brk := brk } := by
  unfold VirtMemMap.setBrk at hbrk
  split at hbrk
  case h_1 => cases hbrk
  case h_2 =>
    split at hbrk
    case isTrue => exact (some.inj hbrk).symm
    case isFalse => cases hbrk

section

variable (h : map.Arranged) (hvalid : op.Valid) (hstep : map.step op = some map')
include h hvalid hstep

/-- A regular call keeps regions and free list arranged. -/
theorem Arranged.step (hregular : map.Regular op) : map'.Arranged ∧ map.Keeps op := by
  cases op with
  | addRegion name start length perms backing =>
    obtain ⟨⟨added, next⟩, hadd, rfl⟩ := map_eq_some_iff.1 hstep
    refine ⟨(h.addRegion hregular.1 hregular.2 hadd).2.1, fun added' next' hadd' => ?_⟩
    obtain ⟨hstart, -, hrest⟩ := h.addRegion hregular.1 hregular.2 hadd'
    exact ⟨hstart, hrest⟩
  | mmap length perms dev =>
    obtain ⟨⟨added, next⟩, hadd, rfl⟩ := map_eq_some_iff.1 hstep
    refine ⟨(h.addRegion hregular (absurd rfl) hadd).2.1, fun added' next' hadd' => ?_⟩
    exact (h.addRegion hregular (absurd rfl) hadd').2.2
  | unmap addr length =>
    obtain ⟨⟨code, next⟩, hunmap, rfl⟩ := map_eq_some_iff.1 hstep
    exact ⟨(h.unmap hregular hunmap).1, fun code' next' hunmap' => (h.unmap hregular hunmap').2⟩
  | mprotect addr length prot =>
    exact ⟨(h.mprotect hvalid.2 hregular hstep).1, fun next hprotect =>
      (h.mprotect hvalid.2 hregular hprotect).2⟩
  | initBrk addr =>
    obtain ⟨next, hadd, rfl⟩ := initBrk_eq hstep
    have hnext := h.addRegion (by decide) (fun _ => hregular) hadd
    refine ⟨hnext.2.1.congr rfl rfl, fun next' hbrk => ?_⟩
    cases hbrk.symm.trans hstep
    exact ⟨hnext.2.2.1, rfl, hnext.2.2.2⟩
  | setBrk brk =>
    obtain rfl := setBrk_eq hstep
    refine ⟨h.congr rfl rfl, fun next hbrk => ?_⟩
    obtain rfl := setBrk_eq hbrk
    exact ⟨rfl, fun b info => Iff.rfl⟩

theorem Arranged.regular_of_keeps (h' : map'.Partitioned) (hkeeps : map.Keeps op) :
    map.Regular op := by
  cases op with
  | addRegion name start length perms backing =>
    obtain ⟨⟨added, next⟩, hadd, rfl⟩ := map_eq_some_iff.1 hstep
    obtain ⟨hstart, hfree, -⟩ := hkeeps added next hadd
    obtain ⟨hpos, hwrap⟩ := h.addRegion_regular h' hadd hfree
    exact ⟨hpos, fun hne => hstart hne ▸ hwrap⟩
  | mmap length perms dev =>
    obtain ⟨⟨added, next⟩, hadd, rfl⟩ := map_eq_some_iff.1 hstep
    exact (h.addRegion_regular h' hadd (hkeeps added next hadd).1).1
  | unmap addr length =>
    obtain ⟨⟨code, next⟩, hunmap, rfl⟩ := map_eq_some_iff.1 hstep
    exact h.unmap_regular hunmap (hkeeps code next hunmap)
  | mprotect addr length prot =>
    exact h.mprotect_regular hvalid.2 hstep (hkeeps map' hstep)
  | initBrk addr =>
    obtain ⟨next, hadd, rfl⟩ := initBrk_eq hstep
    obtain ⟨k, e, hfind, -, hhi⟩ := (hkeeps _ hstep).1 (addr + 0x10000000 - 1)
      (by omega) (by omega)
    have hbound := (h.freeKeys k e hfind).2.2
    exact show addr + 0x10000000 < 2 ^ 64 by omega
  | setBrk brk => exact trivial

end

/-- In a run of calls with 64 bit arguments the address space stays partitioned and every
call does to it what it may do exactly if all calls are regular. -/
theorem partitioned_iff_regular {ops : List (MapOp Backing)} {final : VirtMemMap Backing}
    (hvalid : ∀ op ∈ ops, op.Valid)
    (hrun : runOps step (initial Backing) ops = some final) :
    Throughout step Partitioned (initial Backing) ops ∧
        StepsMeet step Keeps (initial Backing) ops ↔
      StepsMeet step Regular (initial Backing) ops :=
  throughout_and_stepsMeet_iff (I := Arranged) (fun _ h => h.partitioned)
    (fun _ op _ h (hq : op.Valid) hstep hok => h.step hq hstep hok)
    (fun _ op _ h (hq : op.Valid) hstep h' hkeeps => h.regular_of_keeps hq hstep h' hkeeps)
    initial_arranged hvalid hrun

def someCalls : List (MapOp Unit) :=
  [.addRegion "text" 0x10000 0x3000 5 (some ()), .initBrk 0x12000000, .mmap 0x4000 6 none,
    .mprotect 0x1000 0x1000 0, .setBrk 0x12000400, .mprotect 0x10000 0x3000 7, .unmap 0x1000 0x4000]

theorem partitioned_iff_regular_someCalls :
    ∃ final, runOps step (initial Unit) someCalls = some final ∧
      Throughout step Partitioned (initial Unit) someCalls ∧
        StepsMeet step Keeps (initial Unit) someCalls := by
  obtain ⟨final, hrun⟩ := isSome_iff_exists.1
    (show (runOps step (initial Unit) someCalls).isSome by decide +kernel)
  have hvalid : ∀ op ∈ someCalls, op.Valid := by
    unfold someCalls MapOp.Valid
    simp
  exact ⟨final, hrun, (partitioned_iff_regular hvalid hrun).2 (by decide +kernel)⟩

def unmapInside : List (MapOp Unit) := [.mmap 0x2000 6 none, .unmap 0x2000 0x2000]

/-- Two pages from the second page of a region of two pages: the region is removed. -/
theorem unmap_inside :
    ¬∀ (ops : List (MapOp Unit)) (final : VirtMemMap Unit), (∀ op ∈ ops, op.Aligned) →
      runOps step (initial Unit) ops = some final →
      Throughout step Partitioned (initial Unit) ops ∧
        StepsMeet step Keeps (initial Unit) ops := by
  intro hall
  obtain ⟨final, hrun⟩ := isSome_iff_exists.1
    (show (runOps step (initial Unit) unmapInside).isSome by decide +kernel)
  have haligned : ∀ op ∈ unmapInside, op.Aligned := by
    unfold unmapInside MapOp.Aligned PageAddress
    simp
  obtain ⟨mapped, hmap, hrest⟩ := runOps_cons_iff.1 hrun
  obtain ⟨last, hstep, -⟩ := runOps_cons_iff.1 hrest
  have hkeeps := (stepsMeet_cons_iff hmap).1 (hall unmapInside final haligned hrun).2
  have hmapped := @Arranged.step Unit (initial Unit) mapped (.mmap 0x2000 6 none)
    initial_arranged (show 0x2000 < 2 ^ 64 by decide) hmap (show 0 < 0x2000 by decide)
  obtain ⟨⟨code, next⟩, hunmap, rfl⟩ := map_eq_some_iff.1 hstep
  have hregular := hmapped.1.unmap_regular hunmap (hkeeps.2.1 code next hunmap)
  have hsteps : StepsMeet step Regular (initial Unit) unmapInside :=
    (stepsMeet_cons_iff hmap).2 ⟨show 0 < 0x2000 by decide, hregular, fun _ _ => trivial⟩
  exact absurd hsteps (by decide +kernel)

end Runs

end SstElements.VanadisOS.VirtMemMap
