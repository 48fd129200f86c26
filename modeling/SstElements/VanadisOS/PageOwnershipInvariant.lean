import SstElements.VanadisOS.RegionPages

/-!
# References to pages

The counts of pages are those of the mappings in the regions.  Page tables only have pages
that are mapped at the same address, and the page cache has pages that are referred to.
-/

namespace SstElements.VanadisOS

open Library Mmu List Option

namespace PageStore

variable {store : PageStore} {uses uses' : Nat → Nat} {region : MemoryRegion MemoryBacking}
  {vpn : Nat}

theorem deleteRegions_eq (regions : List (MemoryRegion MemoryBacking)) :
    regions.foldl deleteRegion store =
      (regions.flatMap MemoryRegion.pages).foldl decRefCnt store := by
  rw [foldl_flatMap]
  rfl

theorem deleteMap_eq (map : VirtMemMap MemoryBacking) :
    store.deleteMap map = map.pages.foldl decRefCnt store := by
  unfold deleteMap VirtMemMap.pages
  rw [foldl_flatMap]
  rfl

theorem Accounted.mapVirtToPhys (h : store.Accounted uses)
    (huses : ∀ y, uses y = uses' y + if region.virtToPhysMap.find? vpn = some y then 1 else 0) :
    (store.mapVirtToPhys region vpn).Accounted uses' ∧
      (store.mapVirtToPhys region vpn).physMem.frames = store.physMem.frames ∧
      ∀ id, uses' id ≠ 0 → (store.mapVirtToPhys region vpn).ppnOf id = store.ppnOf id := by
  unfold PageStore.mapVirtToPhys
  cases hold : region.virtToPhysMap.find? vpn with
  | none =>
    have heq : uses = uses' := funext fun y => by rw [huses, hold, if_neg nofun, add_zero]
    exact ⟨heq ▸ h, rfl, fun _ _ => rfl⟩
  | some old =>
    refine h.decRefCnt fun y => ?_
    simp only [huses, hold, Option.some.injEq]

end PageStore

theorem mem_cachedPages_iff {os : PagingOS} {id : Nat} :
    id ∈ os.cachedPages ↔ ∃ elfInfo vpn, checkPageCache os.elfPageCache elfInfo vpn = some id := by
  unfold PagingOS.cachedPages checkPageCache
  rw [mem_flatMap]
  constructor
  · rintro ⟨⟨elfInfo, pages⟩, hentry, hmem⟩
    obtain ⟨⟨vpn, id'⟩, hpage, rfl⟩ := List.mem_map.1 hmem
    refine ⟨elfInfo, vpn, ?_⟩
    rw [(OrderedMap.mem_entries_iff _ _ _).1 hentry]
    exact (OrderedMap.mem_entries_iff _ _ _).1 hpage
  · rintro ⟨elfInfo, vpn, hcheck⟩
    obtain ⟨pages, hpages, hpage⟩ := bind_eq_some_iff.1 hcheck
    exact ⟨(elfInfo, pages), (OrderedMap.mem_entries_iff _ _ _).2 hpages,
      List.mem_map.2 ⟨(vpn, id), (OrderedMap.mem_entries_iff _ _ _).2 hpage, rfl⟩⟩

theorem checkPageCache_update {cache : ElfPageCache} {elfInfo vpn page elfInfo' vpn' id : Nat}
    (h : checkPageCache (updatePageCache cache elfInfo vpn page) elfInfo' vpn' = some id) :
    id = page ∨ checkPageCache cache elfInfo' vpn' = some id := by
  unfold checkPageCache updatePageCache at h
  rw [OrderedMap.find?_insert] at h
  split at h
  case isFalse => exact .inr h
  case isTrue heq =>
    subst heq
    rw [bind_some, OrderedMap.find?_insert] at h
    split at h
    case isTrue => exact .inl (some.inj h).symm
    case isFalse =>
      unfold checkPageCache
      cases hpages : cache.find? elfInfo' with
      | none =>
        rw [hpages] at h
        cases h
      | some pages =>
        rw [hpages] at h
        exact .inr h

theorem pageEntry_ppn {ppn perms : Nat} (h : ppn < 2 ^ 29) : (pageEntry ppn perms).ppn = ppn :=
  Nat.mod_eq_of_lt h

theorem PageTable.find?_removeWrite {table : PageTable} {vpn : Nat} {pte : PTE}
    (h : (PageTable.removeWrite table).find? vpn = some pte) :
    ∃ old, table.find? vpn = some old ∧ old.ppn = pte.ppn := by
  unfold PageTable.removeWrite at h
  rw [OrderedMap.find?_mapValues] at h
  obtain ⟨old, hold, rfl⟩ := map_eq_some_iff.1 h
  exact ⟨old, hold, (pageEntry_ppn old.ppn_lt).symm⟩

/-- Entries that are left were there before. -/
theorem PageTable.find?_unmap {table : PageTable} {vpn numPages vpn' : Nat} {pte : PTE}
    (h : (PageTable.unmap table vpn numPages).find? vpn' = some pte) :
    table.find? vpn' = some pte := by
  unfold PageTable.unmap at h
  generalize List.range numPages = pages at h
  induction pages generalizing table with
  | nil => exact h
  | cons i rest ih =>
    have hrest := ih h
    rw [OrderedMap.find?_erase] at hrest
    split at hrest
    case isTrue => cases hrest
    case isFalse => exact hrest

namespace PagingOS

variable {os os' : PagingOS} {pid tid id : Nat} {shared : SharedMap}
  {map : VirtMemMap MemoryBacking} {store : PageStore} {table : PageTable}

/-- The zero page is kept, other pages are referred to by regions. -/
def references (os : PagingOS) (id : Nat) : Nat :=
  (if zeroPage = id then 1 else 0) +
    os.virtMemMaps.total fun shared => shared.map.pages.count id

/-- An entry of a page table is beyond the memory, or for the page of its address. -/
def Backed (store : PageStore) (map : VirtMemMap MemoryBacking) (table : PageTable) : Prop :=
  ∀ vpn pte, table.find? vpn = some pte →
    store.physMem.frames ≤ pte.ppn ∨ ∃ id, map.Mapped vpn id ∧ store.ppnOf id = some pte.ppn

structure Held (os : PagingOS) : Prop where
  accounted : os.store.Accounted os.references
  maps : ∀ pid shared, os.virtMemMaps.find? pid = some shared →
    shared.map.Arranged ∧ shared.map.Once
  shared : ∀ pid shared, os.virtMemMaps.find? pid = some shared →
    shared.refCnt = os.threads.total fun p => if p = pid then 1 else 0
  running : ∀ tid pid, os.threads.find? tid = some pid → tid < os.currentTid ∧
    (∃ shared, os.virtMemMaps.find? pid = some shared) ∧
    ((os.pageTables.find? tid).isSome → pid = tid)
  tables : ∀ pid shared, os.virtMemMaps.find? pid = some shared →
    ∃ table, os.pageTables.find? pid = some table ∧ Backed os.store shared.map table
  fresh : ∀ pid, (os.pageTables.find? pid).isSome → pid < os.currentTid
  cached : ∀ id ∈ os.cachedPages, os.references id ≠ 0

theorem references_ne_zero {vpn : Nat} (hfind : os.virtMemMaps.find? pid = some shared)
    (hmapped : shared.map.Mapped vpn id) :
    os.references id ≠ 0 := by
  have hcount := count_pos_iff.2 (VirtMemMap.mem_pages_iff.2 ⟨vpn, hmapped⟩)
  have htotal := OrderedMap.weight_le_total (fun shared : SharedMap => shared.map.pages.count id)
    os.virtMemMaps pid
  rw [hfind] at htotal
  dsimp only [OrderedMap.weight] at htotal
  unfold references
  omega

theorem references_insert {virtMemMaps : OrderedMap Nat SharedMap} {shared' : SharedMap}
    (hfind : os.virtMemMaps.find? pid = some shared)
    (hmaps : virtMemMaps = os.virtMemMaps.insert pid shared') (hos : os'.virtMemMaps = virtMemMaps)
    (y : Nat) :
    os'.references y + shared.map.pages.count y = os.references y + shared'.map.pages.count y := by
  have htotal := OrderedMap.total_insert (fun shared : SharedMap => shared.map.pages.count y)
    os.virtMemMaps pid shared'
  rw [hfind] at htotal
  dsimp only [OrderedMap.weight] at htotal
  unfold references
  rw [hos, hmaps]
  omega

theorem Backed.congr {store' : PageStore} {map' : VirtMemMap MemoryBacking}
    (h : Backed store map table) (hframes : store'.physMem.frames = store.physMem.frames)
    (hmapped : ∀ vpn id, map.Mapped vpn id → map'.Mapped vpn id)
    (hppn : ∀ vpn id, map.Mapped vpn id → store'.ppnOf id = store.ppnOf id) :
    Backed store' map' table := by
  intro vpn pte hpte
  rcases h vpn pte hpte with hframe | ⟨id, hmap, hid⟩
  · exact .inl (hframes ▸ hframe)
  · exact .inr ⟨id, hmapped vpn id hmap, (hppn vpn id hmap).trans hid⟩

theorem Held.update (h : Held os)
    (store : PageStore) (map : VirtMemMap MemoryBacking) (table : PageTable)
    (elfPageCache : ElfPageCache) (hfind : os.virtMemMaps.find? pid = some shared)
    (hos : os' = { os with
      store := store
      virtMemMaps := os.virtMemMaps.insert pid { shared with map := map }
      pageTables := os.pageTables.insert pid table
      elfPageCache := elfPageCache })
    (haccounted : store.Accounted os'.references) (hmap : map.Arranged ∧ map.Once)
    (hframes : store.physMem.frames = os.store.physMem.frames)
    (hppn : ∀ id, os.references id ≠ 0 → os'.references id ≠ 0 → store.ppnOf id = os.store.ppnOf id)
    (hbacked : Backed store map table) (hcached : ∀ id ∈ os'.cachedPages, os'.references id ≠ 0) :
    Held os' := by
  obtain ⟨old, hold, -⟩ := h.tables pid shared hfind
  have hother {pid' : Nat} {shared' : SharedMap}
      (hfind' : os'.virtMemMaps.find? pid' = some shared') :
      (pid' = pid ∧ shared' = { shared with map := map }) ∨
        (pid' ≠ pid ∧ os.virtMemMaps.find? pid' = some shared') := by
    rw [hos] at hfind'
    rw [OrderedMap.find?_insert] at hfind'
    split at hfind'
    case isTrue heq => exact .inl ⟨heq, (some.inj hfind').symm⟩
    case isFalse hne => exact .inr ⟨hne, hfind'⟩
  have htable {pid' : Nat} (hsome : (os'.pageTables.find? pid').isSome) :
      (os.pageTables.find? pid').isSome := by
    rw [hos] at hsome
    rw [OrderedMap.find?_insert] at hsome
    split at hsome
    case isTrue heq =>
      rw [heq, hold]
      rfl
    case isFalse => exact hsome
  constructor
  case accounted =>
    rw [show os'.store = store by rw [hos]]
    exact haccounted
  case maps =>
    intro pid' shared' hfind'
    rcases hother hfind' with ⟨-, rfl⟩ | ⟨-, hfind''⟩
    · exact hmap
    · exact h.maps pid' shared' hfind''
  case shared =>
    intro pid' shared' hfind'
    rw [show os'.threads = os.threads by rw [hos]]
    rcases hother hfind' with ⟨rfl, rfl⟩ | ⟨-, hfind''⟩
    · exact h.shared pid' shared hfind
    · exact h.shared pid' shared' hfind''
  case running =>
    intro tid pid' hthread
    rw [show os'.threads = os.threads by rw [hos]] at hthread
    rw [show os'.currentTid = os.currentTid by rw [hos]]
    obtain ⟨hlt, ⟨shared', hshared⟩, hleader⟩ := h.running tid pid' hthread
    refine ⟨hlt, ?_, fun hsome => hleader (htable hsome)⟩
    rw [hos]
    rw [OrderedMap.find?_insert]
    split
    case isTrue => exact ⟨_, rfl⟩
    case isFalse => exact ⟨shared', hshared⟩
  case tables =>
    intro pid' shared' hfind'
    have hstore : os'.store = store := by rw [hos]
    rw [hstore, show os'.pageTables = os.pageTables.insert pid table by rw [hos]]
    rcases hother hfind' with ⟨rfl, rfl⟩ | ⟨hne, hfind''⟩
    · exact ⟨table, OrderedMap.find?_insert_self .., hbacked⟩
    · obtain ⟨table', htable', hbacked'⟩ := h.tables pid' shared' hfind''
      refine ⟨table', (OrderedMap.find?_insert_of_ne _ _ hne).trans htable', ?_⟩
      exact hbacked'.congr hframes (fun _ _ hmapped => hmapped) fun vpn id hmapped =>
        hppn id (references_ne_zero hfind'' hmapped) (references_ne_zero hfind' hmapped)
  case fresh =>
    intro pid' hsome
    rw [show os'.currentTid = os.currentTid by rw [hos]]
    exact h.fresh pid' (htable hsome)
  case cached => exact hcached

/-- The page table of the process is the one that is stored. -/
theorem insert_same {κ : Type} [LinearOrder κ] {α : Type} {m : OrderedMap κ α} {k : κ} {a : α}
    (h : m.find? k = some a) :
    m.insert k a = m := by
  refine OrderedMap.eq_of_find? fun k' => ?_
  rw [OrderedMap.find?_insert]
  split
  case isTrue heq => exact (heq ▸ h).symm
  case isFalse => rfl

theorem Spares.left {ids : List Nat} (h : Held os) (hspares : os.Spares ids)
    (hid : id ∈ os.cachedPages)
    (hreferences : os.references id = os'.references id + ids.count id) :
    os'.references id ≠ 0 := by
  obtain ⟨page, hpage, hcount⟩ := h.accounted.exists_page (h.cached id hid)
  have hlt := hspares id hid page.refCnt (by
    unfold PageStore.count
    rw [hpage]
    rfl)
  omega

end PagingOS

end SstElements.VanadisOS
