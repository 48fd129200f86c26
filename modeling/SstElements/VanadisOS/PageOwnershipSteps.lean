import SstElements.VanadisOS.PageOwnershipInvariant

/-!
# Runs of page faults, fork, munmap, mprotect and exit

Every regular step keeps the counts of pages, the page tables and the page cache, so in
regular runs pages are returned with their last mapping and not before.
-/

namespace SstElements.VanadisOS.PagingOS

open Library Mmu List Option

variable {pageShift : Nat} {os os' : PagingOS} {pid tid id : Nat} {shared : SharedMap}
  {map : VirtMemMap MemoryBacking} {store : PageStore} {table : PageTable}

section Faults

variable {cache : Option Nat} {vpn perms : Nat}

theorem mem_cachedPages_keepPage {page : Nat}
    (hid : id ∈ (os.keepPage cache vpn page).cachedPages) :
    id = page ∨ id ∈ os.cachedPages := by
  cases cache with
  | none => exact .inr hid
  | some elfInfo =>
    obtain ⟨elfInfo', vpn', hcheck⟩ := mem_cachedPages_iff.1 hid
    rcases checkPageCache_update hcheck with rfl | hold
    · exact .inl rfl
    · exact .inr (mem_cachedPages_iff.2 ⟨elfInfo', vpn', hold⟩)

section

variable (h : Held os) (hfind : os.virtMemMaps.find? pid = some shared)
include h hfind

theorem Held.newPage (hregular : os.RegularNew pageShift shared.map vpn)
    (hstep : os.newPage pageShift pid vpn perms cache = some os') :
    Held os' := by
  obtain ⟨hframes29, hspares⟩ := hregular
  obtain ⟨⟨page, store₁⟩, halloc, hstep⟩ := bind_eq_some_iff.1 hstep
  obtain ⟨os₂, hmapped, hstep⟩ := bind_eq_some_iff.1 hstep
  obtain ⟨ppn, hppn, hstep⟩ := bind_eq_some_iff.1 hstep
  obtain ⟨os₃, hentry, rfl⟩ := map_eq_some_iff.1 hstep
  unfold mapVirtToPage at hmapped
  rw [hfind, bind_some] at hmapped
  obtain ⟨region, hregion, rfl⟩ := map_eq_some_iff.1 hmapped
  obtain ⟨table, htable, rfl⟩ := map_eq_some_iff.1 hentry
  obtain ⟨harranged, honce⟩ := h.maps pid shared hfind
  have hregionFind := (harranged.findRegion_spec hregion).1
  obtain ⟨table', htable', hbacked⟩ := h.tables pid shared hfind
  cases htable.symm.trans htable'
  -- the new page has one reference, and the replaced one loses one
  obtain ⟨haccounted₁, hpage, hzero, hframes₁, hpages₁⟩ :=
    h.accounted.allocPage halloc (fun _ => rfl)
  have hcount (y : Nat) := @VirtMemMap.count_setMapping shared.map region vpn page y hregionFind
  generalize hstore₂ : store₁.mapVirtToPhys region vpn = store₂ at *
  generalize hos' : keepPage _ cache vpn page = os'
  have heq : os' = { os with
      store := store₂
      virtMemMaps := os.virtMemMaps.insert pid
        { shared with map := shared.map.setMapping region vpn page }
      pageTables := os.pageTables.insert pid (table.insert vpn (pageEntry ppn perms))
      elfPageCache := os'.elfPageCache } := by
    rw [← hos']
    cases cache <;> rfl
  have hreferences (y : Nat) : os'.references y +
      (if region.virtToPhysMap.find? vpn = some y then 1 else 0) =
        os.references y + if page = y then 1 else 0 := by
    have hinsert := @references_insert os os' pid shared _
      { shared with map := shared.map.setMapping region vpn page } hfind rfl (by rw [heq]) y
    have hmap := hcount y
    dsimp only at hinsert
    omega
  obtain ⟨haccounted₂, hframes₂, hppn₂⟩ :=
    haccounted₁.mapVirtToPhys fun y => (hreferences y).symm
  rw [hstore₂] at haccounted₂ hframes₂ hppn₂
  have hframes := hframes₂.trans hframes₁
  have hkept {id' : Nat} (hold : os.references id' ≠ 0) (hnew : os'.references id' ≠ 0) :
      store₂.ppnOf id' = os.store.ppnOf id' := by
    refine (hppn₂ id' hnew).trans ?_
    unfold PageStore.ppnOf
    rw [hpages₁ id']
    rintro rfl
    exact hold hzero
  obtain ⟨hself, hother⟩ := @VirtMemMap.mapped_setMapping shared.map region vpn 0 page vpn
    hregionFind
  have hfind' : os'.virtMemMaps.find? pid =
      some { shared with map := shared.map.setMapping region vpn page } := by
    rw [heq]
    exact OrderedMap.find?_insert_self ..
  have hnotMem : page ∉ shared.map.pages := by
    intro hmem
    obtain ⟨vpn', hmapped⟩ := VirtMemMap.mem_pages_iff.1 hmem
    exact references_ne_zero hfind hmapped hzero
  refine h.update _ _ _ _ hfind heq haccounted₂
    ⟨harranged.setMapping hregionFind, honce.setMapping hregionFind hnotMem⟩ hframes
    (fun id' hold hnew => hkept hold hnew) ?_ ?_
  · intro vpn' pte hpte
    rw [OrderedMap.find?_insert] at hpte
    split at hpte
    case isTrue hvpn =>
      cases hpte
      refine .inr ⟨page, hvpn ▸ hself, ?_⟩
      have hown := (hppn₂ page (references_ne_zero hfind' hself)).trans hppn
      have htaken := ((haccounted₂.taken ppn).2 ⟨page, hown⟩).1
      rw [hframes] at htaken
      rw [hown, pageEntry_ppn (htaken.trans_le hframes29)]
    case isFalse hvpn =>
      rcases hbacked vpn' pte hpte with hframe | ⟨id', hmapped, hid'⟩
      · exact .inl (hframes ▸ hframe)
      · have hmapped' := (@VirtMemMap.mapped_setMapping shared.map region vpn id' page vpn'
          hregionFind).2 hvpn hmapped
        exact .inr ⟨id', hmapped', (hkept (references_ne_zero hfind hmapped)
          (references_ne_zero hfind' hmapped')).trans hid'⟩
  · intro id' hmem
    have hcases : id' = page ∨ id' ∈ os.cachedPages := by
      have hkeep := mem_cachedPages_keepPage (hos' ▸ hmem)
      exact hkeep
    rcases hcases with rfl | hold
    · exact references_ne_zero hfind' hself
    · have hcountId := hreferences id'
      cases hreplaced : region.virtToPhysMap.find? vpn with
      | none =>
        rw [hreplaced, if_neg nofun] at hcountId
        have hused := h.cached id' hold
        omega
      | some old =>
        have hleft := hspares region hregion old hreplaced
        have hne : id' ≠ page := by
          rintro rfl
          exact h.cached id' hold hzero
        rw [if_neg (Ne.symm hne)] at hcountId
        refine hleft.left h hold ?_
        rw [count_singleton, ← hcountId.trans (add_zero _), hreplaced]
        simp only [Option.some.injEq, beq_iff_eq]

theorem Held.mapPage {ppn : Nat} (hregular : os.store.physMem.frames ≤ ppn % 2 ^ 29)
    (hstep : os.mapPage pid vpn ppn perms = some os') :
    Held os' := by
  obtain ⟨table, htable, rfl⟩ := map_eq_some_iff.1 hstep
  obtain ⟨table', htable', hbacked⟩ := h.tables pid shared hfind
  cases htable.symm.trans htable'
  refine h.update os.store shared.map (table.insert vpn (pageEntry ppn perms)) os.elfPageCache
    hfind ?_ h.accounted (h.maps pid shared hfind) rfl (fun _ _ _ => rfl) ?_ h.cached
  · rw [show ({ shared with map := shared.map } : SharedMap) = shared from rfl,
      insert_same hfind]
  · intro vpn' pte hpte
    rw [OrderedMap.find?_insert] at hpte
    split at hpte
    case isTrue =>
      cases hpte
      exact .inl hregular
    case isFalse => exact hbacked vpn' pte hpte

end

theorem Held.pageFault {faultPerms : Nat} (h : Held os)
    (hregular : os.Regular pageShift (.pageFault pid vpn faultPerms))
    (hstep : os.pageFault pageShift pid vpn faultPerms = some os') :
    Held os' := by
  unfold PagingOS.pageFault at hstep
  split at hstep
  case h_1 =>
    cases hstep
    exact h
  case h_2 process hprocess =>
    obtain ⟨shared, hshared, hstep⟩ := bind_eq_some_iff.1 hstep
    obtain ⟨table, htable, hstep⟩ := bind_eq_some_iff.1 hstep
    have haction := hregular process hprocess shared hshared table htable
    generalize faultAction pageShift os.elfPageCache ⟨shared.map, table⟩ vpn faultPerms =
      action at haction hstep
    cases action with
    | deny =>
      cases hstep
      exact h
    | present =>
      cases hstep
      exact h
    | copyOnWrite => exact h.newPage hshared haction hstep
    | fill => exact h.newPage hshared haction hstep
    | device => exact h.mapPage hshared haction hstep
    | cached => exact haction.elim

end Faults

section Regions

theorem Held.setMap (h : Held os) (hfind : os.virtMemMaps.find? pid = some shared)
    (hkept : VirtMemMap.PagesKept shared.map map) :
    Held { os with virtMemMaps := os.virtMemMaps.insert pid { shared with map := map } } := by
  obtain ⟨table, htable, hbacked⟩ := h.tables pid shared hfind
  have hreferences (y : Nat) : references { os with
      virtMemMaps := os.virtMemMaps.insert pid { shared with map := map } } y =
      os.references y := by
    have hinsert := @references_insert os { os with
      virtMemMaps := os.virtMemMaps.insert pid { shared with map := map } } pid shared _
      { shared with map := map } hfind rfl rfl y
    have hcount := hkept.count y
    dsimp only at hinsert
    omega
  refine h.update os.store map table os.elfPageCache hfind ?_ ?_
    ⟨hkept.arranged, hkept.once (h.maps pid shared hfind).2⟩ rfl (fun _ _ _ => rfl)
    (hbacked.congr rfl hkept.mapped fun _ _ _ => rfl) fun id hid => ?_
  · rw [insert_same htable]
  · rw [funext hreferences]
    exact h.accounted
  · rw [hreferences]
    exact h.cached id hid

variable {prot : Nat} {address length : UInt64}

theorem Held.mmap {length : Nat} {dev : Option Device} (h : Held os)
    (hlength : 0 < roundUp pageShift ((dev.map Device.length).getD length))
    (hstep : os.mmap pageShift tid length prot dev = some os') :
    Held os' := by
  obtain ⟨pid, -, hstep⟩ := bind_eq_some_iff.1 hstep
  obtain ⟨shared, hshared, hstep⟩ := bind_eq_some_iff.1 hstep
  obtain ⟨⟨added, map⟩, hadd, rfl⟩ := map_eq_some_iff.1 hstep
  exact h.setMap hshared ((h.maps pid shared hshared).1.addRegion_kept hlength (absurd rfl ·) hadd)

theorem Held.mprotect (h : Held os)
    (hregular : os.Regular pageShift (.mprotect tid address length prot))
    (hstep : os.mprotect tid address.toNat length.toNat prot = some os') :
    Held os' := by
  obtain ⟨pid, hpid, hstep⟩ := bind_eq_some_iff.1 hstep
  obtain ⟨shared, hshared, hstep⟩ := bind_eq_some_iff.1 hstep
  obtain ⟨map, hprotect, rfl⟩ := map_eq_some_iff.1 hstep
  refine h.setMap hshared ((h.maps pid shared hshared).1.mprotect_kept length.toNat_lt
    (fun region hregion haddr hzero => ?_) hprotect)
  exact hregular pid hpid shared hshared region hregion haddr (UInt64.toNat_inj.1 hzero)

theorem Held.munmap (h : Held os) (hregular : os.Regular pageShift (.munmap tid address length))
    (hstep : os.munmap pageShift tid address.toNat length.toNat = some os') :
    Held os' := by
  obtain ⟨pid, hpid, hstep⟩ := bind_eq_some_iff.1 hstep
  obtain ⟨shared, hshared, hstep⟩ := bind_eq_some_iff.1 hstep
  obtain ⟨table, htable, hstep⟩ := bind_eq_some_iff.1 hstep
  obtain ⟨hdetached, hspares, -⟩ := hregular pid hpid shared hshared table htable
  obtain ⟨table', htable', hbacked⟩ := h.tables pid shared hshared
  cases htable.symm.trans htable'
  dsimp only at hstep
  generalize hleft : PageTable.unmap table (pageOf pageShift address.toNat)
    (length.toNat / 2 ^ pageShift) = left at hdetached hstep
  have hentries {vpn : Nat} {pte : PTE} (hpte : left.find? vpn = some pte) :
      table.find? vpn = some pte := by
    rw [← hleft] at hpte
    exact PageTable.find?_unmap hpte
  split at hstep
  case isTrue =>
    cases hstep
    refine h.update os.store shared.map left os.elfPageCache hshared ?_ h.accounted
      (h.maps pid shared hshared) rfl (fun _ _ _ => rfl)
      (fun vpn pte hpte => hbacked vpn pte (hentries hpte)) h.cached
    rw [show ({ shared with map := shared.map } : SharedMap) = shared from rfl,
      insert_same hshared]
  case isFalse =>
    obtain ⟨⟨code, map⟩, hunmap, rfl⟩ := map_eq_some_iff.1 hstep
    obtain ⟨harranged, honce⟩ := h.maps pid shared hshared
    obtain ⟨harranged', hcount, hregions⟩ := harranged.unmap_pages hunmap
    generalize hgone : shared.map.unmapped address.toNat length.toNat = gone at *
    generalize hos' : PagingOS.mk _ _ _ _ _ _ = os'
    have heq : os' = { os with
        store := gone.foldl PageStore.deleteRegion os.store
        virtMemMaps := os.virtMemMaps.insert pid { shared with map := map }
        pageTables := os.pageTables.insert pid left } := hos'.symm
    have hreferences (y : Nat) : os.references y =
        os'.references y + (gone.flatMap MemoryRegion.pages).count y := by
      have hinsert := @references_insert os os' pid shared _ { shared with map := map } hshared rfl
        (by rw [heq]) y
      have hmap := hcount y
      dsimp only at hinsert
      omega
    obtain ⟨haccounted, hframes, hppn⟩ := h.accounted.decRefCnts hreferences
    rw [← PageStore.deleteRegions_eq] at haccounted hframes hppn
    have hfind' : os'.virtMemMaps.find? pid = some { shared with map := map } := by
      rw [heq]
      exact OrderedMap.find?_insert_self ..
    refine h.update _ _ _ _ hshared heq haccounted ⟨harranged', fun k region hfind =>
      honce k region ((hregions k region).1 hfind).1⟩ hframes
      (fun id' _ hnew => hppn id' hnew) (fun vpn pte hpte => ?_) fun id' hid' => ?_
    · rcases hbacked vpn pte (hentries hpte) with hframe | ⟨id', ⟨k, region, hfind, hpage⟩, hid'⟩
      · exact .inl (hframes ▸ hframe)
      · have hstays : region ∉ gone := by
          intro hmem
          exact hdetached region hmem (vpn, id') ((OrderedMap.mem_entries_iff _ _ _).2 hpage) pte
            hpte hid'
        have hmapped : map.Mapped vpn id' :=
          ⟨k, region, (hregions k region).2 ⟨hfind, hstays⟩, hpage⟩
        exact .inr ⟨id', hmapped, (hppn id' (references_ne_zero hfind' hmapped)).trans hid'⟩
    · rw [heq] at hid'
      exact hspares.left h hid' (hreferences id')

end Regions

section Threads

theorem Held.virtMemMaps_currentTid (h : Held os) : os.virtMemMaps.find? os.currentTid = none := by
  cases hfind : os.virtMemMaps.find? os.currentTid with
  | none => rfl
  | some shared =>
    obtain ⟨table, htable, -⟩ := h.tables _ shared hfind
    exact absurd (h.fresh _ (by rw [htable]; rfl)) (lt_irrefl _)

theorem Held.threads_currentTid (h : Held os) : os.threads.find? os.currentTid = none := by
  cases hfind : os.threads.find? os.currentTid with
  | none => rfl
  | some pid => exact absurd (h.running _ pid hfind).1 (lt_irrefl _)

theorem total_insert_thread {tid pid : Nat} (hnew : os.threads.find? tid = none) (p : Nat) :
    ((os.threads.insert tid pid).total fun q => if q = p then 1 else 0) =
      (os.threads.total fun q => if q = p then 1 else 0) + if pid = p then 1 else 0 := by
  have htotal := OrderedMap.total_insert (fun q => if q = p then 1 else 0) os.threads tid pid
  rw [hnew] at htotal
  exact htotal

theorem Held.total_threads_eq_zero (h : Held os) (hnone : os.virtMemMaps.find? pid = none) :
    (os.threads.total fun p => if p = pid then 1 else 0) = 0 := by
  refine sum_eq_zero fun n hn => ?_
  obtain ⟨⟨tid, p⟩, hentry, rfl⟩ := List.mem_map.1 hn
  obtain ⟨-, ⟨shared, hshared⟩, -⟩ := h.running tid p ((OrderedMap.mem_entries_iff _ _ _).1 hentry)
  refine if_neg ?_
  rintro rfl
  exact absurd (hnone.symm.trans hshared) nofun

theorem Held.startProcess (h : Held os)
    (store : PageStore) (map : VirtMemMap MemoryBacking) (table : PageTable) (freeEntries : Nat)
    (hos : os' = { os with store := store }.startProcess map table freeEntries)
    (hmap : map.Arranged ∧ map.Once)
    (haccounted : store.Accounted fun y => os.references y + map.pages.count y)
    (hframes : store.physMem.frames = os.store.physMem.frames) (hppn : store.ppnOf = os.store.ppnOf)
    (hbacked : Backed store map table) :
    Held os' := by
  have hnewMap := h.virtMemMaps_currentTid
  have hnewThread := h.threads_currentTid
  have hmaps : os'.virtMemMaps = os.virtMemMaps.insert os.currentTid ⟨map, 1, freeEntries⟩ := by
    rw [hos]; rfl
  have hthreads : os'.threads = os.threads.insert os.currentTid os.currentTid := by rw [hos]; rfl
  have htables : os'.pageTables = os.pageTables.insert os.currentTid table := by rw [hos]; rfl
  have htid : os'.currentTid = os.currentTid + 1 := by rw [hos]; rfl
  have hstore : os'.store = store := by rw [hos]; rfl
  have hcache : os'.elfPageCache = os.elfPageCache := by rw [hos]; rfl
  have hreferences (y : Nat) : os'.references y = os.references y + map.pages.count y := by
    have htotal := OrderedMap.total_insert (fun shared : SharedMap => shared.map.pages.count y)
      os.virtMemMaps os.currentTid ⟨map, 1, freeEntries⟩
    rw [hnewMap] at htotal
    unfold references
    rw [hmaps]
    dsimp only [OrderedMap.weight] at htotal
    omega
  constructor
  case accounted =>
    rw [hstore, funext hreferences]
    exact haccounted
  case maps =>
    intro pid shared hfind
    rw [hmaps, OrderedMap.find?_insert] at hfind
    split at hfind
    case isTrue =>
      cases hfind
      exact hmap
    case isFalse => exact h.maps pid shared hfind
  case shared =>
    intro pid shared hfind
    rw [hthreads, total_insert_thread hnewThread]
    rw [hmaps, OrderedMap.find?_insert] at hfind
    split at hfind
    case isTrue heq =>
      cases hfind
      rw [if_pos heq.symm, h.total_threads_eq_zero (heq ▸ hnewMap)]
    case isFalse hne =>
      rw [if_neg (Ne.symm hne)]
      exact h.shared pid shared hfind
  case running =>
    intro tid pid hfind
    rw [hthreads, OrderedMap.find?_insert] at hfind
    rw [htid, hmaps, htables]
    split at hfind
    case isTrue heq =>
      cases hfind
      exact ⟨by omega, ⟨_, OrderedMap.find?_insert_self ..⟩, fun _ => heq.symm⟩
    case isFalse hne =>
      obtain ⟨hlt, ⟨shared, hshared⟩, hleader⟩ := h.running tid pid hfind
      refine ⟨by omega, ⟨shared, ?_⟩, fun hsome => hleader ?_⟩
      · have hother : pid ≠ os.currentTid := by
          rintro rfl
          exact absurd (hnewMap.symm.trans hshared) nofun
        rw [OrderedMap.find?_insert_of_ne _ _ hother]
        exact hshared
      · rw [OrderedMap.find?_insert_of_ne _ _ hne] at hsome
        exact hsome
  case tables =>
    intro pid shared hfind
    rw [hstore, htables]
    rw [hmaps, OrderedMap.find?_insert] at hfind
    split at hfind
    case isTrue heq =>
      cases hfind
      exact ⟨table, heq ▸ OrderedMap.find?_insert_self .., hbacked⟩
    case isFalse hne =>
      obtain ⟨table', htable', hbacked'⟩ := h.tables pid shared hfind
      exact ⟨table', (OrderedMap.find?_insert_of_ne _ _ hne).trans htable',
        hbacked'.congr hframes (fun _ _ hmapped => hmapped) fun _ id _ => congrFun hppn id⟩
  case fresh =>
    intro pid hsome
    rw [htables, OrderedMap.find?_insert] at hsome
    rw [htid]
    split at hsome
    case isTrue heq => omega
    case isFalse =>
      have hlt := h.fresh pid hsome
      omega
  case cached =>
    intro id hid
    unfold cachedPages at hid
    rw [hcache] at hid
    have hused := h.cached id hid
    rw [hreferences]
    omega

/-- A child has the pages of its parent. -/
theorem Held.fork {brk : Nat} (h : Held os) (hstep : os.fork tid brk = some os') : Held os' := by
  obtain ⟨pid, -, hstep⟩ := bind_eq_some_iff.1 hstep
  obtain ⟨shared, hshared, hstep⟩ := bind_eq_some_iff.1 hstep
  obtain ⟨table, htable, rfl⟩ := map_eq_some_iff.1 hstep
  obtain ⟨table', htable', hbacked⟩ := h.tables pid shared hshared
  cases htable.symm.trans htable'
  have hkept : Backed os.store shared.map (PageTable.removeWrite table) := by
    intro vpn pte hpte
    obtain ⟨old, hold, hppn⟩ := PageTable.find?_removeWrite hpte
    exact hppn ▸ hbacked vpn old hold
  -- the entries of the parent lose their write permission first
  have hparent : Held { os with
      pageTables := os.pageTables.insert pid (PageTable.removeWrite table) } := by
    refine h.update os.store shared.map (PageTable.removeWrite table) os.elfPageCache hshared ?_
      h.accounted (h.maps pid shared hshared) rfl (fun _ _ _ => rfl) hkept h.cached
    rw [show ({ shared with map := shared.map } : SharedMap) = shared from rfl,
      insert_same hshared]
  have hused : ∀ id ∈ shared.map.pages, os.references id ≠ 0 := by
    intro id hmem
    obtain ⟨vpn, hmapped⟩ := VirtMemMap.mem_pages_iff.1 hmem
    exact references_ne_zero hshared hmapped
  obtain ⟨haccounted, hphys, hppn⟩ := h.accounted.incRefCnts hused fun _ => rfl
  obtain ⟨harranged, honce⟩ := h.maps pid shared hshared
  refine hparent.startProcess (shared.map.pages.foldl PageStore.incRefCnt os.store)
    { shared.map with brk := brk } (PageTable.removeWrite table) _ rfl
    ⟨harranged.congr rfl rfl, honce⟩ haccounted (congrArg PhysMemManager.frames hphys) hppn ?_
  exact hkept.congr (congrArg PhysMemManager.frames hphys) (fun _ _ hmapped => hmapped)
    fun _ id _ => congrFun hppn id

theorem Held.setThreads (h : Held os) (threads : OrderedMap Nat Nat) (refCnt currentTid : Nat)
    (hfind : os.virtMemMaps.find? pid = some shared)
    (hos : os' = { os with
      threads := threads
      virtMemMaps := os.virtMemMaps.insert pid { shared with refCnt := refCnt }
      currentTid := currentTid })
    (hcount : refCnt = threads.total fun p => if p = pid then 1 else 0)
    (hother : ∀ p, p ≠ pid → (threads.total fun q => if q = p then 1 else 0) =
      os.threads.total fun q => if q = p then 1 else 0)
    (htid : os.currentTid ≤ currentTid)
    (hthreads : ∀ tid p, threads.find? tid = some p → os.threads.find? tid = some p ∨
      p = pid ∧ tid = os.currentTid ∧ tid < currentTid) :
    Held os' := by
  have hmaps {pid' : Nat} {shared' : SharedMap}
      (hfind' : os'.virtMemMaps.find? pid' = some shared') :
      ∃ old, os.virtMemMaps.find? pid' = some old ∧ old.map = shared'.map ∧
        (pid' = pid ∧ shared'.refCnt = refCnt ∨ pid' ≠ pid ∧ shared' = old) := by
    rw [hos] at hfind'
    rw [OrderedMap.find?_insert] at hfind'
    split at hfind'
    case isTrue heq =>
      cases hfind'
      exact ⟨shared, heq ▸ hfind, rfl, .inl ⟨heq, rfl⟩⟩
    case isFalse hne => exact ⟨shared', hfind', rfl, .inr ⟨hne, rfl⟩⟩
  have hreferences (y : Nat) : os'.references y = os.references y := by
    have hinsert := @references_insert os os' pid shared _ { shared with refCnt := refCnt } hfind
      rfl (by rw [hos]) y
    dsimp only at hinsert
    omega
  constructor
  case accounted =>
    rw [show os'.store = os.store by rw [hos], funext hreferences]
    exact h.accounted
  case maps =>
    intro pid' shared' hfind'
    obtain ⟨old, hold, hmap, -⟩ := hmaps hfind'
    exact hmap ▸ h.maps pid' old hold
  case shared =>
    intro pid' shared' hfind'
    rw [show os'.threads = threads by rw [hos]]
    obtain ⟨old, hold, -, ⟨rfl, hrefs⟩ | ⟨hne, rfl⟩⟩ := hmaps hfind'
    · exact hrefs.trans hcount
    · exact (h.shared pid' shared' hold).trans (hother pid' hne).symm
  case running =>
    intro tid p hthread
    rw [show os'.threads = threads by rw [hos]] at hthread
    rw [show os'.currentTid = currentTid by rw [hos],
      show os'.pageTables = os.pageTables by rw [hos],
      show os'.virtMemMaps = os.virtMemMaps.insert pid { shared with refCnt := refCnt } by rw [hos]]
    have hexists {p : Nat} (hp : ∃ shared', os.virtMemMaps.find? p = some shared') :
        ∃ shared', (os.virtMemMaps.insert pid { shared with refCnt := refCnt }).find? p =
          some shared' := by
      obtain ⟨shared', hshared'⟩ := hp
      rw [OrderedMap.find?_insert]
      split
      case isTrue => exact ⟨_, rfl⟩
      case isFalse => exact ⟨shared', hshared'⟩
    rcases hthreads tid p hthread with hold | ⟨rfl, rfl, hlt⟩
    · obtain ⟨hlt, hmap, hleader⟩ := h.running tid p hold
      exact ⟨hlt.trans_le htid, hexists hmap, hleader⟩
    · exact ⟨hlt, hexists ⟨shared, hfind⟩, fun hsome => absurd (h.fresh _ hsome) (lt_irrefl _)⟩
  case tables =>
    intro pid' shared' hfind'
    obtain ⟨old, hold, hmap, -⟩ := hmaps hfind'
    rw [show os'.pageTables = os.pageTables by rw [hos], show os'.store = os.store by rw [hos],
      ← hmap]
    exact h.tables pid' old hold
  case fresh =>
    intro pid' hsome
    rw [show os'.pageTables = os.pageTables by rw [hos]] at hsome
    rw [show os'.currentTid = currentTid by rw [hos]]
    exact (h.fresh pid' hsome).trans_le htid
  case cached =>
    intro id hid
    rw [hreferences]
    unfold cachedPages at hid
    rw [show os'.elfPageCache = os.elfPageCache by rw [hos]] at hid
    exact h.cached id hid

theorem Held.clone (h : Held os) (hstep : os.clone tid = some os') : Held os' := by
  obtain ⟨pid, -, hstep⟩ := bind_eq_some_iff.1 hstep
  obtain ⟨shared, hshared, rfl⟩ := map_eq_some_iff.1 hstep
  have hnew := h.threads_currentTid
  refine h.setThreads (os.threads.insert os.currentTid pid) (shared.refCnt + 1)
    (os.currentTid + 1) hshared rfl ?_ (fun p hne => ?_) (Nat.le_succ _) fun tid p hfind => ?_
  · rw [total_insert_thread hnew, if_pos rfl, h.shared pid shared hshared]
  · rw [total_insert_thread hnew, if_neg (Ne.symm hne), add_zero]
  · rw [OrderedMap.find?_insert] at hfind
    split at hfind
    case isTrue heq => exact .inr ⟨(some.inj hfind).symm, heq, heq ▸ Nat.lt_succ_self _⟩
    case isFalse => exact .inl hfind

theorem total_erase_thread (hfind : os.threads.find? tid = some pid) (p : Nat) :
    ((os.threads.erase tid).total fun q => if q = p then 1 else 0) +
      (if pid = p then 1 else 0) = os.threads.total fun q => if q = p then 1 else 0 := by
  have htotal := OrderedMap.total_erase (fun q => if q = p then 1 else 0) os.threads tid
  rw [hfind] at htotal
  exact htotal

section

variable (h : Held os)
variable (hthread : os.threads.find? tid = some pid)
variable (hshared : os.virtMemMaps.find? pid = some shared)
include h hthread hshared

theorem Held.exit_shared :
    Held { os with
      threads := os.threads.erase tid
      virtMemMaps := os.virtMemMaps.insert pid { shared with refCnt := shared.refCnt - 1 } } := by
  refine h.setThreads (os.threads.erase tid) (shared.refCnt - 1) os.currentTid hshared rfl ?_
    (fun p hne => ?_) le_rfl fun tid' p hfind => .inl ?_
  · have htotal := total_erase_thread hthread pid
    rw [if_pos rfl] at htotal
    rw [h.shared pid shared hshared]
    omega
  · have htotal := total_erase_thread hthread p
    rw [if_neg (Ne.symm hne)] at htotal
    exact htotal
  · rw [OrderedMap.find?_erase] at hfind
    split at hfind
    case isTrue => cases hfind
    case isFalse => exact hfind

theorem Held.exit_last (hlast : shared.refCnt = 1) (hspares : os.Spares shared.map.pages) :
    Held { os with
      threads := os.threads.erase tid
      store := os.store.deleteMap shared.map
      virtMemMaps := os.virtMemMaps.erase pid } := by
  generalize hos' : PagingOS.mk _ _ _ _ _ _ = os'
  have hmaps : os'.virtMemMaps = os.virtMemMaps.erase pid := by rw [← hos']
  have hreferences (y : Nat) :
      os.references y = os'.references y + shared.map.pages.count y := by
    have htotal := OrderedMap.total_erase (fun shared : SharedMap => shared.map.pages.count y)
      os.virtMemMaps pid
    rw [hshared] at htotal
    dsimp only [OrderedMap.weight] at htotal
    unfold references
    rw [hmaps]
    omega
  obtain ⟨haccounted, hframes, hppn⟩ := h.accounted.decRefCnts hreferences
  rw [← PageStore.deleteMap_eq] at haccounted hframes hppn
  have hfind {pid' : Nat} {shared' : SharedMap}
      (hfind' : os'.virtMemMaps.find? pid' = some shared') :
      pid' ≠ pid ∧ os.virtMemMaps.find? pid' = some shared' := by
    rw [hmaps, OrderedMap.find?_erase] at hfind'
    split at hfind'
    case isTrue => cases hfind'
    case isFalse hne => exact ⟨hne, hfind'⟩
  have htotal (p : Nat) := total_erase_thread hthread p
  constructor
  case accounted =>
    rw [show os'.store = os.store.deleteMap shared.map by rw [← hos']]
    exact haccounted
  case maps =>
    intro pid' shared' hfind'
    exact h.maps pid' shared' (hfind hfind').2
  case shared =>
    intro pid' shared' hfind'
    obtain ⟨hne, hold⟩ := hfind hfind'
    have hother := htotal pid'
    rw [if_neg (Ne.symm hne)] at hother
    rw [show os'.threads = os.threads.erase tid by rw [← hos']]
    exact (h.shared pid' shared' hold).trans hother.symm
  case running =>
    intro tid' p hthread'
    rw [show os'.threads = os.threads.erase tid by rw [← hos']] at hthread'
    rw [show os'.currentTid = os.currentTid by rw [← hos'],
      show os'.pageTables = os.pageTables by rw [← hos'], hmaps]
    have hold := hthread'
    rw [OrderedMap.find?_erase] at hold
    split at hold
    case isTrue => cases hold
    case isFalse hne =>
      obtain ⟨hlt, ⟨shared', hshared'⟩, hleader⟩ := h.running tid' p hold
      refine ⟨hlt, ⟨shared', ?_⟩, hleader⟩
      -- another thread of the process would have been counted
      have hother : p ≠ pid := by
        rintro rfl
        have hpid := htotal p
        rw [if_pos rfl, ← h.shared p shared hshared, hlast] at hpid
        have hcounted := OrderedMap.weight_le_total (fun q => if q = p then 1 else 0)
          (os.threads.erase tid) tid'
        rw [hthread'] at hcounted
        dsimp only [OrderedMap.weight] at hcounted
        rw [if_pos rfl] at hcounted
        omega
      rw [OrderedMap.find?_erase_of_ne _ hother]
      exact hshared'
  case tables =>
    intro pid' shared' hfind'
    obtain ⟨-, hold⟩ := hfind hfind'
    obtain ⟨table, htable, hbacked⟩ := h.tables pid' shared' hold
    rw [show os'.pageTables = os.pageTables by rw [← hos'],
      show os'.store = os.store.deleteMap shared.map by rw [← hos']]
    exact ⟨table, htable, hbacked.congr hframes (fun _ _ hmapped => hmapped) fun vpn id hmapped =>
      hppn id (references_ne_zero hfind' hmapped)⟩
  case fresh =>
    intro pid' hsome
    rw [show os'.pageTables = os.pageTables by rw [← hos']] at hsome
    rw [show os'.currentTid = os.currentTid by rw [← hos']]
    exact h.fresh pid' hsome
  case cached =>
    intro id hid
    unfold cachedPages at hid
    rw [show os'.elfPageCache = os.elfPageCache by rw [← hos']] at hid
    exact hspares.left h hid (hreferences id)

end

theorem Held.exit (h : Held os)
    (hregular : ∀ pid ∈ os.threads.find? tid, ∀ shared ∈ os.virtMemMaps.find? pid,
      shared.refCnt = 1 → os.Spares shared.map.pages)
    (hstep : os.exit tid = some os') :
    Held os' := by
  obtain ⟨pid, hthread, hstep⟩ := bind_eq_some_iff.1 hstep
  obtain ⟨shared, hshared, rfl⟩ := map_eq_some_iff.1 hstep
  split
  case isTrue hlast =>
    exact h.exit_last hthread hshared hlast (hregular pid hthread shared hshared hlast)
  case isFalse => exact h.exit_shared hthread hshared

theorem Held.exitOthers {others : List Nat} (h : Held os)
    (hthread : os.threads.find? tid = some pid) (hshared : os.virtMemMaps.find? pid = some shared)
    (hothers : ∀ other ∈ others, os.threads.find? other = some pid ∧ other ≠ tid)
    (hnodup : others.Nodup) (hrun : others.foldlM PagingOS.exit os = some os') :
    Held os' ∧ os'.threads.find? tid = some pid ∧ os'.store = os.store ∧
      os'.elfPageCache = os.elfPageCache ∧
      ∃ shared', os'.virtMemMaps.find? pid = some shared' ∧ shared'.map = shared.map := by
  induction others generalizing os shared with
  | nil =>
    cases hrun
    exact ⟨h, hthread, rfl, rfl, shared, hshared, rfl⟩
  | cons other rest ih =>
    obtain ⟨hnotMem, hnodup'⟩ := nodup_cons.1 hnodup
    obtain ⟨os₁, hexit, hrest⟩ := bind_eq_some_iff.1 hrun
    obtain ⟨hother, hne⟩ := hothers other mem_cons_self
    unfold PagingOS.exit at hexit
    rw [hother, bind_some, hshared, map_some] at hexit
    -- the caller is still a thread of the process
    have hnotLast : shared.refCnt ≠ 1 := by
      have htotal := total_erase_thread hother pid
      rw [if_pos rfl, ← h.shared pid shared hshared] at htotal
      have hcounted := OrderedMap.weight_le_total (fun q => if q = pid then 1 else 0)
        (os.threads.erase other) tid
      rw [OrderedMap.find?_erase_of_ne _ (Ne.symm hne), hthread] at hcounted
      dsimp only [OrderedMap.weight] at hcounted
      rw [if_pos rfl] at hcounted
      omega
    rw [if_neg hnotLast] at hexit
    cases hexit
    obtain ⟨hend, hthreadEnd, hstore, hcache, shared', hshared', hmap⟩ :=
      ih (h.exit_shared hother hshared)
        ((OrderedMap.find?_erase_of_ne _ (Ne.symm hne)).trans hthread)
        (OrderedMap.find?_insert_self ..)
        (fun other' hmem => by
          obtain ⟨hfind, hne'⟩ := hothers other' (mem_cons_of_mem _ hmem)
          refine ⟨(OrderedMap.find?_erase_of_ne _ ?_).trans hfind, hne'⟩
          rintro rfl
          exact hnotMem hmem) hnodup' hrest
    exact ⟨hend, hthreadEnd, hstore, hcache, shared', hshared', hmap⟩

theorem Held.exitGroup (h : Held os) (hregular : os.Regular pageShift (.exitGroup tid))
    (hstep : os.exitGroup tid = some os') :
    Held os' := by
  obtain ⟨pid, hthread, hstep⟩ := bind_eq_some_iff.1 hstep
  obtain ⟨os₁, hothers, hexit⟩ := bind_eq_some_iff.1 hstep
  obtain ⟨-, ⟨shared, hshared⟩, -⟩ := h.running tid pid hthread
  have hmem : ∀ other ∈ os.otherThreads pid tid, os.threads.find? other = some pid ∧
      other ≠ tid := by
    intro other hin
    obtain ⟨⟨other', p⟩, hentry, rfl⟩ := List.mem_map.1 hin
    obtain ⟨hentry', hcond⟩ := mem_filter.1 hentry
    obtain ⟨rfl, hne⟩ := of_decide_eq_true hcond
    exact ⟨(OrderedMap.mem_entries_iff _ _ _).1 hentry', hne⟩
  have hnodup : (os.otherThreads pid tid).Nodup := by
    unfold otherThreads
    refine List.Nodup.sublist ((filter_sublist).map _) ?_
    exact pairwise_map.2 (os.threads.sorted.imp fun hlt => hlt.ne)
  obtain ⟨hheld, hstill, hstore, hcache, shared', hshared', hmap⟩ :=
    h.exitOthers hthread hshared hmem hnodup hothers
  refine hheld.exit (fun pid' hpid' shared'' hshared'' _ => ?_) hexit
  cases hstill.symm.trans hpid'
  cases hshared'.symm.trans hshared''
  have hspares := hregular pid hthread shared hshared
  unfold Spares cachedPages at hspares ⊢
  rw [hstore, hcache, hmap]
  exact hspares

end Threads

section Steps

/-- A regular step keeps every page with its owners. -/
theorem Held.step {s : PagingStep} (h : Held os) (hregular : os.Regular pageShift s)
    (hstep : os.step pageShift s = some os') :
    Held os' := by
  unfold PagingOS.step at hstep
  rw [h.accounted.alive, if_neg Bool.false_ne_true] at hstep
  cases s with
  | pageFault => exact h.pageFault hregular hstep
  | mmap => exact h.mmap hregular.1 hstep
  | munmap => exact h.munmap hregular hstep
  | mprotect => exact h.mprotect hregular hstep
  | clone => exact h.clone hstep
  | fork => exact h.fork hstep
  | exit => exact h.exit hregular hstep
  | exitGroup => exact h.exitGroup hregular hstep

theorem idle_held (setup : PagingSetup) : Held (idle setup) := by
  have hnoMaps : (idle setup).references = fun y => 0 + if zeroPage = y then 1 else 0 :=
    funext fun y => add_comm _ _
  constructor
  case accounted =>
    obtain ⟨mem, hmem, hboot⟩ := bind_eq_some_iff.1 setup.booted
    obtain ⟨⟨id, store⟩, halloc, hstore⟩ := map_eq_some_iff.1 hboot
    have hempty : PageStore.Accounted ⟨mem, .empty, 0, false⟩ fun _ => 0 := by
      refine ⟨fun id => rfl, fun ppn => ⟨fun htaken => ?_, nofun⟩, nofun, nofun, rfl⟩
      exact absurd htaken (PhysMemManager.not_taken_construct hmem)
    obtain ⟨haccounted, hid, -⟩ := hempty.allocPage halloc fun _ => rfl
    obtain rfl : id = zeroPage := hid
    rw [hnoMaps, show (idle setup).store = store from hstore.symm]
    exact haccounted
  case cached => exact nofun
  all_goals
    intros
    contradiction

theorem Held.startAll (h : Held os) (programs : List LoadedProgram) :
    Held (programs.foldl (fun os program => os.startProcess program.map .empty os.currentTid)
      os) := by
  induction programs generalizing os with
  | nil => exact h
  | cons program rest ih =>
    refine ih (h.startProcess os.store program.map .empty _ rfl
      ⟨program.arranged, fun k region hfind => ?_⟩ ?_ rfl rfl nofun)
    · have hnil := flatMap_eq_nil_iff.1 program.pages_eq_nil (k, region)
        ((OrderedMap.mem_entries_iff _ _ _).2 hfind)
      rw [hnil]
      exact nodup_nil
    · rw [program.pages_eq_nil]
      exact h.accounted

theorem initial_held (setup : PagingSetup) : Held (initial setup) :=
  (idle_held setup).startAll setup.programs

theorem Held.containers_eq (h : Held os) (hid : id ≠ zeroPage) :
    os.references id = os.containers id := by
  unfold references containers
  rw [if_neg (Ne.symm hid), zero_add]
  refine OrderedMap.total_congr fun kv hentry => ?_
  obtain ⟨-, honce⟩ := h.maps kv.1 kv.2 ((OrderedMap.mem_entries_iff _ _ _).1 hentry)
  rw [VirtMemMap.count_pages]
  refine OrderedMap.total_congr fun region hregion => ?_
  have hnodup := honce region.1 region.2 ((OrderedMap.mem_entries_iff _ _ _).1 hregion)
  split
  case isTrue hmem => exact count_eq_one_of_mem hnodup hmem
  case isFalse hnot => exact count_eq_zero_of_not_mem hnot

theorem Held.sound (h : Held os) : Sound os where
  __ := h.accounted
  counted id page hpage hid := by
    have hcount : os.store.count id = some page.refCnt := by
      unfold PageStore.count
      rw [hpage]
      rfl
    exact (h.accounted.counted.eq_of_eq_some hcount).trans (h.containers_eq hid)
  returned id _ hid := by
    rw [← h.containers_eq hid, ← h.accounted.counted.eq_none_iff]
    exact map_eq_none_iff.symm
  single := h.accounted.distinct
  entries pid shared table vpn pte hshared htable hpte := by
    obtain ⟨table', htable', hbacked⟩ := h.tables pid shared hshared
    cases htable.symm.trans htable'
    exact (hbacked vpn pte hpte).imp_right fun ⟨id, _, hppn⟩ => ⟨id, hppn⟩
  cached elfInfo vpn id hcheck := by
    obtain ⟨page, hpage, -⟩ := h.accounted.exists_page
      (h.cached id (mem_cachedPages_iff.2 ⟨elfInfo, vpn, hcheck⟩))
    rw [hpage]
    rfl

/-- Pages are counted, returned and looked up right in regular runs. -/
theorem accounted_of_regular (pageShift : Nat) (setup : PagingSetup) (ops : List PagingStep)
    (hregular : StepsMeet (step pageShift) (Regular pageShift) (initial setup) ops) :
    Throughout (step pageShift) Sound (initial setup) ops := by
  have hinvariant := throughout_of_stepsMeet
    (fun os s os' (h : Held os) hok hstep => h.step hok hstep) (initial_held setup) hregular
  exact hinvariant.imp fun os h => h.sound

def someProgram : LoadedProgram :=
  (LoadedProgram.empty.addRegion "text" 0x10000 0x1000 5 (some (.elf 1)) (by decide)
    (by decide)).addRegion "data" 0x20000 0x3000 6 (some (.elf 1)) (by decide) (by decide)

/-- A machine with 64 pages. -/
def someSetup (programs : List LoadedProgram) : PagingSetup where
  memSize := 0x40000
  store := (PageStore.boot 0x40000).get (by decide +kernel)
  booted := (some_get _).symm
  programs := programs

/-- Pages are shared by fork and copied, regions are split and unmapped, threads and
processes end. -/
def somePages : List PagingStep :=
  [.pageFault 100 0x10 5, .pageFault 100 0x20 2, .pageFault 100 0x21 4, .fork 100 0,
    .pageFault 101 0x20 2, .pageFault 100 0x20 2, .clone 100, .mprotect 101 0x21000 0x2000 1,
    .exit 101, .mmap 102 0x1800 3 none, .pageFault 100 1 2, .pageFault 100 2 2,
    .munmap 100 0x1000 0x2000, .fork 102 0, .exit 100, .exitGroup 102]

theorem accounted_of_regular_somePages :
    Throughout (step 12) Sound (initial (someSetup [someProgram])) somePages :=
  accounted_of_regular 12 (someSetup [someProgram]) somePages (by decide +kernel)

/-- The page of a text that is in memory for another process. -/
def sharedText : List PagingStep := [.pageFault 100 0x10 5, .pageFault 101 0x10 5]

/-- The page is counted twice, and one region has it. -/
theorem cached_page_miscounted :
    ¬∀ (pageShift : Nat) (setup : PagingSetup) (ops : List PagingStep),
      Throughout (step pageShift) Sound (initial setup) ops := by
  intro hall
  obtain ⟨final, hrun, hcounts⟩ := map_eq_some_iff.1
    (show (runOps (step 12) (initial (someSetup [someProgram, someProgram])) sharedText).map
      (fun os => (os.store.count 1, os.containers 1)) = some (some 2, 1) by decide +kernel)
  obtain ⟨hcount, hcontainers⟩ := Prod.mk.inj hcounts
  have hsound := hall 12 (someSetup [someProgram, someProgram]) sharedText sharedText final
    prefix_rfl hrun
  obtain ⟨page, hpage, hrefs⟩ := map_eq_some_iff.1 hcount
  have hcounted := hsound.counted 1 page hpage (by decide)
  omega

end Steps

end SstElements.VanadisOS.PagingOS
