import SstElements.VanadisOS.AddressSpace
import SstElements.VanadisOS.PageFault
import SstElements.VanadisOS.PageStore

/-!
# Who holds which page

Page faults, fork, mprotect, munmap and the exit of threads change the pages of regions,
the page tables, the page cache of program files and the counts of pages.
-/

namespace SstElements.VanadisOS

open Library Mmu

def MemoryRegion.pages {Backing : Type} (region : MemoryRegion Backing) : List Nat :=
  region.virtToPhysMap.entries.map Prod.snd

namespace VirtMemMap

def pages (map : VirtMemMap MemoryBacking) : List Nat :=
  map.regionMap.entries.flatMap fun kv => kv.2.pages

def setMapping
    (map : VirtMemMap MemoryBacking) (region : MemoryRegion MemoryBacking) (vpn page : Nat) :
    VirtMemMap MemoryBacking :=
  { map with
    regionMap := map.regionMap.insert region.addr
      { region with virtToPhysMap := region.virtToPhysMap.insert vpn page } }

/-- The regions that a call of unmap deletes. -/
def unmapped (map : VirtMemMap MemoryBacking) (addr length : Nat) :
    List (MemoryRegion MemoryBacking) :=
  match map.unmapScan addr length with
  | .regions found => found
  | .invalid | .unsupported => []

end VirtMemMap

namespace PageStore

/-- The constructor of the operating system takes the first page, and does not use it. -/
def boot (memSize : Nat) : Option PageStore :=
  (PhysMemManager.construct memSize).bind fun mem =>
    (PageStore.mk mem .empty 0 false).allocPage.map Prod.snd

def deleteRegion (store : PageStore) (region : MemoryRegion MemoryBacking) : PageStore :=
  region.pages.foldl decRefCnt store

def deleteMap (store : PageStore) (map : VirtMemMap MemoryBacking) : PageStore :=
  map.regionMap.entries.foldl (fun store kv => store.deleteRegion kv.2) store

/-- A page of a region is replaced, or a new one comes to it. -/
def mapVirtToPhys (store : PageStore) (region : MemoryRegion MemoryBacking) (vpn : Nat) :
    PageStore :=
  match region.virtToPhysMap.find? vpn with
  | some old => store.decRefCnt old
  | none => store

end PageStore

def zeroPage : Nat := 0

namespace PageTable

def removeWrite (table : PageTable) : PageTable :=
  table.mapValues fun pte => pageEntry pte.ppn (pte.perms &&& 5)

def unmap (table : PageTable) (vpn numPages : Nat) : PageTable :=
  (List.range numPages).foldl (fun table i => table.erase ((vpn + i) % 2 ^ 32)) table

end PageTable

/-- The memory map is shared by the threads of its process.  The entries of its free list
are objects, known by the process that made them. -/
structure SharedMap where
  map : VirtMemMap MemoryBacking
  refCnt : Nat
  freeEntries : Nat

structure Device where
  name : String
  physAddr : Nat
  length : Nat
  deriving DecidableEq

/-- Threads have their process.  Memory maps and page tables are known by process; the
tables of processes that are gone stay. -/
structure PagingOS where
  store : PageStore
  threads : OrderedMap Nat Nat
  virtMemMaps : OrderedMap Nat SharedMap
  pageTables : OrderedMap Nat PageTable
  elfPageCache : ElfPageCache
  currentTid : Nat

inductive PagingStep
  | pageFault (pid vpn faultPerms : Nat)
  | mmap (tid : Nat) (length : UInt64) (prot : Nat) (dev : Option Device)
  | munmap (tid : Nat) (address length : UInt64)
  | mprotect (tid : Nat) (address length : UInt64) (prot : Nat)
  | clone (tid : Nat)
  | fork (tid brk : Nat)
  | exit (tid : Nat)
  | exitGroup (tid : Nat)
  deriving DecidableEq

def roundUp (pageShift num : Nat) : Nat :=
  if num % 2 ^ pageShift = 0 then
    num
  else
    (num - num % 2 ^ pageShift + 2 ^ pageShift) % 2 ^ 64

/-- The permissions of a region, from those of a call. -/
def protPerms (prot : Nat) : Nat :=
  (if prot.testBit 0 then 4 else 0) ||| if prot.testBit 1 then 2 else 0

namespace PagingOS

variable (pageShift : Nat)

def mapPage (os : PagingOS) (pid vpn ppn perms : Nat) : Option PagingOS :=
  (os.pageTables.find? pid).map fun table =>
    { os with pageTables := os.pageTables.insert pid (table.insert vpn (pageEntry ppn perms)) }

/-- A page comes to the region of its address; `none` is the failed assertion that there
is one. -/
def mapVirtToPage (os : PagingOS) (pid vpn page : Nat) : Option PagingOS :=
  (os.virtMemMaps.find? pid).bind fun shared =>
    (shared.map.findRegion (pageStart pageShift vpn)).map fun region =>
      { os with
        store := os.store.mapVirtToPhys region vpn
        virtMemMaps := os.virtMemMaps.insert pid
          { shared with map := shared.map.setMapping region vpn page } }

/-- A page of a program file may be kept for others. -/
def keepPage (os : PagingOS) (cache : Option Nat) (vpn page : Nat) : PagingOS :=
  match cache with
  | none => os
  | some elfInfo => { os with elfPageCache := updatePageCache os.elfPageCache elfInfo vpn page }

def newPage (os : PagingOS) (pid vpn perms : Nat) (cache : Option Nat) : Option PagingOS :=
  os.store.allocPage.bind fun (page, store) =>
    ({ os with store := store }.mapVirtToPage pageShift pid vpn page).bind fun os =>
      (store.ppnOf page).bind fun ppn =>
        (os.mapPage pid vpn ppn perms).map fun (os : PagingOS) => os.keepPage cache vpn page

/-- A page that is in memory for a program file has one more reference. -/
def cachedPage (os : PagingOS) (pid vpn page perms : Nat) : Option PagingOS :=
  let os := { os with store := os.store.incRefCnt page }
  match os.store.ppnOf page with
  | none => some os
  | some ppn => os.mapPage pid vpn ppn perms

/-- A fault finds its process by the number of the process among those of the threads. -/
def pageFault (os : PagingOS) (pid vpn faultPerms : Nat) : Option PagingOS :=
  match os.threads.find? pid with
  | none => some os
  | some process =>
    (os.virtMemMaps.find? process).bind fun shared =>
      (os.pageTables.find? pid).bind fun table =>
        match faultAction pageShift os.elfPageCache ⟨shared.map, table⟩ vpn faultPerms with
        | .deny | .present => some os
        | .copyOnWrite _ perms => os.newPage pageShift process vpn perms none
        | .device ppn perms => os.mapPage process vpn ppn perms
        | .cached page perms _ => os.cachedPage process vpn page perms
        | .fill perms cache => os.newPage pageShift process vpn perms cache

def mmap (os : PagingOS) (tid length prot : Nat) (dev : Option Device) : Option PagingOS :=
  (os.threads.find? tid).bind fun pid =>
    (os.virtMemMaps.find? pid).bind fun shared =>
      (shared.map.mmap (roundUp pageShift ((dev.map Device.length).getD length)) (protPerms prot)
        (dev.map fun dev => (dev.name, MemoryBacking.dev dev.physAddr))).map fun (_, map) =>
          { os with virtMemMaps := os.virtMemMaps.insert pid { shared with map := map } }

/-- The entries of the page table go, also where the call is refused. -/
def munmap (os : PagingOS) (tid address length : Nat) : Option PagingOS :=
  (os.threads.find? tid).bind fun pid =>
    (os.virtMemMaps.find? pid).bind fun shared =>
      (os.pageTables.find? pid).bind fun table =>
        let left := table.unmap (pageOf pageShift address) (length / 2 ^ pageShift)
        let os := { os with pageTables := os.pageTables.insert pid left }
        if length = 0 ∨ address % 2 ^ pageShift ≠ 0 then
          some os
        else
          (shared.map.unmap address length).map fun (_, map) =>
            { os with
              store := (shared.map.unmapped address length).foldl PageStore.deleteRegion os.store
              virtMemMaps := os.virtMemMaps.insert pid { shared with map := map } }

def mprotect (os : PagingOS) (tid address length prot : Nat) : Option PagingOS :=
  (os.threads.find? tid).bind fun pid =>
    (os.virtMemMaps.find? pid).bind fun shared =>
      (shared.map.mprotect address length (protPerms prot)).map fun map =>
        { os with virtMemMaps := os.virtMemMaps.insert pid { shared with map := map } }

/-- A new thread of a process shares its memory map. -/
def clone (os : PagingOS) (tid : Nat) : Option PagingOS :=
  (os.threads.find? tid).bind fun pid =>
    (os.virtMemMaps.find? pid).map fun shared =>
      { os with
        threads := os.threads.insert os.currentTid pid
        virtMemMaps := os.virtMemMaps.insert pid { shared with refCnt := shared.refCnt + 1 }
        currentTid := os.currentTid + 1 }

def startProcess
    (os : PagingOS) (map : VirtMemMap MemoryBacking) (table : PageTable) (freeEntries : Nat) :
    PagingOS :=
  { os with
    threads := os.threads.insert os.currentTid os.currentTid
    virtMemMaps := os.virtMemMaps.insert os.currentTid ⟨map, 1, freeEntries⟩
    pageTables := os.pageTables.insert os.currentTid table
    currentTid := os.currentTid + 1 }

/-- The child has the pages of its parent, and both may no longer write to them; the break
is not copied.  The free list of the child points to the entries of its parent, which a
change of either list changes for both: a step is regular only while they are not shared. -/
def fork (os : PagingOS) (tid brk : Nat) : Option PagingOS :=
  (os.threads.find? tid).bind fun pid =>
    (os.virtMemMaps.find? pid).bind fun shared =>
      (os.pageTables.find? pid).map fun table =>
        { os with
          store := shared.map.pages.foldl PageStore.incRefCnt os.store
          pageTables := os.pageTables.insert pid table.removeWrite }.startProcess
            { shared.map with brk := brk } table.removeWrite shared.freeEntries

/-- The destructor of a thread; the last one of a process deletes the memory map. -/
def exit (os : PagingOS) (tid : Nat) : Option PagingOS :=
  (os.threads.find? tid).bind fun pid =>
    (os.virtMemMaps.find? pid).map fun shared =>
      if shared.refCnt = 1 then
        { os with
          threads := os.threads.erase tid
          store := os.store.deleteMap shared.map
          virtMemMaps := os.virtMemMaps.erase pid }
      else
        { os with
          threads := os.threads.erase tid
          virtMemMaps := os.virtMemMaps.insert pid { shared with refCnt := shared.refCnt - 1 } }

/-- The other threads of a process, in the order of their numbers. -/
def otherThreads (os : PagingOS) (pid tid : Nat) : List Nat :=
  (os.threads.entries.filter fun kv => kv.2 = pid ∧ kv.1 ≠ tid).map Prod.fst

def exitGroup (os : PagingOS) (tid : Nat) : Option PagingOS :=
  (os.threads.find? tid).bind fun pid =>
    ((os.otherThreads pid tid).foldlM exit os).bind fun os => os.exit tid

def step (os : PagingOS) (s : PagingStep) : Option PagingOS :=
  if os.store.dangling then
    none
  else
    match s with
    | .pageFault pid vpn faultPerms => os.pageFault pageShift pid vpn faultPerms
    | .mmap tid length prot dev => os.mmap pageShift tid length.toNat prot dev
    | .munmap tid address length => os.munmap pageShift tid address.toNat length.toNat
    | .mprotect tid address length prot => os.mprotect tid address.toNat length.toNat prot
    | .clone tid => os.clone tid
    | .fork tid brk => os.fork tid brk
    | .exit tid => os.exit tid
    | .exitGroup tid => os.exitGroup tid

end PagingOS

/-- The regions of a program before it is started; none of its pages is in memory. -/
structure LoadedProgram where
  map : VirtMemMap MemoryBacking
  arranged : map.Arranged
  pages_eq_nil : map.pages = []

/-- The programs of a machine whose memory has a page. -/
structure PagingSetup where
  memSize : Nat
  store : PageStore
  booted : PageStore.boot memSize = some store
  programs : List LoadedProgram

namespace PagingOS

def idle (setup : PagingSetup) : PagingOS where
  store := setup.store
  threads := .empty
  virtMemMaps := .empty
  pageTables := .empty
  elfPageCache := .empty
  currentTid := 100

def initial (setup : PagingSetup) : PagingOS :=
  setup.programs.foldl (fun os program => os.startProcess program.map .empty os.currentTid)
    (idle setup)

/-- How many regions of the processes that exist have the page. -/
def containers (os : PagingOS) (id : Nat) : Nat :=
  os.virtMemMaps.total (fun shared =>
    shared.map.regionMap.total fun region => if id ∈ region.pages then 1 else 0)

structure Sound (os : PagingOS) : Prop where
  alive : os.store.dangling = false
  counted : ∀ id page, os.store.pages.find? id = some page → id ≠ zeroPage →
    page.refCnt = os.containers id
  returned : ∀ id, id < os.store.created → id ≠ zeroPage →
    (os.store.pages.find? id = none ↔ os.containers id = 0)
  taken : ∀ ppn, os.store.physMem.Taken ppn ↔ ∃ id, os.store.ppnOf id = some ppn
  single : ∀ id id' ppn, os.store.ppnOf id = some ppn → os.store.ppnOf id' = some ppn → id' = id
  entries : ∀ pid shared table vpn pte, os.virtMemMaps.find? pid = some shared →
    os.pageTables.find? pid = some table → table.find? vpn = some pte →
      os.store.physMem.frames ≤ pte.ppn ∨ ∃ id, os.store.ppnOf id = some pte.ppn
  cached : ∀ elfInfo vpn id, checkPageCache os.elfPageCache elfInfo vpn = some id →
    (os.store.pages.find? id).isSome

def cachedPages (os : PagingOS) : List Nat :=
  os.elfPageCache.entries.flatMap fun kv => kv.2.entries.map Prod.snd

/-- The references of the list are not all those to a page of the cache. -/
def Spares (os : PagingOS) (ids : List Nat) : Prop :=
  ∀ id ∈ os.cachedPages, ∀ n ∈ os.store.count id, ids.count id < n
deriving Decidable

/-- The entries of a page table are not for the pages of a region. -/
def Detached (os : PagingOS) (table : PageTable) (region : MemoryRegion MemoryBacking) : Prop :=
  ∀ kv ∈ region.virtToPhysMap.entries, ∀ pte ∈ table.find? kv.1,
    os.store.ppnOf kv.2 ≠ some pte.ppn
deriving Decidable

/-- No other process that exists has the entries of the free list. -/
def Unshared (os : PagingOS) (pid : Nat) (shared : SharedMap) : Prop :=
  ∀ kv ∈ os.virtMemMaps.entries, kv.2.freeEntries = shared.freeEntries → kv.1 = pid
deriving Decidable

variable (pageShift : Nat)

/-- A physical page has a number that fits an entry, and a page that is replaced is not the
last reference of the cache. -/
def RegularNew (os : PagingOS) (map : VirtMemMap MemoryBacking) (vpn : Nat) : Prop :=
  os.store.physMem.frames ≤ 2 ^ 29 ∧
    ∀ region ∈ map.findRegion (pageStart pageShift vpn),
      ∀ old ∈ region.virtToPhysMap.find? vpn, os.Spares [old]
deriving Decidable

def RegularFault (os : PagingOS) (map : VirtMemMap MemoryBacking) (vpn : Nat) : FaultAction → Prop
  | .deny | .present => True
  | .copyOnWrite _ _ | .fill _ _ => os.RegularNew pageShift map vpn
  | .device ppn _ => os.store.physMem.frames ≤ ppn % 2 ^ 29
  | .cached _ _ _ => False

/-- A fault is not answered from the page cache, pages of devices are not in memory, pages
of the cache are not given up.  The regions that are unmapped have no pages with an entry
of the page table outside of the range; no region is replaced by an empty change of
permissions.  A free list is not changed while its entries are shared. -/
def Regular (os : PagingOS) : PagingStep → Prop
  | .pageFault pid vpn faultPerms => ∀ process ∈ os.threads.find? pid,
      ∀ shared ∈ os.virtMemMaps.find? process, ∀ table ∈ os.pageTables.find? pid,
        os.RegularFault pageShift shared.map vpn
          (faultAction pageShift os.elfPageCache ⟨shared.map, table⟩ vpn faultPerms)
  | .mmap tid length _ dev =>
    0 < roundUp pageShift ((dev.map Device.length).getD length.toNat) ∧
      ∀ pid ∈ os.threads.find? tid, ∀ shared ∈ os.virtMemMaps.find? pid, os.Unshared pid shared
  | .munmap tid address length => ∀ pid ∈ os.threads.find? tid,
      ∀ shared ∈ os.virtMemMaps.find? pid, ∀ table ∈ os.pageTables.find? pid,
        (∀ region ∈ shared.map.unmapped address.toNat length.toNat, os.Detached
          (table.unmap (pageOf pageShift address.toNat) (length.toNat / 2 ^ pageShift)) region) ∧
        os.Spares ((shared.map.unmapped address.toNat length.toNat).flatMap MemoryRegion.pages) ∧
        (shared.map.unmapped address.toNat length.toNat ≠ [] → os.Unshared pid shared)
  | .mprotect tid address length _ => ∀ pid ∈ os.threads.find? tid,
      ∀ shared ∈ os.virtMemMaps.find? pid, ∀ region ∈ shared.map.findRegion address.toNat,
        address.toNat = region.addr → length = 0 → region.pages = []
  | .clone _ | .fork _ _ => True
  | .exit tid => ∀ pid ∈ os.threads.find? tid, ∀ shared ∈ os.virtMemMaps.find? pid,
      shared.refCnt = 1 → os.Spares shared.map.pages
  | .exitGroup tid => ∀ pid ∈ os.threads.find? tid, ∀ shared ∈ os.virtMemMaps.find? pid,
      os.Spares shared.map.pages

section Decidable

variable (os : PagingOS)

instance instDecidableRegularFault (map : VirtMemMap MemoryBacking) (vpn : Nat) :
    ∀ action, Decidable (os.RegularFault pageShift map vpn action)
  | .deny | .present => inferInstanceAs (Decidable True)
  | .copyOnWrite _ _ | .fill _ _ => inferInstanceAs (Decidable (os.RegularNew pageShift map vpn))
  | .device _ _ => inferInstanceAs (Decidable (_ ≤ _))
  | .cached _ _ _ => inferInstanceAs (Decidable False)

instance instDecidableRegular : ∀ s, Decidable (os.Regular pageShift s)
  | .mmap .. => inferInstanceAs (Decidable (0 < _ ∧ ∀ _ ∈ _, _))
  | .clone _ | .fork _ _ => inferInstanceAs (Decidable True)
  | .pageFault .. | .munmap .. | .mprotect .. | .exit _ | .exitGroup _ =>
    inferInstanceAs (Decidable (∀ _ ∈ _, _))

end Decidable

end PagingOS

end SstElements.VanadisOS
