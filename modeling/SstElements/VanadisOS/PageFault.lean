import SstElements.Mmu.SimpleTLB
import SstElements.VanadisOS.VirtMemMap

/-!
# Page faults

What is done about a fault follows from the region of the page, from the entry of the page
table and from the pages of the program file that are in memory.
-/

namespace SstElements.VanadisOS

open Library Mmu

inductive MemoryBacking
  | elf (elfInfo : Nat)
  | dev (physAddr : Nat)
  | data
  deriving DecidableEq

abbrev PageTable := OrderedMap Nat PTE

/-- The bit fields cut what is stored. -/
def pageEntry (ppn perms : Nat) : PTE where
  perms := perms % 2 ^ 3
  ppn := ppn % 2 ^ 29
  perms_lt := Nat.mod_lt _ (by decide)
  ppn_lt := Nat.mod_lt _ (by decide)

/-- The regions and the page table of a process. -/
structure AddressSpace where
  virtMemMap : VirtMemMap MemoryBacking
  pageTable : PageTable

/-- The page of an address, and the start of a page, have 32 bits. -/
def pageOf (pageShift virtAddr : Nat) : Nat := virtAddr >>> pageShift % 2 ^ 32

def pageStart (pageShift vpn : Nat) : Nat := vpn <<< pageShift % 2 ^ 32

namespace AddressSpace

def map (space : AddressSpace) (vpn ppn perms : Nat) : AddressSpace :=
  { space with pageTable := space.pageTable.insert vpn (pageEntry ppn perms) }

/-- The physical address; the outer `none` is the fatal error that there is no region, the
inner one a page that is not in the table. -/
def virtToPhys (space : AddressSpace) (pageShift virtAddr : Nat) : Option (Option Nat) :=
  (space.virtMemMap.findRegion virtAddr).map fun _ =>
    (space.pageTable.find? (pageOf pageShift virtAddr)).map fun pte =>
      pte.ppn <<< pageShift % 2 ^ 32 ||| virtAddr &&& (2 ^ pageShift - 1)

end AddressSpace

/-- What is done about a fault: it is denied, the page is there, it is copied, it is one of
a device, it is in memory for another process, or it is filled, and kept for others. -/
inductive FaultAction
  | deny
  | present
  | copyOnWrite (origPPN perms : Nat)
  | device (ppn perms : Nat)
  | cached (ppn perms : Nat) (text : Bool)
  | fill (perms : Nat) (cache : Option Nat)
  deriving DecidableEq

/-- The pages of program files that are in memory, by file and page. -/
abbrev ElfPageCache := OrderedMap Nat (OrderedMap Nat Nat)

def checkPageCache (cache : ElfPageCache) (elfInfo vpn : Nat) : Option Nat :=
  (cache.find? elfInfo).bind fun pages => pages.find? vpn

def updatePageCache (cache : ElfPageCache) (elfInfo vpn page : Nat) : ElfPageCache :=
  cache.insert elfInfo (((cache.find? elfInfo).getD .empty).insert vpn page)

/-- A page that is in no table yet. -/
def regionAction
    (pageShift : Nat) (cache : ElfPageCache) (region : MemoryRegion MemoryBacking) (vpn : Nat) :
    FaultAction :=
  match region.backing with
  | none | some .data => .fill region.perms none
  | some (.elf elfInfo) =>
    match checkPageCache cache elfInfo vpn with
    | none => .fill region.perms (if region.name = "text" then some elfInfo else none)
    | some page => .cached page region.perms (region.name = "text")
  | some (.dev physAddr) =>
    .device (physAddr >>> pageShift + (vpn - region.addr >>> pageShift)) region.perms

def faultAction
    (pageShift : Nat) (cache : ElfPageCache) (space : AddressSpace) (vpn faultPerms : Nat) :
    FaultAction :=
  match space.virtMemMap.findRegion (pageStart pageShift vpn + 1) with
  | none => .deny
  | some region =>
    if checkPerms faultPerms region.perms then
      match space.pageTable.find? vpn with
      | some pte =>
        if faultPerms.testBit 1 ∧ ¬pte.perms.testBit 1 then
          .copyOnWrite pte.ppn region.perms
        else
          .present
      | none => regionAction pageShift cache region vpn
    else
      .deny

end SstElements.VanadisOS
