import SstElements.VanadisOS.FreeList
import SstElements.Library.Transition

/-!
# The virtual memory map of a process

Regions are kept in a map by their start, beside the list of free ranges.  A region has
the physical pages that have been mapped into it.
-/

namespace SstElements.VanadisOS

open Library Option

universe u

structure MemoryRegion (Backing : Type u) where
  name : String
  addr : Nat
  length : Nat
  perms : Nat
  backing : Option Backing
  virtToPhysMap : OrderedMap Nat Nat

variable {Backing : Type u}

/-- A new region has no pages yet. -/
def MemoryRegion.create
    (name : String) (addr length perms : Nat) (backing : Option Backing) :
    MemoryRegion Backing where
  name := name
  addr := addr
  length := length
  perms := perms
  backing := backing
  virtToPhysMap := .empty

def MemoryRegion.end (region : MemoryRegion Backing) : Nat := region.addr + region.length

theorem MemoryRegion.end_eq (region : MemoryRegion Backing) :
    region.end = region.addr + region.length := rfl

/-- What the bytes of a region have in common. -/
structure ByteInfo (Backing : Type u) where
  name : String
  perms : Nat
  backing : Option Backing

def MemoryRegion.info (region : MemoryRegion Backing) : ByteInfo Backing where
  name := region.name
  perms := region.perms
  backing := region.backing

/-- The region of the heap is known by its start, while it exists. -/
structure VirtMemMap (Backing : Type u) where
  regionMap : OrderedMap Nat (MemoryRegion Backing)
  freeList : FreeList
  brk : Nat
  heapRegion : Option Nat

namespace VirtMemMap

def firstAddress : Nat := 0x1000

def lastAddress : Nat := 0x80000000

def initial (Backing : Type u) : VirtMemMap Backing where
  regionMap := .empty
  freeList := .initial firstAddress lastAddress
  brk := 0
  heapRegion := none

/-- A new region; `none` is the failed assertion that there is room. -/
def addRegion
    (map : VirtMemMap Backing)
    (name : String) (start length perms : Nat) (backing : Option Backing) :
    Option (Nat × VirtMemMap Backing) :=
  let added (start : Nat) (freeList : FreeList) :=
    (start,
      { map with
        regionMap := map.regionMap.insert start (.create name start length perms backing)
        freeList := freeList })
  if start = 0 then
    let allocated := map.freeList.allocFirst length
    if allocated.1 = 0 then none else some (added allocated.1 allocated.2)
  else
    match map.freeList.allocAt start length with
    | some (some freeList) => some (added start freeList)
    | _ => none

/-- The region goes, and its range is free again. -/
def rmRegion (map : VirtMemMap Backing) (region : MemoryRegion Backing) : VirtMemMap Backing :=
  { map with
    regionMap := map.regionMap.erase region.addr
    freeList := map.freeList.free region.addr region.length
    heapRegion := if map.heapRegion = some region.addr then none else map.heapRegion }

/-- The first region that contains the address; the end of a region is cut to 32 bits. -/
def findRegion (map : VirtMemMap Backing) (addr : Nat) : Option (MemoryRegion Backing) :=
  (map.regionMap.entries.find? fun kv =>
    kv.2.addr ≤ addr ∧ addr < addAddress kv.2.addr kv.2.length % 2 ^ 32).map Prod.snd

/-- Change the permissions of a range; `none` are the assertions that a region is split in
two at most, and the missing region. -/
def mprotect
    (map : VirtMemMap Backing)
    (addr length prot : Nat) :
    Option (VirtMemMap Backing) :=
  match map.findRegion addr with
  | none => none
  | some region =>
    if addr = region.addr then
      if length < region.length then
        -- the second part of the split has no backing
        let second : MemoryRegion Backing :=
          .create region.name (addAddress addr length) (region.length - length) region.perms none
        let split := map.regionMap.insert (addAddress addr length) second
        if length = 0 then
          some
            { map with
              regionMap := split
              heapRegion := if map.heapRegion = some addr then none else map.heapRegion }
        else
          some { map with
            regionMap := split.insert addr { region with length := length, perms := prot } }
      else if length = region.length then
        some { map with regionMap := map.regionMap.insert addr { region with perms := prot } }
      else
        none
    else if addr < region.end ∧ addAddress addr length = region.end then
      some
        { map with
          regionMap :=
            (map.regionMap.insert region.addr
              { region with length := region.length - length }).insert addr
              (.create region.name addr length prot none) }
    else
      none

def mmap
    (map : VirtMemMap Backing)
    (length perms : Nat) (dev : Option (String × Backing)) :
    Option (Nat × VirtMemMap Backing) :=
  map.addRegion ((dev.map Prod.fst).getD "") 0 length perms (dev.map Prod.snd)

/-- What a range that is to be unmapped consists of. -/
inductive UnmapScan (Backing : Type u)
  | invalid
  | unsupported
  | regions (found : List (MemoryRegion Backing))

def UnmapScan.cons (region : MemoryRegion Backing) : UnmapScan Backing → UnmapScan Backing
  | .invalid => .invalid
  | .unsupported => .unsupported
  | .regions found => .regions (region :: found)

variable {map : VirtMemMap Backing} {addr : Nat} {region : MemoryRegion Backing}

theorem findRegion_bounds (h : map.findRegion addr = some region) :
    (∃ k, map.regionMap.find? k = some region) ∧ region.addr ≤ addr ∧
      addr < addAddress region.addr region.length % 2 ^ 32 := by
  obtain ⟨kv, hscan, rfl⟩ := map_eq_some_iff.1 h
  have hin := List.find?_some hscan
  exact ⟨⟨kv.1, (OrderedMap.mem_entries_iff _ _ _).1 (List.mem_of_find?_eq_some hscan)⟩,
    of_decide_eq_true hin⟩

theorem findRegion_length_pos (h : map.findRegion addr = some region) : 0 < region.length := by
  obtain ⟨-, hle, hlt⟩ := findRegion_bounds h
  have hmod := Nat.mod_le (addAddress region.addr region.length) (2 ^ 32)
  unfold addAddress at hlt hmod
  omega

/-- Collect the regions of a range; the condition takes a region whose length is that of
the range wherever the range starts. -/
def unmapScan (map : VirtMemMap Backing) (addr length : Nat) : UnmapScan Backing :=
  match _h : map.findRegion addr with
  | none => .invalid
  | some region =>
    if addr = region.addr ∧ region.length < length ∨ length = region.length then
      if length - region.length = 0 then
        .regions [region]
      else
        (unmapScan map (addr + region.length) (length - region.length)).cons region
    else
      .unsupported
  termination_by length
  decreasing_by
    have hpos := findRegion_length_pos _h
    omega

/-- Unmap a range: the error code or zero, and what is left; `none` is the assertion that
only whole regions are unmapped. -/
def unmap (map : VirtMemMap Backing) (addr length : Nat) : Option (Nat × VirtMemMap Backing) :=
  match unmapScan map addr length with
  | .invalid => some (22, map)
  | .unsupported => none
  | .regions found => some (0, found.foldl rmRegion map)

def initBrk (map : VirtMemMap Backing) (addr : Nat) : Option (VirtMemMap Backing) :=
  (map.addRegion "heap" addr 0x10000000 0x6 none).bind fun added =>
    if added.1 = addr then some { added.2 with brk := addr, heapRegion := some addr } else none

def setBrk (map : VirtMemMap Backing) (brk : Nat) : Option (VirtMemMap Backing) :=
  match map.heapRegion.bind map.regionMap.find? with
  | none => none
  | some region =>
    if map.brk ≤ brk ∧ brk < addAddress region.addr region.length then
      some { map with brk := brk }
    else
      none

end VirtMemMap

inductive MapOp (Backing : Type u)
  | addRegion (name : String) (start length perms : Nat) (backing : Option Backing)
  | mmap (length perms : Nat) (dev : Option (String × Backing))
  | unmap (addr length : Nat)
  | mprotect (addr length prot : Nat)
  | initBrk (addr : Nat)
  | setBrk (brk : Nat)

/-- Addresses and lengths have 64 bits. -/
def MapOp.Valid : MapOp Backing → Prop
  | .addRegion _ start length _ _ => start < 2 ^ 64 ∧ length < 2 ^ 64
  | .mmap length _ _ => length < 2 ^ 64
  | .unmap addr length => addr < 2 ^ 64 ∧ length < 2 ^ 64
  | .mprotect addr length _ => addr < 2 ^ 64 ∧ length < 2 ^ 64
  | .initBrk addr => addr < 2 ^ 64
  | .setBrk brk => brk < 2 ^ 64

def PageAddress (addr : Nat) : Prop := addr % 0x1000 = 0 ∧ 0x1000 ≤ addr ∧ addr < 0x80000000

/-- The addresses are those of pages, and the lengths are whole pages of the address space. -/
def MapOp.Aligned : MapOp Backing → Prop
  | .addRegion _ start length _ _ =>
    (start = 0 ∨ PageAddress start) ∧ length % 0x1000 = 0 ∧ length < 0x80000000
  | .mmap length _ _ => length % 0x1000 = 0 ∧ length < 0x80000000
  | .unmap addr length => PageAddress addr ∧ length % 0x1000 = 0 ∧ length < 0x80000000
  | .mprotect addr length _ => PageAddress addr ∧ length % 0x1000 = 0 ∧ length < 0x80000000
  | .initBrk addr => PageAddress addr
  | .setBrk brk => brk < 0x80000000

namespace VirtMemMap

def step (map : VirtMemMap Backing) : MapOp Backing → Option (VirtMemMap Backing)
  | .addRegion name start length perms backing =>
    (map.addRegion name start length perms backing).map Prod.snd
  | .mmap length perms dev => (map.mmap length perms dev).map Prod.snd
  | .unmap addr length => (map.unmap addr length).map Prod.snd
  | .mprotect addr length prot => map.mprotect addr length prot
  | .initBrk addr => map.initBrk addr
  | .setBrk brk => map.setBrk brk

/-- The byte belongs to a region with this name, these permissions and this backing. -/
def Holds (map : VirtMemMap Backing) (b : Nat) (info : ByteInfo Backing) : Prop :=
  ∃ k region, map.regionMap.find? k = some region ∧ (region.addr ≤ b ∧ b < region.end) ∧
    region.info = info

/-- All bytes of the range are free. -/
def Free (map : VirtMemMap Backing) (addr length : Nat) : Prop :=
  ∀ b, addr ≤ b → b < addr + length → ∃ k e, map.freeList.find? k = some e ∧
    e.start ≤ b ∧ b < e.end

/-- How many regions and free ranges an address belongs to. -/
def owners (map : VirtMemMap Backing) (b : Nat) : Nat :=
  map.regionMap.entries.countP (fun kv => decide (kv.2.addr ≤ b ∧ b < kv.2.end)) +
    map.freeList.entries.countP fun kv => decide (kv.2.start ≤ b ∧ b < kv.2.end)

/-- The regions are at their keys and not empty; they and the free ranges are disjoint and
make up the address space. -/
structure Partitioned (map : VirtMemMap Backing) : Prop where
  keys : ∀ k region, map.regionMap.find? k = some region → region.addr = k ∧ 0 < region.length
  owners : ∀ b, map.owners b = if firstAddress ≤ b ∧ b < lastAddress then 1 else 0

/-- What a call may do to the map. -/
def Keeps (map : VirtMemMap Backing) : MapOp Backing → Prop
  | .addRegion name start length perms backing =>
    ∀ added map', map.addRegion name start length perms backing = some (added, map') →
      (start ≠ 0 → added = start) ∧ map.Free added length ∧
        ∀ b info, map'.Holds b info ↔ map.Holds b info ∨
          (added ≤ b ∧ b < added + length) ∧ info = ⟨name, perms, backing⟩
  | .mmap length perms dev =>
    ∀ added map', map.mmap length perms dev = some (added, map') →
      map.Free added length ∧
        ∀ b info, map'.Holds b info ↔ map.Holds b info ∨
          (added ≤ b ∧ b < added + length) ∧
            info = ⟨(dev.map Prod.fst).getD "", perms, dev.map Prod.snd⟩
  | .unmap addr length =>
    ∀ code map', map.unmap addr length = some (code, map') →
      (code = 0 ∧ ∀ b info, map'.Holds b info ↔
        map.Holds b info ∧ ¬(addr ≤ b ∧ b < addr + length)) ∨
      (code ≠ 0 ∧ map' = map)
  | .mprotect addr length prot =>
    ∀ map', map.mprotect addr length prot = some map' →
      ∀ b info, map'.Holds b info ↔
        if addr ≤ b ∧ b < addr + length then
          ∃ old, map.Holds b old ∧ info = { old with perms := prot }
        else
          map.Holds b info
  | .initBrk addr =>
    ∀ map', map.initBrk addr = some map' → map.Free addr 0x10000000 ∧ map'.brk = addr ∧
      ∀ b info, map'.Holds b info ↔ map.Holds b info ∨
        (addr ≤ b ∧ b < addr + 0x10000000) ∧ info = ⟨"heap", 0x6, none⟩
  | .setBrk brk =>
    ∀ map', map.setBrk brk = some map' → map'.brk = brk ∧
      ∀ b info, map'.Holds b info ↔ map.Holds b info

/-- The range is not empty and does not wrap around; a range that is unmapped starts at a
region or has another length than the region at its start; a region that is split has no
backing. -/
def Regular (map : VirtMemMap Backing) : MapOp Backing → Prop
  | .addRegion _ start length _ _ => 0 < length ∧ (start ≠ 0 → start + length < 2 ^ 64)
  | .mmap length _ _ => 0 < length
  | .unmap addr length => ∀ region, map.findRegion addr = some region →
      region.addr = addr ∨ region.length ≠ length
  | .mprotect addr length _ => ∀ region, map.findRegion addr = some region →
      addr = region.addr ∧ length = region.length ∨ region.backing = none
  | .initBrk addr => addr + 0x10000000 < 2 ^ 64
  | .setBrk _ => True

instance instDecidableRegular
    (map : VirtMemMap Backing) :
    ∀ op, Decidable (map.Regular op)
  | .addRegion _ start length _ _ =>
    inferInstanceAs (Decidable (0 < length ∧ (start ≠ 0 → start + length < 2 ^ 64)))
  | .mmap length _ _ => inferInstanceAs (Decidable (0 < length))
  | .unmap addr length =>
    match h : map.findRegion addr with
    | none => isTrue fun region hfound => by simp [h] at hfound
    | some region =>
      decidable_of_iff (region.addr = addr ∨ region.length ≠ length)
        ⟨fun hregion region' hfound => some.inj (h.symm.trans hfound) ▸ hregion,
          fun hall => hall region h⟩
  | .mprotect addr length _ =>
    match h : map.findRegion addr with
    | none => isTrue fun region hfound => by simp [h] at hfound
    | some region =>
      decidable_of_iff
        (addr = region.addr ∧ length = region.length ∨ region.backing = none)
        ⟨fun hregion region' hfound => some.inj (h.symm.trans hfound) ▸ hregion,
          fun hall => hall region h⟩
  | .initBrk addr => inferInstanceAs (Decidable (addr + 0x10000000 < 2 ^ 64))
  | .setBrk _ => isTrue trivial

end VirtMemMap

end SstElements.VanadisOS
