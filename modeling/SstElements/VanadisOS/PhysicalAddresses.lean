import SstElements.VanadisOS.PageAllocation
import SstElements.VanadisOS.PageFault

/-!
# Physical addresses

The number of a page is shifted to an address in four places, with operands of 32 and of 64
bits.  The addresses agree as long as no page lies beyond the first two gigabytes.
-/

namespace SstElements.VanadisOS

open Library Mmu List Option

/-- The `unsigned` number of a new page is shifted before it is extended to 64 bits. -/
def newPageAddress (pageShift ppn : Nat) : Nat := ppn <<< pageShift % 2 ^ 32

/-- The number of the page that is copied is an `int`, whose sign is extended. -/
def origPageAddress (pageShift origPPN : Nat) : Nat :=
  let shifted := origPPN <<< pageShift % 2 ^ 32
  if shifted < 2 ^ 31 then shifted else shifted + (2 ^ 64 - 2 ^ 32)

namespace BitMap

variable {bits : BitMap} {pos : Nat}

/-- The pages below a place are taken, but for the last sixteen of each word. -/
def TakenBelow (bits : BitMap) (pos : Nat) : Prop :=
  ∀ q < bits.size, bits.getBit q = decide (q < pos ∧ q % 64 < 48)

theorem getLsbD_full : ∀ j < 64, (0xffffffffffff : BitVec 64).getLsbD j = decide (j < 48) := by
  decide

section

variable (h : bits.TakenBelow pos)
include h

theorem TakenBelow.word {i j : Nat} (hi : 64 * i + j < bits.size) (hj : j < 64) :
    (bits.words.getD i 0).getLsbD j = decide (64 * i + j < pos ∧ j < 48) := by
  have hbit := h _ hi
  have hdiv : (64 * i + j) / 64 = i := by omega
  have hmod : (64 * i + j) % 64 = j := by omega
  rw [getBit, hdiv, hmod] at hbit
  exact hbit

variable (hsize : pos < bits.size) (hpos : pos % 64 < 48)
include hsize hpos

/-- The search passes over the words that are taken so far. -/
theorem TakenBelow.findFirstEmptyBit_eq : bits.findFirstEmptyBit = some pos := by
  rw [BitMap.findFirstEmptyBit_eq, find?_range_eq_some]
  refine ⟨decide_eq_true ⟨?_, fun hfull => ?_⟩, mem_range.2 hsize, fun q hq => ?_⟩
  · simp [h pos hsize]
  · have hword := h.word (i := pos / 64) (j := pos % 64) (by omega) (by omega)
    rw [hfull, getLsbD_full _ (Nat.mod_lt _ (by decide)), Nat.div_add_mod] at hword
    simp [hpos] at hword
  · rw [Bool.not_eq_true', decide_eq_false_iff_not]
    rintro ⟨hclear, hsearched⟩
    have hq48 : 48 ≤ q % 64 := by
      by_contra hlt
      exact hclear (by simp [h q (hq.trans hsize), hq, Nat.lt_of_not_le hlt])
    refine hsearched (BitVec.eq_of_getLsbD_eq fun j hj => ?_)
    unfold size at hsize
    rw [h.word (by unfold size; omega) hj, getLsbD_full j hj]
    exact decide_eq_decide.2 ⟨And.right, fun h48 => ⟨by omega, h48⟩⟩

theorem TakenBelow.setBit {next : Nat} (hnext : pos < next)
    (hgap : ∀ q, pos < q → q < next → 48 ≤ q % 64) :
    (bits.setBit pos).TakenBelow next := by
  intro q hq
  rw [size_setBit] at hq
  rw [getBit_setBit hsize, h q hq]
  split
  case isTrue heq =>
    subst heq
    simp [hnext, hpos]
  case isFalse hne =>
    refine decide_eq_decide.2 (and_congr_left fun h48 => ⟨fun hlt => hlt.trans hnext,
      fun hlt => ?_⟩)
    by_contra hge
    have := hgap q (by omega) hlt
    omega

end

end BitMap

namespace PhysMemManager

/-- The memory of a machine that starts; its first page is taken at once. -/
def boot (memSize : Nat) : Option PhysMemManager :=
  if memSize = 0 then none
  else (construct memSize).bind fun mem => mem.allocPage.map Prod.snd

/-- Some run of calls ends with the page given away. -/
def CanReturn (memSize ppn : Nat) : Prop :=
  ∃ mem ops t mem', construct memSize = some mem ∧ runOps step ⟨mem, ∅⟩ ops = some t ∧
    t.mem.allocPage = some (ppn, mem')

variable {memSize pos ppn : Nat} {mem : PhysMemManager}

/-- The pages of each word but the last sixteen are given away one after the other. -/
theorem exists_run_takenBelow (hclear : ∀ q, mem.bitMap.getBit q = false) (hsize : pos < mem.frames)
    (hpos : pos % 64 < 48) :
    ∃ ops t, runOps step ⟨mem, ∅⟩ ops = some t ∧ t.mem.frames = mem.frames ∧
      t.mem.bitMap.TakenBelow pos := by
  induction pos using Nat.strong_induction_on with
  | _ pos ih =>
    by_cases hzero : pos = 0
    · exact ⟨[], _, rfl, rfl, fun q _ => by simp [hclear, hzero]⟩
    · -- the page before, in its word or in the word before
      obtain ⟨last, hlt, hlast, hgap⟩ : ∃ last < pos, last % 64 < 48 ∧
          ∀ q, last < q → q < pos → 48 ≤ q % 64 := by
        by_cases hword : pos % 64 = 0
        · exact ⟨pos - 17, by omega, by omega, fun q _ _ => by omega⟩
        · exact ⟨pos - 1, by omega, by omega, fun q _ _ => by omega⟩
      obtain ⟨ops, t, hrun, hframes, htaken⟩ := ih last hlt (hlt.trans hsize) hlast
      have hfits : last < t.mem.bitMap.size := (hlt.trans hsize).trans_eq hframes.symm
      have hstep : step t .allocPage = some
          ⟨⟨t.mem.bitMap.setBit last, t.mem.numAllocated + 1⟩, insert last t.allocated⟩ := by
        simp [step, allocPage, htaken.findFirstEmptyBit_eq hfits hlast]
      have hnext : runOps step t [.allocPage] = some _ := runOps_cons_iff.2 ⟨_, hstep, rfl⟩
      exact ⟨_, _, runOps_append_iff.2 ⟨t, hrun, hnext⟩, (BitMap.size_setBit _ _).trans hframes,
        htaken.setBit hfits hlast hlt hgap⟩

theorem canReturn (h : construct memSize = some mem) (hsize : pos < mem.frames)
    (hpos : pos % 64 < 48) :
    CanReturn memSize pos := by
  obtain ⟨ops, t, hrun, hframes, htaken⟩ := exists_run_takenBelow (construct_spec h).1 hsize hpos
  have hfound := htaken.findFirstEmptyBit_eq (hsize.trans_eq hframes.symm) hpos
  exact ⟨_, ops, t, _, h, hrun, map_eq_some_iff.2 ⟨_, hfound, rfl⟩⟩

theorem CanReturn.lt_frames (hret : CanReturn memSize ppn) (h : construct memSize = some mem) :
    ppn < mem.frames := by
  obtain ⟨mem', ops, t, _, hconstruct, hrun, halloc⟩ := hret
  obtain rfl := some.inj (hconstruct.symm.trans h)
  have hsound : Sound mem' t :=
    runOps_invariant (fun _ _ _ hs hstep => hs.step hstep) (.start h) hrun
  obtain ⟨page, hfound, hpage⟩ := map_eq_some_iff.1 halloc
  obtain ⟨rfl, -⟩ := Prod.mk.inj hpage
  have hlt : page < t.mem.frames := (BitMap.findFirstEmptyBit_spec hfound).1
  exact hlt.trans_eq hsound.frames

/-- The first page leaves a memory of at least one word. -/
theorem boot_spec (h : boot memSize = some mem) :
    ∃ first, construct memSize = some first ∧ mem.frames = first.frames ∧ 64 ≤ first.frames := by
  unfold boot at h
  split at h
  case isTrue => cases h
  case isFalse =>
    obtain ⟨first, hmem, hrest⟩ := bind_eq_some_iff.1 h
    obtain ⟨taken, halloc, rfl⟩ := map_eq_some_iff.1 hrest
    obtain ⟨page, hfound, -⟩ := map_eq_some_iff.1 (id halloc)
    have hlt := (BitMap.findFirstEmptyBit_spec hfound).1
    refine ⟨first, hmem, (allocPage_spec halloc).2.1, ?_⟩
    unfold frames BitMap.size at *
    omega

end PhysMemManager

section Addresses

variable {memSize pageSize virtAddr ppn perms : Nat} {space : AddressSpace} {mem : PhysMemManager}

/-- The addresses of a page that is in the table: those of the operating system, of a fault
that fills or copies the page, and of the buffer of translations. -/
structure Addressed (pageSize virtAddr ppn perms : Nat) (space : AddressSpace) : Prop where
  virtToPhys : space.virtToPhys pageSize.log2 virtAddr =
    some (some (ppn * pageSize + virtAddr % pageSize))
  newPage : newPageAddress pageSize.log2 ppn = ppn * pageSize
  origPage : origPageAddress pageSize.log2 (pageEntry ppn perms).ppn = ppn * pageSize
  physAddr (cfg : Config) (h : cfg.pageShift = pageSize.log2) :
    cfg.physAddr (pageEntry ppn perms).ppn virtAddr = ppn * pageSize + virtAddr % pageSize

/-- All pages that can be allocated have the right addresses, and other pages have none. -/
def TranslatesAlike (memSize pageSize : Nat) : Prop :=
  ∀ space virtAddr, (space.virtMemMap.findRegion virtAddr).isSome →
    (space.virtToPhys pageSize.log2 virtAddr = some none ↔
      space.pageTable.find? (virtAddr / pageSize) = none) ∧
    ∀ ppn perms, PhysMemManager.CanReturn memSize ppn →
      space.pageTable.find? (virtAddr / pageSize) = some (pageEntry ppn perms) →
        Addressed pageSize virtAddr ppn perms space

/-- The number of the page of an address in a region is not cut. -/
theorem pageOf_eq (hregion : (space.virtMemMap.findRegion virtAddr).isSome) (shift : Nat) :
    pageOf shift virtAddr = virtAddr / 2 ^ shift := by
  obtain ⟨region, hfound⟩ := isSome_iff_exists.1 hregion
  obtain ⟨kv, hkv, -⟩ := map_eq_some_iff.1 hfound
  have hin := find?_some hkv
  have hlt : virtAddr < 2 ^ 32 := (of_decide_eq_true hin).2.trans (Nat.mod_lt _ (by decide))
  rw [pageOf, Nat.shiftRight_eq_div_pow, Nat.mod_eq_of_lt ((Nat.div_le_self _ _).trans_lt hlt)]

theorem origPageAddress_ne (shift ppn : Nat) : origPageAddress shift ppn ≠ 2 ^ 31 := by
  unfold origPageAddress
  dsimp only
  split <;> omega

/-- Small pages of a small memory have the same addresses everywhere. -/
theorem addressed_of_lt {shift : Nat} (hregion : (space.virtMemMap.findRegion virtAddr).isSome)
    (hentry : space.pageTable.find? (virtAddr / 2 ^ shift) = some (pageEntry ppn perms))
    (hppn : ppn * 2 ^ shift < 2 ^ 31) (h29 : ppn < 2 ^ 29) :
    Addressed (2 ^ shift) virtAddr ppn perms space := by
  have hcut : (pageEntry ppn perms).ppn = ppn := Nat.mod_eq_of_lt h29
  have hor : ppn <<< shift ||| virtAddr &&& (2 ^ shift - 1) =
      ppn * 2 ^ shift + virtAddr % 2 ^ shift := by
    rw [Nat.and_two_pow_sub_one_eq_mod,
      ← Nat.shiftLeft_add_eq_or_of_lt (Nat.mod_lt _ (Nat.two_pow_pos _)), Nat.shiftLeft_eq]
  have hmod : ppn <<< shift % 2 ^ 32 = ppn <<< shift := by
    rw [Nat.shiftLeft_eq]
    omega
  have hlog : (2 ^ shift).log2 = shift := Nat.log2_two_pow
  constructor
  · obtain ⟨region, hfound⟩ := isSome_iff_exists.1 hregion
    rw [AddressSpace.virtToPhys, hfound, hlog, pageOf_eq hregion, hentry, map_some, map_some,
      hcut, hmod, hor]
  · rw [newPageAddress, hlog, hmod, Nat.shiftLeft_eq]
  · rw [origPageAddress, hlog, hcut, hmod, Nat.shiftLeft_eq]
    exact if_pos hppn
  · intro cfg hcfg
    rw [Config.physAddr, Config.blockOffset, hcfg, hlog, hcut, hor]

/-- A region and an entry for its first page. -/
def mapped (pageSize ppn : Nat) : AddressSpace where
  virtMemMap :=
    { VirtMemMap.initial MemoryBacking with
      regionMap := OrderedMap.empty.insert 0x1000 (.create "heap" 0x1000 0x1000 7 none) }
  pageTable := OrderedMap.empty.insert (0x1000 / pageSize) (pageEntry ppn 7)

theorem TranslatesAlike.addressed (h : TranslatesAlike memSize pageSize)
    (hret : PhysMemManager.CanReturn memSize ppn) :
    Addressed pageSize 0x1000 ppn 7 (mapped pageSize ppn) :=
  (h (mapped pageSize ppn) 0x1000 (by rfl)).2 ppn 7 hret (OrderedMap.find?_insert_self _ _ _)

theorem TranslatesAlike.bounds (h : TranslatesAlike memSize pageSize) (hpage : pageSize < 2 ^ 31)
    (hpos : pageSize ≠ 0) (hmem : PhysMemManager.construct memSize = some mem)
    (hfirst : 64 ≤ mem.frames) :
    pageSize = 2 ^ pageSize.log2 ∧ mem.frames * pageSize ≤ 2 ^ 31 ∧ mem.frames ≤ 2 ^ 29 := by
  have hlog : pageSize.log2 < 31 := (Nat.log2_lt hpos).2 hpage
  have hpow : pageSize = 2 ^ pageSize.log2 := by
    have hret : PhysMemManager.CanReturn memSize 1 :=
      PhysMemManager.canReturn hmem (by omega) (by decide)
    have hone := (h.addressed hret).newPage
    have hlt : 2 ^ pageSize.log2 < 2 ^ 32 := Nat.pow_lt_pow_right (by decide) (by omega)
    rw [newPageAddress, Nat.shiftLeft_eq, one_mul, one_mul, Nat.mod_eq_of_lt hlt] at hone
    exact hone.symm
  refine ⟨hpow, ?_, ?_⟩
  · by_contra hover
    generalize pageSize.log2 = shift at *
    have hsplit : 2 ^ (31 - shift) * 2 ^ shift = 2 ^ 31 := by
      rw [← Nat.pow_add, Nat.sub_add_cancel (le_of_lt hlog)]
    have hret : PhysMemManager.CanReturn memSize (2 ^ (31 - shift)) := by
      refine PhysMemManager.canReturn hmem ?_ (by interval_cases shift <;> decide)
      rw [hpow, ← hsplit, not_le] at hover
      exact lt_of_mul_lt_mul_right hover (Nat.zero_le _)
    have horig := (h.addressed hret).origPage
    rw [hpow, hsplit] at horig
    exact origPageAddress_ne _ _ horig
  · by_contra hover
    have hret : PhysMemManager.CanReturn memSize 0x20000000 :=
      PhysMemManager.canReturn hmem (by omega) (by decide)
    have horig := (h.addressed hret).origPage
    simp [pageEntry, origPageAddress, hpos] at horig

/-- Translations agree exactly if the page size is a power of two, all pages lie in the first
two gigabytes, and their numbers fit in the entries of the table. -/
theorem translatesAlike_iff
    (hpage : pageSize < 2 ^ 31)
    (hpos : pageSize ≠ 0)
    (hboot : PhysMemManager.boot memSize = some mem) :
    TranslatesAlike memSize pageSize ↔
      pageSize = 2 ^ pageSize.log2 ∧ mem.frames * pageSize ≤ 2 ^ 31 ∧ mem.frames ≤ 2 ^ 29 := by
  obtain ⟨first, hmem, hframes, hfirst⟩ := PhysMemManager.boot_spec hboot
  rw [hframes]
  constructor
  · exact fun h => h.bounds hpage hpos hmem hfirst
  · rintro ⟨hpow, hsize, h29⟩ space virtAddr hregion
    generalize pageSize.log2 = shift at *
    subst hpow
    refine ⟨?_, fun ppn perms hret hentry => addressed_of_lt hregion hentry ?_
      ((hret.lt_frames hmem).trans_le h29)⟩
    · obtain ⟨region, hfound⟩ := isSome_iff_exists.1 hregion
      simp [AddressSpace.virtToPhys, hfound, pageOf_eq hregion]
    · exact (Nat.mul_lt_mul_of_pos_right (hret.lt_frames hmem) (Nat.two_pow_pos _)).trans_le hsize

/-- One mebibyte and pages of 4096 bytes. -/
theorem translatesAlike_iff_mebibyte :
    TranslatesAlike 1048576 4096 ↔
      4096 = 2 ^ Nat.log2 4096 ∧ 256 * 4096 ≤ 2 ^ 31 ∧ 256 ≤ 2 ^ 29 :=
  @translatesAlike_iff _ _ ⟨⟨[1, 0, 0, 0]⟩, 1⟩ (by decide) (by decide) rfl

/-- The last pages of four gibibytes do not have the same addresses everywhere. -/
theorem not_translatesAlike_four_gibibytes : ¬TranslatesAlike (2 ^ 32) 4096 := by
  intro h
  have hmem : PhysMemManager.construct (2 ^ 32) = some ⟨⟨replicate 16384 0⟩, 0⟩ := rfl
  have hframes : PhysMemManager.frames ⟨⟨replicate 16384 0⟩, 0⟩ = 2 ^ 20 := by
    rw [PhysMemManager.frames, BitMap.size, length_replicate]
    norm_num
  have hbounds := (h.bounds (by decide) (by decide) hmem (by rw [hframes]; decide)).2.1
  rw [hframes] at hbounds
  exact absurd hbounds (by decide)

end Addresses

end SstElements.VanadisOS
