import Mathlib.Data.List.GetD
import Mathlib.Data.BitVec

/-!
# Physical pages

A bit map tells which physical pages are taken; the first free one is given away.
-/

namespace SstElements.VanadisOS

open List Option Nat

structure BitMap where words : List (BitVec 64)

namespace BitMap

/-- The size is an `int`; there cannot be a negative number of words. -/
def create (size : Int) : Option BitMap :=
  if -64 < size then some ⟨List.replicate (size.toNat / 64) 0⟩ else none

def size (bits : BitMap) : Nat := 64 * bits.words.length

def getBit (bits : BitMap) (pos : Nat) : Bool := (bits.words.getD (pos / 64) 0).getLsbD (pos % 64)

def setBit (bits : BitMap) (pos : Nat) : BitMap where
  words := bits.words.modify (pos / 64) (· ||| 1#64 <<< (pos % 64))

def clearBit (bits : BitMap) (pos : Nat) : BitMap where
  words := bits.words.modify (pos / 64) (· &&& ~~~(1#64 <<< (pos % 64)))

/-- The first free page of the words from the given one on; a word whose first 48 bits alone
are set is skipped. -/
def scanWords (i : Nat) : List (BitVec 64) → Option Nat
  | [] => none
  | word :: rest =>
    let found := if word = 0xffffffffffff then none else
      (List.range 64).find? fun j => ¬word.getLsbD j
    match found with
    | some j => some (i * 64 + j)
    | none => scanWords (i + 1) rest

/-- `none` is the exception that there is no free page. -/
def findFirstEmptyBit (bits : BitMap) : Option Nat := scanWords 0 bits.words

variable {pos : Nat} {words : List (BitVec 64)} {bits : BitMap}

theorem scanWords_spec {i : Nat} (h : scanWords i words = some pos) :
    ∃ k, k < words.length ∧ pos / 64 = i + k ∧ (words.getD k 0).getLsbD (pos % 64) = false := by
  induction words generalizing i with
  | nil => cases h
  | cons word rest ih =>
    unfold scanWords at h
    dsimp only at h
    split at h
    case h_1 j hfound =>
      cases h
      split at hfound
      case isTrue => cases hfound
      case isFalse =>
        have hlt := mem_range.1 (mem_of_find?_eq_some hfound)
        have hclear := find?_some hfound
        refine ⟨0, succ_pos _, by omega, ?_⟩
        have hmod : (i * 64 + j) % 64 = j := by omega
        rw [hmod]
        exact Bool.eq_false_of_not_eq_true (of_decide_eq_true hclear)
    case h_2 =>
      obtain ⟨k, hk, hpos, hclear⟩ := ih h
      refine ⟨k + 1, succ_lt_succ hk, by omega, ?_⟩
      rw [getD_cons_succ]
      exact hclear

/-- A free page of the memory is found. -/
theorem findFirstEmptyBit_spec (h : bits.findFirstEmptyBit = some pos) :
    pos < bits.size ∧ bits.getBit pos = false := by
  obtain ⟨k, hk, hpos, hclear⟩ := scanWords_spec h
  rw [zero_add] at hpos
  refine ⟨?_, ?_⟩
  · unfold size
    omega
  · unfold getBit
    rw [hpos]
    exact hclear

@[simp] theorem size_setBit (bits : BitMap) (pos : Nat) : (bits.setBit pos).size = bits.size := by
  simp [size, setBit]

@[simp] theorem size_clearBit (bits : BitMap) (pos : Nat) :
    (bits.clearBit pos).size = bits.size := by
  simp [size, clearBit]

theorem getLsbD_modify {f : BitVec 64 → BitVec 64} {pos' : Nat} {b : Bool}
    (hpos : pos < 64 * words.length)
    (hf : ∀ word j, j < 64 → (f word).getLsbD j = if j = pos % 64 then b else word.getLsbD j) :
    ((words.modify (pos / 64) f).getD (pos' / 64) 0).getLsbD (pos' % 64) =
      if pos' = pos then b else (words.getD (pos' / 64) 0).getLsbD (pos' % 64) := by
  have hword : pos / 64 < words.length := by omega
  have hlt : pos' % 64 < 64 := mod_lt _ (by decide)
  rw [getD_eq_getElem?_getD, getD_eq_getElem?_getD, getElem?_modify]
  by_cases hsame : pos / 64 = pos' / 64
  · simp only [hsame, if_true]
    rw [← hsame, getElem?_eq_getElem hword]
    dsimp only [Option.map_eq_map, map_some, getD_some]
    rw [hf _ _ hlt]
    have hiff : pos' % 64 = pos % 64 ↔ pos' = pos := by omega
    rw [if_congr hiff rfl rfl]
  · have hne : pos' ≠ pos := by
      rintro rfl
      exact hsame rfl
    simp only [hsame, if_false, if_neg hne, id_map']

theorem getBit_setBit (hpos : pos < bits.size) (pos' : Nat) :
    (bits.setBit pos).getBit pos' = if pos' = pos then true else bits.getBit pos' := by
  refine getLsbD_modify hpos fun word j hj => ?_
  rw [BitVec.getLsbD_or, BitVec.getLsbD_shiftLeft, BitVec.getLsbD_one]
  by_cases hsame : j = pos % 64
  · simp [hsame, mod_lt]
  · by_cases hlt : j < pos % 64
    · simp [hsame, hlt]
    · have hsub : j - pos % 64 ≠ 0 := by omega
      simp [hsame, hsub]

theorem getBit_clearBit (hpos : pos < bits.size) (pos' : Nat) :
    (bits.clearBit pos).getBit pos' = if pos' = pos then false else bits.getBit pos' := by
  refine getLsbD_modify hpos fun word j hj => ?_
  rw [BitVec.getLsbD_and, BitVec.getLsbD_not, BitVec.getLsbD_shiftLeft, BitVec.getLsbD_one]
  by_cases hsame : j = pos % 64
  · simp [hsame, mod_lt]
  · by_cases hlt : j < pos % 64
    · simp [hsame, hlt, hj]
    · have hsub : j - pos % 64 ≠ 0 := by omega
      simp [hsame, hsub, hj]

/-- A new map has no page taken, and has whole words only. -/
theorem create_spec {size : Int} (h : create size = some bits) :
    (∀ pos, bits.getBit pos = false) ∧ bits.size = 64 * (size.toNat / 64) := by
  obtain ⟨-, hbits⟩ := ite_none_right_eq_some.1 h
  cases hbits
  refine ⟨fun pos => ?_, by simp [BitMap.size]⟩
  have hzero : (List.replicate (size.toNat / 64) 0#64).getD (pos / 64) 0 = 0 := by
    rw [getD_eq_getElem?_getD, getElem?_replicate]
    split <;> rfl
  exact (congrArg (BitVec.getLsbD · (pos % 64)) hzero).trans BitVec.getLsbD_zero

end BitMap

/-- The memory of a machine, in pages. -/
structure PhysMemManager where
  bitMap : BitMap
  numAllocated : Nat

namespace PhysMemManager

/-- The number of pages is narrowed to an `int`. -/
def construct (memSize : Nat) : Option PhysMemManager :=
  (BitMap.create (Int.bmod (memSize / 4096 : Nat) (2 ^ 32))).map (⟨·, 0⟩)

def allocPage (mem : PhysMemManager) : Option (Nat × PhysMemManager) :=
  mem.bitMap.findFirstEmptyBit.map fun page =>
    (page, { bitMap := mem.bitMap.setBit page, numAllocated := mem.numAllocated + 1 })

def freePage (mem : PhysMemManager) (pageNum : Nat) : PhysMemManager where
  bitMap := mem.bitMap.clearBit pageNum
  numAllocated := mem.numAllocated - 1

def frames (mem : PhysMemManager) : Nat := mem.bitMap.size

/-- The page is given away. -/
def Taken (mem : PhysMemManager) (ppn : Nat) : Prop :=
  ppn < mem.frames ∧ mem.bitMap.getBit ppn = true

theorem allocPage_spec {mem mem' : PhysMemManager} {ppn : Nat}
    (h : mem.allocPage = some (ppn, mem')) :
    ¬mem.Taken ppn ∧ mem'.frames = mem.frames ∧
      ∀ ppn', mem'.Taken ppn' ↔ ppn' = ppn ∨ mem.Taken ppn' := by
  obtain ⟨page, hfound, heq⟩ := map_eq_some_iff.1 h
  obtain ⟨rfl, rfl⟩ := Prod.mk.inj heq
  obtain ⟨hlt, hclear⟩ := BitMap.findFirstEmptyBit_spec hfound
  refine ⟨fun htaken => ?_, BitMap.size_setBit _ _, fun ppn' => ?_⟩
  · rw [htaken.2] at hclear
    cases hclear
  · unfold Taken frames
    rw [BitMap.size_setBit, BitMap.getBit_setBit hlt]
    by_cases hsame : ppn' = page
    · simp [hsame, hlt]
    · simp [hsame]

variable {mem : PhysMemManager}

theorem taken_freePage {ppn : Nat} (h : mem.Taken ppn) (ppn' : Nat) :
    (mem.freePage ppn).Taken ppn' ↔ ppn' ≠ ppn ∧ mem.Taken ppn' := by
  unfold Taken frames freePage
  rw [BitMap.size_clearBit, BitMap.getBit_clearBit h.1]
  by_cases hsame : ppn' = ppn
  · simp [hsame]
  · simp [hsame]

@[simp] theorem frames_freePage (mem : PhysMemManager) (ppn : Nat) :
    (mem.freePage ppn).frames = mem.frames :=
  BitMap.size_clearBit _ _

/-- A machine starts with all pages free, and with no more of them than its memory has. -/
theorem construct_spec {memSize : Nat} (h : construct memSize = some mem) :
    (∀ pos, mem.bitMap.getBit pos = false) ∧ mem.numAllocated = 0 ∧
      mem.frames ≤ memSize / 4096 := by
  obtain ⟨bits, hbits, rfl⟩ := map_eq_some_iff.1 h
  obtain ⟨hclear, hsize⟩ := BitMap.create_spec hbits
  refine ⟨hclear, rfl, hsize.trans_le ?_⟩
  have hnarrow : Int.bmod (memSize / 4096 : Nat) (2 ^ 32) ≤ (memSize / 4096 : Nat) := by
    rw [Int.bmod_def]
    split <;> omega
  omega

theorem not_taken_construct {memSize ppn : Nat}
    (h : construct memSize = some mem) : ¬mem.Taken ppn :=
  fun htaken => absurd (((construct_spec h).1 ppn).symm.trans htaken.2) nofun

end PhysMemManager

end SstElements.VanadisOS
