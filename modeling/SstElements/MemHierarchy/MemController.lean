import SstElements.Library.ChunkedRange
import SstElements.MemHierarchy.MemRegionIntersect

/-!
# Address translation of the memory controller

A memory controller serves the addresses of its region and stores them in a
memory of `memSize_` bytes, from `privateMemOffset_` on.  An interleaved region
is packed: its chunks follow each other in the memory.  Before it is used, the
region is cut down to the size of the memory by `adjustRegionToMemSize`.

A region that is not interleaved is treated as one whose chunks and steps are
single bytes.
-/

namespace SstElements.MemHierarchy

open Library Nat

/-- The fields of a memory controller that translation reads and writes. -/
structure MemController where
  region_ : MemRegion
  memSize_ : UInt64
  privateMemOffset_ : Addr
  /-- Region announced to the link. -/
  linkRegion : MemRegion
deriving DecidableEq, Repr

def MemRegion.REGION_MAX : UInt64 := 18446744073709551615

namespace MemController

/-- Address in the memory of a global address. -/
def translateToLocal (c : MemController) (addr : Addr) : Addr :=
  if c.region_.interleaveSize = 0 then
    addr - c.region_.start + c.privateMemOffset_
  else
    let shift := addr - c.region_.start
    let step := shift / c.region_.interleaveStep
    let offset := shift % c.region_.interleaveStep
    (step * c.region_.interleaveSize) + offset + c.privateMemOffset_

/-- Global address of an address in the memory. -/
def translateToGlobal (c : MemController) (addr : Addr) : Addr :=
  let rAddr := addr - c.privateMemOffset_
  if c.region_.interleaveSize = 0 then
    rAddr + c.region_.start
  else
    let offset := rAddr % c.region_.interleaveSize
    let rAddr := (rAddr - offset) / c.region_.interleaveSize
    rAddr * c.region_.interleaveStep + offset + c.region_.start

/-- `regSize` of `adjustRegionToMemSize`: the bytes between start and end. -/
def regionSpan (r : MemRegion) : UInt64 :=
  let regSize := r.end_ - r.start
  if regSize ≠ MemRegion.REGION_MAX then regSize + 1 else regSize

/-- `regSize` where it is compared with the memory size. -/
def regionSize (r : MemRegion) : UInt64 :=
  if r.interleaveStep ≠ 0 then
    regionSpan r / r.interleaveStep * r.interleaveSize
  else regionSpan r

/-- The controller limits the region to the memory. -/
def shrinks (c : MemController) : Bool := decide (regionSize c.region_ > c.memSize_)

/-- Bytes of the address range that is left after the region is limited. -/
def limitedSpan (c : MemController) : UInt64 :=
  if c.region_.interleaveStep ≠ 0 then
    c.memSize_ / c.region_.interleaveSize * c.region_.interleaveStep
  else c.memSize_

/-- Cuts the region down to the memory and tells the link. -/
def adjustRegionToMemSize (c : MemController) : MemController :=
  let region :=
    if c.shrinks then
      { c.region_ with end_ := c.region_.start + c.limitedSpan - 1 }
    else c.region_
  { c with
    region_ := region
    linkRegion := region }

/-- Translation is a bijection onto an initial part of the memory. -/
structure TranslatesInto (c : MemController) : Prop where
  roundTrip : ∀ a, c.region_.contains a = true →
    c.translateToGlobal (c.translateToLocal a) = a
  inMemory : ∀ a, c.region_.contains a = true →
    c.privateMemOffset_ ≤ c.translateToLocal a ∧
      c.translateToLocal a < c.privateMemOffset_ + c.memSize_
  increasing : ∀ a b,
    c.region_.contains a = true → c.region_.contains b = true → a < b →
      c.translateToLocal a < c.translateToLocal b
  noGaps : ∀ a b,
    c.region_.contains a = true → c.region_.contains b = true → a < b →
      (∀ x, a < x → x < b → c.region_.contains x = false) →
        c.translateToLocal b = c.translateToLocal a + 1

end MemController

namespace MemRegion

def chunkSize (r : MemRegion) : Nat := if r.interleaveSize = 0 then 1 else r.interleaveSize.toNat

/-- Bytes from one chunk to the next. -/
def chunkStep (r : MemRegion) : Nat := if r.interleaveSize = 0 then 1 else r.interleaveStep.toNat

/-- Number of addresses from the start to the end. -/
def span (r : MemRegion) : Nat := r.end_.toNat + 1 - r.start.toNat

/-- Number of addresses in the region, a last partial step included. -/
def bytes (r : MemRegion) : Nat := Chunked.countBelow r.chunkSize r.chunkStep r.span

/-- The region is contiguous, or interleaved with chunks that fit their step. -/
def Translatable (r : MemRegion) : Prop := r.interleaveSize = 0 ∨ r.Interleaved

theorem chunkSize_pos (r : MemRegion) : 0 < r.chunkSize := by
  unfold chunkSize
  split
  · exact Nat.one_pos
  · rename_i h
    exact pos_of_ne_zero fun h₀ => h ((toNat_eq_zero_iff _).1 h₀)

theorem chunkSize_le_chunkStep {r : MemRegion} (hr : r.Translatable) :
    r.chunkSize ≤ r.chunkStep := by
  unfold chunkSize chunkStep
  rcases hr with h | ⟨-, hle⟩
  · simp [h]
  · split
    · exact le_refl 1
    · exact UInt64.le_iff_toNat_le.1 hle

theorem chunkStep_lt (r : MemRegion) : r.chunkStep < 2 ^ 64 := by
  unfold chunkStep
  split
  · norm_num
  · exact toNat_lt_size _

theorem inRegion_iff_chunk (r : MemRegion) (x : Nat) :
    InRegion r x ↔ r.start.toNat ≤ x ∧ x - r.start.toNat < r.span ∧
        Chunked.InChunk r.chunkSize r.chunkStep (x - r.start.toNat) := by
  unfold InRegion span Chunked.InChunk chunkSize chunkStep
  by_cases h : r.interleaveSize = 0
  · simp only [h, if_true, true_or, and_true, mod_one, Nat.zero_lt_one]
    omega
  · simp only [h, if_false, false_or]
    constructor
    · rintro ⟨h₁, h₂, h₃⟩
      exact ⟨h₁, by omega, h₃⟩
    · rintro ⟨h₁, h₂, h₃⟩
      exact ⟨h₁, by omega, h₃⟩

theorem inRegion_unrank {r : MemRegion} (hr : r.Translatable) {k : Nat} (hk : k < r.bytes) :
    InRegion r
      (r.start.toNat + Chunked.unrank r.chunkSize r.chunkStep k) := by
  have hpos := r.chunkSize_pos
  have hle := chunkSize_le_chunkStep hr
  rw [inRegion_iff_chunk, Nat.add_sub_cancel_left]
  exact ⟨Nat.le_add_right _ _, (Chunked.unrank_lt_iff hpos hle k _).2 hk,
    Chunked.inChunk_unrank hpos hle k⟩

end MemRegion

namespace MemController

open MemRegion

section Translation

variable {c : MemController}

def position (c : MemController) (x : Nat) : Nat :=
  Chunked.rank c.region_.chunkSize c.region_.chunkStep
    (x - c.region_.start.toNat)

/-- Distance from the start of the region of a position. -/
def distance (c : MemController) (k : Nat) : Nat :=
  Chunked.unrank c.region_.chunkSize c.region_.chunkStep k

theorem position_lt_bytes (hr : c.region_.Translatable) {x : Nat} (hx : InRegion c.region_ x) :
    c.position x < c.region_.bytes := by
  obtain ⟨-, hspan, hin⟩ := (inRegion_iff_chunk _ _).1 hx
  exact (Chunked.rank_lt_countBelow_iff (chunkSize_pos _) (chunkSize_le_chunkStep hr) hin _).2 hspan

theorem distance_position {x : Nat} (hx : InRegion c.region_ x) :
    c.region_.start.toNat + c.distance (c.position x) = x := by
  obtain ⟨hstart, -, hin⟩ := (inRegion_iff_chunk _ _).1 hx
  unfold distance position
  rw [Chunked.unrank_rank hin]
  omega

section

variable (hr : c.region_.Translatable)
include hr

theorem position_distance (k : Nat) : c.position (c.region_.start.toNat + c.distance k) = k := by
  unfold position distance
  rw [Nat.add_sub_cancel_left]
  exact Chunked.rank_unrank (chunkSize_pos _) (chunkSize_le_chunkStep hr) k

theorem position_lt_iff {x y : Nat} (hx : InRegion c.region_ x) (hy : InRegion c.region_ y) :
    c.position x < c.position y ↔ x < y := by
  obtain ⟨hx₀, -, hx₁⟩ := (inRegion_iff_chunk _ _).1 hx
  obtain ⟨hy₀, -, hy₁⟩ := (inRegion_iff_chunk _ _).1 hy
  unfold position
  rw [Chunked.rank_lt_rank_iff (chunkSize_pos _) (chunkSize_le_chunkStep hr) hx₁ hy₁]
  omega

theorem translateToLocal_toNat {a : Addr} (ha : c.region_.start ≤ a) :
    (c.translateToLocal a).toNat = (c.position a.toNat + c.privateMemOffset_.toNat) % 2 ^ 64 := by
  have hsub : (a - c.region_.start).toNat = a.toNat - c.region_.start.toNat :=
    UInt64.toNat_sub_of_le _ _ ha
  have hle := Chunked.rank_le (chunkSize_le_chunkStep hr)
    (a.toNat - c.region_.start.toNat)
  have hlt := toNat_lt_size a
  unfold translateToLocal position
  unfold Chunked.rank chunkSize chunkStep at *
  split
  · rw [UInt64.toNat_add, hsub]
    simp [mod_one]
  · rename_i hsize
    simp only [hsize, if_false] at hle ⊢
    -- Neither the product nor its sum with the offset wraps.
    have hmul : ((a - c.region_.start) / c.region_.interleaveStep *
        c.region_.interleaveSize).toNat =
          (a.toNat - c.region_.start.toNat) / c.region_.interleaveStep.toNat *
            c.region_.interleaveSize.toNat := by
      rw [toNat_mul_of_lt, UInt64.toNat_div, hsub]
      rw [UInt64.toNat_div, hsub]
      omega
    have hsum : ((a - c.region_.start) / c.region_.interleaveStep *
        c.region_.interleaveSize + (a - c.region_.start) % c.region_.interleaveStep).toNat =
        (a.toNat - c.region_.start.toNat) / c.region_.interleaveStep.toNat *
            c.region_.interleaveSize.toNat +
          (a.toNat - c.region_.start.toNat) %
            c.region_.interleaveStep.toNat := by
      rw [toNat_add_of_lt, hmul, UInt64.toNat_mod, hsub]
      rw [hmul, UInt64.toNat_mod, hsub]
      omega
    rw [UInt64.toNat_add, hsum]

end

theorem translateToGlobal_toNat {y : Addr} (hy : c.privateMemOffset_ ≤ y)
    (hlt : c.region_.start.toNat + c.distance (y.toNat - c.privateMemOffset_.toNat) < 2 ^ 64) :
    (c.translateToGlobal y).toNat = c.region_.start.toNat +
        c.distance (y.toNat - c.privateMemOffset_.toNat) := by
  have hsub : (y - c.privateMemOffset_).toNat =
      y.toNat - c.privateMemOffset_.toNat :=
    UInt64.toNat_sub_of_le _ _ hy
  unfold translateToGlobal
  unfold distance Chunked.unrank chunkSize chunkStep at *
  split
  · rename_i hsize
    simp only [hsize, if_true, Nat.div_one, mod_one, mul_one, add_zero] at hlt ⊢
    rw [toNat_add_of_lt, hsub, add_comm]
    rw [hsub]
    omega
  · rename_i hsize
    simp only [hsize, if_false] at hlt ⊢
    have hdiv : ((y - c.privateMemOffset_ - (y - c.privateMemOffset_) % c.region_.interleaveSize) /
          c.region_.interleaveSize).toNat =
        (y.toNat - c.privateMemOffset_.toNat) /
          c.region_.interleaveSize.toNat := by
      rw [UInt64.toNat_div, UInt64.toNat_sub_of_le, UInt64.toNat_mod, hsub, ← div_eq_sub_mod_div]
      rw [UInt64.le_iff_toNat_le, UInt64.toNat_mod]
      exact mod_le _ _
    rw [toNat_add_of_lt, toNat_add_of_lt, toNat_mul_of_lt, hdiv,
      UInt64.toNat_mod, hsub, add_comm]
    · rw [hdiv]
      omega
    · rw [toNat_mul_of_lt, hdiv, UInt64.toNat_mod, hsub]
      · omega
      · rw [hdiv]
        omega
    · rw [toNat_add_of_lt, toNat_mul_of_lt, hdiv, UInt64.toNat_mod, hsub]
      · omega
      · rw [hdiv]
        omega
      · rw [toNat_mul_of_lt, hdiv, UInt64.toNat_mod, hsub]
        · omega
        · rw [hdiv]
          omega

end Translation

section Packing

variable {c : MemController}

/-- The private part of the memory ends within the address space. -/
def MemoryFits (c : MemController) : Prop := c.privateMemOffset_.toNat + c.memSize_.toNat < 2 ^ 64

theorem start_le_of_contains {a : Addr} (ha : c.region_.contains a = true) : c.region_.start ≤ a :=
  UInt64.le_iff_toNat_le.2 ((contains_iff _ _).1 ha).1

section

variable (hr : c.region_.Translatable) (hfits : c.MemoryFits)
include hr hfits

theorem local_of_fits {a : Addr} (ha : c.region_.start ≤ a)
    (hpos : c.position a.toNat ≤ c.memSize_.toNat) :
    (c.translateToLocal a).toNat = c.position a.toNat + c.privateMemOffset_.toNat := by
  unfold MemoryFits at hfits
  rw [translateToLocal_toNat hr ha]
  exact mod_eq_of_lt (by omega)

theorem translatesInto_of_bytes_le (hbytes : c.region_.bytes ≤ c.memSize_.toNat) :
    c.TranslatesInto := by
  have hpos : ∀ a, c.region_.contains a = true →
      c.position a.toNat < c.memSize_.toNat := fun a ha =>
    lt_of_lt_of_le (position_lt_bytes hr ((contains_iff _ _).1 ha)) hbytes
  have hlocal : ∀ a, c.region_.contains a = true →
      (c.translateToLocal a).toNat =
        c.position a.toNat + c.privateMemOffset_.toNat := fun a ha =>
    local_of_fits hr hfits (start_le_of_contains ha) (hpos a ha).le
  have hincreasing : ∀ a b,
      c.region_.contains a = true → c.region_.contains b = true → a < b →
        c.position a.toNat < c.position b.toNat := fun a b ha hb hab =>
    (position_lt_iff hr ((contains_iff _ _).1 ha) ((contains_iff _ _).1 hb)).2
      (UInt64.lt_iff_toNat_lt.1 hab)
  constructor
  case roundTrip =>
      intro a ha
      have hin := (contains_iff _ _).1 ha
      have hle : c.privateMemOffset_ ≤ c.translateToLocal a := by
        rw [UInt64.le_iff_toNat_le, hlocal a ha]
        exact Nat.le_add_left _ _
      have hback : (c.translateToLocal a).toNat - c.privateMemOffset_.toNat =
          c.position a.toNat := by
        rw [hlocal a ha]
        exact Nat.add_sub_cancel _ _
      apply UInt64.toNat_inj.1
      rw [translateToGlobal_toNat hle] <;> rw [hback, distance_position hin]
      exact toNat_lt_size a
  case inMemory =>
      intro a ha
      have hlt := hpos a ha
      constructor
      · rw [UInt64.le_iff_toNat_le, hlocal a ha]
        exact Nat.le_add_left _ _
      · rw [UInt64.lt_iff_toNat_lt, hlocal a ha, toNat_add_of_lt hfits]
        omega
  case increasing =>
      intro a b ha hb hab
      rw [UInt64.lt_iff_toNat_lt, hlocal a ha, hlocal b hb]
      exact Nat.add_lt_add_right (hincreasing a b ha hb hab) _
  case noGaps =>
      intro a b ha hb hab hnone
      have hlt := hincreasing a b ha hb hab
      have hinb := (contains_iff _ _).1 hb
      -- The address at the next position is not strictly between the two.
      have hnext : c.position b.toNat ≤ c.position a.toNat + 1 := by
        by_contra hgap
        have hk : c.position a.toNat + 1 < c.position b.toNat := by omega
        have hin := inRegion_unrank hr
          (lt_trans hk (position_lt_bytes hr hinb))
        change InRegion c.region_ (c.region_.start.toNat +
          c.distance (c.position a.toNat + 1)) at hin
        have hword := lt_of_le_of_lt hin.2.1 (toNat_lt_size _)
        have hval := UInt64.toNat_ofNat_of_lt' hword
        have hrank := position_distance hr (c.position a.toNat + 1)
        have hafter := (position_lt_iff hr ((contains_iff _ _).1 ha) hin).1
          (by omega)
        have hbefore := (position_lt_iff hr hin hinb).1 (by omega)
        have hnot := hnone (UInt64.ofNat _)
          (by rwa [UInt64.lt_iff_toNat_lt, hval])
          (by rwa [UInt64.lt_iff_toNat_lt, hval])
        rw [← hval, ← contains_iff, hnot] at hin
        exact absurd hin Bool.false_ne_true
      have hmem := hpos b hb
      have hfits' := hfits
      unfold MemoryFits at hfits'
      apply UInt64.toNat_inj.1
      rw [toNat_add_of_lt, hlocal a ha, hlocal b hb]
      · change _ = _ + 1
        omega
      · rw [hlocal a ha]
        change _ + 1 < _
        omega

theorem bytes_le_of_translatesInto (h : c.TranslatesInto) : c.region_.bytes ≤ c.memSize_.toNat := by
  by_contra hlt
  -- The first address that does not fit.
  have hin := inRegion_unrank hr (not_le.1 hlt)
  change InRegion c.region_ (c.region_.start.toNat + c.distance c.memSize_.toNat) at hin
  have hval := UInt64.toNat_ofNat_of_lt'
    (lt_of_le_of_lt hin.2.1 (toNat_lt_size _))
  have hcontains : c.region_.contains (UInt64.ofNat
      (c.region_.start.toNat + c.distance c.memSize_.toNat)) = true := by
    rw [contains_iff, hval]
    exact hin
  have hrank := position_distance hr c.memSize_.toNat
  have hlocal := local_of_fits hr hfits (start_le_of_contains hcontains)
    (by rw [hval, hrank])
  have hbound := UInt64.lt_iff_toNat_lt.1 (h.inMemory _ hcontains).2
  rw [hlocal, hval, hrank, toNat_add_of_lt hfits] at hbound
  omega

end

end Packing

section Limiting

variable (c : MemController)

/--
The controller is given a region that it limits correctly: one that it shrinks
starts above zero or the memory has room for a chunk, and one that it leaves
alone has no more bytes than the memory, a last partial step included.
-/
def RegionFits : Prop :=
  if c.shrinks then
    c.region_.start ≠ 0 ∨ c.region_.chunkSize ≤ c.memSize_.toNat
  else c.region_.bytes ≤ c.memSize_.toNat
deriving Decidable

theorem adjust_of_shrinks (h : c.shrinks = true) :
    c.adjustRegionToMemSize.region_ =
      { c.region_ with end_ := c.region_.start + c.limitedSpan - 1 } := by
  simp [adjustRegionToMemSize, h]

theorem adjust_start : c.adjustRegionToMemSize.region_.start = c.region_.start := by
  unfold adjustRegionToMemSize
  split <;> rfl

theorem adjust_chunkSize : c.adjustRegionToMemSize.region_.chunkSize = c.region_.chunkSize := by
  unfold adjustRegionToMemSize
  split <;> rfl

theorem adjust_chunkStep : c.adjustRegionToMemSize.region_.chunkStep = c.region_.chunkStep := by
  unfold adjustRegionToMemSize
  split <;> rfl

theorem adjust_translatable (hr : c.region_.Translatable) :
    c.adjustRegionToMemSize.region_.Translatable := by
  unfold adjustRegionToMemSize
  split <;> exact hr

theorem regionSize_toNat (hr : c.region_.Translatable) (hstep : c.region_.interleaveStep ≠ 0) :
    (regionSize c.region_).toNat = (regionSpan c.region_).toNat / c.region_.interleaveStep.toNat *
        c.region_.interleaveSize.toNat := by
  have hle : c.region_.interleaveSize.toNat ≤
      c.region_.interleaveStep.toNat := by
    rcases hr with h | ⟨-, h⟩
    · simp [h]
    · exact UInt64.le_iff_toNat_le.1 h
  have hdiv := div_mul_le_self (regionSpan c.region_).toNat
    c.region_.interleaveStep.toNat
  have hmul := mul_le_mul_left
    ((regionSpan c.region_).toNat / c.region_.interleaveStep.toNat) hle
  have hlt := toNat_lt_size (regionSpan c.region_)
  unfold regionSize
  rw [if_pos hstep, toNat_mul_of_lt, UInt64.toNat_div]
  rw [UInt64.toNat_div]
  omega

theorem step_eq_zero_of_shrinks (h : c.shrinks = true) (hsize : c.region_.interleaveSize = 0) :
    c.region_.interleaveStep = 0 := by
  by_contra hstep
  have hgt := of_decide_eq_true h
  rw [gt_iff_lt, UInt64.lt_iff_toNat_lt, regionSize_toNat c (.inl hsize) hstep, hsize] at hgt
  simp at hgt

section

variable (hr : c.region_.Translatable) (h : c.shrinks = true)
include hr h

theorem limitedSpan_toNat :
    c.limitedSpan.toNat = c.memSize_.toNat / c.region_.chunkSize * c.region_.chunkStep := by
  unfold limitedSpan chunkSize chunkStep
  by_cases hsize : c.region_.interleaveSize = 0
  · simp [hsize, step_eq_zero_of_shrinks c h hsize]
  · obtain ⟨hpos, hle⟩ := hr.resolve_left hsize
    have hstep : c.region_.interleaveStep ≠ 0 := by
      intro h₀
      rw [h₀] at hle
      exact hsize (UInt64.le_antisymm hle (UInt64.zero_le))
    have hgt := of_decide_eq_true h
    rw [gt_iff_lt, UInt64.lt_iff_toNat_lt, regionSize_toNat c hr hstep] at hgt
    -- Fewer steps remain than the region had, so their bytes do not wrap.
    have hsteps : c.memSize_.toNat / c.region_.interleaveSize.toNat <
        (regionSpan c.region_).toNat / c.region_.interleaveStep.toNat :=
      Nat.div_lt_of_lt_mul (by rwa [mul_comm])
    have hmul := mul_le_mul_right c.region_.interleaveStep.toNat hsteps.le
    have hdiv := div_mul_le_self (regionSpan c.region_).toNat
      c.region_.interleaveStep.toNat
    have hlt := toNat_lt_size (regionSpan c.region_)
    simp only [hsize, if_false, if_pos hstep]
    rw [toNat_mul_of_lt, UInt64.toNat_div]
    rw [UInt64.toNat_div]
    omega

theorem bytes_adjust_le_of_chunk (hchunk : c.region_.chunkSize ≤ c.memSize_.toNat) :
    c.adjustRegionToMemSize.region_.bytes ≤ c.memSize_.toNat := by
  have hpos := c.region_.chunkSize_pos
  have hle := chunkSize_le_chunkStep hr
  have hspan : c.adjustRegionToMemSize.region_.span ≤ c.limitedSpan.toNat := by
    have hsteps : 0 < c.limitedSpan.toNat := by
      rw [limitedSpan_toNat c hr h]
      exact Nat.mul_pos (Nat.div_pos hchunk hpos) (lt_of_lt_of_le hpos hle)
    have hsub : (c.limitedSpan - 1).toNat = c.limitedSpan.toNat - 1 :=
      UInt64.toNat_sub_of_le _ _ (UInt64.le_iff_toNat_le.2 hsteps)
    have hend : c.region_.start + c.limitedSpan - 1 =
        c.region_.start + (c.limitedSpan - 1) := by
      rw [UInt64.sub_eq_add_neg, UInt64.sub_eq_add_neg, UInt64.add_assoc]
    unfold span
    rw [adjust_start, adjust_of_shrinks c h]
    rw [hend, UInt64.toNat_add, hsub]
    omega
  unfold bytes
  rw [adjust_chunkSize, adjust_chunkStep]
  calc
    Chunked.countBelow c.region_.chunkSize c.region_.chunkStep
        c.adjustRegionToMemSize.region_.span
      ≤ Chunked.countBelow c.region_.chunkSize c.region_.chunkStep
          c.limitedSpan.toNat :=
        Chunked.countBelow_mono hpos hle hspan
    _ = c.memSize_.toNat / c.region_.chunkSize * c.region_.chunkSize := by
        rw [limitedSpan_toNat c hr h, Chunked.countBelow_mul (lt_of_lt_of_le hpos hle)]
    _ ≤ c.memSize_.toNat := div_mul_le_self _ _

theorem bytes_adjust_le_iff_of_no_chunk (hchunk : c.memSize_.toNat < c.region_.chunkSize) :
    c.adjustRegionToMemSize.region_.bytes ≤ c.memSize_.toNat ↔ c.region_.start ≠ 0 := by
  have hpos := c.region_.chunkSize_pos
  have hle := chunkSize_le_chunkStep hr
  have hzero : c.limitedSpan = 0 := by
    rw [← toNat_eq_zero_iff, limitedSpan_toNat c hr h, div_eq_of_lt hchunk, zero_mul]
  have hend : c.adjustRegionToMemSize.region_.end_ = c.region_.start - 1 := by
    rw [adjust_of_shrinks c h]
    rw [hzero, UInt64.add_zero]
  unfold bytes span
  rw [adjust_chunkSize, adjust_chunkStep, adjust_start, hend]
  by_cases hstart : c.region_.start = 0
  · have hfull : Chunked.countBelow c.region_.chunkSize c.region_.chunkStep 0 <
        Chunked.countBelow c.region_.chunkSize c.region_.chunkStep
          (2 ^ 64) := by
      rw [← Chunked.unrank_lt_iff hpos hle]
      simp [Chunked.countBelow, Chunked.unrank]
    have hone : c.region_.chunkSize ≤ Chunked.countBelow c.region_.chunkSize
        c.region_.chunkStep c.region_.chunkStep := by
      have := @Chunked.countBelow_mul c.region_.chunkSize _
        (lt_of_lt_of_le hpos hle) 1
      rw [one_mul, one_mul] at this
      exact this.ge
    have hmono := Chunked.countBelow_mono hpos hle
      (chunkStep_lt c.region_).le
    have hwrap : ((0 : UInt64) - 1).toNat + 1 - (0 : UInt64).toNat = 2 ^ 64 := rfl
    rw [hstart, hwrap]
    simp only [ne_eq, not_true_eq_false, iff_false]
    omega
  · have hsub : (c.region_.start - 1).toNat = c.region_.start.toNat - 1 :=
      UInt64.toNat_sub_of_le _ _ (UInt64.le_iff_toNat_le.2
        (pos_of_ne_zero (fun h₀ => hstart ((toNat_eq_zero_iff _).1 h₀))))
    have hspan : c.region_.start.toNat - 1 + 1 - c.region_.start.toNat = 0 := by
      have := pos_of_ne_zero
        (fun h₀ => hstart ((toNat_eq_zero_iff _).1 h₀))
      omega
    rw [hsub, hspan]
    simp [Chunked.countBelow, hstart]

end

theorem bytes_adjust_le_iff (hr : c.region_.Translatable) :
    c.adjustRegionToMemSize.region_.bytes ≤ c.memSize_.toNat ↔ c.RegionFits := by
  unfold RegionFits
  cases h : c.shrinks with
  | false =>
    simp [adjustRegionToMemSize, h]
  | true =>
    rw [if_pos rfl]
    rcases le_or_gt c.region_.chunkSize c.memSize_.toNat with hchunk | hchunk
    · have := bytes_adjust_le_of_chunk c hr h hchunk
      tauto
    · rw [bytes_adjust_le_iff_of_no_chunk c hr h hchunk]
      have : ¬ c.region_.chunkSize ≤ c.memSize_.toNat := not_le.2 hchunk
      tauto

end Limiting

/--
After the region is limited, translation is a bijection into the memory
exactly if the controller was given a region that it limits correctly.
-/
theorem translation_iff_regionFits (c : MemController)
    (hr : c.region_.Translatable)
    (hfits : c.MemoryFits) :
    c.adjustRegionToMemSize.TranslatesInto ↔ c.RegionFits := by
  have hr' := adjust_translatable c hr
  rw [show _ ↔ _ from ⟨bytes_le_of_translatesInto hr' hfits, translatesInto_of_bytes_le hr' hfits⟩]
  exact bytes_adjust_le_iff c hr

/-- A controller of two chunks of 64 bytes, whose last step is partial. -/
def partialStep (memSize : UInt64) : MemController where
  region_ :=
    { start := 64
      end_ := 319
      interleaveSize := 64
      interleaveStep := 192 }
  memSize_ := memSize
  privateMemOffset_ := 0
  linkRegion :=
    { start := 64
      end_ := 319
      interleaveSize := 64
      interleaveStep := 192 }

theorem translation_iff_regionFits_partialStep :
    (partialStep 128).adjustRegionToMemSize.TranslatesInto :=
  (translation_iff_regionFits (partialStep 128)
    (.inr ⟨by decide, by decide⟩) (by unfold MemoryFits; decide)).2
      (by decide)

/-- The chunk of the partial step is not counted, and lies past the memory. -/
theorem partialStep_not_translated :
    (partialStep 64).region_.Translatable ∧ (partialStep 64).MemoryFits ∧
      ¬ (partialStep 64).adjustRegionToMemSize.TranslatesInto := by
  refine ⟨.inr ⟨by decide, by decide⟩, by unfold MemoryFits; decide, ?_⟩
  intro h
  have hbound := (h.inMemory 256 (by decide)).2
  exact absurd hbound (by decide)

end MemController

end SstElements.MemHierarchy
