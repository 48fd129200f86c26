import Mathlib.Data.Finset.Card
import Mathlib.Data.Finset.Range
import SstElements.Library.Transition
import SstElements.VanadisOS.PhysMem

/-!
# Allocating physical pages

The pages that are allocated are the bits of the map that are set.  The search gives the
smallest free page away unless it passes over its word.
-/

namespace SstElements.VanadisOS

open Library List Option

namespace BitMap

/-- The search looks at the word of the page. -/
def Searched (bits : BitMap) (pos : Nat) : Prop := bits.words.getD (pos / 64) 0 ≠ 0xffffffffffff
deriving Decidable

theorem scanWords_eq_find? (i : Nat) (words : List (BitVec 64)) :
    scanWords i words = ((range (64 * words.length)).find? fun p =>
      ¬(BitMap.mk words).getBit p ∧ (BitMap.mk words).Searched p).map (i * 64 + ·) := by
  induction words generalizing i with
  | nil => rfl
  | cons word rest ih =>
    have hsplit : range (64 * (rest.length + 1)) =
        range 64 ++ (range (64 * rest.length)).map (64 + ·) := by
      rw [← range_add]
      congr 1
      omega
    have hlast (p : Nat) :
        (BitMap.mk (word :: rest)).getBit (64 + p) = (BitMap.mk rest).getBit p ∧
          ((BitMap.mk (word :: rest)).Searched (64 + p) ↔ (BitMap.mk rest).Searched p) := by
      have hdiv : (64 + p) / 64 = p / 64 + 1 := by omega
      have hmod : (64 + p) % 64 = p % 64 := by omega
      simp only [getBit, Searched, hdiv, hmod, getD_cons_succ, and_self]
    have hfirst : ((range 64).find? fun p =>
        ¬(BitMap.mk (word :: rest)).getBit p ∧ (BitMap.mk (word :: rest)).Searched p) =
        if word = 0xffffffffffff then none else
          (range 64).find? fun j => ¬word.getLsbD j := by
      have hword : ∀ p ∈ range 64, (BitMap.mk (word :: rest)).getBit p = word.getLsbD p ∧
          ((BitMap.mk (word :: rest)).Searched p ↔ word ≠ 0xffffffffffff) := by
        intro p hp
        have hlt := mem_range.1 hp
        simp only [getBit, Searched, Nat.div_eq_of_lt hlt, Nat.mod_eq_of_lt hlt,
          getD_cons_zero, and_self]
      split
      · exact find?_eq_none.2 fun p hp => by simp_all
      · rw [← head?_filter, ← head?_filter]
        exact congrArg _ (filter_congr fun p hp => by simp_all)
    rw [length_cons, hsplit, find?_append, find?_map, scanWords, ih, hfirst]
    have hrest : (range (64 * rest.length)).find? ((fun p =>
        decide (¬(BitMap.mk (word :: rest)).getBit p ∧ (BitMap.mk (word :: rest)).Searched p)) ∘
          (64 + ·)) = (range (64 * rest.length)).find? fun p =>
        ¬(BitMap.mk rest).getBit p ∧ (BitMap.mk rest).Searched p := by
      congr 1
      funext p
      simp [hlast p]
    rw [hrest]
    cases hfound : if word = 0xffffffffffff then none else
        (range 64).find? fun j => ¬word.getLsbD j with
    | some j => rfl
    | none =>
      have hshift : (i * 64 + ·) ∘ (64 + ·) = ((i + 1) * 64 + ·) := by
        funext p
        dsimp only [Function.comp_apply]
        omega
      rw [none_or, Option.map_map, hshift]

theorem findFirstEmptyBit_eq (bits : BitMap) :
    bits.findFirstEmptyBit =
      (range bits.size).find? fun p => ¬bits.getBit p ∧ bits.Searched p := by
  rw [findFirstEmptyBit, scanWords_eq_find?]
  simp [size]

end BitMap

namespace PhysMemManager

/-- The calls of a machine that owns its memory. -/
inductive Op where
  | allocPage
  | freePage (pageNum : Nat)

/-- The memory and the pages that were given away and not returned. -/
structure Run where
  mem : PhysMemManager
  allocated : Finset Nat

/-- Only allocated pages are returned; the exception leaves everything as it is. -/
def step (s : Run) : Op → Option Run
  | .allocPage =>
    match s.mem.allocPage with
    | some (page, mem) => some ⟨mem, insert page s.allocated⟩
    | none => some s
  | .freePage pageNum =>
    if pageNum ∈ s.allocated then some ⟨s.mem.freePage pageNum, s.allocated.erase pageNum⟩
    else none

def setBits (mem : PhysMemManager) : Nat :=
  ((Finset.range mem.frames).filter fun page => mem.bitMap.getBit page).card

/-- The counter is the number of bits that are set, which are those of the allocated
pages. -/
def Counted (s : Run) : Prop :=
  s.mem.numAllocated = s.mem.setBits ∧ ∀ page, s.mem.Taken page ↔ page ∈ s.allocated

/-- Allocation gives the smallest of the pages away that is not allocated, and fails only
if all are. -/
def AllocatesSmallest (pages : Nat) (s : Run) : Op → Prop
  | .allocPage =>
    match s.mem.allocPage with
    | some (page, _) => page < pages ∧ page ∉ s.allocated ∧ ∀ p < page, p ∈ s.allocated
    | none => ∀ p < pages, p ∈ s.allocated
  | .freePage _ => True

/-- The smallest page that is not allocated, if there is one, has a bit in the map, in a
word that is not passed over. -/
def SearchesSmallest (pages : Nat) (s : Run) : Op → Prop
  | .allocPage => ∀ page < pages, page ∉ s.allocated → (∀ p < page, p ∈ s.allocated) →
      page < s.mem.frames ∧ s.mem.bitMap.Searched page
  | .freePage _ => True

section Runs

variable {memSize pages : Nat} {first : PhysMemManager} {s t : Run} {op : Op}

/-- What every call keeps. -/
structure Sound (first : PhysMemManager) (s : Run) : Prop where
  frames : s.mem.frames = first.frames
  taken : ∀ page, s.mem.Taken page ↔ page ∈ s.allocated
  counted : s.mem.numAllocated = s.allocated.card

theorem Sound.setBits_eq (h : Sound first s) : s.mem.setBits = s.allocated.card := by
  rw [setBits]
  congr 1
  ext page
  rw [Finset.mem_filter, Finset.mem_range, ← h.taken page]
  rfl

theorem Sound.start (h : construct memSize = some first) : Sound first ⟨first, ∅⟩ where
  frames := rfl
  taken page := by simp [not_taken_construct h]
  counted := (construct_spec h).2.1

/-- Every call keeps the number of pages, and the bits and the counter right. -/
theorem Sound.step (h : Sound first s) (hstep : step s op = some t) : Sound first t := by
  cases op with
  | allocPage =>
    dsimp only [PhysMemManager.step] at hstep
    split at hstep
    case h_1 page mem halloc =>
      cases hstep
      obtain ⟨hfree, hframes, htaken⟩ := allocPage_spec halloc
      obtain ⟨found, -, hmem⟩ := map_eq_some_iff.1 halloc
      cases hmem
      rw [h.taken] at hfree
      refine ⟨hframes.trans h.frames, fun p => ?_, ?_⟩
      · rw [htaken, Finset.mem_insert, h.taken]
      · rw [Finset.card_insert_of_notMem hfree, ← h.counted]
    case h_2 =>
      cases hstep
      exact h
  | freePage pageNum =>
    obtain ⟨hmem, ht⟩ := ite_none_right_eq_some.1 hstep
    cases ht
    refine ⟨(frames_freePage _ _).trans h.frames, fun p => ?_, ?_⟩
    · rw [taken_freePage ((h.taken _).2 hmem), Finset.mem_erase, h.taken]
    · rw [Finset.card_erase_of_mem hmem, ← h.counted]
      rfl

theorem Sound.allocated_below {n : Nat} (h : Sound first s)
    (hsearch : SearchesSmallest pages s .allocPage)
    (hpassed : ∀ p < n, p < s.mem.frames → ¬(¬s.mem.bitMap.getBit p ∧ s.mem.bitMap.Searched p))
    (p : Nat) (hp : p < n) (hpages : p < pages) :
    p ∈ s.allocated := by
  induction p using Nat.strong_induction_on with
  | _ p ih =>
    by_contra hfree
    obtain ⟨hlt, hsearched⟩ := hsearch p hpages hfree
      (fun q hq => ih q hq (hq.trans hp) (hq.trans hpages))
    exact hpassed p hp hlt ⟨fun hset => hfree ((h.taken p).1 ⟨hlt, hset⟩), hsearched⟩

theorem allocatesSmallest_iff (h : Sound first s) (hpages : first.frames ≤ pages) :
    AllocatesSmallest pages s op ↔ SearchesSmallest pages s op := by
  cases op with
  | freePage _ => rfl
  | allocPage =>
    have hframes : s.mem.frames ≤ pages := h.frames.trans_le hpages
    simp only [AllocatesSmallest, PhysMemManager.allocPage]
    cases hfound : s.mem.bitMap.findFirstEmptyBit with
    | some page =>
      rw [BitMap.findFirstEmptyBit_eq, find?_range_eq_some] at hfound
      obtain ⟨hvisible, hlt, hmin⟩ := hfound
      obtain ⟨hclear, hsearched⟩ := of_decide_eq_true hvisible
      have hlt' : page < s.mem.frames := mem_range.1 hlt
      constructor
      · rintro ⟨-, hnew, hbelow⟩ p - hfree hp
        have heq : p = page := by
          rcases Nat.lt_trichotomy p page with hless | heq | hless
          · exact absurd (hbelow p hless) hfree
          · exact heq
          · exact absurd (hp page hless) hnew
        exact heq ▸ ⟨hlt', hsearched⟩
      · intro hsearch
        refine ⟨hlt'.trans_le hframes, fun hmem => hclear ((h.taken page).2 hmem).2,
          fun p hp => h.allocated_below hsearch (fun q hq _ => ?_) p hp
            (hp.trans (hlt'.trans_le hframes))⟩
        exact of_decide_eq_false (Bool.not_eq_true' _ ▸ hmin q hq)
    | none =>
      rw [BitMap.findFirstEmptyBit_eq, find?_range_eq_none] at hfound
      constructor
      · exact fun hall page hpage hfree => absurd (hall page hpage) hfree
      · intro hsearch p hp
        refine h.allocated_below hsearch (fun q _ hq => ?_) p hp hp
        exact of_decide_eq_false (Bool.not_eq_true' _ ▸ hfound q hq)

/-- Pages are allocated as they should be in a run, with the right counter, exactly if the
search looks at the smallest free page. -/
theorem allocations_exact_iff {ops : List Op} (hmem : construct memSize = some first)
    (hrun : runOps PhysMemManager.step ⟨first, ∅⟩ ops = some t) :
    Throughout PhysMemManager.step Counted ⟨first, ∅⟩ ops ∧
        StepsMeet PhysMemManager.step (AllocatesSmallest (memSize / 4096)) ⟨first, ∅⟩ ops ↔
      StepsMeet PhysMemManager.step (SearchesSmallest (memSize / 4096)) ⟨first, ∅⟩ ops := by
  have hpages := (construct_spec hmem).2.2
  exact throughout_and_stepsMeet_iff (I := Sound first) (q := fun _ => True)
    (fun _ hs => ⟨hs.counted.trans hs.setBits_eq.symm, hs.taken⟩)
    (fun _ _ _ hs _ hstep hok => ⟨hs.step hstep, (allocatesSmallest_iff hs hpages).2 hok⟩)
    (fun _ _ _ hs _ _ _ hkeeps => (allocatesSmallest_iff hs hpages).1 hkeeps)
    (.start hmem) (fun _ _ => trivial) hrun

/-- One page of a memory that has a word for its bits. -/
theorem allocations_exact_iff_word :
    Throughout PhysMemManager.step Counted ⟨⟨⟨[0]⟩, 0⟩, ∅⟩ [.allocPage] ∧
        StepsMeet PhysMemManager.step (AllocatesSmallest 64) ⟨⟨⟨[0]⟩, 0⟩, ∅⟩ [.allocPage] ↔
      StepsMeet PhysMemManager.step (SearchesSmallest 64) ⟨⟨⟨[0]⟩, 0⟩, ∅⟩ [.allocPage] :=
  @allocations_exact_iff 262144 _ _ _ rfl rfl

/-- The map of a memory of one page has no bit for it. -/
theorem not_allocations_exact_page :
    ∃ mem, construct 4096 = some mem ∧
      ¬ (Throughout PhysMemManager.step Counted ⟨mem, ∅⟩ [.allocPage] ∧
        StepsMeet PhysMemManager.step (AllocatesSmallest (4096 / 4096)) ⟨mem, ∅⟩ [.allocPage]) :=
  ⟨_, rfl, fun h => absurd (h.2.1 0 (by decide)) (Finset.notMem_empty 0)⟩

end Runs

end PhysMemManager

end SstElements.VanadisOS
