import SstElements.Library.ChunkedRange
import SstElements.MemHierarchy.CacheArray
import Mathlib.Data.Nat.Nth

/-!
# Slice-aware indexing

A cache that is one slice of several sees only the lines of one window of every
interleave step.  `toLineAddr` removes the lines of the other slices from the
line numbers, so that the lines of the slice are numbered without gaps.
-/

namespace SstElements.MemHierarchy

open Library Nat

/-- `NoHashFunction`: the value itself. -/
def noHash (value : Addr) : UInt64 := value

namespace CacheArray

variable {T : Type} {P : ReplacementPolicy} [ArrayLine T]

/-- Number of the cache line that holds an address. -/
def lineOf (c : CacheArray T P) (addr : Addr) : Nat := addr.toNat / 2 ^ c.lineOffset_

def SliceLine (c : CacheArray T P) (w : Nat) : Nat → Prop :=
  Chunked.InWindow c.sliceSize_.toNat c.sliceStep_.toNat w

instance (c : CacheArray T P) (w : Nat) : DecidablePred (c.SliceLine w) :=
  fun l => inferInstanceAs (Decidable (Chunked.InWindow _ _ _ l))

def sliceLines (c : CacheArray T P) (w : Nat) : Nat :=
  Nat.count (c.SliceLine w) (2 ^ 64 / 2 ^ c.lineOffset_)

/-- The slice is made of whole windows and the line offset is a shift. -/
structure Sliced (c : CacheArray T P) : Prop where
  offset_lt : c.lineOffset_ < 64
  size_pos : 0 < c.sliceSize_.toNat
  step_pos : 0 < c.sliceStep_.toNat
  dvd : c.sliceSize_.toNat ∣ c.sliceStep_.toNat

section Indexing

variable {c : CacheArray T P} {w : Nat}

omit [ArrayLine T] in
theorem lineOf_lt (hc : c.Sliced) (a : Addr) : c.lineOf a < 2 ^ 64 / 2 ^ c.lineOffset_ := by
  have hdvd : 2 ^ c.lineOffset_ ∣ 2 ^ 64 := Nat.pow_dvd_pow 2 hc.offset_lt.le
  exact div_lt_div_of_lt_of_dvd hdvd (toNat_lt_size a)

omit [ArrayLine T] in
theorem exists_lineOf_eq (hc : c.Sliced) {l : Nat} (hl : l < 2 ^ 64 / 2 ^ c.lineOffset_) :
    ∃ a : Addr, c.lineOf a = l := by
  have hpos : 0 < 2 ^ c.lineOffset_ := Nat.two_pow_pos _
  have hdvd : 2 ^ c.lineOffset_ ∣ 2 ^ 64 := Nat.pow_dvd_pow 2 hc.offset_lt.le
  have hlt : l * 2 ^ c.lineOffset_ < 2 ^ 64 := by
    calc
      l * 2 ^ c.lineOffset_ <
          2 ^ 64 / 2 ^ c.lineOffset_ * 2 ^ c.lineOffset_ :=
          Nat.mul_lt_mul_of_pos_right hl hpos
      _ = 2 ^ 64 := Nat.div_mul_cancel hdvd
  refine ⟨UInt64.ofNat (l * 2 ^ c.lineOffset_), ?_⟩
  unfold lineOf
  rw [UInt64.toNat_ofNat', mod_eq_of_lt hlt, Nat.mul_div_cancel l hpos]

omit [ArrayLine T] in
theorem toNat_toLineAddr (hc : c.Sliced) (a : Addr) :
    (c.toLineAddr a).toNat = c.lineOf a / c.sliceStep_.toNat * c.sliceSize_.toNat +
        c.lineOf a % c.sliceSize_.toNat := by
  have hle : c.sliceSize_.toNat ≤ c.sliceStep_.toNat := le_of_dvd hc.step_pos hc.dvd
  have hline : c.lineOf a < 2 ^ 64 := lt_of_le_of_lt (div_le_self _ _) (toNat_lt_size a)
  have hsum :
      c.lineOf a / c.sliceStep_.toNat * c.sliceSize_.toNat +
        c.lineOf a % c.sliceSize_.toNat ≤ c.lineOf a := by
    have hmod : c.lineOf a % c.sliceSize_.toNat ≤
        c.lineOf a % c.sliceStep_.toNat := by
      rw [← mod_mod_of_dvd _ hc.dvd]
      exact mod_le _ _
    calc
      _ ≤ c.lineOf a / c.sliceStep_.toNat * c.sliceStep_.toNat +
            c.lineOf a % c.sliceStep_.toNat :=
          Nat.add_le_add (Nat.mul_le_mul_left _ hle) hmod
      _ = c.lineOf a := by
          rw [mul_comm]
          exact div_add_mod _ _
  have hshift := toNat_shiftRight_ofNat hc.offset_lt a
  unfold toLineAddr
  have hmul :
      (a >>> UInt64.ofNat c.lineOffset_ / c.sliceStep_ * c.sliceSize_).toNat =
        c.lineOf a / c.sliceStep_.toNat * c.sliceSize_.toNat := by
    rw [toNat_mul_of_lt] <;> rw [UInt64.toNat_div, hshift]
    · rfl
    · exact lt_of_le_of_lt (le_trans (Nat.le_add_right _ _) hsum) hline
  have hrem :
      (a >>> UInt64.ofNat c.lineOffset_ % c.sliceSize_).toNat =
        c.lineOf a % c.sliceSize_.toNat := by
    rw [UInt64.toNat_mod, hshift]
    rfl
  rw [toNat_add_of_lt] <;> rw [hmul, hrem]
  exact lt_of_le_of_lt hsum hline

omit [ArrayLine T] in
theorem toNat_toLineAddr_of_mem (hc : c.Sliced) {a : Addr} (ha : c.SliceLine w (c.lineOf a)) :
    (c.toLineAddr a).toNat = Nat.count (c.SliceLine w) (c.lineOf a) := by
  rw [toNat_toLineAddr hc]
  exact (Chunked.count_inWindow_eq hc.size_pos hc.dvd hc.step_pos ha).symm

omit [ArrayLine T] in
theorem toLineAddr_eq_iff (hc : c.Sliced) {a b : Addr} (ha : c.SliceLine w (c.lineOf a))
    (hb : c.SliceLine w (c.lineOf b)) :
    c.toLineAddr a = c.toLineAddr b ↔ c.lineOf a = c.lineOf b := by
  rw [← UInt64.toNat_inj, toNat_toLineAddr_of_mem hc ha, toNat_toLineAddr_of_mem hc hb]
  constructor
  · intro h
    exact Nat.count_injective ha hb h
  · intro h
    rw [h]

omit [ArrayLine T] in
theorem exists_toLineAddr_eq_iff (hc : c.Sliced) (n : Nat) :
    (∃ a : Addr, c.SliceLine w (c.lineOf a) ∧ (c.toLineAddr a).toNat = n) ↔ n < c.sliceLines w := by
  constructor
  · rintro ⟨a, ha, rfl⟩
    rw [toNat_toLineAddr_of_mem hc ha]
    exact count_strict_mono ha (lineOf_lt hc a)
  · intro hn
    have hcard : ∀ hf : (Set.ofPred (c.SliceLine w)).Finite,
        n < hf.toFinset.card :=
      fun hf => lt_of_lt_of_le hn (Nat.count_le_card hf _)
    obtain ⟨a, ha⟩ := exists_lineOf_eq hc (nth_lt_of_lt_count hn)
    have hmem : c.SliceLine w (c.lineOf a) := ha ▸ nth_mem n hcard
    refine ⟨a, hmem, ?_⟩
    rw [toNat_toLineAddr_of_mem hc hmem, ha, count_nth hcard]

omit [ArrayLine T] in
theorem exists_setOf_eq_iff (hc : c.Sliced) (hhash : c.hash_ = noHash) (hsets : 0 < c.numSets_)
    (s : Nat) :
    (∃ a : Addr, c.SliceLine w (c.lineOf a) ∧ c.setOf a = s) ↔
      s < c.numSets_ ∧ s < c.sliceLines w := by
  have hset : ∀ a, c.setOf a = (c.toLineAddr a).toNat % c.numSets_ := by
    intro a
    unfold setOf
    rw [hhash]
    rfl
  constructor
  · rintro ⟨a, ha, rfl⟩
    have hlt := (exists_toLineAddr_eq_iff hc _).1 ⟨a, ha, rfl⟩
    rw [hset]
    exact ⟨mod_lt _ hsets, lt_of_le_of_lt (mod_le _ _) hlt⟩
  · rintro ⟨hs, hlines⟩
    obtain ⟨a, ha, hnum⟩ := (exists_toLineAddr_eq_iff hc s).2 hlines
    refine ⟨a, ha, ?_⟩
    rw [hset, hnum, mod_eq_of_lt hs]

end Indexing

section Configuration

variable {lineSizeLog numLines associativity : Nat} {size step : Addr}
variable {hash : Addr → UInt64} {newLine : Nat → T} {c₀ : CacheArray T P}

theorem new_indexing
    (hnew : CacheArray.new P numLines associativity (2 ^ lineSizeLog) hash newLine = some c₀) :
    c₀.lineOffset_ = lineSizeLog ∧ c₀.hash_ = hash ∧ 0 < c₀.numSets_ := by
  unfold CacheArray.new at hnew
  simp only [ne_eq, decide_not, Bool.or_eq_true, decide_eq_true_eq,
    Bool.not_eq_eq_eq_not, Bool.not_true, decide_eq_false_iff_not] at hnew
  split at hnew
  · cases hnew
  · rename_i hchecks
    split at hnew
    · cases hnew
      refine ⟨log2_two_pow, rfl, pos_of_ne_zero ?_⟩
      intro hzero
      exact hchecks (.inl (.inr hzero))
    · cases hnew

theorem toNat_clamped (hk : lineSizeLog < 64) (part : Addr) :
    (if part >>> UInt64.ofNat lineSizeLog = 0 then 1
      else part >>> UInt64.ofNat lineSizeLog : Addr).toNat =
      max 1 (part.toNat / 2 ^ lineSizeLog) := by
  have hshift := toNat_shiftRight_ofNat hk part
  split
  · rename_i hzero
    rw [hzero] at hshift
    simp [← hshift]
  · rename_i hne
    have hpos : (part >>> UInt64.ofNat lineSizeLog).toNat ≠ 0 :=
      fun h => hne ((toNat_eq_zero_iff _).1 h)
    omega

theorem sliced_setSliceAware (hk : lineSizeLog < 64)
    (hnew : CacheArray.new P numLines associativity (2 ^ lineSizeLog) hash newLine = some c₀)
    (hsize : 2 ^ lineSizeLog ∣ size.toNat) (hdvd : size.toNat ∣ step.toNat) (hle : size ≤ step) :
    (c₀.setSliceAware size step).Sliced := by
  obtain ⟨hoffset, -, -⟩ := new_indexing hnew
  have hs := toNat_clamped hk size
  have ht := toNat_clamped hk step
  rw [← hoffset] at hs ht hk
  refine ⟨hk, ?_, ?_, ?_⟩
  · exact hs ▸ le_max_left 1 _
  · exact ht ▸ le_max_left 1 _
  · rw [hoffset] at hs ht
    have hle' := UInt64.le_iff_toNat_le.1 hle
    obtain ⟨m, hm⟩ := hsize
    obtain ⟨q, hq⟩ := hdvd
    have hpos : 0 < 2 ^ lineSizeLog := Nat.two_pow_pos _
    have hm' : size.toNat / 2 ^ lineSizeLog = m := by rw [hm, Nat.mul_div_cancel_left m hpos]
    have hq' : step.toNat / 2 ^ lineSizeLog = m * q := by
      rw [hq, hm, mul_assoc, Nat.mul_div_cancel_left _ hpos]
    change (if _ then _ else _ : Addr).toNat ∣ (if _ then _ else _ : Addr).toNat
    rw [hoffset, hs, ht, hm', hq']
    rcases Nat.eq_zero_or_pos m with hzero | hmpos
    · subst hzero
      simp
    · have hqpos : 0 < q := by
        rcases Nat.eq_zero_or_pos q with rfl | h
        · rw [hq, hm, mul_zero] at hle'
          have := Nat.mul_pos hpos hmpos
          omega
        · exact h
      have hmq : 0 < m * q := Nat.mul_pos hmpos hqpos
      rw [max_eq_right hmpos, max_eq_right hmq]
      exact dvd_mul_right m q

/--
Addresses of one slice share a line address exactly if they share a line, the
line addresses of a slice are the positions of its lines, and without a hash
the sets the slice uses are those numbered below its lines.
-/
theorem setSliceAware_spec
    (hk : lineSizeLog < 31)
    (hnew : CacheArray.new P numLines associativity (2 ^ lineSizeLog) noHash newLine = some c₀)
    (hsize : 2 ^ lineSizeLog ∣ size.toNat)
    (hdvd : size.toNat ∣ step.toNat)
    (hle : size ≤ step)
    (w : Nat) :
    let c := c₀.setSliceAware size step
    (∀ a b : Addr, c.SliceLine w (c.lineOf a) → c.SliceLine w (c.lineOf b) →
      (c.toLineAddr a = c.toLineAddr b ↔ a.toNat / 2 ^ lineSizeLog = b.toNat / 2 ^ lineSizeLog)) ∧
    (∀ a : Addr, c.SliceLine w (c.lineOf a) →
      (c.toLineAddr a).toNat = Nat.count (c.SliceLine w) (c.lineOf a)) ∧
    (∀ n : Nat,
      (∃ a : Addr, c.SliceLine w (c.lineOf a) ∧ (c.toLineAddr a).toNat = n) ↔ n < c.sliceLines w) ∧
    (∀ s : Nat,
      (∃ a : Addr, c.SliceLine w (c.lineOf a) ∧ c.setOf a = s) ↔
        s < c.numSets_ ∧ s < c.sliceLines w) := by
  intro c
  obtain ⟨hoffset, hhash, hsets⟩ := new_indexing hnew
  have hc : c.Sliced := sliced_setSliceAware (by omega) hnew hsize hdvd hle
  refine ⟨?_, ?_, ?_, ?_⟩
  · intro a b ha hb
    have hiff := toLineAddr_eq_iff hc ha hb
    unfold lineOf at hiff
    rwa [show c.lineOffset_ = lineSizeLog from hoffset] at hiff
  · intro a ha
    exact toNat_toLineAddr_of_mem hc ha
  · intro n
    exact exists_toLineAddr_eq_iff hc n
  · intro s
    exact exists_setOf_eq_iff hc hhash hsets s

end Configuration

/-- Four sets, 64-byte lines and 128-byte slices of every 1024 bytes. -/
theorem setSliceAware_spec_fourSets :
    ∃ c₀ : CacheArray L1CacheLine LRU,
      CacheArray.new LRU 4 1 (2 ^ 6) noHash (L1CacheLine.new 64) = some c₀ ∧
      (let c := c₀.setSliceAware 128 1024
      ∀ s : Nat,
        (∃ a : Addr, c.SliceLine 3 (c.lineOf a) ∧ c.setOf a = s) ↔
          s < c.numSets_ ∧ s < c.sliceLines 3) := by
  refine ⟨_, rfl, ?_⟩
  have hspec := @setSliceAware_spec L1CacheLine LRU _ 6 4 1 128 1024
    (L1CacheLine.new 64) _ (by decide) rfl (by decide) (by decide) (by decide) 3
  exact hspec.2.2.2

/--
A slice with two lines leaves two of four sets unused, and a step of zero
bytes leaves gaps between the line addresses.
-/
theorem not_every_set_reachable :
    ∃ c₀ : CacheArray L1CacheLine LRU,
      CacheArray.new LRU 4 1 (2 ^ 6) noHash (L1CacheLine.new 64) = some c₀ ∧
      (let c := c₀.setSliceAware 64 0x8000000000000000
      2 < c.numSets_ ∧
        ¬ ∃ a : Addr, c.SliceLine 0 (c.lineOf a) ∧ c.setOf a = 2) ∧
      (let c := c₀.setSliceAware 128 0
      c.lineOf 0 = 0 ∧ c.lineOf 64 = 1 ∧ (∀ l, c.SliceLine 0 l) ∧
        c.toLineAddr 0 = 0 ∧ c.toLineAddr 64 = 3) := by
  have hnew :
      (CacheArray.new LRU 4 1 (2 ^ 6) noHash (L1CacheLine.new 64)).isSome :=
    rfl
  obtain ⟨c₀, hc₀⟩ := Option.isSome_iff_exists.1 hnew
  have heq := hc₀
  cases heq
  refine ⟨_, rfl, ⟨by decide, ?_⟩, rfl, rfl, ?_, rfl, rfl⟩
  · have hc := @sliced_setSliceAware L1CacheLine LRU _ 6 4 1 64
      0x8000000000000000 noHash (L1CacheLine.new 64) _
      (by decide) hc₀ ⟨1, rfl⟩ ⟨2 ^ 57, rfl⟩ (by decide)
    rw [exists_setOf_eq_iff hc rfl (by decide)]
    rintro ⟨-, hlines⟩
    have hcount := @Chunked.count_inWindow 1 (2 ^ 57) 0
      Nat.one_pos (by norm_num) (2 ^ 58)
    have htwo := lt_of_lt_of_eq hlines hcount
    omega
  · intro l
    change l % 1 / 2 = 0
    omega

end CacheArray

end SstElements.MemHierarchy
