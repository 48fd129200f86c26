import SstElements.MemHierarchy.MemRegion

/-!
# Intersection of memory regions

`InRegion` is the membership test of a region on natural numbers.  For two
interleaved regions the set of common addresses is periodic with the least
common multiple of the two steps, so the runs found in one window of that
length describe the whole intersection; this is what `intersect` returns and
what `doesIntersect` decides.

When exactly one of the two regions is interleaved, the least common multiple
is taken with a step of zero, the window is empty and both functions report
that nothing is shared.
-/

namespace SstElements.MemHierarchy.MemRegion

open Library

section Membership

/-- Membership in a region, on the values of the words. -/
def InRegion (r : MemRegion) (x : Nat) : Prop :=
  r.start.toNat ≤ x ∧ x ≤ r.end_.toNat ∧
    (r.interleaveSize = 0 ∨ (x - r.start.toNat) % r.interleaveStep.toNat < r.interleaveSize.toNat)
deriving Decidable

theorem contains_iff (r : MemRegion) (x : Addr) : r.contains x = true ↔ InRegion r x.toNat := by
  unfold contains InRegion
  by_cases hlo : r.start ≤ x
  · by_cases hhi : x ≤ r.end_
    · have hsub : (x - r.start).toNat = x.toNat - r.start.toNat := UInt64.toNat_sub_of_le _ _ hlo
      have hlo' := UInt64.le_iff_toNat_le.1 hlo
      have hhi' := UInt64.le_iff_toNat_le.1 hhi
      simp [hlo, hhi, hlo', hhi', UInt64.lt_iff_toNat_lt, hsub]
    · have hhi' := mt UInt64.le_iff_toNat_le.2 hhi
      simp [hlo, hhi, hhi']
  · have hlo' := mt UInt64.le_iff_toNat_le.2 hlo
    simp [hlo, hlo']

/-- Common membership of two regions. -/
def InBoth (r o : MemRegion) (x : Nat) : Prop := InRegion r x ∧ InRegion o x
deriving Decidable

theorem contains_and_iff (r o : MemRegion) (x : Addr) :
    (r.contains x && o.contains x) = decide (InBoth r o x.toNat) := by
  rw [Bool.eq_iff_iff, Bool.and_eq_true, contains_iff, contains_iff, decide_eq_true_iff]
  exact Iff.rfl

theorem exists_contains_iff (r o : MemRegion) :
    (∃ x : Addr, r.contains x = true ∧ o.contains x = true)
      ↔ ∃ x, InBoth r o x := by
  constructor
  · rintro ⟨x, hr, ho⟩
    exact ⟨x.toNat, (contains_iff r x).1 hr, (contains_iff o x).1 ho⟩
  · rintro ⟨x, hx⟩
    have hval : (UInt64.ofNat x).toNat = x :=
      UInt64.toNat_ofNat_of_lt' (lt_of_le_of_lt hx.1.2.1 (toNat_lt_size _))
    refine ⟨UInt64.ofNat x, (contains_iff r _).2 ?_, (contains_iff o _).2 ?_⟩
    · rw [hval]
      exact hx.1
    · rw [hval]
      exact hx.2

/-- The address ranges, interleaving aside, have no common address. -/
def RangesApart (r o : MemRegion) : Prop := o.end_ < r.start ∨ r.end_ < o.start

theorem rangesApart_test (r o : MemRegion) :
    ((o.end_ < r.start || r.end_ < o.start) = true) ↔ RangesApart r o := by
  simp [RangesApart]

theorem not_inBoth_of_rangesApart {r o : MemRegion} (h : RangesApart r o) (x : Nat) :
    ¬ InBoth r o x := by
  rintro ⟨⟨hr₁, hr₂, -⟩, ⟨ho₁, ho₂, -⟩⟩
  rcases h with h | h
  · have := UInt64.lt_iff_toNat_lt.1 h
    omega
  · have := UInt64.lt_iff_toNat_lt.1 h
    omega

theorem checkStart_toNat (r o : MemRegion) :
    (checkStart r o).toNat = max r.start.toNat o.start.toNat := by
  unfold checkStart
  split
  · rename_i h
    have := UInt64.lt_iff_toNat_lt.1 h
    omega
  · rename_i h
    have := mt UInt64.lt_iff_toNat_lt.2 h
    omega

theorem minEnd_toNat (r o : MemRegion) : (minEnd r o).toNat = min r.end_.toNat o.end_.toNat := by
  unfold minEnd
  split
  · rename_i h
    have := UInt64.lt_iff_toNat_lt.1 h
    omega
  · rename_i h
    have := mt UInt64.lt_iff_toNat_lt.2 h
    omega

end Membership

section Lcm

theorem gcd_toNat (a b : UInt64) : (gcd a b).toNat = Nat.gcd a.toNat b.toNat := by
  induction a, b using gcd.induct with
  | case1 a =>
    rw [gcd]
    simp
  | case2 a b hb ih =>
    rw [gcd, if_neg hb, ih, UInt64.toNat_mod, Nat.gcd_comm b.toNat, ← Nat.gcd_rec, Nat.gcd_comm]

theorem div_gcd_mul_toNat {a b : UInt64} (g : UInt64) (hg : g.toNat = Nat.gcd a.toNat b.toNat)
    (hlcm : Nat.lcm a.toNat b.toNat < 2 ^ 64) :
    ((a / g) * b).toNat = Nat.lcm a.toNat b.toNat := by
  have hval :
      a.toNat / Nat.gcd a.toNat b.toNat * b.toNat =
        Nat.lcm a.toNat b.toNat := by
    rw [Nat.lcm, mul_comm a.toNat b.toNat,
      Nat.mul_div_assoc _ (Nat.gcd_dvd_left _ _), mul_comm]
  rw [UInt64.toNat_mul, UInt64.toNat_div, hg, hval, Nat.mod_eq_of_lt hlcm]

theorem lcmStep_toNat (r o : MemRegion)
    (hlcm : Nat.lcm r.interleaveStep.toNat o.interleaveStep.toNat < 2 ^ 64) :
    (lcmStep r o).toNat = Nat.lcm r.interleaveStep.toNat o.interleaveStep.toNat := by
  unfold lcmStep
  split
  · rename_i heq
    rw [heq, Nat.lcm_self]
  · split
    · exact div_gcd_mul_toNat _ (gcd_toNat _ _) hlcm
    · refine div_gcd_mul_toNat _ ?_ hlcm
      rw [gcd_toNat, Nat.gcd_comm]

theorem lcmStep_eq_zero {r o : MemRegion} (h : r.interleaveStep = 0 ∨ o.interleaveStep = 0) :
    lcmStep r o = 0 := by
  have hval :
      Nat.lcm r.interleaveStep.toNat o.interleaveStep.toNat = 0 := by
    rcases h with h | h <;> simp [h]
  rw [← toNat_eq_zero_iff, lcmStep_toNat r o (by omega), hval]

end Lcm

section Loops

variable (r o : MemRegion)

def runRegions (lcm : Addr) (runs : List (Nat × Nat)) : List MemRegion :=
  runs.map (fun s => runRegion r o lcm (UInt64.ofNat s.1) (UInt64.ofNat s.2))

/-- The code after the loop, which closes a run open at the end. -/
def closeRun (lcm : Addr) : Addr × Addr × List MemRegion → List MemRegion
  | (regionStart, regionSize, regions) =>
    if regionSize ≠ 0 then
      setInsert lt (runRegion r o lcm regionStart regionSize) regions
    else regions

variable {r o}

theorem lt_of_start_lt {a b : MemRegion} (h : a.start < b.start) : lt a b = true := by
  have hne : a.start ≠ b.start := ne_of_lt h
  simp [lt, hne, h]

theorem setInsert_runRegion {lcm start size : Addr} {regions : List MemRegion}
    (h : ∀ y ∈ regions, y.start < start) :
    setInsert lt (runRegion r o lcm start size) regions =
      regions ++ [runRegion r o lcm start size] :=
  setInsert_of_forall_lt (fun y hy => lt_of_start_lt (h y hy))

theorem closeRun_intersectLoop
    (lcm : Addr) (n : Nat) (i start size : Addr) (regions : List MemRegion)
    (hbound : i.toNat + n < 2 ^ 64) (hopen : OpenRun i.toNat start.toNat size.toNat)
    (hregions : ∀ y ∈ regions, y.start < (if size = 0 then i else start)) :
    closeRun r o lcm (intersectLoop r o lcm n i start size regions) = regions ++ runRegions r o lcm
        (runsFrom (fun x => decide (InBoth r o x)) n
          i.toNat start.toNat size.toNat) := by
  induction n generalizing i start size regions with
  | zero =>
    by_cases hsize : size = 0
    · simp [intersectLoop, closeRun, hsize, runsFrom, runRegions]
    · have hsize' : size.toNat ≠ 0 := mt (toNat_eq_zero_iff size).1 hsize
      simp only [hsize, if_false] at hregions
      simp [intersectLoop, closeRun, hsize, hsize', runsFrom, runRegions,
        setInsert_runRegion hregions]
  | succ n ih =>
    have hnext : (i + 1).toNat = i.toNat + 1 := toNat_add_of_lt (by simpa using by omega)
    cases hp : decide (InBoth r o i.toNat) with
    | true =>
      have htest : (r.contains i && o.contains i) = true := by rw [contains_and_iff, hp]
      have hext := hopen.extend
      have hsizeNext : (size + 1).toNat = size.toNat + 1 := by
        refine toNat_add_of_lt ?_
        rcases hopen with h | h
        · simp [h]
        · have := toNat_lt_size i
          simpa using by omega
      have hstart :
          (if size = 0 then i else start).toNat =
            if size.toNat = 0 then i.toNat else start.toNat := by
        simp only [toNat_eq_zero_iff]
        split <;> rfl
      have hne : size + 1 ≠ 0 := by
        rw [Ne, ← toNat_eq_zero_iff, hsizeNext]
        omega
      rw [runsFrom_succ_of_mem n start.toNat size.toNat hp]
      simp only [intersectLoop, htest, if_true]
      rw [ih (i + 1) _ (size + 1) regions (by omega)
        (by rw [hnext, hstart, hsizeNext]; exact hext)
        (by simpa only [hne, if_false] using hregions)]
      rw [hnext, hstart, hsizeNext]
    | false =>
      have htest : (r.contains i && o.contains i) = false := by rw [contains_and_iff, hp]
      have hlt : i < i + 1 := by
        rw [UInt64.lt_iff_toNat_lt, hnext]
        omega
      by_cases hsize : size = 0
      · subst hsize
        rw [show (0 : Addr).toNat = 0 from rfl,
          runsFrom_succ_of_not_mem_closed n start.toNat hp]
        simp only [intersectLoop, htest, Bool.false_eq_true, if_false, ne_eq, not_true_eq_false]
        rw [ih (i + 1) start 0 regions (by omega) (.inl rfl)
          (by
            intro y hy
            simpa using lt_trans (hregions y hy) hlt)]
        rw [hnext, show (0 : Addr).toNat = 0 from rfl]
      · have hsize' : size.toNat ≠ 0 := mt (toNat_eq_zero_iff size).1 hsize
        have hend : start.toNat + size.toNat = i.toNat := hopen.resolve_left hsize'
        simp only [hsize, if_false] at hregions
        have hstart : start < i + 1 := by
          rw [UInt64.lt_iff_toNat_lt, hnext]
          omega
        rw [runsFrom_succ_of_not_mem_open n start.toNat hp hsize']
        simp only [intersectLoop, htest, Bool.false_eq_true, if_false,
          ne_eq, hsize, not_false_eq_true, if_true, setInsert_runRegion hregions]
        rw [ih (i + 1) start 0 _ (by omega) (.inl rfl)
          (by
            intro y hy
            rcases List.mem_append.1 hy with hy | hy
            · simpa using lt_trans (hregions y hy) hstart
            · rw [List.mem_singleton.1 hy]
              simpa [runRegion] using hstart)]
        rw [hnext, show (0 : Addr).toNat = 0 from rfl]
        simp [runRegions]

theorem doesIntersectLoop_iff (n : Nat) (i : Addr) (hbound : i.toNat + n < 2 ^ 64) :
    doesIntersectLoop r o n i = true
      ↔ ∃ j, i.toNat ≤ j ∧ j < i.toNat + n ∧ InBoth r o j := by
  induction n generalizing i with
  | zero =>
    simp only [doesIntersectLoop, Bool.false_eq_true, false_iff]
    rintro ⟨j, h₁, h₂, -⟩
    omega
  | succ n ih =>
    have hnext : (i + 1).toNat = i.toNat + 1 := toNat_add_of_lt (by simpa using by omega)
    by_cases hp : InBoth r o i.toNat
    · have htest : (r.contains i && o.contains i) = true := by
        rw [contains_and_iff, decide_eq_true hp]
      simp only [doesIntersectLoop, htest, if_true, true_iff]
      exact ⟨i.toNat, le_refl _, by omega, hp⟩
    · have htest : (r.contains i && o.contains i) = false := by
        rw [contains_and_iff, decide_eq_false hp]
      simp only [doesIntersectLoop, htest, Bool.false_eq_true, if_false]
      rw [ih (i + 1) (by omega), hnext]
      constructor
      · rintro ⟨j, h₁, h₂, hj⟩
        exact ⟨j, by omega, by omega, hj⟩
      · rintro ⟨j, h₁, h₂, hj⟩
        have hne : j ≠ i.toNat := fun h => hp (h ▸ hj)
        exact ⟨j, by omega, by omega, hj⟩

end Loops

section Interleaved

variable {r o : MemRegion}

/-- The window of `intersect` and `doesIntersect` stays inside the words. -/
def WindowFits (r o : MemRegion) : Prop :=
  max r.start.toNat o.start.toNat +
    Nat.lcm r.interleaveStep.toNat o.interleaveStep.toNat < 2 ^ 64
deriving Decidable

theorem Interleaved.step_pos (h : r.Interleaved) : 0 < r.interleaveStep.toNat := by
  have h₁ := UInt64.lt_iff_toNat_lt.1 h.1
  have h₂ := UInt64.le_iff_toNat_le.1 h.2
  omega

theorem Interleaved.inRegion_shift (h : r.Interleaved) {x k L : Nat}
    (hL : r.interleaveStep.toNat ∣ L) (hlo : r.start.toNat ≤ x) (hhi : x + k * L ≤ r.end_.toNat) :
    InRegion r (x + k * L) ↔ InRegion r x := by
  obtain ⟨q, rfl⟩ := hL
  have hsub :
      x + k * (r.interleaveStep.toNat * q) - r.start.toNat =
        (x - r.start.toNat) + r.interleaveStep.toNat * (k * q) := by
    rw [Nat.mul_left_comm]
    omega
  have hne : r.interleaveSize ≠ 0 := ne_of_gt h.1
  unfold InRegion
  rw [hsub, Nat.add_mul_mod_self_left]
  constructor
  · rintro ⟨-, -, hmod⟩
    exact ⟨hlo, by omega, hmod⟩
  · rintro ⟨-, -, hmod⟩
    exact ⟨by omega, hhi, hmod⟩

theorem periodicOn_inBoth (hr : r.Interleaved) (ho : o.Interleaved) :
    PeriodicOn (InBoth r o)
      (max r.start.toNat o.start.toNat)
      (min r.end_.toNat o.end_.toNat)
      (Nat.lcm r.interleaveStep.toNat o.interleaveStep.toNat) where
  bounds := by
    rintro x ⟨⟨hr₁, hr₂, -⟩, ⟨ho₁, ho₂, -⟩⟩
    omega
  shift := by
    intro x k hlo hhi
    have h₁ :=
      hr.inRegion_shift (k := k) (Nat.dvd_lcm_left _ o.interleaveStep.toNat)
        (x := x) (by omega) (by omega)
    have h₂ :=
      ho.inRegion_shift (k := k) (Nat.dvd_lcm_right r.interleaveStep.toNat _)
        (x := x) (by omega) (by omega)
    exact and_congr h₁ h₂

theorem lcm_pos (hr : r.Interleaved) (ho : o.Interleaved) :
    0 < Nat.lcm r.interleaveStep.toNat o.interleaveStep.toNat :=
  Nat.lcm_pos hr.step_pos ho.step_pos

theorem iterations_eq (hfit : WindowFits r o) :
    iterations (checkStart r o) (checkStart r o + lcmStep r o) =
      Nat.lcm r.interleaveStep.toNat o.interleaveStep.toNat := by
  unfold WindowFits at hfit
  have hlcm := lcmStep_toNat r o (by omega)
  have hadd :
      (checkStart r o + lcmStep r o).toNat =
        (checkStart r o).toNat + (lcmStep r o).toNat :=
    toNat_add_of_lt (by rw [checkStart_toNat, hlcm]; exact hfit)
  unfold iterations
  omega

theorem contains_runRegion_iff {start size : Nat} (hsize : size ≠ 0)
    (hbound : start + size < 2 ^ 64)
    (hlcm : Nat.lcm r.interleaveStep.toNat o.interleaveStep.toNat < 2 ^ 64) (x : Addr) :
    (runRegion r o (lcmStep r o) (UInt64.ofNat start) (UInt64.ofNat size)).contains x = true
      ↔ start ≤ x.toNat ∧ x.toNat ≤ min r.end_.toNat o.end_.toNat ∧ (x.toNat - start) %
        Nat.lcm r.interleaveStep.toNat o.interleaveStep.toNat < size := by
  have hstart : (UInt64.ofNat start).toNat = start :=
    UInt64.toNat_ofNat_of_lt' (lt_of_le_of_lt (Nat.le_add_right _ _) hbound)
  have hsz : (UInt64.ofNat size).toNat = size :=
    UInt64.toNat_ofNat_of_lt' (lt_of_le_of_lt (Nat.le_add_left _ _) hbound)
  have hne : UInt64.ofNat size ≠ 0 := by
    rw [Ne, ← toNat_eq_zero_iff, hsz]
    exact hsize
  rw [contains_iff]
  simp only [InRegion, runRegion, hstart, hsz, minEnd_toNat, lcmStep_toNat r o hlcm, hne, false_or]

section

variable (hapart : ¬ RangesApart r o) (hne : r ≠ o)
include hapart hne

theorem intersect_eq_runRegions (hr : r.Interleaved) (hfit : WindowFits r o) :
    intersect r o = runRegions r o (lcmStep r o)
        (runsFrom (fun x => decide (InBoth r o x))
          (Nat.lcm r.interleaveStep.toNat o.interleaveStep.toNat)
          (max r.start.toNat o.start.toNat)
          (max r.start.toNat o.start.toNat) 0) := by
  have htest : (o.end_ < r.start || r.end_ < o.start) = false := by
    rw [← Bool.not_eq_true, rangesApart_test]
    exact hapart
  have hsize : r.interleaveSize ≠ 0 := ne_of_gt hr.1
  have hloop :=
    closeRun_intersectLoop (r := r) (o := o) (lcmStep r o)
      (iterations (checkStart r o) (checkStart r o + lcmStep r o))
      (checkStart r o) (checkStart r o) 0 []
      (by
        rw [iterations_eq hfit, checkStart_toNat]
        exact hfit)
      (.inl rfl) (by simp)
  rw [iterations_eq hfit, checkStart_toNat, List.nil_append,
    show (0 : Addr).toNat = 0 from rfl] at hloop
  rw [← hloop]
  simp only [intersect, htest, hne, hsize, Bool.false_eq_true, if_false,
    decide_false, Bool.false_and, closeRun, iterations_eq hfit]

theorem contains_intersect_interleaved (hr : r.Interleaved) (ho : o.Interleaved)
    (hfit : WindowFits r o) (x : Addr) :
    (∃ reg ∈ intersect r o, reg.contains x = true)
      ↔ InBoth r o x.toNat := by
  have hlcm :
      Nat.lcm r.interleaveStep.toNat o.interleaveStep.toNat < 2 ^ 64 := by
    unfold WindowFits at hfit
    omega
  rw [intersect_eq_runRegions hapart hne hr hfit,
    ← (periodicOn_inBoth hr ho).iff_exists_run (lcm_pos hr ho)
      (p := fun x => decide (InBoth r o x)) (by simp) (max r.start.toNat o.start.toNat) x.toNat]
  unfold runRegions
  simp only [List.mem_map, exists_exists_and_eq_and]
  refine exists_congr fun s => and_congr_right fun hs => ?_
  obtain ⟨-, hsize, hend⟩ := bounds_of_mem_runsFrom (.inl rfl) hs
  exact contains_runRegion_iff hsize
    (lt_of_le_of_lt hend hfit) hlcm x

theorem doesIntersect_interleaved (hr : r.Interleaved) (ho : o.Interleaved)
    (hfit : WindowFits r o) :
    doesIntersect r o = true ↔ ∃ x, InBoth r o x := by
  have htest : (o.end_ < r.start || r.end_ < o.start) = false := by
    rw [← Bool.not_eq_true, rangesApart_test]
    exact hapart
  have hsize : r.interleaveSize ≠ 0 := ne_of_gt hr.1
  have hloop :=
    doesIntersectLoop_iff (r := r) (o := o)
      (iterations (checkStart r o) (checkStart r o + lcmStep r o))
      (checkStart r o)
      (by
        rw [iterations_eq hfit, checkStart_toNat]
        exact hfit)
  rw [iterations_eq hfit, checkStart_toNat] at hloop
  rw [(periodicOn_inBoth hr ho).exists_iff_window (lcm_pos hr ho), ← hloop]
  simp only [doesIntersect, htest, hne, hsize, Bool.false_eq_true, if_false,
    decide_false, Bool.false_and, iterations_eq hfit]

end

end Interleaved

section Exactness

variable {r o : MemRegion}

/-- `intersect` and `doesIntersect` agree with set intersection. -/
structure IntersectExact (r o : MemRegion) : Prop where
  contains_iff : ∀ x : Addr,
    (∃ reg ∈ intersect r o, reg.contains x = true)
      ↔
    (r.contains x = true ∧ o.contains x = true)
  doesIntersect_iff :
    doesIntersect r o = true
      ↔
    ∃ x : Addr, r.contains x = true ∧ o.contains x = true

theorem WellFormed.contiguous_of_not_interleaved (h : r.WellFormed) (hint : ¬ r.Interleaved) :
    r.interleaveSize = 0 ∧ r.interleaveStep = 0 :=
  h.2.resolve_right hint

theorem WellFormed.inRegion_start (h : r.WellFormed) : InRegion r r.start.toNat := by
  refine ⟨le_refl _, UInt64.le_iff_toNat_le.1 h.1, ?_⟩
  rcases h.2 with h₀ | h₀
  · exact .inl h₀.1
  · right
    have := UInt64.lt_iff_toNat_lt.1 h₀.1
    simpa using this

theorem intersectExact_of_rangesApart (h : RangesApart r o) : IntersectExact r o := by
  have htest := (rangesApart_test r o).2 h
  constructor
  · intro x
    rw [contains_iff, contains_iff]
    simpa [intersect, htest, InBoth] using not_inBoth_of_rangesApart h x.toNat
  · rw [exists_contains_iff]
    simpa [doesIntersect, htest] using not_inBoth_of_rangesApart h

theorem intersectExact_self (hr : r.WellFormed) : IntersectExact r r := by
  by_cases hapart : RangesApart r r
  · exact intersectExact_of_rangesApart hapart
  · have htest := mt (rangesApart_test r r).1 hapart
    constructor
    · intro x
      simp [intersect, hr.1]
    · rw [exists_contains_iff]
      simp only [doesIntersect, htest, Bool.false_eq_true, if_false, if_true, true_iff]
      exact ⟨_, hr.inRegion_start, hr.inRegion_start⟩

theorem intersectExact_of_contiguous (hr : r.interleaveSize = 0) (ho : o.interleaveSize = 0)
    (hr' : r.WellFormed) (ho' : o.WellFormed) (hstep : o.interleaveStep = 0) :
    IntersectExact r o := by
  by_cases hapart : RangesApart r o
  · exact intersectExact_of_rangesApart hapart
  by_cases heq : r = o
  · subst heq
    exact intersectExact_self hr'
  have htest := mt (rangesApart_test r o).1 hapart
  have hreg : ∀ x : Nat, InBoth r o x ↔
      max r.start.toNat o.start.toNat ≤ x ∧
        x ≤ min r.end_.toNat o.end_.toNat := by
    intro x
    simp only [InBoth, InRegion, hr, ho, true_or, and_true]
    omega
  constructor
  · intro x
    have hboth := hreg x.toNat
    rw [contains_iff, contains_iff]
    unfold InBoth at hboth
    rw [hboth]
    simp [intersect, htest, heq, hr, hstep, MemRegion.contains_iff, InRegion,
      checkStart_toNat, minEnd_toNat]
  · rw [exists_contains_iff]
    simp only [doesIntersect, htest, heq, hr, hstep, Bool.false_eq_true,
      if_false, decide_true, Bool.and_self, if_true, true_iff]
    have h₁ := UInt64.le_iff_toNat_le.1 hr'.1
    have h₂ := UInt64.le_iff_toNat_le.1 ho'.1
    have h₃ : ¬ o.end_.toNat < r.start.toNat := fun h => hapart (.inl (UInt64.lt_iff_toNat_lt.2 h))
    have h₄ : ¬ r.end_.toNat < o.start.toNat := fun h => hapart (.inr (UInt64.lt_iff_toNat_lt.2 h))
    exact ⟨max r.start.toNat o.start.toNat, (hreg _).2 (by omega)⟩

theorem intersectExact_of_interleaved (hr : r.Interleaved) (ho : o.Interleaved) (hr' : r.WellFormed)
    (hfit : WindowFits r o) :
    IntersectExact r o := by
  by_cases hapart : RangesApart r o
  · exact intersectExact_of_rangesApart hapart
  by_cases heq : r = o
  · subst heq
    exact intersectExact_self hr'
  constructor
  · intro x
    rw [contains_intersect_interleaved hapart heq hr ho hfit,
      MemRegion.contains_iff, MemRegion.contains_iff]
    exact Iff.rfl
  · rw [doesIntersect_interleaved hapart heq hr ho hfit, exists_contains_iff]

theorem intersect_eq_nil_of_mixed (hr : r.WellFormed) (ho : o.WellFormed)
    (hmixed : ¬ (r.Interleaved ↔ o.Interleaved)) :
    intersect r o = [] ∧ doesIntersect r o = false := by
  have hne : r ≠ o := fun h => hmixed (h ▸ Iff.rfl)
  have hcases :
      (r.interleaveStep = 0 ∨ o.interleaveStep = 0) ∧
        ¬ (r.interleaveSize = 0 ∧ o.interleaveStep = 0) := by
    by_cases hint : r.Interleaved
    · have ho₀ := ho.contiguous_of_not_interleaved (fun h => hmixed (iff_of_true hint h))
      exact ⟨.inr ho₀.2, fun h => (ne_of_gt hint.1) h.1⟩
    · have hr₀ := hr.contiguous_of_not_interleaved hint
      have hoi : o.Interleaved := by
        by_contra h
        exact hmixed (iff_of_false hint h)
      have hpos : o.interleaveStep ≠ 0 := by
        rw [Ne, ← toNat_eq_zero_iff]
        have := hoi.step_pos
        omega
      exact ⟨.inl hr₀.2, fun h => hpos h.2⟩
  obtain ⟨hzero, heasy⟩ := hcases
  have hiter :
      iterations (checkStart r o) (checkStart r o + lcmStep r o) = 0 := by
    rw [lcmStep_eq_zero hzero]
    simp [iterations]
  have heasy' : (decide (r.interleaveSize = 0) &&
      decide (o.interleaveStep = 0)) = false := by
    rw [← Bool.not_eq_true, Bool.and_eq_true, decide_eq_true_iff, decide_eq_true_iff]
    exact heasy
  cases htest : (o.end_ < r.start || r.end_ < o.start) with
  | true =>
    simp [intersect, doesIntersect, htest]
  | false =>
    simp only [intersect, doesIntersect, htest, hne, heasy', hiter,
      intersectLoop, doesIntersectLoop, Bool.false_eq_true, if_false]
    simp

/--
On well-formed regions whose window fits in the words, both functions agree
with set intersection exactly if the operands are of one kind or disjoint.
-/
theorem intersectExact_iff (hr : r.WellFormed) (ho : o.WellFormed) (hfit : WindowFits r o) :
    IntersectExact r o
      ↔
    ((r.Interleaved ↔ o.Interleaved) ∨
      ¬ ∃ x : Addr, r.contains x = true ∧ o.contains x = true) := by
  by_cases hkind : r.Interleaved ↔ o.Interleaved
  · refine iff_of_true ?_ (.inl hkind)
    by_cases hint : r.Interleaved
    · exact intersectExact_of_interleaved hint (hkind.1 hint) hr hfit
    · have hr₀ := hr.contiguous_of_not_interleaved hint
      have ho₀ := ho.contiguous_of_not_interleaved (mt hkind.2 hint)
      exact intersectExact_of_contiguous hr₀.1 ho₀.1 hr ho ho₀.2
  · obtain ⟨hnil, hfalse⟩ := intersect_eq_nil_of_mixed hr ho hkind
    constructor
    · intro h
      right
      have hdoes := h.doesIntersect_iff
      rw [hfalse] at hdoes
      simpa using hdoes
    · intro h
      have hdisjoint := h.resolve_left hkind
      constructor
      · intro x
        rw [hnil]
        simpa using fun h₁ h₂ => hdisjoint ⟨x, h₁, h₂⟩
      · rw [hfalse]
        simpa using hdisjoint

/-- The equivalence at a contiguous range and an interleaved region over it. -/
theorem intersectExact_iff_mixed :
    IntersectExact ⟨0, 511, 0, 0⟩ ⟨0, 1023, 64, 256⟩
      ↔
    ((Interleaved ⟨0, 511, 0, 0⟩ ↔ Interleaved ⟨0, 1023, 64, 256⟩) ∨
      ¬ ∃ x : Addr,
        contains ⟨0, 511, 0, 0⟩ x = true ∧ contains ⟨0, 1023, 64, 256⟩ x = true) :=
  intersectExact_iff (by decide) (by decide) (by decide)

/--
The range `[0, 511]` and the region with a 64-byte chunk every 256 bytes of
`[0, 1023]` share address 0; the intersection computed for them is empty.
-/
theorem intersect_mixed_misses_shared_address :
    WellFormed ⟨0, 511, 0, 0⟩ ∧ WellFormed ⟨0, 1023, 64, 256⟩ ∧
      WindowFits ⟨0, 511, 0, 0⟩ ⟨0, 1023, 64, 256⟩ ∧
      contains ⟨0, 511, 0, 0⟩ 0 = true ∧
      contains ⟨0, 1023, 64, 256⟩ 0 = true ∧
      intersect ⟨0, 511, 0, 0⟩ ⟨0, 1023, 64, 256⟩ = [] ∧
      doesIntersect ⟨0, 511, 0, 0⟩ ⟨0, 1023, 64, 256⟩ = false ∧
      ¬ IntersectExact ⟨0, 511, 0, 0⟩ ⟨0, 1023, 64, 256⟩ := by
  have hempty :=
    intersect_eq_nil_of_mixed (r := ⟨0, 511, 0, 0⟩) (o := ⟨0, 1023, 64, 256⟩)
      (by decide) (by decide) (by decide)
  refine ⟨by decide, by decide, by decide, by decide, by decide,
    hempty.1, hempty.2, ?_⟩
  intro h
  have hdoes := h.doesIntersect_iff.2 ⟨0, by decide, by decide⟩
  rw [hempty.2] at hdoes
  exact Bool.false_ne_true hdoes

end Exactness

end SstElements.MemHierarchy.MemRegion
