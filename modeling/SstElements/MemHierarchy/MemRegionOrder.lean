import SstElements.MemHierarchy.MemRegion
import Mathlib.Data.String.Basic

/-!
# The orders on regions and endpoints

`MemRegion::operator<` compares start, then end, then the densities of the two
interleavings by cross multiplication on wrapping words.
`EndpointInfo::operator<` compares regions first and names within one region.

Both are used as the comparison of a `std::set`.  `StrictTotalOn lt key R`
collects what the set needs on the elements `R` it may hold: a strict weak
order whose equivalence is equality of `key`.  The main result characterises
the sets of regions and of endpoints for which the two operators provide this.
-/

namespace SstElements.MemHierarchy

open Library Bool

/-- An endpoint of the memory system, as far as the set of endpoints reads it. -/
structure EndpointInfo where
  name : String
  addr : UInt64
  id : UInt32
  region : MemRegion
deriving DecidableEq

/-- `operator<` of endpoints: by region, and by name within one region. -/
def EndpointInfo.lt (e o : EndpointInfo) : Bool :=
  if e.region ≠ o.region then MemRegion.lt e.region o.region
  else decide (e.name < o.name)

/-- The fields that the order of endpoints distinguishes. -/
def EndpointInfo.key (e : EndpointInfo) : MemRegion × String := (e.region, e.name)

universe u v

/--
A strict weak order on the elements of `R` whose equivalence is equality of
the key, as a `std::set` over `R` requires of its comparison.
-/
structure StrictTotalOn
    {α : Type u} {β : Type v}
    (lt : α → α → Bool) (key : α → β) (R : Set α) : Prop where
  irrefl : ∀ a ∈ R, lt a a = false
  asymm : ∀ a ∈ R, ∀ b ∈ R, lt a b = true → lt b a = false
  trans : ∀ a ∈ R, ∀ b ∈ R, ∀ c ∈ R,
    lt a b = true → lt b c = true → lt a c = true
  incomp_trans : ∀ a ∈ R, ∀ b ∈ R, ∀ c ∈ R,
    lt a b = false → lt b a = false → lt b c = false → lt c b = false →
      lt a c = false ∧ lt c a = false
  eq_of_incomp : ∀ a ∈ R, ∀ b ∈ R,
    lt a b = false → lt b a = false → key a = key b

section StrictTotal

variable {α : Type u} {β : Type v} {lt : α → α → Bool} {key : α → β}
variable {R : Set α}

/--
An asymmetric comparison that depends only on the key provides a strict total
order as soon as different keys are comparable and no three elements form a
cycle.
-/
theorem strictTotalOn_of_no_cycle (hasymm : ∀ a b, lt a b = true → lt b a = false)
    (hkey : ∀ a b, key a = key b → lt a b = false)
    (hcongr : ∀ a b c, key a = key b → lt a c = lt b c ∧ lt c a = lt c b)
    (htotal : ∀ a ∈ R, ∀ b ∈ R, lt a b = false → lt b a = false → key a = key b)
    (hcycle : ∀ a ∈ R, ∀ b ∈ R, ∀ c ∈ R, ¬ (lt a b = true ∧ lt b c = true ∧ lt c a = true)) :
    StrictTotalOn lt key R where
  irrefl := fun a _ => hkey a a rfl
  asymm := fun a _ b _ => hasymm a b
  trans := by
    intro a ha b hb c hc hab hbc
    by_contra hac
    have hac' : lt a c = false := by simpa using hac
    cases hca : lt c a with
    | true =>
      exact hcycle a ha b hb c hc ⟨hab, hbc, hca⟩
    | false =>
      have hk := htotal a ha c hc hac' hca
      have hcb := (hcongr a c b hk).1
      rw [hab] at hcb
      rw [hasymm b c hbc] at hcb
      exact false_ne_true hcb.symm
  incomp_trans := by
    intro a ha b hb c hc hab hba hbc hcb
    have hk := htotal a ha b hb hab hba
    obtain ⟨h₁, h₂⟩ := hcongr a b c hk
    exact ⟨h₁.trans hbc, h₂.trans hcb⟩
  eq_of_incomp := htotal

theorem StrictTotalOn.no_cycle (h : StrictTotalOn lt key R) :
    ∀ a ∈ R, ∀ b ∈ R, ∀ c ∈ R, ¬ (lt a b = true ∧ lt b c = true ∧ lt c a = true) := by
  rintro a ha b hb c hc ⟨hab, hbc, hca⟩
  have hac := h.trans a ha b hb c hc hab hbc
  rw [h.asymm a ha c hc hac] at hca
  exact false_ne_true hca

end StrictTotal

namespace MemRegion

def SameBounds (r o : MemRegion) : Prop := r.start = o.start ∧ r.end_ = o.end_

/-- One of the products that are compared, before it wraps. -/
def cross (r o : MemRegion) : Nat := r.interleaveSize.toNat * o.interleaveStep.toNat

variable {r o a b c : MemRegion}

theorem lt_eq_of_sameBounds (h : SameBounds r o) :
    lt r o = decide (cross r o % 2 ^ 64 < cross o r % 2 ^ 64) := by
  have hmul : r.interleaveStep * o.interleaveSize =
      o.interleaveSize * r.interleaveStep :=
    UInt64.mul_comm _ _
  simp only [lt, h.1, h.2, hmul, ne_eq, not_true_eq_false, if_false]
  rw [decide_eq_decide, UInt64.lt_iff_toNat_lt, UInt64.toNat_mul, UInt64.toNat_mul]
  exact Iff.rfl

theorem SameBounds.symm (h : SameBounds r o) : SameBounds o r :=
  ⟨h.1.symm, h.2.symm⟩

theorem SameBounds.trans {p : MemRegion} (h₁ : SameBounds r o) (h₂ : SameBounds o p) :
    SameBounds r p :=
  ⟨h₁.1.trans h₂.1, h₁.2.trans h₂.2⟩

theorem lt_or_lt_of_not_sameBounds (h : ¬ SameBounds r o) : lt r o = true ∨ lt o r = true := by
  by_cases hs : r.start = o.start
  · have he : r.end_ ≠ o.end_ := fun he => h ⟨hs, he⟩
    rcases lt_or_gt_of_ne he with hlt | hlt
    · left
      simp [lt, hs, he, hlt]
    · right
      simp [lt, hs, Ne.symm he, hlt]
  · rcases lt_or_gt_of_ne hs with hlt | hlt
    · left
      simp [lt, hs, hlt]
    · right
      simp [lt, Ne.symm hs, hlt]

theorem lt_asymm' (r o : MemRegion) (h : lt r o = true) : lt o r = false := by
  by_cases hb : SameBounds r o
  · rw [lt_eq_of_sameBounds hb] at h
    rw [lt_eq_of_sameBounds hb.symm]
    simp only [decide_eq_true_eq, decide_eq_false_iff_not] at h ⊢
    exact not_lt_of_gt h
  · by_cases hs : r.start = o.start
    · have he : r.end_ ≠ o.end_ := fun he => hb ⟨hs, he⟩
      simp only [lt, hs, he, Ne.symm he, ne_eq, not_true_eq_false, if_false,
        not_false_eq_true, if_true, decide_eq_true_eq, decide_eq_false_iff_not] at h ⊢
      exact not_lt_of_gt h
    · simp only [lt, hs, Ne.symm hs, ne_eq, not_false_eq_true, if_true,
        decide_eq_true_eq, decide_eq_false_iff_not] at h ⊢
      exact not_lt_of_gt h

theorem lt_irrefl' (r : MemRegion) : lt r r = false := by
  cases h : lt r r with
  | true =>
    exact (lt_asymm' r r h).symm.trans h ▸ rfl
  | false =>
    rfl

theorem sameBounds_of_cycle (hab : lt a b = true) (hbc : lt b c = true) (hca : lt c a = true) :
    SameBounds a b ∧ SameBounds b c := by
  have key : ∀ {r o : MemRegion}, lt r o = true →
      r.start ≤ o.start ∧ (r.start = o.start → r.end_ ≤ o.end_) := by
    intro r o h
    by_cases hs : r.start = o.start
    · refine ⟨le_of_eq hs, fun _ => ?_⟩
      by_cases he : r.end_ = o.end_
      · exact le_of_eq he
      · simp only [lt, hs, he, ne_eq, not_true_eq_false, if_false,
          not_false_eq_true, if_true, decide_eq_true_eq] at h
        exact le_of_lt h
    · simp only [lt, hs, ne_eq, not_false_eq_true, if_true, decide_eq_true_eq] at h
      exact ⟨le_of_lt h, fun h' => absurd h' hs⟩
  obtain ⟨h₁, e₁⟩ := key hab
  obtain ⟨h₂, e₂⟩ := key hbc
  obtain ⟨h₃, e₃⟩ := key hca
  have s₁ : a.start = b.start := le_antisymm h₁ (h₂.trans h₃)
  have s₂ : b.start = c.start := le_antisymm h₂ (h₃.trans h₁)
  have t₁ := e₁ s₁
  have t₂ := e₂ s₂
  have t₃ := e₃ (s₁.trans s₂).symm
  exact ⟨⟨s₁, le_antisymm t₁ (t₂.trans t₃)⟩, ⟨s₂, le_antisymm t₂ (t₃.trans t₁)⟩⟩

/-- Size and step of the interleaving in lowest terms. -/
def ratio (r : MemRegion) : Nat × Nat :=
  let d := Nat.gcd r.interleaveSize.toNat r.interleaveStep.toNat
  (r.interleaveSize.toNat / d, r.interleaveStep.toNat / d)

/-- The region has no interleaving, which stands for `0 / 0`. -/
def Contiguous (r : MemRegion) : Prop := r.interleaveSize = 0 ∧ r.interleaveStep = 0

/-- The regions have one density, or one of them has none. -/
def SameDensity (r o : MemRegion) : Prop := r.ratio = o.ratio ∨ r.Contiguous ∨ o.Contiguous

/-- Different products wrap to one word. -/
def WrapsOnto (r o : MemRegion) : Prop := cross r o ≠ cross o r ∧ cross r o ≡ cross o r [MOD 2 ^ 64]

/-- The second region is denser. -/
def Sparser (r o : MemRegion) : Prop := cross r o < cross o r

/-- The product of the denser region passes the end of the words more often, and is ahead by
less than that. -/
def Turned (r o : MemRegion) : Prop :=
  cross o r - cross r o < 2 ^ 64 * (cross o r / 2 ^ 64 - cross r o / 2 ^ 64)

/--
Different regions of `R` with equal bounds differ in density, and their products
do not wrap to one word.  Of three regions with increasing densities, the first
and the last are turned round by wrapping if their neighbours both are, and not
if neither are.
-/
structure DensitiesApart (R : Set MemRegion) : Prop where
  density_ne : ∀ a ∈ R, ∀ b ∈ R, SameBounds a b → a ≠ b → ¬ SameDensity a b ∧ ¬ WrapsOnto a b
  turned_iff : ∀ a ∈ R, ∀ b ∈ R, ∀ c ∈ R, SameBounds a b → SameBounds b c →
    Sparser a b → Sparser b c → (Turned a b ↔ Turned b c) → (Turned a c ↔ Turned a b)

/-- Fractions are equal by cross multiplication if they are in lowest terms, or one is `0 / 0`. -/
theorem reduced_eq_iff {m n m' n' : Nat} :
    (m / m.gcd n, n / m.gcd n) = (m' / m'.gcd n', n' / m'.gcd n') ∨ (m = 0 ∧ n = 0) ∨
        (m' = 0 ∧ n' = 0) ↔
      m * n' = m' * n := by
  by_cases hzero : m = 0 ∧ n = 0
  · simp [hzero]
  by_cases hzero' : m' = 0 ∧ n' = 0
  · simp [hzero']
  rw [or_iff_left (not_or.2 ⟨hzero, hzero'⟩)]
  obtain ⟨g, p, q, hg, hpq, rfl, rfl⟩ :=
    Nat.exists_coprime' (pos_of_ne_zero (mt Nat.gcd_eq_zero_iff.1 hzero))
  obtain ⟨g', p', q', hg', hpq', rfl, rfl⟩ :=
    Nat.exists_coprime' (pos_of_ne_zero (mt Nat.gcd_eq_zero_iff.1 hzero'))
  simp only [Nat.gcd_mul_right, hpq.gcd_eq_one, hpq'.gcd_eq_one, one_mul,
    Nat.mul_div_cancel _ hg, Nat.mul_div_cancel _ hg', Prod.mk.injEq]
  have hcancel : p * g * (q' * g') = p' * g' * (q * g) ↔ p * q' = p' * q := by
    rw [show p * g * (q' * g') = p * q' * (g * g') by ring,
      show p' * g' * (q * g) = p' * q * (g * g') by ring,
      Nat.mul_left_inj (Nat.mul_pos hg hg').ne']
  rw [hcancel]
  constructor
  · rintro ⟨rfl, rfl⟩
    rfl
  · intro h
    have hp : p = p' := Nat.dvd_antisymm
      (hpq.dvd_of_dvd_mul_right (Dvd.intro q' h))
      (hpq'.dvd_of_dvd_mul_right (Dvd.intro q h.symm))
    have hq : q = q' := Nat.dvd_antisymm
      (hpq.symm.dvd_of_dvd_mul_left (Dvd.intro_left p' h.symm))
      (hpq'.symm.dvd_of_dvd_mul_left (Dvd.intro_left p h))
    exact ⟨hp, hq⟩

theorem sameDensity_iff : SameDensity r o ↔ cross r o = cross o r := by
  rw [cross, cross, ← reduced_eq_iff]
  simp only [SameDensity, ratio, Contiguous, ← UInt64.toNat_inj, UInt64.toNat_zero]

/-- Two regions with equal bounds are equivalent exactly in a tie. -/
theorem tie_iff : SameDensity a b ∨ WrapsOnto a b ↔ cross a b % 2 ^ 64 = cross b a % 2 ^ 64 := by
  rw [sameDensity_iff, WrapsOnto, Nat.ModEq]
  constructor
  · rintro (heq | ⟨-, hmod⟩)
    · rw [heq]
    · exact hmod
  · exact fun hmod => or_iff_not_imp_left.2 fun hne => ⟨hne, hmod⟩

/-- Without a tie, the sparser region is smaller unless the two are turned round. -/
theorem Sparser.lt_iff (h : Sparser a b) (hsame : SameBounds a b)
    (htie : ¬ SameDensity a b ∧ ¬ WrapsOnto a b) :
    (lt a b = true ↔ ¬ Turned a b) ∧ (lt b a = true ↔ Turned a b) := by
  have hne : cross a b % 2 ^ 64 ≠ cross b a % 2 ^ 64 := fun heq => not_or.2 htie (tie_iff.2 heq)
  rw [lt_eq_of_sameBounds hsame, lt_eq_of_sameBounds hsame.symm, decide_eq_true_eq,
    decide_eq_true_eq]
  unfold Sparser at h
  unfold Turned
  omega

theorem Sparser.trans (hab : Sparser a b) (hbc : Sparser b c) : Sparser a c := by
  refine lt_of_mul_lt_mul_right ?_ (Nat.zero_le b.interleaveStep.toNat)
  calc a.interleaveSize.toNat * c.interleaveStep.toNat * b.interleaveStep.toNat
      = a.interleaveSize.toNat * b.interleaveStep.toNat * c.interleaveStep.toNat := by ring
    _ ≤ b.interleaveSize.toNat * a.interleaveStep.toNat * c.interleaveStep.toNat :=
      Nat.mul_le_mul_right _ hab.le
    _ = b.interleaveSize.toNat * c.interleaveStep.toNat * a.interleaveStep.toNat := by ring
    _ < c.interleaveSize.toNat * b.interleaveStep.toNat * a.interleaveStep.toNat :=
      Nat.mul_lt_mul_of_pos_right hbc (Nat.pos_of_mul_pos_left ((Nat.zero_le _).trans_lt hab))
    _ = c.interleaveSize.toNat * a.interleaveStep.toNat * b.interleaveStep.toNat := by ring

variable {R : Set MemRegion}

theorem DensitiesApart.eq_of_incomp (h : DensitiesApart R) (ha : a ∈ R) (hb : b ∈ R)
    (hab : lt a b = false) (hba : lt b a = false) :
    a = b := by
  by_cases hsame : SameBounds a b
  · by_contra hne
    rw [lt_eq_of_sameBounds hsame, decide_eq_false_iff_not] at hab
    rw [lt_eq_of_sameBounds hsame.symm, decide_eq_false_iff_not] at hba
    exact not_or.2 (h.density_ne a ha b hb hsame hne)
      (tie_iff.2 (le_antisymm (not_lt.1 hba) (not_lt.1 hab)))
  · rcases lt_or_lt_of_not_sameBounds hsame with hlt | hlt
    · rw [hab] at hlt
      exact absurd hlt false_ne_true
    · rw [hba] at hlt
      exact absurd hlt false_ne_true

theorem ne_of_lt' (h : lt a b = true) : a ≠ b := by
  rintro rfl
  rw [lt_irrefl'] at h
  exact false_ne_true h

section Cycle

variable (h : DensitiesApart R) (ha : a ∈ R) (hb : b ∈ R) (hc : c ∈ R)
include h ha hb hc

/-- There is no cycle from the sparsest of three regions. -/
theorem DensitiesApart.no_cycle_from (hleast : Sparser a b ∧ Sparser a c) :
    ¬ (lt a b = true ∧ lt b c = true ∧ lt c a = true) := by
  rintro ⟨hab, hbc, hca⟩
  obtain ⟨hsame, hsame'⟩ := sameBounds_of_cycle hab hbc hca
  have hlt := (hleast.1.lt_iff hsame (h.density_ne a ha b hb hsame (ne_of_lt' hab))).1.1 hab
  have hgt := (hleast.2.lt_iff (hsame.trans hsame')
    (h.density_ne a ha c hc (hsame.trans hsame') (ne_of_lt' hca).symm)).2.1 hca
  have hapart := h.density_ne b hb c hc hsame' (ne_of_lt' hbc)
  have hapart' := h.density_ne c hc b hb hsame'.symm (ne_of_lt' hbc).symm
  rcases Nat.lt_or_gt_of_ne (mt sameDensity_iff.2 hapart.1) with hlast | hlast
  · have hnot := (Sparser.lt_iff hlast hsame' hapart).1.1 hbc
    exact hlt ((h.turned_iff a ha b hb c hc hsame hsame' hleast.1 hlast
      (iff_of_false hlt hnot)).1 hgt)
  · have hturned := (Sparser.lt_iff hlast hsame'.symm hapart').2.1 hbc
    exact hlt ((h.turned_iff a ha c hc b hb (hsame.trans hsame') hsame'.symm hleast.2 hlast
      (iff_of_true hgt hturned)).2 hgt)

theorem DensitiesApart.no_cycle : ¬ (lt a b = true ∧ lt b c = true ∧ lt c a = true) := by
  rintro ⟨hab, hbc, hca⟩
  obtain ⟨hsame, hsame'⟩ := sameBounds_of_cycle hab hbc hca
  have hdensities {r o : MemRegion} (hr : r ∈ R) (ho : o ∈ R) (hbounds : SameBounds r o)
      (hlt : lt r o = true) : Sparser r o ∨ Sparser o r :=
    Nat.lt_or_gt_of_ne (mt sameDensity_iff.2 (h.density_ne r hr o ho hbounds (ne_of_lt' hlt)).1)
  have hfirst (hleast : Sparser a b ∧ Sparser a c) : False :=
    h.no_cycle_from ha hb hc hleast ⟨hab, hbc, hca⟩
  have hsecond (hleast : Sparser b c ∧ Sparser b a) : False :=
    h.no_cycle_from hb hc ha hleast ⟨hbc, hca, hab⟩
  have hthird (hleast : Sparser c a ∧ Sparser c b) : False :=
    h.no_cycle_from hc ha hb hleast ⟨hca, hab, hbc⟩
  rcases hdensities ha hb hsame hab with hdab | hdba
  · rcases hdensities hc ha (hsame.trans hsame').symm hca with hdca | hdac
    · exact hthird ⟨hdca, hdca.trans hdab⟩
    · exact hfirst ⟨hdab, hdac⟩
  · rcases hdensities hb hc hsame' hbc with hdbc | hdcb
    · exact hsecond ⟨hdbc, hdba⟩
    · exact hthird ⟨hdcb.trans hdba, hdcb⟩

end Cycle

theorem densitiesApart_of (htotal : ∀ a ∈ R, ∀ b ∈ R, lt a b = false → lt b a = false → a = b)
    (hcycle : ∀ a ∈ R, ∀ b ∈ R, ∀ c ∈ R, ¬ (lt a b = true ∧ lt b c = true ∧ lt c a = true)) :
    DensitiesApart R := by
  have hapart : ∀ a ∈ R, ∀ b ∈ R, SameBounds a b → a ≠ b →
      ¬ SameDensity a b ∧ ¬ WrapsOnto a b := by
    intro a ha b hb hsame hne
    refine not_or.1 fun htie => hne (htotal a ha b hb ?_ ?_)
    · rw [lt_eq_of_sameBounds hsame, tie_iff.1 htie]
      simp
    · rw [lt_eq_of_sameBounds hsame.symm, tie_iff.1 htie]
      simp
  refine ⟨hapart, fun a ha b hb c hc hsame hsame' hab hbc hturned => ?_⟩
  have hlt {r o : MemRegion} (hr : r ∈ R) (ho : o ∈ R) (hbounds : SameBounds r o)
      (hsparser : Sparser r o) : (lt r o = true ↔ ¬ Turned r o) ∧ (lt o r = true ↔ Turned r o) :=
    hsparser.lt_iff hbounds (hapart r hr o ho hbounds fun heq => lt_irrefl _ (heq ▸ hsparser))
  obtain ⟨hltab, hgtab⟩ := hlt ha hb hsame hab
  obtain ⟨hltbc, hgtbc⟩ := hlt hb hc hsame' hbc
  obtain ⟨hltac, hgtac⟩ := hlt ha hc (hsame.trans hsame') (hab.trans hbc)
  by_cases hboth : Turned a b
  · refine iff_of_true (by_contra fun hnot => ?_) hboth
    exact hcycle a ha c hc b hb ⟨hltac.2 hnot, hgtbc.2 (hturned.1 hboth), hgtab.2 hboth⟩
  · refine iff_of_false (fun hlast => ?_) hboth
    exact hcycle a ha b hb c hc ⟨hltab.2 hboth, hltbc.2 (mt hturned.2 hboth), hgtac.2 hlast⟩

/-- As long as no product wraps, only the densities count. -/
theorem densitiesApart_iff_of_lt
    (hlt : ∀ a ∈ R, ∀ b ∈ R, SameBounds a b → cross a b < 2 ^ 64) :
    DensitiesApart R ↔ ∀ a ∈ R, ∀ b ∈ R, SameBounds a b → a ≠ b → ¬ SameDensity a b := by
  constructor
  · exact fun h a ha b hb hsame hne => (h.density_ne a ha b hb hsame hne).1
  · refine fun h => ⟨fun a ha b hb hsame hne => ⟨h a ha b hb hsame hne, fun hwraps => ?_⟩, ?_⟩
    · exact hwraps.1 (hwraps.2.eq_of_lt_of_lt (hlt a ha b hb hsame) (hlt b hb a ha hsame.symm))
    · intro a ha b hb c hc hsame hsame' _ _ _
      have hnot {r o : MemRegion} (hr : r ∈ R) (ho : o ∈ R) (hbounds : SameBounds r o) :
          ¬ Turned r o := by
        rw [Turned, Nat.div_eq_of_lt (hlt o ho r hr hbounds.symm), Nat.zero_sub, mul_zero]
        exact Nat.not_lt_zero _
      exact iff_of_false (hnot ha hc (hsame.trans hsame')) (hnot ha hb hsame)

theorem strictTotalOn_region_iff (R : Set MemRegion) :
    StrictTotalOn lt id R ↔ DensitiesApart R := by
  constructor
  · intro h
    exact densitiesApart_of h.eq_of_incomp h.no_cycle
  · intro h
    refine strictTotalOn_of_no_cycle lt_asymm' ?_ ?_ ?_ ?_
    · rintro a b rfl
      exact lt_irrefl' a
    · rintro a b c rfl
      exact ⟨rfl, rfl⟩
    · intro a ha b hb
      exact h.eq_of_incomp ha hb
    · intro a ha b hb c hc
      exact h.no_cycle ha hb hc

end MemRegion

namespace EndpointInfo

open MemRegion

variable {e o : EndpointInfo}

theorem lt_eq_of_region_ne (h : e.region ≠ o.region) : lt e o = MemRegion.lt e.region o.region := by
  simp [lt, h]

theorem lt_eq_of_region_eq (h : e.region = o.region) : lt e o = decide (e.name < o.name) := by
  simp [lt, h]

theorem lt_asymm' (e o : EndpointInfo) (h : lt e o = true) : lt o e = false := by
  by_cases hr : e.region = o.region
  · rw [lt_eq_of_region_eq hr, decide_eq_true_eq] at h
    rw [lt_eq_of_region_eq hr.symm, decide_eq_false_iff_not]
    exact not_lt_of_gt h
  · rw [lt_eq_of_region_ne hr] at h
    rw [lt_eq_of_region_ne (Ne.symm hr)]
    exact MemRegion.lt_asymm' _ _ h

theorem lt_congr (p : EndpointInfo) (h : key e = key o) : lt e p = lt o p ∧ lt p e = lt p o := by
  have hr : e.region = o.region := congrArg Prod.fst h
  have hn : e.name = o.name := congrArg Prod.snd h
  simp [lt, hr, hn]

theorem region_cycle_of_cycle {f g : EndpointInfo}
    (hef : lt e f = true) (hfg : lt f g = true) (hge : lt g e = true) :
    MemRegion.lt e.region f.region = true ∧ MemRegion.lt f.region g.region = true ∧
      MemRegion.lt g.region e.region = true := by
  by_cases h₁ : e.region = f.region
  · by_cases h₂ : f.region = g.region
    · rw [lt_eq_of_region_eq h₁, decide_eq_true_eq] at hef
      rw [lt_eq_of_region_eq h₂, decide_eq_true_eq] at hfg
      rw [lt_eq_of_region_eq (h₁.trans h₂).symm, decide_eq_true_eq] at hge
      exact absurd (hef.trans (hfg.trans hge)) (lt_irrefl _)
    · have h₃ : g.region ≠ e.region := fun h => h₂ (h.trans h₁).symm
      rw [lt_eq_of_region_ne h₂] at hfg
      rw [lt_eq_of_region_ne h₃, h₁, MemRegion.lt_asymm' _ _ hfg] at hge
      exact absurd hge false_ne_true
  · by_cases h₂ : f.region = g.region
    · have h₃ : g.region ≠ e.region := fun h => h₁ (h₂.trans h).symm
      rw [lt_eq_of_region_ne h₁] at hef
      rw [lt_eq_of_region_ne h₃, ← h₂, MemRegion.lt_asymm' _ _ hef] at hge
      exact absurd hge false_ne_true
    · by_cases h₃ : g.region = e.region
      · rw [lt_eq_of_region_ne h₁] at hef
        rw [lt_eq_of_region_ne h₂, h₃, MemRegion.lt_asymm' _ _ hef] at hfg
        exact absurd hfg false_ne_true
      · rw [lt_eq_of_region_ne h₁] at hef
        rw [lt_eq_of_region_ne h₂] at hfg
        rw [lt_eq_of_region_ne h₃] at hge
        exact ⟨hef, hfg, hge⟩

theorem strictTotalOn_endpoint_iff (E : Set EndpointInfo) :
    StrictTotalOn lt key E ↔ DensitiesApart (region '' E) := by
  constructor
  · intro h
    refine densitiesApart_of ?_ ?_
    · rintro _ ⟨e, he, rfl⟩ _ ⟨f, hf, rfl⟩ hef hfe
      by_contra hne
      have hkey :=
        h.eq_of_incomp e he f hf
          ((lt_eq_of_region_ne hne).trans hef)
          ((lt_eq_of_region_ne (Ne.symm hne)).trans hfe)
      exact hne (congrArg Prod.fst hkey)
    · rintro _ ⟨e, he, rfl⟩ _ ⟨f, hf, rfl⟩ _ ⟨g, hg, rfl⟩ ⟨hef, hfg, hge⟩
      refine h.no_cycle e he f hf g hg ⟨?_, ?_, ?_⟩
      · exact (lt_eq_of_region_ne (ne_of_lt' hef)).trans hef
      · exact (lt_eq_of_region_ne (ne_of_lt' hfg)).trans hfg
      · exact (lt_eq_of_region_ne (ne_of_lt' hge)).trans hge
  · intro h
    refine strictTotalOn_of_no_cycle lt_asymm' ?_ ?_ ?_ ?_
    · intro e f hkey
      rw [(lt_congr f hkey).1]
      cases hff : lt f f with
      | true =>
        exact (lt_asymm' f f hff).symm.trans hff ▸ rfl
      | false =>
        rfl
    · intro e f g hkey
      exact lt_congr g hkey
    · intro e he f hf hef hfe
      by_cases hr : e.region = f.region
      · rw [lt_eq_of_region_eq hr, decide_eq_false_iff_not] at hef
        rw [lt_eq_of_region_eq hr.symm, decide_eq_false_iff_not] at hfe
        exact Prod.ext hr (le_antisymm (not_lt.1 hfe) (not_lt.1 hef))
      · rw [lt_eq_of_region_ne hr] at hef
        rw [lt_eq_of_region_ne (Ne.symm hr)] at hfe
        exact absurd
          (h.eq_of_incomp ⟨e, he, rfl⟩ ⟨f, hf, rfl⟩ hef hfe) hr
    · rintro e he f hf g hg ⟨hef, hfg, hge⟩
      exact h.no_cycle ⟨e, he, rfl⟩ ⟨f, hf, rfl⟩ ⟨g, hg, rfl⟩
        (region_cycle_of_cycle hef hfg hge)

end EndpointInfo

/-- Two interleavings of one range with equal densities. -/
def everyOtherByte : MemRegion :=
  { start := 0, end_ := 100, interleaveSize := 1, interleaveStep := 2 }

/-- See `everyOtherByte`. -/
def everyOtherPair : MemRegion :=
  { start := 0, end_ := 100, interleaveSize := 2, interleaveStep := 4 }

/--
Two different regions, and two endpoints that hold them, are equivalent in the
orders, so a set of regions or endpoints that holds the first drops the second.
-/
theorem orders_identify_equal_densities :
    (¬ StrictTotalOn MemRegion.lt id Set.univ ∧
      ¬ StrictTotalOn EndpointInfo.lt EndpointInfo.key Set.univ) ∧
    everyOtherByte ≠ everyOtherPair ∧
    setInsert MemRegion.lt everyOtherPair
      (setInsert MemRegion.lt everyOtherByte []) = [everyOtherByte] := by
  refine ⟨⟨?_, ?_⟩, by decide, by decide⟩
  · intro h
    have heq := h.eq_of_incomp everyOtherByte (Set.mem_univ _)
      everyOtherPair (Set.mem_univ _) (by decide) (by decide)
    exact absurd heq (by decide)
  · intro h
    have heq := h.eq_of_incomp
      { name := "m", addr := 0, id := 0, region := everyOtherByte }
      (Set.mem_univ _)
      { name := "m", addr := 0, id := 0, region := everyOtherPair }
      (Set.mem_univ _)
      (by simp [EndpointInfo.lt, MemRegion.lt, everyOtherByte, everyOtherPair])
      (by simp [EndpointInfo.lt, MemRegion.lt, everyOtherByte, everyOtherPair])
    exact absurd (congrArg Prod.fst heq) (by decide)

/--
The two operators serve a set of regions, or of endpoints, exactly if the
densities of the regions in it can be told apart.
-/
theorem strictTotalOn_iff_densitiesApart (R : Set MemRegion) (E : Set EndpointInfo) :
    (StrictTotalOn MemRegion.lt id R ↔ MemRegion.DensitiesApart R) ∧
      (StrictTotalOn EndpointInfo.lt EndpointInfo.key E ↔
        MemRegion.DensitiesApart (EndpointInfo.region '' E)) :=
  ⟨MemRegion.strictTotalOn_region_iff R, EndpointInfo.strictTotalOn_endpoint_iff E⟩

end SstElements.MemHierarchy
