import SstElements.MemHierarchy.CacheArray

/-!
# Choices of the not-most-recently-used policy

The ways of a set have consecutive indices that start at a multiple of the
associativity.  `NMRU` draws a number below the associativity less one and skips
the way that its table names for the set.
-/

namespace SstElements.MemHierarchy

open Library List Option Nat

/-- The state after a list of updates, newest first, whatever the generator. -/
def nmruAfter (ways : Nat) (ids : List Nat) : NMRUState :=
  ids.foldr
    (fun id s => { s with array := Function.update s.array (id / ways) (id % ways) })
    { array := fun _ => 0, draws := 0 }

/-- The way of a set that was updated last, if any was. -/
def lastUpdated (ways set : Nat) (ids : List Nat) : Option Nat :=
  ids.find? (fun id => id / ways = set)

/-- The way that `findBestCandidate` returns if the generator returns `draw`. -/
def nmruFound (ways : Nat) (s : NMRUState) (rInfo : List ReplacementInfo)
    (draw : UInt64) : Option Nat :=
  ((NMRU (fun _ => draw) ways).findBestCandidate s rInfo).map Prod.fst

/-- What the policy promises for a set after some updates. -/
structure NotMostRecent (ways set : Nat) (ids : List Nat)
    (rInfo : List ReplacementInfo) : Prop where
  invalid : ∀ r, firstInvalid rInfo = some r →
    ∀ draw, nmruFound ways (nmruAfter ways ids) rInfo draw = some r.index
  inside : firstInvalid rInfo = none → ∀ draw,
    ∃ i ∈ rInfo.map ReplacementInfo.index,
      nmruFound ways (nmruAfter ways ids) rInfo draw = some i ∧
        (2 ≤ ways → lastUpdated ways set ids ≠ some i)
  every : firstInvalid rInfo = none →
    ∀ i ∈ rInfo.map ReplacementInfo.index, lastUpdated ways set ids ≠ some i →
      ∃ draw, nmruFound ways (nmruAfter ways ids) rInfo draw = some i

section Choice

variable {ways set : Nat} {ids : List Nat} {rInfo : List ReplacementInfo}

theorem array_nmruAfter :
    (nmruAfter ways ids).array set =
      ((lastUpdated ways set ids).map (fun id => id % ways)).getD 0 := by
  induction ids with
  | nil =>
    rfl
  | cons id ids ih =>
    by_cases heq : id / ways = set
    · have hfind : lastUpdated ways set (id :: ids) = some id :=
        find?_cons_of_pos (by simpa using heq)
      rw [hfind]
      simp [nmruAfter, heq]
    · have hfind : lastUpdated ways set (id :: ids) = lastUpdated ways set ids :=
        find?_cons_of_neg (by simpa using heq)
      rw [hfind, ← ih]
      exact Function.update_of_ne (Ne.symm heq) _ _

theorem lastUpdated_eq_none_iff :
    lastUpdated ways set ids = none ↔ ¬ ∃ id ∈ ids, id / ways = set := by
  simp [lastUpdated, find?_eq_none]

theorem nmruFound_eq (hpos : 0 < ways)
    (hways : rInfo.map ReplacementInfo.index = range' (set * ways) ways)
    (hvalid : firstInvalid rInfo = none) (s : NMRUState) (draw : UInt64) :
    nmruFound ways s rInfo draw = if ways = 1 then none
      else some
        (if draw.toNat % (ways - 1) < s.array set then
          set * ways + draw.toNat % (ways - 1)
        else set * ways + draw.toNat % (ways - 1) + 1) := by
  obtain ⟨n, rfl⟩ : ∃ n, ways = n + 1 := ⟨ways - 1, by omega⟩
  cases rInfo with
  | nil =>
    simp at hways
  | cons r rest =>
    rw [map_cons, range'_succ, cons.injEq] at hways
    have hset : r.index / (n + 1) = set := by rw [hways.1, Nat.mul_div_cancel set hpos]
    simp only [nmruFound, NMRU, hvalid, nmruChoice, head?_cons, hset]
    rw [hways.1]
    by_cases hone : n = 0
    · simp [hone]
    · simp [hone]

theorem exists_draw {m k : Nat} (hm : m < k) (hk : k ≤ 2 ^ 64) :
    ∃ draw : UInt64, draw.toNat % k = m := by
  refine ⟨UInt64.ofNat m, ?_⟩
  rw [UInt64.toNat_ofNat', mod_eq_of_lt (show m < 2 ^ 64 by omega), mod_eq_of_lt hm]

theorem notMostRecent_of_updated (htwo : 2 ≤ ways) (hword : ways < 2 ^ 32)
    (hways : rInfo.map ReplacementInfo.index = range' (set * ways) ways)
    (hvalid : firstInvalid rInfo = none) {id : Nat} (hlast : lastUpdated ways set ids = some id) :
    NotMostRecent ways set ids rInfo := by
  have hpos : 0 < ways := by omega
  have hdiv : id / ways = set := by simpa using find?_some hlast
  have hid : set * ways + id % ways = id := by
    rw [← hdiv, mul_comm]
    exact div_add_mod id ways
  have hmod : id % ways < ways := mod_lt id hpos
  have hfound : ∀ draw, nmruFound ways (nmruAfter ways ids) rInfo draw =
      some (if draw.toNat % (ways - 1) < id % ways then
          set * ways + draw.toNat % (ways - 1)
        else set * ways + draw.toNat % (ways - 1) + 1) := by
    intro draw
    rw [nmruFound_eq hpos hways hvalid, if_neg (by omega), array_nmruAfter, hlast]
    rfl
  have hmem : ∀ i, i ∈ rInfo.map ReplacementInfo.index ↔
      set * ways ≤ i ∧ i < set * ways + ways := by
    intro i
    rw [hways, mem_range'_1]
  refine ⟨fun r hr => ?_, fun _ draw => ?_, fun _ i hi hne => ?_⟩
  · rw [hvalid] at hr
    cases hr
  · have hdraw : draw.toNat % (ways - 1) < ways - 1 := mod_lt _ (by omega)
    refine ⟨_, (hmem _).2 ?_, hfound draw, fun _ => ?_⟩
    · split <;> omega
    · rw [hlast, Ne, some.injEq]
      split <;> omega
  · rw [hmem] at hi
    rw [hlast, Ne, some.injEq] at hne
    by_cases hbelow : i < id
    · obtain ⟨draw, hdraw⟩ := @exists_draw (i - set * ways) (ways - 1)
        (by omega) (by omega)
      refine ⟨draw, ?_⟩
      rw [hfound, hdraw, if_pos (by omega)]
      congr 1
      omega
    · obtain ⟨draw, hdraw⟩ := @exists_draw (i - set * ways - 1) (ways - 1)
        (by omega) (by omega)
      refine ⟨draw, ?_⟩
      rw [hfound, hdraw, if_neg (by omega)]
      congr 1
      omega

end Choice

section Geometry

variable {T : Type} [ArrayLine T]

/--
For every geometry the constructor accepts, the policy keeps its promise for a
set exactly if a way is invalid, or there are two ways or more and one of the
set was updated.
-/
theorem nmru_correct_iff {gen : Nat → UInt64} {numLines associativity lineSize : Nat}
    {hash : Addr → UInt64} {newLine : Nat → T} {c : CacheArray T (NMRU gen associativity)}
    (hnew : CacheArray.new (NMRU gen associativity) numLines associativity
      lineSize hash newLine = some c)
    (hlines : numLines < 2 ^ 32)
    (ids : List Nat) {set : Nat}
    (hset : set < c.numSets_)
    {rInfo : List ReplacementInfo}
    (hways : rInfo.map ReplacementInfo.index = c.waysOf set) :
    NotMostRecent associativity set ids rInfo ↔
      (∃ r ∈ rInfo, r.state = .I) ∨
        2 ≤ associativity ∧ ∃ id ∈ ids, id / associativity = set := by
  obtain ⟨hassoc, hpos, hle⟩ : c.associativity_ = associativity ∧
      0 < associativity ∧ associativity ≤ numLines := by
    unfold CacheArray.new at hnew
    simp only [Bool.or_eq_true, decide_eq_true_eq] at hnew
    split at hnew
    · cases hnew
    · rename_i hchecks
      split at hnew
      · cases hnew
        refine ⟨rfl, by omega, Nat.le_of_not_lt fun hlt => hchecks ?_⟩
        exact .inl (.inr (div_eq_of_lt hlt))
      · cases hnew
  have hrange : rInfo.map ReplacementInfo.index =
      range' (set * associativity) associativity := by
    rw [hways, CacheArray.waysOf, hassoc]
  cases hfirst : firstInvalid rInfo with
  | some r =>
    have hmem : r ∈ rInfo := mem_of_find?_eq_some hfirst
    have hstate : r.state = .I := by simpa using find?_some hfirst
    refine ⟨fun _ => .inl ⟨r, hmem, hstate⟩, fun _ => ⟨?_, ?_, ?_⟩⟩
    · intro r' hr' draw
      simp [nmruFound, NMRU, hr']
    · intro hnone
      rw [hfirst] at hnone
      cases hnone
    · intro hnone
      rw [hfirst] at hnone
      cases hnone
  | none =>
    have hvalid : ¬ ∃ r ∈ rInfo, r.state = .I := by
      rw [firstInvalid, find?_eq_none] at hfirst
      rintro ⟨r, hr, hstate⟩
      exact hfirst r hr (by simpa using hstate)
    constructor
    · intro h
      obtain ⟨i, -, hfound, -⟩ := h.inside hfirst 0
      rw [nmruFound_eq hpos hrange hfirst] at hfound
      have hone : associativity ≠ 1 := by
        intro hone
        rw [if_pos hone] at hfound
        cases hfound
      refine .inr ⟨by omega, ?_⟩
      by_contra hnever
      -- Without an update the table names way zero, which is never returned.
      have hlast := lastUpdated_eq_none_iff.2 hnever
      obtain ⟨draw, hdraw⟩ := h.every hfirst (set * associativity)
        (by
          rw [hrange, mem_range'_1]
          omega)
        (by
          rw [hlast]
          exact (some_ne_none _).symm)
      rw [nmruFound_eq hpos hrange hfirst, if_neg hone, array_nmruAfter, hlast,
        some.injEq] at hdraw
      simp at hdraw
      omega
    · rintro (hinvalid | ⟨htwo, hupdated⟩)
      · exact absurd hinvalid hvalid
      · cases hlast : lastUpdated associativity set ids with
        | none =>
          exact absurd hupdated (lastUpdated_eq_none_iff.1 hlast)
        | some id =>
          exact notMostRecent_of_updated htwo (by omega) hrange hfirst hlast

/-- The second of two sets of two ways, both valid, the first of them used last. -/
theorem nmru_correct_iff_twoWays : NotMostRecent 2 1 [2, 3] [⟨2, .S, none⟩, ⟨3, .S, none⟩] :=
  (@nmru_correct_iff L1CacheLine _ (fun _ => 0) 4 2 64 id (L1CacheLine.new 64) _
    rfl (by decide) [2, 3] 1 (by decide) _ rfl).2 (.inr ⟨by decide, 2, by simp⟩)

/--
A direct-mapped array with its way valid divides by zero, and a set that was
never updated does not return its first way.
-/
theorem not_nmru_correct :
    (CacheArray.new (NMRU (fun _ => 0) 1) 4 1 64 id (L1CacheLine.new 64)).isSome ∧
    nmruFound 1 (nmruAfter 1 [0]) [⟨0, .S, none⟩] 0 = none ∧
    ∀ draw, nmruFound 2 (nmruAfter 2 []) [⟨0, .S, none⟩, ⟨1, .S, none⟩] draw ≠
      some 0 := by
  refine ⟨rfl, rfl, fun draw => ?_⟩
  rw [@nmruFound_eq 2 0 _ (by decide) rfl rfl, if_neg (by decide)]
  simp [nmruAfter]

end Geometry

end SstElements.MemHierarchy
