import SstElements.MemHierarchy.LineViews

/-!
# Victim selection over runs of a cache array

A world is a cache array over one of the line types together with what its
lines point to.  `VictimWorld.step` is one call of the array or of a line.

A world is `InStep` if for every line the object captured at construction says
what the line is.  `step_inStep_iff` is the step lemma: a call keeps a world in
step exactly if it meets `keeps`.  In a world in step the victim is an invalid
way if there is one, and otherwise the policy's choice on what the lines are.
-/

namespace SstElements.MemHierarchy

open Library Function List Option

/-- A cache array and what its lines point to. -/
structure VictimWorld (K : LineKind) (P : ReplacementPolicy) where
  env : K.Env
  array : CacheArray K.Line P

/-- Calls of the array, of its lines, and of what they point to. -/
inductive ArrayCall (K : LineKind) where
  | setSliceAware (size step : Addr)
  | lookup (addr : Addr) (updateReplacement : Bool)
  | findReplacementCandidate (addr : Addr)
  | replace (addr : Addr) (candidate : Nat)
  | deallocate (candidate : Nat)
  | mutate (line : Nat) (m : K.Mutator)
  | env (e : K.EnvOp)

namespace VictimWorld

variable {K : LineKind} {P : ReplacementPolicy}

instance : ArrayLine K.Line := K.inst

/-- One call; a line argument is a line of the array. -/
def step (w : VictimWorld K P) : ArrayCall K → Option (VictimWorld K P)
  | .setSliceAware size stride =>
    some { w with array := w.array.setSliceAware size stride }
  | .lookup addr updateReplacement =>
    (w.array.lookup addr updateReplacement).map
      (fun r => { w with array := r.2 })
  | .findReplacementCandidate addr =>
    (w.array.findReplacementCandidate addr).map
      (fun r => { w with array := r.2 })
  | .replace addr candidate =>
    if candidate < w.array.numLines_ then
      (w.array.replace addr candidate).map (fun c => { w with array := c })
    else none
  | .deallocate candidate =>
    if candidate < w.array.numLines_ then
      some { w with array := w.array.deallocate candidate }
    else none
  | .mutate line m =>
    if line < w.array.numLines_ then
      some { w with
        array := w.array.setLine line (K.mutate (w.array.lines_ line) m) }
    else none
  | .env e => some { w with env := K.envStep w.env e }

/-- The condition under which a call keeps the policy informed. -/
def keeps (w : VictimWorld K P) : ArrayCall K → Prop
  | .replace _ candidate => K.resetKeeps w.env (w.array.lines_ candidate)
  | .deallocate candidate => K.resetKeeps w.env (w.array.lines_ candidate)
  | .mutate line m => K.mutateKeeps w.env (w.array.lines_ line) m
  | .env e =>
    ∀ i < w.array.numLines_, K.envKeeps w.env (w.array.lines_ i) e
  | _ => True

/-- For every line the policy is told what the line is. -/
def InStep (w : VictimWorld K P) : Prop :=
  ∀ i < w.array.numLines_, K.InStep w.env (w.array.lines_ i)

/-- The lines carry their indices, and there are sets and ways. -/
structure WellIndexed (w : VictimWorld K P) : Prop where
  lines : ∀ i, K.wf (w.array.lines_ i) i
  sets_pos : 0 < w.array.numSets_
  ways_pos : 0 < w.array.associativity_

section Step

variable {w t : VictimWorld K P} {call : ArrayCall K}

/-- What a call changes: one line, the environment, or only the bookkeeping. -/
inductive Change (w : VictimWorld K P) : ArrayCall K → VictimWorld K P → Prop where
  | same {call : ArrayCall K} {array : CacheArray K.Line P}
      (hkeeps : w.keeps call ↔ True)
      (hsets : array.numSets_ = w.array.numSets_)
      (hways : array.associativity_ = w.array.associativity_)
      (hlines : array.lines_ = w.array.lines_) :
      Change w call { w with array := array }
  | line {call : ArrayCall K} {array : CacheArray K.Line P}
      (i : Nat) (l : K.Line)
      (hi : i < w.array.numLines_)
      (hwf : K.wf (w.array.lines_ i) i → K.wf l i)
      (hkeeps : K.wf (w.array.lines_ i) i →
        K.InStep w.env (w.array.lines_ i) → (K.InStep w.env l ↔ w.keeps call))
      (hsets : array.numSets_ = w.array.numSets_)
      (hways : array.associativity_ = w.array.associativity_)
      (hlines : array.lines_ = update w.array.lines_ i l) :
      Change w call { w with array := array }
  | env (e : K.EnvOp) :
      Change w (.env e) { w with env := K.envStep w.env e }

theorem change_of_step (hK : K.Exact) (h : w.step call = some t) : Change w call t := by
  cases call with
  | setSliceAware size stride =>
    simp only [step, some.injEq] at h
    subst h
    exact .same Iff.rfl rfl rfl rfl
  | lookup addr updateReplacement =>
    obtain ⟨⟨i, c⟩, hlookup, rfl⟩ := map_eq_some_iff.1 h
    have hc : c.numSets_ = w.array.numSets_ ∧
        c.associativity_ = w.array.associativity_ ∧
        c.lines_ = w.array.lines_ := by
      simp only [CacheArray.lookup] at hlookup
      cases hway : w.array.findWay addr with
      | none =>
        simp only [hway, some.injEq, Prod.mk.injEq] at hlookup
        obtain ⟨-, rfl⟩ := hlookup
        exact ⟨rfl, rfl, rfl⟩
      | some way =>
        simp only [hway] at hlookup
        split at hlookup
        · obtain ⟨mgr, -, heq⟩ := map_eq_some_iff.1 hlookup
          cases heq
          exact ⟨rfl, rfl, rfl⟩
        · cases hlookup
          exact ⟨rfl, rfl, rfl⟩
    exact .same Iff.rfl hc.1 hc.2.1 hc.2.2
  | findReplacementCandidate addr =>
    obtain ⟨⟨i, c⟩, hfind, rfl⟩ := map_eq_some_iff.1 h
    obtain ⟨⟨j, mgr⟩, -, heq⟩ := map_eq_some_iff.1 hfind
    cases heq
    exact .same Iff.rfl rfl rfl rfl
  | replace addr candidate =>
    simp only [step] at h
    split at h
    · rename_i hlt
      obtain ⟨c, hreplace, rfl⟩ := map_eq_some_iff.1 h
      obtain ⟨mgr, -, rfl⟩ := map_eq_some_iff.1 hreplace
      refine .line candidate
        (K.inst.setAddr (K.inst.reset (w.array.lines_ candidate)) addr)
        hlt ?_ ?_ rfl rfl rfl
      · intro hwf
        exact hK.wf_setAddr _ _ _ (hK.wf_reset _ _ hwf)
      · intro hwf hin
        exact (hK.inStep_setAddr _ _ _).trans
          (hK.inStep_reset _ _ _ hwf hin)
    · cases h
  | deallocate candidate =>
    simp only [step] at h
    split at h
    · rename_i hlt
      simp only [some.injEq] at h
      subst h
      refine .line candidate (K.inst.reset (w.array.lines_ candidate))
        hlt ?_ ?_ rfl rfl rfl
      · intro hwf
        exact hK.wf_reset _ _ hwf
      · intro hwf hin
        exact hK.inStep_reset _ _ _ hwf hin
    · cases h
  | mutate line m =>
    simp only [step] at h
    split at h
    · rename_i hlt
      simp only [some.injEq] at h
      subst h
      refine .line line (K.mutate (w.array.lines_ line) m)
        hlt ?_ ?_ rfl rfl rfl
      · intro hwf
        exact hK.wf_mutate _ _ _ hwf
      · intro hwf hin
        exact hK.inStep_mutate _ _ _ _ hwf hin
    · cases h
  | env e =>
    simp only [step, some.injEq] at h
    subst h
    exact .env e

theorem WellIndexed.step (hK : K.Exact) (hw : WellIndexed w) (h : w.step call = some t) :
    WellIndexed t := by
  cases change_of_step hK h with
  | same hkeeps hsets hways hlines =>
    refine ⟨?_, hsets ▸ hw.sets_pos, hways ▸ hw.ways_pos⟩
    simp only [hlines]
    exact hw.lines
  | line i l hi hwf hkeeps hsets hways hlines =>
    refine ⟨?_, hsets ▸ hw.sets_pos, hways ▸ hw.ways_pos⟩
    intro j
    simp only [hlines]
    by_cases hj : j = i
    · subst hj
      rw [update_self]
      exact hwf (hw.lines j)
    · rw [update_of_ne hj]
      exact hw.lines j
  | env e =>
    exact ⟨hw.lines, hw.sets_pos, hw.ways_pos⟩

theorem step_inStep_iff (hK : K.Exact) (hw : WellIndexed w) (hin : InStep w)
    (h : w.step call = some t) :
    InStep t ↔ w.keeps call := by
  cases change_of_step hK h with
  | same hkeeps hsets hways hlines =>
    refine iff_of_true ?_ (hkeeps.2 trivial)
    simp only [InStep, CacheArray.numLines_, hsets, hways, hlines]
    exact hin
  | line i l hi hwf hkeeps hsets hways hlines =>
    simp only [InStep, CacheArray.numLines_, hsets, hways, hlines]
    rw [← hkeeps (hw.lines i) (hin i hi)]
    constructor
    · intro hall
      have hline := hall i hi
      rwa [update_self] at hline
    · intro hline j hj
      by_cases hji : j = i
      · subst hji
        rw [update_self]
        exact hline
      · rw [update_of_ne hji]
        exact hin j hj
  | env e =>
    constructor
    · intro hall i hi
      exact (hK.inStep_env _ _ _ _ (hw.lines i) (hin i hi)).1 (hall i hi)
    · intro hall i hi
      exact (hK.inStep_env _ _ _ _ (hw.lines i) (hin i hi)).2 (hall i hi)

end Step

section Victim

/-- The info that would describe a line as it is. -/
def viewOf (w : VictimWorld K P) (i : Nat) : ReplacementInfo := K.view w.env (w.array.lines_ i)

/-- The ways that an address can be stored in. -/
def ways (w : VictimWorld K P) (addr : Addr) : List Nat := w.array.waysOf (w.array.setOf addr)

def HasInvalidWay (w : VictimWorld K P) (addr : Addr) : Prop :=
  ∃ i ∈ w.ways addr, (w.viewOf i).state = .I

/--
The victim for an address: one of its ways; an invalid one if there is one;
otherwise what the policy chooses if shown the lines as they are.
-/
def PrefersInvalid (w : VictimWorld K P) (addr : Addr) : Prop :=
  ∃ victim t, w.array.findReplacementCandidate addr = some (victim, t) ∧
    victim ∈ w.ways addr ∧
    (w.HasInvalidWay addr → (w.viewOf victim).state = .I) ∧
    (¬ w.HasInvalidWay addr →
      ∃ mgr, P.choose w.array.replacementMgr_ ((w.ways addr).map w.viewOf) = some (victim, mgr))

variable {w : VictimWorld K P} {addr : Addr}

theorem WellIndexed.lt_numLines (hw : WellIndexed w) {i : Nat} (hi : i ∈ w.ways addr) :
    i < w.array.numLines_ := by
  obtain ⟨h₁, h₂⟩ := mem_range'_1.1 hi
  have hset : w.array.setOf addr < w.array.numSets_ := Nat.mod_lt _ hw.sets_pos
  calc
    i < w.array.setOf addr * w.array.associativity_ +
        w.array.associativity_ := h₂
    _ = (w.array.setOf addr + 1) * w.array.associativity_ := by ring
    _ ≤ w.array.numSets_ * w.array.associativity_ := Nat.mul_le_mul_right _ hset

theorem rInfo_eq_views (hw : WellIndexed w) (hin : InStep w) (addr : Addr) :
    w.array.rInfo (w.array.setOf addr) = (w.ways addr).map w.viewOf := by
  refine map_congr_left ?_
  intro i hi
  exact hin i (hw.lt_numLines hi)

section

variable (hK : K.Exact) (hw : WellIndexed w) (hin : InStep w)
include hK hw hin

theorem viewOf_index {i : Nat} (hi : i ∈ w.ways addr) :
    (w.viewOf i).index = i := by
  have hline : K.inst.capturedInfo (w.array.lines_ i) = w.viewOf i := hin i (hw.lt_numLines hi)
  rw [← hline]
  exact (hK.wf_index _ _ (hw.lines i)).2

theorem map_index_views (addr : Addr) :
    ((w.ways addr).map w.viewOf).map ReplacementInfo.index = w.ways addr := by
  rw [List.map_map]
  calc
    (w.ways addr).map (ReplacementInfo.index ∘ w.viewOf)
        = (w.ways addr).map id :=
      map_congr_left (fun i hi => viewOf_index hK hw hin hi)
    _ = w.ways addr := List.map_id _

theorem firstInvalid_some {r : ReplacementInfo}
    (h : firstInvalid ((w.ways addr).map w.viewOf) = some r) :
    r.index ∈ w.ways addr ∧ (w.viewOf r.index).state = .I := by
  have hmem := mem_of_find?_eq_some h
  have hstate : r.state = .I := by simpa using find?_some h
  obtain ⟨i, hi, rfl⟩ := mem_map.1 hmem
  rw [viewOf_index hK hw hin hi]
  exact ⟨hi, hstate⟩

end

theorem firstInvalid_none_iff :
    firstInvalid ((w.ways addr).map w.viewOf) = none ↔ ¬ w.HasInvalidWay addr := by
  simp [firstInvalid, HasInvalidWay, find?_eq_none]

end Victim

section Choice

variable {gen : Nat → UInt64} {associativity : Nat} {name : PolicyName}
variable {w : VictimWorld K (name.policy gen associativity)}

/--
In step, the victim is chosen as it should be, except that a direct-mapped
`NMRU` has no choice among valid ways.
-/
theorem prefersInvalid_iff (hK : K.Exact) (hw : WellIndexed w) (hin : InStep w)
    (hways : w.array.associativity_ = associativity) (addr : Addr) :
    w.PrefersInvalid addr ↔ (name = .nmru → associativity = 1 → w.HasInvalidWay addr) := by
  have hP := PolicyName.prefersInvalid gen associativity name
    w.array.replacementMgr_ ((w.ways addr).map w.viewOf)
  have hpos : 0 < associativity := hways ▸ hw.ways_pos
  have hlength : ((w.ways addr).map w.viewOf).length = associativity := by
    simp [ways, CacheArray.waysOf, hways]
  have hfind : w.array.findReplacementCandidate addr =
      ((name.policy gen associativity).findBestCandidate
        w.array.replacementMgr_ ((w.ways addr).map w.viewOf)).map
          (fun r => (r.1, { w.array with replacementMgr_ := r.2 })) := by
    rw [CacheArray.findReplacementCandidate, rInfo_eq_views hw hin]
  by_cases hinv : w.HasInvalidWay addr
  · refine iff_of_true ?_ fun _ _ => hinv
    cases hfirst : firstInvalid ((w.ways addr).map w.viewOf) with
    | none =>
      exact absurd hinv (firstInvalid_none_iff.1 hfirst)
    | some r =>
      obtain ⟨mgr, hbest⟩ := hP.1 r hfirst
      obtain ⟨hmem, hstate⟩ := firstInvalid_some hK hw hin hfirst
      refine ⟨r.index, { w.array with replacementMgr_ := mgr }, ?_, hmem,
        fun _ => hstate, fun hno => absurd hinv hno⟩
      rw [hfind, hbest]
      rfl
  · have hbest := hP.2 (firstInvalid_none_iff.2 hinv)
    rw [hbest] at hfind
    have hsome := PolicyName.choose_isSome_iff hlength hpos
      w.array.replacementMgr_
    constructor
    · rintro ⟨victim, t, hcand, -, -, -⟩ hname hone
      rw [hfind] at hcand
      obtain ⟨c, hc, -⟩ := map_eq_some_iff.1 hcand
      rw [hc] at hsome
      exact absurd hone (hsome.1 rfl hname)
    · intro hcond
      have hchoice := hsome.2 (fun hname hone => hinv (hcond hname hone))
      obtain ⟨⟨victim, mgr⟩, hc⟩ := isSome_iff_exists.1 hchoice
      refine ⟨victim, { w.array with replacementMgr_ := mgr }, ?_, ?_,
        fun h => absurd h hinv, fun _ => ⟨mgr, hc⟩⟩
      · rw [hfind, hc]
        rfl
      · have hindex := map_index_views hK hw hin addr
        have hrange : w.ways addr = range'
            (w.array.setOf addr * associativity) associativity := by
          simp [ways, CacheArray.waysOf, hways]
        rw [hrange] at hindex hc ⊢
        exact PolicyName.choose_mem hindex hc

theorem wellIndexed_new (hK : K.Exact)
    {numLines lineSize : Nat} {hash : Addr → UInt64} {array : CacheArray K.Line P}
    (hnew : CacheArray.new P numLines associativity lineSize hash
      (K.newLine lineSize) = some array) :
    WellIndexed (⟨K.newEnv, array⟩ : VictimWorld K P) ∧
      InStep (⟨K.newEnv, array⟩ : VictimWorld K P) ∧ array.associativity_ = associativity := by
  simp only [CacheArray.new] at hnew
  split at hnew
  · cases hnew
  · rename_i hcheck
    simp only [Bool.or_eq_true, decide_eq_true_eq, not_or] at hcheck
    split at hnew
    · simp only [some.injEq] at hnew
      subst hnew
      refine ⟨⟨?_, ?_, ?_⟩, ?_, rfl⟩
      · exact fun i => hK.wf_new lineSize i
      · exact pos_of_ne_zero hcheck.1.2
      · exact pos_of_ne_zero hcheck.1.1.2
      · exact fun i _ => hK.inStep_new lineSize i
    · cases hnew

theorem step_associativity (hK : K.Exact) {w t : VictimWorld K P} {call : ArrayCall K}
    (h : w.step call = some t) :
    t.array.associativity_ = w.array.associativity_ := by
  cases change_of_step hK h with
  | same hkeeps hsets hways hlines => exact hways
  | line i l hi hwf hkeeps hsets hways hlines => exact hways
  | env e => rfl

end Choice

end VictimWorld

open VictimWorld

/--
For every line type, policy, geometry and hash function, and every run of
calls: the policy is told what each line is, and every victim is chosen with
preference for invalid ways, in every state of the run, exactly if

* lines are reset only when idle, directory lines are only set to state I,
  owners have names, and data lines are only given, and keep, idle tags; and
* a direct-mapped `NMRU` always finds an invalid way.
-/
theorem victim_selection_iff (cls : LineClass) (name : PolicyName) (gen : Nat → UInt64)
    (numLines associativity lineSize : Nat) (hash : Addr → UInt64)
    (array : CacheArray cls.kind.Line (name.policy gen associativity))
    (hnew : CacheArray.new (name.policy gen associativity) numLines
      associativity lineSize hash (cls.kind.newLine lineSize) = some array)
    (calls : List (ArrayCall cls.kind)) (t : VictimWorld cls.kind (name.policy gen associativity))
    (hrun : runOps VictimWorld.step ⟨cls.kind.newEnv, array⟩ calls = some t) :
    Throughout VictimWorld.step
        (fun w => InStep w ∧ ∀ addr, w.PrefersInvalid addr)
        ⟨cls.kind.newEnv, array⟩ calls
      ↔
    StepsMeet VictimWorld.step keeps ⟨cls.kind.newEnv, array⟩ calls ∧
      Throughout VictimWorld.step
        (fun w => name = .nmru → associativity = 1 → ∀ addr, w.HasInvalidWay addr)
        ⟨cls.kind.newEnv, array⟩ calls := by
  have hK := cls.exact
  obtain ⟨hw, hin, hways⟩ := wellIndexed_new hK hnew
  have hgood : ∀ (w u : VictimWorld cls.kind (name.policy gen associativity)) call,
      WellIndexed w ∧ w.array.associativity_ = associativity →
      w.step call = some u →
      WellIndexed u ∧ u.array.associativity_ = associativity := by
    intro w u call hq hstep
    exact ⟨hq.1.step hK hstep, (step_associativity hK hstep).trans hq.2⟩
  have hviews := throughout_iff_stepsMeet
    (Q := fun w => WellIndexed w ∧ w.array.associativity_ = associativity)
    (fun w call u hq hstep => hgood w u call hq hstep)
    (fun w call u hq hi hstep => step_inStep_iff hK hq.1 hi hstep)
    ⟨hw, hways⟩ hin hrun
  have hvictim : ∀ w : VictimWorld cls.kind (name.policy gen associativity),
      WellIndexed w ∧ w.array.associativity_ = associativity → InStep w →
      ((∀ addr, w.PrefersInvalid addr) ↔
        (name = .nmru → associativity = 1 → ∀ addr, w.HasInvalidWay addr)) := by
    intro w hq hi
    constructor
    · intro h hname hone addr
      exact (prefersInvalid_iff hK hq.1 hi hq.2 addr).1 (h addr) hname hone
    · intro h addr
      exact (prefersInvalid_iff hK hq.1 hi hq.2 addr).2
        (fun hname hone => h hname hone addr)
  have hreached : ∀ pre u, runOps VictimWorld.step
      (⟨cls.kind.newEnv, array⟩ : VictimWorld cls.kind _) pre = some u →
      WellIndexed u ∧ u.array.associativity_ = associativity := by
    intro pre u hu
    exact runOps_invariant (fun w call v hq hstep => hgood w v call hq hstep)
      ⟨hw, hways⟩ hu
  rw [throughout_and_iff, ← hviews]
  constructor
  · rintro ⟨hA, hB⟩
    refine ⟨hA, fun pre u hpre hu => ?_⟩
    exact (hvictim u (hreached pre u hu) (hA pre u hpre hu)).1 (hB pre u hpre hu)
  · rintro ⟨hA, hC⟩
    refine ⟨hA, fun pre u hpre hu => ?_⟩
    exact (hvictim u (hreached pre u hu) (hA pre u hpre hu)).2 (hC pre u hpre hu)

/-- A two-way L1 array under `MRU`. -/
def mruPair : CacheArray L1CacheLine MRU where
  numSets_ := 1
  associativity_ := 2
  lineOffset_ := 6
  lineSize_ := 64
  sliceSize_ := 1
  sliceStep_ := 1
  hash_ := fun a => a
  replacementMgr_ := MRU.init
  lines_ := L1CacheLine.new 64

def fillAndDeallocate : List (ArrayCall l1Kind) :=
  [.replace 0 0, .mutate 0 (.setState .S), .replace 64 1, .mutate 1 (.setState .S), .deallocate 0]

/-- The equivalence at a run that fills both ways and never deallocates. -/
theorem victim_selection_iff_fill :
    StepsMeet VictimWorld.step keeps
        (⟨(), mruPair⟩ : VictimWorld l1Kind MRU) (fillAndDeallocate.take 4) ∧
      Throughout VictimWorld.step
        (fun w => InStep w ∧ ∀ addr, w.PrefersInvalid addr)
        (⟨(), mruPair⟩ : VictimWorld l1Kind MRU) (fillAndDeallocate.take 4) := by
  have hmeet : StepsMeet VictimWorld.step keeps
      (⟨(), mruPair⟩ : VictimWorld l1Kind MRU) (fillAndDeallocate.take 4) := by
    refine ⟨rfl, fun w₁ h₁ => ⟨trivial, fun w₂ h₂ => ?_⟩⟩
    cases h₁
    cases h₂
    exact ⟨rfl, fun w₃ h₃ => ⟨trivial, fun w₄ h₄ => trivial⟩⟩
  refine ⟨hmeet, ?_⟩
  refine (victim_selection_iff .l1CacheLine .mru (fun _ => 0) 2 2 64
    (fun a => a) mruPair rfl (fillAndDeallocate.take 4) _ rfl).2 ⟨hmeet, ?_⟩
  intro pre u _ _ hname
  exact absurd hname (by decide)

/--
After both ways of an `MRU` set were filled and the first one was deallocated,
the policy is still told that the first way is in S; the victim is the second,
valid way although the first one is invalid.
-/
theorem stale_info_evicts_valid_way :
    ∃ t : VictimWorld l1Kind MRU,
      runOps VictimWorld.step ⟨(), mruPair⟩ fillAndDeallocate = some t ∧
      ¬ InStep t ∧ t.HasInvalidWay 128 ∧
      (∃ array, t.array.findReplacementCandidate 128 = some (1, array)) ∧
      (t.viewOf 1).state = .S ∧
      ¬ t.PrefersInvalid 128 := by
  refine ⟨_, rfl, ?_, ⟨0, by decide, rfl⟩, ⟨_, rfl⟩, rfl, ?_⟩
  · intro h
    have hinfo := congrArg ReplacementInfo.state (h 0 (by decide))
    exact absurd hinfo (by decide)
  · rintro ⟨victim, array, hfind, -, hinvalid, -⟩
    have hvictim : 1 = victim := congrArg Prod.fst (some.inj hfind)
    have hstate := hinvalid ⟨0, by decide, rfl⟩
    rw [← hvictim] at hstate
    exact absurd hstate (by decide)

end SstElements.MemHierarchy
