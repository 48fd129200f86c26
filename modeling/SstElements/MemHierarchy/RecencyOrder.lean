import SstElements.MemHierarchy.Replacement

/-!
# Recency order of the stamping policies

A history is the list of the calls to `update` and `replaced`, the newest call
first.  The stamps of a policy number the updates, so that the order of the
stamps is the order in which the ways were last used.
-/

namespace SstElements.MemHierarchy

open Library Function BitVec List

/-- Calls that record uses and replacements. -/
inductive StampCall where
  | update (id : Nat)
  | replaced (id : Nat)
deriving DecidableEq, Repr

/-- The stamps after a history, newest call first. -/
def stampsAfter : List StampCall → Stamps
  | [] => Stamps.init
  | .update id :: older => (stampsAfter older).update id
  | .replaced id :: older => (stampsAfter older).replaced id

/-- Number of updates of a history. -/
def updates : List StampCall → Nat
  | [] => 0
  | .update _ :: older => updates older + 1
  | .replaced _ :: older => updates older

/-- The number of the last update of a way; zero if it was never used or was
replaced since. -/
def lastUse : List StampCall → Nat → Nat
  | [], _ => 0
  | .update i :: older, id => if i = id then updates older + 1 else lastUse older id
  | .replaced i :: older, id => if i = id then 0 else lastUse older id

/--
The value returned through an `int32_t bestCandidate`: the index is read as a
signed number and extended to `uint64_t`.
-/
def throughInt32 (index : Nat) : UInt64 := (UInt32.ofNat index).toInt32.toInt64.toUInt64

/-- The `unsigned int id` that the cache array makes of a returned value. -/
def arrayIndex (returned : UInt64) : Nat := returned.toUInt32.toNat

/-- The line that the cache array evicts on the choice of a policy. -/
def evictedIndex (P : ReplacementPolicy) (returned : Nat → UInt64) (mgr : P.Mgr)
    (ways : List ReplacementInfo) : Option Nat :=
  (P.findBestCandidate mgr ways).map (fun r => arrayIndex (returned r.1))

section Keys

variable {ρ κ : Type} [LinearOrder κ]
variable {better : ρ → ρ → Bool} {rank : ReplacementInfo → ρ}
variable {key : ReplacementInfo → κ}

/-- The choice is the first way of least key, whatever the order of the ways. -/
structure ChoosesLeast (key : ReplacementInfo → κ)
    (choose : List ReplacementInfo → Option Nat)
    (ways : List ReplacementInfo) : Prop where
  least : ∃ w ∈ ways, choose ways = some w.index ∧
    (∀ v ∈ ways, key w ≤ key v) ∧
    ∀ v ∈ ways, key v ≤ key w → ways.idxOf w ≤ ways.idxOf v
  perm : (ways.map key).Nodup →
    ∀ ways', ways'.Perm ways → choose ways' = choose ways

theorem bestFrom_eq_argmin {w : ReplacementInfo} {rest : List ReplacementInfo}
    (h : ∀ a ∈ w :: rest, ∀ b ∈ w :: rest, better (rank a) (rank b) = decide (key a < key b)) :
    some (bestFrom better rank (w.index, rank w) rest) =
      ((w :: rest).argmin key).map ReplacementInfo.index := by
  have hfold : ∀ (rest : List ReplacementInfo) (w : ReplacementInfo),
      (∀ a ∈ w :: rest, ∀ b ∈ w :: rest, better (rank a) (rank b) = decide (key a < key b)) →
      some (bestFrom better rank (w.index, rank w) rest) =
        (rest.foldl (argAux fun b c => key b < key c) (some w)).map
          ReplacementInfo.index := by
    intro rest
    induction rest with
    | nil =>
      intro w _
      rfl
    | cons r rest ih =>
      intro w hw
      have hr := hw r (by simp) w (by simp)
      unfold bestFrom
      rw [foldl_cons, foldl_cons]
      by_cases hlt : key r < key w
      · have hstep : argAux (fun b c => key b < key c) (some w) r =
            some r := if_pos hlt
        simp only [hr, hlt, decide_true, if_true, hstep]
        exact ih r (fun a ha b hb =>
          hw a (mem_cons_of_mem w ha) b (mem_cons_of_mem w hb))
      · have hstep : argAux (fun b c => key b < key c) (some w) r =
            some w := if_neg hlt
        simp only [hr, hlt, decide_false, Bool.false_eq_true, if_false, hstep]
        exact ih w (fun a ha b hb => hw a (by
            rcases mem_cons.1 ha with rfl | ha <;> simp [*]) b (by
            rcases mem_cons.1 hb with rfl | hb <;> simp [*]))
  exact hfold rest w h

variable {ways : List ReplacementInfo}

theorem scanBest_eq_argmin (hvalid : ∀ w ∈ ways, w.state ≠ .I)
    (h : ∀ a ∈ ways, ∀ b ∈ ways, better (rank a) (rank b) = decide (key a < key b)) :
    scanBest better rank ways = (ways.argmin key).map ReplacementInfo.index := by
  have hfirst : firstInvalid ways = none := by
    rw [firstInvalid, find?_eq_none]
    intro w hw
    simpa using hvalid w hw
  rw [scanBest_eq, hfirst]
  cases ways with
  | nil =>
    rfl
  | cons w rest =>
    exact bestFrom_eq_argmin h

theorem argmin_eq_of_perm {ways ways' : List ReplacementInfo} (hkeys : (ways.map key).Nodup)
    (hperm : ways'.Perm ways) :
    ways'.argmin key = ways.argmin key := by
  cases hleast : ways.argmin key with
  | none =>
    rw [argmin_eq_none] at hleast ⊢
    subst hleast
    exact hperm.eq_nil
  | some w =>
    obtain ⟨hmem, hle, -⟩ := argmin_eq_some_iff.1 hleast
    refine argmin_eq_some_iff.2
      ⟨hperm.mem_iff.2 hmem, fun v hv => hle v (hperm.mem_iff.1 hv), ?_⟩
    intro v hv hvw
    have heq : v = w :=
      inj_on_of_nodup_map hkeys (hperm.mem_iff.1 hv) hmem
        (le_antisymm hvw (hle v (hperm.mem_iff.1 hv)))
    rw [heq]

theorem choosesLeast_of_argmin {choose : List ReplacementInfo → Option Nat} (hne : ways ≠ [])
    (h : ∀ ways', ways'.Perm ways → choose ways' = (ways'.argmin key).map ReplacementInfo.index) :
    ChoosesLeast key choose ways where
  least := by
    cases hleast : ways.argmin key with
    | none =>
      exact absurd (argmin_eq_none.1 hleast) hne
    | some w =>
      obtain ⟨hmem, hle, hfirst⟩ := argmin_eq_some_iff.1 hleast
      refine ⟨w, hmem, ?_, hle, hfirst⟩
      rw [h ways (List.Perm.refl _), hleast]
      rfl
  perm := by
    intro hkeys ways' hperm
    rw [h ways' hperm, h ways (List.Perm.refl _), argmin_eq_of_perm hkeys hperm]

end Keys

section Stamps

theorem stampsAfter_eq (h : List StampCall) :
    (stampsAfter h).timestamp = UInt64.ofNat (updates h + 1) ∧
      ∀ id, (stampsAfter h).array id = UInt64.ofNat (lastUse h id) := by
  induction h with
  | nil =>
    exact ⟨rfl, fun _ => rfl⟩
  | cons call older ih =>
    obtain ⟨htime, harray⟩ := ih
    cases call with
    | update i =>
      refine ⟨?_, fun id => ?_⟩
      · simp only [stampsAfter, Stamps.update, updates, htime]
        rw [← UInt64.toNat_inj]
        simp
      · simp only [stampsAfter, Stamps.update, lastUse]
        by_cases heq : i = id
        · subst heq
          rw [update_self, if_pos rfl, htime]
        · rw [update_of_ne (Ne.symm heq), if_neg heq, harray]
    | replaced i =>
      refine ⟨by simpa only [stampsAfter, Stamps.replaced, updates] using htime,
        fun id => ?_⟩
      simp only [stampsAfter, Stamps.replaced, lastUse]
      by_cases heq : i = id
      · subst heq
        rw [update_self, if_pos rfl]
        rfl
      · rw [update_of_ne (Ne.symm heq), if_neg heq, harray]

theorem lastUse_le_updates (h : List StampCall) (id : Nat) : lastUse h id ≤ updates h := by
  induction h with
  | nil =>
    exact le_rfl
  | cons call older ih =>
    cases call <;> simp only [lastUse, updates] <;> split <;> omega

variable {h : List StampCall}

theorem stamp_lt_iff (hupdates : updates h < 2 ^ 64) (i j : Nat) :
    (stampsAfter h).array i < (stampsAfter h).array j ↔ lastUse h i < lastUse h j := by
  have hi := lastUse_le_updates h i
  have hj := lastUse_le_updates h j
  rw [(stampsAfter_eq h).2, (stampsAfter_eq h).2, UInt64.lt_iff_toNat_lt,
    UInt64.toNat_ofNat', UInt64.toNat_ofNat', Nat.mod_eq_of_lt (by omega),
    Nat.mod_eq_of_lt (by omega)]

theorem arrayIndex_ofNat {index : Nat} (hindex : index < 2 ^ 32) :
    arrayIndex (UInt64.ofNat index) = index := by
  unfold arrayIndex
  rw [UInt64.toNat_toUInt32, UInt64.toNat_ofNat']
  omega

theorem arrayIndex_throughInt32 {index : Nat} (hindex : index < 2 ^ 32) :
    arrayIndex (throughInt32 index) = index := by
  have hlow : (throughInt32 index).toUInt32 = UInt32.ofNat index := by
    apply UInt32.toBitVec_inj.1
    rw [throughInt32, UInt64.toBitVec_toUInt32]
    change BitVec.setWidth 32 (Int32.toInt64 _).toBitVec = _
    rw [Int32.toBitVec_toInt64]
    change BitVec.setWidth 32
      (BitVec.signExtend 64 (UInt32.ofNat index).toBitVec) = _
    apply eq_of_getLsbD_eq
    intro i hi
    simp only [getLsbD_setWidth, getLsbD_signExtend, hi,
      decide_true, Bool.true_and, if_true, Bool.and_eq_right_iff_imp, decide_eq_true_eq]
    omega
  unfold arrayIndex
  rw [hlow]
  exact Nat.mod_eq_of_lt hindex

theorem stampPolicy_choosesLeast {κ : Type} [LinearOrder κ]
    {compatible : ReplacementInfo → Bool} {better : StampRank → StampRank → Bool}
    {key : ReplacementInfo → κ} {returned : Nat → UInt64} {ways : List ReplacementInfo}
    (hne : ways ≠ []) (hvalid : ∀ w ∈ ways, w.state ≠ .I) (hindex : ∀ w ∈ ways, w.index < 2 ^ 32)
    (hreturned : ∀ i < 2 ^ 32, arrayIndex (returned i) = i)
    (hkey : ∀ a b : ReplacementInfo, a.state ≠ .I → b.state ≠ .I →
      better ((stampsAfter h).rank a) ((stampsAfter h).rank b) = decide (key a < key b)) :
    ChoosesLeast key
      (evictedIndex (stampPolicy compatible better) returned (stampsAfter h))
      ways := by
  refine choosesLeast_of_argmin hne fun ways' hperm => ?_
  have hvalid' : ∀ w ∈ ways', w.state ≠ .I := fun w hw => hvalid w (hperm.mem_iff.1 hw)
  have hscan : scanBest better (stampsAfter h).rank ways' =
      (ways'.argmin key).map ReplacementInfo.index :=
    scanBest_eq_argmin hvalid' fun a ha b hb => hkey a b (hvalid' a ha) (hvalid' b hb)
  simp only [evictedIndex, stampPolicy, hscan, Option.map_map]
  cases hleast : ways'.argmin key with
  | none =>
    rfl
  | some w =>
    have hmem : w ∈ ways := hperm.mem_iff.1 (argmin_mem hleast)
    exact congrArg some (hreturned _ (hindex w hmem))

end Stamps

section Policies

/-- Ways by last use. -/
def oldestKey (h : List StampCall) (w : ReplacementInfo) : Nat := lastUse h w.index

/-- Ways by last use, the newest first. -/
def newestKey (h : List StampCall) (w : ReplacementInfo) : OrderDual Nat :=
  OrderDual.toDual (lastUse h w.index)

def coherenceKey {κ : Type} (key : ReplacementInfo → κ) (w : ReplacementInfo) :
    Lex (Bool × Lex (Bool × κ)) :=
  toLex (w.getShared, toLex (w.getOwned, key w))

theorem coherenceKey_lt_iff {κ : Type} [LinearOrder κ] (key : ReplacementInfo → κ)
    (a b : ReplacementInfo) :
    coherenceKey key a < coherenceKey key b ↔ a.getShared < b.getShared ∨
        a.getShared = b.getShared ∧ (a.getOwned < b.getOwned ∨
            a.getOwned = b.getOwned ∧ key a < key b) := by
  unfold coherenceKey
  rw [Prod.Lex.toLex_lt_toLex, Prod.Lex.toLex_lt_toLex]

variable {h : List StampCall} {ways : List ReplacementInfo}

theorem lruOptLess_eq (hupdates : updates h < 2 ^ 64) (a b : ReplacementInfo) :
    lruOptLess ((stampsAfter h).rank a) ((stampsAfter h).rank b) =
      decide (coherenceKey (oldestKey h) a < coherenceKey (oldestKey h) b) := by
  have hstamp := stamp_lt_iff hupdates a.index b.index
  rw [Bool.eq_iff_iff, decide_eq_true_eq, coherenceKey_lt_iff]
  unfold lruOptLess oldestKey Stamps.rank
  cases a.getShared <;> cases b.getShared <;> cases a.getOwned <;>
    cases b.getOwned <;> simp [hstamp]

theorem mruOptBigger_eq (hupdates : updates h < 2 ^ 64) {a b : ReplacementInfo}
    (ha : a.state ≠ .I) :
    mruOptBigger ((stampsAfter h).rank a) ((stampsAfter h).rank b) =
      decide (coherenceKey (newestKey h) a < coherenceKey (newestKey h) b) := by
  have hstamp := stamp_lt_iff hupdates b.index a.index
  rw [Bool.eq_iff_iff, decide_eq_true_eq, coherenceKey_lt_iff]
  unfold mruOptBigger newestKey Stamps.rank
  cases a.getShared <;> cases b.getShared <;> cases a.getOwned <;>
    cases b.getOwned <;> simp [hstamp, ha]

/--
After fewer than `2 ^ 64` updates LRU evicts the way used longest ago, MRU the
one used last, and LRUOpt and MRUOpt the first way in the order that prefers
ways that are not shared, then ways that are not owned.
-/
theorem recency_order
    (hupdates : updates h < 2 ^ 64)
    (hne : ways ≠ [])
    (hvalid : ∀ w ∈ ways, w.state ≠ .I)
    (hindex : ∀ w ∈ ways, w.index < 2 ^ 32) :
    ChoosesLeast (oldestKey h)
      (evictedIndex LRU UInt64.ofNat (stampsAfter h)) ways ∧
    ChoosesLeast (newestKey h)
      (evictedIndex MRU throughInt32 (stampsAfter h)) ways ∧
    ChoosesLeast (coherenceKey (oldestKey h))
      (evictedIndex LRUOpt UInt64.ofNat (stampsAfter h)) ways ∧
    ChoosesLeast (coherenceKey (newestKey h))
      (evictedIndex MRUOpt throughInt32 (stampsAfter h)) ways := by
  refine ⟨?_, ?_, ?_, ?_⟩
  · refine stampPolicy_choosesLeast hne hvalid hindex
      (fun _ => arrayIndex_ofNat) fun a b _ _ => ?_
    exact decide_eq_decide.2 (stamp_lt_iff hupdates a.index b.index)
  · refine stampPolicy_choosesLeast hne hvalid hindex
      (fun _ => arrayIndex_throughInt32) fun a b ha _ => ?_
    unfold mruBigger
    rw [if_neg (show ((stampsAfter h).rank a).state ≠ .I from ha)]
    exact decide_eq_decide.2 (stamp_lt_iff hupdates b.index a.index)
  · exact stampPolicy_choosesLeast hne hvalid hindex
      (fun _ => arrayIndex_ofNat) fun a b _ _ => lruOptLess_eq hupdates a b
  · exact stampPolicy_choosesLeast hne hvalid hindex
      (fun _ => arrayIndex_throughInt32) fun _ _ ha _ => mruOptBigger_eq hupdates ha

/-- Two ways, the second used last. -/
theorem recency_order_twoWays :
    ChoosesLeast (oldestKey [.update 1, .update 0])
      (evictedIndex LRU UInt64.ofNat (stampsAfter [.update 1, .update 0]))
      [⟨0, .S, none⟩, ⟨1, .S, none⟩] :=
  (recency_order (by decide) (by decide) (by decide) (by decide)).1

theorem updates_replicate (n id : Nat) : updates (replicate n (.update id)) = n := by
  induction n with
  | zero =>
    rfl
  | succ n ih =>
    rw [List.replicate_succ, updates, ih]

theorem lastUse_replicate (n id : Nat) : lastUse (replicate n (.update id)) id = n := by
  cases n with
  | zero =>
    rfl
  | succ n =>
    rw [List.replicate_succ, lastUse, if_pos rfl, updates_replicate]

theorem evictedIndex_of_wrapped {n : Nat} {older : List StampCall} (hn : n + 1 = 2 ^ 64)
    (holder : older = replicate n (.update 0)) :
    lastUse (.update 1 :: older) 0 < lastUse (.update 1 :: older) 1 ∧
      evictedIndex LRU UInt64.ofNat (stampsAfter (.update 1 :: older))
        [⟨0, .S, none⟩, ⟨1, .S, none⟩] = some 1 := by
  have huse : lastUse (.update 1 :: older) 0 = n := by
    rw [holder]
    exact lastUse_replicate n 0
  have huse' : lastUse (.update 1 :: older) 1 = n + 1 := by
    rw [holder]
    exact congrArg (· + 1) (updates_replicate n 0)
  have hstamps := (stampsAfter_eq (.update 1 :: older)).2
  have hlt : (stampsAfter (.update 1 :: older)).array 1 <
      (stampsAfter (.update 1 :: older)).array 0 := by
    rw [hstamps, hstamps, huse, huse', UInt64.lt_iff_toNat_lt,
      UInt64.toNat_ofNat', UInt64.toNat_ofNat', hn]
    omega
  refine ⟨by omega, ?_⟩
  have hscan : scanBest (fun a b : StampRank => decide (a.timestamp < b.timestamp))
      (stampsAfter (.update 1 :: older)).rank
      [⟨0, .S, none⟩, ⟨1, .S, none⟩] = some 1 := by
    simp [scanBest, scanFrom, Stamps.rank, hlt]
  simp only [evictedIndex, LRU, stampPolicy, hscan, Option.map_some]
  rfl

/--
With the update number `2 ^ 64` the timestamp wraps to zero: the way just used
is evicted and not the one used before it.
-/
theorem not_recency_order_wrapped :
    ∃ h : List StampCall,
      h = .update 1 :: replicate (2 ^ 64 - 1) (.update 0) ∧
      lastUse h 0 < lastUse h 1 ∧
      evictedIndex LRU UInt64.ofNat (stampsAfter h)
        [⟨0, .S, none⟩, ⟨1, .S, none⟩] = some 1 :=
  ⟨_, rfl, evictedIndex_of_wrapped (by norm_num) rfl⟩

end Policies

end SstElements.MemHierarchy
