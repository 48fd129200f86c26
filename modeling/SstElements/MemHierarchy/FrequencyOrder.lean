import SstElements.MemHierarchy.RecencyOrder

/-!
# Choices of the frequency policies

The weighted time of use of an entry is an average of times that have passed,
so it stays below the timestamp and the inverse frequencies are defined.  The
comparison of the policies is no order on entries without uses; the scan still
ends at a way of the best coherence class that has no uses or the largest
inverse frequency of its class.
-/

namespace SstElements.MemHierarchy

open Library Function Nat List

/-- The state after a history, newest call first. -/
def frequenciesAfter : List StampCall → Option Frequencies
  | [] => some Frequencies.init
  | .update id :: older => (frequenciesAfter older).bind (fun s => s.update id)
  | .replaced id :: older => (frequenciesAfter older).map (fun s => s.replaced id)

/-- `(curTs - ts) / acc`, none if the difference wraps or the divisor is zero. -/
def invFreq? (curTs : UInt64) (info : LFUInfo) : Option UInt64 :=
  if info.ts < curTs ∧ 0 < info.acc then some ((curTs - info.ts) / info.acc)
  else none

/-- `lessThan` with its two inverse frequencies checked. -/
def lfuLess? (curTs : UInt64) (a b : LFUInfo) : Option Bool :=
  if a.acc = 0 then some true
  else if b.acc = 0 then some false
  else
    (invFreq? curTs a).bind (fun own => (invFreq? curTs b).map (fun other => decide (own > other)))

namespace Frequencies

/-- The inverse frequency of a way, over the natural numbers. -/
def inverseFrequency (s : Frequencies) (id : Nat) : Nat :=
  (s.timestamp.toNat - (s.array id).ts.toNat) / (s.array id).acc.toNat

/-- The counters are below the number of updates, the times below the timestamp. -/
structure Tracks (s : Frequencies) (n : Nat) : Prop where
  timestamp_eq : s.timestamp.toNat = 1 + 1000 * n
  acc_le : ∀ id, (s.array id).acc.toNat ≤ n
  ts_lt : ∀ id, (s.array id).ts < s.timestamp

section Invariant

variable {s : Frequencies} {n : Nat}

theorem tracks_init : Frequencies.init.Tracks 0 where
  timestamp_eq := rfl
  acc_le := fun _ => le_rfl
  ts_lt := fun _ => by
    change (0 : UInt64) < 1
    decide

theorem average_le {acc ts now : Nat} (h : ts ≤ now) : (acc * ts + now) / (acc + 1) ≤ now := by
  rw [div_le_iff_le_mul_add_pred (succ_pos acc), Nat.succ_mul]
  have hmul : acc * ts ≤ acc * now := mul_le_mul_left acc h
  omega

theorem toNat_average_le {acc ts now : UInt64} (hacc : acc.toNat + 1 < 2 ^ 64) (h : ts ≤ now) :
    ((acc * ts + now) / (acc + 1)).toNat ≤ now.toNat := by
  have hdivisor : (acc + 1).toNat = acc.toNat + 1 := by
    rw [toNat_add_of_lt] <;> rw [show (1 : UInt64).toNat = 1 from rfl]
    exact hacc
  have hwrapped : (acc * ts + now).toNat ≤ acc.toNat * ts.toNat + now.toNat := by
    rw [UInt64.toNat_add, UInt64.toNat_mul]
    calc
      _ ≤ acc.toNat * ts.toNat % 2 ^ 64 + now.toNat := mod_le _ _
      _ ≤ acc.toNat * ts.toNat + now.toNat := Nat.add_le_add_right (mod_le _ _) _
  rw [UInt64.toNat_div, hdivisor]
  exact (Nat.div_le_div_right hwrapped).trans
    (average_le (UInt64.le_iff_toNat_le.1 h))

theorem Tracks.update (hs : s.Tracks n) (hbound : 1 + 1000 * (n + 1) < 2 ^ 64) (id : Nat) :
    ∃ t, s.update id = some t ∧ t.Tracks (n + 1) := by
  have hacc := hs.acc_le id
  have hsucc : ((s.array id).acc + 1).toNat = (s.array id).acc.toNat + 1 := by
    rw [toNat_add_of_lt] <;> rw [show (1 : UInt64).toNat = 1 from rfl]
    omega
  have hne : (s.array id).acc + 1 ≠ 0 := by
    intro hzero
    rw [hzero] at hsucc
    cases hsucc
  have htime : (s.timestamp + 1000).toNat = 1 + 1000 * (n + 1) := by
    have hnow := hs.timestamp_eq
    have hinterval : (1000 : UInt64).toNat = 1000 := by decide
    rw [toNat_add_of_lt (by omega), hinterval]
    omega
  refine ⟨_, if_neg hne, htime, ?_, ?_⟩
  · intro i
    by_cases heq : i = id
    · subst heq
      simp only [update_self, hsucc]
      omega
    · simp only [update_of_ne heq]
      exact le_succ_of_le (hs.acc_le i)
  · intro i
    have hnow := hs.timestamp_eq
    rw [UInt64.lt_iff_toNat_lt, htime]
    by_cases heq : i = id
    · subst heq
      have haverage := toNat_average_le
        (show (s.array i).acc.toNat + 1 < 2 ^ 64 by omega) (hs.ts_lt i).le
      simp only [update_self]
      omega
    · have hlt := UInt64.lt_iff_toNat_lt.1 (hs.ts_lt i)
      simp only [update_of_ne heq]
      omega

theorem Tracks.replaced (hs : s.Tracks n) (id : Nat) : (s.replaced id).Tracks n where
  timestamp_eq := hs.timestamp_eq
  acc_le := by
    intro i
    by_cases heq : i = id
    · subst heq
      simp [Frequencies.replaced]
    · simpa [Frequencies.replaced, update_of_ne heq] using hs.acc_le i
  ts_lt := by
    intro i
    by_cases heq : i = id
    · subst heq
      simpa [Frequencies.replaced] using hs.ts_lt i
    · simpa [Frequencies.replaced, update_of_ne heq] using hs.ts_lt i

theorem exists_tracks {calls : List StampCall} (hbound : 1 + 1000 * updates calls < 2 ^ 64) :
    ∃ s, frequenciesAfter calls = some s ∧ s.Tracks (updates calls) := by
  induction calls with
  | nil =>
    exact ⟨_, rfl, tracks_init⟩
  | cons call older ih =>
    cases call with
    | update id =>
      simp only [updates] at hbound
      obtain ⟨s, hs, htracks⟩ := ih (by omega)
      obtain ⟨t, ht, htracks'⟩ := htracks.update hbound id
      exact ⟨t, by simp [frequenciesAfter, hs, ht], htracks'⟩
    | replaced id =>
      obtain ⟨s, hs, htracks⟩ := ih hbound
      exact ⟨_, by simp [frequenciesAfter, hs], htracks.replaced id⟩

theorem Tracks.toNat_invFreq (hs : s.Tracks n) (id : Nat) :
    ((s.timestamp - (s.array id).ts) / (s.array id).acc).toNat = s.inverseFrequency id := by
  rw [UInt64.toNat_div, UInt64.toNat_sub_of_le _ _ (hs.ts_lt id).le]
  rfl

theorem Tracks.lfuLess?_eq (hs : s.Tracks n) (i j : Nat) :
    lfuLess? s.timestamp (s.array i) (s.array j) =
      some (lfuLess s.timestamp (s.array i) (s.array j)) := by
  have hpos : ∀ id, (s.array id).acc ≠ 0 →
      invFreq? s.timestamp (s.array id) =
        some ((s.timestamp - (s.array id).ts) / (s.array id).acc) := by
    intro id hacc
    have hlt : 0 < (s.array id).acc := by
      rw [UInt64.lt_iff_toNat_lt]
      exact pos_of_ne_zero fun hzero => hacc ((toNat_eq_zero_iff _).1 hzero)
    exact if_pos ⟨hs.ts_lt id, hlt⟩
  unfold lfuLess? lfuLess
  by_cases hi : (s.array i).acc = 0
  · simp [hi]
  · by_cases hj : (s.array j).acc = 0
    · simp [hi, hj]
    · simp [hi, hj, hpos]

theorem Tracks.lfuLess_iff (hs : s.Tracks n) (i j : Nat) :
    lfuLess s.timestamp (s.array i) (s.array j) = true ↔ (s.array i).acc = 0 ∨
        (s.array j).acc ≠ 0 ∧ s.inverseFrequency j < s.inverseFrequency i := by
  unfold lfuLess
  by_cases hi : (s.array i).acc = 0
  · simp [hi]
  · by_cases hj : (s.array j).acc = 0
    · simp [hi, hj]
    · rw [if_neg hi, if_neg hj, decide_eq_true_eq, gt_iff_lt,
        UInt64.lt_iff_toNat_lt, hs.toNat_invFreq, hs.toNat_invFreq]
      simp [hi, hj]

end Invariant

section Choice

variable {κ : Type} [LinearOrder κ]

/--
The way is of the best class, and has no uses or the largest inverse frequency
among the ways of its class, which then all have uses.
-/
structure LeastFrequent (s : Frequencies) (cls : ReplacementInfo → κ)
    (ways : List ReplacementInfo) (w : ReplacementInfo) : Prop where
  mem : w ∈ ways
  cls_le : ∀ v ∈ ways, cls w ≤ cls v
  unused_or : (s.array w.index).acc = 0 ∨
    ∀ v ∈ ways, cls v = cls w →
      (s.array v.index).acc ≠ 0 ∧
        s.inverseFrequency v.index ≤ s.inverseFrequency w.index

variable {s : Frequencies} {n : Nat} {cls : ReplacementInfo → κ}
variable {better : LFURank → LFURank → Bool} {seen : List ReplacementInfo}

theorem LeastFrequent.next {w r : ReplacementInfo} (hs : s.Tracks n)
    (hw : s.LeastFrequent cls seen w)
    (hbetter : better (s.rank r) (s.rank w) = true ↔ cls r < cls w ∨ cls r = cls w ∧
        lfuLess s.timestamp (s.array r.index) (s.array w.index) = true) :
    s.LeastFrequent cls (seen ++ [r])
      (if better (s.rank r) (s.rank w) then r else w) := by
  have hless := hs.lfuLess_iff r.index w.index
  rcases lt_trichotomy (cls r) (cls w) with hlt | heq | hgt
  · -- A better class: no way seen so far is of it.
    rw [if_pos (hbetter.2 (.inl hlt))]
    refine ⟨by simp, ?_, ?_⟩
    · intro v hv
      rcases mem_append.1 hv with hv | hv
      · exact hlt.le.trans (hw.cls_le v hv)
      · rw [mem_singleton.1 hv]
    · by_cases hacc : (s.array r.index).acc = 0
      · exact .inl hacc
      · refine .inr fun v hv hcls => ?_
        rcases mem_append.1 hv with hv | hv
        · exact absurd (hw.cls_le v hv) (not_le.2 (hcls ▸ hlt))
        · rw [mem_singleton.1 hv]
          exact ⟨hacc, le_rfl⟩
  · by_cases hcmp : lfuLess s.timestamp (s.array r.index) (s.array w.index) = true
    · rw [if_pos (hbetter.2 (.inr ⟨heq, hcmp⟩))]
      refine ⟨by simp, ?_, ?_⟩
      · intro v hv
        rcases mem_append.1 hv with hv | hv
        · exact heq.le.trans (hw.cls_le v hv)
        · rw [mem_singleton.1 hv]
      · rcases hless.1 hcmp with hacc | ⟨hacc, hlt⟩
        · exact .inl hacc
        · by_cases hr : (s.array r.index).acc = 0
          · exact .inl hr
          · refine .inr fun v hv hcls => ?_
            rcases mem_append.1 hv with hv | hv
            · obtain ⟨hv₁, hv₂⟩ := hw.unused_or.resolve_left hacc v hv (hcls.trans heq)
              exact ⟨hv₁, hv₂.trans hlt.le⟩
            · rw [mem_singleton.1 hv]
              exact ⟨hr, le_rfl⟩
    · have hkeep : ¬ better (s.rank r) (s.rank w) = true := by
        intro h
        rcases hbetter.1 h with hlt | ⟨-, h⟩
        · exact absurd heq hlt.ne
        · exact hcmp h
      rw [if_neg hkeep]
      refine ⟨mem_append_left _ hw.mem, ?_, ?_⟩
      · intro v hv
        rcases mem_append.1 hv with hv | hv
        · exact hw.cls_le v hv
        · rw [mem_singleton.1 hv]
          exact heq.ge
      · refine hw.unused_or.imp_right fun hall v hv hcls => ?_
        rcases mem_append.1 hv with hv | hv
        · exact hall v hv hcls
        · have hwacc := (hall w hw.mem rfl).1
          rw [hless, not_or, not_and, not_lt] at hcmp
          rw [mem_singleton.1 hv]
          exact ⟨hcmp.1, hcmp.2 hwacc⟩
  · -- A worse class: the way does not count.
    have hkeep : ¬ better (s.rank r) (s.rank w) = true := by
      intro h
      rcases hbetter.1 h with hlt | ⟨heq, -⟩
      · exact lt_asymm hlt hgt
      · exact hgt.ne' heq
    rw [if_neg hkeep]
    refine ⟨mem_append_left _ hw.mem, ?_, ?_⟩
    · intro v hv
      rcases mem_append.1 hv with hv | hv
      · exact hw.cls_le v hv
      · rw [mem_singleton.1 hv]
        exact hgt.le
    · refine hw.unused_or.imp_right fun hall v hv hcls => ?_
      rcases mem_append.1 hv with hv | hv
      · exact hall v hv hcls
      · rw [mem_singleton.1 hv] at hcls
        exact absurd hcls hgt.ne'

theorem bestFrom_leastFrequent (hs : s.Tracks n)
    {rest : List ReplacementInfo} {w : ReplacementInfo}
    (hw : s.LeastFrequent cls seen w)
    (hbetter : ∀ a ∈ seen ++ rest, ∀ b ∈ seen ++ rest, better (s.rank a) (s.rank b) = true ↔
        cls a < cls b ∨ cls a = cls b ∧
          lfuLess s.timestamp (s.array a.index) (s.array b.index) = true) :
    ∃ v, s.LeastFrequent cls (seen ++ rest) v ∧
      bestFrom better s.rank (w.index, s.rank w) rest = v.index := by
  induction rest generalizing seen w with
  | nil =>
    exact ⟨w, by simpa using hw, rfl⟩
  | cons r rest ih =>
    have hnext := hw.next hs (hbetter r (by simp) w (by simp [hw.mem]))
    have happend : seen ++ [r] ++ rest = seen ++ r :: rest := by simp
    obtain ⟨v, hv, hbest⟩ := ih hnext (by
      rw [happend]
      exact hbetter)
    rw [happend] at hv
    refine ⟨v, hv, ?_⟩
    rw [← hbest]
    unfold bestFrom
    rw [foldl_cons]
    split <;> rfl

theorem frequencyPolicy_leastFrequent {compatible : ReplacementInfo → Bool}
    {better : UInt64 → LFURank → LFURank → Bool} {ways : List ReplacementInfo} (hs : s.Tracks n)
    (hne : ways ≠ []) (hvalid : ∀ w ∈ ways, w.state ≠ .I)
    (hbetter : ∀ a b : ReplacementInfo, a.state ≠ .I →
      (better s.timestamp (s.rank a) (s.rank b) = true ↔ cls a < cls b ∨ cls a = cls b ∧
          lfuLess s.timestamp (s.array a.index) (s.array b.index) = true)) :
    ∃ w, s.LeastFrequent cls ways w ∧ (frequencyPolicy compatible better).findBestCandidate s ways =
        some (w.index, s) := by
  have hfirst : firstInvalid ways = none := by
    rw [firstInvalid, find?_eq_none]
    intro w hw
    simpa using hvalid w hw
  obtain ⟨w, rest, rfl⟩ := exists_cons_of_ne_nil hne
  have hsingle : s.LeastFrequent cls [w] w := by
    refine ⟨by simp, fun v hv => by rw [mem_singleton.1 hv], ?_⟩
    by_cases hacc : (s.array w.index).acc = 0
    · exact .inl hacc
    · refine .inr fun v hv _ => ?_
      rw [mem_singleton.1 hv]
      exact ⟨hacc, le_rfl⟩
  have hpairs : ∀ a ∈ [w] ++ rest, ∀ b ∈ [w] ++ rest,
      better s.timestamp (s.rank a) (s.rank b) = true ↔
        cls a < cls b ∨ cls a = cls b ∧
          lfuLess s.timestamp (s.array a.index) (s.array b.index) = true :=
    fun a ha b _ => hbetter a b (hvalid a ha)
  obtain ⟨v, hv, hbest⟩ := bestFrom_leastFrequent hs hsingle hpairs
  refine ⟨v, hv, ?_⟩
  change (scanBest (better s.timestamp) s.rank (w :: rest)).map (fun c => (c, s)) = _
  rw [scanBest_eq, hfirst]
  simp only [rankChoice, hbest, Option.map_some]

end Choice

end Frequencies

def coherenceClass (w : ReplacementInfo) : Lex (Bool × Bool) := toLex (w.getShared, w.getOwned)

theorem lfuOptLess_iff {s : Frequencies} {a b : ReplacementInfo} (ha : a.state ≠ .I) :
    lfuOptLess s.timestamp (s.rank a) (s.rank b) = true ↔ coherenceClass a < coherenceClass b ∨
        coherenceClass a = coherenceClass b ∧
          lfuLess s.timestamp (s.array a.index) (s.array b.index) = true := by
  unfold lfuOptLess coherenceClass Frequencies.rank
  rw [Prod.Lex.toLex_lt_toLex, toLex_inj, Prod.mk.injEq]
  cases a.getShared <;> cases b.getShared <;> cases a.getOwned <;>
    cases b.getOwned <;> simp [ha]

/--
As long as the timestamps fit a word, every entry has a time before the
timestamp, no comparison wraps or divides by zero, and LFU and LFUOpt choose,
in the best coherence class, a way without uses or of largest inverse
frequency.
-/
theorem lfu_ranking {calls : List StampCall} (hbound : 1 + 1000 * updates calls < 2 ^ 64) :
    ∃ s, frequenciesAfter calls = some s ∧
      (∀ id, (s.array id).ts < s.timestamp) ∧
      (∀ i j, lfuLess? s.timestamp (s.array i) (s.array j) =
        some (lfuLess s.timestamp (s.array i) (s.array j))) ∧
      ∀ ways : List ReplacementInfo, ways ≠ [] →
        (∀ w ∈ ways, w.state ≠ .I) →
        (∃ w, s.LeastFrequent (fun _ => ()) ways w ∧
          LFU.findBestCandidate s ways = some (w.index, s)) ∧
        ∃ w, s.LeastFrequent coherenceClass ways w ∧
          LFUOpt.findBestCandidate s ways = some (w.index, s) := by
  obtain ⟨s, hs, htracks⟩ := Frequencies.exists_tracks hbound
  refine ⟨s, hs, htracks.ts_lt, htracks.lfuLess?_eq, ?_⟩
  intro ways hne hvalid
  constructor
  · refine Frequencies.frequencyPolicy_leastFrequent htracks hne hvalid ?_
    intro a b _
    simp [Frequencies.rank]
  · refine Frequencies.frequencyPolicy_leastFrequent htracks hne hvalid ?_
    intro a b ha
    exact lfuOptLess_iff ha

/-- Two ways, one of them used twice and one replaced. -/
theorem lfu_ranking_twoWays :
    ∃ s, frequenciesAfter [.replaced 1, .update 0, .update 1, .update 0] = some s ∧
      ∃ w, s.LeastFrequent (fun _ => ()) [⟨0, .S, none⟩, ⟨1, .S, none⟩] w ∧
        LFU.findBestCandidate s [⟨0, .S, none⟩, ⟨1, .S, none⟩] =
          some (w.index, s) := by
  obtain ⟨s, hs, -, -, hways⟩ := @lfu_ranking
    [.replaced 1, .update 0, .update 1, .update 0] (by decide)
  exact ⟨s, hs, (hways _ (by decide) (by decide)).1⟩

end SstElements.MemHierarchy
