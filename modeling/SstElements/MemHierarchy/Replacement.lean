import SstElements.MemHierarchy.MemTypes

/-!
# Replacement policies

A replacement policy keeps a state of its own, indexed by line, and chooses a
victim among the ways of a set from their `ReplacementInfo` objects.

The policies that rank their ways share one loop, `scanBest`: the first invalid
way ends the search, otherwise the best rank wins.  `choose` is the choice
among ways none of which is invalid, and `findBestCandidate_eq` says how the
two are related.

The random number generator is the parameter `gen`: the n-th number it returns.
An access outside an array and a division by zero are `none`.
-/

namespace SstElements.MemHierarchy

open List Option

universe u

/-- The part of a `CoherenceReplacementInfo` that a `ReplacementInfo` lacks. -/
structure CoherenceInfo where
  shared : Bool
  owned : Bool
deriving DecidableEq, Repr

/--
What a line tells the replacement policy.  `coherence` is present exactly if
the object is a `CoherenceReplacementInfo`.
-/
structure ReplacementInfo where
  index : Nat
  state : State
  coherence : Option CoherenceInfo
deriving DecidableEq, Repr

namespace ReplacementInfo

def getShared (r : ReplacementInfo) : Bool := r.coherence.any (fun c => c.shared)

def getOwned (r : ReplacementInfo) : Bool := r.coherence.any (fun c => c.owned)

def setState (r : ReplacementInfo) (s : State) : ReplacementInfo := { r with state := s }

def setShared (r : ReplacementInfo) (s : Bool) : ReplacementInfo :=
  { r with coherence := r.coherence.map (fun c => { c with shared := s }) }

def setOwned (r : ReplacementInfo) (o : Bool) : ReplacementInfo :=
  { r with coherence := r.coherence.map (fun c => { c with owned := o }) }

/-- The object is a `CoherenceReplacementInfo`. -/
def isCoherence (r : ReplacementInfo) : Bool := r.coherence.isSome

end ReplacementInfo

section Scan

variable {ρ : Type u}

/--
The loop of the ranking policies from the second way on: `best` is the index
and the rank of the best way so far.
-/
def scanFrom (better : ρ → ρ → Bool) (rank : ReplacementInfo → ρ) :
    Nat × ρ → List ReplacementInfo → Nat
  | best, [] => best.1
  | best, r :: rest =>
    if r.state = .I then r.index
    else if better (rank r) best.2 then
      scanFrom better rank (r.index, rank r) rest
    else scanFrom better rank best rest

/-- `findBestCandidate` of the ranking policies. -/
def scanBest (better : ρ → ρ → Bool) (rank : ReplacementInfo → ρ) :
    List ReplacementInfo → Option Nat
  | [] => none
  | r :: rest =>
    if r.state = .I then some r.index
    else some (scanFrom better rank (r.index, rank r) rest)

/-- The way of best rank; of equal ranks the first one. -/
def bestFrom (better : ρ → ρ → Bool) (rank : ReplacementInfo → ρ)
    (best : Nat × ρ) (ways : List ReplacementInfo) : Nat :=
  (ways.foldl (fun b r => if better (rank r) b.2 then (r.index, rank r) else b) best).1

/-- The choice of the ranking policies among valid ways. -/
def rankChoice (better : ρ → ρ → Bool) (rank : ReplacementInfo → ρ) :
    List ReplacementInfo → Option Nat
  | [] => none
  | r :: rest => some (bestFrom better rank (r.index, rank r) rest)

def firstInvalid (ways : List ReplacementInfo) : Option ReplacementInfo :=
  ways.find? (fun r => decide (r.state = .I))

theorem scanFrom_eq (better : ρ → ρ → Bool) (rank : ReplacementInfo → ρ)
    (best : Nat × ρ) (ways : List ReplacementInfo) :
    scanFrom better rank best ways =
      match firstInvalid ways with
      | some r => r.index
      | none => bestFrom better rank best ways := by
  induction ways generalizing best with
  | nil =>
    rfl
  | cons r rest ih =>
    by_cases hI : r.state = .I
    · simp [scanFrom, firstInvalid, hI]
    · have hfirst : firstInvalid (r :: rest) = firstInvalid rest := by simp [firstInvalid, hI]
      rw [hfirst]
      simp only [scanFrom, hI, if_false, ih, bestFrom, foldl_cons]
      split <;> rfl

theorem scanBest_eq (better : ρ → ρ → Bool) (rank : ReplacementInfo → ρ)
    (ways : List ReplacementInfo) :
    scanBest better rank ways =
      match firstInvalid ways with
      | some r => some r.index
      | none => rankChoice better rank ways := by
  cases ways with
  | nil =>
    rfl
  | cons r rest =>
    by_cases hI : r.state = .I
    · simp [scanBest, firstInvalid, hI]
    · have hfirst : firstInvalid (r :: rest) = firstInvalid rest := by simp [firstInvalid, hI]
      rw [hfirst]
      simp only [scanBest, hI, if_false, scanFrom_eq, rankChoice]
      cases firstInvalid rest <;> rfl

end Scan

structure ReplacementPolicy where
  Mgr : Type
  init : Mgr
  checkCompatibility : ReplacementInfo → Bool
  update : Mgr → Nat → Option Mgr
  replaced : Mgr → Nat → Mgr
  findBestCandidate : Mgr → List ReplacementInfo → Option (Nat × Mgr)
  choose : Mgr → List ReplacementInfo → Option (Nat × Mgr)

/-- State of the policies that stamp each use. -/
structure Stamps where
  timestamp : UInt64
  array : Nat → UInt64

namespace Stamps

def init : Stamps := { timestamp := 1, array := fun _ => 0 }

/-- Record a use. -/
def update (s : Stamps) (id : Nat) : Stamps :=
  { timestamp := s.timestamp + 1,
    array := Function.update s.array id s.timestamp }

/-- Record a replacement. -/
def replaced (s : Stamps) (id : Nat) : Stamps := { s with array := Function.update s.array id 0 }

end Stamps

/-- Rank of a way in the stamping policies. -/
structure StampRank where
  timestamp : UInt64
  shared : Bool
  owned : Bool
  state : State
deriving DecidableEq, Repr

def Stamps.rank (s : Stamps) (r : ReplacementInfo) : StampRank :=
  { timestamp := s.array r.index, shared := r.getShared, owned := r.getOwned,
    state := r.state }

def stampPolicy (compatible : ReplacementInfo → Bool)
    (better : StampRank → StampRank → Bool) : ReplacementPolicy where
  Mgr := Stamps
  init := Stamps.init
  checkCompatibility := compatible
  update := fun s id => some (s.update id)
  replaced := Stamps.replaced
  findBestCandidate := fun s ways => (scanBest better s.rank ways).map (fun c => (c, s))
  choose := fun s ways => (rankChoice better s.rank ways).map (fun c => (c, s))

/-- `Rank::lessThan` of `LRUOpt`. -/
def lruOptLess (a b : StampRank) : Bool :=
  if !a.shared && b.shared then true
  else if a.shared && !b.shared then false
  else if !a.owned && b.owned then true
  else if a.owned && !b.owned then false
  else decide (a.timestamp < b.timestamp)

def mruBigger (a b : StampRank) : Bool :=
  if a.state = .I then true
  else decide (a.timestamp > b.timestamp)

/-- `Rank::biggerThan` of `MRUOpt`. -/
def mruOptBigger (a b : StampRank) : Bool :=
  if a.state = .I then true
  else if !a.shared && b.shared then true
  else if a.shared && !b.shared then false
  else if a.owned && !b.owned then false
  else if !a.owned && b.owned then true
  else decide (a.timestamp > b.timestamp)

/-- Least recently used. -/
def LRU : ReplacementPolicy :=
  stampPolicy (fun _ => true) (fun a b => decide (a.timestamp < b.timestamp))

/-- Least recently used, with consideration for coherence state. -/
def LRUOpt : ReplacementPolicy := stampPolicy ReplacementInfo.isCoherence lruOptLess

/-- Most recently used. -/
def MRU : ReplacementPolicy := stampPolicy (fun _ => true) mruBigger

/-- Most recently used, with consideration for coherence state. -/
def MRUOpt : ReplacementPolicy := stampPolicy ReplacementInfo.isCoherence mruOptBigger

/-- Weighted time of use and number of uses of a line. -/
structure LFUInfo where
  ts : UInt64
  acc : UInt64
deriving DecidableEq, Repr

/-- State of the frequency policies. -/
structure Frequencies where
  timestamp : UInt64
  array : Nat → LFUInfo

namespace Frequencies

def init : Frequencies := { timestamp := 1, array := fun _ => { ts := 0, acc := 0 } }

/-- Record a use; the number of uses plus one is a divisor. -/
def update (s : Frequencies) (id : Nat) : Option Frequencies :=
  let info := s.array id
  if info.acc + 1 = 0 then none
  else some {
    timestamp := s.timestamp + 1000
    array := Function.update s.array id
      { ts := (info.acc * info.ts + s.timestamp) / (info.acc + 1),
        acc := info.acc + 1 } }

/-- Record a replacement. -/
def replaced (s : Frequencies) (id : Nat) : Frequencies :=
  { s with array := Function.update s.array id { s.array id with acc := 0 } }

end Frequencies

/-- `LFUInfo::lessThan`. -/
def lfuLess (curTs : UInt64) (a b : LFUInfo) : Bool :=
  if a.acc = 0 then true
  else if b.acc = 0 then false
  else decide ((curTs - a.ts) / a.acc > (curTs - b.ts) / b.acc)

/-- Rank of a way in the frequency policies. -/
structure LFURank where
  lfuInfo : LFUInfo
  shared : Bool
  owned : Bool
  state : State
deriving DecidableEq, Repr

def Frequencies.rank (s : Frequencies) (r : ReplacementInfo) : LFURank :=
  { lfuInfo := s.array r.index, shared := r.getShared, owned := r.getOwned,
    state := r.state }

/-- `Rank::lessThan` of `LFUOpt`. -/
def lfuOptLess (curTs : UInt64) (a b : LFURank) : Bool :=
  if a.state = .I then true
  else if !a.shared && b.shared then true
  else if a.shared && !b.shared then false
  else if !a.owned && b.owned then true
  else if a.owned && !b.owned then false
  else lfuLess curTs a.lfuInfo b.lfuInfo

/-- A policy with use counts that ranks the ways by `better` at a time. -/
def frequencyPolicy (compatible : ReplacementInfo → Bool)
    (better : UInt64 → LFURank → LFURank → Bool) : ReplacementPolicy where
  Mgr := Frequencies
  init := Frequencies.init
  checkCompatibility := compatible
  update := Frequencies.update
  replaced := Frequencies.replaced
  findBestCandidate := fun s ways =>
    (scanBest (better s.timestamp) s.rank ways).map (fun c => (c, s))
  choose := fun s ways => (rankChoice (better s.timestamp) s.rank ways).map (fun c => (c, s))

/-- Least frequently used. -/
def LFU : ReplacementPolicy :=
  frequencyPolicy (fun _ => true)
    (fun curTs a b => lfuLess curTs a.lfuInfo b.lfuInfo)

/-- Least frequently used, with consideration for coherence state. -/
def LFUOpt : ReplacementPolicy := frequencyPolicy ReplacementInfo.isCoherence lfuOptLess

section Generator

variable (gen : Nat → UInt64) (ways : Nat)

def randomChoice (draws : Nat) (rInfo : List ReplacementInfo) : Option (Nat × Nat) :=
  if ways = 0 then none
  else (rInfo[(gen draws).toNat % ways]?).map
    (fun r => (r.index, draws + 1))

/-- An empty way if there is one, otherwise a random one. -/
def Random : ReplacementPolicy where
  Mgr := Nat
  init := 0
  checkCompatibility := fun _ => true
  update := fun draws _ => some draws
  replaced := fun draws _ => draws
  findBestCandidate := fun draws rInfo =>
    match firstInvalid rInfo with
    | some r => some (r.index, draws)
    | none => randomChoice gen ways draws rInfo
  choose := randomChoice gen ways

/-- State of `NMRU`: the last used way of each set, and the numbers drawn. -/
structure NMRUState where
  array : Nat → Nat
  draws : Nat

/-- The random choice of `NMRU` among all but the most recently used way. -/
def nmruChoice (s : NMRUState) (rInfo : List ReplacementInfo) : Option (Nat × NMRUState) :=
  match rInfo.head? with
  | none => none
  | some r =>
    if ways - 1 = 0 then none
    else
      let setBegin := r.index
      let index := (gen s.draws).toNat % (ways - 1)
      some (if index < s.array (setBegin / ways) then setBegin + index
          else setBegin + index + 1,
        { s with draws := s.draws + 1 })

/-- An empty way if there is one, otherwise any but the most recently used. -/
def NMRU : ReplacementPolicy where
  Mgr := NMRUState
  init := { array := fun _ => 0, draws := 0 }
  checkCompatibility := fun _ => true
  update := fun s id => some { s with array := Function.update s.array (id / ways) (id % ways) }
  replaced := fun s _ => s
  findBestCandidate := fun s rInfo =>
    match firstInvalid rInfo with
    | some r => some (r.index, s)
    | none => nmruChoice gen ways s rInfo
  choose := nmruChoice gen ways

end Generator

/-- The replacement policies that a configuration can name. -/
inductive PolicyName where | lru | lruOpt | lfu | lfuOpt | mru | mruOpt | random | nmru
deriving DecidableEq, Repr

def PolicyName.policy (gen : Nat → UInt64) (ways : Nat) : PolicyName → ReplacementPolicy
  | .lru => LRU
  | .lruOpt => LRUOpt
  | .lfu => LFU
  | .lfuOpt => LFUOpt
  | .mru => MRU
  | .mruOpt => MRUOpt
  | .random => Random gen ways
  | .nmru => NMRU gen ways

/-- The search keeps to the first invalid way, and else to the policy's choice. -/
def ReplacementPolicy.PrefersInvalid (P : ReplacementPolicy) : Prop :=
  ∀ s rInfo,
    (∀ r, firstInvalid rInfo = some r → ∃ s', P.findBestCandidate s rInfo = some (r.index, s')) ∧
    (firstInvalid rInfo = none → P.findBestCandidate s rInfo = P.choose s rInfo)

theorem prefersInvalid_stampPolicy (compatible : ReplacementInfo → Bool)
    (better : StampRank → StampRank → Bool) :
    (stampPolicy compatible better).PrefersInvalid := by
  intro s rInfo
  have h := scanBest_eq better s.rank rInfo
  constructor
  · intro r hr
    rw [hr] at h
    exact ⟨s, by simp [stampPolicy, h]⟩
  · intro hnone
    rw [hnone] at h
    simp [stampPolicy, h]

theorem prefersInvalid_frequencyPolicy (compatible : ReplacementInfo → Bool)
    (better : UInt64 → LFURank → LFURank → Bool) :
    (frequencyPolicy compatible better).PrefersInvalid := by
  intro s rInfo
  have h := scanBest_eq (better s.timestamp) s.rank rInfo
  constructor
  · intro r hr
    rw [hr] at h
    exact ⟨s, by simp [frequencyPolicy, h]⟩
  · intro hnone
    rw [hnone] at h
    simp [frequencyPolicy, h]

theorem PolicyName.prefersInvalid (gen : Nat → UInt64) (ways : Nat) (name : PolicyName) :
    (name.policy gen ways).PrefersInvalid := by
  cases name with
  | lru => exact prefersInvalid_stampPolicy _ _
  | lruOpt => exact prefersInvalid_stampPolicy _ _
  | mru => exact prefersInvalid_stampPolicy _ _
  | mruOpt => exact prefersInvalid_stampPolicy _ _
  | lfu => exact prefersInvalid_frequencyPolicy _ _
  | lfuOpt => exact prefersInvalid_frequencyPolicy _ _
  | random =>
    intro s rInfo
    refine ⟨fun r hr => ⟨s, ?_⟩, fun hnone => ?_⟩
    · simp [PolicyName.policy, Random, hr]
    · simp [PolicyName.policy, Random, hnone]
  | nmru =>
    intro s rInfo
    refine ⟨fun r hr => ⟨s, ?_⟩, fun hnone => ?_⟩
    · simp [PolicyName.policy, NMRU, hr]
    · simp [PolicyName.policy, NMRU, hnone]

variable {gen : Nat → UInt64} {ways c : Nat} {name : PolicyName} {rInfo : List ReplacementInfo}

theorem PolicyName.choose_isSome_iff (hlength : rInfo.length = ways) (hpos : 0 < ways)
    (s : (name.policy gen ways).Mgr) :
    ((name.policy gen ways).choose s rInfo).isSome = true ↔ (name = .nmru → ways ≠ 1) := by
  obtain ⟨r, rest, rfl⟩ : ∃ r rest, rInfo = r :: rest := by
    cases rInfo with
    | nil =>
      simp only [length_nil] at hlength
      omega
    | cons r rest =>
      exact ⟨r, rest, rfl⟩
  cases name with
  | lru => simp [PolicyName.policy, LRU, stampPolicy, rankChoice]
  | lruOpt => simp [PolicyName.policy, LRUOpt, stampPolicy, rankChoice]
  | mru => simp [PolicyName.policy, MRU, stampPolicy, rankChoice]
  | mruOpt => simp [PolicyName.policy, MRUOpt, stampPolicy, rankChoice]
  | lfu => simp [PolicyName.policy, LFU, frequencyPolicy, rankChoice]
  | lfuOpt => simp [PolicyName.policy, LFUOpt, frequencyPolicy, rankChoice]
  | random =>
    have hlt : (gen s).toNat % ways < (r :: rest).length := by
      rw [hlength]
      exact Nat.mod_lt _ hpos
    have hget : (r :: rest)[(gen s).toNat % ways]? =
        some ((r :: rest)[(gen s).toNat % ways]) :=
      getElem?_eq_getElem hlt
    have hne : ways ≠ 0 := by omega
    simp [PolicyName.policy, Random, randomChoice, hne, hget]
  | nmru =>
    have hone : ways - 1 = 0 ↔ ways = 1 := by omega
    by_cases h : ways = 1
    · simp [PolicyName.policy, NMRU, nmruChoice, h]
    · simp [PolicyName.policy, NMRU, nmruChoice, hone, h]

theorem bestFrom_mem {ρ : Type u} (better : ρ → ρ → Bool) (rank : ReplacementInfo → ρ)
    (best : Nat × ρ) (rInfo : List ReplacementInfo) :
    bestFrom better rank best rInfo = best.1 ∨
      bestFrom better rank best rInfo ∈ rInfo.map ReplacementInfo.index := by
  induction rInfo generalizing best with
  | nil =>
    exact .inl rfl
  | cons r rest ih =>
    simp only [bestFrom, foldl_cons] at ih ⊢
    split
    · rcases ih (r.index, rank r) with h | h
      · exact .inr (by simp [h])
      · exact .inr (by simp [h])
    · rcases ih best with h | h
      · exact .inl h
      · exact .inr (by simp [h])

theorem rankChoice_mem {ρ : Type u} {better : ρ → ρ → Bool} {rank : ReplacementInfo → ρ}
    (h : rankChoice better rank rInfo = some c) :
    c ∈ rInfo.map ReplacementInfo.index := by
  cases rInfo with
  | nil =>
    exact absurd h (by simp [rankChoice])
  | cons r rest =>
    simp only [rankChoice, Option.some.injEq] at h
    rcases bestFrom_mem better rank (r.index, rank r) rest with hb | hb
    · simp [← h, hb]
    · simp [← h, hb]

theorem PolicyName.choose_mem {base : Nat} {s s' : (name.policy gen ways).Mgr}
    (hindex : rInfo.map ReplacementInfo.index = range' base ways)
    (h : (name.policy gen ways).choose s rInfo = some (c, s')) :
    c ∈ range' base ways := by
  have hrank : ∀ {ρ : Type} {better : ρ → ρ → Bool}
      {rank : ReplacementInfo → ρ} {β : Type} {mgr mgr' : β},
      (rankChoice better rank rInfo).map (fun c => (c, mgr)) =
        some (c, mgr') → c ∈ range' base ways := by
    intro ρ better rank β mgr mgr' hc
    obtain ⟨c', hc', heq⟩ := map_eq_some_iff.1 hc
    cases heq
    exact hindex ▸ rankChoice_mem hc'
  cases name with
  | lru => exact hrank h
  | lruOpt => exact hrank h
  | lfu => exact hrank h
  | lfuOpt => exact hrank h
  | mru => exact hrank h
  | mruOpt => exact hrank h
  | random =>
    simp only [PolicyName.policy, Random, randomChoice] at h
    split at h
    · cases h
    · obtain ⟨r, hr, heq⟩ := map_eq_some_iff.1 h
      cases heq
      rw [← hindex]
      exact mem_map.2 ⟨r, mem_of_getElem? hr, rfl⟩
  | nmru =>
    simp only [PolicyName.policy, NMRU, nmruChoice] at h
    cases rInfo with
    | nil =>
      cases h
    | cons r rest =>
      have hlen : rest.length + 1 = ways := by
        have := congrArg length hindex
        simpa using this
      have hbase : r.index = base := by
        subst hlen
        simpa [range'_succ] using (cons.inj hindex).1
      simp only [head?_cons] at h
      split at h
      · cases h
      · rename_i hne
        have hlt : (gen s.draws).toNat % (ways - 1) < ways - 1 :=
          Nat.mod_lt _ (pos_of_ne_zero hne)
        obtain ⟨hc, -⟩ := Prod.mk.inj (some.inj h)
        rw [← hc, mem_range'_1, hbase]
        split <;> omega

end SstElements.MemHierarchy
