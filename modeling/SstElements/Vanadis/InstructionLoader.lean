import SstElements.Library.MachineWord
import SstElements.Library.OrderedContainer
import SstElements.Library.Transition

/-!
# The instruction loader

A `VanadisCache` is a map with a list of its keys, the last used one first; a
full cache drops the last key of the list.  The loader keeps lines of memory in
one such cache and decoded bundles in another one, and asks memory for the lines
it misses.  Memory does not change here, and addresses wrap around at `2 ^ 64`.
-/

namespace SstElements.Vanadis.InstructionLoader

open Library Library.OrderedMap List Option Nat Bool

section Cache

variable {T : Type}

/-- A cache of bounded size. -/
structure VanadisCache (T : Type) where
  max_entries : Nat
  ordering_q : List UInt64
  data_values : OrderedMap UInt64 T
  /-- Every use of a key, the last one first; the source keeps no such record. -/
  used : List UInt64

namespace VanadisCache

variable {c d : VanadisCache T} {key k : UInt64} {value : T}

def empty (cache_entries : Nat) : VanadisCache T := ⟨cache_entries, [], .empty, []⟩

def contains (c : VanadisCache T) (value : UInt64) : Bool := (c.data_values.find? value).isSome

def sendKeyToFront (c : VanadisCache T) (key : UInt64) : VanadisCache T :=
  if key ∈ c.ordering_q then
    { c with ordering_q := key :: c.ordering_q.erase key, used := key :: c.used }
  else c

/-- `find`; without the key the source reads behind the end of its map. -/
def find (c : VanadisCache T) (key : UInt64) : Option (T × VanadisCache T) :=
  (c.data_values.find? key).map fun value => (value, c.sendKeyToFront key)

/-- `kill_lru_key`; `back()` of an empty list has no meaning. -/
def killLruKey (c : VanadisCache T) : Option (VanadisCache T) :=
  if c.ordering_q.length < c.max_entries then some c
  else do
    let remove_key ← c.ordering_q.getLast?
    let _ ← c.data_values.find? remove_key
    some { c with
      ordering_q := c.ordering_q.dropLast
      data_values := c.data_values.erase remove_key }

def store (c : VanadisCache T) (key : UInt64) (value : T) : Option (VanadisCache T) :=
  if c.contains key then
    some { c.sendKeyToFront key with data_values := c.data_values.insert key value }
  else
    c.killLruKey.map fun c => { c with
      data_values := c.data_values.insert key value
      ordering_q := key :: c.ordering_q
      used := key :: c.used }

def touch (c : VanadisCache T) (key : UInt64) : VanadisCache T :=
  if c.contains key then c.sendKeyToFront key else c

/-- The list has the keys of the map, at most as many as the capacity, in order of last use. -/
structure Agrees (c : VanadisCache T) : Prop where
  keys : ∀ k, k ∈ c.ordering_q ↔ c.contains k = true
  room : c.ordering_q.length ≤ c.max_entries
  recent : c.ordering_q.Pairwise fun a b => c.used.idxOf a < c.used.idxOf b

/-- Only a full cache drops a key, and all others were used after that key. -/
def EvictsOldest (c d : VanadisCache T) : Prop :=
  ∀ k, c.contains k = true → d.contains k = false →
    c.max_entries ≤ c.data_values.entries.length ∧
    ∀ k', c.contains k' = true → k' ≠ k → c.used.idxOf k' < c.used.idxOf k

theorem evictsOldest_of_imp (h : ∀ k, c.contains k = true → d.contains k = true) :
    EvictsOldest c d :=
  fun k hc hd => absurd (h k hc) (by simp [hd])

theorem empty_agrees (n : Nat) : (empty n : VanadisCache T).Agrees :=
  ⟨fun _ => by simp [empty, contains], zero_le _, .nil⟩

namespace Agrees

theorem nodup (h : c.Agrees) : c.ordering_q.Nodup :=
  h.recent.imp fun hlt heq => absurd (heq ▸ hlt) (lt_irrefl _)

theorem keys_perm (h : c.Agrees) : c.ordering_q.Perm (c.data_values.entries.map Prod.fst) := by
  have hkeys : (c.data_values.entries.map Prod.fst).Nodup :=
    (pairwise_map.2 c.data_values.sorted).imp fun hlt heq => absurd (heq ▸ hlt) (lt_irrefl _)
  refine (perm_ext_iff_of_nodup h.nodup hkeys).2 fun k => ?_
  rw [h.keys, contains, isSome_iff_exists]
  simp [← mem_entries_iff]

theorem size_eq (h : c.Agrees) : c.data_values.entries.length = c.ordering_q.length := by
  simpa using h.keys_perm.length_eq.symm

/-- A key in front of the others that stay is the last used one. -/
theorem recent_cons {q : List UInt64} (hq : q.Sublist c.ordering_q) (hkey : key ∉ q)
    (h : c.Agrees) :
    (key :: q).Pairwise fun a b => (key :: c.used).idxOf a < (key :: c.used).idxOf b := by
  have hne : ∀ b ∈ q, key ≠ b := fun b hb heq => hkey (heq ▸ hb)
  have hlater : ∀ b ∈ q, (key :: c.used).idxOf b = c.used.idxOf b + 1 :=
    fun b hb => idxOf_cons_ne _ (hne b hb)
  refine pairwise_cons.2 ⟨fun b hb => ?_, ?_⟩
  · rw [idxOf_cons_self, hlater b hb]
    exact succ_pos _
  · refine (h.recent.sublist hq).imp_of_mem fun ha hb hlt => ?_
    rw [hlater _ ha, hlater _ hb]
    exact succ_lt_succ hlt

theorem sendKeyToFront (h : c.Agrees) : (c.sendKeyToFront key).Agrees := by
  unfold VanadisCache.sendKeyToFront
  split
  · rename_i hmem
    have hperm := perm_cons_erase hmem
    exact ⟨fun k => hperm.mem_iff.symm.trans (h.keys k), hperm.length_eq ▸ h.room,
      h.recent_cons erase_sublist h.nodup.not_mem_erase⟩
  · exact h

end Agrees

@[simp] theorem data_values_sendKeyToFront :
    (c.sendKeyToFront key).data_values = c.data_values := by
  unfold sendKeyToFront
  split <;> rfl

@[simp] theorem contains_sendKeyToFront : (c.sendKeyToFront key).contains k = c.contains k := by
  rw [contains, contains, data_values_sendKeyToFront]

/-- What stays in the cache once there is a free place. -/
structure MakesRoom (c d : VanadisCache T) : Prop where
  agrees : d.Agrees
  room : d.ordering_q.length < d.max_entries
  max_entries : d.max_entries = c.max_entries
  evicts : EvictsOldest c d
  lookup : ∀ k v, d.data_values.find? k = some v → c.data_values.find? k = some v

theorem killLruKey_spec (h : c.Agrees) (hd : c.killLruKey = some d) : MakesRoom c d := by
  unfold killLruKey at hd
  split at hd
  · rename_i hroom
    cases hd
    exact ⟨h, hroom, rfl, evictsOldest_of_imp fun _ hk => hk, fun _ _ hv => hv⟩
  · rename_i hfull
    obtain ⟨old, hold, hd⟩ := bind_eq_some_iff.1 hd
    obtain ⟨_, _, hd⟩ := bind_eq_some_iff.1 hd
    obtain ⟨q, hq⟩ := getLast?_eq_some_iff.1 hold
    cases hd
    have hroom := h.room
    have hnodup := h.nodup
    have hrecent := h.recent
    rw [hq, length_append, length_singleton] at hfull hroom
    rw [hq, nodup_append] at hnodup
    rw [hq, pairwise_append] at hrecent
    have hkeys : ∀ k, c.contains k = true ↔ k ∈ q ∨ k = old := fun k => by
      rw [← h.keys k, hq, mem_append, mem_singleton]
    have hrest : ∀ k, k ≠ old → (c.data_values.erase old).find? k = c.data_values.find? k :=
      fun k hk => find?_erase_of_ne _ hk
    refine ⟨⟨fun k => ?_, ?_, ?_⟩, ?_, rfl, fun k hk hgone => ?_, fun k v hv => ?_⟩
    · rw [hq, dropLast_concat, contains]
      by_cases hk : k = old
      · have hnot : k ∉ q := fun hmem => hnodup.2.2 k hmem old (mem_singleton_self _) hk
        simp [hk ▸ hnot, hk]
      · rw [hrest k hk, ← contains, hkeys]
        simp [hk]
    · rw [hq, dropLast_concat]
      exact le_of_succ_le hroom
    · rw [hq, dropLast_concat]
      exact hrecent.1
    · rw [hq, dropLast_concat]
      exact hroom
    · have hkold : k = old := by
        by_contra hne
        rw [contains, hrest k hne, ← contains, hk] at hgone
        cases hgone
      subst hkold
      refine ⟨?_, fun k' hk' hne => ?_⟩
      · rw [h.size_eq, hq, length_append, length_singleton]
        omega
      · exact hrecent.2.2 k' (((hkeys k').1 hk').resolve_right hne) k (mem_singleton_self k)
    · have hne : k ≠ old := by
        rintro rfl
        exact absurd hv (by simp)
      exact (hrest k hne).symm.trans hv

theorem killLruKey_isSome_iff (h : c.Agrees) : c.killLruKey.isSome = true ↔ 0 < c.max_entries := by
  have hroom := h.room
  unfold killLruKey
  split
  · exact iff_of_true rfl (by omega)
  · rename_i hfull
    rcases eq_nil_or_concat c.ordering_q with hq | ⟨q, old, hq⟩
    · rw [hq, length_nil] at hfull
      simp only [hq, getLast?_nil]
      exact iff_of_false (by simp) hfull
    · have hold := (h.keys old).1 (by simp [hq])
      obtain ⟨v, hv⟩ := isSome_iff_exists.1 hold
      rw [hq, concat_eq_append, length_append, length_singleton] at hroom
      rw [hq, concat_eq_append, getLast?_concat]
      simp only [bind_eq_bind, bind_some, hv]
      exact iff_of_true rfl (by omega)

/-- A new key in a free place comes first. -/
theorem Agrees.insert_new (hroom : c.ordering_q.length < c.max_entries)
    (hkey : c.contains key = false) (h : c.Agrees) :
    VanadisCache.Agrees { c with
      data_values := c.data_values.insert key value
      ordering_q := key :: c.ordering_q
      used := key :: c.used } := by
  have hnew : key ∉ c.ordering_q := fun hmem => absurd ((h.keys key).1 hmem) (by simp [hkey])
  refine ⟨fun k => ?_, hroom, h.recent_cons (.refl _) hnew⟩
  rw [mem_cons, h.keys k, contains, contains, find?_insert]
  split <;> simp [*]

theorem store_spec (h : c.Agrees) (hd : c.store key value = some d) :
    d.Agrees ∧ EvictsOldest c d ∧
    ∀ k v, d.data_values.find? k = some v → k = key ∧ v = value ∨
      c.data_values.find? k = some v := by
  have hlookup : ∀ (m : OrderedMap UInt64 T) k v, (m.insert key value).find? k = some v →
      k = key ∧ v = value ∨ m.find? k = some v := by
    intro m k v hv
    rw [find?_insert] at hv
    split at hv
    · exact .inl ⟨by assumption, (some.inj hv).symm⟩
    · exact .inr hv
  unfold store at hd
  split at hd
  · rename_i hkey
    cases hd
    have hcontains : ∀ k, ((c.data_values.insert key value).find? k).isSome = c.contains k := by
      intro k
      rw [find?_insert]
      split
      · rename_i hk
        rw [hk, hkey, isSome_some]
      · rfl
    have hfront : (c.sendKeyToFront key).Agrees := h.sendKeyToFront
    refine ⟨⟨fun k => ?_, hfront.room, hfront.recent⟩,
      evictsOldest_of_imp fun k hk => (hcontains k).trans hk, hlookup _⟩
    rw [hfront.keys k, contains_sendKeyToFront]
    exact ((hcontains k).symm ▸ Iff.rfl)
  · rename_i hkey
    obtain ⟨b, hb, rfl⟩ := map_eq_some_iff.1 hd
    have hroom := killLruKey_spec h hb
    have hgone : b.contains key = false := by
      by_contra hmem
      obtain ⟨v, hv⟩ := isSome_iff_exists.1 (not_eq_false _ ▸ hmem)
      exact hkey (isSome_iff_exists.2 ⟨v, hroom.lookup key v hv⟩)
    refine ⟨hroom.agrees.insert_new hroom.room hgone, fun k hk hlost => ?_,
      fun k v hv => (hlookup _ k v hv).imp_right (hroom.lookup k v)⟩
    refine hroom.evicts k hk (eq_false_iff.2 fun hb => ?_)
    rw [contains, find?_insert] at hlost
    split at hlost
    · cases hlost
    · exact absurd (hlost.symm.trans hb) (by simp)

theorem store_isSome_iff (h : c.Agrees) :
    (c.store key value).isSome = true ↔ 0 < c.max_entries := by
  unfold store
  split
  · rename_i hkey
    have hmem := length_pos_of_mem ((h.keys key).2 hkey)
    exact iff_of_true rfl (hmem.trans_le h.room)
  · rw [isSome_map, killLruKey_isSome_iff h]

end VanadisCache

end Cache

section Bytes

variable {mem : UInt64 → UInt8} {addr : UInt64} {i j m n : Nat}

/-- The bytes of memory from an address on. -/
def bytesAt (mem : UInt64 → UInt8) (addr : UInt64) (n : Nat) : List UInt8 :=
  (List.range n).map fun i => mem (addr + .ofNat i)

theorem bytesAt_add :
    bytesAt mem addr (m + n) = bytesAt mem addr m ++ bytesAt mem (addr + .ofNat m) n := by
  unfold bytesAt
  rw [range_add, map_append, List.map_map]
  simp [Function.comp_def, UInt64.ofNat_add, UInt64.add_assoc]

theorem take_bytesAt (h : m ≤ n) : (bytesAt mem addr n).take m = bytesAt mem addr m := by
  obtain ⟨k, rfl⟩ := Nat.exists_eq_add_of_le h
  exact bytesAt_add ▸ take_left' (by simp [bytesAt])

theorem take_drop_bytesAt (h : i + j ≤ n) :
    ((bytesAt mem addr n).drop i).take j = bytesAt mem (addr + .ofNat i) j := by
  obtain ⟨k, rfl⟩ := Nat.exists_eq_add_of_le (le_of_add_right_le h)
  rw [bytesAt_add, drop_left' (by simp [bytesAt]), take_bytesAt (by omega)]

end Bytes

section Loader

inductive VanadisInstructionLoaderMode
  | INFINITE_CACHE_MODE
  | LRU_CACHE_MODE
deriving DecidableEq

structure VanadisInstructionBundle where ins_addr : UInt64
deriving DecidableEq

structure VanadisInstructionLoader where
  cache_line_width : UInt64
  width_pos : 0 < cache_line_width
  loader_mode : VanadisInstructionLoaderMode
  uop_cache : VanadisCache VanadisInstructionBundle
  predecode_cache : VanadisCache (List UInt8)
  infinite_uop_cache : OrderedMap UInt64 VanadisInstructionBundle
  /-- The line of each request to memory that has no answer yet. -/
  pending_loads : OrderedMap Nat UInt64
  next_id : Nat
  /-- All lines that memory was asked for. -/
  sent : List UInt64

structure ReadResp where
  id : Nat
  pAddr : UInt64
  data : List UInt8

namespace VanadisInstructionLoader

open VanadisCache

variable {mem : UInt64 → UInt8} {fuel : Nat} {s t : VanadisInstructionLoader}

/-- A new loader after `setLoaderMode`. -/
def create
    (uop_cache_size predecode_cache_entries : Nat)
    (cachelinewidth : UInt64)
    (hwidth : 0 < cachelinewidth)
    (mode : VanadisInstructionLoaderMode) : VanadisInstructionLoader :=
  ⟨cachelinewidth, hwidth, mode, .empty uop_cache_size, .empty predecode_cache_entries,
    .empty, .empty, 0, []⟩

/-- `acceptResponse`; an answer that is not a whole line is fatal. -/
def acceptResponse (s : VanadisInstructionLoader) (resp : ReadResp) :
    Option (Bool × VanadisInstructionLoader) :=
  if (s.pending_loads.find? resp.id).isSome then
    if resp.data.length ≠ s.cache_line_width.toNat then none
    else (s.predecode_cache.store resp.pAddr resp.data).map fun cache =>
      (true, { s with
        predecode_cache := cache
        pending_loads := s.pending_loads.erase resp.id })
  else some (false, s)

/-- `getPredecodeBytes`; the inner value is the buffer when it is filled. -/
def getPredecodeBytes (s : VanadisInstructionLoader) (addr buffer_req : UInt64) :
    Option (Option (List UInt8) × VanadisInstructionLoader) :=
  if buffer_req > s.cache_line_width then none
  else
    let inst_line_offset := addr % s.cache_line_width
    let cache_line_start := addr - inst_line_offset
    match s.predecode_cache.find cache_line_start with
    | none => some (none, s)
    | some (cached_bytes, cache) =>
      let bytes_from_this_line := min buffer_req (s.cache_line_width - inst_line_offset)
      let buffer := (cached_bytes.drop inst_line_offset.toNat).take bytes_from_this_line.toNat
      if bytes_from_this_line < buffer_req then
        match cache.find (cache_line_start + s.cache_line_width) with
        | none => some (none, { s with predecode_cache := cache })
        | some (cached_bytes, cache) =>
          some (some (buffer ++ cached_bytes.take (buffer_req - bytes_from_this_line).toNat),
            { s with predecode_cache := cache })
      else some (some buffer, { s with predecode_cache := cache })

def cacheDecodedBundle (s : VanadisInstructionLoader) (bundle : VanadisInstructionBundle) :
    Option VanadisInstructionLoader :=
  match s.loader_mode with
  | .LRU_CACHE_MODE =>
    (s.uop_cache.store bundle.ins_addr bundle).map fun cache => { s with uop_cache := cache }
  | .INFINITE_CACHE_MODE =>
    if (s.infinite_uop_cache.find? bundle.ins_addr).isSome then some s
    else some { s with
      infinite_uop_cache := s.infinite_uop_cache.insert bundle.ins_addr bundle }

def hasPredecodeAt (s : VanadisInstructionLoader) (addr len : UInt64) : Bool :=
  let line_start := addr - addr % s.cache_line_width
  let len_line_left := s.cache_line_width - addr % s.cache_line_width
  if len ≤ len_line_left then s.predecode_cache.contains line_start
  else
    s.predecode_cache.contains line_start &&
      s.predecode_cache.contains (line_start + s.cache_line_width)

def isPending (s : VanadisInstructionLoader) (line : UInt64) : Bool :=
  s.pending_loads.entries.any fun e => e.2 == line

/-- One round of the loop of `requestLoadAt`. -/
def requestLine (s : VanadisInstructionLoader) (line_start : UInt64) : VanadisInstructionLoader :=
  if s.predecode_cache.contains line_start then
    { s with predecode_cache := s.predecode_cache.touch line_start }
  else if s.isPending line_start then s
  else
    { s with
      pending_loads := s.pending_loads.insert s.next_id line_start
      next_id := s.next_id + 1
      sent := s.sent ++ [line_start] }

/-- The loop of `requestLoadAt`, none if it runs for more than `fuel` rounds. -/
def requestLines (s : VanadisInstructionLoader) (line_start limit : UInt64) :
    Nat → Option VanadisInstructionLoader
  | 0 => none
  | fuel + 1 =>
    let s := s.requestLine line_start
    let line_start := line_start + s.cache_line_width
    if line_start < limit then s.requestLines line_start limit fuel else some s

def requestLoadAt (s : VanadisInstructionLoader) (addr len : UInt64) (fuel : Nat) :
    Option VanadisInstructionLoader :=
  if len > s.cache_line_width then none
  else s.requestLines (addr - addr % s.cache_line_width) (addr + len) fuel

/-- The state of the loop of `requestLoadAt` after some rounds. -/
def requestRounds (s : VanadisInstructionLoader) (line_start : UInt64) :
    Nat → VanadisInstructionLoader
  | 0 => s
  | rounds + 1 =>
    let s := s.requestLine line_start
    s.requestRounds (line_start + s.cache_line_width) rounds

/-- What memory answers to a request. -/
def memoryAnswer (mem : UInt64 → UInt8) (s : VanadisInstructionLoader) (id : Nat) : ReadResp :=
  let line := (s.pending_loads.find? id).getD 0
  ⟨id, line, bytesAt mem line s.cache_line_width.toNat⟩

inductive Op
  | requestLoadAt (addr len : UInt64)
  | acceptResponse (id : Nat)
  | hasPredecodeAt (addr len : UInt64)
  | getPredecodeBytes (addr len : UInt64)
  | cacheDecodedBundle (bundle : VanadisInstructionBundle)

def step (mem : UInt64 → UInt8) (fuel : Nat) (s : VanadisInstructionLoader) :
    Op → Option VanadisInstructionLoader
  | .requestLoadAt addr len => s.requestLoadAt addr len fuel
  | .acceptResponse id => (s.acceptResponse (memoryAnswer mem s id)).map Prod.snd
  | .hasPredecodeAt _ _ => some s
  | .getPredecodeBytes addr len => (s.getPredecodeBytes addr len).map Prod.snd
  | .cacheDecodedBundle bundle => s.cacheDecodedBundle bundle

/-- The keys of the list are those of the map, at most as many as the capacity. -/
def Sound {T : Type} (c : VanadisCache T) : Prop :=
  c.ordering_q.Perm (c.data_values.entries.map Prod.fst) ∧
    c.data_values.entries.length ≤ c.max_entries

/-- What holds in every state: present bytes are returned as memory has them. -/
structure Exact (mem : UInt64 → UInt8) (s : VanadisInstructionLoader) : Prop where
  returns : ∀ addr len, len ≤ s.cache_line_width → s.hasPredecodeAt addr len = true →
    ∃ t, s.getPredecodeBytes addr len = some (some (bytesAt mem addr len.toNat), t)
  predecode : Sound s.predecode_cache
  uop : Sound s.uop_cache

/-- Memory is asked once for each of some lines that are neither cached nor pending. -/
def Asks (s t : VanadisInstructionLoader) : Prop :=
  ∃ lines, t.sent = s.sent ++ lines ∧ lines.Nodup ∧
    ∀ l ∈ lines, s.predecode_cache.contains l = false ∧ s.isPending l = false

/-- Answers and bundles are taken up, requests are new, and evicted entries the oldest ones. -/
def Meets (mem : UInt64 → UInt8) (fuel : Nat) (s : VanadisInstructionLoader) (op : Op) : Prop :=
  (match op with
    | .requestLoadAt addr _ =>
      ∀ rounds, Asks s (s.requestRounds (addr - addr % s.cache_line_width) rounds)
    | .acceptResponse _ | .cacheDecodedBundle _ => (step mem fuel s op).isSome = true
    | .hasPredecodeAt _ _ | .getPredecodeBytes _ _ => True) ∧
  ∀ t, step mem fuel s op = some t →
    Asks s t ∧ s.predecode_cache.EvictsOldest t.predecode_cache ∧
      s.uop_cache.EvictsOldest t.uop_cache

/-- A cache that takes an entry up has a positive capacity. -/
def HasRoom (s : VanadisInstructionLoader) : Op → Prop
  | .acceptResponse id =>
    (s.pending_loads.find? id).isSome = true → 0 < s.predecode_cache.max_entries
  | .cacheDecodedBundle _ => s.loader_mode = .LRU_CACHE_MODE → 0 < s.uop_cache.max_entries
  | _ => True

structure Inv (mem : UInt64 → UInt8) (s : VanadisInstructionLoader) : Prop where
  predecode : s.predecode_cache.Agrees
  uop : s.uop_cache.Agrees
  bytes : ∀ k line, s.predecode_cache.data_values.find? k = some line →
    line = bytesAt mem k s.cache_line_width.toNat
  ids : ∀ id line, s.pending_loads.find? id = some line → id < s.next_id

theorem asks_of_sent_eq (h : t.sent = s.sent) : Asks s t :=
  ⟨[], h.trans (append_nil _).symm, .nil, fun _ hl => absurd hl not_mem_nil⟩

/-- A use of a line leaves the contents of the cache. -/
theorem Inv.sendKeyToFront (line : UInt64) (h : Inv mem s) :
    Inv mem { s with predecode_cache := s.predecode_cache.sendKeyToFront line } :=
  ⟨h.predecode.sendKeyToFront, h.uop, by simpa using h.bytes, h.ids⟩

theorem Inv.find {k : UInt64} (hk : s.predecode_cache.contains k = true) (h : Inv mem s) :
    s.predecode_cache.find k =
      some (bytesAt mem k s.cache_line_width.toNat, s.predecode_cache.sendKeyToFront k) := by
  obtain ⟨line, hline⟩ := isSome_iff_exists.1 hk
  rw [VanadisCache.find, hline, Option.map_some, h.bytes k line hline]

theorem getPredecodeBytes_returns {addr len : UInt64} (hlen : len ≤ s.cache_line_width)
    (hhas : s.hasPredecodeAt addr len = true) (h : Inv mem s) :
    ∃ t, s.getPredecodeBytes addr len = some (some (bytesAt mem addr len.toNat), t) := by
  have hoff : addr % s.cache_line_width < s.cache_line_width := UInt64.mod_lt _ s.width_pos
  have hleft : (s.cache_line_width - addr % s.cache_line_width).toNat =
      s.cache_line_width.toNat - (addr % s.cache_line_width).toNat :=
    UInt64.toNat_sub_of_le _ _ hoff.le
  have hstart : addr - addr % s.cache_line_width + addr % s.cache_line_width = addr :=
    UInt64.sub_add_cancel _ _
  unfold hasPredecodeAt at hhas
  unfold getPredecodeBytes
  rw [if_neg (not_lt.2 hlen)]
  generalize addr % s.cache_line_width = off at *
  have hslice : ∀ n, off.toNat + n ≤ s.cache_line_width.toNat →
      ((bytesAt mem (addr - off) s.cache_line_width.toNat).drop off.toNat).take n =
        bytesAt mem addr n := fun n hn => by
    rw [take_drop_bytesAt hn, UInt64.ofNat_toNat, hstart]
  have hoff' := UInt64.lt_iff_toNat_lt.1 hoff
  by_cases hone : len ≤ s.cache_line_width - off
  · have hone' := UInt64.le_iff_toNat_le.1 hone
    simp only [if_pos hone] at hhas
    simp only [h.find hhas, min_eq_left hone, lt_irrefl, if_false]
    rw [hslice len.toNat (by omega)]
    exact ⟨_, rfl⟩
  · simp only [if_neg hone, and_eq_true] at hhas
    have hright := (h.sendKeyToFront (addr - off)).find
      (contains_sendKeyToFront.trans hhas.2)
    have hlt := not_le.1 hone
    have hlt' := UInt64.lt_iff_toNat_lt.1 hlt
    have hlen' := UInt64.le_iff_toNat_le.1 hlen
    have hrest := UInt64.toNat_sub_of_le _ _ hlt.le
    simp only [h.find hhas.1, min_eq_right hlt.le, if_pos hlt, hright]
    have hnext : addr - off + s.cache_line_width =
        addr + .ofNat (s.cache_line_width - off).toNat := by
      rw [UInt64.ofNat_toNat, UInt64.sub_eq_add_neg, UInt64.sub_eq_add_neg, UInt64.add_assoc,
        UInt64.add_comm (-off)]
    rw [hslice _ (by omega), take_bytesAt (by omega), hnext, ← bytesAt_add, hrest,
      add_sub_of_le hlt'.le]
    exact ⟨_, rfl⟩

theorem Agrees.sound {T : Type} {c : VanadisCache T} (h : c.Agrees) : Sound c :=
  ⟨h.keys_perm, h.size_eq ▸ h.room⟩

theorem Inv.exact (h : Inv mem s) : Exact mem s :=
  ⟨fun _ _ hlen hhas => getPredecodeBytes_returns hlen hhas h, Agrees.sound h.predecode,
    Agrees.sound h.uop⟩

/-- What one round of the loop of `requestLoadAt` does. -/
theorem requestLine_spec (line : UInt64) (h : Inv mem s) :
    Inv mem (s.requestLine line) ∧ (s.requestLine line).uop_cache = s.uop_cache ∧
    (∀ k, (s.requestLine line).predecode_cache.contains k = s.predecode_cache.contains k) ∧
    (∀ k, s.isPending k = true → (s.requestLine line).isPending k = true) ∧
    ((s.requestLine line).sent = s.sent ∨
      (s.requestLine line).sent = s.sent ++ [line] ∧ (s.requestLine line).isPending line = true ∧
        s.predecode_cache.contains line = false ∧ s.isPending line = false) := by
  unfold requestLine
  split
  · rename_i hhit
    rw [VanadisCache.touch, if_pos hhit]
    exact ⟨h.sendKeyToFront line, rfl, fun k => contains_sendKeyToFront, fun _ hk => hk, .inl rfl⟩
  · rename_i hmiss
    split
    · exact ⟨h, rfl, fun _ => rfl, fun _ hk => hk, .inl rfl⟩
    · rename_i hnew
      have hfresh : s.pending_loads.find? s.next_id = none :=
        eq_none_iff_forall_not_mem.2 fun l hl => lt_irrefl _ (h.ids _ l hl)
      have hany : ∀ k, (s.pending_loads.insert s.next_id line).entries.any (fun e => e.2 == k) =
          (line == k || s.isPending k) := fun k =>
        (insert_entries_perm _ line hfresh).any_eq
      refine ⟨⟨h.predecode, h.uop, h.bytes, fun id l hl => ?_⟩, rfl, fun _ => rfl, fun k hk => ?_,
        .inr ⟨rfl, ?_, not_eq_true _ ▸ hmiss, not_eq_true _ ▸ hnew⟩⟩
      · rw [find?_insert] at hl
        split at hl
        · rename_i hid
          exact hid ▸ lt_succ_self _
        · exact lt_succ_of_lt (h.ids id l hl)
      · rw [isPending, hany, hk, Bool.or_true]
      · rw [isPending, hany, beq_self_eq_true, Bool.true_or]

/-- After any number of rounds only lines that were neither cached nor pending are asked for. -/
theorem requestRounds_spec (line : UInt64) (rounds : Nat) (h : Inv mem s) :
    Inv mem (s.requestRounds line rounds) ∧ Asks s (s.requestRounds line rounds) ∧
    (s.requestRounds line rounds).uop_cache = s.uop_cache ∧
    ∀ k, (s.requestRounds line rounds).predecode_cache.contains k =
      s.predecode_cache.contains k := by
  induction rounds generalizing s line with
  | zero => exact ⟨h, asks_of_sent_eq rfl, rfl, fun _ => rfl⟩
  | succ rounds ih =>
    obtain ⟨hinv, huop, hcached, hpending, hsent⟩ := requestLine_spec line h
    obtain ⟨hinv', ⟨lines, hlines, hnodup, hnew⟩, huop', hcached'⟩ :=
      ih (line + (s.requestLine line).cache_line_width) hinv
    have hold : ∀ l ∈ lines, s.predecode_cache.contains l = false ∧ s.isPending l = false :=
      fun l hl => ⟨(hcached l).symm.trans (hnew l hl).1,
        eq_false_iff.2 fun hp => by simpa [hpending l hp] using (hnew l hl).2⟩
    refine ⟨hinv', ?_, huop'.trans huop, fun k => (hcached' k).trans (hcached k)⟩
    rcases hsent with hsent | ⟨hsent, hnow, hmiss, hfree⟩
    · exact ⟨lines, hlines.trans (by rw [hsent]), hnodup, hold⟩
    · refine ⟨line :: lines, hlines.trans (by rw [hsent, append_assoc]; rfl),
        nodup_cons.2 ⟨fun hl => ?_, hnodup⟩, forall_mem_cons.2 ⟨⟨hmiss, hfree⟩, hold⟩⟩
      exact absurd (hnow.symm.trans (hnew line hl).2) (by simp)

theorem requestLines_eq_rounds {line limit : UInt64} (h : s.requestLines line limit fuel = some t) :
    ∃ rounds, t = s.requestRounds line rounds := by
  induction fuel generalizing s line with
  | zero => exact absurd h (by simp [requestLines])
  | succ fuel ih =>
    simp only [requestLines] at h
    split at h
    · obtain ⟨rounds, hrounds⟩ := ih h
      exact ⟨rounds + 1, hrounds⟩
    · exact ⟨1, (some.inj h).symm⟩

theorem acceptResponse_isSome_iff {id : Nat} (h : Inv mem s) :
    (s.acceptResponse (memoryAnswer mem s id)).isSome = true ↔ HasRoom s (.acceptResponse id) := by
  have hlength : (memoryAnswer mem s id).data.length = s.cache_line_width.toNat := by
    simp [memoryAnswer, bytesAt]
  unfold acceptResponse
  split
  · rename_i hid
    rw [if_neg (not_not.2 hlength), isSome_map, store_isSome_iff h.predecode]
    exact ⟨fun hroom _ => hroom, fun hroom => hroom hid⟩
  · rename_i hid
    exact iff_of_true rfl fun hsome => absurd hsome hid

theorem cacheDecodedBundle_isSome_iff {bundle : VanadisInstructionBundle} (h : Inv mem s) :
    (s.cacheDecodedBundle bundle).isSome = true ↔ HasRoom s (.cacheDecodedBundle bundle) := by
  unfold cacheDecodedBundle
  split
  · rename_i hmode
    rw [isSome_map, store_isSome_iff h.uop]
    exact ⟨fun hroom _ => hroom, fun hroom => hroom hmode⟩
  · rename_i hmode
    refine iff_of_true ?_ fun hlru => absurd (hmode.symm.trans hlru) (by decide)
    split <;> rfl

/-- `getPredecodeBytes` only uses lines of the cache. -/
theorem getPredecodeBytes_uses {addr len : UInt64} {buffer : Option (List UInt8)}
    (hc : s.predecode_cache.Agrees) (h : s.getPredecodeBytes addr len = some (buffer, t)) :
    ∃ cache, t = { s with predecode_cache := cache } ∧ cache.Agrees ∧
      cache.data_values = s.predecode_cache.data_values := by
  have hfind : ∀ {c d : VanadisCache (List UInt8)} {k line}, c.Agrees → c.find k = some (line, d) →
      d.Agrees ∧ d.data_values = c.data_values := by
    intro c d k line hagrees hd
    obtain ⟨_, _, heq⟩ := map_eq_some_iff.1 hd
    cases heq
    exact ⟨hagrees.sendKeyToFront, data_values_sendKeyToFront⟩
  unfold getPredecodeBytes at h
  split at h
  · cases h
  · dsimp only at h
    split at h
    · cases h
      exact ⟨_, rfl, hc, rfl⟩
    · rename_i hleft
      obtain ⟨hagrees, hdata⟩ := hfind hc hleft
      split at h
      · split at h
        · cases h
          exact ⟨_, rfl, hagrees, hdata⟩
        · rename_i hright
          cases h
          obtain ⟨hagrees', hdata'⟩ := hfind hagrees hright
          exact ⟨_, rfl, hagrees', hdata'.trans hdata⟩
      · cases h
        exact ⟨_, rfl, hagrees, hdata⟩

/-- What every call that returns does. -/
theorem step_spec {op : Op} (h : Inv mem s) (ht : step mem fuel s op = some t) :
    Inv mem t ∧ Asks s t ∧ s.predecode_cache.EvictsOldest t.predecode_cache ∧
      s.uop_cache.EvictsOldest t.uop_cache := by
  have hsame : ∀ {T : Type} (c : VanadisCache T), c.EvictsOldest c :=
    fun c => evictsOldest_of_imp fun _ hk => hk
  cases op with
  | requestLoadAt addr len =>
    simp only [step, requestLoadAt] at ht
    split at ht
    · cases ht
    · obtain ⟨rounds, rfl⟩ := requestLines_eq_rounds ht
      obtain ⟨hinv, hasks, huop, hcached⟩ :=
        requestRounds_spec (addr - addr % s.cache_line_width) rounds h
      exact ⟨hinv, hasks, evictsOldest_of_imp fun k hk => (hcached k).trans hk, huop ▸ hsame _⟩
  | acceptResponse id =>
    obtain ⟨⟨b, t⟩, hr, rfl⟩ := map_eq_some_iff.1 ht
    unfold acceptResponse at hr
    split at hr
    · rename_i hid
      split at hr
      · cases hr
      · obtain ⟨cache, hcache, heq⟩ := map_eq_some_iff.1 hr
        cases heq
        obtain ⟨hagrees, hevicts, hlookup⟩ := store_spec h.predecode hcache
        refine ⟨⟨hagrees, h.uop, fun k line hk => ?_, fun id' l hl => ?_⟩,
          asks_of_sent_eq rfl, hevicts, hsame _⟩
        · rcases hlookup k line hk with ⟨rfl, rfl⟩ | hk
          · rfl
          · exact h.bytes k line hk
        · rw [find?_erase] at hl
          split at hl
          · cases hl
          · exact h.ids id' l hl
    · cases hr
      exact ⟨h, asks_of_sent_eq rfl, hsame _, hsame _⟩
  | hasPredecodeAt addr len =>
    cases ht
    exact ⟨h, asks_of_sent_eq rfl, hsame _, hsame _⟩
  | getPredecodeBytes addr len =>
    obtain ⟨⟨b, t⟩, hr, rfl⟩ := map_eq_some_iff.1 ht
    obtain ⟨cache, rfl, hagrees, hdata⟩ := getPredecodeBytes_uses h.predecode hr
    refine ⟨⟨hagrees, h.uop, fun k line hk => h.bytes k line (hdata ▸ hk), h.ids⟩,
      asks_of_sent_eq rfl, evictsOldest_of_imp fun k hk => ?_, hsame _⟩
    exact (congrArg (fun m => (m.find? k).isSome) hdata).trans hk
  | cacheDecodedBundle bundle =>
    simp only [step, cacheDecodedBundle] at ht
    split at ht
    · obtain ⟨cache, hcache, rfl⟩ := map_eq_some_iff.1 ht
      obtain ⟨hagrees, hevicts, -⟩ := store_spec h.uop hcache
      exact ⟨⟨h.predecode, hagrees, h.bytes, h.ids⟩, asks_of_sent_eq rfl, hsame _, hevicts⟩
    · split at ht
      · cases ht
        exact ⟨h, asks_of_sent_eq rfl, hsame _, hsame _⟩
      · cases ht
        exact ⟨⟨h.predecode, h.uop, h.bytes, h.ids⟩, asks_of_sent_eq rfl, hsame _, hsame _⟩

theorem meets_iff_hasRoom {op : Op} (h : Inv mem s) : Meets mem fuel s op ↔ HasRoom s op := by
  have hstep : ∀ t, step mem fuel s op = some t → Asks s t ∧
      s.predecode_cache.EvictsOldest t.predecode_cache ∧ s.uop_cache.EvictsOldest t.uop_cache :=
    fun t ht => (step_spec h ht).2
  refine (and_iff_left hstep).trans ?_
  cases op with
  | requestLoadAt addr len =>
    exact iff_of_true (fun rounds => (requestRounds_spec _ rounds h).2.1) trivial
  | acceptResponse id =>
    exact isSome_map.symm ▸ acceptResponse_isSome_iff h
  | hasPredecodeAt addr len => exact .rfl
  | getPredecodeBytes addr len => exact .rfl
  | cacheDecodedBundle bundle => exact cacheDecodedBundle_isSome_iff h

theorem create_inv {uop_cache_size predecode_cache_entries : Nat} {cachelinewidth : UInt64}
    {hwidth : 0 < cachelinewidth} {mode : VanadisInstructionLoaderMode} :
    Inv mem (create uop_cache_size predecode_cache_entries cachelinewidth hwidth mode) :=
  ⟨empty_agrees _, empty_agrees _,
    fun _ _ h => absurd h (by simp [create, VanadisCache.empty]),
    fun _ _ h => absurd h (by simp [create])⟩

/-- The loader meets its purpose on a run exactly if no cache of capacity zero takes entries up. -/
theorem loader_run_iff (mem : UInt64 → UInt8) (fuel uop_cache_size predecode_cache_entries : Nat)
    (cachelinewidth : {width : UInt64 // 0 < width}) (mode : VanadisInstructionLoaderMode)
    (ops : List Op) :
    let s := create uop_cache_size predecode_cache_entries cachelinewidth cachelinewidth.2 mode
    Throughout (step mem fuel) (Exact mem) s ops ∧
        StepsMeet (step mem fuel) (Meets mem fuel) s ops ↔
      StepsMeet (step mem fuel) HasRoom s ops :=
  throughout_and_stepsMeet_iff_of_invariant (fun _ h => h.exact)
    (fun _ _ _ h ht => (step_spec h ht).1) (fun _ _ h => meets_iff_hasRoom h) create_inv

/-- With no place for a line the answer of memory finds nothing to drop. -/
theorem not_meets_capacity_zero :
    ¬ StepsMeet (step (fun _ => 0) 2) (Meets (fun _ => 0) 2)
      (create 128 0 4 (by decide) .LRU_CACHE_MODE) [.requestLoadAt 0 4, .acceptResponse 0] :=
  fun h => absurd (h.2 _ rfl).1.1 (by decide)

end VanadisInstructionLoader

end Loader

end SstElements.Vanadis.InstructionLoader
