import Mathlib
import SstElements.MemHierarchy.Backing

/-!
# Backing stores as flat byte maps

A store refines a flat byte map if every list of calls within its addresses is
answered as by a map from addresses to bytes, in which a byte holds what the
most recent covering `set` gave it.  The mapped buffer does so without an
offset, the block table for every unit whose shift can be computed.
-/

namespace SstElements.MemHierarchy

open Library Function List Option Nat

namespace BackingCall

/-- The bytes of a call lie between two bounds and in its vector. -/
def InRange (low high : Nat) : BackingCall → Prop
  | .set addr _ => low ≤ addr.toNat ∧ addr.toNat < high
  | .setVector addr size data =>
    low ≤ addr.toNat ∧ addr.toNat + size.toNat ≤ high ∧
      size.toNat ≤ data.length
  | .get addr => low ≤ addr.toNat ∧ addr.toNat < high
  | .getVector addr size data =>
    low ≤ addr.toNat ∧ addr.toNat + size.toNat ≤ high ∧
      size.toNat ≤ data.length

/-- A call on a flat byte map. -/
def flat (f : Nat → UInt8) : BackingCall → List UInt8 × (Nat → UInt8)
  | .set addr value => ([], writeFrom f addr.toNat [value])
  | .setVector addr size data =>
    ([], writeFrom f addr.toNat (data.take size.toNat))
  | .get addr => ([f addr.toNat], f)
  | .getVector addr size data =>
    (readFrom f addr.toNat size.toNat ++ data.drop size.toNat, f)

end BackingCall

def RefinesByteMap {σ : Type}
    (step : σ → BackingCall → Option (List UInt8 × σ))
    (b : σ) (low high : Nat) : Prop :=
  ∃ f : Nat → UInt8, ∀ calls : List BackingCall,
    (∀ c ∈ calls, c.InRange low high) →
      ∃ replies,
        answersOf step b calls = some replies ∧
        answersOf (fun g c => some (BackingCall.flat g c)) f calls = some replies

/-- A store that shows a byte map at every step refines it. -/
theorem refinesByteMap_of_simulation {σ : Type} {step : σ → BackingCall → Option (List UInt8 × σ)}
    {R : σ → (Nat → UInt8) → Prop} {low high : Nat} {b : σ} {f : Nat → UInt8} (hR : R b f)
    (hstep : ∀ b f c, R b f → c.InRange low high →
      ∃ b', step b c = some ((c.flat f).1, b') ∧ R b' (c.flat f).2) :
    RefinesByteMap step b low high := by
  refine ⟨f, fun calls hcalls => ?_⟩
  refine answersOf_eq_of_simulation ?_ hR hcalls
  intro b f c hR hc
  obtain ⟨b', hb', hR'⟩ := hstep b f c hR hc
  exact ⟨_, b', _, hb', rfl, hR'⟩

theorem exists_ne_byte (x : UInt8) : ∃ v, v ≠ x := by
  by_cases h : x = 0
  · exact ⟨1, by rw [h]; decide⟩
  · exact ⟨0, fun heq => h heq.symm⟩

variable {data : List UInt8} {i n : Nat}

theorem take_drop_succ (hi : i < data.length) :
    (data.drop i).take (n + 1) = data[i] :: (data.drop (i + 1)).take n := by
  rw [drop_eq_getElem_cons hi, take_succ_cons]

theorem set_append_drop {v : UInt8} {values : List UInt8} (hi : i < data.length) :
    (data.set i v).take (i + 1) ++ values ++ (data.set i v).drop (i + 1 + n) =
      data.take i ++ v :: values ++ data.drop (i + (n + 1)) := by
  have htake : (data.set i v).take (i + 1) = data.take i ++ [v] := by
    rw [take_succ_eq_append_getElem (by simpa using hi)]
    simp [take_set_of_le]
  rw [htake, drop_set_of_lt (by omega)]
  simp [add_assoc, add_comm n 1]

namespace BackingMMAP

/-- The buffer is the map on its size and addresses are indices. -/
structure Shows (size : UInt64) (b : BackingMMAP) (f : Nat → UInt8) : Prop where
  size_eq : b.m_size = size
  offset_eq : b.m_offset = 0
  bytes : ∀ x < size.toNat, b.m_buffer x = f x

section Mapped

variable {size : UInt64} {b : BackingMMAP} {f : Nat → UInt8} {addr : Addr}

theorem toNat_index {i : Nat} (h : addr.toNat + i < size.toNat) :
    (addr + UInt64.ofNat i).toNat = addr.toNat + i := by
  have hsize := toNat_lt_size size
  have hi : (UInt64.ofNat i).toNat = i := by rw [UInt64.toNat_ofNat', mod_eq_of_lt (by omega)]
  rw [toNat_add_of_lt] <;> omega

theorem Shows.load (hb : b.Shows size f) {i : Addr} (hi : i.toNat < size.toNat) :
    b.load i = some (f i.toNat) := by
  unfold BackingMMAP.load
  rw [hb.size_eq, if_pos (UInt64.lt_iff_toNat_lt.2 hi), hb.bytes _ hi]

theorem Shows.store (hb : b.Shows size f) {i : Addr} {v : UInt8} (hi : i.toNat < size.toNat) :
    ∃ b', b.store i v = some b' ∧ b'.Shows size (update f i.toNat v) := by
  have hlt : i < b.m_size := by
    rw [hb.size_eq]
    exact UInt64.lt_iff_toNat_lt.2 hi
  unfold BackingMMAP.store
  rw [if_pos hlt]
  refine ⟨_, rfl, hb.size_eq, hb.offset_eq, ?_⟩
  intro x hx
  by_cases heq : x = i.toNat
  · subst heq
    simp
  · simp [update_of_ne heq, hb.bytes x hx]

theorem setLoop_spec {data : List UInt8} {i n : Nat} (hb : b.Shows size f)
    (haddr : addr.toNat + i + n ≤ size.toNat) (hdata : i + n ≤ data.length) :
    ∃ b', setLoop addr data b i n = some b' ∧ b'.Shows size
        (writeFrom f (addr.toNat + i) ((data.drop i).take n)) := by
  induction n generalizing b f i with
  | zero =>
    exact ⟨b, rfl, by simpa using hb⟩
  | succ n ih =>
    have hi : i < data.length := by omega
    have hindex := @toNat_index size addr i (by omega)
    obtain ⟨b₁, hstore, hb₁⟩ := @Shows.store size b f hb
      (addr + UInt64.ofNat i) data[i] (by omega)
    rw [hindex] at hb₁
    obtain ⟨b', hloop, hb'⟩ := ih hb₁ (i := i + 1) (by omega) (by omega)
    refine ⟨b', ?_, ?_⟩
    · simp [setLoop, hi, hstore, hloop]
    · rw [take_drop_succ hi, writeFrom_cons]
      exact hb'

theorem getLoop_spec {data : List UInt8} {i n : Nat} (hb : b.Shows size f)
    (haddr : addr.toNat + i + n ≤ size.toNat) (hdata : i + n ≤ data.length) :
    b.getLoop addr data i n =
      some (data.take i ++ readFrom f (addr.toNat + i) n ++ data.drop (i + n)) := by
  induction n generalizing data i with
  | zero =>
    simp [getLoop]
  | succ n ih =>
    have hi : i < data.length := by omega
    have hindex := @toNat_index size addr i (by omega)
    have hload := @Shows.load size b f hb (addr + UInt64.ofNat i) (by omega)
    have hloop := @ih (data.set i (f (addr.toNat + i))) (i + 1)
      (by omega) (by simpa using (show i + 1 + n ≤ data.length by omega))
    rw [set_append_drop hi] at hloop
    rw [hindex] at hload
    simp only [getLoop, hload, bind_eq_bind, bind_some, if_pos hi,
      hloop, readFrom_succ, add_assoc]

/-- Every call leaves the store with the byte map's bytes. -/
theorem Shows.step {c : BackingCall} (hb : b.Shows size f) (hc : c.InRange 0 size.toNat) :
    ∃ b', b.step c = some ((c.flat f).1, b') ∧ b'.Shows size (c.flat f).2 := by
  have hoffset : ∀ addr : Addr, addr - b.m_offset = addr := by
    intro addr
    rw [hb.offset_eq, UInt64.sub_zero]
  cases c with
  | set addr value =>
    obtain ⟨b', hstore, hb'⟩ := @Shows.store size b f hb addr value hc.2
    refine ⟨b', ?_, ?_⟩
    · simp [BackingMMAP.step, hoffset, hstore, BackingCall.flat]
    · simpa [BackingCall.flat, writeFrom_singleton] using hb'
  | setVector addr n data =>
    obtain ⟨b', hloop, hb'⟩ := @setLoop_spec size b f addr data 0 n.toNat hb
      hc.2.1 (by simpa using hc.2.2)
    refine ⟨b', ?_, ?_⟩
    · simp [BackingMMAP.step, hloop, BackingCall.flat]
    · simpa [BackingCall.flat] using hb'
  | get addr =>
    refine ⟨b, ?_, hb⟩
    simp [BackingMMAP.step, hoffset, hb.load hc.2, BackingCall.flat]
  | getVector addr n data =>
    have hloop := @getLoop_spec size b f addr data 0 n.toNat hb
      hc.2.1 (by simpa using hc.2.2)
    refine ⟨b, ?_, hb⟩
    simp [BackingMMAP.step, hloop, BackingCall.flat]

end Mapped

/--
A one-byte `set` at the first address is not read back by a vector `get` if
there is an offset.
-/
theorem offset_eq_zero_of_refines {b : BackingMMAP} (hsize : 0 < b.m_size)
    (h : RefinesByteMap step b b.m_offset.toNat (b.m_offset.toNat + b.m_size.toNat)) :
    b.m_offset = 0 := by
  have hpos : 0 < b.m_size.toNat := UInt64.lt_iff_toNat_lt.1 hsize
  by_contra hne
  obtain ⟨f, hf⟩ := h
  obtain ⟨v, hv⟩ := exists_ne_byte (b.m_buffer b.m_offset.toNat)
  obtain ⟨replies, hb, hflat⟩ := hf
    [.set b.m_offset v, .getVector b.m_offset 1 [0]] (by
      intro c hc
      rcases mem_cons.1 hc with rfl | hc
      · exact ⟨le_rfl, by omega⟩
      · rw [mem_singleton.1 hc]
        exact ⟨le_rfl, Nat.add_le_add_left hpos _, le_rfl⟩)
  have hexpected : replies = [[], [v]] := by
    simpa [answersOf, BackingCall.flat, writeFrom_singleton, readFrom_succ, eq_comm] using hflat
  have hother : b.m_offset.toNat ≠ 0 := fun hzero => hne ((toNat_eq_zero_iff _).1 hzero)
  have hset : b.step (.set b.m_offset v) =
      some ([], { b with m_buffer := update b.m_buffer 0 v }) := by
    simp [step, store, hsize]
  subst hexpected
  rw [answersOf, hset, bind_some] at hb
  by_cases hin : b.m_offset < b.m_size
  · simp [answersOf, step, getLoop, load, hin, update_of_ne hother] at hb
    exact hv hb.symm
  · simp [answersOf, step, getLoop, load, hin] at hb

end BackingMMAP

namespace BackingMalloc

variable {fresh : Addr → Nat → UInt8}

/-- What a block holds, or will hold once it is allocated. -/
def content (fresh : Addr → Nat → UInt8) (b : BackingMalloc) (bAddr : Addr) : Nat → UInt8 :=
  (b.m_buffer bAddr).getD (b.newBlock fresh bAddr)

/-- The blocks of `2 ^ k` bytes put together are the map. -/
structure Shows (fresh : Addr → Nat → UInt8) (k : Nat)
    (b : BackingMalloc) (f : Nat → UInt8) : Prop where
  shift_lt : k < 31
  unit_eq : b.m_allocUnit.toNat = 2 ^ k
  shift_eq : b.m_shift = k
  bytes : ∀ x < 2 ^ 64,
    b.content fresh (UInt64.ofNat (x / 2 ^ k)) (x % 2 ^ k) = f x

/-- The block is allocated and its byte at the offset is the byte `x`. -/
structure Located (b : BackingMalloc) (k : Nat) (bAddr offset : Addr) (x : Nat) : Prop where
  index : bAddr.toNat * 2 ^ k + offset.toNat = x
  offset_lt : offset.toNat < 2 ^ k
  mapped : ∃ block, b.m_buffer bAddr = some block

section Blocks

variable {k : Nat} {b : BackingMalloc} {f : Nat → UInt8}
variable {bAddr offset : Addr} {x : Nat}

theorem Located.div_eq (h : b.Located k bAddr offset x) : x / 2 ^ k = bAddr.toNat := by
  rw [← h.index, mul_comm, mul_add_div (Nat.two_pow_pos k),
    div_eq_of_lt h.offset_lt, add_zero]

theorem Located.mod_eq (h : b.Located k bAddr offset x) : x % 2 ^ k = offset.toNat := by
  rw [← h.index, mul_comm, mul_add_mod, mod_eq_of_lt h.offset_lt]

@[simp] theorem content_allocIfNeeded (bAddr : Addr) :
    (b.allocIfNeeded fresh bAddr).content fresh = b.content fresh := by
  unfold allocIfNeeded
  cases hblock : b.m_buffer bAddr with
  | some block =>
    rfl
  | none =>
    funext other
    by_cases heq : other = bAddr
    · subst heq
      simp [content, hblock]
    · simp [content, update_of_ne heq, newBlock]

@[simp] theorem m_allocUnit_allocIfNeeded (bAddr : Addr) :
    (b.allocIfNeeded fresh bAddr).m_allocUnit = b.m_allocUnit := by
  unfold allocIfNeeded
  split <;> rfl

@[simp] theorem m_shift_allocIfNeeded (bAddr : Addr) :
    (b.allocIfNeeded fresh bAddr).m_shift = b.m_shift := by
  unfold allocIfNeeded
  split <;> rfl

theorem mapped_allocIfNeeded (bAddr : Addr) :
    ∃ block, (b.allocIfNeeded fresh bAddr).m_buffer bAddr = some block := by
  unfold allocIfNeeded
  cases hblock : b.m_buffer bAddr with
  | some block =>
    exact ⟨block, hblock⟩
  | none =>
    exact ⟨_, update_self ..⟩

theorem Shows.allocIfNeeded (hb : b.Shows fresh k f) (bAddr : Addr) :
    (b.allocIfNeeded fresh bAddr).Shows fresh k f where
  shift_lt := hb.shift_lt
  unit_eq := by rw [m_allocUnit_allocIfNeeded, hb.unit_eq]
  shift_eq := by rw [m_shift_allocIfNeeded, hb.shift_eq]
  bytes := by
    intro x hx
    rw [content_allocIfNeeded, hb.bytes x hx]

theorem Shows.located (hb : b.Shows fresh k f) (addr : Addr) :
    (b.allocIfNeeded fresh (b.blockOf addr)).Located k (b.blockOf addr)
      (b.offsetOf addr) addr.toNat := by
  have hk : k < 64 := by
    have := hb.shift_lt
    omega
  have hle : addr.toNat / 2 ^ k * 2 ^ k ≤ addr.toNat := div_mul_le_self _ _
  have hblock : (b.blockOf addr).toNat = addr.toNat / 2 ^ k := by
    unfold blockOf
    rw [hb.shift_eq, toNat_shiftRight_ofNat hk]
  have hbase : (b.blockOf addr <<< UInt64.ofNat k).toNat =
      addr.toNat / 2 ^ k * 2 ^ k := by
    rw [toNat_shiftLeft_ofNat hk] <;> rw [hblock]
    exact lt_of_le_of_lt hle (toNat_lt_size addr)
  have hoffset : (b.offsetOf addr).toNat = addr.toNat % 2 ^ k := by
    unfold offsetOf
    rw [hb.shift_eq, UInt64.toNat_sub_of_le _ _ (by
        rw [UInt64.le_iff_toNat_le, hbase]
        exact hle), hbase, mod_eq_sub_mul_div, mul_comm (2 ^ k)]
  refine ⟨?_, ?_, mapped_allocIfNeeded _⟩
  · rw [hblock, hoffset, mul_comm]
    exact div_add_mod _ _
  · rw [hoffset]
    exact mod_lt _ (Nat.two_pow_pos k)

theorem Shows.offset_lt (hb : b.Shows fresh k f) (hx : b.Located k bAddr offset x) :
    offset < b.m_allocUnit.toUInt64 := by
  rw [UInt64.lt_iff_toNat_lt, UInt32.toNat_toUInt64, hb.unit_eq]
  exact hx.offset_lt

theorem Shows.load {bAddr offset : Addr} {x : Nat} (hb : b.Shows fresh k f)
    (hx : b.Located k bAddr offset x) (hlt : x < 2 ^ 64) :
    b.load bAddr offset = some (f x) := by
  obtain ⟨block, hblock⟩ := hx.mapped
  have hbyte := hb.bytes x hlt
  rw [hx.div_eq, hx.mod_eq, UInt64.ofNat_toNat, content, hblock, getD_some] at hbyte
  unfold BackingMalloc.load
  rw [hblock]
  simp only [hb.offset_lt hx, if_true, hbyte]

theorem Shows.store {bAddr offset : Addr} {x : Nat} {v : UInt8} (hb : b.Shows fresh k f)
    (hx : b.Located k bAddr offset x) :
    ∃ b', b.store bAddr offset v = some b' ∧ b'.Shows fresh k (update f x v) ∧
      ∃ block, b'.m_buffer bAddr = some block := by
  obtain ⟨block, hblock⟩ := hx.mapped
  unfold BackingMalloc.store
  rw [hblock]
  simp only [hb.offset_lt hx, if_true]
  refine ⟨_, rfl, ⟨hb.shift_lt, hb.unit_eq, hb.shift_eq, ?_⟩, _, update_self ..⟩
  intro y hy
  have hbyte := hb.bytes y hy
  by_cases haddr : UInt64.ofNat (y / 2 ^ k) = bAddr
  · -- The byte lies in the block that is written.
    have hdiv : y / 2 ^ k = bAddr.toNat := by
      rw [← haddr, UInt64.toNat_ofNat', mod_eq_of_lt]
      exact lt_of_le_of_lt (div_le_self _ _) hy
    rw [haddr, content, hblock, getD_some] at hbyte
    rw [haddr, content]
    simp only [update_self, getD_some]
    by_cases heq : y = x
    · subst heq
      rw [hx.mod_eq, update_self, update_self]
    · have hoffset : y % 2 ^ k ≠ offset.toNat := by
        intro hmod
        apply heq
        rw [← hx.index, ← div_add_mod y (2 ^ k), hdiv, hmod, mul_comm]
      rw [update_of_ne hoffset, update_of_ne heq, hbyte]
  · have heq : y ≠ x := by
      rintro rfl
      apply haddr
      rw [hx.div_eq, UInt64.ofNat_toNat]
    rw [update_of_ne heq, ← hbyte]
    simp [content, update_of_ne haddr, newBlock]

theorem Shows.next (hb : b.Shows fresh k f) (hx : b.Located k bAddr offset x)
    (hlt : x + 1 < 2 ^ 64) :
    if offset + 1 = b.m_allocUnit.toUInt64 then
      (b.allocIfNeeded fresh (bAddr + 1)).Located k (bAddr + 1) 0 (x + 1)
    else b.Located k bAddr (offset + 1) (x + 1) := by
  have hoffset := hx.offset_lt
  have hindex := hx.index
  have hsucc : (offset + 1).toNat = offset.toNat + 1 := by
    rw [toNat_add_of_lt] <;> rw [show (1 : UInt64).toNat = 1 from rfl]
    omega
  have hiff : offset + 1 = b.m_allocUnit.toUInt64 ↔ offset.toNat + 1 = 2 ^ k := by
    rw [← UInt64.toNat_inj, hsucc, UInt32.toNat_toUInt64, hb.unit_eq]
  by_cases hlast : offset.toNat + 1 = 2 ^ k
  · rw [if_pos (hiff.2 hlast)]
    have hle : bAddr.toNat ≤ bAddr.toNat * 2 ^ k := Nat.le_mul_of_pos_right _ (Nat.two_pow_pos k)
    have hblock : (bAddr + 1).toNat = bAddr.toNat + 1 := by
      rw [toNat_add_of_lt] <;> rw [show (1 : UInt64).toNat = 1 from rfl]
      omega
    refine ⟨?_, Nat.two_pow_pos k, mapped_allocIfNeeded _⟩
    rw [hblock, Nat.succ_mul, show (0 : UInt64).toNat = 0 from rfl]
    omega
  · rw [if_neg (fun h => hlast (hiff.1 h))]
    exact ⟨by omega, by omega, hx.mapped⟩

theorem setLoop_spec {data : List UInt8} {bAddr offset : Addr} {i n x : Nat}
    (hb : b.Shows fresh k f) (hx : n ≠ 0 → b.Located k bAddr offset x) (hlt : x + n ≤ 2 ^ 64)
    (hdata : i + n ≤ data.length) :
    ∃ b', setLoop fresh data b bAddr offset i n = some b' ∧
      b'.Shows fresh k (writeFrom f x ((data.drop i).take n)) := by
  induction n generalizing b f bAddr offset i x with
  | zero =>
    exact ⟨b, rfl, by simpa using hb⟩
  | succ n ih =>
    have hi : i < data.length := by omega
    have hx := hx (succ_ne_zero n)
    obtain ⟨b₁, hstore, hb₁, hmapped⟩ := @Shows.store fresh k b f bAddr offset x
      data[i] hb hx
    have hx₁ : b₁.Located k bAddr offset x := ⟨hx.index, hx.offset_lt, hmapped⟩
    have hnext := fun hn : n ≠ 0 => hb₁.next hx₁ (by omega)
    rw [take_drop_succ hi, writeFrom_cons]
    by_cases hlast : offset + 1 = b₁.m_allocUnit.toUInt64
    · simp only [if_pos hlast] at hnext
      obtain ⟨b', hloop, hb'⟩ := ih (hb₁.allocIfNeeded (bAddr + 1)) hnext
        (i := i + 1) (by omega) (by omega)
      refine ⟨b', ?_, hb'⟩
      simp [setLoop, hi, hstore, hlast, hloop]
    · simp only [if_neg hlast] at hnext
      obtain ⟨b', hloop, hb'⟩ := ih hb₁ hnext
        (i := i + 1) (by omega) (by omega)
      refine ⟨b', ?_, hb'⟩
      simp [setLoop, hi, hstore, hlast, hloop]

theorem getLoop_spec {data : List UInt8} {bAddr offset : Addr} {i n x : Nat}
    (hb : b.Shows fresh k f) (hx : n ≠ 0 → b.Located k bAddr offset x) (hlt : x + n ≤ 2 ^ 64)
    (hdata : i + n ≤ data.length) :
    ∃ b', getLoop fresh b data bAddr offset i n =
        some (data.take i ++ readFrom f x n ++ data.drop (i + n), b') ∧ b'.Shows fresh k f := by
  induction n generalizing b data bAddr offset i x with
  | zero =>
    exact ⟨b, by simp [getLoop], hb⟩
  | succ n ih =>
    have hi : i < data.length := by omega
    have hx := hx (succ_ne_zero n)
    have hload := hb.load hx (by omega)
    have hnext := fun hn : n ≠ 0 => hb.next hx (by omega)
    have hlen : i + 1 + n ≤ (data.set i (f x)).length := by
      rw [length_set]
      omega
    rw [readFrom_succ]
    by_cases hlast : offset + 1 = b.m_allocUnit.toUInt64
    · simp only [if_pos hlast] at hnext
      obtain ⟨b', hloop, hb'⟩ := ih (hb.allocIfNeeded (bAddr + 1)) hnext (by omega) hlen
      refine ⟨b', ?_, hb'⟩
      rw [set_append_drop hi] at hloop
      simp only [getLoop, hload, bind_eq_bind, bind_some, if_pos hi, if_pos hlast, hloop]
    · simp only [if_neg hlast] at hnext
      obtain ⟨b', hloop, hb'⟩ := ih hb hnext (by omega) hlen
      refine ⟨b', ?_, hb'⟩
      rw [set_append_drop hi] at hloop
      simp only [getLoop, hload, bind_eq_bind, bind_some, if_pos hi, if_neg hlast, hloop]

theorem Shows.step {c : BackingCall} (hb : b.Shows fresh k f) (hc : c.InRange 0 (2 ^ 64)) :
    ∃ b', b.step fresh c = some ((c.flat f).1, b') ∧ b'.Shows fresh k (c.flat f).2 := by
  cases c with
  | set addr value =>
    obtain ⟨b', hstore, hb', -⟩ := @Shows.store fresh k _ f _ _ _ value
      (hb.allocIfNeeded (b.blockOf addr)) (hb.located addr)
    refine ⟨b', ?_, ?_⟩
    · simp [BackingMalloc.step, hstore, BackingCall.flat]
    · simpa [BackingCall.flat, writeFrom_singleton] using hb'
  | setVector addr n data =>
    obtain ⟨b', hloop, hb'⟩ := @setLoop_spec fresh k _ f data _ _ 0 n.toNat _
      (hb.allocIfNeeded (b.blockOf addr)) (fun _ => hb.located addr)
      hc.2.1 (by simpa using hc.2.2)
    refine ⟨b', ?_, ?_⟩
    · simp [BackingMalloc.step, hloop, BackingCall.flat]
    · simpa [BackingCall.flat] using hb'
  | get addr =>
    have hload := (hb.allocIfNeeded (b.blockOf addr)).load (hb.located addr) hc.2
    refine ⟨_, ?_, hb.allocIfNeeded (b.blockOf addr)⟩
    simp [BackingMalloc.step, hload, BackingCall.flat]
  | getVector addr n data =>
    obtain ⟨b', hloop, hb'⟩ := @getLoop_spec fresh k _ f data _ _ 0 n.toNat _
      (hb.allocIfNeeded (b.blockOf addr)) (fun _ => hb.located addr)
      hc.2.1 (by simpa using hc.2.2)
    refine ⟨b', ?_, hb'⟩
    simp [BackingMalloc.step, hloop, BackingCall.flat]

end Blocks

section Constructor

variable {init : Bool}

theorem log2OfInt_two_pow : ∀ k < 31, log2OfInt 32 (BitVec.ofNat 32 (2 ^ k)) 0 = some k := by
  decide

theorem log2OfInt_of_msb {temp : BitVec 32} (h : temp.msb = true) (fuel result : Nat) :
    log2OfInt fuel temp result = none := by
  induction fuel generalizing temp result with
  | zero =>
    rfl
  | succ fuel ih =>
    have hmsb : (temp.sshiftRight 1).msb = true := by rw [BitVec.msb_sshiftRight, h]
    have hne : temp.sshiftRight 1 ≠ 0 := by
      intro hzero
      rw [hzero] at hmsb
      cases hmsb
    rw [log2OfInt]
    simp only [if_pos hne]
    exact ih hmsb (result + 1)

theorem new_of_lt (fresh : Addr → Nat → UInt8) {k : Nat} (hk : k < 31) :
    ∃ b f, new 32 (UInt64.ofNat (2 ^ k)) init = some b ∧ b.Shows fresh k f := by
  have hunit : (UInt64.ofNat (2 ^ k)).toUInt32 = UInt32.ofNat (2 ^ k) := by
    rw [UInt64.toUInt32_ofNat']
  have hpow : ∀ k < 31, isPowerOfTwo (UInt32.ofNat (2 ^ k)) = true := by decide
  have hlt : (2 : Nat) ^ k < 2 ^ 32 := Nat.pow_lt_pow_right (by omega) (by omega)
  have hlog : log2OfInt 32 (UInt32.ofNat (2 ^ k)).toBitVec 0 = some k := log2OfInt_two_pow k hk
  have hnew : new 32 (UInt64.ofNat (2 ^ k)) init = some
      { m_buffer := fun _ => none, m_allocUnit := UInt32.ofNat (2 ^ k),
        m_shift := k, m_init := init } := by
    unfold new
    simp only [hunit, hpow k hk, if_true, hlog, map_some]
  exact ⟨_, _, hnew, hk, mod_eq_of_lt hlt, rfl, fun x _ => rfl⟩

theorem new_two_pow_31 (fuel : Nat) : new fuel (UInt64.ofNat (2 ^ 31)) init = none := by
  have hlog := log2OfInt_of_msb
    (show (UInt64.ofNat (2 ^ 31)).toUInt32.toBitVec.msb = true by decide) fuel 0
  unfold new
  simp only [hlog, map_none, ite_self]

theorem new_of_ge {k fuel : Nat} {b : BackingMalloc} (hk : 32 ≤ k)
    (hnew : new fuel (UInt64.ofNat (2 ^ k)) init = some b) :
    b.m_allocUnit = 0 := by
  have hunit : (UInt64.ofNat (2 ^ k)).toUInt32 = 0 := by
    rw [UInt64.toUInt32_ofNat', ← UInt32.toNat_inj, UInt32.toNat_ofNat']
    exact mod_eq_zero_of_dvd (Nat.pow_dvd_pow 2 hk)
  unfold new at hnew
  simp only [hunit] at hnew
  split at hnew
  · obtain ⟨shift, -, rfl⟩ := map_eq_some_iff.1 hnew
    rfl
  · cases hnew

theorem not_refines_of_unit_eq_zero {fresh : Addr → Nat → UInt8} {b : BackingMalloc}
    (hunit : b.m_allocUnit = 0) :
    ¬ RefinesByteMap (step fresh) b 0 (2 ^ 64) := by
  rintro ⟨f, hf⟩
  obtain ⟨replies, hb, -⟩ := hf [.set 0 0] (by
    intro c hc
    rw [mem_singleton.1 hc]
    exact ⟨le_rfl, by decide⟩)
  have hstore : ∀ bAddr offset,
      (b.allocIfNeeded fresh bAddr).store bAddr offset 0 = none := by
    intro bAddr offset
    obtain ⟨block, hblock⟩ := @mapped_allocIfNeeded fresh b bAddr
    have hlt : ¬ offset < (0 : UInt32).toUInt64 := UInt64.not_lt_zero
    unfold store
    simp only [hblock, m_allocUnit_allocIfNeeded, hunit, if_neg hlt]
  simp [answersOf, step, hstore] at hb

end Constructor

end BackingMalloc

/--
The mapped buffer refines a flat byte map exactly if its offset is zero, and
the block table can be made and refines one exactly if its unit is below
`2 ^ 31`.
-/
theorem backing_refines_iff (b : BackingMMAP)
    (hsize : 0 < b.m_size)
    (fresh : Addr → Nat → UInt8) (init : Bool) {k : Nat}
    (_ : k < 64) :
    (RefinesByteMap BackingMMAP.step b b.m_offset.toNat
        (b.m_offset.toNat + b.m_size.toNat) ↔ b.m_offset = 0) ∧
    ((∃ fuel b,
        BackingMalloc.new fuel (UInt64.ofNat (2 ^ k)) init = some b ∧
          RefinesByteMap (BackingMalloc.step fresh) b 0 (2 ^ 64)) ↔
      2 ^ k < 2 ^ 31) := by
  constructor
  · refine ⟨BackingMMAP.offset_eq_zero_of_refines hsize, fun hoffset => ?_⟩
    have hshows : b.Shows b.m_size b.m_buffer := ⟨rfl, hoffset, fun _ _ => rfl⟩
    rw [hoffset, show (0 : UInt64).toNat = 0 from rfl, zero_add]
    exact refinesByteMap_of_simulation hshows fun _ _ _ hb hc => hb.step hc
  · rw [Nat.pow_lt_pow_iff_right (by omega)]
    constructor
    · rintro ⟨fuel, b, hnew, hb⟩
      by_contra hk
      rcases eq_or_lt_of_le (not_lt.1 hk) with rfl | hlt
      · rw [BackingMalloc.new_two_pow_31] at hnew
        cases hnew
      · exact BackingMalloc.not_refines_of_unit_eq_zero
          (BackingMalloc.new_of_ge hlt hnew) hb
    · intro hk
      obtain ⟨b, f, hnew, hb⟩ := @BackingMalloc.new_of_lt init fresh k hk
      exact ⟨32, b, hnew, refinesByteMap_of_simulation hb fun _ _ _ hb' hc => hb'.step hc⟩

/-- A buffer of 16 bytes without an offset and blocks of four bytes. -/
theorem backing_refines_iff_small :
    RefinesByteMap BackingMMAP.step ⟨fun _ => 0, 16, 0⟩ 0 16 ∧
    ∃ fuel b,
      BackingMalloc.new fuel (UInt64.ofNat (2 ^ 2)) true = some b ∧
        RefinesByteMap (BackingMalloc.step fun _ _ => 0) b 0 (2 ^ 64) := by
  have hiff :=
    @backing_refines_iff ⟨fun _ => 0, 16, 0⟩ (by decide) (fun _ _ => 0) true 2 (by decide)
  exact ⟨hiff.1.2 rfl, hiff.2.2 (by decide)⟩

/--
With an offset of four, a vector `get` misses what a one-byte `set` wrote; with
a unit of `2 ^ 32` the first `set` leaves its block.
-/
theorem not_backing_refines :
    answersOf BackingMMAP.step ⟨fun _ => 0, 16, 4⟩
        [.set 8 1, .get 8, .getVector 8 1 [9]] = some [[], [1], [0]] ∧
    (∀ f : Nat → UInt8,
      answersOf (fun g c => some (BackingCall.flat g c)) f
        [.set 8 1, .get 8, .getVector 8 1 [9]] = some [[], [1], [1]]) ∧
    ∃ b, BackingMalloc.new 32 (2 ^ 32) true = some b ∧
      answersOf (BackingMalloc.step fun _ _ => 0) b [.set 0 1] = none := by
  refine ⟨by decide, fun f => rfl, ?_⟩
  exact ⟨_, rfl, rfl⟩

end SstElements.MemHierarchy
