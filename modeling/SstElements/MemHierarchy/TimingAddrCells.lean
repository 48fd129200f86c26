import SstElements.MemHierarchy.TimingAddrMapper

/-!
# The cells of addresses

The mapper with arbitrary counts deals the interleave blocks out to channels,
banks and ranks in turn, and each cell has as many blocks as a row.  The mapper
with powers of two takes the fields of the address apart.
-/

namespace SstElements.MemHierarchy.TimingAddrMapper

open Library List UInt64 Nat Finset

section Interleaving

/--
The cell of the next block: the channel counts, the bank counts when the
channel wraps, and the rank counts when both wrap.
-/
structure Cell.Follows (m : AddrMapper) (x y : Cell) : Prop where
  channel : y.channel.toNat = (x.channel.toNat + 1) % m.m_numChannels.toNat
  bank : y.bank.toNat =
    if x.channel.toNat + 1 = m.m_numChannels.toNat
    then (x.bank.toNat + 1) % m.m_numBanks.toNat else x.bank.toNat
  rank : y.rank.toNat =
    if x.channel.toNat + 1 = m.m_numChannels.toNat ∧
      x.bank.toNat + 1 = m.m_numBanks.toNat
    then (x.rank.toNat + 1) % m.m_numRanks.toNat else x.rank.toNat
  row : ¬ (x.channel.toNat + 1 = m.m_numChannels.toNat ∧
      x.bank.toNat + 1 = m.m_numBanks.toNat ∧ x.rank.toNat + 1 = m.m_numRanks.toNat) →
    y.row = x.row

/--
The mapping of the addresses below a limit: every address has a cell, the
blocks are dealt out in turn, and a cell has as many blocks as a row.
-/
structure RoundRobinAddrMapper.Interleaves (m : RoundRobinAddrMapper)
    (blocks limit : Nat) : Prop where
  inRange : ∀ addr : Addr, addr.toNat < limit →
    ∃ x, m.cell addr = .ok x ∧ x.InRange m.toAddrMapper
  follows : ∀ addr next : Addr, ∀ x y, next.toNat < limit →
    next.toNat / 2 ^ m.m_baseShift = addr.toNat / 2 ^ m.m_baseShift + 1 →
    m.cell addr = .ok x → m.cell next = .ok y → x.Follows m.toAddrMapper y
  blocks : ∀ x : Cell, x.InRange m.toAddrMapper →
    ∃ places : Finset Nat, places.card = blocks ∧
      ∀ addr : Addr, addr.toNat < limit →
        (m.cell addr = .ok x ↔ addr.toNat / 2 ^ m.m_baseShift ∈ places)

/-- No call makes a product of more than 32 bits, or a count zero. -/
def SettersFit (blocks : Nat) : AddrMapper → List Setter → Prop
  | _, [] => True
  | m, call :: calls =>
    0 < call.num.toNat ∧
    m.m_numChannels.toNat * m.m_numRanks.toNat * m.m_numBanks.toNat * blocks *
      call.num.toNat < 2 ^ 32 ∧
    SettersFit blocks (m.set call) calls

namespace RoundRobinAddrMapper

/-- The calls to a mapper, one after the other. -/
def run (m : RoundRobinAddrMapper) (calls : List Setter) : Except Failure RoundRobinAddrMapper :=
  calls.foldlM (fun m call => m.set call) m

/-- The mapper divides by the products of its counts. -/
structure Divides (m : RoundRobinAddrMapper) (shift blocks : Nat) : Prop where
  channels : 0 < m.m_numChannels.toNat
  ranks : 0 < m.m_numRanks.toNat
  banks : 0 < m.m_numBanks.toNat
  blocks_pos : 0 < blocks
  baseShift : m.m_baseShift = shift
  shift_lt : shift < 64
  rankDivider : m.m_rankDivider.toNat = m.m_numChannels.toNat * m.m_numBanks.toNat
  rowDivider : m.m_rowDivider.toNat =
    m.m_numChannels.toNat * m.m_numRanks.toNat * m.m_numBanks.toNat * blocks

variable {m : RoundRobinAddrMapper} {shift blocks : Nat} {addr : Addr}

theorem shiftAddr_of_lt (addr : Addr) (hshift : shift < 64) :
    ∃ x, shiftAddr addr shift = .ok x ∧ x.toNat = addr.toNat / 2 ^ shift := by
  refine ⟨_, if_pos hshift, ?_⟩
  rw [UInt64.toNat_shiftRight, UInt64.toNat_ofNat', shiftRight_eq_div_pow,
    mod_eq_of_lt (show shift < 2 ^ 64 by omega), mod_eq_of_lt hshift]

theorem divide_of_pos {x : Addr} {y : UInt32} (hy : 0 < y.toNat) :
    ∃ z, divide x y = .ok z ∧ z.toNat = x.toNat / y.toNat := by
  have hne : y ≠ 0 := by
    rintro rfl
    exact absurd hy (by decide)
  exact ⟨_, if_neg hne, by rw [UInt64.toNat_div, UInt32.toNat_toUInt64]⟩

theorem modulo_of_pos {x : Addr} {y : UInt32} (hy : 0 < y.toNat) :
    ∃ z, modulo x y = .ok z ∧ z.toUInt32.toNat = x.toNat % y.toNat := by
  have hne : y ≠ 0 := by
    rintro rfl
    exact absurd hy (by decide)
  refine ⟨_, if_neg hne, ?_⟩
  rw [toNat_toUInt32, UInt64.toNat_mod, UInt32.toNat_toUInt64]
  exact mod_eq_of_lt ((mod_lt _ hy).trans y.toNat_lt)

section

variable (h : m.Divides shift blocks)
include h

theorem Divides.cell_spec (addr : Addr) :
    ∃ x, m.cell addr = .ok x ∧ x.channel.toNat = addr.toNat / 2 ^ shift % m.m_numChannels.toNat ∧
      x.bank.toNat = addr.toNat / 2 ^ shift / m.m_numChannels.toNat % m.m_numBanks.toNat ∧
      x.rank.toNat = addr.toNat / 2 ^ shift / m.m_numChannels.toNat / m.m_numBanks.toNat %
          m.m_numRanks.toNat ∧ x.row.toNat =
        addr.toNat / 2 ^ shift / m.m_numChannels.toNat / m.m_numBanks.toNat /
          m.m_numRanks.toNat / blocks % 2 ^ 32 := by
  obtain ⟨block, hblock, hblock'⟩ := shiftAddr_of_lt addr h.shift_lt
  obtain ⟨channel, hchannel, hchannel'⟩ := modulo_of_pos (x := block) h.channels
  have hrank_pos : 0 < m.m_rankDivider.toNat := by
    rw [h.rankDivider]
    exact Nat.mul_pos h.channels h.banks
  have hrow_pos : 0 < m.m_rowDivider.toNat := by
    rw [h.rowDivider]
    exact Nat.mul_pos (Nat.mul_pos (Nat.mul_pos h.channels h.ranks) h.banks) h.blocks_pos
  obtain ⟨above, habove, habove'⟩ := divide_of_pos (x := block) hrank_pos
  obtain ⟨rank, hrank, hrank'⟩ := modulo_of_pos (x := above) h.ranks
  obtain ⟨beside, hbeside, hbeside'⟩ := divide_of_pos (x := block) h.channels
  obtain ⟨bank, hbank, hbank'⟩ := modulo_of_pos (x := beside) h.banks
  obtain ⟨row, hrow, hrow'⟩ := divide_of_pos (x := block) hrow_pos
  refine ⟨⟨channel.toUInt32, rank.toUInt32, bank.toUInt32, row.toUInt32⟩, ?_, ?_, ?_, ?_, ?_⟩
  · simp only [cell, getChannel, getRank, getBank, getRow, h.baseShift, hblock, hchannel,
      habove, hrank, hbeside, hbank, hrow, bind, Except.bind]
  · rw [hchannel', hblock']
  · rw [hbank', hbeside', hblock']
  · rw [hrank', habove', hblock', h.rankDivider, ← Nat.div_div_eq_div_mul]
  · rw [toNat_toUInt32, hrow', hblock', h.rowDivider]
    simp only [Nat.div_div_eq_div_mul]
    congr 2
    ring

theorem Divides.inRange (addr : Addr) : ∃ x, m.cell addr = .ok x ∧ x.InRange m.toAddrMapper := by
  obtain ⟨x, hx, hchannel, hbank, hrank, -⟩ := h.cell_spec addr
  refine ⟨x, hx, ?_, ?_, ?_⟩
  · rw [hchannel]
    exact mod_lt _ h.channels
  · rw [hrank]
    exact mod_lt _ h.ranks
  · rw [hbank]
    exact mod_lt _ h.banks

theorem Divides.follows {next : Addr} {x y : Cell}
    (hnext : next.toNat / 2 ^ shift = addr.toNat / 2 ^ shift + 1) (hx : m.cell addr = .ok x)
    (hy : m.cell next = .ok y) :
    x.Follows m.toAddrMapper y := by
  obtain ⟨x', hx', hchannel, hbank, hrank, hrow⟩ := h.cell_spec addr
  obtain ⟨y', hy', hchannel', hbank', hrank', hrow'⟩ := h.cell_spec next
  obtain rfl := Except.ok.inj (hx.symm.trans hx')
  obtain rfl := Except.ok.inj (hy.symm.trans hy')
  rw [hnext] at hchannel' hbank' hrank' hrow'
  rw [MixedRadix.succ_div_eq h.channels, ← hchannel] at hbank' hrank' hrow'
  refine ⟨?_, ?_, ?_, ?_⟩
  · rw [hchannel', hchannel, mod_add_mod]
  · rw [hbank']
    split
    next => rw [hbank, mod_add_mod]
    next => rw [hbank]
  · rw [hrank']
    by_cases hwrap : x.channel.toNat + 1 = m.m_numChannels.toNat
    · rw [if_pos hwrap, MixedRadix.succ_div_eq h.banks, ← hbank]
      by_cases hwrap' : x.bank.toNat + 1 = m.m_numBanks.toNat
      · rw [if_pos hwrap', if_pos ⟨hwrap, hwrap'⟩, hrank, mod_add_mod]
      · rw [if_neg hwrap', if_neg (fun hw => hwrap' hw.2), hrank]
    · rw [if_neg hwrap, if_neg (fun hw => hwrap hw.1), hrank]
  · intro hwraps
    apply UInt32.toNat_inj.1
    rw [hrow', hrow]
    by_cases hwrap : x.channel.toNat + 1 = m.m_numChannels.toNat
    · rw [if_pos hwrap, MixedRadix.succ_div_eq h.banks, ← hbank]
      by_cases hwrap' : x.bank.toNat + 1 = m.m_numBanks.toNat
      · rw [if_pos hwrap', MixedRadix.succ_div_eq h.ranks, ← hrank,
          if_neg (fun hw => hwraps ⟨hwrap, hwrap', hw⟩)]
      · rw [if_neg hwrap']
    · rw [if_neg hwrap]

end

/-- The block of a cell that is the `j`-th of its row. -/
def place (m : RoundRobinAddrMapper) (blocks : Nat) (x : Cell) (j : Nat) : Nat :=
  x.channel.toNat + m.m_numChannels.toNat * (x.bank.toNat + m.m_numBanks.toNat *
    (x.rank.toNat + m.m_numRanks.toNat * (j + blocks * x.row.toNat)))

theorem Divides.place_inj (h : m.Divides shift blocks) (x : Cell) :
    Function.Injective (m.place blocks x) := by
  intro i j hij
  have hchannels := Nat.eq_of_mul_eq_mul_left h.channels (add_left_cancel hij)
  have hbanks := Nat.eq_of_mul_eq_mul_left h.banks (add_left_cancel hchannels)
  have hranks := Nat.eq_of_mul_eq_mul_left h.ranks (add_left_cancel hbanks)
  exact add_right_cancel hranks

theorem Divides.cell_eq_iff (h : m.Divides shift blocks) {x : Cell} (hx : x.InRange m.toAddrMapper)
    (hrow : addr.toNat / 2 ^ shift / m.m_numChannels.toNat / m.m_numBanks.toNat /
      m.m_numRanks.toNat / blocks < 2 ^ 32) :
    m.cell addr = .ok x ↔
      addr.toNat / 2 ^ shift ∈ (Finset.range blocks).image (m.place blocks x) := by
  obtain ⟨y, hy, hchannel', hbank', hrank', hrow'⟩ := h.cell_spec addr
  rw [mod_eq_of_lt hrow] at hrow'
  rw [hy, Except.ok.injEq, mem_image]
  constructor
  · rintro rfl
    refine ⟨addr.toNat / 2 ^ shift / m.m_numChannels.toNat / m.m_numBanks.toNat /
      m.m_numRanks.toNat % blocks, Finset.mem_range.2 (mod_lt _ h.blocks_pos), Eq.symm ?_⟩
    refine (MixedRadix.eq_digit_add_iff hx.channel).2 ⟨hchannel'.symm, ?_⟩
    refine (MixedRadix.eq_digit_add_iff hx.bank).2 ⟨hbank'.symm, ?_⟩
    refine (MixedRadix.eq_digit_add_iff hx.rank).2 ⟨hrank'.symm, ?_⟩
    rw [hrow']
    exact (mod_add_div _ _).symm
  · rintro ⟨j, hj, hplace⟩
    obtain ⟨hchannel, hplace⟩ := (MixedRadix.eq_digit_add_iff hx.channel).1 hplace.symm
    obtain ⟨hbank, hplace⟩ := (MixedRadix.eq_digit_add_iff hx.bank).1 hplace
    obtain ⟨hrank, hplace⟩ := (MixedRadix.eq_digit_add_iff hx.rank).1 hplace
    obtain ⟨-, hplace⟩ := (MixedRadix.eq_digit_add_iff (Finset.mem_range.1 hj)).1 hplace
    rw [hchannel] at hchannel'
    rw [hbank] at hbank'
    rw [hrank] at hrank'
    rw [hplace] at hrow'
    cases x
    cases y
    simp only [Cell.mk.injEq, ← UInt32.toNat_inj]
    exact ⟨hchannel', hrank', hbank', hrow'⟩

def zeroCell : Cell := ⟨0, 0, 0, 0⟩

theorem Divides.cell_eq_zeroCell (h : m.Divides shift blocks) {q : Nat}
    (hblock : addr.toNat / 2 ^ shift = m.place blocks zeroCell q) (hq : q / blocks % 2 ^ 32 = 0) :
    m.cell addr = .ok zeroCell := by
  obtain ⟨y, hy, hchannel', hbank', hrank', hrow'⟩ := h.cell_spec addr
  obtain ⟨hchannel, hplace⟩ := (MixedRadix.eq_digit_add_iff h.channels).1 hblock
  obtain ⟨hbank, hplace⟩ := (MixedRadix.eq_digit_add_iff h.banks).1 hplace
  obtain ⟨hrank, hplace⟩ := (MixedRadix.eq_digit_add_iff h.ranks).1 hplace
  rw [hchannel] at hchannel'
  rw [hbank] at hbank'
  rw [hrank] at hrank'
  rw [hplace, show (zeroCell.row).toNat = 0 from rfl, Nat.mul_zero, Nat.add_zero, hq] at hrow'
  rw [hy]
  cases y
  simp only [zeroCell, Except.ok.injEq, Cell.mk.injEq, ← UInt32.toNat_inj]
  exact ⟨hchannel', hrank', hbank', hrow'⟩

theorem row_lt_iff :
    addr.toNat / 2 ^ shift / m.m_numChannels.toNat / m.m_numBanks.toNat /
        m.m_numRanks.toNat / blocks < 2 ^ 32 ↔
      addr.toNat / (2 ^ shift * (m.m_numChannels.toNat * m.m_numRanks.toNat *
        m.m_numBanks.toNat * blocks)) < 2 ^ 32 := by
  have hmul : 2 ^ shift * m.m_numChannels.toNat * m.m_numBanks.toNat *
      m.m_numRanks.toNat * blocks = 2 ^ shift * (m.m_numChannels.toNat *
        m.m_numRanks.toNat * m.m_numBanks.toNat * blocks) := by
    ring
  simp only [Nat.div_div_eq_div_mul, hmul]

/--
The addresses are interleaved exactly as far as there are row numbers for
them.  The first address beyond has the cell of the address zero, which has all
its blocks already.
-/
theorem Divides.interleaves_iff (h : m.Divides shift blocks) {limit : Nat}
    (hlimit : limit ≤ 2 ^ 64) :
    m.Interleaves blocks limit ↔ limit ≤ 2 ^ shift * (m.m_numChannels.toNat * m.m_numRanks.toNat *
        m.m_numBanks.toNat * blocks) * 2 ^ 32 := by
  constructor
  · intro hinter
    by_contra hgt
    rw [not_le] at hgt
    have hplace : ∀ q, m.place blocks zeroCell q * 2 ^ shift =
        2 ^ shift * (m.m_numChannels.toNat * m.m_numRanks.toNat * m.m_numBanks.toNat) * q := by
      intro q
      simp only [place, zeroCell, UInt32.toNat_zero]
      ring
    have haddr : ∀ q, q ≤ blocks * 2 ^ 32 → ∃ addr : Addr, addr.toNat < limit ∧
        addr.toNat / 2 ^ shift = m.place blocks zeroCell q := by
      intro q hq
      have hlt : m.place blocks zeroCell q * 2 ^ shift < limit := by
        rw [hplace]
        refine (mul_le_mul_left _ hq).trans_lt ?_
        rwa [← mul_assoc, mul_assoc (2 ^ shift)]
      have htoNat : (UInt64.ofNat (m.place blocks zeroCell q * 2 ^ shift)).toNat =
          m.place blocks zeroCell q * 2 ^ shift :=
        mod_eq_of_lt (hlt.trans_le hlimit)
      exact ⟨_, by rwa [htoNat], by rw [htoNat, Nat.mul_div_cancel _ (Nat.two_pow_pos _)]⟩
    obtain ⟨places, hcard, hplaces⟩ := hinter.blocks zeroCell ⟨h.channels, h.ranks, h.banks⟩
    rw [h.baseShift] at hplaces
    have hmem : ∀ q, q ≤ blocks * 2 ^ 32 → q / blocks % 2 ^ 32 = 0 →
        m.place blocks zeroCell q ∈ places := by
      intro q hq hrow
      obtain ⟨addr, hlt, hblock⟩ := haddr q hq
      rw [← hblock]
      exact (hplaces addr hlt).1 (h.cell_eq_zeroCell hblock hrow)
    have hsub : (Finset.range blocks).image (m.place blocks zeroCell) ⊆ places := by
      intro n hn
      obtain ⟨j, hj, rfl⟩ := mem_image.1 hn
      rw [Finset.mem_range] at hj
      refine hmem j (by omega) ?_
      rw [div_eq_of_lt hj, zero_mod]
    have hall : (Finset.range blocks).image (m.place blocks zeroCell) = places := by
      refine eq_of_subset_of_card_le hsub ?_
      rw [hcard, card_image_of_injective _ (h.place_inj zeroCell), card_range]
    have hfar := hmem (blocks * 2 ^ 32) le_rfl (by
      rw [Nat.mul_div_cancel_left _ h.blocks_pos]
      rfl)
    rw [← hall, mem_image] at hfar
    obtain ⟨j, hj, heq⟩ := hfar
    have hj' := h.place_inj zeroCell heq
    rw [Finset.mem_range] at hj
    omega
  · intro hle
    refine ⟨fun addr _ => h.inRange addr, ?_, ?_⟩
    · intro addr next x y _ hnext hx hy
      rw [h.baseShift] at hnext
      exact h.follows hnext hx hy
    · intro x hx
      refine ⟨_, (card_image_of_injective _ (h.place_inj x)).trans
        (card_range blocks), ?_⟩
      intro addr haddr
      rw [h.baseShift]
      refine h.cell_eq_iff hx (row_lt_iff.2 ?_)
      exact Nat.div_lt_of_lt_mul (haddr.trans_le hle)

theorem ofInt_two_pow (k : Nat) : UInt32.ofInt (2 ^ k) = UInt32.ofNat (2 ^ k) := by
  have hcast : ((2 ^ k : Int) % 2 ^ 32).toNat = 2 ^ k % 2 ^ 32 := by norm_cast
  rw [UInt32.ofInt, hcast]
  exact UInt32.toNat_inj.1 (by simp)

theorem isPowerOfTwo_two_pow (k : Nat) : isPowerOfTwo (UInt32.ofNat (2 ^ k)) = true := by
  have hsmall : ∀ k < 32, isPowerOfTwo (UInt32.ofNat (2 ^ k)) = true := by decide
  rcases lt_or_ge k 32 with hk | hk
  · exact hsmall k hk
  · have hzero : UInt32.ofNat (2 ^ k) = 0 := by
      apply UInt32.toNat_inj.1
      rw [UInt32.toNat_ofNat']
      exact mod_eq_zero_of_dvd (Nat.pow_dvd_pow 2 hk)
    rw [hzero]
    rfl

theorem new_divides {b r : Nat} (hb : b < 31) (hr : b ≤ r) (hfits : 8 * 2 ^ (r - b) < 2 ^ 32) :
    ∃ m, RoundRobinAddrMapper.new ⟨true, 2 ^ b⟩ ⟨true, 2 ^ r⟩ = .ok m ∧
      m.toAddrMapper = AddrMapper.new ∧ m.Divides b (2 ^ (r - b)) := by
  have hdiv : (2 ^ r : Int).tdiv (2 ^ b) = 2 ^ (r - b) := by
    conv_lhs => rw [← Nat.sub_add_cancel hr, pow_add]
    exact Int.mul_tdiv_cancel _ (by positivity)
  have hlog : log2Of (UInt32.ofNat (2 ^ b)) = .ok b := by
    unfold log2Of
    rw [show (UInt32.ofNat (2 ^ b)).toBitVec = BitVec.ofNat 32 (2 ^ b) from rfl,
      BackingMalloc.log2OfInt_two_pow b hb]
  have hne : (2 ^ b : Int) ≠ 0 := by positivity
  refine ⟨{ AddrMapper.new with
    m_baseShift := b
    m_rowDivider := 1 * 1 * 8 * UInt32.ofNat (2 ^ (r - b))
    m_rankDivider := 1 * 8 }, ?_, rfl, ?_⟩
  · simp only [RoundRobinAddrMapper.new, hdiv, ofInt_two_pow, isPowerOfTwo_two_pow, hlog,
      if_neg hne, Bool.not_true, Bool.false_eq_true, if_false]
    rfl
  · have hpos : 0 < AddrMapper.new.m_numChannels.toNat ∧ 0 < AddrMapper.new.m_numRanks.toNat ∧
        0 < AddrMapper.new.m_numBanks.toNat := by
      decide
    refine ⟨hpos.1, hpos.2.1, hpos.2.2, Nat.two_pow_pos _, rfl, by omega, rfl, ?_⟩
    have hrow : (1 * 1 * 8 * UInt32.ofNat (2 ^ (r - b))).toNat = 8 * 2 ^ (r - b) := by
      rw [UInt32.toNat_mul, UInt32.toNat_ofNat', mod_eq_of_lt (show 2 ^ (r - b) < 2 ^ 32 by omega)]
      exact mod_eq_of_lt hfits
    exact hrow

theorem swap_of_lt {divider num old : UInt32} {others : Nat} (hold : 0 < old.toNat)
    (hdivider : divider.toNat = old.toNat * others) (hfits : divider.toNat * num.toNat < 2 ^ 32) :
    ∃ d, swap divider num old = .ok d ∧ d.toNat = num.toNat * others := by
  have hne : old ≠ 0 := by
    rintro rfl
    exact absurd hold (by decide)
  refine ⟨_, if_neg hne, ?_⟩
  rw [UInt32.toNat_div, UInt32.toNat_mul, mod_eq_of_lt hfits, hdivider, mul_assoc,
    Nat.mul_div_cancel_left _ hold, mul_comm]

theorem Divides.set (h : m.Divides shift blocks) {call : Setter} (hnum : 0 < call.num.toNat)
    (hfits : m.m_numChannels.toNat * m.m_numRanks.toNat * m.m_numBanks.toNat * blocks *
      call.num.toNat < 2 ^ 32) :
    ∃ m', m.set call = .ok m' ∧ m'.toAddrMapper = m.toAddrMapper.set call ∧
      m'.Divides shift blocks := by
  have hdivider : m.m_rowDivider.toNat * call.num.toNat < 2 ^ 32 := by rwa [h.rowDivider]
  have hpos : 0 < m.m_numChannels.toNat * m.m_numRanks.toNat * m.m_numBanks.toNat * blocks *
      call.num.toNat :=
    Nat.mul_pos (Nat.mul_pos (Nat.mul_pos (Nat.mul_pos h.channels h.ranks) h.banks)
      h.blocks_pos) hnum
  cases call with
  | setNumChannels num =>
    obtain ⟨d, hd, hd'⟩ : ∃ d, swap m.m_rowDivider num m.m_numChannels = .ok d ∧
        d.toNat = num.toNat * (m.m_numRanks.toNat * m.m_numBanks.toNat * blocks) :=
      swap_of_lt h.channels (h.rowDivider.trans (by ring)) hdivider
    have hset : m.set (.setNumChannels num) =
        .ok { m with
          m_rowDivider := d
          m_numChannels := num
          m_rankDivider := num * m.m_numBanks } := by
      simp only [RoundRobinAddrMapper.set, hd]
      rfl
    have hrank : num.toNat * m.m_numBanks.toNat < 2 ^ 32 :=
      (le_of_dvd hpos ⟨m.m_numChannels.toNat * m.m_numRanks.toNat * blocks,
        by simp only [Setter.num]; ring⟩).trans_lt hfits
    refine ⟨_, hset, rfl, hnum, h.ranks, h.banks, h.blocks_pos, h.baseShift, h.shift_lt, ?_, ?_⟩
    · exact (UInt32.toNat_mul _ _).trans (mod_eq_of_lt hrank)
    · exact hd'.trans (by ring)
  | setNumRanks num =>
    obtain ⟨d, hd, hd'⟩ : ∃ d, swap m.m_rowDivider num m.m_numRanks = .ok d ∧
        d.toNat = num.toNat * (m.m_numChannels.toNat * m.m_numBanks.toNat * blocks) :=
      swap_of_lt h.ranks (h.rowDivider.trans (by ring)) hdivider
    have hset : m.set (.setNumRanks num) =
        .ok { m with
          m_rowDivider := d
          m_numRanks := num } := by
      simp only [RoundRobinAddrMapper.set, hd]
      rfl
    refine ⟨_, hset, rfl, h.channels, hnum, h.banks, h.blocks_pos, h.baseShift,
      h.shift_lt, h.rankDivider, ?_⟩
    exact hd'.trans (by ring)
  | setNumBanks num =>
    obtain ⟨d, hd, hd'⟩ : ∃ d, swap m.m_rowDivider num m.m_numBanks = .ok d ∧
        d.toNat = num.toNat * (m.m_numChannels.toNat * m.m_numRanks.toNat * blocks) :=
      swap_of_lt h.banks (h.rowDivider.trans (by ring)) hdivider
    have hset : m.set (.setNumBanks num) =
        .ok { m with
          m_rowDivider := d
          m_numBanks := num
          m_rankDivider := m.m_numChannels * num } := by
      simp only [RoundRobinAddrMapper.set, hd]
      rfl
    have hrank : m.m_numChannels.toNat * num.toNat < 2 ^ 32 :=
      (le_of_dvd hpos ⟨m.m_numRanks.toNat * m.m_numBanks.toNat * blocks,
        by simp only [Setter.num]; ring⟩).trans_lt hfits
    refine ⟨_, hset, rfl, h.channels, h.ranks, hnum, h.blocks_pos, h.baseShift, h.shift_lt,
      ?_, ?_⟩
    · exact (UInt32.toNat_mul _ _).trans (mod_eq_of_lt hrank)
    · exact hd'.trans (by ring)

theorem Divides.run (h : m.Divides shift blocks) {calls : List Setter}
    (hfits : SettersFit blocks m.toAddrMapper calls) :
    ∃ m', m.run calls = .ok m' ∧ m'.toAddrMapper = calls.foldl AddrMapper.set m.toAddrMapper ∧
      m'.Divides shift blocks := by
  induction calls generalizing m with
  | nil =>
    exact ⟨m, rfl, rfl, h⟩
  | cons call calls ih =>
    obtain ⟨hnum, hproduct, hcalls⟩ := hfits
    obtain ⟨m', hm', hcounts, h'⟩ := h.set hnum hproduct
    rw [← hcounts] at hcalls
    obtain ⟨m'', hm'', hcounts', h''⟩ := ih h' hcalls
    refine ⟨m'', ?_, ?_, h''⟩
    · rw [RoundRobinAddrMapper.run, foldlM_cons, hm']
      exact hm''
    · rw [hcounts', hcounts]
      rfl

end RoundRobinAddrMapper

end Interleaving

section Fields

namespace SimpleAddrMapper

/-- The calls to a mapper, one after the other. -/
def run (m : SimpleAddrMapper) (calls : List Setter) : Except Failure SimpleAddrMapper :=
  calls.foldlM (fun m call => m.set call) m

def byteBits (addr : Addr) : Nat := addr.toNat % 2 ^ 6

/-- The bits that tell the column; they are above those of the channel. -/
def columnBits (m : SimpleAddrMapper) (addr : Addr) : Nat :=
  addr.toNat / (2 ^ 6 * m.m_numChannels.toNat) % 2 ^ 8

/--
The mapping of the addresses below a limit: every address has a cell, and the
cell determines the address together with the byte and the column.
-/
structure Separates (m : SimpleAddrMapper) (limit : Nat) : Prop where
  inRange : ∀ addr : Addr, addr.toNat < limit →
    ∃ x, m.cell addr = .ok x ∧ x.InRange m.toAddrMapper
  determines : ∀ addr addr' : Addr, addr.toNat < limit → addr'.toNat < limit →
    m.cell addr = m.cell addr' → byteBits addr = byteBits addr' →
    m.columnBits addr = m.columnBits addr' → addr = addr'

/-- The counts are powers of two, with their logarithms. -/
structure Widths (m : SimpleAddrMapper) (c n k : Nat) : Prop where
  baseShift : m.m_baseShift = 6
  columnShift : m.m_columnShift = 8
  channels : m.m_numChannels = UInt32.ofNat (2 ^ c)
  ranks : m.m_numRanks = UInt32.ofNat (2 ^ n)
  banks : m.m_numBanks = UInt32.ofNat (2 ^ k)
  channels_lt : c < 32
  ranks_lt : n < 32
  banks_lt : k < 32

variable {m : SimpleAddrMapper} {c n k : Nat} {addr : Addr}

theorem masked_two_pow {w : Nat} (hw : w < 32) (x : Addr) :
    (masked x (UInt32.ofNat (2 ^ w) - 1)).toNat = x.toNat % 2 ^ w := by
  have hmask : ∀ w < 32,
      (⟨(UInt32.ofNat (2 ^ w) - 1).toBitVec.signExtend 64⟩ : UInt64).toNat = 2 ^ w - 1 := by
    decide
  have hlt : 2 ^ w < 2 ^ 32 := Nat.pow_lt_pow_right (by omega) hw
  rw [masked, toNat_toUInt32, UInt64.toNat_and, hmask w hw, and_two_pow_sub_one_eq_mod]
  exact mod_eq_of_lt ((mod_lt _ (Nat.two_pow_pos w)).trans hlt)

theorem log2Of_two_pow {w : Nat} (hw : w < 32) :
    log2Of (UInt32.ofNat (2 ^ w)) = if w < 31 then .ok w else .error .endless := by
  have hall : ∀ w < 32, log2Of (UInt32.ofNat (2 ^ w)) =
      if w < 31 then .ok w else .error .endless := by
    decide
  exact hall w hw

/-- The widths fit: the logarithms end, and an address can be shifted by all of them. -/
def WidthsFit (c n k : Nat) : Prop := c < 31 ∧ n < 31 ∧ k < 31 ∧ 14 + c + n + k < 64

theorem lt_of_log2Of {w result : Nat} (hw : w < 32)
    (h : log2Of (UInt32.ofNat (2 ^ w)) = .ok result) :
    w < 31 ∧ result = w := by
  rw [log2Of_two_pow hw] at h
  split at h
  next hlt => exact ⟨hlt, (Except.ok.inj h).symm⟩
  next => cases h

section

variable (h : m.Widths c n k)
include h

theorem Widths.fit_of_cell {x : Cell} (hx : m.cell addr = .ok x) : WidthsFit c n k := by
  simp only [cell, bind_eq_ok_iff] at hx
  obtain ⟨_, -, _, -, _, -, _, hrow, -⟩ := hx
  simp only [getRow, rowShift, bankShift, rankShift, channelWidth, rankWidth, bankWidth,
    channelShift, h.baseShift, h.columnShift, h.channels, h.ranks, h.banks, bind_eq_ok_iff,
    Except.ok.injEq] at hrow
  obtain ⟨_, ⟨_, ⟨_, ⟨c', hchannel, hrankShift⟩, n', hrank, hbankShift⟩, k', hbank,
    hrowShift⟩, _, hshift, -⟩ := hrow
  obtain ⟨hc, hc'⟩ := lt_of_log2Of h.channels_lt hchannel
  obtain ⟨hn, hn'⟩ := lt_of_log2Of h.ranks_lt hrank
  obtain ⟨hk, hk'⟩ := lt_of_log2Of h.banks_lt hbank
  rw [← hrowShift, ← hbankShift, ← hrankShift, hc', hn', hk', shiftAddr] at hshift
  refine ⟨hc, hn, hk, ?_⟩
  split at hshift
  next hlt => exact hlt
  next => cases hshift

theorem Widths.cell_spec (hfit : WidthsFit c n k) (addr : Addr) :
    ∃ x, m.cell addr = .ok x ∧ x.channel.toNat = addr.toNat / 2 ^ 6 % 2 ^ c ∧
      x.rank.toNat = addr.toNat / 2 ^ (14 + c) % 2 ^ n ∧
      x.bank.toNat = addr.toNat / 2 ^ (14 + c + n) % 2 ^ k ∧
      x.row.toNat = addr.toNat / 2 ^ (14 + c + n + k) % 2 ^ 32 := by
  obtain ⟨hc, hn, hk, hsum⟩ := hfit
  have hchannel : m.channelWidth = .ok c := by
    rw [channelWidth, h.channels, log2Of_two_pow h.channels_lt, if_pos hc]
  have hrank : m.rankWidth = .ok n := by
    rw [rankWidth, h.ranks, log2Of_two_pow h.ranks_lt, if_pos hn]
  have hbank : m.bankWidth = .ok k := by
    rw [bankWidth, h.banks, log2Of_two_pow h.banks_lt, if_pos hk]
  obtain ⟨a, ha, ha'⟩ := RoundRobinAddrMapper.shiftAddr_of_lt addr
    (show 6 < 64 by omega)
  obtain ⟨r, hr, hr'⟩ := RoundRobinAddrMapper.shiftAddr_of_lt addr
    (show 8 + 6 + c < 64 by omega)
  obtain ⟨b, hb, hb'⟩ := RoundRobinAddrMapper.shiftAddr_of_lt addr
    (show 8 + 6 + c + n < 64 by omega)
  obtain ⟨row, hrow, hrow'⟩ := RoundRobinAddrMapper.shiftAddr_of_lt addr
    (show 8 + 6 + c + n + k < 64 by omega)
  refine ⟨⟨masked a m.channelMask, masked r m.rankMask, masked b m.bankMask, row.toUInt32⟩,
    ?_, ?_, ?_, ?_, ?_⟩
  · simp only [cell, getChannel, getRank, getBank, getRow, rowShift, bankShift, rankShift,
      channelShift, h.baseShift, h.columnShift, hchannel, hrank, hbank, ha, hr, hb, hrow,
      bind, Except.bind]
  · simp only [channelMask, h.channels, masked_two_pow h.channels_lt, ha']
  · simp only [rankMask, h.ranks, masked_two_pow h.ranks_lt, hr']
  · simp only [bankMask, h.banks, masked_two_pow h.banks_lt, hb']
  · rw [toNat_toUInt32, hrow']

theorem Widths.toNat_channels : m.m_numChannels.toNat = 2 ^ c := by
  rw [h.channels, UInt32.toNat_ofNat']
  exact mod_eq_of_lt (Nat.pow_lt_pow_right (by omega) h.channels_lt)

theorem Widths.toNat_ranks : m.m_numRanks.toNat = 2 ^ n := by
  rw [h.ranks, UInt32.toNat_ofNat']
  exact mod_eq_of_lt (Nat.pow_lt_pow_right (by omega) h.ranks_lt)

theorem Widths.toNat_banks : m.m_numBanks.toNat = 2 ^ k := by
  rw [h.banks, UInt32.toNat_ofNat']
  exact mod_eq_of_lt (Nat.pow_lt_pow_right (by omega) h.banks_lt)

end

theorem eq_of_fields {x y : Nat} (hbyte : x % 2 ^ 6 = y % 2 ^ 6)
    (hchannel : x / 2 ^ 6 % 2 ^ c = y / 2 ^ 6 % 2 ^ c)
    (hcolumn : x / (2 ^ 6 * 2 ^ c) % 2 ^ 8 = y / (2 ^ 6 * 2 ^ c) % 2 ^ 8)
    (hrank : x / 2 ^ (14 + c) % 2 ^ n = y / 2 ^ (14 + c) % 2 ^ n)
    (hbank : x / 2 ^ (14 + c + n) % 2 ^ k = y / 2 ^ (14 + c + n) % 2 ^ k)
    (hrow : x / 2 ^ (14 + c + n + k) = y / 2 ^ (14 + c + n + k)) :
    x = y := by
  have hfield : ∀ s t : Nat, x / s % t = y / s % t → x / (s * t) = y / (s * t) →
      x / s = y / s := by
    intro s t hmod hdiv
    rw [← Nat.div_div_eq_div_mul, ← Nat.div_div_eq_div_mul] at hdiv
    rw [← mod_add_div (x / s) t, hmod, hdiv, mod_add_div]
  have hbank' := hfield (2 ^ (14 + c + n)) (2 ^ k) hbank (by rwa [← pow_add])
  have hrank' := hfield (2 ^ (14 + c)) (2 ^ n) hrank (by rwa [← pow_add])
  have hcolumn' := hfield (2 ^ 6 * 2 ^ c) (2 ^ 8) hcolumn
    (by rwa [show 2 ^ 6 * 2 ^ c * 2 ^ 8 = 2 ^ (14 + c) by ring])
  have hchannel' := hfield (2 ^ 6) (2 ^ c) hchannel hcolumn'
  rw [← mod_add_div x (2 ^ 6), hbyte, hchannel', mod_add_div]

theorem Widths.separates_iff (h : m.Widths c n k) {limit : Nat} (hpos : 0 < limit)
    (hlimit : limit ≤ 2 ^ 64) :
    m.Separates limit ↔ WidthsFit c n k ∧ limit ≤ 2 ^ (14 + c + n + k) * 2 ^ 32 := by
  constructor
  · intro hsep
    obtain ⟨x, hx, -⟩ := hsep.inRange 0 hpos
    have hfit := h.fit_of_cell hx
    refine ⟨hfit, ?_⟩
    by_contra hgt
    rw [not_le] at hgt
    obtain ⟨far, hfar⟩ : ∃ far : Addr, far.toNat = 2 ^ (14 + c + n + k) * 2 ^ 32 :=
      ⟨_, UInt64.toNat_ofNat_of_lt' (hgt.trans_le hlimit)⟩
    obtain ⟨x, hx, hchannel, hrank, hbank, hrow⟩ := h.cell_spec hfit 0
    obtain ⟨y, hy, hchannel', hrank', hbank', hrow'⟩ := h.cell_spec hfit far
    have hfield : ∀ i j, i + j ≤ 46 + c + n + k →
        far.toNat / 2 ^ i % 2 ^ j = (0 : Addr).toNat / 2 ^ i % 2 ^ j := by
      intro i j hij
      rw [hfar, ← pow_add, Nat.pow_div (by omega) (by omega), UInt64.toNat_zero, Nat.zero_div,
        zero_mod]
      exact mod_eq_zero_of_dvd (Nat.pow_dvd_pow 2 (by omega))
    rw [hfield _ _ (by omega), ← hchannel, UInt32.toNat_inj] at hchannel'
    rw [hfield _ _ (by omega), ← hrank, UInt32.toNat_inj] at hrank'
    rw [hfield _ _ (by omega), ← hbank, UInt32.toNat_inj] at hbank'
    rw [hfield _ _ (by omega), ← hrow, UInt32.toNat_inj] at hrow'
    have hcell : m.cell far = m.cell 0 := by
      rw [hx, hy]
      cases x
      cases y
      simp only [Except.ok.injEq, Cell.mk.injEq]
      exact ⟨hchannel', hrank', hbank', hrow'⟩
    have hbyte : byteBits far = byteBits 0 := by
      have hbyte' := hfield 0 6 (by omega)
      rwa [pow_zero, Nat.div_one, Nat.div_one] at hbyte'
    have hcolumn : m.columnBits far = m.columnBits 0 := by
      rw [columnBits, columnBits, h.toNat_channels, ← pow_add]
      exact hfield _ _ (by omega)
    have heq := hsep.determines far 0 (by rwa [hfar]) hpos hcell hbyte hcolumn
    rw [heq, UInt64.toNat_zero] at hfar
    have hpow := Nat.mul_pos (Nat.two_pow_pos (14 + c + n + k)) (Nat.two_pow_pos 32)
    omega
  · rintro ⟨hfit, hle⟩
    refine ⟨?_, ?_⟩
    · intro addr _
      obtain ⟨x, hx, hchannel, hrank, hbank, -⟩ := h.cell_spec hfit addr
      refine ⟨x, hx, ?_, ?_, ?_⟩
      · rw [hchannel, h.toNat_channels]
        exact mod_lt _ (Nat.two_pow_pos c)
      · rw [hrank, h.toNat_ranks]
        exact mod_lt _ (Nat.two_pow_pos n)
      · rw [hbank, h.toNat_banks]
        exact mod_lt _ (Nat.two_pow_pos k)
    · intro addr addr' haddr haddr' hcell hbyte hcolumn
      obtain ⟨x, hx, hchannel, hrank, hbank, hrow⟩ := h.cell_spec hfit addr
      obtain ⟨y, hy, hchannel', hrank', hbank', hrow'⟩ := h.cell_spec hfit addr'
      obtain rfl := Except.ok.inj (hx.symm.trans (hcell.trans hy))
      have hrow_lt : ∀ a : Addr, a.toNat < limit →
          a.toNat / 2 ^ (14 + c + n + k) % 2 ^ 32 = a.toNat / 2 ^ (14 + c + n + k) :=
        fun a ha => mod_eq_of_lt (Nat.div_lt_of_lt_mul (ha.trans_le hle))
      rw [hrow_lt addr haddr] at hrow
      rw [hrow_lt addr' haddr'] at hrow'
      rw [columnBits, columnBits, h.toNat_channels] at hcolumn
      exact UInt64.toNat_inj.1 (eq_of_fields hbyte (hchannel.symm.trans hchannel') hcolumn
        (hrank.symm.trans hrank') (hbank.symm.trans hbank') (hrow.symm.trans hrow'))

theorem Widths.set (h : m.Widths c n k) {call : Setter} {w : Nat} (hw : w < 32)
    (hnum : call.num = UInt32.ofNat (2 ^ w)) :
    ∃ m' c' n' k', m.set call = .ok m' ∧ m'.toAddrMapper = m.toAddrMapper.set call ∧
      m'.Widths c' n' k' := by
  have hpow := RoundRobinAddrMapper.isPowerOfTwo_two_pow w
  rw [← hnum] at hpow
  cases call with
  | setNumChannels num =>
    exact ⟨_, w, n, k, if_pos hpow, rfl, h.baseShift, h.columnShift, hnum, h.ranks, h.banks,
      hw, h.ranks_lt, h.banks_lt⟩
  | setNumRanks num =>
    exact ⟨_, c, w, k, if_pos hpow, rfl, h.baseShift, h.columnShift, h.channels, hnum,
      h.banks, h.channels_lt, hw, h.banks_lt⟩
  | setNumBanks num =>
    exact ⟨_, c, n, w, if_pos hpow, rfl, h.baseShift, h.columnShift, h.channels, h.ranks,
      hnum, h.channels_lt, h.ranks_lt, hw⟩

theorem Widths.run (h : m.Widths c n k) {calls : List Setter}
    (hcalls : ∀ call ∈ calls, ∃ w < 32, call.num = UInt32.ofNat (2 ^ w)) :
    ∃ m' c' n' k', m.run calls = .ok m' ∧
      m'.toAddrMapper = calls.foldl AddrMapper.set m.toAddrMapper ∧ m'.Widths c' n' k' := by
  induction calls generalizing m c n k with
  | nil =>
    exact ⟨m, c, n, k, rfl, rfl, h⟩
  | cons call calls ih =>
    obtain ⟨w, hw, hnum⟩ := hcalls call mem_cons_self
    obtain ⟨m', c', n', k', hm', hcounts, h'⟩ := h.set hw hnum
    obtain ⟨m'', c'', n'', k'', hm'', hcounts', h''⟩ :=
      ih h' (fun call hcall => hcalls call (mem_cons_of_mem _ hcall))
    refine ⟨m'', c'', n'', k'', ?_, ?_, h''⟩
    · rw [SimpleAddrMapper.run, foldlM_cons, hm']
      exact hm''
    · rw [hcounts', hcounts]
      rfl

theorem new_widths : SimpleAddrMapper.new.Widths 0 0 3 :=
  ⟨rfl, rfl, rfl, rfl, rfl, by omega, by omega, by omega⟩

end SimpleAddrMapper

end Fields

section Main

def countsOf (calls : List Setter) : AddrMapper := calls.foldl AddrMapper.set AddrMapper.new

/-- The number of banks with the channels and ranks they are in. -/
def AddrMapper.total (m : AddrMapper) : Nat :=
  m.m_numChannels.toNat * m.m_numRanks.toNat * m.m_numBanks.toNat

/--
How far the addresses have cells of their own: after calls without a product of
more than 32 bits the mapper with arbitrary counts interleaves the addresses as
far as there are 32 bits for the row, and so does the mapper with powers of two
separate them, if the shifts have values.
-/
theorem addrMappers_place_iff (calls : List Setter) :
    (∀ b r, b < 31 → b ≤ r → 8 * 2 ^ (r - b) < 2 ^ 32 →
      SettersFit (2 ^ (r - b)) AddrMapper.new calls →
      ∃ m, (RoundRobinAddrMapper.new ⟨true, 2 ^ b⟩ ⟨true, 2 ^ r⟩).bind
          (fun m => m.run calls) = .ok m ∧
        m.toAddrMapper = countsOf calls ∧ ∀ limit, limit ≤ 2 ^ 64 →
          (m.Interleaves (2 ^ (r - b)) limit ↔ limit ≤ 2 ^ r * (countsOf calls).total * 2 ^ 32)) ∧
    ((∀ call ∈ calls, ∃ w < 32, call.num = UInt32.ofNat (2 ^ w)) →
      ∃ m, SimpleAddrMapper.new.run calls = .ok m ∧
        m.toAddrMapper = countsOf calls ∧ ∀ limit, 0 < limit → limit ≤ 2 ^ 64 →
          (m.Separates limit ↔
            (countsOf calls).m_numChannels.toNat < 2 ^ 31 ∧
            (countsOf calls).m_numRanks.toNat < 2 ^ 31 ∧
            (countsOf calls).m_numBanks.toNat < 2 ^ 31 ∧
            2 ^ 14 * (countsOf calls).total < 2 ^ 64 ∧
            limit ≤ 2 ^ 14 * (countsOf calls).total * 2 ^ 32)) := by
  constructor
  · intro b r hb hr hfits hcalls
    obtain ⟨m, hm, hnew, hdivides⟩ := RoundRobinAddrMapper.new_divides hb hr hfits
    rw [← hnew] at hcalls
    obtain ⟨m', hm', hcounts, hdivides'⟩ := hdivides.run hcalls
    rw [hnew] at hcounts
    refine ⟨m', by rw [hm]; exact hm', hcounts, ?_⟩
    intro limit hlimit
    rw [hdivides'.interleaves_iff hlimit, hcounts, ← Nat.sub_add_cancel hr, pow_add,
      Nat.sub_add_cancel hr]
    simp only [AddrMapper.total, countsOf, mul_assoc, Nat.mul_left_comm, mul_comm]
  · intro hcalls
    obtain ⟨m, c, n, k, hm, hcounts, hwidths⟩ := SimpleAddrMapper.new_widths.run hcalls
    have hcounts' : m.toAddrMapper = countsOf calls := hcounts
    refine ⟨m, hm, hcounts', ?_⟩
    intro limit hpos hlimit
    have htotal : 2 ^ 14 * (countsOf calls).total = 2 ^ (14 + c + n + k) := by
      rw [AddrMapper.total, ← hcounts', hwidths.toNat_channels, hwidths.toNat_ranks,
        hwidths.toNat_banks]
      ring
    rw [hwidths.separates_iff hpos hlimit, htotal, ← hcounts', hwidths.toNat_channels,
      hwidths.toNat_ranks, hwidths.toNat_banks, SimpleAddrMapper.WidthsFit,
      Nat.pow_lt_pow_iff_right (by omega), Nat.pow_lt_pow_iff_right (by omega),
      Nat.pow_lt_pow_iff_right (by omega), Nat.pow_lt_pow_iff_right (by omega)]
    simp only [and_assoc]

/-- Three channels, two ranks and five banks interleave a memory of a gibibyte. -/
theorem addrMappers_place_three_channels :
    ∃ m, (RoundRobinAddrMapper.new ⟨true, 2 ^ 6⟩ ⟨true, 2 ^ 10⟩).bind
        (fun m => m.run [.setNumChannels 3, .setNumRanks 2, .setNumBanks 5]) = .ok m ∧
      m.Interleaves (2 ^ 4) (2 ^ 30) := by
  obtain ⟨m, hm, -, hinter⟩ := (addrMappers_place_iff
    [.setNumChannels 3, .setNumRanks 2, .setNumBanks 5]).1 6 10 (by decide) (by decide) (by decide)
    ⟨by decide, by decide, by decide, by decide, by decide, by decide, trivial⟩
  exact ⟨m, hm, (hinter (2 ^ 30) (by decide)).2 (by decide)⟩

/-- With the default sizes and counts the row number of the address `2 ^ 45` is cut. -/
theorem not_interleaves_default :
    ∃ m, RoundRobinAddrMapper.new ⟨true, 2 ^ 6⟩ ⟨true, 2 ^ 10⟩ = .ok m ∧
      m.cell 0 = .ok ⟨0, 0, 0, 0⟩ ∧ m.cell (2 ^ 45) = .ok ⟨0, 0, 0, 0⟩ ∧
      ¬ m.Interleaves (2 ^ 4) (2 ^ 46) := by
  obtain ⟨m, hm, hcounts, hdivides⟩ :=
    RoundRobinAddrMapper.new_divides (b := 6) (r := 10) (by decide) (by decide) (by decide)
  refine ⟨m, hm, ?_, ?_, ?_⟩
  · cases hm
    decide
  · cases hm
    decide
  · rw [hdivides.interleaves_iff (by decide), hcounts]
    decide

end Main

end SstElements.MemHierarchy.TimingAddrMapper
