import SstElements.Library.MixedRadix
import SstElements.MemHierarchy.BackingRefinement

/-!
# Address mappers of the timing DRAM backend

A mapper splits an address into channel, rank, bank and row.  The backend tells
it the numbers of channels, ranks and banks after it was made, the numbers of
banks once for each rank.  The mapper with arbitrary counts keeps the products
it divides by and corrects them at each call.
-/

namespace SstElements.MemHierarchy.TimingAddrMapper

/-- The reasons for which a mapper gives nothing. -/
inductive Failure where
  | fatal (text : String)
  | endless
  | undefined
deriving DecidableEq, Repr

theorem bind_eq_ok_iff {α β : Type} {x : Except Failure α} {f : α → Except Failure β} {y : β} :
    (x >>= f) = .ok y ↔ ∃ z, x = .ok z ∧ f z = .ok y := by
  cases x with
  | error e => exact ⟨fun h => (by cases h), fun ⟨_, h, _⟩ => (by cases h)⟩
  | ok z => exact ⟨fun h => ⟨z, rfl, h⟩, fun ⟨_, hz, hf⟩ => Except.ok.inj hz ▸ hf⟩

/-- The counts of a mapper. -/
structure AddrMapper where
  m_numChannels : UInt32
  m_numRanks : UInt32
  m_numBanks : UInt32
deriving DecidableEq, Repr

/-- The counts before they are set. -/
def AddrMapper.new : AddrMapper := ⟨1, 1, 8⟩

/-- The calls by which the backend tells the counts. -/
inductive Setter where
  | setNumChannels (num : UInt32)
  | setNumRanks (num : UInt32)
  | setNumBanks (num : UInt32)
deriving DecidableEq, Repr

def Setter.num : Setter → UInt32
  | .setNumChannels num => num
  | .setNumRanks num => num
  | .setNumBanks num => num

/-- The counts after a call. -/
def AddrMapper.set (m : AddrMapper) : Setter → AddrMapper
  | .setNumChannels num => { m with m_numChannels := num }
  | .setNumRanks num => { m with m_numRanks := num }
  | .setNumBanks num => { m with m_numBanks := num }

/-- Where an address is placed; the results of the four functions of a mapper. -/
structure Cell where
  channel : UInt32
  rank : UInt32
  bank : UInt32
  row : UInt32
deriving DecidableEq, Repr

/-- The indices are below the counts. -/
structure Cell.InRange (x : Cell) (m : AddrMapper) : Prop where
  channel : x.channel.toNat < m.m_numChannels.toNat
  rank : x.rank.toNat < m.m_numRanks.toNat
  bank : x.bank.toNat < m.m_numBanks.toNat

/-- `log2Of`; an `int` is shifted at most 31 times before it is zero. -/
def log2Of (x : UInt32) : Except Failure Nat :=
  match log2OfInt 32 x.toBitVec 0 with
  | some result => .ok result
  | none => .error .endless

/-- A shift of an address has a value for less than 64 positions. -/
def shiftAddr (addr : Addr) (shift : Nat) : Except Failure Addr :=
  if shift < 64 then .ok (addr >>> UInt64.ofNat shift) else .error .undefined

def divide (x : Addr) (y : UInt32) : Except Failure Addr :=
  if y = 0 then .error .undefined else .ok (x / y.toUInt64)

def modulo (x : Addr) (y : UInt32) : Except Failure Addr :=
  if y = 0 then .error .undefined else .ok (x % y.toUInt64)

section Simple

structure SimpleAddrMapper extends AddrMapper where
  m_baseShift : Nat
  m_columnShift : Nat
deriving DecidableEq, Repr

namespace SimpleAddrMapper

variable (m : SimpleAddrMapper) (addr : Addr)

def new : SimpleAddrMapper := { AddrMapper.new with m_baseShift := 6, m_columnShift := 8 }

def set : Setter → Except Failure SimpleAddrMapper
  | .setNumChannels num =>
    if isPowerOfTwo num then .ok { m with m_numChannels := num }
    else .error (.fatal "SimpleAddrMapper, Error: memHierarchy.simpleAddrMapper does not support non-power-of-2 channels...use memHierarchy.roundRobinAddrMapper instead\n")
  | .setNumRanks num =>
    if isPowerOfTwo num then .ok { m with m_numRanks := num }
    else .error (.fatal "SimpleAddrMapper, Error: memHierarchy.simpleAddrMapper does not support non-power-of-2 ranks...use memHierarchy.roundRobinAddrMapper instead\n")
  | .setNumBanks num =>
    if isPowerOfTwo num then .ok { m with m_numBanks := num }
    else .error (.fatal "SimpleAddrMapper, Error: memHierarchy.simpleAddrMapper does not support non-power-of-2 banks...use memHierarchy.roundRobinAddrMapper instead\n")

def channelShift : Nat := m.m_baseShift

def channelMask : UInt32 := m.m_numChannels - 1

def channelWidth : Except Failure Nat := log2Of m.m_numChannels

def rankShift : Except Failure Nat := do .ok (m.m_columnShift + m.channelShift + (← m.channelWidth))

def rankMask : UInt32 := m.m_numRanks - 1

def rankWidth : Except Failure Nat := log2Of m.m_numRanks

def bankShift : Except Failure Nat := do .ok ((← m.rankShift) + (← m.rankWidth))

def bankMask : UInt32 := m.m_numBanks - 1

def bankWidth : Except Failure Nat := log2Of m.m_numBanks

def rowShift : Except Failure Nat := do .ok ((← m.bankShift) + (← m.bankWidth))

/-- An address and a mask of type `int`. -/
def masked (x : Addr) (mask : UInt32) : UInt32 := (x &&& ⟨mask.toBitVec.signExtend 64⟩).toUInt32

def getChannel : Except Failure UInt32 := do
  .ok (masked (← shiftAddr addr m.channelShift) m.channelMask)

def getRank : Except Failure UInt32 := do .ok (masked (← shiftAddr addr (← m.rankShift)) m.rankMask)

def getBank : Except Failure UInt32 := do .ok (masked (← shiftAddr addr (← m.bankShift)) m.bankMask)

def getRow : Except Failure UInt32 := do .ok (← shiftAddr addr (← m.rowShift)).toUInt32

def cell : Except Failure Cell := do
  .ok ⟨← m.getChannel addr, ← m.getRank addr, ← m.getBank addr, ← m.getRow addr⟩

end SimpleAddrMapper

end Simple

section RoundRobin

/-- A size given as a parameter: whether its unit is bytes, and its value. -/
structure UnitAlgebra where
  isBytes : Bool
  getRoundedValue : Int
deriving DecidableEq, Repr

structure RoundRobinAddrMapper extends AddrMapper where
  m_baseShift : Nat
  m_rankDivider : UInt32
  m_rowDivider : UInt32
deriving DecidableEq, Repr

namespace RoundRobinAddrMapper

/-- The constructor. -/
def new (ilSize rowSize : UnitAlgebra) : Except Failure RoundRobinAddrMapper := do
  if !ilSize.isBytes then
    .error (.fatal "RoundRobinAddrMapper, Invalid param - interleave_size: must have units of 'B'. SI ok.\n")
  else if !rowSize.isBytes then
    .error (.fatal "RoundRobinAddrMapper, Invalid param - row_size: must have units of 'B'. SI ok.\n")
  else if !isPowerOfTwo (UInt32.ofInt ilSize.getRoundedValue) then
    .error (.fatal "RoundRobinAddrMapper, Invalid param - interleave_size: must be a power-of-2.\n")
  else if !isPowerOfTwo (UInt32.ofInt rowSize.getRoundedValue) then
    .error (.fatal "RoundRobinAddrMapper, Invalid param - row_size: must be a power-of-2.\n")
  else
    let m_baseShift ← log2Of (UInt32.ofInt ilSize.getRoundedValue)
    if ilSize.getRoundedValue = 0 then .error .undefined
    else
      let m := AddrMapper.new
      .ok { m with
        m_baseShift := m_baseShift
        m_rowDivider := m.m_numChannels * m.m_numRanks * m.m_numBanks *
          UInt32.ofInt (rowSize.getRoundedValue.tdiv ilSize.getRoundedValue)
        m_rankDivider := m.m_numChannels * m.m_numBanks }

variable (m : RoundRobinAddrMapper) (addr : Addr)

/-- The old count in a divider gives way to the new one. -/
def swap (divider num old : UInt32) : Except Failure UInt32 :=
  if old = 0 then .error .undefined else .ok (divider * num / old)

def set : Setter → Except Failure RoundRobinAddrMapper
  | .setNumChannels num => do
      let m_rowDivider ← swap m.m_rowDivider num m.m_numChannels
      .ok { m with
        m_rowDivider := m_rowDivider
        m_numChannels := num
        m_rankDivider := num * m.m_numBanks }
  | .setNumRanks num => do
      let m_rowDivider ← swap m.m_rowDivider num m.m_numRanks
      .ok { m with
        m_rowDivider := m_rowDivider
        m_numRanks := num }
  | .setNumBanks num => do
      let m_rowDivider ← swap m.m_rowDivider num m.m_numBanks
      .ok { m with
        m_rowDivider := m_rowDivider
        m_numBanks := num
        m_rankDivider := m.m_numChannels * num }

def getChannel : Except Failure UInt32 := do
  .ok (← modulo (← shiftAddr addr m.m_baseShift) m.m_numChannels).toUInt32

def getRank : Except Failure UInt32 := do
  .ok (← modulo (← divide (← shiftAddr addr m.m_baseShift) m.m_rankDivider) m.m_numRanks).toUInt32

def getBank : Except Failure UInt32 := do
  .ok (← modulo (← divide (← shiftAddr addr m.m_baseShift) m.m_numChannels) m.m_numBanks).toUInt32

def getRow : Except Failure UInt32 := do
  .ok (← divide (← shiftAddr addr m.m_baseShift) m.m_rowDivider).toUInt32

def cell : Except Failure Cell := do
  .ok ⟨← m.getChannel addr, ← m.getRank addr, ← m.getBank addr, ← m.getRow addr⟩

end RoundRobinAddrMapper

end RoundRobin

end SstElements.MemHierarchy.TimingAddrMapper
