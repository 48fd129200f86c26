import SstElements.Library.ByteMap
import SstElements.MemHierarchy.MemTypes

/-!
# Backing stores

A backing store keeps the bytes of a memory.  `BackingMMAP` is one mapped
buffer and `BackingMalloc` a table of blocks that are allocated when they are
first touched.  A step is `none` where the code leaves the buffer, a block or
the vector it was given, or does not return.

The result of `mmap` is the initial buffer.  `fresh` is what `malloc` leaves in
the block of a number; an allocation does not fail.
-/

namespace SstElements.MemHierarchy

open Library Function

inductive BackingCall where
  | set (addr : Addr) (value : UInt8)
  | setVector (addr : Addr) (size : UInt64) (data : List UInt8)
  | get (addr : Addr)
  | getVector (addr : Addr) (size : UInt64) (data : List UInt8)
deriving DecidableEq, Repr

/-- `BackingMMAP`: the buffer with the size and the offset it was made with. -/
structure BackingMMAP where
  m_buffer : Nat → UInt8
  m_size : UInt64
  m_offset : UInt64

namespace BackingMMAP

/-- `m_buffer[i]`. -/
def load (b : BackingMMAP) (i : Addr) : Option UInt8 :=
  if i < b.m_size then some (b.m_buffer i.toNat) else none

/-- `m_buffer[i] = value`. -/
def store (b : BackingMMAP) (i : Addr) (value : UInt8) : Option BackingMMAP :=
  if i < b.m_size then
    some { b with m_buffer := update b.m_buffer i.toNat value }
  else none

/-- The loop of the vector `set` from index `i` on, with `n` bytes to go. -/
def setLoop (addr : Addr) (data : List UInt8) : BackingMMAP → Nat → Nat → Option BackingMMAP
  | b, _, 0 => some b
  | b, i, n + 1 => do
      let value ← data[i]?
      let b' ← b.store (addr + UInt64.ofNat i) value
      setLoop addr data b' (i + 1) n

def getLoop (b : BackingMMAP) (addr : Addr) : List UInt8 → Nat → Nat → Option (List UInt8)
  | data, _, 0 => some data
  | data, i, n + 1 => do
      let value ← b.load (addr + UInt64.ofNat i)
      if i < data.length then getLoop b addr (data.set i value) (i + 1) n
      else none

/-- A call, with the bytes it hands back. -/
def step (b : BackingMMAP) : BackingCall → Option (List UInt8 × BackingMMAP)
  | .set addr value =>
    (b.store (addr - b.m_offset) value).map (fun b' => ([], b'))
  | .setVector addr size data =>
    (setLoop addr data b 0 size.toNat).map (fun b' => ([], b'))
  | .get addr => (b.load (addr - b.m_offset)).map (fun v => ([v], b))
  | .getVector addr size data =>
    (b.getLoop addr data 0 size.toNat).map (fun data' => (data', b))

end BackingMMAP

/--
`log2Of` on an `int`: the number of times `temp >>= 1` is not zero.  The shift
keeps the sign.
-/
def log2OfInt : Nat → BitVec 32 → Nat → Option Nat
  | 0, _, _ => none
  | fuel + 1, temp, result =>
    let temp' := temp.sshiftRight 1
    if temp' ≠ 0 then log2OfInt fuel temp' (result + 1) else some result

def isPowerOfTwo (x : UInt32) : Bool := x &&& (x - 1) = 0

/-- `BackingMalloc`: the blocks that are there and the unit they have. -/
structure BackingMalloc where
  m_buffer : Addr → Option (Nat → UInt8)
  m_allocUnit : UInt32
  m_shift : Nat
  m_init : Bool

namespace BackingMalloc

/-- The constructor; the unit is an `unsigned int`. -/
def new (fuel : Nat) (size : UInt64) (init : Bool) : Option BackingMalloc :=
  let m_allocUnit := size.toUInt32
  if isPowerOfTwo m_allocUnit then
    (log2OfInt fuel m_allocUnit.toBitVec 0).map (fun m_shift =>
      { m_buffer := fun _ => none, m_allocUnit := m_allocUnit,
        m_shift := m_shift, m_init := init })
  else none

section Calls

variable (fresh : Addr → Nat → UInt8)

def newBlock (b : BackingMalloc) (bAddr : Addr) : Nat → UInt8 :=
  if b.m_init then fun _ => 0 else fresh bAddr

def allocIfNeeded (b : BackingMalloc) (bAddr : Addr) : BackingMalloc :=
  match b.m_buffer bAddr with
  | some _ => b
  | none =>
    { b with
      m_buffer := update b.m_buffer bAddr (some (b.newBlock fresh bAddr)) }

/-- `m_buffer[bAddr][offset]`. -/
def load (b : BackingMalloc) (bAddr offset : Addr) : Option UInt8 :=
  match b.m_buffer bAddr with
  | some block =>
    if offset < b.m_allocUnit.toUInt64 then some (block offset.toNat) else none
  | none => none

/-- `m_buffer[bAddr][offset] = value`. -/
def store (b : BackingMalloc) (bAddr offset : Addr) (value : UInt8) : Option BackingMalloc :=
  match b.m_buffer bAddr with
  | some block =>
    if offset < b.m_allocUnit.toUInt64 then
      some { b with
        m_buffer := update b.m_buffer bAddr
          (some (update block offset.toNat value)) }
    else none
  | none => none

def blockOf (b : BackingMalloc) (addr : Addr) : Addr := addr >>> UInt64.ofNat b.m_shift

def offsetOf (b : BackingMalloc) (addr : Addr) : Addr :=
  addr - (b.blockOf addr <<< UInt64.ofNat b.m_shift)

/-- The loop of the vector `set`, with `n` bytes to go. -/
def setLoop (data : List UInt8) : BackingMalloc → Addr → Addr → Nat → Nat → Option BackingMalloc
  | b, _, _, _, 0 => some b
  | b, bAddr, offset, dataOffset, n + 1 => do
      let value ← data[dataOffset]?
      let b' ← b.store bAddr offset value
      if offset + 1 = b'.m_allocUnit.toUInt64 then
        setLoop data (b'.allocIfNeeded fresh (bAddr + 1)) (bAddr + 1) 0
          (dataOffset + 1) n
      else setLoop data b' bAddr (offset + 1) (dataOffset + 1) n

def getLoop :
    BackingMalloc → List UInt8 → Addr → Addr → Nat → Nat →
      Option (List UInt8 × BackingMalloc)
  | b, data, _, _, _, 0 => some (data, b)
  | b, data, bAddr, offset, dataOffset, n + 1 => do
      let value ← b.load bAddr offset
      if dataOffset < data.length then
        if offset + 1 = b.m_allocUnit.toUInt64 then
          getLoop (b.allocIfNeeded fresh (bAddr + 1)) (data.set dataOffset value)
            (bAddr + 1) 0 (dataOffset + 1) n
        else
          getLoop b (data.set dataOffset value) bAddr (offset + 1)
            (dataOffset + 1) n
      else none

/-- A call, with the bytes it hands back. -/
def step (b : BackingMalloc) (call : BackingCall) : Option (List UInt8 × BackingMalloc) :=
  match call with
  | .set addr value =>
    let b' := b.allocIfNeeded fresh (b.blockOf addr)
    (b'.store (b.blockOf addr) (b.offsetOf addr) value).map
      (fun b'' => ([], b''))
  | .setVector addr size data =>
    let b' := b.allocIfNeeded fresh (b.blockOf addr)
    (setLoop fresh data b' (b.blockOf addr) (b.offsetOf addr) 0
      size.toNat).map (fun b'' => ([], b''))
  | .get addr =>
    let b' := b.allocIfNeeded fresh (b.blockOf addr)
    (b'.load (b.blockOf addr) (b.offsetOf addr)).map (fun v => ([v], b'))
  | .getVector addr size data =>
    let b' := b.allocIfNeeded fresh (b.blockOf addr)
    getLoop fresh b' data (b.blockOf addr) (b.offsetOf addr) 0 size.toNat

end Calls

end BackingMalloc

end SstElements.MemHierarchy
