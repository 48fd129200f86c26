import Mathlib.Data.String.Basic
import SstElements.Library.Transition
import SstElements.MemHierarchy.Replacement

/-!
# Cache arrays and their line types

Each line owns an object that its replacement policy reads, created in state I.
The mutators of a line change the line and, where the source does so, that
object; `reset` changes only the line.  Fields that hold data of the line
(`data_`, timestamps, the prefetch mark) are kept for `L1CacheLine`, whose
coherence manager reads them; the other types keep what the array and the policy
can observe.

A `CacheArray` is an array of lines divided into sets, with a replacement
policy.  The vectors of `ReplacementInfo*` are built once from the lines of
each set, so what the policy reads is `capturedInfo` of each line.  The array of
lines is a function on indices, `hash` is the hash function applied to the line
address, and a `T*` handed to `replace` or `deallocate` is the index of a line.
-/

namespace SstElements.MemHierarchy

/-- What `CacheArray` requires of a line type. -/
class ArrayLine (T : Type) where
  getIndex : T → Nat
  getAddr : T → Addr
  setAddr : T → Addr → T
  reset : T → T
  /-- Contents of the object returned by `getReplacementInfo` of a new line. -/
  capturedInfo : T → ReplacementInfo

def freshCoherenceInfo (index : Nat) : ReplacementInfo :=
  { index := index, state := .I,
    coherence := some { shared := false, owned := false } }

/-- Line of an L1 cache: coherence state, data, lock and LL/SC flags. -/
structure L1CacheLine where
  index_ : Nat
  addr_ : Addr
  state_ : State
  data_ : List UInt8
  lastSendTimestamp_ : UInt64
  wasPrefetch_ : Bool
  userLock_ : UInt32
  LLSCAtomic_ : Bool
  LLSCAtomicTime_ : SimTime
  eventsWaitingForLock_ : Bool
  info : ReplacementInfo
deriving DecidableEq, Repr

namespace L1CacheLine

def new (size : Nat) (index : Nat) : L1CacheLine :=
  { index_ := index, addr_ := 0, state_ := .I,
    data_ := List.replicate size 0, lastSendTimestamp_ := 0,
    wasPrefetch_ := false, userLock_ := 0, LLSCAtomic_ := false,
    LLSCAtomicTime_ := 0, eventsWaitingForLock_ := false,
    info := { index := index, state := .I, coherence := none } }

def reset (l : L1CacheLine) : L1CacheLine :=
  { l with
    state_ := .I, lastSendTimestamp_ := 0, wasPrefetch_ := false,
    userLock_ := 0, LLSCAtomic_ := false, LLSCAtomicTime_ := 0,
    eventsWaitingForLock_ := false }

def setState (l : L1CacheLine) (s : State) : L1CacheLine :=
  { l with state_ := s, info := l.info.setState s }

def setData (l : L1CacheLine) (bytes : List UInt8) (offset : Nat) : L1CacheLine :=
  { l with data_ := l.data_.take offset ++ bytes ++ l.data_.drop (offset + bytes.length) }

def setTimestamp (l : L1CacheLine) (t : UInt64) : L1CacheLine := { l with lastSendTimestamp_ := t }

def setPrefetch (l : L1CacheLine) (p : Bool) : L1CacheLine := { l with wasPrefetch_ := p }

def atomicStart (l : L1CacheLine) (time : SimTime) : L1CacheLine :=
  { l with LLSCAtomic_ := true, LLSCAtomicTime_ := time }

def atomicEnd (l : L1CacheLine) : L1CacheLine :=
  { l with LLSCAtomic_ := false, LLSCAtomicTime_ := 0 }

def isLocked (l : L1CacheLine) (currentTime : SimTime) : Bool :=
  l.userLock_ > 0 || (l.LLSCAtomic_ && currentTime < l.LLSCAtomicTime_)

def incLock (l : L1CacheLine) : L1CacheLine := { l with userLock_ := l.userLock_ + 1 }

def decLock (l : L1CacheLine) : L1CacheLine := { l with userLock_ := l.userLock_ - 1 }

def setEventsWaitingForLock (l : L1CacheLine) (w : Bool) : L1CacheLine :=
  { l with eventsWaitingForLock_ := w }

instance : ArrayLine L1CacheLine where
  getIndex := L1CacheLine.index_
  getAddr := L1CacheLine.addr_
  setAddr := fun l a => { l with addr_ := a }
  reset := L1CacheLine.reset
  capturedInfo := L1CacheLine.info

end L1CacheLine

structure SharedCacheLine where
  index_ : Nat
  addr_ : Addr
  state_ : State
  sharers_ : Finset String
  owner_ : String
  info : ReplacementInfo

namespace SharedCacheLine

def new (index : Nat) : SharedCacheLine :=
  { index_ := index, addr_ := 0, state_ := .I, sharers_ := ∅, owner_ := "",
    info := freshCoherenceInfo index }

def reset (l : SharedCacheLine) : SharedCacheLine :=
  { l with state_ := .I, sharers_ := ∅, owner_ := "" }

def setState (l : SharedCacheLine) (s : State) : SharedCacheLine :=
  { l with state_ := s, info := l.info.setState s }

def addSharer (l : SharedCacheLine) (s : String) : SharedCacheLine :=
  { l with sharers_ := insert s l.sharers_, info := l.info.setShared true }

def removeSharer (l : SharedCacheLine) (s : String) : SharedCacheLine :=
  { l with
    sharers_ := l.sharers_.erase s
    info := l.info.setShared (decide (l.sharers_.erase s ≠ ∅)) }

def setOwner (l : SharedCacheLine) (owner : String) : SharedCacheLine :=
  { l with owner_ := owner, info := l.info.setOwned true }

def removeOwner (l : SharedCacheLine) : SharedCacheLine :=
  { l with owner_ := "", info := l.info.setOwned false }

instance : ArrayLine SharedCacheLine where
  getIndex := SharedCacheLine.index_
  getAddr := SharedCacheLine.addr_
  setAddr := fun l a => { l with addr_ := a }
  reset := SharedCacheLine.reset
  capturedInfo := SharedCacheLine.info

end SharedCacheLine

/-- Line of a private cache, with flags for copies above. -/
structure PrivateCacheLine where
  index_ : Nat
  addr_ : Addr
  state_ : State
  shared : Bool
  owned : Bool
  info : ReplacementInfo

namespace PrivateCacheLine

def new (index : Nat) : PrivateCacheLine :=
  { index_ := index, addr_ := 0, state_ := .I, shared := false,
    owned := false, info := freshCoherenceInfo index }

def reset (l : PrivateCacheLine) : PrivateCacheLine :=
  { l with state_ := .I, shared := false, owned := false }

def setState (l : PrivateCacheLine) (s : State) : PrivateCacheLine :=
  { l with state_ := s, info := l.info.setState s }

def setShared (l : PrivateCacheLine) (s : Bool) : PrivateCacheLine :=
  { l with shared := s, info := l.info.setShared s }

def setOwned (l : PrivateCacheLine) (o : Bool) : PrivateCacheLine :=
  { l with owned := o, info := l.info.setOwned o }

instance : ArrayLine PrivateCacheLine where
  getIndex := PrivateCacheLine.index_
  getAddr := PrivateCacheLine.addr_
  setAddr := fun l a => { l with addr_ := a }
  reset := PrivateCacheLine.reset
  capturedInfo := PrivateCacheLine.info

end PrivateCacheLine

/-- Line with coherence state but no data. -/
structure DirectoryLine where
  index_ : Nat
  addr_ : Addr
  state_ : State
  sharers_ : Finset String
  owner_ : String
  info_ : ReplacementInfo

namespace DirectoryLine

def new (index : Nat) : DirectoryLine :=
  { index_ := index, addr_ := 0, state_ := .I, sharers_ := ∅, owner_ := "",
    info_ := freshCoherenceInfo index }

def reset (l : DirectoryLine) : DirectoryLine :=
  { l with state_ := .I, sharers_ := ∅, owner_ := "" }

/-- Unlike in the cache lines, the replacement info is not told. -/
def setState (l : DirectoryLine) (s : State) : DirectoryLine := { l with state_ := s }

def addSharer (l : DirectoryLine) (s : String) : DirectoryLine :=
  { l with sharers_ := insert s l.sharers_, info_ := l.info_.setShared true }

def removeSharer (l : DirectoryLine) (s : String) : DirectoryLine :=
  { l with
    sharers_ := l.sharers_.erase s
    info_ := l.info_.setShared (decide (l.sharers_.erase s ≠ ∅)) }

def setOwner (l : DirectoryLine) (owner : String) : DirectoryLine :=
  { l with owner_ := owner, info_ := l.info_.setOwned true }

def removeOwner (l : DirectoryLine) : DirectoryLine :=
  { l with owner_ := "", info_ := l.info_.setOwned false }

instance : ArrayLine DirectoryLine where
  getIndex := DirectoryLine.index_
  getAddr := DirectoryLine.addr_
  setAddr := fun l a => { l with addr_ := a }
  reset := DirectoryLine.reset
  capturedInfo := DirectoryLine.info_

end DirectoryLine

/-- The directory lines that data lines point to, by index. -/
abbrev Tags := Nat → DirectoryLine

structure DataLine where
  index_ : Nat
  addr_ : Addr
  tag_ : Option Nat
  info_ : ReplacementInfo

namespace DataLine

def new (index : Nat) : DataLine :=
  { index_ := index, addr_ := 0, tag_ := none,
    info_ := freshCoherenceInfo index }

def reset (l : DataLine) : DataLine := { l with tag_ := none }

def setTag (l : DataLine) (tag : Option Nat) : DataLine := { l with tag_ := tag }

/-- The array captures the line's own object: a new line has no tag. -/
instance : ArrayLine DataLine where
  getIndex := DataLine.index_
  getAddr := DataLine.addr_
  setAddr := fun l a => { l with addr_ := a }
  reset := DataLine.reset
  capturedInfo := DataLine.info_

end DataLine

section Arrays

open Library

def log2Of (x : Nat) : Nat := Nat.log2 x

/-- A cache array of lines of type `T` under the replacement policy `P`. -/
structure CacheArray (T : Type) (P : ReplacementPolicy) where
  numSets_ : Nat
  associativity_ : Nat
  lineOffset_ : Nat
  lineSize_ : Nat
  sliceSize_ : Addr
  sliceStep_ : Addr
  hash_ : Addr → UInt64
  replacementMgr_ : P.Mgr
  lines_ : Nat → T

namespace CacheArray

variable {T : Type} {P : ReplacementPolicy} [ArrayLine T]

def numLines_ (c : CacheArray T P) : Nat := c.numSets_ * c.associativity_

/--
The constructor with its checks: there are lines, ways and sets, the ways
divide the lines, and the policy can read the lines.
-/
def new (P : ReplacementPolicy) (numLines associativity lineSize : Nat)
    (hash : Addr → UInt64) (newLine : Nat → T) : Option (CacheArray T P) :=
  let numSets := numLines / associativity
  if numLines = 0 || associativity = 0 || numSets = 0 ||
      numSets * associativity ≠ numLines then none
  else if P.checkCompatibility (ArrayLine.capturedInfo (newLine 0)) then
    some {
      numSets_ := numSets, associativity_ := associativity,
      lineOffset_ := log2Of lineSize, lineSize_ := lineSize,
      sliceSize_ := 1, sliceStep_ := 1, hash_ := hash,
      replacementMgr_ := P.init, lines_ := newLine }
  else none

/-- Configure slices; a zero becomes one. -/
def setSliceAware (c : CacheArray T P) (size step : Addr) : CacheArray T P :=
  let sliceSize := size >>> UInt64.ofNat c.lineOffset_
  let sliceStep := step >>> UInt64.ofNat c.lineOffset_
  { c with
    sliceSize_ := if sliceSize = 0 then 1 else sliceSize
    sliceStep_ := if sliceStep = 0 then 1 else sliceStep }

def toLineAddr (c : CacheArray T P) (addr : Addr) : Addr :=
  let shift := addr >>> UInt64.ofNat c.lineOffset_
  let step := shift / c.sliceStep_
  let offset := shift % c.sliceSize_
  step * c.sliceSize_ + offset

def setOf (c : CacheArray T P) (addr : Addr) : Nat :=
  (c.hash_ (c.toLineAddr addr)).toNat % c.numSets_

def waysOf (c : CacheArray T P) (set : Nat) : List Nat :=
  List.range' (set * c.associativity_) c.associativity_

/-- Replace the line object at an index. -/
def setLine (c : CacheArray T P) (i : Nat) (l : T) : CacheArray T P :=
  { c with lines_ := Function.update c.lines_ i l }

/-- The way that holds an address. -/
def findWay (c : CacheArray T P) (addr : Addr) : Option Nat :=
  (c.waysOf (c.setOf addr)).find?
    (fun i => decide (ArrayLine.getAddr (c.lines_ i) = addr))

/-- The line of an address, if present; optionally records the use. -/
def lookup (c : CacheArray T P) (addr : Addr) (updateReplacement : Bool) :
    Option (Option Nat × CacheArray T P) :=
  match c.findWay addr with
  | none => some (none, c)
  | some i =>
    if updateReplacement then
      (P.update c.replacementMgr_ i).map
        (fun mgr => (some i, { c with replacementMgr_ := mgr }))
    else some (some i, c)

/-- What the policy is shown for a set. -/
def rInfo (c : CacheArray T P) (set : Nat) : List ReplacementInfo :=
  (c.waysOf set).map (fun i => ArrayLine.capturedInfo (c.lines_ i))

/-- Ask the policy for a victim in the set of an address. -/
def findReplacementCandidate (c : CacheArray T P) (addr : Addr) : Option (Nat × CacheArray T P) :=
  (P.findBestCandidate c.replacementMgr_ (c.rInfo (c.setOf addr))).map
    (fun r => (r.1, { c with replacementMgr_ := r.2 }))

/-- Give a line to a new address. -/
def replace (c : CacheArray T P) (addr : Addr) (candidate : Nat) : Option (CacheArray T P) :=
  let index := ArrayLine.getIndex (c.lines_ candidate)
  let mgr := P.replaced c.replacementMgr_ index
  let line := ArrayLine.setAddr (ArrayLine.reset (c.lines_ candidate)) addr
  (P.update mgr index).map
    (fun mgr' => { c.setLine candidate line with replacementMgr_ := mgr' })

/-- Invalidate a line. -/
def deallocate (c : CacheArray T P) (candidate : Nat) : CacheArray T P :=
  let index := ArrayLine.getIndex (c.lines_ candidate)
  { c.setLine candidate (ArrayLine.reset (c.lines_ candidate)) with
    replacementMgr_ := P.replaced c.replacementMgr_ index }

end CacheArray

end Arrays

end SstElements.MemHierarchy
