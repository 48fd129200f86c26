import SstElements.Library.OrderedContainer
import SstElements.Library.Transition
import SstElements.MemHierarchy.MemTypes

/-!
# The miss status handling registers

An `MSHR` maps an address to a register: a list of entries, an acknowledgement
counter, a data buffer and a count of scheduled retries.  An entry is an event,
an eviction with the addresses that wait for it, or a writeback.  The model is
generic in the type of events.

A fatal error, and an access that the source makes through an iterator past the
end, is `none`.  Statistics and debug output are left out.
-/

namespace SstElements.MemHierarchy

open Library

universe u v

inductive MSHREntryBody (ε : Type u) where
  | event (event : ε)
  | evict (evictPtrs : List Addr)
  | writeback (downgrade : Bool)
deriving DecidableEq, Repr

/-- One entry of a register. -/
structure MSHREntry (ε : Type u) where
  body : MSHREntryBody ε
  time : SimTime
  needEvict : Bool
  inProgress : Bool
  profiled : Bool
deriving DecidableEq, Repr

namespace MSHREntry

variable {ε : Type u}

def ofEvent (event : ε) (stallEvict : Bool) (now : SimTime) : MSHREntry ε :=
  { body := .event event, time := now, needEvict := stallEvict,
    inProgress := false, profiled := false }

def ofWriteback (downgrade : Bool) (now : SimTime) : MSHREntry ε :=
  { body := .writeback downgrade, time := now, needEvict := false,
    inProgress := false, profiled := false }

def ofEviction (addr : Addr) (now : SimTime) : MSHREntry ε :=
  { body := .evict [addr], time := now, needEvict := false,
    inProgress := false, profiled := false }

def getEvent (e : MSHREntry ε) : Option ε :=
  match e.body with
  | .event event => some event
  | _ => none

def isEvent (e : MSHREntry ε) : Bool := e.getEvent.isSome

/-- `swapEvent`: replace the event of an Event entry, leaving the entry in place. -/
def swapEvent (e : MSHREntry ε) (newEvent : ε) (now : SimTime) : MSHREntry ε × Option ε :=
  match e.body with
  | .event oldEvent =>
    ({ e with body := .event newEvent, time := now }, some oldEvent)
  | _ => (e, none)

end MSHREntry

/-- Everything the MSHR keeps for one address. -/
structure MSHRRegister (ε : Type u) where
  entries : List (MSHREntry ε)
  acksNeeded : UInt32
  dataBuffer : List UInt8
  dataDirty : Bool
  pendingRetries : UInt32
deriving DecidableEq, Repr

/-- A fresh register with the given entries. -/
def MSHRRegister.new {ε : Type u} (entries : List (MSHREntry ε)) : MSHRRegister ε :=
  { entries := entries, acksNeeded := 0, dataBuffer := [], dataDirty := false,
    pendingRetries := 0 }

/-- The miss status handling registers. -/
structure MSHR (ε : Type u) where
  mshr_ : OrderedMap Addr (MSHRRegister ε)
  size_ : Int
  maxSize_ : Int
deriving DecidableEq

namespace MSHR

variable {ε : Type u}

/-- A new MSHR of a given capacity. -/
def new (maxSize : Int) : MSHR ε := { mshr_ := OrderedMap.empty, size_ := 0, maxSize_ := maxSize }

def getSize (m : MSHR ε) : Int := m.size_

/-- `exists`: the address has a register. -/
def exists? (m : MSHR ε) (addr : Addr) : Bool := (m.mshr_.find? addr).isSome

/-- The entries of an address, none if it has no register. -/
def entriesAt (m : MSHR ε) (addr : Addr) : List (MSHREntry ε) :=
  match m.mshr_.find? addr with
  | none => []
  | some reg => reg.entries

def setRegister (m : MSHR ε) (addr : Addr) (reg : MSHRRegister ε) : MSHR ε :=
  { m with mshr_ := m.mshr_.insert addr reg }

/-- Store new entries after a removal; a register without entries is erased. -/
def setOrErase (m : MSHR ε) (addr : Addr) (reg : MSHRRegister ε)
    (entries : List (MSHREntry ε)) : MSHR ε :=
  if entries.isEmpty then
    { m with mshr_ := m.mshr_.erase addr }
  else m.setRegister addr { reg with entries := entries }

/-- The counter after the removal of an entry. -/
def sizeWithout (m : MSHR ε) (entry : MSHREntry ε) : Int :=
  if entry.isEvent then m.size_ - 1 else m.size_

def removeEntry (m : MSHR ε) (addr : Addr) (index : Nat) : Option (MSHR ε) :=
  match m.mshr_.find? addr with
  | none => none
  | some reg =>
    match reg.entries[index]? with
    | none => none
    | some entry =>
      some (({ m with size_ := m.sizeWithout entry } : MSHR ε).setOrErase
        addr reg (reg.entries.eraseIdx index))

def removeFront (m : MSHR ε) (addr : Addr) : Option (MSHR ε) :=
  match m.mshr_.find? addr with
  | none => none
  | some reg =>
    match reg.entries with
    | [] => none
    | entry :: rest =>
      some (({ m with size_ := m.sizeWithout entry } : MSHR ε).setOrErase addr reg rest)

/-- Front entry; fatal if there is none. -/
def getFront (m : MSHR ε) (addr : Addr) : Option (MSHREntry ε) := (m.entriesAt addr).head?

def getFrontEvent (m : MSHR ε) (addr : Addr) : Option (Option ε) :=
  (m.getFront addr).map MSHREntry.getEvent

/-- The front entry was issued; false if there is none. -/
def getInProgress (m : MSHR ε) (addr : Addr) : Bool :=
  (m.entriesAt addr).head?.any MSHREntry.inProgress

/-- The front entry was profiled; fatal if there is none. -/
def getProfiled (m : MSHR ε) (addr : Addr) : Option Bool := (m.getFront addr).map MSHREntry.profiled

/-- The number of scheduled retries, zero without a register. -/
def getPendingRetries (m : MSHR ε) (addr : Addr) : UInt32 :=
  match m.mshr_.find? addr with
  | none => 0
  | some reg => reg.pendingRetries

/--
Remove the pointer to `addrPtr` from the eviction of `addr`, which is at the
front or right behind a writeback.  The result says whether to retry.
-/
def removeEvictPointer (m : MSHR ε) (addr addrPtr : Addr) : Option (Bool × MSHR ε) :=
  match m.mshr_.find? addr with
  | none => none
  | some reg =>
    match reg.entries with
    | [] => none
    | front :: rest =>
      match front.body with
      | .event _ => none
      | .evict ptrs =>
        let left := ptrs.filter (fun a => a ≠ addrPtr)
        let m' := m.setRegister addr
          { reg with entries := { front with body := .evict left } :: rest }
        if left.isEmpty then (m'.removeFront addr).map (fun t => (true, t))
        else some (false, m')
      | .writeback _ =>
        match rest with
        | [] => none
        | second :: more =>
          match second.body with
          | .evict ptrs =>
            let left := ptrs.filter (fun a => a ≠ addrPtr)
            let m' := m.setRegister addr
              { reg with entries := front :: { second with body := .evict left } :: more }
            if left.isEmpty then
              (m'.removeEntry addr 1).map (fun t => (false, t))
            else some (false, m')
          | _ => none

/--
Insert an event at a position, `-1` for the end.  A negative or too large
position is compared as an unsigned number and also means the end.  One entry
is reserved for forwarded requests.  Returns the index, or `-1` if full.
-/
def insertEvent (m : MSHR ε) (addr : Addr) (event : ε) (pos : Int)
    (fwdRequest stallEvict : Bool) (now : SimTime) : Int × MSHR ε :=
  if m.size_ = m.maxSize_ || (!fwdRequest && m.size_ = m.maxSize_ - 1) then
    (-1, m)
  else
    let m' : MSHR ε := { m with size_ := m.size_ + 1 }
    let entry := MSHREntry.ofEvent event stallEvict now
    match m.mshr_.find? addr with
    | none => (0, m'.setRegister addr (MSHRRegister.new [entry]))
    | some reg =>
      if pos < 0 || pos > reg.entries.length then
        (reg.entries.length, m'.setRegister addr { reg with entries := reg.entries ++ [entry] })
      else
        (pos, m'.setRegister addr { reg with entries := reg.entries.insertIdx pos.toNat entry })

def swapFrontEvent (m : MSHR ε) (addr : Addr) (event : ε) (now : SimTime) :
    Option (Option ε × MSHR ε) :=
  match m.mshr_.find? addr with
  | none => none
  | some reg =>
    match reg.entries with
    | [] => some (none, m)
    | front :: rest =>
      some ((front.swapEvent event now).2, m.setRegister addr
        { reg with entries := (front.swapEvent event now).1 :: rest })

def moveEntryToFront (m : MSHR ε) (addr : Addr) (index : Nat) : Option (MSHR ε) :=
  match m.mshr_.find? addr with
  | none => none
  | some reg =>
    match reg.entries[index]? with
    | none => none
    | some entry =>
      some (m.setRegister addr { reg with entries := entry :: reg.entries.eraseIdx index })

def insertWriteback (m : MSHR ε) (addr : Addr) (downgrade : Bool) (now : SimTime) : MSHR ε :=
  let entry := MSHREntry.ofWriteback downgrade now
  match m.mshr_.find? addr with
  | none => m.setRegister addr (MSHRRegister.new [entry])
  | some reg => m.setRegister addr { reg with entries := entry :: reg.entries }

/-- Add a pointer to the eviction at the back, or a new eviction. -/
def pushEviction (entries : List (MSHREntry ε)) (newAddr : Addr)
    (now : SimTime) : List (MSHREntry ε) :=
  match entries.getLast? with
  | some last =>
    match last.body with
    | .evict ptrs =>
      entries.dropLast ++ [{ last with body := .evict (ptrs ++ [newAddr]) }]
    | _ => entries ++ [MSHREntry.ofEviction newAddr now]
  | none => [MSHREntry.ofEviction newAddr now]

/-- Make `newAddr` wait for the eviction of `oldAddr`. -/
def insertEviction (m : MSHR ε) (oldAddr newAddr : Addr) (now : SimTime) : MSHR ε :=
  match m.mshr_.find? oldAddr with
  | none =>
    m.setRegister oldAddr
      (MSHRRegister.new [MSHREntry.ofEviction newAddr now])
  | some reg =>
    m.setRegister oldAddr { reg with
      entries := pushEviction reg.entries newAddr now }

/-- Change a register that must exist. -/
def modifyRegister (m : MSHR ε) (addr : Addr)
    (f : MSHRRegister ε → MSHRRegister ε) : Option (MSHR ε) :=
  (m.mshr_.find? addr).map (fun reg => m.setRegister addr (f reg))

/-- Change the front entry, which must exist. -/
def modifyFront (m : MSHR ε) (addr : Addr) (f : MSHREntry ε → MSHREntry ε) : Option (MSHR ε) :=
  match m.mshr_.find? addr with
  | none => none
  | some reg =>
    match reg.entries with
    | [] => none
    | front :: rest =>
      some (m.setRegister addr { reg with entries := f front :: rest })

def addPendingRetry (m : MSHR ε) (addr : Addr) : Option (MSHR ε) :=
  m.modifyRegister addr
    (fun reg => { reg with pendingRetries := reg.pendingRetries + 1 })

def removePendingRetry (m : MSHR ε) (addr : Addr) : Option (MSHR ε) :=
  m.modifyRegister addr
    (fun reg => { reg with pendingRetries := reg.pendingRetries - 1 })

def setInProgress (m : MSHR ε) (addr : Addr) (value : Bool) : Option (MSHR ε) :=
  m.modifyFront addr (fun entry => { entry with inProgress := value })

def setStalledForEvict (m : MSHR ε) (addr : Addr) (set : Bool) : Option (MSHR ε) :=
  m.modifyFront addr (fun entry => { entry with needEvict := set })

def setProfiled (m : MSHR ε) (addr : Addr) : Option (MSHR ε) :=
  m.modifyFront addr (fun entry => { entry with profiled := true })

/-- Count one more acknowledgement; creates an empty register if needed. -/
def incrementAcksNeeded (m : MSHR ε) (addr : Addr) : MSHR ε :=
  let reg := (m.mshr_.find? addr).getD (MSHRRegister.new [])
  m.setRegister addr { reg with acksNeeded := reg.acksNeeded + 1 }

/-- Count one acknowledgement; the result says whether it was the last one. -/
def decrementAcksNeeded (m : MSHR ε) (addr : Addr) : Option (Bool × MSHR ε) :=
  match m.mshr_.find? addr with
  | none => none
  | some reg =>
    if reg.acksNeeded = 0 then none
    else some (decide (reg.acksNeeded - 1 = 0),
      m.setRegister addr { reg with acksNeeded := reg.acksNeeded - 1 })

def setData (m : MSHR ε) (addr : Addr) (data : List UInt8) (dirty : Bool) : Option (MSHR ε) :=
  m.modifyRegister addr
    (fun reg => { reg with dataBuffer := data, dataDirty := dirty })

def clearData (m : MSHR ε) (addr : Addr) : Option (MSHR ε) :=
  m.modifyRegister addr
    (fun reg => { reg with dataBuffer := [], dataDirty := false })

def setDataDirty (m : MSHR ε) (addr : Addr) (dirty : Bool) : Option (MSHR ε) :=
  m.modifyRegister addr (fun reg => { reg with dataDirty := dirty })

end MSHR

/-- The calls that change an MSHR. -/
inductive MSHROp (ε : Type u) where
  | insertEvent (addr : Addr) (event : ε) (pos : Int)
      (fwdRequest stallEvict : Bool)
  | insertWriteback (addr : Addr) (downgrade : Bool)
  | insertEviction (oldAddr newAddr : Addr)
  | removeFront (addr : Addr)
  | removeEntry (addr : Addr) (index : Nat)
  | removeEvictPointer (addr addrPtr : Addr)
  | moveEntryToFront (addr : Addr) (index : Nat)
  | swapFrontEvent (addr : Addr) (event : ε)
  | addPendingRetry (addr : Addr)
  | removePendingRetry (addr : Addr)
  | setInProgress (addr : Addr) (value : Bool)
  | setStalledForEvict (addr : Addr) (set : Bool)
  | setProfiled (addr : Addr)
  | incrementAcksNeeded (addr : Addr)
  | decrementAcksNeeded (addr : Addr)
  | setData (addr : Addr) (data : List UInt8) (dirty : Bool)
  | clearData (addr : Addr)
  | setDataDirty (addr : Addr) (dirty : Bool)
deriving Repr

/-- One call at a point of simulated time. -/
def MSHR.step {ε : Type u} (m : MSHR ε) (call : SimTime × MSHROp ε) : Option (MSHR ε) :=
  match call with
  | (now, .insertEvent addr event pos fwdRequest stallEvict) =>
    some (m.insertEvent addr event pos fwdRequest stallEvict now).2
  | (now, .insertWriteback addr downgrade) =>
    some (m.insertWriteback addr downgrade now)
  | (now, .insertEviction oldAddr newAddr) =>
    some (m.insertEviction oldAddr newAddr now)
  | (_, .removeFront addr) => m.removeFront addr
  | (_, .removeEntry addr index) => m.removeEntry addr index
  | (_, .removeEvictPointer addr addrPtr) =>
    (m.removeEvictPointer addr addrPtr).map Prod.snd
  | (_, .moveEntryToFront addr index) => m.moveEntryToFront addr index
  | (now, .swapFrontEvent addr event) =>
    (m.swapFrontEvent addr event now).map Prod.snd
  | (_, .addPendingRetry addr) => m.addPendingRetry addr
  | (_, .removePendingRetry addr) => m.removePendingRetry addr
  | (_, .setInProgress addr value) => m.setInProgress addr value
  | (_, .setStalledForEvict addr set) => m.setStalledForEvict addr set
  | (_, .setProfiled addr) => m.setProfiled addr
  | (_, .incrementAcksNeeded addr) => some (m.incrementAcksNeeded addr)
  | (_, .decrementAcksNeeded addr) =>
    (m.decrementAcksNeeded addr).map Prod.snd
  | (_, .setData addr data dirty) => m.setData addr data dirty
  | (_, .clearData addr) => m.clearData addr
  | (_, .setDataDirty addr dirty) => m.setDataDirty addr dirty

end SstElements.MemHierarchy
