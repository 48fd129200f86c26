import SstElements.Library.FallibleState
import SstElements.MemHierarchy.CacheArray
import SstElements.MemHierarchy.Mshr
import SstElements.MemHierarchy.MemEvent

/-!
# The state of an L1 coherence manager

`MESIL1` holds the fields of `CoherenceController` and of its subclass.  Events
live on a heap and are named by pointers, as the MSHR and the retry buffer hold
them; `delete` removes an event from the heap, and any later use of its pointer
is `none`, as are a fatal error and the use of a null pointer.  A line pointer
is the index of a line.

The functions of the links are parameters: which destination serves an address
and which destinations are reachable.  The retry buffer is the one of the cache
with that of the manager at its end.  `answers` collects the responses sent
towards the core; no function of the manager reads it.

Statistics, listeners and debug output are left out.
-/

namespace SstElements.MemHierarchy

open Library Function

/-- The parameters of an L1 coherence manager. -/
structure MESIL1Config where
  cachename_ : String
  lineSize_ : UInt64
  lastLevel_ : Bool
  silentEvictClean_ : Bool
  writebackCleanBlocks_ : Bool
  recvWritebackAck_ : Bool
  snoopL1Invs_ : Bool
  cpus : List String
  MESI : Bool
  llscBlockCycles_ : SimTime
  accessLatency_ : SimTime
  tagLatency_ : SimTime
  mshrLatency_ : SimTime
  dropPrefetchLevel_ : UInt64
  maxOutstandingPrefetch_ : UInt64
  packetHeaderBytes : UInt64
  maxBytesUp : UInt64
  maxBytesDown : UInt64
  findTargetDestinationDown : Addr → String
  findTargetDestinationUp : Addr → String
  isReachableDown : String → Bool
  isReachableUp : String → Bool

/-- The state of a line filled without dirty data: E in MESI, S in MSI. -/
def MESIL1Config.protocolState_ (cfg : MESIL1Config) : State := if cfg.MESI then .E else .S

/-- A response sent towards the core: the request, the data and its success. -/
structure Answer where
  request : MemEvent
  data : Option (List UInt8)
  success : Bool
deriving DecidableEq, Repr

/--
The state of an L1 coherence manager.  What was enqueued for each link, what was
sent on it with the time, and the answers are records that no function reads.
-/
structure MESIL1 (P : ReplacementPolicy) where
  config : MESIL1Config
  cacheArray_ : CacheArray L1CacheLine P
  mshr_ : MSHR Nat
  timestamp_ : SimTime
  simCycle : SimTime
  outstandingPrefetches_ : UInt64
  outgoingEventQueueDown_ : List CoherenceController.Response
  outgoingEventQueueUp_ : List CoherenceController.Response
  enqueuedDown_ : List CoherenceController.Response
  enqueuedUp_ : List CoherenceController.Response
  linkDown_ : List (MemEvent × SimTime)
  linkUp_ : List (MemEvent × SimTime)
  retryBuffer_ : List Nat
  heap : Nat → Option MemEvent
  nextPtr : Nat
  nextID : Nat
  answers : List Answer

inductive MemEventStatus where | OK | Stall | Reject
deriving DecidableEq, Repr

/-- A function of an L1 coherence manager. -/
abbrev L1M (P : ReplacementPolicy) (α : Type) := StateT (MESIL1 P) Option α

namespace MESIL1

variable {P : ReplacementPolicy}

section Primitives

/-- The configuration and the other fields, read without effect. -/
def ask {α : Type} (f : MESIL1 P → α) : L1M P α := readState (fun s => some (f s))

def readEvent (p : Nat) : L1M P MemEvent := readState (fun s => s.heap p)

def newEvent (ev : MemEvent) : L1M P Nat :=
  stepState (fun s => some (s.nextPtr,
    { s with
      heap := update s.heap s.nextPtr (some ev)
      nextPtr := s.nextPtr + 1 }))

def modifyEvent (p : Nat) (f : MemEvent → MemEvent) : L1M P Unit :=
  changeState (fun s => (s.heap p).map (fun ev => { s with heap := update s.heap p (some (f ev)) }))

def deleteEvent (p : Nat) : L1M P Unit :=
  changeState (fun s => (s.heap p).map (fun _ => { s with heap := update s.heap p none }))

/-- A fresh event identifier. -/
def newID : L1M P Nat := stepState (fun s => some (s.nextID, { s with nextID := s.nextID + 1 }))

/-- The pointer of the line of an address, null if there is none. -/
def lookup (addr : Addr) (updateReplacement : Bool) : L1M P (Option Nat) :=
  stepState (fun s =>
    (s.cacheArray_.lookup addr updateReplacement).map
      (fun r => (r.1, { s with cacheArray_ := r.2 })))

def readLine (line : Option Nat) : L1M P L1CacheLine :=
  readState (fun s => line.map s.cacheArray_.lines_)

def modifyLine (line : Option Nat) (f : L1CacheLine → L1CacheLine) : L1M P Unit :=
  changeState (fun s => line.map (fun i =>
    { s with cacheArray_ := s.cacheArray_.setLine i (f (s.cacheArray_.lines_ i)) }))

/-- `line ? line->getState() : I`. -/
def stateOf (line : Option Nat) : L1M P State :=
  ask (fun s => line.elim .I (fun i => (s.cacheArray_.lines_ i).state_))

/-- `line->setData`: a write past the end of the line is not defined. -/
def setLineData (line : Option Nat) (bytes : List UInt8) (offset : Nat) : L1M P Unit :=
  changeState (fun s => line.bind (fun i =>
    if offset + bytes.length ≤ (s.cacheArray_.lines_ i).data_.length then
      some { s with cacheArray_ :=
        s.cacheArray_.setLine i ((s.cacheArray_.lines_ i).setData bytes offset) }
    else none))

def requestedBytes (line : Option Nat) (ev : MemEvent) : L1M P (List UInt8) :=
  readState (fun s => line.bind (fun i =>
    let offset := (ev.addr_ - ev.baseAddr_).toNat
    let data := (s.cacheArray_.lines_ i).data_
    if offset + ev.size_.toNat ≤ data.length then
      some ((data.drop offset).take ev.size_.toNat)
    else none))

/-- Call a function of the MSHR without effect on it. -/
def askMshr {α : Type} (f : MSHR Nat → Option α) : L1M P α := readState (fun s => f s.mshr_)

/-- Call a function of the MSHR. -/
def changeMshr (f : MSHR Nat → Option (MSHR Nat)) : L1M P Unit :=
  changeState (fun s => (f s.mshr_).map (fun m => { s with mshr_ := m }))

/-- `retryBuffer_.push_back`. -/
def pushRetry (p : Nat) : L1M P Unit :=
  changeState (fun s => some { s with retryBuffer_ := s.retryBuffer_ ++ [p] })

end Primitives

section Controller

/-- `addToOutgoingQueue` on the queue towards memory. -/
def addToOutgoingQueueDown (resp : CoherenceController.Response) : L1M P Unit :=
  changeState (fun s => some { s with
    outgoingEventQueueDown_ :=
      CoherenceController.Response.addToOutgoingQueue s.outgoingEventQueueDown_ resp
    enqueuedDown_ := s.enqueuedDown_ ++ [resp] })

def addToOutgoingQueueUp (resp : CoherenceController.Response) : L1M P Unit :=
  changeState (fun s => some { s with
    outgoingEventQueueUp_ :=
      CoherenceController.Response.addToOutgoingQueue s.outgoingEventQueueUp_ resp
    enqueuedUp_ := s.enqueuedUp_ ++ [resp] })

/-- The entry of an outgoing queue for an event. -/
def outgoing (cfg : MESIL1Config) (ev : MemEvent) (ts : SimTime) : CoherenceController.Response :=
  { event := ev, deliveryTime := ts,
    size := cfg.packetHeaderBytes + UInt64.ofNat ev.payload_.length }

/-- `forwardByAddress`: towards memory if that serves the address. -/
def forwardByAddress (event : MemEvent) (ts : SimTime) : L1M P Unit := do
  let cfg ← ask MESIL1.config
  let down := cfg.findTargetDestinationDown event.baseAddr_
  let up := cfg.findTargetDestinationUp event.baseAddr_
  if down ≠ "" then
    addToOutgoingQueueDown
      (outgoing cfg { event with src_ := cfg.cachename_, dst_ := down } ts)
  else if up ≠ "" then
    addToOutgoingQueueUp
      (outgoing cfg { event with src_ := cfg.cachename_, dst_ := up } ts)
  else fail

def forwardByDestination (event : MemEvent) (ts : SimTime) : L1M P Unit := do
  let cfg ← ask MESIL1.config
  let resp := outgoing cfg { event with src_ := cfg.cachename_ } ts
  if cfg.isReachableUp event.dst_ then addToOutgoingQueueUp resp
  else if cfg.isReachableDown event.dst_ then addToOutgoingQueueDown resp
  else fail

/-- `forwardMessage` without data, the only form an L1 uses. -/
def forwardMessage (event : MemEvent) (requestSize : UInt32)
    (baseTime : SimTime) (fwdCmd : Option Command) : L1M P SimTime := do
  let cfg ← ask MESIL1.config
  let now ← ask MESIL1.timestamp_
  let forwardEvent : MemEvent :=
    { event with
      cmd_ := fwdCmd.getD event.cmd_, payload_ := [], size_ := requestSize }
  let deliveryTime :=
    if event.queryFlag MemEvent.F_NONCACHEABLE then now + cfg.mshrLatency_
    else (if baseTime < now then now else baseTime) + cfg.tagLatency_
  forwardByAddress forwardEvent deliveryTime
  pure deliveryTime

/-- `resendEvent`: send a refused event again after a backoff. -/
def resendEvent (event : MemEvent) : L1M P Unit := do
  let cfg ← ask MESIL1.config
  let now ← ask MESIL1.timestamp_
  let retries := if event.retries_ > 10 then 10 else event.retries_
  forwardByDestination event.incrementRetries
    (now + cfg.mshrLatency_ + UInt64.ofNat (2 ^ retries))

def isLocalPrefetch (cfg : MESIL1Config) (ev : MemEvent) : Bool :=
  ev.prefetch_ && ev.rqstr_ = cfg.cachename_

def overPrefetchLimit (s : MESIL1 P) (ev : MemEvent) : Bool :=
  isLocalPrefetch s.config ev &&
    (decide ((s.config.dropPrefetchLevel_.toNat : Int) ≤ s.mshr_.getSize) ||
      decide (s.config.maxOutstandingPrefetch_ ≤ s.outstandingPrefetches_))

/--
`allocateMSHR`: prefetches of this cache are refused beyond their limits, every
event when the MSHR is full.  Only the first event of an address may go on.
-/
def allocateMSHR (event : Nat) (fwdReq : Bool) (pos : Int) : L1M P MemEventStatus := do
  let ev ← readEvent event
  let limited ← ask (fun s => overPrefetchLimit s ev)
  if limited then pure .Reject
  else stepState (fun s =>
    let r := s.mshr_.insertEvent ev.baseAddr_ event pos fwdReq false s.simCycle
    let prefetches :=
      if ev.prefetch_ then s.outstandingPrefetches_ + 1
      else s.outstandingPrefetches_
    if r.1 = -1 then some (.Reject, s)
    else some (if r.1 = 0 then .OK else .Stall,
      { s with mshr_ := r.2, outstandingPrefetches_ := prefetches }))

/-- `sendOutgoingEvents`: advance the time and send what is due. -/
def sendOutgoingEvents (s : MESIL1 P) : MESIL1 P :=
  let now := s.timestamp_ + 1
  let down := CoherenceController.Response.sendReady s.config.maxBytesDown now
    s.config.maxBytesDown s.outgoingEventQueueDown_
  let up := CoherenceController.Response.sendReady s.config.maxBytesUp now
    s.config.maxBytesUp s.outgoingEventQueueUp_
  { s with
    timestamp_ := now
    outgoingEventQueueDown_ := down.1
    linkDown_ := s.linkDown_ ++ down.2.map fun ev => (ev, now)
    outgoingEventQueueUp_ := up.1
    linkUp_ := s.linkUp_ ++ up.2.map fun ev => (ev, now) }

end Controller

end MESIL1

end SstElements.MemHierarchy
