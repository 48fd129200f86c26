import SstElements.Library.OrderedContainer
import SstElements.MemHierarchy.MemEvent

/-!
# The memory backend convertor

`MemBackendConvertor` splits an event into requests of the backend's width,
issues them in queue order, and answers the event when the last of them is
answered.  A flush is not issued: it waits for the events of its line that are
still in the queue when it arrives.

Request objects live in a heap, because the queue and the table of pending
requests share them; a pointer is a number, and the next unused one is kept.
An access through a deleted object or a missing table entry is `none`, as is a
fatal error.  Statistics and the switching of the clock are left out.
-/

namespace SstElements.MemHierarchy

open Library Function

/-- `ReqId`: the number of a request in the high half, the offset in the low. -/
abbrev ReqId := UInt64

/-- Pack a request number and an offset. -/
def ReqId.pack (reqId offset : UInt32) : ReqId := (reqId.toUInt64 <<< 32) ||| offset.toUInt64

/-- `getBaseId`: the number of the request. -/
def ReqId.getBaseId (id : ReqId) : UInt32 := (id >>> 32).toUInt32

/-- The request for an event. -/
structure MemReq where
  m_reqId : UInt32
  m_event : MemEvent
  m_offset : UInt32
  m_numReq : UInt32
deriving DecidableEq, Repr

/-- The request for a custom command. -/
structure CustomReq where
  m_reqId : UInt32
  m_info : List UInt8
  m_evId : Nat
  m_rqstr : String
deriving DecidableEq, Repr

namespace MemReq

def new (event : MemEvent) (reqId : UInt32) : MemReq :=
  { m_reqId := reqId, m_event := event, m_offset := 0, m_numReq := 0 }

def baseAddr (r : MemReq) : Addr := r.m_event.baseAddr_

def addr (r : MemReq) : Addr := r.m_event.baseAddr_ + r.m_offset.toUInt64

def id (r : MemReq) : ReqId := ReqId.pack r.m_reqId r.m_offset

def isWrite (r : MemReq) : Bool := r.m_event.cmd_ = .PutM || r.m_event.cmd_ = .Write

def increment (r : MemReq) (bytes : UInt32) : MemReq :=
  { r with m_offset := r.m_offset + bytes, m_numReq := r.m_numReq + 1 }

def decrement (r : MemReq) : MemReq := { r with m_numReq := r.m_numReq - 1 }

def issueDone (r : MemReq) : Bool := r.m_event.size_ ≤ r.m_offset

def isDone (r : MemReq) : Bool := r.m_event.size_ ≤ r.m_offset && r.m_numReq = 0

end MemReq

/-- A request object. -/
inductive BaseReq where
  | mem (r : MemReq)
  | custom (r : CustomReq)
deriving DecidableEq, Repr

namespace BaseReq

def m_reqId : BaseReq → UInt32
  | mem r => r.m_reqId
  | custom r => r.m_reqId

/-- The event that the request belongs to. -/
def evId : BaseReq → Nat
  | mem r => r.m_event.eventID_
  | custom r => r.m_evId

def id : BaseReq → ReqId
  | mem r => r.id
  | custom r => ReqId.pack r.m_reqId 0

def increment (bytes : UInt32) : BaseReq → BaseReq
  | mem r => mem (r.increment bytes)
  | custom r => custom r

def decrement : BaseReq → BaseReq
  | mem r => mem r.decrement
  | custom r => custom r

def issueDone : BaseReq → Bool
  | mem r => r.issueDone
  | custom _ => true

def isDone : BaseReq → Bool
  | mem r => r.isDone
  | custom _ => true

end BaseReq

/-- One request accepted by the backend; a custom command has no address. -/
structure Issue where
  evId : Nat
  reqId : ReqId
  addr : Option Addr
  isWrite : Bool
deriving DecidableEq, Repr

/-- The arguments with which a request object is issued. -/
def BaseReq.issue : BaseReq → Issue
  | .mem r =>
    { evId := r.m_event.eventID_, reqId := r.id, addr := some r.addr,
      isWrite := r.isWrite }
  | .custom r =>
    { evId := r.m_evId, reqId := ReqId.pack r.m_reqId 0, addr := none,
      isWrite := false }

/-- One call of the response callback. -/
structure Response where
  id : Nat
  flags : UInt32
deriving DecidableEq, Repr

def MemEvent.isFlush (ev : MemEvent) : Bool := ev.cmd_ = .FlushLine || ev.cmd_ = .FlushLineInv

/-- `memEventCmp`: events in the order of their identifiers. -/
def memEventCmp (lhs rhs : MemEvent) : Bool := lhs.eventID_ < rhs.eventID_

/--
The state of a convertor.  The table of waiting flushes is keyed by the
identifier of the flush in place of its address.
-/
structure MemBackendConvertor where
  m_backendRequestWidth : UInt32
  m_reqId : UInt32
  heap : Nat → Option BaseReq
  nextPtr : Nat
  m_requestQueue : List Nat
  m_pendingRequests : OrderedMap UInt32 Nat
  m_waitingFlushes : OrderedMap Nat (Finset Nat)
  m_dependentRequests : OrderedMap Nat (List MemEvent)

namespace MemBackendConvertor

/-- A convertor without requests. -/
def new (width : UInt32) : MemBackendConvertor :=
  { m_backendRequestWidth := width, m_reqId := 0, heap := fun _ => none,
    nextPtr := 0, m_requestQueue := [], m_pendingRequests := .empty,
    m_waitingFlushes := .empty, m_dependentRequests := .empty }

variable (c : MemBackendConvertor)

def newRequest (make : UInt32 → BaseReq) : MemBackendConvertor :=
  let id := c.m_reqId + 1
  { c with
    m_reqId := id
    heap := update c.heap c.nextPtr (some (make id))
    nextPtr := c.nextPtr + 1
    m_requestQueue := c.m_requestQueue ++ [c.nextPtr]
    m_pendingRequests := c.m_pendingRequests.insert id c.nextPtr }

/-- Record in `m_dependentRequests` that a flush waits for an event. -/
def addDependent (ev : MemEvent) (id : Nat)
    (dependent : OrderedMap Nat (List MemEvent)) :
    OrderedMap Nat (List MemEvent) :=
  match dependent.find? id with
  | none => dependent.insert id [ev]
  | some flushSet => dependent.insert id (setInsert memEventCmp ev flushSet)

/-- The loop of `setupMemReq` over the queue, for a flush. -/
def findDependencies (heap : Nat → Option BaseReq) (ev : MemEvent) :
    List Nat → Finset Nat → OrderedMap Nat (List MemEvent) →
      Option (Finset Nat × OrderedMap Nat (List MemEvent))
  | [], dependsOn, dependent => some (dependsOn, dependent)
  | it :: rest, dependsOn, dependent =>
    match heap it with
    | none => none
    | some (.custom _) => findDependencies heap ev rest dependsOn dependent
    | some (.mem mr) =>
      if mr.baseAddr = ev.baseAddr_ then
        findDependencies heap ev rest (insert mr.m_event.eventID_ dependsOn)
          (addDependent ev mr.m_event.eventID_ dependent)
      else findDependencies heap ev rest dependsOn dependent

/-- `setupMemReq`; the flag is false for a flush with nothing to wait for. -/
def setupMemReq (ev : MemEvent) : Option (Bool × MemBackendConvertor) :=
  if ev.isFlush then
    match findDependencies c.heap ev c.m_requestQueue ∅ c.m_dependentRequests with
    | none => none
    | some (dependsOn, dependent) =>
      if dependsOn = ∅ then
        some (false, { c with m_dependentRequests := dependent })
      else
        some (true, { c with
          m_dependentRequests := dependent
          m_waitingFlushes := c.m_waitingFlushes.insert ev.eventID_ dependsOn })
  else some (true, c.newRequest (fun id => .mem (MemReq.new ev id)))

/-- `handleMemEvent`; the responses are the calls of the callback. -/
def handleMemEvent (ev : MemEvent) : Option (List Response × MemBackendConvertor) :=
  (c.setupMemReq ev).map (fun r => (if r.1 then [] else [⟨ev.eventID_, ev.flags_⟩], r.2))

def handleCustomEvent (info : List UInt8) (evId : Nat) (rqstr : String) : MemBackendConvertor :=
  c.newRequest (fun id =>
    .custom { m_reqId := id, m_info := info, m_evId := evId, m_rqstr := rqstr })

/-- The state after the backend accepted the front request. -/
def issued (ptr : Nat) (rest : List Nat) (req : BaseReq) : MemBackendConvertor :=
  let req' := req.increment c.m_backendRequestWidth
  { c with
    heap := update c.heap ptr (some req')
    m_requestQueue := if req'.issueDone then rest else ptr :: rest }

/--
The loop of `clock`.  `backend` tells which of the next calls of `issue` the
backend accepts; it refuses when the list ends.
-/
def clockLoop (maxReqPerCycle : Int) :
    List Bool → Nat → MemBackendConvertor →
      Option (List Issue × MemBackendConvertor)
  | backend, reqsThisCycle, c =>
    match c.m_requestQueue with
    | [] => some ([], c)
    | ptr :: rest =>
      if (reqsThisCycle : Int) = maxReqPerCycle then some ([], c)
      else
        match c.heap ptr, backend with
        | none, _ => none
        | some _, [] => some ([], c)
        | some _, false :: _ => some ([], c)
        | some req, true :: more =>
          (clockLoop maxReqPerCycle more (reqsThisCycle + 1) (c.issued ptr rest req)).map
            (fun r => (req.issue :: r.1, r.2))

/-- `clock`: the accepted requests and the next state. -/
def clock (maxReqPerCycle : Int) (backend : List Bool) :
    Option (List Issue × MemBackendConvertor) :=
  clockLoop maxReqPerCycle backend 0 c

/-- The loop of `doResponse` over the flushes that wait for an event. -/
def completeFlushes (evID : Nat) :
    List MemEvent → OrderedMap Nat (Finset Nat) →
      Option (List Response × OrderedMap Nat (Finset Nat))
  | [], waiting => some ([], waiting)
  | flush :: rest, waiting =>
    match waiting.find? flush.eventID_ with
    | none => none
    | some dependsOn =>
      if dependsOn.erase evID = ∅ then
        (completeFlushes evID rest (waiting.erase flush.eventID_)).map
          (fun r => (⟨flush.eventID_, flush.flags_⟩ :: r.1, r.2))
      else
        completeFlushes evID rest
          (waiting.insert flush.eventID_ (dependsOn.erase evID))

/-- The end of `doResponse` for an event: its response, then those of flushes. -/
def respondMem (event : MemEvent) (flags : UInt32) : Option (List Response × MemBackendConvertor) :=
  let evID := event.eventID_
  let response : Response := ⟨evID, if flags = 0 then event.flags_ else flags⟩
  match c.m_dependentRequests.find? evID with
  | none => some ([response], c)
  | some flushes =>
    (completeFlushes evID flushes c.m_waitingFlushes).map (fun r =>
      (response :: r.1, { c with
        m_waitingFlushes := r.2
        m_dependentRequests := c.m_dependentRequests.erase evID }))

def doResponse (reqId : ReqId) (flags : UInt32) : Option (List Response × MemBackendConvertor) :=
  let id := reqId.getBaseId
  match c.m_pendingRequests.find? id with
  | none => none
  | some ptr =>
    match (c.heap ptr).map BaseReq.decrement with
    | none => none
    | some req =>
      if req.isDone then
        let c' := { c with
          m_pendingRequests := c.m_pendingRequests.erase id
          heap := update c.heap ptr none }
        match req with
        | .custom creq => some ([⟨creq.m_evId, flags⟩], c')
        | .mem mreq => c'.respondMem mreq.m_event flags
      else some ([], { c with heap := update c.heap ptr (some req) })

end MemBackendConvertor

end SstElements.MemHierarchy
