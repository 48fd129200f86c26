import SstElements.MemHierarchy.MemTypes

/-!
# Events of the memory hierarchy and their queues

`MemEvent` has the fields of `MemEventBase` and of `MemEvent` that components
read.  Identifiers are numbers; the next unused one is kept by whoever creates
events.

A coherence controller keeps the events that it sends in two queues, towards
memory and towards the core, until their delivery time.  A new event goes
behind the last one that is due no later or has the same routing address.  In
each cycle the events that are due are sent, as far as the link width allows.
-/

namespace SstElements.MemHierarchy

def noName : String := "None"

/-- An event of the memory hierarchy. -/
structure MemEvent where
  eventID_ : Nat
  responseToID_ : Option Nat
  src_ : String
  dst_ : String
  rqstr_ : String
  tid_ : UInt32
  cmd_ : Command
  flags_ : UInt32
  memFlags_ : UInt32
  size_ : UInt32
  addr_ : Addr
  baseAddr_ : Addr
  retries_ : Nat
  payload_ : List UInt8
  prefetch_ : Bool
  dirty_ : Bool
  isEvict_ : Bool
  instPtr_ : Addr
  vAddr_ : Addr
deriving DecidableEq, Repr

namespace MemEvent

def F_LOCKED : UInt32 := 0x00000001
def F_NONCACHEABLE : UInt32 := 0x00000010
def F_LLSC : UInt32 := 0x00000100
def F_FAIL : UInt32 := 0x00001000
def F_NORESPONSE : UInt32 := 0x00010000

/-- A new event with the default values of all other fields. -/
def new (id : Nat) (src : String) (addr baseAddr : Addr) (cmd : Command) : MemEvent :=
  { eventID_ := id, responseToID_ := none, src_ := src, dst_ := noName,
    rqstr_ := noName, tid_ := 0, cmd_ := cmd, flags_ := 0, memFlags_ := 0,
    size_ := 0, addr_ := addr, baseAddr_ := baseAddr, retries_ := 0,
    payload_ := [], prefetch_ := false, dirty_ := false, isEvict_ := false,
    instPtr_ := 0, vAddr_ := 0 }

def setFlag (e : MemEvent) (flag : UInt32) : MemEvent := { e with flags_ := e.flags_ ||| flag }

def queryFlag (e : MemEvent) (flag : UInt32) : Bool := decide (e.flags_ &&& flag ≠ 0)

def setFail (e : MemEvent) : MemEvent := e.setFlag F_FAIL

def success (e : MemEvent) : Bool := !e.queryFlag F_FAIL

def setPayload (e : MemEvent) (data : List UInt8) : MemEvent :=
  { e with size_ := UInt32.ofNat data.length, payload_ := data }

def setZeroPayload (e : MemEvent) (size : UInt32) : MemEvent :=
  { e with size_ := size, payload_ := List.replicate size.toNat 0 }

/-- The payload, padded with zeros up to the size. -/
def getPayload (e : MemEvent) : List UInt8 :=
  e.payload_ ++ List.replicate (e.size_.toNat - e.payload_.length) 0

/-- `setResponse`: turn a copy of `event` into the response to it. -/
def setResponse (e event : MemEvent) : MemEvent :=
  { e with
    responseToID_ := some event.eventID_
    cmd_ := e.cmd_.response
    dst_ := event.src_
    src_ := event.dst_
    rqstr_ := event.rqstr_
    tid_ := event.tid_
    flags_ := event.flags_
    memFlags_ := event.memFlags_ }

/-- The response to an event; the copy keeps its identifier. -/
def makeResponse (e : MemEvent) : MemEvent := e.setResponse e

def makeNACKResponse (e : MemEvent) : MemEvent := { e.setResponse e with cmd_ := .NACK }

def incrementRetries (e : MemEvent) : MemEvent := { e with retries_ := e.retries_ + 1 }

end MemEvent

namespace CoherenceController

/-- `CoherenceController::Response`: an event with its delivery time. -/
structure Response where
  event : MemEvent
  deliveryTime : SimTime
  size : UInt64
deriving DecidableEq, Repr

namespace Response

/-- The scan for the position of a new event, on the reversed queue. -/
def insertFromBack (resp : Response) : List Response → List Response
  | [] => [resp]
  | r :: rest =>
    if r.deliveryTime ≤ resp.deliveryTime
        || resp.event.baseAddr_ = r.event.baseAddr_ then resp :: r :: rest
    else r :: insertFromBack resp rest

/-- `addToOutgoingQueue` and `addToOutgoingQueueUp`. -/
def addToOutgoingQueue (queue : List Response) (resp : Response) : List Response :=
  (insertFromBack resp queue.reverse).reverse

/--
The loop of `sendOutgoingEvents` on one queue: what stays in the queue and what
is sent.  A link of width zero is not limited.  An event wider than what is
left of the cycle keeps its place with the rest of its size.
-/
def sendReady (maxBytes : UInt64) (now : SimTime) :
    UInt64 → List Response → List Response × List MemEvent
  | _, [] => ([], [])
  | bytesLeft, r :: rest =>
    if now < r.deliveryTime then (r :: rest, [])
    else if maxBytes = 0 then
      ((sendReady maxBytes now bytesLeft rest).1,
        r.event :: (sendReady maxBytes now bytesLeft rest).2)
    else if bytesLeft = 0 then (r :: rest, [])
    else if bytesLeft < r.size then
      ({ r with size := r.size - bytesLeft } :: rest, [])
    else
      ((sendReady maxBytes now (bytesLeft - r.size) rest).1,
        r.event :: (sendReady maxBytes now (bytesLeft - r.size) rest).2)

end Response

end CoherenceController

end SstElements.MemHierarchy
