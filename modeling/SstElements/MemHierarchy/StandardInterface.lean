import SstElements.MemHierarchy.MemEvent
import SstElements.MemHierarchy.MemRegion

/-!
# The standard memory interface

`StandardInterface` converts the requests of an endpoint to events, keeps those
that need a response, and converts the responses back.  `receive` also converts
requests that arrive for the endpoint, which the endpoint answers later.

Whether a request needs a response is decided by the request class; it is the
parameter `needsResponse`.  Identifiers of events and of requests created here
come from counters.  A fatal error is `none`.
-/

namespace SstElements.MemHierarchy

open Library

/-- Fields that the requests to one address share. -/
structure RequestBase where
  pAddr : Addr
  size : UInt64
  tid : UInt32
  vAddr : Addr
  iPtr : Addr
  noncacheable : Bool
deriving DecidableEq, Repr

/-- The classes of requests. -/
inductive RequestBody where
  | read (base : RequestBase)
  | write (base : RequestBase) (data : List UInt8) (posted : Bool)
  | flushAddr (base : RequestBase) (inv : Bool)
  | readLock (base : RequestBase)
  | writeUnlock (base : RequestBase) (data : List UInt8) (posted : Bool)
  | loadLink (base : RequestBase)
  | storeConditional (base : RequestBase) (data : List UInt8)
  | moveData (pSrc vSrc pDst vDst : Addr) (size : UInt64) (iPtr : Addr)
      (posted : Bool)
  | customReq (data : List UInt8)
  | invNotify (base : RequestBase)
deriving DecidableEq, Repr

/-- A request of the endpoint. -/
structure Request where
  id : Nat
  body : RequestBody
deriving DecidableEq, Repr

/-- The answers that an endpoint can send. -/
inductive Reply where
  | readResp (id : Nat) (data : List UInt8) (success : Bool)
  | writeResp (id : Nat) (success : Bool)
  | flushResp
  | customResp
deriving DecidableEq, Repr

/-- The kinds of responses that an endpoint receives. -/
inductive ResponseKind where | read | write | flush | move | custom
deriving DecidableEq, Repr

def RequestBody.kind : RequestBody → ResponseKind
  | .read _ | .readLock _ | .loadLink _ => .read
  | .write _ _ _ | .writeUnlock _ _ _ | .storeConditional _ _ => .write
  | .flushAddr _ _ | .invNotify _ => .flush
  | .moveData _ _ _ _ _ _ _ => .move
  | .customReq _ => .custom

def RequestBody.size : RequestBody → UInt64
  | .read base | .readLock base | .loadLink base => base.size
  | .write base _ _ | .writeUnlock base _ _ => base.size
  | .storeConditional base _ | .flushAddr base _ => base.size
  | .invNotify base => base.size
  | .moveData _ _ _ _ size _ _ => size
  | .customReq data => UInt64.ofNat data.length

/-- A response as delivered to the endpoint. -/
structure Delivery where
  request : Request
  kind : ResponseKind
  data : List UInt8
  fail : Bool
deriving DecidableEq, Repr

/-- The interface of one endpoint. -/
structure StandardInterface where
  name : String
  baseAddrMask_ : Addr
  lineSize_ : Addr
  noncacheableRegions : List MemRegion
  targetDestination : Addr → String
  needsResponse : RequestBody → Bool
  requests_ : OrderedMap Nat (Request × Command)
  responses_ : OrderedMap Nat MemEvent
  nextEvent : Nat
  nextRequest : Nat

namespace StandardInterface

variable (iface : StandardInterface)

def inNoncacheableRegion (addr : Addr) : Bool :=
  (iface.noncacheableRegions.filter (fun r => decide (r.start ≤ addr))).any
    (fun r => r.contains addr)

/-- Line address, unless there are no lines or the access is noncacheable. -/
def lineAddr (addr : Addr) (noncacheable : Bool) : Addr :=
  if iface.lineSize_ = 0 || noncacheable then addr
  else addr &&& iface.baseAddrMask_

/-- The event that the conversions of accesses have in common. -/
def accessEvent (base : RequestBase) (cmd : Command) (noncacheable : Bool) : MemEvent :=
  let bAddr := iface.lineAddr base.pAddr noncacheable
  { MemEvent.new iface.nextEvent iface.name base.pAddr bAddr cmd with
    size_ := base.size.toUInt32
    rqstr_ := iface.name
    tid_ := base.tid
    dst_ := iface.targetDestination bAddr
    vAddr_ := base.vAddr
    instPtr_ := base.iPtr
    flags_ := if noncacheable then MemEvent.F_NONCACHEABLE else 0 }

/-- The payload of a write; zeros if the endpoint gives no data. -/
def withData (e : MemEvent) (size : UInt64) (data : List UInt8) : MemEvent :=
  if data.isEmpty then e.setZeroPayload size.toUInt32
  else e.setPayload data

def convert : RequestBody → Option MemEvent
  | .read base =>
    some (iface.accessEvent base .GetS
      (base.noncacheable || iface.inNoncacheableRegion base.pAddr))
  | .write base data posted =>
    let e := iface.accessEvent base .Write
      (base.noncacheable || iface.inNoncacheableRegion base.pAddr)
    some (withData (if posted then e.setFlag MemEvent.F_NORESPONSE else e) base.size data)
  | .flushAddr base inv =>
    let cmd := if inv then Command.FlushLineInv else Command.FlushLine
    some { iface.accessEvent base cmd base.noncacheable with flags_ := 0 }
  | .readLock base =>
    some ((iface.accessEvent base .GetSX base.noncacheable).setFlag MemEvent.F_LOCKED)
  | .writeUnlock base data _ =>
    some (withData
      ((iface.accessEvent base .Write base.noncacheable).setFlag
        MemEvent.F_LOCKED) base.size data)
  | .loadLink base =>
    some ((iface.accessEvent base .GetS base.noncacheable).setFlag MemEvent.F_LLSC)
  | .storeConditional base data =>
    some (withData
      ((iface.accessEvent base .Write base.noncacheable).setFlag MemEvent.F_LLSC) base.size data)
  | .moveData pSrc vSrc pDst _ size iPtr posted =>
    let cmd := if pDst > pSrc then Command.Put else Command.Get
    let bAddr := iface.lineAddr pSrc false
    some { MemEvent.new iface.nextEvent iface.name pSrc bAddr cmd with
      flags_ := if posted then MemEvent.F_NORESPONSE else 0
      size_ := size.toUInt32, vAddr_ := vSrc, instPtr_ := iPtr }
  | .customReq data =>
    some { MemEvent.new iface.nextEvent iface.name 0 0 .CustomReq with
      payload_ := data
      flags_ :=
        if iface.needsResponse (.customReq data) then 0
        else MemEvent.F_NORESPONSE }
  | .invNotify _ => none

def send (req : Request) : Option (MemEvent × StandardInterface) :=
  (iface.convert req.body).map (fun me =>
    (me, { iface with
      nextEvent := iface.nextEvent + 1
      requests_ :=
        if iface.needsResponse req.body then
          iface.requests_.insert me.eventID_ (req, me.cmd_)
        else iface.requests_ }))

/-- `send` of an answer to a request that the endpoint received. -/
def sendReply : Reply → Option (MemEvent × StandardInterface)
  | .readResp id data success =>
    match iface.responses_.find? id with
    | none => none
    | some mereq =>
      let meresp := mereq.makeResponse.setPayload data
      some (if success then meresp else meresp.setFail,
        { iface with responses_ := iface.responses_.erase id })
  | .writeResp id success =>
    match iface.responses_.find? id with
    | none => none
    | some mereq =>
      let meresp := mereq.makeResponse
      some (if success then meresp else meresp.setFail,
        { iface with responses_ := iface.responses_.erase id })
  | .flushResp => none
  | .customResp => none

/-- `convertResponseGetSResp`: the payload, or the part that was asked for. -/
def responseData (req : Request) (me : MemEvent) : List UInt8 :=
  if req.body.size = me.size_.toUInt64 then me.getPayload
  else (me.getPayload.drop (me.addr_ - me.baseAddr_).toNat).take
    req.body.size.toNat

/-- What the endpoint and the link get to see of one received event. -/
inductive Outcome where
  | deliver (d : Delivery)
  | resend (nackedEvent : MemEvent)
  | request (req : Request)
deriving DecidableEq, Repr

/-- The conversion of a response by its command; the request is known. -/
def convertResponse (origReq : Request) (me nackedEvent : MemEvent) : Command → Option Outcome
  | .GetSResp =>
    some (.deliver
      { request := origReq, kind := .read,
        data := responseData origReq me, fail := !me.success })
  | .WriteResp =>
    some (.deliver { request := origReq, kind := .write, data := [], fail := !me.success })
  | .FlushLineResp =>
    some (.deliver { request := origReq, kind := .flush, data := [], fail := !me.success })
  | .AckMove =>
    some (.deliver { request := origReq, kind := .move, data := [], fail := false })
  | .CustomResp =>
    some (.deliver
      { request := origReq, kind := .custom, data := me.payload_,
        fail := false })
  | .NACK => some (.resend nackedEvent.incrementRetries)
  | _ => none

/--
The response branch of `receive`.  The command of a response to a GetS or a
GetSX is rewritten first; the request is forgotten before the dispatch.
-/
def receiveResponse (me nackedEvent : MemEvent) : Option (Outcome × StandardInterface) :=
  match me.responseToID_ with
  | none => none
  | some origID =>
    match iface.requests_.find? origID with
    | none => none
    | some (origReq, origCmd) =>
      let cmd :=
        if origCmd = .GetS || origCmd = .GetSX then Command.GetSResp
        else me.cmd_
      (convertResponse origReq me nackedEvent cmd).map (fun outcome =>
        (outcome, { iface with
          requests_ := iface.requests_.erase origID }))

/-- The request that an event asks of the endpoint. -/
def convertRequest (event : MemEvent) : Option RequestBody :=
  let base : RequestBase :=
    { pAddr := event.addr_, size := event.size_.toUInt64, tid := 0,
      vAddr := event.vAddr_, iPtr := event.instPtr_, noncacheable := false }
  let posted := event.queryFlag MemEvent.F_NORESPONSE
  match event.cmd_ with
  | .Inv => some (.invNotify base)
  | .GetS | .GetSX =>
    if event.queryFlag MemEvent.F_LLSC then some (.loadLink base)
    else if event.queryFlag MemEvent.F_LOCKED then some (.readLock base)
    else some (.read base)
  | .Write =>
    if event.queryFlag MemEvent.F_LLSC then
      some (.storeConditional base event.getPayload)
    else if event.queryFlag MemEvent.F_LOCKED then
      some (.writeUnlock base event.getPayload posted)
    else some (.write base event.getPayload posted)
  | _ => none

def receiveRequest (me : MemEvent) : Option (Outcome × StandardInterface) :=
  (convertRequest me).map (fun body =>
    let req : Request := { id := iface.nextRequest, body := body }
    (.request req, { iface with
      nextRequest := iface.nextRequest + 1
      responses_ :=
        if iface.needsResponse body then iface.responses_.insert req.id me
        else iface.responses_ }))

/--
`receive` of an event from the link.  `nackedEvent` is the event that a NACK
carries; other events carry none.
-/
def receive (me nackedEvent : MemEvent) : Option (Outcome × StandardInterface) :=
  if me.cmd_.isResponse then iface.receiveResponse me nackedEvent
  else iface.receiveRequest me

end StandardInterface

end SstElements.MemHierarchy
