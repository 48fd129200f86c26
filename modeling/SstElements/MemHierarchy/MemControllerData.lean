import SstElements.MemHierarchy.BackingRefinement
import SstElements.MemHierarchy.MemController
import SstElements.MemHierarchy.MemEvent

/-!
# Data of the memory controller

The initialisation events and the requests of a memory controller move data
between the events and the backing store.  A request is handled when the
backend answers it; the backend itself only decides when that is and with which
flags.  All addresses of the events are global.
-/

namespace SstElements.MemHierarchy

open Library

/-- The stores that a memory controller makes. -/
inductive Backing where
  | mmap (b : BackingMMAP)
  | malloc (b : BackingMalloc)

/-- A call on either store. -/
def Backing.step (fresh : Addr → Nat → UInt8) :
    Backing → BackingCall → Option (List UInt8 × Backing)
  | .mmap b, call => (b.step call).map (fun r => (r.1, .mmap r.2))
  | .malloc b, call => (b.step fresh call).map (fun r => (r.1, .malloc r.2))

/-- What reaches a memory controller. -/
inductive ControllerEvent where
  /-- A `MemEventInit` with its command. -/
  | init (cmd : Command) (addr : Addr) (payload : List UInt8)
  /-- A request, with the flags of the answer of the backend. -/
  | request (ev : MemEvent) (flags : UInt32)
deriving DecidableEq, Repr

namespace MemController

section Handlers

variable (c : MemController) (fresh : Addr → Nat → UInt8)

def isRequestAddressValid (addr : Addr) : Bool := c.region_.contains addr

/-- `processInitEvent` with a backing store. -/
def processInitEvent (b : Backing) (cmd : Command) (addr : Addr)
    (payload : List UInt8) : Option Backing :=
  if cmd = .Write then
    let addr' := c.translateToLocal addr
    if c.isRequestAddressValid addr' then
      (b.step fresh (.setVector addr' (UInt64.ofNat payload.length) payload)).map
        Prod.snd
    else some b
  else some b

/-- `writeData` of an event. -/
def writeData (b : Backing) (event : MemEvent) : Option Backing :=
  if event.cmd_ = .PutM then
    let addr := if event.queryFlag MemEvent.F_NONCACHEABLE then event.addr_
      else event.baseAddr_
    (b.step fresh (.setVector addr event.size_.toUInt64 event.getPayload)).map
      Prod.snd
  else if event.cmd_ = .Write then
    (b.step fresh (.setVector event.addr_ event.size_.toUInt64 event.getPayload)).map Prod.snd
  else some b

/-- `readData` of an event. -/
def readData (b : Backing) (event : MemEvent) : Option (MemEvent × Backing) :=
  let localAddr := if event.queryFlag MemEvent.F_NONCACHEABLE then event.addr_
    else event.baseAddr_
  let payload := List.replicate event.size_.toNat 0
  (b.step fresh (.getVector localAddr event.size_.toUInt64 payload)).map
    (fun r => (event.setPayload r.1, r.2))

/-- `handleMemResponse` of the request that the backend answers. -/
def handleMemResponse (b : Backing) (ev : MemEvent) (flags : UInt32) :
    Option (Option MemEvent × Backing) := do
  let b' ← if ev.cmd_ = .PutM || ev.cmd_ = .Write then writeData fresh b ev
    else some b
  if ev.queryFlag MemEvent.F_NORESPONSE then some (none, b')
  else do
    let resp := ev.makeResponse
    let r ←
      if resp.cmd_ = .GetSResp || resp.cmd_ = .GetXResp then
        (readData fresh b' resp).map (fun r =>
          (if r.1.queryFlag MemEvent.F_NONCACHEABLE then r.1
            else { r.1 with cmd_ := .GetXResp }, r.2))
      else some (resp, b')
    let resp' := { r.1 with flags_ := flags }
    some (some { resp' with
      baseAddr_ := c.translateToGlobal ev.baseAddr_
      addr_ := c.translateToGlobal ev.addr_ }, r.2)

/-- The event with local addresses, as `handleEvent` leaves it. -/
def withLocalAddrs (ev : MemEvent) : MemEvent :=
  { ev with
    baseAddr_ := c.translateToLocal ev.baseAddr_
    addr_ := c.translateToLocal ev.addr_ }

/-- The data of a response, none for other answers. -/
def dataOf (resp : Option MemEvent) : List UInt8 :=
  match resp with
  | some r =>
    if r.cmd_ = .GetSResp || r.cmd_ = .GetXResp then r.payload_ else []
  | none => []

def flushPut (ev : MemEvent) : MemEvent :=
  ((MemEvent.new 0 noName ev.baseAddr_ ev.baseAddr_ .PutM).setPayload
    ev.getPayload).setFlag MemEvent.F_NORESPONSE

/-- `handleEvent` and the answers of the backend to what it sends. -/
def handleRequest (b : Backing) (event : MemEvent) (flags : UInt32) :
    Option (List UInt8 × Backing) :=
  let ev := c.withLocalAddrs event
  match ev.cmd_ with
  | .PutM =>
    (c.handleMemResponse fresh b (ev.setFlag MemEvent.F_NORESPONSE) flags).map
      (fun r => (dataOf r.1, r.2))
  | .GetS | .GetX | .GetSX | .Write =>
    (c.handleMemResponse fresh b ev flags).map (fun r => (dataOf r.1, r.2))
  | .FlushLine | .FlushLineInv => do
      let b' ←
        if ev.payload_.length = 0 then some b
        else (c.handleMemResponse fresh b (flushPut ev) flags).map Prod.snd
      (c.handleMemResponse fresh b' { ev with cmd_ := .FlushLine } flags).map
        (fun r => (dataOf r.1, r.2))
  | .PutS | .PutE => some ([], b)
  | _ => none

/-- What an event makes of the store, and the data that is answered. -/
def dataStep (b : Backing) : ControllerEvent → Option (List UInt8 × Backing)
  | .init cmd addr payload =>
    (c.processInitEvent fresh b cmd addr payload).map (fun b' => ([], b'))
  | .request ev flags => c.handleRequest fresh b ev flags

end Handlers

end MemController

end SstElements.MemHierarchy
