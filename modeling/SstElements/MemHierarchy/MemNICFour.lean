import SstElements.Library.ReorderBuffer
import SstElements.Library.Transition
import SstElements.MemHierarchy.MemTypes

/-!
# The network interface with four networks

`MemNICFour` sends each event on one of four networks, which deliver
independently of each other.  Every packet carries a tag that counts the packets
of its source for its destination; the receiver holds back what arrives early.

The interface only carries the events, so their content is a type parameter.
What the link control accepts is a parameter of each operation: the number of
queue heads for which it has space.  Statistics are left out, and so are
packets without client data, which `send` never makes.
-/

namespace SstElements.MemHierarchy

open Library Function

/-- The part of an event that the interface reads, and the rest of it. -/
structure MemEventBase (τ : Type) where
  cmd : Command
  payloadSize : Nat
  dst : String
  body : τ
deriving DecidableEq, Repr

namespace MemNICFour

inductive NetType where | REQ | ACK | FWD | DATA
deriving DecidableEq, Repr

instance : Fintype NetType where
  elems := {.REQ, .ACK, .FWD, .DATA}
  complete := by
    intro net
    cases net <;> decide

/-- `OrderedMemRtrEvent`: an event with its tag. -/
structure OrderedMemRtrEvent (τ : Type) where
  event : MemEventBase τ
  tag : UInt32
deriving DecidableEq, Repr

/-- `SimpleNetwork::Request`: a packet. -/
structure Request (τ : Type) where
  src : UInt64
  dest : UInt64
  vn : Nat
  sizeInBits : Nat
  payload : OrderedMemRtrEvent τ
deriving DecidableEq, Repr

end MemNICFour

open MemNICFour in
/-- The network interface. -/
structure MemNICFour (τ : Type) where
  /-- `info.addr`. -/
  addr : UInt64
  networkAddressMap : String → Option UInt64
  packetHeaderBytes : NetType → Nat
  clockOn : Bool
  sendQueue : NetType → List (Request τ)
  recvQueue : List (OrderedMemRtrEvent τ)
  sendTags : UInt64 → UInt32
  recvTags : UInt64 → UInt32
  orderBuffer : UInt64 → OrderedMap UInt32 (OrderedMemRtrEvent τ)

namespace MemNICFour

variable {τ : Type}

/-- The network that an event is sent on. -/
def netOf (ev : MemEventBase τ) : NetType :=
  if ev.payloadSize = 0 then
    match ev.cmd.commandClass with
    | .Request => .REQ
    | .Ack => .ACK
    | _ => .FWD
  else .DATA

def getSizeInBits (nic : MemNICFour τ) (ev : MemEventBase τ) (net : NetType) : Nat :=
  8 * (nic.packetHeaderBytes net + ev.payloadSize)

def packet (nic : MemNICFour τ) (dest : UInt64) (ev : MemEventBase τ) : Request τ where
  src := nic.addr
  dest := dest
  vn := 0
  sizeInBits := nic.getSizeInBits ev (netOf ev)
  payload :=
    { event := ev
      tag := nic.sendTags dest }

/-- The heads that `drainQueue` takes off a queue of length one only. -/
def drainedBySend (queue : List (Request τ)) (accepted : Nat) : Nat :=
  if queue.length = 1 then accepted else 0

/--
Sends an event; returns the packets given to its network.  An unknown
destination is a fatal error.
-/
def send (nic : MemNICFour τ) (ev : MemEventBase τ) (accepted : Nat) :
    Option (MemNICFour τ × List (Request τ)) :=
  (nic.networkAddressMap ev.dst).map fun dest =>
    let net := netOf ev
    let queue := nic.sendQueue net ++ [nic.packet dest ev]
    let drained := drainedBySend queue accepted
    let rest := queue.drop drained
    ({ nic with
       sendTags := update nic.sendTags dest (nic.sendTags dest + 1)
       sendQueue := update nic.sendQueue net rest
       clockOn := nic.clockOn || rest.length == 1 }, queue.take drained)

/-- Nothing is left to send or to hand over. -/
def isIdle (nic : MemNICFour τ) : Bool :=
  (nic.sendQueue .REQ).isEmpty && (nic.sendQueue .ACK).isEmpty &&
    (nic.sendQueue .FWD).isEmpty && (nic.sendQueue .DATA).isEmpty &&
      nic.recvQueue.isEmpty

/--
One clock tick; returns the packets given to each network and the events
given to the handler.
-/
def clock (nic : MemNICFour τ) (accepted : NetType → Nat) :
    MemNICFour τ × (NetType → List (Request τ)) × List (MemEventBase τ) :=
  let nic' :=
    { nic with
      sendQueue := fun net => (nic.sendQueue net).drop (accepted net)
      recvQueue := nic.recvQueue.tail }
  ({ nic' with clockOn := nic.clockOn && !nic'.isIdle },
    fun net => (nic.sendQueue net).take (accepted net),
    nic.recvQueue.head?.toList.map OrderedMemRtrEvent.event)

/--
The loop of `doRecv` over the held packets of one source: returns the packets
released, the tag expected next and the packets still held.
-/
def releaseHeld (fuel : Nat) (tag : UInt32)
    (held : OrderedMap UInt32 (OrderedMemRtrEvent τ)) :
    List (OrderedMemRtrEvent τ) × UInt32 ×
      OrderedMap UInt32 (OrderedMemRtrEvent τ) :=
  ReorderBuffer.release (fun tag => tag + 1) fuel tag held

/-- What `doRecv` hands over and queues for a packet that is next in order. -/
def accept (nic : MemNICFour τ) (mre : OrderedMemRtrEvent τ) :
    List (MemEventBase τ) × List (OrderedMemRtrEvent τ) :=
  match nic.recvQueue with
  | [] => ([mre.event], [])
  | front :: rest => ([front.event], rest ++ [mre])

/-- Receives a packet; returns the events given to the handler. -/
def doRecv (nic : MemNICFour τ) (req : Request τ) : MemNICFour τ × List (MemEventBase τ) :=
  let src := req.src
  let mre := req.payload
  if mre.tag = nic.recvTags src then
    let (handed, queue) := nic.accept mre
    let (released, tag, held) :=
      releaseHeld (nic.orderBuffer src).entries.length
        (nic.recvTags src + 1) (nic.orderBuffer src)
    let queue := queue ++ released
    ({ nic with
       recvTags := update nic.recvTags src tag
       recvQueue := queue
       orderBuffer := update nic.orderBuffer src held
       clockOn := nic.clockOn || !queue.isEmpty }, handed)
  else
    ({ nic with
       orderBuffer := update nic.orderBuffer src
         ((nic.orderBuffer src).insert mre.tag mre)
       clockOn := nic.clockOn || !nic.recvQueue.isEmpty }, [])

def setup (τ : Type) (addr : UInt64)
    (networkAddressMap : String → Option UInt64)
    (packetHeaderBytes : NetType → Nat) : MemNICFour τ where
  addr := addr
  networkAddressMap := networkAddressMap
  packetHeaderBytes := packetHeaderBytes
  clockOn := true
  sendQueue := fun _ => []
  recvQueue := []
  sendTags := fun _ => 0
  recvTags := fun _ => 0
  orderBuffer := fun _ => OrderedMap.empty

end MemNICFour

/-- Where an event was sent from, and how many went the same way before. -/
structure Origin where
  src : UInt64
  seq : Nat
deriving DecidableEq, Repr

open MemNICFour in
/--
All endpoints and the packets in flight on the four networks, with a history:
the events sent from each endpoint to each other, and those handed over.
-/
structure FourNetworks where
  nics : UInt64 → MemNICFour Origin
  inFlight : NetType → List (Request Origin)
  sent : UInt64 → UInt64 → List (MemEventBase Origin)
  handled : UInt64 → List (MemEventBase Origin)

namespace FourNetworks

open MemNICFour

/-- What can happen on the endpoints and the networks. -/
inductive Op where
  /-- The component at `src` sends an event. -/
  | send (src : UInt64) (cmd : Command) (payloadSize : Nat) (dst : String)
      (accepted : Nat)
  /-- The clock of an endpoint ticks. -/
  | clock (addr : UInt64) (accepted : NetType → Nat)
  /-- A network delivers one of its packets. -/
  | deliver (net : NetType) (index : Nat)

/-- The event that is sent next from `src` to `dest`. -/
def label (f : FourNetworks) (src dest : UInt64) (cmd : Command)
    (payloadSize : Nat) (dst : String) : MemEventBase Origin where
  cmd := cmd
  payloadSize := payloadSize
  dst := dst
  body :=
    { src := src
      seq := (f.sent src dest).length }

def stepSend (f : FourNetworks) (src : UInt64) (cmd : Command)
    (payloadSize : Nat) (dst : String) (accepted : Nat) :
    Option FourNetworks :=
  ((f.nics src).networkAddressMap dst).bind fun dest =>
    let ev := f.label src dest cmd payloadSize dst
    ((f.nics src).send ev accepted).map fun result =>
      { f with
        nics := update f.nics src result.1
        inFlight := update f.inFlight (netOf ev)
          (f.inFlight (netOf ev) ++ result.2)
        sent := update f.sent src
          (update (f.sent src) dest (f.sent src dest ++ [ev])) }

def stepClock (f : FourNetworks) (addr : UInt64) (accepted : NetType → Nat) : Option FourNetworks :=
  if (f.nics addr).clockOn then
    match (f.nics addr).clock accepted with
    | (nic, given, handed) =>
      some
        { f with
          nics := update f.nics addr nic
          inFlight := fun net => f.inFlight net ++ given net
          handled := update f.handled addr
            (f.handled addr ++ handed) }
  else none

def stepDeliver (f : FourNetworks) (net : NetType) (index : Nat) : Option FourNetworks :=
  (f.inFlight net)[index]?.map fun req =>
    let result := (f.nics req.dest).doRecv req
    { f with
      nics := update f.nics req.dest result.1
      inFlight := update f.inFlight net
        ((f.inFlight net).eraseIdx index)
      handled := update f.handled req.dest
        (f.handled req.dest ++ result.2) }

def step (f : FourNetworks) : Op → Option FourNetworks
  | .send src cmd payloadSize dst accepted =>
    f.stepSend src cmd payloadSize dst accepted
  | .clock addr accepted => f.stepClock addr accepted
  | .deliver net index => f.stepDeliver net index

/-- All endpoints after `setup`, with nothing sent. -/
def start (names : UInt64 → String → Option UInt64)
    (headers : UInt64 → NetType → Nat) : FourNetworks where
  nics := fun addr => setup Origin addr (names addr) (headers addr)
  inFlight := fun _ => []
  sent := fun _ _ => []
  handled := fun _ => []

end FourNetworks

end SstElements.MemHierarchy
