import Mathlib.Data.List.Sort

/-!
# Link controls that restore the order of packets

Each endpoint numbers the requests that it sends to another one.  The receiver
hands on the request whose number it expects, and those that follow it among
the ones that came early; the others wait in a priority queue.
-/

namespace SstElements.Merlin.ReorderLinkControl

open Function

/-- A request to be sent, with what is copied unread in its body. -/
structure Request (α : Type) where
  dest : Nat
  src : Nat
  body : Option α

/-- The link control below sets the virtual network of what it sends. -/
structure ReorderRequest (α : Type) where
  dest : Nat
  src : Nat
  seq : UInt32
  vn : Nat
  body : Option α
  deriving DecidableEq, Repr

variable {α : Type}

/-- The entry with the last sequence number, which is never to be taken from a queue. -/
def dummy : ReorderRequest α := ⟨0, 0, 0xffffffff, 0, none⟩

/-- The top of a priority queue is the front of a list sorted by sequence number. -/
def pushQueue (queue : List (ReorderRequest α)) (req : ReorderRequest α) :
    List (ReorderRequest α) :=
  queue.orderedInsert (fun lhs rhs => lhs.seq ≤ rhs.seq) req

structure ReorderInfo (α : Type) where
  send : UInt32
  recv : UInt32
  queue : List (ReorderRequest α)

def ReorderInfo.new : ReorderInfo α := ⟨0, 0, [dummy]⟩

/-- The information about an endpoint is made when it is first looked for. -/
structure Endpoint (α : Type) where
  reorder_info : Nat → ReorderInfo α
  input_buf : Nat → List (ReorderRequest α)
  receiveFunctor : Bool

def Endpoint.initial : Endpoint α := ⟨fun _ => .new, fun _ => [], false⟩

/-- The request with its number, for the link control below. -/
def Endpoint.send (e : Endpoint α) (req : Request α) (vn : Nat) : Endpoint α × ReorderRequest α :=
  let info := e.reorder_info req.dest
  ({ e with
     reorder_info := update e.reorder_info req.dest
       { info with send := info.send + 1 } }, ⟨req.dest, req.src, info.send, vn, req.body⟩)

/-- Takes requests from the queue while they have the expected number. -/
def release :
    List (ReorderRequest α) → UInt32 →
      Option (List (ReorderRequest α) × UInt32 × List (ReorderRequest α))
  | [], _ => none
  | my_req :: queue, recv =>
    if my_req.seq = recv then
      (release queue (recv + 1)).map (fun r => (my_req :: r.1, r.2))
    else
      some ([], recv, my_req :: queue)

/-- A call of the receive functor, with the buffer that it finds. -/
structure Call (α : Type) where
  vn : Nat
  waiting : List (ReorderRequest α)

/-- A request arrives; `none` is a read of the top of an empty queue. -/
def Endpoint.handle_event (e : Endpoint α) (vn : Nat) (my_req : ReorderRequest α)
    (keep : Bool) : Option (Endpoint α × List (Call α)) :=
  let info := e.reorder_info my_req.src
  if my_req.seq = info.recv then
    (release info.queue (info.recv + 1)).map (fun r =>
      let input_buf := update e.input_buf vn
        (e.input_buf vn ++ my_req :: r.1)
      ({ reorder_info := update e.reorder_info my_req.src
           { info with recv := r.2.1, queue := r.2.2 }
         input_buf := input_buf
         receiveFunctor := e.receiveFunctor && keep },
        if e.receiveFunctor then [⟨vn, input_buf vn⟩] else []))
  else
    some ({ e with
      reorder_info := update e.reorder_info my_req.src
        { info with queue := pushQueue info.queue my_req } }, [])

def Endpoint.recv (e : Endpoint α) (vn : Nat) : Endpoint α × Option (ReorderRequest α) :=
  match e.input_buf vn with
  | [] => (e, none)
  | req :: rest => ({ e with input_buf := update e.input_buf vn rest }, some req)

/--
All endpoints with the requests that the network has still to deliver, what each
pair has sent and what each endpoint has received from a virtual network.
-/
structure Network (α : Type) where
  endpoints : Nat → Endpoint α
  inFlight : List (ReorderRequest α)
  sent : Nat → Nat → List (ReorderRequest α)
  received : Nat → Nat → List (ReorderRequest α)

def Network.initial : Network α := ⟨fun _ => .initial, [], fun _ _ => [], fun _ _ => []⟩

/-- What happens: calls of the endpoints, and deliveries in any order. -/
inductive Op (α : Type) where
  | send (req : Request α) (vn : Nat) (spaceToSend : Bool)
  | deliver (req : ReorderRequest α) (keep : Bool)
  | recv (e : Nat) (vn : Nat)
  | setNotifyOnReceive (e : Nat)

/-- A value for a pair of endpoints is replaced. -/
def setPair {β : Type} (f : Nat → Nat → β) (a b : Nat) (v : β) : Nat → Nat → β :=
  update f a (update (f a) b v)

/-- Requests are sent by their source and delivered to their destination. -/
def Network.step [DecidableEq α] (vns : Nat) (s : Network α) : Op α → Option (Network α)
  | .send req vn spaceToSend =>
    if vns ≤ vn ∨ spaceToSend = false then
      some s
    else
      let (e, my_req) := (s.endpoints req.src).send req vn
      some
        { s with
          endpoints := update s.endpoints req.src e
          inFlight := my_req :: s.inFlight
          sent := setPair s.sent req.src req.dest (s.sent req.src req.dest ++ [my_req]) }
  | .deliver req keep =>
    if req ∈ s.inFlight then
      ((s.endpoints req.dest).handle_event req.vn req keep).map (fun r =>
        { s with
          endpoints := update s.endpoints req.dest r.1
          inFlight := s.inFlight.erase req })
    else
      none
  | .recv e vn =>
    let (next, req) := (s.endpoints e).recv vn
    some
      { s with
        endpoints := update s.endpoints e next
        received := setPair s.received e vn (s.received e vn ++ req.toList) }
  | .setNotifyOnReceive e =>
    some
      { s with
        endpoints := update s.endpoints e
          { s.endpoints e with receiveFunctor := true } }

end SstElements.Merlin.ReorderLinkControl
