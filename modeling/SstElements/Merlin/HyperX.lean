import SstElements.Library.LeastWeight
import SstElements.Merlin.Locations

/-!
# The HyperX topology

In every dimension each router has links to all other routers that differ in
this coordinate only.  Each VN is routed by one of six algorithms, some of
which look at the queues of the output ports and at random numbers.
-/

namespace SstElements.Merlin.HyperX

open Library.WiredNetwork Library.LeastWeight List

section Ports

variable (s : Shape)

def port_start : Nat → Nat
  | 0 => 0
  | dim + 1 => port_start dim + s.dim_width dim * (s.dim_size dim - 1)

def local_port_start : Nat := port_start s s.dimensions

def radix : Nat :=
  s.local_ports +
    ((range s.dimensions).map (fun x => s.dim_width x * (s.dim_size x - 1))).sum

end Ports

section Build

/-- Links are named by the locations of their ends, or by their host. -/
inductive LinkName where
  | link (name1 name2 : List Nat) (num : Nat)
  | nic (rtr n : Nat)
  deriving DecidableEq, Repr

/-- The names of the two locations are sorted so their order does not matter. -/
def getLink (name1 name2 : List Nat) (num : Nat) : LinkName :=
  if name1 < name2 then
    .link name1 name2 num
  else
    .link name2 name1 num

variable (s : Shape)

/-- The links to the other routers of a dimension, from one of them on. -/
def routerLinks (i dim : Nat) (mydims : List Nat) : Nat → Nat → Nat → List (Attachment LinkName)
  | 0, _, _ => []
  | n + 1, router, port =>
    if router ≠ mydims.getD dim 0 then
      (range (s.dim_width dim)).map (fun num =>
        ⟨.router i (port + num), getLink mydims (mydims.set dim router) num⟩) ++
      routerLinks i dim mydims n (router + 1) (port + s.dim_width dim)
    else
      routerLinks i dim mydims n (router + 1) port

def dimLinks (i : Nat) (mydims : List Nat) : Nat → Nat → Nat → List (Attachment LinkName)
  | 0, _, _ => []
  | n + 1, dim, port =>
    routerLinks s i dim mydims (s.dim_size dim) 0 port ++
      dimLinks i mydims n (dim + 1)
        (port + s.dim_width dim * (s.dim_size dim - 1))

def build (built : Nat → Bool) : List (Attachment LinkName) :=
  (range s.num_routers).flatMap (fun i =>
    dimLinks s i (idToLocation s.sizes i) s.dimensions 0 0 ++
      hostLinks .nic s built i (port_start s s.dimensions))

end Build

section Topology

inductive RouteAlgo where
  | DOR
  | DORND
  | MINA
  | VALIANT
  | DOAL
  | VDAL
  deriving DecidableEq, Repr

def RouteAlgo.num_vcs (dimensions : Nat) : RouteAlgo → Nat
  | .DOAL => 2
  | .VALIANT => 2
  | .VDAL => 2 * dimensions
  | .DORND => 1
  | .DOR => 1
  | .MINA => dimensions

structure VnInfo where
  start_vc : Nat
  num_vcs : Nat
  algorithm : RouteAlgo
  deriving DecidableEq, Repr

/-- The VNs get their VCs one after the other. -/
def setupVns (dimensions : Nat) : Nat → List RouteAlgo → List VnInfo
  | _, [] => []
  | curr_vc, algo :: rest =>
    ⟨curr_vc, algo.num_vcs dimensions, algo⟩ ::
      setupVns dimensions (curr_vc + algo.num_vcs dimensions) rest

structure Topo where
  router_id : Nat
  id_loc : List Nat
  vns : List VnInfo
  deriving DecidableEq, Repr

/-- The constructor refuses a router with too few ports. -/
def topo_hyperx (s : Shape) (algorithms : List RouteAlgo) (num_ports rtr_id : Nat) : Option Topo :=
  if num_ports < local_port_start s + s.local_ports then
    none
  else
    some
      { router_id := rtr_id
        id_loc := idToLocation s.sizes rtr_id
        vns := setupVns s.dimensions 0 algorithms }

/-- A packet in the network; its output port is set when it is first routed. -/
structure Packet where
  dest : Nat
  vn : Nat
  vc : Nat
  next_port : Int
  last_routing_dim : Int
  dest_loc : List Nat
  val_route_dest : Bool
  val_loc : List Nat
  deriving DecidableEq, Repr

/--
What a router finds when it routes a packet: the queue lengths by port and VC,
the next random number, and what is in a variable that has not been set.
-/
structure Found where
  output_queue_lengths : Nat → Int32
  random : Nat
  uninitialized : Int

def get_dest_local_port (s : Shape) (dest_id : Nat) : Nat :=
  local_port_start s + dest_id % s.local_ports

end Topology

section Routing

variable (s : Shape) (num_vcs : Nat) (t : Topo)

/-- The weight no port may reach, the largest number of the type. -/
def maxWeight : Int := 0x7fffffff

/-- The number of a router of a dimension among the others. -/
def offsetTo (dim : Nat) (dest_loc : List Nat) : Nat :=
  dest_loc.getD dim 0 -
    (if t.id_loc.getD dim 0 < dest_loc.getD dim 0 then 1 else 0)

/-- The first port towards a location in a dimension. -/
def portTo (dim : Nat) (dest_loc : List Nat) : Nat :=
  port_start s dim + offsetTo t dim dest_loc * s.dim_width dim

def portsFrom (first count : Nat) : List Nat := (range count).map (fun i => first + i)

def isUnaligned (dest_loc : List Nat) (dim : Nat) : Bool :=
  dest_loc.getD dim 0 ≠ t.id_loc.getD dim 0

/-- The first dimension that is not aligned and the first port to align it. -/
def routeDORBase (dest_loc : List Nat) : Option (Nat × Nat) :=
  ((range s.dimensions).find? (isUnaligned t dest_loc)).map
    (fun dim => (dim, portTo s t dim dest_loc))

/-- No multipath: the first link is used. -/
def choose_multipath (start_port _num_ports : Nat) : Nat := start_port

def routeDOR (vc : Nat) (ev : Packet) : Packet :=
  match routeDORBase s t ev.dest_loc with
  | none =>
    { ev with
      next_port := get_dest_local_port s ev.dest
      vc := vc }
  | some (dim, first) =>
    { ev with
      next_port := choose_multipath first (s.dim_width dim)
      vc := vc }

def weightOf (found : Found) (port vc : Nat) : Int :=
  (found.output_queue_lengths (port * num_vcs + vc)).toInt

/-- Routes that are not minimal weigh twice as much and one more. -/
def misrouteWeightOf (found : Found) (port vc : Nat) : Int :=
  (2 * found.output_queue_lengths (port * num_vcs + vc) + 1).toInt

def routeDORND (vc : Nat) (found : Found) (ev : Packet) : Packet :=
  match routeDORBase s t ev.dest_loc with
  | none =>
    { ev with
      next_port := get_dest_local_port s ev.dest
      vc := vc }
  | some (dim, first) =>
    let min_port := selectLeast maxWeight
      (fun p => weightOf num_vcs found p vc)
      (portsFrom first (s.dim_width dim))
    { ev with
      next_port := (min_port.map Int.ofNat).getD found.uninitialized
      vc := vc }

def routeValiant (vc : Nat) (ev : Packet) : Packet :=
  let toDest (ev : Packet) (next_vc : Nat) : Packet :=
    match routeDORBase s t ev.dest_loc with
    | none =>
      { ev with
        next_port := get_dest_local_port s ev.dest
        vc := vc }
    | some (dim, first) =>
      { ev with
        next_port := choose_multipath first (s.dim_width dim)
        vc := next_vc }
  if !ev.val_route_dest then
    match routeDORBase s t ev.val_loc with
    | none =>
      -- made it to the midpoint
      toDest { ev with val_route_dest := true } (vc + 1)
    | some (dim, first) =>
      { ev with
        next_port := choose_multipath first (s.dim_width dim)
        vc := vc }
  else
    toDest ev vc

/-- All ports of a dimension, and whether they are minimal. -/
def adaptivePorts (dim : Nat) (ev : Packet) : List (Nat × Bool) :=
  (portsFrom (port_start s dim) ((s.dim_size dim - 1) * s.dim_width dim)).map
    (fun p => (p, decide (portTo s t dim ev.dest_loc ≤ p ∧
      p < portTo s t dim ev.dest_loc + s.dim_width dim)))

def routeDOAL (info : VnInfo) (vc : Nat) (found : Found) (ev : Packet) : Packet :=
  if get_dest_router s ev.dest = t.router_id then
    { ev with next_port := get_dest_local_port s ev.dest }
  else
    match (range s.dimensions).find? (isUnaligned t ev.dest_loc) with
    | none => ev
    | some dim =>
      if vc = info.start_vc + 1 then
        -- already routed adaptively in this dimension, so go direct
        let min_port := selectLeast maxWeight
          (fun p => weightOf num_vcs found p vc)
          (portsFrom (portTo s t dim ev.dest_loc) (s.dim_width dim))
        { ev with
          next_port := (min_port.map Int.ofNat).getD found.uninitialized
          vc := vc - 1
          last_routing_dim := dim }
      else
        let min := selectLeast maxWeight
          (fun c : Nat × Bool =>
            if c.2 then
              weightOf num_vcs found c.1 vc
            else
              misrouteWeightOf num_vcs found c.1 (vc + 1))
          (adaptivePorts s t dim ev)
        match min with
        | none =>
          { ev with
            next_port := 0
            vc := vc }
        | some (p, minimal) =>
          { ev with
            next_port := p
            vc := if minimal then vc else vc + 1 }

/-- From a host port the first VC is still to come. -/
def vcInVn (info : VnInfo) (port vc : Nat) : Int :=
  if local_port_start s ≤ port then -1 else vc - info.start_vc

def nextVc (info : VnInfo) (port vc : Nat) : Nat :=
  (info.start_vc + vcInVn s info port vc + 1).toNat

def unalignedDimensions (ev : Packet) : List Nat :=
  (range s.dimensions).filter (isUnaligned t ev.dest_loc)

/-- The links of all minimal routes. -/
def minimalPorts (ev : Packet) : List Nat :=
  (unalignedDimensions s t ev).flatMap (fun dim =>
    portsFrom (portTo s t dim ev.dest_loc) (s.dim_width dim))

def routeMINA (info : VnInfo) (port vc : Nat) (found : Found) (ev : Packet) : Packet :=
  if get_dest_router s ev.dest = t.router_id then
    { ev with next_port := get_dest_local_port s ev.dest }
  else
    let min_port := selectLeast maxWeight
      (fun p => weightOf num_vcs found p (nextVc s info port vc))
      (minimalPorts s t ev)
    { ev with
      next_port := (min_port.map Int.ofNat).getD (-1)
      vc := nextVc s info port vc }

/-- The ports of a dimension that may be taken, and whether they are minimal. -/
def vdalPorts (dim : Nat) (ev : Packet) : Nat → Nat → Nat → List (Nat × Bool)
  | 0, _, _ => []
  | n + 1, router, offset =>
    if router = t.id_loc.getD dim 0 then
      vdalPorts dim ev n (router + 1) offset
    else
      let minimal := decide (router = ev.dest_loc.getD dim 0)
      (if !minimal ∧ (dim : Int) = ev.last_routing_dim then
        []
      else
        (portsFrom (port_start s dim + offset * s.dim_width dim)
          (s.dim_width dim)).map (fun p => (p, minimal))) ++
      vdalPorts dim ev n (router + 1) (offset + 1)

def dimOfPort (min_port : Nat) : Int :=
  match (range (s.dimensions - 1)).find?
      (fun i => min_port < port_start s (i + 1)) with
  | none => (s.dimensions : Int) - 1
  | some i => i

def routeVDAL (info : VnInfo) (port vc : Nat) (found : Found) (ev : Packet) : Packet :=
  if get_dest_router s ev.dest = t.router_id then
    { ev with next_port := get_dest_local_port s ev.dest }
  else
    let udims := unalignedDimensions s t ev
    if (udims.length : Int) = info.num_vcs - vcInVn s info port vc - 1 then
      -- no extra VCs for misroutes
      routeMINA s num_vcs t info port vc found ev
    else
      let next_vc := nextVc s info port vc
      let min_ports := selectAllLeast maxWeight
        (fun c : Nat × Bool =>
          if c.2 then
            weightOf num_vcs found c.1 next_vc
          else
            misrouteWeightOf num_vcs found c.1 next_vc)
        (udims.flatMap (fun dim => vdalPorts s t dim ev (s.dim_size dim) 0 0))
      match min_ports[found.random % min_ports.length]? with
      | none => { ev with next_port := found.uninitialized }
      | some (min_port, _) =>
        { ev with
          next_port := min_port
          vc := next_vc
          last_routing_dim := dimOfPort s min_port }

/-- The DOR route is always computed first. -/
def route_packet (port vc : Nat) (found : Found) (ev : Packet) : Packet :=
  let ev := routeDOR s t vc ev
  match t.vns[ev.vn]? with
  | none => ev
  | some info =>
    match info.algorithm with
    | .DOR => ev
    | .DORND => routeDORND s num_vcs t vc found ev
    | .MINA => routeMINA s num_vcs t info port vc found ev
    | .VALIANT => routeValiant s t vc ev
    | .DOAL => routeDOAL s num_vcs t info vc found ev
    | .VDAL => routeVDAL s num_vcs t info port vc found ev

end Routing

section Network

/-- A HyperX with the hosts that are built and the algorithms of the VNs. -/
structure Config where
  shape : Shape
  built : Nat → Bool
  algorithms : List RouteAlgo

variable (c : Config)

/-- The VCs of all VNs. -/
def Config.num_vcs : Nat := (c.algorithms.map (RouteAlgo.num_vcs c.shape.dimensions)).sum

/-- Every router is instanced with as many ports as the shape needs. -/
def Config.topo (id : Nat) : Option Topo :=
  if id < c.shape.num_routers then
    topo_hyperx c.shape c.algorithms (radix c.shape) id
  else
    none

def Config.network : Network LinkName Packet Found where
  route := fun found id port ev =>
    match c.topo id with
    | none => none
    | some t =>
      let ev := route_packet c.shape c.num_vcs t port ev.vc found ev
      if ev.next_port < 0 then
        none
      else
        some (ev, ev.next_port.toNat)
  wiring := build c.shape c.built

end Network

end SstElements.Merlin.HyperX
