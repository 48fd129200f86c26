import SstElements.Library.Ring
import SstElements.Merlin.Locations

/-!
# The mesh and torus topologies

Routers in a grid with any number of dimensions, each with some links to the
next and the previous router of every dimension.  A torus also closes each
dimension to a ring.  Packets are routed one dimension after the other, on the
lower of the two VCs of their VN until they pass coordinate zero.
-/

namespace SstElements.Merlin.MeshTorus

open Library.WiredNetwork
open Library

section Ports

variable (s : Shape)

def first_port : Nat → Nat
  | 0 => 0
  | dim + 1 => first_port dim + s.dim_width dim + s.dim_width dim

def port_start (dim : Nat) (go_pos : Bool) : Nat :=
  if go_pos then first_port s dim else first_port s dim + s.dim_width dim

def needed_ports : Nat := (s.widths.map (fun w => 2 * w)).sum

def local_port_start : Nat := needed_ports s

def radix : Nat := s.local_ports + (s.widths.map (fun w => w * 2)).sum

end Ports

section Build

/-- Links are named by the locations of their ends, or by their host. -/
inductive LinkName where
  | link (leftName rightName : List Nat) (num : Nat)
  | nic (rtr n : Nat)
  deriving DecidableEq, Repr

inductive Kind where
  | mesh
  | torus
  deriving DecidableEq, Repr

def Kind.includeWrapLinks : Kind → Bool
  | .mesh => false
  | .torus => true

variable (s : Shape) (includeWrapLinks : Bool)

def dimLinks (i : Nat) (mydims : List Nat) : Nat → Nat → Nat → List (Attachment LinkName)
  | 0, _, _ => []
  | n + 1, dim, port =>
    let my := mydims.getD dim 0
    let theirdims := mydims.set dim (Ring.next (s.dim_size dim) my)
    let positive :=
      if my + 1 < s.dim_size dim ∨ includeWrapLinks then
        (List.range (s.dim_width dim)).map (fun num =>
          ⟨.router i (port + num), .link mydims theirdims num⟩)
      else
        []
    let theirdims := theirdims.set dim (Ring.prev (s.dim_size dim) my)
    let negative :=
      if 0 < my ∨ includeWrapLinks then
        (List.range (s.dim_width dim)).map (fun num =>
          ⟨.router i (port + s.dim_width dim + num), .link theirdims mydims num⟩)
      else
        []
    positive ++ negative ++
      dimLinks i mydims n (dim + 1) (port + s.dim_width dim + s.dim_width dim)

def build (built : Nat → Bool) : List (Attachment LinkName) :=
  (List.range s.num_routers).flatMap (fun i =>
    dimLinks s includeWrapLinks i (idToLocation s.sizes i) s.dimensions 0 0 ++
      hostLinks .nic s built i (first_port s s.dimensions))

end Build

section Topology

/-- What the topology object of a router knows of its place. -/
structure Topo where
  router_id : Nat
  id_loc : List Nat
  deriving DecidableEq, Repr

/-- The constructor refuses a router with too few ports. -/
def topo (s : Shape) (num_ports rtr_id : Nat) : Option Topo :=
  if num_ports < needed_ports s + s.local_ports then
    none
  else
    some { router_id := rtr_id, id_loc := idToLocation s.sizes rtr_id }

/-- A packet in the network; it has no output port before it is first routed. -/
structure Packet where
  dest : Nat
  vn : Nat
  vc : Nat
  routing_dim : Nat
  dest_loc : List Nat
  next_port : Option Nat
  deriving DecidableEq, Repr

def get_dest_local_port (s : Shape) (dest_id : Nat) : Nat :=
  local_port_start s + dest_id % s.local_ports

def choose_multipath (start_port num_ports dest_dist : Nat) : Nat :=
  if num_ports = 1 then
    start_port
  else
    start_port + dest_dist % num_ports

/-- The direction in a ring, upward for both ways of one length, and its length. -/
def torusDirection (dim_size id_loc dest_loc : Nat) : Bool × Nat :=
  let dist_neg := Ring.distUp dim_size dest_loc id_loc
  let dist_pos := Ring.distUp dim_size id_loc dest_loc
  if dist_pos ≤ dist_neg then (true, dist_pos) else (false, dist_neg)

/-- The direction on a line, and the distance. -/
def meshDirection (_dim_size id_loc dest_loc : Nat) : Bool × Nat :=
  if id_loc < dest_loc then
    (true, dest_loc - id_loc)
  else
    (false, id_loc - dest_loc)

def Kind.direction : Kind → Nat → Nat → Nat → Bool × Nat
  | .mesh => meshDirection
  | .torus => torusDirection

/--
The loop over the dimensions from the packet's current one on.  The VC is
always computed from the one the packet came in on.
-/
def routeDims (s : Shape) (direction : Nat → Nat → Nat → Bool × Nat)
    (t : Topo) (port vc : Nat) : Nat → Nat → Packet → Packet
  | 0, _, ev => ev
  | n + 1, dim, ev =>
    let my := t.id_loc.getD dim 0
    let their := ev.dest_loc.getD dim 0
    if their ≠ my then
      let go := direction (s.dim_size dim) my their
      let p := choose_multipath (port_start s dim go.1) (s.dim_width dim) go.2
      if my = 0 ∧ port < local_port_start s then
        -- crossing the dateline
        { ev with
          next_port := some p
          vc := vc ^^^ 1 }
      else
        { ev with next_port := some p }
    else
      -- time to change direction: the lowest bit of the VC is cleared
      routeDims s direction t port vc n (dim + 1)
        { ev with
          routing_dim := ev.routing_dim + 1
          vc := vc / 2 * 2 }

def route_packet (s : Shape) (direction : Nat → Nat → Nat → Bool × Nat)
    (t : Topo) (port vc : Nat) (ev : Packet) : Packet :=
  if get_dest_router s ev.dest = t.router_id then
    { ev with next_port := some (get_dest_local_port s ev.dest) }
  else
    routeDims s direction t port vc (s.dimensions - ev.routing_dim)
      ev.routing_dim ev

def torus_route_packet (s : Shape) (t : Topo) (port vc : Nat) (ev : Packet) : Packet :=
  route_packet s torusDirection t port vc ev

def mesh_route_packet (s : Shape) (t : Topo) (port vc : Nat) (ev : Packet) : Packet :=
  route_packet s meshDirection t port vc ev

end Topology

section Network

/-- A mesh or a torus with the hosts that are built. -/
structure Config where
  kind : Kind
  shape : Shape
  built : Nat → Bool

variable (c : Config)

/-- Every router is instanced with as many ports as the shape needs. -/
def Config.topo (id : Nat) : Option Topo :=
  if id < c.shape.num_routers then
    MeshTorus.topo c.shape (radix c.shape) id
  else
    none

def Config.route_packet (t : Topo) (port vc : Nat) (ev : Packet) : Packet :=
  match c.kind with
  | .mesh => mesh_route_packet c.shape t port vc ev
  | .torus => torus_route_packet c.shape t port vc ev

/-- Nothing is left to chance: the routers only look at the packet. -/
def Config.network : Network LinkName Packet Unit where
  route := fun _ id port ev =>
    match c.topo id with
    | none => none
    | some t =>
      let ev := c.route_packet t port ev.vc ev
      ev.next_port.map (fun p => (ev, p))
  wiring := build c.shape c.kind.includeWrapLinks c.built

end Network

end SstElements.Merlin.MeshTorus
