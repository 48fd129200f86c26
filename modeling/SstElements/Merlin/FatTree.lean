import SstElements.Library.WiredNetwork

/-!
# The fat tree topology

The shape of a fat tree gives the down and up links of a router of each level.
The Python module numbers the routers level by level and wires them group by
group, from the top level down to the edge routers with their hosts.  The C++
topology object of a router knows only the shape and its own id, from which it
works out which hosts lie below it.
-/

namespace SstElements.Merlin.FatTree

open Library.WiredNetwork

section Shape

/-- The links down and up of each level; the top level has no links up. -/
structure Shape where
  downs : List Nat
  ups : List Nat
  levels_eq : downs.length = ups.length + 1
  downs_pos : ∀ d ∈ downs, 0 < d
  ups_pos : ∀ u ∈ ups, 0 < u

namespace Shape

variable (s : Shape)

def levels : Nat := s.downs.length

def down (level : Nat) : Nat := s.downs.getD level 0

/-- A level whose part of the shape names no links up has none. -/
def up (level : Nat) : Nat := s.ups.getD level 0

def total_hosts : Nat := s.downs.prod

/-- Both sides count the routers of a level by this recursion. -/
def routers_per_level : Nat → Nat
  | 0 => s.total_hosts / s.down 0
  | i + 1 => routers_per_level i * s.up i / s.down (i + 1)

def start_ids : Nat → Nat
  | 0 => 0
  | i + 1 => start_ids i + s.routers_per_level i

def groups_per_level : Nat → Nat
  | 0 => if s.ups.isEmpty then 1 else s.total_hosts / s.down 0
  | i + 1 =>
    if i + 1 < s.levels - 1 then
      groups_per_level i / s.down (i + 1)
    else
      1

def rtrs_in_group (level : Nat) : Nat := s.routers_per_level level / s.groups_per_level level

end Shape

end Shape

section Build

/-- Links are named by the router port they go down from, or by their host. -/
inductive LinkName where
  | link (level group router port : Nat)
  | hostlink (node_id : Nat)
  deriving DecidableEq, Repr

/-- The routers that are instanced, with their numbers of ports, and the links. -/
structure Built where
  routers : List (Nat × Nat)
  links : List (Attachment LinkName)

/-- The builds of several parts, one after the other. -/
def Built.concat (parts : List Built) : Built where
  routers := parts.flatMap (·.routers)
  links := parts.flatMap (·.links)

/-- One router with its links on the ports from the first on. -/
def addRouter (rtr_id radix : Nat) (links : List LinkName) : Built where
  routers := [(rtr_id, radix)]
  links := links.zipIdx.map (fun l => ⟨.router rtr_id l.2, l.1⟩)

variable (s : Shape) (built : Nat → Bool)

/-- The down links of the routers of a group, router by router. -/
def rtr_links (level group : Nat) : List (List LinkName) :=
  (List.range (s.rtrs_in_group level)).map (fun i =>
    (List.range (s.down level)).map (fun j => .link level group i j))

def group_links (level group : Nat) : List (List LinkName) :=
  (List.range (s.down level)).map (fun i =>
    (rtr_links s level group).filterMap (fun links => links[i]?))

/-- The links from above are dealt out to the routers of the group in turn. -/
def addUpLinks (links : List LinkName) (rtr_links : List (List LinkName)) : List (List LinkName) :=
  links.zipIdx.foldl
    (fun rtrs l => rtrs.modify (l.2 % rtrs.length) (fun own => own ++ [l.1]))
    rtr_links

/-- The hosts of an edge router for which the job builds an endpoint. -/
def hostsOf (id : Nat) : List Nat :=
  ((List.range (s.down 0)).map (fun i => id * s.down 0 + i)).filter built

/-- An edge router: the links of its hosts take its first ports in order. -/
def buildEdge (id : Nat) (links : List LinkName) : Built where
  routers := [(id, s.up 0 + s.down 0)]
  links :=
    (hostsOf s built id).map (fun node_id => ⟨.endpoint node_id, .hostlink node_id⟩) ++
    (hostsOf s built id).zipIdx.map
      (fun l => ⟨.router id l.2, .hostlink l.1⟩) ++
    links.zipIdx.map (fun l => ⟨.router id (l.2 + s.down 0), l.1⟩)

def fattree_rb : Nat → Nat → List LinkName → Built
  | 0, group, links =>
    let id := s.start_ids 0 + group * s.rtrs_in_group 0
    buildEdge s built id links
  | level + 1, group, links =>
    let id := s.start_ids (level + 1) + group * s.rtrs_in_group (level + 1)
    let below := (group_links s (level + 1) group).zipIdx.map (fun l =>
      fattree_rb level (group * s.down (level + 1) + l.2) l.1)
    let rtrs := addUpLinks links (rtr_links s (level + 1) group)
    Built.concat (below ++ rtrs.zipIdx.map (fun l =>
      addRouter (id + l.2) (s.up (level + 1) + s.down (level + 1)) l.1))

/-- With a single level no router is built. -/
def build : Built :=
  match s.ups.length with
  | 0 => ⟨[], []⟩
  | level + 1 =>
    let below := (group_links s (level + 1) 0).zipIdx.map (fun l =>
      fattree_rb s built level l.2 l.1)
    Built.concat (below ++ (rtr_links s (level + 1) 0).zipIdx.map (fun l =>
      addRouter (s.start_ids (level + 1) + l.2) (s.down (level + 1)) l.1))

end Build

section Topology

/-- What the topology object of a router works out from its id. -/
structure Topo where
  rtr_level : Nat
  level_id : Nat
  level_group : Nat
  down_ports : Nat
  up_ports : Nat
  num_ports : Nat
  down_route_factor : Nat
  low_host : Nat
  high_host : Nat
  deriving DecidableEq, Repr

def findLevel (s : Shape) (id : Nat) : Nat → Nat → Nat → Nat → Option (Nat × Nat × Nat)
  | 0, _, _, _ => none
  | n + 1, i, count, routers_per_level_group =>
    let lid := id - count
    if id < count + s.routers_per_level i then
      some (i, lid, lid / routers_per_level_group)
    else
      findLevel s id n (i + 1) (count + s.routers_per_level i)
        (routers_per_level_group * s.up i)

def topo_fattree (s : Shape) (num_ports id : Nat) : Option Topo :=
  match findLevel s id s.levels 0 0 1 with
  | none => none
  | some (rtr_level, level_id, level_group) =>
    let rid := (s.downs.take (rtr_level + 1)).prod
    some
      { rtr_level := rtr_level
        level_id := level_id
        level_group := level_group
        down_ports := s.down rtr_level
        up_ports := s.up rtr_level
        num_ports := num_ports
        down_route_factor := rid / s.down rtr_level
        low_host := level_group * rid
        high_host := level_group * rid + rid - 1 }

/-- A packet in the network: where it goes and the channel it is on. -/
structure Packet where
  dest : Nat
  vn : Nat
  vc : Nat
  deriving DecidableEq, Repr

def Topo.isBelow (t : Topo) (dest : Nat) : Bool := decide (t.low_host ≤ dest ∧ dest ≤ t.high_host)

def route_deterministic (t : Topo) (ev : Packet) : Nat :=
  if t.isBelow ev.dest then
    (ev.dest - t.low_host) / t.down_route_factor
  else
    t.down_ports + (ev.dest / t.down_route_factor) % t.up_ports

/-- The credits of the output buffers and their thresholds, port by port. -/
structure Credits where
  outputCredits : Nat → Int
  thresholds : Nat → Int

/-- The first up port with the most credits, if it has more than the given one. -/
def leastLoaded (t : Topo) (num_vcs vc : Nat) (credits : Credits) (next_port : Nat) : Nat :=
  let start := t.down_ports * num_vcs + vc
  let stop := t.num_ports * num_vcs
  let count := (stop - start + num_vcs - 1) / num_vcs
  let best := (List.range' start count num_vcs).foldl
    (fun (best : Int × Nat) i =>
      if best.1 < credits.outputCredits i then
        (credits.outputCredits i, i / num_vcs)
      else
        best)
    (credits.outputCredits (next_port * num_vcs + vc), next_port)
  best.2

def route_packet (t : Topo) (num_vcs : Nat) (allow_adaptive : Nat → Bool)
    (credits : Credits) (ev : Packet) : Nat :=
  let next_port := route_deterministic t ev
  if t.isBelow ev.dest then
    next_port
  else if !allow_adaptive ev.vn then
    next_port
  else
    let index := next_port * num_vcs + ev.vc
    if credits.thresholds index ≤ credits.outputCredits index then
      next_port
    else
      leastLoaded t num_vcs ev.vc credits next_port

end Topology

section Network

/-- A fat tree with the hosts that are built and the routing of each VN. -/
structure Config where
  shape : Shape
  built : Nat → Bool
  num_vns : Nat
  allow_adaptive : Nat → Bool

variable (c : Config)

def Config.build : Built := FatTree.build c.shape c.built

/-- The topology object of a router that has been instanced. -/
def Config.topo (id : Nat) : Option Topo :=
  match c.build.routers.find? (fun r => r.1 = id) with
  | none => none
  | some r => topo_fattree c.shape r.2 id

/-- Each VN has one VC. -/
def Config.network : Network LinkName Packet Credits where
  route := fun credits id _ ev =>
    match c.topo id with
    | none => none
    | some t =>
      some (ev, route_packet t c.num_vns c.allow_adaptive credits ev)
  wiring := c.build.links

end Network

end SstElements.Merlin.FatTree
