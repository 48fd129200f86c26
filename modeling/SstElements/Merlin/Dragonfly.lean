import SstElements.Library.LeastWeight
import SstElements.Library.WiredNetwork

/-!
# The dragonfly topology

The routers of a group are linked all to all, and so are the groups.  Which
global port of a group leads to which other group is read from a map that the
Python module makes; the routers look the ports up in a table made from it.
-/

namespace SstElements.Merlin.Dragonfly

open Library.WiredNetwork Library.LeastWeight Function List

section Shape

/-- The numbers of hosts, routers, groups and links. -/
structure Shape where
  hosts_per_router : Nat
  routers_per_group : Nat
  num_groups : Nat
  intergroup_links : Nat
  intragroup_links : Nat
  routers_ge : 2 ≤ routers_per_group
  groups_ge : 3 ≤ num_groups
  intergroup_pos : 0 < intergroup_links
  intragroup_pos : 0 < intragroup_links

/-- How the entries of the link map are understood. -/
inductive GlobalRouteMode where
  | ABSOLUTE
  | RELATIVE
  deriving DecidableEq, Repr

namespace Shape

variable (s : Shape)

def total_intergroup_links : Nat := (s.num_groups - 1) * s.intergroup_links

def intergroup_per_router : Nat :=
  (s.total_intergroup_links + s.routers_per_group - 1) / s.routers_per_group

def empty_ports : Nat := s.intergroup_per_router * s.routers_per_group - s.total_intergroup_links

def num_ports : Nat :=
  (s.routers_per_group - 1) * s.intragroup_links + s.hosts_per_router +
    s.intergroup_per_router

/-- The first global port, after the ports of the hosts and of the group. -/
def global_start : Nat := s.hosts_per_router + (s.routers_per_group - 1) * s.intragroup_links

def num_nodes : Nat := s.num_groups * s.routers_per_group * s.hosts_per_router

end Shape

end Shape

section Build

inductive LinkName where
  | host (g r h : Nat)
  | «local» (g src dst num : Nat)
  | global (src dest link_num : Nat)
  deriving DecidableEq, Repr

/-- The links of the routers from one on, counted up; some skip their last port. -/
def linkMapFrom (igpr start_skip : Nat) : Nat → Nat → Nat → List (Option Nat)
  | 0, _, _ => []
  | n + 1, i, count =>
    let fin := if start_skip ≤ i then igpr - 1 else igpr
    (range fin).map (fun j => some (count + j)) ++
      replicate (igpr - fin) none ++
      linkMapFrom igpr start_skip n (i + 1) (count + fin)

variable (s : Shape)

def global_link_map : List (Option Nat) :=
  linkMapFrom s.intergroup_per_router (s.routers_per_group - s.empty_ports)
    s.routers_per_group 0 0

/-- The group that an entry of the link map stands for. -/
def linkTarget (global_routes : GlobalRouteMode) (groups g dest_grp : Nat) : Nat :=
  match global_routes with
  | .ABSOLUTE => if g ≤ dest_grp then dest_grp + 1 else dest_grp
  | .RELATIVE => (dest_grp + g + 1) % groups

def getGlobalLink (global_routes : GlobalRouteMode) (g r p : Nat) : Option LinkName :=
  ((global_link_map s)[r * s.intergroup_per_router + p]?.join).map
    (fun raw_dest =>
      let link_num := raw_dest / (s.num_groups - 1)
      let dest_grp := linkTarget global_routes s.num_groups g
        (raw_dest - link_num * (s.num_groups - 1))
      .global (min dest_grp g) (max dest_grp g) link_num)

def hostLinks (built : Nat → Bool) (g r : Nat) : List (Attachment LinkName) :=
  (range s.hosts_per_router).flatMap (fun p =>
    let rtr := g * s.routers_per_group + r
    let nic_num := rtr * s.hosts_per_router + p
    if built nic_num then
      [⟨.endpoint nic_num, .host g r p⟩, ⟨.router rtr p, .host g r p⟩]
    else
      [])

def localLinks (g r : Nat) : Nat → Nat → Nat → List (Attachment LinkName)
  | 0, _, _ => []
  | n + 1, p, port =>
    if p ≠ r then
      (range s.intragroup_links).map (fun num =>
        ⟨.router (g * s.routers_per_group + r) (port + num), .local g (min p r) (max p r) num⟩) ++
      localLinks g r n (p + 1) (port + s.intragroup_links)
    else
      localLinks g r n (p + 1) port

def globalLinks (global_routes : GlobalRouteMode) (g r port : Nat) : List (Attachment LinkName) :=
  (range s.intergroup_per_router).filterMap (fun p =>
    (getGlobalLink s global_routes g r p).map (fun link =>
      ⟨.router (g * s.routers_per_group + r) (port + p), link⟩))

def build (global_routes : GlobalRouteMode) (built : Nat → Bool) : List (Attachment LinkName) :=
  (range s.num_groups).flatMap (fun g =>
    (range s.routers_per_group).flatMap (fun r =>
      hostLinks s built g r ++
        localLinks s g r s.routers_per_group 0 s.hosts_per_router ++
        globalLinks s global_routes g r
          (s.hosts_per_router + (s.routers_per_group - 1) * s.intragroup_links)))

end Build

section RouteToGroup

/-- A router of a group and its port, kept in 16 bits each. -/
structure RouterPortPair where
  router : Nat
  port : Nat
  deriving DecidableEq, Repr

def RouterPortPair.of (router port : Nat) : RouterPortPair := ⟨router % 65536, port % 65536⟩

/-- A link between two groups that is marked as failed. -/
structure FailedLink where
  low_group : Nat
  high_group : Nat
  slice : Nat
  deriving DecidableEq, Repr

/-- The tables shared by all routers. -/
structure RouteToGroup where
  data : Nat → RouterPortPair
  link_counts : Nat → UInt8
  failed_links : Nat → Bool
  consider_failed_links : Bool
  mode : GlobalRouteMode

variable (s : Shape)

/-- The table entry of a value of the link map. -/
def dataIndex (value : Nat) : Nat :=
  value % (s.num_groups - 1) * s.intergroup_links + value / (s.num_groups - 1)

/-- The ports of the link map's entries, from the entry of a number on. -/
def writePairs (data : Nat → RouterPortPair) (i : Nat) : List (Option Nat) → Nat → RouterPortPair
  | [] => data
  | none :: rest => writePairs data (i + 1) rest
  | some value :: rest =>
    writePairs
      (update data (dataIndex s value)
        (.of (i / s.intergroup_per_router) (i % s.intergroup_per_router + s.global_start)))
      (i + 1) rest

/-- The number of a group among the others, as the link map counts them. -/
def groupCode (mode : GlobalRouteMode) (groups src_group dest_group : Nat) : Nat :=
  match mode with
  | .ABSOLUTE => if src_group ≤ dest_group then dest_group - 1 else dest_group
  | .RELATIVE =>
    if src_group < dest_group then
      dest_group - src_group - 1
    else
      groups - src_group + dest_group - 1

def getRouterPortPairForGroup (rg : RouteToGroup) (src_group dest_group slice : Nat) :
    RouterPortPair :=
  rg.data (groupCode rg.mode s.num_groups src_group dest_group * s.intergroup_links + slice)

def bitIndex (src_group : Nat) (rp : RouterPortPair) : Nat :=
  src_group * s.routers_per_group * s.intergroup_per_router +
    (rp.router * s.intergroup_per_router + rp.port - s.global_start)

def markFailed (rg : RouteToGroup) (links : List FailedLink) : Nat → Bool :=
  links.foldl (fun failed x =>
    let rp := getRouterPortPairForGroup s rg x.low_group x.high_group x.slice
    let rp2 := getRouterPortPairForGroup s rg x.high_group x.low_group x.slice
    update
      (update failed (bitIndex s x.low_group rp) true)
      (bitIndex s x.high_group rp2) true) (fun _ => false)

def countLinks (links : List FailedLink) : Nat → UInt8 :=
  links.foldl (fun counts x =>
    let counts := update counts (x.low_group * s.num_groups + x.high_group)
      (counts (x.low_group * s.num_groups + x.high_group) - 1)
    update counts (x.high_group * s.num_groups + x.low_group)
      (counts (x.high_group * s.num_groups + x.low_group) - 1))
    (fun _ => s.intergroup_links.toUInt8)

def init_write (mode : GlobalRouteMode) (map : List (Option Nat))
    (config_failed_links : Bool) (links : List FailedLink) : RouteToGroup :=
  let rg : RouteToGroup :=
    { data := writePairs s (fun _ => .of 0 0) 0 map
      link_counts := fun _ => s.intergroup_links.toUInt8
      failed_links := fun _ => false
      consider_failed_links := config_failed_links
      mode := mode }
  if config_failed_links then
    { rg with
      link_counts := countLinks s links
      failed_links := markFailed s rg links }
  else
    rg

def isFailedPortForGroup (rg : RouteToGroup) (src_group : Nat) (rp : RouterPortPair) : Bool :=
  rg.consider_failed_links && rg.failed_links (bitIndex s src_group rp)

end RouteToGroup

section Topology

inductive RouteAlgo where
  | MINIMAL
  | VALIANT
  | ADAPTIVE_LOCAL
  | UGAL
  | MIN_A
  deriving DecidableEq, Repr

def RouteAlgo.num_vcs : RouteAlgo → Nat
  | .MINIMAL => 2
  | .VALIANT => 3
  | .ADAPTIVE_LOCAL => 3
  | .UGAL => 3
  | .MIN_A => 2

structure VnInfo where
  start_vc : Nat
  num_vcs : Nat
  bias : Int32
  algorithm : RouteAlgo
  deriving DecidableEq, Repr

/-- With three groups or more every VN is routed as it is asked for. -/
def setupVns : Nat → List RouteAlgo → List VnInfo
  | _, [] => []
  | curr_vc, algo :: rest =>
    ⟨curr_vc, algo.num_vcs, 50, algo⟩ :: setupVns (curr_vc + algo.num_vcs) rest

/--
A router's part of the topology.  The threshold is the function that multiplies
credits by the adaptive threshold and cuts the product to an integer.
-/
structure Topo where
  group_id : Nat
  router_id : Nat
  vns : List VnInfo
  adaptive_threshold : Int32 → Int
  group_to_global_port : RouteToGroup

/-- A packet in the network; the slices are kept in 16 bits. -/
structure Packet where
  dest : Nat
  vn : Nat
  vc : Nat
  next_port : Option Nat
  src_group : Nat
  dest_group : Nat
  dest_router : Nat
  dest_host : Nat
  mid_group : Nat
  mid_group_shadow : Nat
  global_slice : Nat
  global_slice_shadow : Nat
  local_slice : Nat
  deriving DecidableEq, Repr

/--
What a router finds when it routes a packet: queue lengths and credits by port
and VC, what is read in front of the credits, and the next random number.
-/
structure Found where
  output_queue_lengths : Nat → Int32
  output_credits : Nat → Int32
  before_credits : Int32
  random : Nat

variable (s : Shape) (t : Topo)

def idToLocation (id : Nat) : Nat × Nat × Nat :=
  let hosts_per_group := s.hosts_per_router * s.routers_per_group
  (id / hosts_per_group, id % hosts_per_group / s.hosts_per_router, id % s.hosts_per_router)

end Topology

section Routing

variable (s : Shape) (num_vcs : Nat) (t : Topo)

/-- The weight at which the searches start, the largest number of the type. -/
def maxWeight : Int := 0x7fffffff

def port_for_router (router local_slice : Nat) : Nat :=
  let index := if t.router_id < router then router - 1 else router
  s.hosts_per_router + (index * s.intragroup_links + local_slice)

def port_for_group (group global_slice local_slice : Nat) : Option Nat :=
  let rg := t.group_to_global_port
  let pair := getRouterPortPairForGroup s rg t.group_id group global_slice
  if isFailedPortForGroup s rg t.group_id pair then
    none
  else if pair.router = t.router_id then
    some pair.port
  else
    some (port_for_router s t pair.router local_slice)

/-- Local ports are counted here as if there were one link to each router. -/
def is_port_global (port : Nat) : Bool :=
  decide (s.hosts_per_router + s.routers_per_group - 1 ≤ port)

def hops_to_router (group router slice : Nat) : Nat :=
  let rg := t.group_to_global_port
  let pair := getRouterPortPairForGroup s rg t.group_id group slice
  let pair2 := getRouterPortPairForGroup s rg group t.group_id slice
  1 + (if pair.router ≠ t.router_id then 1 else 0) +
    (if pair2.router ≠ router then 1 else 0)

def route_nonadaptive (port vc : Nat) (ev : Packet) : Packet :=
  if port < s.hosts_per_router then
    if ev.dest_group = ev.src_group then
      if ev.dest_router = t.router_id then
        { ev with next_port := some ev.dest_host }
      else
        { ev with
          next_port := some (port_for_router s t ev.mid_group ev.local_slice) }
    else
      { ev with
        next_port := port_for_group s t ev.mid_group ev.global_slice ev.local_slice }
  else if port < s.global_start then
    if ev.dest_group = t.group_id then
      if ev.dest_router = t.router_id then
        { ev with next_port := some ev.dest_host }
      else
        -- a packet routed by a midpoint within the group
        { ev with
          vc := vc + 1
          next_port := some (port_for_router s t ev.dest_router ev.local_slice) }
    else if ev.mid_group ≠ t.group_id then
      { ev with
        next_port := port_for_group s t ev.mid_group ev.global_slice ev.local_slice }
    else
      { ev with
        next_port := port_for_group s t ev.dest_group ev.global_slice ev.local_slice }
  else
    if ev.dest_group = t.group_id then
      if ev.dest_router = t.router_id then
        { ev with
          vc := vc + 1
          next_port := some ev.dest_host }
      else
        { ev with
          vc := vc + 1
          next_port := some (port_for_router s t ev.dest_router ev.local_slice) }
    else
      { ev with
        vc := vc + 1
        next_port := port_for_group s t ev.dest_group ev.global_slice ev.local_slice }

def weightOf (found : Found) (port vc : Nat) : Int :=
  (found.output_queue_lengths (port * num_vcs + vc)).toInt

/-- Routes by a midpoint weigh twice as much, and the bias of the VN more. -/
def valiantWeightOf (bias : Int32) (found : Found) (port vc : Nat) : Int :=
  (2 * found.output_queue_lengths (port * num_vcs + vc) + bias).toInt

def chooseLeast {α : Type} (found : Found) (weight : α → Int) (port slice : α → Nat)
    (candidates : List α) (ev : Packet) : Packet :=
  let min_ports := selectAllLeast maxWeight weight candidates
  match min_ports[found.random % min_ports.length]? with
  | none => { ev with next_port := none }
  | some route =>
    { ev with
      next_port := some (port route)
      global_slice := slice route % 65536 }

/-- A global link of a slice that may be taken, by the midpoint or directly. -/
structure Candidate where
  port : Nat
  slice : Nat
  valiant : Bool
  deriving DecidableEq, Repr

/-- The ports to a group over a slice, if there is one. -/
def candidatesFor (group i j : Nat) (valiant : Bool) : List Candidate :=
  ((port_for_group s t group i j).map (fun port => ⟨port, i, valiant⟩)).toList

/-- The direct ports of all slices. -/
def directCandidates (ev : Packet) : List Candidate :=
  (range s.intergroup_links).flatMap (fun i =>
    (range s.intragroup_links).flatMap (fun j => candidatesFor s t ev.dest_group i j false))

/-- The direct ports of all slices and those by the midpoint. -/
def ugalCandidates (ev : Packet) : List Candidate :=
  (range s.intergroup_links).flatMap (fun i =>
    (range s.intragroup_links).flatMap (fun j =>
      candidatesFor s t ev.dest_group i j false ++ candidatesFor s t ev.mid_group i j true))

def route_ugal (info : VnInfo) (port vc : Nat) (found : Found) (ev : Packet) : Packet :=
  if port < s.hosts_per_router then
    if ev.dest_group = t.group_id then
      if ev.dest_router = t.router_id then
        { ev with next_port := some ev.dest_host }
      else
        let direct := port_for_router s t ev.dest_router ev.local_slice
        let valiant := port_for_router s t ev.mid_group ev.local_slice
        if weightOf num_vcs found direct vc ≤
            valiantWeightOf num_vcs info.bias found valiant vc then
          { ev with next_port := some direct }
        else
          { ev with next_port := some valiant }
    else
      chooseLeast found
        (fun c => if c.valiant then
          valiantWeightOf num_vcs info.bias found c.port vc
        else
          weightOf num_vcs found c.port vc)
        Candidate.port Candidate.slice (ugalCandidates s t ev) ev
  else if port < s.global_start then
    if ev.dest_group = t.group_id then
      if ev.dest_router = t.router_id then
        { ev with next_port := some ev.dest_host }
      else
        -- a VC that packets between groups do not use here
        { ev with
          vc := vc + 2
          next_port := some (port_for_router s t ev.dest_router ev.local_slice) }
    else if ev.mid_group = t.group_id then
      { ev with
        next_port := port_for_group s t ev.dest_group ev.global_slice ev.local_slice }
    else
      let direct := (port_for_group s t ev.dest_group ev.global_slice
        ev.local_slice).filter (is_port_global s)
      let valiant := (port_for_group s t ev.mid_group ev.global_slice
        ev.local_slice).filter (is_port_global s)
      match direct, valiant with
      | none, none => { ev with next_port := some 0x7fffffff }
      | some direct_port, none => { ev with next_port := some direct_port }
      | none, some valiant_port => { ev with next_port := some valiant_port }
      | some direct_port, some valiant_port =>
        if valiantWeightOf num_vcs info.bias found valiant_port vc <
            weightOf num_vcs found direct_port vc then
          { ev with next_port := some valiant_port }
        else
          { ev with next_port := some direct_port }
  else
    let ev := { ev with vc := vc + 1 }
    if ev.dest_group = t.group_id then
      if ev.dest_router = t.router_id then
        { ev with next_port := some ev.dest_host }
      else
        { ev with
          next_port := some (port_for_router s t ev.dest_router ev.local_slice) }
    else
      chooseLeast found
        (fun c => if is_port_global s c.port then
          weightOf num_vcs found c.port (vc + 1)
        else
          (found.output_queue_lengths (c.port * num_vcs + (vc + 1)) * 2).toInt)
        Candidate.port Candidate.slice (directCandidates s t ev) ev

/-- `none` is an internal error. -/
def route_mina (port vc : Nat) (found : Found) (ev : Packet) : Option Packet :=
  if port < s.hosts_per_router then
    if ev.dest_group = t.group_id then
      if ev.dest_router = t.router_id then
        some { ev with next_port := some ev.dest_host }
      else
        some { ev with
          next_port := some (port_for_router s t ev.dest_router ev.local_slice) }
    else
      some (chooseLeast found
        (fun c =>
          let hops := (hops_to_router s t ev.dest_group ev.dest_router c.slice).toInt32
          (hops * found.output_queue_lengths (c.port * num_vcs + vc) + hops).toInt)
        Candidate.port Candidate.slice (directCandidates s t ev) ev)
  else if port < s.global_start then
    if ev.dest_group = t.group_id then
      if ev.dest_router = t.router_id then
        some { ev with next_port := some ev.dest_host }
      else
        none
    else
      some { ev with
        next_port := port_for_group s t ev.dest_group ev.global_slice ev.local_slice }
  else
    let ev := { ev with vc := vc + 1 }
    if ev.dest_group = t.group_id then
      if ev.dest_router = t.router_id then
        some { ev with next_port := some ev.dest_host }
      else
        some { ev with
          next_port := some (port_for_router s t ev.dest_router ev.local_slice) }
    else
      none

/-- The credits of a port, which may be read in front of the array. -/
def creditsOf (found : Found) (port : Option Nat) (vc : Nat) : Int32 :=
  match port with
  | none => found.before_credits
  | some port => found.output_credits (port * num_vcs + vc)

structure SliceRoute where
  slice : Nat
  port : Option Nat
  credits : Int32

/-- The one of two neighbouring slices with the more credits. -/
def bestSlice (found : Found) (vc group slice local_slice : Nat) : SliceRoute :=
  let slice2 := (slice + 1) % s.intergroup_links
  let port1 := port_for_group s t group slice local_slice
  let port2 := port_for_group s t group slice2 local_slice
  let credits1 := creditsOf num_vcs found port1 vc
  let credits2 := creditsOf num_vcs found port2 vc
  if credits2 < credits1 then
    ⟨slice, port1, credits1⟩
  else
    ⟨slice2, port2, credits2⟩

def directRoute (vc : Nat) (found : Found) (ev : Packet) : SliceRoute :=
  bestSlice s num_vcs t found vc ev.dest_group ev.global_slice_shadow ev.local_slice

def route_adaptive_local (info : VnInfo) (port vc : Nat) (found : Found) (ev : Packet) : Packet :=
  if info.algorithm ≠ .ADAPTIVE_LOCAL then
    ev
  else if s.hosts_per_router ≤ port ∧
      port < s.hosts_per_router + s.routers_per_group - 1 then
    ev
  else if port < s.hosts_per_router ∧ ev.dest_group = t.group_id then
    if ev.dest_router = t.router_id then
      ev
    else
      let direct := port_for_router s t ev.dest_router ev.local_slice
      let valiant := port_for_router s t ev.mid_group ev.local_slice
      if t.adaptive_threshold (creditsOf num_vcs found (some direct) vc) <
          (creditsOf num_vcs found (some valiant) vc).toInt then
        { ev with next_port := some valiant }
      else
        { ev with next_port := some direct }
  else if ev.dest_group = t.group_id then
    ev
  else
    let direct := directRoute s num_vcs t vc found ev
    let valiant : SliceRoute :=
      if s.hosts_per_router + s.routers_per_group - 1 ≤ port then
        -- no routes by a midpoint any more
        ⟨0, some 0, -1⟩
      else
        bestSlice s num_vcs t found vc ev.mid_group_shadow ev.global_slice
          ev.local_slice
    if t.adaptive_threshold direct.credits < valiant.credits.toInt then
      { ev with
        mid_group := ev.mid_group_shadow
        next_port := valiant.port
        global_slice := valiant.slice % 65536 }
    else
      { ev with
        mid_group := ev.dest_group
        next_port := direct.port
        global_slice := direct.slice % 65536 }

def route_packet (port vc : Nat) (found : Found) (ev : Packet) : Option Packet :=
  match t.vns[ev.vn]? with
  | none => none
  | some info =>
    match info.algorithm with
    | .UGAL => some (route_ugal s num_vcs t info port vc found ev)
    | .MIN_A => route_mina s num_vcs t port vc found ev
    | _ =>
      some (route_adaptive_local s num_vcs t info port vc found
        (route_nonadaptive s t port vc ev))

end Routing

section Network

/--
A dragonfly with the hosts that are built and the algorithms of the VNs.  The
Python module wires the global links in one mode, the routers are told another
parameter; failed links are links between two groups.
-/
structure Config where
  shape : Shape
  built : Nat → Bool
  algorithms : List RouteAlgo
  global_routes : GlobalRouteMode
  global_route_mode : GlobalRouteMode
  adaptive_threshold : Int32 → Int
  config_failed_links : Bool
  failed_links : List FailedLink
  failed_legal : ∀ x ∈ failed_links, x.low_group < x.high_group ∧
    x.high_group < shape.num_groups ∧ x.slice < shape.intergroup_links

variable (c : Config)

/-- The VCs of all VNs. -/
def Config.num_vcs : Nat := (c.algorithms.map RouteAlgo.num_vcs).sum

def Config.routeToGroup : RouteToGroup :=
  init_write c.shape c.global_route_mode (global_link_map c.shape)
    c.config_failed_links c.failed_links

def Config.topoAt (group router : Nat) : Topo where
  group_id := group
  router_id := router
  vns := setupVns 0 c.algorithms
  adaptive_threshold := c.adaptive_threshold
  group_to_global_port := c.routeToGroup

/-- The topology object of a router. -/
def Config.topo (rtr_id : Nat) : Option Topo :=
  if rtr_id < c.shape.num_groups * c.shape.routers_per_group then
    some (c.topoAt (rtr_id / c.shape.routers_per_group) (rtr_id % c.shape.routers_per_group))
  else
    none

/-- No packet crosses a link that has failed. -/
def Config.isLive (name : LinkName) : Bool :=
  match name with
  | .global src dest link_num =>
    !(c.config_failed_links && c.failed_links.contains ⟨src, dest, link_num⟩)
  | _ => true

def Config.network : Network LinkName Packet Found where
  route := fun found id port ev =>
    match c.topo id with
    | none => none
    | some t =>
      match route_packet c.shape c.num_vcs t port ev.vc found ev with
      | none => none
      | some ev => ev.next_port.map (fun out => (ev, out))
  wiring := (build c.shape c.global_routes c.built).filter
    (fun a => c.isLive a.link)

end Network

end SstElements.Merlin.Dragonfly
