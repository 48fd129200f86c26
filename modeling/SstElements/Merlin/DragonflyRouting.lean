import SstElements.Merlin.DragonflyWiring

/-!
# Routing in a dragonfly

A packet is in its source group, in the group of its midpoint or in its
destination group, and it has come by a host port, a port of the group or a
global port.  From each of these places every algorithm takes it one hop on.
-/

namespace SstElements.Merlin.Dragonfly

open Library.WiredNetwork Library.LeastWeight Library.AllToAll

section Ports

variable {c : Config} {g r d k num : Nat}

theorem port_for_router_eq (s : Shape) (t : Topo) (v num : Nat) :
    port_for_router s t v num = localPort s t.router_id v num := by
  unfold port_for_router localPort linkIndex slot
  split <;> rfl

/-- The next port of a packet that leaves the group by a slice to another one. -/
structure Leaves (c : Config) (g r d k num : Nat) (next_port : Option Nat) : Prop where
  group_lt : d < c.shape.num_groups
  differs : d ≠ g
  slice_lt : k < c.shape.intergroup_links
  num_lt : num < c.shape.intragroup_links
  live : c.isLive (groupLink g d k) = true
  port_eq : next_port =
    if gateway c.shape c.global_routes g d k = r then
      some (c.shape.global_start + gatewayPort c.shape c.global_routes g d k)
    else
      some (localPort c.shape r (gateway c.shape c.global_routes g d k) num)

section

variable (hmode : c.global_route_mode = c.global_routes)
variable (h16 : c.shape.Fits16)
variable (hg : g < c.shape.num_groups)
include hmode h16 hg

section

variable (hd : d < c.shape.num_groups) (hne : d ≠ g) (hk : k < c.shape.intergroup_links)
include hd hne hk

theorem port_for_group_eq :
    port_for_group c.shape (c.topoAt g r) d k num = if c.isLive (groupLink g d k) = true then
        if gateway c.shape c.global_routes g d k = r then
          some (c.shape.global_start + gatewayPort c.shape c.global_routes g d k)
        else
          some (localPort c.shape r (gateway c.shape c.global_routes g d k) num)
      else
        none := by
  have hgroup : (c.topoAt g r).group_to_global_port = c.routeToGroup := rfl
  have hid : (c.topoAt g r).group_id = g := rfl
  have hrouter : (c.topoAt g r).router_id = r := rfl
  simp only [port_for_group, port_for_router_eq, hgroup, hid, hrouter]
  rw [isFailedPort_eq h16 hg hd hne hk, getRouterPortPair_eq h16 hg hd hne hk, hmode]
  cases c.isLive (groupLink g d k) <;> rfl

theorem leaves_of_port_for_group {port : Nat} (hnum : num < c.shape.intragroup_links)
    (h : port_for_group c.shape (c.topoAt g r) d k num = some port) :
    Leaves c g r d k num (some port) := by
  rw [port_for_group_eq hmode h16 hg hd hne hk] at h
  split at h
  · rename_i hlive
    exact ⟨hd, hne, hk, hnum, hlive, h.symm⟩
  · cases h

theorem leaves_of_live (hnum : num < c.shape.intragroup_links)
    (hlive : c.isLive (groupLink g d k) = true) :
    Leaves c g r d k num (port_for_group c.shape (c.topoAt g r) d k num) := by
  refine ⟨hd, hne, hk, hnum, hlive, ?_⟩
  rw [port_for_group_eq hmode h16 hg hd hne hk, if_pos hlive]

end

end

/-- A packet goes from one router to a port of another one. -/
def Moves (c : Config) (g r : Nat) (next_port : Option Nat) (g' r' p' : Nat) : Prop :=
  g' < c.shape.num_groups ∧ r' < c.shape.routers_per_group ∧
  ∃ out, next_port = some out ∧
    across c.network.wiring (.router (rtrId c.shape g r) out) =
      some (.router (rtrId c.shape g' r') p')

/-- The ports that lead to the other routers of the group. -/
def IsLocal (c : Config) (p : Nat) : Prop := c.shape.hosts_per_router ≤ p ∧ p < c.shape.global_start
deriving Decidable

theorem moves_of_local {v : Nat} (hg : g < c.shape.num_groups) (hr : r < c.shape.routers_per_group)
    (hv : v < c.shape.routers_per_group) (hne : v ≠ r) (hnum : num < c.shape.intragroup_links) :
    ∃ p', IsLocal c p' ∧ Moves c g r (some (localPort c.shape r v num)) g v p' :=
  ⟨localPort c.shape v r num,
    ⟨Nat.le_add_right _ _, localPort_lt hv hr hne.symm hnum⟩, hg, hv, _, rfl,
    across_local hg hr hv hne hnum⟩

variable {next_port : Option Nat}

theorem Leaves.moves (h : Leaves c g r d k num next_port) (hg : g < c.shape.num_groups)
    (hr : r < c.shape.routers_per_group) :
    (∃ r' p', c.shape.global_start ≤ p' ∧ Moves c g r next_port d r' p') ∨ (∃ p', IsLocal c p' ∧
      Moves c g r next_port g (gateway c.shape c.global_routes g d k) p') := by
  obtain ⟨hd, hne, hk, hnum, hlive, hport⟩ := h
  split at hport
  · rename_i hgate
    have hacross := across_global hg hd hne hk hlive
    rw [hgate] at hacross
    exact .inl ⟨_, _, Nat.le_add_right _ _, hd, gateway_lt hd hg hne.symm hk, _, hport, hacross⟩
  · rename_i hgate
    rw [hport]
    exact .inr (moves_of_local hg hr (gateway_lt hg hd hne hk) hgate hnum)

theorem Leaves.moves_gateway (h : Leaves c g r d k num next_port) (hg : g < c.shape.num_groups)
    (hgate : r = gateway c.shape c.global_routes g d k) :
    ∃ r' p', c.shape.global_start ≤ p' ∧ Moves c g r next_port d r' p' := by
  obtain ⟨hd, hne, hk, -, hlive, hport⟩ := h
  rw [if_pos hgate.symm] at hport
  subst hgate
  exact ⟨_, _, Nat.le_add_right _ _, hd, gateway_lt hd hg hne.symm hk, _,
    hport, across_global hg hd hne hk hlive⟩

end Ports

section Stages

/-- The algorithms that only take the ways without a midpoint. -/
def RouteAlgo.IsMinimal (algo : RouteAlgo) : Prop := algo = .MINIMAL ∨ algo = .MIN_A

/-- The algorithms that route by the midpoint that is set in the packet. -/
def RouteAlgo.IsNonadaptive (algo : RouteAlgo) : Prop := algo ≠ .UGAL ∧ algo ≠ .MIN_A

/-- The most hops between routers. -/
def RouteAlgo.maxHops : RouteAlgo → Nat
  | .MINIMAL => 3
  | .VALIANT => 5
  | .ADAPTIVE_LOCAL => 5
  | .UGAL => 5
  | .MIN_A => 3

def VnInfo.Has (info : VnInfo) (vc : Nat) : Prop :=
  info.start_vc ≤ vc ∧ vc < info.start_vc + info.num_vcs

/-- The group of the source, and the group, router and host of the destination. -/
structure Ends where
  src_group : Nat
  group : Nat
  router : Nat
  host : Nat

variable (c : Config) (info : VnInfo) (vn : Nat) (e : Ends)

/-- What a packet carries from its source to its destination. -/
structure Carries (ev : Packet) : Prop where
  vn_eq : ev.vn = vn
  src_group : ev.src_group = e.src_group
  dest_group : ev.dest_group = e.group
  dest_router : ev.dest_router = e.router
  dest_host : ev.dest_host = e.host
  local_lt : ev.local_slice < c.shape.intragroup_links
  global_lt : ev.global_slice < c.shape.intergroup_links
  shadow_lt : ev.global_slice_shadow < c.shape.intergroup_links
  mid_inside : e.src_group = e.group → ev.mid_group < c.shape.routers_per_group
  mid_outside : e.src_group ≠ e.group →
    ev.mid_group < c.shape.num_groups ∧ ev.mid_group ≠ e.src_group ∧
    ev.mid_group_shadow < c.shape.num_groups ∧ ev.mid_group_shadow ≠ e.src_group
  mid_minimal : info.algorithm = .MINIMAL →
    ev.mid_group = if e.src_group = e.group then e.router else e.group

/-- The router is the gateway of the packet's slice to another group. -/
def IsGateway (g r d : Nat) (ev : Packet) : Prop :=
  r = gateway c.shape c.global_routes g d ev.global_slice ∧
    c.isLive (groupLink g d ev.global_slice) = true

/-- The groups that the algorithm takes a packet to from its source group. -/
def Targets (ev : Packet) (d : Nat) : Prop :=
  match info.algorithm with
  | .MIN_A => d = e.group
  | .UGAL => d = e.group ∨ d = ev.mid_group
  | _ => d = ev.mid_group

/-- Where a packet is on its way, with the VC and the hops that go with it. -/
inductive Stage (n g r p : Nat) (ev : Packet) : Prop where
  | host :
      p < c.shape.hosts_per_router → g = e.src_group → n = 0 →
      ev.vc = info.start_vc →
      (e.group = g → e.router = r ∨ ev.mid_group ≠ r) →
      Stage n g r p ev
  | leavingSource :
      IsLocal c p → g = e.src_group → e.group ≠ g → n = 1 →
      ev.vc = info.start_vc →
      (∃ d, Targets info e ev d ∧ IsGateway c g r d ev) →
      Stage n g r p ev
  | passing :
      c.shape.global_start ≤ p → e.group ≠ g → e.src_group ≠ e.group →
      ¬ info.algorithm.IsMinimal → n ≤ 2 → ev.vc = info.start_vc →
      ev.mid_group = g →
      Stage n g r p ev
  | leavingMidpoint :
      IsLocal c p → e.group ≠ g → e.src_group ≠ e.group →
      ¬ info.algorithm.IsMinimal → n ≤ 3 → ev.vc = info.start_vc + 1 →
      ev.mid_group = g ∨ (ev.mid_group = e.group ∧ info.algorithm ≠ .UGAL) →
      IsGateway c g r e.group ev →
      Stage n g r p ev
  | landing :
      c.shape.global_start ≤ p → g = e.group →
      (ev.vc = info.start_vc ∧ n ≤ 2) ∨
        (ev.vc = info.start_vc + 1 ∧ n ≤ 4 ∧ ¬ info.algorithm.IsMinimal) →
      Stage n g r p ev
  | turning :
      IsLocal c p → g = e.group → r ≠ e.router →
      ¬ info.algorithm.IsMinimal → n = 1 → ev.vc = info.start_vc →
      Stage n g r p ev
  | final :
      IsLocal c p → g = e.group → r = e.router → n ≤ info.algorithm.maxHops →
      info.Has ev.vc →
      Stage n g r p ev

/-- The routed packet goes on to a place that the stages allow. -/
def Continues (n g r : Nat) (ev : Packet) : Prop :=
  n < info.algorithm.maxHops ∧ info.Has ev.vc ∧ Carries c info vn e ev ∧
  ∃ g' r' p', Moves c g r ev.next_port g' r' p' ∧
    Stage c info e (n + 1) g' r' p' ev

end Stages

section Steps

variable {c : Config} {info : VnInfo} {vn : Nat} {e : Ends}
variable {n g r : Nat} {ev : Packet}

theorem maxHops_ge (algo : RouteAlgo) :
    3 ≤ algo.maxHops ∧ (¬ algo.IsMinimal → algo.maxHops = 5) := by
  cases algo <;> simp [RouteAlgo.maxHops, RouteAlgo.IsMinimal]

theorem num_vcs_ge (algo : RouteAlgo) :
    2 ≤ algo.num_vcs ∧ (¬ algo.IsMinimal → algo.num_vcs = 3) := by
  cases algo <;> simp [RouteAlgo.num_vcs, RouteAlgo.IsMinimal]

variable {num d k : Nat}

theorem continues_final (hg : g < c.shape.num_groups) (hr : r < c.shape.routers_per_group)
    (hdest : e.router < c.shape.routers_per_group) (hgroup : g = e.group) (hne : e.router ≠ r)
    (hnum : num < c.shape.intragroup_links) (hcarries : Carries c info vn e ev)
    (hport : ev.next_port = some (localPort c.shape r e.router num))
    (hn : n < info.algorithm.maxHops) (hvc : info.Has ev.vc) :
    Continues c info vn e n g r ev := by
  obtain ⟨p', hlocal, hmoves⟩ := moves_of_local hg hr hdest hne hnum
  refine ⟨hn, hvc, hcarries, g, e.router, p', hport ▸ hmoves, ?_⟩
  exact .final hlocal hgroup rfl hn hvc

theorem stage_of_global {r' p' : Nat} (hp : c.shape.global_start ≤ p') (hn : n ≤ 2)
    (hvc : ev.vc = info.start_vc) (hoff : e.src_group ≠ e.group)
    (hto : d = e.group ∨ (ev.mid_group = d ∧ ¬ info.algorithm.IsMinimal)) :
    Stage c info e n d r' p' ev := by
  by_cases hd : d = e.group
  · exact .landing hp hd (.inl ⟨hvc, hn⟩)
  · obtain ⟨hmid, hminimal⟩ := hto.resolve_left hd
    exact .passing hp (Ne.symm hd) hoff hminimal hn hvc hmid

theorem Targets.not_minimal (h : Targets info e ev d) (hcarries : Carries c info vn e ev)
    (hoff : e.src_group ≠ e.group) :
    d = e.group ∨ (ev.mid_group = d ∧ ¬ info.algorithm.IsMinimal) := by
  cases halgo : info.algorithm with
  | MINIMAL =>
    simp only [Targets, halgo] at h
    rw [h, hcarries.mid_minimal halgo, if_neg hoff]
    exact .inl rfl
  | MIN_A =>
    simp only [Targets, halgo] at h
    exact .inl h
  | UGAL =>
    simp only [Targets, halgo] at h
    rcases h with rfl | rfl
    · exact .inl rfl
    · exact .inr ⟨rfl, by simp [RouteAlgo.IsMinimal]⟩
  | VALIANT =>
    simp only [Targets, halgo] at h
    exact .inr ⟨h.symm, by simp [RouteAlgo.IsMinimal]⟩
  | ADAPTIVE_LOCAL =>
    simp only [Targets, halgo] at h
    exact .inr ⟨h.symm, by simp [RouteAlgo.IsMinimal]⟩

section

variable (hg : g < c.shape.num_groups)
include hg

theorem continues_from_host (hr : r < c.shape.routers_per_group) (hsrc : g = e.src_group)
    (hoff : e.src_group ≠ e.group) (hcarries : Carries c info vn e ev)
    (hvcs : info.num_vcs = info.algorithm.num_vcs) (hvc : ev.vc = info.start_vc)
    (htarget : Targets info e ev d) (hleaves : Leaves c g r d ev.global_slice num ev.next_port) :
    Continues c info vn e 0 g r ev := by
  have hmax := (maxHops_ge info.algorithm).1
  have hnum := (num_vcs_ge info.algorithm).1
  refine ⟨by omega, ⟨by omega, by omega⟩, hcarries, ?_⟩
  rcases hleaves.moves hg hr with ⟨r', p', hp, hmoves⟩ | ⟨p', hlocal, hmoves⟩
  · exact ⟨d, r', p', hmoves,
      stage_of_global hp (by omega) hvc hoff (htarget.not_minimal hcarries hoff)⟩
  · exact ⟨g, _, p', hmoves,
      .leavingSource hlocal hsrc (fun heq => hoff (hsrc.symm.trans heq.symm)) rfl hvc
        ⟨d, htarget, rfl, hleaves.live⟩⟩

theorem continues_from_gateway (hoff : e.src_group ≠ e.group) (hcarries : Carries c info vn e ev)
    (hvcs : info.num_vcs = info.algorithm.num_vcs) (hvc : ev.vc = info.start_vc)
    (htarget : Targets info e ev d) (hleaves : Leaves c g r d k num ev.next_port)
    (hgate : r = gateway c.shape c.global_routes g d k) :
    Continues c info vn e 1 g r ev := by
  have hmax := (maxHops_ge info.algorithm).1
  have hnum := (num_vcs_ge info.algorithm).1
  obtain ⟨r', p', hp, hmoves⟩ := hleaves.moves_gateway hg hgate
  exact ⟨by omega, ⟨by omega, by omega⟩, hcarries, d, r', p', hmoves,
    stage_of_global hp (by omega) hvc hoff (htarget.not_minimal hcarries hoff)⟩

theorem continues_from_midpoint (hr : r < c.shape.routers_per_group) (haway : e.group ≠ g)
    (hoff : e.src_group ≠ e.group) (hminimal : ¬ info.algorithm.IsMinimal) (hn : n ≤ 2)
    (hcarries : Carries c info vn e ev) (hvcs : info.num_vcs = info.algorithm.num_vcs)
    (hvc : ev.vc = info.start_vc + 1)
    (hmid : ev.mid_group = g ∨ (ev.mid_group = e.group ∧ info.algorithm ≠ .UGAL))
    (hleaves : Leaves c g r e.group ev.global_slice num ev.next_port) :
    Continues c info vn e n g r ev := by
  have hmax := (maxHops_ge info.algorithm).2 hminimal
  have hnum := (num_vcs_ge info.algorithm).2 hminimal
  refine ⟨by omega, ⟨by omega, by omega⟩, hcarries, ?_⟩
  rcases hleaves.moves hg hr with ⟨r', p', hp, hmoves⟩ | ⟨p', hlocal, hmoves⟩
  · exact ⟨_, r', p', hmoves, .landing hp rfl (.inr ⟨hvc, by omega, hminimal⟩)⟩
  · exact ⟨g, _, p', hmoves, .leavingMidpoint hlocal haway hoff hminimal (by omega)
      hvc hmid ⟨rfl, hleaves.live⟩⟩

theorem continues_from_midpoint_gateway (hminimal : ¬ info.algorithm.IsMinimal) (hn : n ≤ 3)
    (hcarries : Carries c info vn e ev) (hvcs : info.num_vcs = info.algorithm.num_vcs)
    (hvc : ev.vc = info.start_vc + 1) (hleaves : Leaves c g r e.group k num ev.next_port)
    (hgate : r = gateway c.shape c.global_routes g e.group k) :
    Continues c info vn e n g r ev := by
  have hmax := (maxHops_ge info.algorithm).2 hminimal
  have hnum := (num_vcs_ge info.algorithm).2 hminimal
  obtain ⟨r', p', hp, hmoves⟩ := hleaves.moves_gateway hg hgate
  exact ⟨by omega, ⟨by omega, by omega⟩, hcarries, _, r', p', hmoves,
    .landing hp rfl (.inr ⟨hvc, by omega, hminimal⟩)⟩

theorem continues_within {v : Nat} (hr : r < c.shape.routers_per_group) (hgroup : g = e.group)
    (hv : v < c.shape.routers_per_group) (hne : v ≠ r) (hnum : num < c.shape.intragroup_links)
    (hto : v = e.router ∨ ¬ info.algorithm.IsMinimal) (hcarries : Carries c info vn e ev)
    (hvcs : info.num_vcs = info.algorithm.num_vcs) (hvc : ev.vc = info.start_vc)
    (hport : ev.next_port = some (localPort c.shape r v num)) :
    Continues c info vn e 0 g r ev := by
  have hmax := (maxHops_ge info.algorithm).1
  have hmin := (num_vcs_ge info.algorithm).1
  have hhas : info.Has ev.vc := ⟨by omega, by omega⟩
  obtain ⟨p', hlocal, hmoves⟩ := moves_of_local hg hr hv hne hnum
  refine ⟨by omega, hhas, hcarries, g, v, p', hport ▸ hmoves, ?_⟩
  by_cases hfinal : v = e.router
  · exact .final hlocal hgroup hfinal (by omega) hhas
  · exact .turning hlocal hgroup hfinal (hto.resolve_left hfinal) rfl hvc

end

end Steps

end SstElements.Merlin.Dragonfly
