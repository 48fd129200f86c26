import SstElements.Merlin.DragonflySteps

/-!
# Delivery in a dragonfly

A packet that a host has sent walks from stage to stage to the router of its
destination, which sends it to the host.
-/

namespace SstElements.Merlin.Dragonfly

open Library.WiredNetwork List Option Nat

section Runs

variable {c : Config} {info : VnInfo} {vn : Nat} {e : Ends}
variable {n g r p : Nat} {ev ev' : Packet} {found : Found}

section

variable (hg : g < c.shape.num_groups) (hr : r < c.shape.routers_per_group)
include hg hr

theorem topo_rtrId : c.topo (rtrId c.shape g r) = some (c.topoAt g r) := by
  obtain ⟨hdiv, hmod⟩ := @rtrId_parts c.shape g r hr
  rw [Config.topo, if_pos (rtrId_lt hg hr), hdiv, hmod]

theorem network_route_eq {out : Nat}
    (hroute : route_packet c.shape c.num_vcs (c.topoAt g r) p ev.vc found ev = some ev')
    (hport : ev'.next_port = some out) :
    c.network.route found (rtrId c.shape g r) p ev = some (ev', out) := by
  simp only [Config.network, topo_rtrId hg hr, hroute, hport, map_some]

end

theorem exists_continues (hs : Setting c info vn e) (hg : g < c.shape.num_groups)
    (hr : r < c.shape.routers_per_group) (hcarries : Carries c info vn e ev)
    (hstage : Stage c info e n g r p ev) (hgoes : ¬ (g = e.group ∧ r = e.router))
    (hjudged : JudgedAt c info g r p found ev) :
    ∃ ev', route_packet c.shape c.num_vcs (c.topoAt g r) p ev.vc found ev = some ev' ∧
      Continues c info vn e n g r ev' := by
  have hinfo : (c.topoAt g r).vns[ev.vn]? = some info := hcarries.vn_eq ▸ hs.vn_info
  have hplain : info.algorithm.IsNonadaptive → info.algorithm ≠ .ADAPTIVE_LOCAL →
      Continues c info vn e n g r
        (route_adaptive_local c.shape c.num_vcs (c.topoAt g r) info p ev.vc found
          (route_nonadaptive c.shape (c.topoAt g r) p ev.vc ev)) := by
    intro hnonadaptive hne
    rw [route_adaptive_local, if_pos hne]
    exact continues_nonadaptive hs hnonadaptive hg hr hcarries hstage hgoes
  simp only [route_packet, hinfo]
  cases halgo : info.algorithm with
  | UGAL =>
    exact ⟨_, rfl, continues_ugal hs halgo hg hr hcarries hstage hgoes hjudged⟩
  | MIN_A => exact continues_mina hs halgo hg hr hcarries hstage hgoes
  | ADAPTIVE_LOCAL =>
    exact ⟨_, rfl, continues_adaptive hs halgo hg hr hcarries hstage hgoes hjudged⟩
  | MINIMAL =>
    exact ⟨_, rfl, hplain (by simp [RouteAlgo.IsNonadaptive, halgo]) (by simp [halgo])⟩
  | VALIANT =>
    exact ⟨_, rfl, hplain (by simp [RouteAlgo.IsNonadaptive, halgo]) (by simp [halgo])⟩

/-- A packet that has made a number of hops. -/
def OnWay (c : Config) (info : VnInfo) (vn : Nat) (e : Ends) (n id p : Nat) (ev : Packet) : Prop :=
  ∃ g r, id = rtrId c.shape g r ∧ g < c.shape.num_groups ∧
    r < c.shape.routers_per_group ∧ Carries c info vn e ev ∧
    Stage c info e n g r p ev

theorem OnWay.step {id : Nat} (h : OnWay c info vn e n id p ev) (hs : Setting c info vn e)
    (hgoes : id ≠ rtrId c.shape e.group e.router) (hjudged : Judged c found id p ev) :
    n < info.algorithm.maxHops ∧ ∃ ev' out id' p', c.network.route found id p ev = some (ev', out) ∧
      across c.network.wiring (.router id out) = some (.router id' p') ∧
      info.Has ev'.vc ∧ OnWay c info vn e (n + 1) id' p' ev' := by
  obtain ⟨g, r, rfl, hg, hr, hcarries, hstage⟩ := h
  have hinfo : (c.topoAt g r).vns[ev.vn]? = some info := hcarries.vn_eq ▸ hs.vn_info
  have hat := hjudged _ (topo_rtrId hg hr) _ hinfo
  obtain ⟨ev', hroute, hn, hvc, hcarries', g', r', p', ⟨hg', hr', out, hport, hacross⟩, hstage'⟩ :=
    exists_continues hs hg hr hcarries hstage
      (fun hand => hgoes (by rw [hand.1, hand.2])) hat
  exact ⟨hn, ev', out, _, p', network_route_eq hg hr hroute hport, hacross, hvc,
    g', r', rfl, hg', hr', hcarries', hstage'⟩

end Runs

section Channels

variable {c : Config} {s : Shape} {num_vcs p vc : Nat} {t : Topo}
variable {ev ev' : Packet} {found : Found}

end Channels

section Main

/-- No link has failed, or the algorithm is one that goes around failed links. -/
def Connected (c : Config) (algo : RouteAlgo) : Prop :=
  c.config_failed_links = false ∨
    ((algo = .MIN_A ∨ algo = .UGAL) ∧
      ∀ g d, g < d → d < c.shape.num_groups →
        ∃ k < c.shape.intergroup_links, (⟨g, d, k⟩ : FailedLink) ∉ c.failed_links)

variable {c : Config} {info : VnInfo} {src dest vn : Nat} {algo : RouteAlgo}
variable {draws : List Nat}

variable {s : Shape} {rg : RouteToGroup} {gid dest_group id p : Nat} {ev : Packet}

section

variable (hgid : gid < s.num_groups)
variable (hdest : dest_group < s.num_groups)
include hgid hdest

end

theorem Connected.exists_live (h : Connected c algo) {g d : Nat} (hg : g < c.shape.num_groups)
    (hd : d < c.shape.num_groups) (hne : d ≠ g) :
    ∃ k < c.shape.intergroup_links, c.isLive (groupLink g d k) = true := by
  rcases h with hconfig | ⟨-, hlive⟩
  · exact ⟨0, c.shape.intergroup_pos, by simp [Config.isLive, groupLink, hconfig]⟩
  · obtain ⟨k, hk, hmem⟩ := hlive (min g d) (max g d) (by omega) (by omega)
    exact ⟨k, hk, by simp [Config.isLive, groupLink, hmem]⟩

theorem Connected.all_live (h : Connected c algo) (halgo : algo.IsNonadaptive) (name : LinkName) :
    c.isLive name = true := by
  rcases h with hconfig | ⟨heq, -⟩
  · cases name <;> simp [Config.isLive, hconfig]
  · rcases heq with rfl | rfl
    · exact absurd rfl halgo.2
    · exact absurd rfl halgo.1

/-- The packet of a host with its midpoint, as it comes in. -/
def incoming (s : Shape) (info : VnInfo) (src dest vn : Nat) (e : Ends) (mid : Nat) : Packet where
  dest := dest
  vn := vn
  vc := info.start_vc
  next_port := none
  src_group := e.src_group
  dest_group := e.group
  dest_router := e.router
  dest_host := e.host
  mid_group := mid
  mid_group_shadow := mid
  global_slice := src % s.intergroup_links % 65536
  global_slice_shadow := src % s.intergroup_links % 65536
  local_slice := (src + dest) % s.intragroup_links % 65536

end Main

end SstElements.Merlin.Dragonfly
