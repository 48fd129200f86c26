import SstElements.Merlin.FatTreeWiring

/-!
# Routing in a fat tree

Every router sends a packet up until the destination lies below it, and from
there the ports of the routers follow the digits of the destination down to
its edge router.  The last port is the one of the destination as long as the
hosts before it on that router have been built.
-/

namespace SstElements.Merlin.FatTree

open Library.WiredNetwork List Option Nat

section Ends

variable {s : Shape} {built : Nat → Bool}
variable {level group i p : Nat} {n : LinkName} {z : LinkEnd}

theorem Carries.unique {n' : LinkName} (h : Carries s built level group i p n)
    (h' : Carries s built level group i p n') :
    n = n' := by
  have hhosts : ∀ q node, (hostsOf s built group)[q]? = some node → q < s.down 0 := by
    intro q node hq
    have hlen : (hostsOf s built group).length ≤ s.down 0 := by
      refine (length_filter_le _ _).trans ?_
      simp
    exact lt_of_lt_of_le (List.getElem?_eq_some_iff.mp hq).1 hlen
  cases h with
  | host hzero hnode =>
    cases h' with
    | host _ hnode' => rw [some.inj (hnode.symm.trans hnode')]
    | down hpos _ => omega
    | up _ _ =>
      have := hhosts _ _ hnode
      subst hzero
      omega
  | down hpos hp =>
    cases h' with
    | host hzero _ => omega
    | down _ _ => rfl
    | up _ _ => omega
  | @up m habove hm =>
    generalize hq : s.down level + m = q at h'
    cases h' with
    | host hzero hnode =>
      have := hhosts _ _ hnode
      subst hzero
      omega
    | down _ hp => omega
    | @up m' _ _ =>
      obtain rfl : m = m' := by omega
      rfl

end Ends

section Across

variable {s : Shape} {built : Nat → Bool}
variable {level group i m j : Nat}

theorem IsPlace.above (h : IsPlace s level group i) (hlevel : level + 1 < s.levels)
    (hm : m < s.up level) :
    IsPlace s (level + 1) (group / s.down (level + 1))
      (i + m * s.groupSize level) := by
  refine ⟨hlevel, ?_, ?_⟩
  · apply Nat.div_lt_of_lt_mul
    rw [← Shape.groups_eq hlevel]
    exact h.group_lt
  · rw [Shape.groupSize_succ hlevel]
    have hmul := mul_le_mul_right (s.groupSize level) hm
    rw [Nat.succ_mul, mul_comm (s.up level)] at hmul
    have hi := h.router_lt
    omega

section

variable (h : IsPlace s (level + 1) group i) (hj : j < s.down (level + 1))
include h hj

theorem IsPlace.below : IsPlace s level (group * s.down (level + 1) + j) (i % s.groupSize level) :=
  ⟨lt_of_succ_lt h.level_lt, lower_group_lt h.level_lt h.group_lt hj,
    mod_lt _ (Shape.groupSize_pos level)⟩

end

end Across

section Hosts

variable {s : Shape} {built : Nat → Bool}

variable {group j node p : Nat}

section

variable (hj : j < s.down 0) (hbuilt : built (group * s.down 0 + j) = true)
include hj hbuilt

end

section

variable (hlevels : 2 ≤ s.levels) (hgroup : group < s.groups 0)
include hlevels hgroup

end

end Hosts

section Routing

variable (c : Config)

/-- The topology object of the router in a place. -/
def topoAt (s : Shape) (level group i : Nat) : Topo where
  rtr_level := level
  level_id := group * s.groupSize level + i
  level_group := group
  down_ports := s.down level
  up_ports := s.up level
  num_ports := s.up level + s.down level
  down_route_factor := s.hostsBelow level
  low_host := group * s.hostsBelow (level + 1)
  high_host := group * s.hostsBelow (level + 1) + s.hostsBelow (level + 1) - 1

variable {c}
variable {level group i num_vcs dest p vn : Nat} {s : Shape} {ev : Packet}

theorem topo_rtrId (hlevels : 2 ≤ c.shape.levels) (h : IsPlace c.shape level group i) :
    c.topo (rtrId c.shape level group i) = some (topoAt c.shape level group i) := by
  have hmem : (rtrId c.shape level group i,
      c.shape.up level + c.shape.down level) ∈ c.build.routers :=
    (mem_build_routers hlevels).mpr ⟨level, group, i, h, rfl⟩
  obtain ⟨r, hr⟩ : ∃ r, c.build.routers.find?
      (fun r => r.1 = rtrId c.shape level group i) = some r := by
    rw [← isSome_iff_exists, find?_isSome]
    exact ⟨_, hmem, by simp⟩
  have hid : r.1 = rtrId c.shape level group i := by simpa using find?_some hr
  obtain ⟨level', group', i', h', rfl⟩ := (mem_build_routers hlevels).mp (mem_of_find?_eq_some hr)
  obtain ⟨rfl, rfl, rfl⟩ := rtrId_inj h' h hid
  simp only [Config.topo, hr]
  exact topo_fattree_rtrId h' _

def GoesUp (c : Config) (h : Hop Packet) : Prop :=
  ∃ t, c.topo h.router = some t ∧
    t.down_ports ≤ h.outPort ∧ h.outPort < t.down_ports + t.up_ports

def GoesDown (c : Config) (h : Hop Packet) : Prop :=
  ∃ t, c.topo h.router = some t ∧ h.outPort < t.down_ports

section

variable (hlevels : 2 ≤ c.shape.levels)
include hlevels

end

end Routing

section Delivery

variable (c : Config)

variable {c}

end Delivery

end SstElements.Merlin.FatTree
