import SstElements.Library.AllToAll
import SstElements.Merlin.DragonflyLinks

/-!
# The wiring of a dragonfly

A local port leads to the router of the group that the port counts, a global
port to the gateway of the other group for the same slice.
-/

namespace SstElements.Merlin.Dragonfly

open Library.WiredNetwork Library.AllToAll List Option Nat

section Ids

variable {s : Shape}

def rtrId (s : Shape) (g r : Nat) : Nat := g * s.routers_per_group + r

def nodeId (s : Shape) (g r h : Nat) : Nat := rtrId s g r * s.hosts_per_router + h

theorem rtrId_parts {g r : Nat} (hr : r < s.routers_per_group) :
    rtrId s g r / s.routers_per_group = g ∧ rtrId s g r % s.routers_per_group = r := by
  have hpos : 0 < s.routers_per_group := zero_lt_of_lt hr
  rw [rtrId, mul_comm]
  constructor
  · rw [mul_add_div hpos, div_eq_of_lt hr, add_zero]
  · rw [mul_add_mod, mod_eq_of_lt hr]

theorem rtrId_inj {g g' r r' : Nat} (hr : r < s.routers_per_group) (hr' : r' < s.routers_per_group)
    (heq : rtrId s g r = rtrId s g' r') :
    g = g' ∧ r = r' := by
  obtain ⟨hdiv, hmod⟩ := @rtrId_parts s g r hr
  obtain ⟨hdiv', hmod'⟩ := @rtrId_parts s g' r' hr'
  rw [heq] at hdiv hmod
  exact ⟨hdiv.symm.trans hdiv', hmod.symm.trans hmod'⟩

theorem rtrId_lt {g r : Nat} (hg : g < s.num_groups) (hr : r < s.routers_per_group) :
    rtrId s g r < s.num_groups * s.routers_per_group := by
  have hmul := mul_le_mul_right s.routers_per_group (succ_le_of_lt hg)
  rw [Nat.succ_mul] at hmul
  unfold rtrId
  omega

end Ids

variable {name : LinkName}

section Attachments

variable {c : Config}

/-- The port of a link to another router of the group. -/
def localPort (s : Shape) (r v num : Nat) : Nat :=
  s.hosts_per_router + linkIndex s.intragroup_links r v num

variable {s : Shape} {r g : Nat} {mode : GlobalRouteMode}

theorem localPort_lt {v num : Nat} (hr : r < s.routers_per_group) (hv : v < s.routers_per_group)
    (hne : v ≠ r) (hnum : num < s.intragroup_links) :
    localPort s r v num < s.global_start :=
  Nat.add_lt_add_left (linkIndex_lt hr hv hne hnum) _

/-- The attachments of a dragonfly. -/
inductive Attached (c : Config) : Attachment LinkName → Prop where
  | router {g r h : Nat} :
      g < c.shape.num_groups → r < c.shape.routers_per_group →
      h < c.shape.hosts_per_router → c.built (nodeId c.shape g r h) = true →
      Attached c ⟨.router (rtrId c.shape g r) h, .host g r h⟩
  | endpoint {g r h : Nat} :
      g < c.shape.num_groups → r < c.shape.routers_per_group →
      h < c.shape.hosts_per_router → c.built (nodeId c.shape g r h) = true →
      Attached c ⟨.endpoint (nodeId c.shape g r h), .host g r h⟩
  | «local» {g r v num : Nat} :
      g < c.shape.num_groups → r < c.shape.routers_per_group →
      v < c.shape.routers_per_group → v ≠ r → num < c.shape.intragroup_links →
      Attached c
        ⟨.router (rtrId c.shape g r) (localPort c.shape r v num), .local g (min v r) (max v r) num⟩
  | global {g d k : Nat} :
      g < c.shape.num_groups → d < c.shape.num_groups → d ≠ g →
      k < c.shape.intergroup_links → c.isLive (groupLink g d k) = true →
      Attached c
        ⟨.router (rtrId c.shape g (gateway c.shape c.global_routes g d k))
            (c.shape.global_start + gatewayPort c.shape c.global_routes g d k), groupLink g d k⟩

variable {a : Attachment LinkName}

theorem mem_hostLinks {s : Shape} {built : Nat → Bool} {g r : Nat} :
    a ∈ hostLinks s built g r ↔ ∃ h < s.hosts_per_router, built (nodeId s g r h) = true ∧
        (a = ⟨.endpoint (nodeId s g r h), .host g r h⟩ ∨
          a = ⟨.router (rtrId s g r) h, .host g r h⟩) := by
  simp only [hostLinks, mem_flatMap, mem_range]
  constructor
  · rintro ⟨h, hh, hmem⟩
    split at hmem
    · rename_i hbuilt
      exact ⟨h, hh, hbuilt, by simpa [nodeId, rtrId] using hmem⟩
    · cases hmem
  · rintro ⟨h, hh, hbuilt, hor⟩
    refine ⟨h, hh, ?_⟩
    have hbuilt' : built ((g * s.routers_per_group + r) * s.hosts_per_router + h) =
      true := hbuilt
    rw [if_pos hbuilt']
    simpa [nodeId, rtrId] using hor

theorem mem_localLinks {s : Shape} {g r : Nat} :
    a ∈ localLinks s g r s.routers_per_group 0 s.hosts_per_router ↔
      ∃ v num, v < s.routers_per_group ∧ v ≠ r ∧ num < s.intragroup_links ∧
        a = ⟨.router (rtrId s g r) (localPort s r v num), .local g (min v r) (max v r) num⟩ := by
  have hlinks := @mem_links _ s.intragroup_links r
    (fun v num p => ⟨.router (rtrId s g r) p, .local g (min v r) (max v r) num⟩)
    (localLinks s g r) (fun _ _ => rfl) (fun _ _ _ => rfl)
    s.routers_per_group 0 s.hosts_per_router a
  simpa [localPort] using hlinks

theorem getGlobalLink_eq_some {p : Nat} (hg : g < s.num_groups) (hp : p < s.intergroup_per_router) :
    getGlobalLink s mode g r p = some name ↔
      ∃ d k, d < s.num_groups ∧ d ≠ g ∧ k < s.intergroup_links ∧
        r = gateway s mode g d k ∧ p = gatewayPort s mode g d k ∧ name = groupLink g d k := by
  have hparts : (r * s.intergroup_per_router + p) / s.intergroup_per_router = r ∧
      (r * s.intergroup_per_router + p) % s.intergroup_per_router = p := by
    rw [mul_comm]
    constructor
    · rw [mul_add_div s.intergroup_per_router_pos, div_eq_of_lt hp, add_zero]
    · rw [mul_add_mod, mod_eq_of_lt hp]
  have hlink : ∀ {d k}, d < s.num_groups → d ≠ g →
      linkTarget mode s.num_groups g (linkValue s mode g d k -
        linkValue s mode g d k / (s.num_groups - 1) * (s.num_groups - 1)) = d := by
    intro d k hd hne
    obtain ⟨hdiv, hmod⟩ := @linkValue_parts s mode g d k hg hd hne
    rw [← mod_eq_sub_div_mul, hmod, linkTarget_groupCode hg hd hne]
  rw [getGlobalLink, map_eq_some_iff]
  constructor
  · rintro ⟨v, hv, rfl⟩
    have hget : (global_link_map s)[r * s.intergroup_per_router + p]? =
        some (some v) := join_eq_some_iff.mp hv
    obtain ⟨hlt, hentry⟩ := entryOf_eq hget
    obtain ⟨d, k, hd, hne, hk, rfl⟩ := @exists_linkValue v s mode g hg hlt
    refine ⟨d, k, hd, hne, hk, ?_, ?_, ?_⟩
    · rw [gateway, ← hentry, hparts.1]
    · rw [gatewayPort, ← hentry, hparts.2]
    · dsimp only
      rw [hlink hd hne, (linkValue_parts hg hd hne).1, groupLink, Nat.min_comm, Nat.max_comm]
  · rintro ⟨d, k, hd, hne, hk, rfl, rfl, rfl⟩
    refine ⟨linkValue s mode g d k, ?_, ?_⟩
    · rw [gateway, gatewayPort, div_add_mod', entryOf_get (linkValue_lt hg hd hne hk)]
      rfl
    · dsimp only
      rw [hlink hd hne, (linkValue_parts hg hd hne).1, groupLink, Nat.min_comm, Nat.max_comm]

theorem mem_globalLinks {port : Nat} (hg : g < s.num_groups) :
    a ∈ globalLinks s mode g r port ↔ ∃ d k, d < s.num_groups ∧ d ≠ g ∧ k < s.intergroup_links ∧
        r = gateway s mode g d k ∧ a = ⟨.router (rtrId s g r) (port + gatewayPort s mode g d k),
          groupLink g d k⟩ := by
  simp only [globalLinks, mem_filterMap, mem_range, map_eq_some_iff]
  constructor
  · rintro ⟨p, hp, name, hname, rfl⟩
    obtain ⟨d, k, hd, hne, hk, hr, rfl, rfl⟩ := (getGlobalLink_eq_some hg hp).mp hname
    exact ⟨d, k, hd, hne, hk, hr, rfl⟩
  · rintro ⟨d, k, hd, hne, hk, hr, rfl⟩
    exact ⟨_, gatewayPort_lt _ _ _ _ _, _,
      (getGlobalLink_eq_some hg (gatewayPort_lt _ _ _ _ _)).mpr
        ⟨d, k, hd, hne, hk, hr, rfl, rfl⟩, rfl⟩

theorem mem_wiring : a ∈ c.network.wiring ↔ Attached c a := by
  simp only [Config.network, mem_filter, build, mem_flatMap,
    mem_range, mem_append, mem_hostLinks, mem_localLinks]
  constructor
  · rintro ⟨⟨g, hg, r, hr, (⟨h, hh, hbuilt, rfl | rfl⟩ |
      ⟨v, num, hv, hne, hnum, rfl⟩) | hglobal⟩, hlive⟩
    · exact .endpoint hg hr hh hbuilt
    · exact .router hg hr hh hbuilt
    · exact .local hg hr hv hne hnum
    · obtain ⟨d, k, hd, hne, hk, rfl, rfl⟩ := (mem_globalLinks hg).mp hglobal
      exact .global hg hd hne hk hlive
  · rintro (⟨hg, hr, hh, hbuilt⟩ | ⟨hg, hr, hh, hbuilt⟩ |
      ⟨hg, hr, hv, hne, hnum⟩ | ⟨hg, hd, hne, hk, hlive⟩)
    · exact ⟨⟨_, hg, _, hr, .inl (.inl ⟨_, hh, hbuilt, .inr rfl⟩)⟩, rfl⟩
    · exact ⟨⟨_, hg, _, hr, .inl (.inl ⟨_, hh, hbuilt, .inl rfl⟩)⟩, rfl⟩
    · exact ⟨⟨_, hg, _, hr, .inl (.inr ⟨_, _, hv, hne, hnum, rfl⟩)⟩, rfl⟩
    · exact ⟨⟨_, hg, _, gateway_lt hg hd hne hk, .inr ((mem_globalLinks hg).mpr
        ⟨_, _, hd, hne, hk, rfl, rfl⟩)⟩, hlive⟩

end Attachments

section Across

variable {c : Config}
variable {g r h out : Nat}

theorem Attached.router_cases {p : Nat} (hr : r < c.shape.routers_per_group)
    (h : Attached c ⟨.router (rtrId c.shape g r) p, name⟩) :
    (p < c.shape.hosts_per_router ∧ name = .host g r p ∧ c.built (nodeId c.shape g r p) = true) ∨
    (∃ v num, v < c.shape.routers_per_group ∧ v ≠ r ∧
      num < c.shape.intragroup_links ∧ p = localPort c.shape r v num ∧
      name = .local g (min v r) (max v r) num) ∨
    (∃ d k, d < c.shape.num_groups ∧ d ≠ g ∧ k < c.shape.intergroup_links ∧
      r = gateway c.shape c.global_routes g d k ∧
      p = c.shape.global_start + gatewayPort c.shape c.global_routes g d k ∧
      name = groupLink g d k) := by
  generalize hz : LinkEnd.router (rtrId c.shape g r) p = z at h
  cases h with
  | router _ hr' hh hbuilt =>
    obtain ⟨hid, rfl⟩ := LinkEnd.router.inj hz
    obtain ⟨rfl, rfl⟩ := rtrId_inj hr hr' hid
    exact .inl ⟨hh, rfl, hbuilt⟩
  | endpoint _ _ _ _ => cases hz
  | «local» _ hr' hv hne hnum =>
    obtain ⟨hid, rfl⟩ := LinkEnd.router.inj hz
    obtain ⟨rfl, rfl⟩ := rtrId_inj hr hr' hid
    exact .inr (.inl ⟨_, _, hv, hne, hnum, rfl, rfl⟩)
  | global hg hd hne hk _ =>
    obtain ⟨hid, rfl⟩ := LinkEnd.router.inj hz
    obtain ⟨rfl, hr'⟩ := rtrId_inj hr (gateway_lt hg hd hne hk) hid
    exact .inr (.inr ⟨_, _, hd, hne, hk, hr', rfl, rfl⟩)

theorem across_local {g r v num : Nat} (hg : g < c.shape.num_groups)
    (hr : r < c.shape.routers_per_group) (hv : v < c.shape.routers_per_group) (hne : v ≠ r)
    (hnum : num < c.shape.intragroup_links) :
    across c.network.wiring
        (.router (rtrId c.shape g r) (localPort c.shape r v num)) =
      some (.router (rtrId c.shape g v) (localPort c.shape v r num)) := by
  have hport := localPort_lt hr hv hne hnum
  have hhost : ∀ r v num,
      c.shape.hosts_per_router ≤ localPort c.shape r v num :=
    fun _ _ _ => Nat.le_add_right _ _
  apply across_eq_some (n := .local g (min v r) (max v r) num)
  · exact mem_wiring.mpr (.local hg hr hv hne hnum)
  · intro m hm
    rcases (mem_wiring.mp hm).router_cases hr with ⟨hlt, -⟩ |
      ⟨v', num', hv', hne', hnum', heq, rfl⟩ | ⟨d, k, -, -, -, -, heq, -⟩
    · exact absurd (hhost r v num) (Nat.not_le_of_lt hlt)
    · obtain ⟨rfl, rfl⟩ := linkIndex_inj hne hnum hne' hnum' (add_left_cancel heq)
      rfl
    · omega
  · have hback := Attached.local (c := c) hg hv hr hne.symm hnum
    rw [Nat.min_comm, Nat.max_comm] at hback
    exact mem_wiring.mpr hback
  · intro heq
    exact hne (rtrId_inj hv hr (LinkEnd.router.inj heq).1).2
  · intro z hz
    have hattached := mem_wiring.mp hz
    generalize hm : LinkName.local g (min v r) (max v r) num = m at hattached
    cases hattached with
    | router _ _ _ _ => cases hm
    | endpoint _ _ _ _ => cases hm
    | global _ _ _ _ _ => cases hm
    | @«local» g' r' v' num' _ _ _ hne' _ =>
      obtain ⟨rfl, hmin, hmax, rfl⟩ := LinkName.local.inj hm
      obtain ⟨rfl, rfl⟩ | ⟨rfl, rfl⟩ : (r' = r ∧ v' = v) ∨ (r' = v ∧ v' = r) := by omega
      · exact .inl rfl
      · exact .inr rfl

theorem across_global {d k : Nat} (hg : g < c.shape.num_groups) (hd : d < c.shape.num_groups)
    (hne : d ≠ g) (hk : k < c.shape.intergroup_links) (hlive : c.isLive (groupLink g d k) = true) :
    across c.network.wiring
        (.router (rtrId c.shape g (gateway c.shape c.global_routes g d k))
          (c.shape.global_start + gatewayPort c.shape c.global_routes g d k)) =
      some (.router (rtrId c.shape d (gateway c.shape c.global_routes d g k))
        (c.shape.global_start + gatewayPort c.shape c.global_routes d g k)) := by
  have hr : gateway c.shape c.global_routes g d k < c.shape.routers_per_group :=
    gateway_lt hg hd hne hk
  have hr' : gateway c.shape c.global_routes d g k < c.shape.routers_per_group :=
    gateway_lt hd hg hne.symm hk
  apply across_eq_some (n := groupLink g d k)
  · exact mem_wiring.mpr (.global hg hd hne hk hlive)
  · intro m hm
    rcases (mem_wiring.mp hm).router_cases hr with ⟨hlt, -⟩ |
      ⟨v', num', hv', hne', hnum', heq, -⟩ | ⟨d', k', hd', hne', hk', hgate, heq, rfl⟩
    · have hstart : c.shape.hosts_per_router ≤ c.shape.global_start := Nat.le_add_right _ _
      omega
    · have := localPort_lt hr hv' hne' hnum'
      omega
    · obtain ⟨rfl, rfl⟩ := gateway_inj hg hd hne hk hd' hne' hk' hgate
        (add_left_cancel heq)
      rfl
  · have hback := Attached.global (c := c) hd hg hne.symm hk
      (groupLink_comm g d k ▸ hlive)
    rw [groupLink_comm] at hback
    exact mem_wiring.mpr hback
  · intro heq
    exact hne (rtrId_inj hr' hr (LinkEnd.router.inj heq).1).1
  · intro z hz
    have hattached := mem_wiring.mp hz
    generalize hm : groupLink g d k = m at hattached
    cases hattached with
    | router _ _ _ _ => cases hm
    | endpoint _ _ _ _ => cases hm
    | «local» _ _ _ _ _ => cases hm
    | global _ _ _ _ _ =>
      obtain ⟨rfl, ⟨rfl, rfl⟩ | ⟨rfl, rfl⟩⟩ := groupLink_inj hm
      · exact .inl rfl
      · exact .inr rfl

end Across

end SstElements.Merlin.Dragonfly
