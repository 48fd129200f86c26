import SstElements.Merlin.DragonflyRouting

/-!
# The steps of a packet in a dragonfly

Two functions count the ports of the group as if there were one link between
two routers.  Wherever they do not take a local port for a global one, every
algorithm takes a packet from stage to stage until it is at its router.
-/

namespace SstElements.Merlin.Dragonfly

open Library.WiredNetwork Library.LeastWeight List Option

section Settings

/-- What all steps of a packet have in common. -/
structure Setting (c : Config) (info : VnInfo) (vn : Nat) (e : Ends) : Prop where
  mode_eq : c.global_route_mode = c.global_routes
  fits16 : c.shape.Fits16
  src_lt : e.src_group < c.shape.num_groups
  group_lt : e.group < c.shape.num_groups
  router_lt : e.router < c.shape.routers_per_group
  vn_info : (setupVns 0 c.algorithms)[vn]? = some info
  num_vcs : info.num_vcs = info.algorithm.num_vcs
  exists_live : ∀ {g d}, g < c.shape.num_groups → d < c.shape.num_groups → d ≠ g →
    ∃ k < c.shape.intergroup_links, c.isLive (groupLink g d k) = true
  all_live : info.algorithm.IsNonadaptive → ∀ name, c.isLive name = true

variable {c : Config} {info : VnInfo} {vn : Nat} {e : Ends}
variable {g r : Nat} {ev : Packet}

@[simp]
theorem topoAt_group_id (c : Config) (g r : Nat) : (c.topoAt g r).group_id = g :=
  (rfl)

@[simp]
theorem topoAt_router_id (c : Config) (g r : Nat) : (c.topoAt g r).router_id = r :=
  (rfl)

theorem Carries.routed (h : Carries c info vn e ev)
    (vc : Nat) (next_port : Option Nat) {global_slice : Nat}
    (hslice : global_slice < c.shape.intergroup_links) :
    Carries c info vn e
      { ev with vc := vc, next_port := next_port, global_slice := global_slice } := { h with
  global_lt := hslice }

theorem Carries.keep (h : Carries c info vn e ev) (vc : Nat) (next_port : Option Nat) :
    Carries c info vn e { ev with vc := vc, next_port := next_port } :=
  h.routed vc next_port h.global_lt

theorem Carries.ends_eq (h : Carries c info vn e ev) :
    e = ⟨ev.src_group, ev.dest_group, ev.dest_router, ev.dest_host⟩ := by
  rw [h.src_group, h.dest_group, h.dest_router, h.dest_host]

theorem Setting.slice16 (hs : Setting c info vn e) {k : Nat} (hk : k < c.shape.intergroup_links) :
    k % 65536 = k :=
  Nat.mod_eq_of_lt (lt_of_lt_of_le hk hs.fits16.slices_le)

theorem Setting.leaves (hs : Setting c info vn e) (halgo : info.algorithm.IsNonadaptive)
    {d k num : Nat} (hg : g < c.shape.num_groups) (hd : d < c.shape.num_groups) (hne : d ≠ g)
    (hk : k < c.shape.intergroup_links) (hnum : num < c.shape.intragroup_links) :
    Leaves c g r d k num (port_for_group c.shape (c.topoAt g r) d k num) :=
  leaves_of_live hs.mode_eq hs.fits16 hg hd hne hk hnum (hs.all_live halgo _)

theorem targets_nonadaptive {d : Nat} (halgo : info.algorithm.IsNonadaptive) :
    Targets info e ev d ↔ d = ev.mid_group := by
  unfold Targets
  split
  · exact absurd (by assumption) halgo.2
  · exact absurd (by assumption) halgo.1
  · rfl

theorem not_host {s : Shape} {p : Nat} (hp : s.global_start ≤ p) :
    ¬ p < s.hosts_per_router :=
  Nat.not_lt_of_le ((Nat.le_add_right _ _).trans hp)

end Settings

section Nonadaptive

variable {c : Config} {info : VnInfo} {vn : Nat} {e : Ends}
variable {n g r p : Nat} {ev : Packet}

theorem continues_nonadaptive (hs : Setting c info vn e) (halgo : info.algorithm.IsNonadaptive)
    (hg : g < c.shape.num_groups) (hr : r < c.shape.routers_per_group)
    (hcarries : Carries c info vn e ev) (hstage : Stage c info e n g r p ev)
    (hgoes : ¬ (g = e.group ∧ r = e.router)) :
    Continues c info vn e n g r
      (route_nonadaptive c.shape (c.topoAt g r) p ev.vc ev) := by
  obtain ⟨hmax, hmax'⟩ := maxHops_ge info.algorithm
  obtain ⟨hmin, hmin'⟩ := num_vcs_ge info.algorithm
  have hvcs := hs.num_vcs
  have hkeep := hcarries.keep
  have hlocal := hcarries.local_lt
  obtain rfl := hcarries.ends_eq
  unfold route_nonadaptive
  simp only [topoAt_group_id, topoAt_router_id, port_for_router_eq, ne_eq, ite_not]
  cases hstage with
  | host hp hsrc hn hvc hmid =>
    subst hn
    rw [if_pos hp]
    by_cases hin : ev.dest_group = ev.src_group
    · have hgroup : g = ev.dest_group := hsrc.trans hin.symm
      have hrouter : ev.dest_router ≠ r := fun heq => hgoes ⟨hgroup, heq.symm⟩
      rw [if_pos hin, if_neg hrouter]
      refine continues_within hg hr hgroup (hcarries.mid_inside hin.symm)
        ((hmid hgroup.symm).resolve_left hrouter) hlocal ?_ (hkeep _ _) hvcs hvc rfl
      by_cases hminimal : info.algorithm = .MINIMAL
      · left
        rw [hcarries.mid_minimal hminimal, if_pos hin.symm]
      · right
        rintro (heq | heq)
        · exact hminimal heq
        · exact halgo.2 heq
    · have hoff : ev.src_group ≠ ev.dest_group := Ne.symm hin
      obtain ⟨hlt, hne, -⟩ := hcarries.mid_outside hoff
      rw [if_neg hin]
      exact continues_from_host hg hr hsrc hoff (hkeep _ _) hvcs hvc
        ((targets_nonadaptive halgo).mpr rfl)
        (hs.leaves halgo hg hlt (hsrc ▸ hne) hcarries.global_lt hlocal)
  | leavingSource hp hsrc haway hn hvc hgate =>
    subst hn
    obtain ⟨d, htarget, hrouter, -⟩ := hgate
    obtain rfl := (targets_nonadaptive halgo).mp htarget
    have hoff : ev.src_group ≠ ev.dest_group := fun heq => haway (heq.symm.trans hsrc.symm)
    obtain ⟨hlt, hne, -⟩ := hcarries.mid_outside hoff
    have hne' : ev.mid_group ≠ g := hsrc ▸ hne
    rw [if_neg (Nat.not_lt_of_le hp.1), if_pos hp.2, if_neg haway, if_neg hne']
    exact continues_from_gateway hg hoff (hkeep _ _) hvcs hvc htarget
      (hs.leaves halgo hg hlt hne' hcarries.global_lt hlocal) hrouter
  | passing hp haway hoff hminimal hn hvc hmid =>
    rw [if_neg (not_host hp), if_neg (Nat.not_lt_of_le hp), if_neg haway]
    exact continues_from_midpoint hg hr haway hoff hminimal hn (hkeep _ _) hvcs
      (congrArg (· + 1) hvc) (.inl hmid)
      (hs.leaves halgo hg hs.group_lt haway hcarries.global_lt hlocal)
  | leavingMidpoint hp haway hoff hminimal hn hvc hmid hgate =>
    have hleaves : Leaves c g r ev.dest_group ev.global_slice ev.local_slice
        (port_for_group c.shape (c.topoAt g r) ev.dest_group ev.global_slice ev.local_slice) :=
      hs.leaves halgo hg hs.group_lt haway hcarries.global_lt hlocal
    rw [if_neg (Nat.not_lt_of_le hp.1), if_pos hp.2, if_neg haway]
    split
    · exact continues_from_midpoint_gateway hg hminimal hn (hkeep _ _) hvcs hvc
        hleaves hgate.1
    · rename_i hne
      have heq : ev.mid_group = ev.dest_group := (hmid.resolve_left hne).1
      have hleaves' : Leaves c g r ev.dest_group ev.global_slice ev.local_slice
          (port_for_group c.shape (c.topoAt g r) ev.mid_group ev.global_slice
            ev.local_slice) := by
        rw [heq]
        exact hleaves
      exact continues_from_midpoint_gateway hg hminimal hn (hkeep _ _) hvcs hvc
        hleaves' hgate.1
  | landing hp hgroup hvc =>
    have hrouter : ev.dest_router ≠ r := fun heq => hgoes ⟨hgroup, heq.symm⟩
    rw [if_neg (not_host hp), if_neg (Nat.not_lt_of_le hp), if_pos hgroup.symm, if_neg hrouter]
    have hnew : n < info.algorithm.maxHops ∧ info.Has (ev.vc + 1) := by
      rcases hvc with ⟨hvc, hn⟩ | ⟨hvc, hn, hminimal⟩
      · exact ⟨by omega, by omega, by omega⟩
      · have := hmax' hminimal
        have := hmin' hminimal
        exact ⟨by omega, by omega, by omega⟩
    exact continues_final hg hr hs.router_lt hgroup hrouter hlocal (hkeep _ _) rfl
      hnew.1 hnew.2
  | turning hp hgroup hrouter hminimal hn hvc =>
    rw [if_neg (Nat.not_lt_of_le hp.1), if_pos hp.2, if_pos hgroup.symm, if_neg hrouter.symm]
    exact continues_final hg hr hs.router_lt hgroup hrouter.symm hlocal
      (hkeep _ _) rfl (by omega) ⟨by dsimp only; omega, by dsimp only; omega⟩
  | final _ hgroup hrouter _ _ => exact absurd ⟨hgroup, hrouter⟩ hgoes

end Nonadaptive

section Judging

variable (c : Config)

def ComparesGlobal (g r : Nat) (ev : Packet) : Prop :=
  ∀ d ∈ [ev.dest_group, ev.mid_group],
    ∀ port ∈ port_for_group c.shape (c.topoAt g r) d ev.global_slice ev.local_slice,
      is_port_global c.shape port = true → c.shape.global_start ≤ port
deriving Decidable

/--
The local adaptive routing does not take a local port for a global one, and on
a global port the credits are not less than those of the route it rules out.
-/
def EntersGlobal (g r p : Nat) (found : Found) (ev : Packet) : Prop :=
  (is_port_global c.shape p = true → c.shape.global_start ≤ p) ∧
    (c.shape.global_start ≤ p →
      -1 ≤ c.adaptive_threshold
        (directRoute c.shape c.num_vcs (c.topoAt g r) ev.vc found ev).credits)
deriving Decidable

/-- The routing of a packet that leaves a group does not misjudge a port. -/
def JudgedAt (info : VnInfo) (g r p : Nat) (found : Found) (ev : Packet) : Prop :=
  (info.algorithm = .UGAL → IsLocal c p → ev.dest_group ≠ g → ev.mid_group ≠ g →
    ComparesGlobal c g r ev) ∧
  (info.algorithm = .ADAPTIVE_LOCAL → ev.dest_group ≠ g → EntersGlobal c g r p found ev)
deriving Decidable

/-- The router's routing of the packet does not misjudge a port. -/
def Judged (found : Found) (r p : Nat) (ev : Packet) : Prop :=
  ∀ t ∈ c.topo r, ∀ info ∈ t.vns[ev.vn]?,
    JudgedAt c info t.group_id t.router_id p found ev
deriving Decidable

end Judging

section Adaptive

variable {c : Config} {info : VnInfo} {vn : Nat} {e : Ends}
variable {n g r p : Nat} {ev : Packet} {found : Found}

theorem bestSlice_spec {s : Shape} {num_vcs : Nat} {t : Topo} {vc group slice local_slice : Nat}
    (hslice : slice < s.intergroup_links) :
    (bestSlice s num_vcs t found vc group slice local_slice).slice < s.intergroup_links ∧
      (bestSlice s num_vcs t found vc group slice local_slice).port = port_for_group s t group
          (bestSlice s num_vcs t found vc group slice local_slice).slice
          local_slice := by
  unfold bestSlice
  dsimp only
  split
  · exact ⟨hslice, rfl⟩
  · exact ⟨Nat.mod_lt _ s.intergroup_pos, rfl⟩

theorem Carries.redirected (h : Carries c info vn e ev) (hoff : e.src_group ≠ e.group)
    (hminimal : ¬ info.algorithm.IsMinimal)
    (vc : Nat) (next_port : Option Nat) {d global_slice : Nat} (hd : d < c.shape.num_groups)
    (hne : d ≠ e.src_group) (hslice : global_slice < c.shape.intergroup_links) :
    Carries c info vn e
      { ev with
        vc := vc
        next_port := next_port
        mid_group := d
        global_slice := global_slice } := { h with
  global_lt := hslice
  mid_inside := fun hin => absurd hin hoff
  mid_outside := fun _ => ⟨hd, hne, (h.mid_outside hoff).2.2⟩
  mid_minimal := fun halgo => absurd (.inl halgo) hminimal }

theorem route_adaptive_local_eq_self {s : Shape} {num_vcs vc : Nat} {t : Topo}
    (hport : s.hosts_per_router ≤ p)
    (hto : ev.dest_group = t.group_id ∨ is_port_global s p = false) :
    route_adaptive_local s num_vcs t info p vc found ev = ev := by
  unfold route_adaptive_local
  split
  · rfl
  · split
    · rfl
    · rename_i hglobal
      rw [if_neg (fun hand => absurd hport (Nat.not_le_of_lt hand.1))]
      rcases hto with hto | hto
      · rw [if_pos hto]
      · simp only [is_port_global, decide_eq_false_iff_not, not_le] at hto
        exact absurd ⟨hport, hto⟩ hglobal

theorem route_nonadaptive_dest_group {s : Shape} {t : Topo} {vc : Nat} :
    (route_nonadaptive s t p vc ev).dest_group = ev.dest_group := by
  unfold route_nonadaptive
  split
  · split
    · split <;> rfl
    · rfl
  · split
    · split
      · split <;> rfl
      · split <;> rfl
    · split
      · split <;> rfl
      · rfl

section

variable (halgo : info.algorithm = .ADAPTIVE_LOCAL)
include halgo

theorem route_adaptive_local_direct {s : Shape} {num_vcs vc : Nat} {t : Topo}
    (hpast : s.hosts_per_router + s.routers_per_group - 1 ≤ p) (haway : ev.dest_group ≠ t.group_id)
    (hslice : ev.global_slice_shadow < s.intergroup_links)
    (hslow : ¬ t.adaptive_threshold (directRoute s num_vcs t vc found ev).credits <
      (-1 : Int32).toInt) :
    ∃ k < s.intergroup_links, route_adaptive_local s num_vcs t info p vc found ev = { ev with
          mid_group := ev.dest_group
          next_port := port_for_group s t ev.dest_group k ev.local_slice
          global_slice := k % 65536 } := by
  obtain ⟨hk, hport⟩ := @bestSlice_spec found s num_vcs t vc ev.dest_group
    ev.global_slice_shadow ev.local_slice hslice
  refine ⟨_, hk, ?_⟩
  rw [← hport, route_adaptive_local, if_neg (not_not.mpr halgo),
    if_neg (fun hand => absurd hpast (Nat.not_le_of_lt hand.2)),
    if_neg (fun hand => haway hand.2), if_neg haway]
  simp only [if_pos hpast]
  exact if_neg hslow

theorem route_adaptive_local_within {s : Shape} {num_vcs vc : Nat} {t : Topo}
    (hp : p < s.hosts_per_router) (hgroup : ev.dest_group = t.group_id)
    (hrouter : ev.dest_router ≠ t.router_id) :
    ∃ v, (v = ev.dest_router ∨ v = ev.mid_group) ∧
      route_adaptive_local s num_vcs t info p vc found ev =
        { ev with next_port := some (port_for_router s t v ev.local_slice) } := by
  rw [route_adaptive_local, if_neg (not_not.mpr halgo),
    if_neg (fun hand => absurd hand.1 (Nat.not_le_of_lt hp)), if_pos ⟨hp, hgroup⟩, if_neg hrouter]
  dsimp only
  split
  · exact ⟨_, .inr rfl, rfl⟩
  · exact ⟨_, .inl rfl, rfl⟩

theorem route_adaptive_local_redirects {s : Shape} {num_vcs vc : Nat} {t : Topo}
    (hp : p < s.hosts_per_router) (haway : ev.dest_group ≠ t.group_id)
    (hslice : ev.global_slice < s.intergroup_links)
    (hshadow : ev.global_slice_shadow < s.intergroup_links) :
    ∃ d k, (d = ev.mid_group_shadow ∨ d = ev.dest_group) ∧ k < s.intergroup_links ∧
      route_adaptive_local s num_vcs t info p vc found ev = { ev with
          mid_group := d
          next_port := port_for_group s t d k ev.local_slice
          global_slice := k % 65536 } := by
  have hrouters := s.routers_ge
  obtain ⟨hk, hport⟩ := @bestSlice_spec found s num_vcs t vc ev.dest_group
    ev.global_slice_shadow ev.local_slice hshadow
  obtain ⟨hk', hport'⟩ := @bestSlice_spec found s num_vcs t vc ev.mid_group_shadow
    ev.global_slice ev.local_slice hslice
  rw [route_adaptive_local, if_neg (not_not.mpr halgo),
    if_neg (fun hand => absurd hand.1 (Nat.not_le_of_lt hp)),
    if_neg (fun hand => haway hand.2), if_neg haway]
  simp only [if_neg (show ¬ s.hosts_per_router + s.routers_per_group - 1 ≤ p by omega)]
  split
  · refine ⟨_, _, .inl rfl, hk', ?_⟩
    rw [← hport']
  · refine ⟨_, _, .inr rfl, hk, ?_⟩
    rw [← hport]
    rfl

end

theorem continues_adaptive (hs : Setting c info vn e) (halgo : info.algorithm = .ADAPTIVE_LOCAL)
    (hg : g < c.shape.num_groups) (hr : r < c.shape.routers_per_group)
    (hcarries : Carries c info vn e ev) (hstage : Stage c info e n g r p ev)
    (hgoes : ¬ (g = e.group ∧ r = e.router)) (hjudged : JudgedAt c info g r p found ev) :
    Continues c info vn e n g r
      (route_adaptive_local c.shape c.num_vcs (c.topoAt g r) info p ev.vc found
        (route_nonadaptive c.shape (c.topoAt g r) p ev.vc ev)) := by
  have hnonadaptive : info.algorithm.IsNonadaptive := by simp [RouteAlgo.IsNonadaptive, halgo]
  have hminimal : ¬ info.algorithm.IsMinimal := by simp [RouteAlgo.IsMinimal, halgo]
  have hkeeps := continues_nonadaptive hs hnonadaptive hg hr hcarries hstage hgoes
  obtain rfl := hcarries.ends_eq
  have hjudged := hjudged.2 halgo
  have hlocalPort : IsLocal c p →
      route_adaptive_local c.shape c.num_vcs (c.topoAt g r) info p ev.vc found
          (route_nonadaptive c.shape (c.topoAt g r) p ev.vc ev) =
        route_nonadaptive c.shape (c.topoAt g r) p ev.vc ev := by
    intro hp
    refine route_adaptive_local_eq_self hp.1 ?_
    rw [route_nonadaptive_dest_group, topoAt_group_id]
    by_cases haway : ev.dest_group = g
    · exact .inl haway
    · right
      rw [← Bool.not_eq_true]
      intro hglobal
      exact absurd ((hjudged haway).1 hglobal) (Nat.not_le_of_lt hp.2)
  cases hstage with
  | leavingSource hp _ _ _ _ _ => rwa [hlocalPort hp]
  | leavingMidpoint hp _ _ _ _ _ _ _ => rwa [hlocalPort hp]
  | turning hp _ _ _ _ _ => rwa [hlocalPort hp]
  | final _ hgroup hrouter _ _ => exact absurd ⟨hgroup, hrouter⟩ hgoes
  | landing hp hgroup _ =>
    have hsame : route_adaptive_local c.shape c.num_vcs (c.topoAt g r) info p
        ev.vc found (route_nonadaptive c.shape (c.topoAt g r) p ev.vc ev) =
          route_nonadaptive c.shape (c.topoAt g r) p ev.vc ev := by
      refine route_adaptive_local_eq_self ((Nat.le_add_right _ _).trans hp) ?_
      rw [route_nonadaptive_dest_group, topoAt_group_id]
      exact .inl hgroup.symm
    rwa [hsame]
  | passing hp haway hoff _ hn hvc hmid =>
    have hpast : c.shape.hosts_per_router + c.shape.routers_per_group - 1 ≤ p := by
      have hmul := Nat.le_mul_of_pos_right (c.shape.routers_per_group - 1)
        c.shape.intragroup_pos
      unfold Shape.global_start at hp
      omega
    have hfirst : route_nonadaptive c.shape (c.topoAt g r) p ev.vc ev =
        { ev with
          vc := ev.vc + 1
          next_port := port_for_group c.shape (c.topoAt g r) ev.dest_group
            ev.global_slice ev.local_slice } := by
      rw [route_nonadaptive, if_neg (not_host hp), if_neg (Nat.not_lt_of_le hp),
        if_neg (by simpa using haway)]
    obtain ⟨k, hk, hroute⟩ := @route_adaptive_local_direct info p
      { ev with
        vc := ev.vc + 1
        next_port := port_for_group c.shape (c.topoAt g r) ev.dest_group
          ev.global_slice ev.local_slice } found halgo c.shape c.num_vcs ev.vc
      (c.topoAt g r) hpast (by simpa using haway) hcarries.shadow_lt
      (not_lt.mpr ((hjudged haway).2 hp))
    rw [hfirst, hroute, hs.slice16 hk]
    exact continues_from_midpoint hg hr haway hoff hminimal hn
      (hcarries.redirected hoff hminimal _ _ hs.group_lt hoff.symm hk) hs.num_vcs
      (congrArg (· + 1) hvc) (.inr ⟨rfl, by simp [halgo]⟩)
      (hs.leaves hnonadaptive hg hs.group_lt haway hk hcarries.local_lt)
  | host hp hsrc hn hvc hmid =>
    subst hn
    by_cases hin : ev.dest_group = ev.src_group
    · have hgroup : g = ev.dest_group := hsrc.trans hin.symm
      have hrouter : ev.dest_router ≠ r := fun heq => hgoes ⟨hgroup, heq.symm⟩
      have hmidne : ev.mid_group ≠ r := (hmid hgroup.symm).resolve_left hrouter
      have hfirst : route_nonadaptive c.shape (c.topoAt g r) p ev.vc ev =
          { ev with
            next_port := some (localPort c.shape r ev.mid_group ev.local_slice) } := by
        rw [route_nonadaptive, if_pos hp, if_pos hin,
          if_neg (by simpa using hrouter), port_for_router_eq, topoAt_router_id]
      obtain ⟨v, hv, hroute⟩ := @route_adaptive_local_within info p
        { ev with
          next_port := some (localPort c.shape r ev.mid_group
            ev.local_slice) } found halgo c.shape c.num_vcs ev.vc (c.topoAt g r) hp
        (by simpa using hgroup.symm) (by simpa using hrouter)
      rw [hfirst, hroute, port_for_router_eq, topoAt_router_id]
      have hkeep : Carries c info vn _ { ev with
          next_port := some (localPort c.shape r v ev.local_slice) } :=
        hcarries.routed ev.vc _ hcarries.global_lt
      rcases hv with rfl | rfl
      · exact continues_within hg hr hgroup hs.router_lt hrouter hcarries.local_lt
          (.inl rfl) hkeep hs.num_vcs hvc rfl
      · exact continues_within hg hr hgroup (hcarries.mid_inside hin.symm) hmidne
          hcarries.local_lt (.inr hminimal) hkeep hs.num_vcs hvc rfl
    · have hoff : ev.src_group ≠ ev.dest_group := Ne.symm hin
      have haway : ev.dest_group ≠ g := fun heq => hin (heq.trans hsrc)
      obtain ⟨hlt, hne, hlt', hne'⟩ := hcarries.mid_outside hoff
      have hfirst : route_nonadaptive c.shape (c.topoAt g r) p ev.vc ev =
          { ev with
            next_port := port_for_group c.shape (c.topoAt g r) ev.mid_group
              ev.global_slice ev.local_slice } := by
        rw [route_nonadaptive, if_pos hp, if_neg hin]
      obtain ⟨d, k, hd, hk, hroute⟩ := @route_adaptive_local_redirects info p
        { ev with
          next_port := port_for_group c.shape (c.topoAt g r) ev.mid_group
            ev.global_slice ev.local_slice } found halgo c.shape c.num_vcs ev.vc
        (c.topoAt g r) hp (by simpa using haway) hcarries.global_lt
        hcarries.shadow_lt
      have hdlt : d < c.shape.num_groups ∧ d ≠ ev.src_group := by
        rcases hd with rfl | rfl
        · exact ⟨hlt', hne'⟩
        · exact ⟨hs.group_lt, hoff.symm⟩
      rw [hfirst, hroute, hs.slice16 hk]
      exact continues_from_host hg hr hsrc hoff
        (hcarries.redirected hoff hminimal ev.vc _ hdlt.1 hdlt.2 hk) hs.num_vcs hvc
        ((targets_nonadaptive hnonadaptive).mpr rfl)
        (hs.leaves hnonadaptive hg hdlt.1 (hsrc ▸ hdlt.2) hk hcarries.local_lt)

end Adaptive

section Least

variable {c : Config} {info : VnInfo} {vn : Nat} {e : Ends}
variable {g r : Nat} {ev : Packet} {found : Found}

theorem chooseLeast_spec {α : Type} {weight : α → Int} {port slice : α → Nat} {candidates : List α}
    (hne : candidates ≠ []) (hle : ∀ a ∈ candidates, weight a ≤ maxWeight) :
    ∃ a ∈ candidates, chooseLeast found weight port slice candidates ev = { ev with
        next_port := some (port a)
        global_slice := slice a % 65536 } := by
  have hleast := selectAllLeast_ne_nil hne hle
  have hlt := Nat.mod_lt found.random (length_pos_of_ne_nil hleast)
  refine ⟨_, mem_of_mem_selectAllLeast (getElem_mem hlt), ?_⟩
  simp only [chooseLeast, getElem?_eq_getElem hlt]

variable {a : Candidate}

theorem mem_candidatesFor {s : Shape} {t : Topo} {group i j : Nat} {valiant : Bool} :
    a ∈ candidatesFor s t group i j valiant ↔
      port_for_group s t group i j = some a.port ∧ a.slice = i ∧ a.valiant = valiant := by
  cases a
  simp only [candidatesFor, mem_toList, map_eq_some_iff, Candidate.mk.injEq]
  constructor
  · rintro ⟨port, hport, rfl, rfl, rfl⟩
    exact ⟨hport, rfl, rfl⟩
  · rintro ⟨hport, rfl, rfl⟩
    exact ⟨_, hport, rfl, rfl, rfl⟩

theorem mem_directCandidates {s : Shape} {t : Topo} :
    a ∈ directCandidates s t ev ↔ ∃ j < s.intragroup_links, a.slice < s.intergroup_links ∧
        port_for_group s t ev.dest_group a.slice j = some a.port ∧ a.valiant = false := by
  simp only [directCandidates, mem_flatMap, mem_range, mem_candidatesFor]
  constructor
  · rintro ⟨i, hi, j, hj, hport, rfl, hdirect⟩
    exact ⟨j, hj, hi, hport, hdirect⟩
  · rintro ⟨j, hj, hi, hport, hdirect⟩
    exact ⟨_, hi, j, hj, hport, rfl, hdirect⟩

theorem mem_ugalCandidates {s : Shape} {t : Topo} :
    a ∈ ugalCandidates s t ev ↔ ∃ j < s.intragroup_links, a.slice < s.intergroup_links ∧
        ((port_for_group s t ev.dest_group a.slice j = some a.port ∧ a.valiant = false) ∨
          (port_for_group s t ev.mid_group a.slice j = some a.port ∧ a.valiant = true)) := by
  simp only [ugalCandidates, mem_flatMap, mem_range, mem_append, mem_candidatesFor]
  constructor
  · rintro ⟨i, hi, j, hj, ⟨hport, rfl, hkind⟩ | ⟨hport, rfl, hkind⟩⟩
    · exact ⟨j, hj, hi, .inl ⟨hport, hkind⟩⟩
    · exact ⟨j, hj, hi, .inr ⟨hport, hkind⟩⟩
  · rintro ⟨j, hj, hi, ⟨hport, hkind⟩ | ⟨hport, hkind⟩⟩
    · exact ⟨_, hi, j, hj, .inl ⟨hport, rfl, hkind⟩⟩
    · exact ⟨_, hi, j, hj, .inr ⟨hport, rfl, hkind⟩⟩

section

variable (hs : Setting c info vn e)
include hs

theorem Setting.exists_port (r : Nat) {d : Nat} (hg : g < c.shape.num_groups)
    (hd : d < c.shape.num_groups) (hne : d ≠ g) :
    ∃ k port, k < c.shape.intergroup_links ∧
      port_for_group c.shape (c.topoAt g r) d k 0 = some port := by
  obtain ⟨k, hk, hlive⟩ := hs.exists_live hg hd hne
  have hleaves := @leaves_of_live c g r d k 0 hs.mode_eq hs.fits16 hg hd hne hk
    c.shape.intragroup_pos hlive
  have hport := hleaves.port_eq
  split at hport
  · exact ⟨k, _, hk, hport⟩
  · exact ⟨k, _, hk, hport⟩

theorem Setting.directCandidates_ne_nil (r : Nat) (hg : g < c.shape.num_groups)
    (hd : ev.dest_group < c.shape.num_groups) (hne : ev.dest_group ≠ g) :
    directCandidates c.shape (c.topoAt g r) ev ≠ [] := by
  obtain ⟨k, port, hk, hport⟩ := hs.exists_port r hg hd hne
  have hmem : (⟨port, k, false⟩ : Candidate) ∈
      directCandidates c.shape (c.topoAt g r) ev :=
    mem_directCandidates.mpr ⟨0, c.shape.intragroup_pos, hk, hport, rfl⟩
  exact ne_nil_of_mem hmem

theorem Setting.ugalCandidates_ne_nil (r : Nat) (hg : g < c.shape.num_groups)
    (hd : ev.dest_group < c.shape.num_groups) (hne : ev.dest_group ≠ g) :
    ugalCandidates c.shape (c.topoAt g r) ev ≠ [] := by
  obtain ⟨k, port, hk, hport⟩ := hs.exists_port r hg hd hne
  have hmem : (⟨port, k, false⟩ : Candidate) ∈
      ugalCandidates c.shape (c.topoAt g r) ev :=
    mem_ugalCandidates.mpr ⟨0, c.shape.intragroup_pos, hk, .inl ⟨hport, rfl⟩⟩
  exact ne_nil_of_mem hmem

end

end Least

section Minimal

variable {c : Config} {info : VnInfo} {vn : Nat} {e : Ends}
variable {n g r p : Nat} {ev : Packet} {found : Found}

theorem continues_mina (hs : Setting c info vn e) (halgo : info.algorithm = .MIN_A)
    (hg : g < c.shape.num_groups) (hr : r < c.shape.routers_per_group)
    (hcarries : Carries c info vn e ev) (hstage : Stage c info e n g r p ev)
    (hgoes : ¬ (g = e.group ∧ r = e.router)) :
    ∃ ev', route_mina c.shape c.num_vcs (c.topoAt g r) p ev.vc found ev = some ev' ∧
      Continues c info vn e n g r ev' := by
  have hminimal : info.algorithm.IsMinimal := .inr halgo
  have hmax : info.algorithm.maxHops = 3 := by
    rw [halgo]
    rfl
  have hvcs : info.num_vcs = 2 := by
    rw [hs.num_vcs, halgo]
    rfl
  have hkeep := hcarries.keep
  have hlocal := hcarries.local_lt
  obtain rfl := hcarries.ends_eq
  unfold route_mina
  simp only [topoAt_group_id, topoAt_router_id, port_for_router_eq]
  cases hstage with
  | host hp hsrc hn hvc _ =>
    subst hn
    rw [if_pos hp]
    by_cases hgroup : ev.dest_group = g
    · have hrouter : ev.dest_router ≠ r := fun heq => hgoes ⟨hgroup.symm, heq.symm⟩
      rw [if_pos hgroup, if_neg hrouter]
      exact ⟨_, rfl, continues_within hg hr hgroup.symm hs.router_lt hrouter hlocal
        (.inl rfl) (hkeep _ _) hs.num_vcs hvc rfl⟩
    · have hoff : ev.src_group ≠ ev.dest_group := fun heq => hgroup (heq.symm.trans hsrc.symm)
      rw [if_neg hgroup]
      obtain ⟨a, ha, hroute⟩ := @chooseLeast_spec ev found Candidate
        (fun c₁ => ((hops_to_router c.shape (c.topoAt g r) ev.dest_group
            ev.dest_router c₁.slice).toInt32 *
          found.output_queue_lengths (c₁.port * c.num_vcs + ev.vc) +
          (hops_to_router c.shape (c.topoAt g r) ev.dest_group
            ev.dest_router c₁.slice).toInt32).toInt)
        Candidate.port Candidate.slice _
        (hs.directCandidates_ne_nil r hg hs.group_lt hgroup)
        (fun _ _ => Int32.toInt_le _)
      obtain ⟨j, hj, hk, hport, -⟩ := mem_directCandidates.mp ha
      refine ⟨_, congrArg some hroute, ?_⟩
      rw [hs.slice16 hk]
      exact continues_from_host hg hr hsrc hoff (hcarries.routed ev.vc _ hk)
        hs.num_vcs hvc (by simp [Targets, halgo])
        (leaves_of_port_for_group hs.mode_eq hs.fits16 hg hs.group_lt hgroup hk hj hport)
  | leavingSource hp hsrc haway hn hvc hgate =>
    subst hn
    obtain ⟨d, htarget, hrouter, hlive⟩ := hgate
    have hoff : ev.src_group ≠ ev.dest_group := fun heq => haway (heq.symm.trans hsrc.symm)
    obtain rfl : d = ev.dest_group := by simpa [Targets, halgo] using htarget
    rw [if_neg (Nat.not_lt_of_le hp.1), if_pos hp.2, if_neg haway]
    exact ⟨_, rfl, continues_from_gateway hg hoff (hkeep _ _) hs.num_vcs hvc htarget
      (leaves_of_live hs.mode_eq hs.fits16 hg hs.group_lt haway hcarries.global_lt
        hlocal hlive) hrouter⟩
  | landing hp hgroup hvc =>
    have hrouter : ev.dest_router ≠ r := fun heq => hgoes ⟨hgroup, heq.symm⟩
    obtain ⟨hvc, hn⟩ := hvc.resolve_right fun hand => hand.2.2 hminimal
    rw [if_neg (not_host hp), if_neg (Nat.not_lt_of_le hp), if_pos hgroup.symm, if_neg hrouter]
    refine ⟨_, rfl, ?_⟩
    exact continues_final hg hr hs.router_lt hgroup hrouter hlocal (hkeep _ _) rfl
      (by omega) ⟨by dsimp only; omega, by dsimp only; omega⟩
  | passing _ _ _ hnot _ _ _ => exact absurd hminimal hnot
  | leavingMidpoint _ _ _ hnot _ _ _ _ => exact absurd hminimal hnot
  | turning _ _ _ hnot _ _ => exact absurd hminimal hnot
  | final _ hgroup hrouter _ _ => exact absurd ⟨hgroup, hrouter⟩ hgoes

end Minimal

section Ugal

variable {c : Config} {info : VnInfo} {vn : Nat} {e : Ends}
variable {n g r p : Nat} {ev : Packet} {found : Found}

section

variable (hs : Setting c info vn e)
include hs

theorem gateway_of_filtered {d k num port : Nat} (hg : g < c.shape.num_groups)
    (hr : r < c.shape.routers_per_group) (hd : d < c.shape.num_groups) (hne : d ≠ g)
    (hk : k < c.shape.intergroup_links) (hnum : num < c.shape.intragroup_links)
    (hjudged : ∀ port ∈ port_for_group c.shape (c.topoAt g r) d k num,
      is_port_global c.shape port = true → c.shape.global_start ≤ port)
    (h : (port_for_group c.shape (c.topoAt g r) d k num).filter
      (is_port_global c.shape) = some port) :
    Leaves c g r d k num (some port) ∧ r = gateway c.shape c.global_routes g d k := by
  obtain ⟨hport, hglobal⟩ := filter_eq_some_iff.mp h
  have hleaves := leaves_of_port_for_group hs.mode_eq hs.fits16 hg hd hne hk hnum hport
  refine ⟨hleaves, ?_⟩
  by_contra hgate
  have hge := hjudged port hport hglobal
  have heq := hleaves.port_eq
  rw [if_neg (Ne.symm hgate)] at heq
  have hlt := localPort_lt hr (gateway_lt hg hd hne hk) (Ne.symm hgate) hnum
  rw [← some.inj heq] at hlt
  omega

theorem exists_filtered {d num : Nat} (hg : g < c.shape.num_groups) (hd : d < c.shape.num_groups)
    (hne : d ≠ g) (hk : ev.global_slice < c.shape.intergroup_links) (hgate : IsGateway c g r d ev) :
    ∃ port, (port_for_group c.shape (c.topoAt g r) d ev.global_slice num).filter
      (is_port_global c.shape) = some port := by
  have hmul := Nat.le_mul_of_pos_right (c.shape.routers_per_group - 1)
    c.shape.intragroup_pos
  obtain ⟨hrouter, hlive⟩ := hgate
  refine ⟨c.shape.global_start + gatewayPort c.shape c.global_routes g d ev.global_slice, ?_⟩
  rw [port_for_group_eq hs.mode_eq hs.fits16 hg hd hne hk, if_pos hlive,
    if_pos hrouter.symm, filter_some, if_pos]
  apply decide_eq_true
  unfold Shape.global_start
  omega

section

variable (halgo : info.algorithm = .UGAL) (hg : g < c.shape.num_groups)
variable (hr : r < c.shape.routers_per_group) (hcarries : Carries c info vn e ev)
include halgo hg hr hcarries

theorem continues_ugal_gateway (hp : IsLocal c p) (hsrc : g = e.src_group) (haway : e.group ≠ g)
    (hvc : ev.vc = info.start_vc) (hgate : ∃ d, Targets info e ev d ∧ IsGateway c g r d ev)
    (hjudged : ComparesGlobal c g r ev) :
    Continues c info vn e 1 g r
      (route_ugal c.shape c.num_vcs (c.topoAt g r) info p ev.vc found ev) := by
  obtain rfl := hcarries.ends_eq
  have hoff : ev.src_group ≠ ev.dest_group := fun heq => haway (heq.symm.trans hsrc.symm)
  obtain ⟨hmid, hmidne, -⟩ := hcarries.mid_outside hoff
  have hmidne' : ev.mid_group ≠ g := hsrc ▸ hmidne
  have hk := hcarries.global_lt
  have hnum := hcarries.local_lt
  have htargets : ∀ next_port d,
      Targets info ⟨ev.src_group, ev.dest_group, ev.dest_router, ev.dest_host⟩
        { ev with next_port := next_port } d ↔
      d = ev.dest_group ∨ d = ev.mid_group := by
    intro next_port d
    simp [Targets, halgo]
  have hgo : ∀ d port, d = ev.dest_group ∨ d = ev.mid_group →
      (port_for_group c.shape (c.topoAt g r) d ev.global_slice ev.local_slice).filter
        (is_port_global c.shape) = some port →
      Continues c info vn ⟨ev.src_group, ev.dest_group, ev.dest_router, ev.dest_host⟩
        1 g r { ev with next_port := some port } := by
    intro d port hd hport
    have hbounds : d < c.shape.num_groups ∧ d ≠ g := by
      rcases hd with rfl | rfl
      · exact ⟨hs.group_lt, haway⟩
      · exact ⟨hmid, hmidne'⟩
    obtain ⟨hleaves, hrouter⟩ := gateway_of_filtered hs hg hr hbounds.1 hbounds.2 hk
      hnum (hjudged d (by simpa using hd)) hport
    exact continues_from_gateway hg hoff (hcarries.routed ev.vc _ hk) hs.num_vcs hvc
      ((htargets _ d).mpr hd) hleaves hrouter
  unfold route_ugal
  rw [if_neg (Nat.not_lt_of_le hp.1), if_pos hp.2, topoAt_group_id, if_neg haway, if_neg hmidne']
  dsimp only
  split
  case h_1 hdirect hvaliant =>
    -- the router is a gateway to one of the two groups
    exfalso
    obtain ⟨d, htarget, hgate⟩ := hgate
    have hd : d = ev.dest_group ∨ d = ev.mid_group := by simpa [Targets, halgo] using htarget
    rcases hd with rfl | rfl
    · obtain ⟨port, hport⟩ := @exists_filtered c info vn _ g r ev hs _ ev.local_slice
        hg hs.group_lt haway hk hgate
      rw [hport] at hdirect
      cases hdirect
    · obtain ⟨port, hport⟩ := @exists_filtered c info vn _ g r ev hs _ ev.local_slice
        hg hmid hmidne' hk hgate
      rw [hport] at hvaliant
      cases hvaliant
  case h_2 hdirect _ => exact hgo _ _ (.inl rfl) hdirect
  case h_3 hvaliant => exact hgo _ _ (.inr rfl) hvaliant
  case h_4 hdirect hvaliant =>
    split
    · exact hgo _ _ (.inr rfl) hvaliant
    · exact hgo _ _ (.inl rfl) hdirect

theorem continues_ugal (hstage : Stage c info e n g r p ev) (hgoes : ¬ (g = e.group ∧ r = e.router))
    (hjudged : JudgedAt c info g r p found ev) :
    Continues c info vn e n g r
      (route_ugal c.shape c.num_vcs (c.topoAt g r) info p ev.vc found ev) := by
  have hminimal : ¬ info.algorithm.IsMinimal := by simp [RouteAlgo.IsMinimal, halgo]
  have hmax := (maxHops_ge info.algorithm).2 hminimal
  have hvcs : info.num_vcs = 3 := by
    rw [hs.num_vcs, halgo]
    rfl
  have hkeep := hcarries.keep
  have hlocal := hcarries.local_lt
  obtain rfl := hcarries.ends_eq
  cases hstage with
  | host hp hsrc hn hvc hmid =>
    subst hn
    unfold route_ugal
    simp only [topoAt_group_id, topoAt_router_id, port_for_router_eq]
    rw [if_pos hp]
    by_cases hgroup : ev.dest_group = g
    · have hrouter : ev.dest_router ≠ r := fun heq => hgoes ⟨hgroup.symm, heq.symm⟩
      rw [if_pos hgroup, if_neg hrouter]
      split
      · exact continues_within hg hr hgroup.symm hs.router_lt hrouter hlocal
          (.inl rfl) (hkeep _ _) hs.num_vcs hvc rfl
      · exact continues_within hg hr hgroup.symm
          (hcarries.mid_inside (hsrc.symm.trans hgroup.symm))
          ((hmid hgroup).resolve_left hrouter) hlocal (.inr hminimal) (hkeep _ _)
          hs.num_vcs hvc rfl
    · have hoff : ev.src_group ≠ ev.dest_group := fun heq => hgroup (heq.symm.trans hsrc.symm)
      obtain ⟨hlt, hne, -⟩ := hcarries.mid_outside hoff
      rw [if_neg hgroup]
      obtain ⟨a, ha, hroute⟩ := @chooseLeast_spec ev found Candidate
        (fun c₁ => if c₁.valiant = true then
          valiantWeightOf c.num_vcs info.bias found c₁.port ev.vc
        else
          weightOf c.num_vcs found c₁.port ev.vc)
        Candidate.port Candidate.slice _
        (hs.ugalCandidates_ne_nil r hg hs.group_lt hgroup)
        (fun _ _ => by split <;> exact Int32.toInt_le _)
      obtain ⟨j, hj, hk, hport⟩ := mem_ugalCandidates.mp ha
      rw [hroute, hs.slice16 hk]
      rcases hport with ⟨hport, -⟩ | ⟨hport, -⟩
      · exact continues_from_host hg hr hsrc hoff (hcarries.routed ev.vc _ hk)
          hs.num_vcs hvc (d := ev.dest_group) (by simp [Targets, halgo])
          (leaves_of_port_for_group hs.mode_eq hs.fits16 hg hs.group_lt hgroup hk hj hport)
      · exact continues_from_host hg hr hsrc hoff (hcarries.routed ev.vc _ hk)
          hs.num_vcs hvc (d := ev.mid_group) (by simp [Targets, halgo])
          (leaves_of_port_for_group hs.mode_eq hs.fits16 hg hlt (hsrc ▸ hne) hk hj hport)
  | leavingSource hp hsrc haway hn hvc hgate =>
    subst hn
    have hmidne : ev.mid_group ≠ g := by
      have hoff : ev.src_group ≠ ev.dest_group := fun heq => haway (heq.symm.trans hsrc.symm)
      exact hsrc ▸ (hcarries.mid_outside hoff).2.1
    exact continues_ugal_gateway hs halgo hg hr hcarries hp hsrc haway hvc hgate
      (hjudged.1 halgo hp haway hmidne)
  | passing hp haway hoff _ hn hvc hmid =>
    unfold route_ugal
    simp only [topoAt_group_id, topoAt_router_id, port_for_router_eq]
    rw [if_neg (not_host hp), if_neg (Nat.not_lt_of_le hp), if_neg haway]
    obtain ⟨a, ha, hroute⟩ := @chooseLeast_spec { ev with vc := ev.vc + 1 } found
      Candidate
      (fun c₁ => if is_port_global c.shape c₁.port = true then
        weightOf c.num_vcs found c₁.port (ev.vc + 1)
      else
        (found.output_queue_lengths (c₁.port * c.num_vcs + (ev.vc + 1)) * 2).toInt)
      Candidate.port Candidate.slice _
      (@Setting.directCandidates_ne_nil c info vn _ g { ev with vc := ev.vc + 1 } hs r
        hg hs.group_lt haway)
      (fun _ _ => by split <;> exact Int32.toInt_le _)
    obtain ⟨j, hj, hk, hport, -⟩ := mem_directCandidates.mp ha
    rw [hroute, hs.slice16 hk]
    exact continues_from_midpoint hg hr haway hoff hminimal hn
      (hcarries.routed _ _ hk) hs.num_vcs (congrArg (· + 1) hvc) (.inl hmid)
      (leaves_of_port_for_group hs.mode_eq hs.fits16 hg hs.group_lt haway hk hj hport)
  | leavingMidpoint hp haway hoff _ hn hvc hmid hgate =>
    have hmid' : ev.mid_group = g := hmid.resolve_right (fun hand => hand.2 halgo)
    unfold route_ugal
    rw [if_neg (Nat.not_lt_of_le hp.1), if_pos hp.2, topoAt_group_id, if_neg haway, if_pos hmid']
    exact continues_from_midpoint_gateway hg hminimal hn (hkeep _ _) hs.num_vcs hvc
      (leaves_of_live hs.mode_eq hs.fits16 hg hs.group_lt haway hcarries.global_lt
        hlocal hgate.2) hgate.1
  | landing hp hgroup hvc =>
    have hrouter : ev.dest_router ≠ r := fun heq => hgoes ⟨hgroup, heq.symm⟩
    unfold route_ugal
    simp only [topoAt_group_id, topoAt_router_id, port_for_router_eq]
    rw [if_neg (not_host hp), if_neg (Nat.not_lt_of_le hp), if_pos hgroup.symm, if_neg hrouter]
    exact continues_final hg hr hs.router_lt hgroup hrouter hlocal (hkeep _ _) rfl
      (by omega) ⟨by dsimp only; omega, by dsimp only; omega⟩
  | turning hp hgroup hrouter _ hn hvc =>
    unfold route_ugal
    simp only [topoAt_group_id, topoAt_router_id, port_for_router_eq]
    rw [if_neg (Nat.not_lt_of_le hp.1), if_pos hp.2, if_pos hgroup.symm, if_neg hrouter.symm]
    exact continues_final hg hr hs.router_lt hgroup hrouter.symm hlocal (hkeep _ _)
      rfl (by omega) ⟨by dsimp only; omega, by dsimp only; omega⟩
  | final _ hgroup hrouter _ _ => exact absurd ⟨hgroup, hrouter⟩ hgoes

end

end

end Ugal

end SstElements.Merlin.Dragonfly
