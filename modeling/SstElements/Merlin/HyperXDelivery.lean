import SstElements.Merlin.HyperXRouting

/-!
# Delivery in a HyperX

The adaptive algorithms but VDAL compare weights strictly with the largest
number there is, so they find no port if every queue is that long.  Wherever
one of the compared weights is smaller, a packet comes closer to its
destination within the hops and the VCs of its algorithm.
-/

namespace SstElements.Merlin.HyperX

open Library.WiredNetwork Library.MixedRadix List Option

section Settling

/--
The weights that a router compares with the largest weight there is, if it
routes the packet by such a comparison.
-/
def comparedWeights (s : Shape) (num_vcs : Nat) (t : Topo) (found : Found)
    (port : Nat) (ev : Packet) : Option (List Int) :=
  if get_dest_router s ev.dest = t.router_id then
    none
  else
    match t.vns[ev.vn]? with
    | none => none
    | some info =>
      match info.algorithm with
      | .DOR => none
      | .DORND => weightsDORND s num_vcs t ev.vc found ev.dest_loc
      | .MINA => some (weightsMINA s num_vcs t info port ev.vc found ev)
      | .VALIANT => none
      | .DOAL => weightsDOAL s num_vcs t info ev.vc found ev
      | .VDAL =>
        if ((unalignedDimensions s t ev).length : Int) =
            info.num_vcs - vcInVn s info port ev.vc - 1 then
          some (weightsMINA s num_vcs t info port ev.vc found ev)
        else
          none

/-- Some weight that the router compares is not the largest weight there is. -/
def Settles (c : Config) (found : Found) (r port : Nat) (ev : Packet) : Prop :=
  ∀ t ∈ c.topo r, ∀ ws ∈ comparedWeights c.shape c.num_vcs t found port ev,
    ∃ w ∈ ws, w < maxWeight
deriving Decidable

end Settling

section Hops

/-- The most hops between routers, from the dimensions that are not aligned. -/
def RouteAlgo.maxHops (dimensions open_dims : Nat) : RouteAlgo → Nat
  | .DOR => open_dims
  | .DORND => open_dims
  | .MINA => open_dims
  | .VALIANT => 2 * dimensions
  | .DOAL => 2 * open_dims
  | .VDAL => 2 * dimensions

/-- The algorithms that take a new VC for every hop. -/
def RouteAlgo.AscendsVcs (algo : RouteAlgo) : Prop := algo = .MINA ∨ algo = .VDAL

def VnInfo.Has (info : VnInfo) (vc : Nat) : Prop :=
  info.start_vc ≤ vc ∧ vc < info.start_vc + info.num_vcs

variable (c : Config) (info : VnInfo)

def Config.topoAt (x : List Nat) : Topo where
  router_id := rtrId c.shape x
  id_loc := x
  vns := setupVns c.shape.dimensions 0 c.algorithms

/-- The number of dimensions in which two locations differ. -/
def Config.open_dims (x q : List Nat) : Nat := (unaligned c.shape x q).length

/-- A packet for a node that has come to the router at a location. -/
structure Arrived (dest vn : Nat) (mid x : List Nat) (pkt : Packet) : Prop where
  fits : Fits c.shape.sizes x
  dest_eq : pkt.dest = dest
  vn_eq : pkt.vn = vn
  dest_loc : pkt.dest_loc = nodeLocation c.shape dest
  val_loc : pkt.val_loc = mid
  has_vc : info.Has pkt.vc

/--
The hops that are left to a packet: what its VC and its input port say about
the hops it has made, and how many more it may make.
-/
def Allows (bound n : Nat) (q mid x : List Nat) (p : Nat) (pkt : Packet) : Prop :=
  match info.algorithm with
  | .DOR => pkt.vc = info.start_vc ∧ c.open_dims x q + n = bound
  | .DORND => pkt.vc = info.start_vc ∧ c.open_dims x q + n = bound
  | .MINA =>
    vcInVn c.shape info p pkt.vc = (n : Int) - 1 ∧
      c.open_dims x q + n = bound
  | .VALIANT =>
    if pkt.val_route_dest then
      pkt.vc = info.start_vc + 1 ∧ c.open_dims x q + n ≤ bound
    else
      pkt.vc = info.start_vc ∧
        c.open_dims x mid + c.open_dims mid q + n ≤ bound
  | .DOAL =>
    (pkt.vc = info.start_vc ∧ 2 * c.open_dims x q + n ≤ bound) ∨
      (pkt.vc = info.start_vc + 1 ∧ 2 * c.open_dims x q + n ≤ bound + 1)
  | .VDAL =>
    vcInVn c.shape info p pkt.vc = (n : Int) - 1 ∧
      c.open_dims x q + n ≤ bound

/-- The packet is at the router of its destination and need not go elsewhere. -/
def Arrives (dest : Nat) (mid : List Nat) (r : Nat) (pkt : Packet) : Prop :=
  r = get_dest_router c.shape dest ∧
    (info.algorithm = .VALIANT → pkt.val_route_dest = false → r = rtrId c.shape mid)

/-- The VC that is assigned to a packet on the hop of a number. -/
def GoodVc (n vc : Nat) : Prop := info.Has vc ∧ (info.algorithm.AscendsVcs → vc = info.start_vc + n)

variable {c info}

theorem Config.topo_rtrId {x : List Nat} (hx : Fits c.shape.sizes x) :
    c.topo (rtrId c.shape x) = some (c.topoAt x) := by
  have hports : ¬ radix c.shape <
      local_port_start c.shape + c.shape.local_ports := by
    rw [radix_eq]
    exact lt_irrefl _
  rw [Config.topo, if_pos (rtrId_lt hx), topo_hyperx, if_neg hports, idToLocation_rtrId hx]
  rfl

theorem open_dims_le (x q : List Nat) : c.open_dims x q ≤ c.shape.dimensions :=
  unaligned_length_le x q

end Hops

variable {s : Shape}

section Steps

variable {c : Config} {info : VnInfo} {dest vn bound n p : Nat}
variable {mid x q : List Nat} {ev ev' : Packet} {found : Found}

/-- The routed packet takes a link on a VC that the invariant allows. -/
def Continues (c : Config) (info : VnInfo) (bound n : Nat)
    (q mid x : List Nat) (ev' : Packet) : Prop :=
  ∃ q' d v num, Moves c.shape x q' ev' d v num ∧ n < bound ∧
    GoodVc info n ev'.vc ∧
    Allows c info bound (n + 1) q mid (x.set d v)
      (portOf c.shape (x.set d v) d (x.getD d 0) num) ev'

variable {d v num u : Nat}

theorem Moves.dim_lt (h : Moves s x q ev d v num) : d < s.dimensions :=
  (mem_unaligned.mp h.open_dim).1

section

variable (hx : Fits c.shape.sizes x)
include hx

theorem Moves.open_dims_align (h : Moves c.shape x q ev d (q.getD d 0) num) :
    c.open_dims (x.set d (q.getD d 0)) q + 1 = c.open_dims x q :=
  unaligned_align hx h.open_dim

theorem Moves.open_dims_le {d v num : Nat} (h : Moves c.shape x q ev d v num) :
    c.open_dims (x.set d v) q ≤ c.open_dims x q := by
  by_cases hv : v = q.getD d 0
  · subst hv
    have := h.open_dims_align hx
    omega
  · exact le_of_eq
      (congrArg List.length (unaligned_misroute hx h.open_dim hv))

theorem Moves.vcInVn_next {d v num : Nat} (h : Moves c.shape x q ev d v num) (vc : Nat) :
    vcInVn c.shape info (portOf c.shape (x.set d v) d (x.getD d 0) num) vc =
      (vc : Int) - info.start_vc := by
  have hself : (x.set d v).getD d 0 = v := by rw [set_getD hx h.dim_lt, if_pos rfl]
  have hlt := portOf_lt_local (hx.set h.value_lt) h.dim_lt
    (hx.getD_lt h.dim_lt) (hself.symm ▸ h.differs.symm) h.num_lt
  rw [vcInVn, if_neg (Nat.not_le_of_lt hlt)]

theorem open_dims_pos (hq : Fits c.shape.sizes q) (hne : x ≠ q) : 0 < c.open_dims x q :=
  unaligned_pos hx hq hne

end

theorem nextVc_eq {vc : Nat} (h : vcInVn c.shape info p vc = (n : Int) - 1) :
    nextVc c.shape info p vc = info.start_vc + n := by
  rw [nextVc, h]
  omega

theorem exists_next_port (s : Shape) (t : Topo) (ev : Packet) :
    ∃ next_port, routeDOR s t ev.vc ev = { ev with next_port := next_port } := by
  unfold routeDOR
  split <;> exact ⟨_, rfl⟩

section

variable (hx : Fits c.shape.sizes x)
include hx

theorem continues_of_dor (halgo : info.algorithm = .DOR ∨ info.algorithm = .DORND)
    (hallows : Allows c info bound n q mid x p ev) (haligns : Aligns c.shape x q ev')
    (hvc : ev'.vc = ev.vc) (hhas : info.Has ev.vc) (hpos : 0 < c.open_dims x q) :
    Continues c info bound n q mid x ev' := by
  obtain ⟨d, num, hmoves⟩ := haligns
  have halign := hmoves.open_dims_align hx
  obtain ⟨hstart, hcount⟩ :
      ev.vc = info.start_vc ∧ c.open_dims x q + n = bound := by
    rcases halgo with halgo | halgo <;> simpa only [Allows, halgo] using hallows
  refine ⟨q, d, _, num, hmoves, by omega, ⟨hvc ▸ hhas, ?_⟩, ?_⟩
  · rcases halgo with halgo | halgo <;> simp [RouteAlgo.AscendsVcs, halgo]
  · rcases halgo with halgo | halgo <;> simp only [Allows, halgo] <;> omega

theorem continues_of_mina (hmina : info.algorithm = .MINA ∨ info.algorithm = .VDAL)
    (hallows : Allows c info bound n q mid x p ev) (haligns : Aligns c.shape x q ev')
    (hvc : ev'.vc = nextVc c.shape info p ev.vc) (hpos : 0 < c.open_dims x q)
    (hbound : bound ≤ info.num_vcs) :
    Continues c info bound n q mid x ev' := by
  obtain ⟨d, num, hmoves⟩ := haligns
  have halign := hmoves.open_dims_align hx
  have hnext := @Moves.vcInVn_next c info _ _ _ hx _ _ _ hmoves ev'.vc
  obtain ⟨hchannel, hcount⟩ :
      vcInVn c.shape info p ev.vc = (n : Int) - 1 ∧
        c.open_dims x q + n ≤ bound := by
    rcases hmina with halgo | halgo <;> simp only [Allows, halgo] at hallows
    · exact ⟨hallows.1, le_of_eq hallows.2⟩
    · exact hallows
  rw [nextVc_eq hchannel] at hvc
  refine ⟨q, d, _, num, hmoves, by omega, ⟨⟨by omega, by omega⟩, fun _ => hvc⟩,
    ?_⟩
  rcases hmina with halgo | halgo <;> simp only [Allows, halgo] at hallows ⊢ <;>
    rw [hnext] <;> omega

theorem continues_of_vdal (halgo : info.algorithm = .VDAL)
    (hallows : Allows c info bound n q mid x p ev) (hmoves : Moves c.shape x q ev' d v num)
    (hvc : ev'.vc = nextVc c.shape info p ev.vc) (hpos : 0 < c.open_dims x q)
    (hbound : bound = info.num_vcs)
    (hspare : ¬ (c.open_dims x q : Int) = info.num_vcs - vcInVn c.shape info p ev.vc - 1) :
    Continues c info bound n q mid x ev' := by
  have hle := hmoves.open_dims_le hx
  have hnext := @Moves.vcInVn_next c info _ _ _ hx _ _ _ hmoves ev'.vc
  simp only [Allows, halgo] at hallows
  obtain ⟨hchannel, hcount⟩ := hallows
  rw [nextVc_eq hchannel] at hvc
  refine ⟨q, d, v, num, hmoves, by omega, ⟨⟨by omega, by omega⟩, fun _ => hvc⟩,
    ?_⟩
  simp only [Allows, halgo]
  rw [hnext]
  omega

theorem continues_of_valiant (halgo : info.algorithm = .VALIANT) (hvcs : info.num_vcs = 2)
    (hallows : Allows c info bound n q mid x p ev)
    (hstep :
      (ev.val_route_dest = false ∧ Aligns c.shape x mid ev' ∧
        ev'.vc = ev.vc ∧ ev'.val_route_dest = false) ∨
      (ev.val_route_dest = false ∧ x = mid ∧ Aligns c.shape x q ev' ∧
        ev'.vc = ev.vc + 1 ∧ ev'.val_route_dest = true) ∨
      (ev.val_route_dest = true ∧ Aligns c.shape x q ev' ∧
        ev'.vc = ev.vc ∧ ev'.val_route_dest = true)) :
    Continues c info bound n q mid x ev' := by
  have hgood : ∀ vc, info.Has vc → GoodVc info n vc := fun vc hhas =>
    ⟨hhas, by simp [RouteAlgo.AscendsVcs, halgo]⟩
  simp only [Allows, halgo] at hallows
  rcases hstep with ⟨hphase, ⟨d, num, hmoves⟩, hvc, hphase'⟩ |
    ⟨hphase, rfl, ⟨d, num, hmoves⟩, hvc, hphase'⟩ |
    ⟨hphase, ⟨d, num, hmoves⟩, hvc, hphase'⟩
  all_goals
    have halign := hmoves.open_dims_align hx
    simp only [hphase, Bool.false_eq_true, if_false, if_true] at hallows
  · refine ⟨mid, d, _, num, hmoves, by omega,
      hgood _ ⟨by omega, by omega⟩, ?_⟩
    simp only [Allows, halgo, hphase', Bool.false_eq_true, if_false]
    omega
  · refine ⟨q, d, _, num, hmoves, by omega,
      hgood _ ⟨by omega, by omega⟩, ?_⟩
    simp only [Allows, halgo, hphase', if_true]
    omega
  · refine ⟨q, d, _, num, hmoves, by omega,
      hgood _ ⟨by omega, by omega⟩, ?_⟩
    simp only [Allows, halgo, hphase', if_true]
    omega

theorem continues_of_doal (halgo : info.algorithm = .DOAL) (hvcs : info.num_vcs = 2)
    (hallows : Allows c info bound n q mid x p ev) (hmoves : Moves c.shape x q ev' d v num)
    (hpos : 0 < c.open_dims x q)
    (hstep :
      (ev.vc = info.start_vc ∧
        ev'.vc = if v = q.getD d 0 then info.start_vc else info.start_vc + 1) ∨
      (ev.vc = info.start_vc + 1 ∧ v = q.getD d 0 ∧ ev'.vc = info.start_vc)) :
    Continues c info bound n q mid x ev' := by
  have hgood : ∀ vc, info.Has vc → GoodVc info n vc := fun vc hhas =>
    ⟨hhas, by simp [RouteAlgo.AscendsVcs, halgo]⟩
  have hle := hmoves.open_dims_le hx
  have halign : v = q.getD d 0 →
      c.open_dims (x.set d v) q + 1 = c.open_dims x q := by
    rintro rfl
    exact hmoves.open_dims_align hx
  simp only [Allows, halgo] at hallows
  rcases hstep with ⟨hvc, hvc'⟩ | ⟨hvc, hv, hvc'⟩
  · split at hvc'
    · rename_i hv
      refine ⟨q, d, v, num, hmoves, by omega, hgood _ ⟨by omega, by omega⟩, ?_⟩
      simp only [Allows, halgo]
      omega
    · refine ⟨q, d, v, num, hmoves, by omega, hgood _ ⟨by omega, by omega⟩, ?_⟩
      simp only [Allows, halgo]
      omega
  · have := halign hv
    refine ⟨q, d, v, num, hmoves, by omega, hgood _ ⟨by omega, by omega⟩, ?_⟩
    simp only [Allows, halgo]
    omega

end

/-- What the steps of a packet away from its destination have in common. -/
structure Underway (c : Config) (info : VnInfo) (dest vn u : Nat)
    (mid x : List Nat) (ev : Packet) : Prop extends
    Arrived c info dest vn mid x ev where
  dest_lt : dest < c.shape.num_nodes
  mid_fits : info.algorithm = .VALIANT → Fits c.shape.sizes mid
  vn_info : (setupVns c.shape.dimensions 0 c.algorithms)[vn]? = some info
  num_vcs : info.num_vcs = info.algorithm.num_vcs c.shape.dimensions
  open_le : u ≤ c.shape.dimensions
  goes : ¬ Arrives c info dest mid (rtrId c.shape x) ev

section

variable (h : Underway c info dest vn u mid x ev)
include h

theorem Underway.away (hphase : info.algorithm = .VALIANT → ev.val_route_dest = false → x = mid) :
    x ≠ nodeLocation c.shape dest := by
  intro heq
  refine h.goes ⟨?_, fun halgo hfalse => by rw [← hphase halgo hfalse]⟩
  rw [heq, rtrId_nodeLocation h.dest_lt]

theorem Underway.continues_valiant (halgo : info.algorithm = .VALIANT)
    (hallows : Allows c info bound n (nodeLocation c.shape dest) mid x p ev) (next_port : Int) :
    Continues c info bound n (nodeLocation c.shape dest) mid x
      (routeValiant c.shape (c.topoAt x) ev.vc
        { ev with next_port := next_port }) := by
  have hx := h.fits
  have hq := nodeLocation_fits h.dest_lt
  apply continues_of_valiant hx halgo (h.num_vcs.trans (by rw [halgo]; rfl))
    hallows
  by_cases hphase : ev.val_route_dest = true
  · have haway := h.away fun _ hfalse => by
      rw [hphase] at hfalse
      cases hfalse
    exact .inr (.inr ⟨hphase, routeValiant_to_dest hx hq haway rfl h.dest_loc hphase⟩)
  · rw [Bool.not_eq_true] at hphase
    by_cases hxm : x = mid
    · exact .inr (.inl ⟨hphase, hxm,
        routeValiant_turns hx hq (h.away fun _ _ => hxm) rfl h.dest_loc
          (h.val_loc.trans hxm.symm) hphase⟩)
    · exact .inl ⟨hphase, routeValiant_to_midpoint hx (h.mid_fits halgo) hxm rfl h.val_loc hphase⟩

theorem Underway.continues_doal (halgo : info.algorithm = .DOAL)
    (hallows : Allows c info bound n (nodeLocation c.shape dest) mid x p ev)
    (haway : x ≠ nodeLocation c.shape dest)
    (hrouter : get_dest_router c.shape ev.dest ≠ (c.topoAt x).router_id)
    (hbelow : ∀ ws ∈ weightsDOAL c.shape c.num_vcs (c.topoAt x) info ev.vc
      found ev, ∃ w ∈ ws, w < maxWeight)
    (next_port : Int) :
    Continues c info bound n (nodeLocation c.shape dest) mid x
      (routeDOAL c.shape c.num_vcs (c.topoAt x) info ev.vc found
        { ev with next_port := next_port }) := by
  have hx := h.fits
  have hq := nodeLocation_fits h.dest_lt
  have hpos := @open_dims_pos c _ _ hx hq haway
  have hvcs : info.num_vcs = 2 := h.num_vcs.trans (by rw [halgo]; rfl)
  have hchannel : ev.vc = info.start_vc ∨ ev.vc = info.start_vc + 1 := by
    simp only [Allows, halgo] at hallows
    omega
  rcases hchannel with hvc | hvc
  · obtain ⟨d, v, num, hmoves, hvc'⟩ :=
      @routeDOAL_adaptive c.shape c.num_vcs (c.topoAt x) ev.vc found
        { ev with next_port := next_port } info _ _ hx hq haway rfl h.dest_loc
        hrouter hvc hbelow
    exact continues_of_doal hx halgo hvcs hallows hmoves hpos
      (.inl ⟨hvc, hvc'⟩)
  · obtain ⟨⟨d, num, hmoves⟩, hvc'⟩ :=
      @routeDOAL_aligns c.shape c.num_vcs (c.topoAt x) ev.vc found
        { ev with next_port := next_port } info _ _ hx hq haway rfl h.dest_loc
        hrouter hvc hbelow
    exact continues_of_doal hx halgo hvcs hallows hmoves hpos
      (.inr ⟨hvc, rfl, hvc'⟩)

theorem Underway.continues_vdal (halgo : info.algorithm = .VDAL)
    (hbound : bound = 2 * c.shape.dimensions)
    (hallows : Allows c info bound n (nodeLocation c.shape dest) mid x p ev)
    (haway : x ≠ nodeLocation c.shape dest)
    (hrouter : get_dest_router c.shape ev.dest ≠ (c.topoAt x).router_id)
    (hbelow : ((unalignedDimensions c.shape (c.topoAt x) ev).length : Int) =
        info.num_vcs - vcInVn c.shape info p ev.vc - 1 →
      ∃ w ∈ weightsMINA c.shape c.num_vcs (c.topoAt x) info p ev.vc found ev, w < maxWeight)
    (next_port : Int) :
    Continues c info bound n (nodeLocation c.shape dest) mid x
      (routeVDAL c.shape c.num_vcs (c.topoAt x) info p ev.vc found
        { ev with next_port := next_port }) := by
  have hx := h.fits
  have hq := nodeLocation_fits h.dest_lt
  have hpos := @open_dims_pos c _ _ hx hq haway
  have hvcs : bound = info.num_vcs := hbound.trans (h.num_vcs.trans (by rw [halgo]; rfl)).symm
  by_cases hspare : ((unalignedDimensions c.shape (c.topoAt x) ev).length : Int) =
      info.num_vcs - vcInVn c.shape info p ev.vc - 1
  · have hroute : routeVDAL c.shape c.num_vcs (c.topoAt x) info p ev.vc found
        { ev with next_port := next_port } =
          routeMINA c.shape c.num_vcs (c.topoAt x) info p ev.vc found
            { ev with next_port := next_port } := by
      rw [routeVDAL, if_neg hrouter]
      exact if_pos hspare
    obtain ⟨haligns, hvc⟩ :=
      @routeMINA_aligns c.shape c.num_vcs (c.topoAt x) ev.vc found
        { ev with next_port := next_port } info x _ p hq rfl h.dest_loc hrouter
        (hbelow hspare)
    rw [hroute]
    exact continues_of_mina hx (.inr halgo) hallows haligns hvc hpos
      (le_of_eq hvcs)
  · obtain ⟨d, v, num, hmoves, hvc⟩ :=
      @routeVDAL_adaptive c.shape c.num_vcs (c.topoAt x) ev.vc found
        { ev with next_port := next_port } info _ _ p hx hq haway rfl h.dest_loc
        hrouter hspare
    refine continues_of_vdal hx halgo hallows hmoves hvc hpos hvcs ?_
    rw [← h.dest_loc]
    exact hspare

theorem Underway.continues (hbound : bound = info.algorithm.maxHops c.shape.dimensions u)
    (hallows : Allows c info bound n (nodeLocation c.shape dest) mid x p ev)
    (hsettles : Settles c found (rtrId c.shape x) p ev) :
    Continues c info bound n (nodeLocation c.shape dest) mid x
      (route_packet c.shape c.num_vcs (c.topoAt x) p ev.vc found ev) := by
  have hx := h.fits
  have hq := nodeLocation_fits h.dest_lt
  have hu := h.open_le
  have hnumVcs := h.num_vcs
  obtain ⟨next_port, hdor⟩ := exists_next_port c.shape (c.topoAt x) ev
  have hvn : (c.topoAt x).vns[ev.vn]? = some info := h.vn_eq ▸ h.vn_info
  simp only [route_packet, hdor, hvn]
  by_cases hvaliant : info.algorithm = .VALIANT
  · simp only [hvaliant]
    exact h.continues_valiant hvaliant hallows next_port
  · have haway := h.away fun halgo => absurd halgo hvaliant
    have hpos := @open_dims_pos c _ _ hx hq haway
    have hrouter : get_dest_router c.shape ev.dest ≠ (c.topoAt x).router_id := by
      intro heq
      rw [h.dest_eq, ← rtrId_nodeLocation h.dest_lt] at heq
      exact haway (rtrId_inj hx hq heq.symm)
    have hweights := hsettles _ (Config.topo_rtrId hx)
    simp only [comparedWeights, if_neg hrouter, hvn] at hweights
    cases halgo : info.algorithm with
    | VALIANT => exact absurd halgo hvaliant
    | DOR =>
      obtain ⟨haligns, hvc⟩ := @routeDOR_aligns c.shape (c.topoAt x) ev.vc ev
        _ _ hx hq haway rfl h.dest_loc
      rw [hdor] at haligns hvc
      exact continues_of_dor hx (.inl halgo) hallows haligns hvc h.has_vc hpos
    | DORND =>
      simp only [halgo, h.dest_loc] at hweights
      obtain ⟨haligns, hvc⟩ :=
        @routeDORND_aligns c.shape c.num_vcs (c.topoAt x) ev.vc found
          { ev with next_port := next_port } _ _ hx hq haway rfl h.dest_loc
          hweights
      exact continues_of_dor hx (.inr halgo) hallows haligns hvc h.has_vc hpos
    | MINA =>
      simp only [halgo] at hweights
      obtain ⟨haligns, hvc⟩ :=
        @routeMINA_aligns c.shape c.num_vcs (c.topoAt x) ev.vc found
          { ev with next_port := next_port } info x _ p hq rfl h.dest_loc
          hrouter (hweights _ rfl)
      rw [halgo] at hbound hnumVcs
      exact continues_of_mina hx (.inl halgo) hallows haligns hvc hpos
        (hbound ▸ hnumVcs ▸ hu)
    | DOAL =>
      simp only [halgo] at hweights
      exact h.continues_doal halgo hallows haway hrouter hweights next_port
    | VDAL =>
      simp only [halgo] at hweights
      rw [halgo] at hbound
      refine h.continues_vdal halgo hbound hallows haway hrouter ?_ next_port
      intro hspare
      rw [if_pos hspare] at hweights
      exact hweights _ rfl

end

end Steps

section Runs

variable {c : Config} {info : VnInfo} {dest vn bound n p u : Nat}
variable {mid x : List Nat} {ev : Packet} {found : Found}

/-- A packet that has made a number of hops. -/
def OnWay (c : Config) (info : VnInfo) (dest vn bound : Nat) (mid : List Nat)
    (n r p : Nat) (ev : Packet) : Prop :=
  ∃ x, r = rtrId c.shape x ∧ Arrived c info dest vn mid x ev ∧
    Allows c info bound n (nodeLocation c.shape dest) mid x p ev

theorem Moves.network_route {q : List Nat} {d v num : Nat} (hx : Fits c.shape.sizes x)
    (h : Moves c.shape x q (route_packet c.shape c.num_vcs (c.topoAt x) p ev.vc found ev) d v num) :
    c.network.route found (rtrId c.shape x) p ev =
      some (route_packet c.shape c.num_vcs (c.topoAt x) p ev.vc found ev,
        portOf c.shape x d v num) := by
  simp only [Config.network, Config.topo_rtrId hx, h.next_port]
  rfl

theorem OnWay.step {r : Nat} (h : OnWay c info dest vn bound mid n r p ev)
    (hdest : dest < c.shape.num_nodes) (hmid : info.algorithm = .VALIANT → Fits c.shape.sizes mid)
    (hvn : (setupVns c.shape.dimensions 0 c.algorithms)[vn]? = some info)
    (hvcs : info.num_vcs = info.algorithm.num_vcs c.shape.dimensions) (hu : u ≤ c.shape.dimensions)
    (hbound : bound = info.algorithm.maxHops c.shape.dimensions u)
    (hgoes : ¬ Arrives c info dest mid r ev) (hsettles : Settles c found r p ev) :
    n < bound ∧ ∃ ev' out r' p', c.network.route found r p ev = some (ev', out) ∧
      across c.network.wiring (.router r out) = some (.router r' p') ∧ GoodVc info n ev'.vc ∧
      OnWay c info dest vn bound mid (n + 1) r' p' ev' := by
  obtain ⟨x, rfl, harrived, hallows⟩ := h
  have hx := harrived.fits
  have hunder : Underway c info dest vn u mid x ev := ⟨harrived, hdest, hmid, hvn, hvcs, hu, hgoes⟩
  obtain ⟨q', d, v, num, hmoves, hlt, hgood, hnext⟩ := hunder.continues hbound hallows hsettles
  have hkeeps := @route_packet_keeps c.shape c.num_vcs (c.topoAt x) p ev.vc
    found ev
  refine ⟨hlt, _, _, _, _, hmoves.network_route hx,
    across_value hx hmoves.dim_lt hmoves.value_lt hmoves.differs hmoves.num_lt,
    hgood, x.set d v, rfl, ?_, hnext⟩
  exact {
    fits := hx.set hmoves.value_lt
    dest_eq := hkeeps.dest_eq.trans harrived.dest_eq
    vn_eq := hkeeps.vn_eq.trans harrived.vn_eq
    dest_loc := hkeeps.dest_loc_eq.trans harrived.dest_loc
    val_loc := hkeeps.val_loc_eq.trans harrived.val_loc
    has_vc := hgood.1 }

theorem Arrived.route_local (h : Arrived c info dest vn mid (nodeLocation c.shape dest) ev)
    (hdest : dest < c.shape.num_nodes)
    (hvn : (setupVns c.shape.dimensions 0 c.algorithms)[vn]? = some info)
    (hphase : info.algorithm = .VALIANT → ev.val_route_dest = false →
      ev.val_loc = nodeLocation c.shape dest) :
    ∃ ev', c.network.route found (get_dest_router c.shape dest) p ev =
        some (ev', get_dest_local_port c.shape dest) ∧ ev'.vc = ev.vc := by
  have hbase : routeDORBase c.shape
      (c.topoAt (nodeLocation c.shape dest)) ev.dest_loc = none := by
    rw [h.dest_loc]
    exact routeDORBase_self
  have hself : get_dest_router c.shape dest =
      (c.topoAt (nodeLocation c.shape dest)).router_id :=
    (rtrId_nodeLocation hdest).symm
  have hvn' : (c.topoAt (nodeLocation c.shape dest)).vns[ev.vn]? = some info := h.vn_eq ▸ hvn
  have htopo := Config.topo_rtrId h.fits
  rw [rtrId_nodeLocation hdest] at htopo
  obtain ⟨hport, hvc⟩ :
      (route_packet c.shape c.num_vcs (c.topoAt (nodeLocation c.shape dest))
          p ev.vc found ev).next_port =
        get_dest_local_port c.shape dest ∧
      (route_packet c.shape c.num_vcs (c.topoAt (nodeLocation c.shape dest))
          p ev.vc found ev).vc = ev.vc := by
    simp only [route_packet, routeDOR, hbase, hvn']
    cases halgo : info.algorithm with
    | DOR => simp [h.dest_eq]
    | DORND => simp [routeDORND, hbase, h.dest_eq]
    | MINA => simp [routeMINA, hself, h.dest_eq]
    | DOAL => simp [routeDOAL, hself, h.dest_eq]
    | VDAL => simp [routeVDAL, hself, h.dest_eq]
    | VALIANT =>
      cases hdone : ev.val_route_dest with
      | true => simp [routeValiant, hbase, h.dest_eq]
      | false =>
        have hmid := hphase halgo hdone
        rw [h.dest_loc] at hbase
        simp [routeValiant, hmid, h.dest_loc, hbase, h.dest_eq]
  refine ⟨_, ?_, hvc⟩
  simp only [Config.network, htopo, hport]
  rfl

end Runs

section Main

/-- The number of dimensions in which the routers of two nodes differ. -/
def Config.open_between (c : Config) (src dest : Nat) : Nat :=
  c.open_dims (nodeLocation c.shape src) (nodeLocation c.shape dest)

/-- The most hops between routers that the packets of a host may make. -/
def Config.maxHops (c : Config) (algo : RouteAlgo) (src dest : Nat) : Nat :=
  algo.maxHops c.shape.dimensions (c.open_between src dest)

variable {c : Config} {info : VnInfo} {src dest vn : Nat} {algo : RouteAlgo}
variable {draws : List Nat}

end Main

end SstElements.Merlin.HyperX
