import Mathlib.Data.Nat.Bitwise
import SstElements.Merlin.MeshTorusWiring

/-!
# Routing in meshes and tori

A packet aligns one dimension after the other and takes one step of the
shortest way in its current dimension at every router.  Its VC is one of the
two of its VN, and the upper one says that the packet does not pass coordinate
zero any more before the dimension is aligned.
-/

namespace SstElements.Merlin.MeshTorus

open Library Library.WiredNetwork Library.MixedRadix Finset Nat Bool

section Directions

/-- The shortest way between two positions of a dimension. -/
def Kind.distance : Kind → Nat → Nat → Nat → Nat
  | .mesh, _, x, q => x - q + (q - x)
  | .torus, k, x, q => Ring.dist k x q

variable {kind : Kind} {s : Shape} {d x q : Nat}

theorem torusDirection_up_iff {k : Nat} : (torusDirection k x q).1 = true ↔ Ring.GoesUp k x q := by
  simp only [torusDirection, Ring.GoesUp]
  split <;> simp_all

theorem meshDirection_up_iff {k : Nat} : (meshDirection k x q).1 = true ↔ x < q := by
  simp only [meshDirection]
  split <;> simp_all

@[simp]
theorem distance_self {k : Nat} : kind.distance k x x = 0 := by
  cases kind <;> simp [Kind.distance]

theorem hasLink_direction {xs : List Nat} (hx : xs.getD d 0 < s.dim_size d) (hq : q < s.dim_size d)
    (hne : q ≠ xs.getD d 0) :
    HasLink s kind.includeWrapLinks xs d
      (kind.direction (s.dim_size d) (xs.getD d 0) q).1 := by
  cases kind with
  | mesh =>
    left
    simp only [Kind.direction, meshDirection_up_iff]
    split <;> omega
  | torus => exact .inr rfl

theorem direction_step (kind : Kind) (hx : x < s.dim_size d) (hq : q < s.dim_size d) (hne : q ≠ x)
    (hnext : q ≠ step s d (kind.direction (s.dim_size d) x q).1 x) :
    (kind.direction (s.dim_size d) (step s d (kind.direction (s.dim_size d) x q).1 x) q).1 =
      (kind.direction (s.dim_size d) x q).1 := by
  cases kind with
  | mesh =>
    simp only [Kind.direction] at hnext ⊢
    cases hup : (meshDirection (s.dim_size d) x q).1 with
    | true =>
      have hlt := meshDirection_up_iff.mp hup
      simp only [hup, step, if_true] at hnext ⊢
      rw [Ring.next_of_lt (by omega)] at hnext ⊢
      rw [meshDirection_up_iff]
      omega
    | false =>
      have hge : ¬ x < q := by
        rw [← meshDirection_up_iff (k := s.dim_size d), hup]
        simp
      simp only [hup, step, false_eq_true, if_false] at hnext ⊢
      rw [Ring.prev_of_pos (by omega) hx] at hnext ⊢
      rw [← not_eq_true, meshDirection_up_iff]
      omega
  | torus =>
    simp only [Kind.direction] at hnext ⊢
    cases hup : (torusDirection (s.dim_size d) x q).1 with
    | true =>
      simp only [step, if_true]
      rw [torusDirection_up_iff]
      exact Ring.goesUp_next hx hq hne.symm (torusDirection_up_iff.mp hup)
    | false =>
      simp only [hup, step, false_eq_true, if_false] at hnext ⊢
      rw [← not_eq_true, torusDirection_up_iff]
      refine Ring.not_goesUp_prev hx hq ?_ hnext.symm
      rw [← torusDirection_up_iff, hup]
      simp

/-- What the upper VC says of a packet that leaves a position. -/
def LeavesClear (kind : Kind) (k x q b : Nat) : Prop :=
  b = 1 →
    ((kind.direction k x q).1 = true → x < q) ∧
    ((kind.direction k x q).1 = false → x = 0 ∨ q < x)

/-- What the upper VC says of a packet that comes to a position. -/
def ComesClear (kind : Kind) (k x q b : Nat) : Prop :=
  b = 1 → q ≠ x →
    x ≠ 0 ∧
    ((kind.direction k x q).1 = true → x < q) ∧
    ((kind.direction k x q).1 = false → q < x)

theorem comesClear_step {b : Nat} (hx : x < s.dim_size d) (hq : q < s.dim_size d) (hne : q ≠ x)
    (h : LeavesClear kind (s.dim_size d) x q b) :
    ComesClear kind (s.dim_size d)
      (step s d (kind.direction (s.dim_size d) x q).1 x) q b := by
  intro hb hnext
  have hdir := direction_step kind hx hq hne hnext
  obtain ⟨hup, hdown⟩ := h hb
  cases hd : (kind.direction (s.dim_size d) x q).1 with
  | true =>
    have hlt := hup hd
    rw [hd] at hdir hnext
    simp only [step, if_true] at hdir hnext ⊢
    rw [Ring.next_of_lt (by omega)] at hdir hnext ⊢
    rw [hdir]
    refine ⟨succ_ne_zero x, fun _ => ?_, by simp⟩
    omega
  | false =>
    have hor := hdown hd
    rw [hd] at hdir hnext
    simp only [step, false_eq_true, if_false] at hdir hnext ⊢
    rcases Nat.eq_zero_or_pos x with rfl | hpos
    · rw [Ring.prev_zero hx] at hdir hnext ⊢
      rw [hdir]
      refine ⟨?_, by simp, fun _ => ?_⟩ <;> omega
    · rw [Ring.prev_of_pos hpos hx] at hdir hnext ⊢
      rw [hdir]
      refine ⟨?_, by simp, fun _ => ?_⟩ <;> omega

end Directions

section Channels

theorem xor_one_vc (vn : Nat) {b : Nat} (hb : b ≤ 1) : (vn * 2 + b) ^^^ 1 = vn * 2 + (1 - b) := by
  have hdiv : ((vn * 2 + b) ^^^ 1) / 2 = vn := by
    rw [xor_div_two]
    simp
    omega
  have hmod : ((vn * 2 + b) ^^^ 1) % 2 = 1 - b := by
    rw [xor_mod_two_eq]
    omega
  omega

theorem clear_vc (vn : Nat) {b : Nat} (hb : b ≤ 1) : (vn * 2 + b) / 2 * 2 = vn * 2 := by
  omega

end Channels

section Routing

variable {s : Shape}

theorem choose_multipath_eq {width : Nat} (hwidth : 0 < width) (start dist : Nat) :
    ∃ num < width, choose_multipath start width dist = start + num := by
  unfold choose_multipath
  split
  · exact ⟨0, hwidth, rfl⟩
  · exact ⟨dist % width, mod_lt _ hwidth, rfl⟩

theorem routeDims_eq {direction : Nat → Nat → Nat → Bool × Nat} {t : Topo} {port vc n dim d : Nat}
    (ev : Packet) (hdim : dim ≤ d) (hd : d < dim + n)
    (hne : ev.dest_loc.getD d 0 ≠ t.id_loc.getD d 0)
    (heq : ∀ e, dim ≤ e → e < d → ev.dest_loc.getD e 0 = t.id_loc.getD e 0) :
    routeDims s direction t port vc n dim ev = { ev with
        routing_dim := ev.routing_dim + (d - dim)
        vc :=
          if t.id_loc.getD d 0 = 0 ∧ port < local_port_start s then
            vc ^^^ 1
          else if d = dim then
            ev.vc
          else
            vc / 2 * 2
        next_port := some (choose_multipath
          (port_start s d
            (direction (s.dim_size d) (t.id_loc.getD d 0) (ev.dest_loc.getD d 0)).1)
          (s.dim_width d)
          (direction (s.dim_size d) (t.id_loc.getD d 0) (ev.dest_loc.getD d 0)).2) } := by
  induction n generalizing dim ev with
  | zero => omega
  | succ n ih =>
    rw [routeDims]
    rcases eq_or_lt_of_le hdim with rfl | hlt
    · simp only [ne_eq, hne, not_false_eq_true, if_true, Nat.sub_self, Nat.add_zero]
      split <;> rfl
    · have haligned := heq dim (le_refl _) hlt
      have hrest := ih
        { ev with
          routing_dim := ev.routing_dim + 1
          vc := vc / 2 * 2 }
        hlt (by omega) hne (fun e he hed => heq e (by omega) hed)
      have hdne : ¬ d = dim := by omega
      simp only [ne_eq, haligned, not_true_eq_false, if_false, hrest]
      congr 1
      · simp [hdne]
      · omega

end Routing

variable {x : List Nat} {pkt : Packet}

section Walk

variable (c : Config)

/-- The sum of the shortest ways of the dimensions. -/
def Config.distance (x q : List Nat) : Nat :=
  ∑ d ∈ range c.shape.dimensions,
    c.kind.distance (c.shape.dim_size d) (x.getD d 0) (q.getD d 0)

/-- The direction in which the routing leaves a location in a dimension. -/
def Config.goesUp (x q : List Nat) (d : Nat) : Bool :=
  (c.kind.direction (c.shape.dim_size d) (x.getD d 0) (q.getD d 0)).1

/--
A packet that has come to a port of the router at a location: the dimensions
before its current one are aligned, and its VC says whether it may still pass
coordinate zero.
-/
structure Arrived (dest vn : Nat) (x : List Nat) (p : Nat) (pkt : Packet) : Prop where
  fits : Fits c.shape.sizes x
  dest_eq : pkt.dest = dest
  dest_loc : pkt.dest_loc = nodeLocation c.shape dest
  aligned : ∀ e < pkt.routing_dim,
    (nodeLocation c.shape dest).getD e 0 = x.getD e 0
  channel : ∃ b ≤ 1, pkt.vc = vn * 2 + b ∧
    ((local_port_start c.shape ≤ p ∧ b = 0) ∨
      (p < local_port_start c.shape ∧
        ComesClear c.kind (c.shape.dim_size pkt.routing_dim)
          (x.getD pkt.routing_dim 0) ((nodeLocation c.shape dest).getD pkt.routing_dim 0) b))

variable {c}

/--
How a packet that has come to a router leaves it for another router: the first
dimension that is not aligned, the number of the link and the VC of its VN.
-/
structure Leaves (c : Config) (dest vn : Nat) (x : List Nat) (p : Nat)
    (pkt : Packet) (d num b : Nat) : Prop where
  dim_lt : d < c.shape.dimensions
  num_lt : num < c.shape.dim_width d
  differs : (nodeLocation c.shape dest).getD d 0 ≠ x.getD d 0
  bit_le : b ≤ 1
  clear : LeavesClear c.kind (c.shape.dim_size d) (x.getD d 0)
    ((nodeLocation c.shape dest).getD d 0) b
  dim_ge : pkt.routing_dim ≤ d
  aligned : ∀ e < d, (nodeLocation c.shape dest).getD e 0 = x.getD e 0
  bit_eq : d = pkt.routing_dim → p < local_port_start c.shape →
    ∀ b₀ ≤ 1, pkt.vc = vn * 2 + b₀ →
      b = if x.getD d 0 = 0 then 1 - b₀ else b₀

def Config.leavePort (c : Config) (dest : Nat) (x : List Nat) (d num : Nat) : Nat :=
  port_start c.shape d (c.goesUp x (nodeLocation c.shape dest) d) + num

def Config.leave (c : Config) (dest vn : Nat) (x : List Nat) (pkt : Packet)
    (d num b : Nat) : Packet :=
  { pkt with
    routing_dim := d
    vc := vn * 2 + b
    next_port := some (c.leavePort dest x d num) }

theorem topo_rtrId (hx : Fits c.shape.sizes x) :
    c.topo (rtrId c.shape x) = some { router_id := rtrId c.shape x, id_loc := x } := by
  rw [Config.topo, if_pos (rtrId_lt hx), topo, radix_eq,
    if_neg (lt_irrefl _), idToLocation_rtrId hx]

theorem Config.route_packet_eq (t : Topo) (port vc : Nat) (ev : Packet) :
    c.route_packet t port vc ev = MeshTorus.route_packet c.shape c.kind.direction t port vc ev := by
  unfold Config.route_packet
  cases c.kind <;> rfl

theorem Arrived.exists_leaves {dest vn p : Nat} (h : Arrived c dest vn x p pkt)
    (hdest : dest < c.shape.num_nodes) (hne : x ≠ nodeLocation c.shape dest) :
    ∃ d num b, Leaves c dest vn x p pkt d num b ∧ c.network.route () (rtrId c.shape x) p pkt =
        some (c.leave dest vn x pkt d num b, c.leavePort dest x d num) := by
  obtain ⟨d, hd, hdiff, hbefore⟩ := exists_first_dim h.fits (nodeLocation_fits hdest) hne
  have hge : pkt.routing_dim ≤ d := by
    by_contra hlt
    exact hdiff (h.aligned d (Nat.lt_of_not_le hlt))
  obtain ⟨b₀, hb₀, hvc, hchannel⟩ := h.channel
  obtain ⟨num, hnum, hchoose⟩ := choose_multipath_eq (Shape.dim_width_pos hd)
    (port_start c.shape d (c.goesUp x (nodeLocation c.shape dest) d))
    (c.kind.direction (c.shape.dim_size d) (x.getD d 0) ((nodeLocation c.shape dest).getD d 0)).2
  have hrouter : get_dest_router c.shape pkt.dest ≠ rtrId c.shape x := by
    intro heq
    rw [h.dest_eq, ← rtrId_nodeLocation hdest] at heq
    exact hne (rtrId_inj h.fits (nodeLocation_fits hdest) heq.symm)
  -- the VC after the loop
  obtain ⟨b, hb, hbit⟩ : ∃ b, b ≤ 1 ∧ b =
      if x.getD d 0 = 0 ∧ p < local_port_start c.shape then
        1 - b₀
      else if d = pkt.routing_dim then
        b₀
      else
        0 := by
    refine ⟨_, ?_, rfl⟩
    split
    · omega
    · split <;> omega
  refine ⟨d, num, b, ⟨hd, hnum, hdiff, hb, ?_, hge, hbefore, ?_⟩, ?_⟩
  · intro hone
    rw [hone] at hbit
    constructor
    · intro hup
      by_cases hzero : x.getD d 0 = 0
      · omega
      · rw [if_neg (fun hand => hzero hand.1)] at hbit
        split at hbit
        · rename_i hsame
          subst hsame
          rcases hchannel with ⟨-, rfl⟩ | ⟨-, hcomes⟩
          · omega
          · exact (hcomes hbit.symm hdiff).2.1 hup
        · omega
    · intro hdown
      by_cases hzero : x.getD d 0 = 0
      · exact .inl hzero
      · rw [if_neg (fun hand => hzero hand.1)] at hbit
        split at hbit
        · rename_i hsame
          subst hsame
          rcases hchannel with ⟨-, rfl⟩ | ⟨-, hcomes⟩
          · omega
          · exact .inr ((hcomes hbit.symm hdiff).2.2 hdown)
        · omega
  · intro hsame hport b₁ hb₁ hvc₁
    obtain rfl : b₁ = b₀ := by omega
    rw [hbit]
    simp [hport, hsame]
  · have hloop := @routeDims_eq c.shape c.kind.direction
      { router_id := rtrId c.shape x, id_loc := x } p pkt.vc
      (c.shape.dimensions - pkt.routing_dim) pkt.routing_dim d pkt hge (by omega)
        (h.dest_loc ▸ hdiff)
      (fun e _ he => h.dest_loc ▸ hbefore e he)
    rw [h.dest_loc, Nat.add_sub_cancel' hge] at hloop
    have hnewVc : (if x.getD d 0 = 0 ∧ p < local_port_start c.shape then
        pkt.vc ^^^ 1
      else if d = pkt.routing_dim then
        pkt.vc
      else
        pkt.vc / 2 * 2) = vn * 2 + b := by
      rw [hbit, hvc, xor_one_vc vn hb₀, clear_vc vn hb₀]
      split
      · rfl
      · split <;> rfl
    simp only [Config.network, topo_rtrId h.fits, Config.route_packet_eq,
      MeshTorus.route_packet, if_neg hrouter, hloop, Option.map_some]
    rw [hnewVc]
    have hport : choose_multipath
        (port_start c.shape d
          (c.kind.direction (c.shape.dim_size d) (x.getD d 0)
            ((nodeLocation c.shape dest).getD d 0)).1)
        (c.shape.dim_width d)
        (c.kind.direction (c.shape.dim_size d) (x.getD d 0)
          ((nodeLocation c.shape dest).getD d 0)).2 = c.leavePort dest x d num :=
      hchoose
    rw [hport, ← h.dest_loc]
    rfl

section Step

variable {dest vn p d num b : Nat} {x : List Nat} {pkt : Packet}

section

variable (h : Leaves c dest vn x p pkt d num b)
variable (hx : Fits c.shape.sizes x)
variable (hdest : dest < c.shape.num_nodes)
include h hx hdest

theorem Leaves.size_ge : 2 ≤ c.shape.dim_size d := by
  have hlt : x.getD d 0 < c.shape.dim_size d := hx.getD_lt h.dim_lt
  have hlt' : (nodeLocation c.shape dest).getD d 0 < c.shape.dim_size d :=
    (nodeLocation_fits hdest).getD_lt h.dim_lt
  have hne := h.differs
  omega

theorem Leaves.hasLink :
    HasLink c.shape c.kind.includeWrapLinks x d
      (c.goesUp x (nodeLocation c.shape dest) d) :=
  hasLink_direction (hx.getD_lt h.dim_lt)
    ((nodeLocation_fits hdest).getD_lt h.dim_lt) h.differs

theorem Leaves.across :
    across c.network.wiring
        (.router (rtrId c.shape x) (c.leavePort dest x d num)) = some (.router
        (rtrId c.shape (neighbour c.shape x d (c.goesUp x (nodeLocation c.shape dest) d)))
        (port_start c.shape d (!c.goesUp x (nodeLocation c.shape dest) d) + num)) :=
  across_neighbour hx h.dim_lt (h.size_ge hx hdest) h.num_lt
    (h.hasLink hx hdest)

end

theorem Leaves.arrived (h : Leaves c dest vn x p pkt d num b) (harrived : Arrived c dest vn x p pkt)
    (hdest : dest < c.shape.num_nodes) :
    Arrived c dest vn
      (neighbour c.shape x d (c.goesUp x (nodeLocation c.shape dest) d))
      (port_start c.shape d (!c.goesUp x (nodeLocation c.shape dest) d) + num)
      (c.leave dest vn x pkt d num b) := by
  have hfits := harrived.fits
  refine ⟨neighbour_fits hfits h.dim_lt _, harrived.dest_eq,
    harrived.dest_loc, ?_, b, h.bit_le, rfl, .inr ⟨?_, ?_⟩⟩
  · intro e he
    have hne : e ≠ d := Nat.ne_of_lt he
    rw [neighbour_getD hfits h.dim_lt, if_neg hne]
    exact h.aligned e he
  · exact port_lt_local h.dim_lt h.num_lt _
  · simp only [Config.leave]
    rw [neighbour_getD hfits h.dim_lt, if_pos rfl]
    exact comesClear_step (hfits.getD_lt h.dim_lt)
      ((nodeLocation_fits hdest).getD_lt h.dim_lt) h.differs h.clear

end Step

end Walk

section Delivery

variable (c : Config)

variable {c}

theorem Arrived.route_local {dest vn p : Nat}
    (h : Arrived c dest vn (nodeLocation c.shape dest) p pkt) (hdest : dest < c.shape.num_nodes) :
    c.network.route () (get_dest_router c.shape dest) p pkt =
      some ({ pkt with next_port := some (get_dest_local_port c.shape dest) },
        get_dest_local_port c.shape dest) := by
  have htopo := topo_rtrId (nodeLocation_fits hdest)
  rw [rtrId_nodeLocation hdest] at htopo
  simp only [Config.network, htopo, Config.route_packet_eq,
    MeshTorus.route_packet, h.dest_eq, if_true, Option.map_some]

end Delivery

end SstElements.Merlin.MeshTorus
