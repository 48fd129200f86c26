import SstElements.Library.MixedRadix
import SstElements.Library.WiredNetwork

/-!
# Locations of routers and the links of the hosts

The topologies with dimensions number their routers by locations, one
coordinate for each dimension.  The C++ objects and the Python modules work out
the location of a router from its id in the same way.  The Python modules give
every router its hosts on consecutive ports, and pass a port over if no endpoint
is built for its node.
-/

namespace SstElements.Merlin

variable {i n : Nat}

section Routers

open Library.MixedRadix List

/--
The coordinates up to the given one: the top coordinate is divided off first,
and what is left over is the lowest coordinate.
-/
def idToLocationLoop (sizes : List Nat) : Nat → Nat → List Nat
  | 0, run_id => [run_id]
  | i + 1, run_id =>
    let div := (sizes.take (i + 1)).prod
    let value := run_id / div
    idToLocationLoop sizes i (run_id - value * div) ++ [value]

theorem idToLocationLoop_eq (sizes : List Nat) (hi : i < sizes.length)
    (hn : n < (sizes.take (i + 1)).prod) :
    idToLocationLoop sizes i n = digits (sizes.take (i + 1)) n := by
  induction i generalizing n with
  | zero =>
    obtain ⟨s, ss, rfl⟩ := exists_cons_of_length_pos hi
    have hlt : n < s := by simpa using hn
    simp [idToLocationLoop, digits, Nat.mod_eq_of_lt hlt]
  | succ i ih =>
    have hpos : 0 < (sizes.take (i + 1)).prod := by
      apply pos_of_ne_zero
      intro hzero
      rw [take_succ_eq_append_getElem hi, prod_append, hzero, zero_mul] at hn
      omega
    have hrest : n - n / (sizes.take (i + 1)).prod * (sizes.take (i + 1)).prod =
        n % (sizes.take (i + 1)).prod := by
      rw [Nat.mod_eq_sub_div_mul]
    have htop : n / (sizes.take (i + 1)).prod < sizes[i + 1] := by
      apply Nat.div_lt_of_lt_mul
      rwa [take_succ_eq_append_getElem hi, prod_append, prod_singleton] at hn
    simp only [idToLocationLoop]
    rw [hrest, ih (Nat.lt_of_succ_lt hi) (Nat.mod_lt _ hpos), digits_mod,
      take_succ_eq_append_getElem hi, digits_concat, Nat.mod_eq_of_lt htop]

/-- The location of a router, in the C++ objects and the Python modules. -/
def idToLocation (sizes : List Nat) (run_id : Nat) : List Nat :=
  idToLocationLoop sizes (sizes.length - 1) run_id

theorem idToLocation_eq {sizes : List Nat} {n : Nat} (hsizes : sizes ≠ []) (hn : n < sizes.prod) :
    idToLocation sizes n = digits sizes n := by
  have hlen := length_pos_of_ne_nil hsizes
  have hall : sizes.take (sizes.length - 1 + 1) = sizes := by
    rw [Nat.sub_add_cancel hlen, take_length]
  rw [idToLocation, idToLocationLoop_eq sizes (by omega) (by rwa [hall]), hall]

section Shape

/-- The size and the number of links of each dimension, and the local ports. -/
structure Shape where
  sizes : List Nat
  widths : List Nat
  local_ports : Nat
  sizes_ne : sizes ≠ []
  widths_eq : widths.length = sizes.length
  sizes_pos : ∀ k ∈ sizes, 0 < k
  widths_pos : ∀ w ∈ widths, 0 < w
  local_ports_pos : 0 < local_ports

namespace Shape

variable (s : Shape)

def dimensions : Nat := s.sizes.length

def dim_size (dim : Nat) : Nat := s.sizes.getD dim 0

def dim_width (dim : Nat) : Nat := s.widths.getD dim 0

def num_routers : Nat := s.sizes.prod

def num_nodes : Nat := s.num_routers * s.local_ports

variable {s}

theorem dim_size_pos {d : Nat} (hd : d < s.dimensions) : 0 < s.dim_size d := by
  rw [dim_size, getD_eq_getElem _ _ hd]
  exact s.sizes_pos _ (getElem_mem hd)

theorem dim_width_pos {d : Nat} (hd : d < s.dimensions) : 0 < s.dim_width d := by
  have hd' : d < s.widths.length := s.widths_eq.symm ▸ hd
  rw [dim_width, getD_eq_getElem _ _ hd']
  exact s.widths_pos _ (getElem_mem hd')

end Shape

def get_dest_router (s : Shape) (dest_id : Nat) : Nat := dest_id / s.local_ports

end Shape

section RouterIds

variable {s : Shape} {x : List Nat}

/-- The id of the router at a location. -/
def rtrId (s : Shape) (x : List Nat) : Nat := value s.sizes x

theorem idToLocation_rtrId (hx : Fits s.sizes x) : idToLocation s.sizes (rtrId s x) = x := by
  rw [rtrId, idToLocation_eq s.sizes_ne (value_lt hx), digits_value hx]

theorem rtrId_lt (hx : Fits s.sizes x) : rtrId s x < s.num_routers :=
  value_lt hx

variable {i node d : Nat}

theorem location_fits (hi : i < s.num_routers) : Fits s.sizes (idToLocation s.sizes i) := by
  rw [idToLocation_eq s.sizes_ne hi]
  exact digits_fits s.sizes_pos i

theorem rtrId_location (hi : i < s.num_routers) : rtrId s (idToLocation s.sizes i) = i := by
  rw [rtrId, idToLocation_eq s.sizes_ne hi, value_digits hi]

theorem rtrId_inj {y : List Nat} (hx : Fits s.sizes x) (hy : Fits s.sizes y)
    (heq : rtrId s x = rtrId s y) :
    x = y := by
  rw [← idToLocation_rtrId hx, heq, idToLocation_rtrId hy]

def nodeLocation (s : Shape) (node : Nat) : List Nat :=
  idToLocation s.sizes (get_dest_router s node)

theorem get_dest_router_lt (hnode : node < s.num_nodes) :
    get_dest_router s node < s.num_routers := by
  rw [Shape.num_nodes, mul_comm] at hnode
  exact Nat.div_lt_of_lt_mul hnode

theorem nodeLocation_fits (hnode : node < s.num_nodes) : Fits s.sizes (nodeLocation s node) :=
  location_fits (get_dest_router_lt hnode)

theorem rtrId_nodeLocation (hnode : node < s.num_nodes) :
    rtrId s (nodeLocation s node) = get_dest_router s node :=
  rtrId_location (get_dest_router_lt hnode)

theorem exists_first_dim {q : List Nat} (hx : Fits s.sizes x) (hq : Fits s.sizes q) (hne : x ≠ q) :
    ∃ d < s.dimensions, q.getD d 0 ≠ x.getD d 0 ∧ ∀ e < d, q.getD e 0 = x.getD e 0 := by
  classical
  have hex : ∃ d, q.getD d 0 ≠ x.getD d 0 := by
    by_contra hall
    push Not at hall
    apply hne
    apply ext_getElem (hx.length_eq.trans hq.length_eq.symm)
    intro i h1 h2
    have hi := hall i
    rw [getD_eq_getElem _ _ h1, getD_eq_getElem _ _ h2] at hi
    exact hi.symm
  refine ⟨Nat.find hex, ?_, Nat.find_spec hex, fun e he => ?_⟩
  · by_contra hge
    apply Nat.find_spec hex
    have hx' : x.length ≤ Nat.find hex := hx.length_eq ▸ Nat.le_of_not_lt hge
    have hq' : q.length ≤ Nat.find hex := hq.length_eq ▸ Nat.le_of_not_lt hge
    rw [getD_eq_default _ _ hx', getD_eq_default _ _ hq']
  · by_contra hne'
    exact Nat.find_min hex he hne'

theorem set_getD (hx : Fits s.sizes x) (hd : d < s.dimensions) (v d' : Nat) :
    (x.set d v).getD d' 0 = if d' = d then v else x.getD d' 0 := by
  have hlen : d < x.length := hx.length_eq.symm ▸ hd
  rw [getD_eq_getElem?_getD, getElem?_set]
  by_cases hdd : d' = d
  · subst hdd
    simp [hlen]
  · simp [hdd, Ne.symm hdd]

theorem set_set_self (hx : Fits s.sizes x) (hd : d < s.dimensions) (v : Nat) :
    (x.set d v).set d (x.getD d 0) = x := by
  have hlen : d < x.length := hx.length_eq.symm ▸ hd
  rw [set_set, getD_eq_getElem _ _ hlen, set_getElem_self]

end RouterIds

end Routers

section Hosts

open Library.WiredNetwork Library.MixedRadix

universe u

variable {Name : Type u}

def hostLinks (nic : Nat → Nat → Name) (s : Shape) (built : Nat → Bool)
    (i port : Nat) : List (Attachment Name) :=
  (List.range s.local_ports).flatMap (fun n =>
    if built (s.local_ports * i + n) then
      [⟨.endpoint (s.local_ports * i + n), nic i n⟩, ⟨.router i (port + n), nic i n⟩]
    else
      [])

theorem mem_hostLinks {nic : Nat → Nat → Name} {s : Shape} {built : Nat → Bool}
    {i port : Nat} {a : Attachment Name} :
    a ∈ hostLinks nic s built i port ↔ ∃ n < s.local_ports, built (s.local_ports * i + n) = true ∧
        (a = ⟨.endpoint (s.local_ports * i + n), nic i n⟩ ∨
          a = ⟨.router i (port + n), nic i n⟩) := by
  simp only [hostLinks, List.mem_flatMap, List.mem_range]
  constructor
  · rintro ⟨n, hn, ha⟩
    split at ha
    · rename_i hbuilt
      exact ⟨n, hn, hbuilt, by simpa using ha⟩
    · cases ha
  · rintro ⟨n, hn, hbuilt, ha⟩
    refine ⟨n, hn, ?_⟩
    rw [if_pos hbuilt]
    simpa using ha

section Attachments

/--
What is attached where each router joins links at the ports below the first
local one, and has a link to each of its hosts that is built.
-/
inductive Attached (nic : Nat → Nat → Name) (s : Shape) (built : Nat → Bool) (first : Nat)
    (Joins : List Nat → Nat → Name → Prop) : Attachment Name → Prop where
  | router {x : List Nat} {p : Nat} {n : Name} :
      Fits s.sizes x → Joins x p n → Attached nic s built first Joins ⟨.router (rtrId s x) p, n⟩
  | local {i n : Nat} :
      i < s.num_routers → n < s.local_ports → built (s.local_ports * i + n) = true →
      Attached nic s built first Joins ⟨.router i (first + n), nic i n⟩
  | endpoint {i n : Nat} :
      i < s.num_routers → n < s.local_ports → built (s.local_ports * i + n) = true →
      Attached nic s built first Joins ⟨.endpoint (s.local_ports * i + n), nic i n⟩

/-- The wiring of a topology by the links its routers join, and what these keep clear of. -/
structure Wired (nic : Nat → Nat → Name) (s : Shape) (built : Nat → Bool) (first : Nat)
    (Joins : List Nat → Nat → Name → Prop) (wiring : List (Attachment Name)) : Prop where
  mem_iff {a} : a ∈ wiring ↔ Attached nic s built first Joins a
  port_lt {x p n} : Fits s.sizes x → Joins x p n → p < first
  ne_nic {x p n i j} : Joins x p n → n ≠ nic i j
  nic_inj {i j i' j'} : nic i j = nic i' j' → i = i' ∧ j = j'

variable {nic : Nat → Nat → Name} {s : Shape} {built : Nat → Bool} {first : Nat}
variable {Joins : List Nat → Nat → Name → Prop} {wiring : List (Attachment Name)}

theorem mem_routers_iff (links : Nat → List Nat → List (Attachment Name))
    (hlinks : ∀ i x a, a ∈ links i x ↔ ∃ p n, Joins x p n ∧ a = ⟨.router i p, n⟩)
    {a : Attachment Name} :
    a ∈ (List.range s.num_routers).flatMap (fun i =>
        links i (idToLocation s.sizes i) ++ hostLinks nic s built i first) ↔
      Attached nic s built first Joins a := by
  simp only [List.mem_flatMap, List.mem_range, List.mem_append, hlinks, mem_hostLinks]
  constructor
  · rintro ⟨i, hi, ⟨p, n, hjoins, rfl⟩ | ⟨n, hn, hbuilt, rfl | rfl⟩⟩
    · have hattached : Attached nic s built first Joins _ := .router (location_fits hi) hjoins
      rwa [rtrId_location hi] at hattached
    · exact .endpoint hi hn hbuilt
    · exact .local hi hn hbuilt
  · rintro (⟨hx, hjoins⟩ | ⟨hi, hn, hbuilt⟩ | ⟨hi, hn, hbuilt⟩)
    · refine ⟨_, rtrId_lt hx, .inl ⟨_, _, ?_, rfl⟩⟩
      rwa [idToLocation_rtrId hx]
    · exact ⟨_, hi, .inr ⟨_, hn, hbuilt, .inr rfl⟩⟩
    · exact ⟨_, hi, .inr ⟨_, hn, hbuilt, .inl rfl⟩⟩

namespace Wired

variable (h : Wired nic s built first Joins wiring)
include h

theorem nic_ends {z : LinkEnd} (hz : ⟨z, nic i n⟩ ∈ wiring) :
    z = .router i (first + n) ∨ z = .endpoint (s.local_ports * i + n) := by
  have hattached := h.mem_iff.mp hz
  generalize hm : nic i n = m at hattached
  cases hattached with
  | router _ hjoins => exact absurd hm.symm (h.ne_nic hjoins)
  | «local» _ _ _ =>
    obtain ⟨rfl, rfl⟩ := h.nic_inj hm
    exact .inl rfl
  | endpoint _ _ _ =>
    obtain ⟨rfl, rfl⟩ := h.nic_inj hm
    exact .inr rfl

theorem local_link {m : Name} (hm : ⟨.router i (first + n), m⟩ ∈ wiring) :
    m = nic i n := by
  have hattached := h.mem_iff.mp hm
  generalize hz : LinkEnd.router i (first + n) = z at hattached
  cases hattached with
  | router hx hjoins =>
    have hport := (LinkEnd.router.inj hz).2
    have := h.port_lt hx hjoins
    omega
  | «local» _ _ _ =>
    obtain ⟨rfl, hport⟩ := LinkEnd.router.inj hz
    rw [Nat.add_left_cancel hport]
  | endpoint _ _ _ => cases hz

variable [DecidableEq Name]

theorem across_router {x y : List Nat} {p q : Nat} {n : Name} (hx : Fits s.sizes x)
    (hy : Fits s.sizes y) (hne : x ≠ y) (hp : Joins x p n) (hq : Joins y q n)
    (hone : ∀ m, Joins x p m → m = n)
    (hends : ∀ z r, Fits s.sizes z → Joins z r n → (z = x ∧ r = p) ∨ (z = y ∧ r = q)) :
    across wiring (.router (rtrId s x) p) = some (.router (rtrId s y) q) := by
  apply across_eq_some (n := n)
  · exact h.mem_iff.mpr (.router hx hp)
  · intro m hm
    have hattached := h.mem_iff.mp hm
    generalize hz : LinkEnd.router (rtrId s x) p = z at hattached
    cases hattached with
    | router hx' hp' =>
      obtain ⟨hid, rfl⟩ := LinkEnd.router.inj hz
      cases rtrId_inj hx hx' hid
      exact hone _ hp'
    | «local» _ _ _ =>
      have hport := (LinkEnd.router.inj hz).2
      have := h.port_lt hx hp
      omega
    | endpoint _ _ _ => cases hz
  · exact h.mem_iff.mpr (.router hy hq)
  · intro heq
    exact hne (rtrId_inj hy hx (LinkEnd.router.inj heq).1).symm
  · intro z hz
    have hattached := h.mem_iff.mp hz
    generalize hm : n = m at hattached
    cases hattached with
    | router hfits hr =>
      rcases hends _ _ hfits (hm ▸ hr) with ⟨rfl, rfl⟩ | ⟨rfl, rfl⟩
      · exact .inl rfl
      · exact .inr rfl
    | «local» _ _ _ => exact absurd hm (h.ne_nic hp)
    | endpoint _ _ _ => exact absurd hm (h.ne_nic hp)

end Wired

end Attachments

end Hosts

end SstElements.Merlin
