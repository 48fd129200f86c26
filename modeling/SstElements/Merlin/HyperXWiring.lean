import SstElements.Library.AllToAll
import SstElements.Merlin.HyperX

/-!
# The wiring of a HyperX

A router reaches every other value of a coordinate by the ports of the value's
number among the others.  The C++ object counts these ports from the values,
the Python module counts them up while it wires them.
-/

namespace SstElements.Merlin.HyperX

open Library.WiredNetwork Library.MixedRadix Library.AllToAll List

section Ports

variable {s : Shape}

/-- The port of a link to a value of a coordinate. -/
def portOf (s : Shape) (x : List Nat) (d v num : Nat) : Nat :=
  port_start s d + linkIndex (s.dim_width d) (x.getD d 0) v num

theorem portOf_eq (x : List Nat) (d v num : Nat) :
    portOf s x d v num = port_start s d + slot (x.getD d 0) v * s.dim_width d + num :=
  (add_assoc _ _ _).symm

variable {d d' v num : Nat} {x : List Nat}

theorem port_start_mono (h : d ≤ d') : port_start s d ≤ port_start s d' := by
  induction h with
  | refl => exact le_refl _
  | step _ ih =>
    rw [port_start]
    omega

section

variable (hx : Fits s.sizes x) (hd : d < s.dimensions) (hv : v < s.dim_size d)
include hx hd hv

section

variable (hne : v ≠ x.getD d 0) (hnum : num < s.dim_width d)
include hne hnum

theorem portOf_bounds :
    port_start s d ≤ portOf s x d v num ∧ portOf s x d v num < port_start s (d + 1) := by
  have hlt : linkIndex (s.dim_width d) (x.getD d 0) v num <
      (s.dim_size d - 1) * s.dim_width d :=
    linkIndex_lt (hx.getD_lt hd) hv hne hnum
  rw [port_start, portOf, mul_comm (s.dim_width d)]
  omega

theorem portOf_lt_local :
    portOf s x d v num < local_port_start s :=
  lt_of_lt_of_le (portOf_bounds hx hd hv hne hnum).2
    (port_start_mono hd)

theorem portOf_inj {v' num' : Nat}
    (hd' : d' < s.dimensions) (hv' : v' < s.dim_size d') (hne' : v' ≠ x.getD d' 0)
    (hnum' : num' < s.dim_width d') (heq : portOf s x d v num = portOf s x d' v' num') :
    d = d' ∧ v = v' ∧ num = num' := by
  have hb := portOf_bounds hx hd hv hne hnum
  have hb' := portOf_bounds hx hd' hv' hne' hnum'
  obtain rfl : d = d' := by
    rcases Nat.lt_trichotomy d d' with hlt | rfl | hgt
    · have := port_start_mono (s := s) (show d + 1 ≤ d' from hlt)
      omega
    · rfl
    · have := port_start_mono (s := s) (show d' + 1 ≤ d from hgt)
      omega
  exact ⟨rfl, linkIndex_inj hne hnum hne' hnum' (add_left_cancel heq)⟩

end

end

theorem radix_eq : radix s = local_port_start s + s.local_ports := by
  have hsum : ∀ n, ((List.range n).map (fun x =>
      s.dim_width x * (s.dim_size x - 1))).sum = port_start s n := by
    intro n
    induction n with
    | zero => rfl
    | succ n ih =>
      rw [range_succ, map_append, sum_append, ih, port_start]
      simp
  rw [radix, hsum, add_comm]
  rfl

end Ports

section Links

variable {s : Shape}
variable {x y : List Nat} {num num' : Nat}

theorem getLink_comm (hne : x ≠ y) (num : Nat) : getLink x y num = getLink y x num := by
  unfold getLink
  rcases lt_trichotomy x y with hlt | heq | hgt
  · rw [if_pos hlt, if_neg (lt_asymm hlt)]
  · exact absurd heq hne
  · rw [if_neg (lt_asymm hgt), if_pos hgt]

theorem getLink_inj {x' y' : List Nat} (heq : getLink x y num = getLink x' y' num') :
    num = num' ∧ ((x = x' ∧ y = y') ∨ (x = y' ∧ y = x')) := by
  unfold getLink at heq
  split at heq <;> split at heq <;> simp at heq <;> tauto

theorem getLink_set_inj (hx : Fits s.sizes x) (hy : Fits s.sizes y) {d d' v v' : Nat}
    (hd : d < s.dimensions) (hd' : d' < s.dimensions) (hne : v ≠ x.getD d 0)
    (heq : getLink y (y.set d' v') num' = getLink x (x.set d v) num) (hne' : v' ≠ y.getD d' 0) :
    num' = num ∧ d' = d ∧ ((y = x ∧ v' = v) ∨ (y = x.set d v ∧ v' = x.getD d 0)) := by
  obtain ⟨hnum, ⟨hyx, hset⟩ | ⟨hyx, hset⟩⟩ := getLink_inj heq
  · subst hyx
    have hdd : d' = d := by
      by_contra hdne
      have hget := congrArg (fun z => z.getD d' 0) hset
      simp only [set_getD hx hd', set_getD hx hd, if_neg hdne] at hget
      exact hne' (by simpa using hget)
    subst hdd
    have hget := congrArg (fun z => z.getD d' 0) hset
    simp only [set_getD hx hd'] at hget
    exact ⟨hnum, rfl, .inl ⟨rfl, by simpa using hget⟩⟩
  · have hdd : d' = d := by
      by_contra hdne
      have hget := congrArg (fun z => z.getD d 0) hset
      have hgety := congrArg (fun z => z.getD d 0) hyx
      simp only [set_getD hy hd', set_getD hx hd, if_neg (Ne.symm hdne)] at hget hgety
      exact hne (hgety.symm.trans hget)
    subst hdd
    have hget := congrArg (fun z => z.getD d' 0) hset
    simp only [set_getD hy hd'] at hget
    exact ⟨hnum, rfl, .inr ⟨hyx, by simpa using hget⟩⟩

end Links

section Attachments

variable {s : Shape} {built : Nat → Bool}

/-- The ports and the links of a router. -/
inductive Joins (s : Shape) (x : List Nat) : Nat → LinkName → Prop where
  | link {d v num : Nat} :
      d < s.dimensions → v < s.dim_size d → v ≠ x.getD d 0 → num < s.dim_width d →
      Joins s x (portOf s x d v num) (getLink x (x.set d v) num)

theorem mem_dimLinks {i n d₀ : Nat} {x : List Nat} {a : Attachment LinkName} :
    a ∈ dimLinks s i x n d₀ (port_start s d₀) ↔
      ∃ d v num, d₀ ≤ d ∧ d < d₀ + n ∧ v < s.dim_size d ∧ v ≠ x.getD d 0 ∧ num < s.dim_width d ∧
        a = ⟨.router i (portOf s x d v num), getLink x (x.set d v) num⟩ := by
  induction n generalizing d₀ with
  | zero =>
    simp only [dimLinks, not_mem_nil, false_iff]
    rintro ⟨d, v, num, h1, h2, -⟩
    omega
  | succ n ih =>
    have hhere := @mem_links _ (s.dim_width d₀) (x.getD d₀ 0)
      (fun v num p => ⟨.router i p, getLink x (x.set d₀ v) num⟩) (routerLinks s i d₀ x)
      (fun _ _ => rfl) (fun _ _ _ => rfl) (s.dim_size d₀) 0 (port_start s d₀) a
    rw [slot_zero, zero_mul, add_zero, zero_add] at hhere
    have hrest := @ih (d₀ + 1)
    rw [port_start] at hrest
    rw [dimLinks, mem_append, hhere, hrest]
    constructor
    · rintro (⟨v, num, -, hv, hne, hnum, rfl⟩ | ⟨d, v, num, h1, h2, hv⟩)
      · exact ⟨d₀, v, num, le_refl _, by omega, hv, hne, hnum, rfl⟩
      · exact ⟨d, v, num, by omega, by omega, hv⟩
    · rintro ⟨d, v, num, h1, h2, hv, hne, hnum, rfl⟩
      rcases eq_or_lt_of_le h1 with rfl | hlt
      · exact .inl ⟨v, num, Nat.zero_le _, hv, hne, hnum, rfl⟩
      · exact .inr ⟨d, v, num, hlt, by omega, hv, hne, hnum, rfl⟩

theorem wired : Wired .nic s built (local_port_start s) (Joins s) (build s built) where
  mem_iff := by
    refine mem_routers_iff (fun i x => dimLinks s i x s.dimensions 0 0) fun i x a => ?_
    have hdims := @mem_dimLinks s i s.dimensions 0 x a
    rw [port_start] at hdims
    rw [hdims]
    constructor
    · rintro ⟨d, v, num, -, hd, hv, hne, hnum, rfl⟩
      exact ⟨_, _, .link (by simpa using hd) hv hne hnum, rfl⟩
    · rintro ⟨_, _, ⟨hd, hv, hne, hnum⟩, rfl⟩
      exact ⟨_, _, _, Nat.zero_le _, by simpa using hd, hv, hne, hnum, rfl⟩
  port_lt hx hjoins := by
    obtain ⟨hd, hv, hne, hnum⟩ := hjoins
    exact portOf_lt_local hx hd hv hne hnum
  ne_nic hjoins := by
    obtain ⟨_, _, _, _⟩ := hjoins
    unfold getLink
    split <;> simp
  nic_inj h := LinkName.nic.inj h

end Attachments

section Across

variable {s : Shape} {built : Nat → Bool}

theorem across_value {x : List Nat} {d v num : Nat} (hx : Fits s.sizes x) (hd : d < s.dimensions)
    (hv : v < s.dim_size d) (hne : v ≠ x.getD d 0) (hnum : num < s.dim_width d) :
    across (build s built) (.router (rtrId s x) (portOf s x d v num)) =
      some (.router (rtrId s (x.set d v))
        (portOf s (x.set d v) d (x.getD d 0) num)) := by
  have hy : Fits s.sizes (x.set d v) := hx.set hv
  have hself : (x.set d v).getD d 0 = v := by rw [set_getD hx hd, if_pos rfl]
  have hdiff : x ≠ x.set d v := by
    intro heq
    rw [← heq] at hself
    exact hne hself.symm
  have hother : getLink (x.set d v) ((x.set d v).set d (x.getD d 0)) num =
      getLink x (x.set d v) num := by
    rw [set_set_self hx hd, getLink_comm hdiff]
  apply wired.across_router hx hy hdiff (.link hd hv hne hnum)
    (hother ▸ .link hd (hx.getD_lt hd) (by rw [hself]; exact hne.symm) hnum)
  · intro m hm
    generalize hp : portOf s x d v num = p at hm
    obtain ⟨hd', hv', hne', hnum'⟩ := hm
    obtain ⟨rfl, rfl, rfl⟩ := portOf_inj hx hd hv hne hnum hd' hv' hne' hnum' hp
    rfl
  · intro z r hz hr
    generalize hn : getLink x (x.set d v) num = n at hr
    obtain ⟨hd', hv', hne', hnum'⟩ := hr
    obtain ⟨rfl, rfl, ⟨rfl, rfl⟩ | ⟨rfl, rfl⟩⟩ := getLink_set_inj hx hz hd hd' hne hn.symm hne'
    · exact .inl ⟨rfl, rfl⟩
    · exact .inr ⟨rfl, rfl⟩

end Across

end SstElements.Merlin.HyperX
