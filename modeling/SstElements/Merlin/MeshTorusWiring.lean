import SstElements.Merlin.MeshTorus

/-!
# The wiring of meshes and tori

The ports of a router are laid out dimension by dimension, and the positive
ports of a router carry the same links as the negative ports of the next
router in the dimension.
-/

namespace SstElements.Merlin.MeshTorus

open Library Library.WiredNetwork Library.MixedRadix List

section Ports

variable {s : Shape}
variable {d d' num : Nat}

theorem first_port_eq (hd : d ≤ s.dimensions) :
    first_port s d = ((s.widths.take d).map (fun w => 2 * w)).sum := by
  induction d with
  | zero => rfl
  | succ d ih =>
    have hd' : d < s.widths.length := s.widths_eq.symm ▸ hd
    rw [first_port, ih (Nat.le_of_succ_le hd),
      take_succ_eq_append_getElem hd', map_append, sum_append,
      Shape.dim_width, getD_eq_getElem _ _ hd', map_singleton, sum_singleton]
    omega

theorem first_port_dimensions : first_port s s.dimensions = local_port_start s := by
  have hall : s.widths.take s.dimensions = s.widths := take_of_length_le (le_of_eq s.widths_eq)
  rw [first_port_eq (le_refl _), hall]
  rfl

theorem first_port_mono (h : d ≤ d') : first_port s d ≤ first_port s d' := by
  induction h with
  | refl => exact le_refl _
  | step _ ih =>
    rw [first_port]
    omega

theorem port_bounds (hnum : num < s.dim_width d) (up : Bool) :
    first_port s d ≤ port_start s d up + num ∧ port_start s d up + num < first_port s (d + 1) := by
  rw [first_port]
  cases up <;> simp only [port_start] <;> simp <;> omega

theorem port_lt_local (hd : d < s.dimensions) (hnum : num < s.dim_width d) (up : Bool) :
    port_start s d up + num < local_port_start s := by
  have hmono := first_port_mono (s := s) (show d + 1 ≤ s.dimensions from hd)
  rw [first_port_dimensions] at hmono
  have hport := (port_bounds hnum up).2
  omega

theorem port_inj {num' : Nat} {up up' : Bool} (hnum : num < s.dim_width d)
    (hnum' : num' < s.dim_width d') (heq : port_start s d up + num = port_start s d' up' + num') :
    d = d' ∧ up = up' ∧ num = num' := by
  have hb := port_bounds hnum up
  have hb' := port_bounds hnum' up'
  obtain rfl : d = d' := by
    rcases Nat.lt_trichotomy d d' with hlt | rfl | hgt
    · have := first_port_mono (s := s) (show d + 1 ≤ d' from hlt)
      omega
    · rfl
    · have := first_port_mono (s := s) (show d' + 1 ≤ d from hgt)
      omega
  unfold port_start at heq
  cases up <;> cases up' <;> simp at heq <;> simp <;> omega

theorem radix_eq : radix s = needed_ports s + s.local_ports := by
  simp only [radix, needed_ports, mul_comm _ 2]
  omega

end Ports

section Neighbours

variable {s : Shape} {x : List Nat}

/-- The next position in a dimension, in one of its directions. -/
def step (s : Shape) (d : Nat) (up : Bool) (v : Nat) : Nat :=
  if up then Ring.next (s.dim_size d) v else Ring.prev (s.dim_size d) v

/-- The location next to one in a dimension. -/
def neighbour (s : Shape) (x : List Nat) (d : Nat) (up : Bool) : List Nat :=
  x.set d (step s d up (x.getD d 0))

def linkName (s : Shape) (x : List Nat) (d : Nat) (up : Bool) (num : Nat) : LinkName :=
  if up then
    .link x (neighbour s x d up) num
  else
    .link (neighbour s x d up) x num

/-- The router has links in the direction of the dimension. -/
def HasLink (s : Shape) (wrap : Bool) (x : List Nat) (d : Nat) (up : Bool) : Prop :=
  (if up then x.getD d 0 + 1 < s.dim_size d else 0 < x.getD d 0) ∨ wrap = true

variable {d d' num : Nat} {up up' : Bool}

section

variable (hx : Fits s.sizes x) (hd : d < s.dimensions)
include hx hd

theorem neighbour_fits (up : Bool) : Fits s.sizes (neighbour s x d up) := by
  have hpos := Shape.dim_size_pos hd
  apply hx.set
  unfold step
  split
  · exact Nat.mod_lt _ hpos
  · exact Nat.mod_lt _ hpos

theorem neighbour_getD (up : Bool) (d' : Nat) :
    (neighbour s x d up).getD d' 0 = if d' = d then step s d up (x.getD d 0) else x.getD d' 0 := by
  rw [neighbour, set_getD hx hd]

theorem step_ne (hsize : 2 ≤ s.dim_size d) (up : Bool) : step s d up (x.getD d 0) ≠ x.getD d 0 := by
  have hlt := hx.getD_lt hd
  unfold step
  split
  · exact Ring.next_ne hlt hsize
  · exact Ring.prev_ne hlt hsize

theorem neighbour_back (up : Bool) : neighbour s (neighbour s x d up) d (!up) = x := by
  have hlt := hx.getD_lt hd
  have hget := neighbour_getD hx hd up d
  rw [if_pos rfl] at hget
  have hback : step s d (!up) (step s d up (x.getD d 0)) = x.getD d 0 := by
    cases up
    · exact Ring.next_prev hlt
    · exact Ring.prev_next hlt
  rw [neighbour, hget, hback, neighbour, set_set_self hx hd]

theorem dim_eq_of_neighbour_eq (hd' : d' < s.dimensions) (hsize : 2 ≤ s.dim_size d)
    (heq : neighbour s x d up = neighbour s x d' up') :
    d = d' := by
  by_contra hne
  have hget := congrArg (fun z => z.getD d 0) heq
  simp only [neighbour_getD hx hd, neighbour_getD hx hd', if_neg hne] at hget
  exact step_ne hx hd hsize up hget

theorem linkName_back (up : Bool) :
    linkName s (neighbour s x d up) d (!up) num = linkName s x d up num := by
  unfold linkName
  rw [neighbour_back hx hd]
  cases up <;> rfl

end

theorem linkName_inj {y : List Nat} (hx : Fits s.sizes x) (hy : Fits s.sizes y) {num' : Nat}
    (hd : d < s.dimensions) (hd' : d' < s.dimensions) (hsize : 2 ≤ s.dim_size d)
    (heq : linkName s y d' up' num' = linkName s x d up num) :
    num' = num ∧ d' = d ∧ ((y = x ∧ up' = up) ∨ (y = neighbour s x d up ∧ up' = !up)) := by
  have hsame : ∀ (b : Bool), y = x → neighbour s y d' b = neighbour s x d b →
      d' = d := by
    rintro b rfl hnb
    exact (dim_eq_of_neighbour_eq hx hd hd' hsize hnb.symm).symm
  have hother : ∀ (b : Bool), y = neighbour s x d b →
      neighbour s y d' (!b) = x → d' = d := by
    rintro b rfl hnb
    have hfits := neighbour_fits hx hd b
    have hback := neighbour_back hx hd b
    exact (dim_eq_of_neighbour_eq hfits hd hd' hsize (hback.trans hnb.symm)).symm
  unfold linkName at heq
  cases up <;> cases up' <;> simp at heq <;> obtain ⟨h1, h2, h3⟩ := heq
  · exact ⟨h3, hsame false h2 h1, .inl ⟨h2, rfl⟩⟩
  · exact ⟨h3, hother false h1 h2, .inr ⟨h1, rfl⟩⟩
  · exact ⟨h3, hother true h2 h1, .inr ⟨h2, rfl⟩⟩
  · exact ⟨h3, hsame true h1 h2, .inl ⟨h1, rfl⟩⟩

theorem HasLink.back {wrap : Bool} (hx : Fits s.sizes x) (hd : d < s.dimensions)
    (h : HasLink s wrap x d up) :
    HasLink s wrap (neighbour s x d up) d (!up) := by
  have hlt : x.getD d 0 < s.dim_size d := hx.getD_lt hd
  rcases h with h | h
  · left
    rw [neighbour_getD hx hd, if_pos rfl]
    cases up
    · simp only [step, Bool.false_eq_true, if_false] at h ⊢
      rw [Ring.prev_of_pos h hlt]
      simp only [Bool.not_false, if_true]
      omega
    · simp only [step, if_true] at h ⊢
      rw [Ring.next_of_lt h]
      simp
  · exact .inr h

end Neighbours

section Attachments

variable {s : Shape} {wrap : Bool} {built : Nat → Bool}

/-- The ports and the links of a router. -/
inductive Joins (s : Shape) (wrap : Bool) (x : List Nat) : Nat → LinkName → Prop where
  | link {d num : Nat} {up : Bool} :
      d < s.dimensions → num < s.dim_width d → HasLink s wrap x d up →
      Joins s wrap x (port_start s d up + num) (linkName s x d up num)

theorem mem_ite_map_range {α : Type} {p : Prop} [Decidable p] {n : Nat} {f : Nat → α} {a : α} :
    a ∈ (if p then (List.range n).map f else []) ↔ ∃ i < n, p ∧ a = f i := by
  split
  case isTrue h =>
    simp [h, eq_comm]
  case isFalse h =>
    simp [h]

theorem mem_dimLinks {i n d₀ : Nat} {x : List Nat} {a : Attachment LinkName} :
    a ∈ dimLinks s wrap i x n d₀ (first_port s d₀) ↔
      ∃ d num up, d₀ ≤ d ∧ d < d₀ + n ∧ num < s.dim_width d ∧ HasLink s wrap x d up ∧
        a = ⟨.router i (port_start s d up + num), linkName s x d up num⟩ := by
  induction n generalizing d₀ with
  | zero =>
    simp only [dimLinks, not_mem_nil, false_iff]
    rintro ⟨d, num, up, h1, h2, -⟩
    omega
  | succ n ih =>
    have hrest := @ih (d₀ + 1)
    rw [first_port] at hrest
    simp only [dimLinks, mem_append, set_set, mem_ite_map_range, hrest]
    constructor
    · rintro ((⟨num, hnum, hlink, rfl⟩ | ⟨num, hnum, hlink, rfl⟩) | ⟨d, num, up, h1, h2, hrest⟩)
      · exact ⟨d₀, num, true, le_refl _, by omega, hnum, hlink, rfl⟩
      · exact ⟨d₀, num, false, le_refl _, by omega, hnum, hlink, rfl⟩
      · exact ⟨d, num, up, by omega, by omega, hrest⟩
    · rintro ⟨d, num, up, h1, h2, hnum, hlink, rfl⟩
      rcases eq_or_lt_of_le h1 with rfl | hlt
      · left
        cases up
        · exact .inr ⟨num, hnum, hlink, rfl⟩
        · exact .inl ⟨num, hnum, hlink, rfl⟩
      · exact .inr ⟨d, num, up, hlt, by omega, hnum, hlink, rfl⟩

theorem wired :
    Wired .nic s built (local_port_start s) (Joins s wrap) (build s wrap built) where
  mem_iff := by
    rw [build, first_port_dimensions]
    refine mem_routers_iff (fun i x => dimLinks s wrap i x s.dimensions 0 0) fun i x a => ?_
    have hdims := @mem_dimLinks s wrap i s.dimensions 0 x a
    rw [first_port] at hdims
    rw [hdims]
    constructor
    · rintro ⟨d, num, up, -, hd, hnum, hlink, rfl⟩
      exact ⟨_, _, .link (by simpa using hd) hnum hlink, rfl⟩
    · rintro ⟨_, _, ⟨hd, hnum, hlink⟩, rfl⟩
      exact ⟨_, _, _, Nat.zero_le _, by simpa using hd, hnum, hlink, rfl⟩
  port_lt hx hjoins := by
    obtain ⟨hd, hnum, -⟩ := hjoins
    exact port_lt_local hd hnum _
  ne_nic hjoins := by
    obtain @⟨_, _, up, _, _, _⟩ := hjoins
    cases up <;> simp [linkName]
  nic_inj h := LinkName.nic.inj h

end Attachments

section Across

variable {s : Shape} {wrap : Bool} {built : Nat → Bool}

theorem across_neighbour {x : List Nat} {d num : Nat} {up : Bool} (hx : Fits s.sizes x)
    (hd : d < s.dimensions) (hsize : 2 ≤ s.dim_size d) (hnum : num < s.dim_width d)
    (hlink : HasLink s wrap x d up) :
    across (build s wrap built)
        (.router (rtrId s x) (port_start s d up + num)) =
      some (.router (rtrId s (neighbour s x d up))
        (port_start s d (!up) + num)) := by
  have hnb := neighbour_fits hx hd up
  have hdiff : x ≠ neighbour s x d up := by
    intro heq
    have hget := neighbour_getD hx hd up d
    rw [if_pos rfl, ← heq] at hget
    exact step_ne hx hd hsize up hget.symm
  apply wired.across_router hx hnb hdiff (.link hd hnum hlink)
    (linkName_back hx hd up ▸ .link hd hnum (hlink.back hx hd))
  · intro m hm
    generalize hp : port_start s d up + num = p at hm
    obtain ⟨hd', hnum', _⟩ := hm
    obtain ⟨rfl, rfl, rfl⟩ := port_inj hnum hnum' hp
    rfl
  · intro z r hz hr
    generalize hn : linkName s x d up num = n at hr
    obtain ⟨hd', hnum', _⟩ := hr
    obtain ⟨rfl, rfl, ⟨rfl, rfl⟩ | ⟨rfl, rfl⟩⟩ := linkName_inj hx hz hd hd' hsize hn.symm
    · exact .inl ⟨rfl, rfl⟩
    · exact .inr ⟨rfl, rfl⟩

end Across

end SstElements.Merlin.MeshTorus
