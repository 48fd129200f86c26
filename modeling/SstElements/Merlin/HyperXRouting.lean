import SstElements.Merlin.HyperXWiring

/-!
# Routing in a HyperX

The ports that the six algorithms choose from are links to other values of
coordinates that are not aligned.  A minimal route aligns its coordinate, any
other route leaves the set of open dimensions as it is.
-/

namespace SstElements.Merlin.HyperX

open Library.WiredNetwork Library.MixedRadix Library.LeastWeight List
open Library.AllToAll

section Unaligned

variable {s : Shape}

/-- The dimensions in which two locations differ. -/
def unaligned (s : Shape) (x q : List Nat) : List Nat :=
  (range s.dimensions).filter (fun d => q.getD d 0 ≠ x.getD d 0)

theorem mem_unaligned {x q : List Nat} {d : Nat} :
    d ∈ unaligned s x q ↔ d < s.dimensions ∧ q.getD d 0 ≠ x.getD d 0 := by
  simp [unaligned]

theorem unaligned_length_le (x q : List Nat) : (unaligned s x q).length ≤ s.dimensions := by
  refine (length_filter_le _ _).trans ?_
  simp

variable {x q : List Nat} {d : Nat}

section

variable (hx : Fits s.sizes x)
include hx

theorem unaligned_align (hd : d ∈ unaligned s x q) :
    (unaligned s (x.set d (q.getD d 0)) q).length + 1 = (unaligned s x q).length := by
  have hlt := (mem_unaligned.mp hd).1
  have herase : unaligned s (x.set d (q.getD d 0)) q =
      (unaligned s x q).erase d := by
    have hnodup : (unaligned s x q).Nodup := nodup_range.filter _
    rw [hnodup.erase_eq_filter, unaligned, unaligned, filter_filter]
    apply filter_congr
    intro e _
    rw [set_getD hx hlt]
    by_cases hed : e = d
    · subst hed
      simp
    · simp [hed]
  rw [herase, length_erase_of_mem hd]
  have := length_pos_of_mem hd
  omega

theorem unaligned_misroute {v : Nat} (hd : d ∈ unaligned s x q) (hv : v ≠ q.getD d 0) :
    unaligned s (x.set d v) q = unaligned s x q := by
  obtain ⟨hlt, hne⟩ := mem_unaligned.mp hd
  unfold unaligned
  apply filter_congr
  intro e _
  rw [set_getD hx hlt]
  by_cases hed : e = d
  · subst hed
    rw [if_pos rfl]
    exact decide_eq_decide.mpr (iff_of_true hv.symm hne)
  · rw [if_neg hed]

theorem unaligned_eq_nil_iff (hq : Fits s.sizes q) : unaligned s x q = [] ↔ x = q := by
  constructor
  · intro h
    by_contra hne
    obtain ⟨d, hd, hdiff, -⟩ := exists_first_dim hx hq hne
    have hmem : d ∈ unaligned s x q := mem_unaligned.mpr ⟨hd, hdiff⟩
    simp [h] at hmem
  · rintro rfl
    simp [unaligned]

theorem unaligned_pos (hq : Fits s.sizes q) (hne : x ≠ q) : 0 < (unaligned s x q).length := by
  rw [length_pos_iff]
  exact fun h => hne ((unaligned_eq_nil_iff hx hq).mp h)

end

end Unaligned

section Ports

variable {s : Shape} {t : Topo} {q : List Nat}

theorem mem_portsFrom {first count p : Nat} :
    p ∈ portsFrom first count ↔ ∃ i < count, p = first + i := by
  simp only [portsFrom, mem_map, mem_range]
  constructor
  · rintro ⟨i, hi, rfl⟩
    exact ⟨i, hi, rfl⟩
  · rintro ⟨i, hi, rfl⟩
    exact ⟨i, hi, rfl⟩

theorem mem_portsFrom_portTo {d p : Nat} :
    p ∈ portsFrom (portTo s t d q) (s.dim_width d) ↔
      ∃ num < s.dim_width d, p = portOf s t.id_loc d (q.getD d 0) num := by
  simp only [mem_portsFrom, portOf_eq]
  rfl

variable {d n r : Nat} {ev : Packet} {c : Nat × Bool}

theorem exists_value_of_mem_adaptivePorts (hx : Fits s.sizes t.id_loc) (hd : d < s.dimensions)
    (hq : ev.dest_loc.getD d 0 < s.dim_size d) (hne : ev.dest_loc.getD d 0 ≠ t.id_loc.getD d 0)
    (hmem : c ∈ adaptivePorts s t d ev) :
    ∃ v num, v < s.dim_size d ∧ v ≠ t.id_loc.getD d 0 ∧ num < s.dim_width d ∧
      c.1 = portOf s t.id_loc d v num ∧ (c.2 = true ↔ v = ev.dest_loc.getD d 0) := by
  have hpos : 0 < s.dim_width d := Shape.dim_width_pos hd
  obtain ⟨p, hp, rfl⟩ := mem_map.mp hmem
  obtain ⟨o, ho, rfl⟩ := mem_portsFrom.mp hp
  have hdiv : o / s.dim_width d < s.dim_size d - 1 := Nat.div_lt_of_lt_mul (by rwa [mul_comm])
  obtain ⟨v, hv, hvne, hslot⟩ := @exists_slot_eq (s.dim_size d) (t.id_loc.getD d 0) _ hdiv
  have hnum := Nat.mod_lt o hpos
  have hport : port_start s d + o =
      portOf s t.id_loc d v (o % s.dim_width d) := by
    rw [portOf, linkIndex, hslot, Nat.div_add_mod']
  refine ⟨v, o % s.dim_width d, hv, hvne, hnum, hport, ?_⟩
  simp only [decide_eq_true_eq]
  have hto : portTo s t d ev.dest_loc =
      port_start s d + slot (t.id_loc.getD d 0) (ev.dest_loc.getD d 0) *
        s.dim_width d := rfl
  constructor
  · rintro ⟨hge, hlt⟩
    rw [hto] at hge hlt
    obtain ⟨i, hi⟩ := Nat.exists_eq_add_of_le hge
    have hinum : i < s.dim_width d := by omega
    refine (portOf_inj hx hd hv hvne hnum hd hq hne hinum ?_).2.1
    rw [← hport, hi, portOf_eq]
  · rintro rfl
    rw [hport, hto, portOf, linkIndex]
    omega

theorem exists_value_of_mem_vdalPorts
    (hmem : c ∈ vdalPorts s t d ev n r (slot (t.id_loc.getD d 0) r)) :
    ∃ v num, r ≤ v ∧ v < r + n ∧ v ≠ t.id_loc.getD d 0 ∧ num < s.dim_width d ∧
      c.1 = portOf s t.id_loc d v num ∧ (c.2 = true ↔ v = ev.dest_loc.getD d 0) := by
  induction n generalizing r with
  | zero => simp [vdalPorts] at hmem
  | succ n ih =>
    rw [vdalPorts] at hmem
    split at hmem
    · rename_i heq
      have hslot : slot (t.id_loc.getD d 0) r =
          slot (t.id_loc.getD d 0) (r + 1) := by
        unfold slot
        split <;> split <;> omega
      rw [hslot] at hmem
      obtain ⟨v, num, h1, h2, hrest⟩ := ih hmem
      exact ⟨v, num, by omega, by omega, hrest⟩
    · rename_i hne
      have hslot : slot (t.id_loc.getD d 0) r + 1 =
          slot (t.id_loc.getD d 0) (r + 1) := by
        unfold slot
        split <;> split <;> omega
      rcases mem_append.mp hmem with hmem | hmem
      · split at hmem
        · cases hmem
        · obtain ⟨p, hp, rfl⟩ := mem_map.mp hmem
          obtain ⟨num, hnum, rfl⟩ := mem_portsFrom.mp hp
          exact ⟨r, num, le_refl _, by omega, hne, hnum,
            (portOf_eq _ _ _ _).symm, by simp⟩
      · rw [hslot] at hmem
        obtain ⟨v, num, h1, h2, hrest⟩ := ih hmem
        exact ⟨v, num, by omega, by omega, hrest⟩

theorem minimal_mem_vdalPorts (hge : r ≤ ev.dest_loc.getD d 0) (hlt : ev.dest_loc.getD d 0 < r + n)
    (hne : ev.dest_loc.getD d 0 ≠ t.id_loc.getD d 0) (hpos : 0 < s.dim_width d) :
    (portOf s t.id_loc d (ev.dest_loc.getD d 0) 0, true) ∈
      vdalPorts s t d ev n r (slot (t.id_loc.getD d 0) r) := by
  induction n generalizing r with
  | zero => omega
  | succ n ih =>
    rw [vdalPorts]
    split
    · rename_i heq
      have hslot : slot (t.id_loc.getD d 0) r =
          slot (t.id_loc.getD d 0) (r + 1) := by
        unfold slot
        split <;> split <;> omega
      rw [hslot]
      exact ih (by omega) (by omega)
    · rename_i hother
      have hslot : slot (t.id_loc.getD d 0) r + 1 =
          slot (t.id_loc.getD d 0) (r + 1) := by
        unfold slot
        split <;> split <;> omega
      rw [hslot]
      rcases eq_or_lt_of_le hge with heq | hgt
      · apply mem_append_left
        subst heq
        simp only [decide_true, Bool.not_true, Bool.false_eq_true, false_and,
          if_false, mem_map]
        exact ⟨_, mem_portsFrom.mpr ⟨0, hpos, rfl⟩, rfl⟩
      · exact mem_append_right _ (ih hgt (by omega))

end Ports

section Frame

variable {s : Shape} {num_vcs : Nat} {t : Topo}

/-- Routing keeps where a packet goes. -/
structure Keeps (ev ev' : Packet) : Prop where
  dest_eq : ev'.dest = ev.dest
  vn_eq : ev'.vn = ev.vn
  dest_loc_eq : ev'.dest_loc = ev.dest_loc
  val_loc_eq : ev'.val_loc = ev.val_loc

theorem Keeps.refl (ev : Packet) : Keeps ev ev :=
  ⟨rfl, rfl, rfl, rfl⟩

theorem Keeps.trans {ev ev' ev'' : Packet} (h : Keeps ev ev') (h' : Keeps ev' ev'') :
    Keeps ev ev'' :=
  ⟨h'.dest_eq.trans h.dest_eq, h'.vn_eq.trans h.vn_eq,
    h'.dest_loc_eq.trans h.dest_loc_eq, h'.val_loc_eq.trans h.val_loc_eq⟩

theorem routeDOR_keeps (vc : Nat) (ev : Packet) : Keeps ev (routeDOR s t vc ev) := by
  unfold routeDOR
  split <;> exact ⟨rfl, rfl, rfl, rfl⟩

theorem routeDORND_keeps (vc : Nat) (found : Found) (ev : Packet) :
    Keeps ev (routeDORND s num_vcs t vc found ev) := by
  unfold routeDORND
  split <;> exact ⟨rfl, rfl, rfl, rfl⟩

theorem routeValiant_keeps (vc : Nat) (ev : Packet) : Keeps ev (routeValiant s t vc ev) := by
  unfold routeValiant
  dsimp only
  split
  · split
    · split <;> exact ⟨rfl, rfl, rfl, rfl⟩
    · exact ⟨rfl, rfl, rfl, rfl⟩
  · split <;> exact ⟨rfl, rfl, rfl, rfl⟩

theorem routeMINA_keeps (info : VnInfo) (port vc : Nat) (found : Found) (ev : Packet) :
    Keeps ev (routeMINA s num_vcs t info port vc found ev) := by
  unfold routeMINA
  split <;> exact ⟨rfl, rfl, rfl, rfl⟩

theorem routeDOAL_keeps (info : VnInfo) (vc : Nat) (found : Found) (ev : Packet) :
    Keeps ev (routeDOAL s num_vcs t info vc found ev) := by
  unfold routeDOAL
  split
  · exact ⟨rfl, rfl, rfl, rfl⟩
  · split
    · exact .refl ev
    · split
      · exact ⟨rfl, rfl, rfl, rfl⟩
      · dsimp only
        split <;> exact ⟨rfl, rfl, rfl, rfl⟩

theorem routeVDAL_keeps (info : VnInfo) (port vc : Nat) (found : Found) (ev : Packet) :
    Keeps ev (routeVDAL s num_vcs t info port vc found ev) := by
  unfold routeVDAL
  split
  · exact ⟨rfl, rfl, rfl, rfl⟩
  · dsimp only
    split
    · exact routeMINA_keeps info port vc found ev
    · split <;> exact ⟨rfl, rfl, rfl, rfl⟩

theorem route_packet_keeps (port vc : Nat) (found : Found) (ev : Packet) :
    Keeps ev (route_packet s num_vcs t port vc found ev) := by
  have hdor := routeDOR_keeps (s := s) (t := t) vc ev
  unfold route_packet
  dsimp only
  split
  · exact hdor
  · split
    case h_1 => exact hdor
    case h_2 => exact hdor.trans (routeDORND_keeps vc found _)
    case h_3 => exact hdor.trans (routeMINA_keeps _ port vc found _)
    case h_4 => exact hdor.trans (routeValiant_keeps vc _)
    case h_5 => exact hdor.trans (routeDOAL_keeps _ vc found _)
    case h_6 => exact hdor.trans (routeVDAL_keeps _ port vc found _)

end Frame

section Moves

variable {s : Shape} {num_vcs : Nat} {t : Topo} {vc : Nat} {found : Found}
variable {ev : Packet} {info : VnInfo} {x q : List Nat}

/-- The packet leaves on a link to a value of a dimension that is not aligned. -/
structure Moves (s : Shape) (x q : List Nat) (ev : Packet) (d v num : Nat) : Prop where
  open_dim : d ∈ unaligned s x q
  value_lt : v < s.dim_size d
  differs : v ≠ x.getD d 0
  num_lt : num < s.dim_width d
  next_port : ev.next_port = portOf s x d v num

def Aligns (s : Shape) (x q : List Nat) (ev : Packet) : Prop :=
  ∃ d num, Moves s x q ev d (q.getD d 0) num

theorem routeDORBase_eq (hx : Fits s.sizes t.id_loc) (hq : Fits s.sizes q) (hne : t.id_loc ≠ q) :
    ∃ d ∈ unaligned s t.id_loc q, (range s.dimensions).find? (isUnaligned t q) = some d ∧
      routeDORBase s t q = some (d, portTo s t d q) := by
  obtain ⟨d, hd, hdiff, hbefore⟩ := exists_first_dim hx hq hne
  have hfind : (range s.dimensions).find? (isUnaligned t q) = some d := by
    rw [find?_range_eq_some]
    refine ⟨by simpa [isUnaligned] using hdiff, mem_range.mpr hd, ?_⟩
    intro e he
    simpa [isUnaligned] using hbefore e he
  exact ⟨d, mem_unaligned.mpr ⟨hd, hdiff⟩, hfind, by rw [routeDORBase, hfind]; rfl⟩

theorem routeDORBase_self : routeDORBase s t t.id_loc = none := by
  rw [routeDORBase, find?_eq_none.mpr]
  · rfl
  · simp [isUnaligned]

theorem aligns_of_mem {d p : Nat} (hq : Fits s.sizes q) (hd : d ∈ unaligned s t.id_loc q)
    (hmem : p ∈ portsFrom (portTo s t d q) (s.dim_width d)) (hport : ev.next_port = p) :
    Aligns s t.id_loc q ev := by
  obtain ⟨hlt, hne⟩ := mem_unaligned.mp hd
  obtain ⟨num, hnum, rfl⟩ := mem_portsFrom_portTo.mp hmem
  exact ⟨d, num, hd, hq.getD_lt hlt, hne, hnum, hport⟩

theorem portTo_mem {d : Nat} (hd : d ∈ unaligned s t.id_loc q) :
    portTo s t d q ∈ portsFrom (portTo s t d q) (s.dim_width d) :=
  mem_portsFrom.mpr ⟨0, Shape.dim_width_pos (mem_unaligned.mp hd).1, rfl⟩

theorem routeDOR_aligns (hx : Fits s.sizes x) (hq : Fits s.sizes q) (hne : x ≠ q)
    (hself : t.id_loc = x) (hloc : ev.dest_loc = q) :
    Aligns s x q (routeDOR s t vc ev) ∧ (routeDOR s t vc ev).vc = vc := by
  subst hself hloc
  obtain ⟨d, hd, -, hbase⟩ := routeDORBase_eq hx hq hne
  rw [routeDOR, hbase]
  exact ⟨aligns_of_mem hq hd (portTo_mem hd) rfl, rfl⟩

theorem exists_selectLeast_of_below {α : Type} {weight : α → Int} {candidates : List α}
    (h : ∃ w ∈ candidates.map weight, w < maxWeight) :
    ∃ a ∈ candidates, selectLeast maxWeight weight candidates = some a := by
  obtain ⟨w, hw, hlt⟩ := h
  obtain ⟨a, ha, rfl⟩ := mem_map.mp hw
  obtain ⟨b, hb⟩ := exists_selectLeast ha hlt
  exact ⟨b, selectLeast_mem hb, hb⟩

/-- The weights of the links that DOR-ND compares. -/
def weightsDORND (s : Shape) (num_vcs : Nat) (t : Topo) (vc : Nat)
    (found : Found) (q : List Nat) : Option (List Int) :=
  (routeDORBase s t q).map (fun link =>
    (portsFrom link.2 (s.dim_width link.1)).map (fun p => weightOf num_vcs found p vc))

theorem routeDORND_aligns (hx : Fits s.sizes x) (hq : Fits s.sizes q) (hne : x ≠ q)
    (hself : t.id_loc = x) (hloc : ev.dest_loc = q)
    (hbelow : ∀ ws ∈ weightsDORND s num_vcs t vc found q, ∃ w ∈ ws, w < maxWeight) :
    Aligns s x q (routeDORND s num_vcs t vc found ev) ∧
      (routeDORND s num_vcs t vc found ev).vc = vc := by
  subst hself hloc
  obtain ⟨d, hd, -, hbase⟩ := routeDORBase_eq hx hq hne
  rw [weightsDORND, hbase] at hbelow
  obtain ⟨p, hp, hselect⟩ := exists_selectLeast_of_below (hbelow _ rfl)
  simp only [routeDORND, hbase, hselect]
  exact ⟨aligns_of_mem hq hd hp rfl, trivial⟩

/-- The weights of the minimal links that MIN-A compares. -/
def weightsMINA (s : Shape) (num_vcs : Nat) (t : Topo) (info : VnInfo)
    (port vc : Nat) (found : Found) (ev : Packet) : List Int :=
  (minimalPorts s t ev).map
    (fun p => weightOf num_vcs found p (nextVc s info port vc))

theorem routeMINA_aligns {port : Nat} (hq : Fits s.sizes q) (hself : t.id_loc = x)
    (hloc : ev.dest_loc = q) (hne : get_dest_router s ev.dest ≠ t.router_id)
    (hbelow : ∃ w ∈ weightsMINA s num_vcs t info port vc found ev, w < maxWeight) :
    Aligns s x q (routeMINA s num_vcs t info port vc found ev) ∧
      (routeMINA s num_vcs t info port vc found ev).vc = nextVc s info port vc := by
  subst hself hloc
  obtain ⟨p, hp, hselect⟩ := exists_selectLeast_of_below hbelow
  obtain ⟨d, hd, hp⟩ := mem_flatMap.mp hp
  simp only [routeMINA, if_neg hne, hselect]
  exact ⟨aligns_of_mem hq hd hp rfl, trivial⟩

theorem routeValiant_turns (hx : Fits s.sizes x) (hq : Fits s.sizes q) (hne : x ≠ q)
    (hself : t.id_loc = x) (hloc : ev.dest_loc = q) (hmid : ev.val_loc = x)
    (hphase : ev.val_route_dest = false) :
    Aligns s x q (routeValiant s t vc ev) ∧ (routeValiant s t vc ev).vc = vc + 1 ∧
      (routeValiant s t vc ev).val_route_dest = true := by
  subst hself hloc
  obtain ⟨d, hd, -, hbase⟩ := routeDORBase_eq hx hq hne
  simp only [routeValiant, hphase, hmid, routeDORBase_self, hbase, Bool.not_false, if_true]
  exact ⟨aligns_of_mem hq hd (portTo_mem hd) rfl, trivial, trivial⟩

theorem routeValiant_to_midpoint (hx : Fits s.sizes x) (hmid : Fits s.sizes q) (hne : x ≠ q)
    (hself : t.id_loc = x) (hloc : ev.val_loc = q) (hphase : ev.val_route_dest = false) :
    Aligns s x q (routeValiant s t vc ev) ∧ (routeValiant s t vc ev).vc = vc ∧
      (routeValiant s t vc ev).val_route_dest = false := by
  subst hself hloc
  obtain ⟨d, hd, -, hbase⟩ := routeDORBase_eq hx hmid hne
  simp only [routeValiant, hphase, hbase, Bool.not_false, if_true]
  exact ⟨aligns_of_mem hmid hd (portTo_mem hd) rfl, trivial, trivial⟩

theorem routeValiant_to_dest (hx : Fits s.sizes x) (hq : Fits s.sizes q) (hne : x ≠ q)
    (hself : t.id_loc = x) (hloc : ev.dest_loc = q) (hphase : ev.val_route_dest = true) :
    Aligns s x q (routeValiant s t vc ev) ∧ (routeValiant s t vc ev).vc = vc ∧
      (routeValiant s t vc ev).val_route_dest = true := by
  subst hself hloc
  obtain ⟨d, hd, -, hbase⟩ := routeDORBase_eq hx hq hne
  simp only [routeValiant, hphase, hbase, Bool.not_true, Bool.false_eq_true, if_false]
  exact ⟨aligns_of_mem hq hd (portTo_mem hd) rfl, trivial, trivial⟩

def weightsDOAL (s : Shape) (num_vcs : Nat) (t : Topo) (info : VnInfo)
    (vc : Nat) (found : Found) (ev : Packet) : Option (List Int) :=
  ((range s.dimensions).find? (isUnaligned t ev.dest_loc)).map (fun dim =>
    if vc = info.start_vc + 1 then
      (portsFrom (portTo s t dim ev.dest_loc) (s.dim_width dim)).map
        (fun p => weightOf num_vcs found p vc)
    else
      (adaptivePorts s t dim ev).map (fun c =>
        if c.2 then
          weightOf num_vcs found c.1 vc
        else
          misrouteWeightOf num_vcs found c.1 (vc + 1)))

section

variable (hx : Fits s.sizes x) (hq : Fits s.sizes q) (haway : x ≠ q)
include hx hq haway

theorem routeDOAL_aligns (hself : t.id_loc = x) (hloc : ev.dest_loc = q)
    (hne : get_dest_router s ev.dest ≠ t.router_id) (hvc : vc = info.start_vc + 1)
    (hbelow : ∀ ws ∈ weightsDOAL s num_vcs t info vc found ev, ∃ w ∈ ws, w < maxWeight) :
    Aligns s x q (routeDOAL s num_vcs t info vc found ev) ∧
      (routeDOAL s num_vcs t info vc found ev).vc = info.start_vc := by
  subst hself hloc
  obtain ⟨d, hd, hfind, -⟩ := routeDORBase_eq hx hq haway
  rw [weightsDOAL, hfind, Option.map_some, if_pos hvc] at hbelow
  obtain ⟨p, hp, hselect⟩ := exists_selectLeast_of_below (hbelow _ rfl)
  simp only [routeDOAL, if_neg hne, hfind, if_pos hvc, hselect]
  refine ⟨aligns_of_mem hq hd hp rfl, ?_⟩
  rw [hvc]
  rfl

theorem routeDOAL_adaptive (hself : t.id_loc = x) (hloc : ev.dest_loc = q)
    (hne : get_dest_router s ev.dest ≠ t.router_id) (hvc : vc = info.start_vc)
    (hbelow : ∀ ws ∈ weightsDOAL s num_vcs t info vc found ev, ∃ w ∈ ws, w < maxWeight) :
    ∃ d v num, Moves s x q (routeDOAL s num_vcs t info vc found ev) d v num ∧
      (routeDOAL s num_vcs t info vc found ev).vc = if v = q.getD d 0 then
          info.start_vc
        else
          info.start_vc + 1 := by
  subst hself hloc
  obtain ⟨d, hd, hfind, -⟩ := routeDORBase_eq hx hq haway
  have hvc' : ¬ vc = info.start_vc + 1 := by omega
  rw [weightsDOAL, hfind, Option.map_some, if_neg hvc'] at hbelow
  obtain ⟨c, hc, hselect⟩ := exists_selectLeast_of_below (hbelow _ rfl)
  obtain ⟨hlt, hdiff⟩ := mem_unaligned.mp hd
  obtain ⟨v, num, hv, hvne, hnum, hport, hminimal⟩ :=
    exists_value_of_mem_adaptivePorts hx hlt (hq.getD_lt hlt) hdiff hc
  simp only [routeDOAL, if_neg hne, hfind, if_neg hvc', hselect]
  refine ⟨d, v, num, ⟨hd, hv, hvne, hnum, by rw [hport]⟩, ?_⟩
  simp only [hminimal, hvc]

end

theorem minimal_mem_vdalPorts_start {d : Nat} (hq : Fits s.sizes ev.dest_loc)
    (hd : d ∈ unaligned s t.id_loc ev.dest_loc) :
    (portOf s t.id_loc d (ev.dest_loc.getD d 0) 0, true) ∈
      vdalPorts s t d ev (s.dim_size d) 0 0 := by
  obtain ⟨hlt, hdiff⟩ := mem_unaligned.mp hd
  have hvalue : ev.dest_loc.getD d 0 < 0 + s.dim_size d := by
    rw [zero_add]
    exact hq.getD_lt hlt
  have hmem := minimal_mem_vdalPorts (Nat.zero_le _) hvalue hdiff
    (Shape.dim_width_pos hlt)
  rwa [slot_zero] at hmem

theorem routeVDAL_adaptive {port : Nat} (hx : Fits s.sizes x) (hq : Fits s.sizes q) (haway : x ≠ q)
    (hself : t.id_loc = x) (hloc : ev.dest_loc = q) (hne : get_dest_router s ev.dest ≠ t.router_id)
    (hspare : ¬ ((unalignedDimensions s t ev).length : Int) =
      info.num_vcs - vcInVn s info port vc - 1) :
    ∃ d v num, Moves s x q (routeVDAL s num_vcs t info port vc found ev) d v num ∧
      (routeVDAL s num_vcs t info port vc found ev).vc = nextVc s info port vc := by
  subst hself hloc
  simp only [routeVDAL, if_neg hne, if_neg hspare]
  split
  case h_1 hnone =>
    have hnil := length_eq_zero_iff.mp (Nat.eq_zero_of_not_pos fun hpos =>
      Nat.not_lt_of_ge (getElem?_eq_none_iff.mp hnone) (Nat.mod_lt found.random hpos))
    refine absurd hnil (selectAllLeast_ne_nil ?_ ?_)
    · obtain ⟨d, hd, -, -⟩ := routeDORBase_eq hx hq haway
      have hmem := minimal_mem_vdalPorts_start hq hd
      exact ne_nil_of_mem (mem_flatMap.mpr ⟨d, hd, hmem⟩)
    · intro c _
      split
      · exact Int32.toInt_le _
      · exact Int32.toInt_le _
  case h_2 p minimal hsome =>
    obtain ⟨d, hd, hmem⟩ := mem_flatMap.mp
      (mem_of_mem_selectAllLeast (mem_of_getElem? hsome))
    have hstart : (p, minimal) ∈ vdalPorts s t d ev (s.dim_size d) 0
        (slot (t.id_loc.getD d 0) 0) := by
      rwa [slot_zero]
    obtain ⟨v, num, -, hv, hvne, hnum, rfl, -⟩ := exists_value_of_mem_vdalPorts hstart
    rw [zero_add] at hv
    exact ⟨d, v, num, ⟨hd, hv, hvne, hnum, rfl⟩, rfl⟩

end Moves

end SstElements.Merlin.HyperX
