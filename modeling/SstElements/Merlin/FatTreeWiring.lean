import Mathlib.Data.List.GetD
import SstElements.Merlin.FatTree

/-!
# The wiring of a fat tree

The counts of routers and groups have closed forms in the products of the
links of the levels.  With them every attachment of the build is given by the
level, the group and the number in the group of its router, and the topology
object of a router recovers its level and group from its id.
-/

namespace SstElements.Merlin.FatTree

open Library.WiredNetwork Nat List

section Counts

namespace Shape

variable (s : Shape)

/-- The hosts below a router of the level under the given one. -/
def hostsBelow (level : Nat) : Nat := (s.downs.take level).prod

def groupSize (level : Nat) : Nat := (s.ups.take level).prod

def groups (level : Nat) : Nat := (s.downs.drop (level + 1)).prod

variable {s}

theorem levels_pos : 0 < s.levels := by
  rw [levels, s.levels_eq]
  exact succ_pos _

variable {level : Nat}

theorem down_pos (h : level < s.levels) : 0 < s.down level := by
  rw [down, getD_eq_getElem _ _ h]
  exact s.downs_pos _ (getElem_mem h)

theorem hostsBelow_succ (h : level < s.levels) :
    s.hostsBelow (level + 1) = s.hostsBelow level * s.down level := by
  rw [hostsBelow, hostsBelow, prod_take_succ _ _ h, down, getD_eq_getElem _ _ h]

theorem hostsBelow_one : s.hostsBelow 1 = s.down 0 := by
  rw [hostsBelow_succ levels_pos, hostsBelow, take_zero, prod_nil, one_mul]

theorem groupSize_succ (h : level + 1 < s.levels) :
    s.groupSize (level + 1) = s.groupSize level * s.up level := by
  have hlen : level < s.ups.length := by
    rw [levels, s.levels_eq] at h
    omega
  rw [groupSize, groupSize, prod_take_succ _ _ hlen, up, getD_eq_getElem _ _ hlen]

theorem groupSize_pos (level : Nat) : 0 < s.groupSize level :=
  prod_pos (fun u hu => s.ups_pos u (mem_of_mem_take hu))

theorem groups_pos (level : Nat) : 0 < s.groups level :=
  prod_pos (fun d hd => s.downs_pos d (mem_of_mem_drop hd))

theorem groups_eq (h : level + 1 < s.levels) :
    s.groups level = s.down (level + 1) * s.groups (level + 1) := by
  rw [groups, groups, drop_eq_getElem_cons h, prod_cons, down, getD_eq_getElem _ _ h]

theorem groups_top (h : s.levels = level + 1) : s.groups level = 1 := by
  rw [groups, drop_of_length_le (le_of_eq h), prod_nil]

theorem total_hosts_eq (level : Nat) :
    s.total_hosts = s.hostsBelow (level + 1) * s.groups level := by
  rw [hostsBelow, groups, total_hosts, prod_take_mul_prod_drop]

theorem host_lt {group j : Nat} (hgroup : group < s.groups 0) (hj : j < s.down 0) :
    group * s.down 0 + j < s.total_hosts := by
  rw [total_hosts_eq 0, hostsBelow_one, mul_comm (s.down 0)]
  have hmul := mul_le_mul_right (s.down 0) hgroup
  rw [Nat.succ_mul] at hmul
  omega

theorem group_lt {node : Nat} (hnode : node < s.total_hosts) : node / s.down 0 < s.groups 0 := by
  apply Nat.div_lt_of_lt_mul
  rwa [total_hosts_eq 0, hostsBelow_one] at hnode

theorem routers_per_level_eq (h : level < s.levels) :
    s.routers_per_level level = s.groups level * s.groupSize level := by
  induction level with
  | zero =>
    rw [routers_per_level, total_hosts_eq 0, hostsBelow_succ h]
    simp [hostsBelow, groupSize, Nat.mul_div_cancel_left _ (down_pos h)]
  | succ level ih =>
    rw [routers_per_level, ih (by omega), groups_eq h, groupSize_succ h]
    have hdown := down_pos h
    apply Nat.div_eq_of_eq_mul_right hdown
    simp only [mul_assoc]

theorem groups_per_level_eq (h : level < s.levels) : s.groups_per_level level = s.groups level := by
  induction level with
  | zero =>
    rw [groups_per_level]
    split
    · rename_i hups
      rw [groups_top]
      rw [levels, s.levels_eq, isEmpty_iff.mp hups]
      rfl
    · rw [total_hosts_eq 0, hostsBelow_one, Nat.mul_div_cancel_left _ (down_pos h)]
  | succ level ih =>
    rw [groups_per_level]
    split
    · rw [ih (by omega), groups_eq h, Nat.mul_div_cancel_left _ (down_pos h)]
    · rw [groups_top (by omega)]

theorem rtrs_in_group_eq (h : level < s.levels) : s.rtrs_in_group level = s.groupSize level := by
  rw [rtrs_in_group, routers_per_level_eq h, groups_per_level_eq h,
    Nat.mul_div_cancel_left _ (groups_pos level)]

end Shape

end Counts

section RouterIds

variable {s : Shape}

/-- The id of a router from its place in the tree. -/
def rtrId (s : Shape) (level group i : Nat) : Nat :=
  s.start_ids level + (group * s.groupSize level + i)

/-- A place in the tree that a router takes. -/
structure IsPlace (s : Shape) (level group i : Nat) : Prop where
  level_lt : level < s.levels
  group_lt : group < s.groups level
  router_lt : i < s.groupSize level

variable {level group i : Nat}

theorem IsPlace.index_lt (h : IsPlace s level group i) :
    group * s.groupSize level + i < s.routers_per_level level := by
  rw [Shape.routers_per_level_eq h.level_lt]
  have hgroup : (group + 1) * s.groupSize level ≤
      s.groups level * s.groupSize level :=
    mul_le_mul_right _ h.group_lt
  have hi := h.router_lt
  rw [add_mul, one_mul] at hgroup
  omega

theorem findLevel_eq {k : Nat} (hk : k < s.routers_per_level level) (n i : Nat) (hi : i ≤ level)
    (hn : level < i + n) (hlevel : level < s.levels) :
    findLevel s (s.start_ids level + k) n i (s.start_ids i) (s.groupSize i) =
      some (level, k, k / s.groupSize level) := by
  induction n generalizing i with
  | zero => omega
  | succ n ih =>
    rw [findLevel]
    rcases eq_or_lt_of_le hi with rfl | hlt
    · rw [if_pos (by omega), Nat.add_sub_cancel_left]
    · have hnext : ¬ s.start_ids level + k <
          s.start_ids i + s.routers_per_level i := by
        have hmono : s.start_ids (i + 1) ≤ s.start_ids level :=
          monotone_nat_of_le_succ (f := s.start_ids)
            (fun j => Nat.le_add_right _ _) hlt
        rw [Shape.start_ids] at hmono
        omega
      have hsucc := ih (i + 1) hlt (by omega)
      rw [Shape.start_ids, Shape.groupSize_succ (by omega)] at hsucc
      rw [if_neg hnext, hsucc]

section

variable (h : IsPlace s level group i)
include h

theorem findLevel_rtrId :
    findLevel s (rtrId s level group i) s.levels 0 0 1 =
      some (level, group * s.groupSize level + i, group) := by
  have hfind := findLevel_eq h.index_lt s.levels 0 (zero_le _)
    (by simpa using h.level_lt) h.level_lt
  have hgroup : (group * s.groupSize level + i) / s.groupSize level = group := by
    rw [mul_comm, mul_add_div (Shape.groupSize_pos level),
      div_eq_of_lt h.router_lt, add_zero]
  rw [hgroup] at hfind
  simpa [rtrId, Shape.start_ids, Shape.groupSize] using hfind

theorem rtrId_inj {level' group' i' : Nat} (h' : IsPlace s level' group' i')
    (heq : rtrId s level group i = rtrId s level' group' i') :
    level = level' ∧ group = group' ∧ i = i' := by
  have hfind := findLevel_rtrId h
  rw [heq, findLevel_rtrId h'] at hfind
  simp only [Option.some.injEq, Prod.mk.injEq] at hfind
  obtain ⟨rfl, hindex, rfl⟩ := hfind
  exact ⟨rfl, rfl, by omega⟩

theorem topo_fattree_rtrId (num_ports : Nat) :
    topo_fattree s num_ports (rtrId s level group i) = some
        { rtr_level := level
          level_id := group * s.groupSize level + i
          level_group := group
          down_ports := s.down level
          up_ports := s.up level
          num_ports := num_ports
          down_route_factor := s.hostsBelow level
          low_host := group * s.hostsBelow (level + 1)
          high_host := group * s.hostsBelow (level + 1) +
            s.hostsBelow (level + 1) - 1 } := by
  have hfactor : s.hostsBelow (level + 1) / s.down level = s.hostsBelow level := by
    rw [Shape.hostsBelow_succ h.level_lt, Nat.mul_div_cancel _ (Shape.down_pos h.level_lt)]
  simp only [topo_fattree, findLevel_rtrId h]
  rw [← hfactor]
  rfl

end

end RouterIds

section Dealing

theorem filter_range_mod {U i : Nat} (hi : i < U) (u : Nat) :
    (range (U * u)).filter (fun x => x % U = i) = (range u).map (fun m => i + m * U) := by
  induction u with
  | zero => simp
  | succ u ih =>
    have hround :
        ((range U).map (fun x => U * u + x)).filter
          (fun x => x % U = i) = [U * u + i] := by
      rw [filter_map]
      have hself :
          (range U).filter ((fun x => decide (x % U = i)) ∘
            (fun x => U * u + x)) = [i] := by
        have hcongr :
            (range U).filter ((fun x => decide (x % U = i)) ∘ (fun x => U * u + x)) =
            (range U).filter (fun x => x == i) := by
          apply filter_congr
          intro x hx
          rw [Function.comp_apply, mul_add_mod, mod_eq_of_lt (mem_range.mp hx)]
          exact (Bool.beq_eq_decide_eq _ _).symm
        rw [hcongr, filter_beq, count_eq_one_of_mem
          nodup_range (mem_range.mpr hi)]
        rfl
      rw [hself]
      rfl
    rw [Nat.mul_succ, range_add, filter_append, ih, hround,
      range_succ, map_append]
    simp [add_comm, mul_comm]

theorem addUpLinks_getElem? (f : Nat → LinkName) (rtrs : List (List LinkName)) (N i : Nat) :
    (addUpLinks ((range N).map f) rtrs)[i]? = rtrs[i]?.map (fun own =>
        own ++ ((range N).filter (fun x => x % rtrs.length = i)).map f) ∧
    (addUpLinks ((range N).map f) rtrs).length = rtrs.length := by
  induction N with
  | zero => simp [addUpLinks]
  | succ N ih =>
    have hstep :
        addUpLinks ((range (N + 1)).map f) rtrs =
          (addUpLinks ((range N).map f) rtrs).modify
            (N % rtrs.length) (fun own => own ++ [f N]) := by
      rw [range_succ, map_append, addUpLinks, zipIdx_append, foldl_append]
      simp only [length_map, length_range, zero_add,
        map_cons, map_nil, zipIdx_cons, zipIdx_nil,
        foldl_cons, foldl_nil]
      rw [← addUpLinks, ih.2]
    rw [hstep, getElem?_modify, length_modify, ih.1]
    refine ⟨?_, ih.2⟩
    rw [range_succ, filter_append]
    by_cases hturn : N % rtrs.length = i
    · simp [hturn, Function.comp_def]
    · simp [hturn]

theorem addUpLinks_group (f : Nat → LinkName) (rtrs : List (List LinkName)) (u i : Nat)
    (hi : i < rtrs.length) :
    (addUpLinks ((range (rtrs.length * u)).map f) rtrs)[i]? =
      some (rtrs[i] ++ (range u).map (fun m => f (i + m * rtrs.length))) := by
  rw [(addUpLinks_getElem? f rtrs _ i).1, getElem?_eq_getElem hi,
    filter_range_mod hi u, map_map]
  rfl

end Dealing

section Links

variable {s : Shape} {built : Nat → Bool}

/-- The links a group below the top level is given from above. -/
def upLinks (s : Shape) (level group : Nat) : List LinkName :=
  (range (s.groupSize (level + 1))).map (fun x =>
    .link (level + 1) (group / s.down (level + 1)) x (group % s.down (level + 1)))

/-- The port of a router carries the link. -/
inductive Carries (s : Shape) (built : Nat → Bool) (level group i : Nat) :
    Nat → LinkName → Prop where
  | host {p node : Nat} :
      level = 0 → (hostsOf s built group)[p]? = some node →
      Carries s built level group i p (.hostlink node)
  | down {p : Nat} :
      0 < level → p < s.down level →
      Carries s built level group i p (.link level group i p)
  | up {m : Nat} :
      level + 1 < s.levels → m < s.up level →
      Carries s built level group i (s.down level + m)
        (.link (level + 1) (group / s.down (level + 1))
          (i + m * s.groupSize level) (group % s.down (level + 1)))

/-- The attachments of a fat tree with several levels. -/
inductive Attached (s : Shape) (built : Nat → Bool) : Attachment LinkName → Prop where
  | router {level group i p : Nat} {n : LinkName} :
      IsPlace s level group i → Carries s built level group i p n →
      Attached s built ⟨.router (rtrId s level group i) p, n⟩
  | endpoint {node : Nat} :
      node < s.total_hosts → built node = true →
      Attached s built ⟨.endpoint node, .hostlink node⟩

theorem mem_concat_links {parts : List Built} {a : Attachment LinkName} :
    a ∈ (Built.concat parts).links ↔ ∃ b ∈ parts, a ∈ b.links := by
  simp [Built.concat]

variable {r : Nat × Nat}

theorem mem_concat_routers {parts : List Built} :
    r ∈ (Built.concat parts).routers ↔ ∃ b ∈ parts, r ∈ b.routers := by
  simp [Built.concat]

theorem mem_addRouter {id radix : Nat} {links : List LinkName} {a : Attachment LinkName} :
    a ∈ (addRouter id radix links).links ↔
      ∃ p, links[p]? = some a.link ∧ a.place = .router id p := by
  simp only [addRouter, mem_map, Prod.exists, mk_mem_zipIdx_iff_getElem?]
  constructor
  · rintro ⟨n, p, hp, rfl⟩
    exact ⟨p, hp, rfl⟩
  · rintro ⟨p, hp, hplace⟩
    refine ⟨a.link, p, hp, ?_⟩
    rw [← hplace]

variable {level group j i : Nat} {b : Built} {a : Attachment LinkName}

theorem rtr_links_getElem? (hlevel : level < s.levels) (group i : Nat) :
    (rtr_links s level group)[i]? = if i < s.groupSize level then
        some ((range (s.down level)).map (fun j => .link level group i j))
      else
        none := by
  rw [rtr_links, Shape.rtrs_in_group_eq hlevel]
  by_cases hi : i < s.groupSize level <;> simp [hi]

theorem rtr_links_length (hlevel : level < s.levels) (group : Nat) :
    (rtr_links s level group).length = s.groupSize level := by
  simp [rtr_links, Shape.rtrs_in_group_eq hlevel]

section

variable (hlevel : level + 1 < s.levels)
include hlevel

theorem group_links_getElem? :
    (group_links s (level + 1) group)[j]? = if j < s.down (level + 1) then
        some (upLinks s level (group * s.down (level + 1) + j))
      else
        none := by
  have hdown := Shape.down_pos hlevel
  by_cases hj : j < s.down (level + 1)
  · have hdiv : (group * s.down (level + 1) + j) / s.down (level + 1) = group := by
      rw [mul_comm, mul_add_div hdown, div_eq_of_lt hj, add_zero]
    have hmod : (group * s.down (level + 1) + j) % s.down (level + 1) = j := by
      rw [mul_comm, mul_add_mod, mod_eq_of_lt hj]
    simp [group_links, rtr_links, Shape.rtrs_in_group_eq hlevel, hj, upLinks,
      hdiv, hmod, filterMap_map]
  · simp [group_links, hj]

theorem dealt_getElem? (hi : i < s.groupSize level) :
    (addUpLinks (upLinks s level group) (rtr_links s level group))[i]? =
      some ((range (s.down level)).map (fun j => .link level group i j) ++
        (range (s.up level)).map (fun m =>
          .link (level + 1) (group / s.down (level + 1))
            (i + m * s.groupSize level) (group % s.down (level + 1)))) := by
  have hlen := rtr_links_length (lt_of_succ_lt hlevel) group
  have hdealt := addUpLinks_group
    (fun x => .link (level + 1) (group / s.down (level + 1)) x (group % s.down (level + 1)))
    (rtr_links s level group) (s.up level) i (hlen ▸ hi)
  have hown := rtr_links_getElem? (lt_of_succ_lt hlevel) group i
  rw [if_pos hi, getElem?_eq_getElem (hlen ▸ hi)] at hown
  rw [Option.some.inj hown, hlen, ← Shape.groupSize_succ hlevel] at hdealt
  exact hdealt

theorem dealt_length :
    (addUpLinks (upLinks s level group) (rtr_links s level group)).length = s.groupSize level := by
  rw [upLinks, (addUpLinks_getElem? _ _ _ 0).2, rtr_links_length (lt_of_succ_lt hlevel) group]

end

theorem carries_iff_getElem? {p : Nat} {n : LinkName} (hpos : 0 < level)
    (hlevel : level + 1 < s.levels) :
    ((range (s.down level)).map (fun j => LinkName.link level group i j) ++
      (range (s.up level)).map (fun m =>
        LinkName.link (level + 1) (group / s.down (level + 1))
          (i + m * s.groupSize level) (group % s.down (level + 1))))[p]? = some n ↔
      Carries s built level group i p n := by
  constructor
  · intro h
    rcases lt_or_ge p (s.down level) with hp | hp
    · rw [getElem?_append_left (by simpa using hp)] at h
      obtain rfl : LinkName.link level group i p = n := by simpa [hp] using h
      exact .down hpos hp
    · rw [getElem?_append_right (by simpa using hp)] at h
      obtain ⟨m, rfl⟩ := Nat.exists_eq_add_of_le hp
      simp only [length_map, length_range, Nat.add_sub_cancel_left,
        getElem?_map, Option.map_eq_some_iff,
        getElem?_eq_some_iff, getElem_range] at h
      obtain ⟨_, ⟨hm, rfl⟩, rfl⟩ := h
      exact .up hlevel (by simpa using hm)
  · rintro (⟨hzero, -⟩ | ⟨-, hp⟩ | ⟨-, hm⟩)
    · omega
    · rw [getElem?_append_left (by simpa using hp)]
      simp [hp]
    · rw [getElem?_append_right (by simp)]
      simp [hm]

/-- The part of the build below a group of a level under the top. -/
def subtree (s : Shape) (built : Nat → Bool) (level group : Nat) : Built :=
  fattree_rb s built level group (upLinks s level group)

def groupRouters (s : Shape) (level group : Nat) : List Built :=
  (addUpLinks (upLinks s level group) (rtr_links s level group)).zipIdx.map
    (fun l => addRouter
      (s.start_ids level + group * s.rtrs_in_group level + l.2) (s.up level + s.down level) l.1)

theorem mem_groupRouters (hlevel : level + 1 < s.levels) :
    b ∈ groupRouters s level group ↔ ∃ i < s.groupSize level,
        b = addRouter (rtrId s level group i) (s.up level + s.down level)
          ((range (s.down level)).map (fun j => .link level group i j) ++
            (range (s.up level)).map (fun m =>
              .link (level + 1) (group / s.down (level + 1))
                (i + m * s.groupSize level) (group % s.down (level + 1)))) := by
  have hid : ∀ i, s.start_ids level + group * s.rtrs_in_group level + i =
      rtrId s level group i := by
    intro i
    rw [Shape.rtrs_in_group_eq (lt_of_succ_lt hlevel), rtrId, add_assoc]
  simp only [groupRouters, List.mem_map, Prod.exists, List.mk_mem_zipIdx_iff_getElem?, hid]
  constructor
  · rintro ⟨links, i, hlinks, rfl⟩
    have hi : i < s.groupSize level := by
      rw [← dealt_length hlevel]
      exact (List.getElem?_eq_some_iff.mp hlinks).1
    rw [dealt_getElem? hlevel hi] at hlinks
    rw [← Option.some.inj hlinks]
    exact ⟨i, hi, rfl⟩
  · rintro ⟨i, hi, rfl⟩
    exact ⟨_, i, dealt_getElem? hlevel hi, rfl⟩

theorem subtree_succ (hlevel : level + 2 < s.levels) :
    subtree s built (level + 1) group = Built.concat
        ((range (s.down (level + 1))).map (fun j =>
          subtree s built level (group * s.down (level + 1) + j)) ++
        groupRouters s (level + 1) group) := by
  have hbelow :
      (group_links s (level + 1) group).zipIdx.map (fun l =>
        fattree_rb s built level (group * s.down (level + 1) + l.2) l.1) =
      (range (s.down (level + 1))).map (fun j =>
        subtree s built level (group * s.down (level + 1) + j)) := by
    apply ext_getElem?
    intro j
    rw [getElem?_map, getElem?_zipIdx, getElem?_map,
      group_links_getElem? (lt_of_succ_lt hlevel)]
    by_cases hj : j < s.down (level + 1) <;> simp [hj, subtree]
  rw [subtree, fattree_rb, hbelow]
  rfl

theorem subtree_zero (group : Nat) :
    subtree s built 0 group = buildEdge s built (rtrId s 0 group 0) (upLinks s 0 group) := by
  rw [subtree, fattree_rb, Shape.rtrs_in_group_eq Shape.levels_pos]
  rfl

@[simp]
theorem rtrId_edge (group : Nat) : rtrId s 0 group 0 = group := by
  simp [rtrId, Shape.start_ids, Shape.groupSize]

theorem mem_hostsOf {group node : Nat} :
    node ∈ hostsOf s built group ↔
      (∃ i < s.down 0, node = group * s.down 0 + i) ∧ built node = true := by
  simp only [hostsOf, mem_filter, mem_map, mem_range]
  constructor
  · rintro ⟨⟨i, hi, rfl⟩, hbuilt⟩
    exact ⟨⟨i, hi, rfl⟩, hbuilt⟩
  · rintro ⟨⟨i, hi, rfl⟩, hbuilt⟩
    exact ⟨⟨i, hi, rfl⟩, hbuilt⟩

theorem mem_buildEdge (hlevel : 1 < s.levels) :
    a ∈ (buildEdge s built group (upLinks s 0 group)).links ↔
      (∃ node ∈ hostsOf s built group, a = ⟨.endpoint node, .hostlink node⟩) ∨
      ∃ p, a.place = .router group p ∧ Carries s built 0 group 0 p a.link := by
  have hup : s.groupSize 1 = s.up 0 := by
    rw [Shape.groupSize_succ hlevel]
    simp [Shape.groupSize]
  have hsize : s.groupSize 0 = 1 := by simp [Shape.groupSize]
  simp only [buildEdge, mem_append, mem_map, Prod.exists,
    mk_mem_zipIdx_iff_getElem?, or_assoc]
  constructor
  · rintro (⟨node, hnode, rfl⟩ | ⟨node, p, hnode, rfl⟩ | ⟨n, m, hm, rfl⟩)
    · exact .inl ⟨node, hnode, rfl⟩
    · exact .inr ⟨p, rfl, .host rfl hnode⟩
    · refine .inr ⟨s.down 0 + m, by rw [add_comm], ?_⟩
      simp only [upLinks, getElem?_map, Option.map_eq_some_iff,
        getElem?_eq_some_iff, getElem_range] at hm
      obtain ⟨_, ⟨hm, rfl⟩, rfl⟩ := hm
      have hcarries : Carries s built 0 group 0 (s.down 0 + m) _ :=
        .up hlevel (by simpa [hup] using hm)
      simpa [hsize] using hcarries
  · rintro (⟨node, hnode, rfl⟩ | ⟨p, hplace, hcarries⟩)
    · exact .inl ⟨node, hnode, rfl⟩
    · obtain ⟨place, link⟩ := a
      obtain rfl : place = .router group p := hplace
      cases hcarries with
      | host _ hnode => exact .inr (.inl ⟨_, p, hnode, rfl⟩)
      | down hpos _ => omega
      | @up m _ hm =>
        refine .inr (.inr ⟨_, m, ?_, by rw [add_comm]⟩)
        simp [upLinks, hup, hm, hsize]

theorem mem_links_groupRouters (hpos : 0 < level) (hlevel : level + 1 < s.levels) :
    (∃ b ∈ groupRouters s level group, a ∈ b.links) ↔
      ∃ i < s.groupSize level, ∃ p, a.place = .router (rtrId s level group i) p ∧
        Carries s built level group i p a.link := by
  constructor
  · rintro ⟨b, hb, ha⟩
    obtain ⟨i, hi, rfl⟩ := (mem_groupRouters hlevel).mp hb
    obtain ⟨p, hp, hplace⟩ := mem_addRouter.mp ha
    exact ⟨i, hi, p, hplace, (carries_iff_getElem? hpos hlevel).mp hp⟩
  · rintro ⟨i, hi, p, hplace, hcarries⟩
    exact ⟨_, (mem_groupRouters hlevel).mpr ⟨i, hi, rfl⟩,
      mem_addRouter.mpr ⟨p, (carries_iff_getElem? hpos hlevel).mpr hcarries, hplace⟩⟩

section

variable (hlevel : level + 1 < s.levels)
include hlevel

theorem mem_routers_groupRouters :
    (∃ b ∈ groupRouters s level group, r ∈ b.routers) ↔ ∃ i < s.groupSize level,
        r = (rtrId s level group i, s.up level + s.down level) := by
  constructor
  · rintro ⟨b, hb, hr⟩
    obtain ⟨i, hi, rfl⟩ := (mem_groupRouters hlevel).mp hb
    exact ⟨i, hi, by simpa [addRouter] using hr⟩
  · rintro ⟨i, hi, rfl⟩
    exact ⟨_, (mem_groupRouters hlevel).mpr ⟨i, hi, rfl⟩, by simp [addRouter]⟩

theorem lower_group_lt (hgroup : group < s.groups (level + 1)) (hj : j < s.down (level + 1)) :
    group * s.down (level + 1) + j < s.groups level := by
  rw [Shape.groups_eq hlevel]
  have hmul := mul_le_mul_right (s.down (level + 1)) hgroup
  rw [Nat.succ_mul] at hmul
  rw [mul_comm (s.down (level + 1))]
  omega

theorem subtree_sound (hgroup : group < s.groups level) :
    (∀ a ∈ (subtree s built level group).links, Attached s built a) ∧
      ∀ r ∈ (subtree s built level group).routers, ∃ level' group' i, IsPlace s level' group' i ∧
          r = (rtrId s level' group' i, s.up level' + s.down level') := by
  induction level generalizing group with
  | zero =>
    have hplace : IsPlace s 0 group 0 := ⟨Shape.levels_pos, hgroup, Shape.groupSize_pos 0⟩
    rw [subtree_zero, rtrId_edge]
    constructor
    · intro a ha
      rcases (mem_buildEdge hlevel).mp ha with ⟨node, hnode, rfl⟩ | ⟨p, hp, hcarries⟩
      · obtain ⟨⟨j, hj, rfl⟩, hbuilt⟩ := mem_hostsOf.mp hnode
        refine .endpoint ?_ hbuilt
        exact Shape.host_lt hgroup hj
      · obtain ⟨place, link⟩ := a
        obtain rfl : place = .router group p := hp
        have hattached := Attached.router hplace hcarries
        rwa [rtrId_edge] at hattached
    · intro r hr
      obtain rfl : r = (group, s.up 0 + s.down 0) := by simpa [buildEdge] using hr
      exact ⟨0, group, 0, hplace, by rw [rtrId_edge]⟩
  | succ level ih =>
    have hbelow : ∀ j < s.down (level + 1),
        group * s.down (level + 1) + j < s.groups level :=
      fun j hj => lower_group_lt (lt_of_succ_lt hlevel) hgroup hj
    rw [subtree_succ hlevel]
    constructor
    · intro a ha
      obtain ⟨b, hb, hab⟩ := mem_concat_links.mp ha
      rcases mem_append.mp hb with hb | hb
      · obtain ⟨j, hj, rfl⟩ := mem_map.mp hb
        exact (ih (by omega) (hbelow j (mem_range.mp hj))).1 a hab
      · obtain ⟨i, hi, p, hplace, hcarries⟩ :=
          (mem_links_groupRouters (succ_pos level) hlevel).mp ⟨b, hb, hab⟩
        obtain ⟨place, link⟩ := a
        obtain rfl : place = .router (rtrId s (level + 1) group i) p := hplace
        exact .router ⟨by omega, hgroup, hi⟩ hcarries
    · intro r hr
      obtain ⟨b, hb, hrb⟩ := mem_concat_routers.mp hr
      rcases mem_append.mp hb with hb | hb
      · obtain ⟨j, hj, rfl⟩ := mem_map.mp hb
        exact (ih (by omega) (hbelow j (mem_range.mp hj))).2 r hrb
      · obtain ⟨i, hi, rfl⟩ := (mem_routers_groupRouters hlevel).mp ⟨b, hb, hrb⟩
        exact ⟨level + 1, group, i, ⟨by omega, hgroup, hi⟩, rfl⟩

end

def topRouters (s : Shape) (level : Nat) : List Built :=
  (rtr_links s level 0).zipIdx.map (fun l => addRouter (s.start_ids level + l.2) (s.down level) l.1)

theorem up_top (htop : s.levels = level + 1) : s.up level = 0 := by
  rw [Shape.up, getD_eq_default]
  have hlen := s.levels_eq
  rw [Shape.levels] at htop
  omega

theorem mem_topRouters (htop : s.levels = level + 1) :
    b ∈ topRouters s level ↔ ∃ i < s.groupSize level,
        b = addRouter (rtrId s level 0 i) (s.up level + s.down level)
          ((range (s.down level)).map (fun j => .link level 0 i j)) := by
  have hid : ∀ i, s.start_ids level + i = rtrId s level 0 i := by
    intro i
    rw [rtrId, zero_mul, zero_add]
  simp only [topRouters, mem_map, Prod.exists,
    mk_mem_zipIdx_iff_getElem?, hid, rtr_links_getElem? (s := s)
      (show level < s.levels by omega), up_top htop, zero_add]
  constructor
  · rintro ⟨links, i, hlinks, rfl⟩
    split at hlinks
    · rename_i hi
      rw [← Option.some.inj hlinks]
      exact ⟨i, hi, rfl⟩
    · cases hlinks
  · rintro ⟨i, hi, rfl⟩
    exact ⟨_, i, if_pos hi, rfl⟩

theorem build_eq (htop : s.levels = level + 2) :
    build s built = Built.concat
        ((range (s.down (level + 1))).map (fun j => subtree s built level j) ++
        topRouters s (level + 1)) := by
  have hlen : s.ups.length = level + 1 := by
    have hlevels := s.levels_eq
    rw [Shape.levels] at htop
    omega
  have hbelow :
      (group_links s (level + 1) 0).zipIdx.map (fun l => fattree_rb s built level l.2 l.1) =
      (range (s.down (level + 1))).map (fun j => subtree s built level j) := by
    apply ext_getElem?
    intro j
    rw [getElem?_map, getElem?_zipIdx, getElem?_map, group_links_getElem? (by omega)]
    by_cases hj : j < s.down (level + 1) <;> simp [hj, subtree]
  simp only [build, hlen, hbelow]
  rfl

theorem subtree_subset (k : Nat) (hk : s.levels = level + k + 2) (hgroup : group < s.groups level) :
    (subtree s built level group).links ⊆ (build s built).links ∧
      (subtree s built level group).routers ⊆ (build s built).routers := by
  induction k generalizing level group with
  | zero =>
    have hlt : group < s.down (level + 1) := by
      rw [Shape.groups_eq (by omega), Shape.groups_top (by omega)] at hgroup
      omega
    have hmem : subtree s built level group ∈
        (range (s.down (level + 1))).map (fun j => subtree s built level j) ++
          topRouters s (level + 1) :=
      mem_append_left _
        (mem_map.mpr ⟨group, mem_range.mpr hlt, rfl⟩)
    rw [build_eq hk]
    exact ⟨fun a ha => mem_concat_links.mpr ⟨_, hmem, ha⟩,
      fun r hr => mem_concat_routers.mpr ⟨_, hmem, hr⟩⟩
  | succ k ih =>
    have hdown : 0 < s.down (level + 1) := Shape.down_pos (by omega)
    have habove : group / s.down (level + 1) < s.groups (level + 1) := by
      rw [Shape.groups_eq (by omega)] at hgroup
      exact Nat.div_lt_of_lt_mul hgroup
    have hself : group / s.down (level + 1) * s.down (level + 1) +
        group % s.down (level + 1) = group :=
      div_add_mod' group _
    have hmem : subtree s built level group ∈
        (range (s.down (level + 1))).map (fun j =>
          subtree s built level (group / s.down (level + 1) * s.down (level + 1) + j)) ++
        groupRouters s (level + 1) (group / s.down (level + 1)) := by
      refine mem_append_left _ (mem_map.mpr
        ⟨group % s.down (level + 1), ?_, by rw [hself]⟩)
      exact mem_range.mpr (mod_lt _ hdown)
    have hsub := @ih (level + 1) _ (by omega) habove
    rw [subtree_succ (by omega)] at hsub
    exact ⟨fun a ha => hsub.1 (mem_concat_links.mpr ⟨_, hmem, ha⟩),
      fun r hr => hsub.2 (mem_concat_routers.mpr ⟨_, hmem, hr⟩)⟩

theorem mem_build_routers (hlevels : 2 ≤ s.levels) :
    r ∈ (build s built).routers ↔ ∃ level group i, IsPlace s level group i ∧
        r = (rtrId s level group i, s.up level + s.down level) := by
  obtain ⟨top, htop⟩ : ∃ top, s.levels = top + 2 := ⟨s.levels - 2, by omega⟩
  have hgroups : s.groups top = s.down (top + 1) := by
    rw [Shape.groups_eq (by omega), Shape.groups_top (by omega), mul_one]
  constructor
  · intro hr
    rw [build_eq htop] at hr
    obtain ⟨b, hb, hrb⟩ := mem_concat_routers.mp hr
    rcases mem_append.mp hb with hb | hb
    · obtain ⟨j, hj, rfl⟩ := mem_map.mp hb
      exact (subtree_sound (by omega) (hgroups ▸ mem_range.mp hj)).2 r hrb
    · obtain ⟨i, hi, rfl⟩ := (mem_topRouters htop).mp hb
      exact ⟨top + 1, 0, i, ⟨by omega, Shape.groups_pos _, hi⟩, by simpa [addRouter] using hrb⟩
  · rintro ⟨level, group, i, hplace, rfl⟩
    rcases lt_or_ge (level + 1) s.levels with hlt | hge
    · apply (subtree_subset (s.levels - level - 2) (by omega) hplace.group_lt).2
      cases level with
      | zero =>
        have hi : i = 0 := by
          have := hplace.router_lt
          simp [Shape.groupSize] at this
          omega
        subst hi
        rw [subtree_zero, rtrId_edge]
        simp [buildEdge]
      | succ level =>
        rw [subtree_succ hlt]
        obtain ⟨b, hb, hr⟩ := (mem_routers_groupRouters hlt).mpr ⟨i, hplace.router_lt, rfl⟩
        exact mem_concat_routers.mpr ⟨b, mem_append_right _ hb, hr⟩
    · obtain rfl : level = top + 1 := by
        have := hplace.level_lt
        omega
      obtain rfl : group = 0 := by
        have := hplace.group_lt
        rw [Shape.groups_top htop] at this
        omega
      rw [build_eq htop]
      refine mem_concat_routers.mpr ⟨_, mem_append_right _
        ((mem_topRouters htop).mpr ⟨i, hplace.router_lt, rfl⟩), ?_⟩
      simp [addRouter]

end Links

end SstElements.Merlin.FatTree
