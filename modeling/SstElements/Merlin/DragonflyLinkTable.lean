import SstElements.Library.Overwrites
import SstElements.Merlin.DragonflyLinks

/-!
# The table of global ports for a given link map

The link map of a dragonfly may be given by the user.  The Python module wires
the global ports by it, and the routers write the same map into the table in
which they look up the port for a group and a slice.
-/

namespace SstElements.Merlin.Dragonfly

open Library Library.WiredNetwork List Option Nat

section Tables

/-- The numbers of hosts, routers, groups and links, without restrictions. -/
structure Dims where
  hosts_per_router : Nat
  routers_per_group : Nat
  num_groups : Nat
  intergroup_links : Nat
  intragroup_links : Nat
  deriving DecidableEq, Repr

namespace Dims

variable (d : Dims)

def total_intergroup_links : Nat := (d.num_groups - 1) * d.intergroup_links

def intergroup_per_router : Nat :=
  (d.total_intergroup_links + d.routers_per_group - 1) / d.routers_per_group

/-- The first global port, after the ports of the hosts and of the group. -/
def global_start : Nat := d.hosts_per_router + (d.routers_per_group - 1) * d.intragroup_links

end Dims

/--
A link map, in which `none` is the value -1, for a dragonfly, and the modes in
which the Python module and the routers understand it.
-/
structure LinkTable where
  dims : Dims
  global_link_map : List (Option Nat)
  global_routes : GlobalRouteMode
  global_route_mode : GlobalRouteMode
  map_length : global_link_map.length =
    dims.routers_per_group * dims.intergroup_per_router
  map_numbers : (global_link_map.filterMap id).Perm
    (range dims.total_intergroup_links)

namespace LinkTable

variable (t : LinkTable)

/-- `getGlobalLink`, for the given map. -/
def getGlobalLink (g r p : Nat) : Option LinkName :=
  (t.global_link_map[r * t.dims.intergroup_per_router + p]?.join).map
    (fun raw_dest =>
      let link_num := raw_dest / (t.dims.num_groups - 1)
      let dest_grp := linkTarget t.global_routes t.dims.num_groups g
        (raw_dest - link_num * (t.dims.num_groups - 1))
      .global (min dest_grp g) (max dest_grp g) link_num)

/-- The global links with the ports that they are added to. -/
def globalWiring : List (Attachment LinkName) :=
  (range t.dims.num_groups).flatMap (fun g =>
    (range t.dims.routers_per_group).flatMap (fun r =>
      (range t.dims.intergroup_per_router).filterMap (fun p =>
        (t.getGlobalLink g r p).map (fun link =>
          ⟨.router (g * t.dims.routers_per_group + r) (t.dims.global_start + p), link⟩))))

/-- The place in the table for a value of the map; it is computed in 32 bits. -/
def writeIndex (value : Nat) : Nat :=
  (value % (t.dims.num_groups - 1) * t.dims.intergroup_links +
    value / (t.dims.num_groups - 1)) % 2 ^ 32

def writes : List (Nat × RouterPortPair) :=
  t.global_link_map.zipIdx.filterMap (fun e =>
    e.1.map (fun value => (t.writeIndex value,
      .of (e.2 / t.dims.intergroup_per_router)
        (e.2 % t.dims.intergroup_per_router + t.dims.global_start))))

def data : Nat → RouterPortPair := overwrite (fun _ => .of 0 0) t.writes

/-- The place in the table where a port is looked up. -/
def readIndex (src_group dest_group slice : Nat) : Nat :=
  groupCode t.global_route_mode t.dims.num_groups src_group dest_group *
    t.dims.intergroup_links + slice

def getRouterPortPairForGroup (src_group dest_group slice : Nat) : RouterPortPair :=
  t.data (t.readIndex src_group dest_group slice)

end LinkTable

end Tables

section Agreement

namespace LinkTable

variable (t : LinkTable)

def foundPort (A B slice : Nat) : LinkEnd :=
  .router (A * t.dims.routers_per_group + (t.getRouterPortPairForGroup A B slice).router)
    (t.getRouterPortPairForGroup A B slice).port

/-- The ports that are found from both sides are the two ends of a link. -/
structure Finds (link : LinkName) (A B slice : Nat) : Prop where
  here : ⟨t.foundPort A B slice, link⟩ ∈ t.globalWiring
  there : ⟨t.foundPort B A slice, link⟩ ∈ t.globalWiring
  ends : ∀ place, ⟨place, link⟩ ∈ t.globalWiring →
    place = t.foundPort A B slice ∨ place = t.foundPort B A slice

/--
The table agrees with the wiring: its places are in range, both sides find the
ends of one link, and every link is found for one pair of groups and slice.
-/
structure Agrees : Prop where
  writesInRange : ∀ w ∈ t.writes, w.1 < t.dims.total_intergroup_links
  readsInRange : ∀ A B slice, A < t.dims.num_groups → B < t.dims.num_groups → A ≠ B →
    slice < t.dims.intergroup_links → t.readIndex A B slice < t.dims.total_intergroup_links
  finds : ∀ A B slice, A < t.dims.num_groups → B < t.dims.num_groups → A ≠ B →
    slice < t.dims.intergroup_links → ∃ link, t.Finds link A B slice
  once : ∀ a ∈ t.globalWiring, ∃ A B slice, A < B ∧ B < t.dims.num_groups ∧
    slice < t.dims.intergroup_links ∧ t.Finds a.link A B slice ∧
    ∀ A' B' slice', A' < B' → B' < t.dims.num_groups → slice' < t.dims.intergroup_links →
      t.Finds a.link A' B' slice' → A' = A ∧ B' = B ∧ slice' = slice

/-- The routers and ports of the map's numbers have 16 bits. -/
def UsedFit : Prop :=
  ∀ i v, t.global_link_map[i]? = some (some v) →
    i / t.dims.intergroup_per_router < 65536 ∧
      i % t.dims.intergroup_per_router + t.dims.global_start < 65536

/-- The Python module and the routers understand the map in the same way. -/
def ModesAgree : Prop :=
  t.global_route_mode = t.global_routes ∨ t.dims.num_groups ≤ 2 ∨
    t.dims.intergroup_links = 0

end LinkTable

end Agreement

variable {i v : Nat}

section Entries

namespace LinkTable

variable {t : LinkTable}

theorem entry_unique {i j v : Nat} (hi : t.global_link_map[i]? = some (some v))
    (hj : t.global_link_map[j]? = some (some v)) :
    i = j := by
  have hpair : t.global_link_map.Pairwise (fun a b => ∀ v ∈ a, ∀ w ∈ b, v ≠ w) := by
    have hnodup : (t.global_link_map.filterMap id).Nodup := t.map_numbers.nodup_iff.2 nodup_range
    exact pairwise_filterMap.1 hnodup
  obtain ⟨hlt, hget⟩ := List.getElem?_eq_some_iff.1 hi
  obtain ⟨hlt', hget'⟩ := List.getElem?_eq_some_iff.1 hj
  rw [pairwise_iff_getElem] at hpair
  rcases Nat.lt_trichotomy i j with hless | heq | hless
  · exact absurd rfl (hpair _ _ hlt hlt' hless v (by simp [hget]) v (by simp [hget']))
  · exact heq
  · exact absurd rfl (hpair _ _ hlt' hlt hless v (by simp [hget']) v (by simp [hget]))

theorem entry_lt (hi : t.global_link_map[i]? = some (some v)) :
    v < t.dims.total_intergroup_links := by
  have hmem : v ∈ t.global_link_map.filterMap id :=
    mem_filterMap.2 ⟨some v, mem_of_getElem? hi, rfl⟩
  exact mem_range.1 (t.map_numbers.subset hmem)

theorem exists_entry {v : Nat} (hv : v < t.dims.total_intergroup_links) :
    ∃ i : Nat, t.global_link_map[i]? = some (some v) := by
  have hmem : v ∈ t.global_link_map.filterMap id := t.map_numbers.symm.subset (mem_range.2 hv)
  obtain ⟨e, he, heq⟩ := mem_filterMap.1 hmem
  obtain ⟨i, hi⟩ := getElem?_of_mem he
  exact ⟨i, by rw [hi]; exact congrArg some heq⟩

theorem entry_router_lt (hi : t.global_link_map[i]? = some (some v)) :
    0 < t.dims.intergroup_per_router ∧
      i / t.dims.intergroup_per_router < t.dims.routers_per_group := by
  obtain ⟨hlt, -⟩ := List.getElem?_eq_some_iff.1 hi
  rw [t.map_length] at hlt
  have hpos : 0 < t.dims.intergroup_per_router := by
    rcases Nat.eq_zero_or_pos t.dims.intergroup_per_router with hzero | hpos
    · rw [hzero, mul_zero] at hlt
      omega
    · exact hpos
  exact ⟨hpos, Nat.div_lt_of_lt_mul (by rwa [mul_comm])⟩

def entryEnd (t : LinkTable) (A i : Nat) : LinkEnd :=
  .router (A * t.dims.routers_per_group + i / t.dims.intergroup_per_router)
    (t.dims.global_start + i % t.dims.intergroup_per_router)

/-- The link for a number of the map at a group. -/
def valueLink (t : LinkTable) (A v : Nat) : LinkName :=
  groupLink A (linkTarget t.global_routes t.dims.num_groups A (v % (t.dims.num_groups - 1)))
    (v / (t.dims.num_groups - 1))

theorem mem_globalWiring {a : Attachment LinkName} :
    a ∈ t.globalWiring ↔
      ∃ (A i v : Nat), A < t.dims.num_groups ∧ t.global_link_map[i]? = some (some v) ∧
        a = ⟨t.entryEnd A i, t.valueLink A v⟩ := by
  simp only [globalWiring, mem_flatMap, mem_range, mem_filterMap,
    getGlobalLink, map_eq_some_iff, join_eq_some_iff]
  constructor
  · rintro ⟨A, hA, r, hr, p, hp, name, ⟨v, hv, rfl⟩, rfl⟩
    refine ⟨A, _, v, hA, hv, ?_⟩
    have hdiv : (r * t.dims.intergroup_per_router + p) / t.dims.intergroup_per_router = r := by
      rw [mul_comm, mul_add_div (by omega), div_eq_of_lt hp, add_zero]
    have hmod : (r * t.dims.intergroup_per_router + p) % t.dims.intergroup_per_router = p := by
      rw [mul_comm, mul_add_mod, mod_eq_of_lt hp]
    rw [entryEnd, valueLink, groupLink, hdiv, hmod, ← mod_eq_sub_div_mul, Nat.min_comm A,
      Nat.max_comm A]
  · rintro ⟨A, i, v, hA, hi, rfl⟩
    obtain ⟨hpos, hr⟩ := entry_router_lt hi
    refine ⟨A, hA, i / t.dims.intergroup_per_router, hr, i % t.dims.intergroup_per_router,
      mod_lt _ hpos, _, ⟨v, ?_, rfl⟩, ?_⟩
    · rwa [div_add_mod']
    · rw [entryEnd, valueLink, groupLink, ← mod_eq_sub_div_mul, Nat.min_comm A, Nat.max_comm A]

theorem entryEnd_inj {A A' i i' v v' : Nat} (hi : t.global_link_map[i]? = some (some v))
    (hi' : t.global_link_map[i']? = some (some v')) (heq : t.entryEnd A i = t.entryEnd A' i') :
    A = A' ∧ i = i' := by
  obtain ⟨-, hr⟩ := entry_router_lt hi
  obtain ⟨-, hr'⟩ := entry_router_lt hi'
  obtain ⟨hrouter, hport⟩ := LinkEnd.router.inj heq
  have hport' := add_left_cancel hport
  have hdiv := congrArg (· / t.dims.routers_per_group) hrouter
  have hmod := congrArg (· % t.dims.routers_per_group) hrouter
  have hpos : 0 < t.dims.routers_per_group := zero_lt_of_lt hr
  simp only [mul_comm _ t.dims.routers_per_group, mul_add_div hpos,
    div_eq_of_lt hr, div_eq_of_lt hr', add_zero] at hdiv
  simp only [mul_comm _ t.dims.routers_per_group, mul_add_mod, mod_eq_of_lt hr,
    mod_eq_of_lt hr'] at hmod
  refine ⟨hdiv, ?_⟩
  rw [← div_add_mod i t.dims.intergroup_per_router, hmod, hport', div_add_mod]

end LinkTable

end Entries

section Numbers

namespace LinkTable

variable {t : LinkTable} {mode : GlobalRouteMode} {A B slice : Nat}

/-- The number in the map for a slice to another group. -/
def linkNumber (t : LinkTable) (mode : GlobalRouteMode) (A B slice : Nat) : Nat :=
  slice * (t.dims.num_groups - 1) + groupCode mode t.dims.num_groups A B

section

variable (hA : A < t.dims.num_groups) (hB : B < t.dims.num_groups) (hne : A ≠ B)
include hA hB hne

theorem linkNumber_parts :
    t.linkNumber mode A B slice / (t.dims.num_groups - 1) = slice ∧
      t.linkNumber mode A B slice % (t.dims.num_groups - 1) =
        groupCode mode t.dims.num_groups A B := by
  have hcode := @groupCode_lt mode _ _ _ hA hB hne.symm
  rw [linkNumber, mul_comm]
  constructor
  · rw [mul_add_div (by omega), div_eq_of_lt hcode, add_zero]
  · rw [mul_add_mod, mod_eq_of_lt hcode]

theorem linkNumber_lt (hslice : slice < t.dims.intergroup_links) :
    t.linkNumber mode A B slice < t.dims.total_intergroup_links := by
  have hcode := @groupCode_lt mode _ _ _ hA hB hne.symm
  have hmul := mul_le_mul_right (t.dims.num_groups - 1) (succ_le_of_lt hslice)
  rw [Nat.succ_mul] at hmul
  rw [linkNumber, Dims.total_intergroup_links, mul_comm _ t.dims.intergroup_links]
  omega

end

theorem exists_linkNumber {v : Nat} (mode : GlobalRouteMode) (hA : A < t.dims.num_groups)
    (hv : v < t.dims.total_intergroup_links) :
    ∃ B slice, B < t.dims.num_groups ∧ A ≠ B ∧ slice < t.dims.intergroup_links ∧
      v = t.linkNumber mode A B slice := by
  have hpos : 0 < t.dims.num_groups - 1 := Nat.pos_of_mul_pos_right (zero_lt_of_lt hv)
  obtain ⟨hB, hne, hcode⟩ := @linkTarget_spec mode _ _ _ hA (mod_lt v hpos)
  refine ⟨_, v / (t.dims.num_groups - 1), hB, hne.symm, Nat.div_lt_of_lt_mul hv, ?_⟩
  rw [linkNumber, hcode, div_add_mod']

theorem valueLink_linkNumber (hA : A < t.dims.num_groups) (hB : B < t.dims.num_groups)
    (hne : A ≠ B) :
    t.valueLink A (t.linkNumber t.global_routes A B slice) = groupLink A B slice := by
  obtain ⟨hdiv, hmod⟩ := @linkNumber_parts t t.global_routes A B slice hA hB hne
  rw [valueLink, hdiv, hmod, linkTarget_groupCode hA hB hne.symm]

end LinkTable

end Numbers

section Lookups

namespace LinkTable

variable {t : LinkTable} {A B slice : Nat}

theorem total_le_of_entries {m : Nat}
    (h : ∀ i v, t.global_link_map[i]? = some (some v) →
      i / t.dims.intergroup_per_router < m ∧ i % t.dims.intergroup_per_router < m) :
    t.dims.total_intergroup_links ≤ m * m := by
  have hentry : ∀ v ∈ Finset.range t.dims.total_intergroup_links,
      ∃ i : Nat, t.global_link_map[i]? = some (some v) :=
    fun v hv => exists_entry (Finset.mem_range.1 hv)
  choose! entry hentry using hentry
  have hcard := Finset.card_le_card_of_injOn
    (s := Finset.range t.dims.total_intergroup_links)
    (t := Finset.range m ×ˢ Finset.range m)
    (fun v => (entry v / t.dims.intergroup_per_router, entry v % t.dims.intergroup_per_router))
    ?_ ?_
  · rwa [Finset.card_range, Finset.card_product, Finset.card_range] at hcard
  · intro v hv
    obtain ⟨hrouter, hport⟩ := h _ _ (hentry v hv)
    exact Finset.mem_coe.2 (Finset.mem_product.2
      ⟨Finset.mem_range.2 hrouter, Finset.mem_range.2 hport⟩)
  · intro v hv w hw heq
    obtain ⟨hdiv, hmod⟩ := Prod.mk.inj heq
    have hsame : entry v = entry w := by
      rw [← div_add_mod (entry v) t.dims.intergroup_per_router, hdiv, hmod, div_add_mod]
    have hv' := hentry v hv
    rw [hsame, hentry w hw] at hv'
    exact (some.inj (some.inj hv')).symm

theorem UsedFit.total_le (h : t.UsedFit) : t.dims.total_intergroup_links ≤ 65536 * 65536 := by
  refine total_le_of_entries fun i v hi => ?_
  obtain ⟨hrouter, hport⟩ := h i v hi
  exact ⟨hrouter, by omega⟩

theorem UsedFit.writeIndex_eq (h : t.UsedFit) {v : Nat} (hv : v < t.dims.total_intergroup_links) :
    t.writeIndex v = v % (t.dims.num_groups - 1) * t.dims.intergroup_links +
        v / (t.dims.num_groups - 1) ∧ t.writeIndex v < t.dims.total_intergroup_links := by
  have hpos : 0 < t.dims.num_groups - 1 := Nat.pos_of_mul_pos_right (zero_lt_of_lt hv)
  have hmod := mod_lt v hpos
  have hdiv : v / (t.dims.num_groups - 1) < t.dims.intergroup_links := Nat.div_lt_of_lt_mul hv
  have hmul := mul_le_mul_right t.dims.intergroup_links (succ_le_of_lt hmod)
  rw [Nat.succ_mul] at hmul
  have htotal : (t.dims.num_groups - 1) * t.dims.intergroup_links =
    t.dims.total_intergroup_links := rfl
  have hle := h.total_le
  have hindex : t.writeIndex v = v % (t.dims.num_groups - 1) * t.dims.intergroup_links +
      v / (t.dims.num_groups - 1) :=
    mod_eq_of_lt (by omega)
  exact ⟨hindex, by omega⟩

theorem UsedFit.writeIndex_inj (h : t.UsedFit) {v w : Nat} (hv : v < t.dims.total_intergroup_links)
    (hw : w < t.dims.total_intergroup_links) (heq : t.writeIndex v = t.writeIndex w) :
    v = w := by
  rw [(h.writeIndex_eq hv).1, (h.writeIndex_eq hw).1] at heq
  have hdiv_lt : ∀ {v}, v < t.dims.total_intergroup_links →
      v / (t.dims.num_groups - 1) < t.dims.intergroup_links :=
    fun hv => Nat.div_lt_of_lt_mul hv
  have hpos : 0 < t.dims.intergroup_links := zero_lt_of_lt (hdiv_lt hv)
  have hdiv := congrArg (· / t.dims.intergroup_links) heq
  have hmod := congrArg (· % t.dims.intergroup_links) heq
  simp only [mul_comm _ t.dims.intergroup_links, mul_add_div hpos,
    div_eq_of_lt (hdiv_lt hv), div_eq_of_lt (hdiv_lt hw), add_zero] at hdiv
  simp only [mul_comm _ t.dims.intergroup_links, mul_add_mod,
    mod_eq_of_lt (hdiv_lt hv), mod_eq_of_lt (hdiv_lt hw)] at hmod
  rw [← div_add_mod v (t.dims.num_groups - 1), hdiv, hmod, div_add_mod]

theorem mem_writes_iff {k : Nat} {pair : RouterPortPair} :
    (k, pair) ∈ t.writes ↔
      ∃ (i v : Nat), t.global_link_map[i]? = some (some v) ∧ k = t.writeIndex v ∧
        pair = .of (i / t.dims.intergroup_per_router)
          (i % t.dims.intergroup_per_router + t.dims.global_start) := by
  simp only [writes, mem_filterMap, Prod.exists, map_eq_some_iff,
    Prod.mk.injEq, mem_zipIdx_iff_getElem?]
  constructor
  · rintro ⟨_, i, hi, v, rfl, rfl, rfl⟩
    exact ⟨i, v, hi, rfl, rfl⟩
  · rintro ⟨i, v, hi, rfl, rfl⟩
    exact ⟨_, i, hi, v, rfl, rfl, rfl⟩

theorem UsedFit.data_eq (h : t.UsedFit) (hi : t.global_link_map[i]? = some (some v)) :
    t.data (t.writeIndex v) = ⟨i / t.dims.intergroup_per_router,
      i % t.dims.intergroup_per_router + t.dims.global_start⟩ := by
  have hkey : t.writeIndex v ∈ t.writes.map Prod.fst :=
    mem_map.2 ⟨_, mem_writes_iff.2 ⟨i, v, hi, rfl, rfl⟩, rfl⟩
  obtain ⟨pair, hpair, hdata⟩ := overwrite_of_mem hkey
  obtain ⟨i', v', hi', hindex, rfl⟩ := mem_writes_iff.1 hpair
  obtain rfl := h.writeIndex_inj (entry_lt hi) (entry_lt hi') hindex
  obtain rfl := entry_unique hi hi'
  obtain ⟨hrouter, hport⟩ := h _ _ hi
  rw [data, hdata, RouterPortPair.of, mod_eq_of_lt hrouter, mod_eq_of_lt hport]

theorem UsedFit.foundPort_eq (h : t.UsedFit) {i : Nat} (hA : A < t.dims.num_groups)
    (hB : B < t.dims.num_groups) (hne : A ≠ B)
    (hi : t.global_link_map[i]? = some (some (t.linkNumber t.global_route_mode A B slice))) :
    t.readIndex A B slice < t.dims.total_intergroup_links ∧
      t.foundPort A B slice = t.entryEnd A i := by
  obtain ⟨hdiv, hmod⟩ := @linkNumber_parts t t.global_route_mode A B slice hA hB hne
  obtain ⟨hwrite, hlt⟩ := h.writeIndex_eq (entry_lt hi)
  have hindex : t.readIndex A B slice =
      t.writeIndex (t.linkNumber t.global_route_mode A B slice) := by
    rw [hwrite, hdiv, hmod]
    rfl
  refine ⟨by rwa [hindex], ?_⟩
  rw [foundPort, getRouterPortPairForGroup, hindex, h.data_eq hi, entryEnd, add_comm _
    t.dims.global_start]

end LinkTable

end Lookups

section Main

namespace LinkTable

variable {t : LinkTable} {mode : GlobalRouteMode} {A B slice : Nat}

theorem ModesAgree.groupCode_eq (h : t.ModesAgree) (hA : A < t.dims.num_groups)
    (hB : B < t.dims.num_groups) (hne : A ≠ B) (hslice : slice < t.dims.intergroup_links) :
    t.linkNumber t.global_route_mode A B slice = t.linkNumber t.global_routes A B slice := by
  rcases h with hmode | hgroups | hlinks
  · rw [hmode]
  · have hcode : ∀ mode, groupCode mode t.dims.num_groups A B = 0 := by
      intro mode
      have hlt := @groupCode_lt mode _ _ _ hA hB hne.symm
      omega
    rw [linkNumber, linkNumber, hcode, hcode]
  · omega

section

variable (h : t.UsedFit) (hmodes : t.ModesAgree)
include h hmodes

section

variable (hA : A < t.dims.num_groups) (hB : B < t.dims.num_groups) (hne : A ≠ B)
variable (hslice : slice < t.dims.intergroup_links)
include hA hB hne hslice

theorem UsedFit.finds : t.Finds (groupLink A B slice) A B slice := by
  have hside : ∀ {A B}, A < t.dims.num_groups → B < t.dims.num_groups → A ≠ B →
      ∃ i : Nat, t.global_link_map[i]? =
          some (some (t.linkNumber t.global_routes A B slice)) ∧
        t.foundPort A B slice = t.entryEnd A i := by
    intro A B hA hB hne
    obtain ⟨i, hi⟩ := exists_entry (@linkNumber_lt t t.global_routes _ _ _ hA hB hne hslice)
    refine ⟨i, hi, ?_⟩
    rw [← hmodes.groupCode_eq hA hB hne hslice] at hi
    exact (h.foundPort_eq hA hB hne hi).2
  obtain ⟨i, hi, hfound⟩ := hside hA hB hne
  obtain ⟨j, hj, hfound'⟩ := hside hB hA hne.symm
  refine ⟨?_, ?_, ?_⟩
  · rw [hfound]
    exact mem_globalWiring.2 ⟨A, i, _, hA, hi, by rw [valueLink_linkNumber hA hB hne]⟩
  · rw [hfound', groupLink_comm]
    exact mem_globalWiring.2 ⟨B, j, _, hB, hj, by rw [valueLink_linkNumber hB hA hne.symm]⟩
  · intro place hplace
    obtain ⟨C, l, v, hC, hl, heq⟩ := mem_globalWiring.1 hplace
    obtain ⟨hplace', hlink⟩ := Attachment.mk.inj heq
    obtain ⟨D, slice', hD, hCD, hslice', rfl⟩ := exists_linkNumber t.global_routes hC (entry_lt hl)
    rw [valueLink_linkNumber hC hD hCD] at hlink
    obtain ⟨rfl, ⟨rfl, rfl⟩ | ⟨rfl, rfl⟩⟩ := groupLink_inj hlink
    · left
      rw [hplace', hfound, entry_unique hl hi]
    · right
      rw [hplace', hfound', entry_unique hl hj]

theorem UsedFit.link_eq {link : LinkName} (hlink : t.Finds link A B slice) :
    link = groupLink A B slice := by
  obtain ⟨C, l, v, hC, hl, heq⟩ := mem_globalWiring.1 hlink.here
  obtain ⟨D, i, w, hD, hi, heq'⟩ := mem_globalWiring.1 (h.finds hmodes hA hB hne hslice).here
  obtain ⟨hplace, rfl⟩ := Attachment.mk.inj heq
  obtain ⟨hplace', hlink'⟩ := Attachment.mk.inj heq'
  obtain ⟨rfl, rfl⟩ := entryEnd_inj hl hi (hplace.symm.trans hplace')
  rw [hl] at hi
  rw [hlink', some.inj (some.inj hi)]

end

theorem UsedFit.agrees : t.Agrees := by
  refine ⟨?_, ?_, ?_, ?_⟩
  · intro w hw
    obtain ⟨i, v, hi, hindex, -⟩ := mem_writes_iff.1 (show (w.1, w.2) ∈ t.writes from hw)
    rw [hindex]
    exact (h.writeIndex_eq (entry_lt hi)).2
  · intro A B slice hA hB hne hslice
    obtain ⟨i, hi⟩ := exists_entry
      (@linkNumber_lt t t.global_route_mode _ _ _ hA hB hne hslice)
    exact (h.foundPort_eq hA hB hne hi).1
  · intro A B slice hA hB hne hslice
    exact ⟨_, h.finds hmodes hA hB hne hslice⟩
  · intro a ha
    obtain ⟨C, i, v, hC, hi, rfl⟩ := mem_globalWiring.1 ha
    obtain ⟨D, slice, hD, hCD, hslice, rfl⟩ := exists_linkNumber t.global_routes hC (entry_lt hi)
    rw [valueLink_linkNumber hC hD hCD]
    obtain ⟨A, B, hAB, hB, hlink⟩ : ∃ A B, A < B ∧ B < t.dims.num_groups ∧
        groupLink C D slice = groupLink A B slice := by
      rcases Nat.lt_or_gt_of_ne hCD with hlt | hgt
      · exact ⟨C, D, hlt, hD, rfl⟩
      · exact ⟨D, C, hgt, hC, groupLink_comm C D slice⟩
    refine ⟨A, B, slice, hAB, hB, hslice, ?_, ?_⟩
    · simp only [hlink]
      exact h.finds hmodes (by omega) hB (by omega) hslice
    · intro A' B' slice' hAB' hB' hslice' hfinds
      have heq := h.link_eq hmodes (by omega) hB' (by omega) hslice' hfinds
      simp only [hlink] at heq
      obtain ⟨hslices, ⟨rfl, rfl⟩ | ⟨rfl, rfl⟩⟩ := groupLink_inj heq
      · exact ⟨rfl, rfl, hslices.symm⟩
      · omega

end

theorem foundPort_bound (hpos : 0 < t.dims.routers_per_group) (A B slice : Nat) :
    ∃ r port, t.foundPort A B slice = .router (A * t.dims.routers_per_group + r) port ∧
      r < t.dims.routers_per_group ∧ r < 65536 ∧ port < 65536 := by
  have hdata : ∀ k, (t.data k).router < t.dims.routers_per_group ∧
      (t.data k).router < 65536 ∧ (t.data k).port < 65536 := by
    intro k
    by_cases hk : k ∈ t.writes.map Prod.fst
    · obtain ⟨pair, hpair, hpair'⟩ := overwrite_of_mem hk
      obtain ⟨i, v, hi, -, rfl⟩ := mem_writes_iff.1 hpair
      rw [data, hpair']
      exact ⟨(mod_le _ _).trans_lt (entry_router_lt hi).2, mod_lt _ (by decide),
        mod_lt _ (by decide)⟩
    · rw [data, overwrite_of_notMem hk]
      exact ⟨hpos, by decide, by decide⟩
  exact ⟨_, _, rfl, hdata _⟩

theorem Agrees.usedFit (h : t.Agrees) : t.UsedFit := by
  intro i v hi
  have hrouter := (entry_router_lt hi).2
  have hpos : 0 < t.dims.routers_per_group := zero_lt_of_lt hrouter
  have hgroups : 0 < t.dims.num_groups := by
    have hgroups' : 0 < t.dims.num_groups - 1 :=
      Nat.pos_of_mul_pos_right (zero_lt_of_lt (entry_lt hi))
    omega
  have hmem : (⟨t.entryEnd 0 i, t.valueLink 0 v⟩ : Attachment LinkName) ∈ t.globalWiring :=
    mem_globalWiring.2 ⟨0, i, v, hgroups, hi, rfl⟩
  have hend : ∀ A B slice, t.entryEnd 0 i = t.foundPort A B slice →
      i / t.dims.intergroup_per_router < 65536 ∧
        i % t.dims.intergroup_per_router + t.dims.global_start < 65536 := by
    intro A B slice heq
    obtain ⟨r, port, hfound, hr, hr16, hport⟩ := foundPort_bound hpos A B slice
    rw [hfound, entryEnd] at heq
    obtain ⟨hid, hports⟩ := LinkEnd.router.inj heq
    have hA : A = 0 := by
      by_contra hA
      have hle := Nat.le_mul_of_pos_left t.dims.routers_per_group (pos_of_ne_zero hA)
      omega
    subst hA
    omega
  obtain ⟨A, B, slice, -, -, -, hfinds, -⟩ := h.once _ hmem
  rcases hfinds.ends _ hmem with heq | heq
  · exact hend A B slice heq
  · exact hend B A slice heq

theorem Agrees.modesAgree (h : t.Agrees) : t.ModesAgree := by
  by_contra hmodes
  unfold ModesAgree at hmodes
  push Not at hmodes
  obtain ⟨hne, hgroups, hlinks⟩ := hmodes
  have hfit := h.usedFit
  have hlink : ∀ {A B}, A < t.dims.num_groups → B < t.dims.num_groups → A ≠ B →
      ∀ {link}, ⟨t.foundPort A B 0, link⟩ ∈ t.globalWiring →
        link = t.valueLink A (t.linkNumber t.global_route_mode A B 0) := by
    intro A B hA hB hAB link hmem
    obtain ⟨i, hi⟩ := exists_entry
      (@linkNumber_lt t t.global_route_mode _ _ _ hA hB hAB (pos_of_ne_zero hlinks))
    rw [(hfit.foundPort_eq hA hB hAB hi).2] at hmem
    obtain ⟨C, l, v, hC, hl, heq⟩ := mem_globalWiring.1 hmem
    obtain ⟨hplace, rfl⟩ := Attachment.mk.inj heq
    obtain ⟨rfl, rfl⟩ := entryEnd_inj hi hl hplace
    rw [hl] at hi
    rw [some.inj (some.inj hi)]
  obtain ⟨link, hfinds⟩ := h.finds 1 0 0 (by omega) (by omega) (by omega)
    (pos_of_ne_zero hlinks)
  have hone := hlink (by omega) (by omega) (by omega) hfinds.here
  have hzero := hlink (by omega) (by omega) (by omega) hfinds.there
  rw [hone, valueLink, valueLink] at hzero
  obtain ⟨-, ⟨hgroup, -⟩ | ⟨-, htarget⟩⟩ := groupLink_inj hzero
  · cases hgroup
  · have hmod := (@linkNumber_parts t t.global_route_mode 1 0 0 (by omega) (by omega) (by omega)).2
    rw [hmod] at htarget
    have hrelative : groupCode .RELATIVE t.dims.num_groups 1 0 = t.dims.num_groups - 1 + 0 - 1 :=
      rfl
    have habsolute : groupCode .ABSOLUTE t.dims.num_groups 1 0 = 0 := rfl
    have hsecond : linkTarget .RELATIVE t.dims.num_groups 1 0 = 2 := mod_eq_of_lt (by omega)
    have hlast : linkTarget .ABSOLUTE t.dims.num_groups 1 (t.dims.num_groups - 1 + 0 - 1) =
        t.dims.num_groups - 1 + 0 - 1 + 1 :=
      if_pos (by omega)
    cases hmode : t.global_route_mode <;> cases hroutes : t.global_routes
    · exact hne (hmode.trans hroutes.symm)
    · rw [hmode, hroutes, habsolute, hsecond] at htarget
      omega
    · rw [hmode, hroutes, hrelative, hlast] at htarget
      omega
    · exact hne (hmode.trans hroutes.symm)

/--
The table agrees with the wiring exactly if the routers and the Python module
understand the map in the same way and the ends of the links have 16 bits.
-/
theorem agrees_iff (t : LinkTable) :
    t.Agrees ↔ t.UsedFit ∧ t.ModesAgree :=
  ⟨fun h => ⟨h.usedFit, h.modesAgree⟩, fun h => h.1.agrees h.2⟩

/--
Three groups of two routers in the relative mode of the Python module, whose
routers have the default mode.
-/
def relativeTable : LinkTable where
  dims := ⟨1, 2, 3, 1, 1⟩
  global_link_map := [some 0, some 1]
  global_routes := .RELATIVE
  global_route_mode := .ABSOLUTE
  map_length := rfl
  map_numbers := List.Perm.refl _

theorem not_agrees_relative : ¬ relativeTable.Agrees := by
  intro h
  rcases h.modesAgree with hmode | hgroups | hlinks
  · cases hmode
  · exact absurd hgroups (by decide)
  · cases hlinks

end LinkTable

end Main

end SstElements.Merlin.Dragonfly
