import Mathlib.Data.List.GetD
import SstElements.Merlin.Dragonfly

/-!
# The link map of a dragonfly

Every number up to the number of global links of a group stands once in the
default link map.  A number is a slice and the code of another group, and the
table of the routers has the port at which the number stands.
-/

namespace SstElements.Merlin.Dragonfly

open Function List Nat

section Codes

variable {mode : GlobalRouteMode} {groups g d : Nat}

section

variable (hg : g < groups) (hd : d < groups) (hne : d ≠ g)
include hg hd hne

theorem groupCode_lt : groupCode mode groups g d < groups - 1 := by
  unfold groupCode
  split <;> split <;> omega

theorem linkTarget_groupCode : linkTarget mode groups g (groupCode mode groups g d) = d := by
  cases mode with
  | ABSOLUTE =>
    by_cases hle : g ≤ d
    · have hcode : groupCode .ABSOLUTE groups g d = d - 1 := if_pos hle
      rw [hcode, linkTarget, if_pos (by omega)]
      omega
    · have hcode : groupCode .ABSOLUTE groups g d = d := if_neg hle
      rw [hcode, linkTarget, if_neg hle]
  | RELATIVE =>
    simp only [linkTarget, groupCode]
    split
    · rw [show d - g - 1 + g + 1 = d by omega, mod_eq_of_lt hd]
    · rw [show groups - g + d - 1 + g + 1 = d + groups by omega,
        add_mod_right, mod_eq_of_lt hd]

end

theorem linkTarget_spec {code : Nat} (hg : g < groups) (hcode : code < groups - 1) :
    linkTarget mode groups g code < groups ∧ linkTarget mode groups g code ≠ g ∧
      groupCode mode groups g (linkTarget mode groups g code) = code := by
  cases mode with
  | ABSOLUTE =>
    by_cases hle : g ≤ code
    · have htarget : linkTarget .ABSOLUTE groups g code = code + 1 := if_pos hle
      rw [htarget, groupCode, if_pos (by omega)]
      omega
    · have htarget : linkTarget .ABSOLUTE groups g code = code := if_neg hle
      rw [htarget, groupCode, if_neg hle]
      omega
  | RELATIVE =>
    rcases lt_or_ge (code + g + 1) groups with hlt | hge
    · have htarget : linkTarget .RELATIVE groups g code = code + g + 1 := mod_eq_of_lt hlt
      rw [htarget, groupCode, if_pos (by omega)]
      omega
    · have htarget : linkTarget .RELATIVE groups g code =
          code + g + 1 - groups := by
        rw [linkTarget, mod_eq_sub_mod hge, mod_eq_of_lt (by omega)]
      rw [htarget, groupCode, if_neg (by omega)]
      omega

end Codes

variable {v : Nat}

section LinkMap

/-- The number of entries that are written from one router on. -/
def entriesFrom (igpr start_skip : Nat) : Nat → Nat → Nat
  | 0, _ => 0
  | n + 1, i =>
    (if start_skip ≤ i then igpr - 1 else igpr) +
      entriesFrom igpr start_skip n (i + 1)

variable {igpr start_skip : Nat}

theorem linkMapFrom_length (hpos : 0 < igpr) (n i count : Nat) :
    (linkMapFrom igpr start_skip n i count).length = n * igpr := by
  induction n generalizing i count with
  | zero => simp [linkMapFrom]
  | succ n ih =>
    simp only [linkMapFrom, length_append, length_map,
      length_range, length_replicate, ih, Nat.succ_mul]
    split <;> omega

theorem linkMapFrom_numbers (n i count : Nat) :
    (linkMapFrom igpr start_skip n i count).filterMap id =
      range' count (entriesFrom igpr start_skip n i) := by
  induction n generalizing i count with
  | zero => rfl
  | succ n ih =>
    have hrange : ∀ fin, ((range fin).map
        (fun j => some (count + j))).filterMap id = range' count fin := by
      intro fin
      rw [filterMap_map, range'_eq_map_range, ← filterMap_eq_map]
      rfl
    simp only [linkMapFrom, filterMap_append, ih, hrange, entriesFrom,
      filterMap_replicate_of_none (f := id) rfl, append_nil, range'_append_1]

theorem entriesFrom_eq {n i : Nat} (hpos : 0 < igpr) (a : Nat) (hn : i + n = a) :
    entriesFrom igpr start_skip n i + (a - max i start_skip) = n * igpr := by
  induction n generalizing i with
  | zero =>
    simp only [entriesFrom, zero_mul]
    omega
  | succ n ih =>
    have hrest := @ih (i + 1) (by omega)
    rw [entriesFrom, Nat.succ_mul]
    split <;> omega

variable {s : Shape}

namespace Shape

theorem total_pos : 0 < s.total_intergroup_links := by
  have := s.groups_ge
  exact Nat.mul_pos (by omega) s.intergroup_pos

theorem total_le : s.total_intergroup_links ≤ s.intergroup_per_router * s.routers_per_group := by
  have ha := s.routers_ge
  have hdiv := div_add_mod
    (s.total_intergroup_links + s.routers_per_group - 1) s.routers_per_group
  have hmod := mod_lt (s.total_intergroup_links + s.routers_per_group - 1)
    (show 0 < s.routers_per_group by omega)
  rw [intergroup_per_router, mul_comm]
  omega

theorem empty_ports_lt : s.empty_ports < s.routers_per_group := by
  have ha := s.routers_ge
  have hle := div_mul_le_self
    (s.total_intergroup_links + s.routers_per_group - 1) s.routers_per_group
  rw [empty_ports, intergroup_per_router]
  omega

theorem intergroup_per_router_pos : 0 < s.intergroup_per_router := by
  apply pos_of_ne_zero
  intro hzero
  have hle := s.total_le
  have hpos := s.total_pos
  rw [hzero] at hle
  omega

end Shape

theorem global_link_map_numbers :
    (global_link_map s).filterMap id = range s.total_intergroup_links := by
  have hcount := @entriesFrom_eq s.intergroup_per_router
    (s.routers_per_group - s.empty_ports) s.routers_per_group 0
    s.intergroup_per_router_pos s.routers_per_group (zero_add _)
  have hlt := s.empty_ports_lt
  have hle := s.total_le
  have hempty : s.empty_ports =
      s.intergroup_per_router * s.routers_per_group - s.total_intergroup_links :=
    rfl
  have htotal : entriesFrom s.intergroup_per_router
      (s.routers_per_group - s.empty_ports) s.routers_per_group 0 =
        s.total_intergroup_links := by
    rw [mul_comm s.routers_per_group] at hcount
    omega
  rw [global_link_map, linkMapFrom_numbers, htotal, range_eq_range']

theorem global_link_map_length :
    (global_link_map s).length = s.routers_per_group * s.intergroup_per_router :=
  linkMapFrom_length s.intergroup_per_router_pos _ _ _

/-- The entry at which a number stands in the link map. -/
def entryOf (s : Shape) (v : Nat) : Nat := (global_link_map s).idxOf (some v)

theorem entryOf_get (hv : v < s.total_intergroup_links) :
    (global_link_map s)[entryOf s v]? = some (some v) := by
  have hmem : v ∈ (global_link_map s).filterMap id := by
    rw [global_link_map_numbers]
    exact mem_range.mpr hv
  obtain ⟨e, he, rfl⟩ := mem_filterMap.mp hmem
  have hlt := idxOf_lt_length_iff.mpr he
  exact List.getElem?_eq_some_iff.mpr ⟨hlt, getElem_idxOf hlt⟩

theorem entryOf_eq {i v : Nat} (hi : (global_link_map s)[i]? = some (some v)) :
    v < s.total_intergroup_links ∧ i = entryOf s v := by
  have hmem : v ∈ (global_link_map s).filterMap id :=
    mem_filterMap.mpr ⟨some v, mem_of_getElem? hi, rfl⟩
  rw [global_link_map_numbers, mem_range] at hmem
  refine ⟨hmem, ?_⟩
  have hsorted : (global_link_map s).Pairwise
      (fun a b => ∀ v ∈ a, ∀ w ∈ b, v < w) := by
    have hpair : ((global_link_map s).filterMap id).Pairwise (· < ·) := by
      rw [global_link_map_numbers]
      exact pairwise_lt_range
    exact pairwise_filterMap.mp hpair
  obtain ⟨hlt, hget⟩ := List.getElem?_eq_some_iff.mp hi
  obtain ⟨hlt', hget'⟩ := List.getElem?_eq_some_iff.mp (entryOf_get hmem)
  rw [pairwise_iff_getElem] at hsorted
  rcases Nat.lt_trichotomy i (entryOf s v) with hless | heq | hless
  · exact absurd (hsorted _ _ hlt hlt' hless v (by simp [hget]) v (by simp [hget']))
      (lt_irrefl v)
  · exact heq
  · exact absurd (hsorted _ _ hlt' hlt hless v (by simp [hget']) v (by simp [hget]))
      (lt_irrefl v)

theorem entryOf_lt (hv : v < s.total_intergroup_links) :
    entryOf s v < s.routers_per_group * s.intergroup_per_router := by
  rw [← global_link_map_length]
  exact (List.getElem?_eq_some_iff.mp (entryOf_get hv)).1

theorem entryOf_inj {v w : Nat} (hv : v < s.total_intergroup_links)
    (hw : w < s.total_intergroup_links) (heq : entryOf s v = entryOf s w) :
    v = w := by
  have hget := entryOf_get hv
  rw [heq, entryOf_get hw] at hget
  simpa using hget.symm

end LinkMap

section Pairs

variable {s : Shape} {mode : GlobalRouteMode} {g d k : Nat}

/-- The number of a slice to a group in the link map. -/
def linkValue (s : Shape) (mode : GlobalRouteMode) (g d k : Nat) : Nat :=
  k * (s.num_groups - 1) + groupCode mode s.num_groups g d

section

variable (hg : g < s.num_groups)
include hg

theorem linkValue_parts (hd : d < s.num_groups) (hne : d ≠ g) :
    linkValue s mode g d k / (s.num_groups - 1) = k ∧ linkValue s mode g d k % (s.num_groups - 1) =
        groupCode mode s.num_groups g d := by
  have hcode := @groupCode_lt mode _ _ _ hg hd hne
  have hpos : 0 < s.num_groups - 1 := zero_lt_of_lt hcode
  rw [linkValue, mul_comm]
  constructor
  · rw [mul_add_div hpos, div_eq_of_lt hcode, add_zero]
  · rw [mul_add_mod, mod_eq_of_lt hcode]

theorem linkValue_lt (hd : d < s.num_groups) (hne : d ≠ g) (hk : k < s.intergroup_links) :
    linkValue s mode g d k < s.total_intergroup_links := by
  have hcode := @groupCode_lt mode _ _ _ hg hd hne
  have hmul := mul_le_mul_right (s.num_groups - 1) (succ_le_of_lt hk)
  rw [Nat.succ_mul] at hmul
  rw [linkValue, Shape.total_intergroup_links, mul_comm _ s.intergroup_links]
  omega

theorem exists_linkValue (hv : v < s.total_intergroup_links) :
    ∃ d k, d < s.num_groups ∧ d ≠ g ∧ k < s.intergroup_links ∧ v = linkValue s mode g d k := by
  have hpos : 0 < s.num_groups - 1 := by
    have := s.groups_ge
    omega
  obtain ⟨hd, hne, hcode⟩ := @linkTarget_spec mode _ _ _ hg (mod_lt v hpos)
  refine ⟨_, v / (s.num_groups - 1), hd, hne, Nat.div_lt_of_lt_mul hv, ?_⟩
  rw [linkValue, hcode, div_add_mod']

theorem linkValue_inj {d' k' : Nat} (hd : d < s.num_groups) (hne : d ≠ g) (hd' : d' < s.num_groups)
    (hne' : d' ≠ g) (heq : linkValue s mode g d k = linkValue s mode g d' k') :
    d = d' ∧ k = k' := by
  obtain ⟨hdiv, hmod⟩ := @linkValue_parts s mode g d k hg hd hne
  obtain ⟨hdiv', hmod'⟩ := @linkValue_parts s mode g d' k' hg hd' hne'
  rw [heq] at hdiv hmod
  refine ⟨?_, hdiv.symm.trans hdiv'⟩
  rw [← @linkTarget_groupCode mode _ _ _ hg hd hne, ← hmod, hmod', linkTarget_groupCode hg hd' hne']

end

/-- The router of a group that has a slice to another group. -/
def gateway (s : Shape) (mode : GlobalRouteMode) (g d k : Nat) : Nat :=
  entryOf s (linkValue s mode g d k) / s.intergroup_per_router

/-- The number of the router's global port of the slice. -/
def gatewayPort (s : Shape) (mode : GlobalRouteMode) (g d k : Nat) : Nat :=
  entryOf s (linkValue s mode g d k) % s.intergroup_per_router

theorem gateway_lt (hg : g < s.num_groups) (hd : d < s.num_groups) (hne : d ≠ g)
    (hk : k < s.intergroup_links) :
    gateway s mode g d k < s.routers_per_group := by
  apply Nat.div_lt_of_lt_mul
  rw [mul_comm]
  exact entryOf_lt (linkValue_lt hg hd hne hk)

theorem gatewayPort_lt (s : Shape) (mode : GlobalRouteMode) (g d k : Nat) :
    gatewayPort s mode g d k < s.intergroup_per_router :=
  mod_lt _ s.intergroup_per_router_pos

section

variable (hg : g < s.num_groups) (hd : d < s.num_groups) (hne : d ≠ g)
include hg hd hne

theorem gateway_inj {d' k' : Nat} (hk : k < s.intergroup_links) (hd' : d' < s.num_groups)
    (hne' : d' ≠ g) (hk' : k' < s.intergroup_links)
    (hrouter : gateway s mode g d k = gateway s mode g d' k')
    (hport : gatewayPort s mode g d k = gatewayPort s mode g d' k') :
    d = d' ∧ k = k' := by
  apply linkValue_inj hg hd hne hd' hne'
  apply entryOf_inj (linkValue_lt hg hd hne hk) (linkValue_lt hg hd' hne' hk')
  have hdiv := div_add_mod (entryOf s (linkValue s mode g d k))
    s.intergroup_per_router
  have hdiv' := div_add_mod (entryOf s (linkValue s mode g d' k'))
    s.intergroup_per_router
  unfold gateway at hrouter
  unfold gatewayPort at hport
  rw [hrouter, hport, hdiv'] at hdiv
  exact hdiv.symm

theorem dataIndex_linkValue :
    dataIndex s (linkValue s mode g d k) =
      groupCode mode s.num_groups g d * s.intergroup_links + k := by
  obtain ⟨hdiv, hmod⟩ := @linkValue_parts s mode g d k hg hd hne
  rw [dataIndex, hdiv, hmod]

end

theorem dataIndex_inj {v w : Nat} (hv : v < s.total_intergroup_links)
    (hw : w < s.total_intergroup_links) (heq : dataIndex s v = dataIndex s w) :
    v = w := by
  have hlt : ∀ {v}, v < s.total_intergroup_links →
      v / (s.num_groups - 1) < s.intergroup_links :=
    fun hv => Nat.div_lt_of_lt_mul hv
  have hdiv := congrArg (· / s.intergroup_links) heq
  have hmod := congrArg (· % s.intergroup_links) heq
  simp only [dataIndex, mul_comm _ s.intergroup_links,
    mul_add_div s.intergroup_pos, div_eq_of_lt (hlt hv),
    div_eq_of_lt (hlt hw), add_zero] at hdiv
  simp only [dataIndex, mul_comm _ s.intergroup_links, mul_add_mod,
    mod_eq_of_lt (hlt hv), mod_eq_of_lt (hlt hw)] at hmod
  rw [← div_add_mod v (s.num_groups - 1), hdiv, hmod, div_add_mod]

theorem writePairs_of_ne (map : List (Option Nat)) (data : Nat → RouterPortPair) (i : Nat)
    (h : ∀ w, some w ∈ map → dataIndex s w ≠ dataIndex s v) :
    writePairs s data i map (dataIndex s v) = data (dataIndex s v) := by
  induction map generalizing data i with
  | nil => rfl
  | cons e rest ih =>
    have hrest : ∀ w, some w ∈ rest → dataIndex s w ≠ dataIndex s v :=
      fun w hw => h w (mem_cons_of_mem _ hw)
    cases e with
    | none => exact ih _ _ hrest
    | some w =>
      rw [writePairs, ih _ _ hrest]
      exact update_of_ne (h w mem_cons_self).symm _ _

theorem writePairs_get {v e : Nat} (map : List (Option Nat)) (data : Nat → RouterPortPair) (i : Nat)
    (he : map[e]? = some (some v))
    (honce : ∀ e' w, map[e']? = some (some w) → dataIndex s w = dataIndex s v → e' = e) :
    writePairs s data i map (dataIndex s v) = .of ((i + e) / s.intergroup_per_router)
        ((i + e) % s.intergroup_per_router + s.global_start) := by
  induction map generalizing data i e with
  | nil => simp at he
  | cons x rest ih =>
    cases e with
    | zero =>
      obtain rfl : x = some v := by simpa using he
      rw [writePairs, writePairs_of_ne, update_self, add_zero]
      intro w hw heq
      obtain ⟨e', he'⟩ := getElem?_of_mem hw
      have := honce (e' + 1) w (by simpa using he') heq
      omega
    | succ e =>
      have hget : rest[e]? = some (some v) := by simpa using he
      have hrest : ∀ e' w, rest[e']? = some (some w) →
          dataIndex s w = dataIndex s v → e' = e := by
        intro e' w hw heq
        have := honce (e' + 1) w (by simpa using hw) heq
        omega
      rw [show i + (e + 1) = i + 1 + e by omega]
      cases x with
      | none => exact ih _ _ hget hrest
      | some w => exact ih _ _ hget hrest

/-- The numbers that the routers and the Python module use fit the tables. -/
structure Shape.Fits16 (s : Shape) : Prop where
  ports_le : s.num_ports ≤ 65536
  slices_le : s.intergroup_links ≤ 65536

theorem Shape.Fits16.routers_le (h : s.Fits16) : s.routers_per_group ≤ 65536 := by
  have hports := h.ports_le
  have hmul := Nat.le_mul_of_pos_right (s.routers_per_group - 1) s.intragroup_pos
  have hpos := s.intergroup_per_router_pos
  unfold Shape.num_ports at hports
  omega

theorem getRouterPortPairForGroup_eq {rg : RouteToGroup} (h16 : s.Fits16)
    (hdata : rg.data = writePairs s (fun _ => .of 0 0) 0 (global_link_map s))
    (hg : g < s.num_groups) (hd : d < s.num_groups) (hne : d ≠ g) (hk : k < s.intergroup_links) :
    getRouterPortPairForGroup s rg g d k =
      ⟨gateway s rg.mode g d k, s.global_start + gatewayPort s rg.mode g d k⟩ := by
  have hv : linkValue s rg.mode g d k < s.total_intergroup_links := linkValue_lt hg hd hne hk
  have hget := @writePairs_get s _ _ (global_link_map s) (fun _ => .of 0 0) 0
    (entryOf_get hv) (fun e' w hw heq => by
      obtain ⟨hlt, rfl⟩ := entryOf_eq hw
      rw [dataIndex_inj hlt hv heq])
  rw [dataIndex_linkValue hg hd hne, zero_add] at hget
  have hrouter := @gateway_lt s rg.mode g d k hg hd hne hk
  have hport := gatewayPort_lt s rg.mode g d k
  have hrouters := h16.routers_le
  have hports := h16.ports_le
  unfold gateway at hrouter
  unfold gatewayPort at hport
  unfold Shape.num_ports at hports
  rw [getRouterPortPairForGroup, hdata, hget, RouterPortPair.of,
    mod_eq_of_lt (by omega), gateway, gatewayPort, add_comm s.global_start, mod_eq_of_lt]
  unfold Shape.global_start
  omega

end Pairs

section Failed

variable {s : Shape} {g d k : Nat}

/-- The link of a slice between two groups. -/
def groupLink (g d k : Nat) : LinkName := .global (min g d) (max g d) k

theorem groupLink_comm (g d k : Nat) : groupLink g d k = groupLink d g k := by
  rw [groupLink, groupLink, Nat.min_comm, Nat.max_comm]

theorem groupLink_inj {g' d' k' : Nat} (heq : groupLink g d k = groupLink g' d' k') :
    k = k' ∧ ((g = g' ∧ d = d') ∨ (g = d' ∧ d = g')) := by
  obtain ⟨hmin, hmax, hk⟩ := LinkName.global.inj heq
  refine ⟨hk, ?_⟩
  omega

theorem bitIndex_inj {g g' r r' p p' : Nat} (hr : r < s.routers_per_group)
    (hr' : r' < s.routers_per_group) (hp : p < s.intergroup_per_router)
    (hp' : p' < s.intergroup_per_router)
    (heq : bitIndex s g ⟨r, s.global_start + p⟩ = bitIndex s g' ⟨r', s.global_start + p'⟩) :
    g = g' ∧ r = r' ∧ p = p' := by
  have hbit : ∀ g r p, bitIndex s g ⟨r, s.global_start + p⟩ =
      s.intergroup_per_router * (s.routers_per_group * g + r) + p := by
    intro g r p
    rw [bitIndex, show r * s.intergroup_per_router + (s.global_start + p) -
      s.global_start = r * s.intergroup_per_router + p by omega]
    ring
  rw [hbit, hbit] at heq
  have hpos := s.intergroup_per_router_pos
  have hdiv := congrArg (· / s.intergroup_per_router) heq
  simp only [mul_add_div hpos, div_eq_of_lt hp, div_eq_of_lt hp', add_zero] at hdiv
  have hport : p = p' := by
    rw [hdiv] at heq
    exact add_left_cancel heq
  have hpos' : 0 < s.routers_per_group := zero_lt_of_lt hr
  have hdiv' := congrArg (· / s.routers_per_group) hdiv
  simp only [mul_add_div hpos', div_eq_of_lt hr, div_eq_of_lt hr', add_zero] at hdiv'
  rw [hdiv'] at hdiv
  exact ⟨hdiv', add_left_cancel hdiv, hport⟩

theorem markFailed_iff {rg : RouteToGroup} {links : List FailedLink} {bit : Nat} :
    markFailed s rg links bit = true ↔ ∃ x ∈ links, bit = bitIndex s x.low_group
            (getRouterPortPairForGroup s rg x.low_group x.high_group x.slice) ∨
        bit = bitIndex s x.high_group
            (getRouterPortPairForGroup s rg x.high_group x.low_group x.slice) := by
  have hfold : ∀ (failed : Nat → Bool),
      links.foldl (fun failed x =>
        update
          (update failed (bitIndex s x.low_group
            (getRouterPortPairForGroup s rg x.low_group x.high_group x.slice)) true)
          (bitIndex s x.high_group
            (getRouterPortPairForGroup s rg x.high_group x.low_group x.slice))
          true) failed bit = true ↔
        failed bit = true ∨ ∃ x ∈ links,
          bit = bitIndex s x.low_group
              (getRouterPortPairForGroup s rg x.low_group x.high_group x.slice) ∨
          bit = bitIndex s x.high_group
              (getRouterPortPairForGroup s rg x.high_group x.low_group x.slice) := by
    induction links with
    | nil => simp
    | cons x rest ih =>
      intro failed
      rw [foldl_cons, ih]
      simp only [update_apply, mem_cons, exists_eq_or_imp]
      split
      · simp_all
      · split
        · simp_all
        · simp_all
  rw [markFailed, hfold]
  simp

variable {c : Config}

theorem routeToGroup_data :
    c.routeToGroup.data = writePairs c.shape (fun _ => .of 0 0) 0 (global_link_map c.shape) := by
  unfold Config.routeToGroup init_write
  split <;> rfl

theorem routeToGroup_mode : c.routeToGroup.mode = c.global_route_mode := by
  unfold Config.routeToGroup init_write
  split <;> rfl

section

variable (h16 : c.shape.Fits16) (hg : g < c.shape.num_groups) (hd : d < c.shape.num_groups)
include h16 hg hd

theorem getRouterPortPair_eq (hne : d ≠ g) (hk : k < c.shape.intergroup_links) :
    getRouterPortPairForGroup c.shape c.routeToGroup g d k =
      ⟨gateway c.shape c.global_route_mode g d k,
        c.shape.global_start + gatewayPort c.shape c.global_route_mode g d k⟩ := by
  rw [getRouterPortPairForGroup_eq h16 routeToGroup_data hg hd hne hk, routeToGroup_mode]

theorem isFailedPort_eq (hne : d ≠ g) (hk : k < c.shape.intergroup_links) :
    isFailedPortForGroup c.shape c.routeToGroup g
        (getRouterPortPairForGroup c.shape c.routeToGroup g d k) = !c.isLive (groupLink g d k) := by
  cases hconfig : c.config_failed_links with
  | false =>
    have hconsider : c.routeToGroup.consider_failed_links = false := by
      simp [Config.routeToGroup, init_write, hconfig]
    simp [isFailedPortForGroup, hconsider, Config.isLive, groupLink, hconfig]
  | true =>
    let rg : RouteToGroup := {
      data := writePairs c.shape (fun _ => .of 0 0) 0 (global_link_map c.shape)
      link_counts := fun _ => c.shape.intergroup_links.toUInt8
      failed_links := fun _ => false
      consider_failed_links := true
      mode := c.global_route_mode }
    have hconsider : c.routeToGroup.consider_failed_links = true := by
      simp [Config.routeToGroup, init_write, hconfig]
    have hfailed : c.routeToGroup.failed_links =
        markFailed c.shape rg c.failed_links := by
      simp [Config.routeToGroup, init_write, hconfig, rg]
    have hpair : ∀ {g d k}, g < c.shape.num_groups → d < c.shape.num_groups →
        d ≠ g → k < c.shape.intergroup_links →
        getRouterPortPairForGroup c.shape rg g d k =
          ⟨gateway c.shape c.global_route_mode g d k, c.shape.global_start +
            gatewayPort c.shape c.global_route_mode g d k⟩ :=
      fun hg hd hne hk => getRouterPortPairForGroup_eq h16 rfl hg hd hne hk
    -- the bit is one of a failed link exactly when it is the link's own bit
    have hsame : ∀ {g' d' k'}, g' < c.shape.num_groups →
        d' < c.shape.num_groups → d' ≠ g' → k' < c.shape.intergroup_links →
        (bitIndex c.shape g (getRouterPortPairForGroup c.shape rg g d k) =
          bitIndex c.shape g' (getRouterPortPairForGroup c.shape rg g' d' k') ↔
        g = g' ∧ d = d' ∧ k = k') := by
      intro g' d' k' hg' hd' hne' hk'
      constructor
      · intro hbit
        rw [hpair hg hd hne hk, hpair hg' hd' hne' hk'] at hbit
        obtain ⟨rfl, hrouter, hport⟩ := bitIndex_inj
          (gateway_lt hg hd hne hk) (gateway_lt hg' hd' hne' hk')
          (gatewayPort_lt _ _ _ _ _) (gatewayPort_lt _ _ _ _ _) hbit
        exact ⟨rfl, gateway_inj hg hd hne hk hd' hne' hk' hrouter hport⟩
      · rintro ⟨rfl, rfl, rfl⟩
        rfl
    have hpairEq : getRouterPortPairForGroup c.shape c.routeToGroup g d k =
        getRouterPortPairForGroup c.shape rg g d k := by
      rw [getRouterPortPair_eq h16 hg hd hne hk, hpair hg hd hne hk]
    rw [Bool.eq_iff_iff, isFailedPortForGroup, hconsider, hfailed, hpairEq,
      Bool.true_and, markFailed_iff]
    simp only [Config.isLive, groupLink, hconfig, Bool.true_and, Bool.not_not, contains_iff_mem]
    constructor
    · rintro ⟨x, hx, hbit⟩
      obtain ⟨hlt, hhigh, hslice⟩ := c.failed_legal x hx
      rcases hbit with hbit | hbit
      · obtain ⟨rfl, rfl, rfl⟩ := (hsame (by omega) hhigh (by omega) hslice).mp hbit
        rwa [Nat.min_eq_left (by omega), Nat.max_eq_right (by omega)]
      · obtain ⟨rfl, rfl, rfl⟩ := (hsame hhigh (by omega) (by omega) hslice).mp hbit
        rwa [Nat.min_eq_right (by omega), Nat.max_eq_left (by omega)]
    · intro hmem
      refine ⟨_, hmem, ?_⟩
      rcases lt_or_ge g d with hlt | hge
      · left
        simp only [Nat.min_eq_left (le_of_lt hlt), Nat.max_eq_right (le_of_lt hlt)]
      · right
        simp only [Nat.min_eq_right hge, Nat.max_eq_left hge]

end

end Failed

end SstElements.Merlin.Dragonfly
