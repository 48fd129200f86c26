import SstElements.Library.Precedence
import SstElements.Merlin.CrossbarDeclocking

/-!
# What the crossbar moves in a cycle

Where every packet has a flit, a port that has been given a packet is busy for
the rest of the cycle.  What an arbitration unit chooses is then a matching of
input ports and output ports.
-/

namespace SstElements.Merlin.Crossbar

open Library Function List Option

variable {P V : Nat} {Header Rest : Type}

section Scans

/-- Every VC head has a flit. -/
def PortView.Sized (view : PortView P V Header) : Prop :=
  ∀ port vc ev, view.vc_heads port vc = some ev → 0 < ev.flits

/-- The pair is to be moved. -/
def Scan.serves (s : Scan P V) (x : Fin P × Fin V) : Bool := s.progress_vc x.1 = .vc x.2

variable {x : Fin P × Fin V}

theorem serves_iff {s : Scan P V} :
    s.serves x = true ↔ s.progress_vc x.1 = .vc x.2 := by
  simp [Scan.serves]

/-- The packet can be moved with the busy ports of a scan. -/
def PortView.Movable (view : PortView P V Header) (in_port_busy out_port_busy : Fin P → Nat)
    (x : Fin P × Fin V) (ev : RouterEvent P V Header) : Prop :=
  view.vc_heads x.1 x.2 = some ev ∧ in_port_busy x.1 = 0 ∧
    out_port_busy ev.next_port = 0 ∧
    view.spaceToSend ev.next_port ev.vc ev.flits = true

/-- What has been given in a scan, from the busy ports at its start. -/
structure Scan.Sound (view : PortView P V Header) (in_port_busy out_port_busy : Fin P → Nat)
    (s : Scan P V) : Prop where
  granted : ∀ x, s.serves x = true → ∃ ev,
    view.Movable in_port_busy out_port_busy x ev ∧
    s.in_port_busy x.1 = ev.flits ∧ s.out_port_busy ev.next_port = ev.flits
  separate : ∀ x y ev ev', s.serves x = true → s.serves y = true →
    view.vc_heads x.1 x.2 = some ev → view.vc_heads y.1 y.2 = some ev' →
    ev.next_port = ev'.next_port → x = y
  in_rest : ∀ i, s.in_port_busy i = in_port_busy i ∨ ∃ v, s.serves (i, v) = true
  out_rest : ∀ o, s.out_port_busy o = out_port_busy o ∨
    ∃ x ev, s.serves x = true ∧ view.vc_heads x.1 x.2 = some ev ∧ ev.next_port = o

variable {view : PortView P V Header} {in_port_busy out_port_busy : Fin P → Nat}

theorem Scan.Sound.start :
    (Scan.start in_port_busy out_port_busy : Scan P V).Sound view in_port_busy
      out_port_busy :=
  ⟨fun _ h => by simp [Scan.serves, Scan.start] at h,
    fun _ _ _ _ h => by simp [Scan.serves, Scan.start] at h,
    fun _ => .inl rfl, fun _ => .inl rfl⟩

variable {s : Scan P V} {i o port : Fin P} {vc : Fin V} {ev : RouterEvent P V Header}

section

variable (h : s.Sound view in_port_busy out_port_busy) (hsized : view.Sized)
include h hsized

theorem Scan.Sound.not_serves (hfree : s.in_port_busy x.1 = 0) :
    s.serves x = false := by
  refine Bool.eq_false_of_not_eq_true fun hserves => ?_
  obtain ⟨ev, hmovable, hbusy, -⟩ := h.granted x hserves
  have hflit := hsized _ _ _ hmovable.1
  omega

theorem Scan.Sound.in_free (hfree : s.in_port_busy i = 0) : in_port_busy i = 0 := by
  rcases h.in_rest i with hsame | ⟨v, hv⟩
  · rw [← hsame, hfree]
  · rw [h.not_serves hsized (x := (i, v)) hfree] at hv
    cases hv

theorem Scan.Sound.out_free (hfree : s.out_port_busy o = 0) :
    out_port_busy o = 0 ∧ ∀ x ev, s.serves x = true →
      view.vc_heads x.1 x.2 = some ev → ev.next_port ≠ o := by
  have hnone : ∀ x ev, s.serves x = true → view.vc_heads x.1 x.2 = some ev →
      ev.next_port ≠ o := by
    intro x ev hserves hhead ho
    obtain ⟨ev', hmovable, -, hbusy⟩ := h.granted x hserves
    obtain rfl : ev = ev' := some.inj (hhead.symm.trans hmovable.1)
    have hflit := hsized _ _ _ hhead
    rw [ho] at hbusy
    omega
  refine ⟨?_, hnone⟩
  rcases h.out_rest o with hsame | ⟨x, ev, hserves, hhead, ho⟩
  · rw [← hsame, hfree]
  · exact absurd ho (hnone x ev hserves hhead)

end

theorem serves_grant (hnot : ∀ v, s.serves (port, v) = false) (x : Fin P × Fin V) :
    (s.grant port vc ev).serves x = true ↔ s.serves x = true ∨ x = (port, vc) := by
  obtain ⟨i, v⟩ := x
  by_cases hi : i = port
  · subst hi
    rw [hnot v]
    simp [Scan.serves, Scan.grant, eq_comm]
  · simp [Scan.serves, Scan.grant, hi]

theorem grant_in_port_busy (hi : i ≠ port) :
    (s.grant port vc ev).in_port_busy i = s.in_port_busy i :=
  update_of_ne hi _ _

theorem grant_out_port_busy (ho : o ≠ ev.next_port) :
    (s.grant port vc ev).out_port_busy o = s.out_port_busy o :=
  update_of_ne ho _ _

theorem Scan.Sound.grant (h : s.Sound view in_port_busy out_port_busy) (hsized : view.Sized)
    (hhead : view.vc_heads port vc = some ev) (hfree : s.in_port_busy port = 0)
    (haccepts : view.accepts s ev = true) :
    (s.grant port vc ev).Sound view in_port_busy out_port_busy := by
  have hnot : ∀ v, s.serves (port, v) = false := fun v => h.not_serves hsized hfree
  obtain ⟨hout, hspace⟩ : s.out_port_busy ev.next_port = 0 ∧
      view.spaceToSend ev.next_port ev.vc ev.flits = true := by
    simpa [PortView.accepts] using haccepts
  obtain ⟨hout0, hnone⟩ := h.out_free hsized hout
  have hmovable : view.Movable in_port_busy out_port_busy (port, vc) ev :=
    ⟨hhead, h.in_free hsized hfree, hout0, hspace⟩
  refine ⟨fun x hx => ?_, fun x y ex ey hx hy hheadx hheady hsame => ?_, fun i => ?_, fun o => ?_⟩
  · rcases (serves_grant hnot x).mp hx with hx | rfl
    · obtain ⟨ex, hmov, hin, hbusy⟩ := h.granted x hx
      refine ⟨ex, hmov, ?_, ?_⟩
      · have hport : x.1 ≠ port := by
          intro hport
          rw [hport, hfree] at hin
          have hflit := hsized _ _ _ hmov.1
          omega
        rw [grant_in_port_busy hport, hin]
      · rw [grant_out_port_busy (hnone x ex hx hmov.1), hbusy]
    · exact ⟨ev, hmovable, by simp [Scan.grant], by simp [Scan.grant]⟩
  · rcases (serves_grant hnot x).mp hx with hx | rfl
    · rcases (serves_grant hnot y).mp hy with hy | rfl
      · exact h.separate x y ex ey hx hy hheadx hheady hsame
      · obtain rfl : ev = ey := some.inj (hhead.symm.trans hheady)
        exact absurd hsame (hnone x ex hx hheadx)
    · rcases (serves_grant hnot y).mp hy with hy | rfl
      · obtain rfl : ev = ex := some.inj (hhead.symm.trans hheadx)
        exact absurd hsame.symm (hnone y ey hy hheady)
      · rfl
  · by_cases hi : i = port
    · subst hi
      exact .inr ⟨vc, (serves_grant hnot _).mpr (.inr rfl)⟩
    · rcases h.in_rest i with hsame | ⟨v, hv⟩
      · left
        rw [grant_in_port_busy hi, hsame]
      · exact .inr ⟨v, (serves_grant hnot _).mpr (.inl hv)⟩
  · by_cases ho : o = ev.next_port
    · subst ho
      exact .inr ⟨(port, vc), ev, (serves_grant hnot _).mpr (.inr rfl), hhead, rfl⟩
    · rcases h.out_rest o with hsame | ⟨x, ex, hx, hheadx, hport⟩
      · left
        rw [grant_out_port_busy ho, hsame]
      · exact .inr ⟨x, ex, (serves_grant hnot x).mpr (.inl hx), hheadx, hport⟩

theorem Scan.Sound.mark {m : Progress V} (h : s.Sound view in_port_busy out_port_busy)
    (hnot : ∀ v, s.serves (port, v) = false) (hmark : ∀ v, m ≠ .vc v) :
    ({ s with progress_vc := update s.progress_vc port m } : Scan P V).serves =
        s.serves ∧
      ({ s with progress_vc := update s.progress_vc port m } : Scan P V).Sound view
        in_port_busy out_port_busy := by
  have hserves : ({ s with
      progress_vc := update s.progress_vc port m } : Scan P V).serves = s.serves := by
    funext x
    obtain ⟨i, v⟩ := x
    by_cases hi : i = port
    · subst hi
      rw [hnot v]
      simp [Scan.serves, hmark v]
    · simp [Scan.serves, update_of_ne hi]
  refine ⟨hserves, ⟨fun x hx => ?_, fun x y ex ey hx hy => ?_, fun i => ?_, fun o => ?_⟩⟩
  · exact h.granted x (hserves ▸ hx)
  · exact h.separate x y ex ey (hserves ▸ hx) (hserves ▸ hy)
  · exact (h.in_rest i).imp_right fun ⟨v, hv⟩ => ⟨v, hserves ▸ hv⟩
  · exact (h.out_rest o).imp_right fun ⟨x, ev, hx, hrest⟩ => ⟨x, ev, hserves ▸ hx, hrest⟩

end Scans

section LeastRecentlyUsed

variable {view : PortView P V Header} {in_port_busy out_port_busy : Fin P → Nat}

/-- The pairs want the same input port or the same output port. -/
def PortView.Compete (view : PortView P V Header) (q p : Fin P × Fin V)
    (ev : RouterEvent P V Header) : Prop :=
  q.1 = p.1 ∨ ∃ ev', view.vc_heads q.1 q.2 = some ev' ∧ ev'.next_port = ev.next_port

/-- The scan has passed some pairs, and no others. -/
structure LruScan.Passed (view : PortView P V Header) (in_port_busy out_port_busy : Fin P → Nat)
    (passed : List (Fin P × Fin V)) (s : LruScan P V) : Prop where
  sound : s.toScan.Sound view in_port_busy out_port_busy
  served_mem : ∀ x, s.toScan.serves x = true → x ∈ passed
  unsat_eq : s.unsat_list = passed.filter (fun x => !s.toScan.serves x)
  sat_eq : s.sat_list = (passed.filter s.toScan.serves).reverse
  waits : ∀ p ev, p ∈ passed → view.Movable in_port_busy out_port_busy p ev →
    s.toScan.serves p = false →
    ∃ q, Precedes q p passed ∧ s.toScan.serves q = true ∧ view.Compete q p ev

theorem LruScan.Passed.start :
    LruScan.Passed view in_port_busy out_port_busy []
      { Scan.start in_port_busy out_port_busy with unsat_list := [], sat_list := [] } :=
  ⟨.start, fun x hx => by simp [Scan.serves, Scan.start] at hx, rfl, rfl,
    fun _ _ hp => absurd hp not_mem_nil⟩

variable {passed : List (Fin P × Fin V)} {check : Fin P × Fin V} {s s' : LruScan P V}
variable {ev : RouterEvent P V Header}

section

variable (h : s.Passed view in_port_busy out_port_busy passed) (hnew : check ∉ passed)
include h hnew

theorem LruScan.Passed.pass (hserves : s'.toScan.serves = s.toScan.serves)
    (hsound : s'.toScan.Sound view in_port_busy out_port_busy)
    (hunsat : s'.unsat_list = s.unsat_list ++ [check]) (hsat : s'.sat_list = s.sat_list)
    (hwaits : ∀ ev, view.Movable in_port_busy out_port_busy check ev →
      ∃ q, s.toScan.serves q = true ∧ view.Compete q check ev) :
    s'.Passed view in_port_busy out_port_busy (passed ++ [check]) := by
  have hcheck : s.toScan.serves check = false :=
    Bool.eq_false_of_not_eq_true fun hc => hnew (h.served_mem check hc)
  refine ⟨hsound, fun x hx => ?_, ?_, ?_, fun p ev hp hmov hp' => ?_⟩
  · rw [hserves] at hx
    exact mem_append_left _ (h.served_mem x hx)
  · rw [hunsat, h.unsat_eq, hserves]
    simp [hcheck]
  · rw [hsat, h.sat_eq, hserves]
    simp [hcheck]
  · rw [hserves] at hp'
    rw [hserves]
    rcases mem_append.mp hp with hp | hp
    · obtain ⟨q, hqp, hq, hcompete⟩ := h.waits p ev hp hmov hp'
      exact ⟨q, hqp.append_right, hq, hcompete⟩
    · obtain rfl := mem_singleton.mp hp
      obtain ⟨q, hq, hcompete⟩ := hwaits ev hmov
      exact ⟨q, Precedes.of_mem_of_mem (h.served_mem q hq) hp, hq, hcompete⟩

theorem LruScan.Passed.serve
    (hserves : ∀ x, s'.toScan.serves x = true ↔ s.toScan.serves x = true ∨ x = check)
    (hsound : s'.toScan.Sound view in_port_busy out_port_busy)
    (hunsat : s'.unsat_list = s.unsat_list) (hsat : s'.sat_list = check :: s.sat_list) :
    s'.Passed view in_port_busy out_port_busy (passed ++ [check]) := by
  have hsame : ∀ x ∈ passed, s'.toScan.serves x = s.toScan.serves x := by
    intro x hx
    have hne : x ≠ check := fun heq => hnew (heq ▸ hx)
    rw [Bool.eq_iff_iff, hserves]
    simp [hne]
  have hcheck : s'.toScan.serves check = true := (hserves check).mpr (.inr rfl)
  refine ⟨hsound, fun x hx => ?_, ?_, ?_, fun p ev hp hmov hp' => ?_⟩
  · rcases (hserves x).mp hx with hx | rfl
    · exact mem_append_left _ (h.served_mem x hx)
    · simp
  · rw [hunsat, h.unsat_eq, filter_append]
    simp only [filter, hcheck, Bool.not_true, append_nil]
    exact filter_congr fun x hx => by rw [hsame x hx]
  · rw [hsat, h.sat_eq, filter_append, reverse_append]
    simp only [filter, hcheck, reverse_cons, reverse_nil, nil_append, cons_append]
    rw [filter_congr fun x hx => (hsame x hx)]
  · rcases mem_append.mp hp with hp | hp
    · have hp'' : s.toScan.serves p = false := by rw [← hsame p hp, hp']
      obtain ⟨q, hqp, hq, hcompete⟩ := h.waits p ev hp hmov hp''
      exact ⟨q, hqp.append_right, (hserves q).mpr (.inl hq), hcompete⟩
    · obtain rfl := mem_singleton.mp hp
      rw [hcheck] at hp'
      cases hp'

end

theorem Scan.Sound.competes_in {s : Scan P V} (h : s.Sound view in_port_busy out_port_busy)
    (hbusy : s.in_port_busy check.1 ≠ 0) (hmov : view.Movable in_port_busy out_port_busy check ev) :
    ∃ q, s.serves q = true ∧ view.Compete q check ev := by
  rcases h.in_rest check.1 with hsame | ⟨v, hv⟩
  · exact absurd (hsame.trans hmov.2.1) hbusy
  · exact ⟨(check.1, v), hv, .inl rfl⟩

theorem Scan.Sound.competes_out {s : Scan P V} (h : s.Sound view in_port_busy out_port_busy)
    (haccepts : view.accepts s ev = false)
    (hmov : view.Movable in_port_busy out_port_busy check ev) :
    ∃ q, s.serves q = true ∧ view.Compete q check ev := by
  have hbusy : s.out_port_busy ev.next_port ≠ 0 := by
    intro hfree
    simp [PortView.accepts, hfree, hmov.2.2.2] at haccepts
  rcases h.out_rest ev.next_port with hsame | ⟨x, ev', hx, hhead, hport⟩
  · exact absurd (hsame.trans hmov.2.2.1) hbusy
  · exact ⟨x, hx, .inr ⟨ev', hhead, hport⟩⟩

section

variable (h : s.Passed view in_port_busy out_port_busy passed) (hsized : view.Sized)
include h hsized

theorem LruScan.Passed.visit (hnew : check ∉ passed) :
    (xbar_arb_lru.visit view s check).Passed view in_port_busy out_port_busy
      (passed ++ [check]) := by
  unfold xbar_arb_lru.visit
  split
  · rename_i hhead
    refine h.pass hnew rfl h.sound rfl rfl fun ev hmov => ?_
    rw [hmov.1] at hhead
    cases hhead
  · rename_i src_event hhead
    split
    · rename_i hfree
      have hnot : ∀ v, s.toScan.serves (check.1, v) = false :=
        fun v => h.sound.not_serves hsized hfree
      split
      · rename_i haccepts
        exact h.serve hnew (serves_grant hnot)
          (h.sound.grant hsized hhead hfree haccepts) rfl rfl
      · rename_i haccepts
        obtain ⟨hserves, hsound⟩ := h.sound.mark (m := .stalled) hnot fun _ => nofun
        refine h.pass hnew hserves hsound rfl rfl fun ev hmov => ?_
        obtain rfl : src_event = ev := some.inj (hhead.symm.trans hmov.1)
        exact h.sound.competes_out (Bool.eq_false_of_not_eq_true haccepts) hmov
    · rename_i hbusy
      exact h.pass hnew rfl h.sound rfl rfl fun ev hmov => h.sound.competes_in hbusy hmov

theorem LruScan.Passed.foldl {l : List (Fin P × Fin V)} (hnodup : (passed ++ l).Nodup) :
    (l.foldl (xbar_arb_lru.visit view) s).Passed view in_port_busy out_port_busy
      (passed ++ l) := by
  induction l generalizing passed s with
  | nil => simpa using h
  | cons check l ih =>
    have hnew : check ∉ passed := fun hmem =>
      (nodup_append.mp hnodup).2.2 check hmem check mem_cons_self rfl
    rw [append_cons] at hnodup ⊢
    exact ih (h.visit hsized hnew) hnodup

end

theorem lru_arbitrate_passed {cur_list : List (Fin P × Fin V)} (hsized : view.Sized)
    (hnodup : cur_list.Nodup) :
    ∃ s : LruScan P V, s.Passed view in_port_busy out_port_busy cur_list ∧
      xbar_arb_lru.arbitrate view cur_list in_port_busy out_port_busy =
        (PriorityList.serve s.toScan.serves cur_list, s.toScan) := by
  have hpassed := LruScan.Passed.foldl
    (@LruScan.Passed.start P V Header view in_port_busy out_port_busy) hsized
    (l := cur_list) hnodup
  rw [nil_append] at hpassed
  refine ⟨_, hpassed, ?_⟩
  rw [xbar_arb_lru.arbitrate, hpassed.unsat_eq, hpassed.sat_eq, PriorityList.serve]

end LeastRecentlyUsed

section RoundRobin

variable {view : PortView P V Header} {in_port_busy out_port_busy : Fin P → Nat}
variable {s : RrScan P V} {port : Fin P}

theorem findVc_eq_some {vc : Fin V} {ev : RouterEvent P V Header}
    (h : xbar_arb_rr.findVc view s port = some (vc, ev)) :
    view.vc_heads port vc = some ev ∧ view.accepts s.toScan ev = true := by
  obtain ⟨v, -, hv⟩ := exists_of_findSome?_eq_some h
  obtain ⟨e, hhead, he⟩ := bind_eq_some_iff.mp hv
  split at he
  · rename_i haccepts
    cases he
    exact ⟨hhead, haccepts⟩
  · cases he

section

variable (h : s.toScan.Sound view in_port_busy out_port_busy) (hsized : view.Sized)
include h hsized

theorem rr_visit_sound (hnot : ∀ v, s.toScan.serves (port, v) = false) :
    (xbar_arb_rr.visit view s port).toScan.Sound view in_port_busy out_port_busy ∧
      ∀ x : Fin P × Fin V, x.1 ≠ port →
        (xbar_arb_rr.visit view s port).toScan.serves x = s.toScan.serves x := by
  obtain ⟨hserves, hsound⟩ := h.mark (m := .idle) hnot fun _ => nofun
  unfold xbar_arb_rr.visit
  dsimp only
  split
  · exact ⟨hsound, fun x _ => congrFun hserves x⟩
  · rename_i hbusy
    split
    · exact ⟨hsound, fun x _ => congrFun hserves x⟩
    · rename_i vc src_event hfind
      obtain ⟨hhead, haccepts⟩ := findVc_eq_some hfind
      refine ⟨hsound.grant hsized hhead (Nat.eq_zero_of_not_pos hbusy) haccepts, fun x hx => ?_⟩
      rw [← hserves, Bool.eq_iff_iff]
      refine (serves_grant (fun v => ?_) x).trans (or_iff_left fun heq => ?_)
      · rw [hserves, hnot v]
      · exact hx (congrArg Prod.fst heq)

theorem rr_foldl_sound {l : List (Fin P)} (hnodup : l.Nodup)
    (hnot : ∀ i ∈ l, ∀ v, s.toScan.serves (i, v) = false) :
    (l.foldl (xbar_arb_rr.visit view) s).toScan.Sound view in_port_busy out_port_busy := by
  induction l generalizing s with
  | nil => exact h
  | cons port l ih =>
    obtain ⟨hport, hnodup⟩ := nodup_cons.mp hnodup
    obtain ⟨hnow, hlater⟩ := forall_mem_cons.mp hnot
    obtain ⟨hsound, hsame⟩ := rr_visit_sound h hsized hnow
    refine ih hsound hnodup fun i hi v => ?_
    have hne : i ≠ port := fun heq => hport (heq ▸ hi)
    rw [hsame (i, v) hne, hlater i hi v]

end

theorem arbitrate_sound {arb : Arbiter P V} (hsized : view.Sized)
    (hnodup : ∀ l, arb = .lru l → l.Nodup) :
    (arb.arbitrate view in_port_busy out_port_busy).2.Sound view in_port_busy
      out_port_busy := by
  cases arb with
  | lru l =>
    obtain ⟨s, hpassed, heq⟩ := @lru_arbitrate_passed P V Header view in_port_busy
      out_port_busy l hsized (hnodup l rfl)
    rw [Arbiter.arbitrate, heq]
    exact hpassed.sound
  | rr rr_vcs rr_port =>
    exact rr_foldl_sound .start hsized
      (nodup_rotate.mpr (nodup_finRange P))
      (fun i _ v => by simp [Scan.serves, Scan.start])

end RoundRobin

section Moves

variable {S : Surroundings P V Header Rest}

def Scan.moves (s : Scan P V) (ps : Ports P V Header Rest) (l : List (Fin P)) :
    List (Move P V Header) :=
  l.filterMap (fun i =>
    match s.progress_vc i with
    | .vc v => (ps.view.vc_heads i v).map
        (fun ev => ⟨i, v, ev, ps.xbar_in_credits ev.next_port ev.vc⟩)
    | _ => none)

variable {i : Fin P} {progress_vcs : Fin P → Progress V}
variable {m : Ports P V Header Rest × List (Move P V Header)}

theorem routeHead_input_buf {ps : Ports P V Header Rest} {port : Fin P} {vc j : Fin V}
    (hne : i ≠ port) :
    (ps.routeHead S port vc).input_buf i j = ps.input_buf i j := by
  unfold Ports.routeHead
  split
  · rfl
  · simp [hne]

theorem routeHead_xbar_in_credits {ps : Ports P V Header Rest} {port : Fin P} {vc : Fin V} :
    (ps.routeHead S port vc).xbar_in_credits = ps.xbar_in_credits := by
  unfold Ports.routeHead
  split <;> rfl

theorem recv_spec {ps : Ports P V Header Rest} {port : Fin P} {vc : Fin V}
    {ev : RouterEvent P V Header} (hhead : ps.view.vc_heads port vc = some ev) :
    (ps.recv S port vc).2 = some ev ∧ (ps.recv S port vc).1.xbar_in_credits = ps.xbar_in_credits ∧
      ∀ i j, i ≠ port → (ps.recv S port vc).1.input_buf i j = ps.input_buf i j := by
  unfold Ports.recv
  split
  · rename_i hbuf
    simp [Ports.view, hbuf] at hhead
  · rename_i event q hbuf
    obtain rfl : event = ev := by simpa [Ports.view, hbuf] using hhead
    refine ⟨rfl, ?_, fun i j hne => ?_⟩
    · split
      · rfl
      · exact routeHead_xbar_in_credits
    · split
      · simp [hne]
      · rw [routeHead_input_buf hne]
        simp [hne]

theorem movePort_vc {v : Fin V} {ev : RouterEvent P V Header} (hvc : progress_vcs i = .vc v)
    (hhead : m.1.view.vc_heads i v = some ev) :
    movePort S progress_vcs m i = ((m.1.recv S i v).1.send S ev.next_port ev ev.vc,
        m.2 ++ [⟨i, v, ev, m.1.xbar_in_credits ev.next_port ev.vc⟩]) := by
  obtain ⟨hev, hcredits, -⟩ := @recv_spec P V Header Rest S m.1 i v ev hhead
  unfold movePort
  rw [hvc]
  dsimp only
  generalize hrecv : m.1.recv S i v = r at hev hcredits ⊢
  obtain ⟨ps, e⟩ := r
  obtain rfl : e = some ev := hev
  dsimp only at hcredits ⊢
  rw [hcredits]

theorem movePort_rest (hnot : ∀ v, progress_vcs i ≠ .vc v) : movePort S progress_vcs m i = m := by
  unfold movePort
  split
  · rename_i v hv
    exact absurd hv (hnot v)
  · rfl

/-- The ports that are still to be moved are as they were at the start. -/
structure Scan.Pending (s : Scan P V) (ps : Ports P V Header Rest) (l : List (Fin P))
    (now : Ports P V Header Rest) : Prop where
  input_buf : ∀ i ∈ l, ∀ v, now.input_buf i v = ps.input_buf i v
  credits : ∀ i ∈ l, ∀ v ev, s.serves (i, v) = true → ps.view.vc_heads i v = some ev →
    ∀ w, now.xbar_in_credits ev.next_port w = ps.xbar_in_credits ev.next_port w
  nonneg : ∀ o w, 0 ≤ now.xbar_in_credits o w

variable {in_port_busy out_port_busy : Fin P → Nat} {s : Scan P V}

theorem foldl_movePort {ps : Ports P V Header Rest} {l : List (Fin P)}
    {m : Ports P V Header Rest × List (Move P V Header)}
    (hs : s.Sound ps.view in_port_busy out_port_busy) (hnodup : l.Nodup)
    (hpending : s.Pending ps l m.1) :
    (l.foldl (movePort S s.progress_vc) m).2 = m.2 ++ s.moves ps l ∧
      ∀ o w, 0 ≤ (l.foldl (movePort S s.progress_vc) m).1.xbar_in_credits o w := by
  induction l generalizing m with
  | nil => exact ⟨by simp [Scan.moves], hpending.nonneg⟩
  | cons i l ih =>
    obtain ⟨hi, hnodup⟩ := nodup_cons.mp hnodup
    rw [foldl_cons]
    by_cases hvc : ∃ v, s.progress_vc i = .vc v
    · obtain ⟨v, hv⟩ := hvc
      have hserves : s.serves (i, v) = true := serves_iff.mpr hv
      obtain ⟨ev, hmov, -⟩ := hs.granted (i, v) hserves
      have hhead : m.1.view.vc_heads i v = some ev := by
        rw [← hmov.1]
        simp only [Ports.view, hpending.input_buf i mem_cons_self v]
      have hcredits := hpending.credits i mem_cons_self v ev hserves hmov.1
      obtain ⟨-, hrecv, hbuf⟩ := @recv_spec P V Header Rest S m.1 i v ev hhead
      have hnext : s.Pending ps l (movePort S s.progress_vc m i).1 := by
        rw [movePort_vc hv hhead]
        refine ⟨fun j hj w => ?_, fun j hj w e hw he u => ?_, fun o w => ?_⟩
        · have hne : j ≠ i := fun heq => hi (heq ▸ hj)
          exact (hbuf j w hne).trans (hpending.input_buf j (mem_cons_of_mem _ hj) w)
        · have hne : e.next_port ≠ ev.next_port := by
            intro hsame
            have heq := hs.separate (j, w) (i, v) e ev hw hserves he hmov.1 hsame
            have hport : j = i := congrArg Prod.fst heq
            exact hi (hport ▸ hj)
          simp only [Ports.send, setBuf_apply, hne, false_and, if_false, hrecv]
          exact hpending.credits j (mem_cons_of_mem _ hj) w e hw he u
        · simp only [Ports.send, setBuf_apply, hrecv]
          split
          · have hspace : ¬ ps.xbar_in_credits ev.next_port ev.vc < ev.flits := by
              simpa [Ports.view] using hmov.2.2.2
            rw [hcredits]
            omega
          · exact hpending.nonneg o w
      obtain ⟨hmoves, hnonneg⟩ := ih hnodup hnext
      refine ⟨?_, hnonneg⟩
      have hhead0 : ps.view.vc_heads i v = some ev := hmov.1
      rw [hmoves, movePort_vc hv hhead, Scan.moves, Scan.moves, filterMap_cons, hv, hcredits]
      simp only [hhead0, map_some, append_assoc, singleton_append]
    · have hnot : ∀ v, s.progress_vc i ≠ .vc v := fun v hv => hvc ⟨v, hv⟩
      rw [movePort_rest hnot]
      have hnext : s.Pending ps l m.1 :=
        ⟨fun j hj => hpending.input_buf j (mem_cons_of_mem _ hj),
          fun j hj => hpending.credits j (mem_cons_of_mem _ hj), hpending.nonneg⟩
      obtain ⟨hmoves, hnonneg⟩ := ih hnodup hnext
      refine ⟨?_, hnonneg⟩
      rw [hmoves, Scan.moves, Scan.moves, filterMap_cons]
      cases hp : s.progress_vc i with
      | idle => rfl
      | stalled => rfl
      | vc v => exact absurd hp (hnot v)

theorem mem_moves_iff {ps : Ports P V Header Rest} {l : List (Fin P)} {m : Move P V Header} :
    m ∈ s.moves ps l ↔ m.in_port ∈ l ∧ s.serves (m.in_port, m.vc) = true ∧
      ps.view.vc_heads m.in_port m.vc = some m.event ∧
      m.credits = ps.xbar_in_credits m.event.next_port m.event.vc := by
  rw [Scan.moves, mem_filterMap]
  constructor
  · rintro ⟨i, hi, hm⟩
    split at hm
    · rename_i v hv
      obtain ⟨ev, hhead, rfl⟩ := map_eq_some_iff.mp hm
      exact ⟨hi, serves_iff.mpr hv, hhead, rfl⟩
    · cases hm
  · rintro ⟨hi, hserves, hhead, hcredits⟩
    refine ⟨m.in_port, hi, ?_⟩
    rw [serves_iff.mp hserves]
    simp only [hhead, map_some, ← hcredits]

theorem moves_in_port {ps : Ports P V Header Rest} {l : List (Fin P)} :
    List.Sublist ((s.moves ps l).map Move.in_port) l := by
  induction l with
  | nil => simp [Scan.moves]
  | cons i l ih =>
    rw [Scan.moves, filterMap_cons]
    split
    · exact .cons i ih
    · rename_i m hm
      split at hm
      · obtain ⟨ev, -, rfl⟩ := map_eq_some_iff.mp hm
        exact .cons_cons i ih
      · cases hm

end Moves

variable {r : Router P V Header Rest} {r' : Router P V Header Rest}

section Cycles

variable {S : Surroundings P V Header Rest}

theorem nodup_allPairs : (allPairs P V).Nodup := by
  rw [allPairs, nodup_flatMap]
  refine ⟨fun i _ => (nodup_finRange V).map fun a b h => (Prod.mk.inj h).2, ?_⟩
  refine (nodup_finRange P).imp fun hne x hx hy => ?_
  obtain ⟨a, -, rfl⟩ := mem_map.mp hx
  obtain ⟨b, -, hb⟩ := mem_map.mp hy
  exact hne (Prod.mk.inj hb).1.symm

def servedBy (moves : List (Move P V Header)) (x : Fin P × Fin V) : Bool :=
  x ∈ moves.map (fun m => (m.in_port, m.vc))

/-- Every packet in the input buffers has a flit. -/
def Ports.Sized (ps : Ports P V Header Rest) : Prop := ∀ i v, ∀ ev ∈ ps.input_buf i v, 0 < ev.flits

/-- What holds between the events of a router. -/
structure Router.Sane (r : Router P V Header Rest) : Prop where
  sized : r.ports.Sized
  nonneg : ∀ o w, 0 ≤ r.ports.xbar_in_credits o w
  counted : Counted r.ports
  lru_perm : ∀ l, r.arb = .lru l → l.Perm (allPairs P V)
  off_clock : r.requestNotifyOnEvent = true → r.ports.vcs_with_data = 0

variable {ps : Ports P V Header Rest} {r : Router P V Header Rest} {s : Scan P V}

theorem Ports.Sized.view (h : ps.Sized) : ps.view.Sized :=
  fun i v ev hhead => h i v ev (mem_of_head? hhead)

theorem Router.Sane.lru_nodup (h : r.Sane) :
    ∀ l, r.arb = .lru l → l.Nodup :=
  fun l hl => (h.lru_perm l hl).nodup_iff.mpr nodup_allPairs

/-- The least-recently-used list after the moves of a cycle. -/
structure ListValid (r r' : Router P V Header Rest) (moves : List (Move P V Header)) : Prop where
  perm : ∀ l, r.arb = .lru l → l.Perm (allPairs P V)
  served_last : ∀ l, r.arb = .lru l →
    r'.arb = .lru (PriorityList.serve (servedBy moves) l)
  waits : ∀ l p ev, r.arb = .lru l →
    r.ports.view.Movable r.in_port_busy r.out_port_busy p ev → servedBy moves p = false →
    ∃ q, PriorityList.Overtakes (servedBy moves) l q p ∧ r.ports.view.Compete q p ev

/-- The moves of a cycle are a matching of free ports, with room for what they move. -/
structure ValidMoves (r : Router P V Header Rest) (moves : List (Move P V Header)) : Prop where
  in_ports : (moves.map Move.in_port).Nodup
  out_ports : (moves.map (fun m => m.event.next_port)).Nodup
  free : ∀ m ∈ moves,
    r.in_port_busy m.in_port = 0 ∧ r.out_port_busy m.event.next_port = 0
  room : ∀ m ∈ moves, m.event.flits ≤ m.credits
  nonneg : ∀ o w, 0 ≤ r.ports.xbar_in_credits o w
  head : ∀ m ∈ moves, (r.ports.input_buf m.in_port m.vc).head? = some m.event

def ValidCycle (S : Surroundings P V Header Rest) (r : Router P V Header Rest) : Prop :=
  ValidMoves r (r.step S .tick).2 ∧ ListValid r (r.step S .tick).1 (r.step S .tick).2

theorem ListValid.of_no_moves (h : r.Sane) (harb : r'.arb = r.arb)
    (hzero : r.ports.vcs_with_data = 0) :
    ListValid r r' [] := by
  refine ⟨h.lru_perm, fun l hl => ?_, fun l p ev _ hmov _ => ?_⟩
  · have hsame : PriorityList.serve (servedBy ([] : List (Move P V Header))) l = l :=
      PriorityList.serve_none fun x _ => rfl
    rw [harb, hl, hsame]
  · have hempty := h.counted.view_isEmpty hzero p.1 p.2
    rw [hmov.1] at hempty
    cases hempty

theorem ValidMoves.nil (h : r.Sane) : ValidMoves r [] :=
  ⟨nodup_nil, nodup_nil, nofun, nofun, h.nonneg, nofun⟩

theorem servedBy_moves {in_port_busy out_port_busy : Fin P → Nat}
    (hs : s.Sound ps.view in_port_busy out_port_busy) :
    servedBy (s.moves ps (List.finRange P)) = s.serves := by
  funext x
  rw [Bool.eq_iff_iff, servedBy, decide_eq_true_iff, List.mem_map]
  constructor
  · rintro ⟨m, hm, rfl⟩
    exact (mem_moves_iff.mp hm).2.1
  · intro hx
    obtain ⟨ev, hmov, -⟩ := hs.granted x hx
    exact ⟨⟨x.1, x.2, ev, ps.xbar_in_credits ev.next_port ev.vc⟩,
      mem_moves_iff.mpr ⟨mem_finRange _, hx, hmov.1, rfl⟩, rfl⟩

theorem ValidMoves.of_sound (h : r.Sane)
    (hs : s.Sound r.ports.view r.in_port_busy r.out_port_busy) :
    ValidMoves r (s.moves r.ports (finRange P)) := by
  have hin : ((s.moves r.ports (finRange P)).map Move.in_port).Nodup :=
    (nodup_finRange P).sublist moves_in_port
  have hmovable : ∀ m ∈ s.moves r.ports (finRange P),
      r.ports.view.Movable r.in_port_busy r.out_port_busy (m.in_port, m.vc) m.event := by
    intro m hm
    obtain ⟨-, hserves, hhead, -⟩ := mem_moves_iff.mp hm
    obtain ⟨ev, hmov, -⟩ := hs.granted _ hserves
    obtain rfl : m.event = ev := some.inj (hhead.symm.trans hmov.1)
    exact hmov
  refine ⟨hin, ?_, fun m hm => ⟨(hmovable m hm).2.1, (hmovable m hm).2.2.1⟩,
    fun m hm => ?_, h.nonneg, fun m hm => (mem_moves_iff.mp hm).2.2.1⟩
  · refine List.Nodup.map_on (fun m hm m' hm' hport => ?_) (List.Nodup.of_map _ hin)
    obtain ⟨-, hserves, hhead, -⟩ := mem_moves_iff.mp hm
    obtain ⟨-, hserves', hhead', -⟩ := mem_moves_iff.mp hm'
    have hsame := hs.separate _ _ _ _ hserves hserves' hhead hhead' hport
    exact inj_on_of_nodup_map hin hm hm' (congrArg Prod.fst hsame)
  · have hspace := (hmovable m hm).2.2.2
    rw [(mem_moves_iff.mp hm).2.2.2]
    simpa [Ports.view] using hspace

theorem servedBy_arbitrateAndMove (h : r.Sane) : servedBy (r.arbitrateAndMove S).2 =
    (r.arb.arbitrate r.ports.view r.in_port_busy r.out_port_busy).2.serves := by
  have hsound := @arbitrate_sound P V Header r.ports.view r.in_port_busy r.out_port_busy
    r.arb h.sized.view h.lru_nodup
  have hmoves := (@foldl_movePort P V Header Rest S _ _ _ r.ports (finRange P)
    (r.ports, []) hsound (nodup_finRange P)
    ⟨fun _ _ _ => rfl, fun _ _ _ _ _ _ _ => rfl, h.nonneg⟩).1
  exact (congrArg servedBy hmoves).trans (servedBy_moves hsound)

theorem arbitrateAndMove_spec (h : r.Sane) :
    ∃ s : Scan P V, s.Sound r.ports.view r.in_port_busy r.out_port_busy ∧
      (r.arbitrateAndMove S).2 = s.moves r.ports (finRange P) ∧
      (∀ o w, 0 ≤ (r.arbitrateAndMove S).1.ports.xbar_in_credits o w) ∧
      (∀ i, (r.arbitrateAndMove S).1.in_port_busy i = s.in_port_busy i - 1) ∧
      (∀ o, (r.arbitrateAndMove S).1.out_port_busy o = s.out_port_busy o - 1) ∧
      ListValid r (r.arbitrateAndMove S).1 (r.arbitrateAndMove S).2 := by
  have hsound := @arbitrate_sound P V Header r.ports.view r.in_port_busy r.out_port_busy
    r.arb h.sized.view h.lru_nodup
  obtain ⟨hmoves, hnonneg⟩ := @foldl_movePort P V Header Rest S _ _ _ r.ports
    (finRange P) (r.ports, []) hsound (nodup_finRange P)
    ⟨fun _ _ _ => rfl, fun _ _ _ _ _ _ _ => rfl, h.nonneg⟩
  refine ⟨_, hsound, hmoves, hnonneg, fun _ => rfl, fun _ => rfl, h.lru_perm, ?_, ?_⟩
  · intro l hl
    obtain ⟨s, hpassed, heq⟩ := @lru_arbitrate_passed P V Header r.ports.view
      r.in_port_busy r.out_port_busy l h.sized.view (h.lru_nodup l hl)
    rw [servedBy_arbitrateAndMove h]
    simp only [Router.arbitrateAndMove, hl, Arbiter.arbitrate, heq]
  · intro l p ev hl hmov hunserved
    obtain ⟨s, hpassed, heq⟩ := @lru_arbitrate_passed P V Header r.ports.view
      r.in_port_busy r.out_port_busy l h.sized.view (h.lru_nodup l hl)
    have hscan : (r.arb.arbitrate r.ports.view r.in_port_busy r.out_port_busy).2 =
        s.toScan := by
      rw [hl, Arbiter.arbitrate, heq]
    rw [servedBy_arbitrateAndMove h, hscan] at hunserved ⊢
    have hp : p ∈ l := by
      rw [(h.lru_perm l hl).mem_iff, allPairs, mem_flatMap]
      exact ⟨p.1, mem_finRange _, mem_map.mpr ⟨p.2, mem_finRange _, rfl⟩⟩
    obtain ⟨q, hqp, hq, hcompete⟩ := hpassed.waits p ev hp hmov hunserved
    exact ⟨q, ⟨hqp, hq, hunserved⟩, hcompete⟩

theorem Router.Sane.validCycle (h : r.Sane) : ValidCycle S r := by
  unfold ValidCycle
  cases hon : r.requestNotifyOnEvent with
  | true =>
    rw [step_tick_unclocked hon]
    exact ⟨.nil h, .of_no_moves h rfl (h.off_clock hon)⟩
  | false =>
    by_cases hzero : r.ports.vcs_with_data = 0
    · rw [step_tick_no_data hon hzero]
      exact ⟨.nil h, .of_no_moves h rfl hzero⟩
    · rw [step_tick_data hon hzero]
      obtain ⟨s, hsound, hmoves, -, -, -, hlist⟩ := @arbitrateAndMove_spec P V Header Rest S r h
      refine ⟨?_, hlist.perm, hlist.served_last, hlist.waits⟩
      have hvalid := ValidMoves.of_sound h hsound
      rw [← hmoves] at hvalid
      exact hvalid

end Cycles

section Runs

variable {S : Surroundings P V Header Rest}

/-- Only packets with a flit arrive. -/
def Op.Sized : Op P V Header Rest → Prop
  | .receive _ ev => 0 < ev.flits
  | _ => True

theorem sized_routeHead {ps : Ports P V Header Rest} {port : Fin P} {vc : Fin V} (h : ps.Sized) :
    (ps.routeHead S port vc).Sized := by
  intro i v e he
  unfold Ports.routeHead at he
  split at he
  · exact h i v e he
  · rename_i ev q hbuf
    simp only [setBuf_apply] at he
    split at he
    · rename_i hiv
      have hall : ∀ e ∈ ev :: q, 0 < e.flits := hbuf ▸ h port vc
      rcases mem_cons.mp he with rfl | he
      · rw [S.flits_route]
        exact hall ev mem_cons_self
      · exact hall e (mem_cons_of_mem _ he)
    · exact h i v e he

variable {ps : Ports P V Header Rest} {port : Fin P} {view : PortView P V Header}
variable {in_port_busy out_port_busy : Fin P → Nat} {s : Scan P V} {r : Router P V Header Rest}
variable {ops : List (Op P V Header Rest)}

theorem sized_setBuf {ps' : Ports P V Header Rest} {vc : Fin V} {q : List (RouterEvent P V Header)}
    (h : ps.Sized) (hq : ∀ e ∈ q, 0 < e.flits)
    (hbuf : ps'.input_buf = setBuf ps.input_buf port vc q) :
    ps'.Sized := by
  intro i v e he
  rw [hbuf, setBuf_apply] at he
  split at he
  · exact hq e he
  · exact h i v e he

theorem sized_recv {ps : Ports P V Header Rest} {port : Fin P} {vc : Fin V} (h : ps.Sized) :
    (ps.recv S port vc).1.Sized := by
  unfold Ports.recv
  split
  · exact h
  · rename_i event q hbuf
    have hq : ∀ e ∈ q, 0 < e.flits := fun e he => h port vc e (hbuf ▸ mem_cons_of_mem _ he)
    have hpopped : ({ ps with
        input_buf := setBuf ps.input_buf port vc q } : Ports P V Header Rest).Sized :=
      sized_setBuf h hq rfl
    split
    · exact sized_setBuf h hq rfl
    · exact @sized_routeHead P V Header Rest S _ port vc hpopped

theorem sized_handle_input {ev : RouterEvent P V Header} (h : ps.Sized) (hev : 0 < ev.flits) :
    (ps.handle_input S port ev).Sized := by
  have hq : ∀ e ∈ ps.input_buf port ev.vc ++ [ev], 0 < e.flits := by
    intro e he
    rcases mem_append.mp he with he | he
    · exact h port ev.vc e he
    · exact mem_singleton.mp he ▸ hev
  have hpushed : ({ ps with
      input_buf := setBuf ps.input_buf port ev.vc (ps.input_buf port ev.vc ++ [ev]) } :
      Ports P V Header Rest).Sized := sized_setBuf h hq rfl
  unfold Ports.handle_input
  split
  · exact @sized_routeHead P V Header Rest S _ port ev.vc hpushed
  · exact hpushed

theorem sized_foldl_movePort {progress_vcs : Fin P → Progress V}
    {m : Ports P V Header Rest × List (Move P V Header)} (l : List (Fin P)) (h : m.1.Sized) :
    (l.foldl (movePort S progress_vcs) m).1.Sized := by
  induction l generalizing m with
  | nil => exact h
  | cons i l ih =>
    refine ih ?_
    unfold movePort
    split
    · rename_i v _
      have hrecv := @sized_recv P V Header Rest S m.1 i v h
      split
      · rename_i ps heq
        rw [heq] at hrecv
        exact hrecv
      · rename_i ps ev heq
        rw [heq] at hrecv
        exact hrecv
    · exact h

theorem handle_input_xbar_in_credits
    {ps : Ports P V Header Rest} {port : Fin P} {ev : RouterEvent P V Header} :
    (ps.handle_input S port ev).xbar_in_credits = ps.xbar_in_credits := by
  unfold Ports.handle_input
  split
  · exact routeHead_xbar_in_credits
  · rfl

theorem Router.Sane.step {op : Op P V Header Rest} (h : r.Sane) (hsized : op.Sized) :
    (r.step S op).1.Sane := by
  cases op with
  | tick =>
    cases hon : r.requestNotifyOnEvent with
    | true =>
      rw [step_tick_unclocked hon]
      exact ⟨h.sized, h.nonneg, h.counted, h.lru_perm, fun _ => h.off_clock hon⟩
    | false =>
      by_cases hzero : r.ports.vcs_with_data = 0
      · rw [step_tick_no_data hon hzero]
        exact ⟨h.sized, h.nonneg, h.counted, h.lru_perm, fun _ => hzero⟩
      · rw [step_tick_data hon hzero]
        obtain ⟨s, -, -, hnonneg, -, -, hlist⟩ := @arbitrateAndMove_spec P V Header Rest S r h
        refine ⟨sized_foldl_movePort _ h.sized, hnonneg,
          counted_foldl_movePort _ h.counted, fun l hl => ?_, fun hoff => ?_⟩
        · cases harb : r.arb with
          | lru l0 =>
            have hlast := hlist.served_last l0 harb
            obtain rfl := Arbiter.lru.inj (hlast.symm.trans hl)
            exact (PriorityList.serve_perm _ _).trans (h.lru_perm l0 harb)
          | rr rr_vcs rr_port =>
            simp only [Router.stepClocked, Router.arbitrateAndMove, harb,
              Arbiter.arbitrate] at hl
            cases hl
        · rw [show r.requestNotifyOnEvent = true from hoff] at hon
          cases hon
  | receive port ev =>
    have hports : (r.ports.handle_input S port ev).Sized := sized_handle_input h.sized hsized
    have hcounted := @counted_handle_input P V Header Rest S r.ports port ev h.counted
    have hnonneg : ∀ o w, 0 ≤ (r.ports.handle_input S port ev).xbar_in_credits o w := by
      rw [handle_input_xbar_in_credits]
      exact h.nonneg
    cases hon : r.requestNotifyOnEvent with
    | true =>
      rw [step_receive_unclocked hon]
      refine ⟨hports, hnonneg, hcounted, fun l hl => ?_, fun hoff => Bool.noConfusion hoff⟩
      cases harb : r.arb with
      | lru l0 =>
        simp only [Router.notifyEvent, harb, Arbiter.reportSkippedCycles] at hl
        obtain rfl := Arbiter.lru.inj hl
        exact h.lru_perm _ harb
      | rr rr_vcs rr_port =>
        simp only [Router.notifyEvent, harb, Arbiter.reportSkippedCycles] at hl
        cases hl
    | false =>
      rw [step_receive_clocked hon]
      exact ⟨hports, hnonneg, hcounted, h.lru_perm,
        fun hoff => Bool.noConfusion (hon.symm.trans hoff)⟩
  | depart port vc link =>
    have hcounted := @counted_handle_output P V Header Rest r.ports port vc link h.counted
    refine ⟨?_, ?_, hcounted, h.lru_perm, fun hoff => ?_⟩
    · unfold Router.step Ports.handle_output
      dsimp only
      split <;> exact h.sized
    · unfold Router.step Ports.handle_output
      dsimp only
      split
      · exact h.nonneg
      · rename_i send_event q hbuf
        intro o w
        simp only [setBuf_apply]
        have hold := h.nonneg port vc
        split
        · omega
        · exact h.nonneg o w
    · have hzero := h.off_clock hoff
      unfold Router.step Ports.handle_output
      dsimp only
      split <;> exact hzero
  | link link =>
    exact ⟨h.sized, h.nonneg, counted_of_same h.counted (fun _ _ => rfl) rfl, h.lru_perm,
      h.off_clock⟩

/-- The cycle from which a port with this busy counter is free. -/
def Router.freeFrom (r : Router P V Header Rest) (busy : Nat) : Nat :=
  r.cycle + (if r.requestNotifyOnEvent then busy - (r.cycle - r.unclocked_cycle) else busy)

/-- How a step changes when ports are free, given the ports of its moves. -/
structure Occupies (r r' : Router P V Header Rest) (moves : List (Move P V Header)) : Prop where
  in_later : ∀ i, r.freeFrom (r.in_port_busy i) ≤ r'.freeFrom (r'.in_port_busy i)
  out_later : ∀ o, r.freeFrom (r.out_port_busy o) ≤ r'.freeFrom (r'.out_port_busy o)
  free : ∀ m ∈ moves, r.freeFrom (r.in_port_busy m.in_port) ≤ r.cycle ∧
    r.freeFrom (r.out_port_busy m.event.next_port) ≤ r.cycle
  taken : ∀ m ∈ moves,
    r.cycle + m.event.flits ≤ r'.freeFrom (r'.in_port_busy m.in_port) ∧
    r.cycle + m.event.flits ≤ r'.freeFrom (r'.out_port_busy m.event.next_port)

theorem Scan.Sound.in_le (h : s.Sound view in_port_busy out_port_busy) (i : Fin P) :
    in_port_busy i ≤ s.in_port_busy i := by
  rcases h.in_rest i with hsame | ⟨v, hv⟩
  · exact hsame.ge
  · obtain ⟨ev, hmov, -⟩ := h.granted (i, v) hv
    have hfree : in_port_busy i = 0 := hmov.2.1
    omega

theorem Scan.Sound.out_le (h : s.Sound view in_port_busy out_port_busy) (o : Fin P) :
    out_port_busy o ≤ s.out_port_busy o := by
  rcases h.out_rest o with hsame | ⟨x, ev, hx, hhead, rfl⟩
  · exact hsame.ge
  · obtain ⟨ev', hmov, -⟩ := h.granted x hx
    obtain rfl : ev = ev' := some.inj (hhead.symm.trans hmov.1)
    have hfree := hmov.2.2.1
    omega

theorem Occupies.of_data (h : r.Sane) (hon : r.requestNotifyOnEvent = false) :
    Occupies r (r.stepClocked S .tick).1 (r.stepClocked S .tick).2 := by
  obtain ⟨s, hsound, hmoves, -, hin, hout, -⟩ := @arbitrateAndMove_spec P V Header Rest S r h
  have hoff : ¬ r.requestNotifyOnEvent = true := by simp [hon]
  have hnow : ∀ busy, r.freeFrom busy = r.cycle + busy := by
    intro busy
    rw [Router.freeFrom, if_neg hoff]
  have hthen : ∀ busy, (r.stepClocked S .tick).1.freeFrom busy = r.cycle + 1 + busy := by
    intro busy
    have hoff' : ¬ (r.stepClocked S .tick).1.requestNotifyOnEvent = true := hoff
    rw [Router.freeFrom, if_neg hoff']
    rfl
  have hin' : ∀ i, (r.stepClocked S .tick).1.in_port_busy i = s.in_port_busy i - 1 := hin
  have hout' : ∀ o, (r.stepClocked S .tick).1.out_port_busy o = s.out_port_busy o - 1 := hout
  have hmem : ∀ m ∈ (r.stepClocked S .tick).2,
      r.ports.view.Movable r.in_port_busy r.out_port_busy (m.in_port, m.vc) m.event ∧
      s.in_port_busy m.in_port = m.event.flits ∧
      s.out_port_busy m.event.next_port = m.event.flits := by
    intro m hm
    have hm' : m ∈ s.moves r.ports (finRange P) := hmoves ▸ hm
    obtain ⟨-, hserves, hhead, -⟩ := mem_moves_iff.mp hm'
    obtain ⟨ev, hmov, hbusy⟩ := hsound.granted _ hserves
    obtain rfl : m.event = ev := some.inj (hhead.symm.trans hmov.1)
    exact ⟨hmov, hbusy⟩
  refine ⟨fun i => ?_, fun o => ?_, fun m hm => ?_, fun m hm => ?_⟩
  · have hle := hsound.in_le i
    rw [hnow, hthen, hin']
    omega
  · have hle := hsound.out_le o
    rw [hnow, hthen, hout']
    omega
  · obtain ⟨⟨-, hfree, hfree', -⟩, -⟩ := hmem m hm
    dsimp only at hfree
    rw [hnow, hnow]
    omega
  · obtain ⟨-, hbusy, hbusy'⟩ := hmem m hm
    rw [hthen, hthen, hin', hout']
    omega

theorem Occupies.of_no_moves
    (hin : ∀ i, r.freeFrom (r.in_port_busy i) ≤ r'.freeFrom (r'.in_port_busy i))
    (hout : ∀ o, r.freeFrom (r.out_port_busy o) ≤ r'.freeFrom (r'.out_port_busy o)) :
    Occupies r r' [] :=
  ⟨hin, hout, nofun, nofun⟩

theorem Router.Sane.occupies (h : r.Sane) (op : Op P V Header Rest) :
    Occupies r (r.step S op).1 (r.step S op).2 := by
  cases op with
  | tick =>
    cases hon : r.requestNotifyOnEvent with
    | true =>
      rw [step_tick_unclocked hon]
      have hle : ∀ busy, r.freeFrom busy ≤
          ({ r with cycle := r.cycle + 1 } : Router P V Header Rest).freeFrom busy := by
        intro busy
        simp only [Router.freeFrom, if_pos hon]
        omega
      exact .of_no_moves (fun _ => hle _) fun _ => hle _
    | false =>
      by_cases hzero : r.ports.vcs_with_data = 0
      · rw [step_tick_no_data hon hzero]
        have hoff : ¬ r.requestNotifyOnEvent = true := by simp [hon]
        have hle : ∀ busy, r.freeFrom busy ≤ ({ r with
            requestNotifyOnEvent := true
            unclocked_cycle := r.cycle
            cycle := r.cycle + 1 } : Router P V Header Rest).freeFrom busy := by
          intro busy
          simp only [Router.freeFrom, if_neg hoff, if_true]
          omega
        exact .of_no_moves (fun _ => hle _) fun _ => hle _
      · rw [step_tick_data hon hzero]
        exact .of_data h hon
  | receive port ev =>
    cases hon : r.requestNotifyOnEvent with
    | true =>
      rw [step_receive_unclocked hon]
      refine .of_no_moves (fun i => ?_) fun o => ?_
      · simp [Router.freeFrom, Router.notifyEvent, hon]
      · simp [Router.freeFrom, Router.notifyEvent, hon]
    | false =>
      rw [step_receive_clocked hon]
      exact .of_no_moves (fun _ => le_rfl) fun _ => le_rfl
  | depart port vc link => exact .of_no_moves (fun _ => le_rfl) (fun _ => le_rfl)
  | link link => exact .of_no_moves (fun _ => le_rfl) (fun _ => le_rfl)

def Router.run (S : Surroundings P V Header Rest) (r : Router P V Header Rest)
    (ops : List (Op P V Header Rest)) : Router P V Header Rest :=
  ops.foldl (fun r op => (r.step S op).1) r

def moveLog (S : Surroundings P V Header Rest) :
    Router P V Header Rest → List (Op P V Header Rest) → List (Nat × Move P V Header)
  | _, [] => []
  | r, op :: ops =>
    (r.step S op).2.map (fun m => (r.cycle, m)) ++ moveLog S (r.step S op).1 ops

/-- A port that an earlier packet uses is used again after all its flits. -/
def AfterFlits (a b : Nat × Move P V Header) : Prop :=
  (a.2.in_port = b.2.in_port ∨ a.2.event.next_port = b.2.event.next_port) →
    a.1 + a.2.event.flits ≤ b.1

theorem Router.Sane.run (h : r.Sane) (hsized : ∀ op ∈ ops, op.Sized) : (r.run S ops).Sane := by
  induction ops generalizing r with
  | nil => exact h
  | cons op ops ih =>
    obtain ⟨hnow, hlater⟩ := forall_mem_cons.mp hsized
    exact ih (h.step hnow) hlater

theorem free_of_mem_moveLog {b : Nat × Move P V Header} (h : r.Sane) (hsized : ∀ op ∈ ops, op.Sized)
    (hb : b ∈ moveLog S r ops) :
    r.freeFrom (r.in_port_busy b.2.in_port) ≤ b.1 ∧
      r.freeFrom (r.out_port_busy b.2.event.next_port) ≤ b.1 := by
  induction ops generalizing r with
  | nil => cases hb
  | cons op ops ih =>
    obtain ⟨hnow, hlater⟩ := forall_mem_cons.mp hsized
    have hoccupies := @Router.Sane.occupies P V Header Rest S r h op
    rcases mem_append.mp hb with hb | hb
    · obtain ⟨m, hm, rfl⟩ := mem_map.mp hb
      exact hoccupies.free m hm
    · obtain ⟨hin, hout⟩ := ih (h.step hnow) hlater hb
      exact ⟨(hoccupies.in_later _).trans hin, (hoccupies.out_later _).trans hout⟩

theorem ValidMoves.pairwise {moves : List (Move P V Header)} (h : ValidMoves r moves) :
    (moves.map (fun m => (r.cycle, m))).Pairwise AfterFlits := by
  rw [pairwise_map]
  have hin := pairwise_map.mp h.in_ports
  have hout := pairwise_map.mp h.out_ports
  refine (hin.and hout).imp fun hne hsame => ?_
  rcases hsame with hsame | hsame
  · exact absurd hsame hne.1
  · exact absurd hsame hne.2

theorem validMoves_step (h : r.Sane) (op : Op P V Header Rest) : ValidMoves r (r.step S op).2 := by
  cases op with
  | tick => exact h.validCycle.1
  | receive port ev => exact .nil h
  | depart port vc link => exact .nil h
  | link link => exact .nil h

theorem pairwise_moveLog (h : r.Sane) (hsized : ∀ op ∈ ops, op.Sized) :
    (moveLog S r ops).Pairwise AfterFlits := by
  induction ops generalizing r with
  | nil => exact .nil
  | cons op ops ih =>
    obtain ⟨hnow, hlater⟩ := forall_mem_cons.mp hsized
    have hnext := @Router.Sane.step P V Header Rest S r op h hnow
    have hoccupies := @Router.Sane.occupies P V Header Rest S r h op
    refine pairwise_append.mpr
      ⟨(validMoves_step h op).pairwise, ih hnext hlater, fun a ha b hb hsame => ?_⟩
    obtain ⟨m, hm, rfl⟩ := mem_map.mp ha
    obtain ⟨hin, hout⟩ := free_of_mem_moveLog hnext hlater hb
    rcases hsame with hsame | hsame
    · rw [← hsame] at hin
      exact (hoccupies.taken m hm).1.trans hin
    · rw [← hsame] at hout
      exact (hoccupies.taken m hm).2.trans hout

variable {l : List (Fin P × Fin V)}

theorem lru_step (h : r.Sane) (hl : r.arb = .lru l) (op : Op P V Header Rest) :
    (r.step S op).1.arb = .lru (PriorityList.serve (servedBy (r.step S op).2) l) := by
  have hsame : PriorityList.serve (servedBy ([] : List (Move P V Header))) l = l :=
    PriorityList.serve_none fun x _ => rfl
  cases op with
  | tick => exact h.validCycle.2.served_last l hl
  | receive port ev =>
    cases hon : r.requestNotifyOnEvent with
    | true =>
      rw [step_receive_unclocked hon, hsame]
      simp only [Router.notifyEvent, hl, Arbiter.reportSkippedCycles]
    | false =>
      rw [step_receive_clocked hon, hsame, hl]
  | depart port vc link => exact hl.trans (congrArg Arbiter.lru hsame.symm)
  | link link => exact hl.trans (congrArg Arbiter.lru hsame.symm)

theorem lru_run {ops : List (Op P V Header Rest)} (h : r.Sane) (hl : r.arb = .lru l)
    (hsized : ∀ op ∈ ops, op.Sized) :
    ∃ rounds, (r.run S ops).arb = .lru (PriorityList.serveAll rounds l) ∧
      ∀ served ∈ rounds, ∀ p, served p = true →
        ∃ b ∈ moveLog S r ops, (b.2.in_port, b.2.vc) = p := by
  induction ops generalizing r l with
  | nil => exact ⟨[], hl, nofun⟩
  | cons op ops ih =>
    obtain ⟨hnow, hlater⟩ := forall_mem_cons.mp hsized
    obtain ⟨rounds, hrun, hserved⟩ := ih (h.step hnow) (lru_step h hl op) hlater
    refine ⟨servedBy (r.step S op).2 :: rounds, hrun, fun served hmem p hp => ?_⟩
    rcases mem_cons.mp hmem with rfl | hmem
    · obtain ⟨m, hm, heq⟩ := mem_map.mp (of_decide_eq_true hp)
      exact ⟨(r.cycle, m), mem_append_left _ (mem_map_of_mem hm), heq⟩
    · obtain ⟨b, hb, heq⟩ := hserved served hmem p hp
      exact ⟨b, mem_append_right _ hb, heq⟩

/-- In the next cycle the one pair is served and the other, behind it, is not. -/
def OvertakesNext (S : Surroundings P V Header Rest) (r : Router P V Header Rest)
    (q p : Fin P × Fin V) : Prop :=
  ∃ l, r.arb = .lru l ∧ PriorityList.Overtakes (servedBy (r.step S .tick).2) l q p

theorem narrow_eq {n : Nat} (hn : n ≤ 65536) (i : Fin n) : narrow i = i :=
  Fin.ext (Nat.mod_eq_of_lt (i.isLt.trans_le hn))

/-- No pair of the list is another one as long as ports and VCs fit 16 bits. -/
theorem setPorts_eq (hp : P ≤ 65536) (hv : V ≤ 65536) :
    xbar_arb_lru.setPorts P V = allPairs P V :=
  map_id'' (fun x => Prod.ext (narrow_eq hp x.1) (narrow_eq hv x.2)) _

theorem Router.IsInitial.sane (h : r.IsInitial) (hfits : r.arb.Fits) : r.Sane := by
  refine ⟨fun i v ev hev => ?_, h.credits_nonneg, h.follows.counted, fun l hl => ?_, fun hoff => ?_⟩
  · rw [h.input_empty] at hev
    cases hev
  · rcases h.arb_set with harb | harb
    · obtain rfl := Arbiter.lru.inj (hl.symm.trans harb)
      rw [hl] at hfits
      rw [setPorts_eq hfits.1 hfits.2.1]
    · cases hl.symm.trans harb
  · rw [h.on_clock] at hoff
    cases hoff

theorem served_between_overtakings {mid : List (Op P V Header Rest)} {q p : Fin P × Fin V}
    (h : r.Sane) (hsized : ∀ op ∈ mid, op.Sized) (hfirst : OvertakesNext S r q p)
    (hsecond : OvertakesNext S (r.run S (.tick :: mid)) q p) :
    ∃ b ∈ moveLog S (r.run S [.tick]) mid, (b.2.in_port, b.2.vc) = p := by
  obtain ⟨l, hl, hfirst⟩ := hfirst
  obtain ⟨l', hl', hsecond⟩ := hsecond
  obtain ⟨rounds, hrun, hserved⟩ := @lru_run P V Header Rest S (r.run S [.tick]) _ mid
    (h.step trivial) (lru_step h hl .tick) hsized
  obtain rfl := Arbiter.lru.inj (hl'.symm.trans hrun)
  obtain ⟨served, hmem, hp⟩ := PriorityList.served_between (h.lru_nodup l hl) hfirst hsecond
  exact hserved served hmem p hp

/--
In every run in which each packet has a flit and the arbitration unit can tell
the pairs apart, each cycle is a valid one, ports are used again only after the
flits of the packets that used them, and between two cycles in which a pair is
overtaken by the same other it is served.
-/
theorem crossbar_matching (S : Surroundings P V Header Rest) {r : Router P V Header Rest}
    (hr : r.IsInitial) (hfits : r.arb.Fits)
    {ops : List (Op P V Header Rest)}
    (hsized : ∀ op ∈ ops, op.Sized) :
    (∀ pre, pre <+: ops → ValidCycle S (r.run S pre)) ∧
      (moveLog S r ops).Pairwise AfterFlits ∧
      ∀ pre mid post q p, ops = pre ++ .tick :: (mid ++ .tick :: post) →
        OvertakesNext S (r.run S pre) q p →
        OvertakesNext S (r.run S (pre ++ .tick :: mid)) q p →
        ∃ b ∈ moveLog S (r.run S (pre ++ [.tick])) mid, (b.2.in_port, b.2.vc) = p := by
  refine ⟨fun pre hpre => ?_, pairwise_moveLog (hr.sane hfits) hsized,
    fun pre mid post q p hops hfirst hsecond => ?_⟩
  · exact ((hr.sane hfits).run fun op hop => hsized op (hpre.subset hop)).validCycle
  · subst hops
    have hpre : (r.run S pre).Sane :=
      (hr.sane hfits).run fun op hop => hsized op (mem_append_left _ hop)
    have hmid : ∀ op ∈ mid, op.Sized := fun op hop => hsized op (by simp [hop])
    have hrun : ∀ ops', r.run S (pre ++ ops') = (r.run S pre).run S ops' := fun ops' => foldl_append
    rw [hrun] at hsecond
    rw [hrun]
    exact served_between_overtakings hpre hmid hfirst hsecond

theorem crossbar_matching_two_vcs :
    (∀ pre, pre <+: [Op.receive 0 (oneFlit 0), .receive 0 (oneFlit 1), .tick, .tick] →
        ValidCycle (routed 2 2)
          ((emptyRouter 2 2 (.lru (xbar_arb_lru.setPorts 2 2))).run (routed 2 2) pre)) ∧
      (moveLog (routed 2 2) (emptyRouter 2 2 (.lru (xbar_arb_lru.setPorts 2 2)))
        [Op.receive 0 (oneFlit 0), .receive 0 (oneFlit 1), .tick, .tick]).Pairwise
          AfterFlits := by
  have hsized : ∀ op ∈ [Op.receive 0 (oneFlit 0), .receive 0 (oneFlit 1), .tick, .tick],
      (op : Op 2 2 Unit Unit).Sized := by
    simp [Op.Sized, oneFlit]
  obtain ⟨hcycles, hpairwise, -⟩ :=
    crossbar_matching (routed 2 2) (isInitial_emptyRouter (.inl rfl))
      ⟨by decide, by decide, by decide⟩ hsized
  exact ⟨hcycles, hpairwise⟩

/-- Packets without flits leave their output port free for others in the cycle. -/
theorem not_validCycle_no_flits :
    ∃ r : Router 3 1 Unit Unit, r.IsInitial ∧
      ¬ ValidCycle (routed 3 1) (r.run (routed 3 1)
        [.receive 0 ⟨2, 0, 0, 0, ()⟩, .receive 1 ⟨2, 0, 0, 0, ()⟩]) :=
  ⟨emptyRouter 3 1 (.lru (xbar_arb_lru.setPorts 3 1)), isInitial_emptyRouter (.inl rfl),
    fun h => absurd h.1.out_ports (by decide)⟩

end Runs

end SstElements.Merlin.Crossbar
