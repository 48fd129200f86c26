import SstElements.Merlin.CrossbarMatching

/-!
# The crossbar leaves nothing that could be moved

The matching of a cycle is maximal under both arbitration units: a packet that
stays in its buffer with free ports and room competes with one that is moved.
-/

namespace SstElements.Merlin.Crossbar

open List Option

variable {P V : Nat} {Header Rest : Type}

section RoundRobin

variable {view : PortView P V Header} {in_port_busy out_port_busy : Fin P → Nat}
variable {s : RrScan P V} {port : Fin P} {x : Fin P × Fin V} {ev : RouterEvent P V Header}

theorem not_accepts_of_findVc (h : xbar_arb_rr.findVc view s port = none) {vc : Fin V}
    (hhead : view.vc_heads port vc = some ev) : view.accepts s.toScan ev = false := by
  have hnone := findSome?_eq_none_iff.mp h vc (mem_rotate.mpr (mem_finRange vc))
  simpa [hhead] using hnone

variable (h : s.toScan.Sound view in_port_busy out_port_busy)
variable (hmov : view.Movable in_port_busy out_port_busy x ev)
include h hmov

theorem rr_visit_competes (hnot : ∀ v, s.toScan.serves (x.1, v) = false) :
    ∃ q, (xbar_arb_rr.visit view s x.1).toScan.serves q = true ∧ view.Compete q x ev := by
  obtain ⟨hserves, hsound⟩ := h.mark (m := .idle) hnot fun _ => nofun
  unfold xbar_arb_rr.visit
  dsimp only
  split
  · rename_i hbusy
    exact hsound.competes_in hbusy.ne' hmov
  · split
    · rename_i hfind
      exact hsound.competes_out (not_accepts_of_findVc hfind hmov.1) hmov
    · rename_i vc src_event _
      exact ⟨(x.1, vc), by simp [Scan.serves, Scan.grant], .inl rfl⟩

theorem rr_foldl_competes {l : List (Fin P)} (hsized : view.Sized) (hnodup : l.Nodup)
    (hnot : ∀ i ∈ l, ∀ v, s.toScan.serves (i, v) = false)
    (hrest : x.1 ∉ l → ∃ q, s.toScan.serves q = true ∧ view.Compete q x ev) :
    ∃ q, (l.foldl (xbar_arb_rr.visit view) s).toScan.serves q = true ∧ view.Compete q x ev := by
  induction l generalizing s with
  | nil => exact hrest not_mem_nil
  | cons port l ih =>
    obtain ⟨hport, hnodup⟩ := nodup_cons.mp hnodup
    obtain ⟨hnow, hlater⟩ := forall_mem_cons.mp hnot
    obtain ⟨hsound, hsame⟩ := rr_visit_sound h hsized hnow
    refine ih hsound hnodup (fun i hi v => ?_) fun hx => ?_
    · rw [hsame (i, v) fun heq => hport (heq ▸ hi), hlater i hi v]
    · by_cases hvisit : x.1 = port
      · subst hvisit
        exact rr_visit_competes h hmov hnow
      · obtain ⟨q, hq, hcompete⟩ := hrest (not_mem_cons_of_ne_of_not_mem hvisit hx)
        -- what is served already is at a port that was visited before
        have hne : q.1 ≠ port := by
          rintro rfl
          exact absurd ((hnow q.2).symm.trans hq) Bool.false_ne_true
        exact ⟨q, (hsame q hne).trans hq, hcompete⟩

end RoundRobin

variable {S : Surroundings P V Header Rest} {r : Router P V Header Rest}
variable {x : Fin P × Fin V} {ev : RouterEvent P V Header}

theorem Router.Sane.competes (h : r.Sane)
    (hmov : r.ports.view.Movable r.in_port_busy r.out_port_busy x ev) :
    ∃ m ∈ (r.step S .tick).2, r.ports.view.Compete (m.in_port, m.vc) x ev := by
  suffices hserved : ∃ q, servedBy (r.step S .tick).2 q = true ∧ r.ports.view.Compete q x ev by
    obtain ⟨q, hq, hcompete⟩ := hserved
    obtain ⟨m, hm, rfl⟩ := List.mem_map.mp (of_decide_eq_true hq)
    exact ⟨m, hm, hcompete⟩
  cases harb : r.arb with
  | lru l =>
    cases hx : servedBy (r.step S .tick).2 x with
    | true => exact ⟨x, hx, .inl rfl⟩
    | false =>
      obtain ⟨q, hq, hcompete⟩ := h.validCycle.2.waits l x ev harb hmov hx
      exact ⟨q, hq.2.1, hcompete⟩
  | rr rr_vcs rr_port =>
    have hdata : r.ports.vcs_with_data ≠ 0 := fun hzero => by
      cases hmov.1.symm.trans (h.counted.view_isEmpty hzero x.1 x.2)
    have hon : r.requestNotifyOnEvent = false :=
      Bool.eq_false_of_not_eq_true fun hoff => hdata (h.off_clock hoff)
    rw [step_tick_data hon hdata, Router.stepClocked, servedBy_arbitrateAndMove h, harb]
    exact rr_foldl_competes .start hmov h.sized.view (nodup_rotate.mpr (nodup_finRange P))
      (fun i _ v => by simp [Scan.serves, Scan.start])
      fun hx => absurd (mem_rotate.mpr (mem_finRange x.1)) hx

/--
Whatever has happened to a router, a packet with free ports and room for it is
moved in the next cycle, or one that wants a port of it is.
-/
theorem movable_competes (S : Surroundings P V Header Rest) {r : Router P V Header Rest}
    (hr : r.IsInitial) (hfits : r.arb.Fits) {ops : List (Op P V Header Rest)}
    (hsized : ∀ op ∈ ops, op.Sized)
    (hmov : (r.run S ops).ports.view.Movable (r.run S ops).in_port_busy
      (r.run S ops).out_port_busy x ev) :
    ∃ m ∈ ((r.run S ops).step S .tick).2,
      (r.run S ops).ports.view.Compete (m.in_port, m.vc) x ev :=
  ((hr.sane hfits).run hsized).competes hmov

theorem movable_competes_two_vcs :
    ∃ m ∈ (((emptyRouter 2 2 (.rr (fun _ => 0) 0)).run (routed 2 2)
        [.receive 0 (oneFlit 0), .receive 0 (oneFlit 1)]).step (routed 2 2) .tick).2,
      PortView.Compete (Router.ports ((emptyRouter 2 2 (.rr (fun _ => 0) 0)).run (routed 2 2)
        [.receive 0 (oneFlit 0), .receive 0 (oneFlit 1)])).view (m.in_port, m.vc) (0, 1)
          (oneFlit 1) :=
  movable_competes (routed 2 2) (isInitial_emptyRouter (.inr rfl)) trivial
    (by simp [Op.Sized, oneFlit]) ⟨rfl, rfl, rfl, rfl⟩

end SstElements.Merlin.Crossbar
