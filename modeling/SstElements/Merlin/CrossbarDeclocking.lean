import SstElements.Library.Transition
import SstElements.Merlin.Crossbar

/-!
# Routers off the clock

Without data a cycle only counts down the busy ports and turns the arbitration
unit.  A router that is off the clock makes up for this when it is woken, but
for the VCs that are first in turn in the round-robin unit.
-/

namespace SstElements.Merlin.Crossbar

open Library Function List Nat Finset

variable {P V : Nat} {Header Rest : Type}

section NoData

def PortView.IsEmpty (view : PortView P V Header) : Prop := ∀ port vc, view.vc_heads port vc = none

/-- What a cycle without data does to the arbitration unit. -/
def Arbiter.turn (in_port_busy : Fin P → Nat) : Arbiter P V → Arbiter P V
  | .lru cur_list => .lru cur_list
  | .rr rr_vcs rr_port =>
    .rr (fun i => if in_port_busy i = 0 then (rr_vcs i + 1) % V else rr_vcs i)
      ((rr_port + 1) % P)

variable {view : PortView P V Header}

theorem lru_foldl_empty (hempty : view.IsEmpty) (l : List (Fin P × Fin V)) (s : LruScan P V) :
    l.foldl (xbar_arb_lru.visit view) s = { s with unsat_list := s.unsat_list ++ l } := by
  induction l generalizing s with
  | nil => simp
  | cons check l ih =>
    rw [foldl_cons, ih, xbar_arb_lru.visit, hempty]
    simp

theorem findVc_empty (hempty : view.IsEmpty) (s : RrScan P V) (port : Fin P) :
    xbar_arb_rr.findVc view s port = none := by
  rw [xbar_arb_rr.findVc, findSome?_eq_none_iff]
  intro vc _
  rw [hempty, Option.bind_none]

theorem rr_foldl_empty (hempty : view.IsEmpty) (l : List (Fin P)) (hl : l.Nodup) (s : RrScan P V)
    (hidle : ∀ i, s.progress_vc i = .idle) :
    l.foldl (xbar_arb_rr.visit view) s = { s with
        rr_vcs := fun i =>
          if i ∈ l ∧ s.in_port_busy i = 0 then (s.rr_vcs i + 1) % V else s.rr_vcs i } := by
  induction l generalizing s with
  | nil => simp
  | cons port l ih =>
    obtain ⟨hport, hl⟩ := nodup_cons.mp hl
    have hsame : update s.progress_vc port .idle = s.progress_vc := by
      rw [← hidle port, update_eq_self]
    rw [foldl_cons]
    by_cases hbusy : 0 < s.in_port_busy port
    · have hvisit : xbar_arb_rr.visit view s port = s := by
        simp only [xbar_arb_rr.visit, hsame, if_pos hbusy]
      rw [hvisit, ih hl s hidle]
      congr 1
      funext i
      by_cases hi : i = port
      · subst hi
        simp [hport, Nat.pos_iff_ne_zero.mp hbusy]
      · simp [hi]
    · have hvisit : xbar_arb_rr.visit view s port =
          { s with rr_vcs := update s.rr_vcs port ((s.rr_vcs port + 1) % V) } := by
        simp only [xbar_arb_rr.visit, hsame, if_neg hbusy, findVc_empty hempty]
      rw [hvisit, ih hl ⟨s.toScan, update s.rr_vcs port ((s.rr_vcs port + 1) % V)⟩ hidle]
      congr 1
      funext i
      by_cases hi : i = port
      · subst hi
        simp [hport, Nat.eq_zero_of_not_pos hbusy]
      · simp [hi]

theorem arbitrate_empty (hempty : view.IsEmpty) (arb : Arbiter P V)
    (in_port_busy out_port_busy : Fin P → Nat) :
    arb.arbitrate view in_port_busy out_port_busy =
      (arb.turn in_port_busy, .start in_port_busy out_port_busy) := by
  cases arb with
  | lru cur_list =>
    simp only [Arbiter.arbitrate, xbar_arb_lru.arbitrate, lru_foldl_empty hempty]
    simp [Arbiter.turn]
  | rr rr_vcs rr_port =>
    have hnodup : ((List.finRange P).rotate rr_port).Nodup := nodup_rotate.mpr (nodup_finRange P)
    simp only [Arbiter.arbitrate, xbar_arb_rr.arbitrate]
    rw [rr_foldl_empty hempty _ hnodup _ (fun _ => rfl)]
    simp [Arbiter.turn, Scan.start]

end NoData

variable {m : Ports P V Header Rest × List (Move P V Header)} {progress_vcs : Fin P → Progress V}

section Counts

/-- The VCs with data, over all ports. -/
def busyVcs (ps : Ports P V Header Rest) : Finset (Fin P × Fin V) :=
  univ.filter (fun x => (ps.input_buf x.1 x.2).isEmpty = false)

/-- The counter of the router is the number of VCs with data. -/
def Counted (ps : Ports P V Header Rest) : Prop := ps.vcs_with_data = (busyVcs ps).card

variable {S : Surroundings P V Header Rest} {ps : Ports P V Header Rest}
variable {port : Fin P} {vc : Fin V}
variable {i : Fin P} {ps' : Ports P V Header Rest}

@[simp]
theorem setBuf_apply {α : Type} {buf : Fin P → Fin V → α} {q : α} {j : Fin V} :
    setBuf buf port vc q i j = if i = port ∧ j = vc then q else buf i j := by
  unfold setBuf
  by_cases hi : i = port
  · subst hi
    by_cases hj : j = vc
    · subst hj
      simp
    · simp [hj]
  · simp [hi]

theorem mem_busyVcs {x : Fin P × Fin V} :
    x ∈ busyVcs ps ↔ (ps.input_buf x.1 x.2).isEmpty = false := by
  simp [busyVcs]

theorem Counted.view_isEmpty (h : Counted ps) (hzero : ps.vcs_with_data = 0) : ps.view.IsEmpty := by
  intro port vc
  have hcard : (busyVcs ps).card = 0 := by rw [← h, hzero]
  have hnot : (port, vc) ∉ busyVcs ps := by
    rw [card_eq_zero.mp hcard]
    exact notMem_empty _
  rw [mem_busyVcs, Bool.not_eq_false, List.isEmpty_iff] at hnot
  simp [Ports.view, hnot]

theorem routeHead_isEmpty (i : Fin P) (j : Fin V) :
    ((ps.routeHead S port vc).input_buf i j).isEmpty = (ps.input_buf i j).isEmpty := by
  unfold Ports.routeHead
  split
  · rfl
  · rename_i ev q hbuf
    simp only [setBuf_apply]
    split
    · rename_i hij
      rw [hij.1, hij.2, hbuf]
      rfl
    · rfl

theorem routeHead_vcs_with_data : (ps.routeHead S port vc).vcs_with_data = ps.vcs_with_data := by
  unfold Ports.routeHead
  split <;> rfl

theorem counted_of_insert {ps' : Ports P V Header Rest} (h : Counted ps)
    (hempty : (ps.input_buf port vc).isEmpty = true)
    (hbuf : ∀ i j, (ps'.input_buf i j).isEmpty =
      if i = port ∧ j = vc then false else (ps.input_buf i j).isEmpty)
    (hcount : ps'.vcs_with_data = ps.vcs_with_data + 1) :
    Counted ps' := by
  have hset : busyVcs ps' = insert (port, vc) (busyVcs ps) := by
    ext ⟨i, j⟩
    simp only [mem_busyVcs, mem_insert, hbuf, Prod.mk.injEq]
    split <;> simp_all
  have hnot : (port, vc) ∉ busyVcs ps := by simp [mem_busyVcs, hempty]
  rw [Counted, hset, card_insert_of_notMem hnot, hcount, h]

theorem counted_of_erase (h : Counted ps) (hdata : (ps.input_buf port vc).isEmpty = false)
    (hbuf : ∀ i j, (ps'.input_buf i j).isEmpty =
      if i = port ∧ j = vc then true else (ps.input_buf i j).isEmpty)
    (hcount : ps'.vcs_with_data = ps.vcs_with_data - 1) :
    Counted ps' := by
  have hset : busyVcs ps' = (busyVcs ps).erase (port, vc) := by
    ext ⟨i, j⟩
    simp only [mem_busyVcs, mem_erase, hbuf, ne_eq, Prod.mk.injEq]
    split <;> simp_all
  rw [Counted, hset, card_erase_of_mem (mem_busyVcs.mpr hdata), hcount, h]

theorem counted_of_same (h : Counted ps)
    (hbuf : ∀ i j, (ps'.input_buf i j).isEmpty = (ps.input_buf i j).isEmpty)
    (hcount : ps'.vcs_with_data = ps.vcs_with_data) :
    Counted ps' := by
  have hset : busyVcs ps' = busyVcs ps := by
    ext x
    rw [mem_busyVcs, mem_busyVcs, hbuf]
  rw [Counted, hset, hcount, h]

theorem counted_recv (h : Counted ps) : Counted (ps.recv S port vc).1 := by
  unfold Ports.recv
  split
  · exact h
  · rename_i event q hbuf
    have hdata : (ps.input_buf port vc).isEmpty = false := by rw [hbuf]; rfl
    split
    · rename_i hq
      refine counted_of_erase h hdata (fun i j => ?_) rfl
      simp only [setBuf_apply]
      split
      · exact hq
      · rfl
    · rename_i hq
      refine counted_of_same h (fun i j => ?_) ?_
      · rw [routeHead_isEmpty]
        simp only [setBuf_apply]
        split
        · rename_i hij
          rw [hij.1, hij.2, hdata]
          simpa using hq
        · rfl
      · exact routeHead_vcs_with_data

theorem counted_handle_input {ev : RouterEvent P V Header} (h : Counted ps) :
    Counted (ps.handle_input S port ev) := by
  unfold Ports.handle_input
  split
  · rename_i hempty
    refine @counted_of_insert P V Header Rest ps port ev.vc _ h hempty (fun i j => ?_) rfl
    rw [routeHead_isEmpty]
    simp only [setBuf_apply]
    split
    · simp
    · rfl
  · rename_i hdata
    refine counted_of_same h (fun i j => ?_) rfl
    simp only [setBuf_apply]
    split
    · rename_i hij
      rw [hij.1, hij.2, Bool.eq_false_of_not_eq_true hdata]
      simp
    · rfl

theorem counted_handle_output {link : Rest → Rest} (h : Counted ps) :
    Counted (ps.handle_output port vc link) := by
  unfold Ports.handle_output
  split <;> exact counted_of_same h (fun _ _ => rfl) rfl

theorem counted_movePort (h : Counted m.1) :
    Counted (movePort S progress_vcs m i).1 := by
  unfold movePort
  split
  · rename_i v _
    have hrecv := @counted_recv P V Header Rest S m.1 i v h
    split
    · rename_i ps heq
      rw [heq] at hrecv
      exact hrecv
    · rename_i ps ev heq
      rw [heq] at hrecv
      exact counted_of_same hrecv (fun _ _ => rfl) rfl
  · exact h

end Counts

section Simulation

variable {S : Surroundings P V Header Rest}

/-- The state of the arbitration unit after a number of cycles without data. -/
def Arbiter.turnFor : Nat → (Fin P → Nat) → Arbiter P V → Arbiter P V
  | 0, _, arb => arb
  | n + 1, in_port_busy, arb =>
    (turnFor n in_port_busy arb).turn (fun i => in_port_busy i - n)

/-- The VCs that are first in turn are VCs. -/
def Arbiter.InRange : Arbiter P V → Prop
  | .lru _ => True
  | .rr rr_vcs _ => V = 0 ∨ ∀ i, rr_vcs i < V

/-- The skipped cycles in which a port was not busy are a round of its VCs. -/
def Arbiter.SkipsInPhase (cycles : Nat) (in_port_busy : Fin P → Nat) : Arbiter P V → Prop
  | .lru _ => True
  | .rr _ _ => ∀ i, V ∣ cycles - in_port_busy i

instance instDecidableSkipsInPhase (cycles : Nat) (in_port_busy : Fin P → Nat) :
    ∀ arb : Arbiter P V, Decidable (arb.SkipsInPhase cycles in_port_busy)
  | .lru _ => inferInstanceAs (Decidable True)
  | .rr _ _ => inferInstanceAs (Decidable (∀ _, _))

theorem turnFor_lru (n : Nat) (in_port_busy : Fin P → Nat) (l : List (Fin P × Fin V)) :
    (Arbiter.lru l).turnFor n in_port_busy = .lru l := by
  induction n with
  | zero => rfl
  | succ n ih => rw [Arbiter.turnFor, ih, Arbiter.turn]

theorem turnFor_rr (n : Nat) (in_port_busy : Fin P → Nat) (rr_vcs : Fin P → Nat) (rr_port : Nat) :
    ∃ rr_vcs' rr_port', (Arbiter.rr rr_vcs rr_port : Arbiter P V).turnFor n in_port_busy =
        .rr rr_vcs' rr_port' ∧ (∀ i, rr_vcs' i =
        if n ≤ in_port_busy i then rr_vcs i else (rr_vcs i + (n - in_port_busy i)) % V) ∧
      (0 < n → rr_port' = (rr_port + n) % P) := by
  induction n with
  | zero => exact ⟨rr_vcs, rr_port, rfl, by simp, by simp⟩
  | succ n ih =>
    obtain ⟨rr_vcs', rr_port', heq, hvcs, hport⟩ := ih
    refine ⟨_, _, by rw [Arbiter.turnFor, heq, Arbiter.turn], fun i => ?_, fun _ => ?_⟩
    · rw [hvcs]
      by_cases hle : n ≤ in_port_busy i
      · rw [if_pos hle]
        by_cases hn : n = in_port_busy i
        · rw [if_pos (by omega), if_neg (by omega), ← hn]
          congr 2
          omega
        · rw [if_neg (by omega), if_pos (by omega)]
      · rw [if_neg hle, if_pos (by omega), if_neg (by omega), mod_add_mod]
        congr 1
        omega
    · cases n with
      | zero =>
        have hrr : rr_port' = rr_port := by
          injection heq with _ h
          exact h.symm
        rw [hrr]
      | succ n =>
        rw [hport (succ_pos n), mod_add_mod]
        congr 1

variable {arb : Arbiter P V} {d : Router P V Header Rest} {port : Fin P}
variable {ev : RouterEvent P V Header}

theorem reportSkippedCycles_eq_turnFor {n : Nat} {in_port_busy : Fin P → Nat} (hn : 0 < n)
    (hrange : arb.InRange) (hphase : arb.SkipsInPhase n in_port_busy) :
    arb.reportSkippedCycles n = arb.turnFor n in_port_busy := by
  cases arb with
  | lru l => rw [turnFor_lru, Arbiter.reportSkippedCycles]
  | rr rr_vcs rr_port =>
    obtain ⟨rr_vcs', rr_port', heq, hvcs, hport⟩ := @turnFor_rr P V n in_port_busy rr_vcs rr_port
    rw [heq, Arbiter.reportSkippedCycles, hport hn]
    congr 1
    funext i
    rw [hvcs]
    split
    · rfl
    · rename_i hlt
      have hdvd := hphase i
      rcases hrange with hzero | hrange
      · rw [hzero, Nat.zero_dvd] at hdvd
        omega
      · obtain ⟨k, hk⟩ := hdvd
        rw [hk, add_mul_mod_self_left, mod_eq_of_lt (hrange i)]

theorem arbitrateAndMove_empty {r : Router P V Header Rest} (hempty : r.ports.view.IsEmpty) :
    r.arbitrateAndMove S = ({ r with
         arb := r.arb.turn r.in_port_busy
         in_port_busy := fun i => r.in_port_busy i - 1
         out_port_busy := fun i => r.out_port_busy i - 1 }, []) := by
  have hmove : ∀ l : List (Fin P), l.foldl
      (movePort S (fun _ => (Progress.idle : Progress V))) (r.ports, []) = (r.ports, []) := by
    intro l
    induction l with
    | nil => rfl
    | cons i l ih => exact ih
  simp only [Router.arbitrateAndMove, arbitrate_empty hempty, Scan.start, hmove]

theorem InRange.arbitrate {view : PortView P V Header} (h : arb.InRange)
    (in_port_busy out_port_busy : Fin P → Nat) :
    (arb.arbitrate view in_port_busy out_port_busy).1.InRange := by
  cases arb with
  | lru l => trivial
  | rr rr_vcs rr_port =>
    rcases h with h | h
    · exact .inl h
    · refine .inr ?_
      have hfold : ∀ (l : List (Fin P)) (s : RrScan P V), (∀ i, s.rr_vcs i < V) →
          ∀ i, (l.foldl (xbar_arb_rr.visit view) s).rr_vcs i < V := by
        intro l
        induction l with
        | nil => exact fun s hs => hs
        | cons port l ih =>
          intro s hs
          refine ih _ fun i => ?_
          have hturn : ∀ i, update s.rr_vcs port
              ((s.rr_vcs port + 1) % V) i < V := by
            intro i
            by_cases hi : i = port
            · rw [hi, update_self]
              exact mod_lt _ (zero_lt_of_lt (hs port))
            · rw [update_of_ne hi]
              exact hs i
          unfold xbar_arb_rr.visit
          dsimp only
          split
          · exact hs i
          · split <;> exact hturn i
      exact hfold _ _ h

theorem InRange.reportSkippedCycles (h : arb.InRange) (cycles : Nat) :
    (arb.reportSkippedCycles cycles).InRange := by
  cases arb <;> exact h

/-- The clocked router goes through the cycles that the other one skips. -/
structure Follows (d c : Router P V Header Rest) : Prop where
  ports_eq : c.ports = d.ports
  cycle_eq : c.cycle = d.cycle
  counted : Counted d.ports
  in_range : d.arb.InRange
  on_clock : d.requestNotifyOnEvent = false →
    c.arb = d.arb ∧ c.in_port_busy = d.in_port_busy ∧ c.out_port_busy = d.out_port_busy
  off_clock : d.requestNotifyOnEvent = true →
    d.ports.vcs_with_data = 0 ∧ d.unclocked_cycle < d.cycle ∧
    c.arb = d.arb.turnFor (d.cycle - d.unclocked_cycle) d.in_port_busy ∧
    (∀ i, c.in_port_busy i = d.in_port_busy i - (d.cycle - d.unclocked_cycle)) ∧
    (∀ i, c.out_port_busy i = d.out_port_busy i - (d.cycle - d.unclocked_cycle))

/-- A packet that wakes the router comes when the skipped cycles are in phase. -/
def InPhase (r : Router P V Header Rest) : Op P V Header Rest → Prop
  | .receive _ _ => r.requestNotifyOnEvent = true →
      r.arb.SkipsInPhase (r.cycle - r.unclocked_cycle) r.in_port_busy
  | _ => True

instance instDecidableInPhase (r : Router P V Header Rest) :
    ∀ op : Op P V Header Rest, Decidable (InPhase r op)
  | .receive _ _ => inferInstanceAs (Decidable (_ → _))
  | .tick | .depart _ _ _ | .link _ => inferInstanceAs (Decidable True)

theorem counted_foldl_movePort (l : List (Fin P)) (h : Counted m.1) :
    Counted (l.foldl (movePort S progress_vcs) m).1 := by
  induction l generalizing m with
  | nil => exact h
  | cons i l ih => exact ih (counted_movePort h)

theorem Follows.clocked {c : Router P V Header Rest} (h : Follows d c)
    (hon : d.requestNotifyOnEvent = false) :
    Follows (d.stepClocked S .tick).1 (c.stepClocked S .tick).1 ∧
      (d.stepClocked S .tick).2 = (c.stepClocked S .tick).2 := by
  obtain ⟨harb, hin, hout⟩ := h.on_clock hon
  simp only [Router.stepClocked, Router.arbitrateAndMove, harb, hin, hout, h.ports_eq]
  refine ⟨⟨rfl, congrArg (· + 1) h.cycle_eq, counted_foldl_movePort _ h.counted,
    InRange.arbitrate h.in_range _ _, fun _ => ⟨rfl, rfl, rfl⟩, fun hoff => ?_⟩, trivial⟩
  rw [show d.requestNotifyOnEvent = true from hoff] at hon
  cases hon

theorem Follows.skipped {d d' c : Router P V Header Rest} (h : Follows d c)
    (hzero : d.ports.vcs_with_data = 0) (harb : d'.arb = d.arb)
    (hin : d'.in_port_busy = d.in_port_busy) (hout : d'.out_port_busy = d.out_port_busy)
    (hports : d'.ports = d.ports) (hcycle : d'.cycle = d.cycle + 1)
    (hoff : d'.requestNotifyOnEvent = true)
    (hsince : d.requestNotifyOnEvent = true → d'.unclocked_cycle = d.unclocked_cycle)
    (hstart : d.requestNotifyOnEvent = false → d'.unclocked_cycle = d.cycle) :
    Follows d' (c.stepClocked S .tick).1 ∧ (c.stepClocked S .tick).2 = [] := by
  have hempty : c.ports.view.IsEmpty := h.ports_eq ▸ h.counted.view_isEmpty hzero
  simp only [Router.stepClocked, arbitrateAndMove_empty hempty]
  refine ⟨⟨h.ports_eq.trans hports.symm, ?_, hports ▸ h.counted, harb ▸ h.in_range,
    fun hon => ?_, fun _ => ⟨hports ▸ hzero, ?_⟩⟩, trivial⟩
  · rw [hcycle, ← h.cycle_eq]
  · rw [hoff] at hon
    cases hon
  · rw [harb, hin, hout, hcycle]
    cases hon : d.requestNotifyOnEvent with
    | false =>
      obtain ⟨harb', hin', hout'⟩ := h.on_clock hon
      have hone : d.cycle + 1 - d'.unclocked_cycle = 1 := by
        rw [hstart hon]
        omega
      rw [hone]
      refine ⟨by rw [hstart hon]; omega, ?_, fun i => ?_, fun i => ?_⟩
      · rw [harb', hin']
        rfl
      · rw [hin']
      · rw [hout']
    | true =>
      obtain ⟨-, hlt, harb', hin', hout'⟩ := h.off_clock hon
      have hcount : d.cycle + 1 - d'.unclocked_cycle =
          d.cycle - d.unclocked_cycle + 1 := by
        rw [hsince hon]
        omega
      rw [hcount]
      refine ⟨by rw [hsince hon]; omega, ?_, fun i => ?_, fun i => ?_⟩
      · rw [Arbiter.turnFor, ← harb', funext hin']
      · dsimp only
        rw [hin']
        omega
      · dsimp only
        rw [hout']
        omega

theorem step_tick_unclocked (hoff : d.requestNotifyOnEvent = true) :
    d.step S .tick = ({ d with cycle := d.cycle + 1 }, []) := by
  simp only [Router.step, if_pos hoff]

theorem step_tick_no_data (hon : d.requestNotifyOnEvent = false)
    (hzero : d.ports.vcs_with_data = 0) :
    d.step S .tick = ({ d with
         requestNotifyOnEvent := true
         unclocked_cycle := d.cycle
         cycle := d.cycle + 1 }, []) := by
  have hon' : ¬ d.requestNotifyOnEvent = true := by simp [hon]
  simp only [Router.step, if_neg hon', Router.clock_handler, if_pos hzero]

theorem step_tick_data (hon : d.requestNotifyOnEvent = false) (hdata : d.ports.vcs_with_data ≠ 0) :
    d.step S .tick = d.stepClocked S .tick := by
  have hon' : ¬ d.requestNotifyOnEvent = true := by simp [hon]
  simp only [Router.step, if_neg hon', Router.clock_handler, if_neg hdata, Router.stepClocked]

theorem step_receive_unclocked (hoff : d.requestNotifyOnEvent = true) :
    d.step S (.receive port ev) =
      (({ d with ports := d.ports.handle_input S port ev } : Router P V Header Rest).notifyEvent,
        []) := by
  simp only [Router.step, if_pos hoff]

theorem step_receive_clocked (hon : d.requestNotifyOnEvent = false) :
    d.step S (.receive port ev) = ({ d with ports := d.ports.handle_input S port ev }, []) := by
  have hon' : ¬ d.requestNotifyOnEvent = true := by simp [hon]
  simp only [Router.step, if_neg hon']

theorem Follows.step {d c : Router P V Header Rest} {op : Op P V Header Rest} (h : Follows d c)
    (hphase : InPhase d op) :
    Follows (d.step S op).1 (c.stepClocked S op).1 ∧ (d.step S op).2 = (c.stepClocked S op).2 := by
  cases op with
  | tick =>
    cases hon : d.requestNotifyOnEvent with
    | true =>
      rw [step_tick_unclocked hon]
      obtain ⟨hfollows, hmoves⟩ := @Follows.skipped P V Header Rest S d
        { d with cycle := d.cycle + 1 } c h (h.off_clock hon).1 rfl rfl rfl rfl rfl hon
        (fun _ => rfl) (fun hoff => Bool.noConfusion (hon.symm.trans hoff))
      exact ⟨hfollows, hmoves.symm⟩
    | false =>
      by_cases hzero : d.ports.vcs_with_data = 0
      · rw [step_tick_no_data hon hzero]
        obtain ⟨hfollows, hmoves⟩ := @Follows.skipped P V Header Rest S d
          { d with
            requestNotifyOnEvent := true
            unclocked_cycle := d.cycle
            cycle := d.cycle + 1 } c h hzero rfl rfl rfl rfl rfl rfl
          (fun hoff => Bool.noConfusion (hon.symm.trans hoff)) (fun _ => rfl)
        exact ⟨hfollows, hmoves.symm⟩
      · rw [step_tick_data hon hzero]
        exact h.clocked hon
  | receive port ev =>
    have hcounted := @counted_handle_input P V Header Rest S d.ports port ev h.counted
    have hports : c.ports.handle_input S port ev = d.ports.handle_input S port ev := by
      rw [h.ports_eq]
    cases hon : d.requestNotifyOnEvent with
    | true =>
      rw [step_receive_unclocked hon]
      obtain ⟨-, hlt, harb, hin, hout⟩ := h.off_clock hon
      have hskip := reportSkippedCycles_eq_turnFor (Nat.sub_pos_of_lt hlt) h.in_range
        (hphase hon)
      refine ⟨⟨hports, h.cycle_eq, hcounted, ?_, fun _ => ⟨?_, funext hin, funext hout⟩,
        fun hoff => Bool.noConfusion hoff⟩, rfl⟩
      · exact InRange.reportSkippedCycles h.in_range _
      · exact harb.trans hskip.symm
    | false =>
      rw [step_receive_clocked hon]
      exact ⟨⟨hports, h.cycle_eq, hcounted, h.in_range, h.on_clock,
        fun hoff => Bool.noConfusion (hon.symm.trans hoff)⟩, rfl⟩
  | depart port vc link =>
    have hcounted := @counted_handle_output P V Header Rest d.ports port vc link h.counted
    have hports : c.ports.handle_output port vc link = d.ports.handle_output port vc link := by
      rw [h.ports_eq]
    have hdata : (d.ports.handle_output port vc link).vcs_with_data =
        d.ports.vcs_with_data := by
      unfold Ports.handle_output
      split <;> rfl
    refine ⟨⟨hports, h.cycle_eq, hcounted, h.in_range, h.on_clock, fun hoff => ?_⟩, rfl⟩
    obtain ⟨hzero, hrest⟩ := h.off_clock hoff
    exact ⟨hdata.trans hzero, hrest⟩
  | link link =>
    have hports : ({ c.ports with rest := link c.ports.rest } : Ports P V Header Rest) =
        { d.ports with rest := link d.ports.rest } := by
      rw [h.ports_eq]
    exact ⟨⟨hports, h.cycle_eq, counted_of_same h.counted (fun _ _ => rfl) rfl,
      h.in_range, h.on_clock, h.off_clock⟩, rfl⟩

end Simulation

section Runs

/-- The moves of a run, step by step. -/
def trace
    (step : Router P V Header Rest → Op P V Header Rest →
      Router P V Header Rest × List (Move P V Header)) :
    Router P V Header Rest → List (Op P V Header Rest) → List (List (Move P V Header))
  | _, [] => []
  | r, op :: ops => (step r op).2 :: trace step (step r op).1 ops

variable {S : Surroundings P V Header Rest} {r : Router P V Header Rest}

theorem Follows.trace_eq {d c : Router P V Header Rest} {ops : List (Op P V Header Rest)}
    (h : Follows d c) (hphase : StepsMeet (fun r op => some (r.step S op).1) InPhase d ops) :
    trace (Router.step S) d ops = trace (Router.stepClocked S) c ops := by
  induction ops generalizing d c with
  | nil => rfl
  | cons op ops ih =>
    obtain ⟨hnow, hlater⟩ := hphase
    obtain ⟨hfollows, hmoves⟩ := @Follows.step P V Header Rest S d c op h hnow
    rw [trace, trace, hmoves, ih hfollows (hlater _ rfl)]

theorem Router.IsInitial.follows (h : r.IsInitial) : Follows r r := by
  refine ⟨rfl, rfl, ?_, ?_, fun _ => ⟨rfl, rfl, rfl⟩, fun hoff => ?_⟩
  · have hnone : busyVcs r.ports = ∅ := by
      ext x
      simp [mem_busyVcs, h.input_empty]
    rw [Counted, hnone, h.no_data, card_empty]
  · rcases h.arb_set with harb | harb
    · rw [harb]
      trivial
    · rw [harb]
      cases V with
      | zero => exact .inl rfl
      | succ V => exact .inr fun _ => succ_pos V
  · rw [h.on_clock] at hoff
    cases hoff

/--
A router that leaves the clock makes the moves of a router that is always
clocked, in every run in which packets wake it in phase.
-/
theorem declocking_invisible (S : Surroundings P V Header Rest) {r : Router P V Header Rest}
    (hr : r.IsInitial)
    {ops : List (Op P V Header Rest)}
    (hphase : StepsMeet (fun r op => some (r.step S op).1) InPhase r ops) :
    trace (Router.step S) r ops = trace (Router.stepClocked S) r ops :=
  hr.follows.trace_eq hphase

/-- Packets come with their routes, and nothing else follows from a move. -/
def routed (P V : Nat) : Surroundings P V Unit Unit where
  route_packet := fun _ _ ev => (ev, ())
  returnCredits := fun _ _ _ _ => ()
  wakeOutput := fun _ _ _ _ => ()
  flits_route := fun _ _ _ => rfl

/-- An empty router with room for eight flits in each output buffer. -/
def emptyRouter (P V : Nat) (arb : Arbiter P V) : Router P V Unit Unit where
  arb := arb
  in_port_busy := fun _ => 0
  out_port_busy := fun _ => 0
  ports :=
    { input_buf := fun _ _ => []
      output_buf := fun _ _ => []
      xbar_in_credits := fun _ _ => 8
      vcs_with_data := 0
      rest := () }
  requestNotifyOnEvent := false
  unclocked_cycle := 0
  cycle := 0

theorem isInitial_emptyRouter {arb : Arbiter P V} (h : arb.IsSet) :
    (emptyRouter P V arb).IsInitial :=
  ⟨h, fun _ => rfl, fun _ => rfl, fun _ _ => rfl, fun _ _ => rfl,
    fun _ _ => by simp [emptyRouter], rfl, rfl, rfl⟩

/-- A packet of one flit for the last port of two. -/
def oneFlit (vc : Fin 2) : RouterEvent 2 2 Unit := ⟨1, vc, vc.val, 1, ()⟩

theorem declocking_invisible_two_vcs :
    trace (Router.step (routed 2 2)) (emptyRouter 2 2 (.rr (fun _ => 0) 0))
        [.tick, .tick, .receive 0 (oneFlit 0), .receive 0 (oneFlit 1), .tick, .tick] =
      trace (Router.stepClocked (routed 2 2)) (emptyRouter 2 2 (.rr (fun _ => 0) 0))
        [.tick, .tick, .receive 0 (oneFlit 0), .receive 0 (oneFlit 1), .tick, .tick] :=
  declocking_invisible (routed 2 2) (isInitial_emptyRouter (.inr rfl)) (by decide)

/--
After one cycle off the clock the round-robin unit serves another VC than a
unit that is always clocked.
-/
theorem declocking_visible_two_vcs :
    ∃ r : Router 2 2 Unit Unit, r.IsInitial ∧
      trace (Router.step (routed 2 2)) r
          [.tick, .receive 0 (oneFlit 0), .receive 0 (oneFlit 1), .tick] ≠
        trace (Router.stepClocked (routed 2 2)) r
          [.tick, .receive 0 (oneFlit 0), .receive 0 (oneFlit 1), .tick] :=
  ⟨emptyRouter 2 2 (.rr (fun _ => 0) 0), isInitial_emptyRouter (.inr rfl), by decide⟩

end Runs

end SstElements.Merlin.Crossbar
