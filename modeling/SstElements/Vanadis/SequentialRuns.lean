import SstElements.Vanadis.SequentialRetirement

/-!
# Runs of the core retire the sequential result

After every step the registers that the retire table maps have the values that the
sequential machine has after as many instructions as have retired, as long as the
instructions that retire write all their outputs and a mispredicted branch has one
micro-operation in its delay slot.
-/

namespace SstElements.Vanadis

open Library Function List Option Bool
open VanadisComponent (onlyThread)

universe u v

variable {Op : Type u} {Word : Type v} {hw_threads : Nat} {ins : VanadisInstruction Op}

section Fronts

/-- Where decoding goes on when the instruction retires. -/
def VanadisInstruction.redirect (ins : VanadisInstruction Op) (ip : Nat) : Nat :=
  match ins.speculation with
  | none => ip
  | some s => if ins.mispredicted then s.takenAddress else ip

theorem VanadisInstruction.redirect_of_not_mispredicted {ip : Nat} (h : ins.mispredicted = false) :
    ins.redirect ip = ip := by
  rw [redirect]
  split
  · rfl
  · rw [if_neg (by simp [h])]

theorem VanadisInstruction.redirect_of_mispredicted {ip : Nat} (h : ins.mispredicted = true) :
    ∃ sp, ins.speculation = some sp ∧ ins.redirect ip = sp.takenAddress := by
  cases hsp : ins.speculation with
  | none =>
    rw [mispredicted, hsp] at h
    cases h
  | some sp => exact ⟨sp, rfl, by rw [redirect, hsp]; exact if_pos h⟩

variable [Zero Word]
variable {program : Program Op} {sem : Semantics Op Word} {s s' s'' : Sequential Op Word}
variable {ip : Nat} {file : RegisterKind → Nat → Word}
variable {core : VanadisComponent Op hw_threads} {thr : Fin hw_threads}
variable {front delay : VanadisInstruction Op} {rest : List (VanadisInstruction Op)}

section

variable (h : (core.threads thr).OnWay program sem s ip file) (hsound : core.Sound)
include h hsound

theorem HwThread.OnWay.retireFront (hrob : (core.threads thr).rob = front :: rest)
    (hissued : front.hasIssued = true) (hexecuted : front.hasExecuted = true)
    (hslot : front.hasDelaySlot = false)
    (hwrites : WritesAll (core.threads thr).isa_options sem file front)
    (hs' : s' = s.step (core.threads thr).isa_options program sem) :
    ((core.retireFront thr front rest).threads thr).OnWay program sem s'
      (front.redirect ip) file := by
  unfold VanadisComponent.retireFront
  cases hmiss : front.mispredicted with
  | false =>
    rw [if_neg Bool.false_ne_true, VanadisInstruction.redirect_of_not_mispredicted hmiss]
    exact h.recover hsound hrob hissued hexecuted hwrites hmiss hs'
  | true =>
    obtain ⟨sp, hsp, hredirect⟩ := @VanadisInstruction.redirect_of_mispredicted _ _ ip hmiss
    obtain ⟨hfaithful, -, -, hbranch⟩ := h.retire (hsound thr) hrob hissued hexecuted
      hwrites
      (fun kind => (VanadisComponent.recoverRetiredRegisters_spec hissued kind).2.2) hs'
    -- without delay slots the sequential machine is at the branch target
    have hplain : program.delay_slots = false := by
      rw [← (h.scope front (by simp [hrob])).2.2.2 sp hsp]
      exact hslot
    obtain ⟨hnext, hpending⟩ := hbranch sp hsp
    rw [hplain, if_neg Bool.false_ne_true] at hpending
    rw [if_pos rfl]
    refine HwThread.OnWay.squash rest ?_ hpending (hredirect.trans hnext.symm)
    rw [VanadisComponent.recoverRetiredRegisters_thread.1]
    exact hfaithful

theorem HwThread.OnWay.retireWithDelay (hrob : (core.threads thr).rob = front :: delay :: rest)
    (hissued : front.hasIssued = true) (hexecuted : front.hasExecuted = true)
    (hslot : front.hasDelaySlot = true) (hdone : delay.hasExecuted = true)
    (hwrites : WritesAll (core.threads thr).isa_options sem file front)
    (hwrites' : WritesAll (core.threads thr).isa_options sem file delay)
    (hsingle : front.mispredicted = true → (program.delayBundle front.ins_address).length = 1)
    (hplain : delay.mispredicted = false)
    (hs' : s' = s.step (core.threads thr).isa_options program sem)
    (hs'' : s'' = s'.step (core.threads thr).isa_options program sem) :
    ((core.retireWithDelay thr front delay rest).threads thr).OnWay program sem s''
      (front.redirect ip) file := by
  have hissued' : delay.hasIssued = true := h.faithful.issued delay (by simp [hrob]) hdone
  have hfirst := hsound.recover hrob hissued
  obtain ⟨hoptions, hrest⟩ := @VanadisComponent.recoverRetiredRegisters_thread _ _ core thr
    front (delay :: rest)
  unfold VanadisComponent.retireWithDelay
  cases hmiss : front.mispredicted with
  | false =>
    rw [if_neg Bool.false_ne_true, VanadisInstruction.redirect_of_not_mispredicted hmiss]
    refine (h.recover hsound hrob hissued hexecuted hwrites hmiss hs').recover hfirst hrest
      hissued' hdone ?_ hplain ?_
    · rw [hoptions]
      exact hwrites'
    · rw [hoptions]
      exact hs''
  | true =>
    obtain ⟨sp, hsp, hredirect⟩ := @VanadisInstruction.redirect_of_mispredicted _ _ ip hmiss
    obtain ⟨hfaithful, -, hfetched, hbranch⟩ := h.retire (hsound thr) hrob hissued
      hexecuted hwrites
      (fun kind => (VanadisComponent.recoverRetiredRegisters_spec hissued kind).2.2) hs'
    have hslots : program.delay_slots = true := by
      rw [← (h.scope front (by simp [hrob])).2.2.2 sp hsp]
      exact hslot
    obtain ⟨hnext, hpending⟩ := hbranch sp hsp
    obtain ⟨uop, huop⟩ := length_eq_one_iff.1 (hsingle hmiss)
    rw [hslots, if_pos rfl, huop] at hpending
    -- the micro-operation in the delay slot is not a branch
    have hbranchless : uop.branch = none :=
      h.delay_plain (by simp [hrob]) hsp hslots uop (by simp [huop])
    have hclear := (hfirst thr).clear
    rw [hrest, pairwise_cons] at hclear
    have hset := (hfirst thr).in_set
    have hlen := (hfirst thr).phys_out_length
    rw [hrest, hoptions] at hset
    rw [hrest] at hlen
    obtain ⟨hfaithful', hpending', hnext'⟩ := hfaithful.retire_delay hset hissued' hdone
      (h.scope delay (by simp [hrob])).1 hclear.1 (hlen delay mem_cons_self hissued')
      hwrites'
      (fun kind => (VanadisComponent.recoverRetiredRegisters_spec hissued' kind).2.2)
      hpending hbranchless hfetched hs''
    rw [if_pos rfl]
    refine HwThread.OnWay.squash rest ?_ hpending' ?_
    · rw [VanadisComponent.recoverRetiredRegisters_thread.1, hoptions]
      exact hfaithful'
    · rw [hredirect, hnext', hnext]

end

end Fronts

namespace Machine

variable [Zero Word]
variable (programs : Fin hw_threads → Program Op) (sem : Semantics Op Word)

/-- The registers of the instruction set, by the retire table of the thread. -/
def retired (m : Machine Op Word hw_threads) (thr : Fin hw_threads) : RegisterKind → Nat → Word :=
  mappedReg (m.core.threads thr).isa_options (m.register_files thr)
    fun kind => ((m.core.threads thr).retire_isa_table kind).reg_ptr

/-- The sequential machine that starts where the thread starts. -/
def sequential (m : Machine Op Word hw_threads) (thr : Fin hw_threads) : Sequential Op Word where
  regs := m.retired thr
  pending := []
  next := m.ip thr

/-- The sequential machine after as many instructions as have retired. -/
def sequentialResult
    (m m₀ : Machine Op Word hw_threads) (thr : Fin hw_threads) : Sequential Op Word :=
  Sequential.run (m₀.core.threads thr).isa_options (programs thr) sem (m.ins_retired thr)
    (m₀.sequential thr)

def RetiresSequentially (m₀ m : Machine Op Word hw_threads) : Prop :=
  ∀ thr kind, ∀ reg < (m₀.core.threads thr).isa_options.count_isa_reg kind,
    m.retired thr kind reg =
      getReg (m₀.core.threads thr).isa_options (m.sequentialResult programs sem m₀ thr).regs
        kind reg

/-- The instructions that retire have written all their outputs.  A branch that
retires with its delay slot was predicted correctly or has one micro-operation
there, and what is in the slot is not a mispredicted branch. -/
def RetiresWhole (m : Machine Op Word hw_threads) : MachineOp hw_threads → Prop
  | .retire thr =>
    (∀ ins ∈ retiring (m.core.threads thr).rob,
      WritesAll (m.core.threads thr).isa_options sem (m.register_files thr) ins) ∧
    match retiring (m.core.threads thr).rob with
    | [front, delay] =>
      (front.mispredicted = true → ((programs thr).delayBundle front.ins_address).length = 1) ∧
      delay.mispredicted = false
    | _ => True
  | _ => True

/-- The core is on the way of the sequential machines, thread by thread. -/
structure Simulates (m₀ m : Machine Op Word hw_threads) : Prop where
  consistent : m.core.Consistent
  partitioned : m.core.Partitioned
  bottom : m.core.KeepsBottom
  options : ∀ thr, (m.core.threads thr).isa_options = (m₀.core.threads thr).isa_options
  ignored : ∀ thr, (m₀.core.threads thr).isa_options.reg_ignore_writes = 0
  on_way : ∀ thr, (m.core.threads thr).OnWay (programs thr) sem
    (m.sequentialResult programs sem m₀ thr) (m.ip thr) (m.register_files thr)
  cleared : m.stage = .decode → ∀ thr, (m.core.threads thr).ZeroCleared (m.register_files thr)

variable {programs : Fin hw_threads → Program Op} {sem : Semantics Op Word}
variable {m₀ m m' : Machine Op Word hw_threads} {thr : Fin hw_threads}

theorem Simulates.own (h : Simulates programs sem m₀ m) (thr : Fin hw_threads) :
    OwnRegisters (m.core.threads thr).isa_options (m.core.threads thr).rob
      fun kind => ((m.core.threads thr).retire_isa_table kind).reg_ptr :=
  VanadisComponent.ownRegisters h.partitioned h.bottom (by rw [h.options, h.ignored])

variable {rob : List (VanadisInstruction Op)}

section

variable (h : Simulates programs sem m₀ m)
include h

theorem Simulates.no_syscallRegs (hrob : ∀ ins ∈ rob, ins ∈ (m.core.threads thr).rob)
    (kind : RegisterKind) :
    syscallRegs rob kind = [] := by
  refine flatMap_eq_nil_iff.2 fun ins hins => ?_
  rw [VanadisInstruction.kept, ((h.on_way thr).scope ins (hrob ins hins)).1, Bool.and_false,
    if_neg Bool.false_ne_true]

/-- A step of the core that loses no registers leaves the threads to be looked at. -/
theorem Simulates.of_moved
    (hspec : m'.core.Sound ∧ VanadisComponent.Moved m.core m'.core fun _ => 0)
    (hbottom : m'.core.KeepsBottom)
    (hway : ∀ t, (m'.core.threads t).OnWay (programs t) sem
      (m'.sequentialResult programs sem m₀ t) (m'.ip t) (m'.register_files t))
    (hcleared : m'.stage = .decode →
      ∀ t, (m'.core.threads t).ZeroCleared (m'.register_files t)) :
    Simulates programs sem m₀ m' where
  consistent := ⟨hspec.1, hspec.2.stack_top h.consistent.stack_top⟩
  partitioned := (hspec.2.partitioned_iff h.consistent.stack_top h.partitioned).2 fun _ => rfl
  bottom := hbottom
  options := fun t => (hspec.2.options t).trans (h.options t)
  ignored := h.ignored
  on_way := hway
  cleared := hcleared

theorem Simulates.retiresSequentially : RetiresSequentially programs sem m₀ m := by
  intro thr kind reg hreg
  have hagrees := (h.on_way thr).faithful.agrees kind reg
  rw [h.options] at hagrees
  rw [retired, h.options]
  exact hagrees hreg

theorem Simulates.onWay_update
    (hothers : ∀ t, t ≠ thr → m'.core.threads t = m.core.threads t ∧
      m'.register_files t = m.register_files t ∧ m'.ip t = m.ip t ∧
      m'.ins_retired t = m.ins_retired t)
    (hself : (m'.core.threads thr).OnWay (programs thr) sem
      (m'.sequentialResult programs sem m₀ thr) (m'.ip thr) (m'.register_files thr)) :
    ∀ t, (m'.core.threads t).OnWay (programs t) sem
      (m'.sequentialResult programs sem m₀ t) (m'.ip t) (m'.register_files t) := by
  intro t
  by_cases ht : t = thr
  · subst ht
    exact hself
  · obtain ⟨hthread, hfile, hip, hretired⟩ := hothers t ht
    rw [hthread, hfile, hip, sequentialResult, hretired]
    exact h.on_way t

end

variable {core : VanadisComponent Op hw_threads}

section Cycle

theorem getReg_zeroRegister
    (hlt : (m.core.threads thr).isa_options.reg_ignore_writes <
      (m.core.threads thr).isa_options.count_isa_reg .int)
    (kind : RegisterKind) (phys : Nat) :
    getReg (m.core.threads thr).isa_options (m.zeroRegister thr) kind phys =
      if kind = .int ∧ phys = ((m.core.threads thr).issue_isa_table .int).reg_ptr
          (m.core.threads thr).isa_options.reg_ignore_writes then 0
      else getReg (m.core.threads thr).isa_options (m.register_files thr) kind phys := by
  rw [zeroRegister, if_pos hlt]
  cases kind with
  | fp => rfl
  | int =>
    split
    case isTrue hphys =>
      obtain ⟨-, rfl⟩ := hphys
      rw [getReg, if_pos rfl]
      split
      case isTrue hcounted =>
        rw [setRegs, overwrite_filter hcounted]
        exact update_self _ _ _
      case isFalse => rfl
    case isFalse hphys =>
      refine getReg_setRegs_of_notMem ?_ (if_pos rfl)
      rw [map_singleton, mem_singleton]
      exact fun heq => hphys ⟨rfl, heq⟩

section

variable (h : Simulates programs sem m₀ m)
include h

theorem Simulates.beginCycle : Simulates programs sem m₀ m.beginCycle :=
  { h with
    on_way := fun t => by
      have hway := h.on_way t
      have hsound := h.consistent.sound t
      by_cases hlt : (m.core.threads t).isa_options.reg_ignore_writes <
          (m.core.threads t).isa_options.count_isa_reg .int
      · exact { hway with
          faithful := hway.faithful.clear_zero hsound.in_set
            (fun ins hins => (hway.scope ins hins).1) (h.own t)
            (hsound.map_snd_renamesOf .int) (hsound.replay .int) hlt
            (getReg_zeroRegister hlt) }
      · have hsame : m.zeroRegister t = m.register_files t := if_neg hlt
        change (m.core.threads t).OnWay (programs t) sem (m.sequentialResult programs sem m₀ t)
          (m.ip t) (m.zeroRegister t)
        rw [hsame]
        exact hway
    cleared := fun _ t hlt => Or.inl
      ((@getReg_zeroRegister _ _ _ _ m t hlt .int _).trans (if_pos ⟨rfl, rfl⟩)) }

theorem Simulates.decode {predicted : Nat} (hstep : m.decode programs thr predicted = some m') :
    Simulates programs sem m₀ m' := by
  unfold Machine.decode at hstep
  dsimp only at hstep
  split at hstep
  case isTrue => exact some.inj hstep ▸ h
  case isFalse hhalted =>
    split at hstep
    case isTrue => cases hstep
    case isFalse hne =>
      split at hstep
      case isFalse => exact some.inj hstep ▸ h
      case isTrue hroom =>
        have hgroup : (programs thr).group (m.ip thr) ≠ [] := fun hnil =>
          hne (append_eq_nil_iff.1 hnil).1
        obtain ⟨uops, huops⟩ : ∃ uops, uops = ((programs thr).group (m.ip thr)).map
            (·.setSpeculatedAddress predicted) := ⟨_, rfl⟩
        have hcore : m.core.performDecode thr uops =
            m.core.setRob thr ((m.core.threads thr).rob ++ uops.map MicroOp.clone) := by
          refine if_pos ?_
          rw [huops, length_map, and_eq_true, not_eq_true', decide_eq_true_eq]
          exact ⟨eq_false_iff.2 hhalted, hroom⟩
        have hspec := @VanadisComponent.performDecode_spec _ _ _ thr h.consistent.sound uops
        rw [← huops, hcore] at hstep
        rw [hcore] at hspec
        cases hstep
        refine h.of_moved hspec (h.bottom.setRob (inFlight_append_clones uops)) ?_ ?_
        · refine h.onWay_update (fun t ht => ⟨update_of_ne ht _ _, rfl,
            update_of_ne ht _ _, rfl⟩) ?_
          simp only [VanadisComponent.setRob_threads, update_self]
          rw [huops]
          exact (h.on_way thr).append hgroup rfl
        · intro hstage t
          have hcleared := h.cleared hstage t
          rw [VanadisComponent.setRob_threads]
          by_cases ht : t = thr
          · subst ht
            rw [update_self, HwThread.ZeroCleared, renamesOf_append_clones]
            exact hcleared
          · rw [update_of_ne ht]
            exact hcleared

theorem Simulates.issue {calls : List (Fin hw_threads × (Nat → Bool))} (hstage : m.stage = .decode)
    (hstep : m.core.issueStage (fun _ => .start) calls = some core) :
    Simulates programs sem m₀ { m with core := core, stage := .execute } := by
  have hspec := VanadisComponent.issueStage_spec h.consistent.sound h.consistent.stack_top hstep
  obtain ⟨hbottom, -, hway⟩ := VanadisComponent.issueStage_induction
    (P := fun c => c.KeepsBottom ∧ c.Sound ∧ ∀ t,
      (c.threads t).OnWay (programs t) sem (m.sequentialResult programs sem m₀ t) (m.ip t)
          (m.register_files t) ∧ (c.threads t).ZeroCleared (m.register_files t))
    (fun c c' thr before post ins ins' hc _ hissues => by
      obtain ⟨hbottom, hsound, hthreads⟩ := hc
      refine ⟨hbottom.issues hissues, hsound.issues hissues, fun t => ?_⟩
      by_cases ht : t = thr
      · subst ht
        exact ⟨(hthreads t).1.issue (hsound t) (hthreads t).2 hissues, (hthreads t).2.issue hissues⟩
      · rw [hissues.threads, update_of_ne ht]
        exact hthreads t)
    ⟨h.bottom, h.consistent.sound, fun t => ⟨h.on_way t, h.cleared hstage t⟩⟩
    h.consistent.stack_top (VanadisComponent.tempsCover_start m.core) hstep
  exact h.of_moved hspec hbottom (fun t => (hway t).1) fun hexecute => by cases hexecute

theorem Simulates.execute {j : Nat} (hstage : m.stage = .execute)
    (hstep : m.execute sem thr j = some m') :
    Simulates programs sem m₀ m' := by
  unfold Machine.execute at hstep
  dsimp only at hstep
  split at hstep
  case h_1 => cases hstep
  case h_2 ins hins =>
    obtain ⟨core, hcore, rfl⟩ := map_eq_some_iff.1 hstep
    have hspec := VanadisComponent.performExecute_spec h.consistent.sound hcore
    obtain ⟨ins', hins', hissued, hnot, rfl⟩ := VanadisComponent.performExecute_eq_some hcore
    obtain rfl : ins = ins' := some.inj (hins.symm.trans hins')
    refine h.of_moved hspec
      (h.bottom.setRob (similar_inFlight (similar_set hins ⟨rfl, rfl, rfl⟩))) ?_ fun hdecode => ?_
    · refine h.onWay_update (fun t ht => ⟨update_of_ne ht _ _, update_of_ne ht _ _, rfl, rfl⟩) ?_
      simp only [VanadisComponent.setRob_threads, update_self]
      exact (h.on_way thr).execute (h.consistent.sound thr) (h.own thr) hins hissued hnot
        fun kind => rfl
    · rw [hstage] at hdecode
      cases hdecode

end

theorem mem_of_mem_squashedByRetire (h : ins ∈ squashedByRetire rob) :
    ins ∈ rob := by
  cases rob with
  | nil => cases h
  | cons front rest =>
    unfold squashedByRetire at h
    dsimp only at h
    split at h
    · split at h
      · cases rest with
        | nil => cases h
        | cons delay rest =>
          dsimp only at h
          split at h
          · exact mem_cons_of_mem _ (mem_cons_of_mem _ h)
          · cases h
      · exact mem_cons_of_mem _ h
    · cases h

omit [Zero Word] in
theorem retire_ip :
    (m.retire thr).ip thr =
      match (retiring (m.core.threads thr).rob).head? with
      | none => m.ip thr
      | some front => front.redirect (m.ip thr) := by
  unfold Machine.retire VanadisInstruction.redirect
  dsimp only
  cases (retiring (m.core.threads thr).rob).head? with
  | none => rfl
  | some front =>
    dsimp only
    cases front.speculation with
    | none => rfl
    | some sp =>
      dsimp only
      split
      · exact update_self _ _ _
      · rfl

omit [Zero Word] in
theorem retire_ip_other {t : Fin hw_threads} (ht : t ≠ thr) : (m.retire thr).ip t = m.ip t := by
  unfold Machine.retire
  dsimp only
  cases (retiring (m.core.threads thr).rob).head? with
  | none => rfl
  | some front =>
    dsimp only
    cases front.speculation with
    | none => rfl
    | some sp =>
      dsimp only
      split
      · exact update_of_ne ht _ _
      · rfl

theorem sequentialResult_retire {n : Nat} (hn : (retiring (m.core.threads thr).rob).length = n) :
    (m.retire thr).sequentialResult programs sem m₀ thr =
      Sequential.run (m₀.core.threads thr).isa_options (programs thr) sem
        (m.ins_retired thr + n) (m₀.sequential thr) := by
  rw [sequentialResult, Machine.retire, hn]
  dsimp only
  rw [update_self]

theorem Simulates.retire (h : Simulates programs sem m₀ m)
    (hwhole : RetiresWhole programs sem m (.retire thr)) :
    Simulates programs sem m₀ (m.retire thr) := by
  have hway := h.on_way thr
  have hsound := h.consistent.sound
  have hspec := @VanadisComponent.performRetire_spec _ _ _ thr false hsound
  have hnone : ∀ kind, syscallRegs (squashedByRetire (m.core.threads thr).rob) kind = [] :=
    h.no_syscallRegs fun _ => mem_of_mem_squashedByRetire
  obtain ⟨hbottom, hself⟩ : (m.core.performRetire thr false).KeepsBottom ∧
      ((m.retire thr).core.threads thr).OnWay (programs thr) sem
        ((m.retire thr).sequentialResult programs sem m₀ thr) ((m.retire thr).ip thr)
        (m.register_files thr) := by
    obtain ⟨hwrites, hslot⟩ := hwhole
    have hrun : ∀ n, Sequential.run (m₀.core.threads thr).isa_options (programs thr) sem (n + 1)
          (m₀.sequential thr) =
        (Sequential.run (m₀.core.threads thr).isa_options (programs thr) sem n
          (m₀.sequential thr)).step (m.core.threads thr).isa_options (programs thr) sem :=
      fun n => by
        rw [h.options]
        rfl
    rcases VanadisComponent.performRetire_cases m.core thr with
      ⟨hnil, rob, hmarked, heq⟩ | ⟨front, rest, hrob, hone, hissued, hexecuted, hslotless, heq⟩ |
        ⟨front, delay, rest, hrob, htwo, hissued, hexecuted, hdelay, hdone, heq⟩
    · rw [retire_ip, sequentialResult_retire (congrArg length hnil), hnil]
      change (m.core.performRetire thr false).KeepsBottom ∧
        ((m.core.performRetire thr false).threads thr).OnWay _ _ _ _ _
      rw [heq, VanadisComponent.setRob_threads, update_self]
      exact ⟨h.bottom.setRob (similar_inFlight (hmarked.imp fun _ _ => Marked.similar)),
        hway.mark hmarked⟩
    · rw [retire_ip, sequentialResult_retire (congrArg length hone), hone]
      change (m.core.performRetire thr false).KeepsBottom ∧
        ((m.core.performRetire thr false).threads thr).OnWay _ _ _ _ _
      rw [heq]
      have hrest : ∀ ins ∈ rest, ins ∈ (m.core.threads thr).rob := by
        rw [hrob]
        exact fun ins hins => mem_cons_of_mem _ hins
      exact ⟨h.bottom.retireFront hsound hrob hissued (h.no_syscallRegs hrest .int),
        hway.retireFront hsound hrob hissued hexecuted hslotless
          (hwrites front (by simp [hone])) (hrun _)⟩
    · rw [retire_ip, sequentialResult_retire (congrArg length htwo), htwo]
      change (m.core.performRetire thr false).KeepsBottom ∧
        ((m.core.performRetire thr false).threads thr).OnWay _ _ _ _ _
      rw [htwo] at hslot
      rw [heq]
      have hrest : ∀ ins ∈ rest, ins ∈ (m.core.threads thr).rob := by
        rw [hrob]
        exact fun ins hins => mem_cons_of_mem _ (mem_cons_of_mem _ hins)
      have hissued' := hway.faithful.issued delay (by simp [hrob]) hdone
      exact ⟨h.bottom.retireWithDelay hsound hrob hissued hissued'
          (h.no_syscallRegs hrest .int),
        hway.retireWithDelay hsound hrob hissued hexecuted hdelay hdone
          (hwrites front (by simp [htwo])) (hwrites delay (by simp [htwo])) hslot.1 hslot.2
          (hrun _) (hrun _)⟩
  simp only [hnone] at hspec
  refine h.of_moved hspec hbottom ?_ fun hdecode => by cases hdecode
  exact h.onWay_update (fun t ht => ⟨VanadisComponent.performRetire_other ht, rfl,
    retire_ip_other ht, update_of_ne ht _ _⟩) hself

/-- A step of the core is none or one of the sequential machine. -/
theorem Simulates.step {op : MachineOp hw_threads} (h : Simulates programs sem m₀ m)
    (hwhole : RetiresWhole programs sem m op) (hstep : m.step programs sem op = some m') :
    Simulates programs sem m₀ m' := by
  cases op with
  | beginCycle =>
    cases hstep
    exact h.beginCycle
  | decode thr predicted =>
    rw [Machine.step] at hstep
    split at hstep
    · exact h.decode hstep
    · cases hstep
  | issue calls =>
    rw [Machine.step] at hstep
    split at hstep
    case isTrue hstage =>
      obtain ⟨core, hcore, rfl⟩ := map_eq_some_iff.1 hstep
      exact h.issue hstage hcore
    case isFalse => cases hstep
  | execute thr j =>
    rw [Machine.step] at hstep
    split at hstep
    case isTrue hstage => exact h.execute hstage hstep
    case isFalse => cases hstep
  | retire thr =>
    rw [Machine.step] at hstep
    split at hstep
    · cases hstep
    · cases hstep
      exact h.retire hwhole

end Cycle

section Initial

variable {config : VanadisComponent.Config hw_threads}

/-- A thread is started on an empty buffer. -/
structure Startable
    (config : VanadisComponent.Config hw_threads) (core : VanadisComponent Op hw_threads) :
    Prop where
  consistent : core.Consistent
  partitioned : core.Partitioned
  bottom : core.KeepsBottom
  options : ∀ thr, (core.threads thr).isa_options = config.isa_options thr
  rob : ∀ thr, (core.threads thr).rob = []

theorem Startable.startThread (h : Startable config core) (thr : Fin hw_threads) :
    Startable config (core.startThread thr) := by
  have hsame : ∀ t, ((core.startThread thr).threads t).isa_options =
      (core.threads t).isa_options ∧
        ((core.startThread thr).threads t).rob = (core.threads t).rob := fun t => by
    rw [VanadisComponent.startThread_threads]
    by_cases ht : t = thr
    · subst ht
      rw [update_self]
      exact ⟨rfl, rfl⟩
    · rw [update_of_ne ht]
      exact ⟨rfl, rfl⟩
  have hstep : core.step (.start thr) = some (core.startThread thr) := rfl
  exact {
    consistent := h.consistent.step hstep
    partitioned := by
      refine (VanadisComponent.partitioned_step_iff h.consistent h.partitioned hstep).2
        fun kind => ?_
      rw [h.rob]
      rfl
    bottom := by
      refine h.bottom.imp_right fun hempty => ⟨hempty.1, fun t => ?_⟩
      rw [(hsame t).2]
      exact hempty.2 t
    options := fun t => (hsame t).1.trans (h.options t)
    rob := fun t => (hsame t).2.trans (h.rob t) }

theorem startable_initial (hfits : config.Fits) :
    Startable config (VanadisComponent.initial Op config) where
  consistent := ⟨VanadisComponent.initial_sound, VanadisComponent.initial_stack_top_iff.2 hfits⟩
  partitioned := VanadisComponent.initial_partitioned_iff.2 hfits
  bottom := by
    have hadded := @VanadisComponent.added_initial Op _ config
    have htop := (@VanadisComponent.initial_stack_top_iff Op _ config).2 hfits .int
    by_cases hempty : ((VanadisComponent.initial Op config).register_stack .int).stack_top = -1
    · refine .inr ⟨hempty, fun t => ?_⟩
      rw [hadded.rob]
      rfl
    · refine .inl ⟨by omega, ?_⟩
      rw [VanadisComponent.initial_regs]
      rfl
  options := VanadisComponent.added_initial.options
  rob := VanadisComponent.added_initial.rob

theorem startable_started (hfits : config.Fits) :
    Startable config ((finRange hw_threads).foldl VanadisComponent.startThread
      (VanadisComponent.initial Op config)) := by
  have hfold : ∀ (threads : List (Fin hw_threads)) (core : VanadisComponent Op hw_threads),
      Startable config core →
        Startable config (threads.foldl VanadisComponent.startThread core) := by
    intro threads
    induction threads with
    | nil => exact fun core h => h
    | cons thr threads ih => exact fun core h => ih _ (h.startThread thr)
  exact hfold _ _ (startable_initial hfits)

theorem simulates_initial
    {register_files : Fin hw_threads → RegisterKind → Nat → Word} {ip : Fin hw_threads → Nat}
    (hfits : config.Fits) (hzero : ∀ thr, (config.isa_options thr).reg_ignore_writes = 0)
    (hm : m = Machine.initial config register_files ip) :
    Simulates programs sem m m := by
  have hstart : Startable config m.core := by
    rw [hm]
    exact startable_started hfits
  have hretired : m.ins_retired = fun _ => 0 := by rw [hm]; rfl
  have hstage : m.stage = .retire := by rw [hm]; rfl
  exact { hstart with
    options := fun _ => rfl
    ignored := fun thr => by rw [hstart.options, hzero]
    on_way := fun thr => by
      rw [sequentialResult, hretired]
      exact {
        faithful := {
          issued := by simp [hstart.rob]
          reads := by simp [hstart.rob]
          zero := by simp [hstart.rob]
          results := by simp [hstart.rob]
          targets := by simp [hstart.rob]
          agrees := fun kind reg _ => by
            cases hcounted : (m.core.threads thr).isa_options.counted kind reg <;>
              simp [mappedReg, getReg, hcounted, Sequential.run, sequential, retired] }
        within := ⟨0, nil_suffix⟩
        fetched := by
          rw [hstart.rob]
          exact Fetched.done }
    cleared := fun hdecode => by
      rw [hstage] at hdecode
      cases hdecode }

/-- In a run in which only whole instructions retire, what has retired is always the
sequential result. -/
theorem retires_sequential_result
    {register_files : Fin hw_threads → RegisterKind → Nat → Word} {ip : Fin hw_threads → Nat}
    {ops : List (MachineOp hw_threads)}
    (hfits : config.Fits)
    (hzero : ∀ thr, (config.isa_options thr).reg_ignore_writes = 0)
    (hwhole : StepsMeet (Machine.step programs sem) (RetiresWhole programs sem)
      (Machine.initial config register_files ip) ops) :
    Throughout (Machine.step programs sem)
      (RetiresSequentially programs sem (Machine.initial config register_files ip))
      (Machine.initial config register_files ip) ops :=
  (throughout_of_stepsMeet (fun _ _ _ h hok hstep => Simulates.step h hok hstep)
    (simulates_initial hfits hzero rfl) hwhole).imp fun _ => Simulates.retiresSequentially

instance instDecidableRetiresWhole
    (m : Machine Op Word hw_threads) :
    ∀ op : MachineOp hw_threads, Decidable (RetiresWhole programs sem m op)
  | .beginCycle | .decode .. | .issue _ | .execute .. => inferInstanceAs (Decidable True)
  | .retire thr =>
    have : Decidable (match retiring (m.core.threads thr).rob with
        | [front, delay] =>
          (front.mispredicted = true →
            ((programs thr).delayBundle front.ins_address).length = 1) ∧
          delay.mispredicted = false
        | _ => True) := by
      split <;> infer_instance
    have : ∀ ins, Decidable (WritesAll (m.core.threads thr).isa_options sem
        (m.register_files thr) ins) := fun _ => inferInstanceAs (Decidable (∀ _, _))
    instDecidableAnd

end Initial

section Moves

/-- Three operations on integer registers: an addition, a move if the second register
is not zero, and a jump. -/
inductive MoveOp
  | addu
  | movn
  | jump (target : Nat)

def moveSemantics : Semantics MoveOp Nat where
  compute
    | .addu, inputs, .int => [some (inputs .int).sum]
    | .movn, inputs, .int =>
      match inputs .int with
      | [src, compare_check] => [if compare_check ≠ 0 then some src else none]
      | _ => []
    | _, _, _ => []
  target
    | .jump target, _ => target
    | _, _ => 0

def moveUop (addr : Nat) (op : MoveOp) (dest : Nat) : MicroOp MoveOp where
  ins_address := addr
  op := op
  func_type := .INST_INT_ARITH
  isa_regs_in := fun kind => if kind = .int then [1, 2] else []
  isa_regs_out := fun kind => if kind = .int then [dest] else []
  branch := none

def jumpUop (addr target : Nat) : MicroOp MoveOp where
  ins_address := addr
  op := .jump target
  func_type := .INST_BRANCH
  isa_regs_in := fun _ => []
  isa_regs_out := fun _ => []
  branch := some (.VANADIS_SINGLE_DELAY_SLOT, 0)

def conditionalMove : Program MoveOp where
  bundleAt := fun addr =>
    { uops :=
        if addr = 0 then [moveUop addr .movn 3]
        else if addr = 4 then [jumpUop addr 64]
        else [moveUop addr .addu 5]
      pcIncrement := 4 }
  delay_slots := true
  address := fun addr uop huop => by split_ifs at huop <;> simp_all [moveUop, jumpUop]
  branch_last := fun addr uop huop => by split_ifs at huop <;> simp_all
  branch_delay := fun addr uop huop b hb => by
    split_ifs at huop
    all_goals
      obtain rfl := mem_singleton.1 huop
      cases hb
    simp
  delay_plain := fun _ addr hends uop huop => by
    simp only [VanadisInstructionBundle.endsInBranch] at hends
    split_ifs at hends huop <;> simp_all [moveUop, jumpUop]
  in_scope := fun addr uop huop => by
    split_ifs at huop <;> simp_all [moveUop, jumpUop, VanadisFunctionalUnitType.isMemory]
  no_op := fun addr uop huop hnoop => by split_ifs at huop <;> simp_all [moveUop, jumpUop]

/-- A thread that holds the number of each physical register in it, but `compare` in
the one of register 2. -/
def moveMachine (compare : Nat) : Machine MoveOp Nat 1 :=
  Machine.initial VanadisComponent.singleThread
    (fun _ _ phys => if phys = 125 then compare else phys) fun _ => 0

/-- The condition holds, and the jump is mispredicted. -/
def jumpRun : List (MachineOp 1) :=
  [.beginCycle, .decode onlyThread 0, .decode onlyThread 12, .decode onlyThread 0,
    .issue [(onlyThread, fun _ => true), (onlyThread, fun _ => true),
      (onlyThread, fun _ => true), (onlyThread, fun _ => true)],
    .execute onlyThread 0, .execute onlyThread 1, .execute onlyThread 2, .retire onlyThread,
    .retire onlyThread]

theorem retires_sequential_result_jump :
    Throughout (Machine.step (fun _ => conditionalMove) moveSemantics)
      (RetiresSequentially (fun _ => conditionalMove) moveSemantics (moveMachine 1))
      (moveMachine 1) jumpRun :=
  retires_sequential_result (fun kind => by cases kind <;> decide) (fun _ => rfl)
    (by decide +kernel)

/-- The condition does not hold. -/
def moveRun : List (MachineOp 1) :=
  [.beginCycle, .decode onlyThread 0, .issue [(onlyThread, fun _ => true)],
    .execute onlyThread 0, .retire onlyThread]

/-- The conditional move then retires a register that it has not written. -/
theorem not_retires_sequential_result_move :
    ¬ Throughout (Machine.step (fun _ => conditionalMove) moveSemantics)
      (RetiresSequentially (fun _ => conditionalMove) moveSemantics (moveMachine 0))
      (moveMachine 0) moveRun := by
  have hvalues : (runOps (Machine.step (fun _ => conditionalMove) moveSemantics)
      (moveMachine 0) moveRun).map (fun m => (m.retired 0 .int 3,
        getReg ((moveMachine 0).core.threads 0).isa_options
          (m.sequentialResult (fun _ => conditionalMove) moveSemantics (moveMachine 0) 0).regs
          .int 3)) = some (93, 124) := by
    decide +kernel
  obtain ⟨m, hrun, hm⟩ := map_eq_some_iff.1 hvalues
  intro h
  have hsame := h moveRun m (prefix_refl _) hrun 0 .int 3 (by decide +kernel)
  rw [Prod.mk.injEq, hsame] at hm
  omega

end Moves

end Machine

end SstElements.Vanadis
