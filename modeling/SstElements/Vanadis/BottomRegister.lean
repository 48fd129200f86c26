import SstElements.Vanadis.RetiredValues

/-!
# The zero register keeps its place

No instruction ever gets physical register 0, which the register file reads as zero:
it is the bottom of the stack of free integer registers, and the last register of a
stack is not given out.
-/

namespace SstElements.Vanadis

open Library Function Multiset

universe u

variable {Op : Type u} {hw_threads : Nat}

theorem VanadisRegisterStack.pushAll_regs_zero {stack : VanadisRegisterStack} {vs : List Nat}
    (htop : 0 ≤ stack.stack_top) :
    (stack.pushAll vs).regs 0 = stack.regs 0 := by
  induction vs generalizing stack with
  | nil =>
    rfl
  | cons v vs ih =>
    have hpush : 0 ≤ (stack.push v).stack_top := by
      simp only [VanadisRegisterStack.push]
      omega
    rw [VanadisRegisterStack.pushAll_cons, ih hpush]
    exact update_of_ne (by omega) _ _

namespace VanadisComponent

/-- Physical register 0, which reads as zero, stays at the bottom of the integer
stack; if the stack was empty from the start, no register is ever taken. -/
def KeepsBottom (core : VanadisComponent Op hw_threads) : Prop :=
  (0 ≤ (core.register_stack .int).stack_top ∧ (core.register_stack .int).regs 0 = 0) ∨
    (core.register_stack .int).stack_top = -1 ∧
      ∀ thr, inFlight (core.threads thr).rob .int = []

variable {core core' : VanadisComponent Op hw_threads} {thr : Fin hw_threads}

theorem KeepsBottom.push {thread : HwThread Op} {vs : List Nat} (h : core.KeepsBottom)
    (hthreads : core'.threads = update core.threads thr thread)
    (hstack : core'.register_stack .int = (core.register_stack .int).pushAll vs)
    (hvs : inFlight (core.threads thr).rob .int = [] → vs = [])
    (hflight : inFlight (core.threads thr).rob .int = [] → inFlight thread.rob .int = []) :
    core'.KeepsBottom := by
  rcases h with ⟨htop, hzero⟩ | ⟨htop, hnone⟩
  · refine .inl ⟨?_, ?_⟩
    · rw [hstack, VanadisRegisterStack.pushAll_stack_top]
      omega
    · rw [hstack, VanadisRegisterStack.pushAll_regs_zero htop, hzero]
  · refine .inr ⟨?_, fun t => ?_⟩
    · rw [hstack, hvs (hnone thr)]
      exact htop
    · rw [hthreads]
      by_cases ht : t = thr
      · subst ht
        rw [update_self]
        exact hflight (hnone t)
      · rw [update_of_ne ht]
        exact hnone t

variable {before post rest : List (VanadisInstruction Op)}
variable {ins ins' front : VanadisInstruction Op}

theorem inFlight_issued (hissues : Issues core core' thr before post ins ins')
    (kind : RegisterKind) :
    inFlight (core'.threads thr).rob kind =
      inFlight before kind ++ ((ins'.regs kind).taken ins.isSyscall ++ inFlight post kind) ∧
      inFlight (core.threads thr).rob kind = inFlight before kind ++ inFlight post kind := by
  have hsys : ins'.isSyscall = ins.isSyscall := by
    rw [VanadisInstruction.isSyscall, hissues.func_type, VanadisInstruction.isSyscall]
  have hnew : ins'.outputs kind = (ins'.regs kind).taken ins.isSyscall := by
    rw [VanadisInstruction.outputs, hissues.issued, if_pos rfl, hsys]
  have hold : ins.outputs kind = [] := VanadisInstruction.outputs_of_not_issued hissues.not_issued
  constructor
  · rw [hissues.threads, update_self]
    simp [inFlight, hnew]
  · rw [hissues.rob]
    simp [inFlight, hold]

theorem KeepsBottom.issues (h : core.KeepsBottom)
    (hissues : Issues core core' thr before post ins ins') :
    core'.KeepsBottom := by
  obtain ⟨hregs, hbottom⟩ := hissues.bottom .int
  rcases h with ⟨htop, hzero⟩ | ⟨htop, hnone⟩
  · refine .inl ⟨?_, by rw [hregs, hzero]⟩
    rcases hbottom with ⟨-, hsame⟩ | hle
    · rw [hsame]
      exact htop
    · exact hle
  · have hcard := congrArg card (hissues.free .int)
    rw [card_add, VanadisRegisterStack.card_free, VanadisRegisterStack.card_free, htop] at hcard
    rcases hbottom with ⟨htaken, hsame⟩ | hle
    · refine .inr ⟨by rw [hsame, htop], fun t => ?_⟩
      by_cases ht : t = thr
      · subst ht
        obtain ⟨hnew, hold⟩ := inFlight_issued hissues .int
        rw [hnew, htaken, List.nil_append, ← hold]
        exact hnone t
      · rw [hissues.threads, update_of_ne ht]
        exact hnone t
    · simp only [Int.reduceNeg, Int.reduceAdd, Int.toNat_zero] at hcard
      omega

theorem ownRegisters (hpart : core.Partitioned) (hbottom : core.KeepsBottom)
    (hzero : (core.threads thr).isa_options.reg_ignore_writes = 0) :
    OwnRegisters (core.threads thr).isa_options (core.threads thr).rob
      fun kind => ((core.threads thr).retire_isa_table kind).reg_ptr := by
  have hshare := fun kind => hpart.share_nodup thr kind
  have hsplit := fun kind => nodup_add.1 (hshare kind)
  exact {
    mapped := fun kind reg reg' hreg hreg' heq =>
      inj_on_of_nodup_map (hsplit kind).1 reg (mem_range.2 hreg) reg'
        (mem_range.2 hreg') heq
    disjoint := fun kind reg hreg hmem =>
      disjoint_left.1 (hsplit kind).2.2
        (mem_map_of_mem _ (mem_range.2 hreg)) (mem_coe.2 hmem)
    nodup := fun kind => coe_nodup.1 (hsplit kind).2.1
    counted := fun kind phys hphys => by
      cases kind with
      | fp => rfl
      | int =>
        simp only [VanadisDecoderOptions.counted, hzero, bne_iff_ne, ne_eq]
        rintro rfl
        rcases hbottom with ⟨htop, hregs⟩ | ⟨-, hnone⟩
        · have hall : (core.total .int).Nodup :=
            (partitioned_iff.1 hpart).2 .int ▸ nodup_range _
          have hfree : 0 ∈ (core.register_stack .int).free :=
            mem_map.2 ⟨0, mem_range.2 (by omega), hregs⟩
          have hheld : 0 ∈ ∑ t, (core.threads t).share .int := by
            refine mem_of_le (Finset.single_le_sum
              (fun _ _ => zero_le _) (Finset.mem_univ thr)) ?_
            exact mem_add.2 (.inr (mem_coe.2 hphys))
          exact disjoint_left.1 (nodup_add.1 hall).2.2 hfree hheld
        · rw [hnone thr] at hphys
          cases hphys }

section

variable (h : core.KeepsBottom)
include h

theorem KeepsBottom.setRob {rob : List (VanadisInstruction Op)}
    (hrob : inFlight rob .int = inFlight (core.threads thr).rob .int) :
    (core.setRob thr rob).KeepsBottom :=
  @KeepsBottom.push _ _ core _ thr _ [] h rfl rfl (fun _ => rfl) fun hnil => hrob.trans hnil

theorem KeepsBottom.recover (hsound : (core.threads thr).Sound)
    (hrob : (core.threads thr).rob = front :: rest) (hissued : front.hasIssued = true) :
    (core.recoverRetiredRegisters thr front rest).KeepsBottom := by
  have hsplit : inFlight (core.threads thr).rob .int = [] →
      front.outputs .int = [] ∧ inFlight rest .int = [] := fun hnil => by
    rw [hrob] at hnil
    exact List.append_eq_nil_iff.1 hnil
  refine h.push recoverRetiredRegisters_threads (recoverRetiredRegisters_spec hissued .int).1
    (fun hnil => ?_) fun hnil => ?_
  · have hfront : front ∈ (core.threads thr).rob := by simp [hrob]
    have hmap := VanadisInstruction.map_snd_renames fun hissued =>
      hsound.phys_out_length front hfront hissued .int
    rw [(hsplit hnil).1, List.map_eq_nil_iff] at hmap
    rw [hmap]
    rfl
  · rw [recoverRetiredRegisters_thread.2]
    exact (hsplit hnil).2

theorem KeepsBottom.misspeculate (hsys : syscallRegs (core.threads thr).rob .int = []) :
    (core.handleMisspeculate thr).KeepsBottom := by
  refine h.push handleMisspeculate_threads (handleMisspeculate_register_stack .int)
    (fun hnil => ?_) fun _ => rfl
  have hreturned := @coe_returnedRegs _ (core.threads thr).rob .int
  rw [hnil, hsys] at hreturned
  exact (coe_eq_zero _).1 hreturned

theorem KeepsBottom.retireFront (hsound : core.Sound)
    (hrob : (core.threads thr).rob = front :: rest) (hissued : front.hasIssued = true)
    (hsys : syscallRegs rest .int = []) :
    (core.retireFront thr front rest).KeepsBottom := by
  have hrecover := h.recover (hsound thr) hrob hissued
  unfold VanadisComponent.retireFront
  split
  · refine hrecover.misspeculate ?_
    rw [recoverRetiredRegisters_thread.2]
    exact hsys
  · exact hrecover

theorem KeepsBottom.retireWithDelay {delay : VanadisInstruction Op} (hsound : core.Sound)
    (hrob : (core.threads thr).rob = front :: delay :: rest) (hissued : front.hasIssued = true)
    (hissued' : delay.hasIssued = true) (hsys : syscallRegs rest .int = []) :
    (core.retireWithDelay thr front delay rest).KeepsBottom := by
  have hrecover := (h.recover (hsound thr) hrob hissued).recover
    (hsound.recover hrob hissued thr) recoverRetiredRegisters_thread.2 hissued'
  unfold VanadisComponent.retireWithDelay
  split
  · refine hrecover.misspeculate ?_
    rw [recoverRetiredRegisters_thread.2]
    exact hsys
  · exact hrecover

end

end VanadisComponent

end SstElements.Vanadis
