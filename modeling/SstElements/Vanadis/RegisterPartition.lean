import SstElements.Vanadis.RegisterRenaming

/-!
# Physical registers are shared out

The free registers, the registers of the retire tables and the outputs of issued
instructions are together all physical registers, as long as no squash hits an
issued system call and no thread is started over issued instructions.
-/

namespace SstElements.Vanadis

open Library Function Multiset

universe u

variable {Op : Type u} {hw_threads : Nat}

def HwThread.share (thread : HwThread Op) (kind : RegisterKind) : Multiset Nat :=
  (thread.retire_isa_table kind).mapped (thread.isa_options.count_isa_reg kind) +
    (inFlight thread.rob kind : Multiset Nat)

namespace VanadisComponent

/-- The free registers and those of the threads. -/
def total (core : VanadisComponent Op hw_threads) (kind : RegisterKind) : Multiset Nat :=
  (core.register_stack kind).free + ∑ thr, (core.threads thr).share kind

/-- The free registers, the registers mapped by the retire tables and the outputs
of issued instructions are disjoint and make up all registers; the stack is neither
overrun nor popped when empty. -/
def Partitioned (core : VanadisComponent Op hw_threads) : Prop :=
  ∀ kind,
    (core.register_stack kind).free +
        (∑ thr, ((core.threads thr).retire_isa_table kind).mapped
          ((core.threads thr).isa_options.count_isa_reg kind)) +
        (∑ thr, (inFlight (core.threads thr).rob kind : Multiset Nat)) =
      range (core.register_stack kind).max_capacity ∧
    -1 ≤ (core.register_stack kind).stack_top ∧
    (core.register_stack kind).stack_top < (core.register_stack kind).max_capacity

variable {core core' core'' : VanadisComponent Op hw_threads} {thr : Fin hw_threads}

theorem partitioned_iff :
    core.Partitioned ↔ (∀ kind, -1 ≤ (core.register_stack kind).stack_top) ∧
        ∀ kind, core.total kind = range (core.register_stack kind).max_capacity := by
  have hsum : ∀ kind, core.total kind = (core.register_stack kind).free +
      (∑ thr, ((core.threads thr).retire_isa_table kind).mapped
        ((core.threads thr).isa_options.count_isa_reg kind)) +
      (∑ thr, (inFlight (core.threads thr).rob kind : Multiset Nat)) := by
    intro kind
    rw [total, add_assoc, ← Finset.sum_add_distrib]
    rfl
  constructor
  · intro h
    exact ⟨fun kind => (h kind).2.1, fun kind => (hsum kind).trans (h kind).1⟩
  · rintro ⟨htop, htotal⟩ kind
    refine ⟨(hsum kind).symm.trans (htotal kind), htop kind, ?_⟩
    have hcard := congrArg card (htotal kind)
    rw [total, card_add, VanadisRegisterStack.card_free, card_range] at hcard
    omega

theorem Partitioned.share_nodup
    (h : core.Partitioned) (thr : Fin hw_threads) (kind : RegisterKind) :
    ((core.threads thr).share kind).Nodup := by
  have hall : (core.total kind).Nodup := (partitioned_iff.1 h).2 kind ▸ nodup_range _
  refine nodup_of_le ?_ hall
  exact (Finset.single_le_sum (fun _ _ => zero_le _)
    (Finset.mem_univ thr)).trans (le_add_left _ _)

/-- Registers have changed hands; `extra` were put on the stack but not taken from
any thread. -/
structure Moved
    (core core' : VanadisComponent Op hw_threads) (extra : RegisterKind → Multiset Nat) :
    Prop where
  options : ∀ thr, (core'.threads thr).isa_options = (core.threads thr).isa_options
  capacity : ∀ kind,
    (core'.register_stack kind).max_capacity = (core.register_stack kind).max_capacity
  stack_top : (∀ kind, -1 ≤ (core.register_stack kind).stack_top) →
    ∀ kind, -1 ≤ (core'.register_stack kind).stack_top
  total : (∀ kind, -1 ≤ (core.register_stack kind).stack_top) →
    ∀ kind, core'.total kind = core.total kind + extra kind

theorem Moved.refl (core : VanadisComponent Op hw_threads) : Moved core core fun _ => 0 where
  options := fun _ => rfl
  capacity := fun _ => rfl
  stack_top := fun h => h
  total := fun _ _ => (add_zero _).symm

theorem Moved.trans {extra extra' : RegisterKind → Multiset Nat} (h : Moved core core' extra)
    (h' : Moved core' core'' extra') :
    Moved core core'' fun kind => extra kind + extra' kind where
  options := fun thr => (h'.options thr).trans (h.options thr)
  capacity := fun kind => (h'.capacity kind).trans (h.capacity kind)
  stack_top := fun htop => h'.stack_top (h.stack_top htop)
  total := fun htop kind => by rw [h'.total (h.stack_top htop), h.total htop, add_assoc]

variable {thread : HwThread Op}

theorem total_update {kind : RegisterKind} {gained lost : Multiset Nat}
    (hthreads : core'.threads = update core.threads thr thread)
    (h : (core'.register_stack kind).free + thread.share kind + lost =
      (core.register_stack kind).free + (core.threads thr).share kind + gained) :
    core'.total kind + lost = core.total kind + gained := by
  have hsum := sum_update_add (fun t : HwThread Op => t.share kind) core.threads thr thread
  refine add_right_cancel (b := (core.threads thr).share kind) ?_
  rw [total, total, hthreads]
  calc
    (core'.register_stack kind).free +
          ∑ t, (update core.threads thr thread t).share kind + lost +
        (core.threads thr).share kind
      = (core'.register_stack kind).free + lost +
          ((∑ t, (update core.threads thr thread t).share kind) +
            (core.threads thr).share kind) := by
        abel
    _ = (core'.register_stack kind).free + thread.share kind + lost +
          ∑ t, (core.threads t).share kind := by
        rw [hsum]
        abel
    _ = (core.register_stack kind).free + ∑ t, (core.threads t).share kind + gained +
          (core.threads thr).share kind := by
        rw [h]
        abel

theorem Moved.of_thread {extra : RegisterKind → Multiset Nat}
    (hthreads : core'.threads = update core.threads thr thread)
    (hoptions : thread.isa_options = (core.threads thr).isa_options)
    (hcapacity : ∀ kind,
      (core'.register_stack kind).max_capacity = (core.register_stack kind).max_capacity)
    (htop : ∀ kind, (core.register_stack kind).stack_top ≤ (core'.register_stack kind).stack_top ∨
      -1 ≤ (core'.register_stack kind).stack_top)
    (h : (∀ kind, -1 ≤ (core.register_stack kind).stack_top) → ∀ kind,
      (core'.register_stack kind).free + thread.share kind =
        (core.register_stack kind).free + (core.threads thr).share kind + extra kind) :
    Moved core core' extra where
  options := by
    intro t
    rw [hthreads]
    by_cases ht : t = thr
    · subst ht
      rw [update_self, hoptions]
    · rw [update_of_ne ht]
  capacity := hcapacity
  stack_top := fun hle kind => (htop kind).elim (fun hup => (hle kind).trans hup) id
  total := fun hle kind => by
    have htotal : core'.total kind + 0 = core.total kind + extra kind :=
      total_update hthreads (by rw [add_zero]; exact h hle kind)
    rwa [add_zero] at htotal

theorem moved_issues {before post : List (VanadisInstruction Op)} {ins ins' : VanadisInstruction Op}
    (hissues : Issues core core' thr before post ins ins') :
    Moved core core' fun _ => 0 := by
  have hsys : ins'.isSyscall = ins.isSyscall := by
    rw [VanadisInstruction.isSyscall, hissues.func_type, VanadisInstruction.isSyscall]
  refine Moved.of_thread hissues.threads rfl hissues.capacity
    (fun kind => .inr (hissues.stack_top kind)) fun _ kind => ?_
  have hsplit : ∀ x, (inFlight (before ++ x :: post) kind : Multiset Nat) =
      (inFlight before kind : Multiset Nat) + (x.outputs kind : Multiset Nat) +
        (inFlight post kind : Multiset Nat) := by
    intro x
    rw [inFlight, List.flatMap_append, List.flatMap_cons, ← coe_add,
      ← coe_add, add_assoc]
    rfl
  have hnew : ins'.outputs kind = (ins'.regs kind).taken ins.isSyscall := by
    rw [VanadisInstruction.outputs, hissues.issued, if_pos rfl, hsys]
  rw [HwThread.share, HwThread.share, hissues.rob, hsplit, hsplit, hnew,
    VanadisInstruction.outputs_of_not_issued hissues.not_issued, hissues.free kind, coe_nil]
  abel

/-- The arrays of the threads that may still be asked cover their instructions. -/
def TempsCover
    (core : VanadisComponent Op hw_threads) (temps : Fin hw_threads → IssueTemps) : Prop :=
  ∀ thr, (temps thr).blocked = false →
    (temps thr).rob_start ≤ (core.threads thr).rob.length ∧
      (temps thr).Covers ((core.threads thr).rob.take (temps thr).rob_start)

theorem issueStage_induction {P : VanadisComponent Op hw_threads → Prop}
    (hissues : ∀ core core' thr before post ins ins', P core →
      (∀ kind, -1 ≤ (core.register_stack kind).stack_top) →
      @Issues Op hw_threads core core' thr before post ins ins' → P core')
    {calls : List (Fin hw_threads × (Nat → Bool))} {temps : Fin hw_threads → IssueTemps}
    (hP : P core) (htop : ∀ kind, -1 ≤ (core.register_stack kind).stack_top)
    (htemps : TempsCover core temps) (h : core.issueStage temps calls = some core') :
    P core' := by
  induction calls generalizing core temps with
  | nil =>
    exact Option.some.inj h ▸ hP
  | cons call calls ih =>
    obtain ⟨thr, accepts⟩ := call
    rw [issueStage] at h
    split at h
    case isTrue => exact ih hP htop htemps h
    case isFalse hblocked =>
      obtain ⟨⟨next, seen⟩, hnext, hrest⟩ := Option.bind_eq_some_iff.1 h
      obtain ⟨hstart, hcovers⟩ := htemps thr (Bool.eq_false_iff.2 hblocked)
      rcases performIssue_spec htop hstart hcovers hnext with
        ⟨rfl, hseen⟩ | ⟨before, post, ins, ins', hiss, hplace, hcov⟩
      · refine ih hP htop (fun t ht => ?_) hrest
        by_cases heq : t = thr
        · subst heq
          simp [hseen] at ht
        · simp only [update_of_ne heq] at ht ⊢
          exact htemps t ht
      · refine ih (hissues core next thr before post ins ins' hP htop hiss) hiss.stack_top
          (fun t ht => ?_) hrest
        by_cases heq : t = thr
        · subst heq
          simp only [update_self]
          rw [hiss.threads, update_self, hplace]
          refine ⟨by simp, ?_⟩
          rwa [List.take_left']
          rfl
        · simp only [update_of_ne heq] at ht ⊢
          rw [hiss.threads, update_of_ne heq]
          exact htemps t ht

theorem tempsCover_start (core : VanadisComponent Op hw_threads) :
    TempsCover core fun _ => .start :=
  fun _ _ => ⟨Nat.zero_le _, IssueTemps.covers_nil _⟩

theorem recoverKind_spec (counted : Nat → Bool) (syscall : Bool) (stack : VanadisRegisterStack)
    (issue_isa_table retire_isa_table : VanadisISATable) (operands : Operands) :
    (recoverKind counted (!syscall) stack issue_isa_table retire_isa_table operands).1 =
        stack.pushAll (displaced retire_isa_table.reg_ptr (operands.writes syscall)) ∧
      (recoverKind counted (!syscall) stack issue_isa_table retire_isa_table
        operands).2.1.reg_ptr = issue_isa_table.reg_ptr ∧
      (recoverKind counted (!syscall) stack issue_isa_table retire_isa_table operands).2.2.reg_ptr =
        overwrite retire_isa_table.reg_ptr (operands.writes syscall) := by
  have hissue : (operands.isa_regs_out.foldl (·.decWrite counted)
      (operands.isa_regs_in.foldl (·.decRead counted) issue_isa_table)).reg_ptr =
        issue_isa_table.reg_ptr := by
    rw [VanadisISATable.foldl_reg_ptr fun _ _ => VanadisISATable.decWrite_reg_ptr,
      VanadisISATable.foldl_reg_ptr fun _ _ => VanadisISATable.decRead_reg_ptr]
  cases syscall with
  | true => exact ⟨rfl, hissue, rfl⟩
  | false => exact ⟨rfl, hissue, rfl⟩

section Retire

variable {front : VanadisInstruction Op} {rest : List (VanadisInstruction Op)}

theorem recoverRetiredRegisters_thread :
    ((core.recoverRetiredRegisters thr front rest).threads thr).isa_options =
        (core.threads thr).isa_options ∧
      ((core.recoverRetiredRegisters thr front rest).threads thr).rob = rest := by
  simp [recoverRetiredRegisters, setThread]

theorem recoverRetiredRegisters_threads :
    (core.recoverRetiredRegisters thr front rest).threads = update core.threads thr
        ((core.recoverRetiredRegisters thr front rest).threads thr) := by
  simp [recoverRetiredRegisters, setThread]

theorem recoverRetiredRegisters_spec (hissued : front.hasIssued = true) (kind : RegisterKind) :
    (core.recoverRetiredRegisters thr front rest).register_stack kind =
        (core.register_stack kind).pushAll
          (displaced ((core.threads thr).retire_isa_table kind).reg_ptr (front.renames kind)) ∧
      (((core.recoverRetiredRegisters thr front rest).threads thr).issue_isa_table
          kind).reg_ptr = ((core.threads thr).issue_isa_table kind).reg_ptr ∧
      (((core.recoverRetiredRegisters thr front rest).threads thr).retire_isa_table kind).reg_ptr =
        overwrite ((core.threads thr).retire_isa_table kind).reg_ptr
          (front.renames kind) := by
  rw [VanadisInstruction.renames, if_pos hissued]
  simp only [recoverRetiredRegisters, setThread, update_self,
    VanadisInstruction.performRegisterRecovery]
  exact recoverKind_spec _ _ _ _ _ _

theorem Sound.recover (h : core.Sound) (hrob : (core.threads thr).rob = front :: rest)
    (hissued : front.hasIssued = true) :
    (core.recoverRetiredRegisters thr front rest).Sound := by
  refine h.update recoverRetiredRegisters_threads ?_
  exact (h thr).retire hrob recoverRetiredRegisters_thread.1 recoverRetiredRegisters_thread.2
    (fun kind => (recoverRetiredRegisters_spec hissued kind).2.1)
    fun kind => (recoverRetiredRegisters_spec hissued kind).2.2

theorem moved_recover (h : (core.threads thr).Sound) (hrob : (core.threads thr).rob = front :: rest)
    (hissued : front.hasIssued = true) :
    Moved core (core.recoverRetiredRegisters thr front rest) fun _ => 0 := by
  refine Moved.of_thread recoverRetiredRegisters_threads recoverRetiredRegisters_thread.1
    (fun kind => ?_) (fun kind => .inl ?_) fun htop kind => ?_
  · rw [(recoverRetiredRegisters_spec hissued kind).1, VanadisRegisterStack.pushAll_max_capacity]
  · rw [(recoverRetiredRegisters_spec hissued kind).1, VanadisRegisterStack.pushAll_stack_top]
    omega
  · have hfront : front ∈ (core.threads thr).rob := by simp [hrob]
    have hmapped := VanadisISATable.mapped_overwrite
      (@recoverRetiredRegisters_spec _ _ core thr front rest hissued kind).2.2
      (fun w hw => (h.in_set front hfront hissued kind).2 _ (VanadisInstruction.mem_renames hw).2.1)
    rw [VanadisInstruction.map_snd_renames
      fun hissued => h.phys_out_length front hfront hissued kind] at hmapped
    have hflight : (inFlight (core.threads thr).rob kind : Multiset Nat) =
        (front.outputs kind : Multiset Nat) + (inFlight rest kind : Multiset Nat) := by
      rw [hrob]
      rfl
    rw [HwThread.share, HwThread.share, recoverRetiredRegisters_thread.1,
      recoverRetiredRegisters_thread.2, hflight,
      (recoverRetiredRegisters_spec hissued kind).1, VanadisRegisterStack.free_pushAll (htop kind)]
    rw [add_comm] at hmapped
    rw [add_assoc, ← add_assoc (ofList _), hmapped]
    abel

end Retire

theorem handleMisspeculate_threads :
    (core.handleMisspeculate thr).threads = update core.threads thr
      { core.threads thr with
        rob := []
        issue_isa_table := (core.threads thr).retire_isa_table } := by
  simp [handleMisspeculate, clearROBMisspeculate, setThread]

theorem handleMisspeculate_register_stack (kind : RegisterKind) :
    (core.handleMisspeculate thr).register_stack kind =
      (core.register_stack kind).pushAll (returnedRegs (core.threads thr).rob kind) := by
  rfl

theorem Sound.misspeculate (h : core.Sound) : (core.handleMisspeculate thr).Sound :=
  h.update handleMisspeculate_threads (.of_rob_nil rfl fun _ => rfl)

theorem moved_misspeculate :
    Moved core (core.handleMisspeculate thr) fun kind =>
      (syscallRegs (core.threads thr).rob kind : Multiset Nat) := by
  refine Moved.of_thread handleMisspeculate_threads rfl (fun kind => ?_)
    (fun kind => .inl ?_) fun htop kind => ?_
  · rw [handleMisspeculate_register_stack, VanadisRegisterStack.pushAll_max_capacity]
  · rw [handleMisspeculate_register_stack, VanadisRegisterStack.pushAll_stack_top]
    omega
  · have hnil : (inFlight ([] : List (VanadisInstruction Op)) kind : Multiset Nat) = 0 := by rfl
    rw [handleMisspeculate_register_stack, VanadisRegisterStack.free_pushAll (htop kind),
      HwThread.share, HwThread.share, hnil, coe_returnedRegs]
    abel

theorem moved_similar {rob : List (VanadisInstruction Op)}
    (hrob : List.Forall₂ VanadisInstruction.Similar (core.threads thr).rob rob) :
    Moved core (core.setRob thr rob) fun _ => 0 := by
  refine Moved.of_thread rfl rfl (fun _ => rfl) (fun _ => .inl le_rfl) fun _ kind => ?_
  rw [HwThread.share, HwThread.share, similar_inFlight hrob, add_zero]
  rfl

theorem moved_append {bundle : List (MicroOp Op)} :
    Moved core (core.setRob thr ((core.threads thr).rob ++ bundle.map MicroOp.clone))
      fun _ => 0 := by
  refine Moved.of_thread rfl rfl (fun _ => rfl) (fun _ => .inl le_rfl) fun _ kind => ?_
  rw [HwThread.share, HwThread.share, inFlight_append_clones, add_zero]
  rfl

end VanadisComponent

end SstElements.Vanadis
