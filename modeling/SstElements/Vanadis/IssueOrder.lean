import SstElements.Vanadis.Pipeline

/-!
# What the issue stage does to a thread

An instruction issues only when it neither reads nor writes a register that an
older instruction in the buffer writes, and does not write one that an older
instruction still has to read.
-/

namespace SstElements.Vanadis

open Library Function List Option

universe u

variable {Op : Type u}

/-- The instruction may be issued although the older one is still in the buffer. -/
structure Clear (older ins : VanadisInstruction Op) : Prop where
  reads : ∀ kind, ∀ reg ∈ (ins.regs kind).isa_regs_in,
    reg ∉ (older.regs kind).isa_regs_out
  writes : ∀ kind, ∀ reg ∈ (ins.regs kind).isa_regs_out,
    reg ∉ (older.regs kind).isa_regs_out
  unread : older.hasIssued = false → ∀ kind, ∀ reg ∈ (ins.regs kind).isa_regs_out,
    reg ∉ (older.regs kind).isa_regs_in

theorem Clear.congr {older older' ins ins' : VanadisInstruction Op}
    (hin : ∀ kind, (ins'.regs kind).isa_regs_in = (ins.regs kind).isa_regs_in)
    (hout : ∀ kind, (ins'.regs kind).isa_regs_out = (ins.regs kind).isa_regs_out)
    (hin' : ∀ kind, (older'.regs kind).isa_regs_in = (older.regs kind).isa_regs_in)
    (hout' : ∀ kind, (older'.regs kind).isa_regs_out = (older.regs kind).isa_regs_out)
    (hissued : older'.hasIssued = false → older.hasIssued = false) (h : Clear older ins) :
    Clear older' ins' where
  reads := fun kind reg hreg => hout' kind ▸ h.reads kind reg (hin kind ▸ hreg)
  writes := fun kind reg hreg => hout' kind ▸ h.writes kind reg (hout kind ▸ hreg)
  unread := fun hnot kind reg hreg =>
    hin' kind ▸ h.unread (hissued hnot) kind reg (hout kind ▸ hreg)

/-- The temporary arrays hold what the instructions read and write. -/
structure IssueTemps.Covers (temps : IssueTemps) (older : List (VanadisInstruction Op)) : Prop where
  writes : ∀ ins ∈ older, ∀ kind, ∀ reg ∈ (ins.regs kind).isa_regs_out,
    temps.reg_write kind reg = true
  reads : ∀ ins ∈ older, ins.hasIssued = false → ∀ kind,
    ∀ reg ∈ (ins.regs kind).isa_regs_in, temps.not_issued_reg_read kind reg = true

theorem IssueTemps.covers_nil (temps : IssueTemps) :
    temps.Covers ([] : List (VanadisInstruction Op)) where
  writes := by simp
  reads := by simp

variable {temps : IssueTemps} {older : List (VanadisInstruction Op)}
variable {reg_stacks : RegisterKind → VanadisRegisterStack}
variable {isa_table : RegisterKind → VanadisISATable} {ins ins' : VanadisInstruction Op}

theorem IssueTemps.Covers.collect (h : temps.Covers older) (ins : VanadisInstruction Op) :
    (temps.collect ins).Covers (older ++ [ins]) where
  writes := by
    intro x hx kind reg hreg
    simp only [IssueTemps.collect, Bool.or_eq_true, contains_iff_mem]
    rcases mem_append.1 hx with hx | hx
    · exact .inl (h.writes x hx kind reg hreg)
    · rw [mem_singleton] at hx
      exact .inr (hx ▸ hreg)
  reads := by
    intro x hx hnot kind reg hreg
    simp only [IssueTemps.collect, Bool.or_eq_true, Bool.and_eq_true, Bool.not_eq_true',
      contains_iff_mem]
    rcases mem_append.1 hx with hx | hx
    · exact .inl (h.reads x hx hnot kind reg hreg)
    · rw [mem_singleton] at hx
      exact .inr ⟨hx ▸ hnot, hx ▸ hreg⟩

variable {ins : VanadisInstruction Op}

theorem checkInstructionResources_eq_zero_iff {temps : IssueTemps} :
    checkInstructionResources reg_stacks isa_table temps ins = 0 ↔
      ∀ kind, (ins.regs kind).isa_regs_out.length ≤ (reg_stacks kind).unused ∧
        (∀ reg ∈ (ins.regs kind).isa_regs_in,
          (isa_table kind).pendingWrites reg = false ∧ temps.reg_write kind reg = false) ∧
        ∀ reg ∈ (ins.regs kind).isa_regs_out, temps.not_issued_reg_read kind reg = false ∧
            temps.reg_write kind reg = false := by
  simp only [checkInstructionResources]
  constructor
  · intro h
    split at h
    · exact absurd h (by decide)
    rename_i hstored
    split at h
    · exact absurd h (by decide)
    rename_i hintin
    split at h
    · exact absurd h (by decide)
    rename_i hfpin
    split at h
    · exact absurd h (by decide)
    rename_i hintout
    split at h
    · exact absurd h (by decide)
    rename_i hfpout
    simp only [Bool.not_eq_true', Bool.and_eq_false_iff, decide_eq_false_iff_not, not_or,
      not_not, Bool.not_eq_false, List.all_eq_true, Bool.and_eq_true] at *
    intro kind
    cases kind with
    | int => exact ⟨hstored.1, hintin, hintout⟩
    | fp => exact ⟨hstored.2, hfpin, hfpout⟩
  · intro h
    have hin := fun kind => (h kind).2.1
    have hout := fun kind => (h kind).2.2
    rw [if_neg, if_neg, if_neg, if_neg, if_neg]
    all_goals
      simp only [Bool.not_eq_true', Bool.not_eq_false, List.all_eq_true, Bool.and_eq_true,
        decide_eq_true_eq]
    · exact hout .fp
    · exact hout .int
    · exact hin .fp
    · exact hin .int
    · exact ⟨(h .int).1, (h .fp).1⟩

theorem allocateInOrder_eq_some {accepts : Bool}
    (h : allocateInOrder accepts temps ins = some ins') :
    ins' = ins ∨ ins' = ins.markExecuted ∧
        (ins.func_type = .INST_NOOP ∨ ins.func_type = .INST_FAULT) := by
  unfold allocateInOrder at h
  split at h
  · cases h
  · unfold allocateFunctionalUnit at h
    split at h
    case h_1 hnoop => exact .inr ⟨(some.inj h).symm, .inl hnoop⟩
    case h_2 hfault => exact .inr ⟨(some.inj h).symm, .inr hfault⟩
    case h_3 => exact .inl (some.inj h).symm
    case h_4 =>
      split at h
      · exact .inl (some.inj h).symm
      · cases h

variable {accepts : Nat → Bool}

theorem findIssue_spec
    {temps' : IssueTemps} {rest : List (VanadisInstruction Op)} {j : Nat}
    (hcovers : temps.Covers older)
    (h : findIssue reg_stacks isa_table accepts temps older.length rest =
      (some (j, ins'), temps')) :
    ∃ mid ins post seen,
      rest = mid ++ ins :: post ∧ j = (older ++ mid).length ∧ ins.hasIssued = false ∧
        IssueTemps.Covers seen (older ++ mid) ∧
        checkInstructionResources reg_stacks isa_table seen ins = 0 ∧
        allocateInOrder (accepts j) seen ins = some ins' ∧ temps' = seen.collect ins := by
  induction rest generalizing temps older with
  | nil =>
    simp [findIssue] at h
  | cons ins rest ih =>
    -- the scan goes on behind `ins` with arrays that cover it too
    have hgo : ∀ seen : IssueTemps, seen.Covers older →
        findIssue reg_stacks isa_table accepts (seen.collect ins) (older.length + 1) rest =
          (some (j, ins'), temps') →
        ∃ mid x post seen,
          ins :: rest = mid ++ x :: post ∧ j = (older ++ mid).length ∧
            x.hasIssued = false ∧ IssueTemps.Covers seen (older ++ mid) ∧
            checkInstructionResources reg_stacks isa_table seen x = 0 ∧
            allocateInOrder (accepts j) seen x = some ins' ∧
            temps' = seen.collect x := by
      intro seen hseen hrest
      have hlen : (older ++ [ins]).length = older.length + 1 := by simp
      obtain ⟨mid, x, post, seen', heq, hj, hnot, hcov, hcheck, hacc, htemps⟩ :=
        ih (hseen.collect ins) (hlen ▸ hrest)
      refine ⟨ins :: mid, x, post, seen', by rw [heq, cons_append], ?_, hnot, ?_,
        hcheck, hacc, htemps⟩
      · rw [hj, append_assoc, singleton_append]
      · rwa [append_assoc, singleton_append] at hcov
    rw [findIssue] at h
    split at h
    case isTrue => exact hgo temps hcovers h
    case isFalse hissued =>
      split at h
      case h_1 x hx =>
        split at hx
        case isTrue hcheck =>
          simp only [Prod.mk.injEq, some.injEq] at h
          obtain ⟨⟨hj, hins⟩, htemps⟩ := h
          refine ⟨[], ins, rest, temps, rfl, by simp [← hj],
            Bool.eq_false_iff.2 hissued, by simpa using hcovers, hcheck, ?_, htemps.symm⟩
          rw [← hj, hx, hins]
        case isFalse => cases hx
      case h_2 =>
        exact hgo
          { temps with
            unallocated_memory_op_seen :=
              temps.unallocated_memory_op_seen || ins.func_type.isMemory }
          ⟨hcovers.writes, hcovers.reads⟩ h

theorem IssueTemps.Covers.clear (hcovers : temps.Covers older)
    (hcheck : checkInstructionResources reg_stacks isa_table temps ins = 0) :
    ∀ o ∈ older, Clear o ins := by
  have h := checkInstructionResources_eq_zero_iff.1 hcheck
  intro o ho
  refine ⟨fun kind reg hreg hout => ?_, fun kind reg hreg hout => ?_,
    fun hnot kind reg hreg hin => ?_⟩
  · have hw := ((h kind).2.1 reg hreg).2
    rw [hcovers.writes o ho kind reg hout] at hw
    cases hw
  · have hw := ((h kind).2.2 reg hreg).2
    rw [hcovers.writes o ho kind reg hout] at hw
    cases hw
  · have hr := ((h kind).2.2 reg hreg).1
    rw [hcovers.reads o ho hnot kind reg hin] at hr
    cases hr

/-- The physical registers that one kind of operands names anew. -/
def Operands.writes (operands : Operands) (syscall : Bool) : List (Nat × Nat) :=
  if syscall then [] else operands.isa_regs_out.zip operands.phys_regs_out

/-- The physical registers that one kind of operands took from the stack. -/
def Operands.taken (operands : Operands) (syscall : Bool) : List Nat :=
  if syscall then [] else operands.phys_regs_out

theorem assignKind_spec
    {counted : Nat → Bool} {syscall : Bool} {stack stack' : VanadisRegisterStack}
    {isa_table isa_table' : VanadisISATable} {operands operands' : Operands}
    (htop : -1 ≤ stack.stack_top) (hroom : operands.isa_regs_out.length ≤ stack.unused)
    (h : assignKind counted syscall stack isa_table operands = (operands', stack', isa_table')) :
    operands'.isa_regs_in = operands.isa_regs_in ∧ operands'.isa_regs_out = operands.isa_regs_out ∧
      operands'.phys_regs_in = operands.isa_regs_in.map isa_table.reg_ptr ∧
      operands'.phys_regs_out.length = operands.isa_regs_out.length ∧
      stack'.max_capacity = stack.max_capacity ∧ -1 ≤ stack'.stack_top ∧
      stack.free = stack'.free + (operands'.taken syscall : Multiset Nat) ∧
      isa_table'.reg_ptr = overwrite isa_table.reg_ptr (operands'.writes syscall) ∧
      stack'.regs = stack.regs ∧
      (operands'.taken syscall = [] ∧ stack'.stack_top = stack.stack_top ∨
        0 ≤ stack'.stack_top) := by
  have hreads : (operands.isa_regs_in.foldl (·.incRead counted) isa_table).reg_ptr =
      isa_table.reg_ptr :=
    VanadisISATable.foldl_reg_ptr fun _ _ => VanadisISATable.incRead_reg_ptr
  unfold assignKind at h
  cases syscall with
  | true =>
    obtain ⟨rfl, rfl, rfl⟩ := h
    refine ⟨rfl, rfl, rfl, by simp, rfl, htop, by simp [Operands.taken], ?_, rfl,
      .inl ⟨rfl, rfl⟩⟩
    rw [VanadisISATable.foldl_reg_ptr fun _ _ => VanadisISATable.incWrite_reg_ptr, hreads]
    rfl
  | false =>
    simp only [Bool.false_eq_true, if_false, Prod.mk.injEq] at h
    obtain ⟨rfl, hstack, htable⟩ := h
    obtain ⟨hlen, hcap, hnext, hfree, hptr⟩ := takeRegisters_spec
      (VanadisRegisterStack.le_stack_top_of_le_unused htop hroom) (Eq.refl
        (takeRegisters counted stack
          (operands.isa_regs_in.foldl (·.incRead counted) isa_table) operands.isa_regs_out))
    have hle := VanadisRegisterStack.le_stack_top_of_le_unused htop hroom
    rw [← hstack, ← htable]
    have hleft : -1 ≤ stack.stack_top - operands.isa_regs_out.length := by omega
    refine ⟨rfl, rfl, rfl, hlen, hcap, hleft.trans_eq hnext.symm, hfree, ?_,
      takeRegisters_stack.2.1, ?_⟩
    · rw [hptr, hreads]
      rfl
    · by_cases hnone : operands.isa_regs_out.length = 0
      · refine .inl ⟨length_eq_zero_iff.1 (hlen.trans hnone), ?_⟩
        rw [hnext, hnone]
        simp
      · refine .inr ?_
        have hroom' := hroom
        unfold VanadisRegisterStack.unused at hroom'
        split at hroom'
        · exact (by omega : 0 ≤ stack.stack_top - operands.isa_regs_out.length).trans_eq
            hnext.symm
        · omega

variable {hw_threads : Nat}

structure Issues
    (core core' : VanadisComponent Op hw_threads) (thr : Fin hw_threads)
    (before post : List (VanadisInstruction Op)) (ins ins' : VanadisInstruction Op) :
    Prop where
  rob : (core.threads thr).rob = before ++ ins :: post
  not_issued : ins.hasIssued = false
  in_set : ins.InSet (core.threads thr).isa_options
  clear : ∀ older ∈ before, Clear older ins
  issued : ins'.hasIssued = true
  func_type : ins'.func_type = ins.func_type
  op : ins'.op = ins.op
  ins_address : ins'.ins_address = ins.ins_address
  speculation : ins'.speculation = ins.speculation
  executed : ins'.hasExecuted = ins.hasExecuted ∨
    ins'.hasExecuted = true ∧ (ins.func_type = .INST_NOOP ∨ ins.func_type = .INST_FAULT)
  isa_in : ∀ kind, (ins'.regs kind).isa_regs_in = (ins.regs kind).isa_regs_in
  isa_out : ∀ kind, (ins'.regs kind).isa_regs_out = (ins.regs kind).isa_regs_out
  phys_in : ∀ kind, (ins'.regs kind).phys_regs_in =
    (ins.regs kind).isa_regs_in.map ((core.threads thr).issue_isa_table kind).reg_ptr
  phys_out_length : ∀ kind,
    (ins'.regs kind).phys_regs_out.length = (ins.regs kind).isa_regs_out.length
  capacity : ∀ kind,
    (core'.register_stack kind).max_capacity = (core.register_stack kind).max_capacity
  stack_top : ∀ kind, -1 ≤ (core'.register_stack kind).stack_top
  free : ∀ kind, (core.register_stack kind).free =
    (core'.register_stack kind).free + ((ins'.regs kind).taken ins.isSyscall : Multiset Nat)
  bottom : ∀ kind, (core'.register_stack kind).regs = (core.register_stack kind).regs ∧
    ((ins'.regs kind).taken ins.isSyscall = [] ∧
        (core'.register_stack kind).stack_top = (core.register_stack kind).stack_top ∨
      0 ≤ (core'.register_stack kind).stack_top)
  threads : core'.threads = update core.threads thr
    { core.threads thr with
      rob := before ++ ins' :: post
      issue_isa_table := (core'.threads thr).issue_isa_table }
  issue_ptr : ∀ kind, ((core'.threads thr).issue_isa_table kind).reg_ptr =
    overwrite ((core.threads thr).issue_isa_table kind).reg_ptr
      ((ins'.regs kind).writes ins.isSyscall)

namespace VanadisComponent

theorem assignRegisters_eq_some
    {opts : VanadisDecoderOptions} {reg_stacks : RegisterKind → VanadisRegisterStack}
    {isa_table : RegisterKind → VanadisISATable}
    {assigned : VanadisInstruction Op × (RegisterKind → VanadisRegisterStack) ×
      (RegisterKind → VanadisISATable)}
    (h : assignRegistersToInstruction opts reg_stacks isa_table ins = some assigned) :
    ins.InSet opts ∧ ∃ regs, assigned.1 = { ins with regs := regs } ∧ ∀ kind,
        assignKind (opts.counted kind) ins.isSyscall (reg_stacks kind) (isa_table kind)
            (ins.regs kind) =
          (regs kind, assigned.2.1 kind, assigned.2.2 kind) := by
  unfold assignRegistersToInstruction at h
  split at h
  case isTrue hin =>
    obtain rfl := (some.inj h).symm
    exact ⟨hin, _, rfl, fun _ => rfl⟩
  case isFalse => cases h

/-- The issue stage has found an instruction of the thread that is clear of all older ones,
and has given it registers. -/
structure Finds
    (core core' : VanadisComponent Op hw_threads) (thr : Fin hw_threads)
    (accepts : Nat → Bool) (temps temps' : IssueTemps)
    (before post : List (VanadisInstruction Op)) (ins found ins' : VanadisInstruction Op) :
    Prop where
  rob : (core.threads thr).rob = before ++ ins :: post
  find : ∃ seen, findIssue core.register_stack (core.threads thr).issue_isa_table accepts temps
      temps.rob_start ((core.threads thr).rob.drop temps.rob_start) =
    (some (before.length, found), seen) ∧ temps' = { seen with rob_start := before.length }
  not_issued : ins.hasIssued = false
  clear : ∀ older ∈ before, Clear older ins
  room : ∀ kind, (ins.regs kind).isa_regs_out.length ≤ (core.register_stack kind).unused
  in_set : ins.InSet (core.threads thr).isa_options
  executed : found = ins ∨ found = ins.markExecuted ∧
    (ins.func_type = .INST_NOOP ∨ ins.func_type = .INST_FAULT)
  assigned : ∃ regs, ins' = ({ found with regs := regs } : VanadisInstruction Op).markIssued ∧
    ∀ kind, assignKind ((core.threads thr).isa_options.counted kind) ins.isSyscall
        (core.register_stack kind) ((core.threads thr).issue_isa_table kind) (ins.regs kind) =
      (regs kind, core'.register_stack kind, (core'.threads thr).issue_isa_table kind)
  threads : core'.threads = update core.threads thr
    { core.threads thr with
      rob := before ++ ins' :: post
      issue_isa_table := (core'.threads thr).issue_isa_table }
  covers : temps'.Covers before

variable {core core' : VanadisComponent Op hw_threads} {temps temps' : IssueTemps}
variable {thr : Fin hw_threads}

theorem performIssue_finds (hstart : temps.rob_start ≤ (core.threads thr).rob.length)
    (hcovers : temps.Covers ((core.threads thr).rob.take temps.rob_start))
    (h : core.performIssue temps thr accepts = some (core', temps')) :
    (core' = core ∧ temps'.blocked = true) ∨ ∃ before post ins found ins',
        Finds core core' thr accepts temps temps' before post ins found ins' := by
  unfold performIssue at h
  dsimp only at h
  split at h
  case isTrue =>
    cases h
    exact .inl ⟨rfl, rfl⟩
  case isFalse =>
    split at h
    case h_1 =>
      cases h
      exact .inl ⟨rfl, rfl⟩
    case h_2 j found seen hfind =>
      obtain ⟨assigned, hassign, hnext⟩ := map_eq_some_iff.1 h
      have hlen : ((core.threads thr).rob.take temps.rob_start).length = temps.rob_start := by
        rw [length_take, min_eq_left hstart]
      obtain ⟨mid, ins, post, seen', hrest, hj, hnot, hcov, hcheck, halloc, hseen⟩ :=
        findIssue_spec hcovers (by rw [hlen]; exact hfind)
      obtain ⟨before, hbefore⟩ :
          ∃ b, b = (core.threads thr).rob.take temps.rob_start ++ mid := ⟨_, rfl⟩
      rw [← hbefore] at hj hcov
      subst hj
      have hrob : (core.threads thr).rob = before ++ ins :: post := by
        rw [hbefore, append_assoc, ← hrest, take_append_drop]
      obtain ⟨hin, regs, hregs, hkind⟩ := assignRegisters_eq_some hassign
      cases hnext
      have hfound := allocateInOrder_eq_some halloc
      obtain ⟨hsame, htype⟩ : found.regs = ins.regs ∧ found.func_type = ins.func_type := by
        rcases hfound with rfl | ⟨rfl, -⟩ <;> exact ⟨rfl, rfl⟩
      have hsys : found.isSyscall = ins.isSyscall := by
        rw [VanadisInstruction.isSyscall, htype, VanadisInstruction.isSyscall]
      have hset : (core.threads thr).rob.set before.length assigned.1.markIssued =
          before ++ assigned.1.markIssued :: post := by
        rw [hrob, set_append_right _ _ le_rfl, Nat.sub_self, set_cons_zero]
      have hall := hcov.collect ins
      rw [← hseen] at hall
      refine .inr ⟨before, post, ins, found, assigned.1.markIssued, ?_⟩
      simp only [hset]
      exact {
        rob := hrob
        find := ⟨seen, hfind, rfl⟩
        not_issued := hnot
        clear := hcov.clear hcheck
        room := fun kind => (checkInstructionResources_eq_zero_iff.1 hcheck kind).1
        in_set := fun kind => hsame ▸ hin kind
        executed := hfound
        assigned := ⟨regs, by rw [hregs], fun kind => by
          simp only [setThread, update_self]
          exact hsame ▸ hsys ▸ hkind kind⟩
        threads := by simp only [setThread, update_self]
        covers := ⟨fun x hx => hall.writes x (mem_append_left _ hx),
          fun x hx => hall.reads x (mem_append_left _ hx)⟩ }

theorem performIssue_spec (htop : ∀ kind, -1 ≤ (core.register_stack kind).stack_top)
    (hstart : temps.rob_start ≤ (core.threads thr).rob.length)
    (hcovers : temps.Covers ((core.threads thr).rob.take temps.rob_start))
    (h : core.performIssue temps thr accepts = some (core', temps')) :
    (core' = core ∧ temps'.blocked = true) ∨
      ∃ before post ins ins', Issues core core' thr before post ins ins' ∧
        temps'.rob_start = before.length ∧ temps'.Covers before := by
  refine (performIssue_finds hstart hcovers h).imp_right ?_
  rintro ⟨before, post, ins, found, ins', hfinds⟩
  obtain ⟨seen, -, rfl⟩ := hfinds.find
  refine ⟨before, post, ins, ins', ?_, rfl, hfinds.covers⟩
  obtain ⟨regs, rfl, hkind⟩ := hfinds.assigned
  have hassigned := fun kind => assignKind_spec (htop kind) (hfinds.room kind) (hkind kind)
  have hfound : found.func_type = ins.func_type ∧ found.op = ins.op ∧
      found.ins_address = ins.ins_address ∧ found.speculation = ins.speculation ∧
      (found.hasExecuted = ins.hasExecuted ∨ found.hasExecuted = true ∧
        (ins.func_type = .INST_NOOP ∨ ins.func_type = .INST_FAULT)) := by
    rcases hfinds.executed with rfl | ⟨rfl, hnoop⟩
    · exact ⟨rfl, rfl, rfl, rfl, .inl rfl⟩
    · exact ⟨rfl, rfl, rfl, rfl, .inr ⟨rfl, hnoop⟩⟩
  obtain ⟨htype, hop, haddr, hspec, hexec⟩ := hfound
  exact { hfinds with
    issued := rfl
    func_type := htype
    op := hop
    ins_address := haddr
    speculation := hspec
    executed := hexec
    isa_in := fun kind => (hassigned kind).1
    isa_out := fun kind => (hassigned kind).2.1
    phys_in := fun kind => (hassigned kind).2.2.1
    phys_out_length := fun kind => (hassigned kind).2.2.2.1
    capacity := fun kind => (hassigned kind).2.2.2.2.1
    stack_top := fun kind => (hassigned kind).2.2.2.2.2.1
    free := fun kind => (hassigned kind).2.2.2.2.2.2.1
    bottom := fun kind => (hassigned kind).2.2.2.2.2.2.2.2
    issue_ptr := fun kind => (hassigned kind).2.2.2.2.2.2.2.1 }

end VanadisComponent

end SstElements.Vanadis
