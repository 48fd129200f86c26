import SstElements.Vanadis.BottomRegister
import SstElements.Vanadis.FetchedPath

/-!
# The core retires the sequential result

After every step the registers that the retire table maps have the values that the
sequential machine has after as many instructions as have retired, provided the
instructions that retire write all their outputs and delay slots hold one
micro-operation.
-/

namespace SstElements.Vanadis

open Library Function List Option

universe u v

variable {Op : Type u} {Word : Type v} {hw_threads : Nat} {front : VanadisInstruction Op}

section Threads

variable [Zero Word]

/-- A thread is on the way of the sequential machine in state `s`. -/
structure HwThread.OnWay
    (program : Program Op) (sem : Semantics Op Word) (s : Sequential Op Word) (ip : Nat)
    (file : RegisterKind → Nat → Word) (thread : HwThread Op) : Prop where
  faithful : Faithful thread.isa_options sem thread.rob
    (fun kind => (thread.retire_isa_table kind).reg_ptr) file s.regs
  within : program.Within s.pending
  fetched : Fetched program ip s.pending s.next thread.rob

variable {program : Program Op} {sem : Semantics Op Word} {s : Sequential Op Word} {ip : Nat}
variable {file : RegisterKind → Nat → Word} {thread : HwThread Op}

theorem HwThread.OnWay.scope (h : thread.OnWay program sem s ip file) :
    ∀ ins ∈ thread.rob, ins.isSyscall = false ∧ ins.func_type ≠ .INST_FAULT ∧
      (ins.func_type = .INST_NOOP →
        (∀ kind, (ins.regs kind).isa_regs_out = []) ∧ ins.speculation = none) ∧
      (∀ sp, ins.speculation = some sp → ins.hasDelaySlot = program.delay_slots) := by
  intro ins hins
  obtain ⟨uop, ⟨addr, huop⟩, hdec⟩ := h.fetched.decodes h.within.has ins hins
  obtain ⟨-, hsys, hfault⟩ := program.in_scope addr uop huop
  refine ⟨?_, by rw [hdec.func_type]; exact hfault, fun hnoop => ?_, fun sp hsp => ?_⟩
  · rw [VanadisInstruction.isSyscall, hdec.func_type, decide_eq_false_iff_not]
    exact hsys
  · obtain ⟨hnone, hout⟩ := program.no_op addr uop huop (hdec.func_type ▸ hnoop)
    refine ⟨fun kind => (hdec.isa_out kind).trans (hout kind), ?_⟩
    have hbranch := hdec.branch
    rw [hnone, map_none, map_eq_none_iff] at hbranch
    exact hbranch
  · have hbranch := hdec.branch
    rw [hsp, map_some] at hbranch
    obtain ⟨b, hb, hdelay⟩ := map_eq_some_iff.1 hbranch.symm
    have hiff := program.branch_delay addr uop huop b hb
    rw [VanadisInstruction.hasDelaySlot, hsp]
    cases htype : sp.delayType <;> simp_all

variable {ins ins' : VanadisInstruction Op} {rest : List (VanadisInstruction Op)}
variable {ptr' : RegisterKind → Nat → Nat} {s' : Sequential Op Word}

section

variable (h : thread.OnWay program sem s ip file)
include h

theorem HwThread.OnWay.delay_plain {sp : VanadisSpeculation} (hins : ins ∈ thread.rob)
    (hsp : ins.speculation = some sp) (hslots : program.delay_slots = true) :
    ∀ uop ∈ program.delayBundle ins.ins_address, uop.branch = none := by
  obtain ⟨uop, ⟨addr, huop⟩, hdec⟩ := h.fetched.decodes h.within.has ins hins
  have hbranch := hdec.branch
  rw [hsp, map_some] at hbranch
  obtain ⟨b, hb, -⟩ := map_eq_some_iff.1 hbranch.symm
  have hends := (Program.eq_concat_of_branch huop (by simp [hb])).2
  rw [hdec.ins_address, program.address addr uop huop]
  exact program.delay_plain hslots addr hends

theorem HwThread.OnWay.append {predicted ip' : Nat} (hne : program.group ip ≠ [])
    (hip : ip' = if (program.bundleAt ip).endsInBranch then predicted
      else program.fallThrough ip) :
    HwThread.OnWay program sem s ip' file
      { thread with
        rob := thread.rob ++ ((program.group ip).map (·.setSpeculatedAddress predicted)).map
          MicroOp.clone } := by
  have hnew : ∀ ins ∈ ((program.group ip).map (·.setSpeculatedAddress predicted)).map
      MicroOp.clone, ins.hasIssued = false ∧ ins.hasExecuted = false := by
    intro ins hins
    obtain ⟨uop, -, rfl⟩ := List.mem_map.1 hins
    exact ⟨rfl, rfl⟩
  exact {
    faithful := h.faithful.append (fun ins hins => (hnew ins hins).1)
      fun ins hins => (hnew ins hins).2
    within := h.within
    fetched := h.fetched.append hne hip }

theorem HwThread.OnWay.execute {j : Nat} {file' : RegisterKind → Nat → Word} (hsound : thread.Sound)
    (hown : OwnRegisters thread.isa_options thread.rob
      fun kind => (thread.retire_isa_table kind).reg_ptr)
    (hj : thread.rob[j]? = some ins) (hissued : ins.hasIssued = true)
    (hnot : ins.hasExecuted = false)
    (hfile : ∀ kind, file' kind = setRegs thread.isa_options kind (file kind)
      (written (ins.regs kind).phys_regs_out
        (sem.compute ins.op (inputsOf thread.isa_options file ins) kind))) :
    HwThread.OnWay program sem s ip file'
      { thread with
        rob := thread.rob.set j (ins.setTakenAddress
          (sem.target ins.op (inputsOf thread.isa_options file ins))).markExecuted } where
  faithful := h.faithful.execute hsound.in_set (fun x hx => (h.scope x hx).1) hown hj hissued
    hnot hfile
  within := h.within
  fetched := by
    refine h.fetched.congr ?_
    obtain ⟨hlt, hget⟩ := List.getElem?_eq_some_iff.1 hj
    refine forall₂_iff_get.2 ⟨by simp, fun i hi hi' => ?_⟩
    simp only [get_eq_getElem, getElem_set]
    split
    case isTrue heq =>
      subst heq
      rw [hget]
      refine ⟨fun uop hdec => ⟨hdec.ins_address, hdec.op, hdec.func_type, hdec.isa_in,
        hdec.isa_out, ?_⟩, fun next => ?_⟩
      · rw [← hdec.branch]
        cases hsp : ins.speculation <;>
          simp [VanadisInstruction.setTakenAddress, VanadisInstruction.markExecuted, hsp]
      · cases hsp : ins.speculation <;>
          simp [VanadisInstruction.predictedNext, VanadisInstruction.setTakenAddress,
            VanadisInstruction.markExecuted, hsp]
    case isFalse => exact ⟨fun _ => id, fun _ => rfl⟩

end

def HwThread.ZeroCleared (thread : HwThread Op) (file : RegisterKind → Nat → Word) : Prop :=
  thread.isa_options.reg_ignore_writes < thread.isa_options.count_isa_reg .int →
    getReg thread.isa_options file .int ((thread.issue_isa_table .int).reg_ptr
        thread.isa_options.reg_ignore_writes) = 0 ∨
      thread.isa_options.reg_ignore_writes ∈ (renamesOf thread.rob .int).map Prod.fst

variable {core core' : VanadisComponent Op hw_threads} {before post : List (VanadisInstruction Op)}
variable {thr : Fin hw_threads}

theorem notMem_renamesOf_issues (hsound : (core.threads thr).Sound)
    (hissues : Issues core core' thr before post ins ins') {kind : RegisterKind} {reg : Nat}
    (hreg : reg ∈ (ins.regs kind).isa_regs_in) :
    reg ∉ (renamesOf (core.threads thr).rob kind).map Prod.fst := by
  intro hmem
  obtain ⟨w, hw, rfl⟩ := List.mem_map.1 hmem
  obtain ⟨x, hx, hissued, hout, -⟩ := mem_renamesOf hw
  have hclear := hsound.clear
  rw [hissues.rob, pairwise_append, pairwise_cons] at hclear
  rw [hissues.rob, mem_append, mem_cons] at hx
  rcases hx with hx | rfl | hx
  · exact (hissues.clear x hx).reads kind _ hreg hout
  · rw [hissues.not_issued] at hissued
    cases hissued
  · exact (hclear.2.1.1 x hx hissued).unread hissues.not_issued kind _ hout hreg

variable {ins ins' : VanadisInstruction Op}

theorem HwThread.OnWay.issue (h : (core.threads thr).OnWay program sem s ip file)
    (hsound : (core.threads thr).Sound) (hzero : (core.threads thr).ZeroCleared file)
    (hissues : Issues core core' thr before post ins ins') :
    (core'.threads thr).OnWay program sem s ip file := by
  have hins : ins ∈ (core.threads thr).rob := by simp [hissues.rob]
  obtain ⟨-, hfault, hnoop, -⟩ := h.scope ins hins
  -- what it reads is what the retire table maps
  have hmapped : ∀ kind, ∀ reg ∈ (ins.regs kind).isa_regs_in,
      ((core.threads thr).issue_isa_table kind).reg_ptr reg =
        ((core.threads thr).retire_isa_table kind).reg_ptr reg := fun kind reg hreg => by
    rw [hsound.replay, overwrite_of_notMem (notMem_renamesOf_issues hsound hissues hreg)]
  rw [hissues.threads, update_self]
  exact {
    faithful := by
      refine @Faithful.issue _ _ _ _ _ _ _ _ before post ins ins' (hissues.rob ▸ h.faithful)
        hissues.issued (fun kind => ?_) (fun kind reg hreg hc => ?_) fun hexec => ?_
      · rw [hissues.phys_in, hissues.isa_in]
        exact map_congr_left (hmapped kind)
      · rw [hissues.isa_in] at hreg
        cases kind with
        | fp => cases hc
        | int =>
          have heq : reg = (core.threads thr).isa_options.reg_ignore_writes := by
            simpa [VanadisDecoderOptions.counted] using hc
          subst heq
          rw [← hmapped .int _ hreg]
          exact (hzero ((hissues.in_set .int).1 _ hreg)).resolve_right
            (notMem_renamesOf_issues hsound hissues hreg)
      · rcases hissues.executed with hsame | ⟨-, htype | htype⟩
        · rw [hsame] at hexec
          have hissued := h.faithful.issued ins hins hexec
          rw [hissues.not_issued] at hissued
          cases hissued
        · refine ⟨fun kind => ?_, ?_⟩
          · rw [hissues.isa_out]
            exact (hnoop htype).1 kind
          · rw [hissues.speculation]
            exact (hnoop htype).2
        · exact absurd htype hfault
    within := h.within
    fetched := by
      have hfetched := h.fetched
      rw [hissues.rob] at hfetched
      have hsame : ∀ rob : List (VanadisInstruction Op), List.Forall₂
          (fun ins ins' : VanadisInstruction Op =>
            (∀ uop, Decodes ins uop → Decodes ins' uop) ∧
              ∀ next, ins'.predictedNext next = ins.predictedNext next) rob rob :=
        fun rob => forall₂_same.2 fun x _ => ⟨fun _ => id, fun _ => rfl⟩
      refine hfetched.congr (rel_append (hsame before) (List.Forall₂.cons
        ⟨fun uop hdec => ?_, fun next => ?_⟩ (hsame post)))
      · exact {
          ins_address := hissues.ins_address.trans hdec.ins_address
          op := hissues.op.trans hdec.op
          func_type := hissues.func_type.trans hdec.func_type
          isa_in := fun kind => (hissues.isa_in kind).trans (hdec.isa_in kind)
          isa_out := fun kind => (hissues.isa_out kind).trans (hdec.isa_out kind)
          branch := by rw [hissues.speculation, hdec.branch] }
      · rw [VanadisInstruction.predictedNext, VanadisInstruction.predictedNext,
          hissues.speculation] }

theorem HwThread.ZeroCleared.issue (h : (core.threads thr).ZeroCleared file)
    (hissues : Issues core core' thr before post ins ins') :
    (core'.threads thr).ZeroCleared file := by
  have hsys : ins'.isSyscall = ins.isSyscall := by
    rw [VanadisInstruction.isSyscall, hissues.func_type, VanadisInstruction.isSyscall]
  have hptr := hissues.issue_ptr .int
  have hnew : ins'.renames .int = (ins'.regs .int).writes ins.isSyscall := by
    rw [VanadisInstruction.renames, hissues.issued, if_pos rfl, hsys]
  have hold : ins.renames .int = [] := VanadisInstruction.renames_of_not_issued hissues.not_issued
  have hmem : ∀ reg, reg ∈ (renamesOf (before ++ ins' :: post) .int).map Prod.fst ↔
      reg ∈ (renamesOf (core.threads thr).rob .int).map Prod.fst ∨
        reg ∈ ((ins'.regs .int).writes ins.isSyscall).map Prod.fst := by
    intro reg
    rw [hissues.rob]
    simp only [renamesOf, flatMap_append, flatMap_cons, hnew, hold, map_append,
      mem_append, map_nil, not_mem_nil, false_or]
    tauto
  have hoptions : (core'.threads thr).isa_options = (core.threads thr).isa_options := by
    rw [hissues.threads, update_self]
  have hrob : (core'.threads thr).rob = before ++ ins' :: post := by
    rw [hissues.threads, update_self]
  unfold HwThread.ZeroCleared
  rw [hoptions, hrob, hptr, hmem]
  intro hlt
  by_cases hwrites : (core.threads thr).isa_options.reg_ignore_writes ∈
      ((ins'.regs .int).writes ins.isSyscall).map Prod.fst
  · exact .inr (.inr hwrites)
  · rw [overwrite_of_notMem hwrites]
    exact (h hlt).imp_right Or.inl

theorem HwThread.OnWay.retire
    (h : thread.OnWay program sem s ip file) (hsound : thread.Sound)
    (hrob : thread.rob = front :: rest) (hissued : front.hasIssued = true)
    (hexecuted : front.hasExecuted = true) (hwrites : WritesAll thread.isa_options sem file front)
    (hptr : ∀ kind, ptr' kind =
      overwrite (thread.retire_isa_table kind).reg_ptr (front.renames kind))
    (hs' : s' = s.step thread.isa_options program sem) :
    Faithful thread.isa_options sem rest ptr' file s'.regs ∧ program.Within s'.pending ∧
      Fetched program ip s'.pending (front.predictedNext s'.next) rest ∧
      ∀ sp, front.speculation = some sp → s'.next = sp.takenAddress ∧ s'.pending =
          if program.delay_slots then program.delayBundle front.ins_address else [] := by
  have hfront : front ∈ thread.rob := by simp [hrob]
  have hsys := (h.scope front hfront).1
  have hfetched := h.fetched
  rw [hrob] at hfetched
  obtain ⟨uop, pending, next, hstep, hdec, ⟨addr, hsuffix⟩, hrest⟩ :=
    @Fetched.step _ _ _ _ _ thread.isa_options sem _ _ _ hfetched h.within
  rw [hstep] at hs'
  have hinputs : inputsOf thread.isa_options file front =
      Sequential.inputs thread.isa_options s uop :=
    h.faithful.inputsOf_eq hfront hissued (hsound.in_set front hfront hissued) hdec
  have hfaithful := h.faithful
  rw [hrob] at hfaithful
  refine ⟨?_, ⟨addr, ?_⟩, ?_, fun sp hsp => ?_⟩
  · have hset := hsound.in_set
    rw [hrob] at hset
    have hclear := hsound.clear
    rw [hrob, pairwise_cons] at hclear
    rw [hs']
    refine hfaithful.retire hset hissued hexecuted hdec hclear.1
      (hsound.phys_out_length front hfront hissued) hwrites fun kind => ?_
    rw [hptr, VanadisInstruction.renames, if_pos hissued, Operands.writes, hsys,
      if_neg Bool.false_ne_true]
  · rw [hs']
    exact (suffix_cons uop pending).trans hsuffix
  · rw [hs']
    have hbranch := hdec.branch
    cases hsp : front.speculation with
    | some sp =>
      rw [VanadisInstruction.predictedNext, hsp] at hrest ⊢
      exact hrest
    | none =>
      rw [hsp, map_none] at hbranch
      have hnone := map_eq_none_iff.1 hbranch.symm
      rw [Sequential.execute, hnone]
      exact hrest
  · have hbranch := hdec.branch
    rw [hsp, map_some] at hbranch
    obtain ⟨b, hb, -⟩ := map_eq_some_iff.1 hbranch.symm
    have hsome : uop.branch.isSome = true := by simp [hb]
    obtain ⟨haddr, hpending⟩ := Program.delay_of_suffix hsuffix hsome
    rw [hs', Sequential.execute, if_pos hsome, hdec.ins_address, haddr]
    refine ⟨?_, hpending⟩
    rw [h.faithful.targets front hfront hexecuted sp hsp, hinputs, hdec.op]

theorem Faithful.retire_delay {opts : VanadisDecoderOptions} {delay : VanadisInstruction Op}
    {ptr : RegisterKind → Nat → Nat} {uop : MicroOp Op} {more : List (MicroOp Op)} {next : Nat}
    (h : Faithful opts sem (delay :: rest) ptr file s.regs)
    (hset : ∀ ins ∈ delay :: rest, ins.hasIssued = true → ins.InSet opts)
    (hissued : delay.hasIssued = true) (hexecuted : delay.hasExecuted = true)
    (hsys : delay.isSyscall = false) (hclear : ∀ ins ∈ rest, ins.hasIssued = true → Clear delay ins)
    (hlen : ∀ kind, (delay.regs kind).phys_regs_out.length = (delay.regs kind).isa_regs_out.length)
    (hwrites : WritesAll opts sem file delay)
    (hptr : ∀ kind, ptr' kind = overwrite (ptr kind) (delay.renames kind))
    (hpending : s.pending = uop :: more) (hplain : uop.branch = none)
    (hfetched : Fetched program ip s.pending next (delay :: rest))
    (hs' : s' = s.step opts program sem) :
    Faithful opts sem rest ptr' file s'.regs ∧ s'.pending = more ∧ s'.next = s.next := by
  rw [hpending] at hfetched
  cases hfetched with
  | take hdec hrest =>
    have hstep : s' = s.execute opts sem uop more s.next := by rw [hs', Sequential.step, hpending]
    refine ⟨?_, by rw [hstep]; rfl, ?_⟩
    · rw [hstep]
      refine h.retire hset hissued hexecuted hdec hclear hlen hwrites fun kind => ?_
      rw [hptr, VanadisInstruction.renames, if_pos hissued, Operands.writes, hsys,
        if_neg Bool.false_ne_true]
    · rw [hstep, Sequential.execute, hplain]
      rfl

/-- Two buffers that differ in which instructions are marked as having been at the
front. -/
def Marked (ins ins' : VanadisInstruction Op) : Prop :=
  ins' = { ins with isFrontOfROB := ins'.isFrontOfROB }

theorem Marked.refl (ins : VanadisInstruction Op) : Marked ins ins := by
  rfl

theorem Marked.similar (h : Marked ins ins') : VanadisInstruction.Similar ins ins' := by
  rw [h]
  exact ⟨rfl, rfl, rfl⟩

theorem marked_front (ins : VanadisInstruction Op) : Marked ins ins.markFrontOfROB := by
  rfl

theorem marked_refl (rob : List (VanadisInstruction Op)) : List.Forall₂ Marked rob rob :=
  forall₂_same.2 fun ins _ => Marked.refl ins

theorem HwThread.OnWay.mark {rob : List (VanadisInstruction Op)}
    (h : thread.OnWay program sem s ip file) (hrob : List.Forall₂ Marked thread.rob rob) :
    HwThread.OnWay program sem s ip file { thread with rob := rob } := by
  have hmem : ∀ ins' ∈ rob, ∃ ins ∈ thread.rob, Marked ins ins' := by
    intro ins' hins'
    obtain ⟨j, hj, rfl⟩ := mem_iff_getElem.1 hins'
    have hj' : j < thread.rob.length := by rwa [hrob.length_eq]
    exact ⟨thread.rob[j], getElem_mem hj', hrob.get hj' hj⟩
  exact {
    faithful := {
      issued := fun ins' hins' => by
        obtain ⟨ins, hins, hmark⟩ := hmem ins' hins'
        rw [hmark]
        exact h.faithful.issued ins hins
      reads := fun ins' hins' => by
        obtain ⟨ins, hins, hmark⟩ := hmem ins' hins'
        rw [hmark]
        exact h.faithful.reads ins hins
      zero := fun ins' hins' => by
        obtain ⟨ins, hins, hmark⟩ := hmem ins' hins'
        rw [hmark]
        exact h.faithful.zero ins hins
      results := fun ins' hins' => by
        obtain ⟨ins, hins, hmark⟩ := hmem ins' hins'
        rw [hmark]
        exact h.faithful.results ins hins
      targets := fun ins' hins' => by
        obtain ⟨ins, hins, hmark⟩ := hmem ins' hins'
        rw [hmark]
        exact h.faithful.targets ins hins
      agrees := h.faithful.agrees }
    within := h.within
    fetched := h.fetched.congr (hrob.imp fun ins ins' hmark => by
      rw [hmark]
      exact ⟨fun uop hdec => ⟨hdec.ins_address, hdec.op, hdec.func_type, hdec.isa_in,
        hdec.isa_out, hdec.branch⟩, fun _ => rfl⟩) }

end Threads

section Retire

variable [Zero Word]
variable {program : Program Op} {sem : Semantics Op Word} {s s' : Sequential Op Word} {ip : Nat}
variable {file : RegisterKind → Nat → Word}
variable {core : VanadisComponent Op hw_threads} {thr : Fin hw_threads}

theorem VanadisInstruction.predictedNext_of_not_mispredicted
    {ins : VanadisInstruction Op} {next : Nat} (hnot : ins.mispredicted = false)
    (htaken : ∀ sp, ins.speculation = some sp → next = sp.takenAddress) :
    ins.predictedNext next = next := by
  cases hsp : ins.speculation with
  | none => simp [VanadisInstruction.predictedNext, hsp]
  | some sp =>
    rw [VanadisInstruction.mispredicted, hsp] at hnot
    rw [VanadisInstruction.predictedNext, hsp, htaken sp hsp]
    exact (not_not.1 (of_decide_eq_false hnot)).symm

theorem HwThread.OnWay.recover {rest : List (VanadisInstruction Op)}
    (h : (core.threads thr).OnWay program sem s ip file) (hsound : core.Sound)
    (hrob : (core.threads thr).rob = front :: rest) (hissued : front.hasIssued = true)
    (hexecuted : front.hasExecuted = true)
    (hwrites : WritesAll (core.threads thr).isa_options sem file front)
    (hnot : front.mispredicted = false)
    (hs' : s' = s.step (core.threads thr).isa_options program sem) :
    ((core.recoverRetiredRegisters thr front rest).threads thr).OnWay program sem s' ip
      file := by
  obtain ⟨hoptions, hrest⟩ := @VanadisComponent.recoverRetiredRegisters_thread _ _ core thr
    front rest
  obtain ⟨hfaithful, hwithin, hfetched, hbranch⟩ := h.retire (hsound thr) hrob hissued
    hexecuted hwrites
    (fun kind => (VanadisComponent.recoverRetiredRegisters_spec hissued kind).2.2) hs'
  rw [VanadisInstruction.predictedNext_of_not_mispredicted hnot
    fun sp hsp => (hbranch sp hsp).1] at hfetched
  exact {
    faithful := by
      rw [hoptions, hrest]
      exact hfaithful
    within := hwithin
    fetched := by
      rw [hrest]
      exact hfetched }

theorem HwThread.OnWay.squash (rob : List (VanadisInstruction Op))
    (h : Faithful (core.threads thr).isa_options sem rob
      (fun kind => ((core.threads thr).retire_isa_table kind).reg_ptr) file s.regs)
    (hpending : s.pending = []) (hip : ip = s.next) :
    ((core.handleMisspeculate thr).threads thr).OnWay program sem s ip file := by
  rw [VanadisComponent.handleMisspeculate_threads, update_self]
  exact {
    faithful := h.nil
    within := by
      rw [hpending]
      exact ⟨0, nil_suffix⟩
    fetched := by
      rw [hpending, hip]
      exact Fetched.done }

theorem VanadisComponent.performRetire_cases
    (core : VanadisComponent Op hw_threads) (thr : Fin hw_threads) :
    (retiring (core.threads thr).rob = [] ∧ ∃ rob, List.Forall₂ Marked (core.threads thr).rob rob ∧
          core.performRetire thr false = core.setRob thr rob) ∨
      (∃ front rest, (core.threads thr).rob = front :: rest ∧
        retiring (core.threads thr).rob = [front] ∧
        front.hasIssued = true ∧ front.hasExecuted = true ∧ front.hasDelaySlot = false ∧
        core.performRetire thr false = core.retireFront thr front rest) ∨
      ∃ front delay rest, (core.threads thr).rob = front :: delay :: rest ∧
        retiring (core.threads thr).rob = [front, delay] ∧
        front.hasIssued = true ∧ front.hasExecuted = true ∧ front.hasDelaySlot = true ∧
        delay.hasExecuted = true ∧
        core.performRetire thr false = core.retireWithDelay thr front delay rest := by
  have hself : core.setRob thr (core.threads thr).rob = core := by
    simp [VanadisComponent.setRob, VanadisComponent.setThread]
  have hstay : retiring (core.threads thr).rob = [] →
      core.performRetire thr false = core →
      retiring (core.threads thr).rob = [] ∧ ∃ rob,
        List.Forall₂ Marked (core.threads thr).rob rob ∧
          core.performRetire thr false = core.setRob thr rob := fun hnil hsame =>
    ⟨hnil, _, marked_refl _, hsame.trans hself.symm⟩
  unfold VanadisComponent.performRetire at hstay ⊢
  cases hrob : (core.threads thr).rob with
  | nil =>
    rw [hrob] at hstay
    exact .inl (hstay rfl rfl)
  | cons front rest =>
    rw [hrob] at hstay
    dsimp only at hstay ⊢
    by_cases hready : (front.hasIssued && front.hasExecuted) = true
    · have hboth := Bool.and_eq_true_iff.1 hready
      rw [if_pos hready] at hstay ⊢
      by_cases hslot : front.hasDelaySlot = true
      · rw [if_pos hslot] at hstay ⊢
        cases rest with
        | nil => exact .inl (hstay (by simp [retiring, hready, hslot]) rfl)
        | cons delay rest =>
          dsimp only at hstay ⊢
          by_cases hdone : delay.hasExecuted = true
          · rw [if_pos hdone]
            exact .inr (.inr ⟨front, delay, rest, rfl,
              by simp [retiring, hready, hslot, hdone], hboth.1, hboth.2, hslot, hdone,
              rfl⟩)
          · rw [if_neg hdone]
            exact .inl ⟨by simp [retiring, hready, hslot, hdone], _,
              List.Forall₂.cons (.refl front)
                (List.Forall₂.cons (marked_front delay) (marked_refl rest)),
              rfl⟩
      · rw [if_neg hslot]
        exact .inr (.inl ⟨front, rest, rfl, by simp [retiring, hready, hslot],
          hboth.1, hboth.2, Bool.eq_false_iff.2 hslot, rfl⟩)
    · rw [if_neg hready] at hstay ⊢
      have hnil : retiring (front :: rest) = [] := by simp [retiring, hready]
      refine .inl ?_
      split
      · split
        · exact ⟨hnil, _, List.Forall₂.cons (marked_front front) (marked_refl rest), rfl⟩
        · refine ⟨hnil, _, marked_refl (front :: rest), ?_⟩
          rw [← hrob]
          exact hself.symm
      · exact ⟨hnil, _, List.Forall₂.cons (marked_front front) (marked_refl rest), rfl⟩

end Retire

end SstElements.Vanadis
