import SstElements.Vanadis.Execution

/-!
# The values behind the retire table

The instructions in the buffer of a thread read registers that the retire table
maps, and write registers of their own.  So what the retire table maps changes only
when an instruction retires, and then as the sequential machine says.
-/

namespace SstElements.Vanadis

open Library List Option

universe u v

variable {Op : Type u} {Word : Type v} [Zero Word]

/-- The instruction in the buffer is a copy of the micro-operation, with a
prediction of its own. -/
structure Decodes (ins : VanadisInstruction Op) (uop : MicroOp Op) : Prop where
  ins_address : ins.ins_address = uop.ins_address
  op : ins.op = uop.op
  func_type : ins.func_type = uop.func_type
  isa_in : ∀ kind, (ins.regs kind).isa_regs_in = uop.isa_regs_in kind
  isa_out : ∀ kind, (ins.regs kind).isa_regs_out = uop.isa_regs_out kind
  branch : ins.speculation.map (·.delayType) = uop.branch.map Prod.fst

/-- The values that an instruction reads from a register file. -/
def inputsOf
    (opts : VanadisDecoderOptions) (file : RegisterKind → Nat → Word)
    (ins : VanadisInstruction Op) (kind : RegisterKind) : List Word :=
  (ins.regs kind).phys_regs_in.map (getReg opts file kind)

/-- The value of a register of the instruction set, by a table. -/
def mappedReg
    (opts : VanadisDecoderOptions) (file : RegisterKind → Nat → Word)
    (ptr : RegisterKind → Nat → Nat) (kind : RegisterKind) (reg : Nat) : Word :=
  if opts.counted kind reg then getReg opts file kind (ptr kind reg) else 0

/-- The registers of a thread are its own: mapped ones are different, none of them
is an output, and no output is shared or ignores writes. -/
structure OwnRegisters
    (opts : VanadisDecoderOptions) (rob : List (VanadisInstruction Op))
    (ptr : RegisterKind → Nat → Nat) : Prop where
  mapped : ∀ kind reg reg', reg < opts.count_isa_reg kind → reg' < opts.count_isa_reg kind →
    ptr kind reg = ptr kind reg' → reg = reg'
  disjoint : ∀ kind reg, reg < opts.count_isa_reg kind →
    ptr kind reg ∉ inFlight rob kind
  nodup : ∀ kind, (inFlight rob kind).Nodup
  counted : ∀ kind, ∀ phys ∈ inFlight rob kind, opts.counted kind phys = true

/-- The values in the register file are right for the instructions in the buffer
and the state of the sequential machine. -/
structure Faithful
    (opts : VanadisDecoderOptions) (sem : Semantics Op Word)
    (rob : List (VanadisInstruction Op)) (ptr : RegisterKind → Nat → Nat)
    (file : RegisterKind → Nat → Word) (regs : RegisterKind → Nat → Word) : Prop where
  issued : ∀ ins ∈ rob, ins.hasExecuted = true → ins.hasIssued = true
  reads : ∀ ins ∈ rob, ins.hasIssued = true → ∀ kind,
    (ins.regs kind).phys_regs_in = (ins.regs kind).isa_regs_in.map (ptr kind)
  zero : ∀ ins ∈ rob, ins.hasIssued = true → ∀ kind,
    ∀ reg ∈ (ins.regs kind).isa_regs_in, opts.counted kind reg = false →
      getReg opts file kind (ptr kind reg) = 0
  results : ∀ ins ∈ rob, ins.hasExecuted = true → ∀ kind (i : Nat) reg phys value,
    (ins.regs kind).isa_regs_out[i]? = some reg →
    (ins.regs kind).phys_regs_out[i]? = some phys →
    (sem.compute ins.op (inputsOf opts file ins) kind)[i]? = some (some value) →
    opts.counted kind reg = true → getReg opts file kind phys = value
  targets : ∀ ins ∈ rob, ins.hasExecuted = true → ∀ s, ins.speculation = some s →
    s.takenAddress = sem.target ins.op (inputsOf opts file ins)
  agrees : ∀ kind reg, reg < opts.count_isa_reg kind →
    mappedReg opts file ptr kind reg = getReg opts regs kind reg

variable {opts : VanadisDecoderOptions} {sem : Semantics Op Word}
variable {rob : List (VanadisInstruction Op)} {ptr : RegisterKind → Nat → Nat}
variable {file file' regs : RegisterKind → Nat → Word}

/-- An empty buffer. -/
theorem Faithful.nil (h : Faithful opts sem rob ptr file regs) :
    Faithful opts sem [] ptr file regs where
  issued := by simp
  reads := by simp
  zero := by simp
  results := by simp
  targets := by simp
  agrees := h.agrees

theorem Faithful.append (h : Faithful opts sem rob ptr file regs)
    {new : List (VanadisInstruction Op)} (hissued : ∀ ins ∈ new, ins.hasIssued = false)
    (hexecuted : ∀ ins ∈ new, ins.hasExecuted = false) :
    Faithful opts sem (rob ++ new) ptr file regs := by
  have hold : ∀ ins ∈ rob ++ new, ins.hasIssued = true → ins ∈ rob := by
    intro ins hins h1
    rcases mem_append.1 hins with hins | hins
    · exact hins
    · rw [hissued ins hins] at h1
      cases h1
  have hold' : ∀ ins ∈ rob ++ new, ins.hasExecuted = true → ins ∈ rob := by
    intro ins hins h1
    rcases mem_append.1 hins with hins | hins
    · exact hins
    · rw [hexecuted ins hins] at h1
      cases h1
  exact {
    issued := fun ins hins hx => h.issued ins (hold' ins hins hx) hx
    reads := fun ins hins hx => h.reads ins (hold ins hins hx) hx
    zero := fun ins hins hx => h.zero ins (hold ins hins hx) hx
    results := fun ins hins hx => h.results ins (hold' ins hins hx) hx
    targets := fun ins hins hx => h.targets ins (hold' ins hins hx) hx
    agrees := h.agrees }

variable {ins : VanadisInstruction Op} {uop : MicroOp Op} {kind : RegisterKind} {i phys : Nat}

theorem Faithful.inputsOf_eq (h : Faithful opts sem rob ptr file regs) (hins : ins ∈ rob)
    (hissued : ins.hasIssued = true) (hset : ins.InSet opts) (hdec : Decodes ins uop)
    {pending : List (MicroOp Op)} {next : Nat} :
    inputsOf opts file ins =
      Sequential.inputs opts { regs := regs, pending := pending, next := next } uop := by
  funext kind
  rw [inputsOf, h.reads ins hins hissued kind, Sequential.inputs, List.map_map, ← hdec.isa_in kind]
  refine map_congr_left fun reg hreg => ?_
  have hagrees := h.agrees kind reg ((hset kind).1 reg hreg)
  rw [mappedReg] at hagrees
  cases hcounted : opts.counted kind reg with
  | true =>
    rw [hcounted, if_pos rfl] at hagrees
    exact hagrees
  | false =>
    rw [hcounted, if_neg Bool.false_ne_true] at hagrees
    exact (h.zero ins hins hissued kind reg hreg hcounted).trans hagrees

/-- What is mapped has the same value in both register files; the zero register may
be cleared. -/
structure SameMapped
    (opts : VanadisDecoderOptions) (ptr : RegisterKind → Nat → Nat)
    (file file' : RegisterKind → Nat → Word) : Prop where
  counted : ∀ kind reg, reg < opts.count_isa_reg kind → opts.counted kind reg = true →
    getReg opts file' kind (ptr kind reg) = getReg opts file kind (ptr kind reg)
  zero : ∀ kind reg, reg < opts.count_isa_reg kind → opts.counted kind reg = false →
    getReg opts file kind (ptr kind reg) = 0 → getReg opts file' kind (ptr kind reg) = 0

theorem Faithful.inputsOf_congr (h : Faithful opts sem rob ptr file regs)
    (hset : ∀ ins ∈ rob, ins.hasIssued = true → ins.InSet opts)
    (hsame : SameMapped opts ptr file file') {ins : VanadisInstruction Op} (hins : ins ∈ rob)
    (hissued : ins.hasIssued = true) :
    inputsOf opts file' ins = inputsOf opts file ins := by
  funext kind
  rw [inputsOf, inputsOf, h.reads ins hins hissued kind]
  refine map_congr_left fun phys hphys => ?_
  obtain ⟨reg, hreg, rfl⟩ := mem_map.1 hphys
  have hlt := (hset ins hins hissued kind).1 reg hreg
  cases hc : opts.counted kind reg with
  | true => exact hsame.counted kind reg hlt hc
  | false =>
    have hold := h.zero ins hins hissued kind reg hreg hc
    rw [hold, hsame.zero kind reg hlt hc hold]

theorem Faithful.of_same (h : Faithful opts sem rob ptr file regs)
    (hset : ∀ ins ∈ rob, ins.hasIssued = true → ins.InSet opts)
    (hsame : SameMapped opts ptr file file')
    (hresult : ∀ ins ∈ rob, ins.hasExecuted = true → ∀ kind (i : Nat) reg phys,
      (ins.regs kind).isa_regs_out[i]? = some reg →
      (ins.regs kind).phys_regs_out[i]? = some phys → opts.counted kind reg = true →
      getReg opts file' kind phys = getReg opts file kind phys) :
    Faithful opts sem rob ptr file' regs := by
  have hinputs := fun ins hins hissued =>
    @Faithful.inputsOf_congr _ _ _ _ _ _ _ _ _ _ h hset hsame ins hins hissued
  exact { h with
    zero := fun ins hins hissued kind reg hreg hc =>
      hsame.zero kind reg ((hset ins hins hissued kind).1 reg hreg) hc
        (h.zero ins hins hissued kind reg hreg hc)
    results := fun ins hins hexec kind i reg phys value hr hp hv hc => by
      rw [hresult ins hins hexec kind i reg phys hr hp hc]
      rw [hinputs ins hins (h.issued ins hins hexec)] at hv
      exact h.results ins hins hexec kind i reg phys value hr hp hv hc
    targets := fun ins hins hexec s hs => by
      rw [hinputs ins hins (h.issued ins hins hexec)]
      exact h.targets ins hins hexec s hs
    agrees := fun kind reg hreg => by
      rw [← h.agrees kind reg hreg, mappedReg, mappedReg]
      split
      case isTrue hc => exact hsame.counted kind reg hreg hc
      case isFalse => rfl }

theorem mem_renamesOf_of_output {reg : Nat} (hins : ins ∈ rob) (hissued : ins.hasIssued = true)
    (hsys : ins.isSyscall = false) (hreg : (ins.regs kind).isa_regs_out[i]? = some reg)
    (hphys : (ins.regs kind).phys_regs_out[i]? = some phys) :
    (reg, phys) ∈ renamesOf rob kind := by
  refine mem_flatMap.2 ⟨ins, hins, ?_⟩
  rw [VanadisInstruction.renames, if_pos hissued, Operands.writes, hsys, if_neg Bool.false_ne_true]
  exact mem_iff_getElem?.2 ⟨i, getElem?_zip_eq_some.2 ⟨hreg, hphys⟩⟩

theorem outputs_of_issued (hissued : ins.hasIssued = true) (hsys : ins.isSyscall = false) :
    ins.outputs kind = (ins.regs kind).phys_regs_out := by
  rw [VanadisInstruction.outputs, if_pos hissued, Operands.taken, hsys, if_neg Bool.false_ne_true]

theorem Faithful.clear_zero {issue_ptr : Nat → Nat} (h : Faithful opts sem rob ptr file regs)
    (hset : ∀ ins ∈ rob, ins.hasIssued = true → ins.InSet opts)
    (hsys : ∀ ins ∈ rob, ins.isSyscall = false) (hown : OwnRegisters opts rob ptr)
    (hsnd : (renamesOf rob .int).map Prod.snd = inFlight rob .int)
    (hreplay : issue_ptr = overwrite (ptr .int) (renamesOf rob .int))
    (hlt : opts.reg_ignore_writes < opts.count_isa_reg .int)
    (hfile : ∀ kind phys, getReg opts file' kind phys =
      if kind = .int ∧ phys = issue_ptr opts.reg_ignore_writes then 0
      else getReg opts file kind phys) :
    Faithful opts sem rob ptr file' regs := by
  have hne : ∀ reg, opts.counted .int reg = true → reg ≠ opts.reg_ignore_writes := by
    intro reg hc
    simpa [VanadisDecoderOptions.counted] using hc
  -- what is cleared is mapped to the zero register or an output for it
  have hplace : issue_ptr opts.reg_ignore_writes = ptr .int opts.reg_ignore_writes ∨
      (opts.reg_ignore_writes, issue_ptr opts.reg_ignore_writes) ∈ renamesOf rob .int := by
    by_cases hkey : opts.reg_ignore_writes ∈ (renamesOf rob .int).map Prod.fst
    · obtain ⟨phys, hmem, hall⟩ := overwrite_of_mem hkey
      rw [hreplay, hall]
      exact .inr hmem
    · rw [hreplay, overwrite_of_notMem hkey]
      exact .inl rfl
  have hflight : ∀ {w}, w ∈ renamesOf rob .int → w.2 ∈ inFlight rob .int := by
    intro w hw
    rw [← hsnd]
    exact mem_map_of_mem hw
  refine h.of_same hset ⟨fun kind reg hreg hc => ?_, fun kind reg hreg hc hold => ?_⟩
    fun ins hins hexec kind i reg phys hr hp hc => ?_
  · rw [hfile, if_neg]
    rintro ⟨rfl, heq⟩
    rcases hplace with hmapped | hmem
    · exact hne reg hc (hown.mapped .int reg _ hreg hlt (heq.trans hmapped))
    · exact hown.disjoint .int reg hreg (heq ▸ hflight hmem)
  · rw [hfile, hold, ite_self]
  · rw [hfile, if_neg]
    rintro ⟨rfl, rfl⟩
    have hmem' := mem_renamesOf_of_output hins (h.issued ins hins hexec) (hsys ins hins) hr hp
    rcases hplace with hmapped | hmem
    · exact hown.disjoint .int _ hlt (hmapped ▸ hflight hmem')
    · have hnodup : ((renamesOf rob .int).map Prod.snd).Nodup := hsnd ▸ hown.nodup .int
      have hpair := inj_on_of_nodup_map hnodup hmem' hmem rfl
      exact hne reg hc (congrArg Prod.fst hpair)

/-- Registers that are not written keep their value. -/
theorem getReg_setRegs_of_notMem {ws : List (Nat × Word)} (h : phys ∉ ws.map Prod.fst)
    (hfile : file' kind = setRegs opts kind (file kind) ws) :
    getReg opts file' kind phys = getReg opts file kind phys := by
  rw [getReg, getReg, hfile, setRegs, overwrite_of_notMem]
  intro hmem
  obtain ⟨w, hw, rfl⟩ := mem_map.1 hmem
  exact h (mem_map_of_mem (mem_of_mem_filter hw))

theorem getReg_setRegs_written {keys : List Nat} {values : List (Option Word)} {value : Word}
    (hnodup : keys.Nodup) (hk : keys[i]? = some phys) (hv : values[i]? = some (some value))
    (hc : opts.counted kind phys = true)
    (hfile : file' kind = setRegs opts kind (file kind) (written keys values)) :
    getReg opts file' kind phys = value := by
  have hmem : (phys, value) ∈ written keys values := mem_written_iff.2 ⟨i, hk, hv⟩
  rw [getReg, if_pos hc, hfile, setRegs, overwrite_filter hc]
  obtain ⟨value', hmem', hall⟩ := overwrite_of_mem (mem_map_of_mem hmem)
  exact (hall _).trans (written_unique hnodup hk hv hmem')

theorem fst_mem_of_written
    {κ : Type*} {α : Type*} {keys : List κ} {values : List (Option α)} {k : κ}
    (h : k ∈ (written keys values).map Prod.fst) :
    k ∈ keys := by
  obtain ⟨w, hw, rfl⟩ := mem_map.1 h
  obtain ⟨i, hk, -⟩ := mem_written_iff.1 hw
  exact mem_of_getElem? hk

theorem Faithful.execute {j : Nat} (h : Faithful opts sem rob ptr file regs)
    (hset : ∀ ins ∈ rob, ins.hasIssued = true → ins.InSet opts)
    (hsys : ∀ ins ∈ rob, ins.isSyscall = false) (hown : OwnRegisters opts rob ptr)
    (hj : rob[j]? = some ins) (hissued : ins.hasIssued = true) (hnot : ins.hasExecuted = false)
    (hfile : ∀ kind, file' kind = setRegs opts kind (file kind)
      (written (ins.regs kind).phys_regs_out (sem.compute ins.op (inputsOf opts file ins) kind))) :
    Faithful opts sem
      (rob.set j (ins.setTakenAddress (sem.target ins.op (inputsOf opts file ins))).markExecuted)
      ptr file' regs := by
  have hins : ins ∈ rob := mem_of_getElem? hj
  have hout : ∀ kind, ins.outputs kind = (ins.regs kind).phys_regs_out := fun kind =>
    outputs_of_issued hissued (hsys ins hins)
  have hflight : ∀ kind phys, phys ∈ (ins.regs kind).phys_regs_out →
      phys ∈ inFlight rob kind := by
    intro kind phys hphys
    exact mem_flatMap.2 ⟨ins, hins, (hout kind).symm ▸ hphys⟩
  have hkeep : ∀ kind phys, phys ∉ (ins.regs kind).phys_regs_out →
      getReg opts file' kind phys = getReg opts file kind phys := fun kind phys hphys =>
    getReg_setRegs_of_notMem (fun hmem => hphys (fst_mem_of_written hmem)) (hfile kind)
  have hsame : SameMapped opts ptr file file' := {
    counted := fun kind reg hreg _ =>
      hkeep kind _ fun hmem => hown.disjoint kind reg hreg (hflight kind _ hmem)
    zero := fun kind reg hreg _ hold =>
      (hkeep kind _ fun hmem => hown.disjoint kind reg hreg (hflight kind _ hmem)).trans hold }
  have hothers : Faithful opts sem rob ptr file' regs := by
    refine h.of_same hset hsame fun x hx hexec kind i reg phys hr hp hc => hkeep kind phys ?_
    -- an executed instruction is another one, with other outputs
    intro hmem
    obtain ⟨i', hi'⟩ := mem_iff_getElem?.1 hx
    have hne : i' ≠ j := by
      rintro rfl
      rw [hj, Option.some.injEq] at hi'
      rw [← hi', hnot] at hexec
      cases hexec
    have hxout : phys ∈ x.outputs kind := by
      rw [outputs_of_issued (h.issued x hx hexec) (hsys x hx)]
      exact mem_of_getElem? hp
    have hpair := pairwise_iff_getElem.1 (nodup_flatMap.1 (hown.nodup kind)).2
    obtain ⟨hlt, hget⟩ := List.getElem?_eq_some_iff.1 hj
    obtain ⟨hlt', hget'⟩ := List.getElem?_eq_some_iff.1 hi'
    rcases lt_or_gt_of_ne hne with hlt1 | hlt1
    · have hdisjoint := hpair i' j hlt' hlt hlt1
      simp only [Function.onFun, hget, hget', hout kind] at hdisjoint
      exact hdisjoint hxout hmem
    · have hdisjoint := hpair j i' hlt hlt' hlt1
      simp only [Function.onFun, hget, hget', hout kind] at hdisjoint
      exact hdisjoint hmem hxout
  have hinputs := h.inputsOf_congr hset hsame hins hissued
  obtain ⟨done, hdone⟩ : ∃ x, x =
      (ins.setTakenAddress (sem.target ins.op (inputsOf opts file ins))).markExecuted :=
    ⟨_, rfl⟩
  rw [← hdone]
  have hcase : ∀ x ∈ rob.set j done, x ∈ rob ∨ x = done := fun x hx => mem_or_eq_of_mem_set hx
  have hregs : done.regs = ins.regs := by
    rw [hdone]
    rfl
  have hop : done.op = ins.op := by
    rw [hdone]
    rfl
  have hinputs' : inputsOf opts file' done = inputsOf opts file ins := by
    rw [← hinputs]
    funext kind
    rw [inputsOf, inputsOf, hregs]
  have hdoneIssued : done.hasIssued = true := by
    rw [hdone]
    exact hissued
  exact {
    issued := fun x hx hexec => by
      rcases hcase x hx with hx | rfl
      · exact h.issued x hx hexec
      · exact hdoneIssued
    reads := fun x hx hissued' kind => by
      rcases hcase x hx with hx | rfl
      · exact h.reads x hx hissued' kind
      · rw [hregs]
        exact h.reads ins hins hissued kind
    zero := fun x hx hissued' kind reg hreg hc => by
      rcases hcase x hx with hx | rfl
      · exact hothers.zero x hx hissued' kind reg hreg hc
      · rw [hregs] at hreg
        exact hothers.zero ins hins hissued kind reg hreg hc
    results := fun x hx hexec kind i reg phys value hr hp hv hc => by
      rcases hcase x hx with hx | rfl
      · exact hothers.results x hx hexec kind i reg phys value hr hp hv hc
      · rw [hregs] at hr hp
        rw [hop, hinputs'] at hv
        refine getReg_setRegs_written ?_ hp hv ?_ (hfile kind)
        · rw [← hout kind]
          exact (nodup_flatMap.1 (hown.nodup kind)).1 ins hins
        · exact hown.counted kind phys (hflight kind phys (mem_of_getElem? hp))
    targets := fun x hx hexec s hs => by
      rcases hcase x hx with hx | rfl
      · exact hothers.targets x hx hexec s hs
      · rw [hop, hinputs']
        rw [hdone] at hs
        obtain ⟨s', -, rfl⟩ := map_eq_some_iff.1 hs
        rfl
    agrees := hothers.agrees }

theorem Faithful.issue
    {before post : List (VanadisInstruction Op)} {ins ins' : VanadisInstruction Op}
    (h : Faithful opts sem (before ++ ins :: post) ptr file regs) (hissued : ins'.hasIssued = true)
    (hreads : ∀ kind, (ins'.regs kind).phys_regs_in = (ins'.regs kind).isa_regs_in.map (ptr kind))
    (hzero : ∀ kind, ∀ reg ∈ (ins'.regs kind).isa_regs_in, opts.counted kind reg = false →
      getReg opts file kind (ptr kind reg) = 0)
    (hdone : ins'.hasExecuted = true →
      (∀ kind, (ins'.regs kind).isa_regs_out = []) ∧ ins'.speculation = none) :
    Faithful opts sem (before ++ ins' :: post) ptr file regs := by
  have hcase : ∀ x ∈ before ++ ins' :: post, x ∈ before ++ ins :: post ∨ x = ins' := by
    intro x hx
    simp only [mem_append, mem_cons] at hx ⊢
    tauto
  exact {
    issued := fun x hx hexec => by
      rcases hcase x hx with hx | rfl
      · exact h.issued x hx hexec
      · exact hissued
    reads := fun x hx h1 kind => by
      rcases hcase x hx with hx | rfl
      · exact h.reads x hx h1 kind
      · exact hreads kind
    zero := fun x hx h1 kind reg hreg hc => by
      rcases hcase x hx with hx | rfl
      · exact h.zero x hx h1 kind reg hreg hc
      · exact hzero kind reg hreg hc
    results := fun x hx hexec kind i reg phys value hr hp hv hc => by
      rcases hcase x hx with hx | rfl
      · exact h.results x hx hexec kind i reg phys value hr hp hv hc
      · rw [(hdone hexec).1 kind] at hr
        simp at hr
    targets := fun x hx hexec s hs => by
      rcases hcase x hx with hx | rfl
      · exact h.targets x hx hexec s hs
      · rw [(hdone hexec).2] at hs
        cases hs
    agrees := h.agrees }

/-- The instruction, with the values it reads now, writes all its outputs. -/
def WritesAll
    (opts : VanadisDecoderOptions) (sem : Semantics Op Word)
    (file : RegisterKind → Nat → Word) (ins : VanadisInstruction Op) : Prop :=
  ∀ kind,
    (written (ins.regs kind).isa_regs_out
      (sem.compute ins.op (inputsOf opts file ins) kind)).length =
        (ins.regs kind).isa_regs_out.length

theorem Faithful.retire {front : VanadisInstruction Op} {rest : List (VanadisInstruction Op)}
    {pending rest' : List (MicroOp Op)} {next next' : Nat} {ptr' : RegisterKind → Nat → Nat}
    (h : Faithful opts sem (front :: rest) ptr file regs)
    (hset : ∀ ins ∈ front :: rest, ins.hasIssued = true → ins.InSet opts)
    (hissued : front.hasIssued = true) (hexecuted : front.hasExecuted = true)
    (hdec : Decodes front uop) (hclear : ∀ ins ∈ rest, ins.hasIssued = true → Clear front ins)
    (hlen : ∀ kind, (front.regs kind).phys_regs_out.length = (front.regs kind).isa_regs_out.length)
    (hwrites : WritesAll opts sem file front)
    (hptr : ∀ kind, ptr' kind = overwrite (ptr kind)
      ((front.regs kind).isa_regs_out.zip (front.regs kind).phys_regs_out)) :
    Faithful opts sem rest ptr' file
      (Sequential.execute opts sem { regs := regs, pending := pending, next := next }
        uop rest' next').regs := by
  have hfront : front ∈ front :: rest := mem_cons_self
  -- a register that a later instruction reads is mapped as before
  have hread : ∀ ins ∈ rest, ins.hasIssued = true → ∀ kind,
      ∀ reg ∈ (ins.regs kind).isa_regs_in, ptr' kind reg = ptr kind reg := by
    intro ins hins h1 kind reg hreg
    rw [hptr, overwrite_of_notMem]
    intro hmem
    rw [map_fst_zip (hlen kind).ge] at hmem
    exact (hclear ins hins h1).reads kind reg hreg hmem
  exact {
    issued := fun ins hins => h.issued ins (mem_cons_of_mem _ hins)
    reads := fun ins hins h1 kind => by
      rw [h.reads ins (mem_cons_of_mem _ hins) h1 kind]
      exact map_congr_left fun reg hreg => (hread ins hins h1 kind reg hreg).symm
    zero := fun ins hins h1 kind reg hreg hc => by
      rw [hread ins hins h1 kind reg hreg]
      exact h.zero ins (mem_cons_of_mem _ hins) h1 kind reg hreg hc
    results := fun ins hins => h.results ins (mem_cons_of_mem _ hins)
    targets := fun ins hins => h.targets ins (mem_cons_of_mem _ hins)
    agrees := fun kind reg hreg => by
      have hold := h.agrees kind reg hreg
      cases hc : opts.counted kind reg with
      | false => simp [mappedReg, getReg, hc]
      | true =>
        rw [mappedReg, if_pos hc] at hold ⊢
        have hinputs : inputsOf opts file front = Sequential.inputs opts
            { regs := regs, pending := pending, next := next } uop :=
          h.inputsOf_eq hfront hissued (hset front hfront hissued) hdec
        obtain ⟨vs, hvs, hzip, hval⟩ := written_of_length_eq (hwrites kind)
        -- both sides are the old registers with one write for each output
        have hleft : getReg opts file kind (ptr' kind reg) =
            overwrite (fun x => getReg opts file kind (ptr kind x))
              ((front.regs kind).isa_regs_out.zip
                ((front.regs kind).phys_regs_out.map (getReg opts file kind))) reg := by
          rw [hptr, ← overwrite_map (getReg opts file kind), zip_map_right]
          rfl
        have hright : getReg opts (Sequential.execute opts sem
            { regs := regs, pending := pending, next := next } uop rest' next').regs
              kind reg =
            overwrite (regs kind) ((front.regs kind).isa_regs_out.zip vs) reg := by
          rw [getReg, if_pos hc, Sequential.execute]
          dsimp only
          rw [← hinputs, ← hdec.isa_out kind, ← hdec.op, setRegs, overwrite_filter hc, hzip]
        rw [hleft, hright]
        refine overwrite_zip_congr ?_ (by rw [length_map, hlen]) hvs ?_
        · rw [hold, getReg, if_pos hc]
        · intro i v v' hk hv hv'
          obtain ⟨phys, hphys, rfl⟩ := map_eq_some_iff.1
            ((getElem?_map ..).symm.trans hv)
          exact h.results front hfront hexecuted kind i reg phys v' hk hphys
            (hval i v' hv') hc }

end SstElements.Vanadis
