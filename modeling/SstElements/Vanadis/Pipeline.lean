import SstElements.Vanadis.RegisterTables

/-!
# The pipeline of an out-of-order core

Hardware threads have a reorder buffer and two register tables each: one for the
instructions that are issued, one for those that have retired.  Functional units,
the load/store queue, the decoders and the operating system are seen through their
answers: which instruction they accept, which one has executed, what is decoded.
-/

namespace SstElements.Vanadis

open Library

universe u

inductive VanadisFunctionalUnitType
  | INST_INT_ARITH
  | INST_INT_DIV
  | INST_FP_ARITH
  | INST_FP_DIV
  | INST_LOAD
  | INST_STORE
  | INST_BRANCH
  | INST_SYSCALL
  | INST_FENCE
  | INST_NOOP
  | INST_FAULT
  deriving DecidableEq

/-- Loads, stores and fences go to the load/store queue, in order. -/
def VanadisFunctionalUnitType.isMemory : VanadisFunctionalUnitType → Bool
  | .INST_LOAD | .INST_STORE | .INST_FENCE => true
  | _ => false

inductive VanadisDelaySlotRequirement
  | VANADIS_NO_DELAY_SLOT
  | VANADIS_SINGLE_DELAY_SLOT
  | VANADIS_CONDITIONAL_SINGLE_DELAY_SLOT
  deriving DecidableEq

/-- What a branch adds to an instruction. -/
structure VanadisSpeculation where
  delayType : VanadisDelaySlotRequirement
  speculatedAddress : Nat
  takenAddress : Nat

/-- The registers that an instruction reads and writes. -/
structure Operands where
  isa_regs_in : List Nat
  isa_regs_out : List Nat
  phys_regs_in : List Nat
  phys_regs_out : List Nat

/-- An instruction; `op` is what it computes. -/
structure VanadisInstruction (Op : Type u) where
  ins_address : Nat
  op : Op
  func_type : VanadisFunctionalUnitType
  regs : RegisterKind → Operands
  speculation : Option VanadisSpeculation
  hasIssued : Bool
  hasExecuted : Bool
  isFrontOfROB : Bool

variable {Op : Type u}

/-- What a decoder makes of an instruction; a branch has its delay slot and the
address that was predicted. -/
structure MicroOp (Op : Type u) where
  ins_address : Nat
  op : Op
  func_type : VanadisFunctionalUnitType
  isa_regs_in : RegisterKind → List Nat
  isa_regs_out : RegisterKind → List Nat
  branch : Option (VanadisDelaySlotRequirement × Nat)

def MicroOp.clone (uop : MicroOp Op) : VanadisInstruction Op where
  ins_address := uop.ins_address
  op := uop.op
  func_type := uop.func_type
  regs := fun kind =>
    { isa_regs_in := uop.isa_regs_in kind
      isa_regs_out := uop.isa_regs_out kind
      phys_regs_in := (uop.isa_regs_in kind).map fun _ => 0
      phys_regs_out := (uop.isa_regs_out kind).map fun _ => 0 }
  speculation := uop.branch.map fun b =>
    { delayType := b.1, speculatedAddress := b.2, takenAddress := 2 ^ 64 - 1 }
  hasIssued := false
  hasExecuted := false
  isFrontOfROB := false

namespace VanadisInstruction

/-- A system call names all registers, and keeps the ones it has. -/
def isSyscall (ins : VanadisInstruction Op) : Bool := ins.func_type = .INST_SYSCALL

def performRegisterRecovery (ins : VanadisInstruction Op) : Bool := !ins.isSyscall

def markExecuted (ins : VanadisInstruction Op) : VanadisInstruction Op :=
  { ins with hasExecuted := true }

def markIssued (ins : VanadisInstruction Op) : VanadisInstruction Op :=
  { ins with hasIssued := true }

def markFrontOfROB (ins : VanadisInstruction Op) : VanadisInstruction Op :=
  { ins with isFrontOfROB := true }

def setTakenAddress (ins : VanadisInstruction Op) (addr : Nat) : VanadisInstruction Op :=
  { ins with speculation := ins.speculation.map fun s => { s with takenAddress := addr } }

/-- The branch was not speculated to where it goes. -/
def mispredicted (ins : VanadisInstruction Op) : Bool :=
  match ins.speculation with
  | none => false
  | some s => s.takenAddress ≠ s.speculatedAddress

/-- The branch retires together with the instruction behind it. -/
def hasDelaySlot (ins : VanadisInstruction Op) : Bool :=
  match ins.speculation with
  | none => false
  | some s =>
    match s.delayType with
    | .VANADIS_SINGLE_DELAY_SLOT => true
    | .VANADIS_CONDITIONAL_SINGLE_DELAY_SLOT => true
    | .VANADIS_NO_DELAY_SLOT => false

end VanadisInstruction

/-- A hardware thread; each table has one half for each kind of register. -/
structure HwThread (Op : Type u) where
  isa_options : VanadisDecoderOptions
  halted : Bool
  rob : List (VanadisInstruction Op)
  issue_isa_table : RegisterKind → VanadisISATable
  retire_isa_table : RegisterKind → VanadisISATable

/-- The core. -/
structure VanadisComponent (Op : Type u) (hw_threads : Nat) where
  rob_count : Nat
  register_stack : RegisterKind → VanadisRegisterStack
  threads : Fin hw_threads → HwThread Op

/-- What one thread remembers from call to call while a cycle issues. -/
structure IssueTemps where
  rob_start : Nat
  blocked : Bool
  unallocated_memory_op_seen : Bool
  not_issued_reg_read : RegisterKind → Nat → Bool
  reg_write : RegisterKind → Nat → Bool

namespace IssueTemps

def start : IssueTemps where
  rob_start := 0
  blocked := false
  unallocated_memory_op_seen := false
  not_issued_reg_read := fun _ _ => false
  reg_write := fun _ _ => false

/-- Collect what the instruction reads, if it was not issued, and writes. -/
def collect (temps : IssueTemps) (ins : VanadisInstruction Op) : IssueTemps :=
  { temps with
    not_issued_reg_read := fun kind reg =>
      temps.not_issued_reg_read kind reg ||
        (!ins.hasIssued && (ins.regs kind).isa_regs_in.contains reg)
    reg_write := fun kind reg =>
      temps.reg_write kind reg || (ins.regs kind).isa_regs_out.contains reg }

end IssueTemps

section Issue

/-- Zero if the instruction may issue, else the number of the failed check. -/
def checkInstructionResources
    (reg_stacks : RegisterKind → VanadisRegisterStack)
    (isa_table : RegisterKind → VanadisISATable)
    (temps : IssueTemps) (ins : VanadisInstruction Op) : Nat :=
  let stored kind := decide ((ins.regs kind).isa_regs_out.length ≤ (reg_stacks kind).unused)
  let readable kind := (ins.regs kind).isa_regs_in.all fun reg =>
    !(isa_table kind).pendingWrites reg && !temps.reg_write kind reg
  let writable kind := (ins.regs kind).isa_regs_out.all fun reg =>
    !temps.not_issued_reg_read kind reg && !temps.reg_write kind reg
  if !(stored .int && stored .fp) then 1
  else if !readable .int then 2
  else if !readable .fp then 3
  else if !writable .int then 4
  else if !writable .fp then 5
  else 0

/-- `accepts`: a unit of the right class is free, the load/store queue has room
or, for a system call, is empty. -/
def allocateFunctionalUnit
    (accepts : Bool) (ins : VanadisInstruction Op) : Option (VanadisInstruction Op) :=
  match ins.func_type with
  | .INST_NOOP => some ins.markExecuted
  | .INST_FAULT => some ins.markExecuted
  | .INST_FENCE => some ins
  | _ => if accepts then some ins else none

/-- The units take the instruction, unless it is a memory operation behind one
that they did not take. -/
def allocateInOrder
    (accepts : Bool) (temps : IssueTemps) (ins : VanadisInstruction Op) :
    Option (VanadisInstruction Op) :=
  if ins.func_type.isMemory && temps.unallocated_memory_op_seen then
    none
  else
    allocateFunctionalUnit accepts ins

/-- Look for the next instruction that can issue, from place `j` of the buffer on. -/
def findIssue
    (reg_stacks : RegisterKind → VanadisRegisterStack)
    (isa_table : RegisterKind → VanadisISATable) (accepts : Nat → Bool) :
    IssueTemps → Nat → List (VanadisInstruction Op) →
      Option (Nat × VanadisInstruction Op) × IssueTemps
  | temps, _, [] => (none, temps)
  | temps, j, ins :: rest =>
    if ins.hasIssued then
      findIssue reg_stacks isa_table accepts (temps.collect ins) (j + 1) rest
    else
      match if checkInstructionResources reg_stacks isa_table temps ins = 0 then
          allocateInOrder (accepts j) temps ins
        else
          none with
      | some ins' => (some (j, ins'), temps.collect ins)
      | none =>
        let temps' :=
          { temps with
            unallocated_memory_op_seen :=
              temps.unallocated_memory_op_seen || ins.func_type.isMemory }
        findIssue reg_stacks isa_table accepts (temps'.collect ins) (j + 1) rest

/-- Give one kind of registers to the instruction. -/
def assignKind
    (counted : Nat → Bool) (syscall : Bool) (stack : VanadisRegisterStack)
    (isa_table : VanadisISATable) (operands : Operands) :
    Operands × VanadisRegisterStack × VanadisISATable :=
  let phys_in := operands.isa_regs_in.map isa_table.getPhysReg
  let isa_table := operands.isa_regs_in.foldl (·.incRead counted) isa_table
  if syscall then
    let phys_out := operands.isa_regs_out.map isa_table.getPhysReg
    ({ operands with phys_regs_in := phys_in, phys_regs_out := phys_out }, stack,
      operands.isa_regs_out.foldl (·.incWrite counted) isa_table)
  else
    let taken := takeRegisters counted stack isa_table operands.isa_regs_out
    ({ operands with phys_regs_in := phys_in, phys_regs_out := taken.1 }, taken.2.1, taken.2.2)

def VanadisInstruction.InSet (ins : VanadisInstruction Op) (opts : VanadisDecoderOptions) : Prop :=
  ∀ kind, (∀ reg ∈ (ins.regs kind).isa_regs_in, reg < opts.count_isa_reg kind) ∧
    ∀ reg ∈ (ins.regs kind).isa_regs_out, reg < opts.count_isa_reg kind
deriving Decidable

/-- Give registers to the instruction, the integer ones first; `none` is the fatal
error for a register that the instruction set does not have. -/
def assignRegistersToInstruction
    (opts : VanadisDecoderOptions)
    (reg_stacks : RegisterKind → VanadisRegisterStack)
    (isa_table : RegisterKind → VanadisISATable) (ins : VanadisInstruction Op) :
    Option (VanadisInstruction Op × (RegisterKind → VanadisRegisterStack) ×
      (RegisterKind → VanadisISATable)) :=
  if ins.InSet opts then
    let assigned kind :=
      assignKind (opts.counted kind) ins.isSyscall (reg_stacks kind) (isa_table kind)
        (ins.regs kind)
    some ({ ins with regs := fun kind => (assigned kind).1 },
      fun kind => (assigned kind).2.1, fun kind => (assigned kind).2.2)
  else
    none

namespace VanadisComponent

variable {hw_threads : Nat}

def setThread
    (core : VanadisComponent Op hw_threads) (thr : Fin hw_threads) (thread : HwThread Op) :
    VanadisComponent Op hw_threads :=
  { core with threads := Function.update core.threads thr thread }

def performIssue
    (core : VanadisComponent Op hw_threads) (temps : IssueTemps)
    (thr : Fin hw_threads) (accepts : Nat → Bool) :
    Option (VanadisComponent Op hw_threads × IssueTemps) :=
  let thread := core.threads thr
  if thread.halted then
    some (core, { temps with blocked := true })
  else
    match findIssue core.register_stack thread.issue_isa_table accepts temps
        temps.rob_start (thread.rob.drop temps.rob_start) with
    | (none, temps') => some (core, { temps' with blocked := true })
    | (some (j, ins), temps') =>
      (assignRegistersToInstruction thread.isa_options core.register_stack
          thread.issue_isa_table ins).map fun assigned =>
        ({ core.setThread thr
            { thread with
              rob := thread.rob.set j assigned.1.markIssued
              issue_isa_table := assigned.2.2 } with
            register_stack := assigned.2.1 }, { temps' with rob_start := j })

/-- The issue stage of a cycle: threads take turns, a thread that found nothing
is not asked again. -/
def issueStage :
    VanadisComponent Op hw_threads → (Fin hw_threads → IssueTemps) →
      List (Fin hw_threads × (Nat → Bool)) → Option (VanadisComponent Op hw_threads)
  | core, _, [] => some core
  | core, temps, (thr, accepts) :: calls =>
    if (temps thr).blocked then
      core.issueStage temps calls
    else
      (core.performIssue (temps thr) thr accepts).bind fun next =>
        next.1.issueStage (Function.update temps thr next.2) calls

end VanadisComponent

end Issue

section Retire

/-- The old physical registers of what the instruction wrote, in the retire table. -/
def recoverKind
    (counted : Nat → Bool) (recovery : Bool) (stack : VanadisRegisterStack)
    (issue_isa_table retire_isa_table : VanadisISATable) (operands : Operands) :
    VanadisRegisterStack × VanadisISATable × VanadisISATable :=
  let issue_isa_table := operands.isa_regs_in.foldl (·.decRead counted) issue_isa_table
  let issue_isa_table := operands.isa_regs_out.foldl (·.decWrite counted) issue_isa_table
  if recovery then
    let writes := operands.isa_regs_out.zip operands.phys_regs_out
    (stack.pushAll (displaced retire_isa_table.reg_ptr writes), issue_isa_table,
      { retire_isa_table with reg_ptr := overwrite retire_isa_table.reg_ptr writes })
  else
    (stack, issue_isa_table, retire_isa_table)

namespace VanadisComponent

variable {hw_threads : Nat}

/-- The instruction leaves the front of the buffer and gives registers back. -/
def recoverRetiredRegisters
    (core : VanadisComponent Op hw_threads) (thr : Fin hw_threads)
    (ins : VanadisInstruction Op) (rest : List (VanadisInstruction Op)) :
    VanadisComponent Op hw_threads :=
  let thread := core.threads thr
  let recovered kind :=
    recoverKind (thread.isa_options.counted kind) ins.performRegisterRecovery
      (core.register_stack kind) (thread.issue_isa_table kind)
      (thread.retire_isa_table kind) (ins.regs kind)
  { core.setThread thr
      { thread with
        rob := rest
        issue_isa_table := fun kind => (recovered kind).2.1
        retire_isa_table := fun kind => (recovered kind).2.2 } with
    register_stack := fun kind => (recovered kind).1 }

def returnedRegs (rob : List (VanadisInstruction Op)) (kind : RegisterKind) : List Nat :=
  rob.flatMap fun ins => if ins.hasIssued then (ins.regs kind).phys_regs_out else []

/-- Drop all instructions of the thread; every issued one returns its outputs. -/
def clearROBMisspeculate
    (core : VanadisComponent Op hw_threads) (thr : Fin hw_threads) :
    VanadisComponent Op hw_threads :=
  let thread := core.threads thr
  { core.setThread thr { thread with rob := [] } with
    register_stack := fun kind =>
      (core.register_stack kind).pushAll (returnedRegs thread.rob kind) }

def handleMisspeculate
    (core : VanadisComponent Op hw_threads) (thr : Fin hw_threads) :
    VanadisComponent Op hw_threads :=
  let core := core.clearROBMisspeculate thr
  let thread := core.threads thr
  core.setThread thr { thread with issue_isa_table := thread.retire_isa_table }

def retireFront
    (core : VanadisComponent Op hw_threads) (thr : Fin hw_threads)
    (rob_front : VanadisInstruction Op) (rest : List (VanadisInstruction Op)) :
    VanadisComponent Op hw_threads :=
  let core := core.recoverRetiredRegisters thr rob_front rest
  if rob_front.mispredicted then core.handleMisspeculate thr else core

def retireWithDelay
    (core : VanadisComponent Op hw_threads) (thr : Fin hw_threads)
    (rob_front delay_ins : VanadisInstruction Op) (rest : List (VanadisInstruction Op)) :
    VanadisComponent Op hw_threads :=
  let core := core.recoverRetiredRegisters thr rob_front (delay_ins :: rest)
  let core := core.recoverRetiredRegisters thr delay_ins rest
  if rob_front.mispredicted then core.handleMisspeculate thr else core

def setRob
    (core : VanadisComponent Op hw_threads) (thr : Fin hw_threads)
    (rob : List (VanadisInstruction Op)) : VanadisComponent Op hw_threads :=
  core.setThread thr { core.threads thr with rob := rob }

/-- One attempt to retire; `ret` is whether the operating system answers a system
call at once. -/
def performRetire
    (core : VanadisComponent Op hw_threads) (thr : Fin hw_threads) (ret : Bool) :
    VanadisComponent Op hw_threads :=
  match (core.threads thr).rob with
  | [] => core
  | rob_front :: rest =>
    if rob_front.hasIssued && rob_front.hasExecuted then
      if rob_front.hasDelaySlot then
        match rest with
        | [] => core
        | delay_ins :: rest' =>
          if delay_ins.hasExecuted then
            core.retireWithDelay thr rob_front delay_ins rest'
          else
            core.setRob thr (rob_front :: delay_ins.markFrontOfROB :: rest')
      else
        core.retireFront thr rob_front rest
    else if rob_front.isSyscall then
      if rob_front.hasIssued && !rob_front.isFrontOfROB then
        let ins := rob_front.markFrontOfROB
        core.setRob thr ((if ret then ins.markExecuted else ins) :: rest)
      else
        core
    else
      core.setRob thr (rob_front.markFrontOfROB :: rest)

/-- The operating system has answered; `none` is the fatal error when no system
call is at the front. -/
def syscallReturn
    (core : VanadisComponent Op hw_threads) (thr : Fin hw_threads) :
    Option (VanadisComponent Op hw_threads) :=
  match (core.threads thr).rob with
  | [] => none
  | rob_front :: rest =>
    if rob_front.isSyscall then
      some (core.setRob thr (rob_front.markExecuted :: rest))
    else
      none

end VanadisComponent

end Retire

section Threads

namespace VanadisComponent

variable {hw_threads : Nat}

def setHalt
    (core : VanadisComponent Op hw_threads) (thr : Fin hw_threads) :
    VanadisComponent Op hw_threads :=
  (core.setThread thr { core.threads thr with halted := true }).handleMisspeculate thr

def startThread
    (core : VanadisComponent Op hw_threads) (thr : Fin hw_threads) :
    VanadisComponent Op hw_threads :=
  let thread := core.threads thr
  core.setThread thr
    { thread with halted := false, retire_isa_table := thread.issue_isa_table }

def resetHwThread
    (core : VanadisComponent Op hw_threads) (thr : Fin hw_threads) :
    VanadisComponent Op hw_threads :=
  let thread := core.threads thr
  let issue_table kind := (thread.issue_isa_table kind).resetPendingCnts
  core.setThread thr
    { thread with rob := [], issue_isa_table := issue_table, retire_isa_table := issue_table }

def startThreadFork
    (core : VanadisComponent Op hw_threads) (thr : Fin hw_threads) :
    VanadisComponent Op hw_threads :=
  let core := core.resetHwThread thr
  (core.setThread thr { core.threads thr with halted := false }).handleMisspeculate thr

def startThreadClone
    (core : VanadisComponent Op hw_threads) (thr : Fin hw_threads) :
    VanadisComponent Op hw_threads :=
  let core := core.resetHwThread thr
  (core.setThread thr { core.threads thr with halted := false }).handleMisspeculate thr

/-- A decoder appends a bundle when the buffer has room for it. -/
def performDecode
    (core : VanadisComponent Op hw_threads) (thr : Fin hw_threads)
    (bundle : List (MicroOp Op)) : VanadisComponent Op hw_threads :=
  let thread := core.threads thr
  if !thread.halted && bundle.length < core.rob_count - thread.rob.length then
    core.setRob thr (thread.rob ++ bundle.map MicroOp.clone)
  else
    core

/-- The instruction at place `j` executes; a branch learns where it goes. -/
def performExecute
    (core : VanadisComponent Op hw_threads) (thr : Fin hw_threads) (j takenAddress : Nat) :
    Option (VanadisComponent Op hw_threads) :=
  match (core.threads thr).rob[j]? with
  | none => none
  | some ins =>
    if ins.hasIssued && !ins.hasExecuted && !ins.isSyscall then
      some (core.setRob thr ((core.threads thr).rob.set j
        (ins.setTakenAddress takenAddress).markExecuted))
    else
      none

/-- The parameters of a core. -/
structure Config (hw_threads : Nat) where
  rob_count : Nat
  physical_registers : RegisterKind → Nat
  isa_options : Fin hw_threads → VanadisDecoderOptions

/-- The registers of the instruction set get the first physical registers. -/
def addThread
    (core : VanadisComponent Op hw_threads) (thr : Fin hw_threads) :
    VanadisComponent Op hw_threads :=
  let thread := core.threads thr
  let taken kind :=
    takeRegisters (fun _ => false) (core.register_stack kind) .empty
      (List.range (thread.isa_options.count_isa_reg kind))
  let issue_table kind := (taken kind).2.2
  { core.setThread thr
      { thread with issue_isa_table := issue_table, retire_isa_table := issue_table } with
    register_stack := fun kind => (taken kind).2.1 }

/-- The constructor: the threads are added one after the other, all halted. -/
def initial (Op : Type u) (config : Config hw_threads) : VanadisComponent Op hw_threads :=
  (List.finRange hw_threads).foldl addThread
    { rob_count := config.rob_count
      register_stack := fun kind => .reset (config.physical_registers kind)
      threads := fun thr =>
        { isa_options := config.isa_options thr
          halted := true
          rob := []
          issue_isa_table := fun _ => .empty
          retire_isa_table := fun _ => .empty } }

end VanadisComponent

/-- What can happen to the core. -/
inductive PipelineOp (Op : Type u) (hw_threads : Nat)
  | decode (thr : Fin hw_threads) (bundle : List (MicroOp Op))
  | issue (calls : List (Fin hw_threads × (Nat → Bool)))
  | execute (thr : Fin hw_threads) (j takenAddress : Nat)
  | retire (thr : Fin hw_threads) (ret : Bool)
  | syscallReturn (thr : Fin hw_threads)
  | halt (thr : Fin hw_threads)
  | start (thr : Fin hw_threads)
  | startFork (thr : Fin hw_threads)
  | startClone (thr : Fin hw_threads)

namespace VanadisComponent

variable {hw_threads : Nat}

def step (core : VanadisComponent Op hw_threads) :
    PipelineOp Op hw_threads → Option (VanadisComponent Op hw_threads)
  | .decode thr bundle => some (core.performDecode thr bundle)
  | .issue calls => core.issueStage (fun _ => .start) calls
  | .execute thr j takenAddress => core.performExecute thr j takenAddress
  | .retire thr ret => some (core.performRetire thr ret)
  | .syscallReturn thr => core.syscallReturn thr
  | .halt thr => some (core.setHalt thr)
  | .start thr => some (core.startThread thr)
  | .startFork thr => some (core.startThreadFork thr)
  | .startClone thr => some (core.startThreadClone thr)

end VanadisComponent

end Threads

end SstElements.Vanadis
