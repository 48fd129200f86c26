import SstElements.Vanadis.RegisterOwnership

/-!
# Programs, their sequential execution and the core

A program gives each address a bundle of micro-operations.  The sequential machine
executes them one at a time, in program order; a branch with a delay slot is
followed by the bundle of its slot.

In the core the registers hold values, the decoders follow the program along the
predicted addresses, and a cycle goes through its stages in order: the zero
registers are cleared, then instructions are decoded, issued, executed and retired.
-/

namespace SstElements.Vanadis

section Programs

open Library

universe u v

variable {Op : Type u} {Word : Type v}

/-- What the micro-operations compute: a value for each output register that they
write, and where a branch goes. -/
structure Semantics (Op : Type u) (Word : Type v) where
  compute : Op → (RegisterKind → List Word) → RegisterKind → List (Option Word)
  target : Op → (RegisterKind → List Word) → Nat

section RegisterFile

variable [Zero Word]

/-- The register that ignores writes reads as zero. -/
def getReg
    (opts : VanadisDecoderOptions) (file : RegisterKind → Nat → Word)
    (kind : RegisterKind) (reg : Nat) : Word :=
  if opts.counted kind reg then file kind reg else 0

def setRegs
    (opts : VanadisDecoderOptions) (kind : RegisterKind) (file : Nat → Word)
    (values : List (Nat × Word)) : Nat → Word :=
  overwrite file (values.filter fun w => opts.counted kind w.1)

end RegisterFile

structure VanadisInstructionBundle (Op : Type u) where
  uops : List (MicroOp Op)
  pcIncrement : Nat

/-- Whether the last micro-operation is a branch. -/
def VanadisInstructionBundle.endsInBranch (bundle : VanadisInstructionBundle Op) : Bool :=
  match bundle.uops.getLast? with
  | none => false
  | some uop => uop.branch.isSome

/-- A program of register-to-register, branch and no-op instructions.  Either no
branch has a delay slot or all have one; what a branch in a delay slot does is not
defined by an instruction set. -/
structure Program (Op : Type u) where
  bundleAt : Nat → VanadisInstructionBundle Op
  delay_slots : Bool
  address : ∀ addr, ∀ uop ∈ (bundleAt addr).uops, uop.ins_address = addr
  branch_last : ∀ addr, ∀ uop ∈ (bundleAt addr).uops.dropLast, uop.branch = none
  branch_delay : ∀ addr, ∀ uop ∈ (bundleAt addr).uops, ∀ b, uop.branch = some b →
    (b.1 ≠ .VANADIS_NO_DELAY_SLOT ↔ delay_slots = true)
  delay_plain : delay_slots = true → ∀ addr, (bundleAt addr).endsInBranch = true →
    ∀ uop ∈ (bundleAt (addr + (bundleAt addr).pcIncrement)).uops, uop.branch = none
  in_scope : ∀ addr, ∀ uop ∈ (bundleAt addr).uops,
    uop.func_type.isMemory = false ∧ uop.func_type ≠ .INST_SYSCALL ∧
      uop.func_type ≠ .INST_FAULT
  no_op : ∀ addr, ∀ uop ∈ (bundleAt addr).uops, uop.func_type = .INST_NOOP →
    uop.branch = none ∧ ∀ kind, uop.isa_regs_out kind = []

namespace Program

variable (program : Program Op) (addr : Nat)

/-- The bundle of the delay slot of the branch at an address. -/
def delayBundle : List (MicroOp Op) :=
  (program.bundleAt (addr + (program.bundleAt addr).pcIncrement)).uops

/-- What is fetched together: a bundle, and after a branch its delay slot. -/
def group : List (MicroOp Op) :=
  (program.bundleAt addr).uops ++
    if (program.bundleAt addr).endsInBranch && program.delay_slots then
      program.delayBundle addr
    else
      []

def fallThrough : Nat := addr + (program.bundleAt addr).pcIncrement

end Program

/-- The sequential machine; `pending` is what is left of the instruction that it
is executing, `next` where it goes on. -/
structure Sequential (Op : Type u) (Word : Type v) where
  regs : RegisterKind → Nat → Word
  pending : List (MicroOp Op)
  next : Nat

namespace Sequential

variable [Zero Word]
variable (opts : VanadisDecoderOptions) (program : Program Op) (sem : Semantics Op Word)

def inputs (s : Sequential Op Word) (uop : MicroOp Op) (kind : RegisterKind) : List Word :=
  (uop.isa_regs_in kind).map (getReg opts s.regs kind)

def execute (s : Sequential Op Word) (uop : MicroOp Op) (rest : List (MicroOp Op)) (next : Nat) :
    Sequential Op Word where
  regs := fun kind =>
    setRegs opts kind (s.regs kind)
      (written (uop.isa_regs_out kind) (sem.compute uop.op (s.inputs opts uop) kind))
  pending := rest
  next := if uop.branch.isSome then sem.target uop.op (s.inputs opts uop) else next

/-- One step; the machine stays where there is no instruction. -/
def step (s : Sequential Op Word) : Sequential Op Word :=
  match s.pending with
  | uop :: rest => s.execute opts sem uop rest s.next
  | [] =>
    match program.group s.next with
    | [] => s
    | uop :: rest => s.execute opts sem uop rest (program.fallThrough s.next)

/-- The first steps of the machine. -/
def run : Nat → Sequential Op Word → Sequential Op Word
  | 0, s => s
  | n + 1, s => (s.run n).step opts program sem

end Sequential

end Programs

section Cores

open Library Function

universe u v

variable {Op : Type u} {Word : Type v} {hw_threads : Nat}

inductive CycleStage
  | decode
  | execute
  | retire
  deriving DecidableEq

/-- The core, and for each thread its register file, the address it decodes from
and the number of instructions it has retired. -/
structure Machine (Op : Type u) (Word : Type v) (hw_threads : Nat) where
  core : VanadisComponent Op hw_threads
  register_files : Fin hw_threads → RegisterKind → Nat → Word
  ip : Fin hw_threads → Nat
  stage : CycleStage
  ins_retired : Fin hw_threads → Nat

/-- The instructions that leave the buffer when its front retires. -/
def retiring : List (VanadisInstruction Op) → List (VanadisInstruction Op)
  | [] => []
  | rob_front :: rest =>
    if rob_front.hasIssued && rob_front.hasExecuted then
      if rob_front.hasDelaySlot then
        match rest with
        | [] => []
        | delay_ins :: _ => if delay_ins.hasExecuted then [rob_front, delay_ins] else []
      else
        [rob_front]
    else
      []

/-- The address that a branch was predicted to go to. -/
def MicroOp.setSpeculatedAddress (uop : MicroOp Op) (addr : Nat) : MicroOp Op :=
  { uop with branch := uop.branch.map fun b => (b.1, addr) }

inductive MachineOp (hw_threads : Nat)
  | beginCycle
  | decode (thr : Fin hw_threads) (predicted : Nat)
  | issue (calls : List (Fin hw_threads × (Nat → Bool)))
  | execute (thr : Fin hw_threads) (j : Nat)
  | retire (thr : Fin hw_threads)

namespace Machine

section Steps

variable [Zero Word]
variable (programs : Fin hw_threads → Program Op) (sem : Semantics Op Word)

/-- The values that an instruction reads. -/
def inputs
    (m : Machine Op Word hw_threads) (thr : Fin hw_threads) (ins : VanadisInstruction Op)
    (kind : RegisterKind) : List Word :=
  (ins.regs kind).phys_regs_in.map
    (getReg (m.core.threads thr).isa_options (m.register_files thr) kind)

def zeroRegister (m : Machine Op Word hw_threads) (thr : Fin hw_threads) :
    RegisterKind → Nat → Word :=
  let thread := m.core.threads thr
  let zero_reg := thread.isa_options.reg_ignore_writes
  if zero_reg < thread.isa_options.count_isa_reg .int then
    fun kind =>
      if kind = .int then
        setRegs thread.isa_options .int (m.register_files thr .int)
          [((thread.issue_isa_table .int).getPhysReg zero_reg, 0)]
      else
        m.register_files thr kind
  else
    m.register_files thr

def beginCycle (m : Machine Op Word hw_threads) : Machine Op Word hw_threads :=
  { m with register_files := m.zeroRegister, stage := .decode }

/-- The decoder appends the bundle at its address, with the delay slot of a branch,
and goes on at the predicted address after a branch; `none` is the fatal error for
an empty bundle. -/
def decode (m : Machine Op Word hw_threads) (thr : Fin hw_threads) (predicted : Nat) :
    Option (Machine Op Word hw_threads) :=
  let thread := m.core.threads thr
  let bundle := (programs thr).bundleAt (m.ip thr)
  let group := (programs thr).group (m.ip thr)
  if thread.halted then
    some m
  else if bundle.uops = [] then
    none
  else if group.length < m.core.rob_count - thread.rob.length then
    some
      { m with
        core := m.core.performDecode thr (group.map (·.setSpeculatedAddress predicted))
        ip := update m.ip thr
          (if bundle.endsInBranch then predicted else (programs thr).fallThrough (m.ip thr)) }
  else
    some m

/-- The instruction reads its registers, computes and writes its registers. -/
def execute (m : Machine Op Word hw_threads) (thr : Fin hw_threads) (j : Nat) :
    Option (Machine Op Word hw_threads) :=
  let thread := m.core.threads thr
  match thread.rob[j]? with
  | none => none
  | some ins =>
    (m.core.performExecute thr j (sem.target ins.op (m.inputs thr ins))).map fun core =>
      { m with
        core := core
        register_files := update m.register_files thr fun kind =>
          setRegs thread.isa_options kind (m.register_files thr kind)
            (written (ins.regs kind).phys_regs_out (sem.compute ins.op (m.inputs thr ins) kind)) }

/-- The front of the buffer retires; after a misprediction the decoder goes on where
the branch goes. -/
def retire (m : Machine Op Word hw_threads) (thr : Fin hw_threads) : Machine Op Word hw_threads :=
  let leaving := retiring (m.core.threads thr).rob
  { m with
    core := m.core.performRetire thr false
    ip :=
      match leaving.head? with
      | none => m.ip
      | some rob_front =>
        match rob_front.speculation with
        | none => m.ip
        | some s =>
          if rob_front.mispredicted then update m.ip thr s.takenAddress else m.ip
    stage := .retire
    ins_retired := update m.ins_retired thr (m.ins_retired thr + leaving.length) }

/-- One step; the stages of a cycle do not go back. -/
def step (m : Machine Op Word hw_threads) :
    MachineOp hw_threads → Option (Machine Op Word hw_threads)
  | .beginCycle => some m.beginCycle
  | .decode thr predicted => if m.stage = .decode then m.decode programs thr predicted else none
  | .issue calls =>
    if m.stage = .decode then
      (m.core.issueStage (fun _ => .start) calls).map fun core =>
        { m with core := core, stage := .execute }
    else
      none
  | .execute thr j => if m.stage = .execute then m.execute sem thr j else none
  | .retire thr => if m.stage = .decode then none else some (m.retire thr)

end Steps

/-- A core all of whose threads have been started. -/
def initial
    (config : VanadisComponent.Config hw_threads)
    (register_files : Fin hw_threads → RegisterKind → Nat → Word)
    (ip : Fin hw_threads → Nat) : Machine Op Word hw_threads where
  core := (List.finRange hw_threads).foldl VanadisComponent.startThread
    (VanadisComponent.initial Op config)
  register_files := register_files
  ip := ip
  stage := .retire
  ins_retired := fun _ => 0

end Machine

end Cores

end SstElements.Vanadis
