import SstElements.Vanadis.Execution
import SstElements.Vanadis.LoadStoreQueue

/-!
# The core with its load/store queue

Memory operations go to the load/store queue when they issue, the queue sends requests
to the memory system and marks instructions as executed.  The memory system answers
requests in any order.
-/

namespace SstElements.Vanadis

open Library Function

universe u

variable {Op : Type u} {hw_threads : Nat}

/-- The core, its queue and the requests in flight; `first_seq` is the place in program
order of the front of each buffer.  What has been pushed, sent and squashed is history. -/
structure MemoryCore (Op : Type u) (hw_threads : Nat) where
  core : VanadisComponent Op hw_threads
  lsq : VanadisBasicLoadStoreQueue hw_threads
  first_seq : Fin hw_threads → Nat
  errors : List (InsId hw_threads)
  in_flight : List (MemRequest hw_threads)
  pushed : List (InsId hw_threads)
  sent : List (MemRequest hw_threads)
  squashed : List (InsId hw_threads)

/-- One call of the issue stage; `load` and `store` are what the instruction accesses if
it is a load or a store. -/
structure IssueCall (hw_threads : Nat) where
  hw_thr : Fin hw_threads
  free : Nat → Bool
  load : LoadAccess
  store : StoreAccess

inductive MemoryOp (Op : Type u) (hw_threads : Nat)
  | decode (thr : Fin hw_threads) (bundle : List (MicroOp Op))
  | issue (calls : List (IssueCall hw_threads))
  | tick
  | respond (i : Nat) (data : List UInt8) (flag : Bool) (register_value : List UInt8)
  | execute (thr : Fin hw_threads) (j takenAddress : Nat)
  | retire (thr : Fin hw_threads) (ret flushLSQ : Bool)
  | syscallReturn (thr : Fin hw_threads)
  | halt (thr : Fin hw_threads)
  | start (thr : Fin hw_threads)
  | startFork (thr : Fin hw_threads)
  | startClone (thr : Fin hw_threads)

/-- The instructions at a number of places of a thread's program order. -/
def insIds (thr : Fin hw_threads) (first n : Nat) : List (InsId hw_threads) :=
  (List.range n).map fun i => ⟨thr, first + i⟩

/-- The front of the buffer is a system call that is handed to the operating system. -/
def handsSyscall : List (VanadisInstruction Op) → Bool
  | [] => false
  | rob_front :: _ =>
    !(rob_front.hasIssued && rob_front.hasExecuted) && rob_front.isSyscall &&
      rob_front.hasIssued && !rob_front.isFrontOfROB

namespace MemoryCore

/-- The instruction in the buffer, if it is there. -/
def lookup
    (m : MemoryCore Op hw_threads) (ins : InsId hw_threads) : Option (VanadisInstruction Op) :=
  if m.first_seq ins.hw_thr ≤ ins.seq then
    (m.core.threads ins.hw_thr).rob[ins.seq - m.first_seq ins.hw_thr]?
  else
    none

/-- The place behind the last instruction in the buffer. -/
def next_seq (m : MemoryCore Op hw_threads) (thr : Fin hw_threads) : Nat :=
  m.first_seq thr + (m.core.threads thr).rob.length

def flags (m : MemoryCore Op hw_threads) : InsFlags hw_threads where
  completedIssue := fun ins => (m.lookup ins).any (·.hasIssued)
  checkFrontOfROB := fun ins => (m.lookup ins).any (·.isFrontOfROB)
  trapsError := fun ins => decide (ins ∈ m.errors)

def markExecuted
    (m : MemoryCore Op hw_threads) (ins : InsId hw_threads) : MemoryCore Op hw_threads :=
  if m.first_seq ins.hw_thr ≤ ins.seq then
    { m with
      core := m.core.setRob ins.hw_thr
        ((m.core.threads ins.hw_thr).rob.modify (ins.seq - m.first_seq ins.hw_thr)
          VanadisInstruction.markExecuted) }
  else
    m

def applyEffect (m : MemoryCore Op hw_threads) : LsqEffect hw_threads → MemoryCore Op hw_threads
  | .send req => { m with in_flight := m.in_flight ++ [req], sent := m.sent ++ [req] }
  | .markExecuted ins => m.markExecuted ins
  | .flagError ins => { m with errors := ins :: m.errors }
  | .setReg _ _ _ _ => m

/-- The queue has changed and had its effects. -/
def after
    (m : MemoryCore Op hw_threads) (lsq : VanadisBasicLoadStoreQueue hw_threads)
    (effects : List (LsqEffect hw_threads)) : MemoryCore Op hw_threads :=
  { effects.foldl applyEffect m with lsq := lsq }

section Steps

variable (params : LsqParams) (fenceType : Op → VanadisFenceType)

/-- Whether the resources for an instruction are free: in the queue for loads and stores;
a system call waits until the queue is empty and no standard store is in flight. -/
def accepts (m : MemoryCore Op hw_threads) (call : IssueCall hw_threads) (j : Nat) : Bool :=
  match (m.core.threads call.hw_thr).rob[j]? with
  | none => false
  | some ins =>
    match ins.func_type with
    | .INST_LOAD => !m.lsq.loadFull params
    | .INST_STORE => !m.lsq.storeFull params
    | .INST_SYSCALL => m.lsq.storeBufferSize == 0 && m.lsq.loadSize == 0
    | _ => call.free j

/-- A memory operation goes to the queue. -/
def pushIssued
    (m : MemoryCore Op hw_threads) (call : IssueCall hw_threads) (j : Nat) :
    MemoryCore Op hw_threads :=
  let id : InsId hw_threads := ⟨call.hw_thr, m.first_seq call.hw_thr + j⟩
  match (m.core.threads call.hw_thr).rob[j]? with
  | none => m
  | some ins =>
    match ins.func_type with
    | .INST_LOAD =>
      { m with lsq := m.lsq.push (.load id call.load), pushed := m.pushed ++ [id] }
    | .INST_STORE =>
      { m with lsq := m.lsq.push (.store id call.store), pushed := m.pushed ++ [id] }
    | .INST_FENCE => { m with lsq := m.lsq.push (.fence id (fenceType ins.op)) }
    | _ => m

def issueStage :
    MemoryCore Op hw_threads → (Fin hw_threads → IssueTemps) → List (IssueCall hw_threads) →
      Option (MemoryCore Op hw_threads)
  | m, _, [] => some m
  | m, temps, call :: calls =>
    if (temps call.hw_thr).blocked then
      m.issueStage temps calls
    else
      (m.core.performIssue (temps call.hw_thr) call.hw_thr (m.accepts params call)).bind
        fun next =>
          let issued :=
            if next.2.blocked then { m with core := next.1 }
            else { m with core := next.1 }.pushIssued fenceType call next.2.rob_start
          issued.issueStage (update temps call.hw_thr next.2) calls

def tick (m : MemoryCore Op hw_threads) : Option (MemoryCore Op hw_threads) :=
  (m.lsq.tick params m.flags).map fun result => m.after result.1 result.2

/-- The memory system answers a request. -/
def respond
    (m : MemoryCore Op hw_threads) (i : Nat) (data : List UInt8) (flag : Bool)
    (register_value : List UInt8) : Option (MemoryCore Op hw_threads) :=
  match m.in_flight[i]? with
  | none => none
  | some req =>
    let answered := { m with in_flight := m.in_flight.eraseIdx i }
    if req.kind.isRead then
      (m.lsq.handleReadResp register_value
        { id := req.id, vAddr := req.vAddr, data := data, fail := flag }).map fun result =>
          answered.after result.1 result.2
    else
      (m.lsq.handleWriteResp { id := req.id, success := flag }).map fun result =>
        answered.after result.1 result.2

/-- The functional units execute what is not a memory operation. -/
def execute
    (m : MemoryCore Op hw_threads) (thr : Fin hw_threads) (j takenAddress : Nat) :
    Option (MemoryCore Op hw_threads) :=
  if ((m.core.threads thr).rob[j]?).any fun ins => !ins.func_type.isMemory then
    (m.core.performExecute thr j takenAddress).map fun core => { m with core := core }
  else
    none

/-- All instructions of a thread are squashed, and the queue is cleared for it. -/
def squashThread
    (m : MemoryCore Op hw_threads) (thr : Fin hw_threads)
    (core : VanadisComponent Op hw_threads) : MemoryCore Op hw_threads :=
  { m with
    core := core
    lsq := m.lsq.clearLSQByThreadID thr
    first_seq := update m.first_seq thr (m.next_seq thr)
    squashed := m.squashed ++
      insIds thr (m.first_seq thr) (m.core.threads thr).rob.length }

/-- An attempt to retire; `none` is the fatal error for an instruction that traps.  A
mispredicted branch clears the queue for its thread, and so do some system calls. -/
def retire
    (m : MemoryCore Op hw_threads) (thr : Fin hw_threads) (ret flushLSQ : Bool) :
    Option (MemoryCore Op hw_threads) :=
  let rob := (m.core.threads thr).rob
  let core := m.core.performRetire thr ret
  let leaving := (retiring rob).length
  if rob.isEmpty = false ∧ (⟨thr, m.first_seq thr⟩ : InsId hw_threads) ∈ m.errors then
    none
  else if (retiring rob).head?.any (·.mispredicted) then
    some
      { m with
        core := core
        lsq := m.lsq.clearLSQByThreadID thr
        first_seq := update m.first_seq thr (m.next_seq thr)
        squashed := m.squashed ++
          insIds thr (m.first_seq thr + leaving) (rob.length - leaving) }
  else
    some
      { m with
        core := core
        lsq := if handsSyscall rob && flushLSQ then m.lsq.clearLSQByThreadID thr else m.lsq
        first_seq := update m.first_seq thr (m.first_seq thr + leaving) }

def step (m : MemoryCore Op hw_threads) : MemoryOp Op hw_threads → Option (MemoryCore Op hw_threads)
  | .decode thr bundle => some { m with core := m.core.performDecode thr bundle }
  | .issue calls => m.issueStage params fenceType (fun _ => .start) calls
  | .tick => m.tick params
  | .respond i data flag register_value => m.respond i data flag register_value
  | .execute thr j takenAddress => m.execute thr j takenAddress
  | .retire thr ret flushLSQ => m.retire thr ret flushLSQ
  | .syscallReturn thr => (m.core.syscallReturn thr).map fun core => { m with core := core }
  | .halt thr => some (m.squashThread thr (m.core.setHalt thr))
  | .start thr => some { m with core := m.core.startThread thr }
  | .startFork thr => some (m.squashThread thr (m.core.startThreadFork thr))
  | .startClone thr => some (m.squashThread thr (m.core.startThreadClone thr))

end Steps

def initial
    (Op : Type u) (config : VanadisComponent.Config hw_threads) : MemoryCore Op hw_threads where
  core := VanadisComponent.initial Op config
  lsq := .empty hw_threads
  first_seq := fun _ => 0
  errors := []
  in_flight := []
  pushed := []
  sent := []
  squashed := []

end MemoryCore

end SstElements.Vanadis
