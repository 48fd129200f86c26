import SstElements.Library.History
import SstElements.VanadisOS.PageFault

/-!
# System calls and their page faults

A system call is an object of the operating system.  It asks memory piece by piece, waits
for the state of its thread or sleeps, and its end is the answer to the thread.  A piece
whose page is missing raises a page fault, in one queue with the faults of the threads.
-/

namespace SstElements.VanadisOS

open Library Mmu Function

structure ReturnInfo where
  code : Int
  success : Bool
  hasExited : Bool
  deriving DecidableEq

/-- An access of a system call to memory, with what has been transferred. -/
inductive MemoryHandler
  | readString (addr : Nat) (str : List Nat) (isDone : Bool)
  | readMemory (addr size : Nat) (data : List Nat) (lock : Bool)
  | writeMemory (addr : Nat) (data : List Nat) (offset : Nat) (lock : Bool)

namespace MemoryHandler

def lineRemainder (start : Nat) : Nat := 64 - start % 64

def getAddress : MemoryHandler → Nat
  | readString addr str _ => addr + str.length
  | readMemory addr _ data _ => addr + data.length
  | writeMemory addr _ offset _ => addr + offset

def calcLength : MemoryHandler → Nat
  | readString addr str _ => if str = [] then lineRemainder addr else 64
  | readMemory addr size data _ =>
    min (size - data.length) (if data = [] then lineRemainder addr else 64)
  | writeMemory addr data offset _ =>
    min (data.length - offset) (if offset = 0 then lineRemainder addr else 64)

def isWrite : MemoryHandler → Bool
  | writeMemory .. => true
  | _ => false

def isDone : MemoryHandler → Bool
  | readString _ _ done => done
  | readMemory _ size data _ => data.length = size
  | writeMemory _ data offset _ => offset = data.length

/-- A response has as many bytes as were asked for; those of a write are its size. -/
def handle (resp : List Nat) : MemoryHandler → MemoryHandler
  | readString addr str done =>
    if 0 ∈ resp then
      readString addr (str ++ resp.takeWhile (· ≠ 0) ++ [0]) true
    else
      readString addr (str ++ resp) done
  | readMemory addr size data lock => readMemory addr size (data ++ resp) lock
  | writeMemory addr data offset lock => writeMemory addr data (offset + resp.length) lock

def buffer : MemoryHandler → List Nat
  | readString _ str _ => str
  | readMemory _ _ data _ => data
  | writeMemory _ data _ _ => data

end MemoryHandler

/-- The address spaces by process number, the threads that are alive, and the process on
each hardware thread. -/
structure Processes where
  space : Nat → AddressSpace
  threadMap : Nat → Bool
  process : Nat → Nat → Option Nat

/-- What a kind of system call does: it changes the processes, accesses memory and goes on
with what it has read, goes on with the state of its thread, sleeps until another call
wakes it, or ends. -/
inductive SyscallProgram
  | update (effect : Processes → Processes) (next : Processes → SyscallProgram)
  | access (handler : MemoryHandler) (next : List Nat → Bool → SyscallProgram)
  | threadState (next : Nat → SyscallProgram)
  | sleep
  | finish (ret : ReturnInfo)

namespace SyscallProgram

/-- Changes happen at once. -/
def settle : SyscallProgram → Processes → Processes × SyscallProgram
  | update effect next, processes => settle (next processes) (effect processes)
  | program, processes => (processes, program)

def fail (code : Int) : SyscallProgram := finish ⟨code, false, false⟩

def succeed (code : Int) : SyscallProgram := finish ⟨code, true, false⟩

/-- A wait of a futex, whose value is given by its bytes. -/
def futexWait (addr : Nat) (val : List Nat) : SyscallProgram :=
  access (.readMemory addr 4 [] true) fun data _ =>
    if data = val then
      access (.writeMemory addr data 0 true) fun _ failed => if failed then fail (-11) else sleep
    else
      fail (-11)

end SyscallProgram

/-- An address of zero is no fault. -/
structure Syscall where
  core : Nat
  hwThread : Nat
  pid : Nat
  program : SyscallProgram
  pageFaultAddr : Nat
  pageFaultIsWrite : Bool
  pendingMem : List Nat

namespace Syscall

def handler (call : Syscall) : Option MemoryHandler :=
  match call.program with
  | .access handler _ => some handler
  | _ => none

def finished (call : Syscall) : Bool :=
  match call.program with
  | .finish _ => true
  | _ => false

def causedPageFault (call : Syscall) : Bool := call.pageFaultAddr ≠ 0

/-- The request of the next piece, as its length; `none` is the fatal error. -/
def getMemoryRequest
    (pageShift : Nat) (processes : Processes) (requestId : Nat) (call : Syscall) :
    Option (Syscall × Option Nat) :=
  match call.handler with
  | none => some (call, none)
  | some handler =>
    ((processes.space call.pid).virtToPhys pageShift handler.getAddress).map fun
      | none =>
        ({ call with
          pageFaultAddr := handler.getAddress
          pageFaultIsWrite := handler.isWrite }, none)
      | some _ =>
        ({ call with pendingMem := call.pendingMem ++ [requestId] }, some handler.calcLength)

/-- A response goes to the access, and the call goes on when the access is done; `none` is
the failed assertion that the request is pending. -/
def handleMemRespBase
    (processes : Processes) (requestId : Nat) (resp : List Nat) (failed : Bool)
    (call : Syscall) : Option (Processes × Syscall) :=
  if requestId ∈ call.pendingMem then
    let call := { call with pendingMem := call.pendingMem.erase requestId }
    match call.program with
    | .access handler next =>
      let handler := handler.handle resp
      if handler.isDone then
        let settled := (next handler.buffer failed).settle processes
        some (settled.1, { call with program := settled.2 })
      else
        some (processes, { call with program := .access handler next })
    | _ => some (processes, call)
  else
    none

end Syscall

/-- The fault of a system call has its number, the one of a thread its request. -/
structure PageFault where
  syscall : Option Nat
  reqId : Nat
  pid : Nat
  vpn : Nat
  faultPerms : Nat
  memVirtAddr : Nat
  deriving DecidableEq

/-- A fault is raised with the address that the call accesses, if any; it is resolved with
the address that is accessed then, if any. -/
inductive SyscallEvent
  | answered (call : Nat) (ret : ReturnInfo)
  | raised (call virtAddr : Nat) (accessed : Option Nat)
  | resolved (call virtAddr : Nat) (success : Bool) (accessed : Option Nat)
  | faultHandled (reqId : Nat) (success : Bool)
  deriving DecidableEq

/-- The system calls by number, the one of each hardware thread, the requests to memory
with their calls and lengths, and the faults, the first of which is being handled. -/
structure SyscallOS where
  processes : Processes
  running : Nat → Nat → Option Nat
  syscalls : OrderedMap Nat Syscall
  memRespMap : List (Nat × Nat × Nat)
  pendingFault : List PageFault
  elfPageCache : ElfPageCache
  freePages : List Nat
  requests : Nat
  created : Nat
  failed : Bool
  history : List SyscallEvent

/-- The last step is the end of a page transfer. -/
inductive SyscallStep
  | syscall (core hwThread : Nat) (program : SyscallProgram)
  | coreEvent (core hwThread state : Nat)
  | memResp (requestId : Nat) (resp : List Nat) (failed : Bool)
  | wake (call : Nat)
  | userFault (reqId pid vpn faultPerms : Nat)
  | pageDone

namespace SyscallOS

def initial (processes : Processes) (freePages : List Nat) : SyscallOS where
  processes := processes
  running _ _ := none
  syscalls := .empty
  memRespMap := []
  pendingFault := []
  elfPageCache := .empty
  freePages := freePages
  requests := 0
  created := 0
  failed := false
  history := []

def note (os : SyscallOS) (event : SyscallEvent) : SyscallOS :=
  { os with history := os.history ++ [event] }

def assertFailed (os : SyscallOS) : SyscallOS := { os with failed := true }

def setSyscall (os : SyscallOS) (core hwThread : Nat) (syscall : Option Nat) : SyscallOS :=
  { os with
    running := update os.running core
      (update (os.running core) hwThread syscall) }

/-- The destructor of a system call sends the response. -/
def delete (os : SyscallOS) (id : Nat) (call : Syscall) (ret : ReturnInfo) : SyscallOS :=
  match os.running call.core call.hwThread with
  | none => os.assertFailed
  | some _ =>
    ({ os with syscalls := os.syscalls.erase id }.setSyscall call.core call.hwThread
      none).note (.answered id ret)

def sendMemoryEvent (os : SyscallOS) (id length : Nat) : SyscallOS :=
  { os with
    memRespMap := os.memRespMap ++ [(os.requests, id, length)]
    requests := os.requests + 1 }

/-- Set the entry of a page of a process. -/
def mmuMap (os : SyscallOS) (pid vpn ppn perms : Nat) : SyscallOS :=
  { os with processes := { os.processes with
      space := update os.processes.space pid
        ((os.processes.space pid).map vpn ppn perms) } }

/-- A page is allocated for the region at the start of the page, and a transfer begins;
`none` is the fatal error that memory is exhausted. -/
def allocPage (pageShift : Nat) (os : SyscallOS) (info : PageFault) (perms : Nat) :
    Option (SyscallOS × Nat) :=
  match os.freePages with
  | [] => none
  | page :: freePages =>
    let os := { os with freePages := freePages }
    match (os.processes.space info.pid).virtMemMap.findRegion (pageStart pageShift info.vpn) with
    | none => some (os.assertFailed, page)
    | some _ => some (os.mmuMap info.pid info.vpn page perms, page)

/-- The outcome of a fault, or `none` while a page is transferred.  Process numbers are
positive. -/
def pageFault (pageShift : Nat) (os : SyscallOS) (info : PageFault) :
    Option (SyscallOS × Option Bool) :=
  if os.processes.threadMap info.pid then
    match faultAction pageShift os.elfPageCache (os.processes.space info.pid) info.vpn
      info.faultPerms with
    | .deny => some (os, some false)
    | .present => some (os, some true)
    | .copyOnWrite _ perms =>
      (os.allocPage pageShift info perms).map fun allocated => (allocated.1, none)
    | .device ppn perms => some (os.mmuMap info.pid info.vpn ppn perms, some true)
    | .cached ppn perms text =>
      some (os.mmuMap info.pid info.vpn ppn perms, if text then some true else none)
    | .fill perms cache =>
      (os.allocPage pageShift info perms).map fun allocated =>
        ({ allocated.1 with
          elfPageCache := match cache with
            | none => os.elfPageCache
            | some elfInfo => updatePageCache os.elfPageCache elfInfo info.vpn allocated.2 },
          none)
  else
    some (os, some false)

/-- The call goes on, or the thread gets the page; a call without a memory request, and a
page without an entry, fail. -/
def pageFaultFini (pageShift : Nat) (os : SyscallOS) (info : PageFault) (success : Bool) :
    Option SyscallOS :=
  match info.syscall with
  | some id =>
    match os.syscalls.find? id with
    | none => some os.assertFailed
    | some call =>
      (call.getMemoryRequest pageShift os.processes os.requests).map fun
        | (call, none) =>
          ({ os with syscalls := os.syscalls.insert id call }.note
            (.resolved id info.memVirtAddr success none)).assertFailed
        | (call, some length) =>
          ({ os with syscalls := os.syscalls.insert id call }.note
            (.resolved id info.memVirtAddr success
              (call.handler.map MemoryHandler.getAddress))).sendMemoryEvent id length
  | none =>
    if success ∧ ((os.processes.space info.pid).pageTable.find? info.vpn).isNone then
      some os.assertFailed
    else
      some (os.note (.faultHandled info.reqId success))

/-- Handle the faults in order, until a page is transferred. -/
def serveFaults (pageShift : Nat) (os : SyscallOS) : List PageFault → Option SyscallOS
  | [] => some { os with pendingFault := [] }
  | info :: rest =>
    match os.pageFault pageShift info with
    | none => none
    | some (os, none) => some { os with pendingFault := info :: rest }
    | some (os, some success) =>
      (os.pageFaultFini pageShift info success).bind fun os =>
        if os.failed then some os else os.serveFaults pageShift rest

def pageFaultHandler (pageShift : Nat) (os : SyscallOS) (info : PageFault) : Option SyscallOS :=
  match os.pendingFault with
  | [] => os.serveFaults pageShift [info]
  | faults => some { os with pendingFault := faults ++ [info] }

def osPageFault (pageShift id : Nat) (call : Syscall) : PageFault where
  syscall := some id
  reqId := 0
  pid := call.pid
  vpn := pageOf pageShift call.pageFaultAddr
  faultPerms := if call.pageFaultIsWrite then 2 else 4
  memVirtAddr := call.pageFaultAddr

/-- After anything that has happened to a call. -/
def processSyscallPost (pageShift : Nat) (os : SyscallOS) (id : Nat) (call : Syscall) :
    Option SyscallOS :=
  match call.program, call.pendingMem with
  | .finish ret, [] => some (os.delete id call ret)
  | _, _ =>
    (call.getMemoryRequest pageShift os.processes os.requests).bind fun
      | (call, some length) =>
        some ({ os with syscalls := os.syscalls.insert id call }.sendMemoryEvent id length)
      | (call, none) =>
        let os := { os with syscalls := os.syscalls.insert id call }
        if call.causedPageFault then
          (os.note (.raised id call.pageFaultAddr
            (call.handler.map MemoryHandler.getAddress))).pageFaultHandler pageShift
            (osPageFault pageShift id call)
        else
          some os

/-- A thread issues a call when it has none. -/
def handleIncomingSyscall
    (pageShift : Nat) (os : SyscallOS) (core hwThread : Nat) (program : SyscallProgram) :
    Option SyscallOS :=
  match os.processes.process core hwThread, os.running core hwThread with
  | some pid, none =>
    let settled := program.settle os.processes
    let call : Syscall := ⟨core, hwThread, pid, settled.2, 0, false, []⟩
    ({ os with
      processes := settled.1
      syscalls := os.syscalls.insert os.created call
      created := os.created + 1 }.setSyscall core hwThread (some os.created)).processSyscallPost
        pageShift os.created call
  | _, _ => none

/-- A core sends the state of a thread for the call that asked for it. -/
def handleCoreEvent (pageShift : Nat) (os : SyscallOS) (core hwThread state : Nat) :
    Option SyscallOS :=
  (os.running core hwThread).bind fun id =>
    (os.syscalls.find? id).bind fun call =>
      match call.program with
      | .threadState next =>
        let settled := (next state).settle os.processes
        { os with processes := settled.1 }.processSyscallPost pageShift id
          { call with program := settled.2 }
      | _ => none

def handleIncomingMemory
    (pageShift : Nat) (os : SyscallOS) (requestId : Nat) (resp : List Nat) (failed : Bool) :
    Option SyscallOS :=
  (os.memRespMap.find? fun entry => entry.1 = requestId).bind fun entry =>
    if resp.length = entry.2.2 then
      let os := { os with memRespMap := os.memRespMap.eraseP fun entry => entry.1 = requestId }
      match os.syscalls.find? entry.2.1 with
      | none => some os.assertFailed
      | some call =>
        match call.handleMemRespBase os.processes requestId resp failed with
        | none => some os.assertFailed
        | some (processes, call) =>
          { os with processes := processes }.processSyscallPost pageShift entry.2.1 call
    else
      none

def step (pageShift : Nat) (os : SyscallOS) (s : SyscallStep) : Option SyscallOS :=
  if os.failed then
    none
  else
    match s with
    | .syscall core hwThread program => os.handleIncomingSyscall pageShift core hwThread program
    | .coreEvent core hwThread state => os.handleCoreEvent pageShift core hwThread state
    | .memResp requestId resp failed => os.handleIncomingMemory pageShift requestId resp failed
    | .wake id =>
      (os.syscalls.find? id).bind fun call =>
        match call.program with
        | .sleep => some (os.delete id call ⟨0, true, false⟩)
        | _ => none
    | .userFault reqId pid vpn faultPerms =>
      os.pageFaultHandler pageShift ⟨none, reqId, pid, vpn, faultPerms, 0⟩
    | .pageDone =>
      match os.pendingFault with
      | [] => none
      | info :: rest =>
        (os.pageFaultFini pageShift info true).bind fun os =>
          if os.failed then some os else os.serveFaults pageShift rest

def answers (history : List SyscallEvent) : List Nat :=
  history.filterMap fun
    | .answered id _ => some id
    | _ => none

def raises (history : List SyscallEvent) : List Nat :=
  history.filterMap fun
    | .raised id _ _ => some id
    | _ => none

def resolutions (history : List SyscallEvent) : List Nat :=
  history.filterMap fun
    | .resolved id _ _ _ => some id
    | _ => none

def requestsOf (memRespMap : List (Nat × Nat × Nat)) (id : Nat) : List (Nat × Nat × Nat) :=
  memRespMap.filter fun entry => entry.2.1 = id

def faultsOf (faults : List PageFault) (id : Nat) : List PageFault :=
  faults.filter fun info => info.syscall = some id

/-- Calls are answered once, faults are raised for accesses and resolved by them, and a call
that accesses memory has its request or its fault, and no other call has one. -/
structure Sound (os : SyscallOS) : Prop where
  running : os.failed = false
  once : ∀ id, (answers os.history).count id +
    (os.syscalls.find? id).isSome.toNat = if id < os.created then 1 else 0
  needed : ∀ id virtAddr accessed, .raised id virtAddr accessed ∈ os.history →
    accessed = some virtAddr
  resolvedOnce : ∀ id, (raises os.history).count id =
    (resolutions os.history).count id + (faultsOf os.pendingFault id).length
  retried : ∀ id virtAddr success accessed,
    .resolved id virtAddr success accessed ∈ os.history →
    accessed = some virtAddr ∨
      success = false ∧ ∃ ret, ret.success = false ∧ .answered id ret ∈ os.history
  progress : ∀ id call, os.syscalls.find? id = some call → call.handler.isSome →
    (requestsOf os.memRespMap id).length + (faultsOf os.pendingFault id).length = 1
  waiting : ∀ id call, os.syscalls.find? id = some call → call.handler = none →
    requestsOf os.memRespMap id = [] ∧ faultsOf os.pendingFault id = []

section Conditions

variable (pageShift : Nat) (os : SyscallOS)

/-- The page of a fault is in its table. -/
def Mapped (info : PageFault) : Prop :=
  ((os.processes.space info.pid).pageTable.find? info.vpn).isSome
deriving Decidable

/-- The page of the fault starts in a region if it is in one, and for a system call it is
mapped, or its process is there and the region has the permissions. -/
def Servable (info : PageFault) : Prop :=
  let map := (os.processes.space info.pid).virtMemMap
  ((map.findRegion (pageStart pageShift info.vpn + 1)).isSome →
    (map.findRegion (pageStart pageShift info.vpn)).isSome) ∧
  (info.syscall.isSome → os.Mapped info ∨
    os.processes.threadMap info.pid ∧
      (map.findRegion (pageStart pageShift info.vpn + 1)).any fun region =>
        checkPerms info.faultPerms region.perms)
deriving Decidable

/-- A page is transferred for the fault. -/
def transfers (info : PageFault) : Bool :=
  os.processes.threadMap info.pid &&
    match faultAction pageShift os.elfPageCache (os.processes.space info.pid) info.vpn
      info.faultPerms with
    | .copyOnWrite _ _ | .fill _ _ => true
    | .cached _ _ text => !text
    | _ => false

/-- The faults up to the first transfer can be served. -/
def Served : List PageFault → Prop
  | [] => True
  | info :: rest =>
    os.Servable pageShift info ∧ (os.transfers pageShift info = false → Served rest)

/-- A call that waits for something else has not had a page fault before; an access that
has one is not to address zero, and the fault can be served if it is alone. -/
def RegularAccess (id : Nat) (call : Syscall) : Option MemoryHandler → Prop
  | none => call.finished ∨ call.pageFaultAddr = 0
  | some handler =>
    (os.processes.space call.pid).virtToPhys pageShift handler.getAddress = some none →
      handler.getAddress ≠ 0 ∧ (os.pendingFault = [] → os.Served pageShift
        [osPageFault pageShift id
          { call with
            pageFaultAddr := handler.getAddress
            pageFaultIsWrite := handler.isWrite }])

def RegularCall (id : Nat) (call : Syscall) : Prop :=
  os.RegularAccess pageShift id call call.handler

def RegularState (id state : Nat) (call : Syscall) : SyscallProgram → Prop
  | .threadState next =>
    RegularCall pageShift { os with processes := ((next state).settle os.processes).1 } id
      { call with program := ((next state).settle os.processes).2 }
  | _ => True

/-- The calls that go on are regular, the page that has been transferred is still mapped,
and the faults that are served can be. -/
def Regular : SyscallStep → Prop
  | .syscall core hwThread program => ∀ pid ∈ os.processes.process core hwThread,
      RegularCall pageShift { os with processes := (program.settle os.processes).1 } os.created
        ⟨core, hwThread, pid, (program.settle os.processes).2, 0, false, []⟩
  | .coreEvent core hwThread state => ∀ id ∈ os.running core hwThread,
      ∀ call ∈ os.syscalls.find? id, os.RegularState pageShift id state call call.program
  | .memResp requestId resp failed =>
    ∀ entry ∈ os.memRespMap.find? fun entry => entry.1 = requestId,
      ∀ call ∈ os.syscalls.find? entry.2.1,
        ∀ after ∈ call.handleMemRespBase os.processes requestId resp failed,
          RegularCall pageShift { os with processes := after.1 } entry.2.1 after.2
  | .wake _ => True
  | .userFault reqId pid vpn faultPerms => os.pendingFault = [] →
      os.Served pageShift [⟨none, reqId, pid, vpn, faultPerms, 0⟩]
  | .pageDone => (∀ info ∈ os.pendingFault.head?, os.Mapped info) ∧
      os.Served pageShift os.pendingFault.tail

instance instDecidableServed : ∀ faults, Decidable (os.Served pageShift faults)
  | [] => inferInstanceAs (Decidable True)
  | _ :: rest =>
    have := instDecidableServed rest
    inferInstanceAs (Decidable (_ ∧ _))

instance instDecidableRegularAccess (id : Nat) (call : Syscall) :
    ∀ handler, Decidable (os.RegularAccess pageShift id call handler)
  | none => inferInstanceAs (Decidable (_ ∨ _))
  | some _ => inferInstanceAs (Decidable (_ → _ ∧ (_ → _)))

instance instDecidableRegularCall (id : Nat) (call : Syscall) :
    Decidable (os.RegularCall pageShift id call) :=
  instDecidableRegularAccess pageShift os id call call.handler

instance instDecidableRegularState (id state : Nat) (call : Syscall) :
    ∀ program, Decidable (os.RegularState pageShift id state call program)
  | .threadState _ => instDecidableRegularCall ..
  | .update .. | .access .. | .sleep | .finish _ => inferInstanceAs (Decidable True)

instance instDecidableRegular : ∀ s, Decidable (os.Regular pageShift s)
  | .syscall .. | .coreEvent .. | .memResp .. => inferInstanceAs (Decidable (∀ _ ∈ _, _))
  | .wake _ => inferInstanceAs (Decidable True)
  | .userFault .. => inferInstanceAs (Decidable (_ = _ → _))
  | .pageDone => inferInstanceAs (Decidable (_ ∧ _))

end Conditions

end SyscallOS

end SstElements.VanadisOS
