import SstElements.Library.History
import SstElements.Library.OrderedContainer
import SstElements.Library.Transition

/-!
# The exit of threads and processes

Hardware threads are taken from a pool by clone and fork, and go back to it by exit and
exit_group, which delete the process object of a thread.  System calls and page faults of
other threads refer to their own objects, and a page fault finds its process by the number
of the process among the numbers of the threads.
-/

namespace SstElements.VanadisOS

open Library Function

structure HwThreadID where
  core : Nat
  hwThread : Nat
  deriving DecidableEq

/-- The object of a thread; it is known by the number of the thread. -/
structure ProcessInfo where
  pid : Nat
  tid : Nat
  hwThread : HwThreadID
  deriving DecidableEq

/-- The calls that deal with threads, and all others. -/
inductive CallKind
  | clone
  | fork
  | exit
  | exitGroup
  | other
  deriving DecidableEq

/-- A call of this kind deletes its process at its end. -/
def CallKind.exits : CallKind → Bool
  | .exit | .exitGroup => true
  | _ => false

/-- A call waits for memory, for its page fault, or for something else. -/
inductive CallStatus
  | accessing
  | faulting
  | blocked
  deriving DecidableEq

inductive CallNext
  | access
  | fault
  | block
  | finish
  deriving DecidableEq

structure ThreadCall where
  kind : CallKind
  process : Nat
  hwThread : HwThreadID
  status : CallStatus

/-- A fault of a system call has its number. -/
structure ThreadFault where
  pid : Nat
  syscall : Option Nat
  deriving DecidableEq

/-- The end of a group, with the hardware threads of the others and those to which a halt
was sent; a fault that is looked at, with the threads of its process. -/
inductive ExitEvent
  | responded (hwThread : HwThreadID) (tid : Nat) (exited : Bool)
  | exitGroup (group halted : List HwThreadID)
  | fault (pid : Nat) (served : Bool) (threads : List Nat)
  deriving DecidableEq

/-- The process objects that exist are known by their threads, and so are the processes of
the hardware threads; calls are known by number.  The flag tells that a deleted object was
referred to. -/
structure ExitOS where
  availHwThreads : List HwThreadID
  threadMap : Nat → Bool
  processes : OrderedMap Nat ProcessInfo
  process : HwThreadID → Option Nat
  syscall : HwThreadID → Option Nat
  syscalls : OrderedMap Nat ThreadCall
  pendingFault : List ThreadFault
  currentTid : Nat
  created : Nat
  dangling : Bool
  failed : Bool
  history : List ExitEvent

/-- The response of memory to a call, the event of a core for it, a wake of a call, a fault
of a thread, and the end of the first fault. -/
inductive ExitStep
  | syscall (hwThread : HwThreadID) (kind : CallKind) (next : CallNext)
  | memResp (id : Nat) (next : CallNext)
  | coreEvent (hwThread : HwThreadID) (next : CallNext)
  | wake (id : Nat)
  | userFault (pid : Nat)
  | faultDone
  deriving DecidableEq

namespace ExitOS

def note (os : ExitOS) (event : ExitEvent) : ExitOS := { os with history := os.history ++ [event] }

def assertFailed (os : ExitOS) : ExitOS := { os with failed := true }

def refersToDeleted (os : ExitOS) : ExitOS := { os with dangling := true }

def getThreadList (os : ExitOS) (pid : Nat) : List ProcessInfo :=
  (os.processes.entries.map Prod.snd).filter fun process => process.pid = pid

def allocHwThread (os : ExitOS) : Option (HwThreadID × ExitOS) :=
  match os.availHwThreads with
  | [] => none
  | hwThread :: rest => some (hwThread, { os with availHwThreads := rest })

def setProcess (os : ExitOS) (hwThread : HwThreadID) (process : Option Nat) : ExitOS :=
  { os with process := update os.process hwThread process }

def setThread (os : ExitOS) (tid : Nat) : ExitOS :=
  { os with threadMap := update os.threadMap tid true }

/-- A new thread gets a hardware thread; `none` is the fatal error that there is none. -/
def newThread (os : ExitOS) (tid pid : Nat) : Option ExitOS :=
  os.allocHwThread.map fun (hwThread, os) =>
    ({ os with processes := os.processes.insert tid ⟨pid, tid, hwThread⟩ }.setThread
      tid).setProcess hwThread (some tid)

/-- The thread leaves the maps, and its hardware thread goes back to the pool. -/
def removeThread (os : ExitOS) (hwThread : HwThreadID) (tid : Nat) : ExitOS :=
  if os.threadMap tid then
    { os.setProcess hwThread none with
      threadMap := update os.threadMap tid false
      availHwThreads := os.availHwThreads ++ [hwThread] }
  else
    os.assertFailed

/-- The destructor of a process object. -/
def deleteProcess (os : ExitOS) (tid : Nat) : ExitOS :=
  { os with processes := os.processes.erase tid }

/-- The other threads of the group end.  Their halts are sent to the core of the caller. -/
def exitThreads (os : ExitOS) (threads : List ProcessInfo) : ExitOS :=
  threads.foldl (fun os thread => (os.removeThread thread.hwThread thread.tid).deleteProcess
    thread.tid) os

def exitGroup (os : ExitOS) (hwThread : HwThreadID) (caller : ProcessInfo) : ExitOS :=
  let others := (os.getThreadList caller.pid).filter fun thread => thread.tid ≠ caller.tid
  ((os.note (.exitGroup (others.map ProcessInfo.hwThread)
    (others.map fun thread => ⟨hwThread.core, thread.hwThread.hwThread⟩))).exitThreads
    others).removeThread hwThread caller.tid

/-- The destructor of a call clears its hardware thread. -/
def destructor (os : ExitOS) (id : Nat) (call : ThreadCall) (process : ProcessInfo) : ExitOS :=
  match os.syscall process.hwThread with
  | none => os.assertFailed
  | some _ =>
    let os := { os with
      syscalls := os.syscalls.erase id
      syscall := update os.syscall process.hwThread none }.note
        (.responded call.hwThread process.tid call.kind.exits)
    if call.kind.exits then os.deleteProcess call.process else os

/-- The end of a call; an exit removes its thread first. -/
def complete (os : ExitOS) (id : Nat) (call : ThreadCall) (process : ProcessInfo) : ExitOS :=
  (if call.kind = .exit then os.removeThread call.hwThread process.tid else os).destructor id
    call process

/-- Look at the faults in order: a fault whose process is not found is done, and a call
goes on after it. -/
def pageFaultFini (os : ExitOS) (info : ThreadFault) : ExitOS :=
  match info.syscall with
  | none => os
  | some id =>
    match os.syscalls.find? id with
    | none => os.assertFailed
    | some call =>
      match os.processes.find? call.process with
      | none => os.refersToDeleted
      | some _ =>
        { os with syscalls := os.syscalls.insert id { call with status := .accessing } }

def serveFaults (os : ExitOS) : List ThreadFault → ExitOS
  | [] => { os with pendingFault := [] }
  | info :: rest =>
    let looked := os.note (.fault info.pid (os.threadMap info.pid)
      ((os.getThreadList info.pid).map ProcessInfo.tid))
    if os.threadMap info.pid then
      { looked with pendingFault := info :: rest }
    else
      (looked.pageFaultFini info).serveFaults rest

def pageFaultHandler (os : ExitOS) (info : ThreadFault) : ExitOS :=
  match os.pendingFault with
  | [] => os.serveFaults [info]
  | faults => { os with pendingFault := faults ++ [info] }

/-- After anything that has happened to a call. -/
def processSyscallPost (os : ExitOS) (id : Nat) (call : ThreadCall) (next : CallNext) : ExitOS :=
  match os.processes.find? call.process with
  | none => os.refersToDeleted
  | some process =>
    let store (status : CallStatus) : ExitOS :=
      { os with syscalls := os.syscalls.insert id { call with status := status } }
    match next with
    | .finish => os.complete id call process
    | .access => store .accessing
    | .block => store .blocked
    | .fault => (store .faulting).pageFaultHandler ⟨process.pid, some id⟩

/-- What the constructor of a call does to the threads. -/
def construct (os : ExitOS) (hwThread : HwThreadID) (caller : ProcessInfo) :
    CallKind → Option ExitOS
  | .clone => { os with currentTid := os.currentTid + 1 }.newThread os.currentTid caller.pid
  | .fork => { os with currentTid := os.currentTid + 1 }.newThread os.currentTid os.currentTid
  | .exitGroup => some (os.exitGroup hwThread caller)
  | .exit | .other => some os

/-- A call is refused while its thread waits for another one. -/
def handleIncomingSyscall (os : ExitOS) (hwThread : HwThreadID) (kind : CallKind)
    (next : CallNext) : Option ExitOS :=
  match (os.process hwThread).bind os.processes.find? with
  | none => some os.refersToDeleted
  | some caller =>
    match os.syscall hwThread with
    | some id =>
      if (os.syscalls.find? id).any fun call => call.process = caller.tid then
        none
      else
        some os.assertFailed
    | none =>
      let id := os.created
      let call : ThreadCall := ⟨kind, caller.tid, hwThread, .blocked⟩
      ({ os with
        created := id + 1
        syscalls := os.syscalls.insert id call
        syscall := update os.syscall hwThread (some id) }.construct hwThread caller
          kind).map fun (os : ExitOS) =>
            os.processSyscallPost id call (if kind = CallKind.exitGroup then .finish else next)

def step (os : ExitOS) (s : ExitStep) : Option ExitOS :=
  if os.failed ∨ os.dangling then
    none
  else
    match s with
    | .syscall hwThread kind next => os.handleIncomingSyscall hwThread kind next
    | .memResp id next =>
      (os.syscalls.find? id).bind fun call =>
        if call.status = .accessing then some (os.processSyscallPost id call next) else none
    | .coreEvent hwThread next =>
      (os.syscall hwThread).bind fun id => (os.syscalls.find? id).bind fun call =>
        if call.status = .blocked ∧ (call.kind = .clone ∨ call.kind = .fork) then
          some (os.processSyscallPost id call next)
        else
          none
    | .wake id =>
      (os.syscalls.find? id).bind fun call =>
        if call.status = .blocked ∧ call.kind = .other then
          some (os.processSyscallPost id call .finish)
        else
          none
    | .userFault pid => some (os.pageFaultHandler ⟨pid, none⟩)
    | .faultDone =>
      match os.pendingFault with
      | [] => none
      | info :: rest => some ((os.pageFaultFini info).serveFaults rest)

end ExitOS

/-- The machine, and the processes that are started, in the order of the thread map. -/
structure ExitSetup where
  coreCount : Nat
  hardwareThreadCount : Nat
  tids : List Nat
  tids_perm : tids.Perm (List.range' 100 tids.length)
  length_le : tids.length ≤ coreCount * hardwareThreadCount

namespace ExitOS

def hwThreads (setup : ExitSetup) : List HwThreadID :=
  (List.range setup.coreCount ×ˢ List.range setup.hardwareThreadCount).map fun (core, hwThread) =>
    ⟨core, hwThread⟩

/-- Before any process is started. -/
def idle (setup : ExitSetup) : ExitOS where
  availHwThreads := hwThreads setup
  threadMap _ := false
  processes := .empty
  process _ := none
  syscall _ := none
  syscalls := .empty
  pendingFault := []
  currentTid := 100 + setup.tids.length
  created := 0
  dangling := false
  failed := false
  history := []

/-- Each process is started on the next hardware thread. -/
def startAll (os : ExitOS) (tids : List Nat) : ExitOS :=
  tids.foldl (fun os tid => (os.newThread tid tid).getD os) os

def initial (setup : ExitSetup) : ExitOS := (idle setup).startAll setup.tids

/-- The hardware thread is in the pool and has no thread, or it is not and has one. -/
def Owned (os : ExitOS) (hwThread : HwThreadID) : Prop :=
  (hwThread ∈ os.availHwThreads ∧ os.process hwThread = none ∧
    ∀ tid process, os.processes.find? tid = some process → process.hwThread ≠ hwThread) ∨
  (hwThread ∉ os.availHwThreads ∧ ∃ tid, os.process hwThread = some tid ∧
    ∀ tid', (∃ process, os.processes.find? tid' = some process ∧ process.hwThread = hwThread) ↔
      tid' = tid)

structure Sound (setup : ExitSetup) (os : ExitOS) : Prop where
  running : os.failed = false
  alive : os.dangling = false
  pool : os.availHwThreads.Nodup
  owned : ∀ hwThread ∈ hwThreads setup, os.Owned hwThread
  halted : ∀ group halted, .exitGroup group halted ∈ os.history → halted = group
  served : ∀ pid served threads, .fault pid served threads ∈ os.history → threads ≠ [] →
    served = true

/-- A fault is looked at while the process is found by its number, or has no threads. -/
def Findable (os : ExitOS) (pid : Nat) : Prop := os.threadMap pid ∨ os.getThreadList pid = []
deriving Decidable

def Served (os : ExitOS) : List ThreadFault → Prop
  | [] => True
  | info :: rest =>
    os.Findable info.pid ∧ (os.threadMap info.pid = false → Served os rest)

/-- The fault that a call would have can be looked at. -/
def FindableCall (os : ExitOS) (process : Nat) (next : CallNext) : Prop :=
  next = .fault → os.pendingFault = [] →
    ∀ info ∈ os.processes.find? process, os.Findable info.pid
deriving Decidable

/-- A call comes from a thread that exists.  The other threads of a group that ends are on
the core of the caller and have no call.  Faults are looked at while their process is found
by its number, or has no threads. -/
def Regular (os : ExitOS) : ExitStep → Prop
  | .syscall hwThread kind next => ∃ caller ∈ (os.process hwThread).bind os.processes.find?,
      (kind = .exitGroup → ∀ thread ∈ os.getThreadList caller.pid, thread.tid ≠ caller.tid →
        thread.hwThread.core = hwThread.core ∧ os.syscall thread.hwThread = none) ∧
      (kind ≠ .exitGroup → os.FindableCall caller.tid next)
  | .memResp id next => ∀ call ∈ os.syscalls.find? id, os.FindableCall call.process next
  | .coreEvent hwThread next => ∀ id ∈ os.syscall hwThread, ∀ call ∈ os.syscalls.find? id,
      os.FindableCall call.process next
  | .wake _ => True
  | .userFault pid => os.pendingFault = [] → os.Findable pid
  | .faultDone => os.Served os.pendingFault.tail

section Decidable

variable (os : ExitOS)

instance instDecidableServed : ∀ faults, Decidable (os.Served faults)
  | [] => inferInstanceAs (Decidable True)
  | _ :: rest =>
    have := instDecidableServed rest
    inferInstanceAs (Decidable (_ ∧ _))

instance instDecidableRegular : ∀ s, Decidable (os.Regular s)
  | .syscall .. => inferInstanceAs (Decidable (∃ _ ∈ _, _))
  | .memResp .. | .coreEvent .. => inferInstanceAs (Decidable (∀ _ ∈ _, _))
  | .wake _ => inferInstanceAs (Decidable True)
  | .userFault _ => inferInstanceAs (Decidable (_ = _ → _))
  | .faultDone => inferInstanceAs (Decidable (os.Served os.pendingFault.tail))

end Decidable

end ExitOS

end SstElements.VanadisOS
