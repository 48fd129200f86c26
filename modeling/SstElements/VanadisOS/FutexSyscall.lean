import SstElements.Library.History
import SstElements.Library.KeyedQueues
import SstElements.Library.Transition

/-!
# The futex system call

Threads of a process store to memory and call the operating system, which talks to memory
by requests and responses.  A thread that waits compares the word by a load link and a
store conditional, and is queued at the response to the second one.  A futex word is
aligned, so one request reads or writes it; pages are resident here.
-/

namespace SstElements.VanadisOS

open Library Function

inductive FutexOp
  | wait
  | wake
  | requeue
  deriving DecidableEq

/-- The private flag is dropped; `none` are the operations that are not supported. -/
def futexOp (op : Nat) : Option FutexOp :=
  if op < 2 ^ 8 then
    match (if op.testBit 7 then op - 128 else op) with
    | 0 => some .wait
    | 1 => some .wake
    | 3 => some .requeue
    | _ => none
  else
    none

/-- The event of a call, with the number of the call. -/
structure FutexCall where
  id : Nat
  tid : Nat
  addr : Nat
  op : Nat
  val : Nat
  stackPtr : Nat
  val2 : Nat
  addr2 : Nat
  deriving DecidableEq

def LINUX_EAGAIN : Int := 11

/-- What a system call waits for from memory. -/
inductive FutexPhase
  | loadLink
  | storeConditional (val : Nat)
  | readAddr
  | readArgs (numWokeup : Nat)
  deriving DecidableEq

inductive MemCmd
  | loadLink (addr : Nat)
  | storeConditional (addr val : Nat)
  | read (addr : Nat)
  | readPair (addr : Nat)
  deriving DecidableEq

def MemCmd.isStoreConditional : MemCmd → Bool
  | .storeConditional _ _ => true
  | _ => false

/-- The request of a system call in a phase. -/
def FutexPhase.cmd (call : FutexCall) : FutexPhase → MemCmd
  | .loadLink => .loadLink call.addr
  | .storeConditional val => .storeConditional call.addr val
  | .readAddr => .read call.addr
  | .readArgs _ => .readPair call.stackPtr

structure MemReq where
  call : FutexCall
  cmd : MemCmd
  deriving DecidableEq

/-- A response has up to two words. -/
structure MemResp where
  call : FutexCall
  cmd : MemCmd
  data : Nat × Nat
  failed : Bool
  deriving DecidableEq

inductive FutexEvent
  | issued (call : FutexCall)
  | changed (tid addr : Nat)
  | loaded (call : FutexCall) (val : Nat)
  | enqueued (call : FutexCall)
  | woke (call : FutexCall) (waiters woken : List FutexCall)
  | requeueWoke (call : FutexCall) (waiters woken : List FutexCall)
  | moved (call : FutexCall) (val2 : Nat) (waiters moved : List FutexCall)
  | answered (call : FutexCall) (returnCode : Int)
  deriving DecidableEq

/-- The calls on their way from each thread, the calls that wait for memory, the queues, the
channels to memory and back, and memory: its words and the lines that are linked. -/
structure FutexOS where
  toOs : Nat → List FutexCall
  inflight : List (FutexCall × FutexPhase)
  futexMap : KeyedQueues Nat FutexCall
  osToMem : List MemReq
  memToOs : List MemResp
  word : Nat → Nat
  linked : Nat → Bool
  issued : Nat
  failed : Bool
  history : List FutexEvent

/-- A call is issued, a thread stores, a line loses its link, the operating system receives
a call, memory serves a request, and the operating system handles a response. -/
inductive FutexStep
  | issue (tid addr op val stackPtr val2 addr2 : Nat)
  | store (tid addr val : Nat)
  | unlink (line : Nat)
  | receive (tid : Nat)
  | memory
  | respond
  deriving DecidableEq

namespace FutexOS

def initial (word : Nat → Nat) : FutexOS where
  toOs _ := []
  inflight := []
  futexMap := .empty
  osToMem := []
  memToOs := []
  word := word
  linked _ := false
  issued := 0
  failed := false
  history := []

def note (os : FutexOS) (event : FutexEvent) : FutexOS :=
  { os with history := os.history ++ [event] }

/-- The return code goes to the thread, and the system call is deleted. -/
def answer (os : FutexOS) (call : FutexCall) (returnCode : Int) : FutexOS :=
  os.note (.answered call returnCode)

def wakeup (os : FutexOS) (woken : List FutexCall) : FutexOS :=
  woken.foldl (fun os call => os.answer call 0) os

def request (os : FutexOS) (call : FutexCall) (phase : FutexPhase) : FutexOS :=
  { os with
    inflight := os.inflight ++ [(call, phase)]
    osToMem := os.osToMem ++ [⟨call, phase.cmd call⟩] }

/-- `none` is the failed assertion that the call is not queued yet. -/
def addWait (futexMap : KeyedQueues Nat FutexCall) (addr : Nat) (call : FutexCall) :
    Option (KeyedQueues Nat FutexCall) :=
  if call ∈ futexMap.queue addr then none else some (futexMap.push addr call)

/-- Move waiters one by one from the first address to the second one. -/
def moveWaits (addr addr2 : Nat) :
    Nat → KeyedQueues Nat FutexCall → Option (List FutexCall × KeyedQueues Nat FutexCall)
  | 0, futexMap => some ([], futexMap)
  | n + 1, futexMap =>
    match futexMap.pop addr with
    | none => moveWaits addr addr2 n futexMap
    | some (call, rest) =>
      (addWait rest addr2 call).bind fun futexMap =>
        (moveWaits addr addr2 n futexMap).map fun (moved, futexMap) => (call :: moved, futexMap)

/-- A wake: one waiter at most is woken, whatever the number is. -/
def wake (os : FutexOS) (call : FutexCall) : FutexOS :=
  let waiters := os.futexMap.queue call.addr
  match os.futexMap.pop call.addr with
  | some (waiter, futexMap) =>
    (({ os with futexMap := futexMap }.note (.woke call waiters [waiter])).wakeup
      [waiter]).answer call 1
  | none => (os.note (.woke call waiters [])).answer call 0

/-- The constructor of the system call. -/
def create (os : FutexOS) (call : FutexCall) : Option FutexOS :=
  (futexOp call.op).map fun
    | .wake => os.wake call
    | .wait => os.request call .loadLink
    | .requeue => os.request call .readAddr

def finish (os : FutexOS) (call : FutexCall) (numWokeup val2 addr2 : Nat) : FutexOS :=
  let waiters := os.futexMap.queue call.addr
  match moveWaits call.addr addr2 (min val2 waiters.length) os.futexMap with
  | some (moved, futexMap) =>
    ({ os with futexMap := futexMap }.note (.moved call val2 waiters moved)).answer call
      numWokeup
  | none => { os with failed := true }

/-- The number of waiters to wake is the word that was read. -/
def requeue (os : FutexOS) (call : FutexCall) (val : Nat) : FutexOS :=
  let waiters := os.futexMap.queue call.addr
  let popped := os.futexMap.popMany call.addr (min val waiters.length)
  let woken := ({ os with futexMap := popped.2 }.note
    (.requeueWoke call waiters popped.1)).wakeup popped.1
  let numWokeup := popped.1.length
  if waiters.length - numWokeup = 0 then
    woken.answer call numWokeup
  else if call.stackPtr ≠ 0 then
    woken.request call (.readArgs numWokeup)
  else
    woken.finish call numWokeup call.val2 call.addr2

def enqueue (os : FutexOS) (call : FutexCall) : FutexOS :=
  match addWait os.futexMap call.addr call with
  | some futexMap => { os with futexMap := futexMap }.note (.enqueued call)
  | none => { os with failed := true }

def memReqIsDone
    (os : FutexOS) (call : FutexCall) (data : Nat × Nat) (failed : Bool) :
    FutexPhase → FutexOS
  | .loadLink =>
    if data.1 = call.val then
      os.request call (.storeConditional data.1)
    else
      os.answer call (-LINUX_EAGAIN)
  | .storeConditional _ => if failed then os.answer call (-LINUX_EAGAIN) else os.enqueue call
  | .readAddr => os.requeue call data.1
  | .readArgs numWokeup => os.finish call numWokeup data.1 data.2

/-- Any store to a line, and a store conditional that succeeds, ends its link. -/
def serve (lineSize : Nat) (os : FutexOS) (req : MemReq) : FutexOS :=
  let respond (os : FutexOS) (data : Nat × Nat) (failed : Bool) : FutexOS :=
    { os with memToOs := os.memToOs ++ [⟨req.call, req.cmd, data, failed⟩] }
  match req.cmd with
  | .loadLink addr =>
    respond ({ os with linked := update os.linked (addr / lineSize) true }.note
      (.loaded req.call (os.word addr))) (os.word addr, 0) false
  | .storeConditional addr val =>
    if os.linked (addr / lineSize) then
      respond
        { os with
          word := update os.word addr val
          linked := update os.linked (addr / lineSize) false } (0, 0) false
    else
      respond os (0, 0) true
  | .read addr => respond os (os.word addr, 0) false
  | .readPair addr => respond os (os.word addr, os.word (addr + 4)) false

def step (lineSize : Nat) (os : FutexOS) (s : FutexStep) : Option FutexOS :=
  if os.failed then
    none
  else
    match s with
    | .issue tid addr op val stackPtr val2 addr2 =>
      let call : FutexCall := ⟨os.issued, tid, addr, op, val, stackPtr, val2, addr2⟩
      some ({ os with
        toOs := update os.toOs tid (os.toOs tid ++ [call])
        issued := os.issued + 1 }.note (.issued call))
    | .store tid addr val =>
      let stored :=
        { os with
          word := update os.word addr val
          linked := update os.linked (addr / lineSize) false }
      some (if os.word addr = val then stored else stored.note (.changed tid addr))
    | .unlink line => some { os with linked := update os.linked line false }
    | .receive tid =>
      match os.toOs tid with
      | [] => none
      | call :: rest => { os with toOs := update os.toOs tid rest }.create call
    | .memory =>
      match os.osToMem with
      | [] => none
      | req :: rest => some ({ os with osToMem := rest }.serve lineSize req)
    | .respond =>
      match os.memToOs with
      | [] => none
      | resp :: rest =>
        (os.inflight.find? fun entry => entry.1 = resp.call).map fun entry =>
          { os with
            memToOs := rest
            inflight := os.inflight.eraseP fun entry => entry.1 = resp.call }.memReqIsDone
            entry.1 resp.data resp.failed entry.2

def issues (history : List FutexEvent) : List FutexCall :=
  history.filterMap fun
    | .issued call => some call
    | _ => none

def answers (history : List FutexEvent) : List FutexCall :=
  history.filterMap fun
    | .answered call _ => some call
    | _ => none

def isLoaded (call : FutexCall) : FutexEvent → Bool
  | .loaded call' _ => call' = call
  | _ => false

def isChanged (addr : Nat) : FutexEvent → Bool
  | .changed _ addr' => addr' = addr
  | _ => false

def isWoke (call : FutexCall) : FutexEvent → Bool
  | .woke call' _ _ => call' = call
  | _ => false

/-- The word was compared, then the thread of the wake changed it and issued the wake. -/
def comparedBefore (waiter call : FutexCall) : List (FutexEvent → Bool) :=
  [isLoaded waiter, (· = .changed call.tid waiter.addr), (· = .issued call)]

/-- The futex calls do what they are for. -/
structure Sound (os : FutexOS) : Prop where
  running : os.failed = false
  numbered : (issues os.history).map FutexCall.id = List.range os.issued
  once : ∀ call, (((os.toOs call.tid).count call + (os.inflight.map Prod.fst).count call : Nat) :
      Int) + os.futexMap.members call + ((answers os.history).count call : Int) =
    ((issues os.history).count call : Int)
  settled : os.osToMem = [] → os.memToOs = [] → os.inflight = []
  eagain : ∀ call val, .loaded call val ∈ os.history → val ≠ call.val →
    .enqueued call ∉ os.history ∧
      ∀ code : Int, .answered call code ∈ os.history → code = -LINUX_EAGAIN
  woken : ∀ call waiters woken, .woke call waiters woken ∈ os.history →
    woken = waiters.take call.val ∧ (∀ waiter ∈ woken, .answered waiter 0 ∈ os.history) ∧
      ∀ code : Int, .answered call code ∈ os.history → code = woken.length
  notLost : ∀ waiter call, call.addr = waiter.addr →
    ¬inOrder (comparedBefore waiter call ++ [isWoke call, (· = .enqueued waiter)]) os.history
  requeued : ∀ call waiters woken, .requeueWoke call waiters woken ∈ os.history →
    woken.length ≤ call.val ∧ woken <+: waiters ∧
      (∀ waiter ∈ woken, .answered waiter 0 ∈ os.history) ∧
      ∀ code : Int, .answered call code ∈ os.history → code = woken.length
  moved : ∀ call val2 waiters moved, .moved call val2 waiters moved ∈ os.history →
    moved.length ≤ val2 ∧ moved <+: waiters

/-- A wake is for as many waiters as one is, and comes when no waiter that compared before
the change has its store conditional performed but not answered.  A store conditional that
succeeds has no change behind it since the load.  The word that a requeue reads is no more
than its number, or the waiters are not. -/
def Regular (lineSize : Nat) (os : FutexOS) : FutexStep → Prop
  | .issue .. | .store .. | .unlink _ => True
  | .receive tid => ∀ call ∈ (os.toOs tid).head?, futexOp call.op = some .wake →
      min 1 (os.futexMap.queue call.addr).length =
        min call.val (os.futexMap.queue call.addr).length ∧
      ∀ resp ∈ os.memToOs, resp.cmd.isStoreConditional → resp.failed = false →
        call.addr = resp.call.addr → ¬inOrder (comparedBefore resp.call call) os.history
  | .memory => ∀ req ∈ os.osToMem.head?, req.cmd.isStoreConditional →
      os.linked (req.call.addr / lineSize) →
      ¬inOrder [isLoaded req.call, isChanged req.call.addr] os.history
  | .respond => ∀ resp ∈ os.memToOs.head?, resp.cmd = .read resp.call.addr →
      min resp.data.1 (os.futexMap.queue resp.call.addr).length ≤ resp.call.val

instance instDecidableRegular
    (lineSize : Nat) (os : FutexOS) :
    ∀ s, Decidable (Regular lineSize os s)
  | .issue .. | .store .. | .unlink _ => inferInstanceAs (Decidable True)
  | .receive _ | .memory | .respond => inferInstanceAs (Decidable (∀ _ ∈ _, _))

end FutexOS

end SstElements.VanadisOS
