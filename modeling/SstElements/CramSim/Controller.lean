import SstElements.CramSim.TxnScheduler

/-!
# The memory controller and its device

Transactions come from a requester, commands go to the device, and the device answers
column commands.  The controller works once in every cycle.
-/

namespace SstElements.CramSim

open Function

structure Controller where
  simCycle : Nat
  txns : Nat → Transaction
  ReqQ : List Nat
  ResQ : List Nat
  txnScheduler : TxnScheduler
  txnConverter : TxnConverter
  cmdScheduler : CmdScheduler
  deviceDriver : DeviceDriver
  /-- The number of transaction objects. -/
  created : Nat
  /-- The transaction of the requester that an object stands for. -/
  request : Nat → Nat

/-- A read that was answered from a queue, and what the queue held. -/
structure QueueHit where
  id : Nat
  read : Transaction
  queue : List (Nat × Transaction)

/-- The controller, the column commands that the device has not answered, and what went
over the links so far. -/
structure MemorySystem where
  controller : Controller
  device : List BankCommand
  received : List Nat
  sent : List Nat
  generated : List (Nat × BankCommand)
  answered : List BankCommand
  hits : List QueueHit

inductive MemoryEvent
  | transaction (seqNum : Nat) (mnemonic : TransactionType) (addr dataWidth : Nat)
  | clock
  /-- The device answers one of the commands it has. -/
  | response (i : Nat)
deriving DecidableEq, Repr

namespace Controller

variable (k : Config)

def create : Controller where
  simCycle := 0
  txns := fun _ => .create 0 .READ 0 0
  ReqQ := []
  ResQ := []
  txnScheduler := .create
  txnConverter := .create k
  cmdScheduler := .create
  deviceDriver := .create k
  created := 0
  request := fun _ => 0

def setTxn (c : Controller) (id : Nat) (txn : Transaction) : Controller :=
  { c with txns := update c.txns id txn }

/-- A new object for a transaction of the requester. -/
def newTxn (c : Controller) (txn : Transaction) (request : Nat) : Controller :=
  { c with
    txns := update c.txns c.created txn
    request := update c.request c.created request
    created := c.created + 1 }

def sendResponse (c : Controller) : List Nat × Controller :=
  (c.ResQ.filter fun id => (c.txns id).isResponseReady,
    { c with ResQ := c.ResQ.filter fun id => !(c.txns id).isResponseReady })

section Requests

def setHashedAddress (c : Controller) (id : Nat) : Controller :=
  let txn := c.txns id
  if txn.hasHashedAddr then c
  else
    c.setTxn id
      { txn with hashedAddr := k.hasher.fillHashedAddress txn.addr, hasHashedAddr := true }

def setResponseReady (c : Controller) (id : Nat) : Controller :=
  c.setTxn id { c.txns id with isResponseReady := true }

/-- With quick responses a write is answered by an object of its own. -/
def quickResponse (c : Controller) (id : Nat) : Controller :=
  if k.enableQuickResponse && (c.txns id).isWrite then
    let txn := c.txns id
    let response :=
      { Transaction.create txn.seqNum txn.txnMnemonic txn.addr txn.dataWidth with
        isResponseReady := true }
    { c.newTxn response (c.request id) with ResQ := c.ResQ ++ [c.created] }
  else c

/-- The loop over the request queue; the results are what stays there and the reads that
are answered from a queue. -/
def acceptRequests : List Nat → Controller → List Nat × List QueueHit × Controller
  | [], c => ([], [], c)
  | id :: rest, c =>
    let c := c.setHashedAddress k id
    if k.enableQuickResponse && c.txnScheduler.isHit k c.txns id then
      let queue := c.txnScheduler.hitQueue k (c.txns id).hashedAddr.channel
      let hit := ⟨id, c.txns id, queue.map fun other => (other, c.txns other)⟩
      let r := acceptRequests rest (c.setResponseReady id)
      (r.1, hit :: r.2.1, r.2.2)
    else
      match c.txnScheduler.push k c.txns id with
      | some s => acceptRequests rest ({ c with txnScheduler := s }.quickResponse k id)
      | none => (id :: rest, [], c)

end Requests

section Conversion

def token (c : Controller) (address : HashedAddress) : Nat := c.cmdScheduler.getToken k address

def runTxnScheduler (c : Controller) : Controller :=
  let r := c.txnScheduler.run k c.txns (c.token k) c.txnConverter.bankInfo
  { c with
    txnScheduler := r.2
    txnConverter := { c.txnConverter with inputQ := c.txnConverter.inputQ ++ r.1 } }

/-- The commands of a transaction go to the command scheduler one after the other. -/
def pushCommands (s : CmdScheduler) (cmds : List BankCommand) : Option CmdScheduler :=
  cmds.foldlM (CmdScheduler.push k) s

/-- A transaction is converted if the queue of its bank has room for three commands. -/
def convert (c : Controller) (id : Nat) : Except Fault (Bool × List BankCommand × Controller) :=
  let txn := c.txns id
  if 3 ≤ c.token k txn.hashedAddr then
    if k.relCommandWidth = 0 then .error .aborted
    else
      let r := c.txnConverter.getCommands k txn
      let c := { c.setTxn id (TxnConverter.noteCommands txn r.1) with txnConverter := r.2 }
      if r.1.isEmpty then .ok (false, [], c)
      else
        match pushCommands k c.cmdScheduler r.1 with
        | none => .error .pushFailed
        | some s =>
          .ok (true, r.1,
            { c with
              cmdScheduler := s
              txnConverter := c.txnConverter.updateBankInfo k txn })
  else .ok (false, [], c)

/-- The loop over the converter's input queue; the results are what stays there and the
commands that were generated. -/
def convertAll : List Nat → Controller →
    Except Fault (List Nat × List (Nat × BankCommand) × Controller)
  | [], c => .ok ([], [], c)
  | id :: rest, c => do
      let (done, cmds, c) ← c.convert k id
      let (kept, more, c) ← convertAll rest c
      return (if done then kept else id :: kept, cmds.map (id, ·) ++ more, c)

def runTxnConverter (c : Controller) : Except Fault (List (Nat × BankCommand) × Controller) := do
  let (kept, cmds, c) ← convertAll k c.txnConverter.inputQ c
  if kept.isEmpty then
    return (cmds, { c with txnConverter := { c.txnConverter.clockTics k with inputQ := [] } })
  else throw .inputQNotEmpty

end Conversion

section Commands

/-- Everything outside the checks of the controller stops it in the same way. -/
def orAbort {α : Type} : Option α → Except Fault α
  | some a => .ok a
  | none => .error .aborted

def updateDriver (c : Controller) : Except Fault Controller :=
  (orAbort (c.deviceDriver.update k c.simCycle)).map fun d => { c with deviceDriver := d }

def runCmdScheduler (c : Controller) : Except Fault Controller :=
  (orAbort (c.cmdScheduler.run k c.deviceDriver)).map fun r =>
    { c with cmdScheduler := r.1, deviceDriver := r.2 }

def runDriver (c : Controller) : Except Fault (List BankCommand × Controller) :=
  (orAbort (c.deviceDriver.run k)).map fun r => (r.2, { c with deviceDriver := r.1 })

/-- The answer to a command is counted for the first transaction that knows its number. -/
def handleResponse (c : Controller) (cmd : BankCommand) : Except Fault Controller :=
  match c.ResQ.find? fun id => (c.txns id).matchesCmdSeqNum cmd.seqNum with
  | none => .error .unmatchedResponse
  | some id =>
    let txn := c.txns id
    let left := sub32 txn.waitingCommands 1
    if left = 0 then
      let c := c.setTxn id { txn with waitingCommands := left, isResponseReady := true }
      if k.enableQuickResponse && !txn.isRead then
        .ok { c with ResQ := c.ResQ.erase id }
      else .ok c
    else .ok (c.setTxn id { txn with waitingCommands := left })

end Commands

end Controller

namespace MemorySystem

variable (k : Config)

def create : MemorySystem where
  controller := .create k
  device := []
  received := []
  sent := []
  generated := []
  answered := []
  hits := []

def handleIncomingTransaction (s : MemorySystem) (txn : Transaction) : MemorySystem :=
  let id := s.controller.created
  let c := s.controller.newTxn txn id
  { s with
    controller := { c with ReqQ := c.ReqQ ++ [id], ResQ := c.ResQ ++ [id] }
    received := s.received ++ [id] }

def clockRequests (s : MemorySystem) : Except Fault MemorySystem := do
  let c := { s.controller with simCycle := s.controller.simCycle + 1 }
  let sent := c.sendResponse.1.map c.request
  let c ← c.sendResponse.2.updateDriver k
  let (kept, hits, c) := Controller.acceptRequests k c.ReqQ c
  return { s with
    controller := { c with ReqQ := kept }
    sent := s.sent ++ sent
    hits := s.hits ++ hits }

/-- The way of transactions and commands in the rest of the cycle. -/
def clockCommands (s : MemorySystem) : Except Fault MemorySystem := do
  let c := s.controller.runTxnScheduler k
  let (cmds, c) ← c.runTxnConverter k
  let c ← c.runCmdScheduler k
  let (toDevice, c) ← c.runDriver k
  return { s with
    controller := c
    device := s.device ++ toDevice.filter BankCommand.isColCommand
    generated := s.generated ++ cmds }

def clockTic (s : MemorySystem) : Except Fault MemorySystem := s.clockRequests k >>= clockCommands k

/-- The device answers each column command once. -/
def handleDeviceResponse (s : MemorySystem) (i : Nat) : Except Fault MemorySystem :=
  match s.device[i]? with
  | none => .error .aborted
  | some cmd =>
    (s.controller.handleResponse k cmd).map fun c =>
      { s with
        controller := c
        device := s.device.eraseIdx i
        answered := s.answered ++ [cmd] }

def handle (s : MemorySystem) : MemoryEvent → Except Fault MemorySystem
  | .transaction seqNum mnemonic addr dataWidth =>
    .ok (s.handleIncomingTransaction (.create seqNum mnemonic addr dataWidth))
  | .clock => s.clockTic k
  | .response i => s.handleDeviceResponse k i

/-- The states after an event that stops nothing. -/
def step (s : MemorySystem) (e : MemoryEvent) : Option MemorySystem := (s.handle k e).toOption

end MemorySystem

end SstElements.CramSim
