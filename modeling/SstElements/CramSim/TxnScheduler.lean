import SstElements.CramSim.DeviceDriver

/-!
# From transactions to the commands of the driver

The transaction converter turns a transaction into commands and keeps a record of the row
that each bank will have open.  The command scheduler has a queue for each bank and offers
the heads of its queues to the driver.

The transaction scheduler names a transaction by a number; the objects are looked up in
`txns`.
-/

namespace SstElements.CramSim

section Conversion

open Function

/-- What stops the controller: three checks of its own, and everything else. -/
inductive Fault
  | pushFailed
  | inputQNotEmpty
  | unmatchedResponse
  | aborted
deriving DecidableEq, Repr

structure CmdScheduler where
  cmdQueues : Nat → Nat → List BankCommand
  nextCmdQIdx : Nat → Nat

namespace CmdScheduler

def create : CmdScheduler := ⟨fun _ _ => [], fun _ => 0⟩

variable (k : Config)

def numBanksPerChannel : Nat := k.geometry.numBanks / k.geometry.numChannels

def queueIdx (address : HashedAddress) : Nat := address.bankId % numBanksPerChannel k

def queueOf (s : CmdScheduler) (address : HashedAddress) : List BankCommand :=
  s.cmdQueues address.channel (queueIdx k address)

def setQueue (s : CmdScheduler) (channel idx : Nat) (queue : List BankCommand) : CmdScheduler :=
  { s with
    cmdQueues := update s.cmdQueues channel (update (s.cmdQueues channel) idx queue) }

def getToken (s : CmdScheduler) (address : HashedAddress) : Nat :=
  sub32 k.numCmdQEntries (s.queueOf k address).length

def push (s : CmdScheduler) (cmd : BankCommand) : Option CmdScheduler :=
  let queue := s.queueOf k cmd.hashedAddr
  if queue.length < k.numCmdQEntries then
    some (s.setQueue cmd.hashedAddr.channel (queueIdx k cmd.hashedAddr) (queue ++ [cmd]))
  else none

/-- The head of a queue goes to the driver if the driver allows and takes it. -/
def offer (channel idx : Nat) (s : CmdScheduler) (d : DeviceDriver) : CmdScheduler × DeviceDriver :=
  match s.cmdQueues channel idx with
  | [] => (s, d)
  | cmd :: rest =>
    let (allowed, d) := d.isCmdAllowed k cmd
    if allowed then
      match d.push k cmd with
      | some d => (s.setQueue channel idx rest, d)
      | none => (s, d)
    else (s, d)

/-- The policy RANK counts modulo one less than the number of banks; `none` is a division
by zero. -/
def nextIdx (idx : Nat) : Option Nat :=
  match k.cmdSchedulingPolicy with
  | .BANK => some ((idx + 1) % numBanksPerChannel k)
  | .RANK =>
    if numBanksPerChannel k = 1 then none
    else
      some ((idx + k.geometry.numBanks / k.geometry.numRanksPerChannel) %
        (numBanksPerChannel k - 1))

/-- The queues of a channel, as many as it has banks, beginning with one of them. -/
def offerAll (channel : Nat) :
    Nat → Nat → CmdScheduler → DeviceDriver → Option (CmdScheduler × DeviceDriver)
  | 0, _, s, d => some (s, d)
  | n + 1, idx, s, d =>
    let r := s.offer k channel idx d
    (nextIdx k idx).bind fun idx => offerAll channel n idx r.1 r.2

def runChannel (r : CmdScheduler × DeviceDriver) (channel : Nat) :
    Option (CmdScheduler × DeviceDriver) :=
  (offerAll k channel (numBanksPerChannel k) (r.1.nextCmdQIdx channel) r.1 r.2).bind fun r =>
    (nextIdx k (r.1.nextCmdQIdx channel)).map fun idx =>
      ({ r.1 with nextCmdQIdx := update r.1.nextCmdQIdx channel idx }, r.2)

def run (s : CmdScheduler) (d : DeviceDriver) : Option (CmdScheduler × DeviceDriver) :=
  (List.range k.geometry.numChannels).foldlM (runChannel k) (s, d)

end CmdScheduler

/-- The part of a bank's record that the converter uses. -/
structure BankRow where
  isRowOpen : Bool
  openRowNum : Nat
  autoPrechargeTimer : Nat
deriving DecidableEq, Repr

structure TxnConverter where
  bankInfo : Nat → BankRow
  /-- The number of commands created; a sequence number is its remainder. -/
  cmdSeqNum : Nat
  inputQ : List Nat

namespace TxnConverter

variable (k : Config)

def create : TxnConverter where
  bankInfo := fun _ => ⟨false, 0, if k.bankPolicy = .POPEN then k.bankCloseTime else 0⟩
  cmdSeqNum := 0
  inputQ := []

/-- The timer of the pseudo-open policy starts when a row is opened. -/
def startTimer (bank : BankRow) : BankRow :=
  if k.bankPolicy = .POPEN then { bank with autoPrechargeTimer := k.bankCloseTime } else bank

def getPreCommands (bank : BankRow) (row : Nat) : List BankCommandType × BankRow :=
  match k.bankPolicy with
  | .CLOSE => ([.ACT], bank)
  | .OPEN | .POPEN =>
    if bank.isRowOpen then
      if bank.openRowNum ≠ row then ([.PRE, .ACT], startTimer k bank) else ([], bank)
    else ([.ACT], startTimer k bank)

/-- The parameter for READA decides for writes as well. -/
def getPostCommands (bank : BankRow) (txn : TransactionType) : List BankCommandType :=
  match k.bankPolicy with
  | .CLOSE =>
    match txn, k.useReadA with
    | .READ, true => [.READA]
    | .READ, false => [.READ, .PRE]
    | .WRITE, true => [.WRITEA]
    | .WRITE, false => [.WRITE, .PRE]
  | .OPEN | .POPEN =>
    let column := match txn with | .READ => .READ | .WRITE => .WRITE
    if k.bankPolicy = .POPEN && bank.autoPrechargeTimer = 0 then [column, .PRE] else [column]

/-- The commands for the data from a given part of the transaction on. -/
def commandTypes (txn : Transaction) : Nat → Nat → BankRow → List (BankCommandType × Nat) × BankRow
  | 0, _, bank => ([], bank)
  | n + 1, i, bank =>
    let addr := (txn.addr + k.relCommandWidth * i) % 2 ^ 64
    let pre := getPreCommands k bank txn.hashedAddr.row
    let types := pre.1 ++ getPostCommands k pre.2 txn.txnMnemonic
    let rest := commandTypes txn n (i + 1) pre.2
    (types.map (·, addr) ++ rest.1, rest.2)

def numCmdsPerTrans (txn : Transaction) : Nat := txn.dataWidth / k.relCommandWidth

def getCommands (c : TxnConverter) (txn : Transaction) : List BankCommand × TxnConverter :=
  let bankId := txn.hashedAddr.bankId
  let r := commandTypes k txn (numCmdsPerTrans k txn) 0 (c.bankInfo bankId)
  (r.1.mapIdx fun i ta =>
      .forBank (.converter (c.cmdSeqNum + i)) ((c.cmdSeqNum + i) % 2 ^ 32) ta.1 ta.2
        txn.hashedAddr,
    { c with
      bankInfo := update c.bankInfo bankId r.2
      cmdSeqNum := c.cmdSeqNum + r.1.length })

def updateBankRow (bank : BankRow) (row : Nat) : BankRow :=
  match k.bankPolicy with
  | .CLOSE => { bank with isRowOpen := false }
  | .OPEN => { bank with isRowOpen := true, openRowNum := row }
  | .POPEN =>
    if bank.autoPrechargeTimer = 0 then { bank with isRowOpen := false }
    else { bank with isRowOpen := true, openRowNum := row }

def updateBankInfo (c : TxnConverter) (txn : Transaction) : TxnConverter :=
  let bankId := txn.hashedAddr.bankId
  { c with
    bankInfo :=
      update c.bankInfo bankId
        (updateBankRow k (c.bankInfo bankId) txn.hashedAddr.row) }

/-- The transaction waits for one answer, and knows its commands by their numbers. -/
def noteCommands (txn : Transaction) (cmds : List BankCommand) : Transaction :=
  { txn with
    waitingCommands := 1
    cmdSeqNumList := txn.cmdSeqNumList ++ cmds.map BankCommand.seqNum }

/-- The timers of the banks with an open row, under the pseudo-open policy. -/
def clockTics (c : TxnConverter) : TxnConverter :=
  if k.bankPolicy = .POPEN then
    { c with
      bankInfo := fun bank =>
        if (c.bankInfo bank).isRowOpen then
          { c.bankInfo bank with autoPrechargeTimer := (c.bankInfo bank).autoPrechargeTimer - 1 }
        else c.bankInfo bank }
  else c

end TxnConverter

end Conversion

structure TxnScheduler where
  txnQ : Nat → List Nat
  txnReadQ : Nat → List Nat
  txnWriteQ : Nat → List Nat
  flushWriteQueue : Bool

namespace TxnScheduler

def create : TxnScheduler := ⟨fun _ => [], fun _ => [], fun _ => [], false⟩

variable (k : Config)
variable (txns : Nat → Transaction)

def push (s : TxnScheduler) (id : Nat) : Option TxnScheduler :=
  let txn := txns id
  let channel := txn.hashedAddr.channel
  let add := fun (queues : Nat → List Nat) =>
    if (queues channel).length < k.numTxnQEntries then
      some (Function.update queues channel (queues channel ++ [id]))
    else none
  if !k.isReadFirstScheduling then (add s.txnQ).map fun q => { s with txnQ := q }
  else if txn.isRead then (add s.txnReadQ).map fun q => { s with txnReadQ := q }
  else (add s.txnWriteQ).map fun q => { s with txnWriteQ := q }

/-- The transactions that a read may be answered from. -/
def hitQueue (s : TxnScheduler) (channel : Nat) : List Nat :=
  if !k.isReadFirstScheduling then s.txnQ channel else s.txnWriteQ channel

def isHit (s : TxnScheduler) (id : Nat) : Bool :=
  let txn := txns id
  txn.isRead &&
    (s.hitQueue k txn.hashedAddr.channel).any fun other =>
      (txns other).isWrite && (txns other).addr = txn.addr

/-- The queue is read up to the first transaction that is not older. -/
def hasDependancy (s : TxnScheduler) (id channel : Nat) : Bool :=
  let txn := txns id
  let queue :=
    if !k.isReadFirstScheduling then s.txnQ channel
    else if txn.isRead then s.txnWriteQ channel
    else s.txnReadQ channel
  (queue.takeWhile fun other => (txns other).seqNum < txn.seqNum).any fun other =>
    (txns other).addr = txn.addr

section Selection

variable (token : HashedAddress → Nat)
variable (bankInfo : Nat → BankRow)

/-- The transaction found so far is replaced by later ones until one hits an open row. -/
def firstReady (s : TxnScheduler) (channel : Nat) : List Nat → Option Nat → Option Nat
  | [], found => found
  | id :: rest, found =>
    let address := (txns id).hashedAddr
    if 3 ≤ token address && !s.hasDependancy k txns id channel then
      let bank := bankInfo address.bankId
      if bank.isRowOpen && bank.openRowNum = address.row then some id
      else firstReady s channel rest (some id)
    else firstReady s channel rest found

def getNextTxn (s : TxnScheduler) (queue : List Nat) (channel : Nat) : Option Nat :=
  match k.txnSchedulingPolicy with
  | .FCFS =>
    queue.head?.filter fun id =>
      3 ≤ token (txns id).hashedAddr && !s.hasDependancy k txns id channel
  | .FRFCFS => s.firstReady k txns token bankInfo channel queue none

/-- With read-first scheduling the numbers of waiting reads and writes choose the queue. -/
def chooseFlush (s : TxnScheduler) (channel : Nat) : Bool :=
  let writes := (s.txnWriteQ channel).length
  let reads := (s.txnReadQ channel).length
  if k.maxNumPendingWrite ≤ writes || reads = 0 then true
  else if writes < k.minNumPendingWrite && reads ≠ 0 then false
  else s.flushWriteQueue

/-- The transaction of a channel that is its turn, and the scheduler without it. -/
def select (s : TxnScheduler) (channel : Nat) : Option Nat × TxnScheduler :=
  let next := fun (s : TxnScheduler) queue => s.getNextTxn k txns token bankInfo queue channel
  let ready := fun id => 3 ≤ token (txns id).hashedAddr
  let takeFrom := fun (queues : Nat → List Nat) id =>
    Function.update queues channel ((queues channel).filter (· ≠ id))
  if !k.isReadFirstScheduling then
    match next s (s.txnQ channel) with
    | some id => if ready id then (some id, { s with txnQ := takeFrom s.txnQ id }) else (none, s)
    | none => (none, s)
  else
    let s := { s with flushWriteQueue := s.chooseFlush k channel }
    let fromWrites := fun id =>
      if ready id then (some id, { s with txnWriteQ := takeFrom s.txnWriteQ id }) else (none, s)
    let fromReads := fun id =>
      if ready id then (some id, { s with txnReadQ := takeFrom s.txnReadQ id }) else (none, s)
    let writes := next s (s.txnWriteQ channel)
    let reads := next s (s.txnReadQ channel)
    if s.flushWriteQueue then
      match writes, reads with
      | some id, _ => fromWrites id
      | none, some id => fromReads id
      | none, none => (none, s)
    else
      match reads, writes with
      | some id, _ => fromReads id
      | none, some id => fromWrites id
      | none, none => (none, s)

/-- Every channel hands at most one transaction to the converter. -/
def run (s : TxnScheduler) : List Nat × TxnScheduler :=
  (List.range k.geometry.numChannels).foldl
    (fun r channel =>
      let selected := r.2.select k txns token bankInfo channel
      (r.1 ++ selected.1.toList, selected.2)) ([], s)

end Selection

end TxnScheduler

end SstElements.CramSim
