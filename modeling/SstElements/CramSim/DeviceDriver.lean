import SstElements.CramSim.BankInfo

/-!
# The device driver

The driver keeps the commands that the command scheduler gave it, sends those that the
banks and the command buses allow, and closes and refreshes banks on its own.
-/

namespace SstElements.CramSim

open Function

inductive BankPolicy | CLOSE | OPEN | POPEN
deriving DecidableEq, Repr

inductive TxnSchedulingPolicy | FCFS | FRFCFS
deriving DecidableEq, Repr

inductive CmdSchedulingPolicy | BANK | RANK
deriving DecidableEq, Repr

/-- The parameters of the controller and of its subcomponents. -/
structure Config where
  geometry : Geometry
  hasher : AddressHasher geometry
  bankParams : BankParams
  useDualCommandBus : Bool
  multiCycleACT : Bool
  useRefresh : Bool
  useSBRefresh : Bool
  numCmdQEntries : Nat
  numCmdQEntries_lt : numCmdQEntries < 2 ^ 32
  cmdSchedulingPolicy : CmdSchedulingPolicy
  relCommandWidth : Nat
  useReadA : Bool
  bankPolicy : BankPolicy
  bankCloseTime : Nat
  txnSchedulingPolicy : TxnSchedulingPolicy
  numTxnQEntries : Nat
  isReadFirstScheduling : Bool
  maxNumPendingWrite : Nat
  minNumPendingWrite : Nat
  enableQuickResponse : Bool

/-- An entry of the command trace, or a precharge that is dropped. -/
inductive DriverRecord
  | issued (cycle bank : Nat) (cmd : BankCommand)
  | dropped (cmd : BankCommand)
deriving DecidableEq, Repr

structure DeviceDriver where
  simCycle : Nat
  banks : Nat → BankInfo
  inputQ : List BankCommand
  outputQ : List BankCommand
  blockBank : Nat → Bool
  inflightWrites : List Nat
  blockRowCmd : Nat → Nat
  blockColCmd : Nat → Nat
  currentREFICount : Nat → Nat
  refreshCmdQ : Nat → List BankCommand
  nextBankToRefresh : Nat → Nat
  lastDataCmdIssueCycle : Nat
  lastDataCmdType : BankCommandType
  lastChannel : Nat
  lastPseudoChannel : Nat
  cmdACTFAWtrackers : Nat → List Nat
  isACTIssued : Nat → Bool
  /-- The number of commands that the driver created. -/
  created : Nat
  /-- The commands that were issued and the precharges that were dropped, in order. -/
  history : List DriverRecord

def otherBankNextCommandCycles
    (g : Geometry) (p : BankParams) (init : Nat) (cmd : BankCommandType) (cycle : Nat)
    (other : Nat) (bank : BankInfo) : BankInfo :=
  let columns := fun (read write : Nat) =>
    let read := max (max (bank.nextCommandCycle .READ) (bank.nextCommandCycle .READA)) read
    let write := max (max (bank.nextCommandCycle .WRITE) (bank.nextCommandCycle .WRITEA)) write
    (((bank.setNext .READ read).setNext .READA read).setNext .WRITE write).setNext .WRITEA write
  if other = init then bank
  else if g.bankGroupOf other = g.bankGroupOf init then
    match cmd with
    | .ACT => bank.raiseNext .ACT (cycle + p.nRRD_L)
    | .READ | .READA =>
      columns (cycle + max p.nCCD_L p.nBL) (sub64 (cycle + p.nCL + p.nBL + p.nRTW) p.nCWL)
    | .WRITE | .WRITEA =>
      columns (cycle + p.nCWL + p.nBL + p.nWTR_L) (cycle + max p.nCCD_L p.nBL)
    | .PRE | .REF => bank
  else if g.rankOf other = g.rankOf init then
    match cmd with
    | .ACT => bank.raiseNext .ACT (cycle + p.nRRD_S)
    | .READ | .READA =>
      columns (cycle + max p.nCCD_S p.nBL) (sub64 (cycle + p.nCL + p.nBL + p.nRTW) p.nCWL)
    | .WRITE | .WRITEA =>
      columns (cycle + p.nCWL + p.nBL + p.nWTR_S) (cycle + max p.nCCD_S p.nBL)
    | .PRE | .REF => bank
  else if g.channelOf other = g.channelOf init then
    let burst := max p.nBL (min p.nCCD_S p.nCCD_L)
    match cmd with
    | .READ | .READA =>
      columns (cycle + burst + p.nERTR) (sub64 (cycle + p.nCL + burst + p.nERTW) p.nCWL)
    | .WRITE | .WRITEA =>
      columns (sub64 (cycle + p.nCWL + burst + p.nEWTR) p.nCL) (cycle + burst + p.nEWTW)
    | .ACT | .PRE | .REF => bank
  else bank

namespace DeviceDriver

section Bus

/-- A timer that runs down to zero, for each bus. -/
def release (buses : Nat → Nat) : Nat → Nat := fun channel => buses channel - 1

def releaseCommandBus (d : DeviceDriver) : DeviceDriver :=
  { d with blockColCmd := release d.blockColCmd, blockRowCmd := release d.blockRowCmd }

def isCommandBusAvailable (d : DeviceDriver) (cmd : BankCommand) : Bool :=
  if cmd.isColCommand then d.blockColCmd cmd.hashedAddr.channel = 0
  else d.blockRowCmd cmd.hashedAddr.channel = 0

def occupyBuses (k : Config) (d : DeviceDriver) (cmd : BankCommand) : DeviceDriver :=
  let channel := cmd.hashedAddr.channel
  let cycles := if cmd.cmdMnemonic = .ACT && k.multiCycleACT then 2 else 1
  if k.useDualCommandBus then
    if cmd.isColCommand then
      { d with blockColCmd := update d.blockColCmd channel cycles }
    else { d with blockRowCmd := update d.blockRowCmd channel cycles }
  else
    { d with
      blockColCmd := update d.blockColCmd channel 1
      blockRowCmd := update d.blockRowCmd channel 1 }

def allBusesOccupied (k : Config) (d : DeviceDriver) : Bool :=
  (List.range k.geometry.numChannels).all fun channel =>
    d.blockColCmd channel ≠ 0 && d.blockRowCmd channel ≠ 0

end Bus

section Issue

variable (k : Config)

/-- A command goes to a bank, and the other banks learn of it. -/
def handleCommand (d : DeviceDriver) (bank : Nat) (cmd : BankCommand) : DeviceDriver :=
  let banks := update d.banks bank ((d.banks bank).stateHandleCommand cmd d.simCycle)
  { d with
    banks := fun other =>
      otherBankNextCommandCycles k.geometry k.bankParams bank cmd.cmdMnemonic d.simCycle other
        (banks other) }

/-- The command is sent if its bank allows it; otherwise nothing changes. -/
def sendCommand (d : DeviceDriver) (cmd : BankCommand) (bank : Nat) : Option DeviceDriver :=
  if (d.banks bank).isCommandAllowed cmd d.simCycle then
    let d := d.handleCommand k bank cmd
    some
      { d with
        outputQ := d.outputQ ++ [cmd]
        history := d.history ++ [.issued d.simCycle bank cmd] }
  else none

def isRefreshing (d : DeviceDriver) (address : HashedAddress) : Bool :=
  !(d.refreshCmdQ address.rankId).isEmpty

end Issue

section SendRequest

variable (k : Config)

/-- What `sendRequest` does with one command of its input queue. -/
inductive RequestOutcome
  | keep
  | leave
  | leaveAndStop
  | keepAndStop
deriving DecidableEq, Repr

/-- The last data command, and the ACT flag of the rank; `none` is a failed assertion. -/
def noteIssued (d : DeviceDriver) (cmd : BankCommand) : Option DeviceDriver :=
  let p := k.bankParams
  let spaced :=
    d.lastDataCmdType ≠ cmd.cmdMnemonic || d.lastPseudoChannel ≠ cmd.hashedAddr.pchannel ||
      d.lastChannel ≠ cmd.hashedAddr.channel ||
      min p.nBL (max p.nCCD_L p.nCCD_S) ≤ d.simCycle - d.lastDataCmdIssueCycle
  let d' :=
    if cmd.isColCommand then
      { d with
        lastChannel := cmd.hashedAddr.channel
        lastDataCmdIssueCycle := d.simCycle
        lastDataCmdType := cmd.cmdMnemonic
        lastPseudoChannel := cmd.hashedAddr.pchannel }
    else d
  if cmd.isColCommand && !spaced then none
  else if cmd.cmdMnemonic = .ACT then
    if d.isACTIssued cmd.hashedAddr.rankId then none
    else
      some { d' with isACTIssued := update d'.isACTIssued cmd.hashedAddr.rankId true }
  else some d'

/-- The end of the iteration for a command whose turn it is. -/
def issueRequest (d : DeviceDriver) (cmd : BankCommand) : Option (RequestOutcome × DeviceDriver) :=
  let bank := cmd.hashedAddr.bankId
  if !d.isCommandBusAvailable cmd then some (.keep, d)
  else if cmd.cmdMnemonic = .PRE && (d.banks bank).isClosed then
    some (.leave, { d with history := d.history ++ [.dropped cmd] })
  else
    match d.sendCommand k cmd bank with
    | none => some (.keep, d)
    | some d =>
      (d.noteIssued k cmd).map fun d =>
        let d := d.occupyBuses k cmd
        (if d.allBusesOccupied k then .leaveAndStop else .leave, d)

/-- One iteration of the loop over the input queue. -/
def sendOne (actsInFAW : Nat → Nat) (d : DeviceDriver) (cmd : BankCommand) :
    Option (RequestOutcome × DeviceDriver) :=
  let bank := cmd.hashedAddr.bankId
  if k.useRefresh && d.isRefreshing cmd.hashedAddr then some (.keep, d)
  else
    let first := !d.blockBank bank
    let d := { d with blockBank := update d.blockBank bank true }
    if cmd.cmdMnemonic = .REF then some (.keepAndStop, d)
    else
      let inflight := d.inflightWrites.contains (cmd.addr % 2 ^ 32)
      let proceed :=
        first && !(cmd.cmdMnemonic = .ACT && 4 ≤ actsInFAW cmd.hashedAddr.rankId) && !inflight
      let d :=
        if cmd.isWrite then { d with inflightWrites := cmd.addr % 2 ^ 32 :: d.inflightWrites }
        else d
      if proceed then d.issueRequest k cmd else some (.keep, d)

/-- The loop over the input queue; the result is what stays in the queue. -/
def sendLoop (actsInFAW : Nat → Nat) :
    List BankCommand → DeviceDriver → Option (List BankCommand × DeviceDriver)
  | [], d => some ([], d)
  | cmd :: rest, d =>
    match d.sendOne k actsInFAW cmd with
    | none => none
    | some (.keep, d) => (sendLoop actsInFAW rest d).map fun r => (cmd :: r.1, r.2)
    | some (.leave, d) => sendLoop actsInFAW rest d
    | some (.leaveAndStop, d) => some (rest, d)
    | some (.keepAndStop, d) => some (cmd :: rest, d)

def numIssuedACTinFAW (d : DeviceDriver) (rank : Nat) : Nat := (d.cmdACTFAWtrackers rank).sum

def sendRequest (d : DeviceDriver) : Option DeviceDriver :=
  (sendLoop k d.numIssuedACTinFAW d.inputQ d).map fun r => { r.2 with inputQ := r.1 }

end SendRequest

section Refresh

variable (k : Config)

/-- The copies of a refresh command for its banks are sent to those that allow them. -/
def sendCopies (d : DeviceDriver) (cmd : BankCommand) : DeviceDriver :=
  cmd.bankIdVec.foldl
    (fun d bank =>
      let copy := { cmd with ref := .driver d.created, seqNum := bank, isResponseReady := false }
      let d := { d with created := d.created + 1 }
      (d.sendCommand k copy bank).getD d) d

def sendRefresh (d : DeviceDriver) (rank : Nat) : DeviceDriver :=
  match d.refreshCmdQ rank with
  | [] => d
  | cmd :: rest =>
    let banks := if cmd.bankIdVec.isEmpty then [cmd.bankId] else cmd.bankIdVec
    if !banks.all fun bank => (d.banks bank).isCommandAllowed cmd d.simCycle then d
    else if !d.isCommandBusAvailable cmd then d
    else
      let d :=
        if cmd.bankIdVec.isEmpty then (d.sendCommand k cmd cmd.bankId).getD d
        else d.sendCopies k cmd
      { d with refreshCmdQ := update d.refreshCmdQ rank rest }.occupyBuses k cmd

def refreshAddress (rank : Nat) : HashedAddress :=
  let channel := rank / k.geometry.numRanksPerChannel
  if 1 < k.geometry.numPseudoChannels then
    let channel := channel % k.geometry.numChannels
    ⟨⟨channel, channel / k.geometry.numChannels, 0, 0, 0, 0⟩, 0, rank⟩
  else ⟨⟨channel, 0, 0, 0, 0, 0⟩, 0, rank⟩

/-- An ACT goes in front of a column command that is the first for its bank. -/
def activateAgain (d : DeviceDriver) (bank : Nat) : DeviceDriver :=
  match d.inputQ.find? fun cmd => cmd.bankId = bank with
  | some cmd =>
    if cmd.isColCommand then
      { d with
        inputQ := .forBank (.driver d.created) 0 .ACT cmd.addr cmd.hashedAddr :: d.inputQ
        created := d.created + 1 }
    else d
  | none => d

def createRefreshCmds (d : DeviceDriver) (rank : Nat) : DeviceDriver :=
  let banks := k.geometry.bankPtrs rank
  let next := d.nextBankToRefresh rank
  let requester := if k.useSBRefresh then [banks.getD next 0] else banks
  let d :=
    if k.useSBRefresh then
      { d with
        nextBankToRefresh := update d.nextBankToRefresh rank ((next + 1) % banks.length) }
    else d
  let toClose := requester.filter fun bank => !(d.banks bank).isClosed
  let address := refreshAddress k rank
  let pre := BankCommand.forRefresh (.driver d.created) 0 .PRE address toClose
  let ref := BankCommand.forRefresh (.driver (d.created + 1)) 0 .REF address requester
  let d :=
    { d with
      refreshCmdQ := update d.refreshCmdQ rank (if toClose.isEmpty then [ref] else [pre, ref])
      created := d.created + 2 }
  requester.foldl activateAgain d

def refreshRank (d : DeviceDriver) (rank : Nat) : DeviceDriver :=
  let d :=
    if 0 < d.currentREFICount rank then
      { d with
        currentREFICount := update d.currentREFICount rank (d.currentREFICount rank - 1) }
    else
      let d := d.createRefreshCmds k rank
      { d with currentREFICount := update d.currentREFICount rank k.bankParams.nREFI }
  d.sendRefresh k rank

end Refresh

section Interface

variable (k : Config)

/-- A command with banks of its own is sent to the device once. -/
def goesToDevice (cmd : BankCommand) : Bool :=
  cmd.bankIdVec.isEmpty || cmd.bankIdVec.head? = some cmd.seqNum

/-- Requests, refreshes and the commands that are ready for the device. -/
def run (d : DeviceDriver) : Option (DeviceDriver × List BankCommand) :=
  let d := d.releaseCommandBus
  let d := if k.useRefresh then (List.range k.geometry.numRanks).foldl (refreshRank k) d else d
  (d.sendRequest k).map fun d =>
    ({ d with outputQ := d.outputQ.filter fun cmd => !cmd.isResponseReady },
      (d.outputQ.filter BankCommand.isResponseReady).filter goesToDevice)

def markReady (ready : List CommandRef) (cmd : BankCommand) : BankCommand :=
  if ready.contains cmd.ref then { cmd with isResponseReady := true } else cmd

/-- The clock tics of the banks and the preparation of the driver; `none` is a fatal error
of a bank. -/
def update (d : DeviceDriver) (simCycle : Nat) : Option DeviceDriver :=
  let tics := fun bank => (d.banks bank).clockTic k.bankParams simCycle
  let all := (List.range k.geometry.numBanks).map tics
  if all.any BankTic.fatal then none
  else
    some <| releaseCommandBus
      { d with
        simCycle := simCycle
        banks := fun bank => (tics bank).bank
        outputQ := d.outputQ.map (markReady (all.flatMap BankTic.ready))
        cmdACTFAWtrackers := fun rank =>
          (d.cmdACTFAWtrackers rank ++ [if d.isACTIssued rank then 1 else 0]).tail
        inflightWrites := []
        blockBank := fun _ => false
        isACTIssued := fun _ => false }

def isCmdAllowed (d : DeviceDriver) (cmd : BankCommand) : Bool × DeviceDriver :=
  let bank := cmd.hashedAddr.bankId
  if k.useRefresh && d.isRefreshing cmd.hashedAddr then (false, d)
  else if cmd.isColCommand && (d.banks bank).isClosed then
    if d.inputQ.any fun c => c.bankId = cmd.bankId && c.cmdMnemonic = .ACT then (false, d)
    else
      (false,
        { d with
          inputQ := d.inputQ ++ [.forBank (.driver d.created) 0 .ACT cmd.addr cmd.hashedAddr]
          created := d.created + 1 })
  else
    (d.isCommandBusAvailable cmd && (d.banks bank).isCommandAllowed cmd d.simCycle, d)

def push (d : DeviceDriver) (cmd : BankCommand) : Option DeviceDriver :=
  if d.inputQ.length < 32 then
    some ({ d with inputQ := d.inputQ ++ [cmd] }.occupyBuses k cmd)
  else none

def create : DeviceDriver where
  simCycle := 0
  banks := fun _ => .create
  inputQ := []
  outputQ := []
  blockBank := fun _ => false
  inflightWrites := []
  blockRowCmd := fun _ => 0
  blockColCmd := fun _ => 0
  currentREFICount := fun rank => k.bankParams.nREFI / (rank + 1)
  refreshCmdQ := fun _ => []
  nextBankToRefresh := fun _ => 0
  lastDataCmdIssueCycle := 0
  lastDataCmdType := .READ
  lastChannel := 0
  lastPseudoChannel := 0
  cmdACTFAWtrackers := fun _ => List.replicate (sub32 k.bankParams.nFAW 1) 0
  isACTIssued := fun _ => false
  created := 0
  history := []

end Interface

end DeviceDriver

end SstElements.CramSim
