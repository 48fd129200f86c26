import Mathlib.Tactic

/-!
# Transactions, commands and banks

The records of the memory controller, and the state machine of one bank.  Each state class
of the source has its own timers.  A bank is told its next command by `handleCommand`, and
enters the state of that command in a later `clockTic`.
-/

namespace SstElements.CramSim

/-- A difference of unsigned 32-bit values. -/
def sub32 (a b : Nat) : Nat := (a + (2 ^ 32 - b % 2 ^ 32)) % 2 ^ 32

/-- A difference of cycle counts, which have 64 bits. -/
def sub64 (a b : Nat) : Nat := (a + (2 ^ 64 - b % 2 ^ 64)) % 2 ^ 64

/-- A controller without banks does not start. -/
structure Geometry where
  numChannels : Nat
  numPChannelsPerChannel : Nat
  numRanksPerChannel : Nat
  numBankGroupsPerRank : Nat
  numBanksPerBankGroup : Nat
  banks_pos :
    0 < numChannels * numPChannelsPerChannel * numRanksPerChannel * numBankGroupsPerRank *
      numBanksPerBankGroup

namespace Geometry

variable (g : Geometry)

def numPseudoChannels : Nat := g.numChannels * g.numPChannelsPerChannel

def numRanks : Nat := g.numPseudoChannels * g.numRanksPerChannel

def numBankGroups : Nat := g.numRanks * g.numBankGroupsPerRank

def numBanks : Nat := g.numBankGroups * g.numBanksPerBankGroup

def numBanksPerRank : Nat := g.numBankGroupsPerRank * g.numBanksPerBankGroup

def bankGroupOf (bank : Nat) : Nat := bank / g.numBanksPerBankGroup

def rankOf (bank : Nat) : Nat := g.bankGroupOf bank / g.numBankGroupsPerRank

def channelOf (bank : Nat) : Nat := g.rankOf bank / g.numRanksPerChannel

def bankPtrs (rank : Nat) : List Nat :=
  (List.range g.numBanksPerRank).map (rank * g.numBanksPerRank + ·)

end Geometry

structure AddressFields where
  channel : Nat
  pchannel : Nat
  rank : Nat
  bankgroup : Nat
  bank : Nat
  row : Nat
deriving DecidableEq, Repr

structure HashedAddress extends AddressFields where
  bankId : Nat
  rankId : Nat
deriving DecidableEq, Repr

/-- An address map whose fields stay below the counts of the geometry. -/
structure AddressHasher (g : Geometry) where
  fields : Nat → AddressFields
  channel_lt : ∀ address, (fields address).channel < g.numChannels
  pchannel_lt : ∀ address, (fields address).pchannel < g.numPChannelsPerChannel
  rank_lt : ∀ address, (fields address).rank < g.numRanksPerChannel
  bankgroup_lt : ∀ address, (fields address).bankgroup < g.numBankGroupsPerRank
  bank_lt : ∀ address, (fields address).bank < g.numBanksPerBankGroup

def AddressHasher.fillHashedAddress
    {g : Geometry} (hasher : AddressHasher g) (address : Nat) : HashedAddress :=
  let f := hasher.fields address
  { f with
    bankId :=
      f.bank + f.bankgroup * g.numBanksPerBankGroup +
        f.rank * g.numBanksPerBankGroup * g.numBankGroupsPerRank +
        f.pchannel * g.numBanksPerBankGroup * g.numBankGroupsPerRank * g.numRanksPerChannel +
        f.channel * g.numPChannelsPerChannel * g.numBanksPerBankGroup *
          g.numBankGroupsPerRank * g.numRanksPerChannel
    rankId :=
      f.rank + f.pchannel * g.numRanksPerChannel +
        f.channel * g.numPChannelsPerChannel * g.numRanksPerChannel }

/-- The types of the commands that are created; the source names four more. -/
inductive BankCommandType | ACT | READ | READA | WRITE | WRITEA | PRE | REF
deriving DecidableEq, Repr

/-- The identity of a command: it is the n-th of the converter or the n-th of the driver. -/
inductive CommandRef
  | converter (n : Nat)
  | driver (n : Nat)
deriving DecidableEq, Repr

structure BankCommand where
  ref : CommandRef
  seqNum : Nat
  cmdMnemonic : BankCommandType
  addr : Nat
  hashedAddr : HashedAddress
  bankId : Nat
  /-- The banks of a precharge or refresh of the refresh machinery. -/
  bankIdVec : List Nat
  isResponseReady : Bool
deriving DecidableEq, Repr

namespace BankCommand

def forBank
    (ref : CommandRef) (seqNum : Nat) (mnemonic : BankCommandType) (addr : Nat)
    (hashedAddr : HashedAddress) : BankCommand where
  ref := ref
  seqNum := seqNum
  cmdMnemonic := mnemonic
  addr := addr
  hashedAddr := hashedAddr
  bankId := hashedAddr.bankId
  bankIdVec := []
  isResponseReady := false

def forRefresh
    (ref : CommandRef) (seqNum : Nat) (mnemonic : BankCommandType)
    (hashedAddr : HashedAddress) (bankIdVec : List Nat) : BankCommand where
  ref := ref
  seqNum := seqNum
  cmdMnemonic := mnemonic
  addr := 0
  hashedAddr := hashedAddr
  bankId := bankIdVec.headD 0
  bankIdVec := bankIdVec
  isResponseReady := false

def isColCommand (cmd : BankCommand) : Bool :=
  match cmd.cmdMnemonic with
  | .READ | .READA | .WRITE | .WRITEA => true
  | .ACT | .PRE | .REF => false

def isWrite (cmd : BankCommand) : Bool := cmd.cmdMnemonic = .WRITE || cmd.cmdMnemonic = .WRITEA

end BankCommand

inductive TransactionType | READ | WRITE
deriving DecidableEq, Repr

structure Transaction where
  seqNum : Nat
  txnMnemonic : TransactionType
  addr : Nat
  dataWidth : Nat
  isResponseReady : Bool
  waitingCommands : Nat
  cmdSeqNumList : List Nat
  hashedAddr : HashedAddress
  hasHashedAddr : Bool
deriving DecidableEq, Repr

namespace Transaction

/-- The address is not decoded yet, and nothing reads the decoded address before it is. -/
def create (seqNum : Nat) (mnemonic : TransactionType) (addr dataWidth : Nat) : Transaction where
  seqNum := seqNum
  txnMnemonic := mnemonic
  addr := addr
  dataWidth := dataWidth
  isResponseReady := false
  waitingCommands := 0
  cmdSeqNumList := []
  hashedAddr := ⟨⟨0, 0, 0, 0, 0, 0⟩, 0, 0⟩
  hasHashedAddr := false

def isRead (txn : Transaction) : Bool := txn.txnMnemonic = .READ

def isWrite (txn : Transaction) : Bool := txn.txnMnemonic = .WRITE

def matchesCmdSeqNum (txn : Transaction) (seqNum : Nat) : Bool := txn.cmdSeqNumList.contains seqNum

end Transaction

/-- The timing parameters that the states and the bank hierarchy read. -/
structure BankParams where
  nRRD_L : Nat
  nRRD_S : Nat
  nRCD : Nat
  nCCD_L : Nat
  nCCD_S : Nat
  nCL : Nat
  nCWL : Nat
  nWR : Nat
  nWTR : Nat
  nWTR_L : Nat
  nWTR_S : Nat
  nRTW : Nat
  nEWTR : Nat
  nERTW : Nat
  nEWTW : Nat
  nERTR : Nat
  nRAS : Nat
  nRTP : Nat
  nRP : Nat
  nRFC : Nat
  nREFI : Nat
  nFAW : Nat
  nBL : Nat
deriving DecidableEq, Repr

inductive BankStateName | IDLE | ACTNG | ACTIVE | READ | READA | WRITE | WRITEA | PRE | REF
deriving DecidableEq, Repr

/-- An object of one of the state classes; `timer` is `m_timerEnter` of READA and WRITEA. -/
structure BankState where
  currentState : BankStateName
  timer : Nat
  timerExit : Nat
  receivedCommand : Option BankCommand
  prevCommand : Option BankCommand
  nextState : Option BankStateName

structure BankInfo where
  bankState : BankState
  lastCommandCycle : BankCommandType → Nat
  nextCommandCycle : BankCommandType → Nat

/-- What a clock tic of a bank does: the commands whose response it makes ready, and whether
the source stops with a fatal error. -/
structure BankTic where
  bank : BankInfo
  ready : List CommandRef
  fatal : Bool

def BankStateName.allowedCommands : BankStateName → List BankCommandType
  | .IDLE => [.ACT, .REF, .PRE]
  | .ACTIVE | .READ | .WRITE => [.READ, .READA, .WRITE, .WRITEA, .PRE]
  | .ACTNG | .READA | .WRITEA | .PRE | .REF => []

/-- The class of the state that a command leads to from an open row. -/
def BankCommandType.nextState : BankCommandType → Option BankStateName
  | .READ => some .READ
  | .READA => some .READA
  | .WRITE => some .WRITE
  | .WRITEA => some .WRITEA
  | .PRE => some .PRE
  | .ACT | .REF => none

namespace BankInfo

def create : BankInfo where
  bankState := ⟨.IDLE, 0, 0, none, none, none⟩
  lastCommandCycle := fun _ => 0
  nextCommandCycle := fun _ => 0

def setLast (bank : BankInfo) (cmd : BankCommandType) (cycle : Nat) : BankInfo :=
  { bank with lastCommandCycle := Function.update bank.lastCommandCycle cmd cycle }

def setNext (bank : BankInfo) (cmd : BankCommandType) (cycle : Nat) : BankInfo :=
  { bank with nextCommandCycle := Function.update bank.nextCommandCycle cmd cycle }

/-- The next cycle of a command is set to the later of its old value and a new one. -/
def raiseNext (bank : BankInfo) (cmd : BankCommandType) (cycle : Nat) : BankInfo :=
  bank.setNext cmd (max (bank.nextCommandCycle cmd) cycle)

def changeState (bank : BankInfo) (state : BankState) : BankInfo := { bank with bankState := state }

def isClosed (bank : BankInfo) : Bool :=
  bank.bankState.currentState = .PRE || bank.bankState.currentState = .IDLE

def isCommandAllowed (bank : BankInfo) (cmd : BankCommand) (cycle : Nat) : Bool :=
  bank.bankState.currentState.allowedCommands.contains cmd.cmdMnemonic &&
    bank.bankState.receivedCommand.isNone &&
    bank.nextCommandCycle cmd.cmdMnemonic ≤ cycle

/-- The part of `handleCommand` that the state of the bank does.  The states that are left
by a timer ignore commands. -/
def stateHandleCommand (bank : BankInfo) (cmd : BankCommand) (cycle : Nat) : BankInfo :=
  match bank.bankState.currentState with
  | .IDLE =>
    let bank :=
      match cmd.cmdMnemonic with
      | .ACT | .REF | .PRE => bank.setLast cmd.cmdMnemonic cycle
      | _ => bank
    match bank.bankState.receivedCommand with
    | none =>
      bank.changeState { bank.bankState with timer := 1, receivedCommand := some cmd }
    | some _ => bank
  | .ACTIVE | .READ | .WRITE =>
    match bank.bankState.receivedCommand with
    | none =>
      (bank.setLast cmd.cmdMnemonic cycle).changeState
        { bank.bankState with
          receivedCommand := some cmd
          nextState := cmd.cmdMnemonic.nextState }
    | some _ => bank
  | .ACTNG | .READA | .WRITEA | .PRE | .REF => bank

section Enter

variable (p : BankParams)

def enterIdle (bank : BankInfo) (cmd : Option BankCommand) (cycle : Nat) : BankTic where
  bank :=
    (((bank.raiseNext .ACT cycle).raiseNext .REF cycle).raiseNext .PRE cycle).changeState
      ⟨.IDLE, 0, 0, none, cmd, none⟩
  ready := []
  fatal := false

def enterActivating (bank : BankInfo) (cmd : BankCommand) : BankTic where
  bank := bank.changeState ⟨.ACTNG, 0, 0, none, some cmd, none⟩
  ready := []
  fatal := false

def enterActive (bank : BankInfo) (cmd : BankCommand) (cycle : Nat) : BankTic where
  bank :=
    let column := sub64 (cycle + p.nRCD) 2
    let bank := (((bank.raiseNext .READ column).raiseNext .READA column).raiseNext .WRITE
      column).raiseNext .WRITEA column
    (bank.raiseNext .PRE
      (max (bank.lastCommandCycle .ACT + p.nRAS)
        (max (bank.lastCommandCycle .WRITE + p.nWR)
          (bank.lastCommandCycle .READ + p.nRTP)))).changeState
      ⟨.ACTIVE, sub32 p.nCCD_L 2, 0, none, none, none⟩
  ready := [cmd.ref]
  fatal := false

def enterRead (bank : BankInfo) (cmd : BankCommand) : BankTic where
  bank :=
    let timer :=
      match cmd.cmdMnemonic with
      | .WRITE => (sub32 p.nCL p.nCWL + p.nBL) % 2 ^ 32
      | .READ => sub32 (max p.nCCD_L p.nBL) 1
      | _ => 0
    let read := bank.lastCommandCycle .READ + p.nCCD_L
    let write := bank.lastCommandCycle .READ + p.nCWL + p.nBL + p.nWTR
    let bank := (((bank.raiseNext .READ read).raiseNext .READA read).raiseNext .WRITE
      write).raiseNext .WRITEA write
    (bank.raiseNext .PRE
      (max (bank.lastCommandCycle .ACT + p.nRAS)
        (max (bank.lastCommandCycle .READA + p.nRTP)
          (bank.lastCommandCycle .READ + p.nRTP)))).changeState
      ⟨.READ, timer, 0, none, none, none⟩
  ready := [cmd.ref]
  fatal :=
    match cmd.cmdMnemonic with
    | .WRITE | .READ | .ACT => false
    | _ => true

def enterReadA (bank : BankInfo) (cmd : BankCommand) (cycle : Nat) : BankTic where
  bank :=
    let bank := bank.setLast .READA cycle
    let read := bank.lastCommandCycle .READ + p.nCCD_L
    let write := bank.lastCommandCycle .READ + p.nCWL + p.nBL + p.nWTR
    let pre :=
      max (bank.lastCommandCycle .ACT + p.nRAS)
        (max (bank.lastCommandCycle .READA + p.nRTP) (bank.lastCommandCycle .READ + p.nRTP))
    let lower := fun (bank : BankInfo) cmd cycle =>
      bank.setNext cmd (sub64 (max (bank.nextCommandCycle cmd) cycle) 1)
    (lower (lower (lower (lower (lower bank .READ read) .READA read) .WRITE write) .WRITEA
      write) .PRE pre).changeState
      ⟨.READA, sub32 (max p.nCCD_L p.nBL) 1, 0, none, none, none⟩
  ready := [cmd.ref]
  fatal := cmd.cmdMnemonic ≠ .READA

def enterWrite (bank : BankInfo) (cmd : BankCommand) : BankTic where
  bank :=
    let timer :=
      match cmd.cmdMnemonic with
      | .WRITE => max p.nCCD_L p.nBL
      | .READ | .ACT => p.nBL + p.nCWL
      | _ => 0
    let read := bank.lastCommandCycle .WRITE + p.nCWL + p.nBL + p.nWTR_L
    let write := bank.lastCommandCycle .WRITE + p.nCCD_L
    let bank := (((bank.raiseNext .READ read).raiseNext .READA read).raiseNext .WRITE
      write).raiseNext .WRITEA write
    (bank.raiseNext .PRE
      (max (bank.lastCommandCycle .ACT + p.nRAS)
        (max (bank.lastCommandCycle .WRITEA + p.nCWL + p.nBL + p.nWR)
          (bank.lastCommandCycle .WRITE + p.nCWL + p.nBL + p.nWR)))).changeState
      ⟨.WRITE, timer, 0, none, none, none⟩
  ready := [cmd.ref]
  fatal :=
    match cmd.cmdMnemonic with
    | .WRITE | .READ | .ACT => false
    | _ => true

def enterWriteA (bank : BankInfo) (cmd : BankCommand) (cycle : Nat) : BankTic where
  bank :=
    let bank := bank.setLast .WRITEA cycle
    let read := fun cmd =>
      sub64 (max (bank.nextCommandCycle cmd) (bank.lastCommandCycle .WRITE) + p.nCWL + p.nBL +
        p.nWR) p.nCL
    let bank := (bank.setNext .READ (read .READ)).setNext .READA (read .READA)
    let bank := bank.raiseNext .WRITE (cycle + p.nCCD_L)
    let bank := bank.raiseNext .PRE
      (max (sub64 (bank.lastCommandCycle .ACT + p.nRAS) 2)
        (max (bank.lastCommandCycle .WRITE) (sub64 (bank.lastCommandCycle .READ + p.nRTP) 2)))
    (bank.setNext .WRITEA
      (sub64
        (max (bank.nextCommandCycle .ACT + p.nRAS)
          (bank.lastCommandCycle .WRITEA + p.nCWL + p.nBL + p.nWR)) 2)).changeState
      ⟨.WRITEA, sub32 (max p.nCCD_L p.nBL) 1, 0, none, none, some .PRE⟩
  ready := [cmd.ref]
  fatal := cmd.cmdMnemonic ≠ .WRITEA

def enterPrecharge (bank : BankInfo) (cmd : Option BankCommand) : BankTic where
  bank := bank.changeState ⟨.PRE, sub32 p.nRP 2, 0, none, cmd, none⟩
  ready := []
  fatal := false

def enterRefresh (bank : BankInfo) (cmd : BankCommand) (cycle : Nat) : BankTic where
  bank :=
    (bank.setNext .REF
      (sub64
        (max (sub64 (bank.nextCommandCycle .REF + p.nREFI) 1) (cycle + p.nREFI)) 1)).changeState
      ⟨.REF, sub32 p.nRFC 2, 0, none, some cmd, none⟩
  ready := []
  fatal := false

/-- The state that an open row goes to with the command it received. -/
def enterNext (bank : BankInfo) (cmd : BankCommand) (cycle : Nat) : BankTic :=
  match bank.bankState.nextState with
  | some .READ => bank.enterRead p cmd
  | some .READA => bank.enterReadA p cmd cycle
  | some .WRITE => bank.enterWrite p cmd
  | some .WRITEA => bank.enterWriteA p cmd cycle
  | some .PRE => bank.enterPrecharge p (some cmd)
  | _ => ⟨bank, [], false⟩

end Enter

section ClockTic

variable (p : BankParams)

def idleClockTic (bank : BankInfo) (cycle : Nat) : BankTic :=
  let timer := sub64 bank.bankState.timer 1
  let bank' := bank.changeState { bank.bankState with timer := timer }
  if 2 < bank.bankState.timer then ⟨bank', [], false⟩
  else if timer = 1 then
    ⟨bank', (bank.bankState.prevCommand.map BankCommand.ref).toList, false⟩
  else
    match bank.bankState.receivedCommand with
    | none => ⟨bank', [], false⟩
    | some cmd =>
      match cmd.cmdMnemonic with
      | .ACT => bank'.enterActivating cmd
      | .REF => bank'.enterRefresh p cmd cycle
      | .PRE => bank'.enterPrecharge p (some cmd)
      | _ => ⟨bank', [], true⟩

/-- A timer that runs down while nothing else happens. -/
def countDown (bank : BankInfo) : BankTic :=
  ⟨bank.changeState { bank.bankState with timer := bank.bankState.timer - 1 }, [], false⟩

def activatingClockTic (bank : BankInfo) (cycle : Nat) : BankTic :=
  if 0 < bank.bankState.timer then bank.countDown
  else
    match bank.bankState.prevCommand with
    | some cmd =>
      if cmd.cmdMnemonic = .ACT then bank.enterActive p cmd cycle else ⟨bank, [], true⟩
    | none => ⟨bank, [], true⟩

def activeClockTic (bank : BankInfo) (cycle : Nat) : BankTic :=
  if 0 < bank.bankState.timer then bank.countDown
  else
    match bank.bankState.receivedCommand with
    | none => ⟨bank, [], false⟩
    | some cmd => bank.enterNext p cmd cycle

/-- What is left of a distance from a cycle in the past. -/
def remaining (cycle last distance other : Nat) : Nat :=
  if last < cycle then
    if cycle - last < distance then distance - (cycle - last) else 0
  else other

def readTimerExit (bank : BankInfo) (cmd : BankCommand) (cycle : Nat) : Option Nat :=
  match cmd.cmdMnemonic with
  | .WRITE => some (remaining cycle (bank.lastCommandCycle .READ) p.nRTW p.nRTW)
  | .READ => some 0
  | .PRE => some (remaining cycle (bank.lastCommandCycle .READ) p.nRTP (sub32 p.nRTP 1))
  | _ => none

def writeTimerExit (bank : BankInfo) (cmd : BankCommand) (cycle : Nat) : Option Nat :=
  let last := bank.lastCommandCycle .WRITE
  match cmd.cmdMnemonic with
  | .WRITE => some 0
  | .READ => some (remaining cycle (last + p.nWR + p.nWTR) (p.nWR + p.nWTR) (p.nWR + p.nWTR))
  | .PRE => some (remaining cycle (last + p.nWR) p.nWR p.nWR)
  | _ => none

/-- READ and WRITE wait for a timer after they received a command. -/
def columnClockTic
    (timerExit : BankInfo → BankCommand → Nat → Option Nat) (bank : BankInfo) (cycle : Nat) :
    BankTic :=
  if 0 < bank.bankState.timer then bank.countDown
  else
    match bank.bankState.receivedCommand with
    | none => ⟨bank, [], false⟩
    | some cmd =>
      let exit :=
        if bank.bankState.timerExit = 0 then timerExit bank cmd cycle
        else some bank.bankState.timerExit
      match exit with
      | none => ⟨bank, [], true⟩
      | some exit =>
        if 1 < exit then
          ⟨bank.changeState { bank.bankState with timerExit := exit - 1 }, [], false⟩
        else
          (bank.changeState { bank.bankState with timerExit := exit }).enterNext p cmd cycle

def readAClockTic (bank : BankInfo) (cycle : Nat) : BankTic :=
  if 0 < bank.bankState.timer then bank.countDown
  else
    let bank :=
      if bank.bankState.timerExit = 0 then
        let bank := bank.setLast .PRE cycle
        let next := sub64
          (max (bank.nextCommandCycle .PRE)
            (max (bank.lastCommandCycle .ACT + p.nRAS)
              (max (bank.lastCommandCycle .READA + p.nRTP)
                (bank.lastCommandCycle .READ + p.nRTP)))) 1
        bank.changeState
          { bank.bankState with timerExit := next - cycle, nextState := some .PRE }
      else bank
    if 1 < bank.bankState.timerExit then
      ⟨bank.changeState { bank.bankState with timerExit := bank.bankState.timerExit - 1 }, [],
        false⟩
    else bank.enterPrecharge p none

def writeAClockTic (bank : BankInfo) (cycle : Nat) : BankTic :=
  if 0 < bank.bankState.timer then bank.countDown
  else
    let bank :=
      if bank.bankState.timerExit = 0 then
        let bank := bank.setLast .WRITEA cycle
        let next := sub64
          (max (bank.nextCommandCycle .ACT + p.nRAS)
            (bank.lastCommandCycle .WRITEA + p.nCWL + p.nBL + p.nWR)) 2
        bank.changeState { bank.bankState with timerExit := next - cycle }
      else bank
    if 1 < bank.bankState.timerExit then
      ⟨bank.changeState { bank.bankState with timerExit := bank.bankState.timerExit - 1 }, [],
        false⟩
    else bank.enterPrecharge p none

def prechargeClockTic (bank : BankInfo) (cycle : Nat) : BankTic :=
  if 0 < bank.bankState.timer then bank.countDown
  else
    { bank.enterIdle none cycle with
      ready := (bank.bankState.prevCommand.map BankCommand.ref).toList }

def refreshClockTic (bank : BankInfo) (cycle : Nat) : BankTic :=
  if 0 < bank.bankState.timer then bank.countDown
  else
    { bank.enterIdle bank.bankState.receivedCommand cycle with
      ready := (bank.bankState.prevCommand.map BankCommand.ref).toList
      fatal := bank.bankState.prevCommand.map BankCommand.cmdMnemonic ≠ some .REF }

def clockTic (bank : BankInfo) (cycle : Nat) : BankTic :=
  match bank.bankState.currentState with
  | .IDLE => bank.idleClockTic p cycle
  | .ACTNG => bank.activatingClockTic p cycle
  | .ACTIVE => bank.activeClockTic p cycle
  | .READ => bank.columnClockTic p (readTimerExit p) cycle
  | .READA => bank.readAClockTic p cycle
  | .WRITE => bank.columnClockTic p (writeTimerExit p) cycle
  | .WRITEA => bank.writeAClockTic p cycle
  | .PRE => bank.prechargeClockTic cycle
  | .REF => bank.refreshClockTic cycle

end ClockTic

end BankInfo

end SstElements.CramSim
