import SstElements.Library.Transition
import SstElements.MemHierarchy.MemTypes

/-!
# The timing DRAM backend

A channel has ranks and a rank has banks.  A bank turns transactions into
commands and remembers the row that is open once all its queued commands have
been issued.  In each cycle a channel retires the commands that are done,
answers one transaction and issues at most one command.

Cycles are natural numbers; the cycle from which the data bus is available is
kept in 32 bits.  The page policy and the address mapper are parameters.
-/

namespace SstElements.MemHierarchy.TimingDRAM

open Function

/-- A read or write on its way through a channel. -/
structure Transaction where
  createTime : Nat
  id : Nat
  addr : Addr
  isWrite : Bool
  numBytes : Nat
  bank : Nat
  row : UInt32
deriving DecidableEq, Repr

/-- The row of a bank with no open row: `-1` as an unsigned number. -/
def noRow : UInt32 := 0xFFFFFFFF

/-- `Cmd::Op`. -/
inductive Op where | PRE | ACT | COL
deriving DecidableEq, Repr

/-- A command of a bank. -/
structure Cmd where
  rank : Nat
  bank : Nat
  op : Op
  cycles : Nat
  row : UInt32
  dataCycles : Nat
  trans : Option Transaction
  issueTime : Nat
  finiTime : Nat
  dataBusAvailCycle : Nat
deriving DecidableEq, Repr

/-- The latencies of the banks of a channel. -/
structure BankParams where
  col_rd_lat : Nat
  col_wr_lat : Nat
  rcd_lat : Nat
  trp_lat : Nat
  data_lat : Nat
deriving DecidableEq, Repr

/-- The transaction queues: first in first out, or reordering in a window. -/
inductive TransactionQ where
  | fifo
  | reorder (windowCycles : Nat)
deriving DecidableEq, Repr

def TransactionQ.pop (kind : TransactionQ) (row : UInt32) :
    List Transaction → Option (Transaction × List Transaction)
  | [] => none
  | one :: rest =>
    match kind, rest with
    | .fifo, rest => some (one, rest)
    | .reorder _, [] => some (one, [])
    | .reorder windowCycles, two :: rest =>
      if one.row = row then some (one, two :: rest)
      else if two.row = row ∧
          one.createTime + windowCycles > two.createTime then
        some (two, one :: rest)
      else some (one, two :: rest)

/-- A page policy with its own state. -/
structure PagePolicy (κ : Type) where
  shouldClose : κ → Nat → Bool × κ
  canClose : κ → Bool

/-- What the channel is configured with. -/
structure Config (κ : Type) where
  params : BankParams
  transQ : TransactionQ
  policy : PagePolicy κ
  getRank : Addr → Nat
  getBank : Addr → Nat
  getRow : Addr → UInt32
  numRanks : Nat
  numBanks : Nat
  maxPendingTrans : Nat

structure Bank (κ : Type) where
  rank : Nat
  bank : Nat
  lastCmd : Option Cmd
  row : UInt32
  cmdQ : List Cmd
  transQ : List Transaction
  pagePolicy : κ

section Commands

variable {κ : Type}

def Bank.newCmd (b : Bank κ) (op : Op) (cycles : Nat) (row : UInt32)
    (dataCycles : Nat) (trans : Option Transaction) : Cmd where
  rank := b.rank
  bank := b.bank
  op := op
  cycles := cycles
  row := row
  dataCycles := dataCycles
  trans := trans
  issueTime := 0
  finiTime := 0
  dataBusAvailCycle := 0

def Cmd.isDone (c : Cmd) (now : Nat) : Bool := decide (now ≥ c.finiTime)

/-- The last command of the bank does not keep this one from being issued. -/
def Cmd.mayFollow (c : Cmd) (currentCycle : Nat) : Option Cmd → Bool
  | none => true
  | some last =>
    decide (c.op = .COL ∧ last.op = .COL ∧ last.issueTime + c.dataCycles ≤ currentCycle)

/-- The times that `canIssue` gives a command. -/
def Cmd.timed (c : Cmd) (currentCycle dataBusAvailCycle : Nat) : Cmd :=
  let c :=
    { c with
      issueTime := currentCycle
      finiTime := currentCycle + c.cycles
      dataBusAvailCycle := dataBusAvailCycle }
  if c.finiTime ≥ dataBusAvailCycle then
    { c with
      finiTime := c.finiTime + c.dataCycles
      dataBusAvailCycle := c.finiTime + c.dataCycles }
  else c

/-- `canIssue`: whether the command can be issued, and the command after. -/
def Cmd.canIssue (c : Cmd) (lastCmd : Option Cmd)
    (currentCycle dataBusAvailCycle : Nat) : Bool × Cmd :=
  if c.mayFollow currentCycle lastCmd then
    (decide (currentCycle + c.cycles ≥ dataBusAvailCycle), c.timed currentCycle dataBusAvailCycle)
  else (false, c)

end Commands

section Banks

variable {κ : Type} (cfg : Config κ)

def Bank.serve (b : Bank κ) (trans : Transaction) : Bank κ :=
  let close :=
    if trans.row ≠ b.row ∧ b.row ≠ noRow then
      [b.newCmd .PRE cfg.params.trp_lat noRow 0 none]
    else []
  let activate :=
    if trans.row ≠ b.row then
      [b.newCmd .ACT cfg.params.rcd_lat trans.row 0 none]
    else []
  let val := if trans.isWrite then cfg.params.col_wr_lat else cfg.params.col_rd_lat
  { b with
    row := trans.row
    cmdQ := b.cmdQ ++ close ++ activate ++
      [b.newCmd .COL val trans.row cfg.params.data_lat (some trans)] }

def Bank.serveNext (b : Bank κ) : Bank κ :=
  match cfg.transQ.pop b.row b.transQ with
  | none => b
  | some (tr, rest) => Bank.serve cfg { b with transQ := rest } tr

/-- Closes the row that the policy does not keep open. -/
def Bank.close (b : Bank κ) : Bank κ :=
  { b with
    row := noRow
    cmdQ := b.cmdQ ++ [b.newCmd .PRE cfg.params.trp_lat noRow 0 none] }

def Bank.update (b : Bank κ) (current : Nat) : Bank κ :=
  if b.lastCmd.isNone ∧ b.row ≠ noRow then
    let answer := cfg.policy.shouldClose b.pagePolicy current
    let b := { b with pagePolicy := answer.2 }
    if answer.1 then Bank.close cfg b else Bank.serveNext cfg b
  else Bank.serveNext cfg b

/-- Takes the front command if it can be issued. -/
def Bank.popFront (b : Bank κ) (cycle dataBusAvailCycle : Nat) : Option Cmd × Bank κ :=
  match b.cmdQ with
  | [] => (none, b)
  | front :: rest =>
    match front.canIssue b.lastCmd cycle dataBusAvailCycle with
    | (true, cmd) => (some cmd, { b with cmdQ := rest })
    | (false, cmd) => (none, { b with cmdQ := cmd :: rest })

def Bank.popCmd (b : Bank κ) (cycle dataBusAvailCycle : Nat) : Option Cmd × Bank κ :=
  (b.update cfg cycle).popFront cycle dataBusAvailCycle

def Bank.isIdle (b : Bank κ) : Bool :=
  (b.row == noRow || !cfg.policy.canClose b.pagePolicy) &&
    b.cmdQ.isEmpty && b.transQ.isEmpty

end Banks

structure Rank (κ : Type) where
  nextBankUp : Nat
  banks : Nat → Bank κ
  banksActive : Finset Nat

section Ranks

variable {κ : Type} (cfg : Config κ)

def Rank.pushTrans (r : Rank κ) (trans : Transaction) : Rank κ :=
  let bank := cfg.getBank trans.addr
  { r with
    banks := update r.banks bank
      { r.banks bank with transQ := (r.banks bank).transQ ++ [trans] }
    banksActive := insert bank r.banksActive }

/-- The bank after its `popCmd` goes back, and to sleep if it is idle. -/
def Rank.putBank (r : Rank κ) (current : Nat) (b : Bank κ) : Rank κ :=
  { r with
    banks := update r.banks current b
    banksActive := if b.isIdle cfg then r.banksActive.erase current else r.banksActive }

/-- The turn passes on if it was this bank's. -/
def Rank.passTurn (r : Rank κ) (current : Nat) : Rank κ :=
  if current = r.nextBankUp then
    { r with nextBankUp := (r.nextBankUp + 1) % cfg.numBanks }
  else r

/-- The loop of `Rank::popCmd`; the first argument counts the banks left. -/
def Rank.popLoop (cycle dataBusAvailCycle : Nat) : Nat → Nat → Rank κ → Option Cmd × Rank κ
  | 0, _, r => (none, r)
  | n + 1, current, r =>
    if current ∈ r.banksActive then
      match (r.banks current).popCmd cfg cycle dataBusAvailCycle with
      | (some cmd, b) =>
        (some cmd, (r.putBank cfg current b).passTurn cfg current)
      | (none, b) =>
        Rank.popLoop cycle dataBusAvailCycle n
          ((current + 1) % cfg.numBanks) (r.putBank cfg current b)
    else
      Rank.popLoop cycle dataBusAvailCycle n
        ((current + 1) % cfg.numBanks) r

def Rank.popCmd (r : Rank κ) (cycle dataBusAvailCycle : Nat) : Option Cmd × Rank κ :=
  Rank.popLoop cfg cycle dataBusAvailCycle cfg.numBanks r.nextBankUp r

def Rank.hasActiveBanks (r : Rank κ) : Bool := decide (r.banksActive ≠ ∅)

end Ranks

/-- A channel; `responses` are the requests answered so far. -/
structure Channel (κ : Type) where
  nextRankUp : Nat
  ranks : Nat → Rank κ
  dataBusAvailCycle : UInt32
  pendingCount : Nat
  issuedCmds : List Cmd
  retiredTrans : List Transaction
  responses : List Nat

section Channels

variable {κ : Type} (cfg : Config κ)

def Channel.issue (c : Channel κ) (createTime : Nat) (id : Nat)
    (addr : Addr) (isWrite : Bool) (numBytes : Nat) : Bool × Channel κ :=
  if cfg.maxPendingTrans = c.pendingCount then (false, c)
  else
    let rank := cfg.getRank addr
    let trans : Transaction :=
      { createTime := createTime, id := id, addr := addr, isWrite := isWrite,
        numBytes := numBytes, bank := cfg.getBank addr,
        row := cfg.getRow addr }
    (true,
      { c with
        pendingCount := c.pendingCount + 1
        ranks := update c.ranks rank
          ((c.ranks rank).pushTrans cfg trans) })

/-- The destructor of a command clears its bank's last command. -/
def clearLastCmd (ranks : Nat → Rank κ) (cmd : Cmd) : Nat → Rank κ :=
  let r := ranks cmd.rank
  update ranks cmd.rank
    { r with
      banks := update r.banks cmd.bank
        { r.banks cmd.bank with lastCmd := none } }

/-- The commands that are done are retired and deleted. -/
def Channel.retire (c : Channel κ) (cycle : Nat) : Channel κ :=
  let done := c.issuedCmds.filter (fun cmd => cmd.isDone cycle)
  { c with
    issuedCmds := c.issuedCmds.filter (fun cmd => !cmd.isDone cycle)
    retiredTrans := c.retiredTrans ++ done.filterMap Cmd.trans
    ranks := done.foldl clearLastCmd c.ranks }

/-- One retired transaction is answered. -/
def Channel.respond (c : Channel κ) : Channel κ :=
  match c.retiredTrans with
  | [] => c
  | tr :: rest =>
    { c with
      responses := c.responses ++ [tr.id]
      retiredTrans := rest
      pendingCount := c.pendingCount - 1 }

/-- The loop of `Channel::popCmd`; the first argument counts the ranks left. -/
def Channel.popLoop (cycle : Nat) : Nat → Nat → Channel κ → Option Cmd × Channel κ
  | 0, _, c => (none, c)
  | n + 1, current, c =>
    if (c.ranks current).hasActiveBanks then
      match (c.ranks current).popCmd cfg cycle
          c.dataBusAvailCycle.toNat with
      | (some cmd, r) =>
        let c := { c with ranks := update c.ranks current r }
        (some cmd,
          if current = c.nextRankUp then
            { c with nextRankUp := (c.nextRankUp + 1) % cfg.numRanks }
          else c)
      | (none, r) =>
        Channel.popLoop cycle n ((current + 1) % cfg.numRanks)
          { c with ranks := update c.ranks current r }
    else Channel.popLoop cycle n ((current + 1) % cfg.numRanks) c

def Channel.popCmd (c : Channel κ) (cycle : Nat) : Option Cmd × Channel κ :=
  Channel.popLoop cfg cycle cfg.numRanks c.nextRankUp c

/-- `Cmd::issue` and what the channel does around it. -/
def Channel.start (c : Channel κ) (cmd : Cmd) : Channel κ :=
  let r := c.ranks cmd.rank
  { c with
    ranks := update c.ranks cmd.rank
      { r with
        banks := update r.banks cmd.bank
          { r.banks cmd.bank with lastCmd := some cmd } }
    dataBusAvailCycle := UInt32.ofNat cmd.dataBusAvailCycle
    issuedCmds := c.issuedCmds ++ [cmd] }

/-- `Channel::clock`; also returns the command issued. -/
def Channel.clock (c : Channel κ) (cycle : Nat) : Option Cmd × Channel κ :=
  match ((c.retire cycle).respond).popCmd cfg cycle with
  | (none, c) => (none, c)
  | (some cmd, c) => (some cmd, c.start cmd)

/-- A channel after construction, with the initial state of the policy. -/
def Channel.new (pagePolicy : κ) : Channel κ where
  nextRankUp := 0
  ranks := fun rank =>
    { nextBankUp := 0
      banks := fun bank =>
        { rank := rank, bank := bank, lastCmd := none, row := noRow,
          cmdQ := [], transQ := [], pagePolicy := pagePolicy }
      banksActive := ∅ }
  dataBusAvailCycle := 0
  pendingCount := 0
  issuedCmds := []
  retiredTrans := []
  responses := []

end Channels

/-- A channel, the cycle count of the backend and the commands issued so far. -/
structure ChannelRun (κ : Type) where
  channel : Channel κ
  cycle : Nat
  log : List Cmd

/-- The calls on a channel. -/
inductive Call where
  | issue (id : Nat) (addr : Addr) (isWrite : Bool) (numBytes : Nat)
  | clock
deriving DecidableEq, Repr

namespace ChannelRun

variable {κ : Type} (cfg : Config κ)

/-- A call from the backend, with its cycle count. -/
def step (s : ChannelRun κ) : Call → Option (ChannelRun κ)
  | .issue id addr isWrite numBytes =>
    some
      { s with
        channel := (s.channel.issue cfg s.cycle id addr isWrite numBytes).2 }
  | .clock =>
    let result := s.channel.clock cfg s.cycle
    some
      { channel := result.2
        cycle := s.cycle + 1
        log := s.log ++ result.1.toList }

/-- The backend before the first call. -/
def start (pagePolicy : κ) : ChannelRun κ where
  channel := Channel.new pagePolicy
  cycle := 0
  log := []

end ChannelRun

end SstElements.MemHierarchy.TimingDRAM
