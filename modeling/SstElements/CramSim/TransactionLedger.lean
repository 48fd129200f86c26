import SstElements.CramSim.CommandFlow

/-!
# The ledger of transactions and their commands

The ledger says where the transactions are and what is still owed to the requester,
without the queues that the controller uses for them.  `Accounts` is what its steps keep.
-/

namespace SstElements.CramSim

open Function

structure Ledger where
  txns : Nat → Transaction
  ReqQ : List Nat
  ResQ : List Nat
  /-- How often an object is between the request queue and the converter. -/
  queued : Nat → Nat
  request : Nat → Nat
  created : Nat
  cmdSeqNum : Nat
  received : List Nat
  sent : List Nat
  generated : List (Nat × BankCommand)
  answered : List BankCommand
  inFlight : BankCommand → Nat

namespace Ledger

def numbers (l : Ledger) (id : Nat) : List Nat := (l.txns id).cmdSeqNumList

def ready (l : Ledger) (id : Nat) : Bool := (l.txns id).isResponseReady

/-- The object waits in the response queue. -/
def pending (l : Ledger) (id : Nat) : Bool := decide (id ∈ l.ResQ) && !l.ready id

/-- The object has not been converted to commands. -/
def waiting (l : Ledger) (id : Nat) : Bool := l.pending id && (l.numbers id).isEmpty

/-- The number of ready responses for a transaction. -/
def responses (l : Ledger) (r : Nat) : Nat := l.ResQ.countP fun id => l.ready id && l.request id = r

/-- Writes that are answered early are owed an answer only in the request queue. -/
def owes (k : Config) (l : Ledger) (r : Nat) : Bool :=
  l.pending r && (!(k.enableQuickResponse && (l.txns r).isWrite) || decide (r ∈ l.ReqQ))

section Steps

/-- Exactly one of the commands is a column command, and all have new numbers. -/
structure Conversion (l : Ledger) (cmds : List BankCommand) : Prop where
  refs : (cmds.map BankCommand.ref).Nodup
  new : ∀ cmd ∈ cmds, ∃ n, l.cmdSeqNum ≤ n ∧ n < l.cmdSeqNum + cmds.length ∧
    cmd.ref = .converter n
  plain : ∀ cmd ∈ cmds, cmd.bankIdVec = [] ∧ cmd.isResponseReady = false
  column : (cmds.filter BankCommand.isColCommand).length = 1
  fresh : ∀ id ∈ l.ResQ, ∀ n ∈ l.numbers id, ∀ cmd ∈ cmds, cmd.seqNum ≠ n

/-- A transaction arrives. -/
def receive (l : Ledger) (txn : Transaction) : Ledger :=
  { l with
    txns := update l.txns l.created txn
    ReqQ := l.ReqQ ++ [l.created]
    ResQ := l.ResQ ++ [l.created]
    request := update l.request l.created l.created
    created := l.created + 1
    received := l.received ++ [l.created] }

/-- The ready responses are sent. -/
def send (l : Ledger) : Ledger :=
  { l with
    ResQ := l.ResQ.filter fun id => !l.ready id
    sent := l.sent ++ (l.ResQ.filter l.ready).map l.request }

def decode (l : Ledger) (id : Nat) (address : HashedAddress) : Ledger :=
  { l with
    txns := update l.txns id
      { l.txns id with hashedAddr := address, hasHashedAddr := true } }

/-- A read is answered from a queue. -/
def hit (l : Ledger) (id : Nat) (rest : List Nat) : Ledger :=
  { l with
    txns := update l.txns id { l.txns id with isResponseReady := true }
    ReqQ := rest }

/-- A transaction goes to the scheduler. -/
def accept (l : Ledger) (rest : List Nat) (queued : Nat → Nat) : Ledger :=
  { l with ReqQ := rest, queued := queued }

/-- A write goes to the scheduler, and a response of its own answers it. -/
def acceptQuick
    (l : Ledger) (id : Nat) (rest : List Nat) (queued : Nat → Nat) (txn : Transaction) :
    Ledger :=
  { l with
    txns := update l.txns l.created txn
    ReqQ := rest
    ResQ := l.ResQ ++ [l.created]
    queued := queued
    request := update l.request l.created (l.request id)
    created := l.created + 1 }

/-- A transaction becomes commands. -/
def convert
    (l : Ledger) (id : Nat) (cmds : List BankCommand) (queued : Nat → Nat)
    (inFlight : BankCommand → Nat) : Ledger :=
  { l with
    txns := update l.txns id (TxnConverter.noteCommands (l.txns id) cmds)
    queued := queued
    cmdSeqNum := l.cmdSeqNum + cmds.length
    generated := l.generated ++ cmds.map (id, ·)
    inFlight := inFlight }

/-- The column command of a transaction is answered. -/
def answer
    (k : Config) (l : Ledger) (id : Nat) (cmd : BankCommand) (inFlight : BankCommand → Nat) :
    Ledger :=
  { l with
    txns := update l.txns id
      { l.txns id with waitingCommands := 0, isResponseReady := true }
    ResQ := if k.enableQuickResponse && !(l.txns id).isRead then l.ResQ.erase id else l.ResQ
    inFlight := inFlight
    answered := l.answered ++ [cmd] }

/-- What happens to transactions and commands. -/
inductive Step (k : Config) (l : Ledger) : Ledger → Prop
  | receive
      {txn : Transaction}
      (hready : txn.isResponseReady = false)
      (hnumbers : txn.cmdSeqNumList = []) :
      Step k l (l.receive txn)
  | send : Step k l l.send
  | decode
      {id : Nat} {address : HashedAddress} :
      Step k l (l.decode id address)
  | hit
      {id : Nat} {rest : List Nat}
      (hreq : l.ReqQ = id :: rest) :
      Step k l (l.hit id rest)
  | accept
      {id : Nat} {rest : List Nat} {queued : Nat → Nat}
      (hreq : l.ReqQ = id :: rest)
      (hqueued : ∀ other, queued other = l.queued other + if other = id then 1 else 0)
      (hslow : (k.enableQuickResponse && (l.txns id).isWrite) = false) :
      Step k l (l.accept rest queued)
  | acceptQuick
      {id : Nat} {rest : List Nat} {queued : Nat → Nat} {txn : Transaction}
      (hreq : l.ReqQ = id :: rest)
      (hqueued : ∀ other, queued other = l.queued other + if other = id then 1 else 0)
      (hquick : (k.enableQuickResponse && (l.txns id).isWrite) = true)
      (hready : txn.isResponseReady = true)
      (hnumbers : txn.cmdSeqNumList = []) :
      Step k l (l.acceptQuick id rest queued txn)
  | convert
      {id : Nat} {cmds : List BankCommand} {queued : Nat → Nat} {inFlight : BankCommand → Nat}
      (hqueued : ∀ other, l.queued other = queued other + if other = id then 1 else 0)
      (hcmds : l.Conversion cmds)
      (hflight : ∀ x, inFlight x = l.inFlight x + copies x cmds) :
      Step k l (l.convert id cmds queued inFlight)
  | answer
      {id : Nat} {cmd : BankCommand} {inFlight : BankCommand → Nat}
      (hgenerated : (id, cmd.unanswered) ∈ l.generated)
      (hcolumn : cmd.isColCommand)
      (hflight : ∀ x, l.inFlight x = inFlight x + if x = cmd.unanswered then 1 else 0) :
      Step k l (l.answer k id cmd inFlight)

end Steps

section Invariants

/-- The objects are known, and each is where it belongs. -/
structure Objects (l : Ledger) : Prop where
  resNodup : l.ResQ.Nodup
  resLt : ∀ id ∈ l.ResQ, id < l.created
  receivedLt : ∀ r ∈ l.received, r < l.created
  own : ∀ r ∈ l.received, l.request r = r
  requested : ∀ id ∈ l.ResQ, l.request id ∈ l.received
  original : ∀ id, l.pending id → id ∈ l.received
  place : ∀ id, l.ReqQ.count id + l.queued id = (l.waiting id).toNat
  only : ∀ r ∈ l.sent, r ∈ l.received

/-- Each transaction has been answered or is owed exactly one answer. -/
def OneAnswer (k : Config) (l : Ledger) : Prop :=
  ∀ r ∈ l.received, l.sent.count r + l.responses r + (l.owes k r).toNat = 1

/-- The commands of an object are known to it by their numbers, and its column command is
on its way exactly as long as the object is pending. -/
structure CommandBook (l : Ledger) : Prop where
  generatedLt : ∀ p ∈ l.generated, p.1 < l.created
  refs : (l.generated.map (·.2.ref)).Nodup
  refLt : ∀ p ∈ l.generated, ∃ n < l.cmdSeqNum, p.2.ref = .converter n
  plain : ∀ p ∈ l.generated, p.2.bankIdVec = [] ∧ p.2.isResponseReady = false
  numbers : ∀ id < l.created,
    l.numbers id = (l.generated.filter (·.1 = id)).map (·.2.seqNum)
  column : ∀ id < l.created,
    (l.generated.filter fun p => p.1 = id && p.2.isColCommand).length =
      (!(l.numbers id).isEmpty).toNat
  oneAnswer : ∀ id, l.pending id → l.numbers id ≠ [] → (l.txns id).waitingCommands = 1
  unique : ∀ id ∈ l.ResQ, ∀ id' ∈ l.ResQ, ∀ n ∈ l.numbers id, n ∈ l.numbers id' → id = id'
  flight : ∀ p ∈ l.generated, p.2.isColCommand → l.inFlight p.2 = (l.pending p.1).toNat
  known : ∀ x, 0 < l.inFlight x → ∃ id, (id, x) ∈ l.generated ∧ x.isColCommand
  answers : ∀ p ∈ l.generated, p.2.isColCommand → l.pending p.1 = false →
    ∃ a ∈ l.answered, a.unanswered = p.2

structure Accounts (k : Config) (l : Ledger) : Prop where
  objects : l.Objects
  oneAnswer : l.OneAnswer k
  commands : l.CommandBook

variable {l : Ledger} {id : Nat}

theorem pending_iff : l.pending id = true ↔ id ∈ l.ResQ ∧ l.ready id = false := by
  simp [pending]

theorem waiting_iff : l.waiting id = true ↔ l.pending id = true ∧ l.numbers id = [] := by
  simp [waiting]

theorem Objects.waiting_of_place (h : l.Objects) (hplace : 0 < l.ReqQ.count id + l.queued id) :
    l.waiting id = true ∧ l.ReqQ.count id + l.queued id = 1 := by
  have heq := h.place id
  cases hwaiting : l.waiting id with
  | false =>
    rw [hwaiting, Bool.toNat_false] at heq
    omega
  | true =>
    rw [hwaiting, Bool.toNat_true] at heq
    exact ⟨rfl, heq⟩

theorem Objects.pending_lt (h : l.Objects) (hpending : l.pending id = true) :
    id < l.created :=
  h.resLt id (pending_iff.1 hpending).1

theorem Objects.of_request {rest : List Nat} (h : l.Objects) (hreq : l.ReqQ = id :: rest) :
    l.waiting id = true ∧ rest.count id = 0 ∧ l.queued id = 0 := by
  have hcount : l.ReqQ.count id = rest.count id + 1 := by rw [hreq, List.count_cons_self]
  obtain ⟨hwaiting, hone⟩ := @Objects.waiting_of_place l id h (by omega)
  exact ⟨hwaiting, by omega, by omega⟩

end Invariants

end Ledger

end SstElements.CramSim
