import SstElements.CramSim.ControllerLedger

/-!
# The conversion of transactions with one column command

If a transaction has one column command, the converter creates at most three commands for
it, and the queue of their bank has room for them.
-/

namespace SstElements.CramSim

open Library Function List Nat

variable {k : Config}

namespace TxnConverter

def BankRows (k : Config) (bankInfo : Nat → BankRow) : Prop :=
  k.bankPolicy = .POPEN → k.bankCloseTime = 0 → ∀ bank,
    (bankInfo bank).isRowOpen = false ∧ (bankInfo bank).autoPrechargeTimer = 0

def isColType : BankCommandType → Bool
  | .READ | .READA | .WRITE | .WRITEA => true
  | .ACT | .PRE | .REF => false

theorem types_spec {bank : BankRow} {row : Nat} {txn : TransactionType}
    (hbank : k.bankPolicy = .POPEN → k.bankCloseTime = 0 → bank.isRowOpen = false) :
    ((getPreCommands k bank row).1 ++ getPostCommands k (getPreCommands k bank row).2 txn).length
      ≤ 3 ∧
      ((getPreCommands k bank row).1 ++
        getPostCommands k (getPreCommands k bank row).2 txn).countP isColType = 1 := by
  cases hpolicy : k.bankPolicy with
  | CLOSE =>
    cases txn <;> cases hread : k.useReadA <;>
      simp [getPreCommands, getPostCommands, hpolicy, hread, isColType, countP_cons]
  | OPEN =>
    cases txn <;> by_cases hopen : bank.isRowOpen <;> by_cases hrow : bank.openRowNum = row <;>
      simp [getPreCommands, getPostCommands, hpolicy, hopen, hrow, isColType, countP_cons]
  | POPEN =>
    cases txn <;> by_cases hopen : bank.isRowOpen <;> by_cases hrow : bank.openRowNum = row <;>
      by_cases htimer : bank.autoPrechargeTimer = 0 <;> by_cases hzero : k.bankCloseTime = 0 <;>
      simp_all [getPreCommands, getPostCommands, startTimer, isColType, countP_cons]

variable {c : TxnConverter}

theorem BankRows.convert {txn : Transaction} (h : BankRows k c.bankInfo)
    (hone : numCmdsPerTrans k txn = 1) :
    BankRows k (((c.getCommands k txn).2.updateBankInfo k txn).bankInfo) := by
  intro hpolicy hzero bank
  obtain ⟨hopen, htimer⟩ := h hpolicy hzero bank
  by_cases heq : bank = txn.hashedAddr.bankId
  · obtain ⟨hopen', htimer'⟩ := h hpolicy hzero txn.hashedAddr.bankId
    simp [updateBankInfo, getCommands, updateBankRow, hpolicy, heq, hone, commandTypes,
      getPreCommands, startTimer, hopen', hzero]
  · simp [updateBankInfo, getCommands, update_of_ne heq, hopen, htimer]

theorem BankRows.clockTics (h : BankRows k c.bankInfo) :
    BankRows k (c.clockTics k).bankInfo := by
  intro hpolicy hzero bank
  obtain ⟨hopen, htimer⟩ := h hpolicy hzero bank
  simp [TxnConverter.clockTics, hpolicy, hopen, htimer]

theorem countP_mapIdx {α β : Type} {p : β → Bool} {q : α → Bool} {f : Nat → α → β} (list : List α)
    (h : ∀ i a, p (f i a) = q a) :
    (list.mapIdx f).countP p = list.countP q := by
  induction list generalizing f with
  | nil =>
    rfl
  | cons a rest ih =>
    rw [mapIdx_cons, countP_cons, countP_cons, h, ih fun i => h (i + 1)]

theorem getCommands_spec {txn : Transaction} (hrows : BankRows k c.bankInfo)
    (hone : numCmdsPerTrans k txn = 1) :
    (c.getCommands k txn).1.length ≤ 3 ∧
      ((c.getCommands k txn).1.filter BankCommand.isColCommand).length = 1 ∧
      (c.getCommands k txn).1.map BankCommand.ref =
        (List.range (c.getCommands k txn).1.length).map (fun i =>
          CommandRef.converter (c.cmdSeqNum + i)) ∧
      (∀ cmd ∈ (c.getCommands k txn).1, ∃ i < (c.getCommands k txn).1.length,
        cmd.ref = .converter (c.cmdSeqNum + i) ∧ cmd.seqNum = (c.cmdSeqNum + i) % 2 ^ 32 ∧
        cmd.hashedAddr = txn.hashedAddr ∧ cmd.bankIdVec = [] ∧ cmd.isResponseReady = false) ∧
      (c.getCommands k txn).2.cmdSeqNum = c.cmdSeqNum + (c.getCommands k txn).1.length := by
  obtain ⟨hlength, hcolumn⟩ := @types_spec k (c.bankInfo txn.hashedAddr.bankId)
    txn.hashedAddr.row txn.txnMnemonic fun hpolicy hzero => (hrows hpolicy hzero _).1
  refine ⟨?_, ?_, ?_, ?_, ?_⟩
  · simpa [getCommands, hone, commandTypes] using hlength
  · rw [← countP_eq_length_filter, getCommands]
    rw [@countP_mapIdx _ _ _ (fun ta => isColType ta.1)]
    · simpa only [hone, commandTypes, append_nil, countP_map, comp_def] using hcolumn
    · intro i ta
      cases ta.1 <;> simp [BankCommand.isColCommand, BankCommand.forBank, isColType]
  · refine ext_getElem (by simp) fun i hi hi' => ?_
    simp [getCommands, BankCommand.forBank]
  · intro cmd hcmd
    obtain ⟨i, hi, rfl⟩ := mem_mapIdx.1 hcmd
    exact ⟨i, by simpa [getCommands] using hi, rfl, rfl, rfl, rfl, rfl⟩
  · simp [getCommands]

end TxnConverter

section Room

variable {s : CmdScheduler}

theorem setQueue_setQueue (channel idx : Nat) (queue queue' : List BankCommand) :
    (s.setQueue channel idx queue).setQueue channel idx queue' = s.setQueue channel idx queue' := by
  simp [CmdScheduler.setQueue]

theorem pushCommands_eq {cmds : List BankCommand} {address : HashedAddress}
    (haddress : ∀ cmd ∈ cmds, cmd.hashedAddr = address)
    (hroom : (s.queueOf k address).length + cmds.length ≤ k.numCmdQEntries) :
    Controller.pushCommands k s cmds =
      some (s.setQueue address.channel (CmdScheduler.queueIdx k address)
        (s.queueOf k address ++ cmds)) := by
  induction cmds generalizing s with
  | nil =>
    simp [Controller.pushCommands, CmdScheduler.setQueue, CmdScheduler.queueOf]
  | cons cmd cmds ih =>
    have hcmd := haddress cmd mem_cons_self
    rw [length_cons] at hroom
    have hpush : s.push k cmd = some (s.setQueue address.channel
        (CmdScheduler.queueIdx k address) (s.queueOf k address ++ [cmd])) := by
      unfold CmdScheduler.push
      rw [hcmd]
      exact if_pos (by omega)
    have hqueue : (s.setQueue address.channel (CmdScheduler.queueIdx k address)
        (s.queueOf k address ++ [cmd])).queueOf k address = s.queueOf k address ++ [cmd] := by
      simp [CmdScheduler.queueOf, cmdQueues_setQueue]
    have hrest := @ih (s.setQueue address.channel (CmdScheduler.queueIdx k address)
      (s.queueOf k address ++ [cmd])) (fun c hc => haddress c (mem_cons_of_mem _ hc))
      (by rw [hqueue, length_append, length_singleton]; omega)
    rw [hqueue, setQueue_setQueue, append_assoc, singleton_append] at hrest
    rw [← hrest]
    exact congrArg (Option.bind · (fun s => Controller.pushCommands k s cmds)) hpush

theorem room_of_token {address : HashedAddress}
    (hcapacity : (s.queueOf k address).length ≤ k.numCmdQEntries)
    (htoken : 3 ≤ s.getToken k address) :
    (s.queueOf k address).length + 3 ≤ k.numCmdQEntries := by
  unfold CmdScheduler.getToken sub32 at htoken
  omega

end Room

section Loop

variable {s : MemorySystem} {c : Controller} {ReqQ : List Nat} {limit : Nat}

/-- The transactions of a list have one column command each, their banks have room, and the
next numbers are not in use. -/
structure Convertible (k : Config) (s : MemorySystem) (c : Controller) (ReqQ list : List Nat)
    (limit : Nat) : Prop where
  accounts : (ledgerOf k s c ReqQ list).Accounts k
  queues : Commands.Queues k ⟨c.cmdScheduler, c.deviceDriver⟩
  rows : TxnConverter.BankRows k c.txnConverter.bankInfo
  channels : (list.map fun id => (c.txns id).hashedAddr.channel).Nodup
  channel_lt : ∀ id ∈ list, (c.txns id).hashedAddr.channel < k.geometry.numChannels
  token : ∀ id ∈ list, 3 ≤ c.token k (c.txns id).hashedAddr
  one : ∀ id ∈ list, TxnConverter.numCmdsPerTrans k (c.txns id) = 1
  fresh : ∀ id ∈ c.ResQ, ∀ n ∈ (c.txns id).cmdSeqNumList, ∀ j,
    c.txnConverter.cmdSeqNum ≤ j → j < limit → j % 2 ^ 32 ≠ n
  room : c.txnConverter.cmdSeqNum + 3 * list.length ≤ limit
  window : limit ≤ c.txnConverter.cmdSeqNum + 2 ^ 32

/-- What the conversion does not touch. -/
structure KeepsPlaces (c c' : Controller) : Prop where
  ReqQ : c'.ReqQ = c.ReqQ
  txnScheduler : c'.txnScheduler = c.txnScheduler
  deviceDriver : c'.deviceDriver = c.deviceDriver
  created : c'.created = c.created
  nextCmdQIdx : c'.cmdScheduler.nextCmdQIdx = c.cmdScheduler.nextCmdQIdx
  addresses : ∀ id, (c'.txns id).addr = (c.txns id).addr ∧
    (c'.txns id).hasHashedAddr = (c.txns id).hasHashedAddr ∧
    (c'.txns id).hashedAddr = (c.txns id).hashedAddr

theorem KeepsPlaces.trans {c₁ c₂ c₃ : Controller} (h : KeepsPlaces c₁ c₂) (h' : KeepsPlaces c₂ c₃) :
    KeepsPlaces c₁ c₃ where
  ReqQ := h'.ReqQ.trans h.ReqQ
  txnScheduler := h'.txnScheduler.trans h.txnScheduler
  deviceDriver := h'.deviceDriver.trans h.deviceDriver
  created := h'.created.trans h.created
  nextCmdQIdx := h'.nextCmdQIdx.trans h.nextCmdQIdx
  addresses := fun id =>
    ⟨(h'.addresses id).1.trans (h.addresses id).1,
      (h'.addresses id).2.1.trans (h.addresses id).2.1,
      (h'.addresses id).2.2.trans (h.addresses id).2.2⟩

/-- The commands that a transaction becomes. -/
def newCommands (k : Config) (c : Controller) (id : Nat) : List BankCommand :=
  (c.txnConverter.getCommands k (c.txns id)).1

/-- The controller after the conversion of a transaction whose commands have room. -/
def converted (k : Config) (c : Controller) (id : Nat) : Controller :=
  let address := (c.txns id).hashedAddr
  { c with
    txns := update c.txns id (TxnConverter.noteCommands (c.txns id) (newCommands k c id))
    txnConverter := (c.txnConverter.getCommands k (c.txns id)).2.updateBankInfo k (c.txns id)
    cmdScheduler :=
      c.cmdScheduler.setQueue address.channel (CmdScheduler.queueIdx k address)
        (c.cmdScheduler.queueOf k address ++ newCommands k c id) }

theorem keepsPlaces_converted (id : Nat) : KeepsPlaces c (converted k c id) := by
  refine ⟨rfl, rfl, rfl, rfl, rfl, fun other => ?_⟩
  by_cases heq : other = id
  · simp [converted, heq, TxnConverter.noteCommands]
  · simp [converted, heq]

section First

variable {id : Nat} {rest : List Nat}

section

variable (h : Convertible k s c ReqQ (id :: rest) limit)
include h

theorem Convertible.queue_room :
    (c.cmdScheduler.queueOf k (c.txns id).hashedAddr).length + 3 ≤ k.numCmdQEntries :=
  room_of_token (h.queues.capacity _ _) (h.token id mem_cons_self)

theorem Convertible.relCommandWidth_ne_zero : k.relCommandWidth ≠ 0 := by
  intro hzero
  have hone := h.one id mem_cons_self
  rw [TxnConverter.numCmdsPerTrans, hzero, Nat.div_zero] at hone
  cases hone

theorem convert_eq : c.convert k id = .ok (true, newCommands k c id, converted k c id) := by
  obtain ⟨hlength, hcolumn, -, hcmds, -⟩ :=
    TxnConverter.getCommands_spec h.rows (h.one id mem_cons_self)
  have hroom := h.queue_room
  have hne : (c.txnConverter.getCommands k (c.txns id)).1.isEmpty = false := by
    rw [isEmpty_eq_false_iff]
    intro hnil
    rw [hnil] at hcolumn
    cases hcolumn
  have hpush := @pushCommands_eq k c.cmdScheduler (c.txnConverter.getCommands k (c.txns id)).1
    (c.txns id).hashedAddr
    (fun cmd hcmd => by obtain ⟨_, _, _, _, h, _⟩ := hcmds cmd hcmd; exact h) (by omega)
  unfold Controller.convert
  dsimp only
  rw [if_pos (h.token id mem_cons_self), if_neg h.relCommandWidth_ne_zero, hne]
  simp only [Controller.setTxn, Bool.false_eq_true, if_false, hpush]
  rfl

theorem conversion_newCommands :
    (ledgerOf k s c ReqQ (id :: rest)).Conversion (newCommands k c id) := by
  obtain ⟨hlength, hcolumn, hrefs, hcmds, -⟩ :=
    TxnConverter.getCommands_spec h.rows (h.one id mem_cons_self)
  refine ⟨?_, fun cmd hcmd => ?_, fun cmd hcmd => ?_, hcolumn, fun other hother n hn cmd hcmd => ?_⟩
  · rw [newCommands, hrefs]
    refine List.Nodup.map (fun i j hij => ?_) nodup_range
    rw [CommandRef.converter.injEq] at hij
    omega
  · obtain ⟨i, hi, href, -⟩ := hcmds cmd hcmd
    exact ⟨_, Nat.le_add_right _ _, Nat.add_lt_add_left hi _, href⟩
  · obtain ⟨i, hi, -, -, -, hplain⟩ := hcmds cmd hcmd
    exact hplain
  · obtain ⟨i, hi, -, hnum, -⟩ := hcmds cmd hcmd
    have hroom := h.room
    rw [length_cons] at hroom
    rw [hnum]
    exact h.fresh other hother n hn _ (Nat.le_add_right _ _) (by omega)

theorem copies_converted (x : BankCommand) :
    Commands.copies k ⟨(converted k c id).cmdScheduler, c.deviceDriver⟩ x =
      Commands.copies k ⟨c.cmdScheduler, c.deviceDriver⟩ x +
        CramSim.copies x (newCommands k c id) := by
  have hidx : CmdScheduler.queueIdx k (c.txns id).hashedAddr < CmdScheduler.numBanksPerChannel k :=
    mod_lt _ (numBanksPerChannel_pos k)
  have hset := @CmdScheduler.copies_setQueue x k c.cmdScheduler _ _
    (c.cmdScheduler.queueOf k (c.txns id).hashedAddr ++ newCommands k c id)
    (h.channel_lt id mem_cons_self) hidx
  rw [copies_append, CmdScheduler.queueOf] at hset
  simp only [Commands.copies, converted, CmdScheduler.queueOf]
  omega

theorem step_convert :
    Ledger.Step k (ledgerOf k s c ReqQ (id :: rest))
      (ledgerOf k { s with generated := s.generated ++ (newCommands k c id).map (id, ·) }
        (converted k c id) ReqQ rest) := by
  obtain ⟨-, -, -, -, hseq⟩ := TxnConverter.getCommands_spec h.rows (h.one id mem_cons_self)
  have hstep := @Ledger.Step.convert k (ledgerOf k s c ReqQ (id :: rest)) id (newCommands k c id)
    (fun other => c.txnScheduler.queued k other + rest.count other)
    (fun x => Commands.copies k ⟨(converted k c id).cmdScheduler, c.deviceDriver⟩ x +
      CramSim.copies x s.device)
    (fun other => by
      change _ + (id :: rest).count other = _
      rw [count_first]
      omega) (conversion_newCommands h)
    (fun x => by
      rw [copies_converted h]
      change _ = _ + _ + _
      omega)
  have hledger : (ledgerOf k s c ReqQ (id :: rest)).convert id (newCommands k c id)
      (fun other => c.txnScheduler.queued k other + rest.count other)
      (fun x => Commands.copies k ⟨(converted k c id).cmdScheduler, c.deviceDriver⟩ x +
        CramSim.copies x s.device) =
      ledgerOf k { s with generated := s.generated ++ (newCommands k c id).map (id, ·) }
        (converted k c id) ReqQ rest := by
    unfold Ledger.convert ledgerOf
    simp only [converted, newCommands, TxnConverter.updateBankInfo, hseq]
  rwa [hledger] at hstep

theorem queues_converted : Commands.Queues k ⟨(converted k c id).cmdScheduler, c.deviceDriver⟩ := by
  obtain ⟨hlength, -, -, hcmds, -⟩ := TxnConverter.getCommands_spec h.rows (h.one id mem_cons_self)
  have hroom := h.queue_room
  refine ⟨fun channel idx => ?_, fun channel idx cmd hcmd => ?_, h.queues.inputQ, h.queues.outputQ⟩
  · dsimp only [converted]
    rw [cmdQueues_setQueue]
    split_ifs
    · rw [length_append, newCommands]
      omega
    · exact h.queues.capacity channel idx
  · dsimp only [converted] at hcmd
    rw [cmdQueues_setQueue] at hcmd
    split_ifs at hcmd
    · rcases mem_append.1 hcmd with hcmd | hcmd
      · exact h.queues.scheduler _ _ cmd hcmd
      · obtain ⟨_, _, _, _, _, hplain, _⟩ := hcmds cmd hcmd
        exact fun _ => hplain
    · exact h.queues.scheduler channel idx cmd hcmd

theorem fresh_converted :
    ∀ other ∈ c.ResQ, ∀ n ∈ ((converted k c id).txns other).cmdSeqNumList, ∀ j,
      (converted k c id).txnConverter.cmdSeqNum ≤ j → j < limit → j % 2 ^ 32 ≠ n := by
  obtain ⟨-, -, -, hcmds, hseq⟩ := TxnConverter.getCommands_spec h.rows (h.one id mem_cons_self)
  intro other hres n hn j hj hlimit
  have hge : c.txnConverter.cmdSeqNum + (newCommands k c id).length ≤ j := by
    rw [newCommands, ← hseq]
    exact hj
  dsimp only [converted] at hn
  by_cases heq : other = id
  · rw [heq, update_self, TxnConverter.noteCommands] at hn
    rcases mem_append.1 hn with hn | hn
    · exact h.fresh id (heq ▸ hres) n hn j (by omega) hlimit
    · obtain ⟨cmd, hcmd, rfl⟩ := List.mem_map.1 hn
      obtain ⟨i, hi, -, hnum, -⟩ := hcmds cmd hcmd
      have hwindow := h.window
      rw [newCommands] at hge
      omega
  · rw [update_of_ne heq] at hn
    exact h.fresh other hres n hn j (by omega) hlimit

theorem Convertible.tail :
    Convertible k { s with generated := s.generated ++ (newCommands k c id).map (id, ·) }
      (converted k c id) ReqQ rest limit := by
  obtain ⟨hlength, -, -, -, hseq⟩ := TxnConverter.getCommands_spec h.rows (h.one id mem_cons_self)
  have hnodup := nodup_cons.1 h.channels
  have hchannel : ∀ other ∈ rest,
      (c.txns other).hashedAddr.channel ≠ (c.txns id).hashedAddr.channel := by
    intro other hmem heq
    exact hnodup.1 (List.mem_map.2 ⟨other, hmem, heq⟩)
  have htxn : ∀ other ∈ rest, (converted k c id).txns other = c.txns other := by
    intro other hmem
    refine update_of_ne ?_ _ _
    rintro rfl
    exact hchannel other hmem rfl
  have hnext : (converted k c id).txnConverter.cmdSeqNum =
      c.txnConverter.cmdSeqNum + (newCommands k c id).length := hseq
  have hlen : (newCommands k c id).length ≤ 3 := hlength
  have hroom := h.room
  rw [length_cons] at hroom
  constructor
  case accounts =>
    exact h.accounts.step (step_convert h)
  case queues =>
    exact queues_converted h
  case rows =>
    exact h.rows.convert (h.one id mem_cons_self)
  case channels =>
    rw [map_congr_left fun other hmem => by rw [htxn other hmem]]
    exact hnodup.2
  case channel_lt =>
    intro other hmem
    rw [htxn other hmem]
    exact h.channel_lt other (mem_cons_of_mem _ hmem)
  case token =>
    intro other hmem
    rw [htxn other hmem, Controller.token, CmdScheduler.getToken, CmdScheduler.queueOf, converted,
      cmdQueues_setQueue, if_neg fun heq => hchannel other hmem heq.1]
    exact h.token other (mem_cons_of_mem _ hmem)
  case one =>
    intro other hmem
    rw [htxn other hmem]
    exact h.one other (mem_cons_of_mem _ hmem)
  case fresh =>
    exact fresh_converted h
  case room =>
    rw [hnext]
    omega
  case window =>
    have hwindow := h.window
    rw [hnext]
    omega

end

end First

/-- The converter's loop is steps of the ledger, one a transaction. -/
theorem convertAll_spec {list : List Nat} (h : Convertible k s c ReqQ list limit) :
    ∃ cmds c', Controller.convertAll k list c = .ok ([], cmds, c') ∧
      Ledger.Steps k (ledgerOf k s c ReqQ list)
        (ledgerOf k { s with generated := s.generated ++ cmds } c' ReqQ []) ∧
      Convertible k { s with generated := s.generated ++ cmds } c' ReqQ [] limit ∧
      KeepsPlaces c c' := by
  induction list generalizing s c with
  | nil =>
    refine ⟨[], c, rfl, ?_, ?_, rfl, rfl, rfl, rfl, rfl, fun _ => ⟨rfl, rfl, rfl⟩⟩
    · rw [append_nil]
      exact .refl
    · rw [append_nil]
      exact h
  | cons id rest ih =>
    obtain ⟨more, c', hall, hsteps, hfinal, hkeeps⟩ := ih h.tail
    refine ⟨(newCommands k c id).map (id, ·) ++ more, c', ?_, ?_, ?_,
      (keepsPlaces_converted id).trans hkeeps⟩
    · rw [Controller.convertAll, convert_eq h]
      change (Controller.convertAll k rest (converted k c id)).bind _ = _
      rw [hall]
      rfl
    · rw [← append_assoc]
      exact hsteps.head (step_convert h)
    · rw [← append_assoc]
      exact hfinal

end Loop

end SstElements.CramSim
