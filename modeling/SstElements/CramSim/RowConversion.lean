import SstElements.CramSim.CommandConversion
import SstElements.CramSim.PlanMoves

/-!
# The commands of a transaction continue the plan of their bank

The record that the converter keeps of a bank is the row at the end of the bank's plan,
unless a refresh has closed the row meanwhile.
-/

namespace SstElements.CramSim

open Library Function List Option

variable {k : Config}

section Types

variable {row : Nat} {state : RowState}

/-- The kinds of commands that open, use and close one row. -/
def fitsType (row : Nat) (state : RowState) : BankCommandType → Prop
  | .READ | .READA | .WRITE | .WRITEA => state = .opened row ∨ state = .refreshed
  | .ACT | .PRE => True
  | .REF => False

def typeAfter (row : Nat) : BankCommandType → RowState
  | .ACT | .READ | .WRITE => .opened row
  | .READA | .WRITEA | .PRE | .REF => .closed

def PlannedTypes (row : Nat) : RowState → List BankCommandType → Prop
  | _, [] => True
  | state, type :: rest => fitsType row state type ∧ PlannedTypes row (typeAfter row type) rest

def typesEnd (row : Nat) : RowState → List BankCommandType → RowState
  | state, [] => state
  | _, type :: rest => typesEnd row (typeAfter row type) rest

variable {pre post : List BankCommandType}

theorem plannedTypes_append_iff :
    PlannedTypes row state (pre ++ post) ↔
      PlannedTypes row state pre ∧ PlannedTypes row (typesEnd row state pre) post := by
  induction pre generalizing state with
  | nil =>
    simp [PlannedTypes, typesEnd]
  | cons type pre ih =>
    simp only [cons_append, PlannedTypes, typesEnd, ih, and_assoc]

theorem typesEnd_append :
    typesEnd row state (pre ++ post) = typesEnd row (typesEnd row state pre) post := by
  induction pre generalizing state with
  | nil =>
    rfl
  | cons type pre ih =>
    exact ih

theorem planned_of_types {cmds : List BankCommand} (hrow : ∀ cmd ∈ cmds, cmd.hashedAddr.row = row)
    (hgen : ∀ cmd ∈ cmds, cmd.isGenerated ∧ cmd.bankIdVec = []) :
    (Planned state cmds ↔ PlannedTypes row state (cmds.map BankCommand.cmdMnemonic)) ∧
      rowAfterAll state cmds = typesEnd row state (cmds.map BankCommand.cmdMnemonic) := by
  induction cmds generalizing state with
  | nil =>
    exact ⟨Iff.rfl, rfl⟩
  | cons cmd rest ih =>
    have hcmdRow := hrow cmd mem_cons_self
    obtain ⟨hcmdGen, hvec⟩ := hgen cmd mem_cons_self
    have hfits : cmd.Fits state ↔ fitsType row state cmd.cmdMnemonic := by
      unfold BankCommand.Fits fitsType
      rw [hcmdRow]
      cases cmd.cmdMnemonic <;> simp [BankCommand.isInserted, hcmdGen]
    have hafter : cmd.rowAfter = typeAfter row cmd.cmdMnemonic := by
      unfold BankCommand.rowAfter typeAfter
      rw [hcmdRow, hvec]
      cases cmd.cmdMnemonic <;> rfl
    obtain ⟨hplanned, hend⟩ := @ih cmd.rowAfter
      (fun c hc => hrow c (mem_cons_of_mem _ hc))
      (fun c hc => hgen c (mem_cons_of_mem _ hc))
    rw [hafter] at hplanned hend
    refine ⟨?_, ?_⟩
    · simp only [Planned, map_cons, PlannedTypes, hfits, hafter, hplanned]
    · simp only [rowAfterAll, map_cons, typesEnd, hafter, hend]

end Types

section Records

/-- An open row of the record is open at the end of the plan, or a refresh closed it. -/
def BankRow.Agrees (bank : BankRow) (state : RowState) : Prop :=
  bank.isRowOpen → state = .opened bank.openRowNum ∨ state = .refreshed

/-- A transaction for a row that is about to be closed has one column command. -/
def BankRow.Regular (k : Config) (bank : BankRow) (row columns : Nat) : Prop :=
  k.bankPolicy = .POPEN → bank.isRowOpen → bank.openRowNum = row →
    bank.autoPrechargeTimer = 0 → columns ≤ 1
deriving Decidable

namespace TxnConverter

variable {bank : BankRow} {row : Nat} {txn : TransactionType} {state : RowState}

def columnTypes (k : Config) (bank : BankRow) (row : Nat) (txn : TransactionType) :
    List BankCommandType :=
  (getPreCommands k bank row).1 ++ getPostCommands k (getPreCommands k bank row).2 txn

theorem getPreCommands_row (bank : BankRow) (row : Nat) :
    (getPreCommands k bank row).2.isRowOpen = bank.isRowOpen ∧
      (getPreCommands k bank row).2.openRowNum = bank.openRowNum := by
  unfold getPreCommands startTimer
  split
  · exact ⟨rfl, rfl⟩
  all_goals
    split_ifs <;> exact ⟨rfl, rfl⟩

/-- If the record has the row open, the row is open or can be opened again. -/
def Ready (k : Config) (bank : BankRow) (row : Nat) (state : RowState) : Prop :=
  k.bankPolicy ≠ .CLOSE → bank.isRowOpen → bank.openRowNum = row →
    state = .opened row ∨ state = .refreshed

theorem ready_of_agrees (h : bank.Agrees state) (row : Nat) : Ready k bank row state := by
  rintro - hopen rfl
  exact h hopen

theorem columnTypes_planned (h : Ready k bank row state) :
    PlannedTypes row state (columnTypes k bank row txn) ∧
      (updateBankRow k (getPreCommands k bank row).2 row).Agrees
        (typesEnd row state (columnTypes k bank row txn)) := by
  unfold BankRow.Agrees
  cases hpolicy : k.bankPolicy with
  | CLOSE =>
    cases txn <;> cases hread : k.useReadA <;>
      simp [columnTypes, getPreCommands, getPostCommands, updateBankRow, hpolicy, hread,
        PlannedTypes, fitsType, typesEnd, typeAfter]
  | OPEN =>
    cases hopen : bank.isRowOpen with
    | false =>
      cases txn <;>
        simp [columnTypes, getPreCommands, getPostCommands, updateBankRow, hpolicy, hopen,
          startTimer, PlannedTypes, fitsType, typesEnd, typeAfter]
    | true =>
      by_cases hrow : bank.openRowNum = row
      · have hstate := h (by rw [hpolicy]; decide) hopen hrow
        cases txn <;>
          simp [columnTypes, getPreCommands, getPostCommands, updateBankRow, hpolicy, hopen,
            hrow, PlannedTypes, fitsType, typesEnd, typeAfter, hstate]
      · cases txn <;>
          simp [columnTypes, getPreCommands, getPostCommands, updateBankRow, hpolicy, hopen,
            hrow, startTimer, PlannedTypes, fitsType, typesEnd, typeAfter]
  | POPEN =>
    cases hopen : bank.isRowOpen with
    | false =>
      by_cases hzero : k.bankCloseTime = 0 <;> cases txn <;>
        simp [columnTypes, getPreCommands, getPostCommands, updateBankRow, hpolicy, hopen,
          hzero, startTimer, PlannedTypes, fitsType, typesEnd, typeAfter]
    | true =>
      by_cases hrow : bank.openRowNum = row
      · have hstate := h (by rw [hpolicy]; decide) hopen hrow
        by_cases htimer : bank.autoPrechargeTimer = 0 <;> cases txn <;>
          simp [columnTypes, getPreCommands, getPostCommands, updateBankRow, hpolicy, hopen,
            hrow, htimer, PlannedTypes, fitsType, typesEnd, typeAfter, hstate]
      · by_cases hzero : k.bankCloseTime = 0 <;> cases txn <;>
          simp [columnTypes, getPreCommands, getPostCommands, updateBankRow, hpolicy, hopen,
            hrow, hzero, startTimer, PlannedTypes, fitsType, typesEnd, typeAfter]

theorem getPreCommands_hit (hopen : bank.isRowOpen) (hrow : bank.openRowNum = row) :
    (getPreCommands k bank row).2 = bank := by
  unfold getPreCommands
  split
  · rfl
  all_goals
    rw [if_pos hopen, if_neg (not_not.2 hrow)]

theorem ready_again {columns : Nat} (hregular : bank.Regular k row columns)
    (hcolumns : 1 < columns) :
    Ready k (getPreCommands k bank row).2 row
        (typesEnd row state (columnTypes k bank row txn)) ∧
      (getPreCommands k bank row).2.Regular k row columns := by
  obtain ⟨hsameOpen, hsameRow⟩ := @getPreCommands_row k bank row
  constructor
  · intro hpolicy hopen hrow
    rw [hsameOpen] at hopen
    rw [hsameRow] at hrow
    left
    cases hp : k.bankPolicy with
    | CLOSE =>
      exact absurd hp hpolicy
    | OPEN =>
      cases txn <;>
        simp [columnTypes, getPreCommands, getPostCommands, hp, hopen, hrow, typesEnd, typeAfter]
    | POPEN =>
      have htimer : bank.autoPrechargeTimer ≠ 0 := fun hzero =>
        absurd (hregular hp hopen hrow hzero) (by omega)
      cases txn <;>
        simp [columnTypes, getPreCommands, getPostCommands, hp, hopen, hrow, htimer, typesEnd,
          typeAfter]
  · intro hpolicy hopen hrow htimer
    rw [hsameOpen] at hopen
    rw [hsameRow] at hrow
    rw [getPreCommands_hit hopen hrow] at htimer
    exact hregular hpolicy hopen hrow htimer

theorem commandTypes_succ (txn : Transaction) (n i : Nat) (bank : BankRow) :
    (commandTypes k txn (n + 1) i bank).1.map Prod.fst =
        columnTypes k bank txn.hashedAddr.row txn.txnMnemonic ++ (commandTypes k txn n (i + 1)
            (getPreCommands k bank txn.hashedAddr.row).2).1.map Prod.fst ∧
      (commandTypes k txn (n + 1) i bank).2 =
        (commandTypes k txn n (i + 1) (getPreCommands k bank txn.hashedAddr.row).2).2 := by
  refine ⟨?_, rfl⟩
  simp [commandTypes, columnTypes, comp_def]

theorem commandTypes_planned {txn : Transaction} {n i : Nat}
    (hready : Ready k bank txn.hashedAddr.row state)
    (hregular : bank.Regular k txn.hashedAddr.row (n + 1)) :
    PlannedTypes txn.hashedAddr.row state
        ((commandTypes k txn (n + 1) i bank).1.map Prod.fst) ∧
      (updateBankRow k (commandTypes k txn (n + 1) i bank).2 txn.hashedAddr.row).Agrees
        (typesEnd txn.hashedAddr.row state
          ((commandTypes k txn (n + 1) i bank).1.map Prod.fst)) := by
  induction n generalizing i bank state with
  | zero =>
    obtain ⟨hsplit, hrecord⟩ := @commandTypes_succ k txn 0 i bank
    obtain ⟨hfirst, hagrees⟩ := @columnTypes_planned k bank txn.hashedAddr.row txn.txnMnemonic
      state hready
    rw [hsplit, hrecord, plannedTypes_append_iff, typesEnd_append]
    exact ⟨⟨hfirst, trivial⟩, hagrees⟩
  | succ n ih =>
    obtain ⟨hsplit, hrecord⟩ := @commandTypes_succ k txn (n + 1) i bank
    obtain ⟨hready', hregular'⟩ := @ready_again k bank txn.hashedAddr.row txn.txnMnemonic state
      (n + 1 + 1) hregular (by omega)
    have hnext : (getPreCommands k bank txn.hashedAddr.row).2.Regular k txn.hashedAddr.row
        (n + 1) := fun hp ho hr ht => absurd (hregular' hp ho hr ht) (by omega)
    obtain ⟨hrest, hagrees⟩ := ih (i := i + 1) hready' hnext
    rw [hsplit, hrecord, plannedTypes_append_iff, typesEnd_append]
    exact ⟨⟨(columnTypes_planned hready).1, hrest⟩, hagrees⟩

end TxnConverter

end Records

section Append

variable {generated new : List BankCommand} {s : CmdScheduler} {d : DeviceDriver}
variable {address : HashedAddress}

theorem Commands.Planned.append (h : Commands.Planned k generated ⟨s, d⟩)
    (hashed : ∃ a, address = k.hasher.fillHashedAddress a)
    (hnew : ∀ cmd ∈ new, cmd.Addressed k ∧ cmd.isGenerated ∧ cmd.hashedAddr = address)
    (hplan : CramSim.Planned (Commands.rowEnd k ⟨s, d⟩ address.bankId) new) :
    Commands.Planned k (generated ++ new)
        ⟨s.setQueue address.channel (CmdScheduler.queueIdx k address)
          (s.queueOf k address ++ new), d⟩ ∧
      ∀ bank, Commands.rowEnd k ⟨s.setQueue address.channel (CmdScheduler.queueIdx k address)
          (s.queueOf k address ++ new), d⟩ bank =
        if address.bankId = bank then rowAfterAll (Commands.rowEnd k ⟨s, d⟩ bank) new
        else Commands.rowEnd k ⟨s, d⟩ bank := by
  have hchannel : address.channel = address.bankId / CmdScheduler.numBanksPerChannel k := by
    obtain ⟨a, ha⟩ := hashed
    exact @BankCommand.Addressed.channel k (.forBank (.converter 0) 0 .ACT 0 address)
      ⟨rfl, rfl, a, ha⟩
  have hbank : ∀ bank, (bank / CmdScheduler.numBanksPerChannel k = address.channel ∧
      bank % CmdScheduler.numBanksPerChannel k = CmdScheduler.queueIdx k address) ↔
        address.bankId = bank := by
    intro bank
    have hsplit := Nat.div_add_mod bank (CmdScheduler.numBanksPerChannel k)
    have hsplit' := Nat.div_add_mod address.bankId (CmdScheduler.numBanksPerChannel k)
    rw [CmdScheduler.queueIdx]
    constructor
    · rintro ⟨hdiv, hmod⟩
      rw [← hsplit, ← hsplit', hdiv, hmod, hchannel]
    · rintro rfl
      exact ⟨hchannel.symm, rfl⟩
  have hpending : ∀ bank, Commands.pending k
      ⟨s.setQueue address.channel (CmdScheduler.queueIdx k address)
        (s.queueOf k address ++ new), d⟩ bank =
      Commands.pending k ⟨s, d⟩ bank ++ if address.bankId = bank then new else [] := by
    intro bank
    simp only [Commands.pending, cmdQueues_setQueue, hbank, CmdScheduler.queueOf]
    split_ifs with heq
    · obtain ⟨hdiv, hmod⟩ := (hbank bank).2 heq
      rw [hdiv, hmod, append_assoc]
    · rw [append_nil]
  refine ⟨⟨h.inputQ, h.inserted, fun channel idx cmd hcmd => ?_, h.opens, fun bank => ?_,
    fun bank => ?_, h.records⟩, fun bank => ?_⟩
  · dsimp only at hcmd
    rw [cmdQueues_setQueue] at hcmd
    split_ifs at hcmd with heq
    · rcases mem_append.1 hcmd with hcmd | hcmd
      · rw [heq.1, heq.2]
        exact h.queue _ _ cmd hcmd
      · obtain ⟨haddressed, hgen, haddr⟩ := hnew cmd hcmd
        rw [haddr]
        exact ⟨haddressed, hgen, heq.1.symm, heq.2.symm⟩
    · exact h.queue channel idx cmd hcmd
  · rw [hpending]
    refine planned_append_iff.2 ⟨h.plan bank, ?_⟩
    split_ifs with heq
    · rw [← heq]
      exact hplan
    · exact trivial
  · rw [hpending, filter_append, filter_append, ← append_assoc, h.order bank]
    congr 1
    split_ifs with heq
    · rw [filter_eq_self.2 fun cmd hcmd => (hnew cmd hcmd).2.1, filter_eq_self.2]
      intro cmd hcmd
      rw [decide_eq_true_eq, (hnew cmd hcmd).2.2, heq]
    · rw [filter_nil, filter_eq_nil_iff.2]
      intro cmd hcmd
      rwa [decide_eq_true_eq, (hnew cmd hcmd).2.2]
  · simp only [Commands.rowEnd, hpending, rowAfterAll_append]
    split_ifs with heq
    · rfl
    · rfl

end Append

section Convert

variable {c : Controller} {id : Nat} {generated : List BankCommand}

theorem mem_newCommands {cmd : BankCommand} (h : cmd ∈ newCommands k c id) :
    cmd.isGenerated ∧ cmd.hashedAddr = (c.txns id).hashedAddr ∧
      cmd.bankId = (c.txns id).hashedAddr.bankId ∧ cmd.bankIdVec = [] := by
  obtain ⟨i, hi, rfl⟩ := mem_mapIdx.1 h
  exact ⟨rfl, rfl, rfl, rfl⟩

theorem map_cmdMnemonic_newCommands :
    (newCommands k c id).map BankCommand.cmdMnemonic =
      (TxnConverter.commandTypes k (c.txns id) (TxnConverter.numCmdsPerTrans k (c.txns id)) 0
        (c.txnConverter.bankInfo (c.txns id).hashedAddr.bankId)).1.map Prod.fst := by
  refine ext_getElem (by simp [newCommands, TxnConverter.getCommands]) fun i hi hi' => ?_
  simp [newCommands, TxnConverter.getCommands, BankCommand.forBank]

theorem pushCommands_some {s s' : CmdScheduler} {cmds : List BankCommand} {address : HashedAddress}
    (haddress : ∀ cmd ∈ cmds, cmd.hashedAddr = address)
    (h : Controller.pushCommands k s cmds = some s') :
    s' = s.setQueue address.channel (CmdScheduler.queueIdx k address)
      (s.queueOf k address ++ cmds) := by
  induction cmds generalizing s with
  | nil =>
    cases h
    simp [CmdScheduler.setQueue, CmdScheduler.queueOf]
  | cons cmd cmds ih =>
    have hcmd := haddress cmd mem_cons_self
    obtain ⟨s₁, hpush, hrest⟩ := bind_eq_some_iff.1 h
    unfold CmdScheduler.push at hpush
    dsimp only at hpush
    split_ifs at hpush
    cases hpush
    rw [hcmd] at hrest
    have hfinal := ih (fun c hc => haddress c (mem_cons_of_mem _ hc)) hrest
    have hqueue : (s.setQueue address.channel (CmdScheduler.queueIdx k address)
        (s.queueOf k address ++ [cmd])).queueOf k address = s.queueOf k address ++ [cmd] := by
      simp [CmdScheduler.queueOf, cmdQueues_setQueue]
    rw [hqueue, setQueue_setQueue, append_assoc, singleton_append] at hfinal
    exact hfinal

variable {c' : Controller} {cmds : List (Nat × BankCommand)}

theorem of_convert_done {cmds : List BankCommand} (h : c.convert k id = .ok (true, cmds, c')) :
    cmds = newCommands k c id ∧ c' = converted k c id ∧
      TxnConverter.numCmdsPerTrans k (c.txns id) ≠ 0 := by
  unfold Controller.convert at h
  dsimp only at h
  split_ifs at h with htoken hwidth hempty
  · cases h
  · cases hpush : Controller.pushCommands k
      (c.setTxn id (TxnConverter.noteCommands (c.txns id)
        (c.txnConverter.getCommands k (c.txns id)).1)).cmdScheduler
      (c.txnConverter.getCommands k (c.txns id)).1 with
    | none =>
      rw [hpush] at h
      cases h
    | some s =>
      rw [hpush] at h
      obtain ⟨-, hrest⟩ := Prod.mk.inj (Except.ok.inj h)
      cases hrest
      have hs := @pushCommands_some k c.cmdScheduler s _ (c.txns id).hashedAddr
        (fun cmd hcmd => (@mem_newCommands k c id cmd hcmd).2.1) hpush
      refine ⟨rfl, by rw [hs]; rfl, fun hzero => hempty ?_⟩
      simp [TxnConverter.getCommands, hzero, TxnConverter.commandTypes]
  · cases h

theorem converted_planned (h : Commands.Planned k generated ⟨c.cmdScheduler, c.deviceDriver⟩)
    (hagrees : ∀ bank, (c.txnConverter.bankInfo bank).Agrees
      (Commands.rowEnd k ⟨c.cmdScheduler, c.deviceDriver⟩ bank))
    (hashed : ∃ a, (c.txns id).hashedAddr = k.hasher.fillHashedAddress a)
    (hregular : (c.txnConverter.bankInfo (c.txns id).hashedAddr.bankId).Regular k
      (c.txns id).hashedAddr.row (TxnConverter.numCmdsPerTrans k (c.txns id)))
    (hpos : TxnConverter.numCmdsPerTrans k (c.txns id) ≠ 0) :
    Commands.Planned k (generated ++ newCommands k c id)
        ⟨(converted k c id).cmdScheduler, (converted k c id).deviceDriver⟩ ∧
      ∀ bank, ((converted k c id).txnConverter.bankInfo bank).Agrees
        (Commands.rowEnd k ⟨(converted k c id).cmdScheduler, (converted k c id).deviceDriver⟩
          bank) := by
  obtain ⟨n, hn⟩ := Nat.exists_eq_succ_of_ne_zero hpos
  have hnew : ∀ cmd ∈ newCommands k c id, cmd.Addressed k ∧ cmd.isGenerated ∧
      cmd.hashedAddr = (c.txns id).hashedAddr := by
    intro cmd hcmd
    obtain ⟨hgen, haddr, hbank, hvec⟩ := mem_newCommands hcmd
    exact ⟨⟨by rw [hbank, haddr], hvec, by rwa [haddr]⟩, hgen, haddr⟩
  rw [hn] at hregular
  obtain ⟨htypes, hrecord⟩ := @TxnConverter.commandTypes_planned k
    (c.txnConverter.bankInfo (c.txns id).hashedAddr.bankId) _ (c.txns id) n 0
    (TxnConverter.ready_of_agrees (hagrees _) _) hregular
  obtain ⟨hplanned, hend⟩ := @planned_of_types (c.txns id).hashedAddr.row
    (Commands.rowEnd k ⟨c.cmdScheduler, c.deviceDriver⟩ (c.txns id).hashedAddr.bankId)
    (newCommands k c id) (fun cmd hcmd => by rw [(hnew cmd hcmd).2.2])
    (fun cmd hcmd => ⟨(hnew cmd hcmd).2.1, (hnew cmd hcmd).1.plain⟩)
  rw [map_cmdMnemonic_newCommands, hn] at hplanned hend
  obtain ⟨hall, hends⟩ := h.append hashed hnew (hplanned.2 htypes)
  refine ⟨hall, fun bank => ?_⟩
  have hrow := hends bank
  change Commands.rowEnd k ⟨(converted k c id).cmdScheduler, (converted k c id).deviceDriver⟩ bank =
    _ at hrow
  rw [hrow]
  by_cases heq : (c.txns id).hashedAddr.bankId = bank
  · rw [if_pos heq, ← heq, hend]
    simpa [converted, TxnConverter.updateBankInfo, TxnConverter.getCommands, hn] using hrecord
  · rw [if_neg heq]
    simpa [converted, TxnConverter.updateBankInfo, TxnConverter.getCommands,
      update_of_ne (Ne.symm heq)] using hagrees bank

/-- The condition on a transaction that is converted next. -/
def RowRegular (k : Config) (c : Controller) (id : Nat) : Prop :=
  (c.txnConverter.bankInfo (c.txns id).hashedAddr.bankId).Regular k (c.txns id).hashedAddr.row
    (TxnConverter.numCmdsPerTrans k (c.txns id))
deriving Decidable

theorem convertAll_cons {rest : List Nat}
    (h : Controller.convertAll k (id :: rest) c = .ok ([], cmds, c')) :
    ∃ first c₁ more, c.convert k id = .ok (true, first, c₁) ∧
      Controller.convertAll k rest c₁ = .ok ([], more, c') ∧ cmds = first.map (id, ·) ++ more := by
  unfold Controller.convertAll at h
  cases hfirst : c.convert k id with
  | error f =>
    rw [hfirst] at h
    cases h
  | ok r =>
    obtain ⟨done, first, c₁⟩ := r
    rw [hfirst] at h
    change ((Controller.convertAll k rest c₁).bind _) = _ at h
    cases hrest : Controller.convertAll k rest c₁ with
    | error f =>
      rw [hrest] at h
      cases h
    | ok r =>
      obtain ⟨kept, more, c₂⟩ := r
      rw [hrest] at h
      obtain ⟨hkept, hcmds⟩ := Prod.mk.inj (Except.ok.inj h)
      cases hcmds
      cases done with
      | false => cases hkept
      | true =>
        obtain rfl : kept = [] := hkept
        exact ⟨first, c₁, more, rfl, hrest, rfl⟩

theorem convertAll_planned {list : List Nat}
    (hdone : Controller.convertAll k list c = .ok ([], cmds, c'))
    (h : Commands.Planned k generated ⟨c.cmdScheduler, c.deviceDriver⟩)
    (hagrees : ∀ bank, (c.txnConverter.bankInfo bank).Agrees
      (Commands.rowEnd k ⟨c.cmdScheduler, c.deviceDriver⟩ bank))
    (hashed : ∀ id ∈ list, ∃ a, (c.txns id).hashedAddr = k.hasher.fillHashedAddress a)
    (hregular : ∀ id ∈ list, RowRegular k c id)
    (hchannels : (list.map fun id => (c.txns id).hashedAddr.channel).Nodup) :
    Commands.Planned k (generated ++ cmds.map Prod.snd) ⟨c'.cmdScheduler, c'.deviceDriver⟩ ∧
      (∀ bank, (c'.txnConverter.bankInfo bank).Agrees
        (Commands.rowEnd k ⟨c'.cmdScheduler, c'.deviceDriver⟩ bank)) ∧ KeepsPlaces c c' := by
  induction list generalizing c cmds generated with
  | nil =>
    obtain ⟨-, hrest⟩ := Prod.mk.inj (Except.ok.inj hdone)
    cases hrest
    rw [map_nil, append_nil]
    exact ⟨h, hagrees, rfl, rfl, rfl, rfl, rfl, fun _ => ⟨rfl, rfl, rfl⟩⟩
  | cons id rest ih =>
    obtain ⟨first, c₁, more, hfirst, hrest, rfl⟩ := convertAll_cons hdone
    obtain ⟨rfl, rfl, hpos⟩ := of_convert_done hfirst
    obtain ⟨hplanned, hagrees'⟩ := converted_planned h hagrees (hashed id mem_cons_self)
      (hregular id mem_cons_self) hpos
    have hnodup := nodup_cons.1 hchannels
    have hbank : ∀ other ∈ rest,
        (c.txns other).hashedAddr.bankId ≠ (c.txns id).hashedAddr.bankId := by
      intro other hmem heq
      obtain ⟨a, ha⟩ := hashed other (mem_cons_of_mem _ hmem)
      obtain ⟨b, hb⟩ := hashed id mem_cons_self
      refine hnodup.1 (List.mem_map.2 ⟨other, hmem, ?_⟩)
      have hchannel := @BankCommand.Addressed.channel k
        (.forBank (.converter 0) 0 .ACT 0 (c.txns other).hashedAddr) ⟨rfl, rfl, a, ha⟩
      have hchannel' := @BankCommand.Addressed.channel k
        (.forBank (.converter 0) 0 .ACT 0 (c.txns id).hashedAddr) ⟨rfl, rfl, b, hb⟩
      change (c.txns other).hashedAddr.channel = _ at hchannel
      change (c.txns id).hashedAddr.channel = _ at hchannel'
      change (c.txns other).hashedAddr.channel = (c.txns id).hashedAddr.channel
      rw [hchannel, hchannel']
      change (c.txns other).hashedAddr.bankId / _ = (c.txns id).hashedAddr.bankId / _
      rw [heq]
    have htxn : ∀ other ∈ rest, (converted k c id).txns other = c.txns other := by
      intro other hmem
      refine update_of_ne ?_ _ _
      rintro rfl
      exact hbank other hmem rfl
    have hregular' : ∀ other ∈ rest, RowRegular k (converted k c id) other := by
      intro other hmem
      have hsame : (converted k c id).txnConverter.bankInfo (c.txns other).hashedAddr.bankId =
          c.txnConverter.bankInfo (c.txns other).hashedAddr.bankId := by
        simp [converted, TxnConverter.updateBankInfo, TxnConverter.getCommands,
          update_of_ne (hbank other hmem)]
      rw [RowRegular, htxn other hmem, hsame]
      exact hregular other (mem_cons_of_mem _ hmem)
    obtain ⟨hfinal, hends, hkeeps⟩ := ih hrest hplanned hagrees'
      (fun other hmem => by
        rw [htxn other hmem]
        exact hashed other (mem_cons_of_mem _ hmem)) hregular'
      (by
        rw [map_congr_left fun other hmem => by rw [htxn other hmem]]
        exact hnodup.2)
    refine ⟨?_, hends, (keepsPlaces_converted id).trans hkeeps⟩
    rw [append_assoc] at hfinal
    rw [map_append, List.map_map]
    rw [show (Prod.snd ∘ fun cmd : BankCommand => (id, cmd)) = fun cmd => cmd from rfl,
      List.map_id']
    exact hfinal

end Convert

end SstElements.CramSim
