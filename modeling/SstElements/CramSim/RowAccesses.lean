import SstElements.CramSim.RowConversion
import SstElements.CramSim.TransactionAnswers

/-!
# Column commands find their row open

What the history of the driver says about every command, in every run.
-/

namespace SstElements.CramSim

open Library List Option

section Records

def DriverRecord.Issues (bank : Nat) (kind : BankCommand → Prop) : DriverRecord → Prop
  | .issued _ b cmd => b = bank ∧ kind cmd
  | .dropped _ => False

def BankCommand.Closes (cmd : BankCommand) : Prop :=
  cmd.cmdMnemonic = .PRE ∨ cmd.cmdMnemonic = .READA ∨ cmd.cmdMnemonic = .WRITEA ∨
    cmd.cmdMnemonic = .REF

/-- The last ACT for a bank was for a row, and nothing has closed the row since. -/
def ActivatedRow (past : List DriverRecord) (bank row : Nat) : Prop :=
  Since (DriverRecord.Issues bank fun cmd => cmd.cmdMnemonic = .ACT ∧ cmd.hashedAddr.row = row)
    (DriverRecord.Issues bank fun cmd => cmd.cmdMnemonic = .ACT ∨ cmd.Closes) past

/-- Every ACT for a bank was followed by something that closed the row. -/
def Precharged (past : List DriverRecord) (bank : Nat) : Prop :=
  ¬ Since (DriverRecord.Issues bank fun cmd => cmd.cmdMnemonic = .ACT)
    (DriverRecord.Issues bank BankCommand.Closes) past

/-- The last command for a bank came from the refresh machinery. -/
def AfterRefresh (past : List DriverRecord) (bank : Nat) : Prop :=
  Since (DriverRecord.Issues bank fun cmd => cmd.bankIdVec ≠ [])
    (DriverRecord.Issues bank fun _ => True) past

/-- What the rules for rows and banks ask of a record and its past. -/
def RecordAllowed (past : List DriverRecord) : DriverRecord → Prop
  | .issued _ bank cmd =>
    (cmd.isColCommand → ActivatedRow past bank cmd.hashedAddr.row) ∧
    (cmd.cmdMnemonic = .ACT ∨ cmd.cmdMnemonic = .REF → Precharged past bank) ∧
    (cmd.isInserted → cmd.cmdMnemonic = .ACT ∧ AfterRefresh past bank)
  | .dropped cmd => cmd.cmdMnemonic = .PRE ∧ Precharged past cmd.hashedAddr.bankId

section States

variable {history : List DriverRecord} {bank row : Nat}

theorem activatedRow_of_rowState (h : EachAfter RecordFits history)
    (hstate : rowState history bank = .opened row) :
    ActivatedRow history bank row := by
  induction history using reverseRecOn with
  | nil =>
    cases hstate
  | append_singleton history record ih =>
    obtain ⟨hold, hrecord⟩ := eachAfter_concat_iff.1 h
    rw [ActivatedRow, since_concat_iff]
    cases record with
    | dropped cmd =>
      rw [rowState_dropped] at hstate
      exact .inr ⟨id, ih hold hstate⟩
    | issued cycle b cmd =>
      rw [rowState_issued] at hstate
      split_ifs at hstate with heq
      · subst heq
        cases hcmd : cmd.cmdMnemonic with
        | ACT =>
          simp only [BankCommand.rowAfter, hcmd, RowState.opened.injEq] at hstate
          exact .inl ⟨rfl, hcmd, hstate⟩
        | READ | WRITE =>
          simp only [BankCommand.rowAfter, hcmd, RowState.opened.injEq] at hstate
          have hopen := hrecord.1 (by simp [BankCommand.isColCommand, hcmd])
          rw [hstate] at hopen
          refine .inr ⟨?_, ih hold hopen⟩
          simp [DriverRecord.Issues, BankCommand.Closes, hcmd]
        | READA | WRITEA =>
          simp only [BankCommand.rowAfter, hcmd] at hstate
          cases hstate
        | PRE | REF =>
          simp only [BankCommand.rowAfter, hcmd] at hstate
          split at hstate
          · cases hstate
          · cases hstate
      · exact .inr ⟨fun h => heq h.1, ih hold hstate⟩

theorem precharged_of_rowState (h : EachAfter RecordFits history)
    (hstate : (rowState history bank).isOpen = false) :
    Precharged history bank := by
  induction history using reverseRecOn with
  | nil =>
    exact not_since_nil _ _
  | append_singleton history record ih =>
    obtain ⟨hold, hrecord⟩ := eachAfter_concat_iff.1 h
    rw [Precharged, since_concat_iff]
    cases record with
    | dropped cmd =>
      rw [rowState_dropped] at hstate
      rintro (hact | ⟨-, hpast⟩)
      · exact hact
      · exact ih hold hstate hpast
    | issued cycle b cmd =>
      rw [rowState_issued] at hstate
      split_ifs at hstate with heq
      · rw [BankCommand.isOpen_rowAfter] at hstate
        rintro (⟨-, hact⟩ | ⟨hcloses, -⟩)
        · rw [hact] at hstate
          cases hstate
        · refine hcloses ⟨heq, ?_⟩
          unfold BankCommandType.leavesOpen at hstate
          unfold BankCommand.Closes
          cases hcmd : cmd.cmdMnemonic <;> simp_all
      · rintro (⟨hbank, -⟩ | ⟨-, hpast⟩)
        · exact heq hbank
        · exact ih hold hstate hpast

theorem afterRefresh_of_rowState (hstate : rowState history bank = .refreshed) :
    AfterRefresh history bank := by
  induction history using reverseRecOn with
  | nil =>
    cases hstate
  | append_singleton history record ih =>
    rw [AfterRefresh, since_concat_iff]
    cases record with
    | dropped cmd =>
      rw [rowState_dropped] at hstate
      exact .inr ⟨id, ih hstate⟩
    | issued cycle b cmd =>
      rw [rowState_issued] at hstate
      split_ifs at hstate with heq
      · refine .inl ⟨heq, fun hvec => ?_⟩
        rw [BankCommand.rowAfter, hvec] at hstate
        cases hcmd : cmd.cmdMnemonic <;> simp [hcmd] at hstate
      · exact .inr ⟨fun h => heq h.1, ih hstate⟩

theorem recordAllowed_of_fits (h : EachAfter RecordFits history) :
    EachAfter RecordAllowed history := by
  intro past record rest heq
  have hpast : EachAfter RecordFits past := by
    intro before entry after hbefore
    exact h before entry (after ++ record :: rest) (by simp [heq, hbefore])
  have hfits := h past record rest heq
  cases record with
  | dropped cmd =>
    exact ⟨hfits.1, precharged_of_rowState hpast hfits.2⟩
  | issued cycle bank cmd =>
    obtain ⟨hcolumn, hclosed, hinserted⟩ := hfits
    exact ⟨fun hcol => activatedRow_of_rowState hpast (hcolumn hcol),
      fun hkind => precharged_of_rowState hpast (hclosed hkind),
      fun hins => ⟨(hinserted hins).1, afterRefresh_of_rowState (hinserted hins).2⟩⟩

end States

end Records

variable {k : Config}

theorem TxnConverter.agrees_clockTics {c : TxnConverter} {bank : Nat} {state : RowState}
    (h : (c.bankInfo bank).Agrees state) :
    ((c.clockTics k).bankInfo bank).Agrees state := by
  unfold TxnConverter.clockTics
  split_ifs with hpolicy
  · intro hopen
    dsimp only at hopen ⊢
    split_ifs at hopen ⊢ with hrow
    · exact h hrow
    · exact absurd hopen hrow
  · exact h

theorem of_runTxnConverter {c c' : Controller} {cmds : List (Nat × BankCommand)}
    (h : c.runTxnConverter k = .ok (cmds, c')) :
    ∃ c₁, Controller.convertAll k c.txnConverter.inputQ c = .ok ([], cmds, c₁) ∧
      c' = { c₁ with txnConverter := { c₁.txnConverter.clockTics k with inputQ := [] } } := by
  unfold Controller.runTxnConverter at h
  cases hall : Controller.convertAll k c.txnConverter.inputQ c with
  | error f =>
    rw [hall] at h
    cases h
  | ok r =>
    obtain ⟨kept, more, c₁⟩ := r
    rw [hall] at h
    cases kept with
    | nil =>
      obtain ⟨rfl, rfl⟩ := Prod.mk.inj (Except.ok.inj h)
      exact ⟨c₁, rfl, rfl⟩
    | cons id kept =>
      cases h

namespace MemorySystem

/-- The commands on their way to the device. -/
def commands (s : MemorySystem) : Commands := ⟨s.controller.cmdScheduler, s.controller.deviceDriver⟩

structure RowsPlanned (k : Config) (s : MemorySystem) : Prop where
  planned : s.commands.Planned k (s.generated.map Prod.snd)
  agrees : ∀ bank, (s.controller.txnConverter.bankInfo bank).Agrees (s.commands.rowEnd k bank)
  ordered : s.controller.Ordered k s.controller.ReqQ
  one : ∀ id, s.controller.txnScheduler.queued k id ≤ 1
  driver : DriverInv s.controller.deviceDriver
  idx : s.controller.cmdScheduler.IdxInRange k
  inputQ : s.controller.txnConverter.inputQ = []

/-- No transaction that waits for the converter needs several column commands of a row that
is due to be closed. -/
def RowsRegular (k : Config) (s : MemorySystem) : Prop :=
  ∀ id ∈ s.controller.txnScheduler.waiting k, RowRegular k s.controller id
deriving Decidable

/-- The condition is about the middle of a cycle, when the transaction scheduler has its
turn. -/
def KeepsRows (k : Config) (s : MemorySystem) : MemoryEvent → Prop
  | .transaction _ _ _ _ => True
  | .clock => ∀ t ∈ (s.clockRequests k).toOption, t.RowsRegular k
  | .response _ => True

instance (s : MemorySystem) : ∀ e : MemoryEvent, Decidable (s.KeepsRows k e)
  | .transaction .. | .response _ => inferInstanceAs (Decidable True)
  | .clock => inferInstanceAs (Decidable (∀ _ ∈ _, _))

section Steps

variable {s t : MemorySystem}

theorem samePath_handleResponse {c c' : Controller} {cmd : BankCommand}
    (h : c.handleResponse k cmd = .ok c') :
    SamePath c c' ∧ c'.txnScheduler = c.txnScheduler ∧ c'.ReqQ = c.ReqQ ∧ c'.created = c.created ∧
      ∀ id, (c'.txns id).addr = (c.txns id).addr ∧
        (c'.txns id).hasHashedAddr = (c.txns id).hasHashedAddr ∧
        (c'.txns id).hashedAddr = (c.txns id).hashedAddr := by
  unfold Controller.handleResponse at h
  split at h
  · cases h
  next id hfind =>
    dsimp only at h
    have hplaces : ∀ txn : Transaction, txn.addr = (c.txns id).addr →
        txn.hasHashedAddr = (c.txns id).hasHashedAddr →
        txn.hashedAddr = (c.txns id).hashedAddr →
        ∀ other, ((c.setTxn id txn).txns other).addr = (c.txns other).addr ∧
          ((c.setTxn id txn).txns other).hasHashedAddr = (c.txns other).hasHashedAddr ∧
          ((c.setTxn id txn).txns other).hashedAddr = (c.txns other).hashedAddr := by
      intro txn haddr hhas hhashed other
      by_cases heq : other = id
      · subst heq
        simp [Controller.setTxn, haddr, hhas, hhashed]
      · simp [Controller.setTxn, Function.update_of_ne heq]
    split_ifs at h
    all_goals
      cases h
      exact ⟨⟨rfl, rfl, rfl⟩, rfl, rfl, rfl, hplaces _ rfl rfl rfl⟩

section

variable (h : s.RowsPlanned k)
include h

theorem RowsPlanned.receive {txn : Transaction} (hdecoded : txn.hasHashedAddr = false) :
    (s.handleIncomingTransaction txn).RowsPlanned k :=
  { h with
    ordered := by
      have hordered := @Controller.Ordered.receive k s.controller s.controller.ReqQ txn
        s.controller.created h.ordered hdecoded
      exact ⟨hordered.hashed, hordered.held, hordered.before, hordered.sorted, hordered.requests⟩ }

theorem RowsPlanned.clockRequests (ht : s.clockRequests k = .ok t) :
    t.RowsPlanned k ∧ Prepared t.controller.deviceDriver := by
  rw [clockRequests_eq] at ht
  cases hupdate : s.controller.deviceDriver.update k (s.controller.simCycle + 1) with
  | none =>
    rw [hupdate] at ht
    cases ht
  | some d =>
    rw [hupdate] at ht
    cases ht
    obtain ⟨hdriver, hprepared, hinputQ, hhistory, -, hkeeps⟩ := update_spec hupdate h.driver
    obtain ⟨hordered, hone, hpath⟩ := Controller.acceptRequests_ordered (h.ordered.updated d) h.one
    have hcommands : (s.requested k d).commands = ⟨s.controller.cmdScheduler, d⟩ := by
      dsimp only [commands, requested]
      rw [hpath.cmdScheduler, hpath.deviceDriver]
      rfl
    refine ⟨⟨?_, fun bank => ?_, ?_, hone, ?_, ?_, ?_⟩, ?_⟩
    · rw [hcommands]
      exact h.planned.of_eq rfl hinputQ (fun bank => (hkeeps bank).opens) hhistory
    · rw [hcommands]
      have hrow := @Commands.rowEnd_of_eq k s.commands ⟨s.controller.cmdScheduler, d⟩ rfl hinputQ
        hhistory bank
      dsimp only [requested]
      rw [hpath.txnConverter, hrow]
      exact h.agrees bank
    · exact ⟨hordered.hashed, hordered.held, hordered.before, hordered.sorted, hordered.requests⟩
    · dsimp only [requested]
      rw [hpath.deviceDriver]
      exact hdriver
    · dsimp only [requested]
      rw [hpath.cmdScheduler]
      exact h.idx
    · dsimp only [requested]
      rw [hpath.txnConverter]
      exact h.inputQ
    · dsimp only [requested]
      rw [hpath.deviceDriver]
      exact hprepared

theorem RowsPlanned.clockCommands (hprepared : Prepared s.controller.deviceDriver)
    (hregular : s.RowsRegular k) (ht : s.clockCommands k = .ok t) :
    t.RowsPlanned k := by
  cases hconvert : (s.controller.runTxnScheduler k).runTxnConverter k with
  | error f =>
    unfold MemorySystem.clockCommands at ht
    dsimp only at ht
    rw [hconvert] at ht
    cases ht
  | ok r =>
    obtain ⟨cmds, c⟩ := r
    rw [clockCommands_eq hconvert] at ht
    obtain ⟨c₁, hall, rfl⟩ := of_runTxnConverter hconvert
    have hselected := selected_of_runTxnScheduler h.ordered h.one h.inputQ
    have hheld : ∀ id ∈ (s.controller.runTxnScheduler k).txnConverter.inputQ,
        ∃ channel < k.geometry.numChannels, s.controller.txnScheduler.Holds channel id := by
      intro id hid
      obtain ⟨channel, hchannel, hheld⟩ := hselected.held id hid
      exact ⟨channel, mem_range.1 hchannel, hheld⟩
    obtain ⟨hplanned, hagrees, hkeeps⟩ := convertAll_planned hall h.planned h.agrees
      (fun id hid => by
        obtain ⟨channel, -, hheld⟩ := hheld id hid
        exact ⟨_, h.ordered.hashed id (h.ordered.held channel id hheld).1⟩)
      (fun id hid => hregular id (TxnScheduler.mem_waiting_iff.2 (hheld id hid)))
      (hselected.channels.nodup nodup_range)
    have hdriver : c₁.deviceDriver = s.controller.deviceDriver := hkeeps.deviceDriver
    have hidx : c₁.cmdScheduler.IdxInRange k := by
      intro channel
      rw [hkeeps.nextCmdQIdx]
      exact h.idx channel
    cases hrest : (c₁.cmdScheduler.run k c₁.deviceDriver).bind fun r =>
      (r.2.run k).map fun out => (_ : MemorySystem) with
    | none =>
      rw [hrest] at ht
      cases ht
    | some u =>
      rw [hrest] at ht
      cases ht
      obtain ⟨⟨scheduler, d₁⟩, hscheduler, hmap⟩ := bind_eq_some_iff.1 hrest
      obtain ⟨⟨d, toDevice⟩, hrun, rfl⟩ := map_eq_some_iff.1 hmap
      obtain ⟨hmoves, hprepared', hidx'⟩ :=
        moves_of_schedulerRun hidx (by rwa [hdriver]) hscheduler
      obtain ⟨d₂, hmoves', rfl, -⟩ := moves_of_driverRun (s := scheduler) hrun hprepared'
      have hmoved : Moves k _ _ := hmoves.trans hmoves'
      obtain ⟨hfinal, hends⟩ := hmoved.planned hplanned
      have hinv := hmoved.driverInv (by rw [hdriver]; exact h.driver)
      refine ⟨?_, fun bank => ?_, ?_, fun id => ?_, hinv.of_eq rfl rfl, hidx', rfl⟩
      · rw [map_append]
        exact hfinal.of_eq rfl rfl (fun _ => rfl) rfl
      · refine TxnConverter.agrees_clockTics fun hopen => ?_
        rcases hends bank with heq | heq
        · have hrow := hagrees bank hopen
          rw [← heq] at hrow
          exact hrow
        · exact .inr heq
      · have hReqQ : c₁.ReqQ = s.controller.ReqQ := hkeeps.ReqQ
        have hordered := @Controller.Ordered.of_sub k s.controller c₁ s.controller.ReqQ c₁.ReqQ
          h.ordered (fun channel id hheld => hselected.holds channel id
            (by rwa [← hkeeps.txnScheduler]))
          (by rw [hReqQ]) hkeeps.created hkeeps.addresses
        exact ⟨hordered.hashed, hordered.held, hordered.before, hordered.sorted,
          hordered.requests⟩
      · have hle := hselected.queued id
        have hone := h.one id
        rw [hkeeps.txnScheduler]
        omega

theorem RowsPlanned.response {i : Nat} (ht : s.handleDeviceResponse k i = .ok t) :
    t.RowsPlanned k := by
  unfold handleDeviceResponse at ht
  split at ht
  · cases ht
  next cmd hcmd =>
    cases hresponse : s.controller.handleResponse k cmd with
    | error f =>
      rw [hresponse] at ht
      cases ht
    | ok c =>
      rw [hresponse] at ht
      cases ht
      obtain ⟨hpath, hscheduler, hReqQ, hcreated, hplaces⟩ := samePath_handleResponse hresponse
      have hcommands : (⟨c.cmdScheduler, c.deviceDriver⟩ : Commands) = s.commands := by
        rw [hpath.cmdScheduler, hpath.deviceDriver]
        rfl
      have hordered := @Controller.Ordered.of_sub k s.controller c s.controller.ReqQ c.ReqQ
        h.ordered (fun channel id hheld => by rwa [← hscheduler]) (by rw [hReqQ]) hcreated hplaces
      refine ⟨?_, fun bank => ?_, hordered, fun id => ?_, ?_, ?_, ?_⟩
      · change Commands.Planned k _ ⟨c.cmdScheduler, c.deviceDriver⟩
        rw [hcommands]
        exact h.planned
      · change (c.txnConverter.bankInfo bank).Agrees
          (Commands.rowEnd k ⟨c.cmdScheduler, c.deviceDriver⟩ bank)
        rw [hcommands, hpath.txnConverter]
        exact h.agrees bank
      · dsimp only
        rw [hscheduler]
        exact h.one id
      · dsimp only
        rw [hpath.deviceDriver]
        exact h.driver
      · dsimp only
        rw [hpath.cmdScheduler]
        exact h.idx
      · dsimp only
        rw [hpath.txnConverter]
        exact h.inputQ

theorem RowsPlanned.handle {e : MemoryEvent} (hregular : s.KeepsRows k e)
    (ht : s.handle k e = .ok t) :
    t.RowsPlanned k := by
  cases e with
  | transaction seqNum mnemonic addr dataWidth =>
    cases ht
    exact h.receive rfl
  | clock =>
    cases hmid : s.clockRequests k with
    | error f =>
      rw [MemorySystem.handle, clockTic, hmid] at ht
      cases ht
    | ok u =>
      rw [MemorySystem.handle, clockTic, hmid] at ht
      obtain ⟨hu, hprepared⟩ := h.clockRequests hmid
      exact hu.clockCommands hprepared (hregular u (by rw [hmid]; rfl)) ht
  | response i =>
    exact h.response ht

end

theorem rowsPlanned_create (k : Config) : (create k).RowsPlanned k where
  planned := by
    refine ⟨?_, ?_, ?_, fun bank => ?_, fun bank => ?_, fun bank => ?_, eachAfter_nil _⟩
    · simp [commands, create, Controller.create, DeviceDriver.create]
    · simp [commands, create, Controller.create, DeviceDriver.create]
    · simp [commands, create, Controller.create, CmdScheduler.create]
    · simp [commands, create, Controller.create, DeviceDriver.create, BankInfo.create, rowState,
        BankState.opens, RowState.isOpen]
    · simp [commands, create, Controller.create, DeviceDriver.create, CmdScheduler.create,
        Commands.pending, CramSim.Planned]
    · simp [commands, create, Controller.create, DeviceDriver.create, CmdScheduler.create,
        Commands.pending, settled]
  agrees := by
    intro bank hopen
    simp [create, Controller.create, TxnConverter.create] at hopen
  ordered := (sound_create k).ordered
  one := by simp [create, Controller.create, TxnScheduler.queued, queueCount, TxnScheduler.create]
  driver := (sound_create k).driver
  idx := (sound_create k).idx
  inputQ := rfl

end Steps

section Main

/-- Everything that the history of the driver says about rows and order. -/
structure AccessesOpenRows (k : Config) (s : MemorySystem) : Prop where
  records : EachAfter RecordAllowed s.controller.deviceDriver.history
  order : ∀ bank, settled s.controller.deviceDriver.history bank ++
      (s.commands.pending k bank).filter BankCommand.isGenerated =
    (s.generated.map Prod.snd).filter fun cmd => cmd.hashedAddr.bankId = bank

/-- Column commands access the row that is open as long as no row is due to be closed when
a transaction with several column commands is converted for it. -/
theorem accessesOpenRows_of_keepsRows (k : Config) (events : List MemoryEvent)
    (hregular : StepsMeet (step k) (KeepsRows k) (create k) events) :
    Throughout (step k) (AccessesOpenRows k) (create k) events := by
  have hstep : ∀ s e t, RowsPlanned k s → KeepsRows k s e → step k s e = some t →
      RowsPlanned k t := by
    intro s e t hplanned hmeets ht
    unfold step at ht
    cases hhandle : s.handle k e with
    | error f =>
      rw [hhandle] at ht
      cases ht
    | ok u =>
      rw [hhandle] at ht
      cases ht
      exact hplanned.handle hmeets hhandle
  have hplanned := throughout_of_stepsMeet hstep (rowsPlanned_create k) hregular
  exact hplanned.imp fun _ h => ⟨recordAllowed_of_fits h.planned.records, h.planned.order⟩

/-- One bank whose rows stay open for two cycles. -/
def oneBankPseudoOpen : Config := { oneBank with bankPolicy := .POPEN, bankCloseTime := 2 }

/-- Two rows of the bank in turn, with two accesses to the second. -/
def twoRows : List MemoryEvent :=
  [.transaction 7 .READ 5 1, .transaction 8 .WRITE 9 1, .transaction 9 .READ 9 1] ++
    replicate 16 .clock

/-- The bank is opened twice and closed once for the three accesses. -/
theorem accessesOpenRows_oneBankPseudoOpen :
    Throughout (step oneBankPseudoOpen) (AccessesOpenRows oneBankPseudoOpen)
        (create oneBankPseudoOpen) twoRows ∧
      (runOps (step oneBankPseudoOpen) (create oneBankPseudoOpen) twoRows).map
          (fun s => s.controller.deviceDriver.history.length) = some 6 :=
  have hkeeps : StepsMeet (step oneBankPseudoOpen) (KeepsRows oneBankPseudoOpen)
      (create oneBankPseudoOpen) twoRows := by
    decide +kernel
  ⟨accessesOpenRows_of_keepsRows oneBankPseudoOpen twoRows hkeeps, by decide +kernel⟩

/-- Whether the last record is an inserted ACT and no record is about the refresh
machinery. -/
def reopensUnrefreshed (history : List DriverRecord) : Bool :=
  match history.getLast? with
  | some (.issued _ _ cmd) =>
    cmd.isInserted && history.all fun record =>
      match record with
      | .issued _ _ cmd => cmd.bankIdVec.isEmpty
      | .dropped _ => true
  | _ => false

theorem not_recordAllowed_of_reopensUnrefreshed {history : List DriverRecord}
    (h : reopensUnrefreshed history) :
    ¬ EachAfter RecordAllowed history := by
  intro hall
  unfold reopensUnrefreshed at h
  split at h
  next cycle bank cmd hlast =>
    obtain ⟨past, rfl⟩ := getLast?_eq_some_iff.1 hlast
    rw [Bool.and_eq_true, List.all_eq_true] at h
    obtain ⟨before, record, after, rfl, hvec, -⟩ := ((eachAfter_concat_iff.1 hall).2.2.2 h.1).2
    have hplain := h.2 record (by simp)
    cases record with
    | dropped cmd => exact hvec
    | issued cycle bank cmd => exact hvec.2 (isEmpty_iff.1 hplain)
  · cases h

/-- The row is closed between the two column commands of a transaction, and the driver opens
it again although there is no refresh. -/
theorem wideRead_reopens :
    oneBankPseudoOpen.useRefresh = false ∧
      ¬ Throughout (step oneBankPseudoOpen) (AccessesOpenRows oneBankPseudoOpen)
        (create oneBankPseudoOpen)
        (.transaction 7 .READ 5 1 :: replicate 6 .clock ++
          .transaction 8 .READ 5 2 :: replicate 5 .clock) := by
  refine ⟨rfl, fun h => ?_⟩
  have hrun : ((runOps (step oneBankPseudoOpen) (create oneBankPseudoOpen)
      (.transaction 7 .READ 5 1 :: replicate 6 .clock ++
        .transaction 8 .READ 5 2 :: replicate 5 .clock)).map
          fun s => reopensUnrefreshed s.controller.deviceDriver.history) = some true := by
    decide +kernel
  obtain ⟨s, hs, hreopens⟩ := map_eq_some_iff.1 hrun
  exact not_recordAllowed_of_reopensUnrefreshed hreopens (h _ s (prefix_refl _) hs).records

end Main

end MemorySystem

end SstElements.CramSim
