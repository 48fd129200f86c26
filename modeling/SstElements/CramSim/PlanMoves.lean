import SstElements.CramSim.RowPlan

/-!
# The moves keep the plan of every bank

The commands of a bank leave their queues in order, and the row that the device has open
is the row that the next command expects.
-/

namespace SstElements.CramSim

open Library List

variable {k : Config}

/-- The commands that wait for a bank, in the order of their turn. -/
def Commands.pending (k : Config) (c : Commands) (bank : Nat) : List BankCommand :=
  c.driver.inputQ.filter (fun cmd => cmd.hashedAddr.bankId = bank) ++
    c.scheduler.cmdQueues (bank / CmdScheduler.numBanksPerChannel k)
      (bank % CmdScheduler.numBanksPerChannel k)

/-- The row of a bank after everything that waits for it. -/
def Commands.rowEnd (k : Config) (c : Commands) (bank : Nat) : RowState :=
  rowAfterAll (rowState c.driver.history bank) (c.pending k bank)

/-- The commands wait where they belong, and they are a plan for their banks. -/
structure Commands.Planned (k : Config) (generated : List BankCommand) (c : Commands) : Prop where
  inputQ : ∀ cmd ∈ c.driver.inputQ, cmd.Addressed k
  inserted : ∀ cmd ∈ c.driver.inputQ, cmd.isInserted → cmd.cmdMnemonic = .ACT
  queue : ∀ channel idx, ∀ cmd ∈ c.scheduler.cmdQueues channel idx,
    cmd.Addressed k ∧ cmd.isGenerated ∧ cmd.hashedAddr.channel = channel ∧
      CmdScheduler.queueIdx k cmd.hashedAddr = idx
  opens : ∀ bank, (c.driver.banks bank).bankState.opens =
    (rowState c.driver.history bank).isOpen
  plan : ∀ bank, CramSim.Planned (rowState c.driver.history bank) (c.pending k bank)
  order : ∀ bank, settled c.driver.history bank ++
      (c.pending k bank).filter BankCommand.isGenerated =
    generated.filter fun cmd => cmd.hashedAddr.bankId = bank
  records : EachAfter RecordFits c.driver.history

variable {d d' : DeviceDriver} {s : CmdScheduler}

section Same

variable {generated : List BankCommand} {c c' : Commands}

theorem Commands.Planned.of_eq (h : c.Planned k generated)
    (hqueues : c'.scheduler.cmdQueues = c.scheduler.cmdQueues)
    (hinputQ : c'.driver.inputQ = c.driver.inputQ)
    (hbanks : ∀ bank, (c'.driver.banks bank).bankState.opens =
      (c.driver.banks bank).bankState.opens)
    (hhistory : c'.driver.history = c.driver.history) :
    c'.Planned k generated := by
  have hpending : ∀ bank, c'.pending k bank = c.pending k bank := by
    intro bank
    rw [Commands.pending, hqueues, hinputQ, Commands.pending]
  refine ⟨?_, ?_, ?_, ?_, ?_, ?_, ?_⟩
  · rw [hinputQ]
    exact h.inputQ
  · rw [hinputQ]
    exact h.inserted
  · rw [hqueues]
    exact h.queue
  · intro bank
    rw [hbanks, hhistory]
    exact h.opens bank
  · intro bank
    rw [hpending, hhistory]
    exact h.plan bank
  · intro bank
    rw [hpending, hhistory]
    exact h.order bank
  · rw [hhistory]
    exact h.records

theorem Commands.rowEnd_of_eq (hqueues : c'.scheduler.cmdQueues = c.scheduler.cmdQueues)
    (hinputQ : c'.driver.inputQ = c.driver.inputQ) (hhistory : c'.driver.history = c.driver.history)
    (bank : Nat) :
    c'.rowEnd k bank = c.rowEnd k bank := by
  rw [Commands.rowEnd, Commands.pending, hqueues, hinputQ, hhistory, Commands.rowEnd,
    Commands.pending]

theorem Commands.rowEnd_same (h : DeviceDriver.SameCore d d') (bank : Nat) :
    Commands.rowEnd k ⟨s, d'⟩ bank = Commands.rowEnd k ⟨s, d⟩ bank :=
  @Commands.rowEnd_of_eq k ⟨s, d⟩ ⟨s, d'⟩ rfl h.inputQ h.history bank

end Same

section First

variable {d : DeviceDriver} {pre post : List BankCommand} {cmd : BankCommand}

theorem HasTurn.first (h : HasTurn k d pre cmd) (hpre : ∀ c ∈ pre, c.Addressed k)
    (hcmd : cmd.Addressed k) :
    ∀ c ∈ pre, c.hashedAddr.bankId ≠ cmd.hashedAddr.bankId := by
  intro c hc hbank
  have hwaits := h.before c hc hbank
  have hrank : c.hashedAddr.rankId = cmd.hashedAddr.rankId := by
    rw [(hpre c hc).rankId, hcmd.rankId, hbank]
  rw [DeviceDriver.isRefreshing, hrank] at hwaits
  exact h.notRefreshing hwaits

theorem filter_bank_of_first (hfirst : ∀ c ∈ pre, c.hashedAddr.bankId ≠ cmd.hashedAddr.bankId)
    (bank : Nat) :
    (pre ++ cmd :: post).filter (fun c => c.hashedAddr.bankId = bank) =
      (if cmd.hashedAddr.bankId = bank then [cmd] else []) ++
        (pre ++ post).filter fun c => c.hashedAddr.bankId = bank := by
  rw [filter_append, filter_append, filter_cons]
  by_cases heq : cmd.hashedAddr.bankId = bank
  · have hpre : pre.filter (fun c => decide (c.hashedAddr.bankId = bank)) = [] := by
      refine filter_eq_nil_iff.2 fun c hc => ?_
      rw [decide_eq_true_eq, ← heq]
      exact hfirst c hc
    rw [hpre, if_pos heq, if_pos (decide_eq_true heq)]
    rfl
  · rw [if_neg heq, if_neg (by rwa [decide_eq_true_eq]), nil_append]

end First

section Opens

theorem opens_of_isClosed {bank : BankInfo} (hclosed : bank.isClosed) (hsettled : bank.Settled) :
    bank.bankState.opens = false := by
  unfold BankInfo.isClosed at hclosed
  simp only [Bool.or_eq_true, decide_eq_true_eq] at hclosed
  rcases hclosed with hpre | hidle
  · simp [BankState.opens, hpre]
  · have hnone := hsettled hidle
    simp only [BankState.opens, hidle]
    cases hcmd : bank.bankState.receivedCommand with
    | none => rfl
    | some cmd => simpa using hnone cmd hcmd

theorem recordFits_of_sent
    {generated : List BankCommand} {cmd : BankCommand}
    {bank : Nat} (h : Commands.Planned k generated ⟨s, d⟩)
    (hsent : DeviceDriver.Sent k d cmd bank d')
    (hcolumn : cmd.isColCommand → (rowState d.history bank).isOpen →
      rowState d.history bank = .opened cmd.hashedAddr.row)
    (hinserted : cmd.isInserted → (rowState d.history bank).isOpen = false →
      rowState d.history bank = .refreshed)
    (hact : cmd.isInserted → cmd.cmdMnemonic = .ACT) :
    EachAfter RecordFits (d.history ++ [.issued d.simCycle bank cmd]) ∧
      ∀ other, (d'.banks other).bankState.opens =
        (rowState (d.history ++ [.issued d.simCycle bank cmd]) other).isOpen := by
  obtain ⟨-, hleaves, hopen, hclosed⟩ := BankInfo.opens_handleCommand hsent.allowed
  have hopens := h.opens bank
  refine ⟨eachAfter_concat_iff.2 ⟨h.records, fun hcol => ?_, fun hkind => ?_, fun hins => ?_⟩,
    fun other => ?_⟩
  · refine hcolumn hcol ?_
    rw [← hopens]
    exact hopen hcol
  · rw [← hopens]
    exact Bool.eq_false_iff.2 (hclosed hkind)
  · refine ⟨hact hins, hinserted hins ?_⟩
    rw [← hopens]
    exact Bool.eq_false_iff.2 (hclosed (.inl (hact hins)))
  · rw [rowState_issued]
    by_cases heq : bank = other
    · rw [if_pos heq, ← heq, hsent.bankState_self, hleaves, BankCommand.isOpen_rowAfter]
    · rw [if_neg heq, hsent.bankState_of_ne (Ne.symm heq)]
      exact h.opens other

end Opens

section Moves

variable {generated : List BankCommand} {s : CmdScheduler} {d d' : DeviceDriver}
variable {pre post : List BankCommand} {cmd : BankCommand}

theorem pending_of_first (hqueue : d.inputQ = pre ++ cmd :: post)
    (hfirst : ∀ c ∈ pre, c.hashedAddr.bankId ≠ cmd.hashedAddr.bankId)
    (hrest : d'.inputQ = pre ++ post) (bank : Nat) :
    Commands.pending k ⟨s, d⟩ bank =
      (if cmd.hashedAddr.bankId = bank then [cmd] else []) ++ Commands.pending k ⟨s, d'⟩ bank := by
  simp only [Commands.pending, hqueue, hrest]
  rw [filter_bank_of_first hfirst, append_assoc]

theorem Commands.Planned.issue (h : Commands.Planned k generated ⟨s, d⟩)
    (hqueue : d.inputQ = pre ++ cmd :: post) (hturn : HasTurn k d pre cmd)
    (hsent : DeviceDriver.Sent k d cmd cmd.hashedAddr.bankId d') :
    Commands.Planned k generated ⟨s, { d' with inputQ := pre ++ post }⟩ ∧
      ∀ bank, Commands.rowEnd k ⟨s, { d' with inputQ := pre ++ post }⟩ bank =
        Commands.rowEnd k ⟨s, d⟩ bank := by
  have hmem : ∀ c ∈ pre ++ cmd :: post, c ∈ d.inputQ := fun c hc => by rwa [hqueue]
  have hcmd := h.inputQ cmd (hmem cmd (mem_append_right _ mem_cons_self))
  have hfirst := hturn.first (fun c hc => h.inputQ c (hmem c (mem_append_left _ hc))) hcmd
  have hsub : ∀ c ∈ pre ++ post, c ∈ d.inputQ := fun c hc => hmem c
    (mem_append.2 ((mem_append.1 hc).imp_right (mem_cons_of_mem _)))
  have hpending := fun bank => @pending_of_first k s d { d' with inputQ := pre ++ post }
    pre post cmd
    hqueue hfirst rfl bank
  have hplan := h.plan cmd.hashedAddr.bankId
  rw [hpending, if_pos rfl] at hplan
  obtain ⟨hfits, hafter⟩ := hplan
  have hact : cmd.isInserted → cmd.cmdMnemonic = .ACT :=
    h.inserted cmd (hmem cmd (mem_append_right _ mem_cons_self))
  obtain ⟨hrecords, hopens⟩ := recordFits_of_sent h hsent
    (fun hcol hopen => by
      rcases (BankCommand.fits_column_iff hcol).1 hfits with heq | heq
      · exact heq
      · dsimp only at heq
        rw [heq] at hopen
        cases hopen)
    (fun hins hclosed => by
      have hne : rowState d.history cmd.hashedAddr.bankId ≠ .closed := by
        unfold BankCommand.Fits at hfits
        rw [hact hins] at hfits
        exact hfits hins
      cases hstate : rowState d.history cmd.hashedAddr.bankId with
      | closed => exact absurd hstate hne
      | refreshed => rfl
      | opened row =>
        rw [hstate] at hclosed
        cases hclosed) hact
  have hhistory : ({ d' with inputQ := pre ++ post } : DeviceDriver).history =
      d.history ++ [.issued d.simCycle cmd.hashedAddr.bankId cmd] := hsent.history
  refine ⟨⟨fun c hc => h.inputQ c (hsub c hc), fun c hc => h.inserted c (hsub c hc), h.queue,
    fun bank => ?_, fun bank => ?_, fun bank => ?_, ?_⟩, fun bank => ?_⟩
  · rw [hhistory]
    exact hopens bank
  · rw [hhistory, rowState_issued]
    split_ifs with heq
    · rw [← heq]
      exact hafter
    · have hother := h.plan bank
      rw [hpending, if_neg heq] at hother
      exact hother
  · have hold := h.order bank
    rw [hpending, filter_append] at hold
    rw [hhistory, settled_concat, append_assoc, ← hold]
    congr 1
    congr 1
    by_cases heq : cmd.hashedAddr.bankId = bank
    · cases hgen : cmd.isGenerated <;> simp [DriverRecord.generatedFor, heq, hgen]
    · simp [DriverRecord.generatedFor, heq]
  · rw [hhistory]
    exact hrecords
  · rw [Commands.rowEnd, Commands.rowEnd, hhistory, rowState_issued, hpending]
    split_ifs with heq
    · rfl
    · rfl

theorem Commands.Planned.drop (h : Commands.Planned k generated ⟨s, d⟩)
    (hqueue : d.inputQ = pre ++ cmd :: post) (hturn : HasTurn k d pre cmd)
    (hpre : cmd.cmdMnemonic = .PRE) (hclosed : (d.banks cmd.hashedAddr.bankId).isClosed)
    (hsettled : (d.banks cmd.hashedAddr.bankId).Settled) :
    Commands.Planned k generated
        ⟨s, { d with inputQ := pre ++ post, history := d.history ++ [.dropped cmd] }⟩ ∧
      ∀ bank, Commands.rowEnd k
          ⟨s, { d with inputQ := pre ++ post, history := d.history ++ [.dropped cmd] }⟩ bank =
            Commands.rowEnd k ⟨s, d⟩ bank ∨
        Commands.rowEnd k
          ⟨s, { d with inputQ := pre ++ post, history := d.history ++ [.dropped cmd] }⟩ bank =
            .refreshed := by
  have hmem : ∀ c ∈ pre ++ cmd :: post, c ∈ d.inputQ := fun c hc => by rwa [hqueue]
  have hcmd := h.inputQ cmd (hmem cmd (mem_append_right _ mem_cons_self))
  have hfirst := hturn.first (fun c hc => h.inputQ c (hmem c (mem_append_left _ hc))) hcmd
  have hsub : ∀ c ∈ pre ++ post, c ∈ d.inputQ := fun c hc => hmem c
    (mem_append.2 ((mem_append.1 hc).imp_right (mem_cons_of_mem _)))
  have hpending := fun bank => @pending_of_first k s d
    { d with inputQ := pre ++ post, history := d.history ++ [.dropped cmd] } pre post cmd hqueue
    hfirst rfl bank
  have hnot : (rowState d.history cmd.hashedAddr.bankId).isOpen = false := by
    rw [← h.opens cmd.hashedAddr.bankId]
    exact opens_of_isClosed hclosed hsettled
  refine ⟨⟨fun c hc => h.inputQ c (hsub c hc), fun c hc => h.inserted c (hsub c hc), h.queue,
    fun bank => ?_, fun bank => ?_, fun bank => ?_, ?_⟩, fun bank => ?_⟩
  · dsimp only
    rw [rowState_dropped]
    exact h.opens bank
  · have hold := h.plan bank
    rw [hpending] at hold
    rw [rowState_dropped]
    split_ifs at hold with heq
    · rw [← heq] at hold ⊢
      exact hold.drop hpre hcmd.plain hnot
    · exact hold
  · have hold := h.order bank
    rw [hpending, filter_append] at hold
    rw [settled_concat, append_assoc, ← hold]
    congr 1
    congr 1
    by_cases heq : cmd.hashedAddr.bankId = bank
    · cases hgen : cmd.isGenerated <;> simp [DriverRecord.generatedFor, heq, hgen]
    · simp [DriverRecord.generatedFor, heq]
  · exact eachAfter_concat_iff.2 ⟨h.records, hpre, hnot⟩
  · simp only [Commands.rowEnd, hpending bank, rowState_dropped]
    generalize Commands.pending k
      ⟨s, { d with inputQ := pre ++ post, history := d.history ++ [.dropped cmd] }⟩ bank = rest
    split_ifs with heq
    · cases rest with
      | nil =>
        have hafter : cmd.rowAfter = .closed := by simp [BankCommand.rowAfter, hpre, hcmd.plain]
        rw [heq] at hnot
        change rowState d.history bank = cmd.rowAfter ∨ rowState d.history bank = _
        rw [hafter]
        cases hstate : rowState d.history bank with
        | closed => exact .inl rfl
        | refreshed => exact .inr rfl
        | opened row =>
          rw [hstate] at hnot
          cases hnot
      | cons c rest =>
        exact .inl rfl
    · exact .inl rfl

theorem Commands.Planned.refresh {bank : Nat} (h : Commands.Planned k generated ⟨s, d⟩)
    (hrefresh : cmd.IsRefresh) (hsent : DeviceDriver.Sent k d cmd bank d') :
    Commands.Planned k generated ⟨s, d'⟩ ∧
      ∀ other, Commands.rowEnd k ⟨s, d'⟩ other = Commands.rowEnd k ⟨s, d⟩ other ∨
        Commands.rowEnd k ⟨s, d'⟩ other = .refreshed := by
  have hinputQ : d'.inputQ = d.inputQ := hsent.inputQ
  have hpending : ∀ other, Commands.pending k ⟨s, d'⟩ other = Commands.pending k ⟨s, d⟩ other := by
    intro other
    simp only [Commands.pending, hinputQ]
  obtain ⟨n, href⟩ := hrefresh.ref
  have hgen : cmd.isGenerated = false := by rw [BankCommand.isGenerated, href]
  have hins : cmd.isInserted = false := by simp [BankCommand.isInserted, hrefresh.banks]
  have hcol : cmd.isColCommand = false := by
    rcases hrefresh.kind with hkind | hkind <;> simp [BankCommand.isColCommand, hkind]
  have hafter : cmd.rowAfter = .refreshed := by
    rcases hrefresh.kind with hkind | hkind <;>
      simp [BankCommand.rowAfter, hkind, hrefresh.banks]
  obtain ⟨hrecords, hopens⟩ := recordFits_of_sent h hsent
    (fun h' => by rw [hcol] at h'; cases h') (fun h' => by rw [hins] at h'; cases h')
    (fun h' => by rw [hins] at h'; cases h')
  refine ⟨⟨?_, ?_, h.queue, fun other => ?_, fun other => ?_, fun other => ?_, ?_⟩, fun other => ?_⟩
  · rw [hinputQ]
    exact h.inputQ
  · rw [hinputQ]
    exact h.inserted
  · rw [hsent.history]
    exact hopens other
  · rw [hsent.history, hpending, rowState_issued, hafter]
    split_ifs with heq
    · exact (h.plan other).refreshed
    · exact h.plan other
  · rw [hsent.history, hpending, settled_concat]
    simp only [DriverRecord.generatedFor, hgen, Bool.false_eq_true, and_false, if_false,
      Option.toList_none, append_nil]
    exact h.order other
  · rw [hsent.history]
    exact hrecords
  · simp only [Commands.rowEnd, hpending, hsent.history, rowState_issued, hafter]
    split_ifs with heq
    · cases Commands.pending k ⟨s, d⟩ other with
      | nil => exact .inr rfl
      | cons c rest => exact .inl rfl
    · exact .inl rfl

theorem Commands.Planned.insert {n : Nat} {queue : List BankCommand}
    (h : Commands.Planned k generated ⟨s, d⟩) (hcmd : cmd.Addressed k) (hcolumn : cmd.isColCommand)
    (hmem : ∀ c ∈ queue, c ∈ d.inputQ ∨ c = activation n cmd)
    (hself : ∃ pre post, Commands.pending k ⟨s, d⟩ cmd.hashedAddr.bankId = pre ++ cmd :: post ∧
      Commands.pending k ⟨s, { d with inputQ := queue }⟩ cmd.hashedAddr.bankId =
        pre ++ activation n cmd :: cmd :: post)
    (hother : ∀ bank, cmd.hashedAddr.bankId ≠ bank →
      Commands.pending k ⟨s, { d with inputQ := queue }⟩ bank = Commands.pending k ⟨s, d⟩ bank) :
    Commands.Planned k generated ⟨s, { d with inputQ := queue }⟩ ∧
      ∀ bank, Commands.rowEnd k ⟨s, { d with inputQ := queue }⟩ bank =
        Commands.rowEnd k ⟨s, d⟩ bank := by
  obtain ⟨pre, post, hold, hnew⟩ := hself
  have hgen : (activation n cmd).isGenerated = false := rfl
  refine ⟨⟨fun c hc => ?_, fun c hc => ?_, h.queue, h.opens, fun bank => ?_, fun bank => ?_,
    h.records⟩, fun bank => ?_⟩
  · rcases hmem c hc with hc | rfl
    · exact h.inputQ c hc
    · exact ⟨rfl, rfl, hcmd.hashed⟩
  · rcases hmem c hc with hc | rfl
    · exact h.inserted c hc
    · exact fun _ => rfl
  · by_cases heq : cmd.hashedAddr.bankId = bank
    · have hplan := h.plan bank
      rw [← heq, hold] at hplan
      rw [← heq, hnew]
      exact planned_activate hplan hcolumn
    · rw [hother bank heq]
      exact h.plan bank
  · by_cases heq : cmd.hashedAddr.bankId = bank
    · have horder := h.order bank
      rw [← heq, hold] at horder
      rw [← heq, hnew, ← horder, filter_append, filter_append,
        filter_cons_of_neg (by rw [hgen]; decide)]
    · rw [hother bank heq]
      exact h.order bank
  · rw [Commands.rowEnd, Commands.rowEnd]
    by_cases heq : cmd.hashedAddr.bankId = bank
    · rw [← heq, hold, hnew]
      exact rowAfterAll_activate
    · rw [hother bank heq]

theorem Commands.Planned.forward {channel idx : Nat} (h : Commands.Planned k generated ⟨s, d⟩)
    (hqueue : s.cmdQueues channel idx = cmd :: post) :
    Commands.Planned k generated
        ⟨s.setQueue channel idx post, { d with inputQ := d.inputQ ++ [cmd] }⟩ ∧
      ∀ bank, Commands.rowEnd k
          ⟨s.setQueue channel idx post, { d with inputQ := d.inputQ ++ [cmd] }⟩ bank =
        Commands.rowEnd k ⟨s, d⟩ bank := by
  obtain ⟨hcmd, hgen, hchannel, hidx⟩ := h.queue channel idx cmd (by
    rw [hqueue]
    exact mem_cons_self)
  have hbank : ∀ bank, (bank / CmdScheduler.numBanksPerChannel k = channel ∧
      bank % CmdScheduler.numBanksPerChannel k = idx) ↔ cmd.hashedAddr.bankId = bank := by
    intro bank
    rw [hcmd.channel] at hchannel
    rw [CmdScheduler.queueIdx] at hidx
    have hsplit := Nat.div_add_mod bank (CmdScheduler.numBanksPerChannel k)
    have hsplit' := Nat.div_add_mod cmd.hashedAddr.bankId (CmdScheduler.numBanksPerChannel k)
    constructor
    · rintro ⟨hdiv, hmod⟩
      rw [← hsplit, ← hsplit', hdiv, hmod, hchannel, hidx]
    · rintro rfl
      exact ⟨hchannel, hidx⟩
  have hpending : ∀ bank, Commands.pending k
      ⟨s.setQueue channel idx post, { d with inputQ := d.inputQ ++ [cmd] }⟩ bank =
        Commands.pending k ⟨s, d⟩ bank := by
    intro bank
    simp only [Commands.pending, cmdQueues_setQueue, filter_append, hbank]
    split_ifs with heq
    · obtain ⟨hdiv, hmod⟩ := (hbank bank).2 heq
      rw [hdiv, hmod, hqueue, filter_cons_of_pos (by rwa [decide_eq_true_eq]),
        filter_nil, append_assoc]
      rfl
    · rw [filter_cons_of_neg (by rwa [decide_eq_true_eq]), filter_nil, append_nil]
  refine ⟨⟨fun c hc => ?_, fun c hc => ?_, fun channel' idx' c hc => ?_, h.opens, fun bank => ?_,
    fun bank => ?_, h.records⟩, fun bank => ?_⟩
  · rcases mem_append.1 hc with hc | hc
    · exact h.inputQ c hc
    · rw [mem_singleton.1 hc]
      exact hcmd
  · rcases mem_append.1 hc with hc | hc
    · exact h.inserted c hc
    · rw [mem_singleton.1 hc]
      intro hins
      rw [BankCommand.isInserted, hgen] at hins
      cases hins
  · dsimp only at hc
    rw [cmdQueues_setQueue] at hc
    split_ifs at hc with heq
    · rw [heq.1, heq.2]
      exact h.queue channel idx c (by rw [hqueue]; exact mem_cons_of_mem _ hc)
    · exact h.queue channel' idx' c hc
  · rw [hpending]
    exact h.plan bank
  · rw [hpending]
    exact h.order bank
  · rw [Commands.rowEnd, Commands.rowEnd, hpending]

theorem Commands.Planned.of_same {state : Nat → RowState}
    (hplanned : Commands.Planned k generated ⟨s, d⟩) (hsame : DeviceDriver.SameCore d d')
    (hend : ∀ bank, Commands.rowEnd k ⟨s, d⟩ bank = state bank ∨
      Commands.rowEnd k ⟨s, d⟩ bank = .refreshed) :
    Commands.Planned k generated ⟨s, d'⟩ ∧ ∀ bank, Commands.rowEnd k ⟨s, d'⟩ bank = state bank ∨
        Commands.rowEnd k ⟨s, d'⟩ bank = .refreshed := by
  refine ⟨hplanned.of_eq rfl hsame.inputQ (fun bank => by rw [hsame.banks]) hsame.history,
    fun bank => ?_⟩
  rw [Commands.rowEnd_same hsame bank]
  exact hend bank

theorem Move.planned {c c' : Commands} (hmove : Move k c c') (h : c.Planned k generated) :
    c'.Planned k generated ∧
      ∀ bank, c'.rowEnd k bank = c.rowEnd k bank ∨ c'.rowEnd k bank = .refreshed := by
  cases hmove with
  | idle hqueues hsame =>
    exact ⟨h.of_eq hqueues hsame.inputQ (fun bank => by rw [hsame.banks]) hsame.history,
      fun bank => .inl (Commands.rowEnd_of_eq hqueues hsame.inputQ hsame.history bank)⟩
  | issue hqueue hturn hsent hsame =>
    obtain ⟨hplanned, hend⟩ := h.issue hqueue hturn hsent
    exact hplanned.of_same hsame fun bank => .inl (hend bank)
  | drop hqueue hturn hpre hclosed hsettled hsame =>
    obtain ⟨hplanned, hend⟩ := h.drop hqueue hturn hpre hclosed hsettled
    exact hplanned.of_same hsame hend
  | refresh hrefresh hsent =>
    exact h.refresh hrefresh hsent
  | plan hrefresh =>
    exact ⟨h.of_eq rfl rfl (fun _ => rfl) rfl,
      fun bank => .inl (Commands.rowEnd_of_eq rfl rfl rfl bank)⟩
  | @reactivate s d d' pre post cmd n hqueue hfirst hcolumn hsame =>
    have hmem : ∀ c ∈ pre ++ cmd :: post, c ∈ d.inputQ := fun c hc => by rwa [hqueue]
    have hcmd := h.inputQ cmd (hmem cmd (mem_append_right _ mem_cons_self))
    have hfirst' : ∀ c ∈ pre, c.hashedAddr.bankId ≠ cmd.hashedAddr.bankId := by
      intro c hc
      rw [← (h.inputQ c (hmem c (mem_append_left _ hc))).bank, ← hcmd.bank]
      exact hfirst c hc
    have hbank : (activation n cmd).hashedAddr.bankId = cmd.hashedAddr.bankId := rfl
    obtain ⟨hplanned, hend⟩ := @Commands.Planned.insert k generated s d cmd n
      (activation n cmd :: d.inputQ) h hcmd hcolumn
      (fun c hc => (mem_cons.1 hc).symm)
      ⟨[], (pre ++ post).filter (fun c => c.hashedAddr.bankId = cmd.hashedAddr.bankId) ++
          s.cmdQueues (cmd.hashedAddr.bankId / CmdScheduler.numBanksPerChannel k)
            (cmd.hashedAddr.bankId % CmdScheduler.numBanksPerChannel k), by
        simp only [Commands.pending, hqueue]
        rw [filter_bank_of_first hfirst', if_pos rfl]
        rfl, by
        simp only [Commands.pending, hqueue]
        rw [filter_cons_of_pos (by rw [hbank, decide_eq_true_eq]),
          filter_bank_of_first hfirst', if_pos rfl]
        rfl⟩
      (fun bank hne => by
        simp only [Commands.pending]
        rw [filter_cons_of_neg (by rwa [hbank, decide_eq_true_eq])])
    exact hplanned.of_same hsame fun bank => .inl (hend bank)
  | @forward s d d' cmd rest channel idx hchannel hidx hqueue hsame =>
    obtain ⟨hplanned, hend⟩ := h.forward hqueue
    exact hplanned.of_same hsame fun bank => .inl (hend bank)
  | @activate s d d' cmd rest channel idx n hqueue hcolumn hclosed hsettled hnone hsame =>
    obtain ⟨hcmd, hgen, hchannel, hidx⟩ := h.queue channel idx cmd (by
      rw [hqueue]
      exact mem_cons_self)
    have hbank : (activation n cmd).hashedAddr.bankId = cmd.hashedAddr.bankId := rfl
    have hplace : s.cmdQueues (cmd.hashedAddr.bankId / CmdScheduler.numBanksPerChannel k)
        (cmd.hashedAddr.bankId % CmdScheduler.numBanksPerChannel k) = cmd :: rest := by
      rw [← hcmd.channel, hchannel]
      rw [CmdScheduler.queueIdx] at hidx
      rw [hidx, hqueue]
    obtain ⟨hplanned, hend⟩ := @Commands.Planned.insert k generated s d cmd n
      (d.inputQ ++ [activation n cmd]) h hcmd hcolumn
      (fun c hc => (mem_append.1 hc).imp_right mem_singleton.1)
      ⟨d.inputQ.filter (fun c => c.hashedAddr.bankId = cmd.hashedAddr.bankId), rest, by
        simp only [Commands.pending, hplace], by
        simp only [Commands.pending, hplace, filter_append]
        rw [filter_cons_of_pos (by rw [hbank, decide_eq_true_eq]), filter_nil, append_assoc]
        rfl⟩
      (fun bank hne => by
        simp only [Commands.pending, filter_append]
        rw [filter_cons_of_neg (by rwa [hbank, decide_eq_true_eq]), filter_nil, append_nil])
    exact hplanned.of_same hsame fun bank => .inl (hend bank)

theorem Moves.planned {c c' : Commands} (hmoves : Moves k c c') (h : c.Planned k generated) :
    c'.Planned k generated ∧
      ∀ bank, c'.rowEnd k bank = c.rowEnd k bank ∨ c'.rowEnd k bank = .refreshed := by
  induction hmoves with
  | refl =>
    exact ⟨h, fun _ => .inl rfl⟩
  | tail hmoves hmove ih =>
    obtain ⟨hplanned, hend⟩ := ih
    obtain ⟨hplanned', hend'⟩ := hmove.planned hplanned
    refine ⟨hplanned', fun bank => ?_⟩
    rcases hend' bank with heq | heq
    · rw [heq]
      exact hend bank
    · exact .inr heq

end Moves

end SstElements.CramSim
