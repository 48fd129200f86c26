import SstElements.CramSim.BankRows
import SstElements.Library.Overwrites

/-!
# No command is lost or doubled on its way to the device

A column command is in one queue of the command scheduler, in the driver or with the
device.  The moves change its place and not the number of its copies.
-/

namespace SstElements.CramSim

open DeviceDriver Library List

variable {cmd : BankCommand}

section Driver

/-- What holds of the driver between the cycles. -/
structure DriverInv (d : DeviceDriver) : Prop where
  banks : ∀ bank, (d.banks bank).bankState.Inv
  refresh : ∀ rank, ∀ cmd ∈ d.refreshCmdQ rank, cmd.IsRefresh

variable {d d' : DeviceDriver} {k : Config} {c c' : Commands}

theorem DriverInv.of_eq (h : DriverInv d) (hbanks : d'.banks = d.banks)
    (hrefresh : d'.refreshCmdQ = d.refreshCmdQ) :
    DriverInv d' where
  banks := by
    rw [hbanks]
    exact h.banks
  refresh := by
    rw [hrefresh]
    exact h.refresh

theorem DriverInv.sent {bank : Nat} (h : DriverInv d) (hsent : Sent k d cmd bank d') :
    DriverInv d' where
  banks := by
    intro other
    by_cases heq : other = bank
    · subst heq
      rw [hsent.bankState_self]
      exact (BankInfo.opens_handleCommand hsent.allowed).1
    · rw [hsent.bankState_of_ne heq]
      exact h.banks other
  refresh := by
    rw [hsent.refreshCmdQ]
    exact h.refresh

theorem Move.driverInv (h : Move k c c') (hinv : DriverInv c.driver) : DriverInv c'.driver := by
  cases h with
  | idle hqueues hsame =>
    exact hinv.of_eq hsame.banks hsame.refreshCmdQ
  | issue hqueue hturn hsent hsame =>
    exact (hinv.sent hsent).of_eq hsame.banks hsame.refreshCmdQ
  | drop hqueue hturn hpre hclosed hsettled hsame =>
    exact hinv.of_eq hsame.banks hsame.refreshCmdQ
  | refresh hrefresh hsent =>
    exact hinv.sent hsent
  | plan hrefresh =>
    exact ⟨hinv.banks, hrefresh⟩
  | reactivate hqueue hfirst hcolumn hsame =>
    exact hinv.of_eq hsame.banks hsame.refreshCmdQ
  | forward hchannel hidx hqueue hsame =>
    exact hinv.of_eq hsame.banks hsame.refreshCmdQ
  | activate hqueue hcolumn hclosed hsettled hnone hsame =>
    exact hinv.of_eq hsame.banks hsame.refreshCmdQ

theorem Moves.driverInv (h : Moves k c c') (hinv : DriverInv c.driver) : DriverInv c'.driver := by
  induction h with
  | refl =>
    exact hinv
  | tail hmoves hmove ih =>
    exact hmove.driverInv ih

theorem update_spec {simCycle : Nat} (h : d.update k simCycle = some d') (hinv : DriverInv d) :
    DriverInv d' ∧ Prepared d' ∧ d'.inputQ = d.inputQ ∧ d'.history = d.history ∧
      (∃ ready, d'.outputQ = d.outputQ.map (markReady ready)) ∧
      ∀ bank, BankInfo.TicKeeps (d.banks bank).bankState (d'.banks bank).bankState := by
  unfold DeviceDriver.update at h
  dsimp only at h
  split_ifs at h
  cases h
  have hkeeps := fun bank =>
    @BankInfo.ticKeeps_clockTic k.bankParams (d.banks bank) simCycle (hinv.banks bank)
  refine ⟨⟨fun bank => (hkeeps bank).inv, hinv.refresh⟩, ⟨fun bank hidle cmd hcmd => ?_,
    hinv.refresh⟩, rfl, rfl, ⟨_, rfl⟩, hkeeps⟩
  have hnone := (hkeeps bank).idle hidle
  change ((d.banks bank).clockTic k.bankParams simCycle).bank.bankState.receivedCommand =
    some cmd at hcmd
  rw [hnone] at hcmd
  cases hcmd

end Driver

section Queues

def BankCommand.PlainColumn (cmd : BankCommand) : Prop := cmd.isColCommand → cmd.bankIdVec = []

/-- What holds of the commands in the queues between the cycles. -/
structure Commands.Queues (k : Config) (c : Commands) : Prop where
  capacity : ∀ channel idx, (c.scheduler.cmdQueues channel idx).length ≤ k.numCmdQEntries
  scheduler : ∀ channel idx, ∀ cmd ∈ c.scheduler.cmdQueues channel idx, cmd.PlainColumn
  inputQ : ∀ cmd ∈ c.driver.inputQ, cmd.PlainColumn
  outputQ : ∀ cmd ∈ c.driver.outputQ, cmd.PlainColumn

theorem cmdQueues_setQueue
    (s : CmdScheduler) (channel idx : Nat) (queue : List BankCommand) (channel' idx' : Nat) :
    (s.setQueue channel idx queue).cmdQueues channel' idx' =
      if channel' = channel ∧ idx' = idx then queue else s.cmdQueues channel' idx' := by
  unfold CmdScheduler.setQueue
  by_cases hchannel : channel' = channel
  · by_cases hidx : idx' = idx
    · simp [hchannel, hidx]
    · simp [hchannel, hidx]
  · simp [hchannel]

theorem plainColumn_activation (n : Nat) (cmd : BankCommand) : (activation n cmd).PlainColumn :=
  fun _ => rfl

theorem BankCommand.IsRefresh.plainColumn (h : cmd.IsRefresh) :
    cmd.PlainColumn := by
  intro hcol
  rcases h.kind with hpre | href
  · simp [isColCommand, hpre] at hcol
  · simp [isColCommand, href] at hcol

variable {k : Config} {c c' : Commands}

theorem Move.queues (h : Move k c c') (hqueues : c.Queues k) : c'.Queues k := by
  obtain ⟨hcapacity, hscheduler, hinputQ, houtputQ⟩ := hqueues
  cases h with
  | idle hq hsame =>
    rw [← hq] at hcapacity hscheduler
    rw [← hsame.inputQ] at hinputQ
    rw [← hsame.outputQ] at houtputQ
    exact ⟨hcapacity, hscheduler, hinputQ, houtputQ⟩
  | @issue _ _ _ _ pre post cmd hqueue hturn hsent hsame =>
    refine ⟨hcapacity, hscheduler, fun c hc => ?_, fun c hc => ?_⟩
    · rw [hsame.inputQ] at hc
      exact hinputQ c (by rw [hqueue]; exact mem_append.2 ((mem_append.1 hc).imp_right
        (mem_cons_of_mem _)))
    · rw [hsame.outputQ] at hc
      rw [hsent.outputQ] at hc
      rcases mem_append.1 hc with hc | hc
      · exact houtputQ c hc
      · rw [mem_singleton.1 hc]
        exact hinputQ cmd (by rw [hqueue]; exact mem_append_right _ mem_cons_self)
  | drop hqueue hturn hpre hclosed hsettled hsame =>
    refine ⟨hcapacity, hscheduler, fun c hc => ?_, fun c hc => ?_⟩
    · rw [hsame.inputQ] at hc
      exact hinputQ c (by rw [hqueue]; exact mem_append.2 ((mem_append.1 hc).imp_right
        (mem_cons_of_mem _)))
    · rw [hsame.outputQ] at hc
      exact houtputQ c hc
  | refresh hrefresh hsent =>
    refine ⟨hcapacity, hscheduler, fun c hc => ?_, fun c hc => ?_⟩
    · rw [hsent.inputQ] at hc
      exact hinputQ c hc
    · rw [hsent.outputQ] at hc
      rcases mem_append.1 hc with hc | hc
      · exact houtputQ c hc
      · rw [mem_singleton.1 hc]
        exact hrefresh.plainColumn
  | plan hrefresh =>
    exact ⟨hcapacity, hscheduler, hinputQ, houtputQ⟩
  | reactivate hqueue hfirst hcolumn hsame =>
    refine ⟨hcapacity, hscheduler, fun c hc => ?_, fun c hc => ?_⟩
    · rw [hsame.inputQ] at hc
      rcases mem_cons.1 hc with rfl | hc
      · exact plainColumn_activation _ _
      · exact hinputQ c hc
    · rw [hsame.outputQ] at hc
      exact houtputQ c hc
  | @forward s _ _ cmd rest channel idx hchannel hidx hqueue hsame =>
    refine ⟨fun channel' idx' => ?_, fun channel' idx' c hc => ?_, fun c hc => ?_, fun c hc => ?_⟩
    · rw [cmdQueues_setQueue]
      split_ifs with heq
      · have hold := hcapacity channel idx
        rw [hqueue, length_cons] at hold
        omega
      · exact hcapacity channel' idx'
    · rw [cmdQueues_setQueue] at hc
      split_ifs at hc with heq
      · exact hscheduler channel idx c (by rw [hqueue]; exact mem_cons_of_mem _ hc)
      · exact hscheduler channel' idx' c hc
    · rw [hsame.inputQ] at hc
      rcases mem_append.1 hc with hc | hc
      · exact hinputQ c hc
      · rw [mem_singleton.1 hc]
        exact hscheduler channel idx cmd (by rw [hqueue]; exact mem_cons_self)
    · rw [hsame.outputQ] at hc
      exact houtputQ c hc
  | activate hqueue hcolumn hclosed hsettled hnone hsame =>
    refine ⟨hcapacity, hscheduler, fun c hc => ?_, fun c hc => ?_⟩
    · rw [hsame.inputQ] at hc
      rcases mem_append.1 hc with hc | hc
      · exact hinputQ c hc
      · rw [mem_singleton.1 hc]
        exact plainColumn_activation _ _
    · rw [hsame.outputQ] at hc
      exact houtputQ c hc

theorem Moves.queues (h : Moves k c c') (hqueues : c.Queues k) : c'.Queues k := by
  induction h with
  | refl =>
    exact hqueues
  | tail hmoves hmove ih =>
    exact hmove.queues ih

end Queues

section Copies

/-- The command as it was created. -/
def BankCommand.unanswered (cmd : BankCommand) : BankCommand :=
  { cmd with isResponseReady := false }

def BankCommand.isCopyOf (x cmd : BankCommand) : Bool :=
  cmd.isColCommand && cmd.bankIdVec.isEmpty && cmd.unanswered = x

/-- How often a column command is in a list. -/
def copies (x : BankCommand) (cmds : List BankCommand) : Nat := cmds.countP x.isCopyOf

def CmdScheduler.copies (k : Config) (s : CmdScheduler) (x : BankCommand) : Nat :=
  ∑ channel ∈ Finset.range k.geometry.numChannels,
    ∑ idx ∈ Finset.range (CmdScheduler.numBanksPerChannel k),
      CramSim.copies x (s.cmdQueues channel idx)

/-- How often a column command is in the queues of the scheduler and the driver. -/
def Commands.copies (k : Config) (c : Commands) (x : BankCommand) : Nat :=
  c.scheduler.copies k x + CramSim.copies x c.driver.inputQ + CramSim.copies x c.driver.outputQ

variable {x : BankCommand}

@[simp] theorem copies_nil : copies x [] = 0 := by rfl

@[simp] theorem copies_append (q r : List BankCommand) :
    copies x (q ++ r) = copies x q + copies x r :=
  countP_append

theorem copies_cons (cmd : BankCommand) (q : List BankCommand) :
    copies x (cmd :: q) = copies x [cmd] + copies x q := by
  rw [← singleton_append, copies_append]

theorem copies_singleton_eq_zero (h : cmd.isColCommand = false ∨ cmd.bankIdVec ≠ []) :
    copies x [cmd] = 0 := by
  rcases h with h | h <;> simp [copies, BankCommand.isCopyOf, h]

@[simp] theorem copies_activation (n : Nat) (cmd : BankCommand) : copies x [activation n cmd] = 0 :=
  copies_singleton_eq_zero (.inl rfl)

theorem copies_map_markReady (ready : List CommandRef) (q : List BankCommand) :
    copies x (q.map (markReady ready)) = copies x q := by
  have hcopy : x.isCopyOf ∘ markReady ready = x.isCopyOf := by
    funext cmd
    simp only [Function.comp_apply, markReady]
    split_ifs <;> rfl
  rw [copies, countP_map, hcopy, copies]

variable {k : Config}

theorem CmdScheduler.copies_setQueue {s : CmdScheduler} {channel idx : Nat}
    {queue : List BankCommand} (hchannel : channel < k.geometry.numChannels)
    (hidx : idx < CmdScheduler.numBanksPerChannel k) :
    (s.setQueue channel idx queue).copies k x + CramSim.copies x (s.cmdQueues channel idx) =
      s.copies k x + CramSim.copies x queue := by
  have houter := sum_range_update s.cmdQueues
    (fun row => ∑ i ∈ Finset.range (CmdScheduler.numBanksPerChannel k), CramSim.copies x (row i))
    (Function.update (s.cmdQueues channel) idx queue) hchannel
  have hinner := sum_range_update (s.cmdQueues channel) (CramSim.copies x) queue hidx
  unfold CmdScheduler.copies CmdScheduler.setQueue
  dsimp only
  omega

theorem Move.copies_eq {c c' : Commands} (h : Move k c c') :
    c'.copies k x = c.copies k x := by
  cases h with
  | idle hqueues hsame =>
    simp only [Commands.copies, CmdScheduler.copies, hqueues, hsame.inputQ, hsame.outputQ]
  | @issue _ _ _ _ _ post cmd hqueue hturn hsent hsame =>
    simp only [Commands.copies, hsame.inputQ, hsame.outputQ, hsent.outputQ, hqueue, copies_append]
    rw [copies_cons cmd post]
    omega
  | @drop _ _ _ _ post cmd hqueue hturn hpre hclosed hsettled hsame =>
    have hzero : CramSim.copies x [cmd] = 0 :=
      copies_singleton_eq_zero (.inl (by simp [BankCommand.isColCommand, hpre]))
    simp only [Commands.copies, hsame.inputQ, hsame.outputQ, hqueue, copies_append]
    rw [copies_cons cmd post, hzero]
    omega
  | refresh hrefresh hsent =>
    simp only [Commands.copies, hsent.inputQ, hsent.outputQ, copies_append,
      copies_singleton_eq_zero (.inr hrefresh.1), add_zero]
  | plan hrefresh =>
    rfl
  | reactivate hqueue hfirst hcolumn hsame =>
    simp only [Commands.copies, hsame.inputQ, hsame.outputQ]
    rw [copies_cons, copies_activation, zero_add]
  | @forward s _ _ cmd rest channel idx hchannel hidx hqueue hsame =>
    have hset := @CmdScheduler.copies_setQueue x k s channel idx rest hchannel hidx
    rw [hqueue, copies_cons] at hset
    simp only [Commands.copies, hsame.inputQ, hsame.outputQ, copies_append]
    omega
  | activate hqueue hcolumn hclosed hsettled hnone hsame =>
    simp only [Commands.copies, hsame.inputQ, hsame.outputQ, copies_append, copies_activation,
      add_zero]

theorem Moves.copies_eq {c c' : Commands} (h : Moves k c c') :
    c'.copies k x = c.copies k x := by
  induction h with
  | refl =>
    rfl
  | tail hmoves hmove ih =>
    rw [hmove.copies_eq, ih]

theorem copies_filter_ready (q : List BankCommand) :
    copies x (q.filter fun cmd => !cmd.isResponseReady) +
        copies x (((q.filter BankCommand.isResponseReady).filter goesToDevice).filter
          BankCommand.isColCommand) = copies x q := by
  induction q with
  | nil =>
    rfl
  | cons cmd q ih =>
    have hgoes : x.isCopyOf cmd → goesToDevice cmd ∧ cmd.isColCommand := by
      intro hcopy
      simp only [BankCommand.isCopyOf, Bool.and_eq_true] at hcopy
      exact ⟨by simp [goesToDevice, hcopy.1.2], hcopy.1.1⟩
    simp only [copies, countP_filter, countP_cons] at ih ⊢
    by_cases hcopy : x.isCopyOf cmd
    · obtain ⟨hdevice, hcolumn⟩ := hgoes hcopy
      cases hready : cmd.isResponseReady <;> simp [hcopy, hdevice, hcolumn] <;> omega
    · simp [hcopy]
      omega

variable {k : Config} {s : CmdScheduler} {d d' : DeviceDriver} {simCycle : Nat}

section

variable (h : d.update k simCycle = some d') (hinv : DriverInv d)
include h hinv

theorem copies_update (x : BankCommand) :
    Commands.copies k ⟨s, d'⟩ x = Commands.copies k ⟨s, d⟩ x := by
  obtain ⟨-, -, hinputQ, -, ⟨ready, houtputQ⟩, -⟩ := update_spec h hinv
  simp only [Commands.copies, hinputQ, houtputQ, copies_map_markReady]

theorem queues_update (hqueues : Commands.Queues k ⟨s, d⟩) : Commands.Queues k ⟨s, d'⟩ := by
  obtain ⟨-, -, hinputQ, -, ⟨ready, houtputQ⟩, -⟩ := update_spec h hinv
  refine ⟨hqueues.capacity, hqueues.scheduler, fun cmd hcmd => ?_, fun cmd hcmd => ?_⟩
  · rw [hinputQ] at hcmd
    exact hqueues.inputQ cmd hcmd
  · rw [houtputQ] at hcmd
    obtain ⟨old, hold, rfl⟩ := List.mem_map.1 hcmd
    have hplain := hqueues.outputQ old hold
    unfold markReady
    split_ifs
    · exact hplain
    · exact hplain

end

/-- The commands of a cycle after the update: what leaves the queues goes to the device. -/
structure CycleKeeps (k : Config) (c c' : Commands) (toDevice : List BankCommand) : Prop where
  driver : DriverInv c'.driver
  queues : c'.Queues k
  copies : ∀ x, c'.copies k x + CramSim.copies x (toDevice.filter BankCommand.isColCommand) =
    c.copies k x
  device : ∀ cmd ∈ toDevice.filter BankCommand.isColCommand,
    cmd.isColCommand ∧ cmd.bankIdVec = []

theorem cycleKeeps_run {s' : CmdScheduler} {d₁ : DeviceDriver} {toDevice : List BankCommand}
    (hscheduler : s.run k d = some (s', d₁)) (hdriver : d₁.run k = some (d', toDevice))
    (hidx : s.IdxInRange k) (hprepared : Prepared d) (hinv : DriverInv d)
    (hqueues : Commands.Queues k ⟨s, d⟩) :
    CycleKeeps k ⟨s, d⟩ ⟨s', d'⟩ toDevice ∧ s'.IdxInRange k := by
  obtain ⟨hmoves, hprepared₁, hidx'⟩ := moves_of_schedulerRun hidx hprepared hscheduler
  obtain ⟨d₂, hmoves', rfl, rfl⟩ := moves_of_driverRun (s := s') hdriver hprepared₁
  have hall : Moves k ⟨s, d⟩ ⟨s', d₂⟩ := hmoves.trans hmoves'
  have hinv' := hall.driverInv hinv
  have hqueues' := hall.queues hqueues
  refine ⟨⟨hinv'.of_eq rfl rfl, ⟨hqueues'.capacity, hqueues'.scheduler, hqueues'.inputQ,
    fun cmd hcmd => hqueues'.outputQ cmd (mem_of_mem_filter hcmd)⟩, fun x => ?_,
    fun cmd hcmd => ?_⟩, hidx'⟩
  · have hcopies := @Moves.copies_eq x k _ _ hall
    have hready := @copies_filter_ready x d₂.outputQ
    simp only [Commands.copies] at hcopies ⊢
    omega
  · obtain ⟨hmem, hcol⟩ := mem_filter.1 hcmd
    have hout := mem_of_mem_filter (mem_of_mem_filter hmem)
    exact ⟨hcol, hqueues'.outputQ cmd hout hcol⟩

end Copies

end SstElements.CramSim
