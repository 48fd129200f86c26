import SstElements.CramSim.Controller

/-!
# What each operation of the driver does

Most fields of the driver are timers and flags that only decide whether a command is sent.
The lemmas say what an operation does with the commands, the banks and the history.
-/

namespace SstElements.CramSim

namespace BankInfo

variable {bank : BankInfo} {cmd : BankCommand} {cycle : Nat}

theorem of_isCommandAllowed (h : bank.isCommandAllowed cmd cycle) :
    bank.bankState.receivedCommand = none ∧
      bank.bankState.currentState.allowedCommands.contains cmd.cmdMnemonic := by
  simp only [isCommandAllowed, Bool.and_eq_true, Option.isNone_iff_eq_none] at h
  exact ⟨h.1.2, h.1.1⟩

theorem bankState_handleCommand (h : bank.isCommandAllowed cmd cycle) :
    (bank.bankState.currentState = .IDLE ∧
        (cmd.cmdMnemonic = .ACT ∨ cmd.cmdMnemonic = .REF ∨ cmd.cmdMnemonic = .PRE) ∧
        (bank.stateHandleCommand cmd cycle).bankState =
          { bank.bankState with timer := 1, receivedCommand := some cmd }) ∨
      ((bank.bankState.currentState = .ACTIVE ∨ bank.bankState.currentState = .READ ∨
          bank.bankState.currentState = .WRITE) ∧
        (cmd.isColCommand ∨ cmd.cmdMnemonic = .PRE) ∧
        (bank.stateHandleCommand cmd cycle).bankState =
          { bank.bankState with
            receivedCommand := some cmd
            nextState := cmd.cmdMnemonic.nextState }) := by
  obtain ⟨hnone, hallowed⟩ := of_isCommandAllowed h
  cases hstate : bank.bankState.currentState <;> rw [hstate] at hallowed <;>
    cases hcmd : cmd.cmdMnemonic <;> rw [hcmd] at hallowed <;>
    first
      | (cases hallowed; done)
      | simp [stateHandleCommand, hstate, hcmd, setLast, changeState, hnone,
          BankCommand.isColCommand, BankCommandType.nextState]

end BankInfo

namespace DeviceDriver

/-- The fields that are not timers or flags are the same. -/
structure SameCore (d d' : DeviceDriver) : Prop where
  simCycle : d'.simCycle = d.simCycle
  banks : d'.banks = d.banks
  inputQ : d'.inputQ = d.inputQ
  outputQ : d'.outputQ = d.outputQ
  refreshCmdQ : d'.refreshCmdQ = d.refreshCmdQ
  history : d'.history = d.history

namespace SameCore

theorem refl (d : DeviceDriver) : SameCore d d :=
  ⟨rfl, rfl, rfl, rfl, rfl, rfl⟩

theorem trans {d d' d'' : DeviceDriver} (h : SameCore d d') (h' : SameCore d' d'') :
    SameCore d d'' :=
  ⟨h'.simCycle.trans h.simCycle, h'.banks.trans h.banks, h'.inputQ.trans h.inputQ,
    h'.outputQ.trans h.outputQ, h'.refreshCmdQ.trans h.refreshCmdQ, h'.history.trans h.history⟩

end SameCore

section Bus

variable {k : Config} (d : DeviceDriver) (cmd : BankCommand)

theorem sameCore_occupyBuses : SameCore d (d.occupyBuses k cmd) := by
  unfold occupyBuses
  split_ifs <;> exact ⟨rfl, rfl, rfl, rfl, rfl, rfl⟩

@[simp] theorem blockBank_occupyBuses : (d.occupyBuses k cmd).blockBank = d.blockBank := by
  unfold occupyBuses
  split_ifs <;> rfl

theorem noteIssued_spec {d d' : DeviceDriver} {cmd : BankCommand}
    (h : d.noteIssued k cmd = some d') :
    SameCore d d' ∧ d'.blockBank = d.blockBank := by
  unfold noteIssued at h
  dsimp only at h
  split_ifs at h <;> obtain rfl := Option.some.inj h <;>
    exact ⟨⟨rfl, rfl, rfl, rfl, rfl, rfl⟩, rfl⟩

end Bus

section Send

variable {k : Config} {d d' : DeviceDriver} {cmd : BankCommand} {bank : Nat}

/-- A sent command is in the output queue and in the trace, and its bank knows of it. -/
structure Sent (k : Config) (d : DeviceDriver) (cmd : BankCommand) (bank : Nat)
    (d' : DeviceDriver) : Prop where
  allowed : (d.banks bank).isCommandAllowed cmd d.simCycle
  simCycle : d'.simCycle = d.simCycle
  banks : d'.banks = (d.handleCommand k bank cmd).banks
  inputQ : d'.inputQ = d.inputQ
  outputQ : d'.outputQ = d.outputQ ++ [cmd]
  refreshCmdQ : d'.refreshCmdQ = d.refreshCmdQ
  history : d'.history = d.history ++ [.issued d.simCycle bank cmd]

theorem Sent.sameCore {d'' : DeviceDriver} (h : Sent k d cmd bank d') (hs : SameCore d' d'') :
    Sent k d cmd bank d'' :=
  ⟨h.allowed, hs.simCycle.trans h.simCycle, hs.banks.trans h.banks, hs.inputQ.trans h.inputQ,
    hs.outputQ.trans h.outputQ, hs.refreshCmdQ.trans h.refreshCmdQ, hs.history.trans h.history⟩

theorem SameCore.sent {d'' : DeviceDriver} (hs : SameCore d d') (h : Sent k d' cmd bank d'') :
    Sent k d cmd bank d'' where
  allowed := by
    have := h.allowed
    rwa [hs.banks, hs.simCycle] at this
  simCycle := h.simCycle.trans hs.simCycle
  banks := by
    rw [h.banks]
    simp only [handleCommand, hs.banks, hs.simCycle]
  inputQ := h.inputQ.trans hs.inputQ
  outputQ := by rw [h.outputQ, hs.outputQ]
  refreshCmdQ := h.refreshCmdQ.trans hs.refreshCmdQ
  history := by rw [h.history, hs.history, hs.simCycle]

theorem sent_of_sendCommand (h : d.sendCommand k cmd bank = some d') :
    Sent k d cmd bank d' ∧ d'.blockBank = d.blockBank := by
  unfold sendCommand at h
  split_ifs at h with hallowed
  cases h
  exact ⟨⟨hallowed, rfl, rfl, rfl, rfl, rfl, rfl⟩, rfl⟩

end Send

section Requests

variable {k : Config} {d d' : DeviceDriver} {cmd : BankCommand}

/-- What can happen to a command of the input queue in one iteration. -/
inductive RequestStep (k : Config) (d : DeviceDriver) (cmd : BankCommand) :
    RequestOutcome → DeviceDriver → Prop
  | kept
      {d' : DeviceDriver} {outcome : RequestOutcome}
      (houtcome : outcome = .keep ∨ outcome = .keepAndStop)
      (hsame : SameCore d d')
      (hblock : ∀ bank, d.blockBank bank → d'.blockBank bank)
      (hkept : d'.blockBank cmd.hashedAddr.bankId ∨
        (k.useRefresh && d.isRefreshing cmd.hashedAddr)) :
      RequestStep k d cmd outcome d'
  | dropped
      {d' : DeviceDriver}
      (hfree : ¬(k.useRefresh && d.isRefreshing cmd.hashedAddr))
      (hfirst : d.blockBank cmd.hashedAddr.bankId = false)
      (hpre : cmd.cmdMnemonic = .PRE)
      (hclosed : (d.banks cmd.hashedAddr.bankId).isClosed)
      (hsame : SameCore { d with history := d.history ++ [.dropped cmd] } d')
      (hblock : d'.blockBank = Function.update d.blockBank cmd.hashedAddr.bankId true) :
      RequestStep k d cmd .leave d'
  | sent
      {d' : DeviceDriver} {outcome : RequestOutcome}
      (houtcome : outcome = .leave ∨ outcome = .leaveAndStop)
      (hfree : ¬(k.useRefresh && d.isRefreshing cmd.hashedAddr))
      (hfirst : d.blockBank cmd.hashedAddr.bankId = false)
      (hsent : Sent k d cmd cmd.hashedAddr.bankId d')
      (hblock : d'.blockBank = Function.update d.blockBank cmd.hashedAddr.bankId true) :
      RequestStep k d cmd outcome d'

variable {outcome : RequestOutcome}

theorem issueRequest_cases (h : d.issueRequest k cmd = some (outcome, d')) :
    (outcome = .keep ∧ d' = d) ∨
      (outcome = .leave ∧ cmd.cmdMnemonic = .PRE ∧ (d.banks cmd.hashedAddr.bankId).isClosed ∧
        d' = { d with history := d.history ++ [.dropped cmd] }) ∨
      ((outcome = .leave ∨ outcome = .leaveAndStop) ∧ Sent k d cmd cmd.hashedAddr.bankId d' ∧
        d'.blockBank = d.blockBank) := by
  unfold issueRequest at h
  dsimp only at h
  split_ifs at h with hbus hpre
  · cases h
    exact .inl ⟨rfl, rfl⟩
  · cases h
    simp only [Bool.and_eq_true, decide_eq_true_eq] at hpre
    exact .inr (.inl ⟨rfl, hpre.1, hpre.2, rfl⟩)
  · cases hsend : d.sendCommand k cmd cmd.hashedAddr.bankId with
    | none =>
      rw [hsend] at h
      cases h
      exact .inl ⟨rfl, rfl⟩
    | some sent =>
      rw [hsend] at h
      obtain ⟨hsent, hblock⟩ := sent_of_sendCommand hsend
      obtain ⟨noted, hnoted, hout⟩ := Option.map_eq_some_iff.1 h
      obtain ⟨hsame, hblock'⟩ := noteIssued_spec hnoted
      cases hout
      refine .inr (.inr ⟨?_, hsent.sameCore (hsame.trans (sameCore_occupyBuses noted cmd)), ?_⟩)
      · split_ifs
        · exact .inr rfl
        · exact .inl rfl
      · rw [blockBank_occupyBuses, hblock', hblock]

theorem requestStep_of_issueRequest {d₁ : DeviceDriver} (hsame : SameCore d d₁)
    (hfree : ¬(k.useRefresh && d.isRefreshing cmd.hashedAddr))
    (hfirst : d.blockBank cmd.hashedAddr.bankId = false)
    (hblock : d₁.blockBank = Function.update d.blockBank cmd.hashedAddr.bankId true)
    (h : d₁.issueRequest k cmd = some (outcome, d')) :
    RequestStep k d cmd outcome d' := by
  rcases issueRequest_cases h with ⟨rfl, rfl⟩ | ⟨rfl, hpre, hclosed, rfl⟩ |
    ⟨houtcome, hsent, hkept⟩
  · refine .kept (.inl rfl) hsame (fun bank hbank => ?_) (.inl ?_)
    · rw [hblock]
      by_cases heq : bank = cmd.hashedAddr.bankId
      · rw [heq, Function.update_self]
      · rwa [Function.update_of_ne heq]
    · rw [hblock, Function.update_self]
  · refine .dropped hfree hfirst hpre ?_ ⟨hsame.simCycle, hsame.banks, hsame.inputQ, hsame.outputQ,
      hsame.refreshCmdQ, by simp only [hsame.history]⟩ hblock
    rwa [hsame.banks] at hclosed
  · exact .sent houtcome hfree hfirst (hsame.sent hsent) (hkept.trans hblock)

theorem sendOne_cases {actsInFAW : Nat → Nat} (h : d.sendOne k actsInFAW cmd = some (outcome, d')) :
    RequestStep k d cmd outcome d' := by
  unfold sendOne at h
  dsimp only at h
  have hmore : ∀ bank, d.blockBank bank →
      Function.update d.blockBank cmd.hashedAddr.bankId true bank = true := by
    intro bank hbank
    by_cases heq : bank = cmd.hashedAddr.bankId
    · rw [heq, Function.update_self]
    · rwa [Function.update_of_ne heq]
  split_ifs at h with hrefreshing href hproceed hwrite hwrite
  · cases h
    exact .kept (.inl rfl) (.refl d) (fun _ h => h) (.inr hrefreshing)
  · cases h
    exact .kept (.inr rfl) ⟨rfl, rfl, rfl, rfl, rfl, rfl⟩ hmore (.inl (Function.update_self ..))
  · simp only [Bool.and_eq_true, Bool.not_eq_true'] at hproceed
    refine requestStep_of_issueRequest ?_ hrefreshing hproceed.1.1 ?_ h
    · exact ⟨rfl, rfl, rfl, rfl, rfl, rfl⟩
    · rfl
  · simp only [Bool.and_eq_true, Bool.not_eq_true'] at hproceed
    refine requestStep_of_issueRequest ?_ hrefreshing hproceed.1.1 ?_ h
    · exact ⟨rfl, rfl, rfl, rfl, rfl, rfl⟩
    · rfl
  · cases h
    exact .kept (.inl rfl) ⟨rfl, rfl, rfl, rfl, rfl, rfl⟩ hmore (.inl (Function.update_self ..))
  · cases h
    exact .kept (.inl rfl) ⟨rfl, rfl, rfl, rfl, rfl, rfl⟩ hmore (.inl (Function.update_self ..))

end Requests

end DeviceDriver
end SstElements.CramSim
