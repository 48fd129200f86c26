import SstElements.CramSim.CommandMoves

/-!
# When a bank has an open row

The state of a bank follows its commands with a delay.  `opens` says whether the commands
that the bank was told so far leave a row open.
-/

namespace SstElements.CramSim

namespace BankState

/-- A state that a command of an open row can be told to. -/
def HasRow (state : BankState) : Prop :=
  state.currentState = .ACTIVE ∨ state.currentState = .READ ∨ state.currentState = .WRITE

/-- A state that only a timer ends. -/
def Waits (state : BankState) : Prop :=
  state.currentState = .ACTNG ∨ state.currentState = .READA ∨ state.currentState = .WRITEA ∨
    state.currentState = .PRE ∨ state.currentState = .REF

/-- What the next clock tics rely on. -/
structure Inv (state : BankState) : Prop where
  idle : state.currentState = .IDLE → ∀ cmd ∈ state.receivedCommand,
    state.timer = 1 ∧ (cmd.cmdMnemonic = .ACT ∨ cmd.cmdMnemonic = .REF ∨ cmd.cmdMnemonic = .PRE)
  row : state.HasRow → ∀ cmd ∈ state.receivedCommand,
    state.nextState = cmd.cmdMnemonic.nextState ∧ (cmd.isColCommand ∨ cmd.cmdMnemonic = .PRE)

/-- Whether the commands that the bank was told leave a row open. -/
def opens (state : BankState) : Bool :=
  match state.currentState with
  | .IDLE => state.receivedCommand.any fun cmd => cmd.cmdMnemonic = .ACT
  | .ACTNG => true
  | .ACTIVE | .READ | .WRITE =>
    state.receivedCommand.all fun cmd => cmd.cmdMnemonic = .READ || cmd.cmdMnemonic = .WRITE
  | .READA | .WRITEA | .PRE | .REF => false

end BankState

def BankCommandType.leavesOpen : BankCommandType → Bool
  | .ACT | .READ | .WRITE => true
  | .READA | .WRITEA | .PRE | .REF => false

namespace BankInfo

@[simp] theorem bankState_changeState (bank : BankInfo) (state : BankState) :
    (bank.changeState state).bankState = state := by
  rfl

@[simp] theorem bankState_setLast (bank : BankInfo) (cmd : BankCommandType) (cycle : Nat) :
    (bank.setLast cmd cycle).bankState = bank.bankState := by
  rfl

theorem opens_handleCommand {bank : BankInfo} {cmd : BankCommand} {cycle : Nat}
    (h : bank.isCommandAllowed cmd cycle) :
    (bank.stateHandleCommand cmd cycle).bankState.Inv ∧
      (bank.stateHandleCommand cmd cycle).bankState.opens = cmd.cmdMnemonic.leavesOpen ∧
      (cmd.isColCommand → bank.bankState.opens) ∧
      (cmd.cmdMnemonic = .ACT ∨ cmd.cmdMnemonic = .REF → ¬bank.bankState.opens) := by
  obtain ⟨hnone, -⟩ := of_isCommandAllowed h
  rcases bankState_handleCommand h with ⟨hidle, hkind, hstate⟩ | ⟨hrow, hkind, hstate⟩
  · rw [hstate]
    refine ⟨⟨fun _ c hc => ?_, fun hrow => ?_⟩, ?_, fun hcolumn => ?_, fun _ => ?_⟩
    · cases hc
      exact ⟨rfl, hkind⟩
    · rcases hrow with hrow | hrow | hrow <;> rw [hidle] at hrow <;> cases hrow
    · rcases hkind with hkind | hkind | hkind <;>
        simp [BankState.opens, hidle, hkind, BankCommandType.leavesOpen]
    · rcases hkind with hkind | hkind | hkind <;>
        simp [BankCommand.isColCommand, hkind] at hcolumn
    · simp [BankState.opens, hidle, hnone]
  · rw [hstate]
    have hopens : bank.bankState.opens = true := by
      rcases hrow with hrow | hrow | hrow <;> simp [BankState.opens, hrow, hnone]
    refine ⟨⟨fun hidle => ?_, fun _ c hc => ?_⟩, ?_, fun _ => hopens, fun hclosed => ?_⟩
    · dsimp only at hidle
      rw [hidle] at hrow
      rcases hrow with hrow | hrow | hrow <;> cases hrow
    · cases hc
      exact ⟨rfl, hkind⟩
    · rcases hrow with hrow | hrow | hrow <;> cases hcmd : cmd.cmdMnemonic <;>
        simp [BankState.opens, hrow, hcmd, BankCommandType.leavesOpen,
          BankCommand.isColCommand] at hkind ⊢
    · rcases hclosed with hclosed | hclosed <;>
        simp [BankCommand.isColCommand, hclosed] at hkind

structure TicKeeps (state state' : BankState) : Prop where
  inv : state'.Inv
  opens : state'.opens = state.opens
  idle : state'.currentState = .IDLE → state'.receivedCommand = none

section ClockTic

variable {p : BankParams} {bank : BankInfo} {cycle : Nat}

theorem ticKeeps_countDown (hinv : bank.bankState.Inv)
    (hstate : bank.bankState.currentState ≠ .IDLE) :
    TicKeeps bank.bankState bank.countDown.bank.bankState where
  inv := ⟨fun hidle => absurd hidle hstate, hinv.row⟩
  opens := rfl
  idle := fun hidle => absurd hidle hstate

variable {state state' : BankState}

theorem ticKeeps_entered (hnone : state'.receivedCommand = none)
    (hopens : state'.opens = state.opens) :
    TicKeeps state state' where
  inv := by constructor <;> intro _ cmd hcmd <;> rw [hnone] at hcmd <;> cases hcmd
  opens := hopens
  idle := fun _ => hnone

theorem ticKeeps_enterNext {cmd : BankCommand} (hinv : bank.bankState.Inv)
    (hrow : bank.bankState.HasRow) (hcmd : bank.bankState.receivedCommand = some cmd) :
    TicKeeps bank.bankState (bank.enterNext p cmd cycle).bank.bankState := by
  obtain ⟨hnext, hkind⟩ := hinv.row hrow cmd hcmd
  have hopens : bank.bankState.opens = cmd.cmdMnemonic.leavesOpen := by
    rcases hrow with hrow | hrow | hrow <;> cases hmnemonic : cmd.cmdMnemonic <;>
      simp [BankState.opens, hrow, hcmd, hmnemonic, BankCommandType.leavesOpen,
        BankCommand.isColCommand] at hkind ⊢
  unfold enterNext
  rw [hnext]
  cases hmnemonic : cmd.cmdMnemonic <;> rw [hmnemonic] at hopens
  case READ => exact ticKeeps_entered rfl hopens.symm
  case READA => exact ticKeeps_entered rfl hopens.symm
  case WRITE => exact ticKeeps_entered rfl hopens.symm
  case WRITEA => exact ticKeeps_entered rfl hopens.symm
  case PRE => exact ticKeeps_entered rfl hopens.symm
  case ACT => simp [BankCommand.isColCommand, hmnemonic] at hkind
  case REF => simp [BankCommand.isColCommand, hmnemonic] at hkind

theorem ticKeeps_idle (hinv : bank.bankState.Inv) (hstate : bank.bankState.currentState = .IDLE) :
    TicKeeps bank.bankState (bank.idleClockTic p cycle).bank.bankState := by
  unfold idleClockTic
  dsimp only
  cases hreceived : bank.bankState.receivedCommand with
  | none =>
    have hkeeps : ∀ state : BankState, state.currentState = .IDLE →
        state.receivedCommand = none → TicKeeps bank.bankState state := by
      intro state hidle hnone
      refine ticKeeps_entered hnone ?_
      simp [BankState.opens, hidle, hnone, hstate, hreceived]
    generalize sub64 bank.bankState.timer 1 = timer
    split_ifs
    all_goals
      refine hkeeps _ ?_ ?_
      · simp only [changeState, hstate]
      · rfl
  | some cmd =>
    obtain ⟨htimer, hkind⟩ := hinv.idle hstate cmd hreceived
    rw [htimer, if_neg (by decide), if_neg (by decide)]
    have hopens : bank.bankState.opens = decide (cmd.cmdMnemonic = .ACT) := by
      simp [BankState.opens, hstate, hreceived]
    rcases hkind with hkind | hkind | hkind
    · simp only [hkind] at hopens ⊢
      exact ticKeeps_entered rfl hopens.symm
    · simp only [hkind] at hopens ⊢
      exact ticKeeps_entered rfl hopens.symm
    · simp only [hkind] at hopens ⊢
      exact ticKeeps_entered rfl hopens.symm

theorem ticKeeps_column {timerExit : BankInfo → BankCommand → Nat → Option Nat}
    (hinv : bank.bankState.Inv) (hrow : bank.bankState.HasRow) :
    TicKeeps bank.bankState
      (bank.columnClockTic p timerExit cycle).bank.bankState := by
  have hidle : bank.bankState.currentState ≠ .IDLE := by
    intro hidle
    rcases hrow with hrow | hrow | hrow <;> rw [hidle] at hrow <;> cases hrow
  have hsame : TicKeeps bank.bankState bank.bankState := ⟨hinv, rfl, fun h => absurd h hidle⟩
  unfold columnClockTic
  by_cases htimer : 0 < bank.bankState.timer
  · rw [if_pos htimer]
    exact ticKeeps_countDown hinv hidle
  · rw [if_neg htimer]
    cases hreceived : bank.bankState.receivedCommand with
    | none =>
      exact hsame
    | some cmd =>
      dsimp only
      cases hexit : (if bank.bankState.timerExit = 0 then timerExit bank cmd cycle
          else some bank.bankState.timerExit) with
      | none =>
        exact hsame
      | some exit =>
        dsimp only
        split_ifs
        · exact ⟨⟨fun h => absurd h hidle, hinv.row⟩, rfl, fun h => absurd h hidle⟩
        · have hkeeps := @ticKeeps_enterNext p
            (bank.changeState { bank.bankState with timerExit := exit }) cycle cmd
            ⟨hinv.idle, hinv.row⟩ hrow hreceived
          exact ⟨hkeeps.inv, hkeeps.opens, hkeeps.idle⟩

theorem ticKeeps_same (hwaits : state.Waits) (hsame : state'.currentState = state.currentState) :
    TicKeeps state state' := by
  rcases hwaits with hstate | hstate | hstate | hstate | hstate <;>
    exact ⟨⟨fun h => by simp [hsame, hstate] at h,
        fun h => by simp [BankState.HasRow, hsame, hstate] at h⟩,
      by simp [BankState.opens, hsame, hstate],
      fun h => by simp [hsame, hstate] at h⟩

theorem ticKeeps_activating (hstate : bank.bankState.currentState = .ACTNG) :
    TicKeeps bank.bankState (bank.activatingClockTic p cycle).bank.bankState := by
  have hsame : TicKeeps bank.bankState bank.bankState := ticKeeps_same (.inl hstate) rfl
  have hopens : bank.bankState.opens = true := by simp [BankState.opens, hstate]
  unfold activatingClockTic
  split_ifs
  · exact ticKeeps_same (.inl hstate) rfl
  · cases bank.bankState.prevCommand with
    | none =>
      exact hsame
    | some cmd =>
      dsimp only
      split_ifs
      · exact ticKeeps_entered rfl hopens.symm
      · exact hsame

theorem ticKeeps_active (hinv : bank.bankState.Inv)
    (hstate : bank.bankState.currentState = .ACTIVE) :
    TicKeeps bank.bankState (bank.activeClockTic p cycle).bank.bankState := by
  have hidle : bank.bankState.currentState ≠ .IDLE := by simp [hstate]
  unfold activeClockTic
  split_ifs
  · exact ticKeeps_countDown hinv hidle
  · cases hreceived : bank.bankState.receivedCommand with
    | none =>
      exact ⟨hinv, rfl, fun h => absurd h hidle⟩
    | some cmd =>
      exact ticKeeps_enterNext hinv (.inl hstate) hreceived

theorem ticKeeps_readA (hstate : bank.bankState.currentState = .READA) :
    TicKeeps bank.bankState (bank.readAClockTic p cycle).bank.bankState := by
  have hwaits : bank.bankState.Waits := .inr (.inl hstate)
  have hopens : bank.bankState.opens = false := by simp [BankState.opens, hstate]
  unfold readAClockTic
  dsimp only
  split_ifs
  · exact ticKeeps_same hwaits (by simp only [countDown, bankState_changeState])
  · exact ticKeeps_same hwaits (by simp only [bankState_changeState, bankState_setLast])
  · exact ticKeeps_entered rfl hopens.symm
  · exact ticKeeps_same hwaits (by simp only [bankState_changeState])
  · exact ticKeeps_entered rfl hopens.symm

theorem ticKeeps_writeA (hstate : bank.bankState.currentState = .WRITEA) :
    TicKeeps bank.bankState (bank.writeAClockTic p cycle).bank.bankState := by
  have hwaits : bank.bankState.Waits := .inr (.inr (.inl hstate))
  have hopens : bank.bankState.opens = false := by simp [BankState.opens, hstate]
  unfold writeAClockTic
  dsimp only
  split_ifs
  · exact ticKeeps_same hwaits (by simp only [countDown, bankState_changeState])
  · exact ticKeeps_same hwaits (by simp only [bankState_changeState, bankState_setLast])
  · exact ticKeeps_entered rfl hopens.symm
  · exact ticKeeps_same hwaits (by simp only [bankState_changeState])
  · exact ticKeeps_entered rfl hopens.symm

theorem ticKeeps_clockTic (hinv : bank.bankState.Inv) :
    TicKeeps bank.bankState (bank.clockTic p cycle).bank.bankState := by
  unfold clockTic
  cases hstate : bank.bankState.currentState with
  | IDLE =>
    exact ticKeeps_idle hinv hstate
  | ACTNG =>
    exact ticKeeps_activating hstate
  | ACTIVE =>
    exact ticKeeps_active hinv hstate
  | READ =>
    exact ticKeeps_column hinv (.inr (.inl hstate))
  | READA =>
    exact ticKeeps_readA hstate
  | WRITE =>
    exact ticKeeps_column hinv (.inr (.inr hstate))
  | WRITEA =>
    exact ticKeeps_writeA hstate
  | PRE =>
    have hopens : bank.bankState.opens = false := by simp [BankState.opens, hstate]
    unfold prechargeClockTic
    split_ifs
    · exact ticKeeps_same (.inr (.inr (.inr (.inl hstate)))) rfl
    · exact ticKeeps_entered rfl hopens.symm
  | REF =>
    have hopens : bank.bankState.opens = false := by simp [BankState.opens, hstate]
    unfold refreshClockTic
    split_ifs
    · exact ticKeeps_same (.inr (.inr (.inr (.inr hstate)))) rfl
    · exact ticKeeps_entered rfl hopens.symm

end ClockTic

end BankInfo

end SstElements.CramSim
