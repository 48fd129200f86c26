import SstElements.CramSim.CommandFlow
import SstElements.Library.History

/-!
# The rows that the commands of a bank open and close

The commands that wait for a bank are a plan.  The plan fits the row that the issued
commands left open, and a refresh may close the row at any time.
-/

namespace SstElements.CramSim

open Library List Nat

/-- The row of a bank after the last command that was issued to it. -/
inductive RowState
  | closed
  | refreshed
  | opened (row : Nat)
deriving DecidableEq

def RowState.isOpen : RowState → Bool
  | .opened _ => true
  | .closed | .refreshed => false

namespace BankCommand

/-- The commands of the refresh machinery have banks of their own. -/
def rowAfter (cmd : BankCommand) : RowState :=
  match cmd.cmdMnemonic with
  | .ACT | .READ | .WRITE => .opened cmd.hashedAddr.row
  | .READA | .WRITEA => .closed
  | .PRE | .REF => if cmd.bankIdVec.isEmpty then .closed else .refreshed

def isGenerated (cmd : BankCommand) : Bool :=
  match cmd.ref with
  | .converter _ => true
  | .driver _ => false

/-- An ACT that the driver creates for a column command. -/
def isInserted (cmd : BankCommand) : Bool := !cmd.isGenerated && cmd.bankIdVec.isEmpty

theorem isOpen_rowAfter (cmd : BankCommand) : cmd.rowAfter.isOpen = cmd.cmdMnemonic.leavesOpen := by
  unfold rowAfter BankCommandType.leavesOpen
  cases cmd.cmdMnemonic with
  | PRE | REF => cases cmd.bankIdVec.isEmpty <;> rfl
  | _ => rfl

end BankCommand

section Plan

/-- Whether a command of the plan can be issued at a row, now or after the driver has
opened the row again. -/
def BankCommand.Fits (cmd : BankCommand) (state : RowState) : Prop :=
  match cmd.cmdMnemonic with
  | .ACT => cmd.isInserted → state ≠ .closed
  | .READ | .READA | .WRITE | .WRITEA =>
    state = .opened cmd.hashedAddr.row ∨ state = .refreshed
  | .PRE => True
  | .REF => False

def Planned : RowState → List BankCommand → Prop
  | _, [] => True
  | state, cmd :: rest => cmd.Fits state ∧ Planned cmd.rowAfter rest

def rowAfterAll : RowState → List BankCommand → RowState
  | state, [] => state
  | _, cmd :: rest => rowAfterAll cmd.rowAfter rest

variable {state : RowState} {cmd : BankCommand} {cmds pre post : List BankCommand}

theorem planned_append_iff :
    Planned state (pre ++ post) ↔ Planned state pre ∧ Planned (rowAfterAll state pre) post := by
  induction pre generalizing state with
  | nil =>
    simp [Planned, rowAfterAll]
  | cons cmd pre ih =>
    simp only [cons_append, Planned, rowAfterAll, ih, and_assoc]

theorem rowAfterAll_append :
    rowAfterAll state (pre ++ post) = rowAfterAll (rowAfterAll state pre) post := by
  induction pre generalizing state with
  | nil =>
    rfl
  | cons cmd pre ih =>
    exact ih

theorem BankCommand.Fits.refreshed (h : cmd.Fits state) : cmd.Fits .refreshed := by
  unfold Fits at h ⊢
  cases hcmd : cmd.cmdMnemonic <;> simp_all

theorem Planned.refreshed (h : Planned state cmds) : Planned .refreshed cmds := by
  cases cmds with
  | nil =>
    exact trivial
  | cons cmd rest =>
    exact ⟨h.1.refreshed, h.2⟩

theorem BankCommand.isColCommand_cases (h : cmd.isColCommand) :
    cmd.cmdMnemonic = .READ ∨ cmd.cmdMnemonic = .READA ∨ cmd.cmdMnemonic = .WRITE ∨
      cmd.cmdMnemonic = .WRITEA := by
  unfold isColCommand at h
  cases hcmd : cmd.cmdMnemonic <;> simp_all

theorem BankCommand.fits_column_iff (h : cmd.isColCommand) :
    cmd.Fits state ↔ state = .opened cmd.hashedAddr.row ∨ state = .refreshed := by
  unfold Fits
  rcases cmd.isColCommand_cases h with hcmd | hcmd | hcmd | hcmd <;> rw [hcmd]

theorem planned_activate {n : Nat} (h : Planned state (pre ++ cmd :: post))
    (hcolumn : cmd.isColCommand) :
    Planned state (pre ++ activation n cmd :: cmd :: post) := by
  obtain ⟨hpre, hfits, hpost⟩ := planned_append_iff.1 h
  refine planned_append_iff.2 ⟨hpre, fun _ hclosed => ?_, ?_, hpost⟩
  · rcases (BankCommand.fits_column_iff hcolumn).1 hfits with heq | heq
    · rw [hclosed] at heq
      cases heq
    · rw [hclosed] at heq
      cases heq
  · exact (BankCommand.fits_column_iff hcolumn).2 (.inl rfl)

theorem rowAfterAll_activate {n : Nat} :
    rowAfterAll state (pre ++ activation n cmd :: cmd :: post) =
      rowAfterAll state (pre ++ cmd :: post) := by
  rw [rowAfterAll_append, rowAfterAll_append]
  rfl

theorem Planned.drop (h : Planned state (cmd :: post)) (hpre : cmd.cmdMnemonic = .PRE)
    (hvec : cmd.bankIdVec = []) (hclosed : state.isOpen = false) :
    Planned state post := by
  have hpost := h.2
  have hafter : cmd.rowAfter = .closed := by simp [BankCommand.rowAfter, hpre, hvec]
  rw [hafter] at hpost
  cases state with
  | closed => exact hpost
  | refreshed => exact hpost.refreshed
  | opened row => cases hclosed

end Plan

section History

def rowState (history : List DriverRecord) (bank : Nat) : RowState :=
  history.foldl
    (fun state record =>
      match record with
      | .issued _ b cmd => if b = bank then cmd.rowAfter else state
      | .dropped _ => state) .closed

@[simp] theorem rowState_issued
    (history : List DriverRecord) (cycle bank : Nat) (cmd : BankCommand) (other : Nat) :
    rowState (history ++ [.issued cycle bank cmd]) other =
      if bank = other then cmd.rowAfter else rowState history other := by
  rw [rowState, foldl_append]
  rfl

@[simp] theorem rowState_dropped (history : List DriverRecord) (cmd : BankCommand) (bank : Nat) :
    rowState (history ++ [.dropped cmd]) bank = rowState history bank := by
  rw [rowState, foldl_append]
  rfl

def DriverRecord.generatedFor (bank : Nat) : DriverRecord → Option BankCommand
  | .issued _ b cmd => if b = bank ∧ cmd.isGenerated then some cmd else none
  | .dropped cmd => if cmd.hashedAddr.bankId = bank ∧ cmd.isGenerated then some cmd else none

/-- The generated commands of a bank that were issued or dropped. -/
def settled (history : List DriverRecord) (bank : Nat) : List BankCommand :=
  history.filterMap (DriverRecord.generatedFor bank)

@[simp] theorem settled_concat (history : List DriverRecord) (record : DriverRecord) (bank : Nat) :
    settled (history ++ [record]) bank =
      settled history bank ++ (record.generatedFor bank).toList := by
  rw [settled, filterMap_append]
  cases hrecord : record.generatedFor bank with
  | none => simp [settled, hrecord]
  | some cmd => simp [settled, hrecord]

def RecordFits (past : List DriverRecord) : DriverRecord → Prop
  | .issued _ bank cmd =>
    (cmd.isColCommand → rowState past bank = .opened cmd.hashedAddr.row) ∧
    (cmd.cmdMnemonic = .ACT ∨ cmd.cmdMnemonic = .REF → (rowState past bank).isOpen = false) ∧
    (cmd.isInserted → cmd.cmdMnemonic = .ACT ∧ rowState past bank = .refreshed)
  | .dropped cmd =>
    cmd.cmdMnemonic = .PRE ∧ (rowState past cmd.hashedAddr.bankId).isOpen = false

end History

section Places

variable {k : Config}

theorem fillHashedAddress_bankId (address : Nat) :
    (k.hasher.fillHashedAddress address).bankId =
      (k.hasher.fields address).bank + k.geometry.numBanksPerBankGroup *
        ((k.hasher.fields address).bankgroup + k.geometry.numBankGroupsPerRank *
          (k.hasher.fillHashedAddress address).rankId) := by
  simp only [AddressHasher.fillHashedAddress]
  ring

theorem rankId_of_bankId (address : Nat) :
    (k.hasher.fillHashedAddress address).bankId / k.geometry.numBanksPerBankGroup /
        k.geometry.numBankGroupsPerRank = (k.hasher.fillHashedAddress address).rankId := by
  have hbank := k.hasher.bank_lt address
  have hgroup := k.hasher.bankgroup_lt address
  rw [fillHashedAddress_bankId, add_mul_div_left _ _ (by omega), div_eq_of_lt hbank,
    zero_add, add_mul_div_left _ _ (by omega), div_eq_of_lt hgroup, zero_add]

theorem channel_of_rankId (address : Nat) :
    (k.hasher.fillHashedAddress address).rankId / k.geometry.numRanksPerChannel /
        k.geometry.numPChannelsPerChannel = (k.hasher.fillHashedAddress address).channel := by
  have hrank := k.hasher.rank_lt address
  have hpchannel := k.hasher.pchannel_lt address
  have heq : (k.hasher.fillHashedAddress address).rankId =
      (k.hasher.fields address).rank + k.geometry.numRanksPerChannel *
        ((k.hasher.fields address).pchannel + k.geometry.numPChannelsPerChannel *
          (k.hasher.fields address).channel) := by
    simp only [AddressHasher.fillHashedAddress]
    ring
  rw [heq, add_mul_div_left _ _ (by omega), div_eq_of_lt hrank, zero_add,
    add_mul_div_left _ _ (by omega), div_eq_of_lt hpchannel, zero_add]
  rfl

theorem numBanksPerChannel_eq (k : Config) :
    CmdScheduler.numBanksPerChannel k =
      k.geometry.numBanksPerBankGroup * k.geometry.numBankGroupsPerRank *
        k.geometry.numRanksPerChannel * k.geometry.numPChannelsPerChannel := by
  have hpos := k.geometry.banks_pos
  have heq : k.geometry.numBanks = k.geometry.numChannels *
      (k.geometry.numBanksPerBankGroup * k.geometry.numBankGroupsPerRank *
        k.geometry.numRanksPerChannel * k.geometry.numPChannelsPerChannel) := by
    simp only [Geometry.numBanks, Geometry.numBankGroups, Geometry.numRanks,
      Geometry.numPseudoChannels]
    ring
  have hchannels : 0 < k.geometry.numChannels := by
    by_contra hzero
    have h0 : k.geometry.numChannels = 0 := by omega
    rw [h0] at hpos
    simp at hpos
  rw [CmdScheduler.numBanksPerChannel, heq, Nat.mul_div_cancel_left _ hchannels]

structure BankCommand.Addressed (k : Config) (cmd : BankCommand) : Prop where
  bank : cmd.bankId = cmd.hashedAddr.bankId
  plain : cmd.bankIdVec = []
  hashed : ∃ address, cmd.hashedAddr = k.hasher.fillHashedAddress address

theorem BankCommand.Addressed.rankId {cmd : BankCommand} (h : cmd.Addressed k) :
    cmd.hashedAddr.rankId = cmd.hashedAddr.bankId / k.geometry.numBanksPerBankGroup /
        k.geometry.numBankGroupsPerRank := by
  obtain ⟨address, hashed⟩ := h.hashed
  rw [hashed, rankId_of_bankId]

theorem BankCommand.Addressed.channel {cmd : BankCommand} (h : cmd.Addressed k) :
    cmd.hashedAddr.channel = cmd.hashedAddr.bankId / CmdScheduler.numBanksPerChannel k := by
  obtain ⟨address, hashed⟩ := h.hashed
  rw [hashed, numBanksPerChannel_eq, ← Nat.div_div_eq_div_mul, ← Nat.div_div_eq_div_mul,
    ← Nat.div_div_eq_div_mul, rankId_of_bankId, channel_of_rankId]

end Places

end SstElements.CramSim
