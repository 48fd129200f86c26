import SstElements.CramSim.DriverSteps

/-!
# The moves of commands

Everything that the command scheduler and the driver do in a cycle is a sequence of moves
of single commands.  A property that the moves keep is kept by the whole cycle.
-/

namespace SstElements.CramSim

open DeviceDriver Function List Option Bool

/-- The queues of the command scheduler and the driver. -/
structure Commands where
  scheduler : CmdScheduler
  driver : DeviceDriver

/-- The bank has not been told to open a row that it is not opening yet. -/
def BankInfo.Settled (bank : BankInfo) : Prop :=
  bank.bankState.currentState = .IDLE →
    ∀ cmd ∈ bank.bankState.receivedCommand, cmd.cmdMnemonic ≠ .ACT

structure BankCommand.IsRefresh (cmd : BankCommand) : Prop where
  banks : cmd.bankIdVec ≠ []
  kind : cmd.cmdMnemonic = .PRE ∨ cmd.cmdMnemonic = .REF
  ref : ∃ n, cmd.ref = .driver n

/-- The command has its turn: those before it in the queue have other banks, or they wait
for a refresh that it does not wait for. -/
structure HasTurn (k : Config) (d : DeviceDriver) (pre : List BankCommand) (cmd : BankCommand) :
    Prop where
  notRefreshing : ¬(k.useRefresh && d.isRefreshing cmd.hashedAddr)
  before : ∀ c ∈ pre, c.hashedAddr.bankId = cmd.hashedAddr.bankId →
    k.useRefresh && d.isRefreshing c.hashedAddr

/-- The ACT that the driver creates for a column command. -/
def activation (n : Nat) (cmd : BankCommand) : BankCommand :=
  .forBank (.driver n) 0 .ACT cmd.addr cmd.hashedAddr

inductive Move (k : Config) : Commands → Commands → Prop
  | idle
      {s : CmdScheduler} {s' : CmdScheduler} {d d' : DeviceDriver}
      (hqueues : s'.cmdQueues = s.cmdQueues)
      (hsame : SameCore d d') :
      Move k ⟨s, d⟩ ⟨s', d'⟩
  | issue
      {s : CmdScheduler} {d d₁ d' : DeviceDriver} {pre post : List BankCommand}
      {cmd : BankCommand}
      (hqueue : d.inputQ = pre ++ cmd :: post)
      (hturn : HasTurn k d pre cmd)
      (hsent : Sent k d cmd cmd.hashedAddr.bankId d₁)
      (hsame : SameCore { d₁ with inputQ := pre ++ post } d') :
      Move k ⟨s, d⟩ ⟨s, d'⟩
  | drop
      {s : CmdScheduler} {d d' : DeviceDriver} {pre post : List BankCommand}
      {cmd : BankCommand}
      (hqueue : d.inputQ = pre ++ cmd :: post)
      (hturn : HasTurn k d pre cmd)
      (hpre : cmd.cmdMnemonic = .PRE)
      (hclosed : (d.banks cmd.hashedAddr.bankId).isClosed)
      (hsettled : (d.banks cmd.hashedAddr.bankId).Settled)
      (hsame : SameCore { d with inputQ := pre ++ post, history := d.history ++ [.dropped cmd] }
        d') :
      Move k ⟨s, d⟩ ⟨s, d'⟩
  | refresh
      {s : CmdScheduler} {d d' : DeviceDriver} {cmd : BankCommand} {bank : Nat}
      (hrefresh : cmd.IsRefresh)
      (hsent : Sent k d cmd bank d') :
      Move k ⟨s, d⟩ ⟨s, d'⟩
  | plan
      {s : CmdScheduler} {d : DeviceDriver} {queue : Nat → List BankCommand}
      (hrefresh : ∀ rank, ∀ cmd ∈ queue rank, cmd.IsRefresh) :
      Move k ⟨s, d⟩ ⟨s, { d with refreshCmdQ := queue }⟩
  | reactivate
      {s : CmdScheduler} {d d' : DeviceDriver} {pre post : List BankCommand}
      {cmd : BankCommand} {n : Nat}
      (hqueue : d.inputQ = pre ++ cmd :: post)
      (hfirst : ∀ c ∈ pre, c.bankId ≠ cmd.bankId)
      (hcolumn : cmd.isColCommand)
      (hsame : SameCore { d with inputQ := activation n cmd :: d.inputQ } d') :
      Move k ⟨s, d⟩ ⟨s, d'⟩
  | forward
      {s : CmdScheduler} {d d' : DeviceDriver} {cmd : BankCommand} {rest : List BankCommand}
      {channel idx : Nat}
      (hchannel : channel < k.geometry.numChannels)
      (hidx : idx < CmdScheduler.numBanksPerChannel k)
      (hqueue : s.cmdQueues channel idx = cmd :: rest)
      (hsame : SameCore { d with inputQ := d.inputQ ++ [cmd] } d') :
      Move k ⟨s, d⟩ ⟨s.setQueue channel idx rest, d'⟩
  | activate
      {s : CmdScheduler} {d d' : DeviceDriver} {cmd : BankCommand} {rest : List BankCommand}
      {channel idx n : Nat}
      (hqueue : s.cmdQueues channel idx = cmd :: rest)
      (hcolumn : cmd.isColCommand)
      (hclosed : (d.banks cmd.hashedAddr.bankId).isClosed)
      (hsettled : (d.banks cmd.hashedAddr.bankId).Settled)
      (hnone : ∀ c ∈ d.inputQ, c.bankId = cmd.bankId → c.cmdMnemonic ≠ .ACT)
      (hsame : SameCore { d with inputQ := d.inputQ ++ [activation n cmd] } d') :
      Move k ⟨s, d⟩ ⟨s, d'⟩

def Moves (k : Config) : Commands → Commands → Prop := Relation.ReflTransGen (Move k)

variable {d d' : DeviceDriver}

theorem Moves.same {k : Config} {s : CmdScheduler} (h : SameCore d d') :
    Moves k ⟨s, d⟩ ⟨s, d'⟩ :=
  .single (.idle rfl h)

/-- What the scheduler and the driver rely on in the part of a cycle after the update. -/
structure Prepared (d : DeviceDriver) : Prop where
  settled : ∀ bank, (d.banks bank).Settled
  refresh : ∀ rank, ∀ cmd ∈ d.refreshCmdQ rank, cmd.IsRefresh

theorem Prepared.sameCore (h : Prepared d) (hs : SameCore d d') :
    Prepared d' where
  settled := by
    rw [hs.banks]
    exact h.settled
  refresh := by
    rw [hs.refreshCmdQ]
    exact h.refresh

section Requests

variable {k : Config} {s : CmdScheduler}

/-- The banks and the refresh queue between the iterations of the loop. -/
structure LoopState (k : Config) (kept : List BankCommand) (d : DeviceDriver) : Prop where
  settled : ∀ bank, d.blockBank bank = false → (d.banks bank).Settled
  blocked : ∀ c ∈ kept, d.blockBank c.hashedAddr.bankId = true ∨
    (k.useRefresh && d.isRefreshing c.hashedAddr)

variable {other bank : Nat} {d d' : DeviceDriver} {cmd : BankCommand} {kept : List BankCommand}

theorem otherBank_bankState
    {g : Geometry} {p : BankParams} {init cycle : Nat} {cmd : BankCommandType} {bank : BankInfo} :
    (otherBankNextCommandCycles g p init cmd cycle other bank).bankState = bank.bankState := by
  unfold otherBankNextCommandCycles
  split_ifs <;> cases cmd <;> rfl

theorem DeviceDriver.Sent.bankState_of_ne (h : Sent k d cmd bank d') (hne : other ≠ bank) :
    (d'.banks other).bankState = (d.banks other).bankState := by
  rw [h.banks]
  simp only [handleCommand, otherBank_bankState, update_of_ne hne]

theorem DeviceDriver.Sent.bankState_self (h : Sent k d cmd bank d') :
    (d'.banks bank).bankState = ((d.banks bank).stateHandleCommand cmd d.simCycle).bankState := by
  rw [h.banks]
  simp only [handleCommand, otherBank_bankState, update_self]

theorem isRefreshing_congr {address : HashedAddress} (h : d'.refreshCmdQ = d.refreshCmdQ) :
    d'.isRefreshing address = d.isRefreshing address := by
  simp only [isRefreshing, h]

theorem LoopState.keep (h : LoopState k kept d) (hsame : SameCore d d')
    (hblock : ∀ bank, d.blockBank bank → d'.blockBank bank)
    (hkept : d'.blockBank cmd.hashedAddr.bankId ∨ (k.useRefresh && d.isRefreshing cmd.hashedAddr)) :
    LoopState k (kept ++ [cmd]) d' where
  settled := by
    intro bank hbank
    rw [hsame.banks]
    refine h.settled bank (eq_false_iff.2 fun hd => ?_)
    rw [hblock bank hd] at hbank
    cases hbank
  blocked := by
    intro c hc
    rw [isRefreshing_congr hsame.refreshCmdQ]
    rcases mem_append.1 hc with hc | hc
    · exact (h.blocked c hc).imp (hblock _) id
    · rw [mem_singleton.1 hc]
      exact hkept

theorem LoopState.leave (h : LoopState k kept d)
    (hbanks : ∀ other, other ≠ bank → (d'.banks other).bankState = (d.banks other).bankState)
    (hrefresh : d'.refreshCmdQ = d.refreshCmdQ)
    (hblock : d'.blockBank = update d.blockBank bank true) :
    LoopState k kept d' where
  settled := by
    intro other hother
    rw [hblock] at hother
    have hne : other ≠ bank := by
      rintro rfl
      rw [update_self] at hother
      cases hother
    rw [update_of_ne hne] at hother
    simpa only [BankInfo.Settled, hbanks other hne] using h.settled other hother
  blocked := by
    intro c hc
    rw [isRefreshing_congr hrefresh, hblock]
    refine (h.blocked c hc).imp (fun hd => ?_) id
    by_cases heq : c.hashedAddr.bankId = bank
    · rw [heq, update_self]
    · rwa [update_of_ne heq]

theorem LoopState.hasTurn (h : LoopState k kept d)
    (hfree : ¬(k.useRefresh && d.isRefreshing cmd.hashedAddr))
    (hfirst : d.blockBank cmd.hashedAddr.bankId = false) :
    HasTurn k d kept cmd where
  notRefreshing := hfree
  before := by
    intro c hc hbank
    refine (h.blocked c hc).resolve_left fun hd => ?_
    rw [hbank, hfirst] at hd
    cases hd

theorem moves_of_sendLoop {actsInFAW : Nat → Nat} {todo left : List BankCommand}
    (h : sendLoop k actsInFAW todo d = some (left, d')) (hloop : LoopState k kept d) :
    Moves k ⟨s, { d with inputQ := kept ++ todo }⟩ ⟨s, { d' with inputQ := kept ++ left }⟩ := by
  induction todo generalizing kept d left with
  | nil =>
    cases h
    exact .refl
  | cons cmd rest ih =>
    simp only [sendLoop] at h
    cases hone : d.sendOne k actsInFAW cmd with
    | none =>
      rw [hone] at h
      cases h
    | some r =>
      obtain ⟨outcome, d₁⟩ := r
      have hstep := sendOne_cases hone
      rw [hone] at h
      cases hstep with
      | kept houtcome hsame hblock hkept =>
        have hidle : SameCore { d with inputQ := kept ++ cmd :: rest }
            { d₁ with inputQ := kept ++ cmd :: rest } :=
          ⟨hsame.simCycle, hsame.banks, rfl, hsame.outputQ, hsame.refreshCmdQ, hsame.history⟩
        rcases houtcome with rfl | rfl
        · obtain ⟨⟨left', d''⟩, hrest, hout⟩ := map_eq_some_iff.1 h
          cases hout
          have hmoves := ih hrest (hloop.keep hsame hblock hkept)
          simp only [append_assoc, cons_append, nil_append] at hmoves
          exact (Moves.same hidle).trans hmoves
        · cases h
          exact .same hidle
      | dropped hfree hfirst hpre hclosed hsame hblock =>
        have hturn := hloop.hasTurn hfree hfirst
        have hloop' : LoopState k kept d₁ :=
          hloop.leave (fun other _ => by rw [hsame.banks]) hsame.refreshCmdQ hblock
        refine Relation.ReflTransGen.head ?_ (ih h hloop')
        exact .drop (d := { d with inputQ := kept ++ cmd :: rest }) rfl
          ⟨hturn.notRefreshing, hturn.before⟩ hpre hclosed (hloop.settled _ hfirst)
          ⟨hsame.simCycle, hsame.banks, rfl, hsame.outputQ, hsame.refreshCmdQ, hsame.history⟩
      | sent houtcome hfree hfirst hsent hblock =>
        have hturn := hloop.hasTurn hfree hfirst
        have hloop' : LoopState k kept d₁ :=
          hloop.leave (fun other hne => hsent.bankState_of_ne hne) hsent.refreshCmdQ hblock
        have hmove : Move k ⟨s, { d with inputQ := kept ++ cmd :: rest }⟩
            ⟨s, { d₁ with inputQ := kept ++ rest }⟩ := by
          have hsent' : Sent k { d with inputQ := kept ++ cmd :: rest } cmd
              cmd.hashedAddr.bankId { d₁ with inputQ := kept ++ cmd :: rest } :=
            ⟨hsent.allowed, hsent.simCycle, hsent.banks, rfl, hsent.outputQ,
              hsent.refreshCmdQ, hsent.history⟩
          exact .issue rfl ⟨hturn.notRefreshing, hturn.before⟩ hsent'
            ⟨rfl, rfl, rfl, rfl, rfl, rfl⟩
        rcases houtcome with rfl | rfl
        · exact Relation.ReflTransGen.head hmove (ih h hloop')
        · cases h
          exact .single hmove

theorem moves_of_sendRequest (h : d.sendRequest k = some d')
    (hblock : ∀ bank, (d.banks bank).Settled) :
    Moves k ⟨s, d⟩ ⟨s, d'⟩ := by
  obtain ⟨⟨left, d₁⟩, hrun, rfl⟩ := map_eq_some_iff.1 h
  have hloop : LoopState k [] d := ⟨fun bank _ => hblock bank, by simp⟩
  exact moves_of_sendLoop hrun hloop

end Requests

section Refresh

variable {k : Config} {s : CmdScheduler}
variable {d : DeviceDriver} {cmd : BankCommand} {bank rank : Nat}

theorem Prepared.sent {d' : DeviceDriver} (h : Prepared d) (hrefresh : cmd.IsRefresh)
    (hsent : Sent k d cmd bank d') :
    Prepared d' where
  settled := by
    intro other
    by_cases heq : other = bank
    · subst heq
      intro hidle c hc
      rw [hsent.bankState_self] at hidle hc
      rcases BankInfo.bankState_handleCommand hsent.allowed with
        ⟨-, -, hstate⟩ | ⟨hopen, -, hstate⟩
      · rw [hstate] at hc
        obtain rfl : cmd = c := some.inj hc
        rcases hrefresh.2 with hpre | href
        · rw [hpre]
          exact nofun
        · rw [href]
          exact nofun
      · rw [hstate] at hidle
        rw [hidle] at hopen
        rcases hopen with hopen | hopen | hopen <;> cases hopen
    · simpa only [BankInfo.Settled, hsent.bankState_of_ne heq] using h.settled other
  refresh := by
    rw [hsent.refreshCmdQ]
    exact h.refresh

theorem moves_of_foldl {ι : Type} {f : DeviceDriver → ι → DeviceDriver}
    (hf : ∀ d i, Prepared d → Moves k ⟨s, d⟩ ⟨s, f d i⟩ ∧ Prepared (f d i)) (items : List ι)
    (h : Prepared d) :
    Moves k ⟨s, d⟩ ⟨s, items.foldl f d⟩ ∧ Prepared (items.foldl f d) := by
  induction items generalizing d with
  | nil =>
    exact ⟨.refl, h⟩
  | cons i rest ih =>
    obtain ⟨hmoves, hprepared⟩ := hf d i h
    obtain ⟨hmoves', hprepared'⟩ := ih hprepared
    exact ⟨hmoves.trans hmoves', hprepared'⟩

theorem moves_of_sendCommand (hrefresh : cmd.IsRefresh) (h : Prepared d) :
    Moves k ⟨s, d⟩ ⟨s, (d.sendCommand k cmd bank).getD d⟩ ∧
      Prepared ((d.sendCommand k cmd bank).getD d) := by
  cases hsend : d.sendCommand k cmd bank with
  | none =>
    exact ⟨.refl, h⟩
  | some d' =>
    obtain ⟨hsent, -⟩ := sent_of_sendCommand hsend
    exact ⟨.single (.refresh hrefresh hsent), h.sent hrefresh hsent⟩

theorem moves_of_sendCopies (hrefresh : cmd.IsRefresh) (h : Prepared d) :
    Moves k ⟨s, d⟩ ⟨s, d.sendCopies k cmd⟩ ∧ Prepared (d.sendCopies k cmd) := by
  refine moves_of_foldl (fun d bank hd => ?_) cmd.bankIdVec h
  have hsame : SameCore d { d with created := d.created + 1 } := ⟨rfl, rfl, rfl, rfl, rfl, rfl⟩
  have hcopy : BankCommand.IsRefresh
      { cmd with ref := .driver d.created, seqNum := bank, isResponseReady := false } :=
    ⟨hrefresh.banks, hrefresh.kind, d.created, rfl⟩
  obtain ⟨hmoves, hprepared⟩ := moves_of_sendCommand hcopy (hd.sameCore hsame)
  exact ⟨(Moves.same hsame).trans hmoves, hprepared⟩

theorem moves_of_sendRefresh (h : Prepared d) :
    Moves k ⟨s, d⟩ ⟨s, d.sendRefresh k rank⟩ ∧ Prepared (d.sendRefresh k rank) := by
  unfold sendRefresh
  cases hqueue : d.refreshCmdQ rank with
  | nil =>
    exact ⟨.refl, h⟩
  | cons cmd rest =>
    have hrefresh : cmd.IsRefresh := h.refresh rank cmd (by rw [hqueue]; exact mem_cons_self)
    have hvec : cmd.bankIdVec.isEmpty = false := by
      simpa only [isEmpty_eq_false_iff] using hrefresh.1
    simp only [hvec, false_eq_true, if_false]
    split_ifs
    · exact ⟨.refl, h⟩
    · exact ⟨.refl, h⟩
    · obtain ⟨hmoves, hprepared⟩ := moves_of_sendCopies hrefresh h
      have hplanned : ∀ r, ∀ c ∈ update (d.sendCopies k cmd).refreshCmdQ rank rest r,
          c.IsRefresh := by
        intro r c hc
        by_cases heq : r = rank
        · rw [heq, update_self] at hc
          exact h.refresh rank c (by rw [hqueue]; exact mem_cons_of_mem _ hc)
        · rw [update_of_ne heq] at hc
          exact hprepared.refresh r c hc
      have hsame := sameCore_occupyBuses (k := k)
        { d.sendCopies k cmd with
          refreshCmdQ := update (d.sendCopies k cmd).refreshCmdQ rank rest } cmd
      have hprepared' : Prepared
          { d.sendCopies k cmd with
            refreshCmdQ := update (d.sendCopies k cmd).refreshCmdQ rank rest } :=
        ⟨hprepared.settled, hplanned⟩
      exact ⟨(hmoves.tail (.plan hplanned)).trans (Moves.same hsame), hprepared'.sameCore hsame⟩

theorem moves_of_activateAgain (h : Prepared d) :
    Moves k ⟨s, d⟩ ⟨s, d.activateAgain bank⟩ ∧ Prepared (d.activateAgain bank) := by
  unfold activateAgain
  cases hfind : d.inputQ.find? fun cmd => cmd.bankId = bank with
  | none =>
    exact ⟨.refl, h⟩
  | some cmd =>
    simp only
    split_ifs with hcolumn
    · obtain ⟨hbank, pre, post, hqueue, hfirst⟩ := find?_eq_some_iff_append.1 hfind
      simp only [decide_eq_true_eq] at hbank
      refine ⟨.single (.reactivate hqueue ?_ hcolumn (d := d) ⟨rfl, rfl, rfl, rfl, rfl, rfl⟩),
        h.settled, h.refresh⟩
      intro c hc
      rw [hbank]
      simpa using hfirst c hc
    · exact ⟨.refl, h⟩

theorem bankPtrs_ne_nil (g : Geometry) (rank : Nat) : g.bankPtrs rank ≠ [] := by
  have hpos := g.banks_pos
  have hrank : 0 < g.numBanksPerRank := by
    refine pos_of_ne_zero fun h => ?_
    rw [mul_assoc, show g.numBankGroupsPerRank * g.numBanksPerBankGroup = 0 from h,
      mul_zero] at hpos
    exact lt_irrefl 0 hpos
  intro h
  simp only [Geometry.bankPtrs, map_eq_nil_iff, range_eq_nil] at h
  omega

theorem moves_of_createRefreshCmds (h : Prepared d) :
    Moves k ⟨s, d⟩ ⟨s, d.createRefreshCmds k rank⟩ ∧ Prepared (d.createRefreshCmds k rank) := by
  unfold createRefreshCmds
  dsimp only
  generalize hrequester : (if k.useSBRefresh = true then
    [(k.geometry.bankPtrs rank).getD (d.nextBankToRefresh rank) 0]
    else k.geometry.bankPtrs rank) = requester
  generalize hnext : (if k.useSBRefresh = true then
    { d with
      nextBankToRefresh := update d.nextBankToRefresh rank
        ((d.nextBankToRefresh rank + 1) % (k.geometry.bankPtrs rank).length) }
    else d) = d₁
  have hrequested : requester ≠ [] := by
    rw [← hrequester]
    split_ifs
    · exact cons_ne_nil _ _
    · exact bankPtrs_ne_nil _ _
  have hsame : SameCore d d₁ := by
    rw [← hnext]
    split_ifs <;> exact ⟨rfl, rfl, rfl, rfl, rfl, rfl⟩
  have h₁ := h.sameCore hsame
  generalize hqueue : update d₁.refreshCmdQ rank _ = queue
  have hplanned : ∀ r, ∀ c ∈ queue r, c.IsRefresh := by
    intro r c hc
    rw [← hqueue] at hc
    by_cases heq : r = rank
    · rw [heq, update_self] at hc
      split_ifs at hc with hempty
      · rw [mem_singleton.1 hc]
        exact ⟨hrequested, .inr rfl, _, rfl⟩
      · rcases mem_cons.1 hc with rfl | hc
        · exact ⟨fun hnil => hempty (List.isEmpty_iff.2 hnil), .inl rfl, _, rfl⟩
        · rw [mem_singleton.1 hc]
          exact ⟨hrequested, .inr rfl, _, rfl⟩
    · rw [update_of_ne heq] at hc
      exact h₁.refresh r c hc
  have hplan : Moves k ⟨s, d⟩ ⟨s, { d₁ with refreshCmdQ := queue }⟩ :=
    (Moves.same hsame).tail (.plan hplanned)
  have hcreated : SameCore { d₁ with refreshCmdQ := queue }
      { d₁ with refreshCmdQ := queue, created := d₁.created + 2 } :=
    ⟨rfl, rfl, rfl, rfl, rfl, rfl⟩
  have h₂ : Prepared { d₁ with refreshCmdQ := queue } := ⟨h₁.settled, hplanned⟩
  obtain ⟨hmoves, hprepared⟩ := moves_of_foldl (fun _ _ hd => moves_of_activateAgain hd) requester
    (h₂.sameCore hcreated)
  exact ⟨(hplan.trans (Moves.same hcreated)).trans hmoves, hprepared⟩

theorem moves_of_refreshRank (h : Prepared d) :
    Moves k ⟨s, d⟩ ⟨s, d.refreshRank k rank⟩ ∧ Prepared (d.refreshRank k rank) := by
  unfold refreshRank
  split_ifs
  · have hsame : SameCore d { d with
        currentREFICount := update d.currentREFICount rank (d.currentREFICount rank - 1) } :=
      ⟨rfl, rfl, rfl, rfl, rfl, rfl⟩
    obtain ⟨hmoves, hprepared⟩ := moves_of_sendRefresh (h.sameCore hsame)
    exact ⟨(Moves.same hsame).trans hmoves, hprepared⟩
  · obtain ⟨hcreate, hcreated⟩ := moves_of_createRefreshCmds h
    have hsame : SameCore (d.createRefreshCmds k rank) { d.createRefreshCmds k rank with
        currentREFICount := update (d.createRefreshCmds k rank).currentREFICount rank
          k.bankParams.nREFI } :=
      ⟨rfl, rfl, rfl, rfl, rfl, rfl⟩
    obtain ⟨hmoves, hprepared⟩ := moves_of_sendRefresh (hcreated.sameCore hsame)
    exact ⟨(hcreate.trans (Moves.same hsame)).trans hmoves, hprepared⟩

theorem moves_of_driverRun {toDevice : List BankCommand} (h : d.run k = some (d', toDevice))
    (hprepared : Prepared d) :
    ∃ d₁, Moves k ⟨s, d⟩ ⟨s, d₁⟩ ∧
      d' = { d₁ with outputQ := d₁.outputQ.filter fun cmd => !cmd.isResponseReady } ∧
      toDevice = (d₁.outputQ.filter BankCommand.isResponseReady).filter goesToDevice := by
  obtain ⟨d₁, hrequest, hout⟩ := map_eq_some_iff.1 h
  cases hout
  have hsame : SameCore d d.releaseCommandBus := ⟨rfl, rfl, rfl, rfl, rfl, rfl⟩
  refine ⟨d₁, (Moves.same hsame).trans ?_, rfl, rfl⟩
  split_ifs at hrequest
  · obtain ⟨hmoves, hprepared'⟩ := moves_of_foldl (fun _ _ hd => moves_of_refreshRank hd)
      (List.range k.geometry.numRanks) (hprepared.sameCore hsame)
    exact hmoves.trans (moves_of_sendRequest hrequest hprepared'.settled)
  · exact moves_of_sendRequest hrequest (hprepared.sameCore hsame).settled

end Refresh

section Scheduler

variable {k : Config}

theorem numBanksPerChannel_pos (k : Config) : 0 < CmdScheduler.numBanksPerChannel k := by
  have hpos := k.geometry.banks_pos
  have heq : k.geometry.numBanks = k.geometry.numChannels *
      (k.geometry.numPChannelsPerChannel * k.geometry.numRanksPerChannel *
        k.geometry.numBankGroupsPerRank * k.geometry.numBanksPerBankGroup) := by
    simp only [Geometry.numBanks, Geometry.numBankGroups, Geometry.numRanks,
      Geometry.numPseudoChannels]
    ring
  have hall : 0 < k.geometry.numBanks := hpos
  rw [heq] at hall
  obtain ⟨hchannels, hrest⟩ := CanonicallyOrderedAdd.mul_pos.1 hall
  rwa [CmdScheduler.numBanksPerChannel, heq, Nat.mul_div_cancel_left _ hchannels]

variable {idx channel : Nat} {s : CmdScheduler} {d : DeviceDriver}
variable {r : CmdScheduler × DeviceDriver}

theorem nextIdx_lt {idx' : Nat} (h : CmdScheduler.nextIdx k idx = some idx') :
    idx' < CmdScheduler.numBanksPerChannel k := by
  have hpos := numBanksPerChannel_pos k
  unfold CmdScheduler.nextIdx at h
  split at h
  · cases h
    exact Nat.mod_lt _ hpos
  · split_ifs at h with hone
    cases h
    exact lt_of_lt_of_le (Nat.mod_lt _ (by omega)) (Nat.sub_le _ _)

theorem isCmdAllowed_cases (d : DeviceDriver) (cmd : BankCommand) :
    (d.isCmdAllowed k cmd).2 = d ∨ ((d.isCmdAllowed k cmd).1 = false ∧ cmd.isColCommand ∧
        (d.banks cmd.hashedAddr.bankId).isClosed ∧
        (∀ c ∈ d.inputQ, c.bankId = cmd.bankId → c.cmdMnemonic ≠ .ACT) ∧
        SameCore { d with inputQ := d.inputQ ++ [activation d.created cmd] }
          (d.isCmdAllowed k cmd).2) := by
  unfold isCmdAllowed
  dsimp only
  split_ifs with hrefreshing hclosed hany
  · exact .inl rfl
  · exact .inl rfl
  · simp only [and_eq_true] at hclosed
    refine .inr ⟨rfl, hclosed.1, hclosed.2, fun c hc hbank hact => hany ?_,
      ⟨rfl, rfl, rfl, rfl, rfl, rfl⟩⟩
    simp only [List.any_eq_true, and_eq_true, decide_eq_true_eq]
    exact ⟨c, hc, hbank, hact⟩
  · exact .inl rfl

section

variable (hchannel : channel < k.geometry.numChannels)
variable (hidx : idx < CmdScheduler.numBanksPerChannel k)
variable (h : Prepared d)
include hchannel hidx h

theorem moves_of_offer :
    Moves k ⟨s, d⟩ ⟨(s.offer k channel idx d).1, (s.offer k channel idx d).2⟩ ∧
      Prepared (s.offer k channel idx d).2 ∧
      (s.offer k channel idx d).1.nextCmdQIdx = s.nextCmdQIdx := by
  unfold CmdScheduler.offer
  cases hqueue : s.cmdQueues channel idx with
  | nil =>
    exact ⟨.refl, h, rfl⟩
  | cons cmd rest =>
    dsimp only
    rcases isCmdAllowed_cases (k := k) d cmd with
      hsame | ⟨hrefused, hcolumn, hclosed, hnone, hsame⟩
    · rw [hsame]
      split_ifs
      · cases hpush : d.push k cmd with
        | none =>
          exact ⟨.refl, h, rfl⟩
        | some d' =>
          unfold DeviceDriver.push at hpush
          split_ifs at hpush
          cases hpush
          have hoccupy := sameCore_occupyBuses (k := k)
            { d with inputQ := d.inputQ ++ [cmd] } cmd
          have h' : Prepared { d with inputQ := d.inputQ ++ [cmd] } := ⟨h.settled, h.refresh⟩
          exact ⟨.single (.forward hchannel hidx hqueue hoccupy), h'.sameCore hoccupy, rfl⟩
      · exact ⟨.refl, h, rfl⟩
    · have h' : Prepared { d with inputQ := d.inputQ ++ [activation d.created cmd] } :=
        ⟨h.settled, h.refresh⟩
      rw [hrefused]
      exact ⟨.single (.activate hqueue hcolumn hclosed (h.settled _) hnone hsame),
        h'.sameCore hsame, rfl⟩

theorem moves_of_offerAll {n : Nat} (hrun : CmdScheduler.offerAll k channel n idx s d = some r) :
    Moves k ⟨s, d⟩ ⟨r.1, r.2⟩ ∧ Prepared r.2 ∧ r.1.nextCmdQIdx = s.nextCmdQIdx := by
  induction n generalizing idx s d with
  | zero =>
    cases hrun
    exact ⟨.refl, h, rfl⟩
  | succ n ih =>
    obtain ⟨idx', hnext, hrest⟩ := bind_eq_some_iff.1 hrun
    obtain ⟨hmoves, hprepared, hsame⟩ := moves_of_offer (s := s) hchannel hidx h
    obtain ⟨hmoves', hprepared', hsame'⟩ := ih (nextIdx_lt hnext) hprepared hrest
    exact ⟨hmoves.trans hmoves', hprepared', hsame'.trans hsame⟩

end

/-- Every channel begins with one of its banks. -/
def CmdScheduler.IdxInRange (k : Config) (s : CmdScheduler) : Prop :=
  ∀ channel, s.nextCmdQIdx channel < CmdScheduler.numBanksPerChannel k

/-- One channel's scheduling is moves of its commands. -/
theorem moves_of_runChannel {r' : CmdScheduler × DeviceDriver}
    (hchannel : channel < k.geometry.numChannels) (hrange : r.1.IdxInRange k) (h : Prepared r.2)
    (hrun : CmdScheduler.runChannel k r channel = some r') :
    Moves k ⟨r.1, r.2⟩ ⟨r'.1, r'.2⟩ ∧ Prepared r'.2 ∧ r'.1.IdxInRange k := by
  obtain ⟨r₁, hall, hout⟩ := bind_eq_some_iff.1 hrun
  obtain ⟨idx, hnext, rfl⟩ := map_eq_some_iff.1 hout
  obtain ⟨hmoves, hprepared, hsame⟩ := moves_of_offerAll hchannel (hrange channel) h hall
  refine ⟨hmoves.tail (.idle rfl (.refl _)), hprepared, fun other => ?_⟩
  dsimp only
  by_cases heq : other = channel
  · rw [heq, update_self]
    exact nextIdx_lt hnext
  · rw [update_of_ne heq, hsame]
    exact hrange other

theorem moves_of_schedulerRun {s' : CmdScheduler} {d' : DeviceDriver} (hrange : s.IdxInRange k)
    (h : Prepared d) (hrun : s.run k d = some (s', d')) :
    Moves k ⟨s, d⟩ ⟨s', d'⟩ ∧ Prepared d' ∧ s'.IdxInRange k := by
  have hall : ∀ channels : List Nat, (∀ channel ∈ channels, channel < k.geometry.numChannels) →
      ∀ r r' : CmdScheduler × DeviceDriver, r.1.IdxInRange k → Prepared r.2 →
      channels.foldlM (CmdScheduler.runChannel k) r = some r' →
      Moves k ⟨r.1, r.2⟩ ⟨r'.1, r'.2⟩ ∧ Prepared r'.2 ∧ r'.1.IdxInRange k := by
    intro channels hchannels
    induction channels with
    | nil =>
      intro r r' hrange h hrun
      cases hrun
      exact ⟨.refl, h, hrange⟩
    | cons channel rest ih =>
      intro r r' hrange h hrun
      obtain ⟨r₁, hfirst, hrest⟩ := bind_eq_some_iff.1 hrun
      obtain ⟨hmoves, hprepared, hrange'⟩ :=
        moves_of_runChannel (hchannels channel mem_cons_self) hrange h hfirst
      obtain ⟨hmoves', hlast⟩ :=
        ih (fun c hc => hchannels c (mem_cons_of_mem _ hc)) r₁ r' hrange' hprepared hrest
      exact ⟨hmoves.trans hmoves', hlast⟩
  exact hall _ (fun channel hc => mem_range.1 hc) (s, d) (s', d') hrange h hrun

end Scheduler

end SstElements.CramSim
