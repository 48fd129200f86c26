import SstElements.CramSim.CommandConversion
import SstElements.Library.Transition

/-!
# Every transaction is answered once

What holds of the controller and its device between the events.
-/

namespace SstElements.CramSim

open Library List Option Bool

variable {k : Config}

namespace MemorySystem

structure Sound (k : Config) (s : MemorySystem) : Prop where
  accounts : (s.ledger k).Accounts k
  ordered : s.controller.Ordered k s.controller.ReqQ
  received : s.received.Pairwise (· < ·)
  queues : Commands.Queues k ⟨s.controller.cmdScheduler, s.controller.deviceDriver⟩
  driver : DriverInv s.controller.deviceDriver
  idx : s.controller.cmdScheduler.IdxInRange k
  rows : TxnConverter.BankRows k s.controller.txnConverter.bankInfo
  device : ∀ cmd ∈ s.device, cmd.isColCommand ∧ cmd.bankIdVec = []
  inputQ : s.controller.txnConverter.inputQ = []
  hits : ∀ hit ∈ s.hits, hit.FollowsWrite s.received

/-- Every transaction that waits for the converter has exactly one column command, and the
next numbers are not those of commands of a transaction that waits for its response. -/
def SingleColumns (k : Config) (s : MemorySystem) : Prop :=
  (∀ id ∈ s.controller.txnScheduler.waiting k,
    TxnConverter.numCmdsPerTrans k (s.controller.txns id) = 1) ∧
  3 * k.geometry.numChannels ≤ 2 ^ 32 ∧
  ∀ id ∈ s.controller.ResQ, ∀ n ∈ (s.controller.txns id).cmdSeqNumList,
    ∀ i < 3 * k.geometry.numChannels, (s.controller.txnConverter.cmdSeqNum + i) % 2 ^ 32 ≠ n

instance (s : MemorySystem) : Decidable (s.SingleColumns k) :=
  inferInstanceAs (Decidable (_ ∧ _ ∧ _))

/-- The condition is about the middle of a cycle, when the transaction scheduler has its
turn. -/
def Regular (k : Config) (s : MemorySystem) : MemoryEvent → Prop
  | .transaction _ _ _ _ => True
  | .clock => ∀ t ∈ (s.clockRequests k).toOption, t.SingleColumns k
  | .response _ => True

instance (s : MemorySystem) : ∀ e : MemoryEvent, Decidable (s.Regular k e)
  | .transaction .. | .response _ => inferInstanceAs (Decidable True)
  | .clock => inferInstanceAs (Decidable (∀ _ ∈ _, _))

section Initial

theorem objects_create : ((create k).ledger k).Objects where
  resNodup := nodup_nil
  resLt := by simp [ledger, ledgerOf, create, Controller.create]
  receivedLt := by simp [ledger, ledgerOf, create]
  own := by simp [ledger, ledgerOf, create]
  requested := by simp [ledger, ledgerOf, create, Controller.create]
  original := by simp [Ledger.pending, ledger, ledgerOf, create, Controller.create]
  place := by
    simp [Ledger.waiting, Ledger.pending, ledger, ledgerOf, create, Controller.create,
      TxnScheduler.queued, queueCount, TxnScheduler.create, TxnConverter.create]
  only := by simp [ledger, ledgerOf, create]

theorem commandBook_create : ((create k).ledger k).CommandBook where
  generatedLt := by simp [ledger, ledgerOf, create]
  refs := nodup_nil
  refLt := by simp [ledger, ledgerOf, create]
  plain := by simp [ledger, ledgerOf, create]
  numbers := by simp [ledger, ledgerOf, create, Controller.create]
  column := by simp [ledger, ledgerOf, create, Controller.create]
  oneAnswer := by simp [Ledger.pending, ledger, ledgerOf, create, Controller.create]
  unique := by simp [ledger, ledgerOf, create, Controller.create]
  flight := by simp [ledger, ledgerOf, create]
  known := by
    simp [ledger, ledgerOf, create, Controller.create, Commands.copies, CmdScheduler.copies,
      CmdScheduler.create, DeviceDriver.create]
  answers := by simp [ledger, ledgerOf, create]

theorem sound_create (k : Config) : (create k).Sound k where
  accounts := ⟨objects_create, by simp [Ledger.OneAnswer, ledger, ledgerOf, create],
    commandBook_create⟩
  ordered := by
    refine ⟨?_, ?_, ?_, .nil, ?_⟩
    · simp [create, Controller.create, Transaction.create]
    · simp [create, Controller.create, TxnScheduler.Holds, TxnScheduler.create]
    · simp [create, Controller.create]
    · simp [create, Controller.create]
  received := .nil
  queues := by
    refine ⟨?_, ?_, ?_, ?_⟩
    · simp [create, Controller.create, CmdScheduler.create]
    · simp [create, Controller.create, CmdScheduler.create]
    · simp [create, Controller.create, DeviceDriver.create]
    · simp [create, Controller.create, DeviceDriver.create]
  driver := by
    refine ⟨fun bank => ⟨?_, ?_⟩, ?_⟩
    · simp [create, Controller.create, DeviceDriver.create, BankInfo.create]
    · simp [create, Controller.create, DeviceDriver.create, BankInfo.create]
    · simp [create, Controller.create, DeviceDriver.create]
  idx := fun _ => numBanksPerChannel_pos k
  rows := by
    intro hpolicy hzero bank
    simp [create, Controller.create, TxnConverter.create, hzero]
  device := by simp [create]
  inputQ := rfl
  hits := by simp [create]

end Initial

section Events

variable {s : MemorySystem}

theorem Sound.receive {txn : Transaction} (h : s.Sound k) (hready : txn.isResponseReady = false)
    (hnumbers : txn.cmdSeqNumList = []) (hdecoded : txn.hasHashedAddr = false) :
    (s.handleIncomingTransaction txn).Sound k :=
  { h with
    accounts := h.accounts.step (.receive hready hnumbers)
    ordered := by
      have hordered := @Controller.Ordered.receive k s.controller s.controller.ReqQ txn
        s.controller.created h.ordered hdecoded
      exact ⟨hordered.hashed, hordered.held, hordered.before, hordered.sorted, hordered.requests⟩
    received := by
      refine pairwise_append.2 ⟨h.received, pairwise_singleton _ _, fun a ha b hb => ?_⟩
      rw [mem_singleton.1 hb]
      exact h.accounts.objects.receivedLt a ha
    hits := by
      intro hit hmem
      obtain ⟨hread, w, hw, hwrite, haddr, hsub⟩ := h.hits hit hmem
      exact ⟨hread, w, hw, hwrite, haddr, hsub.trans (sublist_append_left _ _)⟩ }

theorem clockRequests_cases (h : s.Sound k) :
    s.clockRequests k = .error .aborted ∨
      ∃ t, s.clockRequests k = .ok t ∧ t.Sound k ∧ Prepared t.controller.deviceDriver := by
  rw [clockRequests_eq]
  cases hupdate : s.controller.deviceDriver.update k (s.controller.simCycle + 1) with
  | none =>
    exact .inl rfl
  | some d =>
    obtain ⟨hdriver, hprepared, -⟩ := update_spec hupdate h.driver
    have hledger : ledgerOf k (s.answering k d) (s.updated d) s.controller.ReqQ
        s.controller.txnConverter.inputQ = (s.ledger k).send := by
      have hflight : (fun x => Commands.copies k ⟨s.controller.cmdScheduler, d⟩ x +
          CramSim.copies x s.device) = (s.ledger k).inFlight := by
        funext x
        rw [copies_update hupdate h.driver]
        rfl
      unfold ledgerOf
      simp only [updated, answering, hflight]
      rfl
    have haccounts : (ledgerOf k (s.answering k d) (s.updated d) s.controller.ReqQ
        s.controller.txnConverter.inputQ).Accounts k := by
      rw [hledger]
      exact h.accounts.step .send
    obtain ⟨hsteps, hordered, hhits, hpath⟩ :=
      acceptRequests_spec haccounts (h.ordered.updated d) h.received
    have hinputQ : (Controller.acceptRequests k s.controller.ReqQ
        (s.updated d)).2.2.txnConverter.inputQ = s.controller.txnConverter.inputQ := by
      rw [hpath.txnConverter]
      rfl
    refine .inr ⟨_, rfl, ⟨?_, ?_, h.received, ?_, ?_, ?_, ?_, h.device, ?_, ?_⟩, ?_⟩
    · have hfinal := haccounts.steps hsteps
      rw [← hinputQ] at hfinal
      exact hfinal
    · exact ⟨hordered.hashed, hordered.held, hordered.before, hordered.sorted, hordered.requests⟩
    · dsimp only [requested]
      rw [hpath.cmdScheduler, hpath.deviceDriver]
      exact queues_update hupdate h.driver h.queues
    · dsimp only [requested]
      rw [hpath.deviceDriver]
      exact hdriver
    · dsimp only [requested]
      rw [hpath.cmdScheduler]
      exact h.idx
    · dsimp only [requested]
      rw [hpath.txnConverter]
      exact h.rows
    · exact hinputQ.trans h.inputQ
    · intro hit hmem
      rcases mem_append.1 hmem with hmem | hmem
      · exact h.hits hit hmem
      · exact hhits hit hmem
    · dsimp only [requested]
      rw [hpath.deviceDriver]
      exact hprepared

theorem convertible_of_run (h : s.Sound k) (hsingle : s.SingleColumns k) :
    CramSim.Convertible k s (s.controller.runTxnScheduler k) s.controller.ReqQ
        (s.controller.runTxnScheduler k).txnConverter.inputQ
        (s.controller.txnConverter.cmdSeqNum + 3 * k.geometry.numChannels) ∧
      ∀ channel id, (s.controller.runTxnScheduler k).txnScheduler.Holds channel id →
        s.controller.txnScheduler.Holds channel id := by
  have hplace : ∀ id, s.controller.txnScheduler.queued k id ≤ 1 := by
    intro id
    have hone := h.accounts.objects.place id
    have hle := toNat_le ((s.ledger k).waiting id)
    have hqueued : (s.ledger k).queued id = s.controller.txnScheduler.queued k id := by
      simp [ledger, ledgerOf, h.inputQ]
    omega
  have hselected := selected_of_runTxnScheduler h.ordered hplace h.inputQ
  have hledger : ledgerOf k s (s.controller.runTxnScheduler k) s.controller.ReqQ
      (s.controller.runTxnScheduler k).txnConverter.inputQ = s.ledger k := by
    have hqueued : (fun id => (s.controller.runTxnScheduler k).txnScheduler.queued k id +
        (s.controller.runTxnScheduler k).txnConverter.inputQ.count id) = (s.ledger k).queued := by
      funext id
      rw [← hselected.queued]
      simp [ledger, ledgerOf, h.inputQ]
    unfold ledgerOf
    rw [hqueued]
    rfl
  have hcount : (s.controller.runTxnScheduler k).txnConverter.inputQ.length ≤
      k.geometry.numChannels := by
    have hlength := hselected.channels.length_le
    rwa [length_map, length_range] at hlength
  refine ⟨⟨?_, h.queues, h.rows, hselected.channels.nodup nodup_range, fun id hid => ?_,
    hselected.token, fun id hid => ?_, fun id hid n hn j hj hlimit => ?_, ?_, ?_⟩, hselected.holds⟩
  · rw [hledger]
    exact h.accounts
  · obtain ⟨channel, hchannel, hheld⟩ := hselected.held id hid
    rw [show ((s.controller.runTxnScheduler k).txns id).hashedAddr.channel = channel from
      (h.ordered.held channel id hheld).2.1]
    exact mem_range.1 hchannel
  · obtain ⟨channel, hchannel, hheld⟩ := hselected.held id hid
    exact hsingle.1 id (TxnScheduler.mem_waiting_iff.2 ⟨channel, mem_range.1 hchannel, hheld⟩)
  · have hlow : s.controller.txnConverter.cmdSeqNum ≤ j := hj
    have hnew := hsingle.2.2 id hid n hn (j - s.controller.txnConverter.cmdSeqNum) (by omega)
    rwa [Nat.add_sub_cancel' hlow] at hnew
  · change s.controller.txnConverter.cmdSeqNum + _ ≤ _
    omega
  · have hwindow := hsingle.2.1
    change _ ≤ s.controller.txnConverter.cmdSeqNum + 2 ^ 32
    omega

theorem clockCommands_cases (h : s.Sound k) (hprepared : Prepared s.controller.deviceDriver)
    (hsingle : s.SingleColumns k) :
    s.clockCommands k = .error .aborted ∨ ∃ t, s.clockCommands k = .ok t ∧ t.Sound k := by
  obtain ⟨hconvertible, hholds⟩ := convertible_of_run h hsingle
  obtain ⟨cmds, c, hall, hsteps, hdone, hkeeps⟩ := convertAll_spec hconvertible
  have hconvert : (s.controller.runTxnScheduler k).runTxnConverter k =
      .ok (cmds, { c with txnConverter := { c.txnConverter.clockTics k with inputQ := [] } }) := by
    unfold Controller.runTxnConverter
    rw [hall]
    rfl
  have hdriver : c.deviceDriver = s.controller.deviceDriver := hkeeps.deviceDriver
  have hidx : c.cmdScheduler.IdxInRange k := by
    intro channel
    rw [hkeeps.nextCmdQIdx]
    exact h.idx channel
  rw [clockCommands_eq hconvert]
  cases hrest : (c.cmdScheduler.run k c.deviceDriver).bind fun r => (r.2.run k).map fun out =>
    (_ : MemorySystem) with
  | none =>
    exact .inl rfl
  | some t =>
    obtain ⟨⟨scheduler, d₁⟩, hscheduler, hmap⟩ := bind_eq_some_iff.1 hrest
    obtain ⟨⟨d, toDevice⟩, hrun, rfl⟩ := map_eq_some_iff.1 hmap
    obtain ⟨hcycle, hidx'⟩ := cycleKeeps_run hscheduler hrun hidx (by rwa [hdriver])
      (by rw [hdriver]; exact h.driver) hdone.queues
    refine .inr ⟨_, rfl, ⟨?_, ?_, h.received, hcycle.queues, hcycle.driver, hidx',
      hdone.rows.clockTics, ?_, rfl, h.hits⟩⟩
    · have hflight : (fun x => Commands.copies k ⟨scheduler, d⟩ x +
          CramSim.copies x (s.device ++ toDevice.filter BankCommand.isColCommand)) =
          fun x => Commands.copies k ⟨c.cmdScheduler, c.deviceDriver⟩ x +
            CramSim.copies x s.device := by
        funext x
        rw [copies_append, ← hcycle.copies]
        omega
      have hseq : (c.txnConverter.clockTics k).cmdSeqNum = c.txnConverter.cmdSeqNum := by
        unfold TxnConverter.clockTics
        split_ifs
        · rfl
        · rfl
      have hReqQ : c.ReqQ = s.controller.ReqQ := hkeeps.ReqQ
      have hfinal := hconvertible.accounts.steps hsteps
      unfold ledger ledgerOf
      rw [hflight, hseq, hReqQ]
      exact hfinal
    · have hReqQ : c.ReqQ = s.controller.ReqQ := hkeeps.ReqQ
      have hordered := @Controller.Ordered.of_sub k s.controller c s.controller.ReqQ c.ReqQ
        h.ordered (fun channel id hheld => hholds channel id (by rwa [← hkeeps.txnScheduler]))
        (by rw [hReqQ]) hkeeps.created hkeeps.addresses
      exact ⟨hordered.hashed, hordered.held, hordered.before, hordered.sorted, hordered.requests⟩
    · intro cmd hcmd
      rcases mem_append.1 hcmd with hcmd | hcmd
      · exact h.device cmd hcmd
      · exact hcycle.device cmd hcmd

theorem copies_singleton {x cmd : BankCommand} (hcol : cmd.isColCommand)
    (hvec : cmd.bankIdVec = []) :
    CramSim.copies x [cmd] = if x = cmd.unanswered then 1 else 0 := by
  simp [CramSim.copies, countP_singleton, BankCommand.isCopyOf, hcol, hvec, eq_comm]

theorem find_of_generated {id : Nat} {cmd : BankCommand} (h : s.Sound k)
    (hgenerated : (id, cmd.unanswered) ∈ s.generated) (hpending : (s.ledger k).pending id = true) :
    (s.controller.ResQ.find? fun id =>
      (s.controller.txns id).matchesCmdSeqNum cmd.seqNum) = some id := by
  have hmem := (Ledger.pending_iff.1 hpending).1
  have hnumber : cmd.seqNum ∈ (s.ledger k).numbers id :=
    h.accounts.commands.number_mem (p := (id, cmd.unanswered)) hgenerated
  have hmatches : (s.controller.txns id).matchesCmdSeqNum cmd.seqNum := contains_iff_mem.2 hnumber
  cases hfind : s.controller.ResQ.find? fun id =>
    (s.controller.txns id).matchesCmdSeqNum cmd.seqNum with
  | none =>
    exact absurd hmatches (find?_eq_none.1 hfind id hmem)
  | some other =>
    have hother := find?_some hfind
    rw [h.accounts.commands.unique other (mem_of_find?_eq_some hfind) id hmem cmd.seqNum
      (contains_iff_mem.1 hother) hnumber]

theorem handleDeviceResponse_cases (h : s.Sound k) (i : Nat) :
    s.handleDeviceResponse k i = .error .aborted ∨
      ∃ t, s.handleDeviceResponse k i = .ok t ∧ t.Sound k := by
  unfold handleDeviceResponse
  cases hget : s.device[i]? with
  | none =>
    exact .inl rfl
  | some cmd =>
    obtain ⟨hlt, hcmd⟩ := List.getElem?_eq_some_iff.1 hget
    have hmem : cmd ∈ s.device := hcmd ▸ getElem_mem hlt
    obtain ⟨hcol, hvec⟩ := h.device cmd hmem
    have hcopies : ∀ x, CramSim.copies x s.device =
        CramSim.copies x (s.device.eraseIdx i) + if x = cmd.unanswered then 1 else 0 := by
      intro x
      have hperm := getElem_cons_eraseIdx_perm hlt
      rw [hcmd] at hperm
      rw [CramSim.copies, ← hperm.countP_eq]
      change CramSim.copies x (cmd :: s.device.eraseIdx i) = _
      rw [copies_cons, copies_singleton hcol hvec]
      omega
    have hflight : 0 < (s.ledger k).inFlight cmd.unanswered := by
      change 0 < _ + CramSim.copies cmd.unanswered s.device
      rw [hcopies, if_pos rfl]
      omega
    obtain ⟨id, hgenerated, -⟩ := h.accounts.commands.known _ hflight
    have hpending := h.accounts.commands.pending_of_flight hgenerated hcol hflight
    have hfind := find_of_generated h hgenerated hpending
    have hwaiting : (s.controller.txns id).waitingCommands = 1 :=
      h.accounts.commands.oneAnswer id hpending (h.accounts.commands.numbers_ne_nil hgenerated)
    have hleft : sub32 (s.controller.txns id).waitingCommands 1 = 0 := by
      rw [hwaiting]
      rfl
    have hok : s.controller.handleResponse k cmd = .ok { s.controller with
        txns := Function.update s.controller.txns id
          { s.controller.txns id with waitingCommands := 0, isResponseReady := true }
        ResQ :=
          if k.enableQuickResponse && !(s.controller.txns id).isRead then
            s.controller.ResQ.erase id
          else s.controller.ResQ } := by
      unfold Controller.handleResponse
      rw [hfind]
      dsimp only
      rw [hleft, if_pos rfl]
      split_ifs
      · rfl
      · rfl
    have hstep := @Ledger.Step.answer k (s.ledger k) id cmd
      (fun x => Commands.copies k ⟨s.controller.cmdScheduler, s.controller.deviceDriver⟩ x +
        CramSim.copies x (s.device.eraseIdx i)) hgenerated hcol
      (fun x => by
        change _ + CramSim.copies x s.device = _
        rw [hcopies]
        omega)
    dsimp only
    rw [hok]
    refine .inr ⟨_, rfl, ⟨h.accounts.step hstep, ?_, h.received, h.queues, h.driver,
      h.idx, h.rows, fun c hc => h.device c (mem_of_mem_eraseIdx hc), h.inputQ, h.hits⟩⟩
    refine h.ordered.of_sub (fun _ _ hheld => hheld) (List.Sublist.refl _) rfl fun other => ?_
    by_cases heq : other = id
    · simp [heq]
    · simp [heq]

theorem handle_cases {e : MemoryEvent} (h : s.Sound k) (hregular : s.Regular k e) :
    s.handle k e = .error .aborted ∨ ∃ t, s.handle k e = .ok t ∧ t.Sound k := by
  cases e with
  | transaction seqNum mnemonic addr dataWidth =>
    exact .inr ⟨_, rfl, h.receive rfl rfl rfl⟩
  | clock =>
    change s.clockRequests k >>= clockCommands k = _ ∨ ∃ t,
      s.clockRequests k >>= clockCommands k = _ ∧ _
    rcases clockRequests_cases h with hstop | ⟨t, ht, hsound, hprepared⟩
    · exact .inl (by rw [hstop]; rfl)
    · have hsingle : t.SingleColumns k := hregular t (by rw [ht]; rfl)
      rw [ht]
      exact clockCommands_cases hsound hprepared hsingle
  | response i =>
    exact handleDeviceResponse_cases h i

end Events

section Main

/-- How often a command is in the queues, in the driver and with the device. -/
def inFlight (k : Config) (s : MemorySystem) (cmd : BankCommand) : Nat :=
  Commands.copies k ⟨s.controller.cmdScheduler, s.controller.deviceDriver⟩ cmd +
    CramSim.copies cmd s.device

/-- The answer of a transaction is still on its way: it waits in a queue, or its column
command is in flight.  A write that is answered early only waits in the request queue. -/
def Waits (k : Config) (s : MemorySystem) (r : Nat) : Prop :=
  r ∈ s.controller.ReqQ ∨
    ((k.enableQuickResponse && (s.controller.txns r).isWrite) = false ∧
      (r ∈ s.controller.txnScheduler.waiting k ∨
        ∃ p ∈ s.generated, p.1 = r ∧ p.2.isColCommand ∧ 0 < s.inFlight k p.2))
deriving Decidable

def readyResponses (s : MemorySystem) (r : Nat) : Nat :=
  s.controller.ResQ.countP fun id =>
    (s.controller.txns id).isResponseReady && s.controller.request id = r

structure AnswersOnce (k : Config) (s : MemorySystem) : Prop where
  once : ∀ r ∈ s.received,
    s.sent.count r + s.readyResponses r + (if s.Waits k r then 1 else 0) = 1
  only : ∀ r ∈ s.sent, r ∈ s.received
  afterCommands : k.enableQuickResponse = false → ∀ r ∈ s.sent, ∀ cmd, (r, cmd) ∈ s.generated →
    cmd.isColCommand → ∃ a ∈ s.answered, a.unanswered = cmd
  inputQ : s.controller.txnConverter.inputQ = []
  hits : ∀ hit ∈ s.hits, hit.FollowsWrite s.received

theorem Sound.owes_iff {s : MemorySystem} (h : s.Sound k) (r : Nat) :
    (s.ledger k).owes k r = true ↔ s.Waits k r := by
  have hplace := h.accounts.objects.place r
  have hqueued : 0 < (s.ledger k).queued r ↔ r ∈ s.controller.txnScheduler.waiting k := by
    rw [TxnScheduler.mem_waiting_iff, ← TxnScheduler.queued_pos_iff]
    simp [ledger, ledgerOf, h.inputQ]
  have hpending : 0 < (s.ledger k).ReqQ.count r + (s.ledger k).queued r →
      (s.ledger k).pending r = true := fun hpos =>
    (Ledger.waiting_iff.1 (h.accounts.objects.waiting_of_place hpos).1).1
  constructor
  · intro howes
    simp only [Ledger.owes, and_eq_true, or_eq_true, not_eq_true',
      decide_eq_true_eq] at howes
    obtain ⟨hpend, hslow⟩ := howes
    by_cases hreq : r ∈ s.controller.ReqQ
    · exact .inl hreq
    · refine .inr ⟨hslow.resolve_right hreq, ?_⟩
      by_cases hnumbers : (s.ledger k).numbers r = []
      · refine .inl (hqueued.1 ?_)
        rw [Ledger.waiting_iff.2 ⟨hpend, hnumbers⟩, toNat_true] at hplace
        have hzero : (s.ledger k).ReqQ.count r = 0 := count_eq_zero.2 hreq
        omega
      · have hlt := h.accounts.objects.pending_lt hpend
        have hcolumn := h.accounts.commands.column r hlt
        rw [isEmpty_eq_false_iff.2 hnumbers, Bool.not_false, Bool.toNat_true] at hcolumn
        obtain ⟨p, hp⟩ := length_eq_one_iff.1 hcolumn
        have hmem : p ∈ (s.ledger k).generated.filter fun p => p.1 = r && p.2.isColCommand := by
          rw [hp]
          exact mem_cons_self
        obtain ⟨hgenerated, hkind⟩ := mem_filter.1 hmem
        simp only [and_eq_true, decide_eq_true_eq] at hkind
        refine .inr ⟨p, hgenerated, hkind.1, hkind.2, ?_⟩
        have hflight := h.accounts.commands.flight p hgenerated hkind.2
        rw [hkind.1, hpend, toNat_true] at hflight
        change 0 < (s.ledger k).inFlight p.2
        rw [hflight]
        exact Nat.one_pos
  · rintro (hreq | ⟨hslow, hqueue | ⟨p, hgenerated, hobject, hcol, hflight⟩⟩)
    · have hpos : 0 < (s.ledger k).ReqQ.count r := count_pos_iff.2 hreq
      have hmem : r ∈ (s.ledger k).ReqQ := hreq
      rw [Ledger.owes, hpending (Nat.add_pos_left hpos _), decide_eq_true hmem, Bool.or_true]
      rfl
    · rw [Ledger.owes, hpending (Nat.add_pos_right _ (hqueued.2 hqueue))]
      change (!(k.enableQuickResponse && (s.controller.txns r).isWrite) || _) = true
      rw [hslow]
      rfl
    · have hpend := h.accounts.commands.flight p hgenerated hcol
      have hpos : 0 < (s.ledger k).inFlight p.2 := hflight
      rw [hobject] at hpend
      have htrue : (s.ledger k).pending r = true := by
        cases hcase : (s.ledger k).pending r with
        | true => rfl
        | false =>
          rw [hcase, toNat_false] at hpend
          omega
      rw [Ledger.owes, htrue]
      change (!(k.enableQuickResponse && (s.controller.txns r).isWrite) || _) = true
      rw [hslow]
      rfl

theorem Sound.answersOnce {s : MemorySystem} (h : s.Sound k) : s.AnswersOnce k where
  __ := h
  once := by
    intro r hr
    have hone := h.accounts.oneAnswer r hr
    have howes : ((s.ledger k).owes k r).toNat = if s.Waits k r then 1 else 0 := by
      by_cases hwaits : s.Waits k r
      · rw [(h.owes_iff r).2 hwaits, if_pos hwaits, toNat_true]
      · rw [eq_false_iff.2 (hwaits ∘ (h.owes_iff r).1), if_neg hwaits, toNat_false]
    rw [howes] at hone
    exact hone
  only := h.accounts.objects.only
  afterCommands := fun hquick _ hsent _ hgenerated hcol =>
    h.accounts.answered_of_sent hquick hsent hgenerated hcol

/-- Transactions with one column command each are answered exactly once, and none of the
controller's checks fails. -/
theorem answersOnce_of_regular (k : Config) (events : List MemoryEvent)
    (hregular : StepsMeet (step k) (Regular k) (create k) events) :
    Throughout (step k) (AnswersOnce k) (create k) events ∧
      ∀ pre e, pre ++ [e] <+: events → ∀ s f, runOps (step k) (create k) pre = some s →
        s.handle k e = .error f → f = .aborted := by
  have hstep : ∀ s e t, Sound k s → Regular k s e → step k s e = some t → Sound k t := by
    intro s e t hsound hmeets ht
    rcases handle_cases hsound hmeets with hstop | ⟨t', ht', hsound'⟩
    · rw [step, hstop] at ht
      cases ht
    · rw [step, ht'] at ht
      cases ht
      exact hsound'
  have hsound := throughout_of_stepsMeet hstep (sound_create k) hregular
  refine ⟨hsound.imp fun _ => Sound.answersOnce, ?_⟩
  intro pre e hpre s f hrun hfault
  have hs := hsound pre s ((prefix_append _ _).trans hpre) hrun
  have hmeets := (hregular.of_prefix hpre).last hrun
  rcases handle_cases hs hmeets with hstop | ⟨t, ht, -⟩
  · rw [hstop] at hfault
    exact (Except.error.inj hfault).symm
  · rw [ht] at hfault
    cases hfault

/-- One bank whose rows are closed after every access, and commands of width 1. -/
def oneBank : Config where
  geometry := ⟨1, 1, 1, 1, 1, by decide⟩
  hasher :=
    ⟨fun address => ⟨0, 0, 0, 0, 0, address⟩, fun _ => Nat.one_pos, fun _ => Nat.one_pos,
      fun _ => Nat.one_pos, fun _ => Nat.one_pos, fun _ => Nat.one_pos⟩
  bankParams := ⟨2, 2, 2, 2, 2, 2, 2, 2, 2, 2, 2, 2, 2, 2, 2, 2, 2, 2, 2, 2, 100, 2, 2⟩
  useDualCommandBus := false
  multiCycleACT := false
  useRefresh := false
  useSBRefresh := false
  numCmdQEntries := 8
  numCmdQEntries_lt := by decide
  cmdSchedulingPolicy := .BANK
  relCommandWidth := 1
  useReadA := true
  bankPolicy := .CLOSE
  bankCloseTime := 0
  txnSchedulingPolicy := .FCFS
  numTxnQEntries := 4
  isReadFirstScheduling := false
  maxNumPendingWrite := 4
  minNumPendingWrite := 1
  enableQuickResponse := false

/-- A read of the width of one command is answered and sent. -/
theorem answersOnce_oneBank :
    (Throughout (step oneBank) (AnswersOnce oneBank) (create oneBank)
      ([.transaction 7 .READ 5 1] ++ replicate 5 .clock ++ [.response 0, .clock]) ∧
    ∀ pre e, pre ++ [e] <+: [.transaction 7 .READ 5 1] ++ replicate 5 .clock ++
        [.response 0, .clock] →
      ∀ s f, runOps (step oneBank) (create oneBank) pre = some s →
        s.handle oneBank e = .error f → f = .aborted) ∧
    (runOps (step oneBank) (create oneBank)
      ([.transaction 7 .READ 5 1] ++ replicate 5 .clock ++ [.response 0, .clock])).map
        MemorySystem.sent = some [0] :=
  ⟨answersOnce_of_regular oneBank _ (by decide +kernel), by decide +kernel⟩

def fault (k : Config) (s : MemorySystem) (e : MemoryEvent) : Option Fault :=
  match s.handle k e with
  | .ok _ => none
  | .error f => some f

/-- A read of the width of two commands is sent after the first answer, and the second
answer finds no transaction. -/
theorem wideRead_unmatched :
    (runOps (step oneBank) (create oneBank)
      ([.transaction 7 .READ 5 2] ++ replicate 5 .clock ++ [.response 0] ++
        replicate 8 .clock)).map (fun s => (s.sent, s.answered.length, s.device.length,
          s.fault oneBank (.response 0))) =
      some ([0], 1, 1, some .unmatchedResponse) := by
  decide +kernel

end Main

end MemorySystem

end SstElements.CramSim
