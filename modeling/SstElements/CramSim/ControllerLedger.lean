import SstElements.CramSim.CommandBooks
import SstElements.CramSim.TxnQueues

/-!
# Requests, responses and the ledger

The first half of a cycle sends the ready responses and moves the requests to the queues of
the transaction scheduler.  On the ledger that is a sequence of its steps.  Then what both
halves of a cycle compute, for all kinds of transactions.
-/

namespace SstElements.CramSim

variable {id : Nat} {rest : List Nat} {ReqQ : List Nat}

section Queues

open Library Function List

variable {k : Config}

/-- The ledger while the request queue and the input queue of the converter are read. -/
def ledgerOf (k : Config) (s : MemorySystem) (c : Controller) (ReqQ inputQ : List Nat)
    : Ledger where
  txns := c.txns
  ReqQ := ReqQ
  ResQ := c.ResQ
  queued := fun id => c.txnScheduler.queued k id + inputQ.count id
  request := c.request
  created := c.created
  cmdSeqNum := c.txnConverter.cmdSeqNum
  received := s.received
  sent := s.sent
  generated := s.generated
  answered := s.answered
  inFlight := fun x =>
    Commands.copies k ⟨c.cmdScheduler, c.deviceDriver⟩ x + CramSim.copies x s.device

def MemorySystem.ledger (k : Config) (s : MemorySystem) : Ledger :=
  ledgerOf k s s.controller s.controller.ReqQ s.controller.txnConverter.inputQ

namespace Ledger

def Steps (k : Config) : Ledger → Ledger → Prop := Relation.ReflTransGen (Step k)

theorem Accounts.steps {l l' : Ledger} (h : l.Accounts k) (hsteps : Steps k l l') :
    l'.Accounts k := by
  induction hsteps with
  | refl =>
    exact h
  | tail hsteps hstep ih =>
    exact ih.step hstep

end Ledger

namespace Controller

/-- The requests are in the order of their arrival, and those in the queues of the
scheduler are older and decoded. -/
structure Ordered (k : Config) (c : Controller) (ReqQ : List Nat) : Prop where
  hashed : ∀ id, (c.txns id).hasHashedAddr →
    (c.txns id).hashedAddr = k.hasher.fillHashedAddress (c.txns id).addr
  held : ∀ channel id, c.txnScheduler.Holds channel id →
    (c.txns id).hasHashedAddr ∧ (c.txns id).hashedAddr.channel = channel ∧ id < c.created
  before : ∀ channel id, c.txnScheduler.Holds channel id → ∀ j ∈ ReqQ, id < j
  sorted : ReqQ.Pairwise (· < ·)
  requests : ∀ j ∈ ReqQ, j < c.created

section Ordered

variable {c c' : Controller} {q q' : List Nat}

theorem Ordered.channel_lt (h : c.Ordered k q) (hdecoded : (c.txns id).hasHashedAddr) :
    (c.txns id).hashedAddr.channel < k.geometry.numChannels := by
  rw [h.hashed id hdecoded]
  exact k.hasher.channel_lt _

theorem Ordered.of_sub (h : c.Ordered k q)
    (hholds : ∀ channel id, c'.txnScheduler.Holds channel id → c.txnScheduler.Holds channel id)
    (hq : q'.Sublist q) (hcreated : c'.created = c.created)
    (hsame : ∀ id, (c'.txns id).addr = (c.txns id).addr ∧
      (c'.txns id).hasHashedAddr = (c.txns id).hasHashedAddr ∧
      (c'.txns id).hashedAddr = (c.txns id).hashedAddr) :
    c'.Ordered k q' where
  hashed := by
    intro id hid
    obtain ⟨haddr, hhas, hashed⟩ := hsame id
    rw [haddr, hashed]
    exact h.hashed id (by rwa [← hhas])
  held := by
    intro channel id hid
    obtain ⟨-, hhas, hashed⟩ := hsame id
    rw [hhas, hashed, hcreated]
    exact h.held channel id (hholds channel id hid)
  before := fun channel id hid j hj => h.before channel id (hholds channel id hid) j (hq.subset hj)
  sorted := h.sorted.sublist hq
  requests := fun j hj => by
    rw [hcreated]
    exact h.requests j (hq.subset hj)

theorem Ordered.setHashedAddress (h : c.Ordered k (id :: rest)) :
    (c.setHashedAddress k id).Ordered k (id :: rest) ∧
      ((c.setHashedAddress k id).txns id).hasHashedAddr := by
  unfold Controller.setHashedAddress
  dsimp only
  split_ifs with hhas
  · exact ⟨h, hhas⟩
  · refine ⟨⟨fun other hother => ?_, fun channel other hother => ?_, h.before, h.sorted,
      h.requests⟩, by simp [setTxn]⟩
    · by_cases heq : other = id
      · simp [setTxn, heq]
      · simp only [setTxn, update_of_ne heq] at hother ⊢
        exact h.hashed other hother
    · have hne := (h.before channel other hother id mem_cons_self).ne
      simp only [setTxn, update_of_ne hne]
      exact h.held channel other hother

theorem Ordered.push {s : TxnScheduler} (h : c.Ordered k (id :: rest))
    (hdecoded : (c.txns id).hasHashedAddr) (hpush : c.txnScheduler.push k c.txns id = some s) :
    ({ c with txnScheduler := s }).Ordered k rest := by
  have hpushed := TxnScheduler.pushed_of_push (h.channel_lt hdecoded) hpush
  have hsorted := pairwise_cons.1 h.sorted
  refine ⟨h.hashed, fun channel other hother => ?_, fun channel other hother j hj => ?_,
    hsorted.2, fun j hj => h.requests j (mem_cons_of_mem _ hj)⟩
  · rcases hpushed.holds channel other hother with hold | ⟨hchannel, hid⟩
    · exact h.held channel other hold
    · rw [hchannel, hid]
      exact ⟨hdecoded, rfl, h.requests id mem_cons_self⟩
  · rcases hpushed.holds channel other hother with hold | ⟨-, hid⟩
    · exact h.before channel other hold j (mem_cons_of_mem _ hj)
    · rw [hid]
      exact hsorted.1 j hj

theorem Ordered.newTxn {txn : Transaction} {request : Nat} (h : c.Ordered k q)
    (hdecoded : txn.hasHashedAddr = false) :
    (c.newTxn txn request).Ordered k q where
  __ := h
  hashed := by
    intro id hid
    by_cases heq : id = c.created
    · simp [Controller.newTxn, heq, hdecoded] at hid
    · simp only [Controller.newTxn, update_of_ne heq] at hid ⊢
      exact h.hashed id hid
  held := by
    intro channel id hid
    obtain ⟨hhas, hchannel, hlt⟩ := h.held channel id hid
    simp only [Controller.newTxn, update_of_ne hlt.ne]
    exact ⟨hhas, hchannel, Nat.lt_succ_of_lt hlt⟩
  requests := fun j hj => Nat.lt_succ_of_lt (h.requests j hj)

theorem Ordered.receive {txn : Transaction} {request : Nat} (h : c.Ordered k q)
    (hdecoded : txn.hasHashedAddr = false) :
    (c.newTxn txn request).Ordered k (q ++ [c.created]) := by
  have hnew := @Ordered.newTxn k c q txn request h hdecoded
  refine ⟨hnew.hashed, hnew.held, fun channel id hid j hj => ?_, ?_, fun j hj => ?_⟩
  · rcases mem_append.1 hj with hj | hj
    · exact h.before channel id hid j hj
    · rw [mem_singleton.1 hj]
      exact (h.held channel id hid).2.2
  · refine pairwise_append.2 ⟨h.sorted, pairwise_singleton _ _, fun a ha b hb => ?_⟩
    rw [mem_singleton.1 hb]
    exact h.requests a ha
  · rcases mem_append.1 hj with hj | hj
    · exact hnew.requests j hj
    · rw [mem_singleton.1 hj]
      exact Nat.lt_succ_self _

theorem Ordered.quickResponse (h : c.Ordered k q) :
    (c.quickResponse k id).Ordered k q := by
  unfold Controller.quickResponse
  split_ifs
  · have hnew := @Ordered.newTxn k c q { Transaction.create (c.txns id).seqNum
      (c.txns id).txnMnemonic (c.txns id).addr (c.txns id).dataWidth with isResponseReady := true }
      (c.request id) h rfl
    exact ⟨hnew.hashed, hnew.held, hnew.before, hnew.sorted, hnew.requests⟩
  · exact h

end Ordered

end Controller

section Requests

variable {s : MemorySystem} {c : Controller} {id : Nat} {rest inputQ : List Nat}

open Controller

theorem steps_setHashedAddress (ReqQ : List Nat) :
    Ledger.Steps k (ledgerOf k s c ReqQ inputQ)
      (ledgerOf k s (c.setHashedAddress k id) ReqQ inputQ) := by
  unfold Controller.setHashedAddress
  dsimp only
  split_ifs
  · exact .refl
  · exact .single .decode

theorem step_hit :
    Ledger.Step k (ledgerOf k s c (id :: rest) inputQ)
      (ledgerOf k s (c.setResponseReady id) rest inputQ) :=
  @Ledger.Step.hit k (ledgerOf k s c (id :: rest) inputQ) id rest rfl

variable {scheduler : TxnScheduler}

theorem step_accept (hchannel : (c.txns id).hashedAddr.channel < k.geometry.numChannels)
    (hpush : c.txnScheduler.push k c.txns id = some scheduler) :
    Ledger.Step k (ledgerOf k s c (id :: rest) inputQ)
      (ledgerOf k s (({ c with txnScheduler := scheduler }).quickResponse k id) rest inputQ) := by
  have hpushed := TxnScheduler.pushed_of_push hchannel hpush
  have hqueued : ∀ other, scheduler.queued k other + inputQ.count other =
      c.txnScheduler.queued k other + inputQ.count other + if other = id then 1 else 0 := by
    intro other
    rw [hpushed.queued]
    omega
  unfold quickResponse
  split_ifs with hquick
  · exact @Ledger.Step.acceptQuick k (ledgerOf k s c (id :: rest) inputQ) id rest _ _ rfl hqueued
      hquick rfl rfl
  · exact @Ledger.Step.accept k (ledgerOf k s c (id :: rest) inputQ) id rest _ rfl hqueued
      (Bool.eq_false_iff.2 hquick)

/-- An earlier write to the same address was in the queue. -/
def QueueHit.FollowsWrite (received : List Nat) (hit : QueueHit) : Prop :=
  hit.read.isRead ∧ ∃ w ∈ hit.queue, w.2.isWrite ∧ w.2.addr = hit.read.addr ∧
    [w.1, hit.id].Sublist received

theorem pair_sublist_of_sorted {a b : Nat} {list : List Nat} (hsorted : list.Pairwise (· < ·))
    (ha : a ∈ list) (hb : b ∈ list) (hlt : a < b) :
    [a, b].Sublist list := by
  obtain ⟨pre, post, rfl⟩ := append_of_mem ha
  obtain ⟨-, hpost, hcross⟩ := pairwise_append.1 hsorted
  rcases mem_append.1 hb with hb | hb
  · exact absurd (hcross b hb a mem_cons_self) (by omega)
  · rcases mem_cons.1 hb with rfl | hb
    · exact absurd hlt (lt_irrefl _)
    · exact ((singleton_sublist.2 hb).cons_cons a).trans (sublist_append_right _ _)

theorem received_of_holds {channel : Nat} (h : (ledgerOf k s c rest inputQ).Accounts k)
    (hchannel : channel < k.geometry.numChannels) (hholds : c.txnScheduler.Holds channel id) :
    id ∈ s.received := by
  have hpos : 0 < c.txnScheduler.queued k id :=
    TxnScheduler.queued_pos_iff.2 ⟨channel, hchannel, hholds⟩
  refine h.objects.original id (Ledger.waiting_iff.1 (h.objects.waiting_of_place ?_).1).1
  exact Nat.add_pos_right _ (Nat.add_pos_left hpos _)

theorem followsWrite_of_isHit (h : (ledgerOf k s c (id :: rest) inputQ).Accounts k)
    (hordered : c.Ordered k (id :: rest)) (hsorted : s.received.Pairwise (· < ·))
    (hdecoded : (c.txns id).hasHashedAddr) (hhit : c.txnScheduler.isHit k c.txns id) :
    QueueHit.FollowsWrite s.received ⟨id, c.txns id,
      (c.txnScheduler.hitQueue k (c.txns id).hashedAddr.channel).map fun other =>
        (other, c.txns other)⟩ := by
  unfold TxnScheduler.isHit at hhit
  simp only [Bool.and_eq_true, any_eq_true, decide_eq_true_eq] at hhit
  obtain ⟨hread, w, hw, hwrite, haddr⟩ := hhit
  have hholds : c.txnScheduler.Holds (c.txns id).hashedAddr.channel w := by
    unfold TxnScheduler.hitQueue at hw
    split_ifs at hw
    · exact .inl hw
    · exact .inr (.inr hw)
  have hchannel := hordered.channel_lt hdecoded
  have hrequest := Ledger.waiting_iff.1 (h.objects.of_request rfl).1
  refine ⟨hread, (w, c.txns w), mem_map_of_mem hw, hwrite, haddr, ?_⟩
  exact pair_sublist_of_sorted hsorted (received_of_holds h hchannel hholds)
    (h.objects.original id hrequest.1) (hordered.before _ w hholds id mem_cons_self)

/-- The way of the commands is not touched. -/
structure SamePath (c c' : Controller) : Prop where
  txnConverter : c'.txnConverter = c.txnConverter
  cmdScheduler : c'.cmdScheduler = c.cmdScheduler
  deviceDriver : c'.deviceDriver = c.deviceDriver

theorem SamePath.trans {c₁ c₂ c₃ : Controller} (h : SamePath c₁ c₂) (h' : SamePath c₂ c₃) :
    SamePath c₁ c₃ :=
  ⟨h'.1.trans h.1, h'.2.trans h.2, h'.3.trans h.3⟩

theorem samePath_setHashedAddress : SamePath c (c.setHashedAddress k id) := by
  unfold Controller.setHashedAddress
  dsimp only
  split_ifs
  · exact ⟨rfl, rfl, rfl⟩
  · exact ⟨rfl, rfl, rfl⟩

theorem samePath_quickResponse :
    SamePath c (({ c with txnScheduler := scheduler }).quickResponse k id) := by
  unfold quickResponse
  split_ifs
  · exact ⟨rfl, rfl, rfl⟩
  · exact ⟨rfl, rfl, rfl⟩

/-- The acceptance loop is steps of the ledger. -/
theorem acceptRequests_spec (h : (ledgerOf k s c ReqQ inputQ).Accounts k)
    (hordered : c.Ordered k ReqQ) (hsorted : s.received.Pairwise (· < ·)) :
    Ledger.Steps k (ledgerOf k s c ReqQ inputQ)
        (ledgerOf k s (acceptRequests k ReqQ c).2.2 (acceptRequests k ReqQ c).1 inputQ) ∧
      (acceptRequests k ReqQ c).2.2.Ordered k (acceptRequests k ReqQ c).1 ∧
      (∀ hit ∈ (acceptRequests k ReqQ c).2.1, hit.FollowsWrite s.received) ∧
      SamePath c (acceptRequests k ReqQ c).2.2 := by
  induction ReqQ generalizing c with
  | nil =>
    exact ⟨.refl, hordered, by simp [acceptRequests], ⟨rfl, rfl, rfl⟩⟩
  | cons id rest ih =>
    have hdecode := @steps_setHashedAddress k s c id inputQ (id :: rest)
    have h₁ := h.steps hdecode
    obtain ⟨hordered₁, hdecoded⟩ := hordered.setHashedAddress
    have hpath₁ := @samePath_setHashedAddress k c id
    unfold acceptRequests
    dsimp only
    generalize c.setHashedAddress k id = c₁ at *
    split_ifs with hhit
    · simp only [Bool.and_eq_true] at hhit
      have hstep := @step_hit k s c₁ id rest inputQ
      have hkept : SamePath c₁ (c₁.setResponseReady id) := ⟨rfl, rfl, rfl⟩
      have hordered₂ : (c₁.setResponseReady id).Ordered k rest := by
        refine hordered₁.of_sub (fun _ _ hheld => hheld) (sublist_cons_self _ _) rfl
          fun other => ?_
        by_cases heq : other = id
        · simp [setResponseReady, setTxn, heq]
        · simp [setResponseReady, setTxn, heq]
      obtain ⟨hsteps, hfinal, hhits, hpath⟩ := ih (h₁.step hstep) hordered₂
      refine ⟨hdecode.trans (hsteps.head hstep), hfinal, fun hit hmem => ?_,
        hpath₁.trans (hkept.trans hpath)⟩
      rcases mem_cons.1 hmem with rfl | hmem
      · exact followsWrite_of_isHit h₁ hordered₁ hsorted hdecoded hhit.2
      · exact hhits hit hmem
    · cases hpush : c₁.txnScheduler.push k c₁.txns id with
      | none =>
        exact ⟨hdecode, hordered₁, by simp, hpath₁⟩
      | some scheduler =>
        have hstep := @step_accept k s c₁ id rest inputQ scheduler
          (hordered₁.channel_lt hdecoded) hpush
        obtain ⟨hsteps, hfinal, hhits, hpath⟩ :=
          ih (h₁.step hstep) (hordered₁.push hdecoded hpush).quickResponse
        exact ⟨hdecode.trans (hsteps.head hstep), hfinal, hhits,
          hpath₁.trans (samePath_quickResponse.trans hpath)⟩

end Requests

end Queues

section Cycles

open Library

variable {k : Config} {c : Controller}

namespace Controller

theorem Ordered.not_queued (h : c.Ordered k (id :: rest)) :
    c.txnScheduler.queued k id = 0 := by
  by_contra hne
  obtain ⟨channel, -, hheld⟩ := TxnScheduler.queued_pos_iff.1 (pos_of_ne_zero hne)
  exact (h.before channel id hheld id List.mem_cons_self).false

theorem txnScheduler_quickResponse (c : Controller) (id : Nat) :
    (c.quickResponse k id).txnScheduler = c.txnScheduler := by
  unfold quickResponse
  split_ifs
  · rfl
  · rfl

theorem txnScheduler_setHashedAddress (c : Controller) (id : Nat) :
    (c.setHashedAddress k id).txnScheduler = c.txnScheduler := by
  unfold Controller.setHashedAddress
  dsimp only
  split_ifs
  · rfl
  · rfl

theorem acceptRequests_ordered (hordered : c.Ordered k ReqQ)
    (hone : ∀ id, c.txnScheduler.queued k id ≤ 1) :
    (acceptRequests k ReqQ c).2.2.Ordered k (acceptRequests k ReqQ c).1 ∧
      (∀ id, (acceptRequests k ReqQ c).2.2.txnScheduler.queued k id ≤ 1) ∧
      SamePath c (acceptRequests k ReqQ c).2.2 := by
  induction ReqQ generalizing c with
  | nil =>
    exact ⟨hordered, hone, rfl, rfl, rfl⟩
  | cons id rest ih =>
    obtain ⟨hordered₁, hdecoded⟩ := hordered.setHashedAddress
    have hpath₁ := @samePath_setHashedAddress k c id
    have hone₁ : ∀ other, (c.setHashedAddress k id).txnScheduler.queued k other ≤ 1 := by
      rwa [txnScheduler_setHashedAddress]
    unfold acceptRequests
    dsimp only
    generalize c.setHashedAddress k id = c₁ at *
    split_ifs with hhit
    · have hordered₂ : (c₁.setResponseReady id).Ordered k rest := by
        refine hordered₁.of_sub (fun _ _ hheld => hheld) (List.sublist_cons_self _ _) rfl
          fun other => ?_
        by_cases heq : other = id
        · simp [setResponseReady, setTxn, heq]
        · simp [setResponseReady, setTxn, heq]
      obtain ⟨hfinal, hone', hpath⟩ := ih hordered₂ hone₁
      have hkept : SamePath c₁ (c₁.setResponseReady id) := ⟨rfl, rfl, rfl⟩
      exact ⟨hfinal, hone', hpath₁.trans (hkept.trans hpath)⟩
    · cases hpush : c₁.txnScheduler.push k c₁.txns id with
      | none =>
        exact ⟨hordered₁, hone₁, hpath₁⟩
      | some scheduler =>
        have hpushed := TxnScheduler.pushed_of_push (hordered₁.channel_lt hdecoded) hpush
        have hone₂ : ∀ other, (({ c₁ with txnScheduler := scheduler }).quickResponse
            k id).txnScheduler.queued k other ≤ 1 := by
          intro other
          rw [txnScheduler_quickResponse, hpushed.queued]
          split_ifs with heq
          · rw [heq, hordered₁.not_queued]
          · exact hone₁ other
        obtain ⟨hfinal, hone', hpath⟩ := ih (hordered₁.push hdecoded hpush).quickResponse hone₂
        exact ⟨hfinal, hone', hpath₁.trans (samePath_quickResponse.trans hpath)⟩

end Controller

namespace MemorySystem

variable {s : MemorySystem}

/-- The controller after the responses were sent and the driver was updated. -/
def updated (s : MemorySystem) (d : DeviceDriver) : Controller :=
  { s.controller with
    simCycle := s.controller.simCycle + 1
    ResQ := s.controller.ResQ.filter fun id => !(s.controller.txns id).isResponseReady
    deviceDriver := d }

/-- The responses are sent. -/
def answering (k : Config) (s : MemorySystem) (d : DeviceDriver) : MemorySystem :=
  { s with
    sent := s.sent ++ (s.controller.ResQ.filter fun id =>
      (s.controller.txns id).isResponseReady).map s.controller.request
    hits := s.hits ++ (Controller.acceptRequests k s.controller.ReqQ (s.updated d)).2.1 }

/-- The system between the halves of a cycle. -/
def requested (k : Config) (s : MemorySystem) (d : DeviceDriver) : MemorySystem :=
  { s.answering k d with
    controller :=
      { (Controller.acceptRequests k s.controller.ReqQ (s.updated d)).2.2 with
        ReqQ := (Controller.acceptRequests k s.controller.ReqQ (s.updated d)).1 } }

theorem clockRequests_eq :
    s.clockRequests k = Controller.orAbort
      ((s.controller.deviceDriver.update k (s.controller.simCycle + 1)).map (s.requested k)) := by
  unfold clockRequests Controller.updateDriver
  simp only [Controller.sendResponse]
  cases s.controller.deviceDriver.update k (s.controller.simCycle + 1) with
  | none => rfl
  | some d => rfl

end MemorySystem

theorem Controller.Ordered.updated {s : MemorySystem} (h : s.controller.Ordered k s.controller.ReqQ)
    (d : DeviceDriver) :
    (s.updated d).Ordered k s.controller.ReqQ :=
  h.of_sub (fun _ _ hheld => hheld) (List.Sublist.refl _) rfl fun _ => ⟨rfl, rfl, rfl⟩

namespace MemorySystem

variable {s : MemorySystem}

theorem selected_of_runTxnScheduler (hordered : c.Ordered k ReqQ)
    (hone : ∀ id, c.txnScheduler.queued k id ≤ 1) (hinputQ : c.txnConverter.inputQ = []) :
    TxnScheduler.Selected k c.txns (c.token k) c.txnScheduler
      (List.range k.geometry.numChannels) (c.runTxnScheduler k).txnConverter.inputQ
      (c.runTxnScheduler k).txnScheduler := by
  have hselected := @TxnScheduler.selected_of_run k c.txns (c.token k)
    c.txnConverter.bankInfo c.txnScheduler hone
    fun channel id hheld => (hordered.held channel id hheld).2.1
  have hids : (c.runTxnScheduler k).txnConverter.inputQ =
      (c.txnScheduler.run k c.txns (c.token k) c.txnConverter.bankInfo).1 := by
    simp [Controller.runTxnScheduler, hinputQ]
  rw [hids]
  exact hselected

theorem clockCommands_eq {cmds : List (Nat × BankCommand)}
    (h : (s.controller.runTxnScheduler k).runTxnConverter k = .ok (cmds, c)) :
    s.clockCommands k = Controller.orAbort
      ((c.cmdScheduler.run k c.deviceDriver).bind fun r => (r.2.run k).map fun out =>
        { s with
          controller := { c with cmdScheduler := r.1, deviceDriver := out.1 }
          device := s.device ++ out.2.filter BankCommand.isColCommand
          generated := s.generated ++ cmds }) := by
  unfold clockCommands
  dsimp only
  rw [h]
  change (Controller.runCmdScheduler k c >>= _) = _
  unfold Controller.runCmdScheduler
  cases c.cmdScheduler.run k c.deviceDriver with
  | none =>
    rfl
  | some r =>
    change (Controller.runDriver k { c with cmdScheduler := r.1, deviceDriver := r.2 } >>= _) =
      Controller.orAbort ((r.2.run k).map _)
    unfold Controller.runDriver
    cases r.2.run k with
    | none =>
      rfl
    | some out =>
      rfl

end MemorySystem

end Cycles

end SstElements.CramSim
