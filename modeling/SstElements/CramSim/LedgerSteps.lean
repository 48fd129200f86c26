import SstElements.CramSim.TransactionLedger

/-!
# The steps of the ledger keep its accounts

Each step is described by what it does to the pending objects and their numbers.
-/

namespace SstElements.CramSim.Ledger

open Function List Nat

variable {k : Config} {l : Ledger}

theorem owes_congr {l' : Ledger} {r : Nat} (hpending : l'.pending r = l.pending r)
    (hwrite : (l'.txns r).isWrite = (l.txns r).isWrite) (hreq : r ∈ l'.ReqQ ↔ r ∈ l.ReqQ) :
    l'.owes k r = l.owes k r := by
  rw [owes, owes, hpending, hwrite, decide_eq_decide.2 hreq]

section Receive

variable {txn : Transaction}

theorem pending_receive (hready : txn.isResponseReady = false) (id : Nat) :
    (l.receive txn).pending id = if id = l.created then true else l.pending id := by
  by_cases heq : id = l.created
  · simp [pending, ready, receive, heq, hready]
  · simp [pending, ready, receive, heq]

theorem numbers_receive (hnumbers : txn.cmdSeqNumList = []) (id : Nat) :
    (l.receive txn).numbers id = if id = l.created then [] else l.numbers id := by
  by_cases heq : id = l.created
  · simp [numbers, receive, heq, hnumbers]
  · simp [numbers, receive, heq]

theorem Objects.new (h : l.Objects) :
    l.created ∉ l.ResQ ∧ l.created ∉ l.received ∧ l.pending l.created = false := by
  have hres : l.created ∉ l.ResQ := fun hmem => (h.resLt _ hmem).false
  exact ⟨hres, fun hmem => (h.receivedLt _ hmem).false, by simp [pending, hres]⟩

theorem Objects.receive (h : l.Objects) (hready : txn.isResponseReady = false)
    (hnumbers : txn.cmdSeqNumList = []) :
    (l.receive txn).Objects := by
  obtain ⟨hres, hreceived, hnot⟩ := h.new
  have hplace : l.ReqQ.count l.created + l.queued l.created = 0 := by
    rw [h.place, waiting, hnot, Bool.false_and, Bool.toNat_false]
  constructor
  case resNodup =>
    exact nodup_append.2 ⟨h.resNodup, nodup_singleton _,
      fun a ha b hb heq => hres (by rwa [← mem_singleton.1 hb, ← heq])⟩
  case resLt =>
    intro id hid
    rcases mem_append.1 hid with hid | hid
    · exact lt_succ_of_lt (h.resLt id hid)
    · rw [mem_singleton.1 hid]
      exact lt_succ_self _
  case receivedLt =>
    intro r hr
    rcases mem_append.1 hr with hr | hr
    · exact lt_succ_of_lt (h.receivedLt r hr)
    · rw [mem_singleton.1 hr]
      exact lt_succ_self _
  case own =>
    intro r hr
    rcases mem_append.1 hr with hr | hr
    · exact (update_of_ne (h.receivedLt r hr).ne _ _).trans (h.own r hr)
    · rw [mem_singleton.1 hr]
      exact update_self _ _ _
  case requested =>
    intro id hid
    rcases mem_append.1 hid with hid | hid
    · refine mem_append_left _ ?_
      rw [show (l.receive txn).request id = l.request id from
        update_of_ne (h.resLt id hid).ne _ _]
      exact h.requested id hid
    · refine mem_append_right _ ?_
      rw [mem_singleton.1 hid]
      exact mem_singleton.2 (update_self _ _ _)
  case original =>
    intro id hid
    rw [pending_receive hready] at hid
    split_ifs at hid with heq
    · exact mem_append_right _ (mem_singleton.2 heq)
    · exact mem_append_left _ (h.original id hid)
  case place =>
    intro id
    rw [waiting, pending_receive hready, numbers_receive hnumbers]
    have hcount : (l.receive txn).ReqQ.count id =
        l.ReqQ.count id + if id = l.created then 1 else 0 :=
      Library.count_concat l.ReqQ l.created id
    have hqueued : (l.receive txn).queued id = l.queued id := rfl
    rw [hcount, hqueued]
    split_ifs with heq
    · rw [heq]
      simp only [isEmpty_nil, Bool.and_self, Bool.toNat_true]
      omega
    · exact h.place id
  case only =>
    exact fun r hr => mem_append_left _ (h.only r hr)

theorem OneAnswer.receive (h : l.OneAnswer k) (hobjects : l.Objects)
    (hready : txn.isResponseReady = false) :
    (l.receive txn).OneAnswer k := by
  obtain ⟨hres, hreceived, hnot⟩ := hobjects.new
  have hresponses : ∀ r, (l.receive txn).responses r = l.responses r := by
    intro r
    have hnew : (l.receive txn).ready l.created = false := by
      simp [Ledger.ready, Ledger.receive, hready]
    unfold responses
    rw [show (l.receive txn).ResQ = l.ResQ ++ [l.created] from rfl, countP_append,
      countP_singleton, hnew]
    simp only [Bool.false_and, Bool.false_eq_true, if_false, add_zero]
    refine countP_congr fun id hid => ?_
    have hne := (hobjects.resLt id hid).ne
    simp [Ledger.ready, Ledger.receive, hne]
  intro r hr
  rw [hresponses]
  change l.sent.count r + l.responses r + _ = 1
  rcases mem_append.1 hr with hr | hr
  · have hne := (hobjects.receivedLt r hr).ne
    have howes : (l.receive txn).owes k r = l.owes k r :=
      owes_congr (by rw [pending_receive hready, if_neg hne]) (by simp [Ledger.receive, hne])
        (by simp [Ledger.receive, hne])
    rw [howes]
    exact h r hr
  · rw [mem_singleton.1 hr]
    have hsent : l.sent.count l.created = 0 :=
      count_eq_zero.2 fun hmem => hreceived (hobjects.only _ hmem)
    have hnone : l.responses l.created = 0 := by
      refine countP_eq_zero.2 fun id hid hcount => hreceived ?_
      simp only [Bool.and_eq_true, decide_eq_true_eq] at hcount
      rw [← hcount.2]
      exact hobjects.requested id hid
    have howes : (l.receive txn).owes k l.created = true := by
      unfold owes
      rw [pending_receive hready, if_pos rfl]
      simp [Ledger.receive]
    rw [hsent, hnone, howes, Bool.toNat_true]

end Receive

section Send

theorem pending_send (id : Nat) : l.send.pending id = l.pending id := by
  rw [Bool.eq_iff_iff, pending_iff, pending_iff]
  change id ∈ l.ResQ.filter (fun id => !l.ready id) ∧ l.ready id = false ↔ _
  rw [mem_filter, Bool.not_eq_true']
  exact ⟨fun h => ⟨h.1.1, h.2⟩, fun h => ⟨h, h.2⟩⟩

theorem responses_send (r : Nat) : l.send.responses r = 0 := by
  refine countP_eq_zero.2 fun id hid hcount => ?_
  have hready := (mem_filter.1 hid).2
  rw [show l.send.ready id = l.ready id from rfl] at hcount
  simp only [Bool.not_eq_true', Bool.and_eq_true] at hready hcount
  exact absurd hcount.1 (by rw [hready]; decide)

theorem count_sent_send (r : Nat) : l.send.sent.count r = l.sent.count r + l.responses r := by
  rw [show l.send.sent = l.sent ++ (l.ResQ.filter l.ready).map l.request from rfl,
    count_append]
  congr 1
  rw [count_eq_countP, countP_map, countP_filter]
  refine countP_congr fun id _ => ?_
  simp [and_comm]

theorem Objects.send (h : l.Objects) : l.send.Objects where
  __ := h
  resNodup := h.resNodup.filter _
  resLt := fun id hid => h.resLt id (mem_of_mem_filter hid)
  requested := fun id hid => h.requested id (mem_of_mem_filter hid)
  original := fun id hid => h.original id (by rwa [pending_send] at hid)
  place := by
    intro id
    rw [waiting, pending_send]
    exact h.place id
  only := by
    intro r hr
    rcases mem_append.1 hr with hr | hr
    · exact h.only r hr
    · obtain ⟨id, hid, rfl⟩ := List.mem_map.1 hr
      exact h.requested id (mem_of_mem_filter hid)

theorem OneAnswer.send (h : l.OneAnswer k) : l.send.OneAnswer k := by
  intro r hr
  rw [count_sent_send, responses_send, owes, pending_send]
  exact h r hr

end Send

section Decode

variable {id : Nat} {address : HashedAddress}

theorem ready_decode (other : Nat) : (l.decode id address).ready other = l.ready other := by
  by_cases heq : other = id
  · simp [ready, decode, heq]
  · simp [ready, decode, heq]

theorem numbers_decode (other : Nat) : (l.decode id address).numbers other = l.numbers other := by
  by_cases heq : other = id
  · simp [numbers, decode, heq]
  · simp [numbers, decode, heq]

theorem pending_decode (other : Nat) : (l.decode id address).pending other = l.pending other := by
  rw [pending, ready_decode]
  rfl

theorem Objects.decode (h : l.Objects) : (l.decode id address).Objects :=
  { h with
    original := fun other hother => h.original other (by rwa [pending_decode] at hother)
    place := by
      intro other
      rw [waiting, pending_decode, numbers_decode]
      exact h.place other }

theorem OneAnswer.decode (h : l.OneAnswer k) : (l.decode id address).OneAnswer k := by
  intro r hr
  have hresponses : (l.decode id address).responses r = l.responses r :=
    countP_congr fun other _ => by
      rw [ready_decode]
      rfl
  have howes : (l.decode id address).owes k r = l.owes k r := by
    have hwrite : ((l.decode id address).txns r).isWrite = (l.txns r).isWrite := by
      by_cases heq : r = id
      · simp [Ledger.decode, heq, Transaction.isWrite]
      · simp [Ledger.decode, heq]
    exact owes_congr (pending_decode r) hwrite Iff.rfl
  rw [hresponses, howes]
  exact h r hr

end Decode

section Hit

variable {id : Nat} {rest : List Nat}

theorem ready_hit (other : Nat) :
    (l.hit id rest).ready other = if other = id then true else l.ready other := by
  by_cases heq : other = id
  · simp [ready, hit, heq]
  · simp [ready, hit, heq]

theorem numbers_hit (other : Nat) : (l.hit id rest).numbers other = l.numbers other := by
  by_cases heq : other = id
  · simp [numbers, hit, heq]
  · simp [numbers, hit, heq]

theorem pending_hit (other : Nat) :
    (l.hit id rest).pending other = if other = id then false else l.pending other := by
  rw [pending, ready_hit]
  split_ifs with heq
  · exact Bool.and_false _
  · rfl

theorem Objects.hit (h : l.Objects) (hreq : l.ReqQ = id :: rest) : (l.hit id rest).Objects :=
  { h with
    original := by
      intro other hother
      rw [pending_hit] at hother
      split_ifs at hother with heq
      exact h.original other hother
    place := by
      intro other
      obtain ⟨hwaiting, hcount, hqueued⟩ := h.of_request hreq
      rw [waiting, pending_hit, numbers_hit]
      change rest.count other + l.queued other = _
      split_ifs with heq
      · rw [heq, hcount, hqueued]
        rfl
      · have hplace := h.place other
        rw [hreq, count_cons_of_ne (Ne.symm heq)] at hplace
        exact hplace }

theorem responses_of_ready {l' : Ledger} {id : Nat} (h : l.Objects) (hpending : l.pending id = true)
    (hready : ∀ other, l'.ready other = if other = id then true else l.ready other)
    (hResQ : l'.ResQ = l.ResQ) (hrequest : l'.request = l.request) (r : Nat) :
    l'.responses r = l.responses r + if r = id then 1 else 0 := by
  obtain ⟨hmem, hnot⟩ := pending_iff.1 hpending
  have hown := h.own id (h.original id hpending)
  have hsplit := perm_cons_erase hmem
  unfold responses
  rw [hResQ, hrequest, hsplit.countP_eq, hsplit.countP_eq, countP_cons, countP_cons,
    hready, if_pos rfl, hnot, hown]
  have hrest : ((l.ResQ.erase id).countP fun other => l'.ready other &&
        decide (l.request other = r))
      = (l.ResQ.erase id).countP fun other => l.ready other && decide (l.request other = r) := by
    refine countP_congr fun other hother => ?_
    rw [hready, if_neg ((h.resNodup.mem_erase_iff.1 hother).1)]
  rw [hrest]
  simp [eq_comm]

theorem OneAnswer.hit (h : l.OneAnswer k) (hobjects : l.Objects) (hreq : l.ReqQ = id :: rest) :
    (l.hit id rest).OneAnswer k := by
  obtain ⟨hwaiting, hcount, -⟩ := hobjects.of_request hreq
  have hpending := (waiting_iff.1 hwaiting).1
  intro r hr
  have hresponses := @responses_of_ready l (l.hit id rest) id hobjects hpending ready_hit rfl rfl r
  have hold := h r hr
  rw [hresponses]
  by_cases heq : r = id
  · have howes : l.owes k r = true := by simp [owes, heq, hpending, hreq]
    have hnone : (l.hit id rest).owes k r = false := by
      rw [owes, pending_hit, if_pos heq, Bool.false_and]
    rw [howes, Bool.toNat_true] at hold
    rw [hnone, if_pos heq, Bool.toNat_false]
    exact hold
  · have howes : (l.hit id rest).owes k r = l.owes k r :=
      owes_congr (by rw [pending_hit, if_neg heq]) (by simp [Ledger.hit, heq])
        (by simp [Ledger.hit, heq, hreq])
    rw [howes, if_neg heq]
    exact hold

end Hit

section Accept

variable {id : Nat} {rest : List Nat} {queued : Nat → Nat} {txn : Transaction}

theorem Objects.accept (h : l.Objects) (hreq : l.ReqQ = id :: rest)
    (hqueued : ∀ other, queued other = l.queued other + if other = id then 1 else 0) :
    (l.accept rest queued).Objects :=
  { h with
    place := by
      intro other
      have hplace := h.place other
      rw [hreq, Library.count_first] at hplace
      change rest.count other + queued other = (l.waiting other).toNat
      rw [← hplace, hqueued]
      omega }

theorem OneAnswer.accept (h : l.OneAnswer k) (hreq : l.ReqQ = id :: rest)
    (hslow : (k.enableQuickResponse && (l.txns id).isWrite) = false) :
    (l.accept rest queued).OneAnswer k := by
  intro r hr
  have howes : (l.accept rest queued).owes k r = l.owes k r := by
    by_cases heq : r = id
    · rw [owes, owes, heq, show ((l.accept rest queued).txns id).isWrite = (l.txns id).isWrite
        from rfl, hslow]
      rfl
    · exact owes_congr rfl rfl (by simp [Ledger.accept, hreq, heq])
  rw [howes]
  exact h r hr

theorem ready_acceptQuick (hready : txn.isResponseReady = true) (other : Nat) :
    (l.acceptQuick id rest queued txn).ready other =
      if other = l.created then true else l.ready other := by
  by_cases heq : other = l.created
  · simp [ready, acceptQuick, heq, hready]
  · simp [ready, acceptQuick, heq]

theorem pending_acceptQuick (h : l.Objects) (hready : txn.isResponseReady = true) (other : Nat) :
    (l.acceptQuick id rest queued txn).pending other = l.pending other := by
  unfold pending
  rw [ready_acceptQuick hready]
  split_ifs with heq
  · rw [heq, decide_eq_false h.new.1]
    simp
  · simp [acceptQuick, heq]

theorem numbers_acceptQuick (hnumbers : txn.cmdSeqNumList = []) (other : Nat) :
    (l.acceptQuick id rest queued txn).numbers other =
      if other = l.created then [] else l.numbers other := by
  by_cases heq : other = l.created
  · simp [numbers, acceptQuick, heq, hnumbers]
  · simp [numbers, acceptQuick, heq]

theorem Objects.acceptQuick (h : l.Objects) (hreq : l.ReqQ = id :: rest)
    (hqueued : ∀ other, queued other = l.queued other + if other = id then 1 else 0)
    (hready : txn.isResponseReady = true) (hnumbers : txn.cmdSeqNumList = []) :
    (l.acceptQuick id rest queued txn).Objects := by
  obtain ⟨hres, hreceived, hnot⟩ := h.new
  have hpending := (waiting_iff.1 (h.of_request hreq).1).1
  have haccepted := h.accept hreq hqueued
  constructor
  case resNodup =>
    exact nodup_append.2 ⟨h.resNodup, nodup_singleton _,
      fun a ha b hb heq => hres (by rwa [← mem_singleton.1 hb, ← heq])⟩
  case resLt =>
    intro other hother
    rcases mem_append.1 hother with hother | hother
    · exact lt_succ_of_lt (h.resLt other hother)
    · rw [mem_singleton.1 hother]
      exact lt_succ_self _
  case receivedLt =>
    exact fun r hr => lt_succ_of_lt (h.receivedLt r hr)
  case own =>
    exact fun r hr => (update_of_ne (h.receivedLt r hr).ne _ _).trans (h.own r hr)
  case requested =>
    intro other hother
    rcases mem_append.1 hother with hother | hother
    · rw [show (l.acceptQuick id rest queued txn).request other = l.request other from
        update_of_ne (h.resLt other hother).ne _ _]
      exact h.requested other hother
    · rw [mem_singleton.1 hother, show (l.acceptQuick id rest queued txn).request l.created =
        l.request id from update_self _ _ _]
      exact h.requested id (pending_iff.1 hpending).1
  case original =>
    intro other hother
    rw [pending_acceptQuick h hready] at hother
    exact h.original other hother
  case place =>
    intro other
    rw [waiting, pending_acceptQuick h hready, numbers_acceptQuick hnumbers]
    have hplace := haccepted.place other
    split_ifs with heq
    · rw [heq, waiting,
        show (l.accept rest queued).pending l.created = l.pending l.created from rfl,
        hnot] at hplace
      rw [heq, hnot]
      exact hplace
    · exact hplace
  case only =>
    exact h.only

theorem OneAnswer.acceptQuick (h : l.OneAnswer k) (hobjects : l.Objects)
    (hreq : l.ReqQ = id :: rest) (hquick : (k.enableQuickResponse && (l.txns id).isWrite) = true)
    (hready : txn.isResponseReady = true) :
    (l.acceptQuick id rest queued txn).OneAnswer k := by
  obtain ⟨hres, hreceived, hnot⟩ := hobjects.new
  obtain ⟨hwaiting, hcount, -⟩ := hobjects.of_request hreq
  have hpending := (waiting_iff.1 hwaiting).1
  have hown := hobjects.own id (hobjects.original id hpending)
  intro r hr
  have hne := (hobjects.receivedLt r hr).ne
  have hresponses : (l.acceptQuick id rest queued txn).responses r =
      l.responses r + if r = id then 1 else 0 := by
    unfold responses
    rw [show (l.acceptQuick id rest queued txn).ResQ = l.ResQ ++ [l.created] from rfl,
      countP_append, countP_singleton, ready_acceptQuick hready, if_pos rfl,
      show (l.acceptQuick id rest queued txn).request l.created = l.request id from
        update_self _ _ _, hown]
    congr 1
    · refine countP_congr fun other hother => ?_
      have hold := (hobjects.resLt other hother).ne
      rw [ready_acceptQuick hready, if_neg hold, show
        (l.acceptQuick id rest queued txn).request other = l.request other from
          update_of_ne hold _ _]
    · simp [eq_comm]
  have hwrite : ((l.acceptQuick id rest queued txn).txns r).isWrite = (l.txns r).isWrite := by
    simp [Ledger.acceptQuick, hne]
  have hold := h r hr
  rw [hresponses]
  by_cases heq : r = id
  · have howes : l.owes k r = true := by simp [owes, heq, hpending, hreq]
    have hnone : (l.acceptQuick id rest queued txn).owes k r = false := by
      have hrest : id ∉ (l.acceptQuick id rest queued txn).ReqQ := count_eq_zero.1 hcount
      rw [owes, hwrite, heq, hquick, decide_eq_false hrest]
      simp
    rw [howes, Bool.toNat_true] at hold
    rw [hnone, if_pos heq, Bool.toNat_false]
    exact hold
  · have howes : (l.acceptQuick id rest queued txn).owes k r = l.owes k r :=
      owes_congr (pending_acceptQuick hobjects hready r) hwrite
        (by simp [Ledger.acceptQuick, heq, hreq])
    rw [howes, if_neg heq]
    exact hold

end Accept

section Convert

variable {id : Nat} {cmds : List BankCommand} {queued : Nat → Nat} {inFlight : BankCommand → Nat}

theorem ready_convert (other : Nat) :
    (l.convert id cmds queued inFlight).ready other = l.ready other := by
  by_cases heq : other = id
  · simp [ready, convert, heq, TxnConverter.noteCommands]
  · simp [ready, convert, heq]

theorem pending_convert (other : Nat) :
    (l.convert id cmds queued inFlight).pending other = l.pending other := by
  rw [pending, ready_convert]
  rfl

theorem numbers_convert (other : Nat) :
    (l.convert id cmds queued inFlight).numbers other =
      l.numbers other ++ if other = id then cmds.map BankCommand.seqNum else [] := by
  by_cases heq : other = id
  · simp [numbers, convert, heq, TxnConverter.noteCommands]
  · simp [numbers, convert, heq]

theorem Conversion.ne_nil (h : l.Conversion cmds) : cmds ≠ [] := by
  rintro rfl
  exact absurd h.column (by decide)

theorem Objects.convert (h : l.Objects)
    (hqueued : ∀ other, l.queued other = queued other + if other = id then 1 else 0)
    (hcmds : l.Conversion cmds) :
    (l.convert id cmds queued inFlight).Objects :=
  { h with
    original := fun other hother => h.original other (by rwa [pending_convert] at hother)
    place := by
      intro other
      have hold := hqueued other
      change l.ReqQ.count other + queued other = _
      by_cases heq : other = id
      · rw [if_pos heq] at hold
        obtain ⟨-, hone⟩ := @Objects.waiting_of_place l other h (by omega)
        have hnone : (l.convert id cmds queued inFlight).waiting other = false := by
          rw [waiting, numbers_convert, if_pos heq]
          simp [hcmds.ne_nil]
        rw [hnone, Bool.toNat_false]
        omega
      · rw [if_neg heq] at hold
        rw [waiting, pending_convert, numbers_convert, if_neg heq, append_nil, ← waiting,
          ← h.place other]
        omega }

theorem OneAnswer.convert (h : l.OneAnswer k) :
    (l.convert id cmds queued inFlight).OneAnswer k := by
  intro r hr
  have hresponses : (l.convert id cmds queued inFlight).responses r = l.responses r :=
    countP_congr fun other _ => by
      rw [ready_convert]
      rfl
  have hwrite : ((l.convert id cmds queued inFlight).txns r).isWrite = (l.txns r).isWrite := by
    by_cases heq : r = id
    · simp [Ledger.convert, heq, Transaction.isWrite, TxnConverter.noteCommands]
    · simp [Ledger.convert, heq]
  rw [hresponses, owes_congr (pending_convert r) hwrite Iff.rfl]
  exact h r hr

end Convert

section Answer

variable {id : Nat} {cmd : BankCommand} {inFlight : BankCommand → Nat}

theorem isWrite_eq_not_isRead (txn : Transaction) : txn.isWrite = !txn.isRead := by
  unfold Transaction.isWrite Transaction.isRead
  cases txn.txnMnemonic <;> rfl

theorem ready_answer (other : Nat) :
    (l.answer k id cmd inFlight).ready other = if other = id then true else l.ready other := by
  by_cases heq : other = id
  · simp [ready, answer, heq]
  · simp [ready, answer, heq]

theorem numbers_answer (other : Nat) :
    (l.answer k id cmd inFlight).numbers other = l.numbers other := by
  by_cases heq : other = id
  · simp [numbers, answer, heq]
  · simp [numbers, answer, heq]

theorem ResQ_answer :
    (l.answer k id cmd inFlight).ResQ =
      if k.enableQuickResponse && (l.txns id).isWrite then l.ResQ.erase id else l.ResQ := by
  rw [isWrite_eq_not_isRead]
  rfl

theorem mem_ResQ_answer {other : Nat} (h : other ∈ (l.answer k id cmd inFlight).ResQ) :
    other ∈ l.ResQ := by
  rw [ResQ_answer] at h
  split_ifs at h
  · exact mem_of_mem_erase h
  · exact h

theorem pending_answer (other : Nat) :
    (l.answer k id cmd inFlight).pending other = if other = id then false else l.pending other := by
  rw [pending, ready_answer, ResQ_answer]
  split_ifs with hquick heq heq
  · exact Bool.and_false _
  · rw [pending, decide_eq_decide.2 (mem_erase_of_ne heq)]
  · exact Bool.and_false _
  · rfl

theorem Objects.answer (h : l.Objects) (hnumbers : l.numbers id ≠ []) :
    (l.answer k id cmd inFlight).Objects where
  __ := h
  resNodup := by
    rw [ResQ_answer]
    split_ifs
    · exact h.resNodup.erase id
    · exact h.resNodup
  resLt := fun other hother => h.resLt other (mem_ResQ_answer hother)
  requested := fun other hother => h.requested other (mem_ResQ_answer hother)
  original := by
    intro other hother
    rw [pending_answer] at hother
    split_ifs at hother with heq
    exact h.original other hother
  place := by
    intro other
    rw [waiting, pending_answer, numbers_answer]
    refine (h.place other).trans ?_
    split_ifs with heq
    · rw [heq, waiting]
      simp [hnumbers]
    · rfl

theorem OneAnswer.answer (h : l.OneAnswer k) (hobjects : l.Objects) (hpending : l.pending id = true)
    (hnumbers : l.numbers id ≠ []) :
    (l.answer k id cmd inFlight).OneAnswer k := by
  obtain ⟨hmem, hnot⟩ := pending_iff.1 hpending
  have hReqQ : id ∉ l.ReqQ := by
    have hplace := hobjects.place id
    have hwaiting : l.waiting id = false := by simp [waiting, hnumbers]
    rw [hwaiting, Bool.toNat_false] at hplace
    exact count_eq_zero.1 (by omega)
  intro r hr
  have hold := h r hr
  have hwrite : ((l.answer k id cmd inFlight).txns r).isWrite = (l.txns r).isWrite := by
    by_cases heq : r = id
    · simp [Ledger.answer, heq, Transaction.isWrite]
    · simp [Ledger.answer, heq]
  have hother : r ≠ id → (l.answer k id cmd inFlight).owes k r = l.owes k r := fun hne =>
    owes_congr (by rw [pending_answer, if_neg hne]) hwrite Iff.rfl
  have hself : (l.answer k id cmd inFlight).owes k id = false := by
    rw [owes, pending_answer, if_pos rfl, Bool.false_and]
  cases hquick : k.enableQuickResponse && (l.txns id).isWrite with
  | true =>
    have howed : l.owes k id = false := by
      rw [owes, hquick, decide_eq_false hReqQ]
      simp
    have hresponses : (l.answer k id cmd inFlight).responses r = l.responses r := by
      have hsplit := perm_cons_erase hmem
      unfold responses
      rw [ResQ_answer, if_pos hquick, hsplit.countP_eq, countP_cons, hnot]
      refine countP_congr fun other hother => ?_
      rw [ready_answer, if_neg ((hobjects.resNodup.mem_erase_iff.1 hother).1)]
      rfl
    rw [hresponses]
    by_cases heq : r = id
    · rw [heq, hself]
      rwa [heq, howed] at hold
    · rwa [hother heq]
  | false =>
    have hresponses := @responses_of_ready l (l.answer k id cmd inFlight) id hobjects hpending
      ready_answer (by rw [ResQ_answer, hquick]; rfl) rfl r
    rw [hresponses]
    by_cases heq : r = id
    · have howed : l.owes k r = true := by
        rw [owes, heq, hpending, hquick]
        rfl
      rw [howed, Bool.toNat_true] at hold
      rw [if_pos heq, heq, hself, Bool.toNat_false, ← heq]
      exact hold
    · rw [if_neg heq, hother heq]
      exact hold

end Answer

end SstElements.CramSim.Ledger
