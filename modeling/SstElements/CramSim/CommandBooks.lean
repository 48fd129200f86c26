import SstElements.CramSim.LedgerSteps

/-!
# Commands find their transactions

The numbers of the commands lead from the answer to a command to the object that waits for
it, and the column command of an object is answered when the object becomes ready.
-/

namespace SstElements.CramSim.Ledger

open List Nat

variable {k : Config} {l : Ledger}
variable {p q : Nat × BankCommand}

section

variable (h : l.CommandBook) (hp : p ∈ l.generated)
include h hp

theorem CommandBook.number_mem : p.2.seqNum ∈ l.numbers p.1 := by
  rw [h.numbers p.1 (h.generatedLt p hp)]
  exact mem_map_of_mem (mem_filter.2 ⟨hp, decide_eq_true rfl⟩)

theorem CommandBook.numbers_ne_nil : l.numbers p.1 ≠ [] :=
  ne_nil_of_mem (h.number_mem hp)

theorem CommandBook.column_unique (hq : q ∈ l.generated) (hobject : p.1 = q.1)
    (hpcol : p.2.isColCommand) (hqcol : q.2.isColCommand) :
    p = q := by
  have hle : (l.generated.filter fun x => x.1 = p.1 && x.2.isColCommand).length ≤ 1 := by
    rw [h.column p.1 (h.generatedLt p hp)]
    exact Bool.toNat_le _
  have hmem : ∀ x ∈ l.generated, x.1 = p.1 → x.2.isColCommand →
      x ∈ l.generated.filter fun x => x.1 = p.1 && x.2.isColCommand := fun x hx hobj hcol =>
    mem_filter.2 ⟨hx, by simp [hobj, hcol]⟩
  have hpmem := hmem p hp rfl hpcol
  obtain ⟨x, hx⟩ := length_eq_one_iff.1
    (le_antisymm hle (length_pos_of_mem hpmem))
  have hqmem := hmem q hq hobject.symm hqcol
  rw [hx, mem_singleton] at hpmem hqmem
  rw [hpmem, hqmem]

end

section Unchanged

/-- What concerns no object with commands changes nothing in the book. -/
structure KeepsCommands (l l' : Ledger) : Prop where
  generated : l'.generated = l.generated := by rfl
  answered : l'.answered = l.answered := by rfl
  inFlight : l'.inFlight = l.inFlight := by rfl
  cmdSeqNum : l'.cmdSeqNum = l.cmdSeqNum := by rfl
  created : l.created ≤ l'.created := by exact le_rfl
  numbers : ∀ id < l.created, l'.numbers id = l.numbers id := by exact fun _ _ => rfl
  new : ∀ id, l.created ≤ id → id < l'.created → l'.numbers id = [] := by
    exact fun _ hge hlt => absurd hlt (not_lt.2 hge)
  waiting : ∀ id < l.created, (l'.txns id).waitingCommands = (l.txns id).waitingCommands := by
    exact fun _ _ => rfl
  pending : ∀ id < l.created, l.numbers id ≠ [] → l'.pending id = l.pending id := by
    exact fun _ _ _ => rfl
  resQ : ∀ id ∈ l'.ResQ, id < l.created → id ∈ l.ResQ := by exact fun _ hid _ => hid

theorem CommandBook.keep {l' : Ledger} (h : l.CommandBook) (hobjects : l'.Objects)
    (hkeeps : KeepsCommands l l') :
    l'.CommandBook := by
  have hold : ∀ id < l'.created, l'.numbers id ≠ [] → id < l.created := by
    intro id hid hne
    by_contra hge
    exact hne (hkeeps.new id (not_lt.1 hge) hid)
  constructor
  case generatedLt =>
    rw [hkeeps.generated]
    exact fun p hp => (h.generatedLt p hp).trans_le hkeeps.created
  case refs =>
    rw [hkeeps.generated]
    exact h.refs
  case refLt =>
    rw [hkeeps.generated, hkeeps.cmdSeqNum]
    exact h.refLt
  case plain =>
    rw [hkeeps.generated]
    exact h.plain
  case numbers =>
    intro id hid
    rw [hkeeps.generated]
    rcases lt_or_ge id l.created with hlt | hge
    · rw [hkeeps.numbers id hlt, h.numbers id hlt]
    · rw [hkeeps.new id hge hid, filter_eq_nil_iff.2, map_nil]
      intro p hp heq
      rw [decide_eq_true_eq] at heq
      exact absurd (h.generatedLt p hp) (by omega)
  case column =>
    intro id hid
    rw [hkeeps.generated]
    rcases lt_or_ge id l.created with hlt | hge
    · rw [hkeeps.numbers id hlt, h.column id hlt]
    · rw [hkeeps.new id hge hid, filter_eq_nil_iff.2]
      · rfl
      intro p hp heq
      simp only [Bool.and_eq_true, decide_eq_true_eq] at heq
      exact absurd (h.generatedLt p hp) (by omega)
  case oneAnswer =>
    intro id hpending hne
    have hlt := hold id (hobjects.pending_lt hpending) hne
    rw [hkeeps.numbers id hlt] at hne
    rw [hkeeps.waiting id hlt]
    exact h.oneAnswer id (by rwa [hkeeps.pending id hlt hne] at hpending) hne
  case unique =>
    intro id hid id' hid' n hn hn'
    have hlt := hold id (hobjects.resLt id hid) (ne_nil_of_mem hn)
    have hlt' := hold id' (hobjects.resLt id' hid') (ne_nil_of_mem hn')
    rw [hkeeps.numbers id hlt] at hn
    rw [hkeeps.numbers id' hlt'] at hn'
    exact h.unique id (hkeeps.resQ id hid hlt) id' (hkeeps.resQ id' hid' hlt') n hn hn'
  case flight =>
    rw [hkeeps.generated, hkeeps.inFlight]
    intro p hp hcol
    rw [h.flight p hp hcol, hkeeps.pending p.1 (h.generatedLt p hp) (h.numbers_ne_nil hp)]
  case known =>
    rw [hkeeps.generated, hkeeps.inFlight]
    exact h.known
  case answers =>
    rw [hkeeps.generated, hkeeps.answered]
    intro p hp hcol hpending
    rw [hkeeps.pending p.1 (h.generatedLt p hp) (h.numbers_ne_nil hp)] at hpending
    exact h.answers p hp hcol hpending

variable {txn : Transaction} {id : Nat} {rest : List Nat}

theorem keepsCommands_receive (hready : txn.isResponseReady = false)
    (hnumbers : txn.cmdSeqNumList = []) :
    KeepsCommands l (l.receive txn) where
  created := le_succ _
  numbers := fun id hid => by rw [numbers_receive hnumbers, if_neg hid.ne]
  new := fun id hge hlt => by
    rw [numbers_receive hnumbers, if_pos (le_antisymm (Nat.lt_succ_iff.1 hlt) hge)]
  waiting := fun id hid => by simp [receive, hid.ne]
  pending := fun id hid _ => by rw [pending_receive hready, if_neg hid.ne]
  resQ := fun id hid hlt =>
    (mem_append.1 hid).resolve_right fun hnew => hlt.ne (mem_singleton.1 hnew)

theorem keepsCommands_send : KeepsCommands l l.send where
  pending := fun id _ _ => pending_send id
  resQ := fun _ hid _ => mem_of_mem_filter hid

theorem keepsCommands_decode {id : Nat} {address : HashedAddress} :
    KeepsCommands l (l.decode id address) where
  numbers := fun other _ => numbers_decode other
  waiting := fun other _ => by
    by_cases heq : other = id
    · simp [decode, heq]
    · simp [decode, heq]
  pending := fun other _ _ => pending_decode other

theorem keepsCommands_hit (h : l.Objects) (hreq : l.ReqQ = id :: rest) :
    KeepsCommands l (l.hit id rest) where
  numbers := fun other _ => numbers_hit other
  waiting := fun other _ => by
    by_cases heq : other = id
    · simp [hit, heq]
    · simp [hit, heq]
  pending := fun other _ hne => by
    rw [pending_hit, if_neg]
    rintro rfl
    exact hne (waiting_iff.1 (h.of_request hreq).1).2

variable {queued : Nat → Nat}

theorem keepsCommands_accept {rest : List Nat} :
    KeepsCommands l (l.accept rest queued) := {}

theorem keepsCommands_acceptQuick (h : l.Objects) (hready : txn.isResponseReady = true)
    (hnumbers : txn.cmdSeqNumList = []) :
    KeepsCommands l (l.acceptQuick id rest queued txn) where
  created := le_succ _
  numbers := fun other hother => by rw [numbers_acceptQuick hnumbers, if_neg hother.ne]
  new := fun other hge hlt => by
    rw [numbers_acceptQuick hnumbers, if_pos (le_antisymm (Nat.lt_succ_iff.1 hlt) hge)]
  waiting := fun other hother => by simp [acceptQuick, hother.ne]
  pending := fun other _ _ => pending_acceptQuick h hready other
  resQ := fun other hother hlt =>
    (mem_append.1 hother).resolve_right fun hnew => hlt.ne (mem_singleton.1 hnew)

end Unchanged

section Convert

variable {id : Nat} {cmds : List BankCommand} {queued : Nat → Nat} {inFlight : BankCommand → Nat}

theorem copies_eq_zero_of_ref {x : BankCommand} (h : ∀ cmd ∈ cmds, cmd.ref ≠ x.ref) :
    copies x cmds = 0 := by
  refine countP_eq_zero.2 fun cmd hcmd hcopy => h cmd hcmd ?_
  simp only [BankCommand.isCopyOf, Bool.and_eq_true, decide_eq_true_eq] at hcopy
  rw [← hcopy.2]
  rfl

theorem copies_eq_one {x : BankCommand} (hrefs : (cmds.map BankCommand.ref).Nodup) (hmem : x ∈ cmds)
    (hplain : x.bankIdVec = [] ∧ x.isResponseReady = false) (hcol : x.isColCommand) :
    copies x cmds = 1 := by
  have hself : x.isCopyOf x = true := by
    obtain ⟨hvec, hready⟩ := hplain
    have hsame : x.unanswered = x := by rw [BankCommand.unanswered, ← hready]
    simp [BankCommand.isCopyOf, hcol, hvec, hsame]
  obtain ⟨pre, post, rfl⟩ := append_of_mem hmem
  rw [map_append, map_cons, nodup_append] at hrefs
  obtain ⟨-, hpost, hdisjoint⟩ := hrefs
  rw [nodup_cons] at hpost
  have hpre : copies x pre = 0 := copies_eq_zero_of_ref fun cmd hcmd heq =>
    hdisjoint _ (mem_map_of_mem hcmd) _ mem_cons_self heq
  have hrest : copies x post = 0 := copies_eq_zero_of_ref fun cmd hcmd heq =>
    hpost.1 (heq ▸ mem_map_of_mem hcmd)
  rw [copies_append, copies_cons, hpre, hrest, copies, countP_singleton, if_pos hself]

theorem generated_convert : (l.convert id cmds queued inFlight).generated =
    l.generated ++ cmds.map (id, ·) :=
  rfl

theorem mem_generated_convert {p : Nat × BankCommand}
    (hp : p ∈ (l.convert id cmds queued inFlight).generated) :
    p ∈ l.generated ∨ (p.1 = id ∧ p.2 ∈ cmds) := by
  rcases mem_append.1 hp with hp | hp
  · exact .inl hp
  · obtain ⟨cmd, hcmd, rfl⟩ := mem_map.1 hp
    exact .inr ⟨rfl, hcmd⟩

section

variable (h : l.CommandBook)
include h

theorem CommandBook.generated_ne (hnumbers : l.numbers id = []) : ∀ p ∈ l.generated, p.1 ≠ id := by
  rintro p hp rfl
  exact h.numbers_ne_nil hp hnumbers

variable (hcmds : l.Conversion cmds)
include hcmds

/-- The converter gives new numbers to the commands. -/
theorem CommandBook.new_ref : ∀ p ∈ l.generated, ∀ cmd ∈ cmds, cmd.ref ≠ p.2.ref := by
  intro p hp cmd hcmd heq
  obtain ⟨n, hn, hpn⟩ := h.refLt p hp
  obtain ⟨m, hm, -, hcm⟩ := hcmds.new cmd hcmd
  rw [hpn, hcm, CommandRef.converter.injEq] at heq
  omega

theorem CommandBook.convert_refs :
    ((l.convert id cmds queued inFlight).generated.map (·.2.ref)).Nodup := by
  rw [generated_convert, map_append, map_map, nodup_append]
  refine ⟨h.refs, hcmds.refs, ?_⟩
  intro a ha b hb heq
  obtain ⟨p, hp, rfl⟩ := mem_map.1 ha
  obtain ⟨cmd, hcmd, rfl⟩ := mem_map.1 hb
  exact h.new_ref hcmds p hp cmd hcmd heq.symm

/-- The object gets one column command. -/
theorem CommandBook.convert_column (hnumbers : l.numbers id = []) (other : Nat)
    (hother : other < l.created) :
    ((l.convert id cmds queued inFlight).generated.filter fun p =>
      p.1 = other && p.2.isColCommand).length =
        (!((l.convert id cmds queued inFlight).numbers other).isEmpty).toNat := by
  rw [numbers_convert, generated_convert, filter_append, length_append]
  by_cases heq : other = id
  · have hfiltered : (l.generated.filter fun p => p.1 = id && p.2.isColCommand) = [] := by
      refine filter_eq_nil_iff.2 fun p hp hin => ?_
      simp only [Bool.and_eq_true, decide_eq_true_eq] at hin
      exact h.generated_ne hnumbers p hp hin.1
    have hcolumns : (cmds.filter fun cmd => decide ((id, cmd).1 = id) && (id, cmd).2.isColCommand) =
        cmds.filter BankCommand.isColCommand :=
      filter_congr fun cmd _ => by simp
    have hne : (cmds.map BankCommand.seqNum).isEmpty = false := by simp [hcmds.ne_nil]
    rw [heq, hfiltered, length_nil, zero_add, filter_map, length_map, if_pos rfl,
      hnumbers, nil_append, hne]
    change (cmds.filter fun cmd => decide ((id, cmd).1 = id) && (id, cmd).2.isColCommand).length = 1
    rw [hcolumns, hcmds.column]
  · rw [h.column other hother, if_neg heq, append_nil, filter_eq_nil_iff.2, length_nil,
      add_zero]
    simp [Ne.symm heq]

/-- No response number belongs to two objects. -/
theorem CommandBook.convert_unique (hnumbers : l.numbers id = []) :
    ∀ a ∈ l.ResQ, ∀ b ∈ l.ResQ, ∀ n ∈ (l.convert id cmds queued inFlight).numbers a,
      n ∈ (l.convert id cmds queued inFlight).numbers b → a = b := by
  intro a ha b hb n hna hnb
  have hfresh : ∀ c ∈ l.ResQ, n ∈ l.numbers c → n ∉ cmds.map BankCommand.seqNum := by
    intro c hc hn hcmd
    obtain ⟨cmd, hcmd, heq⟩ := mem_map.1 hcmd
    exact hcmds.fresh c hc n hn cmd hcmd heq
  rw [numbers_convert, mem_append] at hna hnb
  by_cases hab : a = id <;> by_cases hbb : b = id
  · rw [hab, hbb]
  · rw [hab, hnumbers, if_pos rfl] at hna
    rw [if_neg hbb] at hnb
    simp only [not_mem_nil, or_false, false_or] at hna hnb
    exact absurd hna (hfresh b hb hnb)
  · rw [hbb, hnumbers, if_pos rfl] at hnb
    rw [if_neg hab] at hna
    simp only [not_mem_nil, or_false, false_or] at hna hnb
    exact absurd hnb (hfresh a ha hna)
  · rw [if_neg hab] at hna
    rw [if_neg hbb] at hnb
    simp only [not_mem_nil, or_false] at hna hnb
    exact h.unique a ha b hb n hna hnb

variable (hflight : ∀ x, inFlight x = l.inFlight x + copies x cmds)
include hflight

/-- The new column command is on its way, once. -/
theorem CommandBook.convert_flight (hpending : l.pending id = true) :
    ∀ p ∈ (l.convert id cmds queued inFlight).generated, p.2.isColCommand →
      inFlight p.2 = (l.pending p.1).toNat := by
  intro p hp hcol
  rw [hflight]
  rcases mem_generated_convert hp with hp | ⟨hobj, hp⟩
  · rw [copies_eq_zero_of_ref (h.new_ref hcmds p hp)]
    exact h.flight p hp hcol
  · have hzero : l.inFlight p.2 = 0 := by
      by_contra hne
      obtain ⟨other, hother, -⟩ := h.known p.2 (pos_of_ne_zero hne)
      exact h.new_ref hcmds (other, p.2) hother p.2 hp rfl
    rw [hzero, copies_eq_one hcmds.refs hp (hcmds.plain p.2 hp) hcol, hobj, hpending]
    rfl

theorem CommandBook.convert_known (x : BankCommand) (hx : 0 < inFlight x) :
    ∃ other, (other, x) ∈ (l.convert id cmds queued inFlight).generated ∧ x.isColCommand := by
  rw [hflight] at hx
  rcases Nat.eq_zero_or_pos (l.inFlight x) with hzero | hpos
  · obtain ⟨cmd, hcmd, hcopy⟩ := countP_pos_iff.1 (show 0 < copies x cmds by omega)
    simp only [BankCommand.isCopyOf, Bool.and_eq_true, decide_eq_true_eq] at hcopy
    have hsame : cmd.unanswered = cmd := by
      rw [BankCommand.unanswered, ← (hcmds.plain cmd hcmd).2]
    obtain rfl : cmd = x := by rw [← hcopy.2, hsame]
    exact ⟨id, mem_append_right _ (mem_map_of_mem hcmd), hcopy.1.1⟩
  · obtain ⟨other, hother, hcol⟩ := h.known x hpos
    exact ⟨other, mem_append_left _ hother, hcol⟩

end

/-- The books stay right when the object of a transaction gets its commands. -/
theorem CommandBook.convert (h : l.CommandBook) (hobjects : l.Objects) (hqueued : 0 < l.queued id)
    (hcmds : l.Conversion cmds) (hflight : ∀ x, inFlight x = l.inFlight x + copies x cmds) :
    (l.convert id cmds queued inFlight).CommandBook := by
  obtain ⟨hpending, hnumbers⟩ := waiting_iff.1
    (hobjects.waiting_of_place (Nat.add_pos_right _ hqueued)).1
  constructor
  case generatedLt =>
    intro p hp
    rcases mem_generated_convert hp with hp | ⟨hp, -⟩
    · exact h.generatedLt p hp
    · rw [hp]
      exact hobjects.pending_lt hpending
  case refs => exact h.convert_refs hcmds
  case refLt =>
    intro p hp
    rcases mem_generated_convert hp with hp | ⟨-, hp⟩
    · obtain ⟨n, hn, href⟩ := h.refLt p hp
      exact ⟨n, Nat.lt_add_right _ hn, href⟩
    · obtain ⟨n, -, hn, href⟩ := hcmds.new p.2 hp
      exact ⟨n, hn, href⟩
  case plain =>
    intro p hp
    rcases mem_generated_convert hp with hp | ⟨-, hp⟩
    · exact h.plain p hp
    · exact hcmds.plain p.2 hp
  case numbers =>
    intro other hother
    rw [numbers_convert, h.numbers other hother, generated_convert, filter_append, map_append]
    congr 1
    split_ifs with heq
    · rw [heq, filter_eq_self.2, map_map]
      · rfl
      · simp
    · rw [filter_eq_nil_iff.2, map_nil]
      simp [Ne.symm heq]
  case column => exact h.convert_column hcmds hnumbers
  case oneAnswer =>
    intro other hother hne
    by_cases heq : other = id
    · simp [Ledger.convert, heq, TxnConverter.noteCommands]
    · rw [pending_convert] at hother
      rw [numbers_convert, if_neg heq, append_nil] at hne
      simpa [Ledger.convert, heq] using h.oneAnswer other hother hne
  case unique => exact h.convert_unique hcmds hnumbers
  case flight =>
    intro p hp hcol
    rw [pending_convert]
    exact h.convert_flight hcmds hflight hpending p hp hcol
  case known => exact h.convert_known hcmds hflight
  case answers =>
    intro p hp hcol hdone
    rw [pending_convert] at hdone
    rcases mem_generated_convert hp with hp | ⟨hobj, -⟩
    · exact h.answers p hp hcol hdone
    · rw [hobj, hpending] at hdone
      cases hdone

end Convert

section Answer

variable {id : Nat} {cmd : BankCommand} {inFlight : BankCommand → Nat}

section

variable (h : l.CommandBook)
variable (hgenerated : (id, cmd.unanswered) ∈ l.generated)
variable (hcolumn : cmd.isColCommand)
include h hgenerated hcolumn

theorem CommandBook.answer
    (hflight : ∀ x, l.inFlight x = inFlight x + if x = cmd.unanswered then 1 else 0) :
    (l.answer k id cmd inFlight).CommandBook where
  __ := h
  numbers := by
    intro other hother
    rw [numbers_answer]
    exact h.numbers other hother
  column := by
    intro other hother
    rw [numbers_answer]
    exact h.column other hother
  oneAnswer := by
    intro other hother hne
    rw [pending_answer] at hother
    split_ifs at hother with heq
    rw [numbers_answer] at hne
    simpa [Ledger.answer, heq] using h.oneAnswer other hother hne
  unique := by
    intro a ha b hb n hna hnb
    rw [numbers_answer] at hna hnb
    exact h.unique a (mem_ResQ_answer ha) b (mem_ResQ_answer hb) n hna hnb
  flight := by
    intro p hp hcol
    have hold := h.flight p hp hcol
    rw [hflight] at hold
    rw [pending_answer, show (l.answer k id cmd inFlight).inFlight = inFlight from rfl]
    by_cases hobj : p.1 = id
    · have hp' := h.column_unique hp hgenerated hobj hcol hcolumn
      rw [hp', if_pos rfl] at hold
      have hle := Bool.toNat_le (l.pending id)
      rw [if_pos hobj, hp', Bool.toNat_false]
      dsimp only at hold ⊢
      omega
    · have hne : p.2 ≠ cmd.unanswered := by
        intro heq
        rw [inj_on_of_nodup_map h.refs hp hgenerated (by rw [heq])] at hobj
        exact hobj rfl
      rw [if_neg hne, add_zero] at hold
      rwa [if_neg hobj]
  known := fun x hx => h.known x (by rw [hflight]; exact Nat.add_pos_left hx _)
  answers := by
    intro p hp hcol hdone
    rw [pending_answer] at hdone
    split_ifs at hdone with hobj
    · refine ⟨cmd, mem_append_right _ mem_cons_self, ?_⟩
      rw [h.column_unique hp hgenerated hobj hcol hcolumn]
    · obtain ⟨a, ha, heq⟩ := h.answers p hp hcol hdone
      exact ⟨a, mem_append_left _ ha, heq⟩

theorem CommandBook.pending_of_flight (hflight : 0 < l.inFlight cmd.unanswered) :
    l.pending id = true := by
  have hold := h.flight _ hgenerated hcolumn
  cases hpending : l.pending id with
  | true => rfl
  | false =>
    rw [hpending, Bool.toNat_false] at hold
    dsimp only at hold
    omega

end

end Answer

section Run

/-- Every step of the ledger keeps its accounts. -/
theorem Accounts.step {l' : Ledger} (h : l.Accounts k) (hstep : Step k l l') : l'.Accounts k := by
  obtain ⟨hobjects, hone, hbook⟩ := h
  cases hstep with
  | receive hready hnumbers =>
    have hobjects' := hobjects.receive hready hnumbers
    exact ⟨hobjects', hone.receive hobjects hready,
      hbook.keep hobjects' (keepsCommands_receive hready hnumbers)⟩
  | send =>
    exact ⟨hobjects.send, hone.send, hbook.keep hobjects.send keepsCommands_send⟩
  | decode =>
    exact ⟨hobjects.decode, hone.decode, hbook.keep hobjects.decode keepsCommands_decode⟩
  | hit hreq =>
    have hobjects' := hobjects.hit hreq
    exact ⟨hobjects', hone.hit hobjects hreq,
      hbook.keep hobjects' (keepsCommands_hit hobjects hreq)⟩
  | accept hreq hqueued hslow =>
    have hobjects' := hobjects.accept hreq hqueued
    exact ⟨hobjects', hone.accept hreq hslow, hbook.keep hobjects' keepsCommands_accept⟩
  | acceptQuick hreq hqueued hquick hready hnumbers =>
    have hobjects' := hobjects.acceptQuick hreq hqueued hready hnumbers
    exact ⟨hobjects', hone.acceptQuick hobjects hreq hquick hready,
      hbook.keep hobjects' (keepsCommands_acceptQuick hobjects hready hnumbers)⟩
  | @convert id cmds queued inFlight hqueued hcmds hflight =>
    have hpos : 0 < l.queued id := by
      rw [hqueued, if_pos rfl]
      exact succ_pos _
    exact ⟨hobjects.convert hqueued hcmds, hone.convert,
      hbook.convert hobjects hpos hcmds hflight⟩
  | @answer id cmd inFlight hgenerated hcolumn hflight =>
    have hpending := hbook.pending_of_flight hgenerated hcolumn (by
      rw [hflight, if_pos rfl]
      exact succ_pos _)
    have hnumbers := hbook.numbers_ne_nil hgenerated
    exact ⟨hobjects.answer hnumbers, hone.answer hobjects hpending hnumbers,
      hbook.answer hgenerated hcolumn hflight⟩

theorem Accounts.answered_of_sent {r : Nat} {cmd : BankCommand} (h : l.Accounts k)
    (hquick : k.enableQuickResponse = false) (hsent : r ∈ l.sent)
    (hgenerated : (r, cmd) ∈ l.generated) (hcolumn : cmd.isColCommand) :
    ∃ a ∈ l.answered, a.unanswered = cmd := by
  refine h.commands.answers (r, cmd) hgenerated hcolumn ?_
  have hone := h.oneAnswer r (h.objects.only r hsent)
  have hcount := count_pos_iff.2 hsent
  cases hpending : l.pending r with
  | false => rfl
  | true =>
    have howes : l.owes k r = true := by
      rw [owes, hpending, hquick]
      rfl
    rw [howes, Bool.toNat_true] at hone
    omega

end Run

end SstElements.CramSim.Ledger
