import SstElements.Vanadis.MemoryRetirement

/-!
# Memory operations issue in order

The issue stage does not take a memory operation behind one that it did not take, and
nothing that reads a register behind a system call.  What it takes goes to the end of
the queue.
-/

namespace SstElements.Vanadis

open Library Function List Option

universe u

variable {Op : Type u} {hw_threads : Nat}

/-- Unless the issue stage has seen one that was not taken, all memory operations before
place `n` have issued. -/
def IssueTemps.InOrder (temps : IssueTemps) (rob : List (VanadisInstruction Op)) (n : Nat) : Prop :=
  temps.unallocated_memory_op_seen = false → ∀ x ∈ rob.take n,
    x.func_type.isMemory = true → x.hasIssued = true

variable {temps temps' : IssueTemps} {rob : List (VanadisInstruction Op)} {n : Nat}
variable {accepts : Nat → Bool} {id id' : InsId hw_threads}

theorem IssueTemps.InOrder.succ {ins : VanadisInstruction Op} (h : temps.InOrder rob n)
    (hins : rob[n]? = some ins)
    (hseen : temps'.unallocated_memory_op_seen = false → temps.unallocated_memory_op_seen = false ∧
        (ins.func_type.isMemory = true → ins.hasIssued = true)) :
    temps'.InOrder rob (n + 1) := by
  intro hnot x hx hmem
  obtain ⟨hold, hins'⟩ := hseen hnot
  rw [take_add_one, hins] at hx
  rcases mem_append.1 hx with hx | hx
  · exact h hold x hx hmem
  · obtain rfl := mem_singleton.1 hx
    exact hins' hmem

variable {reg_stacks : RegisterKind → VanadisRegisterStack}
variable {isa_table : RegisterKind → VanadisISATable}

theorem findIssue_memory {j : Nat} {ins' : VanadisInstruction Op} (horder : temps.InOrder rob n)
    (h : findIssue reg_stacks isa_table accepts temps n (rob.drop n) = (some (j, ins'), temps')) :
    temps'.InOrder rob j ∧ (ins'.func_type.isMemory = true →
      ∀ x ∈ rob.take j, x.func_type.isMemory = true → x.hasIssued = true) := by
  obtain ⟨rest, hrest⟩ : ∃ rest, rest = rob.drop n := ⟨_, rfl⟩
  rw [← hrest] at h
  induction rest generalizing temps n with
  | nil => simp [findIssue] at h
  | cons ins rest ih =>
    have hins : rob[n]? = some ins := by
      have hget := congrArg (·[0]?) hrest
      simpa using hget.symm
    have htail : rest = rob.drop (n + 1) := by
      rw [← drop_drop, ← hrest]
      rfl
    rw [findIssue] at h
    split at h
    case isTrue hissued =>
      exact @ih (temps.collect ins) (n + 1)
        (horder.succ hins fun hseen => ⟨hseen, fun _ => hissued⟩) h htail
    case isFalse =>
      split at h
      case h_1 taken htaken =>
        simp only [Prod.mk.injEq, some.injEq] at h
        obtain ⟨⟨rfl, rfl⟩, rfl⟩ := h
        refine ⟨horder, fun hmem => ?_⟩
        split at htaken
        case isFalse => cases htaken
        case isTrue =>
          have htype : taken.func_type = ins.func_type := by
            rcases allocateInOrder_eq_some htaken with rfl | ⟨rfl, -⟩ <;> rfl
          unfold allocateInOrder at htaken
          split at htaken
          case isTrue => cases htaken
          case isFalse hnot =>
            rw [← htype, hmem, Bool.true_and] at hnot
            exact horder (Bool.eq_false_iff.2 hnot)
      case h_2 =>
        refine ih (horder.succ hins fun hseen => ?_) h htail
        simp only [IssueTemps.collect, Bool.or_eq_false_iff] at hseen
        refine ⟨hseen.1, fun hmem => ?_⟩
        rw [hseen.2] at hmem
        cases hmem

theorem findIssue_blocked {accepts : Nat → Bool} (temps : IssueTemps) (n : Nat)
    (rest : List (VanadisInstruction Op)) :
    (findIssue reg_stacks isa_table accepts temps n rest).2.blocked = temps.blocked := by
  induction rest generalizing temps n with
  | nil => rfl
  | cons ins rest ih =>
    rw [findIssue]
    split
    · exact ih _ _
    · split
      · rfl
      · exact ih _ _

theorem assignKind_isa (counted : Nat → Bool) (syscall : Bool) (stack : VanadisRegisterStack)
    (isa_table : VanadisISATable) (operands : Operands) :
    (assignKind counted syscall stack isa_table operands).1.isa_regs_in = operands.isa_regs_in ∧
      (assignKind counted syscall stack isa_table operands).1.isa_regs_out =
        operands.isa_regs_out := by
  unfold assignKind
  split <;> exact ⟨rfl, rfl⟩

/-- The core has taken an instruction of the thread: how its buffer changes, and what is
known of the instructions before it. -/
structure Takes
    (core core' : VanadisComponent Op hw_threads) (thr : Fin hw_threads)
    (before post : List (VanadisInstruction Op)) (ins ins' : VanadisInstruction Op) :
    Prop where
  rob : (core.threads thr).rob = before ++ ins :: post
  rob' : (core'.threads thr).rob = before ++ ins' :: post
  isa_options : (core'.threads thr).isa_options = (core.threads thr).isa_options
  other : ∀ t, t ≠ thr → core'.threads t = core.threads t
  not_issued : ins.hasIssued = false
  issued : ins'.hasIssued = true
  op : ins'.op = ins.op
  func_type : ins'.func_type = ins.func_type
  isa_in : ∀ kind, (ins'.regs kind).isa_regs_in = (ins.regs kind).isa_regs_in
  isa_out : ∀ kind, (ins'.regs kind).isa_regs_out = (ins.regs kind).isa_regs_out
  executed : ins.func_type.isMemory = true → ins'.hasExecuted = ins.hasExecuted
  in_set : ins.InSet (core.threads thr).isa_options
  clear : ∀ older ∈ before, Clear older ins
  in_order : ins.func_type.isMemory = true → ∀ x ∈ before,
    x.func_type.isMemory = true → x.hasIssued = true

theorem performIssue_takes {core core' : VanadisComponent Op hw_threads} {thr : Fin hw_threads}
    (hstart : temps.rob_start ≤ (core.threads thr).rob.length)
    (hcovers : temps.Covers ((core.threads thr).rob.take temps.rob_start))
    (horder : temps.InOrder (core.threads thr).rob temps.rob_start)
    (h : core.performIssue temps thr accepts = some (core', temps')) :
    (core' = core ∧ temps'.blocked = true) ∨
      ∃ before post ins ins', Takes core core' thr before post ins ins' ∧
        temps'.blocked = temps.blocked ∧ temps'.rob_start = before.length ∧
        temps'.Covers before ∧ temps'.InOrder (core.threads thr).rob before.length := by
  refine (VanadisComponent.performIssue_finds hstart hcovers h).imp_right ?_
  rintro ⟨before, post, ins, found, ins', hfinds⟩
  obtain ⟨seen, hfind, rfl⟩ := hfinds.find
  obtain ⟨hinOrder, hmemory⟩ := findIssue_memory horder hfind
  have hblocked := @findIssue_blocked _ core.register_stack
    (core.threads thr).issue_isa_table accepts temps temps.rob_start
    ((core.threads thr).rob.drop temps.rob_start)
  rw [hfind] at hblocked
  refine ⟨before, post, ins, ins', ?_, hblocked, rfl, hfinds.covers, hinOrder⟩
  obtain ⟨regs, rfl, hkind⟩ := hfinds.assigned
  obtain ⟨htype, hop, hexec⟩ : found.func_type = ins.func_type ∧ found.op = ins.op ∧
      (ins.func_type.isMemory = true → found.hasExecuted = ins.hasExecuted) := by
    rcases hfinds.executed with rfl | ⟨rfl, hnoop⟩
    · exact ⟨rfl, rfl, fun _ => rfl⟩
    · refine ⟨rfl, rfl, fun hmem => ?_⟩
      rcases hnoop with htype | htype <;> rw [htype] at hmem <;> cases hmem
  have hisa := fun kind => @assignKind_isa ((core.threads thr).isa_options.counted kind)
    ins.isSyscall (core.register_stack kind) ((core.threads thr).issue_isa_table kind)
    (ins.regs kind)
  simp only [hkind] at hisa
  have htake : (core.threads thr).rob.take before.length = before := by
    rw [hfinds.rob]
    exact take_left
  rw [htake] at hmemory
  exact { hfinds with
    rob' := by rw [hfinds.threads, update_self]
    isa_options := by rw [hfinds.threads, update_self]
    other := fun t ht => by rw [hfinds.threads, update_of_ne ht]
    issued := rfl
    op := hop
    func_type := htype
    isa_in := fun kind => (hisa kind).1
    isa_out := fun kind => (hisa kind).2
    executed := hexec
    in_order := fun hmem => hmemory (htype.symm ▸ hmem) }

namespace MemoryCore

variable {fenceType : Op → VanadisFenceType}
variable {m m' : MemoryCore Op hw_threads} {thr : Fin hw_threads}
variable {core' : VanadisComponent Op hw_threads}
variable {before post : List (VanadisInstruction Op)} {ins ins' : VanadisInstruction Op}
variable {lsq' : VanadisBasicLoadStoreQueue hw_threads} {pushed' : List (InsId hw_threads)}

/-- What happens to the queue when the instruction is taken: memory operations go to its
end. -/
inductive Pushes
    (fenceType : Op → VanadisFenceType) (m : MemoryCore Op hw_threads)
    (ins' : VanadisInstruction Op) (id : InsId hw_threads) :
    VanadisBasicLoadStoreQueue hw_threads → List (InsId hw_threads) → Prop
  | other
      (hmem : ins'.func_type.isMemory = false) : Pushes fenceType m ins' id m.lsq m.pushed
  | access
      {e : VanadisBasicLoadStoreEntry hw_threads}
      (hid : e.getInstruction = id)
      (hmatch : e.Matches fenceType ins')
      (haccess : ins'.isAccess = true) :
      Pushes fenceType m ins' id (m.lsq.push e) (m.pushed ++ [id])
  | fence
      {e : VanadisBasicLoadStoreEntry hw_threads}
      (hid : e.getInstruction = id)
      (hmatch : e.Matches fenceType ins')
      (haccess : ins'.isAccess = false)
      (hmem : ins'.func_type.isMemory = true) :
      Pushes fenceType m ins' id (m.lsq.push e) m.pushed

section

variable (htakes : Takes m.core core' thr before post ins ins')
include htakes

theorem lookup_of_takes (id : InsId hw_threads) :
    MemoryCore.lookup { m with core := core', lsq := lsq', pushed := pushed' } id =
      if id = ⟨thr, m.first_seq thr + before.length⟩ then some ins' else m.lookup id := by
  by_cases hthr : id.hw_thr = thr
  · rw [lookup_eq hthr, lookup_eq hthr]
    rw [htakes.rob, htakes.rob']
    by_cases hid : id = ⟨thr, m.first_seq thr + before.length⟩
    · subst hid
      rw [if_pos rfl, if_pos (Nat.le_add_right _ _)]
      rw [Nat.add_sub_cancel_left, getElem?_append_right le_rfl, Nat.sub_self]
      rfl
    · rw [if_neg hid]
      split
      case isTrue hle =>
        have hne : id.seq - m.first_seq thr ≠ before.length := by
          intro heq
          refine hid ?_
          rw [InsId.mk.injEq]
          dsimp only at hthr hle heq
          exact ⟨hthr, by omega⟩
        rcases Nat.lt_or_gt_of_ne hne with hlt | hgt
        · rw [getElem?_append_left hlt, getElem?_append_left hlt]
        · rw [getElem?_append_right hgt.le, getElem?_append_right hgt.le]
          obtain ⟨i, hi⟩ := Nat.exists_eq_add_of_lt hgt
          rw [hi, show before.length + i + 1 - before.length = i + 1 by omega]
          rfl
      case isFalse => rfl
  · rw [if_neg fun hid => hthr (congrArg InsId.hw_thr hid)]
    exact lookup_other (htakes.other _ hthr) rfl

theorem lookup_before : m.lookup ⟨thr, m.first_seq thr + before.length⟩ = some ins := by
  rw [lookup_eq rfl, htakes.rob, if_pos (by dsimp only; omega)]
  rw [Nat.add_sub_cancel_left, getElem?_append_right le_rfl, Nat.sub_self]
  rfl

theorem mem_before {x : VanadisInstruction Op} (hthr : id.hw_thr = thr)
    (hlt : id.seq < m.first_seq thr + before.length) (hx : m.lookup id = some x) :
    x ∈ before := by
  rw [lookup_eq hthr, htakes.rob] at hx
  split at hx
  case isFalse => cases hx
  case isTrue hle =>
    rw [getElem?_append_left (by omega)] at hx
    exact mem_of_getElem? hx

theorem next_seq_of_takes (t : Fin hw_threads) :
    MemoryCore.next_seq { m with core := core', lsq := lsq', pushed := pushed' } t =
      m.next_seq t := by
  unfold next_seq
  by_cases ht : t = thr
  · subst ht
    rw [htakes.rob, htakes.rob', length_append, length_append, length_cons, length_cons]
  · dsimp only
    rw [htakes.other t ht]

end

theorem Sound.before_taken (h : Sound fenceType m)
    (htakes : Takes m.core core' thr before post ins ins') (hmem : ins.func_type.isMemory = true)
    (hid : m.lsq.Holds id) :
    id.Before ⟨thr, m.first_seq thr + before.length⟩ := by
  intro hthr
  obtain ⟨x, hx, hissued, -, hmem'⟩ := h.queue.live hid
  have hold := lookup_before htakes
  by_contra hnot
  have hne : id ≠ ⟨thr, m.first_seq thr + before.length⟩ := by
    rintro rfl
    rw [hold, some.injEq] at hx
    rw [← hx, htakes.not_issued] at hissued
    cases hissued
  have hlt : m.first_seq thr + before.length < id.seq := by
    refine lt_of_le_of_ne (not_lt.1 hnot) fun heq => hne ?_
    rw [InsId.mk.injEq]
    exact ⟨hthr, heq.symm⟩
  have hins := h.rob.in_order ⟨thr, m.first_seq thr + before.length⟩ id ins x hthr.symm hlt hold
    hx hmem hmem' hissued
  rw [htakes.not_issued] at hins
  cases hins

section

variable (hpush : Pushes fenceType m ins' id lsq' pushed')
include hpush

theorem Pushes.holds (hid : lsq'.Holds id') :
    m.lsq.Holds id' ∨ ins'.func_type.isMemory = true ∧ id' = id := by
  have hnew : ∀ e : VanadisBasicLoadStoreEntry hw_threads, e.getInstruction = id →
      ins'.func_type.isMemory = true → (m.lsq.push e).Holds id' →
      m.lsq.Holds id' ∨ ins'.func_type.isMemory = true ∧ id' = id := by
    intro e he hmem hheld
    rcases hheld with ⟨e', he', heq⟩ | hheld
    · rcases mem_append.1 he' with he' | he'
      · exact .inl (.inl ⟨e', he', heq⟩)
      · rw [mem_singleton.1 he'] at heq
        exact .inr ⟨hmem, heq.symm.trans he⟩
    · exact .inl (.inr hheld)
  cases hpush with
  | other hmem => exact .inl hid
  | access he hmatch haccess =>
    exact hnew _ he (VanadisInstruction.isMemory_of_isAccess haccess) hid
  | fence he hmatch haccess hmem => exact hnew _ he hmem hid

theorem Pushes.mem_pushed (hid : id' ∈ pushed') :
    id' ∈ m.pushed ∨ ins'.isAccess = true ∧ id' = id := by
  cases hpush with
  | other hmem => exact .inl hid
  | access he hmatch haccess =>
    exact (mem_append.1 hid).imp_right fun hid => ⟨haccess, mem_singleton.1 hid⟩
  | fence he hmatch haccess hmem => exact .inl hid

/-- The queue gets no entry, or one that belongs to the instruction. -/
theorem Pushes.op_q_cases :
    lsq'.op_q = m.lsq.op_q ∨ ∃ e, lsq'.op_q = m.lsq.op_q ++ [e] ∧ e.getInstruction = id ∧
      e.Matches fenceType ins' ∧ ins'.func_type.isMemory = true := by
  cases hpush with
  | other hmem => exact .inl rfl
  | access he hmatch haccess =>
    exact .inr ⟨_, rfl, he, hmatch, VanadisInstruction.isMemory_of_isAccess haccess⟩
  | fence he hmatch haccess hmem => exact .inr ⟨_, rfl, he, hmatch, hmem⟩

theorem Pushes.fields :
    lsq'.loads_pending = m.lsq.loads_pending ∧ lsq'.stores_pending = m.lsq.stores_pending ∧
      lsq'.std_stores_in_flight = m.lsq.std_stores_in_flight ∧
      lsq'.next_id = m.lsq.next_id ∧ (∀ e ∈ m.lsq.op_q, e ∈ lsq'.op_q) ∧
      (∀ id' ∈ m.pushed, id' ∈ pushed') ∧
      (ins'.isAccess = true → id ∈ pushed' ∧ ∃ e ∈ lsq'.op_q, e.getInstruction = id) := by
  cases hpush with
  | other hmem =>
    refine ⟨rfl, rfl, rfl, rfl, fun _ he => he, fun _ hid => hid, fun haccess => ?_⟩
    rw [VanadisInstruction.isMemory_of_isAccess haccess] at hmem
    cases hmem
  | @access e he hmatch haccess =>
    exact ⟨rfl, rfl, rfl, rfl, fun _ he => mem_append_left _ he,
      fun _ hid => mem_append_left _ hid, fun _ =>
        ⟨mem_append_right _ (mem_singleton.2 rfl), e,
          mem_append_right _ (mem_singleton.2 rfl), he⟩⟩
  | fence he hmatch haccess hmem =>
    refine ⟨rfl, rfl, rfl, rfl, fun _ he => mem_append_left _ he, fun _ hid => hid,
      fun haccess' => ?_⟩
    rw [haccess] at haccess'
    cases haccess'

end

variable {e : VanadisBasicLoadStoreEntry hw_threads}

theorem pairwise_push {ids : List (InsId hw_threads)}
    {ops : List (VanadisBasicLoadStoreEntry hw_threads)}
    (h : (ids ++ ops.map VanadisBasicLoadStoreEntry.getInstruction).Pairwise InsId.Before)
    (hids : ∀ id ∈ ids, id.Before e.getInstruction)
    (hops : ∀ e' ∈ ops, e'.getInstruction.Before e.getInstruction) :
    (ids ++ (ops ++ [e]).map VanadisBasicLoadStoreEntry.getInstruction).Pairwise
      InsId.Before := by
  rw [map_append, ← append_assoc, pairwise_append]
  refine ⟨h, pairwise_singleton _ _, fun a ha b hb => ?_⟩
  rw [mem_singleton.1 hb]
  rcases mem_append.1 ha with ha | ha
  · exact hids a ha
  · obtain ⟨e', he', rfl⟩ := List.mem_map.1 ha
    exact hops e' he'

section Take

variable {x : VanadisInstruction Op}

section

variable (htakes : Takes m.core core' thr before post ins ins')
include htakes

theorem lookup_taken_cases
    (hx : MemoryCore.lookup { m with core := core', lsq := lsq', pushed := pushed' } id = some x) :
    id = ⟨thr, m.first_seq thr + before.length⟩ ∧ x = ins' ∨
      id ≠ ⟨thr, m.first_seq thr + before.length⟩ ∧ m.lookup id = some x := by
  rw [lookup_of_takes htakes] at hx
  split at hx
  case isTrue heq => exact .inl ⟨heq, (some.inj hx).symm⟩
  case isFalse hne => exact .inr ⟨hne, hx⟩

theorem lookup_taken :
    MemoryCore.lookup { m with core := core', lsq := lsq', pushed := pushed' }
      ⟨thr, m.first_seq thr + before.length⟩ = some ins' := by
  rw [lookup_of_takes htakes, if_pos rfl]

theorem isAccess_taken : ins'.isAccess = ins.isAccess := by
  rw [VanadisInstruction.isAccess, htakes.func_type, VanadisInstruction.isAccess]

theorem isSyscall_taken : ins'.isSyscall = ins.isSyscall := by
  rw [VanadisInstruction.isSyscall, htakes.func_type, VanadisInstruction.isSyscall]

variable (h : Sound fenceType m)
include h

/-- What the queue holds is not the instruction that is taken. -/
theorem Sound.lookup_taken_of_holds (hheld : m.lsq.Holds id) (hx : m.lookup id = some x) :
    MemoryCore.lookup { m with core := core', lsq := lsq', pushed := pushed' } id = some x := by
  rw [lookup_of_takes htakes, if_neg ?_, hx]
  rintro rfl
  obtain ⟨y, hy, hissued, -⟩ := h.queue.live hheld
  rw [lookup_before htakes, some.injEq] at hy
  rw [← hy, htakes.not_issued] at hissued
  cases hissued

theorem Sound.taken_not_executed (hmem : ins'.func_type.isMemory = true) :
    ins'.hasExecuted = false := by
  rw [htakes.func_type] at hmem
  rw [htakes.executed hmem]
  refine Bool.eq_false_iff.2 fun hdone => ?_
  have hissued := h.rob.executed _ ins (lookup_before htakes) hmem hdone
  rw [htakes.not_issued] at hissued
  cases hissued

/-- The buffer stays in order, also around the instruction that is taken. -/
theorem Sound.take_rob :
    RobOrder (fun t => (core'.threads t).isa_options)
      (MemoryCore.lookup { m with core := core', lsq := lsq', pushed := pushed' }) := by
  have hold := lookup_before htakes
  have hopts : (fun t => (core'.threads t).isa_options) =
      fun t => (m.core.threads t).isa_options := by
    funext t
    by_cases ht : t = thr
    · subst ht
      exact htakes.isa_options
    · exact congrArg HwThread.isa_options (htakes.other t ht)
  rw [hopts]
  exact {
    in_order := fun a b x y hthr hlt hx hy hmem hmem' hissued => by
      rcases lookup_taken_cases htakes hx with ⟨rfl, rfl⟩ | ⟨-, hx⟩
      · exact htakes.issued
      · rcases lookup_taken_cases htakes hy with ⟨rfl, rfl⟩ | ⟨-, hy⟩
        · rw [htakes.func_type] at hmem'
          exact htakes.in_order hmem' x (mem_before htakes hthr hlt hx) hmem
        · exact h.rob.in_order a b x y hthr hlt hx hy hmem hmem' hissued
    behind := fun a b x y hthr hlt hx hy hsys hacc => by
      rcases lookup_taken_cases htakes hy with ⟨rfl, rfl⟩ | ⟨-, hy⟩
      · -- the access would read a register that the call writes
        rcases lookup_taken_cases htakes hx with ⟨rfl, rfl⟩ | ⟨-, hx⟩
        · exact absurd hlt (lt_irrefl _)
        · obtain ⟨reg, hreg⟩ := exists_mem_of_ne_nil _
            (h.rob.reads_address _ ins hold (isAccess_taken htakes ▸ hacc))
          have hlt' := (htakes.in_set .int).1 reg hreg
          rw [show thr = a.hw_thr from hthr.symm] at hlt'
          exact absurd (h.rob.writes_all a x hx hsys reg hlt')
            ((htakes.clear x (mem_before htakes hthr hlt hx)).reads .int reg hreg)
      · rcases lookup_taken_cases htakes hx with ⟨rfl, rfl⟩ | ⟨-, hx⟩
        · exact h.rob.behind _ b ins y hthr hlt hold hy (isSyscall_taken htakes ▸ hsys) hacc
        · exact h.rob.behind a b x y hthr hlt hx hy hsys hacc
    executed := fun id x hx hmem hdone => by
      rcases lookup_taken_cases htakes hx with ⟨rfl, rfl⟩ | ⟨-, hx⟩
      · exact htakes.issued
      · exact h.rob.executed id x hx hmem hdone
    writes_all := fun id x hx hsys => by
      rcases lookup_taken_cases htakes hx with ⟨rfl, rfl⟩ | ⟨-, hx⟩
      · rw [htakes.isa_out]
        exact h.rob.writes_all _ ins hold (isSyscall_taken htakes ▸ hsys)
      · exact h.rob.writes_all id x hx hsys
    reads_address := fun id x hx hacc => by
      rcases lookup_taken_cases htakes hx with ⟨rfl, rfl⟩ | ⟨-, hx⟩
      · rw [htakes.isa_in]
        exact h.rob.reads_address _ ins hold (isAccess_taken htakes ▸ hacc)
      · exact h.rob.reads_address id x hx hacc }

/-- An entry of the instruction that is taken comes behind all others. -/
theorem Sound.take_orders (he : e.getInstruction = ⟨thr, m.first_seq thr + before.length⟩)
    (hmem : ins'.func_type.isMemory = true) :
    (m.lsq.loads_pending.map VanadisBasicLoadPendingEntry.ins ++
      (m.lsq.op_q ++ [e]).map VanadisBasicLoadStoreEntry.getInstruction).Pairwise InsId.Before ∧
    (m.lsq.stores_pending.map VanadisBasicStorePendingEntry.ins ++
      (m.lsq.op_q ++ [e]).map VanadisBasicLoadStoreEntry.getInstruction).Pairwise
        InsId.Before := by
  have hbefore : ∀ id, m.lsq.Holds id → id.Before e.getInstruction := by
    intro id hheld
    rw [he]
    exact h.before_taken htakes (htakes.func_type ▸ hmem) hheld
  refine ⟨pairwise_push h.queue.loads_order (fun id hmem' => ?_) fun e' he' =>
      hbefore _ (.inl ⟨e', he', rfl⟩),
    pairwise_push h.queue.stores_order (fun id hmem' => ?_) fun e' he' =>
      hbefore _ (.inl ⟨e', he', rfl⟩)⟩
  · obtain ⟨e', he', rfl⟩ := List.mem_map.1 hmem'
    exact hbefore _ (.inr (.inl ⟨e', he', rfl⟩))
  · obtain ⟨e', he', rfl⟩ := List.mem_map.1 hmem'
    exact hbefore _ (.inr (.inr ⟨e', he', rfl⟩))

theorem Sound.take_ops_live : ∀ e ∈ m.lsq.op_q,
    ∃ x, MemoryCore.lookup { m with core := core', lsq := lsq', pushed := pushed' }
        e.getInstruction = some x ∧
      x.hasIssued = true ∧ x.hasExecuted = false ∧ e.Matches fenceType x := by
  intro e he
  obtain ⟨x, hx, hrest⟩ := h.queue.ops_live e he
  exact ⟨x, h.lookup_taken_of_holds htakes (.inl ⟨e, he, rfl⟩) hx, hrest⟩

theorem Sound.take_pushed_live (he : e.getInstruction = ⟨thr, m.first_seq thr + before.length⟩)
    (hmatch : e.Matches fenceType ins') (hmem : ins'.func_type.isMemory = true) :
    ∀ e' ∈ m.lsq.op_q ++ [e],
      ∃ x, MemoryCore.lookup { m with core := core', lsq := lsq', pushed := pushed' }
          e'.getInstruction = some x ∧
        x.hasIssued = true ∧ x.hasExecuted = false ∧ e'.Matches fenceType x := by
  intro e' he'
  rcases mem_append.1 he' with he' | he'
  · exact h.take_ops_live htakes e' he'
  · rw [mem_singleton.1 he', he]
    exact ⟨ins', lookup_taken htakes, htakes.issued, h.taken_not_executed htakes hmem, hmatch⟩

end

variable (htakes : Takes m.core core' thr before post ins ins')
variable (hpush : Pushes fenceType m ins' ⟨thr, m.first_seq thr + before.length⟩ lsq' pushed')
include htakes hpush

theorem take_extends : m.Extends { m with core := core', lsq := lsq', pushed := pushed' } := by
  have hfresh (hmem : ins'.func_type.isMemory = true) :
      m.Fresh ⟨thr, m.first_seq thr + before.length⟩ :=
    .inr ⟨ins, lookup_before htakes, htakes.func_type ▸ hmem, htakes.not_issued⟩
  exact {
    next := fun t => (next_seq_of_takes htakes t).ge
    holds := fun id hheld => (hpush.holds hheld).imp_right fun hnew => by
      obtain ⟨hmem, rfl⟩ := hnew
      exact hfresh hmem
    lookup := fun id x hx hmem hnot => by
      rcases lookup_taken_cases htakes hx with ⟨-, rfl⟩ | ⟨-, hx⟩
      · rw [htakes.issued] at hnot
        cases hnot
      · exact .inr ⟨x, hx, hmem, hnot⟩
    pushed := fun id hmem => (hpush.mem_pushed hmem).imp_right fun hnew => by
      obtain ⟨hacc, rfl⟩ := hnew
      exact hfresh (VanadisInstruction.isMemory_of_isAccess hacc)
    squashed := fun _ hmem => hmem
    errors := fun _ hmem => hmem
    sent := fun _ hreq => hreq
    flight := fun _ hreq => .inl hreq }

variable (h : Sound fenceType m)
include h

/-- The queue stays sound when the instruction that is taken gets its entry. -/
theorem Sound.take_queue :
    QueueSound fenceType { m with core := core', lsq := lsq', pushed := pushed' } := by
  have hold := lookup_before htakes
  obtain ⟨hloads, hstores, hstd, hid, hops, hpushed, haccess⟩ := hpush.fields
  exact {
    ops_live := by
      rcases hpush.op_q_cases with hsame | ⟨e, hpushed, he, hmatch, hmem⟩
      · exact hsame ▸ h.take_ops_live htakes
      · exact hpushed ▸ h.take_pushed_live htakes he hmatch hmem
    loads_live := fun e he => by
      rw [hloads] at he
      obtain ⟨x, hx, hrest⟩ := h.queue.loads_live e he
      exact ⟨x, h.lookup_taken_of_holds htakes (.inr (.inl ⟨e, he, rfl⟩)) hx, hrest⟩
    stores_live := fun e he => by
      rw [hstores] at he
      obtain ⟨x, hx, hrest⟩ := h.queue.stores_live e he
      exact ⟨x, h.lookup_taken_of_holds htakes (.inr (.inr ⟨e, he, rfl⟩)) hx, hrest⟩
    loads_order := by
      rw [hloads]
      rcases hpush.op_q_cases with hsame | ⟨e, hpushed, he, hmatch, hmem⟩
      · exact hsame ▸ h.queue.loads_order
      · exact hpushed ▸ (h.take_orders htakes he hmem).1
    stores_order := by
      rw [hstores]
      rcases hpush.op_q_cases with hsame | ⟨e, hpushed, he, hmatch, hmem⟩
      · exact hsame ▸ h.queue.stores_order
      · exact hpushed ▸ (h.take_orders htakes he hmem).2
    ids_nodup := h.queue.ids_nodup
    ids_lt := fun req hreq => by
      rw [hid]
      exact h.queue.ids_lt req hreq
    reads := fun req hreq hread => by
      rw [hloads]
      exact h.queue.reads req hreq hread
    writes := fun req hreq hwrite => by
      rw [hstd, hstores]
      exact h.queue.writes req hreq hwrite
    dispatched := fun e he => h.queue.dispatched e (hstores ▸ he)
    accounted := fun id' hmem => by
      rw [hstores]
      rcases hpush.mem_pushed hmem with hmem | ⟨hacc, rfl⟩
      · exact (h.queue.accounted id' hmem).imp_right fun hrest =>
          hrest.imp_left fun hold => hold.imp fun e he => ⟨hops e he.1, he.2⟩
      · exact .inr (.inl (haccess hacc).2)
    issued_pushed := fun id' x hx hacc hissued => by
      rcases lookup_taken_cases htakes hx with ⟨rfl, rfl⟩ | ⟨-, hx⟩
      · exact (haccess hacc).1
      · exact hpushed _ (h.queue.issued_pushed id' x hx hacc hissued)
    pushed_live := fun id' hmem => by
      rw [next_seq_of_takes htakes]
      rcases hpush.mem_pushed hmem with hmem | ⟨hacc, rfl⟩
      · obtain ⟨hlt, hrest⟩ := h.queue.pushed_live id' hmem
        refine ⟨hlt, fun x hx => ?_⟩
        rcases lookup_taken_cases htakes hx with ⟨rfl, rfl⟩ | ⟨-, hx⟩
        · have hissued := (hrest ins hold).2
          rw [htakes.not_issued] at hissued
          cases hissued
        · exact hrest x hx
      · refine ⟨(lookup_lt hold).2, fun x hx => ?_⟩
        rcases lookup_taken_cases htakes hx with ⟨-, rfl⟩ | ⟨hne, -⟩
        · exact ⟨hacc, htakes.issued⟩
        · exact absurd rfl hne }

/-- An instruction that is issued, with its entry in the queue, keeps the state sound. -/
theorem Sound.take : Sound fenceType { m with core := core', lsq := lsq', pushed := pushed' } where
  rob := h.take_rob htakes
  queue := h.take_queue htakes hpush
  fences := fun id x hx hfull hdone => by
    rcases lookup_taken_cases htakes hx with ⟨rfl, rfl⟩ | ⟨-, hx⟩
    · rw [h.taken_not_executed htakes (VanadisInstruction.isMemory_of_isFullFence hfull)] at hdone
      cases hdone
    · exact (h.fences id x hx hfull hdone).extends (take_extends htakes hpush)
  syscalls := fun id x hx hsys => by
    have hold := lookup_before htakes
    have hbefore : m.Settled id.hw_thr id.seq ∨ ∃ p y, p.hw_thr = id.hw_thr ∧
        p.seq + 1 = id.seq ∧ m.lookup p = some y ∧ y.isFullFence fenceType = true := by
      rcases lookup_taken_cases htakes hx with ⟨rfl, rfl⟩ | ⟨-, hx⟩
      · exact h.syscalls _ ins hold (isSyscall_taken htakes ▸ hsys)
      · exact h.syscalls id x hx hsys
    refine hbefore.imp (fun hsettled => hsettled.extends (take_extends htakes hpush)) ?_
    rintro ⟨p, y, hthr, hseq, hy, hfull⟩
    by_cases hp : p = ⟨thr, m.first_seq thr + before.length⟩
    · subst hp
      rw [hold, some.injEq] at hy
      subst hy
      refine ⟨_, ins', hthr, hseq, lookup_taken htakes, ?_⟩
      rw [VanadisInstruction.isFullFence, htakes.func_type, htakes.op]
      exact hfull
    · exact ⟨p, y, hthr, hseq, by rw [lookup_of_takes htakes, if_neg hp, hy], hfull⟩

end Take

end MemoryCore

end SstElements.Vanadis
