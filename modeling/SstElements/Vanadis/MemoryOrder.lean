import SstElements.Vanadis.MemoryCore

/-!
# What the queue and the buffers say about memory operations

Memory operations issue in program order and go through the queue in that order.  Every
request in flight is for an instruction that the queue still waits for, a standard store
that it counts, or an instruction that was squashed.
-/

namespace SstElements.Vanadis

open Library Option

universe u

variable {Op : Type u} {hw_threads : Nat}

/-- Loads and stores. -/
def VanadisInstruction.isAccess (ins : VanadisInstruction Op) : Bool :=
  ins.func_type = .INST_LOAD ∨ ins.func_type = .INST_STORE

variable {ins : VanadisInstruction Op} {fenceType : Op → VanadisFenceType}

theorem VanadisInstruction.isMemory_of_isAccess (h : ins.isAccess = true) :
    ins.func_type.isMemory = true := by
  rcases of_decide_eq_true h with h | h <;> rw [h] <;> rfl

def VanadisInstruction.isFullFence
    (fenceType : Op → VanadisFenceType) (ins : VanadisInstruction Op) : Bool :=
  ins.func_type = .INST_FENCE ∧ fenceType ins.op = .VANADIS_LOAD_STORE_FENCE

theorem VanadisInstruction.isMemory_of_isFullFence (h : ins.isFullFence fenceType = true) :
    ins.func_type.isMemory = true := by
  rw [(of_decide_eq_true h).1]
  rfl

theorem VanadisInstruction.isAccess_of_isFullFence (h : ins.isFullFence fenceType = true) :
    ins.isAccess = false := by
  rw [VanadisInstruction.isAccess, (of_decide_eq_true h).1]
  rfl

/-- The instruction is in the queue or waits for an answer there. -/
def VanadisBasicLoadStoreQueue.Holds
    (lsq : VanadisBasicLoadStoreQueue hw_threads) (id : InsId hw_threads) : Prop :=
  (∃ e ∈ lsq.op_q, e.getInstruction = id) ∨ (∃ e ∈ lsq.loads_pending, e.ins = id) ∨
    ∃ e ∈ lsq.stores_pending, e.ins = id

/-- The first instruction is the older one, if both are of one thread. -/
def InsId.Before (a b : InsId hw_threads) : Prop := a.hw_thr = b.hw_thr → a.seq < b.seq

def VanadisBasicLoadStoreEntry.Matches
    (fenceType : Op → VanadisFenceType) (ins : VanadisInstruction Op) :
    VanadisBasicLoadStoreEntry hw_threads → Prop
  | .load _ _ => ins.func_type = .INST_LOAD
  | .store _ _ => ins.func_type = .INST_STORE
  | .fence _ type => ins.func_type = .INST_FENCE ∧ fenceType ins.op = type

/-- The instruction has made progress, other than in the queue. -/
structure VanadisInstruction.Progress (ins ins' : VanadisInstruction Op) : Prop where
  regs : ins'.regs = ins.regs
  op : ins'.op = ins.op
  func_type : ins'.func_type = ins.func_type
  hasIssued : ins'.hasIssued = ins.hasIssued
  hasExecuted : ins.func_type.isMemory = true → ins'.hasExecuted = ins.hasExecuted

namespace VanadisInstruction.Progress

variable {ins ins' : VanadisInstruction Op}

theorem refl (ins : VanadisInstruction Op) : Progress ins ins :=
  ⟨rfl, rfl, rfl, rfl, fun _ => rfl⟩

theorem similar (h : Progress ins ins') : Similar ins ins' :=
  ⟨h.regs, h.func_type, h.hasIssued⟩

theorem isAccess (h : Progress ins ins') : ins'.isAccess = ins.isAccess := by
  rw [VanadisInstruction.isAccess, VanadisInstruction.isAccess, h.func_type]

theorem isSyscall (h : Progress ins ins') : ins'.isSyscall = ins.isSyscall := by
  rw [VanadisInstruction.isSyscall, VanadisInstruction.isSyscall, h.func_type]

variable {fenceType : Op → VanadisFenceType}

theorem isFullFence (h : Progress ins ins') :
    ins'.isFullFence fenceType = ins.isFullFence fenceType := by
  rw [VanadisInstruction.isFullFence, VanadisInstruction.isFullFence, h.func_type, h.op]

theorem «matches» {e : VanadisBasicLoadStoreEntry hw_threads} (h : Progress ins ins')
    (he : e.Matches fenceType ins) :
    e.Matches fenceType ins' := by
  cases e with
  | load _ _ => exact h.func_type.trans he
  | store _ _ => exact h.func_type.trans he
  | fence _ type => exact ⟨h.func_type.trans he.1, by rw [h.op]; exact he.2⟩

end VanadisInstruction.Progress

namespace MemoryCore

variable {fenceType : Op → VanadisFenceType}
variable {m m' : MemoryCore Op hw_threads} {thr : Fin hw_threads} {n : Nat}

/-- A memory operation that has not issued yet. -/
def Fresh (m : MemoryCore Op hw_threads) (id : InsId hw_threads) : Prop :=
  m.next_seq id.hw_thr ≤ id.seq ∨
    ∃ ins, m.lookup id = some ins ∧ ins.func_type.isMemory = true ∧ ins.hasIssued = false

/-- The access has been sent, unless it traps, and all its requests are answered. -/
def Acknowledged (m : MemoryCore Op hw_threads) (id : InsId hw_threads) : Prop :=
  (id ∈ m.errors ∨ ∃ req ∈ m.sent, req.ins = id) ∧ ∀ req ∈ m.in_flight, req.ins ≠ id

/-- All loads and stores of the thread before place `n` have been given to the queue, and
those that were not squashed have been acknowledged. -/
structure Drained (m : MemoryCore Op hw_threads) (thr : Fin hw_threads) (n : Nat) : Prop where
  pushed : ∀ id ins, m.lookup id = some ins → id.hw_thr = thr → id.seq < n →
    ins.isAccess = true → id ∈ m.pushed
  acknowledged : ∀ id ∈ m.pushed, id.hw_thr = thr → id.seq < n → id ∉ m.squashed →
    m.Acknowledged id

/-- A load-store fence that is executed, and a system call that is at the front of its
buffer, have the memory operations before them drained. -/
def DrainsMemory (fenceType : Op → VanadisFenceType) (m : MemoryCore Op hw_threads) : Prop :=
  (∀ id ins, m.lookup id = some ins → ins.isFullFence fenceType = true →
    ins.hasExecuted = true → m.Drained id.hw_thr id.seq) ∧
  ∀ thr rob_front rest, (m.core.threads thr).rob = rob_front :: rest →
    rob_front.isSyscall = true → m.Drained thr (m.first_seq thr)

/-- The memory operations of the thread before place `n` are done. -/
structure Settled (m : MemoryCore Op hw_threads) (thr : Fin hw_threads) (n : Nat) : Prop where
  bound : n ≤ m.next_seq thr
  held : ∀ id, m.lsq.Holds id → id.hw_thr = thr → n ≤ id.seq
  issued : ∀ id ins, m.lookup id = some ins → id.hw_thr = thr → id.seq < n →
    ins.func_type.isMemory = true → ins.hasIssued = true
  acknowledged : ∀ id ∈ m.pushed, id.hw_thr = thr → id.seq < n → id ∉ m.squashed →
    m.Acknowledged id

/-- What a step adds to the history concerns memory operations that the queue holds or
that have just issued. -/
structure Extends (m m' : MemoryCore Op hw_threads) : Prop where
  next : ∀ thr, m.next_seq thr ≤ m'.next_seq thr
  holds : ∀ id, m'.lsq.Holds id → m.lsq.Holds id ∨ m.Fresh id
  lookup : ∀ id ins, m'.lookup id = some ins → ins.func_type.isMemory = true →
    ins.hasIssued = false → m.Fresh id
  pushed : ∀ id ∈ m'.pushed, id ∈ m.pushed ∨ m.Fresh id
  squashed : ∀ id ∈ m.squashed, id ∈ m'.squashed
  errors : ∀ id ∈ m.errors, id ∈ m'.errors
  sent : ∀ req ∈ m.sent, req ∈ m'.sent
  flight : ∀ req ∈ m'.in_flight, req ∈ m.in_flight ∨ m.lsq.Holds req.ins

variable {id : InsId hw_threads} {x : VanadisInstruction Op}
variable {opts : Fin hw_threads → VanadisDecoderOptions}
variable {lookup lookup' : InsId hw_threads → Option (VanadisInstruction Op)}

theorem Settled.le_of_fresh (h : m.Settled thr n) (hfresh : m.Fresh id) (hthr : id.hw_thr = thr) :
    n ≤ id.seq := by
  rcases hfresh with hnext | ⟨ins, hins, hmem, hnot⟩
  · exact (h.bound.trans (hthr ▸ le_rfl)).trans hnext
  · by_contra hlt
    have hissued := h.issued id ins hins hthr (by omega) hmem
    rw [hnot] at hissued
    cases hissued

theorem Settled.extends (h : m.Settled thr n) (hext : m.Extends m') : m'.Settled thr n where
  bound := h.bound.trans (hext.next thr)
  held := fun id hid hthr =>
    (hext.holds id hid).elim (fun hold => h.held id hold hthr) fun hfresh =>
      h.le_of_fresh hfresh hthr
  issued := fun id ins hins hthr hlt hmem => by
    by_contra hnot
    have hle := h.le_of_fresh (hext.lookup id ins hins hmem (Bool.eq_false_iff.2 hnot)) hthr
    omega
  acknowledged := fun id hid hthr hlt hsquashed => by
    have hold : id ∈ m.pushed := (hext.pushed id hid).resolve_right fun hfresh => by
      have hle := h.le_of_fresh hfresh hthr
      omega
    obtain ⟨hsent, hflight⟩ := h.acknowledged id hold hthr hlt
      fun hmem => hsquashed (hext.squashed id hmem)
    refine ⟨hsent.imp (hext.errors id) fun ⟨req, hreq, heq⟩ => ⟨req, hext.sent req hreq, heq⟩,
      fun req hreq heq => ?_⟩
    rcases hext.flight req hreq with hreq | hheld
    · exact hflight req hreq heq
    · have hle := h.held req.ins hheld (heq ▸ hthr)
      rw [heq] at hle
      omega

/-- The buffers: memory operations issue in order, and none behind a system call, which
writes the register of every address. -/
structure RobOrder
    (opts : Fin hw_threads → VanadisDecoderOptions)
    (lookup : InsId hw_threads → Option (VanadisInstruction Op)) : Prop where
  in_order : ∀ a b x y, a.hw_thr = b.hw_thr → a.seq < b.seq → lookup a = some x →
    lookup b = some y → x.func_type.isMemory = true → y.func_type.isMemory = true →
    y.hasIssued = true → x.hasIssued = true
  behind : ∀ a b x y, a.hw_thr = b.hw_thr → a.seq < b.seq → lookup a = some x →
    lookup b = some y → x.isSyscall = true → y.isAccess = true → y.hasIssued = false
  executed : ∀ id x, lookup id = some x → x.func_type.isMemory = true →
    x.hasExecuted = true → x.hasIssued = true
  writes_all : ∀ id x, lookup id = some x → x.isSyscall = true →
    ∀ reg < (opts id.hw_thr).count_isa_reg .int, reg ∈ (x.regs .int).isa_regs_out
  reads_address : ∀ id x, lookup id = some x → x.isAccess = true →
    (x.regs .int).isa_regs_in ≠ []

/-- The queue holds instructions that are in the buffers and not executed, and accounts
for the requests in flight. -/
structure QueueSound (fenceType : Op → VanadisFenceType) (m : MemoryCore Op hw_threads) : Prop where
  ops_live : ∀ e ∈ m.lsq.op_q, ∃ x, m.lookup e.getInstruction = some x ∧
    x.hasIssued = true ∧ x.hasExecuted = false ∧ e.Matches fenceType x
  loads_live : ∀ e ∈ m.lsq.loads_pending, ∃ x, m.lookup e.ins = some x ∧
    x.hasIssued = true ∧ x.hasExecuted = false ∧ x.func_type = .INST_LOAD
  stores_live : ∀ e ∈ m.lsq.stores_pending, ∃ x, m.lookup e.ins = some x ∧
    x.hasIssued = true ∧ x.hasExecuted = false ∧ x.func_type = .INST_STORE
  loads_order : (m.lsq.loads_pending.map VanadisBasicLoadPendingEntry.ins ++
    m.lsq.op_q.map VanadisBasicLoadStoreEntry.getInstruction).Pairwise InsId.Before
  stores_order : (m.lsq.stores_pending.map VanadisBasicStorePendingEntry.ins ++
    m.lsq.op_q.map VanadisBasicLoadStoreEntry.getInstruction).Pairwise InsId.Before
  ids_nodup : (m.in_flight.map MemRequest.id).Nodup
  ids_lt : ∀ req ∈ m.in_flight, req.id < m.lsq.next_id
  reads : ∀ req ∈ m.in_flight, req.kind.isRead = true → req.ins ∈ m.squashed ∨
    ∃ e ∈ m.lsq.loads_pending, e.ins = req.ins ∧ req.id ∈ e.requests
  writes : ∀ req ∈ m.in_flight, req.kind.isRead = false → req.ins ∈ m.squashed ∨
    req.id ∈ m.lsq.std_stores_in_flight ∨
      ∃ e ∈ m.lsq.stores_pending, e.ins = req.ins ∧ e.requests = [req.id]
  dispatched : ∀ e ∈ m.lsq.stores_pending, e.dispatched = false ∧ e.requests = [] ∨
    e.dispatched = true ∧ ∃ req ∈ m.sent, req.ins = e.ins ∧ e.requests = [req.id]
  accounted : ∀ id ∈ m.pushed, id ∈ m.squashed ∨
    (∃ e ∈ m.lsq.op_q, e.getInstruction = id) ∨ (∃ e ∈ m.lsq.stores_pending, e.ins = id) ∨
      id ∈ m.errors ∨ ∃ req ∈ m.sent, req.ins = id
  issued_pushed : ∀ id x, m.lookup id = some x → x.isAccess = true → x.hasIssued = true →
    id ∈ m.pushed
  pushed_live : ∀ id ∈ m.pushed, id.seq < m.next_seq id.hw_thr ∧
    ∀ x, m.lookup id = some x → x.isAccess = true ∧ x.hasIssued = true

/-- What holds in every state. -/
structure Sound (fenceType : Op → VanadisFenceType) (m : MemoryCore Op hw_threads) : Prop where
  rob : RobOrder (fun thr => (m.core.threads thr).isa_options) m.lookup
  queue : QueueSound fenceType m
  fences : ∀ id x, m.lookup id = some x → x.isFullFence fenceType = true →
    x.hasExecuted = true → m.Settled id.hw_thr id.seq
  syscalls : ∀ id x, m.lookup id = some x → x.isSyscall = true →
    m.Settled id.hw_thr id.seq ∨
      ∃ p y, p.hw_thr = id.hw_thr ∧ p.seq + 1 = id.seq ∧ m.lookup p = some y ∧
        y.isFullFence fenceType = true

theorem QueueSound.live (h : QueueSound fenceType m) (hid : m.lsq.Holds id) :
    ∃ x, m.lookup id = some x ∧ x.hasIssued = true ∧ x.hasExecuted = false ∧
      x.func_type.isMemory = true := by
  rcases hid with ⟨e, he, rfl⟩ | ⟨e, he, rfl⟩ | ⟨e, he, rfl⟩
  · obtain ⟨x, hx, hissued, hnot, hmatch⟩ := h.ops_live e he
    refine ⟨x, hx, hissued, hnot, ?_⟩
    cases e with
    | load _ _ => rw [show x.func_type = .INST_LOAD from hmatch]; rfl
    | store _ _ => rw [show x.func_type = .INST_STORE from hmatch]; rfl
    | fence _ _ => rw [hmatch.1]; rfl
  · obtain ⟨x, hx, hissued, hnot, htype⟩ := h.loads_live e he
    exact ⟨x, hx, hissued, hnot, by rw [htype]; rfl⟩
  · obtain ⟨x, hx, hissued, hnot, htype⟩ := h.stores_live e he
    exact ⟨x, hx, hissued, hnot, by rw [htype]; rfl⟩

theorem lookup_lt (h : m.lookup id = some x) :
    m.first_seq id.hw_thr ≤ id.seq ∧ id.seq < m.next_seq id.hw_thr := by
  unfold lookup at h
  split at h
  case isTrue hle =>
    have hlt := (List.getElem?_eq_some_iff.1 h).1
    rw [next_seq]
    exact ⟨hle, by omega⟩
  case isFalse => cases h

theorem Settled.drained (h : m.Settled thr n) (hqueue : QueueSound fenceType m) :
    m.Drained thr n where
  pushed := fun id ins hins hthr hlt haccess =>
    hqueue.issued_pushed id ins hins haccess
      (h.issued id ins hins hthr hlt (VanadisInstruction.isMemory_of_isAccess haccess))
  acknowledged := h.acknowledged

theorem Sound.drainsMemory (h : Sound fenceType m) : DrainsMemory fenceType m := by
  refine ⟨fun id ins hins hfence hexec => (h.fences id ins hins hfence hexec).drained h.queue,
    fun thr front rest hrob hsys => ?_⟩
  have hlookup : m.lookup ⟨thr, m.first_seq thr⟩ = some front := by
    rw [lookup, if_pos le_rfl]
    simp [hrob]
  rcases h.syscalls _ _ hlookup hsys with hsettled | ⟨p, y, hthr, hseq, hy, -⟩
  · exact hsettled.drained h.queue
  · have hlt := (lookup_lt hy).1
    rw [hthr] at hlt
    dsimp only at hseq hlt
    omega

theorem Settled.succ {p : InsId hw_threads} {y : VanadisInstruction Op}
    (h : m.Settled p.hw_thr p.seq) (hsound : Sound fenceType m) (hy : m.lookup p = some y)
    (hfence : y.isFullFence fenceType = true) (hexecuted : y.hasExecuted = true) :
    m.Settled p.hw_thr (p.seq + 1) := by
  have heq : ∀ id : InsId hw_threads, id.hw_thr = p.hw_thr → id.seq = p.seq → id = p := by
    rintro ⟨thr, seq⟩ hthr hseq
    dsimp only at hthr hseq
    rw [hthr, hseq]
  exact {
    bound := (lookup_lt hy).2
    held := fun id hid hthr => by
      have hle := h.held id hid hthr
      by_contra hlt
      obtain ⟨x, hx, -, hnot, -⟩ := hsound.queue.live hid
      rw [heq id hthr (by omega), hy, Option.some.injEq] at hx
      rw [← hx, hexecuted] at hnot
      cases hnot
    issued := fun id ins hins hthr hlt hmem => by
      by_cases hseq : id.seq = p.seq
      · rw [heq id hthr hseq, hy, Option.some.injEq] at hins
        rw [← hins]
        exact hsound.rob.executed p y hy (VanadisInstruction.isMemory_of_isFullFence hfence)
          hexecuted
      · exact h.issued id ins hins hthr (by omega) hmem
    acknowledged := fun id hid hthr hlt hsquashed => by
      by_cases hseq : id.seq = p.seq
      · rw [heq id hthr hseq] at hid
        have haccess := ((hsound.queue.pushed_live p hid).2 y hy).1
        rw [VanadisInstruction.isAccess_of_isFullFence hfence] at haccess
        cases haccess
      · exact h.acknowledged id hid hthr (by omega) hsquashed }

/-- Instructions make progress outside of the queue, retire or are squashed; the queue
may lose what is squashed, and fences. -/
structure Recedes (m m' : MemoryCore Op hw_threads) : Prop where
  options : ∀ thr, (m'.core.threads thr).isa_options = (m.core.threads thr).isa_options
  lookup : ∀ id x', m'.lookup id = some x' → ∃ x, m.lookup id = some x ∧ x.Progress x'
  gone : ∀ id x, m.lookup id = some x → m'.lookup id = none → x.hasExecuted = true ∨
    id ∈ m'.squashed ∧ ∀ id', id'.hw_thr = id.hw_thr → m'.lookup id' = none
  next : ∀ thr, m.next_seq thr ≤ m'.next_seq thr
  op_q : m'.lsq.op_q.Sublist m.lsq.op_q
  loads_pending : m'.lsq.loads_pending.Sublist m.lsq.loads_pending
  stores_pending : m'.lsq.stores_pending.Sublist m.lsq.stores_pending
  std_stores_in_flight : m'.lsq.std_stores_in_flight = m.lsq.std_stores_in_flight
  next_id : m'.lsq.next_id = m.lsq.next_id
  dropped_ops : ∀ e ∈ m.lsq.op_q, e ∈ m'.lsq.op_q ∨ e.getInstruction ∈ m'.squashed ∨
    e.getInstruction ∈ m'.errors ∨
      ∃ x, m.lookup e.getInstruction = some x ∧ x.isAccess = false
  dropped_loads : ∀ e ∈ m.lsq.loads_pending, e ∈ m'.lsq.loads_pending ∨ e.ins ∈ m'.squashed
  dropped_stores : ∀ e ∈ m.lsq.stores_pending,
    e ∈ m'.lsq.stores_pending ∨ e.ins ∈ m'.squashed
  kept : ∀ id, m'.lsq.Holds id → m'.lookup id ≠ none
  pushed : m'.pushed = m.pushed
  sent : m'.sent = m.sent
  errors : ∀ id ∈ m.errors, id ∈ m'.errors
  in_flight : m'.in_flight = m.in_flight
  squashed : ∀ id ∈ m.squashed, id ∈ m'.squashed

theorem Recedes.holds (h : m.Recedes m') (hid : m'.lsq.Holds id) : m.lsq.Holds id := by
  rcases hid with ⟨e, he, heq⟩ | ⟨e, he, heq⟩ | ⟨e, he, heq⟩
  · exact .inl ⟨e, h.op_q.subset he, heq⟩
  · exact .inr (.inl ⟨e, h.loads_pending.subset he, heq⟩)
  · exact .inr (.inr ⟨e, h.stores_pending.subset he, heq⟩)

theorem Recedes.extends (h : m.Recedes m') : m.Extends m' where
  __ := h
  holds := fun id hid => .inl (h.holds hid)
  lookup := fun id x' hx' hmem hnot => by
    obtain ⟨x, hx, hprogress⟩ := h.lookup id x' hx'
    exact .inr ⟨x, hx, hprogress.func_type ▸ hmem, hprogress.hasIssued ▸ hnot⟩
  pushed := fun id hid => .inl (h.pushed ▸ hid)
  sent := fun req hreq => h.sent ▸ hreq
  flight := fun req hreq => .inl (h.in_flight ▸ hreq)

theorem Recedes.live (h : m.Recedes m') (hid : m'.lsq.Holds id) (hx : m.lookup id = some x) :
    ∃ x', m'.lookup id = some x' ∧ x.Progress x' := by
  obtain ⟨x', hx'⟩ := ne_none_iff_exists'.1 (h.kept id hid)
  obtain ⟨x₀, hx₀, hprogress⟩ := h.lookup id x' hx'
  obtain rfl : x₀ = x := some.inj (hx₀.symm.trans hx)
  exact ⟨x', hx', hprogress⟩

theorem RobOrder.of_similar (h : RobOrder opts lookup)
    (hlookup : ∀ id x', lookup' id = some x' → ∃ x, lookup id = some x ∧ x.Similar x')
    (hexecuted : ∀ id x', lookup' id = some x' → x'.func_type.isMemory = true →
      x'.hasExecuted = true → x'.hasIssued = true) :
    RobOrder opts lookup' where
  in_order := fun a b x' y' hthr hlt hx' hy' hmem hmem' hissued => by
    obtain ⟨x, hx, hsimilar⟩ := hlookup a x' hx'
    obtain ⟨y, hy, hsimilar'⟩ := hlookup b y' hy'
    rw [hsimilar.hasIssued]
    rw [hsimilar.func_type] at hmem
    rw [hsimilar'.func_type] at hmem'
    rw [hsimilar'.hasIssued] at hissued
    exact h.in_order a b x y hthr hlt hx hy hmem hmem' hissued
  behind := fun a b x' y' hthr hlt hx' hy' hsys haccess => by
    obtain ⟨x, hx, hsimilar⟩ := hlookup a x' hx'
    obtain ⟨y, hy, hsimilar'⟩ := hlookup b y' hy'
    rw [hsimilar.isSyscall] at hsys
    rw [VanadisInstruction.isAccess, hsimilar'.func_type, ← VanadisInstruction.isAccess]
      at haccess
    rw [hsimilar'.hasIssued]
    exact h.behind a b x y hthr hlt hx hy hsys haccess
  executed := hexecuted
  writes_all := fun id x' hx' hsys => by
    obtain ⟨x, hx, hsimilar⟩ := hlookup id x' hx'
    rw [hsimilar.isSyscall] at hsys
    rw [hsimilar.regs]
    exact h.writes_all id x hx hsys
  reads_address := fun id x' hx' haccess => by
    obtain ⟨x, hx, hsimilar⟩ := hlookup id x' hx'
    rw [VanadisInstruction.isAccess, hsimilar.func_type, ← VanadisInstruction.isAccess]
      at haccess
    rw [hsimilar.regs]
    exact h.reads_address id x hx haccess

theorem RobOrder.recedes (h : RobOrder opts lookup)
    (hlookup : ∀ id x', lookup' id = some x' → ∃ x, lookup id = some x ∧ x.Progress x') :
    RobOrder opts lookup' := by
  refine h.of_similar (fun id x' hx' => ?_) fun id x' hx' hmem hexec => ?_
  · obtain ⟨x, hx, hprogress⟩ := hlookup id x' hx'
    exact ⟨x, hx, hprogress.similar⟩
  · obtain ⟨x, hx, hprogress⟩ := hlookup id x' hx'
    rw [hprogress.func_type] at hmem
    rw [hprogress.hasExecuted hmem] at hexec
    rw [hprogress.hasIssued]
    exact h.executed id x hx hmem hexec

theorem QueueSound.recedes (h : QueueSound fenceType m) (hr : m.Recedes m') :
    QueueSound fenceType m' where
  ops_live := fun e he => by
    obtain ⟨x, hx, hissued, hnot, hmatch⟩ := h.ops_live e (hr.op_q.subset he)
    obtain ⟨x', hx', hprogress⟩ := hr.live (.inl ⟨e, he, rfl⟩) hx
    obtain ⟨y, hy, -, -, hmem⟩ := h.live (.inl ⟨e, hr.op_q.subset he, rfl⟩)
    obtain rfl : x = y := some.inj (hx.symm.trans hy)
    exact ⟨x', hx', hprogress.hasIssued.trans hissued,
      (hprogress.hasExecuted hmem).trans hnot, hprogress.matches hmatch⟩
  loads_live := fun e he => by
    obtain ⟨x, hx, hissued, hnot, htype⟩ := h.loads_live e (hr.loads_pending.subset he)
    obtain ⟨x', hx', hprogress⟩ := hr.live (.inr (.inl ⟨e, he, rfl⟩)) hx
    exact ⟨x', hx', hprogress.hasIssued.trans hissued,
      (hprogress.hasExecuted (by rw [htype]; rfl)).trans hnot, hprogress.func_type.trans htype⟩
  stores_live := fun e he => by
    obtain ⟨x, hx, hissued, hnot, htype⟩ := h.stores_live e (hr.stores_pending.subset he)
    obtain ⟨x', hx', hprogress⟩ := hr.live (.inr (.inr ⟨e, he, rfl⟩)) hx
    exact ⟨x', hx', hprogress.hasIssued.trans hissued,
      (hprogress.hasExecuted (by rw [htype]; rfl)).trans hnot, hprogress.func_type.trans htype⟩
  loads_order := h.loads_order.sublist ((hr.loads_pending.map _).append (hr.op_q.map _))
  stores_order := h.stores_order.sublist ((hr.stores_pending.map _).append (hr.op_q.map _))
  ids_nodup := hr.in_flight ▸ h.ids_nodup
  ids_lt := fun req hreq => by
    rw [hr.next_id]
    exact h.ids_lt req (hr.in_flight ▸ hreq)
  reads := fun req hreq hread => by
    rcases h.reads req (hr.in_flight ▸ hreq) hread with hsquashed | ⟨e, he, heq, hreqs⟩
    · exact .inl (hr.squashed _ hsquashed)
    · exact (hr.dropped_loads e he).symm.imp (fun hsquashed => heq ▸ hsquashed)
        fun he' => ⟨e, he', heq, hreqs⟩
  writes := fun req hreq hwrite => by
    rcases h.writes req (hr.in_flight ▸ hreq) hwrite with hsquashed | hstd | ⟨e, he, heq, hreqs⟩
    · exact .inl (hr.squashed _ hsquashed)
    · exact .inr (.inl (hr.std_stores_in_flight ▸ hstd))
    · exact (hr.dropped_stores e he).symm.imp (fun hsquashed => heq ▸ hsquashed)
        fun he' => .inr ⟨e, he', heq, hreqs⟩
  dispatched := fun e he => by
    rw [hr.sent]
    exact h.dispatched e (hr.stores_pending.subset he)
  accounted := fun id hid => by
    rw [hr.sent]
    rcases h.accounted id (hr.pushed ▸ hid) with
      hsquashed | ⟨e, he, heq⟩ | ⟨e, he, heq⟩ | herror | hsent
    · exact .inl (hr.squashed _ hsquashed)
    · rcases hr.dropped_ops e he with he' | hsquashed | herror | ⟨x, hx, hnot⟩
      · exact .inr (.inl ⟨e, he', heq⟩)
      · exact .inl (heq ▸ hsquashed)
      · exact .inr (.inr (.inr (.inl (heq ▸ herror))))
      · have haccess := ((h.pushed_live id (hr.pushed ▸ hid)).2 x (heq ▸ hx)).1
        rw [hnot] at haccess
        cases haccess
    · exact (hr.dropped_stores e he).symm.imp (fun hsquashed => heq ▸ hsquashed)
        fun he' => .inr (.inl ⟨e, he', heq⟩)
    · exact .inr (.inr (.inr (.inl (hr.errors id herror))))
    · exact .inr (.inr (.inr (.inr hsent)))
  issued_pushed := fun id x' hx' haccess hissued => by
    obtain ⟨x, hx, hprogress⟩ := hr.lookup id x' hx'
    rw [hr.pushed]
    exact h.issued_pushed id x hx (hprogress.isAccess ▸ haccess)
      (hprogress.hasIssued ▸ hissued)
  pushed_live := fun id hid => by
    obtain ⟨hlt, hlive⟩ := h.pushed_live id (hr.pushed ▸ hid)
    refine ⟨hlt.trans_le (hr.next _), fun x' hx' => ?_⟩
    obtain ⟨x, hx, hprogress⟩ := hr.lookup id x' hx'
    rw [hprogress.isAccess, hprogress.hasIssued]
    exact hlive x hx

theorem Sound.recedes (h : Sound fenceType m) (hr : m.Recedes m') : Sound fenceType m' where
  rob := by
    rw [show (fun thr => (m'.core.threads thr).isa_options) =
      fun thr => (m.core.threads thr).isa_options from funext hr.options]
    exact h.rob.recedes hr.lookup
  queue := h.queue.recedes hr
  fences := fun id x' hx' hfence hexec => by
    obtain ⟨x, hx, hprogress⟩ := hr.lookup id x' hx'
    rw [hprogress.isFullFence] at hfence
    rw [hprogress.hasExecuted (VanadisInstruction.isMemory_of_isFullFence hfence)] at hexec
    exact (h.fences id x hx hfence hexec).extends hr.extends
  syscalls := fun id x' hx' hsys => by
    obtain ⟨x, hx, hprogress⟩ := hr.lookup id x' hx'
    rcases h.syscalls id x hx (hprogress.isSyscall ▸ hsys) with
      hsettled | ⟨p, y, hthr, hseq, hy, hfence⟩
    · exact .inl (hsettled.extends hr.extends)
    · cases hy' : m'.lookup p with
      | some y' =>
        obtain ⟨y₀, hy₀, hprogress'⟩ := hr.lookup p y' hy'
        obtain rfl : y₀ = y := some.inj (hy₀.symm.trans hy)
        exact .inr ⟨p, y', hthr, hseq, hy', hprogress'.isFullFence.trans hfence⟩
      | none =>
        -- the fence has retired: it was executed, and nothing is left before the call
        rcases hr.gone p y hy hy' with hexec | ⟨-, hall⟩
        · have hsucc := (h.fences p y hy hfence hexec).succ h hy hfence hexec
          rw [hthr, hseq] at hsucc
          exact .inl (hsucc.extends hr.extends)
        · rw [hall id hthr.symm] at hx'
          cases hx'

end MemoryCore

end SstElements.Vanadis
