import SstElements.Vanadis.MemoryIssue
import SstElements.Library.History

/-!
# Fences and system calls drain memory

The decoders place a full fence before each system call.  In every run of the core with
its queue and any memory system, a full fence that is executed and a system call that
is at the front of its buffer have all older loads and stores of their thread answered.
-/

namespace SstElements.Vanadis

open Library Function List Option
open VanadisComponent (onlyThread)

universe u

variable {Op : Type u} {hw_threads : Nat}

namespace MemoryCore

variable {fenceType : Op → VanadisFenceType}
variable {m m' : MemoryCore Op hw_threads} {thr : Fin hw_threads} {params : LsqParams}
variable {core' : VanadisComponent Op hw_threads}

section Issue

/-- A thread that may still be asked has been scanned up to where it goes on. -/
def TempsReady
    (core : VanadisComponent Op hw_threads) (temps : Fin hw_threads → IssueTemps) : Prop :=
  ∀ thr, (temps thr).blocked = false →
    (temps thr).rob_start ≤ (core.threads thr).rob.length ∧
      (temps thr).Covers ((core.threads thr).rob.take (temps thr).rob_start) ∧
      (temps thr).InOrder (core.threads thr).rob (temps thr).rob_start

theorem pushIssued_eq {call : IssueCall hw_threads} {before post : List (VanadisInstruction Op)}
    {ins' : VanadisInstruction Op}
    (hrob : (core'.threads call.hw_thr).rob = before ++ ins' :: post) :
    ∃ lsq' pushed', MemoryCore.pushIssued fenceType { m with core := core' } call before.length =
          { m with core := core', lsq := lsq', pushed := pushed' } ∧
        Pushes fenceType m ins' ⟨call.hw_thr, m.first_seq call.hw_thr + before.length⟩
          lsq' pushed' := by
  have hget : (core'.threads call.hw_thr).rob[before.length]? = some ins' := by
    rw [hrob, getElem?_append_right le_rfl, Nat.sub_self]
    rfl
  unfold pushIssued
  rw [hget]
  dsimp only
  split
  case h_1 htype =>
    refine ⟨_, _, rfl, .access rfl htype ?_⟩
    rw [VanadisInstruction.isAccess, htype]
    rfl
  case h_2 htype =>
    refine ⟨_, _, rfl, .access rfl htype ?_⟩
    rw [VanadisInstruction.isAccess, htype]
    rfl
  case h_3 htype =>
    refine ⟨_, _, rfl, .fence rfl ⟨htype, rfl⟩ ?_ ?_⟩
    · rw [VanadisInstruction.isAccess, htype]
      rfl
    · rw [htype]
      rfl
  case h_4 hload hstore hfence =>
    refine ⟨_, _, rfl, .other (Bool.eq_false_iff.2 fun hmem => ?_)⟩
    cases htype : ins'.func_type with
    | INST_LOAD => exact hload htype
    | INST_STORE => exact hstore htype
    | INST_FENCE => exact hfence htype
    | _ =>
      rw [htype] at hmem
      cases hmem

theorem Sound.issueStage {calls : List (IssueCall hw_threads)} {temps : Fin hw_threads → IssueTemps}
    (h : Sound fenceType m) (htemps : TempsReady m.core temps)
    (hstep : m.issueStage params fenceType temps calls = some m') :
    Sound fenceType m' := by
  induction calls generalizing m temps with
  | nil =>
    cases hstep
    exact h
  | cons call calls ih =>
    rw [MemoryCore.issueStage] at hstep
    split at hstep
    case isTrue => exact ih h htemps hstep
    case isFalse hblocked =>
      obtain ⟨⟨core', seen⟩, hissue, hrest⟩ := bind_eq_some_iff.1 hstep
      have hready := Bool.eq_false_iff.2 hblocked
      obtain ⟨hstart, hcovers, horder⟩ := htemps call.hw_thr hready
      rcases performIssue_takes hstart hcovers horder hissue with
        ⟨rfl, hseen⟩ | ⟨before, post, ins, ins', htakes, hseen, hplace, hcov, hseenOrder⟩
      · rw [hseen, if_pos rfl] at hrest
        refine ih h (fun t ht => ?_) hrest
        by_cases heq : t = call.hw_thr
        · subst heq
          rw [update_self, hseen] at ht
          cases ht
        · rw [update_of_ne heq] at ht ⊢
          exact htemps t ht
      · rw [hseen, hready, hplace, if_neg Bool.false_ne_true] at hrest
        obtain ⟨lsq', pushed', heq, hpush⟩ :=
          @pushIssued_eq _ _ fenceType m core' call before post ins' htakes.rob'
        rw [heq] at hrest
        refine ih (h.take htakes hpush) (fun t ht => ?_) hrest
        by_cases hthr : t = call.hw_thr
        · subst hthr
          simp only [update_self] at ht ⊢
          rw [hplace, htakes.rob', take_left]
          refine ⟨by rw [length_append]; omega, hcov, fun hnot x hx hmem => ?_⟩
          refine hseenOrder hnot x ?_ hmem
          rw [htakes.rob, take_left]
          rw [take_left] at hx
          exact hx
        · simp only [update_of_ne hthr] at ht ⊢
          rw [htakes.other t hthr]
          exact htemps t ht

end Issue

section Decode

variable {bundle : List (MicroOp Op)}

/-- What the decoders make: a system call writes all registers and comes right behind a
full fence; loads and stores read the register of their address. -/
structure CallsFenced
    (fenceType : Op → VanadisFenceType) (opts : VanadisDecoderOptions)
    (bundle : List (MicroOp Op)) : Prop where
  writes_all : ∀ uop ∈ bundle, uop.func_type = .INST_SYSCALL →
    ∀ reg < opts.count_isa_reg .int, reg ∈ uop.isa_regs_out .int
  reads_address : ∀ uop ∈ bundle, uop.func_type = .INST_LOAD ∨ uop.func_type = .INST_STORE →
    uop.isa_regs_in .int ≠ []
  fenced : ∀ i < bundle.length, ∀ uop ∈ bundle[i]?, uop.func_type = .INST_SYSCALL →
    0 < i ∧ ∃ fence ∈ bundle[i - 1]?, fence.func_type = .INST_FENCE ∧
      fenceType fence.op = .VANADIS_LOAD_STORE_FENCE

instance instDecidableCallsFenced
    (fenceType : Op → VanadisFenceType) (opts : VanadisDecoderOptions)
    (bundle : List (MicroOp Op)) :
    Decidable (CallsFenced fenceType opts bundle) :=
  decidable_of_iff (_ ∧ _ ∧ _) ⟨fun h => ⟨h.1, h.2.1, h.2.2⟩, fun h => ⟨h.1, h.2, h.3⟩⟩

/-- A bundle was put behind the buffer of its thread. -/
structure Appended
    (m : MemoryCore Op hw_threads) (core' : VanadisComponent Op hw_threads)
    (thr : Fin hw_threads) (bundle : List (MicroOp Op)) : Prop where
  self : core'.threads thr =
    { m.core.threads thr with rob := (m.core.threads thr).rob ++ bundle.map MicroOp.clone }
  other : ∀ t, t ≠ thr → core'.threads t = m.core.threads t

section Append

variable {core' : VanadisComponent Op hw_threads} {id : InsId hw_threads}
variable {x : VanadisInstruction Op}

theorem appended_setRob :
    Appended m (m.core.setRob thr ((m.core.threads thr).rob ++ bundle.map MicroOp.clone))
      thr bundle where
  self := by rw [VanadisComponent.setRob_threads, update_self]
  other := fun t ht => by rw [VanadisComponent.setRob_threads, update_of_ne ht]

variable (happ : Appended m core' thr bundle)
include happ

theorem Appended.lookup_apart (hthr : id.hw_thr ≠ thr) :
    MemoryCore.lookup { m with core := core' } id = m.lookup id :=
  lookup_other (happ.other _ hthr) rfl

theorem Appended.lookup_of_some (hx : m.lookup id = some x) :
    MemoryCore.lookup { m with core := core' } id = some x := by
  by_cases hthr : id.hw_thr = thr
  · rw [lookup_eq hthr] at hx ⊢
    split at hx
    case isFalse => cases hx
    case isTrue hle =>
      have hlt := (List.getElem?_eq_some_iff.1 hx).1
      rw [if_pos hle, happ.self, getElem?_append_left hlt]
      exact hx
  · rw [happ.lookup_apart hthr]
    exact hx

/-- A new instruction is one of the bundle, at its place. -/
theorem Appended.lookup_cases (hx : MemoryCore.lookup { m with core := core' } id = some x) :
    m.lookup id = some x ∨ id.hw_thr = thr ∧ ∃ i uop, id.seq = m.next_seq thr + i ∧
      bundle[i]? = some uop ∧ x = uop.clone := by
  by_cases hthr : id.hw_thr = thr
  · rw [lookup_eq hthr] at hx
    dsimp only at hx
    split at hx
    case isFalse => cases hx
    case isTrue hle =>
      rw [happ.self] at hx
      rcases lt_or_ge (id.seq - m.first_seq thr) (m.core.threads thr).rob.length with
        hlt | hge
      · rw [getElem?_append_left hlt] at hx
        exact .inl (by rw [lookup_eq hthr, if_pos hle, hx])
      · rw [getElem?_append_right hge, getElem?_map] at hx
        obtain ⟨uop, huop, rfl⟩ := map_eq_some_iff.1 hx
        exact .inr ⟨hthr, _, uop, by rw [next_seq]; omega, huop, rfl⟩
  · rw [happ.lookup_apart hthr] at hx
    exact .inl hx

theorem Appended.lookup_new {i : Nat} {uop : MicroOp Op} (huop : bundle[i]? = some uop) :
    MemoryCore.lookup { m with core := core' } ⟨thr, m.next_seq thr + i⟩ = some uop.clone := by
  rw [lookup_eq rfl]
  dsimp only
  rw [happ.self, if_pos (by rw [next_seq]; omega), next_seq,
    getElem?_append_right (by omega),
    show m.first_seq thr + (m.core.threads thr).rob.length + i - m.first_seq thr -
      (m.core.threads thr).rob.length = i by omega, getElem?_map, huop]
  rfl

/-- What was issued or executed was there before. -/
theorem Appended.lookup_old (hx : MemoryCore.lookup { m with core := core' } id = some x)
    (hflag : x.hasIssued = true ∨ x.hasExecuted = true) : m.lookup id = some x := by
  rcases happ.lookup_cases hx with hx | ⟨-, i, uop, -, -, rfl⟩
  · exact hx
  · rcases hflag with hflag | hflag <;> cases hflag

theorem Appended.next_le (t : Fin hw_threads) :
    m.next_seq t ≤ MemoryCore.next_seq { m with core := core' } t := by
  unfold next_seq
  by_cases ht : t = thr
  · subst ht
    dsimp only
    rw [happ.self, length_append]
    omega
  · dsimp only
    rw [happ.other t ht]

theorem Appended.extends : m.Extends { m with core := core' } where
  next := happ.next_le
  holds := fun _ hid => .inl hid
  lookup := fun id x hx hmem hnot => by
    rcases happ.lookup_cases hx with hx | ⟨hthr, i, uop, hseq, -, -⟩
    · exact .inr ⟨x, hx, hmem, hnot⟩
    · refine .inl ?_
      rw [hthr]
      omega
  pushed := fun _ hid => .inl hid
  squashed := fun _ hid => hid
  errors := fun _ hid => hid
  sent := fun _ hreq => hreq
  flight := fun _ hreq => .inl hreq

theorem Appended.robOrder (h : Sound fenceType m)
    (hbundle : CallsFenced fenceType (m.core.threads thr).isa_options bundle) :
    RobOrder (fun t => (core'.threads t).isa_options)
      (MemoryCore.lookup { m with core := core' }) := by
  have hopts : (fun t => (core'.threads t).isa_options) =
      fun t => (m.core.threads t).isa_options := by
    funext t
    by_cases ht : t = thr
    · subst ht
      rw [happ.self]
    · rw [happ.other t ht]
  rw [hopts]
  exact {
    in_order := fun a b x y hthr hlt hx hy hmem hmem' hissued => by
      have hy₀ := happ.lookup_old hy (.inl hissued)
      rcases happ.lookup_cases hx with hx | ⟨hthr', i, uop, hseq, -, -⟩
      · exact h.rob.in_order a b x y hthr hlt hx hy₀ hmem hmem' hissued
      · have hlast := (lookup_lt hy₀).2
        rw [← hthr, hthr'] at hlast
        omega
    behind := fun a b x y hthr hlt hx hy hsys hacc => by
      rcases happ.lookup_cases hy with hy₀ | ⟨-, i, uop, -, -, rfl⟩
      · rcases happ.lookup_cases hx with hx | ⟨hthr', i, uop, hseq, -, -⟩
        · exact h.rob.behind a b x y hthr hlt hx hy₀ hsys hacc
        · have hlast := (lookup_lt hy₀).2
          rw [← hthr, hthr'] at hlast
          omega
      · rfl
    executed := fun id x hx hmem hdone =>
      h.rob.executed id x (happ.lookup_old hx (.inr hdone)) hmem hdone
    writes_all := fun id x hx hsys => by
      rcases happ.lookup_cases hx with hx | ⟨hthr, i, uop, -, huop, rfl⟩
      · exact h.rob.writes_all id x hx hsys
      · rw [hthr]
        exact hbundle.writes_all uop (mem_of_getElem? huop) (of_decide_eq_true hsys)
    reads_address := fun id x hx hacc => by
      rcases happ.lookup_cases hx with hx | ⟨-, i, uop, -, huop, rfl⟩
      · exact h.rob.reads_address id x hx hacc
      · exact hbundle.reads_address uop (mem_of_getElem? huop) (of_decide_eq_true hacc) }

theorem Appended.queueSound (h : QueueSound fenceType m) :
    QueueSound fenceType { m with core := core' } :=
  { h with
    ops_live := fun e he => by
      obtain ⟨x, hx, hrest⟩ := h.ops_live e he
      exact ⟨x, happ.lookup_of_some hx, hrest⟩
    loads_live := fun e he => by
      obtain ⟨x, hx, hrest⟩ := h.loads_live e he
      exact ⟨x, happ.lookup_of_some hx, hrest⟩
    stores_live := fun e he => by
      obtain ⟨x, hx, hrest⟩ := h.stores_live e he
      exact ⟨x, happ.lookup_of_some hx, hrest⟩
    issued_pushed := fun id x hx hacc hissued =>
      h.issued_pushed id x (happ.lookup_old hx (.inl hissued)) hacc hissued
    pushed_live := fun id hid => by
      obtain ⟨hlt, hrest⟩ := h.pushed_live id hid
      refine ⟨hlt.trans_le (happ.next_le _), fun x hx => ?_⟩
      rcases happ.lookup_cases hx with hx | ⟨hthr, i, uop, hseq, -, -⟩
      · exact hrest x hx
      · rw [hthr] at hlt
        omega }

/-- A bundle in which the decoder fenced the system calls keeps the state sound. -/
theorem Sound.append (h : Sound fenceType m)
    (hbundle : CallsFenced fenceType (m.core.threads thr).isa_options bundle) :
    Sound fenceType { m with core := core' } where
  rob := happ.robOrder h hbundle
  queue := happ.queueSound h.queue
  fences := fun id x hx hfull hdone =>
    (h.fences id x (happ.lookup_old hx (.inr hdone)) hfull hdone).extends happ.extends
  syscalls := fun id x hx hsys => by
    rcases happ.lookup_cases hx with hx | ⟨hthr, i, uop, hseq, huop, rfl⟩
    · refine (h.syscalls id x hx hsys).imp (fun hsettled => hsettled.extends happ.extends) ?_
      rintro ⟨p, y, hthr, hseq, hy, hfull⟩
      exact ⟨p, y, hthr, hseq, happ.lookup_of_some hy, hfull⟩
    · obtain ⟨hpos, prev, hprev, htype, hfull⟩ := hbundle.fenced i
        (List.getElem?_eq_some_iff.1 huop).1 uop huop (of_decide_eq_true hsys)
      refine .inr ⟨⟨thr, m.next_seq thr + (i - 1)⟩, prev.clone, hthr.symm, ?_,
        happ.lookup_new hprev, decide_eq_true ⟨htype, hfull⟩⟩
      dsimp only
      rw [hseq]
      omega

end Append

end Decode

section Runs

/-- The decoders place a full fence before each system call. -/
def FencesCalls
    (fenceType : Op → VanadisFenceType) (m : MemoryCore Op hw_threads) :
    MemoryOp Op hw_threads → Prop
  | .decode thr bundle => CallsFenced fenceType (m.core.threads thr).isa_options bundle
  | _ => True

instance instDecidableFencesCalls
    (fenceType : Op → VanadisFenceType) (m : MemoryCore Op hw_threads) :
    ∀ op, Decidable (FencesCalls fenceType m op)
  | .decode thr bundle =>
    inferInstanceAs (Decidable (CallsFenced fenceType (m.core.threads thr).isa_options bundle))
  | .issue _ | .tick | .respond .. | .execute .. | .retire .. | .syscallReturn _
  | .halt _ | .start _ | .startFork _ | .startClone _ =>
    inferInstanceAs (Decidable True)

theorem Sound.squashThread (h : Sound fenceType m)
    (hother : ∀ t, t ≠ thr → core'.threads t = m.core.threads t)
    (hoptions : (core'.threads thr).isa_options = (m.core.threads thr).isa_options)
    (hrob : (core'.threads thr).rob = []) :
    Sound fenceType (m.squashThread thr core') := by
  have hsquash := @Sound.squash _ _ fenceType m thr core' 0 h hother hoptions (by simp) hrob
  exact hsquash

theorem Sound.start (h : Sound fenceType m) :
    Sound fenceType { m with core := m.core.startThread thr } := by
  have hself : (m.core.startThread thr).threads thr =
      { m.core.threads thr with
        halted := false
        retire_isa_table := (m.core.threads thr).issue_isa_table } := by
    rw [VanadisComponent.startThread_threads, update_self]
  have hadvance := @Sound.advance _ _ fenceType m thr (m.core.startThread thr) 0 h
    (fun t ht => by rw [VanadisComponent.startThread_threads, update_of_ne ht])
    (by rw [hself]) (by simp) (Nat.zero_le _)
    (by rw [hself]; exact forall₂_progress_refl _)
  rw [add_zero, update_eq_self] at hadvance
  exact hadvance

/-- Every operation of core and queue keeps the invariant. -/
theorem Sound.step {op : MemoryOp Op hw_threads} (h : Sound fenceType m)
    (hfenced : FencesCalls fenceType m op) (hstep : m.step params fenceType op = some m') :
    Sound fenceType m' := by
  have hfork : ∀ thr, Sound fenceType (m.squashThread thr (m.core.startThreadFork thr)) := by
    intro thr
    refine h.squashThread (fun t ht => ?_) ?_ ?_
    · rw [VanadisComponent.startThreadFork_threads, update_of_ne ht]
    · rw [VanadisComponent.startThreadFork_threads, update_self]
    · rw [VanadisComponent.startThreadFork_threads, update_self]
  cases op with
  | decode thr bundle =>
    cases hstep
    unfold VanadisComponent.performDecode
    dsimp only
    split
    · exact h.append appended_setRob hfenced
    · exact h
  | issue calls =>
    refine h.issueStage (fun _ _ => ?_) hstep
    exact ⟨Nat.zero_le _, IssueTemps.covers_nil _, fun _ x hx => by cases hx⟩
  | tick => exact h.tick hstep
  | respond i data flag register_value => exact h.respond hstep
  | execute thr j takenAddress => exact h.execute hstep
  | retire thr ret flushLSQ => exact h.retire hstep
  | syscallReturn thr =>
    obtain ⟨core', hcore, rfl⟩ := map_eq_some_iff.1 hstep
    exact h.syscallReturn hcore
  | halt thr =>
    cases hstep
    refine h.squashThread (fun t ht => ?_) ?_ ?_
    · rw [VanadisComponent.setHalt, VanadisComponent.handleMisspeculate_threads, update_of_ne ht]
      exact update_of_ne ht _ _
    · rw [VanadisComponent.setHalt, VanadisComponent.handleMisspeculate_threads, update_self]
      simp only [VanadisComponent.setThread, update_self]
    · rw [VanadisComponent.setHalt, VanadisComponent.handleMisspeculate_threads, update_self]
  | start thr =>
    cases hstep
    exact h.start
  | startFork thr =>
    cases hstep
    exact hfork thr
  | startClone thr =>
    cases hstep
    exact hfork thr

theorem initial_sound (config : VanadisComponent.Config hw_threads) :
    Sound fenceType (initial Op config) := by
  have hnone : ∀ id, (initial Op config).lookup id = none := by
    intro id
    rw [lookup_eq rfl, show ((initial Op config).core.threads id.hw_thr).rob = [] from
      VanadisComponent.added_initial.rob id.hw_thr]
    simp
  have hlookup : ∀ id x, (initial Op config).lookup id ≠ some x := by
    intro id x hx
    rw [hnone] at hx
    cases hx
  exact {
    rob := {
      in_order := fun a _ x _ _ _ hx => absurd hx (hlookup a x)
      behind := fun a _ x _ _ _ hx => absurd hx (hlookup a x)
      executed := fun id x hx => absurd hx (hlookup id x)
      writes_all := fun id x hx => absurd hx (hlookup id x)
      reads_address := fun id x hx => absurd hx (hlookup id x) }
    queue := {
      ops_live := fun _ he => by cases he
      loads_live := fun _ he => by cases he
      stores_live := fun _ he => by cases he
      loads_order := List.Pairwise.nil
      stores_order := List.Pairwise.nil
      ids_nodup := nodup_nil
      ids_lt := fun _ hreq => by cases hreq
      reads := fun _ hreq => by cases hreq
      writes := fun _ hreq => by cases hreq
      dispatched := fun _ he => by cases he
      accounted := fun _ hid => by cases hid
      issued_pushed := fun id x hx => absurd hx (hlookup id x)
      pushed_live := fun _ hid => by cases hid }
    fences := fun id x hx => absurd hx (hlookup id x)
    syscalls := fun id x hx => absurd hx (hlookup id x) }

/-- In every run in which the decoders place a full fence before each system call, a full
fence is executed, and a system call is at the front of its buffer, only when the loads
and stores before it are answered. -/
theorem drains_memory
    {config : VanadisComponent.Config hw_threads} {ops : List (MemoryOp Op hw_threads)}
    (hfenced : StepsMeet (step params fenceType) (FencesCalls fenceType) (initial Op config) ops) :
    Throughout (step params fenceType) (DrainsMemory fenceType) (initial Op config) ops :=
  (throughout_of_stepsMeet
    (fun _ _ _ hsound hok hstep => hsound.step hok hstep) (initial_sound config)
    hfenced).imp fun _ hsound => hsound.drainsMemory

def storeThenCall : List (MicroOp Unit) :=
  { ins_address := 0
    op := ()
    func_type := .INST_STORE
    isa_regs_in := fun kind => if kind = .int then [1, 2] else []
    isa_regs_out := fun _ => []
    branch := none } :: VanadisComponent.fencedSyscall

def smallQueue : LsqParams where
  max_stores := 8
  max_loads := 8
  max_issue_attempts_per_cycle := 2
  cache_line_width := 64
  address_mask := 2 ^ 64 - 1

/-- The store crosses the boundary of a line. -/
def storeCall : IssueCall 1 where
  hw_thr := onlyThread
  free := fun _ => true
  load :=
    { transaction := .MEM_TRANSACTION_NONE, address := 8192, width := 8, register_offset := 0,
      signed_extend := false, register := .int, target_reg := 3, ignores_writes := 0 }
  store :=
    { transaction := .MEM_TRANSACTION_NONE, address := 8252, width := 8,
      value := [1, 2, 3, 4, 5, 6, 7, 8], result_reg := 0, value_success := [],
      value_failure := [] }

/-- The store is sent when it is at the front, and answered; then the fence is executed
and the system call is handed over. -/
def storeThenCallRun : List (MemoryOp Unit 1) :=
  [.start onlyThread, .decode onlyThread storeThenCall, .issue [storeCall, storeCall],
    .retire onlyThread false false, .tick, .retire onlyThread false false, .tick,
    .respond 1 [] true [], .respond 0 [] true [], .tick, .retire onlyThread false false,
    .issue [storeCall], .retire onlyThread false false]

theorem drains_memory_store :
    Throughout (step smallQueue fun _ : Unit => .VANADIS_LOAD_STORE_FENCE)
        (DrainsMemory fun _ => .VANADIS_LOAD_STORE_FENCE)
        (initial Unit VanadisComponent.singleThread) storeThenCallRun ∧
      (runOps (step smallQueue fun _ => .VANADIS_LOAD_STORE_FENCE)
          (initial Unit VanadisComponent.singleThread) storeThenCallRun).map
        (fun m => ((m.core.threads 0).rob.map (·.isFrontOfROB), m.sent.map (·.payload))) =
      some ([true], [[1, 2, 3, 4], [5, 6, 7, 8]]) :=
  ⟨drains_memory (by decide +kernel), by decide +kernel⟩

end Runs

end MemoryCore

end SstElements.Vanadis
