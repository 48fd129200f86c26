import Mathlib.Tactic
import SstElements.Library.Overwrites

/-!
# Free registers and register tables of an out-of-order core

All hardware threads take physical registers from one stack for integers and one
for floating point.  A table of a thread says which physical register holds each
register of the instruction set, and counts the reads and writes that are pending.
-/

namespace SstElements.Vanadis

open Library Function List

/-- Integer and floating-point registers have stacks and tables of their own. -/
inductive RegisterKind
  | int
  | fp
  deriving DecidableEq

instance instDecidableForallRegisterKind
    {p : RegisterKind → Prop} [∀ kind, Decidable (p kind)] :
    Decidable (∀ kind, p kind) :=
  decidable_of_iff (p .int ∧ p .fp)
    ⟨fun h kind => by cases kind; exacts [h.1, h.2], fun h => ⟨h _, h _⟩⟩

/-- The stack of free registers: `regs` is meaningful up to `stack_top`, which is
-1 when the stack is empty. -/
structure VanadisRegisterStack where
  max_capacity : Nat
  stack_top : Int
  regs : Int → Nat

namespace VanadisRegisterStack

def reset (max_capacity : Nat) : VanadisRegisterStack where
  max_capacity := max_capacity
  stack_top := max_capacity - 1
  regs := Int.toNat

/-- Neither end of the array is checked. -/
def pop (stack : VanadisRegisterStack) : Nat × VanadisRegisterStack :=
  (stack.regs stack.stack_top, { stack with stack_top := stack.stack_top - 1 })

def push (stack : VanadisRegisterStack) (v : Nat) : VanadisRegisterStack :=
  { stack with
    stack_top := stack.stack_top + 1
    regs := update stack.regs (stack.stack_top + 1) v }

/-- One less than the number of free registers: the bottom one is never offered. -/
def unused (stack : VanadisRegisterStack) : Nat :=
  if 0 < stack.stack_top then stack.stack_top.toNat else 0

def pushAll (stack : VanadisRegisterStack) (vs : List Nat) : VanadisRegisterStack :=
  vs.foldl push stack

/-- The registers on the stack. -/
def free (stack : VanadisRegisterStack) : Multiset Nat :=
  (Multiset.range (stack.stack_top + 1).toNat).map fun i : Nat => stack.regs i

variable {stack : VanadisRegisterStack}

@[simp] theorem pop_stack_top : stack.pop.2.stack_top = stack.stack_top - 1 := by rfl

@[simp] theorem pushAll_nil : stack.pushAll [] = stack := by rfl

variable {vs : List Nat}

@[simp] theorem pushAll_cons {v : Nat} :
    stack.pushAll (v :: vs) = (stack.push v).pushAll vs := by
  rfl

@[simp] theorem pushAll_max_capacity :
    (stack.pushAll vs).max_capacity = stack.max_capacity := by
  induction vs generalizing stack with
  | nil =>
    rfl
  | cons v vs ih =>
    exact ih

@[simp] theorem pushAll_stack_top :
    (stack.pushAll vs).stack_top = stack.stack_top + vs.length := by
  induction vs generalizing stack with
  | nil =>
    simp
  | cons v vs ih =>
    rw [pushAll_cons, ih, length_cons]
    simp only [push]
    push_cast
    ring

theorem free_reset {n : Nat} : (reset n).free = Multiset.range n := by
  simp [free, reset]

theorem card_free : Multiset.card stack.free = (stack.stack_top + 1).toNat := by
  simp [free]

theorem free_pop (htop : 0 ≤ stack.stack_top) : stack.free = stack.pop.1 ::ₘ stack.pop.2.free := by
  obtain ⟨n, hn⟩ := Int.eq_ofNat_of_zero_le htop
  have hnext : (stack.stack_top + 1).toNat = n + 1 := by omega
  have hrest : (stack.pop.2.stack_top + 1).toNat = n := by
    rw [pop_stack_top]
    omega
  rw [free, free, hnext, hrest, Multiset.range_succ, Multiset.map_cons]
  simp [pop, hn]

section

variable (htop : -1 ≤ stack.stack_top)
include htop

theorem free_push {v : Nat} : (stack.push v).free = stack.free + {v} := by
  obtain ⟨n, hn⟩ : ∃ n : Nat, stack.stack_top + 1 = n := ⟨_, (Int.toNat_of_nonneg (by omega)).symm⟩
  have hnext : ((stack.push v).stack_top + 1).toNat = n + 1 := by
    simp only [push]
    omega
  have hsame : (Multiset.range n).map (fun i : Nat => (stack.push v).regs i) =
      (Multiset.range n).map fun i : Nat => stack.regs i := by
    refine Multiset.map_congr rfl fun i hi => ?_
    have hlt := Multiset.mem_range.1 hi
    exact update_of_ne (by omega) _ _
  rw [free, hnext, Multiset.range_succ, Multiset.map_cons, hsame, free, hn,
    Int.toNat_natCast, add_comm, Multiset.singleton_add]
  simp [push, hn]

theorem free_pushAll :
    (stack.pushAll vs).free = stack.free + (vs : Multiset Nat) := by
  induction vs generalizing stack with
  | nil =>
    simp
  | cons v vs ih =>
    rw [pushAll_cons, ih (by simp only [push]; omega), free_push htop, add_assoc,
      ← Multiset.cons_coe, Multiset.singleton_add]

theorem le_stack_top_of_le_unused {n : Nat} (h : n ≤ stack.unused) :
    (n : Int) ≤ stack.stack_top + 1 := by
  unfold unused at h
  split at h <;> omega

end

end VanadisRegisterStack

/-- What the core knows of a decoder: the registers of its instruction set, and
the integer register that ignores writes. -/
structure VanadisDecoderOptions where
  count_isa_reg : RegisterKind → Nat
  reg_ignore_writes : Nat

/-- Whether the reads and writes of the register are counted. -/
def VanadisDecoderOptions.counted (opts : VanadisDecoderOptions) : RegisterKind → Nat → Bool
  | .int, reg => reg != opts.reg_ignore_writes
  | .fp, _ => true

/-- The half of a register table that is about one kind of register. -/
structure VanadisISATable where
  reg_ptr : Nat → Nat
  reg_pending_read : Nat → UInt32
  reg_pending_write : Nat → UInt32

variable {count : Nat}

namespace VanadisISATable

def empty : VanadisISATable where
  reg_ptr := fun _ => 0
  reg_pending_read := fun _ => 0
  reg_pending_write := fun _ => 0

variable (table : VanadisISATable) (counted : Nat → Bool) (reg : Nat)

def pendingWrites : Bool := 0 < table.reg_pending_write reg

def getPhysReg : Nat := table.reg_ptr reg

def setPhysReg (phys_reg : Nat) : VanadisISATable :=
  { table with reg_ptr := update table.reg_ptr reg phys_reg }

def incRead : VanadisISATable :=
  if counted reg then
    { table with
      reg_pending_read := update table.reg_pending_read reg (table.reg_pending_read reg + 1) }
  else
    table

def incWrite : VanadisISATable :=
  if counted reg then
    { table with
      reg_pending_write := update table.reg_pending_write reg (table.reg_pending_write reg + 1) }
  else
    table

def decRead : VanadisISATable :=
  if counted reg then
    { table with
      reg_pending_read := update table.reg_pending_read reg (table.reg_pending_read reg - 1) }
  else
    table

def decWrite : VanadisISATable :=
  if counted reg then
    { table with
      reg_pending_write := update table.reg_pending_write reg (table.reg_pending_write reg - 1) }
  else
    table

def resetPendingCnts : VanadisISATable :=
  { table with reg_pending_read := fun _ => 0, reg_pending_write := fun _ => 0 }

/-- The physical registers that the table names. -/
def mapped (count : Nat) : Multiset Nat := (Multiset.range count).map table.reg_ptr

variable {table counted reg}

@[simp] theorem setPhysReg_reg_ptr {phys_reg : Nat} :
    (table.setPhysReg reg phys_reg).reg_ptr = update table.reg_ptr reg phys_reg := by
  rfl

@[simp] theorem incRead_reg_ptr : (table.incRead counted reg).reg_ptr = table.reg_ptr := by
  unfold incRead
  split <;> rfl

@[simp] theorem incWrite_reg_ptr : (table.incWrite counted reg).reg_ptr = table.reg_ptr := by
  unfold incWrite
  split <;> rfl

@[simp] theorem decRead_reg_ptr : (table.decRead counted reg).reg_ptr = table.reg_ptr := by
  unfold decRead
  split <;> rfl

@[simp] theorem decWrite_reg_ptr : (table.decWrite counted reg).reg_ptr = table.reg_ptr := by
  unfold decWrite
  split <;> rfl

theorem foldl_reg_ptr {change : VanadisISATable → Nat → VanadisISATable}
    (hchange : ∀ table reg, (change table reg).reg_ptr = table.reg_ptr) {regs : List Nat} :
    (regs.foldl change table).reg_ptr = table.reg_ptr := by
  induction regs generalizing table with
  | nil =>
    rfl
  | cons reg regs ih =>
    rw [foldl_cons, ih, hchange]

theorem card_mapped : Multiset.card (table.mapped count) = count := by
  simp [mapped]

theorem mapped_overwrite {table table' : VanadisISATable} {writes : List (Nat × Nat)}
    (hptr : table'.reg_ptr = overwrite table.reg_ptr writes) (hlt : ∀ w ∈ writes, w.1 < count) :
    table'.mapped count + (displaced table.reg_ptr writes : Multiset Nat) =
      table.mapped count + (writes.map Prod.snd : Multiset Nat) := by
  rw [mapped, mapped, hptr]
  exact map_overwrite_add (Multiset.nodup_range count)
    fun w hw => Multiset.mem_range.2 (hlt w hw)

end VanadisISATable

def takeRegisters
    (counted : Nat → Bool) (stack : VanadisRegisterStack) (table : VanadisISATable) :
    List Nat → List Nat × VanadisRegisterStack × VanadisISATable
  | [] => ([], stack, table)
  | reg :: rest =>
    let (out_reg, stack') := stack.pop
    let (outs, stack', table') :=
      takeRegisters counted stack'
        ((table.setPhysReg reg out_reg).incWrite counted reg) rest
    (out_reg :: outs, stack', table')

variable {counted : Nat → Bool} {stack : VanadisRegisterStack} {table : VanadisISATable}

theorem takeRegisters_spec
    {regs outs : List Nat} {stack' : VanadisRegisterStack} {table' : VanadisISATable}
    (htop : (regs.length : Int) ≤ stack.stack_top + 1)
    (h : takeRegisters counted stack table regs = (outs, stack', table')) :
    outs.length = regs.length ∧ stack'.max_capacity = stack.max_capacity ∧
      stack'.stack_top = stack.stack_top - regs.length ∧
      stack.free = stack'.free + (outs : Multiset Nat) ∧
      table'.reg_ptr = overwrite table.reg_ptr (regs.zip outs) := by
  induction regs generalizing stack table outs stack' table' with
  | nil =>
    obtain ⟨rfl, rfl, rfl⟩ := h
    simp
  | cons reg regs ih =>
    rw [length_cons, Nat.cast_succ] at htop
    obtain ⟨outs', hout⟩ :
        ∃ o, takeRegisters counted stack.pop.2
          ((table.setPhysReg reg stack.pop.1).incWrite counted reg) regs = o := ⟨_, rfl⟩
    obtain ⟨os, s, t⟩ := outs'
    have hpop : takeRegisters counted stack table (reg :: regs) =
        (stack.pop.1 :: os, s, t) := by
      show (match takeRegisters counted stack.pop.2
          ((table.setPhysReg reg stack.pop.1).incWrite counted reg) regs with
        | (outs, stack', table') => (stack.pop.1 :: outs, stack', table')) = _
      rw [hout]
    obtain ⟨rfl, rfl, rfl⟩ : stack.pop.1 :: os = outs ∧ s = stack' ∧ t = table' := by
      simpa using hpop.symm.trans h
    obtain ⟨hlen, hcap, hstack, hfree, hptr⟩ :=
      ih (by rw [VanadisRegisterStack.pop_stack_top]; omega) hout
    refine ⟨by simp [hlen], hcap, ?_, ?_, ?_⟩
    · rw [hstack, VanadisRegisterStack.pop_stack_top, length_cons]
      push_cast
      ring
    · rw [VanadisRegisterStack.free_pop (by omega), hfree, ← Multiset.cons_coe, Multiset.add_cons]
    · rw [hptr, zip_cons_cons, overwrite, VanadisISATable.incWrite_reg_ptr,
        VanadisISATable.setPhysReg_reg_ptr]

theorem takeRegisters_stack {regs : List Nat} :
    (takeRegisters counted stack table regs).2.1.max_capacity = stack.max_capacity ∧
      (takeRegisters counted stack table regs).2.1.regs = stack.regs ∧
      (takeRegisters counted stack table regs).2.1.stack_top = stack.stack_top - regs.length := by
  induction regs generalizing stack table with
  | nil =>
    simp [takeRegisters]
  | cons reg regs ih =>
    obtain ⟨hcap, hregs, htop⟩ := @ih stack.pop.2
      ((table.setPhysReg reg stack.pop.1).incWrite counted reg)
    refine ⟨hcap, hregs, ?_⟩
    change (takeRegisters counted stack.pop.2
      ((table.setPhysReg reg stack.pop.1).incWrite counted reg) regs).2.1.stack_top = _
    rw [htop, VanadisRegisterStack.pop_stack_top, length_cons]
    push_cast
    ring

theorem mapped_takeRegisters {counted : Nat → Bool} {stack : VanadisRegisterStack}
    {table : VanadisISATable} (htop : (count : Int) ≤ stack.stack_top + 1) :
    stack.free = (takeRegisters counted stack table (range count)).2.1.free +
        (takeRegisters counted stack table (range count)).2.2.mapped count := by
  obtain ⟨hlen, -, -, hfree, hptr⟩ := takeRegisters_spec (by rwa [length_range])
    (Eq.refl (takeRegisters counted stack table (range count)))
  obtain ⟨outs, houts⟩ :
      ∃ o, o = (takeRegisters counted stack table (range count)).1 := ⟨_, rfl⟩
  rw [← houts] at hlen hfree hptr
  -- every key is written once, so the table holds exactly what was taken
  have hpairs : ((range count).zip outs).map (fun w =>
      (takeRegisters counted stack table (range count)).2.2.reg_ptr w.1) = outs := by
    have hvalue : ∀ w ∈ (range count).zip outs,
        (takeRegisters counted stack table (range count)).2.2.reg_ptr w.1 = w.2 := by
      intro w hw
      have hnodup : (((range count).zip outs).map Prod.fst).Nodup := by
        rw [map_fst_zip (by simp [hlen])]
        exact nodup_range
      obtain ⟨v, hv, hall⟩ := overwrite_of_mem (mem_map_of_mem (f := Prod.fst) hw)
      rw [hptr, hall]
      exact congrArg Prod.snd (inj_on_of_nodup_map hnodup hv hw rfl)
    rw [map_congr_left hvalue, map_snd_zip (by simp [hlen])]
  have hkeys : ((range count).zip outs).map (fun w =>
      (takeRegisters counted stack table (range count)).2.2.reg_ptr w.1) =
      (range count).map
        (takeRegisters counted stack table (range count)).2.2.reg_ptr := by
    have hfst := congrArg
      (map (takeRegisters counted stack table (range count)).2.2.reg_ptr)
      (map_fst_zip (show (range count).length ≤ outs.length by simp [hlen]))
    rw [map_map] at hfst
    exact hfst
  rw [hfree, VanadisISATable.mapped, Multiset.range, Multiset.map_coe, ← hkeys, hpairs]

end SstElements.Vanadis
