import SstElements.Library.Transition
import SstElements.Vanadis.IssueOrder

/-!
# What the register tables of a thread say

The issue table of a thread is its retire table with the outputs of the issued
instructions written over it, in the order of the buffer, although they issue in
another order.
-/

namespace SstElements.Vanadis

open Library Function List

universe u

variable {Op : Type u} {ins ins' : VanadisInstruction Op} {w : Nat × Nat}

namespace VanadisInstruction

/-- What an issued instruction writes over the issue table. -/
def renames (ins : VanadisInstruction Op) (kind : RegisterKind) : List (Nat × Nat) :=
  if ins.hasIssued then (ins.regs kind).writes ins.isSyscall else []

/-- The output registers that an issued instruction took from the stack. -/
def outputs (ins : VanadisInstruction Op) (kind : RegisterKind) : List Nat :=
  if ins.hasIssued then (ins.regs kind).taken ins.isSyscall else []

/-- The output registers of an issued system call, which it did not take. -/
def kept (ins : VanadisInstruction Op) (kind : RegisterKind) : List Nat :=
  if ins.hasIssued && ins.isSyscall then (ins.regs kind).phys_regs_out else []

/-- Two instructions that differ only in their progress after issue. -/
structure Similar (ins ins' : VanadisInstruction Op) : Prop where
  regs : ins'.regs = ins.regs
  func_type : ins'.func_type = ins.func_type
  hasIssued : ins'.hasIssued = ins.hasIssued

theorem Similar.refl (ins : VanadisInstruction Op) : Similar ins ins :=
  ⟨rfl, rfl, rfl⟩

theorem Similar.isSyscall (h : Similar ins ins') :
    ins'.isSyscall = ins.isSyscall := by
  rw [VanadisInstruction.isSyscall, h.func_type, VanadisInstruction.isSyscall]

variable {ins : VanadisInstruction Op} {kind : RegisterKind}

theorem renames_of_not_issued (h : ins.hasIssued = false) : ins.renames kind = [] := by
  simp [renames, h]

theorem outputs_of_not_issued (h : ins.hasIssued = false) : ins.outputs kind = [] := by
  simp [outputs, h]

theorem returned_eq (ins : VanadisInstruction Op) (kind : RegisterKind) :
    (if ins.hasIssued then (ins.regs kind).phys_regs_out else []) =
      ins.outputs kind ++ ins.kept kind := by
  unfold outputs kept Operands.taken
  cases ins.hasIssued <;> cases ins.isSyscall <;> simp

theorem mem_renames (h : w ∈ ins.renames kind) :
    ins.hasIssued = true ∧ w.1 ∈ (ins.regs kind).isa_regs_out ∧ w.2 ∈ ins.outputs kind := by
  unfold renames Operands.writes at h
  unfold outputs Operands.taken
  cases hissued : ins.hasIssued
  · simp [hissued] at h
  · cases hsys : ins.isSyscall
    · simp only [hissued, hsys, if_true, Bool.false_eq_true, if_false] at h ⊢
      exact ⟨trivial, of_mem_zip h⟩
    · simp [hissued, hsys] at h

theorem map_snd_renames
    (hlen : ins.hasIssued = true →
      (ins.regs kind).phys_regs_out.length = (ins.regs kind).isa_regs_out.length) :
    (ins.renames kind).map Prod.snd = ins.outputs kind := by
  unfold renames outputs Operands.writes Operands.taken
  split
  case isTrue hissued =>
    split
    · rfl
    · exact map_snd_zip (hlen hissued).le
  case isFalse => rfl

end VanadisInstruction

section Rob

/-- What the issued instructions write over the issue table. -/
def renamesOf (rob : List (VanadisInstruction Op)) (kind : RegisterKind) : List (Nat × Nat) :=
  rob.flatMap fun ins => ins.renames kind

/-- The output registers of the issued instructions that are not system calls. -/
def inFlight (rob : List (VanadisInstruction Op)) (kind : RegisterKind) : List Nat :=
  rob.flatMap fun ins => ins.outputs kind

/-- The output registers of the issued system calls. -/
def syscallRegs (rob : List (VanadisInstruction Op)) (kind : RegisterKind) : List Nat :=
  rob.flatMap fun ins => ins.kept kind

variable {rob rob' : List (VanadisInstruction Op)} {kind : RegisterKind}

theorem coe_returnedRegs :
    (VanadisComponent.returnedRegs rob kind : Multiset Nat) =
      (inFlight rob kind : Multiset Nat) + (syscallRegs rob kind : Multiset Nat) := by
  induction rob with
  | nil =>
    rfl
  | cons ins rob ih =>
    have hcons : VanadisComponent.returnedRegs (ins :: rob) kind =
        ins.outputs kind ++ ins.kept kind ++ VanadisComponent.returnedRegs rob kind := by
      rw [← VanadisInstruction.returned_eq]
      rfl
    have hflight : inFlight (ins :: rob) kind = ins.outputs kind ++ inFlight rob kind := by rfl
    have hkept : syscallRegs (ins :: rob) kind = ins.kept kind ++ syscallRegs rob kind := by rfl
    rw [hcons, hflight, hkept, ← Multiset.coe_add, ← Multiset.coe_add, ih,
      ← Multiset.coe_add, ← Multiset.coe_add]
    abel

theorem mem_renamesOf (h : w ∈ renamesOf rob kind) :
    ∃ ins ∈ rob, ins.hasIssued = true ∧ w.1 ∈ (ins.regs kind).isa_regs_out ∧
      w.2 ∈ ins.outputs kind := by
  obtain ⟨ins, hins, hw⟩ := mem_flatMap.1 h
  exact ⟨ins, hins, VanadisInstruction.mem_renames hw⟩

/-- Decoded instructions have not issued. -/
theorem renamesOf_append_clones (uops : List (MicroOp Op)) :
    renamesOf (rob ++ uops.map MicroOp.clone) kind = renamesOf rob kind := by
  rw [renamesOf, flatMap_append]
  refine (congrArg _ (flatMap_eq_nil_iff.2 fun ins hins => ?_)).trans (append_nil _)
  obtain ⟨uop, -, rfl⟩ := mem_map.1 hins
  exact VanadisInstruction.renames_of_not_issued rfl

theorem inFlight_append_clones (uops : List (MicroOp Op)) :
    inFlight (rob ++ uops.map MicroOp.clone) kind = inFlight rob kind := by
  rw [inFlight, flatMap_append]
  refine (congrArg _ (flatMap_eq_nil_iff.2 fun ins hins => ?_)).trans (append_nil _)
  obtain ⟨uop, -, rfl⟩ := mem_map.1 hins
  exact VanadisInstruction.outputs_of_not_issued rfl

theorem similar_renamesOf (h : List.Forall₂ VanadisInstruction.Similar rob rob') :
    renamesOf rob' kind = renamesOf rob kind := by
  induction h with
  | nil =>
    rfl
  | cons hins _ ih =>
    unfold renamesOf at ih ⊢
    rw [flatMap_cons, flatMap_cons, ih]
    simp only [VanadisInstruction.renames, hins.regs, hins.isSyscall, hins.hasIssued]

theorem similar_inFlight (h : List.Forall₂ VanadisInstruction.Similar rob rob') :
    inFlight rob' kind = inFlight rob kind := by
  induction h with
  | nil =>
    rfl
  | cons hins _ ih =>
    unfold inFlight at ih ⊢
    rw [flatMap_cons, flatMap_cons, ih]
    simp only [VanadisInstruction.outputs, hins.regs, hins.isSyscall, hins.hasIssued]

theorem similar_set {j : Nat} (hj : rob[j]? = some ins) (h : VanadisInstruction.Similar ins ins') :
    List.Forall₂ VanadisInstruction.Similar rob (rob.set j ins') := by
  induction rob generalizing j with
  | nil =>
    simp at hj
  | cons x rest ih =>
    cases j with
    | zero =>
      rw [getElem?_cons_zero, Option.some.injEq] at hj
      subst hj
      exact List.Forall₂.cons h
        (forall₂_same.2 fun y _ => VanadisInstruction.Similar.refl y)
    | succ j =>
      exact List.Forall₂.cons (VanadisInstruction.Similar.refl x) (ih hj)

end Rob

/-- The buffer and the tables of a thread fit together. -/
structure HwThread.Sound (thread : HwThread Op) : Prop where
  in_set : ∀ ins ∈ thread.rob, ins.hasIssued = true → ins.InSet thread.isa_options
  phys_out_length : ∀ ins ∈ thread.rob, ins.hasIssued = true → ∀ kind,
    (ins.regs kind).phys_regs_out.length = (ins.regs kind).isa_regs_out.length
  clear : thread.rob.Pairwise fun older ins => ins.hasIssued = true → Clear older ins
  replay : ∀ kind, (thread.issue_isa_table kind).reg_ptr =
    overwrite (thread.retire_isa_table kind).reg_ptr (renamesOf thread.rob kind)
  executed : ∀ ins ∈ thread.rob.tail, ins.hasExecuted = true → ins.hasIssued = true

namespace HwThread

variable {thread : HwThread Op}

theorem Sound.of_rob_nil (hrob : thread.rob = [])
    (htables : ∀ kind, (thread.issue_isa_table kind).reg_ptr =
      (thread.retire_isa_table kind).reg_ptr) :
    thread.Sound where
  in_set := by simp [hrob]
  phys_out_length := by simp [hrob]
  clear := by simp [hrob]
  replay := fun kind => by rw [htables, hrob]; rfl
  executed := by simp [hrob]

theorem Sound.map_snd_renamesOf (h : thread.Sound) (kind : RegisterKind) :
    (renamesOf thread.rob kind).map Prod.snd = inFlight thread.rob kind := by
  unfold renamesOf inFlight
  rw [map_flatMap]
  exact flatMap_congr fun ins hins =>
    VanadisInstruction.map_snd_renames fun hissued => h.phys_out_length ins hins hissued kind

theorem Sound.renamesOf_eq_nil_iff (h : thread.Sound) (kind : RegisterKind) :
    renamesOf thread.rob kind = [] ↔ inFlight thread.rob kind = [] := by
  rw [← h.map_snd_renamesOf kind, map_eq_nil_iff]

theorem Sound.renamesOf_lt (h : thread.Sound) {kind : RegisterKind}
    (hw : w ∈ renamesOf thread.rob kind) :
    w.1 < thread.isa_options.count_isa_reg kind := by
  obtain ⟨ins, hins, hissued, hreg, -⟩ := mem_renamesOf hw
  exact (h.in_set ins hins hissued kind).2 _ hreg

theorem Sound.of_similar (h : thread.Sound) {rob : List (VanadisInstruction Op)}
    (hrob : List.Forall₂ VanadisInstruction.Similar thread.rob rob)
    (hexecuted : ∀ ins ∈ rob.tail, ins.hasExecuted = true → ins.hasIssued = true) :
    HwThread.Sound { thread with rob := rob } := by
  have hmem : ∀ ins' ∈ rob, ∃ ins ∈ thread.rob, VanadisInstruction.Similar ins ins' := by
    intro ins' hins'
    obtain ⟨j, hj, rfl⟩ := mem_iff_getElem.1 hins'
    have hj' : j < thread.rob.length := by rwa [hrob.length_eq]
    exact ⟨thread.rob[j], getElem_mem hj', hrob.get hj' hj⟩
  have hclear : rob.Pairwise fun older ins => ins.hasIssued = true → Clear older ins := by
    refine pairwise_iff_getElem.2 fun i j hi hj hij hissued => ?_
    have hlen := hrob.length_eq
    have hsi := hrob.get (by omega) hi
    have hsj := hrob.get (by omega) hj
    have hold := pairwise_iff_getElem.1 h.clear i j (by omega) (by omega) hij
      (by rw [← hissued]; exact hsj.hasIssued.symm)
    refine hold.congr (fun kind => ?_) (fun kind => ?_) (fun kind => ?_) (fun kind => ?_) ?_
    · exact congrArg (fun r => (r kind).isa_regs_in) hsj.regs
    · exact congrArg (fun r => (r kind).isa_regs_out) hsj.regs
    · exact congrArg (fun r => (r kind).isa_regs_in) hsi.regs
    · exact congrArg (fun r => (r kind).isa_regs_out) hsi.regs
    · exact fun hnot => hsi.hasIssued.symm.trans hnot
  exact {
    in_set := fun ins' hins' hissued => by
      obtain ⟨ins, hins, hsim⟩ := hmem ins' hins'
      intro kind
      rw [hsim.regs]
      exact h.in_set ins hins (hsim.hasIssued ▸ hissued) kind
    phys_out_length := fun ins' hins' hissued kind => by
      obtain ⟨ins, hins, hsim⟩ := hmem ins' hins'
      rw [hsim.regs]
      exact h.phys_out_length ins hins (hsim.hasIssued ▸ hissued) kind
    clear := hclear
    replay := fun kind => by rw [h.replay kind, similar_renamesOf hrob]
    executed := hexecuted }

/-- New instructions behind those in the buffer. -/
theorem Sound.append (h : thread.Sound) (bundle : List (MicroOp Op)) :
    HwThread.Sound { thread with rob := thread.rob ++ bundle.map MicroOp.clone } := by
  have hnew : ∀ ins ∈ bundle.map (@MicroOp.clone Op), ins.hasIssued = false ∧
      ins.hasExecuted = false := by
    intro ins hins
    obtain ⟨uop, -, rfl⟩ := mem_map.1 hins
    exact ⟨rfl, rfl⟩
  have hold : ∀ ins ∈ thread.rob ++ bundle.map MicroOp.clone, ins.hasIssued = true →
      ins ∈ thread.rob := by
    intro ins hins hissued
    rcases mem_append.1 hins with hins | hins
    · exact hins
    · rw [(hnew ins hins).1] at hissued
      cases hissued
  exact {
    in_set := fun ins hins hissued => h.in_set ins (hold ins hins hissued) hissued
    phys_out_length := fun ins hins hissued =>
      h.phys_out_length ins (hold ins hins hissued) hissued
    clear := by
      refine pairwise_append.2 ⟨h.clear, ?_, ?_⟩
      · refine pairwise_of_forall_mem_list fun older _ ins hins hissued => ?_
        rw [(hnew ins hins).1] at hissued
        cases hissued
      · intro older _ ins hins hissued
        rw [(hnew ins hins).1] at hissued
        cases hissued
    replay := fun kind => by rw [renamesOf_append_clones, h.replay kind]
    executed := fun ins hins hexec => by
      have hins' := mem_of_mem_tail hins
      rcases mem_append.1 hins' with hmem | hmem
      · cases hrob : thread.rob with
        | nil =>
          rw [hrob] at hmem
          cases hmem
        | cons front rest =>
          simp only [hrob, cons_append, tail_cons] at hins
          rcases mem_append.1 hins with hmem | hmem
          · exact h.executed ins (by rw [hrob]; exact hmem) hexec
          · rw [(hnew ins hmem).2] at hexec
            cases hexec
      · rw [(hnew ins hmem).2] at hexec
        cases hexec }

end HwThread

theorem HwThread.Sound.retire {thread thread' : HwThread Op} {front : VanadisInstruction Op}
    {rest : List (VanadisInstruction Op)} (h : thread.Sound) (hrob : thread.rob = front :: rest)
    (hoptions : thread'.isa_options = thread.isa_options) (hrob' : thread'.rob = rest)
    (hissue : ∀ kind, (thread'.issue_isa_table kind).reg_ptr =
      (thread.issue_isa_table kind).reg_ptr)
    (hretire : ∀ kind, (thread'.retire_isa_table kind).reg_ptr =
      overwrite (thread.retire_isa_table kind).reg_ptr (front.renames kind)) :
    thread'.Sound where
  in_set := fun ins hins => by
    rw [hoptions]
    exact h.in_set ins (by rw [hrob, ← hrob']; exact mem_cons_of_mem _ hins)
  phys_out_length := fun ins hins =>
    h.phys_out_length ins (by rw [hrob, ← hrob']; exact mem_cons_of_mem _ hins)
  clear := by
    have hclear := h.clear
    rw [hrob, ← hrob'] at hclear
    exact hclear.of_cons
  replay := fun kind => by
    rw [hissue, h.replay, hretire, hrob', ← overwrite_append, hrob]
    rfl
  executed := fun ins hins => by
    refine h.executed ins ?_
    rw [hrob, tail_cons, ← hrob']
    exact mem_of_mem_tail hins

namespace VanadisComponent

variable {hw_threads : Nat}

def Sound (core : VanadisComponent Op hw_threads) : Prop := ∀ thr, (core.threads thr).Sound

variable {core core' : VanadisComponent Op hw_threads} {thr : Fin hw_threads}

theorem Sound.update {thread : HwThread Op} (h : core.Sound)
    (hthreads : core'.threads = update core.threads thr thread) (hthread : thread.Sound) :
    core'.Sound := by
  intro t
  rw [hthreads]
  by_cases ht : t = thr
  · subst ht
    rwa [update_self]
  · rw [update_of_ne ht]
    exact h t

theorem Sound.issues {before post : List (VanadisInstruction Op)} (h : core.Sound)
    (hissues : Issues core core' thr before post ins ins') :
    core'.Sound := by
  have hthread := h thr
  have hsys : ins'.isSyscall = ins.isSyscall := by
    rw [VanadisInstruction.isSyscall, hissues.func_type, VanadisInstruction.isSyscall]
  have hmem : ∀ x ∈ before ++ ins' :: post, x = ins' ∨ x ∈ (core.threads thr).rob := by
    intro x hx
    rw [hissues.rob]
    simp only [mem_append, mem_cons] at hx ⊢
    rcases hx with hx | hx | hx
    · exact .inr (.inl hx)
    · exact .inl hx
    · exact .inr (.inr (.inr hx))
  have hold := hthread.clear
  rw [hissues.rob, pairwise_append, pairwise_cons] at hold
  obtain ⟨hbefore, ⟨hins, hpost⟩, hcross⟩ := hold
  have hnew : ∀ kind, ins'.renames kind = (ins'.regs kind).writes ins.isSyscall := by
    intro kind
    rw [VanadisInstruction.renames, hissues.issued, if_pos rfl, hsys]
  refine h.update hissues.threads ?_
  exact {
    in_set := fun x hx hissued => by
      rcases hmem x hx with rfl | hx
      · intro kind
        rw [hissues.isa_in, hissues.isa_out]
        exact hissues.in_set kind
      · exact hthread.in_set x hx hissued
    phys_out_length := fun x hx hissued kind => by
      rcases hmem x hx with rfl | hx
      · rw [hissues.phys_out_length, hissues.isa_out]
      · exact hthread.phys_out_length x hx hissued kind
    clear := by
      refine pairwise_append.2 ⟨hbefore, pairwise_cons.2 ⟨?_, hpost⟩, ?_⟩
      · intro x hx hissued
        refine (hins x hx hissued).congr (fun _ => rfl) (fun _ => rfl) hissues.isa_in
          hissues.isa_out ?_
        intro hnot
        rw [hissues.issued] at hnot
        cases hnot
      · intro older hin x hx hissued
        rcases mem_cons.1 hx with rfl | hx
        · exact (hissues.clear older hin).congr hissues.isa_in hissues.isa_out
            (fun _ => rfl) (fun _ => rfl) id
        · exact hcross older hin x (mem_cons_of_mem _ hx) hissued
    replay := fun kind => by
      have hsplit : ∀ x, renamesOf (before ++ x :: post) kind =
          renamesOf before kind ++ (x.renames kind ++ renamesOf post kind) := by
        intro x
        simp [renamesOf]
      have hdisjoint : ∀ k ∈ (renamesOf post kind).map Prod.fst,
          k ∉ ((ins'.regs kind).writes ins.isSyscall).map Prod.fst := by
        intro k hk hk'
        obtain ⟨w, hw, rfl⟩ := mem_map.1 hk
        obtain ⟨x, hx, hissued, hreg, -⟩ := mem_renamesOf hw
        obtain ⟨w', hw', heq⟩ := mem_map.1 hk'
        rw [← hnew] at hw'
        have hreg' := (VanadisInstruction.mem_renames hw').2.1
        rw [hissues.isa_out, heq] at hreg'
        exact (hins x hx hissued).writes kind _ hreg hreg'
      rw [hissues.issue_ptr, hthread.replay, hissues.rob, hsplit, hsplit,
        VanadisInstruction.renames_of_not_issued hissues.not_issued, hnew,
        nil_append, overwrite_append, overwrite_comm hdisjoint, overwrite_append,
        overwrite_append]
    executed := fun x hx hexec => by
      cases before with
      | nil =>
        exact hthread.executed x (by rw [hissues.rob]; exact hx) hexec
      | cons front before =>
        rcases mem_append.1 hx with hx | hx
        · refine hthread.executed x ?_ hexec
          rw [hissues.rob, cons_append, tail_cons]
          exact mem_append_left _ hx
        · rcases mem_cons.1 hx with rfl | hx
          · exact hissues.issued
          · refine hthread.executed x ?_ hexec
            rw [hissues.rob, cons_append, tail_cons]
            exact mem_append_right _ (mem_cons_of_mem _ hx) }

end VanadisComponent

end SstElements.Vanadis
