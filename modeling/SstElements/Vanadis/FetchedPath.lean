import SstElements.Vanadis.RetiredValues

/-!
# What has been fetched along the predicted path

The buffer of a thread holds what the sequential machine will execute next, as far
as the predictions of its branches are right.
-/

namespace SstElements.Vanadis

open Library List

universe u v

variable {Op : Type u} {Word : Type v}

/-- Where decoding goes on behind an instruction, by its prediction. -/
def VanadisInstruction.predictedNext (ins : VanadisInstruction Op) (next : Nat) : Nat :=
  match ins.speculation with
  | none => next
  | some s => s.speculatedAddress

/-- The buffer holds what is left of an instruction, and then what is at `next` and
so on up to the address `ip` from which the decoder goes on. -/
inductive Fetched (program : Program Op) (ip : Nat) :
    List (MicroOp Op) → Nat → List (VanadisInstruction Op) → Prop
  | done : Fetched program ip [] ip []
  | fetch
      {next : Nat} {rob : List (VanadisInstruction Op)}
      (hne : program.group next ≠ [])
      (h : Fetched program ip (program.group next) (program.fallThrough next) rob) :
      Fetched program ip [] next rob
  | take
      {uop : MicroOp Op} {rest : List (MicroOp Op)} {next : Nat}
      {ins : VanadisInstruction Op} {rob : List (VanadisInstruction Op)}
      (hdec : Decodes ins uop)
      (h : Fetched program ip rest (ins.predictedNext next) rob) :
      Fetched program ip (uop :: rest) next (ins :: rob)

namespace Program

variable (program : Program Op)

/-- The program has the micro-operation somewhere. -/
def Has (uop : MicroOp Op) : Prop := ∃ addr, uop ∈ (program.bundleAt addr).uops

variable {program}
variable {uop : MicroOp Op} {addr : Nat}

theorem has_of_mem_group (h : uop ∈ program.group addr) : program.Has uop := by
  rcases mem_append.1 h with h | h
  · exact ⟨addr, h⟩
  · split at h
    · exact ⟨_, h⟩
    · cases h

theorem eq_concat_of_branch (hmem : uop ∈ (program.bundleAt addr).uops)
    (hbranch : uop.branch.isSome = true) :
    (program.bundleAt addr).uops = (program.bundleAt addr).uops.dropLast ++ [uop] ∧
      (program.bundleAt addr).endsInBranch = true := by
  obtain ⟨init, last, hsplit⟩ : ∃ init last, (program.bundleAt addr).uops = init ++ [last] := by
    rcases eq_nil_or_concat (program.bundleAt addr).uops with hnil | ⟨init, last, h⟩
    · rw [hnil] at hmem
      cases hmem
    · exact ⟨init, last, by rw [h, concat_eq_append]⟩
  have hlast : uop = last := by
    rw [hsplit] at hmem
    rcases mem_append.1 hmem with hinit | hlast
    · have hnone := program.branch_last addr uop
        (by rw [hsplit, dropLast_concat]; exact hinit)
      rw [hnone] at hbranch
      cases hbranch
    · exact mem_singleton.1 hlast
  subst hlast
  rw [VanadisInstructionBundle.endsInBranch, hsplit, dropLast_concat, getLast?_concat]
  exact ⟨rfl, hbranch⟩

theorem delay_of_suffix {rest : List (MicroOp Op)} (hsuffix : uop :: rest <:+ program.group addr)
    (hbranch : uop.branch.isSome = true) :
    uop.ins_address = addr ∧
      rest = if program.delay_slots then program.delayBundle addr else [] := by
  obtain ⟨pre, hpre⟩ := hsuffix
  -- the delay slot has no branch, so the branch is the last one of the bundle
  have hdelay : ∀ x, (program.bundleAt addr).endsInBranch && program.delay_slots →
      x ∈ program.delayBundle addr → x.branch = none := by
    intro x hslot hx
    rw [Bool.and_eq_true] at hslot
    exact program.delay_plain hslot.2 addr hslot.1 x hx
  have hmem : uop ∈ (program.bundleAt addr).uops := by
    have hgroup : uop ∈ program.group addr := by
      rw [← hpre]
      simp
    rcases mem_append.1 hgroup with h | h
    · exact h
    · split at h
      case isTrue hslot =>
        rw [hdelay uop hslot h] at hbranch
        cases hbranch
      case isFalse => cases h
  obtain ⟨hsplit, hends⟩ := eq_concat_of_branch hmem hbranch
  refine ⟨program.address addr uop hmem, ?_⟩
  have hgroup : program.group addr = (program.bundleAt addr).uops.dropLast ++
      uop :: if program.delay_slots then program.delayBundle addr else [] := by
    rw [group, hends, Bool.true_and]
    conv_lhs => rw [hsplit]
    rw [append_assoc, singleton_append]
  rw [hgroup] at hpre
  rcases append_eq_append_iff.1 hpre with ⟨mid, hmid, htail⟩ | ⟨mid, hmid, htail⟩
  · cases mid with
    | nil => exact (cons.inj htail).2
    | cons x mid =>
      obtain ⟨rfl, hrest⟩ := cons.inj htail
      have hnone := program.branch_last addr uop (by rw [hmid]; simp)
      rw [hnone] at hbranch
      cases hbranch
  · cases mid with
    | nil => exact (cons.inj htail).2.symm
    | cons x mid =>
      obtain ⟨rfl, hrest⟩ := cons.inj htail
      have huop : uop ∈ if program.delay_slots then program.delayBundle addr else [] := by
        rw [hrest]
        simp
      split at huop
      case isTrue hslot =>
        rw [hdelay uop (by rw [hends, hslot]; rfl) huop] at hbranch
        cases hbranch
      case isFalse => cases huop

theorem group_any_branch (program : Program Op) (addr : Nat) :
    (program.group addr).any (·.branch.isSome) = (program.bundleAt addr).endsInBranch := by
  cases hends : (program.bundleAt addr).endsInBranch with
  | true =>
    refine any_eq_true.2 ?_
    rw [VanadisInstructionBundle.endsInBranch] at hends
    split at hends
    case h_1 => cases hends
    case h_2 uop hlast =>
      exact ⟨uop, mem_append_left _ (mem_of_getLast? hlast), hends⟩
  | false =>
    refine any_eq_false.2 fun uop huop hbranch => ?_
    rw [group, hends, Bool.false_and, if_neg Bool.false_ne_true, append_nil] at huop
    have htrue := (eq_concat_of_branch huop hbranch).2
    rw [hends] at htrue
    cases htrue

end Program

namespace Fetched

variable {program : Program Op} {ip ip' next : Nat} {pending : List (MicroOp Op)}
variable {rob : List (VanadisInstruction Op)}

theorem of_clones {uops : List (MicroOp Op)} {predicted : Nat}
    (hip : ip = if uops.any (·.branch.isSome) then predicted else next) :
    Fetched program ip uops next
      ((uops.map (·.setSpeculatedAddress predicted)).map MicroOp.clone) := by
  induction uops generalizing next with
  | nil =>
    subst hip
    exact Fetched.done
  | cons uop uops ih =>
    refine Fetched.take
      ⟨rfl, rfl, rfl, fun _ => rfl, fun _ => rfl, ?_⟩ (ih ?_)
    · cases hbranch : uop.branch with
      | none => simp [MicroOp.clone, MicroOp.setSpeculatedAddress, hbranch]
      | some b => simp [MicroOp.clone, MicroOp.setSpeculatedAddress, hbranch]
    · rw [hip, any_cons]
      cases hbranch : uop.branch with
      | none =>
        simp [VanadisInstruction.predictedNext, MicroOp.clone,
          MicroOp.setSpeculatedAddress, hbranch]
      | some b =>
        simp [VanadisInstruction.predictedNext, MicroOp.clone,
          MicroOp.setSpeculatedAddress, hbranch]

section

variable (h : Fetched program ip pending next rob)
include h

theorem append {predicted : Nat} (hne : program.group ip ≠ [])
    (hip : ip' = if (program.bundleAt ip).endsInBranch then predicted
      else program.fallThrough ip) :
    Fetched program ip' pending next
      (rob ++ ((program.group ip).map (·.setSpeculatedAddress predicted)).map
        MicroOp.clone) := by
  induction h with
  | done =>
    refine Fetched.fetch hne (of_clones ?_)
    rw [program.group_any_branch]
    exact hip
  | fetch hne' _ ih => exact Fetched.fetch hne' ih
  | take hdec _ ih => exact Fetched.take hdec ih

theorem decodes (hpending : ∀ uop ∈ pending, program.Has uop) :
    ∀ ins ∈ rob, ∃ uop, program.Has uop ∧ Decodes ins uop := by
  induction h with
  | done =>
    simp
  | fetch _ _ ih =>
    exact ih fun uop huop => Program.has_of_mem_group huop
  | take hdec _ ih =>
    intro ins hins
    rcases mem_cons.1 hins with rfl | hins
    · exact ⟨_, hpending _ mem_cons_self, hdec⟩
    · exact ih (fun uop huop => hpending uop (mem_cons_of_mem _ huop)) ins hins

theorem congr {rob' : List (VanadisInstruction Op)}
    (hrob : List.Forall₂ (fun ins ins' : VanadisInstruction Op =>
      (∀ uop, Decodes ins uop → Decodes ins' uop) ∧
        ∀ next, ins'.predictedNext next = ins.predictedNext next) rob rob') :
    Fetched program ip pending next rob' := by
  induction h generalizing rob' with
  | done =>
    cases hrob
    exact Fetched.done
  | fetch hne _ ih => exact Fetched.fetch hne (ih hrob)
  | take hdec _ ih =>
    cases hrob with
    | cons hins hrest =>
      refine Fetched.take (hins.1 _ hdec) ?_
      rw [hins.2]
      exact ih hrest

end

end Fetched

/-- The sequential machine is in the middle of an instruction of the program. -/
def Program.Within (program : Program Op) (pending : List (MicroOp Op)) : Prop :=
  ∃ addr, pending <:+ program.group addr

variable {program : Program Op}

theorem Program.Within.has {pending : List (MicroOp Op)} (h : program.Within pending) :
    ∀ uop ∈ pending, program.Has uop := by
  obtain ⟨addr, hsuffix⟩ := h
  exact fun uop huop => Program.has_of_mem_group (hsuffix.subset huop)

/-- The oldest instruction is the next of the program, the rest stays on its path. -/
theorem Fetched.step [Zero Word] {ip : Nat} {opts : VanadisDecoderOptions} {sem : Semantics Op Word}
    {s : Sequential Op Word} {front : VanadisInstruction Op} {rob : List (VanadisInstruction Op)}
    (h : Fetched program ip s.pending s.next (front :: rob)) (hwithin : program.Within s.pending) :
    ∃ uop rest next, s.step opts program sem = s.execute opts sem uop rest next ∧
      Decodes front uop ∧ program.Within (uop :: rest) ∧
      Fetched program ip rest (front.predictedNext next) rob := by
  unfold Sequential.step
  cases hpending : s.pending with
  | nil =>
    rw [hpending] at h
    cases h with
    | fetch hne h =>
      cases hgroup : program.group s.next with
      | nil => exact absurd hgroup hne
      | cons uop rest =>
        rw [hgroup] at h
        cases h with
        | take hdec h =>
          exact ⟨uop, rest, _, rfl, hdec, ⟨s.next, hgroup ▸ suffix_refl _⟩, h⟩
  | cons uop rest =>
    rw [hpending] at h hwithin
    cases h with
    | take hdec h => exact ⟨uop, rest, _, rfl, hdec, hwithin, h⟩

end SstElements.Vanadis
