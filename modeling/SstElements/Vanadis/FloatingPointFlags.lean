import SstElements.Vanadis.Execution

/-!
# Floating-point flags

Instructions that retire raise flags of their thread or write them.  The flags are those
that the retired instructions have raised since the last write, as long as no instruction
in a delay slot changes them.
-/

namespace SstElements.Vanadis

open Library Function List

inductive VanadisFPRoundingMode
  | ROUND_NEAREST
  | ROUND_TO_ZERO
  | ROUND_DOWN
  | ROUND_UP
  | ROUND_NEAREST_TO_MAX

inductive FPFlag
  | invalidop
  | divzero
  | overflow
  | underflow
  | inexact
  deriving DecidableEq

structure VanadisFloatingPointFlags where
  flags : FPFlag → Bool
  round_mode : VanadisFPRoundingMode

namespace VanadisFloatingPointFlags

def update (f new_flags : VanadisFloatingPointFlags) : VanadisFloatingPointFlags where
  flags := fun flag => if f.flags flag then true else new_flags.flags flag
  round_mode := new_flags.round_mode

def set (_ new_flags : VanadisFloatingPointFlags) : VanadisFloatingPointFlags where
  flags := new_flags.flags
  round_mode := new_flags.round_mode

end VanadisFloatingPointFlags

/-- What an instruction does to the flags; one that is not for floating-point numbers
does nothing. -/
structure FPEffect where
  update_fp_flags : Bool
  set_fp_flags : Bool
  fpflags : VanadisFloatingPointFlags

namespace FPEffect

def updatesFPFlags (e : FPEffect) : Bool := e.update_fp_flags || e.set_fp_flags

def updateFPFlags (e : FPEffect) (pipeline_fpflags : VanadisFloatingPointFlags) :
    VanadisFloatingPointFlags :=
  if e.update_fp_flags then pipeline_fpflags.update e.fpflags
  else if e.set_fp_flags then pipeline_fpflags.set e.fpflags
  else pipeline_fpflags

def cleanUp (e : FPEffect) (pipeline_fpflags : VanadisFloatingPointFlags) :
    VanadisFloatingPointFlags :=
  if e.updatesFPFlags then e.updateFPFlags pipeline_fpflags else pipeline_fpflags

/-- The instruction writes the flags explicitly. -/
def writes (e : FPEffect) : Bool := !e.update_fp_flags && e.set_fp_flags

end FPEffect

/-- A retired instruction produced the flag and none behind it wrote the flags, or the
flag was there from the start and none wrote them. -/
def Raised (flag : FPFlag) (start : VanadisFloatingPointFlags) (retired : List FPEffect) : Prop :=
  (∃ before e after, retired = before ++ e :: after ∧ e.updatesFPFlags = true ∧
      e.fpflags.flags flag = true ∧ ∀ e' ∈ after, e'.writes = false) ∨
    start.flags flag = true ∧ ∀ e' ∈ retired, e'.writes = false

section Flags

variable {flag : FPFlag} {start f : VanadisFloatingPointFlags}
variable {retired : List FPEffect} {e : FPEffect}

theorem raised_nil : Raised flag start [] ↔ start.flags flag = true := by
  simp [Raised]

theorem raised_concat :
    Raised flag start (retired ++ [e]) ↔ e.updatesFPFlags = true ∧ e.fpflags.flags flag = true ∨
        e.writes = false ∧ Raised flag start retired := by
  constructor
  · rintro (⟨before, e', after, heq, hupdates, hflag, hafter⟩ | ⟨hstart, hnone⟩)
    · rcases eq_nil_or_concat after with rfl | ⟨after, last, rfl⟩
      · obtain ⟨-, hlast⟩ := append_inj' heq rfl
        obtain rfl := singleton_inj.1 hlast
        exact .inl ⟨hupdates, hflag⟩
      · rw [concat_eq_append] at heq hafter
        obtain ⟨hretired, hlast⟩ := append_inj' (heq.trans
          (append_assoc before (e' :: after) [last]).symm) rfl
        obtain rfl := singleton_inj.1 hlast
        exact .inr ⟨hafter e (by simp), .inl ⟨before, e', after, hretired, hupdates, hflag,
          fun x hx => hafter x (mem_append_left _ hx)⟩⟩
    · exact .inr ⟨hnone e (by simp), .inr ⟨hstart, fun x hx => hnone x (mem_append_left _ hx)⟩⟩
  · rintro (⟨hupdates, hflag⟩ | ⟨hwrites, ⟨before, e', after, rfl, hupdates, hflag, hafter⟩ |
      ⟨hstart, hnone⟩⟩)
    · exact .inl ⟨retired, e, [], rfl, hupdates, hflag, by simp⟩
    · refine .inl ⟨before, e', after ++ [e], by simp, hupdates, hflag, ?_⟩
      exact forall_mem_append.2 ⟨hafter, forall_mem_singleton.2 hwrites⟩
    · exact .inr ⟨hstart, forall_mem_append.2 ⟨hnone, forall_mem_singleton.2 hwrites⟩⟩

theorem cleanUp_flags :
    (e.cleanUp f).flags flag = true ↔ e.updatesFPFlags = true ∧ e.fpflags.flags flag = true ∨
        e.writes = false ∧ f.flags flag = true := by
  unfold FPEffect.cleanUp FPEffect.updateFPFlags FPEffect.updatesFPFlags FPEffect.writes
  cases e.update_fp_flags <;> cases e.set_fp_flags <;>
    simp [VanadisFloatingPointFlags.update, VanadisFloatingPointFlags.set, or_comm]

/-- The flags are those that the retired instructions raised. -/
def Accumulated
    (start : VanadisFloatingPointFlags) (retired : List FPEffect)
    (f : VanadisFloatingPointFlags) : Prop :=
  ∀ flag, f.flags flag = true ↔ Raised flag start retired

theorem Accumulated.cleanUp (h : Accumulated start retired f) (e : FPEffect) :
    Accumulated start (retired ++ [e]) (e.cleanUp f) :=
  fun flag => by rw [cleanUp_flags, raised_concat, h flag]

theorem cleanUp_cleanUp (e : FPEffect) (f : VanadisFloatingPointFlags) (flag : FPFlag) :
    (e.cleanUp (e.cleanUp f)).flags flag = (e.cleanUp f).flags flag := by
  rw [Bool.eq_iff_iff, cleanUp_flags, cleanUp_flags]
  tauto

end Flags

variable {hw_threads : Nat}

/-- The core with the flags of the threads, and what has retired of them in order. -/
structure FPMachine (hw_threads : Nat) where
  core : VanadisComponent FPEffect hw_threads
  fp_flags : Fin hw_threads → VanadisFloatingPointFlags
  retired : Fin hw_threads → List FPEffect

namespace FPMachine

/-- The flags after an attempt to retire; the clean-up of a delay slot looks at the
instruction in front of it again. -/
def retireFlags
    (rob : List (VanadisInstruction FPEffect)) (fp_flags : VanadisFloatingPointFlags) :
    VanadisFloatingPointFlags :=
  match retiring rob with
  | rob_front :: _ :: _ => rob_front.op.cleanUp (rob_front.op.cleanUp fp_flags)
  | [rob_front] => rob_front.op.cleanUp fp_flags
  | [] => fp_flags

def step (m : FPMachine hw_threads) (op : PipelineOp FPEffect hw_threads) :
    Option (FPMachine hw_threads) :=
  (m.core.step op).map fun core =>
    match op with
    | .retire thr _ =>
      let rob := (m.core.threads thr).rob
      { core := core
        fp_flags := update m.fp_flags thr (retireFlags rob (m.fp_flags thr))
        retired := update m.retired thr
          (m.retired thr ++ (retiring rob).map VanadisInstruction.op) }
    | _ => { m with core := core }

/-- Each thread has the flags that its retired instructions raised. -/
def Exact (start : Fin hw_threads → VanadisFloatingPointFlags) (m : FPMachine hw_threads) : Prop :=
  ∀ thr, Accumulated (start thr) (m.retired thr) (m.fp_flags thr)

/-- An instruction that retires in a delay slot changes no flag. -/
def DelayKeepsFlags (m : FPMachine hw_threads) : PipelineOp FPEffect hw_threads → Prop
  | .retire thr _ => ∀ rob_front delay_ins,
      retiring (m.core.threads thr).rob = [rob_front, delay_ins] → ∀ flag,
        (delay_ins.op.cleanUp (rob_front.op.cleanUp (m.fp_flags thr))).flags flag =
          (rob_front.op.cleanUp (m.fp_flags thr)).flags flag
  | _ => True

variable {start : Fin hw_threads → VanadisFloatingPointFlags} {m m' : FPMachine hw_threads}
variable {op : PipelineOp FPEffect hw_threads}

theorem retiring_cases (rob : List (VanadisInstruction FPEffect)) :
    retiring rob = [] ∨ (∃ rob_front, retiring rob = [rob_front]) ∨
      ∃ rob_front delay_ins, retiring rob = [rob_front, delay_ins] := by
  unfold retiring
  split
  · exact .inl rfl
  · split
    · split
      · split
        · exact .inl rfl
        · split
          · exact .inr (.inr ⟨_, _, rfl⟩)
          · exact .inl rfl
      · exact .inr (.inl ⟨_, rfl⟩)
    · exact .inl rfl

theorem accumulated_retireFlags_iff {first f : VanadisFloatingPointFlags} {retired : List FPEffect}
    {rob : List (VanadisInstruction FPEffect)} (h : Accumulated first retired f) :
    Accumulated first (retired ++ (retiring rob).map VanadisInstruction.op) (retireFlags rob f) ↔
      ∀ rob_front delay_ins, retiring rob = [rob_front, delay_ins] → ∀ flag,
        (delay_ins.op.cleanUp (rob_front.op.cleanUp f)).flags flag =
          (rob_front.op.cleanUp f).flags flag := by
  unfold retireFlags
  rcases retiring_cases rob with heq | ⟨rob_front, heq⟩ | ⟨rob_front, delay_ins, heq⟩
  · simp [heq, h]
  · simp [heq, h.cleanUp]
  · have hboth := (h.cleanUp rob_front.op).cleanUp delay_ins.op
    rw [append_assoc] at hboth
    simp only [heq, map_cons, map_nil, List.cons.injEq, and_true, and_imp]
    constructor
    · rintro hkept _ _ rfl rfl flag
      rw [Bool.eq_iff_iff, hboth flag, ← cleanUp_cleanUp, hkept flag]
      rfl
    · intro hsame flag
      rw [cleanUp_cleanUp, ← hsame _ _ rfl rfl flag, hboth flag]
      rfl

theorem exact_step_iff (h : m.Exact start) (hstep : m.step op = some m') :
    m'.Exact start ↔ m.DelayKeepsFlags op := by
  obtain ⟨core, -, rfl⟩ := Option.map_eq_some_iff.1 hstep
  cases op with
  | retire thr ret =>
    refine Iff.trans ⟨fun hexact => ?_, fun hkept t => ?_⟩ (accumulated_retireFlags_iff (h thr))
    · have hthr := hexact thr
      simpa only [update_self] using hthr
    · by_cases ht : t = thr
      · subst ht
        simpa only [update_self] using hkept
      · simpa only [update_of_ne ht] using h t
  | _ => exact iff_of_true h trivial

/-- The flags of every thread are exact throughout a run if and only if all delay slots of
the run keep them. -/
theorem exact_iff {ops : List (PipelineOp FPEffect hw_threads)}
    (hstart : ∀ thr, m.fp_flags thr = start thr ∧ m.retired thr = [])
    (hrun : runOps FPMachine.step m ops = some m') :
    Throughout FPMachine.step (Exact start) m ops ↔
      StepsMeet FPMachine.step DelayKeepsFlags m ops := by
  refine throughout_iff_stepsMeet (Q := fun _ => True) (fun _ _ _ _ _ => trivial)
    (fun _ _ _ _ hexact hstep => exact_step_iff hexact hstep) trivial (fun thr flag => ?_) hrun
  rw [(hstart thr).1, (hstart thr).2, raised_nil]

/-- An effect that raises the given flags of cleared ones. -/
def raising (flags : FPFlag → Bool) : FPEffect where
  update_fp_flags := true
  set_fp_flags := false
  fpflags := ⟨flags, .ROUND_NEAREST⟩

/-- A branch that does nothing to the flags, and the instruction in its delay slot. -/
def branchWithDelay (delay : FPEffect) : FPMachine 1 where
  core :=
    { rob_count := 2
      register_stack := fun _ => .reset 0
      threads := fun _ =>
        { isa_options := ⟨fun _ => 0, 0⟩
          halted := false
          rob :=
            [⟨0, ⟨false, false, ⟨fun _ => false, .ROUND_NEAREST⟩⟩, .INST_BRANCH,
                fun _ => ⟨[], [], [], []⟩, some ⟨.VANADIS_SINGLE_DELAY_SLOT, 8, 8⟩,
                true, true, true⟩,
              ⟨4, delay, .INST_FP_ARITH, fun _ => ⟨[], [], [], []⟩, none, true, true, true⟩]
          issue_isa_table := fun _ => .empty
          retire_isa_table := fun _ => .empty } }
  fp_flags := fun _ => ⟨fun _ => false, .ROUND_NEAREST⟩
  retired := fun _ => []

/-- The instruction in the delay slot raises no flag. -/
theorem exact_iff_quiet :
    Throughout FPMachine.step (Exact fun _ => ⟨fun _ => false, .ROUND_NEAREST⟩)
        (branchWithDelay (raising fun _ => false)) [.retire 0 false] ↔
      StepsMeet FPMachine.step DelayKeepsFlags
        (branchWithDelay (raising fun _ => false)) [.retire 0 false] :=
  exact_iff (fun _ => ⟨rfl, rfl⟩) rfl

/-- The overflow in the delay slot is lost. -/
theorem not_exact_overflow :
    ¬Throughout FPMachine.step (Exact fun _ => ⟨fun _ => false, .ROUND_NEAREST⟩)
      (branchWithDelay (raising fun flag => flag = .overflow)) [.retire 0 false] := by
  intro h
  have hraised := (h _ _ prefix_rfl rfl 0 .overflow).2
    (.inl ⟨[_], _, [], rfl, rfl, rfl, by simp⟩)
  exact Bool.false_ne_true hraised

end FPMachine

end SstElements.Vanadis
