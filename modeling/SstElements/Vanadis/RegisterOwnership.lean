import SstElements.Vanadis.RegisterPartition

/-!
# Runs of the core that keep the registers partitioned

A squash returns the output registers of an issued system call although it never
took them, and a thread that is started over issued instructions loses theirs.
The registers stay partitioned in exactly the runs where neither happens.
-/

namespace SstElements.Vanadis

open Library Function List Option Bool

universe u

variable {Op : Type u} {hw_threads : Nat}

def squashedByRetire : List (VanadisInstruction Op) → List (VanadisInstruction Op)
  | [] => []
  | rob_front :: rest =>
    if rob_front.hasIssued && rob_front.hasExecuted && rob_front.mispredicted then
      if rob_front.hasDelaySlot then
        match rest with
        | [] => []
        | delay_ins :: rest' => if delay_ins.hasExecuted then rest' else []
      else
        rest
    else
      []

namespace VanadisComponent

variable {core core' : VanadisComponent Op hw_threads} {thr : Fin hw_threads}
variable {rob : List (VanadisInstruction Op)}

theorem setRob_threads :
    (core.setRob thr rob).threads =
      update core.threads thr { core.threads thr with rob := rob } := by
  rfl

theorem Sound.setRob (h : core.Sound)
    (hrob : List.Forall₂ VanadisInstruction.Similar (core.threads thr).rob rob)
    (hexecuted : ∀ ins ∈ rob.tail, ins.hasExecuted = true → ins.hasIssued = true) :
    (core.setRob thr rob).Sound :=
  h.update rfl ((h thr).of_similar hrob hexecuted)

section Retire

variable {front delay : VanadisInstruction Op} {rest : List (VanadisInstruction Op)}

theorem similar_front {front' : VanadisInstruction Op}
    (h : VanadisInstruction.Similar front front') :
    List.Forall₂ VanadisInstruction.Similar (front :: rest) (front' :: rest) :=
  List.Forall₂.cons h (forall₂_same.2 fun x _ => VanadisInstruction.Similar.refl x)

theorem retireFront_spec (h : core.Sound) (hrob : (core.threads thr).rob = front :: rest)
    (hissued : front.hasIssued = true) :
    (core.retireFront thr front rest).Sound ∧
      Moved core (core.retireFront thr front rest) fun kind =>
        (syscallRegs (if front.mispredicted then rest else []) kind : Multiset Nat) := by
  have hsound := h.recover hrob hissued
  have hmoved := moved_recover (h thr) hrob hissued
  unfold retireFront
  split
  case isTrue hmiss =>
    have hsquash := hmoved.trans
      (@moved_misspeculate _ _ (core.recoverRetiredRegisters thr front rest) thr)
    rw [recoverRetiredRegisters_thread.2] at hsquash
    exact ⟨hsound.misspeculate, hsquash⟩
  case isFalse => exact ⟨hsound, hmoved⟩

theorem retireWithDelay_spec (h : core.Sound)
    (hrob : (core.threads thr).rob = front :: delay :: rest) (hissued : front.hasIssued = true)
    (hdelay : delay.hasIssued = true) :
    (core.retireWithDelay thr front delay rest).Sound ∧
      Moved core (core.retireWithDelay thr front delay rest) fun kind =>
        (syscallRegs (if front.mispredicted then rest else []) kind : Multiset Nat) := by
  have hfirst := h.recover hrob hissued
  have hsound := hfirst.recover recoverRetiredRegisters_thread.2 hdelay
  have hmoved := (moved_recover (h thr) hrob hissued).trans
    (moved_recover (hfirst thr) recoverRetiredRegisters_thread.2 hdelay)
  unfold retireWithDelay
  split
  case isTrue hmiss =>
    have hsquash := hmoved.trans (@moved_misspeculate _ _
      ((core.recoverRetiredRegisters thr front (delay :: rest)).recoverRetiredRegisters
        thr delay rest) thr)
    rw [recoverRetiredRegisters_thread.2] at hsquash
    exact ⟨hsound.misspeculate, hsquash⟩
  case isFalse =>
    exact ⟨hsound, hmoved⟩

end Retire

theorem Moved.of_eq {extra extra' : RegisterKind → Multiset Nat} (h : Moved core core' extra)
    (heq : ∀ kind, extra kind = extra' kind) :
    Moved core core' extra' :=
  (funext heq : extra = extra') ▸ h

theorem performRetire_other {ret : Bool} {t : Fin hw_threads} (ht : t ≠ thr) :
    (core.performRetire thr ret).threads t = core.threads t := by
  have hrecover : ∀ (c : VanadisComponent Op hw_threads) front rest,
      (c.recoverRetiredRegisters thr front rest).threads t = c.threads t := fun c front rest => by
    rw [recoverRetiredRegisters_threads, update_of_ne ht]
  have hmiss : ∀ c : VanadisComponent Op hw_threads,
      (c.handleMisspeculate thr).threads t = c.threads t := fun c => by
    rw [handleMisspeculate_threads, update_of_ne ht]
  have hset : ∀ rob, (core.setRob thr rob).threads t = core.threads t := fun rob => by
    rw [setRob_threads, update_of_ne ht]
  unfold performRetire
  cases (core.threads thr).rob with
  | nil => rfl
  | cons front rest =>
    dsimp only
    split
    · split
      · cases rest with
        | nil => rfl
        | cons delay rest =>
          dsimp only
          split
          · unfold retireWithDelay
            split
            · rw [hmiss, hrecover, hrecover]
            · rw [hrecover, hrecover]
          · exact hset _
      · unfold retireFront
        split
        · rw [hmiss, hrecover]
        · rw [hrecover]
    · split
      · split
        · exact hset _
        · rfl
      · exact hset _

/-- A retirement moves registers and loses only a system call's. -/
theorem performRetire_spec {ret : Bool} (h : core.Sound) :
    (core.performRetire thr ret).Sound ∧ Moved core (core.performRetire thr ret) fun kind =>
        (syscallRegs (squashedByRetire (core.threads thr).rob) kind : Multiset Nat) := by
  -- a step that only marks instructions squashes nothing
  have hmark : ∀ rob, List.Forall₂ VanadisInstruction.Similar (core.threads thr).rob rob →
      (∀ ins ∈ rob.tail, ins.hasExecuted = true → ins.hasIssued = true) →
      squashedByRetire (core.threads thr).rob = [] →
      (core.setRob thr rob).Sound ∧ Moved core (core.setRob thr rob) fun kind =>
        (syscallRegs (squashedByRetire (core.threads thr).rob) kind : Multiset Nat) := by
    intro rob hsimilar hexecuted hnil
    rw [hnil]
    exact ⟨h.setRob hsimilar hexecuted, moved_similar hsimilar⟩
  have hstay : squashedByRetire (core.threads thr).rob = [] →
      core.Sound ∧ Moved core core fun kind =>
        (syscallRegs (squashedByRetire (core.threads thr).rob) kind : Multiset Nat) := by
    intro hnil
    rw [hnil]
    exact ⟨h, Moved.refl core⟩
  have htail := (h thr).executed
  unfold performRetire
  cases hrob : (core.threads thr).rob with
  | nil =>
    rw [hrob] at hstay
    exact hstay rfl
  | cons front rest =>
    rw [hrob] at hmark hstay htail
    dsimp only
    split
    case isTrue hready =>
      have hissued : front.hasIssued = true := (and_eq_true_iff.1 hready).1
      split
      case isTrue hslot =>
        cases rest with
        | nil => exact hstay (by simp [squashedByRetire, hslot])
        | cons delay rest =>
          dsimp only
          split
          case isTrue hdone =>
            have hspec := retireWithDelay_spec h hrob hissued
              (htail delay mem_cons_self hdone)
            refine ⟨hspec.1, hspec.2.of_eq fun kind => ?_⟩
            simp [squashedByRetire, hready, hslot, hdone]
          case isFalse hwait =>
            refine hmark _ (List.Forall₂.cons (.refl front) (similar_front ⟨rfl, rfl, rfl⟩)) ?_
              (by simp [squashedByRetire, hslot, hwait])
            intro ins hins hexec
            rcases mem_cons.1 hins with rfl | hins
            · exact absurd hexec hwait
            · exact htail ins (mem_cons_of_mem _ hins) hexec
      case isFalse hslot =>
        have hspec := retireFront_spec h hrob hissued
        refine ⟨hspec.1, hspec.2.of_eq fun kind => ?_⟩
        simp [squashedByRetire, hready, hslot]
    case isFalse hready =>
      have hnil : squashedByRetire (front :: rest) = [] := by
        simp only [squashedByRetire]
        rw [if_neg (by simp only [and_eq_true] at hready ⊢; tauto)]
      split
      · split
        · refine hmark _ (similar_front ?_) htail hnil
          split
          · exact ⟨rfl, rfl, rfl⟩
          · exact ⟨rfl, rfl, rfl⟩
        · exact hstay hnil
      · exact hmark _ (similar_front ⟨rfl, rfl, rfl⟩) htail hnil

/-- No squash hits an issued system call with output registers, and no thread is
started while issued instructions hold output registers. -/
def Orderly (core : VanadisComponent Op hw_threads) : PipelineOp Op hw_threads → Prop
  | .retire thr _ => ∀ kind, syscallRegs (squashedByRetire (core.threads thr).rob) kind = []
  | .halt thr => ∀ kind, syscallRegs (core.threads thr).rob kind = []
  | .start thr => ∀ kind, inFlight (core.threads thr).rob kind = []
  | .startFork thr => ∀ kind, inFlight (core.threads thr).rob kind = []
  | .startClone thr => ∀ kind, inFlight (core.threads thr).rob kind = []
  | _ => True

/-- What all states have in common, whatever has happened to the registers. -/
structure Consistent (core : VanadisComponent Op hw_threads) : Prop where
  sound : core.Sound
  stack_top : ∀ kind, -1 ≤ (core.register_stack kind).stack_top

theorem Moved.partitioned_iff {extra : RegisterKind → Multiset Nat}
    (hmoved : Moved core core' extra) (htop : ∀ kind, -1 ≤ (core.register_stack kind).stack_top)
    (hpart : core.Partitioned) :
    core'.Partitioned ↔ ∀ kind, extra kind = 0 := by
  rw [VanadisComponent.partitioned_iff] at hpart ⊢
  have htotal : ∀ kind, core'.total kind =
      Multiset.range (core'.register_stack kind).max_capacity ↔ extra kind = 0 := by
    intro kind
    rw [hmoved.total htop, hmoved.capacity, hpart.2, add_eq_left]
  simp only [htotal]
  exact and_iff_right (hmoved.stack_top htop)

section Start

variable {thread : HwThread Op}

theorem partitioned_iff_of_started (h : core.Consistent) (hpart : core.Partitioned)
    (hstack : core'.register_stack = core.register_stack)
    (hthreads : core'.threads = update core.threads thr thread)
    (hoptions : thread.isa_options = (core.threads thr).isa_options)
    (hretire : ∀ kind, (thread.retire_isa_table kind).reg_ptr =
      ((core.threads thr).issue_isa_table kind).reg_ptr)
    (hrob : thread.rob = [] ∨ thread.rob = (core.threads thr).rob) :
    core'.Partitioned ↔ ∀ kind, inFlight (core.threads thr).rob kind = [] := by
  have hnodup := hpart.share_nodup thr
  rw [partitioned_iff] at hpart ⊢
  have htotal : ∀ kind, core'.total kind + (core.threads thr).share kind =
      core.total kind + thread.share kind := by
    intro kind
    refine total_update hthreads ?_
    rw [hstack]
    abel
  have hsound := h.sound thr
  have hmapped : ∀ kind, (thread.retire_isa_table kind).mapped
      (thread.isa_options.count_isa_reg kind) =
        ((core.threads thr).issue_isa_table kind).mapped
          ((core.threads thr).isa_options.count_isa_reg kind) := by
    intro kind
    rw [VanadisISATable.mapped, hretire, hoptions]
    rfl
  constructor
  · rintro ⟨-, hrange⟩ kind
    have hshare : (core.threads thr).share kind = thread.share kind := by
      have := htotal kind
      rwa [hrange kind, hpart.2 kind, hstack, add_right_inj] at this
    rcases hrob with hnil | hsame
    · -- the buffer was dropped: its outputs are missing
      have hcard := congrArg Multiset.card hshare
      rw [HwThread.share, HwThread.share, hnil, hoptions, Multiset.card_add,
        Multiset.card_add, VanadisISATable.card_mapped, VanadisISATable.card_mapped] at hcard
      rw [add_right_inj, Multiset.coe_card, Multiset.coe_card] at hcard
      exact length_eq_zero_iff.1 hcard
    · -- the buffer was kept: an output is now mapped as well
      by_contra hne
      have hne' : renamesOf (core.threads thr).rob kind ≠ [] :=
        fun hnil => hne ((hsound.renamesOf_eq_nil_iff kind).1 hnil)
      obtain ⟨w, hw, hlast⟩ := @exists_overwrite_of_ne_nil _ _ _
        ((core.threads thr).retire_isa_table kind).reg_ptr _ hne'
      rw [← hsound.replay kind] at hlast
      have hissue : w.2 ∈ ((core.threads thr).issue_isa_table kind).mapped
          ((core.threads thr).isa_options.count_isa_reg kind) :=
        Multiset.mem_map.2 ⟨w.1, Multiset.mem_range.2 (hsound.renamesOf_lt hw), hlast⟩
      have hflight : w.2 ∈ (inFlight (core.threads thr).rob kind : Multiset Nat) := by
        rw [← hsound.map_snd_renamesOf kind]
        exact mem_map_of_mem hw
      have hdisjoint := hnodup kind
      rw [hshare, HwThread.share, hmapped, hsame] at hdisjoint
      exact Multiset.disjoint_left.1 (Multiset.nodup_add.1 hdisjoint).2.2 hissue hflight
  · intro hnil
    refine ⟨fun kind => hstack ▸ hpart.1 kind, fun kind => ?_⟩
    have hissue : ((core.threads thr).issue_isa_table kind).reg_ptr =
        ((core.threads thr).retire_isa_table kind).reg_ptr := by
      rw [hsound.replay kind, (hsound.renamesOf_eq_nil_iff kind).2 (hnil kind), overwrite_nil]
    have hempty : inFlight thread.rob kind = inFlight (core.threads thr).rob kind := by
      rcases hrob with hrob | hrob
      · rw [hrob, hnil kind]
        rfl
      · rw [hrob]
    have hshare : thread.share kind = (core.threads thr).share kind := by
      rw [HwThread.share, HwThread.share, hmapped, hempty, VanadisISATable.mapped, hissue]
      rfl
    rw [hstack, ← hpart.2 kind]
    refine add_right_cancel (b := (core.threads thr).share kind) ?_
    rw [htotal kind, hshare]

end Start

theorem startThread_threads :
    (core.startThread thr).threads = update core.threads thr
      { core.threads thr with
        halted := false
        retire_isa_table := (core.threads thr).issue_isa_table } := by
  rfl

theorem Sound.start (h : core.Sound) : (core.startThread thr).Sound := by
  refine h.update startThread_threads ?_
  exact {
    in_set := (h thr).in_set
    phys_out_length := (h thr).phys_out_length
    clear := (h thr).clear
    replay := fun kind => by rw [(h thr).replay kind, overwrite_overwrite_self]
    executed := (h thr).executed }

theorem startThreadFork_threads :
    (core.startThreadFork thr).threads = update core.threads thr
      { core.threads thr with
        halted := false
        rob := []
        issue_isa_table := fun kind => ((core.threads thr).issue_isa_table kind).resetPendingCnts
        retire_isa_table := fun kind =>
          ((core.threads thr).issue_isa_table kind).resetPendingCnts } := by
  rw [startThreadFork, handleMisspeculate_threads]
  simp [resetHwThread, setThread]

theorem startThreadFork_register_stack :
    (core.startThreadFork thr).register_stack = core.register_stack := by
  funext kind
  rw [startThreadFork, handleMisspeculate_register_stack]
  simp [resetHwThread, setThread, returnedRegs]

theorem Sound.startFork (h : core.Sound) : (core.startThreadFork thr).Sound :=
  h.update startThreadFork_threads (.of_rob_nil rfl fun _ => rfl)

theorem startThreadClone_eq : core.startThreadClone thr = core.startThreadFork thr := by
  rfl

variable {j takenAddress : Nat}

theorem performExecute_eq_some (h : core.performExecute thr j takenAddress = some core') :
    ∃ ins, (core.threads thr).rob[j]? = some ins ∧ ins.hasIssued = true ∧
      ins.hasExecuted = false ∧ core' = core.setRob thr ((core.threads thr).rob.set j
        (ins.setTakenAddress takenAddress).markExecuted) := by
  unfold performExecute at h
  split at h
  case h_1 => cases h
  case h_2 ins hins =>
    split at h
    case isTrue hready =>
      simp only [and_eq_true, not_eq_true'] at hready
      exact ⟨ins, hins, hready.1.1, hready.1.2, (some.inj h).symm⟩
    case isFalse => cases h

section

variable (hsound : core.Sound)
include hsound

theorem performExecute_spec (h : core.performExecute thr j takenAddress = some core') :
    core'.Sound ∧ Moved core core' fun _ => 0 := by
  obtain ⟨ins, hins, hissued, -, rfl⟩ := performExecute_eq_some h
  have hsimilar : List.Forall₂ VanadisInstruction.Similar (core.threads thr).rob
      ((core.threads thr).rob.set j (ins.setTakenAddress takenAddress).markExecuted) :=
    similar_set hins ⟨rfl, rfl, rfl⟩
  refine ⟨hsound.setRob hsimilar fun x hx hexec => ?_, moved_similar hsimilar⟩
  cases hrob : (core.threads thr).rob with
  | nil => simp [hrob] at hins
  | cons front rest =>
    have htail := (hsound thr).executed
    rw [hrob] at hx htail
    cases j with
    | zero => exact htail x hx hexec
    | succ j =>
      rcases mem_or_eq_of_mem_set hx with hx | rfl
      · exact htail x hx hexec
      · exact hissued

theorem syscallReturn_spec (h : core.syscallReturn thr = some core') :
    core'.Sound ∧ Moved core core' fun _ => 0 := by
  unfold syscallReturn at h
  split at h
  case h_1 => cases h
  case h_2 front rest hrob =>
    split at h
    case isFalse => cases h
    case isTrue =>
      cases h
      have hsimilar : List.Forall₂ VanadisInstruction.Similar (core.threads thr).rob
          (front.markExecuted :: rest) := by
        rw [hrob]
        exact similar_front ⟨rfl, rfl, rfl⟩
      refine ⟨hsound.setRob hsimilar ?_, moved_similar hsimilar⟩
      have htail := (hsound thr).executed
      rwa [hrob] at htail

theorem performDecode_spec {bundle : List (MicroOp Op)} :
    (core.performDecode thr bundle).Sound ∧
      Moved core (core.performDecode thr bundle) fun _ => 0 := by
  unfold performDecode
  dsimp only
  split
  · exact ⟨hsound.update rfl ((hsound thr).append bundle), moved_append⟩
  · exact ⟨hsound, Moved.refl core⟩

theorem issueStage_spec {calls : List (Fin hw_threads × (Nat → Bool))}
    (htop : ∀ kind, -1 ≤ (core.register_stack kind).stack_top)
    (h : core.issueStage (fun _ => .start) calls = some core') :
    core'.Sound ∧ Moved core core' fun _ => 0 := by
  refine issueStage_induction (P := fun c => c.Sound ∧ Moved core c fun _ => 0) ?_
    ⟨hsound, Moved.refl core⟩ htop (tempsCover_start core) h
  rintro c c' thr before post ins ins' ⟨hc, hmoved⟩ - hissues
  have hnext := hmoved.trans (moved_issues hissues)
  exact ⟨hc.issues hissues, hnext⟩

theorem setHalt_spec :
    (core.setHalt thr).Sound ∧ Moved core (core.setHalt thr) fun kind =>
      (syscallRegs (core.threads thr).rob kind : Multiset Nat) := by
  obtain ⟨halted, hhalted⟩ :
      ∃ c, c = core.setThread thr { core.threads thr with halted := true } := ⟨_, rfl⟩
  have hthreads : halted.threads =
      update core.threads thr { core.threads thr with halted := true } := by
    rw [hhalted]
    rfl
  have hrob : (halted.threads thr).rob = (core.threads thr).rob := by rw [hthreads, update_self]
  have hsame : halted.Sound := hsound.update hthreads
    { in_set := (hsound thr).in_set
      phys_out_length := (hsound thr).phys_out_length
      clear := (hsound thr).clear
      replay := (hsound thr).replay
      executed := (hsound thr).executed }
  have hmoved : Moved core halted fun _ => 0 := by
    refine Moved.of_thread hthreads rfl (fun _ => by rw [hhalted]; rfl)
      (fun _ => .inl (by rw [hhalted]; rfl)) fun _ kind => ?_
    rw [hhalted, add_zero]
    rfl
  have hsquash := hmoved.trans (@moved_misspeculate _ _ halted thr)
  simp only [zero_add, hrob] at hsquash
  unfold setHalt
  rw [← hhalted]
  exact ⟨hsame.misspeculate, hsquash⟩

end

variable {op : PipelineOp Op hw_threads}

theorem Consistent.step (h : core.Consistent) (hstep : core.step op = some core') :
    core'.Consistent := by
  have hof : ∀ {extra}, core'.Sound ∧ Moved core core' extra → core'.Consistent :=
    fun hspec => ⟨hspec.1, hspec.2.stack_top h.stack_top⟩
  have hfork : ∀ {thr}, (core.startThreadFork thr).Consistent := fun {thr} =>
    ⟨h.sound.startFork, by rw [startThreadFork_register_stack]; exact h.stack_top⟩
  cases op with
  | decode thr bundle =>
    cases hstep
    exact hof (performDecode_spec h.sound)
  | issue calls => exact hof (issueStage_spec h.sound h.stack_top hstep)
  | execute thr j takenAddress => exact hof (performExecute_spec h.sound hstep)
  | retire thr ret =>
    cases hstep
    exact hof (performRetire_spec h.sound)
  | syscallReturn thr => exact hof (syscallReturn_spec h.sound hstep)
  | halt thr =>
    cases hstep
    exact hof (setHalt_spec h.sound)
  | start thr =>
    cases hstep
    exact ⟨h.sound.start, h.stack_top⟩
  | startFork thr =>
    cases hstep
    exact hfork
  | startClone thr =>
    cases hstep
    exact hfork

/-- A step keeps the partition just when it loses no issued registers. -/
theorem partitioned_step_iff (h : core.Consistent) (hpart : core.Partitioned)
    (hstep : core.step op = some core') :
    core'.Partitioned ↔ core.Orderly op := by
  have hnone : Moved core core' (fun _ => 0) → (core'.Partitioned ↔ True) := fun hmoved =>
    (hmoved.partitioned_iff h.stack_top hpart).trans (iff_of_true (fun _ => rfl) trivial)
  have hsome : ∀ {regs : RegisterKind → List Nat},
      Moved core core' (fun kind => (regs kind : Multiset Nat)) →
      (core'.Partitioned ↔ ∀ kind, regs kind = []) := fun hmoved =>
    (hmoved.partitioned_iff h.stack_top hpart).trans
      (forall_congr' fun _ => Multiset.coe_eq_zero _)
  cases op with
  | decode thr bundle =>
    cases hstep
    exact hnone (performDecode_spec h.sound).2
  | issue calls => exact hnone (issueStage_spec h.sound h.stack_top hstep).2
  | execute thr j takenAddress => exact hnone (performExecute_spec h.sound hstep).2
  | retire thr ret =>
    cases hstep
    exact hsome (performRetire_spec h.sound).2
  | syscallReturn thr => exact hnone (syscallReturn_spec h.sound hstep).2
  | halt thr =>
    cases hstep
    exact hsome (setHalt_spec h.sound).2
  | start thr =>
    cases hstep
    exact partitioned_iff_of_started h hpart rfl startThread_threads rfl (fun _ => rfl)
      (.inr rfl)
  | startFork thr =>
    cases hstep
    exact partitioned_iff_of_started h hpart startThreadFork_register_stack
      startThreadFork_threads rfl (fun _ => rfl) (.inl rfl)
  | startClone thr =>
    cases hstep
    exact partitioned_iff_of_started h hpart startThreadFork_register_stack
      startThreadFork_threads rfl (fun _ => rfl) (.inl rfl)

/-- The registers of all instruction sets fit into the physical ones. -/
def Config.Fits (config : Config hw_threads) : Prop :=
  ∀ kind, ∑ thr, (config.isa_options thr).count_isa_reg kind ≤
    config.physical_registers kind

/-- The constructor has added some of the threads. -/
structure Added
    (config : Config hw_threads) (added : List (Fin hw_threads))
    (core : VanadisComponent Op hw_threads) : Prop where
  options : ∀ thr, (core.threads thr).isa_options = config.isa_options thr
  rob : ∀ thr, (core.threads thr).rob = []
  tables : ∀ thr kind, ((core.threads thr).issue_isa_table kind).reg_ptr =
    ((core.threads thr).retire_isa_table kind).reg_ptr
  capacity : ∀ kind,
    (core.register_stack kind).max_capacity = config.physical_registers kind
  stack_top : ∀ kind, (core.register_stack kind).stack_top =
    config.physical_registers kind - 1 -
      (added.map fun thr => (config.isa_options thr).count_isa_reg kind).sum
  free : ∀ kind,
    (added.map fun thr => (config.isa_options thr).count_isa_reg kind).sum ≤
        config.physical_registers kind →
      (core.register_stack kind).free +
          (added.map fun thr => ((core.threads thr).retire_isa_table kind).mapped
            ((config.isa_options thr).count_isa_reg kind)).sum =
        Multiset.range (config.physical_registers kind)

variable {config : Config hw_threads}

theorem Added.addThread {added : List (Fin hw_threads)} (h : Added config added core)
    (hnew : thr ∉ added) :
    Added config (added ++ [thr]) (core.addThread thr) := by
  have hthreads : ∀ t, t ≠ thr → (core.addThread thr).threads t = core.threads t :=
    fun t ht => update_of_ne ht _ _
  have hself : (core.addThread thr).threads thr =
      { core.threads thr with
        issue_isa_table := ((core.addThread thr).threads thr).issue_isa_table
        retire_isa_table := ((core.addThread thr).threads thr).issue_isa_table } := by
    simp [VanadisComponent.addThread, setThread]
  have htaken : ∀ kind,
      (core.addThread thr).register_stack kind =
          (takeRegisters (fun _ => false) (core.register_stack kind) .empty
            (range ((config.isa_options thr).count_isa_reg kind))).2.1 ∧
        ((core.addThread thr).threads thr).retire_isa_table kind =
          (takeRegisters (fun _ => false) (core.register_stack kind) .empty
            (range ((config.isa_options thr).count_isa_reg kind))).2.2 := by
    intro kind
    rw [← h.options thr]
    refine ⟨rfl, ?_⟩
    simp [VanadisComponent.addThread, setThread]
  exact {
    options := fun t => by
      by_cases ht : t = thr
      · subst ht
        rw [hself]
        exact h.options t
      · rw [hthreads t ht]
        exact h.options t
    rob := fun t => by
      by_cases ht : t = thr
      · subst ht
        rw [hself]
        exact h.rob t
      · rw [hthreads t ht]
        exact h.rob t
    tables := fun t kind => by
      by_cases ht : t = thr
      · subst ht
        rw [hself]
      · rw [hthreads t ht]
        exact h.tables t kind
    capacity := fun kind => by rw [(htaken kind).1, takeRegisters_stack.1, h.capacity]
    stack_top := fun kind => by
      rw [(htaken kind).1, takeRegisters_stack.2.2, h.stack_top, map_append, sum_append]
      simp only [map_cons, map_nil, sum_cons, sum_nil, length_range]
      push_cast
      ring
    free := fun kind hle => by
      rw [map_append, sum_append] at hle
      simp only [map_cons, map_nil, sum_cons, sum_nil, add_zero] at hle
      have hfree := h.free kind (by omega)
      have hroom : (((config.isa_options thr).count_isa_reg kind : Nat) : Int) ≤
          (core.register_stack kind).stack_top + 1 := by
        rw [h.stack_top]
        omega
      have hmapped := @mapped_takeRegisters _ (fun _ => false) _ .empty hroom
      have hothers : (added.map fun t => (((core.addThread thr).threads t).retire_isa_table
          kind).mapped ((config.isa_options t).count_isa_reg kind)) =
          added.map fun t => ((core.threads t).retire_isa_table kind).mapped
            ((config.isa_options t).count_isa_reg kind) := by
        refine map_congr_left fun t ht => ?_
        rw [hthreads t (fun heq => hnew (heq ▸ ht))]
      rw [map_append, sum_append, hothers, ← hfree, hmapped, (htaken kind).1]
      simp only [map_cons, map_nil, sum_cons, sum_nil, add_zero, (htaken kind).2]
      abel }

theorem added_initial : Added config (finRange hw_threads) (initial Op config) := by
  have hfold : ∀ (rest added : List (Fin hw_threads)) (core : VanadisComponent Op hw_threads),
      (added ++ rest).Nodup → Added config added core →
        Added config (added ++ rest) (rest.foldl VanadisComponent.addThread core) := by
    intro rest
    induction rest with
    | nil =>
      intro added core _ h
      rwa [append_nil]
    | cons thr rest ih =>
      intro added core hnodup h
      have hsplit : added ++ thr :: rest = added ++ [thr] ++ rest := by simp
      rw [hsplit] at hnodup ⊢
      refine ih _ _ hnodup (h.addThread ?_)
      have hdisjoint := disjoint_of_nodup_append (nodup_append.1 hnodup).1
      exact fun hmem => hdisjoint hmem (mem_singleton_self thr)
  refine hfold (finRange hw_threads) [] _ (nodup_finRange _) ?_
  exact {
    options := fun _ => rfl
    rob := fun _ => rfl
    tables := fun _ _ => rfl
    capacity := fun _ => rfl
    stack_top := fun _ => by simp [VanadisRegisterStack.reset]
    free := fun kind _ => by simp [VanadisRegisterStack.free_reset] }

theorem initial_regs (kind : RegisterKind) :
    ((initial Op config).register_stack kind).regs = Int.toNat := by
  have hfold : ∀ (threads : List (Fin hw_threads)) (core : VanadisComponent Op hw_threads),
      ((threads.foldl VanadisComponent.addThread core).register_stack kind).regs =
        (core.register_stack kind).regs := by
    intro threads
    induction threads with
    | nil => exact fun core => rfl
    | cons thr threads ih => exact fun core => (ih _).trans takeRegisters_stack.2.1
  exact hfold _ _

theorem initial_sound : (initial Op config).Sound :=
  fun thr => .of_rob_nil (added_initial.rob thr) (added_initial.tables thr)

theorem initial_stack_top_iff :
    (∀ kind, -1 ≤ ((initial Op config).register_stack kind).stack_top) ↔ config.Fits := by
  refine forall_congr' fun kind => ?_
  rw [added_initial.stack_top, Fin.sum_univ_def]
  omega

theorem initial_partitioned_iff : (initial Op config).Partitioned ↔ config.Fits := by
  refine ⟨fun h => initial_stack_top_iff.1 (VanadisComponent.partitioned_iff.1 h).1, fun h => ?_⟩
  refine VanadisComponent.partitioned_iff.2 ⟨initial_stack_top_iff.2 h, fun kind => ?_⟩
  have hfits := h kind
  rw [added_initial.capacity, ← added_initial.free kind hfits, total, Fin.sum_univ_def]
  refine congrArg _ (congrArg sum (map_congr_left fun thr _ => ?_))
  rw [HwThread.share, added_initial.rob, added_initial.options]
  exact add_zero _

/-- The physical registers stay partitioned throughout a run exactly if the
registers of all threads fit, no squash hits an issued system call, and no thread
is started over issued instructions. -/
theorem registers_partitioned_iff
    {ops : List (PipelineOp Op hw_threads)} {core : VanadisComponent Op hw_threads}
    (hrun : runOps step (initial Op config) ops = some core) :
    Throughout step Partitioned (initial Op config) ops ↔
      config.Fits ∧ StepsMeet step Orderly (initial Op config) ops := by
  by_cases hfits : config.Fits
  · rw [and_iff_right hfits]
    exact throughout_iff_stepsMeet
      (fun _ _ _ hq hstep => Consistent.step hq hstep)
      (fun _ _ _ hq hp hstep => partitioned_step_iff hq hp hstep)
      ⟨initial_sound, initial_stack_top_iff.2 hfits⟩ (initial_partitioned_iff.2 hfits) hrun
  · refine iff_of_false (fun h => hfits ?_) fun h => hfits h.1
    exact initial_partitioned_iff.1 (h [] _ nil_prefix (runOps_nil _ _))

instance instDecidableOrderly
    (core : VanadisComponent Op hw_threads) :
    ∀ op : PipelineOp Op hw_threads, Decidable (core.Orderly op)
  | .decode .. | .issue _ | .execute .. | .syscallReturn _ => inferInstanceAs (Decidable True)
  | .retire .. | .halt _ | .start _ | .startFork _ | .startClone _ =>
    inferInstanceAs (Decidable (∀ _, _))

/-- One thread with 34 integer and 32 floating-point registers, and 128 physical
ones of each kind. -/
def singleThread : Config 1 where
  rob_count := 64
  physical_registers := fun _ => 128
  isa_options := fun _ =>
    { count_isa_reg := fun kind => if kind = .int then 34 else 32, reg_ignore_writes := 0 }

def onlyThread : Fin 1 := Fin.last 0

/-- An addition, and a branch that is predicted to fall through. -/
def addAndBranch : List (MicroOp Unit) :=
  [{ ins_address := 0
     op := ()
     func_type := .INST_INT_ARITH
     isa_regs_in := fun kind => if kind = .int then [1, 2] else []
     isa_regs_out := fun kind => if kind = .int then [3] else []
     branch := none },
   { ins_address := 4
     op := ()
     func_type := .INST_BRANCH
     isa_regs_in := fun kind => if kind = .int then [4, 5] else []
     isa_regs_out := fun _ => []
     branch := some (.VANADIS_NO_DELAY_SLOT, 8) },
   { ins_address := 8
     op := ()
     func_type := .INST_INT_ARITH
     isa_regs_in := fun kind => if kind = .int then [1, 2] else []
     isa_regs_out := fun kind => if kind = .int then [6] else []
     branch := none }]

/-- The branch goes elsewhere, and the instruction behind it is squashed. -/
def mispredictedRun : List (PipelineOp Unit 1) :=
  [.start onlyThread, .decode onlyThread addAndBranch,
    .issue [(onlyThread, fun _ => true), (onlyThread, fun _ => true),
      (onlyThread, fun _ => true)],
    .execute onlyThread 0 0, .execute onlyThread 1 64, .retire onlyThread false,
    .retire onlyThread false]

theorem registers_partitioned_mispredicted :
    Throughout step Partitioned (initial Unit singleThread) mispredictedRun := by
  obtain ⟨core, hrun⟩ := isSome_iff_exists.1
    (by decide +kernel : (runOps step (initial Unit singleThread) mispredictedRun).isSome)
  exact (registers_partitioned_iff hrun).2
    ⟨fun kind => by cases kind <;> decide, by decide +kernel⟩

/-- A system call, which reads and writes all registers, behind its fence. -/
def fencedSyscall : List (MicroOp Unit) :=
  [{ ins_address := 0
     op := ()
     func_type := .INST_FENCE
     isa_regs_in := fun _ => []
     isa_regs_out := fun _ => []
     branch := none },
   { ins_address := 0
     op := ()
     func_type := .INST_SYSCALL
     isa_regs_in := fun kind => range (if kind = .int then 34 else 32)
     isa_regs_out := fun kind => range (if kind = .int then 34 else 32)
     branch := none }]

/-- The system call waits at the front of the buffer when the thread is halted. -/
def haltInSyscall : List (PipelineOp Unit 1) :=
  [.start onlyThread, .decode onlyThread fencedSyscall, .issue [(onlyThread, fun _ => true)],
    .execute onlyThread 0 0, .retire onlyThread false, .issue [(onlyThread, fun _ => true)],
    .retire onlyThread false, .halt onlyThread]

/-- The registers of the thread are then mapped and free at once. -/
theorem not_partitioned_halt_in_syscall :
    ¬ Throughout step Partitioned (initial Unit singleThread) haltInSyscall := by
  obtain ⟨core, hrun⟩ := isSome_iff_exists.1
    (by decide +kernel : (runOps step (initial Unit singleThread) haltInSyscall).isSome)
  have htop : (runOps step (initial Unit singleThread) haltInSyscall).map
      (fun c => (c.register_stack .int).stack_top) = some 127 := by
    decide +kernel
  have hcap : (runOps step (initial Unit singleThread) haltInSyscall).map
      (fun c => (c.register_stack .int).max_capacity) = some 128 := by
    decide +kernel
  have hcount : (runOps step (initial Unit singleThread) haltInSyscall).map
      (fun c => (c.threads 0).isa_options.count_isa_reg .int) = some 34 := by
    decide +kernel
  rw [hrun, map_some, Option.some.injEq] at htop hcap hcount
  intro h
  have hcard := congrArg Multiset.card
    (h haltInSyscall core (prefix_refl _) hrun .int).1
  rw [Multiset.card_add, Multiset.card_add, VanadisRegisterStack.card_free, htop,
    Multiset.card_range, hcap, Fin.sum_univ_one, VanadisISATable.card_mapped, hcount] at hcard
  omega

end VanadisComponent

end SstElements.Vanadis
