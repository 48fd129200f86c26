import Mathlib.Tactic

/-!
# Runs of a guarded step function

A component is described by a step function `step : σ → α → Option σ`; `none`
marks an operation that the component refuses with a fatal error.  This module
collects the run-level rules used by every component model:

* `runOps` replays a list of operations;
* `runOps_invariant` lifts a step invariant to whole runs;
* `StepsMeet` and `runOps_invariant_of_stepsMeet` do the same when the step
  invariant needs a condition on the state before the step.

Nothing here refers to a particular component.
-/

namespace SstElements.Library

open List Option

universe u v w

section Transition

variable {σ : Type u} {α : Type v}

/-- Replay a list of operations from a state. -/
def runOps (step : σ → α → Option σ) : σ → List α → Option σ
  | s, [] => some s
  | s, a :: rest => (step s a).bind (fun t => runOps step t rest)

@[simp] theorem runOps_nil (step : σ → α → Option σ) (s : σ) : runOps step s [] = some s := by
  rfl

variable {step : σ → α → Option σ} {P Q : σ → Prop} {ok : σ → α → Prop} {q : α → Prop}

theorem runOps_cons_iff {s t : σ} {a : α} {rest : List α} :
    runOps step s (a :: rest) = some t
      ↔ ∃ mid, step s a = some mid ∧ runOps step mid rest = some t := by
  simp only [runOps, bind_eq_some_iff]

theorem runOps_append_iff {s t : σ} {xs ys : List α} :
    runOps step s (xs ++ ys) = some t
      ↔ ∃ mid, runOps step s xs = some mid ∧ runOps step mid ys = some t := by
  induction xs generalizing s with
  | nil =>
    simp
  | cons a rest ih =>
    simp only [cons_append, runOps_cons_iff, ih]
    constructor
    · rintro ⟨mid, hstep, mid', hrest, hys⟩
      exact ⟨mid', ⟨mid, hstep, hrest⟩, hys⟩
    · rintro ⟨mid', ⟨mid, hstep, hrest⟩, hys⟩
      exact ⟨mid, hstep, mid', hrest, hys⟩

/-- What a step keeps, a run keeps. -/
theorem runOps_invariant (hstep : ∀ s a t, P s → step s a = some t → P t) {s t : σ} {ops : List α}
    (hs : P s) (hrun : runOps step s ops = some t) :
    P t := by
  induction ops generalizing s with
  | nil =>
    simp only [runOps_nil, some.injEq] at hrun
    subst t
    exact hs
  | cons a rest ih =>
    obtain ⟨mid, hmid, hrest⟩ := runOps_cons_iff.1 hrun
    exact ih (hstep s a mid hs hmid) hrest

def StepsMeet
    (step : σ → α → Option σ) (ok : σ → α → Prop) :
    σ → List α → Prop
  | _, [] => True
  | s, a :: rest =>
    ok s a ∧ ∀ t, step s a = some t → StepsMeet step ok t rest

instance instDecidableStepsMeet
    {step : σ → α → Option σ} {ok : σ → α → Prop}
    [∀ s a, Decidable (ok s a)] :
    ∀ (s : σ) (ops : List α), Decidable (StepsMeet step ok s ops)
  | _, [] => inferInstanceAs (Decidable True)
  | s, a :: rest =>
    match h : step s a with
    | none =>
      decidable_of_iff (ok s a)
        ⟨fun hok => ⟨hok, fun t ht => by simp [h] at ht⟩, And.left⟩
    | some mid =>
      have := @instDecidableStepsMeet step ok _ mid rest
      decidable_of_iff (ok s a ∧ StepsMeet step ok mid rest)
        ⟨fun hok => ⟨hok.1, fun t ht => some.inj (h.symm.trans ht) ▸ hok.2⟩,
          fun hok => ⟨hok.1, hok.2 mid h⟩⟩

/-- What a step under its condition keeps, a run under it keeps. -/
theorem runOps_invariant_of_stepsMeet (hstep : ∀ s a t, P s → ok s a → step s a = some t → P t)
    {s t : σ} {ops : List α} (hs : P s) (hok : StepsMeet step ok s ops)
    (hrun : runOps step s ops = some t) :
    P t := by
  induction ops generalizing s with
  | nil =>
    simp only [runOps_nil, some.injEq] at hrun
    subst t
    exact hs
  | cons a rest ih =>
    obtain ⟨mid, hmid, hrest⟩ := runOps_cons_iff.1 hrun
    exact ih (hstep s a mid hs hok.1 hmid) (hok.2 mid hmid) hrest

theorem stepsMeet_const_iff {s t : σ} {ops : List α} (hrun : runOps step s ops = some t) :
    StepsMeet step (fun _ a => q a) s ops ↔ ∀ a ∈ ops, q a := by
  induction ops generalizing s with
  | nil =>
    simp [StepsMeet]
  | cons a rest ih =>
    obtain ⟨mid, hmid, hrest⟩ := runOps_cons_iff.1 hrun
    constructor
    · intro h
      exact forall_mem_cons.2 ⟨h.1, (ih hrest).1 (h.2 mid hmid)⟩
    · intro h
      refine ⟨h a (by simp), fun u hu => ?_⟩
      obtain rfl : mid = u := some.inj (hmid.symm.trans hu)
      exact (ih hrest).2 fun b hb => h b (by simp [hb])

/-- The property holds in every state that a prefix of the run reaches. -/
def Throughout (step : σ → α → Option σ) (P : σ → Prop) (s : σ) (ops : List α) : Prop :=
  ∀ pre t, pre <+: ops → runOps step s pre = some t → P t

theorem Throughout.imp {s : σ} {ops : List α} (himp : ∀ t, P t → Q t)
    (h : Throughout step P s ops) :
    Throughout step Q s ops :=
  fun pre t hpre hrun => himp t (h pre t hpre hrun)

theorem throughout_and_iff {step : σ → α → Option σ} {P Q : σ → Prop} {s : σ} {ops : List α} :
    Throughout step (fun t => P t ∧ Q t) s ops ↔
      Throughout step P s ops ∧ Throughout step Q s ops :=
  ⟨fun h => ⟨h.imp fun _ ht => ht.1, h.imp fun _ ht => ht.2⟩,
    fun h pre t hpre hrun => ⟨h.1 pre t hpre hrun, h.2 pre t hpre hrun⟩⟩

theorem StepsMeet.of_prefix {s : σ} {pre ops : List α} (hpre : pre <+: ops)
    (h : StepsMeet step ok s ops) :
    StepsMeet step ok s pre := by
  induction pre generalizing s ops with
  | nil =>
    exact trivial
  | cons a pre ih =>
    obtain ⟨rest, rfl⟩ := hpre
    exact ⟨h.1, fun t ht => ih ⟨rest, rfl⟩ (h.2 t ht)⟩

theorem StepsMeet.last {s t : σ} {pre : List α} {a : α} (h : StepsMeet step ok s (pre ++ [a]))
    (hrun : runOps step s pre = some t) :
    ok t a := by
  induction pre generalizing s with
  | nil =>
    rw [runOps_nil, some.injEq] at hrun
    exact hrun ▸ h.1
  | cons b pre ih =>
    obtain ⟨mid, hmid, hrest⟩ := runOps_cons_iff.1 hrun
    exact ih (h.2 mid hmid) hrest

/-- A step lemma, read at every state of a run. -/
theorem throughout_of_stepsMeet (hstep : ∀ s a t, P s → ok s a → step s a = some t → P t)
    {s : σ} {ops : List α} (hs : P s) (hok : StepsMeet step ok s ops) :
    Throughout step P s ops :=
  fun _ _ hpre hrun => runOps_invariant_of_stepsMeet hstep hs (hok.of_prefix hpre) hrun

theorem throughout_nil_iff {step : σ → α → Option σ} {P : σ → Prop} {s : σ} :
    Throughout step P s [] ↔ P s := by
  constructor
  · exact fun h => h [] s prefix_rfl (runOps_nil step s)
  · intro h pre u hpre hu
    rw [prefix_nil.1 hpre, runOps_nil, some.injEq] at hu
    exact hu ▸ h

theorem throughout_cons_iff {s mid : σ} {a : α} {rest : List α} (hmid : step s a = some mid) :
    Throughout step P s (a :: rest) ↔ P s ∧ Throughout step P mid rest := by
  constructor
  · refine fun h => ⟨h [] s nil_prefix (runOps_nil step s), fun pre v hpre hv => ?_⟩
    exact h (a :: pre) v (cons_prefix_cons.2 ⟨rfl, hpre⟩)
      (runOps_cons_iff.2 ⟨mid, hmid, hv⟩)
  · rintro ⟨hs, h⟩ pre v hpre hv
    cases pre with
    | nil =>
      rw [runOps_nil, some.injEq] at hv
      exact hv ▸ hs
    | cons b pre =>
      obtain ⟨rfl, hpre'⟩ := cons_prefix_cons.1 hpre
      obtain ⟨mid', hmid', hv'⟩ := runOps_cons_iff.1 hv
      obtain rfl : mid = mid' := some.inj (hmid.symm.trans hmid')
      exact h pre v hpre' hv'

theorem stepsMeet_cons_iff {s mid : σ} {a : α} {rest : List α} (hmid : step s a = some mid) :
    StepsMeet step ok s (a :: rest) ↔ ok s a ∧ StepsMeet step ok mid rest := by
  refine and_congr_right fun _ => ⟨fun h => h mid hmid, fun h u hu => ?_⟩
  obtain rfl : mid = u := some.inj (hmid.symm.trans hu)
  exact h

/-- A step lemma that is exact gives an exact condition on runs. -/
theorem throughout_iff_stepsMeet (hQ : ∀ s a t, Q s → step s a = some t → Q t)
    (hstep : ∀ s a t, Q s → P s → step s a = some t → (P t ↔ ok s a)) {s t : σ} {ops : List α}
    (hq : Q s) (hs : P s) (hrun : runOps step s ops = some t) :
    Throughout step P s ops ↔ StepsMeet step ok s ops := by
  induction ops generalizing s with
  | nil => exact iff_of_true (throughout_nil_iff.2 hs) trivial
  | cons a rest ih =>
    obtain ⟨mid, hmid, hrest⟩ := runOps_cons_iff.1 hrun
    rw [throughout_cons_iff hmid, stepsMeet_cons_iff hmid, ← hstep s a mid hq hs hmid,
      and_iff_right hs]
    constructor
    · intro h
      have hPm : P mid := h [] mid nil_prefix (runOps_nil step mid)
      exact ⟨hPm, (ih (hQ s a mid hq hmid) hPm hrest).1 h⟩
    · exact fun h => (ih (hQ s a mid hq hmid) h.1 hrest).2 h.2

theorem throughout_and_stepsMeet_iff {keeps : σ → α → Prop} {I : σ → Prop} (hIP : ∀ s, I s → P s)
    (hkeeps : ∀ s a t, I s → q a → step s a = some t → ok s a → I t ∧ keeps s a)
    (hok : ∀ s a t, I s → q a → step s a = some t → P t → keeps s a → ok s a)
    {s t : σ} {ops : List α} (hs : I s) (hq : ∀ a ∈ ops, q a) (hrun : runOps step s ops = some t) :
    Throughout step P s ops ∧ StepsMeet step keeps s ops ↔ StepsMeet step ok s ops := by
  induction ops generalizing s with
  | nil => exact iff_of_true ⟨throughout_nil_iff.2 (hIP s hs), trivial⟩ trivial
  | cons a rest ih =>
    obtain ⟨mid, hmid, hrest⟩ := runOps_cons_iff.1 hrun
    have hqa := hq a mem_cons_self
    have hqrest := fun b hb => hq b (mem_cons_of_mem a hb)
    rw [throughout_cons_iff hmid, stepsMeet_cons_iff hmid, stepsMeet_cons_iff hmid]
    constructor
    · rintro ⟨⟨-, hthrough⟩, hstep, hsteps⟩
      have hPm : P mid := hthrough [] mid nil_prefix (runOps_nil step mid)
      have hoka := hok s a mid hs hqa hmid hPm hstep
      exact ⟨hoka, (ih (hkeeps s a mid hs hqa hmid hoka).1 hqrest hrest).1 ⟨hthrough, hsteps⟩⟩
    · rintro ⟨hoka, hsteps⟩
      obtain ⟨hmidI, hstep⟩ := hkeeps s a mid hs hqa hmid hoka
      obtain ⟨hthrough, hrestKeeps⟩ := (ih hmidI hqrest hrest).2 hsteps
      exact ⟨⟨hIP s hs, hthrough⟩, hstep, hrestKeeps⟩

theorem throughout_and_stepsMeet_iff_of_invariant {keeps : σ → α → Prop} {I : σ → Prop}
    (hIP : ∀ s, I s → P s) (hI : ∀ s a t, I s → step s a = some t → I t)
    (hkeeps : ∀ s a, I s → (keeps s a ↔ ok s a)) {s : σ} {ops : List α} (hs : I s) :
    Throughout step P s ops ∧ StepsMeet step keeps s ops ↔ StepsMeet step ok s ops := by
  have hthrough : Throughout step P s ops := fun pre t _ hrun => hIP t (runOps_invariant hI hs hrun)
  rw [and_iff_right hthrough]
  clear hthrough
  induction ops generalizing s with
  | nil => exact .rfl
  | cons a rest ih =>
    exact and_congr (hkeeps s a hs) (forall₂_congr fun t ht => ih (hI s a t hs ht))

end Transition

end SstElements.Library
