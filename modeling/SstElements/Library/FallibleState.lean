import Mathlib.Tactic

/-!
# Programs over a state that may fail

A program of type `StateT σ Option α` reads and changes a state and may stop
with a failure.  `wlp m Q s` is its weakest liberal precondition: if the run of
`m` from `s` does not fail, its result and its last state satisfy `Q`.

The rules compute `wlp` along the syntax of a program; a call is replaced by
its specification with `wlp_mono`.
-/

namespace SstElements.Library

open Option

universe u

section FallibleState

variable {σ α β : Type u}

/-- If the run of `m` from `s` does not fail, then it ends in `Q`. -/
def wlp (m : StateT σ Option α) (Q : α → σ → Prop) (s : σ) : Prop :=
  ∀ a t, m s = some (a, t) → Q a t

/-- Run a program only under a condition. -/
def runIf (c : Bool) (m : StateT σ Option PUnit) : StateT σ Option PUnit :=
  if c then m else pure PUnit.unit

/-- A pure function of the state that may fail. -/
def readState (f : σ → Option α) : StateT σ Option α := fun s => (f s).map (fun a => (a, s))

def changeState (f : σ → Option σ) : StateT σ Option PUnit :=
  fun s => (f s).map (fun t => (PUnit.unit, t))

/-- A change of the state with a result, which may fail. -/
def stepState (f : σ → Option (α × σ)) : StateT σ Option α := f

/-- Stop with a failure. -/
def fail : StateT σ Option α := fun _ => none

variable {m n : StateT σ Option α} {Q : α → σ → Prop} {s t : σ} {a : α} {c : Prop}
variable {f : α → StateT σ Option β} {R : σ → σ → Prop}

theorem wlp_mono {R : α → σ → Prop} (h : wlp m Q s) (himp : ∀ a t, Q a t → R a t) : wlp m R s :=
  fun a t hrun => himp a t (h a t hrun)

/-- What holds of all outcomes holds of the one a run gives. -/
theorem wlp_run (h : wlp m Q s) (hrun : m s = some (a, t)) : Q a t :=
  h a t hrun

variable {Q : α → σ → Prop} {s : σ}

@[simp] theorem wlp_pure {a : α} :
    wlp (pure a : StateT σ Option α) Q s ↔ Q a s := by
  constructor
  · intro h
    exact h a s rfl
  · intro h b t hrun
    cases hrun
    exact h

variable {m : StateT σ Option α}

@[simp] theorem wlp_bind {Q : β → σ → Prop} {f : α → StateT σ Option β} :
    wlp (m >>= f) Q s ↔ wlp m (fun a t => wlp (f a) Q t) s := by
  have hrun : (m >>= f) s = (m s).bind (fun r => f r.1 r.2) := by rfl
  constructor
  · intro h a t hm b u hf
    refine h b u ?_
    rw [hrun, hm]
    exact hf
  · intro h b u hbind
    rw [hrun, bind_eq_some_iff] at hbind
    obtain ⟨⟨a, t⟩, hm, hf⟩ := hbind
    exact h a t hm b u hf

@[simp] theorem wlp_readState {f : σ → Option α} :
    wlp (readState f) Q s ↔ ∀ a, f s = some a → Q a s := by
  constructor
  · intro h a ha
    exact h a s (by simp [readState, ha])
  · intro h a t hrun
    simp only [readState, map_eq_some_iff, Prod.mk.injEq] at hrun
    obtain ⟨b, hb, rfl, rfl⟩ := hrun
    exact h b hb

@[simp] theorem wlp_changeState {Q : PUnit → σ → Prop} {f : σ → Option σ} :
    wlp (changeState f) Q s ↔ ∀ t, f s = some t → Q PUnit.unit t := by
  constructor
  · intro h t ht
    exact h PUnit.unit t (by simp [changeState, ht])
  · intro h a t hrun
    simp only [changeState, map_eq_some_iff, Prod.mk.injEq] at hrun
    obtain ⟨u, hu, -, rfl⟩ := hrun
    exact h u hu

@[simp] theorem wlp_stepState {f : σ → Option (α × σ)} :
    wlp (stepState f) Q s ↔ ∀ a t, f s = some (a, t) → Q a t :=
  Iff.rfl

@[simp] theorem wlp_fail : wlp (fail : StateT σ Option α) Q s := by
  intro a t hrun
  cases hrun

theorem wlp_ite [Decidable c] {m n : StateT σ Option α} :
    wlp (if c then m else n) Q s ↔ (c → wlp m Q s) ∧ (¬ c → wlp n Q s) := by
  by_cases hc : c
  · simp [hc]
  · simp [hc]

@[simp] theorem wlp_runIf {Q : PUnit → σ → Prop} {c : Bool} {m : StateT σ Option PUnit} :
    wlp (runIf c m) Q s ↔ (c = true → wlp m Q s) ∧ (c = false → Q PUnit.unit s) := by
  cases c with
  | true => simp [runIf]
  | false => simp [runIf]

theorem wlp_false_iff :
    wlp m (fun _ _ => False) s ↔ m s = none := by
  constructor
  · intro h
    cases hm : m s with
    | none => rfl
    | some r => exact (h r.1 r.2 hm).elim
  · intro h a t hrun
    rw [h] at hrun
    cases hrun

theorem bind_run_congr {g : α → StateT σ Option β} (h : ∀ a t, m s = some (a, t) → f a t = g a t) :
    (m >>= f) s = (m >>= g) s := by
  change (m s).bind (fun r => f r.1 r.2) = (m s).bind (fun r => g r.1 r.2)
  cases hm : m s with
  | none => rfl
  | some r => exact h r.1 r.2 hm

theorem bind_run_congr_left (h : m s = n s) : (m >>= f) s = (n >>= f) s := by
  change (m s).bind (fun r => f r.1 r.2) = (n s).bind (fun r => f r.1 r.2)
  rw [h]

theorem bind_run (h : m s = some (a, t)) : (m >>= f) s = f a t := by
  change (m s).bind (fun r => f r.1 r.2) = f a t
  rw [h, bind_some]

theorem wlp_bind_of_run {Q : β → σ → Prop} (h : m s = some (a, t)) :
    wlp (m >>= f) Q s ↔ wlp (f a) Q t := by
  unfold wlp
  rw [bind_run h]

/-- Every run of the program that does not fail relates its first state to its
last one. -/
def Steps (R : σ → σ → Prop) (m : StateT σ Option α) : Prop := ∀ s, wlp m (fun _ t => R s t) s

/-- A relation of all steps is a postcondition. -/
theorem Steps.wlp (h : Steps R m) (himp : ∀ a t, R s t → Q a t) : wlp m Q s :=
  wlp_mono (h s) himp

theorem Steps.fail {R : σ → σ → Prop} : Steps R (fail : StateT σ Option α) :=
  fun _ => wlp_fail

theorem Steps.ite [Decidable c] (hm : Steps R m) (hn : Steps R n) : Steps R (if c then m else n) :=
  fun s => wlp_ite.2 ⟨fun _ => hm s, fun _ => hn s⟩

section Preorder

variable {R : σ → σ → Prop} [IsPreorder σ R]

theorem Steps.pure (a : α) : Steps R (pure a : StateT σ Option α) :=
  fun s => wlp_pure.2 (refl s)

theorem Steps.readState (f : σ → Option α) : Steps R (readState f) :=
  fun s => wlp_readState.2 (fun _ _ => refl s)

variable {m : StateT σ Option α} {f : α → StateT σ Option β}

/-- A transitive relation is kept through a sequence. -/
theorem Steps.bind (hm : Steps R m) (hf : ∀ a, Steps R (f a)) : Steps R (m >>= f) := by
  intro s
  rw [wlp_bind]
  refine hm.wlp fun a t hst => ?_
  exact (hf a).wlp fun _ u htu => IsTrans.trans _ _ _ hst htu

theorem Steps.andThen {Q : β → σ → Prop} {s t : σ} (hm : Steps R m) (hst : R s t)
    (h : ∀ a u, R s u → Library.wlp (f a) Q u) :
    Library.wlp (m >>= f) Q t := by
  rw [wlp_bind]
  exact hm.wlp fun a u htu => h a u (IsTrans.trans _ _ _ hst htu)

theorem Steps.runIf {c : Bool} {m : StateT σ Option PUnit} (hm : Steps R m) : Steps R (runIf c m) :=
  fun s => wlp_runIf.2 ⟨fun _ => hm s, fun _ => refl s⟩

end Preorder

/-- A property is kept. -/
def Preserves (I : σ → Prop) (s t : σ) : Prop := I s → I t

instance (I : σ → Prop) : IsPreorder σ (Preserves I) where
  refl := fun _ h => h
  trans := fun _ _ _ h h' hs => h' (h hs)

/-- A view of the state is left as it is. -/
def Same {ν : Type u} (view : σ → ν) (s t : σ) : Prop := view t = view s

instance {ν : Type u} (view : σ → ν) : IsPreorder σ (Same view) where
  refl := fun _ => rfl
  trans := fun _ _ _ h h' => Eq.trans h' h

end FallibleState

end SstElements.Library
