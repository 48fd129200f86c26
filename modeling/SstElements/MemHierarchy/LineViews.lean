import SstElements.MemHierarchy.CacheArray

/-!
# What a line is and what the policy is told

A `LineKind` packages a line type with its mutators and with `view`: the
replacement info that would describe the line as it is.  Data lines point into
an environment of directory lines, which changes on its own.

`resetKeeps`, `mutateKeeps` and `envKeeps` are the conditions under which a
change keeps the captured info equal to the view, and `LineKind.Exact` says
that they are the exact conditions.  The five line types are instances.
-/

namespace SstElements.MemHierarchy

open Function

/-- A line type with its mutators, and the conditions on them. -/
structure LineKind where
  Line : Type
  inst : ArrayLine Line
  newLine : Nat → Nat → Line
  Env : Type
  newEnv : Env
  Mutator : Type
  mutate : Line → Mutator → Line
  EnvOp : Type
  envStep : Env → EnvOp → Env
  view : Env → Line → ReplacementInfo
  wf : Line → Nat → Prop
  resetKeeps : Env → Line → Prop
  mutateKeeps : Env → Line → Mutator → Prop
  envKeeps : Env → Line → EnvOp → Prop

namespace LineKind

/-- The policy is told what the line is. -/
def InStep (K : LineKind) (env : K.Env) (l : K.Line) : Prop := K.inst.capturedInfo l = K.view env l

/-- The conditions of a kind are exact. -/
structure Exact (K : LineKind) : Prop where
  wf_new : ∀ size i, K.wf (K.newLine size i) i
  wf_index : ∀ l i, K.wf l i →
    K.inst.getIndex l = i ∧ (K.inst.capturedInfo l).index = i
  wf_reset : ∀ l i, K.wf l i → K.wf (K.inst.reset l) i := by exact fun _ _ h => h
  wf_setAddr : ∀ l i a, K.wf l i → K.wf (K.inst.setAddr l a) i := by exact fun _ _ _ h => h
  wf_mutate : ∀ l i m, K.wf l i → K.wf (K.mutate l m) i := by
    intro l i m h
    cases m <;> exact h
  inStep_new : ∀ size i, K.InStep K.newEnv (K.newLine size i) := by exact fun _ _ => rfl
  inStep_setAddr : ∀ env l a, K.InStep env (K.inst.setAddr l a) ↔ K.InStep env l := by
    exact fun _ _ _ => Iff.rfl
  inStep_reset : ∀ env l i, K.wf l i → K.InStep env l →
    (K.InStep env (K.inst.reset l) ↔ K.resetKeeps env l)
  inStep_mutate : ∀ env l i m, K.wf l i → K.InStep env l →
    (K.InStep env (K.mutate l m) ↔ K.mutateKeeps env l m)
  inStep_env : ∀ env l i e, K.wf l i → K.InStep env l →
    (K.InStep (K.envStep env e) l ↔ K.envKeeps env l e) := by exact fun _ _ _ e => e.elim

end LineKind

section L1

/-- Changes of an L1 line by its coherence manager. -/
inductive L1Mutator where
  | setState (s : State)
  | setData (bytes : List UInt8) (offset : Nat)
  | atomicStart (time : SimTime)
  | atomicEnd
  | incLock
  | decLock
  | setEventsWaitingForLock (w : Bool)
deriving Repr

def L1CacheLine.mutate (l : L1CacheLine) : L1Mutator → L1CacheLine
  | .setState s => l.setState s
  | .setData bytes offset => l.setData bytes offset
  | .atomicStart time => l.atomicStart time
  | .atomicEnd => l.atomicEnd
  | .incLock => l.incLock
  | .decLock => l.decLock
  | .setEventsWaitingForLock w => l.setEventsWaitingForLock w

def l1Kind : LineKind where
  Line := L1CacheLine
  inst := inferInstance
  newLine := L1CacheLine.new
  Env := Unit
  newEnv := ()
  Mutator := L1Mutator
  mutate := L1CacheLine.mutate
  EnvOp := Empty
  envStep := fun env _ => env
  view := fun _ l => { index := l.index_, state := l.state_, coherence := none }
  wf := fun l i => l.index_ = i ∧ l.info.index = i ∧ l.info.coherence = none
  resetKeeps := fun _ l => l.state_ = .I
  mutateKeeps := fun _ _ _ => True
  envKeeps := fun _ _ _ => True

theorem l1Kind_inStep_iff {env : l1Kind.Env} {l : L1CacheLine} {i : Nat} (h : l1Kind.wf l i) :
    l1Kind.InStep env l ↔ l.info.state = l.state_ := by
  obtain ⟨hi, hinfo, hcoh⟩ := h
  constructor
  · intro hstep
    exact congrArg ReplacementInfo.state hstep
  · intro hstate
    show l.info = _
    cases hl : l.info with
    | mk index state coherence =>
      rw [hl] at hinfo hcoh hstate
      simp only at hinfo hcoh hstate
      simp [l1Kind, hinfo, hcoh, hstate, hi]

theorem l1Kind_exact : l1Kind.Exact where
  wf_new := fun _ _ => ⟨rfl, rfl, rfl⟩
  wf_index := fun _ _ h => ⟨h.1, h.2.1⟩
  inStep_reset := by
    intro env l i h hstep
    have hreset : l1Kind.wf l.reset i := h
    rw [l1Kind_inStep_iff h] at hstep
    refine (l1Kind_inStep_iff hreset).trans ?_
    show l.info.state = .I ↔ l.state_ = .I
    rw [hstep]
  inStep_mutate := by
    intro env l i m h hstep
    refine iff_of_true ?_ trivial
    cases m with
    | setState s =>
      have hset : l1Kind.wf (l.setState s) i := h
      exact (l1Kind_inStep_iff hset).2 rfl
    | _ => exact hstep

end L1

section Sharing

/-- Changes of a line with owner and sharers. -/
inductive SharingMutator where
  | setState (s : State)
  | addSharer (name : String)
  | removeSharer (name : String)
  | setOwner (name : String)
  | removeOwner
deriving Repr

def SharedCacheLine.mutate (l : SharedCacheLine) : SharingMutator → SharedCacheLine
  | .setState s => l.setState s
  | .addSharer name => l.addSharer name
  | .removeSharer name => l.removeSharer name
  | .setOwner name => l.setOwner name
  | .removeOwner => l.removeOwner

def sharingInfo (index : Nat) (state : State) (sharers : Finset String)
    (owner : String) : ReplacementInfo :=
  { index := index, state := state,
    coherence := some {
      shared := decide (sharers ≠ ∅), owned := decide (owner ≠ "") } }

/-- Shared lines: a reset keeps in step only an idle line, and an owner
must have a name. -/
def sharedKind : LineKind where
  Line := SharedCacheLine
  inst := inferInstance
  newLine := fun _ => SharedCacheLine.new
  Env := Unit
  newEnv := ()
  Mutator := SharingMutator
  mutate := SharedCacheLine.mutate
  EnvOp := Empty
  envStep := fun env _ => env
  view := fun _ l => sharingInfo l.index_ l.state_ l.sharers_ l.owner_
  wf := fun l i => l.index_ = i ∧ l.info.index = i
  resetKeeps := fun _ l => l.state_ = .I ∧ l.sharers_ = ∅ ∧ l.owner_ = ""
  mutateKeeps := fun _ _ m =>
    match m with
    | .setOwner name => name ≠ ""
    | _ => True
  envKeeps := fun _ _ _ => True

theorem sharingInfo_eq_iff {i : Nat} {s s' : State} {sh sh' : Finset String} {o o' : String} :
    sharingInfo i s sh o = sharingInfo i s' sh' o' ↔
      s = s' ∧ (sh = ∅ ↔ sh' = ∅) ∧ (o = "" ↔ o' = "") := by
  simp only [sharingInfo, ReplacementInfo.mk.injEq, true_and,
    Option.some.injEq, CoherenceInfo.mk.injEq, decide_eq_decide]
  rw [not_iff_not, not_iff_not]

theorem sharingInfo_eq_idle_iff {i : Nat} {s : State} {sh : Finset String} {o : String} :
    sharingInfo i s sh o = sharingInfo i .I ∅ "" ↔ s = .I ∧ sh = ∅ ∧ o = "" := by
  simp [sharingInfo_eq_iff]

section Changes

variable {i : Nat} {s : State} {sh : Finset String} {o : String} {info : ReplacementInfo}

variable (h : info = sharingInfo i s sh o)
include h

theorem inStep_addSharer (name : String) :
    (info.setShared true = sharingInfo i s (insert name sh) o) ↔ True := by
  rw [h]
  simp [sharingInfo, ReplacementInfo.setShared]

theorem inStep_setShared (rest : Finset String) :
    (info.setShared (decide (rest ≠ ∅)) = sharingInfo i s rest o) ↔ True := by
  rw [h]
  exact iff_of_true rfl trivial

theorem inStep_setOwner_iff (name : String) :
    info.setOwned true = sharingInfo i s sh name ↔ name ≠ "" := by
  rw [h]
  simp [sharingInfo, ReplacementInfo.setOwned]

theorem inStep_removeOwner : (info.setOwned false = sharingInfo i s sh "") ↔ True := by
  rw [h]
  exact iff_of_true rfl trivial

end Changes

theorem sharedKind_exact : sharedKind.Exact where
  wf_new := fun _ _ => ⟨rfl, rfl⟩
  wf_index := fun _ _ h => h
  inStep_reset := by
    intro env l i _ hstep
    have hinfo : l.info =
        sharingInfo l.index_ l.state_ l.sharers_ l.owner_ := hstep
    show l.info = sharingInfo l.index_ .I ∅ "" ↔ _
    rw [hinfo]
    exact sharingInfo_eq_idle_iff
  inStep_mutate := by
    intro env l i m _ hstep
    have hinfo : l.info =
        sharingInfo l.index_ l.state_ l.sharers_ l.owner_ := hstep
    cases m with
    | setState s =>
      refine iff_of_true ?_ trivial
      show l.info.setState s = _
      rw [hinfo]
      rfl
    | addSharer name => exact inStep_addSharer hinfo name
    | removeSharer name => exact inStep_setShared hinfo _
    | setOwner name => exact inStep_setOwner_iff hinfo name
    | removeOwner => exact inStep_removeOwner hinfo

end Sharing

section Private

/-- Changes of a private line. -/
inductive PrivateMutator where
  | setState (s : State)
  | setShared (s : Bool)
  | setOwned (o : Bool)
deriving Repr

def PrivateCacheLine.mutate (l : PrivateCacheLine) : PrivateMutator → PrivateCacheLine
  | .setState s => l.setState s
  | .setShared s => l.setShared s
  | .setOwned o => l.setOwned o

def privateKind : LineKind where
  Line := PrivateCacheLine
  inst := inferInstance
  newLine := fun _ => PrivateCacheLine.new
  Env := Unit
  newEnv := ()
  Mutator := PrivateMutator
  mutate := PrivateCacheLine.mutate
  EnvOp := Empty
  envStep := fun env _ => env
  view := fun _ l =>
    { index := l.index_, state := l.state_,
      coherence := some { shared := l.shared, owned := l.owned } }
  wf := fun l i => l.index_ = i ∧ l.info.index = i
  resetKeeps := fun _ l => l.state_ = .I ∧ l.shared = false ∧ l.owned = false
  mutateKeeps := fun _ _ _ => True
  envKeeps := fun _ _ _ => True

theorem privateKind_exact : privateKind.Exact where
  wf_new := fun _ _ => ⟨rfl, rfl⟩
  wf_index := fun _ _ h => h
  inStep_reset := by
    intro env l i _ hstep
    have hinfo : l.info = privateKind.view env l := hstep
    show l.info = privateKind.view env l.reset ↔ _
    rw [hinfo]
    simp [privateKind, PrivateCacheLine.reset]
  inStep_mutate := by
    intro env l i m _ hstep
    have hinfo : l.info = privateKind.view env l := hstep
    refine iff_of_true ?_ trivial
    cases m with
    | setState s =>
      show l.info.setState s = _
      rw [hinfo]
      rfl
    | setShared s =>
      show l.info.setShared s = _
      rw [hinfo]
      rfl
    | setOwned o =>
      show l.info.setOwned o = _
      rw [hinfo]
      rfl

end Private

section Directory

def DirectoryLine.mutate (l : DirectoryLine) : SharingMutator → DirectoryLine
  | .setState s => l.setState s
  | .addSharer name => l.addSharer name
  | .removeSharer name => l.removeSharer name
  | .setOwner name => l.setOwner name
  | .removeOwner => l.removeOwner

def DirectoryLine.Idle (l : DirectoryLine) : Prop := l.state_ = .I ∧ l.sharers_ = ∅ ∧ l.owner_ = ""

/-- Directory lines: as shared lines, but `setState` must not change the state. -/
def directoryKind : LineKind where
  Line := DirectoryLine
  inst := inferInstance
  newLine := fun _ => DirectoryLine.new
  Env := Unit
  newEnv := ()
  Mutator := SharingMutator
  mutate := DirectoryLine.mutate
  EnvOp := Empty
  envStep := fun env _ => env
  view := fun _ l => sharingInfo l.index_ l.state_ l.sharers_ l.owner_
  wf := fun l i => l.index_ = i ∧ l.info_.index = i ∧ l.info_.state = .I
  resetKeeps := fun _ l => l.Idle
  mutateKeeps := fun _ _ m =>
    match m with
    | .setState s => s = .I
    | .setOwner name => name ≠ ""
    | _ => True
  envKeeps := fun _ _ _ => True

theorem directoryKind_exact : directoryKind.Exact where
  wf_new := fun _ _ => ⟨rfl, rfl, rfl⟩
  wf_index := fun _ _ h => ⟨h.1, h.2.1⟩
  inStep_reset := by
    intro env l i _ hstep
    have hinfo : l.info_ =
        sharingInfo l.index_ l.state_ l.sharers_ l.owner_ := hstep
    show l.info_ = sharingInfo l.index_ .I ∅ "" ↔ _
    rw [hinfo]
    exact sharingInfo_eq_idle_iff
  inStep_mutate := by
    intro env l i m h hstep
    have hinfo : l.info_ =
        sharingInfo l.index_ l.state_ l.sharers_ l.owner_ := hstep
    cases m with
    | setState s =>
      have hI : l.state_ = .I := by
        have := h.2.2
        rwa [hinfo] at this
      show l.info_ = sharingInfo l.index_ s l.sharers_ l.owner_ ↔ s = .I
      rw [hinfo, sharingInfo_eq_iff, hI]
      exact ⟨fun h => h.1.symm, fun h => ⟨h.symm, Iff.rfl, Iff.rfl⟩⟩
    | addSharer name => exact inStep_addSharer hinfo name
    | removeSharer name => exact inStep_setShared hinfo _
    | setOwner name => exact inStep_setOwner_iff hinfo name
    | removeOwner => exact inStep_removeOwner hinfo

end Directory

section Data

/-- Changes of a directory line that data lines may point to. -/
inductive TagOp where
  | mutate (tag : Nat) (m : SharingMutator)
  | reset (tag : Nat)
deriving Repr

/-- The directory line that a change is about. -/
def TagOp.tag : TagOp → Nat
  | .mutate tag _ => tag
  | .reset tag => tag

/-- The changed directory line. -/
def TagOp.apply (tags : Tags) : TagOp → DirectoryLine
  | .mutate tag m => (tags tag).mutate m
  | .reset tag => (tags tag).reset

def Tags.step (tags : Tags) (op : TagOp) : Tags := update tags op.tag (op.apply tags)

@[simp] theorem Tags.step_self (tags : Tags) (op : TagOp) :
    Tags.step tags op op.tag = op.apply tags :=
  update_self _ _ _

theorem Tags.idle_step_iff (tags : Tags) (op : TagOp) {tag : Option Nat}
    (hidle : ∀ t, tag = some t → (tags t).Idle) :
    (∀ t, tag = some t → (Tags.step tags op t).Idle) ↔
      (tag = some op.tag → (op.apply tags).Idle) := by
  constructor
  · intro hall htag
    have h := hall op.tag htag
    rwa [Tags.step_self] at h
  · intro hop t ht
    by_cases heq : t = op.tag
    · subst heq
      rw [Tags.step_self]
      exact hop ht
    · rw [Tags.step, update_of_ne heq]
      exact hidle t ht

def DataLine.view (tags : Tags) (l : DataLine) : ReplacementInfo :=
  match l.tag_ with
  | some t => sharingInfo l.index_ (tags t).state_ (tags t).sharers_ (tags t).owner_
  | none => sharingInfo l.index_ .I ∅ ""

/-- Data lines: a tag must be, and stay, idle as long as it is pointed to. -/
def dataKind : LineKind where
  Line := DataLine
  inst := inferInstance
  newLine := fun _ => DataLine.new
  Env := Tags
  newEnv := DirectoryLine.new
  Mutator := Option Nat
  mutate := DataLine.setTag
  EnvOp := TagOp
  envStep := Tags.step
  view := DataLine.view
  wf := fun l i => l.index_ = i ∧ l.info_ = sharingInfo i .I ∅ ""
  resetKeeps := fun _ _ => True
  mutateKeeps := fun tags _ tag => ∀ t, tag = some t → (tags t).Idle
  envKeeps := fun tags l op => l.tag_ = some op.tag → (op.apply tags).Idle

theorem dataKind_inStep_iff {tags : Tags} {l : DataLine} {i : Nat} (h : dataKind.wf l i) :
    dataKind.InStep tags l ↔ ∀ t, l.tag_ = some t → (tags t).Idle := by
  obtain ⟨rfl, hinfo⟩ := h
  show l.info_ = l.view tags ↔ _
  rw [hinfo]
  cases htag : l.tag_ with
  | none =>
    simp [DataLine.view, htag]
  | some t =>
    simp only [DataLine.view, htag, Option.some.injEq, forall_eq', DirectoryLine.Idle]
    rw [eq_comm]
    exact sharingInfo_eq_idle_iff

theorem dataKind_exact : dataKind.Exact where
  wf_new := fun _ _ => ⟨rfl, rfl⟩
  wf_index := by
    rintro l i ⟨hi, hinfo⟩
    refine ⟨hi, ?_⟩
    show l.info_.index = i
    rw [hinfo]
    rfl
  inStep_reset := by
    intro tags l i h _
    have hreset : dataKind.wf l.reset i := h
    refine iff_of_true ((dataKind_inStep_iff hreset).2 ?_) trivial
    intro t ht
    exact absurd ht (by simp [DataLine.reset])
  inStep_mutate := by
    intro tags l i tag h _
    have hset : dataKind.wf (l.setTag tag) i := h
    exact dataKind_inStep_iff hset
  inStep_env := by
    intro tags l i op h hstep
    have hidle := (dataKind_inStep_iff h).1 hstep
    exact (dataKind_inStep_iff h).trans (Tags.idle_step_iff tags op hidle)

end Data

/-- The line types of the cache arrays. -/
inductive LineClass where
  | l1CacheLine | sharedCacheLine | privateCacheLine | directoryLine | dataLine
deriving DecidableEq, Repr

def LineClass.kind : LineClass → LineKind
  | .l1CacheLine => l1Kind
  | .sharedCacheLine => sharedKind
  | .privateCacheLine => privateKind
  | .directoryLine => directoryKind
  | .dataLine => dataKind

theorem LineClass.exact (c : LineClass) : c.kind.Exact := by
  cases c with
  | l1CacheLine => exact l1Kind_exact
  | sharedCacheLine => exact sharedKind_exact
  | privateCacheLine => exact privateKind_exact
  | directoryLine => exact directoryKind_exact
  | dataLine => exact dataKind_exact

end SstElements.MemHierarchy
