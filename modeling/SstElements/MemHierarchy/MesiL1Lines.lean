import SstElements.MemHierarchy.MesiL1Events

/-!
# What the parts of an L1 coherence manager do to its lines

`lineView` is what atomicity depends on: the address, the state and the atomic
flag of each line, where an address is found, and the answers to the core.
Sending, the MSHR and the other fields of a line do not show in it.
-/

namespace SstElements.MemHierarchy

open Library Function Option

/-- What atomicity depends on in a line. -/
structure LineCore where
  addr : Addr
  state : State
  atomic : Bool

/-- The lines of a cache and the answers to the core. -/
structure LineView where
  ways : Addr → List Nat
  core : Nat → LineCore
  answers : List Answer

namespace LineView

/-- The way that holds an address. -/
def find (v : LineView) (addr : Addr) : Option Nat :=
  (v.ways addr).find? (fun i => decide ((v.core i).addr = addr))

def setCore (v : LineView) (i : Nat) (c : LineCore) : LineView :=
  { v with core := update v.core i c }

def setState (v : LineView) (i : Nat) (x : State) : LineView :=
  v.setCore i { v.core i with state := x }

/-- Change the state of a line and end its atomic sequence. -/
def drop (v : LineView) (i : Nat) (x : State) : LineView :=
  v.setCore i { v.core i with state := x, atomic := false }

@[simp] theorem setCore_core_self {v : LineView} {i : Nat} {c : LineCore} :
    (v.setCore i c).core i = c :=
  update_self _ _ _

end LineView

def L1CacheLine.core (l : L1CacheLine) : LineCore :=
  { addr := l.addr_, state := l.state_, atomic := l.LLSCAtomic_ }

namespace MESIL1

variable {P : ReplacementPolicy}

/-- What atomicity depends on in a manager. -/
def lineView (s : MESIL1 P) : LineView :=
  { ways := fun addr => s.cacheArray_.waysOf (s.cacheArray_.setOf addr)
    core := fun i => (s.cacheArray_.lines_ i).core
    answers := s.answers }

instance : KeptBySends (Same (lineView (P := P))) where

instance : KeptByManagement (Same (lineView (P := P))) where

section Rules

variable {s : MESIL1 P} {line : Option Nat}

theorem find_lineView (s : MESIL1 P) (addr : Addr) :
    s.lineView.find addr = s.cacheArray_.findWay addr :=
  rfl

theorem lineView_setLine (s : MESIL1 P) (i : Nat) (l : L1CacheLine) :
    ({ s with cacheArray_ := s.cacheArray_.setLine i l } : MESIL1 P).lineView =
      s.lineView.setCore i l.core := by
  have hcore : (fun j =>
      (update s.cacheArray_.lines_ i l j).core) =
      update (fun j => (s.cacheArray_.lines_ j).core) i l.core := by
    funext j
    exact apply_update (fun _ l => L1CacheLine.core l) _ _ _ _
  simp only [lineView, LineView.setCore, CacheArray.setLine]
  rw [hcore]
  rfl

theorem lineView_setLine_same {i : Nat} {l : L1CacheLine}
    (h : l.core = (s.cacheArray_.lines_ i).core) :
    ({ s with cacheArray_ := s.cacheArray_.setLine i l } : MESIL1 P).lineView =
      s.lineView := by
  rw [lineView_setLine, h]
  simp only [LineView.setCore, lineView, update_eq_self]

variable {Q : Unit → MESIL1 P → Prop} {f : L1CacheLine → L1CacheLine}

theorem wlp_modifyLine
    (h : ∀ i t, line = some i →
      t.lineView = s.lineView.setCore i (f (s.cacheArray_.lines_ i)).core → Q () t) :
    wlp (modifyLine line f) Q s := by
  refine wlp_changeState.2 fun t hrun => ?_
  obtain ⟨i, hi, rfl⟩ := map_eq_some_iff.1 hrun
  exact h i _ hi (lineView_setLine s i _)

theorem modifyLine_same (hf : ∀ l, (f l).core = l.core) :
    Steps (Same lineView) (modifyLine line f : L1M P Unit) := by
  refine changeState_steps fun s t hrun => ?_
  obtain ⟨i, -, rfl⟩ := map_eq_some_iff.1 hrun
  exact lineView_setLine_same (hf _)

theorem setTimestamp_same (ts : SimTime) :
    Steps (Same lineView)
      (modifyLine line (fun l => l.setTimestamp ts) : L1M P Unit) :=
  modifyLine_same (fun _ => rfl)

theorem recordPrefetchResult_same :
    Steps (Same lineView) (recordPrefetchResult line : L1M P Unit) :=
  modifyLine_same (fun _ => rfl)

theorem wlp_setState {x : State}
    (h : ∀ i t, line = some i → t.lineView = s.lineView.setState i x → Q () t) :
    wlp (modifyLine line (fun l => l.setState x)) Q s :=
  wlp_modifyLine (fun i t hi ht => h i t hi ht)

theorem wlp_readLine {Q : L1CacheLine → MESIL1 P → Prop}
    (h : ∀ i l, line = some i → l.core = s.lineView.core i → Q l s) :
    wlp (readLine line) Q s := by
  refine wlp_readState.2 fun l hl => ?_
  obtain ⟨i, hi, rfl⟩ := map_eq_some_iff.1 hl
  exact h i _ hi rfl

theorem wlp_ask {α : Type} {Q : α → MESIL1 P → Prop} {f : MESIL1 P → α} (h : Q (f s) s) :
    wlp (ask f) Q s := by
  refine wlp_readState.2 fun a ha => ?_
  rwa [← some.inj ha]

theorem wlp_readEvent {Q : MemEvent → MESIL1 P → Prop} {p : Nat}
    (h : ∀ ev, s.heap p = some ev → Q ev s) :
    wlp (readEvent p) Q s :=
  wlp_readState.2 h

theorem wlp_eventOf {α : Type} {f : MemEvent → L1M P α} {Q : α → MESIL1 P → Prop} {p : Nat}
    {ev : MemEvent} (hev : s.heap p = some ev) (h : wlp (f ev) Q s) :
    wlp (readEvent p >>= f) Q s := by
  rw [wlp_bind]
  refine wlp_readEvent fun ev' hev' => ?_
  cases hev.symm.trans hev'
  exact h

end Rules

section Parts

variable {s : MESIL1 P} {line : Option Nat}

/-- A line after a victim was chosen for it: in I, or given up. -/
def Emptied (v w : LineView) (i : Nat) : Prop := w = v ∧ (v.core i).state = .I ∨ w = v.drop i .I

theorem writebackLine_same (l : L1CacheLine) :
    Steps (Same lineView) (writebackLine line l : L1M P Unit) := by
  have hsend : ∀ (cmd : Command) (dirty : Bool),
      Steps (Same lineView) (sendWriteback cmd line dirty : L1M P Unit) := by
    intro cmd dirty
    unfold sendWriteback
    refine (ask_steps _).bind fun cfg => ?_
    refine newID_steps.bind fun id => ?_
    refine (readLine_steps _).bind fun l => ?_
    refine (ask_steps _).bind fun base => ?_
    exact (forwardByAddress_steps _ _).bind fun _ => setTimestamp_same _
  unfold writebackLine
  refine (ask_steps _).bind fun cfg => ?_
  refine ((hsend _ _).bind (fun _ => ?_)).runIf
  refine ((ask_steps _).bind (fun now => ?_)).runIf
  refine changeMshr_steps fun m t h => ?_
  cases h
  exact .insertWriteback _ _ _ _

variable {Q : Unit → MESIL1 P → Prop} {addr : Addr} {ev : MemEvent}

theorem wlp_evictLine {victim : Nat} {l : L1CacheLine}
    (h : ∀ t, t.lineView = s.lineView.drop victim .I → Q () t) :
    wlp (evictLine victim l) Q s := by
  simp only [evictLine, wlp_bind]
  refine (writebackLine_same l).wlp fun _ t₁ h₁ => ?_
  refine wlp_setState fun i t₂ hi h₂ => ?_
  cases hi
  refine wlp_modifyLine fun i t₃ hi h₃ => ?_
  cases hi
  refine recordPrefetchResult_same.wlp fun _ t₄ h₄ => h t₄ ?_
  have hcore : ((t₂.cacheArray_.lines_ victim).atomicEnd).core =
      { t₂.lineView.core victim with atomic := false } := rfl
  rw [h₄, h₃, hcore, h₂, h₁]
  simp [LineView.setState, LineView.drop, LineView.setCore]

theorem wlp_chooseVictim {Q : Nat → MESIL1 P → Prop}
    (h : ∀ i t, (∀ j, line = some j → i = j) → t.lineView = s.lineView → Q i t) :
    wlp (chooseVictim addr line) Q s := by
  cases line with
  | some j =>
    exact wlp_pure.2 (h j s (fun k hk => some.inj hk) rfl)
  | none =>
    refine wlp_stepState.2 fun i t hrun => ?_
    obtain ⟨r, hfind, heq⟩ := map_eq_some_iff.1 hrun
    cases heq
    refine h _ _ (by simp) ?_
    obtain ⟨p, -, rfl⟩ := map_eq_some_iff.1 hfind
    rfl

theorem wlp_handleEviction {Q : Bool × Nat → MESIL1 P → Prop}
    (hkept : ∀ i t, t.lineView = s.lineView → Q (false, i) t)
    (hdone : ∀ i t, Emptied s.lineView t.lineView i → Q (true, i) t) :
    wlp (handleEviction addr line) Q s := by
  simp only [handleEviction, wlp_bind]
  refine wlp_chooseVictim fun i t _ ht => ?_
  refine wlp_readLine fun j l hj hl => wlp_ask (wlp_ask ?_)
  cases hj
  rw [wlp_ite]
  refine ⟨fun _ => wlp_pure.2 (hkept i t ht), fun _ => ?_⟩
  have hevict : wlp (if t.mshr_.getPendingRetries l.addr_ ≠ 0 then
      pure (false, i) else do
        evictLine i l
        pure (true, i)) Q t := by
    rw [wlp_ite]
    refine ⟨fun _ => wlp_pure.2 (hkept i t ht), fun _ => ?_⟩
    simp only [wlp_bind]
    refine wlp_evictLine fun u hu => wlp_pure.2 (hdone i u ?_)
    rw [← ht]
    exact .inr hu
  split
  · rename_i hstate
    refine wlp_pure.2 (hdone i t (.inl ⟨ht, ?_⟩))
    rw [← ht, ← hl]
    exact hstate
  · exact hevict
  · exact hevict
  · exact hevict
  · exact wlp_pure.2 (hkept i t ht)

theorem wlp_allocateLine {Q : Option Nat → MESIL1 P → Prop}
    (hkept : ∀ t, t.lineView = s.lineView → Q none t)
    (hdone : ∀ i t, t.lineView = s.lineView.setCore i ⟨ev.baseAddr_, .I, false⟩ → Q (some i) t) :
    wlp (allocateLine ev) Q s := by
  simp only [allocateLine, wlp_bind]
  refine wlp_handleEviction (fun i t ht => ?_) fun i t ht => ?_
  · rw [wlp_ite]
    refine ⟨by simp, fun _ => ?_⟩
    simp only [wlp_bind]
    refine wlp_readLine fun _ l _ _ => wlp_ask ?_
    refine (insertEviction_steps (R := Same lineView) _ _ _).wlp
      (fun _ u hu => wlp_pure.2 (hkept u ?_))
    exact Eq.trans hu ht
  · rw [wlp_ite]
    refine ⟨fun _ => ?_, by simp⟩
    simp only [wlp_bind]
    refine wlp_changeState.2 fun u hu => wlp_pure.2 (hdone i u ?_)
    obtain ⟨c, hc, rfl⟩ := map_eq_some_iff.1 hu
    obtain ⟨mgr, -, rfl⟩ := map_eq_some_iff.1 hc
    refine Eq.trans (lineView_setLine t i _) ?_
    rcases ht with ⟨ht, -⟩ | ht
    · rw [ht]
      rfl
    · rw [ht]
      simp only [LineView.drop, LineView.setCore, update_idem]
      rfl

theorem wlp_processCacheMiss {Q : MemEventStatus → MESIL1 P → Prop} {event : Nat} {inMSHR : Bool}
    (hev : s.heap event = some ev)
    (hkept : ∀ status t, t.lineView = s.lineView → (status = .OK → line.isSome = true) → Q status t)
    (hdone : ∀ i t, line = none →
      t.lineView = s.lineView.setCore i ⟨ev.baseAddr_, .I, false⟩ → Q .OK t) :
    wlp (processCacheMiss event line inMSHR) Q s := by
  simp only [processCacheMiss, wlp_bind]
  refine wlp_readEvent fun ev' hev' => ?_
  cases hev.symm.trans hev'
  refine (missStatus_steps (R := Same lineView) _ _ _).wlp
    (fun status t ht => ?_)
  rw [wlp_ite]
  refine ⟨fun hOK => ?_, fun hnot => wlp_pure.2 (hkept status t ht ?_)⟩
  · simp only [Bool.and_eq_true, decide_eq_true_eq, isNone_iff_eq_none] at hOK
    simp only [wlp_bind]
    refine wlp_allocateLine (fun u hu => ?_) fun i u hu => ?_
    · exact wlp_pure.2 (hkept _ u (hu.trans ht) (by simp))
    · refine wlp_pure.2 (hdone i u hOK.2 ?_)
      rw [hu]
      exact congrArg (fun v => LineView.setCore v i _) ht
  · intro hstatus
    simpa [hstatus, isSome_iff_ne_none] using hnot

theorem wlp_issueMiss {fwdCmd : Option Command} {x : State} {upgrade : Bool}
    (h : ∀ i t, line = some i → t.lineView = s.lineView.setState i x → Q () t) :
    wlp (issueMiss ev line fwdCmd x upgrade) Q s := by
  simp only [issueMiss, wlp_bind]
  refine wlp_ask ?_
  refine (askMshr_steps (R := Same lineView) _).wlp fun profiled t₁ h₁ => ?_
  refine (changeMshr_steps (R := Same lineView)
    (fun _ _ h => .setProfiled h)).runIf.wlp (fun _ t₂ h₂ => ?_)
  refine recordPrefetchResult_same.runIf.wlp fun _ t₃ h₃ => ?_
  refine (forwardMessage_steps (R := Same lineView) _ _ _ _).wlp
    (fun sendTime t₄ h₄ => ?_)
  refine wlp_setState fun i t₅ hi h₅ => ?_
  refine (setTimestamp_same _).wlp fun _ t₆ h₆ => ?_
  refine (changeMshr_steps (R := Same lineView)
    (fun _ _ h => .setInProgress h)).wlp (fun _ t₇ h₇ => h i t₇ hi ?_)
  have hsame : t₄.lineView = s.lineView := Eq.trans h₄ (Eq.trans h₃ (Eq.trans h₂ h₁))
  exact Eq.trans h₇ (Eq.trans h₆ (by rw [h₅, hsame]))

end Parts

end MESIL1

end SstElements.MemHierarchy
