import SstElements.MemHierarchy.MesiL1Reads

/-!
# Read responses carry the requested bytes

Every read of the core that an L1 coherence manager answers, at a hit or when a
response fills its line, is answered with the bytes of the line of its address,
and a miss leaves its line waiting for the forwarded request.  `handleGetSX`
does so except for the cases of `GetSXFails`, in which it does not complete.
-/

namespace SstElements.MemHierarchy

open Library

namespace MESIL1

variable {P : ReplacementPolicy}

section Parts

variable {s : MESIL1 P} {event : Nat} {ev : MemEvent} {line : Option Nat}
variable {inMSHR : Bool}

theorem wlp_and {α : Type} {m : L1M P α} {Q R : α → MESIL1 P → Prop} (hQ : wlp m Q s)
    (hR : wlp m R s) :
    wlp m (fun a t => Q a t ∧ R a t) s :=
  fun a t hrun => ⟨hQ a t hrun, hR a t hrun⟩

theorem readEvent_run (hev : s.heap event = some ev) : readEvent event s = some (ev, s) := by
  simp [readEvent, readState, hev]

theorem hitGetS_serves (hline : line = s.readView.find ev.baseAddr_)
    (hcore : isLocalPrefetch s.config ev = false) :
    wlp (hitGetS event ev line inMSHR)
      (fun _ t => s.readView.AnswersRead t.readView ev.baseAddr_ ev ∧
        t.readView.data = s.readView.data) s := by
  simp only [hitGetS, wlp_bind]
  refine wlp_ask (wlp_ask ?_)
  refine (checkProfiled_steps (R := Same readView) _ _).wlp fun _ s₁ h₁ => ?_
  rw [hcore, if_neg Bool.false_ne_true]
  simp only [wlp_bind]
  refine recordPrefetchResult_keepsRead.wlp fun _ s₂ h₂ => ?_
  refine (atomicStart_keepsRead _).runIf.wlp fun _ s₃ h₃ => ?_
  have hview : s₃.readView = s.readView := Eq.trans h₃ (Eq.trans h₂ h₁)
  refine wlp_answerRequest_read (by rw [hview, hline]) fun s₄ hanswers hdata => ?_
  refine (cleanUpAfterRequest_steps (R := Same readView) _ _).wlp fun _ t ht => ?_
  rw [show t.readView = s₄.readView from ht, ← hview]
  exact ⟨hanswers, hdata⟩

theorem intendedHitGetSX_serves (hline : line = s.readView.find ev.baseAddr_) :
    wlp (intendedHitGetSX event ev line inMSHR)
      (fun _ t => s.readView.AnswersRead t.readView ev.baseAddr_ ev ∧
        t.readView.data = s.readView.data) s := by
  simp only [intendedHitGetSX, wlp_bind]
  refine recordPrefetchResult_keepsRead.wlp fun _ s₁ h₁ => ?_
  refine (checkProfiled_steps (R := Same readView) _ _).wlp fun _ s₂ h₂ => ?_
  refine incLock_keepsRead.wlp fun _ s₃ h₃ => ?_
  have hview : s₃.readView = s.readView := Eq.trans h₃ (Eq.trans h₂ h₁)
  refine wlp_answerRequest_read (by rw [hview, hline]) fun s₄ hanswers hdata => ?_
  refine (cleanUpAfterRequest_steps (R := Same readView) _ _).wlp fun _ t ht => ?_
  rw [show t.readView = s₄.readView from ht, ← hview]
  exact ⟨hanswers, hdata⟩

theorem issueMiss_queues {x : State} {upgrade : Bool} :
    wlp (issueMiss ev line none x upgrade)
      (fun _ t => t.readView = { s.readView with queued := t.readView.queued } ∧
        ∃ r ∈ t.readView.queued,
          r.event = { ev with
            payload_ := [], size_ := s.config.lineSize_.toUInt32
            src_ := s.config.cachename_
            dst_ := targetOf s.config ev.baseAddr_ }) s := by
  simp only [issueMiss, forwardMessage, wlp_bind]
  refine wlp_ask ?_
  refine (askMshr_steps (R := Same readView) _).wlp fun profiled s₁ h₁ => ?_
  refine (changeMshr_steps (R := Same readView)
    (fun _ _ h => .setProfiled h)).runIf.wlp (fun _ s₂ h₂ => ?_)
  refine recordPrefetchResult_keepsRead.runIf.wlp fun _ s₃ h₃ => ?_
  have hview : s₃.readView = s.readView := Eq.trans h₃ (Eq.trans h₂ h₁)
  have hconfig : s₃.config = s.config := congrArg ReadView.config hview
  refine wlp_ask (wlp_ask ?_)
  refine wlp_forwardByAddress fun s₄ h₄ _ hqueued => wlp_pure.2 ?_
  refine (setState_keepsRead _).wlp fun _ s₅ h₅ => ?_
  refine (setTimestamp_keepsRead _).wlp fun _ s₆ h₆ => ?_
  refine (changeMshr_steps (R := Same readView)
    (fun _ _ h => .setInProgress h)).wlp (fun _ t ht => ?_)
  have hsame : t.readView = s₄.readView := Eq.trans ht (Eq.trans h₆ h₅)
  rw [hconfig] at hqueued
  rw [hsame]
  refine ⟨?_, hqueued⟩
  rw [h₄, hview]

theorem issueMiss_forwards {x : State} {upgrade : Bool}
    (hline : line = s.cacheArray_.findWay ev.baseAddr_) :
    wlp (issueMiss ev line none x upgrade)
      (fun _ t => t.answers = s.answers ∧ t.ForwardsRead ev x) s := by
  have hstate : wlp (issueMiss ev line none x upgrade)
      (fun _ t => ∃ i, line = some i ∧ t.lineView = s.lineView.setState i x) s :=
    wlp_issueMiss (fun i t hi ht => ⟨i, hi, ht⟩)
  refine wlp_mono (wlp_and hstate issueMiss_queues) ?_
  rintro - t ⟨⟨i, hi, hview⟩, hread, hqueued⟩
  have hconfig : t.config = s.config := congrArg ReadView.config hread
  have hfind : t.readView.find ev.baseAddr_ = s.readView.find ev.baseAddr_ := by
    rw [hread]
    rfl
  refine ⟨congrArg ReadView.answers hread, i, ?_, ?_, ?_⟩
  · rw [← find_readView, hfind, find_readView, ← hline, hi]
  · have hcore := congrArg (fun v => (LineView.core v i).state) hview
    simpa [LineView.setState, lineView, L1CacheLine.core] using hcore
  · rw [hconfig]
    exact hqueued

theorem processCacheMiss_answers (hev : s.heap event = some ev) :
    wlp (processCacheMiss event line inMSHR)
      (fun _ t => t.answers = s.answers) s := by
  refine wlp_processCacheMiss hev (fun status t ht _ => ?_) fun i t _ ht => ?_
  · exact congrArg LineView.answers ht
  · exact congrArg LineView.answers ht

end Parts

section Requests

variable {s s₁ s₂ t : MESIL1 P} {event : Nat} {ev : MemEvent} {line : Option Nat}
variable {inMSHR : Bool} {addr : Addr}

theorem lookup_facts {use : Bool} (h : lookup addr use s = some (line, s₁)) :
    line = s.cacheArray_.findWay addr ∧ s₁.readView = s.readView ∧
      s₁.lineView = s.lineView ∧ s₁.heap = s.heap ∧ s₁.mshr_ = s.mshr_ ∧
      stateOf line s₁ = some (s.lineState addr, s₁) := by
  have hfacts : wlp (lookup addr use) (fun line s₁ =>
      line = s.cacheArray_.findWay addr ∧ s₁.readView = s.readView ∧
        s₁.lineView = s.lineView ∧ s₁.heap = s.heap ∧ s₁.mshr_ = s.mshr_ ∧
        stateOf line s₁ = some (s.lineState addr, s₁)) s :=
    wlp_lookup_mgr (fun _ => ⟨rfl, rfl, rfl, rfl, rfl, rfl⟩)
  exact hfacts line s₁ h

theorem beginReplay_facts {u : Unit} (h : beginReplay addr inMSHR s = some (u, t)) :
    ∃ m, t = { s with mshr_ := m } := by
  have hfacts : wlp (beginReplay addr inMSHR)
      (fun _ t => ∃ m, t = { s with mshr_ := m }) s := by
    refine wlp_runIf.2 ⟨fun _ => wlp_changeState.2 (fun t ht => ?_), fun _ => ⟨s.mshr_, rfl⟩⟩
    obtain ⟨m, -, rfl⟩ := Option.map_eq_some_iff.1 ht
    exact ⟨m, rfl⟩
  exact hfacts u t h

/-- How a request starts: its line is looked up, and a replay is noted. -/
theorem wlp_beginRequest {α : Type} {k : Option Nat → State → L1M P α}
    {Q : α → MESIL1 P → Prop}
    (h : ∀ line s₁ u s₂, lookup addr true s = some (line, s₁) →
      beginReplay addr inMSHR s₁ = some (u, s₂) → line = s.cacheArray_.findWay addr →
      s₂.readView = s.readView → s₂.heap = s.heap → wlp (k line (s.lineState addr)) Q s₂) :
    wlp (do
        let line ← lookup addr true
        let state ← stateOf line
        beginReplay addr inMSHR
        k line state) Q s := by
  rw [wlp_bind]
  intro line s₁ hlook
  obtain ⟨hline, hview, -, hheap, -, hstate⟩ := lookup_facts hlook
  rw [wlp_bind]
  intro state s₁' hrun
  obtain ⟨rfl, rfl⟩ := Prod.mk.inj (Option.some.inj (hstate.symm.trans hrun))
  rw [wlp_bind]
  intro u s₂ hbegin
  obtain ⟨m, hm⟩ := beginReplay_facts hbegin
  exact h line s₁ u s₂ hlook hbegin hline (hm ▸ hview) (hm ▸ hheap)

theorem missOutcome_run {u : Unit} (hlook : lookup ev.baseAddr_ true s = some (line, s₁))
    (hbegin : beginReplay ev.baseAddr_ inMSHR s₁ = some (u, s₂)) :
    missOutcome event ev inMSHR s = processCacheMiss event line inMSHR s₂ := by
  unfold missOutcome
  rw [bind_run hlook, bind_run hbegin]

theorem ReadOutcome.of_hit (hne : s.lineState ev.baseAddr_ ≠ .I) (hhit : s.ReadHit ev)
    (h : s.readView.AnswersRead t.readView ev.baseAddr_ ev ∧ t.readView.data = s.readView.data) :
    ReadOutcome s t event ev inMSHR :=
  ⟨fun _ => h, fun hnot => absurd hhit hnot, fun hI => absurd hI hne⟩

theorem ReadOutcome.of_wait (hne : s.lineState ev.baseAddr_ ≠ .I) (hnot : ¬ s.ReadHit ev)
    (h : t.answers = s.answers) :
    ReadOutcome s t event ev inMSHR :=
  ⟨fun hhit => absurd hhit hnot, fun _ => h, fun hI => absurd hI hne⟩

theorem ReadOutcome.of_miss (hI : s.lineState ev.baseAddr_ = .I) (h : t.answers = s.answers)
    (hissued : s.MissGoesOn event ev inMSHR →
      t.ForwardsRead ev (if ev.cmd_ = .GetS then .IS else .IM)) :
    ReadOutcome s t event ev inMSHR :=
  ⟨fun hhit => by simp [ReadHit, hI] at hhit, fun _ => h, fun _ => hissued⟩

theorem missInI_outcome {u : Unit} {x : State} (hev : s₂.heap event = some ev)
    (hlook : lookup ev.baseAddr_ true s = some (line, s₁))
    (hbegin : beginReplay ev.baseAddr_ inMSHR s₁ = some (u, s₂))
    (hI : s.lineState ev.baseAddr_ = .I) (hx : x = if ev.cmd_ = .GetS then .IS else .IM) :
    wlp (do
        let status ← processCacheMiss event line inMSHR
        runIf (status = .OK) (do
          let line ← lookup ev.baseAddr_ false
          issueMiss ev line none x false)
        pure (decide (status ≠ .Reject)))
      (fun _ t => ReadOutcome s t event ev inMSHR) s₂ := by
  have hanswers : s₂.answers = s.answers := by
    obtain ⟨-, hview, -⟩ := lookup_facts hlook
    obtain ⟨m, rfl⟩ := beginReplay_facts hbegin
    exact congrArg ReadView.answers hview
  rw [wlp_bind]
  intro status s₃ hmiss
  have hkept := wlp_run (processCacheMiss_answers hev) hmiss
  have hgoes : s.MissGoesOn event ev inMSHR ↔ status = .OK := by
    unfold MissGoesOn
    rw [missOutcome_run hlook hbegin, hmiss]
    exact Option.some_inj
  rw [wlp_bind, wlp_runIf]
  constructor
  · intro _
    rw [wlp_bind]
    intro line' s₄ hagain
    rw [lookup_false_run] at hagain
    cases hagain
    refine wlp_mono (issueMiss_forwards rfl) ?_
    rintro - t ⟨ht, hforwards⟩
    refine wlp_pure.2 (.of_miss hI (ht.trans (hkept.trans hanswers)) (fun _ => ?_))
    rwa [← hx]
  · intro hnot
    refine wlp_pure.2 (.of_miss hI (hkept.trans hanswers) (fun hgo => ?_))
    exact absurd (hgoes.1 hgo) (of_decide_eq_false hnot)

theorem handleGetS_outcome (hev : s.heap event = some ev) (hcmd : ev.cmd_ = .GetS)
    (hcore : isLocalPrefetch s.config ev = false) :
    wlp (handleGetS event inMSHR)
      (fun _ t => ReadOutcome s t event ev inMSHR) s := by
  unfold handleGetS
  refine wlp_eventOf hev (wlp_beginRequest fun line s₁ u s₂ hlook hbegin hline hview₂ hheap => ?_)
  have hhit : ∀ hne : s.lineState ev.baseAddr_ ≠ .I, s.ReadHit ev →
      wlp (do
          hitGetS event ev line inMSHR
          pure true)
        (fun _ t => ReadOutcome s t event ev inMSHR) s₂ := by
    intro hne hhit
    rw [wlp_bind]
    refine wlp_mono (hitGetS_serves (by rw [hview₂, hline]; rfl) ?_) ?_
    · rw [show s₂.config = s.config from congrArg ReadView.config hview₂]
      exact hcore
    · intro _ t ht
      rw [hview₂] at ht
      exact wlp_pure.2 (.of_hit hne hhit ht)
  have hwait : ∀ hne : s.lineState ev.baseAddr_ ≠ .I, ¬ s.ReadHit ev →
      wlp (stallInMshr event inMSHR)
        (fun _ t => ReadOutcome s t event ev inMSHR) s₂ := by
    intro hne hnot
    refine (stallInMshr_steps (R := Same readView) _ _).wlp fun _ t ht => ?_
    exact .of_wait hne hnot (congrArg ReadView.answers (Eq.trans ht hview₂))
  cases hst : s.lineState ev.baseAddr_
  case I =>
      refine missInI_outcome ?_ hlook hbegin hst (by rw [hcmd]; rfl)
      exact hheap ▸ hev
  case S => exact hhit (by simp [hst]) (by simp [ReadHit, hst, hcmd])
  case E => exact hhit (by simp [hst]) (by simp [ReadHit, hst])
  case M => exact hhit (by simp [hst]) (by simp [ReadHit, hst])
  all_goals exact hwait (by simp [hst]) (by simp [ReadHit, hst])

end Requests

section Exclusive

variable {s s₁ s₂ t : MESIL1 P} {event : Nat} {ev : MemEvent} {line : Option Nat}
variable {inMSHR : Bool}

theorem wlp_upgradeLastLevel {Q : State → MESIL1 P → Prop} {x : State}
    (hup : x = .S → s.config.lastLevel_ = true → ∀ t, t.readView = s.readView → Q .M t)
    (hkeep : (x = .S → s.config.lastLevel_ = false) → Q x s) :
    wlp (upgradeLastLevel line x) Q s := by
  unfold upgradeLastLevel
  rw [wlp_bind]
  refine wlp_ask ?_
  rw [wlp_ite]
  constructor
  · intro h
    simp only [Bool.and_eq_true, decide_eq_true_eq] at h
    rw [wlp_bind]
    refine (setState_keepsRead _).wlp fun _ t ht => wlp_pure.2 ?_
    exact hup h.1 h.2 t ht
  · intro h
    simp only [Bool.and_eq_true, decide_eq_true_eq, not_and, Bool.not_eq_true] at h
    exact wlp_pure.2 (hkeep h)

theorem missInS_outcome (hev : s₂.heap event = some ev) (hview : s₂.readView = s.readView)
    (hne : s.lineState ev.baseAddr_ ≠ .I) (hnot : ¬ s.ReadHit ev) :
    wlp (do
        let status ← processCacheMiss event line inMSHR
        runIf (status = .OK) (issueMiss ev line none .SM true)
        pure (decide (status ≠ .Reject)))
      (fun _ t => ReadOutcome s t event ev inMSHR) s₂ := by
  have hanswers : s₂.answers = s.answers := congrArg ReadView.answers hview
  rw [wlp_bind]
  refine wlp_mono (processCacheMiss_answers hev) fun status s₃ h₃ => ?_
  rw [wlp_bind, wlp_runIf]
  constructor
  · intro _
    refine wlp_mono issueMiss_queues ?_
    rintro - t ⟨ht, -⟩
    have hlast : t.answers = s₃.answers := congrArg ReadView.answers ht
    exact wlp_pure.2 (.of_wait hne hnot (hlast.trans (h₃.trans hanswers)))
  · intro _
    exact wlp_pure.2 (.of_wait hne hnot (h₃.trans hanswers))

theorem intendedGetSX_outcome (hev : s.heap event = some ev) (hcmd : ev.cmd_ = .GetSX) :
    wlp (intendedGetSX event inMSHR)
      (fun _ t => ReadOutcome s t event ev inMSHR) s := by
  unfold intendedGetSX
  refine wlp_eventOf hev (wlp_beginRequest fun line s₁ u s₂ hlook hbegin hline hview₂ hheap => ?_)
  have hev₂ : s₂.heap event = some ev := hheap ▸ hev
  have hconfig : s₂.config = s.config := congrArg ReadView.config hview₂
  have hhit : ∀ s₃ : MESIL1 P, s₃.readView = s.readView →
      s.lineState ev.baseAddr_ ≠ .I → s.ReadHit ev →
      wlp (do
          intendedHitGetSX event ev line inMSHR
          pure true)
        (fun _ t => ReadOutcome s t event ev inMSHR) s₃ := by
    intro s₃ hview₃ hne hhit
    rw [wlp_bind]
    refine wlp_mono
      (intendedHitGetSX_serves (by rw [hview₃, hline]; rfl)) ?_
    intro _ t ht
    rw [hview₃] at ht
    exact wlp_pure.2 (.of_hit hne hhit ht)
  rw [wlp_bind]
  refine wlp_upgradeLastLevel (fun hS hlast s₃ h₃ => ?_) fun hkeep => ?_
  · refine hhit s₃ (h₃.trans hview₂) (by simp [hS]) ?_
    rw [hconfig] at hlast
    simp [ReadHit, hS, hlast]
  · rw [hconfig] at hkeep
    cases hst : s.lineState ev.baseAddr_
    case I => exact missInI_outcome hev₂ hlook hbegin hst (by rw [hcmd]; rfl)
    case S =>
        refine missInS_outcome hev₂ hview₂ (by simp [hst]) ?_
        simp [ReadHit, hst, hcmd, hkeep hst]
    case E =>
        rw [wlp_bind]
        refine (setState_keepsRead _).wlp fun _ s₃ h₃ => ?_
        exact hhit s₃ (Eq.trans h₃ hview₂) (by simp [hst]) (by simp [ReadHit, hst])
    case M => exact hhit s₂ hview₂ (by simp [hst]) (by simp [ReadHit, hst])
    all_goals
      refine (stallInMshr_steps (R := Same readView) _ _).wlp fun _ t ht => ?_
      exact .of_wait (by simp [hst]) (by simp [ReadHit, hst])
        (congrArg ReadView.answers (Eq.trans ht hview₂))

theorem hitGetSX_eq_intended (hsize : ev.size_ = 0) :
    hitGetSX event ev line inMSHR s = intendedHitGetSX event ev line inMSHR s := by
  unfold hitGetSX intendedHitGetSX answerRequest
  refine bind_run_congr fun _ s₁ _ => ?_
  refine bind_run_congr fun _ s₂ _ => ?_
  refine bind_run_congr fun _ s₃ _ => ?_
  rw [bind_assoc]
  refine bind_run_congr fun data s₄ hdata => ?_
  have hempty : data = [] := by
    have hlength : wlp (requestedBytes line ev)
        (fun data _ => data.length = ev.size_.toNat) s₃ :=
      wlp_requestedBytes (fun _ _ hlength => hlength)
    have hzero := hlength data s₄ hdata
    rw [hsize] at hzero
    exact List.length_eq_zero_iff.1 hzero
  simp only [hempty, List.length_nil, if_true, bind_assoc]

theorem hitGetSX_fails (hsize : ev.size_ ≠ 0) :
    wlp (hitGetSX event ev line inMSHR) (fun _ _ => False) s := by
  simp only [hitGetSX, wlp_bind]
  refine recordPrefetchResult_keepsRead.wlp fun _ s₁ _ => ?_
  refine (checkProfiled_steps (R := Same readView) _ _).wlp fun _ s₂ _ => ?_
  refine incLock_keepsRead.wlp fun _ s₃ _ => ?_
  refine wlp_requestedBytes fun i _ hlength => ?_
  have hne : ¬ (s₃.readView.slice i ev).length = 0 := by
    rw [hlength]
    intro hzero
    exact hsize (UInt32.toNat_inj.1 hzero)
  rw [if_neg hne]
  exact wlp_fail

theorem handleGetSX_eq_intended (hev : s.heap event = some ev) (hcmd : ev.cmd_ = .GetSX)
    (hok : ¬ s.GetSXFails event ev inMSHR) :
    handleGetSX event inMSHR s = intendedGetSX event inMSHR s := by
  have hsize : s.ReadHit ev → ev.size_ = 0 := by
    intro hhit
    by_contra hne
    exact hok ⟨hcmd, .inl ⟨hhit, hne⟩⟩
  unfold handleGetSX intendedGetSX
  rw [bind_run (readEvent_run hev), bind_run (readEvent_run hev)]
  refine bind_run_congr fun line s₁ hlook => ?_
  obtain ⟨hline, -, hlines, hheap, -, hstate⟩ := lookup_facts hlook
  rw [bind_run hstate, bind_run hstate]
  refine bind_run_congr fun u s₂ hbegin => ?_
  obtain ⟨m, hm⟩ := beginReplay_facts hbegin
  have hev₂ : s₂.heap event = some ev := by
    rw [hm]
    exact hheap ▸ hev
  have hlines₂ : s₂.lineView = s.lineView := by
    rw [hm]
    exact hlines
  have hlast : s₂.config.lastLevel_ = s.config.lastLevel_ := by
    obtain ⟨-, hview, -⟩ := lookup_facts hlook
    have hconfig : s₁.config = s.config := congrArg ReadView.config hview
    rw [hm]
    exact congrArg MESIL1Config.lastLevel_ hconfig
  -- the state after the upgrade says whether the line is hit
  have hupgrade : wlp (upgradeLastLevel line (s.lineState ev.baseAddr_))
      (fun x t => (x = .E ∨ x = .M → s.ReadHit ev) ∧
        (x = .I → s.lineState ev.baseAddr_ = .I ∧ t = s₂)) s₂ := by
    refine wlp_upgradeLastLevel (fun hS hup t _ => ⟨fun _ => ?_, by simp⟩)
      (fun _ => ⟨?_, fun hI => ⟨hI, rfl⟩⟩)
    · rw [hlast] at hup
      simp [ReadHit, hS, hup]
    · rintro (hE | hM)
      · simp [ReadHit, hE]
      · simp [ReadHit, hM]
  refine bind_run_congr fun x s₃ hup => ?_
  obtain ⟨hhit, hmissed⟩ := hupgrade x s₃ hup
  cases x
  case I =>
      obtain ⟨-, rfl⟩ := hmissed rfl
      refine bind_run_congr fun status s₄ hmiss => ?_
      by_cases hgo : status = .OK
      · subst hgo
        have hfound : line = s₄.cacheArray_.findWay ev.baseAddr_ := by
          have hgoes : s.MissGoesOn event ev inMSHR := by
            unfold MissGoesOn
            rw [missOutcome_run hlook hbegin, hmiss]
            rfl
          have hpresent : line ≠ none := by
            intro hnone
            exact hok ⟨hcmd, .inr ⟨hline ▸ hnone, hgoes⟩⟩
          have hsame : wlp (processCacheMiss event line inMSHR)
              (fun _ t => t.lineView = s₃.lineView) s₃ :=
            wlp_processCacheMiss hev₂ (fun _ _ ht _ => ht)
              (fun _ _ hnone _ => absurd hnone hpresent)
          have hview := (hsame _ _ hmiss).trans hlines₂
          rw [hline, ← find_lineView, ← find_lineView, hview]
        refine bind_run_congr_left ?_
        rw [hfound]
        simp only [runIf, decide_true, if_true]
        rw [bind_run (lookup_false_run s₄ ev.baseAddr_)]
      · simp [runIf, hgo]
  case E =>
      refine bind_run_congr fun _ s₄ _ => ?_
      exact bind_run_congr_left (hitGetSX_eq_intended (hsize (hhit (.inl rfl))))
  case M =>
      exact bind_run_congr_left (hitGetSX_eq_intended (hsize (hhit (.inr rfl))))
  all_goals rfl

theorem handleGetSX_fails (hev : s.heap event = some ev) (hfails : s.GetSXFails event ev inMSHR) :
    handleGetSX event inMSHR s = none := by
  obtain ⟨hcmd, hcase⟩ := hfails
  refine wlp_false_iff.1 ?_
  unfold handleGetSX
  refine wlp_eventOf hev (wlp_beginRequest fun line s₁ u s₂ hlook hbegin hline hview _ => ?_)
  have hlast : s₂.config.lastLevel_ = s.config.lastLevel_ :=
    congrArg (fun v => v.config.lastLevel_) hview
  have hhit : ev.size_ ≠ 0 → ∀ s₃ : MESIL1 P,
      wlp (do
          hitGetSX event ev line inMSHR
          pure true)
        (fun _ _ => False) s₃ := by
    intro hsize s₃
    rw [wlp_bind]
    exact wlp_mono (hitGetSX_fails hsize) fun _ _ h => h.elim
  rcases hcase with ⟨hread, hsize⟩ | ⟨hnone, hgoes⟩
  · rw [wlp_bind]
    refine wlp_upgradeLastLevel (fun _ _ t _ => hhit hsize t) fun hkeep => ?_
    rw [hlast] at hkeep
    cases hst : s.lineState ev.baseAddr_
    case E =>
        rw [wlp_bind]
        exact (setState_keepsRead _).wlp fun _ t _ => hhit hsize t
    case M => exact hhit hsize s₂
    case S => simp [ReadHit, hst, hcmd, hkeep hst] at hread
    all_goals simp [ReadHit, hst] at hread
  · have hI : s.lineState ev.baseAddr_ = .I := by simp [lineState, hnone]
    rw [wlp_bind, hI]
    refine wlp_upgradeLastLevel (fun hS => by simp at hS) fun _ => ?_
    rw [wlp_bind]
    intro status s₃ hmiss
    have hOK : status = .OK := by
      unfold MissGoesOn at hgoes
      rw [missOutcome_run hlook hbegin, hmiss] at hgoes
      exact Option.some.inj hgoes
    rw [wlp_bind, wlp_runIf]
    refine ⟨fun _ => wlp_issueMiss (fun i t hi _ => ?_), fun hnot => ?_⟩
    · rw [hline, hnone] at hi
      cases hi
    · exact absurd hOK (of_decide_eq_false hnot)

end Exclusive

section Responses

variable {s : MESIL1 P} {event : Nat} {ev req : MemEvent} {line : Option Nat}
variable {s₀ : MESIL1 P}

theorem wlp_frontRequest {Q : MemEvent → MESIL1 P → Prop}
    (h : ∀ p req t, s.mshr_.getFrontEvent ev.baseAddr_ = some (some p) →
      s.heap p = some req → t.readView = s.readView → Q { req with memFlags_ := ev.memFlags_ } t) :
    wlp (frontRequest ev.baseAddr_)
      (fun p t => wlp
        (modifyEvent p (fun req => { req with memFlags_ := ev.memFlags_ }))
        (fun _ t => wlp (readEvent p) Q t) t) s := by
  refine wlp_readState.2 fun p hp => ?_
  obtain ⟨front, hfront, hsome⟩ := Option.bind_eq_some_iff.1 hp
  have hfront' : s.mshr_.getFrontEvent ev.baseAddr_ = some (some p) := by
    rw [hfront]
    exact congrArg some hsome
  refine wlp_changeState.2 fun t ht => ?_
  obtain ⟨req, hreq, rfl⟩ := Option.map_eq_some_iff.1 ht
  refine wlp_readEvent fun req' hreq' => ?_
  dsimp only at hreq'
  rw [Function.update_self] at hreq'
  cases hreq'
  exact h p req _ hfront' hreq rfl

section

variable (hview : s.readView = { s₀.readView with data := s.readView.data })
variable (hline : line = s₀.readView.find ev.baseAddr_)
include hview hline

theorem answerRead_serves (hcore : isLocalPrefetch s₀.config req = false) :
    wlp (answerRead req line)
      (fun _ t => s₀.readView.AnswersRead t.readView ev.baseAddr_ req) s := by
  have hconfig : s.config = s₀.config := congrArg ReadView.config hview
  unfold answerRead
  rw [wlp_bind]
  refine wlp_ask ?_
  rw [hconfig, hcore, if_neg Bool.false_ne_true]
  refine wlp_answerRequest_read (by rw [hline, hview]; rfl) fun t ht _ => ?_
  exact ht.of_eq (by rw [hview]) hconfig

theorem grantExclusive_serves (hread : isWriteRequest req = false) :
    wlp (grantExclusive req line)
      (fun _ t => s₀.readView.AnswersRead t.readView ev.baseAddr_ req) s := by
  unfold grantExclusive
  rw [wlp_bind]
  refine (setState_keepsRead _).wlp fun _ s₁ h₁ => ?_
  rw [wlp_bind]
  refine wlp_readState.2 fun l _ => ?_
  rw [hread, if_neg Bool.false_ne_true, wlp_bind]
  refine incLock_keepsRead.wlp fun _ s₂ h₂ => ?_
  have hsame : s₂.readView = s.readView := Eq.trans h₂ h₁
  refine wlp_answerRequest_read (by rw [hline, hsame, hview]; rfl)
    (fun t ht _ => ?_)
  rw [hsame] at ht
  exact ht.of_eq (by rw [hview]) (by rw [hview])

end

theorem ReadFilled.of_front {t : MESIL1 P} {p : Nat}
    (hfront : s.mshr_.getFrontEvent ev.baseAddr_ = some (some p)) (hreq : s.heap p = some req)
    (h : IsCoreRead s.config req →
      s.readView.AnswersRead t.readView ev.baseAddr_ { req with memFlags_ := ev.memFlags_ }) :
    ReadFilled s t ev := by
  intro p' req' hfront' hreq' hread
  obtain rfl := Option.some.inj (Option.some.inj (hfront.symm.trans hfront'))
  cases hreq.symm.trans hreq'
  exact h hread

theorem wlp_fill {m : L1M P Unit} {p : Nat}
    (hfront : s₀.mshr_.getFrontEvent ev.baseAddr_ = some (some p)) (hreq : s₀.heap p = some req)
    (hserves : IsCoreRead s₀.config req →
      wlp m (fun _ t => s₀.readView.AnswersRead t.readView ev.baseAddr_
        { req with memFlags_ := ev.memFlags_ }) s) :
    wlp m (fun _ t => wlp (cleanUpAfterResponse event)
      (fun _ t => wlp (pure true) (fun _ t => ReadFilled s₀ t ev) t) t) s := by
  intro _ t hrun
  refine (cleanUpAfterResponse_steps (R := Same readView) _).wlp fun _ u hu => ?_
  refine wlp_pure.2 (.of_front hfront hreq (fun hread => ?_))
  rw [show u.readView = t.readView from hu]
  exact hserves hread _ t hrun

theorem handleGetSResp_filled (hev : s.heap event = some ev) :
    wlp (handleGetSResp event) (fun _ t => ReadFilled s t ev) s := by
  unfold handleGetSResp
  refine wlp_eventOf hev ?_
  rw [wlp_bind]
  intro line s₁ hlook
  obtain ⟨hline, hview, -, hheap, hmshr, -⟩ := lookup_facts hlook
  simp only [wlp_bind]
  refine wlp_frontRequest fun p req s₂ hfront hreq h₂ => ?_
  rw [hmshr] at hfront
  rw [hheap] at hreq
  refine wlp_setLineData fun s₃ h₃ => ?_
  refine (setState_keepsRead _).wlp fun _ s₄ h₄ => ?_
  refine startIfLoadLink_keepsRead.wlp fun _ s₅ h₅ => ?_
  have hfilled : s₅.readView = { s.readView with data := s₅.readView.data } := by
    have hsame : s₅.readView = s₃.readView := Eq.trans h₅ h₄
    rw [hsame, h₃, h₂, hview]
  exact wlp_fill hfront hreq fun hread => answerRead_serves hfilled hline hread.2

theorem IsCoreRead.not_write {cfg : MESIL1Config} (h : IsCoreRead cfg req) :
    isWriteRequest req = false := by
  rcases h.1 with hcmd | hcmd <;> simp [isWriteRequest, hcmd]

theorem getXRespAction_serves {x : State} (hview : s.readView = s₀.readView)
    (hline : line = s₀.readView.find ev.baseAddr_) (hread : IsCoreRead s₀.config req) :
    wlp (getXRespAction ev req line x)
      (fun _ t => s₀.readView.AnswersRead t.readView ev.baseAddr_ req) s := by
  cases x
  case IS =>
      unfold getXRespAction fillShared
      simp only [wlp_bind]
      refine wlp_ask ?_
      refine wlp_setLineData fun s₁ h₁ => ?_
      refine (setState_keepsRead _).wlp fun _ s₂ h₂ => ?_
      refine startIfLoadLink_keepsRead.wlp fun _ s₃ h₃ => ?_
      have hsame : s₃.readView = s₁.readView := Eq.trans h₃ h₂
      refine answerRead_serves ?_ hline hread.2
      rw [hsame, h₁, hview]
  case IM =>
      unfold getXRespAction
      rw [wlp_bind]
      refine wlp_setLineData fun s₁ h₁ => ?_
      exact grantExclusive_serves (by rw [h₁, hview]) hline hread.not_write
  case SM =>
      unfold getXRespAction
      exact grantExclusive_serves (by rw [hview]) hline hread.not_write
  all_goals exact wlp_fail

theorem handleGetXResp_filled (hev : s.heap event = some ev) :
    wlp (handleGetXResp event) (fun _ t => ReadFilled s t ev) s := by
  unfold handleGetXResp
  refine wlp_eventOf hev ?_
  rw [wlp_bind]
  intro line s₁ hlook
  obtain ⟨hline, hview, -, hheap, hmshr, -⟩ := lookup_facts hlook
  simp only [wlp_bind]
  refine wlp_ask ?_
  refine wlp_frontRequest fun p req s₂ hfront hreq h₂ => ?_
  rw [hmshr] at hfront
  rw [hheap] at hreq
  exact wlp_fill hfront hreq
    (fun hread => getXRespAction_serves (h₂.trans hview) hline hread)

end Responses

section Served

variable {s : MESIL1 P} {event : Nat} {ev : MemEvent} {inMSHR : Bool}

section

variable (hev : s.heap event = some ev)
include hev

theorem intendedRead_run_of_getSX (hcmd : ev.cmd_ = .GetSX) :
    intendedRead event inMSHR s = intendedGetSX event inMSHR s := by
  unfold intendedRead
  rw [bind_run (readEvent_run hev), if_pos hcmd]

theorem intendedRead_run_of_other (hcmd : ev.cmd_ ≠ .GetSX) :
    intendedRead event inMSHR s = processEvent event inMSHR s := by
  unfold intendedRead
  rw [bind_run (readEvent_run hev), if_neg hcmd]

theorem processEvent_serves (hcmd : ev.cmd_ ≠ .GetSX) :
    wlp (processEvent event inMSHR)
      (fun _ t => (IsCoreRead s.config ev → ReadOutcome s t event ev inMSHR) ∧
        (ev.cmd_ = .GetSResp ∨ ev.cmd_ = .GetXResp → ReadFilled s t ev)) s := by
  intro b t hrun
  unfold processEvent at hrun
  rw [bind_run (readEvent_run hev)] at hrun
  refine ⟨fun hread => ?_, fun hresp => ?_⟩
  · have hgetS := hread.1.resolve_right hcmd
    rw [hgetS] at hrun
    exact handleGetS_outcome hev hgetS hread.2 b t hrun
  · rcases hresp with hresp | hresp
    · rw [hresp] at hrun
      exact handleGetSResp_filled hev b t hrun
    · rw [hresp] at hrun
      exact handleGetXResp_filled hev b t hrun

end

end Served

/--
A read or a response that can be handled is served, except for a `GetSX` that
hits and asks for some bytes or that misses and is given a new line.
-/
theorem servesRead_iff (s : MESIL1 P) (event : Nat) (ev : MemEvent) (inMSHR : Bool)
    (hev : s.heap event = some ev)
    (hrun : (intendedRead event inMSHR s).isSome) :
    s.ServesRead event ev inMSHR ↔ ¬ s.GetSXFails event ev inMSHR := by
  obtain ⟨⟨b, t⟩, hrun⟩ := Option.isSome_iff_exists.1 hrun
  by_cases hcmd : ev.cmd_ = .GetSX
  · have hprocess : processEvent event inMSHR s = handleGetSX event inMSHR s := by
      unfold processEvent
      rw [bind_run (readEvent_run hev), hcmd]
    rw [intendedRead_run_of_getSX hev hcmd] at hrun
    constructor
    · rintro ⟨b', t', hdone, -⟩ hfails
      rw [hprocess, handleGetSX_fails hev hfails] at hdone
      cases hdone
    · intro hok
      refine ⟨b, t, ?_, fun _ => intendedGetSX_outcome hev hcmd b t hrun, ?_⟩
      · rw [hprocess, handleGetSX_eq_intended hev hcmd hok, hrun]
      · intro hresp
        simp [hcmd] at hresp
  · rw [intendedRead_run_of_other hev hcmd] at hrun
    refine iff_of_true ?_ fun hfails => hcmd hfails.1
    exact ⟨b, t, hrun, processEvent_serves hev hcmd b t hrun⟩

/-- Lines of 8 bytes, between one core and the memory. -/
def smallConfig : MESIL1Config where
  cachename_ := "l1"
  lineSize_ := 8
  lastLevel_ := false
  silentEvictClean_ := false
  writebackCleanBlocks_ := false
  recvWritebackAck_ := false
  snoopL1Invs_ := false
  cpus := ["core"]
  MESI := true
  llscBlockCycles_ := 100
  accessLatency_ := 4
  tagLatency_ := 2
  mshrLatency_ := 1
  dropPrefetchLevel_ := 8
  maxOutstandingPrefetch_ := 8
  packetHeaderBytes := 8
  maxBytesUp := 0
  maxBytesDown := 0
  findTargetDestinationDown := fun _ => "memory"
  findTargetDestinationUp := fun _ => ""
  isReachableDown := fun name => name = "memory"
  isReachableUp := fun name => name = "core"

def oneLine (line : L1CacheLine) (ev : MemEvent) : MESIL1 LRU where
  config := smallConfig
  cacheArray_ :=
    { numSets_ := 1, associativity_ := 1, lineOffset_ := 3, lineSize_ := 8
      sliceSize_ := 1, sliceStep_ := 1, hash_ := fun _ => 0
      replacementMgr_ := LRU.init, lines_ := fun _ => line }
  mshr_ := MSHR.new 16
  timestamp_ := 0
  simCycle := 0
  outstandingPrefetches_ := 0
  outgoingEventQueueDown_ := []
  outgoingEventQueueUp_ := []
  enqueuedDown_ := []
  enqueuedUp_ := []
  linkDown_ := []
  linkUp_ := []
  retryBuffer_ := []
  heap := Function.update (fun _ => none) 0 (some ev)
  nextPtr := 1
  nextID := 0
  answers := []

/-- A read of four bytes at the start of a line. -/
def readOf (cmd : Command) : MemEvent := { MemEvent.new 0 "core" 64 64 cmd with size_ := 4 }

def modifiedLine : L1CacheLine :=
  { L1CacheLine.new 8 0 with
    addr_ := 64, state_ := .M, data_ := [1, 2, 3, 4, 5, 6, 7, 8] }

/-- A `GetSX` of an invalid line that still has its address. -/
theorem servesRead_iff_invalidLine :
    (oneLine { modifiedLine with state_ := .I } (readOf .GetSX)).ServesRead 0
      (readOf .GetSX) false := by
  refine (servesRead_iff (oneLine { modifiedLine with state_ := .I }
    (readOf .GetSX)) 0 (readOf .GetSX) false rfl (by decide)).2 ?_
  rintro ⟨-, ⟨hhit, -⟩ | ⟨hnone, -⟩⟩
  · exact hhit
  · exact absurd hnone (by decide)

/--
A `GetSX` does not complete on an idle cache, where it misses, nor on its own
line, where it hits.  A `GetS` completes on both.
-/
theorem not_servesRead_getSX :
    ¬ (oneLine (L1CacheLine.new 8 0) (readOf .GetSX)).ServesRead 0
        (readOf .GetSX) false ∧
      ¬ (oneLine modifiedLine (readOf .GetSX)).ServesRead 0
        (readOf .GetSX) false ∧
      (processEvent 0 false (oneLine (L1CacheLine.new 8 0) (readOf .GetS))).isSome = true ∧
      (processEvent 0 false (oneLine modifiedLine (readOf .GetS))).isSome =
        true := by
  have hidle : (processEvent 0 false
      (oneLine (L1CacheLine.new 8 0) (readOf .GetSX))).isSome = false := by
    decide
  have hheld : (processEvent 0 false
      (oneLine modifiedLine (readOf .GetSX))).isSome = false := by
    decide
  refine ⟨?_, ?_, by decide, by decide⟩
  · rintro ⟨b, t, hrun, -⟩
    rw [hrun] at hidle
    cases hidle
  · rintro ⟨b, t, hrun, -⟩
    rw [hrun] at hheld
    cases hheld

end MESIL1

end SstElements.MemHierarchy
