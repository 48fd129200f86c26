import SstElements.VanadisOS.FutexInvariant

/-!
# What a futex call tells of itself

A wake or a requeue notes the waiters that it finds and those that it takes.  What follows
in the history, or a call that still waits for its arguments, bears the note out.
-/

namespace SstElements.VanadisOS.FutexOS

open Library List Option

variable {os os' : FutexOS} {call : FutexCall} {event : FutexEvent}

/-- An event is borne out by the history and the calls in flight. -/
def Told (os : FutexOS) : FutexEvent → Prop
  | .woke call waiters woken =>
    woken = waiters.take call.val ∧ (∀ waiter ∈ woken, .answered waiter 0 ∈ os.history) ∧
      .answered call woken.length ∈ os.history
  | .requeueWoke call waiters woken =>
    woken.length ≤ call.val ∧ woken <+: waiters ∧
      (∀ waiter ∈ woken, .answered waiter 0 ∈ os.history) ∧
      (.answered call woken.length ∈ os.history ∨ (call, .readArgs woken.length) ∈ os.inflight)
  | .moved _ val2 waiters moved => moved.length ≤ val2 ∧ moved <+: waiters
  | _ => True

/-- The history grows by events that are borne out, and a call that waits for its arguments
keeps waiting or is answered. -/
structure Tells (os os' : FutexOS) : Prop where
  grows : os.history ⊆ os'.history
  keeps : ∀ call numWokeup, (call, .readArgs numWokeup) ∈ os.inflight →
    .answered call numWokeup ∈ os'.history ∨ (call, .readArgs numWokeup) ∈ os'.inflight
  told : ∀ event ∈ os'.history, event ∈ os.history ∨ Told os' event

/-- What is borne out stays so. -/
theorem Told.mono (h : Told os event) (htells : Tells os os') : Told os' event := by
  cases event with
  | woke call waiters woken =>
    obtain ⟨htake, hwoken, hanswered⟩ := h
    exact ⟨htake, fun waiter hmem => htells.grows (hwoken waiter hmem), htells.grows hanswered⟩
  | requeueWoke call waiters woken =>
    obtain ⟨hval, hprefix, hwoken, hcall⟩ := h
    refine ⟨hval, hprefix, fun waiter hmem => htells.grows (hwoken waiter hmem), ?_⟩
    rcases hcall with hanswered | hflight
    · exact .inl (htells.grows hanswered)
    · exact htells.keeps call _ hflight
  | moved call val2 waiters moved => exact h
  | _ => trivial

theorem tells_of_eq (hhistory : os'.history = os.history) (hinflight : os'.inflight = os.inflight) :
    Tells os os' where
  grows _ he := hhistory ▸ he
  keeps _ _ hin := .inr (hinflight ▸ hin)
  told _ he := .inl (hhistory ▸ he)

theorem tells_of_append (events : List FutexEvent) (more : List (FutexCall × FutexPhase))
    (hhistory : os'.history = os.history ++ events) (hinflight : os'.inflight = os.inflight ++ more)
    (htold : ∀ event ∈ events, Told os' event) :
    Tells os os' where
  grows e he := by
    rw [hhistory]
    exact mem_append_left _ he
  keeps call n hin := by
    rw [hinflight]
    exact .inr (mem_append_left _ hin)
  told e he := by
    rw [hhistory] at he
    rcases mem_append.1 he with hold | hnew
    · exact .inl hold
    · exact .inr (htold e hnew)

theorem tells_of_note (event : FutexEvent) (more : List (FutexCall × FutexPhase))
    (hhistory : os'.history = os.history ++ [event])
    (hinflight : os'.inflight = os.inflight ++ more) (htold : Told os' event) :
    Tells os os' :=
  tells_of_append [event] more hhistory hinflight fun e he => by
    rw [mem_singleton.1 he]
    exact htold

section Handlers

theorem wake_effect (os : FutexOS) (call : FutexCall) :
    ∃ futexMap, os.wake call = { os with
        futexMap := futexMap
        history := os.history ++
          (.woke call (os.futexMap.queue call.addr) ((os.futexMap.queue call.addr).take 1) ::
            ((os.futexMap.queue call.addr).take 1).map (fun waiter => .answered waiter 0) ++
          [.answered call ((os.futexMap.queue call.addr).take 1).length]) } := by
  unfold wake
  dsimp only
  split
  case h_1 waiter futexMap hpop =>
    refine ⟨futexMap, ?_⟩
    rw [wakeup_eq, (KeyedQueues.queue_of_pop hpop).1]
    simp [answer, note]
  case h_2 hpop =>
    refine ⟨os.futexMap, ?_⟩
    rw [KeyedQueues.pop_eq_none_iff.1 hpop]
    simp [answer, note]

theorem wake_tells (os : FutexOS)
    (hregular : min 1 (os.futexMap.queue call.addr).length =
      min call.val (os.futexMap.queue call.addr).length) :
    Tells os (os.wake call) := by
  obtain ⟨futexMap, heffect⟩ := wake_effect os call
  have htake := take_eq_take_iff.2 hregular
  rw [heffect]
  generalize hwoken : (os.futexMap.queue call.addr).take 1 = woken at *
  refine tells_of_append _ [] rfl (append_nil _).symm fun event hevent => ?_
  simp only [cons_append, mem_cons, mem_append, List.mem_map, not_mem_nil, or_false] at hevent
  rcases hevent with rfl | ⟨waiter, hwaiter, rfl⟩ | rfl
  · refine ⟨htake, fun waiter hmem => ?_, ?_⟩
    · simp [hmem]
    · simp
  · trivial
  · trivial

theorem finish_tells {numWokeup val2 addr2 : Nat} {hand : List FutexCall}
    (h : Held (call :: hand) os) (hfits : Fits os.history call) :
    Tells os (os.finish call numWokeup val2 addr2) ∧
      .answered call numWokeup ∈ (os.finish call numWokeup val2 addr2).history := by
  obtain ⟨-, futexMap, heffect⟩ := @Held.finish os hand call numWokeup val2 addr2 h hfits
  rw [heffect]
  refine ⟨tells_of_append _ [] rfl (append_nil _).symm fun event hevent => ?_, ?_⟩
  · simp only [mem_cons, not_mem_nil, or_false] at hevent
    rcases hevent with rfl | rfl
    · exact ⟨(length_take_le _ _).trans (min_le_left _ _), take_prefix _ _⟩
    · trivial
  · simp

theorem requeue_tells {val : Nat} {hand : List FutexCall} (h : Held (call :: hand) os)
    (hfits : Fits os.history call)
    (hregular : min val (os.futexMap.queue call.addr).length ≤ call.val) :
    Tells os (os.requeue call val) := by
  obtain ⟨hwoken, hcall⟩ := @Held.requeueWoken os hand call h val hfits
  have hlength : (os.wokenByRequeue call val).length ≤ call.val := by
    rw [wokenByRequeue, length_take, Nat.min_assoc, Nat.min_self]
    exact hregular
  have hend : Tells (os.requeueWoken call val) (os.requeue call val) ∧
      (.answered call (os.wokenByRequeue call val).length ∈ (os.requeue call val).history ∨
        (call, .readArgs (os.wokenByRequeue call val).length) ∈
          (os.requeue call val).inflight) := by
    rw [requeue_eq]
    split
    · refine ⟨tells_of_note _ [] rfl (append_nil _).symm trivial, .inl ?_⟩
      exact mem_append_right _ (mem_singleton.2 rfl)
    · split
      · refine ⟨tells_of_append [] _ (append_nil _).symm rfl nofun, .inr ?_⟩
        exact mem_append_right _ (mem_singleton.2 rfl)
      · obtain ⟨htells, hanswered⟩ := finish_tells hwoken hcall
        exact ⟨htells, .inl hanswered⟩
  obtain ⟨htells, hrequeue⟩ := hend
  have hfirst : os.history ⊆ (os.requeueWoken call val).history := subset_append_left _ _
  refine ⟨fun e he => htells.grows (hfirst he), fun c n hin => htells.keeps c n hin, fun e he => ?_⟩
  rcases htells.told e he with hold | hnew
  · rcases mem_append.1 hold with holder | hnote
    · exact .inl holder
    · refine .inr ?_
      rcases mem_cons.1 hnote with rfl | hwaiter
      · refine ⟨hlength, take_prefix _ _, fun waiter hmem => htells.grows ?_, hrequeue⟩
        exact mem_append_right _ (mem_cons_of_mem _ (mem_map_of_mem hmem))
      · obtain ⟨waiter, -, rfl⟩ := mem_map.1 hwaiter
        trivial
  · exact .inr hnew

theorem memReqIsDone_tells {phase : FutexPhase} {hand : List FutexCall}
    (data : Nat × Nat) (failed : Bool) (h : Held (call :: hand) os)
    (hfits : phase ≠ .loadLink → Fits os.history call)
    (hregular : phase = .readAddr → min data.1 (os.futexMap.queue call.addr).length ≤ call.val) :
    Tells os (os.memReqIsDone call data failed phase) ∧ ∀ n, phase = .readArgs n →
        .answered call n ∈ (os.memReqIsDone call data failed phase).history := by
  cases phase with
  | loadLink =>
    refine ⟨?_, nofun⟩
    unfold memReqIsDone
    dsimp only
    split
    · exact tells_of_append [] _ (append_nil _).symm rfl nofun
    · exact tells_of_note _ [] rfl (append_nil _).symm trivial
  | storeConditional val =>
    refine ⟨?_, nofun⟩
    unfold memReqIsDone enqueue
    dsimp only
    split
    · exact tells_of_note _ [] rfl (append_nil _).symm trivial
    · split
      · exact tells_of_note _ [] rfl (append_nil _).symm trivial
      · exact tells_of_eq rfl rfl
  | readAddr => exact ⟨requeue_tells h (hfits nofun) (hregular rfl), nofun⟩
  | readArgs numWokeup =>
    obtain ⟨htells, hanswered⟩ := @finish_tells os call numWokeup data.1 data.2 hand h
      (hfits nofun)
    refine ⟨htells, fun n hn => ?_⟩
    obtain rfl := FutexPhase.readArgs.inj hn
    exact hanswered

end Handlers

section Steps

theorem respond_tells {resp : MemResp} {rest : List MemResp} {entry : FutexCall × FutexPhase}
    (h : Held [] os) (hresp : os.memToOs = resp :: rest)
    (hregular : resp.cmd = .read resp.call.addr →
      min resp.data.1 (os.futexMap.queue resp.call.addr).length ≤ resp.call.val)
    (hfind : os.inflight.find? (fun entry => entry.1 = resp.call) = some entry) :
    Tells os ({ os with
      memToOs := rest
      inflight := os.inflight.eraseP fun entry => entry.1 = resp.call }.memReqIsDone
      entry.1 resp.data resp.failed entry.2) := by
  obtain ⟨phase, hfound, hcmd, hheld⟩ := h.respond hresp
  cases hfound.symm.trans hfind
  have hin := mem_of_find?_eq_some hfound
  obtain ⟨htells, hanswered⟩ := memReqIsDone_tells resp.data resp.failed hheld
    (h.fitting resp.call phase hin) fun hphase => hregular (by rw [← hcmd, hphase]; rfl)
  refine ⟨htells.grows, fun c n hentry => ?_, htells.told⟩
  by_cases heq : c = resp.call
  · subst heq
    exact .inl (hanswered n (h.phase_unique hin hentry))
  · refine htells.keeps c n ?_
    exact (mem_eraseP_of_neg (by simpa using heq)).2 hentry

theorem step_tells {lineSize : Nat} {s : FutexStep} (h : Held [] os)
    (hregular : Regular lineSize os s) (hstep : os.step lineSize s = some os') :
    Tells os os' := by
  unfold step at hstep
  rw [if_neg (ne_true_of_eq_false h.running)] at hstep
  cases s with
  | issue tid addr op val stackPtr val2 addr2 =>
    cases hstep
    exact tells_of_note _ [] rfl (append_nil _).symm trivial
  | store tid addr val =>
    cases hstep
    split
    · exact tells_of_eq rfl rfl
    · exact tells_of_note _ [] rfl (append_nil _).symm trivial
  | unlink line =>
    cases hstep
    exact tells_of_eq rfl rfl
  | receive tid =>
    dsimp only at hstep
    split at hstep
    case h_1 => cases hstep
    case h_2 call rest hcalls =>
      obtain ⟨op, hop, rfl⟩ := map_eq_some_iff.1 hstep
      cases op with
      | wake =>
        have hcall : call ∈ (os.toOs tid).head? := by rw [hcalls]; rfl
        have htells := @wake_tells call { os with toOs := Function.update os.toOs tid rest }
          (hregular call hcall hop).1
        exact ⟨htells.grows, htells.keeps, htells.told⟩
      | wait => exact tells_of_append [] _ (append_nil _).symm rfl nofun
      | requeue => exact tells_of_append [] _ (append_nil _).symm rfl nofun
  | memory =>
    dsimp only at hstep
    split at hstep
    case h_1 => cases hstep
    case h_2 req rest hreq =>
      cases hstep
      unfold serve
      split
      case h_1 => exact tells_of_note _ [] rfl (append_nil _).symm trivial
      case h_2 => split <;> exact tells_of_eq rfl rfl
      case h_3 => exact tells_of_eq rfl rfl
      case h_4 => exact tells_of_eq rfl rfl
  | respond =>
    dsimp only at hstep
    split at hstep
    case h_1 => cases hstep
    case h_2 resp rest hresp =>
      obtain ⟨entry, hfind, rfl⟩ := map_eq_some_iff.1 hstep
      refine respond_tells h hresp (hregular resp ?_) hfind
      rw [hresp]
      rfl

end Steps

section Runs

theorem Held.code_unique {code code' : Int} (h : Held [] os)
    (hcode : .answered call code ∈ os.history) (hcode' : .answered call code' ∈ os.history) :
    code = code' := by
  by_contra hne
  have hone := h.one_place call
  have hnonneg := KeyedQueues.members_nonneg os.futexMap call
  have hin : .answered call code' ∈ os.history.erase (.answered call code) :=
    (mem_erase_of_ne fun heq => hne (FutexEvent.answered.inj heq).2.symm).2 hcode'
  have hcount : (answers os.history).count call =
      (answers (os.history.erase (.answered call code))).count call + 1 := by
    have hperm : (answers os.history).Perm
        (call :: answers (os.history.erase (.answered call code))) :=
      (perm_cons_erase hcode).filterMap _
    rw [hperm.count_eq, count_cons_self]
  have hpos := count_pos_iff.2 (mem_answers hin)
  omega

theorem Held.sound (h : Held [] os) (htold : ∀ event ∈ os.history, Told os event) : Sound os where
  __ := h
  once call := h.placed call
  settled hreqs hresps := by
    have hperm := h.messages
    rw [hreqs, hresps] at hperm
    exact map_eq_nil_iff.1 (nil_perm.1 hperm)
  woken call waiters woken hmem := by
    obtain ⟨htake, hwoken, hanswered⟩ := htold _ hmem
    exact ⟨htake, hwoken, fun code hcode => h.code_unique hcode hanswered⟩
  requeued call waiters woken hmem := by
    obtain ⟨hval, hprefix, hwoken, hcall⟩ := htold _ hmem
    refine ⟨hval, hprefix, hwoken, fun code hcode => ?_⟩
    rcases hcall with hanswered | hflight
    · exact h.code_unique hcode hanswered
    · have hone := h.one_place call
      have hnonneg := KeyedQueues.members_nonneg os.futexMap call
      have hin := count_pos_iff.2 (mem_map_of_mem (f := Prod.fst) hflight)
      have hpos := count_pos_iff.2 (mem_answers hcode)
      dsimp only at hin
      omega
  moved call val2 waiters moved hmem := htold _ hmem

/-- Regular runs are sound. -/
theorem sound_of_regular (lineSize : Nat) (word : Nat → Nat) (ops : List FutexStep)
    (hregular : StepsMeet (step lineSize) (Regular lineSize) (initial word) ops) :
    Throughout (step lineSize) Sound (initial word) ops := by
  have hinvariant := throughout_of_stepsMeet
    (P := fun os => Held [] os ∧ ∀ event ∈ os.history, Told os event)
    (fun os s os' ⟨h, htold⟩ hok hstep => by
      have htells := step_tells h hok hstep
      refine ⟨h.step hok hstep, fun event hevent => ?_⟩
      rcases htells.told event hevent with hold | hnew
      · exact (htold event hold).mono htells
      · exact hnew)
    ⟨initial_held word, nofun⟩ hregular
  exact hinvariant.imp fun os ⟨h, htold⟩ => h.sound htold

/-- Two threads wait and one is refused; a requeue wakes the first waiter and moves the
second one, which a wake then finds. -/
def someSteps : List FutexStep :=
  [.issue 1 64 0 0 0 0 0, .receive 1, .memory, .respond, .memory, .respond,
    .issue 2 64 128 0 0 0 0, .receive 2, .memory, .respond, .memory, .respond,
    .issue 3 64 0 5 0 0 0, .receive 3, .memory, .respond,
    .store 4 64 1, .issue 4 64 3 1 0 1 128, .receive 4, .memory, .respond,
    .issue 4 128 1 1 0 0 0, .receive 4]

theorem sound_of_regular_someSteps : Throughout (step 64) Sound (initial fun _ => 0) someSteps :=
  sound_of_regular 64 (fun _ => 0) someSteps (by decide +kernel)

/-- Two waiters, and a wake for both of them. -/
def wakeForTwo : List FutexStep :=
  [.issue 1 64 0 0 0 0 0, .receive 1, .memory, .respond, .memory, .respond,
    .issue 2 64 0 0 0 0 0, .receive 2, .memory, .respond, .memory, .respond,
    .store 3 64 1, .issue 3 64 1 2 0 0 0, .receive 3]

/-- The wake for two waiters wakes one of them. -/
theorem wake_for_two_wakes_one :
    ¬∀ (lineSize : Nat) (word : Nat → Nat) (ops : List FutexStep),
      Throughout (step lineSize) Sound (initial word) ops := by
  intro hall
  obtain ⟨final, hrun, hwoke⟩ := map_eq_some_iff.1
    (show (runOps (step 64) (initial fun _ => 0) wakeForTwo).map (fun os => decide
        (.woke ⟨2, 3, 64, 1, 2, 0, 0, 0⟩ [⟨0, 1, 64, 0, 0, 0, 0, 0⟩, ⟨1, 2, 64, 0, 0, 0, 0, 0⟩]
          [⟨0, 1, 64, 0, 0, 0, 0, 0⟩] ∈ os.history)) = some true by
      decide +kernel)
  have hsound := hall 64 (fun _ => 0) wakeForTwo wakeForTwo final prefix_rfl hrun
  obtain ⟨htake, -⟩ := hsound.woken _ _ _ (of_decide_eq_true hwoke)
  exact absurd htake (by decide)

end Runs

end SstElements.VanadisOS.FutexOS
