import SstElements.VanadisOS.FutexSyscall

/-!
# The invariant of the futex calls

While a call is handled it is in the hand of the handler: it has left the channel, the
calls in flight or a queue, and is not answered yet.  The invariant counts the calls in
hand, so each part of a handler keeps it.
-/

namespace SstElements.VanadisOS.FutexOS

open Library Function List Option

variable {code : Int}

section Histories

variable {history : List FutexEvent} {event : FutexEvent} {call : FutexCall}

/-- The word that the call has compared is the one it expects. -/
def Fits (history : List FutexEvent) (call : FutexCall) : Prop :=
  ∀ val, .loaded call val ∈ history → val = call.val

theorem Fits.concat (h : Fits history call) (hevent : isLoaded call event = false) :
    Fits (history ++ [event]) call := by
  intro val hmem
  rcases mem_append.1 hmem with hold | hnew
  · exact h val hold
  · rw [← mem_singleton.1 hnew] at hevent
    simp [isLoaded] at hevent

theorem notMem_concat {old : FutexEvent} (h : old ∉ history) (hne : old ≠ event) :
    old ∉ history ++ [event] := by
  rw [mem_append, mem_singleton]
  exact not_or.2 ⟨h, hne⟩

theorem not_inOrder_concat {kinds : List (FutexEvent → Bool)} {kind : FutexEvent → Bool}
    (h : ¬inOrder (kinds ++ [kind]) history) (hevent : kind event = false) :
    ¬inOrder (kinds ++ [kind]) (history ++ [event]) := by
  rw [inOrder_concat_iff, hevent]
  simpa using h

theorem issues_append (history more : List FutexEvent) :
    issues (history ++ more) = issues history ++ issues more :=
  filterMap_append

theorem answers_append (history more : List FutexEvent) :
    answers (history ++ more) = answers history ++ answers more :=
  filterMap_append

theorem mem_answers (h : .answered call code ∈ history) : call ∈ answers history :=
  mem_filterMap.2 ⟨_, h, rfl⟩

end Histories

/-- A store conditional that was performed is safe from the wakes so far. -/
def Unmissed (history : List FutexEvent) (waiter : FutexCall) : Prop :=
  ∀ call : FutexCall, call.addr = waiter.addr →
    ¬inOrder (comparedBefore waiter call ++ [isWoke call]) history

/-- Each call is in one place, each in flight has one message, and what waits or was
compared has read the word that it expects. -/
structure Held (hand : List FutexCall) (os : FutexOS) : Prop where
  running : os.failed = false
  numbered : (issues os.history).map FutexCall.id = range os.issued
  ofThread : ∀ tid, ∀ call ∈ os.toOs tid, call.tid = tid
  placed : ∀ call, (((os.toOs call.tid).count call + (os.inflight.map Prod.fst).count call +
      hand.count call : Nat) : Int) + os.futexMap.members call +
      ((answers os.history).count call : Int) = ((issues os.history).count call : Int)
  messages : ((os.osToMem.map fun req => (req.call, req.cmd)) ++
      os.memToOs.map fun resp => (resp.call, resp.cmd)).Perm
    (os.inflight.map fun entry => (entry.1, entry.2.cmd entry.1))
  known : ∀ call val, .loaded call val ∈ os.history → call ∈ issues os.history
  knownQueued : ∀ call, .enqueued call ∈ os.history → call ∈ issues os.history
  fresh : ∀ call, 0 < (os.toOs call.tid).count call + (os.inflight.map Prod.fst).count call →
    .enqueued call ∉ os.history
  unread : ∀ tid, ∀ call ∈ os.toOs tid, ∀ val, .loaded call val ∉ os.history
  loading : ∀ req ∈ os.osToMem, ∀ addr, req.cmd = .loadLink addr →
    ∀ val, .loaded req.call val ∉ os.history
  loaded : ∀ resp ∈ os.memToOs, ∀ addr, resp.cmd = .loadLink addr →
    ∀ val, .loaded resp.call val ∈ os.history → val = resp.data.1
  fitting : ∀ call phase, (call, phase) ∈ os.inflight → phase ≠ .loadLink →
    Fits os.history call
  waiting : ∀ call, 0 < os.futexMap.members call → Fits os.history call
  eagain : ∀ call val, .loaded call val ∈ os.history → val ≠ call.val →
    .enqueued call ∉ os.history ∧
      ∀ code, .answered call code ∈ os.history → code = -LINUX_EAGAIN
  unmissed : ∀ resp ∈ os.memToOs, resp.cmd.isStoreConditional → resp.failed = false →
    Unmissed os.history resp.call
  notLost : ∀ waiter call : FutexCall, call.addr = waiter.addr →
    ¬inOrder (comparedBefore waiter call ++ [isWoke call, (· = .enqueued waiter)]) os.history

variable {os : FutexOS} {hand : List FutexCall} {call : FutexCall}

theorem initial_held (word : Nat → Nat) : Held [] (initial word) where
  running := rfl
  numbered := rfl
  ofThread := nofun
  placed _ := rfl
  messages := .nil
  known := nofun
  knownQueued := nofun
  fresh := nofun
  unread := nofun
  loading := nofun
  loaded := nofun
  fitting := nofun
  waiting call h := absurd h (by rw [initial, KeyedQueues.members_empty]; omega)
  eagain := nofun
  unmissed := nofun
  notLost _ _ _ h := absurd h (by simp [initial, comparedBefore, inOrder])

section Places

section

variable (h : Held hand os)
include h

theorem Held.count_issues_le_one (call : FutexCall) : (issues os.history).count call ≤ 1 :=
  nodup_iff_count_le_one.1
    (List.Nodup.of_map FutexCall.id (h.numbered ▸ nodup_range)) call

theorem Held.one_place (call : FutexCall) :
    (((os.toOs call.tid).count call + (os.inflight.map Prod.fst).count call +
      hand.count call : Nat) : Int) + os.futexMap.members call +
      ((answers os.history).count call : Int) ≤ 1 := by
  rw [h.placed]
  exact_mod_cast h.count_issues_le_one call

theorem Held.phase_unique {phase phase' : FutexPhase} (hmem : (call, phase) ∈ os.inflight)
    (hmem' : (call, phase') ∈ os.inflight) :
    phase = phase' := by
  by_contra hne
  have hone := h.one_place call
  have hnonneg := KeyedQueues.members_nonneg os.futexMap call
  have hperm := perm_cons_erase hmem
  have hin : (call, phase') ∈ os.inflight.erase (call, phase) :=
    (mem_erase_of_ne fun heq => hne (Prod.mk.inj heq).2.symm).2 hmem'
  have hcount := (hperm.map Prod.fst).count_eq call
  have hpos := count_pos_iff.2 (mem_map_of_mem (f := Prod.fst) hin)
  rw [map_cons, count_cons_self] at hcount
  dsimp only at hpos
  omega

theorem Held.phase_of_message {cmd : MemCmd}
    (hmem : (call, cmd) ∈ (os.osToMem.map fun req => (req.call, req.cmd)) ++
      os.memToOs.map fun resp => (resp.call, resp.cmd)) :
    ∃ phase, (call, phase) ∈ os.inflight ∧ phase.cmd call = cmd := by
  obtain ⟨⟨call', phase⟩, hin, heq⟩ := mem_map.1 (h.messages.subset hmem)
  cases heq
  exact ⟨phase, hin, rfl⟩

end

end Places

section Parts

variable {event : FutexEvent} {hand' : List FutexCall}

theorem Held.concat (h : Held hand os) (hissue : issues [event] = [])
    (hload : ∀ call, isLoaded call event = false)
    (hplaced : ∀ call, hand'.count call + (answers [event]).count call = hand.count call)
    (heagain : ∀ call val, .loaded call val ∈ os.history → val ≠ call.val →
      event ≠ .enqueued call ∧ ∀ code, event = .answered call code → code = -LINUX_EAGAIN)
    (hwoke : ∀ resp ∈ os.memToOs, resp.cmd.isStoreConditional → resp.failed = false →
      ∀ call : FutexCall, call.addr = resp.call.addr → isWoke call event →
        ¬inOrder (comparedBefore resp.call call) os.history)
    (hlost : ∀ waiter, event = .enqueued waiter →
      Unmissed os.history waiter ∧ waiter ∈ issues os.history ∧
        (os.toOs waiter.tid).count waiter + (os.inflight.map Prod.fst).count waiter = 0) :
    Held hand' (os.note event) := by
  have hmem {call : FutexCall} {val : Nat}
      (hmem : .loaded call val ∈ os.history ++ [event]) : .loaded call val ∈ os.history := by
    rcases mem_append.1 hmem with hold | hnew
    · exact hold
    · have hnot := hload call
      rw [← mem_singleton.1 hnew] at hnot
      simp [isLoaded] at hnot
  have hnotMem {call : FutexCall} {val : Nat} (hnot : .loaded call val ∉ os.history) :
      .loaded call val ∉ os.history ++ [event] := fun hin => hnot (hmem hin)
  have hissues : issues (os.history ++ [event]) = issues os.history := by
    rw [issues_append, hissue, append_nil]
  constructor
  case running => exact h.running
  case numbered =>
    show (issues (os.history ++ [event])).map _ = _
    rw [hissues]
    exact h.numbered
  case ofThread => exact h.ofThread
  case placed =>
    intro call
    show ((_ : Nat) : Int) + os.futexMap.members call +
      ((answers (os.history ++ [event])).count call : Int) =
      ((issues (os.history ++ [event])).count call : Int)
    have hone := h.placed call
    have hhand := hplaced call
    rw [hissues, answers_append, count_append]
    dsimp only [note]
    omega
  case messages => exact h.messages
  case known =>
    intro call val hin
    show call ∈ issues (os.history ++ [event])
    rw [hissues]
    exact h.known call val (hmem hin)
  case knownQueued =>
    intro call hin
    show call ∈ issues (os.history ++ [event])
    rw [hissues]
    rcases mem_append.1 hin with hold | hnew
    · exact h.knownQueued call hold
    · exact (hlost call (mem_singleton.1 hnew).symm).2.1
  case fresh =>
    intro call hpos
    refine notMem_concat (h.fresh call hpos) fun heq => ?_
    have hzero := (hlost call heq.symm).2.2
    dsimp only [note] at hpos
    omega
  case unread => exact fun tid call hcall val => hnotMem (h.unread tid call hcall val)
  case loading => exact fun req hreq addr hcmd val => hnotMem (h.loading req hreq addr hcmd val)
  case loaded =>
    exact fun resp hresp addr hcmd val hin => h.loaded resp hresp addr hcmd val (hmem hin)
  case fitting =>
    exact fun call phase hin hphase => (h.fitting call phase hin hphase).concat (hload call)
  case waiting => exact fun call hpos => (h.waiting call hpos).concat (hload call)
  case eagain =>
    intro call val hin hne
    obtain ⟨henqueued, hcodes⟩ := h.eagain call val (hmem hin) hne
    obtain ⟨hevent, hcode⟩ := heagain call val (hmem hin) hne
    refine ⟨notMem_concat henqueued hevent.symm, fun code hanswered => ?_⟩
    rcases mem_append.1 hanswered with hold | hnew
    · exact hcodes code hold
    · exact hcode code (mem_singleton.1 hnew).symm
  case unmissed =>
    intro resp hresp hcmd hfailed call haddr horder
    rcases inOrder_concat_iff.1 horder with hold | ⟨hevent, hold⟩
    · exact h.unmissed resp hresp hcmd hfailed call haddr hold
    · exact hwoke resp hresp hcmd hfailed call haddr hevent hold
  case notLost =>
    intro waiter call haddr horder
    have hsplit : comparedBefore waiter call ++
        [isWoke call, fun e => decide (e = FutexEvent.enqueued waiter)] =
        (comparedBefore waiter call ++ [isWoke call]) ++
          [fun e => decide (e = FutexEvent.enqueued waiter)] := rfl
    rw [hsplit] at horder
    rcases inOrder_concat_iff.1 horder with hold | ⟨hevent, hold⟩
    · exact h.notLost waiter call haddr hold
    · exact (hlost waiter (of_decide_eq_true hevent)).1 call haddr hold

theorem Held.answer (h : Held (call :: hand) os)
    (hfits : Fits os.history call ∨ code = -LINUX_EAGAIN) :
    Held hand (os.answer call code) := by
  refine h.concat rfl (fun _ => rfl) (fun call' => ?_) (fun call' val hin hne => ?_)
    (fun _ _ _ _ call' _ hevent => absurd hevent (by simp [isWoke])) nofun
  · rw [count_cons]
    show hand.count call' + [call].count call' = _
    rw [count_singleton]
  · refine ⟨nofun, fun code' heq => ?_⟩
    obtain ⟨rfl, rfl⟩ := FutexEvent.answered.inj heq
    rcases hfits with hfits | hcode
    · exact absurd (hfits val hin) hne
    · exact hcode

theorem Fits.answer {waiter : FutexCall} (h : Fits os.history call) :
    Fits (os.answer waiter code).history call :=
  h.concat rfl

variable {woken : List FutexCall}

theorem Held.wakeup (h : Held (woken ++ hand) os)
    (hfits : ∀ waiter ∈ woken, Fits os.history waiter) :
    Held hand (os.wakeup woken) := by
  induction woken generalizing os with
  | nil => exact h
  | cons waiter rest ih =>
    have hanswered : Held (rest ++ hand) (os.answer waiter 0) :=
      Held.answer h (.inl (hfits waiter mem_cons_self))
    exact ih hanswered fun waiter' hmem => (hfits waiter' (mem_cons_of_mem _ hmem)).answer

theorem wakeup_eq (os : FutexOS) (woken : List FutexCall) :
    os.wakeup woken =
      { os with history := os.history ++ woken.map fun waiter => .answered waiter 0 } := by
  induction woken generalizing os with
  | nil => simp [FutexOS.wakeup]
  | cons waiter rest ih =>
    rw [FutexOS.wakeup, foldl_cons]
    refine (ih _).trans ?_
    simp [FutexOS.answer, note]

theorem Fits.wakeup (h : Fits os.history call) :
    Fits (os.wakeup woken).history call := by
  rw [wakeup_eq]
  intro val hin
  refine h val ?_
  rcases mem_append.1 hin with hold | hnew
  · exact hold
  · simp at hnew

theorem Held.setQueues {futexMap : KeyedQueues Nat FutexCall} (h : Held hand os)
    (hplaced : ∀ call, (hand'.count call : Int) + futexMap.members call =
      (hand.count call : Int) + os.futexMap.members call)
    (hwaiting : ∀ call, 0 < futexMap.members call → Fits os.history call) :
    Held hand' { os with futexMap := futexMap } :=
  { h with
    placed call := by
      have hone := h.placed call
      have hhand := hplaced call
      dsimp only
      omega
    waiting := hwaiting }

theorem Held.popMany {addr n : Nat} (h : Held hand os) :
    Held ((os.futexMap.queue addr).take n ++ hand)
        { os with futexMap := (os.futexMap.popMany addr n).2 } ∧
      ∀ waiter ∈ (os.futexMap.queue addr).take n, Fits os.history waiter := by
  obtain ⟨-, hmembers⟩ := KeyedQueues.popMany_spec os.futexMap addr n
  have hqueued {waiter : FutexCall} (hmem : waiter ∈ os.futexMap.queue addr) :
      0 < os.futexMap.members waiter := by
    have hle := KeyedQueues.count_le_members os.futexMap addr waiter
    have hpos := count_pos_iff.2 hmem
    omega
  refine ⟨h.setQueues (fun call => ?_) (fun call hpos => h.waiting call ?_),
    fun waiter hmem => h.waiting waiter (hqueued (mem_of_mem_take hmem))⟩
  · rw [hmembers, count_append]
    push_cast
    ring
  · rw [hmembers] at hpos
    omega

theorem Held.request {phase : FutexPhase} (h : Held (call :: hand) os)
    (hfresh : .enqueued call ∉ os.history)
    (hload : phase = .loadLink → ∀ val, .loaded call val ∉ os.history)
    (hfits : phase ≠ .loadLink → Fits os.history call) :
    Held hand (os.request call phase) :=
  { h with
    placed call' := by
      have hone := h.placed call'
      have hmoved : ((os.inflight ++ [(call, phase)]).map Prod.fst).count call' +
          hand.count call' =
          (os.inflight.map Prod.fst).count call' + (call :: hand).count call' := by
        rw [map_append, count_append, map_singleton, count_singleton, count_cons]
        dsimp only
        omega
      dsimp only [FutexOS.request]
      omega
    messages := by
      show (map _ (os.osToMem ++ [⟨call, phase.cmd call⟩]) ++ _).Perm
        (map _ (os.inflight ++ [(call, phase)]))
      rw [map_append, map_append]
      refine List.Perm.trans ?_ (h.messages.append_right _)
      rw [append_assoc, append_assoc]
      exact perm_append_comm.append_left _
    fresh call' hpos := by
      by_cases heq : call' = call
      · exact heq ▸ hfresh
      · refine h.fresh call' ?_
        have hne : ¬(call == call') = true := fun hbeq => heq (beq_iff_eq.1 hbeq).symm
        dsimp only [FutexOS.request] at hpos
        rw [map_append, count_append, map_singleton, count_singleton, if_neg hne] at hpos
        exact hpos
    loading req hreq addr hcmd val := by
      rcases mem_append.1 hreq with hold | hnew
      · exact h.loading req hold addr hcmd val
      · obtain rfl := mem_singleton.1 hnew
        refine hload ?_ val
        cases phase with
        | loadLink => rfl
        | _ => cases hcmd
    fitting call' phase' hin hphase := by
      rcases mem_append.1 hin with hold | hnew
      · exact h.fitting call' phase' hold hphase
      · obtain ⟨rfl, rfl⟩ := Prod.mk.inj (mem_singleton.1 hnew)
        exact hfits hphase }

end Parts

variable {resp : MemResp} {history : List FutexEvent}

section Handlers

theorem fits_of_unread (h : ∀ val, .loaded call val ∉ history) :
    Fits history call :=
  fun val hin => absurd hin (h val)

theorem Held.wake (h : Held (call :: hand) os) (hunread : ∀ val, .loaded call val ∉ os.history)
    (hregular : ∀ resp ∈ os.memToOs, resp.cmd.isStoreConditional → resp.failed = false →
      call.addr = resp.call.addr → ¬inOrder (comparedBefore resp.call call) os.history) :
    Held hand (os.wake call) := by
  have hnote {hand' : List FutexCall} {os' : FutexOS} (waiters woken : List FutexCall)
      (h' : Held hand' os') (hhistory : os'.history = os.history)
      (hresps : os'.memToOs = os.memToOs) :
      Held hand' (os'.note (.woke call waiters woken)) := by
    refine h'.concat rfl (fun _ => rfl) (fun _ => rfl) (fun _ _ _ _ => ⟨nofun, nofun⟩) ?_ nofun
    intro resp hresp hcmd hfailed call' haddr hwoke
    obtain rfl : call = call' := of_decide_eq_true hwoke
    rw [hhistory]
    exact hregular resp (hresps ▸ hresp) hcmd hfailed haddr
  unfold FutexOS.wake
  split
  case h_1 waiter futexMap hpop =>
    obtain ⟨hqueue, -⟩ := KeyedQueues.queue_of_pop hpop
    have hfits : Fits os.history waiter := by
      refine h.waiting waiter ?_
      have hle := KeyedQueues.count_le_members os.futexMap call.addr waiter
      rw [hqueue, count_cons_self] at hle
      omega
    have hpopped : Held (waiter :: call :: hand) { os with futexMap := futexMap } := by
      refine h.setQueues (fun c => ?_) fun c hpos => h.waiting c ?_
      · rw [KeyedQueues.members_of_pop hpop, count_cons, count_singleton]
        omega
      · rw [KeyedQueues.members_of_pop hpop] at hpos
        omega
    have hnoted : Held ([waiter] ++ call :: hand) ({ os with futexMap := futexMap }.note
        (.woke call (os.futexMap.queue call.addr) [waiter])) := hnote _ _ hpopped rfl rfl
    have hwoken := hnoted.wakeup fun waiter' hmem => by
      rw [mem_singleton.1 hmem]
      exact hfits.concat rfl
    refine hwoken.answer (.inl (Fits.wakeup ?_))
    exact Fits.concat (fits_of_unread hunread) rfl
  case h_2 =>
    refine (hnote _ [] h rfl rfl).answer (.inl ?_)
    exact (fits_of_unread hunread).concat rfl

theorem moveWaits_spec {addr addr2 n : Nat} {futexMap : KeyedQueues Nat FutexCall}
    (hone : ∀ call, futexMap.members call ≤ 1) (hn : n ≤ (futexMap.queue addr).length) :
    ∃ futexMap', moveWaits addr addr2 n futexMap = some ((futexMap.queue addr).take n, futexMap') ∧
      ∀ call, futexMap'.members call = futexMap.members call := by
  induction n generalizing futexMap with
  | zero => exact ⟨futexMap, rfl, fun _ => rfl⟩
  | succ n ih =>
    cases hpop : futexMap.pop addr with
    | none =>
      rw [KeyedQueues.pop_eq_none_iff.1 hpop] at hn
      cases hn
    | some popped =>
      obtain ⟨call, rest⟩ := popped
      obtain ⟨hqueue, hother⟩ := KeyedQueues.queue_of_pop hpop
      have hrest := KeyedQueues.members_of_pop hpop
      have hnotMem : call ∉ rest.queue addr2 := by
        intro hmem
        have hle := KeyedQueues.count_le_members rest addr2 call
        have hpos := count_pos_iff.2 hmem
        have hcall := hrest call
        have hcallOne := hone call
        rw [count_singleton_self] at hcall
        omega
      have hmembers (c : FutexCall) :
          (rest.push addr2 call).members c = futexMap.members c := by
        rw [KeyedQueues.members_push, hrest]
        exact sub_add_cancel _ _
      have hlength : n ≤ ((rest.push addr2 call).queue addr).length := by
        rw [hqueue, length_cons] at hn
        rw [KeyedQueues.queue_push]
        split
        case isTrue heq =>
          rw [length_append, ← heq]
          omega
        case isFalse => omega
      obtain ⟨futexMap', hmove, hkept⟩ := ih
        (fun c => (hmembers c).trans_le (hone c)) hlength
      refine ⟨futexMap', ?_, fun c => (hkept c).trans (hmembers c)⟩
      have htake : ((rest.push addr2 call).queue addr).take n = (rest.queue addr).take n := by
        rw [hqueue, length_cons] at hn
        rw [KeyedQueues.queue_push]
        split
        case isTrue heq =>
          rw [← heq, take_append_of_le_length (by omega)]
        case isFalse => rfl
      rw [moveWaits, hpop]
      dsimp only
      rw [addWait, if_neg hnotMem, bind_some, hmove, map_some, hqueue, take_succ_cons, htake]

theorem Held.members_le_one (h : Held hand os) (call : FutexCall) :
    os.futexMap.members call ≤ 1 := by
  have hone := h.one_place call
  omega

theorem Held.finish {numWokeup val2 addr2 : Nat} (h : Held (call :: hand) os)
    (hfits : Fits os.history call) :
    Held hand (os.finish call numWokeup val2 addr2) ∧
      ∃ futexMap, os.finish call numWokeup val2 addr2 = { os with
          futexMap := futexMap
          history := os.history ++ [.moved call val2 (os.futexMap.queue call.addr)
              ((os.futexMap.queue call.addr).take (min val2 (os.futexMap.queue call.addr).length)),
            .answered call numWokeup] } := by
  obtain ⟨futexMap, hmove, hmembers⟩ := @moveWaits_spec call.addr addr2
    (min val2 (os.futexMap.queue call.addr).length) os.futexMap h.members_le_one
    (min_le_right _ _)
  have hmoved : Held (call :: hand) { os with futexMap := futexMap } :=
    h.setQueues (fun c => by rw [hmembers]) (fun c hpos => h.waiting c (hmembers c ▸ hpos))
  unfold FutexOS.finish
  dsimp only
  rw [hmove]
  refine ⟨?_, futexMap, ?_⟩
  · refine Held.answer (hmoved.concat rfl (fun _ => rfl) (fun _ => rfl)
      (fun _ _ _ _ => ⟨nofun, nofun⟩)
      (fun _ _ _ _ _ _ hwoke => absurd hwoke (by simp [isWoke])) nofun) (.inl ?_)
    exact hfits.concat rfl
  · simp [FutexOS.answer, note]

/-- The waiters that a requeue wakes. -/
def wokenByRequeue (os : FutexOS) (call : FutexCall) (val : Nat) : List FutexCall :=
  (os.futexMap.queue call.addr).take (min val (os.futexMap.queue call.addr).length)

def requeueWoken (os : FutexOS) (call : FutexCall) (val : Nat) : FutexOS :=
  { os with
    futexMap := (os.futexMap.popMany call.addr (min val (os.futexMap.queue call.addr).length)).2
    history := os.history ++
      (.requeueWoke call (os.futexMap.queue call.addr) (os.wokenByRequeue call val) ::
        (os.wokenByRequeue call val).map fun waiter => .answered waiter 0) }

theorem requeueWoken_eq (os : FutexOS) (call : FutexCall) (val : Nat) :
    os.requeueWoken call val = (FutexOS.note { os with
        futexMap := (os.futexMap.popMany call.addr
          (min val (os.futexMap.queue call.addr).length)).2 }
        (.requeueWoke call (os.futexMap.queue call.addr) (os.wokenByRequeue call val))).wakeup
          (os.wokenByRequeue call val) := by
  rw [wakeup_eq]
  simp [requeueWoken, note]

theorem requeue_eq (os : FutexOS) (call : FutexCall) (val : Nat) :
    os.requeue call val =
      if (os.futexMap.queue call.addr).length - (os.wokenByRequeue call val).length = 0 then
        (os.requeueWoken call val).answer call (os.wokenByRequeue call val).length
      else if call.stackPtr ≠ 0 then
        (os.requeueWoken call val).request call (.readArgs (os.wokenByRequeue call val).length)
      else
        (os.requeueWoken call val).finish call (os.wokenByRequeue call val).length call.val2
          call.addr2 := by
  rw [requeueWoken_eq]
  unfold requeue wokenByRequeue
  dsimp only
  rw [(KeyedQueues.popMany_spec os.futexMap call.addr _).1]

section

variable (h : Held (call :: hand) os)
include h

theorem Held.requeueWoken {val : Nat} (hfits : Fits os.history call) :
    Held (call :: hand) (os.requeueWoken call val) ∧
      Fits (os.requeueWoken call val).history call := by
  obtain ⟨hpopped, hwaiters⟩ := @Held.popMany os (call :: hand) call.addr
    (min val (os.futexMap.queue call.addr).length) h
  rw [requeueWoken_eq]
  have hnoted : Held (os.wokenByRequeue call val ++ call :: hand) (FutexOS.note { os with
      futexMap := (os.futexMap.popMany call.addr (min val (os.futexMap.queue call.addr).length)).2 }
      (.requeueWoke call (os.futexMap.queue call.addr) (os.wokenByRequeue call val))) :=
    hpopped.concat rfl (fun _ => rfl) (fun _ => rfl) (fun _ _ _ _ => ⟨nofun, nofun⟩)
      (fun _ _ _ _ _ _ hwoke => absurd hwoke (by simp [isWoke])) nofun
  exact ⟨hnoted.wakeup fun waiter hmem => (hwaiters waiter hmem).concat rfl,
    Fits.wakeup (hfits.concat rfl)⟩

theorem Held.requeue {val : Nat} (hfresh : .enqueued call ∉ os.history)
    (hfits : Fits os.history call) :
    Held hand (os.requeue call val) := by
  obtain ⟨hwoken, hcall⟩ := @Held.requeueWoken os hand call h val hfits
  rw [requeue_eq]
  split
  · exact hwoken.answer (.inl hcall)
  · split
    · refine hwoken.request ?_ nofun fun _ => hcall
      simp [FutexOS.requeueWoken, hfresh]
    · exact (hwoken.finish hcall).1

/-- A waiter that is safe from the wakes so far is queued. -/
theorem Held.enqueue (hfits : Fits os.history call) (hunmissed : Unmissed os.history call) :
    Held hand (os.enqueue call) := by
  have hzero : os.futexMap.members call ≤ 0 := by
    have hone := h.one_place call
    rw [count_cons_self] at hone
    omega
  have hnotMem : call ∉ os.futexMap.queue call.addr := by
    intro hmem
    have hle := KeyedQueues.count_le_members os.futexMap call.addr call
    have hpos := count_pos_iff.2 hmem
    omega
  unfold FutexOS.enqueue
  rw [addWait, if_neg hnotMem]
  have hpushed : Held hand { os with futexMap := os.futexMap.push call.addr call } := by
    refine h.setQueues (fun c => ?_) fun c hpos => ?_
    · rw [KeyedQueues.members_push, count_singleton, count_cons]
      omega
    · rw [KeyedQueues.members_push, count_singleton] at hpos
      split at hpos
      case isTrue heq => exact beq_iff_eq.1 heq ▸ hfits
      case isFalse => exact h.waiting c (by omega)
  refine hpushed.concat rfl (fun _ => rfl) (fun _ => rfl) (fun c val hin hne => ?_)
    (fun _ _ _ _ _ _ hwoke => absurd hwoke (by simp [isWoke])) (fun waiter heq => ?_)
  · refine ⟨fun heq => ?_, fun _ heq => by cases heq⟩
    obtain rfl := FutexEvent.enqueued.inj heq
    exact hne (hfits val hin)
  · obtain rfl := FutexEvent.enqueued.inj heq
    have hplaced := h.placed call
    have hone := h.one_place call
    have hnonneg := KeyedQueues.members_nonneg os.futexMap call
    rw [count_cons_self] at hplaced hone
    refine ⟨hunmissed, count_pos_iff.1 ?_, ?_⟩
    · dsimp only
      omega
    · dsimp only
      omega

theorem Held.memReqIsDone {data : Nat × Nat} {failed : Bool} {phase : FutexPhase}
    (hfresh : .enqueued call ∉ os.history)
    (hloaded : phase = .loadLink → ∀ val, .loaded call val ∈ os.history → val = data.1)
    (hfits : phase ≠ .loadLink → Fits os.history call)
    (hunmissed : ∀ val, phase = .storeConditional val → failed = false → Unmissed os.history call) :
    Held hand (os.memReqIsDone call data failed phase) := by
  cases phase with
  | loadLink =>
    unfold FutexOS.memReqIsDone
    dsimp only
    split
    case isTrue heq =>
      refine h.request hfresh nofun fun _ val hin => ?_
      rw [hloaded rfl val hin, heq]
    case isFalse => exact h.answer (.inr rfl)
  | storeConditional val =>
    unfold FutexOS.memReqIsDone
    dsimp only
    split
    case isTrue => exact h.answer (.inr rfl)
    case isFalse hfailed =>
      exact h.enqueue (hfits nofun) (hunmissed val rfl (Bool.eq_false_of_not_eq_true hfailed))
  | readAddr => exact h.requeue hfresh (hfits nofun)
  | readArgs numWokeup => exact (h.finish (hfits nofun)).1

end

theorem Held.respond {rest : List MemResp} (h : Held hand os) (hresp : os.memToOs = resp :: rest) :
    ∃ phase, os.inflight.find? (fun entry => entry.1 = resp.call) = some (resp.call, phase) ∧
      phase.cmd resp.call = resp.cmd ∧ Held (resp.call :: hand)
        { os with
          memToOs := rest
          inflight := os.inflight.eraseP fun entry => entry.1 = resp.call } := by
  have hmem : resp ∈ os.memToOs := hresp ▸ mem_cons_self
  obtain ⟨phase, hin, hcmd⟩ := h.phase_of_message
    (mem_append_right _ (mem_map_of_mem (f := fun resp => (resp.call, resp.cmd)) hmem))
  have hfound : os.inflight.find? (fun entry => entry.1 = resp.call) =
      some (resp.call, phase) := by
    cases hfind : os.inflight.find? (fun entry => entry.1 = resp.call) with
    | none => exact absurd (find?_eq_none.1 hfind _ hin) (by simp)
    | some entry =>
      obtain ⟨call, phase'⟩ := entry
      have hcall := find?_some hfind
      obtain rfl : call = resp.call := of_decide_eq_true hcall
      rw [h.phase_unique (mem_of_find?_eq_some hfind) hin]
  have hperm : os.inflight.Perm ((resp.call, phase) ::
      os.inflight.eraseP fun entry => entry.1 = resp.call) := by
    obtain ⟨-, before, after, hsplit, hbefore⟩ := find?_eq_some_iff_append.1 hfound
    have herase : os.inflight.eraseP (fun entry => entry.1 = resp.call) = before ++ after := by
      rw [hsplit, eraseP_append_right, eraseP_cons, decide_eq_true rfl, cond_true]
      intro entry hentry
      simpa using hbefore entry hentry
    rw [herase, hsplit]
    exact perm_middle
  refine ⟨phase, hfound, hcmd, ?_⟩
  have hkept {entry : FutexCall × FutexPhase}
      (hentry : entry ∈ os.inflight.eraseP fun entry => entry.1 = resp.call) :
      entry ∈ os.inflight := mem_of_mem_eraseP hentry
  have hresps {resp' : MemResp} (hrest : resp' ∈ rest) : resp' ∈ os.memToOs :=
    hresp ▸ mem_cons_of_mem _ hrest
  exact { h with
    placed := by
      intro c
      have hone := h.placed c
      have hcount : (os.inflight.map Prod.fst).count c =
          ((os.inflight.eraseP fun entry => entry.1 = resp.call).map Prod.fst).count c +
            [resp.call].count c := by
        rw [(hperm.map Prod.fst).count_eq, map_cons, count_cons, count_singleton]
      have hhand : (resp.call :: hand).count c = hand.count c + [resp.call].count c := by
        rw [count_cons, count_singleton]
      dsimp only
      omega
    messages := by
      have hmessages := h.messages
      rw [hresp, map_cons] at hmessages
      have hentries := hperm.map fun entry => (entry.1, entry.2.cmd entry.1)
      rw [map_cons, hcmd] at hentries
      exact (perm_cons _).1 (perm_middle.symm.trans (hmessages.trans hentries))
    fresh := by
      intro c hpos
      have hcount := (hperm.map Prod.fst).count_eq c
      rw [map_cons, count_cons] at hcount
      refine h.fresh c ?_
      dsimp only at hpos
      omega
    loaded := fun resp' hrest => h.loaded resp' (hresps hrest)
    fitting := fun c phase' hentry => h.fitting c phase' (hkept hentry)
    unmissed := fun resp' hrest => h.unmissed resp' (hresps hrest) }

end Handlers

section Steps

/-- A response that is handled. -/
theorem Held.respondStep {rest : List MemResp} {entry : FutexCall × FutexPhase} (h : Held [] os)
    (hresp : os.memToOs = resp :: rest)
    (hfind : os.inflight.find? (fun entry => entry.1 = resp.call) = some entry) :
    Held [] ({ os with
      memToOs := rest
      inflight := os.inflight.eraseP fun entry => entry.1 = resp.call }.memReqIsDone
      entry.1 resp.data resp.failed entry.2) := by
  obtain ⟨phase, hfound, hcmd, hheld⟩ := h.respond hresp
  cases hfound.symm.trans hfind
  have hmem : resp ∈ os.memToOs := hresp ▸ mem_cons_self
  have hfresh : .enqueued resp.call ∉ os.history := by
    refine h.fresh resp.call (Nat.add_pos_right _ (count_pos_iff.2 ?_))
    exact mem_map_of_mem (f := Prod.fst) (mem_of_find?_eq_some hfound)
  refine hheld.memReqIsDone hfresh (fun hphase val hin => ?_) (fun hphase => ?_)
    (fun val hphase hfailed => ?_)
  · refine h.loaded resp hmem resp.call.addr ?_ val hin
    rw [← hcmd]
    dsimp only at hphase
    rw [hphase]
    rfl
  · exact h.fitting resp.call phase (mem_of_find?_eq_some hfound) hphase
  · refine h.unmissed resp hmem ?_ hfailed
    rw [← hcmd]
    dsimp only at hphase
    rw [hphase]
    rfl

variable {rest : List FutexCall}

theorem Held.receive {tid : Nat} (h : Held hand os) (hcalls : os.toOs tid = call :: rest) :
    Held (call :: hand) { os with toOs := update os.toOs tid rest } := by
  have htid : call.tid = tid := h.ofThread tid call (hcalls ▸ mem_cons_self)
  have hkept {t : Nat} {c : FutexCall} (hc : c ∈ update os.toOs tid rest t) :
      c ∈ os.toOs t := by
    by_cases ht : t = tid
    · subst ht
      rw [update_self] at hc
      exact hcalls ▸ mem_cons_of_mem _ hc
    · rwa [update_of_ne ht] at hc
  constructor
  case ofThread => exact fun t c hc => h.ofThread t c (hkept hc)
  case placed =>
    intro c
    have hone := h.placed c
    have hmoved : (update os.toOs tid rest c.tid).count c + (call :: hand).count c =
        (os.toOs c.tid).count c + hand.count c := by
      by_cases ht : c.tid = tid
      · rw [ht, update_self, hcalls, count_cons, count_cons]
        omega
      · have hne : ¬(call == c) = true := by
          rw [beq_iff_eq]
          rintro rfl
          exact ht htid
        rw [update_of_ne ht, count_cons, if_neg hne]
        omega
    dsimp only
    omega
  case fresh =>
    intro c hpos
    refine h.fresh c ?_
    have hle : (update os.toOs tid rest c.tid).count c ≤ (os.toOs c.tid).count c := by
      by_cases ht : c.tid = tid
      · rw [ht, update_self, hcalls, count_cons]
        exact Nat.le_add_right _ _
      · rw [update_of_ne ht]
    dsimp only at hpos
    omega
  case unread => exact fun t c hc => h.unread t c (hkept hc)
  all_goals first
    | exact h.running | exact h.numbered | exact h.messages | exact h.known
    | exact h.knownQueued | exact h.loading | exact h.loaded | exact h.fitting
    | exact h.waiting | exact h.eagain | exact h.unmissed | exact h.notLost

theorem Held.issue {tid addr op val stackPtr val2 addr2 : Nat} (h : Held [] os) :
    Held [] ({ os with
      toOs := update os.toOs tid
        (os.toOs tid ++ [FutexCall.mk os.issued tid addr op val stackPtr val2 addr2])
      issued := os.issued + 1 }.note
        (.issued (FutexCall.mk os.issued tid addr op val stackPtr val2 addr2))) := by
  generalize hcall : FutexCall.mk os.issued tid addr op val stackPtr val2 addr2 = call
  have htid : call.tid = tid := hcall ▸ rfl
  have hid : call.id = os.issued := hcall ▸ rfl
  have hnew : call ∉ issues os.history := by
    intro hin
    have hmem := mem_map_of_mem (f := FutexCall.id) hin
    rw [h.numbered, mem_range, hid] at hmem
    omega
  have hissues : issues (os.history ++ [.issued call]) = issues os.history ++ [call] :=
    issues_append _ _
  have hanswers : answers (os.history ++ [.issued call]) = answers os.history :=
    (answers_append _ _).trans (append_nil _)
  have hcalls {t : Nat} {c : FutexCall}
      (hc : c ∈ update os.toOs tid (os.toOs tid ++ [call]) t) :
      c ∈ os.toOs t ∨ c = call ∧ t = tid := by
    by_cases ht : t = tid
    · subst ht
      rw [update_self] at hc
      rcases mem_append.1 hc with hold | hnew
      · exact .inl hold
      · exact .inr ⟨mem_singleton.1 hnew, rfl⟩
    · rw [update_of_ne ht] at hc
      exact .inl hc
  have hcount (c : FutexCall) :
      (update os.toOs tid (os.toOs tid ++ [call]) c.tid).count c =
        (os.toOs c.tid).count c + [call].count c := by
    by_cases ht : c.tid = tid
    · rw [ht, update_self, count_append]
    · have hne : ¬(call == c) = true := by
        rw [beq_iff_eq]
        rintro rfl
        exact ht htid
      rw [update_of_ne ht, count_singleton, if_neg hne, add_zero]
  have hloaded {c : FutexCall} {v : Nat} (hin : .loaded c v ∈ os.history ++ [.issued call]) :
      .loaded c v ∈ os.history := by
    exact mem_of_mem_concat hin (fun heq => by cases heq)
  constructor
  case running => exact h.running
  case numbered =>
    show (issues (os.history ++ [.issued call])).map _ = range (os.issued + 1)
    rw [hissues, map_append, h.numbered, range_succ, map_singleton, hid]
  case ofThread =>
    intro t c hc
    rcases hcalls hc with hold | ⟨rfl, rfl⟩
    · exact h.ofThread t c hold
    · exact htid
  case placed =>
    intro c
    have hone := h.placed c
    have hnewCount := hcount c
    dsimp only [note]
    rw [hissues, hanswers, count_append]
    omega
  case messages => exact h.messages
  case known =>
    intro c v hin
    dsimp only [note]
    rw [hissues]
    exact mem_append_left _ (h.known c v (hloaded hin))
  case knownQueued =>
    intro c hin
    dsimp only [note]
    rw [hissues]
    exact mem_append_left _ (h.knownQueued c (mem_of_mem_concat hin (fun heq => by cases heq)))
  case fresh =>
    intro c hpos
    refine notMem_concat ?_ (fun heq => by cases heq)
    dsimp only [note] at hpos
    rw [hcount] at hpos
    by_cases heq : c = call
    · intro hin
      exact hnew (heq ▸ h.knownQueued c hin)
    · refine h.fresh c ?_
      have hne : ¬(call == c) = true := fun hbeq => heq (beq_iff_eq.1 hbeq).symm
      rw [count_singleton, if_neg hne] at hpos
      exact hpos
  case unread =>
    intro t c hc v
    refine notMem_concat ?_ (fun heq => by cases heq)
    rcases hcalls hc with hold | ⟨rfl, -⟩
    · exact h.unread t c hold v
    · exact fun hin => hnew (h.known c v hin)
  case loading =>
    exact fun req hreq a hcmd v => notMem_concat (h.loading req hreq a hcmd v)
      (fun heq => by cases heq)
  case loaded =>
    exact fun resp hresp a hcmd v hin => h.loaded resp hresp a hcmd v (hloaded hin)
  case fitting => exact fun c phase hin hphase => (h.fitting c phase hin hphase).concat rfl
  case waiting => exact fun c hpos => (h.waiting c hpos).concat rfl
  case eagain =>
    intro c v hin hne
    obtain ⟨henqueued, hcodes⟩ := h.eagain c v (hloaded hin) hne
    refine ⟨notMem_concat henqueued (fun heq => by cases heq), fun code hanswered => hcodes code ?_⟩
    exact mem_of_mem_concat hanswered (fun heq => by cases heq)
  case unmissed =>
    exact fun resp hresp hcmd hfailed c haddr =>
      not_inOrder_concat (h.unmissed resp hresp hcmd hfailed c haddr) rfl
  case notLost =>
    intro waiter c haddr
    exact @not_inOrder_concat _ _ (comparedBefore waiter c ++ [isWoke c]) _
      (h.notLost waiter c haddr) rfl

theorem Held.memory {word : Nat → Nat} {linked : Nat → Bool} (h : Held hand os) :
    Held hand { os with word := word, linked := linked } :=
  { h with }

theorem Held.served {req : MemReq} {rest : List MemReq} {data : Nat × Nat} {failed : Bool}
    (h : Held [] os) (hreq : os.osToMem = req :: rest)
    (hdata : ∀ addr, req.cmd = .loadLink addr →
      ∀ val, .loaded req.call val ∈ os.history → val = data.1)
    (hunmissed : req.cmd.isStoreConditional → failed = false → Unmissed os.history req.call) :
    Held [] { os with
      osToMem := rest
      memToOs := os.memToOs ++ [⟨req.call, req.cmd, data, failed⟩] } :=
  { h with
    messages := by
      have hmessages := h.messages
      rw [hreq] at hmessages
      refine List.Perm.trans ?_ hmessages
      rw [map_append, map_cons, map_cons, map_nil, ← append_assoc, cons_append]
      exact perm_append_comm
    loading req' hreq' := h.loading req' (hreq ▸ mem_cons_of_mem _ hreq')
    loaded resp hresp addr hcmd val hin := by
      rcases mem_append.1 hresp with hold | hnew
      · exact h.loaded resp hold addr hcmd val hin
      · obtain rfl := mem_singleton.1 hnew
        exact hdata addr hcmd val hin
    unmissed resp hresp hcmd hfailed := by
      rcases mem_append.1 hresp with hold | hnew
      · exact h.unmissed resp hold hcmd hfailed
      · obtain rfl := mem_singleton.1 hnew
        exact hunmissed hcmd hfailed }

theorem Held.nodup_messages (h : Held hand os) :
    (os.osToMem.map MemReq.call ++ os.memToOs.map MemResp.call).Nodup := by
  have hperm := h.messages.map Prod.fst
  rw [map_append, List.map_map, List.map_map, List.map_map] at hperm
  refine hperm.nodup_iff.2 (nodup_iff_count_le_one.2 fun c => ?_)
  have hone := h.one_place c
  have hnonneg := KeyedQueues.members_nonneg os.futexMap c
  have hcount : (os.inflight.map Prod.fst).count c ≤ 1 := by omega
  exact hcount

theorem Held.load {addr : Nat} (h : Held [] os) (hresp : resp ∈ os.memToOs)
    (hcmd : resp.cmd = .loadLink addr) (hunread : ∀ val, .loaded resp.call val ∉ os.history) :
    Held [] (os.note (.loaded resp.call resp.data.1)) := by
  obtain ⟨phase, hin, hphase⟩ := h.phase_of_message
    (mem_append_right _ (mem_map_of_mem (f := fun resp => (resp.call, resp.cmd)) hresp))
  obtain rfl : phase = .loadLink := by
    rw [hcmd] at hphase
    cases phase with
    | loadLink => rfl
    | _ => cases hphase
  have hone := h.one_place resp.call
  have hplaced := h.placed resp.call
  have hnonneg := KeyedQueues.members_nonneg os.futexMap resp.call
  have hflight : 0 < (os.inflight.map Prod.fst).count resp.call :=
    count_pos_iff.2 (mem_map_of_mem (f := Prod.fst) hin)
  have hnodup := h.nodup_messages
  have hissues : issues (os.history ++ [.loaded resp.call resp.data.1]) = issues os.history :=
    (issues_append _ _).trans (append_nil _)
  have hanswers : answers (os.history ++ [.loaded resp.call resp.data.1]) =
      answers os.history := (answers_append _ _).trans (append_nil _)
  have hother {c : FutexCall} {v : Nat} (hne : c ≠ resp.call)
      (hmem : .loaded c v ∈ os.history ++ [.loaded resp.call resp.data.1]) :
      .loaded c v ∈ os.history := by
    rcases mem_append.1 hmem with hold | hnew
    · exact hold
    · exact absurd (FutexEvent.loaded.inj (mem_singleton.1 hnew)).1 hne
  have hfits {c : FutexCall} (hne : c ≠ resp.call) (hold : Fits os.history c) :
      Fits (os.history ++ [.loaded resp.call resp.data.1]) c :=
    fun v hmem => hold v (hother hne hmem)
  constructor
  case running => exact h.running
  case numbered =>
    show (issues (os.history ++ [.loaded resp.call resp.data.1])).map _ = _
    rw [hissues]
    exact h.numbered
  case ofThread => exact h.ofThread
  case placed =>
    intro c
    dsimp only [note]
    rw [hissues, hanswers]
    exact h.placed c
  case messages => exact h.messages
  case known =>
    intro c v hmem
    dsimp only [note]
    rw [hissues]
    by_cases heq : c = resp.call
    · rw [heq]
      refine count_pos_iff.1 ?_
      omega
    · exact h.known c v (hother heq hmem)
  case knownQueued =>
    intro c hmem
    dsimp only [note]
    rw [hissues]
    exact h.knownQueued c (mem_of_mem_concat hmem nofun)
  case fresh => exact fun c hpos => notMem_concat (h.fresh c hpos) nofun
  case unread =>
    intro tid c hc v hmem
    refine h.unread tid c hc v (hother (fun heq => ?_) hmem)
    have htid := h.ofThread tid c hc
    have hpos : 0 < (os.toOs tid).count c := count_pos_iff.2 hc
    rw [← htid, heq] at hpos
    omega
  case loading =>
    intro req hreq a hreqCmd v hmem
    refine h.loading req hreq a hreqCmd v (hother (fun heq => ?_) hmem)
    refine (nodup_append.1 hnodup).2.2 _ (mem_map_of_mem (f := MemReq.call) hreq) _
      (mem_map_of_mem (f := MemResp.call) hresp) heq
  case loaded =>
    intro resp' hresp' a hcmd' v hmem
    by_cases heq : resp'.call = resp.call
    · obtain rfl := inj_on_of_nodup_map (nodup_append.1 hnodup).2.1 hresp' hresp heq
      rcases mem_append.1 hmem with hold | hnew
      · exact absurd hold (hunread v)
      · exact (FutexEvent.loaded.inj (mem_singleton.1 hnew)).2
    · exact h.loaded resp' hresp' a hcmd' v (hother heq hmem)
  case fitting =>
    intro c phase hentry hne
    refine hfits (fun heq => hne ?_) (h.fitting c phase hentry hne)
    exact h.phase_unique (heq ▸ hentry) hin
  case waiting =>
    intro c hpos
    refine hfits (fun heq => ?_) (h.waiting c hpos)
    dsimp only [note] at hpos
    rw [heq] at hpos
    omega
  case eagain =>
    intro c v hmem hne
    by_cases heq : c = resp.call
    · subst heq
      refine ⟨notMem_concat (h.fresh _ (Nat.add_pos_right _ hflight)) nofun,
        fun code hanswered => ?_⟩
      rcases mem_append.1 hanswered with hold | hnew
      · have hpos := count_pos_iff.2 (mem_answers hold)
        omega
      · cases mem_singleton.1 hnew
    · obtain ⟨henqueued, hcodes⟩ := h.eagain c v (hother heq hmem) hne
      refine ⟨notMem_concat henqueued nofun, fun code hanswered => hcodes code ?_⟩
      exact mem_of_mem_concat hanswered nofun
  case unmissed =>
    exact fun resp' hresp' hcmd' hfailed c haddr =>
      not_inOrder_concat (h.unmissed resp' hresp' hcmd' hfailed c haddr) rfl
  case notLost =>
    intro waiter c haddr
    exact @not_inOrder_concat _ _ (comparedBefore waiter c ++ [isWoke c]) _
      (h.notLost waiter c haddr) rfl

theorem unmissed_of_not_inOrder (h : ¬inOrder [isLoaded call, isChanged call.addr] history) :
    Unmissed history call := by
  intro waker _ horder
  refine h (inOrder_of_forall₂ (.cons (fun _ => id) (.cons (fun e he => ?_) .nil)) horder)
  rw [of_decide_eq_true he]
  exact decide_eq_true rfl

section

variable (h : Held [] os)
include h

theorem Held.serve {lineSize : Nat} {req : MemReq} {rest : List MemReq}
    (hreq : os.osToMem = req :: rest)
    (hregular : req.cmd.isStoreConditional → os.linked (req.call.addr / lineSize) →
      ¬inOrder [isLoaded req.call, isChanged req.call.addr] os.history) :
    Held [] ({ os with osToMem := rest }.serve lineSize req) := by
  have hmem : req ∈ os.osToMem := hreq ▸ mem_cons_self
  obtain ⟨phase, -, hphase⟩ := h.phase_of_message
    (mem_append_left _ (mem_map_of_mem (f := fun req => (req.call, req.cmd)) hmem))
  unfold FutexOS.serve
  cases hcmd : req.cmd with
  | loadLink addr =>
    have hunread := h.loading req hmem addr hcmd
    have hserved := @Held.served os req rest (os.word addr, 0) false h hreq
      (fun _ _ v hin => absurd hin (hunread v))
      (fun hconditional => absurd hconditional (by rw [hcmd]; exact Bool.false_ne_true))
    rw [hcmd] at hserved
    exact (hserved.load (mem_append_right _ (mem_singleton.2 rfl)) rfl hunread).memory
  | storeConditional addr val =>
    have haddr : addr = req.call.addr := by
      rw [hcmd] at hphase
      cases phase with
      | storeConditional val' => exact (MemCmd.storeConditional.inj hphase).1.symm
      | _ => cases hphase
    have hdata {data : Nat × Nat} (a : Nat) (hload : req.cmd = .loadLink a) (v : Nat)
        (_ : .loaded req.call v ∈ os.history) : v = data.1 := by
      rw [hcmd] at hload
      cases hload
    dsimp only
    split
    case isTrue hlinked =>
      rw [haddr] at hlinked
      have hserved := @Held.served os req rest (0, 0) false h hreq hdata
        (fun hconditional _ => unmissed_of_not_inOrder (hregular hconditional hlinked))
      rw [hcmd] at hserved
      exact hserved.memory
    case isFalse =>
      have hserved := @Held.served os req rest (0, 0) true h hreq hdata nofun
      rw [hcmd] at hserved
      exact hserved
  | read addr =>
    have hserved := @Held.served os req rest (os.word addr, 0) false h hreq
      (by rw [hcmd]; exact nofun) (by rw [hcmd]; exact nofun)
    rw [hcmd] at hserved
    exact hserved
  | readPair addr =>
    have hserved := @Held.served os req rest (os.word addr, os.word (addr + 4)) false h hreq
      (by rw [hcmd]; exact nofun) (by rw [hcmd]; exact nofun)
    rw [hcmd] at hserved
    exact hserved

theorem Held.store {tid addr : Nat} : Held [] (os.note (.changed tid addr)) :=
  h.concat rfl (fun _ => rfl) (fun _ => rfl) (fun _ _ _ _ => ⟨nofun, nofun⟩)
    (fun _ _ _ _ _ _ hwoke => absurd hwoke (by simp [isWoke])) nofun

theorem Held.create {tid : Nat} {os' : FutexOS}
    (hcalls : os.toOs tid = call :: rest)
    (hregular : futexOp call.op = some .wake →
      ∀ resp ∈ os.memToOs, resp.cmd.isStoreConditional → resp.failed = false →
        call.addr = resp.call.addr → ¬inOrder (comparedBefore resp.call call) os.history)
    (hcreate : { os with toOs := update os.toOs tid rest }.create call = some os') :
    Held [] os' := by
  have hmem : call ∈ os.toOs tid := hcalls ▸ mem_cons_self
  have hreceived := h.receive hcalls
  have hunread := h.unread tid call hmem
  have hfresh : .enqueued call ∉ os.history := by
    refine h.fresh call (Nat.add_pos_left (count_pos_iff.2 ?_) _)
    rwa [h.ofThread tid call hmem]
  obtain ⟨op, hop, rfl⟩ := map_eq_some_iff.1 hcreate
  cases op with
  | wake => exact hreceived.wake hunread (hregular hop)
  | wait => exact hreceived.request hfresh (fun _ => hunread) fun hne => absurd rfl hne
  | requeue => exact hreceived.request hfresh nofun fun _ => fits_of_unread hunread

/-- A regular step keeps every waiter in one queue. -/
theorem Held.step {lineSize : Nat} {s : FutexStep} {os' : FutexOS}
    (hregular : Regular lineSize os s) (hstep : os.step lineSize s = some os') :
    Held [] os' := by
  unfold FutexOS.step at hstep
  rw [if_neg (ne_true_of_eq_false h.running)] at hstep
  cases s with
  | issue tid addr op val stackPtr val2 addr2 =>
    cases hstep
    exact h.issue
  | store tid addr val =>
    cases hstep
    split
    · exact h.memory
    · exact h.memory.store
  | unlink line =>
    cases hstep
    exact h.memory
  | receive tid =>
    dsimp only at hstep
    split at hstep
    case h_1 => cases hstep
    case h_2 call rest hcalls =>
      refine h.create hcalls (fun hop => (hregular call ?_ hop).2) hstep
      rw [hcalls]
      rfl
  | memory =>
    dsimp only at hstep
    split at hstep
    case h_1 => cases hstep
    case h_2 req rest hreq =>
      cases hstep
      refine h.serve hreq (hregular req ?_)
      rw [hreq]
      rfl
  | respond =>
    dsimp only at hstep
    split at hstep
    case h_1 => cases hstep
    case h_2 resp rest hresp =>
      obtain ⟨entry, hfind, rfl⟩ := map_eq_some_iff.1 hstep
      exact h.respondStep hresp hfind

end

end Steps

end SstElements.VanadisOS.FutexOS
