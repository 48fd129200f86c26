import SstElements.Firefly.CollectiveMessages

/-!
# Each rank makes the calls of its script

One lemma for each part of the state machine; a part that falls through uses the lemma of the
next part.
-/

namespace SstElements.Firefly

open Library CollectiveTreeFuncSM List Option

namespace TreeCollective

variable {T : Type} {k : TreeCollective T} {r : Nat} {l : CollectiveTreeFuncSM T}

section Events

theorem startEvent_type (k : TreeCollective T) (r : Nat) : (k.startEvent r).type = k.type := by
  unfold startEvent
  cases k.type <;> rfl

theorem startEvent_root (k : TreeCollective T) (r : Nat) : (k.startEvent r).root = k.treeRoot := by
  unfold startEvent treeRoot
  cases k.type <;> rfl

theorem startEvent_count (k : TreeCollective T) (r : Nat) : (k.startEvent r).count = k.count := by
  unfold startEvent
  cases k.type <;> rfl

theorem startEvent_mydata (k : TreeCollective T) (r : Nat) :
    (k.startEvent r).mydata = k.mydata r := by
  unfold startEvent
  cases k.type <;> rfl

theorem startEvent_op (h : k.type ≠ .Bcast) (r : Nat) :
    (k.startEvent r).op = k.op ∧ (k.startEvent r).dtype = k.dtype ∧
      (k.startEvent r).result = k.result r := by
  unfold startEvent
  cases htype : k.type with
  | Bcast => exact absurd htype h
  | Allreduce | Reduce => exact ⟨rfl, rfl, rfl⟩

end Events

section CommonFacts

section

variable (h : Common k r l)
include h

theorem Common.m_yyy : l.m_yyy = k.yyy r := by
  rw [CollectiveTreeFuncSM.m_yyy, yyy, h.degree, h.myRank, h.size, h.event, ← startEvent_root k r]

theorem Common.genTag : l.genTag = k.tag r := by
  rw [CollectiveTreeFuncSM.genTag, tag, h.seq]

theorem Common.type : l.m_event.type = k.type := by
  rw [h.event, ← startEvent_type k r]

theorem Common.count : l.m_event.count = k.count := by
  rw [h.event, ← startEvent_count k r]

theorem Common.mydata : l.m_event.mydata = k.mydata r := by
  rw [h.event, ← startEvent_mydata k r]

theorem Common.of_same {l' : CollectiveTreeFuncSM T} (hdegree : l'.degree = l.degree)
    (hrank : l'.myRank = l.myRank) (hsize : l'.size = l.size) (hevent : l'.m_event = l.m_event)
    (hstarted : l'.started = l.started) (hseq : l'.m_seq = l.m_seq) :
    Common k r l' := by
  refine ⟨hdegree.trans h.degree, hrank.trans h.myRank, hsize.trans h.size, ?_, ?_,
    hseq.trans h.seq⟩
  · rw [hevent]
    exact h.event
  · rw [hstarted]
    exact h.started

theorem Common.setResult (result : Buffer T) : Common k r (l.setResult result) := by
  refine ⟨h.degree, h.myRank, h.size, ?_, h.started, h.seq⟩
  rw [CollectiveTreeFuncSM.setResult, h.event]

end

end CommonFacts

section Shape

variable [Add T] [LT T] [DecidableLT T] [Inhabited T]

section

variable (hfits : TreeFits k.degree k.size k.treeRoot) (hr : r < k.size)
include hfits hr

theorem length_ups : (k.ups (k.relabel r)).length = (k.yyy r).numChildren := by
  have hchildren := congrArg length (@YYY.children_eq (k.yyy r) hfits hr)
  rw [YYY.children, length_map, length_map, length_range, myVirtRank_yyy]
    at hchildren
  rw [ups, length_map, hchildren]
  rfl

theorem isEmpty_ups :
    (k.ups (k.relabel r)).isEmpty = decide ((k.yyy r).numChildren = 0) := by
  rw [Bool.eq_iff_iff, List.isEmpty_iff, decide_eq_true_eq, ← length_ups hfits hr,
    length_eq_zero_iff]

theorem upPayload_eq :
    k.upPayload (k.relabel r) = payload k.count
      (if (k.yyy r).numChildren = 0 then k.mydata r else k.upResult r (k.ups (k.relabel r))) := by
  have hfold : k.upPayload (k.relabel r) = payload k.count
      (if (k.ups (k.relabel r)).isEmpty then k.mydata (k.relabel (k.relabel r))
        else k.upResult (k.relabel (k.relabel r)) (k.ups (k.relabel r))) :=
    Library.RootedTree.fold_eq k.tree _ (k.relabel r)
  rw [hfold, relabel_relabel, isEmpty_ups hfits hr]
  simp only [decide_eq_true_eq]

end

theorem afterUp_eq (h : k.type ≠ .Bcast) (r : Nat) :
    k.afterUp (k.relabel r) = k.upResult r (k.ups (k.relabel r)) := by
  rw [afterUp, if_neg h, relabel_relabel]

end Shape

section Down

variable [Add T] [LT T] [DecidableLT T] [Inhabited T]
variable {arrived : TreeSlot → Prop}

theorem range'_sub_eq_cons {i n : Nat} (h : i < n) :
    range' i (n - i) = i :: range' (i + 1) (n - (i + 1)) := by
  rw [show n - i = n - (i + 1) + 1 by omega, range'_succ]

/-- From `Sending`, by induction on the children left. -/
theorem sending_continues {i : Nat} (hcommon : Common k r l) (htype : k.type ≠ .Reduce)
    (hi : i < (k.yyy r).numChildren) (hstate : GoesDown k r l)
    (hsend : l.m_sendDownState = (.Sending, i))
    (hresult : l.m_event.result = k.downResult (k.relabel r))
    (hparent : (k.yyy r).parent = none ∨ arrived .recvDown) :
    Continues k r ((range' i ((k.yyy r).numChildren - i)).map (k.sendCall r) ++
      ⟨[], some (k.sendSlots r)⟩ :: exitPart) arrived l.sendDown := by
  have hne : (k.yyy r).numChildren ≠ 0 := by omega
  refine ⟨k.sendCall r i, (range' (i + 1) ((k.yyy r).numChildren - (i + 1))).map
      (k.sendCall r) ++ ⟨[], some (k.sendSlots r)⟩ :: exitPart,
    { l with m_sendDownState :=
        if i + 1 = (k.yyy r).numChildren then (.Waiting, 0) else (.Sending, i + 1) }, ?_, ?_, ?_⟩
  · rw [range'_sub_eq_cons hi, map_cons, cons_append]
  · rw [sendDown, hcommon.m_yyy, hcommon.type, if_pos ⟨htype, hne⟩, hsend, hcommon.genTag,
      hcommon.count, hresult]
    rfl
  · exact .sending (hcommon.of_same rfl rfl rfl rfl rfl rfl) htype hi hne hstate rfl hresult hparent

theorem sendDown_continues (hcommon : Common k r l) (hstate : k.type ≠ .Reduce → GoesDown k r l)
    (hsend : l.m_sendDownState = (.Sending, 0))
    (hresult : l.m_event.result = k.finalResult (k.relabel r))
    (hparent : k.type = .Reduce ∨ (k.yyy r).parent = none ∨ arrived .recvDown) :
    Continues k r (k.sendDownCalls r) arrived l.sendDown := by
  rw [sendDownCalls, downPart]
  by_cases hleaf : k.type = .Reduce ∨ (k.yyy r).numChildren = 0
  · rw [if_pos hleaf]
    refine ⟨⟨[], none⟩, [], l, rfl, ?_, .finished hcommon hresult hparent⟩
    rw [sendDown, hcommon.m_yyy, hcommon.type, if_neg (by tauto)]
    rfl
  · rw [if_neg hleaf, append_assoc]
    have htype : k.type ≠ .Reduce := fun h => hleaf (.inl h)
    rw [finalResult, if_neg htype] at hresult
    exact sending_continues hcommon htype (pos_of_ne_zero fun h => hleaf (.inr h))
      (hstate htype) hsend hresult (hparent.resolve_left htype)

theorem waitDown_continues (hfits : TreeFits k.degree k.size k.treeRoot) (hcommon : Common k r l)
    (hstate : (k.yyy r).parent = none → l.m_state = .SendUp ∨ l.m_state = .WaitDown)
    (hsend : l.m_sendDownState = (.Sending, 0))
    (hresult : l.m_event.result = k.afterUp (k.relabel r)) (harrived : ¬ arrived .recvDown) :
    Continues k r (k.waitDownCalls r) arrived l.waitDown := by
  rw [waitDownCalls, recvPart, waitDown, hcommon.type, hcommon.m_yyy]
  by_cases htype : k.type = .Reduce
  · rw [if_pos htype, if_neg (not_not_intro htype), nil_append]
    refine sendDown_continues hcommon (fun h => absurd htype h) hsend ?_ (.inl htype)
    rw [finalResult, if_pos htype, hresult]
  · rw [if_neg htype, if_pos htype]
    cases hparent : (k.yyy r).parent with
    | none =>
      refine sendDown_continues hcommon (fun _ => .inr ⟨hparent, hstate hparent⟩) hsend ?_
        (.inr (.inl hparent))
      rw [finalResult, if_neg htype, hresult, downResult,
        (parent_eq_none_iff hfits r).1 hparent, if_neg (lt_irrefl 0)]
    | some p =>
      have hne : (k.yyy r).parent ≠ none := by
        rw [hparent]
        exact some_ne_none p
      rw [hcommon.genTag]
      exact ⟨_, _, { l with m_state := .SendDown }, rfl, rfl,
        .receiving (hcommon.of_same rfl rfl rfl rfl rfl rfl) htype hne rfl hsend
          (fun h => absurd h harrived) fun _ => hresult⟩

end Down

section Up

variable [Add T] [LT T] [DecidableLT T] [Inhabited T]
variable {arrived : TreeSlot → Prop}

theorem sendUp_continues (hfits : TreeFits k.degree k.size k.treeRoot) (hr : r < k.size)
    (hcommon : Common k r l) (htype : k.type ≠ .Bcast) (hstate : l.m_state = .SendUp)
    (hsend : l.m_sendDownState = (.Sending, 0))
    (hresult : l.m_event.result = k.afterUp (k.relabel r)) (harrived : ¬ arrived .recvDown) :
    Continues k r (k.sendUpCalls r) arrived l.sendUp := by
  rw [sendUpCalls, parentPart, sendUp, hcommon.m_yyy]
  cases hparent : (k.yyy r).parent with
  | none =>
    exact waitDown_continues hfits hcommon (fun _ => .inl hstate) hsend hresult harrived
  | some p =>
    have hne : (k.yyy r).parent ≠ none := by
      rw [hparent]
      exact some_ne_none p
    refine ⟨_, _, { l with m_state := .WaitDown }, rfl, ?_, .sentUp
      (hcommon.of_same rfl rfl rfl rfl rfl rfl) htype hne rfl hsend hresult harrived⟩
    rw [hcommon.genTag, hcommon.count, hcommon.mydata, hresult, upPayload_eq hfits hr,
      afterUp_eq htype, ite_not]

theorem mapM_range_eq {α : Type} {f : Nat → Option α} {values : List α}
    (h : ∀ i a, values[i]? = some a → f i = some a) :
    (range values.length).mapM f = some values := by
  induction values using reverseRecOn with
  | nil =>
    rfl
  | append_singleton values a ih =>
    have hinit : (range values.length).mapM f = some values := by
      refine ih fun i b hb => h i b ?_
      rw [getElem?_append_left (List.getElem?_eq_some_iff.1 hb).1, hb]
    have hlast : f values.length = some a := h _ _ (by simp)
    rw [length_append, length_singleton, range_succ, mapM_append, hinit]
    simp [hlast]

section

variable (hfits : TreeFits k.degree k.size k.treeRoot) (hr : r < k.size)
include hfits hr

theorem upResult_of_leaf (hleaf : (k.yyy r).numChildren = 0) :
    k.upResult r (k.ups (k.relabel r)) = k.startResult r := by
  rw [upResult, isEmpty_ups hfits hr, hleaf]
  rfl

theorem Collects.mapM_eq {mydata : Nat → T} (hcollects : Collects k r arrived l)
    (hmydata : k.mydata r = some mydata) (hall : ∀ i < (k.yyy r).numChildren, arrived (.recvUp i)) :
    (range (k.yyy r).numChildren).mapM (m := Option) l.m_bufV =
      some ((k.ups (k.relabel r)).map childInput) := by
  rw [← length_ups hfits hr] at hall ⊢
  rw [← length_map (f := childInput)]
  refine mapM_range_eq fun i input hinput => ?_
  rw [getElem?_map, map_eq_some_iff] at hinput
  obtain ⟨data, hdata, rfl⟩ := hinput
  rw [(hcollects i data hdata).1 (hall i (List.getElem?_eq_some_iff.1 hdata).1), hmydata]
  cases data <;> rfl

end

theorem reduceChildren_eq {g : T → T → T} (ha : k.Accepted g) (hr : r < k.size)
    (hcommon : Common k r l) (htype : k.type ≠ .Bcast) (hne : (k.yyy r).numChildren ≠ 0)
    (hresult : l.m_event.result = k.startResult r) (hcollects : Collects k r arrived l)
    (hall : ∀ i < (k.yyy r).numChildren, arrived (.recvUp i)) :
    l.reduceChildren = some (l.setResult (k.upResult r (k.ups (k.relabel r)))) := by
  obtain ⟨hop, hdtype, hstart⟩ := startEvent_op htype r
  have hevent := hcommon.event
  rw [reduceChildren, hcommon.mydata, upResult, isEmpty_ups ha.tree hr,
    if_neg (by simpa using hne)]
  cases hmydata : k.mydata r with
  | none =>
    rw [← hresult]
    rfl
  | some mydata =>
    have hbuffer := ha.results htype r hr hne (by rw [hmydata]; rfl)
    obtain ⟨result, hsome⟩ := isSome_iff_exists.1 hbuffer
    have hstart : k.startResult r = some result := hstart.trans hsome
    obtain ⟨out, hout, -⟩ := ha.computes htype mydata ((k.ups (k.relabel r)).map childInput) result
    have hop : l.m_event.op = k.op := by rw [hevent, ← hop]
    have hdtype : l.m_event.dtype = k.dtype := by rw [hevent, ← hdtype]
    rw [hresult, hstart, hcommon.m_yyy]
    dsimp only [bind_some]
    rw [hcollects.mapM_eq ha.tree hr hmydata hall, bind_some, hcommon.count, hop,
      hdtype, hout]
    rfl

/-- From `DoOp`, once every child's buffer has arrived. -/
theorem doOp_continues {g : T → T → T} (ha : k.Accepted g) (hr : r < k.size)
    (hcommon : Common k r l) (htype : k.type ≠ .Bcast) (hne : (k.yyy r).numChildren ≠ 0)
    (hwait : l.m_waitUpState = (.DoOp, 0)) (hsend : l.m_sendDownState = (.Sending, 0))
    (hresult : l.m_event.result = k.startResult r) (hcollects : Collects k r arrived l)
    (hall : ∀ i < (k.yyy r).numChildren, arrived (.recvUp i)) (harrived : ¬ arrived .recvDown) :
    Continues k r (k.sendUpCalls r) arrived l.waitUp := by
  rw [waitUp, hcommon.m_yyy, if_pos hne, hwait]
  rw [reduceChildren_eq ha hr hcommon htype hne hresult hcollects hall, bind_some]
  exact sendUp_continues ha.tree hr
    ((hcommon.setResult _).of_same rfl rfl rfl rfl rfl rfl) htype rfl hsend
    (afterUp_eq htype r).symm harrived

/-- From `Posting`, by induction on the receives left. -/
theorem posting_continues {i : Nat} (hcommon : Common k r l) (htype : k.type ≠ .Bcast)
    (hi : i ≤ (k.yyy r).numChildren) (hne : (k.yyy r).numChildren ≠ 0)
    (hstate : l.m_state = .WaitUp)
    (hwait : l.m_waitUpState = if i = (k.yyy r).numChildren then (.Waiting, 0) else (.Posting, i))
    (hsend : l.m_sendDownState = (.Sending, 0)) (hresult : l.m_event.result = k.startResult r)
    (hcollects : Collects k r arrived l) (harrived : ¬ arrived .recvDown) :
    Continues k r ((range' i ((k.yyy r).numChildren - i)).map (k.receiveCall r) ++
      ⟨[], some (k.receiveSlots r)⟩ :: k.sendUpCalls r) arrived l.waitUp := by
  rw [waitUp, hcommon.m_yyy, if_pos hne, hwait]
  rcases eq_or_lt_of_le hi with rfl | hlt
  · rw [if_pos rfl, Nat.sub_self]
    exact ⟨_, _, { l with m_waitUpState := (.DoOp, 0) }, rfl, rfl,
      .waiting (hcommon.of_same rfl rfl rfl rfl rfl rfl) htype hne hstate rfl hsend hresult
        hcollects harrived⟩
  · rw [if_neg hlt.ne, range'_sub_eq_cons hlt, map_cons, cons_append]
    refine ⟨_, _, { l with m_waitUpState :=
        if i + 1 = (k.yyy r).numChildren then (.Waiting, 0) else (.Posting, i + 1) }, rfl, ?_,
      .posting (hcommon.of_same rfl rfl rfl rfl rfl rfl) htype hlt hne hstate rfl hsend hresult
        hcollects harrived⟩
    rw [hcommon.genTag]
    rfl

theorem leaf_continues (hfits : TreeFits k.degree k.size k.treeRoot) (hr : r < k.size)
    (hcommon : Common k r l) (htype : k.type ≠ .Bcast) (hleaf : (k.yyy r).numChildren = 0)
    (hsend : l.m_sendDownState = (.Sending, 0)) (hresult : l.m_event.result = k.startResult r)
    (harrived : ¬ arrived .recvDown) :
    Continues k r (k.sendUpCalls r) arrived l.waitUp := by
  rw [waitUp, hcommon.m_yyy, if_neg (not_not_intro hleaf)]
  refine sendUp_continues hfits hr (hcommon.of_same rfl rfl rfl rfl rfl rfl) htype rfl hsend ?_
    harrived
  rw [afterUp_eq htype, upResult_of_leaf hfits hr hleaf]
  exact hresult

end Up

section Enter

variable [Add T] [LT T] [DecidableLT T] [Inhabited T]
variable {arrived : TreeSlot → Prop} {g : T → T → T}

theorem sent_continues (hcommon : Common k r l) (htype : k.type ≠ .Reduce)
    (hne : (k.yyy r).numChildren ≠ 0) (hsend : l.m_sendDownState = (.Waiting, 0))
    (hresult : l.m_event.result = k.downResult (k.relabel r))
    (hparent : (k.yyy r).parent = none ∨ arrived .recvDown) :
    Continues k r (⟨[], some (k.sendSlots r)⟩ :: exitPart) arrived l.sendDown := by
  refine ⟨_, _, { l with m_state := .Exit }, rfl, ?_, .waitingSent
    (hcommon.of_same rfl rfl rfl rfl rfl rfl) htype rfl ?_ hparent⟩
  · rw [sendDown, hcommon.m_yyy, hcommon.type, if_pos ⟨htype, hne⟩, hsend]
    rfl
  · rw [finalResult, if_neg htype]
    exact hresult

theorem Common.enter (h : Common k r l) :
    CollectiveTreeFuncSM.process.enter l = l.handleEnterEvent :=
  if_pos h.started

omit [Inhabited T] in
theorem handleEnterEvent_of_goesDown (hcommon : Common k r l) (hstate : GoesDown k r l) :
    l.handleEnterEvent = l.sendDown := by
  rcases hstate with hstate | ⟨hparent, hstate⟩
  · rw [handleEnterEvent, hstate]
  · have hdown : l.waitDown = l.sendDown := by
      rw [waitDown, hcommon.m_yyy, hparent]
      exact ite_self _
    rcases hstate with hstate | hstate
    · rw [handleEnterEvent, hstate]
      rw [sendUp, hcommon.m_yyy, hparent]
      exact hdown
    · rw [handleEnterEvent, hstate]
      exact hdown

/-- Entered, a rank begins its script. -/
theorem start_continues (ha : k.Accepted g) (hr : r < k.size) (harrived : ∀ slot, ¬ arrived slot) :
    Continues k r (k.script r) arrived (k.initial r).start.handleEnterEvent := by
  have hcommon : Common k r (k.initial r).start := ⟨rfl, rfl, rfl, rfl, rfl, rfl⟩
  have htypes : (k.initial r).m_event.type = k.type := startEvent_type k r
  rw [script, if_pos hr]
  by_cases htype : k.type = .Bcast
  · have hstate : (k.initial r).start.m_state = .WaitDown := if_pos (htypes.trans htype)
    rw [if_pos htype, handleEnterEvent, hstate]
    refine waitDown_continues ha.tree hcommon (fun _ => .inr hstate) rfl ?_ (harrived _)
    rw [afterUp, if_pos htype, relabel_relabel]
    rfl
  · have hstate : (k.initial r).start.m_state = .WaitUp :=
      if_neg fun h => htype (htypes.symm.trans h)
    rw [if_neg htype, handleEnterEvent, hstate, upPart]
    by_cases hleaf : (k.yyy r).numChildren = 0
    · rw [if_pos hleaf, nil_append]
      exact leaf_continues ha.tree hr hcommon htype hleaf rfl rfl (harrived _)
    · rw [if_neg hleaf, append_assoc]
      refine posting_continues hcommon htype (Nat.zero_le _) hleaf hstate ?_ rfl rfl
        (fun i data _ => ⟨fun h => absurd h (harrived _), fun _ => ?_⟩) (harrived _)
      · rw [if_neg fun h => hleaf h.symm]
        rfl
      · rw [← startEvent_mydata k r]
        rfl

/-- Woken with all it waited for, a rank goes on with its script. -/
theorem At.continues {ws : List TreeSlot} {done calls : List (TreeCall T)} (ha : k.Accepted g)
    (hr : r < k.size) (hsplit : k.script r = done ++ calls) (hat : At k r (some ws) calls arrived l)
    (hall : ∀ slot ∈ ws, ∀ src t, .recv slot src t ∈ requestsOf done → arrived slot) :
    Continues k r calls arrived (CollectiveTreeFuncSM.process.enter l) := by
  cases hat with
  | idle harrived =>
    exact start_continues ha hr harrived
  | posting hcommon htype hi hne hstate hwait hsend hresult hcollects harrived =>
    rw [hcommon.enter, handleEnterEvent, hstate]
    exact posting_continues hcommon htype hi hne hstate hwait hsend hresult hcollects harrived
  | waiting hcommon htype hne hstate hwait hsend hresult hcollects harrived =>
    rw [hcommon.enter, handleEnterEvent, hstate]
    rw [script, if_pos hr, if_neg htype] at hsplit
    have hdone : k.upPart r = done := append_cancel_right hsplit
    refine doOp_continues ha hr hcommon htype hne hwait hsend hresult hcollects (fun i hi => ?_)
      harrived
    exact hall _ (mem_map.2 ⟨i, mem_range.2 hi, rfl⟩) _ _
      (hdone ▸ recvUp_mem_upPart hi)
  | sentUp hcommon htype hparent hstate hsend hresult harrived =>
    rw [hcommon.enter, handleEnterEvent, hstate]
    exact waitDown_continues ha.tree hcommon (fun _ => .inr hstate) hsend hresult harrived
  | receiving hcommon htype hparent hstate hsend hresult hbefore =>
    rw [hcommon.enter, handleEnterEvent, hstate]
    obtain ⟨p, hp⟩ := ne_none_iff_exists'.1 hparent
    have hrecv := recvDown_mem_recvPart htype hp
    have harrived : arrived .recvDown := by
      refine hall _ mem_cons_self p (k.tag r) ?_
      obtain ⟨before, hend⟩ := exists_before_sendDownCalls hr
      rw [← append_cancel_right (hend.symm.trans hsplit), requestsOf_append]
      exact mem_append_right _ hrecv
    refine sendDown_continues hcommon (fun _ => .inl hstate) hsend ?_ (.inr (.inr harrived))
    rw [finalResult, if_neg htype]
    exact hresult harrived
  | @sending _ _ i hcommon htype hi hne hstate hsend hresult hparent =>
    rw [hcommon.enter, handleEnterEvent_of_goesDown hcommon hstate]
    rcases eq_or_lt_of_le hi with rfl | hlt
    · rw [if_pos rfl] at hsend
      rw [Nat.sub_self]
      exact sent_continues hcommon htype hne hsend hresult hparent
    · rw [if_neg hlt.ne] at hsend
      exact sending_continues hcommon htype hlt hstate hsend hresult hparent
  | waitingSent hcommon htype hstate hresult hparent =>
    rw [hcommon.enter, handleEnterEvent, hstate]
    exact ⟨_, _, l, rfl, rfl, .finished hcommon hresult (.inr hparent)⟩

end Enter

end TreeCollective

end SstElements.Firefly
