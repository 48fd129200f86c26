import SstElements.Firefly.CollectiveScripts

/-!
# The messages of a collective

On every channel the scripts send what they receive: one message from a child to its parent,
or one from a parent to its child.
-/

namespace SstElements.Firefly

open Library CollectiveTreeFuncSM Function List Option

namespace TreeCollective

variable {T : Type} {k : TreeCollective T} {r : Nat} {p : Nat}

section Shape

theorem relabel_relabel (k : TreeCollective T) (r : Nat) : k.relabel (k.relabel r) = r :=
  Equiv.swap_apply_self _ _ _

theorem relabel_lt (hroot : k.treeRoot < k.size) : k.relabel r < k.size ↔ r < k.size :=
  YYY.swap_lt hroot

theorem myVirtRank_yyy (k : TreeCollective T) (r : Nat) : (k.yyy r).myVirtRank = k.relabel r :=
  YYY.myVirtRank_eq _

section

variable (h : TreeFits k.degree k.size k.treeRoot)
include h

theorem children_tree (hr : r < k.size) :
    k.tree.children (k.relabel r) = (k.yyy r).children.map k.relabel := by
  have hchildren := @YYY.children_eq (k.yyy r) h hr
  rw [myVirtRank_yyy] at hchildren
  rw [hchildren, List.map_map]
  refine (List.map_id _).symm.trans (map_congr_left fun w _ => ?_)
  exact (k.relabel_relabel w).symm

theorem parent_eq (r : Nat) :
    (k.yyy r).parent =
      if 0 < k.relabel r then some (k.relabel (k.tree.parent (k.relabel r))) else none := by
  rw [@YYY.parent_eq (k.yyy r) h.degree_pos, myVirtRank_yyy]
  rfl

theorem parent_eq_none_iff (r : Nat) :
    (k.yyy r).parent = none ↔ k.relabel r = 0 := by
  rw [parent_eq h]
  by_cases hpos : 0 < k.relabel r
  · simp [hpos, hpos.ne']
  · simp [hpos]
    omega

theorem relabel_parent (hparent : (k.yyy r).parent = some p) :
    0 < k.relabel r ∧ k.tree.parent (k.relabel r) = k.relabel p ∧ k.relabel p < k.relabel r := by
  rw [parent_eq h] at hparent
  split_ifs at hparent with hpos
  cases hparent
  rw [relabel_relabel]
  exact ⟨hpos, rfl, k.tree.parent_lt _ hpos⟩

theorem nodup_children (hr : r < k.size) : (k.yyy r).children.Nodup := by
  rw [@YYY.children_eq (k.yyy r) h hr]
  exact (Library.RootedTree.nodup_children _ _).map (Equiv.injective _)

theorem calcChild_lt {i : Nat} (hr : r < k.size) (hi : i < (k.yyy r).numChildren) :
    (k.yyy r).calcChild i < k.size :=
  (spanningTree h).members r hr _
    (mem_map.2 ⟨i, mem_range.2 hi, rfl⟩)

theorem parent_lt (hr : r < k.size) (hparent : (k.yyy r).parent = some p) :
    p < k.size := by
  have hlt := (relabel_parent h hparent).2.2
  rw [← relabel_lt h.root_lt] at hr ⊢
  exact hlt.trans hr

theorem count_children {a b : Nat} (ha : a < k.size) (hb : b < k.size) :
    ((range (k.yyy b).numChildren).countP fun i => (k.yyy b).calcChild i = a) =
      ((k.yyy a).parent.toList.countP fun p => p = b) := by
  have hagree := (spanningTree h).agree a ha b hb
  change a ∈ (k.yyy b).children ↔ (k.yyy a).parent = some b at hagree
  have hcount : ((range (k.yyy b).numChildren).countP fun i => (k.yyy b).calcChild i = a) =
      (k.yyy b).children.count a := by
    rw [YYY.children, count_eq_countP, countP_map]
    rfl
  rw [hcount, (nodup_children h hb).count]
  cases hparent : (k.yyy a).parent with
  | none =>
    rw [hparent] at hagree
    rw [if_neg fun h => by cases hagree.1 h]
    rfl
  | some p =>
    rw [hparent, Option.some.injEq] at hagree
    simp only [hagree, toList_some, countP_singleton, decide_eq_true_eq]

end

end Shape

section Requests

variable [Add T] [LT T] [DecidableLT T] [Inhabited T]

omit [Add T] [LT T] [DecidableLT T] [Inhabited T] in
theorem requestsOf_map_calls
    {calls : Nat → TreeCall T} {request : Nat → Request TreeSlot Nat (Payload T)}
    (h : ∀ i, (calls i).requests = [request i]) (indices : List Nat) :
    requestsOf (indices.map calls) = indices.map request := by
  induction indices with
  | nil =>
    rfl
  | cons i indices ih =>
    rw [map_cons, requestsOf_cons, h, ih, map_cons, singleton_append]

omit [Add T] [LT T] [DecidableLT T] [Inhabited T] in
theorem requestsOf_upPart (k : TreeCollective T) (r : Nat) :
    requestsOf (k.upPart r) = (range (k.yyy r).numChildren).map fun i =>
      .recv (.recvUp i) ((k.yyy r).calcChild i) (k.tag r) := by
  rw [upPart]
  split_ifs with hleaf
  · rw [hleaf]
    rfl
  · rw [requestsOf_append, requestsOf_map_calls (fun _ => rfl), range_eq_range']
    exact append_nil _

theorem requestsOf_parentPart (k : TreeCollective T) (r : Nat) :
    requestsOf (k.parentPart r) = (k.yyy r).parent.toList.map fun p =>
      .send .sendUp p (k.tag r) (k.upPayload (k.relabel r)) :=
  requestsOf_map_calls (fun _ => rfl) _

omit [Add T] [LT T] [DecidableLT T] [Inhabited T] in
theorem requestsOf_recvPart (k : TreeCollective T) (r : Nat) :
    requestsOf (k.recvPart r) = if k.type = .Reduce then []
      else (k.yyy r).parent.toList.map fun p => .recv .recvDown p (k.tag r) := by
  rw [recvPart]
  split_ifs
  · rfl
  · exact requestsOf_map_calls (fun _ => rfl) _

theorem requestsOf_downPart (k : TreeCollective T) (r : Nat) :
    requestsOf (k.downPart r) = if k.type = .Reduce then []
      else (range (k.yyy r).numChildren).map fun i =>
        .send (.sendDown i) ((k.yyy r).calcChild i) (k.tag r)
          (payload k.count (k.downResult (k.relabel r))) := by
  rw [downPart]
  by_cases htype : k.type = .Reduce
  · rw [if_pos htype, if_pos (.inl htype)]
    rfl
  · rw [if_neg htype]
    by_cases hleaf : (k.yyy r).numChildren = 0
    · rw [if_pos (.inr hleaf), hleaf]
      rfl
    · rw [if_neg (by tauto), requestsOf_append, requestsOf_map_calls (fun _ => rfl),
        range_eq_range']
      exact append_nil _

/-- A rank works up to its parent, then down to its children. -/
theorem script_eq (hr : r < k.size) :
    k.script r = (if k.type = .Bcast then [] else k.upPart r ++ k.parentPart r) ++
      (k.recvPart r ++ (k.downPart r ++ exitPart)) := by
  rw [script, if_pos hr, sendUpCalls, waitDownCalls, sendDownCalls]
  split_ifs
  · rfl
  · rw [append_assoc]

theorem script_of_ne_bcast (hr : r < k.size) (htype : k.type ≠ .Bcast) :
    k.script r = k.upPart r ++ k.parentPart r ++ k.waitDownCalls r := by
  rw [script, if_pos hr, if_neg htype, sendUpCalls, append_assoc]

theorem exists_before_sendDownCalls (hr : r < k.size) :
    ∃ before, k.script r = before ++ k.recvPart r ++ k.sendDownCalls r :=
  ⟨_, by rw [script_eq hr, ← sendDownCalls, ← append_assoc]⟩

theorem exists_before_exitPart (hr : r < k.size) :
    ∃ before, k.script r = before ++ k.downPart r ++ exitPart :=
  ⟨_, by rw [script_eq hr, ← append_assoc, ← append_assoc]⟩

omit [Add T] [LT T] [DecidableLT T] [Inhabited T] in
theorem recvUp_mem_upPart {i : Nat} (hi : i < (k.yyy r).numChildren) :
    .recv (.recvUp i) ((k.yyy r).calcChild i) (k.tag r) ∈ requestsOf (k.upPart r) := by
  rw [requestsOf_upPart]
  exact mem_map.2 ⟨i, mem_range.2 hi, rfl⟩

theorem sendUp_mem_parentPart (hparent : (k.yyy r).parent = some p) :
    .send .sendUp p (k.tag r) (k.upPayload (k.relabel r)) ∈ requestsOf (k.parentPart r) := by
  rw [requestsOf_parentPart, hparent]
  exact mem_cons_self

omit [Add T] [LT T] [DecidableLT T] [Inhabited T] in
theorem recvDown_mem_recvPart (htype : k.type ≠ .Reduce) (hparent : (k.yyy r).parent = some p) :
    .recv .recvDown p (k.tag r) ∈ requestsOf (k.recvPart r) := by
  rw [requestsOf_recvPart, if_neg htype, hparent]
  exact mem_cons_self

theorem sendDown_mem_downPart {i : Nat} (htype : k.type ≠ .Reduce)
    (hi : i < (k.yyy r).numChildren) :
    .send (.sendDown i) ((k.yyy r).calcChild i) (k.tag r)
      (payload k.count (k.downResult (k.relabel r))) ∈ requestsOf (k.downPart r) := by
  rw [requestsOf_downPart, if_neg htype]
  exact mem_map.2 ⟨i, mem_range.2 hi, rfl⟩

/-- A rank sends its fold to its parent and the result to each child. -/
theorem messagesOf_script (hr : r < k.size) :
    messagesOf r (k.script r) = (if k.type = .Bcast then []
        else (k.yyy r).parent.toList.map fun p =>
          ⟨⟨r, p, k.tag r⟩, .sendUp, k.upPayload (k.relabel r)⟩) ++ (if k.type = .Reduce then []
        else (range (k.yyy r).numChildren).map fun i =>
          ⟨⟨r, (k.yyy r).calcChild i, k.tag r⟩, .sendDown i,
            payload k.count (k.downResult (k.relabel r))⟩) := by
  rw [script_eq hr]
  cases htype : k.type <;>
    simp [messagesOf, htype, requestsOf_upPart, requestsOf_parentPart, requestsOf_recvPart,
      requestsOf_downPart, exitPart, Request.message, comp_def]

/-- A rank waits for each child's fold and for the parent's result. -/
theorem receivesOf_script (hr : r < k.size) :
    receivesOf r (k.script r) = (if k.type = .Bcast then []
        else (range (k.yyy r).numChildren).map fun i =>
          ⟨⟨(k.yyy r).calcChild i, r, k.tag r⟩, .recvUp i⟩) ++ (if k.type = .Reduce then []
        else (k.yyy r).parent.toList.map fun p => ⟨⟨p, r, k.tag r⟩, .recvDown⟩) := by
  rw [script_eq hr]
  cases htype : k.type <;>
    simp [receivesOf, htype, requestsOf_upPart, requestsOf_parentPart, requestsOf_recvPart,
      requestsOf_downPart, exitPart, Request.receive, comp_def]

end Requests

section Matching

variable [Add T] [LT T] [DecidableLT T] [Inhabited T] {g : T → T → T}

/-- The data that arrives at a rank. -/
def value (k : TreeCollective T) (r : Nat) : TreeSlot → Payload T
  | .recvUp i =>
    k.upPayload (k.relabel ((k.yyy r).calcChild i))
  | .recvDown =>
    payload k.count (k.downResult (k.tree.parent (k.relabel r)))
  | .sendUp | .sendDown _ =>
    none

/-- The number of messages to the parent on a channel. -/
def upCount (k : TreeCollective T) (c : Channel Nat) : Nat :=
  if k.type = .Bcast ∨ c.tag ≠ k.tag 0 then 0
  else (k.yyy c.src).parent.toList.countP fun p => p = c.dst

/-- The number of messages from the parent on a channel. -/
def downCount (k : TreeCollective T) (c : Channel Nat) : Nat :=
  if k.type = .Reduce ∨ c.tag ≠ k.tag 0 then 0
  else (k.yyy c.dst).parent.toList.countP fun p => p = c.src

/-- The part of a script that is left out for one type puts as many items on a channel as it has. -/
theorem map_filter_part {α β : Type} {l : List α} {f : α → β} {q : α → Bool} {x : β} {n : Nat}
    {skip other : Prop} [Decidable skip] [Decidable other] (h : ∀ a ∈ l, q a → f a = x)
    (hcount : l.countP q = if other then 0 else n) :
    ((if skip then [] else l).filter q).map f = replicate (if skip ∨ other then 0 else n) x := by
  by_cases hskip : skip
  · rw [if_pos hskip, if_pos (.inl hskip)]
    rfl
  · rw [if_neg hskip, if_congr (or_iff_right hskip) rfl rfl, ← hcount, eq_replicate_iff, length_map,
      countP_eq_length_filter]
    refine ⟨rfl, fun b hb => ?_⟩
    obtain ⟨a, ha, rfl⟩ := mem_map.1 hb
    obtain ⟨hmem, hq⟩ := mem_filter.1 ha
    exact h a hmem hq

omit [Inhabited T] in
theorem Accepted.tag_eq (ha : k.Accepted g) (hr : r < k.size) : k.tag r = k.tag 0 := by
  have hseq := ha.counters r hr
  rw [tag, tag, Nat.add_mod, hseq, ← Nat.add_mod]

theorem sendsOn_script (ha : k.Accepted g) (c : Channel Nat) (hsrc : c.src < k.size)
    (hdst : c.dst < k.size) :
    (sendsOn c (k.script c.src)).map Message.data =
      replicate (k.upCount c) (k.upPayload (k.relabel c.src)) ++
      replicate (k.downCount c) (payload k.count (k.downResult (k.relabel c.src))) := by
  obtain ⟨src, dst, t⟩ := c
  have htag := ha.tag_eq hsrc
  have hcount := count_children ha.tree hdst hsrc
  rw [sendsOn, messagesOf_script hsrc, filter_append, map_append, upCount, downCount]
  congr 1
  · refine map_filter_part (fun m hm _ => ?_) ?_
    · obtain ⟨p, -, rfl⟩ := mem_map.1 hm
      rfl
    · by_cases ht : t = k.tag 0
      · simp [countP_map, ht, htag, comp_def]
      · simp [countP_map, ht, htag, comp_def, Ne.symm ht]
  · refine map_filter_part (fun m hm _ => ?_) ?_
    · obtain ⟨i, -, rfl⟩ := mem_map.1 hm
      rfl
    · by_cases ht : t = k.tag 0
      · simp [countP_map, ht, htag, comp_def, hcount]
      · simp [countP_map, ht, htag, comp_def, Ne.symm ht]

theorem recvsOn_script (ha : k.Accepted g) (c : Channel Nat) (hsrc : c.src < k.size)
    (hdst : c.dst < k.size) :
    (recvsOn c (k.script c.dst)).map (fun v => k.value c.dst v.slot) =
      replicate (k.upCount c) (k.upPayload (k.relabel c.src)) ++
      replicate (k.downCount c) (payload k.count (k.downResult (k.relabel c.src))) := by
  obtain ⟨src, dst, t⟩ := c
  have htag := ha.tag_eq hdst
  have hcount := count_children ha.tree hsrc hdst
  rw [recvsOn, receivesOf_script hdst, filter_append, map_append, upCount, downCount]
  congr 1
  · refine map_filter_part (fun v hv hq => ?_) ?_
    · obtain ⟨i, -, rfl⟩ := mem_map.1 hv
      have hchannel := congrArg Channel.src (of_decide_eq_true hq)
      exact congrArg (fun a => k.upPayload (k.relabel a)) hchannel
    · by_cases ht : t = k.tag 0
      · simp [countP_map, ht, htag, comp_def, hcount]
      · simp [countP_map, ht, htag, comp_def, Ne.symm ht]
  · refine map_filter_part (fun v hv hq => ?_) ?_
    · obtain ⟨p, hp, rfl⟩ := mem_map.1 hv
      have hchannel : p = src := congrArg Channel.src (of_decide_eq_true hq)
      have hparent : (k.yyy dst).parent = some src := by
        rw [← hchannel]
        exact mem_toList.1 hp
      change payload k.count (k.downResult (k.tree.parent (k.relabel dst))) = _
      rw [(relabel_parent ha.tree hparent).2.1]
    · by_cases ht : t = k.tag 0
      · simp [countP_map, ht, htag, comp_def]
      · simp [countP_map, ht, htag, comp_def, Ne.symm ht]

theorem sendsOn_of_dst (ha : k.Accepted g) (c : Channel Nat) (hsrc : c.src < k.size)
    (hdst : k.size ≤ c.dst) :
    sendsOn c (k.script c.src) = [] := by
  rw [sendsOn, messagesOf_script hsrc, filter_eq_nil_iff]
  intro m hm
  rw [decide_eq_true_eq]
  rintro rfl
  simp only [mem_append, mem_ite_nil_left, List.mem_map] at hm
  rcases hm with ⟨-, p, hp, heq⟩ | ⟨-, i, hi, heq⟩ <;> rw [← heq] at hdst
  · have hlt := parent_lt ha.tree hsrc (mem_toList.1 hp)
    exact absurd hlt (Nat.not_lt_of_le hdst)
  · have hlt := calcChild_lt ha.tree hsrc (mem_range.1 hi)
    exact absurd hlt (Nat.not_lt_of_le hdst)

theorem recvsOn_of_src (ha : k.Accepted g) (c : Channel Nat) (hdst : c.dst < k.size)
    (hsrc : k.size ≤ c.src) :
    recvsOn c (k.script c.dst) = [] := by
  rw [recvsOn, receivesOf_script hdst, filter_eq_nil_iff]
  intro v hv
  rw [decide_eq_true_eq]
  rintro rfl
  simp only [mem_append, mem_ite_nil_left, List.mem_map] at hv
  rcases hv with ⟨-, i, hi, heq⟩ | ⟨-, p, hp, heq⟩ <;> rw [← heq] at hsrc
  · have hlt := calcChild_lt ha.tree hdst (mem_range.1 hi)
    exact absurd hlt (Nat.not_lt_of_le hsrc)
  · have hlt := parent_lt ha.tree hdst (mem_toList.1 hp)
    exact absurd hlt (Nat.not_lt_of_le hsrc)

theorem script_of_size_le (hr : k.size ≤ r) : k.script r = [] :=
  if_neg (Nat.not_lt_of_le hr)

/-- On every channel, what is sent is what the receiver's script takes. -/
theorem matching (ha : k.Accepted g) (c : Channel Nat) :
    (sendsOn c (k.script c.src)).map Message.data =
      (recvsOn c (k.script c.dst)).map fun v => k.value c.dst v.slot := by
  rcases lt_or_ge c.src k.size with hsrc | hsrc <;>
    rcases lt_or_ge c.dst k.size with hdst | hdst
  · rw [sendsOn_script ha c hsrc hdst, recvsOn_script ha c hsrc hdst]
  · rw [sendsOn_of_dst ha c hsrc hdst, script_of_size_le hdst]
    rfl
  · rw [recvsOn_of_src ha c hdst hsrc, script_of_size_le hsrc]
    rfl
  · rw [script_of_size_le hsrc, script_of_size_le hdst]
    rfl

theorem length_sendsOn_le (ha : k.Accepted g) (c : Channel Nat) :
    (sendsOn c (k.script c.src)).length ≤ 1 := by
  rcases lt_or_ge c.src k.size with hsrc | hsrc
  · rcases lt_or_ge c.dst k.size with hdst | hdst
    · have hlength := congrArg length (sendsOn_script ha c hsrc hdst)
      rw [length_map, length_append, length_replicate, length_replicate]
        at hlength
      rw [hlength, upCount, downCount]
      -- Two ranks are not the parents of each other.
      have hnot : (k.yyy c.src).parent = some c.dst → (k.yyy c.dst).parent ≠ some c.src :=
        fun hup hdown => lt_asymm (relabel_parent ha.tree hup).2.2
          (relabel_parent ha.tree hdown).2.2
      cases hup : (k.yyy c.src).parent <;> cases hdown : (k.yyy c.dst).parent <;>
        simp only [toList_some, toList_none, countP_singleton, countP_nil,
          decide_eq_true_eq] <;> split_ifs <;> simp_all
    · rw [sendsOn_of_dst ha c hsrc hdst]
      exact Nat.zero_le _
  · rw [script_of_size_le hsrc]
    exact Nat.zero_le _

theorem length_recvsOn_le (ha : k.Accepted g) (c : Channel Nat) :
    (recvsOn c (k.script c.dst)).length ≤ 1 := by
  have hlength := congrArg length (matching ha c)
  rw [length_map, length_map] at hlength
  exact hlength ▸ length_sendsOn_le ha c

end Matching

end TreeCollective

end SstElements.Firefly
