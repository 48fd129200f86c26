import SstElements.Firefly.CollectiveSteps

/-!
# The order of the ranks

Messages that arrive keep a rank in its script, and no rank waits for one that waits for it:
the way up comes before the way down, the leaves before the root on the way up and the root
before the leaves on the way down.
-/

namespace SstElements.Firefly

open Library CollectiveTreeFuncSM Function List Option

namespace TreeCollective

variable {T : Type} [Add T] [LT T] [DecidableLT T] [Inhabited T]
variable {k : TreeCollective T} {g : T → T → T} {r : Nat} {data : Payload T}
variable {request : Request TreeSlot Nat (Payload T)}

section Requests

variable {slot : TreeSlot} {src t : Nat} {done rest : List (TreeCall T)}

/-- Every receive is from a child on the way up or the parent on the way down. -/
theorem recv_mem_script (hr : r < k.size) (h : .recv slot src t ∈ requestsOf (k.script r)) :
    t = k.tag r ∧ ((k.type ≠ .Bcast ∧
          ∃ i < (k.yyy r).numChildren, slot = .recvUp i ∧ src = (k.yyy r).calcChild i) ∨
        (k.type ≠ .Reduce ∧ slot = .recvDown ∧ (k.yyy r).parent = some src)) := by
  have hmem : (⟨⟨src, r, t⟩, slot⟩ : Receive TreeSlot Nat) ∈ receivesOf r (k.script r) :=
    mem_receivesOf_iff.2 ⟨rfl, h⟩
  simp only [receivesOf_script hr, mem_append, mem_ite_nil_left, List.mem_map] at hmem
  rcases hmem with ⟨htype, i, hi, heq⟩ | ⟨htype, p, hp, heq⟩ <;> cases heq
  · exact ⟨rfl, .inl ⟨htype, i, mem_range.1 hi, rfl, rfl⟩⟩
  · exact ⟨rfl, .inr ⟨htype, rfl, mem_toList.1 hp⟩⟩

theorem send_mem_script {dst : Nat} (hr : r < k.size)
    (h : .send slot dst t data ∈ requestsOf (k.script r)) :
    t = k.tag r ∧ ((k.type ≠ .Bcast ∧ slot = .sendUp ∧ (k.yyy r).parent = some dst) ∨
        (k.type ≠ .Reduce ∧
          ∃ i < (k.yyy r).numChildren, slot = .sendDown i ∧ dst = (k.yyy r).calcChild i)) := by
  have hmem : (⟨⟨r, dst, t⟩, slot, data⟩ : Message TreeSlot Nat (Payload T)) ∈
      messagesOf r (k.script r) := mem_messagesOf_iff.2 ⟨rfl, h⟩
  simp only [messagesOf_script hr, mem_append, mem_ite_nil_left, List.mem_map] at hmem
  rcases hmem with ⟨htype, p, hp, heq⟩ | ⟨htype, i, hi, heq⟩ <;> cases heq
  · exact ⟨rfl, .inl ⟨htype, rfl, mem_toList.1 hp⟩⟩
  · exact ⟨rfl, .inr ⟨htype, i, mem_range.1 hi, rfl, rfl⟩⟩

theorem mem_script_of_done (hsplit : k.script r = done ++ rest) (hmem : request ∈ requestsOf done) :
    request ∈ requestsOf (k.script r) := by
  rw [hsplit, requestsOf_append]
  exact mem_append_left _ hmem

theorem slots_nodup (k : TreeCollective T) (r : Nat) :
    ((requestsOf (k.script r)).map Request.slot).Nodup := by
  rcases lt_or_ge r k.size with hr | hr
  · have hup : ((range (k.yyy r).numChildren).map TreeSlot.recvUp).Nodup :=
      nodup_range.map fun a b h => TreeSlot.recvUp.inj h
    have hdown : ((range (k.yyy r).numChildren).map TreeSlot.sendDown).Nodup :=
      nodup_range.map fun a b h => TreeSlot.sendDown.inj h
    have hslots : (requestsOf (k.script r)).map Request.slot =
        (if k.type = .Bcast then []
          else (range (k.yyy r).numChildren).map TreeSlot.recvUp ++
            (k.yyy r).parent.toList.map fun _ => TreeSlot.sendUp) ++
        if k.type = .Reduce then []
          else ((k.yyy r).parent.toList.map fun _ => TreeSlot.recvDown) ++
            (range (k.yyy r).numChildren).map TreeSlot.sendDown := by
      rw [script_eq hr]
      cases htype : k.type <;>
        simp [htype, requestsOf_upPart, requestsOf_parentPart, requestsOf_recvPart,
          requestsOf_downPart, exitPart, Request.slot, comp_def]
    rw [hslots]
    cases k.type <;> cases (k.yyy r).parent <;>
      simp [nodup_append, hup, hdown]
  · rw [script_of_size_le hr]
    exact nodup_nil

theorem slot_ne_of_split {request later : Request TreeSlot Nat (Payload T)}
    (hsplit : k.script r = done ++ rest) (hdone : request ∈ requestsOf done)
    (hrest : later ∈ requestsOf rest) :
    request.slot ≠ later.slot := by
  have hnodup := k.slots_nodup r
  rw [hsplit, requestsOf_append, map_append, nodup_append] at hnodup
  exact hnodup.2.2 _ (mem_map_of_mem hdone) _ (mem_map_of_mem hrest)

theorem recvDown_not_mem {before : List (TreeCall T)} (hr : r < k.size)
    (hsplit : k.script r = done ++ rest) (hrest : rest = before ++ k.waitDownCalls r) :
    .recv .recvDown src t ∉ requestsOf done := by
  intro hmem
  rcases (recv_mem_script hr (mem_script_of_done hsplit hmem)).2 with ⟨-, i, -, hslot, -⟩ |
      ⟨htype, -, hparent⟩
  · cases hslot
  · have hlater : .recv .recvDown src (k.tag r) ∈ requestsOf rest := by
      rw [hrest, waitDownCalls, requestsOf_append, requestsOf_append, requestsOf_recvPart,
        if_neg htype, hparent]
      exact mem_append_right _ (mem_append_left _ mem_cons_self)
    exact slot_ne_of_split hsplit hmem hlater rfl

end Requests

variable {w : Option (List TreeSlot)}

section Writes

variable {l : CollectiveTreeFuncSM T} {arrived : TreeSlot → Prop}

theorem ups_getElem? {i : Nat} (ha : k.Accepted g) (hr : r < k.size)
    (h : (k.ups (k.relabel r))[i]? = some data) :
    data = k.value r (.recvUp i) := by
  rw [ups, children_tree ha.tree hr, YYY.children, List.map_map, List.map_map,
    getElem?_map, map_eq_some_iff] at h
  obtain ⟨j, hj, rfl⟩ := h
  obtain ⟨hlt, hindex⟩ := List.getElem?_eq_some_iff.1 hj
  rw [getElem_range] at hindex
  rw [hindex]
  rfl

/-- A child's message goes to the buffer kept for that child. -/
theorem Collects.write {i : Nat} (ha : k.Accepted g) (hr : r < k.size) (h : Collects k r arrived l)
    (hnew : ¬ arrived (.recvUp i)) :
    Collects k r (fun x => arrived x ∨ x = .recvUp i)
      (CollectiveTreeFuncSM.write (.recvUp i) (k.value r (.recvUp i)) l) := by
  intro j data hdata
  obtain ⟨hin, hout⟩ := h j data hdata
  by_cases hj : j = i
  · subst hj
    refine ⟨fun _ => ?_, fun hnot => absurd (.inr rfl) hnot⟩
    change update l.m_bufV j _ j = _
    rw [update_self, hout hnew, ← ups_getElem? ha hr hdata]
  · have hslot : TreeSlot.recvUp j ≠ .recvUp i := fun heq => hj (TreeSlot.recvUp.inj heq)
    have hkept : (CollectiveTreeFuncSM.write (.recvUp i) (k.value r (.recvUp i)) l).m_bufV j =
        l.m_bufV j := update_of_ne hj ..
    rw [hkept]
    exact ⟨fun harr => hin (harr.resolve_right hslot),
      fun hnot => hout fun harr => hnot (.inl harr)⟩

theorem downResult_of_parent {p : Nat} (hfits : TreeFits k.degree k.size k.treeRoot)
    (hparent : (k.yyy r).parent = some p) :
    copyIn (k.value r .recvDown) (k.afterUp (k.relabel r)) = k.downResult (k.relabel r) := by
  rw [downResult, if_pos (relabel_parent hfits hparent).1]
  rfl

/-- A delivery keeps a rank where it is in its script. -/
theorem At.write {done rest : List (TreeCall T)} {slot : TreeSlot} {src t : Nat} (ha : k.Accepted g)
    (hr : r < k.size) (hsplit : k.script r = done ++ rest) (hat : At k r w rest arrived l)
    (hmem : .recv slot src t ∈ requestsOf done) (hnew : ¬ arrived slot) :
    At k r w rest (fun x => arrived x ∨ x = slot)
      (CollectiveTreeFuncSM.write slot (k.value r slot) l) := by
  have hslots := (recv_mem_script hr (mem_script_of_done hsplit hmem)).2
  -- The message of the parent arrives after the rank has asked for it.
  have hearly : ∀ before, rest = before ++ k.waitDownCalls r → slot ≠ .recvDown := by
    rintro before hrest rfl
    exact recvDown_not_mem hr hsplit hrest hmem
  have hkept : slot ≠ .recvDown → ¬ arrived .recvDown → ¬ (arrived .recvDown ∨ .recvDown = slot) :=
    fun hne harrived h => h.elim harrived fun heq => hne heq.symm
  have hcollects : slot ≠ .recvDown → Collects k r arrived l →
      Collects k r (fun x => arrived x ∨ x = slot)
        (CollectiveTreeFuncSM.write slot (k.value r slot) l) := by
    intro hne hcollects
    rcases hslots with ⟨-, i, -, rfl, -⟩ | ⟨-, hslot, -⟩
    · exact hcollects.write ha hr hnew
    · exact absurd hslot hne
  cases hat with
  | idle harrived =>
    have hdone : done = [] := self_eq_append_left.1 hsplit
    rw [hdone] at hmem
    cases hmem
  | @posting _ _ j hcommon htype hi hne hstate hwait hsend hresult hc harrived =>
    have hslot := hearly ((range' j ((k.yyy r).numChildren - j)).map (k.receiveCall r) ++
      ⟨[], some (k.receiveSlots r)⟩ :: k.parentPart r) (by simp [sendUpCalls])
    obtain ⟨-, i, -, rfl, -⟩ := hslots.resolve_right fun h => hslot h.2.1
    exact .posting (hcommon.of_same rfl rfl rfl rfl rfl rfl) htype hi hne hstate hwait hsend
      hresult (hcollects hslot hc) (hkept hslot harrived)
  | waiting hcommon htype hne hstate hwait hsend hresult hc harrived =>
    have hslot := hearly (k.parentPart r) rfl
    obtain ⟨-, i, -, rfl, -⟩ := hslots.resolve_right fun h => hslot h.2.1
    exact .waiting (hcommon.of_same rfl rfl rfl rfl rfl rfl) htype hne hstate hwait hsend
      hresult (hcollects hslot hc) (hkept hslot harrived)
  | sentUp hcommon htype hparent hstate hsend hresult harrived =>
    have hslot := hearly [] rfl
    obtain ⟨-, i, -, rfl, -⟩ := hslots.resolve_right fun h => hslot h.2.1
    exact .sentUp (hcommon.of_same rfl rfl rfl rfl rfl rfl) htype hparent hstate hsend hresult
      (hkept hslot harrived)
  | receiving hcommon htype hparent hstate hsend hafter hbefore =>
    rcases hslots with ⟨-, i, -, rfl, -⟩ | ⟨-, rfl, hsome⟩
    · have hslot : TreeSlot.recvDown ≠ .recvUp i := fun h => by cases h
      exact .receiving (hcommon.of_same rfl rfl rfl rfl rfl rfl) htype hparent hstate hsend
        (fun h => hafter (h.resolve_right hslot)) fun h => hbefore fun harrived =>
          h (.inl harrived)
    · refine .receiving (hcommon.setResult _) htype hparent hstate hsend (fun _ => ?_)
        fun h => absurd (.inr rfl) h
      change copyIn _ l.m_event.result = _
      rw [hbefore hnew, downResult_of_parent ha.tree hsome]
  | sending hcommon htype hi hne hstate hsend hresult hparent =>
    rcases hslots with ⟨-, i, -, rfl, -⟩ | ⟨-, rfl, hsome⟩
    · exact .sending (hcommon.of_same rfl rfl rfl rfl rfl rfl) htype hi hne hstate hsend hresult
        (hparent.imp_right .inl)
    · rw [hsome] at hparent
      exact absurd (hparent.resolve_left (some_ne_none _)) hnew
  | waitingSent hcommon htype hstate hresult hparent =>
    rcases hslots with ⟨-, i, -, rfl, -⟩ | ⟨-, rfl, hsome⟩
    · exact .waitingSent (hcommon.of_same rfl rfl rfl rfl rfl rfl) htype hstate hresult
        (hparent.imp_right .inl)
    · rw [hsome] at hparent
      exact absurd (hparent.resolve_left (some_ne_none _)) hnew
  | finished hcommon hresult hparent =>
    rcases hslots with ⟨-, i, -, rfl, -⟩ | ⟨htype, rfl, hsome⟩
    · exact .finished (hcommon.of_same rfl rfl rfl rfl rfl rfl) hresult
        (hparent.imp_right (Or.imp_right .inl))
    · rw [hsome] at hparent
      exact absurd ((hparent.resolve_left htype).resolve_left (some_ne_none _)) hnew

end Writes

section Times

/-- The time of the next call of a rank. -/
def time (k : TreeCollective T) (r : Nat) (rest : List (TreeCall T)) : Nat :=
  if (k.waitDownCalls r).length < rest.length then k.size - k.relabel r
  else if (k.sendDownCalls r).length < rest.length then k.size + 1
  else if 1 < rest.length then k.size + 2 + k.relabel r
  else 2 * k.size + 3

theorem length_sendDownCalls_le (k : TreeCollective T) (r : Nat) :
    1 ≤ (k.sendDownCalls r).length ∧ (k.sendDownCalls r).length ≤ (k.waitDownCalls r).length := by
  have hone : (exitPart : List (TreeCall T)).length = 1 := rfl
  rw [waitDownCalls, sendDownCalls, length_append, length_append, length_append, hone]
  omega

theorem le_time (rest : List (TreeCall T)) : k.size - k.relabel r ≤ k.time r rest := by
  rw [time]
  split_ifs <;> omega

variable {rest done done' rest' : List (TreeCall T)} {c : Channel Nat}

theorem lt_time_waitDownCalls (k : TreeCollective T) (r : Nat) :
    k.size < k.time r (k.waitDownCalls r) := by
  rw [time, if_neg (lt_irrefl _)]
  split_ifs <;> omega

theorem time_le_of_sendDown_lt (h : (k.sendDownCalls r).length < rest.length) :
    k.time r rest ≤ k.size + 1 := by
  rw [time, if_pos h]
  split_ifs <;> omega

theorem time_le_of_one_lt (h : 1 < rest.length) : k.time r rest ≤ k.size + 2 + k.relabel r := by
  rw [time, if_pos h]
  split_ifs <;> omega

theorem le_time_sendDownCalls (hv : k.relabel r < k.size) :
    k.size + 2 + k.relabel r ≤ k.time r (k.sendDownCalls r) := by
  have hlength := k.length_sendDownCalls_le r
  rw [time, if_neg (by omega), if_neg (lt_irrefl _)]
  split_ifs <;> omega

theorem time_exitPart (k : TreeCollective T) (r : Nat) : k.time r exitPart = 2 * k.size + 3 := by
  have hlength := k.length_sendDownCalls_le r
  have hone : (exitPart : List (TreeCall T)).length = 1 := rfl
  rw [time, hone, if_neg (by omega), if_neg (by omega), if_neg (by omega)]

theorem length_lt_of_mem {before after : List (TreeCall T)} (hsplit : k.script r = done ++ rest)
    (hend : k.script r = before ++ after) (hmem : request ∈ requestsOf rest)
    (hnot : request ∉ requestsOf after) :
    after.length < rest.length := by
  by_contra hle
  have hrest : rest <:+ k.script r := ⟨done, hsplit.symm⟩
  have hafter : after <:+ k.script r := ⟨before, hend.symm⟩
  obtain ⟨first, rfl⟩ := suffix_of_suffix_length_le hrest hafter (Nat.le_of_not_lt hle)
  rw [requestsOf_append] at hnot
  exact hnot (mem_append_right _ hmem)

theorem send_mem_rest (ha : k.Accepted g) (slot : TreeSlot) (hsplit : k.script c.dst = done ++ rest)
    (hsplit' : k.script c.src = done' ++ rest')
    (hlt : (sendsOn c done').length < (recvsOn c done).length)
    (hmem : .send slot c.dst c.tag data ∈ requestsOf (k.script c.src)) :
    .send slot c.dst c.tag data ∈ requestsOf rest' := by
  rw [hsplit', requestsOf_append] at hmem
  refine (mem_append.1 hmem).resolve_left fun hdone => ?_
  have hsent : (⟨c, slot, data⟩ : Message TreeSlot Nat (Payload T)) ∈ sendsOn c done' :=
    mem_filter.2 ⟨mem_messagesOf_iff.2 ⟨rfl, hdone⟩, decide_eq_true rfl⟩
  have hpos := length_pos_of_mem hsent
  have hone := length_recvsOn_le ha c
  rw [hsplit, recvsOn_append, length_append] at hone
  omega

theorem recv_mem_rest (ha : k.Accepted g) (slot : TreeSlot) (hsplit : k.script c.src = done ++ rest)
    (hsplit' : k.script c.dst = done' ++ rest')
    (hlt : (recvsOn c done').length < (sendsOn c done).length)
    (hmem : .recv slot c.src c.tag ∈ requestsOf (k.script c.dst)) :
    .recv slot c.src c.tag ∈ requestsOf rest' := by
  rw [hsplit', requestsOf_append] at hmem
  refine (mem_append.1 hmem).resolve_left fun hdone => ?_
  have hposted : (⟨c, slot⟩ : Receive TreeSlot Nat) ∈ recvsOn c done' :=
    mem_filter.2 ⟨mem_receivesOf_iff.2 ⟨rfl, hdone⟩, decide_eq_true rfl⟩
  have hpos := length_pos_of_mem hposted
  have hone := length_sendsOn_le ha c
  rw [hsplit, sendsOn_append, length_append] at hone
  omega

end Times

section Neighbours

omit [Inhabited T] in
theorem exists_child_index {c p : Nat} (ha : k.Accepted g) (hc : c < k.size) (hp : p < k.size)
    (hparent : (k.yyy c).parent = some p) :
    ∃ i < (k.yyy p).numChildren, (k.yyy p).calcChild i = c := by
  have hmem : c ∈ (k.yyy p).children := ((spanningTree ha.tree).agree c hc p hp).2 hparent
  obtain ⟨i, hi, heq⟩ := mem_map.1 hmem
  exact ⟨i, mem_range.1 hi, heq⟩

omit [Inhabited T] in
theorem parent_calcChild {i : Nat} (ha : k.Accepted g) (hr : r < k.size)
    (hi : i < (k.yyy r).numChildren) :
    (k.yyy ((k.yyy r).calcChild i)).parent = some r :=
  ((spanningTree ha.tree).agree _ (calcChild_lt ha.tree hr hi) r hr).1
    (mem_map.2 ⟨i, mem_range.2 hi, rfl⟩)

end Neighbours

section Instance

variable {request : Request TreeSlot Nat (Payload T)} {done rest done' rest' : List (TreeCall T)}
variable {ws : List TreeSlot} {slot : TreeSlot} {t : Nat} {arrived : TreeSlot → Prop}
variable {l : CollectiveTreeFuncSM T}

theorem slot_of_mem_sendDownCalls (h : request ∈ requestsOf (k.sendDownCalls r)) :
    ∃ i, request.slot = .sendDown i := by
  rw [sendDownCalls, requestsOf_append, requestsOf_downPart] at h
  rcases mem_append.1 h with h | h
  · obtain ⟨-, h⟩ := mem_ite_nil_left.1 h
    obtain ⟨i, -, rfl⟩ := mem_map.1 h
    exact ⟨i, rfl⟩
  · cases h

theorem slot_of_mem_waitDownCalls (h : request ∈ requestsOf (k.waitDownCalls r)) :
    request.slot = .recvDown ∨ ∃ i, request.slot = .sendDown i := by
  rw [waitDownCalls, requestsOf_append, requestsOf_recvPart] at h
  rcases mem_append.1 h with h | h
  · obtain ⟨-, h⟩ := mem_ite_nil_left.1 h
    obtain ⟨p, -, rfl⟩ := mem_map.1 h
    exact .inl rfl
  · exact .inr (slot_of_mem_sendDownCalls h)

theorem time_of_up (hr : r < k.size) (htype : k.type ≠ .Bcast) (hsplit : k.script r = done ++ rest)
    (hmem : request ∈ requestsOf rest) (hslot : request.slot ≠ .recvDown)
    (hslots : ∀ i, request.slot ≠ .sendDown i) :
    k.time r rest = k.size - k.relabel r := by
  refine if_pos (length_lt_of_mem hsplit (script_of_ne_bcast hr htype) hmem fun h => ?_)
  exact (slot_of_mem_waitDownCalls h).elim hslot fun ⟨i, hi⟩ => hslots i hi

section

variable (ha : k.Accepted g) (hr : r < k.size) (hsplit : k.script r = done ++ rest)
include ha hr hsplit

/-- A rank that waits for a message waits for one at a smaller time. -/
theorem At.receiveTime {src : Nat} (hat : At k r (some ws) rest arrived l) (hslot : slot ∈ ws)
    (hmem : .recv slot src t ∈ requestsOf done) (hsplit' : k.script src = done' ++ rest')
    (hlt : (sendsOn ⟨src, r, t⟩ done').length < (recvsOn ⟨src, r, t⟩ done).length) :
    k.time src rest' < k.time r rest := by
  obtain ⟨htag, hslots⟩ := recv_mem_script hr (mem_script_of_done hsplit hmem)
  cases hat with
  | idle | posting | sending =>
    cases hslot
  | waiting hcommon htype hne hstate hwait hsend hresult hc harrived =>
    obtain ⟨j, -, rfl⟩ := mem_map.1 hslot
    obtain ⟨-, i, hi, heq, rfl⟩ := hslots.resolve_right fun h => by cases h.2.1
    have hchild := calcChild_lt ha.tree hr hi
    have hparent := parent_calcChild ha hr hi
    have hlater := send_mem_rest ha .sendUp hsplit hsplit' hlt (by
      rw [script_of_ne_bcast hchild htype, requestsOf_append, requestsOf_append, htag,
        ha.tag_eq hr, ← ha.tag_eq hchild]
      exact mem_append_left _ (mem_append_right _ (sendUp_mem_parentPart hparent)))
    have htime := time_of_up hchild htype hsplit' hlater (fun h => by cases h) fun i h => by cases h
    have hless := (relabel_parent ha.tree hparent).2.2
    have hsize := (relabel_lt ha.tree.root_lt).2 hchild
    have hle := le_time (k := k) (r := r) (k.sendUpCalls r)
    rw [htime]
    omega
  | sentUp =>
    rw [mem_singleton.1 hslot] at hslots
    rcases hslots with ⟨-, i, -, h, -⟩ | ⟨-, h, -⟩ <;> cases h
  | receiving hcommon htype hparent hstate hsend hafter hbefore =>
    rw [mem_singleton.1 hslot] at hslots
    obtain ⟨-, -, hparent⟩ := hslots.resolve_left fun ⟨_, _, _, h, _⟩ => by cases h
    have hsrc := parent_lt ha.tree hr hparent
    obtain ⟨i, hi, hchild⟩ := exists_child_index ha hr hsrc hparent
    obtain ⟨before, hend⟩ := exists_before_exitPart hsrc
    have hlater := send_mem_rest ha (.sendDown i) hsplit hsplit' hlt (by
      rw [hend, requestsOf_append, requestsOf_append, htag, ha.tag_eq hr, ← ha.tag_eq hsrc]
      refine mem_append_left _ (mem_append_right _ ?_)
      have hsend := sendDown_mem_downPart htype hi
      rwa [hchild] at hsend)
    have hlong := length_lt_of_mem hsplit' hend hlater (not_mem_nil)
    have hupper := time_le_of_one_lt (k := k) (r := src) hlong
    have hless := (relabel_parent ha.tree hparent).2.2
    have hlower := le_time_sendDownCalls ((relabel_lt ha.tree.root_lt).2 hr)
    omega
  | waitingSent =>
    obtain ⟨j, -, rfl⟩ := mem_map.1 hslot
    rcases hslots with ⟨-, i, -, h, -⟩ | ⟨-, h, -⟩ <;> cases h

/-- A rank that waits for a send to complete waits for one at a smaller time. -/
theorem At.sendTime {dst : Nat} (hat : At k r (some ws) rest arrived l) (hslot : slot ∈ ws)
    (hmem : .send slot dst t data ∈ requestsOf done) (hsplit' : k.script dst = done' ++ rest')
    (hlt : (recvsOn ⟨r, dst, t⟩ done').length < (sendsOn ⟨r, dst, t⟩ done).length) :
    k.time dst rest' < k.time r rest := by
  obtain ⟨htag, hslots⟩ := send_mem_script hr (mem_script_of_done hsplit hmem)
  cases hat with
  | idle | posting | sending =>
    cases hslot
  | waiting =>
    obtain ⟨j, -, rfl⟩ := mem_map.1 hslot
    rcases hslots with ⟨-, h, -⟩ | ⟨-, i, -, h, -⟩ <;> cases h
  | sentUp hcommon htype hne hstate hsend hresult harrived =>
    rw [mem_singleton.1 hslot] at hslots
    obtain ⟨-, -, hparent⟩ := hslots.resolve_right fun ⟨_, _, _, h, _⟩ => by cases h
    have hdst := parent_lt ha.tree hr hparent
    obtain ⟨i, hi, hchild⟩ := exists_child_index ha hr hdst hparent
    have hlater := recv_mem_rest ha (.recvUp i) hsplit hsplit' hlt (by
      rw [script_of_ne_bcast hdst htype, requestsOf_append, requestsOf_append, htag,
        ha.tag_eq hr, ← ha.tag_eq hdst]
      refine mem_append_left _ (mem_append_left _ ?_)
      have hrecv := recvUp_mem_upPart hi
      rwa [hchild] at hrecv)
    have htime := time_of_up hdst htype hsplit' hlater (fun h => by cases h) fun i h => by cases h
    have hlower := k.lt_time_waitDownCalls r
    rw [htime]
    omega
  | receiving =>
    rw [mem_singleton.1 hslot] at hslots
    rcases hslots with ⟨-, h, -⟩ | ⟨-, i, -, h, -⟩ <;> cases h
  | waitingSent hcommon htype hstate hresult hsome =>
    obtain ⟨j, -, rfl⟩ := mem_map.1 hslot
    obtain ⟨-, i, hi, heq, rfl⟩ := hslots.resolve_left fun h => by cases h.2.1
    have hchild := calcChild_lt ha.tree hr hi
    have hparent := parent_calcChild ha hr hi
    obtain ⟨before, hend⟩ := exists_before_sendDownCalls hchild
    have hlater := recv_mem_rest ha .recvDown hsplit hsplit' hlt (by
      rw [hend, requestsOf_append, requestsOf_append, htag, ha.tag_eq hr, ← ha.tag_eq hchild]
      exact mem_append_left _ (mem_append_right _ (recvDown_mem_recvPart htype hparent)))
    have hlong := length_lt_of_mem hsplit' hend hlater fun h => by
      obtain ⟨i, hi⟩ := slot_of_mem_sendDownCalls h
      cases hi
    have hupper := time_le_of_sendDown_lt hlong
    rw [k.time_exitPart r]
    omega

end

theorem At.waits_eq_none_iff (hr : r < k.size) (hat : At k r w rest arrived l) :
    w = none ↔ rest = [] := by
  cases hat with
  | idle =>
    rw [script_eq hr]
    simp [exitPart]
  | posting | waiting | sentUp | receiving | sending | waitingSent | finished =>
    simp [sendUpCalls, waitDownCalls, sendDownCalls, exitPart]

/-- The ranks of a collective follow their scripts. -/
def scripted (ha : k.Accepted g) : Scripted CollectiveTreeFuncSM.process k.size k.initial where
  script := fun r => k.script r
  value := fun r => k.value r
  Good := fun r w rest arrived l => r < k.size ∧ At k r w rest arrived l
  time := fun r => k.time r
  outside := fun _ => script_of_size_le
  start := fun _ hr => ⟨hr, .idle fun _ h => h⟩
  ends := fun _ _ _ _ _ h => h.2.waits_eq_none_iff h.1
  enter := by
    intro r hr done ws call rest arrived l hsplit ⟨_, hat⟩ hall
    obtain ⟨call', rest', l', hcalls, hstep, hat'⟩ := hat.continues ha hr hsplit hall
    cases hcalls
    exact ⟨l', hstep, hr, hat'⟩
  write := fun r hr done w rest arrived l hsplit hgood slot src t hmem hnew =>
    ⟨hr, hgood.2.write ha hr hsplit hmem hnew⟩
  matching := matching ha
  slots := fun r => k.slots_nodup r
  receiveTime := fun r hr _ _ _ _ _ hsplit hgood _ hslot _ _ hmem _ _ hsplit' hlt =>
    hgood.2.receiveTime ha hr hsplit hslot hmem hsplit' hlt
  sendTime := fun r hr _ _ _ _ _ hsplit hgood _ hslot _ _ _ hmem _ _ hsplit' hlt =>
    hgood.2.sendTime ha hr hsplit hslot hmem hsplit' hlt

end Instance

end TreeCollective

end SstElements.Firefly
