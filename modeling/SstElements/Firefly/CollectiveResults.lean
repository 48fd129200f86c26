import SstElements.Firefly.CollectiveSchedule

/-!
# The result of a collective

Every run of a collective ends, and the result of the root, or of every rank, is the fold of the
data of all ranks.  A rank that is alone and a broadcast leave the buffers as they were.
-/

namespace SstElements.Firefly

open Library CollectiveTreeFuncSM List Option

section Folds

variable {T : Type}

/-- The fold of some values in some order and grouping. -/
def IsFold (g : T → T → T) (values : List T) (x : T) : Prop :=
  ∃ order, order.Perm values ∧ FoldOf g order x

theorem isFold_singleton_iff {g : T → T → T} {a x : T} : IsFold g [a] x ↔ x = a := by
  constructor
  · rintro ⟨order, hperm, hfold⟩
    rw [perm_singleton] at hperm
    subst hperm
    generalize hl : [a] = l at hfold
    cases hfold with
    | single y =>
      exact (singleton_inj.1 hl).symm
    | node hleft hright =>
      rcases append_eq_singleton_iff.1 hl.symm with ⟨hnil, -⟩ | ⟨-, hnil⟩
      · exact absurd hnil hleft.ne_nil
      · exact absurd hnil hright.ne_nil
  · rintro rfl
    exact ⟨[x], .refl _, .single x⟩

end Folds

namespace TreeCollective

variable {T : Type} [Add T] [LT T] [DecidableLT T] [Inhabited T]
variable {k : TreeCollective T} {g : T → T → T} {data : Nat → Nat → T} {r : Nat} {v : Nat}

section Up

omit [Add T] [LT T] [DecidableLT T] in
theorem childInput_payload {buffer : Nat → T} {c : Nat} (hc : c < k.count) :
    childInput (payload k.count (some buffer)) c = buffer c := by
  simp [childInput, payload, storeElements, getD_eq_getElem?_getD, hc]

section

variable (ha : k.Accepted g)
variable (htype : k.type ≠ .Bcast)
variable (hdata : ∀ r < k.size, k.mydata r = some (data r))
include ha htype hdata

/-- Step of the way up: from the children's folds, that of the whole subtree. -/
theorem upResult_isFold (hv : v < k.size) (hinner : k.ups v ≠ [])
    (hbelow : ∀ w ∈ k.tree.children v, ∀ c < k.count,
      FoldOf g ((k.tree.subtree w).map fun u => data (k.relabel u) c)
        (childInput (k.upPayload w) c)) :
    ∃ out, k.upResult (k.relabel v) (k.ups v) = some out ∧ ∀ c < k.count,
      FoldOf g ((k.tree.subtree v).map fun u => data (k.relabel u) c) (out c) := by
  have hr : k.relabel v < k.size := (relabel_lt ha.tree.root_lt).2 hv
  have hchildren : (k.yyy (k.relabel v)).numChildren ≠ 0 := by
    rw [← length_ups ha.tree hr, relabel_relabel]
    exact fun h => hinner (length_eq_zero_iff.1 h)
  have hbuffer := ha.results htype _ hr hchildren (by rw [hdata _ hr]; rfl)
  obtain ⟨result, hresult⟩ := isSome_iff_exists.1 hbuffer
  have hstart : k.startResult (k.relabel v) = some result :=
    (startEvent_op htype _).2.2.trans hresult
  obtain ⟨out, hout, hfold⟩ :=
    ha.computes htype (data (k.relabel v)) ((k.ups v).map childInput) result
  refine ⟨out, ?_, fun c hc => ?_⟩
  · rw [upResult, if_neg (by simpa using hinner), hdata _ hr, hstart]
    exact hout
  · rw [hfold c hc, ups, List.map_map, List.map_map, Library.RootedTree.subtree_eq, map_cons,
      map_flatMap]
    exact FoldOf.foldl (k.tree.children v) (.single (data (k.relabel v) c)) fun w hw =>
      hbelow w hw c hc

/-- By induction up the tree, a rank sends the fold of its subtree. -/
theorem upPayload_isFold (hv : v < k.size) :
    ∀ c < k.count, FoldOf g ((k.tree.subtree v).map fun u => data (k.relabel u) c)
      (childInput (k.upPayload v) c) := by
  induction v using Library.RootedTree.induction_up (t := k.tree) with
  | h v ih =>
    intro c hc
    have hr : k.relabel v < k.size := (relabel_lt ha.tree.root_lt).2 hv
    have heq := upPayload_eq ha.tree hr
    rw [relabel_relabel] at heq
    by_cases hleaf : k.ups v = []
    · have hnone : k.tree.children v = [] := map_eq_nil_iff.1 hleaf
      have hzero : (k.yyy (k.relabel v)).numChildren = 0 := by
        rw [← length_ups ha.tree hr, relabel_relabel, hleaf]
        rfl
      rw [heq, if_pos hzero, hdata _ hr, childInput_payload hc, Library.RootedTree.subtree_eq,
        hnone]
      exact .single _
    · have hzero : (k.yyy (k.relabel v)).numChildren ≠ 0 := by
        rw [← length_ups ha.tree hr, relabel_relabel]
        exact fun h => hleaf (length_eq_zero_iff.1 h)
      obtain ⟨out, hout, hfold⟩ := upResult_isFold ha htype hdata hv hleaf fun w hw =>
        ih w hw (Library.RootedTree.mem_children_iff.1 hw).1
      rw [heq, if_neg hzero, hout, childInput_payload hc]
      exact hfold c hc

end

end Up

section Down

/-- The ranks that have a result in the end. -/
def HasResult (k : TreeCollective T) (r : Nat) : Prop :=
  k.type = .Allreduce ∨ k.type = .Reduce ∧ r = k.root

omit [Add T] [LT T] [DecidableLT T] [Inhabited T] in
theorem map_relabel_perm (hroot : k.treeRoot < k.size) :
    ((k.tree.subtree 0).map k.relabel).Perm (List.range k.size) := by
  have hvisit := (Library.RootedTree.subtree_perm_range (t := k.tree)
    ((Nat.zero_le _).trans_lt hroot)).map k.relabel
  have hinj : Function.Injective k.relabel := Equiv.injective _
  refine hvisit.trans ?_
  rw [perm_ext_iff_of_nodup (nodup_range.map hinj) nodup_range]
  intro w
  rw [List.mem_map, mem_range]
  constructor
  · rintro ⟨v, hv, rfl⟩
    exact (relabel_lt hroot).2 (mem_range.1 hv)
  · intro hw
    exact ⟨k.relabel w, mem_range.2 ((relabel_lt hroot).2 hw), k.relabel_relabel w⟩

omit [Inhabited T] in
theorem children_root_ne_nil (ha : k.Accepted g) (hsize : 1 < k.size) : k.tree.children 0 ≠ [] := by
  have hmem : 1 ∈ k.tree.children 0 :=
    (mem_children_karyTree_iff ha.tree.degree_pos).2
      ⟨hsize, by omega, by have := ha.tree.degree_pos; omega⟩
  exact ne_nil_of_mem hmem

theorem afterUp_root_isFold (ha : k.Accepted g) (htype : k.type ≠ .Bcast)
    (hdata : ∀ r < k.size, k.mydata r = some (data r)) (hsize : 1 < k.size) :
    ∃ out, k.afterUp 0 = some out ∧ ∀ c < k.count,
      IsFold g ((range k.size).map fun r => data r c) (out c) := by
  have hchildren := children_root_ne_nil ha hsize
  obtain ⟨out, hout, hfold⟩ := upResult_isFold (v := 0) ha htype hdata (by omega)
    (fun h => hchildren (map_eq_nil_iff.1 h))
    fun w hw => upPayload_isFold ha htype hdata (Library.RootedTree.mem_children_iff.1 hw).1
  refine ⟨out, ?_, fun c hc => ⟨_, ?_, hfold c hc⟩⟩
  · rw [afterUp, if_neg htype, hout]
  · have hperm := (map_relabel_perm ha.tree.root_lt).map fun r => data r c
    rwa [List.map_map] at hperm

theorem isSome_afterUp (ha : k.Accepted g) (htype : k.type = .Allreduce)
    (hdata : ∀ r < k.size, k.mydata r = some (data r)) (hresult : ∀ r < k.size, (k.result r).isSome)
    (hv : v < k.size) :
    ∃ buffer, k.afterUp v = some buffer := by
  have hbcast : k.type ≠ .Bcast := fun h => by rw [htype] at h; cases h
  rw [afterUp, if_neg hbcast]
  by_cases hleaf : k.ups v = []
  · obtain ⟨result, hsome⟩ := isSome_iff_exists.1 (hresult _ ((relabel_lt ha.tree.root_lt).2 hv))
    rw [hleaf]
    exact ⟨result, (startEvent_op hbcast _).2.2.trans hsome⟩
  · obtain ⟨out, hout, -⟩ := upResult_isFold ha hbcast hdata hv hleaf fun w hw =>
      upPayload_isFold ha hbcast hdata (Library.RootedTree.mem_children_iff.1 hw).1
    exact ⟨out, hout⟩

/-- By induction down the tree, every rank gets the root's result. -/
theorem downResult_eq {top : Nat → T} (hbuffers : ∀ v < k.size, ∃ buffer, k.afterUp v = some buffer)
    (htop : k.afterUp 0 = some top) (hv : v < k.size) :
    ∃ out, k.downResult v = some out ∧ ∀ c < k.count, out c = top c := by
  induction v using Nat.strong_induction_on with
  | _ v ih =>
    rcases Nat.eq_zero_or_pos v with rfl | hpos
    · refine ⟨top, ?_, fun _ _ => rfl⟩
      rw [downResult, if_neg (lt_irrefl 0), htop]
    · have hless := k.tree.parent_lt v hpos
      obtain ⟨out, hout, hsame⟩ := ih _ hless (hless.trans hv)
      obtain ⟨buffer, hbuffer⟩ := hbuffers v hv
      rw [downResult, if_pos hpos, hout, hbuffer]
      refine ⟨_, rfl, fun c hc => ?_⟩
      rw [← hsame c hc]
      simp [storeElements, getD_eq_getElem?_getD, hc]

/-- A rank that keeps a result keeps the fold over all ranks. -/
theorem finalResult_isFold {r : Nat} (ha : k.Accepted g)
    (hdata : ∀ r < k.size, k.mydata r = some (data r))
    (hresult : ∀ r < k.size, k.HasResult r → (k.result r).isSome) (hsize : 1 < k.size)
    (hr : r < k.size) (hhas : k.HasResult r) :
    ∃ out, k.finalResult (k.relabel r) = some out ∧ ∀ c < k.count,
      IsFold g ((range k.size).map fun r => data r c) (out c) := by
  rcases hhas with htype | ⟨htype, rfl⟩
  · have hbcast : k.type ≠ .Bcast := fun h => by rw [htype] at h; cases h
    obtain ⟨top, htop, hfold⟩ := afterUp_root_isFold ha hbcast hdata hsize
    obtain ⟨out, hout, hsame⟩ := downResult_eq
      (fun v hv => isSome_afterUp ha htype hdata (fun r hr => hresult r hr (.inl htype)) hv) htop
      ((relabel_lt ha.tree.root_lt).2 hr)
    refine ⟨out, ?_, fun c hc => ?_⟩
    · rw [finalResult, if_neg fun h => by rw [htype] at h; cases h]
      exact hout
    · rw [hsame c hc]
      exact hfold c hc
  · have hbcast : k.type ≠ .Bcast := fun h => by rw [htype] at h; cases h
    have hroot : k.relabel k.root = 0 := by
      rw [relabel, treeRoot, htype]
      exact Equiv.swap_apply_right _ _
    rw [finalResult, if_pos htype, hroot]
    exact afterUp_root_isFold ha hbcast hdata hsize

theorem finalResult_alone (ha : k.Accepted g) (htype : k.type ≠ .Bcast) (hsize : k.size = 1) :
    k.finalResult (k.relabel 0) = k.result 0 := by
  have hroot : k.treeRoot = 0 := by have := ha.tree.root_lt; omega
  have hzero : k.relabel 0 = 0 := by
    rw [relabel, hroot]
    exact Equiv.swap_self 0 ▸ rfl
  have hnone : k.ups 0 = [] := by
    rw [ups, map_eq_nil_iff, eq_nil_iff_forall_not_mem]
    intro w hw
    have hlt := (Library.RootedTree.mem_children_iff.1 hw).1
    have hpos := (Library.RootedTree.mem_children_iff.1 hw).2.1
    change w < k.size at hlt
    omega
  have hup : k.afterUp 0 = k.result 0 := by
    rw [afterUp, if_neg htype, hnone, hzero]
    exact (startEvent_op htype 0).2.2
  rw [hzero, finalResult, downResult, if_neg (lt_irrefl 0), hup, ite_self]

end Down

section Operations

omit [Inhabited T] in
theorem computes_of_doOp (hdtype : k.dtype ≠ .COMPLEX) (hop : ∀ x y, doOp x y k.op = some (g x y)) :
    k.Computes g := by
  intro input rest result
  have hfold : ∀ c x, rest.foldlM (fun acc other => doOp acc (other c) k.op) x =
      some ((rest.map fun f => f c).foldl g x) := by
    intro c
    induction rest with
    | nil =>
      exact fun _ => rfl
    | cons other rest ih =>
      intro x
      rw [foldlM_cons, hop]
      exact ih (g x (other c))
  have helements : reduceElements input rest k.op k.count =
      some ((range k.count).map fun c => (rest.map fun f => f c).foldl g (input c)) := by
    rw [reduceElements]
    have hmapM := @mapM_range_eq T
      (fun c => rest.foldlM (fun acc other => doOp acc (other c) k.op) (input c))
      ((range k.count).map fun c => (rest.map fun f => f c).foldl g (input c)) ?_
    · rwa [length_map, length_range] at hmapM
    · intro c x hx
      rw [getElem?_map, map_eq_some_iff] at hx
      obtain ⟨c', hc', rfl⟩ := hx
      obtain ⟨hlt, hindex⟩ := List.getElem?_eq_some_iff.1 hc'
      rw [getElem_range] at hindex
      rw [← hindex]
      exact hfold c (input c)
  refine ⟨storeElements ((range k.count).map fun c =>
    (rest.map fun f => f c).foldl g (input c)) result, ?_, fun c hc => ?_⟩
  · cases hcase : k.op with
    | Func userFunction =>
      have hnone := hop (input 0) (input 0)
      rw [hcase] at hnone
      cases hnone
    | Nop | Sum | Min | Max =>
      rw [hcase] at helements
      rw [collectiveOp, if_neg hdtype, helements]
      · rfl
      · intro f h
        cases h
  · simp [storeElements, getD_eq_getElem?_getD, hc]

end Operations

section Correctness

abbrev TreeNetwork (T : Type) := Network (CollectiveTreeFuncSM T) TreeSlot Nat (Payload T)

/-- What holds when a collective has ended: every rank has sent one message to its parent and
one to each child, as far as the collective goes up and down, all of them have been received, and
the buffers hold the result. -/
structure Ends (k : TreeCollective T) (g : T → T → T) (data : Nat → Nat → T)
    (s : TreeNetwork T) : Prop where
  finished : s.Finished k.size
  up : ∀ r < k.size, (((s.sent.filter fun m => m.channel.src = r).filter fun m =>
    m.slot = .sendUp).map fun m => m.channel.dst) =
      if k.type = .Bcast then [] else (k.yyy r).parent.toList
  down : ∀ r < k.size, (((s.sent.filter fun m => m.channel.src = r).filter fun m =>
    m.slot ≠ .sendUp).map fun m => m.channel.dst) =
      if k.type = .Reduce then [] else (k.yyy r).children
  results : ∀ r < k.size, k.HasResult r → ∃ out, (s.state r).m_event.result = some out ∧
    ∀ c < k.count, IsFold g ((range k.size).map fun q => data q c) (out c)
  broadcast : k.type = .Bcast → ∀ r < k.size, ∃ buffer, (s.state r).m_event.mydata = some buffer ∧
    ∀ c < k.count, buffer c = data k.root c

/-- The tree spans the group, no run goes on forever, and a run that cannot go on has ended. -/
structure Correct (k : TreeCollective T) (g : T → T → T) (data : Nat → Nat → T)
    (eager : Payload T → Bool) : Prop where
  tree : SpanningTree k.degree k.size k.treeRoot
  bounded : ∃ bound, ∀ events s, runOps (Network.step CollectiveTreeFuncSM.process k.size eager)
    (Network.create k.initial) events = some s → events.length ≤ bound
  ends : ∀ events s, runOps (Network.step CollectiveTreeFuncSM.process k.size eager)
    (Network.create k.initial) events = some s →
      s.Stuck CollectiveTreeFuncSM.process k.size eager → k.Ends g data s

/-- The buffers hold the result before the collective where the code does not copy anything: in
every broadcast, and on a rank that is alone. -/
structure Already (k : TreeCollective T) (data : Nat → Nat → T) : Prop where
  broadcast : k.type = .Bcast → ∀ r < k.size, ∀ c < k.count, data r c = data k.root c
  alone : k.size = 1 → k.type ≠ .Bcast → ∃ result, k.result 0 = some result ∧
    ∀ c < k.count, result c = data 0 c

variable {eager : Payload T → Bool} {s : TreeNetwork T}

section

variable (ha : k.Accepted g)
include ha

/-- When all scripts are over, the event holds the final result. -/
theorem event_of_complete (hcomplete : (scripted ha).Complete s) (hr : r < k.size) :
    (s.state r).m_event.mydata = k.mydata r ∧
      (s.state r).m_event.result = k.finalResult (k.relabel r) := by
  obtain ⟨-, hat⟩ := hcomplete.good r hr
  cases hat with
  | finished hcommon hresult _ =>
    exact ⟨hcommon.mydata, hresult⟩

section

variable (hdata : ∀ r < k.size, k.mydata r = some (data r))
include hdata

theorem ends_of_complete
    (hresult : ∀ r < k.size, k.HasResult r → (k.result r).isSome) (halready : k.Already data)
    (hfinished : s.Finished k.size) (hcomplete : (scripted ha).Complete s) :
    k.Ends g data s := by
  refine ⟨hfinished, fun r hr => ?_, fun r hr => ?_, fun r hr hhas => ?_, fun htype r hr => ?_⟩
  · rw [hcomplete.sent r]
    change ((messagesOf r (k.script r)).filter _).map _ = _
    rw [messagesOf_script hr]
    cases htype : k.type <;> simp [List.filter_map, Function.comp_def]
  · rw [hcomplete.sent r]
    change ((messagesOf r (k.script r)).filter _).map _ = _
    rw [messagesOf_script hr]
    cases htype : k.type <;> simp [List.filter_map, Function.comp_def, YYY.children]
  · rw [(event_of_complete ha hcomplete hr).2]
    by_cases hsize : k.size = 1
    · have htype : k.type ≠ .Bcast := by
        rcases hhas with h | ⟨h, -⟩ <;> rw [h] <;> exact fun h => by cases h
      obtain rfl : r = 0 := by omega
      obtain ⟨result, hsome, hsame⟩ := halready.alone hsize htype
      rw [finalResult_alone ha htype hsize, hsize]
      exact ⟨result, hsome, fun c hc => isFold_singleton_iff.2 (hsame c hc)⟩
    · exact finalResult_isFold ha hdata hresult (by omega) hr hhas
  · rw [(event_of_complete ha hcomplete hr).1, hdata r hr]
    exact ⟨data r, rfl, halready.broadcast htype r hr⟩

/-- What the code does not copy was there before. -/
theorem already_of_ends
    (hcomplete : (scripted ha).Complete s) (hends : k.Ends g data s) :
    k.Already data := by
  refine ⟨fun htype r hr c hc => ?_, fun hsize htype => ?_⟩
  · obtain ⟨buffer, hbuffer, hsame⟩ := hends.broadcast htype r hr
    rw [(event_of_complete ha hcomplete hr).1, hdata r hr] at hbuffer
    rw [some.inj hbuffer]
    exact hsame c hc
  · have hhas : k.HasResult 0 := by
      have hroot := ha.tree.root_lt
      unfold treeRoot at hroot
      unfold HasResult
      cases hcase : k.type <;> rw [hcase] at hroot htype
      · exact .inl rfl
      · exact .inr ⟨rfl, by dsimp only at hroot; omega⟩
      · exact absurd rfl htype
    have hzero : 0 < k.size := by omega
    obtain ⟨out, hout, hfold⟩ := hends.results 0 hzero hhas
    rw [(event_of_complete ha hcomplete hzero).2, finalResult_alone ha htype hsize] at hout
    refine ⟨out, hout, fun c hc => ?_⟩
    have hsingle := hfold c hc
    rw [hsize] at hsingle
    exact isFold_singleton_iff.1 hsingle

theorem Correct.already
    (h : k.Correct g data eager) :
    k.Already data := by
  obtain ⟨events, s, hrun, hstuck⟩ := (scripted ha).exists_stuck eager
  obtain ⟨-, hcomplete⟩ := (scripted ha).complete_of_run hrun hstuck
  exact already_of_ends ha hdata hcomplete (h.ends events s hrun hstuck)

end

end

/-- A collective of ranks that agree in the tag is correct if and only if the buffers that the
code does not fill hold the result already. -/
theorem correct_iff_already
    (k : TreeCollective T) (g : T → T → T) (data : Nat → Nat → T) (eager : Payload T → Bool)
    (ha : k.Accepted g)
    (hdata : ∀ r < k.size, k.mydata r = some (data r))
    (hresult : ∀ r < k.size, k.HasResult r → (k.result r).isSome) :
    k.Correct g data eager ↔ k.Already data := by
  refine ⟨Correct.already ha hdata, fun halready => ⟨spanningTree ha.tree,
    ⟨_, fun events s hrun => ((scripted ha).follows_of_run hrun).2⟩,
    fun events s hrun hstuck => ?_⟩⟩
  obtain ⟨hfinished, hcomplete⟩ := (scripted ha).complete_of_run hrun hstuck
  exact ends_of_complete ha hdata hresult halready hfinished hcomplete

/-- Three ranks add their numbers. -/
def sumOfThree : TreeCollective Int where
  degree := 2
  size := 3
  type := .Allreduce
  root := 0
  count := 1
  dtype := .INT
  op := .Sum
  mydata := fun r => some fun _ => r
  result := fun _ => some fun _ => 0
  seq := fun _ => 0

/-- Rank 0 sends its number to rank 1. -/
def bcastOfTwo : TreeCollective Int where
  degree := 2
  size := 2
  type := .Bcast
  root := 0
  count := 1
  dtype := .INT
  op := .Nop
  mydata := fun r => some fun _ => r
  result := fun _ => none
  seq := fun _ => 0

theorem correct_sumOfThree : sumOfThree.Correct (· + ·) (fun r _ => r) fun _ => true := by
  have ha : sumOfThree.Accepted (· + ·) :=
    ⟨⟨by decide, by decide, by decide⟩, by decide, by decide, fun _ _ => rfl, fun _ _ _ _ _ => rfl,
      fun _ => computes_of_doOp (by decide) fun _ _ => rfl⟩
  refine (correct_iff_already sumOfThree (· + ·) (fun r _ => r) (fun _ => true) ha
    (fun _ _ => rfl) fun _ _ _ => rfl).2 ⟨fun h => ?_, fun h => ?_⟩
  · cases h
  · exact absurd h (by decide)

theorem not_correct_bcastOfTwo : ¬ bcastOfTwo.Correct (· + ·) (fun r _ => r) fun _ => true := by
  intro h
  have ha : bcastOfTwo.Accepted (· + ·) :=
    ⟨⟨by decide, by decide, by decide⟩, by decide, by decide, fun _ _ => rfl,
      fun h => absurd rfl h, fun h => absurd rfl h⟩
  have hsame := (Correct.already ha (fun _ _ => rfl) h).broadcast rfl 1 (by decide) 0 (by decide)
  exact absurd hsame (by decide)

end Correctness

end TreeCollective

end SstElements.Firefly
