import SstElements.Vanadis.MemoryTick

/-!
# Retirement and squashes

Instructions leave a buffer at its front when they have executed, or all of them are
squashed; then the queue is cleared for the thread.  A flush of the queue by a system
call drops only fences, since no load or store issues behind a system call.
-/

namespace SstElements.Vanadis

open Library Function List Option

universe u

variable {Op : Type u} {hw_threads : Nat} {rest : List (VanadisInstruction Op)}

section Buffers

variable {rob : List (VanadisInstruction Op)} {j : Nat}

theorem forall₂_progress_refl (rob : List (VanadisInstruction Op)) :
    List.Forall₂ VanadisInstruction.Progress rob rob :=
  forall₂_same.2 fun x _ => VanadisInstruction.Progress.refl x

theorem progress_front {front front' : VanadisInstruction Op}
    (h : VanadisInstruction.Progress front front') :
    List.Forall₂ VanadisInstruction.Progress (front :: rest) (front' :: rest) :=
  List.Forall₂.cons h (forall₂_progress_refl rest)

variable {ins : VanadisInstruction Op}

theorem forall₂_set {R : VanadisInstruction Op → VanadisInstruction Op → Prop}
    {ins' : VanadisInstruction Op} (hrefl : ∀ x, R x x) (hj : rob[j]? = some ins) (h : R ins ins') :
    List.Forall₂ R rob (rob.set j ins') := by
  induction rob generalizing j with
  | nil => cases hj
  | cons x rest ih =>
    cases j with
    | zero =>
      cases hj
      exact List.Forall₂.cons h (forall₂_same.2 fun x _ => hrefl x)
    | succ j =>
      exact List.Forall₂.cons (hrefl x) (ih hj)

theorem markFrontOfROB_progress (ins : VanadisInstruction Op) :
    VanadisInstruction.Progress ins ins.markFrontOfROB :=
  ⟨rfl, rfl, rfl, rfl, fun _ => rfl⟩

theorem markExecuted_progress (h : ins.func_type.isMemory = false) :
    VanadisInstruction.Progress ins ins.markExecuted :=
  ⟨rfl, rfl, rfl, rfl, fun hmem => by rw [h] at hmem; cases hmem⟩

theorem isMemory_of_isSyscall (h : ins.isSyscall = true) : ins.func_type.isMemory = false := by
  rw [of_decide_eq_true h]
  rfl

end Buffers

namespace VanadisComponent

variable {core : VanadisComponent Op hw_threads} {thr : Fin hw_threads}

theorem performRetire_rob (ret : Bool) :
    ((core.performRetire thr ret).threads thr).isa_options = (core.threads thr).isa_options ∧
      (∀ x ∈ retiring (core.threads thr).rob, x.hasExecuted = true) ∧
      retiring (core.threads thr).rob <+: (core.threads thr).rob ∧
      if (retiring (core.threads thr).rob).head?.any (·.mispredicted) then
        ((core.performRetire thr ret).threads thr).rob = []
      else
        List.Forall₂ VanadisInstruction.Progress
          ((core.threads thr).rob.drop (retiring (core.threads thr).rob).length)
          ((core.performRetire thr ret).threads thr).rob := by
  have hset : ∀ rob, ((core.setRob thr rob).threads thr).isa_options =
      (core.threads thr).isa_options ∧ ((core.setRob thr rob).threads thr).rob = rob := by
    intro rob
    rw [setRob_threads, update_self]
    exact ⟨rfl, rfl⟩
  unfold performRetire
  cases hrob : (core.threads thr).rob with
  | nil =>
    refine ⟨rfl, by simp [retiring], by simp [retiring], ?_⟩
    rw [if_neg (by simp [retiring])]
    rw [hrob]
    exact forall₂_progress_refl _
  | cons front rest =>
    unfold retiring
    by_cases hdone : (front.hasIssued && front.hasExecuted) = true
    · simp only [if_pos hdone]
      have hexec : front.hasExecuted = true := (Bool.and_eq_true _ _ ▸ hdone).2
      by_cases hslot : front.hasDelaySlot = true
      · simp only [if_pos hslot]
        cases rest with
        | nil =>
          refine ⟨rfl, by simp, by simp, ?_⟩
          rw [if_neg (by simp)]
          rw [hrob]
          exact forall₂_progress_refl _
        | cons delay rest =>
          by_cases hdelay : delay.hasExecuted = true
          · simp only [if_pos hdelay]
            refine ⟨?_, ?_, ⟨rest, rfl⟩, ?_⟩
            · unfold retireWithDelay
              split
              · rw [handleMisspeculate_threads, update_self]
                exact recoverRetiredRegisters_thread.1.trans
                  recoverRetiredRegisters_thread.1
              · exact recoverRetiredRegisters_thread.1.trans
                  recoverRetiredRegisters_thread.1
            · intro x hx
              simp only [mem_cons, not_mem_nil, or_false] at hx
              rcases hx with rfl | rfl
              · exact hexec
              · exact hdelay
            · unfold retireWithDelay
              dsimp only [head?_cons, any_some]
              split
              · rw [handleMisspeculate_threads, update_self]
              · rw [recoverRetiredRegisters_thread.2]
                exact forall₂_progress_refl _
          · simp only [if_neg hdelay]
            refine ⟨(hset _).1, by simp, by simp, ?_⟩
            rw [if_neg (by simp), (hset _).2]
            exact List.Forall₂.cons (VanadisInstruction.Progress.refl front)
              (progress_front (markFrontOfROB_progress delay))
      · simp only [if_neg hslot]
        refine ⟨?_, ?_, ⟨rest, rfl⟩, ?_⟩
        · unfold retireFront
          split
          · rw [handleMisspeculate_threads, update_self]
            exact recoverRetiredRegisters_thread.1
          · exact recoverRetiredRegisters_thread.1
        · intro x hx
          rw [mem_singleton.1 hx]
          exact hexec
        · unfold retireFront
          dsimp only [head?_cons, any_some]
          split
          · rw [handleMisspeculate_threads, update_self]
          · rw [recoverRetiredRegisters_thread.2]
            exact forall₂_progress_refl _
    · simp only [if_neg hdone]
      have hmarked : ∀ core' : VanadisComponent Op hw_threads, ∀ front',
          core' = core.setRob thr (front' :: rest) →
          VanadisInstruction.Progress front front' →
          (core'.threads thr).isa_options = (core.threads thr).isa_options ∧
            (∀ x ∈ ([] : List (VanadisInstruction Op)), x.hasExecuted = true) ∧
            [] <+: front :: rest ∧
            if ([] : List (VanadisInstruction Op)).head?.any (·.mispredicted) = true then
              (core'.threads thr).rob = []
            else
              List.Forall₂ VanadisInstruction.Progress
                ((front :: rest).drop ([] : List (VanadisInstruction Op)).length)
                (core'.threads thr).rob := by
        rintro core' front' rfl hprogress
        refine ⟨(hset _).1, by simp, by simp, ?_⟩
        rw [if_neg (by simp), (hset _).2]
        exact progress_front hprogress
      by_cases hsys : front.isSyscall = true
      · simp only [if_pos hsys]
        split
        · refine hmarked _ _ rfl ?_
          split
          · exact ⟨rfl, rfl, rfl, rfl, fun hmem => by
              rw [isMemory_of_isSyscall hsys] at hmem
              cases hmem⟩
          · exact markFrontOfROB_progress front
        · refine ⟨rfl, by simp, by simp, ?_⟩
          rw [if_neg (by simp), hrob]
          exact forall₂_progress_refl _
      · simp only [if_neg hsys]
        exact hmarked _ _ rfl (markFrontOfROB_progress front)

end VanadisComponent

namespace MemoryCore

variable {fenceType : Op → VanadisFenceType}
variable {m m' : MemoryCore Op hw_threads} {thr : Fin hw_threads}
variable {core' : VanadisComponent Op hw_threads} {k : Nat}
variable {id : InsId hw_threads}

theorem mem_insIds {first n : Nat} (hthr : id.hw_thr = thr) (hfirst : first ≤ id.seq)
    (hlt : id.seq < first + n) :
    id ∈ insIds thr first n := by
  subst hthr
  refine mem_map.2 ⟨id.seq - first, mem_range.2 (by omega), ?_⟩
  cases id
  rw [InsId.mk.injEq]
  dsimp only at hfirst
  exact ⟨rfl, by dsimp only; omega⟩

theorem lookup_eq (hthr : id.hw_thr = thr) :
    m.lookup id =
      if m.first_seq thr ≤ id.seq then (m.core.threads thr).rob[id.seq - m.first_seq thr]?
      else none := by
  subst hthr
  rfl

theorem lookup_other (hcore : m'.core.threads id.hw_thr = m.core.threads id.hw_thr)
    (hfirst : m'.first_seq id.hw_thr = m.first_seq id.hw_thr) :
    m'.lookup id = m.lookup id := by
  rw [lookup, lookup, hcore, hfirst]

theorem Sound.advance (h : Sound fenceType m)
    (hother : ∀ t, t ≠ thr → core'.threads t = m.core.threads t)
    (hoptions : (core'.threads thr).isa_options = (m.core.threads thr).isa_options)
    (hexecuted : ∀ x ∈ (m.core.threads thr).rob.take k, x.hasExecuted = true)
    (hk : k ≤ (m.core.threads thr).rob.length)
    (hrob : List.Forall₂ VanadisInstruction.Progress ((m.core.threads thr).rob.drop k)
      (core'.threads thr).rob) :
    Sound fenceType
      { m with
        core := core'
        first_seq := update m.first_seq thr (m.first_seq thr + k) } := by
  let m' : MemoryCore Op hw_threads :=
    { m with core := core', first_seq := update m.first_seq thr (m.first_seq thr + k) }
  have hkeep (id : InsId hw_threads) (hthr : id.hw_thr ≠ thr) : m'.lookup id = m.lookup id :=
    lookup_other (hother _ hthr) (update_of_ne hthr _ _)
  have hself (id : InsId hw_threads) (hthr : id.hw_thr = thr) : m'.lookup id =
      if m.first_seq thr + k ≤ id.seq then
        (core'.threads thr).rob[id.seq - (m.first_seq thr + k)]?
      else none := by
    rw [lookup_eq hthr]
    simp only [m', update_self]
  have hlen := hrob.length_eq
  rw [length_drop] at hlen
  refine h.recedes ?_
  exact {
    options := fun t => by
      by_cases ht : t = thr
      · subst ht
        exact hoptions
      · exact congrArg HwThread.isa_options (hother t ht)
    lookup := fun id x' hx' => by
      by_cases hthr : id.hw_thr = thr
      · rw [hself id hthr] at hx'
        split at hx'
        case isFalse => cases hx'
        case isTrue hle =>
          obtain ⟨hlt, hget⟩ := List.getElem?_eq_some_iff.1 hx'
          have hlt' : id.seq - (m.first_seq thr + k) <
              ((m.core.threads thr).rob.drop k).length := by
            rw [length_drop]
            omega
          refine ⟨((m.core.threads thr).rob.drop k)[id.seq - (m.first_seq thr + k)], ?_, ?_⟩
          · rw [lookup_eq hthr, if_pos (by omega), getElem_drop, getElem?_eq_some_iff]
            exact ⟨by omega, by congr 1; omega⟩
          · rw [← hget]
            exact hrob.get hlt' hlt
      · rw [hkeep id hthr] at hx'
        exact ⟨x', hx', VanadisInstruction.Progress.refl x'⟩
    gone := fun id x hx hnone => by
      by_cases hthr : id.hw_thr = thr
      · rw [hself id hthr] at hnone
        rw [lookup_eq hthr] at hx
        split at hx
        case isFalse => cases hx
        case isTrue hle =>
          obtain ⟨hlt, hget⟩ := List.getElem?_eq_some_iff.1 hx
          have hbefore : id.seq < m.first_seq thr + k := by
            by_contra hnot
            rw [if_pos (by omega), getElem?_eq_none_iff] at hnone
            omega
          refine .inl (hexecuted x (mem_take_iff_getElem.2
            ⟨id.seq - m.first_seq thr, by omega, hget⟩))
      · rw [hkeep id hthr, hx] at hnone
        cases hnone
    next := fun t => by
      unfold next_seq
      by_cases ht : t = thr
      · subst ht
        simp only [update_self]
        omega
      · simp only [update_of_ne ht, hother t ht]
        exact le_rfl
    op_q := List.Sublist.refl _
    loads_pending := List.Sublist.refl _
    stores_pending := List.Sublist.refl _
    std_stores_in_flight := rfl
    next_id := rfl
    dropped_ops := fun _ he => .inl he
    dropped_loads := fun _ he => .inl he
    dropped_stores := fun _ he => .inl he
    kept := fun id hid => by
      obtain ⟨x, hx, -, hnot, -⟩ := h.queue.live hid
      by_cases hthr : id.hw_thr = thr
      · rw [hself id hthr]
        rw [lookup_eq hthr] at hx
        split at hx
        case isFalse => cases hx
        case isTrue hle =>
          obtain ⟨hlt, hget⟩ := List.getElem?_eq_some_iff.1 hx
          have hbehind : m.first_seq thr + k ≤ id.seq := by
            by_contra hlt'
            have hexec := hexecuted x (mem_take_iff_getElem.2
              ⟨id.seq - m.first_seq thr, by omega, hget⟩)
            rw [hnot] at hexec
            cases hexec
          rw [if_pos hbehind, Ne, getElem?_eq_none_iff]
          omega
      · rw [hkeep id hthr, hx]
        exact some_ne_none x
    pushed := rfl
    sent := rfl
    errors := fun _ hid => hid
    in_flight := rfl
    squashed := fun _ hid => hid }

theorem Sound.setRob {rob : List (VanadisInstruction Op)} (h : Sound fenceType m)
    (hrob : List.Forall₂ VanadisInstruction.Progress (m.core.threads thr).rob rob) :
    Sound fenceType { m with core := m.core.setRob thr rob } := by
  have hset : ∀ t, t ≠ thr → (m.core.setRob thr rob).threads t = m.core.threads t := by
    intro t ht
    rw [VanadisComponent.setRob_threads, update_of_ne ht]
  have hself : (m.core.setRob thr rob).threads thr =
      { m.core.threads thr with rob := rob } := by
    rw [VanadisComponent.setRob_threads, update_self]
  have hadvance := @Sound.advance _ _ fenceType m thr (m.core.setRob thr rob) 0 h hset
    (by rw [hself]) (by simp) (Nat.zero_le _) (by rw [hself]; exact hrob)
  rw [add_zero, update_eq_self] at hadvance
  exact hadvance

theorem dropped_clear {lsq : VanadisBasicLoadStoreQueue hw_threads}
    (h : (lsq.clearLSQByThreadID thr).Holds id) :
    lsq.Holds id ∧ id.hw_thr ≠ thr := by
  rcases h with ⟨e, he, rfl⟩ | ⟨e, he, rfl⟩ | ⟨e, he, rfl⟩
  · obtain ⟨hmem, hne⟩ := mem_filter.1 he
    exact ⟨.inl ⟨e, hmem, rfl⟩, of_decide_eq_true hne⟩
  · obtain ⟨hmem, hne⟩ := mem_filter.1 he
    exact ⟨.inr (.inl ⟨e, hmem, rfl⟩), of_decide_eq_true hne⟩
  · obtain ⟨hmem, hne⟩ := mem_filter.1 he
    exact ⟨.inr (.inr ⟨e, hmem, rfl⟩), of_decide_eq_true hne⟩

section

variable (h : Sound fenceType m)
include h

theorem Sound.squash (hother : ∀ t, t ≠ thr → core'.threads t = m.core.threads t)
    (hoptions : (core'.threads thr).isa_options = (m.core.threads thr).isa_options)
    (hexecuted : ∀ x ∈ (m.core.threads thr).rob.take k, x.hasExecuted = true)
    (hrob : (core'.threads thr).rob = []) :
    Sound fenceType
      { m with
        core := core'
        lsq := m.lsq.clearLSQByThreadID thr
        first_seq := update m.first_seq thr (m.next_seq thr)
        squashed := m.squashed ++
          insIds thr (m.first_seq thr + k) ((m.core.threads thr).rob.length - k) } := by
  let squashed := m.squashed ++
    insIds thr (m.first_seq thr + k) ((m.core.threads thr).rob.length - k)
  let m' : MemoryCore Op hw_threads :=
    { m with
      core := core'
      lsq := m.lsq.clearLSQByThreadID thr
      first_seq := update m.first_seq thr (m.next_seq thr)
      squashed := squashed }
  have hkeep (id : InsId hw_threads) (hthr : id.hw_thr ≠ thr) : m'.lookup id = m.lookup id :=
    lookup_other (hother _ hthr) (update_of_ne hthr _ _)
  have hself (id : InsId hw_threads) (hthr : id.hw_thr = thr) : m'.lookup id = none := by
    rw [lookup_eq hthr]
    simp [m', hrob]
  -- an instruction of the thread that was there has executed or is squashed
  have hgone : ∀ id x, id.hw_thr = thr → m.lookup id = some x →
      x.hasExecuted = true ∨ id ∈ squashed := by
    intro id x hthr hx
    rw [lookup_eq hthr] at hx
    split at hx
    case isFalse => cases hx
    case isTrue hle =>
      obtain ⟨hlt, hget⟩ := List.getElem?_eq_some_iff.1 hx
      by_cases hbefore : id.seq < m.first_seq thr + k
      · exact .inl (hexecuted x (mem_take_iff_getElem.2 ⟨id.seq - m.first_seq thr, by omega, hget⟩))
      · exact .inr (mem_append_right _ (mem_insIds hthr (by omega) (by omega)))
  have hdrop : ∀ id, m.lsq.Holds id → id.hw_thr = thr → id ∈ squashed := by
    intro id hid hthr
    obtain ⟨x, hx, -, hnot, -⟩ := h.queue.live hid
    refine (hgone id x hthr hx).resolve_left fun hexec => ?_
    rw [hnot] at hexec
    cases hexec
  refine h.recedes ?_
  exact {
    options := fun t => by
      by_cases ht : t = thr
      · subst ht
        exact hoptions
      · exact congrArg HwThread.isa_options (hother t ht)
    lookup := fun id x' hx' => by
      by_cases hthr : id.hw_thr = thr
      · rw [hself id hthr] at hx'
        cases hx'
      · rw [hkeep id hthr] at hx'
        exact ⟨x', hx', VanadisInstruction.Progress.refl x'⟩
    gone := fun id x hx hnone => by
      by_cases hthr : id.hw_thr = thr
      · exact (hgone id x hthr hx).imp_right fun hmem =>
          ⟨hmem, fun id' hthr' => hself id' (hthr'.trans hthr)⟩
      · rw [hkeep id hthr, hx] at hnone
        cases hnone
    next := fun t => by
      unfold next_seq
      by_cases ht : t = thr
      · subst ht
        simp only [update_self]
        omega
      · simp only [update_of_ne ht, hother t ht]
        exact le_rfl
    op_q := filter_sublist
    loads_pending := filter_sublist
    stores_pending := filter_sublist
    std_stores_in_flight := rfl
    next_id := rfl
    dropped_ops := fun e he => by
      by_cases hthr : e.getInstruction.hw_thr = thr
      · exact .inr (.inl (hdrop _ (.inl ⟨e, he, rfl⟩) hthr))
      · exact .inl (mem_filter.2 ⟨he, decide_eq_true hthr⟩)
    dropped_loads := fun e he => by
      by_cases hthr : e.ins.hw_thr = thr
      · exact .inr (hdrop _ (.inr (.inl ⟨e, he, rfl⟩)) hthr)
      · exact .inl (mem_filter.2 ⟨he, decide_eq_true hthr⟩)
    dropped_stores := fun e he => by
      by_cases hthr : e.ins.hw_thr = thr
      · exact .inr (hdrop _ (.inr (.inr ⟨e, he, rfl⟩)) hthr)
      · exact .inl (mem_filter.2 ⟨he, decide_eq_true hthr⟩)
    kept := fun id hid => by
      obtain ⟨hold, hthr⟩ := dropped_clear hid
      obtain ⟨x, hx, -⟩ := h.queue.live hold
      rw [hkeep id hthr, hx]
      exact some_ne_none x
    pushed := rfl
    sent := rfl
    errors := fun _ hid => hid
    in_flight := rfl
    squashed := fun _ hid => mem_append_left _ hid }

theorem Sound.flush {front : VanadisInstruction Op}
    (hrob : (m.core.threads thr).rob = front :: rest) (hsys : front.isSyscall = true) :
    Sound fenceType { m with lsq := m.lsq.clearLSQByThreadID thr } := by
  have hfront : m.lookup ⟨thr, m.first_seq thr⟩ = some front := by
    rw [lookup, if_pos le_rfl]
    simp [hrob]
  -- what the queue holds of the thread is behind the call, so it is a fence
  have hfence : ∀ id, m.lsq.Holds id → id.hw_thr = thr →
      ∃ x, m.lookup id = some x ∧ x.isAccess = false := by
    intro id hid hthr
    obtain ⟨x, hx, hissued, -, hmem⟩ := h.queue.live hid
    refine ⟨x, hx, Bool.eq_false_iff.2 fun haccess => ?_⟩
    have hle := (lookup_lt hx).1
    rw [hthr] at hle
    rcases lt_or_ge (m.first_seq thr) id.seq with hlt | hge
    · have hnot := h.rob.behind ⟨thr, m.first_seq thr⟩ id front x hthr.symm hlt hfront hx hsys
        haccess
      rw [hissued] at hnot
      cases hnot
    · have heq : id = ⟨thr, m.first_seq thr⟩ := by
        cases id
        rw [InsId.mk.injEq]
        exact ⟨hthr, le_antisymm hge hle⟩
      rw [heq, hfront, Option.some.injEq] at hx
      rw [← hx, isMemory_of_isSyscall hsys] at hmem
      cases hmem
  have hnone : ∀ id x, m.lsq.Holds id → id.hw_thr = thr → m.lookup id = some x →
      x.isAccess = true → False := by
    intro id x hid hthr hx haccess
    obtain ⟨y, hy, hnot⟩ := hfence id hid hthr
    rw [hx, Option.some.injEq] at hy
    rw [← hy, haccess] at hnot
    cases hnot
  refine h.recedes ?_
  exact {
    options := fun _ => rfl
    lookup := fun id x' hx' => ⟨x', hx', VanadisInstruction.Progress.refl x'⟩
    gone := fun id x hx hgone => by
      rw [show m.lookup id = none from hgone] at hx
      cases hx
    next := fun _ => le_rfl
    op_q := filter_sublist
    loads_pending := filter_sublist
    stores_pending := filter_sublist
    std_stores_in_flight := rfl
    next_id := rfl
    dropped_ops := fun e he => by
      by_cases hthr : e.getInstruction.hw_thr = thr
      · exact .inr (.inr (.inr (hfence _ (.inl ⟨e, he, rfl⟩) hthr)))
      · exact .inl (mem_filter.2 ⟨he, decide_eq_true hthr⟩)
    dropped_loads := fun e he => by
      by_cases hthr : e.ins.hw_thr = thr
      · obtain ⟨x, hx, -, -, htype⟩ := h.queue.loads_live e he
        refine absurd ?_ (hnone _ x (.inr (.inl ⟨e, he, rfl⟩)) hthr hx)
        rw [VanadisInstruction.isAccess, htype]
        rfl
      · exact .inl (mem_filter.2 ⟨he, decide_eq_true hthr⟩)
    dropped_stores := fun e he => by
      by_cases hthr : e.ins.hw_thr = thr
      · obtain ⟨x, hx, -, -, htype⟩ := h.queue.stores_live e he
        refine absurd ?_ (hnone _ x (.inr (.inr ⟨e, he, rfl⟩)) hthr hx)
        rw [VanadisInstruction.isAccess, htype]
        rfl
      · exact .inl (mem_filter.2 ⟨he, decide_eq_true hthr⟩)
    kept := fun id hid => by
      obtain ⟨x, hx, -⟩ := h.queue.live (dropped_clear hid).1
      exact fun hgone => some_ne_none x (hx.symm.trans hgone)
    pushed := rfl
    sent := rfl
    errors := fun _ hid => hid
    in_flight := rfl
    squashed := fun _ hid => hid }

theorem Sound.retire {ret flushLSQ : Bool} (hstep : m.retire thr ret flushLSQ = some m') :
    Sound fenceType m' := by
  obtain ⟨hoptions, hexecuted, hprefix, hrob⟩ :=
    @VanadisComponent.performRetire_rob _ _ m.core thr ret
  have hle := hprefix.length_le
  rw [prefix_iff_eq_take.1 hprefix] at hexecuted
  unfold MemoryCore.retire at hstep
  dsimp only at hstep
  split at hstep
  · cases hstep
  · split at hstep
    case isTrue hmiss =>
      cases hstep
      rw [if_pos hmiss] at hrob
      exact h.squash (fun t ht => VanadisComponent.performRetire_other ht) hoptions hexecuted
        hrob
    case isFalse hmiss =>
      cases hstep
      rw [if_neg hmiss] at hrob
      split
      case isFalse =>
        exact h.advance (fun t ht => VanadisComponent.performRetire_other ht) hoptions
          hexecuted hle hrob
      case isTrue hflush =>
        have hhands := (Bool.and_eq_true _ _ ▸ hflush).1
        cases hbuffer : (m.core.threads thr).rob with
        | nil =>
          rw [hbuffer] at hhands
          cases hhands
        | cons front others =>
          rw [hbuffer] at hhands
          unfold handsSyscall at hhands
          simp only [Bool.and_eq_true] at hhands
          rw [← hbuffer]
          exact (h.flush hbuffer hhands.1.1.2).advance
            (fun t ht => VanadisComponent.performRetire_other ht) hoptions hexecuted hle hrob

theorem Sound.execute {j takenAddress : Nat} (hstep : m.execute thr j takenAddress = some m') :
    Sound fenceType m' := by
  unfold MemoryCore.execute at hstep
  split at hstep
  case isFalse => cases hstep
  case isTrue hmem =>
    obtain ⟨core', hcore, rfl⟩ := map_eq_some_iff.1 hstep
    obtain ⟨ins, hins, -, -, rfl⟩ := VanadisComponent.performExecute_eq_some hcore
    rw [hins, any_some, Bool.not_eq_true'] at hmem
    have hprogress : VanadisInstruction.Progress ins
        (ins.setTakenAddress takenAddress).markExecuted :=
      ⟨rfl, rfl, rfl, rfl, fun hmem' => by rw [hmem] at hmem'; cases hmem'⟩
    exact h.setRob (forall₂_set VanadisInstruction.Progress.refl hins hprogress)

theorem Sound.syscallReturn {core' : VanadisComponent Op hw_threads}
    (hstep : m.core.syscallReturn thr = some core') :
    Sound fenceType { m with core := core' } := by
  unfold VanadisComponent.syscallReturn at hstep
  split at hstep
  case h_1 => cases hstep
  case h_2 front rest hrob =>
    split at hstep
    case isFalse => cases hstep
    case isTrue hsys =>
      cases hstep
      refine h.setRob ?_
      rw [hrob]
      exact progress_front (markExecuted_progress (isMemory_of_isSyscall hsys))

end

end MemoryCore

end SstElements.Vanadis
