import SstElements.Vanadis.QueueEffects

/-!
# The steps of the queue keep what holds in every state

A step pops the front of the queue, sends its requests under new numbers, or moves a
store to the pending stores.  A fence is popped when nothing of its thread is pending,
and then the memory operations before it are done.
-/

namespace SstElements.Vanadis

open Library List

universe u

variable {Op : Type u} {hw_threads : Nat}

theorem InsId.not_before_self (id : InsId hw_threads) : ¬id.Before id :=
  fun h => lt_irrefl _ (h rfl)

namespace MemoryCore

variable {fenceType : Op → VanadisFenceType}
variable {m : MemoryCore Op hw_threads}
variable {e : VanadisBasicLoadStoreEntry hw_threads}
variable {rest : List (VanadisBasicLoadStoreEntry hw_threads)}

section Front

section

variable (h : QueueSound fenceType m)
include h

theorem QueueSound.front_free (hq : m.lsq.op_q = e :: rest) :
    ¬{ m.lsq with op_q := rest }.Holds e.getInstruction := by
  have hloads := h.loads_order
  have hstores := h.stores_order
  rw [hq, map_cons, pairwise_append, pairwise_cons] at hloads hstores
  rintro (⟨e', he', heq⟩ | ⟨e', he', heq⟩ | ⟨e', he', heq⟩)
  · have hbefore := hloads.2.1.1 _ (mem_map_of_mem he')
    rw [heq] at hbefore
    exact InsId.not_before_self _ hbefore
  · have hbefore := hloads.2.2 _ (mem_map_of_mem he') _ mem_cons_self
    rw [heq] at hbefore
    exact InsId.not_before_self _ hbefore
  · have hbefore := hstores.2.2 _ (mem_map_of_mem he') _ mem_cons_self
    rw [heq] at hbefore
    exact InsId.not_before_self _ hbefore

theorem QueueSound.store_free {entry : VanadisBasicStorePendingEntry hw_threads}
    {others : List (VanadisBasicStorePendingEntry hw_threads)}
    (hq : m.lsq.stores_pending = entry :: others) :
    ¬{ m.lsq with stores_pending := others }.Holds entry.ins := by
  have hstores := h.stores_order
  rw [hq, map_cons, cons_append, pairwise_cons] at hstores
  rintro (⟨e', he', heq⟩ | ⟨e', he', heq⟩ | ⟨e', he', heq⟩)
  · have hbefore := hstores.1 _ (mem_append_right _ (mem_map_of_mem he'))
    rw [heq] at hbefore
    exact InsId.not_before_self _ hbefore
  · obtain ⟨x, hx, -, -, htype⟩ := h.stores_live entry (hq ▸ mem_cons_self)
    obtain ⟨y, hy, -, -, htype'⟩ := h.loads_live e' he'
    rw [heq, hx, Option.some.injEq] at hy
    rw [← hy, htype] at htype'
    cases htype'
  · have hbefore := hstores.1 _ (mem_append_left _ (mem_map_of_mem he'))
    rw [heq] at hbefore
    exact InsId.not_before_self _ hbefore

theorem QueueSound.recedes_pop {errors : List (InsId hw_threads)} (hq : m.lsq.op_q = e :: rest)
    (herrors : ∀ id ∈ m.errors, id ∈ errors)
    (hdrop : e.getInstruction ∈ errors ∨
      ∃ x, m.lookup e.getInstruction = some x ∧ x.isAccess = false) :
    m.Recedes { m with lsq := { m.lsq with op_q := rest }, errors := errors } where
  options := fun _ => rfl
  lookup := fun id x' hx' => ⟨x', hx', VanadisInstruction.Progress.refl x'⟩
  gone := fun id x hx hnone => by
    rw [show m.lookup id = none from hnone] at hx
    cases hx
  next := fun _ => le_rfl
  op_q := hq ▸ sublist_cons_self e rest
  loads_pending := List.Sublist.refl _
  stores_pending := List.Sublist.refl _
  std_stores_in_flight := rfl
  next_id := rfl
  dropped_ops := fun e' he' => by
    rw [hq] at he'
    rcases mem_cons.1 he' with rfl | he'
    · exact .inr (.inr hdrop)
    · exact .inl he'
  dropped_loads := fun _ he => .inl he
  dropped_stores := fun _ he => .inl he
  kept := fun id hid => by
    have hheld : m.lsq.Holds id :=
      hid.imp (fun ⟨e', he', heq⟩ => ⟨e', hq ▸ mem_cons_of_mem e he', heq⟩) fun hid => hid
    obtain ⟨x, hx, -⟩ := h.live hheld
    exact fun hnone => Option.some_ne_none x (hx.symm.trans hnone)
  pushed := rfl
  sent := rfl
  errors := herrors
  in_flight := rfl
  squashed := fun _ hid => hid

end

end Front

section Requests

variable {reqs : List (MemRequest hw_threads)}

section

variable (h : QueueSound fenceType m)
include h

theorem QueueSound.ids_append
    (hids : reqs.map MemRequest.id = range' m.lsq.next_id reqs.length) :
    ((m.in_flight ++ reqs).map MemRequest.id).Nodup ∧
      ∀ req ∈ m.in_flight ++ reqs, req.id < m.lsq.next_id + reqs.length := by
  have hnew : ∀ req ∈ reqs, m.lsq.next_id ≤ req.id ∧
      req.id < m.lsq.next_id + reqs.length := fun req hreq =>
    mem_range'_1.1 (hids ▸ mem_map_of_mem hreq)
  constructor
  · rw [map_append, nodup_append]
    refine ⟨h.ids_nodup, hids ▸ nodup_range', ?_⟩
    intro i hi j hj heq
    obtain ⟨req, hreq, rfl⟩ := mem_map.1 hi
    obtain ⟨req', hreq', rfl⟩ := mem_map.1 hj
    have hlt := h.ids_lt req hreq
    have hle := (hnew req' hreq').1
    omega
  · intro req hreq
    rcases mem_append.1 hreq with hreq | hreq
    · have hlt := h.ids_lt req hreq
      omega
    · exact (hnew req hreq).2

variable {ins : InsId hw_threads}

theorem QueueSound.sendLoad {access : LoadAccess} (hq : m.lsq.op_q = .load ins access :: rest)
    (hne : reqs ≠ []) (hreqs : ∀ req ∈ reqs, req.ins = ins ∧ req.kind.isRead = true)
    (hids : reqs.map MemRequest.id = range' m.lsq.next_id reqs.length) :
    QueueSound fenceType
      { m with
        lsq :=
          { m.lsq with
            op_q := rest
            loads_pending := m.lsq.loads_pending ++
              [{ ins := ins, access := access, requests := reqs.map MemRequest.id }]
            next_id := m.lsq.next_id + reqs.length }
        in_flight := m.in_flight ++ reqs
        sent := m.sent ++ reqs } where
  __ := h
  ops_live := fun e he => h.ops_live e (hq ▸ mem_cons_of_mem _ he)
  loads_live := fun e he => by
    rcases mem_append.1 he with he | he
    · exact h.loads_live e he
    · rw [mem_singleton.1 he]
      exact h.ops_live (.load ins access) (hq ▸ mem_cons_self)
  loads_order := by
    have horder := h.loads_order
    rw [hq, map_cons] at horder
    rw [map_append, append_assoc]
    exact horder
  stores_order := h.stores_order.sublist
    ((List.Sublist.refl _).append ((hq ▸ sublist_cons_self _ _ : rest.Sublist m.lsq.op_q).map _))
  ids_nodup := (h.ids_append hids).1
  ids_lt := (h.ids_append hids).2
  reads := fun req hreq hread => by
    rcases mem_append.1 hreq with hreq | hreq
    · exact (h.reads req hreq hread).imp_right fun ⟨e, he, heq, hmem⟩ =>
        ⟨e, mem_append_left _ he, heq, hmem⟩
    · exact .inr ⟨_, mem_append_right _ (mem_singleton.2 rfl),
        (hreqs req hreq).1.symm, mem_map_of_mem hreq⟩
  writes := fun req hreq hwrite => by
    rcases mem_append.1 hreq with hreq | hreq
    · exact h.writes req hreq hwrite
    · rw [(hreqs req hreq).2] at hwrite
      cases hwrite
  dispatched := fun e he => (h.dispatched e he).imp_right fun ⟨hdisp, req, hreq, heq⟩ =>
    ⟨hdisp, req, mem_append_left _ hreq, heq⟩
  accounted := fun id hid => by
    have hgrow : (∃ req ∈ m.sent, req.ins = id) → ∃ req ∈ m.sent ++ reqs, req.ins = id :=
      fun ⟨req, hreq, heq⟩ => ⟨req, mem_append_left _ hreq, heq⟩
    rcases h.accounted id hid with hsquashed | ⟨e, he, heq⟩ | hstore | herror | hsent
    · exact .inl hsquashed
    · rw [hq] at he
      rcases mem_cons.1 he with rfl | he
      · obtain ⟨req, reqs, rfl⟩ := exists_cons_of_ne_nil hne
        exact .inr (.inr (.inr (.inr ⟨req, mem_append_right _ mem_cons_self,
          (hreqs req mem_cons_self).1.trans heq⟩)))
      · exact .inr (.inl ⟨e, he, heq⟩)
    · exact .inr (.inr (.inl hstore))
    · exact .inr (.inr (.inr (.inl herror)))
    · exact .inr (.inr (.inr (.inr (hgrow hsent))))

theorem QueueSound.moveStore {access : StoreAccess} (hq : m.lsq.op_q = .store ins access :: rest) :
    QueueSound fenceType
      { m with
        lsq :=
          { m.lsq with
            op_q := rest
            stores_pending := m.lsq.stores_pending ++
              [{ ins := ins, access := access, requests := [], dispatched := false }] } } :=
  { h with
    ops_live := fun e he => h.ops_live e (hq ▸ mem_cons_of_mem _ he)
    stores_live := fun e he => by
      rcases mem_append.1 he with he | he
      · exact h.stores_live e he
      · rw [mem_singleton.1 he]
        exact h.ops_live (.store ins access) (hq ▸ mem_cons_self)
    loads_order := h.loads_order.sublist
      ((List.Sublist.refl _).append ((hq ▸ sublist_cons_self _ _ : rest.Sublist m.lsq.op_q).map _))
    stores_order := by
      have horder := h.stores_order
      rw [hq, map_cons] at horder
      rw [map_append, append_assoc]
      exact horder
    writes := fun req hreq hwrite =>
      (h.writes req hreq hwrite).imp_right fun hstd => hstd.imp_right fun ⟨e, he, heq⟩ =>
        ⟨e, mem_append_left _ he, heq⟩
    dispatched := fun e he => by
      rcases mem_append.1 he with he | he
      · exact h.dispatched e he
      · rw [mem_singleton.1 he]
        exact .inl ⟨rfl, rfl⟩
    accounted := fun id hid => by
      rcases h.accounted id hid with hsquashed | ⟨e, he, heq⟩ | ⟨e, he, heq⟩ | hdone
      · exact .inl hsquashed
      · rw [hq] at he
        rcases mem_cons.1 he with rfl | he
        · exact .inr (.inr (.inl ⟨_, mem_append_right _ (mem_singleton.2 rfl), heq⟩))
        · exact .inr (.inl ⟨e, he, heq⟩)
      · exact .inr (.inr (.inl ⟨e, mem_append_left _ he, heq⟩))
      · exact .inr (.inr (.inr hdone)) }

end

variable {entry : VanadisBasicStorePendingEntry hw_threads}
variable {others : List (VanadisBasicStorePendingEntry hw_threads)}

section

variable (h : QueueSound fenceType m)
variable (hq : m.lsq.stores_pending = entry :: others)
variable (hnot : entry.dispatched = false)
include h hq hnot

theorem QueueSound.sendStore (hne : reqs ≠ [])
    (hreqs : ∀ req ∈ reqs, req.ins = entry.ins ∧ req.kind.isRead = false)
    (hids : reqs.map MemRequest.id = range' m.lsq.next_id reqs.length) :
    QueueSound fenceType
      { m with
        lsq :=
          { m.lsq with
            stores_pending := others
            std_stores_in_flight := m.lsq.std_stores_in_flight ++ reqs.map MemRequest.id
            next_id := m.lsq.next_id + reqs.length }
        in_flight := m.in_flight ++ reqs
        sent := m.sent ++ reqs } where
  __ := h
  stores_live := fun e he => h.stores_live e (hq ▸ mem_cons_of_mem _ he)
  stores_order := h.stores_order.sublist
    (((hq ▸ sublist_cons_self _ _ : others.Sublist m.lsq.stores_pending).map _).append
      (List.Sublist.refl _))
  ids_nodup := (h.ids_append hids).1
  ids_lt := (h.ids_append hids).2
  reads := fun req hreq hread => by
    rcases mem_append.1 hreq with hreq | hreq
    · exact h.reads req hreq hread
    · rw [(hreqs req hreq).2] at hread
      cases hread
  writes := fun req hreq hwrite => by
    rcases mem_append.1 hreq with hreq | hreq
    · rcases h.writes req hreq hwrite with hsquashed | hstd | ⟨e, he, heq, hone⟩
      · exact .inl hsquashed
      · exact .inr (.inl (mem_append_left _ hstd))
      · rw [hq] at he
        rcases mem_cons.1 he with rfl | he
        · -- a store that has not been sent has no request in flight
          rcases h.dispatched e (hq ▸ mem_cons_self) with ⟨-, hnone⟩ | ⟨hdisp, -⟩
          · rw [hnone] at hone
            cases hone
          · rw [hnot] at hdisp
            cases hdisp
        · exact .inr (.inr ⟨e, he, heq, hone⟩)
    · exact .inr (.inl (mem_append_right _ (mem_map_of_mem hreq)))
  dispatched := fun e he =>
    (h.dispatched e (hq ▸ mem_cons_of_mem _ he)).imp_right fun ⟨hdisp, req, hreq, heq⟩ =>
      ⟨hdisp, req, mem_append_left _ hreq, heq⟩
  accounted := fun id hid => by
    rcases h.accounted id hid with hsquashed | hop | ⟨e, he, heq⟩ | herror | ⟨req, hreq, heq⟩
    · exact .inl hsquashed
    · exact .inr (.inl hop)
    · rw [hq] at he
      rcases mem_cons.1 he with rfl | he
      · obtain ⟨req, reqs, rfl⟩ := exists_cons_of_ne_nil hne
        exact .inr (.inr (.inr (.inr ⟨req, mem_append_right _ mem_cons_self,
          (hreqs req mem_cons_self).1.trans heq⟩)))
      · exact .inr (.inr (.inl ⟨e, he, heq⟩))
    · exact .inr (.inr (.inr (.inl herror)))
    · exact .inr (.inr (.inr (.inr ⟨req, mem_append_left _ hreq, heq⟩)))

theorem QueueSound.dispatchStore {req : MemRequest hw_threads} {flagged : List (InsId hw_threads)}
    (hreq : req.ins = entry.ins ∧ req.kind.isRead = false ∧ req.id = m.lsq.next_id) :
    QueueSound fenceType
      { m with
        lsq :=
          { m.lsq with
            stores_pending :=
              { entry with
                requests := entry.requests ++ [m.lsq.next_id], dispatched := true } :: others
            next_id := m.lsq.next_id + 1 }
        errors := flagged.reverse ++ m.errors
        in_flight := m.in_flight ++ [req]
        sent := m.sent ++ [req] } := by
  have hids : [req].map MemRequest.id = range' m.lsq.next_id [req].length := by
    rw [map_singleton, hreq.2.2]
    rfl
  have hnone : entry.requests = [] := by
    rcases h.dispatched entry (hq ▸ mem_cons_self) with ⟨-, hnone⟩ | ⟨hdisp, -⟩
    · exact hnone
    · rw [hnot] at hdisp
      cases hdisp
  have hone : entry.requests ++ [m.lsq.next_id] = [req.id] := by
    rw [hnone, hreq.2.2]
    rfl
  exact { h with
    stores_live := fun e he => by
      rcases mem_cons.1 he with rfl | he
      · exact h.stores_live entry (hq ▸ mem_cons_self)
      · exact h.stores_live e (hq ▸ mem_cons_of_mem _ he)
    stores_order := by
      have horder := h.stores_order
      rw [hq] at horder
      exact horder
    ids_nodup := (h.ids_append hids).1
    ids_lt := (h.ids_append hids).2
    reads := fun req' hreq' hread => by
      rcases mem_append.1 hreq' with hreq' | hreq'
      · exact h.reads req' hreq' hread
      · rw [mem_singleton.1 hreq', hreq.2.1] at hread
        cases hread
    writes := fun req' hreq' hwrite => by
      rcases mem_append.1 hreq' with hreq' | hreq'
      · rcases h.writes req' hreq' hwrite with hsquashed | hstd | ⟨e, he, heq, hids'⟩
        · exact .inl hsquashed
        · exact .inr (.inl hstd)
        · rw [hq] at he
          rcases mem_cons.1 he with rfl | he
          · rw [hnone] at hids'
            cases hids'
          · exact .inr (.inr ⟨e, mem_cons_of_mem _ he, heq, hids'⟩)
      · rw [mem_singleton.1 hreq']
        exact .inr (.inr ⟨_, mem_cons_self, hreq.1.symm, hone⟩)
    dispatched := fun e he => by
      rcases mem_cons.1 he with rfl | he
      · exact .inr ⟨rfl, req, mem_append_right _ (mem_singleton.2 rfl), hreq.1, hone⟩
      · exact (h.dispatched e (hq ▸ mem_cons_of_mem _ he)).imp_right
          fun ⟨hdisp, req', hreq', heq⟩ => ⟨hdisp, req', mem_append_left _ hreq', heq⟩
    accounted := fun id hid => by
      rcases h.accounted id hid with
        hsquashed | hop | ⟨e, he, heq⟩ | herror | ⟨req', hreq', heq⟩
      · exact .inl hsquashed
      · exact .inr (.inl hop)
      · rw [hq] at he
        rcases mem_cons.1 he with rfl | he
        · exact .inr (.inr (.inl ⟨_, mem_cons_self, heq⟩))
        · exact .inr (.inr (.inl ⟨e, mem_cons_of_mem _ he, heq⟩))
      · exact .inr (.inr (.inr (.inl (mem_append_right _ herror))))
      · exact .inr (.inr (.inr (.inr ⟨req', mem_append_left _ hreq', heq⟩))) }

end

end Requests

end MemoryCore

end SstElements.Vanadis
