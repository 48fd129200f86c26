import SstElements.Vanadis.MemoryOrder

/-!
# The steps of the load/store queue

An attempt to issue moves the front of the queue on, or waits; the front of the pending
stores is sent; an answer ends a request.
-/

namespace SstElements.Vanadis

open Library List Option

universe u

variable {hw_threads : Nat}

/-- What one step of the queue can do, apart from answers. -/
inductive LsqStep
    (flags : InsFlags hw_threads) (lsq : VanadisBasicLoadStoreQueue hw_threads) :
    VanadisBasicLoadStoreQueue hw_threads → List (LsqEffect hw_threads) → Prop
  | stay : LsqStep flags lsq lsq []
  | trapLoad
      {ins : InsId hw_threads} {access : LoadAccess}
      {rest : List (VanadisBasicLoadStoreEntry hw_threads)}
      (hq : lsq.op_q = .load ins access :: rest)
      (htrap : flags.trapsError ins = true) :
      LsqStep flags lsq { lsq with op_q := rest } []
  | flagLoad
      {ins : InsId hw_threads} {access : LoadAccess}
      {rest : List (VanadisBasicLoadStoreEntry hw_threads)}
      (hq : lsq.op_q = .load ins access :: rest) :
      LsqStep flags lsq { lsq with op_q := rest } [.flagError ins]
  | sendLoad
      {ins : InsId hw_threads} {access : LoadAccess}
      {rest : List (VanadisBasicLoadStoreEntry hw_threads)}
      {reqs : List (MemRequest hw_threads)}
      (hq : lsq.op_q = .load ins access :: rest)
      (hne : reqs ≠ [])
      (hreqs : ∀ req ∈ reqs, req.ins = ins ∧ req.kind.isRead = true)
      (hids : reqs.map MemRequest.id = range' lsq.next_id reqs.length) :
      LsqStep flags lsq
        { lsq with
          op_q := rest
          loads_pending := lsq.loads_pending ++
            [{ ins := ins, access := access, requests := reqs.map MemRequest.id }]
          next_id := lsq.next_id + reqs.length }
        (reqs.map LsqEffect.send)
  | trapStore
      {ins : InsId hw_threads} {access : StoreAccess}
      {rest : List (VanadisBasicLoadStoreEntry hw_threads)}
      (hq : lsq.op_q = .store ins access :: rest)
      (htrap : flags.trapsError ins = true) :
      LsqStep flags lsq { lsq with op_q := rest } [.markExecuted ins]
  | moveStore
      {ins : InsId hw_threads} {access : StoreAccess}
      {rest : List (VanadisBasicLoadStoreEntry hw_threads)}
      (hq : lsq.op_q = .store ins access :: rest) :
      LsqStep flags lsq
        { lsq with
          op_q := rest
          stores_pending := lsq.stores_pending ++
            [{ ins := ins, access := access, requests := [], dispatched := false }] }
        []
  | fence
      {ins : InsId hw_threads} {type : VanadisFenceType}
      {rest : List (VanadisBasicLoadStoreEntry hw_threads)}
      (hq : lsq.op_q = .fence ins type :: rest)
      (hloads : type.createsLoadFence = true → lsq.pendingLoads ins.hw_thr = false)
      (hstores : type.createsStoreFence = true →
        lsq.pendingStores ins.hw_thr = false ∧ lsq.std_stores_in_flight = []) :
      LsqStep flags lsq { lsq with op_q := rest } [.markExecuted ins]
  | sendStore
      {entry : VanadisBasicStorePendingEntry hw_threads}
      {rest : List (VanadisBasicStorePendingEntry hw_threads)}
      {reqs : List (MemRequest hw_threads)}
      (hq : lsq.stores_pending = entry :: rest)
      (hnot : entry.dispatched = false)
      (hne : reqs ≠ [])
      (hreqs : ∀ req ∈ reqs, req.ins = entry.ins ∧ req.kind.isRead = false)
      (hids : reqs.map MemRequest.id = range' lsq.next_id reqs.length) :
      LsqStep flags lsq
        { lsq with
          stores_pending := rest
          std_stores_in_flight := lsq.std_stores_in_flight ++ reqs.map MemRequest.id
          next_id := lsq.next_id + reqs.length }
        (reqs.map LsqEffect.send ++ [.markExecuted entry.ins])
  | dispatchStore
      {entry : VanadisBasicStorePendingEntry hw_threads}
      {rest : List (VanadisBasicStorePendingEntry hw_threads)}
      {req : MemRequest hw_threads} {flagged : List (InsId hw_threads)}
      (hq : lsq.stores_pending = entry :: rest)
      (hnot : entry.dispatched = false)
      (hreq : req.ins = entry.ins ∧ req.kind.isRead = false ∧ req.id = lsq.next_id) :
      LsqStep flags lsq
        { lsq with
          stores_pending :=
            { entry with
              requests := entry.requests ++ [lsq.next_id], dispatched := true } :: rest
          next_id := lsq.next_id + 1 }
        (flagged.map LsqEffect.flagError ++ [.send req])

namespace VanadisBasicLoadStoreQueue

variable {params : LsqParams} {flags : InsFlags hw_threads}
variable {lsq lsq' : VanadisBasicLoadStoreQueue hw_threads}
variable {effects : List (LsqEffect hw_threads)}
variable {ins : InsId hw_threads} {access : LoadAccess}
variable {rest : List (VanadisBasicLoadStoreEntry hw_threads)}
variable {entry : VanadisBasicStorePendingEntry hw_threads}

theorem sendLoad_step (reqs : List (MemRequest hw_threads))
    (hq : lsq.op_q = .load ins access :: rest) (hne : reqs ≠ [])
    (hreqs : ∀ req ∈ reqs, req.ins = ins ∧ req.kind.isRead = true)
    (hids : reqs.map MemRequest.id = range' lsq.next_id reqs.length)
    (hlsq : lsq' = { lsq with
        op_q := rest
        loads_pending := lsq.loads_pending ++
          [{ ins := ins, access := access, requests := reqs.map MemRequest.id }]
        next_id := lsq.next_id + reqs.length })
    (heffects : effects = reqs.map LsqEffect.send) :
    LsqStep flags lsq lsq' effects := by
  rw [hlsq, heffects]
  exact LsqStep.sendLoad hq hne hreqs hids

theorem sendStore_step {rest : List (VanadisBasicStorePendingEntry hw_threads)}
    (reqs : List (MemRequest hw_threads)) (hq : lsq.stores_pending = entry :: rest)
    (hnot : entry.dispatched = false) (hne : reqs ≠ [])
    (hreqs : ∀ req ∈ reqs, req.ins = entry.ins ∧ req.kind.isRead = false)
    (hids : reqs.map MemRequest.id = range' lsq.next_id reqs.length)
    (hlsq : lsq' = { lsq with
        stores_pending := rest
        std_stores_in_flight := lsq.std_stores_in_flight ++ reqs.map MemRequest.id
        next_id := lsq.next_id + reqs.length })
    (heffects : effects = reqs.map LsqEffect.send ++ [.markExecuted entry.ins]) :
    LsqStep flags lsq lsq' effects := by
  rw [hlsq, heffects]
  exact LsqStep.sendStore hq hnot hne hreqs hids

theorem issueLoad_step (hq : lsq.op_q = .load ins access :: rest)
    (h : { lsq with op_q := rest }.issueLoad params ins access = some (lsq', effects)) :
    LsqStep flags lsq lsq' effects := by
  have hone : ∀ kind : RequestKind, kind.isRead = true →
      LsqStep flags lsq
        { lsq with
          op_q := rest
          loads_pending := lsq.loads_pending ++
            [{ ins := ins, access := access, requests := [lsq.next_id] }]
          next_id := lsq.next_id + 1 }
        [.send (readRequest params kind ins lsq.next_id access.address access.width)] :=
    fun kind hkind => sendLoad_step
      [readRequest params kind ins lsq.next_id access.address access.width] hq
      (cons_ne_nil _ _) (fun req hreq => by
        rw [mem_singleton.1 hreq]
        exact ⟨rfl, hkind⟩) rfl rfl rfl
  unfold issueLoad at h
  cases htrans : access.transaction with
  | MEM_TRANSACTION_NONE =>
    rw [htrans] at h
    dsimp only at h
    split at h
    · cases h
      refine sendLoad_step
        [readRequest params .Read ins lsq.next_id access.address _,
          readRequest params .Read ins (lsq.next_id + 1) _ _] hq (cons_ne_nil _ _)
        (fun req hreq => ?_) rfl rfl rfl
      simp only [mem_cons, not_mem_nil, or_false] at hreq
      rcases hreq with rfl | rfl <;> exact ⟨rfl, rfl⟩
    · split at h
      · cases h
        exact LsqStep.flagLoad hq
      · cases h
        exact hone .Read rfl
  | MEM_TRANSACTION_LLSC_LOAD =>
    rw [htrans] at h
    dsimp only at h
    split at h
    · cases h
      exact LsqStep.flagLoad hq
    · cases h
      exact hone .LoadLink rfl
  | MEM_TRANSACTION_LLSC_STORE =>
    rw [htrans] at h
    cases h
  | MEM_TRANSACTION_LOCK =>
    rw [htrans] at h
    dsimp only at h
    split at h
    · cases h
      exact LsqStep.flagLoad hq
    · cases h
      exact hone .ReadLock rfl

/-- A tick's issue is one step of the queue. -/
theorem attempt_to_issue_step {issued : Bool}
    (h : lsq.attempt_to_issue params flags = some (issued, lsq', effects)) :
    LsqStep flags lsq lsq' effects := by
  have hstay : ∀ {b : Bool}, some (b, lsq, ([] : List (LsqEffect hw_threads))) =
      some (issued, lsq', effects) → LsqStep flags lsq lsq' effects := by
    intro b heq
    obtain ⟨-, hrest⟩ := Prod.mk.inj (some.inj heq)
    cases hrest
    exact LsqStep.stay
  unfold attempt_to_issue at h
  cases hq : lsq.op_q with
  | nil =>
    rw [hq] at h
    exact hstay h
  | cons entry rest =>
    rw [hq] at h
    dsimp only at h
    split at h
    · exact hstay h
    · cases entry with
      | load ins access =>
        dsimp only at h
        split at h
        · exact hstay h
        · split at h
          case isTrue htrap =>
            obtain ⟨-, hrest⟩ := Prod.mk.inj (some.inj h)
            cases hrest
            exact LsqStep.trapLoad hq htrap
          case isFalse =>
            split at h
            · exact hstay h
            · obtain ⟨⟨l, e⟩, hissue, heq⟩ := map_eq_some_iff.1 h
              obtain ⟨-, hrest⟩ := Prod.mk.inj heq
              cases hrest
              exact issueLoad_step hq hissue
      | store ins access =>
        dsimp only at h
        split at h
        · exact hstay h
        · split at h
          case isTrue htrap =>
            obtain ⟨-, hrest⟩ := Prod.mk.inj (some.inj h)
            cases hrest
            exact LsqStep.trapStore hq htrap
          case isFalse =>
            obtain ⟨-, hrest⟩ := Prod.mk.inj (some.inj h)
            cases hrest
            exact LsqStep.moveStore hq
      | fence ins type =>
        dsimp only at h
        split at h
        case isTrue hdone =>
          obtain ⟨-, hrest⟩ := Prod.mk.inj (some.inj h)
          cases hrest
          simp only [Bool.and_eq_true, Bool.or_eq_true, Bool.not_eq_true',
            List.isEmpty_iff] at hdone
          refine LsqStep.fence hq (fun hload => ?_) fun hstore => ?_
          · rw [hload] at hdone
            exact hdone.1.resolve_left (by decide)
          · rw [hstore] at hdone
            exact hdone.2.resolve_left (by decide)
        case isFalse => exact hstay h

theorem issueStore_step {rest : List (VanadisBasicStorePendingEntry hw_threads)}
    (hq : lsq.stores_pending = entry :: rest) (hnot : entry.dispatched = false)
    (h : lsq.issueStore params entry rest = some (lsq', effects)) :
    LsqStep flags lsq lsq' effects := by
  have hdispatch : ∀ kind : RequestKind, kind.isRead = false →
      LsqStep flags lsq
        { lsq with
          stores_pending :=
            { entry with
              requests := entry.requests ++ [lsq.next_id], dispatched := true } :: rest
          next_id := lsq.next_id + 1 }
        ((if entry.access.address < 4096 then [.flagError entry.ins] else []) ++
          [.send (writeRequest params kind entry.ins lsq.next_id entry.access.address
            entry.access.value)]) := by
    intro kind hkind
    have hflag : (if entry.access.address < 4096 then [LsqEffect.flagError entry.ins] else []) =
        (if entry.access.address < 4096 then [entry.ins] else []).map LsqEffect.flagError := by
      split <;> rfl
    rw [hflag]
    exact LsqStep.dispatchStore hq hnot ⟨rfl, hkind, rfl⟩
  unfold issueStore at h
  dsimp only at h
  cases htrans : entry.access.transaction with
  | MEM_TRANSACTION_NONE =>
    rw [htrans] at h
    dsimp only at h
    split at h
    · cases h
      refine sendStore_step
        [writeRequest params .Write entry.ins lsq.next_id entry.access.address _,
          writeRequest params .Write entry.ins (lsq.next_id + 1) _ _] hq hnot
        (cons_ne_nil _ _) (fun req hreq => ?_) rfl rfl rfl
      simp only [mem_cons, not_mem_nil, or_false] at hreq
      rcases hreq with rfl | rfl <;> exact ⟨rfl, rfl⟩
    · cases h
      refine sendStore_step
        [writeRequest params .Write entry.ins lsq.next_id entry.access.address
          entry.access.value] hq hnot (cons_ne_nil _ _) (fun req hreq => ?_) rfl rfl rfl
      rw [mem_singleton.1 hreq]
      exact ⟨rfl, rfl⟩
  | MEM_TRANSACTION_LLSC_LOAD =>
    rw [htrans] at h
    cases h
  | MEM_TRANSACTION_LLSC_STORE =>
    rw [htrans] at h
    dsimp only at h
    split at h
    · cases h
    · cases h
      exact hdispatch .StoreConditional rfl
  | MEM_TRANSACTION_LOCK =>
    rw [htrans] at h
    dsimp only at h
    split at h
    · cases h
    · cases h
      exact hdispatch .WriteUnlock rfl

theorem issueStoreFront_step (h : lsq.issueStoreFront params flags = some (lsq', effects)) :
    LsqStep flags lsq lsq' effects := by
  unfold issueStoreFront at h
  cases hq : lsq.stores_pending with
  | nil =>
    rw [hq] at h
    cases h
    exact LsqStep.stay
  | cons entry rest =>
    rw [hq] at h
    dsimp only at h
    split at h
    case isTrue hready =>
      simp only [Bool.and_eq_true, Bool.not_eq_true'] at hready
      exact issueStore_step hq hready.1.1 h
    case isFalse =>
      cases h
      exact LsqStep.stay

end VanadisBasicLoadStoreQueue

end SstElements.Vanadis
