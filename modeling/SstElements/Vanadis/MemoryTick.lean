import SstElements.Vanadis.QueueInvariant

/-!
# Cycles of the queue and answers of the memory system
-/

namespace SstElements.Vanadis

open Library List Option

universe u

variable {Op : Type u} {hw_threads : Nat}

namespace MemoryCore

variable {fenceType : Op → VanadisFenceType}
variable {m m' : MemoryCore Op hw_threads} {flags : InsFlags hw_threads}

section Step

theorem Sound.settled_of_fence
    {ins : InsId hw_threads} {type : VanadisFenceType} {x : VanadisInstruction Op}
    {rest : List (VanadisBasicLoadStoreEntry hw_threads)} (h : Sound fenceType m)
    (hq : m.lsq.op_q = .fence ins type :: rest)
    (hloads : type.createsLoadFence = true → m.lsq.pendingLoads ins.hw_thr = false)
    (hstores : type.createsStoreFence = true →
      m.lsq.pendingStores ins.hw_thr = false ∧ m.lsq.std_stores_in_flight = [])
    (hx : m.lookup ins = some x) (hissued : x.hasIssued = true)
    (hmatch : x.func_type = .INST_FENCE ∧ fenceType x.op = type)
    (hfull : x.isFullFence fenceType = true) :
    m.Settled ins.hw_thr ins.seq := by
  have htype : type = .VANADIS_LOAD_STORE_FENCE := hmatch.2.symm.trans (of_decide_eq_true hfull).2
  subst htype
  have hnoload := hloads rfl
  obtain ⟨hnostore, hstd⟩ := hstores rfl
  have hop : ∀ e ∈ m.lsq.op_q, e.getInstruction.hw_thr = ins.hw_thr →
      ins.seq ≤ e.getInstruction.seq := by
    intro e he hthr
    have horder := (pairwise_append.1 h.queue.loads_order).2.1
    rw [hq, map_cons, pairwise_cons] at horder
    rw [hq] at he
    rcases mem_cons.1 he with rfl | he
    · exact le_rfl
    · exact (horder.1 _ (mem_map_of_mem he) hthr.symm).le
  have hload : ∀ e ∈ m.lsq.loads_pending, e.ins.hw_thr ≠ ins.hw_thr := by
    intro e he hthr
    exact absurd (any_eq_true.2 ⟨e, he, decide_eq_true hthr⟩)
      (Bool.eq_false_iff.1 hnoload)
  have hstore : ∀ e ∈ m.lsq.stores_pending, e.ins.hw_thr ≠ ins.hw_thr := by
    intro e he hthr
    exact absurd (any_eq_true.2 ⟨e, he, decide_eq_true hthr⟩)
      (Bool.eq_false_iff.1 hnostore)
  exact {
    bound := (lookup_lt hx).2.le
    held := fun id hid hthr => by
      rcases hid with ⟨e, he, rfl⟩ | ⟨e, he, rfl⟩ | ⟨e, he, rfl⟩
      · exact hop e he hthr
      · exact absurd hthr (hload e he)
      · exact absurd hthr (hstore e he)
    issued := fun id y hy hthr hlt hmem =>
      h.rob.in_order id ins y x hthr hlt hy hx hmem (by rw [hmatch.1]; rfl) hissued
    acknowledged := fun id hid hthr hlt hsquashed => by
      constructor
      · rcases h.queue.accounted id hid with hmem | ⟨e, he, rfl⟩ | ⟨e, he, rfl⟩ | hdone
        · exact absurd hmem hsquashed
        · have hle := hop e he hthr
          omega
        · exact absurd hthr (hstore e he)
        · exact hdone
      · rintro req hreq rfl
        cases hkind : req.kind.isRead with
        | true =>
          rcases h.queue.reads req hreq hkind with hmem | ⟨e, he, heq, -⟩
          · exact hsquashed hmem
          · exact hload e he (heq ▸ hthr)
        | false =>
          rcases h.queue.writes req hreq hkind with hmem | hmem | ⟨e, he, heq, -⟩
          · exact hsquashed hmem
          · rw [hstd] at hmem
            cases hmem
          · exact hstore e he (heq ▸ hthr) }

variable {lsq' : VanadisBasicLoadStoreQueue hw_threads} {effects : List (LsqEffect hw_threads)}
variable {id : InsId hw_threads} {params : LsqParams}

/-- Only the queue, its requests and its errors change. -/
theorem Extends.of_lsq {errors : List (InsId hw_threads)}
    {sent in_flight : List (MemRequest hw_threads)}
    (hholds : ∀ id, lsq'.Holds id → m.lsq.Holds id) (herrors : ∀ id ∈ m.errors, id ∈ errors)
    (hsent : ∀ req ∈ m.sent, req ∈ sent)
    (hflight : ∀ req ∈ in_flight, req ∈ m.in_flight ∨ m.lsq.Holds req.ins) :
    m.Extends { m with lsq := lsq', errors := errors, sent := sent, in_flight := in_flight } where
  next _ := le_rfl
  holds id hid := .inl (hholds id hid)
  lookup _ x hx hisMem hnot := .inr ⟨x, hx, hisMem, hnot⟩
  pushed _ hid := .inl hid
  squashed _ hid := hid
  errors := herrors
  sent := hsent
  flight := hflight

theorem Sound.after_step (h : Sound fenceType m)
    (hflags : ∀ ins, flags.trapsError ins = true → ins ∈ m.errors)
    (hstep : LsqStep flags m.lsq lsq' effects) :
    Sound fenceType (m.after lsq' effects) := by
  cases hstep with
  | stay => exact h
  | trapLoad hq htrap =>
    exact h.recedes (h.queue.recedes_pop hq (fun _ hid => hid) (.inl (hflags _ htrap)))
  | flagLoad hq =>
    exact h.recedes (h.queue.recedes_pop hq (fun _ hid => mem_cons_of_mem _ hid)
      (.inl mem_cons_self))
  | @sendLoad ins access rest reqs hq hne hreqs hids =>
    rw [after_send]
    have hheld : m.lsq.Holds ins := .inl ⟨_, hq ▸ mem_cons_self, rfl⟩
    refine h.of_queue rfl rfl (.of_lsq (fun id hid => ?_) (fun _ hid => hid)
      (fun _ => mem_append_left _) fun req hreq => ?_) (h.queue.sendLoad hq hne hreqs hids)
    · rcases hid with ⟨e, he, rfl⟩ | ⟨e, he, rfl⟩ | hid
      · exact .inl ⟨e, hq ▸ mem_cons_of_mem _ he, rfl⟩
      · rcases mem_append.1 he with he | he
        · exact .inr (.inl ⟨e, he, rfl⟩)
        · rw [mem_singleton.1 he]
          exact hheld
      · exact .inr (.inr hid)
    · refine (mem_append.1 hreq).imp_right fun hreq => ?_
      rw [(hreqs req hreq).1]
      exact hheld
  | @trapStore ins access rest hq htrap =>
    rw [after_markExecuted]
    obtain ⟨x, hx, hissued, -, hmatch⟩ :=
      h.queue.ops_live (.store ins access) (hq ▸ mem_cons_self)
    refine (h.recedes (h.queue.recedes_pop hq (fun _ hid => hid)
      (.inl (hflags _ htrap)))).markExecuted hx hissued (h.queue.front_free hq)
      fun hfull => ?_
    have htype : x.func_type = .INST_STORE := hmatch
    rw [(of_decide_eq_true hfull).1] at htype
    cases htype
  | moveStore hq =>
    refine h.of_queue rfl rfl (.of_lsq (fun id hid => ?_) (fun _ hid => hid) (fun _ hreq => hreq)
      fun _ hreq => .inl hreq) (h.queue.moveStore hq)
    rcases hid with ⟨e, he, rfl⟩ | hid | ⟨e, he, rfl⟩
    · exact .inl ⟨e, hq ▸ mem_cons_of_mem _ he, rfl⟩
    · exact .inr (.inl hid)
    · rcases mem_append.1 he with he | he
      · exact .inr (.inr ⟨e, he, rfl⟩)
      · rw [mem_singleton.1 he]
        exact .inl ⟨_, hq ▸ mem_cons_self, rfl⟩
  | @fence ins type rest hq hloads hstores =>
    rw [after_markExecuted]
    obtain ⟨x, hx, hissued, -, hmatch⟩ := h.queue.ops_live (.fence ins type) (hq ▸ mem_cons_self)
    have hpop : m.Recedes { m with lsq := { m.lsq with op_q := rest } } :=
      h.queue.recedes_pop hq (fun _ hid => hid) (.inr ⟨x, hx, by
        rw [VanadisInstruction.isAccess, hmatch.1]
        rfl⟩)
    exact (h.recedes hpop).markExecuted hx hissued (h.queue.front_free hq) fun hfull =>
      (h.settled_of_fence hq hloads hstores hx hissued hmatch hfull).extends hpop.extends
  | @sendStore entry others reqs hq hnot hne hreqs hids =>
    rw [@after_append _ _ _ m.lsq _ (reqs.map LsqEffect.send), after_send, after_markExecuted]
    have hheld : m.lsq.Holds entry.ins := .inr (.inr ⟨entry, hq ▸ mem_cons_self, rfl⟩)
    obtain ⟨x, hx, hissued, -, htype⟩ := h.queue.stores_live entry (hq ▸ mem_cons_self)
    have hsent : Sound fenceType
        { m with
          lsq :=
            { m.lsq with
              stores_pending := others
              std_stores_in_flight := m.lsq.std_stores_in_flight ++ reqs.map MemRequest.id
              next_id := m.lsq.next_id + reqs.length }
          in_flight := m.in_flight ++ reqs
          sent := m.sent ++ reqs } := by
      refine h.of_queue rfl rfl (.of_lsq (fun id hid => ?_) (fun _ hid => hid)
        (fun _ => mem_append_left _) fun req hreq => ?_) (h.queue.sendStore hq hnot hne hreqs hids)
      · rcases hid with hid | hid | ⟨e, he, rfl⟩
        · exact .inl hid
        · exact .inr (.inl hid)
        · exact .inr (.inr ⟨e, hq ▸ mem_cons_of_mem _ he, rfl⟩)
      · refine (mem_append.1 hreq).imp_right fun hreq => ?_
        rw [(hreqs req hreq).1]
        exact hheld
    refine hsent.markExecuted hx hissued (h.queue.store_free hq) fun hfull => ?_
    rw [(of_decide_eq_true hfull).1] at htype
    cases htype
  | @dispatchStore entry others req flagged hq hnot hreq =>
    rw [@after_append _ _ _ m.lsq _ (flagged.map LsqEffect.flagError), after_flagError,
      show [LsqEffect.send req] = [req].map LsqEffect.send from rfl, after_send]
    have hheld : m.lsq.Holds entry.ins := .inr (.inr ⟨entry, hq ▸ mem_cons_self, rfl⟩)
    refine h.of_queue rfl rfl (.of_lsq (fun id hid => ?_) (fun _ => mem_append_right _)
      (fun _ => mem_append_left _) fun req' hreq' => ?_) (h.queue.dispatchStore hq hnot hreq)
    · rcases hid with hid | hid | ⟨e, he, rfl⟩
      · exact .inl hid
      · exact .inr (.inl hid)
      · rcases mem_cons.1 he with rfl | he
        · exact hheld
        · exact .inr (.inr ⟨e, hq ▸ mem_cons_of_mem _ he, rfl⟩)
    · refine (mem_append.1 hreq').imp_right fun hreq' => ?_
      rw [mem_singleton.1 hreq', hreq.1]
      exact hheld

theorem errors_applyEffect {effect : LsqEffect hw_threads} (hid : id ∈ m.errors) :
    id ∈ (m.applyEffect effect).errors := by
  cases effect with
  | send req => exact hid
  | markExecuted ins =>
    rw [applyEffect, markExecuted_errors]
    exact hid
  | flagError ins => exact mem_cons_of_mem _ hid
  | setReg thr kind reg value => exact hid

theorem errors_after (hid : id ∈ m.errors) : id ∈ (m.after lsq' effects).errors := by
  rw [after]
  induction effects generalizing m with
  | nil => exact hid
  | cons effect effects ih => exact ih (errors_applyEffect hid)

theorem Sound.after_attempts {n : Nat} {lsq : VanadisBasicLoadStoreQueue hw_threads}
    {result : VanadisBasicLoadStoreQueue hw_threads × List (LsqEffect hw_threads)}
    (h : Sound fenceType m) (hlsq : m.lsq = lsq)
    (hflags : ∀ ins, flags.trapsError ins = true → ins ∈ m.errors)
    (hrun : VanadisBasicLoadStoreQueue.attempts params flags n lsq = some result) :
    Sound fenceType (m.after result.1 result.2) ∧ (m.after result.1 result.2).lsq = result.1 := by
  refine ⟨?_, rfl⟩
  subst hlsq
  induction n generalizing m result with
  | zero =>
    cases hrun
    exact h
  | succ n ih =>
    obtain ⟨⟨issued, lsq', effects⟩, hattempt, hrest⟩ := bind_eq_some_iff.1 hrun
    have hstep := h.after_step hflags
      (VanadisBasicLoadStoreQueue.attempt_to_issue_step hattempt)
    split at hrest
    case isTrue =>
      obtain ⟨⟨lsq'', effects'⟩, hmore, rfl⟩ := map_eq_some_iff.1 hrest
      rw [@after_append _ _ _ lsq']
      exact ih hstep (fun ins htrap => errors_after (hflags ins htrap)) hmore
    case isFalse =>
      cases hrest
      exact hstep

theorem Sound.tick (h : Sound fenceType m) (hstep : m.tick params = some m') :
    Sound fenceType m' := by
  obtain ⟨result, hrun, rfl⟩ := map_eq_some_iff.1 hstep
  obtain ⟨issued, hattempts, hfront⟩ := bind_eq_some_iff.1 hrun
  obtain ⟨stored, hstore, rfl⟩ := map_eq_some_iff.1 hfront
  have hflags : ∀ ins, m.flags.trapsError ins = true → ins ∈ m.errors :=
    fun ins htrap => of_decide_eq_true htrap
  obtain ⟨hissued, hlsq⟩ := h.after_attempts rfl hflags hattempts
  rw [@after_append _ _ _ issued.1]
  refine hissued.after_step (fun ins htrap => errors_after (hflags ins htrap)) ?_
  rw [hlsq]
  exact VanadisBasicLoadStoreQueue.issueStoreFront_step hstore

end Step

section Respond

open VanadisBasicLoadStoreQueue

variable {id i : Nat} {loads : List (VanadisBasicLoadPendingEntry hw_threads)}
variable {e : VanadisBasicLoadPendingEntry hw_threads}

theorem ins_removeRequest_sublist (loads : List (VanadisBasicLoadPendingEntry hw_threads)) :
    ((removeRequest id loads).map VanadisBasicLoadPendingEntry.ins).Sublist
      (loads.map VanadisBasicLoadPendingEntry.ins) := by
  induction loads with
  | nil => exact List.Sublist.refl _
  | cons e rest ih =>
    rw [removeRequest]
    split
    · split
      · exact sublist_cons_self _ _
      · exact List.Sublist.refl _
    · exact ih.cons_cons _

theorem mem_removeRequest (he : e ∈ loads) (hreq : i ∈ e.requests) (hne : i ≠ id) :
    ∃ e' ∈ removeRequest id loads, e'.ins = e.ins ∧ i ∈ e'.requests := by
  induction loads with
  | nil => cases he
  | cons e₀ rest ih =>
    rw [removeRequest]
    rcases mem_cons.1 he with rfl | he
    · have hmem : i ∈ e.requests.erase id := (mem_erase_of_ne hne).2 hreq
      split
      · rw [if_neg (ne_nil_of_mem hmem)]
        exact ⟨_, mem_cons_self, rfl, hmem⟩
      · exact ⟨e, mem_cons_self, rfl, hreq⟩
    · split
      · split
        · exact ⟨e, he, rfl, hreq⟩
        · exact ⟨e, mem_cons_of_mem _ he, rfl, hreq⟩
      · obtain ⟨e', he', heq⟩ := ih he
        exact ⟨e', mem_cons_of_mem _ he', heq⟩

theorem ne_of_mem_removeRequest {e' : VanadisBasicLoadPendingEntry hw_threads}
    (hfind : loads.find? (fun e => e.requests.contains id) = some e)
    (hlast : e.requests.erase id = [])
    (horder : (loads.map VanadisBasicLoadPendingEntry.ins).Pairwise InsId.Before)
    (he' : e' ∈ removeRequest id loads) :
    e'.ins ≠ e.ins := by
  induction loads with
  | nil => cases hfind
  | cons e₀ rest ih =>
    rw [map_cons, pairwise_cons] at horder
    rw [removeRequest] at he'
    rw [find?_cons] at hfind
    cases hmem : e₀.requests.contains id with
    | true =>
      rw [hmem] at hfind he'
      cases hfind
      rw [if_pos rfl, if_pos hlast] at he'
      intro heq
      have hbefore := horder.1 _ (mem_map_of_mem he')
      rw [heq] at hbefore
      exact InsId.not_before_self _ hbefore
    | false =>
      rw [hmem] at hfind he'
      rcases mem_cons.1 he' with rfl | he'
      · intro heq
        have hmem' := mem_of_find?_eq_some hfind
        have hbefore := horder.1 _ (mem_map_of_mem hmem')
        rw [heq] at hbefore
        exact InsId.not_before_self _ hbefore
      · exact ih hfind horder.2 he'

theorem Sound.eraseIdx (h : Sound fenceType m) (i : Nat) :
    Sound fenceType { m with in_flight := m.in_flight.eraseIdx i } := by
  have hmem : ∀ req ∈ m.in_flight.eraseIdx i, req ∈ m.in_flight :=
    fun req hreq => mem_of_mem_eraseIdx hreq
  refine h.of_queue rfl rfl (.of_lsq (fun _ hid => hid) (fun _ hid => hid) (fun _ hreq => hreq)
    fun req hreq => .inl (hmem req hreq)) ?_
  exact { h.queue with
    ids_nodup := h.queue.ids_nodup.sublist ((eraseIdx_sublist _ i).map _)
    ids_lt := fun req hreq => h.queue.ids_lt req (hmem req hreq)
    reads := fun req hreq => h.queue.reads req (hmem req hreq)
    writes := fun req hreq => h.queue.writes req (hmem req hreq) }

theorem QueueSound.ne_of_mem_eraseIdx {req req' : MemRequest hw_threads}
    (h : QueueSound fenceType m) (hreq : m.in_flight[i]? = some req)
    (hreq' : req' ∈ m.in_flight.eraseIdx i) :
    req'.id ≠ req.id := by
  obtain ⟨hlt, rfl⟩ := List.getElem?_eq_some_iff.1 hreq
  obtain ⟨j, hj, hne, rfl⟩ := mem_eraseIdx_iff_getElem.1 hreq'
  intro heq
  refine hne ?_
  have hnodup := nodup_iff_injective_get.1 h.ids_nodup
  have hget := @hnodup ⟨j, by rwa [length_map]⟩ ⟨i, by rwa [length_map]⟩
    (by simpa using heq)
  exact congrArg Fin.val hget

theorem Sound.answered {entry : VanadisBasicStorePendingEntry hw_threads}
    {others : List (VanadisBasicStorePendingEntry hw_threads)} (h : Sound fenceType m)
    (hq : m.lsq.stores_pending = entry :: others) (hmem : id ∈ entry.requests)
    (hother : ∀ req ∈ m.in_flight, req.id ≠ id) :
    Sound fenceType
      ({ m with lsq := { m.lsq with stores_pending := others } }.markExecuted entry.ins) := by
  obtain ⟨x, hx, hissued, -, htype⟩ := h.queue.stores_live entry (hq ▸ mem_cons_self)
  obtain ⟨req₀, hreq₀, hins₀, hone⟩ : ∃ req ∈ m.sent, req.ins = entry.ins ∧
      entry.requests = [req.id] := by
    rcases h.queue.dispatched entry (hq ▸ mem_cons_self) with ⟨-, hnone⟩ | ⟨-, hsent⟩
    · rw [hnone] at hmem
      cases hmem
    · exact hsent
  have hpopped : Sound fenceType { m with lsq := { m.lsq with stores_pending := others } } := by
    refine h.of_queue rfl rfl (.of_lsq (fun id' hid => ?_) (fun _ hid => hid)
      (fun _ hreq => hreq) fun _ hreq => .inl hreq) ?_
    · rcases hid with hid | hid | ⟨e', he', heq⟩
      · exact .inl hid
      · exact .inr (.inl hid)
      · exact .inr (.inr ⟨e', hq ▸ mem_cons_of_mem _ he', heq⟩)
    · exact { h.queue with
        stores_live := fun e' he' => h.queue.stores_live e' (hq ▸ mem_cons_of_mem _ he')
        stores_order := h.queue.stores_order.sublist
          (((hq ▸ sublist_cons_self _ _ :
            others.Sublist m.lsq.stores_pending).map _).append (List.Sublist.refl _))
        writes := fun req hreq hwrite => by
          rcases h.queue.writes req hreq hwrite with hsquashed | hstd | ⟨e', he', heq, hids⟩
          · exact .inl hsquashed
          · exact .inr (.inl hstd)
          · rw [hq] at he'
            rcases mem_cons.1 he' with rfl | he'
            · rw [hids, mem_singleton] at hmem
              exact absurd hmem.symm (hother req hreq)
            · exact .inr (.inr ⟨e', he', heq, hids⟩)
        dispatched := fun e' he' => h.queue.dispatched e' (hq ▸ mem_cons_of_mem _ he')
        accounted := fun id' hid => by
          rcases h.queue.accounted id' hid with hsquashed | hop | ⟨e', he', heq⟩ | hdone
          · exact .inl hsquashed
          · exact .inr (.inl hop)
          · rw [hq] at he'
            rcases mem_cons.1 he' with rfl | he'
            · exact .inr (.inr (.inr (.inr ⟨req₀, hreq₀, hins₀.trans heq⟩)))
            · exact .inr (.inr (.inl ⟨e', he', heq⟩))
          · exact .inr (.inr (.inr hdone)) }
  refine hpopped.markExecuted hx hissued (h.queue.store_free hq) fun hfull => ?_
  rw [(of_decide_eq_true hfull).1] at htype
  cases htype

variable {register_value : List UInt8} {ev : ReadResp}
variable {result : VanadisBasicLoadStoreQueue hw_threads × List (LsqEffect hw_threads)}

theorem handleReadResp_spec {lsq lsq' : VanadisBasicLoadStoreQueue hw_threads}
    {effects : List (LsqEffect hw_threads)}
    (h : lsq.handleReadResp register_value ev = some (lsq', effects)) :
    lsq' = lsq ∧ effects = [] ∨
      ∃ e flagged, lsq.loads_pending.find? (fun e => e.requests.contains ev.id) = some e ∧
        lsq' = { lsq with loads_pending := removeRequest ev.id lsq.loads_pending } ∧
        ∀ m : MemoryCore Op hw_threads, m.after lsq' effects =
          if e.requests.erase ev.id = [] then
            { m with lsq := lsq', errors := flagged ++ m.errors }.markExecuted e.ins
          else
            { m with lsq := lsq', errors := flagged ++ m.errors } := by
  unfold handleReadResp at h
  split at h
  case h_1 =>
    cases h
    exact .inl ⟨rfl, rfl⟩
  case h_2 e hfind =>
    dsimp only at h
    split at h
    · cases h
    · cases h
      refine .inr ⟨e, if ev.fail || decide (ev.vAddr < 64) then [e.ins] else [], hfind, rfl,
        fun m => ?_⟩
      have hflag : (if ev.fail || decide (ev.vAddr < 64) then
          [LsqEffect.flagError e.ins] else []) =
          (if ev.fail || decide (ev.vAddr < 64) then [e.ins] else []).map
            LsqEffect.flagError := by
        split <;> rfl
      rw [hflag, @after_append _ _ _ lsq, @after_append _ _ _ lsq, after_flagError]
      have hset : ∀ (n : MemoryCore Op hw_threads) (ignored : Bool) (kind : RegisterKind)
          (reg : Nat) (value : List UInt8),
          n.after lsq (if ignored then [] else [.setReg e.ins.hw_thr kind reg value]) =
            { n with lsq := lsq } := by
        intro n ignored kind reg value
        cases ignored <;> rfl
      rw [hset]
      have hrev : (if ev.fail || decide (ev.vAddr < 64) then [e.ins] else []).reverse =
          if ev.fail || decide (ev.vAddr < 64) then [e.ins] else [] := by
        split <;> rfl
      rw [hrev]
      by_cases hlast : e.requests.erase ev.id = []
      · rw [if_pos hlast, if_pos hlast, after_markExecuted]
      · rw [if_neg hlast, if_neg hlast]
        rfl

theorem Sound.handleReadResp (h : Sound fenceType m) (hother : ∀ req ∈ m.in_flight, req.id ≠ ev.id)
    (hresp : m.lsq.handleReadResp register_value ev = some result) :
    Sound fenceType (m.after result.1 result.2) := by
  obtain ⟨lsq', effects⟩ := result
  rcases handleReadResp_spec hresp with ⟨rfl, rfl⟩ | ⟨e, flagged, hfind, hlsq, hafter⟩
  · exact h
  rw [hafter]
  have hmem : e ∈ m.lsq.loads_pending := mem_of_find?_eq_some hfind
  have hsub := @ins_removeRequest_sublist _ ev.id m.lsq.loads_pending
  have hold : ∀ e' ∈ removeRequest ev.id m.lsq.loads_pending,
      ∃ e₀ ∈ m.lsq.loads_pending, e₀.ins = e'.ins := fun e' he' =>
    mem_map.1 (hsub.subset (mem_map_of_mem he'))
  have hsound : Sound fenceType { m with lsq := lsq', errors := flagged ++ m.errors } := by
    subst hlsq
    refine h.of_queue rfl rfl (.of_lsq (fun id hid => ?_) (fun _ => mem_append_right _)
      (fun _ hreq => hreq) fun _ hreq => .inl hreq) ?_
    · rcases hid with hid | ⟨e', he', rfl⟩ | hid
      · exact .inl hid
      · obtain ⟨e₀, he₀, heq⟩ := hold e' he'
        exact .inr (.inl ⟨e₀, he₀, heq⟩)
      · exact .inr (.inr hid)
    · exact { h.queue with
        loads_live := fun e' he' => by
          obtain ⟨e₀, he₀, heq⟩ := hold e' he'
          rw [← heq]
          exact h.queue.loads_live e₀ he₀
        loads_order := h.queue.loads_order.sublist (hsub.append (List.Sublist.refl _))
        reads := fun req hreq hread => by
          rcases h.queue.reads req hreq hread with hsquashed | ⟨e₀, he₀, heq, hids⟩
          · exact .inl hsquashed
          · obtain ⟨e', he', heq', hids'⟩ := mem_removeRequest he₀ hids (hother req hreq)
            exact .inr ⟨e', he', heq'.trans heq, hids'⟩
        accounted := fun id hid => by
          rcases h.queue.accounted id hid with hsquashed | hop | hstore | herror | hsent
          · exact .inl hsquashed
          · exact .inr (.inl hop)
          · exact .inr (.inr (.inl hstore))
          · exact .inr (.inr (.inr (.inl (mem_append_right _ herror))))
          · exact .inr (.inr (.inr (.inr hsent))) }
  split
  case isFalse => exact hsound
  case isTrue hlast =>
    obtain ⟨x, hx, hissued, -, htype⟩ := h.queue.loads_live e hmem
    have horder := pairwise_append.1 h.queue.loads_order
    refine hsound.markExecuted hx hissued ?_ fun hfull => ?_
    · -- the load is in no other place of the queue
      subst hlsq
      rintro (⟨e', he', heq⟩ | ⟨e', he', heq⟩ | ⟨e', he', heq⟩)
      · have hbefore := horder.2.2 _ (mem_map_of_mem hmem) _ (mem_map_of_mem he')
        rw [heq] at hbefore
        exact InsId.not_before_self _ hbefore
      · exact ne_of_mem_removeRequest hfind hlast horder.1 he' heq
      · obtain ⟨y, hy, -, -, htype'⟩ := h.queue.stores_live e' he'
        rw [heq, hx, Option.some.injEq] at hy
        rw [← hy, htype] at htype'
        cases htype'
    · rw [(of_decide_eq_true hfull).1] at htype
      cases htype

theorem Sound.handleWriteResp {ev : WriteResp} (h : Sound fenceType m)
    (hother : ∀ req ∈ m.in_flight, req.id ≠ ev.id)
    (hresp : m.lsq.handleWriteResp ev = some result) :
    Sound fenceType (m.after result.1 result.2) := by
  unfold VanadisBasicLoadStoreQueue.handleWriteResp at hresp
  split at hresp
  case isTrue =>
    cases hresp
    refine h.of_queue rfl rfl (.of_lsq (fun _ hid => hid) (fun _ hid => hid) (fun _ hreq => hreq)
      fun _ hreq => .inl hreq) ?_
    exact { h.queue with
      writes := fun req hreq hwrite =>
        (h.queue.writes req hreq hwrite).imp_right fun hstd =>
          hstd.imp_left fun hmem => (mem_erase_of_ne (hother req hreq)).2 hmem }
  case isFalse =>
    split at hresp
    case h_1 =>
      cases hresp
      exact h
    case h_2 entry others hq =>
      dsimp only at hresp
      split at hresp
      case isFalse =>
        cases hresp
        exact h
      case isTrue hcontains =>
        have hpending := h.answered hq (contains_iff_mem.1 hcontains) hother
        rw [← after_markExecuted] at hpending
        split at hresp
        · cases hresp
          exact hpending
        · cases hresp
          exact hpending
        · cases hresp

theorem Sound.respond {data : List UInt8} {flag : Bool} (h : Sound fenceType m)
    (hstep : m.respond i data flag register_value = some m') :
    Sound fenceType m' := by
  unfold MemoryCore.respond at hstep
  split at hstep
  case h_1 => cases hstep
  case h_2 req hreq =>
    have hother : ∀ req' ∈ m.in_flight.eraseIdx i, req'.id ≠ req.id :=
      fun req' hreq' => h.queue.ne_of_mem_eraseIdx hreq hreq'
    split at hstep
    · obtain ⟨result, hresp, rfl⟩ := map_eq_some_iff.1 hstep
      exact (h.eraseIdx i).handleReadResp hother hresp
    · obtain ⟨result, hresp, rfl⟩ := map_eq_some_iff.1 hstep
      exact (h.eraseIdx i).handleWriteResp hother hresp

end Respond

end MemoryCore

end SstElements.Vanadis
