import SstElements.MemHierarchy.MemBackendRun

/-!
# Request objects and flush tables of the backend convertor

Two invariants of all runs.  `Owned` ties the request objects to the events
that are not answered yet.  `Linked` ties the two tables of flushes to each
other and to these events.  `LastEffect` is what they need to know about a
response that completes an event.
-/

namespace SstElements.MemHierarchy

open Library Function List Option

namespace ConvertorRun

/-- Each object belongs to one unanswered event, and each such event has one. -/
structure Owned (s : ConvertorRun) : Prop where
  ids_nodup : s.ids.Nodup
  answered_ids : ∀ x ∈ s.answered, x ∈ s.ids
  answered_nodup : s.answered.Nodup
  allocated : ∀ p r, s.conv.heap p = some r → p < s.conv.nextPtr
  live : ∀ p r, s.conv.heap p = some r →
    r.handed ∈ s.handed ∧ r.handed.isFlush = false ∧ r.evId ∉ s.answered
  live_inj : ∀ p q r r', s.conv.heap p = some r → s.conv.heap q = some r' →
    r.evId = r'.evId → p = q
  unanswered : ∀ h ∈ s.handed, h.isFlush = false → h.id ∉ s.answered →
    ∃ p r, s.conv.heap p = some r ∧ r.handed = h

/-- The two tables of flushes agree, and flushes wait for earlier events. -/
structure Linked (s : ConvertorRun) : Prop where
  sorted : FlushSorted s.conv.m_dependentRequests
  flushes : ∀ e, ∀ f ∈ flushesOf s.conv.m_dependentRequests e,
    .mem f ∈ s.handed ∧ f.isFlush = true
  linked : ∀ e f, .mem f ∈ s.handed → f.isFlush = true →
    (f ∈ flushesOf s.conv.m_dependentRequests e ↔
      ∃ ds, s.conv.m_waitingFlushes.find? f.eventID_ = some ds ∧ e ∈ ds)
  waiting : ∀ x ds, s.conv.m_waitingFlushes.find? x = some ds →
    x ∉ s.answered ∧ ds ≠ ∅ ∧
      ∃ f, .mem f ∈ s.handed ∧ f.isFlush = true ∧ f.eventID_ = x ∧
        ∀ d ∈ ds, d ∉ s.answered ∧
          ∃ e, e.isFlush = false ∧ Precedes (.mem e) (.mem f) s.handed ∧
            e.baseAddr_ = f.baseAddr_ ∧ e.eventID_ = d
  flush_done : ∀ f, .mem f ∈ s.handed → f.isFlush = true →
    s.conv.m_waitingFlushes.find? f.eventID_ = none → f.eventID_ ∈ s.answered

section Basics

variable {s : ConvertorRun}

theorem mem_ids {h : Handed} (hh : h ∈ s.handed) : h.id ∈ s.ids :=
  mem_map_of_mem hh

theorem Owned.eq_of_id (ho : Owned s) {a b : Handed} (ha : a ∈ s.handed) (hb : b ∈ s.handed)
    (hid : a.id = b.id) :
    a = b :=
  inj_on_of_nodup_map ho.ids_nodup ha hb hid

theorem Owned.id_ne_of_flush (ho : Owned s) {a : Handed} {f : MemEvent}
    (ha : a ∈ s.handed) (haf : a.isFlush = false)
    (hf : .mem f ∈ s.handed) (hff : f.isFlush = true) :
    a.id ≠ f.eventID_ := by
  intro hid
  obtain rfl : a = .mem f := ho.eq_of_id ha hf hid
  simp [Handed.isFlush, hff] at haf

theorem owned_start (width : UInt32) : Owned (start width) := by
  constructor <;> simp [start, ids, answered, MemBackendConvertor.new]

theorem linked_start (width : UInt32) : Linked (start width) := by
  constructor <;>
    simp [start, FlushSorted, flushesOf, MemBackendConvertor.new]

end Basics

section Objects

variable {s t : ConvertorRun}
variable {ptr : Nat} {req : BaseReq} {h : Handed} {make : UInt32 → BaseReq}

theorem Owned.update (ho : Owned s) {req' : BaseReq} (hptr : s.conv.heap ptr = some req)
    (hreq : req'.handed = req.handed) (hheap : t.conv.heap = update s.conv.heap ptr (some req'))
    (hnext : t.conv.nextPtr = s.conv.nextPtr) (hhanded : t.handed = s.handed)
    (hresp : t.responses = s.responses) :
    Owned t := by
  have hid : req'.evId = req.evId := by rw [← BaseReq.handed_id, hreq, BaseReq.handed_id]
  have hold : ∀ p r, t.conv.heap p = some r →
      ∃ r₀, s.conv.heap p = some r₀ ∧ r₀.handed = r.handed ∧ r₀.evId = r.evId := by
    intro p r hp
    rw [hheap, update_apply] at hp
    split at hp
    · rename_i hpp
      subst hpp
      cases hp
      exact ⟨req, hptr, hreq.symm, hid.symm⟩
    · exact ⟨r, hp, rfl, rfl⟩
  have hids : t.ids = s.ids := by simp [ids, hhanded]
  have hans : t.answered = s.answered := by simp [answered, hresp]
  refine ⟨hids ▸ ho.ids_nodup, ?_, hans ▸ ho.answered_nodup, ?_, ?_, ?_, ?_⟩
  · rw [hids, hans]
    exact ho.answered_ids
  · intro p r hp
    obtain ⟨r₀, hr₀, -, -⟩ := hold p r hp
    exact hnext ▸ ho.allocated p r₀ hr₀
  · intro p r hp
    obtain ⟨r₀, hr₀, hh, he⟩ := hold p r hp
    rw [← hh, ← he, hhanded, hans]
    exact ho.live p r₀ hr₀
  · intro p q r r' hp hq heq
    obtain ⟨r₀, hr₀, -, he⟩ := hold p r hp
    obtain ⟨r₁, hr₁, -, he'⟩ := hold q r' hq
    exact ho.live_inj p q r₀ r₁ hr₀ hr₁ (by rw [he, he', heq])
  · intro h hh hflush hnot
    rw [hhanded] at hh
    rw [hans] at hnot
    obtain ⟨p, r, hp, hr⟩ := ho.unanswered h hh hflush hnot
    by_cases hpp : p = ptr
    · subst hpp
      cases hptr.symm.trans hp
      exact ⟨p, req', by simp [hheap], by rw [hreq, hr]⟩
    · exact ⟨p, r, by simp [hheap, hpp, hp], hr⟩

theorem Linked.congr (hl : Linked s) (hw : t.conv.m_waitingFlushes = s.conv.m_waitingFlushes)
    (hd : t.conv.m_dependentRequests = s.conv.m_dependentRequests) (hhanded : t.handed = s.handed)
    (hresp : t.responses = s.responses) :
    Linked t := by
  have hans : t.answered = s.answered := by simp [answered, hresp]
  constructor
  · rw [hd]
    exact hl.sorted
  · rw [hd, hhanded]
    exact hl.flushes
  · rw [hd, hw, hhanded]
    exact hl.linked
  · rw [hw, hans, hhanded]
    exact hl.waiting
  · rw [hw, hans, hhanded]
    exact hl.flush_done

section

variable (ho : Owned s) (hptr : s.conv.heap ptr = some req)
include ho hptr

theorem Owned.afterIssue {rest : List Nat} : Owned (s.afterIssue ptr rest req) :=
  ho.update hptr (BaseReq.handed_increment _ req) rfl rfl rfl rfl

theorem Owned.afterPart {i : Issue} : Owned (s.afterPart i ptr req) :=
  ho.update hptr (BaseReq.handed_decrement req) rfl rfl rfl rfl

end

theorem Owned.afterRequest (ho : Owned s) (hmake : ∀ id, (make id).handed = h)
    (hflush : h.isFlush = false) (hfresh : h.id ∉ s.ids) :
    Owned (s.afterRequest h make) := by
  have hevId : ∀ id, (make id).evId = h.id := by
    intro id
    rw [← BaseReq.handed_id, hmake]
  have hnotans : h.id ∉ s.answered := fun hmem => hfresh (ho.answered_ids _ hmem)
  have hcases : ∀ p r, (s.afterRequest h make).conv.heap p = some r →
      (p = s.conv.nextPtr ∧ r.handed = h ∧ r.evId = h.id) ∨
        (p ≠ s.conv.nextPtr ∧ s.conv.heap p = some r) := by
    intro p r hp
    simp only [ConvertorRun.afterRequest, MemBackendConvertor.newRequest, update_apply] at hp
    split at hp
    · rename_i hpp
      cases hp
      exact .inl ⟨hpp, hmake _, hevId _⟩
    · rename_i hpp
      exact .inr ⟨hpp, hp⟩
  have hne : ∀ p r, s.conv.heap p = some r → r.evId ≠ h.id := by
    intro p r hp heq
    have hmem := mem_ids (ho.live p r hp).1
    rw [BaseReq.handed_id, heq] at hmem
    exact hfresh hmem
  constructor
  · simpa [ConvertorRun.afterRequest, ids, nodup_append] using
      ⟨ho.ids_nodup, fun a ha hid => hfresh (hid ▸ mem_ids ha)⟩
  · intro x hx
    have := ho.answered_ids x hx
    simp only [ids, ConvertorRun.afterRequest, map_append, mem_append]
    exact .inl this
  · exact ho.answered_nodup
  · intro p r hp
    rcases hcases p r hp with ⟨rfl, -, -⟩ | ⟨-, hp⟩
    · exact Nat.lt_succ_self _
    · exact Nat.lt_succ_of_lt (ho.allocated p r hp)
  · intro p r hp
    rcases hcases p r hp with ⟨-, hr, he⟩ | ⟨-, hp⟩
    · rw [hr, he]
      exact ⟨by simp [ConvertorRun.afterRequest], hflush, hnotans⟩
    · obtain ⟨h₁, h₂, h₃⟩ := ho.live p r hp
      exact ⟨by simp [ConvertorRun.afterRequest, h₁], h₂, h₃⟩
  · intro p q r r' hp hq heq
    rcases hcases p r hp with ⟨rfl, -, he⟩ | ⟨-, hp⟩
    · rcases hcases q r' hq with ⟨rfl, -, -⟩ | ⟨-, hq⟩
      · rfl
      · exact absurd (heq.symm.trans he) (hne q r' hq)
    · rcases hcases q r' hq with ⟨rfl, -, he⟩ | ⟨-, hq⟩
      · exact absurd (heq.trans he) (hne p r hp)
      · exact ho.live_inj p q r r' hp hq heq
  · intro k hk hkf hkn
    simp only [ConvertorRun.afterRequest, mem_append, mem_singleton] at hk
    rcases hk with hk | rfl
    · obtain ⟨p, r, hp, hr⟩ := ho.unanswered k hk hkf hkn
      have hpp : p ≠ s.conv.nextPtr := (ho.allocated p r hp).ne
      exact ⟨p, r, by simp [ConvertorRun.afterRequest, MemBackendConvertor.newRequest, hpp, hp], hr⟩
    · exact ⟨s.conv.nextPtr, make (s.conv.m_reqId + 1),
        by simp [ConvertorRun.afterRequest, MemBackendConvertor.newRequest],
        hmake _⟩

theorem Linked.afterRequest (hl : Linked s) (hflush : h.isFlush = false) :
    Linked (s.afterRequest h make) := by
  have hold : ∀ f, .mem f ∈ (s.afterRequest h make).handed → f.isFlush = true →
      .mem f ∈ s.handed := by
    intro f hf hff
    simp only [ConvertorRun.afterRequest, mem_append, mem_singleton] at hf
    rcases hf with hf | rfl
    · exact hf
    · simp [Handed.isFlush, hff] at hflush
  constructor
  · exact hl.sorted
  · intro e f hf
    obtain ⟨hmem, hff⟩ := hl.flushes e f hf
    exact ⟨mem_append_left _ hmem, hff⟩
  · intro e f hf hff
    exact hl.linked e f (hold f hf hff) hff
  · intro x ds hx
    obtain ⟨hans, hne, f, hf, hff, hid, hds⟩ := hl.waiting x ds hx
    refine ⟨hans, hne, f, mem_append_left _ hf, hff, hid, ?_⟩
    intro d hd
    obtain ⟨hdans, e, he, hprec, hbase, hde⟩ := hds d hd
    exact ⟨hdans, e, he, hprec.append_right, hbase, hde⟩
  · intro f hf hff hw
    exact hl.flush_done f (hold f hf hff) hff hw

end Objects

section Flush

variable {s : ConvertorRun}
variable {ev : MemEvent} {deps : Finset Nat} {dependent : OrderedMap Nat (List MemEvent)}

theorem Linked.flush_spec (hl : Linked s) (hfresh : ev.eventID_ ∉ s.ids)
    (h : MemBackendConvertor.findDependencies s.conv.heap ev
      s.conv.m_requestQueue ∅ s.conv.m_dependentRequests = some (deps, dependent)) :
    (∀ x, x ∈ deps ↔ QueuedFor s.conv.heap ev.baseAddr_ s.conv.m_requestQueue x) ∧
      (∀ e g, g ∈ flushesOf dependent e ↔
        g ∈ flushesOf s.conv.m_dependentRequests e ∨ (g = ev ∧ e ∈ deps)) ∧
      FlushSorted dependent := by
  obtain ⟨hdeps, hflushes, hsorted⟩ := findDependencies_spec h hl.sorted (by
    intro e g hg hid
    have hmem := mem_ids (hl.flushes e g hg).1
    exact absurd (hid ▸ hmem) hfresh)
  have hdeps' : ∀ x, x ∈ deps ↔
      QueuedFor s.conv.heap ev.baseAddr_ s.conv.m_requestQueue x := by
    intro x
    rw [hdeps]
    simp
  refine ⟨hdeps', ?_, hsorted⟩
  intro e g
  rw [hflushes, hdeps']

theorem Owned.queuedFor (ho : Owned s) {base : Addr} {x : Nat}
    (hx : QueuedFor s.conv.heap base s.conv.m_requestQueue x) :
    ∃ e, .mem e ∈ s.handed ∧ e.isFlush = false ∧ e.baseAddr_ = base ∧
      e.eventID_ = x ∧ x ∉ s.answered := by
  obtain ⟨ptr, -, r, hr, hbase, rfl⟩ := hx
  obtain ⟨hmem, hflush, hans⟩ := ho.live ptr _ hr
  exact ⟨r.m_event, hmem, hflush, hbase, rfl, hans⟩

theorem ids_afterFlush : (s.afterFlush ev deps dependent).ids = s.ids ++ [ev.eventID_] := by
  simp [afterFlush, ids, Handed.id]

theorem answered_afterFlush :
    (s.afterFlush ev deps dependent).answered =
      if deps = ∅ then s.answered ++ [ev.eventID_] else s.answered := by
  simp only [afterFlush, answered]
  split <;> simp

theorem mem_answered_afterFlush {x : Nat} (hx : x ∈ (s.afterFlush ev deps dependent).answered) :
    x ∈ s.answered ∨ x = ev.eventID_ := by
  rw [answered_afterFlush] at hx
  split at hx
  · simpa using hx
  · exact .inl hx

theorem answered_subset_afterFlush {x : Nat} (hx : x ∈ s.answered) :
    x ∈ (s.afterFlush ev deps dependent).answered := by
  rw [answered_afterFlush]
  split
  · exact mem_append_left _ hx
  · exact hx

theorem Owned.afterFlush (ho : Owned s) (hfresh : ev.eventID_ ∉ s.ids)
    (hflush : ev.isFlush = true) :
    Owned (s.afterFlush ev deps dependent) := by
  have hnotans : ev.eventID_ ∉ s.answered := fun hmem => hfresh (ho.answered_ids _ hmem)
  have hold : ∀ x ∈ s.ids, x ∉ s.answered →
      x ∉ (s.afterFlush ev deps dependent).answered := by
    intro x hx hans hmem
    rcases mem_answered_afterFlush hmem with h | rfl
    · exact hans h
    · exact hfresh hx
  constructor
  · rw [ids_afterFlush]
    exact ho.ids_nodup.append (nodup_singleton _)
      (disjoint_singleton.2 hfresh)
  · intro x hx
    rw [ids_afterFlush]
    rcases mem_answered_afterFlush hx with hx | rfl
    · exact mem_append_left _ (ho.answered_ids x hx)
    · exact mem_append_right _ (by simp)
  · rw [answered_afterFlush]
    split
    · exact ho.answered_nodup.append (nodup_singleton _)
        (disjoint_singleton.2 hnotans)
    · exact ho.answered_nodup
  · exact ho.allocated
  · intro p r hp
    obtain ⟨hmem, hrf, hans⟩ := ho.live p r hp
    have hid : r.evId ∈ s.ids := by simpa using mem_ids hmem
    exact ⟨mem_append_left _ hmem, hrf, hold _ hid hans⟩
  · exact ho.live_inj
  · intro h hh hhf hans
    simp only [ConvertorRun.afterFlush, mem_append, mem_singleton] at hh
    rcases hh with hh | rfl
    · exact ho.unanswered h hh hhf fun hmem => hans (answered_subset_afterFlush hmem)
    · simp [Handed.isFlush, hflush] at hhf

theorem find?_waiting_afterFlush (x : Nat) :
    (s.afterFlush ev deps dependent).conv.m_waitingFlushes.find? x =
      if x = ev.eventID_ ∧ deps ≠ ∅ then some deps
      else s.conv.m_waitingFlushes.find? x := by
  simp only [afterFlush]
  by_cases hdeps : deps = ∅
  · simp [hdeps]
  · simp [hdeps, OrderedMap.find?_insert]

theorem Linked.afterFlush (hl : Linked s) (ho : Owned s) (hfresh : ev.eventID_ ∉ s.ids)
    (hflush : ev.isFlush = true)
    (h : MemBackendConvertor.findDependencies s.conv.heap ev
      s.conv.m_requestQueue ∅ s.conv.m_dependentRequests = some (deps, dependent)) :
    Linked (s.afterFlush ev deps dependent) := by
  obtain ⟨hdeps, hflushes, hsorted⟩ := hl.flush_spec hfresh h
  have hnew : s.conv.m_waitingFlushes.find? ev.eventID_ = none := by
    cases hw : s.conv.m_waitingFlushes.find? ev.eventID_ with
    | none =>
      rfl
    | some ds =>
      obtain ⟨-, -, f, hf, -, hid, -⟩ := hl.waiting _ ds hw
      have hmem := mem_ids hf
      exact absurd (hid ▸ hmem) hfresh
  have hmem : ∀ f, .mem f ∈ (s.afterFlush ev deps dependent).handed →
      (.mem f ∈ s.handed ∧ f.eventID_ ≠ ev.eventID_) ∨ f = ev := by
    intro f hf
    simp only [ConvertorRun.afterFlush, mem_append, mem_singleton] at hf
    rcases hf with hf | hf
    · refine .inl ⟨hf, fun hid => hfresh ?_⟩
      have := mem_ids hf
      exact hid ▸ this
    · exact .inr (by simpa using hf)
  have hdepsOld : ∀ d ∈ deps, ∃ e, e.isFlush = false ∧ .mem e ∈ s.handed ∧
      e.baseAddr_ = ev.baseAddr_ ∧ e.eventID_ = d ∧ d ∉ s.answered := by
    intro d hd
    obtain ⟨e, he, hef, hbase, hid, hans⟩ := ho.queuedFor ((hdeps d).1 hd)
    exact ⟨e, hef, he, hbase, hid, hans⟩
  constructor
  · exact hsorted
  · intro e f hf
    rcases (hflushes e f).1 hf with hf | ⟨rfl, -⟩
    · obtain ⟨hf₁, hf₂⟩ := hl.flushes e f hf
      exact ⟨mem_append_left _ hf₁, hf₂⟩
    · exact ⟨by simp [ConvertorRun.afterFlush], hflush⟩
  · intro e f hf hff
    have hfl : f ∈ flushesOf (s.afterFlush ev deps dependent).conv.m_dependentRequests e ↔
        f ∈ flushesOf s.conv.m_dependentRequests e ∨ (f = ev ∧ e ∈ deps) :=
      hflushes e f
    rw [hfl, find?_waiting_afterFlush]
    rcases hmem f hf with ⟨hf, hne⟩ | rfl
    · have hfe : f ≠ ev := by
        rintro rfl
        exact hne rfl
      simp [hne, hfe, hl.linked e f hf hff]
    · have hnot : f ∉ flushesOf s.conv.m_dependentRequests e := by
        intro hin
        have := mem_ids (hl.flushes e f hin).1
        exact hfresh this
      by_cases hempty : deps = ∅
      · simp [hnot, hempty, hnew]
      · simp [hnot, hempty]
  · intro x ds hx
    rw [find?_waiting_afterFlush] at hx
    split at hx
    · rename_i hcond
      obtain ⟨rfl, hne⟩ := hcond
      cases hx
      have hans : (s.afterFlush ev deps dependent).answered = s.answered := by
        rw [answered_afterFlush, if_neg hne]
      refine ⟨?_, hne, ev, by simp [ConvertorRun.afterFlush], hflush, rfl, ?_⟩
      · rw [hans]
        exact fun hmem => hfresh (ho.answered_ids _ hmem)
      · intro d hd
        obtain ⟨e, hef, he, hbase, hid, hdans⟩ := hdepsOld d hd
        exact ⟨hans ▸ hdans, e, hef, precedes_concat_iff.2 (.inr ⟨he, rfl⟩), hbase, hid⟩
    · obtain ⟨hans, hne, f, hf, hff, hid, hds⟩ := hl.waiting x ds hx
      have hkeep : ∀ y ∈ s.ids, y ∉ s.answered →
          y ∉ (s.afterFlush ev deps dependent).answered := by
        intro y hy hyans hmem
        rcases mem_answered_afterFlush hmem with h | rfl
        · exact hyans h
        · exact hfresh hy
      refine ⟨hkeep x (hid ▸ mem_ids hf) hans, hne, f, mem_append_left _ hf, hff, hid, ?_⟩
      intro d hd
      obtain ⟨hdans, e, he, hprec, hbase, hde⟩ := hds d hd
      exact ⟨hkeep d (hde ▸ mem_ids hprec.mem_left) hdans, e, he, hprec.append_right, hbase, hde⟩
  · intro f hf hff hw
    rw [find?_waiting_afterFlush] at hw
    rcases hmem f hf with ⟨hf, hne⟩ | rfl
    · exact answered_subset_afterFlush
        (hl.flush_done f hf hff (by simpa [hne] using hw))
    · have hempty : deps = ∅ := by
        by_contra hne
        simp [hne] at hw
      simp [answered_afterFlush, hempty]

end Flush

section Last

variable {s t : ConvertorRun}

/-- The flushes that only wait for `e`. -/
def finished (s : ConvertorRun) (e : Nat) : List MemEvent :=
  (flushesOf s.conv.m_dependentRequests e).filter (fun f =>
    ((s.conv.m_waitingFlushes.find? f.eventID_).bind (remaining e)).isNone)

/-- The effect of a response that completes the event of an object. -/
structure LastEffect (s t : ConvertorRun) (ptr : Nat) (req : BaseReq) : Prop where
  object : s.conv.heap ptr = some req
  heap : t.conv.heap = update s.conv.heap ptr none
  nextPtr : t.conv.nextPtr = s.conv.nextPtr
  handed : t.handed = s.handed
  answered : t.answered =
    s.answered ++ req.evId :: (s.finished req.evId).map MemEvent.eventID_
  waiting : ∀ g, t.conv.m_waitingFlushes.find? g =
    (s.conv.m_waitingFlushes.find? g).bind (remaining req.evId)
  dependent : ∀ e, flushesOf t.conv.m_dependentRequests e =
    if e = req.evId then [] else flushesOf s.conv.m_dependentRequests e

variable {e : Nat}

theorem remaining_eq_some_iff {ds ds' : Finset Nat} :
    remaining e ds = some ds' ↔ ds.erase e = ds' ∧ ds' ≠ ∅ := by
  unfold remaining
  split
  · rename_i h
    constructor
    · intro h'
      cases h'
    · rintro ⟨rfl, hne⟩
      exact absurd h hne
  · rename_i h
    constructor
    · intro h'
      cases h'
      exact ⟨rfl, h⟩
    · rintro ⟨rfl, -⟩
      rfl

theorem remaining_eq_none_iff {ds : Finset Nat} :
    remaining e ds = none ↔ ds.erase e = ∅ := by
  unfold remaining
  split <;> simp_all

theorem Linked.mem_finished_iff (hl : Linked s) {f : MemEvent} :
    f ∈ s.finished e ↔ .mem f ∈ s.handed ∧ f.isFlush = true ∧
      s.conv.m_waitingFlushes.find? f.eventID_ = some {e} := by
  unfold finished
  rw [mem_filter, isNone_iff_eq_none]
  constructor
  · rintro ⟨hf, hrem⟩
    obtain ⟨hmem, hff⟩ := hl.flushes e f hf
    obtain ⟨ds, hds, he⟩ := (hl.linked e f hmem hff).1 hf
    rw [hds, bind_some, remaining_eq_none_iff] at hrem
    refine ⟨hmem, hff, ?_⟩
    rw [hds, ← Finset.insert_erase he, hrem]
    rfl
  · rintro ⟨hmem, hff, hw⟩
    exact ⟨(hl.linked e f hmem hff).2 ⟨{e}, hw, by simp⟩, by simp [hw, remaining]⟩

theorem Linked.remaining_of_nil (hl : Linked s) (hnil : flushesOf s.conv.m_dependentRequests e = [])
    (g : Nat) :
    (s.conv.m_waitingFlushes.find? g).bind (remaining e) = s.conv.m_waitingFlushes.find? g := by
  cases hw : s.conv.m_waitingFlushes.find? g with
  | none =>
    rfl
  | some ds =>
    obtain ⟨-, hne, f, hf, hff, rfl, -⟩ := hl.waiting g ds hw
    have he : e ∉ ds := by
      intro he
      have hmem := (hl.linked e f hf hff).2 ⟨ds, hw, he⟩
      rw [hnil] at hmem
      cases hmem
    rw [bind_some, remaining_eq_some_iff]
    exact ⟨Finset.erase_eq_of_notMem he, hne⟩

variable {ptr : Nat} {req : BaseReq}

theorem Linked.flushesOf_custom (hl : Linked s) (ho : Owned s) {r : CustomReq}
    (hptr : s.conv.heap ptr = some (.custom r)) :
    flushesOf s.conv.m_dependentRequests r.m_evId = [] := by
  refine eq_nil_iff_forall_not_mem.2 ?_
  intro f hf
  obtain ⟨hmem, hff⟩ := hl.flushes _ f hf
  obtain ⟨ds, hds, hin⟩ := (hl.linked _ f hmem hff).1 hf
  obtain ⟨-, -, f', -, -, -, hall⟩ := hl.waiting _ ds hds
  obtain ⟨-, e, -, hprec, -, hid⟩ := hall _ hin
  have heq := ho.eq_of_id hprec.mem_left (ho.live ptr _ hptr).1 hid
  exact absurd heq (by simp [BaseReq.handed])

theorem lastEffect_of_respond (ho : Owned s) (hl : Linked s)
    {i : Issue} {flags : UInt32} {flushes : List Response} {waiting : OrderedMap Nat (Finset Nat)}
    {dependent : OrderedMap Nat (List MemEvent)} (hptr : s.conv.heap ptr = some req)
    (h : ((s.conv.m_dependentRequests.find? req.evId = none ∨ ∃ r, req = .custom r) ∧
          flushes = [] ∧ waiting = s.conv.m_waitingFlushes ∧
          dependent = s.conv.m_dependentRequests) ∨
        ∃ fs, s.conv.m_dependentRequests.find? req.evId = some fs ∧
          MemBackendConvertor.completeFlushes req.evId fs
            s.conv.m_waitingFlushes = some (flushes, waiting) ∧
          dependent = s.conv.m_dependentRequests.erase req.evId) :
    LastEffect s (s.afterLast i ptr req flags flushes waiting dependent)
      ptr req := by
  rcases h with ⟨hnone, rfl, rfl, rfl⟩ | ⟨fs, hfs, hcomp, rfl⟩
  · have hnil : flushesOf s.conv.m_dependentRequests req.evId = [] := by
      rcases hnone with hnone | ⟨r, rfl⟩
      · simp [flushesOf, hnone]
      · exact hl.flushesOf_custom ho hptr
    refine ⟨hptr, rfl, rfl, rfl, ?_, ?_, ?_⟩
    · simp [ConvertorRun.afterLast, ConvertorRun.answered, finished, hnil]
    · intro g
      exact (hl.remaining_of_nil hnil g).symm
    · intro e
      split
      · rename_i he
        exact he ▸ hnil
      · rfl
  · have hflushes : flushesOf s.conv.m_dependentRequests req.evId = fs := by simp [flushesOf, hfs]
    have hwait : ∀ f ∈ fs, ∃ ds,
        s.conv.m_waitingFlushes.find? f.eventID_ = some ds ∧ req.evId ∈ ds := by
      intro f hf
      rw [← hflushes] at hf
      obtain ⟨hmem, hff⟩ := hl.flushes _ f hf
      exact (hl.linked _ f hmem hff).1 hf
    obtain ⟨w', hw', hfind⟩ := completeFlushes_spec (e := req.evId)
      (w := s.conv.m_waitingFlushes) (hflushes ▸ hl.sorted req.evId) (by
        intro f hf
        obtain ⟨ds, hds, -⟩ := hwait f hf
        simp [hds])
    rw [hcomp] at hw'
    cases hw'
    refine ⟨hptr, rfl, rfl, rfl, ?_, ?_, ?_⟩
    · simp [ConvertorRun.afterLast, ConvertorRun.answered, finished, hflushes, comp_def]
    · intro g
      show waiting.find? g = _
      rw [hfind g]
      split
      · rfl
      · rename_i hg
        cases hw : s.conv.m_waitingFlushes.find? g with
        | none =>
          rfl
        | some ds =>
          obtain ⟨-, hne, f, hf, hff, rfl, -⟩ := hl.waiting g ds hw
          have he : req.evId ∉ ds := by
            intro he
            have hmem := (hl.linked _ f hf hff).2 ⟨ds, hw, he⟩
            rw [hflushes] at hmem
            exact hg (mem_map_of_mem hmem)
          rw [bind_some, eq_comm, remaining_eq_some_iff]
          exact ⟨Finset.erase_eq_of_notMem he, hne⟩
    · intro e
      simp only [ConvertorRun.afterLast, flushesOf, OrderedMap.find?_erase]
      split <;> rfl

theorem LastEffect.mem_answered_iff (h : LastEffect s t ptr req) {x : Nat} :
    x ∈ t.answered ↔ x ∈ s.answered ∨ x = req.evId ∨ ∃ f ∈ s.finished req.evId, f.eventID_ = x := by
  rw [h.answered]
  simp

theorem LastEffect.not_answered (h : LastEffect s t ptr req) (ho : Owned s) (hl : Linked s)
    {a : Handed} (ha : a ∈ s.handed) (haf : a.isFlush = false) (hne : a.id ≠ req.evId)
    (hans : a.id ∉ s.answered) :
    a.id ∉ t.answered := by
  rw [h.mem_answered_iff]
  rintro (hmem | heq | ⟨f, hf, hid⟩)
  · exact hans hmem
  · exact hne heq
  · obtain ⟨hfm, hff, -⟩ := hl.mem_finished_iff.1 hf
    exact ho.id_ne_of_flush ha haf hfm hff hid.symm

theorem Owned.afterLast (ho : Owned s) (hl : Linked s) (h : LastEffect s t ptr req) : Owned t := by
  obtain ⟨hreq, hreqf, hreqans⟩ := ho.live ptr req h.object
  have hold : ∀ p r, t.conv.heap p = some r → s.conv.heap p = some r ∧ p ≠ ptr := by
    intro p r hp
    rw [h.heap, update_apply] at hp
    split at hp
    · cases hp
    · rename_i hne
      exact ⟨hp, hne⟩
  have hids : t.ids = s.ids := by simp [ids, h.handed]
  constructor
  · exact hids ▸ ho.ids_nodup
  · intro x hx
    rw [hids]
    rcases h.mem_answered_iff.1 hx with hx | rfl | ⟨f, hf, rfl⟩
    · exact ho.answered_ids x hx
    · simpa using mem_ids hreq
    · exact mem_ids (hl.mem_finished_iff.1 hf).1
  · rw [h.answered, nodup_append]
    have hflushNe : ∀ f ∈ s.finished req.evId,
        f.eventID_ ∉ s.answered ∧ req.evId ≠ f.eventID_ := by
      intro f hf
      obtain ⟨hfm, hff, hw⟩ := hl.mem_finished_iff.1 hf
      exact ⟨(hl.waiting _ _ hw).1, by simpa using ho.id_ne_of_flush hreq hreqf hfm hff⟩
    refine ⟨ho.answered_nodup, nodup_cons.2 ⟨?_, ?_⟩, ?_⟩
    · rw [List.mem_map]
      rintro ⟨f, hf, hid⟩
      exact (hflushNe f hf).2 hid.symm
    · have hsorted := (hl.sorted req.evId).filter (fun f =>
        ((s.conv.m_waitingFlushes.find? f.eventID_).bind (remaining req.evId)).isNone)
      exact (pairwise_map.2 (hsorted.imp fun hlt => hlt.ne))
    · intro a ha b hb
      rcases mem_cons.1 hb with rfl | hb
      · rintro rfl
        exact hreqans ha
      · obtain ⟨f, hf, rfl⟩ := mem_map.1 hb
        rintro rfl
        exact (hflushNe f hf).1 ha
  · intro p r hp
    exact h.nextPtr ▸ ho.allocated p r (hold p r hp).1
  · intro p r hp
    obtain ⟨hp, hne⟩ := hold p r hp
    obtain ⟨hmem, hrf, hans⟩ := ho.live p r hp
    have hidne : r.handed.id ≠ req.evId := by
      rw [BaseReq.handed_id]
      exact fun heq => hne (ho.live_inj p ptr r req hp h.object heq)
    refine ⟨h.handed ▸ hmem, hrf, ?_⟩
    simpa using h.not_answered ho hl hmem hrf hidne (by simpa using hans)
  · intro p q r r' hp hq heq
    exact ho.live_inj p q r r' (hold p r hp).1 (hold q r' hq).1 heq
  · intro a ha haf hans
    rw [h.handed] at ha
    rw [h.mem_answered_iff, not_or, not_or] at hans
    obtain ⟨p, r, hp, hr⟩ := ho.unanswered a ha haf hans.1
    have hne : p ≠ ptr := by
      rintro rfl
      cases h.object.symm.trans hp
      exact hans.2.1 (by rw [← hr, BaseReq.handed_id])
    exact ⟨p, r, by simp [h.heap, hne, hp], hr⟩

theorem Linked.afterLast (hl : Linked s) (ho : Owned s) (h : LastEffect s t ptr req) :
    Linked t := by
  obtain ⟨hreq, hreqf, -⟩ := ho.live ptr req h.object
  have hwait : ∀ x ds', t.conv.m_waitingFlushes.find? x = some ds' →
      ∃ ds, s.conv.m_waitingFlushes.find? x = some ds ∧
        ds.erase req.evId = ds' ∧ ds' ≠ ∅ := by
    intro x ds' hx
    rw [h.waiting, bind_eq_some_iff] at hx
    obtain ⟨ds, hds, hrem⟩ := hx
    exact ⟨ds, hds, remaining_eq_some_iff.1 hrem⟩
  constructor
  · intro e
    rw [h.dependent]
    split
    · exact List.Pairwise.nil
    · exact hl.sorted e
  · intro e f hf
    rw [h.dependent] at hf
    split at hf
    · cases hf
    · rw [h.handed]
      exact hl.flushes e f hf
  · intro e f hf hff
    rw [h.handed] at hf
    rw [h.dependent]
    split
    · rename_i he
      subst he
      refine iff_of_false (by simp) ?_
      rintro ⟨ds', hds', hin⟩
      obtain ⟨ds, -, rfl, -⟩ := hwait _ ds' hds'
      exact absurd hin (by simp)
    · rename_i he
      rw [hl.linked e f hf hff]
      constructor
      · rintro ⟨ds, hds, hin⟩
        have hin' : e ∈ ds.erase req.evId := Finset.mem_erase.2 ⟨he, hin⟩
        refine ⟨ds.erase req.evId, ?_, hin'⟩
        rw [h.waiting, hds, bind_some, remaining_eq_some_iff]
        exact ⟨rfl, Finset.ne_empty_of_mem hin'⟩
      · rintro ⟨ds', hds', hin⟩
        obtain ⟨ds, hds, rfl, -⟩ := hwait _ ds' hds'
        exact ⟨ds, hds, Finset.mem_of_mem_erase hin⟩
  · intro x ds' hx
    obtain ⟨ds, hds, rfl, hne⟩ := hwait x ds' hx
    obtain ⟨hans, -, f, hf, hff, rfl, hall⟩ := hl.waiting x ds hds
    refine ⟨?_, hne, f, h.handed ▸ hf, hff, rfl, ?_⟩
    · rw [h.mem_answered_iff]
      rintro (hmem | heq | ⟨g, hg, hid⟩)
      · exact hans hmem
      · exact ho.id_ne_of_flush hreq hreqf hf hff (by simpa using heq.symm)
      · obtain ⟨-, -, hw⟩ := hl.mem_finished_iff.1 hg
        rw [hid, hds] at hw
        cases hw
        simp at hne
    · intro d hd
      obtain ⟨hdne, hd⟩ := Finset.mem_erase.1 hd
      obtain ⟨hdans, e, hef, hprec, hbase, rfl⟩ := hall d hd
      exact ⟨h.not_answered ho hl hprec.mem_left hef hdne hdans, e, hef,
        h.handed ▸ hprec, hbase, rfl⟩
  · intro f hf hff hw
    rw [h.handed] at hf
    rw [h.waiting] at hw
    rw [h.mem_answered_iff]
    cases hs : s.conv.m_waitingFlushes.find? f.eventID_ with
    | none =>
      exact .inl (hl.flush_done f hf hff hs)
    | some ds =>
      rw [hs, bind_some, remaining_eq_none_iff] at hw
      obtain ⟨-, hne, -⟩ := hl.waiting _ ds hs
      have hds : ds = {req.evId} := by
        rcases (Finset.erase_eq_empty_iff _ _).1 hw with h | h
        · exact absurd h hne
        · exact h
      subst hds
      exact .inr (.inr ⟨f, hl.mem_finished_iff.2 ⟨hf, hff, hs⟩, rfl⟩)

end Last

section Steps

variable {s t : ConvertorRun}

theorem respond_effect (ho : Owned s) (hl : Linked s) {i : Issue} {flags : UInt32}
    (h : s.step (.respond i flags) = some t) :
    i ∈ s.outstanding ∧ ∃ ptr req, s.conv.m_pendingRequests.find? i.reqId.getBaseId = some ptr ∧
      s.conv.heap ptr = some req ∧ ((req.decrement.isDone = false ∧ t = s.afterPart i ptr req) ∨
        (req.decrement.isDone = true ∧ LastEffect s t ptr req ∧ ∃ flushes waiting dependent,
            t = s.afterLast i ptr req flags flushes waiting dependent)) := by
  obtain ⟨hout, ptr, req, hpend, hptr, hcase⟩ := respond_cases h
  refine ⟨hout, ptr, req, hpend, hptr, ?_⟩
  rcases hcase with hpart | ⟨hdone, flushes, waiting, dependent, rfl, heff⟩
  · exact .inl hpart
  · exact .inr ⟨hdone, lastEffect_of_respond ho hl hptr heff, flushes, waiting, dependent, rfl⟩

theorem owned_linked_step {op : ConvertorOp} (hs : Owned s ∧ Linked s) (h : s.step op = some t) :
    Owned t ∧ Linked t := by
  obtain ⟨ho, hl⟩ := hs
  cases op with
  | memEvent ev =>
    obtain ⟨hfresh, ⟨hflush, rfl⟩ | ⟨hflush, deps, dependent, hfind, rfl⟩⟩ := memEvent_cases h
    · exact ⟨ho.afterRequest (fun _ => rfl) hflush hfresh, hl.afterRequest hflush⟩
    · exact ⟨ho.afterFlush hfresh hflush, hl.afterFlush ho hfresh hflush hfind⟩
  | customEvent info evId rqstr =>
    obtain ⟨hfresh, rfl⟩ := customEvent_cases h
    exact ⟨ho.afterRequest (fun _ => rfl) rfl hfresh, hl.afterRequest rfl⟩
  | clock maxReqPerCycle backend =>
    refine clock_induction (P := fun u => Owned u ∧ Linked u) ?_ h ⟨ho, hl⟩
    rintro u ptr rest req ⟨hou, hlu⟩ - hptr
    exact ⟨hou.afterIssue hptr, hlu.congr rfl rfl rfl rfl⟩
  | respond i flags =>
    obtain ⟨-, ptr, req, -, hptr, ⟨-, rfl⟩ | ⟨-, heff, -⟩⟩ := respond_effect ho hl h
    · exact ⟨ho.afterPart hptr, hl.congr rfl rfl rfl rfl⟩
    · exact ⟨ho.afterLast hl heff, hl.afterLast ho heff⟩

end Steps

end ConvertorRun

end SstElements.MemHierarchy
