import SstElements.MemHierarchy.MemBackendLinked

/-!
# Flushes come after the earlier accesses to their line

The dependencies of a flush are read from the queue alone, so an event that is
fully issued and not answered is missed, and flushes that wait for one event
are answered in the order of their identifiers.  `FlushSafe` excludes these two
arrivals; `FlushOrdered` is what holds in every run without them.
-/

namespace SstElements.MemHierarchy

open Library Option Finset

namespace ConvertorRun

/--
Every flush is answered exactly once, when all earlier events of its line are,
and after them; and it only waits for earlier events.
-/
structure FlushOrdered (s : ConvertorRun) : Prop where
  once : ∀ f, .mem f ∈ s.handed → f.isFlush = true →
    s.answered.count f.eventID_ ≤ 1 ∧
      (s.answered.count f.eventID_ = 1 ↔
        ∀ e, Precedes (.mem e) (.mem f) s.handed → e.baseAddr_ = f.baseAddr_ →
          e.eventID_ ∈ s.answered)
  after : ∀ e f, Precedes (.mem e) (.mem f) s.handed → f.isFlush = true →
    e.baseAddr_ = f.baseAddr_ → f.eventID_ ∈ s.answered →
    Precedes e.eventID_ f.eventID_ s.answered
  waits : ∀ x ds, s.conv.m_waitingFlushes.find? x = some ds →
    ∃ f, .mem f ∈ s.handed ∧ f.isFlush = true ∧ f.eventID_ = x ∧
      ∀ d ∈ ds, ∃ e, Precedes (.mem e) (.mem f) s.handed ∧ e.eventID_ = d

/--
When a flush arrives, every unanswered event of its line is still in the queue,
and the flushes of its line that wait have smaller identifiers.
-/
def FlushSafe (s : ConvertorRun) : ConvertorOp → Prop
  | .memEvent ev =>
    ev.isFlush = true →
      (∀ p r, s.conv.heap p = some (.mem r) → r.baseAddr = ev.baseAddr_ →
        p ∈ s.conv.m_requestQueue) ∧
      ∀ f, .mem f ∈ s.handed → f.baseAddr_ = ev.baseAddr_ →
        (s.conv.m_waitingFlushes.find? f.eventID_).isSome = true →
        f.eventID_ < ev.eventID_
  | _ => True

/-- What is kept of the order: who is waited for, and who was answered when. -/
structure Ordered (s : ConvertorRun) : Prop where
  complete : ∀ e f ds, Precedes (.mem e) (.mem f) s.handed → f.isFlush = true →
    e.isFlush = false → e.baseAddr_ = f.baseAddr_ → e.eventID_ ∉ s.answered →
    s.conv.m_waitingFlushes.find? f.eventID_ = some ds → e.eventID_ ∈ ds
  rank : ∀ g f, Precedes (.mem g) (.mem f) s.handed → g.isFlush = true →
    f.isFlush = true → g.baseAddr_ = f.baseAddr_ →
    (s.conv.m_waitingFlushes.find? g.eventID_).isSome = true →
    (s.conv.m_waitingFlushes.find? f.eventID_).isSome = true →
    g.eventID_ < f.eventID_
  after : ∀ e f, Precedes (.mem e) (.mem f) s.handed → f.isFlush = true →
    e.baseAddr_ = f.baseAddr_ → f.eventID_ ∈ s.answered →
    Precedes e.eventID_ f.eventID_ s.answered

section Steps

variable {s t : ConvertorRun}

theorem ordered_start (width : UInt32) : Ordered (start width) := by
  constructor <;> simp [start, answered, Precedes]

theorem Ordered.congr (h : Ordered s) (hw : t.conv.m_waitingFlushes = s.conv.m_waitingFlushes)
    (hhanded : t.handed = s.handed) (hresp : t.responses = s.responses) :
    Ordered t := by
  have hans : t.answered = s.answered := by simp [answered, hresp]
  constructor
  · rw [hhanded, hans, hw]
    exact h.complete
  · rw [hhanded, hw]
    exact h.rank
  · rw [hhanded, hans]
    exact h.after

theorem Ordered.afterRequest (h : Ordered s) {a : Handed} {make : UInt32 → BaseReq}
    (ha : a.isFlush = false) :
    Ordered (s.afterRequest a make) := by
  have hold : ∀ {e f : MemEvent},
      Precedes (.mem e) (.mem f) (s.afterRequest a make).handed →
      f.isFlush = true → Precedes (.mem e) (.mem f) s.handed := by
    intro e f hprec hf
    rcases precedes_concat_iff.1 hprec with hprec | ⟨-, rfl⟩
    · exact hprec
    · simp [Handed.isFlush, hf] at ha
  constructor
  · intro e f ds hprec hf
    exact h.complete e f ds (hold hprec hf) hf
  · intro g f hprec hg hf
    exact h.rank g f (hold hprec hf) hg hf
  · intro e f hprec hf
    exact h.after e f (hold hprec hf) hf

variable {f g ev : MemEvent} {ds deps : Finset Nat} {dependent : OrderedMap Nat (List MemEvent)}

theorem Linked.waits_for (hl : Linked s) (ho : Owned s) (hf : .mem f ∈ s.handed)
    (hw : s.conv.m_waitingFlushes.find? f.eventID_ = some ds) :
    ds ≠ ∅ ∧ ∀ d ∈ ds, d ∉ s.answered ∧
        ∃ e, e.isFlush = false ∧ Precedes (.mem e) (.mem f) s.handed ∧
          e.baseAddr_ = f.baseAddr_ ∧ e.eventID_ = d := by
  obtain ⟨-, hne, f', hf', -, hid, hds⟩ := hl.waiting _ ds hw
  obtain rfl : f' = f := by simpa using ho.eq_of_id hf' hf hid
  exact ⟨hne, hds⟩

theorem Linked.answered_of_accesses (hl : Linked s) (ho : Owned s)
    (hg : .mem g ∈ s.handed) (hgf : g.isFlush = true)
    (hall : ∀ e, .mem e ∈ s.handed → e.isFlush = false →
      e.baseAddr_ = g.baseAddr_ → e.eventID_ ∈ s.answered) :
    g.eventID_ ∈ s.answered := by
  cases hw : s.conv.m_waitingFlushes.find? g.eventID_ with
  | none =>
    exact hl.flush_done g hg hgf hw
  | some ds =>
    obtain ⟨hne, hds⟩ := hl.waits_for ho hg hw
    obtain ⟨d, hd⟩ := nonempty_iff_ne_empty.2 hne
    obtain ⟨hans, e, he, hprec, hbase, rfl⟩ := hds d hd
    exact absurd (hall e hprec.mem_left he hbase) hans

theorem FlushSafe.mem_deps (ho : Owned s) (hl : Linked s)
    (hsafe : FlushSafe s (.memEvent ev)) (hflush : ev.isFlush = true) (hfresh : ev.eventID_ ∉ s.ids)
    (hfind : MemBackendConvertor.findDependencies s.conv.heap ev
      s.conv.m_requestQueue ∅ s.conv.m_dependentRequests = some (deps, dependent))
    {e : MemEvent} (he : .mem e ∈ s.handed) (hef : e.isFlush = false)
    (hbase : e.baseAddr_ = ev.baseAddr_) (hans : e.eventID_ ∉ s.answered) :
    e.eventID_ ∈ deps := by
  obtain ⟨hdeps, -, -⟩ := hl.flush_spec hfresh hfind
  obtain ⟨p, r, hp, hr⟩ := ho.unanswered (.mem e) he hef hans
  cases r with
  | custom r =>
    simp [BaseReq.handed] at hr
  | mem r =>
    obtain rfl : r.m_event = e := by simpa [BaseReq.handed] using hr
    exact (hdeps _).2 ⟨p, (hsafe hflush).1 p r hp hbase, r, hp, hbase, rfl⟩

section

variable (h : Ordered s) (ho : Owned s) (hl : Linked s)
include h ho hl

theorem Ordered.afterFlush
    (hsafe : FlushSafe s (.memEvent ev)) (hflush : ev.isFlush = true) (hfresh : ev.eventID_ ∉ s.ids)
    (hfind : MemBackendConvertor.findDependencies s.conv.heap ev
      s.conv.m_requestQueue ∅ s.conv.m_dependentRequests = some (deps, dependent)) :
    Ordered (s.afterFlush ev deps dependent) := by
  have hcover : ∀ e, .mem e ∈ s.handed → e.isFlush = false →
      e.baseAddr_ = ev.baseAddr_ → e.eventID_ ∉ s.answered →
      e.eventID_ ∈ deps :=
    fun e => hsafe.mem_deps ho hl hflush hfresh hfind
  have hne : ∀ a, a ∈ s.handed → a.id ≠ ev.eventID_ := fun a ha hid => hfresh (hid ▸ mem_ids ha)
  have hcases : ∀ e f : MemEvent,
      Precedes (.mem e) (.mem f) (s.afterFlush ev deps dependent).handed →
      (Precedes (.mem e) (.mem f) s.handed ∧ f.eventID_ ≠ ev.eventID_) ∨
        (.mem e ∈ s.handed ∧ f = ev) := by
    intro e f hprec
    rcases precedes_concat_iff.1 hprec with hprec | ⟨he, hf⟩
    · exact .inl ⟨hprec, hne _ hprec.mem_right⟩
    · exact .inr ⟨he, by simpa using hf⟩
  constructor
  · intro e f ds hprec hf he hbase hans hw
    have hans' : e.eventID_ ∉ s.answered := fun hmem => hans (answered_subset_afterFlush hmem)
    rw [find?_waiting_afterFlush] at hw
    rcases hcases e f hprec with ⟨hprec, hfne⟩ | ⟨hmem, rfl⟩
    · exact h.complete e f ds hprec hf he hbase hans' (by simpa [hfne] using hw)
    · have hin := hcover e hmem he hbase hans'
      rw [if_pos ⟨rfl, ne_empty_of_mem hin⟩] at hw
      exact some.inj hw ▸ hin
  · intro g f hprec hg hf hbase hwg hwf
    rw [find?_waiting_afterFlush] at hwg hwf
    rcases hcases g f hprec with ⟨hprec, hfne⟩ | ⟨hmem, rfl⟩
    · have hgne : g.eventID_ ≠ ev.eventID_ := hne _ hprec.mem_left
      exact h.rank g f hprec hg hf hbase (by simpa [hgne] using hwg)
        (by simpa [hfne] using hwf)
    · have hgne : g.eventID_ ≠ f.eventID_ := hne _ hmem
      exact (hsafe hflush).2 g hmem hbase (by simpa [hgne] using hwg)
  · intro e f hprec hf hbase hans
    rcases hcases e f hprec with ⟨hprec, hfne⟩ | ⟨hmem, rfl⟩
    · have hans' : f.eventID_ ∈ s.answered := (mem_answered_afterFlush hans).resolve_right hfne
      have hold := h.after e f hprec hf hbase hans'
      rw [answered_afterFlush]
      split
      · exact hold.append_right
      · exact hold
    · have hempty : deps = ∅ := by
        by_contra hdeps
        rw [answered_afterFlush, if_neg hdeps] at hans
        exact hfresh (ho.answered_ids _ hans)
      have hall : ∀ e, .mem e ∈ s.handed → e.isFlush = false →
          e.baseAddr_ = f.baseAddr_ → e.eventID_ ∈ s.answered := by
        intro a ha haf hab
        by_contra hna
        have hin := hcover a ha haf hab hna
        rw [hempty] at hin
        cases hin
      have he : e.eventID_ ∈ s.answered := by
        cases hef : e.isFlush with
        | false =>
          exact hall e hmem hef hbase
        | true =>
          exact hl.answered_of_accesses ho hmem hef
            (fun a ha haf hab => hall a ha haf (hab.trans hbase))
      rw [answered_afterFlush, if_pos hempty]
      exact precedes_concat_iff.2 (.inr ⟨he, rfl⟩)

theorem Ordered.finished_precedes {d : Nat} (hprec : Precedes (.mem g) (.mem f) s.handed)
    (hg : g.isFlush = true) (hbase : g.baseAddr_ = f.baseAddr_)
    (hw : s.conv.m_waitingFlushes.find? g.eventID_ = some ds) (hf : f ∈ s.finished d) :
    Precedes g.eventID_ f.eventID_ ((s.finished d).map MemEvent.eventID_) := by
  obtain ⟨-, hff, hwf⟩ := hl.mem_finished_iff.1 hf
  obtain ⟨hne, hds⟩ := hl.waits_for ho hprec.mem_left hw
  have hsub : ds = {d} := by
    refine eq_singleton_iff_nonempty_unique_mem.2
      ⟨nonempty_iff_ne_empty.2 hne, ?_⟩
    intro x hx
    obtain ⟨hans, e, he, heg, hbase', rfl⟩ := hds x hx
    have hef : Precedes (.mem e) (.mem f) s.handed := heg.trans (ho.ids_nodup.of_map _) hprec
    have hin := h.complete e f {d} hef hff he (hbase'.trans hbase) hans hwf
    simpa using hin
  subst hsub
  have hgmem : g ∈ s.finished d := hl.mem_finished_iff.2 ⟨hprec.mem_left, hg, hw⟩
  have hlt := h.rank g f hprec hg hff hbase (by simp [hw]) (by simp [hwf])
  have hsorted := (hl.sorted d).filter (fun f =>
    ((s.conv.m_waitingFlushes.find? f.eventID_).bind (remaining d)).isNone)
  exact (precedes_of_pairwise (fun x y hxy => hxy.asymm) hsorted hgmem hf hlt).map MemEvent.eventID_

theorem Ordered.afterLast {ptr : Nat} {req : BaseReq} (heff : LastEffect s t ptr req) :
    Ordered t := by
  obtain ⟨hreq, hreqf, -⟩ := ho.live ptr req heff.object
  have hwait : ∀ x ds', t.conv.m_waitingFlushes.find? x = some ds' →
      ∃ ds, s.conv.m_waitingFlushes.find? x = some ds ∧
        ds.erase req.evId = ds' := by
    intro x ds' hx
    rw [heff.waiting, bind_eq_some_iff] at hx
    obtain ⟨ds, hds, hrem⟩ := hx
    exact ⟨ds, hds, (remaining_eq_some_iff.1 hrem).1⟩
  have hsome : ∀ x, (t.conv.m_waitingFlushes.find? x).isSome = true →
      (s.conv.m_waitingFlushes.find? x).isSome = true := by
    intro x hx
    obtain ⟨ds', hds'⟩ := isSome_iff_exists.1 hx
    obtain ⟨ds, hds, -⟩ := hwait x ds' hds'
    simp [hds]
  constructor
  · intro e f ds' hprec hf he hbase hans hw
    rw [heff.handed] at hprec
    rw [heff.mem_answered_iff, not_or, not_or] at hans
    obtain ⟨ds, hds, rfl⟩ := hwait _ ds' hw
    exact mem_erase.2
      ⟨hans.2.1, h.complete e f ds hprec hf he hbase hans.1 hds⟩
  · intro g f hprec hg hf hbase hwg hwf
    rw [heff.handed] at hprec
    exact h.rank g f hprec hg hf hbase (hsome _ hwg) (hsome _ hwf)
  · intro e f hprec hf hbase hans
    rw [heff.handed] at hprec
    rw [heff.answered]
    rcases heff.mem_answered_iff.1 hans with hans | heq | ⟨f', hf', hid⟩
    · exact (h.after e f hprec hf hbase hans).append_right
    · exact absurd (by simpa using heq.symm)
        (ho.id_ne_of_flush hreq hreqf hprec.mem_right hf)
    · obtain ⟨hfm, -, hwf⟩ := hl.mem_finished_iff.1 hf'
      obtain rfl : f' = f := by simpa using ho.eq_of_id hfm hprec.mem_right hid
      have hin : f'.eventID_ ∈
          (s.finished req.evId).map MemEvent.eventID_ :=
        List.mem_map_of_mem hf'
      by_cases hes : e.eventID_ ∈ s.answered
      · exact Precedes.of_mem_of_mem hes (List.mem_cons_of_mem _ hin)
      · refine Precedes.append_left ?_
        cases hef : e.isFlush with
        | false =>
          have heid := h.complete e f' _ hprec hf hef hbase hes hwf
          rw [mem_singleton.1 heid]
          exact Precedes.of_mem_of_mem (l := [req.evId]) (by simp) hin
        | true =>
          cases hwe : s.conv.m_waitingFlushes.find? e.eventID_ with
          | none =>
            exact absurd (hl.flush_done e hprec.mem_left hef hwe) hes
          | some ds =>
            exact (h.finished_precedes ho hl hprec hef hbase hwe hf').append_left
              (l := [req.evId])

end

/-- Every operation keeps a flush behind what came before it. -/
theorem ordered_step {op : ConvertorOp} (hs : (Owned s ∧ Linked s) ∧ Ordered s)
    (hsafe : FlushSafe s op) (h : s.step op = some t) :
    (Owned t ∧ Linked t) ∧ Ordered t := by
  obtain ⟨⟨ho, hl⟩, hord⟩ := hs
  refine ⟨owned_linked_step ⟨ho, hl⟩ h, ?_⟩
  cases op with
  | memEvent ev =>
    obtain ⟨hfresh, ⟨hflush, rfl⟩ | ⟨hflush, deps, dependent, hfind, rfl⟩⟩ := memEvent_cases h
    · exact hord.afterRequest hflush
    · exact hord.afterFlush ho hl hsafe hflush hfresh hfind
  | customEvent info evId rqstr =>
    obtain ⟨-, rfl⟩ := customEvent_cases h
    exact hord.afterRequest rfl
  | clock maxReqPerCycle backend =>
    refine clock_induction (P := Ordered) ?_ h hord
    intro u ptr rest req hu _ _
    exact hu.congr rfl rfl rfl
  | respond i flags =>
    obtain ⟨-, ptr, req, -, -, ⟨-, rfl⟩ | ⟨-, heff, -⟩⟩ := respond_effect ho hl h
    · exact hord.congr rfl rfl rfl
    · exact hord.afterLast ho hl heff

end Steps

section Main

variable {s t : ConvertorRun}

theorem flushOrdered_of_ordered (ho : Owned s) (hl : Linked s) (hord : Ordered s) :
    FlushOrdered s := by
  refine ⟨?_, hord.after, ?_⟩
  · intro f hf hff
    have hle : s.answered.count f.eventID_ ≤ 1 := List.nodup_iff_count_le_one.1 ho.answered_nodup _
    have hone : s.answered.count f.eventID_ = 1 ↔ f.eventID_ ∈ s.answered := by
      rw [← List.count_pos_iff]
      omega
    refine ⟨hle, ?_⟩
    rw [hone]
    constructor
    · intro hans e hprec hbase
      exact (hord.after e f hprec hff hbase hans).mem_left
    · intro hall
      cases hw : s.conv.m_waitingFlushes.find? f.eventID_ with
      | none =>
        exact hl.flush_done f hf hff hw
      | some ds =>
        obtain ⟨hne, hds⟩ := hl.waits_for ho hf hw
        obtain ⟨d, hd⟩ := nonempty_iff_ne_empty.2 hne
        obtain ⟨hans, e, -, hprec, hbase, rfl⟩ := hds d hd
        exact absurd (hall e hprec hbase) hans
  · intro x ds hw
    obtain ⟨-, -, f, hf, hff, hid, hds⟩ := hl.waiting x ds hw
    refine ⟨f, hf, hff, hid, ?_⟩
    intro d hd
    obtain ⟨-, e, -, hprec, -, hde⟩ := hds d hd
    exact ⟨e, hprec, hde⟩

/--
In every run in which each flush finds the unanswered events of its line in the
queue and the waiting flushes of its line have smaller identifiers, flushes are
answered exactly once, after all earlier events of their line, and wait for
earlier events only.
-/
theorem flushOrdered_of_flushSafe {width : UInt32} {ops : List ConvertorOp}
    (hsafe : StepsMeet step FlushSafe (start width) ops)
    (hrun : runOps step (start width) ops = some t) :
    FlushOrdered t := by
  obtain ⟨⟨ho, hl⟩, hord⟩ :=
    runOps_invariant_of_stepsMeet
      (P := fun s => (Owned s ∧ Linked s) ∧ Ordered s)
      (fun _ _ _ hs hok hstep => ordered_step hs hok hstep)
      ⟨⟨owned_start width, linked_start width⟩, ordered_start width⟩ hsafe hrun
  exact flushOrdered_of_ordered ho hl hord

/-- An access and a flush to line 0, answered in this order. -/
theorem flushOrdered_of_flushSafe_wait :
    ∃ t, runOps step (start 64)
        [.memEvent { MemEvent.new 1 "l1" 0 0 .GetS with size_ := 64 },
          .memEvent (MemEvent.new 2 "l1" 0 0 .FlushLine),
          .clock (-1) [true], .respond ⟨1, 0x100000000, some 0, false⟩ 0] = some t ∧
      t.answered = [1, 2] ∧ FlushOrdered t := by
  have hmap : (runOps step (start 64)
        [.memEvent { MemEvent.new 1 "l1" 0 0 .GetS with size_ := 64 },
          .memEvent (MemEvent.new 2 "l1" 0 0 .FlushLine),
          .clock (-1) [true], .respond ⟨1, 0x100000000, some 0, false⟩ 0]).map answered =
      some [1, 2] := by
    decide +kernel
  obtain ⟨t, hrun, hans⟩ := map_eq_some_iff.1 hmap
  refine ⟨t, hrun, hans, flushOrdered_of_flushSafe ?_ hrun⟩
  refine ⟨fun h => absurd h (by decide), fun u hu => ⟨fun _ => ?_, fun v _ =>
    ⟨trivial, fun w _ => ⟨trivial, fun x _ => trivial⟩⟩⟩⟩
  obtain ⟨-, ⟨-, rfl⟩ | ⟨hflush, -⟩⟩ := memEvent_cases hu
  · constructor
    · intro p r hp _
      simp only [afterRequest, start, MemBackendConvertor.newRequest,
        MemBackendConvertor.new, Function.update_apply] at hp
      split at hp
      · rename_i hp0
        simp [hp0, afterRequest, start, MemBackendConvertor.newRequest, MemBackendConvertor.new]
      · cases hp
    · intro f _ _ hw
      simp [afterRequest, start, MemBackendConvertor.newRequest, MemBackendConvertor.new] at hw
  · exact absurd hflush (by decide)

/-- A flush that arrives after the issue of an access overtakes its answer. -/
theorem flush_overtakes_issued_access :
    ¬ ∀ (width : UInt32) (ops : List ConvertorOp) (t : ConvertorRun),
        runOps step (start width) ops = some t → FlushOrdered t := by
  intro h
  have hmap : (runOps step (start 64)
        [.memEvent { MemEvent.new 1 "l1" 0 0 .GetS with size_ := 64 },
          .clock (-1) [true],
          .memEvent (MemEvent.new 2 "l1" 0 0 .FlushLine)]).map
        (fun t => (t.handed, t.answered)) =
      some ([.mem { MemEvent.new 1 "l1" 0 0 .GetS with size_ := 64 },
        .mem (MemEvent.new 2 "l1" 0 0 .FlushLine)], [2]) := by
    decide +kernel
  obtain ⟨t, hrun, hpair⟩ := map_eq_some_iff.1 hmap
  obtain ⟨hhanded, hans⟩ := Prod.mk.inj hpair
  have hafter := (h 64 _ t hrun).after
    { MemEvent.new 1 "l1" 0 0 .GetS with size_ := 64 }
    (MemEvent.new 2 "l1" 0 0 .FlushLine)
    (hhanded ▸ List.Sublist.refl _) (by decide) (by decide)
    (by rw [hans]; decide)
  have hmem := hafter.mem_left
  rw [hans] at hmem
  exact absurd hmem (by decide)

end Main

end ConvertorRun

end SstElements.MemHierarchy
