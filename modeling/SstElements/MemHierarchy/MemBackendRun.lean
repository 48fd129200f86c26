import SstElements.Library.Precedence
import SstElements.Library.Transition
import SstElements.MemHierarchy.MemBackendConvertor

/-!
# Runs of the memory backend convertor

`ConvertorRun` puts a convertor between its controller and a backend.  It keeps
what was handed over, what was issued, what the backend still has to answer,
and the responses, all in order.  The backend answers each accepted request
once, at any time after the call that issued it; a response during a tick is a
response between two shorter ticks.

`Linked` holds in every state of every run: each object belongs to one
unanswered event, and the two tables of flushes say the same.
-/

namespace SstElements.MemHierarchy

open Library List Option

/-- What the controller hands over. -/
inductive Handed where
  | mem (ev : MemEvent)
  | custom (info : List UInt8) (evId : Nat) (rqstr : String)
deriving DecidableEq, Repr

namespace Handed

def id : Handed → Nat
  | mem ev => ev.eventID_
  | custom _ evId _ => evId

def isFlush : Handed → Bool
  | mem ev => ev.isFlush
  | custom _ _ _ => false

end Handed

/-- What a request object was made for. -/
def BaseReq.handed : BaseReq → Handed
  | .mem r => .mem r.m_event
  | .custom r => .custom r.m_info r.m_evId r.m_rqstr

/-- The response that completes a request object. -/
def BaseReq.response (flags : UInt32) : BaseReq → Response
  | .mem r =>
    ⟨r.m_event.eventID_, if flags = 0 then r.m_event.flags_ else flags⟩
  | .custom r => ⟨r.m_evId, flags⟩

@[simp] theorem BaseReq.handed_id (r : BaseReq) : r.handed.id = r.evId := by
  cases r <;> rfl

@[simp] theorem BaseReq.handed_increment (bytes : UInt32) (r : BaseReq) :
    (r.increment bytes).handed = r.handed := by
  cases r <;> rfl

@[simp] theorem BaseReq.handed_decrement (r : BaseReq) : r.decrement.handed = r.handed := by
  cases r <;> rfl

@[simp] theorem BaseReq.evId_decrement (r : BaseReq) : r.decrement.evId = r.evId := by
  cases r <;> rfl

@[simp] theorem BaseReq.response_id (flags : UInt32) (r : BaseReq) :
    (r.response flags).id = r.evId := by
  cases r <;> rfl

/-- A convertor, its backend's obligations, and history. -/
structure ConvertorRun where
  conv : MemBackendConvertor
  handed : List Handed
  issued : List Issue
  outstanding : List Issue
  responses : List Response

/-- What can happen at a convertor. -/
inductive ConvertorOp where
  | memEvent (ev : MemEvent)
  | customEvent (info : List UInt8) (evId : Nat) (rqstr : String)
  | clock (maxReqPerCycle : Int) (backend : List Bool)
  | respond (i : Issue) (flags : UInt32)
deriving Repr

namespace ConvertorRun

/-- Nothing handed over yet. -/
def start (width : UInt32) : ConvertorRun :=
  { conv := .new width, handed := [], issued := [], outstanding := [],
    responses := [] }

/-- The identifiers of the events that were handed over, in order. -/
def ids (s : ConvertorRun) : List Nat := s.handed.map Handed.id

/-- The identifiers of the events that were answered, in order. -/
def answered (s : ConvertorRun) : List Nat := s.responses.map Response.id

/-- One step; identifiers of events are not used twice. -/
def step (s : ConvertorRun) : ConvertorOp → Option ConvertorRun
  | .memEvent ev =>
    if ev.eventID_ ∈ s.ids then none
    else (s.conv.handleMemEvent ev).map (fun r =>
      { s with
        conv := r.2
        handed := s.handed ++ [.mem ev]
        responses := s.responses ++ r.1 })
  | .customEvent info evId rqstr =>
    if evId ∈ s.ids then none
    else some
      { s with
        conv := s.conv.handleCustomEvent info evId rqstr
        handed := s.handed ++ [.custom info evId rqstr] }
  | .clock maxReqPerCycle backend =>
    (s.conv.clock maxReqPerCycle backend).map (fun r =>
      { s with
        conv := r.2
        issued := s.issued ++ r.1
        outstanding := s.outstanding ++ r.1 })
  | .respond i flags =>
    if i ∈ s.outstanding then
      (s.conv.doResponse i.reqId flags).map (fun r =>
        { s with
          conv := r.2
          outstanding := s.outstanding.erase i
          responses := s.responses ++ r.1 })
    else none

section Effects

variable (s : ConvertorRun)

/-- A request object was made for `h`. -/
def afterRequest (h : Handed) (make : UInt32 → BaseReq) : ConvertorRun :=
  { s with conv := s.conv.newRequest make, handed := s.handed ++ [h] }

/-- A flush arrived that waits for the events `dependsOn`. -/
def afterFlush (ev : MemEvent) (dependsOn : Finset Nat)
    (dependent : OrderedMap Nat (List MemEvent)) : ConvertorRun :=
  { s with
    conv := { s.conv with
      m_dependentRequests := dependent
      m_waitingFlushes :=
        if dependsOn = ∅ then s.conv.m_waitingFlushes
        else s.conv.m_waitingFlushes.insert ev.eventID_ dependsOn }
    handed := s.handed ++ [.mem ev]
    responses :=
      if dependsOn = ∅ then s.responses ++ [⟨ev.eventID_, ev.flags_⟩]
      else s.responses }

/-- The front request was issued. -/
def afterIssue (ptr : Nat) (rest : List Nat) (req : BaseReq) : ConvertorRun :=
  { s with
    conv := s.conv.issued ptr rest req
    issued := s.issued ++ [req.issue]
    outstanding := s.outstanding ++ [req.issue] }

/-- A request that is not the last of its event was answered. -/
def afterPart (i : Issue) (ptr : Nat) (req : BaseReq) : ConvertorRun :=
  { s with
    conv := { s.conv with
      heap := Function.update s.conv.heap ptr (some req.decrement) }
    outstanding := s.outstanding.erase i }

/-- The last request of an event was answered, and with it some flushes. -/
def afterLast (i : Issue) (ptr : Nat) (req : BaseReq) (flags : UInt32)
    (flushes : List Response) (waiting : OrderedMap Nat (Finset Nat))
    (dependent : OrderedMap Nat (List MemEvent)) : ConvertorRun :=
  { s with
    conv := { s.conv with
      m_pendingRequests := s.conv.m_pendingRequests.erase i.reqId.getBaseId
      heap := Function.update s.conv.heap ptr none
      m_waitingFlushes := waiting
      m_dependentRequests := dependent }
    outstanding := s.outstanding.erase i
    responses := s.responses ++ req.response flags :: flushes }

end Effects

section StepCases

variable {s t : ConvertorRun}

theorem memEvent_cases {ev : MemEvent} (h : s.step (.memEvent ev) = some t) :
    ev.eventID_ ∉ s.ids ∧
      ((ev.isFlush = false ∧ t = s.afterRequest (.mem ev) (fun id => .mem (MemReq.new ev id))) ∨
        (ev.isFlush = true ∧ ∃ dependsOn dependent,
          MemBackendConvertor.findDependencies s.conv.heap ev
              s.conv.m_requestQueue ∅ s.conv.m_dependentRequests =
            some (dependsOn, dependent) ∧ t = s.afterFlush ev dependsOn dependent)) := by
  simp only [step] at h
  split at h
  · cases h
  · rename_i hfresh
    refine ⟨hfresh, ?_⟩
    simp only [MemBackendConvertor.handleMemEvent, MemBackendConvertor.setupMemReq] at h
    cases hflush : ev.isFlush with
    | false =>
      simp only [hflush, Bool.false_eq_true, if_false, map_some,
        some.injEq, if_true, append_nil] at h
      exact .inl ⟨rfl, h.symm⟩
    | true =>
      simp only [hflush, if_true] at h
      cases hfind : MemBackendConvertor.findDependencies s.conv.heap ev
          s.conv.m_requestQueue ∅ s.conv.m_dependentRequests with
      | none =>
        simp [hfind] at h
      | some r =>
        obtain ⟨dependsOn, dependent⟩ := r
        refine .inr ⟨rfl, dependsOn, dependent, rfl, ?_⟩
        by_cases hempty : dependsOn = ∅
        · simpa [hfind, hempty, afterFlush] using h.symm
        · simpa [hfind, hempty, afterFlush] using h.symm

theorem customEvent_cases {info : List UInt8} {evId : Nat} {rqstr : String}
    (h : s.step (.customEvent info evId rqstr) = some t) :
    evId ∉ s.ids ∧ t = s.afterRequest (.custom info evId rqstr) (fun id =>
        .custom { m_reqId := id, m_info := info, m_evId := evId,
                  m_rqstr := rqstr }) := by
  simp only [step] at h
  split at h
  · cases h
  · rename_i hfresh
    exact ⟨hfresh, (some.inj h).symm⟩

theorem clock_induction {P : ConvertorRun → Prop}
    (hissue : ∀ (u : ConvertorRun) ptr rest req, P u →
      u.conv.m_requestQueue = ptr :: rest → u.conv.heap ptr = some req →
      P (u.afterIssue ptr rest req))
    {maxReqPerCycle : Int} {backend : List Bool}
    (h : s.step (.clock maxReqPerCycle backend) = some t) (hs : P s) :
    P t := by
  simp only [step, MemBackendConvertor.clock, map_eq_some_iff] at h
  obtain ⟨⟨issues, conv⟩, hloop, rfl⟩ := h
  generalize (0 : Nat) = n at hloop
  generalize hconv : s.conv = c at hloop
  fun_induction MemBackendConvertor.clockLoop maxReqPerCycle backend n c
    generalizing s issues with
  | case3 => cases hloop
  | case6 n c ptr rest hqueue hlimit req more hreq ih =>
    subst hconv
    obtain ⟨⟨issues', conv'⟩, hrest, heq⟩ := map_eq_some_iff.1 hloop
    cases heq
    have hnext := ih (hissue s ptr rest req hs hqueue hreq) _ rfl hrest
    simpa [afterIssue] using hnext
  | _ =>
    subst hconv
    cases hloop
    simpa using hs

theorem respond_cases {i : Issue} {flags : UInt32} (h : s.step (.respond i flags) = some t) :
    i ∈ s.outstanding ∧ ∃ ptr req, s.conv.m_pendingRequests.find? i.reqId.getBaseId = some ptr ∧
      s.conv.heap ptr = some req ∧ ((req.decrement.isDone = false ∧ t = s.afterPart i ptr req) ∨
        (req.decrement.isDone = true ∧ ∃ flushes waiting dependent,
          t = s.afterLast i ptr req flags flushes waiting dependent ∧
          (((s.conv.m_dependentRequests.find? req.evId = none ∨ ∃ r, req = .custom r) ∧
              flushes = [] ∧ waiting = s.conv.m_waitingFlushes ∧
              dependent = s.conv.m_dependentRequests) ∨
            ∃ fs, s.conv.m_dependentRequests.find? req.evId = some fs ∧
              MemBackendConvertor.completeFlushes req.evId fs
                s.conv.m_waitingFlushes = some (flushes, waiting) ∧
              dependent = s.conv.m_dependentRequests.erase req.evId))) := by
  simp only [step] at h
  split at h
  · rename_i hout
    refine ⟨hout, ?_⟩
    obtain ⟨⟨resps, conv⟩, hresp, rfl⟩ := map_eq_some_iff.1 h
    simp only [MemBackendConvertor.doResponse] at hresp
    cases hpend : s.conv.m_pendingRequests.find? i.reqId.getBaseId with
    | none =>
      simp [hpend] at hresp
    | some ptr =>
      cases hheap : s.conv.heap ptr with
      | none =>
        simp [hpend, hheap] at hresp
      | some req =>
        refine ⟨ptr, req, rfl, hheap, ?_⟩
        simp only [hpend, hheap, map_some] at hresp
        cases hdone : req.decrement.isDone with
        | false =>
          left
          simp only [hdone, Bool.false_eq_true, if_false,
            some.injEq, Prod.mk.injEq] at hresp
          obtain ⟨rfl, rfl⟩ := hresp
          simp [afterPart]
        | true =>
          right
          refine ⟨rfl, ?_⟩
          simp only [hdone, if_true] at hresp
          cases req with
          | custom r =>
            obtain ⟨rfl, rfl⟩ := hresp
            exact ⟨[], _, _, rfl, .inl ⟨.inr ⟨r, rfl⟩, rfl, rfl, rfl⟩⟩
          | mem r =>
            simp only [BaseReq.decrement, MemReq.decrement,
              MemBackendConvertor.respondMem] at hresp
            cases hdep : s.conv.m_dependentRequests.find?
                r.m_event.eventID_ with
            | none =>
              simp only [hdep, some.injEq, Prod.mk.injEq] at hresp
              obtain ⟨rfl, rfl⟩ := hresp
              exact ⟨[], _, _, rfl, .inl ⟨.inl hdep, rfl, rfl, rfl⟩⟩
            | some fs =>
              simp only [hdep] at hresp
              obtain ⟨⟨flushes, waiting⟩, hcomp, heq⟩ := map_eq_some_iff.1 hresp
              cases heq
              exact ⟨flushes, waiting, _, rfl, .inr ⟨fs, hdep, hcomp, rfl⟩⟩
  · cases h

end StepCases

section Loops

/-- The flushes that wait for an event, by the table of the convertor. -/
def flushesOf (dependent : OrderedMap Nat (List MemEvent)) (e : Nat) : List MemEvent :=
  (dependent.find? e).getD []

/-- The events that a flush still waits for after `e`; none if it is done. -/
def remaining (e : Nat) (dependsOn : Finset Nat) : Option (Finset Nat) :=
  if dependsOn.erase e = ∅ then none else some (dependsOn.erase e)

/-- Some queued event has the base address and the identifier. -/
def QueuedFor (heap : Nat → Option BaseReq) (base : Addr) (queue : List Nat) (id : Nat) : Prop :=
  ∃ ptr ∈ queue, ∃ r, heap ptr = some (.mem r) ∧ r.baseAddr = base ∧
    r.m_event.eventID_ = id

/-- The flushes that wait for an event are kept in the order of identifiers. -/
def FlushSorted (dependent : OrderedMap Nat (List MemEvent)) : Prop :=
  ∀ e, (flushesOf dependent e).Pairwise (fun f g => f.eventID_ < g.eventID_)

theorem memEventCmp_iff (f g : MemEvent) : memEventCmp f g = true ↔ f.eventID_ < g.eventID_ := by
  simp [memEventCmp]

theorem flushesOf_addDependent
    (ev : MemEvent) (id e : Nat) (dependent : OrderedMap Nat (List MemEvent)) :
    flushesOf (MemBackendConvertor.addDependent ev id dependent) e =
      if e = id then setInsert memEventCmp ev (flushesOf dependent id)
      else flushesOf dependent e := by
  unfold flushesOf MemBackendConvertor.addDependent
  split
  · rename_i hnone
    rw [OrderedMap.find?_insert]
    split <;> simp [hnone, setInsert]
  · rename_i fs hsome
    rw [OrderedMap.find?_insert]
    split <;> simp [hsome]

theorem findDependencies_spec {heap : Nat → Option BaseReq} {ev : MemEvent} {queue : List Nat}
    {deps deps' : Finset Nat} {d d' : OrderedMap Nat (List MemEvent)}
    (h : MemBackendConvertor.findDependencies heap ev queue deps d = some (deps', d'))
    (hsorted : FlushSorted d)
    (hfresh : ∀ e, ∀ g ∈ flushesOf d e, g.eventID_ = ev.eventID_ → g = ev) :
    (∀ x, x ∈ deps' ↔ x ∈ deps ∨ QueuedFor heap ev.baseAddr_ queue x) ∧
      (∀ e g, g ∈ flushesOf d' e ↔ g ∈ flushesOf d e ∨
        (g = ev ∧ QueuedFor heap ev.baseAddr_ queue e)) ∧ FlushSorted d' := by
  induction queue generalizing deps d with
  | nil =>
    obtain ⟨rfl, rfl⟩ : deps = deps' ∧ d = d' := by
      simpa [MemBackendConvertor.findDependencies] using h
    simpa [QueuedFor] using hsorted
  | cons it rest ih =>
    simp only [MemBackendConvertor.findDependencies] at h
    have hskip : (∀ r, heap it = some (.mem r) → r.baseAddr ≠ ev.baseAddr_) →
        ∀ x, QueuedFor heap ev.baseAddr_ (it :: rest) x ↔
          QueuedFor heap ev.baseAddr_ rest x := by
      intro hne x
      unfold QueuedFor
      simp only [mem_cons, exists_eq_or_imp, or_iff_right_iff_imp]
      rintro ⟨r, hr, hbase, -⟩
      exact absurd hbase (hne r hr)
    split at h
    · cases h
    · rename_i r hit
      simp only [hskip (by simp [hit])]
      exact ih h hsorted hfresh
    · rename_i mr hit
      split at h
      · rename_i hbase
        have hqueued : ∀ x, QueuedFor heap ev.baseAddr_ (it :: rest) x ↔
            mr.m_event.eventID_ = x ∨ QueuedFor heap ev.baseAddr_ rest x := by
          intro x
          unfold QueuedFor
          simp [hit, hbase]
        have hmem : ∀ e g,
            g ∈ flushesOf (MemBackendConvertor.addDependent ev mr.m_event.eventID_ d) e ↔
              g ∈ flushesOf d e ∨ (g = ev ∧ mr.m_event.eventID_ = e) := by
          intro e g
          rw [flushesOf_addDependent]
          split
          · rename_i he
            subst he
            rw [mem_setInsert_iff memEventCmp_iff (hfresh _)]
            tauto
          · rename_i he
            simp [Ne.symm he]
        obtain ⟨hdeps, hflushes, hsorted'⟩ := ih h
          (by
            intro e
            rw [flushesOf_addDependent]
            split
            · exact setInsert_pairwise memEventCmp_iff ev (hsorted _)
            · exact hsorted e)
          (by
            intro e g hg hid
            rcases (hmem e g).1 hg with hg | ⟨rfl, -⟩
            · exact hfresh e g hg hid
            · rfl)
        refine ⟨?_, ?_, hsorted'⟩
        · intro x
          rw [hdeps, hqueued, Finset.mem_insert]
          tauto
        · intro e g
          rw [hflushes, hqueued, hmem]
          tauto
      · rename_i hbase
        have hne : ∀ r, heap it = some (.mem r) → r.baseAddr ≠ ev.baseAddr_ := by
          intro r hr
          obtain rfl : mr = r := by simpa [hit] using hr
          exact hbase
        simp only [hskip hne]
        exact ih h hsorted hfresh

theorem completeFlushes_spec {e : Nat} {fs : List MemEvent} {w : OrderedMap Nat (Finset Nat)}
    (hsorted : fs.Pairwise (fun f g => f.eventID_ < g.eventID_))
    (hall : ∀ f ∈ fs, (w.find? f.eventID_).isSome = true) :
    ∃ w', MemBackendConvertor.completeFlushes e fs w =
        some ((fs.filter (fun f => ((w.find? f.eventID_).bind (remaining e)).isNone)).map
          (fun f => ⟨f.eventID_, f.flags_⟩), w') ∧ ∀ g, w'.find? g =
        if g ∈ fs.map MemEvent.eventID_ then (w.find? g).bind (remaining e)
        else w.find? g := by
  induction fs generalizing w with
  | nil =>
    exact ⟨w, rfl, by simp⟩
  | cons f rest ih =>
    obtain ⟨hf, hrest⟩ := pairwise_cons.1 hsorted
    obtain ⟨ds, hds⟩ := isSome_iff_exists.1 (hall f (by simp))
    have hne : ∀ g ∈ rest, g.eventID_ ≠ f.eventID_ := fun g hg => (hf g hg).ne'
    have hstep : ∀ w₁ : OrderedMap Nat (Finset Nat),
        w₁.find? f.eventID_ = remaining e ds →
        (∀ g, g ≠ f.eventID_ → w₁.find? g = w.find? g) →
        ∃ w', MemBackendConvertor.completeFlushes e rest w₁ =
            some ((rest.filter (fun f => ((w.find? f.eventID_).bind (remaining e)).isNone)).map
              (fun f => ⟨f.eventID_, f.flags_⟩), w') ∧
          ∀ g, w'.find? g =
            if g ∈ (f :: rest).map MemEvent.eventID_ then
              (w.find? g).bind (remaining e)
            else w.find? g := by
      intro w₁ hself hother
      obtain ⟨w', hw', hfind⟩ := ih (w := w₁) hrest (by
        intro g hg
        rw [hother _ (hne g hg)]
        exact hall g (by simp [hg]))
      refine ⟨w', ?_, ?_⟩
      · rw [hw']
        have hfilter : rest.filter (fun f => ((w₁.find? f.eventID_).bind (remaining e)).isNone) =
            rest.filter (fun f => ((w.find? f.eventID_).bind (remaining e)).isNone) := by
          apply filter_congr
          intro g hg
          rw [hother _ (hne g hg)]
        rw [hfilter]
      · intro g
        rw [hfind g]
        by_cases hg : g = f.eventID_
        · subst hg
          have hnot : f.eventID_ ∉ rest.map MemEvent.eventID_ := by
            intro hmem
            obtain ⟨g, hg, heq⟩ := List.mem_map.1 hmem
            exact hne g hg heq
          simp [hnot, hself, hds]
        · simp [hg, hother g hg]
    simp only [MemBackendConvertor.completeFlushes, hds]
    split
    · rename_i hempty
      have hrem : remaining e ds = none := by simp [remaining, hempty]
      obtain ⟨w', hw', hfind⟩ := hstep (w.erase f.eventID_)
        (by simp [hrem])
        (fun g hg => OrderedMap.find?_erase_of_ne w hg)
      exact ⟨w', by simp [hw', hds, hrem], hfind⟩
    · rename_i hnonempty
      have hrem : remaining e ds = some (ds.erase e) := by simp [remaining, hnonempty]
      obtain ⟨w', hw', hfind⟩ := hstep (w.insert f.eventID_ (ds.erase e))
        (by simp [hrem])
        (fun g hg => OrderedMap.find?_insert_of_ne w _ hg)
      exact ⟨w', by simp [hw', hds, hrem], hfind⟩

end Loops

end ConvertorRun

end SstElements.MemHierarchy
