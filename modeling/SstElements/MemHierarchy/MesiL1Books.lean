import SstElements.MemHierarchy.FlushOutcome
import SstElements.MemHierarchy.MshrReservation
import SstElements.MemHierarchy.OutgoingOrder

/-!
# The queues and the MSHR of an L1 coherence manager over whole runs

The outgoing queues and the MSHR have invariants of their own.  All handlers of
the manager use them through the same few functions, so the invariants hold in
every run of the manager.
-/

namespace SstElements.MemHierarchy

open Library Option CoherenceController

namespace MSHR

/-- The MSHR is one of the given capacity whose events carry their kinds, without these. -/
def Counts {ε : Type} (maxSize : Int) (m : MSHR ε) : Prop :=
  ∃ tagged, Accounted maxSize tagged ∧ tagged.map Tagged.event = m

theorem Counts.step {ε : Type} {maxSize : Int} {m t : MSHR ε} (h : Counts maxSize m)
    (call : SimTime × MSHROp ε) (hstep : m.step call = some t) :
    Counts maxSize t := by
  obtain ⟨tagged, hacc, rfl⟩ := h
  rw [taggedStep_map_event] at hstep
  obtain ⟨tagged', htagged, rfl⟩ := map_eq_some_iff.1 hstep
  exact ⟨tagged', hacc.step htagged, rfl⟩

end MSHR

namespace MESIL1

variable {P : ReplacementPolicy} {s t : MESIL1 P} {maxSize : Int}

theorem MshrNote.counts {m u : MSHR Nat} (hnote : MshrNote m u) (h : m.Counts maxSize) :
    u.Counts maxSize := by
  cases hnote with
  | addPendingRetry hcall => exact h.step (0, .addPendingRetry _) hcall
  | removePendingRetry hcall => exact h.step (0, .removePendingRetry _) hcall
  | setProfiled hcall => exact h.step (0, .setProfiled _) hcall
  | setInProgress hcall => exact h.step (0, .setInProgress _ _) hcall
  | insertWriteback addr downgrade now => exact h.step (now, .insertWriteback addr downgrade) rfl
  | insertEviction oldAddr newAddr now => exact h.step (now, .insertEviction oldAddr newAddr) rfl
  | removeEvictPointer hcall =>
    exact h.step (0, .removeEvictPointer _ _) (map_eq_some_iff.2 ⟨_, hcall, rfl⟩)

/--
The books of a manager: on both links what was sent and what waits are the
enqueued events in a proper order, and the MSHR counts its events.
-/
def Books (maxSize : Int) (s : MESIL1 P) : Prop :=
  Arranged s.enqueuedDown_ s.linkDown_ s.outgoingEventQueueDown_ ∧
    Arranged s.enqueuedUp_ s.linkUp_ s.outgoingEventQueueUp_ ∧ s.mshr_.Counts maxSize

instance : KeptBySends (Preserves (Books (P := P) maxSize)) where
  queueDown := fun _ resp h => ⟨h.1.add resp, h.2⟩
  queueUp := fun _ resp h => ⟨h.1, h.2.1.add resp, h.2.2⟩

instance : KeptByLines (Preserves (Books (P := P) maxSize)) where

instance : KeptByManagement (Preserves (Books (P := P) maxSize)) where
  note := fun _ _ hnote h => ⟨h.1, h.2.1, hnote.counts h.2.2⟩
  removeFront := fun _ _ addr hcall h => ⟨h.1, h.2.1, h.2.2.step (0, .removeFront addr) hcall⟩
  insertEvent := fun s p ev pos fwdReq _ _ h => ⟨h.1, h.2.1,
    h.2.2.step (s.simCycle, .insertEvent ev.baseAddr_ p pos fwdReq false) rfl⟩

theorem Books.handles {event : Nat} {ev : MemEvent} (hs : Books maxSize s)
    (h : Handles s t event ev) :
    Books maxSize t := by
  obtain ⟨s₁, inMSHR, b, s₂, hpres, hrun, hconc⟩ := h
  have h₁ : Books maxSize s₁ := by rcases hpres with ⟨-, rfl⟩ | ⟨-, rfl⟩ <;> exact hs
  have h₂ : Books maxSize s₂ :=
    processEvent_keeps (R := Preserves (Books maxSize)) hpres.heap b s₂ hrun h₁
  rcases hconc with rfl | rfl | ⟨_, rfl⟩ <;> exact h₂

theorem Books.step {op : L1Op} (hs : Books maxSize s) (h : s.step op = some t) :
    Books maxSize t := by
  cases op with
  | receive ev =>
    obtain ⟨⟨u, v⟩, hrun, rfl⟩ := map_eq_some_iff.1 h
    exact hs.handles (receiveEvent_handles u v hrun)
  | nack nackedEvent =>
    obtain ⟨⟨u, v⟩, hrun, rfl⟩ := map_eq_some_iff.1 h
    exact resendEvent_steps (R := Preserves (Books maxSize)) nackedEvent s u v hrun hs
  | replay event =>
    obtain ⟨⟨u, v⟩, hrun, rfl⟩ := map_eq_some_iff.1 h
    obtain ⟨ev, -, hhandles⟩ := replayEvent_handles u v hrun
    exact hs.handles hhandles
  | clock simCycle =>
    cases h
    exact ⟨hs.1.send _ _ _, hs.2.1.send _ _ _, hs.2.2⟩
  | updateTimestamp timestamp simCycle =>
    cases h
    exact hs

/--
In every run of a manager with an MSHR of capacity at least one, no event is
lost, sent twice, sent too early or moved ahead of an earlier one of its
address on either link, and the MSHR counts its events, which never exceed its
capacity and are filed under their addresses.
-/
theorem books_of_run {cfg : MESIL1Config} {numLines associativity : Nat} {hash : Addr → UInt64}
    {sliceSize sliceStep : Addr} {mshrSize : Int} {ops : List L1Op}
    (hcap : 1 ≤ mshrSize)
    (hstart : start P cfg numLines associativity hash sliceSize sliceStep mshrSize = some s)
    (hrun : runOps step s ops = some t) :
    Arranged t.enqueuedDown_ t.linkDown_ t.outgoingEventQueueDown_ ∧
      Arranged t.enqueuedUp_ t.linkUp_ t.outgoingEventQueueUp_ ∧
      t.mshr_.getSize = t.mshr_.eventCount ∧ t.mshr_.getSize ≤ mshrSize ∧ t.Filed := by
  have hs : Books mshrSize s := by
    obtain ⟨c, -, rfl⟩ := map_eq_some_iff.1 hstart
    exact ⟨arranged_nil, arranged_nil, MSHR.new mshrSize, MSHR.accounted_new hcap, rfl⟩
  have hfiled : t.Filed :=
    runOps_invariant (fun _ _ _ h hstep => h.step hstep) (filed_start hstart) hrun
  obtain ⟨hdown, hup, tagged, hacc, htagged⟩ :=
    runOps_invariant (fun _ _ _ h hstep => Books.step h hstep) hs hrun
  refine ⟨hdown, hup, ?_, ?_, hfiled⟩
  · rw [← htagged, MSHR.eventCount, MSHR.count_map]
    exact hacc.size_eq
  · rw [← htagged]
    exact hacc.size_le

/-- An MSHR for sixteen events after a flush was sent down. -/
theorem books_of_run_flush :
    ∃ s t : MESIL1 LRU, start LRU smallConfig 1 1 (fun _ => 0) 0 0 16 = some s ∧
      runOps step s flushOps = some t ∧ t.mshr_.getSize = t.mshr_.eventCount := by
  obtain ⟨s, t, -, hstart, hrun, -⟩ := smallRun_exists true
  exact ⟨s, t, hstart, hrun, (books_of_run (by decide) hstart hrun).2.2.1⟩

end MESIL1

end SstElements.MemHierarchy
