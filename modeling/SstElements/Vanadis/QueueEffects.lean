import SstElements.Vanadis.QueueSteps

/-!
# The queue and its effects on the core

Whatever the queue does in a cycle keeps what holds in every state: it moves on from
the front, waits for what it has sent, and marks instructions as executed that it does
not hold any more.
-/

namespace SstElements.Vanadis

open Library Function List Option

universe u

variable {Op : Type u} {hw_threads : Nat}

namespace MemoryCore

variable {fenceType : Op → VanadisFenceType}
variable {m m' : MemoryCore Op hw_threads} {id : InsId hw_threads}

section MarkExecuted

theorem markExecuted_first_seq : (m.markExecuted id).first_seq = m.first_seq := by
  unfold markExecuted
  split <;> rfl

theorem markExecuted_lsq : (m.markExecuted id).lsq = m.lsq := by
  unfold markExecuted
  split <;> rfl

theorem markExecuted_errors : (m.markExecuted id).errors = m.errors := by
  unfold markExecuted
  split <;> rfl

theorem markExecuted_in_flight : (m.markExecuted id).in_flight = m.in_flight := by
  unfold markExecuted
  split <;> rfl

theorem markExecuted_pushed : (m.markExecuted id).pushed = m.pushed := by
  unfold markExecuted
  split <;> rfl

theorem markExecuted_sent : (m.markExecuted id).sent = m.sent := by
  unfold markExecuted
  split <;> rfl

theorem markExecuted_squashed : (m.markExecuted id).squashed = m.squashed := by
  unfold markExecuted
  split <;> rfl

theorem markExecuted_isa_options (thr : Fin hw_threads) :
    ((m.markExecuted id).core.threads thr).isa_options = (m.core.threads thr).isa_options := by
  unfold markExecuted
  split
  · by_cases hthr : thr = id.hw_thr
    · subst hthr
      simp only [VanadisComponent.setRob_threads, update_self]
    · simp only [VanadisComponent.setRob_threads, update_of_ne hthr]
  · rfl

theorem markExecuted_next_seq (thr : Fin hw_threads) :
    (m.markExecuted id).next_seq thr = m.next_seq thr := by
  rw [next_seq, markExecuted_first_seq, next_seq]
  unfold markExecuted
  split
  · by_cases hthr : thr = id.hw_thr
    · subst hthr
      simp only [VanadisComponent.setRob_threads, update_self, length_modify]
    · simp only [VanadisComponent.setRob_threads, update_of_ne hthr]
  · rfl

theorem lookup_markExecuted (id' : InsId hw_threads) :
    (m.markExecuted id).lookup id' =
      if id' = id then (m.lookup id').map VanadisInstruction.markExecuted
      else m.lookup id' := by
  unfold lookup
  rw [markExecuted_first_seq]
  unfold markExecuted
  split
  case isTrue hle =>
    split
    case isTrue hle' =>
      by_cases hthr : id'.hw_thr = id.hw_thr
      · rw [VanadisComponent.setRob_threads]
        simp only [hthr, update_self, getElem?_modify]
        by_cases heq : id' = id
        · subst heq
          rw [if_pos rfl]
          simp
        · have hseq : id.seq - m.first_seq id.hw_thr ≠ id'.seq - m.first_seq id.hw_thr := by
            intro hseq
            refine heq ?_
            cases id
            cases id'
            dsimp only at hthr hle hle' hseq
            subst hthr
            rw [InsId.mk.injEq]
            exact ⟨rfl, by omega⟩
          simp only [if_neg hseq, if_neg heq]
          cases (m.core.threads id.hw_thr).rob[id'.seq - m.first_seq id.hw_thr]? <;> rfl
      · have heq : id' ≠ id := fun heq => hthr (congrArg InsId.hw_thr heq)
        rw [if_neg heq, VanadisComponent.setRob_threads, update_of_ne hthr]
    case isFalse hle' =>
      have heq : id' ≠ id := by
        rintro rfl
        exact hle' hle
      rw [if_neg heq]
  case isFalse =>
    rw [map_none, ite_self]

theorem of_lookup_markExecuted {id' : InsId hw_threads} {x' : VanadisInstruction Op}
    (h : (m.markExecuted id).lookup id' = some x') :
    ∃ x, m.lookup id' = some x ∧ (x' = x ∨ id' = id ∧ x' = x.markExecuted) := by
  rw [lookup_markExecuted] at h
  split at h
  case isTrue heq =>
    obtain ⟨x, hx, rfl⟩ := map_eq_some_iff.1 h
    exact ⟨x, hx, .inr ⟨heq, rfl⟩⟩
  case isFalse => exact ⟨x', h, .inl rfl⟩

theorem extends_markExecuted : m.Extends (m.markExecuted id) where
  next := fun thr => (markExecuted_next_seq thr).ge
  holds := fun id' hid => .inl (markExecuted_lsq ▸ hid)
  lookup := fun id' x' hx' hmem hnot => by
    obtain ⟨x, hx, rfl | ⟨-, rfl⟩⟩ := of_lookup_markExecuted hx'
    · exact .inr ⟨x', hx, hmem, hnot⟩
    · exact .inr ⟨x, hx, hmem, hnot⟩
  pushed := fun id' hid => .inl (markExecuted_pushed ▸ hid)
  squashed := fun id' hid => markExecuted_squashed.symm ▸ hid
  errors := fun id' hid => markExecuted_errors.symm ▸ hid
  sent := fun req hreq => markExecuted_sent.symm ▸ hreq
  flight := fun req hreq => .inl (markExecuted_in_flight ▸ hreq)

theorem QueueSound.markExecuted (h : QueueSound fenceType m) (hfree : ¬m.lsq.Holds id) :
    QueueSound fenceType (m.markExecuted id) := by
  have hsame : ∀ id' x, m.lsq.Holds id' → m.lookup id' = some x →
      (m.markExecuted id).lookup id' = some x := by
    intro id' x hheld hx
    have hne : id' ≠ id := by
      rintro rfl
      exact hfree hheld
    rw [lookup_markExecuted, if_neg hne, hx]
  exact {
    ops_live := fun e he => by
      rw [markExecuted_lsq] at he
      obtain ⟨x, hx, hlive⟩ := h.ops_live e he
      exact ⟨x, hsame _ x (.inl ⟨e, he, rfl⟩) hx, hlive⟩
    loads_live := fun e he => by
      rw [markExecuted_lsq] at he
      obtain ⟨x, hx, hlive⟩ := h.loads_live e he
      exact ⟨x, hsame _ x (.inr (.inl ⟨e, he, rfl⟩)) hx, hlive⟩
    stores_live := fun e he => by
      rw [markExecuted_lsq] at he
      obtain ⟨x, hx, hlive⟩ := h.stores_live e he
      exact ⟨x, hsame _ x (.inr (.inr ⟨e, he, rfl⟩)) hx, hlive⟩
    loads_order := by
      rw [markExecuted_lsq]
      exact h.loads_order
    stores_order := by
      rw [markExecuted_lsq]
      exact h.stores_order
    ids_nodup := by
      rw [markExecuted_in_flight]
      exact h.ids_nodup
    ids_lt := by
      rw [markExecuted_in_flight, markExecuted_lsq]
      exact h.ids_lt
    reads := by
      rw [markExecuted_in_flight, markExecuted_lsq, markExecuted_squashed]
      exact h.reads
    writes := by
      rw [markExecuted_in_flight, markExecuted_lsq, markExecuted_squashed]
      exact h.writes
    dispatched := by
      rw [markExecuted_lsq, markExecuted_sent]
      exact h.dispatched
    accounted := by
      rw [markExecuted_pushed, markExecuted_squashed, markExecuted_lsq,
        markExecuted_errors, markExecuted_sent]
      exact h.accounted
    issued_pushed := fun id' x' hx' haccess hissued => by
      rw [markExecuted_pushed]
      obtain ⟨x, hx, rfl | ⟨-, rfl⟩⟩ := of_lookup_markExecuted hx'
      · exact h.issued_pushed id' x' hx haccess hissued
      · exact h.issued_pushed id' x hx haccess hissued
    pushed_live := fun id' hid => by
      rw [markExecuted_pushed] at hid
      obtain ⟨hlt, hlive⟩ := h.pushed_live id' hid
      rw [markExecuted_next_seq]
      refine ⟨hlt, fun x' hx' => ?_⟩
      obtain ⟨x, hx, rfl | ⟨-, rfl⟩⟩ := of_lookup_markExecuted hx'
      · exact hlive x' hx
      · exact hlive x hx }

theorem Sound.markExecuted {x : VanadisInstruction Op} (h : Sound fenceType m)
    (hx : m.lookup id = some x) (hissued : x.hasIssued = true) (hfree : ¬m.lsq.Holds id)
    (hfence : x.isFullFence fenceType = true → m.Settled id.hw_thr id.seq) :
    Sound fenceType (m.markExecuted id) where
  rob := by
    rw [show (fun thr => ((m.markExecuted id).core.threads thr).isa_options) =
      fun thr => (m.core.threads thr).isa_options from funext markExecuted_isa_options]
    refine h.rob.of_similar (fun id' y' hy' => ?_) fun id' y' hy' hmem hexec => ?_
    · obtain ⟨y, hy, rfl | ⟨-, rfl⟩⟩ := of_lookup_markExecuted hy'
      · exact ⟨y', hy, VanadisInstruction.Similar.refl y'⟩
      · exact ⟨y, hy, rfl, rfl, rfl⟩
    · obtain ⟨y, hy, rfl | ⟨rfl, rfl⟩⟩ := of_lookup_markExecuted hy'
      · exact h.rob.executed id' y' hy hmem hexec
      · rw [hx, Option.some.injEq] at hy
        rw [← hy]
        exact hissued
  queue := h.queue.markExecuted hfree
  fences := fun id' y' hy' hfull hexec => by
    obtain ⟨y, hy, rfl | ⟨rfl, rfl⟩⟩ := of_lookup_markExecuted hy'
    · exact (h.fences id' y' hy hfull hexec).extends extends_markExecuted
    · rw [hx, Option.some.injEq] at hy
      subst hy
      exact (hfence hfull).extends extends_markExecuted
  syscalls := fun id' y' hy' hsys => by
    have hold : ∃ y, m.lookup id' = some y ∧ y.isSyscall = true := by
      obtain ⟨y, hy, rfl | ⟨-, rfl⟩⟩ := of_lookup_markExecuted hy'
      · exact ⟨y', hy, hsys⟩
      · exact ⟨y, hy, hsys⟩
    obtain ⟨y, hy, hsys⟩ := hold
    rcases h.syscalls id' y hy hsys with hsettled | ⟨p, z, hthr, hseq, hz, hfull⟩
    · exact .inl (hsettled.extends extends_markExecuted)
    · refine .inr ⟨p, if p = id then z.markExecuted else z, hthr, hseq, ?_, ?_⟩
      · rw [lookup_markExecuted, hz]
        split <;> rfl
      · split <;> exact hfull

end MarkExecuted

section After

variable {lsq lsq' : VanadisBasicLoadStoreQueue hw_threads}
variable {effects effects' : List (LsqEffect hw_threads)}

theorem markExecuted_with_lsq :
    { m with lsq := lsq }.markExecuted id = { m.markExecuted id with lsq := lsq } := by
  unfold markExecuted
  split <;> rfl

theorem foldl_with_lsq :
    effects.foldl applyEffect { m with lsq := lsq } =
      { effects.foldl applyEffect m with lsq := lsq } := by
  induction effects generalizing m with
  | nil => rfl
  | cons effect effects ih =>
    rw [foldl_cons, foldl_cons, ← ih]
    congr 1
    cases effect with
    | send req => rfl
    | markExecuted ins => exact markExecuted_with_lsq
    | flagError ins => rfl
    | setReg thr kind reg value => rfl

theorem after_append :
    m.after lsq' (effects ++ effects') = (m.after lsq effects).after lsq' effects' := by
  rw [after, foldl_append]
  have hfold := @foldl_with_lsq Op hw_threads (effects.foldl applyEffect m) lsq effects'
  exact congrArg (fun n : MemoryCore Op hw_threads => { n with lsq := lsq' }) hfold.symm

theorem after_send (reqs : List (MemRequest hw_threads)) :
    m.after lsq (reqs.map LsqEffect.send) =
      { m with lsq := lsq, in_flight := m.in_flight ++ reqs, sent := m.sent ++ reqs } := by
  have hfold : ∀ (n : MemoryCore Op hw_threads),
      (reqs.map LsqEffect.send).foldl applyEffect n =
        { n with in_flight := n.in_flight ++ reqs, sent := n.sent ++ reqs } := by
    induction reqs with
    | nil =>
      intro n
      simp
    | cons req reqs ih =>
      intro n
      rw [map_cons, foldl_cons, ih]
      simp [applyEffect]
  rw [after, hfold]

theorem after_flagError (flagged : List (InsId hw_threads)) :
    m.after lsq (flagged.map LsqEffect.flagError) =
      { m with lsq := lsq, errors := flagged.reverse ++ m.errors } := by
  have hfold : ∀ (n : MemoryCore Op hw_threads),
      (flagged.map LsqEffect.flagError).foldl applyEffect n =
        { n with errors := flagged.reverse ++ n.errors } := by
    induction flagged with
    | nil =>
      intro n
      rfl
    | cons ins flagged ih =>
      intro n
      rw [map_cons, foldl_cons, ih]
      simp [applyEffect]
  rw [after, hfold]

theorem after_markExecuted (ins : InsId hw_threads) :
    m.after lsq [.markExecuted ins] = { m with lsq := lsq }.markExecuted ins :=
  markExecuted_with_lsq.symm

end After

theorem Sound.of_queue (h : Sound fenceType m) (hcore : m'.core = m.core)
    (hfirst : m'.first_seq = m.first_seq) (hext : m.Extends m') (hqueue : QueueSound fenceType m') :
    Sound fenceType m' := by
  have hlookup : m'.lookup = m.lookup := by
    funext id
    rw [lookup, lookup, hcore, hfirst]
  exact {
    rob := by
      rw [hcore, hlookup]
      exact h.rob
    queue := hqueue
    fences := fun id x hx hfence hexec => (h.fences id x (hlookup ▸ hx) hfence hexec).extends hext
    syscalls := fun id x hx hsys => by
      rw [hlookup]
      exact (h.syscalls id x (hlookup ▸ hx) hsys).imp (fun hsettled => hsettled.extends hext)
        fun hfence => hfence }

end MemoryCore

end SstElements.Vanadis
