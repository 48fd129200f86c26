import SstElements.CramSim.TxnScheduler
import SstElements.Library.Overwrites

/-!
# The queues of the transaction scheduler

A transaction is pushed to the queue of its channel and leaves it when it is selected.
-/

namespace SstElements.CramSim

open Library Function Option

variable {k : Config}

/-- How often a transaction is in the queues of the channels. -/
def queueCount (k : Config) (queues : Nat → List Nat) (id : Nat) : Nat :=
  ∑ channel ∈ Finset.range k.geometry.numChannels, (queues channel).count id

variable {queues : Nat → List Nat}

theorem queueCount_update {channel : Nat} {queue : List Nat} {id : Nat}
    (hchannel : channel < k.geometry.numChannels) :
    queueCount k (update queues channel queue) id + (queues channel).count id =
      queueCount k queues id + queue.count id :=
  sum_range_update queues (·.count id) queue hchannel

variable {queues : Nat → List Nat} {channel id : Nat}

theorem queueCount_append (hchannel : channel < k.geometry.numChannels) (other : Nat) :
    queueCount k (update queues channel (queues channel ++ [id])) other =
      queueCount k queues other + if other = id then 1 else 0 := by
  have hupdate := @queueCount_update k queues channel (queues channel ++ [id]) other hchannel
  rw [count_concat] at hupdate
  omega

theorem queueCount_filter (hchannel : channel < k.geometry.numChannels) (hmem : id ∈ queues channel)
    (hone : queueCount k queues id ≤ 1) (other : Nat) :
    queueCount k queues other =
      queueCount k (update queues channel ((queues channel).filter (· ≠ id))) other +
        if other = id then 1 else 0 := by
  have hupdate := @queueCount_update k queues channel ((queues channel).filter (· ≠ id)) other
    hchannel
  by_cases heq : other = id
  · have hpos : 0 < (queues channel).count id := List.count_pos_iff.2 hmem
    have hnone : ((queues channel).filter (· ≠ id)).count id = 0 := List.count_eq_zero.2 (by simp)
    rw [heq] at hupdate ⊢
    rw [if_pos rfl]
    omega
  · have hsame : ((queues channel).filter (· ≠ id)).count other = (queues channel).count other :=
      List.count_filter (by simpa using heq)
    rw [if_neg heq]
    omega

namespace TxnScheduler

/-- How often a transaction is in the queues of the scheduler. -/
def queued (k : Config) (s : TxnScheduler) (id : Nat) : Nat :=
  queueCount k s.txnQ id + queueCount k s.txnReadQ id + queueCount k s.txnWriteQ id

def Holds (s : TxnScheduler) (channel id : Nat) : Prop :=
  id ∈ s.txnQ channel ∨ id ∈ s.txnReadQ channel ∨ id ∈ s.txnWriteQ channel

/-- The transactions that wait for the converter. -/
def waiting (k : Config) (s : TxnScheduler) : List Nat :=
  (List.range k.geometry.numChannels).flatMap fun channel =>
    s.txnQ channel ++ s.txnReadQ channel ++ s.txnWriteQ channel

theorem mem_waiting_iff {s : TxnScheduler} {id : Nat} :
    id ∈ s.waiting k ↔ ∃ channel < k.geometry.numChannels, s.Holds channel id := by
  simp [waiting, Holds]

theorem queued_pos_iff {s : TxnScheduler} {id : Nat} :
    0 < s.queued k id ↔ ∃ channel < k.geometry.numChannels, s.Holds channel id := by
  have hpos : ∀ queues : Nat → List Nat, 0 < queueCount k queues id ↔
      ∃ channel < k.geometry.numChannels, id ∈ queues channel := fun _ => sum_count_pos_iff
  rw [queued, Nat.add_pos_iff_pos_or_pos, Nat.add_pos_iff_pos_or_pos, hpos, hpos, hpos]
  constructor
  · rintro ((⟨channel, hlt, h⟩ | ⟨channel, hlt, h⟩) | ⟨channel, hlt, h⟩)
    · exact ⟨channel, hlt, .inl h⟩
    · exact ⟨channel, hlt, .inr (.inl h)⟩
    · exact ⟨channel, hlt, .inr (.inr h)⟩
  · rintro ⟨channel, hlt, h | h | h⟩
    · exact .inl (.inl ⟨channel, hlt, h⟩)
    · exact .inl (.inr ⟨channel, hlt, h⟩)
    · exact .inr ⟨channel, hlt, h⟩

/-- A transaction goes to the end of one queue of its channel. -/
structure Pushed (k : Config) (s : TxnScheduler) (channel id : Nat) (s' : TxnScheduler) : Prop where
  queued : ∀ other, s'.queued k other = s.queued k other + if other = id then 1 else 0
  holds : ∀ channel' other, s'.Holds channel' other →
    s.Holds channel' other ∨ (channel' = channel ∧ other = id)

theorem pushed_of_push {txns : Nat → Transaction} {s s' : TxnScheduler} {id : Nat}
    (hchannel : (txns id).hashedAddr.channel < k.geometry.numChannels)
    (h : s.push k txns id = some s') :
    Pushed k s (txns id).hashedAddr.channel id s' := by
  have hmem : ∀ (queues : Nat → List Nat) channel' other,
      other ∈ update queues (txns id).hashedAddr.channel
        (queues (txns id).hashedAddr.channel ++ [id]) channel' →
      other ∈ queues channel' ∨ (channel' = (txns id).hashedAddr.channel ∧ other = id) := by
    intro queues channel' other hother
    by_cases heq : channel' = (txns id).hashedAddr.channel
    · rw [heq, update_self, List.mem_append, List.mem_singleton] at hother
      exact hother.imp (by rw [heq]; exact fun h => h) fun h => ⟨heq, h⟩
    · rw [update_of_ne heq] at hother
      exact .inl hother
  unfold push at h
  dsimp only at h
  -- one of the three queues of the channel grows
  split_ifs at h <;> obtain ⟨q, ⟨⟩, rfl⟩ := map_eq_some_iff.1 h
  all_goals
    refine ⟨fun other => ?_, fun channel' other hother => ?_⟩
    · simp only [queued, queueCount_append hchannel]
      omega
    · have htxn := hmem s.txnQ channel' other
      have hread := hmem s.txnReadQ channel' other
      have hwrite := hmem s.txnWriteQ channel' other
      simp only [Holds] at hother ⊢
      tauto

section Selection

variable {txns : Nat → Transaction} {token : HashedAddress → Nat} {bankInfo : Nat → BankRow}
variable {s : TxnScheduler} {channel : Nat}
variable {queue : List Nat} {id : Nat}

theorem mem_of_firstReady {found : Option Nat}
    (h : s.firstReady k txns token bankInfo channel queue found = some id) :
    id ∈ queue ∨ found = some id := by
  induction queue generalizing found with
  | nil =>
    exact .inr h
  | cons head rest ih =>
    unfold firstReady at h
    dsimp only at h
    split_ifs at h
    · exact .inl (List.mem_cons.2 (.inl (some.inj h).symm))
    · rcases ih h with hmem | hfound
      · exact .inl (List.mem_cons_of_mem _ hmem)
      · exact .inl (List.mem_cons.2 (.inl (some.inj hfound).symm))
    · exact (ih h).imp_left (List.mem_cons_of_mem _)

theorem mem_of_getNextTxn (h : s.getNextTxn k txns token bankInfo queue channel = some id) :
    id ∈ queue := by
  unfold getNextTxn at h
  split at h
  · exact List.mem_of_head? (filter_eq_some_iff.1 h).1
  · exact (mem_of_firstReady h).resolve_right (by simp)

/-- A transaction whose bank has room leaves the queues. -/
structure Taken (k : Config) (txns : Nat → Transaction) (token : HashedAddress → Nat)
    (s : TxnScheduler) (channel id : Nat) (s' : TxnScheduler) : Prop where
  held : s.Holds channel id
  token : 3 ≤ token (txns id).hashedAddr
  queued : ∀ other, s.queued k other = s'.queued k other + if other = id then 1 else 0
  holds : ∀ channel' other, s'.Holds channel' other → s.Holds channel' other

theorem mem_of_takeFrom {channel' other : Nat}
    (h : other ∈ update queues channel ((queues channel).filter (· ≠ id)) channel') :
    other ∈ queues channel' := by
  by_cases heq : channel' = channel
  · rw [heq, update_self] at h
    rw [heq]
    exact List.mem_of_mem_filter h
  · rwa [update_of_ne heq] at h

theorem select_cases (hchannel : channel < k.geometry.numChannels)
    (hone : ∀ id, s.queued k id ≤ 1) :
    ((s.select k txns token bankInfo channel).1 = none ∧
      ∃ flush, (s.select k txns token bankInfo channel).2 = { s with flushWriteQueue := flush }) ∨
    ∃ id, (s.select k txns token bankInfo channel).1 = some id ∧
      Taken k txns token s channel id (s.select k txns token bankInfo channel).2 := by
  have htxn : ∀ flush id, id ∈ s.txnQ channel → 3 ≤ token (txns id).hashedAddr →
      Taken k txns token s channel id { s with
        flushWriteQueue := flush
        txnQ := update s.txnQ channel ((s.txnQ channel).filter (· ≠ id)) } := by
    intro flush id hmem htoken
    have hle := hone id
    have hcount := queueCount_filter hchannel hmem (by unfold queued at hle; omega)
    refine ⟨.inl hmem, htoken, fun other => ?_, fun channel' other hother => ?_⟩
    · have := hcount other
      simp only [queued]
      omega
    · exact hother.imp_left mem_of_takeFrom
  have hread : ∀ flush id, id ∈ s.txnReadQ channel → 3 ≤ token (txns id).hashedAddr →
      Taken k txns token s channel id { s with
        flushWriteQueue := flush
        txnReadQ := update s.txnReadQ channel ((s.txnReadQ channel).filter (· ≠ id)) } := by
    intro flush id hmem htoken
    have hle := hone id
    have hcount := queueCount_filter hchannel hmem (by unfold queued at hle; omega)
    refine ⟨.inr (.inl hmem), htoken, fun other => ?_, fun channel' other hother => ?_⟩
    · have := hcount other
      simp only [queued]
      omega
    · exact hother.imp_right (Or.imp_left mem_of_takeFrom)
  have hwrite : ∀ flush id, id ∈ s.txnWriteQ channel → 3 ≤ token (txns id).hashedAddr →
      Taken k txns token s channel id { s with
        flushWriteQueue := flush
        txnWriteQ := update s.txnWriteQ channel ((s.txnWriteQ channel).filter (· ≠ id)) } := by
    intro flush id hmem htoken
    have hle := hone id
    have hcount := queueCount_filter hchannel hmem (by unfold queued at hle; omega)
    refine ⟨.inr (.inr hmem), htoken, fun other => ?_, fun channel' other hother => ?_⟩
    · have := hcount other
      simp only [queued]
      omega
    · exact hother.imp_right (Or.imp_right mem_of_takeFrom)
  unfold select
  dsimp only
  split_ifs with hplain hflush
  · cases hnext : s.getNextTxn k txns token bankInfo (s.txnQ channel) channel with
    | none =>
      exact .inl ⟨rfl, s.flushWriteQueue, rfl⟩
    | some id =>
      dsimp only
      split_ifs with hready
      · exact .inr ⟨id, rfl, htxn s.flushWriteQueue id (mem_of_getNextTxn hnext) hready⟩
      · exact .inl ⟨rfl, s.flushWriteQueue, rfl⟩
  · split
    next _ id hnext =>
      split_ifs with hready
      · exact .inr ⟨id, rfl, hwrite _ id (mem_of_getNextTxn hnext) hready⟩
      · exact .inl ⟨rfl, _, rfl⟩
    next id _ hnext =>
      split_ifs with hready
      · exact .inr ⟨id, rfl, hread _ id (mem_of_getNextTxn hnext) hready⟩
      · exact .inl ⟨rfl, _, rfl⟩
    next =>
      exact .inl ⟨rfl, _, rfl⟩
  · split
    next _ id hnext =>
      split_ifs with hready
      · exact .inr ⟨id, rfl, hread _ id (mem_of_getNextTxn hnext) hready⟩
      · exact .inl ⟨rfl, _, rfl⟩
    next id _ hnext =>
      split_ifs with hready
      · exact .inr ⟨id, rfl, hwrite _ id (mem_of_getNextTxn hnext) hready⟩
      · exact .inl ⟨rfl, _, rfl⟩
    next =>
      exact .inl ⟨rfl, _, rfl⟩

/-- What a pass over channels selects: at most one transaction of each. -/
structure Selected (k : Config) (txns : Nat → Transaction) (token : HashedAddress → Nat)
    (s : TxnScheduler) (channels : List Nat) (ids : List Nat) (s' : TxnScheduler) : Prop where
  held : ∀ id ∈ ids, ∃ channel ∈ channels, s.Holds channel id
  channels : (ids.map fun id => (txns id).hashedAddr.channel).Sublist channels
  token : ∀ id ∈ ids, 3 ≤ token (txns id).hashedAddr
  queued : ∀ other, s.queued k other = s'.queued k other + ids.count other
  holds : ∀ channel other, s'.Holds channel other → s.Holds channel other

theorem selected_of_foldl {channels : List Nat}
    (hchannels : ∀ channel ∈ channels, channel < k.geometry.numChannels)
    (hone : ∀ id, s.queued k id ≤ 1)
    (hplace : ∀ channel id, s.Holds channel id → (txns id).hashedAddr.channel = channel)
    (done : List Nat) :
    ∃ ids, (channels.foldl (fun r channel =>
        let selected := r.2.select k txns token bankInfo channel
        (r.1 ++ selected.1.toList, selected.2)) (done, s)).1 = done ++ ids ∧
      Selected k txns token s channels ids (channels.foldl (fun r channel =>
        let selected := r.2.select k txns token bankInfo channel
        (r.1 ++ selected.1.toList, selected.2)) (done, s)).2 := by
  induction channels generalizing s done with
  | nil =>
    exact ⟨[], (List.append_nil _).symm, by simp, .refl _, by simp, fun _ => rfl,
      fun _ _ h => h⟩
  | cons channel channels ih =>
    have hrest := fun c hc => hchannels c (List.mem_cons_of_mem channel hc)
    rw [List.foldl_cons]
    dsimp only
    rcases @select_cases k txns token bankInfo s channel (hchannels channel List.mem_cons_self)
      hone with ⟨hnone, flush, hsame⟩ | ⟨id, hsome, htaken⟩
    · rw [hnone, hsame, toList_none, List.append_nil]
      obtain ⟨ids, hids, hsel⟩ := @ih { s with flushWriteQueue := flush } hrest hone hplace done
      exact ⟨ids, hids, fun x hx => (hsel.held x hx).imp fun c hc =>
        ⟨List.mem_cons_of_mem _ hc.1, hc.2⟩, hsel.channels.cons _, hsel.token, hsel.queued,
        hsel.holds⟩
    · rw [hsome, toList_some]
      obtain ⟨ids, hids, hsel⟩ := @ih (s.select k txns token bankInfo channel).2 hrest
        (fun other => by have := htaken.queued other; have := hone other; omega)
        (fun c other hother => hplace c other (htaken.holds c other hother)) (done ++ [id])
      refine ⟨id :: ids, by rw [hids, List.append_assoc]; rfl, ?_, ?_, ?_, fun other => ?_,
        fun c other hother => htaken.holds c other (hsel.holds c other hother)⟩
      · intro x hx
        rcases List.mem_cons.1 hx with rfl | hx
        · exact ⟨channel, List.mem_cons_self, htaken.held⟩
        · obtain ⟨c, hc, hheld⟩ := hsel.held x hx
          exact ⟨c, List.mem_cons_of_mem _ hc, htaken.holds c x hheld⟩
      · rw [List.map_cons, hplace channel id htaken.held]
        exact hsel.channels.cons_cons _
      · intro x hx
        rcases List.mem_cons.1 hx with rfl | hx
        · exact htaken.token
        · exact hsel.token x hx
      · have hrest := hsel.queued other
        rw [htaken.queued, count_first]
        dsimp only at hrest ⊢
        omega

theorem selected_of_run (hone : ∀ id, s.queued k id ≤ 1)
    (hplace : ∀ channel id, s.Holds channel id → (txns id).hashedAddr.channel = channel) :
    Selected k txns token s (List.range k.geometry.numChannels) (s.run k txns token bankInfo).1
      (s.run k txns token bankInfo).2 := by
  obtain ⟨ids, hids, hsel⟩ := @selected_of_foldl k txns token bankInfo s
    (List.range k.geometry.numChannels) (fun _ => List.mem_range.1) hone hplace []
  unfold run
  rw [hids]
  exact hsel

end Selection

end TxnScheduler

end SstElements.CramSim
