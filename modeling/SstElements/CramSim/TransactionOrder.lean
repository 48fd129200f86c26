import SstElements.CramSim.TransactionAnswers

/-!
# The order of transactions

A channel takes the first transaction that is ready, with a hit on an open row before any
other.  The scheduler does so where it finds such a hit or one ready transaction at most.
-/

namespace SstElements.CramSim.TxnScheduler

open List Option

section Lists

variable {queue : List Nat} {x : Nat}

theorem mem_takeWhile_iff {f : Nat → Nat} {bound : Nat} (h : queue.Pairwise (f · < f ·)) :
    x ∈ queue.takeWhile (f · < bound) ↔ x ∈ queue ∧ f x < bound := by
  induction h with
  | nil => simp
  | @cons head rest hlt _ ih =>
    by_cases hhead : f head < bound
    · simp only [takeWhile_cons, hhead, decide_true, if_true, mem_cons, ih]
      constructor
      · rintro (rfl | h)
        · exact ⟨.inl rfl, hhead⟩
        · exact ⟨.inr h.1, h.2⟩
      · rintro ⟨rfl | h, hx⟩
        · exact .inl rfl
        · exact .inr ⟨h, hx⟩
    · simp only [takeWhile_cons, hhead, decide_false, mem_cons]
      refine iff_of_false (by simp) ?_
      rintro ⟨rfl | h, hx⟩
      · exact hhead hx
      · exact hhead ((hlt x h).trans hx)

theorem getLast?_eq_head?_iff (h : queue.Nodup) :
    queue.getLast? = queue.head? ↔ queue.length ≤ 1 := by
  cases h with
  | nil => simp
  | @cons head rest hne _ =>
    cases hlast : rest.getLast? with
    | none => simp [getLast?_eq_none_iff.1 hlast]
    | some last =>
      have hmem := mem_of_getLast? hlast
      have hpos := length_pos_of_mem hmem
      simp only [getLast?_cons, hlast, head?_cons, length_cons]
      refine iff_of_false (fun heq => hne _ hmem (some.inj heq).symm) (by omega)

theorem findSome?_eq_bind_find? {f : List Nat → Option Nat} {p : List Nat → Bool}
    (h : ∀ queue, (f queue).isSome = p queue) (queues : List (List Nat)) :
    queues.findSome? f = (queues.find? p).bind f := by
  induction queues with
  | nil => rfl
  | cons queue rest ih =>
    rw [findSome?_cons, find?_cons, ← h queue]
    cases hfirst : f queue with
    | none => exact ih
    | some id => exact hfirst.symm

theorem isSome_or_find? {p hit : Nat → Bool} {last : Option Nat}
    (h : last = none ↔ queue.filter p = []) :
    (((queue.filter p).find? hit).or last).isSome = queue.any p := by
  rw [Bool.eq_iff_iff, List.any_eq_true, isSome_or, Bool.or_eq_true, find?_isSome]
  constructor
  · rintro (⟨x, hx, -⟩ | hlast)
    · exact ⟨x, mem_filter.1 hx⟩
    · obtain ⟨x, hx⟩ := exists_mem_of_ne_nil _ (mt h.2 (isSome_iff_ne_none.1 hlast))
      exact ⟨x, mem_filter.1 hx⟩
  · rintro ⟨x, hx, hp⟩
    exact .inr (isSome_iff_ne_none.2 (mt h.1 (ne_nil_of_mem (mem_filter.2 ⟨hx, hp⟩))))

end Lists

variable (k : Config) (txns : Nat → Transaction) (token : HashedAddress → Nat)
variable (bankInfo : Nat → BankRow) (s : TxnScheduler) (channel : Nat)

def issuable (id : Nat) : Bool :=
  3 ≤ token (txns id).hashedAddr && !s.hasDependancy k txns id channel

def hitsRow (id : Nat) : Bool :=
  (bankInfo (txns id).hashedAddr.bankId).isRowOpen &&
    (bankInfo (txns id).hashedAddr.bankId).openRowNum = (txns id).hashedAddr.row

/-- What a policy should choose: the oldest transaction that hits a row, or else the oldest
one that is issuable; or the oldest one of all. -/
def choice (queue : List Nat) : Option Nat :=
  let ready := queue.filter (s.issuable k txns token channel)
  match k.txnSchedulingPolicy with
  | .FCFS => queue.head?.filter (s.issuable k txns token channel)
  | .FRFCFS => (ready.find? (hitsRow txns bankInfo)).or ready.head?

/-- The queues of a channel, the one whose turn it is first. -/
def turns : List (List Nat) :=
  if !k.isReadFirstScheduling then [s.txnQ channel]
  else if s.chooseFlush k channel then [s.txnWriteQ channel, s.txnReadQ channel]
  else [s.txnReadQ channel, s.txnWriteQ channel]

/-- Sequence numbers increase in every queue, reads and writes are apart, and the place of
an address is a function of the address. -/
structure Arrived : Prop where
  sorted : ∀ queue ∈ s.turns k channel, queue.Pairwise fun a b => (txns a).seqNum < (txns b).seqNum
  reads : k.isReadFirstScheduling → ∀ id ∈ s.txnReadQ channel, (txns id).isRead
  writes : k.isReadFirstScheduling → ∀ id ∈ s.txnWriteQ channel, (txns id).isWrite
  hashed : ∀ a b, (txns a).addr = (txns b).addr → (txns a).hashedAddr = (txns b).hashedAddr

/-- What a channel hands to the converter: no older transaction to its address waits if one
of them is a write, it is the choice of the policy, and the turn of the queues does not
depend on other channels. -/
structure Schedules : Prop where
  ordered : ∀ id, (s.select k txns token bankInfo channel).1 = some id →
    ∀ queue ∈ s.turns k channel, ∀ other ∈ queue, (txns other).addr = (txns id).addr →
      (txns other).isWrite ∨ (txns id).isWrite → (txns id).seqNum ≤ (txns other).seqNum
  policy : (s.select k txns token bankInfo channel).1 =
    (s.turns k channel).findSome? (s.choice k txns token bankInfo channel)
  own : k.isReadFirstScheduling → ∀ flush,
    { s with flushWriteQueue := flush }.chooseFlush k channel = s.chooseFlush k channel

/-- Under FRFCFS the first queue with an issuable transaction has one that hits a row, or has
one only. -/
def FirstReady : Prop :=
  k.txnSchedulingPolicy = .FRFCFS →
    ∀ queue ∈ (s.turns k channel).find? (·.any (s.issuable k txns token channel)),
      (queue.filter (s.issuable k txns token channel)).any (hitsRow txns bankInfo) ∨
        (queue.filter (s.issuable k txns token channel)).length ≤ 1

/-- The waiting reads and writes decide which queue it is. -/
def Decided : Prop :=
  k.isReadFirstScheduling → k.maxNumPendingWrite ≤ (s.txnWriteQ channel).length ∨
    s.txnReadQ channel = [] ∨ (s.txnWriteQ channel).length < k.minNumPendingWrite

variable {k txns token bankInfo s channel}
variable {queue : List Nat} {id other : Nat}

theorem firstReady_eq (found : Option Nat) :
    s.firstReady k txns token bankInfo channel queue found =
      ((queue.filter (s.issuable k txns token channel)).find? (hitsRow txns bankInfo)).or
        ((queue.filter (s.issuable k txns token channel)).getLast?.or found) := by
  induction queue generalizing found with
  | nil => rfl
  | cons head rest ih =>
    rw [firstReady]
    by_cases hready : s.issuable k txns token channel head = true
    · rw [filter_cons_of_pos hready, find?_cons, getLast?_cons]
      refine (if_pos hready).trans ?_
      cases hhit : hitsRow txns bankInfo head with
      | true => exact if_pos hhit
      | false =>
        refine (if_neg (by rw [← Bool.not_eq_true] at hhit; exact hhit)).trans ?_
        rw [ih]
        cases (rest.filter (s.issuable k txns token channel)).getLast? <;> rfl
    · rw [filter_cons_of_neg hready]
      exact (if_neg hready).trans (ih found)

theorem getNextTxn_eq (h : k.txnSchedulingPolicy = .FRFCFS) :
    s.getNextTxn k txns token bankInfo queue channel =
      ((queue.filter (s.issuable k txns token channel)).find? (hitsRow txns bankInfo)).or
        (queue.filter (s.issuable k txns token channel)).getLast? := by
  rw [getNextTxn, h]
  exact (firstReady_eq none).trans (by rw [or_none])

theorem issuable_of_getNextTxn (h : s.getNextTxn k txns token bankInfo queue channel = some id) :
    s.issuable k txns token channel id = true := by
  cases hpolicy : k.txnSchedulingPolicy with
  | FCFS =>
    rw [getNextTxn, hpolicy] at h
    exact (filter_eq_some_iff.1 h).2
  | FRFCFS =>
    rw [getNextTxn_eq hpolicy, or_eq_some_iff] at h
    have hmem : id ∈ queue.filter (s.issuable k txns token channel) := by
      rcases h with h | ⟨-, h⟩
      · exact mem_of_find?_eq_some h
      · exact mem_of_getLast? h
    exact (mem_filter.1 hmem).2

theorem getNextTxn_flush (flush : Bool) :
    { s with flushWriteQueue := flush }.getNextTxn k txns token bankInfo queue channel =
      s.getNextTxn k txns token bankInfo queue channel := by
  cases hpolicy : k.txnSchedulingPolicy with
  | FCFS =>
    rw [getNextTxn, getNextTxn, hpolicy]
    rfl
  | FRFCFS =>
    rw [getNextTxn_eq hpolicy, getNextTxn_eq hpolicy]
    rfl

theorem select_fst :
    (s.select k txns token bankInfo channel).1 =
      (s.turns k channel).findSome? (s.getNextTxn k txns token bankInfo · channel) := by
  have htake (queue : List Nat) (id : Nat) (a b : TxnScheduler)
      (h : s.getNextTxn k txns token bankInfo queue channel = some id) :
      (if 3 ≤ token (txns id).hashedAddr then (some id, a) else (none, b)).1 = some id := by
    have hready := issuable_of_getNextTxn h
    rw [issuable, Bool.and_eq_true, decide_eq_true_eq] at hready
    rw [if_pos hready.1]
  unfold select turns
  simp only [getNextTxn_flush]
  split
  case isTrue =>
    cases hnext : s.getNextTxn k txns token bankInfo (s.txnQ channel) channel with
    | none => simp [hnext]
    | some id => simpa [hnext] using htake _ id _ _ hnext
  case isFalse =>
    cases hwrites : s.getNextTxn k txns token bankInfo (s.txnWriteQ channel) channel <;>
      cases hreads : s.getNextTxn k txns token bankInfo (s.txnReadQ channel) channel <;>
        cases s.chooseFlush k channel <;>
          simp [hwrites, hreads] <;>
            first
            | exact htake _ _ _ _ hwrites
            | exact htake _ _ _ _ hreads

/-- The choice of the policy is made exactly in queues that have a hit or one ready
transaction at most. -/
theorem policy_iff (h : Arrived k txns s channel) :
    (s.select k txns token bankInfo channel).1 =
        (s.turns k channel).findSome? (s.choice k txns token bankInfo channel) ↔
      FirstReady k txns token bankInfo s channel := by
  rw [select_fst]
  cases hpolicy : k.txnSchedulingPolicy with
  | FCFS =>
    refine iff_of_true ?_ fun hfr => absurd (hpolicy.symm.trans hfr) nofun
    congr 1
    funext queue
    rw [getNextTxn, choice, hpolicy]
    rfl
  | FRFCFS =>
    have hchoice (queue : List Nat) : s.choice k txns token bankInfo channel queue =
        ((queue.filter (s.issuable k txns token channel)).find? (hitsRow txns bankInfo)).or
          (queue.filter (s.issuable k txns token channel)).head? := by
      rw [choice, hpolicy]
    have hnext (queue : List Nat) :
        (s.getNextTxn k txns token bankInfo queue channel).isSome =
          queue.any (s.issuable k txns token channel) := by
      rw [getNextTxn_eq hpolicy]
      exact isSome_or_find? getLast?_eq_none_iff
    have hchosen (queue : List Nat) : (s.choice k txns token bankInfo channel queue).isSome =
        queue.any (s.issuable k txns token channel) := by
      rw [hchoice]
      exact isSome_or_find? head?_eq_none_iff
    rw [findSome?_eq_bind_find? hnext, findSome?_eq_bind_find? hchosen]
    unfold FirstReady
    simp only [hpolicy, forall_const]
    cases hturn : (s.turns k channel).find? (·.any (s.issuable k txns token channel)) with
    | none => simp
    | some queue =>
      have hnodup : queue.Nodup := by
        refine (h.sorted queue (mem_of_find?_eq_some hturn)).imp ?_
        rintro a _ hlt rfl
        exact lt_irrefl _ hlt
      have hone := getLast?_eq_head?_iff (hnodup.filter (s.issuable k txns token channel))
      simp only [bind_some, hchoice, getNextTxn_eq hpolicy, mem_some_iff, forall_eq']
      rw [← hone]
      rw [← isSome_find?]
      cases hhit : (queue.filter (s.issuable k txns token channel)).find?
          (hitsRow txns bankInfo) with
      | none => simp
      | some id => simp

theorem chooseFlush_iff :
    (∀ flush, { s with flushWriteQueue := flush }.chooseFlush k channel = s.chooseFlush k channel) ↔
        k.maxNumPendingWrite ≤ (s.txnWriteQ channel).length ∨ s.txnReadQ channel = [] ∨
          (s.txnWriteQ channel).length < k.minNumPendingWrite := by
  have hboth : (∀ flush, { s with flushWriteQueue := flush }.chooseFlush k channel =
      s.chooseFlush k channel) ↔ { s with flushWriteQueue := true }.chooseFlush k channel =
        { s with flushWriteQueue := false }.chooseFlush k channel := by
    refine ⟨fun h => (h true).trans (h false).symm, fun h flush => ?_⟩
    obtain ⟨a, b, c, _ | _⟩ := s <;> cases flush <;> first | rfl | exact h | exact h.symm
  rw [hboth, ← length_eq_zero_iff]
  unfold chooseFlush
  dsimp only
  split_ifs with hfull hfew
  · rw [Bool.or_eq_true, decide_eq_true_eq, decide_eq_true_eq] at hfull
    tauto
  · rw [Bool.and_eq_true, decide_eq_true_eq] at hfew
    tauto
  · simp_all

/-- The queue that an issuable transaction was searched for in. -/
def searched (k : Config) (txns : Nat → Transaction) (s : TxnScheduler) (channel id : Nat) :
    List Nat :=
  if !k.isReadFirstScheduling then s.txnQ channel
  else if (txns id).isRead then s.txnWriteQ channel
  else s.txnReadQ channel

section Ordered

variable (h : Arrived k txns s channel)
include h

/-- No older transaction to its address is in the queue that was searched. -/
theorem Arrived.not_older (hsearched : searched k txns s channel id ∈ s.turns k channel)
    (hready : s.issuable k txns token channel id = true)
    (hother : other ∈ searched k txns s channel id) (haddr : (txns other).addr = (txns id).addr) :
    (txns id).seqNum ≤ (txns other).seqNum := by
  by_contra hlt
  have hdep : s.hasDependancy k txns id channel = true :=
    List.any_eq_true.2 ⟨other, (mem_takeWhile_iff (h.sorted _ hsearched)).2
      ⟨hother, Nat.not_le.1 hlt⟩, decide_eq_true haddr⟩
  rw [issuable, hdep] at hready
  simp at hready

theorem Arrived.searched_cases {chosen : List Nat} (hchosen : chosen ∈ s.turns k channel)
    (hid : id ∈ chosen) (hqueue : queue ∈ s.turns k channel) (hother : other ∈ queue)
    (hconflict : (txns other).isWrite ∨ (txns id).isWrite) :
    searched k txns s channel id ∈ s.turns k channel ∧ (searched k txns s channel id = queue ∨
        queue = chosen ∧ searched k txns s channel other = searched k txns s channel id) := by
  have hkind (id : Nat) : (txns id).isWrite = !(txns id).isRead := by
    unfold Transaction.isWrite Transaction.isRead
    cases (txns id).txnMnemonic <;> rfl
  unfold turns searched at *
  by_cases hplain : (!k.isReadFirstScheduling) = true
  · simp_all
  · have hfirst : k.isReadFirstScheduling = true := by simpa using hplain
    have hmem (q : List Nat) : q ∈ (if s.chooseFlush k channel then
        [s.txnWriteQ channel, s.txnReadQ channel]
        else [s.txnReadQ channel, s.txnWriteQ channel]) ↔
          q = s.txnWriteQ channel ∨ q = s.txnReadQ channel := by
      split <;> simp [or_comm]
    simp only [if_neg hplain, hmem] at *
    have hreads := h.reads hfirst
    have hwrites : ∀ id ∈ s.txnWriteQ channel, (txns id).isRead = false := fun id hid => by
      simpa [hkind] using h.writes hfirst id hid
    rcases hchosen with rfl | rfl <;> rcases hqueue with rfl | rfl
    · simp [hwrites _ hid, hwrites _ hother]
    · simp [hwrites _ hid]
    · simp [hreads _ hid]
    · simp [hkind, hreads _ hid, hreads _ hother] at hconflict

/-- The choice is the oldest one of the ready transactions to its address. -/
theorem Arrived.choice_le (hqueue : queue ∈ s.turns k channel)
    (hchoice : s.choice k txns token bankInfo channel queue = some id) (hother : other ∈ queue)
    (hready : s.issuable k txns token channel other = true)
    (haddr : (txns other).addr = (txns id).addr) :
    (txns id).seqNum ≤ (txns other).seqNum := by
  have hsorted := h.sorted queue hqueue
  have hsplit : ∀ {l before after : List Nat}, l.Pairwise (fun a b =>
      (txns a).seqNum < (txns b).seqNum) → l = before ++ id :: after → other ∈ l →
      other ∉ before → (txns id).seqNum ≤ (txns other).seqNum := by
    rintro l before after hl rfl hmem hbefore
    rcases mem_cons.1 ((mem_append.1 hmem).resolve_left hbefore) with rfl | hafter
    · exact le_rfl
    · exact (rel_of_pairwise_cons (pairwise_append.1 hl).2.1 hafter).le
  unfold choice at hchoice
  cases hpolicy : k.txnSchedulingPolicy with
  | FCFS =>
    simp only [hpolicy] at hchoice
    obtain ⟨hhead, -⟩ := filter_eq_some_iff.1 hchoice
    obtain ⟨rest, hrest⟩ := head?_eq_some_iff.1 hhead
    exact hsplit hsorted (hrest.trans (nil_append _).symm) hother not_mem_nil
  | FRFCFS =>
    simp only [hpolicy] at hchoice
    have hmem := mem_filter.2 ⟨hother, hready⟩
    have hfilter := hsorted.filter (s.issuable k txns token channel)
    rcases or_eq_some_iff.1 hchoice with hhit | ⟨-, hhead⟩
    · obtain ⟨hhits, before, after, heq, hbefore⟩ := find?_eq_some_iff_append.1 hhit
      refine hsplit hfilter heq hmem fun hin => ?_
      have hmiss := hbefore other hin
      rw [hitsRow, h.hashed _ _ haddr] at hmiss
      rw [hitsRow] at hhits
      simp [hhits] at hmiss
    · obtain ⟨rest, hrest⟩ := head?_eq_some_iff.1 hhead
      exact hsplit hfilter (hrest.trans (nil_append _).symm) hmem not_mem_nil

/-- No older transaction waits behind a choice of the policy. -/
theorem Arrived.ordered (hfirst : FirstReady k txns token bankInfo s channel)
    (hid : (s.select k txns token bankInfo channel).1 = some id)
    (hqueue : queue ∈ s.turns k channel) (hother : other ∈ queue)
    (haddr : (txns other).addr = (txns id).addr)
    (hconflict : (txns other).isWrite ∨ (txns id).isWrite) :
    (txns id).seqNum ≤ (txns other).seqNum := by
  have hchosen := hid
  rw [(policy_iff h).2 hfirst] at hchosen
  obtain ⟨chosen, hturn, hchoice⟩ := exists_of_findSome?_eq_some hchosen
  rw [select_fst] at hid
  obtain ⟨_, -, hnext⟩ := exists_of_findSome?_eq_some hid
  have hready := issuable_of_getNextTxn hnext
  have hmem : id ∈ chosen := by
    unfold choice at hchoice
    split at hchoice
    · exact mem_of_head? (filter_eq_some_iff.1 hchoice).1
    · rcases or_eq_some_iff.1 hchoice with hhit | ⟨-, hhead⟩
      · exact (mem_filter.1 (mem_of_find?_eq_some hhit)).1
      · exact (mem_filter.1 (mem_of_head? hhead)).1
  obtain ⟨hsearched, rfl | ⟨rfl, hsame⟩⟩ := h.searched_cases hturn hmem hqueue hother hconflict
  · exact h.not_older hsearched hready hother haddr
  · by_contra hlt
    -- what is in the way of the older one is in the way of the chosen one
    refine hlt (h.choice_le hturn hchoice hother ?_ haddr)
    have htoken := (Bool.and_eq_true _ _ ▸ hready : _ ∧ _).1
    rw [issuable, Bool.and_eq_true, h.hashed _ _ haddr]
    refine ⟨htoken, ?_⟩
    rw [Bool.not_eq_true', Bool.eq_false_iff]
    intro hdep
    obtain ⟨x, hx, hxaddr⟩ := List.any_eq_true.1 hdep
    have hsorted := h.sorted (searched k txns s channel other) (by rw [hsame]; exact hsearched)
    obtain ⟨hxmem, hxlt⟩ := (mem_takeWhile_iff hsorted).1 hx
    have hle := h.not_older hsearched hready (by rw [← hsame]; exact hxmem)
      ((of_decide_eq_true hxaddr).trans haddr)
    omega

end Ordered

/-- The scheduler hands transactions on as it should exactly if a queue has a hit or one
ready transaction at most, and the waiting transactions decide which queue it is. -/
theorem schedules_iff (h : Arrived k txns s channel) :
    Schedules k txns token bankInfo s channel ↔
      FirstReady k txns token bankInfo s channel ∧ Decided k s channel := by
  constructor
  · exact fun hs => ⟨(policy_iff h).1 hs.policy, fun hfirst => chooseFlush_iff.1 (hs.own hfirst)⟩
  · rintro ⟨hfirst, hdecided⟩
    exact
      { ordered := fun id hid queue hqueue other hother haddr hconflict =>
          h.ordered hfirst hid hqueue hother haddr hconflict
        policy := (policy_iff h).2 hfirst
        own := fun hread => chooseFlush_iff.2 (hdecided hread) }

/-- Writes to one address, one after the other. -/
def sameAddress (id : Nat) : Transaction := .create id .WRITE 5 1

def twoWrites : TxnScheduler := { create with txnWriteQ := fun _ => [0, 1] }

theorem arrived_twoWrites :
    Arrived { MemorySystem.oneBank with isReadFirstScheduling := true }
      sameAddress twoWrites 0 where
  sorted := by decide
  reads := nofun
  writes := fun _ _ _ => rfl
  hashed := fun _ _ _ => rfl

theorem schedules_iff_twoWrites :
    Schedules { MemorySystem.oneBank with isReadFirstScheduling := true } sameAddress (fun _ => 3)
        (fun _ => ⟨false, 0, 0⟩) twoWrites 0 ↔
      FirstReady { MemorySystem.oneBank with isReadFirstScheduling := true } sameAddress
          (fun _ => 3) (fun _ => ⟨false, 0, 0⟩) twoWrites 0 ∧
        Decided { MemorySystem.oneBank with isReadFirstScheduling := true } twoWrites 0 :=
  schedules_iff arrived_twoWrites

/-- The younger one of two writes to an address is handed on first. -/
theorem not_schedules_twoWrites :
    ¬Schedules { MemorySystem.oneBank with
        txnSchedulingPolicy := .FRFCFS, isReadFirstScheduling := true } sameAddress (fun _ => 3)
      (fun _ => ⟨false, 0, 0⟩) twoWrites 0 :=
  fun h => absurd (h.ordered 1 rfl [0, 1] (by decide) 0 (by decide) rfl (.inl rfl)) (by decide)

end SstElements.CramSim.TxnScheduler
