import SstElements.CramSim.TransactionAnswers

/-!
# The order in which the command scheduler visits the banks

Each call of `run` offers the heads of the queues of every channel to the driver, and the
next call begins with another bank.  Between the calls commands come, and the driver changes
in any way.
-/

namespace SstElements.CramSim.CmdScheduler

open Library Function List Option

variable (k : Config)

section Visits

/-- The banks that a channel visits in one call, beginning with one of them. -/
def visits : Nat → Nat → Option (List Nat)
  | 0, _ => some []
  | n + 1, idx => (nextIdx k idx).bind fun next => (visits n next).map (idx :: ·)

/-- The bank that a call begins with when some calls have been made since `idx`. -/
def startAfter : Nat → Nat → Option Nat
  | 0, idx => some idx
  | n + 1, idx => (nextIdx k idx).bind (startAfter n)

/-- The heads of the queues of some banks are offered in turn, and the next start is set. -/
def visitBanks (banks : Nat → List Nat) (next : Nat → Nat)
    (r : CmdScheduler × DeviceDriver) (channel : Nat) : CmdScheduler × DeviceDriver :=
  let r := (banks channel).foldl (fun r idx => r.1.offer k channel idx r.2) r
  ({ r.1 with nextCmdQIdx := update r.1.nextCmdQIdx channel (next channel) }, r.2)

variable {k}
variable {s : CmdScheduler} {d : DeviceDriver} {channel idx n : Nat}

theorem offerAll_eq :
    offerAll k channel n idx s d = (visits k n idx).map fun banks =>
      banks.foldl (fun r idx => r.1.offer k channel idx r.2) (s, d) := by
  induction n generalizing idx s d with
  | zero => rfl
  | succ n ih =>
    rw [offerAll, visits]
    cases nextIdx k idx with
    | none => rfl
    | some next =>
      simp only [bind_some, ih, Option.map_map]
      rfl

theorem visits_bank (hpolicy : k.cmdSchedulingPolicy = .BANK) (hidx : idx < numBanksPerChannel k) :
    visits k n idx = some ((range n).map fun i => (i + idx) % numBanksPerChannel k) := by
  induction n generalizing idx with
  | zero => rfl
  | succ n ih =>
    rw [visits, nextIdx, hpolicy]
    simp only [bind_some, ih (Nat.mod_lt _ (numBanksPerChannel_pos k)), map_some,
      range_succ_eq_map, map_cons, List.map_map, zero_add, Nat.mod_eq_of_lt hidx]
    congr 2
    refine map_congr_left fun i _ => ?_
    rw [Function.comp_apply, Nat.add_mod_mod]
    congr 1
    omega

theorem startAfter_bank (hpolicy : k.cmdSchedulingPolicy = .BANK)
    (hidx : idx < numBanksPerChannel k) :
    startAfter k n idx = some ((n + idx) % numBanksPerChannel k) := by
  induction n generalizing idx with
  | zero => rw [startAfter, zero_add, Nat.mod_eq_of_lt hidx]
  | succ n ih =>
    rw [startAfter, nextIdx, hpolicy, bind_some, ih (Nat.mod_lt _ (numBanksPerChannel_pos k)),
      Nat.add_mod_mod, add_assoc, add_comm 1 idx]

/-- The numbers of `n` banks in turn, from one of them on. -/
theorem rotation_perm (n idx : Nat) :
    ((range n).map fun i => (i + idx) % n).Perm (range n) := by
  have hrotate : (range n).map (fun i => (i + idx) % n) = (range n).rotate idx :=
    ext_getElem (by simp) fun i _ _ => by simp [getElem_rotate]
  exact hrotate ▸ rotate_perm _ _

/-- Under the policy RANK the last bank is never the next one. -/
theorem nextIdx_rank {next : Nat} (hpolicy : k.cmdSchedulingPolicy = .RANK)
    (hbanks : 1 < numBanksPerChannel k) (h : nextIdx k idx = some next) :
    next + 1 < numBanksPerChannel k := by
  simp only [nextIdx, hpolicy, if_neg hbanks.ne'] at h
  have hlt := Nat.mod_lt (idx + k.geometry.numBanks / k.geometry.numRanksPerChannel)
    (Nat.sub_pos_of_lt hbanks)
  rw [← some.inj h]
  omega

theorem startAfter_rank {bank : Nat} (hpolicy : k.cmdSchedulingPolicy = .RANK)
    (hidx : idx + 1 < numBanksPerChannel k) (h : startAfter k n idx = some bank) :
    bank + 1 < numBanksPerChannel k := by
  induction n generalizing idx with
  | zero => exact some.inj h ▸ hidx
  | succ n ih =>
    obtain ⟨next, hnext, hrest⟩ := bind_eq_some_iff.1 h
    exact ih (nextIdx_rank hpolicy (by omega) hnext) hrest

end Visits

section Runs

/-- The scheduler with the commands that each queue has taken up and passed on. -/
structure SchedulerRun where
  scheduler : CmdScheduler
  driver : DeviceDriver
  pushed : Nat → Nat → List BankCommand
  passed : Nat → Nat → List BankCommand

inductive Op
  | push (cmd : BankCommand)
  | drive (driver : DeviceDriver)
  | run

def start (d : DeviceDriver) : SchedulerRun := ⟨create, d, fun _ _ => [], fun _ _ => []⟩

/-- What a queue has passed on when commands have left its front. -/
def passOn (before after : List BankCommand) : List BankCommand :=
  before.take (before.length - after.length)

def step (r : SchedulerRun) : Op → Option SchedulerRun
  | .push cmd =>
    match r.scheduler.push k cmd with
    | none => some r
    | some s =>
      let channel := cmd.hashedAddr.channel
      let idx := queueIdx k cmd.hashedAddr
      some { r with
        scheduler := s
        pushed := update r.pushed channel
          (update (r.pushed channel) idx (r.pushed channel idx ++ [cmd])) }
  | .drive d => some { r with driver := d }
  | .run =>
    (r.scheduler.run k r.driver).map fun t => { r with
      scheduler := t.1
      driver := t.2
      passed := fun channel idx => r.passed channel idx ++
        passOn (r.scheduler.cmdQueues channel idx) (t.1.cmdQueues channel idx) }

/-- Each queue is a first-in first-out queue, and tokens are the pushes that still succeed. -/
structure Orderly (r : SchedulerRun) : Prop where
  order : ∀ channel idx,
    r.pushed channel idx = r.passed channel idx ++ r.scheduler.cmdQueues channel idx
  token : ∀ (address : HashedAddress) (cmds : List BankCommand),
    (∀ cmd ∈ cmds, cmd.hashedAddr.channel = address.channel ∧
      queueIdx k cmd.hashedAddr = queueIdx k address) →
    ((cmds.foldlM (push k) r.scheduler).isSome = true ↔
      cmds.length ≤ r.scheduler.getToken k address)
  start : ∀ channel, r.scheduler.nextCmdQIdx channel < numBanksPerChannel k

/-- A call offers the head of each queue once, and as many calls as a channel has banks begin
with each of them. -/
def VisitsAll (r : SchedulerRun) : Op → Prop
  | .run =>
    (∃ banks next, (∀ channel < k.geometry.numChannels,
      (banks channel).Perm (range (numBanksPerChannel k)) ∧
        nextIdx k (r.scheduler.nextCmdQIdx channel) = some (next channel)) ∧
      r.scheduler.run k r.driver =
        some ((range k.geometry.numChannels).foldl (visitBanks k banks next)
          (r.scheduler, r.driver))) ∧
    ∀ channel < k.geometry.numChannels, ∀ bank < numBanksPerChannel k,
      ∃ n < numBanksPerChannel k,
        startAfter k n (r.scheduler.nextCmdQIdx channel) = some bank
  | _ => True

/-- The scheduler runs under the policy BANK only. -/
def RunsByBank : Op → Prop
  | .run => k.cmdSchedulingPolicy = .BANK
  | _ => True

structure Inv (r : SchedulerRun) : Prop where
  order : ∀ channel idx,
    r.pushed channel idx = r.passed channel idx ++ r.scheduler.cmdQueues channel idx
  room : ∀ channel idx, (r.scheduler.cmdQueues channel idx).length ≤ k.numCmdQEntries
  start : ∀ channel, r.scheduler.nextCmdQIdx channel < numBanksPerChannel k
  rank : k.cmdSchedulingPolicy = .RANK → 1 < numBanksPerChannel k →
    ∀ channel, r.scheduler.nextCmdQIdx channel + 1 < numBanksPerChannel k

variable {k}
variable {r t : SchedulerRun} {s : CmdScheduler} {d : DeviceDriver} {channel idx : Nat}

theorem offer_suffix (s : CmdScheduler) (d : DeviceDriver) (channel idx c i : Nat) :
    (s.offer k channel idx d).1.cmdQueues c i <:+ s.cmdQueues c i ∧
      (s.offer k channel idx d).1.nextCmdQIdx = s.nextCmdQIdx := by
  unfold offer
  cases hqueue : s.cmdQueues channel idx with
  | nil => exact ⟨suffix_refl _, rfl⟩
  | cons cmd rest =>
    have hset : (s.setQueue channel idx rest).cmdQueues c i <:+ s.cmdQueues c i := by
      simp only [setQueue, update_apply]
      split
      · rename_i hc
        subst hc
        simp only [update_apply]
        split
        · rename_i hi
          subst hi
          exact hqueue ▸ suffix_cons cmd rest
        · exact suffix_refl _
      · exact suffix_refl _
    dsimp only
    split
    · split
      · exact ⟨hset, rfl⟩
      · exact ⟨suffix_refl _, rfl⟩
    · exact ⟨suffix_refl _, rfl⟩

theorem offers_suffix (banks : List Nat) (c i : Nat) (p : CmdScheduler × DeviceDriver) :
    (banks.foldl (fun r idx => r.1.offer k channel idx r.2) p).1.cmdQueues c i <:+
        p.1.cmdQueues c i ∧
      (banks.foldl (fun r idx => r.1.offer k channel idx r.2) p).1.nextCmdQIdx =
        p.1.nextCmdQIdx := by
  induction banks generalizing p with
  | nil => exact ⟨suffix_refl _, rfl⟩
  | cons idx rest ih =>
    obtain ⟨hsuffix, hnext⟩ := ih (p.1.offer k channel idx p.2)
    obtain ⟨hsuffix', hnext'⟩ := offer_suffix (k := k) p.1 p.2 channel idx c i
    exact ⟨hsuffix.trans hsuffix', hnext.trans hnext'⟩

/-- What a call does to the queues and to the starts, under each policy. -/
theorem runChannels_spec {channels : List Nat} {p q : CmdScheduler × DeviceDriver}
    (h : channels.foldlM (runChannel k) p = some q) (c i : Nat) :
    q.1.cmdQueues c i <:+ p.1.cmdQueues c i ∧ (q.1.nextCmdQIdx c = p.1.nextCmdQIdx c ∨
        ∃ idx, nextIdx k idx = some (q.1.nextCmdQIdx c)) := by
  induction channels generalizing p with
  | nil =>
    cases h
    exact ⟨suffix_refl _, .inl rfl⟩
  | cons channel rest ih =>
    obtain ⟨mid, hmid, hrest⟩ := bind_eq_some_iff.1 h
    obtain ⟨t, ht, hnext⟩ := bind_eq_some_iff.1 hmid
    obtain ⟨idx, hidx, rfl⟩ := map_eq_some_iff.1 hnext
    rw [offerAll_eq] at ht
    obtain ⟨banks, -, rfl⟩ := map_eq_some_iff.1 ht
    obtain ⟨hsuffix, hstarts⟩ := ih hrest
    obtain ⟨hoffers, hsame⟩ := @offers_suffix k channel banks c i p
    refine ⟨hsuffix.trans hoffers, ?_⟩
    rcases hstarts with hstarts | hstarts
    · rw [hstarts]
      dsimp only
      rw [update_apply]
      split
      · exact .inr ⟨_, hidx⟩
      · exact .inl (congrFun hsame c)
    · exact .inr hstarts

/-- Under the policy BANK a call visits the banks of each channel in rotation. -/
theorem runChannels_bank
    {channels : List Nat} {p : CmdScheduler × DeviceDriver} {starts : Nat → Nat}
    (hpolicy : k.cmdSchedulingPolicy = .BANK) (hnodup : channels.Nodup)
    (hstarts : ∀ c ∈ channels, p.1.nextCmdQIdx c = starts c ∧ starts c < numBanksPerChannel k) :
    channels.foldlM (runChannel k) p = some (channels.foldl (visitBanks k
        (fun c => (range (numBanksPerChannel k)).map
          fun i => (i + starts c) % numBanksPerChannel k)
        (fun c => (starts c + 1) % numBanksPerChannel k)) p) := by
  induction channels generalizing p with
  | nil => rfl
  | cons channel rest ih =>
    obtain ⟨hfresh, hrest⟩ := nodup_cons.1 hnodup
    obtain ⟨hstart, hlt⟩ := hstarts channel mem_cons_self
    have hchannel : runChannel k p channel = some (visitBanks k
        (fun c => (range (numBanksPerChannel k)).map
          fun i => (i + starts c) % numBanksPerChannel k)
        (fun c => (starts c + 1) % numBanksPerChannel k) p channel) := by
      have hsame := (@offers_suffix k channel
        ((range (numBanksPerChannel k)).map
          fun i => (i + starts channel) % numBanksPerChannel k) 0 0 p).2
      rw [runChannel, offerAll_eq, hstart, visits_bank hpolicy hlt, map_some, bind_some,
        hsame, hstart, nextIdx, hpolicy, map_some, visitBanks]
      rw [hsame]
    rw [foldlM_cons, hchannel, foldl_cons]
    refine ih hrest fun c hc => ?_
    have hne : c ≠ channel := fun heq => hfresh (heq ▸ hc)
    refine ⟨?_, (hstarts c (mem_cons_of_mem _ hc)).2⟩
    rw [visitBanks]
    dsimp only
    rw [update_of_ne hne, (offers_suffix _ 0 0 p).2]
    exact (hstarts c (mem_cons_of_mem _ hc)).1

/-- Commands for one queue are taken up as long as it has room. -/
theorem pushes_isSome_iff {address : HashedAddress} {cmds : List BankCommand}
    (hroom : (s.queueOf k address).length ≤ k.numCmdQEntries)
    (hcmds : ∀ cmd ∈ cmds, cmd.hashedAddr.channel = address.channel ∧
      queueIdx k cmd.hashedAddr = queueIdx k address) :
    (cmds.foldlM (push k) s).isSome = true ↔
      (s.queueOf k address).length + cmds.length ≤ k.numCmdQEntries := by
  induction cmds generalizing s with
  | nil => exact iff_of_true rfl hroom
  | cons cmd rest ih =>
    obtain ⟨⟨hchannel, hidx⟩, hrest⟩ := forall_mem_cons.1 hcmds
    have hqueue : s.queueOf k cmd.hashedAddr = s.queueOf k address := by
      rw [queueOf, queueOf, hchannel, hidx]
    rw [foldlM_cons, push, hqueue]
    split
    · rename_i hlt
      have hnew : CmdScheduler.queueOf k (s.setQueue cmd.hashedAddr.channel
          (queueIdx k cmd.hashedAddr) (s.queueOf k address ++ [cmd])) address =
          s.queueOf k address ++ [cmd] := by
        simp only [queueOf, setQueue, hchannel, hidx, update_self]
      rw [bind_eq_bind, bind_some, ih (by rw [hnew, length_append]; exact hlt) hrest, hnew,
        length_append, length_singleton, length_cons]
      omega
    · rename_i hfull
      refine iff_of_false (by simp) fun h => hfull ?_
      rw [length_cons] at h
      omega

theorem Inv.orderly (h : Inv k r) : Orderly k r := by
  refine ⟨h.order, fun address cmds hcmds => ?_, h.start⟩
  have hroom : (r.scheduler.queueOf k address).length ≤ k.numCmdQEntries := h.room _ _
  have hlt := k.numCmdQEntries_lt
  rw [pushes_isSome_iff hroom hcmds, getToken, sub32]
  omega

/-- Every call keeps the invariant of the visits. -/
theorem Inv.step {op : Op} (h : Inv k r) (ht : step k r op = some t) : Inv k t := by
  cases op with
  | push cmd =>
    simp only [CmdScheduler.step] at ht
    split at ht
    · exact some.inj ht ▸ h
    · rename_i s hs
      cases ht
      simp only [push] at hs
      split at hs
      · rename_i hlt
        cases hs
        refine ⟨fun c i => ?_, fun c i => ?_, h.start, h.rank⟩
        · have hold := h.order c i
          simp only [setQueue, update_apply]
          split
          · rename_i hc
            subst hc
            simp only [update_apply]
            split
            · rename_i hi
              subst hi
              rw [hold, append_assoc]
              rfl
            · exact hold
          · exact hold
        · simp only [setQueue, update_apply]
          split
          · simp only [update_apply]
            split
            · rw [length_append]
              exact hlt
            · exact h.room _ _
          · exact h.room _ _
      · cases hs
  | drive d =>
    cases ht
    exact ⟨h.order, h.room, h.start, h.rank⟩
  | run =>
    obtain ⟨q, hq, rfl⟩ := map_eq_some_iff.1 ht
    have hspec := runChannels_spec hq
    refine ⟨fun c i => ?_, fun c i => (hspec c i).1.length_le.trans (h.room c i),
      fun c => ?_, fun hpolicy hbanks c => ?_⟩
    · obtain ⟨pre, hpre⟩ := (hspec c i).1
      have hlen := congrArg length hpre
      rw [length_append] at hlen
      rw [h.order c i, append_assoc, passOn, ← hlen, Nat.add_sub_cancel, ← hpre, take_left]
    · rcases (hspec c 0).2 with hsame | ⟨idx, hidx⟩
      · exact hsame ▸ h.start c
      · exact nextIdx_lt hidx
    · rcases (hspec c 0).2 with hsame | ⟨idx, hidx⟩
      · exact hsame ▸ h.rank hpolicy hbanks c
      · exact nextIdx_rank hpolicy hbanks hidx

theorem visitsAll_iff {op : Op} (h : Inv k r) : VisitsAll k r op ↔ RunsByBank k op := by
  cases op with
  | push cmd => exact .rfl
  | drive d => exact .rfl
  | run =>
    constructor
    · rintro ⟨⟨banks, next, hvisits, -⟩, hstarts⟩
      have hchannel : 0 < k.geometry.numChannels :=
        pos_of_ne_zero fun hzero => by simpa [hzero] using k.geometry.banks_pos
      cases hpolicy : k.cmdSchedulingPolicy with
      | BANK => exact hpolicy
      | RANK =>
        exfalso
        rcases Nat.eq_or_lt_of_le (numBanksPerChannel_pos k) with hone | hmore
        · have hnext := (hvisits 0 hchannel).2
          simp [nextIdx, hpolicy, ← hone] at hnext
        · obtain ⟨n, -, hn⟩ := hstarts 0 hchannel (numBanksPerChannel k - 1) (by omega)
          have := startAfter_rank hpolicy (h.rank hpolicy hmore 0) hn
          omega
    · intro hpolicy
      refine ⟨⟨_, _, fun c _ => ⟨rotation_perm _ (r.scheduler.nextCmdQIdx c), ?_⟩,
        runChannels_bank hpolicy nodup_range fun c _ => ⟨rfl, h.start c⟩⟩,
        fun c _ bank hbank => ?_⟩
      · rw [nextIdx, show k.cmdSchedulingPolicy = .BANK from hpolicy]
      · have hmem : bank ∈ (range (numBanksPerChannel k)).map
            fun i => (i + r.scheduler.nextCmdQIdx c) % numBanksPerChannel k :=
          (rotation_perm _ _).mem_iff.2 (mem_range.2 hbank)
        obtain ⟨n, hn, rfl⟩ := mem_map.1 hmem
        exact ⟨n, mem_range.1 hn, startAfter_bank hpolicy (h.start c)⟩

theorem start_inv (d : DeviceDriver) : Inv k (start d) :=
  ⟨fun _ _ => rfl, fun _ _ => Nat.zero_le _, fun _ => numBanksPerChannel_pos k,
    fun _ hbanks _ => hbanks⟩

/-- The scheduler meets its purpose on a run exactly if it does not run under the policy
RANK. -/
theorem scheduler_run_iff (k : Config) (d : DeviceDriver) (ops : List Op) :
    Throughout (step k) (Orderly k) (start d) ops ∧ StepsMeet (step k) (VisitsAll k) (start d) ops ↔
      StepsMeet (step k) (fun _ => RunsByBank k) (start d) ops :=
  throughout_and_stepsMeet_iff_of_invariant (fun _ h => h.orderly) (fun _ _ _ h ht => Inv.step h ht)
    (fun _ _ h => visitsAll_iff h) (start_inv d)

/-- With one bank the policy RANK divides by zero. -/
theorem not_visitsAll_rank :
    ¬ StepsMeet (step { MemorySystem.oneBank with cmdSchedulingPolicy := .RANK })
      (VisitsAll { MemorySystem.oneBank with cmdSchedulingPolicy := .RANK })
      (start (DeviceDriver.create { MemorySystem.oneBank with cmdSchedulingPolicy := .RANK }))
      [.run] := by
  rintro ⟨⟨⟨banks, next, hvisits, -⟩, -⟩, -⟩
  cases (hvisits 0 Nat.one_pos).2

end Runs

end SstElements.CramSim.CmdScheduler
