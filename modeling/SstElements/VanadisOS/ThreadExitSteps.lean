import SstElements.VanadisOS.ThreadExitInvariant

/-!
# Runs of clone, fork, exit and exit_group

Faults are served in order, calls go on or end, threads come and leave.  Every regular step
keeps the pool and the calls, so regular runs release everything once.
-/

namespace SstElements.VanadisOS.ExitOS

open Library Function List Option

variable {setup : ExitSetup} {os os' : ExitOS} {id : Nat} {process : ProcessInfo}
  {call : ThreadCall} {info : ThreadFault} {faults rest : List ThreadFault}

variable {tid pid : Nat} {pid : Nat}

section Faults

theorem mem_getThreadList (hfind : os.processes.find? tid = some process)
    (hpid : process.pid = pid) :
    process ∈ os.getThreadList pid := by
  refine mem_filter.2 ⟨mem_map.2 ⟨(tid, process), ?_, rfl⟩, decide_eq_true hpid⟩
  exact (OrderedMap.mem_entries_iff _ _ _).2 hfind

theorem Served.congr (h : os.Served faults) (hthreads : os'.threadMap = os.threadMap)
    (hprocesses : os'.processes = os.processes) :
    os'.Served faults := by
  induction faults with
  | nil => trivial
  | cons info rest ih =>
    obtain ⟨hfindable, hrest⟩ := h
    refine ⟨?_, fun hthread => ih (hrest (hthreads ▸ hthread))⟩
    unfold Findable getThreadList at *
    rw [hthreads, hprocesses]
    exact hfindable

theorem Calls.setFaults (h : Calls { os with pendingFault := faults })
    (hrest : rest.Sublist faults) :
    Calls { os with pendingFault := rest } where
  __ := h
  faults info hmem := h.faults info (hrest.subset hmem)
  nodup := h.nodup.sublist (hrest.filterMap _)

theorem Held.look (h : Held setup none os) (hfindable : os.Findable pid) :
    Held setup none (os.note (.fault pid (os.threadMap pid)
      ((os.getThreadList pid).map ProcessInfo.tid))) where
  __ := h
  pool := h.pool.congr rfl rfl rfl rfl le_rfl
  calls := h.calls.setProcesses rfl rfl rfl rfl fun _ _ _ => rfl
  halted group halted hmem := by
    exact h.halted group halted (mem_of_mem_concat hmem nofun)
  served pid' served threads hmem hthreads := by
    rcases mem_append.1 hmem with hold | hnew
    · exact h.served pid' served threads hold hthreads
    · obtain ⟨rfl, rfl, rfl⟩ := ExitEvent.fault.inj (mem_singleton.1 hnew)
      rcases hfindable with hthread | hnil
      · exact hthread
      · rw [hnil] at hthreads
        exact absurd rfl hthreads

section

variable (h : Held setup none { os with pendingFault := faults })
include h

theorem Held.setFaults (hrest : rest.Sublist faults) :
    Held setup none { os with pendingFault := rest } :=
  { h with
    pool := h.pool.congr rfl rfl rfl rfl le_rfl
    calls := h.calls.setFaults hrest }

theorem Held.serve (hserved : os.Served faults) : Held setup none (os.serveFaults faults) := by
  induction faults generalizing os with
  | nil => exact h
  | cons info rest ih =>
    obtain ⟨hfindable, hrest⟩ := hserved
    have hlooked := @Held.look setup _ info.pid h hfindable
    unfold serveFaults
    dsimp only
    split
    case isTrue => exact hlooked
    case isFalse hthread =>
      have hnil := hfindable.resolve_left hthread
      have hfini : (os.note (.fault info.pid (os.threadMap info.pid)
          ((os.getThreadList info.pid).map ProcessInfo.tid))).pageFaultFini info =
          os.note (.fault info.pid (os.threadMap info.pid)
            ((os.getThreadList info.pid).map ProcessInfo.tid)) := by
        unfold pageFaultFini
        cases hsyscall : info.syscall with
        | none => rfl
        | some id =>
          obtain ⟨call, process, -, -, hprocess, hpid⟩ :=
            h.calls.faults info mem_cons_self id hsyscall
          have hmem := mem_getThreadList hprocess hpid
          change process ∈ os.getThreadList info.pid at hmem
          rw [hnil] at hmem
          cases hmem
      rw [hfini]
      refine ih (hlooked.setFaults (sublist_cons_self info rest)) ?_
      exact (hrest (Bool.eq_false_of_not_eq_true hthread)).congr rfl rfl

end

theorem Held.pageFaultHandler
    (h : Held setup none { os with pendingFault := os.pendingFault ++ [info] })
    (hfindable : os.pendingFault = [] → os.Findable info.pid) :
    Held setup none (os.pageFaultHandler info) := by
  unfold ExitOS.pageFaultHandler
  split
  case h_1 hnil =>
    rw [hnil] at h
    exact h.serve ⟨hfindable hnil, fun _ => trivial⟩
  case h_2 => exact h

theorem Held.setStatus {status : CallStatus} (h : Held setup none os)
    (hfind : os.syscalls.find? id = some call)
    (hfaults : ∀ info ∈ faults, ∀ id', info.syscall = some id' →
      (id' ≠ id ∧ info ∈ os.pendingFault) ∨ (id' = id ∧ status = .faulting ∧ ∃ process,
        os.processes.find? call.process = some process ∧ process.pid = info.pid))
    (hnodup : (faults.filterMap ThreadFault.syscall).Nodup) :
    Held setup none { os with
      syscalls := os.syscalls.insert id { call with status := status }
      pendingFault := faults } where
  __ := h
  pool := h.pool.congr rfl rfl rfl rfl le_rfl
  calls := h.calls.setStatus hfind hfaults hnodup
  settled id' call' hfind' := by
    rw [OrderedMap.find?_insert] at hfind'
    split at hfind'
    case isTrue =>
      cases hfind'
      exact fun _ => h.settled id call hfind nofun
    case isFalse => exact h.settled id' call' hfind'

theorem Held.faultDone (h : Held setup none os) (hfaults : os.pendingFault = info :: rest) :
    Held setup none { os.pageFaultFini info with pendingFault := rest } ∧
      (os.pageFaultFini info).threadMap = os.threadMap ∧
      (os.pageFaultFini info).processes = os.processes := by
  have hsub : rest.Sublist os.pendingFault := hfaults ▸ sublist_cons_self info rest
  unfold pageFaultFini
  cases hsyscall : info.syscall with
  | none => exact ⟨h.setFaults hsub, rfl, rfl⟩
  | some id =>
    obtain ⟨call, process, hfind, hstatus, hprocess, hpid⟩ :=
      h.calls.faults info (hfaults ▸ mem_cons_self) id hsyscall
    dsimp only
    rw [hfind]
    dsimp only
    rw [hprocess]
    refine ⟨h.setStatus hfind (fun info' hmem id' hid => .inl ⟨?_, hsub.subset hmem⟩) ?_, rfl, rfl⟩
    · rintro rfl
      have hnodup := h.calls.nodup
      rw [hfaults, filterMap_cons_some hsyscall] at hnodup
      exact (nodup_cons.1 hnodup).1 (mem_filterMap.2 ⟨info', hmem, hid⟩)
    · exact h.calls.nodup.sublist (hsub.filterMap _)

end Faults

variable {next : CallNext}

section Ends

theorem leave_eq (hpool : Pool setup os) (hcalls : Calls os)
    (hfind : os.syscalls.find? id = some call)
    (hprocess : os.processes.find? call.process = some process) (hexits : call.kind.exits = true) :
    process.hwThread = call.hwThread ∧ process.tid = call.process ∧
      (os.removeThread call.hwThread process.tid).destructor id call process = { os with
        availHwThreads := os.availHwThreads ++ [call.hwThread]
        threadMap := update os.threadMap call.process false
        processes := os.processes.erase call.process
        process := update os.process call.hwThread none
        syscalls := os.syscalls.erase id
        syscall := update os.syscall call.hwThread none
        history := os.history ++ [.responded call.hwThread call.process true] } := by
  obtain ⟨-, hslot, process', hprocess', hhw⟩ := hcalls.known id call hfind
  cases hprocess.symm.trans hprocess'
  obtain ⟨htid, -, -, hthread, -⟩ := hpool.placed _ process hprocess
  refine ⟨hhw, htid, ?_⟩
  unfold removeThread destructor
  rw [htid, if_pos hthread, hhw]
  dsimp only [setProcess]
  rw [hslot, hexits]
  rfl

theorem Held.leave (h : Held setup (some id) os) (hfind : os.syscalls.find? id = some call)
    (hstatus : call.status ≠ .faulting) (hprocess : os.processes.find? call.process = some process)
    (hexits : call.kind.exits = true) :
    Held setup none ((os.removeThread call.hwThread process.tid).destructor id call process) := by
  obtain ⟨hhw, htid, heq⟩ := leave_eq h.pool h.calls hfind hprocess hexits
  rw [heq]
  constructor
  case pool =>
    refine h.pool.remove hprocess ?_ rfl rfl ?_ rfl
    · rw [hhw]
    · rw [hhw]
  case calls =>
    refine h.calls.finish hfind hstatus rfl rfl rfl rfl fun tid hne => ?_
    exact OrderedMap.find?_erase_of_ne _ hne
  case settled =>
    intro id' call' hfind'
    rw [OrderedMap.find?_erase] at hfind'
    split at hfind'
    case isTrue => cases hfind'
    case isFalse hne =>
      exact fun _ => h.settled id' call' hfind' fun heq => hne (some.inj heq).symm
  case running => exact h.running
  case alive => exact h.alive
  case halted =>
    intro group halted hmem
    exact h.halted group halted (mem_of_mem_concat hmem nofun)
  case served =>
    intro pid served threads hmem
    exact h.served pid served threads (mem_of_mem_concat hmem nofun)

section

variable (h : Held setup none os)
variable (hfind : os.syscalls.find? id = some call)
variable (hstatus : call.status ≠ .faulting)
include h hfind hstatus

theorem Held.return (hprocess : os.processes.find? call.process = some process)
    (hexits : call.kind.exits = false) :
    Held setup none (os.destructor id call process) := by
  obtain ⟨-, hslot, process', hprocess', hhw⟩ := h.calls.known id call hfind
  cases hprocess.symm.trans hprocess'
  unfold destructor
  rw [hhw, hslot, hexits]
  rw [if_neg Bool.false_ne_true]
  constructor
  case pool => exact h.pool.congr rfl rfl rfl rfl le_rfl
  case calls => exact h.calls.finish hfind hstatus rfl rfl rfl rfl fun _ _ => rfl
  case settled =>
    intro id' call' hfind'
    dsimp only [note] at hfind'
    rw [OrderedMap.find?_erase] at hfind'
    split at hfind'
    case isTrue => cases hfind'
    case isFalse => exact h.settled id' call' hfind'
  case running => exact h.running
  case alive => exact h.alive
  case halted =>
    intro group halted hmem
    exact h.halted group halted (mem_of_mem_concat hmem nofun)
  case served =>
    intro pid served threads hmem
    exact h.served pid served threads (mem_of_mem_concat hmem nofun)

theorem Held.complete (hprocess : os.processes.find? call.process = some process) :
    Held setup none (os.complete id call process) := by
  have hkind := h.settled id call hfind nofun
  unfold ExitOS.complete
  split
  case isTrue hexit =>
    have hheld : Held setup (some id) os :=
      ⟨h.pool, h.calls, fun id' call' hfind' _ => h.settled id' call' hfind' nofun, h.running,
        h.alive, h.halted, h.served⟩
    exact hheld.leave hfind hstatus hprocess (by rw [hexit]; rfl)
  case isFalse hexit =>
    refine h.return hfind hstatus hprocess ?_
    cases heq : call.kind with
    | exit => exact absurd heq hexit
    | exitGroup => exact absurd heq hkind
    | _ => rfl

theorem Held.post (hfindable : os.FindableCall call.process next) :
    Held setup none (os.processSyscallPost id call next) := by
  obtain ⟨-, -, process, hprocess, -⟩ := h.calls.known id call hfind
  have hnotMem := h.calls.notMem_faults hfind hstatus
  have hother {info : ThreadFault} (hmem : info ∈ os.pendingFault) {id' : Nat}
      (hid : info.syscall = some id') : id' ≠ id := by
    rintro rfl
    exact hnotMem (mem_filterMap.2 ⟨info, hmem, hid⟩)
  have hstore (status : CallStatus) : Held setup none { os with
      syscalls := os.syscalls.insert id { call with status := status } } :=
    h.setStatus hfind (fun info hmem id' hid => .inl ⟨hother hmem hid, hmem⟩) h.calls.nodup
  unfold processSyscallPost
  rw [hprocess]
  cases next with
  | finish => exact h.complete hfind hstatus hprocess
  | access => exact hstore .accessing
  | block => exact hstore .blocked
  | fault =>
    refine Held.pageFaultHandler ?_ fun hnil => hfindable rfl hnil process hprocess
    refine h.setStatus hfind (fun info hmem id' hid => ?_) ?_
    · rcases mem_append.1 hmem with hold | hnew
      · exact .inl ⟨hother hold hid, hold⟩
      · obtain rfl := mem_singleton.1 hnew
        exact .inr ⟨(some.inj hid).symm, rfl, process, hprocess, rfl⟩
    · rw [filterMap_append]
      refine nodup_append.2 ⟨h.calls.nodup, nodup_singleton _, ?_⟩
      rintro a ha b hb rfl
      exact hnotMem (mem_singleton.1 hb ▸ ha)

end

end Ends

section Threads

theorem Held.create (h : Held setup none os) (hslot : os.syscall call.hwThread = none)
    (hprocess : ∃ process, os.processes.find? call.process = some process ∧
      process.hwThread = call.hwThread) :
    Held setup (some os.created) { os with
      created := os.created + 1
      syscalls := os.syscalls.insert os.created call
      syscall := update os.syscall call.hwThread (some os.created) } :=
  { h with
    pool := h.pool.congr rfl rfl rfl rfl le_rfl
    calls := h.calls.create hslot hprocess
    settled id' call' hfind' hne := by
      rw [OrderedMap.find?_insert, if_neg fun heq => hne (congrArg some heq.symm)] at hfind'
      exact h.settled id' call' hfind' nofun }

theorem Held.putDown (h : Held setup (some id) os) (hfind : os.syscalls.find? id = some call)
    (hkind : call.kind ≠ .exitGroup) :
    Held setup none os := by
  refine ⟨h.pool, h.calls, fun id' call' hfind' _ => ?_, h.running, h.alive, h.halted, h.served⟩
  by_cases heq : id' = id
  · subst heq
    cases hfind.symm.trans hfind'
    exact hkind
  · exact h.settled id' call' hfind' fun hsome => heq (some.inj hsome).symm

theorem Held.newThread (h : Held setup none os) (hfresh : os.processes.find? tid = none)
    (hlt : tid < os.currentTid) (hnew : os.newThread tid pid = some os') :
    Held setup none os' ∧ os'.syscalls = os.syscalls ∧ os'.pendingFault = os.pendingFault ∧
      os'.currentTid = os.currentTid ∧
      (∀ tid', tid' ≠ tid → os'.processes.find? tid' = os.processes.find? tid') ∧
      ∀ tid', os.threadMap tid' = true → os'.threadMap tid' = true := by
  obtain ⟨hpool, hwThread, heq⟩ := h.pool.newThread hfresh hlt hnew
  have hkept {tid' : Nat} (hne : tid' ≠ tid) :
      os'.processes.find? tid' = os.processes.find? tid' := by
    rw [heq]
    exact OrderedMap.find?_insert_of_ne _ _ hne
  refine ⟨⟨hpool, ?_, ?_, ?_, ?_, ?_, ?_⟩, ?_, ?_, ?_, fun tid' hne => hkept hne, ?_⟩
  · refine h.calls.setProcesses ?_ ?_ ?_ ?_ fun id call hfind => ?_
    · rw [heq]
    · rw [heq]
    · rw [heq]
    · rw [heq]
    · obtain ⟨-, -, process, hprocess, -⟩ := h.calls.known id call hfind
      refine hkept ?_
      intro hsame
      rw [hsame, hfresh] at hprocess
      cases hprocess
  · rw [heq]
    exact h.settled
  · rw [heq]
    exact h.running
  · rw [heq]
    exact h.alive
  · rw [heq]
    exact h.halted
  · rw [heq]
    exact h.served
  · rw [heq]
  · rw [heq]
  · rw [heq]
  · intro tid' hthread
    obtain ⟨⟨hwThread', os₁⟩, halloc, rfl⟩ := map_eq_some_iff.1 hnew
    unfold allocHwThread at halloc
    split at halloc
    case h_1 => cases halloc
    case h_2 =>
      cases halloc
      dsimp only [setProcess, setThread]
      by_cases hsame : tid' = tid
      · rw [hsame, update_self]
      · rw [update_of_ne hsame]
        exact hthread

def without (os : ExitOS) (thread : ProcessInfo) : ExitOS :=
  { os with
    availHwThreads := os.availHwThreads ++ [thread.hwThread]
    threadMap := update os.threadMap thread.tid false
    processes := os.processes.erase thread.tid
    process := update os.process thread.hwThread none }

theorem exitThreads_spec {threads : List ProcessInfo} (hpool : Pool setup os) (hcalls : Calls os)
    (hthreads : ∀ thread ∈ threads, os.processes.find? thread.tid = some thread ∧
      os.syscall thread.hwThread = none)
    (hnodup : (threads.map ProcessInfo.tid).Nodup) :
    Pool setup (os.exitThreads threads) ∧ Calls (os.exitThreads threads) ∧
      (∀ tid, tid ∉ threads.map ProcessInfo.tid →
        (os.exitThreads threads).processes.find? tid = os.processes.find? tid) ∧
      os.exitThreads threads = { os with
        availHwThreads := (os.exitThreads threads).availHwThreads
        threadMap := (os.exitThreads threads).threadMap
        processes := (os.exitThreads threads).processes
        process := (os.exitThreads threads).process } := by
  induction threads generalizing os with
  | nil => exact ⟨hpool, hcalls, fun _ _ => rfl, rfl⟩
  | cons thread rest ih =>
    obtain ⟨hfind, hslot⟩ := hthreads thread mem_cons_self
    obtain ⟨hnotMem, hnodup'⟩ := nodup_cons.1 hnodup
    obtain ⟨-, -, -, hthread, -⟩ := hpool.placed _ thread hfind
    have hremove : (os.removeThread thread.hwThread thread.tid).deleteProcess thread.tid =
        os.without thread := by
      unfold removeThread
      rw [if_pos hthread]
      rfl
    have hpool' : Pool setup (os.without thread) := hpool.remove hfind rfl rfl rfl rfl rfl
    have hcalls' : Calls (os.without thread) := by
      refine hcalls.setProcesses rfl rfl rfl rfl fun id call hcall => ?_
      refine OrderedMap.find?_erase_of_ne _ ?_
      intro heq
      obtain ⟨-, hsome, process, hprocess, hhw⟩ := hcalls.known id call hcall
      rw [heq, hfind] at hprocess
      cases hprocess
      rw [← hhw, hslot] at hsome
      cases hsome
    have hrest : ∀ thread' ∈ rest, (os.without thread).processes.find? thread'.tid =
        some thread' ∧ (os.without thread).syscall thread'.hwThread = none := by
      intro thread' hmem
      obtain ⟨hfind', hslot'⟩ := hthreads thread' (mem_cons_of_mem _ hmem)
      refine ⟨?_, hslot'⟩
      have hne : thread'.tid ≠ thread.tid := by
        intro heq
        exact hnotMem (heq ▸ mem_map_of_mem hmem)
      exact (OrderedMap.find?_erase_of_ne _ hne).trans hfind'
    obtain ⟨hpoolEnd, hcallsEnd, hkept, hframe⟩ := ih hpool' hcalls' hrest hnodup'
    have hcons : os.exitThreads (thread :: rest) = (os.without thread).exitThreads rest := by
      rw [← hremove]
      rfl
    rw [hcons]
    refine ⟨hpoolEnd, hcallsEnd, fun tid htid => ?_, hframe⟩
    rw [map_cons, mem_cons, not_or] at htid
    rw [hkept tid htid.2]
    exact OrderedMap.find?_erase_of_ne _ htid.1

theorem find?_of_mem_getThreadList {thread : ProcessInfo} (h : Pool setup os)
    (hmem : thread ∈ os.getThreadList pid) :
    os.processes.find? thread.tid = some thread := by
  obtain ⟨⟨tid, thread'⟩, hentry, rfl⟩ := mem_map.1 (mem_filter.1 hmem).1
  have hfind := (OrderedMap.mem_entries_iff _ _ _).1 hentry
  rwa [(h.placed tid thread' hfind).1]

theorem getThreadList_nodup (h : Pool setup os) (pid : Nat) :
    ((os.getThreadList pid).map ProcessInfo.tid).Nodup := by
  have hkeys : ((os.processes.entries.map Prod.snd).map ProcessInfo.tid) =
      os.processes.entries.map Prod.fst := by
    rw [List.map_map]
    refine map_congr_left fun entry hentry => ?_
    exact (h.placed entry.1 entry.2 ((OrderedMap.mem_entries_iff _ _ _).1 hentry)).1
  refine List.Nodup.sublist ((filter_sublist).map _) ?_
  rw [hkeys]
  exact pairwise_map.2 (os.processes.sorted.imp fun hlt => hlt.ne)

theorem Held.exitGroup {caller : ProcessInfo} (h : Held setup (some id) os)
    (hfind : os.syscalls.find? id = some call) (hcall : call.process = caller.tid)
    (hkind : call.kind = .exitGroup) (hstatus : call.status ≠ .faulting)
    (hcaller : os.processes.find? caller.tid = some caller)
    (hothers : ∀ thread ∈ os.getThreadList caller.pid, thread.tid ≠ caller.tid →
      thread.hwThread.core = call.hwThread.core ∧ os.syscall thread.hwThread = none) :
    Held setup none ((os.exitGroup call.hwThread caller).processSyscallPost id call .finish) := by
  unfold ExitOS.exitGroup
  dsimp only
  generalize hthreads : (os.getThreadList caller.pid).filter (fun thread =>
    thread.tid ≠ caller.tid) = others
  have hmem {thread : ProcessInfo} (hin : thread ∈ others) :
      os.processes.find? thread.tid = some thread ∧ thread.tid ≠ caller.tid ∧
        thread.hwThread.core = call.hwThread.core ∧ os.syscall thread.hwThread = none := by
    rw [← hthreads] at hin
    obtain ⟨hlist, hne⟩ := mem_filter.1 hin
    have hother := of_decide_eq_true hne
    exact ⟨find?_of_mem_getThreadList h.pool hlist, hother, hothers thread hlist hother⟩
  have hnodup : (others.map ProcessInfo.tid).Nodup := by
    rw [← hthreads]
    exact (getThreadList_nodup h.pool caller.pid).sublist ((filter_sublist).map _)
  have hhalts : others.map (fun thread => (⟨call.hwThread.core, thread.hwThread.hwThread⟩ :
      HwThreadID)) = others.map ProcessInfo.hwThread := by
    refine map_congr_left fun thread hin => ?_
    rw [← (hmem hin).2.2.1]
  rw [hhalts]
  generalize hnoted : os.note (.exitGroup (others.map ProcessInfo.hwThread)
    (others.map ProcessInfo.hwThread)) = noted
  have hnotedHeld : Held setup (some id) noted := by
    rw [← hnoted]
    refine ⟨h.pool.congr rfl rfl rfl rfl le_rfl,
      h.calls.setProcesses rfl rfl rfl rfl fun _ _ _ => rfl, h.settled, h.running, h.alive,
      fun group halted hevent => ?_, fun pid served threads hevent => ?_⟩
    · rcases mem_append.1 hevent with hold | hnew
      · exact h.halted group halted hold
      · obtain ⟨rfl, rfl⟩ := ExitEvent.exitGroup.inj (mem_singleton.1 hnew)
        rfl
    · exact h.served pid served threads (mem_of_mem_concat hevent nofun)
  obtain ⟨hpool, hcalls, hkept, hframe⟩ := exitThreads_spec hnotedHeld.pool hnotedHeld.calls
    (fun thread hin => by
      rw [← hnoted]
      exact ⟨(hmem hin).1, (hmem hin).2.2.2⟩) hnodup
  have hstill : (noted.exitThreads others).processes.find? caller.tid = some caller := by
    rw [hkept caller.tid ?_, ← hnoted]
    · exact hcaller
    · intro hin
      obtain ⟨thread, hthread, heq⟩ := mem_map.1 hin
      exact (hmem hthread).2.1 heq
  have hgone : Held setup (some id) (noted.exitThreads others) := by
    refine ⟨hpool, hcalls, ?_, ?_, ?_, ?_, ?_⟩
    · rw [hframe]
      exact hnotedHeld.settled
    · rw [hframe]
      exact hnotedHeld.running
    · rw [hframe]
      exact hnotedHeld.alive
    · rw [hframe]
      exact hnotedHeld.halted
    · rw [hframe]
      exact hnotedHeld.served
  have hcallGone : (noted.exitThreads others).syscalls.find? id = some call := by
    rw [hframe, ← hnoted]
    exact hfind
  have hremoved : ((noted.exitThreads others).removeThread call.hwThread
      caller.tid).processes.find? call.process = some caller := by
    rw [hcall]
    unfold removeThread
    split <;> exact hstill
  unfold processSyscallPost ExitOS.complete
  rw [hremoved]
  dsimp only
  rw [if_neg (by rw [hkind]; exact nofun)]
  exact hgone.leave hcallGone hstatus (hcall ▸ hstill) (by rw [hkind]; rfl)

end Threads

section Steps

theorem Findable.of_thread (h : os.Findable pid) (hfind : os.processes.find? tid = some process)
    (hpid : process.pid = pid) :
    os.threadMap pid = true := by
  refine h.resolve_right fun hnil => ?_
  have hmem := mem_getThreadList hfind hpid
  rw [hnil] at hmem
  cases hmem

theorem Held.spawn (h : Held setup none os) (hfind : os.syscalls.find? id = some call)
    (hstatus : call.status ≠ .faulting)
    (hnew : { os with currentTid := os.currentTid + 1 }.newThread os.currentTid pid = some os')
    (hfindable : os.FindableCall call.process next) :
    Held setup none (os'.processSyscallPost id call next) := by
  have hfresh : os.processes.find? os.currentTid = none := by
    cases hfree : os.processes.find? os.currentTid with
    | none => rfl
    | some process => exact absurd (h.pool.placed _ process hfree).2.2.2.2 (lt_irrefl _)
  have hnext : Held setup none { os with currentTid := os.currentTid + 1 } :=
    ⟨h.pool.congr rfl rfl rfl rfl (Nat.le_succ _), h.calls.setProcesses rfl rfl rfl rfl
      fun _ _ _ => rfl, h.settled, h.running, h.alive, h.halted, h.served⟩
  obtain ⟨hheld, hsyscalls, hfaults, -, hkept, hthreads⟩ :=
    hnext.newThread hfresh (Nat.lt_succ_self _) hnew
  obtain ⟨-, -, process, hprocess, -⟩ := h.calls.known id call hfind
  refine hheld.post (hsyscalls ▸ hfind) hstatus fun hfault hnil process' hprocess' => .inl ?_
  have hne : call.process ≠ os.currentTid := by
    intro heq
    rw [heq, hfresh] at hprocess
    cases hprocess
  obtain rfl := some.inj (((hkept _ hne).trans hprocess).symm.trans hprocess')
  exact hthreads _ ((hfindable hfault (hfaults ▸ hnil) process hprocess).of_thread hprocess rfl)

theorem Held.syscall {hwThread : HwThreadID} {kind : CallKind} (h : Held setup none os)
    (hregular : os.Regular (.syscall hwThread kind next))
    (hstep : os.handleIncomingSyscall hwThread kind next = some os') :
    Held setup none os' := by
  obtain ⟨caller, hcaller, hgroup, hnext⟩ := hregular
  obtain ⟨tid, hprocess, hfind⟩ := bind_eq_some_iff.1 hcaller
  obtain ⟨htid, -, hplace, -, -⟩ := h.pool.placed tid caller hfind
  obtain ⟨caller', hfind', hhw⟩ := h.pool.occupied hwThread tid hprocess
  cases hfind.symm.trans hfind'
  subst htid
  unfold handleIncomingSyscall at hstep
  rw [hcaller] at hstep
  dsimp only at hstep
  split at hstep
  case h_1 id hslot =>
    obtain ⟨call, hcall, hcallHw⟩ := h.calls.slots hwThread id hslot
    obtain ⟨-, -, process, hown, hownHw⟩ := h.calls.known id call hcall
    have hsame := h.pool.tid_unique hfind hown (hownHw.trans (hcallHw.trans hhw.symm))
    rw [hcall, if_pos (by simpa using hsame)] at hstep
    cases hstep
  case h_2 hslot =>
    obtain ⟨os₁, hconstruct, rfl⟩ := map_eq_some_iff.1 hstep
    have hcreated := @Held.create setup os ⟨kind, caller.tid, hwThread, .blocked⟩ h hslot
      ⟨caller, hfind, hhw⟩
    have hstored : (os.syscalls.insert os.created ⟨kind, caller.tid, hwThread, .blocked⟩).find?
        os.created = some ⟨kind, caller.tid, hwThread, .blocked⟩ := OrderedMap.find?_insert_self ..
    cases kind with
    | exitGroup =>
      cases hconstruct
      exact hcreated.exitGroup hstored rfl rfl nofun hfind fun thread hmem hne => by
        obtain ⟨hcore, hnone⟩ := hgroup rfl thread hmem hne
        refine ⟨hcore, ?_⟩
        have hother : thread.hwThread ≠ hwThread := by
          intro heq
          have hthread := find?_of_mem_getThreadList hcreated.pool hmem
          exact hne (h.pool.tid_unique hfind hthread (heq.trans hhw.symm))
        exact (update_of_ne hother _ _).trans hnone
    | clone => exact (hcreated.putDown hstored nofun).spawn hstored nofun hconstruct (hnext nofun)
    | fork => exact (hcreated.putDown hstored nofun).spawn hstored nofun hconstruct (hnext nofun)
    | exit =>
      cases hconstruct
      exact (hcreated.putDown hstored nofun).post hstored nofun (hnext nofun)
    | other =>
      cases hconstruct
      exact (hcreated.putDown hstored nofun).post hstored nofun (hnext nofun)

/-- A regular step keeps every thread where it belongs. -/
theorem Held.step {s : ExitStep} (h : Held setup none os) (hregular : os.Regular s)
    (hstep : os.step s = some os') :
    Held setup none os' := by
  have hrunning : ¬(os.failed = true ∨ os.dangling = true) := by
    rw [h.running, h.alive]
    decide
  unfold ExitOS.step at hstep
  rw [if_neg hrunning] at hstep
  cases s with
  | syscall hwThread kind next => exact h.syscall hregular hstep
  | memResp id next =>
    obtain ⟨call, hfind, hnext⟩ := bind_eq_some_iff.1 hstep
    split at hnext
    case isFalse => cases hnext
    case isTrue hstatus =>
      cases hnext
      exact h.post hfind (by rw [hstatus]; exact nofun) (hregular call hfind)
  | coreEvent hwThread next =>
    obtain ⟨id, hslot, hbind⟩ := bind_eq_some_iff.1 hstep
    obtain ⟨call, hfind, hnext⟩ := bind_eq_some_iff.1 hbind
    split at hnext
    case isFalse => cases hnext
    case isTrue hcase =>
      cases hnext
      exact h.post hfind (by rw [hcase.1]; exact nofun) (hregular id hslot call hfind)
  | wake id =>
    obtain ⟨call, hfind, hnext⟩ := bind_eq_some_iff.1 hstep
    split at hnext
    case isFalse => cases hnext
    case isTrue hcase =>
      cases hnext
      exact h.post hfind (by rw [hcase.1]; exact nofun) nofun
  | userFault pid =>
    cases hstep
    refine Held.pageFaultHandler ?_ hregular
    refine ⟨h.pool.congr rfl rfl rfl rfl le_rfl, ?_, h.settled, h.running, h.alive, h.halted,
      h.served⟩
    refine ⟨h.calls.known, h.calls.slots, fun info hmem id hid => ?_, ?_⟩
    · rcases mem_append.1 hmem with hold | hnew
      · exact h.calls.faults info hold id hid
      · obtain rfl := mem_singleton.1 hnew
        cases hid
    · rw [filterMap_append]
      exact (append_nil _).symm ▸ h.calls.nodup
  | faultDone =>
    dsimp only at hstep
    split at hstep
    case h_1 => cases hstep
    case h_2 info rest hfaults =>
      cases hstep
      obtain ⟨hheld, hthreads, hprocesses⟩ := h.faultDone hfaults
      have hserved : os.Served os.pendingFault.tail := hregular
      rw [hfaults] at hserved
      exact hheld.serve (hserved.congr hthreads hprocesses)

theorem idle_held (setup : ExitSetup) : Held setup none (idle setup) where
  pool := by
    refine ⟨?_, fun hwThread hmem => ⟨hmem, rfl⟩, fun tid process hfind => ?_, nofun,
      fun hwThread hmem => .inl hmem⟩
    · refine (nodup_range.product nodup_range).map fun p q heq => ?_
      obtain ⟨hcore, hthread⟩ := HwThreadID.mk.inj heq
      exact Prod.ext hcore hthread
    · rw [idle, OrderedMap.find?_empty] at hfind
      cases hfind
  calls := by
    refine ⟨fun id call hfind => ?_, nofun, nofun, nodup_nil⟩
    cases hfind
  settled id call hfind := by
    cases hfind
  running := rfl
  alive := rfl
  halted := nofun
  served := nofun

theorem Held.startAll {tids : List Nat} (h : Held setup none os) (hnodup : tids.Nodup)
    (hfresh : ∀ tid ∈ tids, os.processes.find? tid = none)
    (hlt : ∀ tid ∈ tids, tid < os.currentTid) :
    Held setup none (os.startAll tids) := by
  induction tids generalizing os with
  | nil => exact h
  | cons tid rest ih =>
    obtain ⟨hnotMem, hnodup'⟩ := nodup_cons.1 hnodup
    unfold ExitOS.startAll
    rw [foldl_cons]
    cases hnew : os.newThread tid tid with
    | none =>
      exact ih h hnodup' (fun tid' hmem => hfresh tid' (mem_cons_of_mem _ hmem))
        fun tid' hmem => hlt tid' (mem_cons_of_mem _ hmem)
    | some os₁ =>
      obtain ⟨hheld, -, -, htid, hkept, -⟩ :=
        h.newThread (hfresh tid mem_cons_self) (hlt tid mem_cons_self) hnew
      refine ih hheld hnodup' (fun tid' hmem => ?_) fun tid' hmem => ?_
      · have hne : tid' ≠ tid := fun heq => hnotMem (heq ▸ hmem)
        exact (hkept tid' hne).trans (hfresh tid' (mem_cons_of_mem _ hmem))
      · exact htid ▸ hlt tid' (mem_cons_of_mem _ hmem)

theorem initial_held (setup : ExitSetup) : Held setup none (initial setup) := by
  refine (idle_held setup).startAll ?_ (fun tid _ => OrderedMap.find?_empty _) fun tid hmem => ?_
  · exact setup.tids_perm.nodup_iff.2 nodup_range'
  · obtain ⟨i, hi, rfl⟩ := mem_range'.1 (setup.tids_perm.mem_iff.1 hmem)
    show 100 + 1 * i < 100 + setup.tids.length
    omega

theorem Held.sound (h : Held setup none os) : Sound setup os :=
  { h with
    pool := h.pool.nodup
    owned _ hmem := h.pool.owned hmem }

/-- Hardware threads, halts, process objects and page faults are right in regular runs. -/
theorem released_of_regular (setup : ExitSetup) (ops : List ExitStep)
    (hregular : StepsMeet step Regular (initial setup) ops) :
    Throughout step (Sound setup) (initial setup) ops := by
  have hinvariant := throughout_of_stepsMeet
    (fun os s os' (h : Held setup none os) hok hstep => h.step hok hstep)
    (initial_held setup) hregular
  exact hinvariant.imp fun os h => h.sound

/-- One process on a core with four hardware threads. -/
def oneCore : ExitSetup where
  coreCount := 1
  hardwareThreadCount := 4
  tids := [100]
  tids_perm := List.Perm.refl [100]
  length_le := by decide

/-- Threads and processes come and go; a thread faults in a call, and is woken. -/
def someExits : List ExitStep :=
  [.syscall ⟨0, 0⟩ .clone .access, .memResp 0 .finish, .syscall ⟨0, 1⟩ .other .fault,
    .userFault 100, .faultDone, .memResp 1 .block, .faultDone, .wake 1,
    .syscall ⟨0, 1⟩ .fork .block, .coreEvent ⟨0, 1⟩ .finish, .syscall ⟨0, 2⟩ .exit .finish,
    .syscall ⟨0, 1⟩ .clone .finish, .syscall ⟨0, 1⟩ .exit .finish,
    .syscall ⟨0, 0⟩ .exitGroup .finish]

theorem released_of_regular_someExits :
    Throughout step (Sound oneCore) (initial oneCore) someExits :=
  released_of_regular oneCore someExits (by decide +kernel)

def twoCores : ExitSetup where
  coreCount := 2
  hardwareThreadCount := 1
  tids := [100]
  tids_perm := List.Perm.refl [100]
  length_le := by decide

/-- A thread is started on the second core, and its group ends. -/
def endFromFirstCore : List ExitStep :=
  [.syscall ⟨0, 0⟩ .clone .finish, .syscall ⟨0, 0⟩ .exitGroup .finish]

/-- The halt of the other thread is sent to the core of the caller. -/
theorem halt_for_wrong_core :
    ¬∀ (setup : ExitSetup) (ops : List ExitStep),
      Throughout step (Sound setup) (initial setup) ops := by
  intro hall
  obtain ⟨final, hrun, hhistory⟩ := map_eq_some_iff.1
    (show (runOps step (initial twoCores) endFromFirstCore).map history = some
      [.responded ⟨0, 0⟩ 100 false, .exitGroup [⟨1, 0⟩] [⟨0, 0⟩], .responded ⟨0, 0⟩ 100 true] by
      decide +kernel)
  have hsound := hall twoCores endFromFirstCore endFromFirstCore final prefix_rfl hrun
  have hhalted := hsound.halted [⟨1, 0⟩] [⟨0, 0⟩] (by
    rw [hhistory]
    exact mem_cons_of_mem _ mem_cons_self)
  exact absurd hhalted (by decide)

end Steps

end SstElements.VanadisOS.ExitOS
