import SstElements.VanadisOS.ThreadExit

/-!
# Hardware threads and calls

The pool, the table of the hardware threads and the process objects agree; each call has
its process object and its hardware thread.  Both are kept by new threads, by threads that
leave, and by calls that end.
-/

namespace SstElements.VanadisOS.ExitOS

open Library Function List Option

variable {setup : ExitSetup} {os os' : ExitOS} {tid pid id : Nat} {process : ProcessInfo}
  {call : ThreadCall} {hwThread : HwThreadID}

structure Pool (setup : ExitSetup) (os : ExitOS) : Prop where
  nodup : os.availHwThreads.Nodup
  free : ∀ hwThread ∈ os.availHwThreads, hwThread ∈ hwThreads setup ∧ os.process hwThread = none
  placed : ∀ tid process, os.processes.find? tid = some process → process.tid = tid ∧
    process.hwThread ∈ hwThreads setup ∧ os.process process.hwThread = some tid ∧
    os.threadMap tid = true ∧ tid < os.currentTid
  occupied : ∀ hwThread tid, os.process hwThread = some tid → ∃ process,
    os.processes.find? tid = some process ∧ process.hwThread = hwThread
  covered : ∀ hwThread ∈ hwThreads setup,
    hwThread ∈ os.availHwThreads ∨ (os.process hwThread).isSome

section

variable (h : Pool setup os)
include h

theorem Pool.congr (havail : os'.availHwThreads = os.availHwThreads)
    (hthreads : os'.threadMap = os.threadMap) (hprocesses : os'.processes = os.processes)
    (hprocess : os'.process = os.process) (htid : os.currentTid ≤ os'.currentTid) :
    Pool setup os' where
  nodup := havail ▸ h.nodup
  free := by
    rw [havail, hprocess]
    exact h.free
  placed := by
    rw [hthreads, hprocesses, hprocess]
    intro tid process hfind
    obtain ⟨heq, hmem, hplace, hthread, hlt⟩ := h.placed tid process hfind
    exact ⟨heq, hmem, hplace, hthread, hlt.trans_le htid⟩
  occupied := by
    rw [hprocesses, hprocess]
    exact h.occupied
  covered := by
    rw [havail, hprocess]
    exact h.covered

theorem Pool.tid_unique {tid' : Nat} {process' : ProcessInfo}
    (hfind : os.processes.find? tid = some process)
    (hfind' : os.processes.find? tid' = some process')
    (heq : process'.hwThread = process.hwThread) :
    tid' = tid := by
  have hplace := (h.placed tid process hfind).2.2.1
  have hplace' := (h.placed tid' process' hfind').2.2.1
  rw [heq, hplace] at hplace'
  exact (some.inj hplace').symm

theorem Pool.owned (hmem : hwThread ∈ hwThreads setup) : os.Owned hwThread := by
  by_cases havail : hwThread ∈ os.availHwThreads
  · refine .inl ⟨havail, (h.free hwThread havail).2, fun tid process hfind heq => ?_⟩
    have hplace := (h.placed tid process hfind).2.2.1
    rw [heq, (h.free hwThread havail).2] at hplace
    cases hplace
  · obtain ⟨tid, htid⟩ := isSome_iff_exists.1 ((h.covered hwThread hmem).resolve_left havail)
    refine .inr ⟨havail, tid, htid, fun tid' => ⟨?_, ?_⟩⟩
    · rintro ⟨process, hfind, heq⟩
      have hplace := (h.placed tid' process hfind).2.2.1
      rw [heq, htid] at hplace
      exact (some.inj hplace).symm
    · rintro rfl
      exact h.occupied hwThread tid' htid

theorem Pool.newThread (hfresh : os.processes.find? tid = none) (hlt : tid < os.currentTid)
    (hnew : os.newThread tid pid = some os') :
    Pool setup os' ∧ ∃ hwThread, os' = { os with
      availHwThreads := os'.availHwThreads
      threadMap := os'.threadMap
      processes := os.processes.insert tid ⟨pid, tid, hwThread⟩
      process := os'.process } := by
  unfold ExitOS.newThread allocHwThread at hnew
  obtain ⟨⟨hwThread, os₁⟩, halloc, rfl⟩ := map_eq_some_iff.1 hnew
  split at halloc
  case h_1 => cases halloc
  case h_2 hwThread' rest havail =>
    obtain ⟨rfl, rfl⟩ := Prod.mk.inj (some.inj halloc)
    refine ⟨?_, hwThread', rfl⟩
    have hnodup := havail ▸ h.nodup
    have hfree := h.free hwThread' (havail ▸ mem_cons_self)
    obtain ⟨hnotMem, hrest⟩ := nodup_cons.1 hnodup
    dsimp only [setProcess, setThread]
    constructor
    case nodup => exact hrest
    case free =>
      intro hw hmem
      obtain ⟨hin, hnone⟩ := h.free hw (havail ▸ mem_cons_of_mem _ hmem)
      refine ⟨hin, ?_⟩
      have hne : hw ≠ hwThread' := fun heq => hnotMem (heq ▸ hmem)
      exact (update_of_ne hne _ _).trans hnone
    case placed =>
      intro tid' process hfind
      rw [OrderedMap.find?_insert] at hfind
      split at hfind
      case isTrue heq =>
        cases hfind
        subst heq
        exact ⟨rfl, hfree.1, update_self .., update_self .., hlt⟩
      case isFalse hne =>
        obtain ⟨heq, hmem, hplace, hthread, hlt'⟩ := h.placed tid' process hfind
        refine ⟨heq, hmem, ?_, ?_, hlt'⟩
        · have hother : process.hwThread ≠ hwThread' := by
            intro hsame
            rw [hsame, hfree.2] at hplace
            cases hplace
          exact (update_of_ne hother _ _).trans hplace
        · exact (update_of_ne hne _ _).trans hthread
    case occupied =>
      intro hw tid' hprocess
      dsimp only at hprocess ⊢
      by_cases heq : hw = hwThread'
      · rw [heq, update_self] at hprocess
        cases hprocess
        exact ⟨_, OrderedMap.find?_insert_self .., heq.symm⟩
      · rw [update_of_ne heq] at hprocess
        obtain ⟨process, hfind, hhw⟩ := h.occupied hw tid' hprocess
        refine ⟨process, ?_, hhw⟩
        have hne : tid' ≠ tid := by
          rintro rfl
          exact absurd (hfresh.symm.trans hfind) nofun
        rw [OrderedMap.find?_insert_of_ne _ _ hne]
        exact hfind
    case covered =>
      intro hw hmem
      dsimp only
      by_cases heq : hw = hwThread'
      · rw [heq, update_self]
        exact .inr rfl
      · rw [update_of_ne heq]
        rcases h.covered hw hmem with hin | hsome
        · rw [havail] at hin
          exact .inl ((mem_cons.1 hin).resolve_left heq)
        · exact .inr hsome

theorem Pool.remove (hfind : os.processes.find? tid = some process)
    (havail : os'.availHwThreads = os.availHwThreads ++ [process.hwThread])
    (hthreads : os'.threadMap = update os.threadMap tid false)
    (hprocesses : os'.processes = os.processes.erase tid)
    (hprocess : os'.process = update os.process process.hwThread none)
    (hcurrent : os'.currentTid = os.currentTid) :
    Pool setup os' := by
  obtain ⟨htid, hmem, hplace, -, -⟩ := h.placed tid process hfind
  have hnotMem : process.hwThread ∉ os.availHwThreads := by
    intro hin
    rw [(h.free _ hin).2] at hplace
    cases hplace
  constructor
  case nodup =>
    rw [havail]
    exact nodup_append.2 ⟨h.nodup, nodup_singleton _, fun a ha b hb heq =>
      hnotMem (mem_singleton.1 hb ▸ heq ▸ ha)⟩
  case free =>
    intro hw hin
    rw [havail] at hin
    rw [hprocess]
    rcases mem_append.1 hin with hold | hnew
    · have hne : hw ≠ process.hwThread := fun heq => hnotMem (heq ▸ hold)
      rw [update_of_ne hne]
      exact h.free hw hold
    · rw [mem_singleton.1 hnew, update_self]
      exact ⟨hmem, rfl⟩
  case placed =>
    intro tid' process' hfind'
    rw [hprocesses, OrderedMap.find?_erase] at hfind'
    split at hfind'
    case isTrue => cases hfind'
    case isFalse hne =>
      obtain ⟨htid', hmem', hplace', hthread', hlt'⟩ := h.placed tid' process' hfind'
      have hother : process'.hwThread ≠ process.hwThread :=
        fun heq => hne (h.tid_unique hfind hfind' heq)
      rw [hprocess, hthreads, hcurrent, update_of_ne hother, update_of_ne hne]
      exact ⟨htid', hmem', hplace', hthread', hlt'⟩
  case occupied =>
    intro hw tid' hsome
    rw [hprocess] at hsome
    by_cases heq : hw = process.hwThread
    · rw [heq, update_self] at hsome
      cases hsome
    · rw [update_of_ne heq] at hsome
      obtain ⟨process', hfind', hhw⟩ := h.occupied hw tid' hsome
      refine ⟨process', ?_, hhw⟩
      have hne : tid' ≠ tid := by
        rintro rfl
        rw [hfind] at hfind'
        exact heq (some.inj hfind' ▸ hhw.symm)
      rw [hprocesses, OrderedMap.find?_erase_of_ne _ hne]
      exact hfind'
  case covered =>
    intro hw hin
    rw [havail, hprocess]
    by_cases heq : hw = process.hwThread
    · exact .inl (mem_append_right _ (mem_singleton.2 heq))
    · rw [update_of_ne heq]
      exact (h.covered hw hin).imp_left (mem_append_left _)

end

/-- Calls have their process and their hardware thread, and the faults of calls are theirs. -/
structure Calls (os : ExitOS) : Prop where
  known : ∀ id call, os.syscalls.find? id = some call → id < os.created ∧
    os.syscall call.hwThread = some id ∧ ∃ process,
      os.processes.find? call.process = some process ∧ process.hwThread = call.hwThread
  slots : ∀ hwThread id, os.syscall hwThread = some id → ∃ call,
    os.syscalls.find? id = some call ∧ call.hwThread = hwThread
  faults : ∀ info ∈ os.pendingFault, ∀ id, info.syscall = some id → ∃ call process,
    os.syscalls.find? id = some call ∧ call.status = .faulting ∧
      os.processes.find? call.process = some process ∧ process.pid = info.pid
  nodup : (os.pendingFault.filterMap ThreadFault.syscall).Nodup

section Calls

section

variable (h : Calls os)
include h

theorem Calls.setProcesses (hsyscalls : os'.syscalls = os.syscalls)
    (hsyscall : os'.syscall = os.syscall) (hcreated : os'.created = os.created)
    (hfaults : os'.pendingFault = os.pendingFault)
    (hprocesses : ∀ id call, os.syscalls.find? id = some call →
      os'.processes.find? call.process = os.processes.find? call.process) :
    Calls os' where
  known id call hfind := by
    rw [hsyscalls] at hfind
    rw [hsyscall, hcreated, hprocesses id call hfind]
    exact h.known id call hfind
  slots := by
    rw [hsyscall, hsyscalls]
    exact h.slots
  faults info hmem id hid := by
    rw [hfaults] at hmem
    obtain ⟨call, process, hfind, hstatus, hprocess, hpid⟩ := h.faults info hmem id hid
    refine ⟨call, process, ?_, hstatus, ?_, hpid⟩
    · rw [hsyscalls]
      exact hfind
    · rw [hprocesses id call hfind]
      exact hprocess
  nodup := hfaults ▸ h.nodup

theorem Calls.notMem_faults (hfind : os.syscalls.find? id = some call)
    (hstatus : call.status ≠ .faulting) :
    id ∉ os.pendingFault.filterMap ThreadFault.syscall := by
  intro hmem
  obtain ⟨info, hinfo, hid⟩ := mem_filterMap.1 hmem
  obtain ⟨call', process, hfind', hstatus', -⟩ := h.faults info hinfo id hid
  cases hfind.symm.trans hfind'
  exact hstatus hstatus'

theorem Calls.setStatus {status : CallStatus} {faults : List ThreadFault}
    (hfind : os.syscalls.find? id = some call)
    (hfaults : ∀ info ∈ faults, ∀ id', info.syscall = some id' →
      (id' ≠ id ∧ info ∈ os.pendingFault) ∨ (id' = id ∧ status = .faulting ∧ ∃ process,
        os.processes.find? call.process = some process ∧ process.pid = info.pid))
    (hnodup : (faults.filterMap ThreadFault.syscall).Nodup) :
    Calls { os with
      syscalls := os.syscalls.insert id { call with status := status }
      pendingFault := faults } where
  known id' call' hfind' := by
    rw [OrderedMap.find?_insert] at hfind'
    split at hfind'
    case isTrue heq =>
      cases hfind'
      rw [heq]
      exact h.known id call hfind
    case isFalse => exact h.known id' call' hfind'
  slots hw id' hslot := by
    obtain ⟨call', hfind', hhw⟩ := h.slots hw id' hslot
    by_cases heq : id' = id
    · subst heq
      cases hfind.symm.trans hfind'
      exact ⟨_, OrderedMap.find?_insert_self .., hhw⟩
    · refine ⟨call', ?_, hhw⟩
      rw [OrderedMap.find?_insert_of_ne _ _ heq]
      exact hfind'
  faults info hmem id' hid := by
    rcases hfaults info hmem id' hid with ⟨hne, hold⟩ | ⟨rfl, hstatus, process, hprocess, hpid⟩
    · rw [OrderedMap.find?_insert_of_ne _ _ hne]
      exact h.faults info hold id' hid
    · exact ⟨_, process, OrderedMap.find?_insert_self .., hstatus, hprocess, hpid⟩
  nodup := hnodup

theorem Calls.create (hslot : os.syscall call.hwThread = none)
    (hprocess : ∃ process, os.processes.find? call.process = some process ∧
      process.hwThread = call.hwThread) :
    Calls { os with
      created := os.created + 1
      syscalls := os.syscalls.insert os.created call
      syscall := update os.syscall call.hwThread (some os.created) } where
  known id' call' hfind' := by
    dsimp only at hfind' ⊢
    rw [OrderedMap.find?_insert] at hfind'
    split at hfind'
    case isTrue heq =>
      cases hfind'
      rw [heq, update_self]
      exact ⟨Nat.lt_succ_self _, rfl, hprocess⟩
    case isFalse =>
      obtain ⟨hlt, hslot', hprocess'⟩ := h.known id' call' hfind'
      refine ⟨Nat.lt_succ_of_lt hlt, ?_, hprocess'⟩
      have hne : call'.hwThread ≠ call.hwThread := by
        intro heq
        rw [heq, hslot] at hslot'
        cases hslot'
      rw [update_of_ne hne]
      exact hslot'
  slots hw id' hsome := by
    dsimp only at hsome ⊢
    by_cases heq : hw = call.hwThread
    · rw [heq, update_self] at hsome
      cases hsome
      exact ⟨call, OrderedMap.find?_insert_self .., heq.symm⟩
    · rw [update_of_ne heq] at hsome
      obtain ⟨call', hfind', hhw⟩ := h.slots hw id' hsome
      have hne := (h.known id' call' hfind').1.ne
      refine ⟨call', ?_, hhw⟩
      rw [OrderedMap.find?_insert_of_ne _ _ hne]
      exact hfind'
  faults info hmem id' hid := by
    obtain ⟨call', process, hfind', hrest⟩ := h.faults info hmem id' hid
    have hne := (h.known id' call' hfind').1.ne
    refine ⟨call', process, ?_, hrest⟩
    rw [OrderedMap.find?_insert_of_ne _ _ hne]
    exact hfind'
  nodup := h.nodup

theorem Calls.id_unique {id' : Nat} {call' : ThreadCall} (hfind : os.syscalls.find? id = some call)
    (hfind' : os.syscalls.find? id' = some call') (heq : call'.hwThread = call.hwThread) :
    id' = id := by
  have hslot := (h.known id call hfind).2.1
  have hslot' := (h.known id' call' hfind').2.1
  rw [heq, hslot] at hslot'
  exact (some.inj hslot').symm

theorem Calls.finish (hfind : os.syscalls.find? id = some call) (hstatus : call.status ≠ .faulting)
    (hsyscalls : os'.syscalls = os.syscalls.erase id)
    (hsyscall : os'.syscall = update os.syscall call.hwThread none)
    (hcreated : os'.created = os.created) (hfaults : os'.pendingFault = os.pendingFault)
    (hprocesses : ∀ tid, tid ≠ call.process → os'.processes.find? tid = os.processes.find? tid) :
    Calls os' where
  known id' call' hfind' := by
    rw [hsyscalls, OrderedMap.find?_erase] at hfind'
    split at hfind'
    case isTrue => cases hfind'
    case isFalse hne =>
      obtain ⟨hlt, hslot, process, hprocess, hhw⟩ := h.known id' call' hfind'
      have hother : call'.hwThread ≠ call.hwThread := fun heq => hne (h.id_unique hfind hfind' heq)
      have hown : call'.process ≠ call.process := by
        intro heq
        obtain ⟨-, -, process', hprocess', hhw'⟩ := h.known id call hfind
        rw [heq, hprocess'] at hprocess
        cases hprocess
        exact hother (hhw.symm.trans hhw')
      rw [hsyscall, hcreated, update_of_ne hother, hprocesses _ hown]
      exact ⟨hlt, hslot, process, hprocess, hhw⟩
  slots hw id' hsome := by
    rw [hsyscall] at hsome
    by_cases heq : hw = call.hwThread
    · rw [heq, update_self] at hsome
      cases hsome
    · rw [update_of_ne heq] at hsome
      obtain ⟨call', hfind', hhw⟩ := h.slots hw id' hsome
      refine ⟨call', ?_, hhw⟩
      have hne : id' ≠ id := by
        rintro rfl
        cases hfind.symm.trans hfind'
        exact heq hhw.symm
      rw [hsyscalls, OrderedMap.find?_erase_of_ne _ hne]
      exact hfind'
  faults info hmem id' hid := by
    rw [hfaults] at hmem
    obtain ⟨call', process, hfind', hstatus', hprocess, hpid⟩ := h.faults info hmem id' hid
    have hne : id' ≠ id := by
      rintro rfl
      cases hfind.symm.trans hfind'
      exact hstatus hstatus'
    have hother : call'.process ≠ call.process := by
      intro heq
      obtain ⟨-, -, process', hprocess', hhw'⟩ := h.known id' call' hfind'
      obtain ⟨-, -, process'', hprocess'', hhw''⟩ := h.known id call hfind
      rw [heq, hprocess''] at hprocess'
      cases hprocess'
      exact hne (h.id_unique hfind hfind' (hhw'.symm.trans hhw''))
    refine ⟨call', process, ?_, hstatus', ?_, hpid⟩
    · rw [hsyscalls, OrderedMap.find?_erase_of_ne _ hne]
      exact hfind'
    · rw [hprocesses _ hother]
      exact hprocess
  nodup := hfaults ▸ h.nodup

end

end Calls

/-- A call in hand may be one that ends its group; the others are not. -/
structure Held (setup : ExitSetup) (hand : Option Nat) (os : ExitOS) : Prop where
  pool : Pool setup os
  calls : Calls os
  settled : ∀ id call, os.syscalls.find? id = some call → hand ≠ some id →
    call.kind ≠ .exitGroup
  running : os.failed = false
  alive : os.dangling = false
  halted : ∀ group halted, .exitGroup group halted ∈ os.history → halted = group
  served : ∀ pid served threads, .fault pid served threads ∈ os.history → threads ≠ [] →
    served = true

end SstElements.VanadisOS.ExitOS
