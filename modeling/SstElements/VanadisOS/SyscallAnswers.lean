import SstElements.VanadisOS.SyscallInvariant

/-!
# System calls are answered

The faults of a queue are served in order; each of them that is done finds its page in the
table.  So the call of a fault goes on with its access, and the invariant is kept by every
regular step.
-/

namespace SstElements.VanadisOS.SyscallOS

open Library Mmu Function List Option

variable {pageShift : Nat} {os os' os₁ : SyscallOS} {id : Nat} {call : Syscall}
  {info : PageFault} {faults rest : List PageFault}

section Pages

theorem mapped_mmuMap (os : SyscallOS) (info : PageFault) (ppn perms : Nat) :
    (os.mmuMap info.pid info.vpn ppn perms).Mapped info := by
  unfold Mapped mmuMap AddressSpace.map
  dsimp only
  rw [update_self, OrderedMap.find?_insert_self]
  rfl

variable {pid vpn ppn perms : Nat}

theorem Mapped.mmuMap (h : os.Mapped info) : (os.mmuMap pid vpn ppn perms).Mapped info := by
  unfold Mapped SyscallOS.mmuMap AddressSpace.map at *
  dsimp only
  by_cases hpid : info.pid = pid
  · rw [hpid, update_self, OrderedMap.find?_insert]
    split
    · rfl
    · rwa [hpid] at h
  · rwa [update_of_ne hpid]

theorem virtMemMap_mmuMap (os : SyscallOS) (pid vpn ppn perms pid' : Nat) :
    ((os.mmuMap pid vpn ppn perms).processes.space pid').virtMemMap =
      (os.processes.space pid').virtMemMap := by
  unfold mmuMap AddressSpace.map
  dsimp only
  by_cases hpid : pid' = pid
  · rw [hpid, update_self]
  · rw [update_of_ne hpid]

theorem Servable.mmuMap (h : os.Servable pageShift info) :
    (os.mmuMap pid vpn ppn perms).Servable pageShift info := by
  unfold Servable at *
  rw [virtMemMap_mmuMap]
  exact ⟨h.1, fun hsyscall => (h.2 hsyscall).imp_left Mapped.mmuMap⟩

theorem regionAction_of_immediate {cache : ElfPageCache} {space : AddressSpace} {faultPerms : Nat}
    (h : faultAction pageShift cache space vpn faultPerms = .device ppn perms ∨
      faultAction pageShift cache space vpn faultPerms = .cached ppn perms true) :
    ∃ region, space.virtMemMap.findRegion (pageStart pageShift vpn + 1) = some region ∧
      space.pageTable.find? vpn = none ∧ faultAction pageShift cache space vpn faultPerms =
        regionAction pageShift cache region vpn := by
  unfold faultAction at h ⊢
  cases hregion : space.virtMemMap.findRegion (pageStart pageShift vpn + 1) with
  | none => simp [hregion] at h
  | some region =>
    refine ⟨region, rfl, ?_⟩
    rw [hregion] at h
    dsimp only at h ⊢
    split at h
    case isFalse => simp at h
    case isTrue hperms =>
      rw [if_pos hperms]
      cases hpte : space.pageTable.find? vpn with
      | none => exact ⟨rfl, rfl⟩
      | some pte =>
        rw [hpte] at h
        dsimp only at h
        split at h <;> simp at h

theorem transfers_mmuMap {info' : PageFault}
    (haction : faultAction pageShift os.elfPageCache (os.processes.space info.pid) info.vpn
        info.faultPerms = .device ppn perms ∨
      faultAction pageShift os.elfPageCache (os.processes.space info.pid) info.vpn
        info.faultPerms = .cached ppn perms true)
    (h : (os.mmuMap info.pid info.vpn ppn perms).transfers pageShift info' = false) :
    os.transfers pageShift info' = false := by
  by_cases hpid : info'.pid = info.pid
  · by_cases hvpn : info'.vpn = info.vpn
    · obtain ⟨region, hregion, hpte, hregionAction⟩ := regionAction_of_immediate haction
      rw [hregionAction] at haction
      unfold transfers
      rw [hpid, hvpn]
      have hcases : faultAction pageShift os.elfPageCache (os.processes.space info.pid) info.vpn
          info'.faultPerms = .deny ∨
          faultAction pageShift os.elfPageCache (os.processes.space info.pid) info.vpn
            info'.faultPerms = regionAction pageShift os.elfPageCache region info.vpn := by
        unfold faultAction
        rw [hregion]
        dsimp only
        split
        · rw [hpte]
          exact .inr rfl
        · exact .inl rfl
      rcases hcases with hdeny | hsame
      · rw [hdeny, Bool.and_false]
      · rw [hsame]
        rcases haction with hdevice | hcached
        · rw [hdevice, Bool.and_false]
        · rw [hcached]
          exact Bool.and_false _
    · have hsame : faultAction pageShift os.elfPageCache
          ((os.processes.space info.pid).map info.vpn ppn perms) info'.vpn info'.faultPerms =
          faultAction pageShift os.elfPageCache (os.processes.space info.pid) info'.vpn
            info'.faultPerms := by
        unfold faultAction AddressSpace.map
        rw [OrderedMap.find?_insert_of_ne _ _ hvpn]
      unfold transfers mmuMap at h
      dsimp only at h
      rw [hpid, update_self, hsame] at h
      unfold transfers
      rw [hpid]
      exact h
  · unfold transfers mmuMap at h
    dsimp only at h
    rw [update_of_ne hpid] at h
    exact h

theorem Served.mmuMap
    (haction : faultAction pageShift os.elfPageCache (os.processes.space info.pid) info.vpn
        info.faultPerms = .device ppn perms ∨
      faultAction pageShift os.elfPageCache (os.processes.space info.pid) info.vpn
        info.faultPerms = .cached ppn perms true)
    (h : os.Served pageShift faults) :
    (os.mmuMap info.pid info.vpn ppn perms).Served pageShift faults := by
  induction faults with
  | nil => trivial
  | cons info' rest ih =>
    exact ⟨h.1.mmuMap, fun htransfers => ih (h.2 (transfers_mmuMap haction htransfers))⟩

theorem Served.congr (h : os.Served pageShift faults) (hprocesses : os'.processes = os.processes)
    (hcache : os'.elfPageCache = os.elfPageCache) :
    os'.Served pageShift faults := by
  induction faults with
  | nil => trivial
  | cons info rest ih =>
    obtain ⟨hservable, hrest⟩ := h
    refine ⟨?_, fun htransfers => ih (hrest ?_)⟩
    · unfold Servable Mapped at *
      rw [hprocesses]
      exact hservable
    · unfold transfers at *
      rwa [hprocesses, hcache] at htransfers

end Pages

section Faults

variable {cache : ElfPageCache} {space : AddressSpace} {vpn faultPerms : Nat}

theorem findRegion_of_faultAction (h : faultAction pageShift cache space vpn faultPerms ≠ .deny) :
    (space.virtMemMap.findRegion (pageStart pageShift vpn + 1)).isSome := by
  unfold faultAction at h
  split at h
  case h_1 => exact absurd rfl h
  case h_2 region hregion => rw [hregion]; rfl

theorem regionAction_cases
    (cache : ElfPageCache) (region : MemoryRegion MemoryBacking) (vpn : Nat) :
    regionAction pageShift cache region vpn ≠ .deny ∧
      regionAction pageShift cache region vpn ≠ .present := by
  unfold regionAction
  split
  · exact ⟨nofun, nofun⟩
  · exact ⟨nofun, nofun⟩
  · split <;> exact ⟨nofun, nofun⟩
  · exact ⟨nofun, nofun⟩

theorem faultAction_ne_deny
    (h : (space.virtMemMap.findRegion (pageStart pageShift vpn + 1)).any fun region =>
      checkPerms faultPerms region.perms) :
    faultAction pageShift cache space vpn faultPerms ≠ .deny := by
  obtain ⟨region, hregion, hperms⟩ := (Option.any_eq_true _ _).1 h
  unfold faultAction
  rw [hregion]
  dsimp only
  rw [if_pos hperms]
  split
  · split <;> nofun
  · exact (regionAction_cases cache region vpn).1

theorem pageTable_of_present (h : faultAction pageShift cache space vpn faultPerms = .present) :
    (space.pageTable.find? vpn).isSome := by
  unfold faultAction at h
  split at h
  case h_1 => cases h
  case h_2 region _ =>
    split at h
    case isFalse => cases h
    case isTrue =>
      split at h
      case h_1 pte hpte => rw [hpte]; rfl
      case h_2 => exact absurd h (regionAction_cases cache region vpn).2

theorem allocPage_spec {perms page : Nat}
    (hstart : ((os.processes.space info.pid).virtMemMap.findRegion
      (pageStart pageShift info.vpn)).isSome)
    (h : os.allocPage pageShift info perms = some (os₁, page)) :
    ∃ freePages, os₁ = { os.mmuMap info.pid info.vpn page perms with
      freePages := freePages } := by
  obtain ⟨region, hregion⟩ := isSome_iff_exists.1 hstart
  unfold allocPage at h
  split at h
  case h_1 => cases h
  case h_2 page' freePages _ =>
    dsimp only at h
    rw [hregion] at h
    cases h
    exact ⟨freePages, rfl⟩

theorem pageFault_spec {outcome : Option Bool} (hservable : os.Servable pageShift info)
    (h : os.pageFault pageShift info = some (os₁, outcome)) :
    (∃ processes elfPageCache freePages, os₁ = { os with
      processes := processes, elfPageCache := elfPageCache, freePages := freePages }) ∧
    ∀ success, outcome = some success →
      (success ∨ info.syscall.isSome → os₁.Mapped info) ∧
      os.transfers pageShift info = false ∧
      ∀ faults, os.Served pageShift faults → os₁.Served pageShift faults := by
  unfold pageFault at h
  split at h
  case isFalse hthread =>
    cases h
    refine ⟨⟨_, _, _, rfl⟩, fun success heq => ?_⟩
    cases heq
    refine ⟨fun hcase => ?_, by simp [transfers, hthread], fun _ => id⟩
    rcases hservable.2 (hcase.resolve_left Bool.false_ne_true) with hmapped | ⟨hthread', -⟩
    · exact hmapped
    · exact absurd hthread' hthread
  case isTrue hthread =>
    split at h
    case h_1 hdeny =>
      cases h
      refine ⟨⟨_, _, _, rfl⟩, fun success heq => ?_⟩
      cases heq
      refine ⟨fun hcase => ?_, by simp [transfers, hdeny], fun _ => id⟩
      rcases hservable.2 (hcase.resolve_left Bool.false_ne_true) with hmapped | ⟨-, hperms⟩
      · exact hmapped
      · exact absurd hdeny (faultAction_ne_deny hperms)
    case h_2 hpresent =>
      cases h
      refine ⟨⟨_, _, _, rfl⟩, fun success _ => ⟨fun _ => pageTable_of_present hpresent, ?_,
        fun _ => id⟩⟩
      simp [transfers, hpresent]
    case h_3 origPPN perms hcopy =>
      obtain ⟨⟨os₂, page⟩, halloc, heq⟩ := map_eq_some_iff.1 h
      cases heq
      have hregion := findRegion_of_faultAction (ne_of_eq_of_ne hcopy nofun)
      obtain ⟨freePages, rfl⟩ := allocPage_spec (hservable.1 hregion) halloc
      exact ⟨⟨_, _, _, rfl⟩, nofun⟩
    case h_4 ppn perms hdevice =>
      cases h
      refine ⟨⟨_, _, _, rfl⟩, fun success _ => ⟨fun _ => mapped_mmuMap os info ppn perms, ?_,
        fun _ => Served.mmuMap (.inl hdevice)⟩⟩
      simp [transfers, hdevice]
    case h_5 ppn perms text hcached =>
      cases h
      refine ⟨⟨_, _, _, rfl⟩, fun success hsuccess => ?_⟩
      cases text with
      | false => cases hsuccess
      | true =>
        refine ⟨fun _ => mapped_mmuMap os info ppn perms, ?_,
          fun _ => Served.mmuMap (.inr hcached)⟩
        simp [transfers, hcached]
    case h_6 perms cache hfill =>
      obtain ⟨⟨os₂, page⟩, halloc, heq⟩ := map_eq_some_iff.1 h
      cases heq
      have hregion := findRegion_of_faultAction (ne_of_eq_of_ne hfill nofun)
      obtain ⟨freePages, rfl⟩ := allocPage_spec (hservable.1 hregion) halloc
      exact ⟨⟨_, _, _, rfl⟩, nofun⟩

theorem virtToPhys_of_mapped {virtAddr : Nat} {phys : Option Nat}
    (hmapped : (space.pageTable.find? (pageOf pageShift virtAddr)).isSome)
    (h : space.virtToPhys pageShift virtAddr = some phys) :
    phys.isSome := by
  obtain ⟨pte, hpte⟩ := isSome_iff_exists.1 hmapped
  obtain ⟨region, -, rfl⟩ := map_eq_some_iff.1 h
  rw [hpte]
  rfl

theorem Held.fini {success : Bool}
    (h : Held pageShift none { os with pendingFault := info :: rest })
    (hmapped : success ∨ info.syscall.isSome → os.Mapped info)
    (hfini : os.pageFaultFini pageShift info success = some os') :
    Held pageShift none { os' with pendingFault := rest } ∧
      os'.processes = os.processes ∧ os'.elfPageCache = os.elfPageCache := by
  unfold pageFaultFini at hfini
  split at hfini
  case h_1 id hsyscall =>
    obtain ⟨call, handler, hfind, hhandler, hpending, hinfo, hheld⟩ := h.resolve success hsyscall
    rw [hfind] at hfini
    obtain ⟨⟨call', length⟩, hrequest, rfl⟩ := map_eq_some_iff.1 hfini
    have hpage := hmapped (.inr (by rw [hsyscall]; rfl))
    unfold Syscall.getMemoryRequest at hrequest
    rw [hhandler] at hrequest
    obtain ⟨phys, hphys, heq⟩ := map_eq_some_iff.1 hrequest
    unfold Mapped at hpage
    rw [hinfo.pid, hinfo.vpn] at hpage
    cases phys with
    | none => exact absurd (virtToPhys_of_mapped hpage hphys) (by simp)
    | some addr =>
      cases heq
      refine ⟨?_, rfl, rfl⟩
      have hcall : Syscall.handler { call with
          pendingMem := call.pendingMem ++ [os.requests] } = some handler := hhandler
      dsimp only
      rw [hcall]
      refine hheld.request (isSome_iff_exists.2 ⟨call, hfind⟩) ?_ ?_ ?_
      · exact h.slots _ call hfind
      · exact isSome_iff_exists.2 ⟨handler, hcall⟩
      · exact congrArg (· ++ [os.requests]) hpending
  case h_2 hsyscall =>
    split at hfini
    case isTrue hcase =>
      obtain ⟨hsuccess, hnone⟩ := hcase
      have hpage := hmapped (.inl hsuccess)
      unfold Mapped at hpage
      rw [isNone_iff_eq_none.1 hnone] at hpage
      cases hpage
    case isFalse =>
      cases hfini
      refine ⟨?_, rfl, rfl⟩
      have hfaults (id' : Nat) : faultsOf rest id' = faultsOf (info :: rest) id' := by
        rw [faultsOf_cons, hsyscall]
        rfl
      exact (h.setFaults hfaults).faultHandled

theorem Held.serve (h : Held pageShift none { os with pendingFault := faults })
    (hserved : os.Served pageShift faults) (hserve : os.serveFaults pageShift faults = some os') :
    Held pageShift none os' := by
  induction faults generalizing os with
  | nil =>
    cases hserve
    exact h
  | cons info rest ih =>
    obtain ⟨hservable, hrest⟩ := hserved
    unfold serveFaults at hserve
    split at hserve
    case h_1 => cases hserve
    case h_2 os₁ hfault =>
      obtain ⟨⟨processes, elfPageCache, freePages, rfl⟩, -⟩ := pageFault_spec hservable hfault
      cases hserve
      exact h.setMemory
    case h_3 os₁ success hfault =>
      obtain ⟨⟨processes, elfPageCache, freePages, hos₁⟩, hdone⟩ :=
        pageFault_spec hservable hfault
      obtain ⟨hmapped, htransfers, hkept⟩ := hdone success rfl
      obtain ⟨os₂, hfini, hnext⟩ := bind_eq_some_iff.1 hserve
      have hfirst : Held pageShift none { os₁ with pendingFault := info :: rest } := by
        rw [hos₁]
        exact h.setMemory
      obtain ⟨hheld, hprocesses, hcache⟩ := hfirst.fini hmapped hfini
      rw [if_neg (ne_true_of_eq_false hheld.running)] at hnext
      exact ih hheld ((hkept rest (hrest htransfers)).congr hprocesses hcache) hnext

theorem Held.pageFaultHandler
    (h : Held pageShift none { os with pendingFault := os.pendingFault ++ [info] })
    (hserved : os.pendingFault = [] → os.Served pageShift [info])
    (hhandler : os.pageFaultHandler pageShift info = some os') :
    Held pageShift none os' := by
  unfold SyscallOS.pageFaultHandler at hhandler
  split at hhandler
  case h_1 hnil =>
    rw [hnil] at h
    exact h.serve (hserved hnil) hhandler
  case h_2 =>
    cases hhandler
    exact h

end Faults

section Steps

theorem Held.post (h : Held pageShift (some id) os) (hfind : (os.syscalls.find? id).isSome)
    (hslot : os.running call.core call.hwThread = some id) (hpending : call.pendingMem = [])
    (hregular : os.RegularCall pageShift id call)
    (hpost : os.processSyscallPost pageShift id call = some os') :
    Held pageShift none os' := by
  unfold processSyscallPost at hpost
  split at hpost
  case h_1 ret _ _ =>
    cases hpost
    exact h.delete hfind hslot
  case h_2 hunfinished =>
    have hnot : ¬call.finished := by
      unfold Syscall.finished
      split
      case h_1 ret hprogram => exact absurd hpending (hunfinished ret hprogram)
      case h_2 => exact Bool.false_ne_true
    obtain ⟨⟨call', length⟩, hrequest, hnext⟩ := bind_eq_some_iff.1 hpost
    unfold Syscall.getMemoryRequest at hrequest
    unfold RegularCall RegularAccess at hregular
    cases hhandler : call.handler with
    | none =>
      rw [hhandler] at hrequest hregular
      cases hrequest
      have haddr := hregular.resolve_left hnot
      dsimp only at hnext
      rw [Syscall.causedPageFault, haddr, if_neg (by simp)] at hnext
      cases hnext
      exact h.block hfind hslot hhandler hpending
    | some handler =>
      rw [hhandler] at hrequest hregular
      obtain ⟨phys, hphys, heq⟩ := map_eq_some_iff.1 hrequest
      cases phys with
      | none =>
        cases heq
        obtain ⟨haddr, hserved⟩ := hregular hphys
        have hcall : Syscall.handler { call with
            pageFaultAddr := handler.getAddress
            pageFaultIsWrite := handler.isWrite } = some handler := hhandler
        dsimp only at hnext
        rw [Syscall.causedPageFault, if_pos (decide_eq_true haddr), hcall] at hnext
        refine Held.pageFaultHandler ?_ (fun hnil => ?_) hnext
        · exact h.raise hfind hslot hcall hpending rfl ⟨rfl, rfl, rfl⟩
        · exact (hserved hnil).congr rfl rfl
      | some addr =>
        cases heq
        cases hnext
        exact h.request hfind hslot (isSome_iff_exists.2 ⟨handler, hhandler⟩)
          (congrArg (· ++ [os.requests]) hpending)

theorem handleMemRespBase_spec
    {processes processes' : Processes} {requestId : Nat} {resp : List Nat} {failed : Bool}
    {call' : Syscall} (hpending : call.pendingMem = [requestId])
    (h : call.handleMemRespBase processes requestId resp failed = some (processes', call')) :
    call'.pendingMem = [] ∧ call'.core = call.core ∧ call'.hwThread = call.hwThread := by
  have herase : call.pendingMem.erase requestId = [] := by
    rw [hpending]
    exact erase_cons_head ..
  unfold Syscall.handleMemRespBase at h
  split at h
  case isFalse => cases h
  case isTrue =>
    dsimp only at h
    split at h
    · split at h
      · cases h
        exact ⟨herase, rfl, rfl⟩
      · cases h
        exact ⟨herase, rfl, rfl⟩
    · cases h
      exact ⟨herase, rfl, rfl⟩

/-- A regular step keeps every call running, waiting or answered. -/
theorem Held.step {s : SyscallStep} (h : Held pageShift none os) (hregular : os.Regular pageShift s)
    (hstep : os.step pageShift s = some os') :
    Held pageShift none os' := by
  unfold SyscallOS.step at hstep
  rw [if_neg (ne_true_of_eq_false h.running)] at hstep
  cases s with
  | syscall core hwThread program =>
    dsimp only at hstep
    unfold handleIncomingSyscall at hstep
    split at hstep
    case h_1 pid hprocess hrunning =>
      have hstart := @Held.start pageShift os
        ⟨core, hwThread, pid, (program.settle os.processes).2, 0, false, []⟩ h hrunning
      refine Held.post hstart.setMemory ?_ ?_ rfl ?_ hstep
      · dsimp only [setSyscall]
        rw [OrderedMap.find?_insert_self]
        rfl
      · dsimp only [setSyscall]
        rw [update_self, update_self]
      · exact hregular pid hprocess
    case h_2 => cases hstep
  | coreEvent core hwThread state =>
    obtain ⟨id, hrunning, hbind⟩ := bind_eq_some_iff.1 hstep
    obtain ⟨call, hfind, hnext⟩ := bind_eq_some_iff.1 hbind
    have hcall := hregular id hrunning call hfind
    split at hnext
    case h_1 next hprogram =>
      rw [hprogram] at hcall
      have hhandler : call.handler = none := by rw [Syscall.handler, hprogram]
      obtain ⟨hheld, hpending⟩ := h.take hfind hhandler
      have hafter : Held pageShift (some id)
          { os with processes := ((next state).settle os.processes).1 } := hheld.setMemory
      refine hafter.post ?_ ?_ ?_ hcall hnext
      · exact isSome_iff_exists.2 ⟨call, hfind⟩
      · exact h.slots id call hfind
      · exact hpending
    case h_2 => cases hnext
  | memResp requestId resp failed =>
    obtain ⟨entry, hentry, hnext⟩ := bind_eq_some_iff.1 hstep
    split at hnext
    case isFalse => cases hnext
    case isTrue =>
      obtain ⟨call, hfind, hhandler, hpending, hheld⟩ := h.respond hentry
      dsimp only at hnext
      rw [hfind] at hnext
      dsimp only at hnext
      split at hnext
      case h_1 hnone =>
        unfold Syscall.handleMemRespBase at hnone
        rw [hpending, if_pos (mem_singleton.2 rfl)] at hnone
        dsimp only at hnone
        split at hnone
        · split at hnone <;> cases hnone
        · cases hnone
      case h_2 processes call' hafter =>
        obtain ⟨hpending', hcore, hthread⟩ := handleMemRespBase_spec hpending hafter
        refine Held.post hheld.setMemory (isSome_iff_exists.2 ⟨call, hfind⟩) ?_
          hpending' ?_ hnext
        · rw [hcore, hthread]
          exact h.slots _ call hfind
        · exact hregular entry hentry call hfind (processes, call') hafter
  | wake id =>
    obtain ⟨call, hfind, hnext⟩ := bind_eq_some_iff.1 hstep
    split at hnext
    case h_1 hprogram =>
      cases hnext
      have hhandler : call.handler = none := by rw [Syscall.handler, hprogram]
      exact (h.take hfind hhandler).1.delete (isSome_iff_exists.2 ⟨call, hfind⟩)
        (h.slots id call hfind)
    case h_2 => cases hnext
  | userFault reqId pid vpn faultPerms =>
    refine Held.pageFaultHandler (h.setFaults fun id' => ?_) hregular hstep
    rw [faultsOf_append, faultsOf_singleton]
    exact append_nil _
  | pageDone =>
    dsimp only at hstep
    split at hstep
    case h_1 => cases hstep
    case h_2 info rest hfaults =>
      obtain ⟨os₁, hfini, hnext⟩ := bind_eq_some_iff.1 hstep
      obtain ⟨hmapped, hserved⟩ := hregular
      rw [hfaults] at hmapped hserved
      have hfirst : Held pageShift none { os with pendingFault := info :: rest } := by
        rw [← hfaults]
        exact h
      obtain ⟨hheld, hprocesses, hcache⟩ := hfirst.fini (fun _ => hmapped info rfl) hfini
      rw [if_neg (ne_true_of_eq_false hheld.running)] at hnext
      exact hheld.serve (hserved.congr hprocesses hcache) hnext

theorem Held.sound (h : Held pageShift none os) : Sound os where
  __ := h
  retried id virtAddr success accessed hmem := .inl (h.retried id virtAddr success accessed hmem)
  progress id call hfind hhandler := by
    have hplaced := h.placed id call hfind nofun
    obtain ⟨handler, hhandler⟩ := isSome_iff_exists.1 hhandler
    unfold Placed at hplaced
    rw [hhandler] at hplaced
    rcases hplaced with ⟨request, length, -, hrequests, hfaults⟩ |
      ⟨-, hrequests, info, hfaults, -⟩
    · rw [hrequests, hfaults]
      rfl
    · rw [hrequests, hfaults]
      rfl
  waiting id call hfind hhandler := by
    have hplaced := h.placed id call hfind nofun
    unfold Placed at hplaced
    rw [hhandler] at hplaced
    exact hplaced.2

/-- System calls are answered once, and go on after their faults, in regular runs. -/
theorem answered_of_regular
    (pageShift : Nat) (processes : Processes) (freePages : List Nat) (ops : List SyscallStep)
    (hregular : StepsMeet (step pageShift) (Regular pageShift) (initial processes freePages) ops) :
    Throughout (step pageShift) Sound (initial processes freePages) ops := by
  have hinvariant := throughout_of_stepsMeet
    (fun os s os' (h : Held pageShift none os) hok hstep => h.step hok hstep)
    (initial_held processes freePages) hregular
  exact hinvariant.imp fun os h => h.sound

/-- One region, whose second page is mapped. -/
def someSpace : AddressSpace where
  virtMemMap :=
    { VirtMemMap.initial MemoryBacking with
      regionMap := OrderedMap.empty.insert 0x10000 (.create "data" 0x10000 0x4000 6 none) }
  pageTable := OrderedMap.empty.insert 0x11 (pageEntry 7 6)

/-- Two threads of a process. -/
def someProcesses : Processes where
  space _ := someSpace
  threadMap tid := tid = 100
  process core hwThread := if core = 0 ∧ hwThread < 2 then some 100 else none

/-- A wait in the page that is mapped is woken; a write crosses into a page that is not. -/
def someCalls : List SyscallStep :=
  [.syscall 0 0 (.futexWait 0x11000 [0, 0, 0, 0]),
    .syscall 0 1 (.access (.writeMemory 0x11ffe [1, 2, 3, 4] 0 false) fun _ _ => .succeed 0),
    .memResp 0 [0, 0, 0, 0] false, .memResp 1 [1, 2] false, .memResp 2 [0, 0, 0, 0] false,
    .userFault 5 100 0x12 2, .wake 0, .pageDone, .memResp 3 [3, 4] false]

theorem answered_of_regular_someCalls :
    Throughout (step 12) Sound (initial someProcesses [30, 31]) someCalls :=
  answered_of_regular 12 someProcesses [30, 31] someCalls (by decide +kernel)

def waitInNewPage : List SyscallStep :=
  [.syscall 0 0 (.futexWait 0x10000 [0, 0, 0, 0]), .pageDone, .memResp 0 [0, 0, 0, 0] false,
    .memResp 1 [0, 0, 0, 0] false]

/-- The wait sleeps, is taken for a fault, and has no request when that is resolved. -/
theorem sleeping_wait_faults :
    ¬∀ (pageShift : Nat) (processes : Processes) (freePages : List Nat)
      (ops : List SyscallStep),
      Throughout (step pageShift) Sound (initial processes freePages) ops := by
  intro hall
  obtain ⟨final, hrun, hfailed⟩ := map_eq_some_iff.1
    (show (runOps (step 12) (initial someProcesses [30]) waitInNewPage).map failed = some true by
      decide +kernel)
  have hsound := hall 12 someProcesses [30] waitInNewPage waitInNewPage final prefix_rfl hrun
  exact absurd (hsound.running.symm.trans hfailed) nofun

end Steps

end SstElements.VanadisOS.SyscallOS
