import SstElements.VanadisOS.Syscall

/-!
# The invariant of the system calls

A call has one request to memory, or one fault, or none of them when it accesses nothing.
While a call is handled it is in hand, and has none.
-/

namespace SstElements.VanadisOS.SyscallOS

open Library Mmu Function List Option

variable {pageShift : Nat}

structure OfAccess (pageShift : Nat) (call : Syscall) (handler : MemoryHandler)
    (info : PageFault) : Prop where
  pid : info.pid = call.pid
  vpn : info.vpn = pageOf pageShift handler.getAddress
  virtAddr : info.memVirtAddr = handler.getAddress

/-- A call that accesses memory has its request or its fault. -/
def Placed
    (pageShift : Nat) (memRespMap : List (Nat × Nat × Nat)) (faults : List PageFault)
    (id : Nat) (call : Syscall) : Prop :=
  match call.handler with
  | none => call.pendingMem = [] ∧ requestsOf memRespMap id = [] ∧ faultsOf faults id = []
  | some handler =>
    (∃ request length, call.pendingMem = [request] ∧
      requestsOf memRespMap id = [(request, id, length)] ∧ faultsOf faults id = []) ∨
    (call.pendingMem = [] ∧ requestsOf memRespMap id = [] ∧
      ∃ info, faultsOf faults id = [info] ∧ OfAccess pageShift call handler info)

theorem Placed.congr
    {memRespMap memRespMap' : List (Nat × Nat × Nat)} {faults faults' : List PageFault}
    {id : Nat} {call : Syscall} (h : Placed pageShift memRespMap faults id call)
    (hrequests : requestsOf memRespMap' id = requestsOf memRespMap id)
    (hfaults : faultsOf faults' id = faultsOf faults id) :
    Placed pageShift memRespMap' faults' id call := by
  unfold Placed at h ⊢
  rw [hrequests, hfaults]
  exact h

structure Held (pageShift : Nat) (hand : Option Nat) (os : SyscallOS) : Prop where
  running : os.failed = false
  once : ∀ id, (answers os.history).count id +
    (os.syscalls.find? id).isSome.toNat = if id < os.created then 1 else 0
  slots : ∀ id call, os.syscalls.find? id = some call →
    os.running call.core call.hwThread = some id
  absent : ∀ id, os.syscalls.find? id = none →
    requestsOf os.memRespMap id = [] ∧ faultsOf os.pendingFault id = []
  placed : ∀ id call, os.syscalls.find? id = some call → hand ≠ some id →
    Placed pageShift os.memRespMap os.pendingFault id call
  inHand : ∀ id, hand = some id →
    requestsOf os.memRespMap id = [] ∧ faultsOf os.pendingFault id = []
  resolvedOnce : ∀ id, (raises os.history).count id =
    (resolutions os.history).count id + (faultsOf os.pendingFault id).length
  needed : ∀ id virtAddr accessed, .raised id virtAddr accessed ∈ os.history →
    accessed = some virtAddr
  retried : ∀ id virtAddr success accessed,
    .resolved id virtAddr success accessed ∈ os.history → accessed = some virtAddr

variable {os : SyscallOS} {hand : Option Nat} {id : Nat} {call : Syscall}

theorem initial_held (processes : Processes) (freePages : List Nat) :
    Held pageShift none (initial processes freePages) where
  running := rfl
  once id := by simp [initial, answers]
  slots _ _ h := by simp [initial] at h
  absent _ _ := ⟨rfl, rfl⟩
  placed _ _ h := by simp [initial] at h
  inHand := nofun
  resolvedOnce _ := rfl
  needed := nofun
  retried := nofun

section Lists

theorem requestsOf_append (entries more : List (Nat × Nat × Nat)) (id : Nat) :
    requestsOf (entries ++ more) id = requestsOf entries id ++ requestsOf more id :=
  filter_append ..

theorem requestsOf_singleton (request id length id' : Nat) :
    requestsOf [(request, id, length)] id' = if id = id' then [(request, id, length)] else [] := by
  unfold requestsOf
  rw [filter_singleton]
  by_cases h : id = id' <;> simp [h]

theorem faultsOf_append (faults more : List PageFault) (id : Nat) :
    faultsOf (faults ++ more) id = faultsOf faults id ++ faultsOf more id :=
  filter_append ..

theorem faultsOf_singleton (info : PageFault) (id : Nat) :
    faultsOf [info] id = if info.syscall = some id then [info] else [] := by
  unfold faultsOf
  rw [filter_singleton]
  by_cases h : info.syscall = some id <;> simp [h]

theorem faultsOf_cons (info : PageFault) (rest : List PageFault) (id : Nat) :
    faultsOf (info :: rest) id =
      if info.syscall = some id then info :: faultsOf rest id else faultsOf rest id := by
  rw [← singleton_append, faultsOf_append, faultsOf_singleton]
  split <;> rfl

end Lists

variable {faults : List PageFault}

section Parts

theorem Held.setMemory {processes : Processes} {elfPageCache : ElfPageCache} {freePages : List Nat}
    (h : Held pageShift hand os) :
    Held pageShift hand { os with
      processes := processes, elfPageCache := elfPageCache, freePages := freePages } :=
  { h with }

section

variable (h : Held pageShift (some id) os)
variable (hfind : (os.syscalls.find? id).isSome)
variable (hslot : os.running call.core call.hwThread = some id)
include h hfind hslot

theorem Held.put {memRespMap : List (Nat × Nat × Nat)} {requests : Nat}
    {history : List SyscallEvent}
    (hrequests : ∀ id', id' ≠ id → requestsOf memRespMap id' = requestsOf os.memRespMap id')
    (hfaults : ∀ id', id' ≠ id → faultsOf faults id' = faultsOf os.pendingFault id')
    (hplaced : Placed pageShift memRespMap faults id call)
    (hanswers : answers history = answers os.history)
    (hresolved : ∀ id', (raises history).count id' =
      (resolutions history).count id' + (faultsOf faults id').length)
    (hneeded : ∀ id' virtAddr accessed, .raised id' virtAddr accessed ∈ history →
      accessed = some virtAddr)
    (hretried : ∀ id' virtAddr success accessed,
      .resolved id' virtAddr success accessed ∈ history → accessed = some virtAddr) :
    Held pageShift none { os with
      syscalls := os.syscalls.insert id call
      memRespMap := memRespMap
      pendingFault := faults
      requests := requests
      history := history } := by
  constructor
  case running => exact h.running
  case once =>
    intro id'
    have hone := h.once id'
    rw [OrderedMap.find?_insert, hanswers]
    by_cases heq : id' = id
    · subst heq
      rw [hfind] at hone
      rw [if_pos rfl]
      exact hone
    · rw [if_neg heq]
      exact hone
  case slots =>
    intro id' call' hfind'
    rw [OrderedMap.find?_insert] at hfind'
    split at hfind'
    case isTrue heq =>
      cases hfind'
      rw [heq]
      exact hslot
    case isFalse => exact h.slots id' call' hfind'
  case absent =>
    intro id' hnone
    rw [OrderedMap.find?_insert] at hnone
    split at hnone
    case isTrue => cases hnone
    case isFalse hne =>
      rw [hrequests id' hne, hfaults id' hne]
      exact h.absent id' hnone
  case placed =>
    intro id' call' hfind' _
    rw [OrderedMap.find?_insert] at hfind'
    split at hfind'
    case isTrue heq =>
      cases hfind'
      rw [heq]
      exact hplaced
    case isFalse hne =>
      exact (h.placed id' call' hfind' fun heq => hne (some.inj heq).symm).congr
        (hrequests id' hne) (hfaults id' hne)
  case inHand => exact nofun
  case resolvedOnce => exact hresolved
  case needed => exact hneeded
  case retried => exact hretried

theorem Held.block (hhandler : call.handler = none) (hpending : call.pendingMem = []) :
    Held pageShift none { os with syscalls := os.syscalls.insert id call } := by
  refine h.put hfind hslot (fun _ _ => rfl) (fun _ _ => rfl) ?_ rfl h.resolvedOnce h.needed
    h.retried
  unfold Placed
  rw [hhandler]
  exact ⟨hpending, h.inHand id rfl⟩

end

theorem requestsOf_append_of_ne
    {id' : Nat} (entries : List (Nat × Nat × Nat)) (request length : Nat) (hne : id' ≠ id) :
    requestsOf (entries ++ [(request, id, length)]) id' = requestsOf entries id' := by
  rw [requestsOf_append, requestsOf_singleton, if_neg (Ne.symm hne), append_nil]

section

variable (h : Held pageShift (some id) os)
include h

theorem placed_of_request {length : Nat} (hhandler : call.handler.isSome)
    (hpending : call.pendingMem = [os.requests]) :
    Placed pageShift (os.memRespMap ++ [(os.requests, id, length)]) os.pendingFault id call := by
  obtain ⟨hrequests, hfaults⟩ := h.inHand id rfl
  obtain ⟨handler, hhandler⟩ := isSome_iff_exists.1 hhandler
  unfold Placed
  rw [hhandler]
  refine .inl ⟨os.requests, length, hpending, ?_, hfaults⟩
  rw [requestsOf_append, hrequests, requestsOf_singleton, if_pos rfl, nil_append]

theorem Held.request {length : Nat} (hfind : (os.syscalls.find? id).isSome)
    (hslot : os.running call.core call.hwThread = some id) (hhandler : call.handler.isSome)
    (hpending : call.pendingMem = [os.requests]) :
    Held pageShift none
      ({ os with syscalls := os.syscalls.insert id call }.sendMemoryEvent id length) := by
  have hplaced := @placed_of_request pageShift os id call h length hhandler hpending
  exact h.put hfind hslot (fun _ hne => requestsOf_append_of_ne _ _ _ hne) (fun _ _ => rfl)
    hplaced rfl h.resolvedOnce h.needed h.retried

theorem Held.raise {handler : MemoryHandler} {info : PageFault}
    (hfind : (os.syscalls.find? id).isSome) (hslot : os.running call.core call.hwThread = some id)
    (hhandler : call.handler = some handler) (hpending : call.pendingMem = [])
    (hsyscall : info.syscall = some id) (hinfo : OfAccess pageShift call handler info) :
    Held pageShift none { os with
      syscalls := os.syscalls.insert id call
      pendingFault := os.pendingFault ++ [info]
      history := os.history ++
        [.raised id handler.getAddress (some handler.getAddress)] } := by
  obtain ⟨hrequests, hfaults⟩ := h.inHand id rfl
  have hraises : raises (os.history ++ [.raised id handler.getAddress
      (some handler.getAddress)]) = raises os.history ++ [id] := filterMap_append
  have hresolutions : resolutions (os.history ++ [.raised id handler.getAddress
      (some handler.getAddress)]) = resolutions os.history :=
    filterMap_append.trans (append_nil _)
  refine h.put hfind hslot (fun _ _ => rfl) (fun id' hne => ?_) ?_
    (filterMap_append.trans (append_nil _)) (fun id' => ?_) ?_ ?_
  · rw [faultsOf_append, faultsOf_singleton, hsyscall,
      if_neg fun heq => hne (some.inj heq).symm, append_nil]
  · unfold Placed
    rw [hhandler]
    refine .inr ⟨hpending, hrequests, info, ?_, hinfo⟩
    rw [faultsOf_append, hfaults, faultsOf_singleton, if_pos hsyscall, nil_append]
  · have hcount := h.resolvedOnce id'
    rw [hraises, hresolutions, faultsOf_append, count_append, length_append,
      faultsOf_singleton, hsyscall, hcount, count_singleton]
    by_cases heq : id = id'
    · subst heq
      simp
      omega
    · simp [heq]
  · intro id' virtAddr accessed hmem
    rcases mem_append.1 hmem with hold | hnew
    · exact h.needed id' virtAddr accessed hold
    · obtain ⟨-, rfl, rfl⟩ := SyscallEvent.raised.inj (mem_singleton.1 hnew)
      rfl
  · intro id' virtAddr success accessed hmem
    exact h.retried id' virtAddr success accessed (mem_of_mem_concat hmem nofun)

theorem Held.delete {ret : ReturnInfo} (hfind : (os.syscalls.find? id).isSome)
    (hslot : os.running call.core call.hwThread = some id) :
    Held pageShift none (os.delete id call ret) := by
  unfold SyscallOS.delete
  rw [hslot]
  have hanswers : answers (os.history ++ [.answered id ret]) = answers os.history ++ [id] :=
    filterMap_append
  have hraises : raises (os.history ++ [.answered id ret]) = raises os.history :=
    filterMap_append.trans (append_nil _)
  have hresolutions : resolutions (os.history ++ [.answered id ret]) = resolutions os.history :=
    filterMap_append.trans (append_nil _)
  constructor
  case running => exact h.running
  case once =>
    intro id'
    have hone := h.once id'
    show (answers (os.history ++ [.answered id ret])).count id' +
      ((os.syscalls.erase id).find? id').isSome.toNat = if id' < os.created then 1 else 0
    rw [hanswers, count_append, count_singleton]
    by_cases heq : id = id'
    · subst heq
      rw [hfind] at hone
      rw [OrderedMap.find?_erase_self]
      simpa using hone
    · rw [OrderedMap.find?_erase_of_ne _ (Ne.symm heq)]
      simpa [heq] using hone
  case slots =>
    intro id' call' hfind'
    dsimp only [note, setSyscall] at hfind' ⊢
    rw [OrderedMap.find?_erase] at hfind'
    split at hfind'
    case isTrue => cases hfind'
    case isFalse hne =>
      have hslot' := h.slots id' call' hfind'
      by_cases hcore : call'.core = call.core
      · have hthread : call'.hwThread ≠ call.hwThread := by
          intro hthread
          rw [hcore, hthread, hslot] at hslot'
          exact hne (some.inj hslot').symm
        rw [hcore, update_self, update_of_ne hthread, ← hcore]
        exact hslot'
      · rw [update_of_ne hcore]
        exact hslot'
  case absent =>
    intro id' hnone
    by_cases heq : id' = id
    · exact heq ▸ h.inHand id rfl
    · dsimp only [note, setSyscall] at hnone
      rw [OrderedMap.find?_erase_of_ne _ heq] at hnone
      exact h.absent id' hnone
  case placed =>
    intro id' call' hfind' _
    dsimp only [note, setSyscall] at hfind'
    rw [OrderedMap.find?_erase] at hfind'
    split at hfind'
    case isTrue => cases hfind'
    case isFalse hne => exact h.placed id' call' hfind' fun heq => hne (some.inj heq).symm
  case inHand => exact nofun
  case resolvedOnce =>
    intro id'
    dsimp only [note, setSyscall]
    rw [hraises, hresolutions]
    exact h.resolvedOnce id'
  case needed =>
    intro id' virtAddr accessed hmem
    exact h.needed id' virtAddr accessed (mem_of_mem_concat hmem nofun)
  case retried =>
    intro id' virtAddr success accessed hmem
    exact h.retried id' virtAddr success accessed (mem_of_mem_concat hmem nofun)

end

end Parts

section Hands

section

variable (h : Held pageShift none os)
include h

theorem Held.take (hfind : os.syscalls.find? id = some call) (hhandler : call.handler = none) :
    Held pageShift (some id) os ∧ call.pendingMem = [] := by
  have hplaced := h.placed id call hfind nofun
  unfold Placed at hplaced
  rw [hhandler] at hplaced
  refine ⟨⟨h.running, h.once, h.slots, h.absent, fun id' call' hfind' _ =>
    h.placed id' call' hfind' nofun, fun id' heq => ?_, h.resolvedOnce, h.needed, h.retried⟩,
    hplaced.1⟩
  cases heq
  exact hplaced.2

theorem Held.start (hslot : os.running call.core call.hwThread = none) :
    Held pageShift (some os.created)
      ({ os with
        syscalls := os.syscalls.insert os.created call
        created := os.created + 1 }.setSyscall call.core call.hwThread (some os.created)) := by
  have hnone : os.syscalls.find? os.created = none := by
    have hone := h.once os.created
    rw [if_neg (lt_irrefl _)] at hone
    cases hfind : os.syscalls.find? os.created with
    | none => rfl
    | some call' =>
      rw [hfind] at hone
      cases hone
  constructor
  case running => exact h.running
  case once =>
    intro id'
    have hone := h.once id'
    show (answers os.history).count id' +
      ((os.syscalls.insert os.created call).find? id').isSome.toNat =
        if id' < os.created + 1 then 1 else 0
    rw [OrderedMap.find?_insert]
    by_cases heq : id' = os.created
    · subst heq
      rw [hnone, if_neg (lt_irrefl _)] at hone
      rw [if_pos rfl, if_pos (Nat.lt_succ_self _)]
      simpa using hone
    · rw [if_neg heq, hone]
      by_cases hlt : id' < os.created
      · rw [if_pos hlt, if_pos (Nat.lt_succ_of_lt hlt)]
      · rw [if_neg hlt, if_neg (by omega)]
  case slots =>
    intro id' call' hfind'
    dsimp only [setSyscall] at hfind' ⊢
    rw [OrderedMap.find?_insert] at hfind'
    split at hfind'
    case isTrue heq =>
      cases hfind'
      rw [update_self, update_self, heq]
    case isFalse =>
      have hslot' := h.slots id' call' hfind'
      by_cases hcore : call'.core = call.core
      · have hthread : call'.hwThread ≠ call.hwThread := by
          intro hthread
          rw [hcore, hthread, hslot] at hslot'
          cases hslot'
        rw [hcore, update_self, update_of_ne hthread, ← hcore]
        exact hslot'
      · rw [update_of_ne hcore]
        exact hslot'
  case absent =>
    intro id' hfind'
    dsimp only [setSyscall] at hfind'
    rw [OrderedMap.find?_insert] at hfind'
    split at hfind'
    case isTrue => cases hfind'
    case isFalse => exact h.absent id' hfind'
  case placed =>
    intro id' call' hfind' hne
    dsimp only [setSyscall] at hfind'
    rw [OrderedMap.find?_insert] at hfind'
    split at hfind'
    case isTrue heq => exact absurd (congrArg some heq.symm) hne
    case isFalse => exact h.placed id' call' hfind' nofun
  case inHand =>
    intro id' heq
    cases heq
    exact h.absent _ hnone
  case resolvedOnce => exact h.resolvedOnce
  case needed => exact h.needed
  case retried => exact h.retried

theorem Held.respond {requestId : Nat} {entry : Nat × Nat × Nat}
    (hentry : os.memRespMap.find? (fun entry => entry.1 = requestId) = some entry) :
    ∃ call, os.syscalls.find? entry.2.1 = some call ∧ call.handler.isSome ∧
      call.pendingMem = [requestId] ∧ Held pageShift (some entry.2.1)
        { os with memRespMap := os.memRespMap.eraseP fun entry => entry.1 = requestId } := by
  obtain ⟨hid, before, after, hsplit, hbefore⟩ := find?_eq_some_iff_append.1 hentry
  have herase : os.memRespMap.eraseP (fun entry => entry.1 = requestId) = before ++ after := by
    rw [hsplit, eraseP_append_right, eraseP_cons, hid, cond_true]
    intro entry hentry
    simpa using hbefore entry hentry
  obtain rfl : entry.1 = requestId := of_decide_eq_true hid
  have hrequests (id' : Nat) : requestsOf os.memRespMap id' =
      requestsOf before id' ++ (requestsOf [entry] id' ++ requestsOf after id') := by
    rw [hsplit, ← singleton_append, requestsOf_append, requestsOf_append]
  have hown : requestsOf [entry] entry.2.1 = [entry] := by
    obtain ⟨request, id, length⟩ := entry
    rw [requestsOf_singleton, if_pos rfl]
  have hother {id' : Nat} (hne : id' ≠ entry.2.1) : requestsOf [entry] id' = [] := by
    obtain ⟨request, id, length⟩ := entry
    rw [requestsOf_singleton, if_neg (Ne.symm hne)]
  have hkept {id' : Nat} (hne : id' ≠ entry.2.1) :
      requestsOf (before ++ after) id' = requestsOf os.memRespMap id' := by
    rw [hrequests, hother hne, nil_append, requestsOf_append]
  cases hfind : os.syscalls.find? entry.2.1 with
  | none =>
    have habsent := (h.absent _ hfind).1
    rw [hrequests, hown] at habsent
    exact absurd habsent (by simp)
  | some call =>
    have hplaced := h.placed _ call hfind nofun
    unfold Placed at hplaced
    rw [hrequests, hown] at hplaced
    cases hhandler : call.handler with
    | none =>
      rw [hhandler] at hplaced
      exact absurd hplaced.2.1 (by simp)
    | some handler =>
      rw [hhandler] at hplaced
      rcases hplaced with ⟨request, length, hpending, hone, hfaults⟩ | ⟨-, hnil, -⟩
      · have hboth : requestsOf before entry.2.1 = [] ∧ requestsOf after entry.2.1 = [] ∧
            entry = (request, entry.2.1, length) := by
          generalize requestsOf before entry.2.1 = first at hone ⊢
          generalize requestsOf after entry.2.1 = last at hone ⊢
          rcases append_eq_singleton_iff.1 hone with ⟨hfirst, hrest⟩ | ⟨-, hrest⟩
          · obtain ⟨heq, hlast⟩ := List.cons.inj hrest
            exact ⟨hfirst, hlast, heq⟩
          · cases hrest
        obtain ⟨hfirst, hlast, heq⟩ := hboth
        refine ⟨call, rfl, isSome_iff_exists.2 ⟨handler, hhandler⟩, ?_, ?_⟩
        · rw [hpending, congrArg Prod.fst heq]
        · rw [herase]
          refine ⟨h.running, h.once, h.slots, fun id' hnone => ?_,
            fun id' call' hfind' hne => ?_, fun id' heq' => ?_, h.resolvedOnce, h.needed,
            h.retried⟩
          · have hne : id' ≠ entry.2.1 := by
              intro heq'
              rw [heq'] at hnone
              exact absurd (hnone.symm.trans hfind) nofun
            exact ⟨(hkept hne).trans (h.absent id' hnone).1, (h.absent id' hnone).2⟩
          · exact (h.placed id' call' hfind' nofun).congr
              (hkept fun heq' => hne (congrArg some heq'.symm)) rfl
          · cases heq'
            refine ⟨?_, hfaults⟩
            rw [requestsOf_append, hfirst, hlast, nil_append]
      · exact absurd hnil (by simp)

end

theorem Held.resolve {info : PageFault} {rest : List PageFault} (success : Bool)
    (h : Held pageShift none { os with pendingFault := info :: rest })
    (hsyscall : info.syscall = some id) :
    ∃ call handler, os.syscalls.find? id = some call ∧ call.handler = some handler ∧
      call.pendingMem = [] ∧ OfAccess pageShift call handler info ∧
      Held pageShift (some id) { os with
        pendingFault := rest
        history := os.history ++
          [.resolved id info.memVirtAddr success (some handler.getAddress)] } := by
  have hcons (id' : Nat) : faultsOf (info :: rest) id' =
      if id = id' then info :: faultsOf rest id' else faultsOf rest id' := by
    rw [faultsOf_cons, hsyscall]
    by_cases heq : id = id' <;> simp [heq]
  have hkept {id' : Nat} (hne : id' ≠ id) : faultsOf rest id' = faultsOf (info :: rest) id' := by
    rw [hcons, if_neg (Ne.symm hne)]
  cases hfind : os.syscalls.find? id with
  | none =>
    have habsent := (h.absent id hfind).2
    rw [hcons, if_pos rfl] at habsent
    cases habsent
  | some call =>
    have hplaced := h.placed id call hfind nofun
    unfold Placed at hplaced
    rw [hcons, if_pos rfl] at hplaced
    cases hhandler : call.handler with
    | none =>
      rw [hhandler] at hplaced
      cases hplaced.2.2
    | some handler =>
      rw [hhandler] at hplaced
      rcases hplaced with ⟨-, -, -, -, hnil⟩ | ⟨hpending, hrequests, info', hone, hinfo⟩
      · cases hnil
      · obtain ⟨rfl, hrest⟩ := List.cons.inj hone
        have hraises : raises (os.history ++ [.resolved id info.memVirtAddr success
            (some handler.getAddress)]) = raises os.history :=
          filterMap_append.trans (append_nil _)
        have hresolutions : resolutions (os.history ++ [.resolved id info.memVirtAddr success
            (some handler.getAddress)]) = resolutions os.history ++ [id] :=
          filterMap_append
        have hanswers : answers (os.history ++ [.resolved id info.memVirtAddr success
            (some handler.getAddress)]) = answers os.history :=
          filterMap_append.trans (append_nil _)
        refine ⟨call, handler, rfl, hhandler, hpending, hinfo, h.running, fun id' => ?_,
          h.slots, fun id' hnone => ?_, fun id' call' hfind' hne => ?_, fun id' heq => ?_,
          fun id' => ?_, fun id' virtAddr accessed hmem => ?_,
          fun id' virtAddr success' accessed hmem => ?_⟩
        · rw [hanswers]
          exact h.once id'
        · have hne : id' ≠ id := by
            rintro rfl
            exact absurd (hnone.symm.trans hfind) nofun
          exact ⟨(h.absent id' hnone).1, (hkept hne).trans (h.absent id' hnone).2⟩
        · exact (h.placed id' call' hfind' nofun).congr rfl
            (hkept fun heq => hne (congrArg some heq.symm))
        · cases heq
          exact ⟨hrequests, hrest⟩
        · have hcount := h.resolvedOnce id'
          rw [hraises, hresolutions, hcount, count_append, count_singleton, hcons]
          by_cases heq : id = id'
          · subst heq
            simp
            omega
          · simp [heq]
        · exact h.needed id' virtAddr accessed (mem_of_mem_concat hmem nofun)
        · rcases mem_append.1 hmem with hold | hnew
          · exact h.retried id' virtAddr success' accessed hold
          · obtain ⟨-, rfl, -, rfl⟩ := SyscallEvent.resolved.inj (mem_singleton.1 hnew)
            rw [hinfo.virtAddr]

theorem Held.setFaults (h : Held pageShift none os)
    (hfaults : ∀ id', faultsOf faults id' = faultsOf os.pendingFault id') :
    Held pageShift none { os with pendingFault := faults } :=
  { h with
    absent id' hnone := ⟨(h.absent id' hnone).1, (hfaults id').trans (h.absent id' hnone).2⟩
    placed id' call' hfind' hne := (h.placed id' call' hfind' hne).congr rfl (hfaults id')
    inHand := nofun
    resolvedOnce id' := by
      rw [hfaults]
      exact h.resolvedOnce id' }

theorem Held.faultHandled {reqId : Nat} {success : Bool} (h : Held pageShift none os) :
    Held pageShift none (os.note (.faultHandled reqId success)) where
  __ := h
  once id' := by
    have hanswers : answers (os.history ++ [.faultHandled reqId success]) = answers os.history :=
      filterMap_append.trans (append_nil _)
    show (answers (os.history ++ [.faultHandled reqId success])).count id' +
      (os.syscalls.find? id').isSome.toNat = if id' < os.created then 1 else 0
    rw [hanswers]
    exact h.once id'
  inHand := nofun
  resolvedOnce id' := by
    have hraises : raises (os.history ++ [.faultHandled reqId success]) = raises os.history :=
      filterMap_append.trans (append_nil _)
    have hresolutions : resolutions (os.history ++ [.faultHandled reqId success]) =
        resolutions os.history := filterMap_append.trans (append_nil _)
    dsimp only [note]
    rw [hraises, hresolutions]
    exact h.resolvedOnce id'
  needed id' virtAddr accessed hmem := by
    exact h.needed id' virtAddr accessed (mem_of_mem_concat hmem nofun)
  retried id' virtAddr success' accessed hmem := by
    exact h.retried id' virtAddr success' accessed (mem_of_mem_concat hmem nofun)

end Hands

end SstElements.VanadisOS.SyscallOS
