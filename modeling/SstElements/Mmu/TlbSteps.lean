import SstElements.Mmu.SimpleTLB

/-!
# What the steps of the buffer do

Each handler is described by the fields that it changes.
-/

namespace SstElements.Mmu

open Library Function List Option Nat

section Entries

variable {cfg : Config} {set set' : TlbSet} {vpn victim : Nat} {pte : PTE} {entry : TlbEntry}

theorem findTlbEntry_mem (h : findTlbEntry cfg set vpn = some entry) :
    some entry ∈ set ∧ entry.tag = cfg.tag vpn := by
  obtain ⟨slot, hslot, hentry⟩ := exists_of_findSome?_eq_some h
  obtain ⟨rfl, htag⟩ := filter_eq_some_iff.1 hentry
  exact ⟨hslot, (of_decide_eq_true htag).symm⟩

theorem fillTlbEntry_mem (h : fillTlbEntry cfg set vpn pte victim = some set')
    (hentry : some entry ∈ set') :
    some entry ∈ set ∨ entry = .init (cfg.tag vpn) pte.ppn pte.perms := by
  unfold fillTlbEntry at h
  split at h
  · cases h
    rcases mem_or_eq_of_mem_set hentry with hold | hnew
    · exact .inl hold
    · exact .inr (some.inj hnew)
  · split at h
    · cases h
    · cases h
      rcases mem_or_eq_of_mem_set hentry with hold | hnew
      · exact .inl hold
      · exact .inr (some.inj hnew)

theorem fillTlbEntry_length (h : fillTlbEntry cfg set vpn pte victim = some set') :
    set'.length = set.length := by
  unfold fillTlbEntry at h
  split at h
  · cases h
    exact length_set
  · split at h
    · cases h
    · cases h
      exact length_set

theorem findTlbEntry_set {i : Nat} (hi : i < set.length) (htag : entry.tag = cfg.tag vpn)
    (hbefore : ∀ j (hj : j < i), ∀ e ∈ set[j], e.tag ≠ cfg.tag vpn) :
    findTlbEntry cfg (set.set i (some entry)) vpn = some entry := by
  induction set generalizing i with
  | nil => exact absurd hi (not_lt_zero i)
  | cons slot rest ih =>
    cases i with
    | zero =>
      have hfound : (some entry).filter (fun e => decide (cfg.tag vpn = e.tag)) = some entry :=
        filter_some_pos (decide_eq_true htag.symm)
      rw [set_cons_zero, findTlbEntry, findSome?_cons, hfound]
    | succ i =>
      have hnone : slot.filter (fun e => decide (cfg.tag vpn = e.tag)) = none := by
        cases slot with
        | none => rfl
        | some e =>
          have hne := hbefore 0 (succ_pos i) e rfl
          simp [Ne.symm hne]
      rw [set_cons_succ, findTlbEntry, findSome?_cons, hnone]
      exact ih (lt_of_succ_lt_succ hi) fun j hj => hbefore (j + 1) (succ_lt_succ hj)

theorem findTlbEntry_fill (hvictim : victim < set.length) (htag : cfg.tag vpn < 2 ^ 52)
    (h : fillTlbEntry cfg set vpn pte victim = some set') :
    findTlbEntry cfg set' vpn = some (.init (cfg.tag vpn) pte.ppn pte.perms) := by
  have hfits : (TlbEntry.init (cfg.tag vpn) pte.ppn pte.perms).tag = cfg.tag vpn :=
    mod_eq_of_lt htag
  unfold fillTlbEntry at h
  split at h
  case h_1 i hi =>
    cases h
    obtain ⟨hlt, -, hbefore⟩ := findIdx?_eq_some_iff_getElem.1 hi
    refine findTlbEntry_set hlt hfits fun j hj e he => ?_
    have hnot := hbefore j hj
    rw [mem_def.1 he] at hnot
    simpa [eq_comm] using hnot
  case h_2 hnone =>
    split at h
    · cases h
    · cases h
      refine findTlbEntry_set hvictim hfits fun j hj e he => ?_
      have hnot := findIdx?_eq_none_iff.1 hnone _ (getElem_mem (hj.trans hvictim))
      rw [mem_def.1 he] at hnot
      simpa [eq_comm] using hnot

theorem fillTlbEntry_isSome (h : vpn ≠ 0 ∨ ∃ entry, findTlbEntry cfg set vpn = some entry) :
    ∃ set', fillTlbEntry cfg set vpn pte victim = some set' := by
  unfold fillTlbEntry
  split
  case h_1 => exact ⟨_, rfl⟩
  case h_2 hnone =>
    rcases h with hvpn | ⟨entry, hentry⟩
    · rw [if_neg hvpn]
      exact ⟨_, rfl⟩
    · obtain ⟨hmem, htag⟩ := findTlbEntry_mem hentry
      have hnot := findIdx?_eq_none_iff.1 hnone _ hmem
      simp [htag] at hnot

end Entries

section Drain

variable {cfg : Config} {set : TlbSet} {vpn : Nat} {pte : Option PTE}
variable {queue rest : List TlbRecord} {answers : List (TlbRecord × Option Nat)}

section

variable (h : SimpleTLB.drain cfg set vpn pte queue = some (answers, rest))
include h

theorem drain_queue : answers.map Prod.fst ++ rest = queue := by
  induction queue generalizing answers rest with
  | nil =>
    cases h
    rfl
  | cons record queue ih =>
    unfold SimpleTLB.drain at h
    split at h
    · obtain ⟨⟨answers', rest'⟩, hdrain, heq⟩ := map_eq_some_iff.1 h
      cases heq
      rw [map_cons, cons_append, ih hdrain]
    · split at h
      · cases h
      · split at h
        · obtain ⟨⟨answers', rest'⟩, hdrain, heq⟩ := map_eq_some_iff.1 h
          cases heq
          rw [map_cons, cons_append, ih hdrain]
        · cases h
          rfl

theorem drain_answer {record : TlbRecord} {addr : Nat} (hanswer : (record, some addr) ∈ answers) :
    ∃ granted entry, pte = some granted ∧ findTlbEntry cfg set vpn = some entry ∧
      addr = cfg.physAddr granted.ppn record.virtAddr ∧ checkPerms record.perms entry.perms := by
  induction queue generalizing answers rest with
  | nil =>
    cases h
    cases hanswer
  | cons head queue ih =>
    unfold SimpleTLB.drain at h
    split at h
    case h_1 =>
      obtain ⟨⟨answers', rest'⟩, hdrain, heq⟩ := map_eq_some_iff.1 h
      cases heq
      rcases mem_cons.1 hanswer with heq | hmem
      · cases heq
      · exact ih hdrain hmem
    case h_2 granted =>
      split at h
      case h_1 => cases h
      case h_2 entry hentry =>
        split at h
        case isTrue hperms =>
          obtain ⟨⟨answers', rest'⟩, hdrain, heq⟩ := map_eq_some_iff.1 h
          cases heq
          rcases mem_cons.1 hanswer with heq | hmem
          · obtain ⟨rfl, haddr⟩ := Prod.mk.inj heq
            exact ⟨granted, entry, rfl, hentry, some.inj haddr, hperms⟩
          · exact ih hdrain hmem
        case isFalse =>
          cases h
          cases hanswer

end

theorem drain_isSome {queue : List TlbRecord}
    (h : pte = none ∨ (∃ entry, findTlbEntry cfg set vpn = some entry) ∨ queue = []) :
    ∃ answers rest, SimpleTLB.drain cfg set vpn pte queue = some (answers, rest) := by
  induction queue with
  | nil => exact ⟨[], [], rfl⟩
  | cons record queue ih =>
    have hrest : pte = none ∨ (∃ entry, findTlbEntry cfg set vpn = some entry) ∨ queue = [] := by
      rcases h with hnone | hfound | hnil
      · exact .inl hnone
      · exact .inr (.inl hfound)
      · cases hnil
    obtain ⟨answers, rest, hdrain⟩ := ih hrest
    unfold SimpleTLB.drain
    split
    case h_1 => exact ⟨_, _, by rw [hdrain]; rfl⟩
    case h_2 granted =>
      rcases h with hnone | ⟨entry, hentry⟩ | hnil
      · cases hnone
      · rw [hentry]
        dsimp only
        split
        · exact ⟨_, _, by rw [hdrain]; rfl⟩
        · exact ⟨_, _, rfl⟩
      · cases hnil

end Drain

namespace SimpleTLB

variable {cfg : Config} {tlb : SimpleTLB}

theorem sendAll_eq (tlb : SimpleTLB) (answers : List (TlbRecord × Option Nat)) :
    tlb.sendAll answers = { tlb with
        selfLink := tlb.selfLink ++
          answers.map fun answer => (tlb.now, SelfEvent.mk answer.1 answer.2)
        history := tlb.history ++ answers.map fun answer => .sent answer.1 answer.2 } := by
  induction answers generalizing tlb with
  | nil => simp [sendAll]
  | cons answer rest ih =>
    rw [sendAll, foldl_cons]
    refine (ih _).trans ?_
    simp [send, note]

theorem miss_eq (cfg : Config) (tlb : SimpleTLB) (record : TlbRecord) :
    tlb.miss cfg record = { tlb with
        waitingMiss := update tlb.waitingMiss record.hwThreadId
          ((tlb.waitingMiss record.hwThreadId).insert (cfg.vpn record.virtAddr)
            (tlb.queue record.hwThreadId (cfg.vpn record.virtAddr) ++ [record]))
        misses := tlb.misses ++
          if (tlb.waitingMiss record.hwThreadId).find? (cfg.vpn record.virtAddr) = none then
            [record] else [] } := by
  by_cases hnone : (tlb.waitingMiss record.hwThreadId).find? (cfg.vpn record.virtAddr) = none
  · simp [miss, setWaiting, queue, hnone]
  · simp [miss, setWaiting, queue, hnone]

/-- The requests that wait, after those of one page have been set. -/
def waitingAfter
    (waiting : OrderedMap Nat (List TlbRecord)) (vpn : Nat) (rest : List TlbRecord) :
    OrderedMap Nat (List TlbRecord) :=
  match rest with
  | [] => waiting.erase vpn
  | _ :: _ => waiting.insert vpn rest

theorem find?_waitingAfter
    (waiting : OrderedMap Nat (List TlbRecord)) (vpn k : Nat) (rest : List TlbRecord) :
    (waitingAfter waiting vpn rest).find? k =
      if k = vpn then (if rest = [] then none else some rest) else waiting.find? k := by
  cases rest with
  | nil =>
    rw [waitingAfter, OrderedMap.find?_erase, if_pos rfl]
  | cons next rest =>
    rw [waitingAfter, OrderedMap.find?_insert, if_neg (cons_ne_nil next rest)]

theorem handleFill_spec {record : TlbRecord} {pte : Option PTE} {random : Nat}
    (hsize : (tlb.tlbData record.hwThreadId
      (cfg.index (cfg.vpn record.virtAddr))).length = cfg.tlbSetSize)
    (hregular : pte ≠ none →
      (cfg.vpn record.virtAddr ≠ 0 ∨ ∃ entry, findTlbEntry cfg (tlb.tlbData record.hwThreadId
        (cfg.index (cfg.vpn record.virtAddr))) (cfg.vpn record.virtAddr) = some entry) ∧
      (cfg.tag (cfg.vpn record.virtAddr) < 2 ^ 52 ∨
        (tlb.queue record.hwThreadId (cfg.vpn record.virtAddr)).tail = [])) :
    ∃ set answers rest, answers.map Prod.fst ++ rest =
        (tlb.queue record.hwThreadId (cfg.vpn record.virtAddr)).tail ∧
      (pte = none ∧ set = tlb.tlbData record.hwThreadId (cfg.index (cfg.vpn record.virtAddr)) ∨
        ∃ granted, pte = some granted ∧
          fillTlbEntry cfg (tlb.tlbData record.hwThreadId (cfg.index (cfg.vpn record.virtAddr)))
            (cfg.vpn record.virtAddr) granted (random % cfg.tlbSetSize) = some set) ∧
      (∀ r addr, (r, some addr) ∈ answers → ∃ granted, pte = some granted ∧
        addr = cfg.physAddr granted.ppn r.virtAddr ∧ checkPerms r.perms granted.perms) ∧
      tlb.handleFill cfg record pte random = { tlb with
          tlbData := update tlb.tlbData record.hwThreadId
            (update (tlb.tlbData record.hwThreadId) (cfg.index (cfg.vpn record.virtAddr)) set)
          waitingMiss := update tlb.waitingMiss record.hwThreadId
            (waitingAfter (tlb.waitingMiss record.hwThreadId) (cfg.vpn record.virtAddr) rest)
          misses := tlb.misses ++ rest.head?.toList
          selfLink := tlb.selfLink ++
            ((record, pte.map fun granted => cfg.physAddr granted.ppn record.virtAddr) ::
              answers).map fun answer => (tlb.now, SelfEvent.mk answer.1 answer.2)
          history := tlb.history ++ .filled record pte ::
            ((record, pte.map fun granted => cfg.physAddr granted.ppn record.virtAddr) ::
              answers).map fun answer => .sent answer.1 answer.2 } := by
  -- what is left to do once the entry is there
  have hanswer (tlb₁ : SimpleTLB) (set : TlbSet) {answers rest}
      (hset : tlb₁.tlbData record.hwThreadId (cfg.index (cfg.vpn record.virtAddr)) = set)
      (hdrain : drain cfg set (cfg.vpn record.virtAddr) pte
        (tlb₁.queue record.hwThreadId (cfg.vpn record.virtAddr)).tail = some (answers, rest)) :
      tlb₁.answerFill cfg record pte =
        some { tlb₁ with
          waitingMiss := update tlb₁.waitingMiss record.hwThreadId
            (waitingAfter (tlb₁.waitingMiss record.hwThreadId) (cfg.vpn record.virtAddr) rest)
          misses := tlb₁.misses ++ rest.head?.toList
          selfLink := tlb₁.selfLink ++
            ((record, pte.map fun granted => cfg.physAddr granted.ppn record.virtAddr) ::
              answers).map fun answer => (tlb₁.now, SelfEvent.mk answer.1 answer.2)
          history := tlb₁.history ++
            ((record, pte.map fun granted => cfg.physAddr granted.ppn record.virtAddr) ::
              answers).map fun answer => .sent answer.1 answer.2 } := by
    unfold answerFill
    dsimp only
    rw [hset]
    unfold queue at hdrain
    rw [hdrain, map_some, sendAll_eq]
    cases rest with
    | nil => simp [setWaiting, waitingAfter]
    | cons next rest => simp [setWaiting, waitingAfter]
  cases pte with
  | none =>
    obtain ⟨answers, rest, hdrain⟩ := @drain_isSome cfg
      (tlb.tlbData record.hwThreadId (cfg.index (cfg.vpn record.virtAddr)))
      (cfg.vpn record.virtAddr) none
      (tlb.queue record.hwThreadId (cfg.vpn record.virtAddr)).tail (.inl rfl)
    refine ⟨_, answers, rest, drain_queue hdrain, .inl ⟨rfl, rfl⟩, ?_, ?_⟩
    · intro r addr hmem
      obtain ⟨granted, -, hnone, -⟩ := drain_answer hdrain hmem
      cases hnone
    · unfold handleFill
      dsimp only
      rw [bind_some, hanswer (tlb.note (.filled record none)) _ rfl hdrain]
      simp [note]
  | some granted =>
    obtain ⟨hvpn, htag⟩ := hregular (some_ne_none granted)
    obtain ⟨set, hfill⟩ := @fillTlbEntry_isSome cfg
      (tlb.tlbData record.hwThreadId (cfg.index (cfg.vpn record.virtAddr)))
      (cfg.vpn record.virtAddr) (random % cfg.tlbSetSize) granted hvpn
    have hvictim : random % cfg.tlbSetSize <
        (tlb.tlbData record.hwThreadId (cfg.index (cfg.vpn record.virtAddr))).length := by
      rw [hsize]
      exact mod_lt _ cfg.tlbSetSize_pos
    have hfound := fun hlt => findTlbEntry_fill hvictim hlt hfill
    obtain ⟨answers, rest, hdrain⟩ := @drain_isSome cfg set (cfg.vpn record.virtAddr)
      (some granted) (tlb.queue record.hwThreadId (cfg.vpn record.virtAddr)).tail
      (.inr (htag.imp (fun hlt => ⟨_, hfound hlt⟩) id))
    refine ⟨set, answers, rest, drain_queue hdrain, .inr ⟨granted, rfl, hfill⟩, ?_, ?_⟩
    · intro r addr hmem
      obtain ⟨granted', entry, hsome, hentry, haddr, hperms⟩ := drain_answer hdrain hmem
      cases hsome
      refine ⟨granted, rfl, haddr, ?_⟩
      rcases htag with hlt | hnil
      · obtain rfl := some.inj (hentry.symm.trans (hfound hlt))
        unfold TlbEntry.init at hperms
        rwa [mod_eq_of_lt granted.perms_lt] at hperms
      · have hqueue := drain_queue hdrain
        rw [hnil, append_eq_nil_iff, map_eq_nil_iff] at hqueue
        rw [hqueue.1] at hmem
        cases hmem
    · unfold handleFill
      dsimp only
      rw [hfill, map_some, bind_some, hanswer ((tlb.note (.filled record
        (some granted))).setEntries record.hwThreadId (cfg.index (cfg.vpn record.virtAddr)) set)
        set _ hdrain]
      · simp [note, setEntries]
      · simp [note, setEntries]

end SimpleTLB

end SstElements.Mmu
