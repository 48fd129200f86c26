import SstElements.Mmu.TlbSteps

/-!
# Soundness of the buffer

The requests of a thread for a page form a line: first those whose answers are on the self
link, then those that wait.  Requests join it at the end and leave it at the front.
-/

namespace SstElements.Mmu.SimpleTLB

open Library Function List Option

variable {cfg : Config} {tlb tlb' : SimpleTLB}

section Histories

theorem requests_append (history more : List TlbEvent) :
    requests (history ++ more) = requests history ++ requests more :=
  filterMap_append

theorem deliveries_append (history more : List TlbEvent) :
    deliveries (history ++ more) = deliveries history ++ deliveries more :=
  filterMap_append

theorem requests_sent (answers : List (TlbRecord × Option Nat)) :
    requests (answers.map fun answer => .sent answer.1 answer.2) = [] := by
  induction answers with
  | nil => rfl
  | cons answer rest ih => exact ih

theorem deliveries_sent (answers : List (TlbRecord × Option Nat)) :
    deliveries (answers.map fun answer => .sent answer.1 answer.2) = [] := by
  induction answers with
  | nil => rfl
  | cons answer rest ih => exact ih

variable {history more : List TlbEvent} {hwThread vpn : Nat} {record : TlbRecord} {pte : PTE}

theorem LiveFill.append (h : LiveFill cfg history hwThread vpn record pte)
    (hmore : .flushed hwThread ∉ more) :
    LiveFill cfg (history ++ more) hwThread vpn record pte := by
  obtain ⟨hpage, before, after, rfl, hafter⟩ := h
  refine ⟨hpage, before, after ++ more, ?_, ?_⟩
  · rw [append_assoc, cons_append]
  · rw [mem_append]
    exact not_or.2 ⟨hafter, hmore⟩

theorem physAddr_eq (cfg : Config) (ppn virtAddr : Nat) :
    cfg.physAddr ppn virtAddr = ppn * 2 ^ cfg.pageShift + virtAddr % 2 ^ cfg.pageShift := by
  have hlt := Nat.mod_lt virtAddr (Nat.two_pow_pos cfg.pageShift)
  rw [Config.physAddr, Config.blockOffset, Nat.and_two_pow_sub_one_eq_mod,
    ← Nat.shiftLeft_add_eq_or_of_lt hlt, Nat.shiftLeft_eq]

end Histories

variable {record : TlbRecord}

section Pages

/-- With a power of two entries the set and the tag of a page give the page back. -/
theorem vpn_eq_of_index_tag {vpn vpn' : Nat} (hsize : cfg.tlbSize = 2 ^ cfg.tlbIndexShift)
    (hindex : cfg.index vpn = cfg.index vpn') (htag : cfg.tag vpn = cfg.tag vpn') : vpn = vpn' := by
  have hmod (v : Nat) : cfg.index v = v % 2 ^ cfg.tlbIndexShift := by
    rw [Config.index, hsize, Nat.and_two_pow_sub_one_eq_mod]
  have hdiv (v : Nat) : cfg.tag v = v / 2 ^ cfg.tlbIndexShift := Nat.shiftRight_eq_div_pow _ _
  rw [hmod, hmod] at hindex
  rw [hdiv, hdiv] at htag
  rw [← Nat.div_add_mod vpn, ← Nat.div_add_mod vpn', htag, hindex]

theorem TellsApart.vpn_eq {filled vpn : Nat} (h : TellsApart cfg filled vpn)
    (hindex : cfg.index filled = cfg.index vpn) (htag : cfg.tag filled % 2 ^ 52 = cfg.tag vpn) :
    filled = vpn := by
  rcases h hindex htag with ⟨hsize, hfits⟩ | hsame
  · exact vpn_eq_of_index_tag hsize hindex ((Nat.mod_eq_of_lt hfits).symm.trans htag)
  · exact hsame

theorem LiveFill.mem_liveFills {history : List TlbEvent} {hwThread vpn : Nat} {pte : PTE}
    (h : LiveFill cfg history hwThread vpn record pte) :
    record ∈ liveFills history hwThread := by
  obtain ⟨hpage, before, after, rfl, hafter⟩ := h
  refine mem_filterMap.2 ⟨.filled record (some pte), ?_, if_pos hpage.1⟩
  have hkept : ∀ event ∈ after.reverse, decide (event ≠ TlbEvent.flushed hwThread) = true :=
    fun event hmem => decide_eq_true fun heq => hafter (heq ▸ mem_reverse.1 hmem)
  rw [reverse_append, reverse_cons, append_assoc, takeWhile_append_of_pos hkept, singleton_append,
    takeWhile_cons_of_pos (by simp)]
  exact mem_append_right _ mem_cons_self

end Pages

variable {more : List TlbEvent}

section Translation

/-- An entry is that of the page of a live fill. -/
structure FilledBy (cfg : Config) (i : Nat) (entry : TlbEntry) (record : TlbRecord) (pte : PTE) :
    Prop where
  index : cfg.index (cfg.vpn record.virtAddr) = i
  tag : entry.tag = cfg.tag (cfg.vpn record.virtAddr) % 2 ^ 52
  ppn : entry.ppn = pte.ppn
  perms : entry.perms = pte.perms

/-- Every entry comes from a live fill. -/
structure Translating (cfg : Config) (tlb : SimpleTLB) : Prop where
  setSize : ∀ t i, (tlb.tlbData t i).length = cfg.tlbSetSize
  entries : ∀ t i entry, some entry ∈ tlb.tlbData t i → ∃ record pte,
    LiveFill cfg tlb.history t (cfg.vpn record.virtAddr) record pte ∧
      FilledBy cfg i entry record pte
  translated : EachAfter (fun past event => ∀ record addr, event = .sent record (some addr) →
    Granted cfg past record addr) tlb.history

theorem initial_translating : (initial cfg).Translating cfg where
  setSize _ _ := length_replicate
  entries t i entry h := by
    have hnone := eq_of_mem_replicate h
    cases hnone
  translated := eachAfter_nil _

theorem Translating.append (h : tlb.Translating cfg)
    (hdata : tlb'.tlbData = tlb.tlbData) (hhistory : tlb'.history = tlb.history ++ more)
    (hflush : ∀ t, .flushed t ∉ more)
    (hgranted : ∀ past event rest, more = past ++ event :: rest → ∀ record addr,
      event = .sent record (some addr) → Granted cfg (tlb.history ++ past) record addr) :
    tlb'.Translating cfg where
  setSize t i := by rw [hdata, h.setSize]
  entries t i entry hentry := by
    rw [hdata] at hentry
    obtain ⟨record, pte, hlive, hrest⟩ := h.entries t i entry hentry
    exact ⟨record, pte, hhistory ▸ hlive.append (hflush t), hrest⟩
  translated := hhistory ▸ h.translated.append hgranted

theorem Translating.concat {event : TlbEvent} (h : tlb.Translating cfg)
    (hdata : tlb'.tlbData = tlb.tlbData) (hhistory : tlb'.history = tlb.history ++ [event])
    (hflush : ∀ t, event ≠ .flushed t)
    (hgranted : ∀ record addr, event = .sent record (some addr) →
      Granted cfg tlb.history record addr) :
    tlb'.Translating cfg := by
  refine h.append hdata hhistory (fun t hmem => hflush t (mem_singleton.1 hmem).symm) ?_
  intro past event' rest hmore
  cases past with
  | nil =>
    obtain ⟨rfl, -⟩ := cons.inj hmore
    rw [append_nil]
    exact hgranted
  | cons first past => simp at hmore

theorem Translating.granted_of_hit {entry : TlbEntry} (h : tlb.Translating cfg)
    (hhit : tlb.hit cfg record.hwThreadId record.virtAddr record.perms = some entry)
    (hregular : ∀ filled ∈ liveFills tlb.history record.hwThreadId,
      TellsApart cfg (cfg.vpn filled.virtAddr) (cfg.vpn record.virtAddr)) :
    Granted cfg (tlb.history ++ [.requested record]) record
      (cfg.physAddr entry.ppn record.virtAddr) := by
  obtain ⟨hfind, hcond⟩ := filter_eq_some_iff.1 hhit
  obtain ⟨hmem, htag⟩ := findTlbEntry_mem hfind
  obtain ⟨filled, pte, hlive, hfilled⟩ := h.entries _ _ entry hmem
  have hpage := (hregular filled hlive.mem_liveFills).vpn_eq hfilled.index
    (hfilled.tag.symm.trans htag)
  refine ⟨filled, pte, ?_, ?_, .inl ?_⟩
  · rw [← hpage]
    exact hlive.append (by simp)
  · rw [physAddr_eq, hfilled.ppn]
  · rw [← hfilled.perms]
    exact (Bool.and_eq_true_iff.1 hcond).1

theorem Translating.getVirtToPhys {reqId hwThreadId virtAddr perms instPtr : Nat}
    (h : tlb.Translating cfg)
    (hregular : tlb.Regular cfg (.request reqId hwThreadId virtAddr perms instPtr)) :
    (tlb.getVirtToPhys cfg reqId hwThreadId virtAddr perms instPtr).Translating cfg := by
  have haccepted : ({ tlb with issued := tlb.issued + 1 }.note (.requested
      ⟨tlb.issued, reqId, hwThreadId, virtAddr, perms, instPtr⟩)).Translating cfg :=
    h.concat rfl rfl nofun nofun
  unfold SimpleTLB.getVirtToPhys
  split
  case isTrue => exact haccepted.concat rfl rfl nofun nofun
  case isFalse hin =>
    split
    case h_1 entry hhit =>
      refine haccepted.concat rfl rfl nofun fun record addr heq => ?_
      obtain ⟨rfl, haddr⟩ := TlbEvent.sent.inj heq
      cases haddr
      exact @Translating.granted_of_hit cfg tlb
        ⟨tlb.issued, reqId, hwThreadId, virtAddr, perms, instPtr⟩ entry h hhit
        (hregular.2 hin (isSome_of_eq_some hhit))
    case h_2 =>
      unfold miss
      dsimp only
      split
      · exact haccepted.append rfl (append_nil _).symm nofun (by simp)
      · exact haccepted.append rfl (append_nil _).symm nofun (by simp)

theorem Translating.handleFill {pte : Option PTE} {set : TlbSet}
    {answers : List (TlbRecord × Option Nat)} (h : tlb.Translating cfg)
    (hset : pte = none ∧ set = tlb.tlbData record.hwThreadId (cfg.index (cfg.vpn record.virtAddr)) ∨
      ∃ granted victim, pte = some granted ∧
        fillTlbEntry cfg (tlb.tlbData record.hwThreadId (cfg.index (cfg.vpn record.virtAddr)))
          (cfg.vpn record.virtAddr) granted victim = some set)
    (hanswers : ∀ r addr, (r, some addr) ∈ answers → ∃ granted, pte = some granted ∧
      addr = cfg.physAddr granted.ppn r.virtAddr ∧
      OfPage cfg record.hwThreadId (cfg.vpn record.virtAddr) r ∧
      (checkPerms r.perms granted.perms ∨ record = r))
    (hdata : tlb'.tlbData = update tlb.tlbData record.hwThreadId
      (update (tlb.tlbData record.hwThreadId) (cfg.index (cfg.vpn record.virtAddr)) set))
    (hhistory : tlb'.history = tlb.history ++ .filled record pte ::
      answers.map fun answer => .sent answer.1 answer.2) :
    tlb'.Translating cfg where
  setSize t i := by
    have hlength : set.length = cfg.tlbSetSize := by
      rcases hset with ⟨-, rfl⟩ | ⟨granted, victim, -, hfill⟩
      · exact h.setSize _ _
      · rw [fillTlbEntry_length hfill, h.setSize]
    rw [hdata]
    by_cases ht : t = record.hwThreadId
    · subst ht
      rw [update_self]
      by_cases hi : i = cfg.index (cfg.vpn record.virtAddr)
      · rw [hi, update_self, hlength]
      · rw [update_of_ne hi, h.setSize]
    · rw [update_of_ne ht, h.setSize]
  entries t i entry hentry := by
    have hold (hmem : some entry ∈ tlb.tlbData t i) : ∃ record pte,
        LiveFill cfg tlb'.history t (cfg.vpn record.virtAddr) record pte ∧
          FilledBy cfg i entry record pte := by
      obtain ⟨filled, granted, hlive, hrest⟩ := h.entries t i entry hmem
      exact ⟨filled, granted, hhistory ▸ hlive.append (by simp), hrest⟩
    rw [hdata] at hentry
    by_cases ht : t = record.hwThreadId
    · subst ht
      rw [update_self] at hentry
      by_cases hi : i = cfg.index (cfg.vpn record.virtAddr)
      · subst hi
        rw [update_self] at hentry
        rcases hset with ⟨-, rfl⟩ | ⟨granted, victim, rfl, hfill⟩
        · exact hold hentry
        · rcases fillTlbEntry_mem hfill hentry with hmem | rfl
          · exact hold hmem
          · refine ⟨record, granted, ⟨⟨rfl, rfl⟩, tlb.history, _, hhistory, by simp⟩,
              rfl, rfl, ?_, ?_⟩
            · exact Nat.mod_eq_of_lt (granted.ppn_lt.trans (by decide))
            · exact Nat.mod_eq_of_lt granted.perms_lt
      · rw [update_of_ne hi] at hentry
        exact hold hentry
    · rw [update_of_ne ht] at hentry
      exact hold hentry
  translated := by
    rw [hhistory]
    refine h.translated.append fun past event rest hmore r addr heq => ?_
    subst heq
    cases past with
    | nil => cases hmore
    | cons first past =>
      obtain ⟨rfl, htail⟩ := cons.inj hmore
      have hmem : TlbEvent.sent r (some addr) ∈
          answers.map fun answer => TlbEvent.sent answer.1 answer.2 := by
        rw [htail]
        simp
      obtain ⟨answer, hanswer, heq⟩ := mem_map.1 hmem
      obtain ⟨rfl, haddr⟩ := TlbEvent.sent.inj heq
      obtain ⟨granted, rfl, rfl, hpage, hperms⟩ :=
        hanswers answer.1 addr (by rw [← haddr]; exact hanswer)
      refine ⟨record, granted, ⟨?_, tlb.history, past, rfl, ?_⟩, physAddr_eq _ _ _, hperms⟩
      · exact ⟨hpage.1.symm, hpage.2.symm⟩
      · intro hflushed
        have hin : TlbEvent.flushed answer.1.hwThreadId ∈
            answers.map fun answer => TlbEvent.sent answer.1 answer.2 := by
          rw [htail]
          exact mem_append_left _ hflushed
        simp at hin

theorem Translating.flushThread {hwThread : Nat} (h : tlb.Translating cfg) :
    (tlb.flushThread hwThread).Translating cfg where
  setSize t i := by
    unfold SimpleTLB.flushThread note
    dsimp only
    by_cases ht : t = hwThread
    · rw [ht, update_self, length_map, h.setSize]
    · rw [update_of_ne ht, h.setSize]
  entries t i entry hentry := by
    have hne : t ≠ hwThread := by
      rintro rfl
      unfold SimpleTLB.flushThread note at hentry
      simp at hentry
    unfold SimpleTLB.flushThread note at hentry
    dsimp only at hentry
    rw [update_of_ne hne] at hentry
    obtain ⟨filled, granted, hlive, hrest⟩ := h.entries t i entry hentry
    exact ⟨filled, granted, hlive.append (by simpa using hne), hrest⟩
  translated := eachAfter_concat_iff.2 ⟨h.translated, nofun⟩

end Translation

section Lines

/-- The line of a page is in the order of the requests, and each of its requests that waits
has the one in front of it at the memory management unit. -/
structure Lined (cfg : Config) (tlb : SimpleTLB) : Prop where
  numbered : (requests tlb.history).map TlbRecord.id = range tlb.issued
  once : ∀ record, (deliveries tlb.history).count record + tlb.pending.count record +
      (tlb.queue record.hwThreadId (cfg.vpn record.virtAddr)).count record =
    (requests tlb.history).count record
  front : ∀ t p waiting, (tlb.waitingMiss t).find? p = some waiting →
    ∃ record rest, waiting = record :: rest ∧ tlb.misses.filter (OfPage cfg t p) = [record]
  ofPage : ∀ t p, ∀ record ∈ tlb.queue t p, OfPage cfg t p record
  missed : ∀ record ∈ tlb.misses,
    (tlb.waitingMiss record.hwThreadId).find? (cfg.vpn record.virtAddr) ≠ none
  line : ∀ t p, (tlb.pending.filter (OfPage cfg t p) ++ tlb.queue t p).Pairwise
    fun a b => a.id < b.id
  due : tlb.selfLink.Pairwise fun a b => ∀ t p, OfPage cfg t p a.2.record →
    OfPage cfg t p b.2.record → a.1 ≤ b.1
  dueBound : ∀ pending ∈ tlb.selfLink, pending.1 ≤ tlb.now + cfg.hitLatency
  ordered : EachAfter (fun past event => ∀ record addr, event = .delivered record addr →
    ∀ earlier ∈ requests past,
      OfPage cfg record.hwThreadId (cfg.vpn record.virtAddr) earlier →
      earlier.id < record.id → earlier ∈ deliveries past) tlb.history

theorem initial_lined : (initial cfg).Lined cfg where
  numbered := rfl
  once _ := rfl
  front t p waiting h := by
    have hnone := (OrderedMap.find?_empty p).symm.trans h
    cases hnone
  ofPage t p record h := by
    cases h
  missed := nofun
  line t p := .nil
  due := .nil
  dueBound := nofun
  ordered := eachAfter_nil _

variable {t p : Nat} {record : TlbRecord}

section

variable (h : tlb.Lined cfg)
include h

theorem Lined.of_mem_line
    (hmem : record ∈ tlb.pending ∨ record ∈ tlb.queue record.hwThreadId (cfg.vpn record.virtAddr)) :
    record.id < tlb.issued := by
  have honce := h.once record
  have hpos : 0 < (requests tlb.history).count record := by
    rcases hmem with hpending | hqueue
    · have := count_pos_iff.2 hpending
      omega
    · have := count_pos_iff.2 hqueue
      omega
  have hid : record.id ∈ (requests tlb.history).map TlbRecord.id :=
    mem_map_of_mem (count_pos_iff.1 hpos)
  rw [h.numbered] at hid
  exact mem_range.1 hid

theorem Lined.line_lt (hmem : record ∈ tlb.pending.filter (OfPage cfg t p) ++ tlb.queue t p) :
    record.id < tlb.issued := by
  rcases mem_append.1 hmem with hpending | hqueue
  · exact h.of_mem_line (.inl (mem_filter.1 hpending).1)
  · obtain ⟨rfl, rfl⟩ := h.ofPage t p record hqueue
    exact h.of_mem_line (.inr hqueue)

theorem Lined.queue_of_miss (hmiss : record ∈ tlb.misses) :
    ∃ rest, tlb.queue record.hwThreadId (cfg.vpn record.virtAddr) = record :: rest ∧
      tlb.misses.filter (OfPage cfg record.hwThreadId (cfg.vpn record.virtAddr)) = [record] := by
  cases hfind : (tlb.waitingMiss record.hwThreadId).find? (cfg.vpn record.virtAddr) with
  | none => exact absurd hfind (h.missed record hmiss)
  | some waiting =>
    obtain ⟨front, rest, rfl, hfilter⟩ := h.front _ _ _ hfind
    have hmem : record ∈ tlb.misses.filter
        (OfPage cfg record.hwThreadId (cfg.vpn record.virtAddr)) :=
      mem_filter.2 ⟨hmiss, decide_eq_true ⟨rfl, rfl⟩⟩
    rw [hfilter, mem_singleton] at hmem
    subst hmem
    refine ⟨rest, ?_, hfilter⟩
    rw [queue, hfind, getD_some]

theorem Lined.congr (hrequests : requests more = [])
    (hdeliveries : ∀ record addr, .delivered record addr ∉ more)
    (hhistory : tlb'.history = tlb.history ++ more) (hissued : tlb'.issued = tlb.issued)
    (hwaiting : tlb'.waitingMiss = tlb.waitingMiss) (hmisses : tlb'.misses = tlb.misses)
    (hlink : tlb'.selfLink = tlb.selfLink) (hnow : tlb.now ≤ tlb'.now) : tlb'.Lined cfg := by
  have hqueue (t p : Nat) : tlb'.queue t p = tlb.queue t p := by rw [queue, queue, hwaiting]
  have hpending : tlb'.pending = tlb.pending := by rw [pending, pending, hlink]
  have hnone : deliveries more = [] := by
    rw [deliveries, filterMap_eq_nil_iff]
    intro event hmem
    cases event with
    | delivered record addr => exact absurd hmem (hdeliveries record addr)
    | _ => rfl
  have hreq : requests tlb'.history = requests tlb.history := by
    rw [hhistory, requests_append, hrequests, append_nil]
  have hdel : deliveries tlb'.history = deliveries tlb.history := by
    rw [hhistory, deliveries_append, hnone, append_nil]
  constructor
  case numbered => rw [hreq, hissued, h.numbered]
  case once =>
    intro record
    rw [hreq, hdel, hqueue, hpending, h.once]
  case front => rw [hwaiting, hmisses]; exact h.front
  case ofPage =>
    intro t p record hmem
    exact h.ofPage t p record (hqueue t p ▸ hmem)
  case missed => rw [hmisses, hwaiting]; exact h.missed
  case line =>
    intro t p
    rw [hpending, hqueue]
    exact h.line t p
  case due => exact hlink ▸ h.due
  case dueBound =>
    intro pending hmem
    have hbound := h.dueBound pending (hlink ▸ hmem)
    omega
  case ordered =>
    rw [hhistory]
    refine h.ordered.append fun past event rest hmore record addr heq => ?_
    subst heq
    exact absurd (by rw [hmore]; simp) (hdeliveries record addr)

theorem Lined.answer {addr : Option Nat} (hid : record.id = tlb.issued)
    (hnone : (tlb.waitingMiss record.hwThreadId).find? (cfg.vpn record.virtAddr) = none) :
    (({ tlb with issued := tlb.issued + 1 }.note (.requested record)).send cfg.hitLatency
      record addr).Lined cfg := by
  have hrequests : requests (tlb.history ++ [.requested record] ++ [.sent record addr]) =
      requests tlb.history ++ [record] := by
    rw [requests_append, requests_append]
    exact append_nil _
  have hdeliveries : deliveries (tlb.history ++ [.requested record] ++ [.sent record addr]) =
      deliveries tlb.history := by
    rw [deliveries_append, deliveries_append]
    exact (append_nil _).trans (append_nil _)
  have hpending : (tlb.selfLink ++
      [(tlb.now + cfg.hitLatency, SelfEvent.mk record addr)]).map (fun p => p.2.record) =
      tlb.pending ++ [record] := map_append
  constructor
  case numbered =>
    show (requests (tlb.history ++ [.requested record] ++ [.sent record addr])).map _ =
      range (tlb.issued + 1)
    rw [hrequests, map_append, h.numbered, range_succ, map_singleton, hid]
  case once =>
    intro r
    show (deliveries (tlb.history ++ [.requested record] ++ [.sent record addr])).count r +
      (map (fun p => p.2.record) (tlb.selfLink ++
        [(tlb.now + cfg.hitLatency, SelfEvent.mk record addr)])).count r +
      (tlb.queue r.hwThreadId (cfg.vpn r.virtAddr)).count r =
      (requests (tlb.history ++ [.requested record] ++ [.sent record addr])).count r
    rw [hrequests, hdeliveries, hpending, count_append, count_append, ← h.once r]
    omega
  case front => exact h.front
  case ofPage => exact h.ofPage
  case missed => exact h.missed
  case line =>
    intro t p
    show (filter (OfPage cfg t p) (map (fun p => p.2.record) (tlb.selfLink ++
      [(tlb.now + cfg.hitLatency, SelfEvent.mk record addr)])) ++ tlb.queue t p).Pairwise _
    rw [hpending, filter_append]
    by_cases hpage : OfPage cfg t p record
    · obtain ⟨rfl, rfl⟩ := hpage
      have hline := h.line record.hwThreadId (cfg.vpn record.virtAddr)
      have hqueue : tlb.queue record.hwThreadId (cfg.vpn record.virtAddr) = [] := by
        rw [queue, hnone, getD_none]
      rw [hqueue, append_nil] at hline ⊢
      refine pairwise_append.2 ⟨hline, ?_, fun a ha b hb => ?_⟩
      · exact (pairwise_singleton _ record).filter _
      · rw [mem_singleton.1 (mem_filter.1 hb).1, hid]
        exact h.line_lt (mem_append_left _ ha)
    · rw [filter_cons_of_neg (by simpa using hpage), filter_nil, append_nil]
      exact h.line t p
  case due =>
    refine pairwise_append.2 ⟨h.due, pairwise_singleton _ _, fun a ha b hb => ?_⟩
    intro t p _ _
    rw [mem_singleton.1 hb]
    exact h.dueBound a ha
  case dueBound =>
    intro pending hmem
    rcases mem_append.1 hmem with hold | hnew
    · exact h.dueBound pending hold
    · rw [mem_singleton.1 hnew]
      exact le_rfl
  case ordered =>
    exact eachAfter_concat_iff.2 ⟨eachAfter_concat_iff.2
      ⟨h.ordered, fun _ _ heq => by cases heq⟩, fun _ _ heq => by cases heq⟩

theorem Lined.filter_misses_eq_nil (hnone : (tlb.waitingMiss t).find? p = none) :
    tlb.misses.filter (OfPage cfg t p) = [] := by
  refine filter_eq_nil_iff.2 fun record hmem hpage => ?_
  obtain ⟨rfl, rfl⟩ := of_decide_eq_true hpage
  exact h.missed record hmem hnone

theorem Lined.wait (hid : record.id = tlb.issued)
    (hhistory : tlb'.history = tlb.history ++ [.requested record])
    (hissued : tlb'.issued = tlb.issued + 1) (hlink : tlb'.selfLink = tlb.selfLink)
    (hnow : tlb'.now = tlb.now)
    (hmisses : tlb'.misses = tlb.misses ++
      if (tlb.waitingMiss record.hwThreadId).find? (cfg.vpn record.virtAddr) = none then
        [record] else [])
    (hwaiting : tlb'.waitingMiss = update tlb.waitingMiss record.hwThreadId
      ((tlb.waitingMiss record.hwThreadId).insert (cfg.vpn record.virtAddr)
        (tlb.queue record.hwThreadId (cfg.vpn record.virtAddr) ++ [record]))) :
    tlb'.Lined cfg := by
  have hfind (t p : Nat) : (tlb'.waitingMiss t).find? p =
      if OfPage cfg t p record then some (tlb.queue t p ++ [record])
      else (tlb.waitingMiss t).find? p := by
    rw [hwaiting]
    by_cases ht : t = record.hwThreadId
    · subst ht
      rw [update_self, OrderedMap.find?_insert]
      by_cases hp : p = cfg.vpn record.virtAddr
      · rw [if_pos hp, if_pos ⟨rfl, hp.symm⟩, hp]
      · rw [if_neg hp, if_neg fun hpage => hp hpage.2.symm]
    · rw [update_of_ne ht, if_neg fun hpage => ht hpage.1.symm]
  have hqueue (t p : Nat) : tlb'.queue t p =
      tlb.queue t p ++ if OfPage cfg t p record then [record] else [] := by
    rw [queue, hfind]
    split
    · rfl
    · exact (append_nil _).symm
  have hpending : tlb'.pending = tlb.pending := by rw [pending, pending, hlink]
  have hrequests : requests tlb'.history = requests tlb.history ++ [record] := by
    rw [hhistory, requests_append]
    rfl
  have hdeliveries : deliveries tlb'.history = deliveries tlb.history := by
    rw [hhistory, deliveries_append]
    exact append_nil _
  constructor
  case numbered =>
    rw [hrequests, hissued, map_append, h.numbered, range_succ, map_singleton, hid]
  case once =>
    intro r
    have hcount : ((if OfPage cfg r.hwThreadId (cfg.vpn r.virtAddr) record then [record] else
        []) : List TlbRecord).count r = [record].count r := by
      split
      · rfl
      · rename_i hpage
        rw [count_nil, eq_comm, count_eq_zero, mem_singleton]
        rintro rfl
        exact hpage ⟨rfl, rfl⟩
    rw [hrequests, hdeliveries, hpending, hqueue, count_append, count_append, hcount, ← h.once r]
    omega
  case front =>
    intro t p waiting hwait
    rw [hfind] at hwait
    rw [hmisses, filter_append]
    split at hwait
    case isTrue hpage =>
      cases hwait
      obtain ⟨rfl, rfl⟩ := hpage
      cases hold : (tlb.waitingMiss record.hwThreadId).find? (cfg.vpn record.virtAddr) with
      | none =>
        refine ⟨record, [], ?_, ?_⟩
        · rw [queue, hold]
          rfl
        · have hself : OfPage cfg record.hwThreadId (cfg.vpn record.virtAddr) record := ⟨rfl, rfl⟩
          rw [h.filter_misses_eq_nil hold, if_pos rfl, filter_cons, if_pos (decide_eq_true hself)]
          rfl
      | some waiting =>
        obtain ⟨front, rest, rfl, hfilter⟩ := h.front _ _ _ hold
        refine ⟨front, rest ++ [record], ?_, ?_⟩
        · rw [queue, hold]
          rfl
        · rw [hfilter, if_neg (some_ne_none _)]
          rfl
    case isFalse hpage =>
      obtain ⟨front, rest, rfl, hfilter⟩ := h.front t p waiting hwait
      refine ⟨front, rest, rfl, ?_⟩
      rw [hfilter]
      split
      · rw [filter_cons_of_neg (by simpa using hpage)]
        rfl
      · rfl
  case ofPage =>
    intro t p r hmem
    rw [hqueue] at hmem
    rcases mem_append.1 hmem with hold | hnew
    · exact h.ofPage t p r hold
    · split at hnew
      · rwa [mem_singleton.1 hnew]
      · cases hnew
  case missed =>
    intro r hmem
    rw [hfind]
    split
    · exact some_ne_none _
    · rename_i hpage
      rw [hmisses] at hmem
      rcases mem_append.1 hmem with hold | hnew
      · exact h.missed r hold
      · split at hnew
        · rw [mem_singleton.1 hnew] at hpage
          exact absurd ⟨rfl, rfl⟩ hpage
        · cases hnew
  case line =>
    intro t p
    rw [hpending, hqueue, ← append_assoc]
    refine pairwise_append.2 ⟨h.line t p, ?_, fun a ha b hb => ?_⟩
    · split
      · exact pairwise_singleton _ _
      · exact .nil
    · split at hb
      · rw [mem_singleton.1 hb, hid]
        exact h.line_lt ha
      · cases hb
  case due => exact hlink ▸ h.due
  case dueBound =>
    rw [hlink, hnow]
    exact h.dueBound
  case ordered =>
    rw [hhistory]
    exact eachAfter_concat_iff.2 ⟨h.ordered, fun _ _ heq => by cases heq⟩

end

theorem filter_eraseIdx {misses : List TlbRecord} {i : Nat} (hi : misses[i]? = some record) :
    (OfPage cfg t p record → misses.filter (OfPage cfg t p) = [record] →
      (misses.eraseIdx i).filter (OfPage cfg t p) = []) ∧ (¬OfPage cfg t p record →
      (misses.eraseIdx i).filter (OfPage cfg t p) = misses.filter (OfPage cfg t p)) := by
  have hsplit : misses = misses.take i ++ record :: misses.drop (i + 1) := by
    obtain ⟨hlt, rfl⟩ := List.getElem?_eq_some_iff.1 hi
    rw [getElem_cons_drop, take_append_drop]
  rw [eraseIdx_eq_take_drop_succ, filter_append]
  constructor
  · intro hpage hfilter
    rw [hsplit, filter_append, filter_cons, if_pos (decide_eq_true hpage)] at hfilter
    have hlength := congrArg length hfilter
    rw [length_append, length_cons, length_singleton] at hlength
    rw [← length_eq_zero_iff, length_append]
    omega
  · intro hpage
    conv_rhs => rw [hsplit, filter_append, filter_cons_of_neg (by simpa using hpage)]

section Fill

variable {i : Nat} {pte : Option PTE} {answers : List (TlbRecord × Option Nat)}
variable {rest : List TlbRecord}

theorem ofPage_congr {r : TlbRecord}
    (hr : OfPage cfg record.hwThreadId (cfg.vpn record.virtAddr) r) :
    OfPage cfg t p r ↔ OfPage cfg t p record := by
  unfold OfPage at hr ⊢
  rw [hr.1, hr.2]

section

variable (hwaiting : tlb'.waitingMiss = update tlb.waitingMiss record.hwThreadId
  (waitingAfter (tlb.waitingMiss record.hwThreadId) (cfg.vpn record.virtAddr) rest))
include hwaiting

theorem find?_fill (t p : Nat) : (tlb'.waitingMiss t).find? p =
    if OfPage cfg t p record then (if rest = [] then none else some rest)
    else (tlb.waitingMiss t).find? p := by
  rw [hwaiting]
  by_cases ht : t = record.hwThreadId
  · subst ht
    rw [update_self, find?_waitingAfter]
    by_cases hp : p = cfg.vpn record.virtAddr
    · have hpage : OfPage cfg record.hwThreadId p record := ⟨rfl, hp.symm⟩
      rw [if_pos hp, if_pos hpage]
    · rw [if_neg hp, if_neg fun hpage => hp hpage.2.symm]
  · rw [update_of_ne ht, if_neg fun hpage => ht hpage.1.symm]

theorem queue_fill (t p : Nat) : tlb'.queue t p =
    if OfPage cfg t p record then rest else tlb.queue t p := by
  rw [queue, find?_fill hwaiting]
  split
  · cases rest <;> rfl
  · rfl

end

section

variable (h : tlb.Lined cfg)
variable (hqueue : tlb.queue record.hwThreadId (cfg.vpn record.virtAddr) =
  answers.map Prod.fst ++ rest)
include h hqueue

theorem Lined.ofPage_answers : ∀ r ∈ answers.map Prod.fst,
    OfPage cfg record.hwThreadId (cfg.vpn record.virtAddr) r :=
  fun r hr => h.ofPage _ _ r (hqueue ▸ mem_append_left rest hr)

theorem Lined.ofPage_rest : ∀ r ∈ rest,
    OfPage cfg record.hwThreadId (cfg.vpn record.virtAddr) r :=
  fun r hr => h.ofPage _ _ r (hqueue ▸ mem_append_right _ hr)

variable (hi : tlb.misses[i]? = some record)
variable (hwaiting : tlb'.waitingMiss = update tlb.waitingMiss record.hwThreadId
  (waitingAfter (tlb.waitingMiss record.hwThreadId) (cfg.vpn record.virtAddr) rest))
variable (hmisses : tlb'.misses = tlb.misses.eraseIdx i ++ rest.head?.toList)
include hi hwaiting hmisses

/-- The miss of each line that waits is that of its first record. -/
theorem Lined.fill_front (t p : Nat) (waiting : List TlbRecord)
    (hwait : (tlb'.waitingMiss t).find? p = some waiting) :
    ∃ front rest', waiting = front :: rest' ∧
      tlb'.misses.filter (OfPage cfg t p) = [front] := by
  obtain ⟨-, -, hfilter⟩ := h.queue_of_miss (mem_of_getElem? hi)
  have hrest := h.ofPage_rest hqueue
  rw [find?_fill hwaiting] at hwait
  rw [hmisses, filter_append]
  split at hwait
  case isTrue hpage =>
    split at hwait
    case isTrue => cases hwait
    case isFalse hne =>
      cases hwait
      obtain ⟨next, rest', rfl⟩ := exists_cons_of_ne_nil hne
      have hnone := (filter_eraseIdx hi).1 hpage (by
        obtain ⟨rfl, rfl⟩ := hpage
        exact hfilter)
      refine ⟨next, rest', rfl, ?_⟩
      have hnext := (ofPage_congr (hrest next mem_cons_self)).2 hpage
      rw [hnone, head?_cons, toList_some, filter_cons, if_pos (decide_eq_true hnext)]
      rfl
  case isFalse hpage =>
    obtain ⟨front, rest', rfl, hold⟩ := h.front t p waiting hwait
    refine ⟨front, rest', rfl, ?_⟩
    have hhead : rest.head?.toList.filter (OfPage cfg t p) = [] := by
      refine filter_eq_nil_iff.2 fun r hr hin => hpage ?_
      rw [mem_toList] at hr
      exact (ofPage_congr (hrest r (mem_of_mem_head? hr))).1 (of_decide_eq_true hin)
    rw [(filter_eraseIdx hi).2 hpage, hold, hhead]
    rfl

theorem Lined.fill_missed (r : TlbRecord) (hr : r ∈ tlb'.misses) :
    (tlb'.waitingMiss r.hwThreadId).find? (cfg.vpn r.virtAddr) ≠ none := by
  obtain ⟨-, -, hfilter⟩ := h.queue_of_miss (mem_of_getElem? hi)
  rw [find?_fill hwaiting]
  rw [hmisses] at hr
  split
  case isTrue hpage =>
    rcases mem_append.1 hr with hold | hnew
    · have hnone := (filter_eraseIdx hi).1 hpage (by
        rw [← hpage.1, ← hpage.2]
        exact hfilter)
      have hin : r ∈ (tlb.misses.eraseIdx i).filter
          (OfPage cfg r.hwThreadId (cfg.vpn r.virtAddr)) :=
        mem_filter.2 ⟨hold, decide_eq_true ⟨rfl, rfl⟩⟩
      rw [hnone] at hin
      cases hin
    · rw [if_neg]
      · exact some_ne_none _
      · rintro rfl
        cases hnew
  case isFalse hpage =>
    rcases mem_append.1 hr with hold | hnew
    · exact h.missed r (mem_of_mem_eraseIdx hold)
    · rw [mem_toList] at hnew
      have hr' := h.ofPage_rest hqueue r (mem_of_mem_head? hnew)
      exact absurd ⟨hr'.1.symm, hr'.2.symm⟩ hpage

end

/-- A fill answers a line from its front and asks for its next record. -/
theorem Lined.fill (h : tlb.Lined cfg) (hi : tlb.misses[i]? = some record)
    (hdue : ∀ p ∈ tlb.selfLink,
      OfPage cfg record.hwThreadId (cfg.vpn record.virtAddr) p.2.record → p.1 ≤ tlb.now)
    (hqueue : tlb.queue record.hwThreadId (cfg.vpn record.virtAddr) = answers.map Prod.fst ++ rest)
    (hissued : tlb'.issued = tlb.issued) (hnow : tlb'.now = tlb.now)
    (hwaiting : tlb'.waitingMiss = update tlb.waitingMiss record.hwThreadId
      (waitingAfter (tlb.waitingMiss record.hwThreadId) (cfg.vpn record.virtAddr) rest))
    (hmisses : tlb'.misses = tlb.misses.eraseIdx i ++ rest.head?.toList)
    (hlink : tlb'.selfLink = tlb.selfLink ++
      answers.map fun answer => (tlb.now, SelfEvent.mk answer.1 answer.2))
    (hhistory : tlb'.history = tlb.history ++ .filled record pte ::
      answers.map fun answer => .sent answer.1 answer.2) :
    tlb'.Lined cfg := by
  have hpending : tlb'.pending = tlb.pending ++ answers.map Prod.fst := by
    rw [pending, hlink, map_append, List.map_map]
    rfl
  have hall := h.ofPage_answers hqueue
  have hrequests : requests tlb'.history = requests tlb.history := by
    rw [hhistory, requests_append]
    exact (congrArg _ (requests_sent answers)).trans (append_nil _)
  have hdeliveries : deliveries tlb'.history = deliveries tlb.history := by
    rw [hhistory, deliveries_append]
    exact (congrArg _ (deliveries_sent answers)).trans (append_nil _)
  constructor
  case numbered => rw [hrequests, hissued, h.numbered]
  case once =>
    intro r
    rw [hrequests, hdeliveries, hpending, queue_fill hwaiting, count_append, ← h.once r]
    split
    case isTrue hpage =>
      rw [← hpage.1, ← hpage.2, hqueue, count_append]
      omega
    case isFalse hpage =>
      have hzero : (answers.map Prod.fst).count r = 0 :=
        count_eq_zero.2 fun hr => hpage
          ⟨(hall r hr).1.symm, (hall r hr).2.symm⟩
      omega
  case front => exact h.fill_front hqueue hi hwaiting hmisses
  case ofPage =>
    intro t p r hr
    rw [queue_fill hwaiting] at hr
    split at hr
    case isTrue hpage => exact (ofPage_congr (h.ofPage_rest hqueue r hr)).2 hpage
    case isFalse => exact h.ofPage t p r hr
  case missed => exact h.fill_missed hqueue hi hwaiting hmisses
  case line =>
    intro t p
    rw [hpending, queue_fill hwaiting, filter_append]
    by_cases hpage : OfPage cfg t p record
    · have hkept : (answers.map Prod.fst).filter (OfPage cfg t p) = answers.map Prod.fst :=
        filter_eq_self.2 fun r hr => decide_eq_true ((ofPage_congr (hall r hr)).2 hpage)
      obtain ⟨rfl, rfl⟩ := hpage
      rw [if_pos ⟨rfl, rfl⟩, hkept, append_assoc, ← hqueue]
      exact h.line _ _
    · have hnone : (answers.map Prod.fst).filter (OfPage cfg t p) = [] :=
        filter_eq_nil_iff.2 fun r hr hin =>
          hpage ((ofPage_congr (hall r hr)).1 (of_decide_eq_true hin))
      rw [if_neg hpage, hnone, append_nil]
      exact h.line t p
  case due =>
    rw [hlink]
    refine pairwise_append.2 ⟨h.due, ?_, ?_⟩
    · exact pairwise_map.2 (pairwise_of_forall fun _ _ _ _ _ _ => le_rfl)
    · intro a ha b hb t p hpa hpb
      obtain ⟨answer, hanswer, rfl⟩ := mem_map.1 hb
      have hclass := hall answer.1 (mem_map_of_mem hanswer)
      refine hdue a ha ⟨?_, ?_⟩
      · rw [hpa.1, ← hpb.1]
        exact hclass.1
      · rw [hpa.2, ← hpb.2]
        exact hclass.2
  case dueBound =>
    intro pending hmem
    rw [hlink] at hmem
    rw [hnow]
    rcases mem_append.1 hmem with hold | hnew
    · exact h.dueBound pending hold
    · obtain ⟨answer, -, rfl⟩ := mem_map.1 hnew
      exact Nat.le_add_right _ _
  case ordered =>
    rw [hhistory]
    refine h.ordered.append fun past event rest hmore r addr heq => ?_
    subst heq
    have hin : TlbEvent.delivered r addr ∈ TlbEvent.filled record pte ::
        answers.map fun answer => TlbEvent.sent answer.1 answer.2 := by
      rw [hmore]
      simp
    simp at hin

end Fill

theorem Lined.deliver {pending : Nat × SelfEvent} (h : tlb.Lined cfg)
    (hfind : tlb.selfLink.find? (fun pending => pending.1 ≤ tlb.now) = some pending) :
    ({ tlb with selfLink := tlb.selfLink.eraseP fun pending => pending.1 ≤ tlb.now }.note
      (.delivered pending.2.record pending.2.addr)).Lined cfg := by
  obtain ⟨hdue, before, after, hlink, hbefore⟩ := find?_eq_some_iff_append.1 hfind
  have hnow : pending.1 ≤ tlb.now := of_decide_eq_true hdue
  have herase : tlb.selfLink.eraseP (fun pending => pending.1 ≤ tlb.now) = before ++ after := by
    rw [hlink, eraseP_append_right, eraseP_cons, hdue, cond_true]
    intro p hp
    simpa using hbefore p hp
  rw [herase]
  have hpendings : tlb.pending =
      before.map (fun p => p.2.record) ++ pending.2.record :: after.map fun p => p.2.record := by
    rw [SimpleTLB.pending, hlink, map_append, map_cons]
  have hrest : (before ++ after).map (fun p => p.2.record) =
      before.map (fun p => p.2.record) ++ after.map fun p => p.2.record := map_append
  have hpairs := h.due
  rw [hlink] at hpairs
  -- those of the line before it would be due, too
  have hnone : (before.map fun p => p.2.record).filter
      (OfPage cfg pending.2.record.hwThreadId (cfg.vpn pending.2.record.virtAddr)) = [] := by
    refine filter_eq_nil_iff.2 fun r hr hpage => ?_
    obtain ⟨p, hp, rfl⟩ := mem_map.1 hr
    have hle := (pairwise_append.1 hpairs).2.2 p hp pending mem_cons_self _ _
      (of_decide_eq_true hpage) ⟨rfl, rfl⟩
    have hlater := hbefore p hp
    simp only [Bool.not_eq_true', decide_eq_false_iff_not] at hlater
    omega
  constructor
  case numbered =>
    show (requests (tlb.history ++ [_])).map _ = _
    rw [requests_append]
    exact (congrArg (map TlbRecord.id) (append_nil _)).trans h.numbered
  case once =>
    intro r
    show (deliveries (tlb.history ++ [.delivered pending.2.record pending.2.addr])).count r +
      ((before ++ after).map fun p => p.2.record).count r +
      (tlb.queue r.hwThreadId (cfg.vpn r.virtAddr)).count r =
      (requests (tlb.history ++ [.delivered pending.2.record pending.2.addr])).count r
    have honce := h.once r
    have hdelivered : deliveries (tlb.history ++ [.delivered pending.2.record pending.2.addr]) =
        deliveries tlb.history ++ [pending.2.record] := deliveries_append _ _
    have hrequested : requests (tlb.history ++ [.delivered pending.2.record pending.2.addr]) =
        requests tlb.history := (requests_append _ _).trans (append_nil _)
    rw [hpendings, count_append, count_cons] at honce
    rw [hdelivered, hrequested, hrest, count_append, count_append, ← honce, count_cons, count_nil]
    omega
  case front => exact h.front
  case ofPage => exact h.ofPage
  case missed => exact h.missed
  case line =>
    intro t p
    refine (h.line t p).sublist (List.Sublist.append_right ?_ _)
    rw [hpendings]
    refine List.Sublist.filter _ ?_
    show ((before ++ after).map fun p => p.2.record).Sublist _
    rw [hrest]
    exact (sublist_cons_self _ _).append_left _
  case due =>
    refine hpairs.sublist ?_
    exact (sublist_cons_self _ _).append_left _
  case dueBound =>
    intro p hp
    refine h.dueBound p (hlink ▸ ?_)
    rcases mem_append.1 hp with hold | hnew
    · exact mem_append_left _ hold
    · exact mem_append_right _ (mem_cons_of_mem _ hnew)
  case ordered =>
    refine eachAfter_concat_iff.2 ⟨h.ordered, ?_⟩
    intro r addr heq earlier hearlier hpage hlt
    obtain ⟨rfl, -⟩ := TlbEvent.delivered.inj heq
    have hline := h.line pending.2.record.hwThreadId (cfg.vpn pending.2.record.virtAddr)
    have hself : OfPage cfg pending.2.record.hwThreadId (cfg.vpn pending.2.record.virtAddr)
        pending.2.record := ⟨rfl, rfl⟩
    rw [hpendings, filter_append, hnone, nil_append, filter_cons,
      if_pos (decide_eq_true hself), cons_append] at hline
    have hnotin : earlier ∉ (after.map fun p => p.2.record).filter (OfPage cfg
        pending.2.record.hwThreadId (cfg.vpn pending.2.record.virtAddr)) ++
        tlb.queue pending.2.record.hwThreadId (cfg.vpn pending.2.record.virtAddr) := by
      intro hin
      have hgt := rel_of_pairwise_cons hline hin
      omega
    have hpendingZero : tlb.pending.count earlier = 0 := by
      rw [count_eq_zero, hpendings]
      intro hin
      rcases mem_append.1 hin with hbef | htail
      · have hfiltered : earlier ∈ (before.map fun p => p.2.record).filter (OfPage cfg
            pending.2.record.hwThreadId (cfg.vpn pending.2.record.virtAddr)) :=
          mem_filter.2 ⟨hbef, decide_eq_true hpage⟩
        rw [hnone] at hfiltered
        cases hfiltered
      · rcases mem_cons.1 htail with rfl | haft
        · exact lt_irrefl _ hlt
        · exact hnotin (mem_append_left _ (mem_filter.2 ⟨haft, decide_eq_true hpage⟩))
    have hqueueZero : (tlb.queue earlier.hwThreadId (cfg.vpn earlier.virtAddr)).count earlier =
        0 := by
      rw [count_eq_zero, hpage.1, hpage.2]
      exact fun hin => hnotin (mem_append_right _ hin)
    have hpos : 0 < (requests tlb.history).count earlier := count_pos_iff.2 hearlier
    have honce := h.once earlier
    have hdelivered : 0 < (deliveries tlb.history).count earlier := by omega
    exact count_pos_iff.1 hdelivered

end Lines

section Runs

/-- The invariant of regular runs. -/
structure Ready (cfg : Config) (tlb : SimpleTLB) : Prop where
  running : tlb.failed = false
  translating : tlb.Translating cfg
  lined : tlb.Lined cfg

theorem Ready.sound (h : tlb.Ready cfg) : tlb.Sound cfg where
  __ := h.lined
  running := h.running
  settled hmisses hlink record hmem := by
    have honce := h.lined.once record
    have hcount : (requests tlb.history).count record = 1 :=
      count_eq_one_of_mem
        (List.Nodup.of_map TlbRecord.id (h.lined.numbered ▸ nodup_range)) hmem
    have hpending : tlb.pending.count record = 0 := by
      rw [pending, hlink]
      rfl
    have hqueue : (tlb.queue record.hwThreadId (cfg.vpn record.virtAddr)).count record = 0 := by
      cases hfind : (tlb.waitingMiss record.hwThreadId).find? (cfg.vpn record.virtAddr) with
      | none =>
        rw [queue, hfind]
        rfl
      | some waiting =>
        obtain ⟨front, rest, -, hfilter⟩ := h.lined.front _ _ _ hfind
        rw [hmisses] at hfilter
        cases hfilter
    omega
  translated := h.translating.translated
  outstanding := h.lined.front

theorem initial_ready : (initial cfg).Ready cfg where
  running := rfl
  translating := initial_translating
  lined := initial_lined

theorem Ready.fill {i : Nat} {pte : Option PTE} {random : Nat} (h : tlb.Ready cfg)
    (hi : tlb.misses[i]? = some record) (hregular : tlb.Regular cfg (.fill i pte random)) :
    ({ tlb with misses := tlb.misses.eraseIdx i }.handleFill cfg record pte random).Ready
      cfg := by
  obtain ⟨hdue, hfits⟩ := hregular record hi
  obtain ⟨tail, hqueue, -⟩ := h.lined.queue_of_miss (mem_of_getElem? hi)
  obtain ⟨set, answers, rest, hanswers, hset, hgranted, heq⟩ := @handleFill_spec cfg
    { tlb with misses := tlb.misses.eraseIdx i } record pte random (h.translating.setSize _ _)
    (by
      intro hpte
      obtain ⟨hvpn, htag⟩ := hfits (isSome_iff_ne_none.2 hpte)
      refine ⟨?_, htag.imp id fun halone => congrArg List.tail halone⟩
      by_cases hzero : cfg.vpn record.virtAddr = 0
      · rw [hzero]
        exact .inr (isSome_iff_exists.1 (hvpn.resolve_left (not_not_intro hzero)))
      · exact .inl hzero)
  have htail : answers.map Prod.fst ++ rest = tail := hanswers.trans (congrArg List.tail hqueue)
  rw [heq]
  refine ⟨h.running, h.translating.handleFill ?_ ?_ rfl rfl,
    h.lined.fill hi hdue ?_ rfl rfl rfl rfl rfl rfl⟩
  · exact hset.imp id fun ⟨granted, hpte, hfill⟩ => ⟨granted, _, hpte, hfill⟩
  · intro r addr hmem
    rcases mem_cons.1 hmem with hfirst | hrest
    · obtain ⟨rfl, haddr⟩ := Prod.mk.inj hfirst
      obtain ⟨granted, hpte, rfl⟩ := map_eq_some_iff.1 haddr.symm
      exact ⟨granted, hpte, rfl, ⟨rfl, rfl⟩, .inr rfl⟩
    · obtain ⟨granted, hpte, haddr, hperms⟩ := hgranted r addr hrest
      refine ⟨granted, hpte, haddr, h.lined.ofPage _ _ r ?_, .inl hperms⟩
      rw [hqueue, ← htail]
      exact mem_cons_of_mem _ (mem_append_left _ (mem_map_of_mem hrest))
  · rw [hqueue, ← htail]
    rfl

/-- A regular step keeps the tables in step with the operating system. -/
theorem Ready.step {op : TlbOp} (h : tlb.Ready cfg) (hregular : tlb.Regular cfg op)
    (hstep : tlb.step cfg op = some tlb') :
    tlb'.Ready cfg := by
  unfold SimpleTLB.step at hstep
  rw [if_neg (by rw [h.running]; decide)] at hstep
  cases op with
  | request reqId hwThreadId virtAddr perms instPtr =>
    cases hstep
    refine ⟨?_, h.translating.getVirtToPhys hregular, ?_⟩
    · unfold getVirtToPhys
      dsimp only
      rw [miss_eq]
      split
      · exact h.running
      · split <;> exact h.running
    · unfold getVirtToPhys
      split
      case isTrue hout => exact h.lined.answer rfl (hregular.1 hout)
      case isFalse =>
        split
        case h_1 entry hhit =>
          refine h.lined.answer rfl ?_
          obtain ⟨-, hcond⟩ := filter_eq_some_iff.1 hhit
          exact isNone_iff_eq_none.1 (Bool.and_eq_true_iff.1 hcond).2
        case h_2 =>
          rw [miss_eq]
          exact @Lined.wait cfg tlb _ ⟨tlb.issued, reqId, hwThreadId, virtAddr, perms, instPtr⟩
            h.lined rfl rfl rfl rfl rfl rfl rfl
  | fill i pte random =>
    obtain ⟨record, hi, rfl⟩ := map_eq_some_iff.1 hstep
    exact h.fill hi hregular
  | flush hwThread =>
    cases hstep
    refine ⟨h.running, h.translating.flushThread, ?_⟩
    exact @Lined.congr cfg tlb _ [.flushed hwThread] h.lined rfl (by simp) rfl rfl rfl rfl rfl
      le_rfl
  | deliver =>
    obtain ⟨pending, hfind, rfl⟩ := map_eq_some_iff.1 hstep
    exact ⟨h.running, h.translating.concat rfl rfl nofun nofun, h.lined.deliver hfind⟩
  | advance =>
    dsimp only at hstep
    split at hstep
    case isTrue =>
      cases hstep
      refine ⟨h.running, h.translating.append rfl (append_nil _).symm nofun (by simp), ?_⟩
      exact @Lined.congr cfg tlb _ [] h.lined rfl nofun (append_nil _).symm rfl rfl rfl rfl
        (Nat.le_succ _)
    case isFalse => cases hstep

/-- In a run of regular steps the buffer is sound in every state. -/
theorem translates_soundly {ops : List TlbOp}
    (hregular : StepsMeet (step cfg) (Regular cfg) (initial cfg) ops) :
    Throughout (step cfg) (Sound cfg) (initial cfg) ops := by
  have hready := throughout_of_stepsMeet (P := Ready cfg)
    (fun _ op _ h (hok : Regular cfg _ op) hstep => h.step hok hstep) initial_ready hregular
  exact hready.imp fun _ h => h.sound

def twoPages : Config := ⟨4, 2, 1, 4096, 0x80000000, 12, by decide, by decide, by decide⟩

/-- Two requests for a page, a third one that needs the permission to write, and a flush
between its miss and its fill. -/
def someRequests : List TlbOp :=
  [.request 7 0 0x2004 4 0, .request 8 0 0x2008 4 0, .request 9 0 0x200c 2 0,
    .fill 0 (some ⟨4, 50, by decide, by decide⟩) 5, .deliver, .deliver, .flush 0,
    .fill 0 (some ⟨6, 51, by decide, by decide⟩) 1, .deliver, .request 10 0 0x2010 2 0,
    .advance, .deliver]

theorem translates_soundly_someRequests :
    (runOps (step twoPages) (initial twoPages) someRequests).isSome ∧
      Throughout (step twoPages) (Sound twoPages) (initial twoPages) someRequests :=
  ⟨by decide +kernel, translates_soundly (by decide +kernel)⟩

/-- Three entries: the pages two and three have the same place and the same tag. -/
def threeEntries : Config := ⟨3, 2, 1, 4096, 0x80000000, 12, by decide, by decide, by decide⟩

def aliasRequests : List TlbOp :=
  [.request 7 0 0x2004 4 0, .fill 0 (some ⟨4, 50, by decide, by decide⟩) 5, .deliver,
    .request 8 0 0x3008 4 0]

/-- With three entries the third page is answered with the frame of the second one. -/
theorem alias_translated :
    ¬∀ (cfg : Config) (ops : List TlbOp),
      Throughout (step cfg) (Sound cfg) (initial cfg) ops := by
  intro hall
  obtain ⟨final, hrun⟩ := isSome_iff_exists.1
    (show (runOps (step threeEntries) (initial threeEntries) aliasRequests).isSome by
      decide +kernel)
  have hsound := hall threeEntries aliasRequests aliasRequests final prefix_rfl hrun
  have hhistory : (runOps (step threeEntries) (initial threeEntries) aliasRequests).map history =
      some ([.requested ⟨0, 7, 0, 0x2004, 4, 0⟩,
        .filled ⟨0, 7, 0, 0x2004, 4, 0⟩ (some ⟨4, 50, by decide, by decide⟩),
        .sent ⟨0, 7, 0, 0x2004, 4, 0⟩ (some 0x32004),
        .delivered ⟨0, 7, 0, 0x2004, 4, 0⟩ (some 0x32004), .requested ⟨1, 8, 0, 0x3008, 4, 0⟩] ++
        .sent ⟨1, 8, 0, 0x3008, 4, 0⟩ (some 0x32008) :: []) := by
    decide +kernel
  rw [hrun, map_some, Option.some.injEq] at hhistory
  obtain ⟨filled, pte, ⟨hpage, before, after, hpast, -⟩, -⟩ :=
    hsound.translated _ _ [] hhistory _ _ rfl
  have hmem : TlbEvent.filled filled (some pte) ∈
      before ++ .filled filled (some pte) :: after := by simp
  rw [← hpast] at hmem
  simp only [mem_cons, reduceCtorEq, TlbEvent.filled.injEq, not_mem_nil, or_false, false_or] at hmem
  rw [hmem.1] at hpage
  exact absurd hpage (by decide +kernel)

end Runs

end SstElements.Mmu.SimpleTLB
