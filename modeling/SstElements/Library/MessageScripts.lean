import SstElements.Library.MessagePassing
import SstElements.Library.Transition

/-!
# Processes that follow scripts

If every process makes the calls of a script, whatever the order in which messages arrive,
and the scripts agree about the messages of each channel, then every run is finite and ends
with all processes finished and all messages received.
-/

namespace SstElements.Library

open Function List Option

variable {L S T D : Type}

section Lists

variable {α : Type} {l : List α} {i : Nat} {a : α}

theorem eq_take_cons_drop_of_getElem? (h : l[i]? = some a) :
    l = l.take i ++ a :: l.drop (i + 1) := by
  obtain ⟨hlt, rfl⟩ := List.getElem?_eq_some_iff.1 h
  rw [getElem_cons_drop hlt, take_append_drop]

theorem filter_eraseIdx_of_first {q : α → Bool} (h : l[i]? = some a)
    (hfirst : ∀ b ∈ l.take i, ¬ q b) (ha : q a) :
    l.filter q = a :: (l.eraseIdx i).filter q := by
  have hnone : (l.take i).filter q = [] := filter_eq_nil_iff.2 hfirst
  rw [eraseIdx_eq_take_drop_succ, filter_append, hnone, nil_append]
  conv => lhs; rw [eq_take_cons_drop_of_getElem? h]
  rw [filter_append, hnone, nil_append, filter_cons_of_pos ha]

theorem filter_eraseIdx_of_neg {q : α → Bool} (h : l[i]? = some a) (ha : ¬ q a) :
    (l.eraseIdx i).filter q = l.filter q := by
  rw [eraseIdx_eq_take_drop_succ, filter_append]
  conv => rhs; rw [eq_take_cons_drop_of_getElem? h]
  rw [filter_append, filter_cons_of_neg ha]

theorem exists_first {q : α → Prop} [DecidablePred q] (h : l.filter q ≠ []) :
    ∃ (i : Nat) (a : α), l[i]? = some a ∧ q a ∧ ∀ b ∈ l.take i, ¬ q b := by
  induction l with
  | nil =>
    exact absurd rfl h
  | cons b l ih =>
    by_cases hb : q b
    · exact ⟨0, b, rfl, hb, by simp⟩
    · rw [filter_cons_of_neg (by simpa using hb)] at h
      obtain ⟨i, a, hget, ha, hfirst⟩ := ih h
      refine ⟨i + 1, a, hget, ha, fun c hc => ?_⟩
      rcases mem_cons.1 hc with rfl | hc
      · exact hb
      · exact hfirst c hc

end Lists

variable {m : Message S T D}

section Requests

def requestsOf (calls : List (Call S T D)) : List (Request S T D) := calls.flatMap Call.requests

def messagesOf (r : Nat) (calls : List (Call S T D)) : List (Message S T D) :=
  (requestsOf calls).filterMap (Request.message r)

def receivesOf (r : Nat) (calls : List (Call S T D)) : List (Receive S T) :=
  (requestsOf calls).filterMap (Request.receive r)

@[simp] theorem requestsOf_nil : requestsOf ([] : List (Call S T D)) = [] := rfl

@[simp] theorem requestsOf_cons (call : Call S T D) (calls : List (Call S T D)) :
    requestsOf (call :: calls) = call.requests ++ requestsOf calls := rfl

@[simp] theorem requestsOf_append (calls more : List (Call S T D)) :
    requestsOf (calls ++ more) = requestsOf calls ++ requestsOf more :=
  flatMap_append

theorem messagesOf_append (r : Nat) (calls more : List (Call S T D)) :
    messagesOf r (calls ++ more) = messagesOf r calls ++ messagesOf r more := by
  simp [messagesOf, requestsOf]

theorem messagesOf_singleton (r : Nat) (call : Call S T D) :
    messagesOf r [call] = call.requests.filterMap (Request.message r) := by
  simp [messagesOf, requestsOf]

theorem receivesOf_singleton (r : Nat) (call : Call S T D) :
    receivesOf r [call] = call.requests.filterMap (Request.receive r) := by
  simp [receivesOf, requestsOf]

variable {r : Nat} {calls : List (Call S T D)} {c : Channel T}

theorem mem_messagesOf_iff :
    m ∈ messagesOf r calls ↔
      m.channel.src = r ∧ .send m.slot m.channel.dst m.channel.tag m.data ∈ requestsOf calls := by
  rw [messagesOf, mem_filterMap]
  constructor
  · rintro ⟨request, hmem, hmessage⟩
    cases request with
    | recv slot src tag => cases hmessage
    | send slot dst tag data =>
      cases hmessage
      exact ⟨rfl, hmem⟩
  · rintro ⟨rfl, hmem⟩
    exact ⟨_, hmem, rfl⟩

theorem mem_receivesOf_iff {v : Receive S T} :
    v ∈ receivesOf r calls ↔
      v.channel.dst = r ∧ .recv v.slot v.channel.src v.channel.tag ∈ requestsOf calls := by
  rw [receivesOf, mem_filterMap]
  constructor
  · rintro ⟨request, hmem, hreceive⟩
    cases request with
    | send slot dst tag data => cases hreceive
    | recv slot src tag =>
      cases hreceive
      exact ⟨rfl, hmem⟩
  · rintro ⟨rfl, hmem⟩
    exact ⟨_, hmem, rfl⟩

variable [DecidableEq T]

/-- The messages of some calls on a channel. -/
def sendsOn (c : Channel T) (calls : List (Call S T D)) : List (Message S T D) :=
  (messagesOf c.src calls).filter fun m => m.channel = c

def recvsOn (c : Channel T) (calls : List (Call S T D)) : List (Receive S T) :=
  (receivesOf c.dst calls).filter fun v => v.channel = c

theorem sendsOn_append (c : Channel T) (calls more : List (Call S T D)) :
    sendsOn c (calls ++ more) = sendsOn c calls ++ sendsOn c more := by
  rw [sendsOn, messagesOf_append, filter_append]
  rfl

theorem recvsOn_append (c : Channel T) (calls more : List (Call S T D)) :
    recvsOn c (calls ++ more) = recvsOn c calls ++ recvsOn c more := by
  simp [recvsOn, receivesOf, requestsOf]

@[simp] theorem sendsOn_nil (c : Channel T) : sendsOn c ([] : List (Call S T D)) = [] := rfl

@[simp] theorem recvsOn_nil (c : Channel T) : recvsOn c ([] : List (Call S T D)) = [] := rfl

theorem filter_messagesOf_of_ne (h : r ≠ c.src) :
    ((messagesOf r calls).filter fun m => m.channel = c) = [] := by
  refine filter_eq_nil_iff.2 fun m hm => ?_
  rw [decide_eq_true_eq]
  rintro rfl
  exact h (mem_messagesOf_iff.1 hm).1.symm

theorem filter_receivesOf_of_ne (h : r ≠ c.dst) :
    ((receivesOf r calls).filter fun v => v.channel = c) = [] := by
  refine filter_eq_nil_iff.2 fun v hv => ?_
  rw [decide_eq_true_eq]
  rintro rfl
  exact h (mem_receivesOf_iff.1 hv).1.symm

end Requests

section Scripts

variable [DecidableEq T]

/-- Scripts that the processes follow.  `Good` says what holds of a process that waits for some
requests, has the rest of its script before it and has received the messages of some slots.
The next call of a process has a time, and no process waits for a later call of another. -/
structure Scripted (p : Process L S T D) (n : Nat) (init : Nat → L) where
  script : Nat → List (Call S T D)
  value : Nat → S → D
  Good : Nat → Option (List S) → List (Call S T D) → (S → Prop) → L → Prop
  time : Nat → List (Call S T D) → Nat
  outside : ∀ r, n ≤ r → script r = []
  start : ∀ r < n, Good r (some []) (script r) (fun _ => False) (init r)
  ends : ∀ r w rest arrived l, Good r w rest arrived l → (w = none ↔ rest = [])
  enter : ∀ r < n, ∀ done ws call rest arrived l, script r = done ++ call :: rest →
    Good r (some ws) (call :: rest) arrived l →
    (∀ slot ∈ ws, ∀ src tag, .recv slot src tag ∈ requestsOf done → arrived slot) →
    ∃ l', p.enter l = some (call, l') ∧ Good r call.waits rest arrived l'
  write : ∀ r < n, ∀ done w rest arrived l, script r = done ++ rest → Good r w rest arrived l →
    ∀ slot src tag, .recv slot src tag ∈ requestsOf done → ¬ arrived slot →
    Good r w rest (fun x => arrived x ∨ x = slot) (p.write slot (value r slot) l)
  matching : ∀ c : Channel T, (sendsOn c (script c.src)).map Message.data =
    (recvsOn c (script c.dst)).map fun v => value c.dst v.slot
  slots : ∀ r, ((requestsOf (script r)).map Request.slot).Nodup
  receiveTime : ∀ r < n, ∀ done ws rest arrived l, script r = done ++ rest →
    Good r (some ws) rest arrived l → ∀ slot ∈ ws, ∀ src tag,
    .recv slot src tag ∈ requestsOf done → ∀ done' rest', script src = done' ++ rest' →
    (sendsOn ⟨src, r, tag⟩ done').length < (recvsOn ⟨src, r, tag⟩ done).length →
    time src rest' < time r rest
  sendTime : ∀ r < n, ∀ done ws rest arrived l, script r = done ++ rest →
    Good r (some ws) rest arrived l → ∀ slot ∈ ws, ∀ dst tag data,
    .send slot dst tag data ∈ requestsOf done → ∀ done' rest', script dst = done' ++ rest' →
    (recvsOn ⟨r, dst, tag⟩ done').length < (sendsOn ⟨r, dst, tag⟩ done).length →
    time dst rest' < time r rest

variable {p : Process L S T D} {n : Nat} {init : Nat → L}

namespace Scripted

/-- A slot whose message has been received. -/
def Arrived (s : Network L S T D) (done : Nat → List (Call S T D)) (r : Nat) (slot : S) : Prop :=
  (∃ src tag, .recv slot src tag ∈ requestsOf (done r)) ∧
    ∀ v ∈ s.receives, v.channel.dst = r → v.slot ≠ slot

/-- How far the processes are in their scripts, and how many messages of each channel have
met a receive. -/
structure Follows (h : Scripted p n init) (done rest : Nat → List (Call S T D))
    (matched : Channel T → Nat) (s : Network L S T D) : Prop where
  split : ∀ r, h.script r = done r ++ rest r
  good : ∀ r < n, h.Good r (s.waits r) (rest r) (Arrived s done r) (s.state r)
  messages : ∀ c, (s.messages.filter fun m => m.channel = c) =
    (sendsOn c (done c.src)).drop (matched c)
  receives : ∀ c, (s.receives.filter fun v => v.channel = c) =
    (recvsOn c (done c.dst)).drop (matched c)
  matchedSends : ∀ c, matched c ≤ (sendsOn c (done c.src)).length
  matchedRecvs : ∀ c, matched c ≤ (recvsOn c (done c.dst)).length
  sent : ∀ r, (s.sent.filter fun m => m.channel.src = r) = messagesOf r (done r)

variable {h : Scripted p n init} {done rest : Nat → List (Call S T D)}
variable {matched : Channel T → Nat} {s : Network L S T D}

theorem Follows.create (h : Scripted p n init) :
    h.Follows (fun _ => []) h.script (fun _ => 0) (Network.create init) where
  split := fun _ => rfl
  good := by
    intro r hr
    have harrived : Arrived (Network.create init) (fun _ => ([] : List (Call S T D))) r =
        fun _ => False := by
      funext slot
      refine eq_false ?_
      rintro ⟨⟨src, tag, hmem⟩, -⟩
      exact not_mem_nil hmem
    rw [harrived]
    exact h.start r hr
  messages := fun _ => rfl
  receives := fun _ => rfl
  matchedSends := fun _ => le_refl _
  matchedRecvs := fun _ => le_refl _
  sent := fun _ => rfl

section

variable (f : h.Follows done rest matched s)
include f

theorem Follows.message_mem (hm : m ∈ s.messages) :
    .send m.slot m.channel.dst m.channel.tag m.data ∈ requestsOf (done m.channel.src) := by
  have hfilter : m ∈ s.messages.filter fun x => x.channel = m.channel :=
    mem_filter.2 ⟨hm, decide_eq_true rfl⟩
  rw [f.messages m.channel] at hfilter
  exact (mem_messagesOf_iff.1 (mem_filter.1 (mem_of_mem_drop hfilter)).1).2

theorem Follows.receive_mem {v : Receive S T}
    (hv : v ∈ s.receives) :
    .recv v.slot v.channel.src v.channel.tag ∈ requestsOf (done v.channel.dst) := by
  have hfilter : v ∈ s.receives.filter fun x => x.channel = v.channel :=
    mem_filter.2 ⟨hv, decide_eq_true rfl⟩
  rw [f.receives v.channel] at hfilter
  exact (mem_receivesOf_iff.1 (mem_filter.1 (mem_of_mem_drop hfilter)).1).2

theorem Follows.request_unique {r : Nat} {a b : Request S T D}
    (ha : a ∈ requestsOf (done r)) (hb : b ∈ requestsOf (done r)) (hslot : a.slot = b.slot) :
    a = b := by
  have hnodup := h.slots r
  rw [f.split r, requestsOf, flatMap_append, map_append] at hnodup
  exact inj_on_of_nodup_map (List.Nodup.of_append_left hnodup) ha hb hslot

theorem Follows.nodup_recvsOn (c : Channel T) :
    ((recvsOn c (done c.dst)).map Receive.slot).Nodup := by
  have hnodup := h.slots c.dst
  rw [f.split c.dst, requestsOf, flatMap_append, map_append] at hnodup
  refine List.Sublist.nodup ?_ (List.Nodup.of_append_left hnodup)
  refine (filter_sublist.map _).trans ?_
  change (((requestsOf (done c.dst)).filterMap (Request.receive c.dst)).map Receive.slot).Sublist
    ((requestsOf (done c.dst)).map Request.slot)
  generalize requestsOf (done c.dst) = requests
  induction requests with
  | nil =>
    exact .slnil
  | cons request requests ih =>
    cases request with
    | send slot dst tag data =>
      exact ih.cons _
    | recv slot src tag =>
      exact ih.cons_cons _

end

variable {t : Network L S T D}

section Ask

variable {r : Nat} {call : Call S T D} {left : List (Call S T D)}

theorem Follows.slot_ne (f : h.Follows done rest matched s) {a b : Request S T D}
    (hrest : rest r = call :: left) (ha : a ∈ requestsOf (done r)) (hb : b ∈ call.requests) :
    a.slot ≠ b.slot := by
  have hnodup := h.slots r
  rw [f.split r, hrest, requestsOf, flatMap_append, flatMap_cons, map_append, map_append] at hnodup
  exact (nodup_append.1 hnodup).2.2 _ (mem_map_of_mem ha) _
    (mem_append_left _ (mem_map_of_mem hb))

theorem Follows.arrived_ask (f : h.Follows done rest matched s) (hrest : rest r = call :: left)
    (l' : L) (other : Nat) :
    Arrived (s.ask r call l') (update done r (done r ++ [call])) other = Arrived s done other := by
  funext slot
  refine propext ?_
  have hnew : ∀ v ∈ call.requests.filterMap (Request.receive r),
      v.channel.dst = r ∧ .recv v.slot v.channel.src v.channel.tag ∈ call.requests := by
    intro v hv
    rw [← receivesOf_singleton, mem_receivesOf_iff] at hv
    simpa [requestsOf] using hv
  by_cases hother : other = r
  · subst hother
    rw [Arrived, Arrived, update_self, requestsOf, flatMap_append]
    constructor
    · rintro ⟨⟨src, tag, hmem⟩, hfree⟩
      refine ⟨⟨src, tag, ?_⟩, fun v hv => hfree v (mem_append_left _ hv)⟩
      rcases mem_append.1 hmem with hmem | hmem
      · exact hmem
      · refine absurd rfl (hfree ⟨⟨src, other, tag⟩, slot⟩ (mem_append_right _ ?_) rfl)
        rw [← receivesOf_singleton, mem_receivesOf_iff]
        exact ⟨rfl, hmem⟩
    · rintro ⟨⟨src, tag, hmem⟩, hfree⟩
      refine ⟨⟨src, tag, mem_append_left _ hmem⟩, fun v hv hdst => ?_⟩
      rcases mem_append.1 hv with hv | hv
      · exact hfree v hv hdst
      · exact (f.slot_ne hrest hmem (hnew v hv).2).symm
  · rw [Arrived, Arrived, update_of_ne hother]
    refine and_congr_right fun _ => ⟨fun hfree v hv => hfree v (mem_append_left _ hv),
      fun hfree v hv hdst => ?_⟩
    rcases mem_append.1 hv with hv | hv
    · exact hfree v hv hdst
    · exact absurd ((hnew v hv).1.symm.trans hdst).symm hother

theorem sendsOn_update
    (done : Nat → List (Call S T D)) (r : Nat) (call : Call S T D) (c : Channel T) :
    sendsOn c (update done r (done r ++ [call]) c.src) = sendsOn c (done c.src) ++
        (call.requests.filterMap (Request.message r)).filter fun m => m.channel = c := by
  by_cases hsrc : c.src = r
  · rw [hsrc, update_self, sendsOn_append]
    rw [sendsOn, sendsOn, messagesOf_singleton, hsrc]
  · rw [update_of_ne hsrc, ← messagesOf_singleton,
      filter_messagesOf_of_ne (Ne.symm hsrc), append_nil]

theorem recvsOn_update
    (done : Nat → List (Call S T D)) (r : Nat) (call : Call S T D) (c : Channel T) :
    recvsOn c (update done r (done r ++ [call]) c.dst) = recvsOn c (done c.dst) ++
        (call.requests.filterMap (Request.receive r)).filter fun v => v.channel = c := by
  by_cases hdst : c.dst = r
  · rw [hdst, update_self, recvsOn_append]
    rw [recvsOn, recvsOn, receivesOf_singleton, hdst]
  · rw [update_of_ne hdst, ← receivesOf_singleton,
      filter_receivesOf_of_ne (Ne.symm hdst), append_nil]

theorem Follows.ask (f : h.Follows done rest matched s) {l' : L} (hrest : rest r = call :: left)
    (hgood : h.Good r call.waits left (Arrived s done r) l') :
    h.Follows (update done r (done r ++ [call])) (update rest r left)
      matched (s.ask r call l') where
  split := by
    intro other
    have hsplit := f.split other
    by_cases hother : other = r
    · subst hother
      rw [update_self, update_self, hsplit, hrest, append_assoc]
      rfl
    · rwa [update_of_ne hother, update_of_ne hother]
  good := by
    intro other hlt
    rw [f.arrived_ask hrest l' other]
    by_cases hother : other = r
    · subst hother
      simpa [Network.ask] using hgood
    · simpa [Network.ask, update_of_ne hother] using f.good other hlt
  messages := by
    intro c
    rw [Network.ask, filter_append, f.messages c, sendsOn_update,
      drop_append_of_le_length (f.matchedSends c)]
  receives := by
    intro c
    rw [Network.ask, filter_append, f.receives c, recvsOn_update,
      drop_append_of_le_length (f.matchedRecvs c)]
  matchedSends := by
    intro c
    rw [sendsOn_update, length_append]
    exact (f.matchedSends c).trans (Nat.le_add_right _ _)
  matchedRecvs := by
    intro c
    rw [recvsOn_update, length_append]
    exact (f.matchedRecvs c).trans (Nat.le_add_right _ _)
  sent := by
    intro other
    rw [Network.ask, filter_append, f.sent other]
    by_cases hother : other = r
    · subst hother
      rw [update_self, messagesOf_append, messagesOf_singleton]
      congr 1
      refine filter_eq_self.2 fun m hm => ?_
      rw [← messagesOf_singleton, mem_messagesOf_iff] at hm
      exact decide_eq_true hm.1
    · rw [update_of_ne hother]
      have hnone : (call.requests.filterMap (Request.message r)).filter
          (fun m => decide (m.channel.src = other)) = [] := by
        refine filter_eq_nil_iff.2 fun m hm => ?_
        rw [← messagesOf_singleton, mem_messagesOf_iff] at hm
        rw [decide_eq_true_eq, hm.1]
        exact fun heq => hother heq.symm
      rw [hnone, append_nil]

variable [DecidableEq S]

/-- An entering rank asks for the next call of its script. -/
theorem Follows.enter (f : h.Follows done rest matched s) (ht : s.enter p n r = some t) :
    r < n ∧ ∃ call left l', rest r = call :: left ∧ t = s.ask r call l' ∧
      h.Follows (update done r (done r ++ [call])) (update rest r left)
        matched t := by
  unfold Network.enter at ht
  cases hwaits : s.waits r with
  | none =>
    rw [hwaits] at ht
    cases ht
  | some slots =>
    rw [hwaits] at ht
    dsimp only at ht
    split_ifs at ht with hready
    obtain ⟨hr, hfree⟩ := hready
    have hgood := f.good r hr
    rw [hwaits] at hgood
    have hne : rest r ≠ [] := fun hnil => by
      have hnone := (h.ends _ _ _ _ _ hgood).2 hnil
      cases hnone
    obtain ⟨call, left, hrest⟩ := exists_cons_of_ne_nil hne
    rw [hrest] at hgood
    obtain ⟨l', hl', hgood'⟩ := h.enter r hr (done r) slots call left _ _
      (by rw [← hrest]; exact f.split r) hgood (fun slot hslot src tag hmem =>
        ⟨⟨src, tag, hmem⟩, fun v hv hdst heq => hfree slot hslot (.inl ⟨v, hv, hdst, heq⟩)⟩)
    rw [hl'] at ht
    cases ht
    exact ⟨hr, call, left, l', hrest, rfl, f.ask hrest hgood'⟩

end Ask

section Deliver

variable {i j : Nat} {m : Message S T D} {v : Receive S T}

section

variable (f : h.Follows done rest matched s)
include f

theorem Follows.drop_sends (hm : s.messages[i]? = some m)
    (hfirst : ∀ other ∈ s.messages.take i, other.channel ≠ m.channel) :
    (sendsOn m.channel (done m.channel.src)).drop (matched m.channel) =
      m :: (s.messages.eraseIdx i).filter fun x => x.channel = m.channel := by
  rw [← f.messages m.channel]
  exact filter_eraseIdx_of_first hm (fun other hmem => by simpa using hfirst other hmem) (by simp)

theorem Follows.drop_recvs (hv : s.receives[j]? = some v)
    (hfirst : ∀ other ∈ s.receives.take j, other.channel ≠ v.channel) :
    (recvsOn v.channel (done v.channel.dst)).drop (matched v.channel) =
      v :: (s.receives.eraseIdx j).filter fun x => x.channel = v.channel := by
  rw [← f.receives v.channel]
  exact filter_eraseIdx_of_first hv (fun other hmem => by simpa using hfirst other hmem) (by simp)

theorem Follows.data_eq
    {c : Channel T} {ms : List (Message S T D)} {vs : List (Receive S T)}
    (hm : (sendsOn c (done c.src)).drop (matched c) = m :: ms)
    (hv : (recvsOn c (done c.dst)).drop (matched c) = v :: vs) :
    m.data = h.value c.dst v.slot := by
  have hmatching := h.matching c
  rw [f.split c.src, f.split c.dst, sendsOn_append, recvsOn_append, map_append,
    map_append] at hmatching
  have hget := congrArg (fun l => l[matched c]?) hmatching
  have hsend : (sendsOn c (done c.src))[matched c]? = some m := by
    rw [← add_zero (matched c), ← getElem?_drop, hm]
    rfl
  have hrecv : (recvsOn c (done c.dst))[matched c]? = some v := by
    rw [← add_zero (matched c), ← getElem?_drop, hv]
    rfl
  rw [getElem?_append_left, getElem?_append_left, getElem?_map, getElem?_map, hsend, hrecv] at hget
  · exact some.inj hget
  · rw [length_map]
    exact (List.getElem?_eq_some_iff.1 hrecv).1
  · rw [length_map]
    exact (List.getElem?_eq_some_iff.1 hsend).1

theorem Follows.arrived_deliver (hv : s.receives[j]? = some v)
    (hfirst : ∀ other ∈ s.receives.take j, other.channel ≠ v.channel) (t : Network L S T D)
    (ht : t.receives = s.receives.eraseIdx j) (r : Nat) :
    Arrived t done r = fun slot => Arrived s done r slot ∨ (r = v.channel.dst ∧ slot = v.slot) := by
  have hmem : v ∈ s.receives := mem_of_getElem? hv
  have hsub : ∀ x ∈ s.receives.eraseIdx j, x ∈ s.receives := fun x hx => mem_of_mem_eraseIdx hx
  have hunique : ∀ x ∈ s.receives.eraseIdx j, x.channel.dst = v.channel.dst → x.slot ≠ v.slot := by
    intro x hx hdst hslot
    have hreq := f.receive_mem (hsub x hx)
    rw [hdst] at hreq
    have heq := f.request_unique hreq (f.receive_mem hmem) hslot
    have hchannel : x.channel = v.channel := by
      obtain ⟨-, hsrc, htag⟩ := Request.recv.inj heq
      cases hxc : x.channel
      cases hvc : v.channel
      rw [hxc, hvc] at hdst hsrc htag
      dsimp only at hdst hsrc htag
      rw [hdst, hsrc, htag]
    have hnodup := f.nodup_recvsOn v.channel
    rw [← take_append_drop (matched v.channel) (recvsOn v.channel (done v.channel.dst)),
      f.drop_recvs hv hfirst, map_append, map_cons] at hnodup
    refine (nodup_cons.1 (List.Nodup.of_append_right hnodup)).1 ?_
    rw [← hslot]
    exact mem_map_of_mem (mem_filter.2 ⟨hx, decide_eq_true hchannel⟩)
  funext slot
  refine propext ?_
  rw [Arrived, Arrived, ht]
  constructor
  · rintro ⟨hreq, hfree⟩
    by_cases hself : r = v.channel.dst ∧ slot = v.slot
    · exact .inr hself
    · refine .inl ⟨hreq, fun x hx hdst hslot => ?_⟩
      by_cases hxe : x ∈ s.receives.eraseIdx j
      · exact hfree x hxe hdst hslot
      · have hxv : x = v := by
          rw [eq_take_cons_drop_of_getElem? hv] at hx
          rw [eraseIdx_eq_take_drop_succ] at hxe
          simp only [mem_append, mem_cons] at hx hxe
          tauto
        subst hxv
        exact hself ⟨hdst.symm, hslot.symm⟩
  · rintro (⟨hreq, hfree⟩ | ⟨rfl, rfl⟩)
    · exact ⟨hreq, fun x hx => hfree x (hsub x hx)⟩
    · exact ⟨⟨_, _, f.receive_mem hmem⟩, hunique⟩

/-- A delivery matches the next send and the next receive of a channel. -/
theorem Follows.deliver [DecidableEq S] (ht : s.deliver p i j = some t) :
    ∃ m ∈ s.messages, t.messages.length + 1 = s.messages.length ∧
      t.messages.Sublist s.messages ∧ t.released = s.released ∧
      h.Follows done rest (update matched m.channel (matched m.channel + 1)) t := by
  unfold Network.deliver at ht
  split at ht
  next m v hm hv =>
    split_ifs at ht with hfirst
    obtain ⟨hchannel, hfirstSend, hfirstRecv⟩ := hfirst
    cases ht
    rw [← hchannel] at hfirstRecv
    have hsends := f.drop_sends hm hfirstSend
    have hrecvs := f.drop_recvs hv hfirstRecv
    rw [hchannel] at hrecvs
    obtain ⟨hlt, -⟩ := List.getElem?_eq_some_iff.1 hm
    refine ⟨m, mem_of_getElem? hm, ?_, eraseIdx_sublist .., rfl,
      ⟨f.split, fun r hr => ?_, fun c => ?_, fun c => ?_, fun c => ?_, fun c => ?_, f.sent⟩⟩
    · rw [length_eraseIdx_of_lt hlt]
      omega
    · rw [f.arrived_deliver hv hfirstRecv _ rfl r, hchannel]
      by_cases hdst : r = m.channel.dst
      · subst hdst
        have hrecv := f.receive_mem (mem_of_getElem? hv)
        have hdata := f.data_eq hsends hrecvs
        rw [hchannel] at hrecv
        have hwrite := h.write m.channel.dst hr (done m.channel.dst) _ _ _ _
          (f.split m.channel.dst) (f.good m.channel.dst hr) v.slot _ _ hrecv
          (fun harrived => harrived.2 v (mem_of_getElem? hv) (by rw [hchannel]) rfl)
        simpa [hdata] using hwrite
      · simpa [hdst] using f.good r hr
    · by_cases hc : c = m.channel
      · subst hc
        rw [update_self, ← drop_drop, hsends, drop_one, tail_cons]
      · dsimp only
        rw [update_of_ne hc, ← f.messages c]
        exact filter_eraseIdx_of_neg hm (by simpa using Ne.symm hc)
    · by_cases hc : c = m.channel
      · subst hc
        rw [update_self, ← drop_drop, hrecvs, drop_one, tail_cons]
      · dsimp only
        rw [update_of_ne hc, ← f.receives c]
        exact filter_eraseIdx_of_neg hv (by simpa [hchannel] using Ne.symm hc)
    · by_cases hc : c = m.channel
      · subst hc
        rw [update_self]
        have hlength := congrArg length hsends
        rw [length_drop, length_cons] at hlength
        omega
      · rw [update_of_ne hc]
        exact f.matchedSends c
    · by_cases hc : c = m.channel
      · subst hc
        rw [update_self]
        have hlength := congrArg length hrecvs
        rw [length_drop, length_cons] at hlength
        omega
      · rw [update_of_ne hc]
        exact f.matchedRecvs c
  · cases ht

theorem Follows.of_released (released : Nat → List S) :
    h.Follows done rest matched { s with released := released } :=
  ⟨f.split, f.good, f.messages, f.receives, f.matchedSends, f.matchedRecvs, f.sent⟩

end

end Deliver

section Counts

section

variable (f : h.Follows done rest matched s)
include f

theorem Follows.length_sends (c : Channel T) :
    (sendsOn c (done c.src)).length =
      matched c + (s.messages.filter fun m => m.channel = c).length := by
  have hle := f.matchedSends c
  rw [f.messages c, length_drop]
  omega

theorem Follows.length_recvs (c : Channel T) :
    (recvsOn c (done c.dst)).length =
      matched c + (s.receives.filter fun v => v.channel = c).length := by
  have hle := f.matchedRecvs c
  rw [f.receives c, length_drop]
  omega

theorem Follows.length_totals (c : Channel T) :
    (sendsOn c (done c.src)).length + (sendsOn c (rest c.src)).length =
      (recvsOn c (done c.dst)).length + (recvsOn c (rest c.dst)).length := by
  have hmatching := congrArg length (h.matching c)
  rw [f.split c.src, f.split c.dst, sendsOn_append, recvsOn_append, length_map,
    length_map, length_append, length_append] at hmatching
  exact hmatching

theorem Follows.rest_eq_nil {r : Nat}
    (hr : r < n → s.waits r = none) :
    rest r = [] := by
  by_cases hlt : r < n
  · exact (h.ends _ _ _ _ _ (f.good r hlt)).1 (hr hlt)
  · have hsplit := f.split r
    rw [h.outside r (Nat.le_of_not_lt hlt)] at hsplit
    exact (append_eq_nil_iff.1 hsplit.symm).2

end

end Counts

section Runs

variable [DecidableEq S] {eager : D → Bool}

/-- The number of events that some calls can still cause. -/
def load (calls : List (Call S T D)) : Nat :=
  (calls.map fun call => 1 + 2 * call.requests.length).sum

def unreleased (s : Network L S T D) : Nat :=
  s.messages.countP fun m => m.slot ∉ s.released m.channel.src

def potential (n : Nat) (rest : Nat → List (Call S T D)) (s : Network L S T D) : Nat :=
  (∑ r ∈ Finset.range n, load (rest r)) + s.messages.length + unreleased s

omit [DecidableEq T] in
theorem unreleased_markReleased {i : Nat} (hm : s.messages[i]? = some m)
    (hslot : m.slot ∉ s.released m.channel.src) :
    unreleased (s.markReleased m) + 1 ≤ unreleased s := by
  have hmono : ∀ l : List (Message S T D),
      (l.countP fun x => x.slot ∉ (s.markReleased m).released x.channel.src) ≤
        l.countP fun x => x.slot ∉ s.released x.channel.src := by
    intro l
    refine countP_mono_left fun x _ hx => ?_
    rw [decide_eq_true_eq] at hx ⊢
    by_cases hsrc : x.channel.src = m.channel.src
    · simp only [Network.markReleased, hsrc, update_self] at hx
      rw [hsrc]
      exact fun hmem => hx (mem_cons_of_mem _ hmem)
    · simpa only [Network.markReleased, update_of_ne hsrc] using hx
  have hnew : m.slot ∈ (s.markReleased m).released m.channel.src := by simp [Network.markReleased]
  have hbefore := hmono (s.messages.take i)
  have hafter := hmono (s.messages.drop (i + 1))
  have hold : unreleased s = (s.messages.take i ++ m :: s.messages.drop (i + 1)).countP
      fun x => decide (x.slot ∉ s.released x.channel.src) := by
    rw [← eq_take_cons_drop_of_getElem? hm]
    rfl
  have hmarked : unreleased (s.markReleased m) =
      (s.messages.take i ++ m :: s.messages.drop (i + 1)).countP
        fun x => decide (x.slot ∉ (s.markReleased m).released x.channel.src) := by
    rw [← eq_take_cons_drop_of_getElem? hm]
    rfl
  rw [hold, hmarked, countP_append, countP_append, countP_cons, countP_cons,
    if_neg (by simpa using hnew), if_pos (by simpa using hslot)]
  omega

omit [DecidableEq T] [DecidableEq S] in
theorem sum_load_update {r : Nat} {call : Call S T D} {left : List (Call S T D)} (hr : r < n)
    (hrest : rest r = call :: left) :
    ∑ x ∈ Finset.range n, load (rest x) = (∑ x ∈ Finset.range n, load (update rest r left x)) +
        (1 + 2 * call.requests.length) := by
  have hmem : r ∈ Finset.range n := Finset.mem_range.2 hr
  rw [← Finset.sum_erase_add _ _ hmem,
    ← Finset.sum_erase_add _ (fun x => load (update rest r left x)) hmem, update_self, hrest]
  have hsame : ∑ x ∈ (Finset.range n).erase r, load (update rest r left x) =
      ∑ x ∈ (Finset.range n).erase r, load (rest x) := by
    refine Finset.sum_congr rfl fun x hx => ?_
    rw [update_of_ne (Finset.ne_of_mem_erase hx)]
  rw [hsame, load, load, map_cons, sum_cons]
  omega

/-- A step keeps every rank on its script and uses up potential. -/
theorem Follows.step {e : NetworkEvent} (f : h.Follows done rest matched s)
    (ht : s.step p n eager e = some t) :
    ∃ done' rest' matched', h.Follows done' rest' matched' t ∧
      potential n rest' t + 1 ≤ potential n rest s := by
  cases e with
  | enter r =>
    obtain ⟨hr, call, left, l', hrest, rfl, f'⟩ := f.enter ht
    refine ⟨_, _, _, f', ?_⟩
    have hload := sum_load_update hr hrest
    have hlength : (call.requests.filterMap (Request.message r)).length ≤
        call.requests.length := length_filterMap_le _ _
    have hcount : ((call.requests.filterMap (Request.message r)).countP
        fun m => decide (m.slot ∉ s.released m.channel.src)) ≤
          (call.requests.filterMap (Request.message r)).length := countP_le_length
    have hunreleased : unreleased (s.ask r call l') = unreleased s +
        (call.requests.filterMap (Request.message r)).countP
          fun m => decide (m.slot ∉ s.released m.channel.src) := countP_append ..
    have hmessages : (s.ask r call l').messages.length = s.messages.length +
        (call.requests.filterMap (Request.message r)).length := length_append
    rw [potential, potential, hunreleased, hmessages]
    omega
  | deliver i j =>
    obtain ⟨m, hm, hlength, hsub, hreleased, f'⟩ := f.deliver ht
    refine ⟨_, _, _, f', ?_⟩
    have hcount : unreleased t ≤ unreleased s := by
      rw [unreleased, unreleased, hreleased]
      exact hsub.countP_le
    rw [potential, potential]
    omega
  | release i =>
    unfold Network.step Network.release at ht
    dsimp only at ht
    split at ht
    next m hm =>
      split_ifs at ht with hready
      cases ht
      refine ⟨_, _, _, f.of_released _, ?_⟩
      have hcount := unreleased_markReleased hm hready.2
      have hlength : (s.markReleased m).messages.length = s.messages.length := rfl
      rw [potential, potential, hlength]
      omega
    · cases ht

variable {events : List NetworkEvent}

/-- A run is no longer than the potential it starts with. -/
theorem follows_of_run (h : Scripted p n init)
    (hrun : runOps (Network.step p n eager) (Network.create init) events = some s) :
    (∃ done rest matched, h.Follows done rest matched s) ∧
      events.length ≤ potential n h.script (Network.create init) := by
  have hall : ∀ (events : List NetworkEvent) (s t : Network L S T D) done rest matched,
      h.Follows done rest matched s → runOps (Network.step p n eager) s events = some t →
      ∃ done' rest' matched', h.Follows done' rest' matched' t ∧
        events.length + potential n rest' t ≤ potential n rest s := by
    intro events
    induction events with
    | nil =>
      intro s t done rest matched f hrun
      cases hrun
      exact ⟨done, rest, matched, f, by rw [length_nil, zero_add]⟩
    | cons e events ih =>
      intro s t done rest matched f hrun
      obtain ⟨mid, hmid, hrest⟩ := runOps_cons_iff.1 hrun
      obtain ⟨done₁, rest₁, matched₁, f₁, hlt⟩ := f.step hmid
      obtain ⟨done₂, rest₂, matched₂, f₂, hle⟩ := ih mid t done₁ rest₁ matched₁ f₁ hrest
      refine ⟨done₂, rest₂, matched₂, f₂, ?_⟩
      rw [length_cons]
      omega
  obtain ⟨done, rest, matched, f, hle⟩ := hall events _ s _ _ _ (Follows.create h) hrun
  exact ⟨⟨done, rest, matched, f⟩, by omega⟩

theorem exists_stuck (h : Scripted p n init) (eager : D → Bool) :
    ∃ events s, runOps (Network.step p n eager) (Network.create init) events = some s ∧
      s.Stuck p n eager := by
  by_contra hnone
  have hlong : ∀ m, ∃ events s, runOps (Network.step p n eager) (Network.create init) events =
      some s ∧ events.length = m := by
    intro m
    induction m with
    | zero =>
      exact ⟨[], _, rfl, rfl⟩
    | succ m ih =>
      obtain ⟨events, s, hrun, rfl⟩ := ih
      have hstuck : ¬ s.Stuck p n eager := fun hstuck => hnone ⟨events, s, hrun, hstuck⟩
      obtain ⟨e, he⟩ := not_forall.1 hstuck
      obtain ⟨t, ht⟩ := ne_none_iff_exists'.1 he
      refine ⟨events ++ [e], t, runOps_append_iff.2 ⟨s, hrun, ?_⟩, by simp⟩
      exact runOps_cons_iff.2 ⟨t, ht, rfl⟩
  obtain ⟨events, s, hrun, hlength⟩ := hlong (potential n h.script (Network.create init) + 1)
  have hle := (h.follows_of_run hrun).2
  omega

theorem exists_deliver {c : Channel T} (hm : (s.messages.filter fun m => m.channel = c) ≠ [])
    (hv : (s.receives.filter fun v => v.channel = c) ≠ []) :
    ¬ s.Stuck p n eager := by
  intro hstuck
  obtain ⟨i, m, hgetm, hchannelm, hfirstm⟩ := exists_first hm
  obtain ⟨j, v, hgetv, hchannelv, hfirstv⟩ := exists_first hv
  have hnone := hstuck (.deliver i j)
  unfold Network.step Network.deliver at hnone
  dsimp only at hnone
  rw [hgetm, hgetv] at hnone
  dsimp only at hnone
  rw [if_pos] at hnone
  · cases hnone
  · rw [hchannelm, hchannelv]
    exact ⟨rfl, hfirstm, hfirstv⟩

/-- A stuck network is finished: the rank with the least time could go on. -/
theorem Follows.finished_of_stuck (f : h.Follows done rest matched s) (hstuck : s.Stuck p n eager) :
    s.Finished n := by
  have hall : ∀ r < n, s.waits r = none := by
    by_contra hsome
    obtain ⟨r₀, hr₀, hwaits₀⟩ : ∃ r < n, s.waits r ≠ none := by simpa using hsome
    obtain ⟨r, hr, hleast⟩ := Finset.exists_min_image
      ((Finset.range n).filter fun r => (s.waits r).isSome) (fun r => h.time r (rest r))
      ⟨r₀, Finset.mem_filter.2 ⟨Finset.mem_range.2 hr₀, isSome_iff_ne_none.2 hwaits₀⟩⟩
    obtain ⟨hlt, hwaits⟩ := Finset.mem_filter.1 hr
    have hlt := Finset.mem_range.1 hlt
    obtain ⟨ws, hws⟩ := isSome_iff_exists.1 hwaits
    have hgood := f.good r hlt
    rw [hws] at hgood
    -- No unfinished process has an earlier time.
    have hlater : ∀ other, rest other ≠ [] → h.time r (rest r) ≤ h.time other (rest other) := by
      intro other hne
      refine hleast other (Finset.mem_filter.2 ?_)
      by_contra hnot
      refine hne (f.rest_eq_nil fun hother => ?_)
      by_contra hsome
      exact hnot ⟨Finset.mem_range.2 hother, isSome_iff_ne_none.2 hsome⟩
    have hbusy : ∃ slot ∈ ws, s.Busy r slot := by
      by_contra hfree
      have hfree : ∀ slot ∈ ws, ¬ s.Busy r slot := by simpa using hfree
      have hne : rest r ≠ [] := fun hnil => by
        have hnone := (h.ends _ _ _ _ _ hgood).2 hnil
        cases hnone
      obtain ⟨call, left, hrest⟩ := exists_cons_of_ne_nil hne
      rw [hrest] at hgood
      obtain ⟨l', hl', -⟩ := h.enter r hlt (done r) ws call left _ _
        (by rw [← hrest]; exact f.split r) hgood (fun slot hslot src tag hmem =>
          ⟨⟨src, tag, hmem⟩, fun v hv hdst heq => hfree slot hslot (.inl ⟨v, hv, hdst, heq⟩)⟩)
      have hnone := hstuck (.enter r)
      simp only [Network.step, Network.enter, hws, if_pos (And.intro hlt hfree), hl',
        map_some] at hnone
      cases hnone
    obtain ⟨slot, hslot, ⟨v, hv, rfl, rfl⟩ | ⟨m, hm, rfl, rfl, -⟩⟩ := hbusy
    · have hreceives : (s.receives.filter fun x => x.channel = v.channel) ≠ [] :=
        ne_nil_of_mem (mem_filter.2 ⟨hv, decide_eq_true rfl⟩)
      have hmessages : (s.messages.filter fun x => x.channel = v.channel) = [] := by
        by_contra hne
        exact exists_deliver hne hreceives hstuck
      have hsends := f.length_sends v.channel
      have hrecvs := f.length_recvs v.channel
      have htotal := f.length_totals v.channel
      have hpos := length_pos_iff.2 hreceives
      rw [hmessages, length_nil] at hsends
      have hless := h.receiveTime v.channel.dst hlt _ _ _ _ _ (f.split v.channel.dst) hgood v.slot
        hslot v.channel.src v.channel.tag (f.receive_mem hv) _ _ (f.split v.channel.src)
        (by change (sendsOn v.channel _).length < (recvsOn v.channel _).length; omega)
      have hrest : rest v.channel.src ≠ [] := by
        intro hnil
        rw [hnil, sendsOn_nil, length_nil] at htotal
        omega
      exact absurd hless (Nat.not_lt_of_le (hlater _ hrest))
    · have hmessages : (s.messages.filter fun x => x.channel = m.channel) ≠ [] :=
        ne_nil_of_mem (mem_filter.2 ⟨hm, decide_eq_true rfl⟩)
      have hreceives : (s.receives.filter fun x => x.channel = m.channel) = [] := by
        by_contra hne
        exact exists_deliver hmessages hne hstuck
      have hsends := f.length_sends m.channel
      have hrecvs := f.length_recvs m.channel
      have htotal := f.length_totals m.channel
      have hpos := length_pos_iff.2 hmessages
      rw [hreceives, length_nil] at hrecvs
      have hless := h.sendTime m.channel.src hlt _ _ _ _ _ (f.split m.channel.src) hgood m.slot
        hslot m.channel.dst m.channel.tag m.data (f.message_mem hm) _ _ (f.split m.channel.dst)
        (by change (recvsOn m.channel _).length < (sendsOn m.channel _).length; omega)
      have hrest : rest m.channel.dst ≠ [] := by
        intro hnil
        rw [hnil, recvsOn_nil, length_nil] at htotal
        omega
      exact absurd hless (Nat.not_lt_of_le (hlater _ hrest))
  have hrest : ∀ r, rest r = [] := fun r => f.rest_eq_nil (hall r)
  have hequal : ∀ c, (s.messages.filter fun m => m.channel = c).length =
      (s.receives.filter fun v => v.channel = c).length := by
    intro c
    have hsends := f.length_sends c
    have hrecvs := f.length_recvs c
    have htotal := f.length_totals c
    rw [hrest, hrest, sendsOn_nil, recvsOn_nil, length_nil, length_nil] at htotal
    omega
  have hempty : ∀ c, (s.messages.filter fun m => m.channel = c) = [] ∧
      (s.receives.filter fun v => v.channel = c) = [] := by
    intro c
    by_cases hmessages : (s.messages.filter fun m => m.channel = c) = []
    · have hlength := hequal c
      rw [hmessages, length_nil] at hlength
      exact ⟨hmessages, length_eq_zero_iff.1 hlength.symm⟩
    · refine absurd hstuck (exists_deliver hmessages fun hnil => hmessages ?_)
      have hlength := hequal c
      rw [hnil, length_nil] at hlength
      exact length_eq_zero_iff.1 hlength
  refine ⟨hall, eq_nil_iff_forall_not_mem.2 fun m hm => ?_,
    eq_nil_iff_forall_not_mem.2 fun v hv => ?_⟩
  · exact not_mem_nil ((hempty m.channel).1 ▸ mem_filter.2 ⟨hm, decide_eq_true rfl⟩)
  · exact not_mem_nil ((hempty v.channel).2 ▸ mem_filter.2 ⟨hv, decide_eq_true rfl⟩)

/-- What holds when all processes are finished. -/
structure Complete (h : Scripted p n init) (s : Network L S T D) : Prop where
  good : ∀ r < n, h.Good r none []
    (fun slot => ∃ src tag, .recv slot src tag ∈ requestsOf (h.script r)) (s.state r)
  sent : ∀ r, (s.sent.filter fun m => m.channel.src = r) = messagesOf r (h.script r)

/-- A run that cannot go on has ended every script. -/
theorem complete_of_run (h : Scripted p n init)
    (hrun : runOps (Network.step p n eager) (Network.create init) events = some s)
    (hstuck : s.Stuck p n eager) :
    s.Finished n ∧ h.Complete s := by
  obtain ⟨⟨done, rest, matched, f⟩, -⟩ := h.follows_of_run hrun
  have hfinished := f.finished_of_stuck hstuck
  have hrest : ∀ r, rest r = [] := fun r => f.rest_eq_nil (hfinished.waits r)
  have hdone : ∀ r, done r = h.script r := by
    intro r
    rw [f.split r, hrest r, append_nil]
  refine ⟨hfinished, fun r hr => ?_, fun r => ?_⟩
  · have hgood := f.good r hr
    have harrived : Arrived s done r =
        fun slot => ∃ src tag, .recv slot src tag ∈ requestsOf (h.script r) := by
      funext slot
      rw [Arrived, hdone r, hfinished.receives]
      simp
    rwa [hfinished.waits r hr, hrest r, harrived] at hgood
  · rw [f.sent r, hdone r]

end Runs

end Scripted

end Scripts

end SstElements.Library
