import SstElements.Library.OrderedContainer

/-!
# Reorder buffers with tags from a finite set

A sender numbers its packets and sends each with a tag that stands for the
number.  A network delivers the packets in any order.  The receiver takes the
packet whose tag it expects and holds back the others.

Tags repeat.  As long as no packet arrives that is a whole window ahead of the
first missing one, a tag identifies its packet, and what the receiver has taken
is an initial part of what was sent.
-/

namespace SstElements.Library.ReorderBuffer

open List Option

universe u v

/-- Tags for the natural numbers, distinct within a window. -/
structure TagScheme (κ : Type u) where
  tag : Nat → κ
  next : κ → κ
  window : Nat
  tag_succ : ∀ n, tag (n + 1) = next (tag n)
  tag_injective : ∀ m n, m ≤ n → n < m + window → tag n = tag m → n = m

/-- Numbers in 32 bits are told apart within one turn of the counter. -/
theorem eq_of_uint32_eq {m n : Nat} (hle : m ≤ n) (hlt : n < m + 2 ^ 32)
    (htag : UInt32.ofNat n = UInt32.ofNat m) : n = m := by
  have hmod : n % 2 ^ 32 = m % 2 ^ 32 := by
    have := congrArg UInt32.toNat htag
    simpa using this
  omega

/-- Tags are the numbers of the packets in 32 bits. -/
def TagScheme.uint32 : TagScheme UInt32 where
  tag := UInt32.ofNat
  next := fun tag => tag + 1
  window := 2 ^ 32
  tag_succ := fun n => UInt32.ofNat_add n 1
  tag_injective := fun _ _ => eq_of_uint32_eq

/--
Takes held packets as long as the expected tag is among them: returns the
packets taken, the tag expected next and the packets still held.
-/
def release
    {κ : Type u} {β : Type v} [LinearOrder κ]
    (next : κ → κ) :
    Nat → κ → OrderedMap κ β → List β × κ × OrderedMap κ β
  | 0, expected, held => ([], expected, held)
  | fuel + 1, expected, held =>
    match held.find? expected with
    | none => ([], expected, held)
    | some p =>
      let (released, last, rest) := release next fuel (next expected) (held.erase expected)
      (p :: released, last, rest)

section Values

variable {κ : Type u} {β : Type v} [LinearOrder κ]

/-- The packets that are held back. -/
def values (held : OrderedMap κ β) : Multiset β := ↑(held.entries.map Prod.snd)

theorem mem_values_iff {held : OrderedMap κ β} {p : β} :
    p ∈ values held ↔ ∃ k, held.find? k = some p := by
  simp only [values, Multiset.mem_coe, List.mem_map, Prod.exists,
    OrderedMap.mem_entries_iff, exists_eq_right]

theorem values_insert (held : OrderedMap κ β) {k : κ} (p : β) (h : held.find? k = none) :
    values (held.insert k p) = p ::ₘ values held :=
  Multiset.coe_eq_coe.2 ((held.insert_entries_perm p h).map Prod.snd)

end Values

section Reassembly

variable {κ : Type u} {β : Type v} [LinearOrder κ]
variable (T : TagScheme κ) (number : β → Nat)

/-- The packets are numbered in the order in which they were sent. -/
def Numbered (packets : List β) : Prop := packets.map number = range packets.length

/--
The receiver has taken the first `n` packets; the others are away or held
back, each once, and none of those held is a window ahead.
-/
structure Reassembly
    (packets : List β) (n : Nat) (away : Multiset β)
    (expected : κ) (held : OrderedMap κ β) : Prop where
  numbered : Numbered number packets
  bound : n ≤ packets.length
  expected_eq : expected = T.tag n
  pending : away + values held = ↑(packets.drop n)
  keyed : ∀ k p, held.find? k = some p → k = T.tag (number p)
  early : ∀ p ∈ values held, number p < n + T.window

variable {T number}
variable {packets : List β} {n : Nat} {away : Multiset β}
variable {expected : κ} {held : OrderedMap κ β} {p : β}

theorem Numbered.getElem? (h : Numbered number packets) (i : Nat) :
    packets[i]?.map number = if i < packets.length then some i else none := by
  rw [← getElem?_map, h]
  by_cases hi : i < packets.length
  · simp [hi]
  · simp [hi]

theorem Numbered.mem_drop (h : Numbered number packets) (hp : p ∈ packets.drop n) :
    n ≤ number p ∧ packets[number p]? = some p := by
  obtain ⟨i, hi⟩ := mem_iff_getElem?.1 hp
  rw [getElem?_drop] at hi
  have hnum := h.getElem? (n + i)
  rw [hi, map_some] at hnum
  have hlt : n + i < packets.length := (List.getElem?_eq_some_iff.1 hi).1
  rw [if_pos hlt, Option.some.injEq] at hnum
  exact ⟨by omega, hnum ▸ hi⟩

theorem Numbered.nodup (h : Numbered number packets) : packets.Nodup := by
  refine List.Nodup.of_map number ?_
  rw [h]
  exact nodup_range

namespace Reassembly

section

variable (h : Reassembly T number packets n away expected held)
include h

theorem mem_pending (hp : p ∈ away ∨ p ∈ values held) :
    n ≤ number p ∧ packets[number p]? = some p := by
  have hmem : p ∈ away + values held := Multiset.mem_add.2 hp
  rw [h.pending, Multiset.mem_coe] at hmem
  exact h.numbered.mem_drop hmem

theorem nodup_pending : (away + values held).Nodup := by
  rw [h.pending, Multiset.coe_nodup]
  exact h.numbered.nodup.sublist (drop_sublist n packets)

theorem number_of_find? (hfind : held.find? expected = some p) : number p = n := by
  have hmem : p ∈ values held := mem_values_iff.2 ⟨expected, hfind⟩
  have htag := h.keyed _ _ hfind
  rw [h.expected_eq] at htag
  exact T.tag_injective n _ (h.mem_pending (.inr hmem)).1
    (h.early p hmem) htag.symm

theorem drop_eq_cons (hp : p ∈ away ∨ p ∈ values held) (hn : number p = n) :
    packets.drop n = p :: packets.drop (n + 1) := by
  have hget := (h.mem_pending hp).2
  rw [hn] at hget
  exact drop_eq_getElem?_toList_append.trans (by rw [hget]; rfl)

theorem take_held (hfind : held.find? expected = some p) :
    Reassembly T number packets (n + 1) away (T.next expected)
      (held.erase expected) := by
  have hn := h.number_of_find? hfind
  have hmem : p ∈ values held := mem_values_iff.2 ⟨expected, hfind⟩
  have hdrop := h.drop_eq_cons (.inr hmem) hn
  have hvalues : values held = p ::ₘ values (held.erase expected) :=
    Multiset.coe_eq_coe.2 ((held.entries_perm_cons_erase hfind).map Prod.snd)
  have hpending := h.pending
  rw [hdrop, hvalues, Multiset.add_cons, ← Multiset.cons_coe, Multiset.cons_inj_right] at hpending
  refine ⟨h.numbered, ?_, ?_, hpending, ?_, ?_⟩
  · have hget := (h.mem_pending (.inr hmem)).2
    rw [hn] at hget
    exact (List.getElem?_eq_some_iff.1 hget).1
  · rw [h.expected_eq, T.tag_succ]
  · intro k q hq
    rw [OrderedMap.find?_erase] at hq
    split at hq
    · cases hq
    · exact h.keyed k q hq
  · intro q hq
    have := h.early q (by rw [hvalues]; exact Multiset.mem_cons_of_mem hq)
    omega

end

theorem take_away (h : Reassembly T number packets n (p ::ₘ away) expected held)
    (hn : number p = n) :
    Reassembly T number packets (n + 1) away (T.next expected) held := by
  have hmem : p ∈ p ::ₘ away := Multiset.mem_cons_self p away
  have hdrop := h.drop_eq_cons (.inl hmem) hn
  have hpending := h.pending
  rw [hdrop, Multiset.cons_add, ← Multiset.cons_coe, Multiset.cons_inj_right] at hpending
  refine ⟨h.numbered, ?_, ?_, hpending, h.keyed, ?_⟩
  · have hget := (h.mem_pending (.inl hmem)).2
    rw [hn] at hget
    exact (List.getElem?_eq_some_iff.1 hget).1
  · rw [h.expected_eq, T.tag_succ]
  · intro q hq
    have := h.early q hq
    omega

theorem first_missing_away (h : Reassembly T number packets n away expected held)
    (hnone : held.find? expected = none) (hp : p ∈ packets.drop n) :
    ∃ q ∈ away, number q = n := by
  have hlt : n < packets.length := by
    by_contra hge
    rw [drop_eq_nil_of_le (not_lt.1 hge)] at hp
    exact not_mem_nil hp
  have hnum := h.numbered.getElem? n
  rw [if_pos hlt, getElem?_eq_getElem hlt, map_some, Option.some.injEq] at hnum
  have hmem : packets[n] ∈ packets.drop n := by
    rw [drop_eq_getElem_cons hlt]
    exact mem_cons_self
  rw [← Multiset.mem_coe, ← h.pending] at hmem
  rcases Multiset.mem_add.1 hmem with haway | hheld
  · exact ⟨_, haway, hnum⟩
  · obtain ⟨k, hk⟩ := mem_values_iff.1 hheld
    have hkey := h.keyed _ _ hk
    rw [hnum, ← h.expected_eq] at hkey
    rw [hkey, hnone] at hk
    cases hk

section

variable (h : Reassembly T number packets n (p ::ₘ away) expected held)
include h

theorem first_away (hnone : held.find? expected = none) : ∃ q ∈ p ::ₘ away, number q = n := by
  refine h.first_missing_away hnone (p := p) ?_
  rw [← Multiset.mem_coe, ← h.pending, Multiset.cons_add]
  exact Multiset.mem_cons_self _ _

/-- In the window, a tag is the expected one of the next number only. -/
theorem tag_eq_expected_iff (hnone : held.find? expected = none)
    (hwindow : ∀ q ∈ p ::ₘ away, number p < number q + T.window) :
    T.tag (number p) = expected ↔ number p = n := by
  obtain ⟨q, hq, hqn⟩ := h.first_away hnone
  have hlt := hwindow q hq
  have hle := (h.mem_pending (.inl (Multiset.mem_cons_self p away))).1
  rw [h.expected_eq]
  constructor
  · intro htag
    exact T.tag_injective n _ hle (by omega) htag
  · rintro hn
    rw [hn]

/-- A packet that is early is held. -/
theorem hold (hlt : number p < n + T.window) :
    Reassembly T number packets n away expected
      (held.insert (T.tag (number p)) p) := by
  have hp := h.mem_pending (.inl (Multiset.mem_cons_self p away))
  have hfree : held.find? (T.tag (number p)) = none := by
    cases hfind : held.find? (T.tag (number p)) with
    | none => rfl
    | some q =>
      -- Two packets of one window with the same tag are the same packet.
      have hqmem : q ∈ values held := mem_values_iff.2 ⟨_, hfind⟩
      have hq := h.mem_pending (.inr hqmem)
      have htag := h.keyed _ _ hfind
      have hqlt := h.early q hqmem
      have hnum : number p = number q := by
        rcases le_total (number p) (number q) with hle | hle
        · exact (T.tag_injective _ _ hle (by omega) htag.symm).symm
        · exact T.tag_injective _ _ hle (by omega) htag
      have heq : p = q := by
        rw [hnum, hq.2] at hp
        exact (some.inj hp.2).symm
      have hnodup := h.nodup_pending
      rw [Multiset.cons_add, Multiset.nodup_cons] at hnodup
      exact absurd (Multiset.mem_add.2 (.inr (heq ▸ hqmem))) hnodup.1
  refine ⟨h.numbered, h.bound, h.expected_eq, ?_, ?_, ?_⟩
  · rw [values_insert held p hfree, Multiset.add_cons, ← Multiset.cons_add]
    exact h.pending
  · intro k q hq
    rw [OrderedMap.find?_insert] at hq
    split at hq
    · rename_i hk
      rw [hk, some.inj hq]
    · exact h.keyed k q hq
  · intro q hq
    rw [values_insert held p hfree] at hq
    rcases Multiset.mem_cons.1 hq with rfl | hq
    · exact hlt
    · exact h.early q hq

end

theorem send (h : Reassembly T number packets n away expected held)
    (hnum : number p = packets.length) :
    Reassembly T number (packets ++ [p]) n (p ::ₘ away) expected held := by
  refine ⟨?_, ?_, h.expected_eq, ?_, h.keyed, h.early⟩
  · have hnumbered := h.numbered
    unfold Numbered at hnumbered ⊢
    rw [map_append, hnumbered, length_append, length_singleton, range_succ, map_singleton, hnum]
  · rw [length_append]
    exact Nat.le_add_right_of_le h.bound
  · rw [drop_append_of_le_length h.bound, Multiset.cons_add, h.pending,
      ← Multiset.coe_add, Multiset.coe_singleton, Multiset.add_comm, Multiset.singleton_add]

/-- A release hands over the longest run of numbers that is there. -/
theorem release_spec (h : Reassembly T number packets n away expected held) {fuel : Nat}
    (hfuel : held.entries.length ≤ fuel) {released : List β} {last : κ} {rest : OrderedMap κ β}
    (hrun : release T.next fuel expected held = (released, last, rest)) :
    packets.drop n = released ++ packets.drop (n + released.length) ∧
      Reassembly T number packets (n + released.length) away last rest ∧
        rest.find? last = none := by
  induction fuel generalizing n expected held released last rest with
  | zero =>
    obtain ⟨rfl, rfl, rfl⟩ := hrun
    refine ⟨rfl, h, ?_⟩
    have hempty : held.entries = [] := length_eq_zero_iff.1 (Nat.le_zero.1 hfuel)
    rw [OrderedMap.find?, hempty]
    rfl
  | succ fuel ih =>
    simp only [release] at hrun
    split at hrun
    · rename_i hfind
      obtain ⟨rfl, rfl, rfl⟩ := hrun
      exact ⟨rfl, h, hfind⟩
    · rename_i p hfind
      have hlen : (held.erase expected).entries.length ≤ fuel := by
        have := (held.entries_perm_cons_erase hfind).length_eq
        rw [length_cons] at this
        omega
      generalize hrest : release T.next fuel (T.next expected)
        (held.erase expected) = result at hrun
      obtain ⟨released', last', rest'⟩ := result
      obtain ⟨rfl, rfl, rfl⟩ := hrun
      obtain ⟨hdrop, hre, hnone⟩ := ih (h.take_held hfind) hlen hrest
      have hmem : p ∈ values held := mem_values_iff.2 ⟨_, hfind⟩
      have hcons := h.drop_eq_cons (.inr hmem) (h.number_of_find? hfind)
      have hlength : n + (p :: released').length =
          n + 1 + released'.length := by
        rw [length_cons]
        omega
      rw [hlength]
      refine ⟨?_, hre, hnone⟩
      rw [hcons, hdrop, cons_append]

end Reassembly

end Reassembly

end SstElements.Library.ReorderBuffer
