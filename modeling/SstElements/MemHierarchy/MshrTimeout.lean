import SstElements.MemHierarchy.Mshr

/-!
# The oldest entry of an MSHR

`getOldestEntry` scans the registers in the order of their addresses and each
list of entries from the front.  Its flag `first` is read but never set, so
every Event entry replaces the candidate and the last one is returned.
-/

namespace SstElements.MemHierarchy

open Library List

universe u

namespace MSHR

variable {ε : Type u}

/-- The variables of `getOldestEntry`; `time` has no value before the first entry. -/
structure OldestScan (ε : Type u) where
  first : Bool
  entry : Option (MSHREntry ε)
  time : SimTime

/-- The body of the inner loop. -/
def oldestStep (s : OldestScan ε) (jt : MSHREntry ε) : OldestScan ε :=
  if jt.isEvent then
    if !s.first then { s with entry := some jt, time := jt.time }
    else if jt.time < s.time then { s with entry := some jt, time := jt.time }
    else s
  else s

def getOldestEntry (m : MSHR ε) : Option (MSHREntry ε) :=
  let init : OldestScan ε := { first := false, entry := none, time := 0 }
  (m.mshr_.entries.foldl
    (fun s (it : Addr × MSHRRegister ε) => it.2.entries.foldl oldestStep s) init).entry

def eventEntries (m : MSHR ε) : List (MSHREntry ε) :=
  (m.mshr_.entries.flatMap (fun it => it.2.entries)).filter (fun e => e.isEvent)

/--
`Cache::checkTimeout` at the time `curTime` in nanoseconds: whether it reports
a timeout.  `convertFromCoreTime` is the time converter of the simulator.
-/
def checkTimeout (convertFromCoreTime : SimTime → SimTime)
    (timeout_ curTime : SimTime) (m : MSHR ε) : Bool :=
  match m.getOldestEntry with
  | none => false
  | some entry =>
    let waitTime := curTime - convertFromCoreTime entry.time
    waitTime > timeout_

section Scan

variable {m : MSHR ε}

theorem foldl_oldestStep {s : OldestScan ε} (hfirst : s.first = false) (l : List (MSHREntry ε)) :
    (l.foldl oldestStep s).first = false ∧ (l.foldl oldestStep s).entry =
        ((l.filter (fun e => e.isEvent)).getLast?).or s.entry := by
  induction l generalizing s with
  | nil =>
    exact ⟨hfirst, by simp⟩
  | cons jt rest ih =>
    rw [foldl_cons]
    by_cases hevent : jt.isEvent
    · have hstep : oldestStep s jt = ⟨false, some jt, jt.time⟩ := by
        simp [oldestStep, hevent, hfirst]
      obtain ⟨hfirst', hentry⟩ := @ih (oldestStep s jt) (by rw [hstep])
      refine ⟨hfirst', ?_⟩
      rw [hentry, hstep, filter_cons_of_pos hevent, getLast?_cons]
      cases (rest.filter (fun e => e.isEvent)).getLast? <;> rfl
    · have hstep : oldestStep s jt = s := by simp [oldestStep, hevent]
      rw [hstep, filter_cons_of_neg hevent]
      exact ih hfirst

theorem getOldestEntry_eq : m.getOldestEntry = m.eventEntries.getLast? := by
  have hscan := (@foldl_oldestStep ε ⟨false, none, 0⟩ rfl
    (m.mshr_.entries.flatMap (fun it => it.2.entries))).2
  unfold getOldestEntry eventEntries
  rw [foldl_flatMap] at hscan
  rw [hscan, Option.or_none]

theorem getOldestEntry_eq_none_iff : m.getOldestEntry = none ↔ m.eventEntries = [] := by
  rw [getOldestEntry_eq, getLast?_eq_none_iff]

theorem getOldestEntry_mem {entry : MSHREntry ε} (h : m.getOldestEntry = some entry) :
    entry ∈ m.eventEntries := by
  rw [getOldestEntry_eq] at h
  exact mem_of_getLast? h

theorem checkTimeout_of_oldest {convert : SimTime → SimTime} {timeout curTime : SimTime}
    (hconvert : Monotone convert)
    (hmin : ∀ entry, m.getOldestEntry = some entry → ∀ e ∈ m.eventEntries, entry.time ≤ e.time)
    {e : MSHREntry ε} (he : e ∈ m.eventEntries) (hstart : convert e.time ≤ curTime)
    (hlong : timeout < curTime - convert e.time) :
    m.checkTimeout convert timeout curTime = true := by
  unfold checkTimeout
  cases holdest : m.getOldestEntry with
  | none =>
    rw [getOldestEntry_eq_none_iff.1 holdest] at he
    cases he
  | some entry =>
    have hle : convert entry.time ≤ convert e.time := hconvert (hmin entry holdest e he)
    have hsub := UInt64.toNat_sub_of_le _ _ hstart
    have hsub' := UInt64.toNat_sub_of_le _ _ (le_trans hle hstart)
    rw [UInt64.lt_iff_toNat_lt, hsub] at hlong
    rw [UInt64.le_iff_toNat_le] at hle
    simp only [gt_iff_lt, decide_eq_true_eq]
    rw [UInt64.lt_iff_toNat_lt, hsub']
    omega

end Scan

/-- The entry returned is an oldest one, and the timeout check sees every wait. -/
structure FindsOldest (m : MSHR ε) : Prop where
  isEvent : ∀ entry, m.getOldestEntry = some entry → entry ∈ m.eventEntries
  oldest : ∀ entry, m.getOldestEntry = some entry →
    ∀ e ∈ m.eventEntries, entry.time ≤ e.time
  null_iff : m.getOldestEntry = none ↔ m.eventEntries = []
  timeout : ∀ (convert : SimTime → SimTime) (timeout curTime : SimTime),
    Monotone convert →
    (∀ e ∈ m.eventEntries, convert e.time ≤ curTime) →
    (∃ e ∈ m.eventEntries, timeout < curTime - convert e.time) →
    m.checkTimeout convert timeout curTime = true

/-- The code finds the oldest entry exactly if it is the last one it meets. -/
theorem findsOldest_iff (m : MSHR ε) :
    m.FindsOldest ↔
      ∀ last, m.eventEntries.getLast? = some last →
        ∀ e ∈ m.eventEntries, last.time ≤ e.time := by
  constructor
  · intro h last hlast
    exact h.oldest last (getOldestEntry_eq.trans hlast)
  · intro h
    have holdest : ∀ entry, m.getOldestEntry = some entry →
        ∀ e ∈ m.eventEntries, entry.time ≤ e.time :=
      fun entry hentry => h entry (getOldestEntry_eq.symm.trans hentry)
    refine ⟨fun _ => getOldestEntry_mem, holdest, getOldestEntry_eq_none_iff, ?_⟩
    rintro convert timeout curTime hconvert hstart ⟨e, he, hlong⟩
    exact checkTimeout_of_oldest hconvert holdest he (hstart e he) hlong

/--
An event that waits since time 1 at one address and one since time 5 at a
higher address: the younger is returned, and at time 10 a limit of 6 is not
reported.
-/
theorem not_findsOldest_twoEvents :
    ∃ m : MSHR Nat,
      m = (((MSHR.new 8).insertEvent 0x100 0 (-1) false false 1).2.insertEvent
        0x140 1 (-1) false false 5).2 ∧
      m.getOldestEntry.map MSHREntry.time = some 5 ∧
      m.eventEntries.map MSHREntry.time = [1, 5] ∧
      m.checkTimeout id 6 10 = false ∧
      ¬ m.FindsOldest := by
  refine ⟨_, rfl, by decide, by decide, by decide, ?_⟩
  rw [findsOldest_iff]
  decide

end MSHR

end SstElements.MemHierarchy
