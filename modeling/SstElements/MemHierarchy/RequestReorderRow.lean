import SstElements.MemHierarchy.TimingAddrMapper

/-!
# Reordering requests by row

`RequestReorderRow` keeps a queue for each bank.  A bank offers the backend the
oldest request of the row it used last, as long as it has not done so too often,
and otherwise its oldest request.  In each cycle the banks take turns.
-/

namespace SstElements.MemHierarchy

open Function List Option

/-- `RequestReorderRow::Req`. -/
structure ReorderReq where
  id : UInt64
  addr : Addr
  isWrite : Bool
  numBytes : UInt32
deriving DecidableEq, Repr

/-- What the constructor sets once. -/
structure ReorderConfig where
  maxReqsPerRow : Nat
  banks : Nat
  bankMask : Nat
  rowOffset : Nat
  lineOffset : Nat
  reqsPerCycle : Int

def ReorderConfig.bankOf (k : ReorderConfig) (addr : Addr) : Nat :=
  (addr.toNat >>> k.lineOffset) &&& k.bankMask

/-- The row of an address; the code keeps it in 32 bits. -/
def ReorderConfig.rowOf (k : ReorderConfig) (addr : Addr) : UInt32 :=
  UInt32.ofNat (addr.toNat >>> k.rowOffset)

/-- The queues, counts and rows of the banks below `banks`. -/
structure RequestReorderRow extends ReorderConfig where
  nextBank : Nat
  requestQueue : Nat → List ReorderReq
  reorderCount : Nat → Nat
  lastRow : Nat → UInt32

namespace RequestReorderRow

/-- A size among the parameters, as it was written and as it is read. -/
structure SizeParam where
  text : String
  isBytes : Bool
  getRoundedValue : Int

/-- The parameters of the constructor. -/
structure Params where
  max_issue_per_cycle : Int
  banks : UInt32
  row_size : SizeParam
  reorder_limit : UInt32
  bank_interleave_granularity : SizeParam

/-- A limit of zero means no reordering, as does one. -/
def limitOf (reorder_limit : UInt32) : Nat := if reorder_limit = 0 then 1 else reorder_limit.toNat

/-- The constructor; `name` is the name in its messages. -/
def new (name : String) (params : Params) : Except TimingAddrMapper.Failure RequestReorderRow := do
  if params.banks = 0 then
    .error (.fatal s!"Invalid param({name}): banks - must be at least 1. You specified '0'.\n")
  else if !params.row_size.isBytes then
    let text := params.row_size.text
    .error (.fatal s!"Invalid param({name}): row_size - must have units of 'B' (bytes). You specified {text}.\n")
  else if !isPowerOfTwo (UInt32.ofInt params.row_size.getRoundedValue) then
    let text := params.row_size.text
    .error (.fatal s!"Invalid param({name}): row_size - must be a power of two. You specified {text}.\n")
  else if !params.bank_interleave_granularity.isBytes then
    let text := params.bank_interleave_granularity.text
    .error (.fatal s!"Invalid param({name}): bank_interleave_granularity - must have units of 'B' (bytes). You specified '{text}'.\n")
  else if !isPowerOfTwo (UInt32.ofInt params.bank_interleave_granularity.getRoundedValue) then
    let text := params.bank_interleave_granularity.text
    .error (.fatal s!"Invalid param({name}): bank_interleave_granularity - must be a power of two. You specified '{text}'.\n")
  else
    let maxReqsPerRow := limitOf params.reorder_limit
    let rowOffset ← TimingAddrMapper.log2Of (UInt32.ofInt params.row_size.getRoundedValue)
    let lineOffset ← TimingAddrMapper.log2Of
      (UInt32.ofInt params.bank_interleave_granularity.getRoundedValue)
    .ok {
      maxReqsPerRow := maxReqsPerRow
      banks := params.banks.toNat
      nextBank := 0
      bankMask := params.banks.toNat - 1
      rowOffset := rowOffset
      lineOffset := lineOffset
      reqsPerCycle := params.max_issue_per_cycle
      requestQueue := fun _ => []
      reorderCount := fun _ => maxReqsPerRow
      lastRow := fun _ => 0xFFFFFFFF }

variable (m : RequestReorderRow)

def issueRequest (req : ReorderReq) : RequestReorderRow :=
  { m with
    requestQueue := update m.requestQueue (m.bankOf req.addr)
      (m.requestQueue (m.bankOf req.addr) ++ [req]) }

/-- A request that was passed to the backend, with its bank and its place in the queue. -/
structure Pass where
  bank : Nat
  place : Nat
  req : ReorderReq
deriving DecidableEq, Repr

/-- The first request of the last row, where the bank may still reorder. -/
def reordered (bank : Nat) : Option Nat :=
  if m.reorderCount bank ≠ m.maxReqsPerRow then
    (m.requestQueue bank).findIdx? (fun req => m.rowOf req.addr = m.lastRow bank)
  else none

/-- The place in the queue of the request that a bank offers. -/
def offered (bank : Nat) : Nat := (m.reordered bank).getD 0

/-- The request at a place of the queue of a bank is passed on. -/
def passOn (bank place : Nat) (req : ReorderReq) : RequestReorderRow :=
  { m with
    nextBank := (bank + 1) % m.banks
    requestQueue := update m.requestQueue bank
      ((m.requestQueue bank).eraseIdx place)
    reorderCount := update m.reorderCount bank
      (if (m.reordered bank).isSome then m.reorderCount bank + 1 else 1)
    lastRow := update m.lastRow bank
      (if (m.reordered bank).isSome then m.lastRow bank else m.rowOf req.addr) }

/-- A bank with requests offers one to the backend, which takes it or does not. -/
def visit (bank : Nat) (accepted : Bool) : RequestReorderRow × List Pass :=
  match (m.requestQueue bank)[m.offered bank]? with
  | none => (m, [])
  | some req =>
    if accepted then
      (m.passOn bank (m.offered bank) req, [⟨bank, m.offered bank, req⟩])
    else (m, [])

/--
The loop of `clock` over the banks: how many are left, the bank of this turn and
how many requests were passed on so far.  The backend answers turn by turn.
-/
def clockLoop (answers : Nat → Bool) : Nat → Nat → Int → RequestReorderRow →
    RequestReorderRow × List Pass
  | 0, _, _, m => (m, [])
  | left + 1, bank, reqsIssuedThisCycle, m =>
    if m.requestQueue bank = [] then
      clockLoop answers left ((bank + 1) % m.banks) reqsIssuedThisCycle m
    else
      let visited := m.visit bank (answers left)
      let issued := reqsIssuedThisCycle + visited.2.length
      if issued = m.reqsPerCycle then visited
      else
        let rest := clockLoop answers left ((bank + 1) % m.banks) issued visited.1
        (rest.1, visited.2 ++ rest.2)

def clock (answers : Nat → Bool) : RequestReorderRow × List Pass :=
  clockLoop answers m.banks m.nextBank 0 m

section Visits

variable {m : RequestReorderRow} {bank : Nat} {accepted : Bool}

/-- A bank that may reorder counts on, and otherwise it starts again with its oldest request. -/
def Counts (m : RequestReorderRow) (bank place count : Nat) : Prop :=
  (m.reorderCount bank ≠ m.maxReqsPerRow ∧ count = m.reorderCount bank + 1) ∨
    (place = 0 ∧ count = 1)

theorem reordered_spec {place : Nat} (h : m.reordered bank = some place) :
    m.reorderCount bank ≠ m.maxReqsPerRow ∧ ∃ hlt : place < (m.requestQueue bank).length,
        ∀ x ∈ (m.requestQueue bank).take place,
          m.rowOf x.addr ≠ m.rowOf (m.requestQueue bank)[place].addr := by
  unfold reordered at h
  split at h
  next hcount =>
      obtain ⟨hlt, hrow, hfirst⟩ := findIdx?_eq_some_iff_getElem.1 h
      refine ⟨hcount, hlt, ?_⟩
      intro x hx
      obtain ⟨i, hi, rfl⟩ := mem_take_iff_getElem.1 hx
      have hother := hfirst i (by omega)
      simp only [decide_eq_true_eq] at hrow hother
      rwa [hrow]
  next => cases h

theorem offered_spec {req : ReorderReq} (h : (m.requestQueue bank)[m.offered bank]? = some req) :
    (∀ x ∈ (m.requestQueue bank).take (m.offered bank), m.rowOf x.addr ≠ m.rowOf req.addr) ∧
      m.Counts bank (m.offered bank)
        (if (m.reordered bank).isSome then m.reorderCount bank + 1 else 1) := by
  obtain ⟨hlt, rfl⟩ := List.getElem?_eq_some_iff.1 h
  cases hreordered : m.reordered bank with
  | none =>
    have hoffered : m.offered bank = 0 := by rw [offered, hreordered, getD_none]
    refine ⟨?_, .inr ⟨hoffered, rfl⟩⟩
    intro x hx
    rw [hoffered] at hx
    cases hx
  | some place =>
    have hoffered : m.offered bank = place := by rw [offered, hreordered, getD_some]
    obtain ⟨hcount, _, hfirst⟩ := reordered_spec hreordered
    refine ⟨?_, .inl ⟨hcount, rfl⟩⟩
    simpa only [hoffered] using hfirst

/--
What a visit does: nothing, or it passes on a request that is the oldest of its
row in the queue.
-/
theorem visit_cases (m : RequestReorderRow) (bank : Nat) (accepted : Bool) :
    m.visit bank accepted = (m, []) ∨ ∃ front req back m',
      m.requestQueue bank = front ++ req :: back ∧
      (∀ x ∈ front, m.rowOf x.addr ≠ m.rowOf req.addr) ∧
      m.visit bank accepted = (m', [⟨bank, front.length, req⟩]) ∧
      m'.toReorderConfig = m.toReorderConfig ∧
      m'.nextBank = (bank + 1) % m.banks ∧
      m'.requestQueue = update m.requestQueue bank (front ++ back) ∧
      ∃ count, m'.reorderCount = update m.reorderCount bank count ∧
        m.Counts bank front.length count := by
  unfold visit
  split
  next => exact .inl rfl
  next req hreq =>
      cases accepted with
      | false => exact .inl rfl
      | true =>
        obtain ⟨hfirst, hcounts⟩ := offered_spec hreq
        obtain ⟨hlt, hget⟩ := List.getElem?_eq_some_iff.1 hreq
        have hsplit : m.requestQueue bank = (m.requestQueue bank).take (m.offered bank) ++
            req :: (m.requestQueue bank).drop (m.offered bank + 1) := by
          rw [← hget, getElem_cons_drop, take_append_drop]
        have hlength : ((m.requestQueue bank).take (m.offered bank)).length =
            m.offered bank := by
          rw [length_take]
          omega
        refine .inr ⟨(m.requestQueue bank).take (m.offered bank), req,
          (m.requestQueue bank).drop (m.offered bank + 1), m.passOn bank (m.offered bank) req,
          hsplit, hfirst, by rw [hlength]; rfl, rfl, rfl, ?_, _, rfl, by rwa [hlength]⟩
        rw [← eraseIdx_eq_take_drop_succ]
        rfl

theorem offered_lt (m : RequestReorderRow) {bank : Nat} (hqueue : m.requestQueue bank ≠ []) :
    m.offered bank < (m.requestQueue bank).length := by
  cases hreordered : m.reordered bank with
  | none =>
    rw [offered, hreordered, getD_none]
    exact length_pos_of_ne_nil hqueue
  | some place =>
    obtain ⟨-, hlt, -⟩ := reordered_spec hreordered
    rwa [offered, hreordered, getD_some]

/-- A visit that the backend accepts passes a request on if the bank has any. -/
theorem visit_true (m : RequestReorderRow) {bank : Nat} (hqueue : m.requestQueue bank ≠ []) :
    ∃ place req, m.visit bank true = (m.passOn bank place req, [⟨bank, place, req⟩]) := by
  obtain ⟨req, hreq⟩ : ∃ req, (m.requestQueue bank)[m.offered bank]? = some req :=
    ⟨_, getElem?_eq_getElem (m.offered_lt hqueue)⟩
  refine ⟨m.offered bank, req, ?_⟩
  rw [visit, hreq]
  rfl

theorem visit_false (m : RequestReorderRow) (bank : Nat) : m.visit bank false = (m, []) := by
  unfold visit
  split <;> rfl

end Visits

section Loop

variable {answers : Nat → Bool}

/-- A backend that is busy for the cycle leaves everything as it is. -/
theorem clockLoop_busy (hbusy : ∀ turn, answers turn = false) (left bank : Nat) (issued : Int)
    (m : RequestReorderRow) : clockLoop answers left bank issued m = (m, []) := by
  induction left generalizing bank issued with
  | zero =>
    rfl
  | succ left ih =>
    rw [clockLoop]
    simp only [hbusy, visit_false, ih, append_nil, ite_self]

/--
If the backend takes what it is offered, the loop reaches a bank that is `away`
turns off and has requests, or the next loop starts nearer to it.
-/
theorem clockLoop_reaches (hfree : ∀ turn, answers turn = true) {b away left bank : Nat}
    (issued : Int) (m : RequestReorderRow) (hqueue : m.requestQueue b ≠ [])
    (hbank : bank < m.banks) (hleft : away < left) (haway : (bank + away) % m.banks = b) :
    (∃ p ∈ (clockLoop answers left bank issued m).2, p.bank = b) ∨
      ∃ nearer < away, ((clockLoop answers left bank issued m).1.nextBank + nearer) % m.banks = b
    := by
  induction left generalizing away bank issued m with
  | zero =>
    exact absurd hleft (Nat.not_lt_zero _)
  | succ left ih =>
    have hnow : away = 0 → bank = b := by
      rintro rfl
      rwa [add_zero, Nat.mod_eq_of_lt hbank] at haway
    have hnext : (bank + 1) % m.banks < m.banks := Nat.mod_lt _ (by omega)
    have hrest : away ≠ 0 → ((bank + 1) % m.banks + (away - 1)) % m.banks = b := by
      intro hne
      rw [Nat.mod_add_mod, show bank + 1 + (away - 1) = bank + away by omega, haway]
    rw [clockLoop]
    split
    next hempty =>
        have hne : away ≠ 0 := fun hzero => hqueue (hnow hzero ▸ hempty)
        refine (ih issued m hqueue hnext (show away - 1 < left by omega) (hrest hne)).imp id ?_
        rintro ⟨nearer, hlt, hnearer⟩
        exact ⟨nearer, by omega, hnearer⟩
    next hsome =>
        obtain ⟨place, req, hvisit⟩ := m.visit_true hsome
        rw [hfree, hvisit]
        by_cases hb : bank = b
        · left
          simp only
          split
          · exact ⟨_, mem_singleton_self _, hb⟩
          · exact ⟨_, mem_append_left _ (mem_singleton_self _), hb⟩
        have hne : away ≠ 0 := mt hnow hb
        simp only
        split
        · exact .inr ⟨away - 1, by omega, hrest hne⟩
        · have hqueue' : (m.passOn bank place req).requestQueue b ≠ [] := by
            simpa only [passOn, update_of_ne (Ne.symm hb)] using hqueue
          rcases ih (issued + 1) (m.passOn bank place req) hqueue' hnext
            (show away - 1 < left by omega) (hrest hne) with ⟨p, hp, hpb⟩ | ⟨nearer, hlt, hnearer⟩
          · exact .inl ⟨p, mem_append_right _ hp, hpb⟩
          · exact .inr ⟨nearer, by omega, hnearer⟩

end Loop

section Runs

/-- The reorderer with the requests that arrived and those that it passed on. -/
structure History where
  reorder : RequestReorderRow
  arrived : List ReorderReq
  passed : List Pass

/-- A call of the reorderer; the backend may answer a cycle in any way. -/
inductive Op where
  | issueRequest (req : ReorderReq)
  | clock (answers : Nat → Bool)

/-- The backend is busy for the whole cycle, or it takes whatever it is offered. -/
def Op.Steady : Op → Prop
  | .issueRequest _ => True
  | .clock answers => ∀ turn, answers turn = answers 0

/-- A cycle in which a steady backend takes requests. -/
def Op.takes : Op → Bool
  | .issueRequest _ => false
  | .clock answers => answers 0

variable {turnsLeft : Nat}

namespace History

variable (h : History)

def step : Op → History
  | .issueRequest req => ⟨h.reorder.issueRequest req, h.arrived ++ [req], h.passed⟩
  | .clock answers =>
    ⟨(h.reorder.clock answers).1, h.arrived, h.passed ++ (h.reorder.clock answers).2⟩

def run (ops : List Op) : History := ops.foldl step h

/-- An arrival or the visit of a bank. -/
inductive Turn where
  | arrive (req : ReorderReq)
  | visit (bank : Nat) (accepted : Bool)

def turn : Turn → History
  | .arrive req => ⟨h.reorder.issueRequest req, h.arrived ++ [req], h.passed⟩
  | .visit bank accepted =>
    ⟨(h.reorder.visit bank accepted).1, h.arrived, h.passed ++ (h.reorder.visit bank accepted).2⟩

theorem exists_turns_clockLoop (answers : Nat → Bool) (left bank : Nat) (issued : Int)
    (m : RequestReorderRow) (arrived : List ReorderReq) (passed : List Pass) :
    ∃ turns : List Turn, turns.foldl turn ⟨m, arrived, passed⟩ =
      ⟨(clockLoop answers left bank issued m).1, arrived,
        passed ++ (clockLoop answers left bank issued m).2⟩ := by
  induction left generalizing bank issued m passed with
  | zero =>
    exact ⟨[], by simp [clockLoop]⟩
  | succ left ih =>
    rw [clockLoop]
    split
    next => exact ih _ _ _ _
    next =>
        simp only
        split
        next =>
            exact ⟨[.visit bank (answers left)], rfl⟩
        next =>
            obtain ⟨turns, hturns⟩ := ih ((bank + 1) % m.banks)
              (issued + (m.visit bank (answers left)).2.length)
              (m.visit bank (answers left)).1
              (passed ++ (m.visit bank (answers left)).2)
            refine ⟨.visit bank (answers left) :: turns, ?_⟩
            rw [foldl_cons]
            refine hturns.trans ?_
            rw [append_assoc]

/-- A run is a sequence of turns. -/
theorem exists_turns_run (ops : List Op) : ∃ turns : List Turn, h.run ops = turns.foldl turn h := by
  induction ops generalizing h with
  | nil =>
    exact ⟨[], rfl⟩
  | cons op ops ih =>
    obtain ⟨turns, hturns⟩ := ih (h.step op)
    obtain ⟨first, hfirst⟩ : ∃ first : List Turn, h.step op = first.foldl turn h := by
      cases op with
      | issueRequest req => exact ⟨[.arrive req], rfl⟩
      | clock answers =>
        obtain ⟨first, hfirst⟩ := exists_turns_clockLoop answers h.reorder.banks
          h.reorder.nextBank 0 h.reorder h.arrived h.passed
        exact ⟨first, hfirst.symm⟩
    refine ⟨first ++ turns, ?_⟩
    rw [foldl_append, ← hfirst]
    exact hturns

/-- The requests of a bank and a row that were passed on. -/
def passedOf (k : ReorderConfig) (bank : Nat) (row : UInt32) : List ReorderReq :=
  (h.passed.filter (fun p => p.bank = bank ∧ k.rowOf p.req.addr = row)).map Pass.req

/-- Those that wait. -/
def queuedOf (k : ReorderConfig) (bank : Nat) (row : UInt32) : List ReorderReq :=
  (h.reorder.requestQueue bank).filter (fun req => k.rowOf req.addr = row)

def arrivedOf (k : ReorderConfig) (bank : Nat) (row : UInt32) : List ReorderReq :=
  h.arrived.filter (fun req => k.bankOf req.addr = bank ∧ k.rowOf req.addr = row)

/--
The counts are between one and the limit, only banks in range have requests, and
the requests of a row are passed on in the order of their arrival, each once.
-/
structure Inv (k : ReorderConfig) : Prop where
  config : h.reorder.toReorderConfig = k
  mask_lt : k.bankMask < k.banks
  next_lt : h.reorder.nextBank < k.banks
  queue_lt : ∀ bank, h.reorder.requestQueue bank ≠ [] → bank < k.banks
  counts : ∀ bank, 1 ≤ h.reorder.reorderCount bank ∧
    h.reorder.reorderCount bank ≤ k.maxReqsPerRow
  ordered : ∀ bank row,
    h.passedOf k bank row ++ h.queuedOf k bank row = h.arrivedOf k bank row

variable {h} {k : ReorderConfig}

theorem Inv.arrive (hinv : h.Inv k) (req : ReorderReq) : (h.turn (.arrive req)).Inv k := by
  have hrange : h.reorder.bankOf req.addr < k.banks := by
    rw [ReorderConfig.bankOf, hinv.config]
    exact Nat.and_le_right.trans_lt hinv.mask_lt
  refine ⟨hinv.config, hinv.mask_lt, hinv.next_lt, ?_, hinv.counts, ?_⟩
  · intro bank hne
    by_cases hbank : bank = h.reorder.bankOf req.addr
    · rwa [hbank]
    · simp only [turn, issueRequest, update_of_ne hbank] at hne
      exact hinv.queue_lt bank hne
  intro bank row
  have hold := hinv.ordered bank row
  simp only [passedOf, queuedOf, arrivedOf, turn, issueRequest, hinv.config] at hold ⊢
  rw [filter_append, ← hold, append_assoc]
  congr 1
  by_cases hbank : k.bankOf req.addr = bank
  · subst hbank
    rw [update_self, filter_append]
    congr 1
    simp [filter_cons]
  · rw [update_of_ne (Ne.symm hbank)]
    simp [hbank]

theorem Inv.visit (hinv : h.Inv k) (bank : Nat) (accepted : Bool) :
    (h.turn (.visit bank accepted)).Inv k := by
  rcases visit_cases h.reorder bank accepted with hnone |
    ⟨front, req, back, m', hqueue, hfirst, hvisit, hconfig, hnext, hqueue', count, hcount', hcount⟩
  · have hsame : h.turn (.visit bank accepted) = h := by simp only [turn, hnone, append_nil]
    rwa [hsame]
  · have hturn : h.turn (.visit bank accepted) =
        ⟨m', h.arrived, h.passed ++ [⟨bank, front.length, req⟩]⟩ := by
      simp only [turn, hvisit]
    rw [hturn]
    refine ⟨hconfig.trans hinv.config, hinv.mask_lt, ?_, ?_, ?_, ?_⟩
    · rw [hnext, hinv.config]
      exact Nat.mod_lt _ (Nat.zero_lt_of_lt hinv.mask_lt)
    · intro other hne
      refine hinv.queue_lt other ?_
      by_cases hother : other = bank
      · rw [hother, hqueue]
        simp
      · simpa only [hqueue', update_of_ne hother] using hne
    · intro other
      simp only [hcount']
      by_cases hother : other = bank
      · subst hother
        rw [update_self]
        have hold := hinv.counts other
        rw [Counts, hinv.config] at hcount
        omega
      · rw [update_of_ne hother]
        exact hinv.counts other
    · intro other row
      have hold := hinv.ordered other row
      simp only [passedOf, queuedOf, arrivedOf, hqueue'] at hold ⊢
      rw [← hold, filter_append, map_append, append_assoc]
      congr 1
      by_cases hother : other = bank
      · subst hother
        rw [update_self, hqueue]
        simp only [filter_append, filter_cons, filter_nil, decide_eq_true_eq, true_and]
        by_cases hrow : k.rowOf req.addr = row
        · have hnone : front.filter (fun x => k.rowOf x.addr = row) = [] := by
            rw [filter_eq_nil_iff]
            intro x hx
            have hne := hfirst x hx
            rw [hinv.config, hrow] at hne
            simpa using hne
          simp [hrow, hnone]
        · simp [hrow]
      · rw [update_of_ne hother]
        simp [Ne.symm hother]

theorem Inv.turns (hinv : h.Inv k) (turns : List Turn) : (turns.foldl turn h).Inv k := by
  induction turns generalizing h with
  | nil =>
    exact hinv
  | cons t turns ih =>
    cases t with
    | arrive req => exact ih (hinv.arrive req)
    | visit bank accepted => exact ih (hinv.visit bank accepted)

def passesOf (bank : Nat) (passes : List Pass) : List Pass := passes.filter (fun p => p.bank = bank)

/-- The place of a waiting request after the bank passed others on; `none` when it was its turn. -/
def placeAfter : Nat → List Pass → Option Nat
  | place, [] => some place
  | place, p :: passes =>
    if p.place = place then none
    else placeAfter (if p.place < place then place - 1 else place) passes

theorem placeAfter_append {place place' : Nat} {first : List Pass}
    (hfirst : placeAfter place first = some place') (passes : List Pass) :
    placeAfter place (first ++ passes) = placeAfter place' passes := by
  induction first generalizing place with
  | nil =>
    rw [← some.inj hfirst, nil_append]
  | cons p first ih =>
    rw [placeAfter] at hfirst
    rw [cons_append, placeAfter]
    split at hfirst
    next => cases hfirst
    next hne =>
        rw [if_neg hne]
        exact ih hfirst

/-- Where a waiting request is after another one of its bank was passed on. -/
def nextPlace (place : Nat) (p : Pass) : Nat := if p.place < place then place - 1 else place

variable {place bank : Nat} {r : ReorderReq}

theorem getElem?_of_removed {α : Type} {front back : List α} {x r : α}
    (hr : (front ++ x :: back)[place]? = some r) (hne : front.length ≠ place) :
    (front ++ back)[if front.length < place then place - 1 else place]? = some r := by
  split
  next hlt =>
      obtain ⟨i, rfl⟩ : ∃ i, place = front.length + 1 + i := ⟨place - front.length - 1, by omega⟩
      rw [getElem?_append_right (by omega)] at hr ⊢
      rw [show front.length + 1 + i - front.length = i + 1 by omega, getElem?_cons_succ]
        at hr
      rwa [show front.length + 1 + i - 1 - front.length = i by omega]
  next hlt =>
      rw [getElem?_append_left (by omega)] at hr ⊢
      exact hr

theorem exists_passed (h : History) (turns : List Turn) :
    ∃ passes, (turns.foldl turn h).passed = h.passed ++ passes := by
  induction turns generalizing h with
  | nil =>
    exact ⟨[], (append_nil _).symm⟩
  | cons t turns ih =>
    obtain ⟨passes, hpasses⟩ := ih (h.turn t)
    obtain ⟨first, hfirst⟩ : ∃ first, (h.turn t).passed = h.passed ++ first := by
      cases t with
      | arrive req => exact ⟨[], (append_nil _).symm⟩
      | visit bank accepted => exact ⟨_, rfl⟩
    exact ⟨first ++ passes, by rw [foldl_cons, hpasses, hfirst, append_assoc]⟩

section

variable (hinv : h.Inv k) (hr : (h.reorder.requestQueue bank)[place]? = some r)
include hinv hr

theorem Inv.turn_waits (t : Turn) :
    ∃ passes, (h.turn t).passed = h.passed ++ passes ∧ ((passesOf bank passes = [] ∧
          ((h.turn t).reorder.requestQueue bank)[place]? = some r ∧
          (h.turn t).reorder.reorderCount bank = h.reorder.reorderCount bank) ∨
        ∃ p, passes = [p] ∧ p.bank = bank ∧ ((p.place = place ∧ p.req = r) ∨ (p.place ≠ place ∧
              ((h.turn t).reorder.requestQueue bank)[nextPlace place p]? = some r ∧
              nextPlace place p * k.maxReqsPerRow + h.reorder.reorderCount bank + 1 ≤
                place * k.maxReqsPerRow + (h.turn t).reorder.reorderCount bank))) := by
  cases t with
  | arrive req =>
    refine ⟨[], by simp [turn], .inl ⟨rfl, ?_, rfl⟩⟩
    simp only [turn, issueRequest]
    by_cases hbank : bank = h.reorder.bankOf req.addr
    · subst hbank
      rw [update_self, getElem?_append_left]
      · exact hr
      · exact (List.getElem?_eq_some_iff.1 hr).1
    · rwa [update_of_ne hbank]
  | visit other accepted =>
    rcases visit_cases h.reorder other accepted with hnone |
      ⟨front, req, back, m', hqueue, -, hvisit, -, -, hqueue', count, hcount', hcount⟩
    · have hsame : h.turn (.visit other accepted) = h := by simp only [turn, hnone, append_nil]
      rw [hsame]
      exact ⟨[], by simp, .inl ⟨rfl, hr, rfl⟩⟩
    · have hturn : h.turn (.visit other accepted) =
          ⟨m', h.arrived, h.passed ++ [⟨other, front.length, req⟩]⟩ := by
        simp only [turn, hvisit]
      rw [hturn]
      refine ⟨_, rfl, ?_⟩
      simp only [hqueue', hcount']
      by_cases hother : other = bank
      · subst hother
        refine .inr ⟨_, rfl, rfl, ?_⟩
        rw [update_self, update_self]
        by_cases hplace : front.length = place
        · left
          refine ⟨hplace, ?_⟩
          rw [hqueue, ← hplace, getElem?_append_right le_rfl, Nat.sub_self,
            getElem?_cons_zero] at hr
          exact some.inj hr
        · right
          rw [hqueue] at hr
          refine ⟨hplace, getElem?_of_removed hr hplace, ?_⟩
          rw [Counts, hinv.config] at hcount
          have hbound := (hinv.counts other).2
          simp only [nextPlace]
          split
          next hlt =>
              have hmul := Nat.sub_one_mul place k.maxReqsPerRow
              have hle := Nat.le_mul_of_pos_left k.maxReqsPerRow
                (show 0 < place by omega)
              omega
          next hlt => omega
      · left
        rw [update_of_ne (Ne.symm hother), update_of_ne (Ne.symm hother)]
        exact ⟨by simp [passesOf, hother], hr, rfl⟩

/--
While a request waits, its bank passes on at most the limit for each request
before it and what is left of the limit now; and the request is the one whose
turn comes.
-/
theorem Inv.waits (turns : List Turn) :
    ∃ passes, (turns.foldl turn h).passed = h.passed ++ passes ∧
      ∀ before after, passesOf bank passes = before ++ after →
        ∀ place', placeAfter place before = some place' →
          place' * k.maxReqsPerRow + before.length + h.reorder.reorderCount bank ≤
            place * k.maxReqsPerRow + k.maxReqsPerRow ∧
          ∀ p rest, after = p :: rest → p.place = place' → p.req = r := by
  induction turns generalizing h place with
  | nil =>
    refine ⟨[], by simp, ?_⟩
    intro before after hsplit place' hplace'
    obtain ⟨rfl, rfl⟩ := append_eq_nil_iff.1 hsplit.symm
    cases hplace'
    refine ⟨?_, fun p rest hrest => by cases hrest⟩
    have hcount := (hinv.counts bank).2
    simp only [length_nil]
    omega
  | cons t turns ih =>
    have hinv' : (h.turn t).Inv k := hinv.turns [t]
    obtain ⟨first, hfirst, ⟨hnone, hr', hcount⟩ | ⟨p, rfl, hbank, hp⟩⟩ := hinv.turn_waits hr t
    · obtain ⟨passes, hpasses, hwaits⟩ := ih hinv' hr'
      refine ⟨first ++ passes, ?_, ?_⟩
      · rw [foldl_cons, hpasses, hfirst, append_assoc]
      · intro before after hsplit
        rw [passesOf, filter_append, ← passesOf, hnone, nil_append] at hsplit
        rw [← hcount]
        exact hwaits before after hsplit
    · -- the bank passes `p` on first
      have hfoldl : ∀ passes, (turns.foldl turn (h.turn t)).passed =
          (h.turn t).passed ++ passes →
          ((t :: turns).foldl turn h).passed = h.passed ++ (p :: passes) := by
        intro passes hpasses
        rw [foldl_cons, hpasses, hfirst, append_assoc]
        rfl
      have hpassesOf : ∀ passes, passesOf bank (p :: passes) = p :: passesOf bank passes := by
        intro passes
        simp [passesOf, hbank]
      have hstart : place * k.maxReqsPerRow + ([] : List Pass).length +
          h.reorder.reorderCount bank ≤ place * k.maxReqsPerRow + k.maxReqsPerRow := by
        have hcount := (hinv.counts bank).2
        simp only [length_nil]
        omega
      rcases hp with ⟨hplace, hreq⟩ | ⟨hplace, hr', hle⟩
      · obtain ⟨passes, hpasses⟩ := exists_passed (h.turn t) turns
        refine ⟨p :: passes, hfoldl passes hpasses, ?_⟩
        intro before after hsplit place' hplace'
        rw [hpassesOf] at hsplit
        cases before with
        | nil =>
          cases hplace'
          refine ⟨hstart, ?_⟩
          rintro p' rest rfl -
          obtain ⟨rfl, -⟩ := cons.inj hsplit
          exact hreq
        | cons q before =>
          obtain ⟨rfl, -⟩ := cons.inj hsplit
          rw [placeAfter, if_pos hplace] at hplace'
          cases hplace'
      · obtain ⟨passes, hpasses, hwaits⟩ := ih hinv' hr'
        refine ⟨p :: passes, hfoldl passes hpasses, ?_⟩
        intro before after hsplit place' hplace'
        rw [hpassesOf] at hsplit
        cases before with
        | nil =>
          cases hplace'
          refine ⟨hstart, ?_⟩
          rintro p' rest rfl hp'
          obtain ⟨rfl, -⟩ := cons.inj hsplit
          exact absurd hp' hplace
        | cons q before =>
          obtain ⟨rfl, hrest⟩ := cons.inj hsplit
          rw [placeAfter, if_neg hplace] at hplace'
          obtain ⟨hbound, hturn⟩ := hwaits before after hrest place' hplace'
          refine ⟨?_, hturn⟩
          rw [length_cons]
          omega

end

/-- A new reorderer has an empty history. -/
def start (m : RequestReorderRow) : History := ⟨m, [], []⟩

section

variable (hinv : h.Inv k) (hr : (h.reorder.requestQueue bank)[place]? = some r)

/-- Some of the passes is of the request that waits at `place` of `bank`. -/
def PassesOn (bank place : Nat) (r : ReorderReq) (passes : List Pass) : Prop :=
  ∃ before p after, passesOf bank passes = before ++ p :: after ∧
    placeAfter place before = some p.place ∧ p.req = r

theorem PassesOn.append_right {passes : List Pass} (hpasses : PassesOn bank place r passes)
    (more : List Pass) : PassesOn bank place r (passes ++ more) := by
  obtain ⟨before, p, after, hsplit, hp⟩ := hpasses
  refine ⟨before, p, after ++ passesOf bank more, ?_, hp⟩
  rw [passesOf, filter_append, ← passesOf, hsplit, append_assoc, cons_append]
  rfl

theorem PassesOn.append_left {first passes : List Pass} {place' : Nat}
    (hfirst : placeAfter place (passesOf bank first) = some place')
    (hpasses : PassesOn bank place' r passes) : PassesOn bank place r (first ++ passes) := by
  obtain ⟨before, p, after, hsplit, hp⟩ := hpasses
  refine ⟨passesOf bank first ++ before, p, after, ?_, ?_⟩
  · rw [passesOf, filter_append, ← passesOf, ← passesOf, hsplit, append_assoc]
  · rw [placeAfter_append hfirst]
    exact hp

include hinv hr

/-- After some turns a request was passed on, or it is nearer by the passes of its bank. -/
theorem Inv.passed_or_waits (turns : List Turn) :
    ∃ passes, (turns.foldl turn h).passed = h.passed ++ passes ∧
      (PassesOn bank place r passes ∨
        ∃ place', placeAfter place (passesOf bank passes) = some place' ∧
          ((turns.foldl turn h).reorder.requestQueue bank)[place']? = some r ∧
          place' * k.maxReqsPerRow + (passesOf bank passes).length +
              h.reorder.reorderCount bank ≤
            place * k.maxReqsPerRow + (turns.foldl turn h).reorder.reorderCount bank) := by
  induction turns generalizing h place with
  | nil =>
    exact ⟨[], (append_nil _).symm, .inr ⟨place, rfl, hr, le_rfl⟩⟩
  | cons t turns ih =>
    have hinv' : (h.turn t).Inv k := hinv.turns [t]
    obtain ⟨first, hfirst, ⟨hnone, hr', hcount⟩ | ⟨p, rfl, hbank, hp⟩⟩ := hinv.turn_waits hr t
    · obtain ⟨passes, hpasses, hwaits⟩ := ih hinv' hr'
      refine ⟨first ++ passes, by rw [foldl_cons, hpasses, hfirst, append_assoc], ?_⟩
      refine hwaits.imp (PassesOn.append_left (by rw [hnone]; rfl)) ?_
      rintro ⟨place', hplace', hr'', hle⟩
      rw [passesOf, filter_append, ← passesOf, ← passesOf, hnone, nil_append, ← hcount]
      exact ⟨place', hplace', hr'', hle⟩
    · have hone : passesOf bank [p] = [p] := by simp [passesOf, hbank]
      rcases hp with ⟨hplace, hreq⟩ | ⟨hplace, hr', hle⟩
      · obtain ⟨passes, hpasses⟩ := exists_passed (h.turn t) turns
        refine ⟨[p] ++ passes, by rw [foldl_cons, hpasses, hfirst, append_assoc], .inl ?_⟩
        exact PassesOn.append_right ⟨[], p, [], hone, congrArg some hplace.symm, hreq⟩ passes
      · obtain ⟨passes, hpasses, hwaits⟩ := ih hinv' hr'
        have hnext : placeAfter place (passesOf bank [p]) = some (nextPlace place p) := by
          rw [hone, placeAfter, if_neg hplace]
          rfl
        refine ⟨[p] ++ passes, by rw [foldl_cons, hpasses, hfirst, append_assoc], ?_⟩
        refine hwaits.imp (PassesOn.append_left hnext) ?_
        rintro ⟨place', hplace', hr'', hle'⟩
        rw [passesOf, filter_append, ← passesOf, ← passesOf, placeAfter_append hnext, hone,
          length_append, length_singleton, foldl_cons]
        exact ⟨place', hplace', hr'', by omega⟩

end

/-- A request waits whose bank is some turns off and may pass on so many more. -/
def Near (h : History) (k : ReorderConfig) (bank place : Nat) (r : ReorderReq)
    (turnsLeft : Nat) : Prop :=
  (h.reorder.requestQueue bank)[place]? = some r ∧
    ∃ away < k.banks, (h.reorder.nextBank + away) % k.banks = bank ∧
      turnsLeft = (place * k.maxReqsPerRow + k.maxReqsPerRow - h.reorder.reorderCount bank) *
        k.banks + away

theorem Inv.run (hinv : h.Inv k) (ops : List Op) : (h.run ops).Inv k := by
  obtain ⟨turns, hturns⟩ := exists_turns_run h ops
  rw [hturns]
  exact hinv.turns turns

theorem Inv.near (hinv : h.Inv k) (hr : (h.reorder.requestQueue bank)[place]? = some r) :
    ∃ turnsLeft < (place + 1) * k.maxReqsPerRow * k.banks, Near h k bank place r turnsLeft := by
  have hbank : bank < k.banks := by
    refine hinv.queue_lt bank fun hempty => ?_
    rw [hempty] at hr
    cases hr
  have hnext := hinv.next_lt
  have haway : (bank + (k.banks - h.reorder.nextBank)) % k.banks < k.banks :=
    Nat.mod_lt _ (Nat.zero_lt_of_lt hbank)
  refine ⟨_, ?_, hr, _, haway, ?_, rfl⟩
  · obtain ⟨hpos, hle⟩ := hinv.counts bank
    have hless : place * k.maxReqsPerRow + k.maxReqsPerRow - h.reorder.reorderCount bank + 1 ≤
        (place + 1) * k.maxReqsPerRow := by
      rw [add_mul, one_mul]
      omega
    have hmul := Nat.mul_le_mul_right k.banks hless
    rw [add_mul, one_mul] at hmul
    omega
  · rw [Nat.add_mod_mod, show h.reorder.nextBank + (bank + (k.banks - h.reorder.nextBank)) =
      bank + k.banks by omega, Nat.add_mod_right, Nat.mod_eq_of_lt hbank]

/-- A cycle of a free backend passes the request on or brings its bank nearer. -/
theorem Inv.clock_near (hinv : h.Inv k) {answers : Nat → Bool}
    (hnear : Near h k bank place r turnsLeft) (hfree : ∀ turn, answers turn = true) :
    ∃ passes, (h.step (.clock answers)).passed = h.passed ++ passes ∧
      (PassesOn bank place r passes ∨
        ∃ place', ∃ turnsLeft' < turnsLeft, placeAfter place (passesOf bank passes) = some place' ∧
          Near (h.step (.clock answers)) k bank place' r turnsLeft') := by
  obtain ⟨hr, away, haway, hoff, rfl⟩ := hnear
  have hqueue : h.reorder.requestQueue bank ≠ [] := by
    rintro hempty
    rw [hempty] at hr
    cases hr
  obtain ⟨turns, hturns⟩ := exists_turns_clockLoop answers h.reorder.banks h.reorder.nextBank 0
    h.reorder h.arrived h.passed
  have hstep : turns.foldl turn h = h.step (.clock answers) := hturns
  have hinv' : (h.step (.clock answers)).Inv k := hinv.run [.clock answers]
  obtain ⟨passes, hpasses, hwaits⟩ := hinv.passed_or_waits hr turns
  rw [hstep] at hpasses hwaits
  refine ⟨passes, hpasses, hwaits.imp id ?_⟩
  rintro ⟨place', hplace', hr', hle⟩
  have hcount' := (hinv'.counts bank).2
  cases hnone : passesOf bank passes with
  | nil =>
    -- its bank had no turn, so the next cycle starts nearer to it
    have hpassed : passes = (h.reorder.clock answers).2 := append_cancel_left hpasses.symm
    have hbanks : h.reorder.banks = k.banks := congrArg ReorderConfig.banks hinv.config
    obtain ⟨p, hp, hpb⟩ | ⟨nearer, hlt, hnearer⟩ := clockLoop_reaches hfree 0 h.reorder hqueue
      (hbanks ▸ hinv.next_lt) (hbanks ▸ haway) (hbanks ▸ hoff)
    · rw [passesOf, filter_eq_nil_iff] at hnone
      exact absurd (decide_eq_true hpb) (hnone p (hpassed ▸ hp))
    · have hnearer' : ((h.step (.clock answers)).reorder.nextBank + nearer) % k.banks = bank :=
        hbanks ▸ hnearer
      refine ⟨place', _, ?_, hnone ▸ hplace', hr', nearer, hlt.trans haway, hnearer', rfl⟩
      exact Nat.add_lt_add_of_le_of_lt (Nat.mul_le_mul_right _ (by omega)) hlt
  | cons p others =>
    obtain ⟨turnsLeft', -, hnear'⟩ := hinv'.near hr'
    obtain ⟨-, away', haway', -, hturnsLeft⟩ := id hnear'
    refine ⟨place', turnsLeft', ?_, hnone ▸ hplace', hnear'⟩
    rw [hnone, length_cons] at hle
    have hless : place' * k.maxReqsPerRow + k.maxReqsPerRow -
          (h.step (.clock answers)).reorder.reorderCount bank + 1 ≤
        place * k.maxReqsPerRow + k.maxReqsPerRow - h.reorder.reorderCount bank := by
      omega
    have hmul := Nat.mul_le_mul_right k.banks hless
    rw [add_mul, one_mul] at hmul
    omega

theorem Inv.step_near (hinv : h.Inv k) (hnear : Near h k bank place r turnsLeft) {op : Op}
    (hsteady : op.Steady) :
    ∃ passes, (h.step op).passed = h.passed ++ passes ∧
      (PassesOn bank place r passes ∨
        ∃ place' turnsLeft', placeAfter place (passesOf bank passes) = some place' ∧
          Near (h.step op) k bank place' r turnsLeft' ∧
          turnsLeft' + [op].countP Op.takes ≤ turnsLeft) := by
  cases op with
  | issueRequest req =>
    refine ⟨[], (append_nil _).symm, .inr ⟨place, turnsLeft, rfl, ⟨?_, hnear.2⟩, le_rfl⟩⟩
    simp only [step, RequestReorderRow.issueRequest]
    by_cases hbank : bank = h.reorder.bankOf req.addr
    · rw [hbank, update_self]
      exact getElem?_append_left (List.getElem?_eq_some_iff.1 (hbank ▸ hnear.1)).1 ▸ hbank ▸ hnear.1
    · rw [update_of_ne hbank]
      exact hnear.1
  | clock answers =>
    cases htakes : answers 0 with
    | false =>
      have hbusy : h.reorder.clock answers = (h.reorder, []) :=
        clockLoop_busy (fun turn => (hsteady turn).trans htakes) _ _ _ _
      have hsame : h.step (.clock answers) = h := by simp only [step, hbusy, append_nil]
      rw [hsame]
      refine ⟨[], (append_nil _).symm, .inr ⟨place, turnsLeft, rfl, hnear, ?_⟩⟩
      simp [Op.takes, htakes]
    | true =>
      obtain ⟨passes, hpasses, hwaits⟩ :=
        hinv.clock_near hnear fun turn => (hsteady turn).trans htakes
      refine ⟨passes, hpasses, hwaits.imp id ?_⟩
      rintro ⟨place', turnsLeft', hlt, hplace', hnear'⟩
      refine ⟨place', turnsLeft', hplace', hnear', ?_⟩
      simpa [Op.takes, htakes] using hlt

/-- In a run of steady cycles a request waits for no more takings than it had turns left. -/
theorem Inv.run_near (hinv : h.Inv k) (hnear : Near h k bank place r turnsLeft) {more : List Op}
    (hsteady : ∀ op ∈ more, op.Steady) :
    ∃ passes, (h.run more).passed = h.passed ++ passes ∧
      (PassesOn bank place r passes ∨ more.countP Op.takes ≤ turnsLeft) := by
  induction more generalizing h place turnsLeft with
  | nil =>
    exact ⟨[], (append_nil _).symm, .inr (Nat.zero_le _)⟩
  | cons op more ih =>
    obtain ⟨first, hfirst, hpass | ⟨place', turnsLeft', hplace', hnear', hle⟩⟩ :=
      hinv.step_near hnear (hsteady op mem_cons_self)
    · obtain ⟨turns, hturns⟩ := exists_turns_run (h.step op) more
      obtain ⟨passes, hpasses⟩ := exists_passed (h.step op) turns
      refine ⟨first ++ passes, ?_, .inl (hpass.append_right passes)⟩
      exact (hturns ▸ hpasses).trans (by rw [hfirst, append_assoc])
    · obtain ⟨passes, hpasses, hwaits⟩ := ih (h := h.step op) (hinv.run [op]) hnear'
        fun op' hop' => hsteady op' (mem_cons_of_mem _ hop')
      refine ⟨first ++ passes, ?_, hwaits.imp (PassesOn.append_left hplace') fun hcount => ?_⟩
      · exact hpasses.trans (by rw [hfirst, append_assoc])
      · rw [countP_cons]
        rw [countP_singleton] at hle
        omega

theorem limitOf_pos (reorder_limit : UInt32) : 1 ≤ limitOf reorder_limit := by
  unfold limitOf
  split
  next => exact le_rfl
  next hne =>
      by_contra hlt
      exact hne (UInt32.toNat_inj.1 (by
        rw [UInt32.toNat_zero]
        omega))

theorem inv_start {name : String} {params : Params} {m : RequestReorderRow}
    (hm : RequestReorderRow.new name params = .ok m) :
    (start m).Inv m.toReorderConfig ∧ m.maxReqsPerRow = limitOf params.reorder_limit := by
  have hfields : m.maxReqsPerRow = limitOf params.reorder_limit ∧
      m.reorderCount = (fun _ => limitOf params.reorder_limit) ∧
      m.requestQueue = (fun _ => []) ∧ m.bankMask < m.banks ∧ m.nextBank < m.banks := by
    unfold RequestReorderRow.new at hm
    split_ifs at hm with hzero
    have hbanks : 0 < params.banks.toNat :=
      pos_of_ne_zero fun hnone => hzero (UInt32.toNat_inj.1 hnone)
    obtain ⟨rowOffset, -, hm⟩ := TimingAddrMapper.bind_eq_ok_iff.1 hm
    obtain ⟨lineOffset, -, hm⟩ := TimingAddrMapper.bind_eq_ok_iff.1 hm
    cases hm
    exact ⟨rfl, rfl, rfl, Nat.sub_lt hbanks Nat.one_pos, hbanks⟩
  obtain ⟨hlimit, hcount, hqueue, hmask, hnext⟩ := hfields
  refine ⟨⟨rfl, hmask, hnext, fun bank hne => absurd (congrFun hqueue bank) hne, ?_, ?_⟩, hlimit⟩
  · intro bank
    simp only [start, hcount, hlimit, limitOf_pos, le_refl, and_self]
  · intro bank row
    simp only [passedOf, queuedOf, arrivedOf, start, hqueue, filter_nil, map_nil, append_nil]

end History

end Runs

section Main

open History

/-- The requests of a row were passed on in the order of their arrival, the others wait. -/
def RowsInOrder (h : History) : Prop :=
  ∀ bank row, h.passedOf h.reorder.toReorderConfig bank row ++
      h.queuedOf h.reorder.toReorderConfig bank row =
    h.arrivedOf h.reorder.toReorderConfig bank row

/--
Before the oldest request of a bank its bank passes on fewer younger ones than
the limit, and it is the first that leaves the front of the queue.
-/
def OldestNext (h : History) (limit : Nat) : Prop :=
  ∀ bank r rest, h.reorder.requestQueue bank = r :: rest →
    ∀ more, ∃ passes, (h.run more).passed = h.passed ++ passes ∧
      ∀ before after, passesOf bank passes = before ++ after →
        (∀ p ∈ before, p.place ≠ 0) →
        before.length ≤ limit - 1 ∧
        ∀ p others, after = p :: others → p.place = 0 → p.req = r

/-- A request waits for at most the limit of passes for each request up to it. -/
def TurnComes (h : History) (limit : Nat) : Prop :=
  ∀ bank place r, (h.reorder.requestQueue bank)[place]? = some r →
    ∀ more, ∃ passes, (h.run more).passed = h.passed ++ passes ∧
      ∀ before after, passesOf bank passes = before ++ after →
        ∀ place', placeAfter place before = some place' →
          before.length < (place + 1) * limit ∧
          ∀ p others, after = p :: others → p.place = place' → p.req = r

/--
A waiting request is passed on once a backend that is free or busy for whole
cycles was free in so many of them as all passes it waits for need turns.
-/
def PassedOn (h : History) (limit : Nat) : Prop :=
  ∀ bank place r, (h.reorder.requestQueue bank)[place]? = some r →
    ∀ more, (∀ op ∈ more, op.Steady) →
      (place + 1) * limit * h.reorder.banks ≤ more.countP Op.takes →
      ∃ passes, (h.run more).passed = h.passed ++ passes ∧ PassesOn bank place r passes

variable {h : History} {k : ReorderConfig}

theorem rowsInOrder_of_inv (hinv : h.Inv k) : RowsInOrder h := by
  unfold RowsInOrder
  rw [hinv.config]
  exact hinv.ordered

theorem turnComes_of_inv (hinv : h.Inv k) : TurnComes h k.maxReqsPerRow := by
  intro bank place r hr more
  obtain ⟨turns, hturns⟩ := exists_turns_run h more
  obtain ⟨passes, hpasses, hwaits⟩ := hinv.waits hr turns
  refine ⟨passes, by rw [hturns, hpasses], ?_⟩
  intro before after hsplit place' hplace'
  obtain ⟨hbound, hturn⟩ := hwaits before after hsplit place' hplace'
  have hcount := (hinv.counts bank).1
  refine ⟨?_, hturn⟩
  rw [add_mul, one_mul]
  omega

theorem passedOn_of_inv (hinv : h.Inv k) : PassedOn h k.maxReqsPerRow := by
  intro bank place r hr more hsteady hcount
  obtain ⟨turnsLeft, hlt, hnear⟩ := hinv.near hr
  obtain ⟨passes, hpasses, hpass | hle⟩ := hinv.run_near hnear hsteady
  · exact ⟨passes, hpasses, hpass⟩
  · rw [hinv.config] at hcount
    omega

theorem placeAfter_zero {before : List Pass} (hbefore : ∀ p ∈ before, p.place ≠ 0) :
    placeAfter 0 before = some 0 := by
  induction before with
  | nil =>
    rfl
  | cons p before ih =>
    rw [placeAfter, if_neg (hbefore p mem_cons_self), if_neg (Nat.not_lt_zero _)]
    exact ih fun q hq => hbefore q (mem_cons_of_mem _ hq)

theorem TurnComes.oldestNext {limit : Nat} (hturn : TurnComes h limit) : OldestNext h limit := by
  intro bank r rest hqueue more
  obtain ⟨passes, hpasses, hwaits⟩ := hturn bank 0 r (by rw [hqueue, getElem?_cons_zero]) more
  refine ⟨passes, hpasses, ?_⟩
  intro before after hsplit hbefore
  obtain ⟨hbound, hnext⟩ := hwaits before after hsplit 0 (placeAfter_zero hbefore)
  exact ⟨by omega, hnext⟩

/--
In every run and for every answers of the backend, the requests of a row keep
their order, none is lost or passed on twice, and the reordering is bounded; and
every request is passed on if the backend is free often enough.
-/
theorem reorders_fairly {name : String} {params : Params} {m : RequestReorderRow}
    (hm : RequestReorderRow.new name params = .ok m)
    (ops : List Op) :
    RowsInOrder ((start m).run ops) ∧
      OldestNext ((start m).run ops) params.reorder_limit.toNat ∧
      TurnComes ((start m).run ops) (limitOf params.reorder_limit) ∧
      PassedOn ((start m).run ops) (limitOf params.reorder_limit) := by
  obtain ⟨hinv, hlimit⟩ := inv_start hm
  have hinv' := hinv.run ops
  have hcomes := turnComes_of_inv hinv'
  rw [hlimit] at hcomes
  refine ⟨rowsInOrder_of_inv hinv', ?_, hcomes, hlimit ▸ passedOn_of_inv hinv'⟩
  have hnext := hcomes.oldestNext
  unfold limitOf at hnext
  split at hnext
  next hzero =>
      rw [hzero, UInt32.toNat_zero]
      exact hnext
  next => exact hnext

/-- The default parameters with a limit of four. -/
def defaultParams : Params := ⟨-1, 8, ⟨"8KiB", true, 8192⟩, 4, ⟨"64B", true, 64⟩⟩

theorem reorders_fairly_default :
    ∃ m, RequestReorderRow.new "reorder" defaultParams = .ok m ∧
      ∀ ops, RowsInOrder ((start m).run ops) ∧ OldestNext ((start m).run ops) 4 ∧
        PassedOn ((start m).run ops) 4 := by
  obtain ⟨m, hm⟩ : ∃ m, RequestReorderRow.new "reorder" defaultParams = .ok m := ⟨_, rfl⟩
  refine ⟨m, hm, fun ops => ?_⟩
  obtain ⟨hrows, hnext, -, hpassed⟩ := reorders_fairly hm ops
  exact ⟨hrows, hnext, hpassed⟩

end Main

end RequestReorderRow
end SstElements.MemHierarchy
