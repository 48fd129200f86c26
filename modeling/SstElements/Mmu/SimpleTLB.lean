import SstElements.Library.History
import SstElements.Library.OrderedContainer
import SstElements.Library.Transition

/-!
# The translation lookaside buffer

Requests of hardware threads are answered from the entries of the thread, or wait by page
for a fill from the memory management unit.  Answers go over a self link and are delivered
when they are due.
-/

namespace SstElements.Mmu

open Library Function

def checkPerms (wantPerms havePerms : Nat) : Bool :=
  (!wantPerms.testBit 0 || havePerms.testBit 0) &&
    (!wantPerms.testBit 1 || havePerms.testBit 1) &&
      (!wantPerms.testBit 2 || havePerms.testBit 2)

structure PTE where
  perms : Nat
  ppn : Nat
  perms_lt : perms < 2 ^ 3
  ppn_lt : ppn < 2 ^ 29
  deriving DecidableEq

/-- What the constructor and the initialization accept. -/
structure Config where
  tlbSize : Nat
  tlbSetSize : Nat
  hitLatency : Nat
  minVirtAddr : Nat
  maxVirtAddr : Nat
  pageShift : Nat
  tlbSize_pos : 0 < tlbSize
  tlbSetSize_pos : 0 < tlbSetSize
  pageShift_lt : pageShift < 31

namespace Config

variable (cfg : Config)

def tlbIndexShift : Nat := Nat.log2 cfg.tlbSize

def vpn (virtAddr : Nat) : Nat := virtAddr >>> cfg.pageShift

def blockOffset (addr : Nat) : Nat := addr &&& (2 ^ cfg.pageShift - 1)

def tag (vpn : Nat) : Nat := vpn >>> cfg.tlbIndexShift

def index (vpn : Nat) : Nat := vpn &&& (cfg.tlbSize - 1)

def physAddr (ppn virtAddr : Nat) : Nat := ppn <<< cfg.pageShift ||| cfg.blockOffset virtAddr

end Config

/-- A request that has been accepted; its address in memory is the number of the request. -/
structure TlbRecord where
  id : Nat
  reqId : Nat
  hwThreadId : Nat
  virtAddr : Nat
  perms : Nat
  instPtr : Nat
  deriving DecidableEq

/-- A valid entry. -/
structure TlbEntry where
  tag : Nat
  ppn : Nat
  perms : Nat

/-- The bit fields cut what is stored. -/
def TlbEntry.init (tag ppn perms : Nat) : TlbEntry where
  tag := tag % 2 ^ 52
  ppn := ppn % 2 ^ 52
  perms := perms % 2 ^ 3

abbrev TlbSet := List (Option TlbEntry)

def findTlbEntry (cfg : Config) (set : TlbSet) (vpn : Nat) : Option TlbEntry :=
  set.findSome? fun slot => slot.filter fun entry => cfg.tag vpn = entry.tag

/-- An entry with the tag is replaced, or else the victim; `none` is the failed assertion
on the page number. -/
def fillTlbEntry (cfg : Config) (set : TlbSet) (vpn : Nat) (pte : PTE) (victim : Nat) :
    Option TlbSet :=
  let entry := TlbEntry.init (cfg.tag vpn) pte.ppn pte.perms
  match set.findIdx? fun slot => slot.any fun entry => cfg.tag vpn = entry.tag with
  | some i => some (set.set i (some entry))
  | none => if vpn = 0 then none else some (set.set victim (some entry))

/-- An answer: no address is the failure. -/
structure SelfEvent where
  record : TlbRecord
  addr : Option Nat

/-- What happens at the buffer.  A request is answered when its answer is sent on the self
link, and the answer is delivered when it is due. -/
inductive TlbEvent
  | requested (record : TlbRecord)
  | filled (record : TlbRecord) (pte : Option PTE)
  | flushed (hwThread : Nat)
  | sent (record : TlbRecord) (addr : Option Nat)
  | delivered (record : TlbRecord) (addr : Option Nat)
  deriving DecidableEq

/-- The buffer with the misses that the memory management unit has not answered, and the
answers on the self link with the times when they are due. -/
structure SimpleTLB where
  tlbData : Nat → Nat → TlbSet
  waitingMiss : Nat → OrderedMap Nat (List TlbRecord)
  misses : List TlbRecord
  selfLink : List (Nat × SelfEvent)
  now : Nat
  issued : Nat
  failed : Bool
  history : List TlbEvent

namespace SimpleTLB

def initial (cfg : Config) : SimpleTLB where
  tlbData _ _ := List.replicate cfg.tlbSetSize none
  waitingMiss _ := .empty
  misses := []
  selfLink := []
  now := 0
  issued := 0
  failed := false
  history := []

def note (tlb : SimpleTLB) (event : TlbEvent) : SimpleTLB :=
  { tlb with history := tlb.history ++ [event] }

def send (tlb : SimpleTLB) (delay : Nat) (record : TlbRecord) (addr : Option Nat) : SimpleTLB :=
  { tlb with selfLink := tlb.selfLink ++ [(tlb.now + delay, SelfEvent.mk record addr)] }.note
    (.sent record addr)

def sendAll (tlb : SimpleTLB) (answers : List (TlbRecord × Option Nat)) : SimpleTLB :=
  answers.foldl (fun tlb answer => tlb.send 0 answer.1 answer.2) tlb

def setWaiting
    (tlb : SimpleTLB) (hwThread : Nat) (waiting : OrderedMap Nat (List TlbRecord)) :
    SimpleTLB :=
  { tlb with waitingMiss := update tlb.waitingMiss hwThread waiting }

/-- Wait for the page; the first one sends the miss. -/
def miss (cfg : Config) (tlb : SimpleTLB) (record : TlbRecord) : SimpleTLB :=
  let vpn := cfg.vpn record.virtAddr
  let waiting := tlb.waitingMiss record.hwThreadId
  let sent :=
    if waiting.find? vpn = none then { tlb with misses := tlb.misses ++ [record] } else tlb
  sent.setWaiting record.hwThreadId
    (waiting.insert vpn ((waiting.find? vpn).getD [] ++ [record]))

def OutOfRange (cfg : Config) (virtAddr : Nat) : Prop :=
  virtAddr < cfg.minVirtAddr ∨ cfg.maxVirtAddr < virtAddr
deriving Decidable

/-- The entry that answers a request at once. -/
def hit (cfg : Config) (tlb : SimpleTLB) (hwThreadId virtAddr perms : Nat) : Option TlbEntry :=
  let vpn := cfg.vpn virtAddr
  (findTlbEntry cfg (tlb.tlbData hwThreadId (cfg.index vpn)) vpn).filter fun entry =>
    checkPerms perms entry.perms && ((tlb.waitingMiss hwThreadId).find? vpn).isNone

def getVirtToPhys
    (cfg : Config) (tlb : SimpleTLB)
    (reqId hwThreadId virtAddr perms instPtr : Nat) :
    SimpleTLB :=
  let record : TlbRecord := ⟨tlb.issued, reqId, hwThreadId, virtAddr, perms, instPtr⟩
  let accepted := { tlb with issued := tlb.issued + 1 }.note (.requested record)
  if OutOfRange cfg virtAddr then
    accepted.send cfg.hitLatency record none
  else
    match tlb.hit cfg hwThreadId virtAddr perms with
    | some entry =>
      accepted.send cfg.hitLatency record (some (cfg.physAddr entry.ppn virtAddr))
    | none => accepted.miss cfg record

/-- The waiting requests that a fill answers too, and those that keep waiting; `none` is
the failed assertion that there is an entry. -/
def drain (cfg : Config) (set : TlbSet) (vpn : Nat) (pte : Option PTE) :
    List TlbRecord → Option (List (TlbRecord × Option Nat) × List TlbRecord)
  | [] => some ([], [])
  | record :: rest =>
    match pte with
    | none =>
      (drain cfg set vpn pte rest).map fun (answers, waiting) =>
        ((record, none) :: answers, waiting)
    | some granted =>
      match findTlbEntry cfg set vpn with
      | none => none
      | some entry =>
        if checkPerms record.perms entry.perms then
          (drain cfg set vpn pte rest).map fun (answers, waiting) =>
            ((record, some (cfg.physAddr granted.ppn record.virtAddr)) :: answers, waiting)
        else
          some ([], record :: rest)

/-- The first waiting request is answered by the fill itself; where one of the others lacks
permissions, its miss is sent. -/
def answerFill
    (cfg : Config) (tlb : SimpleTLB) (record : TlbRecord) (pte : Option PTE) :
    Option SimpleTLB :=
  let vpn := cfg.vpn record.virtAddr
  let waiting := tlb.waitingMiss record.hwThreadId
  let set := tlb.tlbData record.hwThreadId (cfg.index vpn)
  (drain cfg set vpn pte ((waiting.find? vpn).getD []).tail).map fun (answers, rest) =>
    let first := (record, pte.map fun granted => cfg.physAddr granted.ppn record.virtAddr)
    let answered := tlb.sendAll (first :: answers)
    match rest with
    | [] => answered.setWaiting record.hwThreadId (waiting.erase vpn)
    | next :: _ =>
      { answered with misses := answered.misses ++ [next] }.setWaiting record.hwThreadId
        (waiting.insert vpn rest)

def setEntries (tlb : SimpleTLB) (hwThread index : Nat) (set : TlbSet) : SimpleTLB :=
  { tlb with
    tlbData := update tlb.tlbData hwThread
      (update (tlb.tlbData hwThread) index set) }

/-- A fill for the record; after a failed assertion nothing happens any more. -/
def handleFill
    (cfg : Config) (tlb : SimpleTLB) (record : TlbRecord) (pte : Option PTE) (random : Nat) :
    SimpleTLB :=
  let vpn := cfg.vpn record.virtAddr
  let received := tlb.note (.filled record pte)
  let filled : Option SimpleTLB :=
    match pte with
    | none => some received
    | some granted =>
      (fillTlbEntry cfg (tlb.tlbData record.hwThreadId (cfg.index vpn)) vpn granted
        (random % cfg.tlbSetSize)).map (received.setEntries record.hwThreadId (cfg.index vpn))
  match filled.bind fun tlb => tlb.answerFill cfg record pte with
  | some tlb => tlb
  | none => { received with failed := true }

def flushThread (tlb : SimpleTLB) (hwThread : Nat) : SimpleTLB :=
  { tlb with
    tlbData := update tlb.tlbData hwThread
      fun index => (tlb.tlbData hwThread index).map fun _ => none }.note (.flushed hwThread)

end SimpleTLB

/-- What can happen: a request, the fill for one of the misses, a flush, the delivery of an
answer that is due, and the passing of time. -/
inductive TlbOp
  | request (reqId hwThreadId virtAddr perms instPtr : Nat)
  | fill (i : Nat) (pte : Option PTE) (random : Nat)
  | flush (hwThread : Nat)
  | deliver
  | advance

namespace SimpleTLB

def step (cfg : Config) (tlb : SimpleTLB) (op : TlbOp) : Option SimpleTLB :=
  if tlb.failed then
    none
  else
    match op with
    | .request reqId hwThreadId virtAddr perms instPtr =>
      some (tlb.getVirtToPhys cfg reqId hwThreadId virtAddr perms instPtr)
    | .fill i pte random =>
      tlb.misses[i]?.map fun record =>
        { tlb with misses := tlb.misses.eraseIdx i }.handleFill cfg record pte random
    | .flush hwThread => some (tlb.flushThread hwThread)
    | .deliver =>
      (tlb.selfLink.find? fun pending => pending.1 ≤ tlb.now).map fun pending =>
        { tlb with
          selfLink := tlb.selfLink.eraseP fun pending => pending.1 ≤ tlb.now }.note
          (.delivered pending.2.record pending.2.addr)
    | .advance =>
      if ∀ pending ∈ tlb.selfLink, tlb.now < pending.1 then
        some { tlb with now := tlb.now + 1 }
      else
        none

def requests (history : List TlbEvent) : List TlbRecord :=
  history.filterMap fun
    | .requested record => some record
    | _ => none

def deliveries (history : List TlbEvent) : List TlbRecord :=
  history.filterMap fun
    | .delivered record _ => some record
    | _ => none

def pending (tlb : SimpleTLB) : List TlbRecord := tlb.selfLink.map fun p => p.2.record

/-- The requests of a thread that wait for a page. -/
def queue (tlb : SimpleTLB) (hwThread vpn : Nat) : List TlbRecord :=
  ((tlb.waitingMiss hwThread).find? vpn).getD []

def OfPage (cfg : Config) (hwThread vpn : Nat) (record : TlbRecord) : Prop :=
  record.hwThreadId = hwThread ∧ cfg.vpn record.virtAddr = vpn
deriving Decidable

/-- The fill for the page was received, and the thread has not been flushed since. -/
def LiveFill
    (cfg : Config) (history : List TlbEvent) (hwThread vpn : Nat)
    (record : TlbRecord) (pte : PTE) : Prop :=
  OfPage cfg hwThread vpn record ∧
    ∃ before after, history = before ++ .filled record (some pte) :: after ∧
      .flushed hwThread ∉ after

/-- The address is that of a live fill, whose permissions cover the request unless the
fill is for its own miss. -/
def Granted (cfg : Config) (history : List TlbEvent) (record : TlbRecord) (addr : Nat) : Prop :=
  ∃ filled pte,
    LiveFill cfg history record.hwThreadId (cfg.vpn record.virtAddr) filled pte ∧
      addr = pte.ppn * 2 ^ cfg.pageShift + record.virtAddr % 2 ^ cfg.pageShift ∧
      (checkPerms record.perms pte.perms ∨ filled = record)

/-- The buffer translates soundly, answers each request once and in order, and no request
waits without a miss. -/
structure Sound (cfg : Config) (tlb : SimpleTLB) : Prop where
  running : tlb.failed = false
  numbered : (requests tlb.history).map TlbRecord.id = List.range tlb.issued
  once : ∀ record, (deliveries tlb.history).count record + tlb.pending.count record +
      (tlb.queue record.hwThreadId (cfg.vpn record.virtAddr)).count record =
    (requests tlb.history).count record
  settled : tlb.misses = [] → tlb.selfLink = [] →
    ∀ record ∈ requests tlb.history, (deliveries tlb.history).count record = 1
  translated : EachAfter (fun past event => ∀ record addr, event = .sent record (some addr) →
    Granted cfg past record addr) tlb.history
  ordered : EachAfter (fun past event => ∀ record addr, event = .delivered record addr →
    ∀ earlier ∈ requests past,
      OfPage cfg record.hwThreadId (cfg.vpn record.virtAddr) earlier →
      earlier.id < record.id → earlier ∈ deliveries past) tlb.history
  outstanding : ∀ hwThread vpn waiting, (tlb.waitingMiss hwThread).find? vpn = some waiting →
    ∃ record rest, waiting = record :: rest ∧
      tlb.misses.filter (OfPage cfg hwThread vpn) = [record]

/-- The records of the fills that a thread has received since its last flush. -/
def liveFills (history : List TlbEvent) (hwThread : Nat) : List TlbRecord :=
  (history.reverse.takeWhile fun event => event ≠ .flushed hwThread).filterMap fun
    | .filled record (some _) => if record.hwThreadId = hwThread then some record else none
    | _ => none

/-- An entry that was filled for a page does not look like one for another page: its set and
its tag give the page back, or there is no other page. -/
def TellsApart (cfg : Config) (filled vpn : Nat) : Prop :=
  cfg.index filled = cfg.index vpn → cfg.tag filled % 2 ^ 52 = cfg.tag vpn →
    cfg.tlbSize = 2 ^ cfg.tlbIndexShift ∧ cfg.tag filled < 2 ^ 52 ∨ filled = vpn
deriving Decidable

/-- A request out of range has none of its page before it in the queue, and what looks like an
entry for the page of a hit is one.  A fill comes when the answers to its page on the self link
are due; it does not bring an entry for page zero; the tag of a page for which several wait fits
the entry. -/
def Regular (cfg : Config) (tlb : SimpleTLB) : TlbOp → Prop
  | .request _ hwThreadId virtAddr perms _ =>
    (OutOfRange cfg virtAddr → (tlb.waitingMiss hwThreadId).find? (cfg.vpn virtAddr) = none) ∧
    (¬OutOfRange cfg virtAddr → (tlb.hit cfg hwThreadId virtAddr perms).isSome →
      ∀ filled ∈ liveFills tlb.history hwThreadId,
        TellsApart cfg (cfg.vpn filled.virtAddr) (cfg.vpn virtAddr))
  | .fill i pte _ => ∀ record ∈ tlb.misses[i]?,
      (∀ p ∈ tlb.selfLink, OfPage cfg record.hwThreadId (cfg.vpn record.virtAddr) p.2.record →
        p.1 ≤ tlb.now) ∧
      (pte.isSome →
        (cfg.vpn record.virtAddr ≠ 0 ∨
          (findTlbEntry cfg (tlb.tlbData record.hwThreadId (cfg.index 0)) 0).isSome) ∧
        (cfg.tag (cfg.vpn record.virtAddr) < 2 ^ 52 ∨
          tlb.queue record.hwThreadId (cfg.vpn record.virtAddr) = [record]))
  | .flush _ | .deliver | .advance => True

instance instDecidableRegular (cfg : Config) (tlb : SimpleTLB) :
    ∀ op, Decidable (tlb.Regular cfg op)
  | .request _ _ _ _ _ => inferInstanceAs (Decidable (_ ∧ _))
  | .fill i _ _ =>
    match h : tlb.misses[i]? with
    | none => isTrue fun record hmem => by simp [h] at hmem
    | some record =>
      decidable_of_iff (_ ∧ _)
        ⟨fun hrecord record' hmem => Option.some.inj (h.symm.trans hmem) ▸ hrecord,
          fun hall => hall record h⟩
  | .flush _ | .deliver | .advance => isTrue trivial

end SimpleTLB

end SstElements.Mmu
