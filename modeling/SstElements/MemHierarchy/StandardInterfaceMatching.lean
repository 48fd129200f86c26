import SstElements.Library.Transition
import SstElements.MemHierarchy.StandardInterface

/-!
# Matching of requests and responses at the standard interface

`InterfaceRun` puts an interface next to the memory system: the events that
the memory system has to answer, and the record of what the endpoint was given.
The memory system answers or NACKs each of these events at any time; the
endpoint sends requests, and both sides exchange requests and replies in the
other direction.

`Matched` is what the protocol promises of a state.  `step_matched_iff` is the
step lemma: a step keeps the promise exactly if it is not a NACK.
-/

namespace SstElements.MemHierarchy

open Library List Option Nat

/-- One response given to the endpoint. -/
structure Answered where
  id : Nat
  delivery : Delivery
  onNack : Bool
deriving DecidableEq, Repr

/-- An interface, the events the memory system has to answer, and history. -/
structure InterfaceRun where
  iface : StandardInterface
  inFlight : OrderedMap Nat MemEvent
  sent : List (Nat × Request)
  answered : List Answered

/-- What can happen at an interface. -/
inductive InterfaceOp where
  | send (req : Request)
  | answer (id : Nat) (response : MemEvent)
  | nack (id : Nat)
  | incoming (event : MemEvent)
  | reply (r : Reply)
deriving Repr

def Command.requestKind : Command → Option ResponseKind
  | .GetS | .GetSX => some .read
  | .Write => some .write
  | .FlushLine | .FlushLineInv => some .flush
  | .Put | .Get => some .move
  | .CustomReq => some .custom
  | _ => none

/--
A response that the memory system may give: it names the event and has the
response command; a read may also be answered with a GetXResp.
-/
def MemEvent.AnswersTo (response e : MemEvent) : Prop :=
  response.responseToID_ = some e.eventID_ ∧
    response.cmd_.isResponse = true ∧
    (response.cmd_ = e.cmd_.response ∨
      (e.cmd_ = .GetS ∨ e.cmd_ = .GetSX) ∧ response.cmd_ = .GetXResp)
deriving Decidable

namespace InterfaceRun

open StandardInterface

def record (s : InterfaceRun) (id : Nat) (onNack : Bool)
    (outcome : Outcome × StandardInterface) : InterfaceRun :=
  match outcome.1 with
  | .deliver d =>
    { s with
      iface := outcome.2
      inFlight := s.inFlight.erase id
      answered := s.answered ++ [⟨id, d, onNack⟩] }
  | .resend e =>
    { s with
      iface := outcome.2
      inFlight := (s.inFlight.erase id).insert e.eventID_ e }
  | .request _ => { s with iface := outcome.2 }

def step (s : InterfaceRun) : InterfaceOp → Option InterfaceRun
  | .send req =>
    (s.iface.send req).map (fun r =>
      if s.iface.needsResponse req.body then
        { s with
          iface := r.2
          inFlight := s.inFlight.insert r.1.eventID_ r.1
          sent := s.sent ++ [(r.1.eventID_, req)] }
      else { s with iface := r.2 })
  | .answer id response =>
    match s.inFlight.find? id with
    | none => none
    | some e =>
      if response.AnswersTo e then
        (s.iface.receive response e).map (s.record id false)
      else none
  | .nack id =>
    match s.inFlight.find? id with
    | none => none
    | some e =>
      (s.iface.receive e.makeNACKResponse e).map (s.record id true)
  | .incoming event =>
    if event.cmd_.isResponse then none
    else (s.iface.receive event event).map
      (fun r => { s with iface := r.2 })
  | .reply r =>
    (s.iface.sendReply r).map (fun r => { s with iface := r.2 })

/-- Nothing sent yet. -/
def Initial (s : InterfaceRun) : Prop :=
  s.iface.requests_ = OrderedMap.empty ∧ s.inFlight = OrderedMap.empty ∧
    s.sent = [] ∧ s.answered = []

/-- The responses given for an event. -/
def responsesTo (s : InterfaceRun) (id : Nat) : List Answered :=
  s.answered.filter (fun a => decide (a.id = id))

/--
What the protocol promises: the interface remembers exactly the outstanding
requests; a request has no response while it is outstanding and exactly one
afterwards, of its kind and not on a NACK; and every response that the memory
system may give is accepted.
-/
structure Matched (s : InterfaceRun) : Prop where
  remembers : ∀ id,
    (s.iface.requests_.find? id).isSome = (s.inFlight.find? id).isSome
  entry : ∀ id req cmd, s.iface.requests_.find? id = some (req, cmd) →
    (id, req) ∈ s.sent
  outstanding : ∀ id, (s.inFlight.find? id).isSome = true →
    s.responsesTo id = []
  responded : ∀ id req, (id, req) ∈ s.sent → s.inFlight.find? id = none →
    ∃ a, s.responsesTo id = [a] ∧ a.delivery.request = req ∧
      a.delivery.kind = req.body.kind ∧ a.onNack = false
  only_sent : ∀ a ∈ s.answered, ∃ req, (a.id, req) ∈ s.sent
  accepts : ∀ id e response, s.inFlight.find? id = some e →
    response.AnswersTo e → (s.iface.receive response e).isSome = true

/-- What ties events, requests and identifiers together, NACK or not. -/
structure Coherent (s : InterfaceRun) : Prop where
  fresh_inFlight : ∀ id e, s.inFlight.find? id = some e →
    e.eventID_ = id ∧ id < s.iface.nextEvent
  fresh_requests : ∀ id, (s.iface.requests_.find? id).isSome = true →
    id < s.iface.nextEvent
  fresh_sent : ∀ id req, (id, req) ∈ s.sent → id < s.iface.nextEvent
  sent_unique : ∀ id req req', (id, req) ∈ s.sent → (id, req') ∈ s.sent →
    req = req'
  fresh_answered : ∀ a ∈ s.answered, a.id < s.iface.nextEvent
  command : ∀ id req cmd e, s.iface.requests_.find? id = some (req, cmd) →
    s.inFlight.find? id = some e → cmd = e.cmd_
  kind : ∀ id req cmd, s.iface.requests_.find? id = some (req, cmd) →
    cmd.requestKind = some req.body.kind

section Receive

variable {iface : StandardInterface}
variable {e response nackedEvent : MemEvent} {req : Request}

theorem convert_spec {body : RequestBody} (h : iface.convert body = some e) :
    e.eventID_ = iface.nextEvent ∧ e.cmd_.requestKind = some body.kind := by
  have hdata : ∀ (e : MemEvent) size data,
      (withData e size data).eventID_ = e.eventID_ ∧
        (withData e size data).cmd_ = e.cmd_ := by
    intro e size data
    simp only [withData]
    split <;> exact ⟨rfl, rfl⟩
  cases body with
  | read base =>
    cases h
    exact ⟨rfl, rfl⟩
  | write base data posted =>
    cases h
    rw [(hdata _ _ _).1, (hdata _ _ _).2]
    cases posted <;> exact ⟨rfl, rfl⟩
  | flushAddr base inv =>
    cases h
    cases inv <;> exact ⟨rfl, rfl⟩
  | readLock base =>
    cases h
    exact ⟨rfl, rfl⟩
  | writeUnlock base data posted =>
    cases h
    rw [(hdata _ _ _).1, (hdata _ _ _).2]
    exact ⟨rfl, rfl⟩
  | loadLink base =>
    cases h
    exact ⟨rfl, rfl⟩
  | storeConditional base data =>
    cases h
    rw [(hdata _ _ _).1, (hdata _ _ _).2]
    exact ⟨rfl, rfl⟩
  | moveData pSrc vSrc pDst vDst size iPtr posted =>
    cases h
    refine ⟨rfl, ?_⟩
    split <;> rfl
  | customReq data =>
    cases h
    exact ⟨rfl, rfl⟩
  | invNotify base =>
    cases h

section

variable (hfind : iface.requests_.find? e.eventID_ = some (req, e.cmd_))
include hfind

theorem receive_answer {k : ResponseKind} (hkind : e.cmd_.requestKind = some k)
    (hanswer : response.AnswersTo e) :
    ∃ d, iface.receive response nackedEvent = some (.deliver d,
        { iface with requests_ := iface.requests_.erase e.eventID_ }) ∧
      d.request = req ∧ d.kind = k := by
  obtain ⟨hid, hresponse, hcmd⟩ := hanswer
  simp only [receive, hresponse, if_true, receiveResponse, hid, hfind]
  cases hc : e.cmd_ <;>
    simp_all [Command.requestKind, Command.response, convertResponse]

theorem receive_nack :
    ∃ outcome, iface.receive e.makeNACKResponse e = some (outcome,
        { iface with requests_ := iface.requests_.erase e.eventID_ }) ∧
      ((∃ d, outcome = .deliver d) ∨ outcome = .resend e.incrementRetries) := by
  have hid : e.makeNACKResponse.responseToID_ = some e.eventID_ := rfl
  have hcmd : e.makeNACKResponse.cmd_ = .NACK := rfl
  simp only [receive, receiveResponse, hid, hfind, hcmd, Command.isResponse, if_true]
  by_cases hread : (e.cmd_ = .GetS || e.cmd_ = .GetSX) = true
  · simp only [hread, if_true]
    exact ⟨_, rfl, .inl ⟨_, rfl⟩⟩
  · simp only [hread]
    exact ⟨_, rfl, .inr rfl⟩

end

theorem receive_unknown (hfind : iface.requests_.find? e.eventID_ = none)
    (hid : response.responseToID_ = some e.eventID_) (hresponse : response.cmd_.isResponse = true) :
    iface.receive response nackedEvent = none := by
  simp [receive, hresponse, receiveResponse, hid, hfind]

theorem receive_request {me : MemEvent} {r : Outcome × StandardInterface}
    (hcmd : me.cmd_.isResponse = false) (h : iface.receive me nackedEvent = some r) :
    r.2.requests_ = iface.requests_ ∧ r.2.nextEvent = iface.nextEvent := by
  simp only [receive, hcmd, Bool.false_eq_true, if_false, receiveRequest, map_eq_some_iff] at h
  obtain ⟨body, -, rfl⟩ := h
  exact ⟨rfl, rfl⟩

theorem sendReply_requests {reply : Reply} {r : MemEvent × StandardInterface}
    (h : iface.sendReply reply = some r) :
    r.2.requests_ = iface.requests_ ∧ r.2.nextEvent = iface.nextEvent := by
  cases reply with
  | readResp id data success =>
    simp only [sendReply] at h
    cases hfind : iface.responses_.find? id with
    | none =>
      simp [hfind] at h
    | some mereq =>
      simp only [hfind, Option.some.injEq] at h
      subst h
      exact ⟨rfl, rfl⟩
  | writeResp id success =>
    simp only [sendReply] at h
    cases hfind : iface.responses_.find? id with
    | none =>
      simp [hfind] at h
    | some mereq =>
      simp only [hfind, Option.some.injEq] at h
      subst h
      exact ⟨rfl, rfl⟩
  | flushResp =>
    cases h
  | customResp =>
    cases h

end Receive

section Step

variable {s t : InterfaceRun} {iface : StandardInterface}

theorem Coherent.congr (h : Coherent s) (hreq : iface.requests_ = s.iface.requests_)
    (hnext : iface.nextEvent = s.iface.nextEvent) :
    Coherent { s with iface := iface } := by
  refine ⟨?_, ?_, ?_, h.sent_unique, ?_, ?_, ?_⟩
  · intro id e he
    rw [hnext]
    exact h.fresh_inFlight id e he
  · intro id hid
    rw [hreq] at hid
    rw [hnext]
    exact h.fresh_requests id hid
  · intro id req hmem
    rw [hnext]
    exact h.fresh_sent id req hmem
  · intro a ha
    rw [hnext]
    exact h.fresh_answered a ha
  · intro id req cmd e hfind he
    rw [hreq] at hfind
    exact h.command id req cmd e hfind he
  · intro id req cmd hfind
    rw [hreq] at hfind
    exact h.kind id req cmd hfind

variable {id : Nat} {e response : MemEvent} {req : Request} {cmd : Command} {d : Delivery}

theorem accepts_of_coherent (h : Coherent s) (he : s.inFlight.find? id = some e)
    (hfind : s.iface.requests_.find? id = some (req, cmd)) (hanswer : response.AnswersTo e)
    (nackedEvent : MemEvent) :
    ∃ d, s.iface.receive response nackedEvent = some (.deliver d,
        { s.iface with requests_ := s.iface.requests_.erase id }) ∧
      d.request = req ∧ d.kind = req.body.kind := by
  have hcmd := h.command id req cmd e hfind he
  have hkind := h.kind id req cmd hfind
  have hid := (h.fresh_inFlight id e he).1
  subst hcmd
  subst hid
  exact receive_answer hfind hkind hanswer

theorem Matched.of_coherent (h : Coherent s)
    (remembers : ∀ id, (s.iface.requests_.find? id).isSome = (s.inFlight.find? id).isSome)
    (entry : ∀ id req cmd, s.iface.requests_.find? id = some (req, cmd) → (id, req) ∈ s.sent)
    (outstanding : ∀ id, (s.inFlight.find? id).isSome = true → s.responsesTo id = [])
    (responded : ∀ id req, (id, req) ∈ s.sent → s.inFlight.find? id = none →
      ∃ a, s.responsesTo id = [a] ∧ a.delivery.request = req ∧
        a.delivery.kind = req.body.kind ∧ a.onNack = false)
    (only_sent : ∀ a ∈ s.answered, ∃ req, (a.id, req) ∈ s.sent) :
    Matched s := by
  refine ⟨remembers, entry, outstanding, responded, only_sent, ?_⟩
  intro id e response he hanswer
  have hsome := remembers id
  rw [he] at hsome
  obtain ⟨⟨req, cmd⟩, hfind⟩ := isSome_iff_exists.1 hsome
  obtain ⟨d, hd, -, -⟩ := accepts_of_coherent h he hfind hanswer e
  rw [hd]
  rfl

theorem Matched.congr (hc : Coherent { s with iface := iface }) (h : Matched s)
    (hreq : iface.requests_ = s.iface.requests_) :
    Matched { s with iface := iface } := by
  refine Matched.of_coherent hc ?_ ?_ h.outstanding h.responded h.only_sent
  · intro id
    rw [hreq]
    exact h.remembers id
  · intro id req cmd hfind
    rw [hreq] at hfind
    exact h.entry id req cmd hfind

/-- The state after a request that needs a response. -/
def afterSend (s : InterfaceRun) (e : MemEvent) (req : Request) : InterfaceRun :=
  { s with
    iface := { s.iface with
      nextEvent := s.iface.nextEvent + 1
      requests_ := s.iface.requests_.insert e.eventID_ (req, e.cmd_) }
    inFlight := s.inFlight.insert e.eventID_ e
    sent := s.sent ++ [(e.eventID_, req)] }

theorem send_cases (h : s.step (.send req) = some t) :
    ∃ e, s.iface.convert req.body = some e ∧ (t = s.afterSend e req ∨
        t = { s with iface := { s.iface with nextEvent := s.iface.nextEvent + 1 } }) := by
  obtain ⟨⟨e, iface⟩, hsend, rfl⟩ := map_eq_some_iff.1 h
  obtain ⟨e', hconv, heq⟩ := map_eq_some_iff.1 hsend
  obtain ⟨rfl, rfl⟩ := Prod.mk.inj heq
  refine ⟨e', hconv, ?_⟩
  cases hneeds : s.iface.needsResponse req.body with
  | true =>
    left
    simp [afterSend]
  | false =>
    right
    simp

theorem Coherent.afterSend (h : Coherent s) (hconv : s.iface.convert req.body = some e) :
    Coherent (s.afterSend e req) := by
  obtain ⟨hid, hkind⟩ := convert_spec hconv
  refine ⟨?_, ?_, ?_, ?_, ?_, ?_, ?_⟩
  · intro id e' he'
    simp only [InterfaceRun.afterSend, OrderedMap.find?_insert] at he' ⊢
    split at he'
    · rename_i heq
      cases he'
      exact ⟨heq.symm, by omega⟩
    · have := h.fresh_inFlight id e' he'
      exact ⟨this.1, by omega⟩
  · intro id hfind
    simp only [InterfaceRun.afterSend, OrderedMap.find?_insert] at hfind ⊢
    split at hfind
    · omega
    · have := h.fresh_requests id hfind
      omega
  · intro id req' hmem
    simp only [InterfaceRun.afterSend, mem_append, mem_singleton, Prod.mk.injEq] at hmem ⊢
    rcases hmem with hmem | ⟨rfl, -⟩
    · have := h.fresh_sent id req' hmem
      omega
    · omega
  · intro id r₁ r₂ h₁ h₂
    simp only [InterfaceRun.afterSend, mem_append, mem_singleton, Prod.mk.injEq] at h₁ h₂
    rcases h₁ with h₁ | ⟨rfl, rfl⟩
    · rcases h₂ with h₂ | ⟨rfl, rfl⟩
      · exact h.sent_unique id r₁ r₂ h₁ h₂
      · have := h.fresh_sent _ r₁ h₁
        omega
    · rcases h₂ with h₂ | ⟨-, rfl⟩
      · have := h.fresh_sent _ r₂ h₂
        omega
      · rfl
  · intro a ha
    have := h.fresh_answered a ha
    show a.id < s.iface.nextEvent + 1
    omega
  · intro id r cmd e' hfind he'
    simp only [InterfaceRun.afterSend, OrderedMap.find?_insert]
      at hfind he'
    split at hfind
    · rename_i heq
      rw [if_pos heq] at he'
      cases hfind
      cases he'
      rfl
    · rename_i hne
      rw [if_neg hne] at he'
      exact h.command id r cmd e' hfind he'
  · intro id r cmd hfind
    simp only [InterfaceRun.afterSend, OrderedMap.find?_insert] at hfind
    split at hfind
    · cases hfind
      exact hkind
    · exact h.kind id r cmd hfind

theorem Matched.afterSend (hc : Coherent s) (h : Matched s)
    (hconv : s.iface.convert req.body = some e) :
    Matched (s.afterSend e req) := by
  obtain ⟨hid, hkind⟩ := convert_spec hconv
  refine Matched.of_coherent (hc.afterSend hconv) ?_ ?_ ?_ ?_ ?_
  · intro id
    simp only [InterfaceRun.afterSend, OrderedMap.find?_insert]
    split
    · rfl
    · exact h.remembers id
  · intro id r cmd hfind
    simp only [InterfaceRun.afterSend, OrderedMap.find?_insert] at hfind ⊢
    split at hfind
    · rename_i heq
      cases hfind
      simp [heq]
    · exact mem_append_left _ (h.entry id r cmd hfind)
  · intro id hsome
    simp only [InterfaceRun.afterSend, OrderedMap.find?_insert] at hsome
    split at hsome
    · rename_i heq
      refine filter_eq_nil_iff.2 ?_
      intro a ha
      have := hc.fresh_answered a ha
      simp only [decide_eq_true_eq]
      omega
    · exact h.outstanding id hsome
  · intro id r hmem hnone
    simp only [InterfaceRun.afterSend, OrderedMap.find?_insert] at hnone
    split at hnone
    · cases hnone
    · rename_i hne
      simp only [InterfaceRun.afterSend, mem_append, mem_singleton, Prod.mk.injEq] at hmem
      rcases hmem with hmem | ⟨heq, -⟩
      · exact h.responded id r hmem hnone
      · exact absurd heq hne
  · intro a ha
    obtain ⟨r, hr⟩ := h.only_sent a ha
    exact ⟨r, mem_append_left _ hr⟩

/-- The state after a delivered response. -/
def afterDeliver (s : InterfaceRun) (id : Nat) (onNack : Bool) (d : Delivery) : InterfaceRun :=
  { s with
    iface := { s.iface with requests_ := s.iface.requests_.erase id }
    inFlight := s.inFlight.erase id
    answered := s.answered ++ [⟨id, d, onNack⟩] }

/-- The state after a resent event. -/
def afterResend (s : InterfaceRun) (id : Nat) (e : MemEvent) : InterfaceRun :=
  { s with
    iface := { s.iface with requests_ := s.iface.requests_.erase id }
    inFlight := (s.inFlight.erase id).insert id e }

theorem Coherent.afterDeliver {onNack : Bool} (h : Coherent s) (hid : id < s.iface.nextEvent) :
    Coherent (s.afterDeliver id onNack d) := by
  refine ⟨?_, ?_, h.fresh_sent, h.sent_unique, ?_, ?_, ?_⟩
  · intro id' e he
    simp only [InterfaceRun.afterDeliver, OrderedMap.find?_erase] at he
    split at he
    · cases he
    · exact h.fresh_inFlight id' e he
  · intro id' hfind
    simp only [InterfaceRun.afterDeliver, OrderedMap.find?_erase] at hfind
    split at hfind
    · cases hfind
    · exact h.fresh_requests id' hfind
  · intro a ha
    rcases mem_append.1 ha with ha | ha
    · exact h.fresh_answered a ha
    · rw [mem_singleton.1 ha]
      exact hid
  · intro id' r cmd e hfind he
    simp only [InterfaceRun.afterDeliver, OrderedMap.find?_erase]
      at hfind he
    split at hfind
    · cases hfind
    · rename_i hne
      rw [if_neg hne] at he
      exact h.command id' r cmd e hfind he
  · intro id' r cmd hfind
    simp only [InterfaceRun.afterDeliver, OrderedMap.find?_erase] at hfind
    split at hfind
    · cases hfind
    · exact h.kind id' r cmd hfind

theorem Coherent.afterResend
    (h : Coherent s) (hid : id < s.iface.nextEvent) (he : e.eventID_ = id) :
    Coherent (s.afterResend id e) := by
  refine ⟨?_, ?_, h.fresh_sent, h.sent_unique, h.fresh_answered, ?_, ?_⟩
  · intro id' e' he'
    simp only [InterfaceRun.afterResend, OrderedMap.find?_insert, OrderedMap.find?_erase] at he'
    split at he'
    · rename_i heq
      cases he'
      subst heq
      exact ⟨he, hid⟩
    · exact h.fresh_inFlight id' e' he'
  · intro id' hfind
    simp only [InterfaceRun.afterResend, OrderedMap.find?_erase] at hfind
    split at hfind
    · cases hfind
    · exact h.fresh_requests id' hfind
  · intro id' r cmd e' hfind he'
    simp only [InterfaceRun.afterResend, OrderedMap.find?_insert,
      OrderedMap.find?_erase] at hfind he'
    split at hfind
    · cases hfind
    · rename_i hne
      rw [if_neg hne, if_neg hne] at he'
      exact h.command id' r cmd e' hfind he'
  · intro id' r cmd hfind
    simp only [InterfaceRun.afterResend, OrderedMap.find?_erase] at hfind
    split at hfind
    · cases hfind
    · exact h.kind id' r cmd hfind

theorem Matched.afterDeliver (hc : Coherent s) (h : Matched s) (he : s.inFlight.find? id = some e)
    (hfind : s.iface.requests_.find? id = some (req, cmd))
    (hreq : d.request = req) (hkind : d.kind = req.body.kind) :
    Matched (s.afterDeliver id false d) := by
  have hid := (hc.fresh_inFlight id e he).2
  have hsent := h.entry id req cmd hfind
  refine Matched.of_coherent (hc.afterDeliver hid) ?_ ?_ ?_ ?_ ?_
  · intro id'
    simp only [InterfaceRun.afterDeliver, OrderedMap.find?_erase]
    split
    · rfl
    · exact h.remembers id'
  · intro id' r cmd' hfind'
    simp only [InterfaceRun.afterDeliver, OrderedMap.find?_erase] at hfind'
    split at hfind'
    · cases hfind'
    · exact h.entry id' r cmd' hfind'
  · intro id' hsome
    simp only [InterfaceRun.afterDeliver, OrderedMap.find?_erase] at hsome
    split at hsome
    · cases hsome
    · rename_i hne
      have hold := h.outstanding id' hsome
      simp only [responsesTo] at hold
      simp [responsesTo, InterfaceRun.afterDeliver, filter_append, hold, Ne.symm hne]
  · intro id' r hmem hnone
    simp only [InterfaceRun.afterDeliver, OrderedMap.find?_erase] at hnone
    by_cases heq : id' = id
    · subst heq
      have hold : s.responsesTo id' = [] := h.outstanding id' (by simp [he])
      simp only [responsesTo] at hold
      have hr : r = req := hc.sent_unique id' r req hmem hsent
      refine ⟨⟨id', d, false⟩, ?_, by simp [hr, hreq], by simp [hr, hkind], rfl⟩
      simp [responsesTo, InterfaceRun.afterDeliver, filter_append, hold]
    · rw [if_neg heq] at hnone
      obtain ⟨a, ha, hrest⟩ := h.responded id' r hmem hnone
      refine ⟨a, ?_, hrest⟩
      simp only [responsesTo] at ha
      simp [responsesTo, InterfaceRun.afterDeliver, filter_append, ha, Ne.symm heq]
  · intro a ha
    rcases mem_append.1 ha with ha | ha
    · exact h.only_sent a ha
    · rw [mem_singleton.1 ha]
      exact ⟨req, hsent⟩

theorem answer_cases (hc : Coherent s) (h : s.step (.answer id response) = some t) :
    ∃ e req cmd d, s.inFlight.find? id = some e ∧ s.iface.requests_.find? id = some (req, cmd) ∧
      d.request = req ∧ d.kind = req.body.kind ∧ t = s.afterDeliver id false d := by
  simp only [step] at h
  cases he : s.inFlight.find? id with
  | none =>
    simp [he] at h
  | some e =>
    simp only [he] at h
    split at h
    · rename_i hanswer
      cases hfind : s.iface.requests_.find? id with
      | none =>
        have hid := (hc.fresh_inFlight id e he).1
        rw [← hid] at hfind
        rw [receive_unknown hfind hanswer.1 hanswer.2.1] at h
        cases h
      | some entry =>
        obtain ⟨req, cmd⟩ := entry
        obtain ⟨d, hd, hreq, hkind⟩ := accepts_of_coherent hc he hfind hanswer e
        rw [hd] at h
        refine ⟨e, req, cmd, d, rfl, rfl, hreq, hkind, ?_⟩
        simpa [record, afterDeliver] using h.symm
    · cases h

theorem nack_cases (hc : Coherent s) (h : s.step (.nack id) = some t) :
    ∃ e req cmd, s.inFlight.find? id = some e ∧ s.iface.requests_.find? id = some (req, cmd) ∧
      ((∃ d, t = s.afterDeliver id true d) ∨ t = s.afterResend id e.incrementRetries) := by
  simp only [step] at h
  cases he : s.inFlight.find? id with
  | none =>
    simp [he] at h
  | some e =>
    simp only [he] at h
    have hid := (hc.fresh_inFlight id e he).1
    cases hfind : s.iface.requests_.find? id with
    | none =>
      rw [← hid] at hfind
      rw [receive_unknown hfind rfl rfl] at h
      cases h
    | some entry =>
      obtain ⟨req, cmd⟩ := entry
      have hcmd := hc.command id req cmd e hfind he
      have hfind' : s.iface.requests_.find? e.eventID_ =
          some (req, e.cmd_) := by
        rw [hid, hfind, hcmd]
      obtain ⟨outcome, hout, hcases⟩ := receive_nack hfind'
      rw [hout] at h
      refine ⟨e, req, cmd, rfl, rfl, ?_⟩
      rcases hcases with ⟨d, rfl⟩ | rfl
      · left
        refine ⟨d, ?_⟩
        simpa [record, afterDeliver, hid] using h.symm
      · right
        simpa [record, afterResend, hid, MemEvent.incrementRetries]
          using h.symm

theorem incoming_cases {op : InterfaceOp}
    (hop : (∃ event, op = .incoming event) ∨ ∃ r, op = .reply r) (h : s.step op = some t) :
    ∃ iface, t = { s with iface := iface } ∧
      iface.requests_ = s.iface.requests_ ∧
      iface.nextEvent = s.iface.nextEvent := by
  rcases hop with ⟨event, rfl⟩ | ⟨r, rfl⟩
  · simp only [step] at h
    split at h
    · cases h
    · rename_i hclass
      obtain ⟨r, hr, rfl⟩ := map_eq_some_iff.1 h
      obtain ⟨hreq, hnext⟩ := receive_request (by simpa using hclass) hr
      exact ⟨r.2, rfl, hreq, hnext⟩
  · obtain ⟨r', hr, rfl⟩ := map_eq_some_iff.1 h
    obtain ⟨hreq, hnext⟩ := sendReply_requests hr
    exact ⟨r'.2, rfl, hreq, hnext⟩

theorem Coherent.step {op : InterfaceOp} (hc : Coherent s) (h : s.step op = some t) :
    Coherent t := by
  cases op with
  | send req =>
    obtain ⟨e, hconv, rfl | rfl⟩ := send_cases h
    · exact hc.afterSend hconv
    · refine ⟨?_, ?_, ?_, hc.sent_unique, ?_, hc.command, hc.kind⟩
      · intro id e he
        exact ⟨(hc.fresh_inFlight id e he).1, lt_succ_of_lt (hc.fresh_inFlight id e he).2⟩
      · exact fun id hfind => lt_succ_of_lt (hc.fresh_requests id hfind)
      · exact fun id r hmem => lt_succ_of_lt (hc.fresh_sent id r hmem)
      · exact fun a ha => lt_succ_of_lt (hc.fresh_answered a ha)
  | answer id response =>
    obtain ⟨e, req, cmd, d, he, -, -, -, rfl⟩ := answer_cases hc h
    exact hc.afterDeliver (hc.fresh_inFlight id e he).2
  | nack id =>
    obtain ⟨e, req, cmd, he, -, ⟨d, rfl⟩ | rfl⟩ := nack_cases hc h
    · exact hc.afterDeliver (hc.fresh_inFlight id e he).2
    · obtain ⟨hid, hlt⟩ := hc.fresh_inFlight id e he
      exact hc.afterResend hlt hid
  | incoming event =>
    obtain ⟨iface, rfl, hreq, hnext⟩ := incoming_cases (.inl ⟨event, rfl⟩) h
    exact hc.congr hreq hnext
  | reply r =>
    obtain ⟨iface, rfl, hreq, hnext⟩ := incoming_cases (.inr ⟨r, rfl⟩) h
    exact hc.congr hreq hnext

end Step

end InterfaceRun

/-- The memory system refuses an event with a NACK. -/
def InterfaceOp.isNack : InterfaceOp → Bool
  | .nack _ => true
  | _ => false

namespace InterfaceRun

section Run

variable {s t : InterfaceRun}

theorem not_matched_nack (hc : Coherent s) (hm : Matched s) {id : Nat}
    (h : s.step (.nack id) = some t) :
    ¬ Matched t := by
  intro ht
  obtain ⟨e, req, cmd, he, hfind, ⟨d, rfl⟩ | rfl⟩ := nack_cases hc h
  · have hsent : (id, req) ∈ (s.afterDeliver id true d).sent := hm.entry id req cmd hfind
    obtain ⟨a, ha, -, -, hnack⟩ := ht.responded id req hsent (OrderedMap.find?_erase_self _ _)
    have hold : s.responsesTo id = [] := hm.outstanding id (by simp [he])
    simp only [responsesTo] at hold
    simp only [responsesTo, afterDeliver, filter_append, hold,
      nil_append, filter_cons, decide_true, if_true, filter_nil, List.cons.injEq, and_true] at ha
    rw [← ha] at hnack
    exact Bool.noConfusion hnack
  · have hsame := ht.remembers id
    simp [afterResend] at hsame

theorem step_matched_iff {op : InterfaceOp} (hc : Coherent s) (hm : Matched s)
    (h : s.step op = some t) :
    Matched t ↔ op.isNack = false := by
  cases op with
  | send req =>
    refine iff_of_true ?_ rfl
    have hct := hc.step h
    obtain ⟨e, hconv, rfl | rfl⟩ := send_cases h
    · exact hm.afterSend hc hconv
    · exact hm.congr hct rfl
  | answer id response =>
    refine iff_of_true ?_ rfl
    obtain ⟨e, req, cmd, d, he, hfind, hreq, hkind, rfl⟩ := answer_cases hc h
    exact hm.afterDeliver hc he hfind hreq hkind
  | nack id =>
    refine iff_of_false (not_matched_nack hc hm h) ?_
    exact Bool.noConfusion
  | incoming event =>
    refine iff_of_true ?_ rfl
    have hct := hc.step h
    obtain ⟨iface, rfl, hreq, -⟩ := incoming_cases (.inl ⟨event, rfl⟩) h
    exact hm.congr hct hreq
  | reply r =>
    refine iff_of_true ?_ rfl
    have hct := hc.step h
    obtain ⟨iface, rfl, hreq, -⟩ := incoming_cases (.inr ⟨r, rfl⟩) h
    exact hm.congr hct hreq

theorem coherent_initial (h : Initial s) : Coherent s ∧ Matched s := by
  obtain ⟨hreq, hflight, hsent, hans⟩ := h
  have hc : Coherent s := by
    refine ⟨?_, ?_, ?_, ?_, ?_, ?_, ?_⟩ <;>
      simp [hreq, hflight, hsent, hans]
  refine ⟨hc, Matched.of_coherent hc ?_ ?_ ?_ ?_ ?_⟩ <;>
    simp [hreq, hflight, hsent, hans, responsesTo]

/--
In every run from an initial interface, requests and responses match in every
state reached exactly if the memory system never sends a NACK.
-/
theorem matched_iff_no_nack
    (hinit : Initial s)
    {ops : List InterfaceOp}
    (hrun : runOps step s ops = some t) :
    Throughout step Matched s ops ↔ ∀ op ∈ ops, op.isNack = false := by
  obtain ⟨hc, hm⟩ := coherent_initial hinit
  rw [← stepsMeet_const_iff (q := fun op => InterfaceOp.isNack op = false) hrun]
  exact throughout_iff_stepsMeet (fun _ _ _ hq h => hq.step h)
    (fun _ _ _ hq hp h => step_matched_iff hq hp h) hc hm hrun

def bareInterface : InterfaceRun where
  iface :=
    { name := "cpu", baseAddrMask_ := 0, lineSize_ := 0,
      noncacheableRegions := [], targetDestination := fun _ => "memory",
      needsResponse := fun _ => true, requests_ := OrderedMap.empty,
      responses_ := OrderedMap.empty, nextEvent := 0, nextRequest := 0 }
  inFlight := OrderedMap.empty
  sent := []
  answered := []

def eightBytesAt (pAddr : Addr) : RequestBase :=
  { pAddr := pAddr, size := 8, tid := 0, vAddr := 0, iPtr := 0,
    noncacheable := false }

def writeDone : MemEvent :=
  { MemEvent.new 0 "memory" 64 64 .WriteResp with responseToID_ := some 0 }

/-- The equivalence at one write and its response. -/
theorem matched_iff_no_nack_write :
    Throughout step Matched bareInterface
      [.send ⟨7, .write (eightBytesAt 64) [] false⟩, .answer 0 writeDone] := by
  obtain ⟨t, hrun⟩ : ∃ t, runOps step bareInterface
      [.send ⟨7, .write (eightBytesAt 64) [] false⟩, .answer 0 writeDone] =
        some t := ⟨_, rfl⟩
  refine (matched_iff_no_nack ⟨rfl, rfl, rfl, rfl⟩ hrun).2 ?_
  decide

/--
A read that is NACKed is delivered on the NACK; a write that is NACKed is
forgotten and resent, and its response is then refused as unknown.
-/
theorem nack_breaks_matching :
    (∃ t, runOps step bareInterface
        [.send ⟨7, .read (eightBytesAt 64)⟩, .nack 0] = some t ∧
      (t.answered.map (fun a => (a.id, a.onNack))) = [(0, true)] ∧ ¬ Matched t) ∧
    (∃ t, runOps step bareInterface
        [.send ⟨7, .write (eightBytesAt 64) [] false⟩, .nack 0] = some t ∧
      (t.inFlight.find? 0).isSome = true ∧
      t.iface.requests_.find? 0 = none ∧
      writeDone.AnswersTo ((t.inFlight.find? 0).getD writeDone) ∧
      t.iface.receive writeDone writeDone = none ∧
      ¬ Matched t) := by
  refine ⟨⟨_, rfl, rfl, ?_⟩, ⟨_, rfl, rfl, rfl, by decide, rfl, ?_⟩⟩
  · intro h
    obtain ⟨a, ha, -, -, hnack⟩ := h.responded 0 _ (mem_singleton.2 rfl) rfl
    obtain rfl := (List.cons.inj ha).1
    exact Bool.noConfusion hnack
  · intro h
    exact absurd (h.remembers 0) (by decide)

end Run

end InterfaceRun

end SstElements.MemHierarchy
