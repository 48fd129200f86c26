import Mathlib.Tactic

/-!
# Wired networks

A network is a set of routers whose ports are attached to named links, and a
rule that says how a router passes a packet on.  A link joins what is attached
under its name.  A packet is followed from link end to link end until it comes
to an endpoint.
-/

namespace SstElements.Library.WiredNetwork

open List Option

universe u v w

/-- What a link may be attached to: a port of a router, or an endpoint. -/
inductive LinkEnd where
  | router (id port : Nat)
  | endpoint (id : Nat)
  deriving DecidableEq, Repr

/-- A link attached to one of its ends. -/
structure Attachment (Name : Type u) where
  place : LinkEnd
  link : Name
  deriving DecidableEq, Repr

section Wiring

variable {Name : Type u} [DecidableEq Name]

/-- The other end of the link that is attached to an end. -/
def across (wiring : List (Attachment Name)) (x : LinkEnd) : Option LinkEnd :=
  match wiring.find? (fun a => a.place = x) with
  | none => none
  | some a =>
    (wiring.find? (fun b => b.link = a.link ∧ b.place ≠ x)).map (·.place)

variable {wiring : List (Attachment Name)} {x y : LinkEnd} {n : Name}

theorem across_eq_some (hx : ⟨x, n⟩ ∈ wiring) (hport : ∀ m, ⟨x, m⟩ ∈ wiring → m = n)
    (hy : ⟨y, n⟩ ∈ wiring) (hne : y ≠ x) (hends : ∀ z, ⟨z, n⟩ ∈ wiring → z = x ∨ z = y) :
    across wiring x = some y := by
  obtain ⟨a, ha⟩ : ∃ a, wiring.find? (fun a => a.place = x) = some a := by
    rw [← isSome_iff_exists, find?_isSome]
    exact ⟨_, hx, by simp⟩
  have hplace : a.place = x := by simpa using find?_some ha
  have hlink : a.link = n := by
    apply hport
    rw [← hplace]
    exact mem_of_find?_eq_some ha
  obtain ⟨b, hb⟩ :
      ∃ b, wiring.find? (fun b => b.link = a.link ∧ b.place ≠ x) = some b := by
    rw [← isSome_iff_exists, find?_isSome]
    exact ⟨_, hy, by simp [hlink, hne]⟩
  have hbfacts : b.link = a.link ∧ b.place ≠ x := by simpa using find?_some hb
  have hbplace : b.place = y := by
    have hmem : ⟨b.place, n⟩ ∈ wiring := by
      rw [← hlink, ← hbfacts.1]
      exact mem_of_find?_eq_some hb
    exact (hends _ hmem).resolve_left hbfacts.2
  simp only [across, ha, hb, map_some, hbplace]

theorem exists_link_of_across (h : across wiring x = some y) :
    ∃ n, ⟨x, n⟩ ∈ wiring ∧ ⟨y, n⟩ ∈ wiring ∧ y ≠ x := by
  unfold across at h
  cases ha : wiring.find? (fun a => a.place = x) with
  | none => simp [ha] at h
  | some a =>
    simp only [ha, map_eq_some_iff] at h
    obtain ⟨b, hb, rfl⟩ := h
    have hplace : a.place = x := by simpa using find?_some ha
    have hbfacts : b.link = a.link ∧ b.place ≠ x := by simpa using find?_some hb
    refine ⟨a.link, ?_, ?_, hbfacts.2⟩
    · rw [← hplace]
      exact mem_of_find?_eq_some ha
    · rw [← hbfacts.1]
      exact mem_of_find?_eq_some hb

end Wiring

section Following

variable {Name : Type u} [DecidableEq Name] {Packet : Type v}
variable {Choice : Type w}

/-- A visit of a packet to a router, with the packet as the router leaves it. -/
structure Hop (Packet : Type v) where
  router : Nat
  inPort : Nat
  outPort : Nat
  packet : Packet
  deriving DecidableEq, Repr

/-- How the routers pass packets on, and how they are wired. -/
structure Network (Name : Type u) (Packet : Type v) (Choice : Type w) where
  /-- The packet and the output port a router gives to an arriving packet. -/
  route : Choice → Nat → Nat → Packet → Option (Packet × Nat)
  wiring : List (Attachment Name)

variable (net : Network Name Packet Choice)

variable {net} {fuel : Nat} {draw : Nat → Choice} {e e' : LinkEnd}
variable {r p out : Nat} {pkt pkt' : Packet}

section

variable (hroute : net.route (draw 0) r p pkt = some (pkt', out))
include hroute

end

/-- The packet gets from the one link end to the other in the given visits. -/
inductive Walk (net : Network Name Packet Choice) :
    (Nat → Choice) → LinkEnd → Packet → List (Hop Packet) →
      LinkEnd → Packet → Prop where
  | nil (draw : Nat → Choice) (e : LinkEnd) (pkt : Packet) :
      Walk net draw e pkt [] e pkt
  | cons {draw : Nat → Choice} {r p out : Nat} {pkt pkt' pkt'' : Packet}
      {e e' : LinkEnd} {hops : List (Hop Packet)} :
      net.route (draw 0) r p pkt = some (pkt', out) →
      across net.wiring (.router r out) = some e →
      Walk net (fun i => draw (i + 1)) e pkt' hops e' pkt'' →
      Walk net draw (.router r p) pkt (⟨r, p, out, pkt'⟩ :: hops) e' pkt''

variable {hops : List (Hop Packet)} {n : Nat} {Guard : Choice → Nat → Nat → Packet → Prop}

theorem Walk.append {e'' : LinkEnd} {pkt'' : Packet} {hops' : List (Hop Packet)}
    (h : Walk net draw e pkt hops e' pkt')
    (h' : Walk net (fun i => draw (i + hops.length)) e' pkt' hops' e'' pkt'') :
    Walk net draw e pkt (hops ++ hops') e'' pkt'' := by
  induction h with
  | nil draw e pkt => exact h'
  | cons hroute hacross _ ih =>
    exact .cons hroute hacross (ih h')

/-- A condition holds at each of the first visits of a packet that is followed. -/
def EachVisit (net : Network Name Packet Choice)
    (Guard : Choice → Nat → Nat → Packet → Prop) :
    Nat → (Nat → Choice) → LinkEnd → Packet → Prop
  | _, _, .endpoint _, _ => True
  | 0, _, .router _ _, _ => True
  | fuel + 1, draw, .router r p, pkt =>
    Guard (draw 0) r p pkt ∧
      ∀ x ∈ net.route (draw 0) r p pkt,
        ∀ e ∈ across net.wiring (.router r x.2),
          EachVisit net Guard fuel (fun i => draw (i + 1)) e x.1

instance instDecidableEachVisit
    {Guard : Choice → Nat → Nat → Packet → Prop}
    [∀ c r p pkt, Decidable (Guard c r p pkt)] :
    ∀ fuel draw e pkt, Decidable (EachVisit net Guard fuel draw e pkt)
  | fuel, _, .endpoint _, _ => isTrue (by cases fuel <;> exact True.intro)
  | 0, _, .router _ _, _ => isTrue True.intro
  | fuel + 1, draw, .router r p, pkt =>
    have _ : ∀ draw e pkt, Decidable (EachVisit net Guard fuel draw e pkt) :=
      instDecidableEachVisit fuel
    inferInstanceAs (Decidable (_ ∧ ∀ _ ∈ _, _))

section

variable (h : EachVisit net Guard (fuel + 1) draw (.router r p) pkt)
include h

theorem EachVisit.head : Guard (draw 0) r p pkt :=
  h.1

theorem EachVisit.tail (hroute : net.route (draw 0) r p pkt = some (pkt', out))
    (hacross : across net.wiring (.router r out) = some e) :
    EachVisit net Guard fuel (fun i => draw (i + 1)) e pkt' := by
  exact h.2 (pkt', out) hroute e hacross

end

end Following

section Acyclic

variable {α : Type u} {β : Type v} [Preorder β] {r : α → α → Prop}

end Acyclic

end SstElements.Library.WiredNetwork
