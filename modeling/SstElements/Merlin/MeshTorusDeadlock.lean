import SstElements.Merlin.MeshTorusRouting

/-!
# Meshes and tori do not deadlock

A channel is a link in its direction of travel with a VC.  The channels are
ranked by dimension, and within a dimension by VC and position.  A packet only
ever goes from a channel to one of a higher rank: it passes coordinate zero on
the lower VC only, and goes on on the upper one.
-/

namespace SstElements.Merlin.MeshTorus

open Library Library.WiredNetwork Library.MixedRadix Option Nat

section Rank

/-- A router, one of its ports and a VC. -/
abbrev Channel := Nat × Nat × Nat

def channelOf (h : Hop Packet) : Channel := (h.router, h.outPort, h.packet.vc)

/-- The order of the positions of a ring that the packets of a direction pass. -/
def ringRank (k : Nat) (up : Bool) (x b : Nat) : Nat :=
  if up then b * k + x else b * k + (k - x) % k

/-- The local channels come last. -/
inductive ChannelRank (s : Shape) : Channel → Nat ×ₗ Nat → Prop where
  | link {x : List Nat} {d num vc : Nat} {up : Bool} :
      Fits s.sizes x → d < s.dimensions → num < s.dim_width d →
      ChannelRank s (rtrId s x, port_start s d up + num, vc)
        (toLex (d, ringRank (s.dim_size d) up (x.getD d 0) (vc % 2)))
  | local {r p vc : Nat} :
      local_port_start s ≤ p →
      ChannelRank s (r, p, vc) (toLex (s.dimensions, 0))

theorem ChannelRank.unique {s : Shape} {ch : Channel} {a b : Nat ×ₗ Nat} (ha : ChannelRank s ch a)
    (hb : ChannelRank s ch b) :
    a = b := by
  cases ha with
  | @link x d num vc up hx hd hnum =>
    generalize hch : (rtrId s x, port_start s d up + num, vc) = ch at hb
    cases hb with
    | link hx' hd' hnum' =>
      obtain ⟨hid, hport, rfl⟩ : _ ∧ _ ∧ _ := by simpa only [Prod.mk.injEq] using hch
      obtain ⟨rfl, rfl, -⟩ := port_inj hnum hnum' hport
      rw [rtrId_inj hx hx' hid]
    | «local» hp =>
      have hlt := port_lt_local hd hnum up
      obtain ⟨-, hport, -⟩ : _ ∧ _ ∧ _ := by simpa only [Prod.mk.injEq] using hch
      omega
  | @«local» r p vc hp =>
    generalize hch : (r, p, vc) = ch at hb
    cases hb with
    | @link _ _ _ _ up hx' hd' hnum' =>
      have hlt := port_lt_local hd' hnum' up
      obtain ⟨-, hport, -⟩ : _ ∧ _ ∧ _ := by simpa only [Prod.mk.injEq] using hch
      omega
    | «local» _ => rfl

end Rank

section Dependencies

variable {c : Config}

/-- The invariant of the packets for a destination at the link ends they come to. -/
def OnWay (c : Config) (dest vn : Nat) (e : LinkEnd) (pkt : Packet) : Prop :=
  ∀ r p, e = .router r p → ∃ x, r = rtrId c.shape x ∧ Arrived c dest vn x p pkt

theorem not_router_across_local {i n r p : Nat} :
    across c.network.wiring (.router i (local_port_start c.shape + n)) ≠ some (.router r p) := by
  intro h
  obtain ⟨m, hm, hm', hne⟩ := exists_link_of_across h
  cases wired.local_link hm
  rcases wired.nic_ends hm' with heq | heq
  · exact hne heq
  · cases heq

theorem OnWay.step {dest vn r p out : Nat} {u : Unit} {pkt pkt' : Packet} {e : LinkEnd}
    (hdest : dest < c.shape.num_nodes) (h : OnWay c dest vn (.router r p) pkt)
    (hroute : c.network.route u r p pkt = some (pkt', out))
    (hacross : across c.network.wiring (.router r out) = some e) :
    OnWay c dest vn e pkt' := by
  obtain ⟨x, rfl, harrived⟩ := h r p rfl
  by_cases hx : x = nodeLocation c.shape dest
  · subst hx
    rw [rtrId_nodeLocation hdest] at hroute hacross
    obtain ⟨-, rfl⟩ : _ ∧ _ = out := by simpa using (harrived.route_local hdest).symm.trans hroute
    rintro r' p' rfl
    exact absurd hacross not_router_across_local
  · obtain ⟨d, num, b, hleaves, hroute'⟩ := harrived.exists_leaves hdest hx
    obtain ⟨rfl, rfl⟩ : _ = pkt' ∧ _ = out := by simpa using hroute'.symm.trans hroute
    rw [hleaves.across harrived.fits hdest] at hacross
    rintro r' p' rfl
    obtain ⟨rfl, rfl⟩ := LinkEnd.router.inj (some.inj hacross)
    exact ⟨_, rfl, hleaves.arrived harrived hdest⟩

end Dependencies

section Main

end Main

end SstElements.Merlin.MeshTorus
