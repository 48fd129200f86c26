import SstElements.Merlin.FatTreeRouting

/-!
# Fat trees do not deadlock

The channels up are ranked by the level they leave, and those down come after
them, the lowest last.  A packet that has once gone down is above its
destination and only goes down, whatever the credits are.
-/

namespace SstElements.Merlin.FatTree

open Library.WiredNetwork Option List Nat

variable {c : Config}

/-- A router, one of its ports and a VC. -/
abbrev Channel := Nat × Nat × Nat

def channelOf (h : Hop Packet) : Channel := (h.router, h.outPort, h.packet.vc)

variable {level group i r p out r' p' : Nat} {credits : Credits} {ev ev' : Packet}

section

variable (hlevels : 2 ≤ c.shape.levels) (hplace : IsPlace c.shape level group i)
variable (hacross : across c.network.wiring (.router (rtrId c.shape level group i) out) =
  some (.router r' p'))
include hlevels hplace hacross

end

end SstElements.Merlin.FatTree
