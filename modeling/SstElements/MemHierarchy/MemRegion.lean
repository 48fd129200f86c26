import Mathlib
import SstElements.Library.OrderedContainer
import SstElements.Library.RunScan
import SstElements.MemHierarchy.MemTypes

/-!
# Memory regions

A `MemRegion` is a range of addresses, possibly interleaved: from `start` on,
every `interleaveStep` bytes a chunk of `interleaveSize` bytes belongs to the
region.  All fields are 64-bit words and all arithmetic wraps.

`intersect` returns a `std::set<MemRegion>`; it is modelled by the list of its
elements in the order of `lt`.  Its main loop runs from `check_start` to
`check_start + lcm`, which is the number of iterations given to `intersectLoop`.
-/

namespace SstElements.MemHierarchy

open Library

/-- An address region given by start, last address and interleaving. -/
structure MemRegion where
  start : Addr
  end_ : Addr
  interleaveSize : Addr
  interleaveStep : Addr
deriving DecidableEq, Repr

/-- Membership test of an address. -/
def MemRegion.contains (r : MemRegion) (addr : Addr) : Bool :=
  if addr ≥ r.start && addr ≤ r.end_ then
    if r.interleaveSize = 0 then true
    else decide ((addr - r.start) % r.interleaveStep < r.interleaveSize)
  else false

/-- `operator<`: by start, then by end, then by cross-multiplied densities. -/
def MemRegion.lt (r o : MemRegion) : Bool :=
  if r.start ≠ o.start then decide (r.start < o.start)
  else if r.end_ ≠ o.end_ then decide (r.end_ < o.end_)
  else decide (r.interleaveSize * o.interleaveStep < r.interleaveStep * o.interleaveSize)

namespace MemRegion

/-- Euclid's algorithm on words. -/
def gcd (a b : UInt64) : UInt64 := if b = 0 then a else gcd b (a % b)
termination_by b.toNat
decreasing_by
  rename_i hb
  have hpos : 0 < b.toNat := pos_of_ne_zero (fun h₀ => hb ((toNat_eq_zero_iff b).1 h₀))
  simpa using Nat.mod_lt _ hpos

/-- Least common multiple of the steps, as both callers compute it. -/
def lcmStep (r o : MemRegion) : UInt64 :=
  if r.interleaveStep = o.interleaveStep then
    r.interleaveStep
  else if r.interleaveStep > o.interleaveStep then
    (r.interleaveStep / gcd r.interleaveStep o.interleaveStep) *
      o.interleaveStep
  else
    (r.interleaveStep / gcd o.interleaveStep r.interleaveStep) *
      o.interleaveStep

def checkStart (r o : MemRegion) : Addr := if r.start < o.start then o.start else r.start

def minEnd (r o : MemRegion) : Addr := if o.end_ < r.end_ then o.end_ else r.end_

def runRegion (r o : MemRegion) (lcm start size : Addr) : MemRegion where
  start := start
  end_ := minEnd r o
  interleaveSize := size
  interleaveStep := lcm

/--
The loop of `intersect`: `i` is the address under test, the last three
arguments are `region_start`, `region_size` and `regions`.
-/
def intersectLoop (r o : MemRegion) (lcm : Addr) :
    Nat → Addr → Addr → Addr → List MemRegion →
      Addr × Addr × List MemRegion
  | 0, _, regionStart, regionSize, regions =>
    (regionStart, regionSize, regions)
  | n + 1, i, regionStart, regionSize, regions =>
    if r.contains i && o.contains i then
      intersectLoop r o lcm n (i + 1)
        (if regionSize = 0 then i else regionStart) (regionSize + 1) regions
    else if regionSize ≠ 0 then
      intersectLoop r o lcm n (i + 1) regionStart 0
        (setInsert lt (runRegion r o lcm regionStart regionSize) regions)
    else
      intersectLoop r o lcm n (i + 1) regionStart regionSize regions

/-- Number of iterations of `for (i = check_start; i < check_end; i++)`. -/
def iterations (checkStart checkEnd : Addr) : Nat := checkEnd.toNat - checkStart.toNat

/-- Set intersection of two regions, as a set of regions. -/
def intersect (r o : MemRegion) : List MemRegion :=
  if o.end_ < r.start || r.end_ < o.start then
    []
  else if r = o then
    [r]
  else if r.interleaveSize = 0 && o.interleaveStep = 0 then
    [{ start := checkStart r o, end_ := minEnd r o,
       interleaveSize := 0, interleaveStep := 0 }]
  else
    let lcm := lcmStep r o
    let first := checkStart r o
    match intersectLoop r o lcm (iterations first (first + lcm))
        first first 0 [] with
    | (regionStart, regionSize, regions) =>
      if regionSize ≠ 0 then
        setInsert lt (runRegion r o lcm regionStart regionSize) regions
      else regions

def doesIntersectLoop (r o : MemRegion) : Nat → Addr → Bool
  | 0, _ => false
  | n + 1, i =>
    if r.contains i && o.contains i then true
    else doesIntersectLoop r o n (i + 1)

/-- Whether two regions share an address. -/
def doesIntersect (r o : MemRegion) : Bool :=
  if o.end_ < r.start || r.end_ < o.start then
    false
  else if r = o then
    true
  else if r.interleaveSize = 0 && o.interleaveStep = 0 then
    true
  else
    let lcm := lcmStep r o
    let first := checkStart r o
    doesIntersectLoop r o (iterations first (first + lcm)) first

def Interleaved (r : MemRegion) : Prop := 0 < r.interleaveSize ∧ r.interleaveSize ≤ r.interleaveStep
deriving Decidable

/-- Regions that components configure: a range, interleaved or contiguous. -/
def WellFormed (r : MemRegion) : Prop :=
  r.start ≤ r.end_ ∧
    ((r.interleaveSize = 0 ∧ r.interleaveStep = 0) ∨ r.Interleaved)
deriving Decidable

end MemRegion

end SstElements.MemHierarchy
