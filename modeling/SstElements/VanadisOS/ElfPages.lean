import Mathlib

/-!
# Pages of ELF files

A page of a program is read from the segment that it belongs to.  What lies in the image of
the segment comes from the file and the rest is zero.
-/

namespace SstElements.VanadisOS.VElfLoader

open List Option

inductive VanadisELFProgramHeaderType
  | PROG_HEADER_NOT_USED
  | PROG_HEADER_LOAD
  | PROG_HEADER_DYNAMIC
  | PROG_HEADER_INTERPRETER
  | PROG_HEADER_NOTE
  | PROG_HEADER_TABLE_INFO
  | PROG_HEADER_THREAD_LOCAL
  deriving DecidableEq

/-- A segment whose pages have addresses of 64 bits. -/
structure VanadisELFProgramHeaderEntry where
  headerType : VanadisELFProgramHeaderType
  virtualMemoryStart : Nat
  headerMemoryLength : Nat
  headerImageLength : Nat
  imageOffset : Nat
  image_le_memory : headerImageLength ≤ headerMemoryLength
  addresses : virtualMemoryStart + headerMemoryLength + 4096 ≤ 2 ^ 64

def roundDown (num step : Nat) : Nat := num / step * step

def roundUp (num step : Nat) : Nat := if num % step ≠ 0 then roundDown num step + step else num

def findProgramHeader (progHeaders : List VanadisELFProgramHeaderEntry) (virtAddr : Nat) :
    Option VanadisELFProgramHeaderEntry :=
  progHeaders.find? fun hdr =>
    hdr.headerType = .PROG_HEADER_LOAD ∧ roundDown hdr.virtualMemoryStart 4096 ≤ virtAddr ∧
      virtAddr < hdr.virtualMemoryStart + hdr.headerMemoryLength

/-- The page number is an `int`; the address is shifted as one and then extended with
its sign. -/
def pageAddress (vpn : Nat) : Nat :=
  let shifted := vpn * 4096 % 2 ^ 32
  if shifted < 2 ^ 31 then shifted else shifted + (2 ^ 64 - 2 ^ 32)

/-- The bytes of a page; `none` is the failed assertion that it has a header. -/
def readElfPage
    (progHeaders : List VanadisELFProgramHeaderEntry) (exec_file : Nat → UInt8) (vpn : Nat) :
    Option (Fin 4096 → UInt8) :=
  let virtAddr := pageAddress vpn
  (findProgramHeader progHeaders virtAddr).map fun secHdr k =>
    let secAddr := secHdr.virtualMemoryStart
    let secImageLen := secHdr.headerImageLength
    let imageOffset := if virtAddr < secAddr then 0 else virtAddr - secAddr
    if imageOffset < secImageLen then
      let dataOffset := if virtAddr < secAddr then secAddr - virtAddr else 0
      let numBytes := 4096 - dataOffset
      let numBytes :=
        if secImageLen - imageOffset < numBytes then secImageLen - imageOffset else numBytes
      if dataOffset ≤ k ∧ k < dataOffset + numBytes then
        exec_file (secHdr.imageOffset + imageOffset + (k - dataOffset))
      else 0
    else 0

namespace VanadisELFProgramHeaderEntry

variable {hdr : VanadisELFProgramHeaderEntry} {addr addr' : Nat}

/-- A page of the region that a process creates for the segment. -/
def HasPage (hdr : VanadisELFProgramHeaderEntry) (addr : Nat) : Prop :=
  hdr.headerType = .PROG_HEADER_LOAD ∧ addr % 4096 = 0 ∧
    roundDown hdr.virtualMemoryStart 4096 ≤ addr ∧
    addr < roundUp (hdr.virtualMemoryStart + hdr.headerMemoryLength) 4096

/-- The byte is in the file image. -/
def InImage (hdr : VanadisELFProgramHeaderEntry) (v : Nat) : Prop :=
  hdr.virtualMemoryStart ≤ v ∧ v < hdr.virtualMemoryStart + hdr.headerImageLength
deriving Decidable

/-- The bytes that a page should have. -/
def page
    (hdr : VanadisELFProgramHeaderEntry) (file : Nat → UInt8) (addr : Nat) : Fin 4096 → UInt8 :=
  fun k => if hdr.InImage (addr + k) then
    file (hdr.imageOffset + (addr + k - hdr.virtualMemoryStart)) else 0

/-- The page has no byte of the file. -/
def Blank (hdr : VanadisELFProgramHeaderEntry) (addr : Nat) : Prop :=
  ∀ k : Fin 4096, ¬hdr.InImage (addr + k)

/-- The header of the page is found, and its bytes are right for every file. -/
def Loads
    (progHeaders : List VanadisELFProgramHeaderEntry) (hdr : VanadisELFProgramHeaderEntry)
    (addr : Nat) : Prop :=
  findProgramHeader progHeaders (pageAddress (addr / 4096)) = some hdr ∧
    ∀ file, readElfPage progHeaders file (addr / 4096) = some (hdr.page file addr)

theorem pageAddress_mod (vpn : Nat) : pageAddress vpn % 4096 = 0 := by
  unfold pageAddress
  dsimp only
  split <;> omega

theorem hasPage_iff (haddr : addr % 4096 = 0) :
    hdr.HasPage addr ↔
      hdr.headerType = .PROG_HEADER_LOAD ∧ roundDown hdr.virtualMemoryStart 4096 ≤ addr ∧
        addr < hdr.virtualMemoryStart + hdr.headerMemoryLength := by
  unfold HasPage roundUp roundDown
  refine and_congr_right fun _ => ?_
  split <;> omega

/-- No two segments share a page. -/
def Apart (progHeaders : List VanadisELFProgramHeaderEntry) : Prop :=
  progHeaders.Pairwise fun a b => ∀ addr, a.HasPage addr → ¬b.HasPage addr

variable {progHeaders : List VanadisELFProgramHeaderEntry}

theorem findProgramHeader_eq_some_iff (hapart : Apart progHeaders) (hmem : hdr ∈ progHeaders)
    (haddr : addr % 4096 = 0) :
    findProgramHeader progHeaders addr = some hdr ↔ hdr.HasPage addr := by
  constructor
  · intro hfind
    have hok := find?_some hfind
    exact (hasPage_iff haddr).2 (of_decide_eq_true hok)
  · intro hpage
    induction progHeaders with
    | nil => cases hmem
    | cons first rest ih =>
      obtain ⟨hfirst, hrest⟩ := pairwise_cons.1 hapart
      rw [findProgramHeader, find?_cons]
      by_cases hfits : first.HasPage addr
      · rw [decide_eq_true ((hasPage_iff haddr).1 hfits)]
        rcases mem_cons.1 hmem with rfl | hmem
        · rfl
        · exact absurd hpage (hfirst hdr hmem addr hfits)
      · rw [decide_eq_false fun hok => hfits ((hasPage_iff haddr).2 hok)]
        refine ih hrest ((mem_cons.1 hmem).resolve_left ?_)
        rintro rfl
        exact hfits hpage

theorem readElfPage_eq {vpn : Nat}
    (hfind : findProgramHeader progHeaders (pageAddress vpn) = some hdr) (file : Nat → UInt8) :
    readElfPage progHeaders file vpn = some (hdr.page file (pageAddress vpn)) := by
  simp only [readElfPage, hfind, map_some, Option.some.injEq]
  funext k
  unfold page
  by_cases hin : hdr.InImage (pageAddress vpn + k)
  · rw [if_pos hin]
    unfold InImage at hin
    split_ifs <;> first | omega | exact congrArg file (by omega)
  · rw [if_neg hin]
    unfold InImage at hin
    split_ifs <;> first | rfl | omega

theorem page_eq_iff :
    (∀ file, hdr.page file addr' = hdr.page file addr) ↔
      addr' = addr ∨ hdr.Blank addr' ∧ hdr.Blank addr := by
  constructor
  · intro hsame
    by_contra hno
    rw [not_or] at hno
    -- a file with a mark at one byte tells the pages apart
    have hblank : ∀ a a', (∀ file, hdr.page file a = hdr.page file a') → a ≠ a' →
        hdr.Blank a := by
      intro a a' hsame hne k hk
      have hbyte := congrFun (hsame fun offset =>
        if offset = hdr.imageOffset + (a + k - hdr.virtualMemoryStart) then 1 else 0) k
      rw [page, page, if_pos hk, if_pos rfl] at hbyte
      split at hbyte
      case isTrue hk' =>
        unfold InImage at hk hk'
        rw [if_neg (by omega)] at hbyte
        cases hbyte
      case isFalse => cases hbyte
    exact hno.2 ⟨hblank _ _ hsame hno.1, hblank _ _ (fun file => (hsame file).symm) (Ne.symm hno.1)⟩
  · rintro (rfl | ⟨hblank, hblank'⟩) file
    · rfl
    · funext k
      rw [page, page, if_neg (hblank k), if_neg (hblank' k)]

/-- A page loads exactly if its address survives the shift as an `int`, or if it and the page
that is read in its place are blank pages of the same segment. -/
theorem loads_iff {progHeaders : List VanadisELFProgramHeaderEntry}
    (hapart : Apart progHeaders)
    (hmem : hdr ∈ progHeaders)
    (hpage : hdr.HasPage addr) :
    Loads progHeaders hdr addr ↔
      pageAddress (addr / 4096) = addr ∨
        hdr.HasPage (pageAddress (addr / 4096)) ∧
          hdr.Blank (pageAddress (addr / 4096)) ∧ hdr.Blank addr := by
  have hfind := findProgramHeader_eq_some_iff hapart hmem (pageAddress_mod (addr / 4096))
  have hread (hfound : hdr.HasPage (pageAddress (addr / 4096))) :
      (∀ file, readElfPage progHeaders file (addr / 4096) = some (hdr.page file addr)) ↔
        ∀ file, hdr.page file (pageAddress (addr / 4096)) = hdr.page file addr := by
    simp only [readElfPage_eq (hfind.2 hfound), Option.some.injEq]
  rw [Loads, hfind]
  constructor
  · rintro ⟨hfound, hbytes⟩
    exact (page_eq_iff.1 ((hread hfound).1 hbytes)).imp_right fun hblank => ⟨hfound, hblank⟩
  · intro hcases
    have hfound : hdr.HasPage (pageAddress (addr / 4096)) := by
      rcases hcases with heq | ⟨hfound, -⟩
      · exact heq.symm ▸ hpage
      · exact hfound
    exact ⟨hfound, (hread hfound).2 (page_eq_iff.2 (hcases.imp_right And.right))⟩

/-- A segment of one page at the given address. -/
def segmentAt (addr : Nat) (h : addr + 8192 ≤ 2 ^ 64) : VanadisELFProgramHeaderEntry where
  headerType := .PROG_HEADER_LOAD
  virtualMemoryStart := addr
  headerMemoryLength := 4096
  headerImageLength := 100
  imageOffset := 0
  image_le_memory := by decide
  addresses := h

theorem loads_iff_low :
    Loads [segmentAt 65536 (by decide)] (segmentAt 65536 (by decide)) 65536 ↔
      pageAddress 16 = 65536 ∨
        (segmentAt 65536 (by decide)).HasPage (pageAddress 16) ∧
          (segmentAt 65536 (by decide)).Blank (pageAddress 16) ∧
            (segmentAt 65536 (by decide)).Blank 65536 :=
  loads_iff (pairwise_singleton _ _) (mem_singleton.2 rfl) ⟨rfl, by decide⟩

/-- No header is found for a segment at two gigabytes. -/
theorem not_loads_high :
    ¬Loads [segmentAt (2 ^ 31) (by decide)] (segmentAt (2 ^ 31) (by decide)) (2 ^ 31) := by
  intro h
  have hnone : findProgramHeader [segmentAt (2 ^ 31) (by decide)]
      (pageAddress (2 ^ 31 / 4096)) = none := by decide
  exact some_ne_none _ (h.1.symm.trans hnone)

end VanadisELFProgramHeaderEntry

end SstElements.VanadisOS.VElfLoader
