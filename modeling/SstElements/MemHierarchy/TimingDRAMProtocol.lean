import Mathlib
import SstElements.Library.History
import SstElements.Library.RoundRobin
import SstElements.MemHierarchy.TimingDRAM

/-!
# The protocol between a channel and its banks

A column command finds the row of its transaction open, a precharge or an
activation finds its bank quiet, and no two column commands use the data bus at
the same time.  The commands a bank has queued fit the row that the past left
open, which gives the first of these facts; the second rests on the pointer to
the last command of a bank, the third on the cycle from which the bus is free.
-/

namespace SstElements.MemHierarchy.TimingDRAM

open Library RoundRobin Function Option Nat

section Protocol

/-- Both commands are of one bank. -/
def Cmd.sameBank (c d : Cmd) : Prop := c.rank = d.rank ∧ c.bank = d.bank
deriving Decidable

/-- The cycles in which a column command uses the data bus. -/
def Cmd.dataInterval (c : Cmd) : Set Nat := Set.Ico (c.issueTime + c.cycles) c.finiTime

/-- The last row command before a column command activated its row. -/
def FindsRowOpen (past : List Cmd) (c : Cmd) : Prop :=
  c.op = .COL → ∃ tr act, c.trans = some tr ∧
    (past.filter (fun d => d.sameBank c ∧ d.op ≠ .COL)).getLast? = some act ∧
      act.op = .ACT ∧ act.row = tr.row

/-- All earlier commands of its bank are done before a row command. -/
def FindsBankQuiet (past : List Cmd) (c : Cmd) : Prop :=
  c.op ≠ .COL → ∀ d ∈ past, d.sameBank c → d.isDone c.issueTime = true

/-- A column command uses the bus apart from all earlier ones. -/
def FindsBusFree (past : List Cmd) (c : Cmd) : Prop :=
  c.op = .COL → ∀ d ∈ past, d.op = .COL →
    Disjoint d.dataInterval c.dataInterval

/-- The commands issued on a channel respect the protocol. -/
structure Protocol (log : List Cmd) : Prop where
  rowOpen : EachAfter FindsRowOpen log
  bankQuiet : EachAfter FindsBankQuiet log
  busFree : EachAfter FindsBusFree log

theorem protocol_concat {log : List Cmd} {c : Cmd} (h : Protocol log) (hrow : FindsRowOpen log c)
    (hquiet : FindsBankQuiet log c) (hbus : FindsBusFree log c) :
    Protocol (log ++ [c]) :=
  ⟨eachAfter_concat_iff.2 ⟨h.rowOpen, hrow⟩,
    eachAfter_concat_iff.2 ⟨h.bankQuiet, hquiet⟩, eachAfter_concat_iff.2 ⟨h.busFree, hbus⟩⟩

end Protocol

section Rows

/-- The open row after a command. -/
def Cmd.rowAfter (row : UInt32) (c : Cmd) : UInt32 :=
  match c.op with
  | .PRE => noRow
  | .ACT => c.row
  | .COL => row

/-- The command can be issued to a bank with this row open. -/
def Cmd.Fits (row : UInt32) (c : Cmd) : Prop :=
  c.op = .COL → ∃ tr, c.trans = some tr ∧ tr.row = row ∧ row ≠ noRow

/-- The commands can be issued in order, from one open row to another. -/
def RowsFit : UInt32 → List Cmd → UInt32 → Prop
  | row, [], last => row = last
  | row, c :: rest, last => c.Fits row ∧ RowsFit (c.rowAfter row) rest last

/-- The row that a bank's commands leave open. -/
def openRow (past : List Cmd) : UInt32 := past.foldl Cmd.rowAfter noRow

def ofBank (rank bank : Nat) (log : List Cmd) : List Cmd :=
  log.filter (fun c => c.rank = rank ∧ c.bank = bank)

theorem RowsFit.concat {row last : UInt32} {queue : List Cmd} {c : Cmd} (h : RowsFit row queue last)
    (hc : c.Fits last) :
    RowsFit row (queue ++ [c]) (c.rowAfter last) := by
  induction queue generalizing row with
  | nil =>
    obtain rfl : row = last := h
    exact ⟨hc, rfl⟩
  | cons d rest ih =>
    exact ⟨h.1, ih h.2⟩

theorem openRow_concat (past : List Cmd) (c : Cmd) :
    openRow (past ++ [c]) = c.rowAfter (openRow past) := by
  unfold openRow
  rw [List.foldl_append]
  rfl

theorem exists_act_of_openRow {past : List Cmd} {row : UInt32} (h : openRow past = row)
    (hrow : row ≠ noRow) :
    ∃ act, (past.filter (fun d => d.op ≠ .COL)).getLast? = some act ∧
      act.op = .ACT ∧ act.row = row := by
  induction past using List.reverseRecOn with
  | nil =>
    exact absurd h.symm hrow
  | append_singleton past c ih =>
    rw [openRow_concat] at h
    unfold Cmd.rowAfter at h
    cases hop : c.op with
    | PRE =>
      rw [hop] at h
      exact absurd h.symm hrow
    | ACT =>
      rw [hop] at h
      exact ⟨c, by simp [List.filter_append, hop], hop, h⟩
    | COL =>
      rw [hop] at h
      obtain ⟨act, hlast, hact⟩ := ih h
      exact ⟨act, by simpa [List.filter_append, hop] using hlast, hact⟩

theorem findsRowOpen_of_fits {log : List Cmd} {c : Cmd}
    (h : c.Fits (openRow (ofBank c.rank c.bank log))) :
    FindsRowOpen log c := by
  intro hop
  obtain ⟨tr, htr, hrow, hne⟩ := h hop
  obtain ⟨act, hlast, hact, hactRow⟩ := exists_act_of_openRow rfl hne
  refine ⟨tr, act, htr, ?_, hact, hactRow.trans hrow.symm⟩
  rw [← hlast]
  unfold ofBank
  rw [List.filter_filter]
  congr 1
  refine List.filter_congr fun d _ => ?_
  unfold Cmd.sameBank
  by_cases hd : d.op = .COL
  · simp [hd]
  · simp [hd]

theorem ofBank_concat (rank bank : Nat) (log : List Cmd) (c : Cmd) :
    ofBank rank bank (log ++ [c]) =
      if c.rank = rank ∧ c.bank = bank then ofBank rank bank log ++ [c]
      else ofBank rank bank log := by
  unfold ofBank
  rw [List.filter_append]
  by_cases h : c.rank = rank ∧ c.bank = bank
  · simp [h]
  · simp [h]

end Rows

section Banks

variable {κ : Type} {cfg : Config κ}

/-- The longest time that a command takes. -/
def BankParams.longest (p : BankParams) : Nat :=
  max (max p.trp_lat p.rcd_lat)
    (max p.col_rd_lat p.col_wr_lat + p.data_lat)

/-- What a bank has queued fits what it was issued. -/
structure BankFits
    (cfg : Config κ) (rank bank : Nat) (past : List Cmd) (b : Bank κ) :
    Prop where
  rank_eq : b.rank = rank
  bank_eq : b.bank = bank
  queued : ∀ c ∈ b.cmdQ, c.rank = rank ∧ c.bank = bank ∧
    c.cycles + c.dataCycles ≤ cfg.params.longest
  rows : RowsFit (openRow past) b.cmdQ b.row
  waiting : ∀ tr ∈ b.transQ, tr.row ≠ noRow

variable {rank bank : Nat} {past : List Cmd} {b : Bank κ}

theorem BankFits.queue (h : BankFits cfg rank bank past b)
    (op : Op) (cycles : Nat) (row : UInt32) (dataCycles : Nat) (served : Option Transaction)
    (hcycles : cycles + dataCycles ≤ cfg.params.longest)
    (hfits : (b.newCmd op cycles row dataCycles served).Fits b.row) :
    BankFits cfg rank bank past
      { b with
        row := (b.newCmd op cycles row dataCycles served).rowAfter b.row
        cmdQ := b.cmdQ ++ [b.newCmd op cycles row dataCycles served] } := by
  refine ⟨h.rank_eq, h.bank_eq, ?_, h.rows.concat hfits, h.waiting⟩
  intro c hc
  rcases List.mem_append.1 hc with hc | hc
  · exact h.queued c hc
  · rw [List.mem_singleton.1 hc]
    exact ⟨h.rank_eq, h.bank_eq, hcycles⟩

theorem longest_bounds (p : BankParams) :
    p.trp_lat + 0 ≤ p.longest ∧ p.rcd_lat + 0 ≤ p.longest ∧ p.col_rd_lat + p.data_lat ≤ p.longest ∧
        p.col_wr_lat + p.data_lat ≤ p.longest := by
  unfold BankParams.longest
  omega

variable {c x : Cmd} {row : UInt32} {tr : Transaction} {cycle bus : Nat} {b' : Bank κ}

theorem not_fits_of_ne_col (h : c.op ≠ .COL) : c.Fits row :=
  fun hop => absurd hop h

section

variable (h : BankFits cfg rank bank past b)
include h

theorem BankFits.close : BankFits cfg rank bank past (b.close cfg) :=
  h.queue .PRE _ noRow 0 none (longest_bounds _).1
    (not_fits_of_ne_col (by simp [Bank.newCmd]))

theorem BankFits.column (hrow : tr.row ≠ noRow) (hopen : tr.row = b.row) :
    BankFits cfg rank bank past
      { b with
        cmdQ := b.cmdQ ++ [b.newCmd .COL
          (if tr.isWrite then cfg.params.col_wr_lat
            else cfg.params.col_rd_lat) tr.row cfg.params.data_lat (some tr)] } := by
  obtain ⟨-, -, hread, hwrite⟩ := longest_bounds cfg.params
  refine h.queue .COL _ tr.row _ (some tr) ?_ ?_
  · split
    · exact hwrite
    · exact hread
  · exact fun _ => ⟨tr, rfl, hopen, hopen ▸ hrow⟩

theorem BankFits.activate (row : UInt32) :
    BankFits cfg rank bank past
      { b with
        row := row
        cmdQ := b.cmdQ ++
          [b.newCmd .ACT cfg.params.rcd_lat row 0 none] } :=
  h.queue .ACT _ row 0 none (longest_bounds _).2.1
    (not_fits_of_ne_col (by simp [Bank.newCmd]))

theorem BankFits.serve (hrow : tr.row ≠ noRow) : BankFits cfg rank bank past (b.serve cfg tr) := by
  by_cases hsame : tr.row = b.row
  · have hcol := h.column hrow hsame
    simpa [Bank.serve, hsame] using hcol
  · by_cases hclosed : b.row = noRow
    · have hcol := (h.activate tr.row).column hrow rfl
      simpa [Bank.serve, hsame, hclosed, hrow, Bank.newCmd] using hcol
    · have hcol := (h.close.activate tr.row).column hrow rfl
      simpa [Bank.serve, Bank.close, hsame, hclosed, Bank.newCmd] using hcol

end

theorem pop_subset {kind : TransactionQ} {queue rest : List Transaction}
    (h : kind.pop row queue = some (tr, rest)) :
    tr ∈ queue ∧ rest ⊆ queue := by
  unfold TransactionQ.pop at h
  split at h
  · cases h
  · rename_i one others
    split at h
    · cases h
      exact ⟨List.mem_cons_self, List.subset_cons_self _ _⟩
    · cases h
      exact ⟨List.mem_cons_self, List.nil_subset _⟩
    · rename_i two others
      split at h
      · cases h
        exact ⟨List.mem_cons_self, List.subset_cons_self _ _⟩
      · split at h
        · cases h
          exact ⟨by simp, by intro x hx; simp at hx ⊢; tauto⟩
        · cases h
          exact ⟨List.mem_cons_self, List.subset_cons_self _ _⟩

theorem BankFits.serveNext (h : BankFits cfg rank bank past b) :
    BankFits cfg rank bank past (b.serveNext cfg) := by
  unfold Bank.serveNext
  split
  · exact h
  · rename_i tr rest hpop
    obtain ⟨htr, hrest⟩ := pop_subset hpop
    refine BankFits.serve ?_ (h.waiting tr htr)
    exact ⟨h.rank_eq, h.bank_eq, h.queued, h.rows, fun t ht => h.waiting t (hrest ht)⟩

theorem BankFits.update (h : BankFits cfg rank bank past b) (current : Nat) :
    BankFits cfg rank bank past (b.update cfg current) := by
  have hpolicy : ∀ state, BankFits cfg rank bank past
      { b with pagePolicy := state } := fun _ =>
    ⟨h.rank_eq, h.bank_eq, h.queued, h.rows, h.waiting⟩
  unfold Bank.update
  split
  · dsimp only
    split
    · exact (hpolicy _).close
    · exact (hpolicy _).serveNext
  · exact h.serveNext

theorem timed_fields (c : Cmd) (cycle bus : Nat) :
    (c.timed cycle bus).rank = c.rank ∧ (c.timed cycle bus).bank = c.bank ∧
      (c.timed cycle bus).op = c.op ∧ (c.timed cycle bus).row = c.row ∧
        (c.timed cycle bus).trans = c.trans ∧ (c.timed cycle bus).cycles = c.cycles ∧
            (c.timed cycle bus).dataCycles = c.dataCycles := by
  unfold Cmd.timed
  dsimp only
  split <;> exact ⟨rfl, rfl, rfl, rfl, rfl, rfl, rfl⟩

theorem fits_timed (c : Cmd) (cycle bus : Nat) (row : UInt32) :
    (c.timed cycle bus).Fits row ↔ c.Fits row := by
  obtain ⟨-, -, hop, -, htrans, -, -⟩ := timed_fields c cycle bus
  unfold Cmd.Fits
  rw [hop, htrans]

theorem rowAfter_timed (c : Cmd) (cycle bus : Nat) (row : UInt32) :
    (c.timed cycle bus).rowAfter row = c.rowAfter row := by
  obtain ⟨-, -, hop, hrow, -, -, -⟩ := timed_fields c cycle bus
  unfold Cmd.rowAfter
  rw [hop, hrow]

/-- What is known of a command that a bank gives away. -/
structure Given (cfg : Config κ) (cycle bus : Nat) (b : Bank κ) (x : Cmd) : Prop where
  issueTime : x.issueTime = cycle
  finiTime : x.finiTime = cycle + x.cycles + x.dataCycles
  busAvail : x.dataBusAvailCycle = x.finiTime
  busFree : bus ≤ cycle + x.cycles
  short : x.cycles + x.dataCycles ≤ cfg.params.longest
  pointer : x.op ≠ .COL → b.lastCmd = none
  next : ∃ c ∈ (b.update cfg cycle).cmdQ.head?, c.op = x.op

theorem update_lastCmd (b : Bank κ) (current : Nat) :
    (b.update cfg current).lastCmd = b.lastCmd := by
  have hnext : ∀ b' : Bank κ, (b'.serveNext cfg).lastCmd = b'.lastCmd := by
    intro b'
    unfold Bank.serveNext
    split <;> rfl
  unfold Bank.update
  dsimp only
  split
  · split
    · rfl
    · exact hnext _
  · exact hnext b

theorem canIssue_eq_true {lastCmd : Option Cmd} (h : c.canIssue lastCmd cycle bus = (true, x)) :
    c.mayFollow cycle lastCmd = true ∧ bus ≤ cycle + c.cycles ∧ x = c.timed cycle bus := by
  unfold Cmd.canIssue at h
  split at h
  · rename_i hfollow
    obtain ⟨hbus, rfl⟩ := Prod.mk.inj h
    exact ⟨hfollow, of_decide_eq_true hbus, rfl⟩
  · exact absurd (Prod.mk.inj h).1 Bool.false_ne_true

theorem canIssue_snd (c : Cmd) (lastCmd : Option Cmd) (cycle bus : Nat) :
    (c.canIssue lastCmd cycle bus).2 = c ∨
      (c.canIssue lastCmd cycle bus).2 = c.timed cycle bus := by
  unfold Cmd.canIssue
  split
  · exact .inr rfl
  · exact .inl rfl

theorem BankFits.popCmd_none (h : BankFits cfg rank bank past b)
    (hpop : b.popCmd cfg cycle bus = (none, b')) :
    BankFits cfg rank bank past b' := by
  have hu := h.update cycle
  unfold Bank.popCmd Bank.popFront at hpop
  split at hpop
  · cases hpop
    exact hu
  · rename_i front rest hqueue
    split at hpop
    · exact absurd (Prod.mk.inj hpop).1 (some_ne_none _)
    · rename_i cmd hissue
      cases hpop
      have hqueued := hu.queued
      have hrows := hu.rows
      rw [hqueue] at hqueued hrows
      have hcmd := canIssue_snd front (b.update cfg cycle).lastCmd cycle bus
      rw [hissue] at hcmd
      rcases hcmd with rfl | rfl
      · exact ⟨hu.rank_eq, hu.bank_eq, hqueued, hrows, hu.waiting⟩
      · obtain ⟨hrank, hbank, -, -, -, hcycles, hdata⟩ := timed_fields front cycle bus
        refine ⟨hu.rank_eq, hu.bank_eq, ?_, ?_, hu.waiting⟩
        · intro c hc
          rcases List.mem_cons.1 hc with rfl | hc
          · rw [hrank, hbank, hcycles, hdata]
            exact hqueued front List.mem_cons_self
          · exact hqueued c (List.mem_cons_of_mem _ hc)
        · refine ⟨(fits_timed _ _ _ _).2 hrows.1, ?_⟩
          rw [rowAfter_timed]
          exact hrows.2

theorem BankFits.popCmd_some (h : BankFits cfg rank bank past b)
    (hpop : b.popCmd cfg cycle bus = (some x, b')) :
    BankFits cfg rank bank (past ++ [x]) b' ∧ x.Fits (openRow past) ∧
      x.rank = rank ∧ x.bank = bank ∧ Given cfg cycle bus b x := by
  have hu := h.update cycle
  unfold Bank.popCmd Bank.popFront at hpop
  split at hpop
  · exact absurd (Prod.mk.inj hpop).1.symm (some_ne_none _)
  · rename_i front rest hqueue
    split at hpop
    · rename_i cmd hissue
      obtain ⟨hx, rfl⟩ := Prod.mk.inj hpop
      cases hx
      obtain ⟨hfollow, hbus, rfl⟩ := canIssue_eq_true hissue
      obtain ⟨hrank, hbank, hop, hrow, -, hcycles, hdata⟩ := timed_fields front cycle bus
      have hqueued := hu.queued
      have hrows := hu.rows
      rw [hqueue] at hqueued hrows
      obtain ⟨hfr, hfb, hshort⟩ := hqueued front List.mem_cons_self
      refine ⟨⟨hu.rank_eq, hu.bank_eq, ?_, ?_, hu.waiting⟩, ?_, ?_, ?_, ?_⟩
      · exact fun c hc => hqueued c (List.mem_cons_of_mem _ hc)
      · rw [openRow_concat, rowAfter_timed]
        exact hrows.2
      · exact (fits_timed _ _ _ _).2 hrows.1
      · rw [hrank, hfr]
      · rw [hbank, hfb]
      · refine ⟨?_, ?_, ?_, ?_, ?_, ?_, ?_⟩
        · unfold Cmd.timed
          dsimp only
          split <;> rfl
        · unfold Cmd.timed
          simp [hbus]
        · unfold Cmd.timed
          simp [hbus]
        · rw [hcycles]
          exact hbus
        · rw [hcycles, hdata]
          exact hshort
        · intro hne
          rw [hop] at hne
          rw [update_lastCmd] at hfollow
          cases hlast : b.lastCmd with
          | none => rfl
          | some last =>
            rw [hlast] at hfollow
            exact absurd (of_decide_eq_true hfollow).1 hne
        · exact ⟨front, by rw [hqueue]; rfl, hop.symm⟩
    · exact absurd (Prod.mk.inj hpop).1.symm (some_ne_none _)

end Banks

section Rounds

variable {κ : Type} (cfg : Config κ) (cycle bus : Nat)

def AskBank (active : Finset Nat) (k : Nat) (b : Bank κ) (out : Option Cmd) (b' : Bank κ) : Prop :=
  k ∈ active ∧ b.popCmd cfg cycle bus = (out, b')

def AskRank (_ : Nat) (r : Rank κ) (out : Option Cmd) (r' : Rank κ) : Prop :=
  r.popCmd cfg cycle bus = (out, r')

variable {cfg cycle bus}

theorem putBank_active_subset (r : Rank κ) (current : Nat) (b : Bank κ) :
    (r.putBank cfg current b).banksActive ⊆ r.banksActive := by
  unfold Rank.putBank
  split
  · exact Finset.erase_subset _ _
  · exact Finset.Subset.refl _

theorem passTurn_banks (r : Rank κ) (current : Nat) : (r.passTurn cfg current).banks = r.banks := by
  unfold Rank.passTurn
  split <;> rfl

variable {r r' : Rank κ} {current n : Nat} {result : Option Cmd} {c c' : Channel κ}
variable {log : List Cmd}

theorem passTurn_lt (h : r.nextBankUp < cfg.numBanks) :
    (r.passTurn cfg current).nextBankUp < cfg.numBanks := by
  unfold Rank.passTurn
  split
  · exact mod_lt _ (zero_lt_of_lt h)
  · exact h

theorem rank_popLoop_round (hn : n ≤ cfg.numBanks) (hcurrent : current < cfg.numBanks)
    (hturn : r.nextBankUp < cfg.numBanks)
    (hpop : Rank.popLoop cfg cycle bus n current r = (result, r')) :
    r'.nextBankUp < cfg.numBanks ∧
      ∃ outs, Round (AskBank cfg cycle bus r.banksActive) cfg.numBanks n
        current r.banks r'.banks outs result := by
  induction n generalizing current r with
  | zero =>
    cases hpop
    exact ⟨hturn, _, Round.done⟩
  | succ n ih =>
    have hnext := mod_lt (current + 1) (zero_lt_of_lt hcurrent)
    unfold Rank.popLoop at hpop
    split at hpop
    · rename_i hactive
      split at hpop
      · rename_i cmd b hbank
        cases hpop
        refine ⟨passTurn_lt hturn, ?_⟩
        rw [passTurn_banks]
        exact ⟨_, Round.stop hcurrent ⟨hactive, hbank⟩⟩
      · rename_i b hbank
        have hput : (r.putBank cfg current b).nextBankUp < cfg.numBanks := hturn
        obtain ⟨hturn', outs, hround⟩ := ih (by omega) hnext hput hpop
        have hround' : Round (AskBank cfg cycle bus r.banksActive)
            cfg.numBanks n ((current + 1) % cfg.numBanks)
            (update r.banks current b) r'.banks outs result :=
          hround.mono fun _ _ _ _ h => ⟨putBank_active_subset r current b h.1, h.2⟩
        exact ⟨hturn', outs, hround'.next hcurrent hn ⟨hactive, hbank⟩⟩
    · obtain ⟨hturn', outs, hround⟩ := ih (by omega) hnext hturn hpop
      exact ⟨hturn', outs, hround.pass⟩

theorem rank_popCmd_round (hturn : 0 < cfg.numBanks → r.nextBankUp < cfg.numBanks)
    (hpop : r.popCmd cfg cycle bus = (result, r')) :
    (0 < cfg.numBanks → r'.nextBankUp < cfg.numBanks) ∧
      ∃ outs, Round (AskBank cfg cycle bus r.banksActive) cfg.numBanks
        cfg.numBanks r.nextBankUp r.banks r'.banks outs result := by
  unfold Rank.popCmd at hpop
  rcases Nat.eq_zero_or_pos cfg.numBanks with hzero | hpos
  · rw [hzero] at hpop ⊢
    cases hpop
    exact ⟨fun h => absurd h (lt_irrefl 0), _, Round.done⟩
  · obtain ⟨h, hround⟩ := rank_popLoop_round (le_refl _) (hturn hpos) (hturn hpos) hpop
    exact ⟨fun _ => h, hround⟩

/-- What a round over the ranks leaves alone. -/
structure SameChannel (cfg : Config κ) (c c' : Channel κ) : Prop where
  bus : c'.dataBusAvailCycle = c.dataBusAvailCycle
  issued : c'.issuedCmds = c.issuedCmds
  retired : c'.retiredTrans = c.retiredTrans
  turn : c.nextRankUp < cfg.numRanks → c'.nextRankUp < cfg.numRanks

theorem channel_popLoop_round (hn : n ≤ cfg.numRanks) (hcurrent : current < cfg.numRanks)
    (hpop : Channel.popLoop cfg cycle n current c = (result, c')) :
    SameChannel cfg c c' ∧ ∃ outs, Round (AskRank cfg cycle c.dataBusAvailCycle.toNat)
        cfg.numRanks n current c.ranks c'.ranks outs result := by
  induction n generalizing current c with
  | zero =>
    cases hpop
    exact ⟨⟨rfl, rfl, rfl, id⟩, _, Round.done⟩
  | succ n ih =>
    have hpos := zero_lt_of_lt hcurrent
    have hnext := mod_lt (current + 1) hpos
    unfold Channel.popLoop at hpop
    split at hpop
    · split at hpop
      · rename_i cmd r hrank
        cases hpop
        split
        · exact ⟨⟨rfl, rfl, rfl, fun _ => mod_lt _ hpos⟩, _, Round.stop hcurrent hrank⟩
        · exact ⟨⟨rfl, rfl, rfl, id⟩, _, Round.stop hcurrent hrank⟩
      · rename_i r hrank
        obtain ⟨hsame, outs, hround⟩ := ih (by omega) hnext hpop
        exact ⟨⟨hsame.bus, hsame.issued, hsame.retired, hsame.turn⟩, outs,
          Round.next hcurrent hn hrank hround⟩
    · obtain ⟨hsame, outs, hround⟩ := ih (by omega) hnext hpop
      exact ⟨hsame, outs, hround.pass⟩

theorem channel_popCmd_round (hturn : 0 < cfg.numRanks → c.nextRankUp < cfg.numRanks)
    (hpop : c.popCmd cfg cycle = (result, c')) :
    SameChannel cfg c c' ∧ ∃ outs, Round (AskRank cfg cycle c.dataBusAvailCycle.toNat)
        cfg.numRanks cfg.numRanks c.nextRankUp c.ranks c'.ranks outs
          result := by
  unfold Channel.popCmd at hpop
  rcases Nat.eq_zero_or_pos cfg.numRanks with hzero | hpos
  · rw [hzero] at hpop ⊢
    cases hpop
    exact ⟨⟨rfl, rfl, rfl, id⟩, _, Round.done⟩
  · exact channel_popLoop_round (le_refl _) (hturn hpos) hpop

/-- The turns of a channel and its ranks are in range. -/
structure Turns (cfg : Config κ) (c : Channel κ) : Prop where
  rank : 0 < cfg.numRanks → c.nextRankUp < cfg.numRanks
  bank : ∀ rank, 0 < cfg.numBanks →
    (c.ranks rank).nextBankUp < cfg.numBanks

theorem channel_popCmd_banks (hturns : Turns cfg c) (hpop : c.popCmd cfg cycle = (result, c')) :
    SameChannel cfg c c' ∧ Turns cfg c' ∧ ∃ outs : Nat → Nat → Option Cmd,
        (∀ j k, ((c'.ranks j).banks k = (c.ranks j).banks k ∧ outs j k = none) ∨
          AskBank cfg cycle c.dataBusAvailCycle.toNat (c.ranks j).banksActive
            k ((c.ranks j).banks k) (outs j k) ((c'.ranks j).banks k)) ∧
        (∀ j k x, outs j k = some x → result = some x) ∧
          ∀ x, result = some x → ∃ j k, outs j k = some x := by
  obtain ⟨hsame, rankOuts, hround⟩ := channel_popCmd_round hturns.rank hpop
  have hbanks : ∀ j, (0 < cfg.numBanks → (c'.ranks j).nextBankUp < cfg.numBanks) ∧
        ∃ outs : Nat → Option Cmd,
          (∀ k, ((c'.ranks j).banks k = (c.ranks j).banks k ∧ outs k = none) ∨
            AskBank cfg cycle c.dataBusAvailCycle.toNat
              (c.ranks j).banksActive k ((c.ranks j).banks k) (outs k) ((c'.ranks j).banks k)) ∧
          (∀ k x, outs k = some x → rankOuts j = some x) ∧
            ∀ x, rankOuts j = some x → ∃ k, outs k = some x := by
    intro j
    rcases hround.visited j with ⟨hkeep, hnone⟩ | hask
    · rw [hkeep, hnone]
      exact ⟨hturns.bank j, fun _ => none, fun _ => .inl ⟨rfl, rfl⟩,
        fun _ _ h => h, fun x h => absurd h.symm (some_ne_none x)⟩
    · obtain ⟨hturn, outs, hinner⟩ := rank_popCmd_round (hturns.bank j) hask
      exact ⟨hturn, outs, hinner.visited, hinner.given, hinner.found⟩
  choose hturn outs hvisited hgiven hfound using hbanks
  refine ⟨hsame, ⟨fun hpos => hsame.turn (hturns.rank hpos), hturn⟩, outs, hvisited, ?_, ?_⟩
  · exact fun j k x h => hround.given j x (hgiven j k x h)
  · intro x hx
    obtain ⟨j, hj⟩ := hround.found x hx
    obtain ⟨k, hk⟩ := hfound j x hj
    exact ⟨j, k, hk⟩

/-- Every bank fits the commands issued to it. -/
def AllFit (cfg : Config κ) (log : List Cmd) (c : Channel κ) : Prop :=
  ∀ rank bank, BankFits cfg rank bank (ofBank rank bank log)
    ((c.ranks rank).banks bank)

theorem AllFit.popCmd_none (h : AllFit cfg log c) (hturns : Turns cfg c)
    (hpop : c.popCmd cfg cycle = (none, c')) :
    AllFit cfg log c' := by
  obtain ⟨-, -, outs, hvisited, hgiven, -⟩ := channel_popCmd_banks hturns hpop
  intro rank bank
  rcases hvisited rank bank with ⟨hkeep, -⟩ | ⟨-, hask⟩
  · rw [hkeep]
    exact h rank bank
  · cases hout : outs rank bank with
    | none =>
      rw [hout] at hask
      exact (h rank bank).popCmd_none hask
    | some x =>
      exact absurd (hgiven rank bank x hout).symm (some_ne_none x)

theorem AllFit.popCmd_some {x : Cmd} (h : AllFit cfg log c) (hturns : Turns cfg c)
    (hpop : c.popCmd cfg cycle = (some x, c')) :
    AllFit cfg (log ++ [x]) c' ∧ x.Fits (openRow (ofBank x.rank x.bank log)) ∧
        x.bank ∈ (c.ranks x.rank).banksActive ∧ Given cfg cycle c.dataBusAvailCycle.toNat
            ((c.ranks x.rank).banks x.bank) x := by
  obtain ⟨-, -, outs, hvisited, hgiven, hfound⟩ := channel_popCmd_banks hturns hpop
  -- Whatever bank gave the command, the command names it.
  have hsome : ∀ j k y, outs j k = some y →
      y = x ∧ x.rank = j ∧ x.bank = k ∧
        k ∈ (c.ranks j).banksActive ∧
        BankFits cfg j k (ofBank j k log ++ [x]) ((c'.ranks j).banks k) ∧
        x.Fits (openRow (ofBank j k log)) ∧
          Given cfg cycle c.dataBusAvailCycle.toNat
            ((c.ranks j).banks k) x := by
    intro j k y hy
    cases hgiven j k y hy
    rcases hvisited j k with ⟨-, hnone⟩ | ⟨hactive, hask⟩
    · rw [hnone] at hy
      exact absurd hy.symm (some_ne_none _)
    · rw [hy] at hask
      obtain ⟨hfit, hrow, hrank, hbank, hinfo⟩ := (h j k).popCmd_some hask
      exact ⟨rfl, hrank, hbank, hactive, hfit, hrow, hinfo⟩
  obtain ⟨j, k, hjk⟩ := hfound x rfl
  obtain ⟨-, rfl, rfl, hactive, -, hrow, hinfo⟩ := hsome j k x hjk
  refine ⟨fun rank bank => ?_, hrow, hactive, hinfo⟩
  rw [ofBank_concat]
  cases hout : outs rank bank with
  | some y =>
    obtain ⟨-, hr, hb, -, hfit, -, -⟩ := hsome rank bank y hout
    rw [if_pos ⟨hr, hb⟩]
    exact hfit
  | none =>
    have hother : ¬ (x.rank = rank ∧ x.bank = bank) := by
      rintro ⟨rfl, rfl⟩
      rw [hjk] at hout
      exact absurd hout (some_ne_none x)
    rw [if_neg hother]
    rcases hvisited rank bank with ⟨hkeep, -⟩ | ⟨-, hask⟩
    · rw [hkeep]
      exact h rank bank
    · rw [hout] at hask
      exact (h rank bank).popCmd_none hask

end Rounds

section Calls

variable {κ : Type} {cfg : Config κ} {log : List Cmd}

theorem AllFit.congr {c c' : Channel κ} (h : AllFit cfg log c)
    (hsame : ∀ rank bank, ∃ lastCmd, (c'.ranks rank).banks bank =
      { (c.ranks rank).banks bank with lastCmd := lastCmd }) :
    AllFit cfg log c' := by
  intro rank bank
  obtain ⟨lastCmd, hbank⟩ := hsame rank bank
  rw [hbank]
  have hfit := h rank bank
  exact ⟨hfit.rank_eq, hfit.bank_eq, hfit.queued, hfit.rows, hfit.waiting⟩

theorem foldl_clearLastCmd (done : List Cmd) (ranks : Nat → Rank κ) :
    ∀ rank, ((done.foldl clearLastCmd ranks) rank).nextBankUp = (ranks rank).nextBankUp ∧
      ∀ bank, ∃ lastCmd, ((done.foldl clearLastCmd ranks) rank).banks bank =
        { (ranks rank).banks bank with lastCmd := lastCmd } := by
  induction done generalizing ranks with
  | nil =>
    exact fun rank => ⟨rfl, fun bank => ⟨_, rfl⟩⟩
  | cons cmd rest ih =>
    intro rank
    have hone : (clearLastCmd ranks cmd rank).nextBankUp =
        (ranks rank).nextBankUp ∧
      ∀ bank, ∃ lastCmd, (clearLastCmd ranks cmd rank).banks bank =
        { (ranks rank).banks bank with lastCmd := lastCmd } := by
      unfold clearLastCmd
      by_cases hrank : rank = cmd.rank
      · subst hrank
        rw [update_self]
        refine ⟨rfl, fun bank => ?_⟩
        by_cases hbank : bank = cmd.bank
        · subst hbank
          exact ⟨none, by simp⟩
        · exact ⟨_, by simp [hbank]; rfl⟩
      · rw [update_of_ne hrank]
        exact ⟨rfl, fun bank => ⟨_, rfl⟩⟩
    obtain ⟨hturn, hbanks⟩ := ih (clearLastCmd ranks cmd) rank
    refine ⟨hturn.trans hone.1, fun bank => ?_⟩
    obtain ⟨last, hlast⟩ := hbanks bank
    obtain ⟨last', hlast'⟩ := hone.2 bank
    exact ⟨last, by rw [List.foldl_cons, hlast, hlast']⟩

variable {c : Channel κ}

theorem AllFit.issue {time : Nat} {id : Nat} {addr : Addr} {isWrite : Bool} {numBytes : Nat}
    (h : AllFit cfg log c) (hrow : cfg.getRow addr ≠ noRow) :
    AllFit cfg log (c.issue cfg time id addr isWrite numBytes).2 := by
  unfold Channel.issue
  split
  · exact h
  · intro rank bank
    have hfit := h rank bank
    dsimp only
    by_cases hrank : rank = cfg.getRank addr
    · subst hrank
      rw [update_self]
      unfold Rank.pushTrans
      dsimp only
      by_cases hbank : bank = cfg.getBank addr
      · subst hbank
        rw [update_self]
        refine ⟨hfit.rank_eq, hfit.bank_eq, hfit.queued, hfit.rows, ?_⟩
        intro tr htr
        rcases List.mem_append.1 htr with htr | htr
        · exact hfit.waiting tr htr
        · rw [List.mem_singleton.1 htr]
          exact hrow
      · rw [update_of_ne hbank]
        exact hfit
    · rw [update_of_ne hrank]
      exact hfit

theorem Turns.issue {time : Nat} {id : Nat} {addr : Addr} {isWrite : Bool} {numBytes : Nat}
    (h : Turns cfg c) :
    Turns cfg (c.issue cfg time id addr isWrite numBytes).2 := by
  unfold Channel.issue
  split
  · exact h
  · refine ⟨h.rank, fun rank hpos => ?_⟩
    dsimp only
    by_cases hrank : rank = cfg.getRank addr
    · subst hrank
      rw [update_self]
      exact h.bank _ hpos
    · rw [update_of_ne hrank]
      exact h.bank rank hpos

/-- The channel when it looks for a command to issue. -/
def Channel.ready (c : Channel κ) (cycle : Nat) : Channel κ := (c.retire cycle).respond

theorem ready_same (c : Channel κ) (cycle : Nat) :
    (c.ready cycle).ranks = (c.retire cycle).ranks ∧ (c.ready cycle).issuedCmds =
        c.issuedCmds.filter (fun cmd => !cmd.isDone cycle) ∧
      (c.ready cycle).dataBusAvailCycle = c.dataBusAvailCycle ∧
      (c.ready cycle).nextRankUp = c.nextRankUp := by
  unfold Channel.ready Channel.respond
  split <;> exact ⟨rfl, rfl, rfl, rfl⟩

theorem AllFit.ready (h : AllFit cfg log c) (cycle : Nat) :
    AllFit cfg log (c.ready cycle) := by
  refine h.congr fun rank bank => ?_
  rw [(ready_same c cycle).1]
  exact (foldl_clearLastCmd _ c.ranks rank).2 bank

theorem Turns.ready (h : Turns cfg c) (cycle : Nat) :
    Turns cfg (c.ready cycle) := by
  obtain ⟨hranks, -, -, hturn⟩ := ready_same c cycle
  refine ⟨fun hpos => by rw [hturn]; exact h.rank hpos, fun rank hpos => ?_⟩
  rw [hranks]
  unfold Channel.retire
  rw [(foldl_clearLastCmd _ c.ranks rank).1]
  exact h.bank rank hpos

theorem start_banks (c : Channel κ) (cmd : Cmd) (rank : Nat) :
    ((c.start cmd).ranks rank).nextBankUp = (c.ranks rank).nextBankUp ∧
      ∀ bank, ∃ lastCmd, ((c.start cmd).ranks rank).banks bank =
        { (c.ranks rank).banks bank with lastCmd := lastCmd } := by
  unfold Channel.start
  dsimp only
  by_cases hrank : rank = cmd.rank
  · subst hrank
    rw [update_self]
    refine ⟨rfl, fun bank => ?_⟩
    by_cases hbank : bank = cmd.bank
    · subst hbank
      exact ⟨some cmd, by simp⟩
    · exact ⟨_, by simp [hbank]; rfl⟩
  · rw [update_of_ne hrank]
    exact ⟨rfl, fun bank => ⟨_, rfl⟩⟩

theorem AllFit.start (h : AllFit cfg log c) (cmd : Cmd) :
    AllFit cfg log (c.start cmd) :=
  h.congr fun rank bank => (start_banks c cmd rank).2 bank

theorem Turns.start (h : Turns cfg c) (cmd : Cmd) : Turns cfg (c.start cmd) :=
  ⟨h.rank, fun rank hpos => by
    rw [(start_banks c cmd rank).1]
    exact h.bank rank hpos⟩

end Calls

section Runs

variable {κ : Type} (cfg : Config κ)

/--
A call that the bookkeeping of the channel can represent.  A transaction is for
a row other than the one that stands for no row.  In a cycle, the longest
command would end before the bus cycle leaves its 32 bits, and an active bank
whose pointer is null although commands of it are in flight has a column
command next.
-/
def Within (s : ChannelRun κ) : Call → Prop
  | .issue _ addr _ _ => cfg.getRow addr ≠ noRow
  | .clock =>
    s.cycle + cfg.params.longest < 2 ^ 32 ∧
      ∀ d ∈ (s.channel.ready s.cycle).issuedCmds,
        d.bank ∈ ((s.channel.ready s.cycle).ranks d.rank).banksActive →
          (((s.channel.ready s.cycle).ranks d.rank).banks d.bank).lastCmd =
            none →
          ∀ x ∈ ((((s.channel.ready s.cycle).ranks d.rank).banks
              d.bank).update cfg s.cycle).cmdQ.head?,
            x.op = .COL

instance (s : ChannelRun κ) (call : Call) : Decidable (Within cfg s call) :=
  match call with
  | .issue _ addr _ _ => inferInstanceAs (Decidable (cfg.getRow addr ≠ noRow))
  | .clock => inferInstanceAs (Decidable (_ ∧ ∀ _ ∈ _, _ → _ → ∀ _ ∈ _, _))

/-- The invariant of a run. -/
structure Sound (s : ChannelRun κ) : Prop where
  turns : Turns cfg s.channel
  fit : AllFit cfg s.log s.channel
  inFlight : ∀ d ∈ s.log, d ∈ s.channel.issuedCmds ∨ d.finiTime ≤ s.cycle
  bus : ∀ d ∈ s.log, d.finiTime ≤ s.channel.dataBusAvailCycle.toNat
  protocol : Protocol s.log

variable {cfg}

theorem sound_start (pagePolicy : κ) : Sound cfg (ChannelRun.start pagePolicy) := by
  constructor
  case turns => exact ⟨fun h => h, fun _ h => h⟩
  case fit =>
      intro rank bank
      refine ⟨rfl, rfl, ?_, rfl, ?_⟩
      · intro c hc
        exact absurd hc List.not_mem_nil
      · intro tr htr
        exact absurd htr List.not_mem_nil
  case inFlight => exact fun d hd => absurd hd List.not_mem_nil
  case bus => exact fun d hd => absurd hd List.not_mem_nil
  case protocol =>
      exact ⟨eachAfter_nil _, eachAfter_nil _, eachAfter_nil _⟩

variable {s t : ChannelRun κ} {d : Cmd}

theorem Sound.mem_ready (h : Sound cfg s) (hd : d ∈ s.log) :
    d ∈ (s.channel.ready s.cycle).issuedCmds ∨ d.finiTime ≤ s.cycle := by
  by_cases hdone : d.finiTime ≤ s.cycle
  · exact .inr hdone
  · refine .inl ?_
    rw [(ready_same s.channel s.cycle).2.1]
    refine List.mem_filter.2 ⟨(h.inFlight d hd).resolve_right hdone, ?_⟩
    simp [Cmd.isDone, hdone]

theorem disjoint_dataInterval {c : Cmd} (h : d.finiTime ≤ c.issueTime + c.cycles) :
    Disjoint d.dataInterval c.dataInterval :=
  Set.disjoint_left.2 fun _ hd hc => absurd (lt_of_lt_of_le hd.2 (h.trans hc.1)) (lt_irrefl _)

theorem sound_clock (h : Sound cfg s) (hwithin : Within cfg s .clock)
    (hstep : s.step cfg .clock = some t) :
    Sound cfg t := by
  obtain ⟨hshort, hstale⟩ := hwithin
  cases hstep
  have hfit := h.fit.ready s.cycle
  have hturns := h.turns.ready s.cycle
  have hbus : (s.channel.ready s.cycle).dataBusAvailCycle =
      s.channel.dataBusAvailCycle := (ready_same _ _).2.2.1
  generalize hpop : (s.channel.ready s.cycle).popCmd cfg s.cycle = result
  obtain ⟨issued, c⟩ := result
  obtain ⟨hsame, hturns', -⟩ := channel_popCmd_banks hturns hpop
  cases issued with
  | none =>
    have hclock : s.channel.clock cfg s.cycle = (none, c) := by
      rw [Channel.ready] at hpop
      rw [Channel.clock, hpop]
    rw [hclock]
    constructor
    case turns => exact hturns'
    case fit => simpa using hfit.popCmd_none hturns hpop
    case inFlight =>
        intro d hd
        rw [hsame.issued]
        exact (h.mem_ready (by simpa using hd)).imp_right
          fun hle => hle.trans (le_succ _)
    case bus =>
        intro d hd
        rw [hsame.bus, hbus]
        exact h.bus d (by simpa using hd)
    case protocol => simpa using h.protocol
  | some x =>
    have hclock : s.channel.clock cfg s.cycle = (some x, c.start x) := by
      rw [Channel.ready] at hpop
      rw [Channel.clock, hpop]
    rw [hclock]
    obtain ⟨hfit', hrow, hactive, hx⟩ := hfit.popCmd_some hturns hpop
    have hbefore : ∀ d ∈ s.log, d.finiTime ≤ x.issueTime + x.cycles := by
      intro d hd
      rw [hx.issueTime]
      have hle := h.bus d hd
      rw [← hbus] at hle
      exact hle.trans hx.busFree
    have hend : x.finiTime < 2 ^ 32 := by
      have := hx.short
      rw [hx.finiTime]
      omega
    have hbus' : (c.start x).dataBusAvailCycle.toNat = x.finiTime := by
      change (UInt32.ofNat x.dataBusAvailCycle).toNat = x.finiTime
      rw [hx.busAvail]
      exact UInt32.toNat_ofNat_of_lt' hend
    constructor
    case turns => exact hturns'.start x
    case fit => simpa using hfit'.start x
    case inFlight =>
        intro d hd
        change d ∈ c.issuedCmds ++ [x] ∨ d.finiTime ≤ s.cycle + 1
        rw [hsame.issued]
        rcases List.mem_append.1 hd with hd | hd
        · exact (h.mem_ready hd).imp (List.mem_append_left _)
            fun hle => hle.trans (le_succ _)
        · exact .inl (List.mem_append_right _ hd)
    case bus =>
        intro d hd
        rw [hbus']
        rcases List.mem_append.1 hd with hd | hd
        · have := hbefore d hd
          rw [hx.finiTime]
          rw [hx.issueTime] at this
          omega
        · obtain rfl : d = x := by simpa using hd
          exact le_refl _
    case protocol =>
        refine protocol_concat h.protocol (findsRowOpen_of_fits hrow) ?_ ?_
        · intro hop d hd hbank
          rw [hx.issueTime]
          rcases h.mem_ready hd with hflight | hdone
          · -- A row command after commands in flight contradicts the
            -- condition on banks with a null pointer.
            obtain ⟨first, hfirst, hfirstOp⟩ := hx.next
            have hcol := hstale d hflight
            rw [hbank.1, hbank.2] at hcol
            exact absurd
              (hfirstOp.symm.trans (hcol hactive (hx.pointer hop) first hfirst)) hop
          · exact decide_eq_true hdone
        · intro _ d hd _
          exact disjoint_dataInterval (hbefore d hd)

theorem sound_step {call : Call} (h : Sound cfg s) (hwithin : Within cfg s call)
    (hstep : s.step cfg call = some t) :
    Sound cfg t := by
  cases call with
  | issue id addr isWrite numBytes =>
    cases hstep
    have hsame : (s.channel.issue cfg s.cycle id addr isWrite
        numBytes).2.issuedCmds = s.channel.issuedCmds ∧
        (s.channel.issue cfg s.cycle id addr isWrite numBytes).2.dataBusAvailCycle =
            s.channel.dataBusAvailCycle := by
      unfold Channel.issue
      split <;> exact ⟨rfl, rfl⟩
    exact ⟨h.turns.issue, h.fit.issue hwithin,
      fun d hd => by rw [hsame.1]; exact h.inFlight d hd,
      fun d hd => by rw [hsame.2]; exact h.bus d hd, h.protocol⟩
  | clock => exact sound_clock h hwithin hstep

/--
In every run all of whose calls the bookkeeping can represent, the commands
issued on the channel respect the protocol of the banks and the bus.
-/
theorem protocol_of_within (pagePolicy : κ) {calls : List Call} {s : ChannelRun κ}
    (hwithin : StepsMeet (ChannelRun.step cfg) (Within cfg) (ChannelRun.start pagePolicy) calls)
    (hrun : runOps (ChannelRun.step cfg) (ChannelRun.start pagePolicy) calls = some s) :
    Protocol s.log :=
  (runOps_invariant_of_stepsMeet
    (fun _ _ _ h hok hstep => sound_step h hok hstep)
    (sound_start pagePolicy) hwithin hrun).protocol

/-- One bank with the default latencies whose rows are left open. -/
def openPageBank : Config Unit where
  params :=
    { col_rd_lat := 11, col_wr_lat := 11, rcd_lat := 11, trp_lat := 11,
      data_lat := 4 }
  transQ := .fifo
  policy :=
    { shouldClose := fun _ _ => (false, ())
      canClose := fun _ => false }
  getRank := fun _ => 0
  getBank := fun _ => 0
  getRow := fun addr => (addr / 16384).toUInt32
  numRanks := 1
  numBanks := 1
  maxPendingTrans := 32

/-- Two reads of different rows. -/
def rowConflict : List Call :=
  [.issue 1 0 false 64, .issue 2 16384 false 64] ++ List.replicate 50 .clock

theorem protocol_of_within_rowConflict :
    ∃ s, runOps (ChannelRun.step openPageBank) (ChannelRun.start ())
        rowConflict = some s ∧
      s.log.map Cmd.op = [.ACT, .COL, .PRE, .ACT, .COL] ∧
        Protocol s.log := by
  have hmap : (runOps (ChannelRun.step openPageBank) (ChannelRun.start ())
      rowConflict).map (fun s => s.log.map Cmd.op) =
        some [.ACT, .COL, .PRE, .ACT, .COL] := by
    decide +kernel
  obtain ⟨s, hrun, hlog⟩ := map_eq_some_iff.1 hmap
  exact ⟨s, hrun, hlog, protocol_of_within () (by decide +kernel) hrun⟩

/-- Two reads of one row, then one of another. -/
def pipelinedReads : List Call :=
  [.issue 1 0 false 64, .issue 2 64 false 64, .issue 3 16384 false 64] ++
    List.replicate 27 .clock

/-- When the first read retires, the second is precharged away in flight. -/
theorem pipelined_read_precharged :
    ¬ ∀ (κ : Type) (cfg : Config κ) (pagePolicy : κ) (calls : List Call)
        (s : ChannelRun κ),
        runOps (ChannelRun.step cfg) (ChannelRun.start pagePolicy) calls =
          some s → Protocol s.log := by
  intro h
  have hmap : (runOps (ChannelRun.step openPageBank) (ChannelRun.start ())
      pipelinedReads).map (fun s => s.log.map
        (fun c => (c.rank, c.bank, c.op, c.issueTime, c.finiTime))) =
        some [(0, 0, .ACT, 0, 11), (0, 0, .COL, 11, 26), (0, 0, .COL, 15, 30),
          (0, 0, .PRE, 26, 37)] := by
    decide +kernel
  obtain ⟨s, hrun, hlog⟩ := map_eq_some_iff.1 hmap
  obtain ⟨act, log₁, hlog₁, -, hlog⟩ := List.map_eq_cons_iff.1 hlog
  obtain ⟨first, log₂, rfl, -, hlog⟩ := List.map_eq_cons_iff.1 hlog
  obtain ⟨second, log₃, rfl, hsecond, hlog⟩ := List.map_eq_cons_iff.1 hlog
  obtain ⟨pre, log₄, rfl, hpre, -⟩ := List.map_eq_cons_iff.1 hlog
  simp only [Prod.mk.injEq] at hsecond hpre
  have hquiet := (h Unit openPageBank () pipelinedReads s hrun).bankQuiet
    [act, first, second] pre log₄ hlog₁ (by rw [hpre.2.2.1]; decide)
    second (by simp) ⟨by rw [hsecond.1, hpre.1],
      by rw [hsecond.2.1, hpre.2.1]⟩
  have hdone := of_decide_eq_true hquiet
  rw [hsecond.2.2.2.2, hpre.2.2.2.1] at hdone
  exact absurd hdone (by decide)

end Runs

end SstElements.MemHierarchy.TimingDRAM
