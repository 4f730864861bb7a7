import PrivilegedHart.Proofs.Access
import PrivilegedHart.Proofs.Counter

/-!
# Aliases

Several registers can show one part of a hart, so that a write to one of them is seen through the others.
`Register.aliases` lists them.  A write changes what its register and its aliases show, and it changes
neither the contents nor the refusal of any other number, at any privilege.

The proof names the parts of a hart (`Cell`) and gives every register two footprints: the cells that a
write may change, and the cells that the outcome of a read depends on.  Registers that are not aliases have
disjoint footprints.
-/

namespace PrivilegedHart

/-- The other registers that a write to a register can be seen through.  The enables of the counters decide
whether the counters can be read at all, each at one privilege. -/
def Register.aliases (reader : Privilege) : Register → List Register
  | .fflags | .frm => [.fcsr, .mstatus, .sstatus]
  | .fcsr => [.fflags, .frm, .mstatus, .sstatus]
  | .mstatus => [.sstatus]
  | .sstatus => [.mstatus]
  | .mie => [.sie]
  | .sie => [.mie]
  | .mip => [.sip]
  | .sip => [.mip]
  | .mideleg => [.sie, .sip]
  | .mcycle => [.cycle]
  | .minstret => [.instret]
  | .mcycleh => [.cycleh]
  | .minstreth => [.instreth]
  | .mucounteren => if reader = .user then [.cycle, .instret, .cycleh, .instreth] else []
  | .mscounteren => if reader = .supervisor then [.cycle, .instret, .cycleh, .instreth] else []
  | _ => []

/-- A number is an alias of itself and of the numbers of the registers that are aliases. -/
def CsrNumber.Aliased (reader : Privilege) (a b : CsrNumber) : Prop :=
  b = a ∨ ∃ row row', CsrRow.find? a = some row ∧ CsrRow.find? b = some row' ∧
    row'.register ∈ row.register.aliases reader

namespace Hart

open HartAction

/-! ## Cells -/

/-- The parts of a hart that registers show and change.  Each counter is two cells. -/
inductive Cell where
  | fflags
  | frm
  | mstatus
  | misa
  | medeleg
  | mideleg
  | mie
  | mtvec
  | mscratch
  | mepc
  | mcause
  | mbadaddr
  | stvec
  | sscratch
  | sepc
  | scause
  | sbadaddr
  | sptbr
  | mucounteren
  | mscounteren
  | mip
  | cycleLow
  | cycleHigh
  | instretLow
  | instretHigh
  deriving DecidableEq

def cell (h : Hart) : Cell → Word
  | .fflags => h.csrs.fflags
  | .frm => h.csrs.frm
  | .mstatus => h.csrs.mstatus
  | .misa => h.csrs.misa
  | .medeleg => h.csrs.medeleg
  | .mideleg => h.csrs.mideleg
  | .mie => h.csrs.mie
  | .mtvec => h.csrs.mtvec
  | .mscratch => h.csrs.mscratch
  | .mepc => h.csrs.mepc
  | .mcause => h.csrs.mcause
  | .mbadaddr => h.csrs.mbadaddr
  | .stvec => h.csrs.stvec
  | .sscratch => h.csrs.sscratch
  | .sepc => h.csrs.sepc
  | .scause => h.csrs.scause
  | .sbadaddr => h.csrs.sbadaddr
  | .sptbr => h.csrs.sptbr
  | .mucounteren => h.csrs.mucounteren
  | .mscounteren => h.csrs.mscounteren
  | .mip => h.mip
  | .cycleLow => h.counters.mcycle &&& Word.lowHalf
  | .cycleHigh => h.counters.mcycle >>> Word.halfShift
  | .instretLow => h.counters.minstret &&& Word.lowHalf
  | .instretHigh => h.counters.minstret >>> Word.halfShift

end Hart

/-! ## Footprints -/

namespace Register

open Hart

/-- The cells of a counter, as the counter register has them. -/
def counterCells (x : Xlen) (low high : Cell) : List Cell := if x.isRv32 then [low] else [low, high]

/-- The cells of the high half of a counter, which is a register of its own on 32-bit harts only. -/
def highCells (x : Xlen) (high : Cell) : List Cell := if x.isRv32 then [high] else []

variable {x : Xlen} {low high : Cell}

theorem low_mem_counterCells : low ∈ counterCells x low high := by
  cases x <;> simp [counterCells, Xlen.isRv32]

theorem high_mem_counterCells (hx : x = .rv64) : high ∈ counterCells x low high := by
  subst hx
  exact List.mem_cons_of_mem _ (List.mem_singleton_self _)

theorem rv32_of_high_not_mem (hhigh : high ∉ counterCells x low high) : x = .rv32 := by
  cases x with
  | rv32 => rfl
  | rv64 => simp [counterCells, Xlen.isRv32] at hhigh

theorem mem_highCells (hx : x = .rv32) : high ∈ highCells x high := by
  subst hx
  exact List.mem_singleton_self _

/-- The cells that a register shows. -/
def cells (x : Xlen) : Register → List Cell
  | fflags => [.fflags]
  | frm => [.frm]
  | fcsr => [.fflags, .frm]
  | mstatus | sstatus => [.mstatus]
  | sie => [.mie, .mideleg]
  | sip => [.mip, .mideleg]
  | mie => [.mie]
  | mip => [.mip]
  | stvec => [.stvec]
  | sscratch => [.sscratch]
  | sepc => [.sepc]
  | scause => [.scause]
  | sbadaddr => [.sbadaddr]
  | sptbr => [.sptbr]
  | misa => [.misa]
  | medeleg => [.medeleg]
  | mideleg => [.mideleg]
  | mtvec => [.mtvec]
  | mucounteren => [.mucounteren]
  | mscounteren => [.mscounteren]
  | mscratch => [.mscratch]
  | mepc => [.mepc]
  | mcause => [.mcause]
  | mbadaddr => [.mbadaddr]
  | mcycle | cycle => counterCells x .cycleLow .cycleHigh
  | minstret | instret => counterCells x .instretLow .instretHigh
  | mcycleh | cycleh => highCells x .cycleHigh
  | minstreth | instreth => highCells x .instretHigh
  | _ => []

def enables : Privilege → List Cell
  | .user => [.mucounteren]
  | .supervisor => [.mscounteren]
  | .machine => []

/-- The cells that the outcome of reading a register depends on. -/
def reads (x : Xlen) (reader : Privilege) : Register → List Cell
  | cycle => enables reader ++ cells x cycle
  | instret => enables reader ++ cells x instret
  | cycleh => if x.isRv32 then enables reader ++ cells x cycleh else []
  | instreth => if x.isRv32 then enables reader ++ cells x instreth else []
  | r => r.cells x

/-- The cells that a write to a register may change. -/
def writes (x : Xlen) : Register → List Cell
  | fflags => [.fflags, .mstatus]
  | frm => [.frm, .mstatus]
  | fcsr => [.fflags, .frm, .mstatus]
  | sie => [.mie]
  | sip => [.mip]
  | cycle | instret | cycleh | instreth => []
  | r => r.cells x

/-- The registers that stand for many numbers cannot be written. -/
theorem first_eq_last_of_mem_writes (x : Xlen) :
    ∀ row ∈ CsrRow.table, row.register.writes x ≠ [] → row.first = row.last := by
  cases x <;> decide +kernel

/-- Wherever the footprints of a write and of a read meet, the registers are the same or aliases. -/
theorem eq_or_mem_aliases_of_mem (x : Xlen) (reader : Privilege) :
    ∀ row ∈ CsrRow.table, ∀ cell ∈ row.register.writes x, ∀ row' ∈ CsrRow.table,
      cell ∈ row'.register.reads x reader →
        row'.register = row.register ∨ row'.register ∈ row.register.aliases reader := by
  cases x <;> cases reader <;> decide +kernel

end Register

namespace Hart

variable {h : Hart} {r : Register} {value : Word}

/-- A register that accepts a value leaves the cells outside its footprint alone. -/
theorem cell_afterInstall {cell : Cell} (hr : h.writeFault? r = none)
    (hcell : cell ∉ r.writes h.xlen) (value : Word) :
    (h.afterInstall r value).cell cell = h.cell cell := by
  cases r with
  | mcycle =>
      cases cell with
      | cycleLow => exact absurd Register.low_mem_counterCells hcell
      | cycleHigh =>
          exact VirtualCounter.high_current_writeLow _ _ _ (Register.rv32_of_high_not_mem hcell)
      | _ => rfl
  | minstret =>
      cases cell with
      | instretLow => exact absurd Register.low_mem_counterCells hcell
      | instretHigh =>
          exact VirtualCounter.high_current_writeLow _ _ _ (Register.rv32_of_high_not_mem hcell)
      | _ => rfl
  | mcycleh =>
      cases cell with
      | cycleLow => exact VirtualCounter.low_current_writeHigh ..
      | cycleHigh => exact absurd (Register.mem_highCells (requireRv32_eq_none_iff.1 hr)) hcell
      | _ => rfl
  | minstreth =>
      cases cell with
      | instretLow => exact VirtualCounter.low_current_writeHigh ..
      | instretHigh => exact absurd (Register.mem_highCells (requireRv32_eq_none_iff.1 hr)) hcell
      | _ => rfl
  | fcsr =>
      simp only [Register.writes, List.mem_cons, List.not_mem_nil, or_false, not_or] at hcell
      obtain ⟨hfflags, hfrm, hmstatus⟩ := hcell
      cases cell with
      | fflags => exact absurd rfl hfflags
      | frm => exact absurd rfl hfrm
      | mstatus => exact absurd rfl hmstatus
      | _ => rfl
  | fflags | frm =>
      simp only [Register.writes, List.mem_cons, List.not_mem_nil, or_false, not_or] at hcell
      obtain ⟨hown, hmstatus⟩ := hcell
      cases cell <;> first | exact absurd rfl hown | exact absurd rfl hmstatus | rfl
  | mstatus | sstatus | sie | mie | sip | mip | stvec | sscratch | sepc | scause | sbadaddr | sptbr
  | misa | medeleg | mideleg | mtvec | mucounteren | mscounteren | mscratch | mepc | mcause
  | mbadaddr =>
      have hown := mt List.mem_singleton.2 hcell
      cases cell <;> first | exact absurd rfl hown | rfl
  -- the others keep nothing of what is written to them
  | _ => rfl

/-! ## Reads depend on their footprints -/

/-- Two harts agree on everything that the outcome of reading a register depends on. -/
structure ReadsAlike (h h' : Hart) (r : Register) : Prop where
  xlen : h'.xlen = h.xlen
  privilege : h'.privilege = h.privilege
  cells : ∀ cell ∈ r.reads h.xlen h.privilege, h'.cell cell = h.cell cell

variable {h' : Hart}

theorem requireRv32_congr (hxlen : h'.xlen = h.xlen) : h'.requireRv32 = h.requireRv32 := by
  rw [requireRv32, requireRv32, hxlen]

theorem requireCounter_congr (hprivilege : h'.privilege = h.privilege)
    (henables : ∀ cell ∈ Register.enables h.privilege, h'.cell cell = h.cell cell) (bit : Nat) :
    h'.requireCounter bit = h.requireCounter bit := by
  have henabled : h'.enabledCounters = h.enabledCounters := by
    unfold enabledCounters
    rw [hprivilege]
    cases hp : h.privilege with
    | machine => rfl
    | user => exact henables .mucounteren (by rw [hp]; exact List.mem_singleton_self _)
    | supervisor => exact henables .mscounteren (by rw [hp]; exact List.mem_singleton_self _)
  rw [requireCounter, requireCounter, henabled]

/-- The high half of a counter asks for a 32-bit hart first, so the enables matter there only. -/
theorem requireHighCounter_congr {rest : List Cell} (hxlen : h'.xlen = h.xlen)
    (hprivilege : h'.privilege = h.privilege)
    (hcells : ∀ cell ∈ if h.xlen.isRv32 then Register.enables h.privilege ++ rest else [],
      h'.cell cell = h.cell cell) (bit : Nat) :
    (h'.requireRv32 <|> h'.requireCounter bit) = (h.requireRv32 <|> h.requireCounter bit) := by
  rw [requireRv32_congr hxlen]
  cases hx : h.requireRv32 with
  | some fault => rfl
  | none =>
      rw [requireRv32_eq_none_iff.1 hx] at hcells
      exact requireCounter_congr hprivilege
        (fun cell hcell => hcells cell (List.mem_append_left _ hcell)) bit

theorem truncate_counter_congr {x : Xlen} {w w' : Word}
    (hlow : w' &&& Word.lowHalf = w &&& Word.lowHalf)
    (hhigh : x = .rv64 → w' >>> Word.halfShift = w >>> Word.halfShift) :
    x.truncate w' = x.truncate w := by
  cases x with
  | rv32 => exact hlow
  | rv64 => rw [Word.eq_of_halves hlow (hhigh rfl)]

theorem truncate_mcycle_congr
    (hcells : ∀ cell ∈ Register.cells h.xlen .mcycle, h'.cell cell = h.cell cell) :
    h.xlen.truncate h'.counters.mcycle = h.xlen.truncate h.counters.mcycle :=
  truncate_counter_congr (hcells .cycleLow Register.low_mem_counterCells)
    fun hx => hcells .cycleHigh (Register.high_mem_counterCells hx)

theorem truncate_minstret_congr
    (hcells : ∀ cell ∈ Register.cells h.xlen .minstret, h'.cell cell = h.cell cell) :
    h.xlen.truncate h'.counters.minstret = h.xlen.truncate h.counters.minstret :=
  truncate_counter_congr (hcells .instretLow Register.low_mem_counterCells)
    fun hx => hcells .instretHigh (Register.high_mem_counterCells hx)

namespace ReadsAlike

theorem readFault?_eq (alike : ReadsAlike h h' r) : h'.readFault? r = h.readFault? r := by
  obtain ⟨hxlen, hprivilege, hcells⟩ := alike
  cases r with
  | cycle | instret =>
      exact requireCounter_congr hprivilege
        (fun cell hcell => hcells cell (List.mem_append_left _ hcell)) _
  | cycleh | instreth => exact requireHighCounter_congr hxlen hprivilege hcells _
  | mcycleh | minstreth | mhpmcounterh | hpmcounterh => exact requireRv32_congr hxlen
  | _ => rfl

theorem truncate_view_eq (alike : ReadsAlike h h' r) (hr : h.readFault? r = none) :
    h'.xlen.truncate (h'.view r) = h.xlen.truncate (h.view r) := by
  obtain ⟨hxlen, hprivilege, hcells⟩ := alike
  rw [hxlen]
  cases r with
  | mcycle => exact truncate_mcycle_congr hcells
  | minstret => exact truncate_minstret_congr hcells
  | cycle => exact truncate_mcycle_congr fun cell hcell => hcells cell (List.mem_append_right _ hcell)
  | instret =>
      exact truncate_minstret_congr fun cell hcell => hcells cell (List.mem_append_right _ hcell)
  | mcycleh =>
      have hx : h.xlen = .rv32 := requireRv32_eq_none_iff.1 hr
      exact congrArg _ (hcells .cycleHigh (Register.mem_highCells hx))
  | minstreth =>
      have hx : h.xlen = .rv32 := requireRv32_eq_none_iff.1 hr
      exact congrArg _ (hcells .instretHigh (Register.mem_highCells hx))
  | cycleh =>
      have hx : h.xlen = .rv32 := requireRv32_eq_none_iff.1 (requireRv32_of_orElse hr)
      simp only [Register.reads, hx] at hcells
      exact congrArg _ (hcells .cycleHigh (List.mem_append_right _ (Register.mem_highCells rfl)))
  | instreth =>
      have hx : h.xlen = .rv32 := requireRv32_eq_none_iff.1 (requireRv32_of_orElse hr)
      simp only [Register.reads, hx] at hcells
      exact congrArg _ (hcells .instretHigh (List.mem_append_right _ (Register.mem_highCells rfl)))
  | _ =>
      simp only [Register.reads, Register.cells, List.forall_mem_cons, List.not_mem_nil, cell]
        at hcells
      simp only [view, hxlen, hcells]

end ReadsAlike

/-! ## Writes are seen through aliases only -/

/-- Everything of a hart that no register is made of is the same, and so is the raw count behind the
counters. -/
structure SameRest (h h' : Hart) : Prop where
  xlen : h'.xlen = h.xlen
  maxIsa : h'.maxIsa = h.maxIsa
  physAddrBits : h'.physAddrBits = h.physAddrBits
  hartId : h'.hartId = h.hartId
  privilege : h'.privilege = h.privilege
  pc : h'.pc = h.pc
  pendingCause : h'.pendingCause = h.pendingCause
  badaddr : h'.badaddr = h.badaddr
  waiting : h'.waiting = h.waiting
  raw : h'.counters.raw = h.counters.raw

theorem sameRest_afterInstall (h : Hart) (r : Register) (value : Word) :
    SameRest h (h.afterInstall r value) := by
  cases r <;> exact ⟨rfl, rfl, rfl, rfl, rfl, rfl, rfl, rfl, rfl, rfl⟩

theorem readDecision_congr {n : CsrNumber} (hprivilege : h'.privilege = h.privilege)
    (halike : ∀ row, CsrRow.find? n = some row → ReadsAlike h h' row.register) :
    h'.readDecision n = h.readDecision n := by
  have hcontents : h'.contents n = h.contents n := by
    cases hrow : CsrRow.find? n with
    | none => rw [contents, contents, hrow]
    | some row =>
        have alike := halike row hrow
        rw [contents_of_find? hrow, contents_of_find? hrow, alike.readFault?_eq]
        cases hr : h.readFault? row.register with
        | some fault => rfl
        | none => exact congrArg Except.ok (alike.truncate_view_eq hr)
  rw [readDecision, readDecision, hcontents, denies, denies, hprivilege]

theorem aliased_of_mem {a b : CsrNumber} {reader : Privilege} {row row' : CsrRow} {x : Xlen}
    {cell : Cell} (ha : CsrRow.find? a = some row) (hb : CsrRow.find? b = some row')
    (hread : cell ∈ row'.register.reads x reader) (hwritten : cell ∈ row.register.writes x) :
    CsrNumber.Aliased reader a b := by
  have hmem := List.mem_of_find?_eq_some ha
  have hmem' := List.mem_of_find?_eq_some hb
  rcases Register.eq_or_mem_aliases_of_mem x reader row hmem cell hwritten row' hmem' hread with
    hsame | haliases
  · have hone : row.first = row.last :=
      Register.first_eq_last_of_mem_writes x row hmem (List.ne_nil_of_mem hwritten)
    exact .inl (CsrRow.number_eq ha hb hsame hone)
  · exact .inr ⟨row, row', ha, hb, haliases⟩

theorem readsAlike_afterInstall {a b : CsrNumber} {reader : Privilege} {row : CsrRow}
    (hwrite : h.writeDecision a = .ok r) (hb : CsrRow.find? b = some row)
    (haliased : ¬ CsrNumber.Aliased reader a b) (value : Word) :
    ReadsAlike { h with privilege := reader } { h.afterInstall r value with privilege := reader }
      row.register := by
  obtain ⟨written, ha, rfl⟩ := find?_of_writeDecision hwrite
  refine ⟨xlen_afterInstall .., rfl, ?_⟩
  intro cell hread
  -- a cell of both footprints would make `b` an alias
  refine cell_afterInstall (of_writeDecision hwrite).2 ?_ value
  intro hwritten
  exact haliased (aliased_of_mem ha hb hread hwritten)

/-- A write that succeeds changes what can be read through its number and its aliases, and nothing else.
Reading any other number gives the same value or the same refusal as before, whatever the privilege of the
reader, and no part of the hart outside the registers changes. -/
theorem write_only_aliases (answers : Answers) (h : Hart) (a : CsrNumber) (value : Word)
    (hwrite : ((writeCsr a value).run answers h).result = .ok ()) :
    let h' := ((writeCsr a value).run answers h).hart
    SameRest h h' ∧
      ∀ (b : CsrNumber) (reader : Privilege), ¬ CsrNumber.Aliased reader a b →
        ∀ before after : Answers,
          ((readCsr b).run after { h' with privilege := reader }).result =
            ((readCsr b).run before { h with privilege := reader }).result := by
  intro h'
  obtain ⟨r, hdecision⟩ := writeDecision_of_result_writeCsr hwrite
  have hh' : h' = h.afterInstall r (h.xlen.truncate value) :=
    (comesTo_writeCsr hdecision value).hart_eq
  rw [hh']
  refine ⟨sameRest_afterInstall .., ?_⟩
  intro b reader haliased before after
  rw [result_readCsr, result_readCsr]
  refine congrArg _ (readDecision_congr rfl ?_)
  intro row hb
  exact readsAlike_afterInstall hdecision hb haliased _

theorem not_aliased_halves (reader : Privilege) :
    ¬ CsrNumber.Aliased reader CsrNumber.mcycle CsrNumber.mcycleh := by
  rintro (hsame | ⟨row, row', ha, hb, hmem⟩)
  · exact absurd hsame (by decide)
  · cases ha
    cases hb
    have hcycle : Register.mcycleh = .cycle := List.mem_singleton.1 hmem
    cases hcycle

/-- On a 32-bit hart whose cycle counter has passed `2 ^ 32`, a write of the low half is not seen in the
high half. -/
theorem write_only_aliases_halves :
    let h := (atReset { xlen := .rv32 } .machine).retire 0x100000005
    let written := (writeCsr .mcycle 7).run .identity h
    written.result = .ok () ∧ ((readCsr .mcycleh).run .identity h).result = .ok 1 ∧
      ((readCsr .mcycleh).run .identity { written.hart with privilege := .machine }).result =
        .ok 1 := by
  have hdecision :
      ((atReset { xlen := .rv32 } .machine).retire 0x100000005).writeDecision .mcycle =
        .ok .mcycle := by rfl
  have hbefore :
      ((atReset { xlen := .rv32 } .machine).retire 0x100000005).readDecision .mcycleh = .ok 1 := by
    rfl
  intro h written
  have hwrite : written.result = .ok () := (comesTo_writeCsr hdecision 7).result_eq
  have hread : ((readCsr .mcycleh).run .identity h).result = .ok 1 :=
    result_readCsr_eq_ok_iff.2 hbefore
  obtain ⟨-, hframe⟩ := write_only_aliases .identity h .mcycle 7 hwrite
  have hsame := hframe .mcycleh .machine (not_aliased_halves _) .identity .identity
  exact ⟨hwrite, hread, hsame.trans hread⟩

end Hart
end PrivilegedHart
