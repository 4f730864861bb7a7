import PrivilegedHart.Proofs.Access

/-!
# Which accesses go through

Whether an access goes through is settled by its number, the privilege, the register width and, for four
counters, the enables of Machine mode.  The rule is stated here without the table, apart from which numbers
it covers: levels and read-only registers are read off the number, and the registers with rules of their own
are named.  It holds of every hart, reachable or not, and of all numbers with sixteen bits.
-/

namespace PrivilegedHart

/-! ## The table and the numbers -/

namespace CsrNumber

/-- A number lies in one of some ranges, each given by its first and its last number. -/
def Among (ranges : List (CsrNumber × CsrNumber)) (n : CsrNumber) : Prop :=
  ∃ range ∈ ranges, range.1 ≤ n ∧ n ≤ range.2

/-- The debug registers, which have no model. -/
def debugRegisters : List (CsrNumber × CsrNumber) :=
  [(tdata1, tdata1), (tdata2, tdata2), (tdata3, tdata3), (dcsr, dcsr)]

/-- The high halves of counters, which only 32-bit harts have. -/
def highHalves : List (CsrNumber × CsrNumber) :=
  [(mcycleh, mcycleh), (minstreth, minstreth), (mhpmcounter3h, mhpmcounter31h), (cycleh, cycleh),
    (instreth, instreth), (hpmcounter3h, hpmcounter31h)]

/-- The high halves that can be written. -/
def writableHighHalves : List (CsrNumber × CsrNumber) :=
  [(mcycleh, mcycleh), (minstreth, minstreth)]

/-- The event registers of Machine mode, which read as zero and cannot be written. -/
def eventRegisters : List (CsrNumber × CsrNumber) :=
  [(mhpmevent3, mhpmevent31), (mhpmcounter3, mhpmcounter31), (mhpmcounter3h, mhpmcounter31h)]

/-- The counters that lower privileges may read only where Machine mode has enabled them. -/
def enabledCounters : List (CsrNumber × CsrNumber) :=
  [(cycle, cycle), (instret, instret), (cycleh, cycleh), (instreth, instreth)]

end CsrNumber

namespace Register

def isHighHalf : Register → Bool
  | cycleh | instreth | hpmcounterh | mcycleh | minstreth | mhpmcounterh => true
  | _ => false

def isWritableHighHalf : Register → Bool
  | mcycleh | minstreth => true
  | _ => false

def isEventRegister : Register → Bool
  | mhpmevent | mhpmcounter | mhpmcounterh => true
  | _ => false

/-- The registers that are read-only by their numbers. -/
def isReadOnly : Register → Bool
  | cycle | instret | hpmcounter | cycleh | instreth | hpmcounterh => true
  | mvendorid | marchid | mimpid | mhartid => true
  | _ => false

/-- The bit of a counter in the enables of Machine mode. -/
def enableBit? : Register → Option Nat
  | cycle | cycleh => some 0
  | instret | instreth => some 2
  | _ => none

end Register

namespace CsrAccess

/-- The access rule of a number depends on its page of 256 numbers. -/
theorem decode_congr {n m : CsrNumber} (hpage : n >>> 8 = m >>> 8) : decode n = decode m := by
  have hhigh : n >>> 10 = m >>> 10 := by
    rw [show 10 = 8 + 2 from rfl, BitVec.shiftRight_add, BitVec.shiftRight_add, hpage]
  rw [decode, decode, hpage, hhigh]

theorem minLevel_decode (n : CsrNumber) : (decode n).minLevel = (n.extractLsb 9 8).toNat := by
  rw [decode, BitVec.toNat_and, BitVec.extractLsb_toNat, BitVec.toNat_ushiftRight]
  exact Nat.and_two_pow_sub_one_eq_mod _ 2

theorem readOnly_decode (n : CsrNumber) :
    (decode n).readOnly = (n.getLsbD 10 && n.getLsbD 11) := by
  have hmask : ((n >>> 10) &&& 0b11).toNat = n.toNat / 1024 % 4 := by
    rw [BitVec.toNat_and, BitVec.toNat_ushiftRight, Nat.shiftRight_eq_div_pow]
    exact Nat.and_two_pow_sub_one_eq_mod _ 2
  rw [Bool.eq_iff_iff, Bool.and_eq_true, decode, beq_iff_eq, ← BitVec.toNat_inj, hmask]
  simp only [BitVec.getLsbD, Nat.testBit_eq_decide_div_mod_eq, decide_eq_true_eq]
  change n.toNat / 1024 % 4 = 3 ↔ _
  omega

end CsrAccess

namespace CsrRow

variable {n : CsrNumber} {row : CsrRow}

theorem contains_iff : row.contains n = true ↔ row.first ≤ n ∧ n ≤ row.last := by
  rw [contains, Bool.and_eq_true, decide_eq_true_eq, decide_eq_true_eq]

theorem find?_of_ordered {rows : List CsrRow} (hrows : rows.Pairwise fun a b => a.last < b.first)
    (hmem : row ∈ rows) (hn : row.contains n = true) : rows.find? (·.contains n) = some row := by
  induction rows with
  | nil => cases hmem
  | cons first rows ih =>
      rw [List.pairwise_cons] at hrows
      rcases List.mem_cons.1 hmem with rfl | hmem
      · exact List.find?_cons_of_pos hn
      · -- a row that begins after the first one has no number in common with it
        have hnot : first.contains n = false := by
          rw [← Bool.not_eq_true]
          intro hfirst
          have hlt := hrows.1 row hmem
          rw [contains_iff, BitVec.le_def, BitVec.le_def] at hfirst hn
          rw [BitVec.lt_def] at hlt
          omega
        rw [List.find?_cons, hnot]
        exact ih hrows.2 hmem

/-- Rows do not overlap, so a number has no more than one. -/
theorem find?_eq_some_iff : find? n = some row ↔ row ∈ table ∧ row.contains n = true := by
  constructor
  · intro hrow
    unfold find? at hrow
    have hn := List.find?_some hrow
    exact ⟨List.mem_of_find?_eq_some hrow, hn⟩
  · rintro ⟨hmem, hn⟩
    exact find?_of_ordered table_ordered.2 hmem hn

/-- The rule that a row states is the one that each of its numbers encodes. -/
theorem accessOf_eq_decode (n : CsrNumber) : accessOf n = .decode n := by
  have hpages : ∀ row ∈ table, row.first >>> 8 = row.last >>> 8 := by decide +kernel
  cases hrow : find? n with
  | none => rw [accessOf, hrow]
  | some row =>
      obtain ⟨hmem, hn⟩ := find?_eq_some_iff.1 hrow
      rw [accessOf_eq hrow, ← (access_eq_decode row hmem).1]
      refine CsrAccess.decode_congr ?_
      rw [contains_iff, BitVec.le_def, BitVec.le_def] at hn
      have hpage := congrArg BitVec.toNat (hpages row hmem)
      apply BitVec.eq_of_toNat_eq
      simp only [BitVec.toNat_ushiftRight, Nat.shiftRight_eq_div_pow] at hpage ⊢
      omega

/-- The numbers of the rows whose registers have a property. -/
theorem among_iff (p : Register → Bool) :
    n.Among ((table.filter fun row => p row.register).map fun row => (row.first, row.last)) ↔
      ∃ row, find? n = some row ∧ p row.register = true := by
  simp only [CsrNumber.Among, List.mem_map, List.mem_filter, find?_eq_some_iff, contains_iff]
  constructor
  · rintro ⟨_, ⟨row, ⟨hmem, hp⟩, rfl⟩, hn⟩
    exact ⟨row, ⟨hmem, hn⟩, hp⟩
  · rintro ⟨row, ⟨hmem, hn⟩, hp⟩
    exact ⟨_, ⟨row, ⟨hmem, hp⟩, rfl⟩, hn⟩

theorem among_iff_of_find? (hrow : find? n = some row) (p : Register → Bool) :
    n.Among ((table.filter fun row => p row.register).map fun row => (row.first, row.last)) ↔
      p row.register = true := by
  rw [among_iff]
  constructor
  · rintro ⟨row', hrow', hp⟩
    cases hrow.symm.trans hrow'
    exact hp
  · intro hp
    exact ⟨row, hrow, hp⟩

theorem among_debugRegisters_iff :
    n.Among CsrNumber.debugRegisters ↔ ∃ row, find? n = some row ∧ row.register.isDebug = true :=
  among_iff Register.isDebug

theorem among_highHalves_iff (hrow : find? n = some row) :
    n.Among CsrNumber.highHalves ↔ row.register.isHighHalf = true :=
  among_iff_of_find? hrow Register.isHighHalf

theorem among_writableHighHalves_iff (hrow : find? n = some row) :
    n.Among CsrNumber.writableHighHalves ↔ row.register.isWritableHighHalf = true :=
  among_iff_of_find? hrow Register.isWritableHighHalf

theorem among_eventRegisters_iff (hrow : find? n = some row) :
    n.Among CsrNumber.eventRegisters ↔ row.register.isEventRegister = true :=
  among_iff_of_find? hrow Register.isEventRegister

theorem among_enabledCounters_iff (hrow : find? n = some row) :
    n.Among CsrNumber.enabledCounters ↔ row.register.enableBit?.isSome = true :=
  among_iff_of_find? hrow fun r => r.enableBit?.isSome

theorem isReadOnly_register :
    ∀ row ∈ table, row.register.isReadOnly = row.access.readOnly := by decide

/-- The enable of a counter is named by the number of the counter. -/
theorem enableBit?_register (hrow : find? n = some row) {bit : Nat}
    (hbit : row.register.enableBit? = some bit) : bit = n.toNat % 32 := by
  have hrows : ∀ row ∈ table, ∀ bit ∈ row.register.enableBit?,
      row.first = row.last ∧ bit = row.first.toNat % 32 := by
    decide +kernel
  obtain ⟨hmem, hn⟩ := find?_eq_some_iff.1 hrow
  obtain ⟨hone, rfl⟩ := hrows row hmem bit hbit
  rw [contains_iff, ← hone] at hn
  rw [BitVec.le_antisymm hn.1 hn.2]

end CsrRow

namespace Hart

open HartAction

variable {h : Hart} {n : CsrNumber}

/-! ## The rule -/

/-- A number is covered by the table, and its level is not above the privilege. -/
structure Accessible (h : Hart) (n : CsrNumber) : Prop where
  covered : ∃ row ∈ CsrRow.table, row.contains n = true
  level : (n.extractLsb 9 8).toNat ≤ h.privilege.level

/-- An access comes to a register without a model, which only Machine mode can reach. -/
def Unmodelled (h : Hart) (n : CsrNumber) : Prop :=
  h.privilege = .machine ∧ n.Among CsrNumber.debugRegisters

structure Readable (h : Hart) (n : CsrNumber) : Prop extends Accessible h n where
  width : n.Among CsrNumber.highHalves → h.xlen = .rv32
  enabled : n.Among CsrNumber.enabledCounters →
    (h.privilege = .user → h.csrs.mucounteren.getLsbD (n.toNat % 32) = true) ∧
      (h.privilege = .supervisor → h.csrs.mscounteren.getLsbD (n.toNat % 32) = true)

structure Writable (h : Hart) (n : CsrNumber) : Prop extends Accessible h n where
  readWrite : ¬ (n.getLsbD 10 = true ∧ n.getLsbD 11 = true)
  noEvent : ¬ n.Among CsrNumber.eventRegisters
  width : n.Among CsrNumber.writableHighHalves → h.xlen = .rv32

/-- An access ends by a rule: it is fatal if the rule says so, otherwise it goes through or is illegal. -/
structure EndsBy {α : Type} (fatal allowed : Prop) (result : Except Unwind α) : Prop where
  fatal_iff : (∃ error, result = .error (.fatal error)) ↔ fatal
  ok_iff : (∃ a, result = .ok a) ↔ ¬ fatal ∧ allowed
  illegal_iff : result = .error (.exception .illegalInstruction) ↔ ¬ fatal ∧ ¬ allowed

/-! ## Access rules and register rules -/

theorem accessible_iff {row : CsrRow} (hrow : CsrRow.find? n = some row) :
    Accessible h n ↔ h.denies n false = false := by
  rw [denies, CsrRow.accessOf_eq_decode, CsrAccess.minLevel_decode]
  simp only [Bool.false_and, Bool.false_or, decide_eq_false_iff_not, Nat.not_lt]
  constructor
  · intro accessible
    exact accessible.level
  · intro hlevel
    exact ⟨⟨row, CsrRow.find?_eq_some_iff.1 hrow⟩, hlevel⟩

theorem denies_true_iff :
    h.denies n true = false ↔
      h.denies n false = false ∧ ¬ (n.getLsbD 10 = true ∧ n.getLsbD 11 = true) := by
  simp only [denies, CsrRow.accessOf_eq_decode, CsrAccess.readOnly_decode, Bool.true_and,
    Bool.false_and, Bool.false_or, Bool.or_eq_false_iff]
  rw [and_comm, ← Bool.and_eq_true, Bool.not_eq_true]

theorem requireCounter_eq_none_iff {bit : Nat} (hbit : bit < 32) :
    h.requireCounter bit = none ↔
      (h.privilege = .user → h.csrs.mucounteren.getLsbD bit = true) ∧
        (h.privilege = .supervisor → h.csrs.mscounteren.getLsbD bit = true) := by
  have hall : (BitVec.allOnes 64).getLsbD bit = true := by
    rw [BitVec.getLsbD_allOnes, decide_eq_true (by omega)]
  cases hp : h.privilege <;> simp only [requireCounter, enabledCounters, hp, hall] <;> simp

theorem readFault?_eq_none_iff (r : Register) :
    h.readFault? r = none ↔ r.isDebug = false ∧ (r.isHighHalf = true → h.requireRv32 = none) ∧
      ∀ bit, r.enableBit? = some bit → h.requireCounter bit = none := by
  cases r <;> simp [readFault?, Register.isDebug, Register.isHighHalf, Register.enableBit?]

theorem writeFault?_eq_none_iff (r : Register) :
    h.writeFault? r = none ↔ r.isDebug = false ∧ r.isReadOnly = false ∧ r.isEventRegister = false ∧
      (r.isWritableHighHalf = true → h.requireRv32 = none) := by
  cases r <;> simp [writeFault?, Register.isDebug, Register.isReadOnly, Register.isEventRegister,
    Register.isWritableHighHalf]

/-- Machine mode reaches every debug register, and comes no further. -/
theorem denies_of_isDebug {row : CsrRow} (hrow : CsrRow.find? n = some row)
    (hdebug : row.register.isDebug = true) (hmachine : h.privilege = .machine) (isWrite : Bool) :
    h.denies n isWrite = false := by
  have hreadWrite : row.access.readOnly = false := by
    rw [← Bool.not_eq_true]
    intro hreadOnly
    rw [CsrRow.not_isDebug_of_readOnly row (CsrRow.find?_eq_some_iff.1 hrow).1 hreadOnly] at hdebug
    cases hdebug
  have hlevel : (n.extractLsb 9 8).toNat < 2 ^ 2 := BitVec.isLt _
  rw [← CsrAccess.minLevel_decode, ← CsrRow.accessOf_eq_decode] at hlevel
  simp only [denies, hmachine, Privilege.level, Bool.or_eq_false_iff, Bool.and_eq_false_iff,
    decide_eq_false_iff_not]
  refine ⟨Or.inr ?_, by omega⟩
  rw [CsrRow.accessOf_eq hrow, hreadWrite]

theorem isDebug_eq_false {row : CsrRow} {isWrite : Bool} (hrow : CsrRow.find? n = some row)
    (hallowed : h.denies n isWrite = false) (hmodelled : ¬ Unmodelled h n) :
    row.register.isDebug = false := by
  rw [← Bool.not_eq_true]
  intro hdebug
  exact hmodelled ⟨machine_of_isDebug hrow hdebug hallowed,
    CsrRow.among_debugRegisters_iff.2 ⟨row, hrow, hdebug⟩⟩

theorem fault_of_isDebug {r : Register} (hdebug : r.isDebug = true) :
    h.readFault? r = some .unimplemented ∧ h.writeFault? r = some .unimplemented := by
  cases r <;> first | exact ⟨rfl, rfl⟩ | cases hdebug

/-! ## Reads -/

theorem readDecision_unimplemented_iff :
    h.readDecision n = .error .unimplemented ↔ Unmodelled h n := by
  rw [Unmodelled, CsrRow.among_debugRegisters_iff]
  constructor
  · intro hread
    have hmachine := machine_of_readDecision hread
    cases hallowed : h.denies n false with
    | true => simp [readDecision, hallowed] at hread
    | false =>
        rw [readDecision_eq_contents hallowed] at hread
        exact ⟨hmachine, isDebug_of_contents hread⟩
  · rintro ⟨hmachine, row, hrow, hdebug⟩
    rw [readDecision_eq_contents (denies_of_isDebug hrow hdebug hmachine false),
      contents_of_find? hrow, (fault_of_isDebug hdebug).1]

/-- On a number with a row, the rule for reads is what the number and the register ask for. -/
theorem readable_iff {row : CsrRow} (hrow : CsrRow.find? n = some row) :
    Readable h n ↔ h.denies n false = false ∧
      (row.register.isHighHalf = true → h.requireRv32 = none) ∧
        ∀ bit, row.register.enableBit? = some bit → h.requireCounter bit = none := by
  have henabled : (n.Among CsrNumber.enabledCounters → h.requireCounter (n.toNat % 32) = none) ↔
      ∀ bit, row.register.enableBit? = some bit → h.requireCounter bit = none := by
    rw [CsrRow.among_enabledCounters_iff hrow, Option.isSome_iff_exists]
    constructor
    · intro hcounter bit hbit
      rw [CsrRow.enableBit?_register hrow hbit]
      exact hcounter ⟨bit, hbit⟩
    · rintro hcounter ⟨bit, hbit⟩
      rw [← CsrRow.enableBit?_register hrow hbit]
      exact hcounter bit hbit
  rw [requireCounter_eq_none_iff (Nat.mod_lt _ (by omega))] at henabled
  rw [← accessible_iff hrow, requireRv32_eq_none_iff, ← CsrRow.among_highHalves_iff hrow, ← henabled]
  constructor
  · intro readable
    exact ⟨readable.toAccessible, readable.width, readable.enabled⟩
  · rintro ⟨accessible, hwidth, hcounter⟩
    exact { accessible with width := hwidth, enabled := hcounter }

theorem exists_readDecision_iff :
    (∃ value, h.readDecision n = .ok value) ↔ ¬ Unmodelled h n ∧ Readable h n := by
  constructor
  · rintro ⟨value, hread⟩
    obtain ⟨hallowed, row, hrow, hfault, -⟩ := of_readDecision hread
    obtain ⟨-, hrules⟩ := (readFault?_eq_none_iff _).1 hfault
    refine ⟨?_, (readable_iff hrow).2 ⟨hallowed, hrules⟩⟩
    rw [← readDecision_unimplemented_iff, hread]
    exact nofun
  · rintro ⟨hmodelled, readable⟩
    obtain ⟨row, hcovered⟩ := readable.covered
    have hrow := CsrRow.find?_eq_some_iff.2 hcovered
    obtain ⟨hallowed, hrules⟩ := (readable_iff hrow).1 readable
    have hdebug := isDebug_eq_false hrow hallowed hmodelled
    have hfault := (readFault?_eq_none_iff row.register).2 ⟨hdebug, hrules⟩
    exact ⟨_, readDecision_of_find? hrow hallowed hfault⟩

/-! ## Writes -/

theorem writeDecision_unimplemented_iff :
    h.writeDecision n = .error .unimplemented ↔ Unmodelled h n := by
  rw [Unmodelled, CsrRow.among_debugRegisters_iff]
  constructor
  · intro hwrite
    have hmachine := machine_of_writeDecision hwrite
    cases hallowed : h.denies n true with
    | true => simp [writeDecision, hallowed] at hwrite
    | false =>
        rw [writeDecision_eq_target hallowed] at hwrite
        exact ⟨hmachine, isDebug_of_target hwrite⟩
  · rintro ⟨hmachine, row, hrow, hdebug⟩
    rw [writeDecision_eq_target (denies_of_isDebug hrow hdebug hmachine true),
      target_of_find? hrow, (fault_of_isDebug hdebug).2]

/-- On a number with a row, the rule for writes is what the number and the register ask for. -/
theorem writable_iff {row : CsrRow} (hrow : CsrRow.find? n = some row) :
    Writable h n ↔ h.denies n true = false ∧ row.register.isEventRegister = false ∧
      (row.register.isWritableHighHalf = true → h.requireRv32 = none) := by
  rw [denies_true_iff, ← accessible_iff hrow, ← Bool.not_eq_true,
    ← CsrRow.among_eventRegisters_iff hrow, ← CsrRow.among_writableHighHalves_iff hrow,
    requireRv32_eq_none_iff]
  constructor
  · intro writable
    exact ⟨⟨writable.toAccessible, writable.readWrite⟩, writable.noEvent, writable.width⟩
  · rintro ⟨⟨accessible, hreadWrite⟩, hnoEvent, hwidth⟩
    exact { accessible with readWrite := hreadWrite, noEvent := hnoEvent, width := hwidth }

theorem exists_writeDecision_iff :
    (∃ r, h.writeDecision n = .ok r) ↔ ¬ Unmodelled h n ∧ Writable h n := by
  constructor
  · rintro ⟨r, hwrite⟩
    obtain ⟨hallowed, row, hrow, hfault, -⟩ := writeDecision_eq_ok_iff.1 hwrite
    obtain ⟨-, -, hrules⟩ := (writeFault?_eq_none_iff _).1 hfault
    refine ⟨?_, (writable_iff hrow).2 ⟨hallowed, hrules⟩⟩
    rw [← writeDecision_unimplemented_iff, hwrite]
    exact nofun
  · rintro ⟨hmodelled, writable⟩
    obtain ⟨row, hcovered⟩ := writable.covered
    have hrow := CsrRow.find?_eq_some_iff.2 hcovered
    obtain ⟨hallowed, hrules⟩ := (writable_iff hrow).1 writable
    have hdebug := isDebug_eq_false hrow hallowed hmodelled
    have hreadOnly : row.register.isReadOnly = false := by
      rw [CsrRow.isReadOnly_register row hcovered.1, ← CsrRow.accessOf_eq hrow]
      simp only [denies, Bool.true_and, Bool.or_eq_false_iff] at hallowed
      exact hallowed.1
    have hfault := (writeFault?_eq_none_iff row.register).2 ⟨hdebug, hreadOnly, hrules⟩
    exact ⟨_, writeDecision_eq_ok_iff.2 ⟨hallowed, row, hrow, hfault, rfl⟩⟩

/-! ## Numbers without a register -/

theorem decision_of_uncovered (hrow : CsrRow.find? n = none) :
    h.readDecision n = .error .illegal ∧ h.writeDecision n = .error .illegal := by
  rw [readDecision, writeDecision, contents, target, hrow]
  simp

/-- The wall clock has numbers among those of the counters, but no hart has one. -/
theorem time_illegal (answers : Answers) (h : Hart) (hn : n = .time ∨ n = .timeh) :
    ((readCsr n).run answers h).result = .error (.exception .illegalInstruction) ∧
      ∀ value, ((writeCsr n value).run answers h).result = .error (.exception .illegalInstruction) := by
  have hrow : CsrRow.find? n = none := by
    rcases hn with rfl | rfl
    · decide +kernel
    · decide +kernel
  obtain ⟨hread, hwrite⟩ := decision_of_uncovered (h := h) hrow
  exact ⟨(refuses_readCsr hread).result_eq, fun value => (refuses_writeCsr hwrite value).result_eq⟩

/-! ## All accesses -/

/-- What a decision comes to is settled by when it is fatal and when it goes through. -/
theorem endsBy_of_decision {α β : Type} {fatal allowed : Prop} {half : AccessHalf}
    {decision : Except RegisterFault β} {result : Except Unwind α}
    (hresult : ∀ b, decision = .ok b → ∃ a, result = .ok a)
    (hrefused : ∀ fault, decision = .error fault → result = .error (refusalUnwind n half fault))
    (hfatal : decision = .error .unimplemented ↔ fatal)
    (hok : (∃ b, decision = .ok b) ↔ ¬ fatal ∧ allowed) : EndsBy fatal allowed result := by
  cases decision with
  | ok b =>
      obtain ⟨a, rfl⟩ := hresult b rfl
      have hallowed := hok.1 ⟨b, rfl⟩
      constructor <;> simp_all
  | error fault =>
      have hnot : ¬ (¬ fatal ∧ allowed) := by
        intro hallowed
        obtain ⟨b, hb⟩ := hok.2 hallowed
        cases hb
      rw [hrefused fault rfl]
      cases fault with
      | illegal =>
          have hnofatal : ¬ fatal := by simp [← hfatal]
          constructor <;> simp_all [refusalUnwind]
      | unimplemented =>
          have hfatal' : fatal := hfatal.1 rfl
          constructor <;> simp_all [refusalUnwind]

/-- How every access ends, on every hart.  Debug registers are fatal in Machine mode; apart from that, an
access goes through exactly if the rule allows it, and is an illegal instruction otherwise.  A write does
not depend on the value. -/
theorem access_exact (answers : Answers) (h : Hart) (n : CsrNumber) :
    EndsBy (Unmodelled h n) (Readable h n) ((readCsr n).run answers h).result ∧
      ∀ value, EndsBy (Unmodelled h n) (Writable h n) ((writeCsr n value).run answers h).result := by
  constructor
  · exact endsBy_of_decision (fun value hread => ⟨value, (comesTo_readCsr hread).result_eq⟩)
      (fun fault hread => (refuses_readCsr hread).result_eq)
      readDecision_unimplemented_iff exists_readDecision_iff
  · intro value
    exact endsBy_of_decision (fun r hwrite => ⟨(), (comesTo_writeCsr hwrite value).result_eq⟩)
      (fun fault hwrite => (refuses_writeCsr hwrite value).result_eq)
      writeDecision_unimplemented_iff exists_writeDecision_iff

end Hart
end PrivilegedHart
