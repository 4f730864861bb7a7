import PrivilegedHart.Csr.Table
import PrivilegedHart.Hart.Basic

/-!
# Reports on harts and registers

A report on a hart shows its state on one line.  Addresses and pending interrupts are hexadecimal, stored
registers and counters decimal.
-/

namespace PrivilegedHart

/-- An access rule as reports show it. -/
def CsrAccess.describe (a : CsrAccess) : String :=
  RecordText.complete "CsrAccess"
    [("min_privilege", toString a.minLevel), ("read_only", RecordText.ofBool a.readOnly)]

/-- A row of the register table as reports show it. -/
def CsrRow.describe (row : CsrRow) : String :=
  RecordText.partly "CsrEntry"
    [("first", Diagnostic.csrText row.first), ("last", Diagnostic.csrText row.last),
      ("name", "\"" ++ row.name ++ "\""), ("access", row.access.describe)]

/-- The stored registers as reports show them. -/
def CsrFile.describe (c : CsrFile) : String :=
  RecordText.complete "Csrs" (c.entries.map fun e => (e.1, Numeral.decimal e.2))

namespace Hart

/-- The cause of a raised trap as reports show it. -/
def describePending : Option Cause → String
  | none => "None"
  | some cause => "Some(" ++ cause.name ++ ")"

/-- A hart as reports show it. -/
def describe (h : Hart) : String :=
  RecordText.partly "Cpu"
    [("hart_id", Numeral.decimal h.hartId),
      ("xlen", h.xlen.name),
      ("privilege", h.privilege.name),
      ("pc", Numeral.hex h.pc),
      ("exception_index", describePending h.pendingCause),
      ("badaddr", Numeral.hex h.badaddr),
      ("wfi", RecordText.ofBool h.waiting),
      ("mip", Numeral.hex h.mip),
      ("csrs", h.csrs.describe),
      ("counters", h.counters.describe)]

end Hart
end PrivilegedHart
