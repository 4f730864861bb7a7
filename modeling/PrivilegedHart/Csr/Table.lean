import PrivilegedHart.Csr.Number
import PrivilegedHart.Privilege

/-!
# The register table

A row says which numbers belong to a register, who may access it and which register it is.  Rows are in
the order of the numbers and do not overlap.  Numbers outside the table name no register.
-/

namespace PrivilegedHart

/-- What a register number can stand for.  The event selectors and event counters of one kind behave alike,
so each kind is one register here. -/
inductive Register where
  | fflags
  | frm
  | fcsr
  | sstatus
  | sie
  | stvec
  | sscratch
  | sepc
  | scause
  | sbadaddr
  | sip
  | sptbr
  | mstatus
  | misa
  | medeleg
  | mideleg
  | mie
  | mtvec
  | mucounteren
  | mscounteren
  | mhpmevent
  | mscratch
  | mepc
  | mcause
  | mbadaddr
  | mip
  | tselect
  | tdata1
  | tdata2
  | tdata3
  | dcsr
  | mcycle
  | minstret
  | mhpmcounter
  | mcycleh
  | minstreth
  | mhpmcounterh
  | cycle
  | instret
  | hpmcounter
  | cycleh
  | instreth
  | hpmcounterh
  | mvendorid
  | marchid
  | mimpid
  | mhartid
  deriving DecidableEq, Repr, Inhabited

/-- One row of the register table. -/
structure CsrRow where
  /-- The first number of the row. -/
  first : CsrNumber
  /-- The last number of the row. -/
  last : CsrNumber
  /-- The name of the first register of the row. -/
  name : String
  /-- Who may access the registers of the row. -/
  access : CsrAccess
  /-- What the numbers of the row stand for. -/
  register : Register
  deriving DecidableEq, Repr

namespace CsrRow

/-- A number belongs to a row if it lies between the two ends of the row. -/
def contains (row : CsrRow) (n : CsrNumber) : Bool := row.first ≤ n && n ≤ row.last

/-- A row of registers that can be written. -/
def readWrite (first last : CsrNumber) (name : String) (lowest : Privilege) (register : Register) :
    CsrRow :=
  ⟨first, last, name, ⟨lowest.level, false⟩, register⟩

/-- A row of registers that can only be read. -/
def readOnly (first last : CsrNumber) (name : String) (lowest : Privilege) (register : Register) :
    CsrRow :=
  ⟨first, last, name, ⟨lowest.level, true⟩, register⟩

/-- The register table. -/
def table : List CsrRow :=
  [readWrite .fflags .fflags "fflags" .user .fflags,
    readWrite .frm .frm "frm" .user .frm,
    readWrite .fcsr .fcsr "fcsr" .user .fcsr,
    readWrite .sstatus .sstatus "sstatus" .supervisor .sstatus,
    readWrite .sie .sie "sie" .supervisor .sie,
    readWrite .stvec .stvec "stvec" .supervisor .stvec,
    readWrite .sscratch .sscratch "sscratch" .supervisor .sscratch,
    readWrite .sepc .sepc "sepc" .supervisor .sepc,
    readWrite .scause .scause "scause" .supervisor .scause,
    readWrite .sbadaddr .sbadaddr "sbadaddr" .supervisor .sbadaddr,
    readWrite .sip .sip "sip" .supervisor .sip,
    readWrite .sptbr .sptbr "sptbr" .supervisor .sptbr,
    readWrite .mstatus .mstatus "mstatus" .machine .mstatus,
    readWrite .misa .misa "misa" .machine .misa,
    readWrite .medeleg .medeleg "medeleg" .machine .medeleg,
    readWrite .mideleg .mideleg "mideleg" .machine .mideleg,
    readWrite .mie .mie "mie" .machine .mie,
    readWrite .mtvec .mtvec "mtvec" .machine .mtvec,
    readWrite .mucounteren .mucounteren "mucounteren" .machine .mucounteren,
    readWrite .mscounteren .mscounteren "mscounteren" .machine .mscounteren,
    readWrite .mhpmevent3 .mhpmevent31 "mhpmevent3" .machine .mhpmevent,
    readWrite .mscratch .mscratch "mscratch" .machine .mscratch,
    readWrite .mepc .mepc "mepc" .machine .mepc,
    readWrite .mcause .mcause "mcause" .machine .mcause,
    readWrite .mbadaddr .mbadaddr "mbadaddr" .machine .mbadaddr,
    readWrite .mip .mip "mip" .machine .mip,
    readWrite .tselect .tselect "tselect" .machine .tselect,
    readWrite .tdata1 .tdata1 "tdata1" .machine .tdata1,
    readWrite .tdata2 .tdata2 "tdata2" .machine .tdata2,
    readWrite .tdata3 .tdata3 "tdata3" .machine .tdata3,
    readWrite .dcsr .dcsr "dcsr" .machine .dcsr,
    readWrite .mcycle .mcycle "mcycle" .machine .mcycle,
    readWrite .minstret .minstret "minstret" .machine .minstret,
    readWrite .mhpmcounter3 .mhpmcounter31 "mhpmcounter3" .machine .mhpmcounter,
    readWrite .mcycleh .mcycleh "mcycleh" .machine .mcycleh,
    readWrite .minstreth .minstreth "minstreth" .machine .minstreth,
    readWrite .mhpmcounter3h .mhpmcounter31h "mhpmcounter3h" .machine .mhpmcounterh,
    readOnly .cycle .cycle "cycle" .user .cycle,
    readOnly .instret .instret "instret" .user .instret,
    readOnly .hpmcounter3 .hpmcounter31 "hpmcounter3" .user .hpmcounter,
    readOnly .cycleh .cycleh "cycleh" .user .cycleh,
    readOnly .instreth .instreth "instreth" .user .instreth,
    readOnly .hpmcounter3h .hpmcounter31h "hpmcounter3h" .user .hpmcounterh,
    readOnly .mvendorid .mvendorid "mvendorid" .machine .mvendorid,
    readOnly .marchid .marchid "marchid" .machine .marchid,
    readOnly .mimpid .mimpid "mimpid" .machine .mimpid,
    readOnly .mhartid .mhartid "mhartid" .machine .mhartid]

/-- The row that a register number belongs to. -/
def find? (n : CsrNumber) : Option CsrRow := table.find? (·.contains n)

/-- The name of a register number, if the table has one. -/
def name? (n : CsrNumber) : Option String := (find? n).map (·.name)

/-- The access rule of a register number.  Numbers outside the table follow the rule encoded in them, so
that a lack of privilege is noticed before a lack of a register. -/
def accessOf (n : CsrNumber) : CsrAccess :=
  match find? n with
  | some row => row.access
  | none => .decode n

/-- Every row starts no later than it ends, and ends before the next one starts. -/
theorem table_ordered :
    (∀ row ∈ table, row.first ≤ row.last) ∧ table.Pairwise (fun a b => a.last < b.first) := by
  decide +kernel

/-- The access rule of a row is the one encoded in its first and in its last number. -/
theorem access_eq_decode :
    ∀ row ∈ table, CsrAccess.decode row.first = row.access ∧
      CsrAccess.decode row.last = row.access := by
  decide +kernel

end CsrRow
end PrivilegedHart
