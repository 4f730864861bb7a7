import PrivilegedHart.Word

/-!
# Stored registers

The registers that a hart stores word by word.  The pending register is not among them, because devices
share it, and neither are the counters, which are computed.  Which bits a write may change is not decided
here.
-/

namespace PrivilegedHart

/-- The stored control and status registers of a hart. -/
structure CsrFile where
  mstatus : Word := 0
  misa : Word := 0
  medeleg : Word := 0
  mideleg : Word := 0
  mie : Word := 0
  mtvec : Word := 0
  mscratch : Word := 0
  mepc : Word := 0
  mcause : Word := 0
  mbadaddr : Word := 0
  stvec : Word := 0
  sscratch : Word := 0
  sepc : Word := 0
  scause : Word := 0
  sbadaddr : Word := 0
  sptbr : Word := 0
  mucounteren : Word := 0
  mscounteren : Word := 0
  fflags : Word := 0
  frm : Word := 0
  deriving DecidableEq, Repr, Inhabited

namespace CsrFile

/-- The registers at reset: all zero, except for the instruction set. -/
def reset (misa : Word) : CsrFile := { misa }

/-- The registers with their names. -/
def entries (c : CsrFile) : List (String × Word) :=
  [("mstatus", c.mstatus), ("misa", c.misa), ("medeleg", c.medeleg), ("mideleg", c.mideleg),
    ("mie", c.mie), ("mtvec", c.mtvec), ("mscratch", c.mscratch), ("mepc", c.mepc),
    ("mcause", c.mcause), ("mbadaddr", c.mbadaddr), ("stvec", c.stvec),
    ("sscratch", c.sscratch), ("sepc", c.sepc), ("scause", c.scause),
    ("sbadaddr", c.sbadaddr), ("sptbr", c.sptbr), ("mucounteren", c.mucounteren),
    ("mscounteren", c.mscounteren), ("fflags", c.fflags), ("frm", c.frm)]

end CsrFile
end PrivilegedHart
