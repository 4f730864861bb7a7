/-!
# Register numbers

Control and status registers are named by numbers of twelve bits; the instruction operand has room for
sixteen, and the numbers above the twelfth bit name nothing.  Bits 8 and 9 of a number hold the lowest
privilege that may touch the register, and bits 10 and 11 are both set for read-only registers.
-/

namespace PrivilegedHart

/-- The number of a control and status register. -/
abbrev CsrNumber := BitVec 16

/-- Who may access a register. -/
structure CsrAccess where
  /-- The lowest privilege level, as a raw encoding. -/
  minLevel : Nat
  /-- Writes are refused. -/
  readOnly : Bool
  deriving DecidableEq, Repr, Inhabited

namespace CsrAccess

/-- The access rule encoded in a register number. -/
def decode (n : CsrNumber) : CsrAccess where
  minLevel := ((n >>> 8) &&& 0b11).toNat
  readOnly := (n >>> 10) &&& 0b11 == 0b11

end CsrAccess

namespace CsrNumber

/-- The accrued floating-point exception flags. -/
def fflags : CsrNumber := 0x001#16

/-- The floating-point rounding mode. -/
def frm : CsrNumber := 0x002#16

/-- Floating-point control: flags and rounding mode. -/
def fcsr : CsrNumber := 0x003#16

/-- Supervisor status. -/
def sstatus : CsrNumber := 0x100#16

/-- Supervisor interrupt enables. -/
def sie : CsrNumber := 0x104#16

/-- The Supervisor trap vector. -/
def stvec : CsrNumber := 0x105#16

/-- Scratch space of Supervisor mode. -/
def sscratch : CsrNumber := 0x140#16

/-- The address to return to from a Supervisor trap. -/
def sepc : CsrNumber := 0x141#16

/-- The cause of the last Supervisor trap. -/
def scause : CsrNumber := 0x142#16

/-- The bad address of the last Supervisor trap. -/
def sbadaddr : CsrNumber := 0x143#16

/-- Supervisor pending interrupts. -/
def sip : CsrNumber := 0x144#16

/-- The page number of the root page table. -/
def sptbr : CsrNumber := 0x180#16

/-- Machine status. -/
def mstatus : CsrNumber := 0x300#16

/-- The instruction set. -/
def misa : CsrNumber := 0x301#16

/-- Delegated trap causes. -/
def medeleg : CsrNumber := 0x302#16

/-- Delegated interrupts. -/
def mideleg : CsrNumber := 0x303#16

/-- Machine interrupt enables. -/
def mie : CsrNumber := 0x304#16

/-- The Machine trap vector. -/
def mtvec : CsrNumber := 0x305#16

/-- Counters that User mode may read. -/
def mucounteren : CsrNumber := 0x320#16

/-- Counters that Supervisor mode may read. -/
def mscounteren : CsrNumber := 0x321#16

/-- The first event selector. -/
def mhpmevent3 : CsrNumber := 0x323#16

/-- The last event selector. -/
def mhpmevent31 : CsrNumber := 0x33F#16

/-- Scratch space of Machine mode. -/
def mscratch : CsrNumber := 0x340#16

/-- The address to return to from a Machine trap. -/
def mepc : CsrNumber := 0x341#16

/-- The cause of the last Machine trap. -/
def mcause : CsrNumber := 0x342#16

/-- The bad address of the last Machine trap. -/
def mbadaddr : CsrNumber := 0x343#16

/-- Machine pending interrupts. -/
def mip : CsrNumber := 0x344#16

/-- The selected debug trigger. -/
def tselect : CsrNumber := 0x7A0#16

/-- The first word of the selected trigger. -/
def tdata1 : CsrNumber := 0x7A1#16

/-- The second word of the selected trigger. -/
def tdata2 : CsrNumber := 0x7A2#16

/-- The third word of the selected trigger. -/
def tdata3 : CsrNumber := 0x7A3#16

/-- Debug control. -/
def dcsr : CsrNumber := 0x7B0#16

/-- The cycle counter. -/
def mcycle : CsrNumber := 0xB00#16

/-- The retired-instruction counter. -/
def minstret : CsrNumber := 0xB02#16

/-- The first event counter. -/
def mhpmcounter3 : CsrNumber := 0xB03#16

/-- The last event counter. -/
def mhpmcounter31 : CsrNumber := 0xB1F#16

/-- The high half of `mcycle`. -/
def mcycleh : CsrNumber := 0xB80#16

/-- The high half of `minstret`. -/
def minstreth : CsrNumber := 0xB82#16

/-- The high half of the first event counter. -/
def mhpmcounter3h : CsrNumber := 0xB83#16

/-- The high half of the last event counter. -/
def mhpmcounter31h : CsrNumber := 0xB9F#16

/-- The cycle counter, read-only. -/
def cycle : CsrNumber := 0xC00#16

/-- The wall clock, which no hart here has. -/
def time : CsrNumber := 0xC01#16

/-- The retired-instruction counter, read-only. -/
def instret : CsrNumber := 0xC02#16

/-- The first event counter, read-only. -/
def hpmcounter3 : CsrNumber := 0xC03#16

/-- The last event counter, read-only. -/
def hpmcounter31 : CsrNumber := 0xC1F#16

/-- The high half of `cycle`. -/
def cycleh : CsrNumber := 0xC80#16

/-- The high half of `time`. -/
def timeh : CsrNumber := 0xC81#16

/-- The high half of `instret`. -/
def instreth : CsrNumber := 0xC82#16

/-- The high half of the first read-only event counter. -/
def hpmcounter3h : CsrNumber := 0xC83#16

/-- The high half of the last read-only event counter. -/
def hpmcounter31h : CsrNumber := 0xC9F#16

/-- The vendor. -/
def mvendorid : CsrNumber := 0xF11#16

/-- The microarchitecture. -/
def marchid : CsrNumber := 0xF12#16

/-- The implementation. -/
def mimpid : CsrNumber := 0xF13#16

/-- The number of the hart. -/
def mhartid : CsrNumber := 0xF14#16

end CsrNumber
end PrivilegedHart
