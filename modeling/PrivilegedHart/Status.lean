import PrivilegedHart.BitField
import PrivilegedHart.Xlen

/-!
# The machine status register

`mstatus` packs interrupt enables, previous privileges, extension state and paging controls into one
word.  This module names its fields, says which of them a register write may change and which of them a
cached address mapping depends on, and keeps the summary bit `SD` equal to "an extension state is dirty".
-/

namespace PrivilegedHart
namespace Status

/-! ## Fields -/

/-- Interrupts are enabled in User mode. -/
def uie : Word := 1#64 <<< 0

/-- Interrupts are enabled in Supervisor mode. -/
def sie : Word := 1#64 <<< 1

/-- Interrupts are enabled in the former hypervisor mode. -/
def hie : Word := 1#64 <<< 2

/-- Interrupts are enabled in Machine mode. -/
def mie : Word := 1#64 <<< 3

/-- The interrupt enable of User mode before the last trap. -/
def upie : Word := 1#64 <<< 4

/-- The interrupt enable before the last trap into Supervisor mode. -/
def spie : Word := 1#64 <<< 5

/-- The interrupt enable before the last trap into the former hypervisor mode. -/
def hpie : Word := 1#64 <<< 6

/-- The interrupt enable before the last trap into Machine mode. -/
def mpie : Word := 1#64 <<< 7

/-- The privilege before the last trap into Supervisor mode. -/
def spp : Word := 1#64 <<< 8

/-- The privilege before the last trap into the former hypervisor mode. -/
def hpp : Word := 0b11#64 <<< 9

/-- The privilege before the last trap into Machine mode. -/
def mpp : Word := 0b11#64 <<< 11

/-- The state of the floating-point unit. -/
def fs : Word := 0b11#64 <<< 13

/-- The state of further extensions. -/
def xs : Word := 0b11#64 <<< 15

/-- Loads and stores use the privilege in `mpp`. -/
def mprv : Word := 1#64 <<< 17

/-- User memory is protected from Supervisor mode. -/
def pum : Word := 1#64 <<< 18

/-- Executable pages may be read. -/
def mxr : Word := 1#64 <<< 19

/-- The virtual-memory scheme. -/
def vm : Word := 0x1F#64 <<< 24

/-- The dirty summary of a 32-bit hart. -/
def sd32 : Word := 1#64 <<< 31

/-- The dirty summary of a 64-bit hart. -/
def sd64 : Word := 1#64 <<< 63

/-- The dirty summary, which is the top bit of the register. -/
def sd : Xlen → Word
  | .rv32 => sd32
  | .rv64 => sd64

/-! ## Field groups -/

/-- The fields that a register write may change; the virtual-memory scheme has a rule of its own. -/
def writable : Word :=
  sie ||| spie ||| mie ||| mpie ||| spp ||| fs ||| mprv ||| pum ||| mpp ||| mxr

/-- The fields that cached address mappings depend on. -/
def mappingFields : Word := vm ||| mpp ||| mprv ||| pum ||| mxr

/-- Two statuses differ in a field that cached address mappings depend on. -/
def affectsMapping (old new : Word) : Bool := (new ^^^ old) &&& mappingFields != 0

/-- The fields that Supervisor mode sees as `sstatus`, apart from the dirty summary. -/
def supervisorView : Word := sie ||| spie ||| spp ||| fs ||| xs ||| pum

/-! ## Virtual-memory schemes -/

/-- Virtual addresses are physical addresses. -/
def schemeBare : Word := 0

/-- One base and bound. -/
def schemeBaseBound : Word := 1

/-- Separate bases and bounds for instructions and data. -/
def schemeSplitBaseBound : Word := 2

/-- Paging of 32-bit addresses. -/
def schemeSv32 : Word := 8

/-- Paging of 39-bit addresses. -/
def schemeSv39 : Word := 9

/-- Paging of 48-bit addresses. -/
def schemeSv48 : Word := 10

/-- Virtual memory is off or paged; base-and-bound schemes and unassigned codes are not supported. -/
def supportsScheme (code : Word) : Bool :=
  code == schemeBare || code == schemeSv32 || code == schemeSv39 || code == schemeSv48

/-- The bits that a write of `value` changes: the scheme is taken only if it is supported. -/
def commitMask (value : Word) : Word :=
  if supportsScheme (BitField.get value vm) then writable ||| vm else writable

/-! ## The dirty summary -/

/-- The value of an extension-state field that says the state must be saved. -/
def dirty : Word := 0b11

/-- Some extension state must be saved. -/
def isDirty (status : Word) : Bool :=
  BitField.get status fs == dirty || BitField.get status xs == dirty

/-- Recompute the dirty summary from the extension states. -/
def summarize (x : Xlen) (status : Word) : Word :=
  BitField.set status (sd x) (if isDirty status then 1 else 0)

end Status
end PrivilegedHart
