import PrivilegedHart.Access
import PrivilegedHart.Address
import PrivilegedHart.Unwind
import PrivilegedHart.Privilege
import PrivilegedHart.RecordText
import PrivilegedHart.Xlen

/-!
# Diagnostics

A hart reports what it does as a list of diagnostics.  They never influence the hart.  Each one has a
severity, a message and named fields, which are texts.
-/

namespace PrivilegedHart

/-- How serious a diagnostic is. -/
inductive Severity where
  | trace
  | debug
  | warn
  | error
  deriving DecidableEq, Repr

/-- Something that happened in a hart. -/
inductive Diagnostic where
  /-- A hart came out of reset. -/
  | reset (hart : Word) (xlen : Xlen) (misa : Word) (privilege : Privilege)
  /-- A register access broke the access rule of the register. -/
  | accessDenied (hart : Word) (number : CsrNumber) (privilege : Privilege) (isWrite : Bool)
  /-- A register was read. -/
  | csrRead (name : String) (value : Word)
  /-- A register was written. -/
  | csrWrite (name : String) (value : Word)
  /-- A register refused an access. -/
  | illegalAccess (hart : Word) (number : CsrNumber) (half : AccessHalf)
  /-- A register without a model was accessed. -/
  | unimplementedCsr (hart : Word) (number : CsrNumber) (name : String) (half : AccessHalf)
  /-- A write asked for a virtual-memory scheme that is not supported. -/
  | unsupportedScheme (hart scheme : Word)
  /-- A write asked to delegate interrupts that cannot be delegated. -/
  | undelegableInterrupts (hart dropped : Word)
  /-- A cause was recorded. -/
  | raised (hart : Word) (cause : Cause) (pc : Word)
  /-- The TLB was emptied. -/
  | tlbFlush (hart : Word)
  /-- The privilege changed. -/
  | privilegeChange (hart : Word) (before after : Privilege)
  /-- A page-table walk failed. -/
  | walkFailed (hart : Word) (vaddr : VirtAddr) (access : Access) (mode : Privilege) (cause : Cause)
  /-- An address mapping was put into the TLB. -/
  | tlbFill (hart : Word) (vaddr : VirtAddr) (paddr : PhysAddr) (access : Access)
  deriving DecidableEq, Repr

namespace Severity

/-- The name of a severity. -/
def name : Severity → String
  | trace => "TRACE"
  | debug => "DEBUG"
  | warn => "WARN"
  | error => "ERROR"

end Severity

namespace Diagnostic

/-- How serious each diagnostic is. -/
def severity : Diagnostic → Severity
  | reset .. | accessDenied .. | illegalAccess .. | privilegeChange .. => .debug
  | csrRead .. | csrWrite .. | raised .. | tlbFlush .. | walkFailed ..
  | tlbFill .. => .trace
  | unsupportedScheme .. | undelegableInterrupts .. => .warn
  | unimplementedCsr .. => .error

/-- The text of each diagnostic. -/
def message : Diagnostic → String
  | reset .. => "hart reset"
  | accessDenied .. => "CSR access denied"
  | csrRead .. => "CSR read"
  | csrWrite .. => "CSR write"
  | illegalAccess .. => "illegal CSR access"
  | unimplementedCsr .. => "unimplemented CSR accessed; stopping hart"
  | unsupportedScheme .. => "unsupported translation scheme ignored"
  | undelegableInterrupts .. => "non-delegable interrupts ignored"
  | raised .. => "raise"
  | tlbFlush .. => "translation cache flush"
  | privilegeChange .. => "privilege change"
  | walkFailed .. => "page walk failed"
  | tlbFill .. => "tlb fill"

/-- A register number as diagnostics show it. -/
def csrText (n : CsrNumber) : String := Numeral.hexPadded 3 n.toNat

/-- The field that names the hart. -/
def hartField (hart : Word) : String × String := ("hart", Numeral.decimal hart)

/-- The named fields of each diagnostic. -/
def fields : Diagnostic → List (String × String)
  | reset hart xlen misa privilege =>
      [hartField hart, ("xlen", toString xlen.bits), ("misa", Numeral.hex misa),
        ("privilege", privilege.name)]
  | accessDenied hart number privilege isWrite =>
      [hartField hart, ("csr", csrText number), ("privilege", privilege.name),
        ("is_write", RecordText.ofBool isWrite)]
  | csrRead name value => [("csr", name), ("value", Numeral.hex value)]
  | csrWrite name value => [("csr", name), ("value", Numeral.hex value)]
  | illegalAccess hart number half =>
      [hartField hart, ("csr", csrText number), ("direction", half.name)]
  | unimplementedCsr hart number name half =>
      [hartField hart, ("csr", csrText number), ("name", name), ("direction", half.name)]
  | unsupportedScheme hart scheme => [hartField hart, ("vm", Numeral.decimal scheme)]
  | undelegableInterrupts hart dropped => [hartField hart, ("dropped", Numeral.hex dropped)]
  | raised hart cause pc =>
      [hartField hart, ("cause", cause.describe), ("pc", Numeral.hex pc)]
  | tlbFlush hart => [hartField hart]
  | privilegeChange hart before after =>
      [hartField hart, ("from", before.name), ("to", after.name)]
  | walkFailed hart vaddr access mode cause =>
      [hartField hart, ("vaddr", vaddr.describe), ("access", access.name), ("mode", mode.name),
        ("cause", cause.describe)]
  | tlbFill hart vaddr paddr access =>
      [hartField hart, ("vaddr", vaddr.describe), ("paddr", paddr.describe),
        ("access", access.name)]

end Diagnostic
end PrivilegedHart
