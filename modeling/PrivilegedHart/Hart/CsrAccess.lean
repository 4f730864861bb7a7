import PrivilegedHart.Hart.Register

/-!
# Register access by number

The instructions name registers by number.  An access is checked against the access rule of the number
first and then by the register itself; both refusals trap at the current instruction.  Values are truncated
to the register width on the way in and on the way out.
-/

namespace PrivilegedHart
namespace Hart

open HartAction

variable {α : Type}

/-- Which of the atomic register instructions to execute. -/
inductive CsrInstruction where
  /-- Write the operand. -/
  | swap
  /-- Set the bits of the operand. -/
  | set
  /-- Clear the bits of the operand. -/
  | clear
  deriving DecidableEq, Repr, Inhabited

/-- The access rule of a number forbids an access: a write to a read-only register, or any access from too
low a privilege. -/
def denies (h : Hart) (n : CsrNumber) (isWrite : Bool) : Bool :=
  (isWrite && (CsrRow.accessOf n).readOnly) || h.privilege.level < (CsrRow.accessOf n).minLevel

/-- Trap unless the access rule of a number allows the access. -/
def validateCsr (n : CsrNumber) (isWrite : Bool) : HartAction Unit := do
  let h ← current
  if h.denies n isWrite then
    report (.accessDenied h.hartId n h.privilege isWrite)
    raiseAt .illegalInstruction h.pc

/-- Refuse one half of an access. -/
def refuse (n : CsrNumber) (half : AccessHalf) (fault : RegisterFault) : HartAction α := do
  let h ← current
  match fault with
  | .illegal =>
      report (.illegalAccess h.hartId n half)
      raiseAt .illegalInstruction h.pc
  | .unimplemented =>
      let name := (CsrRow.name? n).getD "unknown"
      report (.unimplementedCsr h.hartId n name half)
      unwind (.fatal (.unimplementedCsr n name half))

/-- The read half of an access. -/
def readHalf (n : CsrNumber) : HartAction Word := do
  let h ← current
  match CsrRow.find? n with
  | none => refuse n .read .illegal
  | some row =>
      match h.readFault? row.register with
      | some fault => refuse n .read fault
      | none =>
          let value := h.xlen.truncate (h.view row.register)
          report (.csrRead row.name value)
          return value

/-- The write half of an access. -/
def writeHalf (n : CsrNumber) (value : Word) : HartAction Unit := do
  let h ← current
  match CsrRow.find? n with
  | none => refuse n .write .illegal
  | some row =>
      match h.writeFault? row.register with
      | some fault => refuse n .write fault
      | none =>
          let value := h.xlen.truncate value
          install row.register value
          report (.csrWrite row.name value)

/-- Read a register. -/
def readCsr (n : CsrNumber) : HartAction Word := do
  validateCsr n false
  readHalf n

/-- Write a register. -/
def writeCsr (n : CsrNumber) (value : Word) : HartAction Unit := do
  validateCsr n true
  writeHalf n value

/-- Write `operand` and return the value before. -/
def swapCsr (n : CsrNumber) (operand : Word) : HartAction Word := do
  validateCsr n true
  let old ← readHalf n
  writeHalf n operand
  return old

/-- Set the bits of `operand` and return the value before.  Without an operand this is a read. -/
def setCsr (n : CsrNumber) (operand : Word) (hasOperand : Bool) : HartAction Word := do
  validateCsr n hasOperand
  let old ← readHalf n
  if hasOperand then
    writeHalf n (old ||| operand)
  return old

/-- Clear the bits of `operand` and return the value before.  Without an operand this is a read. -/
def clearCsr (n : CsrNumber) (operand : Word) (hasOperand : Bool) : HartAction Word := do
  validateCsr n hasOperand
  let old ← readHalf n
  if hasOperand then
    writeHalf n (old &&& ~~~operand)
  return old

/-- Execute an atomic register instruction; a swap always has its operand. -/
def executeCsr (i : CsrInstruction) (n : CsrNumber) (operand : Word) (hasOperand : Bool) :
    HartAction Word :=
  match i with
  | .swap => swapCsr n operand
  | .set => setCsr n operand hasOperand
  | .clear => clearCsr n operand hasOperand

end Hart
end PrivilegedHart
