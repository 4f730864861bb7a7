import PrivilegedHart.Hart.Action
import PrivilegedHart.Status

/-!
# Traps and privilege changes

Raising a cause records it and unwinds; taking the trap is up to the surrounding loop.  Every change of
privilege empties the TLB, because the permissions in it depend on the privilege they were looked up at.
Returning from a trap restores the previous privilege and interrupt enable from `mstatus`.
-/

namespace PrivilegedHart
namespace Hart

open HartAction

variable {α : Type}

/-! ## Raising -/

/-- Record a cause and unwind. -/
def raise (cause : Cause) : HartAction α := do
  let h ← current
  report (.raised h.hartId cause h.pc)
  update fun h => { h with pendingCause := some cause }
  unwind (.exception cause)

/-- Record a cause with the address it blames and unwind. -/
def raiseWithBadaddr (cause : Cause) (badaddr : Word) : HartAction α := do
  update fun h => { h with badaddr := badaddr }
  raise cause

/-- Raise a cause from within compiled guest code at `pc`.  The platform restores the state at that
instruction first, so that nothing executed after it survives. -/
def raiseAt (cause : Cause) (pc : Word) : HartAction α := do
  let restored ← restore pc
  update fun h => h.setPc (restored.getD h.pc)
  raise cause

/-- Stop for the debugger. -/
def raiseDebug : HartAction α := raise .debug

/-- Wait until an interrupt is pending. -/
def waitForInterrupt : HartAction α := do
  update fun h => { h with waiting := true }
  raise .waitForInterrupt

/-! ## TLB and privilege -/

/-- Empty the TLB. -/
def flushTlb : HartAction Unit := do
  let h ← current
  report (.tlbFlush h.hartId)
  call .flushTlb

/-- Empty the TLB and drop every cached block of compiled guest code. -/
def fenceInstructions : HartAction Unit := do
  flushTlb
  call .flushBlocks

/-- Switch to the privilege of a raw level. -/
def setPrivilege (level : Word) : HartAction Unit :=
  match Privilege.ofLevel? level with
  | none => unwind (.fatal (.invalidPrivilege level))
  | some privilege => do
      flushTlb
      let h ← current
      report (.privilegeChange h.hartId h.privilege privilege)
      update fun h => { h with privilege := privilege }

/-! ## The status register -/

/-- Store a status whose dirty summary may be out of date. -/
def setStatus (h : Hart) (status : Word) : Hart :=
  { h with csrs.mstatus := Status.summarize h.xlen status }

/-- Write `mstatus`.  The TLB is emptied if the written value differs in a field that address mappings
depend on, even where the difference is not taken over. -/
def commitStatus (value : Word) : HartAction Unit := do
  let h ← current
  if Status.affectsMapping h.csrs.mstatus value then
    flushTlb
  let scheme := BitField.get value Status.vm
  if !Status.supportsScheme scheme then
    report (.unsupportedScheme h.hartId scheme)
  update fun h => h.setStatus (BitField.merge h.csrs.mstatus value (Status.commitMask value))

/-! ## Returning from traps -/

/-- The status after a return: the enable of the previous privilege is restored from `enable`, and both
fields of the trap are cleared. -/
def statusAfterReturn (status privilege enable : Word) : Word :=
  let target := Status.uie <<< (BitField.get status privilege).toNat
  let status := BitField.set status target (BitField.get status enable)
  let status := BitField.set status enable 0
  BitField.set status privilege 0

/-- Return from a Supervisor trap to the address in `sepc`, which has to be aligned. -/
def returnFromSupervisorTrap : HartAction Word := do
  let h ← current
  if h.privilege < .supervisor then
    raise .illegalInstruction
  if !Word.isAligned h.csrs.sepc then
    raise .instructionAddressMisaligned
  let status := h.csrs.mstatus
  setPrivilege (BitField.get status Status.spp)
  commitStatus (statusAfterReturn status Status.spp Status.spie)
  return h.xlen.truncate h.csrs.sepc

/-- Return from a Machine trap to the address in `mepc`, whatever its alignment. -/
def returnFromMachineTrap : HartAction Word := do
  let h ← current
  if h.privilege < .machine then
    raise .illegalInstruction
  let status := h.csrs.mstatus
  setPrivilege (BitField.get status Status.mpp)
  commitStatus (statusAfterReturn status Status.mpp Status.mpie)
  return h.xlen.truncate h.csrs.mepc

/-! ## What the actions do -/

section Run

variable (answers : Answers) (h : Hart)

theorem run_raise (cause : Cause) :
    (raise cause : HartAction α).run answers h =
      ⟨.error (.exception cause), { h with pendingCause := some cause }, [],
        [.raised h.hartId cause h.pc]⟩ := by
  simp [raise]

theorem run_raiseWithBadaddr (cause : Cause) (badaddr : Word) :
    (raiseWithBadaddr cause badaddr : HartAction α).run answers h =
      ⟨.error (.exception cause), { h with badaddr := badaddr, pendingCause := some cause }, [],
        [.raised h.hartId cause h.pc]⟩ := by
  simp [raiseWithBadaddr, run_raise]

theorem run_raiseAt (cause : Cause) (pc : Word) :
    (raiseAt cause pc : HartAction α).run answers h =
      ⟨.error (.exception cause),
        { h with pc := (answers.restore pc).getD h.pc, pendingCause := some cause },
        [.restore pc], [.raised h.hartId cause ((answers.restore pc).getD h.pc)]⟩ := by
  simp [raiseAt, run_raise, setPc]

theorem run_flushTlb :
    flushTlb.run answers h =
      ⟨.ok (), h, [.flushTlb], [.tlbFlush h.hartId]⟩ := by
  simp [flushTlb]

theorem run_setPrivilege_of_some {level : Word} {privilege : Privilege}
    (hlevel : Privilege.ofLevel? level = some privilege) :
    (setPrivilege level).run answers h =
      ⟨.ok (), { h with privilege := privilege }, [.flushTlb],
        [.tlbFlush h.hartId, .privilegeChange h.hartId h.privilege privilege]⟩ := by
  simp [setPrivilege, hlevel, run_flushTlb]

theorem run_setPrivilege_of_none {level : Word} (hlevel : Privilege.ofLevel? level = none) :
    (setPrivilege level).run answers h = ⟨.error (.fatal (.invalidPrivilege level)), h, [], []⟩ := by
  simp [setPrivilege, hlevel]

theorem run_commitStatus (value : Word) :
    (commitStatus value).run answers h =
      ⟨.ok (), h.setStatus (BitField.merge h.csrs.mstatus value (Status.commitMask value)),
        if Status.affectsMapping h.csrs.mstatus value then [.flushTlb] else [],
        (if Status.affectsMapping h.csrs.mstatus value then [.tlbFlush h.hartId]
          else []) ++
        (if Status.supportsScheme (BitField.get value Status.vm) then []
          else [.unsupportedScheme h.hartId (BitField.get value Status.vm)])⟩ := by
  cases hflush : Status.affectsMapping h.csrs.mstatus value <;>
    cases hscheme : Status.supportsScheme (BitField.get value Status.vm) <;>
      simp [commitStatus, run_flushTlb, hflush, hscheme]

end Run

end Hart
end PrivilegedHart
