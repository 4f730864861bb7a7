import PrivilegedHart.Hart.CsrAccess
import PrivilegedHart.Proofs.Outcome

/-!
# Outcomes of register accesses

Whether an access by number is refused, and why, is decided before anything changes.  `readDecision` and
`writeDecision` are that decision as functions of the hart, and the theorems `comesTo_…` say that every
register instruction does what the decisions say: it shows a value, installs one, or is refused and leaves
the registers alone.
-/

namespace PrivilegedHart

/-! ## Comparing privileges -/

namespace Privilege

variable {p : Privilege}

theorem eq_user_of_le (hle : p ≤ .user) : p = .user := by
  apply level_injective
  rw [le_def] at hle
  simp only [level] at hle ⊢
  omega

theorem ne_user_of_le (hle : supervisor ≤ p) : p ≠ .user := by
  rintro rfl
  exact absurd hle (by decide)

theorem eq_machine_of_le (hle : machine ≤ p) : p = .machine := by
  cases p with
  | machine => rfl
  | user => exact absurd hle (by decide)
  | supervisor => exact absurd hle (by decide)

end Privilege

/-! ## The register table -/

namespace Register

/-- The lowest privilege that may touch a register. -/
def lowest : Register → Privilege
  | fflags | frm | fcsr | cycle | instret | hpmcounter | cycleh | instreth | hpmcounterh => .user
  | sstatus | sie | stvec | sscratch | sepc | scause | sbadaddr | sip | sptbr => .supervisor
  | _ => .machine

/-- The registers of the debugger, which have no model. -/
def isDebug : Register → Bool
  | tdata1 | tdata2 | tdata3 | dcsr => true
  | _ => false

end Register

namespace CsrRow

/-- The access rule of a row asks for the lowest privilege of its register. -/
theorem minLevel_eq_lowest :
    ∀ row ∈ table, row.access.minLevel = row.register.lowest.level := by decide

theorem not_isDebug_of_readOnly :
    ∀ row ∈ table, row.access.readOnly = true → row.register.isDebug = false := by decide

/-- Every register has one row. -/
theorem eq_of_register_eq :
    ∀ row ∈ table, ∀ row' ∈ table, row'.register = row.register → row' = row := by
  decide +kernel

/-- A register whose row starts where it ends has one number. -/
theorem number_eq {n n' : CsrNumber} {row row' : CsrRow} (hn : find? n = some row)
    (hn' : find? n' = some row') (hregister : row'.register = row.register)
    (hone : row.first = row.last) : n' = n := by
  obtain rfl := eq_of_register_eq row (List.mem_of_find?_eq_some hn) row'
    (List.mem_of_find?_eq_some hn') hregister
  have hfirst : ∀ {m : CsrNumber}, find? m = some row' → m = row'.first := by
    intro m hm
    unfold find? at hm
    have hcontains := List.find?_some hm
    simp only [contains, ← hone, Bool.and_eq_true, decide_eq_true_eq] at hcontains
    exact BitVec.le_antisymm hcontains.2 hcontains.1
  exact (hfirst hn').trans (hfirst hn).symm

/-- Of the registers with one number, the number tells which it is. -/
theorem register_eq_iff {n n' : CsrNumber} {row : CsrRow} {r : Register}
    (hr : ∃ row', find? n' = some row' ∧ row'.register = r ∧ row'.first = row'.last)
    (hn : find? n = some row) : row.register = r ↔ n = n' := by
  obtain ⟨row', hn', rfl, hone⟩ := hr
  constructor
  · intro hregister
    exact number_eq hn' hn hregister hone
  · rintro rfl
    cases hn.symm.trans hn'
    rfl

theorem accessOf_eq {n : CsrNumber} {row : CsrRow} (hrow : find? n = some row) :
    accessOf n = row.access := by
  unfold accessOf
  rw [hrow]

end CsrRow

namespace Hart

open HartAction

variable {α : Type} (answers : Answers) (h : Hart) (n : CsrNumber)

/-! ## Decisions -/

/-- What the register of a number shows, whoever asks. -/
def contents : Except RegisterFault Word :=
  match CsrRow.find? n with
  | none => .error .illegal
  | some row =>
      match h.readFault? row.register with
      | some fault => .error fault
      | none => .ok (h.xlen.truncate (h.view row.register))

/-- The register that a write to a number goes to, whoever asks. -/
def target : Except RegisterFault Register :=
  match CsrRow.find? n with
  | none => .error .illegal
  | some row =>
      match h.writeFault? row.register with
      | some fault => .error fault
      | none => .ok row.register

/-- What a read shows, or why it is refused. -/
def readDecision : Except RegisterFault Word :=
  if h.denies n false then .error .illegal else h.contents n

/-- The register that a write goes to, or why it is refused. -/
def writeDecision : Except RegisterFault Register :=
  if h.denies n true then .error .illegal else h.target n

variable {answers h n}

theorem readDecision_eq_contents (hallowed : h.denies n false = false) :
    h.readDecision n = h.contents n := by
  rw [readDecision, if_neg (by simp [hallowed])]

theorem writeDecision_eq_target (hallowed : h.denies n true = false) :
    h.writeDecision n = h.target n := by
  rw [writeDecision, if_neg (by simp [hallowed])]

theorem contents_of_find? {row : CsrRow} (hrow : CsrRow.find? n = some row) :
    h.contents n = match h.readFault? row.register with
      | some fault => .error fault
      | none => .ok (h.xlen.truncate (h.view row.register)) := by
  rw [contents, hrow]

theorem target_of_find? {row : CsrRow} (hrow : CsrRow.find? n = some row) :
    h.target n = match h.writeFault? row.register with
      | some fault => .error fault
      | none => .ok row.register := by
  rw [target, hrow]

theorem requireRv32_eq_none_iff : h.requireRv32 = none ↔ h.xlen = .rv32 := by
  cases hx : h.xlen <;> simp [requireRv32, hx, Xlen.isRv32]

/-- A register may ask for a 32-bit hart first and for an enabled counter then. -/
theorem requireRv32_of_orElse {counter? : Option RegisterFault}
    (hx : (h.requireRv32 <|> counter?) = none) : h.requireRv32 = none := by
  cases hrv32 : h.requireRv32 with
  | none => rfl
  | some fault => simp [hrv32] at hx

/-! ## Who may do what -/

theorem denies_false_of_true (hallowed : h.denies n true = false) : h.denies n false = false := by
  simp only [denies, Bool.or_eq_false_iff, Bool.false_and] at hallowed ⊢
  exact ⟨trivial, hallowed.2⟩

theorem lowest_le_of_denies {isWrite : Bool} {row : CsrRow} (hrow : CsrRow.find? n = some row)
    (hallowed : h.denies n isWrite = false) : row.register.lowest ≤ h.privilege := by
  have hmem : row ∈ CsrRow.table := List.mem_of_find?_eq_some hrow
  simp only [denies, Bool.or_eq_false_iff, decide_eq_false_iff_not, Nat.not_lt] at hallowed
  rw [Privilege.le_def, ← CsrRow.minLevel_eq_lowest row hmem, ← CsrRow.accessOf_eq hrow]
  exact hallowed.2

/-- A write is not refused if neither the number nor its register refuses it. -/
theorem writeDecision_eq_ok_iff {r : Register} :
    h.writeDecision n = .ok r ↔ h.denies n true = false ∧ ∃ row, CsrRow.find? n = some row ∧
      h.writeFault? row.register = none ∧ row.register = r := by
  constructor
  · intro hwrite
    cases hallowed : h.denies n true with
    | true => simp [writeDecision, hallowed] at hwrite
    | false =>
        refine ⟨rfl, ?_⟩
        rw [writeDecision_eq_target hallowed] at hwrite
        cases hrow : CsrRow.find? n with
        | none => simp [target, hrow] at hwrite
        | some row =>
            rw [target_of_find? hrow] at hwrite
            cases hfault : h.writeFault? row.register with
            | some fault => simp [hfault] at hwrite
            | none => exact ⟨row, rfl, hfault, by simpa [hfault] using hwrite⟩
  · rintro ⟨hallowed, row, hrow, hfault, rfl⟩
    rw [writeDecision_eq_target hallowed, target_of_find? hrow, hfault]

/-- A write that is not refused goes to a register of no higher privilege that accepts it. -/
theorem of_writeDecision {r : Register} (hwrite : h.writeDecision n = .ok r) :
    r.lowest ≤ h.privilege ∧ h.writeFault? r = none := by
  obtain ⟨hallowed, row, hrow, hfault, rfl⟩ := writeDecision_eq_ok_iff.1 hwrite
  exact ⟨lowest_le_of_denies hrow hallowed, hfault⟩

/-- The row behind a write that is not refused. -/
theorem find?_of_writeDecision {r : Register} (hwrite : h.writeDecision n = .ok r) :
    ∃ row, CsrRow.find? n = some row ∧ row.register = r := by
  obtain ⟨-, row, hrow, -, hr⟩ := writeDecision_eq_ok_iff.1 hwrite
  exact ⟨row, hrow, hr⟩

/-- The row behind a read that is not refused, and what it shows. -/
theorem of_readDecision {value : Word} (hread : h.readDecision n = .ok value) :
    h.denies n false = false ∧ ∃ row, CsrRow.find? n = some row ∧
      h.readFault? row.register = none ∧ h.xlen.truncate (h.view row.register) = value := by
  cases hallowed : h.denies n false with
  | true => simp [readDecision, hallowed] at hread
  | false =>
      refine ⟨rfl, ?_⟩
      rw [readDecision_eq_contents hallowed] at hread
      cases hrow : CsrRow.find? n with
      | none => simp [contents, hrow] at hread
      | some row =>
          rw [contents_of_find? hrow] at hread
          cases hfault : h.readFault? row.register with
          | some fault => simp [hfault] at hread
          | none => exact ⟨row, rfl, hfault, by simpa [hfault] using hread⟩

/-- The other direction: a read that nothing refuses. -/
theorem readDecision_of_find? {row : CsrRow} (hrow : CsrRow.find? n = some row)
    (hallowed : h.denies n false = false) (hr : h.readFault? row.register = none) :
    h.readDecision n = .ok (h.xlen.truncate (h.view row.register)) := by
  rw [readDecision_eq_contents hallowed, contents_of_find? hrow, hr]

/-! ## Registers without a model -/

theorem isDebug_of_readFault? {r : Register} (hfault : h.readFault? r = some .unimplemented) :
    r.isDebug = true := by
  cases r <;> simp_all [readFault?, requireRv32, requireCounter, Register.isDebug]

theorem isDebug_of_writeFault? {r : Register} (hfault : h.writeFault? r = some .unimplemented) :
    r.isDebug = true := by
  cases r <;> simp_all [writeFault?, requireRv32, Register.isDebug]

theorem isDebug_of_contents (hread : h.contents n = .error .unimplemented) :
    ∃ row, CsrRow.find? n = some row ∧ row.register.isDebug = true := by
  cases hrow : CsrRow.find? n with
  | none => simp [contents, hrow] at hread
  | some row =>
      rw [contents_of_find? hrow] at hread
      cases hfault : h.readFault? row.register with
      | none => simp [hfault] at hread
      | some fault =>
          have hunimplemented : fault = .unimplemented := by simpa [hfault] using hread
          exact ⟨row, rfl, isDebug_of_readFault? (hunimplemented ▸ hfault)⟩

theorem isDebug_of_target (hwrite : h.target n = .error .unimplemented) :
    ∃ row, CsrRow.find? n = some row ∧ row.register.isDebug = true := by
  cases hrow : CsrRow.find? n with
  | none => simp [target, hrow] at hwrite
  | some row =>
      rw [target_of_find? hrow] at hwrite
      cases hfault : h.writeFault? row.register with
      | none => simp [hfault] at hwrite
      | some fault =>
          have hunimplemented : fault = .unimplemented := by simpa [hfault] using hwrite
          exact ⟨row, rfl, isDebug_of_writeFault? (hunimplemented ▸ hfault)⟩

theorem machine_of_isDebug {isWrite : Bool} {row : CsrRow} (hrow : CsrRow.find? n = some row)
    (hdebug : row.register.isDebug = true) (hallowed : h.denies n isWrite = false) :
    h.privilege = .machine := by
  have hle := lowest_le_of_denies hrow hallowed
  have hlowest : row.register.lowest = .machine := by
    cases hr : row.register <;> simp_all [Register.isDebug, Register.lowest]
  rw [hlowest] at hle
  exact Privilege.eq_machine_of_le hle

theorem machine_of_readDecision (hread : h.readDecision n = .error .unimplemented) :
    h.privilege = .machine := by
  cases hallowed : h.denies n false with
  | true => simp [readDecision, hallowed] at hread
  | false =>
      rw [readDecision_eq_contents hallowed] at hread
      obtain ⟨row, hrow, hdebug⟩ := isDebug_of_contents hread
      exact machine_of_isDebug hrow hdebug hallowed

theorem machine_of_writeDecision (hwrite : h.writeDecision n = .error .unimplemented) :
    h.privilege = .machine := by
  cases hallowed : h.denies n true with
  | true => simp [writeDecision, hallowed] at hwrite
  | false =>
      rw [writeDecision_eq_target hallowed] at hwrite
      obtain ⟨row, hrow, hdebug⟩ := isDebug_of_target hwrite
      exact machine_of_isDebug hrow hdebug hallowed

/-- If the access rule forbids a write, then a refused read is an illegal instruction as well. -/
theorem illegal_of_denies {fault : RegisterFault} (hdenied : h.denies n true = true)
    (hread : h.readDecision n = .error fault) : fault = .illegal := by
  cases hfault : fault with
  | illegal => rfl
  | unimplemented =>
      subst hfault
      cases hallowed : h.denies n false with
      | true => simp [readDecision, hallowed] at hread
      | false =>
          rw [readDecision_eq_contents hallowed] at hread
          obtain ⟨row, hrow, hdebug⟩ := isDebug_of_contents hread
          have hmem : row ∈ CsrRow.table := List.mem_of_find?_eq_some hrow
          -- privilege is high enough to read, so the number must be a read-only one
          have hreadOnly : row.access.readOnly = true := by
            simp only [denies, CsrRow.accessOf_eq hrow, Bool.true_and, Bool.false_and,
              Bool.false_or, Bool.or_eq_true, decide_eq_true_eq,
              decide_eq_false_iff_not] at hdenied hallowed
            exact hdenied.resolve_right hallowed
          rw [CsrRow.not_isDebug_of_readOnly row hmem hreadOnly] at hdebug
          cases hdebug

/-! ## Refusals -/

/-- How a refused access unwinds. -/
def refusalUnwind (n : CsrNumber) (half : AccessHalf) : RegisterFault → Unwind
  | .illegal => .exception .illegalInstruction
  | .unimplemented => .fatal (.unimplementedCsr n ((CsrRow.name? n).getD "unknown") half)

/-- The hart after a refused access: an illegal instruction is recorded where the platform says that it
was, and a fatal error leaves everything alone. -/
def afterRefusal (h : Hart) (answers : Answers) : RegisterFault → Hart
  | .illegal =>
      { h with
        pc := (answers.restore h.pc).getD h.pc
        pendingCause := some .illegalInstruction }
  | .unimplemented => h

/-- An illegal instruction restores the state once; a fatal error calls nobody. -/
def refusalCalls (h : Hart) : RegisterFault → List PlatformCall
  | .illegal => [.restore h.pc]
  | .unimplemented => []

/-- An outcome is the refusal of one half of an access. -/
def Refuses (answers : Answers) (h : Hart) (n : CsrNumber) (half : AccessHalf)
    (fault : RegisterFault) (o : Outcome α) : Prop :=
  o.ComesTo (.error (refusalUnwind n half fault)) (h.afterRefusal answers fault)
    (h.refusalCalls fault)

theorem refuses_refuse (half : AccessHalf) (fault : RegisterFault) :
    Refuses answers h n half fault ((refuse n half fault : HartAction α).run answers h) := by
  cases fault <;>
    simp [Refuses, refuse, run_raiseAt, refusalUnwind, afterRefusal, refusalCalls]

theorem refuses_validateCsr {isWrite : Bool} (half : AccessHalf)
    (hdenied : h.denies n isWrite = true) :
    Refuses answers h n half .illegal ((validateCsr n isWrite).run answers h) := by
  simp [Refuses, validateCsr, hdenied, run_raiseAt, refusalUnwind, afterRefusal, refusalCalls]

theorem comesTo_validateCsr {isWrite : Bool} (hallowed : h.denies n isWrite = false) :
    ((validateCsr n isWrite).run answers h).ComesTo (.ok ()) h [] := by
  simp [validateCsr, hallowed]

theorem Refuses.bind {β : Type} {half : AccessHalf} {fault : RegisterFault} {x : HartAction α}
    (hx : Refuses answers h n half fault (x.run answers h)) (f : α → HartAction β) :
    Refuses answers h n half fault ((x >>= f).run answers h) :=
  comesTo_bind_error f hx

/-! ## Writes that are accepted -/

theorem markFloatDirty_mstatus (h : Hart) :
    h.markFloatDirty.csrs.mstatus = Status.markFloat h.xlen h.csrs.mstatus := rfl

/-- The hart after the pending bits under a mask that software may change have been replaced. -/
def withPending (h : Hart) (mask value : Word) : Hart :=
  { h with mip := Pending.update (mask &&& Interrupt.softwarePending) value h.mip }

/-- The hart after a register has accepted a value. -/
def afterInstall (h : Hart) (r : Register) (value : Word) : Hart :=
  match r with
  | .mstatus => h.committed value
  | .sstatus => h.committed (BitField.merge h.csrs.mstatus value Status.supervisorView)
  | .mip => h.withPending Interrupt.softwarePending value
  | .sip => h.withPending h.csrs.mideleg value
  | r => h.store r value

@[simp] theorem xlen_afterInstall (h : Hart) (r : Register) (value : Word) :
    (h.afterInstall r value).xlen = h.xlen := by cases r <;> rfl

@[simp] theorem privilege_afterInstall (h : Hart) (r : Register) (value : Word) :
    (h.afterInstall r value).privilege = h.privilege := by cases r <;> rfl

/-- The calls that a register makes when it accepts a value. -/
def installCalls (h : Hart) (r : Register) (value : Word) : List PlatformCall :=
  match r with
  | .mstatus => h.commitCalls value
  | .sstatus => h.commitCalls (BitField.merge h.csrs.mstatus value Status.supervisorView)
  | .mip | .sip => [.pendingChanged (h.afterInstall r value).mip]
  | _ => []

/-- A register that accepts a value calls for nothing but an empty TLB or to announce pending bits. -/
theorem eq_of_mem_installCalls {r : Register} {value : Word} {call : PlatformCall}
    (hcall : call ∈ h.installCalls r value) :
    call = .flushTlb ∨ ∃ pending, call = .pendingChanged pending := by
  cases r with
  | mstatus | sstatus => exact Or.inl (eq_flushTlb_of_mem_commitCalls h hcall)
  | mip | sip => exact Or.inr ⟨_, List.mem_singleton.1 hcall⟩
  | _ => cases hcall

theorem comesTo_installPending (mask value : Word) :
    ((installPending mask value).run answers h).ComesTo (.ok ()) (h.withPending mask value)
      [.pendingChanged (h.withPending mask value).mip] := by
  rw [run_installPending]
  exact ⟨rfl, rfl, rfl⟩

theorem comesTo_install (r : Register) (value : Word) :
    ((install r value).run answers h).ComesTo (.ok ()) (h.afterInstall r value)
      (h.installCalls r value) := by
  have hcurrent : (current.run answers h).ComesTo (.ok h) h [] := ⟨rfl, rfl, rfl⟩
  unfold install
  rw [← List.nil_append (h.installCalls r value)]
  refine comesTo_bind hcurrent ?_
  cases r with
  | mstatus => exact comesTo_commitStatus answers h value
  | sstatus => exact comesTo_commitStatus answers h _
  -- dropped bits are reported, which is no effect on the hart
  | mideleg =>
      simp only [run_bind, run_ite]
      split <;> exact ⟨rfl, rfl, rfl⟩
  | mip => exact comesTo_installPending Interrupt.softwarePending value
  | sip => exact comesTo_installPending h.csrs.mideleg value
  | _ => exact ⟨rfl, rfl, rfl⟩

/-! ## The two halves of an access -/

theorem comesTo_readHalf {value : Word} (hread : h.contents n = .ok value) :
    ((readHalf n).run answers h).ComesTo (.ok value) h [] := by
  cases hrow : CsrRow.find? n with
  | none => simp [contents, hrow] at hread
  | some row =>
      rw [contents_of_find? hrow] at hread
      cases hfault : h.readFault? row.register with
      | some fault => simp [hfault] at hread
      | none =>
          have hvalue : h.xlen.truncate (h.view row.register) = value := by
            simpa [hfault] using hread
          simp [readHalf, hrow, hfault, hvalue]

theorem refuses_readHalf {fault : RegisterFault} (hread : h.contents n = .error fault) :
    Refuses answers h n .read fault ((readHalf n).run answers h) := by
  cases hrow : CsrRow.find? n with
  | none =>
      have hillegal : fault = .illegal := by simpa [contents, hrow, eq_comm] using hread
      have hrun : (readHalf n).run answers h = (refuse n .read .illegal).run answers h := by
        simp [readHalf, hrow]
      rw [hillegal, hrun]
      exact refuses_refuse ..
  | some row =>
      rw [contents_of_find? hrow] at hread
      cases hfault : h.readFault? row.register with
      | none => simp [hfault] at hread
      | some fault' =>
          have hsame : fault' = fault := by simpa [hfault] using hread
          have hrun : (readHalf n).run answers h = (refuse n .read fault).run answers h := by
            simp [readHalf, hrow, hfault, hsame]
          rw [hrun]
          exact refuses_refuse ..

theorem comesTo_writeHalf {r : Register} (hwrite : h.target n = .ok r) (value : Word) :
    ((writeHalf n value).run answers h).ComesTo (.ok ())
      (h.afterInstall r (h.xlen.truncate value)) (h.installCalls r (h.xlen.truncate value)) := by
  cases hrow : CsrRow.find? n with
  | none => simp [target, hrow] at hwrite
  | some row =>
      rw [target_of_find? hrow] at hwrite
      cases hfault : h.writeFault? row.register with
      | some fault => simp [hfault] at hwrite
      | none =>
          have hr : row.register = r := by simpa [hfault] using hwrite
          subst hr
          have hrun : (writeHalf n value).run answers h = (do
              install row.register (h.xlen.truncate value)
              report (.csrWrite row.name (h.xlen.truncate value))).run answers h := by
            simp [writeHalf, hrow, hfault]
          have hreport : ((report (.csrWrite row.name (h.xlen.truncate value))).run answers
              (h.afterInstall row.register (h.xlen.truncate value))).ComesTo (.ok ())
                (h.afterInstall row.register (h.xlen.truncate value)) [] := ⟨rfl, rfl, rfl⟩
          rw [hrun, ← List.append_nil (h.installCalls row.register (h.xlen.truncate value))]
          exact comesTo_bind (comesTo_install row.register _) hreport

theorem refuses_writeHalf {fault : RegisterFault} (hwrite : h.target n = .error fault)
    (value : Word) : Refuses answers h n .write fault ((writeHalf n value).run answers h) := by
  cases hrow : CsrRow.find? n with
  | none =>
      have hillegal : fault = .illegal := by simpa [target, hrow, eq_comm] using hwrite
      have hrun : (writeHalf n value).run answers h =
          (refuse n .write .illegal).run answers h := by simp [writeHalf, hrow]
      rw [hillegal, hrun]
      exact refuses_refuse ..
  | some row =>
      rw [target_of_find? hrow] at hwrite
      cases hfault : h.writeFault? row.register with
      | none => simp [hfault] at hwrite
      | some fault' =>
          have hsame : fault' = fault := by simpa [hfault] using hwrite
          have hrun : (writeHalf n value).run answers h =
              (refuse n .write fault).run answers h := by simp [writeHalf, hrow, hfault, hsame]
          rw [hrun]
          exact refuses_refuse ..

/-! ## Instructions -/

theorem comesTo_readCsr {value : Word} (hread : h.readDecision n = .ok value) :
    ((readCsr n).run answers h).ComesTo (.ok value) h [] := by
  cases hallowed : h.denies n false with
  | true => simp [readDecision, hallowed] at hread
  | false =>
      rw [readDecision_eq_contents hallowed] at hread
      exact comesTo_bind (comesTo_validateCsr hallowed) (comesTo_readHalf hread)

theorem refuses_readCsr {fault : RegisterFault} (hread : h.readDecision n = .error fault) :
    Refuses answers h n .read fault ((readCsr n).run answers h) := by
  cases hallowed : h.denies n false with
  | true =>
      have hillegal : fault = .illegal := by simpa [readDecision, hallowed, eq_comm] using hread
      subst hillegal
      exact (refuses_validateCsr .read hallowed).bind _
  | false =>
      rw [readDecision_eq_contents hallowed] at hread
      exact comesTo_bind (comesTo_validateCsr hallowed) (refuses_readHalf hread)

theorem comesTo_writeCsr {r : Register} (hwrite : h.writeDecision n = .ok r) (value : Word) :
    ((writeCsr n value).run answers h).ComesTo (.ok ())
      (h.afterInstall r (h.xlen.truncate value)) (h.installCalls r (h.xlen.truncate value)) := by
  cases hallowed : h.denies n true with
  | true => simp [writeDecision, hallowed] at hwrite
  | false =>
      rw [writeDecision_eq_target hallowed] at hwrite
      exact comesTo_bind (comesTo_validateCsr hallowed) (comesTo_writeHalf hwrite value)

theorem refuses_writeCsr {fault : RegisterFault} (hwrite : h.writeDecision n = .error fault)
    (value : Word) : Refuses answers h n .write fault ((writeCsr n value).run answers h) := by
  cases hallowed : h.denies n true with
  | true =>
      have hillegal : fault = .illegal := by
        simpa [writeDecision, hallowed, eq_comm] using hwrite
      subst hillegal
      exact (refuses_validateCsr .write hallowed).bind _
  | false =>
      rw [writeDecision_eq_target hallowed] at hwrite
      exact comesTo_bind (comesTo_validateCsr hallowed) (refuses_writeHalf hwrite value)

/-! ### Results -/

/-- What a read returns depends on the decision alone, and not on the platform. -/
theorem result_readCsr (answers : Answers) (h : Hart) (n : CsrNumber) :
    ((readCsr n).run answers h).result =
      (h.readDecision n).mapError (refusalUnwind n .read) := by
  cases hread : h.readDecision n with
  | error fault => exact (refuses_readCsr hread).result_eq
  | ok value => exact (comesTo_readCsr hread).result_eq

theorem result_readCsr_eq_ok_iff {value : Word} :
    ((readCsr n).run answers h).result = .ok value ↔ h.readDecision n = .ok value := by
  rw [result_readCsr]
  cases h.readDecision n with
  | error fault => constructor <;> intro hok <;> cases hok
  | ok shown => constructor <;> intro hok <;> cases hok <;> rfl

theorem writeDecision_of_result_writeCsr {value : Word}
    (hwrite : ((writeCsr n value).run answers h).result = .ok ()) :
    ∃ r, h.writeDecision n = .ok r := by
  cases hdecision : h.writeDecision n with
  | error fault => cases (refuses_writeCsr hdecision value).result_eq.symm.trans hwrite
  | ok r => exact ⟨r, rfl⟩

/-! ### Registers that open at a level -/

/-- A number names a register that can be read and written by everyone from its lowest privilege on. -/
structure Opens (n : CsrNumber) (r : Register) : Prop where
  row : ∃ row, CsrRow.find? n = some row ∧ row.register = r ∧ row.access.readOnly = false
  reads : ∀ h : Hart, h.readFault? r = none
  writes : ∀ h : Hart, h.writeFault? r = none

namespace Opens

variable {r : Register} {value : Word}

theorem denies_iff (opens : Opens n r) (isWrite : Bool) :
    h.denies n isWrite = false ↔ r.lowest ≤ h.privilege := by
  obtain ⟨row, hrow, rfl, hreadWrite⟩ := opens.row
  constructor
  · exact lowest_le_of_denies hrow
  · intro hle
    rw [Privilege.le_def, ← CsrRow.minLevel_eq_lowest row (List.mem_of_find?_eq_some hrow)] at hle
    simp only [denies, CsrRow.accessOf_eq hrow, hreadWrite, Bool.and_false, Bool.false_or,
      decide_eq_false_iff_not, Nat.not_lt]
    exact hle

theorem readDecision_iff (opens : Opens n r) :
    h.readDecision n = .ok value ↔
      r.lowest ≤ h.privilege ∧ h.xlen.truncate (h.view r) = value := by
  rw [← opens.denies_iff false]
  obtain ⟨row, hrow, rfl, -⟩ := opens.row
  constructor
  · intro hread
    obtain ⟨hallowed, row', hrow', -, hvalue⟩ := of_readDecision hread
    cases hrow.symm.trans hrow'
    exact ⟨hallowed, hvalue⟩
  · rintro ⟨hallowed, rfl⟩
    exact readDecision_of_find? hrow hallowed (opens.reads h)

theorem writeDecision_iff (opens : Opens n r) :
    h.writeDecision n = .ok r ↔ r.lowest ≤ h.privilege := by
  rw [← opens.denies_iff true]
  obtain ⟨row, hrow, rfl, -⟩ := opens.row
  constructor
  · intro hwrite
    exact (writeDecision_eq_ok_iff.1 hwrite).1
  · intro hallowed
    exact writeDecision_eq_ok_iff.2 ⟨hallowed, row, hrow, opens.writes h, rfl⟩

theorem result_writeCsr_iff (opens : Opens n r) :
    ((writeCsr n value).run answers h).result = .ok () ↔ r.lowest ≤ h.privilege := by
  rw [← opens.writeDecision_iff]
  constructor
  · intro hwrite
    obtain ⟨r', hdecision⟩ := writeDecision_of_result_writeCsr hwrite
    obtain ⟨row', hrow', rfl⟩ := find?_of_writeDecision hdecision
    obtain ⟨row, hrow, rfl, -⟩ := opens.row
    cases hrow.symm.trans hrow'
    exact hdecision
  · intro hdecision
    exact (comesTo_writeCsr hdecision value).result_eq

end Opens

/-! ### Modifications -/

/-- Read a register and, if `isWrite` says so, write what `f` makes of the value.  The atomic register
instructions are instances. -/
def modifyCsr (n : CsrNumber) (isWrite : Bool) (f : Word → Word) : HartAction Word := do
  validateCsr n isWrite
  let old ← readHalf n
  if isWrite then
    writeHalf n (f old)
  return old

variable {f : Word → Word} {old : Word}

theorem comesTo_modifyCsr_read (hread : h.readDecision n = .ok old) :
    ((modifyCsr n false f).run answers h).ComesTo (.ok old) h [] := by
  cases hallowed : h.denies n false with
  | true => simp [readDecision, hallowed] at hread
  | false =>
      rw [readDecision_eq_contents hallowed] at hread
      refine comesTo_bind (comesTo_validateCsr hallowed) ?_
      exact comesTo_bind_pure id (comesTo_readHalf hread)

/-- A modification is refused if its read is, whether or not it would write. -/
theorem refuses_modifyCsr_read {isWrite : Bool} {fault : RegisterFault}
    (hread : h.readDecision n = .error fault) :
    Refuses answers h n .read fault ((modifyCsr n isWrite f).run answers h) := by
  cases hallowed : h.denies n isWrite with
  | true =>
      -- the access rule speaks first, and it never stops the emulation
      have hillegal : fault = .illegal := by
        cases isWrite with
        | false => simpa [readDecision, hallowed, eq_comm] using hread
        | true => exact illegal_of_denies hallowed hread
      subst hillegal
      exact (refuses_validateCsr .read hallowed).bind _
  | false =>
      have hreadable : h.denies n false = false := by
        cases isWrite with
        | false => exact hallowed
        | true => exact denies_false_of_true hallowed
      rw [readDecision_eq_contents hreadable] at hread
      refine comesTo_bind (comesTo_validateCsr hallowed) ?_
      exact (refuses_readHalf hread).bind _

theorem comesTo_modifyCsr_write {r : Register} (hread : h.readDecision n = .ok old)
    (hwrite : h.writeDecision n = .ok r) :
    ((modifyCsr n true f).run answers h).ComesTo (.ok old)
      (h.afterInstall r (h.xlen.truncate (f old))) (h.installCalls r (h.xlen.truncate (f old))) := by
  cases hallowed : h.denies n true with
  | true => simp [writeDecision, hallowed] at hwrite
  | false =>
      rw [readDecision_eq_contents (denies_false_of_true hallowed)] at hread
      rw [writeDecision_eq_target hallowed] at hwrite
      refine comesTo_bind (comesTo_validateCsr hallowed) ?_
      refine comesTo_bind (comesTo_readHalf hread) ?_
      exact comesTo_bind_pure (fun _ => old) (comesTo_writeHalf hwrite (f old))

theorem refuses_modifyCsr_write {fault : RegisterFault} (hread : h.readDecision n = .ok old)
    (hwrite : h.writeDecision n = .error fault) :
    Refuses answers h n .write fault ((modifyCsr n true f).run answers h) := by
  cases hallowed : h.denies n true with
  | true =>
      have hillegal : fault = .illegal := by
        simpa [writeDecision, hallowed, eq_comm] using hwrite
      subst hillegal
      exact (refuses_validateCsr .write hallowed).bind _
  | false =>
      rw [readDecision_eq_contents (denies_false_of_true hallowed)] at hread
      rw [writeDecision_eq_target hallowed] at hwrite
      refine comesTo_bind (comesTo_validateCsr hallowed) ?_
      refine comesTo_bind (comesTo_readHalf hread) ?_
      exact (refuses_writeHalf hwrite (f old)).bind _

end Hart
end PrivilegedHart
