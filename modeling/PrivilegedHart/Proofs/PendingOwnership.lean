import Mathlib.Data.List.Forall2
import PrivilegedHart.PendingHandles
import PrivilegedHart.Proofs.Events
import PrivilegedHart.Proofs.Instruction
import PrivilegedHart.Proofs.WellFormed

/-!
# Who owns the pending interrupts

Devices and software write one register.  Software has two of its bits, and reaches them by writes of `mip`
or `sip` alone; the devices have all the others.  Every write of software is announced with the value that
it has left, so an interrupt controller that listens, and sees what the devices do, knows the register.

An operation and a device call are one atomic step each, in any order.  A device call between the two
halves of a set or clear needs no step of its own, as the halves are instructions themselves; nothing is
said about one between a write and its announcement.  Devices call through copies of the handle of the
hart, and that these lead to one register is part of the result.
-/

namespace PrivilegedHart

open Word Interrupt

/-! ## One register behind many handles -/

namespace PendingHandles

/-- A register with its handles. -/
def copies (pending : Word) (count : Nat) : PendingHandles := ⟨[pending], List.replicate count 0⟩

variable {pending : Word} {count handle : Nat}

/-- This is what comes of copying the first handle. -/
theorem run_copies :
    empty.run (.fresh :: List.replicate count (.copy 0)) = copies 0 (count + 1) := by
  have hcopy : ∀ count' : Nat, ((copies 0 (count' + 1)).perform (.copy 0)).2 = copies 0 (count' + 2) := by
    intro count'
    simp [perform, copy, copies, ← List.replicate_succ']
  have hrun : ∀ count', (copies 0 (count' + 1)).run (List.replicate count (.copy 0)) =
      copies 0 (count' + 1 + count) := by
    intro count'
    induction count generalizing count' with
    | zero => rfl
    | succ count ih =>
        rw [List.replicate_succ, run, List.foldl_cons, hcopy, ← run, ih]
        congr 1
        omega
  rw [run, List.foldl_cons, ← run, Nat.add_comm]
  exact hrun 0

theorem load?_copies (hhandle : handle < count) :
    (copies pending count).load? handle = some pending := by
  simp [load?, copies, hhandle]

theorem modify_copies (hhandle : handle < count) (f : Word → Word) :
    ((copies pending count).modify handle f).2 = copies (f pending) count := by
  simp [modify, exchange, copies, hhandle]

end PendingHandles

namespace Hart

/-! ## Writes and calls -/

namespace Operation

/-- The operations that are done by devices. -/
def isDevice : Operation → Bool
  | raiseLines _ | lowerLines _ => true
  | _ => false

/-- The state that a device drives a line to. -/
def drives? (line : Nat) : Operation → Option Bool
  | raiseLines bits => if bits.getLsbD line then some true else none
  | lowerLines bits => if bits.getLsbD line then some false else none
  | _ => none

/-- What a device makes of the pending bits. -/
def driveLines (pending : Word) : Operation → Word
  | raiseLines bits => Pending.raise bits pending
  | lowerLines bits => Pending.lower bits pending
  | _ => pending

variable {op : Operation}

theorem drives?_eq_none (hop : op.isDevice = false) (line : Nat) : op.drives? line = none := by
  cases op <;> first | rfl | cases hop

theorem driveLines_eq (hop : op.isDevice = false) (pending : Word) :
    op.driveLines pending = pending := by
  cases op <;> first | rfl | cases hop

end Operation

/-- The pending bits that software changes through a number. -/
def pendingMask? (h : Hart) (n : CsrNumber) : Option Word :=
  if n = .mip then some softwarePending
  else if n = .sip then some (h.csrs.mideleg &&& softwarePending)
  else none

namespace Event

/-- The write of pending bits that an event has completed: the bits, and the value that they are taken
from. -/
def pendingWrite? (e : Event) : Option (Word × Word) :=
  match e.outcome.result with
  | .error _ => none
  | .ok reply =>
      match e.op.written? reply with
      | none => none
      | some (n, value) => (e.before.pendingMask? n).map fun mask => (mask, value)

/-- What an event does to the register behind a handle. -/
def throughHandle (e : Event) (handle : Nat) : PendingHandles.Operation :=
  match e.op with
  | .raiseLines bits => .raise handle bits
  | .lowerLines bits => .lower handle bits
  | _ =>
      match e.pendingWrite? with
      | some (mask, value) => .update handle mask value
      | none => .load handle

theorem throughHandle_eq {e : Event} (hop : e.op.isDevice = false) (handle : Nat) :
    e.throughHandle handle =
      match e.pendingWrite? with
      | some (mask, value) => .update handle mask value
      | none => .load handle := by
  unfold throughHandle
  cases hcase : e.op <;> first | rfl | simp [hcase, Operation.isDevice] at hop

/-- What a controller takes to be pending after a call of the platform. -/
def told (belief : Word) : PlatformCall → Word
  | .pendingChanged pending => pending
  | _ => belief

/-- What a controller takes to be pending after an event: it sees what devices do, and believes what it is
told. -/
def believed (belief : Word) (e : Event) : Word :=
  e.outcome.calls.foldl told (e.op.driveLines belief)

theorem foldl_told_of_silent {calls : List PlatformCall}
    (hsilent : ∀ pending, .pendingChanged pending ∉ calls) (belief : Word) :
    calls.foldl told belief = belief := by
  induction calls with
  | nil => rfl
  | cons c calls ih =>
      have hrest : ∀ pending, .pendingChanged pending ∉ calls :=
        fun pending hmem => hsilent pending (List.mem_cons_of_mem _ hmem)
      have hkept : told belief c = belief := by
        cases c with
        | pendingChanged pending => exact absurd List.mem_cons_self (hsilent pending)
        | _ => rfl
      rw [List.foldl_cons, hkept, ih hrest]

end Event

/-- How an event may change the pending bits, and what it then calls. -/
inductive PendingStep (e : Event) : Prop
  | raised {bits : Word} (hop : e.op = .raiseLines bits)
      (hmip : e.outcome.hart.mip = Pending.raise bits e.before.mip) (hcalls : e.outcome.calls = [])
  | lowered {bits : Word} (hop : e.op = .lowerLines bits)
      (hmip : e.outcome.hart.mip = Pending.lower bits e.before.mip) (hcalls : e.outcome.calls = [])
  /-- Software replaces bits of its own, and the platform hears once what is pending now. -/
  | written {mask value : Word} (hop : e.op.isDevice = false)
      (hwrite : e.pendingWrite? = some (mask, value)) (hmask : Within softwarePending mask)
      (hnew : AgreeOn mask e.outcome.hart.mip value)
      (hold : AgreeOn (~~~mask) e.outcome.hart.mip e.before.mip)
      (hcalls : e.outcome.calls = [.pendingChanged e.outcome.hart.mip])
  /-- Any other operation keeps all bits, and the platform hears nothing of them. -/
  | kept (hop : e.op.isDevice = false) (hwrite : e.pendingWrite? = none)
      (hmip : e.outcome.hart.mip = e.before.mip)
      (hcalls : ∀ pending, .pendingChanged pending ∉ e.outcome.calls)

/-! ## Every operation is such a step -/

section Step

variable {answers : Answers} {h : Hart} {op : Operation} {o : Outcome Reply}

/-- A register that accepts a value changes pending bits and announces them, or does neither. -/
theorem pending_afterInstall {n : CsrNumber} {r : Register} (hwrite : h.writeDecision n = .ok r)
    (value : Word) :
    (∃ mask, h.pendingMask? n = some (mask &&& softwarePending) ∧
      h.afterInstall r value = h.withPending mask value ∧
      h.installCalls r value = [.pendingChanged (h.withPending mask value).mip]) ∨
    (h.pendingMask? n = none ∧ (h.afterInstall r value).mip = h.mip ∧
      ∀ pending, .pendingChanged pending ∉ h.installCalls r value) := by
  obtain ⟨row, hrow, rfl⟩ := find?_of_writeDecision hwrite
  have hmip : row.register = .mip ↔ n = .mip := CsrRow.register_eq_iff ⟨_, rfl, rfl, rfl⟩ hrow
  have hsip : row.register = .sip ↔ n = .sip := CsrRow.register_eq_iff ⟨_, rfl, rfl, rfl⟩ hrow
  simp only [pendingMask?, ← hmip, ← hsip]
  cases row.register with
  | mip => exact Or.inl ⟨softwarePending, rfl, rfl, rfl⟩
  | sip => exact Or.inl ⟨h.csrs.mideleg, rfl, rfl, rfl⟩
  | mstatus | sstatus =>
      refine Or.inr ⟨rfl, rfl, ?_⟩
      intro pending hmem
      cases eq_flushTlb_of_mem_commitCalls h hmem
  | _ => exact Or.inr ⟨rfl, rfl, fun _ => List.not_mem_nil⟩

theorem AccessOutcome.pendingStep (ho : AccessOutcome answers h op o) (hop : op.isDevice = false) :
    PendingStep ⟨answers, h, op, o⟩ := by
  cases ho with
  | @refused n half fault ho =>
      obtain ⟨hresult, hhart, hcalls⟩ := ho
      refine .kept hop ?_ ?_ ?_
      · simp [Event.pendingWrite?, hresult]
      · cases fault <;> simp [hhart, afterRefusal]
      · cases fault <;> simp [hcalls, refusalCalls]
  | shown hread ho =>
      obtain ⟨hresult, hhart, hcalls⟩ := ho
      refine .kept hop ?_ (by rw [hhart]) (by simp [hcalls])
      simp [Event.pendingWrite?, hresult, hread]
  | @wrote reply n r value hwritten hwrite ho =>
      obtain ⟨hresult, hhart, hcalls⟩ := ho
      have hpending : (⟨answers, h, op, o⟩ : Event).pendingWrite? =
          (h.pendingMask? n).map fun mask => (mask, value) := by
        simp only [Event.pendingWrite?, hresult, hwritten]
      rcases pending_afterInstall hwrite (h.xlen.truncate value) with
        ⟨mask, hmask, hafter, hannounced⟩ | ⟨hnone, hmip, hsilent⟩
      · rw [hafter] at hhart
        rw [hannounced, ← hhart] at hcalls
        -- the value was truncated, but that spares every bit that software may change
        have hwidth : mask &&& softwarePending &&& h.xlen.mask = mask &&& softwarePending := by
          rw [BitVec.and_assoc]
          cases h.xlen <;> rfl
        refine .written hop (by rw [hpending, hmask]; rfl) (within_and ..) ?_ ?_ hcalls
        · rw [hhart]
          exact (agreeOn_merge_new ..).trans ((h.xlen.agreeOn_truncate value).mono hwidth)
        · rw [hhart]
          exact agreeOn_merge_old ..
      · refine .kept hop (by rw [hpending, hnone]; rfl) ?_ ?_
        · rw [hhart]
          exact hmip
        · rw [hcalls]
          exact hsilent

theorem Effect.pendingStep (ho : Effect answers h op o.result o.hart o.calls)
    (hop : op.isDevice = false) (hregister : op.isRegisterInstruction = false) :
    PendingStep ⟨answers, h, op, o⟩ := by
  have hwrite : (⟨answers, h, op, o⟩ : Event).pendingWrite? = none := by
    cases hresult : o.result with
    | error u => simp [Event.pendingWrite?, hresult]
    | ok reply =>
        simp [Event.pendingWrite?, hresult, Operation.written?_eq_none hregister]
  suffices hkept : o.hart.mip = h.mip ∧ ∀ pending, .pendingChanged pending ∉ o.calls from
    .kept hop hwrite hkept.1 hkept.2
  generalize o.result = result, o.hart = h', o.calls = calls at ho
  cases ho with
  | quiet hsame => exact ⟨hsame.mip, by simp⟩
  | trapped hsame hcalls =>
      refine ⟨hsame.mip, fun pending hmem => ?_⟩
      cases hcalls _ hmem
  | written hwrite? _ =>
      rw [Operation.isRegisterInstruction_of_write? hwrite?] at hregister
      cases hregister
  | supervisorReturn | machineReturn =>
      refine ⟨rfl, fun pending hmem => ?_⟩
      cases eq_flushTlb_of_mem_returnCalls h hmem
  | raisedLines | loweredLines => cases hop
  | _ => exact ⟨rfl, by simp⟩

theorem pendingStep_event (op : Operation) (answers : Answers) (h : Hart) :
    PendingStep (op.event answers h) := by
  cases hop : op.isDevice with
  | true =>
      cases op with
      | raiseLines bits => exact .raised rfl rfl rfl
      | lowerLines bits => exact .lowered rfl rfl rfl
      | _ => cases hop
  | false =>
      cases hregister : op.isRegisterInstruction with
      | true => exact (accessOutcome_perform hregister).pendingStep hop
      | false => exact (effect_perform answers h op).pendingStep hop hregister

end Step

/-! ## What a step does to a line, to a belief and to the register behind a handle -/

namespace PendingStep

variable {e : Event} (step : PendingStep e)

include step

/-- A line that software has no part in is where a device has driven it, or where it was. -/
theorem getLsbD_mip {line : Nat} (hline : softwarePending.getLsbD line = false) :
    (e.op.drives? line).getD (e.before.mip.getLsbD line) = e.outcome.hart.mip.getLsbD line := by
  cases step with
  | @raised bits hop hmip hcalls =>
      rw [hop, hmip, Pending.getLsbD_raise, Operation.drives?]
      cases bits.getLsbD line <;> rfl
  | @lowered bits hop hmip hcalls =>
      rw [hop, hmip, Pending.getLsbD_lower, Operation.drives?]
      cases bits.getLsbD line <;> rfl
  | @written mask value hop hwrite hmask hnew hold hcalls =>
      have hbit : mask.getLsbD line = false := by
        rw [← Bool.not_eq_true]
        intro htrue
        exact absurd (within_iff.1 hmask line htrue) (by simp [hline])
      rw [Operation.drives?_eq_none hop, Option.getD_none, hold.getLsbD_eq hbit]
  | kept hop hwrite hmip hcalls => rw [Operation.drives?_eq_none hop, Option.getD_none, hmip]

/-- A controller that was right stays right. -/
theorem believed_mip : e.believed e.before.mip = e.outcome.hart.mip := by
  cases step with
  | raised hop hmip hcalls => simp [Event.believed, hop, hmip, hcalls, Operation.driveLines]
  | lowered hop hmip hcalls => simp [Event.believed, hop, hmip, hcalls, Operation.driveLines]
  | written hop hwrite hmask hnew hold hcalls => simp [Event.believed, hcalls, Event.told]
  | kept hop hwrite hmip hcalls =>
      rw [Event.believed, Operation.driveLines_eq hop, hmip]
      exact Event.foldl_told_of_silent hcalls _

/-- Through any copy of the handle, the register becomes what the hart then finds pending. -/
theorem perform_throughHandle {count handle : Nat} (hhandle : handle < count) :
    ((PendingHandles.copies e.before.mip count).perform (e.throughHandle handle)).2 =
      .copies e.outcome.hart.mip count := by
  cases step with
  | raised hop hmip hcalls =>
      rw [Event.throughHandle, hop, hmip]
      exact PendingHandles.modify_copies hhandle _
  | lowered hop hmip hcalls =>
      rw [Event.throughHandle, hop, hmip]
      exact PendingHandles.modify_copies hhandle _
  | written hop hwrite hmask hnew hold hcalls =>
      rw [Event.throughHandle_eq hop, hwrite, eq_merge_of_agreeOn hold hnew]
      exact PendingHandles.modify_copies hhandle _
  | kept hop hwrite hmip hcalls =>
      rw [Event.throughHandle_eq hop, hwrite, hmip]
      rfl

end PendingStep

/-! ## Runs -/

theorem run_drives (platform : Platform) (s : Session) (ops : List Operation) {line : Nat}
    (hline : softwarePending.getLsbD line = false) :
    (s.run platform ops).2.hart.mip.getLsbD line =
      ops.foldl (fun level op => (op.drives? line).getD level) (s.hart.mip.getLsbD line) := by
  induction ops generalizing s with
  | nil => rfl
  | cons op ops ih =>
      have hfirst := (pendingStep_event op (platform s.calls) s.hart).getLsbD_mip hline
      rw [Session.run_cons, ih, List.foldl_cons]
      exact congrArg (ops.foldl _) hfirst.symm

/-- Software that no device disturbs changes two lines at most. -/
theorem run_software (platform : Platform) (s : Session) {ops : List Operation}
    (hsoftware : ∀ op ∈ ops, op.isDevice = false) {line : Nat} (hline : line ≠ 1 ∧ line ≠ 5) :
    (s.run platform ops).2.hart.mip.getLsbD line = s.hart.mip.getLsbD line := by
  have howned : softwarePending.getLsbD line = false := by
    rw [getLsbD_softwarePending, decide_eq_false (not_or.2 hline)]
  have hsilent : mostRecent? (Operation.drives? line) ops = none :=
    mostRecent?_eq_none fun op hop => Operation.drives?_eq_none (hsoftware op hop) line
  rw [run_drives platform s ops howned, foldl_getD, hsilent, Option.getD_none]

/-- Whichever copies of the handle the steps of a run go through, the register behind them follows the
run. -/
theorem run_throughHandles (platform : Platform) (s : Session) (ops : List Operation) {count : Nat}
    {history : List PendingHandles.Operation}
    (hhistory : List.Forall₂ (fun e op => ∃ handle < count, op = Event.throughHandle e handle)
      (s.events platform ops) history) :
    (PendingHandles.copies s.hart.mip count).run history =
      .copies (s.run platform ops).2.hart.mip count := by
  induction ops generalizing s history with
  | nil =>
      cases hhistory
      rfl
  | cons op ops ih =>
      rw [Session.events_cons] at hhistory
      obtain _ | ⟨⟨handle, hhandle, rfl⟩, hrest⟩ := hhistory
      have hfirst := (pendingStep_event op (platform s.calls) s.hart).perform_throughHandle hhandle
      rw [PendingHandles.run, List.foldl_cons, ← PendingHandles.run]
      exact (congrArg (PendingHandles.run · _) hfirst).trans (ih _ hrest)

/-- In every run of a hart and its devices, every event is one of the four kinds of steps.  So every line
outside the two of software is where the devices have last driven it, and low if they never have; a
controller that starts with nothing and believes what it sees and hears knows the register; and so does
every copy of the handle, whichever copies were used. -/
theorem pending_owned {c : Config} {h₀ : Hart} (hc : ofConfig c = .ok h₀) (platform : Platform)
    (ops : List Operation) :
    let events := (Session.start h₀).events platform ops
    let h := ((Session.start h₀).run platform ops).2.hart
    (∀ e ∈ events, PendingStep e) ∧
      (∀ line, softwarePending.getLsbD line = false →
        h.mip.getLsbD line = (ops.reverse.findSome? (·.drives? line)).getD false) ∧
      events.foldl Event.believed 0 = h.mip ∧
      ∀ (count : Nat) (history : List PendingHandles.Operation),
        List.Forall₂ (fun e op => ∃ handle < count + 1, op = Event.throughHandle e handle)
          events history →
        ∀ handle < count + 1,
          (PendingHandles.empty.run
            (.fresh :: List.replicate count (.copy 0) ++ history)).load? handle = some h.mip := by
  intro events h
  obtain ⟨p, rfl⟩ := eq_atReset_of_ofConfig hc
  refine ⟨Session.forall_mem_events _ _ _ pendingStep_event, ?_, ?_, ?_⟩
  · intro line hline
    have hlow : (Session.start (atReset c p)).hart.mip.getLsbD line = false := BitVec.getLsbD_zero
    have hdriven := run_drives platform (Session.start (atReset c p)) ops hline
    rw [hlow, foldl_getD] at hdriven
    exact hdriven
  · exact Session.foldl_events platform (Session.start (atReset c p)) ops
      fun op answers h => (pendingStep_event op answers h).believed_mip
  · intro count history hhistory handle hhandle
    have hshared := run_throughHandles platform (Session.start (atReset c p)) ops hhistory
    rw [PendingHandles.run, List.foldl_append, ← PendingHandles.run, ← PendingHandles.run,
      PendingHandles.run_copies]
    exact (congrArg (PendingHandles.load? · handle) hshared).trans (PendingHandles.load?_copies hhandle)

/-- A 32-bit hart whose Supervisor mode owns only its software interrupt.  A device raises a line above
bit 31 and two timer lines, and lowers one of these again.  The interrupt that software sets is there at the
end, and so is the other timer line, although `sip` is told to clear it. -/
theorem pending_owned_narrow :
    let ops : List Operation :=
      [.writeCsr CsrNumber.mideleg 0x2, .raiseLines 0x8000000A0, .writeCsr CsrNumber.sip 0x2,
        .lowerLines 0x80, .clearCsr CsrNumber.sip 0x20 true]
    ∃ h₀, ofConfig { xlen := .rv32 } = .ok h₀ ∧
      ((Session.start h₀).run (fun _ => .identity) ops).2.hart.mip.getLsbD 35 = true ∧
      ((Session.start h₀).events (fun _ => .identity) ops).foldl Event.believed 0 = 0x800000022 ∧
      ((Session.start h₀).run (fun _ => .identity) ops).2.hart.mip = 0x800000022 := by
  intro ops
  have hc : ofConfig { xlen := .rv32 } = .ok (atReset { xlen := .rv32 } .machine) := by rfl
  obtain ⟨-, hlines, hbelief, -⟩ := pending_owned hc (fun _ => .identity) ops
  have hline : (ops.reverse.findSome? (·.drives? 35)).getD false = true := by decide
  have hheard : ((Session.start (atReset { xlen := .rv32 } .machine)).events (fun _ => .identity)
      ops).foldl Event.believed 0 = 0x800000022 := by
    decide +kernel
  have howned : softwarePending.getLsbD 35 = false := by
    rw [getLsbD_softwarePending]
    rfl
  exact ⟨_, hc, (hlines 35 howned).trans hline, hheard, hbelief.symm.trans hheard⟩

end Hart
end PrivilegedHart
