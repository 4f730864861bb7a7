import PrivilegedHart.Proofs.Counter
import PrivilegedHart.Proofs.Instruction
import PrivilegedHart.Proofs.WellFormed

/-!
# The counters are plain counters

The counters of a hart are views of one raw count, and a write moves a view without touching the raw count.
The reference here has none of that: it keeps two independent words, adds to both of them when instructions
retire, and replaces a word or a half of it when a register is written.  It follows a run by what each
operation was and what it returned.  After every run the counters of the hart show the two words.

The raw count is the sum of what has been retired, whatever was written, and the counters that lower
privileges read are those of Machine mode.
-/

namespace PrivilegedHart

/-- Two independent counters. -/
structure PlainCounters where
  cycle : Word
  instret : Word
  deriving DecidableEq, Repr

namespace PlainCounters

def zero : PlainCounters := ⟨0, 0⟩

def advance (plain : PlainCounters) (count : Word) : PlainCounters :=
  ⟨plain.cycle + count, plain.instret + count⟩

/-- A counter after a write of its register: all of it on a 64-bit hart, its low half on a 32-bit hart. -/
def replaceLow (x : Xlen) (counter value : Word) : Word :=
  match x with
  | .rv64 => value
  | .rv32 => Word.ofHalves counter.high value.low

/-- A counter after a write of its high half. -/
def replaceHigh (counter value : Word) : Word := Word.ofHalves value.low counter.low

/-- Write a value to the register of a number.  Only four numbers are counters. -/
def write (x : Xlen) (plain : PlainCounters) (n : CsrNumber) (value : Word) : PlainCounters :=
  if n = .mcycle then { plain with cycle := replaceLow x plain.cycle value }
  else if n = .minstret then { plain with instret := replaceLow x plain.instret value }
  else if n = .mcycleh then { plain with cycle := replaceHigh plain.cycle value }
  else if n = .minstreth then { plain with instret := replaceHigh plain.instret value }
  else plain

/-- Follow an operation by what it returned.  An operation that fails changes nothing. -/
def follow (x : Xlen) (plain : PlainCounters) :
    Hart.Operation × Except Unwind Hart.Reply → PlainCounters
  | (_, .error _) => plain
  | (.retire count, .ok _) => plain.advance count
  | (op, .ok reply) =>
      match op.written? reply with
      | some (n, value) => plain.write x n value
      | none => plain

theorem follow_ok_of_ne_retire {op : Hart.Operation} (hop : ∀ count, op ≠ .retire count) (x : Xlen)
    (plain : PlainCounters) (reply : Hart.Reply) :
    plain.follow x (op, .ok reply) =
      match op.written? reply with
      | some (n, value) => plain.write x n value
      | none => plain := by
  cases op with
  | retire count => exact absurd rfl (hop count)
  | _ => rfl

end PlainCounters

namespace Counters

def plain (c : Counters) : PlainCounters := ⟨c.mcycle, c.minstret⟩

theorem plain_zero : zero.plain = .zero := by decide

theorem plain_retire (c : Counters) (count : Word) :
    (c.retire count).plain = c.plain.advance count := by
  rw [plain, mcycle_retire, minstret_retire]
  rfl

end Counters

theorem Xlen.low_truncate (x : Xlen) (w : Word) : (x.truncate w).low = w.low := by
  cases x with
  | rv32 => rw [truncate, mask, Word.and_lowHalf, Word.low_ofHalves]
  | rv64 => rw [truncate, mask, BitVec.and_allOnes]

namespace VirtualCounter

variable (c : VirtualCounter) (raw value : Word) (x : Xlen)

theorem current_writeLow_truncate :
    (c.writeLow raw (x.truncate value) x).current raw =
      PlainCounters.replaceLow x (c.current raw) value := by
  cases x with
  | rv32 =>
      rw [current_writeLow_rv32, Xlen.low_truncate]
      rfl
  | rv64 =>
      rw [current_writeLow_rv64, Xlen.truncate, Xlen.mask, BitVec.and_allOnes]
      rfl

theorem current_writeHigh_truncate :
    (c.writeHigh raw (x.truncate value)).current raw =
      PlainCounters.replaceHigh (c.current raw) value := by
  rw [current_writeHigh, Xlen.low_truncate]
  rfl

end VirtualCounter

namespace Hart

open HartAction

variable {answers : Answers} {h : Hart} {op : Operation}

def Operation.retired : Operation → Word
  | retire count => count
  | _ => 0

/-- The instructions that a run retires, without a bound. -/
def Operation.retiredTotal : List Operation → Nat
  | [] => 0
  | op :: ops => op.retired.toNat + retiredTotal ops

theorem Operation.retired_of_ne_retire (hop : ∀ count, op ≠ .retire count) : op.retired = 0 := by
  cases op with
  | retire count => exact absurd rfl (hop count)
  | _ => rfl

/-! ## Steps -/

/-- A register that accepts a value does to the counters what the reference does. -/
theorem plain_afterInstall {n : CsrNumber} {r : Register} (hwrite : h.writeDecision n = .ok r)
    (value : Word) :
    (h.afterInstall r (h.xlen.truncate value)).counters.plain =
      h.counters.plain.write h.xlen n value := by
  obtain ⟨row, hrow, rfl⟩ := find?_of_writeDecision hwrite
  -- each counter register has one number
  have hmcycle : row.register = .mcycle ↔ n = .mcycle :=
    CsrRow.register_eq_iff ⟨_, rfl, rfl, rfl⟩ hrow
  have hminstret : row.register = .minstret ↔ n = .minstret :=
    CsrRow.register_eq_iff ⟨_, rfl, rfl, rfl⟩ hrow
  have hmcycleh : row.register = .mcycleh ↔ n = .mcycleh :=
    CsrRow.register_eq_iff ⟨_, rfl, rfl, rfl⟩ hrow
  have hminstreth : row.register = .minstreth ↔ n = .minstreth :=
    CsrRow.register_eq_iff ⟨_, rfl, rfl, rfl⟩ hrow
  simp only [PlainCounters.write, ← hmcycle, ← hminstret, ← hmcycleh, ← hminstreth]
  cases row.register with
  | mcycle =>
      exact congrArg (PlainCounters.mk · h.counters.minstret)
        (VirtualCounter.current_writeLow_truncate ..)
  | minstret =>
      exact congrArg (PlainCounters.mk h.counters.mcycle)
        (VirtualCounter.current_writeLow_truncate ..)
  | mcycleh =>
      exact congrArg (PlainCounters.mk · h.counters.minstret)
        (VirtualCounter.current_writeHigh_truncate ..)
  | minstreth =>
      exact congrArg (PlainCounters.mk h.counters.mcycle)
        (VirtualCounter.current_writeHigh_truncate ..)
  | _ => rfl

theorem AccessOutcome.plain_eq {o : Outcome Reply} (ho : AccessOutcome answers h op o)
    (hop : op.isRegisterInstruction = true) :
    o.hart.counters.plain = h.counters.plain.follow h.xlen (op, o.result) := by
  have hretire : ∀ count, op ≠ .retire count := by
    rintro count rfl
    cases hop
  cases ho with
  | @refused n half fault ho =>
      rw [ho.hart_eq, ho.result_eq]
      cases fault <;> rfl
  | shown hread ho =>
      rw [ho.hart_eq, ho.result_eq, PlainCounters.follow_ok_of_ne_retire hretire, hread]
  | wrote hwritten hwrite ho =>
      rw [ho.hart_eq, ho.result_eq, PlainCounters.follow_ok_of_ne_retire hretire, hwritten]
      exact plain_afterInstall hwrite _

theorem AccessOutcome.raw_eq {o : Outcome Reply} (ho : AccessOutcome answers h op o) :
    o.hart.counters.raw = h.counters.raw := by
  cases ho with
  | @refused n half fault ho =>
      rw [ho.hart_eq]
      cases fault <;> rfl
  | shown hread ho => rw [ho.hart_eq]
  | @wrote reply n r value hwritten hwrite ho =>
      rw [ho.hart_eq]
      cases r <;> rfl

theorem Effect.counters_eq {result : Except Unwind Reply} {h' : Hart} {calls : List PlatformCall}
    (heffect : Effect answers h op result h' calls) (hop : op.isRegisterInstruction = false)
    (hretire : ∀ count, op ≠ .retire count) : h'.counters = h.counters := by
  cases heffect with
  | quiet hsame => exact hsame.counters
  | trapped hsame hcalls => exact hsame.counters
  | written hwrite? hwrite =>
      rw [Operation.isRegisterInstruction_of_write? hwrite?] at hop
      cases hop
  | retired count => exact absurd rfl (hretire count)
  | _ => rfl

namespace Session

/-- A step does to the counters what the reference does. -/
theorem step_plain (platform : Platform) (s : Session) (op : Operation) :
    (s.step platform op).2.hart.counters.plain =
      s.hart.counters.plain.follow s.hart.xlen (op, (s.step platform op).1) := by
  cases hop : op.isRegisterInstruction with
  | true => exact (accessOutcome_perform hop).plain_eq hop
  | false =>
      -- of the other operations only `retire` touches the counters
      by_cases hretire : ∃ count, op = .retire count
      · obtain ⟨count, rfl⟩ := hretire
        exact Counters.plain_retire ..
      · have hcounters : (s.step platform op).2.hart.counters = s.hart.counters :=
          (effect_perform (platform s.calls) s.hart op).counters_eq hop (not_exists.1 hretire)
        rw [hcounters]
        cases hresult : (s.step platform op).1 with
        | error u => rfl
        | ok reply =>
            rw [PlainCounters.follow_ok_of_ne_retire (not_exists.1 hretire), Operation.written?_eq_none hop]

theorem step_raw (platform : Platform) (s : Session) (op : Operation) :
    (s.step platform op).2.hart.counters.raw = s.hart.counters.raw + op.retired := by
  by_cases hretire : ∃ count, op = .retire count
  · obtain ⟨count, rfl⟩ := hretire
    rfl
  · rw [Operation.retired_of_ne_retire (not_exists.1 hretire), BitVec.ofNat_eq_ofNat,
      BitVec.add_zero]
    cases hop : op.isRegisterInstruction with
    | true => exact (accessOutcome_perform hop).raw_eq
    | false =>
        have heffect := effect_perform (platform s.calls) s.hart op
        exact congrArg Counters.raw (heffect.counters_eq hop (not_exists.1 hretire))

/-! ## Runs -/

theorem run_plain {c : Config} {s : Session} (platform : Platform) (built : BuiltFrom c s.hart)
    (ops : List Operation) :
    (s.run platform ops).2.hart.counters.plain =
      (ops.zip (s.run platform ops).1).foldl (PlainCounters.follow c.xlen) s.hart.counters.plain := by
  induction ops generalizing s with
  | nil => rfl
  | cons op ops ih =>
      -- the reference needs to know the register width, which stays the same
      have hstep : BuiltFrom c (s.step platform op).2.hart :=
        built.effect (effect_perform (platform s.calls) s.hart op)
      rw [run_cons, List.zip_cons_cons, List.foldl_cons, ← built.xlen, ← step_plain, built.xlen]
      exact ih hstep

theorem run_raw (platform : Platform) (s : Session) (ops : List Operation) :
    (s.run platform ops).2.hart.counters.raw.toNat =
      (s.hart.counters.raw.toNat + Operation.retiredTotal ops) % 2 ^ 64 := by
  induction ops generalizing s with
  | nil => exact (Nat.mod_eq_of_lt s.hart.counters.raw.isLt).symm
  | cons op ops ih =>
      rw [run_cons, ih, step_raw, BitVec.toNat_add, Nat.mod_add_mod, Nat.add_assoc]
      rfl

end Session

/-! ## Counters of lower privileges -/

/-- The counters that lower privileges may read, each with the register that Machine mode reads. -/
def userCounters : List (CsrNumber × CsrNumber) :=
  [(.cycle, .mcycle), (.instret, .minstret), (.cycleh, .mcycleh), (.instreth, .minstreth)]

/-- Where a counter can be read at all, Machine mode reads the same. -/
theorem readDecision_userCounters :
    ∀ pair ∈ userCounters, ∀ {reader : Privilege} {value : Word},
      { h with privilege := reader }.readDecision pair.1 = .ok value →
        { h with privilege := .machine }.readDecision pair.2 = .ok value := by
  intro pair hpair reader value hread
  -- the read went through, so its enable was set and the width was right; Machine mode asks for less
  obtain ⟨-, row, hrow, hfault, hvalue⟩ := of_readDecision hread
  simp only [userCounters, List.mem_cons, List.not_mem_nil, or_false] at hpair
  rcases hpair with rfl | rfl | rfl | rfl
  · cases hrow
    rw [readDecision_of_find? rfl rfl rfl]
    exact congrArg Except.ok hvalue
  · cases hrow
    rw [readDecision_of_find? rfl rfl rfl]
    exact congrArg Except.ok hvalue
  · cases hrow
    have hx : { h with privilege := Privilege.machine }.readFault? .mcycleh = none :=
      requireRv32_of_orElse hfault
    rw [readDecision_of_find? rfl rfl hx]
    exact congrArg Except.ok hvalue
  · cases hrow
    have hx : { h with privilege := Privilege.machine }.readFault? .minstreth = none :=
      requireRv32_of_orElse hfault
    rw [readDecision_of_find? rfl rfl hx]
    exact congrArg Except.ok hvalue

/-- Whatever happens to a hart, its counters are two plain counters that have counted what was retired and
taken what was written.  Its raw count is the sum of what was retired, and every counter that can be read at
some privilege shows there what Machine mode reads. -/
theorem counters_eq_plain {c : Config} {h₀ : Hart} (hc : ofConfig c = .ok h₀) (platform : Platform)
    (ops : List Operation) :
    let run := (Session.start h₀).run platform ops
    let h := run.2.hart
    h.counters.plain = (ops.zip run.1).foldl (PlainCounters.follow c.xlen) .zero ∧
      h.counters.raw.toNat = Operation.retiredTotal ops % 2 ^ 64 ∧
      ∀ pair ∈ userCounters, ∀ (reader : Privilege) (value : Word) (answers answers' : Answers),
        ((readCsr pair.1).run answers { h with privilege := reader }).result = .ok value →
          ((readCsr pair.2).run answers' { h with privilege := .machine }).result = .ok value := by
  intro run h
  obtain ⟨p, rfl⟩ := eq_atReset_of_ofConfig hc
  have built : BuiltFrom c (Session.start (atReset c p)).hart := ⟨rfl, rfl, rfl, rfl⟩
  refine ⟨?_, ?_, ?_⟩
  · have hplain := Session.run_plain platform built ops
    have hzero : (Session.start (atReset c p)).hart.counters.plain = .zero := Counters.plain_zero
    rw [hzero] at hplain
    exact hplain
  · have hraw := Session.run_raw platform (Session.start (atReset c p)) ops
    have hzero : (Session.start (atReset c p)).hart.counters.raw.toNat = 0 := rfl
    rw [hzero, Nat.zero_add] at hraw
    exact hraw
  · intro pair hpair reader value answers answers' hread
    rw [result_readCsr_eq_ok_iff] at hread ⊢
    exact readDecision_userCounters pair hpair hread

/-- On a 32-bit hart the high half is written just before the low half carries into it. -/
theorem counters_eq_plain_carry :
    let ops : List Operation := [.retire 0xFFFFFFFF, .writeCsr CsrNumber.mcycleh 7, .retire 2]
    let run := (Session.start (atReset { xlen := .rv32 } .machine)).run (fun _ => .identity) ops
    ofConfig { xlen := .rv32 } = .ok (atReset { xlen := .rv32 } .machine) ∧
      run.1 = [.ok .done, .ok .done, .ok .done] ∧
      run.2.hart.counters.plain = ⟨0x800000001, 0x100000001⟩ := by
  have hc : ofConfig { xlen := .rv32 } = .ok (atReset { xlen := .rv32 } .machine) := by rfl
  have hresults : ((Session.start (atReset { xlen := .rv32 } .machine)).run (fun _ => .identity)
      [.retire 0xFFFFFFFF, .writeCsr CsrNumber.mcycleh 7, .retire 2]).1 =
        [.ok .done, .ok .done, .ok .done] := by
    rfl
  obtain ⟨hplain, -, -⟩ := counters_eq_plain hc (fun _ => .identity)
    [.retire 0xFFFFFFFF, .writeCsr CsrNumber.mcycleh 7, .retire 2]
  intro ops run
  refine ⟨hc, hresults, hplain.trans ?_⟩
  rw [hresults]
  decide +kernel

end Hart
end PrivilegedHart
