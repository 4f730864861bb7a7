import PrivilegedHart.Proofs.Masks
import PrivilegedHart.Status

/-!
# What a write leaves in the status register

`mstatus` changes in two ways.  A commit takes a written value through the mask of writable fields, and the
floating-point registers mark their state as dirty.  Both recompute the dirty summary afterwards.  This
module says which bits each of them keeps, and that the summary and the virtual-memory scheme stay sound.
-/

namespace PrivilegedHart
namespace Status

open Word

/-- The status after `value` has been committed over `old`. -/
def commit (x : Xlen) (old value : Word) : Word :=
  summarize x (BitField.merge old value (commitMask value))

/-- The status after the floating-point state has become dirty. -/
def markFloat (x : Xlen) (old : Word) : Word := summarize x (BitField.set old fs dirty)

/-- The fields that a status can have; all other bits are zero. -/
def present (x : Xlen) : Word := writable ||| vm ||| sd x

variable (x : Xlen) (old value status : Word)

theorem toNat_get_spp :
    (BitField.get status spp).toNat = 0 ∨ (BitField.get status spp).toNat = 1 := by
  -- the field is one bit wide
  have hle : (BitField.get status spp).toNat ≤ 1 :=
    Nat.le_trans (toNat_get_le ..) (by decide +kernel)
  omega

/-! ## The dirty summary -/

theorem agreeOn_summarize : AgreeOn (~~~sd x) (summarize x status) status := agreeOn_set ..

theorem agreeOn_summarize_of {mask : Word} (hmask : mask &&& ~~~sd x = mask) :
    AgreeOn mask (summarize x status) status :=
  (agreeOn_summarize x status).mono hmask

theorem get_summarize {field : Word} (hfield : field &&& ~~~sd x = field) :
    BitField.get (summarize x status) field = BitField.get status field :=
  (agreeOn_summarize_of x status hfield).get_eq

theorem isDirty_summarize : isDirty (summarize x status) = isDirty status := by
  have hfs : BitField.get (summarize x status) fs = BitField.get status fs :=
    get_summarize x status (by cases x <;> decide)
  have hxs : BitField.get (summarize x status) xs = BitField.get status xs :=
    get_summarize x status (by cases x <;> decide)
  unfold isDirty
  rw [hfs, hxs]

theorem summarize_and_sd :
    summarize x status &&& sd x = if isDirty status then sd x else 0 := by
  have htaken := agreeOn_merge_new status
    ((if isDirty status then (1 : Word) else 0) <<< BitField.position (sd x)) (sd x)
  rw [← set_eq_merge] at htaken
  refine Eq.trans htaken ?_
  -- the value that moves into the field is `0` or `1`
  cases isDirty status <;> cases x <;> decide +kernel

/-- The summary bit of a recomputed status tells whether an extension state is dirty. -/
theorem summarize_sound :
    summarize x status &&& sd x ≠ 0 ↔
      BitField.get (summarize x status) fs = dirty ∨
        BitField.get (summarize x status) xs = dirty := by
  have hdirty : isDirty (summarize x status) = true ↔
      BitField.get (summarize x status) fs = dirty ∨
        BitField.get (summarize x status) xs = dirty := by
    simp only [isDirty, Bool.or_eq_true, beq_iff_eq]
  rw [← hdirty, isDirty_summarize, summarize_and_sd]
  cases isDirty status <;> cases x <;> decide

/-! ## Commits -/

theorem commitMask_and : commitMask value &&& (writable ||| vm) = commitMask value := by
  unfold commitMask
  split <;> decide

/-- Away from the scheme the mask of a commit does not depend on the value. -/
theorem agreeOn_commitMask {mask : Word} (hmask : mask &&& vm = 0) :
    AgreeOn mask (commitMask value) writable := by
  unfold commitMask
  split
  -- the scheme is all that a supported code adds to the mask
  · rw [agreeOn_iff]
    intro i hi
    have hbit := congrArg (fun w => w.getLsbD i) hmask
    have hvm : vm.getLsbD i = false := by simpa [hi] using hbit
    rw [BitVec.getLsbD_or, hvm, Bool.or_false]
  · exact .refl ..

/-- A commit keeps what it cannot write and what the written value leaves as it was, apart from the
summary. -/
theorem commit_keeps {mask : Word} (hvalue : AgreeOn (mask &&& (writable ||| vm)) value old)
    (hmask : mask &&& ~~~sd x = mask) : AgreeOn mask (commit x old value) old :=
  (agreeOn_summarize_of x _ hmask).trans (hvalue.merge_keeps (commitMask_and value))

theorem commit_within (hold : Within (present x) old) :
    Within (present x) (commit x old value) := by
  have hsd : sd x &&& present x = sd x := by cases x <;> decide
  have hfields : (writable ||| vm) &&& present x = writable ||| vm := by cases x <;> decide
  have hmask : Within (writable ||| vm) (value &&& commitMask value) :=
    (within_and ..).mono (commitMask_and value)
  exact (hold.merge (hmask.mono hfields)).set hsd _

/-- The written scheme is taken if it is supported, and otherwise the old one stays. -/
theorem get_commit_vm :
    BitField.get (commit x old value) vm =
      if supportsScheme (BitField.get value vm) then BitField.get value vm
      else BitField.get old vm := by
  have hread : BitField.get (commit x old value) vm =
      BitField.get (BitField.merge old value (commitMask value)) vm :=
    get_summarize x _ (by cases x <;> decide)
  rw [hread]
  -- the mask of a commit holds the scheme exactly if the written one is supported
  cases hscheme : supportsScheme (BitField.get value vm) with
  | true =>
      have htaken : AgreeOn vm (BitField.merge old value (commitMask value)) value := by
        refine (agreeOn_merge_new old value (commitMask value)).mono ?_
        rw [commitMask, if_pos hscheme]
        decide
      rw [htaken.get_eq, if_pos rfl]
  | false =>
      have hkept : AgreeOn vm (BitField.merge old value (commitMask value)) old := by
        refine (agreeOn_merge_old old value (commitMask value)).mono ?_
        rw [commitMask, if_neg (by rw [hscheme]; exact Bool.false_ne_true)]
        decide
      rw [hkept.get_eq, if_neg Bool.false_ne_true]

/-- The scheme stays a supported one: an unsupported scheme is not taken. -/
theorem commit_scheme (hold : supportsScheme (BitField.get old vm) = true) :
    supportsScheme (BitField.get (commit x old value) vm) = true := by
  rw [get_commit_vm]
  split
  · next hscheme => exact hscheme
  · exact hold

/-- Bases and bounds have codes, but no hart takes them. -/
theorem commit_baseBound
    (hvalue : BitField.get value vm = schemeBaseBound ∨ BitField.get value vm = schemeSplitBaseBound) :
    BitField.get (commit x old value) vm = BitField.get old vm := by
  have hscheme : supportsScheme (BitField.get value vm) = false := by
    rcases hvalue with hone | htwo
    · rw [hone]
      decide
    · rw [htwo]
      decide
  rw [get_commit_vm, if_neg (by rw [hscheme]; exact Bool.false_ne_true)]

/-- Two commits that agree on what was there and on what is written agree afterwards, on every mask
without the scheme and without the summaries. -/
theorem commit_congr {mask : Word} {old' value' : Word} (hold : AgreeOn mask old old')
    (hvalue : AgreeOn mask value value') (hvm : mask &&& vm = 0)
    (hsd : mask &&& ~~~sd x = mask) :
    AgreeOn mask (commit x old value) (commit x old' value') := by
  have htaken : AgreeOn mask (commitMask value) (commitMask value') :=
    (agreeOn_commitMask value hvm).trans (agreeOn_commitMask value' hvm).symm
  exact ((agreeOn_summarize_of x _ hsd).trans (hold.merge hvalue htaken)).trans
    (agreeOn_summarize_of x _ hsd).symm

/-! ## Dirty floating-point state -/

theorem markFloat_keeps : AgreeOn (~~~(fs ||| sd x)) (markFloat x old) old := by
  have hfs : ~~~(fs ||| sd x) &&& ~~~fs = ~~~(fs ||| sd x) := by cases x <;> decide
  have hsd : ~~~(fs ||| sd x) &&& ~~~sd x = ~~~(fs ||| sd x) := by cases x <;> decide
  exact (agreeOn_summarize_of x _ hsd).trans ((agreeOn_set old fs dirty).mono hfs)

theorem markFloat_within (hold : Within (present x) old) :
    Within (present x) (markFloat x old) := by
  have hsd : sd x &&& present x = sd x := by cases x <;> decide
  have hfs : fs &&& present x = fs := by cases x <;> decide
  exact (hold.set hfs _).set hsd _

theorem markFloat_congr {mask : Word} {old' : Word} (hold : AgreeOn mask old old')
    (hsd : mask &&& ~~~sd x = mask) : AgreeOn mask (markFloat x old) (markFloat x old') :=
  ((agreeOn_summarize_of x _ hsd).trans (hold.set fs dirty)).trans
    (agreeOn_summarize_of x _ hsd).symm

/-! ## Sound statuses -/

/-- A status has no stray fields, a correct summary and a supported scheme. -/
structure Sound (x : Xlen) (status : Word) : Prop where
  fields : Within (present x) status
  summary : status &&& sd x ≠ 0 ↔
    BitField.get status fs = dirty ∨ BitField.get status xs = dirty
  scheme : supportsScheme (BitField.get status vm) = true

/-- The fields that exist but never hold anything, with the summary bit of the other register width. -/
def reserved (x : Xlen) : Word :=
  uie ||| hie ||| upie ||| hpie ||| hpp ||| xs |||
    match x with
    | .rv32 => sd64
    | .rv64 => sd32

variable {x old status}

theorem Sound.reset : Sound x 0 where
  fields := within_zero _
  summary := by cases x <;> decide +kernel
  scheme := by decide +kernel

theorem Sound.reserved_eq_zero (sound : Sound x status) : status &&& reserved x = 0 := by
  have hfields : status &&& present x = status := within_iff_and_eq.1 sound.fields
  have hdisjoint : present x &&& reserved x = 0 := by cases x <;> decide
  rw [← hfields, BitVec.and_assoc, hdisjoint]
  exact BitVec.and_zero

theorem Sound.agreeOn_reserved (sound : Sound x status) : AgreeOn (reserved x) status 0 := by
  rw [AgreeOn, sound.reserved_eq_zero, BitVec.ofNat_eq_ofNat, BitVec.zero_and]

/-- The summary of a sound status is up to date. -/
theorem Sound.summarize_eq (sound : Sound x status) : summarize x status = status := by
  have hdirty : isDirty status = true ↔ status &&& sd x ≠ 0 := by
    rw [sound.summary, isDirty, Bool.or_eq_true, beq_iff_eq, beq_iff_eq]
  have hbit : status &&& sd x = 0 ∨ status &&& sd x = sd x := by
    cases x with
    | rv32 => exact and_bit status 31
    | rv64 => exact and_bit status 63
  refine eq_of_agreeOn (agreeOn_summarize x status) ?_
  rw [AgreeOn, summarize_and_sd]
  rcases hbit with hclear | hset
  · rw [if_neg (by rw [hdirty, hclear]; exact fun h => h rfl), hclear]
  · have hne : sd x ≠ 0 := by cases x <;> decide
    rw [if_pos (by rw [hdirty, hset]; exact hne), hset]

/-- Every commit leaves a sound status, whatever value is written. -/
theorem Sound.commit (sound : Sound x old) (value : Word) : Sound x (commit x old value) where
  fields := commit_within x old value sound.fields
  summary := summarize_sound ..
  scheme := commit_scheme x old value sound.scheme

theorem Sound.markFloat (sound : Sound x old) : Sound x (markFloat x old) where
  fields := markFloat_within x old sound.fields
  summary := summarize_sound ..
  scheme := by
    have hkept : AgreeOn vm (Status.markFloat x old) old :=
      (markFloat_keeps x old).mono (by cases x <;> decide)
    rw [hkept.get_eq]
    exact sound.scheme

end Status
end PrivilegedHart
