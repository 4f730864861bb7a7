import PrivilegedHart.Address
import PrivilegedHart.Isa
import PrivilegedHart.Privilege

/-!
# Hart configuration

A configuration leaves most parameters optional; absent ones depend on the register width.  `validate`
finds the first reason why no hart can be built from a configuration.
-/

namespace PrivilegedHart

/-- The parameters of a hart. -/
structure Config where
  /-- The register width. -/
  xlen : Xlen := .rv64
  /-- Everything that `misa` can show. -/
  maxIsa : Option Word := none
  /-- The width of physical addresses. -/
  physAddrBits : Option (BitVec 32) := none
  /-- The number of the hart, which messages carry. -/
  hartId : Word := 0
  /-- The raw privilege level at reset. -/
  resetPrivilege : Option Word := none
  deriving DecidableEq, Repr, Inhabited

/-- Why no hart can be built. -/
inductive ConfigError where
  /-- The text is not a configuration. -/
  | malformed
  /-- The instruction set lacks the base integer instructions. -/
  | missingBaseIsa (maxIsa : Word)
  /-- A physical address cannot hold a page, or is too wide for the registers. -/
  | physAddrBits (bits : BitVec 32) (xlen : Xlen)
  /-- The reset privilege is not one of User, Supervisor and Machine. -/
  | resetPrivilege (level : Word)
  deriving DecidableEq, Repr

namespace ConfigError

/-- The text of a configuration error.  What is wrong with a malformed text is the `detail`, which its reader
reports. -/
def message (e : ConfigError) (detail : String := "") : String :=
  match e with
  | malformed => "invalid configuration JSON: " ++ detail
  | missingBaseIsa maxIsa => "max_isa " ++ Numeral.hex maxIsa ++ " lacks the base integer ISA"
  | physAddrBits bits xlen =>
      "phys_addr_bits " ++ toString bits.toNat ++ " out of range for " ++ xlen.name
  | resetPrivilege level =>
      "reset_privilege " ++ Numeral.decimal level ++ " is not User, Supervisor or Machine"

end ConfigError

namespace Config

/-- The physical-address width of a hart that does not choose one. -/
def defaultPhysAddrBits : Xlen → BitVec 32
  | .rv32 => 34
  | .rv64 => 50

/-- Everything that `misa` can show; by default every named extension. -/
def effectiveMaxIsa (c : Config) : Word := c.maxIsa.getD (Isa.full c.xlen)

/-- The width of physical addresses. -/
def effectivePhysAddrBits (c : Config) : BitVec 32 :=
  c.physAddrBits.getD (defaultPhysAddrBits c.xlen)

/-- The raw privilege level at reset; Machine by default. -/
def effectiveResetPrivilege (c : Config) : Word := c.resetPrivilege.getD 3

/-- The hart has the base integer instructions. -/
def hasBaseIsa (c : Config) : Bool := c.effectiveMaxIsa &&& Isa.base != 0

/-- A physical address is wider than a page offset, and at most two bits wider than a register. -/
def hasUsablePhysAddrs (c : Config) : Bool :=
  Page.shift < c.effectivePhysAddrBits.toNat && c.effectivePhysAddrBits.toNat ≤ c.xlen.bits + 2

/-- The reset privilege is a level of today, not the former hypervisor level. -/
def hasResetPrivilege (c : Config) : Bool :=
  c.effectiveResetPrivilege != Privilege.hypervisorLevel &&
    (Privilege.ofLevel? c.effectiveResetPrivilege).isSome

/-- The first reason, if any, why no hart can be built. -/
def validate (c : Config) : Except ConfigError Unit :=
  if !c.hasBaseIsa then .error (.missingBaseIsa c.effectiveMaxIsa)
  else if !c.hasUsablePhysAddrs then .error (.physAddrBits c.effectivePhysAddrBits c.xlen)
  else if !c.hasResetPrivilege then .error (.resetPrivilege c.effectiveResetPrivilege)
  else .ok ()

/-- A configuration is valid if it has a base instruction set, usable physical addresses and a reset
privilege. -/
theorem validate_eq_ok_iff (c : Config) :
    c.validate = .ok () ↔
      c.hasBaseIsa = true ∧ c.hasUsablePhysAddrs = true ∧ c.hasResetPrivilege = true := by
  unfold validate
  cases c.hasBaseIsa <;> cases c.hasUsablePhysAddrs <;> cases c.hasResetPrivilege <;> simp

/-- The default configuration is valid. -/
theorem validate_default : ({} : Config).validate = .ok () :=
  (validate_eq_ok_iff _).2 (by decide +kernel)

end Config
end PrivilegedHart
