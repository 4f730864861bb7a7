import PrivilegedHart.BitField

/-!
# Floating-point control

`fcsr` holds the accrued exception flags in its low five bits and the rounding mode in the three bits above
them.  `fflags` and `frm` show one of the two each, moved down to bit `0`.
-/

namespace PrivilegedHart
namespace FloatControl

/-- The accrued exception flags within `fcsr`. -/
def flagsField : Word := 0x1F

/-- The rounding mode within `fcsr`. -/
def roundingField : Word := 0x7#64 <<< 5

/-- The bits of `fflags`. -/
def flagsMask : Word := 0x1F

/-- The bits of `frm`. -/
def roundingMask : Word := 0x7

/-- The contents of `fcsr` for given flags and rounding mode. -/
def pack (flags rounding : Word) : Word :=
  BitField.set (BitField.set 0 flagsField flags) roundingField rounding

/-- The flags in a value of `fcsr`. -/
def flags (fcsr : Word) : Word := BitField.get fcsr flagsField

/-- The rounding mode in a value of `fcsr`. -/
def rounding (fcsr : Word) : Word := BitField.get fcsr roundingField

end FloatControl
end PrivilegedHart
