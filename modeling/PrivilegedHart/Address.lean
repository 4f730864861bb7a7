import PrivilegedHart.Numeral

/-!
# Addresses and pages

Virtual addresses come from instructions, physical addresses from completed page-table walks.  They are
different types, so that a virtual address cannot be taken for the one it is mapped to.  Pages have 4096
bytes.
-/

namespace PrivilegedHart

namespace Page

/-- The number of address bits within a page. -/
def shift : Nat := 12

/-- The number of bytes in a page. -/
def size : Word := 4096

/-- The address bits within a page. -/
def offsetMask : Word := size - 1

end Page

/-- An address as an instruction of the guest sees it. -/
structure VirtAddr where
  value : Word
  deriving DecidableEq, Repr, Inhabited

/-- An address in physical memory. -/
structure PhysAddr where
  value : Word
  deriving DecidableEq, Repr, Inhabited

namespace VirtAddr

/-- The number of the page that holds an address. -/
def pageNumber (a : VirtAddr) : Word := a.value >>> Page.shift

/-- The offset of an address within its page. -/
def pageOffset (a : VirtAddr) : Word := a.value &&& Page.offsetMask

/-- A virtual address as messages show it. -/
def describe (a : VirtAddr) : String := "va:" ++ Numeral.hex a.value

end VirtAddr

namespace PhysAddr

/-- The number of the page that holds an address. -/
def pageNumber (a : PhysAddr) : Word := a.value >>> Page.shift

/-- A physical address as messages show it. -/
def describe (a : PhysAddr) : String := "pa:" ++ Numeral.hex a.value

end PhysAddr
end PrivilegedHart
