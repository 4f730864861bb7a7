import PrivilegedHart.Cause

/-!
# Kinds of memory access

The kind of an access decides which permission it needs and which cause reports its failure.
-/

namespace PrivilegedHart

/-- What an instruction wants from memory. -/
inductive Access where
  | fetch
  | read
  | write
  deriving DecidableEq, Repr, Inhabited

namespace Access

/-- The access of a TLB access code: `1` is a store, `2` a fetch and every other code a load. -/
def ofCode : Nat → Access
  | 1 => write
  | 2 => fetch
  | _ => read

/-- Stores and atomic operations write. -/
def isWrite : Access → Bool
  | write => true
  | _ => false

/-- The cause for an access to a protected or missing region. -/
def accessFault : Access → Cause
  | fetch => .instructionAccessFault
  | read => .loadAccessFault
  | write => .storeAccessFault

/-- The cause for an access to an address without a usable mapping. -/
def pageFault : Access → Cause
  | fetch => .instructionPageFault
  | read => .loadPageFault
  | write => .storePageFault

/-- The name of an access. -/
def name : Access → String
  | fetch => "Fetch"
  | read => "Read"
  | write => "Write"

end Access
end PrivilegedHart
