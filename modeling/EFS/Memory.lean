import Mathlib.Tactic

/-!
# Memory

A byte-addressable memory with bounds checks.
-/

namespace EFS

/-- A byte memory. -/
structure Memory where
  storage : List UInt8

namespace Memory

variable (m : Memory) (address : UInt64)

/-- `size()`. -/
def size : ℕ := m.storage.length

/-- `isValidAddress()`. -/
def isValidAddress : Bool := address.toNat < m.storage.length

/-- `read()` throws outside of the memory. -/
def read : Except String UInt8 :=
  match m.storage[address.toNat]? with
  | some value => .ok value
  | none => .error ("Memory read out of bounds at address " ++ toString address)

/-- `write()` throws outside of the memory. -/
def write (value : UInt8) : Except String Memory :=
  if m.isValidAddress address then .ok ⟨m.storage.set address.toNat value⟩
  else .error ("Memory write out of bounds at address " ++ toString address)

/-- `clear()` writes 0 to every byte. -/
def clear : Memory := ⟨List.replicate m.storage.length 0⟩

end Memory

end EFS
