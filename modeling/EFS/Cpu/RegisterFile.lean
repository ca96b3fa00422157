import Mathlib.Data.Fin.Basic

/-!
# The register file

16 general purpose registers, the program counter, the stack pointer and the status register.
-/

namespace EFS

namespace Cpu

/-- `NUM_GPRS`. -/
def numGprs : ℕ := 16

/-- The general registers, the program counter, the stack pointer and the status register. -/
structure RegisterFile where
  gpr : Fin numGprs → UInt32
  pc : UInt32
  sp : UInt32
  sr : UInt32

namespace RegisterFile

variable (rf : RegisterFile) (index : ℕ)

/-- `validateIndex` : the register with this index, or the exception it throws. -/
def validateIndex : Except String (Fin numGprs) :=
  if h : index < numGprs then .ok ⟨index, h⟩
  else .error ("Register index out of range: " ++ toString index)

/-- `readRegister()`, which throws for an index that is not a general register. -/
def readRegister : Except String UInt32 := do
  let i ← validateIndex index
  return rf.gpr i

/-- `reset()` clears every register. -/
def reset : RegisterFile := ⟨fun _ => 0, 0, 0, 0⟩

end RegisterFile

end Cpu

end EFS
