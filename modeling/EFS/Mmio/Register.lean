import Mathlib.Tactic

/-!
# Registers

`Register` is a 32-bit register with its reset value.  Peripherals keep flags in bits of their
registers; the lemmas here are what a flag reads after it was set or cleared.
-/

namespace EFS

namespace Mmio

/-- A register with the value that a reset restores. -/
structure Register where
  initialValue : UInt32
  value : UInt32
  deriving DecidableEq, Repr

namespace Register

/-- A register that holds its reset value. -/
def new (initialValue : UInt32) : Register := ⟨initialValue, initialValue⟩

/-- `read()`. -/
def read (r : Register) : UInt32 := r.value

/-- `write()`. -/
def write (r : Register) (value : UInt32) : Register := { r with value }

/-- `reset()`. -/
def reset (r : Register) : Register := { r with value := r.initialValue }

@[simp] theorem read_new (v : UInt32) : (new v).read = v := rfl
@[simp] theorem read_write (r : Register) (v : UInt32) : (r.write v).read = v := rfl
@[simp] theorem read_reset (r : Register) : r.reset.read = r.initialValue := rfl
@[simp] theorem write_initialValue (r : Register) (v : UInt32) :
    (r.write v).initialValue = r.initialValue := rfl
@[simp] theorem write_write (r : Register) (v w : UInt32) : (r.write v).write w = r.write w := rfl

end Register

@[simp] theorem or_and_mask (v mask : UInt32) : (v ||| mask) &&& mask = mask := by
  apply UInt32.eq_of_toBitVec_eq
  ext i
  simp
  grind

@[simp] theorem and_not_and_mask (v mask : UInt32) : (v &&& ~~~mask) &&& mask = 0 := by
  apply UInt32.eq_of_toBitVec_eq
  ext i
  simp

theorem or_and_bit {v mask bit : UInt32} (h : mask &&& bit = 0) :
    (v ||| mask) &&& bit = v &&& bit := by
  have hdistrib : (v ||| mask) &&& bit = v &&& bit ||| mask &&& bit :=
    UInt32.toBitVec_inj.1 BitVec.and_or_distrib_right
  rw [hdistrib, h, UInt32.or_zero]

theorem and_not_and_bit {v mask bit : UInt32} (h : ~~~mask &&& bit = bit) :
    (v &&& ~~~mask) &&& bit = v &&& bit := by
  rw [UInt32.and_assoc, h]

end Mmio

end EFS
