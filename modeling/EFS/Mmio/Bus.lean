import EFS.Mmio.Register

/-!
# The MMIO bus

`MMIOBus` maps addresses to registers.  The registers are shared with the peripherals that own
them, so the bus holds references `R` to them, and an access is given the state `σ` in which the
references are followed.
-/

namespace EFS

namespace Mmio

/-- An address in the memory or on the bus. -/
abbrev Address := UInt64

/-- A bus: the register at each address, if there is one. -/
structure MMIOBus (R : Type) where
  /-- `m_registers`. -/
  registers : Address → Option R

namespace MMIOBus

variable {R : Type}

/-- A bus without registers. -/
def empty : MMIOBus R := ⟨fun _ => none⟩

variable (bus : MMIOBus R) (address : Address)

/-- `contains()`. -/
def contains : Bool := (bus.registers address).isSome

/-- `registerRegister` : an address that is taken is refused. -/
def registerRegister (reg : R) : Bool × MMIOBus R :=
  if bus.contains address then (false, bus)
  else (true, ⟨Function.update bus.registers address (some reg)⟩)

/-- `unregisterRegister()`, `false` for an address without a register. -/
def unregisterRegister : Bool × MMIOBus R :=
  if bus.contains address then (true, ⟨Function.update bus.registers address none⟩)
  else (false, bus)

section

variable {σ : Type} (get : σ → R → Register) (set : σ → R → Register → σ) (s : σ)

/-- `read()` throws for an address without a register. -/
def read : Except String UInt32 :=
  match bus.registers address with
  | some reg => .ok (get s reg).read
  | none => .error ("MMIO read unmapped address " ++ toString address)

/-- `write()` throws for an address without a register. -/
def write (value : UInt32) : Except String σ :=
  match bus.registers address with
  | some reg => .ok (set s reg ((get s reg).write value))
  | none => .error ("MMIO write unmapped address " ++ toString address)

end

end MMIOBus

/-- A bus with its registers, and what `registeredAddresses()` returns: the addresses that are
taken, in increasing order. -/
structure MappedRegisters (R : Type) where
  bus : MMIOBus R
  register : R → Register
  registeredAddresses : List Address
  sorted : registeredAddresses.Pairwise (· < ·)
  registered_iff : ∀ a, a ∈ registeredAddresses ↔ bus.contains a = true

namespace MappedRegisters

variable {R : Type} (mapped : MappedRegisters R) {a : Address}

/-- `read` on the bus. -/
def read (a : Address) : Except String UInt32 := mapped.bus.read a id mapped.register

/-- What the register at an address holds, if there is one. -/
def value (a : Address) : UInt32 := (mapped.read a).toOption.getD 0

/-- The addresses with the values of their registers. -/
def entries : List (Address × UInt32) :=
  mapped.registeredAddresses.map fun a => (a, mapped.value a)

variable {mapped}

theorem read_of_registered (h : a ∈ mapped.registeredAddresses) :
    mapped.read a = .ok (mapped.value a) := by
  obtain ⟨r, hr⟩ := Option.isSome_iff_exists.1 ((mapped.registered_iff a).1 h)
  have hread : mapped.read a = .ok (mapped.register r).read := by
    rw [read, MMIOBus.read, hr]
    rfl
  rw [value, hread]
  rfl

/-- A bus with two registers. -/
def twoMapped : MappedRegisters Bool where
  bus := ((MMIOBus.empty.registerRegister 0x1004 true).2.registerRegister 0x1000 false).2
  register r := .new (if r then 5 else 7)
  registeredAddresses := [0x1000, 0x1004]
  sorted := by decide
  registered_iff a := by
    simp only [MMIOBus.registerRegister, MMIOBus.contains, MMIOBus.empty]
    by_cases h : a = 0x1000 <;> by_cases h' : a = 0x1004 <;> simp [Function.update, h, h']

example : twoMapped.entries = [(0x1000, 7), (0x1004, 5)] := rfl

end MappedRegisters

end Mmio

end EFS
