import EFS.Mmio.Bus

/-!
# The GPIO port

The registers of the 32 pins of `GPIO` and its operations.  An operation on a pin throws for ids of
32 and above, before it changes anything, and one that drives a pin throws if the pin has the other
direction.
-/

namespace EFS

namespace Drivers

open EFS.Mmio

/-- `PinDirection`. -/
inductive PinDirection
  | input
  | output
  deriving DecidableEq

/-- `PinState`. -/
inductive PinState
  | low
  | high
  deriving DecidableEq

/-- A GPIO port: one bit of each register belongs to a pin. -/
structure GPIO where
  baseAddress : Address
  dirRegister : Register
  outRegister : Register
  inRegister : Register

/-- The registers of a GPIO port. -/
inductive GPIORegister
  | dir
  | out
  | inp
  deriving DecidableEq

namespace GPIO

/-- `DIR_OFFSET`. -/
def dirOffset : Address := 0x00

/-- `OUT_OFFSET`. -/
def outOffset : Address := 0x04

/-- `IN_OFFSET`. -/
def inOffset : Address := 0x08

/-- `MAX_PINS`. -/
def maxPins : ℕ := 32

/-- A GPIO port as its constructor leaves it. -/
def new (baseAddress : Address) : GPIO := ⟨baseAddress, .new 0, .new 0, .new 0⟩

variable (g : GPIO) (pin : UInt8)

/-- `1U << pin`. -/
def bit : UInt32 := 1 <<< pin.toUInt32

/-- `reg` with the bit of the pin set or cleared. -/
def withPin (reg : UInt32) : PinState → UInt32
  | .high => reg ||| bit pin
  | .low => reg &&& ~~~bit pin

/-- `validatePin()` throws for an id that is not a pin's. -/
def validatePin : Except String Unit :=
  if maxPins ≤ pin.toNat then .error ("GPIO pin index out of range: " ++ toString pin)
  else .ok ()

/-- `isOutputPin()`: the bit of the pin in DIR. -/
def isOutputPin : Bool := g.dirRegister.read &&& bit pin ≠ 0

/-! ### Operations -/

/-- `configurePin()` writes the bit of the pin in DIR. -/
def configurePin (direction : PinDirection) : Except String GPIO := do
  validatePin pin
  let state := if direction = .output then PinState.high else .low
  return { g with dirRegister := g.dirRegister.write (withPin pin g.dirRegister.read state) }

/-- `writePin()` drives an output pin, in OUT and in IN. -/
def writePin (state : PinState) : Except String GPIO := do
  validatePin pin
  if ¬ g.isOutputPin pin then
    .error ("Cannot write to GPIO pin configured as Input: " ++ toString pin)
  else
    return { g with
      outRegister := g.outRegister.write (withPin pin g.outRegister.read state)
      inRegister := g.inRegister.write (withPin pin g.inRegister.read state) }

/-- `readPin()`: the bit of the pin in IN, whatever its direction. -/
def readPin : Except String PinState := do
  validatePin pin
  return if g.inRegister.read &&& bit pin ≠ 0 then .high else .low

/-- `togglePin()` of an output pin, from what IN reads. -/
def togglePin : Except String GPIO := do
  validatePin pin
  if ¬ g.isOutputPin pin then
    .error ("Cannot toggle GPIO pin configured as Input: " ++ toString pin)
  else
    let current ← g.readPin pin
    g.writePin pin (if current = .high then .low else .high)

/-- `setExternalInput()` drives IN of a pin that is not an output. -/
def setExternalInput (state : PinState) : Except String GPIO := do
  validatePin pin
  if g.isOutputPin pin then
    .error ("Cannot drive external input on output pin: " ++ toString pin)
  else return { g with inRegister := g.inRegister.write (withPin pin g.inRegister.read state) }

/-- `reset()` restores the three registers. -/
def reset : GPIO :=
  { g with
    dirRegister := g.dirRegister.reset
    outRegister := g.outRegister.reset
    inRegister := g.inRegister.reset }

/-! ### Registers on the bus -/

/-- A register of the port. -/
def register : GPIORegister → Register
  | .dir => g.dirRegister
  | .out => g.outRegister
  | .inp => g.inRegister

/-! ### Driving a pin -/

variable {g pin}

theorem validatePin_ok (h : pin.toNat < 32) : validatePin pin = .ok () := by
  rw [validatePin, if_neg (by rw [maxPins]; omega)]

theorem bit_ne_zero (h : pin.toNat < 32) : bit pin ≠ 0 := by
  intro h₀
  have hnat : (bit pin).toNat = 2 ^ pin.toNat := by
    have hlt : 2 ^ pin.toNat < 2 ^ 32 := Nat.pow_lt_pow_right (by decide) h
    rw [bit, UInt32.toNat_shiftLeft, UInt8.toNat_toUInt32, Nat.mod_eq_of_lt h]
    simpa [Nat.shiftLeft_eq] using hlt
  rw [h₀] at hnat
  exact absurd hnat.symm (Nat.two_pow_pos _).ne'

theorem withPin_and_bit (h : pin.toNat < 32) (reg : UInt32) (state : PinState) :
    withPin pin reg state &&& bit pin ≠ 0 ↔ state = .high := by
  cases state with
  | low => simp [withPin]
  | high => simpa [withPin] using bit_ne_zero h

/-- The pin is an output that is driven high or low. -/
structure Driven (g : GPIO) (pin : UInt8) (high : Bool) : Prop where
  valid : pin.toNat < 32
  output : g.isOutputPin pin = true
  state : g.readPin pin = .ok (if high then .high else .low)

theorem writePin_driven (h : pin.toNat < 32) (hout : g.isOutputPin pin = true) (high : Bool) :
    ∃ g', g.writePin pin (if high then .high else .low) = .ok g' ∧ Driven g' pin high := by
  let state : PinState := if high then .high else .low
  let g' : GPIO := { g with
    outRegister := g.outRegister.write (withPin pin g.outRegister.read state)
    inRegister := g.inRegister.write (withPin pin g.inRegister.read state) }
  have hwrite : g.writePin pin state = .ok g' := by
    rw [writePin, validatePin_ok h]
    simp [hout, bind, Except.bind, pure, Except.pure, g']
  have hread : g'.readPin pin = .ok state := by
    rw [readPin, validatePin_ok h]
    have hbit := withPin_and_bit h g.inRegister.read state
    cases hs : state <;> simp [hs] at hbit <;>
      simp [bind, Except.bind, pure, Except.pure, g', hs, hbit]
  exact ⟨g', hwrite, h, hout, hread⟩

theorem configurePin_output (h : pin.toNat < 32) :
    ∃ g', g.configurePin pin .output = .ok g' ∧ g'.isOutputPin pin = true := by
  have hbit := (withPin_and_bit h g.dirRegister.read .high).2 rfl
  refine ⟨{ g with dirRegister := g.dirRegister.write (withPin pin g.dirRegister.read .high) },
    ?_, decide_eq_true hbit⟩
  rw [configurePin, validatePin_ok h]
  simp [bind, Except.bind, pure, Except.pure]

theorem Driven.togglePin {high : Bool} (h : Driven g pin high) :
    ∃ g', g.togglePin pin = .ok g' ∧ Driven g' pin !high := by
  obtain ⟨g', hwrite, hdriven⟩ := writePin_driven h.valid h.output !high
  refine ⟨g', ?_, hdriven⟩
  rw [ GPIO.togglePin, validatePin_ok h.valid, ← hwrite]
  cases high <;> simp [bind, Except.bind, h.output, h.state]

end GPIO

end Drivers

end EFS
