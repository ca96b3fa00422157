import EFS.Mmio.Bus

/-!
# The ADC controller

The registers and channels of `ADCController` and its operations.  Voltages are `double`s of the
source, and `Float` here.
-/

namespace EFS

namespace Drivers

open EFS.Mmio

/-- An ADC: its settings, the voltages at its channels and its four registers. -/
structure ADCController where
  baseAddress : Address
  resolutionBits : UInt8
  referenceVoltage : Float
  channels : List Float
  controlRegister : Register
  statusRegister : Register
  resRegister : Register
  dataRegister : Register
  lastSample : UInt32

/-- The registers of an ADC controller. -/
inductive ADCRegister
  | control
  | status
  | res
  | data
  deriving DecidableEq

namespace ADCController

/-- `CTRL_OFFSET`. -/
def ctrlOffset : Address := 0x00

/-- `STATUS_OFFSET`. -/
def statusOffset : Address := 0x04

/-- `RES_OFFSET`. -/
def resOffset : Address := 0x08

/-- `DATA_OFFSET`. -/
def dataOffset : Address := 0x0C

/-- `CTRL_ENABLE_BIT`. -/
def ctrlEnableBit : UInt32 := 1

/-- `STATUS_ENABLED_BIT`. -/
def statusEnabledBit : UInt32 := 1

/-- `STATUS_COMPLETE_BIT`. -/
def statusCompleteBit : UInt32 := 2

/-- The resolution and the reference voltage after a reset. -/
def defaultResolution : UInt8 := 12

/-- The reference voltage of a converter that is given none. -/
def defaultReferenceVoltage : Float := 3.3

variable (c : ADCController)

/-- `enabled()`: the enable bit of CTRL. -/
def enabled : Bool := c.controlRegister.read &&& ctrlEnableBit ≠ 0

/-- `updateStatusRegister()`: an enabled converter is also complete. -/
def updateStatusRegister : ADCController :=
  let status := if c.enabled then statusEnabledBit ||| statusCompleteBit else 0
  { c with statusRegister := c.statusRegister.write status }

/-- An ADC controller as its constructor leaves it. -/
def new (baseAddress : Address) (resolutionBits : UInt8) (referenceVoltage : Float)
    (channelCount : UInt64) : Except String ADCController :=
  if channelCount = 0 then .error "Channel count cannot be zero"
  else if resolutionBits ≠ 8 ∧ resolutionBits ≠ 10 ∧ resolutionBits ≠ 12 then
    .error "Invalid ADC resolution bits (must be 8, 10, or 12)"
  else if referenceVoltage ≤ 0 then .error "Reference voltage must be positive"
  else
    let channels := List.replicate channelCount.toNat 0
    .ok (updateStatusRegister ⟨baseAddress, resolutionBits, referenceVoltage, channels,
      .new 0, .new 0, .new resolutionBits.toUInt32, .new 0, 0⟩)

/-! ### Operations -/

/-- `enable()`. -/
def enable : ADCController :=
  { c with controlRegister :=
      c.controlRegister.write (c.controlRegister.read ||| ctrlEnableBit) }.updateStatusRegister

/-- `disable()`. -/
def disable : ADCController :=
  { c with controlRegister :=
      c.controlRegister.write (c.controlRegister.read &&& ~~~ctrlEnableBit) }.updateStatusRegister

/-- `setResolution()` takes 8, 10 or 12 bits and shows them in RES. -/
def setResolution (bits : UInt8) : Except String ADCController :=
  if bits ≠ 8 ∧ bits ≠ 10 ∧ bits ≠ 12 then
    .error "Invalid resolution bits (must be 8, 10, or 12)"
  else .ok { c with resolutionBits := bits, resRegister := c.resRegister.write bits.toUInt32 }

/-- `setReferenceVoltage()` takes a positive voltage. -/
def setReferenceVoltage (voltage : Float) : Except String ADCController :=
  if voltage ≤ 0 then .error "Reference voltage must be positive"
  else .ok { c with referenceVoltage := voltage }

/-- `setAnalogInput()`; the channel is checked before the voltage. -/
def setAnalogInput (channel : UInt64) (voltage : Float) : Except String ADCController :=
  if c.channels.length ≤ channel.toNat then .error "Invalid ADC channel"
  else if voltage < 0 then .error "Analog input voltage cannot be negative"
  else .ok { c with channels := c.channels.set channel.toNat voltage }

/-- The digital value of the voltage `vin`. -/
def convert (vin : Float) : UInt32 :=
  let maxDigital := (1 <<< c.resolutionBits.toUInt32) - 1
  if vin ≤ 0 then 0
  else if c.referenceVoltage ≤ vin then maxDigital
  else
    let raw := (vin / c.referenceVoltage * maxDigital.toFloat).round.toUInt32
    if maxDigital < raw then maxDigital else raw

/-- `sample()`: the converted voltage of a channel, which DATA keeps. -/
def sample (channel : UInt64) : Except String (UInt32 × ADCController) :=
  if ¬ c.enabled then .error "ADC is disabled"
  else
    match c.channels[channel.toNat]? with
    | none => .error "Invalid ADC channel"
    | some vin =>
      let raw := c.convert vin
      .ok (raw, { c with
        lastSample := raw
        dataRegister := c.dataRegister.write raw }.updateStatusRegister)

/-- `reset()`: disabled, with the defaults and all channels at 0 V. -/
def reset : ADCController :=
  let c := c.disable
  { c with
    channels := List.replicate c.channels.length 0
    resolutionBits := defaultResolution
    referenceVoltage := defaultReferenceVoltage
    lastSample := 0
    controlRegister := c.controlRegister.reset
    resRegister := c.resRegister.write defaultResolution.toUInt32
    dataRegister := c.dataRegister.reset }.updateStatusRegister

/-! ### Registers on the bus -/

/-- A register of the converter. -/
def register : ADCRegister → Register
  | .control => c.controlRegister
  | .status => c.statusRegister
  | .res => c.resRegister
  | .data => c.dataRegister

/-- The converter with a register replaced. -/
def setRegister (r : Register) : ADCRegister → ADCController
  | .control => { c with controlRegister := r }
  | .status => { c with statusRegister := r }
  | .res => { c with resRegister := r }
  | .data => { c with dataRegister := r }

end ADCController

end Drivers

end EFS
