import EFS.Mmio.Bus

/-!
# The SPI controller

The registers and buffers of `SPIController` and its operations.  The slave is code of the caller:
`slave` says whether the pointer to it is null, and `respond` is what its `transfer` answers to a
byte, which is 0xFF without a slave.
-/

namespace EFS

namespace Drivers

open EFS.Mmio

/-- An SPI controller with the bytes received. -/
structure SPIController where
  baseAddress : Address
  dataRegister : Register
  statusRegister : Register
  controlRegister : Register
  clockDivRegister : Register
  /-- `m_slave` is not null. -/
  slave : Bool
  rxBuffer : List UInt8
  busy : Bool
  rxHasData : Bool

/-- The registers of an SPI controller. -/
inductive SPIRegister
  | data
  | status
  | control
  | clockDiv
  deriving DecidableEq

namespace SPIController

/-- `DATA_OFFSET`. -/
def dataOffset : Address := 0x00

/-- `STATUS_OFFSET`. -/
def statusOffset : Address := 0x04

/-- `CONTROL_OFFSET`. -/
def controlOffset : Address := 0x08

/-- `CLOCK_DIV_OFFSET`. -/
def clockDivOffset : Address := 0x0C

/-- `CTRL_ENABLE_BIT`. -/
def ctrlEnableBit : UInt32 := 1

/-- `CTRL_MODE_MASK`, the two bits above the enable bit. -/
def ctrlModeMask : UInt32 := 6

/-- `STATUS_ENABLED_BIT`. -/
def statusEnabledBit : UInt32 := 1

/-- `STATUS_BUSY_BIT`. -/
def statusBusyBit : UInt32 := 2

/-- `STATUS_RX_AVAIL_BIT`. -/
def statusRxAvailBit : UInt32 := 4

variable (c : SPIController)

/-- `enabled()`: the enable bit of CONTROL. -/
def enabled : Bool := c.controlRegister.read &&& ctrlEnableBit ≠ 0

/-- `hasData()`: a byte is queued, or DATA holds one that is not read yet. -/
def hasData : Bool := ¬ c.rxBuffer.isEmpty ∨ c.rxHasData

/-- `clockDivider()`: the contents of CLOCK_DIV. -/
def clockDivider : UInt32 := c.clockDivRegister.read

/-- `mode()`: the mode bits of CONTROL. -/
def mode : UInt8 := ((c.controlRegister.read &&& ctrlModeMask) >>> 1).toUInt8

/-- `updateStatusRegister()` computes STATUS from the fields. -/
def updateStatusRegister : SPIController :=
  let status := if c.enabled then statusEnabledBit else 0
  let status := if c.busy then status ||| statusBusyBit else status
  let status := if c.hasData then status ||| statusRxAvailBit else status
  { c with statusRegister := c.statusRegister.write status }

/-- The control register with the mode bits of `mode`. -/
def withMode (mode : UInt8) : SPIController :=
  let ctrl := c.controlRegister.read &&& ~~~ctrlModeMask ||| (mode &&& 3).toUInt32 <<< 1
  { c with controlRegister := c.controlRegister.write ctrl }

/-- `setMode()` throws above 3. -/
def setMode (mode : UInt8) : Except String SPIController :=
  if 3 < mode then .error "Invalid SPI mode" else .ok (c.withMode mode)

/-- An SPI controller as its constructor leaves it: a divider of 0 and a mode above 3 are
refused. -/
def new (baseAddress : Address) (clockDivider : UInt32) (mode : UInt8) :
    Except String SPIController :=
  if clockDivider = 0 then .error "Invalid clock divider"
  else if 3 < mode then .error "Invalid SPI mode"
  else
    let c : SPIController :=
      ⟨baseAddress, .new 0, .new 0, .new 0, .new clockDivider, false, [], false, false⟩
    .ok (c.withMode mode).updateStatusRegister

/-! ### Operations -/

/-- `enable()`. -/
def enable : SPIController :=
  { c with controlRegister :=
      c.controlRegister.write (c.controlRegister.read ||| ctrlEnableBit) }.updateStatusRegister

/-- `disable()` keeps what was received. -/
def disable : SPIController :=
  { c with controlRegister :=
      c.controlRegister.write (c.controlRegister.read &&& ~~~ctrlEnableBit) }.updateStatusRegister

/-- The byte that the slave answers to `byte`. -/
def exchange (respond : UInt8 → UInt8) (byte : UInt8) : UInt8 :=
  if c.slave then respond byte else 0xFF

/-- `transfer()`: the slave's answer, which is returned and kept in DATA. -/
def transfer (respond : UInt8 → UInt8) (byte : UInt8) : Except String (UInt8 × SPIController) :=
  if ¬ c.enabled then .error "SPI is disabled"
  else
    let c := { c with busy := true }.updateStatusRegister
    let rxByte := c.exchange respond byte
    .ok (rxByte, { c with
      dataRegister := c.dataRegister.write rxByte.toUInt32
      rxHasData := true
      busy := false }.updateStatusRegister)

/-- `writeByte()`: the slave's answer is queued. -/
def writeByte (respond : UInt8 → UInt8) (byte : UInt8) : Except String SPIController :=
  if ¬ c.enabled then .error "SPI is disabled"
  else
    let c := { c with busy := true }.updateStatusRegister
    let rxByte := c.exchange respond byte
    .ok { c with
      dataRegister := c.dataRegister.write rxByte.toUInt32
      rxBuffer := c.rxBuffer ++ [rxByte]
      rxHasData := true
      busy := false }.updateStatusRegister

/-- `readByte` : a buffered byte, or else the one in the data register. -/
def readByte : Except String (UInt8 × SPIController) :=
  if ¬ c.enabled then .error "SPI is disabled"
  else
    match c.rxBuffer with
    | byte :: rest =>
      let c := { c with rxBuffer := rest }
      let c := if rest.isEmpty then { c with rxHasData := false } else c
      .ok (byte, c.updateStatusRegister)
    | [] =>
      if ¬ c.rxHasData then .error "SPI RX buffer empty"
      else .ok (c.dataRegister.read.toUInt8, { c with rxHasData := false }.updateStatusRegister)

/-- `setClockDivider()` throws for 0. -/
def setClockDivider (value : UInt32) : Except String SPIController :=
  if value = 0 then .error "Clock divider cannot be 0"
  else .ok { c with clockDivRegister := c.clockDivRegister.write value }

/-- `attachSlave` and `detachSlave`, by whether the pointer is not null afterwards. -/
def setSlave (slave : Bool) : SPIController := { c with slave }

/-- `reset()` detaches the slave and drops what was received. -/
def reset : SPIController :=
  let c := c.disable
  { c with
    slave := false
    rxBuffer := []
    rxHasData := false
    dataRegister := c.dataRegister.reset
    controlRegister := c.controlRegister.reset
    clockDivRegister := c.clockDivRegister.reset
    busy := false }.updateStatusRegister

/-! ### Registers on the bus -/

/-- A register of the controller. -/
def register : SPIRegister → Register
  | .data => c.dataRegister
  | .status => c.statusRegister
  | .control => c.controlRegister
  | .clockDiv => c.clockDivRegister

end SPIController

end Drivers

end EFS
