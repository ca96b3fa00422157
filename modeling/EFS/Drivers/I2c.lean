import EFS.Mmio.Bus

/-!
# The I2C controller

The registers of `I2CController`, the state of a transaction, and the operations.  The slave devices
`D` are code of the caller, so an operation that calls one of them is given what the call returns.
-/

namespace EFS

namespace Drivers

open EFS.Mmio

/-- An I2C controller with the devices attached to it, the one addressed and the bytes received.
-/
structure I2CController (D : Type) where
  baseAddress : Address
  dataRegister : Register
  statusRegister : Register
  controlRegister : Register
  addrRegister : Register
  devices : List D
  activeDevice : Option D
  rxBuffer : List UInt8
  busy : Bool
  lastAck : Bool
  isReadMode : Bool

/-- The registers of an I2C controller. -/
inductive I2CRegister
  | data
  | status
  | control
  | addr
  deriving DecidableEq

namespace I2CController

/-- `DATA_OFFSET`. -/
def dataOffset : Address := 0x00

/-- `STATUS_OFFSET`. -/
def statusOffset : Address := 0x04

/-- `CONTROL_OFFSET`. -/
def controlOffset : Address := 0x08

/-- `ADDR_OFFSET`. -/
def addrOffset : Address := 0x0C

/-- `CTRL_ENABLE_BIT`. -/
def ctrlEnableBit : UInt32 := 1

/-- `STATUS_ENABLED_BIT`. -/
def statusEnabledBit : UInt32 := 1

/-- `STATUS_BUSY_BIT`. -/
def statusBusyBit : UInt32 := 2

/-- `STATUS_RX_AVAIL_BIT`. -/
def statusRxAvailBit : UInt32 := 4

/-- `STATUS_NACK_BIT`. -/
def statusNackBit : UInt32 := 8

variable {D : Type} [DecidableEq D] (c : I2CController D)

/-- `enabled()`: the enable bit of CONTROL. -/
def enabled : Bool := c.controlRegister.read &&& ctrlEnableBit ≠ 0

/-- `slaveAddress()`: the seven address bits of ADDR. -/
def slaveAddress : UInt8 := (c.addrRegister.read &&& 0x7F).toUInt8

/-- `updateStatusRegister()` computes STATUS from the fields; a NACK shows only while busy. -/
def updateStatusRegister : I2CController D :=
  let status := if c.enabled then statusEnabledBit else 0
  let status := if c.busy then status ||| statusBusyBit else status
  let status := if ¬ c.rxBuffer.isEmpty then status ||| statusRxAvailBit else status
  let status := if ¬ c.lastAck ∧ c.busy then status ||| statusNackBit else status
  { c with statusRegister := c.statusRegister.write status }

/-- An I2C controller as its constructor leaves it. -/
def new (baseAddress : Address) (defaultSlaveAddress : UInt8) : I2CController D :=
  updateStatusRegister ⟨baseAddress, .new 0, .new 0, .new 0,
    .new (defaultSlaveAddress &&& 0x7F).toUInt32, [], none, [], false, false, false⟩

/-! ### Operations -/

/-- `enable()`. -/
def enable : I2CController D :=
  { c with controlRegister :=
      c.controlRegister.write (c.controlRegister.read ||| ctrlEnableBit) }.updateStatusRegister

/-- `disable()` also ends the transaction. -/
def disable : I2CController D :=
  { c with
    controlRegister := c.controlRegister.write (c.controlRegister.read &&& ~~~ctrlEnableBit)
    busy := false
    activeDevice := none }.updateStatusRegister

/-- `start` : the first device with the slave address is asked, and is active if it acknowledges. -/
def start (address : D → UInt8) (onStart : D → Bool → Bool) (isRead : Bool) :
    Except String (Bool × I2CController D) :=
  if ¬ c.enabled then .error "I2C is disabled"
  else
    let c := { c with busy := true, isReadMode := isRead }
    match c.devices.find? fun d => address d = c.slaveAddress with
    | some d =>
      let ack := onStart d isRead
      .ok (ack, { c with
        lastAck := ack
        activeDevice := if ack then some d else none }.updateStatusRegister)
    | none => .ok (false, { c with lastAck := false, activeDevice := none }.updateStatusRegister)

/-- `stop()` forgets the addressed device. -/
def stop : I2CController D :=
  { c with activeDevice := none, busy := false }.updateStatusRegister

/-- `writeByte()`: the acknowledgement of the addressed device, `false` if there is none. -/
def writeByte (onWrite : D → UInt8 → Bool) (byte : UInt8) :
    Except String (Bool × I2CController D) :=
  if ¬ c.enabled then .error "I2C is disabled"
  else if ¬ c.busy then .error "I2C transaction not started"
  else
    let ack :=
      match c.activeDevice with
      | some d => onWrite d byte
      | none => false
    .ok (ack, { c with
      lastAck := ack
      dataRegister := c.dataRegister.write byte.toUInt32 }.updateStatusRegister)

/-- `readByte()`: a byte already received, else one from the addressed device. -/
def readByte (onRead : D → UInt8) : Except String (UInt8 × I2CController D) :=
  if ¬ c.enabled then .error "I2C is disabled"
  else
    match c.rxBuffer with
    | byte :: rest => .ok (byte, { c with rxBuffer := rest }.updateStatusRegister)
    | [] =>
      match c.activeDevice with
      | none => .error "I2C RX buffer empty"
      | some d =>
        if ¬ c.busy then .error "I2C RX buffer empty"
        else
          let byte := onRead d
          .ok (byte, { c with
            dataRegister := c.dataRegister.write byte.toUInt32 }.updateStatusRegister)

/-- `setSlaveAddress()` keeps the low seven bits. -/
def setSlaveAddress (address : UInt8) : I2CController D :=
  { c with addrRegister := c.addrRegister.write (address &&& 0x7F).toUInt32 }

/-- `attachDevice()`; a null pointer or a device already attached changes nothing. -/
def attachDevice (device : Option D) : I2CController D :=
  match device with
  | none => c
  | some d => if d ∈ c.devices then c else { c with devices := c.devices ++ [d] }

/-- `detachDevice()`; the device is addressed no longer, but the bus stays busy. -/
def detachDevice (device : Option D) : I2CController D :=
  match device with
  | none => c
  | some d =>
    { c with
      devices := c.devices.erase d
      activeDevice := if c.activeDevice = some d then none else c.activeDevice }

/-- `reset()` detaches every device. -/
def reset : I2CController D :=
  let c := c.disable
  { c with
    devices := []
    activeDevice := none
    rxBuffer := []
    dataRegister := c.dataRegister.reset
    controlRegister := c.controlRegister.reset
    addrRegister := c.addrRegister.reset
    busy := false
    lastAck := false }.updateStatusRegister

/-! ### Registers on the bus -/

/-- A register of the controller. -/
def register : I2CRegister → Register
  | .data => c.dataRegister
  | .status => c.statusRegister
  | .control => c.controlRegister
  | .addr => c.addrRegister

end I2CController

end Drivers

end EFS
