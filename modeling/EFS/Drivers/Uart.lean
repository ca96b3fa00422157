import EFS.Mmio.Bus

/-!
# The UART

The registers and FIFOs of `UART` and its operations.  The status register is derived from the
rest: every operation that changes a FIFO or the enable bit writes it anew.
-/

namespace EFS

namespace Drivers

open EFS.Mmio

/-- A UART with its two FIFOs. -/
structure UART where
  baseAddress : Address
  dataRegister : Register
  statusRegister : Register
  controlRegister : Register
  baudRegister : Register
  txFifo : List UInt8
  rxFifo : List UInt8

/-- The registers of a UART. -/
inductive UARTRegister
  | data
  | status
  | control
  | baud
  deriving DecidableEq

namespace UART

/-- `DATA_OFFSET`. -/
def dataOffset : Address := 0x00

/-- `STATUS_OFFSET`. -/
def statusOffset : Address := 0x04

/-- `CONTROL_OFFSET`. -/
def controlOffset : Address := 0x08

/-- `BAUD_OFFSET`. -/
def baudOffset : Address := 0x0C

/-- `CTRL_ENABLE_BIT`. -/
def ctrlEnableBit : UInt32 := 1

/-- `STATUS_TX_EMPTY_BIT`. -/
def statusTxEmptyBit : UInt32 := 1

/-- `STATUS_RX_AVAIL_BIT`. -/
def statusRxAvailBit : UInt32 := 2

/-- `STATUS_ENABLED_BIT`. -/
def statusEnabledBit : UInt32 := 4

/-- `DEFAULT_BAUD_RATE`. -/
def defaultBaudRate : UInt32 := 115200

variable (u : UART)

/-- `enabled()`: the enable bit of CONTROL. -/
def enabled : Bool := u.controlRegister.read &&& ctrlEnableBit ≠ 0

/-- `updateStatusRegister()` computes STATUS from the FIFOs and the enable bit. -/
def updateStatusRegister : UART :=
  let status := if u.txFifo.isEmpty then statusTxEmptyBit else 0
  let status := if ¬ u.rxFifo.isEmpty then status ||| statusRxAvailBit else status
  let status := if u.enabled then status ||| statusEnabledBit else status
  { u with statusRegister := u.statusRegister.write status }

/-- A UART as its constructor leaves it: a baud rate of 0 is refused. -/
def new (baseAddress : Address) (defaultBaudRate : UInt32) : Except String UART :=
  if defaultBaudRate = 0 then .error "Invalid baud rate"
  else .ok (updateStatusRegister
    ⟨baseAddress, .new 0, .new statusTxEmptyBit, .new 0, .new defaultBaudRate, [], []⟩)

/-! ### Operations -/

/-- `enable()`. -/
def enable : UART :=
  { u with controlRegister :=
      u.controlRegister.write (u.controlRegister.read ||| ctrlEnableBit) }.updateStatusRegister

/-- `disable()` keeps both FIFOs. -/
def disable : UART :=
  { u with controlRegister :=
      u.controlRegister.write (u.controlRegister.read &&& ~~~ctrlEnableBit) }.updateStatusRegister

/-- `writeByte()` queues a byte for transmission and shows it in DATA. -/
def writeByte (byte : UInt8) : Except String UART :=
  if ¬ u.enabled then .error "UART is disabled"
  else .ok { u with
    txFifo := u.txFifo ++ [byte]
    dataRegister := u.dataRegister.write byte.toUInt32 }.updateStatusRegister

/-- `readByte()` takes the first received byte, and throws if there is none. -/
def readByte : Except String (UInt8 × UART) :=
  if ¬ u.enabled then .error "UART is disabled"
  else
    match u.rxFifo with
    | [] => .error "UART RX FIFO empty"
    | byte :: rest =>
      .ok (byte, { u with
        rxFifo := rest
        dataRegister := u.dataRegister.write byte.toUInt32 }.updateStatusRegister)

/-- `pushReceivedByte()` queues a received byte. -/
def pushReceivedByte (byte : UInt8) : Except String UART :=
  if ¬ u.enabled then .error "UART is disabled"
  else .ok { u with rxFifo := u.rxFifo ++ [byte] }.updateStatusRegister

/-- `setBaudRate()` throws for 0. -/
def setBaudRate (baud : UInt32) : Except String UART :=
  if baud = 0 then .error "Baud rate cannot be 0"
  else .ok { u with baudRegister := u.baudRegister.write baud }

/-- `popTxByte()` takes the first byte to transmit, also of a disabled UART. -/
def popTxByte : Except String (UInt8 × UART) :=
  match u.txFifo with
  | [] => .error "UART TX FIFO empty"
  | byte :: rest => .ok (byte, { u with txFifo := rest }.updateStatusRegister)

/-- `reset()` empties both FIFOs; the baud rate stays. -/
def reset : UART :=
  { u.disable with
    txFifo := []
    rxFifo := []
    dataRegister := u.dataRegister.reset
    controlRegister := u.disable.controlRegister.reset }.updateStatusRegister

/-! ### Registers on the bus -/

/-- The address of DATA. -/
def dataAddress : Address := u.baseAddress + dataOffset

/-- A register of the UART. -/
def register : UARTRegister → Register
  | .data => u.dataRegister
  | .status => u.statusRegister
  | .control => u.controlRegister
  | .baud => u.baudRegister

/-- The UART with a register replaced. -/
def setRegister (r : Register) : UARTRegister → UART
  | .data => { u with dataRegister := r }
  | .status => { u with statusRegister := r }
  | .control => { u with controlRegister := r }
  | .baud => { u with baudRegister := r }

end UART

end Drivers

end EFS
