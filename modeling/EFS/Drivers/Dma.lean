import EFS.Drivers.Uart
import EFS.Kernel.InterruptController
import EFS.Memory
import EFS.System.EventScheduler

/-!
# The DMA controller

`DMAController` copies one byte a step.  A byte is read from the data register of the UART, from
another register on the MMIO bus or from the memory, whichever decodes the address first, and is
written in the same way.

The objects that a controller may be attached to are `Devices`; the fields of the controller say
which of its pointers to them are not null.  `R` are the registers on the bus that are not those
of the UART.  An operation that may throw returns what the exception leaves, and the exception.
-/

namespace EFS

namespace Drivers

open EFS.Mmio EFS.Kernel EFS.System

/-- What a DMA controller can be attached to. The bus holds the registers of the UART and others,
which the interrupt controller's own are not among. -/
structure Devices (R H Cb : Type) where
  memory : Memory
  mmioBus : MMIOBus (UARTRegister ⊕ R)
  registers : R → Register
  uart : UART
  interruptController : InterruptController H
  scheduler : EventScheduler Cb

namespace Devices

variable {R H Cb : Type} [DecidableEq R] (dev : Devices R H Cb)

/-- The contents of a register on the bus. -/
def register : UARTRegister ⊕ R → Register
  | .inl r => dev.uart.register r
  | .inr r => dev.registers r

/-- The devices with a register on the bus replaced. -/
def setRegister (r : UARTRegister ⊕ R) (reg : Register) : Devices R H Cb :=
  match r with
  | .inl r => { dev with uart := dev.uart.setRegister reg r }
  | .inr r => { dev with registers := Function.update dev.registers r reg }

end Devices

/-- A DMA controller; of a pointer only whether it is null is kept. -/
structure DMAController where
  /-- `m_memory` is not null. -/
  memory : Bool
  /-- `m_mmioBus` is not null. -/
  mmioBus : Bool
  /-- `m_interruptController` is not null. -/
  interruptController : Bool
  /-- `m_scheduler` is not null. -/
  scheduler : Bool
  /-- `m_uart` is not null. -/
  uart : Bool
  interruptId : UInt8
  sourceAddress : Address
  destinationAddress : Address
  length : UInt64
  currentSrc : Address
  currentDst : Address
  transferredBytes : UInt64
  srcIncrement : Bool
  dstIncrement : Bool
  userSetSrcIncrement : Bool
  userSetDstIncrement : Bool
  busy : Bool
  completed : Bool
  error : Bool

namespace DMAController

/-- A new controller, attached to the memory, the bus, the interrupt controller and the UART if
these are given. -/
def new (memory mmioBus interruptController uart : Bool) : DMAController where
  memory := memory
  mmioBus := mmioBus
  interruptController := interruptController
  scheduler := false
  uart := uart
  interruptId := 0
  sourceAddress := 0
  destinationAddress := 0
  length := 0
  currentSrc := 0
  currentDst := 0
  transferredBytes := 0
  srcIncrement := true
  dstIncrement := true
  userSetSrcIncrement := false
  userSetDstIncrement := false
  busy := false
  completed := false
  error := false

variable {R H Cb : Type} [DecidableEq R] (dma : DMAController) (dev : Devices R H Cb)

/-- `attachMemory()` of a memory that exists. -/
def attachMemory : DMAController := { dma with memory := true }

/-- `attachMMIO()` of a bus that exists. -/
def attachMMIO : DMAController := { dma with mmioBus := true }

/-- `attachInterruptController()` with the line that completion raises. -/
def attachInterruptController (interruptId : UInt8) : DMAController :=
  { dma with interruptController := true, interruptId }

/-- `detachInterruptController()`. -/
def detachInterruptController : DMAController :=
  { dma with interruptController := false, interruptId := 0 }

/-- `attachUART()` of a UART that exists. -/
def attachUART : DMAController := { dma with uart := true }

/-- `detachUART()`. -/
def detachUART : DMAController := { dma with uart := false }

/-- `attachScheduler()` of a scheduler that exists. -/
def attachScheduler : DMAController := { dma with scheduler := true }

/-- `detachScheduler()`. -/
def detachScheduler : DMAController := { dma with scheduler := false }

/-- The address is that of the data register of the UART. -/
def isUartData (address : Address) : Bool := dma.uart ∧ address = dev.uart.dataAddress

/-- The address is that of a register on the bus. -/
def isMmioReg (address : Address) : Bool := dma.mmioBus ∧ dev.mmioBus.contains address

/-- The address is one of the memory. -/
def isMemory (address : Address) : Bool := dma.memory ∧ dev.memory.isValidAddress address

/-! ### Configuration -/

/-- `configure` : refused while a transfer is busy.  Increments that were not set by the user depend
on what decodes the addresses. -/
def configure (sourceAddress destinationAddress : Address) (length : UInt64) :
    Bool × DMAController :=
  if dma.busy then (false, dma)
  else (true, { dma with
    sourceAddress := sourceAddress
    destinationAddress := destinationAddress
    length := length
    currentSrc := sourceAddress
    currentDst := destinationAddress
    transferredBytes := 0
    busy := false
    completed := false
    error := false
    srcIncrement :=
      if ¬ dma.userSetSrcIncrement then
        ¬ (dma.isUartData dev sourceAddress ∨ dma.isMmioReg dev sourceAddress)
      else dma.srcIncrement
    dstIncrement :=
      if ¬ dma.userSetDstIncrement then
        ¬ (dma.isUartData dev destinationAddress ∨ dma.isMmioReg dev destinationAddress)
      else dma.dstIncrement })

/-- `setIncrements()`, after which the defaults of the mode no longer apply. -/
def setIncrements (sourceIncrement destinationIncrement : Bool) : DMAController :=
  { dma with
    srcIncrement := sourceIncrement
    dstIncrement := destinationIncrement
    userSetSrcIncrement := true
    userSetDstIncrement := true }

/-- Triggers the completion interrupt, if an interrupt controller is attached. -/
def triggerInterrupt : Devices R H Cb × Option String :=
  if dma.interruptController then
    match dev.interruptController.trigger dma.interruptId with
    | .ok ic => ({ dev with interruptController := ic }, none)
    | .error e => (dev, some e)
  else (dev, none)

/-- `start` : what it returns or throws, and what it leaves.  Only the first address of each range
is checked. -/
def start : Except String Bool × DMAController × Devices R H Cb :=
  if ¬ dma.memory ∧ ¬ dma.mmioBus ∧ ¬ dma.uart then (.ok false, { dma with error := true }, dev)
  else if dma.length = 0 then
    let dma := { dma with busy := false, completed := true, error := false }
    match dma.triggerInterrupt dev with
    | (dev, none) => (.ok true, dma, dev)
    | (dev, some e) => (.error e, dma, dev)
  else
    let srcValid := dma.isUartData dev dma.sourceAddress ∨ dma.isMmioReg dev dma.sourceAddress ∨
      dma.isMemory dev dma.sourceAddress
    let dstValid := dma.isUartData dev dma.destinationAddress ∨
      dma.isMmioReg dev dma.destinationAddress ∨ dma.isMemory dev dma.destinationAddress
    if ¬ srcValid ∨ ¬ dstValid then
      (.ok false, { dma with error := true, busy := false, completed := false }, dev)
    else
      (.ok true, { dma with
        currentSrc := dma.sourceAddress
        currentDst := dma.destinationAddress
        transferredBytes := 0
        busy := true
        completed := false
        error := false }, dev)

/-- `stop()` leaves the addresses and the count as they are. -/
def stop : DMAController := { dma with busy := false }

/-- `reset()`; what is attached stays attached. -/
def reset : DMAController :=
  { dma with
    sourceAddress := 0
    destinationAddress := 0
    length := 0
    currentSrc := 0
    currentDst := 0
    transferredBytes := 0
    srcIncrement := true
    dstIncrement := true
    userSetSrcIncrement := false
    userSetDstIncrement := false
    busy := false
    completed := false
    error := false }

/-! ### Transfers -/

/-- Reads the byte at an address: `none` if nothing decodes it. -/
def fetch (address : Address) : Except String (Option (UInt8 × Devices R H Cb)) := do
  if dma.isUartData dev address then
    let (byte, uart) ← dev.uart.readByte
    return some (byte, { dev with uart })
  else if dma.isMmioReg dev address then
    let value ← dev.mmioBus.read address Devices.register dev
    return some ((value &&& 0xFF).toUInt8, dev)
  else if dma.isMemory dev address then
    let byte ← dev.memory.read address
    return some (byte, dev)
  else return none

/-- Writes a byte to an address: `none` if nothing decodes it. -/
def deposit (address : Address) (byte : UInt8) : Except String (Option (Devices R H Cb)) := do
  if dma.isUartData dev address then
    let uart ← dev.uart.writeByte byte
    return some { dev with uart }
  else if dma.isMmioReg dev address then
    let dev ← dev.mmioBus.write address Devices.register Devices.setRegister dev byte.toUInt32
    return some dev
  else if dma.isMemory dev address then
    let memory ← dev.memory.write address byte
    return some { dev with memory }
  else return none

/-- The transfer has failed. -/
def failed : DMAController := { dma with error := true, busy := false }

/-- One more byte has been transferred. -/
def advanced : DMAController :=
  { dma with
    transferredBytes := dma.transferredBytes + 1
    currentSrc := if dma.srcIncrement then dma.currentSrc + 1 else dma.currentSrc
    currentDst := if dma.dstIncrement then dma.currentDst + 1 else dma.currentDst }

/-- The last part of `step` : the completion of the transfer, if that was its last byte.  `noop` is
the callback of the event that it schedules. -/
def complete (noop : Cb) : (DMAController × Devices R H Cb) × Option String :=
  if dma.length ≤ dma.transferredBytes then
    let dma := { dma with busy := false, completed := true }
    match dma.triggerInterrupt dev with
    -- the callback of the event does nothing
    | (dev, none) =>
      ((dma, if dma.scheduler then
        { dev with scheduler := (dev.scheduler.schedule (some noop) 0 "DMA Transfer Complete").2 }
      else dev), none)
    -- the exception comes before the event
    | (dev, some e) => ((dma, dev), some e)
  else ((dma, dev), none)

/-- `step()`. -/
def step (noop : Cb) : (DMAController × Devices R H Cb) × Option String :=
  if ¬ dma.busy then ((dma, dev), none)
  else if dma.length ≤ dma.transferredBytes then
    (({ dma with busy := false, completed := true }, dev), none)
  else
    match dma.fetch dev dma.currentSrc with
    -- an exception of the UART; the flags stay as they are
    | .error e => ((dma, dev), some e)
    | .ok none => ((dma.failed, dev), none)
    | .ok (some (byte, dev)) =>
      -- the byte has been taken from its source, whatever the destination does with it
      match dma.deposit dev dma.currentDst byte with
      | .error e => ((dma, dev), some e)
      | .ok none => ((dma.failed, dev), none)
      | .ok (some dev) => dma.advanced.complete dev noop

end DMAController

end Drivers

end EFS
