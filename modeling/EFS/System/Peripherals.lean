import EFS.Drivers.Operations
import EFS.LTS.Basic
import EFS.System.SystemBus

/-!
# A system with peripherals

`PeripheralSystem` is a system bus with the peripherals that are attached to it: any number of
timers `T` and at most one of each other kind, all of them constructed on one MMIO bus.

The system is built by calls of the constructors (`Built`).  From then on it is driven by calls of
the drivers and by steps of a CPU that is powered on (a step of another CPU does nothing).  The
interrupt handlers and the firmware that a step calls are code of the caller: what they do to the
peripherals are calls of the drivers after the step.
-/

namespace EFS

namespace System

open EFS.Mmio EFS.Drivers EFS.Kernel

/-- A register of a peripheral. -/
inductive RegisterRef (T : Type)
  | gpio (r : GPIORegister)
  | timer (t : T) (r : TimerRegister)
  | uart (r : UARTRegister)
  | spi (r : SPIRegister)
  | i2c (r : I2CRegister)
  | pwm (r : PWMRegister)
  | pwmTimer (r : TimerRegister)
  | adc (r : ADCRegister)
  | interruptController (r : InterruptRegister)
  deriving DecidableEq

/-- The peripherals of a simulator on one MMIO bus. -/
structure PeripheralSystem (T D H : Type) where
  mmioBus : MMIOBus (RegisterRef T)
  /-- The clock, the event scheduler, the interrupt controller and the timers.  A system without an
  interrupt controller is one that does not have its registers on the MMIO bus. -/
  board : Board T H
  gpio : Option GPIO
  uart : Option UART
  spi : Option SPIController
  i2c : Option (I2CController D)
  pwm : Option PWMController
  adc : Option ADCController

namespace PeripheralSystem

variable {T D H : Type} [DecidableEq T] [DecidableEq D] (s : PeripheralSystem T D H)

/-- The register behind a reference.  Nothing refers to the registers of a peripheral that is not
there. -/
def register : RegisterRef T → Register
  | .gpio r => s.gpio.elim (.new 0) (·.register r)
  | .timer t r => (s.board.timer t).register r
  | .uart r => s.uart.elim (.new 0) (·.register r)
  | .spi r => s.spi.elim (.new 0) (·.register r)
  | .i2c r => s.i2c.elim (.new 0) (·.register r)
  | .pwm r => s.pwm.elim (.new 0) (·.register r)
  | .pwmTimer r => s.pwm.elim (.new 0) (·.timer.register r)
  | .adc r => s.adc.elim (.new 0) (·.register r)
  | .interruptController r => s.board.interrupts.register r

/-- `m_mmioBus->read(address)`. -/
def read (address : Address) : Except String UInt32 := s.mmioBus.read address register s

/-- A system without peripherals, on a board without timers. -/
def bare (board : Board T H) : PeripheralSystem T D H :=
  ⟨.empty, board, none, none, none, none, none, none⟩

/-- The systems that constructors build, each object being attached to the system bus. -/
inductive Built : PeripheralSystem T D H → Prop
  | bare {board : Board T H} (htimers : board.timers = []) (hic : board.interrupts = .init) :
    Built (bare board)
  | gpio {s bus base object} (h : Built s) (hnone : s.gpio = none)
    (hnew : GPIO.construct s.mmioBus base .gpio = (bus, .ok object)) :
    Built { s with mmioBus := bus, gpio := some object }
  | timer {s bus base object t} (h : Built s) (hnone : t ∉ s.board.timers)
    (hnew : Timer.construct s.mmioBus base (.timer t) = (bus, .ok object)) :
    Built { s with
      mmioBus := bus
      board := { s.board with timer := Function.update s.board.timer t object }.attachTimer t }
  | uart {s bus base object baud} (h : Built s) (hnone : s.uart = none)
    (hnew : UART.construct s.mmioBus base .uart baud = (bus, .ok object)) :
    Built { s with mmioBus := bus, uart := some object }
  | spi {s bus base object divider mode} (h : Built s) (hnone : s.spi = none)
    (hnew : SPIController.construct s.mmioBus base .spi divider mode = (bus, .ok object)) :
    Built { s with mmioBus := bus, spi := some object }
  | i2c {s bus base object address} (h : Built s) (hnone : s.i2c = none)
    (hnew : I2CController.construct s.mmioBus base .i2c address = (bus, .ok object)) :
    Built { s with mmioBus := bus, i2c := some object }
  | pwm {s bus base object frequency duty clock} (h : Built s) (hnone : s.pwm = none)
    (hnew : PWMController.construct s.mmioBus base .pwm .pwmTimer frequency duty clock =
      (bus, .ok object)) :
    Built { s with mmioBus := bus, pwm := some object }
  | adc {s bus base object res ref channels} (h : Built s) (hnone : s.adc = none)
    (hnew : ADCController.construct s.mmioBus base .adc res ref channels = (bus, .ok object)) :
    Built { s with mmioBus := bus, adc := some object }
  | interruptController {s bus base object} (h : Built s)
    (hnone : ∀ a r, s.mmioBus.registers a ≠ some (.interruptController r))
    (hnew : constructInterruptController s.mmioBus base .interruptController = (bus, .ok object)) :
    Built { s with mmioBus := bus, board := { s.board with interrupts := object } }

/-! ### Steps and calls -/

/-- The hardware part of `CPU::step()`, up to the interrupt handler. -/
def step : PeripheralSystem T D H :=
  match s.board.tickTimers with
  | (board, some _) => { s with board }
  | (board, none) =>
    let s := { s with board, pwm := s.pwm.map PWMController.tick }
    match board.executeReadyEvents board.clock.cycles with
    | (board, some _) => { s with board }
    | (board, none) => { s with board := { board with interrupts := board.interrupts.dispatch.1 } }

/-- The operations of the peripherals. -/
inductive Op (T D H : Type)
  | gpio (o : GPIO.Op)
  | timer (t : T) (o : Timer.Op)
  | tickTimer (t : T)
  | uart (o : UART.Op)
  | spi (o : SPIController.Op)
  | i2c (o : I2CController.Op D)
  | pwm (c : PWMController.PWMCall)
  | adc (o : ADCController.Op)
  | interruptController (o : InterruptController.Op H)
  | step

/-- The system after an operation; one on a peripheral that does not exist changes nothing. -/
def perform : Op T D H → PeripheralSystem T D H
  | .gpio o => { s with gpio := s.gpio.map (·.perform o) }
  | .timer t o =>
    let called := (s.board.timer t).perform t s.board.clock s.board.scheduler o
    { s with board := s.board.setTimer t called.1 called.2 }
  | .tickTimer t => { s with board := (s.board.tickTimer t).1 }
  | .uart o => { s with uart := s.uart.map (·.perform o) }
  | .spi o => { s with spi := s.spi.map (·.perform o) }
  | .i2c o => { s with i2c := s.i2c.map (·.perform o) }
  | .pwm c => { s with pwm := s.pwm.map (·.call c) }
  | .adc o => { s with adc := s.adc.map (·.perform o) }
  | .interruptController o =>
    { s with board := { s.board with interrupts := s.board.interrupts.perform o } }
  | .step => s.step

/-- The runs of the peripherals. -/
def machine (T D H : Type) [DecidableEq T] [DecidableEq D] :
    LTS (PeripheralSystem T D H) (Op T D H) where
  step s o s' := s' = s.perform o

/-- `SystemBus::reset()`, for a bus without DMA controllers and memory. -/
def reset : PeripheralSystem T D H where
  mmioBus := s.mmioBus
  board := s.board.reset
  gpio := s.gpio.map GPIO.reset
  uart := s.uart.map UART.reset
  spi := s.spi.map SPIController.reset
  i2c := s.i2c.map I2CController.reset
  pwm := s.pwm.map PWMController.reset
  adc := s.adc.map ADCController.reset

end PeripheralSystem

end System

end EFS
