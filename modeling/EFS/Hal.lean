import EFS.Drivers.Gpio
import EFS.System.SystemBus

/-!
# The hardware abstraction layer of the GPIO port and the timer

A HAL object holds a pointer to a driver, which may be null; a call on an object without a driver
only logs a warning.  A `TimerHAL` refers to a timer of the board that is passed along.
-/

namespace EFS

namespace Hal

open EFS.Drivers EFS.System

/-- The driver of a GPIO HAL, if it is attached. -/
structure GPIOHAL where
  gpio : Option GPIO

namespace GPIOHAL

variable (h : GPIOHAL) (pin : UInt8)

/-- Performs an operation of the driver, if there is one. -/
def onDriver (op : GPIO → Except String GPIO) : Except String GPIOHAL :=
  match h.gpio with
  | none => .ok h
  | some g => (op g).map fun g => ⟨some g⟩

/-- `configureOutput()`. -/
def configureOutput : Except String GPIOHAL := h.onDriver (·.configurePin pin .output)

/-- `write()`. -/
def write (state : Bool) : Except String GPIOHAL :=
  h.onDriver (·.writePin pin (if state then .high else .low))

/-- `toggle()`. -/
def toggle : Except String GPIOHAL := h.onDriver (·.togglePin pin)

/-- `read()`, low without a driver. -/
def read : Except String Bool :=
  match h.gpio with
  | none => .ok false
  | some g => (g.readPin pin).map fun state => state = .high

end GPIOHAL

/-- The driver of a timer HAL, if it is attached. -/
structure TimerHAL (T : Type) where
  timer : Option T

namespace TimerHAL

variable {T H : Type} [DecidableEq T] (h : TimerHAL T) (b : Board T H)

/-- Performs an operation of the driver on its scheduler, if there is a driver. -/
def onDriver (op : T → Timer → Timer × EventScheduler T) : Board T H :=
  match h.timer with
  | none => b
  | some r =>
    let called := op r (b.timer r)
    b.setTimer r called.1 called.2

/-- `start()`. -/
def start : Board T H := h.onDriver b fun r t => t.start r b.clock b.scheduler

/-- `stop()`. -/
def stop : Board T H := h.onDriver b fun _ t => t.stop b.scheduler

/-- `reset()`. -/
def reset : Board T H := h.onDriver b fun _ t => t.reset b.clock b.scheduler

/-- `setCompare()`. -/
def setCompare (value : UInt32) : Board T H :=
  h.onDriver b fun r t => t.setCompare r b.clock b.scheduler value

/-- `counter()`, 0 without a driver. -/
def counter : UInt32 := h.timer.elim 0 fun r => (b.timer r).counter

/-- `hasMatch()`, never without a driver. -/
def hasMatch : Bool := h.timer.elim false fun r => (b.timer r).hasMatch

end TimerHAL

end Hal

end EFS
