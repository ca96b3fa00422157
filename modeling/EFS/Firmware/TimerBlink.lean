import EFS.Firmware.Cpu
import EFS.Hal

/-!
# The blinking firmware

`TimerBlinkFirmware` toggles a pin at each compare match of a timer, and then restarts the timer.  A
`BlinkWorld` is all that it acts on, and its own state; `blinkWorld` puts it on a CPU.

A function that may throw returns the world as the exception leaves it, and the exception.
-/

namespace EFS

namespace Firmware

open EFS.Drivers EFS.Hal EFS.System

/-- The firmware that toggles a pin at each match of a timer. -/
structure TimerBlinkFirmware where
  pin : UInt8
  compareValue : UInt32
  toggleCount : UInt64
  initialized : Bool
  isShutdown : Bool

/-- The constructor. -/
def TimerBlinkFirmware.new (pin : UInt8) (compareValue : UInt32) : TimerBlinkFirmware :=
  ⟨pin, if compareValue = 0 then 1 else compareValue, 0, false, false⟩

/-- The firmware with its HALs and the board that holds the timer. -/
structure BlinkWorld (T H : Type) where
  board : Board T H
  gpioHAL : GPIOHAL
  timerHAL : TimerHAL T
  firmware : TimerBlinkFirmware

namespace BlinkWorld

variable {T H : Type} [DecidableEq T] (w : BlinkWorld T H)

/-- `initialize()`, up to the first exception; it leaves the timer running. -/
def initialise : BlinkWorld T H × Option String :=
  let w := { w with
    firmware := { w.firmware with initialized := true, isShutdown := false, toggleCount := 0 } }
  match w.gpioHAL.configureOutput w.firmware.pin with
  | .error e => (w, some e)
  | .ok gpioHAL =>
    let w := { w with gpioHAL }
    match w.gpioHAL.write w.firmware.pin false with
    | .error e => (w, some e)
    | .ok gpioHAL =>
      let board := w.timerHAL.reset (w.timerHAL.stop w.board)
      let board := w.timerHAL.start (w.timerHAL.setCompare board w.firmware.compareValue)
      ({ w with gpioHAL, board }, none)

/-- `update()` toggles the pin and restarts the timer when it has matched. -/
def update : BlinkWorld T H × Option String :=
  if !w.firmware.initialized || w.firmware.isShutdown then (w, none)
  else if w.timerHAL.hasMatch w.board ∨ w.firmware.compareValue ≤ w.timerHAL.counter w.board then
    match w.gpioHAL.toggle w.firmware.pin with
    | .error e => (w, some e)
    | .ok gpioHAL =>
      ({ w with
        gpioHAL
        firmware := { w.firmware with toggleCount := w.firmware.toggleCount + 1 }
        board := w.timerHAL.start (w.timerHAL.reset w.board) }, none)
  else (w, none)

/-- The end of `shutdown` and `reset` : the timer is stopped and the pin is driven low. -/
def halt : BlinkWorld T H × Option String :=
  let w := { w with board := w.timerHAL.stop w.board }
  match w.gpioHAL.write w.firmware.pin false with
  | .error e => (w, some e)
  | .ok gpioHAL => ({ w with gpioHAL }, none)

/-- `shutdown()`; a firmware whose pin cannot be written stays live. -/
def shutdown : BlinkWorld T H × Option String :=
  if w.firmware.initialized && !w.firmware.isShutdown then
    match w.halt with
    | (w, some e) => (w, some e)
    | (w, none) => ({ w with firmware := { w.firmware with isShutdown := true } }, none)
  else (w, none)

/-- `reset()`; nothing is cleared if the pin cannot be written. -/
def reset : BlinkWorld T H × Option String :=
  let halted := if w.firmware.initialized && !w.firmware.isShutdown then w.halt else (w, none)
  match halted with
  | (w, some e) => (w, some e)
  | (w, none) =>
    ({ w with
      firmware := { w.firmware with initialized := false, isShutdown := false, toggleCount := 0 } },
      none)

/-- A call of the CPU. -/
def call : Call → BlinkWorld T H × Option String
  | .initialise => w.initialise
  | .update => w.update
  | .shutdown => w.shutdown
  | .reset => w.reset

end BlinkWorld

/-- The surroundings of a CPU whose only firmware blinks.  Interrupt handlers are code of the caller
and do not act on them.  A call of the firmware is the last part of the CPU's operation, so an
exception changes nothing else. -/
def blinkWorld (T H : Type) [DecidableEq T] : World Unit (BlinkWorld T H) where
  tick w :=
    let stepped := Cpu.CPU.step ⟨.on, 0, w.board⟩
    ({ w with board := stepped.1.bus }, stepped.2.1)
  reset w := { w with
    board := w.board.reset
    gpioHAL := ⟨w.gpioHAL.gpio.map GPIO.reset⟩ }
  call _ c w := (w.call c).1

end Firmware

end EFS
