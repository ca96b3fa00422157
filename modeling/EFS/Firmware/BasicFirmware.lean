import EFS.Firmware.TimerBlink

/-!
# The basic firmware

`BasicFirmware` toggles a pin every `toggleInterval` updates.  A `SampleWorld` is what one of the
two sample applications acts on, and its own state.
-/

namespace EFS

namespace Firmware

open EFS.Drivers EFS.Hal EFS.System

/-- The firmware that toggles a pin every `toggleInterval` updates. -/
structure BasicFirmware where
  pin : UInt8
  toggleInterval : UInt64
  cycleCounter : UInt64
  executionCount : UInt64
  initialized : Bool
  isShutdown : Bool

/-- The constructor. -/
def BasicFirmware.new (pin : UInt8) (toggleInterval : UInt64) : BasicFirmware :=
  ⟨pin, if toggleInterval = 0 then 1 else toggleInterval, 0, 0, false, false⟩

/-- Initialised, and not shut down since. -/
def BasicFirmware.live (f : BasicFirmware) : Bool := f.initialized && !f.isShutdown

/-- `m_initialized && !m_isShutdown`. -/
def TimerBlinkFirmware.live (f : TimerBlinkFirmware) : Bool := f.initialized && !f.isShutdown

/-- The firmware with the GPIO HAL that it holds. -/
structure BasicWorld where
  gpioHAL : GPIOHAL
  firmware : BasicFirmware

namespace BasicWorld

variable (w : BasicWorld)

/-- `initialize()`, up to the first exception. -/
def initialise : BasicWorld × Option String :=
  let w := { w with
    firmware := { w.firmware with
      initialized := true, isShutdown := false, cycleCounter := 0, executionCount := 0 } }
  match w.gpioHAL.configureOutput w.firmware.pin with
  | .error e => (w, some e)
  | .ok gpioHAL =>
    let w := { w with gpioHAL }
    match w.gpioHAL.write w.firmware.pin false with
    | .error e => (w, some e)
    | .ok gpioHAL => ({ w with gpioHAL }, none)

/-- `update()` toggles the pin when the interval is over. -/
def update : BasicWorld × Option String :=
  if !w.firmware.initialized || w.firmware.isShutdown then (w, none)
  else
    let w := { w with
      firmware := { w.firmware with
        executionCount := w.firmware.executionCount + 1
        cycleCounter := w.firmware.cycleCounter + 1 } }
    if w.firmware.toggleInterval ≤ w.firmware.cycleCounter then
      match w.gpioHAL.toggle w.firmware.pin with
      | .error e => (w, some e)
      | .ok gpioHAL => (⟨gpioHAL, { w.firmware with cycleCounter := 0 }⟩, none)
    else (w, none)

/-- `shutdown()`; a firmware whose pin cannot be written stays live. -/
def shutdown : BasicWorld × Option String :=
  if w.firmware.initialized && !w.firmware.isShutdown then
    match w.gpioHAL.write w.firmware.pin false with
    | .error e => (w, some e)
    | .ok gpioHAL => (⟨gpioHAL, { w.firmware with isShutdown := true }⟩, none)
  else (w, none)

/-- `reset()`; nothing is cleared if the pin cannot be written. -/
def reset : BasicWorld × Option String :=
  let written :=
    if w.firmware.initialized && !w.firmware.isShutdown then w.gpioHAL.write w.firmware.pin false
    else .ok w.gpioHAL
  match written with
  | .error e => (w, some e)
  | .ok gpioHAL =>
    (⟨gpioHAL, { w.firmware with
      initialized := false, isShutdown := false, cycleCounter := 0, executionCount := 0 }⟩, none)

/-- A call of the CPU. -/
def call : Call → BasicWorld × Option String
  | .initialise => w.initialise
  | .update => w.update
  | .shutdown => w.shutdown
  | .reset => w.reset

end BasicWorld

/-- One of the sample applications. -/
inductive SampleFirmware
  | basic (f : BasicFirmware)
  | timerBlink (f : TimerBlinkFirmware)

namespace SampleFirmware

/-- The pin that the firmware drives. -/
def pin : SampleFirmware → UInt8
  | basic f => f.pin
  | timerBlink f => f.pin

/-- Initialised, and not shut down since. -/
def live : SampleFirmware → Bool
  | basic f => f.live
  | timerBlink f => f.live

end SampleFirmware

/-- A sample firmware with the board and the HALs of the simulator. -/
structure SampleWorld (T H : Type) where
  board : Board T H
  gpioHAL : GPIOHAL
  timerHAL : TimerHAL T
  firmware : SampleFirmware

namespace SampleWorld

variable {T H : Type} [DecidableEq T] (w : SampleWorld T H)

/-- A call of the CPU, to whichever firmware it is. -/
def call (c : Call) : SampleWorld T H × Option String :=
  match w.firmware with
  | .basic f =>
    let called := BasicWorld.call ⟨w.gpioHAL, f⟩ c
    ({ w with gpioHAL := called.1.gpioHAL, firmware := .basic called.1.firmware }, called.2)
  | .timerBlink f =>
    let called := BlinkWorld.call ⟨w.board, w.gpioHAL, w.timerHAL, f⟩ c
    (⟨called.1.board, called.1.gpioHAL, called.1.timerHAL, .timerBlink called.1.firmware⟩, called.2)

/-- `SystemBus::reset()`, for a bus with the board and the GPIO port. -/
def resetBus : SampleWorld T H :=
  { w with board := w.board.reset, gpioHAL := ⟨w.gpioHAL.gpio.map GPIO.reset⟩ }

end SampleWorld

end Firmware

end EFS
