import EFS.Firmware.BasicFirmware

/-!
# The reset controller

A `SampleCPU` is a CPU without an RTOS on which one of the sample applications is loaded.  Each of
its operations, and of those of the `ResetController`, returns the state that it leaves and the
exception that leaves it, if any; what comes after an exception is not done.
-/

namespace EFS

namespace Firmware

open EFS.Cpu

/-- The simulator's CPU with a sample firmware, whose calls may throw. -/
structure SampleCPU (T H : Type) where
  running : Bool
  power : PowerState
  cycleCount : UInt64
  firmwareManager : FirmwareManager Unit
  world : SampleWorld T H

namespace SampleCPU

variable {T H : Type} [DecidableEq T] (c : SampleCPU T H)

/-- The calls made by the manager reach the application. -/
def deliver : SampleCPU T H → List (Unit × Call) → SampleCPU T H × Option String
  | c, [] => (c, none)
  | c, call :: calls =>
    match c.world.call call.2 with
    | (world, none) => deliver { c with world } calls
    | (world, some e) => ({ c with world }, some e)

/-- `start()`; the CPU stays started if `initialize()` throws. -/
def start : SampleCPU T H × Option String :=
  if c.running then (c, none)
  else { c with running := true }.deliver c.firmwareManager.initialise

/-- `stop()`; the CPU stays stopped if `shutdown()` throws. -/
def stop : SampleCPU T H × Option String :=
  if c.running then { c with running := false }.deliver c.firmwareManager.shutdown
  else (c, none)

/-- `reset()`; the bus keeps its state if the firmware throws. -/
def reset : SampleCPU T H × Option String :=
  match { c with cycleCount := 0 }.deliver c.firmwareManager.reset with
  | (c, none) => ({ c with world := c.world.resetBus }, none)
  | (c, some e) => (c, some e)

/-- The interrupt handler that the hardware part dispatches is code of the caller and acts on
nothing here. -/
def step : SampleCPU T H × Option String :=
  if c.power ≠ .on then (c, none)
  else
    let stepped := Cpu.CPU.step ⟨.on, c.cycleCount, c.world.board⟩
    let c := { c with
      cycleCount := stepped.1.cycleCount
      world := { c.world with board := stepped.1.bus } }
    match stepped.2.1 with
    | some e => (c, some e)
    | none => if c.running then c.deliver c.firmwareManager.update else (c, none)

/-- The loop of `run`, for `n` cycles. -/
def runLoop : ℕ → SampleCPU T H → SampleCPU T H × Option String
  | 0, c => (c, none)
  | n + 1, c =>
    if !c.running then (c, none)
    else if c.power ≠ .on then (c, none)
    else
      match c.step with
      | (c', none) => runLoop n c'
      | (c', some e) => (c', some e)

/-- `run(cycles)`, whose loop is not reached if `start()` throws. -/
def run (cycles : UInt64) : SampleCPU T H × Option String :=
  match c.start with
  | (c, none) => runLoop cycles.toNat c
  | (c, some e) => (c, some e)

end SampleCPU

/-- Which of the pointers are not null; they are then to the CPU, its bus and its manager. -/
structure ResetController where
  cpu : Bool
  systemBus : Bool
  firmwareManager : Bool

namespace ResetController

variable {T H : Type} [DecidableEq T] (R : ResetController) (c : SampleCPU T H)

/-- `resetCPU()`. -/
def resetCPU : SampleCPU T H × Option String := if R.cpu then c.reset else (c, none)

/-- `resetPeripherals()`. -/
def resetPeripherals : SampleCPU T H × Option String :=
  if R.systemBus then ({ c with world := c.world.resetBus }, none) else (c, none)

/-- `resetFirmware()`: the firmware is reset and initialised again. -/
def resetFirmware : SampleCPU T H × Option String :=
  if R.firmwareManager ∨ R.cpu then
    match c.deliver c.firmwareManager.reset with
    | (c, none) => c.deliver c.firmwareManager.initialise
    | (c, some e) => (c, some e)
  else (c, none)

/-- `resetSystem()`: the three partial resets, up to the first exception. -/
def resetSystem : SampleCPU T H × Option String :=
  match R.resetCPU c with
  | (c, some e) => (c, some e)
  | (c, none) =>
    match R.resetPeripherals c with
    | (c, some e) => (c, some e)
    | (c, none) => R.resetFirmware c

/-- The operations of the CPU and of the reset controller. -/
inductive Op
  | start
  | stop
  | step
  | run (cycles : UInt64)
  | reset
  | resetCPU
  | resetPeripherals
  | resetFirmware
  | resetSystem

/-- The simulator after an operation. -/
def perform : Op → SampleCPU T H × Option String
  | .start => c.start
  | .stop => c.stop
  | .step => c.step
  | .run cycles => c.run cycles
  | .reset => c.reset
  | .resetCPU => R.resetCPU c
  | .resetPeripherals => R.resetPeripherals c
  | .resetFirmware => R.resetFirmware c
  | .resetSystem => R.resetSystem c

/-- The operations in order, up to the first exception. -/
def performAll : SampleCPU T H → List Op → SampleCPU T H × Option String
  | c, [] => (c, none)
  | c, o :: os =>
    match R.perform c o with
    | (c', none) => performAll c' os
    | (c', some e) => (c', some e)

end ResetController

end Firmware

end EFS
