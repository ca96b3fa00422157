import EFS.Cpu.Step
import EFS.Firmware.FirmwareManager

/-!
# A CPU with firmware

The operations of a `CPU` without an RTOS, on its own state and its firmware manager.  What lies
outside (the system bus with its peripherals, and the state of the firmware applications) is a
`World`, and the calls that the applications receive are recorded in the order of their delivery.
-/

namespace EFS

namespace Firmware

open EFS.Cpu

/-- The surroundings of a CPU: states `W`, and firmware applications `F` that act on them. -/
structure World (F W : Type) where
  /-- `tickTimers`, `executeReadyEvents` and `dispatch`, with the exception that leaves them. -/
  tick : W → W × Option String
  /-- `m_systemBus->reset()`. -/
  reset : W → W
  /-- What a call of an application does. -/
  call : F → Call → W → W

/-- A CPU with the firmware it runs, and the world that both act on. -/
structure CPU (F W : Type) where
  running : Bool
  power : PowerState
  cycleCount : UInt64
  firmwareManager : FirmwareManager F
  world : W
  /-- The calls delivered so far, the first one first. -/
  calls : List (F × Call)

namespace CPU

variable {F W : Type} (E : World F W) (c : CPU F W)

/-- A CPU that has just been constructed. -/
def new (power : PowerState) (world : W) : CPU F W where
  running := false
  power := power
  cycleCount := 0
  firmwareManager := .new
  world := world
  calls := []

/-- The calls made by the manager reach the applications. -/
def deliver (calls : List (F × Call)) : CPU F W :=
  { c with
    world := calls.foldl (fun w call => E.call call.1 call.2 w) c.world
    calls := c.calls ++ calls }

/-- `start()` calls `initialize()` of the active firmware, unless the CPU runs. -/
def start : CPU F W :=
  if c.running then c
  else { c with running := true }.deliver E c.firmwareManager.initialise

/-- `stop()` calls `shutdown()` of the active firmware, if the CPU runs. -/
def stop : CPU F W :=
  if c.running then { c with running := false }.deliver E c.firmwareManager.shutdown
  else c

/-- `reset()`: the firmware first, then the bus. -/
def reset : CPU F W :=
  let c := { c with cycleCount := 0 }.deliver E c.firmwareManager.reset
  { c with world := E.reset c.world }

/-- `step()`: the peripherals before the firmware, whose `update()` is only called while running.
-/
def step : CPU F W × Option String :=
  if c.power ≠ .on then (c, none)
  else
    match E.tick c.world with
    | (world, some e) => ({ c with cycleCount := c.cycleCount + 1, world }, some e)
    | (world, none) =>
      let c := { c with cycleCount := c.cycleCount + 1, world }
      (if c.running then c.deliver E c.firmwareManager.update else c, none)

/-- The loop of `run`, for `n` cycles. -/
def runLoop : ℕ → CPU F W → CPU F W × Option String
  | 0, c => (c, none)
  | n + 1, c =>
    if !c.running then (c, none)
    else if c.power ≠ .on then (c, none)
    else
      match c.step E with
      | (c', none) => runLoop n c'
      | (c', some e) => (c', some e)

/-- `run(cycles)`. -/
def run (cycles : UInt64) : CPU F W × Option String := runLoop E cycles.toNat (c.start E)

/-- `firmwareManager().registerFirmware(name, firmware)`. -/
def registerFirmware (name : String) (firmware : Option F) : CPU F W :=
  { c with firmwareManager := (c.firmwareManager.registerFirmware name firmware).1 }

/-- `firmwareManager().unregisterFirmware(name)`. -/
def unregisterFirmware (name : String) : CPU F W :=
  let unregistered := c.firmwareManager.unregisterFirmware name
  { c with firmwareManager := unregistered.1 }.deliver E unregistered.2.1

/-- `firmwareManager().setActiveFirmware(name)`. -/
def setActiveFirmware (name : String) : CPU F W :=
  let selected := c.firmwareManager.setActiveFirmware name
  { c with firmwareManager := selected.1 }.deliver E selected.2.1

/-- `loadFirmware()` stops the CPU before it registers and activates the firmware. -/
def loadFirmware (firmware : Option F) (name : String) : CPU F W × Bool :=
  match firmware with
  | none => (c, false)
  | some f => ((((c.stop E).registerFirmware name (some f)).setActiveFirmware E name), true)

/-- `unloadFirmware()` stops the CPU before it unregisters the active firmware. -/
def unloadFirmware : CPU F W :=
  let c := c.stop E
  if c.firmwareManager.activeName = "" then c
  else c.unregisterFirmware E c.firmwareManager.activeName

/-- The operations of the CPU and of its firmware manager; `setPower` stands for those of the power
controller, by the state they lead to. -/
inductive Op (F : Type) where
  | loadFirmware (firmware : Option F) (name : String)
  | unloadFirmware
  | start
  | stop
  | reset
  | step
  | run (cycles : UInt64)
  | registerFirmware (name : String) (firmware : Option F)
  | unregisterFirmware (name : String)
  | setActiveFirmware (name : String)
  | setPower (power : PowerState)

/-- The CPU after an operation. -/
def perform : Op F → CPU F W
  | .loadFirmware firmware name => (c.loadFirmware E firmware name).1
  | .unloadFirmware => c.unloadFirmware E
  | .start => c.start E
  | .stop => c.stop E
  | .reset => c.reset E
  | .step => (c.step E).1
  | .run cycles => (c.run E cycles).1
  | .registerFirmware name firmware => c.registerFirmware name firmware
  | .unregisterFirmware name => c.unregisterFirmware E name
  | .setActiveFirmware name => c.setActiveFirmware E name
  | .setPower power => { c with power }

variable {E} {c}

theorem deliver_nil (c : CPU F W) : c.deliver E [] = c := by
  simp [deliver]

theorem stop_running (c : CPU F W) : (c.stop E).running = false := by
  unfold stop
  split_ifs with hr
  · rfl
  · simpa using hr

theorem stop_firmwareManager (c : CPU F W) : (c.stop E).firmwareManager = c.firmwareManager := by
  unfold stop
  split_ifs <;> rfl

theorem setActiveFirmware_eq {name : String}
    (hc : (c.firmwareManager.firmwareRegistry.find? name).isSome →
      c.firmwareManager.activeName = name) : c.setActiveFirmware E name = c := by
  simp only [setActiveFirmware]
  cases hreg : c.firmwareManager.firmwareRegistry.find? name with
  | none => rw [FirmwareManager.setActiveFirmware_of_unknown hreg, deliver_nil]
  | some f =>
    rw [FirmwareManager.setActiveFirmware_of_active hreg (hc (by simp [hreg])), deliver_nil]

theorem calls_step (hp : c.power = .on) (hr : c.running) (ht : (E.tick c.world).2 = none) :
    (c.step E).1.calls = c.calls ++ c.firmwareManager.update := by
  unfold step
  rw [if_neg (not_not.2 hp)]
  rcases htick : E.tick c.world with ⟨world, _ | e⟩
  · simp [hr, deliver]
  · simp [htick] at ht

end CPU

end Firmware

end EFS
