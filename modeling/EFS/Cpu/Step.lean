import EFS.System.SystemBus

/-!
# One step of the CPU

The hardware part of `CPU::step()` : the clock and the timers advance, the ready events are
executed, and one interrupt is dispatched.
-/

namespace EFS

namespace Cpu

open EFS.System

/-- `PowerState`. -/
inductive PowerState where
  | off
  | on
  | sleep
  deriving DecidableEq

/-- A CPU on a board. -/
structure CPU (Ref H : Type) where
  power : PowerState
  cycleCount : UInt64
  bus : Board Ref H

variable {Ref H : Type} [DecidableEq Ref]

/-- `CPU::step()` up to the interrupt handler that `dispatch` calls, with the exception that leaves
it, if any, and that handler.  What follows (the handler, the RTOS or the firmware update) is code
of the caller. -/
def CPU.step (c : CPU Ref H) : CPU Ref H × Option String × Option H :=
  if c.power ≠ .on then (c, none, none)
  else
    let c := { c with cycleCount := c.cycleCount + 1 }
    match c.bus.tickTimers with
    | (bus, some e) => ({ c with bus }, some e, none)
    | (bus, none) =>
      match bus.executeReadyEvents bus.clock.cycles with
      | (bus, some e) => ({ c with bus }, some e, none)
      | (bus, none) =>
        let dispatched := bus.interrupts.dispatch
        ({ c with bus := { bus with interrupts := dispatched.1 } }, none, dispatched.2)

/-- `CPU::reset()` for the cycle counter and the bus.  The register file, the firmware and the RTOS
are not part of this model. -/
def CPU.reset (c : CPU Ref H) : CPU Ref H := { c with cycleCount := 0, bus := c.bus.reset }

theorem CPU.step_eq {c : CPU Ref H} {bus bus' : Board Ref H}
    (hpower : c.power = .on) (htick : c.bus.tickTimers = (bus, none))
    (hready : bus.executeReadyEvents bus.clock.cycles = (bus', none)) :
    c.step = ({ c with
      cycleCount := c.cycleCount + 1
      bus := { bus' with interrupts := bus'.interrupts.dispatch.1 } }, none,
      bus'.interrupts.dispatch.2) := by
  rw [CPU.step, if_neg (not_not.2 hpower)]
  simp only [htick, hready]

theorem CPU.step_bus {c : CPU Ref H} {bus bus' : Board Ref H}
    (hpower : c.power = .on) (htick : c.bus.tickTimers = (bus, none))
    (hready : bus.executeReadyEvents bus.clock.cycles = (bus', none)) :
    c.step.1.bus = { bus' with interrupts := bus'.interrupts.dispatch.1 } := by
  rw [CPU.step_eq hpower htick hready]

end Cpu

end EFS
