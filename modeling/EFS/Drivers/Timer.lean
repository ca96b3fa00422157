import EFS.Mmio.Register
import EFS.System.EventScheduler
import EFS.System.SimulationClock

/-!
# The timer

The registers of `Timer` and its operations.  A timer holds pointers to an interrupt controller, a
clock and an event scheduler; the fields say whether they are null, and an operation that follows
one of them is given the object behind it (and returns it if it changes it).  `self` is the callback
that the timer schedules, a call of its own `handleCompareMatch`.

A compare match triggers an interrupt line as its last action; `handleCompareMatch` and `tick`
return the id to be triggered.
-/

namespace EFS

namespace Drivers

open EFS.Mmio EFS.System

/-- `CTRL_ENABLE_BIT`. -/
def ctrlEnableBit : UInt32 := 1

/-- `CTRL_INT_ENABLE_BIT`. -/
def ctrlIntEnableBit : UInt32 := 2

/-- `CTRL_AUTO_RESET_BIT`. -/
def ctrlAutoResetBit : UInt32 := 4

/-- `STATUS_MATCH_BIT`. -/
def statusMatchBit : UInt32 := 1

/-- A timer: its registers, which pointers it has, and the id of its event, 0 for none. -/
structure Timer where
  ctrlRegister : Register
  countRegister : Register
  compareRegister : Register
  statusRegister : Register
  /-- `m_interruptController` is not null. -/
  interruptController : Bool
  interruptId : UInt8
  /-- `m_clock` is not null. -/
  clock : Bool
  /-- `m_scheduler` is not null. -/
  scheduler : Bool
  scheduledEventId : EventId
  lastClockCycles : UInt64

namespace Timer

/-- A new timer, attached to nothing. -/
def new : Timer :=
  ⟨.new 0, .new 0, .new 0, .new 0, false, 0, false, false, 0, 0⟩

variable (t : Timer)

/-- `running()`: the enable bit of CTRL. -/
def running : Bool := t.ctrlRegister.read &&& ctrlEnableBit ≠ 0

/-- `compare()`: the contents of COMPARE. -/
def compare : UInt32 := t.compareRegister.read

/-- `counter()`: the contents of COUNT. -/
def counter : UInt32 := t.countRegister.read

/-- `hasMatch()`: the match bit of STATUS. -/
def hasMatch : Bool := t.statusRegister.read &&& statusMatchBit ≠ 0

variable {Cb : Type} (self : Cb) (clock : SimulationClock) (sched : EventScheduler Cb)

/-! ### The scheduled event -/

/-- `cancelScheduledEvent()`, without effect when there is no event or no scheduler. -/
def cancelScheduledEvent : Timer × EventScheduler Cb :=
  if t.scheduledEventId ≠ 0 ∧ t.scheduler then
    ({ t with scheduledEventId := 0 }, (sched.cancel t.scheduledEventId).2)
  else (t, sched)

/-- The part of `updateScheduledEvent` after the old event was cancelled: an event is scheduled for
the cycle in which the counter reaches the compare value, unless it is there already.  The cycle is
a 64-bit sum. -/
def scheduleMatch : Timer × EventScheduler Cb :=
  if ¬ t.running ∨ ¬ t.scheduler then (t, sched)
  else if t.compare ≤ t.counter then (t, sched)
  else
    -- a 32-bit difference, positive here
    let delta := t.compare - t.counter
    let currentCycle := if t.clock then clock.cycles else 0
    let scheduled := sched.schedule (some self) (currentCycle + delta.toUInt64)
      "Timer Compare Match"
    ({ t with scheduledEventId := scheduled.1 }, scheduled.2)

/-- `updateScheduledEvent()`: the old event is cancelled before a new one is scheduled. -/
def updateScheduledEvent : Timer × EventScheduler Cb :=
  (t.cancelScheduledEvent sched).1.scheduleMatch self clock (t.cancelScheduledEvent sched).2

/-! ### Operations -/

/-- The timer remembers the current cycle, if it has a clock. -/
def syncClock : Timer :=
  if t.clock then { t with lastClockCycles := clock.cycles } else t

/-- The enable bit is set. -/
def enabled : Timer :=
  { t with ctrlRegister := t.ctrlRegister.write (t.ctrlRegister.read ||| ctrlEnableBit) }

/-- The enable bit is cleared. -/
def disabled : Timer :=
  { t with ctrlRegister := t.ctrlRegister.write (t.ctrlRegister.read &&& ~~~ctrlEnableBit) }

/-- The registers that `reset` resets. -/
def cleared : Timer :=
  { t with
    countRegister := t.countRegister.reset
    statusRegister := t.statusRegister.reset
    ctrlRegister := t.ctrlRegister.reset }

/-- `start()` counts from the present cycle on. -/
def start : Timer × EventScheduler Cb :=
  (t.enabled.syncClock clock).updateScheduledEvent self clock sched

/-- `stop()` keeps the count. -/
def stop : Timer × EventScheduler Cb := t.disabled.cancelScheduledEvent sched

/-- `reset()` stops the timer and clears its registers. -/
def reset : Timer × EventScheduler Cb :=
  ((t.stop sched).1.cleared.syncClock clock, (t.stop sched).2)

/-- `setCompare()` moves the event of a running timer. -/
def setCompare (value : UInt32) : Timer × EventScheduler Cb :=
  { t with compareRegister := t.compareRegister.write value }.updateScheduledEvent self clock sched

/-- `clearMatch()`. -/
def clearMatch : Timer :=
  { t with statusRegister := t.statusRegister.write (t.statusRegister.read &&& ~~~statusMatchBit) }

/-- `setInterruptEnabled()` writes the interrupt bit of CTRL. -/
def setInterruptEnabled (enable : Bool) : Timer :=
  let ctrl := t.ctrlRegister.read
  let ctrl := if enable then ctrl ||| ctrlIntEnableBit else ctrl &&& ~~~ctrlIntEnableBit
  { t with ctrlRegister := t.ctrlRegister.write ctrl }

/-- `setAutoReset()` writes the auto-reset bit of CTRL. -/
def setAutoReset (enable : Bool) : Timer :=
  let ctrl := t.ctrlRegister.read
  let ctrl := if enable then ctrl ||| ctrlAutoResetBit else ctrl &&& ~~~ctrlAutoResetBit
  { t with ctrlRegister := t.ctrlRegister.write ctrl }

/-- The counter holds the compare value, and the match bit is set. -/
def matched : Timer :=
  { t with
    countRegister := t.countRegister.write t.compare
    statusRegister := t.statusRegister.write (t.statusRegister.read ||| statusMatchBit) }

/-- The line that a compare match triggers. -/
def line : Option UInt8 := if t.interruptController then some t.interruptId else none

/-- `handleCompareMatch`, up to the interrupt that it triggers last. -/
def handleCompareMatch : Timer × EventScheduler Cb × Option UInt8 :=
  if ¬ t.running then (t, sched, none)
  else ((t.matched.stop sched).1, (t.matched.stop sched).2, t.line)

/-- How far the counter advances in one `tick()`. -/
def stepAmount : UInt32 :=
  if t.clock ∧ t.lastClockCycles < clock.cycles then (clock.cycles - t.lastClockCycles).toUInt32
  -- also for a clock that has been set back
  else 1

/-- The counter has advanced to `count`. -/
def counted (count : UInt32) : Timer :=
  { t.syncClock clock with countRegister := t.countRegister.write count }

/-- `tick()`: the timer, and the line it triggers; a timer with a scheduler leaves the match to
its event. -/
def tick : Timer × EventScheduler Cb × Option UInt8 :=
  if ¬ t.running then (t.syncClock clock, sched, none)
  else
    let count := t.counter + t.stepAmount clock
    -- a timer with a scheduler gets its match from the event
    if ¬ t.scheduler ∧ t.compare ≤ count then (t.counted clock count).handleCompareMatch sched
    else (t.counted clock count, sched, none)

/-! ### Attaching -/

/-- `attachInterruptController()` with the line that a match triggers. -/
def attachInterruptController (interruptId : UInt8) : Timer :=
  { t with interruptController := true, interruptId }

/-- `detachInterruptController()`. -/
def detachInterruptController : Timer := { t with interruptController := false, interruptId := 0 }

/-- `attachClock()` of a clock that exists. -/
def attachClock : Timer := { t with clock := true, lastClockCycles := clock.cycles }

/-- `detachClock()`. -/
def detachClock : Timer := { t with clock := false, lastClockCycles := 0 }

/-- `attachScheduler()` of a scheduler that exists. -/
def attachScheduler : Timer × EventScheduler Cb :=
  { t with scheduler := true }.updateScheduledEvent self clock sched

/-- `detachScheduler()` takes the event of the timer along. -/
def detachScheduler : Timer × EventScheduler Cb :=
  let cancelled := t.cancelScheduledEvent sched
  ({ cancelled.1 with scheduler := false }, cancelled.2)

/-! ### Calls of a program -/

/-- The calls that a program makes on a timer. -/
inductive Op
  | start
  | stop
  | reset
  | setCompare (value : UInt32)
  | clearMatch
  | setAutoReset (enable : Bool)
  | setInterruptEnabled (enable : Bool)
  | attachInterruptController (interruptId : UInt8)
  | detachInterruptController

/-- Performs a call. -/
def perform (t : Timer) (self : Cb) (clock : SimulationClock) (sched : EventScheduler Cb) :
    Op → Timer × EventScheduler Cb
  | .start => t.start self clock sched
  | .stop => t.stop sched
  | .reset => t.reset clock sched
  | .setCompare value => t.setCompare self clock sched value
  | .clearMatch => (t.clearMatch, sched)
  | .setAutoReset enable => (t.setAutoReset enable, sched)
  | .setInterruptEnabled enable => (t.setInterruptEnabled enable, sched)
  | .attachInterruptController interruptId => (t.attachInterruptController interruptId, sched)
  | .detachInterruptController => (t.detachInterruptController, sched)

/-! ### What the operations change -/

section

variable {t self clock sched}

theorem cancelScheduledEvent_of_detached (h : t.scheduler = false) :
    t.cancelScheduledEvent sched = (t, sched) := by simp [cancelScheduledEvent, h]

theorem updateScheduledEvent_of_detached (h : t.scheduler = false) :
    t.updateScheduledEvent self clock sched = (t, sched) := by
  simp [updateScheduledEvent, cancelScheduledEvent_of_detached h, scheduleMatch, h]

theorem stop_of_detached (h : t.scheduler = false) : t.stop sched = (t.disabled, sched) :=
  cancelScheduledEvent_of_detached (t := t.disabled) h

theorem start_of_unattached (hclock : t.clock = false) (h : t.scheduler = false) :
    t.start self clock sched = (t.enabled, sched) := by
  have hsync : t.enabled.syncClock clock = t.enabled := by
    rw [syncClock, if_neg]
    exact Bool.eq_false_iff.1 hclock
  rw [start, hsync]
  exact updateScheduledEvent_of_detached (t := t.enabled) h

theorem handleCompareMatch_of_detached (h : t.scheduler = false) (hrun : t.running = true) :
    t.handleCompareMatch sched = (t.matched.disabled, sched, t.line) := by
  rw [handleCompareMatch, if_neg (not_not.2 hrun), stop_of_detached (t := t.matched) h]

/-- No tick changes the scheduler: only a timer without one matches in its tick. -/
theorem tick_spec (t : Timer) (clock : SimulationClock) (sched : EventScheduler Cb) :
    ∃ t' o, t.tick clock sched = (t', sched, o) ∧ t'.line = t.line ∧ (o = none ∨ o = t.line) := by
  have hsync : (t.syncClock clock).line = t.line := by
    rw [syncClock]
    split_ifs <;> rfl
  by_cases hrun : t.running = true
  · let u := t.counted clock (t.counter + t.stepAmount clock)
    have hu : u.scheduler = t.scheduler ∧ u.running = t.running ∧ u.line = t.line := by
      simp only [u, counted, syncClock]
      split_ifs <;> exact ⟨rfl, rfl, rfl⟩
    rw [tick, if_neg (not_not.2 hrun)]
    by_cases hmatch : ¬ t.scheduler = true ∧ t.compare ≤ t.counter + t.stepAmount clock
    · have hdetached : u.scheduler = false := hu.1.trans (by simpa using hmatch.1)
      have hmatched : u.handleCompareMatch sched = _ :=
        handleCompareMatch_of_detached hdetached (hu.2.1.trans hrun)
      exact ⟨_, _, (if_pos hmatch).trans hmatched, hu.2.2, .inr hu.2.2⟩
    · exact ⟨_, _, if_neg hmatch, hu.2.2, .inl rfl⟩
  · exact ⟨_, _, if_pos hrun, hsync, .inl rfl⟩

theorem tick_of_unattached (hclock : t.clock = false) (h : t.scheduler = false)
    (hrun : t.running = true) :
    (t.tick clock sched).1 =
      if t.compare ≤ t.counter + 1 then (t.counted clock (t.counter + 1)).matched.disabled
      else t.counted clock (t.counter + 1) := by
  have hstep : t.stepAmount clock = 1 := by simp [stepAmount, hclock]
  have hsync : t.syncClock clock = t := by simp [syncClock, hclock]
  have hmatch : (t.counted clock (t.counter + 1)).handleCompareMatch sched = _ :=
    handleCompareMatch_of_detached (by rw [counted, hsync]; exact h)
      (by rw [counted, hsync]; exact hrun)
  rw [tick, if_neg (not_not.2 hrun), hstep]
  by_cases hle : t.compare ≤ t.counter + 1
  · simp [h, hle, hmatch]
  · simp [hle]

@[simp] theorem running_enabled : t.enabled.running = true := by simp [running, enabled]; decide

@[simp] theorem running_disabled : t.disabled.running = false := by simp [running, disabled]

end

end Timer

end Drivers

end EFS
