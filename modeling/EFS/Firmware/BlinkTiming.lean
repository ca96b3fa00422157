import EFS.Cpu.TimerPair
import EFS.Firmware.TimerBlink
import EFS.System.TimerEvents

/-!
# When the firmware blinks

A period of the blinking firmware begins when it restarts its timer, and lasts until the timer
matches.  In a period of `c` cycles that begins in cycle `k`, the only event of the scheduler is
that of the match, in cycle `k + c`, and the counter is the number of steps since the beginning
(`Counting`).

* `blinkLaw_iff` : the firmware has toggled its pin `m / c` times after `m` steps, for all `m ≤ n`,
  iff no period that begins before has a match whose cycle is a wrapped sum, and the count does not
  wrap.
* `not_blinkLaw_wrapped` : three cycles before the clock wraps, the first step is a match.
-/

namespace EFS

namespace System

open EFS.Drivers EFS.Hal EFS.Mmio

/-! ### The timer of the firmware -/

/-- An attached timer whose reset values are those of a new one, and whose line, if any, exists. -/
structure Attached (t : Timer) : Prop where
  scheduler : t.scheduler = true
  clock : t.clock = true
  line : ∀ id ∈ t.line, id.toNat < 32
  ctrlReset : t.ctrlRegister.initialValue &&& ctrlEnableBit = 0
  countReset : t.countRegister.initialValue = 0
  statusReset : t.statusRegister.initialValue &&& statusMatchBit = 0

/-- Timer `r` is attached to the bus.  The other timers of the bus may be in any state. -/
structure BlinkBus {T H : Type} (b : Board T H) (r : T) : Prop where
  timers : b.timers.Nodup
  attached : r ∈ b.timers
  timer : Attached (b.timer r)
  lines : ∀ u ∈ b.timers, ∀ id ∈ (b.timer u).line, id.toNat < 32

/-- The timer is stopped at 0 and has no event. -/
structure Parked {T H : Type} (b : Board T H) (r : T) (c : UInt32) : Prop extends BlinkBus b r where
  compare : (b.timer r).compare = c
  running : (b.timer r).running = false
  counter : (b.timer r).counter = 0
  hasMatch : (b.timer r).hasMatch = false
  noEvent : (b.timer r).scheduledEventId = 0
  noEvents : b.scheduler.events = []

/-- The timer has counted `i` steps of a period of `c` steps that began in cycle `k`. -/
structure Counting {T H : Type} (b : Board T H) (r : T) (c : UInt32) (k : UInt64) (i : ℕ) : Prop
    extends BlinkBus b r where
  compare : (b.timer r).compare = c
  running : (b.timer r).running = true
  counter : (b.timer r).counter = .ofNat i
  hasMatch : (b.timer r).hasMatch = false
  inStep : (b.timer r).lastClockCycles = b.clock.cycles
  cycles : b.clock.cycles = k + .ofNat i
  below : i < c.toNat
  events : b.scheduler.events =
    [⟨(b.timer r).scheduledEventId, k + c.toUInt64, some r, "Timer Compare Match"⟩]

/-- The timer has matched in the step that has just ended. -/
structure Matched {T H : Type} (b : Board T H) (r : T) (c : UInt32) : Prop
    extends BlinkBus b r where
  compare : (b.timer r).compare = c
  hasMatch : (b.timer r).hasMatch = true
  noEvent : (b.timer r).scheduledEventId = 0
  noEvents : b.scheduler.events = []

variable {T H : Type} {b : Board T H} {r : T} {c : UInt32} {k : UInt64} {i : ℕ}

theorem Attached.of_eq {t t' : Timer} (h : Attached t)
    (hattached : t'.scheduler = t.scheduler ∧ t'.clock = t.clock) (hline : t'.line = t.line)
    (hctrl : t'.ctrlRegister.initialValue = t.ctrlRegister.initialValue)
    (hcount : t'.countRegister.initialValue = t.countRegister.initialValue)
    (hstatus : t'.statusRegister.initialValue = t.statusRegister.initialValue) : Attached t' :=
  ⟨hattached.1.trans h.scheduler, hattached.2.trans h.clock, hline ▸ h.line, hctrl ▸ h.ctrlReset,
    hcount ▸ h.countReset, hstatus ▸ h.statusReset⟩

theorem stop_of_owns {t : Timer} {sched : EventScheduler T} (hsched : t.scheduler = true)
    (h : Timer.Owns t.scheduledEventId sched) :
    t.stop sched = ({ t.disabled with scheduledEventId := 0 }, { sched with events := [] }) := by
  have ht : t.eventDriven t.scheduledEventId t.interruptId = t := by
    simp [Timer.eventDriven, ← hsched]
  have hstop := Timer.stop_eventDriven (t := t) (i := t.interruptId) h
  rw [ht] at hstop
  rw [hstop]
  simp [Timer.eventDriven, Timer.disabled, hsched]

theorem start_of_noEvent {t : Timer} {clock : SimulationClock} {sched : EventScheduler T}
    (hsched : t.scheduler = true) (hclock : t.clock = true) (hid : t.scheduledEventId = 0)
    (hlt : t.counter < t.compare) :
    t.start r clock sched =
      ({ t.enabled with lastClockCycles := clock.cycles, scheduledEventId := sched.nextId },
        ⟨sched.nextId + 1, sched.events ++ [t.matchEvent r clock sched.nextId]⟩) := by
  let u : Timer := { t.enabled with lastClockCycles := clock.cycles }
  have hsync : t.enabled.syncClock clock = u := if_pos hclock
  have hcancel : u.cancelScheduledEvent sched = ({ u with scheduledEventId := 0 }, sched) := by
    have hu : { u with scheduledEventId := 0 } = u := by simp [u, Timer.enabled, ← hid]
    rw [hu, Timer.cancelScheduledEvent, if_neg fun h => h.1 hid]
  have hw : u.Waiting := ⟨Timer.running_enabled, hlt⟩
  rw [Timer.start, hsync, Timer.updateScheduledEvent, hcancel,
    scheduleMatch_of_waiting (t := u) hclock hsched hw]
  rfl

variable [DecidableEq T]

/-- Attaching a stopped timer that has no event. -/
theorem attachTimer_of_stopped (hnot : r ∉ b.timers) (hrun : (b.timer r).running = false)
    (hid : (b.timer r).scheduledEventId = 0) :
    b.attachTimer r = { b.setTimer r
      { b.timer r with clock := true, lastClockCycles := b.clock.cycles, scheduler := true }
      b.scheduler with timers := b.timers ++ [r] } := by
  let t : Timer :=
    { b.timer r with clock := true, lastClockCycles := b.clock.cycles, scheduler := true }
  have hupdate : t.updateScheduledEvent r b.clock b.scheduler = (t, b.scheduler) := by
    have hid : ¬ (t.scheduledEventId ≠ 0 ∧ t.scheduler = true) := fun hc => hc.1 hid
    have hrun : t.running = false := hrun
    rw [Timer.updateScheduledEvent, Timer.cancelScheduledEvent, if_neg hid, Timer.scheduleMatch,
      if_pos (.inl (by simp [hrun]))]
  have hattached : ((b.timer r).attachClock b.clock).attachScheduler r b.clock b.scheduler =
      (t, b.scheduler) := hupdate
  rw [Board.attachTimer, if_neg hnot, hattached]

theorem BlinkBus.setTimer {t : Timer} {sched : EventScheduler T} (h : BlinkBus b r)
    (ht : Attached t) : BlinkBus (b.setTimer r t sched) r := by
  refine ⟨h.timers, h.attached, by simpa [Board.setTimer] using ht, ?_⟩
  intro u hu
  by_cases hur : u = r
  · simpa [Board.setTimer, hur] using ht.line
  · simpa [Board.setTimer, hur] using h.lines u hu

theorem BlinkBus.stop {hal : TimerHAL T} (h : BlinkBus b r) (hr : hal.timer = some r)
    (howns : Timer.Owns (b.timer r).scheduledEventId b.scheduler) :
    BlinkBus (hal.stop b) r ∧ ((hal.stop b).timer r).scheduledEventId = 0 ∧
      (hal.stop b).scheduler.events = [] ∧ (hal.stop b).clock = b.clock := by
  have hstop : hal.stop b = b.setTimer r { (b.timer r).disabled with scheduledEventId := 0 }
      { b.scheduler with events := [] } := by
    simp only [TimerHAL.stop, TimerHAL.onDriver, hr, stop_of_owns h.timer.scheduler howns]
  rw [hstop]
  exact ⟨h.setTimer (h.timer.of_eq ⟨rfl, rfl⟩ rfl rfl rfl rfl), by simp [Board.setTimer], rfl, rfl⟩

/-- `reset()`. -/
theorem BlinkBus.reset {hal : TimerHAL T} (h : BlinkBus b r) (hr : hal.timer = some r)
    (howns : Timer.Owns (b.timer r).scheduledEventId b.scheduler) :
    Parked (hal.reset b) r (b.timer r).compare ∧ (hal.reset b).clock = b.clock := by
  let t : Timer := ({ (b.timer r).disabled with scheduledEventId := 0 } : Timer).cleared
  have hsync : t.syncClock b.clock = { t with lastClockCycles := b.clock.cycles } :=
    if_pos h.timer.clock
  have hreset : hal.reset b = b.setTimer r { t with lastClockCycles := b.clock.cycles }
      { b.scheduler with events := [] } := by
    simp only [TimerHAL.reset, TimerHAL.onDriver, hr, Timer.reset,
      stop_of_owns h.timer.scheduler howns]
    rw [← hsync]
  have ht : Attached { t with lastClockCycles := b.clock.cycles } :=
    h.timer.of_eq ⟨rfl, rfl⟩ rfl rfl rfl rfl
  rw [hreset]
  refine ⟨⟨h.setTimer ht, ?_, ?_, ?_, ?_, ?_, rfl⟩, rfl⟩ <;>
    simp only [Board.setTimer, Function.update_self]
  · rfl
  · exact decide_eq_false (not_not.2 h.timer.ctrlReset)
  · exact h.timer.countReset
  · exact decide_eq_false (not_not.2 h.timer.statusReset)
  · rfl

/-- `setCompare()` of a parked timer. -/
theorem Parked.setCompare {hal : TimerHAL T} (h : Parked b r c) (hr : hal.timer = some r)
    (value : UInt32) : Parked (hal.setCompare b value) r value ∧
      (hal.setCompare b value).clock = b.clock := by
  let t : Timer := { b.timer r with compareRegister := (b.timer r).compareRegister.write value }
  have hupdate : t.updateScheduledEvent r b.clock b.scheduler = (t, b.scheduler) := by
    have hrun : t.running = false := h.running
    have hid : ¬ (t.scheduledEventId ≠ 0 ∧ t.scheduler = true) := fun hc => hc.1 h.noEvent
    rw [Timer.updateScheduledEvent, Timer.cancelScheduledEvent, if_neg hid, Timer.scheduleMatch,
      if_pos (.inl (by simp [hrun]))]
  have hset : hal.setCompare b value = b.setTimer r t b.scheduler := by
    simp only [TimerHAL.setCompare, TimerHAL.onDriver, hr, Timer.setCompare]
    rw [hupdate]
  rw [hset]
  refine ⟨⟨h.setTimer (h.timer.of_eq ⟨rfl, rfl⟩ rfl rfl rfl rfl), ?_, ?_, ?_, ?_, ?_, h.noEvents⟩,
    rfl⟩ <;> simp only [Board.setTimer, Function.update_self]
  · rfl
  · exact h.running
  · exact h.counter
  · exact h.hasMatch
  · exact h.noEvent

/-- `start()` of a parked timer: a period begins. -/
theorem Parked.start {hal : TimerHAL T} (h : Parked b r c) (hr : hal.timer = some r) (hc : c ≠ 0) :
    Counting (hal.start b) r c b.clock.cycles 0 := by
  have hpos : 0 < c.toNat := by
    have hne : c.toNat ≠ 0 := fun h₀ => hc (UInt32.toNat.inj h₀)
    omega
  have hlt : (b.timer r).counter < (b.timer r).compare := by
    rw [h.counter, h.compare, UInt32.lt_iff_toNat_lt]
    exact hpos
  have hstart : hal.start b = b.setTimer r
      { (b.timer r).enabled with
        lastClockCycles := b.clock.cycles, scheduledEventId := b.scheduler.nextId }
      ⟨b.scheduler.nextId + 1, [(b.timer r).matchEvent r b.clock b.scheduler.nextId]⟩ := by
    simp only [TimerHAL.start, TimerHAL.onDriver, hr,
      start_of_noEvent h.timer.scheduler h.timer.clock h.noEvent hlt, h.noEvents]
    rfl
  rw [hstart]
  refine ⟨h.setTimer (h.timer.of_eq ⟨rfl, rfl⟩ rfl rfl rfl rfl), ?_, ?_, ?_, ?_, ?_, ?_, hpos,
    ?_⟩ <;> simp only [Board.setTimer, Function.update_self]
  · exact h.compare
  · exact Timer.running_enabled
  · exact h.counter
  · exact h.hasMatch
  · simp
  · simp [Timer.matchEvent, h.compare, h.counter]

/-! ### One step of the hardware -/

/-- The timers tick. -/
theorem Counting.tickTimers (h : Counting b r c k i) :
    ∃ b', b.tickTimers = (b', none) ∧ BlinkBus b' r ∧ b'.timer r = (b.timer r).ticked b.clock ∧
      b'.scheduler = b.scheduler ∧ b'.clock = b.clock.tick 1 := by
  obtain ⟨b', hticks, hsame, htimer⟩ :=
    Board.tickEach_spec (b := { b with clock := b.clock.tick 1 }) (r := r) h.timers h.lines
  rw [if_pos h.attached, Timer.tick_of_attached h.timer.scheduler h.timer.clock fun _ => h.inStep]
    at htimer
  have hattached : Attached (b'.timer r) := by
    rw [htimer]
    refine h.timer.of_eq ⟨rfl, rfl⟩ rfl rfl ?_ rfl
    rw [Timer.ticked, if_pos h.running]
    rfl
  refine ⟨b', hticks, ⟨hsame.timers ▸ h.timers, hsame.timers ▸ h.attached, hattached, ?_⟩, htimer,
    hsame.scheduler, hsame.clock⟩
  intro u hu
  rw [hsame.line u]
  exact h.lines u (hsame.timers ▸ hu)

omit [DecidableEq T] in
theorem Counting.next_cycles {b' : Board T H} (h : Counting b r c k i)
    (hclock : b'.clock = b.clock.tick 1) : b'.clock.cycles = k + .ofNat (i + 1) := by
  rw [hclock, SimulationClock.tick, h.cycles, UInt64.add_assoc, UInt64.ofNat_add]
  rfl

/-- The step in which the event is not ready. -/
theorem Counting.step (h : Counting b r c k i) (hnot : ¬ k + c.toUInt64 ≤ k + .ofNat (i + 1))
    (hbelow : i + 1 < c.toNat) :
    let stepped := Cpu.CPU.step (⟨.on, 0, b⟩ : Cpu.CPU T H)
    stepped.2.1 = none ∧ Counting stepped.1.bus r c k (i + 1) := by
  obtain ⟨b', hticked, hbus, htimer, hsched, hclock⟩ := h.tickTimers
  have hcycles := h.next_cycles hclock
  have hexecuted : b'.executeReadyEvents b'.clock.cycles = (b', none) := by
    refine Board.executeReadyEvents_of_not_ready ?_
    intro ev hev
    rw [hsched, h.events, List.mem_singleton] at hev
    rw [hev, hcycles]
    exact hnot
  intro stepped
  have hstepped : stepped = _ := Cpu.CPU.step_eq rfl hticked hexecuted
  rw [hstepped]
  refine ⟨rfl, ⟨hbus.timers, hbus.attached, hbus.timer, hbus.lines⟩, ?_, ?_, ?_, ?_, ?_, hcycles,
    hbelow, ?_⟩ <;> dsimp only <;> rw [htimer]
  · exact h.compare
  · exact h.running
  · have hcount : (b.timer r).countRegister.read = .ofNat i := h.counter
    simp [Timer.ticked, Timer.counter, h.running, hcount]
  · exact h.hasMatch
  · rw [hclock]
    rfl
  · exact hsched ▸ h.events

/-- The step in which the event is ready. -/
theorem Counting.step_match (h : Counting b r c k i)
    (hready : k + c.toUInt64 ≤ k + .ofNat (i + 1)) :
    let stepped := Cpu.CPU.step (⟨.on, 0, b⟩ : Cpu.CPU T H)
    stepped.2.1 = none ∧ Matched stepped.1.bus r c ∧
      stepped.1.bus.clock.cycles = k + .ofNat (i + 1) := by
  obtain ⟨b', hticked, hbus, htimer, hsched, hclock⟩ := h.tickTimers
  have hcycles := h.next_cycles hclock
  let t := b'.timer r
  have ht : t = t.eventDriven t.scheduledEventId t.interruptId := by
    simp [Timer.eventDriven, ← hbus.timer.scheduler, t]
  have hrun : t.running = true := (congrArg Timer.running htimer).trans h.running
  have hevents : b'.scheduler.events = _ := (congrArg EventScheduler.events hsched).trans h.events
  obtain ⟨ic, hexecuted⟩ := Board.executeReadyEvents_match (b := b') (r := r) (t := t)
    (c := b'.clock.cycles) hevents (hcycles ▸ hready) rfl ht hrun (ht ▸ hbus.timer.line)
  intro stepped
  have hstepped : stepped = _ := Cpu.CPU.step_eq rfl hticked hexecuted
  rw [hstepped]
  have hparked : BlinkBus (b'.setTimer r (t.matched.disabled.eventDriven 0 t.interruptId)
      { b'.scheduler with events := [] }) r :=
    hbus.setTimer (hbus.timer.of_eq ⟨hbus.timer.scheduler.symm, rfl⟩ rfl rfl rfl rfl)
  refine ⟨rfl, ⟨⟨hparked.timers, hparked.attached, hparked.timer, hparked.lines⟩, ?_, ?_, ?_, rfl⟩,
    hcycles⟩ <;> simp only [Function.update_self]
  · exact (congrArg Timer.compare htimer).trans h.compare
  · simp [Timer.hasMatch, Timer.eventDriven, Timer.disabled, Timer.matched, statusMatchBit]
  · rfl

/-! ### When the event is ready -/

/-- The cycle of the match in a period that begins in cycle `k` is no wrapped sum, unless the clock
itself wraps in the first step. -/
def NoWrap (c : UInt32) (k : ℕ) : Prop := k + c.toNat < 2 ^ 64 ∨ k + 1 = 2 ^ 64

instance (c : UInt32) (k : ℕ) : Decidable (NoWrap c k) := inferInstanceAs (Decidable (_ ∨ _))

theorem toNat_add_ofNat (k : UInt64) (a : ℕ) : (k + .ofNat a).toNat = (k.toNat + a) % 2 ^ 64 := by
  rw [UInt64.toNat_add, UInt64.toNat_ofNat', Nat.add_mod_mod]

theorem ready_iff (hk : NoWrap c k.toNat) (hi : i < c.toNat) :
    k + c.toUInt64 ≤ k + .ofNat (i + 1) ↔ i + 1 = c.toNat := by
  have hk64 := k.toNat_lt
  have hc := c.toNat_lt
  rw [UInt64.le_iff_toNat_le, UInt64.toNat_add, UInt64.toNat_add, UInt32.toNat_toUInt64,
    UInt64.toNat_ofNat']
  rcases hk with hk | hk <;> omega

/-- A match whose cycle is a wrapped sum is ready in the first step. -/
theorem ready_of_wrap (hk : ¬ NoWrap c k.toNat) :
    k + c.toUInt64 ≤ k + .ofNat 1 ∧ 1 < c.toNat := by
  have hk64 := k.toNat_lt
  have hc := c.toNat_lt
  obtain ⟨hwrap, hlast⟩ := not_or.1 hk
  rw [UInt64.le_iff_toNat_le, UInt64.toNat_add, UInt64.toNat_add, UInt32.toNat_toUInt64,
    UInt64.toNat_ofNat']
  omega

end System

namespace Firmware

open EFS.Drivers EFS.Hal EFS.System

variable {T H : Type} [DecidableEq T] {r : T} {pin : UInt8} {c : UInt32} {k : UInt64} {i n m : ℕ}

/-! ### Calls of the firmware -/

/-- The firmware has toggled its pin `n` times, and `i` steps of a period of `c` steps that began in
cycle `k` have passed. -/
structure Blinking (w : BlinkWorld T H) (r : T) (pin : UInt8) (c : UInt32) (k : UInt64) (i n : ℕ) :
    Prop where
  pin_eq : w.firmware.pin = pin
  compareValue : w.firmware.compareValue = c
  initialized : w.firmware.initialized = true
  isShutdown : w.firmware.isShutdown = false
  toggleCount : w.firmware.toggleCount = .ofNat n
  timer : w.timerHAL.timer = some r
  gpio : ∃ g, w.gpioHAL.gpio = some g ∧ g.Driven pin (n % 2 = 1)
  board : Counting w.board r c k i

/-- The world in which the firmware is started. -/
structure BlinkReady (w : BlinkWorld T H) (r : T) (pin : UInt8) (c : UInt32) : Prop where
  pin_eq : w.firmware.pin = pin
  compareValue : w.firmware.compareValue = c
  validPin : pin.toNat < 32
  positive : c ≠ 0
  gpio : w.gpioHAL.gpio.isSome
  timer : w.timerHAL.timer = some r
  bus : BlinkBus w.board r
  /-- The scheduler has no event, or only that of the timer. -/
  noOtherEvent : Timer.Owns (w.board.timer r).scheduledEventId w.board.scheduler

variable {w : BlinkWorld T H}

theorem BlinkReady.restart (h : BlinkReady w r pin c) :
    Counting (w.timerHAL.start (w.timerHAL.setCompare
      (w.timerHAL.reset (w.timerHAL.stop w.board)) c)) r c w.board.clock.cycles 0 := by
  obtain ⟨hstopped, hid, hnone, hclock⟩ := h.bus.stop h.timer h.noOtherEvent
  obtain ⟨hparked, hclock'⟩ := hstopped.reset h.timer (.inl hnone)
  obtain ⟨hset, hclock''⟩ := hparked.setCompare h.timer c
  have hstarted := hset.start h.timer h.positive
  rwa [hclock'', hclock', hclock] at hstarted

theorem BlinkReady.initialise (h : BlinkReady w r pin c) :
    w.initialise.2 = none ∧ Blinking w.initialise.1 r pin c w.board.clock.cycles 0 0 := by
  obtain ⟨g, hg⟩ := Option.isSome_iff_exists.1 h.gpio
  obtain ⟨g₁, hconfigure, hout⟩ := GPIO.configurePin_output (g := g) h.validPin
  obtain ⟨g₂, hwrite, hdriven⟩ := GPIO.writePin_driven h.validPin hout false
  have hconfigured : w.gpioHAL.configureOutput pin = .ok ⟨some g₁⟩ := by
    simp only [GPIOHAL.configureOutput, GPIOHAL.onDriver, hg, hconfigure]
    rfl
  have hwritten : (⟨some g₁⟩ : GPIOHAL).write pin false = .ok ⟨some g₂⟩ := by
    simp only [GPIOHAL.write, GPIOHAL.onDriver, hwrite]
    rfl
  simp only [BlinkWorld.initialise, h.pin_eq, h.compareValue, hconfigured, hwritten]
  exact ⟨trivial, rfl, rfl, rfl, rfl, rfl, h.timer, ⟨g₂, rfl, hdriven⟩, h.restart⟩

theorem BlinkWorld.update_match {gpioHAL : GPIOHAL} (hinit : w.firmware.initialized = true)
    (hshutdown : w.firmware.isShutdown = false) (hmatch : w.timerHAL.hasMatch w.board = true)
    (htoggle : w.gpioHAL.toggle w.firmware.pin = .ok gpioHAL) :
    w.update = ({ w with
      gpioHAL
      firmware := { w.firmware with toggleCount := w.firmware.toggleCount + 1 }
      board := w.timerHAL.start (w.timerHAL.reset w.board) }, none) := by
  have hnot : ¬ ((!w.firmware.initialized || w.firmware.isShutdown) = true) := by
    simp [hinit, hshutdown]
  rw [BlinkWorld.update, if_neg hnot, if_pos (.inl hmatch)]
  simp only [htoggle]

theorem Blinking.update (h : Blinking w r pin c k i n) : w.update = (w, none) := by
  have hcounter : ¬ c ≤ (w.board.timer r).counter := by
    have hc := c.toNat_lt
    have hbelow := h.board.below
    rw [h.board.counter, UInt32.not_le, UInt32.lt_iff_toNat_lt, UInt32.toNat_ofNat']
    omega
  simp [BlinkWorld.update, h.initialized, h.isShutdown, TimerHAL.hasMatch, TimerHAL.counter,
    h.timer, h.compareValue, h.board.hasMatch, hcounter]

theorem Blinking.step (h : Blinking w r pin c k i n)
    (hnot : ¬ k + c.toUInt64 ≤ k + .ofNat (i + 1)) (hbelow : i + 1 < c.toNat) :
    let ticked := (blinkWorld T H).tick w
    ticked.2 = none ∧ Blinking ticked.1.update.1 r pin c k (i + 1) n := by
  obtain ⟨hok, hboard⟩ := h.board.step hnot hbelow
  intro ticked
  have hticked : Blinking ticked.1 r pin c k (i + 1) n := { h with board := hboard }
  rw [hticked.update]
  exact ⟨hok, hticked⟩

/-- The timer has matched: the pin is toggled and the next period begins. -/
theorem Blinking.step_match (h : Blinking w r pin c k i n)
    (hready : k + c.toUInt64 ≤ k + .ofNat (i + 1)) :
    let ticked := (blinkWorld T H).tick w
    ticked.2 = none ∧ Blinking ticked.1.update.1 r pin c (k + .ofNat (i + 1)) 0 (n + 1) := by
  obtain ⟨hok, hmatched, hclock⟩ := h.board.step_match hready
  obtain ⟨g, hg, hdriven⟩ := h.gpio
  obtain ⟨g', htoggle, hdriven'⟩ := hdriven.togglePin
  have htoggled : w.gpioHAL.toggle pin = .ok ⟨some g'⟩ := by
    simp only [GPIOHAL.toggle, GPIOHAL.onDriver, hg, htoggle]
    rfl
  -- the firmware resets the timer, which keeps its compare value, and starts it again
  obtain ⟨hparked, hclock'⟩ := hmatched.toBlinkBus.reset h.timer (.inl hmatched.noEvents)
  rw [hmatched.compare] at hparked
  have hpositive : c ≠ 0 := by
    rintro rfl
    exact absurd h.board.below (Nat.not_lt_zero i)
  have hstarted := hparked.start h.timer hpositive
  rw [hclock', hclock] at hstarted
  intro ticked
  have hmatch : w.timerHAL.hasMatch ticked.1.board = true := by
    simp only [TimerHAL.hasMatch, h.timer]
    exact hmatched.hasMatch
  have htoggled : ticked.1.gpioHAL.toggle ticked.1.firmware.pin = .ok ⟨some g'⟩ :=
    (congrArg w.gpioHAL.toggle h.pin_eq).trans htoggled
  rw [BlinkWorld.update_match (w := ticked.1) h.initialized h.isShutdown hmatch htoggled]
  refine ⟨hok, h.pin_eq, h.compareValue, h.initialized, h.isShutdown, ?_, h.timer, ⟨g', rfl, ?_⟩,
    hstarted⟩
  · show w.firmware.toggleCount + 1 = _
    rw [h.toggleCount, UInt64.ofNat_add]
    rfl
  · have hodd : (!decide (n % 2 = 1)) = decide ((n + 1) % 2 = 1) := by
      rw [← decide_not, decide_eq_decide]
      omega
    exact hodd ▸ hdriven'

/-! ### The firmware on a CPU -/

/-- A CPU that is on and is not started, with the firmware loaded. -/
structure BlinkStart (cpu : CPU Unit (BlinkWorld T H)) (r : T) (pin : UInt8) (c : UInt32) :
    Prop where
  power : cpu.power = .on
  stopped : cpu.running = false
  active : cpu.firmwareManager.activeFirmware = some ()
  world : BlinkReady cpu.world r pin c

/-- A CPU that is on and is started, with the firmware loaded. -/
structure Live (cpu : CPU Unit (BlinkWorld T H)) : Prop where
  power : cpu.power = .on
  running : cpu.running = true
  active : cpu.firmwareManager.activeFirmware = some ()

/-- The CPU after `start()` and `n` calls of `step()`. -/
def blinkAfter (cpu : CPU Unit (BlinkWorld T H)) (n : ℕ) : CPU Unit (BlinkWorld T H) :=
  (fun cpu => (cpu.step (blinkWorld T H)).1)^[n] (cpu.start (blinkWorld T H))

/-- After `n` steps the pin has been toggled `n / c` times, and is high iff that number is odd. -/
def BlinkLaw (w : BlinkWorld T H) (pin : UInt8) (c : UInt32) (n : ℕ) : Prop :=
  w.firmware.toggleCount.toNat = n / c.toNat ∧
    w.gpioHAL.read pin = .ok (decide (n / c.toNat % 2 = 1))

variable {cpu : CPU Unit (BlinkWorld T H)}

theorem Live.step (h : Live cpu) (hok : ((blinkWorld T H).tick cpu.world).2 = none) :
    let stepped := (cpu.step (blinkWorld T H)).1
    Live stepped ∧ stepped.world = ((blinkWorld T H).tick cpu.world).1.update.1 := by
  intro stepped
  rcases htick : (blinkWorld T H).tick cpu.world with ⟨world, e⟩
  obtain rfl : e = none := by simpa [htick] using hok
  have hstepped : stepped = { cpu with
      cycleCount := cpu.cycleCount + 1
      world := world.update.1
      calls := cpu.calls ++ [((), .update)] } := by
    simp only [stepped, CPU.step, if_neg (not_not.2 h.power), htick, if_pos h.running,
      FirmwareManager.update, FirmwareManager.callActive_of_some h.active]
    rfl
  rw [hstepped]
  exact ⟨⟨h.power, h.running, h.active⟩, rfl⟩

theorem BlinkStart.start (h : BlinkStart cpu r pin c) :
    Live (blinkAfter cpu 0) ∧
      Blinking (blinkAfter cpu 0).world r pin c cpu.world.board.clock.cycles 0 0 := by
  have hstart : blinkAfter cpu 0 = { cpu with
      running := true
      world := cpu.world.initialise.1
      calls := cpu.calls ++ [((), .initialise)] } := by
    have hnot : ¬ cpu.running = true := by simp [h.stopped]
    rw [blinkAfter, Function.iterate_zero_apply, CPU.start, if_neg hnot,
      FirmwareManager.initialise, FirmwareManager.callActive_of_some h.active]
    rfl
  rw [hstart]
  exact ⟨⟨h.power, rfl, h.active⟩, h.world.initialise.2⟩

theorem blinkAfter_succ (cpu : CPU Unit (BlinkWorld T H)) (n : ℕ) :
    blinkAfter cpu (n + 1) = ((blinkAfter cpu n).step (blinkWorld T H)).1 :=
  Function.iterate_succ_apply' _ _ _

theorem blinkAfter_match (hlive : Live (blinkAfter cpu n))
    (h : Blinking (blinkAfter cpu n).world r pin c k i m)
    (hready : k + c.toUInt64 ≤ k + .ofNat (i + 1)) :
    Live (blinkAfter cpu (n + 1)) ∧
      Blinking (blinkAfter cpu (n + 1)).world r pin c (k + .ofNat (i + 1)) 0 (m + 1) := by
  obtain ⟨hok, hnext⟩ := h.step_match hready
  obtain ⟨hlive', hworld⟩ := hlive.step hok
  rw [blinkAfter_succ]
  exact ⟨hlive', hworld ▸ hnext⟩

/-- While the match of no period is a wrapped sum, every period lasts `c` steps. -/
theorem BlinkStart.blinking (h : BlinkStart cpu r pin c)
    (hwrap : ∀ j, j * c.toNat < n →
      NoWrap c ((cpu.world.board.clock.cycles.toNat + j * c.toNat) % 2 ^ 64)) :
    Live (blinkAfter cpu n) ∧
      Blinking (blinkAfter cpu n).world r pin c
        (cpu.world.board.clock.cycles + .ofNat (n / c.toNat * c.toNat)) (n % c.toNat)
        (n / c.toNat) := by
  induction n with
  | zero => simpa using h.start
  | succ n ih =>
    obtain ⟨hlive, hblinking⟩ := ih fun j hj => hwrap j (by omega)
    have hpos : 0 < c.toNat := by
      have hbelow := hblinking.board.below
      omega
    have hdiv := Nat.div_add_mod n c.toNat
    have hnow : NoWrap c
        (cpu.world.board.clock.cycles + .ofNat (n / c.toNat * c.toNat) : UInt64).toNat := by
      rw [toNat_add_ofNat]
      exact hwrap _ (Nat.lt_succ_of_le (Nat.div_mul_le_self n c.toNat))
    have hready := ready_iff hnow hblinking.board.below
    -- the period ends with this step, or it goes on
    by_cases hlast : n % c.toNat + 1 = c.toNat
    · obtain ⟨hq, hr⟩ : (n + 1) / c.toNat = n / c.toNat + 1 ∧ (n + 1) % c.toNat = 0 :=
        (Nat.div_mod_unique hpos).2 ⟨by rw [Nat.mul_add]; omega, hpos⟩
      have hnext := blinkAfter_match hlive hblinking (hready.2 hlast)
      rw [UInt64.add_assoc, ← UInt64.ofNat_add, hlast] at hnext
      rw [hq, hr, Nat.succ_mul]
      exact hnext
    · have hbelow : n % c.toNat + 1 < c.toNat := by
        have hlt := Nat.mod_lt n hpos
        omega
      obtain ⟨hq, hr⟩ : (n + 1) / c.toNat = n / c.toNat ∧
          (n + 1) % c.toNat = n % c.toNat + 1 :=
        (Nat.div_mod_unique hpos).2 ⟨by omega, hbelow⟩
      obtain ⟨hok, hnext⟩ := hblinking.step (mt hready.1 hlast) hbelow
      obtain ⟨hlive', hworld⟩ := hlive.step hok
      rw [blinkAfter_succ, hq, hr]
      exact ⟨hlive', hworld ▸ hnext⟩

omit [DecidableEq T] in
theorem Blinking.law (h : Blinking w r pin c k i (n / c.toNat)) (hn : n / c.toNat < 2 ^ 64) :
    BlinkLaw w pin c n := by
  obtain ⟨g, hg, hdriven⟩ := h.gpio
  refine ⟨?_, ?_⟩
  · rw [h.toggleCount, UInt64.toNat_ofNat', Nat.mod_eq_of_lt hn]
  · simp only [GPIOHAL.read, hg, hdriven.state]
    by_cases hodd : n / c.toNat % 2 = 1 <;> simp [hodd, Except.map]

/-- The law holds up to step `n` iff no period that begins before has a match whose cycle is a
wrapped sum, and the count of the toggles does not wrap. -/
theorem blinkLaw_iff (h : BlinkStart cpu r pin c) (n : ℕ) :
    (∀ m ≤ n, BlinkLaw (blinkAfter cpu m).world pin c m) ↔
      (∀ j, j * c.toNat < n →
        NoWrap c ((cpu.world.board.clock.cycles.toNat + j * c.toNat) % 2 ^ 64)) ∧
      n / c.toNat < 2 ^ 64 := by
  constructor
  · intro hlaw
    refine ⟨?_, (hlaw n le_rfl).1 ▸ UInt64.toNat_lt _⟩
    intro j
    induction j using Nat.strong_induction_on with
    | _ j ih =>
      intro hj
      by_contra hwrap
      have hstart : j * c.toNat + 1 ≤ n := hj
      obtain ⟨hlive, hblinking⟩ := h.blinking (n := j * c.toNat) fun l hl =>
        ih l (Nat.lt_of_mul_lt_mul_right hl) (hl.trans hj)
      have hpos : 0 < c.toNat := Nat.zero_lt_of_lt hblinking.board.below
      rw [Nat.mul_div_cancel j hpos, Nat.mul_mod_left] at hblinking
      rw [← toNat_add_ofNat] at hwrap
      -- the match comes in the first step, so the count is ahead of the law
      obtain ⟨hready, hone⟩ := ready_of_wrap hwrap
      have hnext := (blinkAfter_match hlive hblinking hready).2
      have hcount := (hlaw _ hstart).1
      have hdiv : (j * c.toNat + 1) / c.toNat = j := by
        rw [Nat.mul_comm, Nat.mul_add_div hpos, Nat.div_eq_of_lt hone, Nat.add_zero]
      rw [hnext.toggleCount, hdiv, UInt64.toNat_ofNat'] at hcount
      omega
  · rintro ⟨hwrap, hcount⟩ m hm
    have hblinking := h.blinking (n := m) fun j hj => hwrap j (hj.trans_le hm)
    exact hblinking.2.law ((Nat.div_le_div_right hm).trans_lt hcount)

/-! ### A CPU with the firmware -/

/-- A new CPU that is on, with the firmware loaded and its timer attached in cycle `k`. -/
def blinkCpu (pin : UInt8) (c : UInt32) (k : UInt64) : CPU Unit (BlinkWorld Unit Unit) :=
  (CPU.new .on
    { board := Board.attachTimer ⟨⟨k⟩, .init, .init, [], fun _ => .new, []⟩ ()
      gpioHAL := ⟨some (.new 0x40000000)⟩
      timerHAL := ⟨some ()⟩
      firmware := .new pin c }).registerFirmware "TimerBlink" (some ())

theorem blinkCpu_board : (blinkCpu pin c k).world.board =
    ⟨⟨k⟩, .init, .init, [()],
      fun _ => { Timer.new with clock := true, lastClockCycles := k, scheduler := true }, []⟩ := by
  let b : Board Unit Unit := ⟨⟨k⟩, .init, .init, [], fun _ => .new, []⟩
  have hrun : Timer.new.running = false := by decide
  refine (attachTimer_of_stopped (b := b) (r := ()) List.not_mem_nil hrun rfl).trans ?_
  exact congrArg (fun timer => (⟨⟨k⟩, .init, .init, [()], timer, []⟩ : Board Unit Unit))
    (funext fun _ => rfl)

theorem blinkCpu_start (hpin : pin.toNat < 32) (hc : c ≠ 0) :
    BlinkStart (blinkCpu pin c k) () pin c where
  power := rfl
  stopped := rfl
  active := rfl
  world := by
    refine ⟨rfl, if_neg hc, hpin, hc, rfl, rfl, ?_, ?_⟩
    · rw [blinkCpu_board]
      have hline : (Timer.new.line) = none := rfl
      exact ⟨List.nodup_singleton (), List.mem_singleton_self (),
        ⟨rfl, rfl, hline ▸ by simp, UInt32.zero_and, rfl, UInt32.zero_and⟩,
        fun _ _ => hline ▸ by simp⟩
    · rw [blinkCpu_board]
      exact .inl rfl

/-- In the first 100 steps nothing wraps. -/
theorem blinkLaw_blinkCpu : BlinkLaw (blinkAfter (blinkCpu 3 2 0) 100).world 3 2 100 := by
  have hstart : BlinkStart (blinkCpu 3 2 0) () 3 2 := blinkCpu_start (by decide) (by decide)
  refine (blinkLaw_iff hstart 100).2 ⟨fun j hj => .inl ?_, by decide⟩ 100 le_rfl
  have hj : j * 2 < 100 := hj
  show ((blinkCpu 3 2 0).world.board.clock.cycles.toNat + j * 2) % 2 ^ 64 + 2 < 2 ^ 64
  rw [blinkCpu_board]
  show (0 + j * 2) % 2 ^ 64 + 2 < 2 ^ 64
  omega

/-- In a period of 5 steps that begins three cycles before the clock wraps, the firmware toggles its
pin in the first step. -/
theorem not_blinkLaw_wrapped :
    let cpu := blinkCpu 3 5 0xFFFFFFFFFFFFFFFD
    BlinkStart cpu () 3 5 ∧ ¬ BlinkLaw (blinkAfter cpu 1).world 3 5 1 := by
  intro cpu
  have hstart : BlinkStart cpu () 3 5 := blinkCpu_start (by decide) (by decide)
  obtain ⟨hlive, hblinking⟩ := hstart.start
  rw [blinkCpu_board] at hblinking
  have hwrap : ¬ NoWrap 5 (0xFFFFFFFFFFFFFFFD : UInt64).toNat := by decide
  have hnext := (blinkAfter_match hlive hblinking (ready_of_wrap hwrap).1).2
  refine ⟨hstart, ?_⟩
  intro hlaw
  have hcount := hlaw.1
  rw [hnext.toggleCount] at hcount
  exact absurd hcount (by decide)

end Firmware

end EFS
