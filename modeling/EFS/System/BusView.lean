import EFS.Drivers.EventDriven
import EFS.Drivers.Operations
import Mathlib.Data.Multiset.Filter
import Mathlib.Data.Multiset.MapFold

/-!
# The timers of a bus, without an order

A `BusView` is what is left of a bus when the order in which its timers were attached and the ids of
their events are forgotten: both are multisets, and a pending event is a timer and a cycle.  A timer
acts on it by its own registers and the clock (`act`).  Such actions of different timers commute, so
that ticking the timers and executing the events are folds over multisets.

## Main definitions

* `Timer.Outcome` : what a call makes of a timer, of its event and of its line.
* `BusView.act` : a timer acts.
* `BusView.attachTimer`, `BusView.step` : the operations of the bus.
-/

namespace EFS

namespace Kernel.InterruptController

variable {H : Type} (ic : InterruptController H)

/-- The controller after a line was triggered, if any. -/
def raise : Option UInt8 → InterruptController H
  | none => ic
  | some id => ic.orUnchanged (ic.trigger id)

/-- The bit that `raise` sets in the pending register. -/
def raisedBit : Option UInt8 → UInt32
  | none => 0
  | some id =>
    match validateInterruptId id with
    | .ok line => if ic.registered line then bit line else 0
    | .error _ => 0

theorem raise_eq (o : Option UInt8) : ic.raise o = { ic with
    pendingRegister := ic.pendingRegister.write (ic.pendingRegister.read ||| ic.raisedBit o) } := by
  have hkept : ic = { ic with
      pendingRegister := ic.pendingRegister.write (ic.pendingRegister.read ||| 0) } := by
    rw [UInt32.or_zero]
    rfl
  cases o with
  | none => exact hkept
  | some id =>
    simp only [raise, raisedBit, trigger]
    cases validateInterruptId id with
    | error e => exact hkept
    | ok line =>
      by_cases hreg : ic.registered line = true
      · simp [orUnchanged, bind, Except.bind, pure, Except.pure, hreg]
      · simp only [orUnchanged, bind, Except.bind, pure, Except.pure, hreg]
        exact hkept

theorem raise_comm (o o' : Option UInt8) : (ic.raise o).raise o' = (ic.raise o').raise o := by
  have hbit (p : Mmio.Register) (o : Option UInt8) :
      { ic with pendingRegister := p }.raisedBit o = ic.raisedBit o := rfl
  simp only [raise_eq, hbit, Mmio.Register.read_write, Mmio.Register.write_write]
  rw [UInt32.or_assoc, UInt32.or_assoc, UInt32.or_comm (ic.raisedBit o)]

end Kernel.InterruptController

namespace Drivers

open EFS.System

namespace Timer

/-- The timer with its event forgotten. -/
def withoutEvent (t : Timer) : Timer := { t with scheduledEventId := 0 }

/-- The cycle for which `updateScheduledEvent` schedules an event, if it does. -/
def matchCycle (t : Timer) (clock : SimulationClock) : Option UInt64 :=
  if t.scheduler ∧ t.Waiting then
    some ((if t.clock then clock.cycles else 0) + (t.compare - t.counter).toUInt64)
  else none

/-- What a call does to the pending event of a timer. -/
inductive EventChange where
  | keep
  | replace (cycle : Option UInt64)

/-- What a call makes of a timer, of its event, and the line that it triggers. -/
structure Outcome where
  timer : Timer
  event : EventChange
  line : Option UInt8

variable (clock : SimulationClock) (t : Timer)

/-- The timer keeps its event. -/
def kept : Outcome := ⟨t, .keep, none⟩

/-- The timer gives up its event. -/
def cancelled : Outcome := ⟨t, .replace none, none⟩

/-- The timer gets the event of its next match. -/
def rescheduled : Outcome := ⟨t, .replace (t.matchCycle clock), none⟩

/-- The public functions of a timer that change it. -/
inductive ApiCall where
  | op (o : Op)
  | tick
  | attachClock
  | detachClock
  | attachScheduler
  | detachScheduler

/-- What a tick does to a timer. -/
def tickOutcome : Outcome :=
  if ¬ t.running then (t.syncClock clock).kept
  else
    let count := t.counter + t.stepAmount clock
    if ¬ t.scheduler ∧ t.compare ≤ count then
      ⟨(t.counted clock count).matched.disabled, .keep, t.line⟩
    else (t.counted clock count).kept

/-- What the event of a timer does to it. -/
def matchOutcome : Outcome :=
  if t.running then ⟨t.matched.disabled, .replace none, t.line⟩ else t.kept

/-- The bus attaches the timer. -/
def attachOutcome : Outcome := { t.attachClock clock with scheduler := true }.rescheduled clock

/-- What a call does to a timer. -/
def outcome : ApiCall → Outcome
  | .op .start => (t.enabled.syncClock clock).rescheduled clock
  | .op .stop => t.disabled.cancelled
  | .op .reset => (t.disabled.cleared.syncClock clock).cancelled
  | .op (.setCompare value) =>
    { t with compareRegister := t.compareRegister.write value }.rescheduled clock
  | .op .clearMatch => t.clearMatch.kept
  | .op (.setAutoReset enable) => (t.setAutoReset enable).kept
  | .op (.setInterruptEnabled enable) => (t.setInterruptEnabled enable).kept
  | .op (.attachInterruptController id) => (t.attachInterruptController id).kept
  | .op .detachInterruptController => t.detachInterruptController.kept
  | .tick => t.tickOutcome clock
  | .attachClock => (t.attachClock clock).kept
  | .detachClock => t.detachClock.kept
  | .attachScheduler => { t with scheduler := true }.rescheduled clock
  | .detachScheduler => { t with scheduler := false }.cancelled

end Timer

end Drivers

namespace System

open EFS.Drivers EFS.Kernel

/-- A bus as seen from outside: the order of the timers and the ids of the events are gone. -/
structure BusView (T H : Type) where
  clock : SimulationClock
  interrupts : InterruptController H
  timers : Multiset T
  /-- The timers, without their events. -/
  timer : T → Timer
  /-- The pending events. -/
  events : Multiset (T × UInt64)

namespace BusView

variable {T H : Type} [DecidableEq T]

/-- The events of timers other than `r`. -/
def others (r : T) (events : Multiset (T × UInt64)) : Multiset (T × UInt64) :=
  events.filter fun p => p.1 ≠ r

theorem others_cons {r u : T} (hne : u ≠ r) (cycle : UInt64) (events : Multiset (T × UInt64)) :
    others r ((u, cycle) ::ₘ events) = (u, cycle) ::ₘ others r events :=
  Multiset.filter_cons_of_pos events hne

theorem others_comm (r u : T) (events : Multiset (T × UInt64)) :
    others r (others u events) = others u (others r events) :=
  Multiset.filter_comm (fun p : T × UInt64 => p.1 ≠ r) (fun p => p.1 ≠ u) events

/-- The pending events after the one of timer `r` has changed. -/
def change (events : Multiset (T × UInt64)) (r : T) : Timer.EventChange → Multiset (T × UInt64)
  | .keep => events
  | .replace none => others r events
  | .replace (some cycle) => (r, cycle) ::ₘ others r events

theorem change_comm (events : Multiset (T × UInt64)) {r u : T} (hne : r ≠ u)
    (c d : Timer.EventChange) :
    change (change events r c) u d = change (change events u d) r c := by
  rcases c with _ | _ | cycle <;> rcases d with _ | _ | cycle'
  · rfl
  · rfl
  · rfl
  · rfl
  · exact others_comm u r events
  · simp only [change]
    rw [others_cons hne.symm, others_comm]
  · rfl
  · simp only [change]
    rw [others_cons hne, others_comm]
  · simp only [change]
    rw [others_cons hne, others_cons hne.symm, others_comm, Multiset.cons_swap]

variable (v : BusView T H)

/-- Timer `r` acts by its own registers and the clock. -/
def act (f : SimulationClock → Timer → Timer.Outcome) (v : BusView T H) (r : T) : BusView T H :=
  let o := f v.clock (v.timer r)
  { v with
    timer := Function.update v.timer r o.timer
    events := change v.events r o.event
    interrupts := v.interrupts.raise o.line }

theorem act_comm (f g : SimulationClock → Timer → Timer.Outcome) {r u : T} (hne : r ≠ u) :
    (v.act f r).act g u = (v.act g u).act f r := by
  simp only [act, Function.update_of_ne hne, Function.update_of_ne hne.symm,
    change_comm _ hne, v.interrupts.raise_comm (f v.clock (v.timer r)).line,
    Function.update_comm hne]

instance (f : SimulationClock → Timer → Timer.Outcome) :
    RightCommutative (act (T := T) (H := H) f) where
  right_comm v r u := by
    by_cases hru : r = u
    · rw [hru]
    · exact v.act_comm f f hru

/-- `attachTimer`. -/
def attachTimer (v : BusView T H) (r : T) : BusView T H :=
  if r ∈ v.timers then v
  else { v.act Timer.attachOutcome r with timers := r ::ₘ v.timers }

variable {v} in
theorem attachTimer_attachTimer {r u : T} (hne : u ≠ r) (hr : r ∉ v.timers) (hu : u ∉ v.timers) :
    (v.attachTimer r).attachTimer u =
      { (v.act Timer.attachOutcome r).act Timer.attachOutcome u with
        timers := u ::ₘ r ::ₘ v.timers } := by
  have hnot : u ∉ r ::ₘ v.timers := by simp [hu, hne]
  have hattached : v.attachTimer r =
      { v.act Timer.attachOutcome r with timers := r ::ₘ v.timers } := if_neg hr
  rw [hattached]
  exact if_neg hnot

instance : RightCommutative (attachTimer (T := T) (H := H)) where
  right_comm v r u := by
    by_cases hru : r = u
    · rw [hru]
    · by_cases hr : r ∈ v.timers <;> by_cases hu : u ∈ v.timers
      · simp [attachTimer, hr, hu]
      · simp [attachTimer, hr, hu]
      · simp [attachTimer, hr, hu]
      · rw [attachTimer_attachTimer (Ne.symm hru) hr hu, attachTimer_attachTimer hru hu hr,
          v.act_comm _ _ hru, Multiset.cons_swap]

/-- The clock ticks once, then every timer. -/
def tickTimers : BusView T H :=
  v.timers.foldl (act Timer.tickOutcome) { v with clock := v.clock.tick 1 }

/-- The events that are ready leave the scheduler before the first match. -/
def executeReadyEvents (currentCycle : UInt64) : BusView T H :=
  ((v.events.filter fun p => p.2 ≤ currentCycle).map Prod.fst).foldl
    (act fun _ => Timer.matchOutcome)
    { v with events := v.events.filter fun p => ¬ p.2 ≤ currentCycle }

/-- The hardware part of `CPU::step()`. -/
def step : BusView T H :=
  let v := v.tickTimers
  let v := v.executeReadyEvents v.clock.cycles
  { v with interrupts := v.interrupts.dispatch.1 }

/-- The interrupt lines of the timers exist. -/
def LinesExist : Prop := ∀ r, ∀ id ∈ (v.timer r).line, id.toNat < 32

end BusView

end System

end EFS
