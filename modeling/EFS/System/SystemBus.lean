import EFS.Drivers.Timer
import EFS.Kernel.InterruptController

/-!
# Timers on the system bus

A `Board` is the set of objects behind a `SystemBus`: its clock and its event scheduler, the
interrupt controller, and the timers, which are told apart by references `Ref`.  The bus ticks the
timers in the order in which they were attached, and the callback of a timer's event is a call of
its `handleCompareMatch`.

An operation that may throw returns the board as the exception leaves it, and the exception.
-/

namespace EFS

namespace System

open EFS.Drivers EFS.Kernel

/-- A system bus with what the timers on it use. -/
structure Board (Ref H : Type) where
  clock : SimulationClock
  scheduler : EventScheduler Ref
  interrupts : InterruptController H
  /-- The timers attached to the bus, in order. -/
  timers : List Ref
  /-- The timer objects. -/
  timer : Ref → Timer
  /-- The timers that have triggered their interrupt lines, the last one first. -/
  triggered : List Ref

namespace Board

variable {Ref H : Type} [DecidableEq Ref] (b : Board Ref H)

/-- Writes a timer and the scheduler behind it. -/
def setTimer (r : Ref) (t : Timer) (sched : EventScheduler Ref) : Board Ref H :=
  { b with timer := Function.update b.timer r t, scheduler := sched }

/-- `attachTimer` : the timer gets the clock and the scheduler of the bus, unless it has them. -/
def attachTimer (r : Ref) : Board Ref H :=
  if r ∈ b.timers then b
  else
    let attached := ((b.timer r).attachClock b.clock).attachScheduler r b.clock b.scheduler
    { b.setTimer r attached.1 attached.2 with timers := b.timers ++ [r] }

/-- `timer->detachScheduler()`. -/
def detachScheduler (r : Ref) : Board Ref H :=
  let detached := (b.timer r).detachScheduler b.scheduler
  b.setTimer r detached.1 detached.2

/-- `detachTimer` : the clock goes before the scheduler. -/
def detachTimer (r : Ref) : Board Ref H :=
  if r ∈ b.timers then
    let detached := (b.timer r).detachClock.detachScheduler b.scheduler
    { b.setTimer r detached.1 detached.2 with timers := b.timers.erase r }
  else b

/-- The last action of a compare match of timer `r` : it triggers its line, if it has one. -/
def trigger (r : Ref) : Option UInt8 → Board Ref H × Option String
  | none => (b, none)
  | some id =>
    match b.interrupts.trigger id with
    | .ok ic => ({ b with interrupts := ic, triggered := r :: b.triggered }, none)
    | .error e => (b, some e)

/-- `timer->tick()`. -/
def tickTimer (r : Ref) : Board Ref H × Option String :=
  let ticked := (b.timer r).tick b.clock b.scheduler
  (b.setTimer r ticked.1 ticked.2.1).trigger r ticked.2.2

/-- The callback of an event of timer `r`. -/
def matchTimer (r : Ref) : Board Ref H × Option String :=
  let matched := (b.timer r).handleCompareMatch b.scheduler
  (b.setTimer r matched.1 matched.2.1).trigger r matched.2.2

/-- The loop of `tickTimers`, left by the first exception. -/
def tickEach : Board Ref H → List Ref → Board Ref H × Option String
  | b, [] => (b, none)
  | b, r :: rs =>
    match b.tickTimer r with
    | (b', none) => tickEach b' rs
    | (b', some e) => (b', some e)

/-- `tickTimers`, for a bus with timers only. -/
def tickTimers : Board Ref H × Option String :=
  { b with clock := b.clock.tick 1 }.tickEach b.timers

/-- The loop of `executeReadyEvents` over a batch of timer events. -/
def runBatch : Board Ref H → List (Event Ref) → Board Ref H × Option String
  | b, [] => (b, none)
  | b, ev :: rest =>
    match ev.callback with
    | none => runBatch b rest
    | some r =>
      match b.matchTimer r with
      | (b', none) => runBatch b' rest
      | (b', some e) => (b', some e)

/-- `scheduler().executeReadyEvents(currentCycle)`. -/
def executeReadyEvents (currentCycle : UInt64) : Board Ref H × Option String :=
  if b.scheduler.events.isEmpty then (b, none)
  else { b with scheduler := (b.scheduler.takeReady currentCycle).2 }.runBatch
    (b.scheduler.takeReady currentCycle).1

/-- The loop of `reset` over the timers. -/
def resetEach : Board Ref H → List Ref → Board Ref H
  | b, [] => b
  | b, r :: rs =>
    let timer := (b.timer r).reset b.clock b.scheduler
    resetEach (b.setTimer r timer.1 timer.2) rs

/-- `reset`, for a bus with timers and an interrupt controller only. -/
def reset : Board Ref H :=
  let b := b.resetEach b.timers
  { b with
    interrupts := b.interrupts.reset
    clock := .reset
    scheduler := b.scheduler.clear }

omit [DecidableEq Ref] in
theorem trigger_of_exists {b : Board Ref H} {r : Ref} {o : Option UInt8}
    (h : ∀ id ∈ o, id.toNat < 32) :
    ∃ ic, b.trigger r o = ({ b with
      interrupts := ic
      triggered := if o.isSome then r :: b.triggered else b.triggered }, none) := by
  cases o with
  | none => exact ⟨b.interrupts, rfl⟩
  | some id =>
    obtain ⟨ic, hic⟩ := b.interrupts.trigger_ok_iff.2 (h id rfl)
    exact ⟨ic, by simp [trigger, hic]⟩

/-- What the ticks of the timers leave as it is. -/
structure SameBus (b b' : Board Ref H) : Prop where
  clock : b'.clock = b.clock
  scheduler : b'.scheduler = b.scheduler
  timers : b'.timers = b.timers
  line : ∀ u, (b'.timer u).line = (b.timer u).line

theorem tickTimer_spec {b : Board Ref H} (u : Ref)
    (hline : ∀ id ∈ (b.timer u).line, id.toNat < 32) :
    ∃ b', b.tickTimer u = (b', none) ∧ SameBus b b' ∧
      b'.timer = Function.update b.timer u ((b.timer u).tick b.clock b.scheduler).1 := by
  obtain ⟨t, o, htick, htline, ho⟩ := Timer.tick_spec (b.timer u) b.clock b.scheduler
  have hexists : ∀ id ∈ o, id.toNat < 32 := by
    rcases ho with rfl | rfl
    · simp
    · exact hline
  obtain ⟨ic, htrigger⟩ := trigger_of_exists (b := b.setTimer u t b.scheduler) (r := u) hexists
  have hticked : b.tickTimer u = (b.setTimer u t b.scheduler).trigger u o := by
    rw [tickTimer, htick]
  refine ⟨_, hticked.trans htrigger, ⟨rfl, rfl, rfl, ?_⟩, ?_⟩
  · intro v
    by_cases hv : v = u
    · subst hv
      simpa [setTimer] using htline
    · simp [setTimer, hv]
  · rw [htick]
    rfl

theorem tickEach_spec {b : Board Ref H} {r : Ref} {us : List Ref} (hnodup : us.Nodup)
    (hlines : ∀ u ∈ us, ∀ id ∈ (b.timer u).line, id.toNat < 32) :
    ∃ b', b.tickEach us = (b', none) ∧ SameBus b b' ∧
      b'.timer r = if r ∈ us then ((b.timer r).tick b.clock b.scheduler).1 else b.timer r := by
  induction us generalizing b with
  | nil => exact ⟨b, rfl, ⟨rfl, rfl, rfl, fun _ => rfl⟩, rfl⟩
  | cons u us ih =>
    obtain ⟨hnot, hus⟩ := List.nodup_cons.1 hnodup
    obtain ⟨b₁, htick, hsame, htimer⟩ := tickTimer_spec u (hlines u List.mem_cons_self)
    obtain ⟨b₂, hticks, hsame', hticked⟩ := ih (b := b₁) hus fun v hv => by
      rw [hsame.line v]
      exact hlines v (List.mem_cons_of_mem u hv)
    refine ⟨b₂, ?_, ⟨hsame'.clock.trans hsame.clock, hsame'.scheduler.trans hsame.scheduler,
      hsame'.timers.trans hsame.timers, fun v => (hsame'.line v).trans (hsame.line v)⟩, ?_⟩
    · rw [tickEach, htick]
      exact hticks
    · rw [hticked, hsame.clock, hsame.scheduler, htimer]
      by_cases hr : r = u
      · subst hr
        simp [hnot]
      · simp [hr]

end Board

end System

end EFS
