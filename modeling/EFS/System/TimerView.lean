import EFS.Cpu.Step
import EFS.Drivers.EventDriven

/-!
# The only timer of a bus

What the events and the registers of the only timer of a bus make of it, without the events
themselves: a `TimerView` is what can be observed, and a step of the CPU acts on it by whether the
match event of the timer is due (`view_step`).
-/

namespace EFS

namespace Drivers

namespace Timer

open EFS.System

variable {Cb : Type} (t : Timer) (self : Cb) (clock : SimulationClock) (sched : EventScheduler Cb)

theorem exists_cancelScheduledEvent :
    ∃ e, (t.cancelScheduledEvent sched).1 = { t with scheduledEventId := e } := by
  unfold cancelScheduledEvent
  split_ifs <;> exact ⟨_, rfl⟩

theorem exists_scheduleMatch :
    ∃ e, (t.scheduleMatch self clock sched).1 = { t with scheduledEventId := e } := by
  unfold scheduleMatch
  split_ifs <;> exact ⟨_, rfl⟩

theorem exists_updateScheduledEvent :
    ∃ e, (t.updateScheduledEvent self clock sched).1 = { t with scheduledEventId := e } := by
  obtain ⟨e, he⟩ := t.exists_cancelScheduledEvent sched
  obtain ⟨e', he'⟩ :=
    (t.cancelScheduledEvent sched).1.exists_scheduleMatch self clock
      (t.cancelScheduledEvent sched).2
  exact ⟨e', by rw [updateScheduledEvent, he', he]⟩

theorem mem_cancelScheduledEvent {ev : Event Cb}
    (h : ev ∈ (t.cancelScheduledEvent sched).2.events) : ev ∈ sched.events := by
  unfold cancelScheduledEvent at h
  split_ifs at h
  · exact sched.mem_of_mem_cancel h
  · exact h

theorem mem_updateScheduledEvent {ev : Event Cb}
    (h : ev ∈ (t.updateScheduledEvent self clock sched).2.events) :
    ev ∈ sched.events ∨ ev.callback = some self := by
  unfold updateScheduledEvent scheduleMatch at h
  split at h
  · exact .inl (t.mem_cancelScheduledEvent sched h)
  · split at h
    · exact .inl (t.mem_cancelScheduledEvent sched h)
    · rcases List.mem_append.1 h with h | h
      · exact .inl (t.mem_cancelScheduledEvent sched h)
      · obtain rfl := List.mem_singleton.1 h
        exact .inr rfl

theorem hasMatch_matched : t.matched.hasMatch = true := by
  simp [hasMatch, matched]
  decide

end Timer

end Drivers

namespace System

open EFS.Drivers EFS.Kernel

/-- What can be observed of a timer and its bus. -/
structure TimerView (T H : Type) where
  clock : SimulationClock
  interrupts : InterruptController H
  triggered : List T
  running : Bool
  counter : UInt32
  compare : UInt32
  hasMatch : Bool
  line : Option UInt8

variable {T H : Type}

namespace TimerView

variable (v : TimerView T H) (r : T)

/-- The clock advances, and the counter of a running timer. -/
def ticked : TimerView T H :=
  { v with
    clock := v.clock.tick 1
    counter := if v.running then v.counter + 1 else v.counter }

/-- The timer triggers its line, if it has one. -/
def trigger : Option UInt8 → TimerView T H × Option String
  | none => (v, none)
  | some id =>
    match v.interrupts.trigger id with
    | .ok ic => ({ v with interrupts := ic, triggered := r :: v.triggered }, none)
    | .error e => (v, some e)

/-- The compare match. -/
def matched : TimerView T H × Option String :=
  { v with running := false, counter := v.compare, hasMatch := true }.trigger r v.line

/-- The view after the dispatch of a pending interrupt. -/
def dispatched : TimerView T H := { v with interrupts := v.interrupts.dispatch.1 }

/-- A running timer matches if its match is due. -/
def executed (due : Bool) : TimerView T H × Option String :=
  if v.running && due then v.matched r else (v, none)

/-- A step in which the match of the timer is due or not. -/
def step (due : Bool) : TimerView T H :=
  match v.ticked.executed r due with
  | (v, none) => v.dispatched
  | (v, some _) => v

variable {v}

theorem step_of_stopped (h : v.running = false) (due due' : Bool) :
    v.step r due = v.step r due' := by
  have hticked : v.ticked.running = false := h
  simp [step, executed, hticked]

theorem running_trigger (o : Option UInt8) : (v.trigger r o).1.running = v.running := by
  unfold trigger
  split
  · rfl
  · split <;> rfl

/-- A running timer stops if its match is due. -/
theorem running_step (h : v.running = true) (due : Bool) : (v.step r due).running = !due := by
  have hticked : v.ticked.running = true := h
  have hexecuted : (v.ticked.executed r due).1.running = !due := by
    cases due with
    | false =>
      rw [executed, Bool.and_false, if_neg Bool.false_ne_true]
      exact hticked
    | true =>
      rw [executed, hticked, if_pos (by decide)]
      exact running_trigger _ _
  rw [step]
  rcases heq : v.ticked.executed r due with ⟨v', _ | e⟩
  · rw [heq] at hexecuted
    exact hexecuted
  · rw [heq] at hexecuted
    exact hexecuted

end TimerView

namespace Board

variable (b : Board T H) (r : T)

/-- The bus as a timer sees it. -/
def view : TimerView T H where
  clock := b.clock
  interrupts := b.interrupts
  triggered := b.triggered
  running := (b.timer r).running
  counter := (b.timer r).counter
  compare := (b.timer r).compare
  hasMatch := (b.timer r).hasMatch
  line := (b.timer r).line

/-- The callback of an event. -/
def isMatchOf [DecidableEq T] (ev : Event T) : Bool := ev.callback = some r

/-- An event of the timer is ready in the next step. -/
def matchDue [DecidableEq T] : Bool :=
  b.scheduler.events.any fun ev => isMatchOf r ev && ev.cycle ≤ (b.clock.tick 1).cycles

/-- Timer `r` is the only one of the bus, and in step with its clock. -/
structure SoleTimer (b : Board T H) (r : T) : Prop where
  timers : b.timers = [r]
  clock : (b.timer r).clock = true
  scheduler : (b.timer r).scheduler = true
  inStep : (b.timer r).lastClockCycles = b.clock.cycles
  events : ∀ ev ∈ b.scheduler.events, ∀ u ∈ ev.callback, u = r

variable {b r} [DecidableEq T]

theorem SoleTimer.setTimer (h : SoleTimer b r) {t : Timer} {sched : EventScheduler T}
    (hattached : t.clock = (b.timer r).clock ∧ t.scheduler = (b.timer r).scheduler)
    (hstep : t.lastClockCycles = b.clock.cycles)
    (hevents : ∀ ev ∈ sched.events, ev ∈ b.scheduler.events ∨ ev.callback = some r) :
    SoleTimer (b.setTimer r t sched) r := by
  have ht : (b.setTimer r t sched).timer r = t := Function.update_self ..
  refine ⟨h.timers, ?_, ?_, ?_, ?_⟩
  · rw [ht, hattached.1, h.clock]
  · rw [ht, hattached.2, h.scheduler]
  · rw [ht]
    exact hstep
  · intro ev hev u hu
    rcases hevents ev hev with hold | hnew
    · exact h.events ev hold u hu
    · exact Option.some.inj (hu.symm.trans hnew)

theorem view_setTimer (t : Timer) (sched : EventScheduler T) : (b.setTimer r t sched).view r =
    ⟨b.clock, b.interrupts, b.triggered, t.running, t.counter, t.compare, t.hasMatch, t.line⟩ := by
  simp [view, Board.setTimer]

omit [DecidableEq T] in
theorem view_trigger (o : Option UInt8) :
    (b.trigger r o).1.view r = ((b.view r).trigger r o).1 ∧
      (b.trigger r o).2 = ((b.view r).trigger r o).2 := by
  cases o with
  | none => exact ⟨rfl, rfl⟩
  | some id =>
    have hinterrupts : (b.view r).interrupts = b.interrupts := rfl
    simp only [trigger, TimerView.trigger, hinterrupts]
    cases b.interrupts.trigger id <;> exact ⟨rfl, rfl⟩

omit [DecidableEq T] in
theorem SoleTimer.trigger (h : SoleTimer b r) (o : Option UInt8) :
    SoleTimer (b.trigger r o).1 r := by
  cases o with
  | none => exact h
  | some id =>
    simp only [Board.trigger]
    cases b.interrupts.trigger id with
    | ok ic => exact ⟨h.timers, h.clock, h.scheduler, h.inStep, h.events⟩
    | error e => exact h

/-- The match of the timer, as it is observed. -/
theorem SoleTimer.matchTimer (h : SoleTimer b r) (hrun : (b.timer r).running = true) :
    (b.matchTimer r).1.view r = ((b.view r).matched r).1 ∧
      (b.matchTimer r).2 = ((b.view r).matched r).2 ∧ SoleTimer (b.matchTimer r).1 r := by
  obtain ⟨e, he⟩ := (b.timer r).matched.disabled.exists_cancelScheduledEvent b.scheduler
  set stopped := (b.timer r).matched.stop b.scheduler with hstopped
  have he : stopped.1 = { (b.timer r).matched.disabled with scheduledEventId := e } := he
  have hmatch : b.matchTimer r = (b.setTimer r stopped.1 stopped.2).trigger r (b.timer r).line := by
    rw [Board.matchTimer, Timer.handleCompareMatch, if_neg (not_not.2 hrun)]
  have hset : SoleTimer (b.setTimer r stopped.1 stopped.2) r := by
    refine h.setTimer ?_ ?_ fun ev hev => .inl ?_
    · rw [he]
      exact ⟨rfl, rfl⟩
    · rw [he]
      exact h.inStep
    · exact Timer.mem_cancelScheduledEvent _ _ hev
  have hview : (b.setTimer r stopped.1 stopped.2).view r = { b.view r with
      running := false, counter := (b.view r).compare, hasMatch := true } := by
    rw [view_setTimer, he]
    have hrunning : Timer.running { (b.timer r).matched.disabled with scheduledEventId := e } =
        false := (b.timer r).matched.running_disabled
    have hmatched : Timer.hasMatch { (b.timer r).matched.disabled with scheduledEventId := e } =
        true := (b.timer r).hasMatch_matched
    rw [hrunning, hmatched]
    rfl
  obtain ⟨htriggered, hthrown⟩ :=
    view_trigger (b := b.setTimer r stopped.1 stopped.2) (r := r) (b.timer r).line
  rw [hmatch, htriggered, hthrown, hview]
  exact ⟨rfl, rfl, hset.trigger _⟩

/-- The events of the batch after the first match of the timer find it stopped. -/
theorem runBatch_stopped {batch : List (Event T)} (hrun : (b.timer r).running = false)
    (h : ∀ ev ∈ batch, ∀ u ∈ ev.callback, u = r) : b.runBatch batch = (b, none) := by
  induction batch with
  | nil => rfl
  | cons ev rest ih =>
    have hrest := ih fun ev hev => h ev (List.mem_cons_of_mem _ hev)
    cases hcallback : ev.callback with
    | none =>
      simp only [runBatch, hcallback]
      exact hrest
    | some u =>
      obtain rfl := h ev List.mem_cons_self u hcallback
      have hmatch : b.matchTimer u = (b, none) := by
        have hset : b.setTimer u (b.timer u) b.scheduler = b := by simp [setTimer]
        rw [Board.matchTimer, Timer.handleCompareMatch, if_pos (by simp [hrun])]
        dsimp only
        rw [hset]
        rfl
      simp only [runBatch, hcallback, hmatch]
      exact hrest

/-- A batch that has an event of the timer makes one match. -/
theorem runBatch_eq {batch : List (Event T)} (hb : SoleTimer b r)
    (hrun : (b.timer r).running = true) (h : ∀ ev ∈ batch, ∀ u ∈ ev.callback, u = r) :
    b.runBatch batch = if batch.any (isMatchOf r) then b.matchTimer r else (b, none) := by
  induction batch with
  | nil => rfl
  | cons ev rest ih =>
    have hrest : ∀ ev ∈ rest, ∀ u ∈ ev.callback, u = r :=
      fun ev hev => h ev (List.mem_cons_of_mem _ hev)
    cases hcallback : ev.callback with
    | none =>
      simp only [runBatch, hcallback, List.any_cons, isMatchOf, reduceCtorEq, decide_false,
        Bool.false_or]
      exact ih hrest
    | some u =>
      obtain rfl := h ev List.mem_cons_self u hcallback
      have hstopped : ((b.matchTimer u).1.timer u).running = false := by
        obtain ⟨hview, -, -⟩ := hb.matchTimer hrun
        have hrunning := congrArg TimerView.running hview
        rw [TimerView.matched, TimerView.running_trigger] at hrunning
        exact hrunning
      rcases hmatch : b.matchTimer u with ⟨b', _ | e⟩
      · rw [hmatch] at hstopped
        simp only [runBatch, hcallback, hmatch, List.any_cons, isMatchOf, decide_true,
          Bool.true_or, if_true]
        exact runBatch_stopped hstopped hrest
      · simp only [runBatch, hcallback, hmatch, List.any_cons, isMatchOf, decide_true,
          Bool.true_or, if_true]

/-- The loop over the ready events, as it is observed. -/
theorem SoleTimer.executeReadyEvents (h : SoleTimer b r) (c : UInt64) :
    let due := b.scheduler.events.any fun ev => isMatchOf r ev && ev.cycle ≤ c
    let executed := b.executeReadyEvents c
    executed.1.view r = ((b.view r).executed r due).1 ∧
      executed.2 = ((b.view r).executed r due).2 ∧ SoleTimer executed.1 r := by
  intro due executed
  -- the ready events are taken off the scheduler before the first one is executed
  let taken : Board T H := { b with scheduler := (b.scheduler.takeReady c).2 }
  have hbatch : ∀ ev ∈ (b.scheduler.takeReady c).1, ∀ u ∈ ev.callback, u = r :=
    fun ev hev => h.events ev (b.scheduler.mem_takeReady.1 hev).1
  have htaken : SoleTimer taken r := ⟨h.timers, h.clock, h.scheduler, h.inStep,
    fun ev hev => h.events ev (b.scheduler.mem_takeReady_events.1 hev).1⟩
  have hexecuted : executed = taken.runBatch (b.scheduler.takeReady c).1 := by
    show b.executeReadyEvents c = _
    rw [Board.executeReadyEvents]
    split_ifs with hempty
    · have hevents := List.isEmpty_iff.1 hempty
      simp only [taken, EventScheduler.takeReady_of_empty hevents]
      rfl
    · rfl
  have hdue : (b.scheduler.takeReady c).1.any (isMatchOf r) = due := by
    rw [Bool.eq_iff_iff, List.any_eq_true, List.any_eq_true]
    simp only [b.scheduler.mem_takeReady, Bool.and_eq_true, decide_eq_true_eq]
    exact exists_congr fun ev => by tauto
  -- a stopped timer does not mind its event, and a running one matches at most once
  by_cases hrun : (b.timer r).running = true
  · have hview : (b.view r).running = true := hrun
    rw [hexecuted, runBatch_eq htaken hrun hbatch, hdue]
    simp only [TimerView.executed, hview, Bool.true_and]
    split_ifs
    · exact htaken.matchTimer hrun
    · exact ⟨rfl, rfl, htaken⟩
  · have hview : (b.view r).running = false := Bool.eq_false_iff.2 hrun
    rw [hexecuted, runBatch_stopped (b := taken) hview hbatch]
    simp only [TimerView.executed, hview, Bool.false_and, Bool.false_eq_true, if_false]
    exact ⟨rfl, trivial, htaken⟩

/-- The ticks, as they are observed. -/
theorem SoleTimer.tickTimers (h : SoleTimer b r) : ∃ b', b.tickTimers = (b', none) ∧
    b'.view r = (b.view r).ticked ∧ SoleTimer b' r ∧ b'.scheduler = b.scheduler ∧
      b'.clock = b.clock.tick 1 := by
  -- the scheduler has the match, so a tick of the timer only counts
  have htick : (b.timer r).tick (b.clock.tick 1) b.scheduler =
      ((b.timer r).ticked b.clock, b.scheduler, none) :=
    Timer.tick_of_attached h.scheduler h.clock fun _ => h.inStep
  let b' : Board T H :=
    { b with clock := b.clock.tick 1 }.setTimer r ((b.timer r).ticked b.clock) b.scheduler
  have hticked : { b with clock := b.clock.tick 1 }.tickTimer r = (b', none) := by
    rw [tickTimer]
    dsimp only
    rw [htick]
    rfl
  have heach : { b with clock := b.clock.tick 1 }.tickEach [r] = (b', none) := by
    simp only [tickEach, hticked]
  have ht : b'.timer r = (b.timer r).ticked b.clock := Function.update_self ..
  refine ⟨b', (congrArg _ h.timers).trans heach, ?_, ⟨h.timers, ?_, ?_, ?_, h.events⟩, rfl, rfl⟩
  · have hcounter : ((b.timer r).ticked b.clock).counter =
        if (b.timer r).running then (b.timer r).counter + 1 else (b.timer r).counter := by
      simp only [Timer.ticked, Timer.counter]
      split_ifs <;> rfl
    simp only [b', view_setTimer, hcounter]
    rfl
  · rw [ht]
    exact h.clock
  · rw [ht]
    exact h.scheduler
  · rw [ht]
    rfl

/-- **A step of the CPU, as it is observed.** -/
theorem SoleTimer.step {c : Cpu.CPU T H} (h : SoleTimer c.bus r) (hpower : c.power = .on) :
    c.step.1.bus.view r = (c.bus.view r).step r (c.bus.matchDue r) ∧
      SoleTimer c.step.1.bus r ∧ c.step.1.power = .on := by
  obtain ⟨b', htick, hview, hsole, hsched, hclock⟩ := h.tickTimers
  obtain ⟨hview', hthrown, hsole'⟩ := hsole.executeReadyEvents b'.clock.cycles
  rw [hsched, hclock, hview] at hview' hthrown
  rw [TimerView.step, Cpu.CPU.step, if_neg (not_not.2 hpower)]
  simp only [htick]
  rw [hclock]
  change _ = ((c.bus.view r).ticked.executed r (c.bus.matchDue r)).1 at hview'
  change _ = ((c.bus.view r).ticked.executed r (c.bus.matchDue r)).2 at hthrown
  rcases hobserved : (c.bus.view r).ticked.executed r (c.bus.matchDue r) with ⟨v, o⟩
  rw [hclock] at hsole'
  rw [hobserved] at hview' hthrown
  rcases hexecuted : b'.executeReadyEvents (c.bus.clock.tick 1).cycles with ⟨b'', o'⟩
  rw [hexecuted] at hview' hthrown hsole'
  obtain rfl : o' = o := hthrown
  obtain rfl : b''.view r = v := hview'
  cases o' with
  | none => exact ⟨rfl, ⟨hsole'.timers, hsole'.clock, hsole'.scheduler, hsole'.inStep,
      hsole'.events⟩, hpower⟩
  | some e => exact ⟨rfl, hsole', hpower⟩

end Board

end System

end EFS
