import EFS.Cpu.Step
import EFS.Drivers.EventDriven
import EFS.LTS.Basic

/-!
# An event-driven and a tick-driven timer on one bus

`SystemBus::attachTimer` attaches a timer to the event scheduler of the bus.  Here two timers are
attached, one of them is detached from the scheduler again, and from then on both get the same calls
and are ticked by the same CPU.

## Main definitions

* `attachPair` : attaches the two timers.
* `pairLts` : the steps of the CPU and the calls on both timers.
* `PairAgree` : the two timers look the same and have triggered their lines equally often.
* `KeepsPace` : the condition on a step under which they do.

## Main results

* `pairAgree_of_run` : in every run whose steps are allowed by `KeepsPace`, the timers agree.
-/

namespace EFS

namespace System

open EFS.Drivers

namespace Board

variable {Ref H : Type} {b : Board Ref H} {r : Ref}

/-! ### What the bus does to one timer -/

variable [DecidableEq Ref]

/-- Performs a call on timer `r`. -/
def callTimer (b : Board Ref H) (r : Ref) (op : TimerCall) : Board Ref H :=
  let called := (b.timer r).call r b.clock b.scheduler op
  b.setTimer r called.1 called.2

theorem tickTimer_of_tick {t : Timer} {o : Option UInt8}
    (htick : (b.timer r).tick b.clock b.scheduler = (t, b.scheduler, o))
    (h : ∀ id ∈ o, id.toNat < 32) :
    ∃ ic, b.tickTimer r = ({ b with
      timer := Function.update b.timer r t
      interrupts := ic
      triggered := if o.isSome then r :: b.triggered else b.triggered }, none) := by
  rw [tickTimer, htick]
  exact trigger_of_exists (b := b.setTimer r t b.scheduler) h

theorem matchTimer_of_match {t : Timer} {o : Option UInt8}
    (hmatch : (b.timer r).handleCompareMatch b.scheduler = (t, b.scheduler, o))
    (h : ∀ id ∈ o, id.toNat < 32) :
    ∃ ic, b.matchTimer r = ({ b with
      timer := Function.update b.timer r t
      interrupts := ic
      triggered := if o.isSome then r :: b.triggered else b.triggered }, none) := by
  rw [matchTimer, hmatch]
  exact trigger_of_exists (b := b.setTimer r t b.scheduler) h

theorem executeReadyEvents_of_not_ready {c : UInt64}
    (h : ∀ ev ∈ b.scheduler.events, ¬ ev.cycle ≤ c) : b.executeReadyEvents c = (b, none) := by
  have hready : (b.scheduler.events.filter fun ev => ev.cycle ≤ c) = [] :=
    List.filter_eq_nil_iff.2 fun ev hev => by simpa using h ev hev
  have hkept : (b.scheduler.events.filter fun ev => ¬ ev.cycle ≤ c) = b.scheduler.events :=
    List.filter_eq_self.2 fun ev hev => by simpa using h ev hev
  rw [executeReadyEvents, EventScheduler.takeReady, hready, hkept]
  split_ifs <;> rfl

theorem runBatch_of_match {bus : Board Ref H} {ev : Event Ref} {rest : List (Event Ref)}
    (hcallback : ev.callback = some r) (hmatch : b.matchTimer r = (bus, none)) :
    b.runBatch (ev :: rest) = bus.runBatch rest := by
  simp only [runBatch, hcallback, hmatch]

/-- The only event is ready, and it is the match of a running event-driven timer. -/
theorem executeReadyEvents_match {t : Timer} {e : EventId} {i : UInt8} {c : UInt64}
    {ev : Event Ref} (hev : b.scheduler.events = [ev]) (hready : ev.cycle ≤ c)
    (hcallback : ev.callback = some r) (ht : b.timer r = t.eventDriven e i)
    (hrun : t.running = true) (h : ∀ id ∈ (t.eventDriven e i).line, id.toNat < 32) :
    ∃ ic, b.executeReadyEvents c = ({ b with
      timer := Function.update b.timer r (t.matched.disabled.eventDriven 0 i)
      scheduler := { b.scheduler with events := [] }
      interrupts := ic
      triggered := if (t.eventDriven e i).line.isSome then r :: b.triggered else b.triggered },
      none) := by
  let emptied : EventScheduler Ref := { b.scheduler with events := [] }
  have htaken : b.scheduler.takeReady c = ([ev], emptied) := by
    simp [EventScheduler.takeReady, hev, hready, Event.stableSort, emptied]
  have hhandled : (b.timer r).handleCompareMatch emptied =
      (t.matched.disabled.eventDriven 0 i, emptied, (t.eventDriven e i).line) := by
    rw [ht]
    exact Timer.handleCompareMatch_eventDriven hrun (.inl rfl)
  obtain ⟨ic, hmatch⟩ := matchTimer_of_match (b := { b with scheduler := emptied }) hhandled h
  refine ⟨ic, ?_⟩
  rw [executeReadyEvents, htaken, hev, List.isEmpty_cons, if_neg Bool.false_ne_true,
    runBatch_of_match hcallback hmatch]
  rfl

end Board

end System

namespace Cpu

open EFS.System EFS.Drivers

/-! ### The pair -/

section Pair

variable {Ref H : Type} [DecidableEq Ref] {a b : Ref}

/-- Timers `a` and `b` on a bus between two calls: `b` is the tick-driven timer `t`, and `a` is the
event-driven timer with the same registers. -/
structure Paired (a b : Ref) (bus : Board Ref H) (t : Timer) (e : EventId) (i : UInt8) : Prop where
  timers : bus.timers = [a, b] ∨ bus.timers = [b, a]
  eventDriven : bus.timer a = t.eventDriven e i
  tickDriven : bus.timer b = t
  inStep : t.TickDriven i bus.clock
  armed : t.Armed a bus.clock e bus.scheduler
  triggered : bus.triggered.count a = bus.triggered.count b

variable {bus : Board Ref H} {t : Timer} {e : EventId} {i : UInt8} {clock : SimulationClock}

theorem tickEach_pair {r₁ r₂ : Ref} {rs : List Ref} {bus₁ bus₂ : Board Ref H} (h : rs = [r₁, r₂])
    (h₁ : bus.tickTimer r₁ = (bus₁, none)) (h₂ : bus₁.tickTimer r₂ = (bus₂, none)) :
    bus.tickEach rs = (bus₂, none) := by
  simp only [h, Board.tickEach, h₁, h₂]

theorem tickTimer_eventDriven (bus : Board Ref H) (ht : bus.timer a = t.eventDriven e i)
    (hstep : t.TickDriven i clock) (hclock : bus.clock = clock.tick 1) :
    ∃ ic, bus.tickTimer a = ({ bus with
      timer := Function.update bus.timer a ((t.ticked clock).eventDriven e i)
      interrupts := ic }, none) := by
  refine Board.tickTimer_of_tick (o := none) ?_ (by simp)
  rw [ht, hclock]
  exact Timer.tick_eventDriven hstep

/-- What a tick leaves of a tick-driven timer. -/
def afterTick (t : Timer) (clock : SimulationClock) : Timer :=
  if t.Due then (t.ticked clock).matched.disabled else t.ticked clock

theorem tickTimer_tickDriven (bus : Board Ref H) (ht : bus.timer b = t)
    (hstep : t.TickDriven i clock) (hclock : bus.clock = clock.tick 1) :
    ∃ ic, bus.tickTimer b = ({ bus with
      timer := Function.update bus.timer b (afterTick t clock)
      interrupts := ic
      triggered := if t.Due ∧ t.line.isSome then b :: bus.triggered else bus.triggered },
      none) := by
  by_cases hdue : t.Due
  · simp only [hdue, true_and, afterTick, if_true]
    refine Board.tickTimer_of_tick ?_ hstep.line_exists
    rw [ht, hclock, Timer.tick_of_tickDriven hstep, if_pos hdue]
  · simp only [hdue, false_and, afterTick, if_false]
    refine Board.tickTimer_of_tick (o := none) ?_ (by simp)
    rw [ht, hclock, Timer.tick_of_tickDriven hstep, if_neg hdue]

/-- Both timers tick, in either order. -/
theorem Paired.tickTimers (h : Paired a b bus t e i) (hab : a ≠ b) :
    ∃ ic, bus.tickTimers = ({ bus with
      clock := bus.clock.tick 1
      timer := Function.update
        (Function.update bus.timer a ((t.ticked bus.clock).eventDriven e i)) b
        (afterTick t bus.clock)
      interrupts := ic
      triggered := if t.Due ∧ t.line.isSome then b :: bus.triggered else bus.triggered },
      none) := by
  rw [Board.tickTimers]
  rcases h.timers with horder | horder
  · obtain ⟨ic, hic⟩ := tickTimer_eventDriven { bus with clock := bus.clock.tick 1 }
      h.eventDriven h.inStep rfl
    obtain ⟨ic', hic'⟩ := tickTimer_tickDriven (b := b) { bus with
      clock := bus.clock.tick 1
      timer := Function.update bus.timer a ((t.ticked bus.clock).eventDriven e i)
      interrupts := ic }
      (by simpa [Function.update_of_ne hab.symm] using h.tickDriven) h.inStep rfl
    exact ⟨ic', tickEach_pair horder hic hic'⟩
  · obtain ⟨ic, hic⟩ := tickTimer_tickDriven { bus with clock := bus.clock.tick 1 }
      h.tickDriven h.inStep rfl
    obtain ⟨ic', hic'⟩ := tickTimer_eventDriven (a := a) { bus with
      clock := bus.clock.tick 1
      timer := Function.update bus.timer b (afterTick t bus.clock)
      interrupts := ic
      triggered := if t.Due ∧ t.line.isSome then b :: bus.triggered else bus.triggered }
      (by simpa [Function.update_of_ne hab] using h.eventDriven) h.inStep rfl
    refine ⟨ic', ?_⟩
    rw [tickEach_pair horder hic hic', Function.update_comm hab]

/-- **Steps.**  A step of the CPU keeps the pair, if the event is on time. -/
theorem Paired.step {c : CPU Ref H} (h : Paired a b c.bus t e i) (hab : a ≠ b)
    (hon : c.power = .on → (c.bus.timer a).OnTime c.bus.clock) :
    ∃ t' e', Paired a b c.step.1.bus t' e' i := by
  by_cases hpower : c.power = .on
  · have hon : (t.eventDriven e i).OnTime c.bus.clock := h.eventDriven ▸ hon hpower
    obtain ⟨ic, htick⟩ := h.tickTimers hab
    by_cases hdue : t.Due
    · -- both match: `b` in its tick, and `a` in its event
      obtain ⟨hev, hready⟩ := h.armed.due hon hdue
      have hrun : (t.ticked c.bus.clock).running = true := hdue.1
      obtain ⟨ic', hmatch⟩ := Board.executeReadyEvents_match (r := a) (e := e) (b := { c.bus with
        clock := c.bus.clock.tick 1
        timer := Function.update
          (Function.update c.bus.timer a ((t.ticked c.bus.clock).eventDriven e i)) b
          (afterTick t c.bus.clock)
        interrupts := ic
        triggered := if t.Due ∧ t.line.isSome then b :: c.bus.triggered else c.bus.triggered })
        hev hready rfl
        (by simp [Function.update_of_ne hab]) hrun (h.inStep.line_exists_eventDriven (e := e))
      rw [CPU.step_bus hpower htick hmatch]
      refine ⟨(t.ticked c.bus.clock).matched.disabled, 0, h.timers, ?_, ?_, ?_, .inl ⟨rfl, rfl⟩, ?_⟩
      · simp
      · simp [Function.update_of_ne hab.symm, afterTick, hdue]
      · exact h.inStep.ticked.of_eq rfl rfl
      · have hcount := h.triggered
        simp only [Timer.line_eventDriven_isSome, hdue, true_and]
        change List.count a (if t.line.isSome then _ else _) =
          List.count b (if t.line.isSome then _ else _)
        split_ifs with hline
        · simp [hcount, hab, hab.symm]
        · exact hcount
    · -- neither matches
      obtain ⟨hnot, harmed⟩ := h.armed.ticked hon hdue
      rw [CPU.step_bus hpower htick (Board.executeReadyEvents_of_not_ready hnot)]
      refine ⟨t.ticked c.bus.clock, e, h.timers, ?_, ?_, h.inStep.ticked, harmed, ?_⟩
      · simp [Function.update_of_ne hab]
      · simp [afterTick, hdue]
      · simpa [hdue] using h.triggered
  · rw [CPU.step, if_pos hpower]
    exact ⟨t, e, h⟩

/-- The same call on both timers. -/
def callBoth (a b : Ref) (bus : Board Ref H) (op : TimerCall) : Board Ref H :=
  (bus.callTimer a op).callTimer b op

/-- **Calls.**  The same call on both timers keeps the pair, if the scheduler has an id left. -/
theorem Paired.call (h : Paired a b bus t e i) (hab : a ≠ b) (op : TimerCall)
    (hid : op.schedules = true → bus.scheduler.nextId ≠ 0) :
    ∃ t' e', Paired a b (callBoth a b bus op) t' e' i := by
  obtain ⟨t', e', sched', hb, ha, hstep, harmed⟩ := Timer.call_eventDriven op h.inStep h.armed hid
  have hbus : callBoth a b bus op = { bus with
      timer := Function.update (Function.update bus.timer a (t'.eventDriven e' i)) b t'
      scheduler := sched' } := by
    simp only [callBoth, Board.callTimer, Board.setTimer, h.eventDriven, ha,
      Function.update_of_ne hab.symm, h.tickDriven, hb]
  rw [hbus]
  refine ⟨t', e', h.timers, ?_, ?_, hstep, harmed, h.triggered⟩
  · simp [Function.update_of_ne hab]
  · simp

/-! ### Attaching the pair -/

/-- Attaches the timers `r₁` and `r₂`, and then detaches `b` from the scheduler. -/
def attachPair (bus : Board Ref H) (r₁ r₂ b : Ref) : Board Ref H :=
  ((bus.attachTimer r₁).attachTimer r₂).detachScheduler b

/-- A bus before the timers `a` and `b` are attached.  They are attached to nothing but their
interrupt lines, and have the same registers. -/
structure PairStart (a b : Ref) (bus : Board Ref H) : Prop where
  noTimers : bus.timers = []
  noEvents : bus.scheduler.events = []
  /-- The scheduler has ids for the two timers. -/
  idsLeft : bus.scheduler.nextId ≠ 0 ∧ bus.scheduler.nextId + 1 ≠ 0
  same : bus.timer a = { bus.timer b with interruptId := (bus.timer a).interruptId }
  detached : (bus.timer b).scheduler = false
  noEvent : (bus.timer b).scheduledEventId = 0
  resetValue : (bus.timer b).ctrlRegister.initialValue = 0
  line : (bus.timer b).interruptController = true →
    (bus.timer b).interruptId.toNat < 32 ∧ (bus.timer a).interruptId.toNat < 32
  triggered : bus.triggered = []

theorem attachTimer_eq {r : Ref} (hr : r ∉ bus.timers) (hev : (bus.timer r).scheduledEventId = 0) :
    bus.attachTimer r =
      let attached := ((bus.timer r).attachClock bus.clock).eventDriven
        (if (bus.timer r).Waiting then bus.scheduler.nextId else 0) (bus.timer r).interruptId
      { bus with
        timer := Function.update bus.timer r attached
        scheduler := (bus.timer r).withMatch r bus.clock bus.scheduler
        timers := bus.timers ++ [r] } := by
  rw [Board.attachTimer, if_neg hr, Timer.attachScheduler_eq hev]
  rfl

/-- Both timers are attached to the scheduler, which has their matches, in either order, if they
wait for them. -/
structure Attached (a b : Ref) (bus : Board Ref H) (t : Timer) (e e' : EventId) (i : UInt8) :
    Prop where
  timers : bus.timers = [a, b] ∨ bus.timers = [b, a]
  first : bus.timer a = t.eventDriven e i
  second : bus.timer b = t.eventDriven e' t.interruptId
  inStep : t.TickDriven i bus.clock
  waiting : t.Waiting → e ≠ 0 ∧ e' ≠ 0 ∧ e ≠ e' ∧
    (bus.scheduler.events = [t.matchEvent a bus.clock e, t.matchEvent b bus.clock e'] ∨
      bus.scheduler.events = [t.matchEvent b bus.clock e', t.matchEvent a bus.clock e])
  idle : ¬ t.Waiting → e = 0 ∧ e' = 0 ∧ bus.scheduler.events = []
  triggered : bus.triggered = []

/-- Detaching `b` leaves the event of `a`. -/
theorem Attached.detach {g : EventId} (h : Attached a b bus t e g i) (hab : a ≠ b) :
    Paired a b (bus.detachScheduler b) t e i := by
  have hb : { t with scheduler := false, scheduledEventId := 0 } = t := by
    rw [← h.inStep.detached, ← h.inStep.noEvent]
  have hbus : bus.detachScheduler b = { bus with
      timer := Function.update bus.timer b t
      scheduler := if g = 0 then bus.scheduler else (bus.scheduler.cancel g).2 } := by
    rw [Board.detachScheduler, h.second, Timer.detachScheduler_eventDriven]
    exact congrArg (bus.setTimer b · _) hb
  rw [hbus]
  refine ⟨h.timers, ?_, Function.update_self .., h.inStep, ?_, by simp [h.triggered]⟩
  · exact (Function.update_of_ne hab ..).trans h.first
  · by_cases hw : t.Waiting
    · obtain ⟨he, he', hne, hev⟩ := h.waiting hw
      refine .inr ⟨he, hw, ?_⟩
      rcases hev with hev | hev <;>
        simp [he', hev, EventScheduler.cancel, Timer.matchEvent, hne]
    · obtain ⟨he, he', hev⟩ := h.idle hw
      exact .inl ⟨he, by simp [he', hev]⟩

/-- The attached timers are a pair. -/
theorem PairStart.paired {r₁ r₂ : Ref} (h : PairStart a b bus) (hab : a ≠ b)
    (horder : [r₁, r₂] = [a, b] ∨ [r₁, r₂] = [b, a]) :
    ∃ t e i, Paired a b (attachPair bus r₁ r₂ b) t e i := by
  let u : Timer := (bus.timer b).attachClock bus.clock
  have hstep : u.TickDriven (bus.timer a).interruptId bus.clock := by
    refine ⟨h.detached, h.noEvent, rfl, rfl, ?_, h.line⟩
    change (bus.timer b).ctrlRegister.initialValue &&& ctrlEnableBit = 0
    rw [h.resetValue, UInt32.zero_and]
  have hnoa : (bus.timer a).scheduledEventId = 0 := by rw [h.same]; exact h.noEvent
  -- the timer `a` differs from `b` in its line only
  have ha e : ((bus.timer a).attachClock bus.clock).eventDriven e (bus.timer a).interruptId =
      u.eventDriven e (bus.timer a).interruptId := by rw [h.same]; rfl
  have hwa : (bus.timer a).Waiting ↔ u.Waiting := by rw [h.same]; rfl
  have hwb : (bus.timer b).Waiting ↔ u.Waiting := Iff.rfl
  have hev e : (bus.timer a).matchEvent a bus.clock e = u.matchEvent a bus.clock e := by
    rw [h.same]; rfl
  obtain ⟨hid, hid'⟩ := h.idsLeft
  rcases horder with horder | horder
  · obtain ⟨rfl, rfl⟩ : r₁ = a ∧ r₂ = b := by simpa using horder
    refine ⟨u, if u.Waiting then bus.scheduler.nextId else 0, (bus.timer r₁).interruptId,
      Attached.detach (g := if u.Waiting then bus.scheduler.nextId + 1 else 0) ?_ hab⟩
    rw [attachTimer_eq (r := r₁) (by simp [h.noTimers]) hnoa,
      attachTimer_eq (r := r₂) (by simp [h.noTimers, hab.symm])
        (by simpa [Function.update_of_ne hab.symm] using h.noEvent)]
    simp only [Function.update_of_ne hab.symm, Timer.withMatch, hwa, hwb, h.noTimers, h.noEvents]
    refine ⟨.inl rfl, ?_, ?_, hstep, ?_, ?_, h.triggered⟩
    · simp [Function.update_of_ne hab, ha]
    · by_cases hw : u.Waiting <;> simp only [hw, if_true, if_false, Function.update_self] <;> rfl
    · intro hw
      simp only [hw, if_true, hev]
      exact ⟨hid, hid', by simp, .inl rfl⟩
    · intro hw
      simp [hw, h.noEvents]
  · obtain ⟨rfl, rfl⟩ : r₁ = b ∧ r₂ = a := by simpa using horder
    refine ⟨u, if u.Waiting then bus.scheduler.nextId + 1 else 0, (bus.timer r₂).interruptId,
      Attached.detach (g := if u.Waiting then bus.scheduler.nextId else 0) ?_ hab⟩
    rw [attachTimer_eq (r := r₁) (by simp [h.noTimers]) h.noEvent,
      attachTimer_eq (r := r₂) (by simp [h.noTimers, hab])
        (by simpa [Function.update_of_ne hab] using hnoa)]
    simp only [Function.update_of_ne hab, Timer.withMatch, hwa, hwb, h.noTimers, h.noEvents]
    refine ⟨.inr rfl, ?_, ?_, hstep, ?_, ?_, h.triggered⟩
    · by_cases hw : u.Waiting <;> simp [hw, ha]
    · simp only [Function.update_of_ne hab.symm, Function.update_self]
      rfl
    · intro hw
      simp only [hw, if_true, hev]
      exact ⟨hid', hid, by simp, .inr rfl⟩
    · intro hw
      simp [hw, h.noEvents]

/-! ### Runs -/

/-- A cycle, or a call made on both timers. -/
inductive PairLabel where
  /-- `CPU::step()`. -/
  | step
  /-- A call on both timers. -/
  | call (op : TimerCall)
  deriving DecidableEq

/-- The board after a label. -/
def pairNext (a b : Ref) (c : CPU Ref H) : PairLabel → CPU Ref H
  | .step => c.step.1
  | .call op => { c with bus := callBoth a b c.bus op }

/-- A CPU and a bus with the timers `a` and `b`, which get the same calls. -/
def pairLts (a b : Ref) : LTS (CPU Ref H) PairLabel where
  step c l c' := c' = pairNext a b c l

/-- The timers look the same, and their lines were triggered equally often. -/
structure PairAgree (a b : Ref) (bus : Board Ref H) : Prop where
  counter : (bus.timer a).counter = (bus.timer b).counter
  running : (bus.timer a).running = (bus.timer b).running
  hasMatch : (bus.timer a).hasMatch = (bus.timer b).hasMatch
  triggered : bus.triggered.count a = bus.triggered.count b

/-- The condition on a step: when the CPU steps, the event-driven timer is on time, and when a call
schedules an event, the scheduler has an id left. -/
def KeepsPace (a : Ref) (c : CPU Ref H) : PairLabel → Prop
  | .step => c.power = .on → (c.bus.timer a).OnTime c.bus.clock
  | .call op => op.schedules = true → c.bus.scheduler.nextId ≠ 0

instance (a : Ref) (c : CPU Ref H) : DecidablePred (KeepsPace a c)
  | .step => inferInstanceAs (Decidable (_ → _))
  | .call _ => inferInstanceAs (Decidable (_ → _))

theorem Paired.agree (h : Paired a b bus t e i) : PairAgree a b bus := by
  refine ⟨?_, ?_, ?_, h.triggered⟩ <;> rw [h.eventDriven, h.tickDriven] <;> rfl

/-- **Agreement.**  In every run whose steps are allowed by `KeepsPace`, the event-driven timer `a`
and the tick-driven timer `b` agree in every state. -/
theorem pairAgree_of_run {c c' : CPU Ref H} {r₁ r₂ : Ref} {ls : List PairLabel} (hab : a ≠ b)
    (hstart : PairStart a b c.bus) (horder : [r₁, r₂] = [a, b] ∨ [r₁, r₂] = [b, a])
    (hrun : ((pairLts a b).restrict (KeepsPace a)).Run
      { c with bus := attachPair c.bus r₁ r₂ b } ls c') : PairAgree a b c'.bus := by
  obtain ⟨t, e, i, hpaired⟩ := hstart.paired hab horder
  have hinv : ∃ t e, Paired a b c'.bus t e i := by
    refine hrun.invariant (I := fun c => ∃ t e, Paired a b c.bus t e i) ⟨t, e, hpaired⟩ ?_
    rintro c l d ⟨t, e, h⟩ ⟨hpace, rfl⟩
    cases l with
    | step => exact h.step hab hpace
    | call op => exact h.call hab op hpace
  obtain ⟨t', e', h⟩ := hinv
  exact h.agree

end Pair

/-- Two new timers with interrupt lines, not attached to the bus yet.  The timer `true` will be
event-driven. -/
def newPair : Board Bool Unit where
  clock := ⟨0⟩
  scheduler := .init
  interrupts := .init
  timers := []
  timer r := Timer.new.attachInterruptController (if r then 0 else 1)
  triggered := []

theorem newPair_start : PairStart true false newPair where
  noTimers := rfl
  noEvents := rfl
  idsLeft := by decide
  same := rfl
  detached := rfl
  noEvent := rfl
  resetValue := rfl
  line _ := by decide
  triggered := rfl

/-- A CPU with the two timers, after the calls and steps `ls`. -/
def pairAfter (ls : List PairLabel) : CPU Bool Unit :=
  ls.foldl (pairNext true false) ⟨.on, 0, attachPair newPair true false false⟩

/-- Two steps after both timers were started with the compare value 2. -/
def pairTwoSteps : CPU Bool Unit :=
  pairAfter [.call (.setCompare 2), .call .start, .step, .step]

/-- Both timers have matched. -/
theorem pairAgree_twoSteps :
    PairAgree true false pairTwoSteps.bus ∧ (pairTwoSteps.bus.timer true).hasMatch := by
  have hrun : ((pairLts true false).restrict (KeepsPace true)).Run
      { (⟨.on, 0, newPair⟩ : CPU Bool Unit) with bus := attachPair newPair true false false }
      [.call (.setCompare 2), .call .start, .step, .step] pairTwoSteps :=
    .cons ⟨by decide, rfl⟩ (.cons ⟨by decide, rfl⟩ (.cons ⟨by decide, rfl⟩
      (.cons ⟨by decide, rfl⟩ (.nil _))))
  exact ⟨pairAgree_of_run (by decide) newPair_start (.inl rfl) hrun, by decide⟩

/-- Started with a counter that has reached the compare value, the tick-driven timer matches in the
next step, and the event-driven timer runs on. -/
theorem not_pairAgree_zero :
    PairStart true false newPair ∧
      (pairLts true false).Run (⟨.on, 0, attachPair newPair true false false⟩ : CPU Bool Unit)
        [.call .start, .step] (pairAfter [.call .start, .step]) ∧
      ¬ PairAgree true false (pairAfter [.call .start, .step]).bus := by
  refine ⟨newPair_start, .cons rfl (.cons rfl (.nil _)), ?_⟩
  intro h
  exact absurd h.running (by decide)

end Cpu

end EFS
