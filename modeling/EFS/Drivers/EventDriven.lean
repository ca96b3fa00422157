import EFS.Drivers.Timer

/-!
# Event-driven and tick-driven timers

A timer that is attached to the event scheduler gets its compare match from a scheduled event.  A
timer that is attached to a clock only finds its match by the comparison in `tick()`.  Here the two
are compared: `t.eventDriven e i` is the event-driven timer with the registers of the tick-driven
timer `t`, with the scheduled event `e` and the interrupt line `i`.

`updateScheduledEvent` schedules no event when the counter has reached the compare value, while
`tick()` compares with `>=`.  So the two match in the same tick only while the event-driven timer is
`OnTime`.

## Main results

* `Timer.call_eventDriven` : the same call on both leaves the same registers.
* `Timer.tick_eventDriven`, `Timer.tick_of_tickDriven` : so does a tick that does not match.
* `Timer.Armed.due`, `Timer.Armed.ticked` : an event on time is ready exactly if the tick matches.
-/

namespace EFS

namespace Drivers

open EFS.System

/-! ### Counters below their compare values -/

section

variable {k c : UInt32}

theorem toNat_sub_of_lt (h : k < c) : (c - k).toNat = c.toNat - k.toNat :=
  UInt32.toNat_sub_of_le _ _ (UInt32.le_of_lt h)

theorem le_succ_iff (h : k < c) : c ≤ k + 1 ↔ (c - k).toNat = 1 := by
  have hk := UInt32.lt_iff_toNat_lt.1 h
  have hc := c.toNat_lt
  rw [UInt32.le_iff_toNat_le, toNat_sub_of_lt h, UInt32.toNat_add]
  simp
  omega

theorem sub_eq_succ (h : k < c) : (c - k).toUInt64 = 1 + (c - (k + 1)).toUInt64 := by
  have hk := UInt32.lt_iff_toNat_lt.1 h
  have hc := c.toNat_lt
  have hsucc : (k + 1).toNat = k.toNat + 1 := by
    rw [UInt32.toNat_add]
    simp
    omega
  have hle : k + 1 ≤ c := by
    rw [UInt32.le_iff_toNat_le, hsucc]
    exact hk
  apply UInt64.toNat.inj
  rw [UInt64.toNat_add, UInt32.toNat_toUInt64, UInt32.toNat_toUInt64, toNat_sub_of_lt h,
    UInt32.toNat_sub_of_le _ _ hle, hsucc]
  simp
  omega

end

/-! ### Two timers with the same registers -/

/-- The calls on a timer between the steps of the CPU. -/
inductive TimerCall where
  | start
  | stop
  | reset
  | setCompare (value : UInt32)
  | clearMatch
  deriving DecidableEq

/-- The call as one of those that a program can make. -/
def TimerCall.op : TimerCall → Timer.Op
  | .start => .start
  | .stop => .stop
  | .reset => .reset
  | .setCompare value => .setCompare value
  | .clearMatch => .clearMatch

/-- The calls that schedule an event. -/
def TimerCall.schedules : TimerCall → Bool
  | .start | .setCompare _ => true
  | .stop | .reset | .clearMatch => false

namespace Timer

variable {Cb : Type}

/-- Performs a call. -/
def call (t : Timer) (self : Cb) (clock : SimulationClock) (sched : EventScheduler Cb)
    (c : TimerCall) : Timer × EventScheduler Cb := t.perform self clock sched c.op

/-- The timer `t`, attached to a scheduler, with the scheduled event `e` and the interrupt line
`i`. -/
def eventDriven (t : Timer) (e : EventId) (i : UInt8) : Timer :=
  { t with scheduler := true, scheduledEventId := e, interruptId := i }

/-- A timer that is attached to a clock only, and in step with it.  If it has an interrupt line,
then that line and the line `i` exist. -/
structure TickDriven (t : Timer) (i : UInt8) (clock : SimulationClock) : Prop where
  detached : t.scheduler = false
  noEvent : t.scheduledEventId = 0
  attached : t.clock = true
  inStep : t.lastClockCycles = clock.cycles
  resetsDisabled : t.ctrlRegister.initialValue &&& ctrlEnableBit = 0
  line : t.interruptController = true → t.interruptId.toNat < 32 ∧ i.toNat < 32

/-- The event of a timer that matches when the counter reaches the compare value. -/
def matchEvent (t : Timer) (self : Cb) (clock : SimulationClock) (e : EventId) : Event Cb :=
  ⟨e, clock.cycles + (t.compare - t.counter).toUInt64, some self, "Timer Compare Match"⟩

/-- The timer runs below its compare value. -/
def Waiting (t : Timer) : Prop := t.running = true ∧ t.counter < t.compare

instance (t : Timer) : Decidable t.Waiting := inferInstanceAs (Decidable (_ ∧ _))

/-- The scheduler with the match of the timer, if the timer waits for one. -/
def withMatch (t : Timer) (self : Cb) (clock : SimulationClock) (sched : EventScheduler Cb) :
    EventScheduler Cb :=
  if t.Waiting then ⟨sched.nextId + 1, sched.events ++ [t.matchEvent self clock sched.nextId]⟩
  else sched

/-- The scheduler has no event, or only the event `e`, which is a valid id. -/
def Owns (e : EventId) (sched : EventScheduler Cb) : Prop :=
  sched.events = [] ∨ e ≠ 0 ∧ ∃ ev, ev.id = e ∧ sched.events = [ev]

/-- The scheduler has no event, or only the match event of the running timer. -/
def Armed (t : Timer) (self : Cb) (clock : SimulationClock) (e : EventId)
    (sched : EventScheduler Cb) : Prop :=
  e = 0 ∧ sched.events = [] ∨
    e ≠ 0 ∧ t.Waiting ∧ sched.events = [t.matchEvent self clock e]

variable {t : Timer} {self : Cb} {clock : SimulationClock} {e : EventId} {i : UInt8}
  {sched : EventScheduler Cb}

theorem TickDriven.line_exists (h : t.TickDriven i clock) : ∀ id ∈ t.line, id.toNat < 32 := by
  intro id hid
  rw [Timer.line] at hid
  split_ifs at hid with hc
  · obtain rfl : t.interruptId = id := Option.some.inj hid
    exact (h.line hc).1
  · cases hid

theorem TickDriven.line_exists_eventDriven (h : t.TickDriven i clock) :
    ∀ id ∈ (t.eventDriven e i).line, id.toNat < 32 := by
  intro id hid
  rw [Timer.line] at hid
  split_ifs at hid with hc
  · obtain rfl : i = id := Option.some.inj hid
    exact (h.line hc).2
  · cases hid

theorem line_eventDriven_isSome : (t.eventDriven e i).line.isSome = t.line.isSome := by
  change (if t.interruptController then some i else none).isSome = _
  rw [Timer.line]
  split_ifs <;> rfl

theorem Armed.owns (h : t.Armed self clock e sched) : Owns e sched := by
  rcases h with ⟨-, h⟩ | ⟨he, -, h⟩
  · exact .inl h
  · exact .inr ⟨he, _, rfl, h⟩

/-- A cancelled timer leaves an empty scheduler. -/
theorem cancelScheduledEvent_eventDriven (h : Owns e sched) :
    (t.eventDriven e i).cancelScheduledEvent sched =
      (t.eventDriven 0 i, { sched with events := [] }) := by
  obtain ⟨nextId, events⟩ := sched
  by_cases he : e = 0
  · subst he
    obtain h | ⟨h, -⟩ := h
    · obtain rfl : events = [] := h
      rfl
    · exact absurd rfl h
  · obtain h | ⟨-, ev, hid, h⟩ := h
    · obtain rfl : events = [] := h
      simp [cancelScheduledEvent, eventDriven, he, EventScheduler.cancel]
    · obtain rfl : events = [ev] := h
      simp [cancelScheduledEvent, eventDriven, he, EventScheduler.cancel, hid]

theorem scheduleMatch_eventDriven (hclock : t.clock = true) :
    (t.eventDriven 0 i).scheduleMatch self clock sched =
      (t.eventDriven (if t.Waiting then sched.nextId else 0) i, t.withMatch self clock sched) := by
  have hattached : (t.eventDriven 0 i).scheduler = true := rfl
  have hrun : (t.eventDriven 0 i).running = t.running := rfl
  have hle : (t.eventDriven 0 i).compare ≤ (t.eventDriven 0 i).counter ↔
      ¬ t.counter < t.compare := UInt32.not_lt.symm
  have hcycle : (if (t.eventDriven 0 i).clock then clock.cycles else 0) = clock.cycles :=
    if_pos hclock
  rw [scheduleMatch, withMatch, hcycle]
  by_cases hw : t.Waiting
  · rw [if_neg (by simp [hrun, hattached, hw.1]), if_neg (fun h => hle.1 h hw.2), if_pos hw,
      if_pos hw]
    rfl
  · rw [if_neg hw, if_neg hw]
    split_ifs with h h'
    · rfl
    · rfl
    · exact absurd ⟨by simpa [hrun] using (not_or.1 h).1, not_not.1 fun h => h' (hle.2 h)⟩ hw

theorem updateScheduledEvent_eventDriven (t : Timer) (self : Cb) (clock : SimulationClock)
    (i : UInt8) (h : Owns e sched) (hid : sched.nextId ≠ 0) (hclock : t.clock = true) :
    ∃ e' sched', (t.eventDriven e i).updateScheduledEvent self clock sched =
      (t.eventDriven e' i, sched') ∧ t.Armed self clock e' sched' := by
  refine ⟨if t.Waiting then sched.nextId else 0,
    t.withMatch self clock { sched with events := [] }, ?_, ?_⟩
  · rw [updateScheduledEvent, cancelScheduledEvent_eventDriven h, scheduleMatch_eventDriven hclock]
  · rw [withMatch]
    split_ifs with hw
    · exact .inr ⟨hid, hw, rfl⟩
    · exact .inl ⟨rfl, rfl⟩

theorem stop_eventDriven (h : Owns e sched) :
    (t.eventDriven e i).stop sched = (t.disabled.eventDriven 0 i, { sched with events := [] }) :=
  cancelScheduledEvent_eventDriven (t := t.disabled) h

/-! ### Calls -/

theorem syncClock_of_inStep (h : t.lastClockCycles = clock.cycles) : t.syncClock clock = t := by
  rw [syncClock, ← h]
  split_ifs <;> rfl

theorem TickDriven.of_eq {t' : Timer} (h : t.TickDriven i clock)
    (ht : t' = { t with
      ctrlRegister := t'.ctrlRegister, countRegister := t'.countRegister
      compareRegister := t'.compareRegister, statusRegister := t'.statusRegister })
    (hreset : t'.ctrlRegister.initialValue = t.ctrlRegister.initialValue) :
    t'.TickDriven i clock := by
  rw [ht]
  exact ⟨h.detached, h.noEvent, h.attached, h.inStep, hreset ▸ h.resetsDisabled, h.line⟩

/-- **Calls.**  The same call on both timers leaves the same registers. -/
theorem call_eventDriven (op : TimerCall) (ht : t.TickDriven i clock)
    (ha : t.Armed self clock e sched) (hid : op.schedules = true → sched.nextId ≠ 0) :
    ∃ t' e' sched', (∀ (self' : Cb) sched₀, t.call self' clock sched₀ op = (t', sched₀)) ∧
      (t.eventDriven e i).call self clock sched op = (t'.eventDriven e' i, sched') ∧
      t'.TickDriven i clock ∧ t'.Armed self clock e' sched' := by
  -- a timer without an event is on time, whatever the scheduler holds
  have hdisarmed (t' : Timer) : t'.Armed self clock 0 { sched with events := [] } :=
    .inl ⟨rfl, rfl⟩
  cases op with
  | start =>
    -- both timers are in step with the clock, so nothing but the enable bit precedes the update
    have hsync (u : Timer) (h : u.lastClockCycles = clock.cycles) (self' : Cb) sched₀ :
        u.start self' clock sched₀ = u.enabled.updateScheduledEvent self' clock sched₀ := by
      rw [start, syncClock_of_inStep (t := u.enabled) h]
    have ht' : t.enabled.TickDriven i clock := ht.of_eq rfl rfl
    obtain ⟨e', sched', hup, ha'⟩ :=
      updateScheduledEvent_eventDriven t.enabled self clock i ha.owns (hid rfl) ht'.attached
    refine ⟨t.enabled, e', sched', ?_, ?_, ht', ha'⟩
    · intro self' sched₀
      exact (hsync t ht.inStep self' sched₀).trans (updateScheduledEvent_of_detached ht'.detached)
    · exact (hsync (t.eventDriven e i) ht.inStep self sched).trans hup
  | stop =>
    exact ⟨t.disabled, 0, _, fun self' sched₀ => stop_of_detached ht.detached,
      stop_eventDriven ha.owns, ht.of_eq rfl rfl, hdisarmed _⟩
  | reset =>
    have ht' : t.disabled.cleared.TickDriven i clock := ht.of_eq rfl rfl
    refine ⟨t.disabled.cleared, 0, _, ?_, ?_, ht', hdisarmed _⟩
    · intro self' sched₀
      show t.reset clock sched₀ = _
      rw [reset, stop_of_detached ht.detached, syncClock_of_inStep ht'.inStep]
    · have hsync : (t.disabled.cleared.eventDriven 0 i).syncClock clock =
          t.disabled.cleared.eventDriven 0 i := syncClock_of_inStep ht'.inStep
      show (t.eventDriven e i).reset clock sched = _
      rw [reset, stop_eventDriven ha.owns]
      exact congrArg (·, _) hsync
  | setCompare value =>
    let t' := { t with compareRegister := t.compareRegister.write value }
    have ht' : t'.TickDriven i clock := ht.of_eq rfl rfl
    obtain ⟨e', sched', hup, ha'⟩ :=
      updateScheduledEvent_eventDriven t' self clock i ha.owns (hid rfl) ht'.attached
    exact ⟨t', e', sched', fun self' sched₀ => updateScheduledEvent_of_detached ht'.detached, hup,
      ht', ha'⟩
  | clearMatch =>
    exact ⟨t.clearMatch, e, sched, fun self' sched₀ => rfl, rfl, ht.of_eq rfl rfl, ha⟩

/-! ### Attaching -/

theorem attachScheduler_eq (hno : t.scheduledEventId = 0) :
    (t.attachClock clock).attachScheduler self clock sched =
      ((t.attachClock clock).eventDriven (if t.Waiting then sched.nextId else 0) t.interruptId,
        t.withMatch self clock sched) := by
  have hattached : { t.attachClock clock with scheduler := true } =
      (t.attachClock clock).eventDriven 0 t.interruptId := by
    simp [attachClock, eventDriven, hno]
  rw [attachScheduler, hattached, updateScheduledEvent, cancelScheduledEvent,
    if_neg fun h => h.1 rfl]
  exact scheduleMatch_eventDriven (t := t.attachClock clock) rfl

theorem detachScheduler_eventDriven :
    (t.eventDriven e i).detachScheduler sched =
      ({ t with scheduler := false, scheduledEventId := 0, interruptId := i },
        if e = 0 then sched else (sched.cancel e).2) := by
  by_cases he : e = 0
  · subst he
    rfl
  · simp [detachScheduler, cancelScheduledEvent, eventDriven, he]

/-! ### Ticks -/

theorem stepAmount_of_inStep (h : t.lastClockCycles = clock.cycles) :
    t.stepAmount (clock.tick 1) = 1 := by
  have hdiff : (clock.tick 1).cycles - t.lastClockCycles = 1 := by
    rw [SimulationClock.tick, h, UInt64.add_comm, UInt64.add_sub_cancel]
  rw [stepAmount, hdiff]
  split_ifs <;> rfl

/-- What a tick leaves of the timer, if it does not match. -/
def ticked (t : Timer) (clock : SimulationClock) : Timer :=
  { t with
    countRegister := if t.running then t.countRegister.write (t.counter + 1) else t.countRegister
    lastClockCycles := (clock.tick 1).cycles }

/-- The tick-driven timer matches in the next tick. -/
def Due (t : Timer) : Prop := t.running = true ∧ t.compare ≤ t.counter + 1

instance : Decidable t.Due := inferInstanceAs (Decidable (_ ∧ _))

theorem tick_of_inStep (hattached : t.clock = true) (hstep : t.lastClockCycles = clock.cycles) :
    t.tick (clock.tick 1) sched =
      if t.scheduler = false ∧ t.Due then (t.ticked clock).handleCompareMatch sched
      else (t.ticked clock, sched, none) := by
  rw [tick, stepAmount_of_inStep hstep]
  by_cases hrun : t.running = true
  · simp [hrun, Due, counted, ticked, syncClock, hattached]
  · simp [hrun, Due, ticked, syncClock, hattached]

/-- A timer that is attached to the scheduler of the bus never matches in a tick.  Only a running
timer has to be in step. -/
theorem tick_of_attached (hsched : t.scheduler = true) (hclock : t.clock = true)
    (hstep : t.running = true → t.lastClockCycles = clock.cycles) :
    t.tick (clock.tick 1) sched = (t.ticked clock, sched, none) := by
  by_cases hrun : t.running = true
  · rw [tick_of_inStep hclock (hstep hrun), if_neg]
    simp [hsched]
  · simp [tick, hrun, ticked, syncClock, hclock]

theorem tick_eventDriven (h : t.TickDriven i clock) :
    (t.eventDriven e i).tick (clock.tick 1) sched =
      ((t.ticked clock).eventDriven e i, sched, none) := by
  rw [tick_of_inStep (t := t.eventDriven e i) h.attached h.inStep, if_neg (fun h => nomatch h.1)]
  rfl

theorem tick_of_tickDriven (h : t.TickDriven i clock) :
    t.tick (clock.tick 1) sched =
      if t.Due then ((t.ticked clock).matched.disabled, sched, t.line)
      else (t.ticked clock, sched, none) := by
  rw [tick_of_inStep h.attached h.inStep]
  by_cases hdue : t.Due
  · have hrun : (t.ticked clock).running = true := hdue.1
    rw [if_pos ⟨h.detached, hdue⟩, if_pos hdue,
      handleCompareMatch_of_detached (t := t.ticked clock) h.detached hrun]
    rfl
  · rw [if_neg (fun h => hdue h.2), if_neg hdue]

theorem handleCompareMatch_eventDriven (hrun : t.running = true) (h : Owns e sched) :
    (t.eventDriven e i).handleCompareMatch sched =
      (t.matched.disabled.eventDriven 0 i, { sched with events := [] },
        (t.eventDriven e i).line) := by
  have hrun : (t.eventDriven e i).running = true := hrun
  have hstop : (t.eventDriven e i).matched.stop sched = _ := stop_eventDriven (t := t.matched) h
  rw [handleCompareMatch, if_neg (not_not.2 hrun), hstop]
  rfl

/-! ### When the event is on time -/

/-- The condition on the event-driven timer before a step.  If it runs, then either it has no
scheduled event and does not reach its compare value in this step, or it has one, and the cycle of
the event is no wrapped sum (unless the clock itself wraps in this step). -/
def OnTime (t : Timer) (clock : SimulationClock) : Prop :=
  t.running = true →
    if t.scheduledEventId = 0 then ¬ t.Due
    else clock.cycles.toNat + (t.compare - t.counter).toNat < 2 ^ 64 ∨
      clock.cycles.toNat + 1 = 2 ^ 64

instance : Decidable (t.OnTime clock) := inferInstanceAs (Decidable (_ → _))

theorem matchEvent_ticked (hw : t.Waiting) :
    (t.ticked clock).matchEvent self (clock.tick 1) e = t.matchEvent self clock e := by
  have hcount : (t.ticked clock).counter = t.counter + 1 := by simp [ticked, hw.1, counter]
  have hcompare : (t.ticked clock).compare = t.compare := rfl
  rw [matchEvent, matchEvent, hcount, hcompare, sub_eq_succ hw.2, ← UInt64.add_assoc]
  rfl

/-- A timer whose event is not ready after a tick still waits for its match. -/
theorem waiting_ticked (hw : t.Waiting)
    (hnot : ¬ ((t.ticked clock).matchEvent self (clock.tick 1) e).cycle ≤ (clock.tick 1).cycles) :
    (t.ticked clock).Waiting := by
  have hcount : (t.ticked clock).counter = t.counter + 1 := by simp [ticked, hw.1, counter]
  have hlt := UInt32.lt_iff_toNat_lt.1 hw.2
  refine ⟨hw.1, ?_⟩
  by_contra hge
  rw [hcount, show (t.ticked clock).compare = t.compare from rfl] at hge
  -- the counter has reached the compare value, so the event is ready now
  have hreached : t.compare = t.counter + 1 := by
    have hle := UInt32.le_iff_toNat_le.1 (UInt32.not_lt.1 hge)
    have hc := t.compare.toNat_lt
    apply UInt32.toNat.inj
    rw [UInt32.toNat_add] at hle ⊢
    simp at hle ⊢
    omega
  refine hnot (UInt64.le_of_eq ?_)
  have hzero : (t.ticked clock).compare - (t.ticked clock).counter = 0 := by
    rw [hcount]
    show t.compare - (t.counter + 1) = 0
    rw [← hreached, UInt32.sub_self]
  rw [matchEvent, hzero]
  exact UInt64.add_zero _

/-- An event on time is ready after the next tick exactly if the match is due. -/
theorem ready_iff_due (hw : t.Waiting)
    (hon : clock.cycles.toNat + (t.compare - t.counter).toNat < 2 ^ 64 ∨
      clock.cycles.toNat + 1 = 2 ^ 64) :
    (t.matchEvent self clock e).cycle ≤ (clock.tick 1).cycles ↔ t.Due := by
  have hpos : (t.compare - t.counter).toNat ≠ 0 := by
    have := UInt32.lt_iff_toNat_lt.1 hw.2
    rw [toNat_sub_of_lt hw.2]
    omega
  -- on both sides a sum of 64 bits may wrap; `hon` says that not only one of them does
  have h32 := (t.compare - t.counter).toNat_lt
  rw [Due, le_succ_iff hw.2, UInt64.le_iff_toNat_le, matchEvent, SimulationClock.tick,
    UInt64.toNat_add, UInt64.toNat_add, UInt32.toNat_toUInt64]
  simp [hw.1]
  omega

theorem OnTime.of_event (h : (t.eventDriven e i).OnTime clock) (he : e ≠ 0)
    (hw : t.Waiting) :
    clock.cycles.toNat + (t.compare - t.counter).toNat < 2 ^ 64 ∨
      clock.cycles.toNat + 1 = 2 ^ 64 := by
  have h : if e = 0 then ¬ t.Due else _ := h hw.1
  rwa [if_neg he] at h

theorem Armed.due (h : t.Armed self clock e sched) (hon : (t.eventDriven e i).OnTime clock)
    (hdue : t.Due) :
    sched.events = [t.matchEvent self clock e] ∧
      (t.matchEvent self clock e).cycle ≤ (clock.tick 1).cycles := by
  rcases h with ⟨rfl, -⟩ | ⟨he, hw, hev⟩
  · exact absurd hdue (hon hdue.1)
  · exact ⟨hev, (ready_iff_due hw (hon.of_event he hw)).2 hdue⟩

theorem Armed.ticked (h : t.Armed self clock e sched) (hon : (t.eventDriven e i).OnTime clock)
    (hdue : ¬ t.Due) :
    (∀ ev ∈ sched.events, ¬ ev.cycle ≤ (clock.tick 1).cycles) ∧
      (t.ticked clock).Armed self (clock.tick 1) e sched := by
  rcases h with ⟨rfl, hev⟩ | ⟨he, hw, hev⟩
  · exact ⟨by simp [hev], .inl ⟨rfl, hev⟩⟩
  · have hcount : (t.ticked clock).counter = t.counter + 1 := by
      simp [Timer.ticked, hw.1, counter]
    refine ⟨?_, .inr ⟨he, ⟨hw.1, ?_⟩, ?_⟩⟩
    · rw [hev]
      simpa using fun h => hdue ((ready_iff_due hw (hon.of_event he hw)).1 h)
    · rw [hcount]
      exact UInt32.not_le.1 fun h => hdue ⟨hw.1, h⟩
    · rw [hev, matchEvent_ticked hw]

theorem TickDriven.ticked (h : t.TickDriven i clock) :
    (t.ticked clock).TickDriven i (clock.tick 1) := by
  refine ⟨h.detached, h.noEvent, h.attached, rfl, h.resetsDisabled, h.line⟩

end Timer

end Drivers

end EFS
