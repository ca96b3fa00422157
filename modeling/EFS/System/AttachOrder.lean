import EFS.System.LinkedEvents

/-!
# A bus and its view

While the events of a bus are linked to its timers, an operation of the bus acts on its view
(`Board.busView`) as the same operation of `BusView`.  So boards that differ in the order of their
timers, and in the ids of the events, keep the same view.

## Main results

* `Board.Represents.apiCall`, `Board.Represents.attachTimer`, `Board.Represents.step` : each
  operation of the bus is that of its view.
-/

namespace EFS

namespace System

open EFS.Drivers

namespace Board

variable {T H : Type}

/-- The view of a board. -/
def busView (b : Board T H) : BusView T H where
  clock := b.clock
  interrupts := b.interrupts
  timers := b.timers
  timer r := (b.timer r).withoutEvent
  events := b.scheduler.pending

theorem trigger_eq {b : Board T H} {r : T} {o : Option UInt8} (h : ∀ id ∈ o, id.toNat < 32) :
    ∃ us, b.trigger r o =
      ({ b with interrupts := b.interrupts.raise o, triggered := us }, none) := by
  cases o with
  | none => exact ⟨b.triggered, rfl⟩
  | some id =>
    obtain ⟨ic, hic⟩ := b.interrupts.trigger_ok_iff.2 (h id rfl)
    have hraise : b.interrupts.raise (some id) = ic := by
      rw [Kernel.InterruptController.raise, hic]
      rfl
    exact ⟨r :: b.triggered, by rw [Board.trigger, hic, hraise]⟩

/-- The board has this view, its events are linked to its timers (with those of the batch that is
executed), and the interrupt lines of its timers exist. -/
structure Represents (b : Board T H) (batch : List (Event T)) (v : BusView T H) : Prop where
  view : b.busView = v
  linked : Linked b.timer (batch ++ b.scheduler.events)
  lines : v.LinesExist

variable [DecidableEq T] {b : Board T H} {batch batch' : List (Event T)} {v : BusView T H} {r : T}
  {t : Timer} {sched : EventScheduler T} {f : SimulationClock → Timer → Timer.Outcome}

/-- **An action of a timer** on the board and on its view. -/
theorem Represents.act (h : Represents b batch v) {o : Timer.Outcome}
    (ho : f v.clock (v.timer r) = o) (ha : Acts b batch' r o t sched)
    (hlines : ∀ id ∈ o.timer.line, id.toNat < 32) (hline : o.line = none ∨ o.line = o.timer.line) :
    ∃ b', (b.setTimer r t sched).trigger r o.line = (b', none) ∧
      Represents b' batch' (v.act f r) := by
  obtain rfl := h.view
  have hexists : ∀ id ∈ o.line, id.toNat < 32 := by
    rcases hline with hnone | hsome
    · simp [hnone]
    · rw [hsome]
      exact hlines
  obtain ⟨us, htrigger⟩ := trigger_eq (b := b.setTimer r t sched) (r := r) hexists
  refine ⟨_, htrigger, ?_, ha.linked, ?_⟩
  · have htimer : (fun u => (Function.update b.timer r t u).withoutEvent) =
        Function.update b.busView.timer r o.timer := by
      funext u
      by_cases hu : u = r
      · subst hu
        simpa using ha.timer
      · simp [busView, hu]
    rw [BusView.act, ho, ← htimer]
    exact congrArg (BusView.mk _ _ _ _) ha.events
  · intro u
    rw [BusView.act, ho]
    by_cases hu : u = r
    · subst hu
      simpa using hlines
    · simpa [hu] using h.lines u

theorem Represents.set (h : Represents b [] v) {o : Timer.Outcome}
    (ho : f v.clock (v.timer r) = o) (ha : Acts b [] r o t sched)
    (hlines : ∀ id ∈ o.timer.line, id.toNat < 32) (hline : o.line = none) :
    Represents (b.setTimer r t sched) [] (v.act f r) := by
  obtain ⟨b', htrigger, hb'⟩ := h.act ho ha hlines (.inl hline)
  rw [hline] at htrigger
  obtain rfl : b.setTimer r t sched = b' := congrArg Prod.fst htrigger
  exact hb'

/-- A call of a public function of timer `r`. -/
def apiCall (b : Board T H) (r : T) : Timer.ApiCall → Board T H
  | .op o =>
    b.setTimer r ((b.timer r).perform r b.clock b.scheduler o).1
      ((b.timer r).perform r b.clock b.scheduler o).2
  | .tick => (b.tickTimer r).1
  | .attachClock => b.setTimer r ((b.timer r).attachClock b.clock) b.scheduler
  | .detachClock => b.setTimer r (b.timer r).detachClock b.scheduler
  | .attachScheduler =>
    b.setTimer r ((b.timer r).attachScheduler r b.clock b.scheduler).1
      ((b.timer r).attachScheduler r b.clock b.scheduler).2
  | .detachScheduler => b.detachScheduler r

/-- A call that schedules an event gets an id that is valid and not that of an event of another
timer. -/
def CallIdUnique (b : Board T H) (r : T) : Timer.ApiCall → Prop
  | .op o => (b.timer r).scheduler = true → Schedules (b.timer r) o → NextIdUnique b.scheduler r
  | .attachScheduler => (b.timer r).Waiting → NextIdUnique b.scheduler r
  | .tick | .attachClock | .detachClock | .detachScheduler => True

instance (b : Board T H) (r : T) : DecidablePred (b.CallIdUnique r)
  | .op _ | .attachScheduler => inferInstanceAs (Decidable (_ → _))
  | .tick | .attachClock | .detachClock | .detachScheduler => inferInstanceAs (Decidable True)

section

variable (h : Represents b [] v)

include h

omit [DecidableEq T] in
theorem Represents.timer (r : T) : v.timer r = (b.timer r).withoutEvent := by
  rw [← h.view]
  rfl

omit [DecidableEq T] in
theorem Represents.line (r : T) : ∀ id ∈ (b.timer r).line, id.toNat < 32 := by
  have hlines := h.lines r
  rw [h.timer r] at hlines
  exact hlines

theorem Represents.kept (hid : t.scheduledEventId = (b.timer r).scheduledEventId)
    (hsched : t.scheduler = (b.timer r).scheduler) (hrun : t.running = (b.timer r).running)
    (hlines : ∀ id ∈ t.line, id.toNat < 32) (ho : f v.clock (v.timer r) = t.withoutEvent.kept) :
    Represents (b.setTimer r t b.scheduler) [] (v.act f r) := by
  refine h.set ho (.kept h.linked hid ?_ ⟨rfl, rfl⟩) hlines rfl
  rw [hid, hsched, hrun]
  intro h₀
  exact ⟨(h.linked.active r h₀).1, (h.linked.active r h₀).2.1⟩

theorem Represents.cancelled (hid : t.scheduledEventId = (b.timer r).scheduledEventId)
    (hsched : t.scheduler = (b.timer r).scheduler) :
    ∃ sched', t.cancelScheduledEvent b.scheduler = (t.withoutEvent, sched') ∧
      ∀ t' : Timer, t'.scheduledEventId = 0 → (∀ id ∈ t'.line, id.toNat < 32) →
        f v.clock (v.timer r) = t'.withoutEvent.cancelled →
        Represents (b.setTimer r t' sched') [] (v.act f r) := by
  have hattached (h₀ : t.scheduledEventId ≠ 0) : t.scheduler = true := by
    rw [hsched]
    exact (h.linked.active r (hid ▸ h₀)).1
  obtain ⟨sched', hcancel, hacts⟩ := Acts.cancelled h.linked hid hattached
  refine ⟨sched', hcancel, ?_⟩
  intro t' h₀ hlines ho
  exact h.set ho (hacts t' h₀ _ ⟨rfl, rfl⟩) hlines rfl

theorem Represents.updated (hid : t.scheduledEventId = (b.timer r).scheduledEventId)
    (hsched : t.scheduledEventId ≠ 0 → t.scheduler = true)
    (hunique : t.scheduler = true → t.Waiting → NextIdUnique b.scheduler r)
    (hlines : ∀ id ∈ t.line, id.toNat < 32)
    (ho : f v.clock (v.timer r) = t.withoutEvent.rescheduled b.clock) :
    Represents (b.setTimer r (t.updateScheduledEvent r b.clock b.scheduler).1
      (t.updateScheduledEvent r b.clock b.scheduler).2) [] (v.act f r) :=
  h.set ho (.updated h.linked hid hsched hunique ⟨rfl, rfl⟩) hlines rfl

/-- The calls of `Timer.Op`. -/
theorem Represents.perform (o : Timer.Op)
    (hid : ∀ id, o = .attachInterruptController id → id.toNat < 32)
    (hunique : (b.timer r).scheduler = true → Schedules (b.timer r) o →
      NextIdUnique b.scheduler r) :
    Represents (b.setTimer r ((b.timer r).perform r b.clock b.scheduler o).1
      ((b.timer r).perform r b.clock b.scheduler o).2) []
      (v.act (fun clock t => t.outcome clock (.op o)) r) := by
  have hlines := h.line r
  have hattached (h₀ : (b.timer r).scheduledEventId ≠ 0) : (b.timer r).scheduler = true :=
    (h.linked.active r h₀).1
  obtain rfl := h.view
  cases o with
  | start =>
    -- only the cycle that the timer counts from may change before its event is updated
    obtain ⟨c, hc⟩ := (b.timer r).enabled.exists_syncClock b.clock
    have hsync : (b.timer r).enabled.withoutEvent.syncClock b.clock =
        { (b.timer r).enabled with lastClockCycles := c }.withoutEvent := by
      rw [← hc, Timer.withoutEvent_syncClock]
    rw [Timer.perform, Timer.start, hc]
    refine h.updated rfl hattached (fun hsched hw => hunique hsched hw.2) hlines ?_
    exact congrArg (Timer.rescheduled b.clock) hsync
  | stop =>
    obtain ⟨sched', hcancel, hset⟩ := h.cancelled (t := (b.timer r).disabled) rfl rfl
    rw [Timer.perform, Timer.stop, hcancel]
    exact hset _ rfl hlines rfl
  | reset =>
    obtain ⟨sched', hcancel, hset⟩ := h.cancelled (t := (b.timer r).disabled) rfl rfl
    obtain ⟨c, hc⟩ := (b.timer r).disabled.withoutEvent.cleared.exists_syncClock b.clock
    rw [Timer.perform, Timer.reset, Timer.stop, hcancel]
    refine hset _ ?_ ?_ ?_
    · rw [hc]
      rfl
    · rw [hc]
      exact hlines
    · rw [Timer.withoutEvent_syncClock]
      rfl
  | setCompare value =>
    exact h.updated (t := { b.timer r with compareRegister := _ }) rfl hattached hunique hlines rfl
  | clearMatch => exact h.kept rfl rfl rfl hlines rfl
  | setAutoReset enable =>
    exact h.kept rfl rfl (Timer.running_setAutoReset enable) hlines rfl
  | setInterruptEnabled enable =>
    exact h.kept rfl rfl (Timer.running_setInterruptEnabled enable) hlines rfl
  | attachInterruptController id =>
    refine h.kept rfl rfl rfl ?_ rfl
    simpa [Timer.perform, Timer.attachInterruptController, Timer.line] using hid id rfl
  | detachInterruptController =>
    refine h.kept rfl rfl rfl ?_ rfl
    simp [Timer.perform, Timer.detachInterruptController, Timer.line]

/-- `timer->tick()`. -/
theorem Represents.tickTimer :
    ∃ b', b.tickTimer r = (b', none) ∧ Represents b' [] (v.act Timer.tickOutcome r) := by
  have htick := (b.timer r).tick_eq b.clock b.scheduler
  obtain ⟨hevent, htline, hline, hid, hactive⟩ :=
    (b.timer r).withoutEvent.tickOutcome_spec b.clock
  have hlines := h.line r
  obtain rfl := h.view
  rw [Board.tickTimer, htick]
  refine h.act (f := Timer.tickOutcome) rfl (.kept h.linked rfl ?_ ⟨?_, hevent⟩) ?_ ?_
  · intro h₀
    obtain ⟨hsched, hrun, -⟩ := h.linked.active r h₀
    exact ⟨(hactive hsched).1, (hactive hsched).2.trans hrun⟩
  · exact (Timer.withoutEvent_of_eq_zero hid _).symm
  · rw [htline]
    exact hlines
  · rw [htline]
    exact hline

/-- **A call** on a timer of the board is the same call on its view. -/
theorem Represents.apiCall (k : Timer.ApiCall)
    (hid : ∀ id, k = .op (.attachInterruptController id) → id.toNat < 32)
    (hunique : b.CallIdUnique r k) :
    Represents (b.apiCall r k) [] (v.act (fun clock t => t.outcome clock k) r) := by
  have hlines := h.line r
  cases k with
  | op o => exact h.perform o (fun id ho => hid id (congrArg _ ho)) hunique
  | tick =>
    obtain ⟨b', htick, hb'⟩ := h.tickTimer (r := r)
    rw [Board.apiCall, htick]
    exact hb'
  | attachClock =>
    obtain rfl := h.view
    exact h.kept rfl rfl rfl hlines rfl
  | detachClock =>
    obtain rfl := h.view
    exact h.kept rfl rfl rfl hlines rfl
  | attachScheduler =>
    obtain rfl := h.view
    exact h.updated (t := { b.timer r with scheduler := true }) rfl (fun _ => rfl)
      (fun _ => hunique) hlines rfl
  | detachScheduler =>
    obtain rfl := h.view
    obtain ⟨sched', hcancel, hset⟩ := h.cancelled (t := b.timer r) rfl rfl
    rw [Board.apiCall, Board.detachScheduler, Timer.detachScheduler, hcancel]
    exact hset _ rfl hlines rfl

/-- `attachTimer`. -/
theorem Represents.attachTimer
    (hunique : r ∉ b.timers → (b.timer r).Waiting → NextIdUnique b.scheduler r) :
    Represents (b.attachTimer r) [] (v.attachTimer r) := by
  have hlines := h.line r
  obtain rfl := h.view
  by_cases hmem : r ∈ b.timers
  · have hkept : b.busView.attachTimer r = b.busView := if_pos hmem
    rw [Board.attachTimer, if_pos hmem, hkept]
    exact h
  · have hattached := h.updated (f := Timer.attachOutcome)
      (t := { (b.timer r).attachClock b.clock with scheduler := true }) rfl (fun _ => rfl)
      (fun _ => hunique hmem) hlines rfl
    have hview : b.busView.attachTimer r =
        { b.busView.act Timer.attachOutcome r with timers := r ::ₘ b.busView.timers } := if_neg hmem
    rw [Board.attachTimer, if_neg hmem, hview]
    refine ⟨?_, hattached.linked, hattached.lines⟩
    rw [← hattached.view]
    have htimers : ((b.timers ++ [r] : List T) : Multiset T) = r ::ₘ b.timers :=
      Multiset.coe_eq_coe.2 (List.perm_append_singleton _ _)
    exact congrArg (fun ts => BusView.mk _ _ ts _ _) htimers

/-- The loop of `tickTimers`. -/
theorem Represents.tickEach (rs : List T) :
    ∃ b', b.tickEach rs = (b', none) ∧
      Represents b' [] (rs.foldl (BusView.act Timer.tickOutcome) v) := by
  induction rs generalizing b v with
  | nil => exact ⟨b, rfl, h⟩
  | cons r rs ih =>
    obtain ⟨b₁, htick, hb₁⟩ := h.tickTimer (r := r)
    obtain ⟨b₂, hticks, hb₂⟩ := ih hb₁
    refine ⟨b₂, ?_, hb₂⟩
    rw [Board.tickEach, htick]
    exact hticks

theorem Represents.tickTimers :
    ∃ b', b.tickTimers = (b', none) ∧ Represents b' [] v.tickTimers := by
  have hclock : Represents { b with clock := b.clock.tick 1 } []
      { v with clock := v.clock.tick 1 } := by
    obtain rfl := h.view
    exact ⟨rfl, h.linked, h.lines⟩
  obtain ⟨b', hticks, hb'⟩ := hclock.tickEach b.timers
  refine ⟨b', hticks, ?_⟩
  obtain rfl := h.view
  exact hb'

end

/-! ### Executing the events -/

/-- One callback: the match of the timer whose event comes first. -/
theorem Represents.matchTimer {ev : Event T} (h : Represents b (ev :: batch) v) :
    ∃ r b', ev.callback = some r ∧ b.matchTimer r = (b', none) ∧
      Represents b' batch (v.act (fun _ => Timer.matchOutcome) r) := by
  obtain ⟨r, hcallback, hid, h₀⟩ := h.linked.known ev List.mem_cons_self
  obtain ⟨hsched, hrun, -⟩ := h.linked.active r (hid ▸ h₀)
  have hlines : ∀ id ∈ (b.timer r).line, id.toNat < 32 := by
    obtain rfl := h.view
    exact h.lines r
  -- the event has left the scheduler, so that there is nothing to cancel
  obtain ⟨sched', hcancel, -, hperm⟩ :=
    Linked.cancelScheduledEvent (ev :: batch) (t := (b.timer r).matched.disabled) h.linked rfl
      fun _ => hsched
  have houtcome : Timer.matchOutcome (v.timer r) =
      ⟨(b.timer r).matched.disabled.withoutEvent, .replace none, (b.timer r).line⟩ := by
    obtain rfl := h.view
    exact if_pos hrun
  have hmatch : (b.timer r).handleCompareMatch b.scheduler =
      ((b.timer r).matched.disabled.withoutEvent, sched', (b.timer r).line) := by
    rw [Timer.handleCompareMatch, if_neg (not_not.2 hrun), Timer.stop, hcancel]
  -- no other event of the batch is one of this timer
  have hothers : (batch ++ sched'.events).Perm
      ((ev :: batch ++ b.scheduler.events).filter fun ev => ev.callback ≠ some r) := by
    have hrest : ∀ other ∈ batch, other.callback ≠ some r := by
      intro other hother hc
      have hmem : other ∈ ev :: batch ++ b.scheduler.events := by simp [hother]
      refine (List.nodup_cons.1 h.linked.nodup).1 ?_
      rw [hid, ← h.linked.id_eq hmem hc]
      exact List.mem_map_of_mem (List.mem_append_left _ hother)
    rw [List.filter_append, List.filter_cons_of_neg (by simp [hcallback]),
      List.filter_eq_self.2 (by simpa using hrest)]
    exact hperm.append_left batch
  have hacts : Acts b batch r
      ⟨(b.timer r).matched.disabled.withoutEvent, .replace none, (b.timer r).line⟩
      (b.timer r).matched.disabled.withoutEvent sched' :=
    ⟨rfl, EventScheduler.pending_others hperm, h.linked.others hothers rfl⟩
  obtain ⟨b', htrigger, hb'⟩ :=
    h.act (f := fun _ => Timer.matchOutcome) houtcome hacts hlines (.inr rfl)
  refine ⟨r, b', hcallback, ?_, hb'⟩
  rw [Board.matchTimer, hmatch]
  exact htrigger

theorem Represents.runBatch (h : Represents b batch v) :
    ∃ b', b.runBatch batch = (b', none) ∧ Represents b' []
      ((batch.filterMap Event.callback).foldl (BusView.act fun _ => Timer.matchOutcome) v) := by
  induction batch generalizing b v with
  | nil => exact ⟨b, rfl, h⟩
  | cons ev batch ih =>
    obtain ⟨r, b₁, hcallback, hmatch, hb₁⟩ := h.matchTimer
    obtain ⟨b₂, hrun, hb₂⟩ := ih hb₁
    refine ⟨b₂, ?_, ?_⟩
    · simp only [Board.runBatch, hcallback, hmatch]
      exact hrun
    · rw [List.filterMap_cons_some hcallback]
      exact hb₂

theorem Represents.executeReadyEvents (h : Represents b [] v) (c : UInt64) :
    ∃ b', b.executeReadyEvents c = (b', none) ∧ Represents b' [] (v.executeReadyEvents c) := by
  obtain rfl := h.view
  have hready := b.scheduler.map_fst_pending_filter c
  have hleft := b.scheduler.pending_takeReady c
  have htaken : Represents { b with scheduler := (b.scheduler.takeReady c).2 }
      (b.scheduler.takeReady c).1
      { b.busView with events := b.busView.events.filter fun p => ¬ p.2 ≤ c } :=
    ⟨congrArg (BusView.mk _ _ _ _) hleft, h.linked.perm (b.scheduler.perm_takeReady_events c),
      h.lines⟩
  obtain ⟨b', hrun, hb'⟩ := htaken.runBatch
  refine ⟨b', (executeReadyEvents_eq c).trans hrun, ?_⟩
  rw [BusView.executeReadyEvents, show b.busView.events = b.scheduler.pending from rfl, hready]
  exact hb'

/-- **A step of the CPU** is a step of the view. -/
theorem Represents.step {c : Cpu.CPU T H} (h : Represents c.bus [] v) (hpower : c.power = .on) :
    c.step.1.power = c.power ∧ Represents c.step.1.bus [] v.step := by
  obtain ⟨b₁, htick, hb₁⟩ := h.tickTimers
  obtain ⟨b₂, hready, hb₂⟩ := hb₁.executeReadyEvents b₁.clock.cycles
  have hclock : b₁.clock = v.tickTimers.clock := congrArg BusView.clock hb₁.view
  have hview : b₂.busView = v.tickTimers.executeReadyEvents v.tickTimers.clock.cycles := by
    rw [hb₂.view, hclock]
  rw [hclock] at hb₂
  rw [Cpu.CPU.step_eq hpower htick hready, BusView.step]
  refine ⟨rfl, ?_, hb₂.linked, hb₂.lines⟩
  rw [← hview]
  rfl

end Board

end System

end EFS
