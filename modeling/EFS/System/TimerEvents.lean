import EFS.Drivers.EventDriven
import EFS.Drivers.Operations
import EFS.System.SystemBus

/-!
# The events of the timers on a bus

The pending event of a timer says again what its registers and the clock say.  `Coupled` is the
relation between them: the pool of events holds the match event of each timer that knows an event,
and nothing else.  Between two operations the pool is that of the scheduler and each of these timers
waits for its match (`Synced`); during `executeReadyEvents` the events of the batch belong to the
pool as well (`Executing`).
-/

namespace EFS

namespace System

open EFS.Drivers EFS.Mmio

/-! ### Events and timers -/

section

variable {T : Type}

/-- The match event that a timer knows. -/
def ownEvent (t : Timer) (r : T) (clock : SimulationClock) : Event T :=
  t.matchEvent r clock t.scheduledEventId

/-- The pool holds the match event of each timer that knows one, and nothing else. -/
structure Coupled (timer : T → Timer) (clock : SimulationClock) (pool : List (Event T)) :
    Prop where
  nodup : (pool.map Event.id).Nodup
  mem_pool : ∀ ev, ev ∈ pool ↔
    ∃ r, (timer r).scheduledEventId ≠ 0 ∧ ev = ownEvent (timer r) r clock

namespace Coupled

variable {timer : T → Timer} {clock : SimulationClock} {pool pool' : List (Event T)} {r u : T}

theorem own_mem (h : Coupled timer clock pool) (hr : (timer r).scheduledEventId ≠ 0) :
    ownEvent (timer r) r clock ∈ pool :=
  (h.mem_pool _).2 ⟨r, hr, rfl⟩

theorem id_ne_zero {ev : Event T} (h : Coupled timer clock pool) (hev : ev ∈ pool) : ev.id ≠ 0 := by
  obtain ⟨r, hr, rfl⟩ := (h.mem_pool ev).1 hev
  exact hr

theorem eq_of_id_eq (h : Coupled timer clock pool) (hr : (timer r).scheduledEventId ≠ 0)
    (hid : (timer u).scheduledEventId = (timer r).scheduledEventId) : u = r := by
  have heq : ownEvent (timer u) u clock = ownEvent (timer r) r clock :=
    List.inj_on_of_nodup_map h.nodup (h.own_mem (hid ▸ hr)) (h.own_mem hr) hid
  exact Option.some.inj (congrArg Event.callback heq)

theorem perm (h : Coupled timer clock pool) (hperm : pool'.Perm pool) :
    Coupled timer clock pool' :=
  ⟨(hperm.map _).nodup_iff.2 h.nodup, fun ev => hperm.mem_iff.trans (h.mem_pool ev)⟩

/-- A timer is replaced, and its event with it. -/
theorem replace [DecidableEq T] {t : Timer} (h : Coupled timer clock pool)
    (hnodup : (pool'.map Event.id).Nodup)
    (hmem : ∀ ev, ev ∈ pool' ↔ (ev ∈ pool ∧ ev.id ≠ (timer r).scheduledEventId) ∨
      t.scheduledEventId ≠ 0 ∧ ev = ownEvent t r clock) :
    Coupled (Function.update timer r t) clock pool' := by
  refine ⟨hnodup, fun ev => (hmem ev).trans ⟨?_, ?_⟩⟩
  · rintro (⟨hev, hne⟩ | ⟨ht, rfl⟩)
    · obtain ⟨u, hu, rfl⟩ := (h.mem_pool ev).1 hev
      have hur : u ≠ r := fun he => hne (he ▸ rfl)
      exact ⟨u, by simpa [hur] using hu, by simp [hur]⟩
    · exact ⟨r, by simpa using ht, by simp⟩
  · rintro ⟨u, hu, rfl⟩
    by_cases hur : u = r
    · subst hur
      exact .inr ⟨by simpa using hu, by simp⟩
    · simp only [Function.update_of_ne hur] at hu ⊢
      refine .inl ⟨h.own_mem hu, ?_⟩
      intro hid
      exact hur (h.eq_of_id_eq (hid ▸ hu) hid)

theorem mem_pool_split (h : Coupled timer clock pool) (r : T) (ev : Event T) :
    ev ∈ pool ↔ (ev ∈ pool ∧ ev.id ≠ (timer r).scheduledEventId) ∨
      (timer r).scheduledEventId ≠ 0 ∧ ev = ownEvent (timer r) r clock := by
  constructor
  · intro hev
    by_cases hid : ev.id = (timer r).scheduledEventId
    · have hr : (timer r).scheduledEventId ≠ 0 := hid ▸ h.id_ne_zero hev
      exact .inr ⟨hr, List.inj_on_of_nodup_map h.nodup hev (h.own_mem hr) hid⟩
    · exact .inl ⟨hev, hid⟩
  · rintro (⟨hev, -⟩ | ⟨hr, rfl⟩)
    · exact hev
    · exact h.own_mem hr

/-- An event with the callback of a timer is the one that the timer knows. -/
theorem eq_own {ev : Event T} (h : Coupled timer clock pool) (hev : ev ∈ pool)
    (hcallback : ev.callback = some r) :
    (timer r).scheduledEventId ≠ 0 ∧ ev = ownEvent (timer r) r clock := by
  obtain ⟨u, hu, rfl⟩ := (h.mem_pool ev).1 hev
  obtain rfl : u = r := Option.some.inj hcallback
  exact ⟨hu, rfl⟩

/-- The first event of the pool is consumed, and the timer forgets it. -/
theorem consume [DecidableEq T] {t : Timer}
    (h : Coupled timer clock (ownEvent (timer r) r clock :: pool)) (ht : t.scheduledEventId = 0) :
    Coupled (Function.update timer r t) clock pool := by
  obtain ⟨hnot, hnodup⟩ := List.nodup_cons.1 h.nodup
  refine h.replace hnodup fun ev =>
    ⟨fun hev => .inl ⟨List.mem_cons_of_mem _ hev, ?_⟩, ?_⟩
  · intro hid
    exact hnot (List.mem_map.2 ⟨ev, hev, hid⟩)
  · rintro (⟨hev, hne⟩ | ⟨h₀, -⟩)
    · exact (List.mem_cons.1 hev).resolve_left fun he => hne (he ▸ rfl)
    · exact absurd ht h₀

theorem congr {timer' : T → Timer} {clock' : SimulationClock} (h : Coupled timer clock pool)
    (hid : ∀ r, (timer' r).scheduledEventId = (timer r).scheduledEventId)
    (hown : ∀ r, (timer r).scheduledEventId ≠ 0 →
      ownEvent (timer' r) r clock' = ownEvent (timer r) r clock) :
    Coupled timer' clock' pool := by
  refine ⟨h.nodup, fun ev => (h.mem_pool ev).trans (exists_congr ?_)⟩
  intro r
  rw [hid]
  exact and_congr_right fun hr => by rw [hown r hr]

end Coupled

/-! ### Cancelling and scheduling -/

variable {timer : T → Timer} {clock : SimulationClock} {sched : EventScheduler T} {r : T}
  {t : Timer}

/-- Cancelling removes the event of timer `r`, and no other. -/
theorem cancelScheduledEvent_spec (h : Coupled timer clock sched.events)
    (hid : t.scheduledEventId = (timer r).scheduledEventId)
    (hsched : t.scheduledEventId ≠ 0 → t.scheduler = true) :
    ∃ sched', t.cancelScheduledEvent sched = ({ t with scheduledEventId := 0 }, sched') ∧
      sched'.nextId = sched.nextId ∧ sched'.ids.Nodup ∧
      ∀ ev, ev ∈ sched'.events ↔ ev ∈ sched.events ∧ ev.id ≠ (timer r).scheduledEventId := by
  by_cases h₀ : t.scheduledEventId = 0
  · refine ⟨sched, ?_, rfl, h.nodup, ?_⟩
    · rw [Timer.cancelScheduledEvent, if_neg fun hc => hc.1 h₀, ← h₀]
    · intro ev
      rw [← hid, h₀]
      exact ⟨fun hev => ⟨hev, h.id_ne_zero hev⟩, And.left⟩
  · refine ⟨(sched.cancel t.scheduledEventId).2, ?_, sched.cancel_nextId _,
      sched.nodup_cancel h.nodup _, ?_⟩
    · rw [Timer.cancelScheduledEvent, if_pos ⟨h₀, hsched h₀⟩]
    · intro ev
      rw [← hid]
      exact sched.mem_cancel_iff h.nodup h₀

theorem scheduleMatch_of_waiting (hclock : t.clock = true) (hsched : t.scheduler = true)
    (hw : t.Waiting) :
    { t with scheduledEventId := 0 }.scheduleMatch r clock sched =
      ({ t with scheduledEventId := sched.nextId },
        ⟨sched.nextId + 1, sched.events ++ [t.matchEvent r clock sched.nextId]⟩) := by
  have hattached (e : EventId) :
      { t with scheduledEventId := e } = t.eventDriven e t.interruptId := by
    simp [Timer.eventDriven, hsched]
  rw [hattached, hattached, Timer.scheduleMatch_eventDriven hclock, if_pos hw, Timer.withMatch,
    if_pos hw]

theorem scheduleMatch_of_not_waiting (hclock : t.scheduler = true → t.clock = true)
    (hw : ¬ (t.scheduler = true ∧ t.Waiting)) :
    { t with scheduledEventId := 0 }.scheduleMatch r clock sched =
      ({ t with scheduledEventId := 0 }, sched) := by
  by_cases hsched : t.scheduler = true
  · have hattached : { t with scheduledEventId := 0 } = t.eventDriven 0 t.interruptId := by
      simp [Timer.eventDriven, hsched]
    have hnot : ¬ t.Waiting := fun h => hw ⟨hsched, h⟩
    rw [hattached, Timer.scheduleMatch_eventDriven (hclock hsched), if_neg hnot, Timer.withMatch,
      if_neg hnot]
  · rw [Timer.scheduleMatch, if_pos (.inr hsched)]

/-- The id that the scheduler hands out next is valid, and no event of a timer other than `r` has
it. -/
def NextIdUnique (sched : EventScheduler T) (r : T) : Prop :=
  sched.nextId ≠ 0 ∧ ∀ ev ∈ sched.events, ev.id = sched.nextId → ev.callback = some r

instance [DecidableEq T] : Decidable (NextIdUnique sched r) := inferInstanceAs (Decidable (_ ∧ _))

/-- Updating replaces the event of timer `r` by its match, if it waits for one. -/
theorem updateScheduledEvent_spec (h : Coupled timer clock sched.events)
    (hid : t.scheduledEventId = (timer r).scheduledEventId)
    (hsched : t.scheduledEventId ≠ 0 → t.scheduler = true)
    (hclock : t.scheduler = true → t.clock = true)
    (hunique : t.scheduler = true → t.Waiting → NextIdUnique sched r) :
    ∃ e sched', t.updateScheduledEvent r clock sched = ({ t with scheduledEventId := e }, sched') ∧
      sched'.ids.Nodup ∧ (e ≠ 0 → t.scheduler = true ∧ t.Waiting) ∧
      ∀ ev, ev ∈ sched'.events ↔ (ev ∈ sched.events ∧ ev.id ≠ (timer r).scheduledEventId) ∨
        e ≠ 0 ∧ ev = t.matchEvent r clock e := by
  obtain ⟨cancelled, hcancel, hnext, hnodup, hmem⟩ := cancelScheduledEvent_spec h hid hsched
  rw [Timer.updateScheduledEvent, hcancel]
  by_cases hw : t.scheduler = true ∧ t.Waiting
  · obtain ⟨hnonzero, hother⟩ := hunique hw.1 hw.2
    rw [scheduleMatch_of_waiting (hclock hw.1) hw.1 hw.2, hnext]
    refine ⟨sched.nextId, _, rfl, ?_, fun _ => hw, ?_⟩
    · -- the new id is not that of an event that is left
      have hnew : sched.nextId ∉ cancelled.ids := by
        intro hin
        obtain ⟨ev, hev, heid⟩ := List.mem_map.1 hin
        obtain ⟨hev, hne⟩ := (hmem ev).1 hev
        obtain ⟨-, rfl⟩ := h.eq_own hev (hother ev hev heid)
        exact hne rfl
      rw [EventScheduler.ids, List.map_append]
      exact hnodup.append (List.nodup_singleton _) (by simpa [Timer.matchEvent] using hnew)
    · intro ev
      rw [List.mem_append, List.mem_singleton, hmem]
      simp [hnonzero]
  · refine ⟨0, cancelled, scheduleMatch_of_not_waiting hclock hw, hnodup, fun h => absurd rfl h, ?_⟩
    intro ev
    simp [hmem]

theorem running_stop : (t.stop sched).1.running = false := by
  have hctrl : (t.stop sched).1.ctrlRegister = t.disabled.ctrlRegister :=
    congrFun (t.disabled.register_cancelScheduledEvent sched) .ctrl
  rw [Timer.running, hctrl]
  exact Timer.running_disabled

theorem running_reset (h : t.ctrlRegister.initialValue &&& ctrlEnableBit = 0) :
    (t.reset clock sched).1.running = false := by
  have hctrl : (t.reset clock sched).1.ctrlRegister = t.ctrlRegister.reset :=
    t.register_reset clock sched .ctrl
  simp [Timer.running, hctrl, h]

end

/-- The call schedules an event for a timer that is attached. -/
def Schedules (t : Timer) : Timer.Op → Prop
  | .start => t.counter < t.compare
  | .setCompare value => t.running = true ∧ t.counter < value
  | _ => False

instance (t : Timer) : DecidablePred (Schedules t)
  | .start => inferInstanceAs (Decidable (_ < _))
  | .setCompare _ => inferInstanceAs (Decidable (_ ∧ _))
  | .stop | .reset | .clearMatch | .setAutoReset _ | .setInterruptEnabled _
  | .attachInterruptController _ | .detachInterruptController => inferInstanceAs (Decidable False)

/-! ### The timers on a bus -/

/-- A timer on a bus with clock `clock`, attached to it or not.  Only a running timer has to be in
step with the clock: a reset of the bus leaves the timers behind. -/
structure OnBus (t : Timer) (attached : Prop) (clock : SimulationClock) : Prop where
  scheduler_iff : t.scheduler = true ↔ attached
  clock_iff : t.clock = true ↔ attached
  inStep : attached → t.running = true → t.lastClockCycles = clock.cycles
  resetsDisabled : t.ctrlRegister.initialValue &&& ctrlEnableBit = 0
  line : ∀ id ∈ t.line, id.toNat < 32

namespace OnBus

variable {t t' : Timer} {attached : Prop} {clock clock' : SimulationClock}

theorem new : OnBus .new False clock :=
  ⟨by simp [Timer.new], by simp [Timer.new], False.elim, rfl, by simp [Timer.new, Timer.line]⟩

/-- A change of the registers and of the event that a timer knows. -/
theorem of_eq (h : OnBus t attached clock)
    (ht : t' = { t with
      ctrlRegister := t'.ctrlRegister, countRegister := t'.countRegister
      compareRegister := t'.compareRegister, statusRegister := t'.statusRegister
      scheduledEventId := t'.scheduledEventId })
    (hreset : t'.ctrlRegister.initialValue = t.ctrlRegister.initialValue)
    (hrun : t'.running = true → t.running = true) : OnBus t' attached clock := by
  refine ⟨?_, ?_, fun ha hr => ?_, hreset ▸ h.resetsDisabled, ?_⟩ <;> rw [ht]
  · exact h.scheduler_iff
  · exact h.clock_iff
  · exact h.inStep ha (hrun hr)
  · exact h.line

/-- The same, where the timer may start to run because it is synchronized with the clock. -/
theorem syncClock (h : OnBus t attached clock)
    (ht : t' = { t with
      ctrlRegister := t'.ctrlRegister, countRegister := t'.countRegister
      compareRegister := t'.compareRegister, statusRegister := t'.statusRegister
      scheduledEventId := t'.scheduledEventId })
    (hreset : t'.ctrlRegister.initialValue = t.ctrlRegister.initialValue) :
    OnBus (t'.syncClock clock) attached clock := by
  have hclock : t'.clock = t.clock := by rw [ht]
  rw [Timer.syncClock]
  split_ifs with hc
  · refine ⟨?_, ?_, fun _ _ => rfl, hreset ▸ h.resetsDisabled, ?_⟩ <;> rw [ht]
    · exact h.scheduler_iff
    · exact h.clock_iff
    · exact h.line
  · have hnot : ¬ attached := fun ha => hc (hclock.trans (h.clock_iff.2 ha))
    refine ⟨?_, ?_, fun ha => absurd ha hnot, hreset ▸ h.resetsDisabled, ?_⟩ <;> rw [ht]
    · exact h.scheduler_iff
    · exact h.clock_iff
    · exact h.line

theorem ticked (h : OnBus t attached clock) : OnBus (t.ticked clock) attached (clock.tick 1) :=
  ⟨h.scheduler_iff, h.clock_iff, fun _ _ => rfl, h.resetsDisabled, h.line⟩

theorem of_not_attached (h : OnBus t attached clock) (hnot : ¬ attached) :
    OnBus t attached clock' :=
  ⟨h.scheduler_iff, h.clock_iff, fun ha => absurd ha hnot, h.resetsDisabled, h.line⟩

end OnBus

namespace Board

variable {T H : Type}

/-- Between two operations, each pending event is the match of a timer that is attached and waits
for it. -/
structure Synced (b : Board T H) : Prop where
  timers : b.timers.Nodup
  onBus : ∀ r, OnBus (b.timer r) (r ∈ b.timers) b.clock
  waiting : ∀ r, (b.timer r).scheduledEventId ≠ 0 → r ∈ b.timers ∧ (b.timer r).Waiting
  events : Coupled b.timer b.clock b.scheduler.events

variable [DecidableEq T] {b : Board T H} {r : T} {t t' : Timer} {ts : List T}
  {sched' : EventScheduler T}

/-- Timer `r` and its event are replaced, and it may be attached or detached. -/
theorem Synced.replace (h : b.Synced) (hts : ts.Nodup)
    (hother : ∀ u, u ≠ r → (u ∈ ts ↔ u ∈ b.timers)) (hbus : OnBus t (r ∈ ts) b.clock)
    (hwait : t.scheduledEventId ≠ 0 → r ∈ ts ∧ t.Waiting)
    (hevents : Coupled (Function.update b.timer r t) b.clock sched'.events) :
    { b.setTimer r t sched' with timers := ts }.Synced where
  timers := hts
  onBus u := by
    by_cases hu : u = r
    · subst hu
      simpa [setTimer] using hbus
    · simpa [setTimer, hu, hother u hu] using h.onBus u
  waiting u := by
    by_cases hu : u = r
    · subst hu
      simpa [setTimer] using hwait
    · simpa [setTimer, hu, hother u hu] using h.waiting u
  events := hevents

/-- The event of timer `r` is cancelled. -/
theorem Synced.cancel (h : b.Synced) (hid : t.scheduledEventId = (b.timer r).scheduledEventId)
    (hsched : t.scheduler = (b.timer r).scheduler) :
    ∃ sched', t.cancelScheduledEvent b.scheduler = ({ t with scheduledEventId := 0 }, sched') ∧
      ∀ {ts : List T} {u : Timer}, ts.Nodup → (∀ v, v ≠ r → (v ∈ ts ↔ v ∈ b.timers)) →
        OnBus u (r ∈ ts) b.clock → u.scheduledEventId = 0 →
        { b.setTimer r u sched' with timers := ts }.Synced := by
  have hattached : t.scheduledEventId ≠ 0 → t.scheduler = true := by
    intro h₀
    rw [hsched]
    exact (h.onBus r).scheduler_iff.2 (h.waiting r (hid ▸ h₀)).1
  obtain ⟨sched', hcancel, -, hnodup, hmem⟩ := cancelScheduledEvent_spec h.events hid hattached
  refine ⟨sched', hcancel, ?_⟩
  intro ts u hts hother hbus hu
  refine h.replace hts hother hbus (fun h₀ => absurd hu h₀) (h.events.replace hnodup ?_)
  intro ev
  simp [hmem, hu]

theorem Synced.update (h : b.Synced) (hid : t.scheduledEventId = (b.timer r).scheduledEventId)
    (hsched : t.scheduledEventId ≠ 0 → t.scheduler = true) (hts : ts.Nodup)
    (hother : ∀ u, u ≠ r → (u ∈ ts ↔ u ∈ b.timers)) (hbus : OnBus t (r ∈ ts) b.clock)
    (hunique : r ∈ ts → t.Waiting → NextIdUnique b.scheduler r) :
    { b.setTimer r (t.updateScheduledEvent r b.clock b.scheduler).1
      (t.updateScheduledEvent r b.clock b.scheduler).2 with timers := ts }.Synced := by
  obtain ⟨e, sched', hupdate, hnodup, hwait, hmem⟩ :=
    updateScheduledEvent_spec h.events hid hsched
      (fun ha => hbus.clock_iff.2 (hbus.scheduler_iff.1 ha))
      (fun ha => hunique (hbus.scheduler_iff.1 ha))
  rw [hupdate]
  refine h.replace hts hother (hbus.of_eq rfl rfl id) ?_ (h.events.replace hnodup hmem)
  intro h₀
  exact (hwait h₀).imp_left hbus.scheduler_iff.1

theorem Synced.keep (h : b.Synced) (hbus : OnBus t (r ∈ b.timers) b.clock)
    (hid : t.scheduledEventId = (b.timer r).scheduledEventId)
    (hrun : t.running = (b.timer r).running) (hcount : t.counter = (b.timer r).counter)
    (hcompare : t.compare = (b.timer r).compare) : (b.setTimer r t b.scheduler).Synced := by
  have hwaiting : t.Waiting ↔ (b.timer r).Waiting := by
    simp [Timer.Waiting, hrun, hcount, hcompare]
  have hown : ownEvent t r b.clock = ownEvent (b.timer r) r b.clock := by
    simp [ownEvent, Timer.matchEvent, hid, hcount, hcompare]
  refine h.replace h.timers (fun _ _ => .rfl) hbus ?_ (h.events.replace h.events.nodup ?_)
  · rw [hid, hwaiting]
    exact h.waiting r
  · intro ev
    rw [hid, hown]
    exact h.events.mem_pool_split r ev

/-! ### Calls -/

theorem Synced.setCtrl {ctrl : UInt32} (h : b.Synced)
    (hctrl : ctrl &&& ctrlEnableBit = (b.timer r).ctrlRegister.read &&& ctrlEnableBit) :
    (b.setTimer r { b.timer r with ctrlRegister := (b.timer r).ctrlRegister.write ctrl }
      b.scheduler).Synced := by
  have hrun : { b.timer r with ctrlRegister := (b.timer r).ctrlRegister.write ctrl }.running =
      (b.timer r).running := by
    simp [Timer.running, hctrl]
  exact h.keep ((h.onBus r).of_eq rfl rfl fun hr => hrun ▸ hr) rfl hrun rfl rfl

/-- A call on timer `r`. -/
theorem Synced.perform (h : b.Synced) (o : Timer.Op)
    (hid : ∀ id, o = .attachInterruptController id → id.toNat < 32)
    (hunique : r ∈ b.timers → Schedules (b.timer r) o → NextIdUnique b.scheduler r) :
    (b.setTimer r ((b.timer r).perform r b.clock b.scheduler o).1
      ((b.timer r).perform r b.clock b.scheduler o).2).Synced := by
  have hbus := h.onBus r
  have hattached : (b.timer r).scheduledEventId ≠ 0 → (b.timer r).scheduler = true :=
    fun h₀ => hbus.scheduler_iff.2 (h.waiting r h₀).1
  cases o with
  | start =>
    -- the event is updated for the timer that is enabled and in step with the clock
    let t := (b.timer r).enabled.syncClock b.clock
    have hsame : t.scheduledEventId = (b.timer r).scheduledEventId ∧
        t.scheduler = (b.timer r).scheduler ∧ t.counter = (b.timer r).counter ∧
        t.compare = (b.timer r).compare := by
      unfold t Timer.syncClock
      split_ifs <;> exact ⟨rfl, rfl, rfl, rfl⟩
    obtain ⟨hid', hsched, hcount, hcompare⟩ := hsame
    refine h.update (t := t) hid' (by rwa [hid', hsched]) h.timers (fun _ _ => .rfl)
      (hbus.syncClock rfl rfl) fun hmem hw => hunique hmem ?_
    rw [Schedules, ← hcount, ← hcompare]
    exact hw.2
  | stop =>
    obtain ⟨sched', hcancel, hsynced⟩ := h.cancel (t := (b.timer r).disabled) rfl rfl
    rw [Timer.perform, Timer.stop, hcancel]
    exact hsynced h.timers (fun _ _ => .rfl)
      (hbus.of_eq rfl rfl fun hrun => absurd hrun (by simp [Timer.running, Timer.disabled])) rfl
  | reset =>
    obtain ⟨sched', hcancel, hsynced⟩ := h.cancel (t := (b.timer r).disabled) rfl rfl
    rw [Timer.perform, Timer.reset, Timer.stop, hcancel]
    refine hsynced h.timers (fun _ _ => .rfl) (hbus.syncClock rfl rfl) ?_
    rw [Timer.syncClock]
    split_ifs <;> rfl
  | setCompare value =>
    exact h.update (t := { b.timer r with compareRegister := _ }) rfl hattached h.timers
      (fun _ _ => .rfl) (hbus.of_eq rfl rfl id) hunique
  | clearMatch => exact h.keep (hbus.of_eq rfl rfl id) rfl rfl rfl rfl
  | setAutoReset enable =>
    cases enable with
    | false => exact h.setCtrl (and_not_and_bit (by decide))
    | true => exact h.setCtrl (or_and_bit (by decide))
  | setInterruptEnabled enable =>
    cases enable with
    | false => exact h.setCtrl (and_not_and_bit (by decide))
    | true => exact h.setCtrl (or_and_bit (by decide))
  | attachInterruptController id =>
    have hline : ∀ line ∈ ((b.timer r).attachInterruptController id).line, line.toNat < 32 := by
      simpa [Timer.attachInterruptController, Timer.line] using hid id rfl
    exact h.keep ⟨hbus.scheduler_iff, hbus.clock_iff, hbus.inStep, hbus.resetsDisabled, hline⟩
      rfl rfl rfl rfl
  | detachInterruptController =>
    have hline : ∀ line ∈ (b.timer r).detachInterruptController.line, line.toNat < 32 := by
      simp [Timer.detachInterruptController, Timer.line]
    exact h.keep ⟨hbus.scheduler_iff, hbus.clock_iff, hbus.inStep, hbus.resetsDisabled, hline⟩
      rfl rfl rfl rfl

/-! ### Attaching and detaching -/

theorem Synced.attachTimer (h : b.Synced)
    (hunique : r ∉ b.timers → (b.timer r).Waiting → NextIdUnique b.scheduler r) :
    (b.attachTimer r).Synced := by
  rw [Board.attachTimer]
  split_ifs with hmem
  · exact h
  · have hbus := h.onBus r
    have hnone : (b.timer r).scheduledEventId = 0 := by
      by_contra h₀
      exact hmem (h.waiting r h₀).1
    have hnodup : (b.timers ++ [r]).Nodup :=
      h.timers.append (List.nodup_singleton r) (by simpa using hmem)
    refine h.update (t := { (b.timer r).attachClock b.clock with scheduler := true }) rfl
      (fun h₀ => absurd hnone h₀) hnodup (fun u hu => by simp [hu]) ?_ fun _ hw => hunique hmem hw
    exact ⟨by simp, by simp [Timer.attachClock], fun _ _ => rfl, hbus.resetsDisabled, hbus.line⟩

theorem Synced.detachTimer (h : b.Synced) : (b.detachTimer r).Synced := by
  rw [Board.detachTimer]
  split_ifs with hmem
  · have hbus := h.onBus r
    obtain ⟨sched', hcancel, hsynced⟩ := h.cancel (t := (b.timer r).detachClock) rfl rfl
    have hgone : r ∉ b.timers.erase r := h.timers.not_mem_erase
    rw [Timer.detachScheduler, hcancel]
    refine hsynced (h.timers.erase r) (fun u hu => List.mem_erase_of_ne hu) ?_ rfl
    exact ⟨by simp [hgone], by simp [hgone, Timer.detachClock], fun ha => absurd ha hgone,
      hbus.resetsDisabled, hbus.line⟩
  · exact h

/-! ### Resetting the bus -/

/-- The timers are reset one by one. -/
theorem Synced.resetEach (h : b.Synced) (rs : List T) :
    (b.resetEach rs).Synced ∧ (b.resetEach rs).timers = b.timers ∧
      ∀ r, r ∈ rs ∨ (b.timer r).running = false → ((b.resetEach rs).timer r).running = false := by
  induction rs generalizing b with
  | nil => exact ⟨h, rfl, fun r hr => hr.resolve_left List.not_mem_nil⟩
  | cons u us ih =>
    obtain ⟨hsynced, htimers, hstopped⟩ :=
      ih (h.perform (r := u) .reset (fun id hid => nomatch hid) fun _ hs => hs.elim)
    refine ⟨hsynced, htimers, fun r hr => hstopped r ?_⟩
    by_cases hru : r = u
    · subst hru
      exact .inr (by simpa [setTimer, Timer.perform] using running_reset (h.onBus r).resetsDisabled)
    · simpa [setTimer, hru] using hr

theorem Synced.reset (h : b.Synced) : b.reset.Synced := by
  obtain ⟨hsynced, htimers, hstopped⟩ := h.resetEach b.timers
  have hidle (r : T) (hr : r ∈ (b.resetEach b.timers).timers) :
      ((b.resetEach b.timers).timer r).running = false :=
    hstopped r (.inl (htimers ▸ hr))
  have hnone (r : T) : ((b.resetEach b.timers).timer r).scheduledEventId = 0 := by
    by_contra h₀
    obtain ⟨hr, hw⟩ := hsynced.waiting r h₀
    exact Bool.false_ne_true ((hidle r hr).symm.trans hw.1)
  refine ⟨hsynced.timers, ?_, fun r h₀ => absurd (hnone r) h₀, List.nodup_nil, ?_⟩
  · intro r
    have hbus := hsynced.onBus r
    exact ⟨hbus.scheduler_iff, hbus.clock_iff,
      fun hr hrun => absurd ((hidle r hr).symm.trans hrun) Bool.false_ne_true,
      hbus.resetsDisabled, hbus.line⟩
  · intro ev
    refine ⟨fun hev => absurd hev List.not_mem_nil, ?_⟩
    rintro ⟨r, h₀, -⟩
    exact absurd (hnone r) h₀

/-! ### One step -/

/-- The ticks of attached timers.  `clock` is the clock before the step. -/
theorem tickEach_of_attached {clock : SimulationClock} {rs : List T} (hrs : rs.Nodup)
    (hclock : b.clock = clock.tick 1)
    (h : ∀ r ∈ rs, (b.timer r).scheduler = true ∧ (b.timer r).clock = true ∧
      ((b.timer r).running = true → (b.timer r).lastClockCycles = clock.cycles)) :
    b.tickEach rs =
      ({ b with timer := fun r => if r ∈ rs then (b.timer r).ticked clock else b.timer r },
        none) := by
  induction rs generalizing b with
  | nil => simp [tickEach]
  | cons u us ih =>
    obtain ⟨hnot, hus⟩ := List.nodup_cons.1 hrs
    obtain ⟨hsched, hattached, hstep⟩ := h u List.mem_cons_self
    have hticked : (b.timer u).tick b.clock b.scheduler =
        ((b.timer u).ticked clock, b.scheduler, none) := by
      rw [hclock]
      exact Timer.tick_of_attached hsched hattached hstep
    have htick : b.tickTimer u =
        ({ b with timer := Function.update b.timer u ((b.timer u).ticked clock) }, none) := by
      rw [tickTimer, hticked]
      rfl
    simp only [tickEach, htick]
    refine (ih (b := { b with timer := Function.update b.timer u ((b.timer u).ticked clock) }) hus
      hclock ?_).trans ?_
    · intro r hr
      have hru : r ≠ u := fun he => hnot (he ▸ hr)
      simpa [hru] using h r (List.mem_cons_of_mem u hr)
    · refine congrArg (fun timer => ({ b with timer }, none)) (funext ?_)
      intro r
      by_cases hr : r = u
      · subst hr
        simp [hnot]
      · simp [hr]

/-- The bus after all timers have ticked. -/
def ticked (b : Board T H) : Board T H :=
  { b with
    clock := b.clock.tick 1
    timer := fun r => if r ∈ b.timers then (b.timer r).ticked b.clock else b.timer r }

theorem tickTimers_eq (htimers : b.timers.Nodup)
    (hbus : ∀ r, OnBus (b.timer r) (r ∈ b.timers) b.clock) : b.tickTimers = (b.ticked, none) :=
  tickEach_of_attached (b := { b with clock := b.clock.tick 1 }) htimers rfl fun r hr =>
    ⟨(hbus r).scheduler_iff.2 hr, (hbus r).clock_iff.2 hr, (hbus r).inStep hr⟩

theorem onBus_ticked (hbus : ∀ r, OnBus (b.timer r) (r ∈ b.timers) b.clock) (r : T) :
    OnBus (b.ticked.timer r) (r ∈ b.timers) b.ticked.clock := by
  simp only [ticked]
  split_ifs with hr
  · exact (hbus r).ticked
  · exact (hbus r).of_not_attached hr

/-- Between two callbacks of `executeReadyEvents`: `batch` is what it has left to do. -/
structure Executing (b : Board T H) (batch : List (Event T)) : Prop where
  timers : b.timers.Nodup
  onBus : ∀ r, OnBus (b.timer r) (r ∈ b.timers) b.clock
  running : ∀ r, (b.timer r).scheduledEventId ≠ 0 → r ∈ b.timers ∧ (b.timer r).running = true
  waiting : ∀ ev ∈ b.scheduler.events, ∀ r, ev.callback = some r → (b.timer r).Waiting
  events : Coupled b.timer b.clock (batch ++ b.scheduler.events)

theorem executeReadyEvents_eq (c : UInt64) : b.executeReadyEvents c =
    { b with scheduler := (b.scheduler.takeReady c).2 }.runBatch (b.scheduler.takeReady c).1 := by
  rw [executeReadyEvents]
  split_ifs with hempty
  · rw [EventScheduler.takeReady_of_empty (List.isEmpty_iff.1 hempty)]
    rfl
  · rfl

/-- The ready events after all timers have ticked. -/
theorem Synced.executing (h : b.Synced) :
    let taken := b.scheduler.takeReady b.ticked.clock.cycles
    Executing { b.ticked with scheduler := taken.2 } taken.1 := by
  intro taken
  have hid (r : T) : (b.ticked.timer r).scheduledEventId = (b.timer r).scheduledEventId := by
    simp only [ticked]
    split_ifs <;> rfl
  have hwaits (r : T) (h₀ : (b.ticked.timer r).scheduledEventId ≠ 0) :
      r ∈ b.timers ∧ (b.timer r).Waiting ∧ b.ticked.timer r = (b.timer r).ticked b.clock := by
    obtain ⟨hr, hw⟩ := h.waiting r (hid r ▸ h₀)
    exact ⟨hr, hw, if_pos hr⟩
  have hpool : Coupled b.ticked.timer b.ticked.clock b.scheduler.events := by
    refine h.events.congr hid ?_
    intro r h₀
    obtain ⟨-, hw, htimer⟩ := hwaits r ((hid r).symm ▸ h₀)
    rw [htimer]
    exact Timer.matchEvent_ticked hw
  refine ⟨h.timers, onBus_ticked h.onBus, ?_, ?_,
    hpool.perm (b.scheduler.perm_takeReady_events _)⟩
  · intro r h₀
    obtain ⟨hr, hw, htimer⟩ := hwaits r h₀
    exact ⟨hr, (congrArg Timer.running htimer).trans hw.1⟩
  · intro ev hev r hcallback
    obtain ⟨hev, hnot⟩ := b.scheduler.mem_takeReady_events.1 hev
    obtain ⟨h₀, rfl⟩ := hpool.eq_own hev hcallback
    obtain ⟨-, hw, htimer⟩ := hwaits r h₀
    show (b.ticked.timer r).Waiting
    rw [htimer] at hnot ⊢
    exact Timer.waiting_ticked hw hnot

/-- One callback: the match of the timer whose event comes first. -/
theorem Executing.matchTimer {ev : Event T} {rest : List (Event T)}
    (h : Executing b (ev :: rest)) :
    ∃ r b', ev.callback = some r ∧ b.matchTimer r = (b', none) ∧ Executing b' rest := by
  obtain ⟨r, h₀, rfl⟩ := (h.events.mem_pool ev).1 List.mem_cons_self
  obtain ⟨hr, hrun⟩ := h.running r h₀
  have hbus := h.onBus r
  -- the event is no longer in the scheduler, so that there is nothing to cancel
  have hgone : (b.timer r).scheduledEventId ∉ b.scheduler.ids := by
    intro hin
    obtain ⟨ev, hev, hid⟩ := List.mem_map.1 hin
    exact (List.nodup_cons.1 h.events.nodup).1
      (List.mem_map.2 ⟨ev, List.mem_append_right rest hev, hid⟩)
  let t : Timer := { (b.timer r).matched.disabled with scheduledEventId := 0 }
  have hstop : (b.timer r).matched.stop b.scheduler = (t, b.scheduler) := by
    have hattached : (b.timer r).scheduler = true := hbus.scheduler_iff.2 hr
    rw [Timer.stop, Timer.cancelScheduledEvent, if_pos ⟨h₀, hattached⟩]
    exact congrArg (t, ·) (b.scheduler.cancel_of_not_mem hgone)
  have hmatch : (b.timer r).handleCompareMatch b.scheduler =
      (t, b.scheduler, (b.timer r).line) := by
    rw [Timer.handleCompareMatch, if_neg (not_not.2 hrun), hstop]
  have hlast : b.matchTimer r =
      (b.setTimer r t b.scheduler).trigger r (b.timer r).line := by
    rw [Board.matchTimer, hmatch]
  obtain ⟨ic, htrigger⟩ := trigger_of_exists (b := b.setTimer r t b.scheduler) (r := r) hbus.line
  refine ⟨r, _, rfl, hlast.trans htrigger, ?_⟩
  have hpool : Coupled (Function.update b.timer r t) b.clock (rest ++ b.scheduler.events) :=
    h.events.consume rfl
  refine ⟨h.timers, ?_, ?_, ?_, hpool⟩
  · intro u
    by_cases hur : u = r
    · subst hur
      have hstopped : OnBus t (u ∈ b.timers) b.clock :=
        hbus.of_eq rfl rfl fun hrun' => absurd hrun' (by simp [t, Timer.running, Timer.disabled])
      simpa [setTimer] using hstopped
    · simpa [setTimer, hur] using h.onBus u
  · intro u hu
    by_cases hur : u = r
    · subst hur
      exact absurd (by simp [setTimer, t]) hu
    · simp only [setTimer, Function.update_of_ne hur] at hu ⊢
      exact h.running u hu
  · intro ev hev u hcallback
    have hur : u ≠ r := by
      rintro rfl
      obtain ⟨hu, -⟩ := hpool.eq_own (List.mem_append_right rest hev) hcallback
      exact hu (by simp [t])
    simpa [setTimer, hur] using h.waiting ev hev u hcallback

theorem Executing.runBatch {batch : List (Event T)} (h : Executing b batch) :
    ∃ b', b.runBatch batch = (b', none) ∧ b'.Synced := by
  induction batch generalizing b with
  | nil =>
    refine ⟨b, rfl, h.timers, h.onBus, ?_, h.events⟩
    intro r h₀
    have hmem : ownEvent (b.timer r) r b.clock ∈ b.scheduler.events := h.events.own_mem h₀
    exact ⟨(h.running r h₀).1, h.waiting _ hmem r rfl⟩
  | cons ev rest ih =>
    obtain ⟨r, b', hcallback, hmatch, hnext⟩ := h.matchTimer
    simp only [Board.runBatch, hcallback, hmatch]
    exact ih hnext

end Board

end System

end EFS
