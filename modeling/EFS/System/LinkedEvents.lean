import EFS.System.BusView
import EFS.System.Quiet
import EFS.System.TimerEvents

/-!
# The events that timers know

Which event of the scheduler is that of a timer is recorded twice: the event calls the timer back,
and the timer knows its id.  While the two agree (`Linked`), cancelling and scheduling act on the
pending events without their ids (`EventScheduler.pending`).
-/

namespace EFS

namespace Drivers.Timer

open EFS.System EFS.Mmio

variable {t : Timer}

theorem withoutEvent_of_eq_zero (h : t.scheduledEventId = 0) (e : EventId) :
    { t with scheduledEventId := e }.withoutEvent = t := by
  obtain ⟨ctrl, count, compare, status, attached, id, clock, sched, own, last⟩ := t
  obtain rfl : own = 0 := h
  rfl

theorem register_withoutEvent (t : Timer) : t.withoutEvent.register = t.register := by
  funext k
  cases k <;> rfl

theorem exists_syncClock (t : Timer) (clock : SimulationClock) :
    ∃ c, t.syncClock clock = { t with lastClockCycles := c } := by
  unfold syncClock
  split_ifs <;> exact ⟨_, rfl⟩

theorem withoutEvent_syncClock (t : Timer) (clock : SimulationClock) :
    (t.syncClock clock).withoutEvent = t.withoutEvent.syncClock clock := by
  have hclock : t.withoutEvent.clock = t.clock := rfl
  rw [syncClock, syncClock, hclock]
  split_ifs <;> rfl

theorem running_writeCtrl {ctrl : UInt32}
    (h : ctrl &&& ctrlEnableBit = t.ctrlRegister.read &&& ctrlEnableBit) :
    { t with ctrlRegister := t.ctrlRegister.write ctrl }.running = t.running := by
  simp [running, h]

theorem running_setAutoReset (enable : Bool) : (t.setAutoReset enable).running = t.running := by
  cases enable with
  | false => exact running_writeCtrl (and_not_and_bit (by decide))
  | true => exact running_writeCtrl (or_and_bit (by decide))

theorem running_setInterruptEnabled (enable : Bool) :
    (t.setInterruptEnabled enable).running = t.running := by
  cases enable with
  | false => exact running_writeCtrl (and_not_and_bit (by decide))
  | true => exact running_writeCtrl (or_and_bit (by decide))

theorem syncClock_eq (t : Timer) (clock : SimulationClock) : t.syncClock clock =
    { t.withoutEvent.syncClock clock with scheduledEventId := t.scheduledEventId } := by
  have hclock : t.withoutEvent.clock = t.clock := rfl
  rw [syncClock, syncClock, hclock]
  split_ifs <;> rfl

theorem counted_eq (t : Timer) (clock : SimulationClock) (count : UInt32) : t.counted clock count =
    { t.withoutEvent.counted clock count with scheduledEventId := t.scheduledEventId } := by
  rw [counted, counted, syncClock_eq]
  rfl

theorem exists_counted (t : Timer) (clock : SimulationClock) (count : UInt32) :
    ∃ c, t.counted clock count =
      { t with countRegister := t.countRegister.write count, lastClockCycles := c } := by
  obtain ⟨c, hc⟩ := t.exists_syncClock clock
  exact ⟨c, by rw [counted, hc]⟩

/-- A tick does not depend on the event of the timer. -/
theorem tick_eq {Cb : Type} (t : Timer) (clock : SimulationClock) (sched : EventScheduler Cb) :
    t.tick clock sched =
      ({ (t.withoutEvent.tickOutcome clock).timer with scheduledEventId := t.scheduledEventId },
        sched, (t.withoutEvent.tickOutcome clock).line) := by
  let count := t.counter + t.stepAmount clock
  by_cases hrun : t.running = true
  · have hcounted := t.counted_eq clock count
    -- only a timer without a scheduler compares, and such a timer has no event to cancel
    by_cases hmatch : ¬ t.scheduler = true ∧ t.compare ≤ count
    · have houtcome : t.withoutEvent.tickOutcome clock =
          ⟨(t.withoutEvent.counted clock count).matched.disabled, .keep, t.line⟩ :=
        (if_neg (not_not.2 hrun)).trans (if_pos hmatch)
      obtain ⟨c, hc⟩ := t.exists_counted clock count
      have hmatched : (t.counted clock count).handleCompareMatch sched =
          ((t.counted clock count).matched.disabled, sched, t.line) := by
        rw [hc]
        exact handleCompareMatch_of_detached (by simpa using hmatch.1) hrun
      rw [houtcome, tick, if_neg (not_not.2 hrun)]
      dsimp only
      rw [if_pos hmatch, hmatched, hcounted]
      rfl
    · have houtcome : t.withoutEvent.tickOutcome clock =
          (t.withoutEvent.counted clock count).kept :=
        (if_neg (not_not.2 hrun)).trans (if_neg hmatch)
      rw [houtcome, tick, if_neg (not_not.2 hrun)]
      dsimp only
      rw [if_neg hmatch]
      exact congrArg (·, sched, none) hcounted
  · have houtcome : t.withoutEvent.tickOutcome clock = (t.withoutEvent.syncClock clock).kept :=
      if_pos hrun
    rw [houtcome, tick, if_pos hrun, t.syncClock_eq clock]
    rfl

/-- What a tick leaves as it is.  Only a timer without a scheduler matches in its tick. -/
theorem tickOutcome_spec (t : Timer) (clock : SimulationClock) :
    let o := t.tickOutcome clock
    o.event = .keep ∧ o.timer.line = t.line ∧ (o.line = none ∨ o.line = t.line) ∧
      o.timer.scheduledEventId = t.scheduledEventId ∧
      (t.scheduler = true → o.timer.scheduler = true ∧ o.timer.running = t.running) := by
  let count := t.counter + t.stepAmount clock
  intro o
  by_cases hrun : t.running = true
  · obtain ⟨c, hc⟩ := t.exists_counted clock count
    by_cases hmatch : ¬ t.scheduler = true ∧ t.compare ≤ count
    · have houtcome : o = ⟨(t.counted clock count).matched.disabled, .keep, t.line⟩ :=
        (if_neg (not_not.2 hrun)).trans (if_pos hmatch)
      rw [houtcome, hc]
      exact ⟨rfl, rfl, .inr rfl, rfl, fun h => absurd h hmatch.1⟩
    · have houtcome : o = (t.counted clock count).kept :=
        (if_neg (not_not.2 hrun)).trans (if_neg hmatch)
      rw [houtcome, hc]
      exact ⟨rfl, rfl, .inl rfl, rfl, fun h => ⟨h, rfl⟩⟩
  · obtain ⟨c, hc⟩ := t.exists_syncClock clock
    have houtcome : o = (t.syncClock clock).kept := if_pos hrun
    rw [houtcome, hc]
    exact ⟨rfl, rfl, .inl rfl, rfl, fun h => ⟨h, rfl⟩⟩

end Drivers.Timer

namespace System

open EFS.Drivers

section

variable {T H : Type}

/-- The timer and the cycle of an event. -/
def Event.owned (ev : Event T) : Option (T × UInt64) := ev.callback.map (·, ev.cycle)

/-- The pending events, without their ids. -/
def EventScheduler.pending (sched : EventScheduler T) : Multiset (T × UInt64) :=
  sched.events.filterMap Event.owned

/-- The events of the pool are those that timers know, each of them that of one timer.  A timer
that knows an event runs and has a scheduler. -/
structure Linked (timer : T → Timer) (pool : List (Event T)) : Prop where
  nodup : (pool.map Event.id).Nodup
  known : ∀ ev ∈ pool, ∃ r, ev.callback = some r ∧ ev.id = (timer r).scheduledEventId ∧ ev.id ≠ 0
  active : ∀ r, (timer r).scheduledEventId ≠ 0 → (timer r).scheduler = true ∧
    (timer r).running = true ∧ ∃ ev ∈ pool, ev.callback = some r

namespace Linked

variable {timer : T → Timer} {pool pool' : List (Event T)} {r : T} {ev : Event T}

theorem id_eq (h : Linked timer pool) (hev : ev ∈ pool) (hcallback : ev.callback = some r) :
    ev.id = (timer r).scheduledEventId := by
  obtain ⟨u, hu, hid, -⟩ := h.known ev hev
  rw [hcallback] at hu
  rw [hid, Option.some.inj hu]

theorem id_ne_zero (h : Linked timer pool) (hev : ev ∈ pool) : ev.id ≠ 0 := by
  obtain ⟨-, -, -, h₀⟩ := h.known ev hev
  exact h₀

theorem callback_iff (h : Linked timer pool) (hev : ev ∈ pool) :
    ev.callback = some r ↔ ev.id = (timer r).scheduledEventId := by
  constructor
  · exact h.id_eq hev
  · intro hid
    -- the timer knows an event, which has the same id
    obtain ⟨-, -, own, hown, hcallback⟩ := h.active r (hid ▸ h.id_ne_zero hev)
    have hsame : ev = own :=
      List.inj_on_of_nodup_map h.nodup hev hown (hid.trans (h.id_eq hown hcallback).symm)
    exact hsame ▸ hcallback

theorem perm (h : Linked timer pool) (hperm : pool'.Perm pool) : Linked timer pool' := by
  refine ⟨(hperm.map _).nodup_iff.2 h.nodup, ?_, ?_⟩
  · intro ev hev
    exact h.known ev (hperm.mem_iff.1 hev)
  · intro r hr
    obtain ⟨hsched, hrun, ev, hev, hcallback⟩ := h.active r hr
    exact ⟨hsched, hrun, ev, hperm.mem_iff.2 hev, hcallback⟩

variable [DecidableEq T] {t : Timer}

/-- Timer `r` is replaced, and its event by the event `new`, if any. -/
theorem replace (h : Linked timer pool) (new : Option (Event T))
    (hnodup : (pool'.map Event.id).Nodup)
    (hmem : ∀ ev, ev ∈ pool' ↔ (ev ∈ pool ∧ ev.callback ≠ some r) ∨ ev ∈ new)
    (hnew : ∀ ev ∈ new, ev.callback = some r ∧ ev.id = t.scheduledEventId ∧ ev.id ≠ 0)
    (hactive : t.scheduledEventId ≠ 0 → t.scheduler = true ∧ t.running = true ∧ new.isSome) :
    Linked (Function.update timer r t) pool' := by
  refine ⟨hnodup, ?_, ?_⟩
  · intro ev hev
    rcases (hmem ev).1 hev with ⟨hold, hne⟩ | hev
    · obtain ⟨u, hu, hid, h₀⟩ := h.known ev hold
      have hur : u ≠ r := fun he => hne (he ▸ hu)
      exact ⟨u, hu, by simpa [hur] using hid, h₀⟩
    · obtain ⟨hcallback, hid, h₀⟩ := hnew ev hev
      exact ⟨r, hcallback, by simpa using hid, h₀⟩
  · intro u hu
    by_cases hur : u = r
    · subst hur
      simp only [Function.update_self] at hu ⊢
      obtain ⟨hsched, hrun, hsome⟩ := hactive hu
      obtain ⟨ev, hev⟩ := Option.isSome_iff_exists.1 hsome
      exact ⟨hsched, hrun, ev, (hmem ev).2 (.inr hev), (hnew ev hev).1⟩
    · simp only [Function.update_of_ne hur] at hu ⊢
      obtain ⟨hsched, hrun, ev, hev, hcallback⟩ := h.active u hu
      refine ⟨hsched, hrun, ev, (hmem ev).2 (.inl ⟨hev, ?_⟩), hcallback⟩
      intro hr
      exact hur (Option.some.inj (hcallback.symm.trans hr))

/-- Timer `r` changes, but not the event that it knows. -/
theorem keep (h : Linked timer pool) (hid : t.scheduledEventId = (timer r).scheduledEventId)
    (hactive : t.scheduledEventId ≠ 0 → t.scheduler = true ∧ t.running = true) :
    Linked (Function.update timer r t) pool := by
  refine ⟨h.nodup, ?_, ?_⟩
  · intro ev hev
    obtain ⟨u, hu, heid, h₀⟩ := h.known ev hev
    refine ⟨u, hu, ?_, h₀⟩
    by_cases hur : u = r
    · subst hur
      simpa [hid] using heid
    · simpa [hur] using heid
  · intro u hu
    by_cases hur : u = r
    · subst hur
      simp only [Function.update_self] at hu ⊢
      obtain ⟨-, -, hown⟩ := h.active u (hid ▸ hu)
      exact ⟨(hactive hu).1, (hactive hu).2, hown⟩
    · simp only [Function.update_of_ne hur] at hu ⊢
      exact h.active u hu

/-- The event of timer `r` is gone, and the timer has forgotten it. -/
theorem others (h : Linked timer pool)
    (hperm : pool'.Perm (pool.filter fun ev => ev.callback ≠ some r))
    (h₀ : t.scheduledEventId = 0) :
    Linked (Function.update timer r t) pool' := by
  refine h.replace none ?_ ?_ (fun ev hev => nomatch hev) (absurd h₀)
  · exact (hperm.map _).nodup_iff.2 (h.nodup.sublist (List.filter_sublist.map _))
  · intro ev
    rw [hperm.mem_iff, List.mem_filter, decide_eq_true_eq]
    simp

/-- Timer `r` has a new event instead of the old one. -/
theorem renew (h : Linked timer pool)
    (hperm : pool'.Perm (pool.filter fun ev => ev.callback ≠ some r))
    (hcallback : ev.callback = some r) (hid : ev.id = t.scheduledEventId) (h₀ : ev.id ≠ 0)
    (hunique : ∀ old ∈ pool, old.id = ev.id → old.callback = some r)
    (hactive : t.scheduler = true ∧ t.running = true) :
    Linked (Function.update timer r t) (pool' ++ [ev]) := by
  have hmem (old : Event T) : old ∈ pool' ↔ old ∈ pool ∧ old.callback ≠ some r := by
    rw [hperm.mem_iff, List.mem_filter, decide_eq_true_eq]
  refine h.replace (some ev) ?_ ?_ ?_ fun _ => ⟨hactive.1, hactive.2, rfl⟩
  · -- an old event with the new id would be one of timer `r`, which are gone
    have hnodup : (pool'.map Event.id).Nodup :=
      (hperm.map _).nodup_iff.2 (h.nodup.sublist (List.filter_sublist.map _))
    rw [List.map_append]
    refine hnodup.append (List.nodup_singleton _) (List.disjoint_singleton.2 ?_)
    intro hin
    obtain ⟨old, hold, heq⟩ := List.mem_map.1 hin
    exact ((hmem old).1 hold).2 (hunique old ((hmem old).1 hold).1 heq)
  · intro old
    rw [List.mem_append, List.mem_singleton, hmem, Option.mem_some_iff, eq_comm (a := ev)]
  · rintro _ ⟨⟩
    exact ⟨hcallback, hid, h₀⟩

end Linked

/-! ### The events of a scheduler -/

variable {sched sched' : EventScheduler T} {r : T}

/-- Events are selected by their callback and their cycle. -/
theorem filterMap_owned_filter {p : Event T → Bool} {q : T × UInt64 → Prop} [DecidablePred q]
    (h : ∀ ev u, ev.callback = some u → (p ev = true ↔ q (u, ev.cycle))) (events : List (Event T)) :
    ((events.filter p).filterMap Event.owned : Multiset (T × UInt64)) =
      Multiset.filter q (events.filterMap Event.owned) := by
  rw [Multiset.filter_coe, List.filterMap_filter, List.filter_filterMap]
  refine congrArg _ (List.filterMap_congr ?_)
  intro ev _
  cases hcallback : ev.callback with
  | none => simp [Event.owned, hcallback]
  | some u =>
    have hp := h ev u hcallback
    by_cases hq : q (u, ev.cycle)
    · simp [Event.owned, hcallback, Option.filter, hq, hp.2 hq]
    · simp [Event.owned, hcallback, Option.filter, hq, mt hp.1 hq]

theorem EventScheduler.pending_others [DecidableEq T]
    (h : sched'.events.Perm (sched.events.filter fun ev => ev.callback ≠ some r)) :
    sched'.pending = BusView.others r sched.pending := by
  have hpending : sched'.pending = (_ : List (T × UInt64)) :=
    Multiset.coe_eq_coe.2 (h.filterMap Event.owned)
  rw [hpending]
  refine filterMap_owned_filter ?_ sched.events
  intro ev u hcallback
  rw [decide_eq_true_eq, hcallback, ne_eq, Option.some_inj]

theorem EventScheduler.pending_takeReady (sched : EventScheduler T) (c : UInt64) :
    (sched.takeReady c).2.pending = sched.pending.filter fun p => ¬ p.2 ≤ c :=
  filterMap_owned_filter (fun _ _ _ => decide_eq_true_iff) sched.events

theorem EventScheduler.map_fst_pending_filter (sched : EventScheduler T) (c : UInt64) :
    (sched.pending.filter fun p => p.2 ≤ c).map Prod.fst =
      ((sched.takeReady c).1.filterMap Event.callback : List T) := by
  have hcallback : (fun ev : Event T => ev.owned.map Prod.fst) = Event.callback := by
    funext ev
    cases hc : ev.callback <;> simp [Event.owned, hc]
  have hready := filterMap_owned_filter (p := fun ev : Event T => decide (ev.cycle ≤ c))
    (q := fun p => p.2 ≤ c) (fun _ _ _ => decide_eq_true_iff) sched.events
  rw [EventScheduler.pending, ← hready, Multiset.map_coe, List.map_filterMap, hcallback]
  exact Multiset.coe_eq_coe.2 ((Event.perm_stableSort _).symm.filterMap _)

theorem EventScheduler.pending_append {ev : Event T} (sched : EventScheduler T) (nextId : EventId)
    (hcallback : ev.callback = some r) :
    EventScheduler.pending ⟨nextId, sched.events ++ [ev]⟩ = (r, ev.cycle) ::ₘ sched.pending := by
  have howned : ev.owned = some (r, ev.cycle) := by rw [Event.owned, hcallback]; rfl
  rw [EventScheduler.pending, List.filterMap_append, List.filterMap_cons_some howned,
    List.filterMap_nil]
  exact Multiset.coe_eq_coe.2 (List.perm_append_singleton _ _)

variable [DecidableEq T] {timer : T → Timer} {t : Timer} {clock : SimulationClock}

/-- Cancelling leaves the events of the other timers.  The event of timer `r` may also be one of the
batch that is executed. -/
theorem Linked.cancelScheduledEvent (batch : List (Event T))
    (h : Linked timer (batch ++ sched.events))
    (hid : t.scheduledEventId = (timer r).scheduledEventId)
    (hsched : t.scheduledEventId ≠ 0 → t.scheduler = true) :
    ∃ sched', t.cancelScheduledEvent sched = (t.withoutEvent, sched') ∧
      sched'.nextId = sched.nextId ∧
      sched'.events.Perm (sched.events.filter fun ev => ev.callback ≠ some r) := by
  have hnodup : sched.ids.Nodup := h.nodup.sublist ((List.sublist_append_right _ _).map _)
  have hcallback {ev : Event T} (hev : ev ∈ sched.events) :
      ev.callback = some r ↔ ev.id = t.scheduledEventId := by
    rw [hid]
    exact h.callback_iff (List.mem_append_right batch hev)
  by_cases h₀ : t.scheduledEventId = 0
  · -- the timer knows no event, so that none is cancelled and none is its own
    refine ⟨sched, ?_, rfl, ?_⟩
    · rw [Timer.cancelScheduledEvent, if_neg fun hc => hc.1 h₀, Timer.withoutEvent, ← h₀]
    · rw [List.filter_eq_self.2]
      intro ev hev
      have hne : ev.callback ≠ some r := by
        intro hc
        exact h.id_ne_zero (List.mem_append_right batch hev) (((hcallback hev).1 hc).trans h₀)
      simpa using hne
  · refine ⟨(sched.cancel t.scheduledEventId).2, ?_, sched.cancel_nextId _, ?_⟩
    · rw [Timer.cancelScheduledEvent, if_pos ⟨h₀, hsched h₀⟩, Timer.withoutEvent]
    · have hleft := (sched.nodup_cancel hnodup t.scheduledEventId).of_map
      refine (List.perm_ext_iff_of_nodup hleft (hnodup.of_map.filter _)).2 ?_
      intro ev
      rw [sched.mem_cancel_iff hnodup h₀, List.mem_filter, decide_eq_true_eq]
      exact and_congr_right fun hev => not_congr (hcallback hev).symm

omit [DecidableEq T] in
/-- The timer is rescheduled after its event was cancelled. -/
theorem scheduleMatch_eq (t : Timer) (r : T) (clock : SimulationClock) (sched : EventScheduler T) :
    t.withoutEvent.scheduleMatch r clock sched =
      match t.matchCycle clock with
      | none => (t.withoutEvent, sched)
      | some cycle => ({ t with scheduledEventId := sched.nextId },
          ⟨sched.nextId + 1,
            sched.events ++ [⟨sched.nextId, cycle, some r, "Timer Compare Match"⟩]⟩) := by
  have hrun : t.withoutEvent.running = t.running := rfl
  have hsched : t.withoutEvent.scheduler = t.scheduler := rfl
  have hcount : t.withoutEvent.counter = t.counter := rfl
  have hcompare : t.withoutEvent.compare = t.compare := rfl
  by_cases hw : t.scheduler = true ∧ t.Waiting
  · have hbelow : ¬ t.compare ≤ t.counter := UInt32.not_le.2 hw.2.2
    rw [Timer.matchCycle, if_pos hw, Timer.scheduleMatch, hrun, hsched, hcount, hcompare,
      if_neg (by simp [hw.1, hw.2.1]), if_neg hbelow]
    rfl
  · rw [Timer.matchCycle, if_neg hw, Timer.scheduleMatch, hrun, hsched, hcount, hcompare]
    by_cases hon : t.running = true ∧ t.scheduler = true
    · have hreached : t.compare ≤ t.counter := by
        by_contra hbelow
        exact hw ⟨hon.2, hon.1, UInt32.not_le.1 hbelow⟩
      rw [if_neg (by simp [hon.1, hon.2]), if_pos hreached]
    · rw [if_pos (by tauto)]

/-- Timer `r` of the board becomes `t` and the scheduler `sched`, as the outcome says.  The events
of the batch are still to be executed. -/
structure Acts (b : Board T H) (batch : List (Event T)) (r : T) (o : Timer.Outcome) (t : Timer)
    (sched : EventScheduler T) : Prop where
  timer : t.withoutEvent = o.timer
  events : sched.pending = BusView.change b.scheduler.pending r o.event
  linked : Linked (Function.update b.timer r t) (batch ++ sched.events)

namespace Acts

variable {b : Board T H} {o : Timer.Outcome} {t' : Timer}

theorem kept (h : Linked b.timer b.scheduler.events)
    (hid : t.scheduledEventId = (b.timer r).scheduledEventId)
    (hactive : t.scheduledEventId ≠ 0 → t.scheduler = true ∧ t.running = true)
    (ho : o.timer = t.withoutEvent ∧ o.event = .keep) : Acts b [] r o t b.scheduler := by
  refine ⟨ho.1.symm, ?_, h.keep hid hactive⟩
  rw [ho.2]
  rfl

theorem cancelled (h : Linked b.timer b.scheduler.events)
    (hid : t.scheduledEventId = (b.timer r).scheduledEventId)
    (hsched : t.scheduledEventId ≠ 0 → t.scheduler = true) :
    ∃ sched', t.cancelScheduledEvent b.scheduler = (t.withoutEvent, sched') ∧
      ∀ t', t'.scheduledEventId = 0 → ∀ o : Timer.Outcome,
        o.timer = t'.withoutEvent ∧ o.event = .replace none → Acts b [] r o t' sched' := by
  obtain ⟨sched', hcancel, -, hperm⟩ := Linked.cancelScheduledEvent [] h hid hsched
  refine ⟨sched', hcancel, ?_⟩
  intro t' h₀ o ho
  refine ⟨ho.1.symm, ?_, h.others hperm h₀⟩
  rw [ho.2]
  exact EventScheduler.pending_others hperm

/-- The event of the timer is scheduled again. -/
theorem updated (h : Linked b.timer b.scheduler.events)
    (hid : t.scheduledEventId = (b.timer r).scheduledEventId)
    (hsched : t.scheduledEventId ≠ 0 → t.scheduler = true)
    (hunique : t.scheduler = true → t.Waiting → NextIdUnique b.scheduler r)
    (ho : o.timer = t.withoutEvent ∧ o.event = .replace (t.matchCycle clock)) :
    Acts b [] r o (t.updateScheduledEvent r clock b.scheduler).1
      (t.updateScheduledEvent r clock b.scheduler).2 := by
  obtain ⟨sched', hcancel, hnext, hperm⟩ := Linked.cancelScheduledEvent [] h hid hsched
  have hothers : sched'.pending = BusView.others r b.scheduler.pending :=
    EventScheduler.pending_others hperm
  have hupdate : t.updateScheduledEvent r clock b.scheduler =
      t.withoutEvent.scheduleMatch r clock sched' := by
    rw [Timer.updateScheduledEvent, hcancel]
  rw [hupdate, scheduleMatch_eq]
  -- the timer waits for a match, or it has no event after the update
  cases hcycle : t.matchCycle clock with
  | none =>
    refine ⟨ho.1.symm, ?_, h.others hperm rfl⟩
    rw [ho.2, hcycle]
    exact hothers
  | some cycle =>
    have hw : t.scheduler = true ∧ t.Waiting := by
      by_contra hnot
      rw [Timer.matchCycle, if_neg hnot] at hcycle
      cases hcycle
    obtain ⟨hnonzero, hother⟩ := hunique hw.1 hw.2
    refine ⟨ho.1.symm, ?_, ?_⟩
    · rw [ho.2, hcycle, BusView.change, ← hothers]
      exact EventScheduler.pending_append sched' _ rfl
    · refine h.renew hperm rfl rfl ?_ ?_ ⟨hw.1, hw.2.1⟩
      · rw [hnext]
        exact hnonzero
      · rw [hnext]
        exact hother

end Acts

end

end System

end EFS
