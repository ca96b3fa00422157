import EFS.Drivers.Timer

/-!
# Timers that change the scheduler

`Timer::attachScheduler` stores the new pointer first and then cancels the scheduled event, so that
an event in the old scheduler stays there, and the event of the new one that has the same id, if
there is one, is removed.

* `moves_iff` : a timer moves from `a` to `b` iff it has no event in `a`, and none in `b` but the
  one that is removed.
* `not_moves_pending` : a timer with a pending event leaves it behind.
-/

namespace EFS

namespace System

namespace EventScheduler

variable {Cb : Type} [DecidableEq Cb] (s : EventScheduler Cb) (self : Cb) (eventId : EventId)

/-- The pending events with this callback. -/
def eventsOf : List (Event Cb) := s.events.filter fun ev => ev.callback = some self

/-- The pending events of others. -/
def eventsOfOthers : List (Event Cb) := s.events.filter fun ev => ¬ ev.callback = some self

omit [DecidableEq Cb] in
/-- The event that `cancel` removes. -/
def cancelled : Option (Event Cb) :=
  if eventId = 0 then none else s.events.find? fun ev => ev.id = eventId

variable {s self eventId}

omit [DecidableEq Cb] in
theorem cancel_of_none (h : s.cancelled eventId = none) : (s.cancel eventId).2 = s := by
  unfold cancelled at h
  unfold cancel
  split_ifs at h ⊢ with h₀ hany
  · rfl
  · obtain ⟨ev, hev, hid⟩ := List.any_eq_true.1 hany
    exact absurd hid (List.find?_eq_none.1 h ev hev)
  · rfl

omit [DecidableEq Cb] in
theorem cancel_of_some {ev : Event Cb} (h : s.cancelled eventId = some ev) :
    ∃ l₁ l₂, s.events = l₁ ++ ev :: l₂ ∧ (s.cancel eventId).2.events = l₁ ++ l₂ := by
  unfold cancelled at h
  split_ifs at h with h₀
  obtain ⟨hid, l₁, l₂, hevents, hl₁⟩ := List.find?_eq_some_iff_append.1 h
  refine ⟨l₁, l₂, hevents, ?_⟩
  have hany : (s.events.any fun ev => ev.id = eventId) = true := by
    rw [hevents]
    simp [of_decide_eq_true hid]
  rw [cancel, if_neg h₀, if_pos hany]
  show s.events.eraseP _ = _
  rw [hevents, List.eraseP_append_right _ fun b hb => by simpa using hl₁ b hb]
  congr 1
  exact List.eraseP_cons_of_pos hid

theorem eventsOfOthers_cancel : (s.cancel eventId).2.eventsOfOthers self = s.eventsOfOthers self ↔
    ∀ ev, s.cancelled eventId = some ev → ev.callback = some self := by
  cases hcancelled : s.cancelled eventId with
  | none => simp [cancel_of_none hcancelled]
  | some ev =>
    obtain ⟨l₁, l₂, hevents, hrest⟩ := cancel_of_some hcancelled
    by_cases hown : ev.callback = some self
    · simp [eventsOfOthers, hevents, hrest, hown]
    · simp [eventsOfOthers, hevents, hrest, hown]

/-- No own event is left iff the one that is removed was the only one. -/
theorem eventsOf_cancel (h : ∀ ev, s.cancelled eventId = some ev → ev.callback = some self) :
    (s.cancel eventId).2.eventsOf self = [] ↔
      s.eventsOf self = (s.cancelled eventId).toList := by
  cases hcancelled : s.cancelled eventId with
  | none => simp [cancel_of_none hcancelled]
  | some ev =>
    obtain ⟨l₁, l₂, hevents, hrest⟩ := cancel_of_some hcancelled
    simp only [eventsOf, hevents, hrest, List.filter_append, h ev hcancelled, List.filter_cons,
      decide_true, if_true, Option.toList_some, List.append_eq_nil_iff]
    constructor
    · rintro ⟨h₁, h₂⟩
      rw [h₁, h₂]
      rfl
    · intro hone
      have hlength := congrArg List.length hone
      simp only [List.length_append, List.length_cons, List.length_nil] at hlength
      exact ⟨List.length_eq_zero_iff.1 (by omega), List.length_eq_zero_iff.1 (by omega)⟩

theorem own_of_eventsOf_eq (h : s.eventsOf self = (s.cancelled eventId).toList) (ev : Event Cb)
    (hev : s.cancelled eventId = some ev) : ev.callback = some self := by
  have hmem : ev ∈ s.eventsOf self := by simp [h, hev]
  exact of_decide_eq_true (List.mem_filter.1 hmem).2

end EventScheduler

end System

namespace Drivers

open EFS.System

namespace Timer

variable {S Cb : Type} [DecidableEq S] [DecidableEq Cb]

section

variable (t : Timer) (callback : Cb) (clock : SimulationClock) (schedulers : S → EventScheduler Cb)

omit [DecidableEq Cb] in
/-- `attachScheduler` of one of the schedulers that there are. -/
def attachSchedulerAt (b : S) : Timer × (S → EventScheduler Cb) :=
  let (t, sched) := t.attachScheduler callback clock (schedulers b)
  (t, Function.update schedulers b sched)

/-- The timer moves from `a` to `b`: it leaves nothing behind, disturbs no event of others, and has
one event in `b` if it is on the way to its compare value. -/
structure Moves (a b : S) : Prop where
  left : ((t.attachSchedulerAt callback clock schedulers b).2 a).eventsOf callback = []
  kept : ∀ s, ((t.attachSchedulerAt callback clock schedulers b).2 s).eventsOfOthers callback =
    (schedulers s).eventsOfOthers callback
  arrived : (((t.attachSchedulerAt callback clock schedulers b).2 b).eventsOf callback).length =
    if t.running ∧ t.counter < t.compare then 1 else 0

end

variable {t : Timer} {self : Cb} {clock : SimulationClock} {sched : EventScheduler Cb}

omit [DecidableEq Cb] in
variable (sched) in
theorem cancelScheduledEvent_attached (h : t.scheduler = true) :
    (t.cancelScheduledEvent sched).2 = (sched.cancel t.scheduledEventId).2 ∧
      ∃ id, (t.cancelScheduledEvent sched).1 = { t with scheduledEventId := id } := by
  unfold cancelScheduledEvent
  by_cases hid : t.scheduledEventId = 0
  · rw [if_neg fun hne => hne.1 hid, hid]
    exact ⟨rfl, 0, by rw [← hid]⟩
  · rw [if_pos ⟨hid, h⟩]
    exact ⟨rfl, 0, rfl⟩

omit [DecidableEq Cb] in
variable (self clock sched) in
/-- An event is scheduled for a timer on the way to its compare value. -/
theorem scheduleMatch_attached (h : t.scheduler = true) : ∃ cycle,
    t.scheduleMatch self clock sched =
      if t.running ∧ t.counter < t.compare then
        ({ t with scheduledEventId := sched.nextId },
          (sched.schedule (some self) cycle "Timer Compare Match").2)
      else (t, sched) := by
  refine ⟨(if t.clock then clock.cycles else 0) + (t.compare - t.counter).toUInt64, ?_⟩
  unfold scheduleMatch
  by_cases hrun : t.running = true
  · by_cases hlt : t.counter < t.compare
    · rw [if_neg (by simp [hrun, h]), if_neg (UInt32.not_le.2 hlt), if_pos (And.intro hrun hlt)]
      rfl
    · rw [if_neg (by simp [hrun, h]), if_pos (UInt32.not_lt.1 hlt), if_neg fun hand => hlt hand.2]
  · rw [if_pos (.inl hrun), if_neg fun hand => hrun hand.1]

omit [DecidableEq Cb] in
variable (t self clock sched) in
theorem attachScheduler_spec : ∃ cycle id, t.attachScheduler self clock sched =
    if t.running ∧ t.counter < t.compare then
      ({ t with scheduler := true, scheduledEventId := sched.nextId },
        ((sched.cancel t.scheduledEventId).2.schedule (some self) cycle "Timer Compare Match").2)
    else
      ({ t with scheduler := true, scheduledEventId := id },
        (sched.cancel t.scheduledEventId).2) := by
  obtain ⟨hsched, id, htimer⟩ :=
    cancelScheduledEvent_attached (t := { t with scheduler := true }) sched rfl
  obtain ⟨cycle, hmatch⟩ :=
    scheduleMatch_attached (t := { t with scheduler := true, scheduledEventId := id }) self clock
      (sched.cancel t.scheduledEventId).2 rfl
  refine ⟨cycle, id, ?_⟩
  rw [attachScheduler, updateScheduledEvent, htimer, hsched, hmatch, EventScheduler.cancel_nextId]
  rfl

omit [DecidableEq Cb] in
variable (t self clock sched) in
theorem events_attachScheduler : ∃ ev : Event Cb, ev.callback = some self ∧
    (t.attachScheduler self clock sched).2.events =
      (sched.cancel t.scheduledEventId).2.events ++
        if t.running ∧ t.counter < t.compare then [ev] else [] := by
  obtain ⟨cycle, id, hattach⟩ := attachScheduler_spec t self clock sched
  refine ⟨⟨(sched.cancel t.scheduledEventId).2.nextId, cycle, some self, "Timer Compare Match"⟩,
    rfl, ?_⟩
  rw [hattach]
  split_ifs
  · rfl
  · exact (List.append_nil _).symm

theorem eventsOfOthers_attachScheduler :
    (t.attachScheduler self clock sched).2.eventsOfOthers self =
      (sched.cancel t.scheduledEventId).2.eventsOfOthers self := by
  obtain ⟨ev, hown, hevents⟩ := events_attachScheduler t self clock sched
  rw [EventScheduler.eventsOfOthers, hevents, List.filter_append, EventScheduler.eventsOfOthers]
  split_ifs
  · simp [hown]
  · simp

theorem length_eventsOf_attachScheduler :
    ((t.attachScheduler self clock sched).2.eventsOf self).length =
      ((sched.cancel t.scheduledEventId).2.eventsOf self).length +
        if t.running ∧ t.counter < t.compare then 1 else 0 := by
  obtain ⟨ev, hown, hevents⟩ := events_attachScheduler t self clock sched
  rw [EventScheduler.eventsOf, hevents, List.filter_append, EventScheduler.eventsOf,
    List.length_append]
  split_ifs
  · simp [hown]
  · simp

/-- **Changing the scheduler.** -/
theorem moves_iff (t : Timer) (self : Cb) (clock : SimulationClock)
    (schedulers : S → EventScheduler Cb) {a b : S} (hab : a ≠ b) :
    t.Moves self clock schedulers a b ↔ (schedulers a).eventsOf self = [] ∧
      (schedulers b).eventsOf self = ((schedulers b).cancelled t.scheduledEventId).toList := by
  have ha : (t.attachSchedulerAt self clock schedulers b).2 a = schedulers a :=
    Function.update_of_ne hab _ _
  have hb : (t.attachSchedulerAt self clock schedulers b).2 b =
      (t.attachScheduler self clock (schedulers b)).2 := Function.update_self _ _ _
  constructor
  · rintro ⟨hleft, hkept, harrived⟩
    rw [ha] at hleft
    -- no event of others was removed, so that one that was removed is the timer's own
    have hown := hkept b
    rw [hb, eventsOfOthers_attachScheduler, EventScheduler.eventsOfOthers_cancel] at hown
    rw [hb, length_eventsOf_attachScheduler] at harrived
    exact ⟨hleft, (EventScheduler.eventsOf_cancel hown).1 (List.length_eq_zero_iff.1 (by omega))⟩
  · rintro ⟨hleft, honly⟩
    have hown := EventScheduler.own_of_eventsOf_eq honly
    have hnil := (EventScheduler.eventsOf_cancel hown).2 honly
    refine ⟨ha ▸ hleft, ?_, ?_⟩
    · intro s
      by_cases hs : s = b
      · rw [hs, hb, eventsOfOthers_attachScheduler, EventScheduler.eventsOfOthers_cancel]
        exact hown
      · exact congrArg (EventScheduler.eventsOfOthers · self) (Function.update_of_ne hs _ _)
    · rw [hb, length_eventsOf_attachScheduler, hnil]
      exact Nat.zero_add _

/-- Two schedulers, each with an event of id 1; `true` is the callback of the timer. -/
def bothPending (b : Bool) : EventScheduler Bool :=
  ⟨2, [⟨1, 5, some (!b), "Timer Compare Match"⟩]⟩

/-- A timer on the way to its compare value, whose event is the one of the scheduler `false`. -/
def onItsWay : Timer :=
  { new.enabled with compareRegister := .new 5, scheduler := true, scheduledEventId := 1 }

/-- A timer that is stopped moves. -/
theorem moves_stopped : (new.attachScheduler true ⟨0⟩ .init).1.Moves true ⟨0⟩
    (fun _ : Bool => .init) false true :=
  (moves_iff _ true ⟨0⟩ (fun _ : Bool => .init) (by decide)).2 ⟨rfl, rfl⟩

/-- A timer with a pending event leaves it behind, and removes that of another. -/
theorem not_moves_pending : ¬ onItsWay.Moves true ⟨0⟩ bothPending false true ∧
    ((onItsWay.attachSchedulerAt true ⟨0⟩ bothPending true).2 true).eventsOfOthers true = [] := by
  refine ⟨?_, rfl⟩
  intro h
  have hlength := congrArg List.length h.left
  exact absurd hlength (by decide)

end Timer

end Drivers

end EFS
