import EFS.Cpu.Step
import EFS.LTS.Basic
import EFS.System.TimerEvents

/-!
# The pending events of the timers over a run

A CPU is driven by steps, resets, and calls that attach, detach or operate timers, in any order.

## Main definitions

* `timerLts` : these operations, with interrupt ids below 32.
* `Board.Coherent` : the pending events are the matches of timers that wait for them.
* `IdsUnique` : the condition on an operation under which it keeps them so.

## Main results

* `coherent_of_run` : in every run of such operations the events are coherent.
* `not_coherent_of_not_unique` : any other operation gives a timer an event that `stop()` does not
  cancel.
* `not_coherent_run` : after 2^64 calls of `start()` the id 0 is handed out.
-/

namespace EFS

namespace System

open EFS.Drivers

namespace Board

variable {T H : Type} [DecidableEq T] {b : Board T H} {r : T}

/-- The pending events of timer `r`. -/
def eventsOf (b : Board T H) (r : T) : List (Event T) :=
  b.scheduler.events.filter fun ev => ev.callback = some r

theorem mem_eventsOf {ev : Event T} :
    ev ∈ b.eventsOf r ↔ ev ∈ b.scheduler.events ∧ ev.callback = some r := by
  simp [eventsOf]

/-- What the pending event of a timer says agrees with its registers and the clock. -/
structure TimerCoherent (b : Board T H) (r : T) : Prop where
  atMostOne : (b.eventsOf r).length ≤ 1
  id_eq : ∀ ev ∈ b.eventsOf r, ev.id = (b.timer r).scheduledEventId
  attached : ∀ ev ∈ b.eventsOf r, r ∈ b.timers
  running : ∀ ev ∈ b.eventsOf r, (b.timer r).running = true
  below : ∀ ev ∈ b.eventsOf r, (b.timer r).counter < (b.timer r).compare
  cycle_eq : ∀ ev ∈ b.eventsOf r,
    ev.cycle = b.clock.cycles + ((b.timer r).compare - (b.timer r).counter).toUInt64
  idle : (b.timer r).running = false ∨ r ∉ b.timers → b.eventsOf r = []

/-- The scheduler has no other events than those of timers, and each timer is coherent. -/
def Coherent (b : Board T H) : Prop :=
  (∀ ev ∈ b.scheduler.events, ∃ r, ev.callback = some r) ∧ ∀ r, b.TimerCoherent r

theorem Synced.coherent (h : b.Synced) : b.Coherent := by
  -- the events of a timer are the one that it knows, and it has one only if it waits
  have hown {ev : Event T} {r : T} (hev : ev ∈ b.eventsOf r) :
      (b.timer r).scheduledEventId ≠ 0 ∧ ev = ownEvent (b.timer r) r b.clock :=
    h.events.eq_own (mem_eventsOf.1 hev).1 (mem_eventsOf.1 hev).2
  have hwait {ev : Event T} {r : T} (hev : ev ∈ b.eventsOf r) :
      r ∈ b.timers ∧ (b.timer r).Waiting := h.waiting r (hown hev).1
  refine ⟨?_, fun r => ⟨?_, ?_, fun ev hev => (hwait hev).1,
    fun ev hev => (hwait hev).2.1, fun ev hev => (hwait hev).2.2, ?_, ?_⟩⟩
  · intro ev hev
    obtain ⟨r, -, rfl⟩ := (h.events.mem_pool ev).1 hev
    exact ⟨r, rfl⟩
  · have hnodup : (b.eventsOf r).Nodup := h.events.nodup.of_map.filter _
    have hsub : ∀ ev ∈ b.eventsOf r, ev ∈ [ownEvent (b.timer r) r b.clock] := fun ev hev =>
      List.mem_singleton.2 (hown hev).2
    exact (hnodup.subperm hsub).length_le
  · intro ev hev
    rw [(hown hev).2]
    rfl
  · intro ev hev
    rw [(hown hev).2]
    rfl
  · intro hr
    refine List.eq_nil_iff_forall_not_mem.2 ?_
    intro ev hev
    obtain ⟨hmem, hrun, -⟩ := hwait hev
    rcases hr with hr | hr
    · exact Bool.false_ne_true (hr.symm.trans hrun)
    · exact hr hmem

end Board

end System

namespace Cpu

open EFS.System EFS.Drivers EFS.Mmio

variable {T H : Type}

/-- The operations on a CPU and the timers of its bus. -/
inductive TimerLabel (T : Type) where
  | step
  | reset
  | attachTimer (r : T)
  | detachTimer (r : T)
  | timer (r : T) (o : Timer.Op)

/-- Interrupt ids are below 32. -/
def TimerLabel.Valid : TimerLabel T → Prop
  | .timer _ (.attachInterruptController id) => id.toNat < 32
  | _ => True

/-- A bus to which nothing has been attached yet, with new timers. -/
structure NewBus (bus : Board T H) : Prop where
  timers : bus.timers = []
  scheduler : bus.scheduler = .init
  timer : ∀ r, bus.timer r = .new

theorem NewBus.synced {bus : Board T H} (h : NewBus bus) : bus.Synced := by
  refine ⟨by simp [h.timers], ?_, ?_, ?_⟩
  · intro r
    simpa [h.timer r, h.timers] using OnBus.new
  · intro r h₀
    exact absurd (by rw [h.timer r]; rfl) h₀
  · rw [h.scheduler]
    exact ⟨List.nodup_nil, fun ev => by simp [EventScheduler.init, h.timer, Timer.new]⟩

variable [DecidableEq T]

/-- The board after a cycle, a reset, an attachment or a call of a timer. -/
def CPU.perform (c : CPU T H) : TimerLabel T → CPU T H
  | .step => c.step.1
  | .reset => c.reset
  | .attachTimer r => { c with bus := c.bus.attachTimer r }
  | .detachTimer r => { c with bus := c.bus.detachTimer r }
  | .timer r o =>
    let called := (c.bus.timer r).perform r c.bus.clock c.bus.scheduler o
    { c with bus := c.bus.setTimer r called.1 called.2 }

/-- The runs of a board with labels that its timers accept. -/
def timerLts (T H : Type) [DecidableEq T] : LTS (CPU T H) (TimerLabel T) where
  step c l c' := l.Valid ∧ c' = c.perform l

/-- An operation that schedules an event gets an id that is valid and not that of an event of
another timer. -/
def IdsUnique (c : CPU T H) : TimerLabel T → Prop
  | .timer r o =>
    r ∈ c.bus.timers → Schedules (c.bus.timer r) o → NextIdUnique c.bus.scheduler r
  | .attachTimer r =>
    r ∉ c.bus.timers → (c.bus.timer r).Waiting → NextIdUnique c.bus.scheduler r
  | _ => True

instance (c : CPU T H) : DecidablePred (IdsUnique c)
  | .timer _ _ | .attachTimer _ => inferInstanceAs (Decidable (_ → _))
  | .step | .reset | .detachTimer _ => inferInstanceAs (Decidable True)

theorem synced_step {c : CPU T H} (h : c.bus.Synced) : c.step.1.bus.Synced := by
  by_cases hpower : c.power = .on
  · have htick := Board.tickTimers_eq h.timers h.onBus
    obtain ⟨bus, hrun, hsynced⟩ := h.executing.runBatch
    have hready := (Board.executeReadyEvents_eq (b := c.bus.ticked) _).trans hrun
    rw [CPU.step_bus hpower htick hready]
    exact ⟨hsynced.timers, hsynced.onBus, hsynced.waiting, hsynced.events⟩
  · rw [CPU.step, if_pos hpower]
    exact h

theorem synced_perform {c : CPU T H} {l : TimerLabel T} (h : c.bus.Synced) (hl : l.Valid)
    (hunique : IdsUnique c l) : (c.perform l).bus.Synced := by
  cases l with
  | step => exact synced_step h
  | reset => exact h.reset
  | attachTimer r => exact h.attachTimer hunique
  | detachTimer r => exact h.detachTimer
  | timer r o => exact h.perform o (fun id ho => by subst ho; exact hl) hunique

/-- **Coherence.**  In every run whose operations get unique ids, the pending events are the matches
of the timers in every state. -/
theorem coherent_of_run {c c' : CPU T H} {ls : List (TimerLabel T)} (hnew : NewBus c.bus)
    (hrun : ((timerLts T H).restrict IdsUnique).Run c ls c') : c'.bus.Coherent := by
  have hsynced : c'.bus.Synced := by
    refine hrun.invariant (I := fun c => c.bus.Synced) hnew.synced ?_
    rintro c l d h ⟨hunique, hl, rfl⟩
    exact synced_perform h hl hunique
  exact hsynced.coherent

/-! ### Ids that are not unique -/

/-- A timer that was given an id that is not unique keeps its event when it is stopped. -/
theorem mem_stop_of_not_unique {b : Board T H} {r : T} {t : Timer} (h : b.Synced)
    (hid : t.scheduledEventId = (b.timer r).scheduledEventId)
    (hsched : t.scheduler = true) (hclock : t.clock = true) (hw : t.Waiting)
    (hunique : ¬ NextIdUnique b.scheduler r) :
    let updated := t.updateScheduledEvent r b.clock b.scheduler
    t.matchEvent r b.clock b.scheduler.nextId ∈ (updated.1.stop updated.2).2.events := by
  obtain ⟨cancelled, hcancel, hnext, -, hmem⟩ :=
    cancelScheduledEvent_spec h.events hid fun _ => hsched
  intro updated
  -- the update leaves the event of the timer at the end of the list
  have hupdated : updated = ({ t with scheduledEventId := b.scheduler.nextId },
      ⟨b.scheduler.nextId + 1,
        cancelled.events ++ [t.matchEvent r b.clock b.scheduler.nextId]⟩) := by
    show t.updateScheduledEvent r b.clock b.scheduler = _
    rw [Timer.updateScheduledEvent, hcancel, scheduleMatch_of_waiting hclock hsched hw, hnext]
  rw [hupdated, Timer.stop, Timer.cancelScheduledEvent]
  split_ifs with hc
  · -- an event of another timer has the same id, and `cancel` finds that one first
    obtain ⟨ev, hev, heid, hother⟩ : ∃ ev ∈ b.scheduler.events,
        ev.id = b.scheduler.nextId ∧ ev.callback ≠ some r := by
      by_contra hnone
      push Not at hnone
      exact hunique ⟨hc.1, hnone⟩
    have hleft : ev ∈ cancelled.events := by
      refine (hmem ev).2 (((h.events.mem_pool_split r ev).1 hev).resolve_right ?_)
      rintro ⟨-, rfl⟩
      exact hother rfl
    have herase := List.eraseP_append_left
      (p := fun ev : Event T => decide (ev.id = b.scheduler.nextId)) (decide_eq_true heid)
      [t.matchEvent r b.clock b.scheduler.nextId] hleft
    show _ ∈ (EventScheduler.cancel _ b.scheduler.nextId).2.events
    simp only [EventScheduler.cancel]
    split_ifs with h₀
    · exact absurd h₀ hc.1
    · rw [herase]
      exact List.mem_append_right _ List.mem_cons_self
    · simp
  · simp

theorem not_coherent_stop {b : Board T H} {r : T} {t : Timer} {c : CPU T H} (h : b.Synced)
    (hid : t.scheduledEventId = (b.timer r).scheduledEventId)
    (hsched : t.scheduler = true) (hclock : t.clock = true) (hw : t.Waiting)
    (hunique : ¬ NextIdUnique b.scheduler r)
    (htimer : c.bus.timer r = (t.updateScheduledEvent r b.clock b.scheduler).1)
    (hscheduler : c.bus.scheduler = (t.updateScheduledEvent r b.clock b.scheduler).2) :
    ¬ (c.perform (.timer r .stop)).bus.Coherent := by
  have hmem := mem_stop_of_not_unique h hid hsched hclock hw hunique
  simp only [← htimer, ← hscheduler] at hmem
  intro hc
  have hidle := (hc.2 r).idle (.inl ?_)
  · have hevent : t.matchEvent r b.clock b.scheduler.nextId ∈
        (c.perform (.timer r .stop)).bus.eventsOf r := Board.mem_eventsOf.2 ⟨hmem, rfl⟩
    exact absurd (hidle ▸ hevent) List.not_mem_nil
  · simpa [CPU.perform, Board.setTimer, Timer.perform] using running_stop

/-- The condition leaves out no other operations: in any state of such a run, each of them leads to
a state in which the events of the timers are not coherent, at the latest when the timer is
stopped. -/
theorem not_coherent_of_not_unique {c : CPU T H} {l : TimerLabel T} (h : c.bus.Synced)
    (hl : ¬ IdsUnique c l) : ∃ r, ¬ ((c.perform l).perform (.timer r .stop)).bus.Coherent := by
  cases l with
  | step | reset | detachTimer r => exact absurd trivial hl
  | attachTimer r =>
    simp only [IdsUnique, Classical.not_imp] at hl
    obtain ⟨hnot, hw, hunique⟩ := hl
    refine ⟨r, not_coherent_stop (t := { (c.bus.timer r).attachClock c.bus.clock with
      scheduler := true }) h rfl rfl rfl hw hunique ?_ ?_⟩
    all_goals
      rw [CPU.perform, Board.attachTimer, if_neg hnot]
      simp [Board.setTimer, Timer.attachScheduler]
  | timer r o =>
    simp only [IdsUnique, Classical.not_imp] at hl
    obtain ⟨hmem, hs, hunique⟩ := hl
    have hsched : (c.bus.timer r).scheduler = true := (h.onBus r).scheduler_iff.2 hmem
    have hclock : (c.bus.timer r).clock = true := (h.onBus r).clock_iff.2 hmem
    cases o with
    | start =>
      have hsync : (c.bus.timer r).enabled.syncClock c.bus.clock =
          { (c.bus.timer r).enabled with lastClockCycles := c.bus.clock.cycles } := if_pos hclock
      refine ⟨r, not_coherent_stop (t := (c.bus.timer r).enabled.syncClock c.bus.clock) h ?_ ?_ ?_
        ?_ hunique (by simp [CPU.perform, Board.setTimer, Timer.perform, Timer.start]) rfl⟩
      all_goals rw [hsync]
      · rfl
      · exact hsched
      · exact hclock
      · exact ⟨Timer.running_enabled, hs⟩
    | setCompare value =>
      exact ⟨r, not_coherent_stop (t := { c.bus.timer r with
        compareRegister := (c.bus.timer r).compareRegister.write value }) h rfl hsched hclock hs
        hunique (by simp [CPU.perform, Board.setTimer, Timer.perform, Timer.setCompare]) rfl⟩
    -- these schedule nothing, so their ids are always unique
    | stop | reset | clearMatch | setAutoReset enable | setInterruptEnabled enable
      | attachInterruptController id | detachInterruptController => exact hs.elim

/-- A bus with one new timer, not attached yet. -/
def newTimer : CPU Unit Unit := ⟨.on, 0, ⟨⟨0⟩, .init, .init, [], fun _ => .new, []⟩⟩

theorem newTimer_newBus : NewBus newTimer.bus := ⟨rfl, rfl, fun _ => rfl⟩

/-- The timer counts to 2 and stops. -/
theorem coherent_newTimer :
    let c := [.attachTimer (), .timer () (.setCompare 2), .timer () .start, .step].foldl
      CPU.perform newTimer
    c.bus.Coherent ∧ c.bus.scheduler.events.map Event.cycle = [2] := by
  intro c
  have hrun : ((timerLts Unit Unit).restrict IdsUnique).Run newTimer
      [.attachTimer (), .timer () (.setCompare 2), .timer () .start, .step] c :=
    .cons ⟨by decide, trivial, rfl⟩ (.cons ⟨by decide, trivial, rfl⟩
      (.cons ⟨by decide, trivial, rfl⟩ (.cons ⟨trivial, trivial, rfl⟩ (.nil _))))
  exact ⟨coherent_of_run newTimer_newBus hrun, rfl⟩

/-- The timer with compare value 1 after `k` calls of `start()`. -/
def started (k : ℕ) : CPU Unit Unit where
  power := .on
  cycleCount := 0
  bus :=
    { clock := ⟨0⟩
      scheduler := ⟨.ofNat (k + 1), [⟨.ofNat k, 1, some (), "Timer Compare Match"⟩]⟩
      interrupts := .init
      timers := [()]
      timer := fun _ => ⟨⟨0, 1⟩, ⟨0, 0⟩, ⟨0, 1⟩, ⟨0, 0⟩, false, 0, true, true, .ofNat k, 0⟩
      triggered := [] }

theorem start_started {k : ℕ} (h : UInt64.ofNat k ≠ 0) :
    (started k).perform (.timer () .start) = started (k + 1) := by
  let t : Timer :=
    ⟨⟨0, 1⟩, ⟨0, 0⟩, ⟨0, 1⟩, ⟨0, 0⟩, false, 0, true, true, .ofNat k, 0⟩
  have hcancel : t.cancelScheduledEvent (started k).bus.scheduler =
      ({ t with scheduledEventId := 0 }, ⟨.ofNat (k + 1), []⟩) := by
    simp [Timer.cancelScheduledEvent, EventScheduler.cancel, started, t, h]
  have hsame : t.enabled.syncClock ⟨0⟩ = t := by
    simp [t, Timer.syncClock, Timer.enabled, Register.write, Register.read, ctrlEnableBit]
  have hcalled : t.start () ⟨0⟩ (started k).bus.scheduler =
      ((started (k + 1)).bus.timer (), (started (k + 1)).bus.scheduler) := by
    have hwaiting : t.Waiting := by
      simp [t, Timer.Waiting, Timer.running, Timer.compare, Timer.counter, Register.read,
        ctrlEnableBit]
    rw [Timer.start, hsame, Timer.updateScheduledEvent, hcancel,
      scheduleMatch_of_waiting rfl rfl hwaiting]
    simp [started, Timer.matchEvent, Timer.compare, Timer.counter, Register.read, t]
  let called := t.start () ⟨0⟩ (started k).bus.scheduler
  show { started k with bus := (started k).bus.setTimer () called.1 called.2 } = started (k + 1)
  rw [show called = _ from hcalled]
  rfl

theorem run_started {k : ℕ} (hk : k < 2 ^ 64) :
    (timerLts Unit Unit).Run (started 1) (.replicate k (.timer () .start)) (started (k + 1)) := by
  induction k with
  | zero => exact .nil _
  | succ k ih =>
    have hid : UInt64.ofNat (k + 1) ≠ 0 := by
      intro h
      have hmod : (k + 1) % 2 ^ 64 = 0 := congrArg UInt64.toNat h
      omega
    rw [List.replicate_succ']
    exact (ih (by omega)).snoc ⟨trivial, (start_started hid).symm⟩

/-- When 2^64 ids have been handed out, the timer has an event with the id 0, which `stop()` does
not cancel. -/
theorem not_coherent_run : ¬ ∀ (c c' : CPU Unit Unit) (ls : List (TimerLabel Unit)),
    NewBus c.bus → (timerLts Unit Unit).Run c ls c' → c'.bus.Coherent := by
  intro h
  have hfirst : (timerLts Unit Unit).Run newTimer
      [.attachTimer (), .timer () (.setCompare 1), .timer () .start] (started 1) :=
    .cons ⟨trivial, rfl⟩ (.cons ⟨trivial, rfl⟩ (.cons ⟨trivial, rfl⟩ (.nil _)))
  have hlast : (timerLts Unit Unit).Run (started (2 ^ 64)) [.timer () .stop]
      ((started (2 ^ 64)).perform (.timer () .stop)) := .single ⟨trivial, rfl⟩
  have hrun := (hfirst.append (run_started (k := 2 ^ 64 - 1) (by decide))).append hlast
  have hidle := ((h _ _ _ newTimer_newBus hrun).2 ()).idle (.inl (by decide))
  exact absurd hidle (by decide)

end Cpu

end EFS
