import EFS.Cpu.Step
import EFS.System.PowerOn

/-!
# Steps of the hardware that throw nothing

The hardware part of a step throws only if a timer triggers a line that does not exist.  A timer
that is stopped at 0 without a match stays so until somebody calls it (`AtRest`); an event that it
still has does nothing.
-/

namespace EFS

namespace Drivers

open EFS.System

namespace Timer

variable {Cb : Type} (t : Timer) (self : Cb) (clock : SimulationClock) (sched : EventScheduler Cb)

@[simp] theorem line_cancelScheduledEvent : (t.cancelScheduledEvent sched).1.line = t.line := by
  unfold cancelScheduledEvent
  split_ifs <;> rfl

@[simp] theorem line_updateScheduledEvent :
    (t.updateScheduledEvent self clock sched).1.line = t.line := by
  unfold updateScheduledEvent scheduleMatch
  split_ifs <;> exact t.line_cancelScheduledEvent sched

@[simp] theorem line_syncClock : (t.syncClock clock).line = t.line := by
  unfold syncClock
  split_ifs <;> rfl

theorem line_start : (t.start self clock sched).1.line = t.line :=
  (line_updateScheduledEvent _ self clock sched).trans (t.enabled.line_syncClock clock)

theorem line_stop : (t.stop sched).1.line = t.line := t.disabled.line_cancelScheduledEvent sched

theorem line_reset : (t.reset clock sched).1.line = t.line :=
  (line_syncClock _ clock).trans (t.line_stop sched)

theorem line_setCompare (value : UInt32) :
    (t.setCompare self clock sched value).1.line = t.line :=
  line_updateScheduledEvent _ self clock sched

/-- The timer is stopped at 0, without a match. -/
structure AtRest : Prop where
  running : t.running = false
  counter : t.counter = 0
  hasMatch : t.hasMatch = false

theorem AtRest.of_register {t t' : Timer} (h : t.AtRest) (hreg : t'.register = t.register) :
    t'.AtRest := by
  have hctrl : t'.ctrlRegister = t.ctrlRegister := congrFun hreg .ctrl
  have hcount : t'.countRegister = t.countRegister := congrFun hreg .count
  have hstatus : t'.statusRegister = t.statusRegister := congrFun hreg .status
  refine ⟨?_, ?_, ?_⟩
  · rw [Timer.running, hctrl]
    exact h.running
  · rw [Timer.counter, hcount]
    exact h.counter
  · rw [Timer.hasMatch, hstatus]
    exact h.hasMatch

theorem handleCompareMatch_spec : (t.handleCompareMatch sched).1.line = t.line ∧
    ((t.handleCompareMatch sched).2.2 = none ∨ (t.handleCompareMatch sched).2.2 = t.line) := by
  unfold handleCompareMatch
  split_ifs
  · exact ⟨t.matched.line_stop sched, .inr rfl⟩
  · exact ⟨rfl, .inl rfl⟩

theorem handleCompareMatch_of_stopped (h : t.running = false) :
    t.handleCompareMatch sched = (t, sched, none) := by
  rw [handleCompareMatch, if_pos (by simp [h])]

end Timer

end Drivers

namespace System

open EFS.Drivers EFS.Mmio

variable {T H : Type}

/-- The interrupt lines of the timers exist. -/
def LinesExist (b : Board T H) : Prop := ∀ r, ∀ id ∈ (b.timer r).line, id.toNat < 32

/-- The same timers, with the same reset values and with lines that exist if they did before. -/
structure Kept (b b' : Board T H) : Prop where
  timers : b'.timers = b.timers
  initial : ∀ t, SameInitial (b.timer t).register (b'.timer t).register
  lines : LinesExist b → LinesExist b'

namespace Kept

variable {u : T} {b b' b'' : Board T H}

theorem refl (b : Board T H) : Kept b b := ⟨rfl, fun _ => .refl _, id⟩

theorem trans (h : Kept b b') (h' : Kept b' b'') : Kept b b'' :=
  ⟨h'.timers.trans h.timers, fun t => (h.initial t).trans (h'.initial t), h'.lines ∘ h.lines⟩

theorem of_eq (htimers : b'.timers = b.timers) (h : b'.timer = b.timer) : Kept b b' := by
  refine ⟨htimers, ?_, ?_⟩
  · intro t
    rw [h]
    exact .refl _
  · intro hlines
    unfold LinesExist
    rw [h]
    exact hlines

theorem setTimer [DecidableEq T] {t : Timer} {sched : EventScheduler T}
    (hinitial : SameInitial (b.timer u).register t.register) (hline : t.line = (b.timer u).line) :
    Kept b (b.setTimer u t sched) := by
  refine ⟨rfl, fun v => ?_, fun h v => ?_⟩ <;> by_cases hv : v = u
  · subst hv
    simpa [Board.setTimer] using hinitial
  · simpa [Board.setTimer, hv] using .refl _
  · subst hv
    simpa [Board.setTimer, hline] using h v
  · simpa [Board.setTimer, hv] using h v

end Kept

/-- Besides, the timers that were at rest still are. -/
structure Quiet (b b' : Board T H) : Prop extends Kept b b' where
  rest : ∀ r, (b.timer r).AtRest → (b'.timer r).AtRest

namespace Quiet

variable {u : T} {b b' b'' : Board T H}

theorem refl (b : Board T H) : Quiet b b := ⟨.refl b, fun _ => id⟩

theorem trans (h : Quiet b b') (h' : Quiet b' b'') : Quiet b b'' :=
  ⟨h.toKept.trans h'.toKept, fun r => h'.rest r ∘ h.rest r⟩

theorem of_eq (htimers : b'.timers = b.timers) (h : b'.timer = b.timer) : Quiet b b' := by
  refine ⟨.of_eq htimers h, ?_⟩
  intro r hrest
  rw [h]
  exact hrest

variable [DecidableEq T]

theorem setTimer {t : Timer} {sched : EventScheduler T}
    (hinitial : SameInitial (b.timer u).register t.register) (hline : t.line = (b.timer u).line)
    (hrest : (b.timer u).AtRest → t.AtRest) : Quiet b (b.setTimer u t sched) := by
  refine ⟨.setTimer hinitial hline, ?_⟩
  intro r h
  by_cases hr : r = u
  · subst hr
    simpa [Board.setTimer] using hrest h
  · simpa [Board.setTimer, hr] using h

omit [DecidableEq T] in
theorem trigger {o : Option UInt8} (hlines : LinesExist b)
    (ho : o = none ∨ o = (b.timer u).line) :
    ∃ b', b.trigger u o = (b', none) ∧ Quiet b b' := by
  have hexists : ∀ id ∈ o, id.toNat < 32 := by
    rcases ho with rfl | rfl
    · simp
    · exact hlines u
  obtain ⟨ic, htrigger⟩ := Board.trigger_of_exists (b := b) (r := u) hexists
  exact ⟨_, htrigger, of_eq rfl rfl⟩

theorem tickTimer (hlines : LinesExist b) :
    ∃ b', b.tickTimer u = (b', none) ∧ Quiet b b' := by
  obtain ⟨t, o, htick, hline, ho⟩ := Timer.tick_spec (b.timer u) b.clock b.scheduler
  have hset : Quiet b (b.setTimer u t b.scheduler) := by
    have hinitial := (b.timer u).sameInitial_tick b.clock b.scheduler
    rw [htick] at hinitial
    refine setTimer hinitial hline ?_
    intro h
    have ht : t = (b.timer u).syncClock b.clock := by
      rw [Timer.tick, if_pos (by simp [h.running])] at htick
      exact (congrArg Prod.fst htick).symm
    rw [ht]
    exact h.of_register ((b.timer u).register_syncClock b.clock)
  obtain ⟨b', htrigger, hquiet⟩ := trigger (u := u) (hset.lines hlines)
    (by simpa [Board.setTimer, hline] using ho)
  refine ⟨b', ?_, hset.trans hquiet⟩
  rw [Board.tickTimer, htick]
  exact htrigger

theorem matchTimer (hlines : LinesExist b) :
    ∃ b', b.matchTimer u = (b', none) ∧ Quiet b b' := by
  obtain ⟨hline, ho⟩ := Timer.handleCompareMatch_spec (b.timer u) b.scheduler
  set matched := (b.timer u).handleCompareMatch b.scheduler with hmatched
  have hset : Quiet b (b.setTimer u matched.1 matched.2.1) := by
    refine setTimer ((b.timer u).sameInitial_handleCompareMatch b.scheduler) hline ?_
    intro h
    rw [hmatched, Timer.handleCompareMatch_of_stopped _ _ h.running]
    exact h
  obtain ⟨b', htrigger, hquiet⟩ := trigger (u := u) (hset.lines hlines)
    (by simpa [Board.setTimer, hline] using ho)
  exact ⟨b', htrigger, hset.trans hquiet⟩

theorem tickEach (us : List T) (hlines : LinesExist b) :
    ∃ b', b.tickEach us = (b', none) ∧ Quiet b b' := by
  induction us generalizing b with
  | nil => exact ⟨b, rfl, refl b⟩
  | cons u us ih =>
    obtain ⟨b₁, htick, hquiet⟩ := tickTimer (u := u) hlines
    obtain ⟨b₂, hticks, hquiet'⟩ := ih (hquiet.lines hlines)
    refine ⟨b₂, ?_, hquiet.trans hquiet'⟩
    rw [Board.tickEach, htick]
    exact hticks

theorem runBatch (batch : List (Event T)) (hlines : LinesExist b) :
    ∃ b', b.runBatch batch = (b', none) ∧ Quiet b b' := by
  induction batch generalizing b with
  | nil => exact ⟨b, rfl, refl b⟩
  | cons ev rest ih =>
    cases hcallback : ev.callback with
    | none =>
      obtain ⟨b', hrun, hquiet⟩ := ih hlines
      refine ⟨b', ?_, hquiet⟩
      simp only [Board.runBatch, hcallback]
      exact hrun
    | some u =>
      obtain ⟨b₁, hmatch, hquiet⟩ := matchTimer (u := u) hlines
      obtain ⟨b₂, hrun, hquiet'⟩ := ih (hquiet.lines hlines)
      refine ⟨b₂, ?_, hquiet.trans hquiet'⟩
      simp only [Board.runBatch, hcallback, hmatch]
      exact hrun

theorem executeReadyEvents (c : UInt64) (hlines : LinesExist b) :
    ∃ b', b.executeReadyEvents c = (b', none) ∧ Quiet b b' := by
  unfold Board.executeReadyEvents
  split_ifs
  · exact ⟨b, rfl, refl b⟩
  · have htaken : Quiet b { b with scheduler := (b.scheduler.takeReady c).2 } := of_eq rfl rfl
    obtain ⟨b', hrun, hquiet⟩ := runBatch (b.scheduler.takeReady c).1
      (htaken.lines hlines)
    exact ⟨b', hrun, htaken.trans hquiet⟩

/-- **The hardware part of a step.** -/
theorem step {c : Cpu.CPU T H} (hpower : c.power = .on) (hlines : LinesExist c.bus) :
    c.step.2.1 = none ∧ c.step.1.cycleCount = c.cycleCount + 1 ∧ Quiet c.bus c.step.1.bus := by
  have hclock : Quiet c.bus { c.bus with clock := c.bus.clock.tick 1 } := of_eq rfl rfl
  obtain ⟨b₁, htick, hquiet⟩ := tickEach c.bus.timers (hclock.lines hlines)
  have hquiet := hclock.trans hquiet
  obtain ⟨b₂, hready, hquiet'⟩ := executeReadyEvents b₁.clock.cycles (hquiet.lines hlines)
  rw [Cpu.CPU.step_eq hpower htick hready]
  exact ⟨rfl, rfl, (hquiet.trans hquiet').trans (of_eq rfl rfl)⟩

end Quiet

/-! ### A reset of the bus -/

variable [DecidableEq T] {b : Board T H}

theorem Kept.resetEach (us : List T) : Kept b (b.resetEach us) := by
  induction us generalizing b with
  | nil => exact .refl b
  | cons u us ih =>
    have hreset : Kept b (b.setTimer u ((b.timer u).reset b.clock b.scheduler).1
        ((b.timer u).reset b.clock b.scheduler).2) :=
      .setTimer ((b.timer u).sameInitial_reset b.clock b.scheduler)
        ((b.timer u).line_reset b.clock b.scheduler)
    exact hreset.trans ih

theorem Kept.reset (b : Board T H) : Kept b b.reset :=
  (Kept.resetEach b.timers).trans (.of_eq rfl rfl)

theorem atRest_reset {r : T} (hmem : r ∈ b.timers)
    (hinitial : SameInitial Timer.new.register (b.timer r).register) :
    (b.reset.timer r).AtRest := by
  have hread : ∀ k, k ≠ .compare → ((b.reset.timer r).register k).read = 0 := by
    intro k hk
    have hreg : (b.reset.timer r).register k = _ := Board.register_resetEach b.timers r k
    rw [hreg, if_pos ⟨hmem, hk⟩, Register.read_reset, hinitial k]
    cases k <;> rfl
  have hctrl : (b.reset.timer r).ctrlRegister.read = 0 := hread .ctrl (by decide)
  have hstatus : (b.reset.timer r).statusRegister.read = 0 := hread .status (by decide)
  exact ⟨by simp [Timer.running, hctrl], hread .count (by decide),
    by simp [Timer.hasMatch, hstatus]⟩

end System

end EFS
