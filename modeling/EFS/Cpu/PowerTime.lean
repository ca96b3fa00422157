import EFS.Cpu.TimerEvents

/-!
# Power and time

The cycle counter of the CPU and the clock of its bus are counted separately.  A step with power
advances the one before it does anything else, and the other one next, so that an exception of a
timer or of an event does not come between them.

* `PowerController` : the power states and how they change.
* `time_of_run` : the two counters agree, and what they show depends on the steps, the resets and
  the power states of a run only.
-/

namespace EFS

namespace System

namespace Board

variable {T H : Type} {b : Board T H} {r : T}

theorem clock_trigger (o : Option UInt8) : (b.trigger r o).1.clock = b.clock := by
  cases o with
  | none => rfl
  | some id =>
    rw [trigger]
    split
    · rfl
    · rfl

variable [DecidableEq T]

theorem clock_tickEach (rs : List T) : (b.tickEach rs).1.clock = b.clock := by
  induction rs generalizing b with
  | nil => rfl
  | cons r rs ih =>
    have htick : (b.tickTimer r).1.clock = b.clock := clock_trigger _
    rw [tickEach]
    split
    · rename_i b' heq
      rw [heq] at htick
      exact ih.trans htick
    · rename_i b' e heq
      rw [heq] at htick
      exact htick

/-- Also if a timer throws. -/
theorem clock_tickTimers : b.tickTimers.1.clock = b.clock.tick 1 := clock_tickEach _

theorem clock_runBatch (batch : List (Event T)) : (b.runBatch batch).1.clock = b.clock := by
  induction batch generalizing b with
  | nil => rfl
  | cons ev rest ih =>
    rw [runBatch]
    split
    · exact ih
    · rename_i r _
      have hmatch : (b.matchTimer r).1.clock = b.clock := clock_trigger _
      split
      · rename_i b' heq
        rw [heq] at hmatch
        exact ih.trans hmatch
      · rename_i b' e heq
        rw [heq] at hmatch
        exact hmatch

theorem clock_executeReadyEvents (c : UInt64) : (b.executeReadyEvents c).1.clock = b.clock := by
  rw [executeReadyEvents]
  split_ifs
  · rfl
  · exact clock_runBatch _

end Board

end System

namespace Cpu

open EFS.System EFS.Drivers

/-! ### The power controller -/

/-- The power controller of a CPU. -/
structure PowerController where
  state : PowerState

/-- The calls that change the power state. -/
inductive PowerOp where
  | powerOn
  | powerOff
  | sleep
  | wake

namespace PowerController

variable (p : PowerController)

/-- `powerOn()`, without effect on a CPU that is on. -/
def powerOn : PowerController := if p.state ≠ .on then { p with state := .on } else p

/-- `powerOff()`, without effect on a CPU that is off. -/
def powerOff : PowerController := if p.state ≠ .off then { p with state := .off } else p

/-- Only a system that is on can be put to sleep. -/
def sleep : PowerController := if p.state = .on then { p with state := .sleep } else p

/-- Only a system that sleeps wakes up. -/
def wake : PowerController := if p.state = .sleep then { p with state := .on } else p

/-- The power controller after a call. -/
def perform : PowerOp → PowerController
  | .powerOn => p.powerOn
  | .powerOff => p.powerOff
  | .sleep => p.sleep
  | .wake => p.wake

end PowerController

/-! ### Runs -/

/-- The operations on a CPU, its power controller and the timers of its bus. -/
inductive PowerLabel (T : Type) where
  | power (o : PowerOp)
  | call (l : TimerLabel T)

/-- The power state and the number of steps taken with power since the last reset. -/
def tally {T : Type} : PowerState × ℕ → PowerLabel T → PowerState × ℕ
  | (state, n), .power o => ((PowerController.mk state).perform o |>.state, n)
  | (state, n), .call .step => (state, if state = .on then n + 1 else n)
  | (state, _), .call .reset => (state, 0)
  | s, .call _ => s

variable {T H : Type} [DecidableEq T]

/-- Any operation at any time; interrupt ids need not exist, so that matches may throw. -/
def powerLts (T H : Type) [DecidableEq T] : LTS (CPU T H) (PowerLabel T) where
  step c l c' :=
    match l with
    | .power o => c' = { c with power := ((PowerController.mk c.power).perform o).state }
    | .call l => c' = c.perform l

namespace CPU

variable {c c' : CPU T H} {ls : List (PowerLabel T)}

/-- The counters advance together in a step, whatever is thrown. -/
theorem step_time (h : c.power = .on) : c.step.1.power = .on ∧
    c.step.1.cycleCount = c.cycleCount + 1 ∧ c.step.1.bus.clock = c.bus.clock.tick 1 := by
  have hticks : c.bus.tickTimers.1.clock = c.bus.clock.tick 1 := Board.clock_tickTimers
  rw [CPU.step, if_neg (not_not.2 h)]
  rcases hbus : c.bus.tickTimers with ⟨bus, _ | e⟩
  · rw [hbus] at hticks
    have hexecute : (bus.executeReadyEvents bus.clock.cycles).1.clock = bus.clock :=
      Board.clock_executeReadyEvents _
    rcases hbus' : bus.executeReadyEvents bus.clock.cycles with ⟨bus', _ | e⟩
    · rw [hbus'] at hexecute
      simp only [hbus, hbus']
      exact ⟨h, trivial, hexecute.trans hticks⟩
    · rw [hbus'] at hexecute
      simp only [hbus, hbus']
      exact ⟨h, trivial, hexecute.trans hticks⟩
  · rw [hbus] at hticks
    simp only [hbus]
    exact ⟨h, trivial, hticks⟩

/-- The counters agree with the tally `s`. -/
structure Shows (c : CPU T H) (s : PowerState × ℕ) : Prop where
  power : c.power = s.1
  cycleCount : c.cycleCount = UInt64.ofNat s.2
  clock : c.bus.clock.cycles = UInt64.ofNat s.2

/-- **Step lemma.** -/
theorem Shows.perform {s : PowerState × ℕ} (h : c.Shows s) (l : TimerLabel T) :
    (c.perform l).Shows (tally s (.call l)) := by
  obtain ⟨state, n⟩ := s
  obtain ⟨rfl, hcycles, hclock⟩ := h
  cases l with
  | step =>
    by_cases hpower : c.power = .on
    · obtain ⟨hpower', hcycles', hclock'⟩ := step_time hpower
      have hsucc : UInt64.ofNat (n + 1) = UInt64.ofNat n + 1 := UInt64.ofNat_add n 1
      rw [tally, if_pos hpower]
      refine ⟨hpower'.trans hpower.symm, hcycles'.trans ?_, (congrArg _ hclock').trans ?_⟩
      · rw [hcycles, hsucc]
      · rw [SimulationClock.tick, hclock, hsucc]
    · rw [tally, if_neg hpower, CPU.perform, CPU.step, if_pos hpower]
      exact ⟨rfl, hcycles, hclock⟩
  | reset => exact ⟨rfl, rfl, rfl⟩
  | attachTimer r =>
    refine ⟨rfl, hcycles, Eq.trans ?_ hclock⟩
    rw [CPU.perform, Board.attachTimer]
    split_ifs <;> rfl
  | detachTimer r =>
    refine ⟨rfl, hcycles, Eq.trans ?_ hclock⟩
    rw [CPU.perform, Board.detachTimer]
    split_ifs <;> rfl
  | timer r o => exact ⟨rfl, hcycles, hclock⟩

/-- **Time.**  In every run, the power state is that of the power operations, and the cycle counter
and the clock show the number of steps with power since the last reset, modulo `2 ^ 64`. -/
theorem time_of_run (h : c.bus.clock.cycles = c.cycleCount) (hrun : (powerLts T H).Run c ls c') :
    c'.power = (ls.foldl tally (c.power, c.cycleCount.toNat)).1 ∧
      c'.cycleCount = UInt64.ofNat (ls.foldl tally (c.power, c.cycleCount.toNat)).2 ∧
      c'.bus.clock.cycles = c'.cycleCount := by
  have hstart : c.Shows (c.power, c.cycleCount.toNat) := by
    have hcycles : c.cycleCount = UInt64.ofNat c.cycleCount.toNat := c.cycleCount.ofNat_toNat.symm
    exact ⟨rfl, hcycles, h.trans hcycles⟩
  have hshows : c'.Shows (ls.foldl tally (c.power, c.cycleCount.toNat)) := by
    refine hrun.history (I := fun ls c' => c'.Shows (ls.foldl tally (c.power, c.cycleCount.toNat)))
      hstart ?_
    intro ks d l e hd hstep
    rw [List.foldl_append]
    cases l with
    | power o =>
      obtain rfl := hstep
      exact ⟨congrArg (fun p => ((PowerController.mk p).perform o).state) hd.power, hd.cycleCount,
        hd.clock⟩
    | call l =>
      obtain rfl := hstep
      exact hd.perform l
  exact ⟨hshows.power, hshows.cycleCount, hshows.clock.trans hshows.cycleCount.symm⟩

/-- A step of a system that sleeps does not count. -/
theorem time_of_run_sleeping : ∃ (c' : CPU Unit Unit), (powerLts Unit Unit).Run newTimer
    [.call .step, .power .sleep, .call .step, .power .wake, .call .step] c' ∧
      c'.power = .on ∧ c'.cycleCount = 2 ∧ c'.bus.clock.cycles = c'.cycleCount := by
  obtain ⟨c', hrun⟩ : ∃ c', (powerLts Unit Unit).Run newTimer
      [.call .step, .power .sleep, .call .step, .power .wake, .call .step] c' :=
    ⟨_, .cons rfl (.cons rfl (.cons rfl (.cons rfl (.single rfl))))⟩
  obtain ⟨hpower, hcycles, hclock⟩ := time_of_run rfl hrun
  exact ⟨c', hrun, hpower, hcycles, hclock⟩

end CPU

end Cpu

end EFS
