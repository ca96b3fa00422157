import EFS.Cpu.TimerPair
import EFS.Drivers.Operations
import EFS.System.TimerView

/-!
# Controlling a timer through its registers

A write to the CTRL or the COMPARE register of a timer does not schedule its compare match, and does
not cancel it, as `start`, `stop` and `setCompare` do.  A timer on a bus has no other source of
matches, so one that is enabled through its register runs past its compare value.

Two CPUs are driven side by side, the one by calls and the other by the writes.

* `registerControl_iff` : their timers look the same after every step of a run iff at each step that
  finds them running a match is due in both or in none.
* `not_alike_oneStep` : a timer that is enabled through its registers misses its match.
-/

namespace EFS

namespace Drivers

open EFS.Mmio

namespace Timer

/-- The address of CTRL in the block of a timer. -/
def ctrlAddress (baseAddress : Address) : Address := baseAddress + 0x00

/-- The address of COMPARE in the block of a timer. -/
def compareAddress (baseAddress : Address) : Address := baseAddress + 0x08

/-- The timer with the register `reg` replaced. -/
def setRegister (t : Timer) (r : Register) : TimerRegister → Timer
  | .ctrl => { t with ctrlRegister := r }
  | .count => { t with countRegister := r }
  | .compare => { t with compareRegister := r }
  | .status => { t with statusRegister := r }

end Timer

end Drivers

namespace System

open EFS.Drivers EFS.Mmio

namespace Board

variable {T H : Type} [DecidableEq T] (b : Board T H)

/-- The register behind a reference. -/
def timerRegister (reg : T × TimerRegister) : Register := (b.timer reg.1).register reg.2

/-- The board with a register of one of its timers replaced. -/
def setTimerRegister (reg : T × TimerRegister) (r : Register) : Board T H :=
  b.setTimer reg.1 ((b.timer reg.1).setRegister r reg.2) b.scheduler

/-- `m_mmioBus->write(address, value)`. -/
def write (m : MMIOBus (T × TimerRegister)) (address : Address) (value : UInt32) :
    Except String (Board T H) :=
  m.write address timerRegister setTimerRegister b value

end Board

end System

namespace Cpu

open EFS.System EFS.Drivers EFS.Mmio

variable {T H : Type} [DecidableEq T]

/-- The writes to the registers of a timer, and the steps of the CPU. -/
inductive ControlOp
  | writeCtrl (value : UInt32)
  | writeCompare (value : UInt32)
  | step
  deriving DecidableEq

/-- A write to an address of the bus; one that throws changes nothing. -/
def CPU.writeMmio (m : MMIOBus (T × TimerRegister)) (c : CPU T H) (address : Address)
    (value : UInt32) : CPU T H :=
  match c.bus.write m address value with
  | .ok bus => { c with bus }
  | .error _ => c

/-- The writes, to the registers of the timer at `baseAddress`. -/
def CPU.controlMmio (m : MMIOBus (T × TimerRegister)) (baseAddress : Address) (c : CPU T H) :
    ControlOp → CPU T H
  | .writeCtrl value => c.writeMmio m (Timer.ctrlAddress baseAddress) value
  | .writeCompare value => c.writeMmio m (Timer.compareAddress baseAddress) value
  | .step => c.step.1

/-- The calls of timer `r` that correspond to the writes. -/
def CPU.controlApi (r : T) (c : CPU T H) : ControlOp → CPU T H
  | .writeCtrl value =>
    { c with bus := c.bus.callTimer r (if value &&& ctrlEnableBit ≠ 0 then .start else .stop) }
  | .writeCompare value => { c with bus := c.bus.callTimer r (.setCompare value) }
  | .step => c.step.1

/-- The registers of timer `r` are at `baseAddress`. -/
def MappedAt (m : MMIOBus (T × TimerRegister)) (baseAddress : Address) (r : T) : Prop :=
  ∀ entry ∈ Timer.layout, m.registers (baseAddress + entry.2) = some (r, entry.1)

/-- What a write of a register makes of what is observed. -/
def observeWrite (v : TimerView T H) : ControlOp → TimerView T H
  | .writeCtrl value => { v with running := value &&& ctrlEnableBit ≠ 0 }
  | .writeCompare value => { v with compare := value }
  | .step => v

variable {m : MMIOBus (T × TimerRegister)} {baseAddress : Address} {r : T} {c : CPU T H}
  {o : ControlOp}

/-- **A write.** -/
theorem view_controlMmio (hm : MappedAt m baseAddress r) (h : c.bus.SoleTimer r)
    (ho : o ≠ .step) :
    (c.controlMmio m baseAddress o).bus.view r = observeWrite (c.bus.view r) o ∧
      (c.controlMmio m baseAddress o).bus.SoleTimer r ∧
      (c.controlMmio m baseAddress o).power = c.power := by
  cases o with
  | step => exact absurd rfl ho
  | writeCtrl value =>
    have hmapped := hm (.ctrl, 0x00) (by decide)
    have hwrite : c.bus.write m (Timer.ctrlAddress baseAddress) value = .ok (c.bus.setTimer r
        { c.bus.timer r with ctrlRegister := (c.bus.timer r).ctrlRegister.write value }
        c.bus.scheduler) := by
      simp only [Board.write, MMIOBus.write, Timer.ctrlAddress, hmapped]
      rfl
    rw [CPU.controlMmio, CPU.writeMmio, hwrite]
    refine ⟨?_, h.setTimer ⟨rfl, rfl⟩ h.inStep fun _ => .inl, rfl⟩
    rw [Board.view_setTimer]
    rfl
  | writeCompare value =>
    have hmapped := hm (.compare, 0x08) (by decide)
    have hwrite : c.bus.write m (Timer.compareAddress baseAddress) value = .ok (c.bus.setTimer r
        { c.bus.timer r with compareRegister := (c.bus.timer r).compareRegister.write value }
        c.bus.scheduler) := by
      simp only [Board.write, MMIOBus.write, Timer.compareAddress, hmapped]
      rfl
    rw [CPU.controlMmio, CPU.writeMmio, hwrite]
    refine ⟨?_, h.setTimer ⟨rfl, rfl⟩ h.inStep fun _ => .inl, rfl⟩
    rw [Board.view_setTimer]
    rfl

/-- A call changes the registers first, and then the event. -/
theorem view_callTimer {bus : Board T H} (op : TimerCall) (h : bus.SoleTimer r) {t : Timer}
    (hcall : ∃ e, ((bus.timer r).call r bus.clock bus.scheduler op).1 =
      { t with scheduledEventId := e })
    (hattached : t.clock = (bus.timer r).clock ∧ t.scheduler = (bus.timer r).scheduler)
    (hstep : t.lastClockCycles = bus.clock.cycles)
    (hevents : ∀ ev ∈ ((bus.timer r).call r bus.clock bus.scheduler op).2.events,
      ev ∈ bus.scheduler.events ∨ ev.callback = some r) :
    (bus.callTimer r op).view r = { bus.view r with
      running := t.running, counter := t.counter, compare := t.compare
      hasMatch := t.hasMatch, line := t.line } ∧ (bus.callTimer r op).SoleTimer r := by
  obtain ⟨e, he⟩ := hcall
  refine ⟨?_, h.setTimer (he ▸ hattached) (he ▸ hstep) hevents⟩
  rw [Board.callTimer, Board.view_setTimer, he]
  rfl

/-- **A call.** -/
theorem view_controlApi (h : c.bus.SoleTimer r) (ho : o ≠ .step) :
    (c.controlApi r o).bus.view r = observeWrite (c.bus.view r) o ∧
      (c.controlApi r o).bus.SoleTimer r ∧ (c.controlApi r o).power = c.power := by
  cases o with
  | step => exact absurd rfl ho
  | writeCtrl value =>
    -- with the enable bit the call is `start()`, and without it `stop()`
    by_cases hvalue : value &&& ctrlEnableBit ≠ 0
    · have hsync : (c.bus.timer r).enabled.syncClock c.bus.clock =
          { (c.bus.timer r).enabled with lastClockCycles := c.bus.clock.cycles } := if_pos h.clock
      obtain ⟨hview, hsole⟩ := view_callTimer .start h
        (Timer.exists_updateScheduledEvent _ r c.bus.clock c.bus.scheduler)
        (by rw [hsync]; exact ⟨rfl, rfl⟩) (by rw [hsync])
        fun _ hev => Timer.mem_updateScheduledEvent _ r _ _ hev
      rw [hsync] at hview
      have hrunning : (c.bus.timer r).enabled.running = true := Timer.running_enabled
      simp only [CPU.controlApi, if_pos hvalue, observeWrite]
      refine ⟨hview.trans ?_, hsole, trivial⟩
      rw [decide_eq_true hvalue, ← hrunning]
      rfl
    · obtain ⟨hview, hsole⟩ := view_callTimer .stop h
        (Timer.exists_cancelScheduledEvent _ c.bus.scheduler) ⟨rfl, rfl⟩ h.inStep
        fun _ hev => .inl (Timer.mem_cancelScheduledEvent _ _ hev)
      simp only [CPU.controlApi, if_neg hvalue, observeWrite]
      refine ⟨hview.trans ?_, hsole, trivial⟩
      rw [Timer.running_disabled, decide_eq_false hvalue]
      rfl
  | writeCompare value =>
    obtain ⟨hview, hsole⟩ := view_callTimer (.setCompare value) h
      (Timer.exists_updateScheduledEvent _ r c.bus.clock c.bus.scheduler) ⟨rfl, rfl⟩ h.inStep
      fun _ hev => Timer.mem_updateScheduledEvent _ r _ _ hev
    exact ⟨hview, hsole, rfl⟩

/-! ### Two CPUs side by side -/

/-- What the two timers have in common. -/
def SameTimer (r : T) (b b' : Board T H) : Prop :=
  (b.timer r).hasMatch = (b'.timer r).hasMatch ∧ (b.timer r).running = (b'.timer r).running ∧
    (b.timer r).counter = (b'.timer r).counter ∧ b.triggered.count r = b'.triggered.count r

/-- The first CPU makes the call, and the second one the write that it corresponds to. -/
def controlBoth (m : MMIOBus (T × TimerRegister)) (baseAddress : Address) (r : T)
    (p : CPU T H × CPU T H) (o : ControlOp) : CPU T H × CPU T H :=
  (p.1.controlApi r o, p.2.controlMmio m baseAddress o)

/-- After every step the timers look the same. -/
def Alike (m : MMIOBus (T × TimerRegister)) (baseAddress : Address) (r : T) :
    CPU T H × CPU T H → List ControlOp → Prop
  | _, [] => True
  | p, o :: os =>
    let p' := controlBoth m baseAddress r p o
    (o = .step → SameTimer r p'.1.bus p'.2.bus) ∧ Alike m baseAddress r p' os

/-- A match of the running timers is due in both or in none. -/
def DueTogether (r : T) (p : CPU T H × CPU T H) : ControlOp → Prop
  | .step => p.1.power = .on → (p.1.bus.timer r).running = true →
    p.1.bus.matchDue r = p.2.bus.matchDue r
  | _ => True

/-- This is so at every step. -/
def AllDueTogether (m : MMIOBus (T × TimerRegister)) (baseAddress : Address) (r : T) :
    CPU T H × CPU T H → List ControlOp → Prop
  | _, [] => True
  | p, o :: os =>
    DueTogether r p o ∧ AllDueTogether m baseAddress r (controlBoth m baseAddress r p o) os

/-- The two CPUs differ at most in their events. -/
structure Related (r : T) (p : CPU T H × CPU T H) : Prop where
  api : p.1.bus.SoleTimer r
  mmio : p.2.bus.SoleTimer r
  view : p.1.bus.view r = p.2.bus.view r
  power : p.1.power = p.2.power

variable {p : CPU T H × CPU T H}

theorem Related.sameTimer (h : Related r p) : SameTimer r p.1.bus p.2.bus :=
  ⟨congrArg TimerView.hasMatch h.view, congrArg TimerView.running h.view,
    congrArg TimerView.counter h.view, congrArg (fun v => v.triggered.count r) h.view⟩

theorem Related.step (hm : MappedAt m baseAddress r) (h : Related r p) (hdue : DueTogether r p o) :
    Related r (controlBoth m baseAddress r p o) := by
  by_cases ho : o = .step
  · subst ho
    by_cases hpower : p.1.power = .on
    · obtain ⟨hview, hsole, hon⟩ := h.api.step hpower
      obtain ⟨hview', hsole', hon'⟩ := h.mmio.step (h.power ▸ hpower)
      refine ⟨hsole, hsole', ?_, hon.trans hon'.symm⟩
      show p.1.step.1.bus.view r = p.2.step.1.bus.view r
      rw [hview, hview', h.view]
      by_cases hrun : (p.1.bus.timer r).running = true
      · rw [hdue hpower hrun]
      · have hstopped : (p.2.bus.view r).running = false := by
          rw [← h.view]
          exact Bool.eq_false_iff.2 hrun
        exact TimerView.step_of_stopped r hstopped _ _
    · have hstep : p.1.step = (p.1, none, none) := if_pos hpower
      have hstep' : p.2.step = (p.2, none, none) := if_pos (h.power ▸ hpower)
      simp only [controlBoth, CPU.controlApi, CPU.controlMmio, hstep, hstep']
      exact h
  · obtain ⟨hview, hsole, hpower⟩ := view_controlApi h.api ho
    obtain ⟨hview', hsole', hpower'⟩ := view_controlMmio hm h.mmio ho
    exact ⟨hsole, hsole', by rw [controlBoth, hview, hview', h.view],
      hpower.trans (h.power.trans hpower'.symm)⟩

/-- If a match is due in one only, then one timer stops and the other one does not. -/
theorem Related.not_sameTimer (h : Related r p) (hdue : ¬ DueTogether r p .step) :
    ¬ SameTimer r p.1.step.1.bus p.2.step.1.bus := by
  rw [DueTogether, Classical.not_imp, Classical.not_imp] at hdue
  obtain ⟨hpower, hrun, hne⟩ := hdue
  obtain ⟨hview, -, -⟩ := h.api.step hpower
  obtain ⟨hview', -, -⟩ := h.mmio.step (h.power ▸ hpower)
  have hrun : (p.2.bus.view r).running = true := by
    rw [← h.view]
    exact hrun
  have hstopped : (p.1.step.1.bus.view r).running = !p.1.bus.matchDue r := by
    rw [hview, h.view, TimerView.running_step r hrun]
  have hstopped' : (p.2.step.1.bus.view r).running = !p.2.bus.matchDue r := by
    rw [hview', TimerView.running_step r hrun]
  rintro ⟨-, hrunning, -, -⟩
  exact hne (Bool.not_inj (hstopped.symm.trans (hrunning.trans hstopped')))

theorem Related.alike_iff (hm : MappedAt m baseAddress r) (h : Related r p) (os : List ControlOp) :
    Alike m baseAddress r p os ↔ AllDueTogether m baseAddress r p os := by
  induction os generalizing p with
  | nil => exact Iff.rfl
  | cons o os ih =>
    by_cases hdue : DueTogether r p o
    · have hnext := h.step hm hdue
      rw [Alike, AllDueTogether]
      exact ⟨fun halike => ⟨hdue, (ih hnext).1 halike.2⟩,
        fun hall => ⟨fun _ => hnext.sameTimer, (ih hnext).2 hall.2⟩⟩
    · refine iff_of_false ?_ fun hall => hdue hall.1
      intro halike
      cases o with
      | writeCtrl value | writeCompare value => exact hdue trivial
      | step => exact h.not_sameTimer hdue (halike.1 rfl)

/-! ### Attaching the timer -/

/-- A bus without timers, and without events of timers. -/
structure NoTimers (bus : Board T H) : Prop where
  timers : bus.timers = []
  events : ∀ ev ∈ bus.scheduler.events, ev.callback = none

theorem NoTimers.attachTimer {bus : Board T H} (h : NoTimers bus) (r : T) :
    (bus.attachTimer r).SoleTimer r := by
  let t := { (bus.timer r).attachClock bus.clock with scheduler := true }
  obtain ⟨e, he⟩ := t.exists_updateScheduledEvent r bus.clock bus.scheduler
  have hattach : bus.attachTimer r = { bus.setTimer r { t with scheduledEventId := e }
      (t.updateScheduledEvent r bus.clock bus.scheduler).2 with timers := [r] } := by
    have hnot : r ∉ bus.timers := by simp [h.timers]
    rw [Board.attachTimer, if_neg hnot, Timer.attachScheduler, ← he, h.timers]
    rfl
  have ht : (bus.attachTimer r).timer r = { t with scheduledEventId := e } := by
    rw [hattach]
    exact Function.update_self ..
  refine ⟨by rw [hattach], by rw [ht]; rfl, by rw [ht], by rw [ht, hattach]; rfl, ?_⟩
  rw [hattach]
  intro ev hev u hu
  rcases Timer.mem_updateScheduledEvent _ r _ _ hev with hold | hnew
  · exact absurd ((h.events ev hold).symm.trans hu) (Option.some_ne_none u).symm
  · exact Option.some.inj (hu.symm.trans hnew)

/-- **Control through the registers.**  The timer of a run that is controlled by writes looks like
that of the run that is controlled by the corresponding calls, after every step, iff at each step
that finds them running a match is due in both or in none. -/
theorem registerControl_iff (hm : MappedAt m baseAddress r) {bus : Board T H} (hbus : NoTimers bus)
    {c : CPU T H} (hc : c.bus = bus.attachTimer r) (os : List ControlOp) :
    Alike m baseAddress r (c, c) os ↔ AllDueTogether m baseAddress r (c, c) os := by
  have hsole : c.bus.SoleTimer r := hc ▸ hbus.attachTimer r
  exact Related.alike_iff hm ⟨hsole, hsole, rfl, rfl⟩ os

/-- A bus with one new timer, not attached yet. -/
def oneTimerBus : Board Unit Unit := ⟨⟨0⟩, .init, .init, [], fun _ => .new, []⟩

theorem noTimers_oneTimerBus : NoTimers oneTimerBus :=
  ⟨rfl, by simp [oneTimerBus, EventScheduler.init]⟩

/-- A CPU that is on, with the timer attached. -/
def oneTimer : CPU Unit Unit := ⟨.on, 0, oneTimerBus.attachTimer ()⟩

/-- The MMIO bus on which the timer was constructed. -/
def oneTimerMmio : MMIOBus (Unit × TimerRegister) :=
  (Timer.construct .empty 0x40001000 fun k => ((), k)).1

theorem mappedAt_oneTimerMmio : MappedAt oneTimerMmio 0x40001000 () := by
  unfold MappedAt
  decide

/-- Before its match the timer counts alike. -/
theorem alike_twoSteps : Alike oneTimerMmio 0x40001000 () (oneTimer, oneTimer)
    [.writeCompare 5, .writeCtrl 1, .step, .step, .writeCtrl 0, .step] :=
  (registerControl_iff mappedAt_oneTimerMmio noTimers_oneTimerBus rfl _).2
    ⟨trivial, trivial, fun _ _ => rfl, fun _ _ => rfl, trivial, fun _ _ => rfl, trivial⟩

/-- With the compare value 1, the timer that is started by a call matches in the first step, and the
one that is enabled through its register does not. -/
theorem not_alike_oneStep : MappedAt oneTimerMmio 0x40001000 () ∧ NoTimers oneTimerBus ∧
    ¬ Alike oneTimerMmio 0x40001000 () (oneTimer, oneTimer)
      [.writeCompare 1, .writeCtrl 1, .step] := by
  refine ⟨mappedAt_oneTimerMmio, noTimers_oneTimerBus, ?_⟩
  intro h
  obtain ⟨-, -, hstep, -⟩ := h
  obtain ⟨hmatch, -⟩ := hstep rfl
  revert hmatch
  decide

end Cpu

end EFS
