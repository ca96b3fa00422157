import EFS.Cpu.DmaInterrupts
import EFS.Cpu.Rtos
import EFS.Firmware.PartialReset

/-!
# One CPU

Each model of a CPU has the parts of it that its results are about: the bus with the timers or with
the DMA controllers, the firmware, the RTOS.  `StepParts.step` and `ResetParts.reset` are
`CPU::step()` and `CPU::reset()` over whatever parts there are, in the order of the source, and the
`step` and `reset` of every model are these, over its own parts (`call_step` and `call_reset` of
each model).  All models that have a board take the same cycle of it (`boardCycle`).
-/

namespace EFS

namespace Method

variable {σ τ α : Type}

/-- A value, or the exception that has been thrown instead. -/
def thrown (e : Option String) (a : α) : Except String α :=
  match e with
  | none => .ok a
  | some e => .error e

/-- What returns the state with the exception that leaves it. -/
def throwing (f : σ → σ × Option String) : Method σ Unit := fun s => (thrown (f s).2 (), (f s).1)

theorem call_throwing (f : σ → σ × Option String) (s : σ) :
    (throwing f).call s = (thrown (f s).2 (), (f s).1) := rfl

theorem call_throwing_bind (f : σ → σ × Option String) (x : Method σ α) (s : σ) :
    (throwing f >>= fun _ => x).call s =
      match f s with
      | (s', none) => x.call s'
      | (s', some e) => (.error e, s') := by
  rw [call_bind, call_throwing]
  rcases f s with ⟨s', _ | e⟩ <;> rfl

/-- A method of a part of the object. -/
def within (get : σ → τ) (set : σ → τ → σ) (m : Method τ α) : Method σ α :=
  fun s => ((m.call (get s)).1, set s (m.call (get s)).2)

end Method

namespace Outcome

variable {S F : Type}

/-- An operation that may enter a callback, as a method.  It says that it throws, but not what. -/
def method (f : S → Outcome S F) : Method S (Option F) := fun s =>
  match f s with
  | returned s' => (.ok none, s')
  | entered s' x => (.ok (some x), s')
  | threw s' => (.error "", s')

/-- The outcome of such a method. -/
def ofCall : Except String (Option F) × S → Outcome S F
  | (.ok none, s) => returned s
  | (.ok (some x), s) => entered s x
  | (.error _, s) => threw s

theorem ofCall_method (f : S → Outcome S F) (s : S) : ofCall ((method f).call s) = f s := by
  have hcall : (method f).call s = method f s := rfl
  rw [hcall, method]
  cases f s <;> rfl

end Outcome

namespace Cpu

open EFS.Drivers EFS.Firmware EFS.Kernel EFS.Rtos EFS.System

/-! ### The step and the reset of a CPU -/

/-- The parts of a step.  The hardware gives a value `α` to what comes after it, and the step may
enter a function `β` that the caller has supplied. -/
structure StepParts (σ α β : Type) where
  /-- `m_powerController->isPowerOn()`. -/
  isPowerOn : σ → Bool
  /-- `m_cycleCount++`. -/
  count : σ → σ
  /-- `tickTimers`, `executeReadyEvents` and `dispatch` of the system bus. -/
  hardware : Method σ α
  /-- `tick` and `schedule` of the RTOS, or `update` of the firmware. -/
  software : α → Method σ (Option β)

/-- `CPU::step()`. -/
def StepParts.step {σ α β : Type} (P : StepParts σ α β) : Method σ (Option β) := do
  if !P.isPowerOn (← get) then return none
  modify P.count
  let a ← P.hardware
  P.software a

/-- The parts of a reset. -/
structure ResetParts (σ : Type) where
  /-- `m_cycleCount = 0` and `m_registerFile.reset()`. -/
  clear : σ → σ
  resetFirmware : Method σ Unit
  resetRtos : σ → σ
  resetBus : σ → σ

/-- `CPU::reset()`. -/
def ResetParts.reset {σ : Type} (P : ResetParts σ) : Method σ Unit := do
  modify P.clear
  P.resetFirmware
  modify P.resetRtos
  modify P.resetBus

namespace StepParts

variable {σ α β : Type} {P : StepParts σ α β} {s s' : σ}

theorem call_step_off (h : P.isPowerOn s = false) : P.step.call s = (.ok none, s) := by
  have hstep : P.step.call s = _ := Method.call_bind_ok _ _ _ _ (Method.call_get s)
  rw [hstep, h]
  rfl

/-- A step with power on. -/
theorem call_step_on (h : P.isPowerOn s = true) {e : Option String} {a : α}
    (hhardware : P.hardware.call (P.count s) = (Method.thrown e a, s')) :
    P.step.call s = e.elim ((P.software a).call s') fun e => (.error e, s') := by
  have hget : P.step.call s = _ := Method.call_bind_ok _ _ _ _ (Method.call_get s)
  have hstep : P.step.call s = (P.hardware >>= P.software).call (P.count s) := by
    rw [hget, h]
    rfl
  rw [hstep, Method.call_bind, hhardware]
  cases e <;> rfl

end StepParts

/-! ### The hardware -/

section

variable {T H : Type} [DecidableEq T]

/-- The hardware part of a step on a board with timers, with the handler that `dispatch` calls. -/
def boardCycle : Method (Board T H) (Option H) := do
  Method.throwing Board.tickTimers
  Method.throwing fun bus => bus.executeReadyEvents bus.clock.cycles
  let bus ← get
  set { bus with interrupts := bus.interrupts.dispatch.1 }
  return bus.interrupts.dispatch.2

theorem call_boardCycle (n : UInt64) (bus : Board T H) : boardCycle.call bus =
    (Method.thrown (CPU.step ⟨.on, n, bus⟩).2.1 (CPU.step ⟨.on, n, bus⟩).2.2,
      (CPU.step ⟨.on, n, bus⟩).1.bus) := by
  rw [boardCycle, Method.call_throwing_bind, CPU.step, if_neg (by simp)]
  dsimp only
  rcases bus.tickTimers with ⟨ticked, _ | e⟩
  · dsimp only
    rw [Method.call_throwing_bind]
    rcases ticked.executeReadyEvents ticked.clock.cycles with ⟨executed, _ | e⟩ <;> rfl
  · rfl

end

namespace CPU

variable {T H : Type} [DecidableEq T]

/-- A CPU on a board.  The handler is given back. -/
def stepParts (T H : Type) [DecidableEq T] : StepParts (CPU T H) (Option H) H where
  isPowerOn c := c.power = .on
  count c := { c with cycleCount := c.cycleCount + 1 }
  hardware := Method.within CPU.bus (fun c bus => { c with bus }) boardCycle
  software handler := return handler

theorem step_eq_bus (n : UInt64) (bus : Board T H) : (CPU.step ⟨.on, n, bus⟩).1 =
    ⟨.on, n + 1, (CPU.step ⟨.on, n, bus⟩).1.bus⟩ := by
  rw [CPU.step, if_neg (by simp)]
  dsimp only
  rcases bus.tickTimers with ⟨ticked, _ | e⟩
  · dsimp only
    rcases ticked.executeReadyEvents ticked.clock.cycles with ⟨executed, _ | e⟩ <;> rfl
  · rfl

theorem call_step (c : CPU T H) :
    (stepParts T H).step.call c = (Method.thrown c.step.2.1 c.step.2.2, c.step.1) := by
  by_cases hpower : c.power = .on
  · obtain ⟨power, n, bus⟩ := c
    obtain rfl : power = .on := hpower
    have hhardware : (stepParts T H).hardware.call ⟨.on, n + 1, bus⟩ =
        (Method.thrown (CPU.step ⟨.on, n, bus⟩).2.1 (CPU.step ⟨.on, n, bus⟩).2.2,
          (CPU.step ⟨.on, n, bus⟩).1) := by
      rw [step_eq_bus]
      exact congrArg (fun r => (r.1, (⟨.on, n + 1, r.2⟩ : CPU T H))) (call_boardCycle n bus)
    rw [StepParts.call_step_on (decide_eq_true (rfl : PowerState.on = .on)) hhardware]
    cases (CPU.step ⟨.on, n, bus⟩).2.1 <;> rfl
  · rw [StepParts.call_step_off (decide_eq_false hpower), CPU.step, if_pos hpower]
    rfl

/-- The parts of a reset of the board: only its bus has anything to lose. -/
def resetParts (T H : Type) [DecidableEq T] : ResetParts (CPU T H) where
  clear c := { c with cycleCount := 0 }
  resetFirmware := return
  resetRtos := id
  resetBus c := { c with bus := c.bus.reset }

theorem call_reset (c : CPU T H) : (resetParts T H).reset.call c = (.ok (), c.reset) := rfl

end CPU

namespace DmaCPU

variable {D R H Cb : Type} [DecidableEq D] [DecidableEq R] (noop : Cb)

/-- A CPU on a bus with DMA controllers.  The handler and its line are given back. -/
def stepParts (noop : Cb) : StepParts (DmaCPU D R H Cb)
    (Option (InterruptController.Service H)) (InterruptController.Service H) where
  isPowerOn c := c.power = .on
  count c := { c with cycleCount := c.cycleCount + 1 }
  hardware := do
    Method.throwing fun c =>
      ({ c with bus := (c.bus.tickTimers noop).1 }, (c.bus.tickTimers noop).2)
    modify fun c => { c with bus := { c.bus with dev := { c.bus.dev with
      scheduler := (c.bus.dev.scheduler.takeReady c.bus.clock.cycles).2 } } }
    let c ← get
    if c.bus.interruptController then
      let served := c.bus.dev.interruptController.serve
      set { c with bus := { c.bus with dev := { c.bus.dev with
        interruptController := served.state } } }
      return served.frame?
    else return none
  software served := return served

theorem call_step (c : DmaCPU D R H Cb) : (stepParts noop).step.call c =
    (Method.thrown (c.step noop).2.1 (c.step noop).2.2, (c.step noop).1) := by
  by_cases hpower : c.power = .on
  · have hhardware : (stepParts noop).hardware.call { c with cycleCount := c.cycleCount + 1 } =
        (Method.thrown (c.step noop).2.1 (c.step noop).2.2, (c.step noop).1) := by
      rw [step, if_neg (not_not.2 hpower), stepParts, Method.call_throwing_bind]
      dsimp only
      rcases c.bus.tickTimers noop with ⟨bus, _ | e⟩
      · dsimp only
        rw [Method.call_bind_ok _ _ _ _ (Method.call_modify _ _),
          Method.call_bind_ok _ _ _ _ (Method.call_get _)]
        dsimp only
        split_ifs <;> rfl
      · rfl
    rw [StepParts.call_step_on (decide_eq_true hpower) hhardware]
    cases (c.step noop).2.1 <;> rfl
  · rw [StepParts.call_step_off (decide_eq_false hpower), step, if_pos hpower]
    rfl

end DmaCPU

end Cpu

namespace Firmware

open EFS.Cpu EFS.System

namespace CPU

variable {F W : Type} (E : World F W)

/-- A CPU with firmware; the hardware is that of the world. -/
def stepParts (E : World F W) : StepParts (CPU F W) Unit Empty where
  isPowerOn c := c.power = .on
  count c := { c with cycleCount := c.cycleCount + 1 }
  hardware := Method.within CPU.world (fun c world => { c with world }) (Method.throwing E.tick)
  software _ := do
    modify fun c => if c.running then c.deliver E c.firmwareManager.update else c
    return none

theorem call_step (c : CPU F W) :
    (stepParts E).step.call c = (Method.thrown (c.step E).2 none, (c.step E).1) := by
  by_cases hpower : c.power = .on
  · have hhardware : (stepParts E).hardware.call { c with cycleCount := c.cycleCount + 1 } =
        (Method.thrown (E.tick c.world).2 (),
          { c with cycleCount := c.cycleCount + 1, world := (E.tick c.world).1 }) := rfl
    rw [StepParts.call_step_on (decide_eq_true hpower) hhardware, step, if_neg (not_not.2 hpower)]
    rcases E.tick c.world with ⟨world, _ | e⟩ <;> rfl
  · rw [StepParts.call_step_off (decide_eq_false hpower), step, if_pos hpower]
    rfl

/-- The parts of a reset under a firmware, whose `reset()` runs before that of the bus. -/
def resetParts (E : World F W) : ResetParts (CPU F W) where
  clear c := { c with cycleCount := 0 }
  resetFirmware := modify fun c => c.deliver E c.firmwareManager.reset
  resetRtos := id
  resetBus c := { c with world := E.reset c.world }

theorem call_reset (c : CPU F W) : (resetParts E).reset.call c = (.ok (), c.reset E) := rfl

end CPU

theorem tick_blinkWorld {T H : Type} [DecidableEq T] (w : BlinkWorld T H) :
    (Method.throwing (blinkWorld T H).tick).call w =
      (Method.within BlinkWorld.board (fun w board => { w with board })
        (boardCycle >>= fun _ => pure ())).call w := by
  have hcycle : (boardCycle >>= fun _ => (pure () : Method (Board T H) Unit)).call w.board =
      (Method.thrown (Cpu.CPU.step ⟨.on, 0, w.board⟩).2.1 (),
        (Cpu.CPU.step ⟨.on, 0, w.board⟩).1.bus) := by
    rw [Method.call_bind, call_boardCycle 0]
    cases (Cpu.CPU.step ⟨.on, 0, w.board⟩).2.1 <;> rfl
  exact (congrArg (fun r => (r.1, { w with board := r.2 })) hcycle).symm

namespace SampleCPU

variable {T H : Type} [DecidableEq T]

/-- A CPU with a sample application on a board.  The handler is not called. -/
def stepParts (T H : Type) [DecidableEq T] : StepParts (SampleCPU T H) (Option H) Empty where
  isPowerOn c := c.power = .on
  count c := { c with cycleCount := c.cycleCount + 1 }
  hardware := Method.within (fun c => c.world.board)
    (fun c board => { c with world := { c.world with board } }) boardCycle
  software _ := do
    Method.throwing fun c =>
      if c.running then c.deliver c.firmwareManager.update else (c, none)
    return none

theorem call_step (c : SampleCPU T H) :
    (stepParts T H).step.call c = (Method.thrown c.step.2 none, c.step.1) := by
  by_cases hpower : c.power = .on
  · have hcycle := call_boardCycle c.cycleCount c.world.board
    have hcount := congrArg Cpu.CPU.cycleCount (Cpu.CPU.step_eq_bus c.cycleCount c.world.board)
    rcases hstepped : Cpu.CPU.step ⟨.on, c.cycleCount, c.world.board⟩ with ⟨⟨power, n, board⟩, e, h⟩
    rw [hstepped] at hcycle hcount
    obtain rfl : n = c.cycleCount + 1 := hcount
    have hhardware : (stepParts T H).hardware.call { c with cycleCount := c.cycleCount + 1 } =
        (Method.thrown e h,
          { c with cycleCount := c.cycleCount + 1, world := { c.world with board } }) :=
      congrArg (fun r => (r.1, { c with
        cycleCount := c.cycleCount + 1
        world := { c.world with board := r.2 } })) hcycle
    rw [StepParts.call_step_on (decide_eq_true hpower) hhardware, step, if_neg (not_not.2 hpower)]
    dsimp only
    rw [hstepped]
    cases e with
    | some e => rfl
    | none =>
      have hsoftware (s : SampleCPU T H) : ((stepParts T H).software h).call s = _ :=
        Method.call_throwing_bind _ _ s
      rw [Option.elim_none, hsoftware]
      dsimp only
      split_ifs
      · rcases deliver _ c.firmwareManager.update with ⟨c', _ | e⟩ <;> rfl
      · rfl
  · rw [StepParts.call_step_off (decide_eq_false hpower), step, if_pos hpower]
    rfl

/-- The parts of a reset of the sample board, whose firmware may throw. -/
def resetParts (T H : Type) [DecidableEq T] : ResetParts (SampleCPU T H) where
  clear c := { c with cycleCount := 0 }
  resetFirmware := Method.throwing fun c => c.deliver c.firmwareManager.reset
  resetRtos := id
  resetBus c := { c with world := c.world.resetBus }

theorem call_reset (c : SampleCPU T H) :
    (resetParts T H).reset.call c = (Method.thrown c.reset.2 (), c.reset.1) := by
  have hclear : (resetParts T H).reset.call c = _ :=
    Method.call_bind_ok _ _ _ _ (Method.call_modify _ c)
  rw [hclear, reset]
  dsimp only [resetParts]
  rw [Method.call_throwing_bind]
  rcases deliver { c with cycleCount := 0 } c.firmwareManager.reset with ⟨c', _ | e⟩ <;> rfl

end SampleCPU

namespace Computer

variable {T D H M F X Fn : Type} [DecidableEq T] [DecidableEq M]

/-- A CPU with everything that it resets. -/
def resetParts (A : Applications T D H M F X) : ResetParts (Computer T D H M F X Fn) where
  clear s := { s with cycleCount := 0, registerFile := .reset }
  resetFirmware := do deliver A (← get).firmwareManager.reset
  resetRtos s := { s with rtosScheduler := s.rtosScheduler.map Rtos.Scheduler.reset }
  resetBus s := if s.systemBus then { s with bus := s.bus.reset } else s

theorem call_reset (A : Applications T D H M F X) (s : Computer T D H M F X Fn) :
    (resetParts A).reset.call s = (reset A).call s := rfl

end Computer

end Firmware

namespace Cpu.RtosCPU

open EFS.Firmware EFS.Rtos

variable {F W Fn Ref : Type} [DecidableEq Ref]

/-- A CPU with firmware and an RTOS.  It is a CPU with firmware up to what comes after the
hardware. -/
def stepParts (E : World F W) : StepParts (RtosCPU F W Fn Ref) Unit (Ref × Execution Fn) where
  isPowerOn s := (Firmware.CPU.stepParts E).isPowerOn s.cpu
  count s := { s with cpu := (Firmware.CPU.stepParts E).count s.cpu }
  hardware := Method.within RtosCPU.cpu (fun s cpu => { s with cpu })
    (Firmware.CPU.stepParts E).hardware
  software _ := Outcome.method (update E)

theorem call_step (E : World F W) (s : RtosCPU F W Fn Ref) :
    Outcome.ofCall ((stepParts E).step.call s) = s.step E := by
  by_cases hpower : s.cpu.power = .on
  · have hhardware : (stepParts E).hardware.call ((stepParts E).count s) =
        (Method.thrown (E.tick s.cpu.world).2 (), { s with cpu := { s.cpu with
          cycleCount := s.cpu.cycleCount + 1, world := (E.tick s.cpu.world).1 } }) := rfl
    rw [StepParts.call_step_on (decide_eq_true hpower) hhardware, step, if_neg (not_not.2 hpower)]
    rcases E.tick s.cpu.world with ⟨world, _ | e⟩
    · exact Outcome.ofCall_method (update E) _
    · rfl
  · rw [StepParts.call_step_off (decide_eq_false hpower), step, if_pos hpower]
    rfl

/-- The parts of a reset under an RTOS: the scheduler, when there is one, after the firmware. -/
def resetParts (E : World F W) : ResetParts (RtosCPU F W Fn Ref) where
  clear s := { s with cpu := (Firmware.CPU.resetParts E).clear s.cpu }
  resetFirmware := Method.within RtosCPU.cpu (fun s cpu => { s with cpu })
    (Firmware.CPU.resetParts E).resetFirmware
  resetRtos s :=
    match s.rtosScheduler with
    | some r => (s.setScheduler r (s.scheduler r).reset).called r .reset
    | none => s
  resetBus s := { s with cpu := (Firmware.CPU.resetParts E).resetBus s.cpu }

theorem call_reset (E : World F W) (s : RtosCPU F W Fn Ref) :
    (resetParts E).reset.call s = (.ok (), s.reset E) := by
  obtain ⟨cpu, rtosScheduler, scheduler, rtosCalls⟩ := s
  cases rtosScheduler <;> rfl

end Cpu.RtosCPU

end EFS
