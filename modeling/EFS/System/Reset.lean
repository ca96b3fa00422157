import EFS.System.Peripherals

/-!
# What a system reset restores

`SystemBus::reset()` resets every attached peripheral.  Most registers then hold what they held
right after construction, but `Timer::reset` keeps the compare value and `UART::reset` the baud
rate (`KeptByReset`).

No call and no step changes the reset value of a register or the set of peripherals (`Same`), so the
registers after a reset do not depend on what has happened before, except those that are kept.
-/

namespace EFS

namespace System

open EFS.Mmio EFS.Drivers EFS.Kernel

namespace PeripheralSystem

variable {T D H : Type}

/-- The registers that a reset leaves as they are. -/
def KeptByReset : RegisterRef T → Bool
  | .timer _ .compare | .pwmTimer .compare | .uart .baud => true
  | _ => false

/-- What a reset writes to a register: what it held after construction, as `s₀` says, or the default
mode and resolution. -/
def restoredValue (s₀ : PeripheralSystem T D H) : RegisterRef T → UInt32
  | .spi .control => 0
  | .adc .res => ADCController.defaultResolution.toUInt32
  | ref => (s₀.register ref).read

/-- What a register reads after a reset. -/
def resetValue (s₀ s : PeripheralSystem T D H) (ref : RegisterRef T) : UInt32 :=
  if KeptByReset ref then (s.register ref).read else s₀.restoredValue ref

/-! ### What does not change -/

/-- Two boards with the same timers and the same reset values. -/
structure SameBoard (b b' : Board T H) : Prop where
  timers : b'.timers = b.timers
  timer : ∀ t, SameInitial (b.timer t).register (b'.timer t).register
  interrupts : SameInitial b.interrupts.register b'.interrupts.register

namespace SameBoard

variable {b b' b'' : Board T H}

theorem refl (b : Board T H) : SameBoard b b := ⟨rfl, fun _ => .refl _, .refl _⟩

theorem trans (h : SameBoard b b') (h' : SameBoard b' b'') : SameBoard b b'' :=
  ⟨h'.timers.trans h.timers, fun t => (h.timer t).trans (h'.timer t),
    h.interrupts.trans h'.interrupts⟩

variable [DecidableEq T]

theorem setTimer {t : T} {timer : Timer} {sched : EventScheduler T}
    (h : SameInitial (b.timer t).register timer.register) :
    SameBoard b (b.setTimer t timer sched) := by
  refine ⟨rfl, ?_, .refl _⟩
  intro u
  by_cases hu : u = t
  · subst hu
    simpa [Board.setTimer] using h
  · simpa [Board.setTimer, hu] using .refl _

omit [DecidableEq T] in
theorem trigger (t : T) (line : Option UInt8) : SameBoard b (b.trigger t line).1 := by
  cases line with
  | none => exact .refl b
  | some id =>
    simp only [Board.trigger]
    cases htrigger : b.interrupts.trigger id with
    | ok ic =>
      have hic := b.interrupts.sameInitial_perform (.trigger id)
      rw [InterruptController.perform, htrigger] at hic
      exact ⟨rfl, fun _ => .refl _, hic⟩
    | error e => exact .refl b

theorem tickTimer (t : T) : SameBoard b (b.tickTimer t).1 :=
  (setTimer ((b.timer t).sameInitial_tick b.clock b.scheduler)).trans (trigger t _)

theorem matchTimer (t : T) : SameBoard b (b.matchTimer t).1 :=
  (setTimer ((b.timer t).sameInitial_handleCompareMatch b.scheduler)).trans (trigger t _)

theorem tickEach (ts : List T) : SameBoard b (b.tickEach ts).1 := by
  induction ts generalizing b with
  | nil => exact .refl b
  | cons t ts ih =>
    have htick : SameBoard b (b.tickTimer t).1 := tickTimer t
    rw [Board.tickEach]
    generalize b.tickTimer t = ticked at htick
    obtain ⟨b', _ | e⟩ := ticked
    · exact htick.trans ih
    · exact htick

theorem runBatch (batch : List (Event T)) : SameBoard b (b.runBatch batch).1 := by
  induction batch generalizing b with
  | nil => exact .refl b
  | cons ev rest ih =>
    rw [Board.runBatch]
    cases ev.callback with
    | none => exact ih
    | some t =>
      dsimp only
      have hmatch : SameBoard b (b.matchTimer t).1 := matchTimer t
      generalize b.matchTimer t = matched at hmatch
      obtain ⟨b', _ | e⟩ := matched
      · exact hmatch.trans ih
      · exact hmatch

theorem executeReadyEvents (c : UInt64) : SameBoard b (b.executeReadyEvents c).1 := by
  unfold Board.executeReadyEvents
  split_ifs
  · exact .refl b
  · have htaken : SameBoard b { b with scheduler := (b.scheduler.takeReady c).2 } :=
      ⟨rfl, fun _ => .refl _, .refl _⟩
    exact htaken.trans (runBatch _)

end SameBoard

/-- Two systems with the same peripherals on the same bus, and the same reset values. -/
structure Same (s s' : PeripheralSystem T D H) : Prop where
  mmioBus : s'.mmioBus = s.mmioBus
  board : SameBoard s.board s'.board
  gpio : Option.Rel (fun g g' => SameInitial g.register g'.register) s.gpio s'.gpio
  uart : Option.Rel (fun u u' => SameInitial u.register u'.register) s.uart s'.uart
  spi : Option.Rel (fun c c' => SameInitial c.register c'.register) s.spi s'.spi
  i2c : Option.Rel (fun c c' => SameInitial c.register c'.register) s.i2c s'.i2c
  pwm : Option.Rel (fun p p' => SameInitial p.register p'.register ∧
    SameInitial p.timer.register p'.timer.register) s.pwm s'.pwm
  adc : Option.Rel (fun c c' => SameInitial c.register c'.register) s.adc s'.adc

theorem rel_map {α : Type} {R : α → α → Prop} {f : α → α} (h : ∀ a, R a (f a)) (o : Option α) :
    Option.Rel R o (o.map f) := by
  cases o with
  | none => exact .none
  | some a => exact .some (h a)

theorem rel_refl {α : Type} {R : α → α → Prop} (h : ∀ a, R a a) (o : Option α) :
    Option.Rel R o o := by
  simpa using rel_map (f := id) h o

theorem rel_trans {α : Type} {R : α → α → Prop} (hR : ∀ {a b c}, R a b → R b c → R a c)
    {x y z : Option α} (h : Option.Rel R x y) (h' : Option.Rel R y z) : Option.Rel R x z := by
  cases h with
  | none => exact h'
  | some hab =>
    cases h' with
    | some hbc => exact .some (hR hab hbc)

namespace Same

variable {s s' s'' : PeripheralSystem T D H}

theorem refl (s : PeripheralSystem T D H) : Same s s where
  mmioBus := rfl
  board := .refl _
  gpio := rel_refl (fun _ => .refl _) _
  uart := rel_refl (fun _ => .refl _) _
  spi := rel_refl (fun _ => .refl _) _
  i2c := rel_refl (fun _ => .refl _) _
  pwm := rel_refl (fun _ => ⟨.refl _, .refl _⟩) _
  adc := rel_refl (fun _ => .refl _) _

theorem trans (h : Same s s') (h' : Same s' s'') : Same s s'' where
  mmioBus := h'.mmioBus.trans h.mmioBus
  board := h.board.trans h'.board
  gpio := rel_trans .trans h.gpio h'.gpio
  uart := rel_trans .trans h.uart h'.uart
  spi := rel_trans .trans h.spi h'.spi
  i2c := rel_trans .trans h.i2c h'.i2c
  pwm := rel_trans (fun h h' => ⟨h.1.trans h'.1, h.2.trans h'.2⟩) h.pwm h'.pwm
  adc := rel_trans .trans h.adc h'.adc

theorem of_board {board : Board T H} (h : SameBoard s.board board) : Same s { s with board } :=
  { refl s with board := h }

variable [DecidableEq T]

theorem step (s : PeripheralSystem T D H) : Same s s.step := by
  have hclock : SameBoard s.board { s.board with clock := s.board.clock.tick 1 } :=
    ⟨rfl, fun _ => .refl _, .refl _⟩
  have htick : SameBoard s.board s.board.tickTimers.1 := hclock.trans (.tickEach _)
  unfold PeripheralSystem.step
  generalize s.board.tickTimers = ticked at htick
  obtain ⟨board, _ | e⟩ := ticked
  · dsimp only
    have hpwm : Same s { s with board, pwm := s.pwm.map PWMController.tick } :=
      { refl s with
        board := htick
        pwm := rel_map
          (fun p => ⟨p.sameInitial_call .tick, p.sameInitial_timer_call .tick⟩) _ }
    have hready : SameBoard board (board.executeReadyEvents board.clock.cycles).1 :=
      .executeReadyEvents _
    generalize board.executeReadyEvents board.clock.cycles = executed at hready
    obtain ⟨board', _ | e⟩ := executed
    · refine hpwm.trans (of_board (hready.trans ⟨rfl, fun _ => .refl _, ?_⟩))
      exact board'.interrupts.sameInitial_dispatch
    · exact hpwm.trans (of_board hready)
  · exact of_board htick

variable [DecidableEq D]

theorem perform (s : PeripheralSystem T D H) (o : Op T D H) : Same s (s.perform o) := by
  cases o with
  | gpio o => exact { refl s with gpio := rel_map (·.sameInitial_perform o) _ }
  | timer t o =>
    exact of_board (.setTimer ((s.board.timer t).sameInitial_perform t s.board.clock
      s.board.scheduler o))
  | tickTimer t => exact of_board (.tickTimer t)
  | uart o => exact { refl s with uart := rel_map (·.sameInitial_perform o) _ }
  | spi o => exact { refl s with spi := rel_map (·.sameInitial_perform o) _ }
  | i2c o => exact { refl s with i2c := rel_map (·.sameInitial_perform o) _ }
  | pwm c =>
    exact { refl s with
      pwm := rel_map (fun p => ⟨p.sameInitial_call c, p.sameInitial_timer_call c⟩) _ }
  | adc o => exact { refl s with adc := rel_map (·.sameInitial_perform o) _ }
  | interruptController o =>
    exact of_board ⟨rfl, fun _ => .refl _, s.board.interrupts.sameInitial_perform o⟩
  | step => exact step s

/-- **What a run does not change.** -/
theorem of_run {ops : List (Op T D H)} (h : (machine T D H).Run s ops s') : Same s s' :=
  h.invariant (I := Same s) (refl s) fun t o u hs hstep => by
    obtain rfl := hstep
    exact hs.trans (perform t o)

end Same

/-! ### One peripheral -/

theorem gpio_read_reset {base : Address} {g : GPIO}
    (h : SameInitial ( GPIO.new base).register g.register) (r : GPIORegister) :
    (g.reset.register r).read = (( GPIO.new base).register r).read := by
  cases r with
  | dir => exact h .dir
  | out => exact h .out
  | inp => exact h .inp

theorem uart_status_idle {u : UART} (he : u.enabled = false) (ht : u.txFifo = [])
    (hr : u.rxFifo = []) : u.updateStatusRegister.statusRegister.read = UART.statusTxEmptyBit := by
  simp [UART.updateStatusRegister, he, ht, hr]

theorem uart_read_reset {base : Address} {baud : UInt32} {u₀ u : UART}
    (hnew : UART.new base baud = .ok u₀) (h : SameInitial u₀.register u.register)
    {r : UARTRegister} (hr : r ≠ .baud) : (u.reset.register r).read = (u₀.register r).read := by
  unfold UART.new at hnew
  split_ifs at hnew
  obtain rfl := Except.ok.inj hnew
  have hctrl : u.disable.controlRegister.reset.read = 0 := h .control
  cases r with
  | data => exact h .data
  | status =>
    have hidle := uart_status_idle (u := { u.disable with
      txFifo := []
      rxFifo := []
      dataRegister := u.dataRegister.reset
      controlRegister := u.disable.controlRegister.reset }) (by simp [UART.enabled, hctrl]) rfl rfl
    exact hidle.trans (uart_status_idle (by simp [UART.enabled]) rfl rfl).symm
  | control => exact h .control
  | baud => exact absurd rfl hr

theorem spi_status_idle {c : SPIController} (he : c.enabled = false) (hb : c.busy = false)
    (hd : c.hasData = false) : c.updateStatusRegister.statusRegister.read = 0 := by
  simp [SPIController.updateStatusRegister, he, hb, hd]

theorem spi_modes {mode : UInt8} (h : ¬ 3 < mode) : mode = 0 ∨ mode = 1 ∨ mode = 2 ∨ mode = 3 := by
  have hle : mode.toNat ≤ 3 := UInt8.le_iff_toNat_le.1 (UInt8.not_lt.1 h)
  simp only [← UInt8.toNat_inj]
  simp
  omega

/-- The control register of a new controller has the enable bit clear. -/
theorem spi_modeBits {mode : UInt8} (h : ¬ 3 < mode) :
    ((0 : UInt32) &&& ~~~SPIController.ctrlModeMask ||| (mode &&& 3).toUInt32 <<< 1) &&&
      SPIController.ctrlEnableBit = 0 := by
  rcases spi_modes h with rfl | rfl | rfl | rfl <;> decide

theorem spi_read_reset {base : Address} {divider : UInt32} {mode : UInt8} {c₀ c : SPIController}
    (hnew : SPIController.new base divider mode = .ok c₀) (h : SameInitial c₀.register c.register)
    (r : SPIRegister) : (c.reset.register r).read =
      if r = .control then 0 else (c₀.register r).read := by
  unfold SPIController.new at hnew
  split_ifs at hnew with hdiv hmode
  obtain rfl := Except.ok.inj hnew
  have hctrl : c.disable.controlRegister.reset.read = 0 := h .control
  cases r with
  | data => exact h .data
  | status =>
    have hidle := spi_status_idle (c := { c.disable with
      slave := false
      rxBuffer := []
      rxHasData := false
      dataRegister := c.disable.dataRegister.reset
      controlRegister := c.disable.controlRegister.reset
      clockDivRegister := c.disable.clockDivRegister.reset
      busy := false }) (by simp [SPIController.enabled, hctrl]) rfl rfl
    refine hidle.trans (spi_status_idle ?_ rfl rfl).symm
    exact decide_eq_false (not_not.2 (spi_modeBits hmode))
  | control => exact hctrl
  | clockDiv => exact h .clockDiv

theorem i2c_status_idle {c : I2CController D} (he : c.enabled = false) (hb : c.busy = false)
    (hr : c.rxBuffer = []) : c.updateStatusRegister.statusRegister.read = 0 := by
  simp [I2CController.updateStatusRegister, he, hb, hr]

theorem i2c_read_reset {base : Address} {address : UInt8} {c : I2CController D}
    (h : SameInitial (I2CController.new base address : I2CController D).register c.register)
    (r : I2CRegister) :
    (c.reset.register r).read =
      ((I2CController.new base address : I2CController D).register r).read := by
  have hctrl : c.disable.controlRegister.reset.read = 0 := h .control
  cases r with
  | data => exact h .data
  | status =>
    have hidle := i2c_status_idle (D := D) (c := { c.disable with
      devices := []
      activeDevice := none
      rxBuffer := []
      dataRegister := c.disable.dataRegister.reset
      controlRegister := c.disable.controlRegister.reset
      addrRegister := c.disable.addrRegister.reset
      busy := false
      lastAck := false }) (by simp [I2CController.enabled, hctrl]) rfl rfl
    exact hidle.trans (i2c_status_idle (D := D) (by simp [I2CController.enabled]) rfl rfl).symm
  | control => exact h .control
  | addr => exact h .addr

theorem adc_status_idle {c : ADCController} (he : c.enabled = false) :
    c.updateStatusRegister.statusRegister.read = 0 := by
  simp [ADCController.updateStatusRegister, he]

theorem adc_read_reset {base : Address} {res : UInt8} {ref : Float} {channels : UInt64}
    {c₀ c : ADCController} (hnew : ADCController.new base res ref channels = .ok c₀)
    (h : SameInitial c₀.register c.register) (r : ADCRegister) : (c.reset.register r).read =
      if r = .res then ADCController.defaultResolution.toUInt32 else (c₀.register r).read := by
  unfold ADCController.new at hnew
  split_ifs at hnew
  obtain rfl := Except.ok.inj hnew
  have hctrl : c.disable.controlRegister.reset.read = 0 := h .control
  cases r with
  | control => exact h .control
  | status =>
    have hidle := adc_status_idle (c := { c.disable with
      channels := List.replicate c.disable.channels.length 0
      resolutionBits := ADCController.defaultResolution
      referenceVoltage := ADCController.defaultReferenceVoltage
      lastSample := 0
      controlRegister := c.disable.controlRegister.reset
      resRegister := c.disable.resRegister.write ADCController.defaultResolution.toUInt32
      dataRegister := c.disable.dataRegister.reset }) (by simp [ADCController.enabled, hctrl])
    exact hidle.trans (adc_status_idle (by simp [ADCController.enabled])).symm
  | res => rfl
  | data => exact h .data

theorem pwm_status_idle {p : PWMController} (he : p.enabled = false) :
    p.updateStatusRegister.statusRegister.read = 0 := by
  simp [PWMController.updateStatusRegister, PWMController.outputState, he]

theorem pwm_timer_updatePeriodAndDuty {p : PWMController} (he : p.enabled = false) :
    p.updatePeriodAndDuty.timer = p.timer :=
  if_neg (by simp [he])

theorem pwm_read_reset {frequency duty clock : UInt32} {p₀ p : PWMController}
    (hnew : PWMController.new true true frequency duty clock = .ok p₀)
    (h : SameInitial p₀.register p.register)
    (htimer : SameInitial p₀.timer.register p.timer.register) :
    (∀ r, (p.reset.register r).read = (p₀.register r).read) ∧
      ∀ r, (p.reset.timer.register r).read =
        if r = .compare then (p.timer.register r).read else (p₀.timer.register r).read := by
  -- `q` is the controller before the last two statements of the constructor, which `reset` ends
  -- with too
  obtain ⟨q, hcontrol, hfreq, hduty, hfresh, rfl⟩ : ∃ q : PWMController,
      q.controlRegister = .new 0 ∧ q.freqRegister = .new frequency ∧ q.dutyRegister = .new duty ∧
        q.timer = .new ∧ q.updatePeriodAndDuty.updateStatusRegister = p₀ := by
    simp only [PWMController.new, not_true_eq_false, if_false] at hnew
    split_ifs at hnew
    exact ⟨_, rfl, rfl, rfl, rfl, Except.ok.inj hnew⟩
  have hq : q.enabled = false := by simp [PWMController.enabled, hcontrol]
  have htimer₀ : q.updatePeriodAndDuty.updateStatusRegister.timer = .new :=
    (pwm_timer_updatePeriodAndDuty hq).trans hfresh
  have hctrl : p.disable.controlRegister.reset.read = 0 :=
    (h .control).trans (congrArg Register.initialValue hcontrol)
  have hdisabled : p.disable.controlRegister.reset.read &&& pwmCtrlEnableBit = 0 := by
    rw [hctrl]
    rfl
  constructor
  · intro r
    cases r with
    | control => exact hctrl.trans (congrArg Register.read hcontrol).symm
    | freq =>
      exact (h .freq).trans ((congrArg Register.initialValue hfreq).trans
        (congrArg Register.read hfreq).symm)
    | duty =>
      exact (h .duty).trans ((congrArg Register.initialValue hduty).trans
        (congrArg Register.read hduty).symm)
    | status =>
      have hidle : p.reset.statusRegister.read = 0 :=
        pwm_status_idle (decide_eq_false (not_not.2 hdisabled))
      exact hidle.trans (pwm_status_idle (p := q.updatePeriodAndDuty) hq).symm
  · intro r
    -- disabling and resetting the controller stop and reset its timer, which keeps its compare
    -- value
    have hkept : p.reset.timer =
        ((p.timer.stop PWMController.nullScheduler).1.reset PWMController.nullClock
          PWMController.nullScheduler).1 :=
      pwm_timer_updatePeriodAndDuty (decide_eq_false (not_not.2 hdisabled))
    have hstop := p.timer.sameInitial_stop PWMController.nullScheduler
    rw [hkept, Timer.register_reset]
    split_ifs with hr
    · subst hr
      rw [Timer.stop, Timer.register_cancelScheduledEvent]
      rfl
    · refine (hstop r).trans ((htimer r).trans ?_)
      rw [htimer₀]
      cases r <;> rfl

end PeripheralSystem

end System

end EFS
