import EFS.Data.Window
import EFS.Drivers.Timer

/-!
# The PWM controller

`PWMController` generates its signal with an internal `Timer` that counts the ticks of a period.
The timer is attached to no clock, scheduler or interrupt controller, so the objects behind these
pointers, which the operations of a timer are given, are never used.

At the end of the first period the timer matches and stops.  The next tick starts it again, but the
counter still holds the period, so the timer matches again at once: the counter stays there, and
there the output is HIGH.  (The auto-reset bit, which `enable` sets, has no effect on the counter.)
Only a period of `2 ^ 32 - 1` ticks goes on, because there the counter wraps.

## Main definitions

* `PWMController` : the registers, the internal timer, and the operations.
* `counterAt` : the counter after a number of ticks.
* `AtReset` : the reset states of a controller.
* `DutyLaw` : as many outputs of a period's length are HIGH as the duty cycle says.

## Main results

* `Generating.tick`, `Generating.ticks` : what ticks do to an enabled controller.
* `dutyLaw_iff` : when the duty law holds, after any number of ticks.
-/

namespace EFS

namespace Drivers

open EFS.Mmio EFS.System

/-- `CTRL_ENABLE_BIT`. -/
def pwmCtrlEnableBit : UInt32 := 1

/-- `STATUS_ENABLED_BIT`. -/
def statusEnabledBit : UInt32 := 1

/-- `STATUS_OUTPUT_BIT`. -/
def statusOutputBit : UInt32 := 2

/-- A PWM controller with the timer inside it, which is attached to no clock and no scheduler. -/
structure PWMController where
  systemClockHz : UInt32
  controlRegister : Register
  freqRegister : Register
  dutyRegister : Register
  statusRegister : Register
  timer : Timer
  periodTicks : UInt32
  onTicks : UInt32

namespace PWMController

variable (p : PWMController)

/-- The clock that the internal timer does not have. -/
def nullClock : SimulationClock := ⟨0⟩

/-- The scheduler that the internal timer does not have. -/
def nullScheduler : EventScheduler Unit := .init

/-- `enabled()`: the enable bit of CONTROL. -/
def enabled : Bool := p.controlRegister.read &&& pwmCtrlEnableBit ≠ 0

/-- `frequency()`: the contents of FREQ. -/
def frequency : UInt32 := p.freqRegister.read

/-- `dutyCycle()`: the contents of DUTY. -/
def dutyCycle : UInt32 := p.dutyRegister.read

/-- `outputState()`: high while the counter is in the on-part of the period. -/
def outputState : Bool :=
  if ¬ p.enabled then false
  else if p.dutyCycle = 0 then false
  else if p.dutyCycle = 100 then true
  else
    let cnt := if 0 < p.periodTicks then p.timer.counter % p.periodTicks else 0
    cnt < p.onTicks

/-- `updateStatusRegister()`. -/
def updateStatusRegister : PWMController :=
  let status := if p.enabled then statusEnabledBit else 0
  let status := if p.outputState then status ||| statusOutputBit else status
  { p with statusRegister := p.statusRegister.write status }

/-- `updatePeriodAndDuty()`: the period in cycles, at least one, and its on-part. -/
def updatePeriodAndDuty : PWMController :=
  let freq := if p.frequency = 0 then 1 else p.frequency
  let periodTicks := if p.systemClockHz / freq = 0 then 1 else p.systemClockHz / freq
  { p with
    periodTicks
    onTicks := (periodTicks.toUInt64 * p.dutyCycle.toUInt64 / 100).toUInt32
    timer :=
      if p.enabled then (p.timer.setCompare () nullClock nullScheduler periodTicks).1 else p.timer }

/-- The constructor.  `timerRegistered` and `registered` say whether the bus accepts the registers
of the internal timer and those of the controller. -/
def new (timerRegistered registered : Bool) (frequencyHz dutyCyclePercent systemClockHz : UInt32) :
    Except String PWMController :=
  if ¬ timerRegistered then .error "Timer MMIO registration failure"
  else if systemClockHz = 0 then .error "System clock frequency cannot be zero"
  else if frequencyHz = 0 ∨ systemClockHz < frequencyHz then .error "Invalid PWM frequency"
  else if 100 < dutyCyclePercent then .error "Invalid PWM duty cycle"
  else if ¬ registered then .error "PWMController MMIO registration failure"
  else
    let p : PWMController := ⟨systemClockHz, .new 0, .new frequencyHz, .new dutyCyclePercent,
      .new 0, .new, 1000, 500⟩
    .ok p.updatePeriodAndDuty.updateStatusRegister

/-- `enable()` starts the timer with the period as its compare value. -/
def enable : PWMController :=
  { p with
    controlRegister := p.controlRegister.write (p.controlRegister.read ||| pwmCtrlEnableBit)
    timer := ((p.timer.setAutoReset true).setCompare () nullClock nullScheduler p.periodTicks).1
      |>.start () nullClock nullScheduler |>.1 }.updateStatusRegister

/-- `disable()` stops the timer where it is. -/
def disable : PWMController :=
  { p with
    controlRegister := p.controlRegister.write (p.controlRegister.read &&& ~~~pwmCtrlEnableBit)
    timer := (p.timer.stop nullScheduler).1 }.updateStatusRegister

/-- `setFrequency()` throws for 0 and above the system clock. -/
def setFrequency (frequencyHz : UInt32) : Except String PWMController :=
  if frequencyHz = 0 ∨ p.systemClockHz < frequencyHz then .error "Invalid PWM frequency"
  else .ok { p with freqRegister := p.freqRegister.write frequencyHz
    }.updatePeriodAndDuty.updateStatusRegister

/-- `setDutyCycle()` throws above 100 percent. -/
def setDutyCycle (percent : UInt32) : Except String PWMController :=
  if 100 < percent then .error "Duty cycle percentage must be 0-100"
  else .ok { p with dutyRegister := p.dutyRegister.write percent
    }.updatePeriodAndDuty.updateStatusRegister

/-- `tick()` restarts a timer that its match has stopped. -/
def tick : PWMController :=
  if p.enabled then
    let timer :=
      if p.timer.running then p.timer else (p.timer.start () nullClock nullScheduler).1
    { p with timer := (timer.tick nullClock nullScheduler).1 }.updateStatusRegister
  else p.updateStatusRegister

/-- `reset()`: disabled, with the register's initial frequency and duty. -/
def reset : PWMController :=
  let q := p.disable
  { q with
    controlRegister := q.controlRegister.reset
    freqRegister := q.freqRegister.reset
    dutyRegister := q.dutyRegister.reset
    timer := (q.timer.reset nullClock nullScheduler).1 }.updatePeriodAndDuty.updateStatusRegister

/-- The number of HIGH outputs among `n` outputs, one sampled before each of `n` ticks. -/
def highs (p : PWMController) : ℕ → ℕ
  | 0 => 0
  | n + 1 => (if p.outputState then 1 else 0) + p.tick.highs n

/-! ### The internal timer -/

/-- An internal timer, as the controller constructs it. -/
structure Internal (t : Timer) : Prop where
  noClock : t.clock = false
  noScheduler : t.scheduler = false
  countReset : t.countRegister.initialValue = 0

namespace Internal

variable {t : Timer}

theorem setCompare (h : Internal t) (value : UInt32) :
    Internal (t.setCompare () nullClock nullScheduler value).1 ∧
      (t.setCompare () nullClock nullScheduler value).1.compare = value ∧
      (t.setCompare () nullClock nullScheduler value).1.counter = t.counter := by
  rw [Timer.setCompare, Timer.updateScheduledEvent_of_detached]
  · exact ⟨⟨h.noClock, h.noScheduler, h.countReset⟩, rfl, rfl⟩
  · exact h.noScheduler

theorem start (h : Internal t) :
    Internal (t.start () nullClock nullScheduler).1 ∧
      (t.start () nullClock nullScheduler).1.running = true ∧
      (t.start () nullClock nullScheduler).1.compare = t.compare ∧
      (t.start () nullClock nullScheduler).1.counter = t.counter := by
  rw [Timer.start_of_unattached h.noClock h.noScheduler]
  exact ⟨⟨h.noClock, h.noScheduler, h.countReset⟩, Timer.running_enabled, rfl, rfl⟩

theorem stop (h : Internal t) : Internal (t.stop nullScheduler).1 := by
  rw [Timer.stop_of_detached h.noScheduler]
  exact ⟨h.noClock, h.noScheduler, h.countReset⟩

theorem tick (h : Internal t) (hrun : t.running = true) :
    Internal (t.tick nullClock nullScheduler).1 ∧
      (t.tick nullClock nullScheduler).1.compare = t.compare ∧
      (t.tick nullClock nullScheduler).1.counter =
        if t.compare ≤ t.counter + 1 then t.compare else t.counter + 1 := by
  have hcounted : t.counted nullClock (t.counter + 1) =
      { t with countRegister := t.countRegister.write (t.counter + 1) } := by
    simp [Timer.counted, Timer.syncClock, h.noClock]
  rw [Timer.tick_of_unattached h.noClock h.noScheduler hrun, hcounted]
  split_ifs
  · exact ⟨⟨h.noClock, h.noScheduler, h.countReset⟩, rfl, rfl⟩
  · exact ⟨⟨h.noClock, h.noScheduler, h.countReset⟩, rfl, rfl⟩

theorem reset (h : Internal t) :
    Internal (t.reset nullClock nullScheduler).1 ∧
      (t.reset nullClock nullScheduler).1.counter = 0 := by
  have hclock : t.disabled.cleared.clock = false := h.noClock
  rw [Timer.reset, Timer.stop_of_detached h.noScheduler, Timer.syncClock, hclock]
  exact ⟨⟨h.noClock, h.noScheduler, h.countReset⟩, h.countReset⟩

end Internal

/-! ### The counter -/

/-- The counter after `j` ticks of a period of `n` ticks.  It stays at `n`, unless the counter wraps
there. -/
def counterAt (n j : ℕ) : ℕ := if n + 1 = 2 ^ 32 then j % (n + 1) else min j n

theorem counterAt_succ {n c : UInt32} {j : ℕ} (hc : c.toNat = counterAt n.toNat j) :
    (if n ≤ c + 1 then n else c + 1).toNat = counterAt n.toNat (j + 1) := by
  have hn := n.toNat_lt
  have hsucc : (c + 1).toNat = (c.toNat + 1) % 2 ^ 32 := UInt32.toNat_add c 1
  have hle : n ≤ c + 1 ↔ n.toNat ≤ (c + 1).toNat := UInt32.le_iff_toNat_le
  simp only [apply_ite UInt32.toNat, hle, hsucc]
  simp only [counterAt] at hc ⊢
  by_cases hmax : n.toNat + 1 = 2 ^ 32
  · rw [if_pos hmax, hmax] at hc ⊢
    split_ifs <;> omega
  · rw [if_neg hmax] at hc ⊢
    split_ifs <;> omega

/-! ### Generating a signal -/

/-- An enabled controller with a period of `n` ticks, `on` of them HIGH, for the duty cycle `d`. -/
structure Generating (n on d : UInt32) (p : PWMController) : Prop where
  enabled : p.enabled = true
  period : p.periodTicks = n
  onTicks : p.onTicks = on
  duty : p.dutyCycle = d
  timer : Internal p.timer
  compare : p.timer.compare = n

variable {p} {n on d : UInt32}

/-- **One tick.**  The signal goes on, and the counter advances, but not beyond the period. -/
theorem Generating.tick (h : Generating n on d p) :
    Generating n on d p.tick ∧
      p.tick.timer.counter = if n ≤ p.timer.counter + 1 then n else p.timer.counter + 1 := by
  -- the timer that is ticked: it is started first, if it has stopped
  have hstarted : ∃ t, Internal t ∧ t.running = true ∧ t.compare = n ∧
      t.counter = p.timer.counter ∧
      p.tick = { p with timer := (t.tick nullClock nullScheduler).1 }.updateStatusRegister := by
    rw [PWMController.tick, if_pos h.enabled]
    by_cases hrun : p.timer.running = true
    · exact ⟨p.timer, h.timer, hrun, h.compare, rfl, by rw [if_pos hrun]⟩
    · obtain ⟨hstart, hrunning, hcompare, hcount⟩ := h.timer.start
      exact ⟨_, hstart, hrunning, hcompare.trans h.compare, hcount, by rw [if_neg hrun]⟩
  obtain ⟨t, ht, hrun, rfl, hcount, hp⟩ := hstarted
  obtain ⟨htick, hcompare, hcounter⟩ := ht.tick hrun
  rw [hp, ← hcount]
  exact ⟨⟨h.enabled, h.period, h.onTicks, h.duty, htick, hcompare⟩, hcounter⟩

theorem Generating.ticks (h : Generating n on d p)
    (hc : p.timer.counter.toNat = counterAt n.toNat 0) (k : ℕ) :
    Generating n on d (PWMController.tick^[k] p) ∧
      (PWMController.tick^[k] p).timer.counter.toNat = counterAt n.toNat k := by
  induction k with
  | zero => exact ⟨h, hc⟩
  | succ k ih =>
    rw [Function.iterate_succ_apply']
    obtain ⟨htick, hcount⟩ := ih.1.tick
    exact ⟨htick, hcount ▸ counterAt_succ ih.2⟩

/-- The output after `j` ticks is HIGH. -/
def High (n on : ℕ) (d : UInt32) (j : ℕ) : Prop :=
  d ≠ 0 ∧ (d = 100 ∨ counterAt n j % n < on)

instance (n on : ℕ) (d : UInt32) : DecidablePred (High n on d) :=
  fun _ => inferInstanceAs (Decidable (_ ∧ _))

theorem Generating.outputState (h : Generating n on d p) (hn : 0 < n) {j : ℕ}
    (hc : p.timer.counter.toNat = counterAt n.toNat j) :
    p.outputState = true ↔ High n.toNat on.toNat d j := by
  have hcnt : p.timer.counter % n < on ↔ counterAt n.toNat j % n.toNat < on.toNat := by
    rw [UInt32.lt_iff_toNat_lt, UInt32.toNat_mod, hc]
  simp only [PWMController.outputState, h.enabled, h.duty, h.period, h.onTicks, hn, High, if_true]
  by_cases h₀ : d = 0
  · simp [h₀]
  · by_cases h₁ : d = 100
    · simp [h₁]
    · simp [h₀, h₁, hcnt]

theorem Generating.highs (h : Generating n on d p) (hn : 0 < n) {j : ℕ}
    (hc : p.timer.counter.toNat = counterAt n.toNat j) (m : ℕ) :
    p.highs m = window (High n.toNat on.toNat d) j m := by
  induction m generalizing p j with
  | zero => rfl
  | succ m ih =>
    obtain ⟨htick, hcount⟩ := h.tick
    rw [PWMController.highs, window_succ_left, ih htick (hcount ▸ counterAt_succ hc)]
    simp only [h.outputState hn hc]

/-! ### The reset state -/

/-- What no call changes in a controller that was built for the clock `s`, the frequency `f` and the
duty cycle `d`. -/
structure Built (s f d : UInt32) (p : PWMController) : Prop where
  systemClockHz : p.systemClockHz = s
  control : p.controlRegister.initialValue = 0
  freq : p.freqRegister.initialValue = f
  duty : p.dutyRegister.initialValue = d
  timer : Internal p.timer

/-- The operations of a controller. -/
inductive PWMCall where
  | enable
  | disable
  | setFrequency (frequencyHz : UInt32)
  | setDutyCycle (percent : UInt32)
  | tick
  | reset
  deriving DecidableEq

/-- Performs a call.  One that throws changes nothing. -/
def call (p : PWMController) : PWMCall → PWMController
  | .enable => p.enable
  | .disable => p.disable
  | .setFrequency frequencyHz => (p.setFrequency frequencyHz).toOption.getD p
  | .setDutyCycle percent => (p.setDutyCycle percent).toOption.getD p
  | .tick => p.tick
  | .reset => p.reset

variable {s f : UInt32}

theorem Built.updatePeriodAndDuty (h : Built s f d p) : Built s f d p.updatePeriodAndDuty := by
  refine ⟨h.systemClockHz, h.control, h.freq, h.duty, ?_⟩
  simp only [PWMController.updatePeriodAndDuty]
  split_ifs
  all_goals first | exact (h.timer.setCompare _).1 | exact h.timer

theorem Built.updateStatusRegister (h : Built s f d p) : Built s f d p.updateStatusRegister :=
  ⟨h.systemClockHz, h.control, h.freq, h.duty, h.timer⟩

theorem Built.disable (h : Built s f d p) : Built s f d p.disable :=
  ⟨h.systemClockHz, h.control, h.freq, h.duty, h.timer.stop⟩

theorem Built.reset (h : Built s f d p) : Built s f d p.reset := by
  refine .updateStatusRegister (.updatePeriodAndDuty ?_)
  have hq := h.disable
  exact ⟨hq.systemClockHz, hq.control, hq.freq, hq.duty, hq.timer.reset.1⟩

theorem Built.tick (h : Built s f d p) : Built s f d p.tick := by
  rw [PWMController.tick]
  split_ifs with henabled hrun
  · exact ⟨h.systemClockHz, h.control, h.freq, h.duty, (h.timer.tick hrun).1⟩
  · obtain ⟨hstart, hrunning, -⟩ := h.timer.start
    exact ⟨h.systemClockHz, h.control, h.freq, h.duty, (hstart.tick hrunning).1⟩
  · exact h.updateStatusRegister

theorem Built.call (h : Built s f d p) (op : PWMCall) : Built s f d (p.call op) := by
  cases op with
  | enable =>
    have hauto : Internal (p.timer.setAutoReset true) :=
      ⟨h.timer.noClock, h.timer.noScheduler, h.timer.countReset⟩
    exact ⟨h.systemClockHz, h.control, h.freq, h.duty, (hauto.setCompare _).1.start.1⟩
  | disable => exact h.disable
  | setFrequency frequencyHz =>
    simp only [PWMController.call, setFrequency]
    split_ifs
    · exact h
    · exact .updateStatusRegister (.updatePeriodAndDuty
        ⟨h.systemClockHz, h.control, h.freq, h.duty, h.timer⟩)
  | setDutyCycle percent =>
    simp only [PWMController.call, setDutyCycle]
    split_ifs
    · exact h
    · exact .updateStatusRegister (.updatePeriodAndDuty
        ⟨h.systemClockHz, h.control, h.freq, h.duty, h.timer⟩)
  | tick => exact h.tick
  | reset => exact h.reset

/-- The on-ticks of a period of `n` ticks. -/
def onTicksOf (n d : UInt32) : UInt32 := (n.toUInt64 * d.toUInt64 / 100).toUInt32

theorem toNat_onTicksOf {n d : UInt32} (hd : d ≤ 100) :
    (onTicksOf n d).toNat = n.toNat * d.toNat / 100 := by
  have hd : d.toNat ≤ 100 := UInt32.le_iff_toNat_le.1 hd
  have hmul : n.toNat * d.toNat ≤ n.toNat * 100 := Nat.mul_le_mul_left _ hd
  have hn := n.toNat_lt
  have hprod : (n.toUInt64 * d.toUInt64).toNat = n.toNat * d.toNat := by
    rw [UInt64.toNat_mul, UInt32.toNat_toUInt64, UInt32.toNat_toUInt64]
    exact Nat.mod_eq_of_lt (by omega)
  have h100 : UInt64.toNat 100 = 100 := rfl
  rw [onTicksOf, UInt64.toNat_toUInt32, UInt64.toNat_div, hprod, h100]
  exact Nat.mod_eq_of_lt (by omega)

/-- A controller in the reset state, for valid parameters. -/
structure Fresh (s f d : UInt32) (p : PWMController) : Prop where
  period : p.periodTicks = s / f
  onTicks : p.onTicks = onTicksOf (s / f) d
  duty : p.dutyCycle = d
  timer : Internal p.timer
  counter : p.timer.counter = 0

/-- The parameters that the constructor accepts. -/
structure Valid (s f d : UInt32) : Prop where
  pos : 0 < f
  le : f ≤ s
  duty : d ≤ 100

theorem Valid.period_pos (h : Valid s f d) : 0 < s / f := by
  rw [UInt32.lt_iff_toNat_lt, UInt32.toNat_div]
  exact Nat.div_pos (UInt32.le_iff_toNat_le.1 h.le) (UInt32.lt_iff_toNat_lt.1 h.pos)

theorem Built.calls (h : Built s f d p) (ops : List PWMCall) :
    Built s f d (ops.foldl PWMController.call p) := by
  induction ops generalizing p with
  | nil => exact h
  | cons op ops ih => exact ih (h.call op)

theorem fresh_of_disabled (hv : Valid s f d) (hs : p.systemClockHz = s) (hf : p.frequency = f)
    (hd : p.dutyCycle = d) (hdis : p.enabled = false) (ht : Internal p.timer)
    (hc : p.timer.counter = 0) :
    Fresh s f d p.updatePeriodAndDuty.updateStatusRegister := by
  have hperiod : p.updatePeriodAndDuty = { p with
      periodTicks := s / f
      onTicks := onTicksOf (s / f) d } := by
    have hf₀ : f ≠ 0 := UInt32.pos_iff_ne_zero.1 hv.pos
    have hn₀ : s / f ≠ 0 := UInt32.pos_iff_ne_zero.1 hv.period_pos
    simp only [updatePeriodAndDuty, hf, hs, hd, hdis, hf₀, hn₀, if_false, Bool.false_eq_true]
    rfl
  rw [hperiod]
  exact ⟨rfl, rfl, hd, ht, hc⟩

theorem new_ok {a b : Bool} (h : new a b f d s = .ok p) :
    Valid s f d ∧ Built s f d p ∧ Fresh s f d p := by
  simp only [new] at h
  split_ifs at h with h₁ h₂ h₃ h₄ h₅
  obtain ⟨hf₀, hfs⟩ := not_or.1 h₃
  have hv : Valid s f d :=
    ⟨UInt32.pos_iff_ne_zero.2 hf₀, UInt32.not_lt.1 hfs, UInt32.not_lt.1 h₄⟩
  obtain rfl := Except.ok.inj h
  refine ⟨hv, .updateStatusRegister (.updatePeriodAndDuty ⟨rfl, rfl, rfl, rfl, rfl, rfl, rfl⟩),
    fresh_of_disabled hv rfl rfl rfl ?_ ⟨rfl, rfl, rfl⟩ rfl⟩
  simp [PWMController.enabled]

theorem Built.fresh (h : Built s f d p) (hv : Valid s f d) : Fresh s f d p.reset := by
  have hq := h.disable
  obtain ⟨ht, hc⟩ := hq.timer.reset
  refine fresh_of_disabled hv hq.systemClockHz hq.freq hq.duty ?_ ht hc
  have : p.disable.controlRegister.reset.read = 0 := hq.control
  simp [PWMController.enabled, this]

theorem Fresh.enable (h : Fresh s f d p) :
    Generating (s / f) (onTicksOf (s / f) d) d p.enable ∧ p.enable.timer.counter = 0 := by
  have hauto : Internal (p.timer.setAutoReset true) :=
    ⟨h.timer.noClock, h.timer.noScheduler, h.timer.countReset⟩
  obtain ⟨hset, hcompare, hcount⟩ := hauto.setCompare p.periodTicks
  obtain ⟨hstart, -, hcompare', hcount'⟩ := hset.start
  refine ⟨⟨?_, h.period, h.onTicks, h.duty, hstart, ?_⟩, hcount'.trans (hcount.trans h.counter)⟩
  · have : p.enable.controlRegister.read &&& pwmCtrlEnableBit = pwmCtrlEnableBit := or_and_mask _ _
    rw [PWMController.enabled, this]
    decide
  · exact hcompare'.trans (hcompare.trans h.period)

/-! ### The duty law -/

/-- The signal is HIGH after `j` ticks, for a duty cycle that is neither 0 nor 100. -/
theorem high_iff {n on : ℕ} (hd₀ : d ≠ 0) (hd₁ : d ≠ 100) (hon : 0 < on) (j : ℕ) :
    High n on d j ↔ if n + 1 = 2 ^ 32 then j % (n + 1) < on ∨ j % (n + 1) = n
      else j < on ∨ n ≤ j := by
  rw [High, counterAt]
  simp only [hd₀, hd₁, ne_eq, not_false_eq_true, true_and, false_or]
  have hmod : j % (n + 1) < n + 1 := Nat.mod_lt _ n.succ_pos
  split_ifs with hmax
  · rcases Nat.lt_or_ge (j % (n + 1)) n with h | h
    · rw [Nat.mod_eq_of_lt h]
      omega
    · have : j % (n + 1) = n := by omega
      simp [this, hon]
  · rcases Nat.lt_or_ge j n with h | h
    · rw [min_eq_left h.le, Nat.mod_eq_of_lt h]
      omega
    · simp [hon, h]

theorem window_high {n on : ℕ} (hd₀ : d ≠ 0) (hd₁ : d ≠ 100) (hon : 0 < on) (hlt : on < n) (k : ℕ) :
    window (High n on d) k n = on ↔ (if n + 1 = 2 ^ 32 then k % 2 ^ 32 else k) ≤ on := by
  have hhigh (j : ℕ) := high_iff (n := n) hd₀ hd₁ hon j
  by_cases hmax : n + 1 = 2 ^ 32
  · simp only [hmax, if_true] at hhigh ⊢
    rw [window_congr hhigh, ← hmax]
    exact window_cyclic hlt k
  · simp only [hmax, if_false] at hhigh ⊢
    rw [window_congr hhigh]
    exact window_prefix_or_tail hlt k

/-- The condition on the number `k` of ticks before the samples, for a period of `n` ticks and the
duty cycle `d`. -/
def KeepsDuty (n d k : ℕ) : Prop :=
  d = 100 ∨ n * d / 100 = 0 ∨ (if n + 1 = 2 ^ 32 then k % 2 ^ 32 else k) ≤ n * d / 100

instance (n d k : ℕ) : Decidable (KeepsDuty n d k) := inferInstanceAs (Decidable (_ ∨ _))

/-- The reset state of a controller: it was just built, or any calls were made and then `reset`. -/
def AtReset (s f d : UInt32) (p : PWMController) : Prop :=
  ∃ p₀, new true true f d s = .ok p₀ ∧
    (p = p₀ ∨ ∃ ops : List PWMCall, p = (ops.foldl PWMController.call p₀).reset)

/-- Exactly the on-ticks of a period are HIGH among as many samples as a period has ticks, taken
after `enable` and `k` ticks. -/
def DutyLaw (s f d : UInt32) (p : PWMController) (k : ℕ) : Prop :=
  (PWMController.tick^[k] p.enable).highs (s.toNat / f.toNat) = s.toNat / f.toNat * d.toNat / 100

theorem window_high_iff (hd : d ≤ 100) {n : ℕ} (hn : 0 < n) (k : ℕ) :
    window (High n (n * d.toNat / 100) d) k n = n * d.toNat / 100 ↔ KeepsDuty n d.toNat k := by
  have hd : d.toNat ≤ 100 := UInt32.le_iff_toNat_le.1 hd
  by_cases hd₁ : d = 100
  · subst hd₁
    have hall (j : ℕ) : High n (n * UInt32.toNat 100 / 100) 100 j := ⟨by decide, .inl rfl⟩
    rw [window_of_forall hall]
    exact iff_of_true (Nat.mul_div_cancel n (by decide)).symm (.inl rfl)
  by_cases hon : n * d.toNat / 100 = 0
  · have hnone (j : ℕ) : ¬ High n (n * d.toNat / 100) d j := by
      rw [hon]
      rintro ⟨-, h | h⟩
      · exact hd₁ h
      · exact Nat.not_lt_zero _ h
    rw [window_of_forall_not hnone]
    exact iff_of_true hon.symm (.inr (.inl hon))
  · have hd₀ : d ≠ 0 := by
      rintro rfl
      exact hon (by simp)
    have hne : d.toNat ≠ 100 := fun h => hd₁ (UInt32.toNat.inj h)
    have hlt : n * d.toNat / 100 < n := by
      rw [Nat.div_lt_iff_lt_mul (by decide)]
      exact Nat.mul_lt_mul_of_pos_left (by omega) hn
    rw [window_high hd₀ hd₁ (Nat.pos_of_ne_zero hon) hlt, KeepsDuty]
    simp only [hne, hon, false_or]

/-- **Duty law.**  After `enable` from a reset state and `k` ticks, the law holds exactly if the
duty cycle is 100, the period has no on-ticks, or `k` is at most the number of on-ticks. -/
theorem dutyLaw_iff {p : PWMController} (h : AtReset s f d p) (k : ℕ) :
    DutyLaw s f d p k ↔ KeepsDuty (s.toNat / f.toNat) d.toNat k := by
  obtain ⟨hv, hgen, hcount⟩ : Valid s f d ∧
      Generating (s / f) (onTicksOf (s / f) d) d p.enable ∧ p.enable.timer.counter = 0 := by
    obtain ⟨p₀, hnew, hp⟩ := h
    obtain ⟨hv, hbuilt, hfresh⟩ := new_ok hnew
    rcases hp with rfl | ⟨ops, rfl⟩
    · exact ⟨hv, hfresh.enable⟩
    · exact ⟨hv, ((hbuilt.calls ops).fresh hv).enable⟩
  have hcount : p.enable.timer.counter.toNat = counterAt (s / f).toNat 0 := by
    rw [hcount, counterAt]
    simp
  obtain ⟨hk, hck⟩ := hgen.ticks hcount k
  rw [DutyLaw, ← UInt32.toNat_div, hk.highs hv.period_pos hck, toNat_onTicksOf hv.duty]
  exact window_high_iff hv.duty (UInt32.lt_iff_toNat_lt.1 hv.period_pos) k

/-- A controller with a period of four ticks and a duty cycle of 50. -/
def fourTicks : PWMController :=
  (⟨4, .new 0, .new 1, .new 50, .new 0, .new, 1000, 500⟩ : PWMController)
    |>.updatePeriodAndDuty.updateStatusRegister

theorem fourTicks_atReset : AtReset 4 1 50 fourTicks := ⟨fourTicks, rfl, .inl rfl⟩

/-- Two ticks after `enable` the samples still show the duty cycle. -/
theorem dutyLaw_fourTicks : DutyLaw 4 1 50 fourTicks 2 :=
  (dutyLaw_iff fourTicks_atReset 2).2 (by decide)

/-- From the third tick on, the counter stays at the period, where the output is HIGH. -/
theorem not_dutyLaw_fourTicks : AtReset 4 1 50 fourTicks ∧ ¬ DutyLaw 4 1 50 fourTicks 3 :=
  ⟨fourTicks_atReset, by unfold DutyLaw; decide +kernel⟩

end PWMController

end Drivers

end EFS
