import EFS.Drivers.Construction
import EFS.Kernel.Draining

/-!
# Operations of the drivers

The calls of each driver as a type, and the object after a call.  A call that throws does so before
it has changed the object.

No call changes the reset value of a register (`SameInitial`); this is all that a reset needs to
know about what has happened before.
-/

namespace EFS

namespace Mmio

/-- The registers have the same reset values. -/
def SameInitial {ρ : Type} (f g : ρ → Register) : Prop :=
  ∀ r, (g r).initialValue = (f r).initialValue

namespace SameInitial

variable {ρ : Type} {f g h : ρ → Register}

theorem refl (f : ρ → Register) : SameInitial f f := fun _ => rfl

theorem trans (hfg : SameInitial f g) (hgh : SameInitial g h) : SameInitial f h :=
  fun r => (hgh r).trans (hfg r)

end SameInitial

end Mmio

namespace Drivers

open EFS.Mmio EFS.Kernel EFS.System

/-- The object after a call that returns it, or throws. -/
def unlessThrows {α : Type} (s : α) : Except String α → α
  | .ok s' => s'
  | .error _ => s

theorem unlessThrows_eq {α : Type} (s : α) (result : Except String α) :
    unlessThrows s result = result.toOption.getD s := by
  cases result <;> rfl

/-- The object after a call that returns a result and the object, or throws. -/
def afterCall {α β : Type} (s : α) : Except String (β × α) → α
  | .ok (_, s') => s'
  | .error _ => s

section

variable {α β ρ : Type} (registers : α → ρ → Register) {s : α}

theorem sameInitial_unlessThrows {result : Except String α}
    (hok : ∀ s', result = .ok s' → SameInitial (registers s) (registers s')) :
    SameInitial (registers s) (registers (unlessThrows s result)) := by
  cases result with
  | ok s' => exact hok s' rfl
  | error e => exact .refl _

theorem sameInitial_check {p : Prop} [Decidable p] {e : String} {s' : α}
    (h : SameInitial (registers s) (registers s')) :
    SameInitial (registers s) (registers (unlessThrows s (if p then .error e else .ok s'))) := by
  split_ifs
  · exact .refl _
  · exact h

theorem sameInitial_checkCall {p : Prop} [Decidable p] {e : String} {result : Except String (β × α)}
    (h : SameInitial (registers s) (registers (afterCall s result))) :
    SameInitial (registers s) (registers (afterCall s (if p then .error e else result))) := by
  split_ifs
  · exact .refl _
  · exact h

end

/-- A computation that goes on after `x` and returns a value has got one from `x`. -/
theorem exists_ok_of_bind {α β : Type} {x : Except String α} {f : α → Except String β} {b : β}
    (h : x >>= f = .ok b) : ∃ a, f a = .ok b := by
  cases x with
  | error e => cases h
  | ok a => exact ⟨a, h⟩

/-! ### GPIO -/

namespace GPIO

/-- The operations of a GPIO port that change it. -/
inductive Op
  | configurePin (pin : UInt8) (direction : PinDirection)
  | writePin (pin : UInt8) (state : PinState)
  | togglePin (pin : UInt8)
  | setExternalInput (pin : UInt8) (state : PinState)
  | reset

/-- The port after an operation, which leaves it as it is if it throws. -/
def perform (g : GPIO) : Op → GPIO
  | .configurePin pin direction => unlessThrows g (g.configurePin pin direction)
  | .writePin pin state => unlessThrows g (g.writePin pin state)
  | .togglePin pin => unlessThrows g (g.togglePin pin)
  | .setExternalInput pin state => unlessThrows g (g.setExternalInput pin state)
  | .reset => g.reset

variable {g g' : GPIO} {pin : UInt8}

theorem configurePin_ok {direction : PinDirection} (h : g.configurePin pin direction = .ok g') :
    SameInitial g.register g'.register := by
  obtain ⟨-, h⟩ := exists_ok_of_bind h
  obtain rfl := Except.ok.inj h
  exact fun r => by cases r <;> rfl

theorem writePin_ok {state : PinState} (h : g.writePin pin state = .ok g') :
    SameInitial g.register g'.register := by
  obtain ⟨-, h⟩ := exists_ok_of_bind h
  split_ifs at h
  obtain rfl := Except.ok.inj h
  exact fun r => by cases r <;> rfl

theorem togglePin_ok (h : g.togglePin pin = .ok g') : SameInitial g.register g'.register := by
  obtain ⟨-, h⟩ := exists_ok_of_bind h
  split_ifs at h
  obtain ⟨current, h⟩ := exists_ok_of_bind h
  exact writePin_ok h

theorem setExternalInput_ok {state : PinState} (h : g.setExternalInput pin state = .ok g') :
    SameInitial g.register g'.register := by
  obtain ⟨-, h⟩ := exists_ok_of_bind h
  split_ifs at h
  obtain rfl := Except.ok.inj h
  exact fun r => by cases r <;> rfl

theorem sameInitial_perform (g : GPIO) (o : Op) :
    SameInitial g.register (g.perform o).register := by
  cases o with
  | configurePin pin direction => exact sameInitial_unlessThrows register fun _ => configurePin_ok
  | writePin pin state => exact sameInitial_unlessThrows register fun _ => writePin_ok
  | togglePin pin => exact sameInitial_unlessThrows register fun _ => togglePin_ok
  | setExternalInput pin state =>
    exact sameInitial_unlessThrows register fun _ => setExternalInput_ok
  | reset => exact fun r => by cases r <;> rfl

end GPIO

/-! ### UART -/

namespace UART

/-- The operations of a UART that change it. -/
inductive Op
  | enable
  | disable
  | writeByte (byte : UInt8)
  | readByte
  | pushReceivedByte (byte : UInt8)
  | setBaudRate (baud : UInt32)
  | popTxByte
  | reset

/-- The UART after an operation, which leaves it as it is if it throws. -/
def perform (u : UART) : Op → UART
  | .enable => u.enable
  | .disable => u.disable
  | .writeByte byte => unlessThrows u (u.writeByte byte)
  | .readByte => afterCall u u.readByte
  | .pushReceivedByte byte => unlessThrows u (u.pushReceivedByte byte)
  | .setBaudRate baud => unlessThrows u (u.setBaudRate baud)
  | .popTxByte => afterCall u u.popTxByte
  | .reset => u.reset

theorem sameInitial_perform (u : UART) (o : Op) :
    SameInitial u.register (u.perform o).register := by
  cases o with
  | enable | disable | reset => exact fun r => by cases r <;> rfl
  | writeByte byte | pushReceivedByte byte | setBaudRate baud =>
    exact sameInitial_check register fun r => by cases r <;> rfl
  | readByte =>
    refine sameInitial_checkCall register ?_
    cases u.rxFifo with
    | nil => exact .refl _
    | cons byte rest => exact fun r => by cases r <;> rfl
  | popTxByte =>
    show SameInitial u.register (afterCall u u.popTxByte).register
    unfold popTxByte
    cases u.txFifo with
    | nil => exact .refl _
    | cons byte rest => exact fun r => by cases r <;> rfl

end UART

/-! ### SPI -/

namespace SPIController

/-- The operations of an SPI controller that change it, with the answers of the slave. -/
inductive Op
  | enable
  | disable
  | transfer (respond : UInt8 → UInt8) (byte : UInt8)
  | writeByte (respond : UInt8 → UInt8) (byte : UInt8)
  | readByte
  | setClockDivider (value : UInt32)
  | setMode (mode : UInt8)
  | setSlave (slave : Bool)
  | reset

/-- The controller after an operation, which leaves it as it is if it throws. -/
def perform (c : SPIController) : Op → SPIController
  | .enable => c.enable
  | .disable => c.disable
  | .transfer respond byte => afterCall c (c.transfer respond byte)
  | .writeByte respond byte => unlessThrows c (c.writeByte respond byte)
  | .readByte => afterCall c c.readByte
  | .setClockDivider value => unlessThrows c (c.setClockDivider value)
  | .setMode mode => unlessThrows c (c.setMode mode)
  | .setSlave slave => c.setSlave slave
  | .reset => c.reset

theorem sameInitial_perform (c : SPIController) (o : Op) :
    SameInitial c.register (c.perform o).register := by
  cases o with
  | enable | disable | setSlave slave | reset => exact fun r => by cases r <;> rfl
  | transfer respond byte => exact sameInitial_checkCall register fun r => by cases r <;> rfl
  | writeByte respond byte | setClockDivider value | setMode mode =>
    exact sameInitial_check register fun r => by cases r <;> rfl
  | readByte =>
    refine sameInitial_checkCall register ?_
    cases c.rxBuffer with
    | nil => exact sameInitial_checkCall register fun r => by cases r <;> rfl
    | cons byte rest =>
      cases rest with
      | nil => exact fun r => by cases r <;> rfl
      | cons _ _ => exact fun r => by cases r <;> rfl

end SPIController

/-! ### I2C -/

namespace I2CController

variable {D : Type} [DecidableEq D]

/-- The operations of an I2C controller that change it, with the answers of the devices. -/
inductive Op (D : Type)
  | enable
  | disable
  | start (address : D → UInt8) (onStart : D → Bool → Bool) (isRead : Bool)
  | stop
  | writeByte (onWrite : D → UInt8 → Bool) (byte : UInt8)
  | readByte (onRead : D → UInt8)
  | setSlaveAddress (address : UInt8)
  | attachDevice (device : Option D)
  | detachDevice (device : Option D)
  | reset

/-- The controller after an operation, which leaves it as it is if it throws. -/
def perform (c : I2CController D) : Op D → I2CController D
  | .enable => c.enable
  | .disable => c.disable
  | .start address onStart isRead => afterCall c (c.start address onStart isRead)
  | .stop => c.stop
  | .writeByte onWrite byte => afterCall c (c.writeByte onWrite byte)
  | .readByte onRead => afterCall c (c.readByte onRead)
  | .setSlaveAddress address => c.setSlaveAddress address
  | .attachDevice device => c.attachDevice device
  | .detachDevice device => c.detachDevice device
  | .reset => c.reset

theorem sameInitial_perform (c : I2CController D) (o : Op D) :
    SameInitial c.register (c.perform o).register := by
  cases o with
  | enable | disable | stop | setSlaveAddress address | reset =>
    exact fun r => by cases r <;> rfl
  | start address onStart isRead =>
    refine sameInitial_checkCall register ?_
    dsimp only
    split
    · exact fun r => by cases r <;> rfl
    · exact fun r => by cases r <;> rfl
  | writeByte onWrite byte =>
    refine sameInitial_checkCall register (sameInitial_checkCall register ?_)
    exact fun r => by cases r <;> rfl
  | readByte onRead =>
    refine sameInitial_checkCall register ?_
    cases c.rxBuffer with
    | cons byte rest => exact fun r => by cases r <;> rfl
    | nil =>
      cases c.activeDevice with
      | none => exact .refl _
      | some d => exact sameInitial_checkCall register fun r => by cases r <;> rfl
  | attachDevice device =>
    cases device with
    | none => exact .refl _
    | some d =>
      simp only [perform, attachDevice]
      split_ifs
      · exact .refl _
      · exact fun r => by cases r <;> rfl
  | detachDevice device =>
    cases device with
    | none => exact .refl _
    | some d => exact fun r => by cases r <;> rfl

end I2CController

/-! ### ADC -/

namespace ADCController

/-- The operations of an ADC that change it. -/
inductive Op
  | enable
  | disable
  | setResolution (bits : UInt8)
  | setReferenceVoltage (voltage : Float)
  | setAnalogInput (channel : UInt64) (voltage : Float)
  | sample (channel : UInt64)
  | reset

/-- The converter after an operation, which leaves it as it is if it throws. -/
def perform (c : ADCController) : Op → ADCController
  | .enable => c.enable
  | .disable => c.disable
  | .setResolution bits => unlessThrows c (c.setResolution bits)
  | .setReferenceVoltage voltage => unlessThrows c (c.setReferenceVoltage voltage)
  | .setAnalogInput channel voltage => unlessThrows c (c.setAnalogInput channel voltage)
  | .sample channel => afterCall c (c.sample channel)
  | .reset => c.reset

theorem sameInitial_perform (c : ADCController) (o : Op) :
    SameInitial c.register (c.perform o).register := by
  cases o with
  | enable | disable | reset => exact fun r => by cases r <;> rfl
  | setResolution bits | setReferenceVoltage voltage =>
    exact sameInitial_check register fun r => by cases r <;> rfl
  | setAnalogInput channel voltage =>
    refine sameInitial_unlessThrows register ?_
    intro c' h
    unfold setAnalogInput at h
    split_ifs at h
    obtain rfl := Except.ok.inj h
    exact fun r => by cases r <;> rfl
  | sample channel =>
    refine sameInitial_checkCall register ?_
    cases c.channels[channel.toNat]? with
    | none => exact .refl _
    | some voltage => exact fun r => by cases r <;> rfl

end ADCController

/-! ### Timers -/

namespace Timer

variable {Cb : Type} (t : Timer) (self : Cb) (clock : SimulationClock) (sched : EventScheduler Cb)

/-- A register of the timer. -/
def register : TimerRegister → Register
  | .ctrl => t.ctrlRegister
  | .count => t.countRegister
  | .compare => t.compareRegister
  | .status => t.statusRegister

@[simp] theorem register_cancelScheduledEvent :
    (t.cancelScheduledEvent sched).1.register = t.register := by
  unfold cancelScheduledEvent
  split_ifs <;> rfl

@[simp] theorem register_scheduleMatch :
    (t.scheduleMatch self clock sched).1.register = t.register := by
  unfold scheduleMatch
  split_ifs <;> rfl

@[simp] theorem register_updateScheduledEvent :
    (t.updateScheduledEvent self clock sched).1.register = t.register := by
  simp [updateScheduledEvent]

@[simp] theorem register_syncClock : (t.syncClock clock).register = t.register := by
  unfold syncClock
  split_ifs <;> rfl

theorem sameInitial_start : SameInitial t.register (t.start self clock sched).1.register := by
  rw [start, register_updateScheduledEvent, register_syncClock]
  exact fun r => by cases r <;> rfl

theorem sameInitial_stop : SameInitial t.register (t.stop sched).1.register := by
  rw [stop, register_cancelScheduledEvent]
  exact fun r => by cases r <;> rfl

theorem register_reset (r : TimerRegister) : (t.reset clock sched).1.register r =
    if r = .compare then t.register r else (t.register r).reset := by
  have hstop : (t.stop sched).1.register = t.disabled.register :=
    t.disabled.register_cancelScheduledEvent sched
  rw [reset, register_syncClock]
  cases r with
  | ctrl => exact (congrArg Register.reset (congrFun hstop .ctrl)).trans rfl
  | count => exact congrArg Register.reset (congrFun hstop .count)
  | compare => exact congrFun hstop .compare
  | status => exact congrArg Register.reset (congrFun hstop .status)

theorem sameInitial_reset : SameInitial t.register (t.reset clock sched).1.register := by
  intro r
  rw [register_reset]
  split_ifs <;> rfl

theorem sameInitial_setCompare (value : UInt32) :
    SameInitial t.register (t.setCompare self clock sched value).1.register := by
  rw [setCompare, register_updateScheduledEvent]
  exact fun r => by cases r <;> rfl

theorem sameInitial_handleCompareMatch :
    SameInitial t.register (t.handleCompareMatch sched).1.register := by
  unfold handleCompareMatch
  split_ifs
  · have hmatched : SameInitial t.register t.matched.register := fun r => by cases r <;> rfl
    exact hmatched.trans (sameInitial_stop t.matched sched)
  · exact .refl _

theorem sameInitial_counted (count : UInt32) :
    SameInitial t.register (t.counted clock count).register := by
  intro r
  have hsync := congrFun (t.register_syncClock clock) r
  cases r with
  | count => rfl
  | ctrl | compare | status => exact congrArg Register.initialValue hsync

theorem sameInitial_tick : SameInitial t.register (t.tick clock sched).1.register := by
  simp only [tick]
  split_ifs
  · exact (t.sameInitial_counted clock _).trans (sameInitial_handleCompareMatch _ _)
  · exact t.sameInitial_counted clock _
  · rw [register_syncClock]
    exact .refl _

theorem sameInitial_perform (o : Op) :
    SameInitial t.register (t.perform self clock sched o).1.register := by
  cases o with
  | start => exact t.sameInitial_start self clock sched
  | stop => exact t.sameInitial_stop sched
  | reset => exact t.sameInitial_reset clock sched
  | setCompare value => exact t.sameInitial_setCompare self clock sched value
  | clearMatch | setAutoReset _ | setInterruptEnabled _ | attachInterruptController _
    | detachInterruptController => exact fun r => by cases r <;> rfl

end Timer

/-! ### PWM -/

namespace PWMController

/-- A register of the controller itself; those of its timer are the timer's. -/
def register (p : PWMController) : PWMRegister → Register
  | .control => p.controlRegister
  | .freq => p.freqRegister
  | .duty => p.dutyRegister
  | .status => p.statusRegister

theorem sameInitial_call (p : PWMController) (c : PWMCall) :
    SameInitial p.register (p.call c).register := by
  cases c with
  | enable | disable | reset => exact fun r => by cases r <;> rfl
  | setFrequency frequencyHz | setDutyCycle percent =>
    rw [call, ← unlessThrows_eq]
    exact sameInitial_check register fun r => by cases r <;> rfl
  | tick =>
    simp only [call, tick]
    split_ifs <;> exact fun r => by cases r <;> rfl

theorem sameInitial_timer_updatePeriodAndDuty (p : PWMController) :
    SameInitial p.timer.register p.updatePeriodAndDuty.timer.register := by
  by_cases he : p.enabled
  · have hset : p.updatePeriodAndDuty.timer =
        (p.timer.setCompare () nullClock nullScheduler p.updatePeriodAndDuty.periodTicks).1 :=
      if_pos he
    rw [hset]
    exact p.timer.sameInitial_setCompare () nullClock nullScheduler _
  · have hkept : p.updatePeriodAndDuty.timer = p.timer := if_neg he
    rw [hkept]
    exact .refl _

/-- Nor does a call change those of the internal timer. -/
theorem sameInitial_timer_call (p : PWMController) (c : PWMCall) :
    SameInitial p.timer.register (p.call c).timer.register := by
  cases c with
  | enable =>
    have hauto : SameInitial p.timer.register (p.timer.setAutoReset true).register :=
      fun r => by cases r <;> rfl
    have hcompare := (p.timer.setAutoReset true).sameInitial_setCompare () nullClock nullScheduler
      p.periodTicks
    exact (hauto.trans hcompare).trans (Timer.sameInitial_start _ () nullClock nullScheduler)
  | disable => exact p.timer.sameInitial_stop nullScheduler
  | setFrequency frequencyHz =>
    rw [call, ← unlessThrows_eq]
    exact sameInitial_check (fun p : PWMController => p.timer.register)
      (sameInitial_timer_updatePeriodAndDuty { p with
        freqRegister := p.freqRegister.write frequencyHz })
  | setDutyCycle percent =>
    rw [call, ← unlessThrows_eq]
    exact sameInitial_check (fun p : PWMController => p.timer.register)
      (sameInitial_timer_updatePeriodAndDuty { p with
        dutyRegister := p.dutyRegister.write percent })
  | tick =>
    simp only [call, tick]
    split_ifs
    · exact p.timer.sameInitial_tick nullClock nullScheduler
    · exact (p.timer.sameInitial_start () nullClock nullScheduler).trans
        (Timer.sameInitial_tick _ nullClock nullScheduler)
    · exact .refl _
  | reset =>
    exact ((p.timer.sameInitial_stop nullScheduler).trans
      (Timer.sameInitial_reset _ nullClock nullScheduler)).trans
        (sameInitial_timer_updatePeriodAndDuty _)

end PWMController

end Drivers

/-! ### Interrupt controllers -/

namespace Kernel.InterruptController

open EFS.Mmio EFS.Drivers

variable {H : Type} {ic ic' : InterruptController H} {id : UInt8}

/-- A register of the interrupt controller. -/
def register (ic : InterruptController H) : InterruptRegister → Register
  | .enable => ic.enableRegister
  | .pending => ic.pendingRegister
  | .priority => ic.priorityRegister

theorem sameInitial_orUnchanged {result : Except String (InterruptController H)}
    (hok : ∀ ic', result = .ok ic' → SameInitial ic.register ic'.register) :
    SameInitial ic.register (ic.orUnchanged result).register := by
  cases result with
  | ok ic' => exact hok ic' rfl
  | error e => exact .refl _

theorem sameInitial_clear (h : ic.clear id = .ok ic') : SameInitial ic.register ic'.register := by
  obtain ⟨line, h⟩ := exists_ok_of_bind h
  split_ifs at h <;> obtain rfl := Except.ok.inj h <;> exact fun r => by cases r <;> rfl

theorem sameInitial_disable (h : ic.disable id = .ok ic') :
    SameInitial ic.register ic'.register := by
  obtain ⟨line, h⟩ := exists_ok_of_bind h
  split_ifs at h <;> obtain rfl := Except.ok.inj h <;> exact fun r => by cases r <;> rfl

theorem sameInitial_dispatch (ic : InterruptController H) :
    SameInitial ic.register ic.dispatch.1.register := by
  unfold dispatch
  split
  · split
    · exact sameInitial_clear ‹_›
    · exact .refl _
  · exact .refl _

theorem sameInitial_orUnchanged_fst {result : Except String (InterruptController H × Bool)}
    (hok : ∀ ic' b, result = .ok (ic', b) → SameInitial ic.register ic'.register) :
    SameInitial ic.register (ic.orUnchanged (result.map Prod.fst)).register := by
  cases result with
  | ok x => exact hok x.1 x.2 rfl
  | error e => exact .refl _

theorem sameInitial_unregisterInterrupt {b : Bool} (h : ic.unregisterInterrupt id = .ok (ic', b)) :
    SameInitial ic.register ic'.register := by
  obtain ⟨line, h⟩ := exists_ok_of_bind h
  split_ifs at h
  · cases hdisable : ic.disable id with
    | error e => simp [hdisable, bind, Except.bind] at h
    | ok ic₁ =>
      cases hclear : ic₁.clear id with
      | error e => simp [hdisable, hclear, bind, Except.bind] at h
      | ok ic₂ =>
        have hkept := (sameInitial_disable hdisable).trans (sameInitial_clear hclear)
        simp only [hdisable, hclear, bind, Except.bind] at h
        obtain rfl := congrArg Prod.fst (Except.ok.inj h)
        exact hkept.trans fun r => by cases r <;> rfl
  · obtain rfl := congrArg Prod.fst (Except.ok.inj h)
    exact .refl _

theorem sameInitial_perform (ic : InterruptController H) (o : Op H) :
    SameInitial ic.register (ic.perform o).register := by
  cases o with
  | registerInterrupt id | registerHandler id callback | unregisterHandler id =>
    refine sameInitial_orUnchanged_fst ?_
    intro ic' b h
    obtain ⟨line, h⟩ := exists_ok_of_bind h
    split_ifs at h <;> obtain rfl := congrArg Prod.fst (Except.ok.inj h) <;>
      exact fun r => by cases r <;> rfl
  | unregisterInterrupt id =>
    exact sameInitial_orUnchanged_fst fun ic' b h => sameInitial_unregisterInterrupt h
  | enable id | trigger id | setPriority id priority =>
    refine sameInitial_orUnchanged ?_
    intro ic' h
    obtain ⟨line, h⟩ := exists_ok_of_bind h
    split_ifs at h <;> obtain rfl := Except.ok.inj h <;> exact fun r => by cases r <;> rfl
  | disable id => exact sameInitial_orUnchanged fun ic' h => sameInitial_disable h
  | clear id => exact sameInitial_orUnchanged fun ic' h => sameInitial_clear h
  | dispatch => exact ic.sameInitial_dispatch
  | reset | writeEnable _ | writePending _ | writePriority _ => exact fun r => by cases r <;> rfl

end Kernel.InterruptController

end EFS
