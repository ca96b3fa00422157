import EFS.Drivers.Adc
import EFS.Drivers.Gpio
import EFS.Drivers.I2c
import EFS.Drivers.Pwm
import EFS.Drivers.Spi
import EFS.Drivers.Uart
import EFS.Kernel.InterruptController
import EFS.Mmio.Registration

/-!
# Constructing peripherals on a bus

The constructors and destructors of the peripherals, with what they do to the MMIO bus.  A
constructor is given the references `R` under which its registers become known to the bus, and
returns the new object or the exception that it throws.  Its parameters are checked before anything
is registered, except by a PWM controller, which constructs its internal timer first; an exception
then destroys that timer.
-/

namespace EFS

namespace Drivers

open EFS.Mmio EFS.Kernel

/-- The registers of a timer. -/
inductive TimerRegister
  | ctrl
  | count
  | compare
  | status
  deriving DecidableEq

/-- The registers of a PWM controller, without those of its internal timer. -/
inductive PWMRegister
  | control
  | freq
  | duty
  | status
  deriving DecidableEq

/-- The registers of an interrupt controller. -/
inductive InterruptRegister
  | enable
  | pending
  | priority
  deriving DecidableEq

/-! ### The offsets of the registers, in the order of their registration -/

/-- The registers of a GPIO port, in the order of their registration. -/
def GPIO.layout : List (GPIORegister × Address) :=
  [(.dir, dirOffset), (.out, outOffset), (.inp, inOffset)]

/-- The registers of a timer, in the order of their registration. -/
def Timer.layout : List (TimerRegister × Address) :=
  [(.ctrl, 0x00), (.count, 0x04), (.compare, 0x08), (.status, 0x0C)]

/-- The registers of a UART, in the order of their registration. -/
def UART.layout : List (UARTRegister × Address) :=
  [(.data, dataOffset), (.status, statusOffset), (.control, controlOffset), (.baud, baudOffset)]

/-- The registers of an SPI controller, in the order of their registration. -/
def SPIController.layout : List (SPIRegister × Address) :=
  [(.data, dataOffset), (.status, statusOffset), (.control, controlOffset),
    (.clockDiv, clockDivOffset)]

/-- The registers of an I2C controller, in the order of their registration. -/
def I2CController.layout : List (I2CRegister × Address) :=
  [(.data, dataOffset), (.status, statusOffset), (.control, controlOffset), (.addr, addrOffset)]

/-- The registers of a PWM controller, in the order of their registration. -/
def PWMController.layout : List (PWMRegister × Address) :=
  [(.control, 0x00), (.freq, 0x04), (.duty, 0x08), (.status, 0x0C)]

/-- Where the block of the timer inside a PWM controller begins. -/
def PWMController.timerOffset : Address := 0x10

/-- The registers of an ADC, in the order of their registration. -/
def ADCController.layout : List (ADCRegister × Address) :=
  [(.control, ctrlOffset), (.status, statusOffset), (.res, resOffset), (.data, dataOffset)]

/-- The registers of an interrupt controller, in the order of their registration. -/
def interruptLayout : List (InterruptRegister × Address) :=
  [(.enable, 0x00), (.pending, 0x04), (.priority, 0x08)]

/-! ### Constructors -/

variable {R : Type} (bus : MMIOBus R) (baseAddress : Address)

/-- `GPIO::GPIO()` on a bus. -/
def GPIO.construct (ref : GPIORegister → R) : MMIOBus R × Except String GPIO :=
  bus.construct (block baseAddress layout ref) "GPIO MMIO registration failure" (.new baseAddress)

/-- `Timer::Timer()` on a bus. -/
def Timer.construct (ref : TimerRegister → R) : MMIOBus R × Except String Timer :=
  bus.construct (block baseAddress layout ref) "Timer MMIO registration failure" .new

/-- `UART::UART()` on a bus, which checks the baud rate before it registers anything. -/
def UART.construct (ref : UARTRegister → R) (defaultBaudRate : UInt32) :
    MMIOBus R × Except String UART :=
  match UART.new baseAddress defaultBaudRate with
  | .error e => (bus, .error e)
  | .ok u => bus.construct (block baseAddress layout ref) "UART MMIO registration failure" u

/-- `SPIController::SPIController()` on a bus; divider and mode are checked first. -/
def SPIController.construct (ref : SPIRegister → R) (clockDivider : UInt32) (mode : UInt8) :
    MMIOBus R × Except String SPIController :=
  match SPIController.new baseAddress clockDivider mode with
  | .error e => (bus, .error e)
  | .ok c =>
    bus.construct (block baseAddress layout ref) "SPIController MMIO registration failure" c

/-- `I2CController::I2CController()` on a bus. -/
def I2CController.construct {D : Type} (ref : I2CRegister → R) (defaultSlaveAddress : UInt8) :
    MMIOBus R × Except String (I2CController D) :=
  bus.construct (block baseAddress layout ref) "I2CController MMIO registration failure"
    (.new baseAddress defaultSlaveAddress)

/-- `ADCController::ADCController()` on a bus; its arguments are checked first. -/
def ADCController.construct (ref : ADCRegister → R) (resolutionBits : UInt8)
    (referenceVoltage : Float) (channelCount : UInt64) : MMIOBus R × Except String ADCController :=
  match ADCController.new baseAddress resolutionBits referenceVoltage channelCount with
  | .error e => (bus, .error e)
  | .ok c =>
    bus.construct (block baseAddress layout ref) "ADCController MMIO registration failure" c

/-- `InterruptController::InterruptController()` on a bus. -/
def constructInterruptController {H : Type} (ref : InterruptRegister → R) :
    MMIOBus R × Except String (InterruptController H) :=
  bus.construct (block baseAddress interruptLayout ref)
    "InterruptController MMIO registration failure" .init

/-! ### Destructors -/

/-- `GPIO::~GPIO()` takes its registers off the bus. -/
def GPIO.destroy : MMIOBus R := bus.unregisterAll (blockAddresses baseAddress layout)

/-- `Timer::~Timer()` takes its registers off the bus. -/
def Timer.destroy : MMIOBus R := bus.unregisterAll (blockAddresses baseAddress layout)

/-- `UART::~UART()` takes its registers off the bus. -/
def UART.destroy : MMIOBus R := bus.unregisterAll (blockAddresses baseAddress layout)

/-- `SPIController::~SPIController()` takes its registers off the bus. -/
def SPIController.destroy : MMIOBus R := bus.unregisterAll (blockAddresses baseAddress layout)

/-- `I2CController::~I2CController()` takes its registers off the bus. -/
def I2CController.destroy : MMIOBus R := bus.unregisterAll (blockAddresses baseAddress layout)

/-- `ADCController::~ADCController()` takes its registers off the bus. -/
def ADCController.destroy : MMIOBus R := bus.unregisterAll (blockAddresses baseAddress layout)

/-- `InterruptController::~InterruptController()` takes its registers off the bus. -/
def destroyInterruptController : MMIOBus R :=
  bus.unregisterAll (blockAddresses baseAddress interruptLayout)

/-- `~PWMController` : after its own registers, the members go. -/
def PWMController.destroy : MMIOBus R :=
  Timer.destroy (bus.unregisterAll (blockAddresses baseAddress layout)) (baseAddress + timerOffset)

/-- The constructor of a PWM controller.  Its members are constructed first, and an exception that
is thrown then destroys them. -/
def PWMController.construct (ref : PWMRegister → R) (timerRef : TimerRegister → R)
    (frequencyHz dutyCyclePercent systemClockHz : UInt32) :
    MMIOBus R × Except String PWMController :=
  match Timer.construct bus (baseAddress + timerOffset) timerRef with
  | (bus, .error e) => (bus, .error e)
  | (bus, .ok _) =>
    match PWMController.new true true frequencyHz dutyCyclePercent systemClockHz with
    | .error e => (Timer.destroy bus (baseAddress + timerOffset), .error e)
    | .ok p =>
      let own := block baseAddress layout ref
      match bus.construct own "PWMController MMIO registration failure" p with
      | (bus, .ok p) => (bus, .ok p)
      | (bus, .error e) => (Timer.destroy bus (baseAddress + timerOffset), .error e)

/-! ### What a successful constructor returns and adds to the bus -/

section

variable {bus bus' : MMIOBus R} {baseAddress : Address}

theorem GPIO.construct_eq_ok {ref : GPIORegister → R} {g : GPIO}
    (h : GPIO.construct bus baseAddress ref = (bus', .ok g)) :
    g = .new baseAddress ∧ bus.Adds bus' (Set.range ref) :=
  MMIOBus.construct_eq_ok h

theorem Timer.construct_eq_ok {ref : TimerRegister → R} {t : Timer}
    (h : Timer.construct bus baseAddress ref = (bus', .ok t)) :
    t = .new ∧ bus.Adds bus' (Set.range ref) :=
  MMIOBus.construct_eq_ok h

theorem UART.construct_eq_ok {ref : UARTRegister → R} {baud : UInt32} {u : UART}
    (h : UART.construct bus baseAddress ref baud = (bus', .ok u)) :
    UART.new baseAddress baud = .ok u ∧ bus.Adds bus' (Set.range ref) := by
  unfold UART.construct at h
  cases hnew : UART.new baseAddress baud with
  | error e => simp [hnew] at h
  | ok u' =>
    simp only [hnew] at h
    obtain ⟨rfl, hadds⟩ := MMIOBus.construct_eq_ok h
    exact ⟨rfl, hadds⟩

theorem SPIController.construct_eq_ok {ref : SPIRegister → R} {divider : UInt32} {mode : UInt8}
    {c : SPIController}
    (h : SPIController.construct bus baseAddress ref divider mode = (bus', .ok c)) :
    SPIController.new baseAddress divider mode = .ok c ∧ bus.Adds bus' (Set.range ref) := by
  unfold SPIController.construct at h
  cases hnew : SPIController.new baseAddress divider mode with
  | error e => simp [hnew] at h
  | ok c' =>
    simp only [hnew] at h
    obtain ⟨rfl, hadds⟩ := MMIOBus.construct_eq_ok h
    exact ⟨rfl, hadds⟩

theorem I2CController.construct_eq_ok {D : Type} {ref : I2CRegister → R} {address : UInt8}
    {c : I2CController D}
    (h : I2CController.construct bus baseAddress ref address = (bus', .ok c)) :
    c = .new baseAddress address ∧ bus.Adds bus' (Set.range ref) :=
  MMIOBus.construct_eq_ok h

theorem ADCController.construct_eq_ok {ref : ADCRegister → R} {res : UInt8} {voltage : Float}
    {channels : UInt64} {c : ADCController}
    (h : ADCController.construct bus baseAddress ref res voltage channels = (bus', .ok c)) :
    ADCController.new baseAddress res voltage channels = .ok c ∧
      bus.Adds bus' (Set.range ref) := by
  unfold ADCController.construct at h
  cases hnew : ADCController.new baseAddress res voltage channels with
  | error e => simp [hnew] at h
  | ok c' =>
    simp only [hnew] at h
    obtain ⟨rfl, hadds⟩ := MMIOBus.construct_eq_ok h
    exact ⟨rfl, hadds⟩

theorem constructInterruptController_eq_ok {H : Type} {ref : InterruptRegister → R}
    {ic : InterruptController H}
    (h : constructInterruptController bus baseAddress ref = (bus', .ok ic)) :
    ic = .init ∧ bus.Adds bus' (Set.range ref) :=
  MMIOBus.construct_eq_ok h

theorem PWMController.construct_eq_ok {ref : PWMRegister → R} {timerRef : TimerRegister → R}
    {frequency duty clock : UInt32} {p : PWMController}
    (h : PWMController.construct bus baseAddress ref timerRef frequency duty clock =
      (bus', .ok p)) :
    PWMController.new true true frequency duty clock = .ok p ∧
      bus.Adds bus' (Set.range timerRef ∪ Set.range ref) := by
  unfold PWMController.construct at h
  rcases htimer : Timer.construct bus (baseAddress + timerOffset) timerRef with ⟨bus₁, _ | t⟩
  · simp [htimer] at h
  · cases hnew : PWMController.new true true frequency duty clock with
    | error e => simp [htimer, hnew] at h
    | ok p' =>
      rcases hown : bus₁.construct (block baseAddress layout ref)
        "PWMController MMIO registration failure" p' with ⟨bus₂, _ | p''⟩
      · simp [htimer, hnew, hown] at h
      · simp only [htimer, hnew, hown, Prod.mk.injEq, Except.ok.injEq] at h
        obtain ⟨rfl, rfl⟩ := h
        obtain ⟨rfl, hadds⟩ := MMIOBus.construct_eq_ok hown
        refine ⟨rfl, ?_⟩
        intro a x hx
        rcases hadds a x hx with hx | hx
        · exact ((Timer.construct_eq_ok htimer).2 a x hx).imp_right .inl
        · exact .inr (.inr hx)

end

end Drivers

end EFS
