import EFS.System.Reset

/-!
# The registers after a system reset

Right after construction every peripheral is as its constructor returned it, and every reference on
the MMIO bus is to a peripheral that is there (`PowerOn`).

* `read_after_reset` : after a reset each address reads as it did then, except those of the
  registers that a reset keeps or sets to a default.
* `not_read_after_reset` : each of these exceptions occurs.
-/

namespace EFS

namespace System

open EFS.Mmio EFS.Drivers EFS.Kernel

namespace Board

variable {T H : Type} [DecidableEq T] {b : Board T H}

/-- Attaching a new timer. -/
theorem attachTimer_new {t : T} (object : Timer) (h : t ∉ b.timers) :
    let b' := { b with timer := Function.update b.timer t object }.attachTimer t
    (∀ u, u ∈ b'.timers ↔ u ∈ b.timers ∨ u = t) ∧ (b'.timer t).register = object.register ∧
      (∀ u, u ≠ t → b'.timer u = b.timer u) ∧ b'.interrupts = b.interrupts := by
  intro b'
  have hb' : b' = _ := if_neg h
  rw [hb']
  refine ⟨fun u => by simp, ?_, ?_, rfl⟩
  · simp only [setTimer, Function.update_self, Timer.attachScheduler,
      Timer.register_updateScheduledEvent]
    rfl
  · intro u hu
    simp [setTimer, hu]

/-- The loop of a reset over the timers. -/
theorem register_resetEach (ts : List T) (t : T) (r : TimerRegister) :
    ((b.resetEach ts).timer t).register r =
      if t ∈ ts ∧ r ≠ .compare then ((b.timer t).register r).reset
      else (b.timer t).register r := by
  induction ts generalizing b with
  | nil => simp [resetEach]
  | cons u us ih =>
    rw [resetEach, ih]
    by_cases htu : t = u
    · subst htu
      simp only [setTimer, Function.update_self, Timer.register_reset]
      by_cases hr : r = .compare
      · simp [hr]
      · by_cases hmem : t ∈ us <;> simp [hr, hmem, Register.reset]
    · simp [setTimer, htu]

@[simp] theorem interrupts_resetEach (ts : List T) :
    (b.resetEach ts).interrupts = b.interrupts := by
  induction ts generalizing b with
  | nil => rfl
  | cons u us ih => exact ih

end Board

namespace PeripheralSystem

variable {T D H : Type}

/-- The peripheral that a register belongs to is there. -/
def Present (s : PeripheralSystem T D H) : RegisterRef T → Prop
  | .gpio _ => s.gpio.isSome
  | .timer t _ => t ∈ s.board.timers
  | .uart _ => s.uart.isSome
  | .spi _ => s.spi.isSome
  | .i2c _ => s.i2c.isSome
  | .pwm _ | .pwmTimer _ => s.pwm.isSome
  | .adc _ => s.adc.isSome
  | .interruptController _ => True

/-- The peripherals are new, and the bus knows no others. -/
structure PowerOn (s : PeripheralSystem T D H) : Prop where
  present : ∀ a ref, s.mmioBus.registers a = some ref → s.Present ref
  gpio : ∀ g ∈ s.gpio, ∃ base, g = .new base
  timer : ∀ t ∈ s.board.timers, (s.board.timer t).register = Timer.new.register
  uart : ∀ u ∈ s.uart, ∃ base baud, UART.new base baud = .ok u
  spi : ∀ c ∈ s.spi, ∃ base divider mode, SPIController.new base divider mode = .ok c
  i2c : ∀ c ∈ s.i2c, ∃ base address, c = .new base address
  pwm : ∀ p ∈ s.pwm, ∃ frequency duty clock,
    PWMController.new true true frequency duty clock = .ok p
  adc : ∀ c ∈ s.adc, ∃ base res ref channels, ADCController.new base res ref channels = .ok c
  interrupts : s.board.interrupts = .init

theorem PowerOn.present_of_adds {s s' : PeripheralSystem T D H} {refs : Set (RegisterRef T)}
    (h : PowerOn s) (hadds : s.mmioBus.Adds s'.mmioBus refs)
    (hold : ∀ ref, s.Present ref → s'.Present ref) (hnew : ∀ ref ∈ refs, s'.Present ref) :
    ∀ a ref, s'.mmioBus.registers a = some ref → s'.Present ref := by
  intro a ref href
  rcases hadds a ref href with href | href
  · exact hold ref (h.present a ref href)
  · exact hnew ref href

theorem rel_isSome {α : Type} {R : α → α → Prop} {x y : Option α} (h : Option.Rel R x y)
    (hx : x.isSome) : ∃ a b, x = some a ∧ y = some b ∧ R a b := by
  cases h with
  | none => exact absurd hx (by simp)
  | some hab => exact ⟨_, _, rfl, rfl, hab⟩

theorem powerOn_bare {board : Board T H} (htimers : board.timers = [])
    (hic : board.interrupts = .init) : PowerOn (bare board : PeripheralSystem T D H) where
  present _ _ h := by simp [bare, MMIOBus.empty] at h
  gpio := by simp [bare]
  timer := by simp [bare, htimers]
  uart := by simp [bare]
  spi := by simp [bare]
  i2c := by simp [bare]
  pwm := by simp [bare]
  adc := by simp [bare]
  interrupts := hic

variable [DecidableEq T]

theorem Built.powerOn {s : PeripheralSystem T D H} (h : Built s) : PowerOn s := by
  induction h with
  | bare htimers hic => exact powerOn_bare htimers hic
  -- each constructor adds the registers of one peripheral, and leaves the others as they were
  | @gpio s bus base object _ _ hnew ih =>
    obtain ⟨rfl, hadds⟩ := GPIO.construct_eq_ok hnew
    refine { ih with
      present := ih.present_of_adds hadds ?_ (by rintro _ ⟨r, rfl⟩; rfl)
      gpio := fun g hg => ⟨base, (Option.mem_some.1 hg).symm⟩ }
    intro ref h
    cases ref <;> first | exact h | rfl
  | @timer s bus base object t _ hnone hnew ih =>
    obtain ⟨rfl, hadds⟩ := Timer.construct_eq_ok hnew
    obtain ⟨htimers, hnewTimer, hothers, hinterrupts⟩ := Board.attachTimer_new .new hnone
    refine { ih with
      present := ih.present_of_adds hadds ?_ ?_
      timer := ?_
      interrupts := hinterrupts.trans ih.interrupts }
    · intro ref h
      cases ref with
      | timer u r => exact (htimers u).2 (.inl h)
      | _ => exact h
    · rintro _ ⟨r, rfl⟩
      exact (htimers t).2 (.inr rfl)
    · intro u hu
      by_cases hut : u = t
      · exact hut ▸ hnewTimer
      · rw [hothers u hut]
        exact ih.timer u (((htimers u).1 hu).resolve_right hut)
  | @uart s bus base object baud _ _ hnew ih =>
    obtain ⟨hobject, hadds⟩ := UART.construct_eq_ok hnew
    refine { ih with
      present := ih.present_of_adds hadds ?_ (by rintro _ ⟨r, rfl⟩; rfl)
      uart := fun u hu => ⟨base, baud, Option.mem_some.1 hu ▸ hobject⟩ }
    intro ref h
    cases ref <;> first | exact h | rfl
  | @spi s bus base object divider mode _ _ hnew ih =>
    obtain ⟨hobject, hadds⟩ := SPIController.construct_eq_ok hnew
    refine { ih with
      present := ih.present_of_adds hadds ?_ (by rintro _ ⟨r, rfl⟩; rfl)
      spi := fun c hc => ⟨base, divider, mode, Option.mem_some.1 hc ▸ hobject⟩ }
    intro ref h
    cases ref <;> first | exact h | rfl
  | @i2c s bus base object address _ _ hnew ih =>
    obtain ⟨rfl, hadds⟩ := I2CController.construct_eq_ok hnew
    refine { ih with
      present := ih.present_of_adds hadds ?_ (by rintro _ ⟨r, rfl⟩; rfl)
      i2c := fun c hc => ⟨base, address, (Option.mem_some.1 hc).symm⟩ }
    intro ref h
    cases ref <;> first | exact h | rfl
  | @pwm s bus base object frequency duty clock _ _ hnew ih =>
    obtain ⟨hobject, hadds⟩ := PWMController.construct_eq_ok hnew
    refine { ih with
      present := ih.present_of_adds hadds (fun ref h => ?_)
        (by rintro _ (⟨r, rfl⟩ | ⟨r, rfl⟩) <;> rfl)
      pwm := fun p hp => ⟨frequency, duty, clock, Option.mem_some.1 hp ▸ hobject⟩ }
    cases ref <;> first | exact h | rfl
  | @adc s bus base object res ref channels _ _ hnew ih =>
    obtain ⟨hobject, hadds⟩ := ADCController.construct_eq_ok hnew
    refine { ih with
      present := ih.present_of_adds hadds ?_ (by rintro _ ⟨r, rfl⟩; rfl)
      adc := fun c hc => ⟨base, res, ref, channels, Option.mem_some.1 hc ▸ hobject⟩ }
    intro ref h
    cases ref <;> first | exact h | rfl
  | @interruptController s bus base object _ _ hnew ih =>
    obtain ⟨rfl, hadds⟩ := constructInterruptController_eq_ok hnew
    exact { ih with
      present := ih.present_of_adds hadds (fun ref h => by cases ref <;> exact h)
        (by rintro _ ⟨r, rfl⟩; trivial)
      interrupts := rfl }

/-- The registers that are present, after a reset of a system that has run. -/
theorem PowerOn.read_register_reset {s₀ s : PeripheralSystem T D H} {ref : RegisterRef T}
    (h₀ : PowerOn s₀) (hsame : Same s₀ s) (hpresent : s₀.Present ref) :
    (s.reset.register ref).read = resetValue s₀ s ref := by
  cases ref with
  | gpio r =>
    obtain ⟨g₀, g, hg₀, hg, hrel⟩ := rel_isSome hsame.gpio hpresent
    obtain ⟨base, rfl⟩ := h₀.gpio g₀ hg₀
    have hread := gpio_read_reset hrel r
    simpa [register, reset, resetValue, restoredValue, KeptByReset, hg₀, hg] using hread
  | timer t r =>
    have hmem : t ∈ s.board.timers := hsame.board.timers ▸ hpresent
    have hnew := h₀.timer t hpresent
    have hreset : s.reset.register (.timer t r) = _ := Board.register_resetEach s.board.timers t r
    rw [hreset]
    by_cases hr : r = .compare
    · subst hr
      simp [KeptByReset, resetValue, register]
    · -- all but COMPARE: the initial values are those of a new timer
      have hkept : KeptByReset (.timer t r) = false := by cases r <;> trivial
      have hinitial := hsame.board.timer t r
      rw [if_pos ⟨hmem, hr⟩, resetValue, hkept]
      show ((s.board.timer t).register r).initialValue = ((s₀.board.timer t).register r).read
      rw [hinitial, hnew]
      cases r <;> rfl
  | uart r =>
    obtain ⟨u₀, u, hu₀, hu, hrel⟩ := rel_isSome hsame.uart hpresent
    obtain ⟨base, baud, hnew⟩ := h₀.uart u₀ hu₀
    by_cases hr : r = .baud
    · subst hr
      rw [resetValue, register, register, reset, hu]
      rfl
    · have hread := uart_read_reset hnew hrel hr
      have hkept : KeptByReset (.uart r : RegisterRef T) = false := by cases r <;> trivial
      simpa [register, reset, resetValue, restoredValue, hkept, hu₀, hu] using hread
  | spi r =>
    obtain ⟨c₀, c, hc₀, hc, hrel⟩ := rel_isSome hsame.spi hpresent
    obtain ⟨base, divider, mode, hnew⟩ := h₀.spi c₀ hc₀
    have hread := spi_read_reset hnew hrel r
    cases r <;> simpa [register, reset, resetValue, restoredValue, KeptByReset, hc₀, hc] using hread
  | i2c r =>
    obtain ⟨c₀, c, hc₀, hc, hrel⟩ := rel_isSome hsame.i2c hpresent
    obtain ⟨base, address, rfl⟩ := h₀.i2c c₀ hc₀
    have hread := i2c_read_reset hrel r
    simpa [register, reset, resetValue, restoredValue, KeptByReset, hc₀, hc] using hread
  | pwm r =>
    obtain ⟨p₀, p, hp₀, hp, hrel, htimer⟩ := rel_isSome hsame.pwm hpresent
    obtain ⟨frequency, duty, clock, hnew⟩ := h₀.pwm p₀ hp₀
    have hread := (pwm_read_reset hnew hrel htimer).1 r
    simpa [register, reset, resetValue, restoredValue, KeptByReset, hp₀, hp] using hread
  | pwmTimer r =>
    obtain ⟨p₀, p, hp₀, hp, hrel, htimer⟩ := rel_isSome hsame.pwm hpresent
    obtain ⟨frequency, duty, clock, hnew⟩ := h₀.pwm p₀ hp₀
    have hread := (pwm_read_reset hnew hrel htimer).2 r
    cases r <;> simpa [register, reset, resetValue, restoredValue, KeptByReset, hp₀, hp] using hread
  | adc r =>
    obtain ⟨c₀, c, hc₀, hc, hrel⟩ := rel_isSome hsame.adc hpresent
    obtain ⟨base, res, ref, channels, hnew⟩ := h₀.adc c₀ hc₀
    have hread := adc_read_reset hnew hrel r
    cases r <;> simpa [register, reset, resetValue, restoredValue, KeptByReset, hc₀, hc] using hread
  | interruptController r =>
    have hinitial := hsame.board.interrupts r
    have hreset : s.reset.board.interrupts = s.board.interrupts.reset :=
      congrArg InterruptController.reset (Board.interrupts_resetEach _)
    show (s.reset.board.interrupts.register r).read = (s₀.board.interrupts.register r).read
    rw [h₀.interrupts] at hinitial ⊢
    rw [hreset]
    cases r <;> exact hinitial

variable [DecidableEq D] {s₀ s : PeripheralSystem T D H} {ops : List (Op T D H)} {a : Address}
  {ref : RegisterRef T}

/-- What an address reads when the system is reset after it has run from `s₀` to `s`. -/
def readAfterReset (s₀ s : PeripheralSystem T D H) (a : Address) :
    RegisterRef T → Except String UInt32
  | .spi .control => .ok 0
  | .adc .res => .ok ADCController.defaultResolution.toUInt32
  | ref => if KeptByReset ref then s.read a else s₀.read a

/-- **What a system reset restores.**  After any run an address reads as it did right after
construction, except that a reset keeps the compare value of a timer and the baud rate, and sets the
mode of an SPI controller to 0 and the resolution of an ADC to 12 bits. -/
theorem read_after_reset (hb : Built s₀) (hr : (machine T D H).Run s₀ ops s)
    (hmap : s₀.mmioBus.registers a = some ref) : s.reset.read a = readAfterReset s₀ s a ref := by
  have hsame : Same s₀ s := .of_run hr
  have hread := hb.powerOn.read_register_reset hsame (hb.powerOn.present a ref hmap)
  have hmap' : s.mmioBus.registers a = some ref := hsame.mmioBus ▸ hmap
  have hreset : s.reset.read a = .ok (s.reset.register ref).read := by
    rw [read, MMIOBus.read, show s.reset.mmioBus = s.mmioBus from rfl, hmap']
  have hrun : s.read a = .ok (s.register ref).read := by rw [read, MMIOBus.read, hmap']
  have hnew : s₀.read a = .ok (s₀.register ref).read := by rw [read, MMIOBus.read, hmap]
  rw [hreset, hread]
  unfold readAfterReset
  split
  · rfl
  · rfl
  · rename_i hspi hadc
    have hrestored : s₀.restoredValue ref = (s₀.register ref).read := by
      unfold restoredValue
      split
      · exact absurd rfl hspi
      · exact absurd rfl hadc
      · rfl
    rw [resetValue, hrestored, hrun, hnew]
    split_ifs <;> rfl

/-- A board to which nothing is attached. -/
def newBoard : Board Unit Unit := ⟨⟨0⟩, .init, .init, [], fun _ => .new, []⟩

/-- A system with one timer at address 256. -/
def oneTimer : PeripheralSystem Unit Empty Unit :=
  { bare newBoard with
    mmioBus := (Timer.construct .empty 256 (.timer ())).1
    board := { newBoard with timer := Function.update newBoard.timer () .new }.attachTimer () }

theorem built_oneTimer : Built oneTimer := by
  have hnew : Timer.construct .empty 256 (RegisterRef.timer ()) =
      ((Timer.construct .empty 256 (.timer ())).1, .ok .new) := rfl
  exact .timer (.bare rfl rfl) (by simp [bare]) hnew

/-- The timer is given a compare value and counts one cycle. -/
theorem read_after_reset_oneTimer :
    let s := ((oneTimer.perform (.timer () (.setCompare 5))).perform (.timer () .start)).step
    s.read 260 = .ok 1 ∧ s.reset.read 260 = oneTimer.read 260 ∧
      oneTimer.read 264 = .ok 0 ∧ s.reset.read 264 = s.read 264 := by
  intro s
  have hrun : (machine Unit Empty Unit).Run oneTimer
      [.timer () (.setCompare 5), .timer () .start, .step] s :=
    .cons rfl (.cons rfl (.cons rfl (.nil s)))
  have hcount : oneTimer.mmioBus.registers 260 = some (.timer () .count) := rfl
  have hcompare : oneTimer.mmioBus.registers 264 = some (.timer () .compare) := rfl
  exact ⟨rfl, read_after_reset built_oneTimer hrun hcount, rfl,
    read_after_reset built_oneTimer hrun hcompare⟩

/-- After some run the reset does not restore the register `ref`. -/
def NotRestored (ref : RegisterRef Unit) : Prop :=
  ∃ (s₀ s : PeripheralSystem Unit Empty Unit) (ops : List (Op Unit Empty Unit)) (a : Address),
    Built s₀ ∧ (machine Unit Empty Unit).Run s₀ ops s ∧
      s₀.mmioBus.registers a = some ref ∧ s.reset.read a ≠ s₀.read a

/-- A new ADC controller at address 256 with one channel and a resolution of 8 bits. -/
def eightBits (voltage : Float) : ADCController := ADCController.updateStatusRegister
  ⟨256, 8, voltage, [0], .new 0, .new 0, .new 8, .new 0, 0⟩

/-- The compare values, the baud rate, the mode and the resolution are not restored. -/
theorem not_read_after_reset : NotRestored (.timer () .compare) ∧
    NotRestored (.pwmTimer .compare) ∧ NotRestored (.uart .baud) ∧ NotRestored (.spi .control) ∧
      ∀ voltage : Float, ¬ voltage ≤ 0 → NotRestored (.adc .res) := by
  have hne {m n : UInt32} (h : m ≠ n) : (.ok m : Except String UInt32) ≠ .ok n :=
    fun heq => h (Except.ok.inj heq)
  have hbare : Built (bare newBoard : PeripheralSystem Unit Empty Unit) := .bare rfl rfl
  let bus : MMIOBus (RegisterRef Unit) := .empty
  have hpwm : PWMController.construct bus 256 .pwm .pwmTimer 1 50 4 = (_, .ok _) := rfl
  have huart : UART.construct bus 256 .uart 9600 = (_, .ok _) := rfl
  have hspi : SPIController.construct bus 256 .spi 1 1 = (_, .ok _) := rfl
  refine ⟨?_, ?_, ?_, ?_, fun voltage hvoltage => ?_⟩
  · exact ⟨oneTimer, _, [.timer () (.setCompare 5)], 264, built_oneTimer, .cons rfl (.nil _), rfl,
      hne (m := 5) (n := 0) (by decide)⟩
  · exact ⟨_, _, [.pwm .enable], 280, hbare.pwm rfl hpwm, .cons rfl (.nil _), rfl,
      hne (m := 4) (n := 0) (by decide)⟩
  · exact ⟨_, _, [.uart (.setBaudRate 1)], 268, hbare.uart rfl huart, .cons rfl (.nil _), rfl,
      hne (m := 1) (n := 9600) (by decide)⟩
  · exact ⟨_, _, [], 264, hbare.spi rfl hspi, .nil _, rfl, hne (m := 0) (n := 2) (by decide)⟩
  · have hnew : ADCController.new 256 8 voltage 1 = .ok (eightBits voltage) := by
      rw [ADCController.new, if_neg (by decide), if_neg (by decide), if_neg hvoltage]
      rfl
    have hadc : ADCController.construct bus 256 .adc 8 voltage 1 = ((MMIOBus.construct bus
        (block 256 ADCController.layout RegisterRef.adc) "" (eightBits voltage)).1,
        .ok (eightBits voltage)) := by
      rw [ADCController.construct, hnew]
      rfl
    exact ⟨_, _, [], 264, hbare.adc rfl hadc, .nil _, rfl, hne (m := 12) (n := 8) (by decide)⟩

end PeripheralSystem

end System

end EFS
