import EFS.Firmware.SampleCalls

/-!
# Firmware and the order of resets

A reset of the bus makes the pin of the firmware an input again, and the firmware does not learn of
it.  Until it is initialised again, it throws as soon as it drives the pin.

* `survives_iff` : a run of a CPU with a sample application throws nothing iff each of its
  operations is `Safe` in the state in which it is performed.
* `not_survives_resetPeripherals` : `stop()` after `resetPeripherals()` throws.
-/

namespace EFS

namespace Firmware

open EFS.Cpu EFS.Drivers EFS.Hal EFS.Mmio EFS.System

variable {T H : Type}

namespace SampleCPU

/-- The application is active, and sound. -/
structure Ready (c : SampleCPU T H) : Prop where
  active : c.firmwareManager.activeFirmware = some ()
  sound : ∃ output, c.world.Sound output

variable [DecidableEq T] {c : SampleCPU T H}

theorem deliver_callActive (h : c.firmwareManager.activeFirmware = some ()) (call : Call) :
    c.deliver (c.firmwareManager.callActive call) =
      ({ c with world := (c.world.call call).1 }, (c.world.call call).2) := by
  rw [FirmwareManager.callActive_of_some h]
  rcases hcall : c.world.call call with ⟨world, _ | e⟩ <;> simp [deliver, hcall]

theorem Ready.start (h : Ready c) : c.start.2 = none ∧ Ready c.start.1 ∧
    (c.running = false → c.start.1.world.Sound true) ∧
      (c.running = true → c.start.1 = c) ∧ c.start.1.power = c.power := by
  obtain ⟨output, hsound⟩ := h.sound
  cases hrunning : c.running with
  | true =>
    have hstart : c.start = (c, none) := if_pos hrunning
    rw [hstart]
    exact ⟨rfl, h, fun h => absurd h (by simp), fun _ => rfl, rfl⟩
  | false =>
    have hstart : c.start = ({ c with running := true, world := (c.world.call .initialise).1 },
        (c.world.call .initialise).2) :=
      (if_neg (by simp [hrunning])).trans
        (deliver_callActive (c := { c with running := true }) h.active .initialise)
    obtain ⟨hok, hnext⟩ := hsound.initialise
    rw [hstart]
    exact ⟨hok, ⟨h.active, true, hnext⟩, fun _ => hnext, fun h => absurd h (by simp), rfl⟩

/-- `shutdown` and `reset` of the manager. -/
theorem Ready.halt (h : Ready c) {call : Call} (hcall : call = .shutdown ∨ call = .reset) :
    let halted := c.deliver (c.firmwareManager.callActive call)
    (halted.2 = none ↔ c.world.MayHalt) ∧
      (c.world.MayHalt → Ready halted.1 ∧ halted.1.world.firmware.live = false) := by
  obtain ⟨output, hsound⟩ := h.sound
  intro halted
  have heq : halted = _ := deliver_callActive h.active call
  rw [heq]
  refine ⟨⟨?_, fun hmay => (hsound.halt hcall hmay).1⟩, ?_⟩
  · intro hnone
    by_contra hmay
    exact hsound.halt_throws hcall hmay hnone
  · intro hmay
    obtain ⟨-, hnext, hdead⟩ := hsound.halt hcall hmay
    exact ⟨⟨h.active, output, hnext⟩, hdead⟩

theorem Ready.stop (h : Ready c) : (c.stop.2 = none ↔ (c.running = true → c.world.MayHalt)) ∧
    (c.stop.2 = none → Ready c.stop.1) := by
  cases hrunning : c.running with
  | true =>
    have hstop : c.stop = { c with running := false }.deliver c.firmwareManager.shutdown :=
      if_pos hrunning
    have hready : Ready { c with running := false } := ⟨h.active, h.sound⟩
    obtain ⟨hiff, hnext⟩ := hready.halt (.inl rfl)
    rw [hstop]
    exact ⟨hiff.trans ⟨fun hmay _ => hmay, fun hmay => hmay rfl⟩,
      fun hnone => (hnext (hiff.1 hnone)).1⟩
  | false =>
    have hstop : c.stop = (c, none) := if_neg (by simp [hrunning])
    rw [hstop]
    exact ⟨iff_of_true rfl (fun h => absurd h (by simp)), fun _ => h⟩

theorem Ready.resetBus (h : Ready c) : Ready { c with world := c.world.resetBus } := by
  obtain ⟨output, hsound⟩ := h.sound
  exact ⟨h.active, false, hsound.resetBus⟩

theorem Ready.reset (h : Ready c) : (c.reset.2 = none ↔ c.world.MayHalt) ∧
    (c.reset.2 = none → Ready c.reset.1 ∧ c.reset.1.world.firmware.live = false) := by
  have hready : Ready { c with cycleCount := 0 } := ⟨h.active, h.sound⟩
  obtain ⟨hiff, hnext⟩ := hready.halt (.inr rfl)
  rcases hhalted : { c with cycleCount := 0 }.deliver (c.firmwareManager.callActive .reset) with
    ⟨c', _ | e⟩
  · have hreset : c.reset = ({ c' with world := c'.world.resetBus }, none) := by
      rw [SampleCPU.reset, FirmwareManager.reset, hhalted]
    rw [hhalted] at hiff hnext
    obtain ⟨hnext, hdead⟩ := hnext (hiff.1 rfl)
    rw [hreset]
    exact ⟨iff_of_true rfl (hiff.1 rfl), fun _ => ⟨hnext.resetBus, hdead⟩⟩
  · have hreset : c.reset = (c', some e) := by
      rw [SampleCPU.reset, FirmwareManager.reset, hhalted]
    rw [hhalted] at hiff
    rw [hreset]
    exact ⟨hiff, fun hnone => absurd hnone (Option.some_ne_none e)⟩

/-- The condition of `n` steps. -/
def MaySteps (c : SampleCPU T H) (n : ℕ) : Prop :=
  c.power = .on → c.running = true → c.world.MayStep n

theorem Ready.step (h : Ready c) : (c.step.2 = none ↔ c.MaySteps 1) ∧
    (c.step.2 = none → Ready c.step.1 ∧ (c.power = .on → c.running = true →
      c.step.1.running = true ∧ c.step.1.power = .on ∧
        ∀ n, c.step.1.world.MayStep n ↔ c.world.MayStep (n + 1))) := by
  obtain ⟨output, hsound⟩ := h.sound
  by_cases hpower : c.power = .on
  · obtain ⟨hok, hticked⟩ := hsound.tick (n := c.cycleCount)
    -- the hardware part is a step of the board, which neither throws nor touches the pin
    let stepped := Cpu.CPU.step ⟨.on, c.cycleCount, c.world.board⟩
    let c' : SampleCPU T H := { c with
      cycleCount := stepped.1.cycleCount, world := { c.world with board := stepped.1.bus } }
    have hstep : c.step = if c.running then c'.deliver c'.firmwareManager.update
        else (c', none) := by
      rw [SampleCPU.step, if_neg (not_not.2 hpower)]
      dsimp only
      rw [hok]
    have hready : Ready c' := ⟨h.active, output, hticked⟩
    cases hrunning : c.running with
    | true =>
      rw [if_pos hrunning, FirmwareManager.update, deliver_callActive hready.active] at hstep
      have hiff : c.MaySteps 1 ↔ c'.world.MayStep 1 :=
        ⟨fun hmay => hmay hpower hrunning, fun hmay _ _ => hmay⟩
      rw [hstep, hiff]
      refine ⟨⟨?_, fun hmay => (hticked.update hmay).1⟩, ?_⟩
      · intro hnone
        by_contra hmay
        exact hticked.update_throws hmay hnone
      · intro hnone
        have hmay : c'.world.MayStep 1 := by
          by_contra hmay
          exact hticked.update_throws hmay hnone
        obtain ⟨-, hnext, hcount⟩ := hticked.update hmay
        exact ⟨⟨h.active, output, hnext⟩, fun _ _ => ⟨hrunning, hpower, hcount⟩⟩
    | false =>
      rw [if_neg (by simp [hrunning])] at hstep
      rw [hstep]
      exact ⟨iff_of_true rfl fun _ h => absurd h (by simp [hrunning]),
        fun _ => ⟨hready, fun _ h => absurd h (by simp)⟩⟩
  · have hstep : c.step = (c, none) := if_pos hpower
    rw [hstep]
    exact ⟨iff_of_true rfl fun h => absurd h hpower, fun _ => ⟨h, fun h => absurd h hpower⟩⟩

theorem Ready.runLoop (h : Ready c) (n : ℕ) : ((runLoop n c).2 = none ↔ c.MaySteps n) ∧
    ((runLoop n c).2 = none → Ready (runLoop n c).1) := by
  induction n generalizing c with
  | zero =>
    refine ⟨iff_of_true rfl ?_, fun _ => h⟩
    intro _ _
    obtain ⟨output, hsound⟩ := h.sound
    exact hsound.mayStep_zero
  | succ n ih =>
    by_cases hrunning : c.running = true
    · by_cases hpower : c.power = .on
      · have hiff : ∀ n, c.MaySteps n ↔ c.world.MayStep n := fun n =>
          ⟨fun hmay => hmay hpower hrunning, fun hmay _ _ => hmay⟩
        obtain ⟨hstep, hnext⟩ := h.step
        rcases hstepped : c.step with ⟨c', _ | e⟩
        · rw [hstepped] at hstep hnext
          obtain ⟨hready, hcount⟩ := hnext rfl
          obtain ⟨hrunning', hpower', hcount⟩ := hcount hpower hrunning
          have hloop : SampleCPU.runLoop (n + 1) c = SampleCPU.runLoop n c' := by
            rw [SampleCPU.runLoop, if_neg (by simp [hrunning]), if_neg (not_not.2 hpower), hstepped]
          obtain ⟨hiff', hready'⟩ := ih hready
          rw [hloop, hiff', hiff, ← hcount n]
          exact ⟨⟨fun hmay => hmay hpower' hrunning', fun hmay _ _ => hmay⟩,
            fun hmay => hready' (hiff'.2 hmay)⟩
        · have hloop : SampleCPU.runLoop (n + 1) c = (c', some e) := by
            rw [SampleCPU.runLoop, if_neg (by simp [hrunning]), if_neg (not_not.2 hpower), hstepped]
          rw [hstepped] at hstep
          rw [hloop]
          refine ⟨iff_of_false (Option.some_ne_none e) ?_,
            fun hnone => absurd hnone (Option.some_ne_none e)⟩
          intro hmay
          -- the first step throws, so not even one may be made
          have hone := hstep.2 ((hiff 1).2 (((hiff _).1 hmay).anti (Nat.le_add_left 1 n)))
          exact Option.some_ne_none e hone
      · have hloop : SampleCPU.runLoop (n + 1) c = (c, none) := by
          rw [SampleCPU.runLoop, if_neg (by simp [hrunning]), if_pos hpower]
        rw [hloop]
        exact ⟨iff_of_true rfl fun h => absurd h hpower, fun _ => h⟩
    · have hloop : SampleCPU.runLoop (n + 1) c = (c, none) := if_pos (by simpa using hrunning)
      rw [hloop]
      exact ⟨iff_of_true rfl fun _ h => absurd h hrunning, fun _ => h⟩

theorem Ready.run (h : Ready c) (cycles : UInt64) :
    ((c.run cycles).2 = none ↔ c.MaySteps cycles.toNat) ∧
      ((c.run cycles).2 = none → Ready (c.run cycles).1) := by
  obtain ⟨hok, hready, hstarted, hrunning, hpower⟩ := h.start
  have hrun : c.run cycles = SampleCPU.runLoop cycles.toNat c.start.1 := by
    rcases hstart : c.start with ⟨c', _ | e⟩
    · rw [SampleCPU.run, hstart]
    · rw [hstart] at hok
      exact absurd hok (Option.some_ne_none e)
  obtain ⟨hiff, hnext⟩ := hready.runLoop cycles.toNat
  rw [hrun]
  refine ⟨hiff.trans ?_, hnext⟩
  cases hc : c.running with
  | true => rw [hrunning hc]
  | false =>
    exact iff_of_true (fun _ _ => (hstarted hc).mayStep_of_output _)
      fun _ h => absurd h (by simp [hc])

end SampleCPU

namespace ResetController

open SampleCPU

variable (R : ResetController)

/-- The condition under which an operation throws nothing. -/
def Safe (c : SampleCPU T H) : Op → Prop
  | .start | .resetPeripherals => True
  | .stop => c.running = true → c.world.MayHalt
  | .step => c.MaySteps 1
  | .run cycles => c.MaySteps cycles.toNat
  | .reset => c.world.MayHalt
  | .resetCPU => R.cpu → c.world.MayHalt
  | .resetFirmware => R.firmwareManager ∨ R.cpu → c.world.MayHalt
  | .resetSystem =>
    if R.cpu then c.world.MayHalt
    else if R.systemBus then R.firmwareManager → c.world.firmware.live = false
    else R.firmwareManager → c.world.MayHalt

variable [DecidableEq T] {c : SampleCPU T H}

/-- Every operation of a run is safe when it is performed. -/
def AllSafe : SampleCPU T H → List Op → Prop
  | _, [] => True
  | c, o :: os => R.Safe c o ∧ AllSafe (R.perform c o).1 os

theorem ready_resetCPU (h : Ready c) :
    ((R.resetCPU c).2 = none ↔ (R.cpu → c.world.MayHalt)) ∧
      ((R.resetCPU c).2 = none → Ready (R.resetCPU c).1 ∧
        (R.cpu → (R.resetCPU c).1.world.firmware.live = false)) := by
  unfold resetCPU
  split_ifs with hcpu
  · obtain ⟨hiff, hnext⟩ := h.reset
    exact ⟨hiff.trans ⟨fun hmay _ => hmay, fun hmay => hmay hcpu⟩,
      fun hnone => ⟨(hnext hnone).1, fun _ => (hnext hnone).2⟩⟩
  · exact ⟨iff_of_true rfl fun h => absurd h hcpu, fun _ => ⟨h, fun h => absurd h hcpu⟩⟩

theorem ready_resetPeripherals (h : Ready c) :
    (R.resetPeripherals c).2 = none ∧ Ready (R.resetPeripherals c).1 ∧
      (R.resetPeripherals c).1.world.firmware = c.world.firmware := by
  unfold resetPeripherals
  split_ifs
  · exact ⟨rfl, h.resetBus, rfl⟩
  · exact ⟨rfl, h, rfl⟩

theorem ready_resetFirmware (h : Ready c) :
    ((R.resetFirmware c).2 = none ↔ (R.firmwareManager ∨ R.cpu → c.world.MayHalt)) ∧
      ((R.resetFirmware c).2 = none → Ready (R.resetFirmware c).1) := by
  unfold resetFirmware
  split_ifs with hmanager
  · obtain ⟨hiff, hnext⟩ := h.halt (.inr rfl)
    rcases hreset : c.deliver c.firmwareManager.reset with ⟨c', _ | e⟩
    · rw [FirmwareManager.reset] at hreset
      rw [hreset] at hiff hnext
      obtain ⟨hready, -⟩ := hnext (hiff.1 rfl)
      obtain ⟨output, hsound⟩ := hready.sound
      obtain ⟨hok, hinitialised⟩ := hsound.initialise
      dsimp only
      rw [FirmwareManager.initialise, deliver_callActive hready.active]
      exact ⟨iff_of_true hok fun _ => hiff.1 rfl, fun _ => ⟨hready.active, true, hinitialised⟩⟩
    · rw [FirmwareManager.reset] at hreset
      rw [hreset] at hiff
      exact ⟨iff_of_false (Option.some_ne_none e) fun hmay =>
        Option.some_ne_none e (hiff.2 (hmay hmanager)),
        fun hnone => absurd hnone (Option.some_ne_none e)⟩
  · exact ⟨iff_of_true rfl fun h => absurd h hmanager, fun _ => h⟩

theorem ready_resetSystem (h : Ready c) :
    ((R.resetSystem c).2 = none ↔ R.Safe c .resetSystem) ∧
      ((R.resetSystem c).2 = none → Ready (R.resetSystem c).1) := by
  obtain ⟨hcpu, hnext⟩ := R.ready_resetCPU h
  rcases hreset : R.resetCPU c with ⟨c₁, _ | e⟩
  · rw [hreset] at hcpu hnext
    obtain ⟨hready₁, hdead⟩ := hnext rfl
    obtain ⟨hok, hready₂, hfirmware⟩ := R.ready_resetPeripherals hready₁
    obtain ⟨hiff, hready₃⟩ := R.ready_resetFirmware hready₂
    have hsystem : R.resetSystem c = R.resetFirmware (R.resetPeripherals c₁).1 := by
      rcases hperipherals : R.resetPeripherals c₁ with ⟨c₂, _ | e⟩
      · rw [resetSystem, hreset]
        dsimp only
        rw [hperipherals]
      · rw [hperipherals] at hok
        exact absurd hok (Option.some_ne_none e)
    rw [hsystem]
    refine ⟨hiff.trans ?_, hready₃⟩
    by_cases hr : R.cpu = true
    · -- the firmware is not live any more
      have hmay : (R.resetPeripherals c₁).1.world.MayHalt := by
        rw [SampleWorld.MayHalt, hfirmware, hdead hr]
        exact fun h => absurd h Bool.false_ne_true
      rw [Safe, if_pos hr]
      exact iff_of_true (fun _ => hmay) (hcpu.1 rfl hr)
    · -- without a CPU, whether the firmware may halt depends on the bus being reset before
      obtain rfl : c₁ = c := by
        rw [resetCPU, if_neg hr] at hreset
        exact (Prod.mk.inj hreset).1.symm
      rw [Safe, if_neg hr]
      by_cases hbus : R.systemBus = true
      · have hpin : (R.resetPeripherals c₁).1.world.pinOut = false := by
          obtain ⟨output, hsound⟩ := hready₁.sound
          rw [resetPeripherals, if_pos hbus]
          exact hsound.resetBus.pinOut_eq
        rw [if_pos hbus]
        simp [SampleWorld.MayHalt, hpin, hfirmware, hr]
      · have hsame : (R.resetPeripherals c₁).1 = c₁ := by
          rw [resetPeripherals, if_neg hbus]
        rw [if_neg hbus, hsame]
        simp [hr]
  · rw [hreset] at hcpu
    have hsystem : R.resetSystem c = (c₁, some e) := by
      rw [resetSystem, hreset]
    rw [hsystem]
    refine ⟨iff_of_false (Option.some_ne_none e) ?_,
      fun hnone => absurd hnone (Option.some_ne_none e)⟩
    intro hsafe
    refine Option.some_ne_none e (hcpu.2 ?_)
    intro hr
    rw [Safe, if_pos hr] at hsafe
    exact hsafe

/-- **One operation.**  It throws nothing iff it is safe, and then the CPU is ready again. -/
theorem ready_perform (h : Ready c) (o : Op) :
    ((R.perform c o).2 = none ↔ R.Safe c o) ∧
      ((R.perform c o).2 = none → Ready (R.perform c o).1) := by
  cases o with
  | start => exact ⟨iff_of_true h.start.1 trivial, fun _ => h.start.2.1⟩
  | stop => exact h.stop
  | step => exact ⟨h.step.1, fun hnone => (h.step.2 hnone).1⟩
  | run cycles => exact h.run cycles
  | reset => exact ⟨h.reset.1, fun hnone => (h.reset.2 hnone).1⟩
  | resetCPU => exact ⟨(R.ready_resetCPU h).1, fun hnone => ((R.ready_resetCPU h).2 hnone).1⟩
  | resetPeripherals =>
    obtain ⟨hok, hready, -⟩ := R.ready_resetPeripherals h
    exact ⟨iff_of_true hok trivial, fun _ => hready⟩
  | resetFirmware => exact R.ready_resetFirmware h
  | resetSystem => exact R.ready_resetSystem h

theorem ready_performAll (h : Ready c) (os : List Op) :
    (R.performAll c os).2 = none ↔ R.AllSafe c os := by
  induction os generalizing c with
  | nil => exact iff_of_true rfl trivial
  | cons o os ih =>
    obtain ⟨hiff, hnext⟩ := R.ready_perform h o
    rw [AllSafe, ← hiff]
    rcases hperform : R.perform c o with ⟨c', _ | e⟩
    · rw [hperform] at hnext
      have hall : R.performAll c (o :: os) = R.performAll c' os := by
        rw [performAll, hperform]
      rw [hall, ih (hnext rfl)]
      exact ⟨fun h => ⟨rfl, h⟩, And.right⟩
    · have hall : R.performAll c (o :: os) = (c', some e) := by
        rw [performAll, hperform]
      rw [hall]
      exact ⟨fun h => absurd h (Option.some_ne_none e),
        fun h => absurd h.1 (Option.some_ne_none e)⟩

end ResetController

/-! ### A CPU with a new application -/

/-- The application is new: a basic firmware, or a blinking one with a timer of the bus. -/
inductive NewFirmware (b : Board T H) (timerHAL : TimerHAL T) : SampleFirmware → Prop
  | basic (pin : UInt8) (toggleInterval : UInt64) :
    NewFirmware b timerHAL (.basic (.new pin toggleInterval))
  | timerBlink (pin : UInt8) (compareValue : UInt32) {r : T} (hr : timerHAL.timer = some r)
    (hattached : r ∈ b.timers) (hinitial : SameInitial Timer.new.register (b.timer r).register) :
    NewFirmware b timerHAL (.timerBlink (.new pin compareValue))

/-- A CPU on which a new application for a valid pin is loaded, and not started yet. -/
structure Loaded (c : SampleCPU T H) : Prop where
  stopped : c.running = false
  active : c.firmwareManager.activeFirmware = some ()
  validPin : c.world.firmware.pin.toNat < 32
  firmware : NewFirmware c.world.board c.world.timerHAL c.world.firmware
  gpio : ∃ g base, c.world.gpioHAL.gpio = some g ∧
    SameInitial ( GPIO.new base).register g.register
  lines : LinesExist c.world.board

theorem Loaded.ready {c : SampleCPU T H} (h : Loaded c) : SampleCPU.Ready c := by
  refine ⟨h.active, ?_⟩
  obtain ⟨running, power, cycleCount, manager, board, gpioHAL, timerHAL, firmware⟩ := c
  obtain ⟨-, -, hpin, hfirmware, ⟨g, base, hg, hinitial⟩, hlines⟩ := h
  have hport : Port gpioHAL firmware.pin (g.isOutputPin firmware.pin) :=
    ⟨hpin, g, hg, rfl, hinitial .dir⟩
  cases hfirmware with
  | basic pin toggleInterval =>
    refine ⟨_, .basic ⟨hport, ?_⟩ hlines⟩
    show (0 : UInt64) < if toggleInterval = 0 then 1 else toggleInterval
    split_ifs with hzero
    · decide
    · exact UInt64.pos_iff_ne_zero.2 hzero
  | timerBlink pin compareValue hr hattached hinitial =>
    refine ⟨_, .timerBlink ⟨hport, hr, hattached, hinitial, hlines, ?_, ?_⟩⟩
    · show (if compareValue = 0 then 1 else compareValue) ≠ 0
      split_ifs with hzero
      · decide
      · exact hzero
    · exact fun hlive => absurd hlive Bool.false_ne_true

/-- **Which runs throw nothing.** -/
theorem survives_iff [DecidableEq T] (R : ResetController) {c : SampleCPU T H} (h : Loaded c)
    (os : List ResetController.Op) : (R.performAll c os).2 = none ↔ R.AllSafe c os :=
  R.ready_performAll h.ready os

/-- A CPU that is on, with a basic firmware that toggles pin 3 at each update. -/
def basicCpu : SampleCPU Unit Unit where
  running := false
  power := .on
  cycleCount := 0
  firmwareManager := (FirmwareManager.new.registerFirmware "Basic" (some ())).1
  world :=
    { board := ⟨⟨0⟩, .init, .init, [], fun _ => .new, []⟩
      gpioHAL := ⟨some (.new 0x40000000)⟩
      timerHAL := ⟨none⟩
      firmware := .basic (.new 3 1) }

theorem loaded_basicCpu : Loaded basicCpu where
  stopped := rfl
  active := rfl
  validPin := by decide
  firmware := .basic 3 1
  gpio := ⟨_, 0x40000000, rfl, .refl _⟩
  lines _ _ h := absurd h (by simp [basicCpu, Timer.line, Timer.new])

/-- A reset controller of that CPU. -/
def basicController : ResetController := ⟨true, true, true⟩

/-- Resets of the whole system and of the firmware, while the pin is an output. -/
theorem survives_basicCpu :
    let os := [.start, .step, .resetSystem, .step, .resetFirmware, .stop, .resetPeripherals]
    (basicController.performAll basicCpu os).2 = none ∧ basicController.AllSafe basicCpu os := by
  intro os
  have hiff := survives_iff basicController loaded_basicCpu os
  have hnone : (basicController.performAll basicCpu os).2 = none := by rfl
  exact ⟨hnone, hiff.1 hnone⟩

/-- After `resetPeripherals()` the pin is an input, and `stop()` throws. -/
theorem not_survives_resetPeripherals : Loaded basicCpu ∧
    (basicController.performAll basicCpu [.start, .resetPeripherals, .stop]).2 =
      some "Cannot write to GPIO pin configured as Input: 3" :=
  ⟨loaded_basicCpu, by rfl⟩

end Firmware

end EFS
