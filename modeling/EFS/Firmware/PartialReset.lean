import EFS.Cpu.RegisterFile
import EFS.Data.Method
import EFS.Firmware.ResetController
import EFS.Rtos.Scheduler
import EFS.System.BusReset

/-!
# Partial resets

`ResetController::resetCPU()` is to reset the CPU only, and `resetPeripherals()` the peripherals
only.  The second one does, but the first one calls `CPU::reset()`, which also resets the firmware
and the system bus.

* `partialResets_iff` : the two resets touch only their own part, whatever the applications do, iff
  no application is active and the bus is already as a reset leaves it (`NothingToLose`).
* `not_partialResets_ticked` : resetting the CPU sets the clock back.
-/

namespace EFS

namespace Firmware

open EFS.Cpu EFS.Drivers EFS.Mmio EFS.Rtos EFS.System

/-! ### A whole system -/

/-- The firmware applications `F`, which have states `X` and are called with all that is connected
to the bus. -/
structure Applications (T D H M F X : Type) where
  call : F → Call → Method (BusDevices T D H M × (F → X)) Unit

/-- A CPU with its firmware, its RTOS and the system bus of a reset controller. -/
structure Computer (T D H M F X Fn : Type) where
  cycleCount : UInt64
  registerFile : RegisterFile
  running : Bool
  /-- `m_systemBus` of the CPU is not null. -/
  systemBus : Bool
  firmwareManager : FirmwareManager F
  /-- `m_rtosScheduler`, unless it is null. -/
  rtosScheduler : Option (Scheduler Fn)
  bus : BusDevices T D H M
  /-- The states of the applications. -/
  firmware : F → X

namespace Computer

variable {T D H M F X Fn : Type} [DecidableEq T] [DecidableEq D] [DecidableEq M]
  (A : Applications T D H M F X)

/-- A lifecycle call of an application, which may act on the whole bus. -/
def callFirmware (f : F) (c : Call) : Method (Computer T D H M F X Fn) Unit := fun s =>
  let called := (A.call f c).call (s.bus, s.firmware)
  (called.1, { s with bus := called.2.1, firmware := called.2.2 })

/-- The calls made by the manager reach the applications. -/
def deliver : List (F × Call) → Method (Computer T D H M F X Fn) Unit
  | [] => return
  | (f, c) :: calls => do
    callFirmware A f c
    deliver calls

/-- `CPU::reset()`. -/
def reset : Method (Computer T D H M F X Fn) Unit := do
  modify fun s => { s with cycleCount := 0 }
  modify fun s => { s with registerFile := .reset }
  let s ← get
  deliver A s.firmwareManager.reset
  modify fun s => { s with rtosScheduler := s.rtosScheduler.map Scheduler.reset }
  modify fun s => if s.systemBus then { s with bus := s.bus.reset } else s

/-- `resetCPU()`; nothing without a CPU. -/
def resetCPU (R : ResetController) : Method (Computer T D H M F X Fn) Unit :=
  if R.cpu then reset A else return

/-- `resetPeripherals()`; nothing without a bus. -/
def resetPeripherals (R : ResetController) : Method (Computer T D H M F X Fn) Unit :=
  if R.systemBus then modify fun s => { s with bus := s.bus.reset } else return

/-! ### What the resets may touch -/

/-- Each reset does its own part and nothing else. -/
structure PartialResets (R : ResetController) (s : Computer T D H M F X Fn) : Prop where
  bus : BusDevices.Unchanged s.bus ((resetCPU A R).call s).2.bus
  firmware : ((resetCPU A R).call s).2.firmware = s.firmware
  cycleCount : ((resetCPU A R).call s).2.cycleCount = 0
  registerFile : ((resetCPU A R).call s).2.registerFile = .reset
  peripherals : ∃ s', (resetPeripherals R).call s = (.ok (), s') ∧
    s'.cycleCount = s.cycleCount ∧ s'.registerFile = s.registerFile ∧ s'.running = s.running ∧
    s'.firmware = s.firmware

/-- What the active application does when it is reset: its exception, and what it leaves. -/
def resetActive (s : Computer T D H M F X Fn) :
    Except String Unit × BusDevices T D H M × (F → X) :=
  match s.firmwareManager.activeFirmware with
  | none => (.ok (), s.bus, s.firmware)
  | some f => (A.call f .reset).call (s.bus, s.firmware)

/-- No application is active, and the bus of the CPU, if it has one, is as a reset leaves it. -/
def NothingToLose (s₀ : PeripheralSystem T D H) (s : Computer T D H M F X Fn) : Prop :=
  s.firmwareManager.activeFirmware = none ∧
    (s.systemBus = true → BusDevices.AtReset s₀ s.bus)

variable {A} {s : Computer T D H M F X Fn} {R : ResetController}

omit [DecidableEq T] [DecidableEq D] [DecidableEq M] in
theorem call_deliver (s : Computer T D H M F X Fn) :
    (deliver A s.firmwareManager.reset).call s =
      ((resetActive A s).1, { s with
        bus := (resetActive A s).2.1
        firmware := (resetActive A s).2.2 }) := by
  rw [FirmwareManager.reset, resetActive]
  cases hactive : s.firmwareManager.activeFirmware with
  | none =>
    rw [FirmwareManager.callActive_of_none hactive]
    rfl
  | some f =>
    have hcall : (callFirmware A f .reset).call s =
        (((A.call f .reset).call (s.bus, s.firmware)).1, { s with
          bus := ((A.call f .reset).call (s.bus, s.firmware)).2.1
          firmware := ((A.call f .reset).call (s.bus, s.firmware)).2.2 }) := rfl
    rw [FirmwareManager.callActive_of_some hactive, deliver, Method.call_bind, hcall]
    dsimp only
    rcases (A.call f .reset).call (s.bus, s.firmware) with ⟨_ | _, w⟩ <;> rfl

omit [DecidableEq D] in
/-- What `CPU::reset()` leaves. -/
theorem state_reset (s : Computer T D H M F X Fn) : ((reset A).call s).2 = { s with
    cycleCount := 0
    registerFile := .reset
    rtosScheduler :=
      if (resetActive A s).1 = .ok () then s.rtosScheduler.map Scheduler.reset else s.rtosScheduler
    bus :=
      if (resetActive A s).1 = .ok () ∧ s.systemBus = true then (resetActive A s).2.1.reset
      else (resetActive A s).2.1
    firmware := (resetActive A s).2.2 } := by
  let s₁ : Computer T D H M F X Fn := { s with cycleCount := 0, registerFile := .reset }
  have hactive : resetActive A s₁ = resetActive A s := rfl
  have hdeliver := call_deliver (A := A) s₁
  rw [hactive] at hdeliver
  rw [reset, Method.call_bind_ok _ _ _ _ (Method.call_modify _ _),
    Method.call_bind_ok _ _ _ _ (Method.call_modify _ _),
    Method.call_bind_ok _ _ _ _ (Method.call_get _)]
  change ((deliver A s₁.firmwareManager.reset >>= _ : Method _ _).call s₁).2 = _
  rw [Method.call_bind, hdeliver]
  cases (resetActive A s).1 with
  | ok u =>
    dsimp only
    rw [Method.call_bind_ok _ _ _ _ (Method.call_modify _ _), Method.call_modify]
    cases s.systemBus <;> rfl
  | error e => rfl

/-- Applications that are set to the state `x` by every call. -/
def overwriting (x : X) : Applications T D H M F X where
  call _ _ := modify fun w => (w.1, fun _ => x)

/-- **Partial resets.**  The two resets touch only their own part, whatever the applications do, iff
there is nothing to lose. -/
theorem partialResets_iff [Nontrivial X] {s₀ : PeripheralSystem T D H}
    (hbuilt : PeripheralSystem.Built s₀) (hsame : PeripheralSystem.Same s₀ s.bus.peripherals)
    (hcpu : R.cpu = true) (hbus : R.systemBus = true) :
    (∀ A : Applications T D H M F X, PartialResets A R s) ↔ NothingToLose s₀ s := by
  have hstate (A : Applications T D H M F X) : ((resetCPU A R).call s).2 = _ :=
    (congrArg (fun m => (Method.call m s).2) (if_pos hcpu)).trans (state_reset s)
  have hidle (A : Applications T D H M F X) (hnone : s.firmwareManager.activeFirmware = none) :
      resetActive A s = (.ok (), s.bus, s.firmware) := by rw [resetActive, hnone]
  constructor
  · intro h
    have hnone : s.firmwareManager.activeFirmware = none := by
      cases hactive : s.firmwareManager.activeFirmware with
      | none => rfl
      | some f =>
        -- an application that has another state after its reset
        obtain ⟨x, hx⟩ := exists_ne (s.firmware f)
        have hfirmware := (h (overwriting x)).firmware
        rw [hstate, resetActive, hactive] at hfirmware
        exact absurd (congrFun hfirmware f) hx
    refine ⟨hnone, fun hsystemBus => ?_⟩
    obtain ⟨x, -⟩ := exists_pair_ne X
    have hunchanged := (h (overwriting x)).bus
    rw [hstate, hidle _ hnone] at hunchanged
    dsimp only at hunchanged
    rw [if_pos ⟨rfl, hsystemBus⟩] at hunchanged
    exact (BusDevices.unchanged_reset_iff hbuilt.powerOn hsame).1 hunchanged
  · rintro ⟨hnone, hat⟩ A
    refine ⟨?_, by rw [hstate, hidle A hnone], by rw [hstate], by rw [hstate],
      { s with bus := s.bus.reset }, by rw [resetPeripherals, if_pos hbus]; rfl, rfl, rfl, rfl, rfl⟩
    rw [hstate, hidle A hnone]
    dsimp only
    split_ifs with hreset
    · exact (BusDevices.unchanged_reset_iff hbuilt.powerOn hsame).2 (hat hreset.2)
    · exact ⟨fun _ => rfl, rfl, rfl, rfl, fun _ _ => rfl, rfl, rfl⟩

/-- An application that counts, and forgets the count when it is reset. -/
def counting : Applications Unit Empty Empty Empty Unit ℕ where
  call _ c := modify fun w =>
    match c with
    | .update => (w.1, fun f => w.2 f + 1)
    | .reset => (w.1, fun _ => 0)
    | .initialise | .shutdown => w

/-- A CPU on a bus with a clock only. -/
def withClock (firmwareManager : FirmwareManager Unit) (cycles : UInt64) (count : ℕ) :
    Computer Unit Empty Empty Empty Unit ℕ Empty where
  cycleCount := cycles
  registerFile := .reset
  running := true
  systemBus := true
  firmwareManager
  rtosScheduler := none
  bus :=
    { peripherals := .bare ⟨⟨cycles⟩, .init, .init, [], fun _ => .new, []⟩
      dmas := []
      dma := Empty.elim
      memory := none }
  firmware := fun _ => count

/-- At power-on, before an application is loaded, there is nothing to lose. -/
theorem partialResets_powerOn : PartialResets counting ⟨true, true, true⟩ (withClock .new 0 0) := by
  have hbuilt : PeripheralSystem.Built (withClock .new 0 0).bus.peripherals := .bare rfl rfl
  refine (partialResets_iff hbuilt (.refl _) rfl rfl).2 ⟨rfl, fun _ => ?_⟩ counting
  refine ⟨?_, by nofun, by nofun, by nofun, by nofun, by nofun, rfl⟩
  rintro a ref ⟨⟩

/-- After one cycle, resetting the CPU sets back the clock and the application. -/
theorem not_partialResets_ticked : ¬ ∀ s : Computer Unit Empty Empty Empty Unit ℕ Empty,
    (∃ s₀, PeripheralSystem.Built s₀ ∧ PeripheralSystem.Same s₀ s.bus.peripherals) →
    PartialResets counting ⟨true, true, true⟩ s := by
  intro h
  let s := withClock (FirmwareManager.new.registerFirmware "count" (some ())).1 1 1
  have hbuilt : PeripheralSystem.Built s.bus.peripherals := .bare rfl rfl
  have hclock := (h s ⟨_, hbuilt, .refl _⟩).bus.clock
  have hcycles : (0 : UInt64) = 1 := congrArg SimulationClock.cycles hclock
  exact absurd hcycles (by decide)

end Computer

end Firmware

end EFS
