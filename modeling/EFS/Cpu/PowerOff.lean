import EFS.Cpu.Rtos

/-!
# A CPU without power

While the power state is OFF or SLEEP, `step()` does nothing.  `run()` checks the power in its loop,
after it has started a CPU that was not running, and the start initialises the firmware and starts
the RTOS.

* `still_iff` : steps and runs without power leave everything as it is iff there is no run, or the
  CPU is already running, or nothing is there to be started (`MayRun`).
* `not_still_initialise` : a run calls the firmware of a CPU that is off.

The calls that a step makes to the parts of the system bus are recorded, so that no callback and no
handler goes unnoticed.
-/

namespace EFS

namespace Cpu

open EFS.Firmware EFS.Rtos

/-! ### Recorded hardware -/

/-- The parts of the hardware that a step calls: the timers, the callbacks of the ready events, and
the handler of an interrupt. -/
inductive HardwareCall
  | tickTimers
  | executeReadyEvents
  | dispatch

/-- What is attached to the CPU, with the effect of everything that the CPU does to it. -/
structure Hardware (F W : Type) where
  /-- What a part does, with the exception that leaves it. -/
  perform : HardwareCall → W → W × Option String
  /-- `m_systemBus->reset()`. -/
  reset : W → W
  /-- What a call of an application does. -/
  call : F → Firmware.Call → W → W

/-- A system bus with its peripherals and its memory, and the calls made so far. -/
structure Recorded (W : Type) where
  bus : W
  hardwareCalls : List HardwareCall

namespace Hardware

variable {F W : Type} (A : Hardware F W)

/-- The parts one after the other, up to the first exception. -/
def performAll : List HardwareCall → Recorded W → Recorded W × Option String
  | [], w => (w, none)
  | call :: calls, w =>
    match A.perform call w.bus with
    | (bus, none) => performAll calls ⟨bus, w.hardwareCalls ++ [call]⟩
    | (bus, some e) => (⟨bus, w.hardwareCalls ++ [call]⟩, some e)

/-- The hardware as a firmware's world that records each call made to it. -/
def world : World F (Recorded W) where
  tick := A.performAll [.tickTimers, .executeReadyEvents, .dispatch]
  reset w := { w with bus := A.reset w.bus }
  call f call w := { w with bus := A.call f call w.bus }

end Hardware

/-! ### Steps and runs -/

/-- What drives the CPU from outside: one cycle, or `run(cycles)`. -/
inductive Drive
  | step
  | run (cycles : UInt64)

/-- What happens in a call while the power is off: the loop of a run ends at once. -/
def Drive.labels {Fn Ref : Type} : Drive → List (RtosLabel Fn Ref)
  | .step => [.step]
  | .run cycles => [.run cycles, .loop]

/-- Nothing has changed, and nothing has been called but `start()` of a scheduler. -/
structure Still {F W Fn Ref : Type} (s s' : RtosCPU F W Fn Ref) : Prop where
  cycleCount : s'.cpu.cycleCount = s.cpu.cycleCount
  world : s'.cpu.world = s.cpu.world
  scheduler : s'.scheduler = s.scheduler
  calls : s'.cpu.calls = s.cpu.calls
  rtosCalls : ∃ starts, s'.rtosCalls = s.rtosCalls ++ starts ∧ ∀ call ∈ starts, call.2 = .start

/-- A start has nothing to do. -/
def MayRun {F W Fn Ref : Type} (s : RtosCPU F W Fn Ref) : Prop :=
  s.cpu.running = true ∨ s.cpu.firmwareManager.activeFirmware = none ∧
    ∀ r ∈ s.rtosScheduler, (s.scheduler r).running = true ∧ idleTaskId ∈ (s.scheduler r).tasks

section

variable {F W Fn Ref : Type} [DecidableEq Ref] {E : World F W}

theorem start_eq_self_iff {sched : Scheduler Fn} :
    sched.start = sched ↔ sched.running = true ∧ idleTaskId ∈ sched.tasks := by
  constructor
  · intro h
    refine ⟨h ▸ rfl, ?_⟩
    by_contra hidle
    have htasks : sched.start.tasks = sched.tasks := congrArg Scheduler.tasks h
    change sched.ensureIdleTask.tasks = sched.tasks at htasks
    rw [Scheduler.ensureIdleTask, if_neg hidle, Scheduler.addToReadyQueue_tasks] at htasks
    exact hidle (htasks ▸ (AList.mem_insert _).2 (.inl rfl))
  · rintro ⟨hrunning, hidle⟩
    rw [Scheduler.start, Scheduler.ensureIdleTask, if_pos hidle, ← hrunning]

namespace RtosCPU

variable {s : RtosCPU F W Fn Ref}

omit [DecidableEq Ref] in
theorem still_refl (s : RtosCPU F W Fn Ref) : Still s s :=
  ⟨rfl, rfl, rfl, rfl, [], (List.append_nil _).symm, fun _ h => absurd h List.not_mem_nil⟩

theorem start_of_running (h : s.cpu.running = true) : s.start E = s := if_pos h

theorem cpu_start : (s.start E).cpu = s.cpu.start E := by
  unfold start
  split_ifs with h
  · exact (if_pos h).symm
  · cases s.rtosScheduler <;> rfl

theorem power_start : (s.start E).cpu.power = s.cpu.power := by
  rw [cpu_start, Firmware.CPU.start]
  split_ifs <;> rfl

theorem running_start : (s.start E).cpu.running = true := by
  rw [cpu_start, Firmware.CPU.start]
  split_ifs with h
  · exact h
  · rfl

theorem scheduler_start (h : ¬ s.cpu.running = true) :
    (s.start E).scheduler =
        s.rtosScheduler.elim s.scheduler
          (fun r => Function.update s.scheduler r (s.scheduler r).start) ∧
      (s.start E).rtosCalls = s.rtosCalls ++ s.rtosScheduler.toList.map (·, .start) := by
  rw [start, if_neg h]
  dsimp only
  cases s.rtosScheduler with
  | none => exact ⟨rfl, (List.append_nil _).symm⟩
  | some r => exact ⟨rfl, rfl⟩

theorem calls_start (h : ¬ s.cpu.running = true) :
    (s.start E).cpu.calls = s.cpu.calls ++ s.cpu.firmwareManager.initialise := by
  rw [cpu_start, Firmware.CPU.start, if_neg h]
  rfl

/-- A start goes unnoticed iff it has nothing to do. -/
theorem still_start_iff : Still s (s.start E) ↔ MayRun s := by
  by_cases hrunning : s.cpu.running = true
  · rw [start_of_running hrunning]
    exact iff_of_true (still_refl s) (.inl hrunning)
  obtain ⟨hscheduler, hcalls⟩ := scheduler_start (E := E) hrunning
  have hfirmware := calls_start (E := E) hrunning
  constructor
  · intro hstill
    refine .inr ⟨?_, fun r hr => start_eq_self_iff.1 ?_⟩
    · rw [hstill.calls, List.self_eq_append_right] at hfirmware
      cases hactive : s.cpu.firmwareManager.activeFirmware with
      | none => rfl
      | some f =>
        rw [FirmwareManager.initialise, FirmwareManager.callActive_of_some hactive] at hfirmware
        cases hfirmware
    · -- an attached scheduler has been started, so it was running already
      rw [Option.mem_def.1 hr, hstill.scheduler] at hscheduler
      have hsame := congrFun hscheduler r
      rw [Option.elim_some, Function.update_self] at hsame
      exact hsame.symm
  · rintro (h | ⟨hactive, hrtos⟩)
    · exact absurd h hrunning
    have hnone : s.cpu.firmwareManager.initialise = [] :=
      FirmwareManager.callActive_of_none hactive _
    have hcpu : (s.start E).cpu = { s.cpu with running := true } := by
      rw [cpu_start, Firmware.CPU.start, if_neg hrunning, hnone, Firmware.CPU.deliver_nil]
    refine ⟨by rw [hcpu], by rw [hcpu], ?_, by rw [hcpu], _, hcalls, ?_⟩
    · rw [hscheduler]
      cases hattached : s.rtosScheduler with
      | none => rfl
      | some r =>
        rw [Option.elim_some, start_eq_self_iff.2 (hrtos r hattached), Function.update_eq_self]
    · intro call hcall
      obtain ⟨r, -, rfl⟩ := List.mem_map.1 hcall
      rfl

end RtosCPU

/-! ### Without power -/

namespace Control

variable {c d : Control F W Fn Ref}

/-- Control is at top level, and the power is not on. -/
structure Off (c : Control F W Fn Ref) : Prop where
  idle : c.idle = true
  power : c.rtos.cpu.power ≠ .on

/-- What a call does without power. -/
def driven (E : World F W) (c : Control F W Fn Ref) : Drive → Control F W Fn Ref
  | .step => c
  | .run _ => c.start E

theorem off_driven (h : c.Off) (drive : Drive) : (c.driven E drive).Off := by
  cases drive with
  | step => exact h
  | run cycles => exact ⟨h.idle, fun hon => h.power (RtosCPU.power_start.symm.trans hon)⟩

theorem Off.next_step (h : c.Off) : c.next E .step = some c := by
  have hstep : c.rtos.step E = .returned c.rtos := if_pos h.power
  rw [show c.next E .step = some (c.land (c.rtos.step E)) from if_pos h.idle, hstep]
  rfl

/-- The loop ends before its first step. -/
theorem Off.next_run (h : c.Off) (cycles : UInt64) :
    c.next E (.run cycles) = some { c.start E with loop := some cycles.toNat } ∧
      { c.start E with loop := some cycles.toNat }.next E .loop = some (c.start E) := by
  refine ⟨if_pos h.idle, ?_⟩
  have hpower : ¬ (c.rtos.start E).cpu.power = .on :=
    fun hon => h.power (RtosCPU.power_start.symm.trans hon)
  obtain ⟨rtos, loop, stack, started⟩ := c
  obtain ⟨rfl, rfl⟩ : loop = none ∧ stack = [] := by simpa [Control.idle] using h.idle
  change iterate E ⟨rtos.start E, some cycles.toNat, [], rtos.rtosScheduler.isSome⟩ = _
  cases cycles.toNat with
  | zero => rfl
  | succ n => exact if_neg fun hon => hpower hon.2

/-- Each call returns. -/
theorem Off.run_labels (h : c.Off) (drive : Drive) :
    (rtosMachine E).Run c drive.labels d ↔ d = c.driven E drive := by
  cases drive with
  | step =>
    constructor
    · rintro (_ | ⟨hstep, _ | _⟩)
      exact Option.some.inj (hstep.symm.trans h.next_step)
    · rintro rfl
      exact .single h.next_step
  | run cycles =>
    obtain ⟨hrun, hloop⟩ := h.next_run (E := E) cycles
    constructor
    · rintro (_ | ⟨hstep, _ | ⟨hstep', _ | _⟩⟩)
      obtain rfl := Option.some.inj (hstep.symm.trans hrun)
      exact Option.some.inj (hstep'.symm.trans hloop)
    · rintro rfl
      exact .cons hrun (.single hloop)

/-- Only the first of several runs can start the CPU. -/
theorem rtos_foldl (E : World F W) (c : Control F W Fn Ref) (drives : List Drive) :
    ((∃ cycles, .run cycles ∈ drives) → (drives.foldl (driven E) c).rtos = c.rtos.start E) ∧
      (¬ (∃ cycles, .run cycles ∈ drives) → (drives.foldl (driven E) c).rtos = c.rtos) := by
  induction drives generalizing c with
  | nil => exact ⟨fun ⟨_, h⟩ => absurd h List.not_mem_nil, fun _ => rfl⟩
  | cons drive drives ih =>
    cases drive with
    | step => simpa [driven] using ih c
    | run cycles =>
      have hagain : (c.rtos.start E).start E = c.rtos.start E :=
        RtosCPU.start_of_running RtosCPU.running_start
      obtain ⟨hruns, hnone⟩ := ih (c.start E)
      refine ⟨fun _ => ?_, fun h => absurd ⟨cycles, List.mem_cons_self⟩ h⟩
      by_cases hrest : ∃ cycles, .run cycles ∈ drives
      · exact (hruns hrest).trans hagain
      · exact hnone hrest

theorem Off.run_iff (h : c.Off) (drives : List Drive) :
    (rtosMachine E).Run c (drives.flatMap Drive.labels) d ↔ d = drives.foldl (driven E) c := by
  induction drives generalizing c with
  | nil =>
    constructor
    · rintro (_ | _)
      rfl
    · rintro rfl
      exact .nil _
  | cons drive drives ih =>
    rw [List.flatMap_cons, List.foldl_cons, ← ih (off_driven h drive)]
    constructor
    · intro hrun
      obtain ⟨e, hfirst, hrest⟩ := hrun.of_append
      exact (h.run_labels drive).1 hfirst ▸ hrest
    · exact fun hrest => ((h.run_labels drive).2 rfl).append hrest

end Control

/-- **Without power.**  Steps and runs of a CPU that is off or asleep go unnoticed iff there is no
run among them, or a start has nothing to do. -/
theorem still_iff (A : Hardware F W) {c : Control F (Recorded W) Fn Ref} (h : c.Off)
    (drives : List Drive) :
    (∃ d, (rtosMachine A.world).Run c (drives.flatMap Drive.labels) d ∧ d.Off) ∧
      ∀ d, (rtosMachine A.world).Run c (drives.flatMap Drive.labels) d →
        (Still c.rtos d.rtos ↔ ((∃ cycles, .run cycles ∈ drives) → MayRun c.rtos)) := by
  constructor
  · refine ⟨_, (h.run_iff drives).2 rfl, ?_⟩
    induction drives generalizing c with
    | nil => exact h
    | cons drive drives ih => exact ih (Control.off_driven h drive)
  · rintro d hrun
    obtain rfl := (h.run_iff drives).1 hrun
    obtain ⟨hstart, hsame⟩ := Control.rtos_foldl A.world c drives
    by_cases hruns : ∃ cycles, .run cycles ∈ drives
    · rw [hstart hruns, RtosCPU.still_start_iff]
      exact ⟨fun hmay _ => hmay, fun hmay => hmay hruns⟩
    · rw [hsame hruns]
      exact iff_of_true (RtosCPU.still_refl _) fun h => absurd h hruns

end

/-- Hardware and an application that do nothing. -/
def silent : Hardware Unit Unit where
  perform _ w := (w, none)
  reset w := w
  call _ _ w := w

/-- A CPU that is off, with an application. -/
def poweredOff (running : Bool) : Control Unit (Recorded Unit) Unit Unit where
  rtos :=
    { cpu := { (Firmware.CPU.new .off ⟨(), []⟩).registerFirmware "app" (some ()) with running }
      rtosScheduler := none
      scheduler := fun _ => .init
      rtosCalls := [] }
  loop := none
  stack := []
  started := false

theorem off_poweredOff (running : Bool) : (poweredOff running).Off := ⟨rfl, nofun⟩

/-- A CPU that was running when the power went off. -/
theorem still_running : ∃ d, (rtosMachine silent.world).Run (poweredOff true)
    [.step, .run 5, .loop] d ∧ Still (poweredOff true).rtos d.rtos := by
  obtain ⟨⟨d, hrun, -⟩, hiff⟩ := still_iff silent (off_poweredOff true) [.step, .run 5]
  exact ⟨d, hrun, (hiff d hrun).2 fun _ => .inl rfl⟩

/-- A run initialises the application of a CPU that is off. -/
theorem not_still_initialise : ¬ ∀ (c d : Control Unit (Recorded Unit) Unit Unit)
    (drives : List Drive), c.Off →
    (rtosMachine silent.world).Run c (drives.flatMap Drive.labels) d → Still c.rtos d.rtos := by
  intro h
  have hoff := off_poweredOff false
  have hrun := (hoff.run_iff (E := silent.world) [.run 1]).2 rfl
  have hcalls : [((), Call.initialise)] = [] := (h _ _ _ hoff hrun).calls
  cases hcalls

end Cpu

end EFS
