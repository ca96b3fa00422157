import EFS.Firmware.Cpu
import EFS.Rtos.Running

/-!
# The CPU and its RTOS

`CPU::start` starts the RTOS scheduler that is attached, and a step of the CPU makes one `tick` and
one `schedule` of it while it is running.  Both objects have a running flag.  `stop` clears both,
but `reset` stops the scheduler only, and `start` does nothing when that of the CPU is set: the
scheduler then stays as it is.  `drivesRtos_of_run` says that the RTOS is started and driven in
every run that does not start the CPU in this way, and attaches no scheduler that is not running to
a CPU that has been started.

`schedule` enters the function of a task, so a state of the machine has the stack of these
functions.  Each iteration of the loop in `CPU::run` is a step of its own.
-/

namespace EFS

namespace Cpu

open EFS.Firmware EFS.Rtos

/-- A CPU with its firmware manager, and the RTOS schedulers `Ref` of which one may be attached. -/
structure RtosCPU (F W Fn Ref : Type) where
  cpu : Firmware.CPU F W
  /-- `m_rtosScheduler`. -/
  rtosScheduler : Option Ref
  /-- The scheduler objects. -/
  scheduler : Ref → Scheduler Fn
  /-- The calls that the CPU has made to the schedulers, the first one first. -/
  rtosCalls : List (Ref × Rtos.Call Fn)

namespace RtosCPU

variable {F W Fn Ref : Type} [DecidableEq Ref] (E : World F W) (s : RtosCPU F W Fn Ref)

/-- The state with one of the schedulers replaced. -/
def setScheduler (r : Ref) (sched : Scheduler Fn) : RtosCPU F W Fn Ref :=
  { s with scheduler := Function.update s.scheduler r sched }

/-- The CPU calls an operation of a scheduler. -/
def called (r : Ref) (call : Rtos.Call Fn) : RtosCPU F W Fn Ref :=
  { s with rtosCalls := s.rtosCalls ++ [(r, call)] }

/-- An operation of the scheduler `r`, by whoever calls it. -/
def rtos (r : Ref) (call : Rtos.Call Fn) : Outcome (RtosCPU F W Fn Ref) (Ref × Execution Fn) :=
  match (s.scheduler r).perform call with
  | .returned sched => .returned (s.setScheduler r sched)
  | .entered sched x => .entered (s.setScheduler r sched) (r, x)
  | .threw sched => .threw (s.setScheduler r sched)

/-- `attachRTOSScheduler()`; a null pointer detaches. -/
def attachRTOSScheduler (scheduler : Option Ref) : RtosCPU F W Fn Ref :=
  { s with rtosScheduler := scheduler }

/-- `CPU::start()`: the firmware first, then the scheduler; nothing on a CPU that runs. -/
def start : RtosCPU F W Fn Ref :=
  if s.cpu.running then s
  else
    let s := { s with cpu := s.cpu.start E }
    match s.rtosScheduler with
    | some r => (s.setScheduler r (s.scheduler r).start).called r .start
    | none => s

/-- `CPU::stop()`: the firmware first, then the scheduler; nothing on a CPU that is stopped. -/
def stop : RtosCPU F W Fn Ref :=
  if s.cpu.running then
    let s := { s with cpu := s.cpu.stop E }
    match s.rtosScheduler with
    | some r => (s.setScheduler r (s.scheduler r).stop).called r .stop
    | none => s
  else s

/-- `reset` : the running flag of the CPU stays. -/
def reset : RtosCPU F W Fn Ref :=
  let s := { s with cpu := s.cpu.reset E }
  match s.rtosScheduler with
  | some r => (s.setScheduler r (s.scheduler r).reset).called r .reset
  | none => s

/-- The scheduler that a step drives. -/
def activeRtos : Option Ref := s.rtosScheduler.filter fun r => (s.scheduler r).running

/-- What `step` does after the hardware part. -/
def update : Outcome (RtosCPU F W Fn Ref) (Ref × Execution Fn) :=
  match s.activeRtos with
  | some r =>
    let s := (s.setScheduler r (s.scheduler r).tick).called r .tick
    (s.called r .schedule).rtos r .schedule
  | none =>
    .returned (if s.cpu.running then
      { s with cpu := s.cpu.deliver E s.cpu.firmwareManager.update }
    else s)

/-- `CPU::step()` up to the task that the scheduler enters, if it enters one. -/
def step : Outcome (RtosCPU F W Fn Ref) (Ref × Execution Fn) :=
  if s.cpu.power ≠ .on then .returned s
  else
    match E.tick s.cpu.world with
    | (world, some _) =>
      .threw { s with cpu := { s.cpu with cycleCount := s.cpu.cycleCount + 1, world } }
    | (world, none) =>
      { s with cpu := { s.cpu with cycleCount := s.cpu.cycleCount + 1, world } }.update E

end RtosCPU

/-! ### Runs -/

/-- Where control is: at top level, or between two iterations of the loop of `run`, or inside the
function of a task. -/
structure Control (F W Fn Ref : Type) where
  rtos : RtosCPU F W Fn Ref
  /-- The cycles that `run` has left, while it is on the stack. -/
  loop : Option ℕ
  /-- The functions of tasks that are running, the innermost one first. -/
  stack : List (Ref × Execution Fn)
  /-- `start()` has returned with a scheduler attached, and neither `stop()` nor `reset()` has been
  called since. -/
  started : Bool

/-- What happens next.  `rtos` is a call of a scheduler from outside of the CPU, in most cases from
the function of a task. -/
inductive RtosLabel (Fn Ref : Type)
  | start
  | stop
  | reset
  | step
  | run (cycles : UInt64)
  | attachRTOSScheduler (scheduler : Option Ref)
  | setPower (power : PowerState)
  /-- The next iteration of `run`. -/
  | loop
  | rtos (r : Ref) (call : Rtos.Call Fn)
  /-- The innermost function returns. -/
  | ret
  /-- The innermost function throws. -/
  | throw

namespace Control

variable {F W Fn Ref : Type} [DecidableEq Ref] (E : World F W) (c : Control F W Fn Ref)

/-- Control is at top level. -/
def idle : Bool := c.loop.isNone && c.stack.isEmpty

/-- Control after a step of the CPU; an exception leaves `run`. -/
def land : Outcome (RtosCPU F W Fn Ref) (Ref × Execution Fn) → Control F W Fn Ref
  | .returned s => { c with rtos := s }
  | .entered s x => { c with rtos := s, stack := x :: c.stack }
  | .threw s => { c with rtos := s, loop := none, stack := [] }

/-- `CPU::start()` from outside of every loop; the schedulers started are remembered. -/
def start : Control F W Fn Ref :=
  { c with rtos := c.rtos.start E, started := c.rtos.rtosScheduler.isSome }

/-- A call at top level. -/
def call : RtosLabel Fn Ref → Option (Control F W Fn Ref)
  | .start => some (c.start E)
  | .stop => some { c with rtos := c.rtos.stop E, started := false }
  | .reset => some { c with rtos := c.rtos.reset E, started := false }
  | .step => some (c.land (c.rtos.step E))
  | .run cycles => some { c.start E with loop := some cycles.toNat }
  | .attachRTOSScheduler scheduler => some { c with rtos := c.rtos.attachRTOSScheduler scheduler }
  | .setPower power => some { c with rtos := { c.rtos with cpu := { c.rtos.cpu with power } } }
  | _ => none

/-- An iteration of `run`, or its end. -/
def iterate : Option (Control F W Fn Ref) :=
  match c.loop, c.stack with
  | some 0, [] => some { c with loop := none }
  | some (n + 1), [] =>
    if c.rtos.cpu.running ∧ c.rtos.cpu.power = .on then
      some ({ c with loop := some n }.land (c.rtos.step E))
    else some { c with loop := none }
  | _, _ => none

/-- A call of a scheduler that throws leaves its caller running. -/
def callRtos (r : Ref) (call : Rtos.Call Fn) : Control F W Fn Ref :=
  match c.rtos.rtos r call with
  | .returned s => { c with rtos := s }
  | .entered s x => { c with rtos := s, stack := x :: c.stack }
  | .threw s => { c with rtos := s }

/-- An exception that no function catches leaves `step` and `run`. -/
def throw : Option (Control F W Fn Ref) :=
  match c.stack with
  | [] => none
  | [_] => some { c with stack := [], loop := none }
  | _ :: rest => some { c with stack := rest }

/-- The state after a label, or `none` where the label is not possible. -/
def next : RtosLabel Fn Ref → Option (Control F W Fn Ref)
  | .loop => c.iterate E
  | .rtos r call => if c.idle ∨ c.stack ≠ [] then some (c.callRtos r call) else none
  | .ret =>
    match c.stack with
    | [] => none
    | _ :: rest => some { c with stack := rest }
  | .throw => c.throw
  | l => if c.idle then c.call E l else none

end Control

/-- The runs of a CPU with an RTOS. -/
def rtosMachine {F W Fn Ref : Type} [DecidableEq Ref] (E : World F W) :
    LTS (Control F W Fn Ref) (RtosLabel Fn Ref) where
  step c l d := c.next E l = some d

/-- What a call of a scheduler from outside of the CPU has to leave alone. -/
def SparesRtos {F W Fn Ref : Type} (c : Control F W Fn Ref) : RtosLabel Fn Ref → Prop
  | .rtos r call => r ∈ c.rtos.rtosScheduler → call ≠ .stop ∧ call ≠ .reset
  | _ => True

/-- A running CPU is started only while its scheduler is running, and a CPU that has been started
gets no scheduler that is not. -/
def Coordinated {F W Fn Ref : Type} (c : Control F W Fn Ref) : RtosLabel Fn Ref → Prop
  | .start | .run _ =>
    c.rtos.cpu.running = true → ∀ r ∈ c.rtos.rtosScheduler, (c.rtos.scheduler r).running = true
  | .attachRTOSScheduler scheduler =>
    c.started = true → ∃ r ∈ scheduler, (c.rtos.scheduler r).running = true
  | _ => True

/-- The label is a call of `CPU::step()`, with the power on. -/
def Steps {F W Fn Ref : Type} (c : Control F W Fn Ref) (l : RtosLabel Fn Ref) : Prop :=
  c.rtos.cpu.power = .on ∧
    (l = .step ∨ l = .loop ∧ c.rtos.cpu.running = true ∧ ∃ n, c.loop = some (n + 1))

/-- What the next event `l` has to do: a start of the CPU leaves the scheduler running, a step makes
one `tick` and one `schedule` of it, and while the function of a task runs the CPU makes none. -/
structure DrivesRtos {F W Fn Ref : Type} (E : World F W) (c : Control F W Fn Ref)
    (l : RtosLabel Fn Ref) (d : Control F W Fn Ref) : Prop where
  start : (l = .start ∨ ∃ cycles, l = .run cycles) →
    ∀ r ∈ d.rtos.rtosScheduler, (d.rtos.scheduler r).running = true
  step : c.started = true → Steps c l → (E.tick c.rtos.cpu.world).2 = none →
    ∃ r ∈ c.rtos.rtosScheduler,
      d.rtos.rtosCalls = c.rtos.rtosCalls ++ [(r, .tick), (r, .schedule)]
  task : c.stack ≠ [] → d.rtos.rtosCalls = c.rtos.rtosCalls

/-- A CPU that has just been constructed, next to schedulers in any state. -/
def Control.new {F W Fn Ref : Type} (power : PowerState) (world : W)
    (scheduler : Ref → Scheduler Fn) : Control F W Fn Ref where
  rtos := ⟨.new power world, none, scheduler, []⟩
  loop := none
  stack := []
  started := false

section

variable {F W Fn Ref : Type} [DecidableEq Ref] {E : World F W}

namespace RtosCPU

variable {s s' : RtosCPU F W Fn Ref} {r : Ref}

/-! ### What keeps a scheduler running -/

/-- The same scheduler is attached, and what was running still is. -/
structure Kept (s s' : RtosCPU F W Fn Ref) : Prop where
  attached : s'.rtosScheduler = s.rtosScheduler
  running : ∀ r, (s.scheduler r).running = true → (s'.scheduler r).running = true

omit [DecidableEq Ref] in
theorem Kept.trans {s'' : RtosCPU F W Fn Ref} (h : Kept s s') (h' : Kept s' s'') : Kept s s'' :=
  ⟨h'.attached.trans h.attached, fun r hr => h'.running r (h.running r hr)⟩

@[simp] theorem scheduler_setScheduler_self (sched : Scheduler Fn) :
    (s.setScheduler r sched).scheduler r = sched :=
  Function.update_self ..

theorem scheduler_setScheduler_of_ne {r' : Ref} (h : r' ≠ r) (sched : Scheduler Fn) :
    (s.setScheduler r sched).scheduler r' = s.scheduler r' :=
  Function.update_of_ne h ..

theorem kept_setScheduler (sched : Scheduler Fn)
    (h : (s.scheduler r).running = true → sched.running = true) :
    Kept s (s.setScheduler r sched) := by
  refine ⟨rfl, ?_⟩
  intro r' hr
  by_cases hne : r' = r
  · subst hne
    rw [scheduler_setScheduler_self]
    exact h hr
  · rw [scheduler_setScheduler_of_ne hne]
    exact hr

theorem state_rtos (call : Rtos.Call Fn) :
    (s.rtos r call).state = s.setScheduler r ((s.scheduler r).perform call).state := by
  unfold rtos
  cases (s.scheduler r).perform call <;> rfl

theorem kept_rtos (call : Rtos.Call Fn) (hstop : call ≠ .stop) (hreset : call ≠ .reset) :
    Kept s (s.rtos r call).state := by
  rw [state_rtos]
  refine kept_setScheduler _ ?_
  intro hr
  by_cases hstart : call = .start
  · rw [hstart]
    rfl
  · rw [Scheduler.perform_running _ hstart hstop hreset]
    exact hr

theorem kept_update : Kept s (s.update E).state := by
  unfold update
  split
  · rename_i r hr
    have htick : Kept s ((s.setScheduler r (s.scheduler r).tick).called r .tick) := by
      obtain ⟨h1, h2⟩ := kept_setScheduler (s := s) (r := r) (s.scheduler r).tick
        fun hr => by rw [Scheduler.tick_running]; exact hr
      exact ⟨h1, h2⟩
    refine htick.trans ?_
    obtain ⟨h1, h2⟩ := kept_rtos (r := r)
      (s := ((s.setScheduler r (s.scheduler r).tick).called r .tick).called r .schedule)
      .schedule nofun nofun
    exact ⟨h1, h2⟩
  · rw [Outcome.state_returned]
    split_ifs <;> exact ⟨rfl, fun _ hr => hr⟩

theorem kept_step : Kept s (s.step E).state := by
  unfold step
  split_ifs
  · exact ⟨rfl, fun _ hr => hr⟩
  · rcases E.tick s.cpu.world with ⟨world, _ | e⟩
    · obtain ⟨h1, h2⟩ := kept_update (E := E) (s := { s with
        cpu := { s.cpu with cycleCount := s.cpu.cycleCount + 1, world } })
      exact ⟨h1, h2⟩
    · exact ⟨rfl, fun _ hr => hr⟩

theorem kept_start : Kept s (s.start E) := by
  unfold start
  split_ifs
  · exact ⟨rfl, fun _ hr => hr⟩
  · dsimp only
    split
    · rename_i r hattached
      obtain ⟨h1, h2⟩ := kept_setScheduler (s := { s with cpu := s.cpu.start E }) (r := r)
        (s.scheduler r).start fun _ => rfl
      exact ⟨h1, h2⟩
    · exact ⟨rfl, fun _ hr => hr⟩

theorem running_start_iff : (∀ r ∈ s.rtosScheduler, ((s.start E).scheduler r).running = true) ↔
    (s.cpu.running = true → ∀ r ∈ s.rtosScheduler, (s.scheduler r).running = true) := by
  unfold start
  by_cases hrun : s.cpu.running = true
  · simp [hrun]
  · rw [if_neg hrun]
    refine iff_of_true ?_ fun h => absurd h hrun
    intro r hr
    dsimp only
    rw [Option.mem_def.1 hr]
    dsimp only
    exact congrArg Scheduler.running (scheduler_setScheduler_self ..)

/-- A step with a running scheduler makes one `tick` and one `schedule` of it. -/
theorem rtosCalls_step (hpower : s.cpu.power = .on) (htick : (E.tick s.cpu.world).2 = none)
    (hr : r ∈ s.rtosScheduler) (hrun : (s.scheduler r).running = true) :
    (s.step E).state.rtosCalls = s.rtosCalls ++ [(r, .tick), (r, .schedule)] := by
  have hactive : s.activeRtos = some r := by
    rw [activeRtos, Option.mem_def.1 hr]
    simp [hrun]
  unfold step
  rw [if_neg (not_not.2 hpower)]
  rcases hworld : E.tick s.cpu.world with ⟨world, _ | e⟩
  · dsimp only
    unfold update
    rw [show RtosCPU.activeRtos { s with
      cpu := { s.cpu with cycleCount := s.cpu.cycleCount + 1, world } } = some r from hactive]
    dsimp only
    rw [state_rtos]
    simp [called, setScheduler]
  · rw [hworld] at htick
    cases htick

end RtosCPU

/-! ### The invariant -/

omit [DecidableEq Ref] in
theorem Control.rtos_land (c : Control F W Fn Ref)
    (o : Outcome (RtosCPU F W Fn Ref) (Ref × Execution Fn)) : (c.land o).rtos = o.state := by
  cases o <;> rfl

theorem Control.rtos_callRtos (c : Control F W Fn Ref) (r : Ref) (call : Rtos.Call Fn) :
    (c.callRtos r call).rtos = (c.rtos.rtos r call).state := by
  unfold Control.callRtos
  cases c.rtos.rtos r call <;> rfl

/-- A CPU that has been started has a running scheduler. -/
def RtosRuns (c : Control F W Fn Ref) : Prop :=
  c.started = true → ∃ r ∈ c.rtos.rtosScheduler, (c.rtos.scheduler r).running = true

namespace RtosRuns

variable {c d : Control F W Fn Ref} {l : RtosLabel Fn Ref}

omit [DecidableEq Ref] in
theorem of_kept (h : RtosRuns c) (hstarted : d.started = c.started)
    (hk : RtosCPU.Kept c.rtos d.rtos) : RtosRuns d := by
  intro hd
  obtain ⟨r, hr, hrun⟩ := h (hstarted ▸ hd)
  exact ⟨r, hk.attached ▸ hr, hk.running r hrun⟩

theorem land (h : RtosRuns c) : RtosRuns (c.land (c.rtos.step E)) := by
  refine h.of_kept ?_ (c.rtos_land _ ▸ RtosCPU.kept_step)
  unfold Control.land
  cases c.rtos.step E <;> rfl

theorem start (hc : Coordinated c (.start : RtosLabel Fn Ref)) : RtosRuns (c.start E) := by
  intro hstarted
  obtain ⟨r, hr⟩ := Option.isSome_iff_exists.1 hstarted
  have hattached : (c.rtos.start E).rtosScheduler = some r := RtosCPU.kept_start.attached.trans hr
  exact ⟨r, hattached, RtosCPU.running_start_iff.2 hc r hr⟩

/-- A call of a scheduler, by the function of a task or other code. -/
theorem callRtos {r : Ref} {call : Rtos.Call Fn} (h : RtosRuns c)
    (hspares : SparesRtos c (.rtos r call)) : RtosRuns (c.callRtos r call) := by
  have hrtos := c.rtos_callRtos r call
  have hstarted : (c.callRtos r call).started = c.started := by
    unfold Control.callRtos
    cases c.rtos.rtos r call <;> rfl
  by_cases hr : r ∈ c.rtos.rtosScheduler
  · obtain ⟨hstop, hreset⟩ := hspares hr
    exact h.of_kept hstarted (hrtos ▸ RtosCPU.kept_rtos _ hstop hreset)
  · -- a scheduler that is not attached
    intro hd
    obtain ⟨r', hr', hrun⟩ := h (hstarted ▸ hd)
    have hne : r' ≠ r := fun heq => hr (heq ▸ hr')
    rw [hrtos, RtosCPU.state_rtos]
    exact ⟨r', hr', by rwa [RtosCPU.scheduler_setScheduler_of_ne hne]⟩

/-- **Step lemma.**  A CPU that has been started keeps its scheduler running. -/
theorem next (h : RtosRuns c) (hspares : SparesRtos c l) (hc : Coordinated c l)
    (hnext : c.next E l = some d) : RtosRuns d := by
  have hsame {e : Control F W Fn Ref} (hstarted : e.started = c.started)
      (hrtos : e.rtos = c.rtos) : RtosRuns e :=
    h.of_kept hstarted ⟨congrArg RtosCPU.rtosScheduler hrtos, fun r hr => hrtos ▸ hr⟩
  cases l with
  | start =>
    obtain ⟨-, hd⟩ := Option.ite_none_right_eq_some.1 hnext
    obtain rfl := Option.some.inj hd
    exact start hc
  | run cycles =>
    obtain ⟨-, hd⟩ := Option.ite_none_right_eq_some.1 hnext
    obtain rfl := Option.some.inj hd
    exact start (c := c) hc
  -- nothing is said of an RTOS that is not started
  | stop | reset =>
    obtain ⟨-, hd⟩ := Option.ite_none_right_eq_some.1 hnext
    obtain rfl := Option.some.inj hd
    exact fun hstarted => absurd hstarted Bool.false_ne_true
  | step =>
    obtain ⟨-, hd⟩ := Option.ite_none_right_eq_some.1 hnext
    obtain rfl := Option.some.inj hd
    exact h.land
  | attachRTOSScheduler scheduler =>
    obtain ⟨-, hd⟩ := Option.ite_none_right_eq_some.1 hnext
    obtain rfl := Option.some.inj hd
    exact hc
  | setPower power =>
    obtain ⟨-, hd⟩ := Option.ite_none_right_eq_some.1 hnext
    obtain rfl := Option.some.inj hd
    exact h.of_kept rfl ⟨rfl, fun _ hr => hr⟩
  | loop =>
    change c.iterate E = some d at hnext
    unfold Control.iterate at hnext
    split at hnext
    · -- the loop is over, or it makes another step of the CPU
      obtain rfl := Option.some.inj hnext
      exact hsame rfl rfl
    · split_ifs at hnext
      · obtain rfl := Option.some.inj hnext
        exact land (c := { c with loop := some _ }) h
      · obtain rfl := Option.some.inj hnext
        exact hsame rfl rfl
    · cases hnext
  | rtos r call =>
    obtain ⟨-, hd⟩ := Option.ite_none_right_eq_some.1 hnext
    obtain rfl := Option.some.inj hd
    exact h.callRtos hspares
  | ret =>
    rcases hstack : c.stack with _ | ⟨x, rest⟩
    · simp [Control.next, hstack] at hnext
    · simp only [Control.next, hstack, Option.some.injEq] at hnext
      subst hnext
      exact hsame rfl rfl
  | throw =>
    change c.throw = some d at hnext
    unfold Control.throw at hnext
    split at hnext
    · cases hnext
    · obtain rfl := Option.some.inj hnext
      exact hsame rfl rfl
    · obtain rfl := Option.some.inj hnext
      exact hsame rfl rfl

end RtosRuns

variable {c d : Control F W Fn Ref} {l : RtosLabel Fn Ref}

theorem running_of_start (hc : Coordinated c l) (hnext : c.next E l = some d)
    (hl : l = .start ∨ ∃ cycles, l = .run cycles) :
    ∀ r ∈ d.rtos.rtosScheduler, (d.rtos.scheduler r).running = true := by
  have hstart : d.rtos = c.rtos.start E ∧ Coordinated c (.start : RtosLabel Fn Ref) := by
    rcases hl with rfl | ⟨cycles, rfl⟩
    · obtain ⟨-, hd⟩ := Option.ite_none_right_eq_some.1 hnext
      obtain rfl := Option.some.inj hd
      exact ⟨rfl, hc⟩
    · obtain ⟨-, hd⟩ := Option.ite_none_right_eq_some.1 hnext
      obtain rfl := Option.some.inj hd
      exact ⟨rfl, hc⟩
  rw [hstart.1, RtosCPU.kept_start.attached]
  exact RtosCPU.running_start_iff.2 hstart.2

/-- What calls the step of a CPU that has been started makes. -/
theorem RtosRuns.rtosCalls_of_steps (h : RtosRuns c) (hstarted : c.started = true)
    (hsteps : Steps c l) (htick : (E.tick c.rtos.cpu.world).2 = none)
    (hnext : c.next E l = some d) : ∃ r ∈ c.rtos.rtosScheduler,
      d.rtos.rtosCalls = c.rtos.rtosCalls ++ [(r, .tick), (r, .schedule)] := by
  obtain ⟨r, hr, hrun⟩ := h hstarted
  obtain ⟨hpower, hl⟩ := hsteps
  have hstep : d.rtos = (c.rtos.step E).state := by
    rcases hl with rfl | ⟨rfl, hcpu, n, hloop⟩
    · obtain ⟨-, hd⟩ := Option.ite_none_right_eq_some.1 hnext
      obtain rfl := Option.some.inj hd
      exact Control.rtos_land ..
    · change c.iterate E = some d at hnext
      rcases hstack : c.stack with _ | ⟨x, rest⟩
      · simp only [Control.iterate, hloop, hstack, if_pos (And.intro hcpu hpower),
          Option.some.injEq] at hnext
        rw [← hnext]
        exact Control.rtos_land ..
      · simp [Control.iterate, hloop, hstack] at hnext
  exact ⟨r, hr, hstep ▸ RtosCPU.rtosCalls_step hpower htick hr hrun⟩

/-- The CPU makes no call while the function of a task runs. -/
theorem rtosCalls_of_task (hstack : c.stack ≠ []) (hnext : c.next E l = some d) :
    d.rtos.rtosCalls = c.rtos.rtosCalls := by
  have hidle : c.idle = false := by
    simp [Control.idle, hstack]
  obtain ⟨x, rest, hcons⟩ := List.exists_cons_of_ne_nil hstack
  cases l with
  | start | stop | reset | step | run _ | attachRTOSScheduler _ | setPower _ =>
    simp [Control.next, hidle] at hnext
  | loop => simp [Control.next, Control.iterate, hcons] at hnext
  | rtos r call =>
    obtain ⟨-, hd⟩ := Option.ite_none_right_eq_some.1 hnext
    obtain rfl := Option.some.inj hd
    rw [Control.rtos_callRtos, RtosCPU.state_rtos]
    rfl
  | ret =>
    simp only [Control.next, hcons, Option.some.injEq] at hnext
    rw [← hnext]
  | throw =>
    cases rest with
    | nil =>
      simp only [Control.next, Control.throw, hcons, Option.some.injEq] at hnext
      rw [← hnext]
    | cons y rest =>
      simp only [Control.next, Control.throw, hcons, Option.some.injEq] at hnext
      rw [← hnext]

/-- **The RTOS is driven.**  In every run whose events are all coordinated, a start of the CPU
leaves the attached scheduler running, and from then on each step makes one `tick` and one
`schedule`. -/
theorem drivesRtos_of_run (E : World F W) (power : PowerState) (world : W)
    (scheduler : Ref → Scheduler Fn) {ls : List (RtosLabel Fn Ref)} {c d : Control F W Fn Ref}
    {l : RtosLabel Fn Ref}
    (hrun : ((rtosMachine E).restrict fun c l => SparesRtos c l ∧ Coordinated c l).Run
      (.new power world scheduler) ls c)
    (hnext : ((rtosMachine E).restrict fun c l => SparesRtos c l ∧ Coordinated c l).step c l d) :
    DrivesRtos E c l d := by
  have hruns : RtosRuns c := by
    refine hrun.invariant (I := RtosRuns) (fun h => absurd h Bool.false_ne_true) ?_
    rintro c l d hc ⟨⟨hspares, hcoordinated⟩, hstep⟩
    exact hc.next hspares hcoordinated hstep
  obtain ⟨⟨-, hcoordinated⟩, hstep⟩ := hnext
  exact ⟨running_of_start hcoordinated hstep,
    fun hstarted hsteps htick => hruns.rtosCalls_of_steps hstarted hsteps htick hstep,
    fun hstack => rtosCalls_of_task hstack hstep⟩

end

/-- Hardware that does nothing, and no firmware. -/
def quiet : World Empty Unit where
  tick w := (w, none)
  reset w := w
  call f _ _ := f.elim

/-- A CPU next to a new scheduler. -/
def beside : Control Empty Unit Unit Unit := .new .on () fun _ => .init

/-- A step after `attachRTOSScheduler` and `start`. -/
theorem drivesRtos_step : ∃ c d, (rtosMachine quiet).Run beside
    [.attachRTOSScheduler (some ()), .start] c ∧ c.started = true ∧ DrivesRtos quiet c .step d := by
  have hattached : ∀ c d : Control Empty Unit Unit Unit, ∀ l, c.rtos.cpu.running = false →
      c.started = false → SparesRtos c l → (rtosMachine quiet).step c l d →
      ((rtosMachine quiet).restrict fun c l => SparesRtos c l ∧ Coordinated c l).step c l d := by
    intro c d l hrunning hstarted hspares hstep
    refine ⟨⟨hspares, ?_⟩, hstep⟩
    cases l with
    | start | run _ => exact fun h => absurd (hrunning.symm.trans h) Bool.false_ne_true
    | attachRTOSScheduler _ => exact fun h => absurd (hstarted.symm.trans h) Bool.false_ne_true
    | _ => trivial
  have hrun : ((rtosMachine quiet).restrict fun c l => SparesRtos c l ∧ Coordinated c l).Run beside
      [.attachRTOSScheduler (some ()), .start] _ :=
    .cons (hattached _ _ _ rfl rfl trivial rfl)
      (.cons (hattached _ _ _ rfl rfl trivial rfl) (.nil _))
  exact ⟨_, _, hrun.of_restrict, rfl,
    drivesRtos_of_run quiet .on () (fun _ => .init) hrun ⟨⟨trivial, trivial⟩, rfl⟩⟩

/-- After `reset` the CPU is still running, and `start` does not start the scheduler again. -/
theorem not_drivesRtos_reset : ∃ c d, ((rtosMachine quiet).restrict SparesRtos).Run beside
    [.attachRTOSScheduler (some ()), .start, .reset] c ∧
      ((rtosMachine quiet).restrict SparesRtos).step c .start d ∧
      d.rtos.rtosScheduler = some () ∧ (d.rtos.scheduler ()).running = false ∧
      ¬ DrivesRtos quiet c .start d := by
  refine ⟨_, _, .cons ⟨trivial, rfl⟩ (.cons ⟨trivial, rfl⟩ (.cons ⟨trivial, rfl⟩ (.nil _))),
    ⟨trivial, rfl⟩, rfl, rfl, ?_⟩
  intro h
  exact Bool.false_ne_true (h.start (.inl rfl) () rfl)

end Cpu

end EFS
