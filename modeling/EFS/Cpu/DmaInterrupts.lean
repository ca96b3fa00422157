import EFS.Cpu.Step
import EFS.Drivers.DmaSignal
import EFS.LTS.Request
import EFS.System.DmaBus

/-!
# From DMA transfers to their interrupt handlers

A CPU steps a bus whose DMA controllers copy parts of the memory at the same time, each with a
completion interrupt of its own.  A step ticks the controllers, executes the events that they have
scheduled, which do nothing, and dispatches one interrupt.  Handlers, and the callbacks of other
events, are taken to leave the bus as it is.

* `handler_once` : the handler of a controller is invoked once, in a step in which all of its bytes
  have arrived, and at most one step later for each of the other controllers.

The measure is `DmaCPU.ahead` : the controllers of a higher rank whose handlers are still to be
invoked.
-/

namespace EFS

namespace System

open EFS.Drivers EFS.Kernel

namespace DmaBus

variable {D R H Cb : Type} {b : DmaBus D R H Cb} {line : D → Fin maxInterrupts}

/-- The interrupts of the controllers are set up. -/
structure Wired (b : DmaBus D R H Cb) (line : D → Fin maxInterrupts) : Prop
    extends b.dev.interruptController.SetUp b.dmas line where
  interruptController : b.interruptController = true
  attached : ∀ d ∈ b.dmas, (b.dma d).interruptController = true
  id : ∀ d ∈ b.dmas, (b.dma d).interruptId.toNat = line d

theorem Wired.of_withPending {b' : DmaBus D R H Cb} (h : b.Wired line) {v : UInt32}
    (hinterrupts : b'.interruptController = b.interruptController) (hdmas : b'.dmas = b.dmas)
    (hdma : ∀ d ∈ b.dmas, (b'.dma d).interruptController = (b.dma d).interruptController ∧
      (b'.dma d).interruptId = (b.dma d).interruptId)
    (hic : b'.dev.interruptController = b.dev.interruptController.withPending v) :
    b'.Wired line := by
  refine ⟨?_, hinterrupts.trans h.interruptController, ?_, ?_⟩
  · rw [hdmas, hic]
    exact h.toSetUp.withPending v
  · intro d hd
    rw [hdmas] at hd
    exact (hdma d hd).1.trans (h.attached d hd)
  · intro d hd
    rw [hdmas] at hd
    rw [(hdma d hd).2]
    exact h.id d hd

variable [DecidableEq D] [DecidableEq R] (noop : Cb)

/-- **Loop lemma.**  The controllers that move their last bytes make their lines pending. -/
theorem tickEach_interrupts {l : List D} (hnodup : l.Nodup)
    (hready : ∀ d ∈ l, (b.dma d).Ready b.dev)
    (hic : ∀ d ∈ l, (b.dma d).interruptController = true)
    (hid : ∀ d ∈ l, (b.dma d).interruptId.toNat = line d)
    (hregistered : ∀ d ∈ l, b.dev.interruptController.registered (line d) = true) :
    ∃ v, (b.tickEach noop l).1.dev.interruptController =
        b.dev.interruptController.withPending v ∧
      ∀ i, v &&& InterruptController.bit i ≠ 0 ↔ b.dev.interruptController.Pending i ∨
        ∃ d ∈ l, line d = i ∧ (b.dma d).Completes := by
  induction l generalizing b with
  | nil => exact ⟨b.dev.interruptController.pendingRegister.read, rfl, fun i => by
      simp [InterruptController.Pending]⟩
  | cons d l ih =>
    obtain ⟨hd, hnodup'⟩ := List.nodup_cons.1 hnodup
    obtain ⟨b₁, hcons, hdev, hfirst, hready₁⟩ := tickEach_cons noop hnodup hready
    obtain ⟨w, hw, hbits⟩ := DMAController.step_interrupts noop (hready d List.mem_cons_self)
      (hic d List.mem_cons_self) (hid d List.mem_cons_self) (hregistered d List.mem_cons_self)
    rw [hdev] at hw
    have hother {e : D} (he : e ∈ l) : b₁.dma e = b.dma e :=
      hfirst.dma_of_notMem fun hmem => hd (List.mem_singleton.1 hmem ▸ he)
    obtain ⟨v, hv, hbits'⟩ := ih hnodup' hready₁
      (fun e he => hother he ▸ hic e (List.mem_cons_of_mem _ he))
      (fun e he => hother he ▸ hid e (List.mem_cons_of_mem _ he))
      (fun e he => by
        rw [hw]
        exact hregistered e (List.mem_cons_of_mem _ he))
    refine ⟨v, ?_, fun i => ?_⟩
    · rw [hcons, hv, hw]
      rfl
    · have hpending :
          b₁.dev.interruptController.Pending i ↔ w &&& InterruptController.bit i ≠ 0 := by
        rw [hw]
        rfl
      -- pending before, raised by the first controller, or raised by another one
      rw [hbits', hpending, hbits, or_assoc]
      refine or_congr_right ?_
      simp only [List.mem_cons, exists_eq_or_imp]
      exact or_congr_right (exists_congr fun e => and_congr_right fun he => by rw [hother he])

theorem interruptController_tickEach (l : List D) :
    (b.tickEach noop l).1.interruptController = b.interruptController := by
  induction l generalizing b with
  | nil => rfl
  | cons d l ih =>
    rw [tickEach]
    rcases (b.dma d).step b.dev noop with ⟨⟨dma, dev⟩, _ | e⟩
    · exact ih
    · rfl

end DmaBus

end System

namespace Cpu

open EFS.System EFS.Drivers EFS.Kernel

/-- A CPU on a bus with DMA controllers. -/
structure DmaCPU (D R H Cb : Type) where
  power : PowerState
  cycleCount : UInt64
  bus : DmaBus D R H Cb

namespace DmaCPU

variable {D R H Cb : Type}

section

variable [DecidableEq D] [DecidableEq R] (c : DmaCPU D R H Cb) (noop : Cb)

/-- `CPU::step()` up to the interrupt handler, with the exception that leaves it, if any, and that
handler with its line.  The callbacks of the events that DMA controllers schedule do nothing; those
of other events, and the handler, leave the bus as it is. -/
def step : DmaCPU D R H Cb × Option String × Option (InterruptController.Service H) :=
  if c.power ≠ .on then (c, none, none)
  else
    let c := { c with cycleCount := c.cycleCount + 1 }
    match c.bus.tickTimers noop with
    | (bus, some e) => ({ c with bus }, some e, none)
    | (bus, none) =>
      let dev := { bus.dev with scheduler := (bus.dev.scheduler.takeReady bus.clock.cycles).2 }
      if bus.interruptController then
        let served := dev.interruptController.serve
        ({ c with bus := { bus with dev := { dev with interruptController := served.state } } },
          none, served.frame?)
      else ({ c with bus := { bus with dev } }, none, none)

/-- The CPU after `n` steps. -/
def after (n : ℕ) : DmaCPU D R H Cb := (fun c => (c.step noop).1)^[n] c

end

/-! ### One step -/

section

variable (c : DmaCPU D R H Cb) (line : D → Fin maxInterrupts)

/-- The CPU is on, the transfers are within the memory, and the interrupts are set up. -/
structure Going : Prop where
  power : c.power = .on
  ready : c.bus.AllReady
  wired : c.bus.Wired line

/-- The line is ready when the next step dispatches. -/
def Raised (i : Fin maxInterrupts) : Prop :=
  c.bus.dev.interruptController.Ready i ∨
    ∃ d ∈ c.bus.dmas, line d = i ∧ (c.bus.dma d).Completes

/-- What a step does that leads to `c'` and serves `svc`. -/
structure Stepped (c' : DmaCPU D R H Cb) (svc : Option (InterruptController.Service H)) :
    Prop where
  going : c'.Going line
  dmas : c'.bus.dmas = c.bus.dmas
  dma : ∀ d ∈ c.bus.dmas, c'.bus.dma d = (c.bus.dma d).next
  memory : c'.bus.dev.memory =
    round (fun d => (c.bus.dma d).effect) c.bus.dmas c.bus.dev.memory
  rank : ∀ i, c'.bus.dev.interruptController.rank i = c.bus.dev.interruptController.rank i
  handlers : c'.bus.dev.interruptController.handlers = c.bus.dev.interruptController.handlers
  ready_iff : ∀ i, c'.bus.dev.interruptController.Ready i ↔
    c.Raised line i ∧ ∀ s ∈ svc, i ≠ s.line
  first : ∀ s ∈ svc, c.Raised line s.line ∧
    c.bus.dev.interruptController.handlers s.line = some s.handler ∧
    ∀ i, c.Raised line i → i ≠ s.line → c.bus.dev.interruptController.rank s.line <
      c.bus.dev.interruptController.rank i
  idle : svc = none → ∀ i, ¬ c.Raised line i

/-- Only controllers that have finished wait for their handlers. -/
def Quiet : Prop :=
  ∀ i, c.bus.dev.interruptController.Ready i →
    ∃ d ∈ c.bus.dmas, line d = i ∧ (c.bus.dma d).busy = false

/-- The handler of controller `d` is still to be invoked. -/
def Owed (d : D) : Prop :=
  (c.bus.dma d).busy = true ∨ c.bus.dev.interruptController.Ready (line d)

instance : DecidablePred (c.Owed line) :=
  fun _ => inferInstanceAs (Decidable (_ ∨ _))

/-- How many handlers are owed to controllers of a higher rank than that of `d`. -/
def ahead [DecidableEq D] (d : D) : ℕ :=
  (c.bus.dmas.toFinset.filter fun e => c.Owed line e ∧
    c.bus.dev.interruptController.rank (line e) <
      c.bus.dev.interruptController.rank (line d)).card

end

variable {c c' : DmaCPU D R H Cb} {line : D → Fin maxInterrupts}
  {svc : Option (InterruptController.Service H)} {d : D}

theorem Stepped.busy (h : c.Stepped line c' svc) (hd : d ∈ c.bus.dmas)
    (hbusy : (c'.bus.dma d).busy = true) :
    (c.bus.dma d).busy = true ∧ ¬ (c.bus.dma d).Completes := by
  rw [h.dma d hd] at hbusy
  refine ⟨?_, fun hcompletes => ?_⟩
  · by_contra hidle
    rw [DMAController.next, if_neg hidle] at hbusy
    exact hidle hbusy
  · exact Bool.false_ne_true (hcompletes.2.symm.trans hbusy)

theorem raised_iff (h : c.Going line) (hd : d ∈ c.bus.dmas) : c.Raised line (line d) ↔
    c.bus.dev.interruptController.Ready (line d) ∨ (c.bus.dma d).Completes := by
  refine or_congr_right ⟨?_, fun hcompletes => ⟨d, hd, rfl, hcompletes⟩⟩
  rintro ⟨e, he, hline, hcompletes⟩
  exact h.wired.injective e he d hd hline ▸ hcompletes

theorem Stepped.not_busy_of_raised (h : c.Stepped line c' svc) (hgoing : c.Going line)
    (hquiet : c.Quiet line) (hd : d ∈ c.bus.dmas) (hraised : c.Raised line (line d)) :
    (c'.bus.dma d).busy = false := by
  by_contra hbusy
  obtain ⟨hbusy, hcompletes⟩ := h.busy hd (Bool.not_eq_false _ ▸ hbusy)
  rcases (raised_iff hgoing hd).1 hraised with hready | hnow
  · obtain ⟨e, he, hline, hidle⟩ := hquiet _ hready
    obtain rfl := hgoing.wired.injective e he d hd hline
    exact Bool.false_ne_true (hidle.symm.trans hbusy)
  · exact hcompletes hnow

theorem Stepped.quiet (h : c.Stepped line c' svc) (hgoing : c.Going line)
    (hquiet : c.Quiet line) : c'.Quiet line := by
  intro i hready
  have hraised := ((h.ready_iff i).1 hready).1
  obtain ⟨d, hd, hline⟩ : ∃ d ∈ c.bus.dmas, line d = i := by
    rcases hraised with hready | ⟨d, hd, hline, -⟩
    · obtain ⟨d, hd, hline, -⟩ := hquiet i hready
      exact ⟨d, hd, hline⟩
    · exact ⟨d, hd, hline⟩
  subst hline
  exact ⟨d, h.dmas ▸ hd, rfl, h.not_busy_of_raised hgoing hquiet hd hraised⟩

theorem Stepped.owed (h : c.Stepped line c' svc) (hgoing : c.Going line) (hd : d ∈ c.bus.dmas)
    (howed : c'.Owed line d) : c.Owed line d := by
  rcases howed with hbusy | hready
  · exact .inl (h.busy hd hbusy).1
  · rcases (raised_iff hgoing hd).1 ((h.ready_iff _).1 hready).1 with hready | hcompletes
    · exact .inr hready
    · exact .inl hcompletes.1

section

variable [DecidableEq D]

theorem Stepped.ahead_le (h : c.Stepped line c' svc) (hgoing : c.Going line) :
    c'.ahead line d ≤ c.ahead line d := by
  refine Finset.card_le_card fun e he => ?_
  simp only [Finset.mem_filter, List.mem_toFinset, h.dmas, h.rank] at he ⊢
  exact ⟨he.1, h.owed hgoing he.1 he.2.1, he.2.2⟩

/-- A step that passes over a line that is raised serves a controller of a higher rank. -/
theorem Stepped.ahead_lt (h : c.Stepped line c' svc) (hgoing : c.Going line)
    (hquiet : c.Quiet line) (hraised : c.Raised line (line d))
    (hnot : ∀ s ∈ svc, s.line ≠ line d) : c'.ahead line d + 1 ≤ c.ahead line d := by
  obtain ⟨s, hs⟩ : ∃ s, svc = some s :=
    Option.ne_none_iff_exists'.1 fun hnone => h.idle hnone _ hraised
  obtain ⟨hs', -, hfirst⟩ := h.first s hs
  obtain ⟨e, he, hline⟩ : ∃ e ∈ c.bus.dmas, line e = s.line := by
    rcases hs' with hready | ⟨e, he, hline, -⟩
    · obtain ⟨e, he, hline, -⟩ := hquiet _ hready
      exact ⟨e, he, hline⟩
    · exact ⟨e, he, hline⟩
  rw [← hline] at hs' hfirst
  have hidle := h.not_busy_of_raised hgoing hquiet he hs'
  refine Finset.card_lt_card ((Finset.ssubset_iff_of_subset fun x hx => ?_).2 ⟨e, ?_, ?_⟩)
  · simp only [Finset.mem_filter, List.mem_toFinset, h.dmas, h.rank] at hx ⊢
    exact ⟨hx.1, h.owed hgoing hx.1 hx.2.1, hx.2.2⟩
  · simp only [Finset.mem_filter, List.mem_toFinset]
    refine ⟨he, ?_, hfirst _ hraised fun heq => hnot s hs (hline ▸ heq.symm)⟩
    exact ((raised_iff hgoing he).1 hs').symm.imp And.left id
  · simp only [Finset.mem_filter, List.mem_toFinset]
    rintro ⟨-, hbusy | hready, -⟩
    · exact Bool.false_ne_true (hidle.symm.trans hbusy)
    · exact ((h.ready_iff _).1 hready).2 s hs hline

end

variable [DecidableEq D] [DecidableEq R]

section

variable (noop : Cb)

/-- The first part of a step makes the lines pending that are raised. -/
theorem Going.tickTimers (h : c.Going line) : ∃ bus v, c.bus.tickTimers noop = (bus, none) ∧
    DmaBus.Ticked c.bus bus c.bus.dmas ∧ bus.AllReady ∧ bus.Wired line ∧
      bus.dev.interruptController = c.bus.dev.interruptController.withPending v ∧
      ∀ i, bus.dev.interruptController.Ready i ↔ c.Raised line i := by
  obtain ⟨hnone, hticked, hready⟩ := h.ready.tickTimers noop
  have hregistered : ∀ d ∈ c.bus.dmas,
      c.bus.dev.interruptController.registered (line d) = true := fun _ => h.wired.registered
  obtain ⟨v, hv, hbits⟩ := DmaBus.tickEach_interrupts (b := { c.bus with
    clock := c.bus.clock.tick 1 }) noop h.ready.nodup h.ready.ready h.wired.attached
    h.wired.id hregistered
  have hpointer : (c.bus.tickTimers noop).1.interruptController = c.bus.interruptController :=
    DmaBus.interruptController_tickEach noop c.bus.dmas
  change (c.bus.tickTimers noop).1.dev.interruptController =
    c.bus.dev.interruptController.withPending v at hv
  rcases hticks : c.bus.tickTimers noop with ⟨bus, thrown⟩
  rw [hticks] at hnone hticked hready hv hpointer
  obtain rfl : thrown = none := hnone
  have hwired : bus.Wired line := h.wired.of_withPending hpointer hticked.dmas
    (fun d hd => by
      rw [hticked.dma, if_pos hd]
      exact ⟨(c.bus.dma d).sameSetup_next.interruptController,
        (c.bus.dma d).sameSetup_next.interruptId⟩) hv
  refine ⟨bus, v, rfl, hticked, hready, hwired, hv, fun i => ?_⟩
  rw [hv]
  exact h.wired.ready_withPending hbits i

/-- **Step lemma.** -/
theorem Going.step (h : c.Going line) :
    ∃ c' svc, c.step noop = (c', none, svc) ∧ c.Stepped line c' svc := by
  obtain ⟨bus, v, hticks, hticked, hready, hwired, hv, hraised⟩ := h.tickTimers noop
  have hrank (i : Fin maxInterrupts) :
      bus.dev.interruptController.rank i = c.bus.dev.interruptController.rank i := by
    rw [hv]
    rfl
  have hdma (d : D) (hd : d ∈ c.bus.dmas) : bus.dma d = (c.bus.dma d).next := by
    rw [hticked.dma, if_pos hd]
  have hhandlers :
      bus.dev.interruptController.handlers = c.bus.dev.interruptController.handlers := by
    rw [hv]
    rfl
  -- what dispatching leaves, with other pending bits
  let left : UInt32 → DmaCPU D R H Cb := fun w => { c with
    cycleCount := c.cycleCount + 1
    bus := { bus with dev := { bus.dev with
      scheduler := (bus.dev.scheduler.takeReady bus.clock.cycles).2
      interruptController := bus.dev.interruptController.withPending w } } }
  have hgoing (w : UInt32) : (left w).Going line := by
    refine ⟨h.power, ⟨hready.nodup, fun d hd => ?_⟩, ?_⟩
    · exact (hready.ready d hd).of_same rfl rfl rfl
    · exact hwired.of_withPending rfl rfl (fun _ _ => ⟨rfl, rfl⟩) rfl
  have hstep {w : UInt32} (hstate : bus.dev.interruptController.serve.state =
      bus.dev.interruptController.withPending w) :
      c.step noop = (left w, none, bus.dev.interruptController.serve.frame?) := by
    rw [DmaCPU.step, if_neg (not_not.2 h.power)]
    simp only [hticks, hwired.interruptController, ↓reduceIte, hstate, left]
  have hserved := InterruptController.dispatched_serve hwired.handlersRegistered
  obtain ⟨w, hw⟩ := hserved.withPending
  refine ⟨left w, _, hstep hw, hgoing w, hticked.dmas, hdma, hticked.memory, hrank, hhandlers,
    fun i => ?_, fun s hs => ?_, fun hnone i hi => hserved.idle hnone i ((hraised i).2 hi)⟩
  · rw [← hraised, ← hserved.ready_iff, hw]
  · obtain ⟨hi, hhandler, hmin⟩ := hserved.first s hs
    refine ⟨(hraised s.line).1 hi, hhandlers ▸ hhandler, fun l hl hne => ?_⟩
    rw [← hrank, ← hrank]
    exact hmin l ((hraised l).2 hl) hne

end

/-! ### Runs -/

variable {noop : Cb}

/-- What holds after `n` steps. -/
structure Ran (c : DmaCPU D R H Cb) (line : D → Fin maxInterrupts) (noop : Cb) (n : ℕ) : Prop where
  going : (c.after noop n).Going line
  quiet : (c.after noop n).Quiet line
  dmas : (c.after noop n).bus.dmas = c.bus.dmas
  dma : ∀ d ∈ c.bus.dmas, (c.after noop n).bus.dma d = (c.bus.dma d).after n
  memory : (c.after noop n).bus.dev.memory =
    rounds (fun k d => ((c.bus.dma d).after k).effect) c.bus.dmas c.bus.dev.memory n
  handlers : (c.after noop n).bus.dev.interruptController.handlers =
    c.bus.dev.interruptController.handlers

theorem after_succ (n : ℕ) : c.after noop (n + 1) = ((c.after noop n).step noop).1 :=
  Function.iterate_succ_apply' ..

variable (noop) in
/-- **Run lemma.** -/
theorem Going.ran (h : c.Going line) (hquiet : c.Quiet line) (n : ℕ) : c.Ran line noop n := by
  induction n with
  | zero => exact ⟨h, hquiet, rfl, fun _ _ => rfl, rfl, rfl⟩
  | succ n ih =>
    obtain ⟨c', svc, hstep, hstepped⟩ := ih.going.step noop
    have hafter : c.after noop (n + 1) = c' := by rw [after_succ, hstep]
    refine ⟨hafter ▸ hstepped.going, hafter ▸ hstepped.quiet ih.going ih.quiet,
      hafter ▸ hstepped.dmas.trans ih.dmas, fun d hd => ?_, ?_,
      hafter ▸ hstepped.handlers.trans ih.handlers⟩
    · rw [hafter, hstepped.dma d (ih.dmas ▸ hd), ih.dma d hd, DMAController.after_succ]
    · rw [hafter, hstepped.memory, ih.dmas, ih.memory]
      exact round_congr (fun d hd => congrArg DMAController.effect (ih.dma d hd)) _

/-- The step after `n` steps serves the line of `d`. -/
def Serves (c : DmaCPU D R H Cb) (line : D → Fin maxInterrupts) (noop : Cb) (d : D) (n : ℕ) :
    Prop :=
  ∃ s ∈ ((c.after noop n).step noop).2.2, s.line = line d

variable (noop) in
/-- The completion of a transfer is a request to its handler. -/
theorem Going.request (h : c.Going line) (hquiet : c.Quiet line) (hd : d ∈ c.bus.dmas)
    (hbusy : (c.bus.dma d).busy = true) :
    Request (fun n => (c.after noop n).bus.dev.interruptController.Ready (line d))
      (c.Serves line noop d) (c.bus.dma d).left (fun n => (c.after noop n).ahead line d) := by
  have hprogress := (h.ready.ready d hd).inProgress
  -- the line is raised in the step that moves the last byte, and stays so until it is served
  have hraised (n : ℕ) : (c.after noop n).Raised line (line d) ↔
      (c.after noop n).bus.dev.interruptController.Ready (line d) ∨
        n + 1 = (c.bus.dma d).left := by
    have hran := h.ran noop hquiet n
    obtain ⟨hleft, hprogress'⟩ := DMAController.left_after hprogress n
    rw [raised_iff hran.going (hran.dmas ▸ hd), hran.dma d hd,
      DMAController.completes_iff_left hprogress', hleft]
    exact or_congr_right (by omega)
  have hstep (n : ℕ) : ∃ svc, ((c.after noop n).step noop).2.2 = svc ∧
      (c.after noop n).Stepped line (c.after noop (n + 1)) svc := by
    obtain ⟨c', svc, hstep, hstepped⟩ := (h.ran noop hquiet n).going.step noop
    rw [after_succ, hstep]
    exact ⟨svc, rfl, hstepped⟩
  refine ⟨fun hready => ?_, fun n => ?_, fun n => ?_, fun n => ?_, fun n hr hnot => ?_⟩
  · obtain ⟨e, he, hline, hidle⟩ := hquiet _ hready
    obtain rfl := h.wired.injective e he d hd hline
    exact Bool.false_ne_true (hidle.symm.trans hbusy)
  · obtain ⟨svc, hsvc, hstepped⟩ := hstep n
    rw [hstepped.ready_iff, hraised, Serves, hsvc]
    refine and_congr_right fun _ => ⟨?_, fun hnot s hs heq => hnot ⟨s, hs, heq.symm⟩⟩
    rintro hnot ⟨s, hs, heq⟩
    exact hnot s hs heq.symm
  · rintro ⟨s, hs, hline⟩
    obtain ⟨svc, hsvc, hstepped⟩ := hstep n
    exact (hraised n).1 (hline ▸ (hstepped.first s (hsvc ▸ hs)).1)
  · obtain ⟨svc, -, hstepped⟩ := hstep n
    exact hstepped.ahead_le (h.ran noop hquiet n).going
  · obtain ⟨svc, hsvc, hstepped⟩ := hstep n
    have hran := h.ran noop hquiet n
    exact hstepped.ahead_lt hran.going hran.quiet ((hraised n).2 hr)
      fun s hs hline => hnot ⟨s, hsvc ▸ hs, hline⟩

/-- **From transfer to handler.**  No step throws, and the handler of a controller with a transfer
in progress is invoked by exactly one step: not before the last byte has been moved, and after that
at most one step later for each handler owed to a controller of a higher rank.  The transfer is then
completed, and if it increments both addresses and no other controller writes to its ranges, the
destination holds its bytes. -/
theorem handler_once (h : c.Going line) (hquiet : c.Quiet line) (hd : d ∈ c.bus.dmas)
    (hbusy : (c.bus.dma d).busy = true) :
    (∀ n, ((c.after noop n).step noop).2.1 = none) ∧
    ∃ t, (c.bus.dma d).left ≤ t + 1 ∧ t + 1 ≤ (c.bus.dma d).left + c.ahead line d ∧
      (∀ n, c.Serves line noop d n ↔ n = t) ∧
      (∀ s ∈ ((c.after noop t).step noop).2.2,
        c.bus.dev.interruptController.handlers (line d) = some s.handler) ∧
      ((c.after noop (t + 1)).bus.dma d).completed = true ∧
      ((c.bus.dma d).srcIncrement = true → (c.bus.dma d).dstIncrement = true →
        (∀ e ∈ c.bus.dmas, e ≠ d →
          Disjoint (c.bus.dma e).dstRange ((c.bus.dma d).srcRange ∪ (c.bus.dma d).dstRange)) →
        ∀ a ∈ (c.bus.dma d).dstRange, (c.after noop (t + 1)).bus.dev.memory.storage[a]? =
          (forwardCopy (c.bus.dma d).currentSrc.toNat (c.bus.dma d).currentDst.toNat
            (c.bus.dma d).left c.bus.dev.memory.storage)[a]?) := by
  have hprogress := (h.ready.ready d hd).inProgress
  refine ⟨fun n => ?_, ?_⟩
  · obtain ⟨c', svc, hstep, -⟩ := (h.ran noop hquiet n).going.step noop
    rw [hstep]
  · -- the request of the line is raised with the last byte, and served once
    obtain ⟨t, hle, hge, hserves⟩ := (h.request noop hquiet hd hbusy).served_once
      ((DMAController.busy_iff_left hprogress.left).1 hbusy)
    have hran := h.ran noop hquiet (t + 1)
    refine ⟨t, hle, hge, hserves, fun s hs => ?_, ?_, fun hsrc hdst hdisjoint a ha => ?_⟩
    · obtain ⟨s', hs', hline⟩ := (hserves t).2 rfl
      obtain rfl := Option.mem_unique hs hs'
      have hbefore := h.ran noop hquiet t
      obtain ⟨c', svc, hstep, hstepped⟩ := hbefore.going.step noop
      rw [hstep] at hs
      rw [← hline, ← hbefore.handlers]
      exact (hstepped.first s hs).2.1
    · rw [hran.dma d hd]
      refine (DMAController.completed_after hbusy (t + 1)).resolve_left fun hagain => ?_
      obtain ⟨hleft, hprogress'⟩ := DMAController.left_after hprogress (t + 1)
      have hpos := (DMAController.busy_iff_left hprogress'.left).1 hagain
      omega
    · have hfootprint (k : ℕ) (e : D) (he : e ∈ c.bus.dmas ∨ e ∈ [d]) :
          Footprint DMAController.cell ((c.bus.dma e).srcRange ∪ (c.bus.dma e).dstRange)
            (c.bus.dma e).dstRange ((c.bus.dma e).after k).effect :=
        (h.ready.ready e (he.elim id fun he => List.mem_singleton.1 he ▸ hd)).footprint k
      -- the others write elsewhere, so the destination is as if the controller were alone
      have halone := agreeOn_rounds hfootprint h.ready.nodup (List.nodup_singleton d) hd
        (List.mem_singleton_self d) (fun e he hne =>
          hdisjoint e (he.elim id fun he => List.mem_singleton.1 he ▸ hd) hne)
        c.bus.dev.memory (t + 1) a (.inr ha)
      rw [DMAController.rounds_alone c.bus.dma d hprogress hsrc hdst, Nat.min_eq_right hle]
        at halone
      rw [hran.memory]
      exact halone

/-- Two controllers with one byte each, on the lines 4 and 0. -/
def twoSignals : DmaCPU Bool Empty Unit Unit where
  power := .on
  cycleCount := 0
  bus :=
    let bus := DmaBus.twoStarted 4
    let setUp (id : UInt8) : List (InterruptController.Op Unit) :=
      [.registerInterrupt id, .enable id, .registerHandler id (some ())]
    { bus with dev := { bus.dev with
      interruptController := ([0, 4].flatMap setUp).foldl .perform .init } }

/-- Both bytes arrive in the first step, and the handler of the first controller has to wait for
that of the second one. -/
theorem handler_once_twoSignals : ∃ line : Bool → Fin maxInterrupts, twoSignals.Going line ∧
    twoSignals.ahead line false = 1 ∧ ∃ t, 1 ≤ t + 1 ∧ t + 1 ≤ 2 ∧
      ∀ n, twoSignals.Serves line () false n ↔ n = t := by
  let line (d : Bool) : Fin maxInterrupts := if d then ⟨0, by decide⟩ else ⟨4, by decide⟩
  have htransfers := DmaBus.disjointTransfers_twoStarted 4
  have hready : ∀ d ∈ [false, true],
      ((DmaBus.twoStarted 4).dma d).Ready (DmaBus.twoStarted 4).dev := by
    intro d hd
    have hm := htransfers.memoryToMemory d hd
    refine ⟨hm, DMAController.inProgress_of_started (htransfers.started d hd)
      (hm.src_end.trans_lt htransfers.size) (hm.dst_end.trans_lt htransfers.size), fun _ => ?_⟩
    cases d <;> decide
  have hgoing : twoSignals.Going line := by
    refine ⟨rfl, ⟨by decide, fun d hd => (hready d hd).of_same rfl rfl rfl⟩, ?_⟩
    have hregistered : twoSignals.bus.dev.interruptController.HandlersRegistered :=
      InterruptController.handlersRegistered_of_reachable ⟨_, InterruptController.run_foldl _ _⟩
    exact ⟨⟨by decide, by decide, by decide, hregistered⟩, rfl, by decide, by decide⟩
  have hquiet : twoSignals.Quiet line := fun i hi => absurd hi (by revert i; decide)
  have hahead : twoSignals.ahead line false = 1 := by decide
  have hbusy : (twoSignals.bus.dma false).busy = true := rfl
  obtain ⟨-, t, hle, hge, hserves, -⟩ := handler_once hgoing hquiet (by decide) hbusy
  exact ⟨line, hgoing, hahead, t, hle, hahead ▸ hge, hserves⟩

end DmaCPU

end Cpu

end EFS
