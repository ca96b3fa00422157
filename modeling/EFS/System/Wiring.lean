import EFS.LTS.Histories
import EFS.System.DmaBus

/-!
# The wiring of DMA controllers

A system bus hands its memory, its MMIO bus, its interrupt controller and its UART to the DMA
controllers on it: `attachDMA` what the bus has, and the setters of the bus what is new.  A
controller that moves from one bus to another keeps what the new bus does not have.

* `wired_iff_allowed` : each controller holds the scheduler of the bus it is on, and works on what
  that bus has, throughout a run iff no controller is attached to a bus while it is on another one.
* `Agrees.attached` : which pointers are null is what `DmaBus` says.
-/

namespace EFS

namespace System

open EFS.Drivers

/-- What a bus hands to its DMA controllers. -/
inductive Port
  | memory
  | mmio
  | interrupts
  | uart
  deriving DecidableEq

/-- The pointers of a DMA controller, to objects of the types `R` and to the event schedulers of
buses `B`. -/
structure DmaLinks (R : Port → Type) (B : Type) where
  pointers : (p : Port) → Option (R p)
  scheduler : Option B
  interruptId : UInt8

namespace DmaLinks

variable {R : Port → Type} {B : Type} (d : DmaLinks R B)

/-- The controller with one of its pointers replaced. -/
def attach (p : Port) (x : Option (R p)) : DmaLinks R B :=
  { d with pointers := Function.update d.pointers p x }

/-- `attachMemory()`. -/
def attachMemory (memory : Option (R .memory)) : DmaLinks R B := d.attach .memory memory

/-- `attachMMIO()`. -/
def attachMMIO (mmioBus : Option (R .mmio)) : DmaLinks R B := d.attach .mmio mmioBus

/-- `attachInterruptController()`. -/
def attachInterruptController (controller : Option (R .interrupts)) (interruptId : UInt8) :
    DmaLinks R B :=
  { d.attach .interrupts controller with interruptId }

/-- `attachUART()`. -/
def attachUART (uart : Option (R .uart)) : DmaLinks R B := d.attach .uart uart

/-- `attachScheduler()`. -/
def attachScheduler (scheduler : B) : DmaLinks R B := { d with scheduler := some scheduler }

/-- `detachScheduler()`. -/
def detachScheduler : DmaLinks R B := { d with scheduler := none }

end DmaLinks

/-- The pointers of a bus, and the DMA controllers on it. -/
structure BusLinks (R : Port → Type) (D : Type) where
  pointers : (p : Port) → Option (R p)
  dmas : List D

/-- What `attachDMA` does to a controller. -/
def BusLinks.attached {R : Port → Type} {B D : Type} (bus : BusLinks R D) (self : B)
    (d : DmaLinks R B) : DmaLinks R B :=
  let d := if (bus.pointers .memory).isSome then d.attachMemory (bus.pointers .memory) else d
  let d := if (bus.pointers .mmio).isSome then d.attachMMIO (bus.pointers .mmio) else d
  let d := if (bus.pointers .interrupts).isSome then
    d.attachInterruptController (bus.pointers .interrupts) d.interruptId else d
  let d := if (bus.pointers .uart).isSome then d.attachUART (bus.pointers .uart) else d
  d.attachScheduler self

/-! ### Attaching -/

section

variable {R : Port → Type} {B D : Type} {bus : BusLinks R D} {d : DmaLinks R B}

theorem DmaLinks.attach_or (d : DmaLinks R B) (p : Port) (x : Option (R p)) :
    (if x.isSome then d.attach p x else d) = d.attach p (x.or (d.pointers p)) := by
  cases x with
  | none =>
    change d = d.attach p (d.pointers p)
    rw [attach, Function.update_eq_self]
  | some x => rfl

theorem pointers_attached (bus : BusLinks R D) (self : B) (d : DmaLinks R B) (p : Port) :
    (bus.attached self d).pointers p = (bus.pointers p).or (d.pointers p) := by
  have hinterrupts (d : DmaLinks R B) (x : Option (R .interrupts)) :
      d.attachInterruptController x d.interruptId = d.attach .interrupts x := rfl
  simp only [BusLinks.attached, hinterrupts, DmaLinks.attachMemory, DmaLinks.attachMMIO,
    DmaLinks.attachUART, DmaLinks.attach_or]
  cases p <;> simp [DmaLinks.attach, DmaLinks.attachScheduler]

theorem attached_scheduler (self : B) : (bus.attached self d).scheduler = some self := rfl

theorem attached_interruptId (self : B) : (bus.attached self d).interruptId = d.interruptId := by
  simp only [BusLinks.attached]
  split_ifs <;> rfl

/-- Which pointers of a controller are null, in the two models. -/
structure Agrees (dma : DMAController) (d : DmaLinks R B) : Prop where
  memory : dma.memory = (d.pointers .memory).isSome
  mmioBus : dma.mmioBus = (d.pointers .mmio).isSome
  interruptController : dma.interruptController = (d.pointers .interrupts).isSome
  uart : dma.uart = (d.pointers .uart).isSome
  scheduler : dma.scheduler = d.scheduler.isSome
  interruptId : dma.interruptId = d.interruptId

theorem attached_eq {H Cb S : Type} (b : DmaBus D S H Cb) (dma : DMAController) :
    b.attached dma = { dma with
      memory := b.memory || dma.memory
      mmioBus := b.mmioBus || dma.mmioBus
      interruptController := b.interruptController || dma.interruptController
      uart := b.uart || dma.uart
      scheduler := true } := by
  unfold DmaBus.attached
  cases b.memory <;> cases b.mmioBus <;> cases b.interruptController <;> cases b.uart <;> rfl

/-- **The two models of `attachDMA`.** -/
theorem Agrees.attached {H Cb S : Type} {dma : DMAController} {b : DmaBus D S H Cb}
    (h : Agrees dma d) (self : B) (hmemory : b.memory = (bus.pointers .memory).isSome)
    (hmmio : b.mmioBus = (bus.pointers .mmio).isSome)
    (hinterrupts : b.interruptController = (bus.pointers .interrupts).isSome)
    (huart : b.uart = (bus.pointers .uart).isSome) :
    Agrees (b.attached dma) (bus.attached self d) := by
  have hpointers (p : Port) : ((bus.attached self d).pointers p).isSome =
      ((bus.pointers p).isSome || (d.pointers p).isSome) := by
    rw [pointers_attached, Option.isSome_or]
  rw [attached_eq]
  constructor
  · rw [hpointers, ← hmemory, ← h.memory]
  · rw [hpointers, ← hmmio, ← h.mmioBus]
  · rw [hpointers, ← hinterrupts, ← h.interruptController]
  · rw [hpointers, ← huart, ← h.uart]
  · rw [attached_scheduler, Option.isSome_some]
  · rw [attached_interruptId]
    exact h.interruptId

end

/-! ### Wirings -/

/-- Buses `B` and DMA controllers `D`. -/
structure Wiring (R : Port → Type) (B D : Type) where
  bus : B → BusLinks R D
  dma : D → DmaLinks R B

namespace Wiring

variable {R : Port → Type} {B D : Type} [DecidableEq B] [DecidableEq D]

/-- The calls that connect buses and controllers. -/
inductive Op (R : Port → Type) (B D : Type)
  | setMemory (b : B) (memory : Option (R .memory))
  | setMMIO (b : B) (mmioBus : Option (R .mmio))
  | setInterrupts (b : B) (interruptController : Option (R .interrupts))
  | attachUART (b : B) (uart : Option (R .uart))
  | attachDMA (b : B) (dma : Option D)
  | detachDMA (b : B) (dma : Option D)

section

variable (w : Wiring R B D) (b : B)

/-- The bus gets another pointer, and hands it to its controllers. -/
def setPort (p : Port) (x : Option (R p)) (attach : DmaLinks R B → DmaLinks R B) :
    Wiring R B D where
  bus := Function.update w.bus b
    { w.bus b with pointers := Function.update (w.bus b).pointers p x }
  dma := (w.bus b).dmas.foldl (fun dma d => Function.update dma d (attach (dma d))) w.dma

/-- `setMemory()` also of every controller on the bus. -/
def setMemory (memory : Option (R .memory)) : Wiring R B D :=
  w.setPort b .memory memory fun d => d.attachMemory memory

/-- `setMMIO()` also of every controller on the bus. -/
def setMMIO (mmioBus : Option (R .mmio)) : Wiring R B D :=
  w.setPort b .mmio mmioBus fun d => d.attachMMIO mmioBus

/-- `setInterrupts()`; the controllers on the bus keep their interrupt ids. -/
def setInterrupts (interruptController : Option (R .interrupts)) : Wiring R B D :=
  w.setPort b .interrupts interruptController fun d =>
    d.attachInterruptController interruptController d.interruptId

/-- `attachUART()` also of every controller on the bus. -/
def attachUART (uart : Option (R .uart)) : Wiring R B D :=
  w.setPort b .uart uart fun d => d.attachUART uart

/-- `attachDMA()` hands the controller what the bus is connected to. -/
def attachDMA : Option D → Bool × Wiring R B D
  | none => (false, w)
  | some d =>
    if d ∈ (w.bus b).dmas then (false, w)
    else (true, {
      bus := Function.update w.bus b { w.bus b with dmas := (w.bus b).dmas ++ [d] }
      dma := Function.update w.dma d ((w.bus b).attached b (w.dma d)) })

/-- `detachDMA()` takes only the scheduler of the bus away. -/
def detachDMA : Option D → Bool × Wiring R B D
  | none => (false, w)
  | some d =>
    if d ∈ (w.bus b).dmas then (true, {
      bus := Function.update w.bus b { w.bus b with dmas := (w.bus b).dmas.erase d }
      dma := Function.update w.dma d (w.dma d).detachScheduler })
    else (false, w)

/-- The wiring after a call. -/
def perform : Op R B D → Wiring R B D
  | .setMemory b memory => w.setMemory b memory
  | Op.setMMIO b mmioBus => setMMIO w b mmioBus
  | .setInterrupts b interruptController => w.setInterrupts b interruptController
  | .attachUART b uart => w.attachUART b uart
  | .attachDMA b dma => (w.attachDMA b dma).2
  | .detachDMA b dma => (w.detachDMA b dma).2

/-- A controller is not attached while it is on another bus. -/
def Moves : Op R B D → Prop
  | .attachDMA b (some d) => ∀ b', d ∈ (w.bus b').dmas → b' = b
  | _ => True

end

/-- The runs of a wiring. -/
def lts (R : Port → Type) (B D : Type) [DecidableEq B] [DecidableEq D] :
    LTS (Wiring R B D) (Op R B D) where
  step w op w' := w' = w.perform op

/-! ### The invariant -/

/-- Each controller is on the bus whose scheduler it holds, and has what the bus has. -/
structure Wired (w : Wiring R B D) (interruptId : D → UInt8) : Prop where
  nodup : ∀ b, (w.bus b).dmas.Nodup
  scheduler_iff : ∀ b d, (w.dma d).scheduler = some b ↔ d ∈ (w.bus b).dmas
  pointers : ∀ b, ∀ d ∈ (w.bus b).dmas, ∀ p, ∀ x ∈ (w.bus b).pointers p,
    (w.dma d).pointers p = some x
  interruptId : ∀ d, (w.dma d).interruptId = interruptId d

variable {w w' : Wiring R B D} {interruptId : D → UInt8} {b : B} {d : D} {p : Port}

omit [DecidableEq B] [DecidableEq D] in
theorem Wired.eq_of_mem (h : w.Wired interruptId) {c : B} (hb : d ∈ (w.bus b).dmas)
    (hc : d ∈ (w.bus c).dmas) : c = b :=
  Option.some.inj (((h.scheduler_iff c d).2 hc).symm.trans ((h.scheduler_iff b d).2 hb))

omit [DecidableEq B] in
/-- The loop of a setter. -/
theorem foldl_attach {attach : DmaLinks R B → DmaLinks R B} {l : List D} (h : l.Nodup)
    (dma : D → DmaLinks R B) (d : D) :
    l.foldl (fun dma d => Function.update dma d (attach (dma d))) dma d =
      if d ∈ l then attach (dma d) else dma d := by
  induction l generalizing dma with
  | nil => rfl
  | cons e l ih =>
    obtain ⟨he, hl⟩ := List.nodup_cons.1 h
    rw [List.foldl_cons, ih hl]
    by_cases hd : d = e
    · subst hd
      simp [he]
    · simp [hd]

theorem dmas_setPort (w : Wiring R B D) (b c : B) (x : Option (R p))
    (attach : DmaLinks R B → DmaLinks R B) :
    ((w.setPort b p x attach).bus c).dmas = (w.bus c).dmas := by
  rw [setPort]
  by_cases hc : c = b
  · subst hc
    simp
  · simp [hc]

/-- A setter of a bus keeps the wiring. -/
theorem Wired.setPort (h : w.Wired interruptId) (b : B) {x : Option (R p)}
    {attach : DmaLinks R B → DmaLinks R B} (hattach : ∀ d, attach d = d.attach p x) :
    (w.setPort b p x attach).Wired interruptId := by
  have hdma (d : D) : (w.setPort b p x attach).dma d =
      if d ∈ (w.bus b).dmas then (w.dma d).attach p x else w.dma d :=
    (foldl_attach (h.nodup b) w.dma d).trans (by rw [hattach])
  refine ⟨fun c => dmas_setPort w b c x attach ▸ h.nodup c, fun c d => ?_,
    fun c d hd q y hy => ?_, fun d => ?_⟩
  · rw [dmas_setPort, hdma]
    refine Iff.trans ?_ (h.scheduler_iff c d)
    split_ifs <;> rfl
  · rw [dmas_setPort] at hd
    rw [hdma]
    by_cases hc : c = b
    · subst hc
      have hbus : (w.setPort c p x attach).bus c =
          { w.bus c with pointers := Function.update (w.bus c).pointers p x } :=
        Function.update_self ..
      rw [hbus] at hy
      rw [if_pos hd]
      have hy : Function.update (w.bus c).pointers p x q = some y := hy
      change Function.update (w.dma d).pointers p x q = some y
      by_cases hq : q = p
      · subst hq
        rw [Function.update_self] at hy ⊢
        exact hy
      · rw [Function.update_of_ne hq] at hy ⊢
        exact h.pointers c d hd q y hy
    · -- the controller is on another bus
      have hbus : (w.setPort b p x attach).bus c = w.bus c := Function.update_of_ne hc ..
      have hnot : d ∉ (w.bus b).dmas := fun hd' => hc (h.eq_of_mem hd' hd)
      rw [hbus] at hy
      rw [if_neg hnot]
      exact h.pointers c d hd q y hy
  · rw [hdma, ← h.interruptId]
    split_ifs <;> rfl

/-- The bus `b` gets another list of controllers, and the controller `d` is changed. -/
theorem Wired.withDmas (h : w.Wired interruptId) {l : List D} {x : DmaLinks R B} (hl : l.Nodup)
    (hothers : ∀ e ≠ d, e ∈ l ↔ e ∈ (w.bus b).dmas) (hsole : ∀ c ≠ b, d ∉ (w.bus c).dmas)
    (hscheduler : ∀ c, x.scheduler = some c ↔ c = b ∧ d ∈ l)
    (hpointers : d ∈ l → ∀ p, ∀ y ∈ (w.bus b).pointers p, x.pointers p = some y)
    (hid : x.interruptId = (w.dma d).interruptId) :
    (Wiring.mk (Function.update w.bus b { w.bus b with dmas := l })
      (Function.update w.dma d x)).Wired interruptId := by
  generalize hv : Wiring.mk (Function.update w.bus b { w.bus b with dmas := l })
    (Function.update w.dma d x) = v
  have hbus : v.bus b = { w.bus b with dmas := l } := hv ▸ Function.update_self ..
  have hbus' {c : B} (hc : c ≠ b) : v.bus c = w.bus c := hv ▸ Function.update_of_ne hc ..
  have hdma : v.dma d = x := hv ▸ Function.update_self ..
  have hdma' {e : D} (he : e ≠ d) : v.dma e = w.dma e := hv ▸ Function.update_of_ne he ..
  constructor
  · intro c
    by_cases hc : c = b
    · subst hc
      rw [hbus]
      exact hl
    · rw [hbus' hc]
      exact h.nodup c
  · intro c e
    by_cases he : e = d
    · subst he
      rw [hdma, hscheduler]
      by_cases hc : c = b
      · subst hc
        rw [hbus]
        exact ⟨fun h => h.2, fun h => ⟨rfl, h⟩⟩
      · rw [hbus' hc]
        exact ⟨fun h => absurd h.1 hc, fun h => absurd h (hsole c hc)⟩
    · rw [hdma' he, h.scheduler_iff]
      by_cases hc : c = b
      · subst hc
        rw [hbus]
        exact (hothers e he).symm
      · rw [hbus' hc]
  · intro c e he p y hy
    by_cases hc : c = b
    · subst hc
      rw [hbus] at he hy
      by_cases hd : e = d
      · subst hd
        rw [hdma]
        exact hpointers he p y hy
      · rw [hdma' hd]
        exact h.pointers c e ((hothers e hd).1 he) p y hy
    · rw [hbus' hc] at he hy
      have hd : e ≠ d := fun hd => hsole c hc (hd ▸ he)
      rw [hdma' hd]
      exact h.pointers c e he p y hy
  · intro e
    by_cases he : e = d
    · subst he
      rw [hdma, hid, h.interruptId]
    · rw [hdma' he, h.interruptId]

theorem Wired.attachDMA (h : w.Wired interruptId) {dma : Option D}
    (hmoves : w.Moves (.attachDMA b dma)) : (w.attachDMA b dma).2.Wired interruptId := by
  cases dma with
  | none => exact h
  | some d =>
    rw [Wiring.attachDMA]
    split_ifs with hd
    · exact h
    · have hsole : ∀ c ≠ b, d ∉ (w.bus c).dmas := fun c hc hmem => hc (hmoves c hmem)
      refine h.withDmas ?_ ?_ hsole ?_ ?_ (attached_interruptId b)
      · rw [← List.concat_eq_append]
        exact (h.nodup b).concat hd
      · intro e he
        simp [he]
      · intro c
        simp [attached_scheduler, eq_comm]
      · intro _ p y hy
        rw [pointers_attached, hy, Option.some_or]

theorem Wired.detachDMA (h : w.Wired interruptId) (dma : Option D) :
    (w.detachDMA b dma).2.Wired interruptId := by
  cases dma with
  | none => exact h
  | some d =>
    rw [Wiring.detachDMA]
    split_ifs with hd
    · have hnot : d ∉ (w.bus b).dmas.erase d := (h.nodup b).not_mem_erase
      refine h.withDmas ((h.nodup b).erase d) ?_ (fun c hc hmem => hc (h.eq_of_mem hd hmem)) ?_
        (fun hmem => absurd hmem hnot) rfl
      · intro e he
        exact List.mem_erase_of_ne he
      · intro c
        refine iff_of_false nofun ?_
        exact fun hc => hnot hc.2
    · exact h

/-- **Step lemma.** -/
theorem Wired.perform (h : w.Wired interruptId) {op : Op R B D} (hmoves : w.Moves op) :
    (w.perform op).Wired interruptId := by
  cases op with
  | setMemory b memory => exact h.setPort b fun _ => rfl
  | setMMIO b mmioBus => exact h.setPort b fun _ => rfl
  | setInterrupts b interruptController => exact h.setPort b fun _ => rfl
  | attachUART b uart => exact h.setPort b fun _ => rfl
  | attachDMA b dma => exact h.attachDMA hmoves
  | detachDMA b dma => exact h.detachDMA dma

/-- A controller that is attached to a second bus forgets the scheduler of the first one. -/
theorem Wired.not_perform (h : w.Wired interruptId) {op : Op R B D} (hmoves : ¬ w.Moves op) :
    ¬ (w.perform op).Wired interruptId := by
  intro hafter
  cases op with
  | attachDMA b dma =>
    cases dma with
    | none => exact hmoves trivial
    | some d =>
      obtain ⟨c, hc, hne⟩ : ∃ c, d ∈ (w.bus c).dmas ∧ c ≠ b := by
        simpa [Moves] using hmoves
      have hd : d ∉ (w.bus b).dmas := fun hd => hne (h.eq_of_mem hd hc)
      have hperform : w.perform (.attachDMA b (some d)) = {
          bus := Function.update w.bus b { w.bus b with dmas := (w.bus b).dmas ++ [d] }
          dma := Function.update w.dma d ((w.bus b).attached b (w.dma d)) } := by
        rw [Wiring.perform, Wiring.attachDMA, if_neg hd]
      rw [hperform] at hafter
      refine hne (hafter.eq_of_mem (d := d) ?_ ?_)
      · simp
      · simpa [hne] using hc
  | _ => exact hmoves trivial

/-- **The wiring of controllers.**  From buses without controllers, each controller holds the
scheduler of the bus it is on, and has what that bus has, throughout a run iff no controller is
attached to a bus while it is on another one. -/
theorem wired_iff_allowed (hdmas : ∀ b, (w.bus b).dmas = [])
    (hscheduler : ∀ d, (w.dma d).scheduler = none) (ops : List (Op R B D)) :
    (lts R B D).Throughout (Wired · fun d => (w.dma d).interruptId) w ops ↔
      (lts R B D).Allowed Moves w ops := by
  have hstart : w.Wired fun d => (w.dma d).interruptId := by
    refine ⟨?_, ?_, ?_, fun _ => rfl⟩
    · simp [hdmas]
    · simp [hdmas, hscheduler]
    · simp [hdmas]
  refine LTS.throughout_iff_allowed (fun w op => ⟨w.perform op, rfl⟩) hstart (fun _ h => h) ?_ ?_
  · rintro v op - hv rfl hmoves
    exact hv.perform hmoves
  · rintro v op - hv rfl hmoves
    exact hv.not_perform hmoves

/-- Two buses with a memory of their own, and a controller that is on none of them. -/
def twoBuses : Wiring (fun _ => Bool) Bool Unit where
  bus b := ⟨fun _ => some b, []⟩
  dma _ := ⟨fun _ => none, none, 3⟩

/-- A controller that is detached first may move to another bus. -/
theorem wired_twoBuses : (lts (fun _ => Bool) Bool Unit).Throughout (Wired · fun _ => 3) twoBuses
    [.attachDMA false (some ()), .detachDMA false (some ()), .attachDMA true (some ())] := by
  refine (wired_iff_allowed (fun _ => rfl) (fun _ => rfl) _).2 ?_
  refine .cons (fun b hb => by simp [twoBuses] at hb) ?_
  rintro - rfl
  refine .cons trivial ?_
  rintro - rfl
  refine .cons (fun b hb => ?_) fun _ _ => .nil
  exact absurd hb (by revert b; decide)

end Wiring

end System

end EFS
