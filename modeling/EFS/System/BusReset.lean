import EFS.Drivers.Dma
import EFS.System.PowerOn

/-!
# What a reset of the bus leaves unchanged

`SystemBus::reset()` resets the DMA controllers, the peripherals, the memory and the clock.  It goes
unnoticed iff they are all as a reset leaves them (`unchanged_reset_iff`).
-/

namespace EFS

open EFS.Mmio EFS.Drivers

namespace Drivers

/-- The controller without its pointers. -/
def DMAController.configuration (dma : DMAController) : DMAController :=
  { dma with
    memory := false
    mmioBus := false
    interruptController := false
    scheduler := false
    uart := false
    interruptId := 0 }

theorem DMAController.configuration_reset (dma : DMAController) :
    dma.reset.configuration = .new false false false false := rfl

end Drivers

namespace System

/-- What is connected to a system bus: the peripherals, DMA controllers `M` and the memory. -/
structure BusDevices (T D H M : Type) where
  peripherals : PeripheralSystem T D H
  /-- The DMA controllers that are attached to the bus, in order. -/
  dmas : List M
  /-- The controller objects. -/
  dma : M → DMAController
  /-- `m_memory`, unless it is null. -/
  memory : Option Memory

namespace BusDevices

variable {T D H M : Type} [DecidableEq T] [DecidableEq D] [DecidableEq M] (w : BusDevices T D H M)

/-- `SystemBus::reset()`. -/
def reset : BusDevices T D H M where
  peripherals := w.peripherals.reset
  dmas := w.dmas
  dma m := if m ∈ w.dmas then (w.dma m).reset else w.dma m
  memory := w.memory.map Memory.clear

/-- The registers, the FIFOs, the DMA controllers, the memory and the clock are the same. -/
structure Unchanged (w w' : BusDevices T D H M) : Prop where
  registers : ∀ a, w'.peripherals.read a = w.peripherals.read a
  uart : w'.peripherals.uart.map (fun u => (u.txFifo, u.rxFifo)) =
    w.peripherals.uart.map fun u => (u.txFifo, u.rxFifo)
  spi : w'.peripherals.spi.map (·.rxBuffer) = w.peripherals.spi.map (·.rxBuffer)
  i2c : w'.peripherals.i2c.map (·.rxBuffer) = w.peripherals.i2c.map (·.rxBuffer)
  dma : ∀ m ∈ w.dmas, (w'.dma m).configuration = (w.dma m).configuration
  memory : w'.memory = w.memory
  clock : w'.peripherals.board.clock = w.peripherals.board.clock

end BusDevices

namespace BusDevices

variable {T D H M : Type}

/-- The devices are as a reset leaves them. -/
structure AtReset (s₀ : PeripheralSystem T D H) (w : BusDevices T D H M) : Prop where
  registers : ∀ a ref, s₀.mmioBus.registers a = some ref →
    (w.peripherals.register ref).read = s₀.resetValue w.peripherals ref
  uart : ∀ u ∈ w.peripherals.uart, u.txFifo = [] ∧ u.rxFifo = []
  spi : ∀ c ∈ w.peripherals.spi, c.rxBuffer = []
  i2c : ∀ c ∈ w.peripherals.i2c, c.rxBuffer = []
  dma : ∀ m ∈ w.dmas, (w.dma m).configuration = .new false false false false
  memory : ∀ m ∈ w.memory, ∀ b ∈ m.storage, b = 0
  clock : w.peripherals.board.clock.cycles = 0

variable [DecidableEq T] {s₀ : PeripheralSystem T D H} {w : BusDevices T D H M}

omit [DecidableEq T] in
theorem read_eq_iff {s s' : PeripheralSystem T D H} (h : s.mmioBus = s₀.mmioBus)
    (h' : s'.mmioBus = s₀.mmioBus) :
    (∀ a, s'.read a = s.read a) ↔ ∀ a ref, s₀.mmioBus.registers a = some ref →
      (s'.register ref).read = (s.register ref).read := by
  constructor
  · intro hread a ref href
    have ha := hread a
    rw [PeripheralSystem.read, PeripheralSystem.read, MMIOBus.read, MMIOBus.read, h, h', href] at ha
    exact Except.ok.inj ha
  · intro hregister a
    rw [PeripheralSystem.read, PeripheralSystem.read, MMIOBus.read, MMIOBus.read, h, h']
    cases href : s₀.mmioBus.registers a with
    | none => rfl
    | some ref => exact congrArg Except.ok (hregister a ref href)

theorem map_reset_iff {α β : Type} {x : Option α} {reset : α → α} {f : α → β} {b : β}
    (hb : ∀ a, f (reset a) = b) : (x.map reset).map f = x.map f ↔ ∀ a ∈ x, f a = b := by
  cases x with
  | none => simp
  | some a => simp [hb, eq_comm]

theorem clear_eq_iff {m : Option Memory} :
    m.map Memory.clear = m ↔ ∀ mem ∈ m, ∀ b ∈ mem.storage, b = 0 := by
  cases m with
  | none => simp
  | some mem =>
    have hclear : mem.clear = mem ↔ ∀ b ∈ mem.storage, b = 0 := by
      obtain ⟨storage⟩ := mem
      rw [Memory.clear, Memory.mk.injEq, eq_comm, List.eq_replicate_iff]
      exact and_iff_right rfl
    simpa using hclear

/-- **A reset that goes unnoticed.** -/
theorem unchanged_reset_iff [DecidableEq D] [DecidableEq M] (h₀ : s₀.PowerOn)
    (hs : PeripheralSystem.Same s₀ w.peripherals) : Unchanged w w.reset ↔ AtReset s₀ w := by
  -- part by part: a reset changes nothing of it iff it is as a reset leaves it
  have hregisters : (∀ a, w.reset.peripherals.read a = w.peripherals.read a) ↔
      ∀ a ref, s₀.mmioBus.registers a = some ref →
        (w.peripherals.register ref).read = s₀.resetValue w.peripherals ref := by
    rw [@read_eq_iff _ _ _ _ _ w.reset.peripherals hs.mmioBus hs.mmioBus]
    refine forall_congr' fun a => forall_congr' fun ref => forall_congr' fun href => ?_
    have hread : (w.reset.peripherals.register ref).read = _ :=
      h₀.read_register_reset hs (h₀.present a ref href)
    rw [hread, eq_comm]
  have huart : w.reset.peripherals.uart.map (fun u => (u.txFifo, u.rxFifo)) =
      w.peripherals.uart.map (fun u => (u.txFifo, u.rxFifo)) ↔
        ∀ u ∈ w.peripherals.uart, (u.txFifo, u.rxFifo) = ([], []) := map_reset_iff fun _ => rfl
  simp only [Prod.mk.injEq] at huart
  have hspi : w.reset.peripherals.spi.map (·.rxBuffer) = w.peripherals.spi.map (·.rxBuffer) ↔
      ∀ c ∈ w.peripherals.spi, c.rxBuffer = [] := map_reset_iff fun _ => rfl
  have hi2c : w.reset.peripherals.i2c.map (·.rxBuffer) = w.peripherals.i2c.map (·.rxBuffer) ↔
      ∀ c ∈ w.peripherals.i2c, c.rxBuffer = [] := map_reset_iff fun _ => rfl
  have hdma (m : M) (hm : m ∈ w.dmas) :
      (w.reset.dma m).configuration = .new false false false false := by
    rw [show w.reset.dma m = (w.dma m).reset from if_pos hm, DMAController.configuration_reset]
  have hclock : w.reset.peripherals.board.clock = w.peripherals.board.clock ↔
      w.peripherals.board.clock.cycles = 0 := by
    have hzero : w.reset.peripherals.board.clock = ⟨0⟩ := rfl
    rw [hzero]
    constructor
    · intro hclock
      rw [← hclock]
    · intro hcycles
      rw [← hcycles]
  constructor
  · intro hsame
    exact ⟨hregisters.1 hsame.registers, huart.1 hsame.uart, hspi.1 hsame.spi, hi2c.1 hsame.i2c,
      fun m hm => (hsame.dma m hm).symm.trans (hdma m hm), clear_eq_iff.1 hsame.memory,
      hclock.1 hsame.clock⟩
  · intro hat
    exact ⟨hregisters.2 hat.registers, huart.2 hat.uart, hspi.2 hat.spi, hi2c.2 hat.i2c,
      fun m hm => (hdma m hm).trans (hat.dma m hm).symm, clear_eq_iff.2 hat.memory,
      hclock.2 hat.clock⟩

end BusDevices

end System

end EFS
