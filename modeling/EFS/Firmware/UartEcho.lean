import EFS.Firmware.Cpu
import EFS.Hal.Uart

/-!
# The echoing firmware

`UARTEchoFirmware` writes every byte that the UART has received back to it.  An `EchoWorld` is what
it acts on, and its own state, on a board `B` that has no other part in the UART.

On a CPU, with bytes arriving at and leaving the UART at any time, the two FIFOs are one queue:

* `echoed_of_run` : the bytes that have left, those waiting to leave and those not echoed yet are,
  in this order, the bytes that have arrived.
* `empties_of_run` : a step of the CPU echoes all that has arrived before it.
-/

namespace EFS

namespace Firmware

open EFS.Cpu EFS.Drivers EFS.Hal EFS.Mmio

/-- The firmware that sends back what its UART receives. -/
structure UARTEchoFirmware where
  baudRate : UInt32
  echoCount : UInt64
  initialized : Bool
  isShutdown : Bool

/-- The constructor. -/
def UARTEchoFirmware.new (baudRate : UInt32) : UARTEchoFirmware := ⟨baudRate, 0, false, false⟩

/-- Initialised, and not shut down since. -/
def UARTEchoFirmware.live (f : UARTEchoFirmware) : Bool := f.initialized && !f.isShutdown

/-- The firmware with its HAL and the rest of the board. -/
structure EchoWorld (B : Type) where
  board : B
  uartHAL : UARTHAL
  firmware : UARTEchoFirmware

namespace EchoWorld

variable {B : Type} (w : EchoWorld B)

/-- `initialize()`, which leaves the UART as it is for a baud rate of 0. -/
def initialise : EchoWorld B × Option String :=
  let w := { w with
    firmware := { w.firmware with initialized := true, isShutdown := false, echoCount := 0 } }
  match w.uartHAL.setBaudRate w.firmware.baudRate with
  | .error e => (w, some e)
  | .ok uartHAL => ({ w with uartHAL := uartHAL.enable }, none)

/-- `while (m_uartHAL.hasData())` with its body. -/
def echo (w : EchoWorld B) : EchoWorld B × Option String :=
  if _ : w.uartHAL.hasData = true then
    match _ : w.uartHAL.readByte with
    | .error e => (w, some e)
    | .ok (rxByte, uartHAL) =>
      match _ : uartHAL.writeByte rxByte with
      | .error e => ({ w with uartHAL }, some e)
      | .ok uartHAL =>
        echo { w with
          uartHAL, firmware := { w.firmware with echoCount := w.firmware.echoCount + 1 } }
  else (w, none)
termination_by w.uartHAL.pending
decreasing_by
  rw [UARTHAL.pending_writeByte ‹_›]
  exact UARTHAL.pending_readByte ‹_› ‹_›

/-- `update()` echoes every byte that has been received. -/
def update : EchoWorld B × Option String :=
  if !w.firmware.initialized || w.firmware.isShutdown then (w, none) else w.echo

/-- `shutdown()` disables the UART. -/
def shutdown : EchoWorld B × Option String :=
  if w.firmware.initialized && !w.firmware.isShutdown then
    ({ w with
      uartHAL := w.uartHAL.disable
      firmware := { w.firmware with isShutdown := true } }, none)
  else (w, none)

/-- `reset()` disables the UART and forgets the count. -/
def reset : EchoWorld B × Option String :=
  let w := if w.firmware.initialized && !w.firmware.isShutdown then
    { w with uartHAL := w.uartHAL.disable } else w
  let firmware := { w.firmware with initialized := false, isShutdown := false, echoCount := 0 }
  ({ w with firmware }, none)

/-- A call of the CPU. -/
def call : Call → EchoWorld B × Option String
  | .initialise => w.initialise
  | .update => w.update
  | .shutdown => w.shutdown
  | .reset => w.reset

end EchoWorld

/-- The hardware beside the UART, which is reset with the bus if it is attached to it (`onBus`). -/
structure EchoBoard (B : Type) where
  tick : B → B × Option String
  reset : B → B
  onBus : Bool

/-- The surroundings of a CPU whose only firmware echoes. -/
def echoWorld {B : Type} (D : EchoBoard B) : World Unit (EchoWorld B) where
  tick w := ({ w with board := (D.tick w.board).1 }, (D.tick w.board).2)
  reset w := { w with
    board := D.reset w.board
    uartHAL := if D.onBus then ⟨w.uartHAL.uart.map UART.reset⟩ else w.uartHAL }
  call _ c w := (w.call c).1

/-! ### What the calls do to the FIFOs -/

namespace EchoWorld

variable {B : Type} {w : EchoWorld B} {u : UART} {q : List UInt8}

/-- The bytes in the UART are `q`, those to be sent before those that have not been echoed; while
the firmware is live, the UART is enabled. -/
structure Holds (w : EchoWorld B) (q : List UInt8) : Prop where
  baud : w.firmware.baudRate ≠ 0
  uart : ∃ u, w.uartHAL.uart = some u ∧ u.txFifo ++ u.rxFifo = q ∧
    (w.firmware.live = true → u.enabled = true)

theorem echo_of_nil (hu : w.uartHAL.uart = some u) (hrx : u.rxFifo = []) : w.echo = (w, none) := by
  rw [echo, dif_neg]
  simp [UARTHAL.hasData, hu, hrx]

/-- One turn of the loop. -/
theorem echo_of_cons (hu : w.uartHAL.uart = some u) (henabled : u.enabled = true) {byte : UInt8}
    {rest : List UInt8} (hrx : u.rxFifo = byte :: rest) :
    ∃ u', u'.enabled = true ∧ u'.txFifo = u.txFifo ++ [byte] ∧ u'.rxFifo = rest ∧
      w.echo = echo { w with
        uartHAL := ⟨some u'⟩
        firmware := { w.firmware with echoCount := w.firmware.echoCount + 1 } } := by
  obtain ⟨u₁, hread, hf₁, hrx₁, htx₁⟩ := UART.readByte_follows henabled hrx
  obtain ⟨u₂, hwrite, hf₂, htx₂, hrx₂⟩ :=
    UART.writeByte_follows (hf₁.enabled.trans henabled) byte
  refine ⟨u₂, hf₂.enabled.trans (hf₁.enabled.trans henabled), by rw [htx₂, htx₁],
    hrx₂.trans hrx₁, ?_⟩
  have hr : w.uartHAL.readByte = .ok (byte, ⟨some u₁⟩) := by
    simp only [UARTHAL.readByte, hu, hread]
    rfl
  have hw : UARTHAL.writeByte ⟨some u₁⟩ byte = .ok ⟨some u₂⟩ := by
    simp only [UARTHAL.writeByte, hwrite]
    rfl
  rw [echo, dif_pos (by simp [UARTHAL.hasData, hu, hrx])]
  split
  · rename_i e he
    cases hr.symm.trans he
  · rename_i b h he
    cases hr.symm.trans he
    split
    · rename_i e he
      cases hw.symm.trans he
    · rename_i h he
      cases hw.symm.trans he
      rfl

/-- **The loop.**  With the UART enabled, all that has been received is written back, in order. -/
theorem echo_spec (hu : w.uartHAL.uart = some u) (henabled : u.enabled = true) :
    ∃ u', u'.enabled = true ∧ u'.txFifo = u.txFifo ++ u.rxFifo ∧ u'.rxFifo = [] ∧
      w.echo = ({ w with
        uartHAL := ⟨some u'⟩
        firmware := { w.firmware with
          echoCount := w.firmware.echoCount + .ofNat u.rxFifo.length } }, none) := by
  obtain ⟨rx, hrx⟩ : ∃ rx, u.rxFifo = rx := ⟨_, rfl⟩
  induction rx generalizing w u with
  | nil =>
    refine ⟨u, henabled, by rw [hrx, List.append_nil], hrx, ?_⟩
    rw [echo_of_nil hu hrx, hrx]
    simp [← hu]
  | cons byte rest ih =>
    obtain ⟨u₁, he₁, htx₁, hrx₁, hturn⟩ := echo_of_cons hu henabled hrx
    obtain ⟨u₂, he₂, htx₂, hrx₂, hrest⟩ := ih (w := { w with
      uartHAL := ⟨some u₁⟩
      firmware := { w.firmware with echoCount := w.firmware.echoCount + 1 } }) rfl he₁ hrx₁
    refine ⟨u₂, he₂, by rw [htx₂, htx₁, hrx₁, hrx]; simp, hrx₂, ?_⟩
    have hcount : w.firmware.echoCount + 1 + .ofNat rest.length =
        w.firmware.echoCount + .ofNat (byte :: rest).length := by
      rw [UInt64.add_assoc, List.length_cons, UInt64.ofNat_add, UInt64.add_comm (.ofNat _)]
      rfl
    rw [hturn, hrest, hrx₁, hrx]
    simp only [hcount]

theorem not_live : (!w.firmware.initialized || w.firmware.isShutdown) = !w.firmware.live := by
  rw [UARTEchoFirmware.live, Bool.not_and, Bool.not_not]

theorem Holds.update (h : w.Holds q) (hlive : w.firmware.live = true) :
    ∃ u u', w.uartHAL.uart = some u ∧ u'.enabled = true ∧ u'.txFifo = u.txFifo ++ u.rxFifo ∧
      u'.rxFifo = [] ∧ w.update = ({ w with
        uartHAL := ⟨some u'⟩
        firmware := { w.firmware with
          echoCount := w.firmware.echoCount + .ofNat u.rxFifo.length } }, none) := by
  obtain ⟨u, hu, -, henabled⟩ := h.uart
  obtain ⟨u', he, htx, hrx, hecho⟩ := echo_spec hu (henabled hlive)
  refine ⟨u, u', hu, he, htx, hrx, ?_⟩
  rw [EchoWorld.update, not_live, hlive]
  exact hecho

/-- **No call throws**, and none changes what the UART holds. -/
theorem Holds.call (h : w.Holds q) (c : Call) : (w.call c).2 = none ∧ (w.call c).1.Holds q ∧
    ((w.call c).1.firmware.live = match c with
      | .initialise => true
      | .update => w.firmware.live
      | .shutdown | .reset => false) := by
  obtain ⟨u, hu, hq, henabled⟩ := h.uart
  cases c with
  | initialise =>
    have hset : w.uartHAL.setBaudRate w.firmware.baudRate =
        .ok ⟨some { u with baudRegister := u.baudRegister.write w.firmware.baudRate }⟩ := by
      simp [UARTHAL.setBaudRate, hu, UART.setBaudRate, h.baud, Except.map]
    simp only [EchoWorld.call, EchoWorld.initialise, hset]
    exact ⟨trivial, ⟨h.baud, _, rfl, hq, fun _ => UART.enabled_enable _⟩, rfl⟩
  | update =>
    by_cases hlive : w.firmware.live = true
    · -- the bytes change from one FIFO to the other, so the queue of both stays
      obtain ⟨u, u', hu', he, htx, hrx, hupdate⟩ := h.update hlive
      obtain rfl := Option.some.inj (hu.symm.trans hu')
      simp only [EchoWorld.call, hupdate]
      exact ⟨trivial, ⟨h.baud, u', rfl, by rw [htx, hrx, List.append_nil, hq], fun _ => he⟩, rfl⟩
    · have hupdate : w.update = (w, none) := by
        rw [EchoWorld.update, not_live]
        simp [hlive]
      simp only [EchoWorld.call, hupdate]
      exact ⟨trivial, h, trivial⟩
  | shutdown =>
    by_cases hlive : w.firmware.live = true
    · have hshutdown : w.shutdown = ({ w with
          uartHAL := w.uartHAL.disable
          firmware := { w.firmware with isShutdown := true } }, none) := if_pos hlive
      simp only [EchoWorld.call, hshutdown]
      refine ⟨trivial, ⟨h.baud, u.disable, by simp [UARTHAL.disable, hu], hq, ?_⟩, ?_⟩
      · simp [UARTEchoFirmware.live]
      · simp [UARTEchoFirmware.live]
    · have hshutdown : w.shutdown = (w, none) := if_neg hlive
      simp only [EchoWorld.call, hshutdown]
      exact ⟨trivial, h, by simpa using hlive⟩
  | reset =>
    refine ⟨rfl, ?_, by simp [EchoWorld.call, EchoWorld.reset, UARTEchoFirmware.live]⟩
    by_cases hlive : w.firmware.live = true
    · have hcond : (w.firmware.initialized && !w.firmware.isShutdown) = true := hlive
      refine ⟨by simpa [EchoWorld.call, EchoWorld.reset, hcond] using h.baud, u.disable, ?_, hq, ?_⟩
      · simp [EchoWorld.call, EchoWorld.reset, hcond, UARTHAL.disable, hu]
      · simp [EchoWorld.call, EchoWorld.reset, UARTEchoFirmware.live]
    · have hcond : ¬ (w.firmware.initialized && !w.firmware.isShutdown) = true := hlive
      refine ⟨by simpa [EchoWorld.call, EchoWorld.reset, hcond] using h.baud, u, ?_, hq, ?_⟩
      · simpa [EchoWorld.call, EchoWorld.reset, hcond] using hu
      · simp [EchoWorld.call, EchoWorld.reset, UARTEchoFirmware.live]

end EchoWorld

/-! ### On a CPU -/

namespace CPU

variable {B : Type} {D : EchoBoard B} {c : CPU Unit (EchoWorld B)} {q : List UInt8}

/-- The UART holds the bytes `q`; the firmware is live only while it is selected. -/
structure Echoes (c : CPU Unit (EchoWorld B)) (q : List UInt8) : Prop where
  selected : c.firmwareManager.Selected
  holds : c.world.Holds q
  active : c.world.firmware.live = true → c.firmwareManager.activeFirmware = some ()

/-- The calls of the CPU change the world by the calls of the active application. -/
theorem Echoes.callActive (h : c.Echoes q) (call : Call) :
    let d := c.deliver (echoWorld D) (c.firmwareManager.callActive call)
    d.world.Holds q ∧ d.firmwareManager = c.firmwareManager ∧
      (d.world.firmware.live = true → c.firmwareManager.activeFirmware = some ()) ∧
      (call = .shutdown ∨ call = .reset → d.world.firmware.live = false) := by
  cases hactive : c.firmwareManager.activeFirmware with
  | none =>
    rw [FirmwareManager.callActive_of_none hactive, deliver_nil]
    refine ⟨h.holds, rfl, fun hlive => ?_, fun _ => ?_⟩
    · exact hactive ▸ h.active hlive
    · by_contra hlive
      have hsome := h.active (by simpa using hlive)
      rw [hactive] at hsome
      cases hsome
  | some f =>
    rw [FirmwareManager.callActive_of_some hactive]
    obtain ⟨-, hholds, hlive⟩ := h.holds.call call
    refine ⟨hholds, rfl, fun _ => rfl, ?_⟩
    rintro (rfl | rfl) <;> exact hlive

theorem Echoes.deliver (h : c.Echoes q) (call : Call) :
    (c.deliver (echoWorld D) (c.firmwareManager.callActive call)).Echoes q := by
  obtain ⟨hholds, hm, hactive, -⟩ := h.callActive (D := D) call
  exact ⟨hm.symm ▸ h.selected, hholds, fun hlive => hm.symm ▸ hactive hlive⟩

theorem Echoes.deselect (h : c.Echoes q) {m : FirmwareManager Unit} (hm : m.Selected) :
    Echoes ({ c with firmwareManager := m }.deliver (echoWorld D)
      (c.firmwareManager.callActive .shutdown)) q := by
  obtain ⟨hholds, -, -, hdead⟩ := h.callActive (D := D) .shutdown
  refine ⟨hm, hholds, fun hlive => ?_⟩
  cases (hdead (.inl rfl)).symm.trans hlive

theorem Echoes.ofBoard (h : c.Echoes q) {running : Bool} {power : PowerState} {n : UInt64}
    {board : B} : Echoes { c with
      running := running, power := power, cycleCount := n
      world := { c.world with board := board } } q :=
  ⟨h.selected, ⟨h.holds.baud, h.holds.uart⟩, h.active⟩

theorem Echoes.ofManager (h : c.Echoes q) {m : FirmwareManager Unit} (hm : m.Selected)
    (hactive : c.firmwareManager.activeName ≠ "" →
      m.activeFirmware = c.firmwareManager.activeFirmware) :
    Echoes { c with firmwareManager := m } q := by
  refine ⟨hm, h.holds, fun hlive => ?_⟩
  have hc := h.active hlive
  exact (hactive (h.selected.activeName_ne hc)).trans hc

theorem Echoes.start (h : c.Echoes q) : (c.start (echoWorld D)).Echoes q := by
  unfold CPU.start
  split_ifs
  · exact h
  · exact Echoes.deliver (c := { c with running := true }) h.ofBoard .initialise

theorem Echoes.stop (h : c.Echoes q) : (c.stop (echoWorld D)).Echoes q := by
  unfold CPU.stop
  split_ifs
  · exact Echoes.deliver (c := { c with running := false }) h.ofBoard .shutdown
  · exact h

/-- Resetting the CPU clears the UART if it is attached to the bus. -/
theorem Echoes.reset (h : c.Echoes q) :
    (c.reset (echoWorld D)).Echoes (if D.onBus then [] else q) := by
  let d : CPU Unit (EchoWorld B) := { c with cycleCount := 0 }
  have hd : d.Echoes q := h.ofBoard
  obtain ⟨hholds, hm, -, hdead⟩ := hd.callActive (D := D) .reset
  have hdead := hdead (.inr rfl)
  let d' := d.deliver (echoWorld D) (c.firmwareManager.callActive .reset)
  have hnot {P : Prop} (hlive : d'.world.firmware.live = true) : P := by
    cases hdead.symm.trans hlive
  obtain ⟨u, hu, hq, -⟩ := hholds.uart
  refine ⟨h.selected, ⟨hholds.baud, ?_⟩, hnot⟩
  show ∃ u, (if D.onBus then ⟨d'.world.uartHAL.uart.map UART.reset⟩ else d'.world.uartHAL :
    UARTHAL).uart = some u ∧ _
  have hu : d'.world.uartHAL.uart = some u := hu
  split_ifs
  · exact ⟨u.reset, by rw [hu]; rfl, rfl, hnot⟩
  · exact ⟨u, hu, hq, hnot⟩

theorem Echoes.step (h : c.Echoes q) : (c.step (echoWorld D)).1.Echoes q := by
  unfold CPU.step
  split_ifs
  · exact h
  · let d : CPU Unit (EchoWorld B) := { c with
      cycleCount := c.cycleCount + 1
      world := { c.world with board := (D.tick c.world.board).1 } }
    have hd : d.Echoes q := h.ofBoard
    cases htick : (D.tick c.world.board).2 with
    | some e =>
      have he : (echoWorld D).tick c.world = (d.world, some e) := congrArg (Prod.mk _) htick
      rw [he]
      exact hd
    | none =>
      have he : (echoWorld D).tick c.world = (d.world, none) := congrArg (Prod.mk _) htick
      rw [he]
      show (if c.running then d.deliver (echoWorld D) (d.firmwareManager.callActive .update)
        else d).Echoes q
      split_ifs
      · exact hd.deliver .update
      · exact hd

theorem Echoes.runLoop (n : ℕ) (h : c.Echoes q) : (runLoop (echoWorld D) n c).1.Echoes q := by
  induction n generalizing c with
  | zero => exact h
  | succ n ih =>
    unfold CPU.runLoop
    split_ifs
    · exact h
    · exact h
    · have hs : (c.step (echoWorld D)).1.Echoes q := h.step
      generalize c.step (echoWorld D) = r at hs ⊢
      rcases r with ⟨d, _ | e⟩
      · exact ih hs
      · exact hs

theorem Echoes.registerFirmware (h : c.Echoes q) (name : String) (firmware : Option Unit) :
    (c.registerFirmware name firmware).Echoes q :=
  h.ofManager (h.selected.registerFirmware name firmware)
    fun hne => (h.selected.registerFirmware_active hne name firmware).2

theorem Echoes.unregisterFirmware (h : c.Echoes q) (name : String) :
    (c.unregisterFirmware (echoWorld D) name).Echoes q := by
  have hsel := h.selected.unregisterFirmware name
  simp only [CPU.unregisterFirmware]
  cases hreg : c.firmwareManager.firmwareRegistry.find? name with
  | none =>
    rw [FirmwareManager.unregisterFirmware_of_unknown hreg, deliver_nil]
    exact h
  | some f =>
    by_cases ha : c.firmwareManager.activeName = name
    · have hactive : c.firmwareManager.activeFirmware = some f := by
        rw [FirmwareManager.activeFirmware, ha, hreg]
      rw [FirmwareManager.unregisterFirmware_of_active hreg ha] at hsel ⊢
      rw [← FirmwareManager.callActive_of_some hactive .shutdown]
      exact h.deselect hsel
    · rw [h.selected.unregisterFirmware_inactive hreg ha] at hsel ⊢
      rw [deliver_nil]
      refine h.ofManager hsel fun _ => ?_
      simp [FirmwareManager.activeFirmware, OrderedMap.find?_erase, ha]

theorem Echoes.setActiveFirmware (h : c.Echoes q) (name : String) :
    (c.setActiveFirmware (echoWorld D) name).Echoes q := by
  have hsel := h.selected.setActiveFirmware name
  simp only [CPU.setActiveFirmware]
  cases hreg : c.firmwareManager.firmwareRegistry.find? name with
  | none =>
    rw [FirmwareManager.setActiveFirmware_of_unknown hreg, deliver_nil]
    exact h
  | some f =>
    by_cases ha : c.firmwareManager.activeName = name
    · rw [FirmwareManager.setActiveFirmware_of_active hreg ha, deliver_nil]
      exact h
    · rw [FirmwareManager.setActiveFirmware_of_inactive hreg ha] at hsel ⊢
      exact h.deselect hsel

/-- **Step lemma.**  An operation of the CPU leaves the bytes in the UART as they are, unless it
resets the UART. -/
theorem Echoes.perform (h : c.Echoes q) (o : Op Unit) :
    (c.perform (echoWorld D) o).Echoes (match o with
      | .reset => if D.onBus then [] else q
      | _ => q) := by
  cases o with
  | loadFirmware firmware name =>
    cases firmware with
    | none => exact h
    | some f => exact (h.stop.registerFirmware name (some f)).setActiveFirmware name
  | unloadFirmware =>
    simp only [CPU.perform, CPU.unloadFirmware]
    split_ifs
    · exact h.stop
    · exact h.stop.unregisterFirmware _
  | start => exact h.start
  | stop => exact h.stop
  | reset => exact h.reset
  | step => exact h.step
  | run cycles => exact h.start.runLoop _
  | registerFirmware name firmware => exact h.registerFirmware name firmware
  | unregisterFirmware name => exact h.unregisterFirmware name
  | setActiveFirmware name => exact h.setActiveFirmware name
  | setPower power => exact ⟨h.selected, h.holds, h.active⟩

end CPU

/-! ### The line -/

/-- What happens on the board: an operation of the CPU, or a call by what the UART is wired to. -/
inductive EchoEvent
  | cpu (o : CPU.Op Unit)
  | line (e : UART.Event)

/-- The calls of the other end of the line. -/
def OnLine : UART.Op → Prop
  | .pushReceivedByte _ | .popTxByte => True
  | _ => False

variable {B : Type} (D : EchoBoard B)

/-- The runs of a board under its CPU and the other end of the line. -/
def echoBoard : LTS (CPU Unit (EchoWorld B)) EchoEvent where
  step c e d := match e with
    | .cpu o => d = c.perform (echoWorld D) o
    | .line e => OnLine e.1 ∧ ∃ u u', c.world.uartHAL.uart = some u ∧ UART.calls.step u e u' ∧
      d = { c with world := { c.world with uartHAL := ⟨some u'⟩ } }

/-- The event clears the UART. -/
def EchoEvent.clears : EchoEvent → Bool
  | .cpu .reset => D.onBus
  | _ => false

/-- The calls of the other end since the UART was cleared last. -/
def onLine (es : List EchoEvent) : List UART.Event :=
  (es.rtakeWhile fun e => ¬ e.clears D).filterMap fun
    | .line e => some e
    | .cpu _ => none

/-- The bytes that the UART has accepted. -/
def arrived (es : List EchoEvent) : List UInt8 := UART.pushed (onLine D es)

/-- The bytes that it has sent. -/
def departed (es : List EchoEvent) : List UInt8 := UART.popped (onLine D es)

variable {D} {es : List EchoEvent} {c d : CPU Unit (EchoWorld B)} {q : List UInt8}

theorem onLine_snoc (e : EchoEvent) : onLine D (es ++ [e]) =
    if e.clears D then [] else onLine D es ++ (match e with | .line e => [e] | .cpu _ => []) := by
  cases h : e.clears D <;> cases e <;> simp [onLine, h]

/-- A call of the other end adds to the bytes in the UART or takes the first of them, and leaves it
enabled if it was. -/
theorem onLine_moves {u u' : UART} {e : UART.Event} (hline : OnLine e.1)
    (hcall : UART.calls.step u e u') : u'.enabled = u.enabled ∧
      UART.popped [e] ++ (u'.txFifo ++ u'.rxFifo) = u.txFifo ++ u.rxFifo ++ UART.pushed [e] := by
  obtain ⟨o, r⟩ := e
  obtain ⟨rfl, rfl⟩ := Prod.mk.inj ((u.call_body o).symm.trans hcall)
  cases o with
  | pushReceivedByte byte =>
    rw [UART.returned, UART.perform, UART.pushReceivedByte]
    by_cases h : u.enabled = true
    · rw [if_neg (not_not.2 h)]
      refine ⟨rfl, ?_⟩
      show u.txFifo ++ (u.rxFifo ++ [byte]) = u.txFifo ++ u.rxFifo ++ [byte]
      rw [List.append_assoc]
    · rw [if_pos h]
      exact ⟨rfl, (List.append_nil _).symm⟩
  | popTxByte =>
    rw [UART.returned, UART.perform, UART.popTxByte]
    cases hfifo : u.txFifo with
    | nil =>
      refine ⟨rfl, ?_⟩
      show u.txFifo ++ u.rxFifo = [] ++ u.rxFifo ++ []
      rw [hfifo, List.append_nil]
    | cons byte rest => exact ⟨rfl, (List.append_nil _).symm⟩
  | _ => cases hline

theorem CPU.Echoes.line (h : c.Echoes q) {e : UART.Event}
    (hstep : (echoBoard D).step c (.line e) d) :
    ∃ q', d.Echoes q' ∧ UART.popped [e] ++ q' = q ++ UART.pushed [e] := by
  obtain ⟨hline, u, u', hu, hcall, rfl⟩ := hstep
  obtain ⟨v, hv, rfl, hlive⟩ := h.holds.uart
  obtain rfl := Option.some.inj (hu.symm.trans hv)
  obtain ⟨henabled, hmoves⟩ := onLine_moves hline hcall
  exact ⟨_, ⟨h.selected, ⟨h.holds.baud, u', rfl, rfl, fun hl => henabled.trans (hlive hl)⟩,
    h.active⟩, hmoves⟩

/-- The two FIFOs hold what has arrived and not departed yet. -/
structure Echoed (D : EchoBoard B) (es : List EchoEvent) (c : CPU Unit (EchoWorld B))
    (q : List UInt8) : Prop where
  echoes : c.Echoes q
  queue : departed D es ++ q = arrived D es

theorem Echoed.snoc (h : Echoed D es c q) {e : EchoEvent} (hstep : (echoBoard D).step c e d) :
    ∃ q', Echoed D (es ++ [e]) d q' := by
  cases e with
  | line e =>
    obtain ⟨q', hd, hmoves⟩ := h.echoes.line hstep
    have hline : onLine D (es ++ [.line e]) = onLine D es ++ [e] := onLine_snoc _
    refine ⟨q', hd, ?_⟩
    rw [departed, arrived, hline]
    exact (congrArg (· ++ _) List.filterMap_append).trans
      ((append_passes h.queue hmoves).trans List.filterMap_append.symm)
  | cpu o =>
    obtain rfl : d = c.perform (echoWorld D) o := hstep
    have hd := h.echoes.perform (D := D) o
    cases hclears : (EchoEvent.cpu o).clears D with
    | true =>
      -- the reset of a bus that the UART is on empties both FIFOs
      obtain ⟨rfl, hbus⟩ : o = .reset ∧ D.onBus = true := by
        cases o <;> simp [EchoEvent.clears] at hclears ⊢
        exact hclears
      refine ⟨[], by simpa [hbus] using hd, ?_⟩
      rw [departed, arrived, onLine_snoc, hclears]
      rfl
    | false =>
      refine ⟨q, ?_, ?_⟩
      · cases o <;> try exact hd
        simpa [show D.onBus = false from hclears] using hd
      · have hline : onLine D (es ++ [.cpu o]) = onLine D es := by simp [onLine_snoc, hclears]
        rw [departed, arrived, hline]
        exact h.queue

variable {power : PowerState} {board : B} {baseAddress : Address}
  {defaultBaudRate baudRate : UInt32} {u₀ : UART}

theorem echoed_new (hnew : UART.new baseAddress defaultBaudRate = .ok u₀) (hbaud : baudRate ≠ 0) :
    Echoed D [] (.new power ⟨board, .attachUART (some u₀), .new baudRate⟩) [] := by
  unfold UART.new at hnew
  split_ifs at hnew
  obtain rfl := Except.ok.inj hnew
  refine ⟨⟨FirmwareManager.selected_new, ⟨hbaud, _, rfl, rfl, ?_⟩, ?_⟩, rfl⟩
  · exact fun _ => UART.enabled_enable _
  · intro hlive
    cases hlive

theorem exists_echoed_of_run (hnew : UART.new baseAddress defaultBaudRate = .ok u₀)
    (hbaud : baudRate ≠ 0) (hrun : (echoBoard D).Run
      (.new power ⟨board, .attachUART (some u₀), .new baudRate⟩) es c) :
    ∃ q, Echoed D es c q :=
  hrun.history (I := fun es c => ∃ q, Echoed D es c q) ⟨[], echoed_new hnew hbaud⟩
    fun _ _ _ _ ⟨_, h⟩ hstep => h.snoc hstep

/-- **The two FIFOs are one queue.**  In every run, what has left the UART, what waits to leave it
and what has not been echoed yet are what has arrived.  No call throws, and while the firmware is
live the UART accepts every byte. -/
theorem echoed_of_run (hnew : UART.new baseAddress defaultBaudRate = .ok u₀) (hbaud : baudRate ≠ 0)
    (hrun : (echoBoard D).Run (.new power ⟨board, .attachUART (some u₀), .new baudRate⟩) es c) :
    ∃ u, c.world.uartHAL.uart = some u ∧
      departed D es ++ u.txFifo ++ u.rxFifo = arrived D es ∧
      (∀ call, (c.world.call call).2 = none) ∧
      (c.world.firmware.live = true → ∀ byte, ∃ u', u.pushReceivedByte byte = .ok u') := by
  obtain ⟨q, h⟩ := exists_echoed_of_run hnew hbaud hrun
  obtain ⟨u, hu, rfl, henabled⟩ := h.echoes.holds.uart
  refine ⟨u, hu, by rw [List.append_assoc, h.queue], fun call => (h.echoes.holds.call call).1, ?_⟩
  intro hlive byte
  exact ⟨_, if_neg (not_not.2 (henabled hlive))⟩

/-- A board whose hardware does nothing, and whose UART is not on the bus. -/
def quietBoard : EchoBoard Unit := ⟨fun b => (b, none), id, false⟩

/-- Two bytes arrive before and after the firmware is started; a third one comes too late. -/
theorem echoed_of_run_stopped : ∃ u₀ c,
    UART.new 0x1000 115200 = .ok u₀ ∧
    (echoBoard quietBoard).Run (.new .on ⟨(), .attachUART (some u₀), .new 115200⟩)
      [.line (.pushReceivedByte 65, .ok none), .cpu (.loadFirmware (some ()) "echo"), .cpu .start,
        .line (.pushReceivedByte 66, .ok none), .line (.popTxByte, .error "UART TX FIFO empty"),
        .cpu .stop, .line (.pushReceivedByte 67, .error "UART is disabled")] c ∧
    ∃ u, c.world.uartHAL.uart = some u ∧ u.txFifo ++ u.rxFifo = [65, 66] := by
  obtain ⟨u₀, hnew⟩ : ∃ u₀, UART.new 0x1000 115200 = .ok u₀ := ⟨_, rfl⟩
  obtain ⟨c, hrun⟩ : ∃ c, (echoBoard quietBoard).Run
      (.new .on ⟨(), .attachUART (some u₀), .new 115200⟩)
      [.line (.pushReceivedByte 65, .ok none), .cpu (.loadFirmware (some ()) "echo"), .cpu .start,
        .line (.pushReceivedByte 66, .ok none), .line (.popTxByte, .error "UART TX FIFO empty"),
        .cpu .stop, .line (.pushReceivedByte 67, .error "UART is disabled")] c := by
    cases hnew
    exact ⟨_, .cons ⟨trivial, _, _, rfl, rfl, rfl⟩ (.cons rfl (.cons rfl
      (.cons ⟨trivial, _, _, rfl, rfl, rfl⟩ (.cons ⟨trivial, _, _, rfl, rfl, rfl⟩
        (.cons rfl (.cons ⟨trivial, _, _, rfl, rfl, rfl⟩ (.nil _)))))))⟩
  obtain ⟨u, hu, hqueue, -⟩ := echoed_of_run hnew (by decide) hrun
  exact ⟨u₀, c, hnew, hrun, u, hu, hqueue⟩

/-- **A step echoes everything.**  Where the firmware is live on a running CPU with power, a step
whose hardware throws nothing moves all that has arrived behind what waits to leave, and counts
it. -/
theorem empties_of_run (hnew : UART.new baseAddress defaultBaudRate = .ok u₀) (hbaud : baudRate ≠ 0)
    (hrun : (echoBoard D).Run (.new power ⟨board, .attachUART (some u₀), .new baudRate⟩) es c)
    (hpower : c.power = .on) (hrunning : c.running = true) (hlive : c.world.firmware.live = true)
    (htick : (D.tick c.world.board).2 = none) :
    ∃ u u', c.world.uartHAL.uart = some u ∧
      (c.step (echoWorld D)).1.world.uartHAL.uart = some u' ∧ u'.rxFifo = [] ∧
      departed D es ++ u'.txFifo = arrived D es ∧
      (c.step (echoWorld D)).1.world.firmware =
        { c.world.firmware with
          echoCount := c.world.firmware.echoCount + .ofNat u.rxFifo.length } := by
  obtain ⟨q, h⟩ := exists_echoed_of_run hnew hbaud hrun
  let w : EchoWorld B := { c.world with board := (D.tick c.world.board).1 }
  have hw : w.Holds q := ⟨h.echoes.holds.baud, h.echoes.holds.uart⟩
  obtain ⟨u, u', hu, -, htx, hrx, hupdate⟩ := hw.update hlive
  obtain ⟨v, hv, rfl, -⟩ := hw.uart
  obtain rfl := Option.some.inj (hu.symm.trans hv)
  have hstep : (c.step (echoWorld D)).1.world = (w.call .update).1 := by
    have he : (echoWorld D).tick c.world = (w, none) := congrArg (Prod.mk _) htick
    unfold CPU.step
    rw [if_neg (not_not.2 hpower), he]
    simp only [hrunning, ↓reduceIte, FirmwareManager.update,
      FirmwareManager.callActive_of_some (h.echoes.active hlive)]
    rfl
  refine ⟨u, u', hu, ?_, hrx, by rw [htx, h.queue], ?_⟩
  · rw [hstep, EchoWorld.call, hupdate]
  · rw [hstep, EchoWorld.call, hupdate]

/-- Both bytes wait to leave after the first step. -/
theorem empties_of_run_twoBytes : ∃ u₀ c,
    UART.new 0x1000 115200 = .ok u₀ ∧
    (echoBoard quietBoard).Run (.new .on ⟨(), .attachUART (some u₀), .new 115200⟩)
      [.line (.pushReceivedByte 65, .ok none), .cpu (.loadFirmware (some ()) "echo"), .cpu .start,
        .line (.pushReceivedByte 66, .ok none)] c ∧
    ∃ u', (c.step (echoWorld quietBoard)).1.world.uartHAL.uart = some u' ∧
      u'.rxFifo = [] ∧ u'.txFifo = [65, 66] := by
  obtain ⟨u₀, hnew⟩ : ∃ u₀, UART.new 0x1000 115200 = .ok u₀ := ⟨_, rfl⟩
  obtain ⟨c, hrun, hpower, hrunning, hlive⟩ : ∃ c, (echoBoard quietBoard).Run
      (.new .on ⟨(), .attachUART (some u₀), .new 115200⟩)
      [.line (.pushReceivedByte 65, .ok none), .cpu (.loadFirmware (some ()) "echo"), .cpu .start,
        .line (.pushReceivedByte 66, .ok none)] c ∧
      c.power = .on ∧ c.running = true ∧ c.world.firmware.live = true := by
    cases hnew
    exact ⟨_, .cons ⟨trivial, _, _, rfl, rfl, rfl⟩ (.cons rfl (.cons rfl
      (.cons ⟨trivial, _, _, rfl, rfl, rfl⟩ (.nil _)))), rfl, rfl, rfl⟩
  obtain ⟨u, u', -, hu', hrx, htx, -⟩ :=
    empties_of_run hnew (by decide) hrun hpower hrunning hlive rfl
  exact ⟨u₀, c, hnew, hrun, u', hu', hrx, htx⟩

end Firmware

end EFS
