import EFS.Drivers.DmaCompletion

/-!
# Steps that move no byte

A step that can not move its byte is to change nothing and to report an error.  `step` does this for
an address that nothing decodes, but not for what the UART refuses: the exception of a UART that is
disabled, or has received nothing, leaves `step`, and the controller stays busy.  And a byte that
was taken from the UART is lost if nothing decodes its destination, as it is read first.

`allOrNothing_iff` says exactly which steps move a byte or change nothing.
-/

namespace EFS

namespace Drivers

open EFS.Mmio EFS.Kernel EFS.System

namespace DMAController

variable {R H Cb : Type}

section

variable (dma : DMAController) (dev dev' : Devices R H Cb) (address : Address)

/-- Something that the controller is attached to decodes the address. -/
def Decoded : Prop :=
  dma.isUartData dev address = true ∨ dma.isMmioReg dev address = true ∨
    dma.isMemory dev address = true

/-- The byte was read from the address; only the UART gives one away. -/
def Took (byte : UInt8) : Prop :=
  if dma.isUartData dev address then dev.uart.rxFifo = byte :: dev'.uart.rxFifo
  else dev'.uart.rxFifo = dev.uart.rxFifo ∧
    if dma.isMmioReg dev address then
      ∃ value, dev.mmioBus.read address Devices.register dev = .ok value ∧
        byte = (value &&& 0xFF).toUInt8
    else dev.memory.storage[address.toNat]? = some byte

/-- The byte was stored at the address, or sent, and nothing else in the memory or the TX FIFO has
changed. -/
def Stored (byte : UInt8) : Prop :=
  if dma.isUartData dev address then
    dev'.uart.txFifo = dev.uart.txFifo ++ [byte] ∧ dev'.memory = dev.memory
  else dev'.uart.txFifo = dev.uart.txFifo ∧
    if dma.isMmioReg dev address then
      dev'.mmioBus.read address Devices.register dev' = .ok byte.toUInt32 ∧
        dev'.memory = dev.memory
    else address.toNat < dev.memory.storage.length ∧
      dev'.memory.storage = dev.memory.storage.set address.toNat byte

/-- The registers that an access to the data register of the UART changes. -/
def UartChanges (r : UARTRegister ⊕ R) : Prop :=
  dma.isUartData dev address = true ∧ (r = .inl .data ∨ r = .inl .status)

/-- The registers that moving a byte may change. -/
def Changes (r : UARTRegister ⊕ R) : Prop :=
  dma.UartChanges dev dma.currentSrc r ∨ dma.UartChanges dev dma.currentDst r ∨
    dma.isUartData dev dma.currentDst = false ∧ dma.isMmioReg dev dma.currentDst = true ∧
      dev.mmioBus.registers dma.currentDst = some r

/-- Exactly one byte was moved, and the interrupt triggered if it was the last one. -/
structure Moved (dma' : DMAController) : Prop where
  transferredBytes : dma'.transferredBytes.toNat = dma.transferredBytes.toNat + 1
  byte : ∃ byte, dma.Took dev dev' dma.currentSrc byte ∧ dma.Stored dev dev' dma.currentDst byte
  registers : ∀ r, dma.Changes dev r ∨ dev'.register r = dev.register r
  mmioBus : dev'.mmioBus = dev.mmioBus
  interruptController : dev'.interruptController = dev.interruptController ∨
    dma.length ≤ dma'.transferredBytes ∧ dma.interruptController = true ∧
      dev.interruptController.trigger dma.interruptId = .ok dev'.interruptController

/-- Nothing was changed, and the error is reported. -/
structure Refused (dma' : DMAController) : Prop where
  error : dma'.error = true
  busy : dma'.busy = false
  memory : dev'.memory = dev.memory
  mmioBus : dev'.mmioBus = dev.mmioBus
  registers : ∀ r, dev'.register r = dev.register r
  interruptController : dev'.interruptController = dev.interruptController
  txFifo : dev'.uart.txFifo = dev.uart.txFifo
  rxFifo : dev'.uart.rxFifo = dev.uart.rxFifo

/-- A step moves one byte or changes nothing, and throws nothing. -/
def AllOrNothing [DecidableEq R] (noop : Cb) : Prop :=
  (dma.step dev noop).2 = none ∧
    (dma.Moved dev (dma.step dev noop).1.2 (dma.step dev noop).1.1 ∨
      Refused dev (dma.step dev noop).1.2 (dma.step dev noop).1.1)

/-- The UART gives or takes the byte if it has to, and a byte that it gives is not lost. -/
def Accepted : Prop :=
  if dma.isUartData dev dma.currentSrc then
    dev.uart.enabled = true ∧ dev.uart.rxFifo ≠ [] ∧ dma.Decoded dev dma.currentDst
  else dma.Decoded dev dma.currentSrc → dma.isUartData dev dma.currentDst = true →
    dev.uart.enabled = true

end

end DMAController

/-! ### The UART -/

namespace UART

variable {u u' : UART} {byte : UInt8}

theorem readByte_ok (h : u.readByte = .ok (byte, u')) : u.enabled = true ∧
    u.rxFifo = byte :: u'.rxFifo ∧ u'.txFifo = u.txFifo ∧ u'.enabled = u.enabled ∧
      u'.dataAddress = u.dataAddress ∧
      ∀ r, r ≠ .data → r ≠ .status → u'.register r = u.register r := by
  unfold readByte at h
  split_ifs at h with henabled
  rcases hfifo : u.rxFifo with _ | ⟨first, rest⟩
  · rw [hfifo] at h
    cases h
  · rw [hfifo] at h
    obtain ⟨rfl, rfl⟩ := Prod.mk.inj (Except.ok.inj h)
    refine ⟨henabled, rfl, rfl, rfl, rfl, fun r hdata hstatus => ?_⟩
    cases r with
    | data => exact absurd rfl hdata
    | status => exact absurd rfl hstatus
    | control | baud => rfl

theorem readByte_of_ne_nil (henabled : u.enabled = true) (hfifo : u.rxFifo ≠ []) :
    ∃ byte u', u.readByte = .ok (byte, u') := by
  obtain ⟨first, rest, hcons⟩ := List.exists_cons_of_ne_nil hfifo
  rw [readByte, if_neg (not_not.2 henabled), hcons]
  exact ⟨_, _, rfl⟩

theorem writeByte_ok (henabled : u.enabled = true) (byte : UInt8) : ∃ u',
    u.writeByte byte = .ok u' ∧ u'.txFifo = u.txFifo ++ [byte] ∧ u'.rxFifo = u.rxFifo ∧
      ∀ r, r ≠ .data → r ≠ .status → u'.register r = u.register r := by
  rw [writeByte, if_neg (not_not.2 henabled)]
  refine ⟨_, rfl, rfl, rfl, fun r hdata hstatus => ?_⟩
  cases r with
  | data => exact absurd rfl hdata
  | status => exact absurd rfl hstatus
  | control | baud => rfl

end UART

namespace DMAController

variable {R H Cb : Type} {dma : DMAController} {dev : Devices R H Cb} {address : Address}

/-! ### Reading a byte -/

theorem contains_of_isMmioReg (h : dma.isMmioReg dev address = true) :
    ∃ r, dev.mmioBus.registers address = some r := by
  exact Option.isSome_iff_exists.1 (of_decide_eq_true h).2

theorem lt_of_isMemory (h : dma.isMemory dev address = true) :
    address.toNat < dev.memory.storage.length := by
  exact of_decide_eq_true (of_decide_eq_true h).2

theorem fetch_uart (h : dma.isUartData dev address = true) :
    dma.fetch dev address =
      dev.uart.readByte.map fun r => some (r.1, { dev with uart := r.2 }) := by
  rw [fetch, if_pos h]
  cases dev.uart.readByte <;> rfl

/-- What is not the UART gives its byte, and keeps it. -/
theorem fetch_decoded (huart : dma.isUartData dev address = false)
    (h : dma.Decoded dev address) : ∃ byte, dma.fetch dev address = .ok (some (byte, dev)) ∧
      ∀ dev', dev'.uart.rxFifo = dev.uart.rxFifo → dma.Took dev dev' address byte := by
  have hnot : ¬ dma.isUartData dev address = true := by simp [huart]
  by_cases hmmio : dma.isMmioReg dev address = true
  · obtain ⟨r, hr⟩ := contains_of_isMmioReg hmmio
    have hread : dev.mmioBus.read address Devices.register dev = .ok (dev.register r).read := by
      rw [MMIOBus.read, hr]
    refine ⟨((dev.register r).read &&& 0xFF).toUInt8, ?_, ?_⟩
    · rw [fetch, if_neg hnot, if_pos hmmio, hread]
      rfl
    · intro dev' hrx
      rw [Took, if_neg hnot, if_pos hmmio]
      exact ⟨hrx, _, hread, rfl⟩
  · have hmemory := (h.resolve_left hnot).resolve_left hmmio
    have hbyte := List.getElem?_eq_getElem (lt_of_isMemory hmemory)
    refine ⟨dev.memory.storage.get ⟨address.toNat, lt_of_isMemory hmemory⟩, ?_, ?_⟩
    · rw [fetch, if_neg hnot, if_neg hmmio, if_pos hmemory, Memory.read, hbyte]
      rfl
    · intro dev' hrx
      rw [Took, if_neg hnot, if_neg hmmio]
      exact ⟨hrx, hbyte⟩

theorem fetch_undecoded (h : ¬ dma.Decoded dev address) : dma.fetch dev address = .ok none := by
  unfold Decoded at h
  push Not at h
  rw [fetch, if_neg h.1, if_neg h.2.1, if_neg h.2.2]
  rfl

/-! ### Writing it -/

@[simp] theorem register_setRegister [DecidableEq R] (r : UARTRegister ⊕ R) (reg : Register) :
    (dev.setRegister r reg).register r = reg := by
  rcases r with (_ | _ | _ | _) | r
  · rfl
  · rfl
  · rfl
  · rfl
  · exact Function.update_self ..

theorem register_setRegister_of_ne [DecidableEq R] {r r' : UARTRegister ⊕ R} (h : r' ≠ r)
    (reg : Register) : (dev.setRegister r reg).register r' = dev.register r' := by
  rcases r with r | r
  · rcases r' with r' | r'
    · cases r <;> cases r' <;> first | rfl | exact absurd rfl h
    · rfl
  · rcases r' with r' | r'
    · rfl
    · exact Function.update_of_ne (fun heq => h (congrArg _ heq)) ..

theorem txFifo_setRegister [DecidableEq R] (r : UARTRegister ⊕ R) (reg : Register) :
    (dev.setRegister r reg).uart.txFifo = dev.uart.txFifo := by
  rcases r with (_ | _ | _ | _) | r <;> rfl

theorem interruptController_setRegister [DecidableEq R] (r : UARTRegister ⊕ R) (reg : Register) :
    (dev.setRegister r reg).interruptController = dev.interruptController := by
  rcases r with (_ | _ | _ | _) | r <;> rfl

theorem memory_setRegister [DecidableEq R] (r : UARTRegister ⊕ R) (reg : Register) :
    (dev.setRegister r reg).memory = dev.memory := by
  rcases r with (_ | _ | _ | _) | r <;> rfl

theorem rxFifo_setRegister [DecidableEq R] (r : UARTRegister ⊕ R) (reg : Register) :
    (dev.setRegister r reg).uart.rxFifo = dev.uart.rxFifo := by
  rcases r with (_ | _ | _ | _) | r <;> rfl

theorem mmioBus_setRegister [DecidableEq R] (r : UARTRegister ⊕ R) (reg : Register) :
    (dev.setRegister r reg).mmioBus = dev.mmioBus := by
  rcases r with (_ | _ | _ | _) | r <;> rfl

variable [DecidableEq R] {byte : UInt8}

/-- What stays as it was when a byte is written to an address. -/
structure DepositKeeps (dma : DMAController) (dev dev' : Devices R H Cb) (address : Address) :
    Prop where
  rxFifo : dev'.uart.rxFifo = dev.uart.rxFifo
  mmioBus : dev'.mmioBus = dev.mmioBus
  interruptController : dev'.interruptController = dev.interruptController
  registers : ∀ r, dma.UartChanges dev address r ∨
    (dma.isUartData dev address = false ∧ dma.isMmioReg dev address = true ∧
      dev.mmioBus.registers address = some r) ∨ dev'.register r = dev.register r

/-- What decodes the address takes the byte, unless it is a UART that is disabled. -/
theorem deposit_decoded (h : dma.Decoded dev address)
    (henabled : dma.isUartData dev address = true → dev.uart.enabled = true) (byte : UInt8) :
    ∃ dev', dma.deposit dev address byte = .ok (some dev') ∧ dma.Stored dev dev' address byte ∧
      dma.DepositKeeps dev dev' address := by
  by_cases huart : dma.isUartData dev address = true
  · obtain ⟨u', hu', htx, hrx, hregisters⟩ := UART.writeByte_ok (henabled huart) byte
    refine ⟨{ dev with uart := u' }, ?_, ?_, hrx, rfl, rfl, fun r => ?_⟩
    · rw [deposit, if_pos huart, hu']
      rfl
    · rw [Stored, if_pos huart]
      exact ⟨htx, rfl⟩
    · by_cases hr : r = .inl .data ∨ r = .inl .status
      · exact .inl ⟨huart, hr⟩
      · refine .inr (.inr ?_)
        rcases r with r | r
        · exact hregisters r (fun hr' => hr (.inl (congrArg _ hr')))
            fun hr' => hr (.inr (congrArg _ hr'))
        · rfl
  · have hnot : dma.isUartData dev address = false := Bool.eq_false_iff.2 huart
    by_cases hmmio : dma.isMmioReg dev address = true
    · obtain ⟨r, hr⟩ := contains_of_isMmioReg hmmio
      refine ⟨dev.setRegister r ((dev.register r).write byte.toUInt32), ?_, ?_,
        rxFifo_setRegister .., mmioBus_setRegister .., interruptController_setRegister ..,
        fun r' => ?_⟩
      · rw [deposit, if_neg huart, if_pos hmmio, MMIOBus.write, hr]
        rfl
      · rw [Stored, if_neg huart, if_pos hmmio, MMIOBus.read, mmioBus_setRegister, hr]
        simp only [register_setRegister, Register.read_write]
        exact ⟨txFifo_setRegister .., trivial, memory_setRegister ..⟩
      · by_cases hr' : r' = r
        · exact .inr (.inl ⟨hnot, hmmio, hr' ▸ hr⟩)
        · exact .inr (.inr (register_setRegister_of_ne hr' _))
    · -- only the memory is left
      have hmemory := (h.resolve_left huart).resolve_left hmmio
      have hlt := lt_of_isMemory hmemory
      have hvalid : dev.memory.isValidAddress address = true := decide_eq_true hlt
      refine ⟨{ dev with memory := ⟨dev.memory.storage.set address.toNat byte⟩ }, ?_, ?_, rfl, rfl,
        rfl, fun _ => .inr (.inr rfl)⟩
      · rw [deposit, if_neg huart, if_neg hmmio, if_pos hmemory, Memory.write,
          if_pos hvalid]
        rfl
      · rw [Stored, if_neg huart, if_neg hmmio]
        exact ⟨rfl, hlt, rfl⟩

theorem deposit_disabled (huart : dma.isUartData dev address = true)
    (hdisabled : ¬ dev.uart.enabled = true) (byte : UInt8) :
    dma.deposit dev address byte = .error "UART is disabled" := by
  rw [deposit, if_pos huart, UART.writeByte, if_pos hdisabled]
  rfl

theorem deposit_undecoded (h : ¬ dma.Decoded dev address) (byte : UInt8) :
    dma.deposit dev address byte = .ok none := by
  unfold Decoded at h
  push Not at h
  rw [deposit, if_neg h.1, if_neg h.2.1, if_neg h.2.2]
  rfl

/-! ### One step -/

namespace SameData

variable {dev₁ dev₂ : Devices R H Cb} (h : SameData dev₁ dev₂)

include h

omit [DecidableEq R] in
theorem register : dev₂.register = dev₁.register := by
  funext r
  cases r with
  | inl r => exact congrArg (fun u : UART => u.register r) h.uart
  | inr r => exact congrFun h.registers r

omit [DecidableEq R] in
theorem took (ht : dma.Took dev dev₁ address byte) : dma.Took dev dev₂ address byte := by
  unfold Took at ht ⊢
  rwa [h.uart]

omit [DecidableEq R] in
theorem stored (hs : dma.Stored dev dev₁ address byte) : dma.Stored dev dev₂ address byte := by
  unfold Stored MMIOBus.read at hs ⊢
  rwa [h.uart, h.mmioBus, h.memory, h.register]

end SameData

omit [DecidableEq R] in
/-- The completion triggers the line of the controller, and no other. -/
theorem complete_interruptController (dma : DMAController) (dev : Devices R H Cb) (noop : Cb)
    (hid : dma.interruptController = true → dma.interruptId.toNat < maxInterrupts) :
    (dma.complete dev noop).1.2.interruptController = dev.interruptController ∨
      dma.length ≤ (dma.complete dev noop).1.1.transferredBytes ∧
        dma.interruptController = true ∧ dev.interruptController.trigger dma.interruptId =
          .ok (dma.complete dev noop).1.2.interruptController := by
  by_cases hlength : dma.length ≤ dma.transferredBytes
  · set done : DMAController := { dma with busy := false, completed := true } with hdone
    rw [complete, if_pos hlength, ← hdone]
    by_cases hcontroller : dma.interruptController = true
    · obtain ⟨ic, hic⟩ := dev.interruptController.trigger_ok_iff.2 (hid hcontroller)
      have htrigger :
          done.triggerInterrupt dev = ({ dev with interruptController := ic }, none) := by
        simp only [triggerInterrupt, hdone, hcontroller, hic, if_true]
      simp only [htrigger, hic]
      refine .inr ⟨hlength, hcontroller, ?_⟩
      split_ifs <;> rfl
    · have htrigger : done.triggerInterrupt dev = (dev, none) := if_neg hcontroller
      simp only [htrigger]
      refine .inl ?_
      split_ifs <;> rfl
  · rw [complete_of_not_le hlength]
    exact .inl rfl

/-- What a step does with an address that nothing decodes, and no byte taken. -/
theorem allOrNothing_of_refused {noop : Cb} (h : dma.step dev noop = ((dma.failed, dev), none)) :
    dma.AllOrNothing dev noop := by
  unfold AllOrNothing
  rw [h]
  exact ⟨rfl, .inr ⟨rfl, rfl, rfl, rfl, fun _ => rfl, rfl, rfl, rfl⟩⟩

section

variable (hbusy : dma.busy = true) (hleft : dma.BytesLeft) (noop : Cb)

include hbusy hleft

theorem step_of_busy : dma.step dev noop =
    match dma.fetch dev dma.currentSrc with
    | .error e => ((dma, dev), some e)
    | .ok none => ((dma.failed, dev), none)
    | .ok (some (byte, dev)) =>
      match dma.deposit dev dma.currentDst byte with
      | .error e => ((dma, dev), some e)
      | .ok none => ((dma.failed, dev), none)
      | .ok (some dev) => dma.advanced.complete dev noop := by
  rw [step, if_neg (not_not.2 hbusy)]
  exact if_neg (UInt64.not_le.2 (hleft hbusy))

/-- A byte that is read and written is moved. -/
theorem allOrNothing_of_moved {dev₁ dev₂ : Devices R H Cb}
    (hid : dma.interruptController = true → dma.interruptId.toNat < maxInterrupts)
    (hfetch : dma.fetch dev dma.currentSrc = .ok (some (byte, dev₁)))
    (hdeposit : dma.deposit dev₁ dma.currentDst byte = .ok (some dev₂))
    (htook : dma.Took dev dev₂ dma.currentSrc byte)
    (hstored : dma.Stored dev dev₂ dma.currentDst byte)
    (hregisters : ∀ r, dma.Changes dev r ∨ dev₂.register r = dev.register r)
    (hmmio : dev₂.mmioBus = dev.mmioBus)
    (hcontroller : dev₂.interruptController = dev.interruptController) :
    dma.AllOrNothing dev noop := by
  obtain ⟨dev', thrown, hcomplete, hsame, hthrown⟩ := complete_spec dma.advanced dev₂ noop
  obtain rfl := hthrown hid
  have hstep : dma.step dev noop = dma.advanced.complete dev₂ noop := by
    rw [step_of_busy hbusy hleft, hfetch]
    simp only [hdeposit]
  have htrigger := complete_interruptController dma.advanced dev₂ noop hid
  rw [hcontroller] at htrigger
  unfold AllOrNothing
  rw [hstep]
  rw [hcomplete] at htrigger ⊢
  refine ⟨rfl, .inl ⟨?_, ⟨byte, hsame.took htook, hsame.stored hstored⟩, fun r => ?_,
    hsame.mmioBus.trans hmmio, htrigger⟩⟩
  · rw [← toNat_moved (hleft hbusy)]
    split_ifs <;> rfl
  · exact (hregisters r).imp_right (congrFun hsame.register r).trans

/-- A source that is not the UART keeps its byte, so that only the UART as the destination can be in
the way. -/
theorem allOrNothing_iff_of_not_uart (huart : dma.isUartData dev dma.currentSrc = false)
    (hid : dma.interruptController = true → dma.interruptId.toNat < maxInterrupts) :
    dma.AllOrNothing dev noop ↔ (dma.Decoded dev dma.currentSrc →
      dma.isUartData dev dma.currentDst = true → dev.uart.enabled = true) := by
  by_cases hsrc : dma.Decoded dev dma.currentSrc
  · obtain ⟨byte, hfetch, htook⟩ := fetch_decoded huart hsrc
    by_cases hdst : dma.Decoded dev dma.currentDst
    · by_cases henabled : dma.isUartData dev dma.currentDst = true → dev.uart.enabled = true
      · obtain ⟨dev₂, hdeposit, hstored, hkeeps⟩ := deposit_decoded hdst henabled byte
        refine iff_of_true (allOrNothing_of_moved hbusy hleft noop hid hfetch hdeposit
          (htook dev₂ hkeeps.rxFifo) hstored (fun r => ?_) hkeeps.mmioBus
          hkeeps.interruptController) fun _ => henabled
        exact (or_assoc.2 (hkeeps.registers r)).imp_left .inr
      · have hthrows : (dma.step dev noop).2 = some "UART is disabled" := by
          rw [Classical.not_imp] at henabled
          rw [step_of_busy hbusy hleft, hfetch]
          simp only [deposit_disabled henabled.1 henabled.2]
        refine iff_of_false ?_ fun h => henabled (h hsrc)
        intro hall
        cases hall.1.symm.trans hthrows
    · refine iff_of_true (allOrNothing_of_refused ?_)
        fun _ hdata => absurd (.inl hdata) hdst
      rw [step_of_busy hbusy hleft, hfetch]
      simp only [deposit_undecoded hdst]
  · refine iff_of_true (allOrNothing_of_refused ?_) fun h => absurd h hsrc
    rw [step_of_busy hbusy hleft, fetch_undecoded hsrc]

/-- A byte is taken from the UART before the destination is looked at. -/
theorem allOrNothing_iff_of_uart (huart : dma.isUartData dev dma.currentSrc = true)
    (hid : dma.interruptController = true → dma.interruptId.toNat < maxInterrupts) :
    dma.AllOrNothing dev noop ↔ dev.uart.enabled = true ∧ dev.uart.rxFifo ≠ [] ∧
      dma.Decoded dev dma.currentDst := by
  have hfetch := fetch_uart huart
  rcases hread : dev.uart.readByte with e | ⟨byte, u'⟩
  · -- the UART refuses
    rw [hread] at hfetch
    have hthrows : (dma.step dev noop).2 = some e := by
      rw [step_of_busy hbusy hleft, hfetch]
      rfl
    refine iff_of_false ?_ ?_
    · intro hall
      cases hall.1.symm.trans hthrows
    · intro h
      obtain ⟨byte, u', hok⟩ := UART.readByte_of_ne_nil h.1 h.2.1
      cases hread.symm.trans hok
  · obtain ⟨henabled, hfifo, htx, henabled', hdata, hregisters⟩ := UART.readByte_ok hread
    set dev₁ : Devices R H Cb := { dev with uart := u' } with hdev₁
    have hfetch₁ : dma.fetch dev dma.currentSrc = .ok (some (byte, dev₁)) := by
      rw [hfetch, hread]
      rfl
    have huart₁ (a : Address) : dma.isUartData dev₁ a = dma.isUartData dev a := by
      simp only [isUartData, hdev₁, hdata]
    have hdecoded₁ : dma.Decoded dev₁ dma.currentDst ↔ dma.Decoded dev dma.currentDst := by
      rw [Decoded, huart₁]
      rfl
    by_cases hdst : dma.Decoded dev dma.currentDst
    · obtain ⟨dev₂, hdeposit, hstored, hkeeps⟩ :=
        deposit_decoded (hdecoded₁.2 hdst) (fun _ => henabled'.trans henabled) byte
      refine iff_of_true (allOrNothing_of_moved hbusy hleft noop hid hfetch₁ hdeposit ?_ ?_
        (fun r => ?_) hkeeps.mmioBus hkeeps.interruptController)
        ⟨henabled, hfifo ▸ List.cons_ne_nil _ _, hdst⟩
      · rw [Took, if_pos huart, hkeeps.rxFifo]
        exact hfifo
      · unfold Stored at hstored ⊢
        rw [huart₁] at hstored
        exact htx ▸ hstored
      · by_cases hr : r = .inl .data ∨ r = .inl .status
        · exact .inl (.inl ⟨huart, hr⟩)
        · -- any other register is changed by the second half at most
          have hsame : dev₁.register r = dev.register r := by
            rcases r with r | r
            · exact hregisters r (fun hr' => hr (.inl (congrArg _ hr')))
                fun hr' => hr (.inr (congrArg _ hr'))
            · rfl
          have hsecond := hkeeps.registers r
          rw [UartChanges, huart₁, hsame] at hsecond
          exact (or_assoc.2 hsecond).imp_left .inr
    · refine iff_of_false ?_ fun h => hdst h.2.2
      intro hall
      have hstep : dma.step dev noop = ((dma.failed, dev₁), none) := by
        rw [step_of_busy hbusy hleft, hfetch₁]
        simp only [deposit_undecoded (fun h => hdst (hdecoded₁.1 h))]
      unfold AllOrNothing at hall
      rw [hstep] at hall
      -- the byte is gone
      rcases hall.2 with hmoved | hrefused
      · exact absurd hmoved.transferredBytes (Nat.succ_ne_self _).symm
      · have hlength := congrArg List.length (hrefused.rxFifo.trans hfifo)
        rw [List.length_cons] at hlength
        exact absurd hlength (Nat.succ_ne_self _).symm

end

/-- A busy controller moves a byte or changes nothing exactly if the UART accepts what is asked of
it, and a byte that is taken from the UART has somewhere to go. -/
theorem allOrNothing_iff (memory mmioBus interruptController uart : Bool)
    (dev : Devices R H Cb) (noop : Cb) {s : Signals R H Cb}
    (hreachable : (machine noop).Reachable
      ⟨new memory mmioBus interruptController uart, dev, []⟩ s)
    (hbusy : s.dma.busy = true)
    (hid : s.dma.interruptController = true → s.dma.interruptId.toNat < maxInterrupts) :
    s.dma.AllOrNothing s.dev noop ↔ s.dma.Accepted s.dev := by
  have hleft : s.dma.BytesLeft :=
    Signals.bytesLeft_reachable hreachable fun h => absurd h Bool.false_ne_true
  unfold Accepted
  split_ifs with huart
  · exact allOrNothing_iff_of_uart hbusy hleft noop huart hid
  · exact allOrNothing_iff_of_not_uart hbusy hleft noop (Bool.eq_false_iff.2 huart) hid

/-- The transfer of `oneByte` moves its byte. -/
theorem allOrNothing_oneByte : oneByte.dma.AllOrNothing oneByte.dev () :=
  (allOrNothing_iff true true true true sixBytes () (s := oneByte)
    ⟨[.configure 0 3 1, .start], .cons rfl (.cons rfl (.nil _))⟩ rfl fun _ => by decide).2
    (by unfold Accepted Decoded; decide)

/-- A transfer from the UART, which is disabled. -/
def fromUart : Signals Empty Unit Unit :=
  ((⟨new true true true true, sixBytes, []⟩ : Signals Empty Unit Unit).perform ()
    (.configure 0x40003000 0 1)).perform () .start

/-- Its step throws. -/
theorem not_allOrNothing_fromUart :
    (machine ()).Reachable ⟨new true true true true, sixBytes, []⟩ fromUart ∧
      fromUart.dma.busy = true ∧ fromUart.dma.interruptId.toNat < maxInterrupts ∧
      (fromUart.dma.step fromUart.dev ()).2 = some "UART is disabled" ∧
      ¬ fromUart.dma.AllOrNothing fromUart.dev () := by
  have hthrows : (fromUart.dma.step fromUart.dev ()).2 = some "UART is disabled" := by decide
  refine ⟨⟨[.configure 0x40003000 0 1, .start], .cons rfl (.cons rfl (.nil _))⟩, rfl, by decide,
    hthrows, ?_⟩
  intro hall
  cases hall.1.symm.trans hthrows

end DMAController

end Drivers

end EFS
