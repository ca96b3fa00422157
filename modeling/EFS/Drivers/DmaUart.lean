import EFS.Drivers.DmaFailure

/-!
# Transfers to and from the UART

A DMA transfer whose source or destination is the data register of the UART moves one byte a step
between the memory and a FIFO.  The increments are automatic: the address of the register is on the
MMIO bus and stays, that in the memory goes on.

* `steps_transfer` : the rule for transfers in which every byte finds its source and destination.
* `byte_stream` : the bytes arrive in their order, in both directions.
-/

namespace EFS

namespace Drivers

open EFS.Mmio EFS.Kernel EFS.System

/-! ### The status register of a UART -/

namespace UART

/-- The status register tells what the FIFOs hold, and whether the UART is enabled. -/
structure StatusMatches (u : UART) : Prop where
  txEmpty : u.statusRegister.read &&& statusTxEmptyBit ≠ 0 ↔ u.txFifo = []
  rxAvail : u.statusRegister.read &&& statusRxAvailBit ≠ 0 ↔ u.rxFifo ≠ []
  enabled : u.statusRegister.read &&& statusEnabledBit ≠ 0 ↔ u.enabled = true

theorem statusMatches_updateStatusRegister (u : UART) : u.updateStatusRegister.StatusMatches := by
  have htx : u.txFifo.isEmpty = true ↔ u.txFifo = [] := List.isEmpty_iff
  have hrx : u.rxFifo.isEmpty = true ↔ u.rxFifo = [] := List.isEmpty_iff
  have hbits (tx rx on : Bool) :
      let status := if tx then statusTxEmptyBit else 0
      let status := if ¬ rx then status ||| statusRxAvailBit else status
      let status := if on then status ||| statusEnabledBit else status
      (status &&& statusTxEmptyBit ≠ 0 ↔ tx = true) ∧
        (status &&& statusRxAvailBit ≠ 0 ↔ ¬ rx = true) ∧
        (status &&& statusEnabledBit ≠ 0 ↔ on = true) := by
    revert tx rx on
    decide
  obtain ⟨h₁, h₂, h₃⟩ := hbits u.txFifo.isEmpty u.rxFifo.isEmpty u.enabled
  exact ⟨h₁.trans htx, h₂.trans (not_congr hrx), h₃⟩

/-- What `writeByte` and `readByte` leave. -/
structure Follows (u u' : UART) : Prop where
  enabled : u'.enabled = u.enabled
  dataAddress : u'.dataAddress = u.dataAddress
  status : u'.StatusMatches

variable {u : UART}

theorem writeByte_follows (h : u.enabled = true) (byte : UInt8) : ∃ u',
    u.writeByte byte = .ok u' ∧ u.Follows u' ∧ u'.txFifo = u.txFifo ++ [byte] ∧
      u'.rxFifo = u.rxFifo := by
  rw [writeByte, if_neg (not_not.2 h)]
  exact ⟨_, rfl, ⟨rfl, rfl, statusMatches_updateStatusRegister _⟩, rfl, rfl⟩

theorem readByte_follows (h : u.enabled = true) {byte : UInt8} {rest : List UInt8}
    (hfifo : u.rxFifo = byte :: rest) : ∃ u',
    u.readByte = .ok (byte, u') ∧ u.Follows u' ∧ u'.rxFifo = rest ∧ u'.txFifo = u.txFifo := by
  rw [readByte, if_neg (not_not.2 h), hfifo]
  exact ⟨_, rfl, ⟨rfl, rfl, statusMatches_updateStatusRegister _⟩, rfl, rfl⟩

end UART

namespace DMAController

variable {R H Cb : Type} {dma : DMAController} {dev : Devices R H Cb}

/-! ### Transfers in which every byte arrives -/

/-- The transfer after `j` bytes. -/
def afterBytes (dma : DMAController) (j : ℕ) : DMAController :=
  { dma with
    currentSrc := if dma.srcIncrement then dma.sourceAddress + .ofNat j else dma.sourceAddress
    currentDst :=
      if dma.dstIncrement then dma.destinationAddress + .ofNat j else dma.destinationAddress
    transferredBytes := .ofNat j
    busy := true
    completed := false
    error := false }

/-- The transfer is complete. -/
def finished (dma : DMAController) : DMAController :=
  { dma.afterBytes dma.length.toNat with busy := false, completed := true }

theorem advanced_afterBytes (dma : DMAController) (j : ℕ) :
    (dma.afterBytes j).advanced = dma.afterBytes (j + 1) := by
  simp only [advanced, afterBytes, ofNat_succ]
  split_ifs <;> simp only [UInt64.add_assoc, ofNat_succ]

/-- `start` of a transfer whose first addresses are both decoded. -/
theorem start_afterBytes (hmemory : dma.memory = true) (hlength : 0 < dma.length.toNat)
    (hsrc : dma.Decoded dev dma.sourceAddress) (hdst : dma.Decoded dev dma.destinationAddress) :
    dma.start dev = (.ok true, dma.afterBytes 0, dev) := by
  have hne : ¬ dma.length = 0 := by
    intro h
    rw [h] at hlength
    exact absurd hlength (lt_irrefl 0)
  have hafter : dma.afterBytes 0 = { dma with
      currentSrc := dma.sourceAddress
      currentDst := dma.destinationAddress
      transferredBytes := 0
      busy := true
      completed := false
      error := false } := by
    simp [afterBytes]
  unfold Decoded at hsrc hdst
  rw [start, if_neg (by simp [hmemory]), if_neg hne, hafter]
  exact if_neg (by simp only [hsrc, hdst, not_true, or_self, not_false_iff])

/-! ### Between the memory and the UART -/

/-- An idle controller with automatic increments, attached to a memory, the bus and an enabled UART
that is registered on the bus. -/
structure Wired (dma : DMAController) (dev : Devices R H Cb) : Prop where
  memory : dma.memory = true
  mmioBus : dma.mmioBus = true
  uart : dma.uart = true
  idle : dma.busy = false
  automaticSrc : dma.userSetSrcIncrement = false
  automaticDst : dma.userSetDstIncrement = false
  enabled : dev.uart.enabled = true
  registered : dev.mmioBus.contains dev.uart.dataAddress = true

/-- A range of the memory with no register in it. -/
structure PlainRange (dev : Devices R H Cb) (a length : UInt64) : Prop where
  nonempty : 0 < length.toNat
  inBounds : a.toNat + length.toNat ≤ dev.memory.size
  size_lt : dev.memory.size < 2 ^ 64
  unmapped : ∀ x, InRange a length x → dev.mmioBus.contains x = false

/-- What `j` bytes have not changed, and the status of the UART after them. -/
structure Rest (dev : Devices R H Cb) (j : ℕ) (dev' : Devices R H Cb) : Prop where
  mmioBus : dev'.mmioBus = dev.mmioBus
  enabled : dev'.uart.enabled = true
  dataAddress : dev'.uart.dataAddress = dev.uart.dataAddress
  status : 0 < j → dev'.uart.StatusMatches

/-- The first `j` bytes of the memory from `a` on were sent. -/
structure Sent (dev : Devices R H Cb) (a : Address) (j : ℕ) (dev' : Devices R H Cb) : Prop
    extends Rest dev j dev' where
  memory : dev'.memory = dev.memory
  rxFifo : dev'.uart.rxFifo = dev.uart.rxFifo
  txFifo : dev'.uart.txFifo = dev.uart.txFifo ++ (dev.memory.storage.drop a.toNat).take j

/-- The first `j` received bytes were stored from `a` on. -/
structure Received (dev : Devices R H Cb) (a : Address) (j : ℕ) (dev' : Devices R H Cb) : Prop
    extends Rest dev j dev' where
  memory : dev'.memory.storage = dev.memory.storage.take a.toNat ++ dev.uart.rxFifo.take j ++
    dev.memory.storage.drop (a.toNat + j)
  rxFifo : dev'.uart.rxFifo = dev.uart.rxFifo.drop j
  txFifo : dev'.uart.txFifo = dev.uart.txFifo

variable {a length : UInt64} {j : ℕ} {dev' dev'' : Devices R H Cb}

theorem Rest.refl (h : dma.Wired dev) : Rest dev 0 dev :=
  ⟨rfl, h.enabled, rfl, fun h => absurd h (lt_irrefl 0)⟩

theorem Rest.follows (h : Rest dev j dev') (hbus : dev''.mmioBus = dev'.mmioBus)
    (huart : dev'.uart.Follows dev''.uart) : Rest dev (j + 1) dev'' :=
  ⟨hbus.trans h.mmioBus, huart.enabled.trans h.enabled, huart.dataAddress.trans h.dataAddress,
    fun _ => huart.status⟩

theorem Rest.congr (h : Rest dev j dev') (hsame : SameData dev' dev'') : Rest dev j dev'' :=
  ⟨hsame.mmioBus.trans h.mmioBus, hsame.uart ▸ h.enabled, hsame.uart ▸ h.dataAddress,
    hsame.uart ▸ h.status⟩

/-- An address of the range is one of the memory only. -/
theorem PlainRange.decoded (hr : PlainRange dev a length) (h : dma.Wired dev)
    (hrest : Rest dev j dev') {i : ℕ} (hi : i < length.toNat) :
    (a + .ofNat i).toNat = a.toNat + i ∧ dma.Unmapped dev' (a + .ofNat i) := by
  have hin := hr.inBounds
  have hsize := hr.size_lt
  have hi' : (a + .ofNat i).toNat = a.toNat + i := toNat_add_ofNat (by omega)
  have hfree : dev.mmioBus.contains (a + .ofNat i) = false := by
    refine hr.unmapped _ ?_
    unfold InRange
    omega
  refine ⟨hi', decide_eq_false ?_, decide_eq_false ?_⟩
  · -- the data register is on the bus
    rintro ⟨-, heq⟩
    rw [heq, hrest.dataAddress, h.registered] at hfree
    cases hfree
  · rw [hrest.mmioBus, hfree]
    exact fun h => Bool.false_ne_true h.2

theorem PlainRange.first (hr : PlainRange dev a length) (h : dma.Wired dev) :
    dma.Unmapped dev a ∧ dma.Decoded dev a := by
  have hfirst : a + .ofNat 0 = a := UInt64.add_zero a
  obtain ⟨-, hunmapped⟩ := hr.decoded h (.refl h) hr.nonempty
  rw [hfirst] at hunmapped
  have hin : a.toNat + length.toNat ≤ dev.memory.storage.length := hr.inBounds
  have hpos := hr.nonempty
  refine ⟨hunmapped, .inr (.inr ?_)⟩
  exact decide_eq_true ⟨h.memory, decide_eq_true (by omega)⟩

theorem Rest.isUartData (h : Rest dev j dev') (huart : dma.uart = true) :
    dma.isUartData dev' dev.uart.dataAddress = true :=
  decide_eq_true ⟨huart, h.dataAddress.symm⟩

theorem Sent.congr (h : Sent dev a j dev') (hsame : SameData dev' dev'') : Sent dev a j dev'' :=
  ⟨h.toRest.congr hsame, hsame.memory.trans h.memory, hsame.uart ▸ h.rxFifo, hsame.uart ▸ h.txFifo⟩

theorem Received.congr (h : Received dev a j dev') (hsame : SameData dev' dev'') :
    Received dev a j dev'' :=
  ⟨h.toRest.congr hsame, hsame.memory ▸ h.memory, hsame.uart ▸ h.rxFifo, hsame.uart ▸ h.txFifo⟩

theorem set_take_append_drop {l r : List UInt8} {a : ℕ} {byte : UInt8} (h : a + j < l.length)
    (hr : r[j]? = some byte) :
    (l.take a ++ r.take j ++ l.drop (a + j)).set (a + j) byte =
      l.take a ++ r.take (j + 1) ++ l.drop (a + (j + 1)) := by
  have hlength : (l.take a ++ r.take j).length = a + j := by
    have hj := (List.getElem?_eq_some_iff.1 hr).1
    rw [List.length_append, List.length_take, List.length_take]
    omega
  rw [List.set_append_right _ _ hlength.le, hlength, Nat.sub_self, List.drop_eq_getElem_cons h,
    List.set_cons_zero, List.take_add_one, hr]
  simp [Nat.add_assoc]

/-- The increment of an address is automatic: that of a register stays. -/
theorem Wired.configure (h : dma.Wired dev) (src dst length : UInt64) : ∃ conf,
    dma.configure dev src dst length = (true, conf) ∧ conf.Wired dev ∧ conf.sourceAddress = src ∧
      conf.destinationAddress = dst ∧ conf.length = length ∧
      (conf.srcIncrement = true ↔ conf.Unmapped dev src) ∧
      (conf.dstIncrement = true ↔ conf.Unmapped dev dst) := by
  rw [DMAController.configure, if_neg (by simp [h.idle])]
  refine ⟨_, rfl, ⟨h.memory, h.mmioBus, h.uart, rfl, h.automaticSrc, h.automaticDst, h.enabled,
    h.registered⟩, rfl, rfl, rfl, ?_, ?_⟩
  · simp [h.automaticSrc, h.uart, h.mmioBus, Unmapped, isUartData, isMmioReg]
  · simp [h.automaticDst, h.uart, h.mmioBus, Unmapped, isUartData, isMmioReg]

/-! ### One byte -/

variable [DecidableEq R] {noop : Cb}

/-- The step finds the source and the destination of a byte, and leaves `dev'`. -/
def Moves (dma : DMAController) (dev dev' : Devices R H Cb) : Prop :=
  ∃ byte dev₁, dma.fetch dev dma.currentSrc = .ok (some (byte, dev₁)) ∧
    dma.deposit dev₁ dma.currentDst byte = .ok (some dev')

theorem step_of_moves (hj : j < dma.length.toNat)
    (h : (dma.afterBytes j).Moves dev dev') :
    (dma.afterBytes j).step dev noop = (dma.afterBytes (j + 1)).complete dev' noop := by
  obtain ⟨byte, dev₁, hfetch, hdeposit⟩ := h
  have hbusy : (dma.afterBytes j).busy = true := rfl
  have hlength : ¬ (dma.afterBytes j).length ≤ (dma.afterBytes j).transferredBytes :=
    not_length_le hj
  rw [step, if_neg (not_not.2 hbusy), if_neg hlength, hfetch]
  simp only [hdeposit, advanced_afterBytes]

section

variable {I : ℕ → Devices R H Cb → Prop} (h₀ : I 0 dev)
  (hstep : ∀ j dev₁, j < dma.length.toNat → I j dev₁ →
    ∃ dev₂, (dma.afterBytes j).Moves dev₁ dev₂ ∧ I (j + 1) dev₂)

include h₀ hstep

variable (noop) in
theorem steps_afterBytes {n : ℕ} (hn : n < dma.length.toNat) :
    ∃ dev', steps noop n (dma.afterBytes 0) dev = (dma.afterBytes n, dev') ∧ I n dev' := by
  induction n with
  | zero => exact ⟨dev, rfl, h₀⟩
  | succ n ih =>
    obtain ⟨dev₁, hsteps, hI⟩ := ih (by omega)
    obtain ⟨dev₂, hmoves, hI'⟩ := hstep n dev₁ (by omega) hI
    refine ⟨dev₂, ?_, hI'⟩
    rw [steps_succ, hsteps, step_of_moves (by omega) hmoves, complete_of_not_le (not_length_le hn)]

variable (noop) in
/-- **Transfer rule.**  If every byte finds its source and its destination, under an invariant of
the devices, then the transfer takes a step for each byte, and ends where the invariant says. -/
theorem steps_transfer (hlength : 0 < dma.length.toNat) :
    (∀ n, n < dma.length.toNat → (steps noop n (dma.afterBytes 0) dev).1 = dma.afterBytes n) ∧
      (steps noop dma.length.toNat (dma.afterBytes 0) dev).1 = dma.finished ∧
      ∃ dev', SameData dev' (steps noop dma.length.toNat (dma.afterBytes 0) dev).2 ∧
        I dma.length.toNat dev' := by
  refine ⟨?_, ?_⟩
  · intro n hn
    obtain ⟨dev', hsteps, -⟩ := steps_afterBytes noop h₀ hstep hn
    rw [hsteps]
  · -- the step of the last byte completes the transfer
    obtain ⟨n, hn⟩ := Nat.exists_eq_succ_of_ne_zero hlength.ne'
    obtain ⟨dev₁, hsteps, hI⟩ := steps_afterBytes noop (n := n) h₀ hstep (by omega)
    obtain ⟨dev₂, hmoves, hI'⟩ := hstep n dev₁ (by omega) hI
    have hlast : (dma.afterBytes (n + 1)).length ≤ (dma.afterBytes (n + 1)).transferredBytes := by
      show dma.length ≤ .ofNat (n + 1)
      rw [← Nat.succ_eq_add_one, ← hn, UInt64.ofNat_toNat]
      exact UInt64.le_refl _
    rw [finished, hn, steps_succ, hsteps, step_of_moves (by omega) hmoves]
    have hcomplete : _ ∧ SameData dev₂ _ := complete_of_le noop hlast
    exact ⟨hcomplete.1, dev₂, hcomplete.2, hI'⟩

end

/-- A byte of the memory is sent. -/
theorem Sent.step (h : Sent dev dma.sourceAddress j dev') (hw : dma.Wired dev)
    (hr : PlainRange dev dma.sourceAddress dma.length)
    (hdst : dma.destinationAddress = dev.uart.dataAddress) (hsrcInc : dma.srcIncrement = true)
    (hdstInc : dma.dstIncrement = false) (hj : j < dma.length.toNat) :
    ∃ dev'', (dma.afterBytes j).Moves dev' dev'' ∧ Sent dev dma.sourceAddress (j + 1) dev'' := by
  have hin : dma.sourceAddress.toNat + dma.length.toNat ≤ dev.memory.storage.length := hr.inBounds
  obtain ⟨hsrc, hunmapped⟩ := hr.decoded hw h.toRest hj
  have hcurrentSrc : (dma.afterBytes j).currentSrc = dma.sourceAddress + .ofNat j := if_pos hsrcInc
  have hcurrentDst : (dma.afterBytes j).currentDst = dev.uart.dataAddress := by
    simp only [afterBytes, hdstInc, hdst]
    rfl
  obtain ⟨byte, hbyte⟩ : ∃ byte, dev.memory.storage[dma.sourceAddress.toNat + j]? = some byte :=
    ⟨_, List.getElem?_eq_getElem (by omega)⟩
  obtain ⟨u', hwrite, hfollows, htx, hrx⟩ := UART.writeByte_follows h.enabled byte
  refine ⟨{ dev' with uart := u' }, ⟨byte, dev', ?_, ?_⟩, h.toRest.follows rfl hfollows, h.memory,
    hrx.trans h.rxFifo, ?_⟩
  · rw [hcurrentSrc]
    exact fetch_memory hunmapped hw.memory (by rw [h.memory, hsrc, hbyte])
  · have hdata : (dma.afterBytes j).isUartData dev' dev.uart.dataAddress = true :=
      h.toRest.isUartData hw.uart
    rw [hcurrentDst, deposit, if_pos hdata, hwrite]
    rfl
  · rw [htx, h.txFifo, List.append_assoc, List.take_add_one, List.getElem?_drop, hbyte]
    rfl

/-- A received byte is stored. -/
theorem Received.step (h : Received dev dma.destinationAddress j dev') (hw : dma.Wired dev)
    (hr : PlainRange dev dma.destinationAddress dma.length)
    (hsrc : dma.sourceAddress = dev.uart.dataAddress) (hsrcInc : dma.srcIncrement = false)
    (hdstInc : dma.dstIncrement = true) (hj : j < dma.length.toNat)
    (hfifo : dma.length.toNat ≤ dev.uart.rxFifo.length) :
    ∃ dev'', (dma.afterBytes j).Moves dev' dev'' ∧
      Received dev dma.destinationAddress (j + 1) dev'' := by
  have hin : dma.destinationAddress.toNat + dma.length.toNat ≤ dev.memory.storage.length :=
    hr.inBounds
  have hcurrentSrc : (dma.afterBytes j).currentSrc = dev.uart.dataAddress := by
    simp only [afterBytes, hsrcInc, hsrc]
    rfl
  have hcurrentDst : (dma.afterBytes j).currentDst = dma.destinationAddress + .ofNat j :=
    if_pos hdstInc
  obtain ⟨byte, hbyte⟩ : ∃ byte, dev.uart.rxFifo[j]? = some byte :=
    ⟨_, List.getElem?_eq_getElem (by omega)⟩
  -- the next byte is the first one that is left in the FIFO
  have hcons : dev'.uart.rxFifo = byte :: dev.uart.rxFifo.drop (j + 1) := by
    obtain ⟨hlt, heq⟩ := List.getElem?_eq_some_iff.1 hbyte
    rw [h.rxFifo, List.drop_eq_getElem_cons hlt, heq]
  obtain ⟨u', hread, hfollows, hrx, htx⟩ := UART.readByte_follows h.enabled hcons
  have hrest : Rest dev (j + 1) { dev' with uart := u' } := h.toRest.follows rfl hfollows
  obtain ⟨hdst, hunmapped⟩ := hr.decoded hw hrest hj
  have hsize : dev'.memory.size = dev.memory.storage.length := by
    rw [Memory.size, h.memory, List.length_append, List.length_append, List.length_take,
      List.length_take, List.length_drop]
    omega
  refine ⟨{ dev' with uart := u', memory := ⟨dev'.memory.storage.set
    (dma.destinationAddress.toNat + j) byte⟩ }, ⟨byte, { dev' with uart := u' }, ?_, ?_⟩,
    ⟨hrest.mmioBus, hrest.enabled, hrest.dataAddress, hrest.status⟩, ?_, hrx,
    htx.trans h.txFifo⟩
  · have hdata : (dma.afterBytes j).isUartData dev' dev.uart.dataAddress = true :=
      h.toRest.isUartData hw.uart
    rw [hcurrentSrc, fetch_uart hdata, hread]
    rfl
  · rw [hcurrentDst, ← hdst]
    refine deposit_memory hunmapped hw.memory ?_ byte
    rw [hdst]
    show _ < dev'.memory.size
    omega
  · show dev'.memory.storage.set _ byte = _
    rw [h.memory]
    exact set_take_append_drop (by omega) hbyte

/-! ### The whole transfer -/

/-- The transfer takes a step for each of its bytes. -/
structure TakesSteps (noop : Cb) (dev : Devices R H Cb) (started : DMAController) (n : ℕ) :
    Prop where
  underway : ∀ i, i < n → (steps noop i started dev).1.busy = true ∧
    (steps noop i started dev).1.completed = false
  ended : (steps noop n started dev).1.busy = false
  completed : (steps noop n started dev).1.completed = true
  error : (steps noop n started dev).1.error = false
  transferredBytes : (steps noop n started dev).1.transferredBytes.toNat = n

/-- A transfer whose steps keep an invariant. -/
theorem takesSteps_of_moves {I : ℕ → Devices R H Cb → Prop} (noop : Cb)
    (hlength : 0 < dma.length.toNat) (h₀ : I 0 dev)
    (hcongr : ∀ j dev₁ dev₂, I j dev₁ → SameData dev₁ dev₂ → I j dev₂)
    (hstep : ∀ j dev₁, j < dma.length.toNat → I j dev₁ →
      ∃ dev₂, (dma.afterBytes j).Moves dev₁ dev₂ ∧ I (j + 1) dev₂) :
    TakesSteps noop dev (dma.afterBytes 0) dma.length.toNat ∧
      I dma.length.toNat (steps noop dma.length.toNat (dma.afterBytes 0) dev).2 := by
  obtain ⟨hunderway, hfinished, dev', hsame, hI⟩ := steps_transfer noop h₀ hstep hlength
  refine ⟨⟨?_, ?_, ?_, ?_, ?_⟩, hcongr _ dev' _ hI hsame⟩
  · intro i hi
    rw [hunderway i hi]
    exact ⟨rfl, rfl⟩
  · rw [hfinished]
    rfl
  · rw [hfinished]
    rfl
  · rw [hfinished]
    rfl
  · rw [hfinished]
    show (UInt64.ofNat dma.length.toNat).toNat = _
    rw [UInt64.ofNat_toNat]

/-- From the memory to the UART. -/
theorem memory_to_uart (h : dma.Wired dev) (hr : PlainRange dev a length) (noop : Cb) :
    (dma.configure dev a dev.uart.dataAddress length).1 = true ∧ ∃ started,
      (dma.configure dev a dev.uart.dataAddress length).2.start dev = (.ok true, started, dev) ∧
        TakesSteps noop dev started length.toNat ∧
          Sent dev a length.toNat (steps noop length.toNat started dev).2 := by
  obtain ⟨conf, hconf, hwired, rfl, hdst, rfl, hsrcInc, hdstInc⟩ :=
    h.configure a dev.uart.dataAddress length
  obtain ⟨hunmapped, hdecoded⟩ := hr.first hwired
  have hdata := (Rest.refl hwired).isUartData hwired.uart
  have hstays : conf.dstIncrement = false := by
    refine Bool.eq_false_iff.2 fun hinc => ?_
    exact Bool.false_ne_true ((hdstInc.1 hinc).1.symm.trans hdata)
  rw [hconf]
  refine ⟨rfl, conf.afterBytes 0, start_afterBytes hwired.memory hr.nonempty hdecoded ?_, ?_⟩
  · rw [hdst]
    exact .inl hdata
  · refine takesSteps_of_moves noop hr.nonempty
      ⟨.refl hwired, rfl, rfl, (List.append_nil _).symm⟩ (fun _ _ _ => Sent.congr) ?_
    intro j dev₁ hj hI
    exact hI.step hwired hr hdst (hsrcInc.2 hunmapped) hstays hj

/-- From the UART to the memory. -/
theorem uart_to_memory (h : dma.Wired dev) (hr : PlainRange dev a length) (noop : Cb)
    (hfifo : length.toNat ≤ dev.uart.rxFifo.length) :
    (dma.configure dev dev.uart.dataAddress a length).1 = true ∧ ∃ started,
      (dma.configure dev dev.uart.dataAddress a length).2.start dev = (.ok true, started, dev) ∧
        TakesSteps noop dev started length.toNat ∧
          Received dev a length.toNat (steps noop length.toNat started dev).2 := by
  obtain ⟨conf, hconf, hwired, hsrc, rfl, rfl, hsrcInc, hdstInc⟩ :=
    h.configure dev.uart.dataAddress a length
  obtain ⟨hunmapped, hdecoded⟩ := hr.first hwired
  have hdata := (Rest.refl hwired).isUartData hwired.uart
  have hstays : conf.srcIncrement = false := by
    refine Bool.eq_false_iff.2 fun hinc => ?_
    exact Bool.false_ne_true ((hsrcInc.1 hinc).1.symm.trans hdata)
  rw [hconf]
  refine ⟨rfl, conf.afterBytes 0, start_afterBytes hwired.memory hr.nonempty ?_ hdecoded, ?_⟩
  · rw [hsrc]
    exact .inl hdata
  · refine takesSteps_of_moves noop hr.nonempty
      ⟨.refl hwired, by simp, rfl, rfl⟩ (fun _ _ _ => Received.congr) ?_
    intro j dev₁ hj hI
    exact hI.step hwired hr hsrc hstays (hdstInc.2 hunmapped) hj hfifo

/-- **The byte stream of a transfer.**  Bytes from the memory follow what the transmit FIFO holds,
and the first bytes of the receive FIFO arrive in the memory, in their order, one in each step. -/
theorem byte_stream (h : dma.Wired dev) (hr : PlainRange dev a length) (noop : Cb) :
    ((dma.configure dev a dev.uart.dataAddress length).1 = true ∧ ∃ started,
      (dma.configure dev a dev.uart.dataAddress length).2.start dev = (.ok true, started, dev) ∧
        TakesSteps noop dev started length.toNat ∧
          Sent dev a length.toNat (steps noop length.toNat started dev).2) ∧
    (length.toNat ≤ dev.uart.rxFifo.length →
      (dma.configure dev dev.uart.dataAddress a length).1 = true ∧ ∃ started,
        (dma.configure dev dev.uart.dataAddress a length).2.start dev = (.ok true, started, dev) ∧
          TakesSteps noop dev started length.toNat ∧
            Received dev a length.toNat (steps noop length.toNat started dev).2) :=
  ⟨memory_to_uart h hr noop, uart_to_memory h hr noop⟩

/-- Six bytes of memory, and a UART on the bus that holds bytes in both FIFOs. -/
def wiredUart : Devices Empty Unit Unit :=
  { sixBytes with
    mmioBus := (MMIOBus.empty.registerRegister 0x40003000 (.inl .data)).2
    uart := { sixBytes.uart.enable with txFifo := [1], rxFifo := [7, 8, 9] } }

/-- Two bytes in each direction. -/
theorem byte_stream_wiredUart :
    (∃ started, ((new true true true true).configure wiredUart 3 0x40003000 2).2.start wiredUart =
        (.ok true, started, wiredUart) ∧
      (steps () 2 started wiredUart).2.uart.txFifo = [1, 13, 14]) ∧
    ∃ started, ((new true true true true).configure wiredUart 0x40003000 3 2).2.start wiredUart =
        (.ok true, started, wiredUart) ∧
      (steps () 2 started wiredUart).2.memory.storage = [10, 11, 12, 7, 8, 15] := by
  have hwired : (new true true true true).Wired wiredUart :=
    ⟨rfl, rfl, rfl, rfl, rfl, rfl, by decide, by decide⟩
  have hrange : PlainRange wiredUart 3 2 := by
    refine ⟨by decide, by decide, by decide, ?_⟩
    intro x hx
    have hne : x ≠ 0x40003000 := by
      rintro rfl
      revert hx
      unfold InRange
      decide
    simp [wiredUart, MMIOBus.registerRegister, MMIOBus.contains, MMIOBus.empty, hne]
  obtain ⟨⟨-, sent, hsent, -, hto⟩, hfrom⟩ := byte_stream hwired hrange ()
  obtain ⟨-, received, hreceived, -, hfrom⟩ := hfrom (by decide)
  exact ⟨⟨sent, hsent, hto.txFifo.trans (by decide)⟩,
    received, hreceived, hfrom.memory.trans (by decide)⟩

end DMAController

end Drivers

end EFS
