import EFS.Drivers.DmaFootprint
import EFS.Kernel.Clients

/-!
# Transfers that go on by themselves

How many steps a memory-to-memory transfer still takes, what it has copied when it is over, and
which of its steps signals the completion.

* `left_after` : each step moves one byte.
* `rounds_alone` : the memory after some steps of a controller that is alone.
* `step_interrupts` : the step that moves the last byte makes the line pending, and no other one.
-/

namespace EFS

namespace Drivers

open EFS.Mmio EFS.Kernel EFS.System

namespace DMAController

variable {R H Cb : Type} {dma : DMAController} {dev : Devices R H Cb} {noop : Cb}

/-- How many bytes are still to be moved. -/
def left (dma : DMAController) : ℕ :=
  if dma.busy then dma.length.toNat - dma.transferredBytes.toNat else 0

/-- The next step moves the last byte. -/
def Completes (dma : DMAController) : Prop := dma.busy = true ∧ dma.next.busy = false

instance (dma : DMAController) : Decidable dma.Completes := inferInstanceAs (Decidable (_ ∧ _))

theorem busy_iff_left (h : dma.BytesLeft) : dma.busy = true ↔ 0 < dma.left := by
  unfold left
  split_ifs with hbusy
  · have hlt := UInt64.lt_iff_toNat_lt.1 (h hbusy)
    exact iff_of_true hbusy (by omega)
  · exact iff_of_false hbusy (lt_irrefl 0)

theorem left_next (h : dma.BytesLeft) : dma.next.left = dma.left - 1 := by
  by_cases hbusy : dma.busy = true
  · have hlt := UInt64.lt_iff_toNat_lt.1 (h hbusy)
    have hmoved : dma.advanced.transferredBytes.toNat = dma.transferredBytes.toNat + 1 :=
      toNat_moved (h hbusy)
    have hlength : dma.advanced.length = dma.length := rfl
    have hleft : dma.left = dma.length.toNat - dma.transferredBytes.toNat := if_pos hbusy
    rw [next, if_pos hbusy, hleft]
    split_ifs with hle
    · have hle : dma.length.toNat ≤ dma.advanced.transferredBytes.toNat := hle
      have hzero : { dma.advanced with busy := false, completed := true }.left = 0 := rfl
      omega
    · have hadvanced : dma.advanced.left =
        dma.length.toNat - dma.advanced.transferredBytes.toNat := if_pos hbusy
      omega
  · rw [next, if_neg hbusy, left, if_neg hbusy]

theorem left_after {dma : DMAController} (h : dma.InProgress) (n : ℕ) :
    (dma.after n).left = dma.left - n ∧ (dma.after n).InProgress := by
  induction n with
  | zero => exact ⟨rfl, h⟩
  | succ n ih =>
    obtain ⟨hleft, hprogress⟩ := ih
    rw [after_succ, left_next hprogress.left, hleft]
    exact ⟨Nat.sub_sub .., inProgress_next hprogress⟩

theorem completes_iff_left (h : dma.InProgress) : dma.Completes ↔ dma.left = 1 := by
  have hnext := busy_iff_left (inProgress_next h).left
  rw [left_next h.left] at hnext
  rw [Completes, busy_iff_left h.left, ← Bool.not_eq_true, hnext]
  omega

/-- What never changes in a transfer. -/
structure SameSetup (dma dma' : DMAController) : Prop where
  interruptController : dma'.interruptController = dma.interruptController
  interruptId : dma'.interruptId = dma.interruptId
  sourceAddress : dma'.sourceAddress = dma.sourceAddress
  destinationAddress : dma'.destinationAddress = dma.destinationAddress
  length : dma'.length = dma.length
  srcIncrement : dma'.srcIncrement = dma.srcIncrement
  dstIncrement : dma'.dstIncrement = dma.dstIncrement

theorem sameSetup_next (dma : DMAController) : dma.SameSetup dma.next := by
  unfold next
  split_ifs <;> exact ⟨rfl, rfl, rfl, rfl, rfl, rfl, rfl⟩

theorem sameSetup_after (dma : DMAController) (n : ℕ) : dma.SameSetup (dma.after n) := by
  induction n with
  | zero => exact ⟨rfl, rfl, rfl, rfl, rfl, rfl, rfl⟩
  | succ n ih =>
    have hnext := (dma.after n).sameSetup_next
    rw [after_succ]
    exact ⟨hnext.interruptController.trans ih.interruptController,
      hnext.interruptId.trans ih.interruptId, hnext.sourceAddress.trans ih.sourceAddress,
      hnext.destinationAddress.trans ih.destinationAddress, hnext.length.trans ih.length,
      hnext.srcIncrement.trans ih.srcIncrement, hnext.dstIncrement.trans ih.dstIncrement⟩

theorem completed_after {dma : DMAController} (hbusy : dma.busy = true) (n : ℕ) :
    (dma.after n).busy = true ∨ (dma.after n).completed = true := by
  induction n with
  | zero => exact .inl hbusy
  | succ n ih =>
    rw [after_succ, next]
    split_ifs with hagain hle
    · exact .inr rfl
    · exact .inl hagain
    · exact .inr (ih.resolve_left hagain)

/-- Where a transfer is after `n` more bytes. -/
theorem current_after {dma : DMAController} (h : dma.InProgress) (hsrc : dma.srcIncrement = true)
    (hdst : dma.dstIncrement = true) {n : ℕ} (hn : n < dma.left) :
    (dma.after n).currentSrc.toNat = dma.currentSrc.toNat + n ∧
      (dma.after n).currentDst.toNat = dma.currentDst.toNat + n := by
  obtain ⟨hleft, hprogress⟩ := left_after h n
  have hsame := dma.sameSetup_after n
  have hbusy : dma.busy = true := (busy_iff_left h.left).2 (Nat.zero_lt_of_lt hn)
  have hbusy' : (dma.after n).busy = true := (busy_iff_left hprogress.left).2 (by omega)
  have hlt := UInt64.lt_iff_toNat_lt.1 (h.left hbusy)
  have hlt' := UInt64.lt_iff_toNat_lt.1 (hprogress.left hbusy')
  have hmoved : (dma.after n).transferredBytes.toNat = dma.transferredBytes.toNat + n := by
    rw [left, if_pos hbusy', left, if_pos hbusy, hsame.length] at hleft
    rw [hsame.length] at hlt'
    rw [left, if_pos hbusy] at hn
    omega
  have hstart := And.intro (h.currentSrc hbusy) (h.currentDst hbusy)
  have hcurrent := And.intro (hprogress.currentSrc hbusy') (hprogress.currentDst hbusy')
  rw [hsame.sourceAddress, hsame.destinationAddress, hsame.srcIncrement, hsame.dstIncrement, hsrc,
    hdst, hmoved] at hcurrent
  rw [hsrc, hdst] at hstart
  simp only [↓reduceIte] at hstart hcurrent
  omega

/-- A controller that is alone copies its bytes forward. -/
theorem rounds_alone {D : Type} (f : D → DMAController) (d : D) (h : (f d).InProgress)
    (hsrc : (f d).srcIncrement = true) (hdst : (f d).dstIncrement = true) (m : Memory) (n : ℕ) :
    rounds (fun k d => ((f d).after k).effect) [d] m n =
      ⟨forwardCopy (f d).currentSrc.toNat (f d).currentDst.toNat (min n (f d).left) m.storage⟩ := by
  induction n with
  | zero =>
    rw [Nat.zero_min]
    rfl
  | succ n ih =>
    obtain ⟨hleft, hprogress⟩ := left_after h n
    have hround : rounds (fun k d => ((f d).after k).effect) [d] m (n + 1) =
        ((f d).after n).effect (rounds (fun k d => ((f d).after k).effect) [d] m n) := rfl
    rw [hround, ih, effect]
    by_cases hn : n < (f d).left
    · obtain ⟨hs, ht⟩ := current_after h hsrc hdst hn
      rw [if_pos ((busy_iff_left hprogress.left).2 (by omega)), hs, ht, Nat.min_eq_left hn.le,
        Nat.min_eq_left hn]
      rfl
    · rw [if_neg (mt (busy_iff_left hprogress.left).1 (by omega)), Nat.min_eq_right (not_lt.1 hn),
        Nat.min_eq_right ((not_lt.1 hn).trans (Nat.le_succ n))]

/-! ### The completion interrupt -/

theorem completes_iff (hbusy : dma.busy = true) :
    dma.Completes ↔ dma.advanced.length ≤ dma.advanced.transferredBytes := by
  have hadvanced : dma.advanced.busy = true := hbusy
  rw [Completes, next, if_pos hbusy]
  split_ifs with hle
  · exact iff_of_true ⟨hbusy, rfl⟩ hle
  · exact iff_of_false (fun h => absurd (hadvanced.symm.trans h.2) Bool.noConfusion) hle

variable (noop) in
/-- Within the memory, a step ends with `complete`. -/
theorem step_eq_complete [DecidableEq R] (h : dma.Ready dev) (hbusy : dma.busy = true) :
    ∃ memory, dma.step dev noop = dma.advanced.complete { dev with memory } noop := by
  obtain ⟨hm, hprogress, -⟩ := h
  obtain ⟨-, hsrc⟩ := currentSrc_mem hprogress hbusy
  obtain ⟨-, hdst⟩ := currentDst_mem hprogress hbusy
  have hsrc' : dma.currentSrc.toNat < dev.memory.storage.length := lt_of_lt_of_le hsrc hm.src_end
  have hdst' : dma.currentDst.toNat < dev.memory.size := lt_of_lt_of_le hdst hm.dst_end
  have hfetch := fetch_memory (hm.src_unmapped _ (currentSrc_mem hprogress hbusy)) hm.memory
    (List.getElem?_eq_getElem hsrc')
  have hdeposit := deposit_memory (hm.dst_unmapped _ (currentDst_mem hprogress hbusy)) hm.memory
    hdst' dev.memory.storage[dma.currentSrc.toNat]
  have hstep : dma.step dev noop = dma.advanced.complete { dev with
      memory := ⟨dev.memory.storage.set dma.currentDst.toNat
        dev.memory.storage[dma.currentSrc.toNat]⟩ } noop := by
    rw [step_of_busy hbusy hprogress.left, hfetch]
    simp only [hdeposit]
  exact ⟨_, hstep⟩

variable (dev) in
theorem triggerInterrupt_of_registered {line : Fin maxInterrupts}
    (hic : dma.interruptController = true) (hid : dma.interruptId.toNat = line)
    (hregistered : dev.interruptController.registered line = true) :
    dma.triggerInterrupt dev = ({ dev with
      interruptController := dev.interruptController.withPending
        (dev.interruptController.pendingRegister.read ||| InterruptController.bit line) },
      none) := by
  simp only [triggerInterrupt, hic, ↓reduceIte,
    InterruptController.trigger_of_registered hid hregistered]

variable (noop) in
/-- A step makes the line of the controller pending iff it moves the last byte. -/
theorem step_interrupts [DecidableEq R] {line : Fin maxInterrupts} (h : dma.Ready dev)
    (hic : dma.interruptController = true) (hid : dma.interruptId.toNat = line)
    (hregistered : dev.interruptController.registered line = true) :
    ∃ v, (dma.step dev noop).1.2.interruptController = dev.interruptController.withPending v ∧
      ∀ i, v &&& InterruptController.bit i ≠ 0 ↔
        dev.interruptController.Pending i ∨ line = i ∧ dma.Completes := by
  by_cases hbusy : dma.busy = true
  · obtain ⟨memory, hstep⟩ := step_eq_complete noop h hbusy
    rw [hstep, complete]
    by_cases hle : dma.advanced.length ≤ dma.advanced.transferredBytes
    · set finished : DMAController := { dma.advanced with busy := false, completed := true }
      have hattached : finished.interruptController = true := hic
      have htrigger := triggerInterrupt_of_registered { dev with memory } hattached hid hregistered
      refine ⟨dev.interruptController.pendingRegister.read ||| InterruptController.bit line, ?_,
        fun i => (InterruptController.or_bit_ne_zero _ line i).trans ?_⟩
      · simp only [if_pos hle, htrigger]
        split_ifs <;> rfl
      · simp only [completes_iff hbusy, hle, and_true, eq_comm (a := line)]
        rfl
    · rw [if_neg hle]
      refine ⟨dev.interruptController.pendingRegister.read, rfl, fun i => ?_⟩
      simp [completes_iff hbusy, hle, InterruptController.Pending]
  · rw [step, if_pos hbusy]
    refine ⟨dev.interruptController.pendingRegister.read, rfl, fun i => ?_⟩
    simp [Completes, hbusy, InterruptController.Pending]

end DMAController

end Drivers

end EFS
