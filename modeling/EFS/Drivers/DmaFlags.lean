import EFS.Drivers.DmaCompletion
import EFS.LTS.Histories

/-!
# The status flags of the DMA controller

At most one of the flags `busy`, `completed` and `error` should be set (`FlagsExclusive`), and a
`start` that is refused should leave neither of the first two (`Clears`).  The first check of
`start`, that some device is attached, leaves them as they were.

* `flagsExclusive_iff` : a run keeps the flags apart iff each `start` without a device is made while
  the controller is neither busy nor completed.
* `not_flagsExclusive_detached` : a controller is busy, and in error, after its memory was detached.
-/

namespace EFS

namespace Drivers

open EFS.Mmio EFS.System

namespace DMAController

variable {R H Cb : Type}

/-- At most one flag is set, and a completed transfer has moved all of its bytes. -/
structure FlagsExclusive (dma : DMAController) : Prop where
  busy : dma.busy = true → dma.completed = false ∧ dma.error = false
  completed : dma.completed = true → dma.error = false ∧ dma.transferredBytes = dma.length

/-- No device is attached that a transfer could use. -/
def Detached (dma : DMAController) : Prop := ¬ dma.memory ∧ ¬ dma.mmioBus ∧ ¬ dma.uart

/-- What keeps the flags apart. -/
structure Settled (dma : DMAController) : Prop extends dma.FlagsExclusive where
  left : dma.BytesLeft
  moved : dma.transferredBytes ≤ dma.length

variable {dma : DMAController} {dev : Devices R H Cb} {noop : Cb}

theorem settled_new (memory mmioBus interruptController uart : Bool) :
    (new memory mmioBus interruptController uart).Settled where
  busy h := absurd h Bool.false_ne_true
  completed h := absurd h Bool.false_ne_true
  left h := absurd h Bool.false_ne_true
  moved := UInt64.le_refl _

theorem Settled.of_idle (hbusy : dma.busy = false) (hcompleted : dma.completed = false)
    (hmoved : dma.transferredBytes ≤ dma.length) : dma.Settled where
  busy h := absurd (hbusy.symm.trans h) Bool.false_ne_true
  completed h := absurd (hcompleted.symm.trans h) Bool.false_ne_true
  left h := absurd (hbusy.symm.trans h) Bool.false_ne_true
  moved := hmoved

theorem Settled.of_completed (hbusy : dma.busy = false) (herror : dma.error = false)
    (hmoved : dma.transferredBytes = dma.length) : dma.Settled where
  busy h := absurd (hbusy.symm.trans h) Bool.false_ne_true
  completed _ := ⟨herror, hmoved⟩
  left h := absurd (hbusy.symm.trans h) Bool.false_ne_true
  moved := hmoved ▸ UInt64.le_refl _

/-! ### Operations -/

theorem start_of_detached (h : dma.Detached) :
    dma.start dev = (.ok false, { dma with error := true }, dev) := if_pos h

variable (dev) in
/-- A `start` of some bytes fails, or begins a transfer. -/
theorem start_of_attached (hattached : ¬ dma.Detached) (hlength : dma.length ≠ 0) :
    dma.start dev =
        (.ok false, { dma with error := true, busy := false, completed := false }, dev) ∨
      dma.start dev =
        (.ok true, { dma with
          currentSrc := dma.sourceAddress
          currentDst := dma.destinationAddress
          transferredBytes := 0
          busy := true
          completed := false
          error := false }, dev) := by
  unfold Detached at hattached
  rw [start, if_neg hattached, if_neg hlength]
  dsimp only
  split_ifs
  · exact .inl rfl
  · exact .inr rfl

/-- A `start` that is not refused for want of a device. -/
theorem Settled.start (h : dma.Settled) (hattached : ¬ dma.Detached) :
    (dma.start dev).2.1.Settled := by
  by_cases hlength : dma.length = 0
  · -- nothing to transfer: `start` completes at once
    have hmoved : dma.transferredBytes = dma.length := by
      refine UInt64.le_antisymm h.moved ?_
      rw [hlength]
      exact UInt64.zero_le
    rw [← startCalls_fst, (startCalls_zero hattached hlength).1]
    exact .of_completed rfl rfl hmoved
  · rcases start_of_attached dev hattached hlength with hstart | hstart
    · rw [hstart]
      exact .of_idle rfl rfl h.moved
    · rw [hstart]
      exact ⟨⟨fun _ => ⟨rfl, rfl⟩, fun h => absurd h Bool.false_ne_true⟩,
        fun _ => UInt64.pos_iff_ne_zero.2 hlength, UInt64.zero_le⟩

/-- `start` returns `false` only with the error flag. -/
theorem error_of_start (h : (dma.start dev).1 = .ok false) : (dma.start dev).2.1.error = true := by
  by_cases hattached : dma.Detached
  · rw [start_of_detached hattached]
  · by_cases hlength : dma.length = 0
    · unfold Detached at hattached
      rw [DMAController.start, if_neg hattached, if_pos hlength] at h
      dsimp only at h
      split at h <;> cases h
    · rcases start_of_attached dev hattached hlength with hstart | hstart
      · rw [hstart]
      · rw [hstart] at h
        cases h

/-- The step that moves a byte. -/
theorem Settled.advanced (h : dma.Settled) (hbusy : dma.busy = true) :
    (dma.advanced.completeCalls dev noop).1.1.1.Settled := by
  obtain ⟨hcompleted, herror⟩ := h.busy hbusy
  have hleft := UInt64.lt_iff_toNat_lt.1 (h.left hbusy)
  have hmoved := toNat_moved (h.left hbusy)
  have hle : dma.advanced.transferredBytes ≤ dma.advanced.length := by
    rw [UInt64.le_iff_toNat_le]
    change (dma.transferredBytes + 1).toNat ≤ dma.length.toNat
    omega
  rw [completeCalls_eq.1]
  split_ifs with hlast
  · exact .of_completed rfl herror (UInt64.le_antisymm hle hlast)
  · exact ⟨⟨fun _ => ⟨hcompleted, herror⟩,
      fun h => absurd (hcompleted.symm.trans h) Bool.false_ne_true⟩,
      fun _ => UInt64.not_le.1 hlast, hle⟩

theorem Settled.step [DecidableEq R] (h : dma.Settled) :
    (dma.stepCalls dev noop).1.1.1.Settled := by
  by_cases hbusy : dma.busy = true
  · rcases stepCalls_cases dev noop h.left with ⟨dev', -, heq⟩ | ⟨heq | heq, -⟩
    · rw [heq]
      exact h.advanced hbusy
    · rw [heq]
      exact h
    · rw [heq]
      exact .of_idle rfl (h.busy hbusy).1 h.moved
  · rw [stepCalls, if_pos hbusy]
    exact h

theorem Settled.configure (h : dma.Settled) (sourceAddress destinationAddress : Address)
    (length : UInt64) : (dma.configure dev sourceAddress destinationAddress length).2.Settled := by
  by_cases hbusy : dma.busy = true
  · rw [DMAController.configure, if_pos hbusy]
    exact h
  · rw [DMAController.configure, if_neg hbusy]
    exact .of_idle rfl rfl UInt64.zero_le

namespace Signals

variable [DecidableEq R] {s : Signals R H Cb} {op : Op R H Cb}

/-- A `start` without a device is made while no transfer is busy or completed. -/
def MayFail (s : Signals R H Cb) (op : Op R H Cb) : Prop :=
  op = .start → s.dma.Detached → s.dma.busy = false ∧ s.dma.completed = false

/-- A `start` that returns `false` leaves no transfer busy or completed. -/
def Clears (s : Signals R H Cb) (op : Op R H Cb) : Prop :=
  op = .start → (s.dma.start s.dev).1 = .ok false →
    (s.dma.start s.dev).2.1.busy = false ∧ (s.dma.start s.dev).2.1.completed = false

/-- **Step lemma.** -/
theorem settled_perform (h : s.dma.Settled) (hmay : s.MayFail op) :
    (s.perform noop op).dma.Settled := by
  cases op with
  | configure sourceAddress destinationAddress length =>
    exact h.configure sourceAddress destinationAddress length
  | start =>
    change (s.dma.startCalls s.dev).1.2.1.Settled
    rw [startCalls_fst]
    by_cases hdetached : s.dma.Detached
    · obtain ⟨hbusy, hcompleted⟩ := hmay rfl hdetached
      rw [start_of_detached hdetached]
      exact .of_idle hbusy hcompleted h.moved
    · exact h.start hdetached
  | stop =>
    -- it clears the busy flag, and leaves the other two
    exact ⟨⟨fun h => absurd h Bool.false_ne_true, h.completed⟩,
      fun h => absurd h Bool.false_ne_true, h.moved⟩
  | step => exact h.step
  | reset => exact .of_idle rfl rfl (UInt64.le_refl _)
  | setIncrements _ _ | attachMemory _ | attachMMIO _ | attachUART _ | detachUART
  | attachScheduler _ | detachScheduler | attachInterruptController _ _
  | detachInterruptController | environment _ =>
    exact ⟨⟨h.busy, h.completed⟩, h.left, h.moved⟩

variable (noop) in
theorem clears_of_exclusive (h : (s.perform noop .start).dma.FlagsExclusive) : s.Clears op := by
  rintro - hfalse
  change (s.dma.startCalls s.dev).1.2.1.FlagsExclusive at h
  rw [startCalls_fst] at h
  have herror := error_of_start hfalse
  refine ⟨Bool.eq_false_iff.2 fun hbusy => ?_, Bool.eq_false_iff.2 fun hcompleted => ?_⟩
  · exact Bool.false_ne_true ((h.busy hbusy).2.symm.trans herror)
  · exact Bool.false_ne_true ((h.completed hcompleted).1.symm.trans herror)

theorem not_exclusive_perform (hmay : ¬ s.MayFail op) :
    ¬ (s.perform noop op).dma.FlagsExclusive := by
  simp only [MayFail, not_forall] at hmay
  obtain ⟨rfl, hdetached, hset⟩ := hmay
  intro h
  have hfalse : (s.dma.start s.dev).1 = .ok false := by rw [start_of_detached hdetached]
  have hclear := clears_of_exclusive noop h rfl hfalse
  rw [start_of_detached hdetached] at hclear
  exact hset hclear

end Signals

/-- **The status flags.**  They exclude each other throughout a run, and every refused `start`
clears them, iff every `start` without a device is made in a state with neither flag set. -/
theorem flagsExclusive_iff [DecidableEq R] (memory mmioBus interruptController uart : Bool)
    (dev : Devices R H Cb) (noop : Cb) (ops : List (Op R H Cb)) :
    let s : Signals R H Cb := ⟨new memory mmioBus interruptController uart, dev, []⟩
    ((machine noop).Throughout (fun s => s.dma.FlagsExclusive) s ops ∧
        (machine noop).Allowed Signals.Clears s ops) ↔
      (machine noop).Allowed Signals.MayFail s ops := by
  intro s
  have hiff : (machine noop).Throughout (fun s => s.dma.FlagsExclusive) s ops ↔
      (machine noop).Allowed Signals.MayFail s ops := by
    refine LTS.throughout_iff_allowed (I := fun s => s.dma.Settled) (fun s op => ⟨_, rfl⟩)
      (settled_new memory mmioBus interruptController uart) (fun s h => h.toFlagsExclusive) ?_ ?_
    · rintro s op t h rfl hmay
      exact Signals.settled_perform h hmay
    · rintro s op t - rfl hmay
      exact Signals.not_exclusive_perform hmay
  -- what a refused `start` left set would stand beside the error flag
  rw [← hiff]
  refine ⟨And.left, fun h => ⟨h, ?_⟩⟩
  rintro pre op t hpre hrun rfl
  exact Signals.clears_of_exclusive noop (h _ _ hpre (hrun.snoc rfl)) rfl

/-- A transfer that is busy when the memory is detached, and started again. -/
def detachedStart : List (Op Empty Unit Unit) :=
  [.configure 0 3 2, .start, .attachMemory false, .start]

/-- The controller is busy, and in error. -/
theorem not_flagsExclusive_detached :
    ¬ (machine ()).Throughout (fun s => s.dma.FlagsExclusive)
      (⟨new true false false false, sixBytes, []⟩ : Signals Empty Unit Unit) detachedStart := by
  intro h
  have hflags := h detachedStart _ (List.prefix_refl _)
    (.cons rfl (.cons rfl (.cons rfl (.cons rfl (.nil _)))))
  exact absurd (hflags.busy (by decide)).2 (by decide)

end DMAController

end Drivers

end EFS
