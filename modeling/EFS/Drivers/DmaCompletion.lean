import EFS.Drivers.DmaTransfer
import EFS.LTS.Basic

/-!
# Completion of DMA transfers

A transfer is completed by the step that moves its last byte, or by `start` if it has no bytes; both
trigger the completion interrupt.  `step` also completes a transfer that has no bytes left when it
begins, without an interrupt.  `completion_signalled` shows that no run gets there: a busy
controller has bytes left.

The calls of `trigger` are recorded next to what an operation does, by `startCalls` and `stepCalls`.
-/

namespace EFS

namespace Drivers

open EFS.Mmio EFS.Kernel EFS.System

namespace DMAController

variable {R H Cb : Type}

section

variable (dma : DMAController) (dev : Devices R H Cb)

/-! ### Calls of `trigger` -/

/-- `triggerInterrupt`, and the ids it calls `trigger` with. -/
def triggerInterruptCalls : (Devices R H Cb × Option String) × List UInt8 :=
  if dma.interruptController then
    match dev.interruptController.trigger dma.interruptId with
    | .ok ic => (({ dev with interruptController := ic }, none), [dma.interruptId])
    | .error e => ((dev, some e), [dma.interruptId])
  else ((dev, none), [])

/-- `start`, and the ids it calls `trigger` with. -/
def startCalls : (Except String Bool × DMAController × Devices R H Cb) × List UInt8 :=
  if ¬ dma.memory ∧ ¬ dma.mmioBus ∧ ¬ dma.uart then (dma.start dev, [])
  else if dma.length = 0 then
    let dma := { dma with busy := false, completed := true, error := false }
    match dma.triggerInterruptCalls dev with
    | ((dev, none), calls) => ((.ok true, dma, dev), calls)
    | ((dev, some e), calls) => ((.error e, dma, dev), calls)
  else (dma.start dev, [])

/-- `complete`, and the ids it calls `trigger` with. -/
def completeCalls (noop : Cb) : ((DMAController × Devices R H Cb) × Option String) × List UInt8 :=
  if dma.length ≤ dma.transferredBytes then
    let dma := { dma with busy := false, completed := true }
    match dma.triggerInterruptCalls dev with
    | ((dev, none), calls) =>
      (((dma, if dma.scheduler then
        { dev with scheduler := (dev.scheduler.schedule (some noop) 0 "DMA Transfer Complete").2 }
      else dev), none), calls)
    | ((dev, some e), calls) => (((dma, dev), some e), calls)
  else (((dma, dev), none), [])

variable [DecidableEq R]

/-- `step()`, and the ids it calls `trigger` with. -/
def stepCalls (noop : Cb) : ((DMAController × Devices R H Cb) × Option String) × List UInt8 :=
  if ¬ dma.busy then (((dma, dev), none), [])
  else if dma.length ≤ dma.transferredBytes then
    ((({ dma with busy := false, completed := true }, dev), none), [])
  else
    match dma.fetch dev dma.currentSrc with
    | .error e => (((dma, dev), some e), [])
    | .ok none => (((dma.failed, dev), none), [])
    | .ok (some (byte, dev)) =>
      match dma.deposit dev dma.currentDst byte with
      | .error e => (((dma, dev), some e), [])
      | .ok none => (((dma.failed, dev), none), [])
      | .ok (some dev) => dma.advanced.completeCalls dev noop

omit [DecidableEq R]

theorem triggerInterruptCalls_fst :
    (dma.triggerInterruptCalls dev).1 = dma.triggerInterrupt dev := by
  unfold triggerInterruptCalls triggerInterrupt
  split_ifs
  · cases dev.interruptController.trigger dma.interruptId <;> rfl
  · rfl

theorem startCalls_fst : (dma.startCalls dev).1 = dma.start dev := by
  unfold startCalls
  split_ifs with hattached hlength
  · rfl
  · rw [start, if_neg hattached, if_pos hlength]
    dsimp only
    rw [← triggerInterruptCalls_fst]
    rcases triggerInterruptCalls _ dev with ⟨⟨dev', _ | e⟩, calls⟩ <;> rfl
  · rfl

theorem completeCalls_fst (noop : Cb) :
    (dma.completeCalls dev noop).1 = dma.complete dev noop := by
  unfold completeCalls complete
  split_ifs with hlength
  · dsimp only
    rw [← triggerInterruptCalls_fst]
    rcases triggerInterruptCalls _ dev with ⟨⟨dev', _ | e⟩, calls⟩ <;> rfl
  · rfl

/-- The calls are recorded next to what `step` does. -/
theorem stepCalls_fst [DecidableEq R] (noop : Cb) :
    (dma.stepCalls dev noop).1 = dma.step dev noop := by
  unfold stepCalls step
  split_ifs with hbusy hlength
  · rfl
  · rcases dma.fetch dev dma.currentSrc with e | _ | ⟨byte, dev'⟩
    · rfl
    · rfl
    · dsimp only
      rcases dma.deposit dev' dma.currentDst byte with e | _ | dev''
      · rfl
      · rfl
      · exact completeCalls_fst ..
  · rfl

end

/-! ### The controller and its surroundings -/

/-- Calls of a controller.  `environment` is what other code does to the devices between them, or
the devices of which a pointer is passed to an `attach` call. -/
inductive Op (R H Cb : Type)
  | configure (sourceAddress destinationAddress : Address) (length : UInt64)
  | setIncrements (sourceIncrement destinationIncrement : Bool)
  | start
  | stop
  | step
  | reset
  | attachMemory (given : Bool)
  | attachMMIO (given : Bool)
  | attachUART (given : Bool)
  | detachUART
  | attachScheduler (given : Bool)
  | detachScheduler
  | attachInterruptController (given : Bool) (interruptId : UInt8)
  | detachInterruptController
  | environment (dev : Devices R H Cb)

/-- A controller, its devices and the ids that it has called `trigger` with, the last one first. -/
structure Signals (R H Cb : Type) where
  dma : DMAController
  dev : Devices R H Cb
  triggered : List UInt8

namespace Signals

variable [DecidableEq R] (s : Signals R H Cb)

/-- The state after a call, also if it throws. -/
def perform (noop : Cb) : Op R H Cb → Signals R H Cb
  | .configure sourceAddress destinationAddress length =>
    { s with dma := (s.dma.configure s.dev sourceAddress destinationAddress length).2 }
  | .setIncrements sourceIncrement destinationIncrement =>
    { s with dma := s.dma.setIncrements sourceIncrement destinationIncrement }
  | .start =>
    let ((_, dma, dev), calls) := s.dma.startCalls s.dev
    ⟨dma, dev, calls ++ s.triggered⟩
  | .stop => { s with dma := s.dma.stop }
  | .step =>
    let (((dma, dev), _), calls) := s.dma.stepCalls s.dev noop
    ⟨dma, dev, calls ++ s.triggered⟩
  | .reset => { s with dma := s.dma.reset }
  | .attachMemory given => { s with dma := { s.dma with memory := given } }
  | Op.attachMMIO given => { s with dma := { s.dma with mmioBus := given } }
  | .attachUART given => { s with dma := { s.dma with uart := given } }
  | .detachUART => { s with dma := s.dma.detachUART }
  | .attachScheduler given => { s with dma := { s.dma with scheduler := given } }
  | .detachScheduler => { s with dma := s.dma.detachScheduler }
  | .attachInterruptController given interruptId =>
    { s with dma := { s.dma with interruptController := given, interruptId } }
  | .detachInterruptController => { s with dma := s.dma.detachInterruptController }
  | .environment dev => { s with dev }

/-- The operation moves the last byte of a transfer, or starts one of no bytes. -/
def Completes (noop : Cb) : Op R H Cb → Prop
  | .step => s.dma.busy = true ∧
      (s.perform noop .step).dma.transferredBytes.toNat = s.dma.transferredBytes.toNat + 1 ∧
      (s.perform noop .step).dma.transferredBytes = s.dma.length
  | .start => s.dma.length = 0 ∧ (s.dma.start s.dev).1 = .ok true
  | _ => False

/-- An interrupt controller is attached, with the id of one of its lines. -/
def Attached : Prop := s.dma.interruptController = true ∧ s.dma.interruptId.toNat < maxInterrupts

end Signals

/-- The runs of a controller. -/
def machine [DecidableEq R] (noop : Cb) : LTS (Signals R H Cb) (Op R H Cb) where
  step s op t := t = s.perform noop op

/-! ### What a busy controller has left -/

/-- A busy controller has bytes left. -/
def BytesLeft (dma : DMAController) : Prop :=
  dma.busy = true → dma.transferredBytes < dma.length

variable {dma : DMAController} {dev : Devices R H Cb} {noop : Cb}

/-- What the completion does to the controller, and what it signals. -/
theorem completeCalls_eq : (dma.completeCalls dev noop).1.1.1 =
      (if dma.length ≤ dma.transferredBytes then { dma with busy := false, completed := true }
      else dma) ∧
    (dma.completeCalls dev noop).2 =
      if dma.length ≤ dma.transferredBytes ∧ dma.interruptController = true then [dma.interruptId]
      else [] := by
  unfold completeCalls
  by_cases hlength : dma.length ≤ dma.transferredBytes
  · simp only [hlength, true_and, triggerInterruptCalls]
    by_cases hic : dma.interruptController = true
    · simp only [hic, if_true]
      cases dev.interruptController.trigger dma.interruptId <;> exact ⟨rfl, rfl⟩
    · simp only [hic]
      exact ⟨rfl, rfl⟩
  · simp only [hlength, false_and, if_false, and_self]

variable (dev noop) in
/-- A step leaves the controller, fails, or moves a byte. -/
theorem stepCalls_cases [DecidableEq R] (h : dma.BytesLeft) :
    (∃ dev', dma.busy = true ∧ dma.stepCalls dev noop = dma.advanced.completeCalls dev' noop) ∨
      ((dma.stepCalls dev noop).1.1.1 = dma ∨ (dma.stepCalls dev noop).1.1.1 = dma.failed) ∧
        (dma.stepCalls dev noop).2 = [] := by
  by_cases hbusy : dma.busy = true
  · rw [stepCalls, if_neg (not_not.2 hbusy), if_neg (UInt64.not_le.2 (h hbusy))]
    rcases dma.fetch dev dma.currentSrc with e | _ | ⟨byte, dev'⟩
    · exact .inr ⟨.inl rfl, rfl⟩
    · exact .inr ⟨.inr rfl, rfl⟩
    · dsimp only
      rcases dma.deposit dev' dma.currentDst byte with e | _ | dev''
      · exact .inr ⟨.inl rfl, rfl⟩
      · exact .inr ⟨.inr rfl, rfl⟩
      · exact .inl ⟨dev'', hbusy, rfl⟩
  · rw [stepCalls, if_pos hbusy]
    exact .inr ⟨.inl rfl, rfl⟩

theorem startCalls_zero (hattached : ¬ (¬ dma.memory ∧ ¬ dma.mmioBus ∧ ¬ dma.uart))
    (hlength : dma.length = 0) :
    (dma.startCalls dev).1.2.1 = { dma with busy := false, completed := true, error := false } ∧
      (dma.startCalls dev).2 = if dma.interruptController then [dma.interruptId] else [] := by
  rw [startCalls, if_neg hattached, if_pos hlength]
  simp only [triggerInterruptCalls]
  split_ifs
  · cases dev.interruptController.trigger dma.interruptId <;> exact ⟨rfl, rfl⟩
  · exact ⟨rfl, rfl⟩

theorem startCalls_pos
    (h : (¬ dma.memory ∧ ¬ dma.mmioBus ∧ ¬ dma.uart) ∨ dma.length ≠ 0) :
    dma.startCalls dev = (dma.start dev, []) := by
  unfold startCalls
  split_ifs with hattached hlength
  · rfl
  · exact absurd hlength (h.resolve_left hattached)
  · rfl

theorem start_completed (h : (¬ dma.memory ∧ ¬ dma.mmioBus ∧ ¬ dma.uart) ∨ dma.length ≠ 0) :
    (dma.start dev).2.1.completed = true → dma.completed = true := by
  unfold start
  split_ifs with hattached hlength
  · exact id
  · exact absurd hlength (h.resolve_left hattached)
  · dsimp only
    split_ifs <;> exact False.elim

theorem bytesLeft_start (h : dma.BytesLeft) : (dma.start dev).2.1.BytesLeft := by
  unfold start
  split_ifs with hattached hlength
  · exact h
  · dsimp only
    rcases triggerInterrupt _ dev with ⟨dev', _ | e⟩ <;>
      exact fun hbusy => absurd hbusy Bool.false_ne_true
  · dsimp only
    split_ifs
    · exact fun hbusy => absurd hbusy Bool.false_ne_true
    · exact fun _ => UInt64.pos_iff_ne_zero.2 hlength

theorem configure_cases (sourceAddress destinationAddress : Address) (length : UInt64) :
    (dma.configure dev sourceAddress destinationAddress length).2 = dma ∨
      (dma.configure dev sourceAddress destinationAddress length).2.busy = false ∧
        (dma.configure dev sourceAddress destinationAddress length).2.completed = false := by
  by_cases hbusy : dma.busy = true
  · exact .inl (by rw [configure, if_pos hbusy])
  · exact .inr (by rw [configure, if_neg hbusy]; exact ⟨rfl, rfl⟩)

namespace Signals

variable [DecidableEq R] {s : Signals R H Cb} {op : Op R H Cb}

theorem bytesLeft_step (h : s.dma.BytesLeft) : (s.perform noop .step).dma.BytesLeft := by
  change (s.dma.stepCalls s.dev noop).1.1.1.BytesLeft
  rcases stepCalls_cases s.dev noop h with
    ⟨dev', hbusy, heq⟩ | ⟨hdma | hdma, -⟩
  · rw [heq, completeCalls_eq.1]
    split_ifs with hlength
    · exact fun hbusy => absurd hbusy Bool.false_ne_true
    · exact fun _ => UInt64.not_le.1 hlength
  · rw [hdma]
    exact h
  · rw [hdma]
    exact fun hbusy => absurd hbusy Bool.false_ne_true

/-- **Step lemma.**  Every operation keeps that a busy controller has bytes left. -/
theorem bytesLeft_perform (h : s.dma.BytesLeft) : (s.perform noop op).dma.BytesLeft := by
  cases op with
  | configure sourceAddress destinationAddress length =>
    change (s.dma.configure s.dev sourceAddress destinationAddress length).2.BytesLeft
    rcases s.dma.configure_cases sourceAddress destinationAddress length with heq | ⟨hbusy, -⟩
    · rw [heq]
      exact h
    · exact fun h => absurd (hbusy.symm.trans h) Bool.false_ne_true
  | start =>
    change (s.dma.startCalls s.dev).1.2.1.BytesLeft
    rw [startCalls_fst]
    exact bytesLeft_start h
  | step => exact bytesLeft_step h
  | stop | reset => exact fun hbusy => absurd hbusy Bool.false_ne_true
  | setIncrements _ _ | attachMemory _ | attachMMIO _ | attachUART _ | detachUART
  | attachScheduler _ | detachScheduler | attachInterruptController _ _
  | detachInterruptController | environment _ => exact h

theorem bytesLeft_reachable {s₀ : Signals R H Cb} (h : (machine noop).Reachable s₀ s)
    (h₀ : s₀.dma.BytesLeft) : s.dma.BytesLeft := by
  refine h.invariant (I := fun s => s.dma.BytesLeft) h₀ ?_
  rintro s op t hs rfl
  exact bytesLeft_perform hs

/-! ### Completion -/

/-- The last byte of a transfer completes it and signals the completion; no other step does. -/
theorem completion_step (h : s.dma.BytesLeft) (hs : s.Attached) :
    (s.Completes noop .step → (s.perform noop .step).dma.completed = true ∧
      (s.perform noop .step).triggered = s.dma.interruptId :: s.triggered) ∧
    (¬ s.Completes noop .step →
      ((s.perform noop .step).dma.completed = true → s.dma.completed = true) ∧
        (s.perform noop .step).triggered = s.triggered) := by
  have hdma : (s.perform noop .step).dma = (s.dma.stepCalls s.dev noop).1.1.1 := rfl
  have htriggered : (s.perform noop .step).triggered =
      (s.dma.stepCalls s.dev noop).2 ++ s.triggered := rfl
  simp only [Completes, htriggered, hdma]
  rcases stepCalls_cases s.dev noop h with
    ⟨dev', hbusy, heq⟩ | ⟨hsame | hsame, hcalls⟩
  · have hleft := UInt64.lt_iff_toNat_lt.1 (h hbusy)
    have hmoved := toNat_moved (h hbusy)
    obtain ⟨hcomplete, hcalls⟩ := completeCalls_eq
    rw [heq, hcomplete, hcalls]
    by_cases hlast : s.dma.advanced.length ≤ s.dma.advanced.transferredBytes
    · -- the byte was the last one
      have hlength : s.dma.transferredBytes + 1 = s.dma.length := by
        have := UInt64.le_iff_toNat_le.1 hlast
        change s.dma.length.toNat ≤ (s.dma.transferredBytes + 1).toNat at this
        exact UInt64.toNat_inj.1 (by omega)
      rw [if_pos hlast, if_pos ⟨hlast, hs.1⟩]
      exact ⟨fun _ => ⟨rfl, rfl⟩, fun hnot => absurd ⟨hbusy, hmoved, hlength⟩ hnot⟩
    · rw [if_neg hlast, if_neg fun hand => hlast hand.1]
      refine ⟨fun hlength => absurd ?_ hlast, fun _ => ⟨id, rfl⟩⟩
      rw [hlength.2.2]
      exact UInt64.le_refl _
  · rw [hsame, hcalls]
    exact ⟨fun hmoved => absurd hmoved.2.1 (by omega), fun _ => ⟨id, rfl⟩⟩
  · rw [hsame, hcalls]
    refine ⟨fun hmoved => absurd hmoved.2.1 ?_, fun _ => ⟨id, rfl⟩⟩
    change s.dma.transferredBytes.toNat ≠ _
    omega

theorem completion_start (hs : s.Attached) :
    (s.Completes noop .start → (s.perform noop .start).dma.completed = true ∧
      (s.perform noop .start).triggered = s.dma.interruptId :: s.triggered) ∧
    (¬ s.Completes noop .start →
      ((s.perform noop .start).dma.completed = true → s.dma.completed = true) ∧
        (s.perform noop .start).triggered = s.triggered) := by
  have hdma : (s.perform noop .start).dma = (s.dma.startCalls s.dev).1.2.1 := rfl
  have htriggered : (s.perform noop .start).triggered =
      (s.dma.startCalls s.dev).2 ++ s.triggered := rfl
  rw [hdma, htriggered]
  by_cases h : (¬ s.dma.memory ∧ ¬ s.dma.mmioBus ∧ ¬ s.dma.uart) ∨ s.dma.length ≠ 0
  · rw [startCalls_pos h]
    refine ⟨?_, fun _ => ⟨start_completed h, rfl⟩⟩
    intro hzero
    -- a transfer of no bytes is not started without a device
    have hnone := h.resolve_right (not_not.2 hzero.1)
    have hfalse := hzero.2
    rw [start, if_pos hnone] at hfalse
    cases hfalse
  · rw [not_or, not_not] at h
    obtain ⟨hcontroller, hcalls⟩ := startCalls_zero h.1 h.2
    rw [hcontroller, hcalls, if_pos hs.1]
    refine ⟨fun _ => ⟨rfl, rfl⟩, fun hnot => absurd ⟨h.2, ?_⟩ hnot⟩
    obtain ⟨ic, hic⟩ := (s.dev.interruptController.trigger_ok_iff).2 hs.2
    rw [start, if_neg h.1, if_pos h.2]
    simp only [triggerInterrupt, hs.1, if_true, hic]

/-- No other operation completes a transfer. -/
theorem completion_other (hstep : op ≠ .step) (hstart : op ≠ .start) :
    ¬ s.Completes noop op ∧ ((s.perform noop op).dma.completed = true → s.dma.completed = true) ∧
      (s.perform noop op).triggered = s.triggered := by
  cases op with
  | step => exact absurd rfl hstep
  | start => exact absurd rfl hstart
  | configure sourceAddress destinationAddress length =>
    refine ⟨id, ?_, rfl⟩
    change (s.dma.configure s.dev sourceAddress destinationAddress length).2.completed = true → _
    rcases s.dma.configure_cases sourceAddress destinationAddress length with heq | ⟨-, hfalse⟩
    · rw [heq]
      exact id
    · exact fun h => absurd (hfalse.symm.trans h) Bool.false_ne_true
  | reset => exact ⟨id, fun h => absurd h Bool.false_ne_true, rfl⟩
  | stop | setIncrements _ _ | attachMemory _ | attachMMIO _ | attachUART _ | detachUART
  | attachScheduler _ | detachScheduler | attachInterruptController _ _
  | detachInterruptController | environment _ => exact ⟨id, id, rfl⟩

end Signals

/-- **Completion is signalled once.**  While an interrupt controller is attached, a transfer is
completed by the operation that moves its last byte or starts it with no bytes, and by no other;
that operation triggers the interrupt once, and every other one does not.  A busy controller has
bytes left. -/
theorem completion_signalled [DecidableEq R] (memory mmioBus interruptController uart : Bool)
    (dev : Devices R H Cb) (noop : Cb) {s : Signals R H Cb} (op : Op R H Cb)
    (hreachable : (machine noop).Reachable
      ⟨new memory mmioBus interruptController uart, dev, []⟩ s)
    (hs : s.Attached) :
    (s.dma.busy = true → s.dma.transferredBytes < s.dma.length) ∧
      (s.dma.completed = false → (s.perform noop op).dma.completed = true →
        s.Completes noop op) ∧
      (s.Completes noop op → (s.perform noop op).dma.completed = true ∧
        (s.perform noop op).triggered = s.dma.interruptId :: s.triggered) ∧
      (¬ s.Completes noop op → (s.perform noop op).triggered = s.triggered) := by
  have hleft : s.dma.BytesLeft :=
    Signals.bytesLeft_reachable hreachable fun h => absurd h Bool.false_ne_true
  have hop : (s.Completes noop op → (s.perform noop op).dma.completed = true ∧
        (s.perform noop op).triggered = s.dma.interruptId :: s.triggered) ∧
      (¬ s.Completes noop op →
        ((s.perform noop op).dma.completed = true → s.dma.completed = true) ∧
          (s.perform noop op).triggered = s.triggered) := by
    by_cases hstep : op = .step
    · rw [hstep]
      exact Signals.completion_step hleft hs
    · by_cases hstart : op = .start
      · rw [hstart]
        exact Signals.completion_start hs
      · obtain ⟨hnot, hcompleted, htriggered⟩ :=
          Signals.completion_other (s := s) hstep hstart
        exact ⟨fun h => absurd h hnot, fun _ => ⟨hcompleted, htriggered⟩⟩
  refine ⟨hleft, ?_, hop.1, fun hnot => (hop.2 hnot).2⟩
  intro hfalse htrue
  by_contra hnot
  exact Bool.false_ne_true (hfalse.symm.trans ((hop.2 hnot).1 htrue))

/-- A transfer of one byte that has been started. -/
def oneByte : Signals Empty Unit Unit :=
  ((⟨new true true true true, sixBytes, []⟩ : Signals Empty Unit Unit).perform ()
    (.configure 0 3 1)).perform () .start

/-- Its first step completes it. -/
theorem completion_signalled_oneByte :
    oneByte.Completes () .step ∧ (oneByte.perform () .step).triggered = [0] := by
  have hcompletes : oneByte.Completes () .step := ⟨by decide, by decide, by decide⟩
  obtain ⟨-, -, hsignalled, -⟩ := completion_signalled true true true true sixBytes () .step
    (s := oneByte) ⟨[.configure 0 3 1, .start], .cons rfl (.cons rfl (.nil _))⟩ ⟨rfl, by decide⟩
  exact ⟨hcompletes, (hsignalled hcompletes).2⟩

end DMAController

end Drivers

end EFS
